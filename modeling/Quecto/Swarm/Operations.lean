/-
  Swarm/Operations.lean --- what members do on a swarm's board, and their calls
  interleaved.

  Source: `application/swarm/use_cases/*.rs` and `services/board_operation.rs`.
-/
import Quecto.Swarm.Board

namespace Quecto.Swarm

open Foundation Encoding

def fullCommitId (text : String) : Bool :=
  (text.length == 40 || text.length == 64) &&
    text.toList.all fun c => c.isDigit || ('a' ≤ c && c ≤ 'f')

/-- What a verification at a later commit carries: the earlier commits the evidence names,
and the evidence at the verified commit. -/
structure EvidenceCarry where
  sources : List String
  evidence : Value

def carryEntry (target : String) (entry : Value) : Option (String × Value) :=
  match entry with
  | .object fields => do
      let source ← (fields.lookup "revision").bind Value.asStr
      if fullCommitId source then
        let carried := fields.map fun (key, value) =>
          if key = "revision" then (key, Value.string target) else (key, value)
        some (source, .object carried)
      else none
  | _ => none

def evidenceCarry (evidence revision : Value) : Option EvidenceCarry :=
  match revision, evidence with
  | .string target, .array entries =>
      if fullCommitId target && !entries.isEmpty then do
        let carried ← entries.mapM (carryEntry target)
        let sources := ((carried.map (·.1)).filter (· != target)).eraseDups
        if sources.isEmpty then none else some ⟨sources, .array (carried.map (·.2))⟩
      else none
  | _, _ => none

structure CarryPlan where
  previous : Value
  carry : EvidenceCarry

def stale : BoardError := ⟨.staleRevision, "stale evidence revision"⟩

def unrevisioned : BoardError := ⟨.store, "stored evidence is not a list of revisioned entries"⟩

def entriesAt (revision : Value) : List Value → Except BoardError Unit
  | [] => .ok ()
  | entry :: rest => do
      let stored ← okOr (entry.get "revision") unrevisioned
      require (pythonEqual stored revision) stale
      entriesAt revision rest

def currentRevision (task : Task) (revision : Value) : Except BoardError Unit :=
  match task.evidence with
  | .array entries => entriesAt revision entries
  | _ => .error unrevisioned

def Task.carry (task : Task) (revision : Value) (refusal : BoardError) :
    Except BoardError CarryPlan :=
  match evidenceCarry task.evidence revision with
  | some found =>
      if task.status == .submitted && refusal.kind == .staleRevision then
        .ok ⟨task.evidence, found⟩
      else .error refusal
  | none => .error refusal

inductive Answer where
  | task (task : Task)
  | created (task : Task) (replayed : Bool)
  | changed (task : Task) (applied : Bool)
  | carry (plan : CarryPlan)
  | revoked (task : Task) (notified : Option Bool)
  | recovered (task : Task) (reservationsReleased : Nat)
  | reserved (task : Int) (token : String) (paths : List String)
  | released (task : Int) (files : Nat)
  | alreadyDead
  | dead (coordinator : Bool) (reservationsRetained : Nat) (endedByLoss : Bool)
  | done

abbrev Outcome := Except BoardError (Answer × Board)

def requestIdMaxBytes : Nat := 128
def taskBoardCapacity : Nat := 1000
def requestLedgerCapacity : Nat := 10000
def fileBoardCapacity : Nat := 1000
def pathsPerCall : Nat := 100
def pathMaxBytes : Nat := 4096
def inboxCapacity : Nat := 100

abbrev PathSet := { paths : List String // paths.Nodup }

def PathSet.of (paths : List String) : PathSet :=
  ⟨paths.dedup.mergeSort fun a b => decide (a ≤ b),
    (List.mergeSort_perm _ _).nodup_iff.mpr paths.nodup_dedup⟩

namespace Board

variable [Affinity] [Encoding] (board : Board) (now : Rat) (actor : String)

/-! ## Tasks -/

def nextTaskId : Int := board.tasks.foldl (fun last task => max last task.id) 0 + 1

def create (title : String) (acceptance dependencies : Value) : Except BoardError (Task × Board) :=
  do
  require (board.tasks.length < taskBoardCapacity)
    ⟨.capacityFull, s!"task board full ({taskBoardCapacity}); settle existing work"⟩
  let _ ← encode acceptance
  let _ ← encode dependencies
  let id := board.nextTaskId
  let listed ← dependencyList dependencies
  let task : Task := {
    id, title, acceptance
    dependencies := listed
    status := .ready
    owner := none
    token := none
    evidence := .array []
    blocker := none }
  let board : Board := { board with tasks := board.tasks ++ [task] }
  validateDependencies (.int id) listed (board.tasks.map fun task => (task.id, task.dependencies))
  let board ← board.event actor now "task_created" [("task", .int id)]
  let created ← board.readTask (.int id)
  return (created, board)

def createTask (title acceptance dependencies request : Value) : Outcome := do
  let title ← bounded title "title" titleMaxBytes
  let dependencies := if pythonTruthy dependencies then dependencies else .array []
  let request ← bounded request "request id" requestIdMaxBytes
  let payload ← encode (.array [.string "task", .string title, acceptance, dependencies])
  match board.requests.find? fun row => row.actor == actor && row.request == request with
  | some row =>
      require (row.payload == payload)
        ⟨.requestIdReused, "request id reused with different payload"⟩
      return (.created row.result true, board)
  | none =>
      require (board.requests.length < requestLedgerCapacity)
        ⟨.capacityFull, s!"coordination request ledger full ({requestLedgerCapacity})"⟩
      let (task, board) ← board.create now actor title acceptance dependencies
      let board : Board :=
        { board with requests := board.requests ++ [⟨actor, request, payload, task⟩] }
      return (.created task false, board)

def setTaskDependencies (taskId dependencies : Value) : Outcome := do
  let task ← board.readTask taskId
  require (task.owner.isNone && (task.status == .ready || task.status == .blocked))
    ⟨.wrongState, "dependencies may change only before claiming"⟩
  let listed ← dependencyList dependencies
  validateDependencies taskId listed (board.tasks.map fun task => (task.id, task.dependencies))
  let _ ← encode dependencies
  let board := board.updateTask taskId fun task => { task with dependencies := listed }
  let board ← board.event actor now "dependencies"
    [("task", taskId), ("dependencies", dependencies)]
  let task ← board.readTask taskId
  return (.task task, board)

def claimTask (taskId : Value) (drawn : String) : Outcome := do
  let task ← board.readTask taskId
  require (task.dependencies.all board.isCompleted) ⟨.wrongState, "unmet dependencies"⟩
  require (task.status == .ready) ⟨.wrongState, "task is not ready to claim"⟩
  let board := board.updateTask taskId fun task =>
    { task with status := .claimed, owner := some actor, token := some drawn }
  let board ← board.event actor now "claimed" [("task", taskId), ("token", .string drawn)]
  let task ← board.readTask taskId
  return (.task task, board)

def releaseTask (taskId token : Value) : Outcome := do
  let _ ← board.owned taskId token actor
  let board := (board.updateTaskStatus taskId .release).deleteClaimFiles taskId token
  let board ← board.event actor now "released" [("task", taskId)]
  let task ← board.readTask taskId
  return (.task task, board)

def blockTask (taskId token reason : Value) : Outcome := do
  let text ← bounded reason "blocker" textMaxBytes
  let task ← board.owned taskId token actor
  requireUnsubmitted task.status
  if task.status == .blocked && pythonEqual (.ofText task.blocker) reason then
    return (.changed task false, board)
  else
    let board := board.updateTaskStatus taskId (.block text)
    let board ← board.event actor now "blocked" [("task", taskId), ("reason", .string text)]
    let task ← board.readTask taskId
    return (.changed task true, board)

def unblockTask (taskId token reason : Value) : Outcome := do
  let text ← bounded reason "resolution" textMaxBytes
  let task ← board.owned taskId token actor
  match task.status with
  | .claimed => return (.changed task false, board)
  | .blocked =>
      let board := board.updateTaskStatus taskId .unblock
      let board ← board.event actor now "unblocked" [("task", taskId), ("reason", .string text)]
      let task ← board.readTask taskId
      return (.changed task true, board)
  | _ => .error ⟨.wrongState, "only blocked or claimed work may resume"⟩

def submitTask (taskId token evidence : Value) : Outcome := do
  let task ← board.owned taskId token actor
  if task.status == .submitted && pythonEqual task.evidence evidence then
    return (.changed task false, board)
  else
    requireUnsubmitted task.status
    let _ ← encode evidence
    let board := board.updateTaskStatus taskId (.submit evidence)
    let board ← board.event actor now "submitted" [("task", taskId)]
    let task ← board.readTask taskId
    return (.changed task true, board)

/-! ## Verification -/

def complete (taskId token revision : Value) (carried : Option CarryPlan) : Outcome := do
  let board ← match carried with
    | none => pure board
    | some plan => do
        let _ ← dumps plan.carry.evidence
        pure (board.updateTask taskId fun task => { task with evidence := plan.carry.evidence })
  let board := (board.updateTaskStatus taskId .complete).deleteClaimFiles taskId token
  let carriedFrom := carried.elim [] fun plan =>
    [("carried_from", .array (plan.carry.sources.map .string)),
      ("previous_evidence", plan.previous)]
  let board ← board.event actor now "verified"
    ([("task", taskId), ("revision", revision)] ++ carriedFrom)
  let task ← board.readTask taskId
  return (.changed task true, board)

/-- One transaction of a verification.  Without `confirmed`, a carry found is answered
unwritten; with it, the carry is written only over the evidence it was found over. -/
def verifyTask (taskId token revision : Value) (confirmed : Option CarryPlan) : Outcome := do
  let task ← board.readTask taskId
  require (pythonEqual (.ofText task.token) token &&
      (task.status == .submitted || task.status == .completed))
    ⟨.staleToken, "stale claim or work not submitted"⟩
  match currentRevision task revision with
  | .ok () =>
      if task.status == .completed then return (.changed task false, board)
      else board.complete now actor taskId token revision none
  | .error refusal =>
      let found ← task.carry revision refusal
      match confirmed with
      | none => return (.carry found, board)
      | some plan =>
          require (pythonEqual found.previous plan.previous) stale
          board.complete now actor taskId token revision (some found)

def revalidateTask (taskId revision evidence : Value) : Outcome := do
  let task ← board.storedTask taskId
  let evidence ← revalidation task.status revision evidence
  let _ ← dumps evidence
  let board := board.updateTask taskId fun task => { task with evidence }
  let board ← board.event actor now "revalidated"
    [("task", taskId), ("revision", revision), ("previous_evidence", task.evidence),
      ("evidence", evidence)]
  let task ← board.readTask taskId
  return (.task task, board)

/-! ## Recovery -/

def pythonStr (value : Value) : Except BoardError String :=
  match value with
  | .string text => .ok text
  | .bool flag => .ok (if flag then "True" else "False")
  | .int _ | .float _ => encode value
  | _ => .error ⟨.internal, "a task id that finds a task is text or a number"⟩

def notifyRevoked (previous : String) (taskId : Value) (reason : String) :
    Except BoardError (Bool × Board) := do
  let reachable := (board.member? previous).any fun member => statusIsAlive member.status
  let unread := board.messages.countP fun message =>
    message.recipient == previous && message.accepted
  if reachable && unread < inboxCapacity then
    let task ← pythonStr taskId
    let body := s!"claim on task {task} revoked by the coordinator: {reason}"
    let board : Board :=
      { board with messages := board.messages ++ [⟨actor, previous, body, true⟩] }
    let board ← board.event actor now "message_accepted"
      [("message", .int board.messages.length), ("recipient", .string previous),
        ("revision", .null)]
    return (true, board)
  else return (false, board)

def revokeTask (taskId reason : Value) : Outcome := do
  let text ← bounded reason "revocation reason" textMaxBytes
  let task ← board.readTask taskId
  match task.owner with
  | none =>
      require (task.status == .ready || task.status == .blocked)
        ⟨.wrongState, "only claimed, blocked or submitted work can be revoked"⟩
      return (.revoked task none, board)
  | some previous =>
      require task.status.held
        ⟨.wrongState, "only claimed, blocked or submitted work can be revoked"⟩
      let board := board.reopen taskId
      let board ← board.event actor now "revoked"
        [("task", taskId), ("reason", .string text), ("previous_owner", .string previous)]
      let (notified, board) ← board.notifyRevoked now actor previous taskId text
      let task ← board.readTask taskId
      return (.revoked task (some notified), board)

def recoverTask (taskId releaseFiles : Value) : Outcome := do
  let task ← board.readTask taskId
  require task.status.held ⟨.wrongState, "only abandoned active work can be recovered"⟩
  let owner ← board.memberRow (.ofText task.owner)
  require (owner.any (·.status == .dead))
    ⟨.wrongState,
      "recovery requires confirmed worker death; revoke(id, reason) reassigns a live owner"⟩
  let retained := board.files.countP fun file => taskId.row? == some file.task
  let release := match releaseFiles with
    | .bool true => true
    | _ => false
  require (retained == 0 || release)
    ⟨.wrongState,
      "reservations retained after an abrupt exit; recover(id, release_files=True) frees them, " ++
        "or revoke(id, reason)"⟩
  let board := board.reopen taskId
  let board ← board.event actor now "recovered"
    [("task", taskId), ("reservations_released", .int retained)]
  let task ← board.readTask taskId
  return (.recovered task retained, board)

/-! ## Files -/

def normalized (normalize : String → Except BoardError String) (paths : Value) :
    Except BoardError PathSet :=
  match paths with
  | .array given => do
      require (1 ≤ given.length && given.length ≤ pathsPerCall)
        ⟨.invalid, "reserve 1 through 100 paths together"⟩
      let inside ← given.mapM fun path => do
        let path ← bounded path "path" pathMaxBytes
        normalize path
      return .of inside
  | _ => .error ⟨.invalid, "reserve 1 through 100 paths together"⟩

def reserveFiles (taskId token : Value) (paths : PathSet) (drawn : String) : Outcome := do
  let task ← board.owned taskId token actor
  require (board.files.length + paths.1.length ≤ fileBoardCapacity)
    ⟨.capacityFull, "file reservation board full (1000); release settled work"⟩
  match paths.1.find? fun path => board.files.any (·.path == path) with
  | some path =>
      .error ⟨.reservedByOther,
        s!"file already reserved: {path}; acquire the entire set or release and retry"⟩
  | none =>
      let claim := token.asStr.getD ""
      let rows := paths.1.map fun path => ⟨path, task.id, actor, claim, drawn⟩
      let board : Board := { board with files := board.files ++ rows }
      let board ← board.event actor now "files_reserved"
        [("task", taskId), ("paths", .array (paths.1.map .string))]
      return (.reserved task.id drawn paths.1, board)

def releaseFiles (taskId token reservation : Value) : Outcome := do
  let task ← board.owned taskId token actor
  loose 4 reservation
  let isOf := fun file : FileRow =>
    taskId.row? == some file.task && actor == file.owner && token.text? == some file.claim &&
      reservation.text? == some file.token
  let released := board.files.countP isOf
  let board := board.deleteFiles isOf
  let board ← board.event actor now "files_released" [("task", taskId), ("token", reservation)]
  return (.released task.id released, board)

/-! ## Members -/

def endByLoss (run : RunRecord) (reason : String) : Except BoardError (Bool × Board) := do
  let stop := [("status", Value.string "failed"), ("reason", .string reason)]
  match run.status with
  | .setup =>
      let board : Board :=
        { board with run := board.run.map fun run => { run with status := .failed } }
      let board ← board.event actor now "stop" stop
      return (true, board)
  | .running =>
      let board ← board.ends now actor "failed" reason
      return (true, board)
  | .paused =>
      if run.outcome.any (· != "") then return (false, board)
      else
        let board : Board := { board with
          run := board.run.map fun run =>
            { run with outcome := some "failed", outcomeReason := some reason } }
        let board ← board.event actor now "stop" stop
        return (true, board)
  | _ => return (false, board)

def exitKind (exit : Value) : Except BoardError MemberExit :=
  match exit with
  | .string "orderly" => .ok .orderly
  | .string "abrupt" => .ok .abrupt
  | _ => .error ⟨.invalid, "exit kind must be orderly or abrupt"⟩

def confirmMemberDead (run : RunRecord) (member exit : Value) : Outcome := do
  let exit ← exitKind exit
  let row ← board.memberRow member
  if row.any fun row => statusIsAlive row.status then
    let board := (board.markMemberDead member).blockOwnedTasks member exit.blocker
    let held := board.files.countP fun file => member.text? == some file.owner
    let (retained, board) := match exit with
      | .orderly => (0, board.deleteOwnerFiles member)
      | .abrupt => (held, board)
    let reason := if retained = 0 then [] else
      [("reason", Value.string
        "abrupt harness exit; orphaned tool processes may still write reserved paths")]
    let board ← board.event actor now "death_confirmed"
      ([("member", member), ("exit", .string exit.asStr),
        ("reservations_retained", .int retained)] ++ reason)
    if pythonEqual member (.string run.coordinator) then
      let (ended, board) ← board.endByLoss now actor run "coordinator death confirmed"
      return (.dead true retained ended, board)
    else return (.dead false retained false, board)
  else return (.alreadyDead, board)

def releaseUnlaunched (member : Value) : Outcome := do
  let row ← board.memberRow member
  require (row.any fun row => row.status == .reserved && row.pid.isNone)
    ⟨.wrongState, "only an unlaunched reservation may be released"⟩
  let board := board.markMemberDead member
  let board ← board.event actor now "launch_abandoned" [("member", member)]
  return (.done, board)

end Board

inductive Request where
  | createTask (actor : String) (title acceptance dependencies request : Value)
  | setTaskDependencies (actor : String) (taskId dependencies : Value)
  | claimTask (actor : String) (taskId : Value)
  | releaseTask (actor : String) (taskId token : Value)
  | blockTask (actor : String) (taskId token reason : Value)
  | unblockTask (actor : String) (taskId token reason : Value)
  | submitTask (actor : String) (taskId token evidence : Value)
  | verifyTask (actor : String) (taskId token revision : Value)
  | revalidateTask (actor : String) (taskId revision evidence : Value)
  | revokeTask (actor : String) (taskId reason : Value)
  | recoverTask (actor : String) (taskId releaseFiles : Value)
  | reserveFiles (actor : String) (taskId token paths : Value)
  | releaseFiles (actor : String) (taskId token reservation : Value)
  | confirmMemberDead (actor : String) (member exit : Value)
  | releaseUnlaunched (actor : String) (member : Value)

inductive Ancestry where
  | confirmed | notAncestor | notFullId | gitFailed | timedOut
  deriving DecidableEq

namespace Request

def actor : Request → String
  | .createTask actor _ _ _ _ => actor
  | .setTaskDependencies actor _ _ => actor
  | .claimTask actor _ => actor
  | .releaseTask actor _ _ => actor
  | .blockTask actor _ _ _ => actor
  | .unblockTask actor _ _ _ => actor
  | .submitTask actor _ _ _ => actor
  | .verifyTask actor _ _ _ => actor
  | .revalidateTask actor _ _ _ => actor
  | .revokeTask actor _ _ => actor
  | .recoverTask actor _ _ => actor
  | .reserveFiles actor _ _ _ => actor
  | .releaseFiles actor _ _ _ => actor
  | .confirmMemberDead actor _ _ => actor
  | .releaseUnlaunched actor _ => actor

def access : Request → Access
  | .verifyTask .. | .revalidateTask .. | .revokeTask .. | .recoverTask .. =>
      { active := true, coordinator := true }
  | .releaseFiles .. | .confirmMemberDead .. | .releaseUnlaunched .. => {}
  | _ => { active := true }

def acceptanceCheck (acceptance : Value) : Except BoardError Unit :=
  let listed := match acceptance with
    | .array entries => !entries.isEmpty && entries.all fun entry => entry.asStr.any hasContent
    | _ => false
  require listed ⟨.invalid,
    "task acceptance criteria required: use a nonempty list[str], e.g. ['tests pass']"⟩

def evidenceCheck (evidence : Value) : Except BoardError Unit :=
  let truthy := fun (entry : Value) (key : String) => (entry.get key).any pythonTruthy
  let listed := match evidence with
    | .array entries =>
        !entries.isEmpty && entries.all fun entry =>
          truthy entry "artifact" && truthy entry "revision"
    | _ => false
  require listed ⟨.invalid, "artifact and revision evidence required"⟩

def check [Encoding] (request : Request) (normalize : String → Except BoardError String) :
    Except BoardError PathSet :=
  match request with
  | .createTask _ title acceptance _ _ => do
      let _ ← bounded title "title" titleMaxBytes
      acceptanceCheck acceptance
      let encoded ← encode acceptance
      let _ ← boundedText encoded "acceptance" textMaxBytes
      return .of []
  | .blockTask _ _ _ reason => do
      let _ ← bounded reason "blocker" textMaxBytes
      return .of []
  | .unblockTask _ _ _ reason => do
      let _ ← bounded reason "resolution" textMaxBytes
      return .of []
  | .submitTask _ _ _ evidence => do
      evidenceCheck evidence
      let encoded ← encode evidence
      let _ ← boundedText encoded "evidence references" textMaxBytes
      return .of []
  | .revalidateTask _ _ _ evidence => do
      let encoded ← encode evidence
      let _ ← boundedText encoded "evidence references" textMaxBytes
      return .of []
  | .revokeTask _ _ reason => do
      let _ ← bounded reason "revocation reason" textMaxBytes
      return .of []
  | .reserveFiles _ _ _ paths => Board.normalized normalize paths
  | .confirmMemberDead _ _ exit => do
      let _ ← Board.exitKind exit
      return .of []
  | _ => .ok (.of [])

end Request

structure Call where
  request : Request
  paths : PathSet
  confirmed : Option CarryPlan

namespace Board

variable [Affinity] [Encoding]

def gate (board : Board) (now : Rat) (actor : String) : Except BoardError Board := do
  let run ← authorize board.run actor (board.member? actor) { readOnly := true }
  if run.expired now then board.ends now actor "budget-exhausted" "deadline"
  else return board

def work (board : Board) (run : RunRecord) (now : Rat) (call : Call) (drawn : String) : Outcome :=
  match call.request with
  | .createTask actor title acceptance dependencies request =>
      board.createTask now actor title acceptance dependencies request
  | .setTaskDependencies actor taskId dependencies =>
      board.setTaskDependencies now actor taskId dependencies
  | .claimTask actor taskId => board.claimTask now actor taskId drawn
  | .releaseTask actor taskId token => board.releaseTask now actor taskId token
  | .blockTask actor taskId token reason => board.blockTask now actor taskId token reason
  | .unblockTask actor taskId token reason => board.unblockTask now actor taskId token reason
  | .submitTask actor taskId token evidence => board.submitTask now actor taskId token evidence
  | .verifyTask actor taskId token revision =>
      board.verifyTask now actor taskId token revision call.confirmed
  | .revalidateTask actor taskId revision evidence =>
      board.revalidateTask now actor taskId revision evidence
  | .revokeTask actor taskId reason => board.revokeTask now actor taskId reason
  | .recoverTask actor taskId releaseFiles => board.recoverTask now actor taskId releaseFiles
  | .reserveFiles actor taskId token _ =>
      board.reserveFiles now actor taskId token call.paths drawn
  | .releaseFiles actor taskId token reservation =>
      board.releaseFiles now actor taskId token reservation
  | .confirmMemberDead actor member exit => board.confirmMemberDead now actor run member exit
  | .releaseUnlaunched actor member => board.releaseUnlaunched now actor member

def transact (board : Board) (now : Rat) (call : Call) (drawn : String) : Outcome := do
  let actor := call.request.actor
  let access := call.request.access
  let run ← authorize board.run actor (board.member? actor) access
  if access.active then requireBudget run now else pure ()
  board.work run now call drawn

end Board

/-! ## The system -/

structure Workbench where
  board : Board
  calls : List Call
  asked : List Call

inductive Event where
  | begin (request : Request) (normalize : String → Except BoardError String) (now : Rat)
  | finish (n : Nat) (now : Rat) (drawn : String)
  | answer (n : Nat) (ancestry : Ancestry) (now : Rat)
  | elsewhere (run : Option RunRecord) (members : List MemberRecord) (messages : List Message)

namespace Workbench

def created (run : RunRecord) (members : List MemberRecord) : Workbench where
  board := {
    run := some run, members, tasks := [], files := [], messages := [], requests := [],
    events := [] }
  calls := []
  asked := []

variable [Affinity] [Encoding]

def step (bench : Workbench) : Event → Option (Except BoardError Answer) × Workbench
  | .begin request normalize now =>
      match request.check normalize, bench.board.gate now request.actor with
      | .ok paths, .ok board =>
          (none, { bench with board, calls := bench.calls ++ [⟨request, paths, none⟩] })
      | .error error, _ => (some (.error error), bench)
      | .ok _, .error error => (some (.error error), bench)
  | .finish n now drawn =>
      match bench.calls[n]? with
      | none => (none, bench)
      | some call =>
          let calls := bench.calls.eraseIdx n
          match bench.board.transact now call drawn with
          | .ok (.carry plan, board) =>
              (none, { board, calls
                       asked := bench.asked ++ [{ call with confirmed := some plan }] })
          | .ok (answer, board) => (some (.ok answer), { bench with board, calls })
          | .error error => (some (.error error), { bench with calls })
  | .answer n ancestry now =>
      match bench.asked[n]? with
      | none => (none, bench)
      | some call =>
          let asked := bench.asked.eraseIdx n
          if ancestry = .confirmed then
            match bench.board.gate now call.request.actor with
            | .ok board => (none, { board, calls := bench.calls ++ [call], asked })
            | .error error => (some (.error error), { bench with asked })
          else (some (.error stale), { bench with asked })
  | .elsewhere run members messages =>
      (none, { bench with board := { bench.board with run, members, messages } })

end Workbench

end Quecto.Swarm
