/-
  Board/Transitions.lean --- which status moves a task may make, and who may make
  them; the pull requests and changes a task links.

  Source: `domain/project_board/services/{transitions,changes,pull_requests}.rs`.
-/
import Quecto.Board.Claims

namespace Quecto.Board.Transitions

open Foundation
open Runs

/-! ## The tables -/

inductive Actor where
  | anyone
  | holder
  | releaser
  | holderWhileLive
  deriving DecidableEq

inductive ClaimEffect where
  | keep | take | clear
  deriving DecidableEq

inductive Takes where
  | nothing | reason
  deriving DecidableEq

structure Row where
  source : TaskStatus
  target : TaskStatus
  who : Actor
  effect : ClaimEffect
  takes : Takes
  deriving DecidableEq

def transitions : List Row := [⟨.draft, .ready, .anyone, .keep, .nothing⟩,
  ⟨.draft, .archived, .anyone, .keep, .nothing⟩,
  ⟨.ready, .draft, .anyone, .keep, .nothing⟩,
  ⟨.ready, .claimed, .anyone, .take, .nothing⟩,
  ⟨.ready, .archived, .anyone, .keep, .nothing⟩,
  ⟨.review, .done, .holder, .clear, .nothing⟩,
  ⟨.done, .archived, .anyone, .keep, .nothing⟩,
  ⟨.review, .archived, .holderWhileLive, .clear, .nothing⟩,
  ⟨.claimed, .ready, .releaser, .clear, .nothing⟩,
  ⟨.inProgress, .ready, .releaser, .clear, .nothing⟩,
  ⟨.review, .ready, .holderWhileLive, .clear, .reason⟩,
  ⟨.blocked, .ready, .holderWhileLive, .clear, .nothing⟩]

def lifecycle : List (TaskStatus × TaskStatus × LifecycleAction) := [(.ready, .inProgress, .start),
  (.claimed, .inProgress, .start),
  (.review, .inProgress, .start),
  (.blocked, .inProgress, .start),
  (.inProgress, .review, .endRun),
  (.inProgress, .blocked, .endRun),
  (.claimed, .blocked, .release),
  (.ready, .done, .doneWithoutRun),
  (.claimed, .done, .doneWithoutRun)]

def lifecycleAction (source target : TaskStatus) : Option LifecycleAction :=
  (lifecycle.find? fun row => row.1 == source && row.2.1 == target).map (·.2.2)

def rowOf (source target : TaskStatus) : Ruled Row :=
  match transitions.find? fun row => row.source == source && row.target == target,
    lifecycleAction source target with
  | some row, none => .ok row
  | none, some action => refuse (.useLifecycle source target action)
  | none, none => refuse (.notAllowed source target)
  | some _, some action =>
    let (source, target, action) := (source.debug, target.debug, action.debug)
    .error (.panicked (.assertion
      s!"{source} -> {target} is both a move and the lifecycle's {action}"))

lemma rowOf_eq_ok {source target : TaskStatus} {row : Row} (h : rowOf source target = .ok row) :
    row ∈ transitions ∧ row.source = source ∧ row.target = target := by
  unfold rowOf at h
  split at h
  · rename_i found _ hfind _
    cases h
    have hrow := List.find?_some hfind
    rw [Bool.and_eq_true, beq_iff_eq, beq_iff_eq] at hrow
    exact ⟨List.mem_of_find?_eq_some hfind, hrow⟩
  · cases h
  · cases h
  · cases h

def heldByLinks : TaskStatus → TaskStatus → Bool
  | .review, .done | .draft, .archived | .ready, .archived | .review, .archived => true
  | _, _ => false

/-! ## Reasons -/

inductive MoveReason where
  | absent
  | given (text : Text)
  | unasked
  deriving DecidableEq

def reasonNotTaken : String := "is taken only by a move from review back to ready"

def reasonEmpty : String := "must say why"

def enteredReason (text : Text) : Ruled Text := do
  orInvalid (BoardText.enteredLine "reason" text)
  allow (!text.isEmpty) (.invalid ⟨"reason", reasonEmpty⟩)
  pure text

def reasonKept (source target : TaskStatus) (takes : Takes) (given : MoveReason) :
    Ruled (Option Text) :=
  match takes, given with
  | .reason, .given text => some <$> enteredReason text
  | .reason, .unasked | .nothing, .absent | .nothing, .unasked => .ok none
  | .reason, .absent => refuse (.reasonRequired source target)
  | .nothing, .given _ => refuse (.invalid ⟨"reason", reasonNotTaken⟩)

def resolved (target : TaskStatus) (had : Option Resolution) (superseded : Bool) :
    Ruled (Option Resolution) :=
  match target, had, superseded with
  | .done, _, _ => .ok (some .completed)
  | .archived, some had, _ => .ok (some had)
  | .archived, none, true => .ok (some .superseded)
  | .archived, none, false => .ok none
  | _, had, _ => do
    insist had.isNone "an unresolved task moves among the open statuses"
    pure none

section Transitions

variable [Unicode] [Descriptions]

/-! ## Moves -/

def mayAct (who : Actor) (task : Task) (actor : Identity) (now : Timestamp) : Ruled Unit :=
  match who with
  | .anyone => .ok ()
  | .holder => heldLiveBy task actor now >>= fun _ => .ok ()
  | .releaser => heldOrLapsedBy task actor now >>= fun _ => .ok ()
  | .holderWhileLive =>
    if task.fields.claim.any fun claim => isLive claim now then
      heldBy task actor >>= fun _ => .ok ()
    else .ok ()

variable (task : Task)

def notSuperseded : Ruled Unit :=
  allow task.fields.supersededBy.isEmpty (.superseded task.fields.supersededBy)

def mayFinish (target : TaskStatus) : Ruled Unit :=
  match target with
  | .done => notSuperseded task
  | .draft | .ready | .claimed | .inProgress | .review | .blocked | .archived => .ok ()

/-- What a move does to the claim and what it takes, when the table and its actor
allow it, a task others took over is not finished, and a task that links pull
requests is not finished by its holder. -/
def allowed (target : TaskStatus) (actor : Identity) (now : Timestamp) :
    Ruled (ClaimEffect × Takes) := do
  let row ← rowOf task.fields.status target
  mayAct row.who task actor now
  mayFinish task target
  allow (!(heldByLinks task.fields.status target && !task.fields.prs.isEmpty))
    (.prsLinked task.fields.prs)
  pure (row.effect, row.takes)

structure MoveReads where
  runs : Bool
  changes : Bool
  deriving DecidableEq

def moveReads (target : TaskStatus) (actor : Identity) (now : Timestamp) : Ruled MoveReads := do
  let _ ← allowed task target actor now
  pure { runs := holdsMovesTo target, changes := heldByLinks task.fields.status target }

def numbers (changes : List Change) (kept : Change → Bool) : Ruled (List Nat) := do
  allow (changes.all fun change => change.fields.task == task.fields.id) .notThisTasks
  pure ((changes.filter kept).map (·.fields.number))

def statusOf (tasks : List Task) (id : Slug) : Option TaskStatus :=
  (tasks.find? fun other => other.fields.id == id).map (·.fields.status)

/-- Whether the tasks `task` relates to on the board let it move: a claim waits for
every task it depends on, an archive for every child task to be free of work. -/
def relationsAllow (target : TaskStatus) (tasks : List Task) : Ruled Unit :=
  match target with
  | .claimed =>
    let undone := task.fields.dependsOn.filter fun id =>
      (statusOf tasks id).any fun status => !status.releasesDependents
    let missing := task.fields.dependsOn.filter fun id => (statusOf tasks id).isNone
    allow (undone.isEmpty && missing.isEmpty) (.dependencyNotDone undone missing)
  | .archived =>
    let children := tasks.filter fun other => other.fields.parent == some task.fields.id
    let active := children.filter fun child => match child.fields.status with
      | .claimed | .inProgress | .review | .blocked => true
      | .draft | .ready | .done | .archived => false
    allow active.isEmpty (.childrenActive (active.map (·.fields.id)))
  | .draft | .ready | .inProgress | .review | .blocked | .done => .ok ()

def runEndsIt (source target : TaskStatus) : Stop BoardRuleError → Stop BoardRuleError
  | .refused (.runOpen number) =>
    if source = .inProgress ∧ target = .ready then .refused (.useLifecycle source target .endRun)
    else .refused (.runOpen number)
  | error => error

def claimAfter (effect : ClaimEffect) (task : Task) (actor : Identity) (now : Timestamp) :
    Ruled (Option Claim) :=
  match effect with
  | .keep => .ok task.fields.claim
  | .take => some <$> newClaim actor task now
  | .clear => .ok none

/-- `task` moved to `target` by `actor`, if the table allows it, its `runs` and
`changes` let it leave, and the `tasks` it relates to let it move. -/
def moveWithReason (target : TaskStatus) (reason : MoveReason) (actor : Identity)
    (runs : List Run) (changes : List Change) (tasks : List Task) (now : Timestamp) :
    Ruled Task := do
  let (effect, takes) ← allowed task target actor now
  let source := task.fields.status
  let kept ← reasonKept source target takes reason
  let linked ← numbers task changes Change.isLinked
  allow (!(heldByLinks source target && !linked.isEmpty)) (.changesLinked linked)
  (mayMoveWith task runs target).mapError (runEndsIt source target)
  relationsAllow task target tasks
  let resolution ← resolved target task.fields.resolution (!task.fields.supersededBy.isEmpty)
  -- A task done without a run is archived with its reason; every other move keeps
  -- only the reason it takes.
  let reason := match kept, target, resolution with
    | some reason, _, _ => some reason
    | none, .archived, some .doneWithoutRun => task.fields.reason
    | none, _, _ => none
  let claim ← claimAfter effect task actor now
  let (from_, to_) := (source.debug, target.debug)
  insist (claim.isNone || target.mayHoldClaim)
    s!"{from_} -> {to_}: a task leaves its claim behind for a status that holds none"
  settle
    { task.fields with
      status := target, resolution := resolution, reason := reason, claim := claim }
    (stamp task now)

/-! ## Done without a run -/

def mayFinishWithoutRun (actor : Identity) (now : Timestamp) : Ruled Unit :=
  match task.fields.status with
  | .ready => .ok ()
  | .claimed => heldLiveBy task actor now >>= fun _ => .ok ()
  | source => refuse (.notAllowed source .done)

def doneWithoutRunReads (actor : Identity) (now : Timestamp) : Ruled MoveReads := do
  mayFinishWithoutRun task actor now
  notSuperseded task
  pure { runs := true, changes := true }

/-- What a task done without a run is judged by; `merged` is which of its linked
pull requests the host reads as merged. -/
structure DoneWork where
  runs : List Run
  changes : List Change
  tasks : List Task
  merged : List Nat

def doneWithoutRun (task : Task) (reason : Text) (actor : Identity) (work : DoneWork)
    (now : Timestamp) : Ruled Task := do
  let _ ← doneWithoutRunReads task actor now
  let reason ← enteredReason reason
  let going ← numbers task work.changes Change.isOpen
  allow going.isEmpty (.changesUnmerged going)
  let unmerged := task.fields.prs.filter fun pr => !work.merged.contains pr
  allow unmerged.isEmpty (.prsOpen unmerged)
  mayMoveWith task work.runs .done
  -- As a claim waits for the task's dependencies, and an archive for its children
  -- to be free of work.
  relationsAllow task .claimed work.tasks
  relationsAllow task .archived work.tasks
  let done ← settle
    { task.fields with
      status := .done
      resolution := some .doneWithoutRun
      reason := some reason
      claim := none }
    (stamp task now)
  insist (done.fields.reason.isSome && done.fields.claim.isNone)
    "a task done without a run says why and is held by nobody"
  pure done

/-! ## Completion -/

structure Completed where
  task : Task
  run : Option Run

def completable : Ruled Unit :=
  match task.fields.status with
  | .review => notSuperseded task
  | source =>
    match lifecycleAction source .done with
    | some action => refuse (.useLifecycle source .done action)
    | none => refuse (.notAllowed source .done)

def endGoing (going : Option Run) (moment : Timestamp) : Ruled (Option Run) :=
  match going with
  | none => .ok none
  | some run => some <$> lostAt run moment

/-- `task` done at its stamp for `now`, its claim cleared and its run going, if one
is, ended as lost at that stamp; with the stamp. -/
def finish (runs : List Run) (now : Timestamp) : Ruled (Completed × Timestamp) := do
  let stamped := stamp task now
  let going ← openOf task runs
  let run ← endGoing going stamped
  insist (going.isSome == run.any fun run => !run.isOpen) "the run going, and only it, is ended"
  insist task.fields.supersededBy.isEmpty "a task others took over is never completed"
  let resolution ← resolved .done task.fields.resolution false
  let done ← settle
    { task.fields with status := .done, resolution := resolution, claim := none } stamped
  insist (done.fields.resolution == some .completed) "a completed task is resolved so"
  pure (⟨done, run⟩, stamped)

def completeMerged (merged : List Nat) (changes : List Change) (runs : List Run)
    (now : Timestamp) : Ruled Completed := do
  completable task
  let going ← numbers task changes Change.isOpen
  allow going.isEmpty (.changesUnmerged going)
  let unmerged := task.fields.prs.filter fun pr => !merged.contains pr
  allow (!task.fields.prs.isEmpty) .noPrs
  allow unmerged.isEmpty (.prsUnmerged unmerged)
  let (completed, _) ← finish task runs now
  pure completed

/-! ## What the rules say -/

variable {task next : Task} {target : TaskStatus} {actor : Identity} {runs : List Run}
  {changes : List Change} {tasks : List Task} {now : Timestamp}
  {kept : Change → Bool} {found : List Nat} {completed : Completed}

lemma numbers_isEmpty (h : numbers task changes kept = .ok found) (hempty : found.isEmpty = true) :
    ∀ change ∈ changes, kept change = false := by
  obtain ⟨_, _, h⟩ := bind_eq_ok.mp h
  rw [← pure_eq_ok.mp h, List.isEmpty_iff, List.map_eq_nil_iff, List.filter_eq_nil_iff] at hempty
  intro change hchange
  exact Bool.eq_false_iff.mpr (hempty change hchange)

structure MovedTo (task next : Task) (target : TaskStatus) (runs : List Run)
    (changes : List Change) : Prop where
  row : ∃ row ∈ transitions, row.source = task.fields.status ∧ row.target = target
  id : next.fields.id = task.fields.id
  status : next.fields.status = target
  prs : next.fields.prs = task.fields.prs
  idle : holdsMovesTo target = true → Idle runs
  unlinked : heldByLinks task.fields.status target = true →
    ∀ change ∈ changes, change.isLinked = false

lemma moveWithReason_eq_ok {reason : MoveReason}
    (h : moveWithReason task target reason actor runs changes tasks now = .ok next) :
    MovedTo task next target runs changes := by
  simp only [moveWithReason, bind_eq_ok] at h
  obtain ⟨⟨effect, takes⟩, hallowed, h⟩ := h
  obtain ⟨_, -, linked, hlinked, _, hlinks, _, hruns, _, -, _, -, _, -, _, -, h⟩ := h
  have hsettled := settle_eq_ok h
  obtain ⟨row, hrow, _⟩ := bind_eq_ok.mp hallowed
  refine ⟨⟨row, rowOf_eq_ok hrow⟩, hsettled.id, hsettled.status, hsettled.prs, ?_, ?_⟩
  · exact mayMoveWith_eq_ok (mapError_eq_ok.mp hruns)
  intro hheld
  have hempty := require_eq_ok.mp hlinks
  rw [hheld, Bool.true_and, Bool.not_not] at hempty
  exact numbers_isEmpty hlinked hempty

structure DoneWithoutRun (task next : Task) (runs : List Run) (changes : List Change) : Prop where
  source : task.fields.status = .ready ∨ task.fields.status = .claimed
  id : next.fields.id = task.fields.id
  status : next.fields.status = .done
  resolution : next.fields.resolution = some .doneWithoutRun
  prs : next.fields.prs = task.fields.prs
  idle : Idle runs
  merged : ∀ change ∈ changes, change.isOpen = false

lemma doneWithoutRun_eq_ok {reason : Text} {work : DoneWork}
    (h : doneWithoutRun task reason actor work now = .ok next) :
    DoneWithoutRun task next work.runs work.changes := by
  simp only [doneWithoutRun, bind_eq_ok] at h
  obtain ⟨_, hreads, _, -, going, hgoing, _, hnone, _, -, _, hruns, _, -, _, -, done, hdone, _,
    -, h⟩ := h
  cases pure_eq_ok.mp h
  have hsettled := settle_eq_ok hdone
  refine ⟨?_, hsettled.id, hsettled.status, hsettled.resolution, hsettled.prs, ?_, ?_⟩
  · obtain ⟨_, hsource, _⟩ := bind_eq_ok.mp hreads
    unfold mayFinishWithoutRun at hsource
    split at hsource
    · exact .inl (by assumption)
    · exact .inr (by assumption)
    · cases hsource
  · exact mayMoveWith_eq_ok hruns rfl
  · exact numbers_isEmpty hgoing (require_eq_ok.mp hnone)

lemma completable_eq_ok (h : completable task = .ok ()) : task.fields.status = .review := by
  unfold completable at h
  split at h
  · assumption
  split at h
  · cases h
  · cases h

def EndsGoing (runs : List Run) (run : Option Run) : Prop :=
  match run with
  | none => Idle runs
  | some ended => ∃ going ∈ runs, EndedAs going ended

structure Finished (task : Task) (runs : List Run) (completed : Completed) : Prop where
  id : completed.task.fields.id = task.fields.id
  status : completed.task.fields.status = .done
  prs : completed.task.fields.prs = task.fields.prs
  run : EndsGoing runs completed.run

lemma finish_eq_ok {stamped : Timestamp} (h : finish task runs now = .ok (completed, stamped)) :
    Finished task runs completed := by
  simp only [finish, bind_eq_ok] at h
  obtain ⟨going, hgoing, run, hrun, _, -, _, -, _, -, done, hdone, _, -, h⟩ := h
  cases pure_eq_ok.mp h
  have hsettled := settle_eq_ok hdone
  refine ⟨hsettled.id, hsettled.status, hsettled.prs, ?_⟩
  cases going with
  | none =>
    cases hrun
    exact openOf_none hgoing
  | some going =>
    obtain ⟨lost, rfl, hlost⟩ := map_eq_ok.mp hrun
    exact ⟨going, (openOf_some hgoing).1, ended_eq_ok hlost⟩

lemma completeMerged_eq_ok {merged : List Nat}
    (h : completeMerged task merged changes runs now = .ok completed) :
    task.fields.status = .review ∧ Finished task runs completed ∧
      ∀ change ∈ changes, change.isOpen = false := by
  simp only [completeMerged, bind_eq_ok] at h
  obtain ⟨_, hreview, going, hgoing, _, hnone, _, -, _, -, ⟨done, _⟩, hfinish, h⟩ := h
  cases pure_eq_ok.mp h
  exact ⟨completable_eq_ok hreview, finish_eq_ok hfinish,
    numbers_isEmpty hgoing (require_eq_ok.mp hnone)⟩

end Transitions

end Quecto.Board.Transitions

namespace Quecto.Board.Changes

open Foundation
open Runs
open Transitions
open Plans (Moment)

/-! ## What the host reads -/

inductive PrState where
  | opened
  | closed
  | merged (commit : CommitId)
  deriving DecidableEq

structure HostPr where
  headRepo : Option RepoName
  headRef : BranchName
  state : PrState

abbrev HostPrs := Nat → Option HostPr

def mergeOf (host : HostPrs) (pr : Option Nat) : Option CommitId :=
  (pr.bind host).bind fun read => match read.state with
    | .merged commit => some commit
    | .opened | .closed => none

structure Head where
  repo : RepoName
  branch : BranchName
  pr : Option Nat

def linkable (pr : Nat) (head : Head) (host : HostPrs) : Ruled Unit := do
  let read ← okOr (host pr) (.refused (.prUnread pr))
  let sameHead := read.headRepo.map (·.key) == some head.repo.key && read.headRef == head.branch
  match read.state, sameHead with
  | .opened, true => .ok ()
  | .opened, false => refuse (.prHeadMismatch pr)
  | .closed, _ | .merged _, _ => refuse (.prNotOpen pr)

section Changes

variable [Unicode] [Descriptions]

structure Linked where
  changes : List Change
  tasks : List Task

structure ChangesMerged where
  completed : Completed
  changes : List Change

/-! ## Pull requests linked the old way -/

variable (task : Task)

def linkOf (pr : Nat) (board : Linked) : Option (Slug × Option Nat) :=
  let byChange := (board.changes.find? fun change =>
      change.isLinked && change.fields.pr == some pr).map
    fun change => (change.fields.task, some change.fields.number)
  let byTask := (board.tasks.find? fun other =>
      other.fields.id != task.fields.id && other.fields.prs.contains pr).map
    fun other => (other.fields.id, none)
  byChange.or byTask

def linkedOnce (pr : Nat) (board : Linked) : Ruled Unit :=
  match linkOf task pr board with
  | none => .ok ()
  | some (task, change) => refuse (.changeAlreadyLinked task change)

def addPr (holder : Identity) (pr : Nat) (board : Linked) (now : Timestamp) : Ruled Task := do
  let _ ← heldLiveBy task holder now
  linkedOnce task pr board
  allow (!task.fields.prs.contains pr) (.prAlreadyLinked pr)
  settle { task.fields with prs := task.fields.prs ++ [pr] } (stamp task now)

def removePr (holder : Identity) (pr : Nat) (now : Timestamp) : Ruled Task := do
  let _ ← heldLiveBy task holder now
  let index ← okOr (task.fields.prs.findIdx? (· == pr)) (.refused (.prNotLinked pr))
  settle { task.fields with prs := task.fields.prs.eraseIdx index } (stamp task now)

/-! ## Changes -/

def ofTask (changes : List Change) : Ruled Unit :=
  allow (changes.all fun change => change.fields.task == task.fields.id) .notThisTasks

/-- The task's changes agree: no number is listed twice, no pull request is linked
twice, and no branch is open twice. -/
def consistent (changes : List Change) : Ruled Unit := do
  ofTask task changes
  let prs := (changes.filter Change.isLinked).filterMap (·.fields.pr)
  let heads := (changes.filter Change.isOpen).map Change.head
  allow (decide (changes.map (·.fields.number)).Nodup)
    (.changesInconsistent "a change number is listed twice")
  allow (decide prs.Nodup) (.changesInconsistent "a pull request is linked by two changes")
  allow (decide heads.Nodup) (.changesInconsistent "a branch is open in two changes")

def notAhead (changes : List Change) (moment : Moment) : Ruled Unit :=
  match changes.find? fun change => !withinSlack change.fields.updated moment.latest with
  | none => .ok ()
  | some change => refuse (.changeAhead change.fields.number change.fields.updated)

def oldWay (tasks : List Task) (pr : Nat) : Ruled Unit :=
  match (task :: tasks).find? fun other => other.fields.prs.contains pr with
  | none => .ok ()
  | some other => refuse (.changeAlreadyLinked other.fields.id none)

def prLinkable (tasks : List Task) (head : Head) (host : HostPrs) : Ruled Unit :=
  match head.pr with
  | none => .ok ()
  | some pr => linkable pr head host >>= fun _ => oldWay task tasks pr

def taken (head : Head) (change : Change) : Bool :=
  change.isLinked && head.pr.isSome && change.fields.pr == head.pr ||
    change.isOpen && change.head == (head.repo.key, head.branch)

def notTaken (head : Head) (changes : List Change) : Ruled Unit :=
  match changes.find? (taken head) with
  | none => .ok ()
  | some linked =>
    refuse (.changeAlreadyLinked linked.fields.task (some linked.fields.number))

/-- When each of `changes` last changed.  `notAhead` has refused one past the bound,
so the assertion of the source holds of each. -/
def changeStamps (changes : List Change) : List Timestamp := changes.map (·.fields.updated)

def link (board : Linked) (head : Head) (host : HostPrs) (actor : Identity)
    (moment : Moment) : Ruled Change := do
  let _ ← heldLiveBy task actor moment.now
  let own := board.changes.filter fun change => change.fields.task == task.fields.id
  consistent task own
  notAhead own moment
  prLinkable task board.tasks head host
  notTaken head board.changes
  let last := lastNumber (own.map (·.fields.number))
  allow (decide (last < maxChangeNumber))
    (.invalid ⟨"number", s!"the task has reached {maxChangeNumber} changes"⟩)
  let stamped := notBefore task (changeStamps own) moment.now
  orInvalid (Change.new
    { task := task.fields.id
      number := last + 1
      headRepo := head.repo
      branch := head.branch
      pr := head.pr
      merged := none
      linkedBy := actor
      unlinked := none
      created := stamped
      updated := stamped })

def stillOpen (change : Change) : Ruled Unit :=
  match change.fields.merged.isSome, change.isLinked with
  | false, true => .ok ()
  | true, _ => refuse (.changeMerged change.fields.number)
  | false, false => refuse (.changeUnlinked change.fields.number)

def notMerged (change : Change) (host : HostPrs) : Ruled Unit :=
  match change.fields.pr with
  | none => .ok ()
  | some pr => do
    let read ← okOr (host pr) (.refused (.prUnread pr))
    match read.state with
    | .opened | .closed => .ok ()
    | .merged _ => refuse (.changeMerged change.fields.number)

def unlink (changes : List Change) (number : Nat) (host : HostPrs)
    (actor : Identity) (moment : Moment) : Ruled Change := do
  let _ ← heldLiveBy task actor moment.now
  consistent task changes
  notAhead changes moment
  let change ← okOr (changes.find? fun change => change.fields.number == number)
    (.refused (.noSuchChange number))
  stillOpen change
  notMerged change host
  let stamped := afterLast change.fields.updated
    (notBefore task (changeStamps changes) moment.now)
  orInvalid (Change.new
    { change.fields with unlinked := some (actor, stamped), updated := stamped })

def allMerged (linked : List Change) (host : HostPrs) : Ruled Unit :=
  let unmerged := (linked.filter fun change => (mergeOf host change.fields.pr).isNone).map
    (·.fields.number)
  match linked, unmerged with
  | _ :: _, [] => .ok ()
  | [], _ => refuse .noChanges
  | _, numbers => refuse (.changesUnmerged numbers)

def noneRecorded (linked : List Change) : Ruled Unit :=
  match linked.find? fun change => change.fields.merged.isSome with
  | none => .ok ()
  | some change => refuse (.changeMerged change.fields.number)

def recordMerge (stamped now : Timestamp) (merge : Change × CommitId) : Ruled Change :=
  let (change, commit) := merge
  orInvalid (Change.new
    { change.fields with
      merged := some commit
      updated := max stamped (afterLast change.fields.updated now) })

def complete (changes : List Change) (host : HostPrs) (runs : List Run)
    (moment : Moment) : Ruled ChangesMerged := do
  completable task
  consistent task changes
  notAhead changes moment
  let linked := changes.filter Change.isLinked
  let asked := task.fields.prs ++ linked.filterMap (·.fields.pr)
  inOrder (asked.map fun pr => allow (host pr).isSome (.prUnread pr))
  let oldOpen := task.fields.prs.filter fun pr => (mergeOf host (some pr)).isNone
  allow oldOpen.isEmpty (.prsUnmerged oldOpen)
  allMerged linked host
  noneRecorded linked
  let commits := linked.filterMap fun change => mergeOf host change.fields.pr
  insist (commits.length == linked.length) "a merge commit per linked change"
  let (completed, stamped) ← finish task runs moment.now
  let changes ← (linked.zip commits).mapM (recordMerge stamped moment.now)
  pure { completed := completed, changes := changes }

/-! ## What the rules find and write -/

variable {task next : Task} {pr : Nat} {board : Linked} {actor : Identity} {now : Timestamp}
  {changes : List Change} {moment : Moment} {host : HostPrs}

/-- None of `changes` links `pr`. -/
def Unlinked (pr : Nat) (changes : List Change) : Prop :=
  ∀ change ∈ changes, change.isLinked = true → change.fields.pr ≠ some pr

lemma linkedOnce_eq_ok (h : linkedOnce task pr board = .ok ()) :
    Unlinked pr board.changes ∧
      ∀ other ∈ board.tasks, other.fields.id ≠ task.fields.id → pr ∉ other.fields.prs := by
  unfold linkedOnce at h
  split at h
  · rename_i hnone
    rw [linkOf, Option.or_eq_none_iff, Option.map_eq_none_iff, Option.map_eq_none_iff,
      List.find?_eq_none, List.find?_eq_none] at hnone
    constructor
    · intro change hchange hlinked hpr
      exact hnone.1 change hchange (by rw [hlinked, hpr]; simp)
    · intro other hother hid hpr
      exact hnone.2 other hother (by simp [hid, hpr])
  · cases h

/-- `next` is `task` with one more pull request, which no task and no change links. -/
structure PrAdded (task : Task) (board : Linked) (pr : Nat) (next : Task) : Prop where
  settled : SettledAs { task.fields with prs := task.fields.prs ++ [pr] } next
  own : pr ∉ task.fields.prs
  changes : Unlinked pr board.changes
  tasks : ∀ other ∈ board.tasks, other.fields.id ≠ task.fields.id → pr ∉ other.fields.prs

lemma addPr_eq_ok (h : addPr task actor pr board now = .ok next) : PrAdded task board pr next := by
  simp only [addPr, bind_eq_ok] at h
  obtain ⟨_, -, _, honce, _, hown, h⟩ := h
  have hfresh := require_eq_ok.mp hown
  rw [Bool.not_eq_true', List.contains_eq_mem, decide_eq_false_iff_not] at hfresh
  obtain ⟨hchanges, htasks⟩ := linkedOnce_eq_ok honce
  exact ⟨settle_eq_ok h, hfresh, hchanges, htasks⟩

lemma removePr_eq_ok (h : removePr task actor pr now = .ok next) :
    ∃ index, SettledAs { task.fields with prs := task.fields.prs.eraseIdx index } next := by
  simp only [removePr, bind_eq_ok] at h
  obtain ⟨_, -, index, -, h⟩ := h
  exact ⟨index, settle_eq_ok h⟩

lemma consistent_eq_ok (h : consistent task changes = .ok ()) :
    (changes.map (·.fields.number)).Nodup := by
  obtain ⟨_, _, h⟩ := bind_eq_ok.mp h
  obtain ⟨_, hnumbers, _⟩ := bind_eq_ok.mp h
  exact of_decide_eq_true (require_eq_ok.mp hnumbers)

lemma oldWay_eq_ok {tasks : List Task} (h : oldWay task tasks pr = .ok ()) :
    ∀ other ∈ tasks, pr ∉ other.fields.prs := by
  unfold oldWay at h
  split at h
  · rename_i hnone
    intro other hother hpr
    exact List.find?_eq_none.mp hnone other (List.mem_cons_of_mem task hother) (by simp [hpr])
  · cases h

omit [Descriptions] in
lemma notTaken_eq_ok {head : Head} (h : notTaken head changes = .ok ()) :
    ∀ change ∈ changes, taken head change = false := by
  unfold notTaken at h
  split at h
  · rename_i hnone
    intro change hchange
    exact Bool.eq_false_iff.mpr (List.find?_eq_none.mp hnone change hchange)
  · cases h

structure LinkedTo (task : Task) (board : Linked) (change : Change) : Prop where
  held : ∃ claim, task.fields.claim = some claim
  ofTask : change.fields.task = task.fields.id
  opened : change.isOpen = true
  number : ∀ other ∈ board.changes, other.fields.task = task.fields.id →
    other.fields.number < change.fields.number
  pr : ∀ pr, change.fields.pr = some pr →
    (∀ other ∈ board.tasks, pr ∉ other.fields.prs) ∧ Unlinked pr board.changes
  head : ∀ other ∈ board.changes, other.isOpen = true → other.head ≠ change.head

variable {change : Change}

lemma link_eq_ok {head : Head}
    (h : link task board head host actor moment = .ok change) : LinkedTo task board change := by
  simp only [link, bind_eq_ok] at h
  obtain ⟨claim, hheld, _, -, _, -, _, hpr, _, htaken, _, -, h⟩ := h
  have hfields := Validated.fields_of_new (mapError_eq_ok.mp h)
  have hfree := notTaken_eq_ok htaken
  refine ⟨⟨claim, heldLiveBy_eq_ok hheld⟩, ?_, ?_, ?_, ?_, ?_⟩
  · rw [hfields]
  · simp [Change.isOpen, Change.isLinked, hfields]
  · intro other hother htask
    rw [hfields]
    refine Nat.lt_succ_of_le (le_lastNumber
      (List.mem_map_of_mem (List.mem_filter.mpr ⟨hother, ?_⟩)))
    exact beq_iff_eq.mpr htask
  · intro pr hpr'
    have hnamed : head.pr = some pr := by
      rw [hfields] at hpr'
      exact hpr'
    constructor
    · rw [prLinkable, hnamed] at hpr
      obtain ⟨_, _, hold⟩ := bind_eq_ok.mp hpr
      exact oldWay_eq_ok hold
    intro other hother hlinked hsame
    have := hfree other hother
    rw [taken, hlinked, hsame, hnamed] at this
    simp at this
  · intro other hother hopen hsame
    have := hfree other hother
    rw [taken, hopen, hsame, Change.head, hfields] at this
    simp at this

/-- `next` is one of `changes`, no longer linked. -/
structure UnlinkedFrom (changes : List Change) (next : Change) : Prop where
  unlinked : next.isLinked = false
  found : ∃ change ∈ changes, change.fields.task = next.fields.task ∧
    change.fields.number = next.fields.number

lemma unlink_eq_ok {number : Nat}
    (h : unlink task changes number host actor moment = .ok change) :
    UnlinkedFrom changes change := by
  simp only [unlink, bind_eq_ok] at h
  obtain ⟨_, -, _, -, _, -, found, hfound, _, -, _, -, h⟩ := h
  have hfields := Validated.fields_of_new (mapError_eq_ok.mp h)
  refine ⟨?_, found, ?_, ?_⟩
  · rw [Change.isLinked, hfields]
    rfl
  · exact List.mem_of_find?_eq_some (okOr_eq_ok.mp hfound)
  · rw [hfields]
    exact ⟨rfl, rfl⟩

structure MergedAs (change next : Change) : Prop where
  task : next.fields.task = change.fields.task
  number : next.fields.number = change.fields.number
  pr : next.fields.pr = change.fields.pr
  linked : next.isLinked = change.isLinked
  merged : next.isOpen = false

omit [Descriptions] in
lemma recordMerge_eq_ok {stamped : Timestamp} {next : Change} {commit : CommitId}
    (h : recordMerge stamped now (change, commit) = .ok next) : MergedAs change next := by
  have hfields := Validated.fields_of_new (mapError_eq_ok.mp h)
  constructor
  · rw [hfields]
  · rw [hfields]
  · rw [hfields]
  · rw [Change.isLinked, hfields, Change.isLinked]
  · simp [Change.isOpen, hfields]

structure CompletedBy (task : Task) (changes : List Change) (runs : List Run)
    (done : ChangesMerged) : Prop where
  review : task.fields.status = .review
  finished : Finished task runs done.completed
  numbers : (changes.map (·.fields.number)).Nodup
  recorded : ∀ change ∈ changes, change.isLinked = true →
    ∃ next ∈ done.changes, MergedAs change next
  written : ∀ next ∈ done.changes, ∃ change ∈ changes, change.isLinked = true ∧ MergedAs change next

lemma complete_eq_ok {runs : List Run} {done : ChangesMerged}
    (h : complete task changes host runs moment = .ok done) :
    CompletedBy task changes runs done := by
  simp only [complete, bind_eq_ok] at h
  obtain ⟨_, hreview, _, hconsistent, _, -, _, -, _, -, _, -, _, -, _, hlength, ⟨completed,
    stamped⟩, hfinish, h⟩ := h
  obtain ⟨written, hwritten, h⟩ := h
  obtain ⟨hevery, honly⟩ := mapM_eq_ok hwritten
  have hcommits := beq_iff_eq.mp (require_eq_ok.mp hlength)
  rw [← pure_eq_ok.mp h]
  refine ⟨completable_eq_ok hreview, finish_eq_ok hfinish, consistent_eq_ok hconsistent, ?_, ?_⟩
  · intro change hchange hlinked
    have hmem : change ∈ changes.filter Change.isLinked := List.mem_filter.mpr ⟨hchange, hlinked⟩
    rw [← List.map_fst_zip (Nat.le_of_eq hcommits.symm)] at hmem
    obtain ⟨⟨_, commit⟩, hpair, rfl⟩ := List.mem_map.mp hmem
    obtain ⟨next, hnext, hrecord⟩ := hevery _ hpair
    exact ⟨next, hnext, recordMerge_eq_ok hrecord⟩
  · intro next hnext
    obtain ⟨⟨change, commit⟩, hpair, hrecord⟩ := honly next hnext
    obtain ⟨hchange, hlinked⟩ := List.mem_filter.mp (List.of_mem_zip hpair).1
    exact ⟨change, hchange, hlinked, recordMerge_eq_ok hrecord⟩

end Changes

end Quecto.Board.Changes
