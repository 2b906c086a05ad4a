/-
  Swarm/Board.lean --- who may act on a swarm's board, its tables, how they are read and
  written, and that their dependencies stay without cycles.

  Source: `domain/swarm/services/{policy,validation,dependencies}.rs`,
  `domain/swarm/entities/records.rs`,
  `domain/swarm/value_objects/lifecycle.rs`,
  `infrastructure/persistence/sqlite/swarm_board/{repository_tasks,
  repository_reservations,repository_loss,repository_evidence,ledger}.rs`,
  `application/swarm/services/board_tasks.rs` and `board_recovery.rs`.
-/
import Quecto.Foundation.Fallible
import Quecto.Foundation.Machine
import Mathlib.Algebra.Ring.Int.Defs
import Mathlib.Data.Rat.Defs
import Mathlib.Algebra.GroupWithZero.Nat
import Mathlib.Algebra.Order.Group.Nat

namespace Quecto.Swarm

open Foundation List

inductive Value where
  | null
  | bool (flag : Bool)
  | int (n : Int)
  | float (x : Rat)
  | string (text : String)
  | array (items : List Value)
  | object (fields : List (String × Value))

namespace Value

def asStr : Value → Option String
  | .string text => some text
  | _ => none

def get : Value → String → Option Value
  | .object fields, key => fields.lookup key
  | _, _ => none

def ofText (column : Option String) : Value := column.elim .null .string

end Value

open Value

/-! ## Python's `==` -/

inductive Numeric where
  | integer (n : Int)
  | float (x : Rat)

def numeric : Value → Option Numeric
  | .bool flag => some (.integer flag.toNat)
  | .int n => some (.integer n)
  | .float x => some (.float x)
  | _ => none

def integerEqualsFloat (n : Int) (x : Rat) : Bool :=
  x.den == 1 && decide (-(2 ^ 63) ≤ x.num ∧ x.num < 2 ^ 64) && x.num == n

def numbersEqual : Numeric → Numeric → Bool
  | .integer left, .integer right => left == right
  | .float left, .float right => left == right
  | .integer n, .float x => integerEqualsFloat n x
  | .float x, .integer n => integerEqualsFloat n x

mutual

def pythonEqual : Value → Value → Bool
  | .null, .null => true
  | .string left, .string right => left == right
  | .array left, .array right => itemsEqual left right
  | .object left, .object right => left.length == right.length && fieldsEqual left right
  | left, right =>
      match numeric left, numeric right with
      | some left, some right => numbersEqual left right
      | _, _ => false

def itemsEqual : List Value → List Value → Bool
  | [], [] => true
  | left :: lefts, right :: rights => pythonEqual left right && itemsEqual lefts rights
  | _, _ => false

def fieldsEqual : List (String × Value) → List (String × Value) → Bool
  | [], _ => true
  | (key, value) :: rest, right =>
      (match right.lookup key with
      | some other => pythonEqual value other
      | none => false) && fieldsEqual rest right

end

def pythonTruthy : Value → Bool
  | .null => false
  | .bool flag => flag
  | .int n => n != 0
  | .float x => x != 0
  | .string text => text != ""
  | .array items => !items.isEmpty
  | .object fields => !fields.isEmpty

lemma pythonEqual_string {text : String} {value : Value} :
    pythonEqual (.string text) value = true ↔ value = .string text := by
  cases value with
  | string other => rw [pythonEqual, beq_iff_eq, string.injEq, eq_comm]
  | _ => simp [pythonEqual, numeric]

lemma pythonEqual_ofText_string {column : Option String} {text : String} :
    pythonEqual (.ofText column) (.string text) = true ↔ column = some text := by
  cases column with
  | none => simp [ofText, pythonEqual, numeric]
  | some held => simp [ofText, pythonEqual]

/-! ## Binding -/

class Affinity where
  integerOf : String → Option Int
  textOf : Rat → String

def Value.unbindable : Value → Option String
  | .int n =>
      if -(2 ^ 63) ≤ n ∧ n < 2 ^ 63 then none
      else some "Python int too large to convert to SQLite INTEGER"
  | .array _ => some "type 'list' is not supported"
  | .object _ => some "type 'dict' is not supported"
  | _ => none

section

variable [Affinity]

def Value.row? (value : Value) : Option Int :=
  if value.unbindable.isSome then none
  else
    match value with
    | .bool flag => some flag.toNat
    | .int n => some n
    | .float x => if x.den = 1 then some x.num else none
    | .string text => Affinity.integerOf text
    | _ => none

def Value.text? (value : Value) : Option String :=
  if value.unbindable.isSome then none
  else
    match value with
    | .bool flag => some (toString flag.toNat)
    | .int n => some (toString n)
    | .float x => some (Affinity.textOf x)
    | .string text => some text
    | _ => none

@[simp] lemma Value.text?_string (text : String) : (string text).text? = some text := rfl

end

/-! ## Refusals -/

inductive RefusalKind where
  | runMissing | notCoordinator | notMember | notRunning | budgetExhausted | staleRevision
  | immutable | wrongState | staleToken | reservedByOther | dependencyCycle | notFound
  | capacityFull | requestIdReused | invalid | store | internal
  deriving DecidableEq

structure BoardError where
  kind : RefusalKind
  message : String
  deriving DecidableEq

/-! ## Bounded texts -/

def pythonSpace (c : Char) : Bool :=
  let n := c.toNat
  (9 ≤ n && n ≤ 13) || (0x1c ≤ n && n ≤ 0x20) || n == 0x85 || n == 0xa0 || n == 0x1680 ||
    (0x2000 ≤ n && n ≤ 0x200a) || n == 0x2028 || n == 0x2029 || n == 0x202f || n == 0x205f ||
    n == 0x3000

def hasContent (text : String) : Bool := text.toList.any (!pythonSpace ·)

def textMaxBytes : Nat := 8192
def titleMaxBytes : Nat := 1024

def boundedText (text label : String) (maximum : Nat) : Except BoardError String := do
  require (hasContent text && text.utf8ByteSize ≤ maximum)
    ⟨.invalid, s!"{label} must be nonempty and at most {maximum} bytes"⟩
  return text

def bounded (value : Value) (label : String) (maximum : Nat) : Except BoardError String :=
  match value with
  | .string text => boundedText text label maximum
  | _ => .error ⟨.invalid, s!"{label} must be nonempty and at most {maximum} bytes"⟩

/-! ## Records -/

inductive RunState where
  | setup | running | paused | succeeded | blocked | failed | cancelled | budgetExhausted
  deriving DecidableEq

def RunState.asStr : RunState → String
  | .setup => "setup"
  | .running => "running"
  | .paused => "paused"
  | .succeeded => "succeeded"
  | .blocked => "blocked"
  | .failed => "failed"
  | .cancelled => "cancelled"
  | .budgetExhausted => "budget-exhausted"

inductive MemberState where
  | live | reserved | dead
  deriving DecidableEq

inductive TaskState where
  | ready | claimed | blocked | submitted | completed
  deriving DecidableEq

def TaskState.held : TaskState → Bool
  | .claimed | .blocked | .submitted => true
  | .ready | .completed => false

structure RunRecord where
  status : RunState
  coordinator : String
  deadline : Rat
  outcome : Option String
  outcomeReason : Option String
  deriving DecidableEq

structure MemberRecord where
  id : String
  status : MemberState
  pid : Option Int
  deriving DecidableEq

inductive MemberExit where
  | orderly | abrupt
  deriving DecidableEq

def MemberExit.asStr : MemberExit → String
  | .orderly => "orderly"
  | .abrupt => "abrupt"

def MemberExit.blocker : MemberExit → String
  | .orderly => "worker death confirmed; coordinator recovery required"
  | .abrupt =>
      "worker death confirmed (abrupt exit; reservations retained); coordinator recovery required"

/-! ## Decisions -/

structure Access where
  active : Bool := false
  coordinator : Bool := false
  readOnly : Bool := false

namespace RunRecord

def describe (run : RunRecord) : String :=
  match run.status, run.outcome.filter (· != "") with
  | .paused, some outcome =>
      let reason := (run.outcomeReason.filter (· != "")).getD "no reason"
      s!"paused ({outcome}: {reason})"
  | status, _ => status.asStr

def budgetSpent (run : RunRecord) : Bool :=
  run.status == .budgetExhausted ||
    run.status == .paused && run.outcome == some "budget-exhausted"

def expired (run : RunRecord) (now : Rat) : Bool := run.status == .running && run.deadline ≤ now

end RunRecord

def statusIsAlive (status : MemberState) : Bool := status == .live || status == .reserved

def authorize (run : Option RunRecord) (actor : String) (member : Option MemberRecord)
    (access : Access) : Except BoardError RunRecord := do
  let run ← okOr run ⟨.runMissing, "coordination run missing"⟩
  require (!access.coordinator || run.coordinator == actor)
    ⟨.notCoordinator, "only the designated coordinator may do this"⟩
  require (member.any fun member => access.readOnly || statusIsAlive member.status)
    ⟨.notMember, "invoking member is unknown or death confirmed"⟩
  let told := run.describe
  require (!access.active || run.status == .running)
    ⟨if run.budgetSpent then .budgetExhausted else .notRunning,
      s!"run is {told}; no new work permitted"⟩
  return run

def requireBudget (run : RunRecord) (now : Rat) : Except BoardError Unit :=
  require (!run.expired now)
    ⟨.budgetExhausted, "run is paused (budget-exhausted: deadline); no new work permitted"⟩

def requireUnsubmitted (status : TaskState) : Except BoardError Unit :=
  require (status != .submitted)
    ⟨.immutable, "submitted evidence is immutable; release and reclaim before revising"⟩

/-- New evidence for a completed task at `revision`: a nonempty list of objects, each with
an artifact and that revision. -/
def revalidation (status : TaskState) (revision evidence : Value) : Except BoardError Value := do
  require (status == .completed) ⟨.wrongState, "only completed tasks may be revalidated"⟩
  match revision, evidence with
  | .string text, .array entries =>
      require (hasContent text && !entries.isEmpty)
        ⟨.invalid, "new artifact and revision evidence required"⟩
      let matching := fun entry : Value =>
        (((entry.get "artifact").bind asStr).any hasContent) &&
          (entry.get "revision").bind asStr == some text
      require (entries.all matching)
        ⟨.invalid, "new artifact evidence must match the revalidated revision"⟩
      return evidence
  | _, _ => .error ⟨.invalid, "new artifact and revision evidence required"⟩

class Encoding where
  encode : Value → Except BoardError String
  dumps : Value → Except BoardError String
  text : Value → String

def dependenciesMax : Nat := 100

def dependencyList (value : Value) : Except BoardError (List Value) :=
  match value with
  | .array entries => do
      require (entries.length ≤ dependenciesMax) ⟨.invalid, "dependencies must be a bounded list"⟩
      return entries
  | _ => .error ⟨.invalid, "dependencies must be a bounded list"⟩

inductive Node where
  | integer (n : Int)
  | text (text : String)
  | other (text : String)
  deriving DecidableEq

section

variable [Encoding]

def isI64 (n : Int) : Bool := -(2 ^ 63) ≤ n && n < 2 ^ 63

def Node.of (value : Value) : Node :=
  match value with
  | .bool flag => .integer flag.toNat
  | .int n => if isI64 n then .integer n else .other (Encoding.text value)
  | .float x => if x.den == 1 && isI64 x.num then .integer x.num else .other (Encoding.text value)
  | .string name => .text name
  | _ => .other (Encoding.text value)

def Value.isInteger : Value → Bool
  | .int _ => true
  | _ => false

def edges (taskId : Value) (dependencies : List Value) (graph : List (Int × List Value))
    (node : Node) : List Node :=
  if node = .of taskId then dependencies.map .of
  else ((graph.find? fun row => Node.integer row.1 = node).elim [] (·.2)).map .of

/-- The depth-first search: a stack of nodes to enter and to leave, the last one first.  A
node met again while it is active closes a cycle. -/
def searchFrom (edges : Node → List Node) :
    Nat → List Node → List Node → List (Node × Bool) → Option Bool
  | _, _, _, [] => some true
  | 0, _, _, _ :: _ => none
  | fuel + 1, visited, active, (node, leaving) :: stack =>
      if leaving then searchFrom edges fuel (node :: visited) (active.erase node) stack
      else if node ∈ active then some false
      else if node ∈ visited then searchFrom edges fuel visited active stack
      else
        let next := (edges node).reverse.map (·, false)
        searchFrom edges fuel visited (node :: active) (next ++ (node, true) :: stack)

/-- The nodes a search may meet, and with each its edges: what is put on the stack in all,
as no node is entered twice. -/
def searchBound (start : Node) (edges : Node → List Node) (nodes : List Node) : Nat :=
  let all := (start :: nodes ++ (start :: nodes).flatMap edges).dedup
  1 + (all.map fun node => 1 + (edges node).length).sum

def acyclic (start : Node) (edges : Node → List Node) (nodes : List Node) :
    Except BoardError Unit :=
  require (searchFrom edges (searchBound start edges nodes) [] [] [(start, false)] == some true)
    ⟨.dependencyCycle, "cyclic dependencies"⟩

def validateDependencies (taskId : Value) (dependencies : List Value)
    (graph : List (Int × List Value)) : Except BoardError Unit := do
  let valid := fun dependency : Value =>
    dependency.isInteger && graph.any (fun row => Node.integer row.1 == .of dependency) &&
      !pythonEqual dependency taskId
  require (dependencies.all valid) ⟨.invalid, "invalid, missing or self dependencies"⟩
  acyclic (.of taskId) (edges taskId dependencies graph) (graph.map fun row => .integer row.1)

end

/-! ## Rows -/

structure Task where
  id : Int
  title : String
  acceptance : Value
  dependencies : List Value
  status : TaskState
  owner : Option String
  token : Option String
  evidence : Value
  blocker : Option String

structure FileRow where
  path : String
  task : Int
  owner : String
  claim : String
  token : String
  deriving DecidableEq

structure Message where
  sender : String
  recipient : String
  body : String
  accepted : Bool
  deriving DecidableEq

structure BoardEvent where
  actor : String
  time : Rat
  action : String
  detail : List (String × Value)

structure LedgerRow where
  actor : String
  request : String
  payload : String
  result : Task

structure Board where
  run : Option RunRecord
  members : List MemberRecord
  tasks : List Task
  files : List FileRow
  messages : List Message
  requests : List LedgerRow
  events : List BoardEvent

/-! ## Updates -/

inductive TaskUpdate where
  | release
  | block (reason : String)
  | unblock
  | submit (evidence : Value)
  | complete
  | reopen

def TaskUpdate.apply (update : TaskUpdate) (task : Task) : Task :=
  match update with
  | .release => { task with status := .ready, owner := none, token := none, blocker := none }
  | .block reason => { task with status := .blocked, blocker := some reason }
  | .unblock => { task with status := .claimed, blocker := none }
  | .submit evidence => { task with status := .submitted, evidence, blocker := none }
  | .complete => { task with status := .completed }
  | .reopen =>
      { task with
        status := .ready, owner := none, token := none, blocker := none, evidence := .array [] }

namespace Board

section

variable [Affinity]

def loose (position : Nat) (value : Value) : Except BoardError Unit :=
  match value.unbindable with
  | none => .ok ()
  | some error =>
      .error ⟨.invalid,
        "coordination store unavailable or contended: " ++
          s!"Error binding parameter {position}: {error}"⟩

variable (board : Board)

def task? (id : Value) : Option Task :=
  board.tasks.find? fun task => id.row? == some task.id

def isCompleted (id : Value) : Bool :=
  (board.task? id).any (·.status == .completed)

def storedTask (id : Value) : Except BoardError Task := do
  loose 1 id
  okOr (board.task? id) ⟨.notFound, "unknown task"⟩

def readTask (id : Value) : Except BoardError Task := do
  let task ← board.storedTask id
  return if task.status == .ready && !task.dependencies.all board.isCompleted then
    { task with status := .blocked, blocker := some "unmet dependencies" }
  else task

def owned (id token : Value) (member : String) : Except BoardError Task := do
  let task ← board.readTask id
  require (pythonEqual (.ofText task.token) token &&
      pythonEqual (.ofText task.owner) (.string member) && task.status.held)
    ⟨.staleToken, "stale or unowned claim"⟩
  return task

def member? (id : String) : Option MemberRecord :=
  board.members.find? (·.id == id)

def memberRow (id : Value) : Except BoardError (Option MemberRecord) := do
  loose 1 id
  return board.members.find? fun member => id.text? == some member.id

end

section

variable [Affinity] (board : Board)

def updateTask (id : Value) (f : Task → Task) : Board :=
  { board with
    tasks := board.tasks.map fun task => if id.row? == some task.id then f task else task }

def updateTaskStatus (id : Value) (update : TaskUpdate) : Board :=
  board.updateTask id update.apply

def deleteFiles (p : FileRow → Bool) : Board :=
  { board with files := board.files.filter (!p ·) }

def deleteClaimFiles (task claim : Value) : Board :=
  board.deleteFiles fun file => task.row? == some file.task && claim.text? == some file.claim

def deleteTaskFiles (task : Value) : Board :=
  board.deleteFiles fun file => task.row? == some file.task

def deleteOwnerFiles (owner : Value) : Board :=
  board.deleteFiles fun file => owner.text? == some file.owner

def markMemberDead (id : Value) : Board :=
  { board with
    members := board.members.map fun member =>
      if id.text? == some member.id then { member with status := .dead } else member }

def blockOwnedTasks (owner : Value) (blocker : String) : Board :=
  { board with
    tasks := board.tasks.map fun task =>
      if task.owner.any (owner.text? == some ·) && task.status.held then
        { task with status := .blocked, blocker := some blocker }
      else task }

def reopen (board : Board) (id : Value) : Board :=
  (board.deleteTaskFiles id).updateTaskStatus id .reopen

end

def event [Encoding] (board : Board) (actor : String) (time : Rat) (action : String)
    (detail : List (String × Value)) : Except BoardError Board := do
  let _ ← Encoding.encode (.object detail)
  return { board with events := board.events ++ [⟨actor, time, action, detail⟩] }

def proposeOutcome (board : Board) (outcome reason : String) : Board :=
  { board with
    run := board.run.map fun run =>
      { run with status := .paused, outcome := some outcome, outcomeReason := some reason } }

def ends [Encoding] (board : Board) (now : Rat) (actor outcome reason : String) :
    Except BoardError Board := do
  let board := board.proposeOutcome outcome reason
  let board ← board.event actor now "stop" [("status", .string outcome), ("reason", .string reason)]
  board.event actor now "paused"
    [("reason", .string reason), ("started", .float now), ("outcome", .string outcome)]

end Board

open Foundation Relation

/-! ## The search -/

section Search

variable {edges : Node → List Node} {start node : Node}
  {visited visited' active above above' : List Node}
  {stack : List (Node × Bool)}

abbrev Edge (edges : Node → List Node) (a b : Node) : Prop := b ∈ edges a

/-- The nodes that have been left, the last one first: each leads only to nodes left before it. -/
def Ordered (edges : Node → List Node) : List Node → Prop
  | [] => True
  | node :: visited => (∀ c ∈ edges node, c ∈ visited) ∧ node ∉ visited ∧ Ordered edges visited

/-- What a node that is still to be left leads to has been left, or lies above it. -/
def Waits (edges : Node → List Node) (visited : List Node) : List Node → List (Node × Bool) → Prop
  | _, [] => True
  | above, (node, leaving) :: stack =>
      (leaving = true → ∀ c ∈ edges node, c ∈ visited ∨ c ∈ above) ∧
        Waits edges visited (node :: above) stack

def marks (stack : List (Node × Bool)) : List Node := (stack.filter (·.2)).map (·.1)

lemma mem_marks : node ∈ marks stack ↔ (node, true) ∈ stack := by
  simp [marks]

lemma Ordered.reaches (h : Ordered edges visited) {a b : Node} (ha : a ∈ visited)
    (hab : ReflTransGen (Edge edges) a b) : b ∈ visited := by
  have hstep : ∀ {x y}, x ∈ visited → y ∈ edges x → y ∈ visited := by
    intro x y hx hy
    clear ha hab
    induction visited with
    | nil => cases hx
    | cons v visited ih =>
      obtain rfl | hx := mem_cons.mp hx
      · exact mem_cons_of_mem _ (h.1 y hy)
      · exact mem_cons_of_mem _ (ih h.2.2 hx)
  induction hab with
  | refl => exact ha
  | tail _ hedge ih => exact hstep ih hedge

lemma Ordered.acyclic (h : Ordered edges visited) (hmem : node ∈ visited) :
    ¬ TransGen (Edge edges) node node := by
  intro hcycle
  induction visited with
  | nil => cases hmem
  | cons v visited ih =>
    obtain rfl | hmem := mem_cons.mp hmem
    · obtain ⟨next, hnext, hback⟩ := TransGen.head'_iff.mp hcycle
      exact h.2.1 (h.2.2.reaches (h.1 next hnext) hback)
    · exact ih h.2.2 hmem

lemma Waits.mono (h : Waits edges visited above stack)
    (hle : ∀ c, c ∈ visited ∨ c ∈ above → c ∈ visited' ∨ c ∈ above') :
    Waits edges visited' above' stack := by
  induction stack generalizing above above' with
  | nil => trivial
  | cons entry stack ih =>
    refine ⟨fun hleaving c hc => hle c (h.1 hleaving c hc), ih h.2 fun c hc => ?_⟩
    simp only [mem_cons] at hc ⊢
    have := hle c
    tauto

lemma Waits.push (children : List Node)
    (h : Waits edges visited (children.reverse ++ above) stack) :
    Waits edges visited above (children.map (·, false) ++ stack) := by
  induction children generalizing above with
  | nil => exact h
  | cons c children ih =>
    rw [reverse_cons, append_assoc] at h
    exact ⟨nofun, ih h⟩

/-- The search between two turns of its loop. -/
structure Searching (edges : Node → List Node) (start : Node) (visited active : List Node)
    (stack : List (Node × Bool)) : Prop where
  ordered : Ordered edges visited
  marked : active = marks stack
  nodup : (active ++ visited).Nodup
  waits : Waits edges visited [] stack
  below : stack.Pairwise fun x y => y.2 = true → TransGen (Edge edges) y.1 x.1
  reached : ∀ x ∈ stack, ReflTransGen (Edge edges) start x.1
  begun : start ∈ visited ∨ start ∈ stack.map (·.1)

namespace Searching

lemma initial (edges : Node → List Node) (start : Node) :
    Searching edges start [] [] [(start, false)] where
  ordered := trivial
  marked := rfl
  nodup := nodup_nil
  waits := ⟨nofun, trivial⟩
  below := pairwise_singleton _ _
  reached := by simp [ReflTransGen.refl]
  begun := by simp

lemma leave (h : Searching edges start visited active ((node, true) :: stack)) :
    Searching edges start (node :: visited) (active.erase node) stack := by
  obtain ⟨hordered, rfl, hnodup, ⟨hleft, hwaits⟩, hbelow, hreached, hbegun⟩ := h
  have hmarks : marks ((node, true) :: stack) = node :: marks stack := rfl
  rw [hmarks, cons_append, nodup_cons] at hnodup
  rw [hmarks, erase_cons_head]
  refine ⟨⟨fun c hc => by simpa using hleft rfl c hc, ?_, hordered⟩, rfl, ?_, hwaits.mono ?_,
    hbelow.of_cons, fun x hx => hreached x (mem_cons_of_mem _ hx), ?_⟩
  · exact fun hmem => hnodup.1 (mem_append_right _ hmem)
  · exact nodup_middle.mpr (nodup_cons.mpr hnodup)
  · simp [or_comm]
  · simpa [or_assoc, or_left_comm] using hbegun

section

variable (h : Searching edges start visited active ((node, false) :: stack))
include h

lemma skip (hvisited : node ∈ visited) : Searching edges start visited active stack := by
  obtain ⟨hordered, hactive, hnodup, ⟨-, hwaits⟩, hbelow, hreached, hbegun⟩ := h
  refine ⟨hordered, hactive, hnodup, hwaits.mono ?_, hbelow.of_cons,
    fun x hx => hreached x (mem_cons_of_mem _ hx), ?_⟩
  · simp +contextual [or_imp, hvisited]
  rw [map_cons, mem_cons] at hbegun
  obtain hbegun | rfl | hbegun := hbegun
  · exact .inl hbegun
  · exact .inl hvisited
  · exact .inr hbegun

lemma enter (hactive : node ∉ active) (hvisited : node ∉ visited) :
    Searching edges start visited (node :: active)
      ((edges node).reverse.map (·, false) ++ (node, true) :: stack) := by
  obtain ⟨hordered, rfl, hnodup, ⟨-, hwaits⟩, hbelow, hreached, hbegun⟩ := h
  obtain ⟨hhead, hbelow⟩ := pairwise_cons.mp hbelow
  have hnode := hreached _ mem_cons_self
  refine ⟨hordered, by simp [marks], ?_, .push _ ⟨?_, hwaits.mono ?_⟩, ?_, ?_, ?_⟩
  · rw [cons_append, nodup_cons, mem_append]
    exact ⟨not_or_intro hactive hvisited, hnodup⟩
  · exact fun _ c hc => .inr (by simpa using hc)
  · simp +contextual [or_imp]
  · rw [pairwise_append, pairwise_cons]
    refine ⟨.imp_of_mem (R := fun _ _ => True) ?_ (pairwise_of_forall fun _ _ => trivial),
      ⟨hhead, hbelow⟩, ?_⟩
    · simp +contextual
    intro x hx y hy hmark
    obtain ⟨c, hc, rfl⟩ := mem_map.mp hx
    have hedge : Edge edges node c := mem_reverse.mp hc
    obtain rfl | hy := mem_cons.mp hy
    · exact .single hedge
    · exact (hhead y hy hmark).tail hedge
  · intro x hx
    obtain hx | hx := mem_append.mp hx
    · obtain ⟨c, hc, rfl⟩ := mem_map.mp hx
      exact hnode.tail (mem_reverse.mp hc)
    obtain rfl | hx := mem_cons.mp hx
    · exact hnode
    · exact hreached x (mem_cons_of_mem _ hx)
  · simp only [map_cons, map_append, mem_append] at hbegun ⊢
    tauto

/-- The node of a leave mark leads to everything above it. -/
lemma cycle (hactive : node ∈ active) : CycleFrom (Edge edges) start := by
  rw [h.marked] at hactive
  obtain hhere | hmark := mem_cons.mp (mem_marks.mp hactive)
  · cases hhere
  · exact ⟨node, h.reached _ mem_cons_self, (pairwise_cons.mp h.below).1 _ hmark rfl⟩

end

lemma done (h : Searching edges start visited active []) : ¬ CycleFrom (Edge edges) start := by
  rintro ⟨n, hreach, hcycle⟩
  have hstart := h.begun.resolve_right not_mem_nil
  exact h.ordered.acyclic (h.ordered.reaches hstart hreach) hcycle

end Searching

/-- With a turn for each entry of the stack, each node that is not entered yet and each of
its edges, the search ends, and finds a cycle exactly if one is reached. -/
lemma searchFrom_spec {nodes todo : List Node} (hclosed : ∀ n ∈ nodes, ∀ c ∈ edges n, c ∈ nodes)
    {fuel : Nat} (h : Searching edges start visited active stack)
    (hstack : ∀ x ∈ stack, x.1 ∈ nodes) (htodo : ∀ n ∈ nodes, n ∈ visited ∨ n ∈ active ∨ n ∈ todo)
    (hfuel : stack.length + (todo.map fun n => 1 + (edges n).length).sum ≤ fuel) :
    ∃ answer, searchFrom edges fuel visited active stack = some answer ∧
      (answer = true ↔ ¬ CycleFrom (Edge edges) start) := by
  induction fuel generalizing visited active stack todo with
  | zero =>
    obtain rfl := length_eq_zero_iff.mp (by omega : stack.length = 0)
    exact ⟨true, by rw [searchFrom], by simp [h.done]⟩
  | succ fuel ih =>
    match stack, h with
    | [], h => exact ⟨true, by rw [searchFrom], by simp [h.done]⟩
    | (node, true) :: stack, h =>
      refine @ih (node :: visited) _ stack todo h.leave
        (fun x hx => hstack x (mem_cons_of_mem _ hx))
        (fun n hn => ?_) (by rw [length_cons] at hfuel; omega)
      by_cases hsame : n = node
      · exact .inl (hsame ▸ mem_cons_self)
      rw [mem_cons, mem_erase_of_ne hsame]
      have := htodo n hn
      tauto
    | (node, false) :: stack, h =>
      rw [searchFrom, if_neg Bool.false_ne_true]
      have hrest : ∀ x ∈ stack, x.1 ∈ nodes := fun x hx => hstack x (mem_cons_of_mem _ hx)
      split
      · rename_i hactive
        exact ⟨false, rfl, by simp [h.cycle hactive]⟩
      rename_i hactive
      split
      · rename_i hvisited
        exact ih (h.skip hvisited) hrest htodo (by rw [length_cons] at hfuel; omega)
      rename_i hvisited
      have hnode : node ∈ nodes := hstack _ mem_cons_self
      have hwait : node ∈ todo := ((htodo node hnode).resolve_left hvisited).resolve_left hactive
      refine @ih visited _ _ (todo.erase node) (h.enter hactive hvisited) ?_ (fun n hn => ?_) ?_
      · intro x hx
        obtain hx | hx := mem_append.mp hx
        · obtain ⟨c, hc, rfl⟩ := mem_map.mp hx
          exact hclosed node hnode c (mem_reverse.mp hc)
        obtain rfl | hx := mem_cons.mp hx
        · exact hnode
        · exact hrest x hx
      · by_cases hsame : n = node
        · exact .inr (.inl (hsame ▸ mem_cons_self))
        · rw [mem_erase_of_ne hsame]
          have := htodo n hn
          tauto
      · have hsum := sum_map_erase (fun n => 1 + (edges n).length) hwait
        simp only [length_append, length_map, length_reverse, length_cons] at hfuel ⊢
        omega

end Search

/-! ## Graphs of integers -/

/-- The tasks of a board by their ids, which are 64-bit integers, and what each depends on. -/
structure TaskGraph where
  ids : List Int
  dependencies : Int → List Int
  bounded : ∀ id ∈ ids, isI64 id = true

section Graphs

variable [Encoding]

def Node.ofInt (n : Int) : Node := .of (.int n)

namespace TaskGraph

variable (graph : TaskGraph) (task : Int) (list : List Int)

def DependsOn (a b : Int) : Prop := a ∈ graph.ids ∧ b ∈ graph.dependencies a

def Acyclic : Prop := ∀ n, ¬ TransGen graph.DependsOn n n

/-- The rows that are read for the check. -/
def rows : List (Int × List Value) :=
  graph.ids.map fun id => (id, (graph.dependencies id).map .int)

def validates : Except BoardError Unit :=
  validateDependencies (.int task) (list.map .int) graph.rows

/-- The edges of the search, with those of the task replaced. -/
def edgesWith : Node → List Node := edges (.int task) (list.map .int) graph.rows

/-- The search that the check makes. -/
def search : Option Bool :=
  searchFrom (graph.edgesWith task list)
    (searchBound (.of (.int task)) (graph.edgesWith task list)
      (graph.rows.map fun row => .integer row.1)) [] [] [(.of (.int task), false)]

def replace : TaskGraph :=
  { graph with dependencies := Function.update graph.dependencies task list }

/-- An update of a task's dependencies, which is made if the check accepts it. -/
def update (change : Int × List Int) : TaskGraph :=
  if change.1 ∈ graph.ids then
    match graph.validates change.1 change.2 with
    | .ok _ => graph.replace change.1 change.2
    | .error _ => graph
  else graph

variable {graph task list}

lemma integer_eq_ofInt {id n : Int} (hid : id ∈ graph.ids) :
    Node.integer id = .ofInt n ↔ id = n := by
  have hbounded := graph.bounded id hid
  simp only [Node.ofInt, Node.of]
  constructor
  · intro h
    split at h
    · exact Node.integer.inj h
    · cases h
  · rintro rfl
    rw [if_pos hbounded]

lemma ofInt_eq {n : Int} (hn : n ∈ graph.ids) : Node.ofInt n = .integer n :=
  ((integer_eq_ofInt hn).mpr rfl).symm

/-- The edges of the search from the node of a task are those of the graph with the list. -/
lemma mem_edges_iff (htask : task ∈ graph.ids) (n : Int) (node : Node) :
    node ∈ graph.edgesWith task list (.ofInt n) ↔
      ∃ m, (graph.replace task list).DependsOn n m ∧ .ofInt m = node := by
  have hsame : Node.ofInt n = .of (.int task) ↔ n = task := by
    rw [show Node.of (.int task) = .integer task from ofInt_eq htask, eq_comm,
      integer_eq_ofInt htask, eq_comm]
  simp only [edgesWith, edges, DependsOn, replace]
  by_cases hn : n = task
  · subst hn
    simp [htask, Node.ofInt]
  rw [if_neg fun h => hn (hsame.mp h), Function.update_of_ne hn]
  cases hfind : graph.rows.find? fun row => Node.integer row.1 = .ofInt n with
  | none =>
    have hnot : n ∉ graph.ids := fun hmem => by
      have := List.find?_eq_none.mp hfind _ (mem_map_of_mem hmem)
      simp [ofInt_eq hmem] at this
    simp [hnot]
  | some row =>
    obtain ⟨id, hid, rfl⟩ := mem_map.mp (mem_of_find?_eq_some hfind)
    have hrow := List.find?_some hfind
    obtain rfl : id = n := (integer_eq_ofInt hid).mp (of_decide_eq_true hrow)
    simp [hid, Node.ofInt]

variable (task list) in
lemma reaches_lift (htask : task ∈ graph.ids) {n : Int} {node : Node}
    (h : ReflTransGen (Edge (graph.edgesWith task list)) (.ofInt n) node) :
    ∃ m, ReflTransGen (graph.replace task list).DependsOn n m ∧ .ofInt m = node := by
  induction h with
  | refl => exact ⟨n, .refl, rfl⟩
  | tail _ hedge ih =>
    obtain ⟨m, hm, rfl⟩ := ih
    obtain ⟨k, hk, hnode⟩ := (mem_edges_iff htask m _).mp hedge
    exact ⟨k, hm.tail hk, hnode⟩

variable (list) in
lemma cycleFrom_iff (htask : task ∈ graph.ids) :
    CycleFrom (Edge (graph.edgesWith task list)) (.ofInt task) ↔
      CycleFrom (graph.replace task list).DependsOn task := by
  constructor
  · rintro ⟨node, hreach, hcycle⟩
    obtain ⟨n, hn, rfl⟩ := reaches_lift task list htask hreach
    obtain ⟨next, hedge, hback⟩ := TransGen.head'_iff.mp hcycle
    obtain ⟨m, hm, rfl⟩ := (mem_edges_iff htask n _).mp hedge
    obtain ⟨k, hk, hsame⟩ := reaches_lift task list htask hback
    have hid : n ∈ graph.ids := hm.1
    rw [ofInt_eq hid, eq_comm] at hsame
    obtain rfl := (integer_eq_ofInt hid).mp hsame
    exact ⟨n, hn, TransGen.head'_iff.mpr ⟨m, hm, hk⟩⟩
  · have hedge : ∀ a b, (graph.replace task list).DependsOn a b →
        Edge (graph.edgesWith task list) (.ofInt a) (.ofInt b) :=
      fun a b hab => (mem_edges_iff htask a _).mpr ⟨b, hab, rfl⟩
    rintro ⟨n, hreach, hcycle⟩
    exact ⟨.ofInt n, hreach.lift _ hedge, hcycle.lift _ hedge⟩

lemma search_answers (htask : task ∈ graph.ids) (list : List Int) :
    ∃ answer, graph.search task list = some answer ∧
      (answer = true ↔ ¬ CycleFrom (graph.replace task list).DependsOn task) := by
  rw [← cycleFrom_iff list htask]
  refine searchFrom_spec ?_ (.initial _ _) ?_ (fun n hn => .inr (.inr hn)) (Nat.le_refl _)
  · intro n hn c hc
    have hsource : n ∈ .ofInt task :: graph.rows.map fun row => Node.integer row.1 := by
      rw [edgesWith, edges] at hc
      split at hc
      · rename_i hsame
        exact mem_cons.mpr (.inl hsame)
      cases hfind : graph.rows.find? fun row => Node.integer row.1 = n with
      | none => simp [hfind] at hc
      | some row =>
        have hrow := List.find?_some hfind
        exact mem_cons_of_mem _ (mem_map.mpr ⟨row, mem_of_find?_eq_some hfind,
          of_decide_eq_true hrow⟩)
    exact mem_dedup.mpr (mem_append_right _ (mem_flatMap.mpr ⟨n, hsource, hc⟩))
  · simp

lemma validates_iff (htask : task ∈ graph.ids) : graph.validates task list = .ok () ↔
      (∀ d ∈ list, d ∈ graph.ids ∧ d ≠ task) ∧
        ¬ CycleFrom (graph.replace task list).DependsOn task := by
  obtain ⟨answer, hanswer, hcycle⟩ := search_answers htask list
  have hnames : ∀ d : Int, (graph.rows.any fun row => Node.integer row.1 == .of (.int d)) = true ↔
      d ∈ graph.ids := by
    intro d
    simp only [rows, any_map, any_eq_true, Function.comp, beq_iff_eq]
    constructor
    · rintro ⟨id, hid, hsame⟩
      exact (integer_eq_ofInt hid).mp hsame ▸ hid
    · exact fun hd => ⟨d, hd, (ofInt_eq hd).symm⟩
  rw [search, edgesWith] at hanswer
  rw [← hcycle, validates, validateDependencies, bind_eq_ok]
  simp only [require_eq_ok, acyclic, exists_const, hanswer]
  simp [hnames, isInteger, pythonEqual, numeric, numbersEqual]

omit [Encoding] in
/-- A path of the replaced graph is a path of the graph, or leads over the task. -/
lemma replace_path {a b : Int} (h : TransGen (graph.replace task list).DependsOn a b) :
    TransGen graph.DependsOn a b ∨ ReflTransGen (graph.replace task list).DependsOn a task ∧
      TransGen (graph.replace task list).DependsOn task b := by
  have hold : ∀ {x y}, x ≠ task → (graph.replace task list).DependsOn x y →
      graph.DependsOn x y := by
    rintro x y hx ⟨hmem, hy⟩
    simp only [replace, Function.update_of_ne hx] at hy
    exact ⟨hmem, hy⟩
  induction h with
  | @single b hedge =>
    by_cases ha : a = task
    · subst ha
      exact .inr ⟨.refl, .single hedge⟩
    · exact .inl (.single (hold ha hedge))
  | @tail b c hpath hedge ih =>
    obtain hpast | ⟨hto, hfrom⟩ := ih
    · by_cases hb : b = task
      · subst hb
        exact .inr ⟨hpath.to_reflTransGen, .single hedge⟩
      · exact .inl (hpast.tail (hold hb hedge))
    · exact .inr ⟨hto, hfrom.tail hedge⟩

lemma Acyclic.update (h : graph.Acyclic) (change : Int × List Int) :
    (graph.update change).Acyclic := by
  obtain ⟨task, list⟩ := change
  rw [TaskGraph.update]
  split
  · rename_i htask
    split
    · rename_i hok
      have hfree := ((validates_iff htask).mp hok).2
      intro n hcycle
      obtain hpast | ⟨hto, hfrom⟩ := replace_path hcycle
      · exact h n hpast
      · exact hfree ⟨task, .refl, hfrom.trans_left hto⟩
    · exact h
  · exact h

/-- The check of a task's dependencies ends, and accepts those that name other tasks and
lead into no cycle; so a board without cycles stays so. -/
theorem dependencies_stay_acyclic (graph : TaskGraph) : (∀ task ∈ graph.ids, ∀ list : List Int,
      (graph.search task list).isSome = true ∧
      (validateDependencies (.int task) (list.map .int) graph.rows = .ok () ↔
        (∀ d ∈ list, d ∈ graph.ids ∧ d ≠ task) ∧
          ¬ CycleFrom (graph.replace task list).DependsOn task)) ∧
    (graph.Acyclic → ∀ changes : List (Int × List Int), (changes.foldl update graph).Acyclic) := by
  refine ⟨fun task htask list => ⟨?_, validates_iff htask⟩, fun h changes => ?_⟩
  · obtain ⟨answer, hanswer, -⟩ := search_answers htask list
    rw [hanswer, Option.isSome_some]
  induction changes generalizing graph with
  | nil => exact h
  | cons change changes ih => exact ih _ (h.update change)

end TaskGraph

end Graphs

end Quecto.Swarm
