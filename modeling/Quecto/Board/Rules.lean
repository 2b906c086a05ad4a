/-
  Board/Rules.lean --- what a run's outcome means for its task, and every rule that
  changes a task of the board, with what it writes.

  Source: `domain/project_board/services/{run_outcomes,starts}.rs`.
-/
import Quecto.Board.Transitions

namespace Quecto.Board.RunOutcomes

open Foundation
open Runs

inductive StopKind where
  | blocked | cancelled
  deriving DecidableEq

def statusAfter : RunOutcome → StopKind → TaskStatus
  | .succeeded, _ => .review
  | .stopped, .blocked => .blocked
  | .stopped, .cancelled | .failed, _ | .lost, _ => .ready

def endsIn (status : TaskStatus) : Prop :=
  status = .ready ∨ status = .review ∨ status = .blocked

lemma statusAfter_endsIn (outcome : RunOutcome) (stop : StopKind) :
    endsIn (statusAfter outcome stop) := by
  cases outcome with
  | succeeded => exact .inr (.inl rfl)
  | failed | lost => exact .inl rfl
  | stopped =>
    cases stop with
    | blocked => exact .inr (.inr rfl)
    | cancelled => exact .inl rfl

section RunOutcomes

variable [Unicode] [Descriptions] (task : Task)

def claimAfterEnd (target : TaskStatus) : Ruled (Option Claim) :=
  match target with
  | .ready => .ok none
  | .review | .blocked => .ok task.fields.claim
  | target =>
    let debug := target.debug
    .error (.panicked (.assertion
      s!"a run's end moves its task to ready, review or blocked, not {debug}"))

def movedByEnd (target : TaskStatus) (now : Timestamp) : Ruled (Option Task) := do
  let claim ← claimAfterEnd task target
  if target = task.fields.status ∧ claim = task.fields.claim then .ok none
  else do
    insist (task.fields.resolution.isNone && task.fields.reason.isNone)
      "a held task is unresolved and keeps no reason"
    some <$> settle { task.fields with status := target, claim := claim } (stamp task now)

/-- `task` as the end of its run leaves it: only a held task moves, and one already
where the end moves it is left as it is. -/
def taskAfterEnd (ended : Run) (stop : StopKind) (now : Timestamp) : Ruled (Option Task) := do
  ofTask task [ended]
  let outcome ← okOr ended.fields.outcome (.refused (.runOpen ended.fields.number))
  match task.fields.status with
  | .claimed | .inProgress | .review | .blocked => movedByEnd task (statusAfter outcome stop) now
  | .draft | .ready | .done | .archived => .ok none

def restored (ended : Run) (source : TaskStatus) (now : Timestamp) : Ruled (Option Task) := do
  ofTask task [ended]
  allow (!ended.isOpen) (.runOpen ended.fields.number)
  some <$> settle { task.fields with status := source } (stamp task now)

/-- `task` as the undo of its start leaves it: one the start took from review or
blocked goes back there, any other as a failed run's end takes it. -/
def taskAfterUndo (ended : Run) (source : TaskStatus) (now : Timestamp) : Ruled (Option Task) :=
  match task.fields.status, source with
  | .inProgress, .review | .inProgress, .blocked => restored task ended source now
  | _, _ => taskAfterEnd task ended .cancelled now

def inconsistencies (runs : List Run) : List Inconsistency :=
  let going := runs.any Run.isOpen
  let doneWithoutPlan := task.fields.status == .done &&
    task.fields.resolution == some .completed && task.fields.acceptedPlan.isNone && runs.isEmpty
  let (inProgress, outside) := match task.fields.status with
    | .inProgress => (!going, false)
    | .draft | .ready | .claimed | .review | .blocked | .done | .archived => (false, going)
  ([(doneWithoutPlan, .doneWithoutPlan), (inProgress, .inProgressWithoutRun),
    (outside, .runGoingOutsideProgress)].filter (·.1)).map (·.2)

/-! ## What a run's end does to its task -/

variable {task : Task} {ended : Run} {stop : StopKind} {now : Timestamp} {moved : Option Task}

/-- What the end of a run leaves of its task: one in progress moves off it, and one
that is left alone stays as it is. -/
structure LeftByEnd (task next : Task) : Prop where
  id : next.fields.id = task.fields.id
  prs : next.fields.prs = task.fields.prs
  moved : task.fields.status = .inProgress → endsIn next.fields.status
  stayed : next = task ∨ endsIn next.fields.status

lemma LeftByEnd.of_settled {next : Task} {target : TaskStatus} (claim : Option Claim)
    (h : SettledAs { task.fields with status := target, claim := claim } next)
    (htarget : endsIn target) : LeftByEnd task next := by
  have hends : endsIn next.fields.status := h.status ▸ htarget
  exact ⟨h.id, h.prs, fun _ => hends, .inr hends⟩

lemma LeftByEnd.of_stayed (h : task.fields.status ≠ .inProgress) : LeftByEnd task task :=
  ⟨rfl, rfl, fun hstatus => absurd hstatus h, .inl rfl⟩

lemma movedByEnd_eq_ok {target : TaskStatus} (htarget : endsIn target)
    (h : movedByEnd task target now = .ok moved) : LeftByEnd task (moved.getD task) := by
  obtain ⟨claim, _, h⟩ := bind_eq_ok.mp h
  split at h
  · rename_i hsame
    cases h
    refine LeftByEnd.of_stayed fun hstatus => ?_
    rw [hsame.1, hstatus] at htarget
    rcases htarget with h | h | h
    all_goals cases h
  · obtain ⟨_, _, h⟩ := bind_eq_ok.mp h
    obtain ⟨next, rfl, hsettle⟩ := map_eq_ok.mp h
    exact LeftByEnd.of_settled claim (settle_eq_ok hsettle) htarget

lemma taskAfterEnd_eq_ok (h : taskAfterEnd task ended stop now = .ok moved) :
    LeftByEnd task (moved.getD task) := by
  simp only [taskAfterEnd, bind_eq_ok] at h
  obtain ⟨_, -, outcome, -, h⟩ := h
  have hstayed : ∀ status, task.fields.status = status → status ≠ .inProgress →
      (.ok none : Ruled (Option Task)) = .ok moved → LeftByEnd task (moved.getD task) := by
    intro status hstatus hne hok
    cases hok
    exact LeftByEnd.of_stayed (hstatus ▸ hne)
  cases hstatus : task.fields.status with
  | claimed | inProgress | review | blocked =>
    rw [hstatus] at h
    exact movedByEnd_eq_ok (statusAfter_endsIn outcome stop) h
  | _ =>
    rw [hstatus] at h
    exact hstayed _ hstatus nofun h

lemma taskAfterUndo_eq_ok {source : TaskStatus}
    (h : taskAfterUndo task ended source now = .ok moved) : LeftByEnd task (moved.getD task) := by
  have hrestored : endsIn source → restored task ended source now = .ok moved →
      LeftByEnd task (moved.getD task) := by
    intro hsource h
    obtain ⟨_, _, h⟩ := bind_eq_ok.mp h
    obtain ⟨_, _, h⟩ := bind_eq_ok.mp h
    obtain ⟨next, rfl, hsettle⟩ := map_eq_ok.mp h
    exact LeftByEnd.of_settled task.fields.claim (settle_eq_ok hsettle) hsource
  unfold taskAfterUndo at h
  split at h
  · exact hrestored (.inr (.inl rfl)) h
  · exact hrestored (.inr (.inr rfl)) h
  · exact taskAfterEnd_eq_ok h

end RunOutcomes

end Quecto.Board.RunOutcomes

namespace Quecto.Board.Starts

open Foundation
open Runs
open Transitions

section

variable [Unicode] [Descriptions]

structure Started where
  task : Task
  run : Run
  plan : Plan
  source : TaskStatus

def heldFields (task : Task) (tasks : List Task) (actor : Identity) (now : Timestamp) :
    Ruled TaskFields :=
  match task.fields.status with
  | .ready => do
    let _ ← moveReads task .claimed actor (stamp task now)
    relationsAllow task .claimed tasks
    let claim ← newClaim actor task now
    pure { task.fields with claim := some claim }
  | .claimed | .review | .blocked => do
    let source := task.fields.status.debug
    insist (lifecycleAction task.fields.status .inProgress == some .start)
      s!"a start makes {source} -> in_progress, as the lifecycle says"
    let renewed ← renew task actor now
    pure renewed.fields
  | .inProgress => do
    let renewed ← renew task actor now
    pure renewed.fields
  | .draft | .done | .archived => refuse (.notAllowed task.fields.status .inProgress)

def acceptedPlan (task : Task) (plan : Option Plan) : Ruled Plan :=
  match task.fields.acceptedPlan, plan with
  | none, _ => refuse .noAcceptedPlan
  | some version, none => refuse (.unknownPlanVersion version)
  | some _, some plan => .ok plan

def start (task : Task) (tasks : List Task) (runs : List Run) (plan : Option Plan)
    (actor : Identity) (now : Timestamp) : Ruled Started := do
  let stamped := stamp task now
  let next ← heldFields task tasks actor now
  let plan ← acceptedPlan task plan
  let started ← settle { next with status := .inProgress, reason := none } stamped
  let run ← beginRun started runs plan actor now
  insist (started.fields.updated == stamped && run.fields.started == stamped)
    "the task's change and its run share one stamp"
  insist (started.fields.claim.any fun claim =>
      claim.holder.is actor && decide (claim.since ≤ stamped))
    "a started task is held by its starter, its claim taken or renewed by the stamp"
  pure { task := started, run := run, plan := plan, source := task.fields.status }

/-! ## What a start writes -/

variable {task : Task} {tasks : List Task} {runs : List Run} {plan : Option Plan}
  {actor : Identity} {now : Timestamp} {started : Started}

lemma renewed_fields_eq_ok {fields : TaskFields}
    (h : (renew task actor now >>= fun renewed => pure renewed.fields) = .ok fields) :
    fields.id = task.fields.id ∧ fields.prs = task.fields.prs := by
  obtain ⟨renewed, hrenew, h⟩ := bind_eq_ok.mp h
  obtain ⟨claim, hsettled⟩ := renew_eq_ok hrenew
  rw [← pure_eq_ok.mp h]
  exact ⟨hsettled.id, hsettled.prs⟩

lemma heldFields_eq_ok {fields : TaskFields} (h : heldFields task tasks actor now = .ok fields) :
    fields.id = task.fields.id ∧ fields.prs = task.fields.prs := by
  unfold heldFields at h
  split at h
  · simp only [bind_eq_ok] at h
    obtain ⟨_, -, _, -, _, -, h⟩ := h
    rw [← pure_eq_ok.mp h]
    exact ⟨rfl, rfl⟩
  iterate 3
    · obtain ⟨_, _, h⟩ := bind_eq_ok.mp h
      exact renewed_fields_eq_ok h
  · exact renewed_fields_eq_ok h
  all_goals cases h

structure StartedFrom (task : Task) (runs : List Run) (started : Started) : Prop where
  id : started.task.fields.id = task.fields.id
  status : started.task.fields.status = .inProgress
  prs : started.task.fields.prs = task.fields.prs
  idle : Idle runs
  going : started.run.isOpen = true
  run : started.run.fields.task = started.task.fields.id
  number : ∀ run ∈ runs, run.fields.number < started.run.fields.number

lemma start_eq_ok (h : start task tasks runs plan actor now = .ok started) :
    StartedFrom task runs started := by
  simp only [start, bind_eq_ok] at h
  obtain ⟨fields, hfields, plan, -, next, hnext, run, hrun, _, -, _, -, h⟩ := h
  rw [← pure_eq_ok.mp h]
  have hsettled := settle_eq_ok hnext
  have hheld := heldFields_eq_ok hfields
  obtain ⟨hidle, hgoing, htask, hnumber⟩ := beginRun_eq_ok hrun
  exact ⟨hsettled.id.trans hheld.1, hsettled.status, hsettled.prs.trans hheld.2, hidle, hgoing,
    htask, hnumber⟩

end

end Quecto.Board.Starts

namespace Quecto.Board

open Foundation
open Runs (HeldEnd Reported runAndPlan)
open RunOutcomes (StopKind taskAfterEnd taskAfterUndo)
open Transitions (MoveReason)
open Plans (DraftEdit AsRead Moment)
open Changes (Linked HostPrs Head)

section Rules

variable [Unicode] [Descriptions]

structure View where
  task : Task
  runs : List Run
  changes : List Change
  board : Linked

structure Writes where
  task : Option Task
  run : Option Run
  changes : List Change

inductive Rule where
  | editDraft (edit : DraftEdit) (now : Timestamp)
  | moveWithReason (target : TaskStatus) (reason : MoveReason) (actor : Identity) (now : Timestamp)
  | start (plan : Option Plan) (actor : Identity) (now : Timestamp)
  | foldBack (number : Nat) (plans : List Plan) (outcome : RunOutcome) (cost : Option Nat)
      (items : List RunItem) (stop : StopKind) (now : Timestamp)
  | undoStart (number : Nat) (plans : List Plan) (outcome : RunOutcome) (cost : Option Nat)
      (items : List RunItem) (source : TaskStatus) (now : Timestamp)
  | endHeld (number : Nat) (plans : List Plan) (held : HeldEnd) (reported : Reported)
      (stop : StopKind) (actor : Identity) (now : Timestamp)
  | endLost (number : Nat) (plans : List Plan) (reported : Reported) (stop : StopKind)
      (actor : Identity) (now : Timestamp)
  | renew (holder : Identity) (now : Timestamp)
  | takeOver (taker : Identity) (now : Timestamp)
  | accept (versions : List Plan) (version : Nat) (expected : Option AsRead) (actor : Identity)
      (moment : Moment)
  | doneWithoutRun (reason : Text) (actor : Identity) (merged : List Nat) (now : Timestamp)
  | completeMerged (merged : List Nat) (now : Timestamp)
  | complete (host : HostPrs) (moment : Moment)
  | addPr (holder : Identity) (pr : Nat) (now : Timestamp)
  | removePr (holder : Identity) (pr : Nat) (now : Timestamp)
  | link (head : Head) (host : HostPrs) (actor : Identity) (moment : Moment)
  | unlink (number : Nat) (host : HostPrs) (actor : Identity) (moment : Moment)

def Writes.ofTask (task : Task) : Writes := { task := some task, run := none, changes := [] }

def Writes.ofChange (change : Change) : Writes := { task := none, run := none, changes := [change] }

def Writes.ofEnd (ended : Run) (moved : Option Task) : Writes :=
  { task := moved, run := some ended, changes := [] }

def Rule.apply (rule : Rule) (view : View) : Ruled Writes :=
  match rule with
  | editDraft edit now => Writes.ofTask <$> Plans.editDraft view.task edit now
  | moveWithReason target reason actor now =>
    Writes.ofTask <$> Transitions.moveWithReason view.task target reason actor view.runs
      view.changes view.board.tasks now
  | start plan actor now =>
    (fun started => { task := some started.task, run := some started.run, changes := [] }) <$>
      Starts.start view.task view.board.tasks view.runs plan actor now
  | foldBack number plans outcome cost items stop now => do
    let (run, plan) ← runAndPlan view.runs plans number
    let folded ← Runs.foldBack run plan outcome cost items now
    Writes.ofEnd folded <$> taskAfterEnd view.task folded stop now
  | undoStart number plans outcome cost items source now => do
    let (run, plan) ← runAndPlan view.runs plans number
    let folded ← Runs.foldBack run plan outcome cost items now
    Writes.ofEnd folded <$> taskAfterUndo view.task folded source now
  | endHeld number plans held reported stop actor now => do
    let (run, plan) ← runAndPlan view.runs plans number
    let ended ← Runs.endHeld view.task run plan held reported actor now
    Writes.ofEnd ended <$> taskAfterEnd view.task ended stop now
  | endLost number plans reported stop actor now => do
    let (run, plan) ← runAndPlan view.runs plans number
    let ended ← Runs.endLost view.task run plan reported actor now
    Writes.ofEnd ended <$> taskAfterEnd view.task ended stop now
  | renew holder now => Writes.ofTask <$> Board.renew view.task holder now
  | takeOver taker now => Writes.ofTask <$> Board.takeOver view.task taker now
  | accept versions version expected actor moment =>
    (fun accepted => Writes.ofTask accepted.task) <$>
      Plans.accept view.task versions view.runs version expected actor moment
  | doneWithoutRun reason actor merged now =>
    Writes.ofTask <$> Transitions.doneWithoutRun view.task reason actor
      { runs := view.runs, changes := view.changes, tasks := view.board.tasks,
        merged := merged } now
  | completeMerged merged now =>
    (fun completed => { task := some completed.task, run := completed.run, changes := [] }) <$>
      Transitions.completeMerged view.task merged view.changes view.runs now
  | complete host moment =>
    (fun done =>
        { task := some done.completed.task, run := done.completed.run,
          changes := done.changes }) <$>
      Changes.complete view.task view.changes host view.runs moment
  | addPr holder pr now => Writes.ofTask <$> Changes.addPr view.task holder pr view.board now
  | removePr holder pr now => Writes.ofTask <$> Changes.removePr view.task holder pr now
  | link head host actor moment =>
    Writes.ofChange <$> Changes.link view.task view.board head host actor moment
  | unlink number host actor moment =>
    Writes.ofChange <$> Changes.unlink view.task view.changes number host actor moment

section

open Starts Runs RunOutcomes Transitions Changes

/-- What an allowed rule writes. -/
inductive Applied (view : View) : Writes → Prop
  | settled {fields next} (settled : SettledAs fields next)
      (id : fields.id = view.task.fields.id) (status : fields.status = view.task.fields.status)
      (resolution : fields.resolution = view.task.fields.resolution)
      (prs : fields.prs = view.task.fields.prs) : Applied view (.ofTask next)
  | moved {next target} (moved : MovedTo view.task next target view.runs view.changes) :
      Applied view (.ofTask next)
  | started {started} (from_ : StartedFrom view.task view.runs started) :
      Applied view ⟨some started.task, some started.run, []⟩
  | ended {run ended moved} (mem : run ∈ view.runs) (closed : EndedAs run ended)
      (left : LeftByEnd view.task (moved.getD view.task)) : Applied view (.ofEnd ended moved)
  | done {next} (done : DoneWithoutRun view.task next view.runs view.changes) :
      Applied view (.ofTask next)
  | finished {completed} (review : view.task.fields.status = .review)
      (finished : Finished view.task view.runs completed)
      (merged : ∀ change ∈ view.changes, change.isOpen = false) :
      Applied view ⟨some completed.task, completed.run, []⟩
  | completed {done} (completed : CompletedBy view.task view.changes view.runs done) :
      Applied view ⟨some done.completed.task, done.completed.run, done.changes⟩
  | added {next pr} (added : PrAdded view.task view.board pr next) : Applied view (.ofTask next)
  | removed {next index}
      (settled : SettledAs
        { view.task.fields with prs := view.task.fields.prs.eraseIdx index } next) :
      Applied view (.ofTask next)
  | linked {change} (linked : LinkedTo view.task view.board change) :
      Applied view (.ofChange change)
  | unlinked {change} (unlinked : UnlinkedFrom view.changes change) :
      Applied view (.ofChange change)

variable {view : View} {writes : Writes}

lemma Rule.applied {rule : Rule} (h : rule.apply view = .ok writes) : Applied view writes := by
  cases rule with
  | editDraft edit now =>
    obtain ⟨next, rfl, hnext⟩ := map_eq_ok.mp h
    obtain ⟨_, fields, hsettled, hid, hstatus, hresolution, hprs⟩ := Plans.editDraft_eq_ok hnext
    exact .settled hsettled hid hstatus hresolution hprs
  | moveWithReason target reason actor now =>
    obtain ⟨next, rfl, hnext⟩ := map_eq_ok.mp h
    exact .moved (moveWithReason_eq_ok hnext)
  | start plan actor now =>
    obtain ⟨started, rfl, hstarted⟩ := map_eq_ok.mp h
    exact .started (start_eq_ok hstarted)
  | foldBack number plans outcome cost items stop now =>
    obtain ⟨⟨run, plan⟩, hrun, h⟩ := bind_eq_ok.mp h
    obtain ⟨ended, hended, h⟩ := bind_eq_ok.mp h
    obtain ⟨moved, rfl, hmoved⟩ := map_eq_ok.mp h
    exact .ended (runAndPlan_eq_ok hrun) (foldBack_eq_ok hended) (taskAfterEnd_eq_ok hmoved)
  | undoStart number plans outcome cost items source now =>
    obtain ⟨⟨run, plan⟩, hrun, h⟩ := bind_eq_ok.mp h
    obtain ⟨ended, hended, h⟩ := bind_eq_ok.mp h
    obtain ⟨moved, rfl, hmoved⟩ := map_eq_ok.mp h
    exact .ended (runAndPlan_eq_ok hrun) (foldBack_eq_ok hended) (taskAfterUndo_eq_ok hmoved)
  | endHeld number plans held reported stop actor now =>
    obtain ⟨⟨run, plan⟩, hrun, h⟩ := bind_eq_ok.mp h
    obtain ⟨ended, hended, h⟩ := bind_eq_ok.mp h
    obtain ⟨moved, rfl, hmoved⟩ := map_eq_ok.mp h
    exact .ended (runAndPlan_eq_ok hrun) (endHeld_eq_ok hended) (taskAfterEnd_eq_ok hmoved)
  | endLost number plans reported stop actor now =>
    obtain ⟨⟨run, plan⟩, hrun, h⟩ := bind_eq_ok.mp h
    obtain ⟨ended, hended, h⟩ := bind_eq_ok.mp h
    obtain ⟨moved, rfl, hmoved⟩ := map_eq_ok.mp h
    exact .ended (runAndPlan_eq_ok hrun) (endLost_eq_ok hended) (taskAfterEnd_eq_ok hmoved)
  | renew holder now =>
    obtain ⟨next, rfl, hnext⟩ := map_eq_ok.mp h
    obtain ⟨_, hsettled⟩ := renew_eq_ok hnext
    exact .settled hsettled rfl rfl rfl rfl
  | takeOver taker now =>
    obtain ⟨next, rfl, hnext⟩ := map_eq_ok.mp h
    obtain ⟨_, hsettled⟩ := takeOver_eq_ok hnext
    exact .settled hsettled rfl rfl rfl rfl
  | accept versions version expected actor moment =>
    obtain ⟨accepted, rfl, haccepted⟩ := map_eq_ok.mp h
    exact .settled (Plans.accept_eq_ok haccepted).2 rfl rfl rfl rfl
  | doneWithoutRun reason actor merged now =>
    obtain ⟨next, rfl, hnext⟩ := map_eq_ok.mp h
    exact .done (doneWithoutRun_eq_ok hnext)
  | completeMerged merged now =>
    obtain ⟨completed, rfl, hcompleted⟩ := map_eq_ok.mp h
    obtain ⟨hreview, hfinished, hmerged⟩ := completeMerged_eq_ok hcompleted
    exact .finished hreview hfinished hmerged
  | complete host moment =>
    obtain ⟨done, rfl, hdone⟩ := map_eq_ok.mp h
    exact .completed (complete_eq_ok hdone)
  | addPr holder pr now =>
    obtain ⟨next, rfl, hnext⟩ := map_eq_ok.mp h
    exact .added (addPr_eq_ok hnext)
  | removePr holder pr now =>
    obtain ⟨next, rfl, hnext⟩ := map_eq_ok.mp h
    obtain ⟨_, hsettled⟩ := removePr_eq_ok hnext
    exact .removed hsettled
  | link head host actor moment =>
    obtain ⟨change, rfl, hchange⟩ := map_eq_ok.mp h
    exact .linked (link_eq_ok hchange)
  | unlink number host actor moment =>
    obtain ⟨change, rfl, hchange⟩ := map_eq_ok.mp h
    exact .unlinked (unlink_eq_ok hchange)

end

def writeRun (runs : List Run) (run : Run) : List Run :=
  if runs.any fun other => other.fields.number == run.fields.number then
    runs.map fun other => if other.fields.number = run.fields.number then run else other
  else runs ++ [run]

def sameChange (a b : Change) : Bool :=
  a.fields.task == b.fields.task && a.fields.number == b.fields.number

def rewritten (written : List Change) (change : Change) : Change :=
  (written.find? (sameChange change)).getD change

def writeChanges (changes written : List Change) : List Change :=
  changes.map (rewritten written) ++
    written.filter fun change => !changes.any fun other => sameChange other change

end Rules

end Quecto.Board
