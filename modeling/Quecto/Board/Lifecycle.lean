/-
  Board/Lifecycle.lean --- a task and its runs agree, whatever rules are applied, and a live
  claim excludes everyone else.
-/
import Quecto.Board.Rules

namespace Quecto.Board

open Foundation List Run Refused
open Runs
open RunOutcomes
open Transitions
open Changes (Linked)

lemma transitions_targets : ∀ row ∈ transitions,
    row.target ≠ .inProgress ∧ row.target ≠ .review ∧ row.target ≠ .blocked ∧
      (row.target = .done → row.source = .review) ∧
      (row.source = .inProgress → holdsMovesTo row.target = true) := by
  decide

section Lifecycle

variable [Unicode] [Descriptions]

/-! ## What a rule does to a task and its runs -/

inductive Turn (task : Task) (runs : List Run) : Task → Option Run → Prop
  | stays {next} (status : next.fields.status = task.fields.status)
      (resolution : next.fields.resolution = task.fields.resolution) : Turn task runs next none
  | moves {next} (outside : next.fields.status ≠ .inProgress)
      (review : next.fields.status ≠ .review) (blocked : next.fields.status ≠ .blocked)
      (idle : task.fields.status = .inProgress → Idle runs)
      (done : next.fields.status = .done → next.fields.resolution = some .completed →
        task.fields.status = .review) : Turn task runs next none
  | starts {next run} (status : next.fields.status = .inProgress)
      (idle : Idle runs) (going : run.isOpen = true)
      (number : ∀ other ∈ runs, other.fields.number < run.fields.number) :
      Turn task runs next (some run)
  | ends {next run ended} (mem : run ∈ runs) (closed : EndedAs run ended)
      (left : LeftByEnd task next) : Turn task runs next (some ended)
  | completes {next run} (review : task.fields.status = .review)
      (status : next.fields.status = .done) (going : EndsGoing runs run) : Turn task runs next run

variable {task next : Task} {runs : List Run} {view : View}
  {changes : List Change} {ended run : Run} {writes : Writes}

lemma MovedTo.turn {target : TaskStatus} (h : MovedTo task next target runs changes) :
    Turn task runs next none := by
  obtain ⟨row, hrow, hsource, htarget⟩ := h.row
  obtain ⟨houtside, hreview, hblocked, hdone, hholds⟩ := transitions_targets row hrow
  rw [htarget] at houtside hreview hblocked hdone hholds
  rw [hsource] at hdone hholds
  refine .moves (h.status ▸ houtside) (h.status ▸ hreview) (h.status ▸ hblocked) ?_ ?_
  · exact fun hprogress => h.idle (hholds hprogress)
  · exact fun hstatus _ => hdone (h.status.symm.trans hstatus)

lemma DoneWithoutRun.turn (h : DoneWithoutRun task next runs changes) :
    Turn task runs next none := by
  have hne : ∀ status, status ≠ .done → next.fields.status ≠ status :=
    fun _ hstatus hnext => hstatus (hnext.symm.trans h.status)
  refine .moves (hne _ (by decide)) (hne _ (by decide)) (hne _ (by decide)) (fun _ => h.idle) ?_
  intro _ hcompleted
  exact nomatch h.resolution.symm.trans hcompleted

lemma Applied.turn (h : Applied view writes) :
    Turn view.task view.runs (writes.task.getD view.task) writes.run := by
  cases h with
  | settled hsettled _ hstatus hresolution _ =>
    exact .stays (hsettled.status.trans hstatus) (hsettled.resolution.trans hresolution)
  | moved hmoved => exact MovedTo.turn hmoved
  | started hfrom => exact .starts hfrom.status hfrom.idle hfrom.going hfrom.number
  | ended hrun hended hleft => exact .ends hrun hended hleft
  | done hdone => exact DoneWithoutRun.turn hdone
  | finished hreview hfinished _ => exact .completes hreview hfinished.status hfinished.run
  | completed hby => exact .completes hby.review hby.finished.status hby.finished.run
  | added hadded => exact .stays hadded.settled.status hadded.settled.resolution
  | removed hsettled => exact .stays hsettled.status hsettled.resolution
  | linked _ | unlinked _ => exact .stays rfl rfl

/-! ## Coherence -/

def hasRun (task : Task) : Prop :=
  task.fields.status = .review ∨ task.fields.status = .blocked ∨
    task.fields.status = .done ∧ task.fields.resolution = some .completed

structure Coherent (task : Task) (runs : List Run) : Prop where
  numbers : (runs.map (·.fields.number)).Nodup
  single : (runs.filter isOpen).length ≤ 1
  going : (∃ run ∈ runs, run.isOpen = true) ↔ task.fields.status = .inProgress
  begun : hasRun task → runs ≠ []

omit [Descriptions] in
lemma idle_iff : Idle runs ↔ ¬∃ run ∈ runs, run.isOpen = true := by
  constructor
  · rintro hidle ⟨run, hrun, hopen⟩
    exact Bool.false_ne_true ((hidle run hrun).symm.trans hopen)
  · intro hnone run hrun
    exact Bool.eq_false_iff.mpr fun hopen => hnone ⟨run, hrun, hopen⟩

omit [Descriptions] in
lemma filter_isOpen_of_idle (h : Idle runs) : runs.filter isOpen = [] := by
  rw [filter_eq_nil_iff]
  intro run hrun
  exact Bool.eq_false_iff.mp (h run hrun)

lemma Coherent.idle (h : Coherent task runs) (hstatus : task.fields.status ≠ .inProgress) :
    Idle runs :=
  idle_iff.mpr fun hopen => hstatus (h.going.mp hopen)

lemma Coherent.of_idle (hnumbers : (runs.map (·.fields.number)).Nodup) (hidle : Idle runs)
    (hstatus : next.fields.status ≠ .inProgress) (hbegun : hasRun next → runs ≠ []) :
    Coherent next runs := by
  refine ⟨hnumbers, ?_, ?_, hbegun⟩
  · rw [filter_isOpen_of_idle hidle]
    exact Nat.zero_le 1
  · exact iff_of_false (idle_iff.mp hidle) hstatus

omit [Descriptions] in
lemma eq_of_isOpen (h : (runs.filter isOpen).length ≤ 1) {other : Run} (hrun : run ∈ runs)
    (hopen : run.isOpen = true) (hother : other ∈ runs) (hgoing : other.isOpen = true) :
    other = run := by
  have hrunf : run ∈ runs.filter isOpen := mem_filter.mpr ⟨hrun, hopen⟩
  have hotherf : other ∈ runs.filter isOpen := mem_filter.mpr ⟨hother, hgoing⟩
  match hfilter : runs.filter isOpen with
  | [] => exact nomatch hfilter ▸ hrunf
  | [only] =>
    rw [hfilter, mem_singleton] at hrunf hotherf
    exact hotherf.trans hrunf.symm
  | _ :: _ :: _ => exact absurd (hfilter ▸ h) (by simp)

omit [Descriptions] in
lemma writeRun_ended (hsingle : (runs.filter isOpen).length ≤ 1) (hrun : run ∈ runs)
    (hended : EndedAs run ended) : Idle (writeRun runs ended) ∧
      (writeRun runs ended).map (·.fields.number) = runs.map (·.fields.number) := by
  have hany : (runs.any fun other => other.fields.number == ended.fields.number) = true :=
    any_eq_true.mpr ⟨run, hrun, beq_iff_eq.mpr hended.number.symm⟩
  rw [writeRun, if_pos hany]
  constructor
  · intro other hother
    obtain ⟨before, hbefore, rfl⟩ := mem_map.mp hother
    split
    · exact hended.closed
    rename_i hnumber
    refine Bool.eq_false_iff.mpr fun hopen => hnumber ?_
    rw [eq_of_isOpen hsingle hrun hended.wasOpen hbefore hopen, hended.number]
  · rw [map_map]
    refine map_congr_left fun other _ => ?_
    simp only [Function.comp_apply]
    split
    · rename_i hnumber
      exact hnumber.symm
    · rfl

omit [Descriptions] in
lemma ne_nil_of_map_eq {runs' : List Run}
    (h : runs'.map (·.fields.number) = runs.map (·.fields.number)) (hne : runs ≠ []) :
    runs' ≠ [] := by
  rintro rfl
  exact hne (map_eq_nil_iff.mp h.symm)

def runsAfter (runs : List Run) (run : Option Run) : List Run := run.elim runs (writeRun runs)

lemma Coherent.turn {run : Option Run} (h : Coherent task runs) (hturn : Turn task runs next run) :
    Coherent next (runsAfter runs run) := by
  cases hturn with
  | stays status resolution =>
    refine ⟨h.numbers, h.single, status ▸ h.going, ?_⟩
    rw [hasRun, status, resolution]
    exact h.begun
  | moves outside review blocked idle done =>
    have hidle : Idle runs := by
      by_cases hstatus : task.fields.status = .inProgress
      · exact idle hstatus
      · exact h.idle hstatus
    refine .of_idle h.numbers hidle outside ?_
    rintro (hreview | hblocked | ⟨hdone, hcompleted⟩)
    · exact absurd hreview review
    · exact absurd hblocked blocked
    · exact h.begun (.inl (done hdone hcompleted))
  | @starts run status idle going number =>
    have hfresh : (runs.any fun other => other.fields.number == run.fields.number) = false := by
      rw [any_eq_false]
      intro other hother
      exact mt beq_iff_eq.mp (Nat.ne_of_lt (number other hother))
    have hafter : runsAfter runs (some run) = runs ++ [run] := by
      rw [runsAfter, Option.elim, writeRun, hfresh]
      rfl
    rw [hafter]
    refine ⟨?_, ?_, ?_, ?_⟩
    · rw [map_append]
      refine nodup_append.mpr ⟨h.numbers, nodup_singleton _, ?_⟩
      intro n hn m hm
      obtain ⟨other, hother, rfl⟩ := mem_map.mp hn
      rw [mem_singleton.mp hm]
      exact Nat.ne_of_lt (number other hother)
    · rw [filter_append, filter_isOpen_of_idle idle]
      exact length_filter_le _ [run]
    · refine iff_of_true ⟨run, ?_, going⟩ status
      exact mem_append_right _ mem_cons_self
    · exact fun _ => append_ne_nil_of_right_ne_nil _ (cons_ne_nil _ _)
  | @ends run ended mem closed left =>
    have hprogress := h.going.mp ⟨run, mem, closed.wasOpen⟩
    obtain ⟨hidle, hnumbers⟩ := writeRun_ended h.single mem closed
    refine .of_idle (hnumbers ▸ h.numbers) hidle ?_ fun _ =>
      ne_nil_of_map_eq hnumbers (ne_nil_of_mem mem)
    rcases left.moved hprogress with hstatus | hstatus | hstatus
    all_goals exact hstatus ▸ nofun
  | completes review status going =>
    have hidle := h.idle (review ▸ nofun)
    have hnext : next.fields.status ≠ .inProgress := status ▸ nofun
    cases run with
    | none => exact .of_idle h.numbers hidle hnext fun _ => h.begun (.inl review)
    | some ended =>
      obtain ⟨run, hrun, hended⟩ := going
      exact nomatch hended.wasOpen.symm.trans (hidle run hrun)

lemma inconsistencies_eq_nil (h : Coherent task runs) : inconsistencies task runs = [] := by
  have hgoing : runs.any isOpen = (task.fields.status == .inProgress) := by
    rw [Bool.eq_iff_iff, any_eq_true, beq_iff_eq]
    exact h.going
  have hplan : (task.fields.status == .done && task.fields.resolution == some .completed &&
      task.fields.acceptedPlan.isNone && runs.isEmpty) = false := by
    refine Bool.eq_false_iff.mpr fun hplan => ?_
    simp only [Bool.and_eq_true, beq_iff_eq, List.isEmpty_iff] at hplan
    exact h.begun (.inr (.inr hplan.1.1)) hplan.2
  rw [inconsistencies, hgoing, hplan]
  cases task.fields.status <;> rfl

/-! ## Histories -/

structure History where
  task : Task
  runs : List Run

structure Act where
  rule : Rule
  changes : List Change
  board : Linked

def History.viewFor (history : History) (act : Act) : View :=
  { task := history.task, runs := history.runs, changes := act.changes, board := act.board }

def History.step (history : History) (act : Act) : Ruled Writes × History :=
  let answer := act.rule.apply (history.viewFor act)
  match answer with
  | .ok writes =>
    (answer, { task := writes.task.getD history.task, runs := runsAfter history.runs writes.run })
  | .error _ => (answer, history)

lemma coherent_step (history : History) (act : Act) (h : Coherent history.task history.runs) :
    Coherent (history.step act).2.task (history.step act).2.runs := by
  rw [History.step]
  cases hanswer : act.rule.apply (history.viewFor act) with
  | ok writes => exact h.turn (Rule.applied hanswer).turn
  | error stop => exact h

lemma coherent_draft (h : task.fields.status = .draft) : Coherent task [] := by
  have hne : ∀ status, status ≠ .draft → task.fields.status ≠ status :=
    fun _ hstatus htask => hstatus (htask.symm.trans h)
  refine .of_idle nodup_nil nofun (hne _ (by decide)) ?_
  rintro (hreview | hblocked | ⟨hdone, _⟩)
  · exact absurd hreview (hne _ (by decide))
  · exact absurd hblocked (hne _ (by decide))
  · exact absurd hdone (hne _ (by decide))

/-- A task that began as a draft with no runs agrees with its runs after any rules
applied to it, by any actors at any clock readings: at most one run is going, one is
going exactly while the task is in progress, run numbers are distinct, and nothing
about the task contradicts its runs. -/
theorem lifecycle_coherent (task : Task) (hdraft : task.fields.status = .draft) (acts : List Act) :
    let history := exec History.step { task := task, runs := [] } acts
    (history.runs.filter isOpen).length ≤ 1 ∧
      ((∃ run ∈ history.runs, run.isOpen = true) ↔ history.task.fields.status = .inProgress) ∧
      (history.runs.map (·.fields.number)).Nodup ∧
      inconsistencies history.task history.runs = [] := by
  intro history
  have h : Coherent history.task history.runs :=
    exec_invariant (I := fun history : History => Coherent history.task history.runs)
      coherent_step (coherent_draft hdraft) acts
  exact ⟨h.single, h.going, h.numbers, inconsistencies_eq_nil h⟩

end Lifecycle

section

open scoped Ascii

def sampleIdentity : Identity := { name := "Ada".toList, email := "ada@example.org".toList }

def sampleTask : Task where
  fields :=
    { id := ⟨"tidy".toList, by decide⟩
      title := "Tidy the board".toList
      kind := .task
      description := []
      descriptionForm := .legacy
      status := .draft
      parent := none
      dependsOn := []
      acceptedPlan := none
      claim := none
      prs := []
      githubIssue := none
      resolution := none
      supersededBy := []
      references := []
      created := ⟨1000, by decide⟩
      updated := ⟨1000, by decide⟩
      reason := none }
  valid := by decide +kernel

def samplePlanFields (state : PlanState) (accepted : Option (Identity × Timestamp)) :
    PlanFields where
  task := sampleTask.fields.id
  version := 1
  state := state
  approach := []
  handoff := none
  items := []
  team := none
  proposedBy := sampleIdentity
  editedBy := none
  accepted := accepted
  created := ⟨1000, by decide⟩
  updated := ⟨1000, by decide⟩

def sampleDraft : Plan := ⟨samplePlanFields .draft none, by decide +kernel⟩

def sampleAccepted : Plan :=
  ⟨samplePlanFields .accepted (some (sampleIdentity, ⟨1000, by decide⟩)), by decide +kernel⟩

def sampleActs : List Act :=
  [ .accept [sampleDraft] 1 none sampleIdentity { now := ⟨1000, by decide⟩, latest := none },
    .moveWithReason .ready .absent sampleIdentity ⟨1001, by decide⟩,
    .start (some sampleAccepted) sampleIdentity ⟨1002, by decide⟩,
    .foldBack 1 [sampleAccepted] .succeeded none [] .cancelled ⟨1003, by decide⟩].map
  fun rule => { rule := rule, changes := [], board := { changes := [], tasks := [] } }

theorem lifecycle_coherent_sample :
    let history := exec History.step { task := sampleTask, runs := [] } sampleActs
    (history.runs.filter isOpen).length ≤ 1 ∧
      ((∃ run ∈ history.runs, run.isOpen = true) ↔ history.task.fields.status = .inProgress) ∧
      (history.runs.map (·.fields.number)).Nodup ∧
      inconsistencies history.task history.runs = [] :=
  lifecycle_coherent sampleTask rfl sampleActs

example : (moments History.step { task := sampleTask, runs := [] } sampleActs).map
    (fun m => (m.after.task.fields.status, m.after.runs.map isOpen)) =
    [(.draft, []), (.ready, []), (.inProgress, [true]), (.review, [false])] := by
  decide +kernel

end

open Starts (heldFields start)
open Runs (HeldEnd Reported endHeld endLost)
open Changes (Linked HostPrs Head addPr removePr link unlink)

lemma transitions_held : ∀ row ∈ transitions, row.source.mayHoldClaim = true →
    row.who ≠ .anyone := by
  decide

lemma rowOf_cases (source target : TaskStatus) :
    Refused (rowOf source target) ∨ ∃ row, rowOf source target = .ok row := by
  cases source <;> cases target <;>
    first
      | exact .inl ⟨_, rfl⟩
      | exact .inr ⟨_, rfl⟩

lemma lifecycleAction_start : ∀ source, source.mayHoldClaim = true → source ≠ .inProgress →
    lifecycleAction source .inProgress = some .start := by
  intro source
  cases source <;> decide

section Holder

variable [Unicode] [Descriptions]

def Rule.actor? : Rule → Option Identity
  | editDraft _ _ => none
  | moveWithReason _ _ actor _ => some actor
  | start _ actor _ => some actor
  | foldBack _ _ _ _ _ _ _ => none
  | undoStart _ _ _ _ _ _ _ => none
  | endHeld _ _ _ _ _ actor _ => some actor
  | endLost _ _ _ _ actor _ => some actor
  | renew holder _ => some holder
  | takeOver taker _ => some taker
  | accept _ _ _ actor _ => some actor
  | doneWithoutRun _ actor _ _ => some actor
  | completeMerged _ _ => none
  | complete _ _ => none
  | addPr holder _ _ => some holder
  | removePr holder _ _ => some holder
  | link _ _ actor _ => some actor
  | unlink _ _ actor _ => some actor

def Rule.now : Rule → Timestamp
  | editDraft _ now => now
  | moveWithReason _ _ _ now => now
  | start _ _ now => now
  | foldBack _ _ _ _ _ _ now => now
  | undoStart _ _ _ _ _ _ now => now
  | endHeld _ _ _ _ _ _ now => now
  | endLost _ _ _ _ _ now => now
  | renew _ now => now
  | takeOver _ now => now
  | accept _ _ _ _ moment => moment.now
  | doneWithoutRun _ _ _ now => now
  | completeMerged _ now => now
  | complete _ moment => moment.now
  | addPr _ _ now => now
  | removePr _ _ now => now
  | link _ _ _ moment => moment.now
  | unlink _ _ _ moment => moment.now

def Rule.completes : Rule → Bool
  | completeMerged _ _ | complete _ _ => true
  | _ => false

def Rule.foldsBack : Rule → Bool
  | foldBack _ _ _ _ _ _ _ | undoStart _ _ _ _ _ _ _ => true
  | _ => false

structure HeldByAnother (task : Task) (claim : Claim) (actor : Identity) (now : Timestamp) :
    Prop where
  claimed : task.fields.claim = some claim
  live : isLive claim now = true
  other : claim.holder.is actor = false

namespace HeldByAnother

variable {task : Task} {claim : Claim} {actor : Identity} {now : Timestamp}

section

variable (h : HeldByAnother task claim actor now)
include h

lemma mayHoldClaim : task.fields.status.mayHoldClaim = true :=
  Task.mayHoldClaim_of_claim h.claimed

lemma heldLiveBy : Refused (heldLiveBy task actor now) := heldLiveBy_refused h.claimed h.other

lemma decides : Refused (Plans.decides task actor now) :=
  heldLiveIfClaimed_refused h.claimed h.other

lemma mayAct {who : Actor} (hwho : who ≠ .anyone) : Refused (mayAct who task actor now) := by
  cases who with
  | anyone => exact absurd rfl hwho
  | holder => exact h.heldLiveBy.bind _
  | releaser => exact (heldOrLapsedBy_refused h.claimed h.other).bind _
  | holderWhileLive =>
    have hlive : (task.fields.claim.any fun claim => isLive claim now) = true := by
      rw [h.claimed]
      exact h.live
    rw [Transitions.mayAct, if_pos hlive]
    exact bind ⟨_, heldBy_refused h.claimed h.other⟩ _

lemma allowed (target : TaskStatus) : Refused (allowed task target actor now) := by
  refine bind_of ((rowOf_cases task.fields.status target).imp id ?_)
  rintro ⟨row, hrow⟩
  obtain ⟨hmem, hsource, _⟩ := rowOf_eq_ok hrow
  have hwho := transitions_held row hmem (hsource ▸ h.mayHoldClaim)
  exact ⟨row, hrow, (h.mayAct hwho).bind _⟩

lemma moveWithReason (target : TaskStatus) (reason : MoveReason) (runs : List Run)
    (changes : List Change) (tasks : List Task) :
    Refused (moveWithReason task target reason actor runs changes tasks now) :=
  (h.allowed target).bind _

lemma renew : Refused (renew task actor now) := (heldOrLapsedBy_refused h.claimed h.other).bind _

lemma heldFields (tasks : List Task) : Refused (heldFields task tasks actor now) := by
  have hmay := h.mayHoldClaim
  have hrenewed : task.fields.status ≠ .inProgress → Refused (do
        let source := task.fields.status.debug
        insist (lifecycleAction task.fields.status .inProgress == some .start)
          s!"a start makes {source} -> in_progress, as the lifecycle says"
        let renewed ← Board.renew task actor now
        pure renewed.fields) := by
    intro hstatus
    rw [lifecycleAction_start _ hmay hstatus]
    exact h.renew.bind _
  rw [Starts.heldFields]
  cases hstatus : task.fields.status with
  | inProgress => exact h.renew.bind _
  | claimed | review | blocked =>
    rw [hstatus] at hrenewed
    exact hrenewed nofun
  | _ =>
    rw [hstatus] at hmay
    cases hmay

lemma start (tasks : List Task) (runs : List Run) (plan : Option Plan) :
    Refused (start task tasks runs plan actor now) :=
  (h.heldFields tasks).bind _

lemma takeOver : Refused (takeOver task actor now) := by
  have htakeable : takeableClaim task = .ok claim := by
    rw [takeableClaim, h.claimed, h.mayHoldClaim]
  refine bind_of (.inr ⟨claim, htakeable, ?_⟩)
  refine bind_of (.inr ⟨(), by rw [h.other]; rfl, ?_⟩)
  refine bind_of ((require_refused _ _).imp id fun hclaimable => ⟨(), hclaimable, ?_⟩)
  exact bind (by rw [h.live]; exact ⟨_, rfl⟩) _

lemma doneWithoutRun (reason : Text) (work : DoneWork) :
    Refused (doneWithoutRun task reason actor work now) := by
  have hmay : Refused (mayFinishWithoutRun task actor now) := by
    unfold mayFinishWithoutRun
    split
    · rename_i hready
      have := hready ▸ h.mayHoldClaim
      cases this
    · exact h.heldLiveBy.bind _
    · exact .refuse _
  exact (hmay.bind _).bind _

lemma endHeld (run : Run) (plan : Plan) (held : HeldEnd) (reported : Reported) :
    Refused (endHeld task run plan held reported actor now) :=
  h.heldLiveBy.bind _

lemma endLost (run : Run) (plan : Plan) (reported : Reported) :
    Refused (endLost task run plan reported actor now) :=
  (heldLiveIfClaimed_refused h.claimed h.other).bind _

lemma addPr (pr : Nat) (board : Linked) : Refused (addPr task actor pr board now) :=
  h.heldLiveBy.bind _

lemma removePr (pr : Nat) : Refused (removePr task actor pr now) := h.heldLiveBy.bind _

lemma link (board : Linked) (head : Head) (host : HostPrs) (latest : Option Timestamp) :
    Refused (link task board head host actor { now := now, latest := latest }) :=
  h.heldLiveBy.bind _

lemma unlink (changes : List Change) (number : Nat) (host : HostPrs) (latest : Option Timestamp) :
    Refused (unlink task changes number host actor { now := now, latest := latest }) :=
  h.heldLiveBy.bind _

end

lemma completes_or_foldsBack {view : View} {rule : Rule} {writes : Writes}
    (hclaim : view.task.fields.claim = some claim) (hlive : isLive claim rule.now = true)
    (hother : ∀ actor, rule.actor? = some actor → claim.holder.is actor = false)
    (happly : rule.apply view = .ok writes) : rule.completes = true ∨ rule.foldsBack = true := by
  have held : ∀ actor, rule.actor? = some actor → HeldByAnother view.task claim actor rule.now :=
    fun actor hactor => ⟨hclaim, hlive, hother actor hactor⟩
  cases rule with
  | completeMerged merged now | complete host moment => exact .inl rfl
  | foldBack number plans outcome cost items stop now
  | undoStart number plans outcome cost items source now => exact .inr rfl
  | editDraft edit now =>
    obtain ⟨next, _, hnext⟩ := map_eq_ok.mp happly
    have hdraft := (Plans.editDraft_eq_ok hnext).1 ▸ Task.mayHoldClaim_of_claim hclaim
    cases hdraft
  | moveWithReason target reason actor now =>
    exact absurd happly ((((held actor rfl).moveWithReason target reason _ _ _).map _).not_ok _)
  | start plan actor now =>
    exact absurd happly ((((held actor rfl).start _ _ plan).map _).not_ok _)
  | endHeld number plans end_ reported stop actor now =>
    obtain ⟨⟨run, plan⟩, _, happly⟩ := bind_eq_ok.mp happly
    obtain ⟨ended, hended, _⟩ := bind_eq_ok.mp happly
    exact absurd hended (((held actor rfl).endHeld run plan end_ reported).not_ok ended)
  | endLost number plans reported stop actor now =>
    obtain ⟨⟨run, plan⟩, _, happly⟩ := bind_eq_ok.mp happly
    obtain ⟨ended, hended, _⟩ := bind_eq_ok.mp happly
    exact absurd hended (((held actor rfl).endLost run plan reported).not_ok ended)
  | renew holder now =>
    exact absurd happly (((held holder rfl).renew.map _).not_ok _)
  | takeOver taker now =>
    exact absurd happly (((held taker rfl).takeOver.map _).not_ok _)
  | accept versions version expected actor moment =>
    obtain ⟨accepted, _, haccepted⟩ := map_eq_ok.mp happly
    exact absurd (Plans.accept_eq_ok haccepted).1 ((held actor rfl).decides.not_ok ())
  | doneWithoutRun reason actor merged now =>
    exact absurd happly ((((held actor rfl).doneWithoutRun reason _).map _).not_ok _)
  | addPr holder pr now =>
    exact absurd happly ((((held holder rfl).addPr pr _).map _).not_ok _)
  | removePr holder pr now =>
    exact absurd happly ((((held holder rfl).removePr pr).map _).not_ok _)
  | link head host actor moment =>
    exact absurd happly ((((held actor rfl).link _ head host moment.latest).map _).not_ok _)
  | unlink number host actor moment =>
    exact absurd happly ((((held actor rfl).unlink _ number host moment.latest).map _).not_ok _)

end HeldByAnother

/-- While a claim on a task is live, every rule that asks for an actor is refused to
anyone but its holder, so a rule that still changes the task for someone else is a
merge completion or the fold-back of the task's own run. -/
theorem live_claim_excludes (task : Task) (claim : Claim) (now : Timestamp)
    (hclaim : task.fields.claim = some claim) (hlive : isLive claim now = true) :
    (∀ actor, claim.holder.is actor = false → (∀ target reason runs changes tasks,
        Refused (moveWithReason task target reason actor runs changes tasks now)) ∧
      (∀ tasks runs plan, Refused (start task tasks runs plan actor now)) ∧
      Refused (renew task actor now) ∧ Refused (takeOver task actor now) ∧
      (∀ reason work, Refused (doneWithoutRun task reason actor work now)) ∧
      (∀ run plan held reported, Refused (endHeld task run plan held reported actor now)) ∧
      (∀ run plan reported, Refused (endLost task run plan reported actor now)) ∧
      (∀ pr board, Refused (addPr task actor pr board now)) ∧
      (∀ pr, Refused (removePr task actor pr now)) ∧ (∀ board head host latest,
        Refused (link task board head host actor { now := now, latest := latest })) ∧
      ∀ changes number host latest,
        Refused (unlink task changes number host actor { now := now, latest := latest })) ∧
    ∀ (rule : Rule) (view : View) (writes : Writes), view.task = task → rule.now = now →
      (∀ actor, rule.actor? = some actor → claim.holder.is actor = false) →
      rule.apply view = .ok writes → rule.completes = true ∨ rule.foldsBack = true := by
  constructor
  · intro actor hother
    have h : HeldByAnother task claim actor now := ⟨hclaim, hlive, hother⟩
    exact ⟨h.moveWithReason, h.start, h.renew, h.takeOver, h.doneWithoutRun, h.endHeld, h.endLost,
      h.addPr, h.removePr, h.link, h.unlink⟩
  · rintro rule view writes rfl rfl hother happly
    exact HeldByAnother.completes_or_foldsBack hclaim hlive hother happly

end Holder

section

open scoped Ascii

def sampleClaim : Claim :=
  { holder := sampleIdentity, since := sampleTask.fields.created, expires := ⟨8200, by decide⟩ }

def sampleHeldTask : Task where
  fields := { sampleTask.fields with status := .claimed, claim := some sampleClaim }
  valid := by decide +kernel

theorem live_claim_excludes_sample : Refused (moveWithReason sampleHeldTask .ready .absent
      { name := "Bob".toList, email := "bob@example.org".toList } [] [] [] ⟨2000, by decide⟩) :=
  ((live_claim_excludes sampleHeldTask sampleClaim ⟨2000, by decide⟩ rfl (by decide)).1 _
    (by decide)).1 .ready .absent [] [] []

end

end Quecto.Board
