/-
  Board/Links.lean --- one task per pull request, and one open change per branch.
-/
import Quecto.Board.Lifecycle

namespace Quecto.Board

open Foundation List
open Runs
open RunOutcomes
open Transitions
open Changes

def closed (status : TaskStatus) : Prop := status = .done ∨ status = .archived

lemma transitions_closing : ∀ row ∈ transitions, (row.target = .done ∨ row.target = .archived) →
    row.source = .done ∨ heldByLinks row.source row.target = true := by
  decide

variable {status : TaskStatus}

lemma not_closed_of_mayHoldClaim (h : status.mayHoldClaim = true) : ¬closed status := by
  rintro (rfl | rfl)
  all_goals exact nomatch h

lemma not_closed_of_endsIn (h : endsIn status) : ¬closed status := by
  rintro (rfl | rfl)
  all_goals exact nomatch h

section Links

variable [Unicode] [Descriptions]

/-! ## What a rule does to the links -/

inductive Relinks (view : View) : Task → List Change → Prop
  | keeps {next} (id : next.fields.id = view.task.fields.id)
      (prs : next.fields.prs = view.task.fields.prs)
      (closing : closed next.fields.status → closed view.task.fields.status ∨
        ∀ change ∈ view.changes, change.isOpen = false) : Relinks view next []
  | adds {next pr} (added : PrAdded view.task view.board pr next) : Relinks view next []
  | removes {next index}
      (settled : SettledAs
        { view.task.fields with prs := view.task.fields.prs.eraseIdx index } next) :
      Relinks view next []
  | links {change} (linked : LinkedTo view.task view.board change) :
      Relinks view view.task [change]
  | unlinks {change} (unlinked : UnlinkedFrom view.changes change) : Relinks view view.task [change]
  | merges {done} (completed : CompletedBy view.task view.changes view.runs done) :
      Relinks view done.completed.task done.changes

variable {view : View} {next : Task}

lemma MovedTo.relinks {target : TaskStatus}
    (h : MovedTo view.task next target view.runs view.changes) : Relinks view next [] := by
  refine .keeps h.id h.prs fun hclosed => ?_
  obtain ⟨row, hrow, hsource, htarget⟩ := h.row
  have hrowclosed : row.target = .done ∨ row.target = .archived := htarget ▸ h.status ▸ hclosed
  rcases transitions_closing row hrow hrowclosed with hdone | hheld
  · exact .inl (.inl (hsource.symm.trans hdone))
  rw [hsource, htarget] at hheld
  refine .inr fun change hchange => ?_
  rw [Change.isOpen, h.unlinked hheld change hchange, Bool.false_and]

lemma LeftByEnd.relinks (h : LeftByEnd view.task next) : Relinks view next [] := by
  refine .keeps h.id h.prs fun hclosed => ?_
  rcases h.stayed with rfl | hends
  · exact .inl hclosed
  · exact absurd hclosed (not_closed_of_endsIn hends)

lemma Applied.relinks {writes : Writes} (h : Applied view writes) :
    Relinks view (writes.task.getD view.task) writes.changes := by
  cases h with
  | settled hsettled hid hstatus _ hprs =>
    exact .keeps (hsettled.id.trans hid) (hsettled.prs.trans hprs) fun hclosed =>
      .inl (hstatus ▸ hsettled.status ▸ hclosed)
  | moved hmoved => exact MovedTo.relinks hmoved
  | started hfrom =>
    refine .keeps hfrom.id hfrom.prs fun hclosed => ?_
    rcases hclosed with hclosed | hclosed
    all_goals exact nomatch hfrom.status.symm.trans hclosed
  | ended _ _ hleft => exact LeftByEnd.relinks hleft
  | done hdone => exact .keeps hdone.id hdone.prs fun _ => .inr hdone.merged
  | finished _ hfinished hmerged =>
    exact .keeps hfinished.id hfinished.prs fun _ => .inr hmerged
  | completed hby => exact .merges hby
  | added hadded => exact .adds hadded
  | removed hsettled => exact .removes hsettled
  | linked hlinked => exact .links hlinked
  | unlinked hunlinked => exact .unlinks hunlinked

/-! ## The board -/

structure BoardState where
  tasks : List Task
  changes : List Change
  ids : (tasks.map (·.fields.id)).Nodup

def linkedPr (change : Change) : Option Nat := if change.isLinked then change.fields.pr else none

def openHead (change : Change) : Option (Text × BranchName) :=
  if change.isOpen then some change.head else none

def writeTask (tasks : List Task) (next : Task) : List Task :=
  tasks.map fun task => if task.fields.id = next.fields.id then next else task

lemma writeTask_ids (tasks : List Task) (next : Task) :
    (writeTask tasks next).map (·.fields.id) = tasks.map (·.fields.id) := by
  rw [writeTask, map_map]
  refine map_congr_left fun task _ => ?_
  simp only [Function.comp_apply]
  split
  · rename_i hid
    exact hid.symm
  · rfl

namespace BoardState

variable (board : BoardState)

def linkedPrs : List Nat :=
  board.tasks.flatMap (·.fields.prs) ++ board.changes.filterMap linkedPr

def openHeads : List (Text × BranchName) := board.changes.filterMap openHead

def changesOf (id : Slug) : List Change :=
  board.changes.filter fun change => change.fields.task == id

def numbersOf (id : Slug) : List Nat :=
  (board.changesOf id).map (·.fields.number)

def Stranded (id : Slug) (number : Nat) : Prop :=
  (∃ task ∈ board.tasks, task.fields.id = id ∧ closed task.fields.status) ∧
    ∃ change ∈ board.changes, change.fields.task = id ∧ change.fields.number = number ∧
      change.isOpen = true

def viewOf (task : Task) (runs : List Run) : View where
  task := task
  runs := runs
  changes := board.changesOf task.fields.id
  board := { changes := board.changes, tasks := board.tasks }

def write (next : Task) (written : List Change) : BoardState where
  tasks := writeTask board.tasks next
  changes := writeChanges board.changes written
  ids := (writeTask_ids board.tasks next).symm ▸ board.ids

structure Act where
  id : Slug
  rule : Rule
  runs : List Run

def step (act : Act) : Option (Ruled Writes) × BoardState :=
  match board.tasks.find? fun task => task.fields.id == act.id with
  | none => (none, board)
  | some task =>
    let answer := act.rule.apply (board.viewOf task act.runs)
    match answer with
    | .ok writes => (some answer, board.write (writes.task.getD task) writes.changes)
    | .error _ => (some answer, board)

end BoardState

/-! ## Writing a task -/

section

variable {tasks : List Task} {task next : Task}

lemma writeTask_eq (hids : (tasks.map (·.fields.id)).Nodup) (hmem : task ∈ tasks)
    (hid : next.fields.id = task.fields.id) : ∃ before after, tasks = before ++ task :: after ∧
      writeTask tasks next = before ++ next :: after := by
  obtain ⟨before, after, rfl⟩ := append_of_mem hmem
  rw [map_append, map_cons, nodup_append] at hids
  obtain ⟨_, hcons, hdisjoint⟩ := hids
  have hafter := (nodup_cons.mp hcons).1
  refine ⟨before, after, rfl, ?_⟩
  have hkeep : ∀ others : List Task, (∀ other ∈ others, other.fields.id ≠ next.fields.id) →
      writeTask others next = others := by
    intro others hothers
    exact (map_congr_left fun other hother => if_neg (hothers other hother)).trans
      (map_id others)
  have hbefore : writeTask before next = before := by
    refine hkeep before fun other hother => ?_
    rw [hid]
    exact hdisjoint _ (mem_map_of_mem hother) _ mem_cons_self
  have hrest : writeTask after next = after := by
    refine hkeep after fun other hother hsame => hafter ?_
    exact (hsame.trans hid) ▸ mem_map_of_mem hother
  calc writeTask (before ++ task :: after) next
      = writeTask before next ++ next :: writeTask after next := by
        rw [writeTask, map_append, map_cons, if_pos hid.symm]
        rfl
    _ = before ++ next :: after := by rw [hbefore, hrest]

lemma mem_writeTask {other : Task} (h : other ∈ writeTask tasks next) :
    other = next ∨ other ∈ tasks ∧ other.fields.id ≠ next.fields.id := by
  obtain ⟨old, hold, hother⟩ := mem_map.mp h
  split at hother
  · exact .inl hother.symm
  · rename_i hid
    exact .inr (hother ▸ ⟨hold, hid⟩)

variable (hids : (tasks.map (·.fields.id)).Nodup) (hmem : task ∈ tasks)
  (hid : next.fields.id = task.fields.id)
include hids hmem hid

lemma writeTask_prs_sublist (hprs : next.fields.prs.Sublist task.fields.prs) :
    ((writeTask tasks next).flatMap (·.fields.prs)).Sublist (tasks.flatMap (·.fields.prs)) := by
  obtain ⟨before, after, htasks, hwritten⟩ := writeTask_eq hids hmem hid
  rw [hwritten, htasks, flatMap_append, flatMap_append]
  exact (Sublist.refl _).append (hprs.append (Sublist.refl _))

lemma writeTask_prs_perm {pr : Nat} (hprs : next.fields.prs = task.fields.prs ++ [pr]) :
    ((writeTask tasks next).flatMap (·.fields.prs)).Perm (pr :: tasks.flatMap (·.fields.prs)) := by
  obtain ⟨before, after, htasks, hwritten⟩ := writeTask_eq hids hmem hid
  rw [hwritten, htasks, flatMap_append, flatMap_append, flatMap_cons,
    flatMap_cons, hprs, append_assoc, singleton_append, ← append_assoc,
    ← append_assoc]
  exact perm_middle

end

/-! ## Writing changes -/

section

variable {changes written : List Change}

omit [Descriptions] in
lemma sameChange_iff {a b : Change} :
    sameChange a b = true ↔ a.fields.task = b.fields.task ∧ a.fields.number = b.fields.number := by
  rw [sameChange, Bool.and_eq_true, beq_iff_eq, beq_iff_eq]

omit [Descriptions] in
lemma rewritten_cases (written : List Change) (change : Change) :
    (rewritten written change = change ∧ ∀ next ∈ written, sameChange change next = false) ∨
      rewritten written change ∈ written ∧ sameChange change (rewritten written change) = true := by
  rw [rewritten]
  cases hfind : written.find? (sameChange change) with
  | none =>
    refine .inl ⟨rfl, fun next hnext => ?_⟩
    exact Bool.eq_false_iff.mpr (List.find?_eq_none.mp hfind next hnext)
  | some found => exact .inr ⟨mem_of_find?_eq_some hfind, List.find?_some hfind⟩

omit [Descriptions] in
lemma rewritten_key (written : List Change) (change : Change) :
    (rewritten written change).fields.task = change.fields.task ∧
      (rewritten written change).fields.number = change.fields.number := by
  rcases rewritten_cases written change with ⟨hsame, _⟩ | ⟨_, hsame⟩
  · rw [hsame]
    exact ⟨rfl, rfl⟩
  · obtain ⟨htask, hnumber⟩ := sameChange_iff.mp hsame
    exact ⟨htask.symm, hnumber.symm⟩

omit [Descriptions] in
lemma writeChanges_nil (changes : List Change) : writeChanges changes [] = changes := by
  rw [writeChanges, filter_nil, append_nil]
  exact map_id changes

omit [Descriptions] in
lemma writeChanges_of_found
    (h : ∀ change ∈ written, ∃ found ∈ changes, sameChange found change = true) :
    writeChanges changes written = changes.map (rewritten written) := by
  have hnone : (written.filter fun change => !changes.any fun other => sameChange other change)
      = [] := by
    rw [filter_eq_nil_iff]
    intro change hchange
    rw [any_eq_true.mpr (h change hchange)]
    exact Bool.false_ne_true
  rw [writeChanges, hnone, append_nil]

omit [Descriptions] in
lemma writeChanges_of_new {change : Change}
    (h : ∀ other ∈ changes, sameChange other change = false) :
    writeChanges changes [change] = changes ++ [change] := by
  have hkeep : changes.map (rewritten [change]) = changes := by
    refine (map_congr_left fun other hother => ?_).trans (map_id changes)
    rw [rewritten, List.find?_singleton, h other hother]
    rfl
  have hany : (changes.any fun other => sameChange other change) = false := by
    rw [any_eq_false]
    intro other hother
    rw [h other hother]
    exact Bool.false_ne_true
  rw [writeChanges, hkeep, filter_singleton, hany]
  rfl

omit [Unicode] [Descriptions] in
lemma filterMap_map_sublist {α β : Type} {holds : α → Option β} {f : α → α} {xs : List α}
    (h : ∀ x ∈ xs, holds (f x) = none ∨ holds (f x) = holds x) :
    ((xs.map f).filterMap holds).Sublist (xs.filterMap holds) := by
  induction xs with
  | nil => exact Sublist.refl _
  | cons x xs ih =>
    obtain ⟨hx, hxs⟩ := forall_mem_cons.mp h
    rw [map_cons, ← singleton_append, ← singleton_append (l := xs),
      filterMap_append, filterMap_append]
    refine Sublist.append ?_ (ih hxs)
    rcases hx with hnone | hsame
    · rw [filterMap_cons_none hnone]
      exact nil_sublist _
    · rw [filterMap_cons, hsame, filterMap_cons]

omit [Descriptions] in
lemma rewritten_sublist {β : Type} {holds : Change → Option β}
    (h : ∀ change ∈ changes, ∀ next ∈ written, sameChange change next = true →
      holds next = none ∨ holds next = holds change) :
    ((changes.map (rewritten written)).filterMap holds).Sublist (changes.filterMap holds) := by
  refine filterMap_map_sublist fun change hchange => ?_
  rcases rewritten_cases written change with ⟨hsame, _⟩ | ⟨hmem, hsame⟩
  · exact .inr (congrArg holds hsame)
  · exact h change hchange _ hmem hsame

end

/-! ## What a rule keeps -/

structure Kept (board next : BoardState) : Prop where
  prs : board.linkedPrs.Nodup → next.linkedPrs.Nodup
  heads : board.openHeads.Nodup → next.openHeads.Nodup
  numbers : ∀ id, (board.numbersOf id).Nodup → (next.numbersOf id).Nodup
  stranded : ∀ id number, next.Stranded id number → board.Stranded id number

lemma Kept.refl (board : BoardState) : Kept board board :=
  ⟨fun h => h, fun h => h, fun _ h => h, fun _ _ h => h⟩

lemma Kept.trans {a b c : BoardState} (h : Kept a b) (h' : Kept b c) : Kept a c where
  prs hprs := h'.prs (h.prs hprs)
  heads hheads := h'.heads (h.heads hheads)
  numbers id hnumbers := h'.numbers id (h.numbers id hnumbers)
  stranded id number hstranded := h.stranded id number (h'.stranded id number hstranded)

namespace BoardState

variable {board : BoardState} {task next : Task}
  {change : Change} {written : List Change} {pr : Nat} {runs : List Run}

lemma mem_changesOf {id : Slug} :
    change ∈ board.changesOf id ↔ change ∈ board.changes ∧ change.fields.task = id := by
  rw [changesOf, mem_filter, beq_iff_eq]

lemma eq_of_id {other : Task} (hmem : task ∈ board.tasks) (hother : other ∈ board.tasks)
    (hid : other.fields.id = task.fields.id) : other = task :=
  inj_on_of_nodup_map board.ids hother hmem hid

lemma write_self (hmem : task ∈ board.tasks) : writeTask board.tasks task = board.tasks := by
  obtain ⟨before, after, htasks, hwritten⟩ := writeTask_eq board.ids hmem rfl
  rw [hwritten, htasks]

lemma numbersOf_rewritten {after : BoardState}
    (h : after.changes = board.changes.map (rewritten written)) (id : Slug) :
    after.numbersOf id = board.numbersOf id := by
  have htask : ((fun change : Change => change.fields.task == id) ∘ rewritten written) =
      fun change => change.fields.task == id := by
    funext change
    rw [Function.comp_apply, (rewritten_key written change).1]
  have hnumber : ((fun change : Change => change.fields.number) ∘ rewritten written) =
      fun change => change.fields.number := by
    funext change
    exact (rewritten_key written change).2
  rw [numbersOf, changesOf, h, filter_map, map_map, htask, hnumber]
  rfl

section

variable (hmem : task ∈ board.tasks) (hid : next.fields.id = task.fields.id)
include hmem hid

lemma kept_of_rewritten
    (hfound : ∀ change ∈ written, ∃ found ∈ board.changes, sameChange found change = true)
    (hshut : ∀ change ∈ written, change.isOpen = false)
    (hprs : board.linkedPrs.Nodup → (board.write next written).linkedPrs.Nodup)
    (hclosing : closed next.fields.status → closed task.fields.status ∨
      ∀ change ∈ board.changesOf task.fields.id, (rewritten written change).isOpen = false) :
    Kept board (board.write next written) := by
  have hchanges : (board.write next written).changes = board.changes.map (rewritten written) :=
    writeChanges_of_found hfound
  refine ⟨hprs, fun hheads => ?_, fun id => ?_, ?_⟩
  · rw [openHeads, hchanges]
    refine hheads.sublist (rewritten_sublist fun _ _ change hchange _ => .inl ?_)
    rw [openHead, hshut change hchange]
    rfl
  · rw [numbersOf_rewritten hchanges]
    exact fun h => h
  rintro id number ⟨⟨other, hother, hother_id, hclosed⟩, after, hafter, htask, hnumber, hopen⟩
  obtain ⟨change, hchange, rfl⟩ := mem_map.mp (hchanges ▸ hafter)
  -- Only a change that was not written is open.
  have hsame : rewritten written change = change := by
    rcases rewritten_cases written change with ⟨hsame, _⟩ | ⟨hwritten, _⟩
    · exact hsame
    · exact absurd hopen (Bool.eq_false_iff.mp (hshut _ hwritten))
  rw [hsame] at htask hnumber
  refine ⟨?_, change, hchange, htask, hnumber, hsame ▸ hopen⟩
  rcases mem_writeTask hother with rfl | ⟨hold, _⟩
  · rcases hclosing hclosed with hwas | hnone
    · exact ⟨task, hmem, hid.symm.trans hother_id, hwas⟩
    · have hown := mem_changesOf.mpr ⟨hchange, htask.trans (hother_id.symm.trans hid)⟩
      exact absurd hopen (Bool.eq_false_iff.mp (hnone change hown))
  · exact ⟨other, hold, hother_id, hclosed⟩

lemma linkedPrs_sublist (hprs : next.fields.prs.Sublist task.fields.prs)
    (hfound : ∀ change ∈ written, ∃ found ∈ board.changes, sameChange found change = true)
    (hlinked : ∀ change ∈ board.changes, ∀ after ∈ written, sameChange change after = true →
      linkedPr after = none ∨ linkedPr after = linkedPr change) :
    (board.write next written).linkedPrs.Sublist board.linkedPrs := by
  have hchanges : (board.write next written).changes = board.changes.map (rewritten written) :=
    writeChanges_of_found hfound
  rw [linkedPrs, hchanges]
  exact (writeTask_prs_sublist board.ids hmem hid hprs).append (rewritten_sublist hlinked)

lemma kept_of_task (hprs : next.fields.prs.Sublist task.fields.prs)
    (hclosing : closed next.fields.status → closed task.fields.status ∨
      ∀ change ∈ board.changesOf task.fields.id, change.isOpen = false) :
    Kept board (board.write next []) := by
  refine kept_of_rewritten hmem hid nofun nofun ?_ hclosing
  exact fun h => h.sublist
    (linkedPrs_sublist hmem hid hprs nofun nofun)

end

omit [Descriptions] in
lemma linkedPr_eq_some :
    linkedPr change = some pr ↔ change.isLinked = true ∧ change.fields.pr = some pr := by
  rw [linkedPr]
  cases change.isLinked <;> simp

lemma not_mem_linkedPrs (htasks : ∀ other ∈ board.tasks, pr ∉ other.fields.prs)
    (hchanges : Unlinked pr board.changes) : pr ∉ board.linkedPrs := by
  rw [linkedPrs, mem_append, mem_flatMap, mem_filterMap]
  rintro (⟨other, hother, hpr⟩ | ⟨change, hchange, hpr⟩)
  · exact htasks other hother hpr
  · obtain ⟨hlinked, hsome⟩ := linkedPr_eq_some.mp hpr
    exact hchanges change hchange hlinked hsome

section

variable (hmem : task ∈ board.tasks)
include hmem

lemma kept_of_add (h : PrAdded task ⟨board.changes, board.tasks⟩ pr next) :
    Kept board (board.write next []) := by
  refine kept_of_rewritten hmem h.settled.id nofun nofun ?_
    fun hclosed => .inl (h.settled.status ▸ hclosed)
  intro hnodup
  have hfresh : pr ∉ board.linkedPrs := by
    refine not_mem_linkedPrs (fun other hother hpr => ?_) h.changes
    refine h.tasks other hother (fun hid => h.own ?_) hpr
    exact eq_of_id hmem hother hid ▸ hpr
  have hperm : (board.write next []).linkedPrs.Perm (pr :: board.linkedPrs) := by
    refine (writeTask_prs_perm board.ids hmem h.settled.id h.settled.prs).append ?_
    exact (writeChanges_nil board.changes).symm ▸ .refl _
  exact hperm.nodup_iff.mpr (nodup_cons.mpr ⟨hfresh, hnodup⟩)

lemma kept_of_link (h : LinkedTo task ⟨board.changes, board.tasks⟩ change) :
    Kept board (board.write task [change]) := by
  have htasks : (board.write task [change]).tasks = board.tasks := write_self hmem
  have hchanges : (board.write task [change]).changes = board.changes ++ [change] := by
    refine writeChanges_of_new fun other hother => Bool.eq_false_iff.mpr fun hsame => ?_
    obtain ⟨htask, hnumber⟩ := sameChange_iff.mp hsame
    exact Nat.ne_of_lt (h.number other hother (htask.trans h.ofTask)) hnumber
  constructor
  · intro hnodup
    rw [linkedPrs, htasks, hchanges, filterMap_append, ← append_assoc]
    refine nodup_append.mpr ⟨hnodup, ?_, fun pr hpr other hother => ?_⟩
    · cases hlinked : linkedPr change with
      | none => rw [filterMap_cons_none hlinked]; exact nodup_nil
      | some pr => rw [filterMap_cons_some hlinked]; exact nodup_singleton pr
    obtain ⟨_, hlinked⟩ := mem_filterMap.mp hother
    rw [mem_singleton] at hlinked
    obtain ⟨hfree, hunlinked⟩ := h.pr other (linkedPr_eq_some.mp (hlinked.1 ▸ hlinked.2)).2
    exact fun hsame => not_mem_linkedPrs hfree hunlinked (hsame ▸ hpr)
  · intro hnodup
    rw [openHeads, hchanges, filterMap_append]
    have hsome : openHead change = some change.head := by
      rw [openHead, h.opened]
      rfl
    rw [filterMap_cons_some hsome]
    refine nodup_append.mpr ⟨hnodup, nodup_singleton _, fun head hhead other hother => ?_⟩
    obtain ⟨holder, hholder, hopen⟩ := mem_filterMap.mp hhead
    rw [openHead] at hopen
    split at hopen
    · rename_i hisOpen
      rw [mem_singleton.mp hother, ← Option.some.inj hopen]
      exact h.head holder hholder hisOpen
    · cases hopen
  · intro id hnodup
    rw [numbersOf, changesOf, hchanges, filter_append, map_append]
    refine nodup_append.mpr ⟨hnodup, ?_, fun number hnumber other hother => ?_⟩
    · exact (nodup_singleton _).sublist ((filter_sublist).map _)
    obtain ⟨own, hown, rfl⟩ := mem_map.mp hnumber
    obtain ⟨added, hadded, rfl⟩ := mem_map.mp hother
    obtain ⟨hsame, hid⟩ := mem_filter.mp hadded
    obtain ⟨hchange, htask⟩ := mem_changesOf.mp hown
    rw [mem_singleton.mp hsame] at hid ⊢
    refine Nat.ne_of_lt (h.number own hchange ?_)
    exact htask.trans ((beq_iff_eq.mp hid).symm.trans h.ofTask)
  · rintro id number ⟨⟨other, hother, hother_id, hclosed⟩, after, hafter, htask, hnumber, hopen⟩
    rw [htasks] at hother
    rw [hchanges, mem_append] at hafter
    rcases hafter with hold | hnew
    · exact ⟨⟨other, hother, hother_id, hclosed⟩, after, hold, htask, hnumber, hopen⟩
    -- The task is held, so it is neither done nor archived.
    rw [mem_singleton.mp hnew, h.ofTask] at htask
    rw [eq_of_id hmem hother (hother_id.trans htask.symm)] at hclosed
    obtain ⟨claim, hclaim⟩ := h.held
    exact absurd hclosed (not_closed_of_mayHoldClaim (Task.mayHoldClaim_of_claim hclaim))

lemma kept_of_unlink (h : UnlinkedFrom (board.changesOf task.fields.id) change) :
    Kept board (board.write task [change]) := by
  have hfound : ∀ after ∈ [change], ∃ found ∈ board.changes, sameChange found after = true := by
    intro after hafter
    obtain ⟨found, hmem, hkey⟩ := h.found
    rw [mem_singleton.mp hafter]
    exact ⟨found, (mem_changesOf.mp hmem).1, sameChange_iff.mpr hkey⟩
  have hprs : (board.write task [change]).linkedPrs.Sublist board.linkedPrs := by
    refine linkedPrs_sublist hmem rfl (Sublist.refl _) hfound fun _ _ after hafter _ => .inl ?_
    rw [mem_singleton.mp hafter, linkedPr, h.unlinked]
    rfl
  refine kept_of_rewritten hmem rfl hfound ?_ (fun hnodup => hnodup.sublist hprs) .inl
  intro after hafter
  rw [mem_singleton.mp hafter, Change.isOpen, h.unlinked, Bool.false_and]

lemma kept_of_merge {done : ChangesMerged}
    (h : CompletedBy task (board.changesOf task.fields.id) runs done) :
    Kept board (board.write done.completed.task done.changes) := by
  have hfound : ∀ after ∈ done.changes, ∃ found ∈ board.changes, sameChange found after = true := by
    intro after hafter
    obtain ⟨found, hfound, _, hmerged⟩ := h.written after hafter
    exact ⟨found, (mem_changesOf.mp hfound).1,
      sameChange_iff.mpr ⟨hmerged.task.symm, hmerged.number.symm⟩⟩
  -- Numbers are distinct, so the change a written one replaces is the one it records.
  have hmerges : ∀ change ∈ board.changes, ∀ after ∈ done.changes,
      sameChange change after = true → MergedAs change after := by
    intro change hchange after hafter hsame
    obtain ⟨htask, hnumber⟩ := sameChange_iff.mp hsame
    obtain ⟨found, hfound, _, hmerged⟩ := h.written after hafter
    have hown : change ∈ board.changesOf task.fields.id :=
      mem_changesOf.mpr ⟨hchange, htask.trans (hmerged.task.trans (mem_changesOf.mp hfound).2)⟩
    exact inj_on_of_nodup_map h.numbers hfound hown
      (hmerged.number.symm.trans hnumber.symm) ▸ hmerged
  have hprs : (board.write done.completed.task done.changes).linkedPrs.Sublist board.linkedPrs := by
    refine linkedPrs_sublist hmem h.finished.id (h.finished.prs ▸ Sublist.refl _) hfound ?_
    intro change hchange after hafter hsame
    have hmerged := hmerges change hchange after hafter hsame
    rw [linkedPr, hmerged.linked, hmerged.pr]
    exact .inr rfl
  refine kept_of_rewritten hmem h.finished.id hfound ?_ (fun hnodup => hnodup.sublist hprs)
    fun _ => .inr ?_
  · intro after hafter
    obtain ⟨_, _, _, hmerged⟩ := h.written after hafter
    exact hmerged.merged
  intro change hown
  have hchange := (mem_changesOf.mp hown).1
  rcases rewritten_cases done.changes change with ⟨hsame, hnone⟩ | ⟨hafter, hsame⟩
  · -- A linked change is written, so one that is not written is not open.
    rw [hsame]
    refine Bool.eq_false_iff.mpr fun hopen => ?_
    have hlinked : change.isLinked = true := (Bool.and_eq_true_iff.mp hopen).1
    obtain ⟨after, hafter, hmerged⟩ := h.recorded change hown hlinked
    have hkey : sameChange change after = true :=
      sameChange_iff.mpr ⟨hmerged.task.symm, hmerged.number.symm⟩
    exact Bool.false_ne_true ((hnone after hafter).symm.trans hkey)
  · exact (hmerges change hchange _ hafter hsame).merged

lemma kept_of_relinks (h : Relinks (board.viewOf task runs) next written) :
    Kept board (board.write next written) := by
  cases h with
  | keeps id prs closing => exact kept_of_task hmem id (prs ▸ Sublist.refl _) closing
  | adds added => exact kept_of_add hmem added
  | removes settled =>
    refine kept_of_task hmem settled.id ?_ fun hclosed => .inl (settled.status ▸ hclosed)
    exact settled.prs ▸ eraseIdx_sublist _ _
  | links linked => exact kept_of_link hmem linked
  | unlinks unlinked => exact kept_of_unlink hmem unlinked
  | merges completed => exact kept_of_merge hmem completed

end

lemma kept_step (board : BoardState) (act : Act) : Kept board (board.step act).2 := by
  cases hfind : board.tasks.find? fun task => task.fields.id == act.id with
  | none =>
    simp only [step, hfind]
    exact Kept.refl board
  | some task =>
    cases hanswer : act.rule.apply (board.viewOf task act.runs) with
    | error stop =>
      simp only [step, hfind, hanswer]
      exact Kept.refl board
    | ok writes =>
      simp only [step, hfind, hanswer]
      exact kept_of_relinks (mem_of_find?_eq_some hfind) (Rule.applied hanswer).relinks

/-- On a board on which every pull request is linked at most once and every head is
open at most once, both stay so through any rules on any of its tasks, each given the
whole board.  The change numbers of each task stay distinct, and no change is open on
a done or archived task that was not so at the start. -/
theorem links_stay_unique (board : BoardState) (acts : List Act) (hprs : board.linkedPrs.Nodup)
    (hheads : board.openHeads.Nodup) :
    let last := exec step board acts
    last.linkedPrs.Nodup ∧ last.openHeads.Nodup ∧
      (∀ id, (board.numbersOf id).Nodup → (last.numbersOf id).Nodup) ∧
      ∀ id number, last.Stranded id number → board.Stranded id number := by
  intro last
  have hkept : Kept board last :=
    exec_invariant (I := Kept board) (fun now act h => h.trans (kept_step now act))
      (Kept.refl board) acts
  exact ⟨hkept.prs hprs, hkept.heads hheads, hkept.numbers, hkept.stranded⟩

end BoardState

end Links

section

open scoped Ascii

def sampleBoard : BoardState where
  tasks :=
    [{ fields := { sampleHeldTask.fields with prs := [6] }, valid := by decide +kernel }]
  changes := []
  ids := by decide

def sampleHost : HostPrs := fun pr =>
  if pr = 9 then
    some { headRepo := some ⟨"acme/board".toList, by decide⟩,
           headRef := ⟨"tidy".toList, by decide⟩, state := .opened }
  else none

def sampleLinks : List BoardState.Act :=
  [{ id := sampleTask.fields.id,
     rule := .link { repo := ⟨"acme/board".toList, by decide⟩,
                     branch := ⟨"tidy".toList, by decide⟩, pr := some 9 }
       sampleHost sampleIdentity { now := ⟨2000, by decide⟩, latest := none },
     runs := [] },
   { id := sampleTask.fields.id, rule := .addPr sampleIdentity 9 ⟨2001, by decide⟩, runs := [] }]

theorem links_stay_unique_sample : (exec BoardState.step sampleBoard sampleLinks).linkedPrs.Nodup :=
  (BoardState.links_stay_unique sampleBoard sampleLinks (by decide) (by decide)).1

example : (exec BoardState.step sampleBoard sampleLinks).linkedPrs = [6, 9] := by decide +kernel

end

end Quecto.Board
