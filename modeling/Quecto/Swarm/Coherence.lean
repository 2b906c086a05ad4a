/-
  Swarm/Coherence.lean --- what holds of a swarm's board throughout a run, and that a token
  whose claim has ended has no power.
-/
import Quecto.Swarm.Effects

namespace Quecto.Swarm

open Foundation List

namespace Board

variable [Affinity] {board after : Board} {drawn : String}

/-! ## Steps of a task -/

section

variable {task next : Task} (h : board.TaskStep drawn task next)
include h

lemma TaskStep.id_eq : next.id = task.id := by
  cases h <;> rfl

lemma TaskStep.completed_stays (hcompleted : task.status = .completed) :
    next.status = .completed := by
  cases h with
  | same => exact hcompleted
  | rewired dependencies hready
  | claimed actor hready hmet => rw [hcompleted] at hready; cases hready
  | worked status evidence blocker hheld hstill
  | reopened evidence hheld => rw [hcompleted] at hheld; cases hheld
  | completed evidence hheld => rfl
  | revalidated evidence hcompleted => exact hcompleted

lemma TaskStep.marked (hmarked : task.Marked) : next.Marked := by
  have hset : ∀ status : TaskState, status ≠ .ready → task.status ≠ .ready →
      ((task.owner.isSome = true ↔ status ≠ .ready) ∧
        (task.token.isSome = true ↔ status ≠ .ready)) := by
    intro status hstatus htask
    exact ⟨⟨fun _ => hstatus, fun _ => hmarked.1.mpr htask⟩,
      ⟨fun _ => hstatus, fun _ => hmarked.2.mpr htask⟩⟩
  have hnot : ∀ status : TaskState, status.held = true → status ≠ .ready := by
    rintro status hheld rfl
    cases hheld
  cases h with
  | same | rewired dependencies hready => exact hmarked
  | claimed actor hready hmet => simp [Task.Marked]
  | worked status evidence blocker hheld hstill =>
    exact hset status (hnot status hstill) (hnot _ hheld)
  | reopened evidence hheld => simp [Task.Marked]
  | completed evidence hheld => exact hset .completed (by simp) (hnot _ hheld)
  | revalidated evidence hcompleted => exact hmarked

lemma TaskStep.same_claim (hheld : task.status.held = true) (hstill : next.status.held = true) :
    next.owner = task.owner ∧ next.token = task.token := by
  cases h with
  | same | rewired dependencies hready => exact ⟨rfl, rfl⟩
  | claimed actor hready hmet => rw [hready] at hheld; cases hheld
  | worked status evidence blocker hheld' hstill' => exact ⟨rfl, rfl⟩
  | reopened evidence hheld' => cases hstill
  | completed evidence hheld' | revalidated evidence hcompleted => exact ⟨rfl, rfl⟩

lemma TaskStep.met (hmet : task.status ≠ .ready → ∀ dependency ∈ task.dependencies,
      board.isCompleted dependency = true) (hnext : next.status ≠ .ready) :
    ∀ dependency ∈ next.dependencies, board.isCompleted dependency = true := by
  have hnot : task.status.held = true → task.status ≠ .ready := by
    intro hheld hready
    rw [hready] at hheld
    cases hheld
  cases h with
  | same => exact hmet hnext
  | rewired dependencies hready => exact absurd hready hnext
  | claimed actor hready hmet' => exact hmet'
  | worked status evidence blocker hheld hstill => exact hmet (hnot hheld)
  | reopened evidence hheld => exact absurd rfl hnext
  | completed evidence hheld => exact hmet (hnot hheld)
  | revalidated evidence hcompleted => exact hmet hnext

end

/-! ## Effects -/

lemma isCompleted_iff (hids : (board.tasks.map (·.id)).Nodup) {id : Value} :
    board.isCompleted id = true ↔
      ∃ task ∈ board.tasks, id.row? = some task.id ∧ task.status = .completed := by
  unfold isCompleted task?
  rw [Option.any_eq_true]
  constructor
  · rintro ⟨task, hfind, hstatus⟩
    have hrow := List.find?_some hfind
    rw [beq_iff_eq] at hrow hstatus
    exact ⟨task, mem_of_find?_eq_some hfind, hrow, hstatus⟩
  rintro ⟨task, hmem, hrow, hstatus⟩
  cases hfind : board.tasks.find? fun other => id.row? == some other.id with
  | none => exact absurd (beq_iff_eq.mpr hrow) (List.find?_eq_none.mp hfind task hmem)
  | some other =>
    have hother := List.find?_some hfind
    rw [beq_iff_eq, hrow, Option.some.injEq] at hother
    have hsame : task = other :=
      inj_on_of_nodup_map hids hmem (mem_of_find?_eq_some hfind) hother
    exact ⟨other, rfl, beq_iff_eq.mpr (hsame ▸ hstatus)⟩

/-- Completed work of `board` is completed in `after`. -/
def Keeps (board after : Board) : Prop :=
  ∀ task ∈ board.tasks, task.status = .completed →
    ∃ same ∈ after.tasks, same.id = task.id ∧ same.status = .completed

namespace Effect

variable {tasks : List Task} {files : List FileRow} (h : board.Effect drawn tasks files)
include h

lemma keeps : ∀ task ∈ board.tasks, task.status = .completed →
    ∃ same ∈ tasks, same.id = task.id ∧ same.status = .completed := by
  intro task hmem hcompleted
  cases h with
  | created new hfresh hready howner htoken =>
    exact ⟨task, mem_append_left [new] hmem, rfl, hcompleted⟩
  | stepped f keeps hstep hdrops =>
    have hstep := hstep task hmem
    exact ⟨f task, mem_map_of_mem hmem, hstep.id_eq, hstep.completed_stays hcompleted⟩
  | reserved _ _ _ _ _ _ => exact ⟨task, hmem, rfl, hcompleted⟩

variable (hcoherent : board.Coherent)
include hcoherent

lemma ids : (tasks.map (·.id)).Nodup := by
  cases h with
  | created new hfresh hready howner htoken =>
    rw [map_append, nodup_append]
    refine ⟨hcoherent.ids, pairwise_singleton _ _, ?_⟩
    intro id hid other hother
    obtain ⟨task, hmem, rfl⟩ := mem_map.mp hid
    rw [mem_singleton.mp hother]
    exact hfresh task hmem
  | stepped f keeps hstep hdrops =>
    have hsame : (board.tasks.map f).map (·.id) = board.tasks.map (·.id) := by
      rw [map_map]
      exact map_congr_left fun task hmem => (hstep task hmem).id_eq
    rw [hsame]
    exact hcoherent.ids
  | reserved _ _ _ _ _ _ => exact hcoherent.ids

lemma marked : ∀ task ∈ tasks, task.Marked := by
  cases h with
  | created new hfresh hready howner htoken =>
    intro task hmem
    obtain hheld | hnew := mem_append.mp hmem
    · exact hcoherent.marked task hheld
    · rw [mem_singleton.mp hnew]
      simp [Task.Marked, hready, howner, htoken]
  | stepped f keeps hstep hdrops =>
    intro task hmem
    obtain ⟨stored, hstored, rfl⟩ := mem_map.mp hmem
    exact (hstep stored hstored).marked (hcoherent.marked stored hstored)
  | reserved _ _ _ _ _ _ => exact hcoherent.marked

lemma paths : (files.map (·.path)).Nodup := by
  cases h with
  | created new hfresh hready howner htoken => exact hcoherent.paths
  | stepped f keeps hstep hdrops =>
    exact hcoherent.paths.sublist (filter_sublist.map _)
  | reserved hmem hheld rows hrows hpaths hfree =>
    rw [map_append, nodup_append]
    refine ⟨hcoherent.paths, hpaths, ?_⟩
    intro path hpath other hother
    obtain ⟨file, hfile, rfl⟩ := mem_map.mp hpath
    obtain ⟨row, hrow, rfl⟩ := mem_map.mp hother
    exact hfree row hrow file hfile

lemma reserved_held : ∀ file ∈ files, ∃ task ∈ tasks, task.id = file.task ∧
      task.status.held = true ∧ task.owner = some file.owner ∧ task.token = some file.claim := by
  cases h with
  | created new hfresh hready howner htoken =>
    intro file hfile
    obtain ⟨task, hmem, hheld⟩ := hcoherent.reserved file hfile
    exact ⟨task, mem_append_left _ hmem, hheld⟩
  | stepped f keeps hstep hdrops =>
    intro file hfile
    obtain ⟨hheld, hkept⟩ := mem_filter.mp hfile
    obtain ⟨task, hmem, hid, hstatus, howner, htoken⟩ := hcoherent.reserved file hheld
    refine ⟨f task, mem_map_of_mem hmem, ?_⟩
    have hstep := hstep task hmem
    cases hstill : (f task).status.held with
    | true =>
      obtain ⟨howner', htoken'⟩ := hstep.same_claim hstatus hstill
      exact ⟨hstep.id_eq.trans hid, rfl, howner'.trans howner, htoken'.trans htoken⟩
    | false =>
      rw [hdrops task hmem hstatus hstill file hid.symm htoken] at hkept
      cases hkept
  | reserved hmem hheld rows hrows hpaths hfree =>
    intro file hfile
    obtain hold | hnew := mem_append.mp hfile
    · exact hcoherent.reserved file hold
    · obtain ⟨htask, howner, hclaim, -⟩ := hrows file hnew
      exact ⟨_, hmem, htask.symm, hheld, howner, hclaim⟩

lemma met : ∀ task ∈ tasks, task.status ≠ .ready → ∀ dependency ∈ task.dependencies,
      board.isCompleted dependency = true := by
  intro task hmem hstatus dependency hdependency
  cases h with
  | created new hfresh hready howner htoken =>
    obtain hheld | hnew := mem_append.mp hmem
    · exact hcoherent.met task hheld hstatus dependency hdependency
    · rw [mem_singleton.mp hnew] at hstatus
      exact absurd hready hstatus
  | stepped f keeps hstep hdrops =>
    obtain ⟨stored, hstored, rfl⟩ := mem_map.mp hmem
    exact (hstep stored hstored).met (hcoherent.met stored hstored) hstatus dependency hdependency
  | reserved _ _ _ _ _ _ => exact hcoherent.met task hmem hstatus dependency hdependency

end Effect

lemma Becomes.coherent (h : board.Becomes drawn after) (hcoherent : board.Coherent) :
    after.Coherent where
  ids := h.ids hcoherent
  marked := h.marked hcoherent
  paths := h.paths hcoherent
  reserved := h.reserved_held hcoherent
  met task hmem hstatus dependency hdependency := by
    have hmet := h.met hcoherent task hmem hstatus dependency hdependency
    obtain ⟨done, hdone, hrow, hcompleted⟩ := (isCompleted_iff hcoherent.ids).mp hmet
    obtain ⟨same, hsame, hid, hkept⟩ := h.keeps done hdone hcompleted
    exact (isCompleted_iff (h.ids hcoherent)).mpr ⟨same, hsame, hid ▸ hrow, hkept⟩

/-! ## Transactions -/

variable [Encoding]

omit [Affinity] in
lemma gate_eq_ok {now : Rat} {actor : String} (h : board.gate now actor = .ok after) :
    board.SameRows after := by
  simp only [gate, bind_eq_ok] at h
  obtain ⟨run, -, h⟩ := h
  split at h
  · exact ends_eq_ok h
  · rw [pure_eq_ok] at h
    exact h ▸ ⟨rfl, rfl⟩

lemma transact_eq_ok {now : Rat} {call : Call} {answer : Answer}
    (h : board.transact now call drawn = .ok (answer, after)) :
    ∃ run, board.work run now call drawn = .ok (answer, after) := by
  simp only [transact, bind_eq_ok] at h
  obtain ⟨run, -, h⟩ := h
  split at h
  · obtain ⟨_, -, hwork⟩ := bind_eq_ok.mp h
    exact ⟨run, hwork⟩
  · exact ⟨run, h⟩

end Board

open Swarm.Board

/-! ## Runs -/

namespace Workbench

variable [Affinity] [Encoding]

lemma step_cases (bench : Workbench) (event : Event) :
    bench.board.SameRows (bench.step event).2.board ∨
      ∃ n now drawn call answer, event = .finish n now drawn ∧ bench.calls[n]? = some call ∧
        bench.board.transact now call drawn = .ok (answer, (bench.step event).2.board) ∧
        ∀ error, (bench.step event).1 ≠ some (.error error) := by
  cases event with
  | begin request normalize now =>
    left
    unfold step
    dsimp only
    split
    · rename_i hgate
      exact gate_eq_ok hgate
    · exact ⟨rfl, rfl⟩
    · exact ⟨rfl, rfl⟩
  | finish n now drawn =>
    unfold step
    dsimp only
    split
    · exact .inl ⟨rfl, rfl⟩
    rename_i call hcall
    split
    · rename_i htransact
      exact .inr ⟨n, now, drawn, call, _, rfl, hcall, htransact, by simp⟩
    · rename_i htransact
      exact .inr ⟨n, now, drawn, call, _, rfl, hcall, htransact, by simp⟩
    · exact .inl ⟨rfl, rfl⟩
  | answer n ancestry now =>
    left
    unfold step
    dsimp only
    split
    · exact ⟨rfl, rfl⟩
    split
    · split
      · rename_i hgate
        exact gate_eq_ok hgate
      · exact ⟨rfl, rfl⟩
    · exact ⟨rfl, rfl⟩
  | elsewhere run members messages => exact .inl ⟨rfl, rfl⟩

variable {bench : Workbench}

lemma step_effect (hcoherent : bench.board.Coherent) (event : Event) :
    ∃ drawn, bench.board.Becomes drawn (bench.step event).2.board := by
  obtain hsame | ⟨n, now, drawn, call, answer, -, -, htransact, -⟩ := bench.step_cases event
  · exact ⟨"", .same hsame⟩
  · obtain ⟨run, hwork⟩ := transact_eq_ok htransact
    exact ⟨drawn, work_effect hcoherent hwork⟩

lemma step_coherent (hcoherent : bench.board.Coherent) (event : Event) :
    (bench.step event).2.board.Coherent := by
  obtain ⟨drawn, heffect⟩ := step_effect hcoherent event
  exact heffect.coherent hcoherent

omit [Encoding] in
lemma created_coherent (run : RunRecord) (members : List MemberRecord) :
    (created run members).board.Coherent where
  ids := nodup_nil
  marked := fun _ h => absurd h not_mem_nil
  paths := nodup_nil
  reserved := fun _ h => absurd h not_mem_nil
  met := fun _ h => absurd h not_mem_nil

lemma exec_keeps_completed (hcoherent : bench.board.Coherent)
    (events : List Event) : bench.board.Keeps (exec step bench events).board := by
  induction events generalizing bench with
  | nil => exact fun task hmem hcompleted => ⟨task, hmem, rfl, hcompleted⟩
  | cons event rest ih =>
    intro task hmem hcompleted
    obtain ⟨drawn, heffect⟩ := step_effect hcoherent event
    obtain ⟨next, hnext, hid, hdone⟩ := heffect.keeps task hmem hcompleted
    obtain ⟨last, hlast, hid', hdone'⟩ := ih (step_coherent hcoherent event) next hnext hdone
    exact ⟨last, hlast, hid'.trans hid, hdone'⟩

end Workbench

open Workbench

/-- At every point of every run from a created one, the board is coherent; a refused call
leaves every task and every reservation as it was; and completed work stays completed. -/
theorem board_coherent [Affinity] [Encoding] (run : RunRecord) (members : List MemberRecord)
    (events : List Event) : (∀ m ∈ moments step (.created run members) events,
      m.after.board.Coherent ∧ ∀ error, m.output = some (.error error) →
        m.after.board.tasks = m.before.board.tasks ∧ m.after.board.files = m.before.board.files) ∧
      ∀ more, (exec step (.created run members) events).board.Keeps
        (exec step (.created run members) (events ++ more)).board := by
  have hkept : ∀ (bench : Workbench) (event : Event), bench.board.Coherent →
      (bench.step event).2.board.Coherent := fun _ event h => step_coherent h event
  have hcreated := created_coherent run members
  constructor
  · intro m hm
    obtain ⟨hbefore, hmoment⟩ := moment_of_mem
      (I := fun bench : Workbench => bench.board.Coherent) hkept hcreated hm
    rw [hmoment]
    refine ⟨hkept _ _ hbefore, fun error herror => ?_⟩
    obtain hsame | ⟨_, _, _, _, _, -, -, -, hnot⟩ := m.before.step_cases m.input
    · exact hsame
    · exact absurd herror (hnot error)
  · intro more
    rw [exec_append]
    exact exec_keeps_completed
      (exec_invariant (I := fun bench : Workbench => bench.board.Coherent) hkept hcreated events)
      more

section

variable [Affinity]

def Request.Names (k : String) : Request → Prop
  | .releaseTask _ _ token => token.text? = some k
  | .blockTask _ _ token _ => token.text? = some k
  | .unblockTask _ _ token _ => token.text? = some k
  | .submitTask _ _ token _ => token.text? = some k
  | .verifyTask _ _ token _ => token.text? = some k
  | .reserveFiles _ _ token _ => token.text? = some k
  | .releaseFiles _ _ token reservation => token.text? = some k ∨ reservation.text? = some k
  | _ => False

def Workbench.Names (bench : Workbench) (k : String) : Event → Prop
  | .begin request _ _ => request.Names k
  | .finish n _ _ => ∃ call, bench.calls[n]? = some call ∧ call.request.Names k
  | .answer n _ _ => ∃ call, bench.asked[n]? = some call ∧ call.request.Names k
  | .elsewhere _ _ _ => False

end

def Event.drawn : Event → Option String
  | .finish _ _ drawn => some drawn
  | _ => none

namespace Board

def Held (board : Board) (k : String) : Prop :=
  ∃ task ∈ board.tasks, task.status.held = true ∧ task.token = some k

def Unset (board : Board) (k : String) : Prop := ∀ file ∈ board.files, file.token ≠ k

structure Tokens (board : Board) (used : List String) : Prop where
  claims : ∀ task ∈ board.tasks, ∀ k, task.token = some k → k ∈ used
  sets : ∀ file ∈ board.files, file.token ∈ used
  apart : ∀ task ∈ board.tasks, ∀ file ∈ board.files, task.token ≠ some file.token

variable [Affinity] {board after : Board} {drawn k : String}

/-! ## One effect -/

variable {task : Task} {taskId token : Value} {actor : String}

lemma TaskStep.token_cases {next : Task} (h : board.TaskStep drawn task next) :
    next.token = task.token ∨ next.token = some drawn ∨ next.token = none := by
  cases h with
  | claimed => exact .inr (.inl rfl)
  | reopened => exact .inr (.inr rfl)
  | _ => exact .inl rfl

namespace Effect

variable {tasks : List Task} {files : List FileRow} (h : board.Effect drawn tasks files)
include h

lemma token_cases (hmem : task ∈ tasks) (htoken : task.token = some k) :
    k = drawn ∨ ∃ before ∈ board.tasks, before.token = some k := by
  cases h with
  | created new hfresh hready howner hnone =>
    obtain hheld | hnew := mem_append.mp hmem
    · exact .inr ⟨task, hheld, htoken⟩
    · rw [mem_singleton.mp hnew, hnone] at htoken
      cases htoken
  | stepped f keeps hstep hdrops =>
    obtain ⟨stored, hstored, rfl⟩ := mem_map.mp hmem
    obtain hsame | hdrawn | hnone := (hstep stored hstored).token_cases
    · exact .inr ⟨stored, hstored, hsame ▸ htoken⟩
    · rw [hdrawn, Option.some.injEq] at htoken
      exact .inl htoken.symm
    · rw [hnone] at htoken
      cases htoken
  | reserved _ _ _ _ _ _ => exact .inr ⟨task, hmem, htoken⟩

lemma set_cases {file : FileRow} (hfile : file ∈ files) :
    (file.token = drawn ∧ tasks = board.tasks) ∨ file ∈ board.files := by
  cases h with
  | created new hfresh hready howner hnone => exact .inr hfile
  | stepped f keeps hstep hdrops => exact .inr (mem_filter.mp hfile).1
  | reserved hmem hheld rows hrows hpaths hfree =>
    obtain hold | hnew := mem_append.mp hfile
    · exact .inr hold
    · exact .inl ⟨(hrows file hnew).2.2.2, rfl⟩

lemma held_of (hk : drawn ≠ k) (hmem : task ∈ tasks) (hstatus : task.status.held = true)
    (htoken : task.token = some k) : board.Held k := by
  cases h with
  | created new hfresh hready howner hnone =>
    obtain hold | hnew := mem_append.mp hmem
    · exact ⟨task, hold, hstatus, htoken⟩
    · rw [mem_singleton.mp hnew, hnone] at htoken
      cases htoken
  | stepped f keeps hstep hdrops =>
    obtain ⟨stored, hstored, rfl⟩ := mem_map.mp hmem
    refine ⟨stored, hstored, ?_⟩
    have hstep := hstep stored hstored
    generalize f stored = next at hstep hstatus htoken
    cases hstep with
    | same | rewired => exact ⟨hstatus, htoken⟩
    | claimed => exact absurd (Option.some.inj htoken) hk
    | worked _ _ _ hheld => exact ⟨hheld, htoken⟩
    | reopened => cases htoken
    | completed => cases hstatus
    | revalidated => exact ⟨hstatus, htoken⟩
  | reserved _ _ _ _ _ _ => exact ⟨task, hmem, hstatus, htoken⟩

end Effect

section

variable (h : board.Becomes drawn after)
include h

lemma Becomes.unset (hk : drawn ≠ k) (hunset : board.Unset k) : after.Unset k := by
  intro file hfile
  obtain ⟨hdrawn, -⟩ | hold := h.set_cases hfile
  · rw [hdrawn]
    exact hk
  · exact hunset file hold

lemma Becomes.tokens {used : List String} (hfresh : drawn ∉ used) (htokens : board.Tokens used) :
    after.Tokens (used ++ [drawn]) where
  claims task hmem k htoken := by
    obtain rfl | ⟨before, hbefore, htoken⟩ := h.token_cases hmem htoken
    · exact mem_append_right used (mem_singleton_self k)
    · exact mem_append_left _ (htokens.claims before hbefore k htoken)
  sets file hfile := by
    obtain ⟨hdrawn, -⟩ | hold := h.set_cases hfile
    · rw [hdrawn]
      exact mem_append_right used (mem_singleton_self drawn)
    · exact mem_append_left _ (htokens.sets file hold)
  apart task hmem file hfile hsame := by
    obtain ⟨hdrawn, htasks⟩ | hold := h.set_cases hfile
    · rw [htasks] at hmem
      rw [hdrawn] at hsame
      exact hfresh (htokens.claims task hmem drawn hsame)
    obtain hdrawn | ⟨before, hbefore, htoken⟩ := h.token_cases hmem hsame
    · exact hfresh (hdrawn ▸ htokens.sets file hold)
    · exact htokens.apart before hbefore file hold htoken

end

/-! ## A call that names the token -/

variable [Encoding]

omit [Encoding] in
lemma Holds.heldUnder (h : board.Holds taskId token actor task) (hnames : token.text? = some k) :
    board.Held k := by
  obtain ⟨k', rfl, htoken⟩ := h.token
  exact ⟨task, h.mem, h.held, hnames ▸ htoken⟩

omit [Encoding] in
lemma not_holds (drawn : String) (hended : ¬ board.Held k) (hnames : token.text? = some k)
    (h : board.HeldCall taskId token actor drawn after) : board.SameRows after := by
  obtain ⟨task, hholds, -⟩ := h
  exact absurd (hholds.heldUnder hnames) hended

lemma work_powerless (hcoherent : board.Coherent) (hended : ¬ board.Held k)
    (hunset : board.Unset k) {run : RunRecord} {now : Rat} {call : Call} {answer : Answer}
    (hnames : call.request.Names k) (h : board.work run now call drawn = .ok (answer, after)) :
    board.SameRows after := by
  unfold work at h
  cases hrequest : call.request with
  | releaseTask actor taskId token =>
    rw [hrequest] at h hnames
    exact not_holds drawn hended hnames (releaseTask_effect hcoherent h)
  | blockTask actor taskId token reason =>
    rw [hrequest] at h hnames
    exact not_holds drawn hended hnames (blockTask_effect hcoherent h)
  | unblockTask actor taskId token reason =>
    rw [hrequest] at h hnames
    exact not_holds drawn hended hnames (unblockTask_effect hcoherent h)
  | submitTask actor taskId token evidence =>
    rw [hrequest] at h hnames
    exact not_holds drawn hended hnames (submitTask_effect hcoherent h)
  | verifyTask actor taskId token revision =>
    rw [hrequest] at h hnames
    have heffect : _ ∨ ∃ _ ∈ _, ∃ _, _ ∧ _ ∧ _ ∧ board.Becomes drawn _ :=
      verifyTask_effect hcoherent h
    obtain rfl | ⟨task, hmem, k', rfl, htoken, hheld, -⟩ := heffect
    · exact ⟨rfl, rfl⟩
    · exact absurd ⟨task, hmem, hheld, hnames ▸ htoken⟩ hended
  | reserveFiles actor taskId token paths =>
    rw [hrequest] at h hnames
    exact not_holds drawn hended hnames (reserveFiles_effect hcoherent h)
  | releaseFiles actor taskId token reservation =>
    rw [hrequest] at h hnames
    have heffect : board.HeldCall _ _ _ drawn _ ∧ _ := releaseFiles_effect hcoherent h
    obtain hclaim | hset := hnames
    · exact not_holds drawn hended hclaim heffect.1
    -- the set's token has to be `k`, and no set has it
    refine heffect.2 fun file hfile hsame => hunset file hfile ?_
    rw [hset, Option.some.injEq] at hsame
    exact hsame.symm
  | _ =>
    -- the other calls name no token
    rw [hrequest] at hnames
    exact hnames.elim

end Board

/-! ## Runs -/

namespace Workbench

variable [Affinity] [Encoding] {bench : Workbench} {k : String} {event : Event} {used : List String}

lemma step_keeps_token (hcoherent : bench.board.Coherent) (hdrawn : event.drawn ≠ some k) :
    (bench.board.Unset k → (bench.step event).2.board.Unset k) ∧
      ((bench.step event).2.board.Held k → bench.board.Held k) := by
  obtain ⟨htasks, hfiles⟩ | ⟨n, now, drawn, call, answer, rfl, -, htransact, -⟩ :=
    bench.step_cases event
  · simp only [Unset, Held, htasks, hfiles]
    exact ⟨id, id⟩
  obtain ⟨run, hwork⟩ := transact_eq_ok htransact
  have heffect := work_effect hcoherent hwork
  have hk : drawn ≠ k := fun h => hdrawn (congrArg some h)
  refine ⟨heffect.unset hk, ?_⟩
  rintro ⟨task, hmem, hstatus, htoken⟩
  exact heffect.held_of hk hmem hstatus htoken

lemma step_tokens (hcoherent : bench.board.Coherent) (htokens : bench.board.Tokens used)
    (hfresh : ∀ drawn, event.drawn = some drawn → drawn ∉ used) :
    (bench.step event).2.board.Tokens (used ++ event.drawn.toList) := by
  obtain ⟨htasks, hfiles⟩ | ⟨n, now, drawn, call, answer, rfl, -, htransact, -⟩ :=
    bench.step_cases event
  · constructor
    · rw [htasks]
      exact fun task hmem k htoken =>
        mem_append_left _ (htokens.claims task hmem k htoken)
    · rw [hfiles]
      exact fun file hfile => mem_append_left _ (htokens.sets file hfile)
    · rw [htasks, hfiles]
      exact htokens.apart
  · obtain ⟨run, hwork⟩ := transact_eq_ok htransact
    exact (work_effect hcoherent hwork).tokens (hfresh drawn rfl) htokens

lemma exec_tokens (hcoherent : bench.board.Coherent) (htokens : bench.board.Tokens used)
    {events : List Event} (hdistinct : (used ++ events.filterMap Event.drawn).Nodup) :
    (exec step bench events).board.Tokens (used ++ events.filterMap Event.drawn) := by
  induction events generalizing bench used with
  | nil => simpa using htokens
  | cons event rest ih =>
    have hsplit : used ++ (event :: rest).filterMap Event.drawn =
        (used ++ event.drawn.toList) ++ rest.filterMap Event.drawn := by
      cases hdrawn : event.drawn <;> simp [hdrawn]
    rw [hsplit] at hdistinct ⊢
    refine ih (step_coherent hcoherent event) (step_tokens hcoherent htokens ?_) hdistinct
    intro drawn hdrawn hused
    rw [hdrawn] at hdistinct
    exact (nodup_append.mp (nodup_append.mp hdistinct).1).2.2 drawn hused drawn
      (mem_singleton_self drawn) rfl

omit [Affinity] [Encoding] in
lemma created_tokens (run : RunRecord) (members : List MemberRecord) :
    (created run members).board.Tokens [] where
  claims := fun _ h => absurd h not_mem_nil
  sets := fun _ h => absurd h not_mem_nil
  apart := fun _ h => absurd h not_mem_nil

structure Stale (k : String) (bench : Workbench) : Prop where
  coherent : bench.board.Coherent
  ended : ¬ bench.board.Held k
  unset : bench.board.Unset k

lemma Stale.step (hstale : bench.Stale k) (hdrawn : event.drawn ≠ some k) :
    (bench.step event).2.Stale k := by
  obtain ⟨hunset, hheld⟩ := step_keeps_token hstale.coherent hdrawn
  exact ⟨step_coherent hstale.coherent event, fun h => hstale.ended (hheld h), hunset hstale.unset⟩

lemma Stale.powerless (hstale : bench.Stale k) (hnames : bench.Names k event) :
    bench.board.SameRows (bench.step event).2.board := by
  obtain hsame | ⟨n, now, drawn, call, answer, rfl, hcall, htransact, -⟩ := bench.step_cases event
  · exact hsame
  obtain ⟨run, hwork⟩ := transact_eq_ok htransact
  obtain ⟨named, hnamed, hnames⟩ := hnames
  rw [hcall, Option.some.injEq] at hnamed
  exact work_powerless hstale.coherent hstale.ended hstale.unset (hnamed ▸ hnames) hwork

end Workbench

/-- In a run that draws each token once, once the claim held under a token has ended no
call that names the token changes a task or a reservation. -/
theorem stale_token_powerless [Affinity] [Encoding] (run : RunRecord)
    (members : List MemberRecord) (before between after : List Event)
    (hdistinct : ((before ++ between ++ after).filterMap Event.drawn).Nodup) {k : String}
    (hheld : (exec step (.created run members) before).board.Held k)
    (hended : ¬ (exec step (.created run members) (before ++ between)).board.Held k) :
    ∀ m ∈ moments step (exec step (.created run members) (before ++ between))
        after, m.before.Names k m.input → m.after.board.tasks = m.before.board.tasks ∧
          m.after.board.files = m.before.board.files := by
  rw [append_assoc, filterMap_append, nodup_append] at hdistinct
  obtain ⟨hbefore, -, hapart⟩ := hdistinct
  have hcreated := created_coherent run members
  have hcoherent : (exec step (.created run members) before).board.Coherent :=
    exec_invariant (I := fun bench : Workbench => bench.board.Coherent)
      (fun _ event h => step_coherent h event) hcreated before
  have htokens : (exec step (.created run members) before).board.Tokens
      ([] ++ before.filterMap Event.drawn) :=
    exec_tokens hcreated (created_tokens run members) hbefore
  -- the token was drawn before, so it is not drawn again
  have hlater : ∀ event ∈ between ++ after, event.drawn ≠ some k := by
    obtain ⟨task, hmem, -, htoken⟩ := hheld
    intro event hevent hdrawn
    exact hapart k (htokens.claims task hmem k htoken) k
      (mem_filterMap.mpr ⟨event, hevent, hdrawn⟩) rfl
  have hunset : (exec step (.created run members) before).board.Unset k := by
    obtain ⟨task, hmem, -, htoken⟩ := hheld
    exact fun file hfile hsame => htokens.apart task hmem file hfile (hsame ▸ htoken)
  have hstale : (exec step (.created run members) (before ++ between)).Stale k := by
    obtain ⟨hcoherent', hunset'⟩ := exec_invariant_of_allowed
      (I := fun bench : Workbench => bench.board.Coherent ∧ bench.board.Unset k)
      (G := fun event : Event => event.drawn ≠ some k)
      (fun bench event h hdrawn => ⟨step_coherent h.1 event, (step_keeps_token h.1 hdrawn).1 h.2⟩)
      ⟨hcoherent, hunset⟩ fun event hevent => hlater event (mem_append_left after hevent)
    rw [exec_append] at hended ⊢
    exact ⟨hcoherent', hended, hunset'⟩
  refine moments_forall_of_allowed (I := fun bench : Workbench => bench.Stale k)
    (G := fun _ event => event.drawn ≠ some k) ?_ ?_ hstale ?_
  · exact fun bench event hstale hdrawn => hstale.step hdrawn
  · exact fun bench event hstale hdrawn hnames => hstale.powerless hnames
  · exact fun m hm => hlater m.input (mem_append_right between (input_mem_of_mem hm))

section

local instance plainAffinity : Affinity where
  integerOf _ := none
  textOf _ := ""

local instance plainEncoding : Encoding where
  encode _ := .ok "[]"
  dumps _ := .ok "[]"
  text _ := "[]"

def openRun : RunRecord := ⟨.running, "lead", 100, none, none⟩

def soleMember : List MemberRecord := [⟨"lead", .live, none⟩]

def wholeCall (request : Request) (drawn : String) : List Event :=
  [.begin request .ok 0, .finish 0 0 drawn]

def createdAndClaimed : List Event :=
  wholeCall (.createTask "lead" (.string "t") (.array [.string "a"]) .null (.string "r")) "u" ++
    wholeCall (.claimTask "lead" (.int 1)) "k"

def released (drawn : String) : List Event :=
  wholeCall (.releaseTask "lead" (.int 1) (.string "k")) drawn

def commit (digit : Char) : Value := .string (String.ofList (replicate 40 digit))

/-- The claim is submitted at one commit and verified at another: the first transaction of
the verification finds a carry, and the ancestry of the commits is asked for. -/
def submittedAndAsked : List Event :=
  createdAndClaimed ++ wholeCall (.submitTask "lead" (.int 1) (.string "k")
      (.array [.object [("artifact", .string "a"), ("revision", commit 'a')]])) "s" ++
    wholeCall (.verifyTask "lead" (.int 1) (.string "k") (commit 'b')) "t"

/-- The task is released and claimed again. -/
def reclaimed : List Event := released "v" ++ wholeCall (.claimTask "lead" (.int 1)) "m"

/-- The second transaction of the verification, and a second release. -/
def lateCalls : List Event := [.answer 0 .confirmed 0, .finish 0 0 "w"] ++ released "x"

/-- A verification whose claim ends between its transactions, and a claim released twice:
the late calls change nothing. -/
theorem late_calls_powerless :
    let asked := exec step (.created openRun soleMember) submittedAndAsked
    let late := exec step (.created openRun soleMember) (submittedAndAsked ++ reclaimed)
    asked.board.Held "k" ∧ asked.asked.length = 1 ∧
      ∀ m ∈ moments step late lateCalls, m.before.Names "k" m.input →
        m.after.board.tasks = m.before.board.tasks ∧
        m.after.board.files = m.before.board.files := by
  intro asked late
  have hheld : asked.board.Held "k" := by
    unfold Held
    decide +kernel
  exact ⟨hheld, by decide +kernel, stale_token_powerless openRun soleMember submittedAndAsked
    reclaimed lateCalls (by decide) hheld (by unfold Held; decide +kernel)⟩

end

end Quecto.Swarm
