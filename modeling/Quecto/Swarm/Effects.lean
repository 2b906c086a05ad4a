/-
  Swarm/Effects.lean --- what a transaction does to the tasks and the reservations.
-/
import Quecto.Swarm.Operations

namespace Quecto.Swarm

open Foundation List

def Task.Marked (task : Task) : Prop :=
  (task.owner.isSome = true ↔ task.status ≠ .ready) ∧
    (task.token.isSome = true ↔ task.status ≠ .ready)

namespace Board

variable [Affinity]

structure Coherent (board : Board) : Prop where
  ids : (board.tasks.map (·.id)).Nodup
  marked : ∀ task ∈ board.tasks, task.Marked
  paths : (board.files.map (·.path)).Nodup
  reserved : ∀ file ∈ board.files, ∃ task ∈ board.tasks, task.id = file.task ∧
    task.status.held = true ∧ task.owner = some file.owner ∧ task.token = some file.claim
  met : ∀ task ∈ board.tasks, task.status ≠ .ready → ∀ dependency ∈ task.dependencies,
    board.isCompleted dependency = true

/-! ## Effects -/

/-- What one transaction may do to a task; `drawn` is the token it draws. -/
inductive TaskStep (board : Board) (drawn : String) (task : Task) : Task → Prop
  | same : TaskStep board drawn task task
  | rewired (dependencies : List Value) (hready : task.status = .ready) :
      TaskStep board drawn task { task with dependencies }
  | claimed (actor : String) (hready : task.status = .ready)
      (hmet : ∀ dependency ∈ task.dependencies, board.isCompleted dependency = true) :
      TaskStep board drawn task
        { task with status := .claimed, owner := some actor, token := some drawn }
  | worked (status : TaskState) (evidence : Value) (blocker : Option String)
      (hheld : task.status.held = true) (hstill : status.held = true) :
      TaskStep board drawn task { task with status, evidence, blocker }
  | reopened (evidence : Value) (hheld : task.status.held = true) : TaskStep board drawn task
        { task with status := .ready, owner := none, token := none, evidence, blocker := none }
  | completed (evidence : Value) (hheld : task.status.held = true) :
      TaskStep board drawn task { task with status := .completed, evidence }
  | revalidated (evidence : Value) (hcompleted : task.status = .completed) :
      TaskStep board drawn task { task with evidence }

/-- What one transaction does to the tasks and the reservations: it creates a task, steps
tasks and drops reservations, or reserves paths for a task that is held. -/
inductive Effect (board : Board) (drawn : String) : List Task → List FileRow → Prop
  | created (task : Task) (hfresh : ∀ other ∈ board.tasks, other.id ≠ task.id)
      (hready : task.status = .ready) (howner : task.owner = none) (htoken : task.token = none) :
      Effect board drawn (board.tasks ++ [task]) board.files
  | stepped (f : Task → Task) (keeps : FileRow → Bool)
      (hstep : ∀ task ∈ board.tasks, TaskStep board drawn task (f task))
      (hdrops : ∀ task ∈ board.tasks, task.status.held = true → (f task).status.held = false →
        ∀ file, file.task = task.id → task.token = some file.claim → keeps file = false) :
      Effect board drawn (board.tasks.map f) (board.files.filter keeps)
  | reserved {task : Task} (hmem : task ∈ board.tasks) (hheld : task.status.held = true)
      (rows : List FileRow)
      (hrows : ∀ row ∈ rows, row.task = task.id ∧ task.owner = some row.owner ∧
        task.token = some row.claim ∧ row.token = drawn)
      (hpaths : (rows.map (·.path)).Nodup)
      (hfree : ∀ row ∈ rows, ∀ file ∈ board.files, file.path ≠ row.path) :
      Effect board drawn board.tasks (board.files ++ rows)

/-- The tasks and the reservations of `after` are those of `board`. -/
abbrev SameRows (board after : Board) : Prop :=
  after.tasks = board.tasks ∧ after.files = board.files

abbrev Becomes (board : Board) (drawn : String) (after : Board) : Prop :=
  board.Effect drawn after.tasks after.files

variable {board after : Board} {drawn : String}

lemma Effect.dropped (keeps : FileRow → Bool) :
    board.Effect drawn board.tasks (board.files.filter keeps) := by
  have heffect : board.Effect drawn (board.tasks.map id) (board.files.filter keeps) := by
    refine .stepped id keeps (fun _ _ => .same) fun task _ hheld hnot => ?_
    rw [id_eq, hheld] at hnot
    cases hnot
  rw [map_id] at heffect
  exact heffect

lemma Effect.same (hsame : board.SameRows after) : board.Becomes drawn after := by
  have heffect : board.Effect drawn board.tasks (board.files.filter fun _ => true) := .dropped _
  rw [filter_true] at heffect
  rwa [Becomes, hsame.1, hsame.2]

lemma Becomes.recorded {middle : Board} (h : board.Becomes drawn middle)
    (hsame : middle.SameRows after) : board.Becomes drawn after := by
  rwa [Becomes, hsame.1, hsame.2]

variable {task : Task} {id : Value} {actor : String}

lemma Effect.changed (hids : (board.tasks.map (·.id)).Nodup) (hmem : task ∈ board.tasks)
    (f : Task → Task) (hstep : board.TaskStep drawn task (f task)) (keeps : FileRow → Bool)
    (hdrops : task.status.held = true → (f task).status.held = false →
      ∀ file, file.task = task.id → task.token = some file.claim → keeps file = false) :
    board.Effect drawn (board.tasks.map fun other => if other.id = task.id then f other else other)
      (board.files.filter keeps) := by
  have honly : ∀ other ∈ board.tasks, other.id = task.id → other = task :=
    fun other hother hid => inj_on_of_nodup_map hids hother hmem hid
  refine .stepped _ keeps (fun other hother => ?_) fun other hother => ?_
  · split
    · rename_i hid
      rw [honly other hother hid]
      exact hstep
    · exact .same
  · split
    · rename_i hid
      rw [honly other hother hid]
      exact hdrops
    · intro hheld hnot
      rw [hheld] at hnot
      cases hnot

lemma Effect.died (owner : Option String) (blocker : String) (keeps : FileRow → Bool) :
    board.Effect drawn (board.tasks.map fun task =>
        if task.owner.any (owner == some ·) && task.status.held then
          { task with status := .blocked, blocker := some blocker }
        else task)
      (board.files.filter keeps) := by
  refine .stepped _ keeps (fun task _ => ?_) fun task _ hheld hnot => ?_
  · split
    · rename_i howned
      rw [Bool.and_eq_true] at howned
      exact .worked .blocked task.evidence (some blocker) howned.2 rfl
    · exact .same
  · split at hnot
    · cases hnot
    · rw [hheld] at hnot
      cases hnot

/-! ## Reads -/

lemma storedTask_eq_ok (h : board.storedTask id = .ok task) :
    task ∈ board.tasks ∧ id.row? = some task.id := by
  simp only [storedTask, bind_eq_ok, okOr_eq_ok] at h
  obtain ⟨_, -, hfind⟩ := h
  have hrow := List.find?_some hfind
  rw [beq_iff_eq] at hrow
  exact ⟨mem_of_find?_eq_some hfind, hrow⟩

lemma readTask_eq_ok (h : board.readTask id = .ok task) :
    ∃ stored ∈ board.tasks, id.row? = some stored.id ∧
      (task = stored ∨ stored.status = .ready ∧ task.status = .blocked ∧
        task.owner = stored.owner ∧ task.token = stored.token) := by
  simp only [readTask, bind_eq_ok, pure_eq_ok] at h
  obtain ⟨stored, hstored, htask⟩ := h
  obtain ⟨hmem, hrow⟩ := storedTask_eq_ok hstored
  refine ⟨stored, hmem, hrow, ?_⟩
  split at htask
  · rename_i hunmet
    rw [Bool.and_eq_true, beq_iff_eq] at hunmet
    exact .inr ⟨hunmet.1, htask ▸ rfl, htask ▸ rfl, htask ▸ rfl⟩
  · exact .inl htask.symm

section

variable (hcoherent : board.Coherent)
include hcoherent

lemma Coherent.exists_token (hmem : task ∈ board.tasks) (hclaimed : task.status ≠ .ready) :
    ∃ k, task.token = some k :=
  Option.isSome_iff_exists.mp ((hcoherent.marked task hmem).2.mpr hclaimed)

/-- A task that is read with an owner is read as it is stored. -/
lemma readTask_owned (h : board.readTask id = .ok task) (howned : task.owner.isSome = true) :
    task ∈ board.tasks ∧ id.row? = some task.id := by
  obtain ⟨stored, hmem, hrow, rfl | ⟨hready, -, hsame, -⟩⟩ := readTask_eq_ok h
  · exact ⟨hmem, hrow⟩
  · exact absurd hready ((hcoherent.marked stored hmem).1.mp (hsame ▸ howned))

end

/-- The caller holds the claim on the task and gives its token. -/
structure Holds (board : Board) (id token : Value) (actor : String) (task : Task) : Prop where
  mem : task ∈ board.tasks
  row : id.row? = some task.id
  held : task.status.held = true
  owner : task.owner = some actor
  token : ∃ k, token = .string k ∧ task.token = some k

lemma owned_eq_ok (hcoherent : board.Coherent) {token : Value}
    (h : board.owned id token actor = .ok task) : board.Holds id token actor task := by
  simp only [owned, bind_eq_ok, require_eq_ok, pure_eq_ok, Bool.and_eq_true] at h
  obtain ⟨read, hread, _, ⟨⟨htoken, howner⟩, hheld⟩, rfl⟩ := h
  rw [pythonEqual_ofText_string] at howner
  obtain ⟨hmem, hrow⟩ := readTask_owned hcoherent hread (howner ▸ rfl)
  obtain ⟨k, hk⟩ := hcoherent.exists_token hmem fun hready => by
    rw [hready] at hheld
    cases hheld
  rw [hk, Value.ofText, Option.elim_some, pythonEqual_string] at htoken
  exact ⟨hmem, hrow, hheld, howner, k, htoken, hk⟩

/-- The caller holds the claim, and the transaction leaves `after`. -/
def HeldCall (board : Board) (taskId token : Value) (actor drawn : String) (after : Board) : Prop :=
  ∃ task, board.Holds taskId token actor task ∧ board.Becomes drawn after

/-! ## Writes -/

omit [Affinity] in
lemma event_eq_ok [Encoding] {action : String} {time : Rat} {detail : List (String × Value)}
    (h : board.event actor time action detail = .ok after) : board.SameRows after := by
  simp only [event, bind_eq_ok, pure_eq_ok] at h
  obtain ⟨_, -, rfl⟩ := h
  exact ⟨rfl, rfl⟩

omit [Affinity] in
lemma ends_eq_ok [Encoding] {now : Rat} {outcome reason : String}
    (h : board.ends now actor outcome reason = .ok after) : board.SameRows after := by
  simp only [ends, bind_eq_ok] at h
  obtain ⟨middle, hfirst, hsecond⟩ := h
  have hmiddle := event_eq_ok hfirst
  have hafter := event_eq_ok hsecond
  exact ⟨hafter.1.trans hmiddle.1, hafter.2.trans hmiddle.2⟩

lemma updateTask_tasks (board : Board) (hrow : id.row? = some task.id) (f : Task → Task) :
    (board.updateTask id f).tasks =
      board.tasks.map fun other => if other.id = task.id then f other else other := by
  unfold updateTask
  rw [hrow]
  refine map_congr_left fun other _ => ?_
  by_cases heq : other.id = task.id
  · simp [heq]
  · simp [heq, Ne.symm heq]

section Effects

variable {after : Board} {task : Task}
  {id taskId token reason evidence dependencies revision acceptance member : Value}
  {f : Task → Task} {k : String} {run : RunRecord}

section

variable (hcoherent : board.Coherent) (hmem : task ∈ board.tasks) (hrow : id.row? = some task.id)
include hcoherent hmem hrow

lemma Effect.of_step (hstep : board.TaskStep drawn task (f task))
    (hstays : task.status.held = true → (f task).status.held = true)
    (hrows : (board.updateTask id f).SameRows after) : board.Becomes drawn after := by
  rw [Becomes, hrows.1, hrows.2, board.updateTask_tasks hrow]
  have heffect := Effect.changed hcoherent.ids hmem f hstep (fun _ => true) fun hheld hnot => by
    rw [hstays hheld] at hnot
    cases hnot
  rw [filter_true] at heffect
  exact heffect

lemma Effect.of_ended (htoken : task.token = some k) (hstep : board.TaskStep drawn task (f task))
    (hrows : ((board.updateTask id f).deleteClaimFiles id (.string k)).SameRows after) :
    board.Becomes drawn after := by
  rw [Becomes, hrows.1, hrows.2]
  change board.Effect drawn (board.updateTask id f).tasks _
  rw [board.updateTask_tasks hrow]
  refine Effect.changed hcoherent.ids hmem f hstep _ fun _ _ file htask hclaim => ?_
  rw [htoken] at hclaim
  simp [hrow, htask, hclaim, Value.text?, Value.unbindable]

lemma Effect.of_reopen (hheld : task.status.held = true)
    (hrows : (board.reopen id).SameRows after) : board.Becomes drawn after := by
  have hupdate : (board.reopen id).tasks =
      (board.updateTask id TaskUpdate.reopen.apply).tasks := rfl
  rw [Becomes, hrows.1, hupdate, hrows.2, board.updateTask_tasks hrow]
  refine .changed hcoherent.ids hmem _ (.reopened (.array []) hheld) _ fun _ _ file htask _ => ?_
  simp [hrow, htask]

end

variable [Encoding] {now : Rat} {actor : String} {answer : Answer}

section

variable (hcoherent : board.Coherent)
include hcoherent

lemma releaseTask_effect (h : board.releaseTask now actor taskId token = .ok (answer, after)) :
    board.HeldCall taskId token actor drawn after := by
  simp only [releaseTask, bind_eq_ok, pure_eq_ok, Prod.mk.injEq] at h
  obtain ⟨task, howned, board', hevent, _, -, -, rfl⟩ := h
  have hholds := owned_eq_ok hcoherent howned
  obtain ⟨k, rfl, htoken⟩ := hholds.token
  exact ⟨task, hholds, .of_ended hcoherent hholds.mem hholds.row htoken
    (.reopened task.evidence hholds.held) (event_eq_ok hevent)⟩

lemma blockTask_effect (h : board.blockTask now actor taskId token reason = .ok (answer, after)) :
    board.HeldCall taskId token actor drawn after := by
  simp only [blockTask, bind_eq_ok] at h
  obtain ⟨text, -, task, howned, _, -, h⟩ := h
  have hholds := owned_eq_ok hcoherent howned
  refine ⟨task, hholds, ?_⟩
  split at h
  · cases h
    exact .same ⟨rfl, rfl⟩
  simp only [bind_eq_ok, pure_eq_ok, Prod.mk.injEq] at h
  obtain ⟨board', hevent, _, -, -, rfl⟩ := h
  exact .of_step hcoherent hholds.mem hholds.row
    (.worked .blocked task.evidence (some text) hholds.held rfl) (fun _ => rfl) (event_eq_ok hevent)

lemma unblockTask_effect
    (h : board.unblockTask now actor taskId token reason = .ok (answer, after)) :
    board.HeldCall taskId token actor drawn after := by
  simp only [unblockTask, bind_eq_ok] at h
  obtain ⟨text, -, task, howned, h⟩ := h
  have hholds := owned_eq_ok hcoherent howned
  refine ⟨task, hholds, ?_⟩
  split at h
  · cases h
    exact .same ⟨rfl, rfl⟩
  · simp only [bind_eq_ok, pure_eq_ok, Prod.mk.injEq] at h
    obtain ⟨board', hevent, _, -, -, rfl⟩ := h
    exact .of_step hcoherent hholds.mem hholds.row
      (.worked .claimed task.evidence none hholds.held rfl) (fun _ => rfl) (event_eq_ok hevent)
  · cases h

lemma submitTask_effect
    (h : board.submitTask now actor taskId token evidence = .ok (answer, after)) :
    board.HeldCall taskId token actor drawn after := by
  simp only [submitTask, bind_eq_ok] at h
  obtain ⟨task, howned, h⟩ := h
  have hholds := owned_eq_ok hcoherent howned
  refine ⟨task, hholds, ?_⟩
  split at h
  · cases h
    exact .same ⟨rfl, rfl⟩
  simp only [bind_eq_ok, pure_eq_ok, Prod.mk.injEq] at h
  obtain ⟨_, -, _, -, board', hevent, _, -, -, rfl⟩ := h
  exact .of_step hcoherent hholds.mem hholds.row (.worked .submitted evidence none hholds.held rfl)
    (fun _ => rfl) (event_eq_ok hevent)

lemma releaseFiles_effect {reservation : Value}
    (h : board.releaseFiles now actor taskId token reservation = .ok (answer, after)) :
    board.HeldCall taskId token actor drawn after ∧
      ((∀ file ∈ board.files, reservation.text? ≠ some file.token) → board.SameRows after) := by
  simp only [releaseFiles, bind_eq_ok, pure_eq_ok, Prod.mk.injEq] at h
  obtain ⟨task, howned, _, -, board', hevent, -, rfl⟩ := h
  obtain ⟨htasks, hfiles⟩ := event_eq_ok hevent
  refine ⟨⟨task, owned_eq_ok hcoherent howned, ?_⟩, fun hother => ⟨htasks, hfiles.trans ?_⟩⟩
  · rw [Becomes, htasks, hfiles]
    exact .dropped _
  · refine filter_eq_self.mpr fun file hfile => ?_
    simp [hother file hfile]

lemma reserveFiles_effect {paths : PathSet}
    (h : board.reserveFiles now actor taskId token paths drawn = .ok (answer, after)) :
    board.HeldCall taskId token actor drawn after := by
  simp only [reserveFiles, bind_eq_ok] at h
  obtain ⟨task, howned, _, -, h⟩ := h
  have hholds := owned_eq_ok hcoherent howned
  refine ⟨task, hholds, ?_⟩
  split at h
  · cases h
  rename_i hnone
  simp only [bind_eq_ok, pure_eq_ok, Prod.mk.injEq] at h
  obtain ⟨board', hevent, -, rfl⟩ := h
  obtain ⟨k, rfl, htoken⟩ := hholds.token
  refine Becomes.recorded ?_ (event_eq_ok hevent)
  refine .reserved hholds.mem hholds.held _ ?_ ?_ ?_
  · intro row hrow
    obtain ⟨path, -, rfl⟩ := mem_map.mp hrow
    exact ⟨rfl, hholds.owner, htoken, rfl⟩
  · rw [map_map]
    have hpath : ((·.path) ∘ fun path => (⟨path, task.id, actor, k, drawn⟩ : FileRow)) = id := rfl
    exact hpath ▸ (map_id paths.1).symm ▸ paths.2
  intro row hrow file hfile hsame
  obtain ⟨path, hpath, rfl⟩ := mem_map.mp hrow
  have hfree := List.find?_eq_none.mp hnone path hpath
  rw [any_eq_true] at hfree
  exact hfree ⟨file, hfile, beq_iff_eq.mpr hsame⟩

lemma claimTask_effect (h : board.claimTask now actor taskId drawn = .ok (answer, after)) :
    board.Becomes drawn after := by
  simp only [claimTask, bind_eq_ok, require_eq_ok, pure_eq_ok, Prod.mk.injEq, beq_iff_eq] at h
  obtain ⟨task, hread, _, hmet, _, hready, board', hevent, _, -, -, rfl⟩ := h
  obtain ⟨stored, hmem, hrow, rfl | ⟨-, hblocked, -⟩⟩ := readTask_eq_ok hread
  · exact .of_step hcoherent hmem hrow (.claimed actor hready (all_eq_true.mp hmet)) (fun _ => rfl)
      (event_eq_ok hevent)
  · rw [hblocked] at hready
    cases hready

lemma setTaskDependencies_effect
    (h : board.setTaskDependencies now actor taskId dependencies = .ok (answer, after)) :
    board.Becomes drawn after := by
  simp only [setTaskDependencies, bind_eq_ok, require_eq_ok, pure_eq_ok, Prod.mk.injEq,
    Bool.and_eq_true] at h
  obtain ⟨task, hread, _, ⟨hunowned, -⟩, listed, -, _, -, _, -, board', hevent, _, -, -, rfl⟩ := h
  obtain ⟨stored, hmem, hrow, hstored⟩ := readTask_eq_ok hread
  have howner : stored.owner.isSome ≠ true := by
    have hsame : task.owner = stored.owner := by
      obtain rfl | ⟨-, -, hsame, -⟩ := hstored
      · rfl
      · exact hsame
    rw [← hsame, Option.isNone_iff_eq_none.mp hunowned]
    exact Bool.false_ne_true
  have hready : stored.status = .ready := by
    by_contra hne
    exact howner ((hcoherent.marked stored hmem).1.mpr hne)
  refine .of_step hcoherent hmem hrow (.rewired listed hready) (fun hheld => ?_)
    (event_eq_ok hevent)
  rw [hready] at hheld
  cases hheld

lemma revalidateTask_effect
    (h : board.revalidateTask now actor taskId revision evidence = .ok (answer, after)) :
    board.Becomes drawn after := by
  simp only [revalidateTask, bind_eq_ok, pure_eq_ok, Prod.mk.injEq] at h
  obtain ⟨task, hstored, new, hnew, _, -, board', hevent, _, -, -, rfl⟩ := h
  obtain ⟨hmem, hrow⟩ := storedTask_eq_ok hstored
  have hcompleted : task.status = .completed := by
    simp only [revalidation, bind_eq_ok, require_eq_ok, beq_iff_eq] at hnew
    exact hnew.choose_spec.1
  exact .of_step hcoherent hmem hrow (.revalidated new hcompleted) id (event_eq_ok hevent)

end

omit [Affinity] [Encoding] in
lemma id_lt_nextTaskId (hmem : task ∈ board.tasks) : task.id < board.nextTaskId := by
  have hle : ∀ (tasks : List Task) (last : Int),
      last ≤ tasks.foldl (fun last task => max last task.id) last ∧
        ∀ task ∈ tasks, task.id ≤ tasks.foldl (fun last task => max last task.id) last := by
    intro tasks
    induction tasks with
    | nil => exact fun last => ⟨Int.le_refl last, fun _ h => absurd h not_mem_nil⟩
    | cons first rest ih =>
      intro last
      obtain ⟨hlast, hrest⟩ := ih (max last first.id)
      rw [foldl_cons]
      exact ⟨by omega, forall_mem_cons.mpr ⟨by omega, hrest⟩⟩
  exact Int.lt_add_one_of_le ((hle board.tasks 0).2 task hmem)

lemma create_effect {title : String}
    (h : board.create now actor title acceptance dependencies = .ok (task, after)) :
    board.Becomes drawn after := by
  simp only [create, bind_eq_ok, pure_eq_ok, Prod.mk.injEq] at h
  obtain ⟨_, -, _, -, _, -, listed, -, _, -, board', hevent, _, -, -, rfl⟩ := h
  refine Becomes.recorded ?_ (event_eq_ok hevent)
  refine .created _ (fun other hother => ?_) rfl rfl rfl
  exact Int.ne_of_lt (id_lt_nextTaskId hother)

lemma createTask_effect {title request : Value}
    (h : board.createTask now actor title acceptance dependencies request = .ok (answer, after)) :
    board.Becomes drawn after := by
  simp only [createTask, bind_eq_ok] at h
  obtain ⟨title', -, request', -, payload, -, h⟩ := h
  split at h
  · simp only [bind_eq_ok, pure_eq_ok, Prod.mk.injEq] at h
    obtain ⟨_, -, -, rfl⟩ := h
    exact .same ⟨rfl, rfl⟩
  simp only [bind_eq_ok] at h
  obtain ⟨_, -, ⟨task, board'⟩, hcreate, h⟩ := h
  cases h
  exact (create_effect hcreate :)

/-! ### Verification -/

omit [Encoding] in
lemma updateTask_updateTask (id : Value) (g : Task → Task) (hid : ∀ task, (f task).id = task.id) :
    ((board.updateTask id f).updateTask id g).tasks = (board.updateTask id (g ∘ f)).tasks := by
  unfold updateTask
  rw [map_map]
  refine map_congr_left fun task _ => ?_
  by_cases hrow : id.row? = some task.id
  · simp [hrow, hid]
  · simp [hrow]

lemma complete_effect (hcoherent : board.Coherent) {carried : Option CarryPlan}
    (hmem : task ∈ board.tasks) (hrow : taskId.row? = some task.id)
    (hheld : task.status.held = true) (htoken : task.token = some k)
    (h : board.complete now actor taskId (.string k) revision carried = .ok (answer, after)) :
    board.Becomes drawn after := by
  cases carried with
  | none =>
    simp only [complete, bind_eq_ok, pure_eq_ok, Prod.mk.injEq] at h
    obtain ⟨_, rfl, board', hevent, _, -, -, rfl⟩ := h
    exact .of_ended hcoherent hmem hrow htoken (.completed task.evidence hheld) (event_eq_ok hevent)
  | some plan =>
    simp only [complete, bind_eq_ok, pure_eq_ok, Prod.mk.injEq] at h
    obtain ⟨_, -, _, rfl, board', hevent, _, -, -, rfl⟩ := h
    obtain ⟨htasks, hfiles⟩ := event_eq_ok hevent
    refine .of_ended hcoherent hmem hrow htoken (.completed plan.carry.evidence hheld)
      (f := TaskUpdate.complete.apply ∘ fun task => { task with evidence := plan.carry.evidence })
      ⟨htasks.trans ?_, hfiles⟩
    exact updateTask_updateTask taskId _ fun _ => rfl

lemma verifyTask_effect (hcoherent : board.Coherent) {confirmed : Option CarryPlan}
    (h : board.verifyTask now actor taskId token revision confirmed = .ok (answer, after)) :
    after = board ∨ ∃ task ∈ board.tasks, ∃ k, token = .string k ∧ task.token = some k ∧
      task.status.held = true ∧ board.Becomes drawn after := by
  simp only [verifyTask, bind_eq_ok, require_eq_ok, Bool.and_eq_true, Bool.or_eq_true,
    beq_iff_eq] at h
  obtain ⟨task, hread, _, ⟨hcurrent, hreviewable⟩, h⟩ := h
  obtain ⟨stored, hmem, hrow, rfl | ⟨-, hblocked, -⟩⟩ := readTask_eq_ok hread
  · obtain ⟨k, hk⟩ := hcoherent.exists_token hmem fun hready => by
      rw [hready] at hreviewable
      obtain h | h := hreviewable <;> cases h
    rw [hk, Value.ofText, Option.elim_some, pythonEqual_string] at hcurrent
    subst hcurrent
    have hsubmitted : task.status ≠ .completed → task.status.held = true := by
      intro hne
      rw [hreviewable.resolve_right hne]
      rfl
    split at h
    · split at h
      · cases h
        exact .inl rfl
      · rename_i hne
        have hheld := hsubmitted hne
        exact .inr ⟨task, hmem, k, rfl, hk, hheld, complete_effect hcoherent hmem hrow hheld hk h⟩
    · simp only [bind_eq_ok] at h
      obtain ⟨found, hfound, h⟩ := h
      split at h
      · cases h
        exact .inl rfl
      simp only [bind_eq_ok] at h
      obtain ⟨_, -, hcomplete⟩ := h
      have hheld : task.status.held = true := by
        unfold Task.carry at hfound
        split at hfound
        · split at hfound
          · rename_i hsub
            rw [Bool.and_eq_true, beq_iff_eq] at hsub
            rw [hsub.1]
            rfl
          · cases hfound
        · cases hfound
      exact .inr ⟨task, hmem, k, rfl, hk, hheld,
        complete_effect hcoherent hmem hrow hheld hk hcomplete⟩
  · rw [hblocked] at hreviewable
    obtain h | h := hreviewable <;> cases h

/-! ### Recovery -/

omit [Affinity] in
lemma notifyRevoked_eq_ok {previous reason : String} {told : Bool}
    (h : board.notifyRevoked now actor previous taskId reason = .ok (told, after)) :
    board.SameRows after := by
  simp only [notifyRevoked] at h
  split at h
  · simp only [bind_eq_ok, pure_eq_ok, Prod.mk.injEq] at h
    obtain ⟨_, -, board', hevent, -, rfl⟩ := h
    exact (event_eq_ok hevent :)
  · cases h
    exact ⟨rfl, rfl⟩

lemma revokeTask_effect (hcoherent : board.Coherent)
    (h : board.revokeTask now actor taskId reason = .ok (answer, after)) :
    board.Becomes drawn after := by
  simp only [revokeTask, bind_eq_ok] at h
  obtain ⟨text, -, task, hread, h⟩ := h
  split at h
  · simp only [bind_eq_ok, pure_eq_ok, Prod.mk.injEq] at h
    obtain ⟨_, -, -, rfl⟩ := h
    exact .same ⟨rfl, rfl⟩
  rename_i previous howner
  simp only [bind_eq_ok, require_eq_ok] at h
  obtain ⟨_, hheld, board', hevent, ⟨told, board''⟩, hnotify, h⟩ := h
  obtain ⟨_, -, -, rfl⟩ := h
  obtain ⟨hmem, hrow⟩ := readTask_owned hcoherent hread (howner ▸ rfl)
  have hreopened : board.Becomes drawn board' :=
    .of_reopen hcoherent hmem hrow hheld (event_eq_ok hevent)
  exact hreopened.recorded (notifyRevoked_eq_ok hnotify)

lemma recoverTask_effect (hcoherent : board.Coherent) {release : Value}
    (h : board.recoverTask now actor taskId release = .ok (answer, after)) :
    board.Becomes drawn after := by
  simp only [recoverTask, bind_eq_ok, require_eq_ok, pure_eq_ok, Prod.mk.injEq] at h
  obtain ⟨task, hread, _, hheld, owner, hmember, _, hdead, _, -, board', hevent, _, -, -, rfl⟩ := h
  -- no member is found by the owner of a task that has none
  have howned : task.owner.isSome = true := by
    simp only [memberRow, bind_eq_ok, pure_eq_ok] at hmember
    obtain ⟨_, -, rfl⟩ := hmember
    cases howner : task.owner with
    | some _ => rfl
    | none =>
      have hfind : board.members.find?
          (fun member => (Value.ofText none).text? == some member.id) = none :=
        List.find?_eq_none.mpr fun _ _ => Bool.false_ne_true
      rw [howner, hfind] at hdead
      cases hdead
  obtain ⟨hmem, hrow⟩ := readTask_owned hcoherent hread howned
  exact .of_reopen hcoherent hmem hrow hheld (event_eq_ok hevent)

/-! ### Members -/

omit [Affinity] in
lemma endByLoss_eq_ok {reason : String} {ended : Bool}
    (h : board.endByLoss now actor run reason = .ok (ended, after)) : board.SameRows after := by
  simp only [endByLoss] at h
  split at h
  · simp only [bind_eq_ok, pure_eq_ok, Prod.mk.injEq] at h
    obtain ⟨board', hevent, -, rfl⟩ := h
    exact (event_eq_ok hevent :)
  · simp only [bind_eq_ok, pure_eq_ok, Prod.mk.injEq] at h
    obtain ⟨board', hends, -, rfl⟩ := h
    exact ends_eq_ok hends
  · split at h
    · cases h
      exact ⟨rfl, rfl⟩
    · simp only [bind_eq_ok, pure_eq_ok, Prod.mk.injEq] at h
      obtain ⟨board', hevent, -, rfl⟩ := h
      exact (event_eq_ok hevent :)
  · cases h
    exact ⟨rfl, rfl⟩

lemma confirmMemberDead_effect {exit : Value}
    (h : board.confirmMemberDead now actor run member exit = .ok (answer, after)) :
    board.Becomes drawn after := by
  -- a dead member's work is blocked, and an orderly exit drops its reservations
  have hdied : ∀ (kind : MemberExit) (keeps : FileRow → Bool),
      board.Effect drawn (board.blockOwnedTasks member kind.blocker).tasks
        (board.files.filter keeps) :=
    fun kind keeps => .died member.text? kind.blocker keeps
  simp only [confirmMemberDead, bind_eq_ok] at h
  obtain ⟨kind, -, row, -, h⟩ := h
  split at h
  · simp only [bind_eq_ok] at h
    obtain ⟨board', hevent, h⟩ := h
    have hrows : board.Becomes drawn board' := by
      refine Becomes.recorded ?_ (event_eq_ok hevent)
      cases kind with
      | orderly => exact hdied .orderly _
      | abrupt =>
        have heffect := hdied .abrupt fun _ => true
        rw [filter_true] at heffect
        exact heffect
    split at h
    · simp only [bind_eq_ok] at h
      obtain ⟨⟨ended, board''⟩, hloss, h⟩ := h
      obtain ⟨-, rfl⟩ := h
      exact hrows.recorded (endByLoss_eq_ok hloss)
    · cases h
      exact hrows
  · cases h
    exact .same ⟨rfl, rfl⟩

lemma releaseUnlaunched_effect
    (h : board.releaseUnlaunched now actor member = .ok (answer, after)) :
    board.SameRows after := by
  simp only [releaseUnlaunched, bind_eq_ok, pure_eq_ok, Prod.mk.injEq] at h
  obtain ⟨row, -, _, -, board', hevent, -, rfl⟩ := h
  exact (event_eq_ok hevent :)

/-! ### Every operation -/

lemma work_effect (hcoherent : board.Coherent) {call : Call}
    (h : board.work run now call drawn = .ok (answer, after)) :
    board.Becomes drawn after := by
  unfold work at h
  split at h
  · exact createTask_effect h
  · exact setTaskDependencies_effect hcoherent h
  · exact claimTask_effect hcoherent h
  · exact (releaseTask_effect hcoherent h).choose_spec.2
  · exact (blockTask_effect hcoherent h).choose_spec.2
  · exact (unblockTask_effect hcoherent h).choose_spec.2
  · exact (submitTask_effect hcoherent h).choose_spec.2
  · obtain rfl | ⟨_, _, _, _, _, _, heffect⟩ := verifyTask_effect hcoherent h
    · exact .same ⟨rfl, rfl⟩
    · exact heffect
  · exact revalidateTask_effect hcoherent h
  · exact revokeTask_effect hcoherent h
  · exact recoverTask_effect hcoherent h
  · exact (reserveFiles_effect hcoherent h).choose_spec.2
  · exact (releaseFiles_effect hcoherent h).1.choose_spec.2
  · exact confirmMemberDead_effect h
  · exact .same (releaseUnlaunched_effect h)

end Effects

end Board

end Quecto.Swarm
