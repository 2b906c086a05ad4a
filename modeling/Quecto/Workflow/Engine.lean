/-
  Workflow/Engine.lean --- the workflow engine of a session, and one bound to a template.

  Source: `domain/workflow/{mod,engine}.rs`.
-/
import Quecto.Foundation.Machine
import Quecto.Foundation.Fallible
import Quecto.Foundation.Search
import Mathlib.Data.String.Basic

namespace Quecto.Workflow

open Foundation List

/-! ## Templates -/

structure WorkflowTemplateStep where
  key : String
  label : String
  deriving DecidableEq

structure WorkflowGuardRule where
  commands : List String
  beforeStepKey : String
  message : String
  deriving DecidableEq

structure WorkflowTemplate where
  id : String
  steps : List WorkflowTemplateStep
  guards : List WorkflowGuardRule
  deriving DecidableEq

inductive WorkflowError where
  | unknownTemplate (message : String)
  | invalidStep (message : String)
  | orderingViolation (message : String)
  | noActiveTemplate (message : String)
  | invalidConfig (message : String)
  | guardBlocked (message : String)
  deriving DecidableEq

abbrev Answer (α : Type) := Except (Stop WorkflowError) α

class CharTables where
  isWhitespace : Char → Bool
  escapeDebug : Char → List Char

def maxTemplateCount : Nat := 32

def maxStepsPerTemplate : Nat := 100

def maxIssueTitleLen : Nat := 500

def nameChars : Nat := 64

variable {templates : List WorkflowTemplate}

section

variable [CharTables]

def blank (text : String) : Bool := text.toList.all CharTables.isWhitespace

def printableName (text : String) : String :=
  let escaped := text.toList.flatMap CharTables.escapeDebug
  String.ofList (escaped.take nameChars ++ if nameChars < escaped.length then ['…'] else [])

def invalidConfig (holds : Bool) (message : String) : Except WorkflowError Unit :=
  require holds (.invalidConfig message)

def validateSteps (id : String) : List WorkflowTemplateStep → List String →
    Except WorkflowError Unit
  | [], _ => .ok ()
  | step :: rest, seen => do
    invalidConfig (!blank step.key) s!"template '{id}' has a step with empty key"
    invalidConfig (!seen.contains step.key)
      s!"template '{id}' has duplicate step key '{printableName step.key}'"
    validateSteps id rest (step.key :: seen)

def validateTemplate (template : WorkflowTemplate) (seen : List String) :
    Except WorkflowError Unit := do
  let id := printableName template.id
  invalidConfig (!blank template.id) "template id cannot be empty"
  invalidConfig (!seen.contains template.id) s!"duplicate template id: {id}"
  invalidConfig (!template.steps.isEmpty) s!"template '{id}' has no steps"
  invalidConfig (decide (template.steps.length ≤ maxStepsPerTemplate))
    s!"template '{id}' has too many steps: {template.steps.length} > {maxStepsPerTemplate}"
  validateSteps id template.steps []
  inOrder (template.guards.map fun guard =>
    invalidConfig (template.steps.any fun step => step.key == guard.beforeStepKey)
      s!"template '{id}' guard references unknown step key '{printableName guard.beforeStepKey}'")

def validateEach : List WorkflowTemplate → List String → Except WorkflowError Unit
  | [], _ => .ok ()
  | template :: rest, seen => do
    validateTemplate template seen
    validateEach rest (template.id :: seen)

def validateTemplates (templates : List WorkflowTemplate) : Except WorkflowError Unit := do
  invalidConfig (decide (templates.length ≤ maxTemplateCount))
    s!"too many workflow templates: {templates.length} > {maxTemplateCount}"
  validateEach templates []

lemma validateEach_eq_ok {seen : List String}
    (h : validateEach templates seen = .ok ()) :
    (templates.map (·.id)).Nodup ∧ ∀ template ∈ templates, template.id ∉ seen := by
  induction templates generalizing seen with
  | nil => exact ⟨nodup_nil, nofun⟩
  | cons template rest ih =>
    obtain ⟨_, htemplate, h⟩ := bind_eq_ok.mp h
    obtain ⟨_, _, htemplate⟩ := bind_eq_ok.mp htemplate
    obtain ⟨_, hfresh, _⟩ := bind_eq_ok.mp htemplate
    have hnotseen : template.id ∉ seen := by
      have := require_eq_ok.mp hfresh
      simpa using this
    obtain ⟨hnodup, hrest⟩ := ih h
    constructor
    · refine nodup_cons.mpr ⟨fun hmem => ?_, hnodup⟩
      obtain ⟨other, hother, hid⟩ := mem_map.mp hmem
      exact hrest other hother (hid ▸ mem_cons_self)
    intro other hother
    rcases mem_cons.mp hother with rfl | hother
    · exact hnotseen
    · exact fun hseen => hrest other hother (mem_cons_of_mem _ hseen)

end

/-! ## The engine -/

structure WorkflowRunPersisted where
  templateId : Option String
  done : List Bool
  activeIssue : Option (Nat × String)

structure WorkflowRun where
  templateId : Option String
  templateIndex : Option Nat
  done : List Bool
  activeIssue : Option (Nat × String)

def WorkflowRun.empty : WorkflowRun :=
  { templateId := none, templateIndex := none, done := [], activeIssue := none }

inductive WorkflowMode where
  | selectingTemplate
  | active
  | complete
  deriving DecidableEq

structure WorkflowEngine where
  templates : List WorkflowTemplate
  run : WorkflowRun
  guardsEnabled : Bool
  bound : Bool
  revision : Nat

def takeBytes : Nat → List Char → List Char
  | _, [] => []
  | bytes, c :: rest =>
    if c.utf8Size ≤ bytes then c :: takeBytes (bytes - c.utf8Size) rest else []

def truncateIssueTitle (title : String) : String :=
  if title.utf8ByteSize ≤ maxIssueTitleLen then title
  else String.ofList (takeBytes maxIssueTitleLen title.toList)

def upToGap : Bool → List Bool → List Bool
  | _, [] => []
  | seenGap, flag :: rest =>
    let kept := flag && !seenGap
    kept :: upToGap (seenGap || !kept) rest

lemma upToGap_length (seenGap : Bool) (flags : List Bool) :
    (upToGap seenGap flags).length = flags.length := by
  induction flags generalizing seenGap with
  | nil => rfl
  | cons flag rest ih => rw [upToGap, length_cons, length_cons, ih]

def resized (done : List Bool) (steps : Nat) : List Bool :=
  done.take steps ++ List.replicate (steps - done.length) false

lemma resized_length (done : List Bool) (steps : Nat) : (resized done steps).length = steps := by
  rw [resized, length_append, length_take, length_replicate]
  omega

namespace WorkflowEngine

def new [CharTables] (builtIn templates : List WorkflowTemplate) (guardsEnabled : Bool) :
    Except WorkflowError WorkflowEngine := do
  let library := if templates.isEmpty then builtIn else templates
  validateTemplates library
  pure
    { templates := library
      run := .empty
      guardsEnabled := guardsEnabled
      bound := false
      revision := 1 }

variable (engine : WorkflowEngine)

def bumpRevision : WorkflowEngine :=
  { engine with revision := max ((engine.revision + 1) % 2 ^ 64) 1 }

def withRun (run : WorkflowRun) : WorkflowEngine :=
  { engine with run := run }.bumpRevision

def setBound (bound : Bool) : WorkflowEngine :=
  { engine with bound := bound }

def activeTemplate : Option WorkflowTemplate :=
  engine.run.templateIndex.bind (engine.templates[·]?)

def templateAt (id : String) : Option Nat :=
  position (fun template => template.id == id) engine.templates

def mode : WorkflowMode :=
  match engine.activeTemplate with
  | none => .selectingTemplate
  | some template =>
    if (engine.run.done.take template.steps.length).all id then .complete else .active

/-- The run restored from a session, onto the template it names if the library has
it; its flags are made those of an orderly run. -/
def restoreRun (persisted : WorkflowRunPersisted) : WorkflowEngine :=
  let activeIssue := persisted.activeIssue.map fun (number, title) =>
    (number, truncateIssueTitle title)
  let found := persisted.templateId.bind fun id =>
    (engine.templateAt id).bind fun index =>
      (engine.templates[index]?).map fun template => (id, index, template)
  match found with
  | some (id, index, template) =>
    { engine with
      run :=
        { templateId := some id
          templateIndex := some index
          done := upToGap false (resized persisted.done template.steps.length)
          activeIssue := activeIssue } }
  | none => { engine with run := { WorkflowRun.empty with activeIssue := activeIssue } }

def mayLeave (id : String) : Answer Unit :=
  match engine.bound, engine.run.templateId with
  | true, some current =>
    if current == id then .ok ()
    else refuse (.unknownTemplate
      s!"agent is bound to workflow template '{current}' and cannot select '{id}'")
  | _, _ => .ok ()

def selectTemplate (id : String) (issue : Option (Nat × String)) : Answer WorkflowEngine := do
  engine.mayLeave id
  let index ← okOr (engine.templateAt id)
    (.refused (.unknownTemplate s!"unknown template: {id}"))
  let template ← okOr engine.templates[index]? (.panicked .outOfBounds)
  let issue := issue.map fun (number, title) => (number, truncateIssueTitle title)
  pure (engine.withRun
    { templateId := some template.id
      templateIndex := some index
      done := List.replicate template.steps.length false
      activeIssue := issue.or engine.run.activeIssue })

def requireActiveTemplate : Answer WorkflowTemplate :=
  okOr engine.activeTemplate (.refused (.noActiveTemplate
    ("no active workflow template: call workflow(action=\"select_template\", " ++
      "template=\"<id>\") first")))

def validateStepIndex (step len : Nat) : Answer Nat :=
  if step = 0 ∨ len < step then
    refuse (.invalidStep s!"invalid step {step}: must be 1-{len}")
  else .ok (step - 1)

def doneAt (index : Nat) : Answer Bool :=
  okOr engine.run.done[index]? (.panicked .outOfBounds)

def setDone (index : Nat) (flag : Bool) : Answer WorkflowEngine :=
  if index < engine.run.done.length then
    .ok (engine.withRun { engine.run with done := engine.run.done.set index flag })
  else .error (.panicked .outOfBounds)

def priorDone (template : WorkflowTemplate)
    (refusal : Nat → WorkflowTemplateStep → WorkflowError) (index : Nat) : Answer Unit :=
  inOrder ((List.range index).map fun prior => do
    let done ← engine.doneAt prior
    if done then .ok ()
    else do
      let step ← okOr template.steps[prior]? (.panicked .outOfBounds)
      refuse (refusal prior step))

def check (step : Nat) : Answer WorkflowEngine := do
  let template ← engine.requireActiveTemplate
  let index ← validateStepIndex step template.steps.length
  engine.priorDone template
    (fun prior earlier => .orderingViolation s!"complete step {prior + 1} ({earlier.label}) first")
    index
  engine.setDone index true

def mark (step : Nat) (flag : Bool) : Answer WorkflowEngine := do
  let template ← engine.requireActiveTemplate
  let index ← validateStepIndex step template.steps.length
  engine.setDone index flag

def uncheck (step : Nat) : Answer WorkflowEngine := engine.mark step false

def skip (step : Nat) : Answer WorkflowEngine := engine.mark step true

def reset : WorkflowEngine :=
  match engine.bound, engine.activeTemplate with
  | true, some template =>
    engine.withRun { engine.run with done := List.replicate template.steps.length false }
  | true, none => engine.bumpRevision
  | false, _ => engine.withRun .empty

def setIssue (number : Nat) (title : String) : WorkflowEngine :=
  engine.withRun { engine.run with activeIssue := some (number, truncateIssueTitle title) }

def clearIssue : WorkflowEngine :=
  engine.withRun { engine.run with activeIssue := none }

inductive Op where
  | selectTemplate (id : String) (issue : Option (Nat × String))
  | check (step : Nat)
  | uncheck (step : Nat)
  | skip (step : Nat)
  | reset
  | setIssue (number : Nat) (title : String)
  | clearIssue
  | restoreRun (persisted : WorkflowRunPersisted)

def settled (answer : Answer WorkflowEngine) : Answer Unit × WorkflowEngine :=
  match answer with
  | .ok next => (.ok (), next)
  | .error stop => (.error stop, engine)

def step (engine : WorkflowEngine) (op : Op) : Answer Unit × WorkflowEngine :=
  match op with
  | .selectTemplate id issue => engine.settled (engine.selectTemplate id issue)
  | .check step => engine.settled (engine.check step)
  | .uncheck step => engine.settled (engine.uncheck step)
  | .skip step => engine.settled (engine.skip step)
  | .reset => (.ok (), engine.reset)
  | .setIssue number title => (.ok (), engine.setIssue number title)
  | .clearIssue => (.ok (), engine.clearIssue)
  | .restoreRun persisted => (.ok (), engine.restoreRun persisted)

/-! ## Sound engines -/

structure Sound (engine : WorkflowEngine) : Prop where
  ids : (engine.templates.map (·.id)).Nodup
  follows : ∀ index, engine.run.templateIndex = some index →
    ∃ template, engine.templates[index]? = some template ∧
      engine.run.templateId = some template.id ∧
      engine.run.done.length = template.steps.length
  idle : engine.run.templateIndex = none → engine.run.templateId = none

variable {engine next : WorkflowEngine} {builtIn : List WorkflowTemplate}

lemma sound_of_new [CharTables]
    {guardsEnabled : Bool} (h : new builtIn templates guardsEnabled = .ok engine) :
    engine.Sound := by
  obtain ⟨_, hvalid, h⟩ := bind_eq_ok.mp h
  obtain ⟨_, _, heach⟩ := bind_eq_ok.mp hvalid
  rw [← pure_eq_ok.mp h]
  exact ⟨(validateEach_eq_ok heach).1, nofun, fun _ => rfl⟩

lemma Sound.of_active (h : engine.Sound) {template : WorkflowTemplate}
    (hactive : engine.activeTemplate = some template) :
    ∃ index, engine.run.templateIndex = some index ∧ engine.templates[index]? = some template ∧
      engine.run.templateId = some template.id ∧
      engine.run.done.length = template.steps.length := by
  obtain ⟨index, hindex, hget⟩ := Option.bind_eq_some_iff.mp hactive
  obtain ⟨found, hfound, hid, hdone⟩ := h.follows index hindex
  cases Option.some.inj (hfound.symm.trans hget)
  exact ⟨index, hindex, hget, hid, hdone⟩

variable {index : Nat}

lemma templateAt_eq_some {id : String} (h : engine.templateAt id = some index) :
    ∃ template, engine.templates[index]? = some template ∧ template.id = id := by
  obtain ⟨⟨template, hget, hid⟩, _⟩ := position_eq_some_iff.mp h
  exact ⟨template, hget, beq_iff_eq.mp hid⟩

lemma setDone_eq_ok {flag : Bool} (h : engine.setDone index flag = .ok next) :
    next = engine.withRun { engine.run with done := engine.run.done.set index flag } := by
  unfold setDone at h
  split at h
  · exact (Except.ok.inj h).symm
  · cases h

lemma mark_eq_ok {step : Nat} {flag : Bool} (h : engine.mark step flag = .ok next) :
    ∃ index, next = engine.withRun { engine.run with done := engine.run.done.set index flag } := by
  simp only [mark, bind_eq_ok] at h
  obtain ⟨_, -, index, -, h⟩ := h
  exact ⟨index, setDone_eq_ok h⟩

lemma check_eq_ok {step : Nat} (h : engine.check step = .ok next) :
    ∃ index, next = engine.withRun { engine.run with done := engine.run.done.set index true } := by
  simp only [check, bind_eq_ok] at h
  obtain ⟨_, -, index, -, _, -, h⟩ := h
  exact ⟨index, setDone_eq_ok h⟩

lemma selectTemplate_eq_ok {id : String} {issue : Option (Nat × String)}
    (h : engine.selectTemplate id issue = .ok next) :
    engine.mayLeave id = .ok () ∧ ∃ index template, engine.templates[index]? = some template ∧
      template.id = id ∧ ∃ activeIssue, next = engine.withRun
        { templateId := some template.id
          templateIndex := some index
          done := List.replicate template.steps.length false
          activeIssue := activeIssue } := by
  simp only [selectTemplate, bind_eq_ok] at h
  obtain ⟨_, hleave, index, hindex, template, htemplate, h⟩ := h
  have hget := okOr_eq_ok.mp htemplate
  obtain ⟨found, hfound, hid⟩ := templateAt_eq_some (okOr_eq_ok.mp hindex)
  cases Option.some.inj (hfound.symm.trans hget)
  exact ⟨hleave, index, template, hget, hid, _, (pure_eq_ok.mp h).symm⟩

lemma restoreRun_cases (engine : WorkflowEngine) (persisted : WorkflowRunPersisted) :
    (∃ index template, engine.templates[index]? = some template ∧
      persisted.templateId = some template.id ∧ engine.restoreRun persisted = { engine with
          run :=
            { templateId := some template.id
              templateIndex := some index
              done := upToGap false (resized persisted.done template.steps.length)
              activeIssue := persisted.activeIssue.map fun (number, title) =>
                (number, truncateIssueTitle title) } }) ∨
    (∀ template ∈ engine.templates, persisted.templateId ≠ some template.id) ∧
      (engine.restoreRun persisted).templates = engine.templates ∧
      (engine.restoreRun persisted).bound = engine.bound ∧
      (engine.restoreRun persisted).run.templateIndex = none ∧
      (engine.restoreRun persisted).run.templateId = none := by
  cases hid : persisted.templateId with
  | none =>
    simp [restoreRun, hid, WorkflowRun.empty]
  | some id =>
    cases hat : engine.templateAt id with
    | none =>
      refine .inr ⟨fun template hmem h => ?_, ?_⟩
      · obtain ⟨index, hindex⟩ := mem_iff_getElem?.mp hmem
        refine position_eq_none_iff.mp hat index ⟨template, hindex, ?_⟩
        exact beq_iff_eq.mpr (Option.some.inj h).symm
      · simp [restoreRun, hid, hat, WorkflowRun.empty]
    | some index =>
      obtain ⟨template, hget, rfl⟩ := templateAt_eq_some hat
      simp [restoreRun, hid, hat, hget]

/-- The run after an operation: it goes on, a template has been taken up, or it has been
let go. -/
inductive Turned (engine : WorkflowEngine) (op : Op) (run : WorkflowRun) : Prop
  | goesOn (index : run.templateIndex = engine.run.templateIndex)
      (id : run.templateId = engine.run.templateId)
      (done : run.done.length = engine.run.done.length)
  | takenUp (index : Nat) (template : WorkflowTemplate)
      (get : engine.templates[index]? = some template) (at_ : run.templateIndex = some index)
      (id : run.templateId = some template.id) (done : run.done.length = template.steps.length)
      (named : engine.mayLeave template.id = .ok () ∨
        ∃ persisted, op = .restoreRun persisted ∧ persisted.templateId = some template.id)
  | letGo (index : run.templateIndex = none) (id : run.templateId = none)
      (free : engine.bound = false ∨ ∃ persisted, op = .restoreRun persisted ∧
        ∀ template ∈ engine.templates, persisted.templateId ≠ some template.id)

structure Stepped (engine : WorkflowEngine) (op : Op) (next : WorkflowEngine) : Prop where
  templates : next.templates = engine.templates
  bound : next.bound = engine.bound
  run : engine.Turned op next.run

lemma Sound.stepped (h : engine.Sound) (op : Op) : engine.Stepped op (engine.step op).2 := by
  have hset : ∀ index flag, engine.Stepped op
      (engine.withRun { engine.run with done := engine.run.done.set index flag }) :=
    fun index flag => ⟨rfl, rfl, .goesOn rfl rfl length_set⟩
  have hsettled : ∀ answer : Answer WorkflowEngine,
      (∀ next, answer = .ok next → engine.Stepped op next) →
        engine.Stepped op (engine.settled answer).2 := by
    intro answer hnext
    cases answer with
    | ok next => exact hnext next rfl
    | error stop => exact ⟨rfl, rfl, .goesOn rfl rfl rfl⟩
  cases op with
  | selectTemplate id issue =>
    refine hsettled _ fun next hnext => ?_
    obtain ⟨hleave, index, template, hget, rfl, activeIssue, rfl⟩ := selectTemplate_eq_ok hnext
    exact ⟨rfl, rfl, .takenUp index template hget rfl rfl length_replicate (.inl hleave)⟩
  | check number =>
    refine hsettled _ fun next hnext => ?_
    obtain ⟨index, rfl⟩ := check_eq_ok hnext
    exact hset index true
  | uncheck number | skip number =>
    refine hsettled _ fun next hnext => ?_
    obtain ⟨index, rfl⟩ := mark_eq_ok hnext
    exact hset index _
  | reset =>
    change engine.Stepped _ engine.reset
    unfold reset
    split
    · rename_i hactive
      obtain ⟨_, _, _, _, hdone⟩ := h.of_active hactive
      exact ⟨rfl, rfl, .goesOn rfl rfl (length_replicate.trans hdone.symm)⟩
    · exact ⟨rfl, rfl, .goesOn rfl rfl rfl⟩
    · rename_i hfree
      exact ⟨rfl, rfl, .letGo rfl rfl (.inl hfree)⟩
  | setIssue _ _ | clearIssue => exact ⟨rfl, rfl, .goesOn rfl rfl rfl⟩
  | restoreRun persisted =>
    change engine.Stepped _ (engine.restoreRun persisted)
    rcases restoreRun_cases engine persisted with
      ⟨index, template, hget, hid, hrun⟩ | ⟨hnone, htemplates, hbound, hindex, hid⟩
    · rw [hrun]
      exact ⟨rfl, rfl, .takenUp index template hget rfl rfl
        ((upToGap_length false _).trans (resized_length _ _)) (.inr ⟨persisted, rfl, hid⟩)⟩
    · exact ⟨htemplates, hbound, .letGo hindex hid (.inr ⟨persisted, rfl, hnone⟩)⟩

lemma sound_step (engine : WorkflowEngine) (op : Op) (h : engine.Sound) :
    (engine.step op).2.Sound := by
  obtain ⟨htemplates, -, hrun⟩ := h.stepped op
  have hids := htemplates.symm ▸ h.ids
  cases hrun with
  | goesOn hindex hid hdone =>
    refine ⟨hids, fun index hat => ?_, fun hat => hid.trans (h.idle (hindex.symm.trans hat))⟩
    obtain ⟨template, hget, hsame, hlen⟩ := h.follows index (hindex.symm.trans hat)
    exact ⟨template, htemplates.symm ▸ hget, hid.trans hsame, hdone.trans hlen⟩
  | takenUp index template hget hindex hid hdone =>
    refine ⟨hids, fun index' hat => ?_, fun hat => nomatch hindex.symm.trans hat⟩
    cases Option.some.inj (hindex.symm.trans hat)
    exact ⟨template, htemplates.symm ▸ hget, hid, hdone⟩
  | letGo hindex hid => exact ⟨hids, fun _ hat => (nomatch hindex.symm.trans hat), fun _ => hid⟩

lemma sound_exec [CharTables] {guardsEnabled : Bool}
    (h : new builtIn templates guardsEnabled = .ok engine) (ops : List Op) :
    (exec step engine ops).Sound :=
  exec_invariant sound_step (sound_of_new h) ops

/-! ## Bound engines -/

structure BoundTo (engine : WorkflowEngine) (template : WorkflowTemplate) : Prop where
  sound : engine.Sound
  bound : engine.bound = true
  active : engine.activeTemplate = some template

variable {template : WorkflowTemplate}

lemma mode_ne_selectingTemplate_iff :
    engine.mode ≠ .selectingTemplate ↔ engine.activeTemplate.isSome = true := by
  unfold mode
  cases engine.activeTemplate with
  | none => simp
  | some template =>
    refine iff_of_true ?_ rfl
    dsimp only
    split <;> exact nofun

lemma Sound.eq_of_id (h : engine.Sound) {other : WorkflowTemplate}
    (hget : engine.templates[index]? = some other) (hmem : template ∈ engine.templates)
    (hid : other.id = template.id) : other = template :=
  inj_on_of_nodup_map h.ids (mem_of_getElem? hget) hmem hid

lemma BoundTo.mem (h : engine.BoundTo template) : template ∈ engine.templates := by
  obtain ⟨_, _, hget, _⟩ := h.sound.of_active h.active
  exact mem_of_getElem? hget

lemma BoundTo.mayLeave_eq_ok (h : engine.BoundTo template) {id : String}
    (hleave : engine.mayLeave id = .ok ()) : id = template.id := by
  obtain ⟨_, _, _, hid, _⟩ := h.sound.of_active h.active
  simp only [mayLeave, h.bound, hid] at hleave
  split at hleave
  · rename_i hsame
    exact (beq_iff_eq.mp hsame).symm
  · cases hleave

lemma BoundTo.step (h : engine.BoundTo template) {op : Op}
    (hop : ∀ persisted, op = .restoreRun persisted → persisted.templateId = some template.id) :
    (engine.step op).2.BoundTo template := by
  obtain ⟨htemplates, hbound, hrun⟩ := h.sound.stepped op
  refine ⟨sound_step engine op h.sound, hbound.trans h.bound, ?_⟩
  rw [activeTemplate, htemplates]
  cases hrun with
  | goesOn hindex =>
    rw [hindex]
    exact h.active
  | takenUp index other hget hindex _ _ hnamed =>
    have hid : other.id = template.id := by
      rcases hnamed with hleave | ⟨persisted, rfl, hid⟩
      · exact h.mayLeave_eq_ok hleave
      · exact Option.some.inj (hid.symm.trans (hop persisted rfl))
    rw [hindex, ← h.sound.eq_of_id hget h.mem hid]
    exact hget
  | letGo _ _ hfree =>
    rcases hfree with hfree | ⟨persisted, rfl, hnone⟩
    · exact nomatch h.bound.symm.trans hfree
    · exact absurd (hop persisted rfl) (hnone template h.mem)

lemma templateId_of_restoreRun (engine : WorkflowEngine) {persisted : WorkflowRunPersisted}
    (hactive : (engine.restoreRun persisted).activeTemplate = some template) :
    persisted.templateId = some template.id := by
  rcases restoreRun_cases engine persisted with ⟨index, other, hget, hid, hrun⟩ | ⟨_, _, _, hidx, _⟩
  · rw [hrun] at hactive
    cases Option.some.inj (hget.symm.trans hactive)
    exact hid
  · rw [activeTemplate, hidx] at hactive
    cases hactive

lemma BoundTo.exec (h : engine.BoundTo template) {ops : List Op}
    (hops : ∀ persisted, Op.restoreRun persisted ∈ ops → persisted.templateId = some template.id) :
    (Foundation.exec WorkflowEngine.step engine ops).BoundTo template := by
  induction ops generalizing engine with
  | nil => exact h
  | cons op rest ih =>
    refine ih (h.step ?_) fun persisted hmem => hops persisted (mem_cons_of_mem op hmem)
    rintro persisted rfl
    exact hops persisted mem_cons_self

/-- For an engine that has come to follow a template and is then bound to it: through
a run of operations it keeps following the template, and never selects one, exactly
when every run restored on the way names that template. -/
theorem bound_template_kept_iff [CharTables] (builtIn templates : List WorkflowTemplate)
    (guardsEnabled : Bool) (created : WorkflowEngine) (earlier ops : List Op)
    (template : WorkflowTemplate) (hnew : new builtIn templates guardsEnabled = .ok created)
    (hactive : (exec step created earlier).activeTemplate = some template) :
    let engine := (exec step created earlier).setBound true
    (∀ part, part <+: ops → (exec step engine part).activeTemplate = some template ∧
        (exec step engine part).mode ≠ .selectingTemplate) ↔
      ∀ persisted, Op.restoreRun persisted ∈ ops → persisted.templateId = some template.id := by
  intro engine
  have hsound := sound_exec hnew earlier
  have hbound : engine.BoundTo template := ⟨⟨hsound.ids, hsound.follows, hsound.idle⟩, rfl, hactive⟩
  constructor
  · intro hkept persisted hmem
    obtain ⟨before, after, rfl⟩ := append_of_mem hmem
    refine templateId_of_restoreRun (exec step engine before) ?_
    have hprefix : before ++ [Op.restoreRun persisted] <+:
      before ++ Op.restoreRun persisted :: after :=
      ⟨after, by simp⟩
    have hactive := (hkept _ hprefix).1
    rw [exec_append] at hactive
    exact hactive
  · intro hnamed part hpart
    have hlast : (exec step engine part).BoundTo template :=
      hbound.exec fun persisted hmem => hnamed persisted (hpart.subset hmem)
    refine ⟨hlast.active, mode_ne_selectingTemplate_iff.mpr ?_⟩
    rw [hlast.active]
    rfl

/-! ## Saved runs -/

def persistedRun (engine : WorkflowEngine) : Option WorkflowRunPersisted :=
  if engine.run.templateId.isNone && engine.run.activeIssue.isNone then none
  else some ⟨engine.run.templateId, engine.run.done, engine.run.activeIssue⟩

def visibleStepCount (engine : WorkflowEngine) : Nat :=
  match engine.activeTemplate with
  | none => 0
  | some template =>
    match engine.mode with
    | .selectingTemplate => 0
    | .complete => template.steps.length
    | .active => ((position (!·) (engine.run.done.take template.steps.length)).map (· + 1)).getD
        template.steps.length

/-- The first gap is where it was, and the flags up to it are as they were. -/
lemma upToGap_shows (done : List Bool) : position (!·) (upToGap false done) = position (!·) done ∧
    ∀ n, (∀ gap, position (!·) done = some gap → n ≤ gap + 1) →
      (upToGap false done).take n = done.take n := by
  induction done with
  | nil => exact ⟨rfl, fun _ _ => rfl⟩
  | cons flag rest ih =>
    obtain ⟨hgap, hsame⟩ := ih
    unfold position at *
    cases flag with
    | false => exact ⟨rfl, fun n hn => by match n, hn 0 rfl with | 0, _ | 1, _ => rfl⟩
    | true =>
      refine ⟨by simp [upToGap, List.findIdx?_cons, hgap], fun n hn => ?_⟩
      cases n with
      | zero => rfl
      | succ n =>
        refine congrArg (true :: ·) (hsame n fun gap h => ?_)
        simpa using hn (gap + 1) (by simp [List.findIdx?_cons, h])

lemma exec_templates (h : engine.Sound) (ops : List Op) :
    (exec step engine ops).templates = engine.templates := by
  induction ops generalizing engine with
  | nil => rfl
  | cons op rest ih => exact (ih (sound_step engine op h)).trans (h.stepped op).templates

lemma all_eq_isNone (done : List Bool) : done.all id = (position (!·) done).isNone := by
  rw [Bool.eq_iff_iff]
  simp [position]

/-- A run saved after any operations and restored into a new engine shows what it showed:
its template, its mode and the flags of the visible steps. -/
theorem saved_run_restores [CharTables] {builtIn templates : List WorkflowTemplate}
    {guardsEnabled : Bool} {created : WorkflowEngine}
    (hnew : new builtIn templates guardsEnabled = .ok created) (ops : List Op) :
    let saved := exec step created ops
    let restored := saved.persistedRun.elim created created.restoreRun
    restored.activeTemplate = saved.activeTemplate ∧ restored.mode = saved.mode ∧
      restored.visibleStepCount = saved.visibleStepCount ∧
      restored.run.done.take saved.visibleStepCount =
        saved.run.done.take saved.visibleStepCount := by
  intro saved restored
  have hsound : saved.Sound := sound_exec hnew ops
  have hkept : saved.templates = created.templates := exec_templates (sound_of_new hnew) ops
  cases hactive : saved.activeTemplate with
  | none =>
    have hnone : restored.activeTemplate = none := by
      have hid : saved.run.templateId = none := hsound.idle <| Option.eq_none_iff_forall_ne_some.mpr
        fun index hat => by
          obtain ⟨_, hget, _⟩ := hsound.follows index hat
          simp [activeTemplate, hat, hget] at hactive
      obtain ⟨_, _, hnew⟩ := bind_eq_ok.mp hnew
      cases hissue : saved.run.activeIssue <;>
        simp [restored, persistedRun, hid, hissue, restoreRun, activeTemplate, WorkflowRun.empty,
          ← pure_eq_ok.mp hnew]
    simp [mode, visibleStepCount, hactive, hnone]
  | some template =>
    obtain ⟨index, -, hget, hid, hlen⟩ := hsound.of_active hactive
    have hmem := mem_of_getElem? hget
    have hsaved : restored =
        created.restoreRun ⟨some template.id, saved.run.done, saved.run.activeIssue⟩ := by
      simp [restored, persistedRun, hid]
    rcases restoreRun_cases created ⟨some template.id, saved.run.done, saved.run.activeIssue⟩ with
      ⟨_, other, hother, hsame, hrun⟩ | ⟨hnone, _⟩
    · obtain rfl := hsound.eq_of_id (hkept ▸ hother) hmem (Option.some.inj hsame).symm
      rw [← hsaved] at hrun
      have hdone : restored.run.done = upToGap false saved.run.done := by
        simp [hrun, resized, ← hlen]
      have hfollows : restored.activeTemplate = some other := by
        rw [hrun]
        exact hother
      obtain ⟨hgap, hshown⟩ := upToGap_shows saved.run.done
      simp only [hdone, hfollows, mode, visibleStepCount, hactive, ← hlen, take_length, hgap,
        take_of_length_le (upToGap_length false saved.run.done).le, all_eq_isNone, true_and]
      refine hshown _ fun gap h => ?_
      simp [h]
    · exact absurd rfl (hnone template (hkept ▸ hmem))

/-! ## A bound engine that leaves its template -/

section

local instance asciiTables : CharTables where
  isWhitespace c := c == ' ' || '\t' ≤ c && c ≤ '\r'
  escapeDebug c := [c]

def sampleTemplate : WorkflowTemplate :=
  { id := "review", steps := [{ key := "read", label := "Read" }], guards := [] }

def sampleEngine : WorkflowEngine :=
  { templates := [sampleTemplate], run := .empty, guardsEnabled := false, bound := false,
    revision := 1 }

def releaseEngine : WorkflowEngine :=
  let steps := ["read", "test", "tag"].map fun key => { key := key, label := key }
  { sampleEngine with templates := [{ id := "release", steps := steps, guards := [] }] }

/-- The third of three steps is skipped before the second is done: its flag is lost, and what
is shown, up to the second step, is not. -/
theorem saved_run_restores_sample :
    let restored := releaseEngine.restoreRun ⟨some "release", [true, false, true], none⟩
    restored.run.done = [true, false, false] ∧ restored.mode = .active ∧
      restored.visibleStepCount = 2 ∧ restored.run.done.take 2 = [true, false] := by
  obtain ⟨-, hmode, hcount, hdone⟩ := saved_run_restores
    (by rfl : new [] releaseEngine.templates false = .ok releaseEngine)
    [.selectTemplate "release" none, .check 1, .skip 3]
  exact ⟨rfl, hmode, hcount, hdone⟩

theorem bound_template_kept_sample :
    (exec step ((exec step sampleEngine [.selectTemplate "review" none]).setBound true)
      [.check 1, .reset, .restoreRun ⟨some "review", [true], none⟩]).activeTemplate =
        some sampleTemplate := by
  have hkept := (bound_template_kept_iff [] [sampleTemplate] false sampleEngine
    [.selectTemplate "review" none] [.check 1, .reset, .restoreRun ⟨some "review", [true], none⟩]
    sampleTemplate (by rfl) (by rfl)).mpr (by simp [sampleTemplate])
  exact (hkept _ prefix_rfl).1

/-- A run saved by a session that had only set its issue is restored into a bound
engine: it is selecting a template. -/
theorem restored_run_unbinds :
    (exec step ((exec step sampleEngine [.selectTemplate "review" none]).setBound true)
      [.restoreRun ⟨none, [], some (7, "Typo")⟩]).mode = .selectingTemplate := by
  rfl

end

end WorkflowEngine

end Quecto.Workflow
