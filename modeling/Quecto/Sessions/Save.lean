/-
  Sessions/Save.lean --- the save transaction of a running session.

  A save is a program that waits, and it can be dropped at any of its waits.  `SaveCall.Ends`
  says once how a save can end and what is known of the session then.

  Source: `application/sessions/use_cases/save_session{,_ordinals,_write}.rs`.
-/
import Quecto.Foundation.Fallible
import Quecto.Sessions.Message

namespace Quecto.Sessions

open Foundation Awaiting

/-! ## Sessions and the store -/

inductive RestoreReason where
  | legacyUnspecified
  | ordinaryTuiExitStopped
  | explicitlyKilled
  | unknown
  deriving DecidableEq

structure RosterEntry (ρ : Type) where
  agentUuid : String
  restoreReason : RestoreReason
  row : ρ
  deriving DecidableEq

inductive SaveTrigger where
  | routine
  | explicit (restoreReason : RestoreReason)
  | ordinaryExit
  deriving DecidableEq

def SaveTrigger.forcesFullSave (trigger : SaveTrigger) : Bool := trigger != .routine

inductive SaveMode where
  | full
  | cleanDelta
  deriving DecidableEq

inductive SaveOutcome where
  | ephemeral
  | saved (mode : SaveMode) (persisted : Nat)
  deriving DecidableEq

structure Session (ω ρ : Type) where
  messages : List Message
  workflowRun : Option ω
  subagentRoster : List (RosterEntry ρ)

/-- What a call of the store answers, and the state it leaves; no answer when the save is
dropped while the call is under way. -/
abbrev Answered (φ ε : Type) : Type := Option (Except ε Unit) × φ

structure SessionStore (φ ω ρ ε κ : Type) where
  save : Session ω ρ → κ → φ → Answered φ ε
  saveDelta : List Message → Nat → Option ω → κ → φ → Answered φ ε
  saveCleanDelta : List Message → Nat → Option ω → κ → φ → Answered φ ε

structure Write (ω ρ : Type) where
  mode : SaveMode
  verified : Bool
  messages : List Message
  watermark : Nat
  workflowRun : Option ω
  roster : Option (List (RosterEntry ρ))

def Write.apply {φ ω ρ ε κ : Type} (write : Write ω ρ) (store : SessionStore φ ω ρ ε κ)
    (landing : κ) : φ → Answered φ ε :=
  match write.mode, write.verified with
  | .full, _ => store.save ⟨write.messages, write.workflowRun, write.roster.getD []⟩ landing
  | .cleanDelta, true => store.saveDelta write.messages write.watermark write.workflowRun landing
  | .cleanDelta, false =>
    store.saveCleanDelta write.messages write.watermark write.workflowRun landing

/-! ## The running session -/

structure PersistenceState where
  injectedSystemPrompt : String
  persistedWatermark : Nat
  durablePrefixDirty : Bool
  killingExit : Bool
  deriving DecidableEq

structure SessionLoop (φ ω ρ : Type) where
  messages : List Message
  pending : Option Message
  state : PersistenceState
  durablePrefix : Bool
  unsettled : Bool
  workflowRun : Option ω
  roster : Option (List (RosterEntry ρ))
  ephemeral : Bool
  home : Bool
  nextId : MessageId
  store : φ

inductive Await where
  | barrier
  | inputs
  | present
  | home
  | latches
  | settle
  | commit
  deriving DecidableEq

structure Fate (ε κ : Type) where
  drop : Option Await
  claim : Except ε Unit
  present : Except ε Bool
  landing : κ

structure SaveInputs where
  injectedPrompt : String
  watermark : Nat
  killingExit : Bool

def effectiveRestoreReason (trigger : SaveTrigger) (killingExit : Bool) : RestoreReason :=
  if killingExit then .ordinaryTuiExitStopped
  else
    match trigger with
    | .explicit .unknown | .routine | .ordinaryExit => .legacyUnspecified
    | .explicit restoreReason => restoreReason

def historicalRoster {ρ : Type} (rows : List (RosterEntry ρ)) (restoreReason : RestoreReason) :
    List (RosterEntry ρ) :=
  (rows.map fun row => { row with restoreReason := restoreReason }).mergeSort
    fun a b => !decide (b.agentUuid < a.agentUuid)

variable {φ ω ρ ε κ β : Type}

namespace SessionLoop

variable (loop : SessionLoop φ ω ρ)

def visible : List Message :=
  removeInjectedSystemPrompt loop.messages loop.state.injectedSystemPrompt

def begun (trigger : SaveTrigger) : SessionLoop φ ω ρ :=
  { loop with
    state :=
      { loop.state with
        killingExit :=
          match trigger with
          | .explicit restoreReason => restoreReason == .ordinaryTuiExitStopped
          | .routine | .ordinaryExit => loop.state.killingExit } }

def inputs : SaveInputs :=
  ⟨loop.state.injectedSystemPrompt, loop.state.persistedWatermark, loop.state.killingExit⟩

def stamped (prompt : String) : SessionLoop φ ω ρ :=
  { loop with
    messages := assignMissingOrdinals (removeInjectedSystemPrompt loop.messages prompt) }

def withdraw (ids : List MessageId) (loop : SessionLoop φ ω ρ) : SessionLoop φ ω ρ :=
  { loop with messages := withdrawOrdinals ids loop.messages, unsettled := true }

def reinject (prompt : String) (loop : SessionLoop φ ω ρ) : SessionLoop φ ω ρ :=
  { loop with
    messages := injectSystemPrompt loop.messages prompt loop.nextId
    nextId := loop.nextId + 1 }

def taken : SessionLoop φ ω ρ :=
  { loop with durablePrefix := false, unsettled := false }

def observed (dirty shrank : Bool) : SessionLoop φ ω ρ :=
  { loop with
    state :=
      { loop.state with
        durablePrefixDirty := loop.state.durablePrefixDirty || dirty
        persistedWatermark := if shrank then 0 else loop.state.persistedWatermark } }

def readied (watermark : Nat) : SessionLoop φ ω ρ :=
  loop.taken.observed (loop.durablePrefix || loop.unsettled)
    (decide (loop.messages.length < watermark))

def wrote {ε κ : Type} (loop : SessionLoop φ ω ρ) (store : SessionStore φ ω ρ ε κ) (landing : κ)
    (write : Write ω ρ) : SessionLoop φ ω ρ :=
  { loop with store := (write.apply store landing loop.store).2 }

def latchDirty : SessionLoop φ ω ρ :=
  { loop with state := { loop.state with durablePrefixDirty := true } }

def hand (pending : Message) : SessionLoop φ ω ρ :=
  { loop with pending := some pending }

def persisted (watermark : Nat) : SessionLoop φ ω ρ :=
  { loop with state := { loop.state with persistedWatermark := watermark } }

def committed (persisted : Nat) : SessionLoop φ ω ρ :=
  { loop with
    state := { loop.state with persistedWatermark := persisted, durablePrefixDirty := false } }

end SessionLoop

/-! ## The transaction -/

/-- A step of a save: it waits for locks and for the store, and may be cut off at a wait. -/
abbrev Saving (φ ω ρ : Type) := Awaiting Await (SessionLoop φ ω ρ)

def begin (trigger : SaveTrigger) : Saving φ ω ρ (Option SaveInputs) := do
  wait .inputs
  let loop ← look
  if loop.ephemeral then pure none
  else
    change (·.begun trigger)
    let loop ← look
    pure (some loop.inputs)

/-- A new identity acquires its home before its first write; a home that cannot be
recorded never costs the transcript. -/
def prepareHome (fate : Fate ε κ) : Saving φ ω ρ (Except ε Unit) := do
  let loop ← look
  if !loop.home then pure (.ok ())
  else
    match fate.claim with
    | .error e => pure (.error e)
    | .ok () =>
      wait .present
      match fate.present with
      | .error e => pure (.error e)
      | .ok true => pure (.ok ())
      | .ok false =>
        wait .home
        pure (.ok ())

variable (store : SessionStore φ ω ρ ε κ)

def writing (fate : Fate ε κ) (write : Write ω ρ) : Saving φ ω ρ (Except ε Unit) := do
  let loop ← look
  change (·.wrote store fate.landing write)
  answered (write.apply store fate.landing loop.store).1

def lending {α : Type} (write : Saving φ ω ρ α) : Saving φ ω ρ α := do
  let loop ← look
  change fun lent => { lent with messages := [] }
  ensuring (fun lent => { lent with messages := loop.messages }) write

def writingLive (fate : Fate ε κ) (write : Write ω ρ) : Saving φ ω ρ (Except ε Unit) :=
  if write.mode = .full then lending (writing store fate write) else writing store fate write

def settle (ids : List MessageId) (result : Except ε Unit) : Saving φ ω ρ (Except ε Unit) :=
  match result with
  | .ok () => pure (.ok ())
  | .error e => do
    change (·.withdraw ids)
    wait .settle
    change (·.latchDirty)
    pure (.error e)

def stampedSave (prompt : String) (write : Saving φ ω ρ (β × Except ε Unit))
    (finish : β → Saving φ ω ρ SaveOutcome) :
    Saving φ ω ρ (Except ε SaveOutcome) := do
  let loop ← look
  let ids := unnumbered (removeInjectedSystemPrompt loop.messages prompt)
  change (·.stamped prompt)
  let written ← guarded (·.withdraw ids) write
  change (·.reinject prompt)
  match ← settle ids written.2 with
  | .error e => pure (.error e)
  | .ok () => do
    let outcome ← finish written.1
    pure (.ok outcome)

def transaction (fate : Fate ε κ) (trigger : SaveTrigger)
    (write : SaveInputs → Saving φ ω ρ (β × Except ε Unit))
    (finish : β → Saving φ ω ρ SaveOutcome) :
    Saving φ ω ρ (Except ε SaveOutcome) := do
  wait .barrier
  match ← begin trigger with
  | none => pure (.ok .ephemeral)
  | some inputs =>
    match ← prepareHome fate with
    | .error e => pure (.error e)
    | .ok () => stampedSave inputs.injectedPrompt (write inputs) finish

/-! ## The two saves -/

def SessionLoop.plan (loop : SessionLoop φ ω ρ) (trigger : SaveTrigger) (inputs : SaveInputs) :
    Write ω ρ :=
  let restoreReason := effectiveRestoreReason trigger inputs.killingExit
  let roster := loop.roster.map fun rows =>
    if restoreReason = .ordinaryTuiExitStopped then [] else historicalRoster rows restoreReason
  { mode :=
      if trigger.forcesFullSave || loop.state.durablePrefixDirty || roster.isSome then .full
      else .cleanDelta
    verified := false
    messages := loop.messages
    watermark := if loop.messages.length < inputs.watermark then 0 else inputs.watermark
    workflowRun := loop.workflowRun
    roster := roster }

def saveWrite (fate : Fate ε κ) (trigger : SaveTrigger) (inputs : SaveInputs) :
    Saving φ ω ρ ((SaveMode × Nat) × Except ε Unit) := do
  let before ← look
  -- The observations are taken before the wait; the state learns of them after it.
  change (·.taken)
  wait .latches
  change (·.observed (before.durablePrefix || before.unsettled)
    (decide (before.messages.length < inputs.watermark)))
  let loop ← look
  let write := loop.plan trigger inputs
  let result ← writingLive store fate write
  pure ((write.mode, loop.messages.length), result)

def save (fate : Fate ε κ) (trigger : SaveTrigger) : Saving φ ω ρ (Except ε SaveOutcome) :=
  transaction fate trigger (saveWrite store fate trigger) fun written => do
    wait .commit
    change (·.committed written.2)
    pure (.saved written.1 written.2)

def SessionLoop.withPending (loop : SessionLoop φ ω ρ) (pending : Message) : List Message :=
  assignMissingOrdinals (loop.messages ++ [pending])

def SessionLoop.planPending (loop : SessionLoop φ ω ρ) (pending : Message) (inputs : SaveInputs) :
    Write ω ρ :=
  let roster := loop.roster.map (historicalRoster · .legacyUnspecified)
  { mode := if roster.isSome then .full else .cleanDelta
    verified := true
    messages := loop.withPending pending
    watermark := inputs.watermark
    workflowRun := loop.workflowRun
    roster := roster }

def pendingWrite (fate : Fate ε κ) (pending : Message) (inputs : SaveInputs) :
    Saving φ ω ρ ((SaveMode × List Message) × Except ε Unit) := do
  let loop ← look
  let write := loop.planPending pending inputs
  let result ← writing store fate write
  pure ((write.mode, write.messages), result)

def saveWithPendingPrompt (fate : Fate ε κ) (pending : Message) :
    Saving φ ω ρ (Except ε SaveOutcome) := do
  change (·.hand pending)
  transaction fate .routine (pendingWrite store fate pending) fun written => do
    change (·.hand { pending with ordinal := written.2.getLast?.bind (·.ordinal) })
    wait .commit
    change (·.persisted written.2.length)
    pure (.saved written.1 written.2.length)

inductive SaveCall where
  | save (trigger : SaveTrigger)
  | saveWithPendingPrompt (pending : Message)

def SaveCall.run (store : SessionStore φ ω ρ ε κ) (fate : Fate ε κ) (loop : SessionLoop φ ω ρ) :
    SaveCall → Option (Except ε SaveOutcome) × SessionLoop φ ω ρ
  | .save trigger => (Sessions.save store fate trigger).run fate.drop loop
  | .saveWithPendingPrompt pending =>
    (Sessions.saveWithPendingPrompt store fate pending).run fate.drop loop

/-! ## Runs of the transaction -/

/-- The save gets as far as the conversation: the session is persistent, its home is
acquired, and the save is not dropped before. -/
structure Fate.Opens (fate : Fate ε κ) (loop : SessionLoop φ ω ρ) : Prop where
  persistent : loop.ephemeral = false
  barrier : fate.drop ≠ some .barrier
  inputs : fate.drop ≠ some .inputs
  claim : loop.home = true → fate.claim = .ok ()
  present : loop.home = true → fate.drop ≠ some .present
  home : loop.home = true →
    fate.present = .ok true ∨ fate.present = .ok false ∧ fate.drop ≠ some .home

def AnsweredSaved (answer : Option (Except ε SaveOutcome)) : Prop :=
  ∃ mode persisted, answer = some (.ok (.saved mode persisted))

lemma not_answeredSaved_none : ¬ AnsweredSaved (none : Option (Except ε SaveOutcome)) :=
  fun ⟨_, _, h⟩ => nomatch h

lemma not_answeredSaved_error (e : ε) : ¬ AnsweredSaved (some (.error e)) :=
  fun ⟨_, _, h⟩ => nomatch h

section Runs

variable {store : SessionStore φ ω ρ ε κ} {fate : Fate ε κ} {loop : SessionLoop φ ω ρ}
  {trigger : SaveTrigger} {drop : Option Await}

lemma run_begin (hpersistent : loop.ephemeral = false) (hdrop : drop ≠ some .inputs) :
    (begin trigger).run drop loop =
      (some (some (loop.begun trigger).inputs), loop.begun trigger) := by
  simp [begin, run_bind, run_wait hdrop, hpersistent]

lemma run_prepareHome (h : fate.Opens loop) :
    (prepareHome fate).run fate.drop (loop.begun trigger) =
      (some (.ok ()), loop.begun trigger) := by
  have hhome : (loop.begun trigger).home = loop.home := rfl
  cases hcase : loop.home with
  | false => simp [prepareHome, run_bind, hhome, hcase]
  | true =>
    have hclaim := h.claim hcase
    have hpresent := h.present hcase
    obtain hfound | ⟨hfound, hdrop⟩ := h.home hcase
    · simp [prepareHome, run_bind, hhome, hcase, hclaim, run_wait hpresent, hfound]
    · simp [prepareHome, run_bind, hhome, hcase, hclaim, run_wait hpresent, hfound, run_wait hdrop]

lemma run_prepareHome_unopened (trigger : SaveTrigger) (hpersistent : loop.ephemeral = false)
    (hbarrier : fate.drop ≠ some .barrier) (hinputs : fate.drop ≠ some .inputs)
    (h : ¬ fate.Opens loop) :
    ∃ answer, (prepareHome fate).run fate.drop (loop.begun trigger) = (answer, loop.begun trigger) ∧
      answer ≠ some (.ok ()) := by
  have hhome : (loop.begun trigger).home = loop.home := rfl
  have hcase : loop.home = true := by
    by_contra hcase
    exact h ⟨hpersistent, hbarrier, hinputs, fun hh => absurd hh hcase, fun hh => absurd hh hcase,
      fun hh => absurd hh hcase⟩
  cases hclaim : fate.claim with
  | error e => exact ⟨some (.error e), by simp [prepareHome, run_bind, hhome, hcase, hclaim],
      by simp⟩
  | ok claimed =>
    by_cases hpresent : fate.drop = some .present
    · exact ⟨none, by simp [prepareHome, run_bind, hhome, hcase, hclaim, run_wait_dropped hpresent],
        by simp⟩
    cases hfound : fate.present with
    | error e =>
      exact ⟨some (.error e),
        by simp [prepareHome, run_bind, hhome, hcase, hclaim, run_wait hpresent, hfound], by simp⟩
    | ok found =>
      have hdrop : found = false ∧ fate.drop = some .home := by
        by_contra hnot
        refine h ⟨hpersistent, hbarrier, hinputs, fun _ => hclaim, fun _ => hpresent, fun _ => ?_⟩
        cases found with
        | true => exact .inl hfound
        | false => exact .inr ⟨hfound, fun hdrop => hnot ⟨rfl, hdrop⟩⟩
      obtain ⟨rfl, hdrop⟩ := hdrop
      exact ⟨none, by simp [prepareHome, run_bind, hhome, hcase, hclaim, run_wait hpresent, hfound,
        run_wait_dropped hdrop], by simp⟩

variable {write : SaveInputs → Saving φ ω ρ (β × Except ε Unit)}
  {finish : β → Saving φ ω ρ SaveOutcome}

lemma run_transaction (h : fate.Opens loop) :
    (transaction fate trigger write finish).run fate.drop loop =
      (stampedSave loop.state.injectedSystemPrompt (write (loop.begun trigger).inputs) finish).run
        fate.drop (loop.begun trigger) := by
  simp only [transaction, run_bind, run_wait h.barrier, run_begin h.persistent h.inputs,
    run_prepareHome h]
  rfl

lemma run_transaction_unopened (trigger : SaveTrigger) (h : ¬ fate.Opens loop) :
    ((transaction fate trigger write finish).run fate.drop loop).2 ∈ [loop, loop.begun trigger] ∧
      ¬ AnsweredSaved ((transaction fate trigger write finish).run fate.drop loop).1 := by
  unfold AnsweredSaved
  by_cases hbarrier : fate.drop = some .barrier
  · simp [transaction, run_bind, run_wait_dropped hbarrier]
  by_cases hinputs : fate.drop = some .inputs
  · simp [transaction, run_bind, run_wait hbarrier, begin, run_wait_dropped hinputs]
  cases hpersistent : loop.ephemeral with
  | true => simp [transaction, run_bind, run_wait hbarrier, begin, run_wait hinputs, hpersistent]
  | false =>
    obtain ⟨answer, hrun, hanswer⟩ :=
      run_prepareHome_unopened trigger hpersistent hbarrier hinputs h
    match answer with
    | none =>
      simp [transaction, run_bind, run_wait hbarrier, run_begin hpersistent hinputs, hrun]
    | some (.error e) =>
      simp [transaction, run_bind, run_wait hbarrier, run_begin hpersistent hinputs, hrun]
    | some (.ok ()) => exact absurd rfl hanswer

section

variable {prompt : String} {body : Saving φ ω ρ (β × Except ε Unit)}
  {after : SessionLoop φ ω ρ}

lemma run_stampedSave_dropped (h : body.run drop (loop.stamped prompt) = (none, after)) :
    (stampedSave prompt body finish).run drop loop =
      (none, after.withdraw (unnumbered (removeInjectedSystemPrompt loop.messages prompt))) := by
  simp [stampedSave, run_bind, h]

lemma run_stampedSave_failed {written : β} {e : ε}
    (h : body.run drop (loop.stamped prompt) = (some (written, .error e), after)) :
    (stampedSave prompt body finish).run drop loop =
      let undone := (after.reinject prompt).withdraw
        (unnumbered (removeInjectedSystemPrompt loop.messages prompt))
      if drop = some .settle then (none, undone) else (some (.error e), undone.latchDirty) := by
  by_cases hdrop : drop = some .settle
  · subst hdrop
    simp [stampedSave, run_bind, h, settle, run_wait_dropped rfl]
  · simp [stampedSave, run_bind, h, settle, run_wait hdrop, hdrop]

lemma run_stampedSave_written {written : β}
    (h : body.run drop (loop.stamped prompt) = (some (written, .ok ()), after)) :
    (stampedSave prompt body finish).run drop loop =
      let ended := (finish written).run drop (after.reinject prompt)
      (ended.1.map .ok, ended.2) := by
  simp only [stampedSave, run_bind, run_look, run_change, run_guarded, h, settle, run_pure,
    Option.isSome_some, if_true]
  cases (finish written).run drop (after.reinject prompt) with
  | mk answer ended =>
    cases answer <;> rfl

end

/-! ## The writes -/

lemma run_writing (plan : Write ω ρ) : (writing store fate plan).run drop loop =
    ((plan.apply store fate.landing loop.store).1, loop.wrote store fate.landing plan) := by
  simp only [writing, run_bind, run_look, run_change, run_answered]

lemma run_writingLive (plan : Write ω ρ) : (writingLive store fate plan).run drop loop =
    ((plan.apply store fate.landing loop.store).1, loop.wrote store fate.landing plan) := by
  unfold writingLive
  split
  · rfl
  · exact run_writing plan

variable (inputs : SaveInputs)

lemma run_saveWrite_latches :
    (saveWrite store fate trigger inputs).run (some .latches) loop = (none, loop.taken) := by
  simp only [saveWrite, run_bind, run_look, run_change, run_wait_dropped]

lemma run_saveWrite (hdrop : drop ≠ some .latches) :
    (saveWrite store fate trigger inputs).run drop loop =
      let ready := loop.readied inputs.watermark
      let plan := ready.plan trigger inputs
      ((plan.apply store fate.landing ready.store).1.map
          (Prod.mk (plan.mode, ready.messages.length)),
        ready.wrote store fate.landing plan) := by
  simp only [saveWrite, run_bind, run_look, run_change, run_wait hdrop, run_writingLive, run_pure,
    SessionLoop.readied]
  split
  · rename_i result hanswer
    rw [hanswer]
    rfl
  rename_i hanswer
  rw [hanswer]
  rfl

lemma run_pendingWrite (pending : Message) :
    (pendingWrite store fate pending inputs).run drop loop =
      let plan := loop.planPending pending inputs
      ((plan.apply store fate.landing loop.store).1.map (Prod.mk (plan.mode, plan.messages)),
        loop.wrote store fate.landing plan) := by
  simp only [pendingWrite, run_bind, run_look, run_writing, run_pure]
  split
  · rename_i result hanswer
    rw [hanswer]
    rfl
  rename_i hanswer
  rw [hanswer]
  rfl

end Runs

/-! ## Runs of the two saves -/

namespace SessionLoop

variable (loop : SessionLoop φ ω ρ)

def atWrite (trigger : SaveTrigger) : SessionLoop φ ω ρ :=
  ((loop.begun trigger).stamped loop.state.injectedSystemPrompt).readied
    loop.state.persistedWatermark

def writes (trigger : SaveTrigger) : Write ω ρ :=
  (loop.atWrite trigger).plan trigger (loop.begun trigger).inputs

def answer (store : SessionStore φ ω ρ ε κ) (landing : κ) (trigger : SaveTrigger) :
    Option (Except ε Unit) :=
  ((loop.writes trigger).apply store landing loop.store).1

def atPendingWrite (pending : Message) : SessionLoop φ ω ρ :=
  (loop.hand pending).stamped loop.state.injectedSystemPrompt

def writesPending (pending : Message) : Write ω ρ :=
  (loop.atPendingWrite pending).planPending pending loop.inputs

def answerPending (store : SessionStore φ ω ρ ε κ) (landing : κ) (pending : Message) :
    Option (Except ε Unit) :=
  ((loop.writesPending pending).apply store landing loop.store).1

end SessionLoop

namespace SaveCall

def atWrite (loop : SessionLoop φ ω ρ) : SaveCall → SessionLoop φ ω ρ
  | .save trigger => loop.atWrite trigger
  | .saveWithPendingPrompt pending => loop.atPendingWrite pending

def writes (loop : SessionLoop φ ω ρ) : SaveCall → Write ω ρ
  | .save trigger => loop.writes trigger
  | .saveWithPendingPrompt pending => loop.writesPending pending

variable (store : SessionStore φ ω ρ ε κ) (fate : Fate ε κ) (loop : SessionLoop φ ω ρ)

def answer : SaveCall → Option (Except ε Unit)
  | .save trigger => loop.answer store fate.landing trigger
  | .saveWithPendingPrompt pending => loop.answerPending store fate.landing pending

def waitsForLatches : SaveCall → Bool
  | .save _ => true
  | .saveWithPendingPrompt _ => false

/-- The save is dropped before the write or at it. -/
def CutOff (call : SaveCall) : Prop :=
  call.waitsForLatches = true ∧ fate.drop = some .latches ∨ call.answer store fate loop = none

/-- The session once the write has answered and the prompt is put back. -/
def ended (call : SaveCall) : SessionLoop φ ω ρ :=
  ((call.atWrite loop).wrote store fate.landing (call.writes loop)).reinject
    loop.state.injectedSystemPrompt

/-- What a save does before it waits to commit: it hands on the prompt it numbered. -/
def handed (call : SaveCall) : SessionLoop φ ω ρ :=
  match call with
  | .save _ => call.ended store fate loop
  | .saveWithPendingPrompt pending => (call.ended store fate loop).hand
      { pending with ordinal := (call.writes loop).messages.getLast?.bind (·.ordinal) }

def commits (persisted : Nat) (handed : SessionLoop φ ω ρ) : SaveCall → SessionLoop φ ω ρ
  | .save _ => handed.committed persisted
  | .saveWithPendingPrompt _ => handed.persisted persisted

/-- How a save ends: before it touches the conversation; cut off while the conversation is
without its prompt; refused by the store; written, and dropped before its commit; or saved. -/
inductive Ends (call : SaveCall) : Option (Except ε SaveOutcome) × SessionLoop φ ω ρ → Prop
  | unopened {answer : Option (Except ε SaveOutcome)} {after : SessionLoop φ ω ρ}
      (closed : ¬ fate.Opens loop) (unsaved : ¬ AnsweredSaved answer)
      (same : after = { loop with
        pending := after.pending
        state := { loop.state with killingExit := after.state.killingExit } }) :
      Ends call (answer, after)
  | cut {after : SessionLoop φ ω ρ} (opens : fate.Opens loop) (cut : call.CutOff store fate loop)
      (messages : after.messages = assignMissingOrdinals loop.visible)
      (prompt : after.state.injectedSystemPrompt = loop.state.injectedSystemPrompt)
      (stored : after.store = loop.store ∨
        after.store = ((call.writes loop).apply store fate.landing loop.store).2) :
      Ends call (none, after.withdraw (unnumbered loop.visible))
  | failed {e : ε} {answer : Option (Except ε SaveOutcome)} {after : SessionLoop φ ω ρ}
      (opens : fate.Opens loop) (uncut : ¬ call.CutOff store fate loop)
      (answered : call.answer store fate loop = some (.error e)) (unsaved : ¬ AnsweredSaved answer)
      (unsettled : after.unsettled = true)
      (messages : after.messages = withdrawOrdinals (unnumbered loop.visible)
        (injectSystemPrompt (assignMissingOrdinals loop.visible) loop.state.injectedSystemPrompt
          loop.nextId))
      (prompt : after.state.injectedSystemPrompt = loop.state.injectedSystemPrompt)
      (stored : after.store = ((call.writes loop).apply store fate.landing loop.store).2) :
      Ends call (answer, after)
  | uncommitted (opens : fate.Opens loop) (uncut : ¬ call.CutOff store fate loop)
      (answered : call.answer store fate loop = some (.ok ())) (commit : fate.drop = some .commit) :
      Ends call (none, call.handed store fate loop)
  | saved (opens : fate.Opens loop) (uncut : ¬ call.CutOff store fate loop)
      (answered : call.answer store fate loop = some (.ok ())) (commit : fate.drop ≠ some .commit) :
      Ends call (some (.ok (.saved (call.writes loop).mode (call.writes loop).messages.length)),
          call.commits (call.writes loop).messages.length (call.handed store fate loop))

section

variable {store fate loop} {start : SessionLoop φ ω ρ} {call : SaveCall} {marker : β}
  {body : Saving φ ω ρ (β × Except ε Unit)} {finish : β → Saving φ ω ρ SaveOutcome}

lemma atWrite_messages : (call.atWrite loop).messages = assignMissingOrdinals loop.visible := by
  cases call <;> rfl

lemma atWrite_prompt :
    (call.atWrite loop).state.injectedSystemPrompt = loop.state.injectedSystemPrompt := by
  cases call <;> rfl

lemma atWrite_store : (call.atWrite loop).store = loop.store := by cases call <;> rfl

variable (store fate loop) in
lemma ended_messages (call : SaveCall) : (call.ended store fate loop).messages = injectSystemPrompt
    (assignMissingOrdinals loop.visible) loop.state.injectedSystemPrompt loop.nextId := by
  cases call <;> rfl

lemma ended_store : (call.ended store fate loop).store =
    ((call.writes loop).apply store fate.landing loop.store).2 := by
  cases call <;> rfl

lemma handed_messages :
    (call.handed store fate loop).messages = (call.ended store fate loop).messages := by
  cases call <;> rfl

lemma commits_messages (persisted : Nat) :
    (call.commits persisted loop).messages = loop.messages := by
  cases call <;> rfl

/-- The rest of a save once its write is under way, whichever of the two it is. -/
lemma stampedSave_ends (opens : fate.Opens loop)
    (hlatches : ¬ (call.waitsForLatches = true ∧ fate.drop = some .latches))
    (hvisible : removeInjectedSystemPrompt start.messages loop.state.injectedSystemPrompt =
      loop.visible)
    (hbody : body.run fate.drop (start.stamped loop.state.injectedSystemPrompt) =
      ((call.answer store fate loop).map (Prod.mk marker),
        (call.atWrite loop).wrote store fate.landing (call.writes loop)))
    (hfinish : (finish marker).run fate.drop (call.ended store fate loop) =
      if fate.drop = some .commit then (none, call.handed store fate loop)
      else (some (.saved (call.writes loop).mode (call.writes loop).messages.length),
        call.commits (call.writes loop).messages.length (call.handed store fate loop))) :
    call.Ends store fate loop
      ((stampedSave loop.state.injectedSystemPrompt body finish).run fate.drop start) := by
  have huncut : call.answer store fate loop ≠ none → ¬ call.CutOff store fate loop :=
    fun hanswer hcut => hcut.elim hlatches hanswer
  match hanswer : call.answer store fate loop with
  | none =>
    rw [hanswer] at hbody
    rw [run_stampedSave_dropped hbody, hvisible]
    refine .cut opens (.inr hanswer) atWrite_messages atWrite_prompt (.inr ?_)
    rw [SessionLoop.wrote, atWrite_store]
  | some (.error e) =>
    rw [hanswer] at hbody huncut
    rw [run_stampedSave_failed hbody, hvisible, ← ended]
    have hmessages := congrArg (withdrawOrdinals (unnumbered loop.visible))
      (call.ended_messages store fate loop)
    by_cases hsettle : fate.drop = some .settle
    · rw [if_pos hsettle]
      exact .failed opens (huncut nofun) hanswer not_answeredSaved_none rfl hmessages
        atWrite_prompt ended_store
    · rw [if_neg hsettle]
      exact .failed opens (huncut nofun) hanswer (not_answeredSaved_error e) rfl hmessages
        atWrite_prompt ended_store
  | some (.ok ()) =>
    rw [hanswer] at hbody huncut
    rw [run_stampedSave_written hbody, ← ended, hfinish]
    by_cases hcommit : fate.drop = some .commit
    · rw [if_pos hcommit]
      exact .uncommitted opens (huncut nofun) hanswer hcommit
    · rw [if_neg hcommit]
      exact .saved opens (huncut nofun) hanswer hcommit

lemma unopened_ends {result : Option (Except ε SaveOutcome) × SessionLoop φ ω ρ}
    {trigger : SaveTrigger} {pending : Option Message} (closed : ¬ fate.Opens loop)
    (h : result.2 ∈ [{ loop with pending }, SessionLoop.begun { loop with pending } trigger] ∧
      ¬ AnsweredSaved result.1) : call.Ends store fate loop result := by
  obtain ⟨answer, after⟩ := result
  refine .unopened closed h.2 ?_
  rcases List.mem_pair.mp h.1 with rfl | rfl <;> rfl

variable (store fate loop) in
lemma run_ends (call : SaveCall) : call.Ends store fate loop (call.run store fate loop) := by
  cases call with
  | save trigger =>
    rw [SaveCall.run, Sessions.save]
    by_cases hopens : fate.Opens loop
    swap
    · exact unopened_ends hopens (run_transaction_unopened trigger hopens)
    rw [run_transaction hopens]
    by_cases hdrop : fate.drop = some .latches
    · rw [hdrop, run_stampedSave_dropped (run_saveWrite_latches _)]
      exact .cut hopens (.inl ⟨rfl, hdrop⟩) rfl rfl (.inl rfl)
    refine stampedSave_ends hopens (fun h => hdrop h.2) rfl (run_saveWrite _ hdrop) ?_
    by_cases hcommit : fate.drop = some .commit
    · simp only [run_bind, run_wait_dropped hcommit, if_pos hcommit]
      rfl
    · simp only [run_bind, run_wait hcommit, run_change, run_pure, if_neg hcommit]
      rfl
  | saveWithPendingPrompt pending =>
    simp only [SaveCall.run, Sessions.saveWithPendingPrompt, run_bind, run_change]
    have hhand : fate.Opens (loop.hand pending) ↔ fate.Opens loop :=
      ⟨fun h => { h with }, fun h => { h with }⟩
    by_cases hopens : fate.Opens loop
    swap
    · exact unopened_ends hopens (run_transaction_unopened .routine (mt hhand.mp hopens))
    rw [run_transaction (hhand.mpr hopens)]
    refine stampedSave_ends hopens nofun rfl (run_pendingWrite _ pending) ?_
    by_cases hcommit : fate.drop = some .commit
    · simp only [run_bind, run_wait_dropped hcommit, run_change, if_pos hcommit]
      rfl
    · simp only [run_bind, run_wait hcommit, run_change, run_pure, if_neg hcommit]
      rfl

end

end SaveCall

end Quecto.Sessions
