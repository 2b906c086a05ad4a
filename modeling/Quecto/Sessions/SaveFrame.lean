/-
  Sessions/SaveFrame.lean --- what a save leaves of the conversation.
-/
import Quecto.Sessions.Save

namespace Quecto.Sessions

open Foundation Awaiting List

/-! ## The same conversation -/

structure KeptMessage (saved : Prop) (before after : Message) : Prop where
  id : after.id = before.id
  role : after.role = before.role
  content : after.content = before.content
  numbered : before.ordinal = none → (after.ordinal.isSome ↔ saved)

/-- The conversation `head :: rest` as it was: the leading message with its role and
content, the others as the messages they are. -/
def KeptConversation (saved : Prop) (head : Message) (rest after : List Message) : Prop :=
  ∃ head' rest', after = head' :: rest' ∧ head'.role = head.role ∧ head'.content = head.content ∧
    Forall₂ (KeptMessage saved) rest rest'

structure Leads (prompt : String) (head : Message) : Prop where
  system : head.role = .system
  starts : prompt.toList <+: head.content.toList

section Kept

variable {saved written : Prop} {head : Message} {rest after messages : List Message}
  {prompt : String}

lemma KeptConversation.length (h : KeptConversation saved head rest after) :
    after.length = rest.length + 1 := by
  obtain ⟨head', rest', rfl, -, -, hrest⟩ := h
  rw [length_cons, hrest.length_eq]

structure Renumbered (written : Prop) (before after : Message) : Prop where
  same : after = { before with ordinal := after.ordinal }
  numbered : before.ordinal = none → (after.ordinal.isSome ↔ written)

lemma Renumbered.kept {before after : Message} (h : Renumbered written before after)
    (hsaved : before.ordinal = none → (written ↔ saved)) : KeptMessage saved before after where
  id := congrArg (·.id) h.same
  role := congrArg (·.role) h.same
  content := congrArg (·.content) h.same
  numbered hnone := (h.numbered hnone).trans (hsaved hnone)

lemma assignMissingOrdinals_renumbered (messages : List Message) :
    Forall₂ (Renumbered True) messages (assignMissingOrdinals messages) :=
  (assignMissingOrdinals_numbers messages).imp fun _ _ h => ⟨h.same, fun _ => iff_true_intro h.some⟩

lemma withdrawn_of_numbered {ids : List MessageId} {before after : List Message}
    (h : Forall₂ Numbered before after)
    (hids : ∀ message ∈ before, message.ordinal = none → message.id ∈ ids) :
    Forall₂ (Renumbered False) before (withdrawOrdinals ids after) := by
  induction h with
  | nil => exact .nil
  | @cons message numbered _ _ hnumbered _ ih =>
    obtain ⟨hfirst, hothers⟩ := forall_mem_cons.mp hids
    refine .cons ⟨?_, fun hnone => ?_⟩ (ih hothers)
    · show numbered.withdrawOrdinal ids = _
      rw [numbered.withdrawOrdinal_same ids, hnumbered.same]
    have hid : numbered.id = message.id := congrArg (·.id) hnumbered.same
    show (numbered.withdrawOrdinal ids).ordinal.isSome ↔ False
    rw [Message.withdrawOrdinal, if_pos (hid ▸ hfirst hnone)]
    simp

lemma withdrawn_renumbered (messages : List Message) : Forall₂ (Renumbered False) messages
      (withdrawOrdinals (unnumbered messages) (assignMissingOrdinals messages)) := by
  refine withdrawn_of_numbered (assignMissingOrdinals_numbers messages) ?_
  intro message hmem hnone
  refine mem_map_of_mem (mem_filter.mpr ⟨hmem, ?_⟩)
  rw [hnone]
  rfl

lemma kept_iff (h : Forall₂ (Renumbered written) rest after) :
    Forall₂ (KeptMessage saved) rest after ↔
      ((written ↔ saved) ∨ ∀ message ∈ rest, message.ordinal.isSome) := by
  induction h with
  | nil => exact iff_of_true .nil (.inr fun _ hmem => nomatch hmem)
  | @cons message numbered _ _ hnumbered _ ih =>
    rw [forall₂_cons, ih]
    constructor
    · rintro ⟨hkept, hagree | hrest⟩
      · exact .inl hagree
      · cases hordinal : message.ordinal with
        | none =>
          exact .inl ((hnumbered.numbered hordinal).symm.trans (hkept.numbered hordinal))
        | some ordinal =>
          exact .inr (forall_mem_cons.mpr ⟨by rw [hordinal]; rfl, hrest⟩)
    · rintro (hagree | hall)
      · exact ⟨hnumbered.kept fun _ => hagree, .inl hagree⟩
      · obtain ⟨hfirst, hrest⟩ := forall_mem_cons.mp hall
        refine ⟨hnumbered.kept fun hnone => ?_, .inr hrest⟩
        rw [hnone] at hfirst
        cases hfirst

/-! ## The prompt taken off and put back -/

lemma remove_of_untouched (h : prompt.isEmpty = true ∨ head.isManifest = true) :
    removeInjectedSystemPrompt (head :: rest) prompt = head :: rest := by
  unfold removeInjectedSystemPrompt
  rcases h with hempty | hmanifest
  · rw [if_pos hempty]
  have hnot : leadsWithPrompt prompt head = false := by
    simp [leadsWithPrompt, isRealSystem, hmanifest]
  split
  · rfl
  · simp [hnot]

lemma remove_of_led (hleads : Leads prompt head) (hprompt : prompt.isEmpty = false)
    (hmanifest : head.isManifest = false) :
    removeInjectedSystemPrompt (head :: rest) prompt = rest := by
  have hled : leadsWithPrompt prompt head = true := by
    simp [leadsWithPrompt, isRealSystem, hleads.system, hmanifest, hleads.starts]
  simp [removeInjectedSystemPrompt, hprompt, hled]

lemma withdraw_inject (ids : List MessageId) (fresh : MessageId) :
    withdrawOrdinals ids (injectSystemPrompt messages prompt fresh) =
      injectSystemPrompt (withdrawOrdinals ids messages) prompt fresh := by
  have hhead : (withdrawOrdinals ids messages).head?.any isRealSystem =
      messages.head?.any isRealSystem := by
    cases messages with
    | nil => rfl
    | cons message rest =>
      show isRealSystem (message.withdrawOrdinal ids) = isRealSystem message
      rw [message.withdrawOrdinal_same ids]
      rfl
  have hprompt : withdrawOrdinals ids (.system fresh prompt :: messages) =
      .system fresh prompt :: withdrawOrdinals ids messages := by
    show (Message.system fresh prompt).withdrawOrdinal ids :: _ = _
    unfold Message.withdrawOrdinal
    split <;> rfl
  unfold injectSystemPrompt
  rw [hhead]
  split
  · rfl
  split
  · rfl
  · exact hprompt

lemma head_isRealSystem {before after : List Message}
    (h : Forall₂ (Renumbered written) before after) :
    after.head?.any isRealSystem = before.head?.any isRealSystem := by
  cases h with
  | nil => rfl
  | cons hnumbered _ =>
    rw [hnumbered.same]
    rfl

lemma injected_kept_iff (hleads : Leads prompt head) (fresh : MessageId)
    (h : Forall₂ (Renumbered written) (removeInjectedSystemPrompt (head :: rest) prompt)
      after) : KeptConversation saved head rest (injectSystemPrompt after prompt fresh) ↔
      (prompt.isEmpty = true ∨ head.isManifest = false ∧ head.content = prompt ∧
        rest.head?.any isRealSystem = false) ∧
      ((written ↔ saved) ∨ ∀ message ∈ rest, message.ordinal.isSome) := by
  cases hprompt : prompt.isEmpty with
  | true =>
    rw [remove_of_untouched (.inl hprompt)] at h
    obtain ⟨head', rest', hhead, hrest, rfl⟩ := forall₂_cons_left_iff.mp h
    rw [injectSystemPrompt, if_pos hprompt, ← kept_iff hrest]
    constructor
    · rintro ⟨_, _, hafter, -, -, hkept⟩
      obtain ⟨-, rfl⟩ := cons.inj hafter
      exact ⟨.inl rfl, hkept⟩
    · rintro ⟨-, hkept⟩
      exact ⟨head', rest', rfl, congrArg (·.role) hhead.same,
        congrArg (·.content) hhead.same, hkept⟩
  | false =>
    cases hmanifest : head.isManifest with
    | true =>
      rw [remove_of_untouched (.inr hmanifest)] at h
      have hreal := head_isRealSystem h
      simp only [head?_cons, Option.any_some, isRealSystem, hmanifest, Bool.not_true,
        Bool.and_false] at hreal
      refine iff_of_false (fun hkept => ?_) (by simp)
      have hlength := hkept.length
      simp [injectSystemPrompt, hprompt, hreal, h.length_eq.symm] at hlength
    | false =>
      rw [remove_of_led hleads hprompt hmanifest] at h
      have hreal := head_isRealSystem h
      cases hnext : rest.head?.any isRealSystem with
      | true =>
        refine iff_of_false (fun hkept => ?_) (by simp)
        have hlength := hkept.length
        simp [injectSystemPrompt, hprompt, hreal, hnext, h.length_eq.symm] at hlength
      | false =>
        have hinject : injectSystemPrompt after prompt fresh = .system fresh prompt :: after := by
          simp [injectSystemPrompt, hprompt, hreal, hnext]
        rw [hinject, ← kept_iff h]
        constructor
        · rintro ⟨_, _, hafter, -, hcontent, hkept⟩
          obtain ⟨rfl, rfl⟩ := cons.inj hafter
          exact ⟨.inr ⟨rfl, hcontent.symm, rfl⟩, hkept⟩
        rintro ⟨hempty | ⟨-, hcontent, -⟩, hkept⟩
        · cases hempty
        · exact ⟨_, _, rfl, hleads.system.symm, hcontent.symm, hkept⟩

lemma stripped_kept_iff (hleads : Leads prompt head)
    (h : Forall₂ (Renumbered saved) (removeInjectedSystemPrompt (head :: rest) prompt) after) :
    KeptConversation saved head rest after ↔ prompt.isEmpty = true ∨ head.isManifest = true := by
  by_cases huntouched : prompt.isEmpty = true ∨ head.isManifest = true
  · rw [remove_of_untouched huntouched] at h
    obtain ⟨head', rest', hhead, hrest, rfl⟩ := forall₂_cons_left_iff.mp h
    exact iff_of_true ⟨head', rest', rfl, congrArg (·.role) hhead.same,
      congrArg (·.content) hhead.same, hrest.imp fun _ _ h => h.kept fun _ => Iff.rfl⟩ huntouched
  refine iff_of_false (fun hkept => ?_) huntouched
  rw [not_or, Bool.not_eq_true, Bool.not_eq_true] at huntouched
  rw [remove_of_led hleads huntouched.1 huntouched.2] at h
  have hlength := hkept.length
  rw [h.length_eq] at hlength
  omega

end Kept

/-! ## The conversation after a save -/

variable {φ ω ρ ε κ : Type}

structure SaveCall.Restorable (call : SaveCall) (store : SessionStore φ ω ρ ε κ) (fate : Fate ε κ)
    (loop : SessionLoop φ ω ρ) (head : Message) (rest : List Message) : Prop where
  cut : call.CutOff store fate loop →
    loop.state.injectedSystemPrompt.isEmpty = true ∨ head.isManifest = true
  led : ¬ call.CutOff store fate loop → loop.state.injectedSystemPrompt.isEmpty = true ∨
    head.isManifest = false ∧ head.content = loop.state.injectedSystemPrompt ∧
      rest.head?.any isRealSystem = false
  numbered : ¬ call.CutOff store fate loop → call.answer store fate loop = some (.ok ()) →
    fate.drop = some .commit → ∀ message ∈ rest, message.ordinal.isSome

lemma kept_unopened {head : Message} {rest : List Message} {saved : Prop} (h : ¬ saved) :
    KeptConversation saved head rest (head :: rest) := by
  refine ⟨head, rest, rfl, rfl, rfl, forall₂_same.mpr fun message _ => ?_⟩
  exact ⟨rfl, rfl, rfl, fun hnone => by simp [hnone, h]⟩

/-- A save leaves a conversation led by its prompt as it was exactly when it does not get
as far as the conversation, or the conversation can be restored: whatever the store is,
however it answers, and wherever the save is dropped. -/
theorem save_keeps_conversation_iff (store : SessionStore φ ω ρ ε κ) (call : SaveCall)
    (fate : Fate ε κ) (loop : SessionLoop φ ω ρ) (head : Message) (rest : List Message)
    (hmessages : loop.messages = head :: rest)
    (hleads : Leads loop.state.injectedSystemPrompt head) :
    KeptConversation (AnsweredSaved (call.run store fate loop).1) head rest
        (call.run store fate loop).2.messages ↔
      (fate.Opens loop → call.Restorable store fate loop head rest) := by
  have hvisible : loop.visible =
      removeInjectedSystemPrompt (head :: rest) loop.state.injectedSystemPrompt := by
    rw [SessionLoop.visible, hmessages]
  have hends := call.run_ends store fate loop
  generalize call.run store fate loop = result at hends ⊢
  cases hends with
  | unopened closed unsaved same =>
    rw [congrArg (·.messages) same, hmessages]
    exact iff_of_true (kept_unopened unsaved) fun h => absurd h closed
  | cut opens cut messages _ _ =>
    rw [SessionLoop.withdraw, messages, hvisible, eq_false not_answeredSaved_none,
      stripped_kept_iff hleads (withdrawn_renumbered _)]
    constructor
    · intro hcond _
      exact ⟨fun _ => hcond, fun hnot => absurd cut hnot, fun hnot => absurd cut hnot⟩
    · intro hcond
      exact (hcond opens).cut cut
  | failed opens uncut answered unsaved _ messages _ _ =>
    rw [messages, withdraw_inject, hvisible, injected_kept_iff hleads _ (withdrawn_renumbered _)]
    constructor
    · rintro ⟨hled, -⟩ -
      exact ⟨fun h => absurd h uncut, fun _ => hled, fun _ hok => nomatch answered.symm.trans hok⟩
    · intro hcond
      exact ⟨(hcond opens).led uncut, .inl (iff_of_false id unsaved)⟩
  | uncommitted opens uncut answered commit =>
    rw [call.handed_messages, call.ended_messages, hvisible,
      injected_kept_iff hleads _ (assignMissingOrdinals_renumbered _)]
    constructor
    · rintro ⟨hled, hnumbered⟩ -
      exact ⟨fun h => absurd h uncut, fun _ => hled, fun _ _ _ => hnumbered.resolve_left
        fun hiff => not_answeredSaved_none (hiff.mp trivial)⟩
    · intro hcond
      exact ⟨(hcond opens).led uncut, .inr ((hcond opens).numbered uncut answered commit)⟩
  | saved opens uncut answered commit =>
    rw [call.commits_messages, call.handed_messages, call.ended_messages, hvisible,
      injected_kept_iff hleads _ (assignMissingOrdinals_renumbered _)]
    constructor
    · rintro ⟨hled, -⟩ -
      exact ⟨fun h => absurd h uncut, fun _ => hled, fun _ _ hcommit => absurd hcommit commit⟩
    · intro hcond
      exact ⟨(hcond opens).led uncut, .inl (iff_of_true trivial ⟨_, _, rfl⟩)⟩

/-! ## A store that answers as it is told -/

def sampleStore : SessionStore Unit Unit Unit Unit (Option (Except Unit Unit)) where
  save _ landing store := (landing, store)
  saveDelta _ _ _ landing store := (landing, store)
  saveCleanDelta _ _ _ landing store := (landing, store)

def sampleFate : Fate Unit (Option (Except Unit Unit)) where
  drop := none
  claim := .ok ()
  present := .ok true
  landing := some (.ok ())

def sampleLoop (messages : List Message) : SessionLoop Unit Unit Unit where
  messages := messages
  pending := none
  state := ⟨"Be brief.", 0, false, false⟩
  durablePrefix := false
  unsettled := false
  workflowRun := none
  roster := none
  ephemeral := false
  home := false
  nextId := 7
  store := ()

theorem save_keeps_conversation_sample :
    KeptConversation (AnsweredSaved ((SaveCall.save .routine).run sampleStore sampleFate
        (sampleLoop [.system 0 "Be brief.", .user 1 "hello"])).1)
      (.system 0 "Be brief.") [.user 1 "hello"] ((SaveCall.save .routine).run sampleStore sampleFate
        (sampleLoop [.system 0 "Be brief.", .user 1 "hello"])).2.messages :=
  (save_keeps_conversation_iff sampleStore (.save .routine) sampleFate
    (sampleLoop [.system 0 "Be brief.", .user 1 "hello"]) _ _ rfl ⟨rfl, prefix_rfl⟩).mpr
    fun _ =>
      { cut := fun h => h.elim (fun hdrop => nomatch hdrop.2) nofun
        led := fun _ => .inr ⟨rfl, rfl, rfl⟩
        numbered := nofun }

/-- A leading system message that goes on after the prompt comes back as the bare
prompt. -/
theorem longer_prompt_is_cut : Leads "Be brief." (.system 0 "Be brief. It is late.") ∧
      ¬ KeptConversation (AnsweredSaved ((SaveCall.save .routine).run sampleStore sampleFate
          (sampleLoop [.system 0 "Be brief. It is late.", .user 1 "hello"])).1)
        (.system 0 "Be brief. It is late.") [.user 1 "hello"]
        ((SaveCall.save .routine).run sampleStore sampleFate
          (sampleLoop [.system 0 "Be brief. It is late.", .user 1 "hello"])).2.messages := by
  refine ⟨⟨rfl, " It is late.".toList, by decide⟩, ?_⟩
  rintro ⟨head, rest, hafter, -, hcontent, -⟩
  have hbare : ((SaveCall.save .routine).run sampleStore sampleFate (sampleLoop
      [.system 0 "Be brief. It is late.", .user 1 "hello"])).2.messages.head?.map (·.content) =
      some "Be brief." := by decide +kernel
  rw [hafter] at hbare
  exact absurd (hcontent.symm.trans (Option.some.inj hbare)) (by decide)

end Quecto.Sessions
