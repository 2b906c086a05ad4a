/-
  Sessions/Durable.lean --- the file of a session along its life.

  Source: `infrastructure/persistence/file/sessions/session_store.rs` and
  `application/sessions/use_cases/rewind_conversation.rs`.
-/
import Quecto.Foundation.Machine
import Quecto.Sessions.FileStore
import Quecto.Sessions.SaveFrame

namespace Quecto.Sessions

open Foundation List Message

variable {ω ρ ε : Type}

/-! ## Steps -/

abbrev FileLoop (ω ρ : Type) : Type := SessionLoop (FileStore ω ρ) ω ρ

/-- What happens to a session and its file.  `rewrite` stands for an edit of the
conversation, and a load may follow a restart of the process. -/
inductive LoopStep (ω ρ ε : Type) where
  | append (message : Message)
  | rewrite (messages : List Message)
  | rewind (target : RewindTarget) (legacyIndexWindow : Nat)
  | setWorkflow (run : Option ω)
  | setRoster (roster : Option (List (RosterEntry ρ)))
  | save (call : SaveCall) (fate : Fate ε (Landing ε))
  | load (restart : Bool)

variable (loop : FileLoop ω ρ)

def identified (fresh : MessageId) (messages : List Message) : List Message :=
  messages.mapIdx fun i message => { message with id := fresh + i }

namespace SessionLoop

def restarted : FileLoop ω ρ :=
  { loop with
    messages := []
    pending := none
    state := ⟨loop.state.injectedSystemPrompt, 0, false, false⟩
    durablePrefix := false
    unsettled := false
    workflowRun := none
    store := { loop.store with vouched := false } }

def loaded (parsed : ParsedSession ω ρ) : FileLoop ω ρ :=
  let messages := identified loop.nextId parsed.session.messages
  let fresh := loop.nextId + messages.length
  { loop with
    messages := injectSystemPrompt messages loop.state.injectedSystemPrompt fresh
    state := { loop.state with persistedWatermark := messages.length }
    workflowRun := parsed.session.workflowRun
    nextId := fresh + 1
    store := { loop.store with vouched := parsed.intact } }

def load : FileLoop ω ρ :=
  match loop.store.file.bind parseSessionRecords with
  | some parsed => loop.loaded parsed
  | none => loop

def rewind (target : RewindTarget) (legacyIndexWindow : Nat) : FileLoop ω ρ :=
  match rewound loop.nextId loop.messages target legacyIndexWindow with
  | some messages =>
    { loop with
      messages := messages
      nextId := loop.nextId + messages.length
      state := { loop.state with persistedWatermark := 0 } }
  | none => loop

end SessionLoop

abbrev StepAnswer (ε : Type) : Type := Option (Except ε SaveOutcome)

section

variable [DecidableEq ω] [DecidableEq ρ]

def SessionLoop.step (key : String) (unreadable : ε) (loop : FileLoop ω ρ) :
    LoopStep ω ρ ε → StepAnswer ε × FileLoop ω ρ
  | .append message => (none, { loop with messages := loop.messages ++ [message] })
  | .rewrite messages => (none, { loop with messages := messages, durablePrefix := true })
  | .rewind target legacyIndexWindow => (none, loop.rewind target legacyIndexWindow)
  | .setWorkflow run => (none, { loop with workflowRun := run })
  | .setRoster roster => (none, { loop with roster := roster })
  | .save call fate => call.run (fileStore key unreadable) fate loop
  | .load restart => (none, if restart then loop.restarted.load else loop.load)

end

/-! ## The conversation apart from its prompt -/

def mistaken (prompt : String) (message : Message) : Bool :=
  !prompt.isEmpty && leadsWithPrompt prompt message

/-- None of `messages` is taken for the prompt. -/
abbrev Unmistaken (prompt : String) (messages : List Message) : Prop :=
  ∀ message ∈ messages, mistaken prompt message = false

section

variable {prompt : String} {messages : List Message}

@[simp] lemma remove_nil (prompt : String) : removeInjectedSystemPrompt [] prompt = [] := by
  unfold removeInjectedSystemPrompt
  split <;> rfl

lemma remove_eq (prompt : String) (head : Message) (rest : List Message) :
    removeInjectedSystemPrompt (head :: rest) prompt =
      if mistaken prompt head then rest else head :: rest := by
  unfold removeInjectedSystemPrompt mistaken
  cases prompt.isEmpty <;> rfl

lemma remove_plain (h : Unmistaken prompt messages) :
    removeInjectedSystemPrompt messages prompt = messages := by
  cases messages with
  | nil => exact remove_nil prompt
  | cons head rest =>
    rw [remove_eq, h head mem_cons_self]
    rfl

lemma remove_inject (h : Unmistaken prompt messages)
    (fresh : MessageId) :
    removeInjectedSystemPrompt (injectSystemPrompt messages prompt fresh) prompt = messages := by
  unfold injectSystemPrompt
  cases hprompt : prompt.isEmpty with
  | true => exact remove_plain h
  | false =>
    cases hreal : messages.head?.any isRealSystem with
    | true => exact remove_plain h
    | false =>
      have hmistaken : mistaken prompt (.system fresh prompt) = true := by
        simp [mistaken, hprompt, leadsWithPrompt, isRealSystem, system, plain]
      show removeInjectedSystemPrompt (.system fresh prompt :: messages) prompt = messages
      rw [remove_eq, hmistaken]
      rfl

lemma plain_remove_iff :
    Unmistaken prompt (removeInjectedSystemPrompt messages prompt) ↔
      Unmistaken prompt messages.tail := by
  cases messages with
  | nil => rw [remove_nil, tail_nil]
  | cons head rest =>
    rw [remove_eq]
    cases hhead : mistaken prompt head with
    | true => exact Iff.rfl
    | false => exact forall_mem_cons.trans (and_iff_right hhead)

lemma mem_of_mem_remove {message : Message}
    (h : message ∈ removeInjectedSystemPrompt messages prompt) : message ∈ messages := by
  cases messages with
  | nil =>
    rw [remove_nil] at h
    exact h
  | cons head rest =>
    rw [remove_eq] at h
    split at h
    · exact mem_cons_of_mem _ h
    · exact h

lemma remove_append {message : Message} (h : mistaken prompt message = false) :
    removeInjectedSystemPrompt (messages ++ [message]) prompt =
      removeInjectedSystemPrompt messages prompt ++ [message] := by
  cases messages with
  | nil =>
    rw [remove_nil]
    exact remove_plain (forall_mem_singleton.mpr h)
  | cons head rest =>
    rw [cons_append, remove_eq, remove_eq]
    split <;> rfl

end

/-! ## What holds between the steps -/

namespace SessionLoop

structure Clean (loop : FileLoop ω ρ) : Prop where
  state : loop.state.durablePrefixDirty = false
  durablePrefix : loop.durablePrefix = false
  unsettled : loop.unsettled = false

/-- What the file holds is as long as the watermark says and goes along with the
conversation. -/
structure Followed (loop : FileLoop ω ρ) (stored : List Message) : Prop where
  length : stored.length = loop.state.persistedWatermark
  agrees : stored <+: loop.visible.map (·.anonymous) ∨ loop.visible.map (·.anonymous) <+: stored

/-- What holds between the steps.  The file reads back, and while nothing is to be written
anew it is followed by the conversation. -/
structure Tracked (key : String) (loop : FileLoop ω ρ) : Prop where
  recordable : ∀ message ∈ loop.messages, message.Recordable
  plain : Unmistaken loop.state.injectedSystemPrompt loop.messages.tail
  sound : loop.store.Sound key fun message =>
    mistaken loop.state.injectedSystemPrompt message = false
  clean : loop.Clean → loop.store.vouched = true → 0 < loop.state.persistedWatermark →
    ∀ transcript session, Entire key loop.store.file transcript session →
      loop.Followed session.messages

end SessionLoop

open SessionLoop

def LoopStep.Regular : LoopStep ω ρ ε → Prop
  /- A message is as its constructors build it and is not taken for the prompt; and while
  the conversation is shorter than what was saved of it, the message is the one saved. -/
  | .append message =>
    message.Recordable ∧ mistaken loop.state.injectedSystemPrompt message = false ∧
      (loop.Clean → loop.visible.length < loop.state.persistedWatermark →
        ∃ messages run, held loop.store.file = some (some (messages, run)) ∧
          messages[loop.visible.length]? = some message.anonymous)
  | .rewrite messages =>
    (∀ message ∈ messages, message.Recordable) ∧
      Unmistaken loop.state.injectedSystemPrompt messages.tail
  /- A save is not dropped between the store's write and the commit, and no write is torn
  inside a character. -/
  | .save call fate =>
    fate.drop ≠ some .commit ∧ fate.landing.reach ≠ .torn false ∧
      match call with
      | .save _ => True
      | .saveWithPendingPrompt pending =>
        pending.Recordable ∧ mistaken loop.state.injectedSystemPrompt pending = false
  | .rewind _ _ | .setWorkflow _ | .setRoster _ | .load _ => True

section Kept

variable {key : String} {loop loop' : FileLoop ω ρ} {message : Message} {prompt : String}
  {fresh : MessageId} {messages before after : List Message} {written : Prop}

/-! ### What a rewind, a load and a save make of a message -/

lemma stripped_recordable (h : message.Recordable) (fresh : MessageId) :
    (forgetRetention fresh (expanded message)).Recordable := by
  have hexpanded : (expanded message).Recordable := by
    unfold expanded
    split
    · exact { h with }
    · exact h
  unfold forgetRetention
  split
  · exact ⟨fun _ => rfl, by simp [rewoundStub, user, plain], nofun⟩
  · exact { hexpanded with }
  · exact { hexpanded with }

lemma expanded_plain (h : mistaken prompt message = false) :
    mistaken prompt (expanded message) = false := by
  unfold expanded
  split
  swap
  · exact h
  cases hprompt : prompt.isEmpty with
  | true => simp [mistaken, hprompt]
  | false =>
    -- No prompt is the start of an empty message.
    have hne : prompt ≠ "" := by
      rintro rfl
      cases hprompt
    obtain ⟨first, rest, htext⟩ := exists_cons_of_ne_nil (mt String.toList_eq_nil_iff.mp hne)
    cases message.role with
    | system => simp [mistaken, leadsWithPrompt, hne.symm, htext]
    | user | assistant | tool => simp [mistaken, leadsWithPrompt, isRealSystem]

lemma stripped_plain (h : mistaken prompt message = false) (fresh : MessageId) :
    mistaken prompt (forgetRetention fresh (expanded message)) = false := by
  have hexpanded := expanded_plain h
  unfold forgetRetention
  split
  · simp [mistaken, leadsWithPrompt, isRealSystem, rewoundStub, user, plain]
  · exact hexpanded
  · exact hexpanded

lemma mem_tail_removeSpillReferences (h : message ∈ (removeSpillReferences fresh messages).tail) :
    ∃ other ∈ messages.tail, ∃ id, message = forgetRetention id (expanded other) := by
  cases messages with
  | nil => cases h
  | cons head rest =>
    unfold removeSpillReferences at h
    rw [filter_cons] at h
    split at h
    · rw [mapIdx_cons] at h
      obtain ⟨i, hi, rfl⟩ := mem_mapIdx.mp h
      exact ⟨_, (mem_filter.mp (getElem_mem hi)).1, _, rfl⟩
    · exact mem_removeSpillReferences (mem_of_mem_tail h)

lemma mem_tail_of_mem_tail_take {index : Nat} (h : message ∈ (messages.take index).tail) :
    message ∈ messages.tail := by
  cases messages with
  | nil =>
    rw [take_nil] at h
    exact h
  | cons head rest =>
    cases index with
    | zero => cases h
    | succ index => exact mem_of_mem_take h

lemma mem_identified (h : message ∈ identified fresh messages) :
    ∃ other ∈ messages, ∃ id, message = { other with id := id } := by
  obtain ⟨i, hi, rfl⟩ := mem_mapIdx.mp h
  exact ⟨_, getElem_mem hi, _, rfl⟩

lemma anonymous_identified (h : ∀ message ∈ messages, Stored message) (fresh : MessageId) :
    (identified fresh messages).map (·.anonymous) = messages := by
  apply ext_getElem
  · simp [identified]
  intro i hi hi'
  simp only [identified, getElem_map, getElem_mapIdx]
  exact (h _ (getElem_mem hi')).anonymous

lemma inject_cases (messages : List Message) (prompt : String) (fresh : MessageId) :
    injectSystemPrompt messages prompt fresh = messages ∨
      injectSystemPrompt messages prompt fresh = .system fresh prompt :: messages := by
  unfold injectSystemPrompt
  split
  · exact .inl rfl
  split
  · exact .inl rfl
  · exact .inr rfl

lemma recordable_inject (h : ∀ message ∈ messages, message.Recordable) (prompt : String)
    (fresh : MessageId) :
    ∀ message ∈ injectSystemPrompt messages prompt fresh, message.Recordable := by
  rcases inject_cases messages prompt fresh with heq | heq
  · rw [heq]
    exact h
  · rw [heq]
    exact forall_mem_cons.mpr ⟨system_recordable fresh prompt, h⟩

lemma plain_inject (h : Unmistaken prompt messages) (fresh : MessageId) :
    Unmistaken prompt (injectSystemPrompt messages prompt fresh).tail := by
  rcases inject_cases messages prompt fresh with heq | heq
  · rw [heq]
    exact fun message hmem => h message (mem_of_mem_tail hmem)
  · rw [heq]
    exact h

lemma recordable_renumbered (h : List.Forall₂ (Renumbered written) before after)
    (hbefore : ∀ message ∈ before, message.Recordable) : ∀ message ∈ after, message.Recordable :=
  forall_of_ordinals (fun _ _ hrenumbered => hrenumbered.same)
    (fun _ _ hmessage => { hmessage with }) h hbefore

lemma plain_renumbered (h : List.Forall₂ (Renumbered written) before after)
    (hbefore : Unmistaken prompt before) :
    Unmistaken prompt after :=
  forall_of_ordinals (Q := fun message => mistaken prompt message = false)
    (fun _ _ hrenumbered => hrenumbered.same) (fun _ _ hmessage => hmessage) h hbefore

namespace SessionLoop

/-- The session does not take the message for its prompt. -/
abbrev Plain (loop : FileLoop ω ρ) (message : Message) : Prop :=
  mistaken loop.state.injectedSystemPrompt message = false

lemma Followed.eq_take {stored : List Message} (h : loop.Followed stored)
    (hlength : loop.state.persistedWatermark ≤ (assignMissingOrdinals loop.visible).length)
    (hstored : ∀ message ∈ stored, Stored message) :
    stored = ((assignMissingOrdinals loop.visible).take loop.state.persistedWatermark).map
      (·.anonymous) := by
  rw [length_assignMissingOrdinals] at hlength
  have hstart : stored = (loop.visible.take loop.state.persistedWatermark).map (·.anonymous) := by
    rcases h.agrees with hshorter | hlonger
    · rw [map_take, ← h.length]
      exact prefix_iff_eq_take.mp hshorter
    have heq := hlonger.eq_of_length_le (by rw [h.length, length_map]; omega)
    rw [← heq, take_of_length_le]
    rw [← h.length, ← heq, length_map]
  have hnumbered : ∀ message ∈ loop.visible.take loop.state.persistedWatermark,
      message.ordinal.isSome := fun message hmem =>
    (hstored message.anonymous (hstart ▸ mem_map_of_mem hmem)).numbered
  rw [hstart]
  unfold assignMissingOrdinals
  conv_rhs =>
    rw [← take_append_drop loop.state.persistedWatermark loop.visible,
      numberFrom_append_of_numbered hnumbered]
  rw [take_append_of_le_length (by rw [length_take]; omega), take_take, Nat.min_self]

namespace Tracked

lemma of_latched (hrecordable : ∀ message ∈ loop'.messages, message.Recordable)
    (hplain : ∀ message ∈ loop'.messages.tail, loop'.Plain message)
    (hsound : loop'.store.Sound key loop'.Plain)
    (hlatched : loop'.Clean → loop'.state.persistedWatermark = 0) : loop'.Tracked key := by
  refine ⟨hrecordable, hplain, hsound, fun hclean _ hpos => ?_⟩
  rw [hlatched hclean] at hpos
  exact absurd hpos (Nat.lt_irrefl 0)

variable (h : loop.Tracked key)

include h

lemma plain_visible : ∀ message ∈ loop.visible, loop.Plain message :=
  plain_remove_iff.mpr h.plain

lemma recordable_visible : ∀ message ∈ loop.visible, message.Recordable :=
  fun message hmem => h.recordable message (mem_of_mem_remove hmem)

lemma plain_assigned : ∀ message ∈ assignMissingOrdinals loop.visible, loop.Plain message :=
  plain_renumbered (assignMissingOrdinals_renumbered _) h.plain_visible

lemma writable_assigned : ∀ message ∈ assignMissingOrdinals loop.visible, Writable message :=
  fun message hmem => ⟨recordable_renumbered (assignMissingOrdinals_renumbered _)
    h.recordable_visible message hmem,
    isSome_of_mem_numbered (assignMissingOrdinals_numbers _) message hmem⟩

/-! ### Steps that save nothing -/

lemma of_same (hmessages : loop'.messages = loop.messages)
    (hprompt : loop'.state.injectedSystemPrompt = loop.state.injectedSystemPrompt)
    (hwatermark : loop'.state.persistedWatermark = loop.state.persistedWatermark)
    (hdirty : loop'.state.durablePrefixDirty = loop.state.durablePrefixDirty)
    (hlatch : loop'.durablePrefix = loop.durablePrefix)
    (hsettled : loop'.unsettled = loop.unsettled)
    (hstore : loop'.store = loop.store) : loop'.Tracked key := by
  have hvisible : loop'.visible = loop.visible := by
    rw [visible, visible, hmessages, hprompt]
  refine ⟨hmessages ▸ h.recordable, ?_, ?_, ?_⟩
  · rw [hmessages, hprompt]
    exact h.plain
  · rw [hstore, hprompt]
    exact h.sound
  rintro ⟨hstate, hstart, hunsettled⟩
  rw [hstore, hwatermark]
  intro hvouched hpos transcript session hentire
  have hclean : loop.Clean := ⟨hdirty ▸ hstate, hlatch ▸ hstart, hsettled ▸ hunsettled⟩
  obtain ⟨hlength, hagrees⟩ := h.clean hclean hvouched hpos transcript session hentire
  exact ⟨hwatermark ▸ hlength, hvisible ▸ hagrees⟩

lemma append (hregular : (LoopStep.append message : LoopStep ω ρ ε).Regular loop) :
    Tracked key { loop with messages := loop.messages ++ [message] } := by
  obtain ⟨hrecordable, hplain, hsaved⟩ := hregular
  have hvisible : visible { loop with messages := loop.messages ++ [message] } =
      loop.visible ++ [message] := remove_append hplain
  refine ⟨?_, ?_, h.sound, ?_⟩
  · exact forall_mem_append.mpr ⟨h.recordable, forall_mem_singleton.mpr hrecordable⟩
  · rw [← plain_remove_iff]
    rw [remove_append hplain]
    exact forall_mem_append.mpr ⟨h.plain_visible, forall_mem_singleton.mpr hplain⟩
  intro hclean hvouched hpos transcript session hentire
  have hclean' : loop.Clean := { hclean with }
  obtain ⟨hlength, hagrees⟩ := h.clean hclean' hvouched hpos transcript session hentire
  refine ⟨hlength, ?_⟩
  rw [hvisible, map_append]
  rcases hagrees with hshorter | hlonger
  · exact .inl (hshorter.trans (prefix_append _ _))
  by_cases hreached : loop.visible.length < loop.state.persistedWatermark
  · -- The message is the one the file holds at that place.
    obtain ⟨messages, run, hheld, hmessage⟩ := hsaved hclean' hreached
    rw [hentire.held] at hheld
    obtain ⟨rfl, -⟩ := Prod.mk.inj (Option.some.inj (Option.some.inj hheld))
    right
    obtain ⟨others, hothers⟩ := hlonger
    rw [← hothers] at hmessage ⊢
    rw [List.getElem?_append_right (by simp), length_map, Nat.sub_self] at hmessage
    cases others with
    | nil => cases hmessage
    | cons other rest =>
      obtain rfl : other = message.anonymous := Option.some.inj hmessage
      exact ⟨rest, by simp⟩
  · left
    have heq := hlonger.eq_of_length_le (by rw [length_map]; omega)
    rw [← heq]
    exact prefix_append _ _

lemma rewind (target : RewindTarget)
    (legacyIndexWindow : Nat) : (loop.rewind target legacyIndexWindow).Tracked key := by
  unfold SessionLoop.rewind
  split
  · rename_i messages hrewound
    obtain ⟨index, -, rfl⟩ := rewound_eq hrewound
    refine .of_latched ?_ ?_ h.sound fun _ => rfl
    · intro message hmem
      obtain ⟨other, hother, id, rfl⟩ := mem_removeSpillReferences hmem
      exact stripped_recordable (h.recordable other (mem_of_mem_take hother)) id
    intro message hmem
    obtain ⟨other, hother, id, rfl⟩ := mem_tail_removeSpillReferences hmem
    exact stripped_plain (h.plain other (mem_tail_of_mem_tail_take hother)) id
  · exact h

lemma load : loop.load.Tracked key := by
  unfold SessionLoop.load
  split
  swap
  · exact h
  rename_i parsed hparsed
  obtain ⟨transcript, hfile, hparse⟩ := Option.bind_eq_some_iff.mp hparsed
  obtain ⟨session, intact, hread, hstored, hentire⟩ := h.sound.reads transcript hfile
  obtain rfl : parsed = ⟨some key, session, intact⟩ := Option.some.inj (hparse.symm.trans hread)
  have hplain : Unmistaken loop.state.injectedSystemPrompt
      (identified loop.nextId session.messages) := by
    intro message hmem
    obtain ⟨other, hother, id, rfl⟩ := mem_identified hmem
    exact (hstored other hother).2
  refine ⟨recordable_inject ?_ _ _, plain_inject hplain _, ⟨h.sound.reads, ?_⟩, ?_⟩
  · intro message hmem
    obtain ⟨other, hother, id, rfl⟩ := mem_identified hmem
    exact { (hstored other hother).1.recordable with }
  · intro hvouched transcript' hfile'
    obtain rfl : transcript = transcript' := Option.some.inj (hfile.symm.trans hfile')
    exact ⟨session, hentire hvouched⟩
  intro _ _ _ transcript' session' hentire'
  obtain rfl : transcript = transcript' := Option.some.inj (hfile.symm.trans hentire'.file)
  obtain rfl : session = session' :=
    congrArg (·.session) (Option.some.inj (hread.symm.trans hentire'.parse))
  have hvisible : (loop.loaded ⟨some key, session, intact⟩).visible =
      identified loop.nextId session.messages := remove_inject hplain _
  refine ⟨?_, .inl ⟨[], ?_⟩⟩
  · show session.messages.length = (identified loop.nextId session.messages).length
    simp [identified]
  · rw [append_nil, hvisible, anonymous_identified (fun message hmem => (hstored message hmem).1)]

lemma restarted : loop.restarted.Tracked key :=
  .of_latched (forall_mem_nil _) (forall_mem_nil _)
    ⟨h.sound.reads, fun hvouched => nomatch hvouched⟩ fun _ => rfl

/-! ### Saves -/

/-- A save that fails leaves the conversation with its numbers withdrawn, with or without its
prompt, and the session unsettled. -/
lemma undone (hprompt : loop'.state.injectedSystemPrompt = loop.state.injectedSystemPrompt)
    (hsound : loop'.store.Sound key loop.Plain) (hunsettled : loop'.unsettled = true)
    (hmessages : loop'.messages = withdrawOrdinals (unnumbered loop.visible)
        (assignMissingOrdinals loop.visible) ∨
      ∃ fresh, loop'.messages = withdrawOrdinals (unnumbered loop.visible)
        (injectSystemPrompt (assignMissingOrdinals loop.visible)
          loop.state.injectedSystemPrompt fresh)) : loop'.Tracked key := by
  have hwithdrawn := withdrawn_renumbered loop.visible
  have hrecordable := recordable_renumbered hwithdrawn h.recordable_visible
  have hplain := plain_renumbered hwithdrawn h.plain_visible
  have hboth : (∀ message ∈ loop'.messages, message.Recordable) ∧
      ∀ message ∈ loop'.messages.tail, loop'.Plain message := by
    unfold Plain
    rw [hprompt]
    rcases hmessages with hmessages | ⟨fresh, hmessages⟩
    · rw [hmessages]
      exact ⟨hrecordable, fun message hmem => hplain message (mem_of_mem_tail hmem)⟩
    · rw [hmessages, withdraw_inject]
      exact ⟨recordable_inject hrecordable _ _, plain_inject hplain _⟩
  refine .of_latched hboth.1 hboth.2 (by unfold Plain; rw [hprompt]; exact hsound) fun hclean => ?_
  rw [hclean.unsettled] at hunsettled
  cases hunsettled

/-- A save that is done leaves the conversation numbered, and the file followed by it. -/
lemma done (loop' : FileLoop ω ρ)
    (hprompt : loop'.state.injectedSystemPrompt = loop.state.injectedSystemPrompt)
    (hsound : loop'.store.Sound key loop.Plain)
    (hmessages : loop'.messages = injectSystemPrompt (assignMissingOrdinals loop.visible)
      loop.state.injectedSystemPrompt fresh)
    (added : List Message) {nothing : Bool} {run : Option ω}
    (hfile : if nothing then loop'.store.file = none
      else Holds key loop'.store.file (assignMissingOrdinals loop.visible ++ added) run)
    (hwatermark : loop'.state.persistedWatermark =
      (assignMissingOrdinals loop.visible ++ added).length) :
    loop'.Tracked key ∧ loop'.visible = assignMissingOrdinals loop.visible := by
  have hvisible : loop'.visible = assignMissingOrdinals loop.visible := by
    rw [visible, hmessages, hprompt]
    exact remove_inject h.plain_assigned fresh
  refine ⟨⟨?_, ?_, by rw [hprompt]; exact hsound, ?_⟩, hvisible⟩
  · rw [hmessages]
    exact recordable_inject (fun message hmem => (h.writable_assigned message hmem).recordable) _ _
  · rw [hmessages, hprompt]
    exact plain_inject h.plain_assigned _
  intro _ _ _ transcript session hentire
  cases nothing with
  | true =>
    rw [hfile] at hentire
    cases hentire.file
  | false =>
    obtain ⟨transcript', session', hentire', hsession, -⟩ :
      Holds key loop'.store.file _ run := hfile
    obtain rfl : transcript' = transcript := Option.some.inj (hentire'.file.symm.trans hentire.file)
    obtain rfl : session' = session :=
      congrArg (·.session) (Option.some.inj (hentire'.parse.symm.trans hentire.parse))
    refine ⟨?_, .inr ?_⟩
    · rw [hsession, length_map, hwatermark]
    · rw [hvisible, hsession, map_append]
      exact prefix_append _ _

lemma writesPending_messages (pending : Message) :
    ∃ numbered, (loop.writesPending pending).messages =
        assignMissingOrdinals loop.visible ++ [numbered] ∧ Numbered pending numbered :=
  assignMissingOrdinals_concat (fun message hmem => (h.writable_assigned message hmem).numbered)
    pending

variable [DecidableEq ω] [DecidableEq ρ] {fate : Fate ε (Landing ε)} (unreadable : ε)
  (hreach : fate.landing.reach ≠ .torn false)

include hreach

lemma writes_lands (trigger : SaveTrigger) : Lands key loop.Plain loop.store
      (loop.writes trigger).nothing (assignMissingOrdinals loop.visible) loop.workflowRun
      ((loop.writes trigger).apply (fileStore key unreadable) fate.landing loop.store) := by
  refine (loop.writes trigger).lands unreadable (fun _ hmessage => hmessage) h.sound
    h.writable_assigned h.plain_assigned hreach ?_
  intro hmode _ hpos hlength hvouched transcript session hentire
  have hlatches : (trigger.forcesFullSave || (loop.state.durablePrefixDirty ||
      (loop.durablePrefix || loop.unsettled)) || (loop.writes trigger).roster.isSome) = false := by
    by_contra hset
    rw [Bool.not_eq_false] at hset
    have hfull : (loop.writes trigger).mode = .full := if_pos hset
    rw [hfull] at hmode
    cases hmode
  simp only [Bool.or_eq_false_iff] at hlatches
  have hclean : loop.Clean := ⟨hlatches.1.2.1, hlatches.1.2.2.1, hlatches.1.2.2.2⟩
  have hwatermark : (loop.writes trigger).watermark =
      if (assignMissingOrdinals loop.visible).length < loop.state.persistedWatermark then 0
      else loop.state.persistedWatermark := rfl
  rw [hwatermark] at hpos hlength ⊢
  split at hpos
  · exact absurd hpos (Nat.lt_irrefl 0)
  rename_i hnotShort
  rw [if_neg hnotShort] at hlength ⊢
  exact (h.clean hclean hvouched hpos transcript session hentire).eq_take hlength
    hentire.whole.stored

lemma writesPending_lands {pending : Message} (hrecordable : pending.Recordable)
    (hplain : loop.Plain pending) : Lands key loop.Plain loop.store
      (loop.writesPending pending).nothing (loop.writesPending pending).messages loop.workflowRun
      ((loop.writesPending pending).apply (fileStore key unreadable) fate.landing loop.store) := by
  obtain ⟨numbered, hmessages, hnumbered⟩ := h.writesPending_messages pending
  refine (loop.writesPending pending).lands unreadable (fun _ hmessage => hmessage) h.sound ?_ ?_
    hreach nofun
  · rw [hmessages]
    refine forall_mem_append.mpr ⟨h.writable_assigned, forall_mem_singleton.mpr ?_⟩
    refine ⟨?_, hnumbered.some⟩
    rw [hnumbered.same]
    exact { hrecordable with }
  · rw [hmessages]
    refine forall_mem_append.mpr ⟨h.plain_assigned, forall_mem_singleton.mpr ?_⟩
    rw [Plain, hnumbered.same]
    exact hplain

end Tracked

end SessionLoop

end Kept

/-! ## What a save leaves -/

def ReadsAs (key : String) (file : Option (Transcript ω ρ)) (messages : List Message)
    (run : Option ω) : Prop :=
  ∃ transcript session, file = some transcript ∧
    parseSessionRecords transcript = some ⟨some key, session, true⟩ ∧
    session.messages = messages.map (·.anonymous) ∧ session.workflowRun = run

lemma Holds.readsAs {key : String} {file : Option (Transcript ω ρ)} {messages : List Message}
    {run : Option ω} (h : Holds key file messages run) : ReadsAs key file messages run := by
  obtain ⟨transcript, session, hentire, hmessages, hrun⟩ := h
  exact ⟨transcript, session, hentire.file, hentire.parse, hmessages, hrun⟩

/-- After a save that answered so, the file is the conversation without its prompt, followed
by the prompt that is about to run; there is no file where there is nothing to save. -/
def SaveCall.LeavesFile (key : String) (before after : FileLoop ω ρ) : SaveCall → Prop
  | .save trigger =>
    if (before.writes trigger).nothing then after.visible = [] ∧ after.store.file = none
    else ReadsAs key after.store.file after.visible after.workflowRun
  | .saveWithPendingPrompt pending =>
    ∃ prompt, after.pending = some prompt ∧ Numbered pending prompt ∧
      ReadsAs key after.store.file (after.visible ++ [prompt]) after.workflowRun

/-- What a save leaves of the file: the conversation when it answers so, and otherwise what
the file held or what the save was writing. -/
structure SaveCall.Settles (call : SaveCall) (key : String) (before : FileLoop ω ρ)
    (answer : StepAnswer ε) (after : FileLoop ω ρ) : Prop where
  saved : AnsweredSaved answer → call.LeavesFile key before after
  failed : ¬ AnsweredSaved answer → held after.store.file = held before.store.file ∨
    held after.store.file =
      some (stored (call.writes before).nothing (call.writes before).messages before.workflowRun)

section Saves

variable [DecidableEq ω] [DecidableEq ρ] {key : String} {loop after : FileLoop ω ρ}
  {fate : Fate ε (Landing ε)} {call : SaveCall} {answer : StepAnswer ε}

omit [DecidableEq ω] [DecidableEq ρ] in
lemma SaveCall.Settles.unsaved (hanswer : ¬ AnsweredSaved answer)
    (hheld : held after.store.file = held loop.store.file ∨ held after.store.file =
      some (stored (call.writes loop).nothing (call.writes loop).messages loop.workflowRun)) :
    call.Settles key loop answer after :=
  ⟨fun hsaved => absurd hsaved hanswer, fun _ => hheld⟩

omit [DecidableEq ω] [DecidableEq ρ] in
lemma SaveCall.Settles.of_saved (hanswer : AnsweredSaved answer)
    (hleaves : call.LeavesFile key loop after) : call.Settles key loop answer after :=
  ⟨fun _ => hleaves, fun hnot => absurd hanswer hnot⟩

omit [DecidableEq ω] [DecidableEq ρ] in
lemma leavesFile_save {trigger : SaveTrigger}
    (hfile : if (loop.writes trigger).nothing then after.store.file = none
      else Holds key after.store.file (assignMissingOrdinals loop.visible) after.workflowRun)
    (hvisible : after.visible = assignMissingOrdinals loop.visible) :
    (SaveCall.save trigger).LeavesFile key loop after := by
  have hmessages : (loop.writes trigger).messages = assignMissingOrdinals loop.visible := rfl
  show if (loop.writes trigger).nothing then after.visible = [] ∧ after.store.file = none
    else ReadsAs key after.store.file after.visible after.workflowRun
  cases hnothing : (loop.writes trigger).nothing with
  | true =>
    rw [hnothing] at hfile
    rw [Write.nothing, Bool.and_eq_true, Bool.and_eq_true, List.isEmpty_iff, hmessages] at hnothing
    exact ⟨hvisible.trans hnothing.1.1, hfile⟩
  | false =>
    rw [hnothing] at hfile
    rw [hvisible]
    exact Holds.readsAs hfile

lemma SessionLoop.Tracked.lands (h : loop.Tracked key) (unreadable : ε)
    (hregular : (LoopStep.save call fate : LoopStep ω ρ ε).Regular loop) :
    Lands key loop.Plain loop.store (call.writes loop).nothing (call.writes loop).messages
      loop.workflowRun
      ((call.writes loop).apply (fileStore key unreadable) fate.landing loop.store) := by
  obtain ⟨-, hreach, hcall⟩ := hregular
  cases call with
  | save trigger => exact h.writes_lands unreadable hreach trigger
  | saveWithPendingPrompt pending => exact h.writesPending_lands unreadable hreach hcall.1 hcall.2

lemma SessionLoop.Tracked.saved (h : loop.Tracked key) {unreadable : ε}
    (hsound : ((call.writes loop).apply (fileStore key unreadable) fate.landing loop.store).2.Sound
      key loop.Plain)
    (hfile : if (call.writes loop).nothing then
        ((call.writes loop).apply (fileStore key unreadable) fate.landing loop.store).2.file = none
      else Holds key
        ((call.writes loop).apply (fileStore key unreadable) fate.landing loop.store).2.file
        (call.writes loop).messages loop.workflowRun) :
    let after := call.commits (call.writes loop).messages.length
      (call.handed (fileStore key unreadable) fate loop)
    after.Tracked key ∧ call.LeavesFile key loop after := by
  cases call with
  | save trigger =>
    intro after
    obtain ⟨htracked, hvisible⟩ := h.done after rfl hsound rfl []
      (by rw [append_nil]; exact hfile) (by rw [append_nil]; rfl)
    exact ⟨htracked, leavesFile_save hfile hvisible⟩
  | saveWithPendingPrompt pending =>
    intro after
    obtain ⟨numbered, hmessages, hnumbered⟩ := h.writesPending_messages pending
    have hnothing : (loop.writesPending pending).nothing = false := by
      simp [Write.nothing, hmessages]
    rw [SaveCall.writes, hnothing, hmessages] at hfile
    -- The prompt that is left is the one that was written.
    have hprompt : { pending with
        ordinal := (loop.writesPending pending).messages.getLast?.bind (·.ordinal) }
        = numbered := by
      rw [hmessages, List.getLast?_concat]
      exact hnumbered.same.symm
    obtain ⟨htracked, hvisible⟩ := h.done after rfl hsound rfl [numbered] hfile
      (congrArg List.length hmessages)
    refine ⟨htracked, numbered, congrArg some hprompt, hnumbered, ?_⟩
    rw [hvisible]
    exact Holds.readsAs hfile

lemma SessionLoop.Tracked.saveCall (h : loop.Tracked key) (unreadable : ε)
    (hregular : (LoopStep.save call fate : LoopStep ω ρ ε).Regular loop) :
    let ended := call.run (fileStore key unreadable) fate loop
    ended.2.Tracked key ∧ call.Settles key loop ended.1 ended.2 := by
  have hlands := h.lands unreadable hregular
  have hends := call.run_ends (fileStore key unreadable) fate loop
  generalize call.run (fileStore key unreadable) fate loop = result at hends ⊢
  cases hends with
  | unopened _ unsaved same =>
    rw [same]
    exact ⟨h.of_same rfl rfl rfl rfl rfl rfl rfl, .unsaved unsaved (.inl rfl)⟩
  | cut _ _ messages prompt stored =>
    have hmessages := congrArg (withdrawOrdinals (unnumbered loop.visible)) messages
    rcases stored with hsame | hwrote
    · exact ⟨h.undone prompt (hsame ▸ h.sound) rfl (.inl hmessages),
        .unsaved not_answeredSaved_none (.inl (congrArg (held ·.file) hsame))⟩
    · exact ⟨h.undone prompt (hwrote ▸ hlands.sound) rfl (.inl hmessages),
        .unsaved not_answeredSaved_none (hwrote ▸ hlands.fails)⟩
  | failed _ _ _ unsaved unsettled messages prompt stored =>
    exact ⟨h.undone prompt (stored ▸ hlands.sound) unsettled (.inr ⟨_, messages⟩),
      .unsaved unsaved (stored ▸ hlands.fails)⟩
  | uncommitted _ _ _ commit => exact absurd commit hregular.1
  | saved _ _ answered _ =>
    obtain ⟨htracked, hleaves⟩ := h.saved hlands.sound
      (hlands.saved (by cases call <;> exact answered))
    exact ⟨htracked, .of_saved ⟨_, _, rfl⟩ hleaves⟩

lemma SessionLoop.Tracked.step (h : loop.Tracked key) (unreadable : ε) (input : LoopStep ω ρ ε)
    (hregular : input.Regular loop) : (loop.step key unreadable input).2.Tracked key := by
  cases input with
  | append message => exact h.append hregular
  | rewrite messages =>
    exact .of_latched hregular.1 hregular.2 h.sound fun hclean => (nomatch hclean.durablePrefix)
  | rewind target legacyIndexWindow => exact h.rewind target legacyIndexWindow
  | setWorkflow _ | setRoster _ => exact h.of_same rfl rfl rfl rfl rfl rfl rfl
  | save call fate => exact (h.saveCall unreadable hregular).1
  | load restart =>
    cases restart with
    | true => exact h.restarted.load
    | false => exact h.load

/-! ## Whole lives -/

structure SessionLoop.New (loop : FileLoop ω ρ) : Prop where
  recordable : ∀ message ∈ loop.messages, message.Recordable
  plain : Unmistaken loop.state.injectedSystemPrompt loop.messages.tail
  file : loop.store.file = none
  unvouched : loop.store.vouched = false
  watermark : loop.state.persistedWatermark = 0

omit [DecidableEq ω] [DecidableEq ρ] in
lemma SessionLoop.New.tracked (h : loop.New) (key : String) : loop.Tracked key := by
  refine .of_latched h.recordable h.plain ⟨?_, ?_⟩ fun _ => h.watermark
  · intro transcript hfile
    rw [h.file] at hfile
    cases hfile
  intro hvouched
  rw [h.unvouched] at hvouched
  cases hvouched

/-- Along every life of regular steps, each save that answers so leaves the file equal to
the conversation, and every other save leaves what the file held or what it was writing. -/
theorem saves_settle_along_regular_lives (key : String) (unreadable : ε) (loop : FileLoop ω ρ)
    (hnew : loop.New) (steps : List (LoopStep ω ρ ε))
    (hregular : ∀ m ∈ moments (step key unreadable) loop steps, m.input.Regular m.before) :
    ∀ m ∈ moments (step key unreadable) loop steps, ∀ call fate,
      m.input = .save call fate → call.Settles key m.before m.output m.after := by
  refine moments_forall_of_allowed (I := Tracked key)
    (fun _ input h hallowed => h.step unreadable input hallowed) ?_ (hnew.tracked key) hregular
  rintro loop _ h hallowed call fate rfl
  exact (h.saveCall unreadable hallowed).2

end Saves

/-! ## Two lives -/

def sampleFileLoop : FileLoop Unit Unit where
  messages := [.system 0 "Be brief.", .user 1 "one"]
  pending := none
  state := ⟨"Be brief.", 0, false, false⟩
  durablePrefix := false
  unsettled := false
  workflowRun := none
  roster := none
  ephemeral := false
  home := false
  nextId := 7
  store := ⟨none, false⟩

def sampleSave (drop : Option Await) : LoopStep Unit Unit Unit :=
  .save (.save .routine) ⟨drop, .ok (), .ok true, .saved⟩

lemma sampleFileLoop_new : sampleFileLoop.New where
  recordable := by
    intro message hmem
    rcases mem_pair.mp hmem with rfl | rfl
    · exact system_recordable 0 "Be brief."
    · exact user_recordable 1 "one"
  plain := forall_mem_singleton.mpr rfl
  file := rfl
  unvouched := rfl
  watermark := rfl

def sampleLife (drop : Option Await) : List (LoopStep Unit Unit Unit) :=
  [sampleSave none, .append (.user 2 "two"), sampleSave drop, .append (.user 3 "three")]

def sampleMoment (drop : Option Await) :
    Moment (FileLoop Unit Unit) (LoopStep Unit Unit Unit) (StepAnswer Unit) :=
  momentAt (step "s" ()) (exec (step "s" ()) sampleFileLoop (sampleLife drop))
    (sampleSave none)

lemma sampleMoment_mem (drop : Option Await) : sampleMoment drop ∈
    moments (step "s" ()) sampleFileLoop (sampleLife drop ++ [sampleSave none]) := by
  rw [moments_append]
  exact mem_append_right _ mem_cons_self

lemma sampleSave_regular {drop : Option Await} (hdrop : drop ≠ some .commit)
    (loop : FileLoop Unit Unit) : (sampleSave drop).Regular loop :=
  ⟨hdrop, by simp [Landing.reach], trivial⟩

lemma append_user_regular {loop : FileLoop ω ρ}
    (h : loop.state.persistedWatermark ≤ loop.visible.length) (id : MessageId) (content : String) :
    (LoopStep.append (.user id content) : LoopStep ω ρ ε).Regular loop := by
  refine ⟨user_recordable id content, ?_, fun _ hshort => absurd h (Nat.not_le.mpr hshort)⟩
  simp [mistaken, leadsWithPrompt, isRealSystem, user, plain]

/-- Dropped before it writes, the second save is made up for by the third. -/
theorem saves_settle_along_sample_life :
    (SaveCall.save .routine).Settles "s" (sampleMoment (some .latches)).before
      (sampleMoment (some .latches)).output (sampleMoment (some .latches)).after := by
  refine saves_settle_along_regular_lives "s" () sampleFileLoop sampleFileLoop_new
    (sampleLife (some .latches) ++ [sampleSave none]) ?_ _ (sampleMoment_mem _) _ _ rfl
  simp only [sampleLife, cons_append, nil_append, moments_cons, moments_nil, forall_mem_cons]
  refine ⟨sampleSave_regular (by decide) _, append_user_regular ?_ 2 "two",
    sampleSave_regular (by decide) _, append_user_regular ?_ 3 "three",
    sampleSave_regular (by decide) _, forall_mem_nil _⟩
  · decide +kernel
  · decide +kernel

/-- Dropped while it waits to commit, the second save leaves the old watermark, and the
third one appends from a place the file is already past: it answers that it saved three
messages, and the file reads as two. -/
theorem save_after_dropped_commit_is_lost :
    sampleFileLoop.New ∧ AnsweredSaved (sampleMoment (some .commit)).output ∧
      (sampleMoment (some .commit)).after.visible.map (·.content) = ["one", "two", "three"] ∧
      (held (sampleMoment (some .commit)).after.store.file).map (·.map (·.1.map (·.content))) =
        some (some ["one", "two"]) ∧
      ¬ (SaveCall.save .routine).LeavesFile "s" (sampleMoment (some .commit)).before
        (sampleMoment (some .commit)).after := by
  have hvisible : (sampleMoment (some .commit)).after.visible.map (·.content) =
      ["one", "two", "three"] := by decide +kernel
  have hheld : ((sampleMoment (some .commit)).after.store.file.bind parseSessionRecords).map
      (·.session.messages.map (·.content)) = some ["one", "two"] := by decide +kernel
  have hnothing : ((sampleMoment (some .commit)).before.writes .routine).nothing = false := by
    decide +kernel
  refine ⟨sampleFileLoop_new, ⟨.cleanDelta, 3, by decide +kernel⟩, hvisible, by decide +kernel, ?_⟩
  intro hleaves
  generalize sampleMoment (some .commit) = moment at *
  have hreads : if (moment.before.writes .routine).nothing then
      moment.after.visible = [] ∧ moment.after.store.file = none
    else ReadsAs "s" moment.after.store.file moment.after.visible
      moment.after.workflowRun := hleaves
  rw [hnothing] at hreads
  obtain ⟨transcript, session, hfile, hparse, hmessages, -⟩ : ReadsAs "s" _ _ _ := hreads
  have hcontents : session.messages.map (·.content) = moment.after.visible.map (·.content) := by
    rw [hmessages, map_map]
    rfl
  rw [hfile, Option.bind_some, hparse, Option.map_some, hcontents, hvisible] at hheld
  exact absurd hheld (by decide)

/-- A prompt saved before its turn and another message in its place: the next save writes
nothing, and the file keeps the prompt. -/
example :
    let steps := [.save (.saveWithPendingPrompt (.user 2 "two")) ⟨none, .ok (), .ok true, .saved⟩,
      .append (.user 3 "three"), sampleSave none]
    let after := exec (step "s" ()) sampleFileLoop steps
    after.visible.map (·.content) = ["one", "three"] ∧
      (held after.store.file).map (·.map (·.1.map (·.content))) = some (some ["one", "two"]) := by
  decide +kernel

end Quecto.Sessions
