/-
  Sessions/Accounting.lean --- what the conversation ledger retains, lists and counts.
-/
import Quecto.Sessions.Ledger

namespace Quecto.Sessions

open Foundation List

namespace ConversationLedger

variable {state : ConversationLedger} {message : Message} {messages : List Message}

/-! ## The retained copies -/

/-- The order lists the retained copies, oldest first and each once, and the bytes are
counted as they stand. -/
structure Accounted (state : ConversationLedger) : Prop where
  order : state.ledgerOrder = state.ledger.map (·.id)
  once : state.ledgerOrder.Nodup
  bytes : state.ledgerBytes = (state.ledger.map messageBytes).sum

lemma sum_replaced {held : List Message} (honce : (held.map (·.id)).Nodup) {earlier : Message}
    (hfound : held.find? (fun other => other.id == message.id) = some earlier) :
    ∃ others, (held.map messageBytes).sum = others + messageBytes earlier ∧
      ((held.map fun other => if other.id = message.id then message else other).map
        messageBytes).sum = others + messageBytes message := by
  induction held with
  | nil => cases hfound
  | cons first rest ih =>
    obtain ⟨hfresh, honce⟩ := nodup_cons.mp honce
    simp only [map_cons, sum_cons]
    by_cases hid : first.id = message.id
    · -- the only entry under this id, so the rest stays as it is
      have hrest : ∀ other ∈ rest, (if other.id = message.id then message else other) = other :=
        fun other hother => if_neg fun hsame =>
          hfresh (mem_map.mpr ⟨other, hother, hsame.trans hid.symm⟩)
      obtain rfl : first = earlier := by simpa [hid] using hfound
      refine ⟨(rest.map messageBytes).sum, Nat.add_comm _ _, ?_⟩
      rw [if_pos hid, map_congr_left hrest, map_id', Nat.add_comm]
    · obtain ⟨others, hsum, hreplaced⟩ := ih honce (by simpa [hid] using hfound)
      rw [if_neg hid, hsum, hreplaced]
      exact ⟨messageBytes first + others, (Nat.add_assoc ..).symm, (Nat.add_assoc ..).symm⟩

lemma Accounted.insert (h : state.Accounted) (message : Message) :
    (state.insert message).Accounted := by
  have honce : (state.ledger.map (·.id)).Nodup := h.order ▸ h.once
  unfold ConversationLedger.insert
  split
  · rename_i earlier hcopy
    obtain ⟨others, hsum, hreplaced⟩ := sum_replaced honce hcopy
    refine ⟨h.order.trans (ids_replaced state.ledger message).symm, h.once, ?_⟩
    rw [h.bytes, hsum, Nat.add_sub_cancel]
    exact hreplaced.symm
  · rename_i hnone
    have hnew : message.id ∉ state.ledgerOrder := by
      rw [h.order, ← fullCopy_isSome_iff, hnone]
      exact Bool.false_ne_true
    refine ⟨?_, ?_, ?_⟩
    · simp [h.order]
    · exact nodup_append.mpr ⟨h.once, nodup_singleton _, by
        rintro id hid _ hsame rfl
        exact hnew (mem_singleton.mp hsame ▸ hid)⟩
    · simp [h.bytes]

lemma dropOldest_ledgerOrder (old : MessageId) (rest : List MessageId) :
    (state.dropOldest old rest).ledgerOrder = rest := by
  unfold dropOldest
  split <;> rfl

lemma Accounted.dropOldest (h : state.Accounted) {old : MessageId} {rest : List MessageId}
    (horder : state.ledgerOrder = old :: rest) : (state.dropOldest old rest).Accounted := by
  have honce := h.once
  rw [horder] at honce
  obtain ⟨oldest, kept, hledger, rfl, hrest⟩ := map_eq_cons_iff.mp (h.order.symm.trans horder)
  have hcopy : state.fullCopy oldest.id = some oldest := by simp [fullCopy, hledger]
  rw [ConversationLedger.dropOldest, hcopy]
  refine ⟨?_, (nodup_cons.mp honce).2, ?_⟩
  · simp [hledger, hrest]
  · simp [hledger, h.bytes]

variable {order : List MessageId}

/-- Eviction ends within both caps: when nothing is listed any more, nothing is retained. -/
lemma Accounted.evictFrom (h : state.Accounted)
    (horder : state.ledgerOrder = order) :
    (evictFrom order state).Accounted ∧ (evictFrom order state).overCap = false := by
  induction order generalizing state with
  | nil =>
    have hnone : state.ledger = [] := map_eq_nil_iff.mp (h.order.symm.trans horder)
    refine ⟨h, ?_⟩
    simp [ConversationLedger.evictFrom, overCap, h.bytes, hnone]
  | cons old rest ih =>
    unfold ConversationLedger.evictFrom
    split
    · exact ih (h.dropOldest horder) (dropOldest_ledgerOrder old rest)
    · rename_i hcap
      exact ⟨h, Bool.eq_false_iff.mpr hcap⟩

def Kept (state : ConversationLedger) : Prop := state.Accounted ∧ state.overCap = false

lemma Kept.rememberAll (h : state.Kept) (overwrite : Bool) (messages : List Message) :
    (rememberAll overwrite state messages).2.Kept := by
  induction messages generalizing state with
  | nil => exact h
  | cons message rest ih =>
    refine ih ?_
    unfold remember
    dsimp only
    split
    · exact h
    · exact (h.1.insert message).evictFrom rfl

lemma Kept.step {state : Ledgered} (op : LedgerOp) (h : state.ledger.Kept) :
    (state.step op).2.ledger.Kept := by
  cases op with
  | publish messages =>
    obtain ⟨⟨horder, honce, hbytes⟩, hcap⟩ := h.rememberAll false messages
    exact ⟨⟨horder, honce, hbytes⟩, hcap⟩
  | recordFull messages =>
    obtain ⟨⟨horder, honce, hbytes⟩, hcap⟩ := h.rememberAll true messages
    exact ⟨⟨horder, honce, hbytes⟩, hcap⟩
  | clear => exact ⟨⟨rfl, nodup_nil, rfl⟩, rfl⟩

/-! ## Batches that fit the caps -/

/-- The caps could hold these messages by themselves. -/
structure Fits (messages : List Message) : Prop where
  bytes : (messages.map messageBytes).sum ≤ ledgerMaxBytes
  entries : messages.length ≤ ledgerMaxEntries

/-- In the middle of a batch, the frontier lists what is retained, oldest first, up to the
messages that are new in the batch: those are listed when it ends. -/
structure Aligned (state : ConversationLedger) (fresh : List MessageId) : Prop
    extends Accounted state where
  listed : state.frontier.map (·.2) ++ fresh = state.ledgerOrder

lemma Accounted.not_overCap (h : state.Accounted) (hfits : Fits state.ledger) :
    state.overCap = false := by
  rw [overCap, decide_eq_false_iff_not, h.bytes, not_or, Nat.not_lt, Nat.not_lt]
  exact ⟨hfits.bytes, hfits.entries⟩

lemma dropOldest_eq {oldest : Message} {more : List Message}
    (hledger : state.ledger = oldest :: more)
    {commit : Commit} {commits : List Commit} (hfrontier : state.frontier = commit :: commits)
    (hcommit : commit.2 = oldest.id) (rest : List MessageId) :
    (state.dropOldest oldest.id rest).ledger = more ∧
      (state.dropOldest oldest.id rest).frontier = commits := by
  have hcopy : state.fullCopy oldest.id = some oldest := by simp [fullCopy, hledger]
  rw [ConversationLedger.dropOldest, hcopy]
  simp [hledger, hfrontier, hcommit]

/-- Eviction takes the oldest commits one after the other and stops, at the latest, where
what is left fits the caps. -/
lemma Aligned.evictFrom {fresh : List MessageId} (h : state.Aligned fresh)
    (horder : state.ledgerOrder = order) {kept : List Message} (hkept : kept <:+ state.ledger)
    (hfits : Fits kept) (hfresh : fresh.length ≤ kept.length) :
    (evictFrom order state).Aligned fresh ∧ (evictFrom order state).frontier <:+ state.frontier ∧
      kept <:+ (evictFrom order state).ledger := by
  induction order generalizing state with
  | nil => exact ⟨h, suffix_rfl, hkept⟩
  | cons old rest ih =>
    unfold ConversationLedger.evictFrom
    split
    swap
    · exact ⟨h, suffix_rfl, hkept⟩
    rename_i hcap
    obtain ⟨oldest, more, hledger, rfl, hrest⟩ :=
      map_eq_cons_iff.mp (h.order.symm.trans horder)
    rw [hledger, suffix_cons_iff] at hkept
    have hmore : kept <:+ more := hkept.resolve_left fun hall => by
      rw [h.not_overCap (hledger ▸ hall ▸ hfits)] at hcap
      cases hcap
    -- more is left than the batch added, so the oldest copy is a listed one
    have hlisted := h.listed
    obtain ⟨commit, commits, hfrontier⟩ : ∃ commit commits, state.frontier = commit :: commits := by
      refine exists_cons_of_ne_nil fun hnone => ?_
      rw [hnone, map_nil, nil_append, horder] at hlisted
      rw [hlisted, ← hrest, length_cons, length_map] at hfresh
      exact Nat.not_succ_le_self _ (hfresh.trans hmore.length_le)
    rw [hfrontier, horder, map_cons, cons_append, List.cons.injEq] at hlisted
    obtain ⟨hcommit, hlisted⟩ := hlisted
    obtain ⟨hledger', hfrontier'⟩ := dropOldest_eq hledger hfrontier hcommit rest
    have haligned : (state.dropOldest oldest.id rest).Aligned fresh :=
      ⟨h.toAccounted.dropOldest horder, by rw [hfrontier', hlisted, dropOldest_ledgerOrder]⟩
    obtain ⟨haligned, hsuffix, hstays⟩ :=
      ih haligned (dropOldest_ledgerOrder ..) (hledger' ▸ hmore)
    rw [hfrontier'] at hsuffix
    exact ⟨haligned, hfrontier ▸ hsuffix.trans (suffix_cons ..), hstays⟩

section

variable {P : Message → Prop}

variable (h : ∀ held ∈ state.ledger, P held)
include h

lemma forall_insert (hmessage : P message) : ∀ held ∈ (state.insert message).ledger, P held := by
  unfold ConversationLedger.insert
  split
  · rw [forall_mem_map]
    intro held hheld
    split
    · exact hmessage
    · exact h held hheld
  · exact forall_mem_append.mpr ⟨h, forall_mem_singleton.mpr hmessage⟩

lemma forall_evictFrom :
    ∀ held ∈ (evictFrom order state).ledger, P held := by
  induction order generalizing state with
  | nil => exact h
  | cons old rest ih =>
    unfold ConversationLedger.evictFrom
    split
    · refine ih fun held hheld => h held ?_
      unfold ConversationLedger.dropOldest at hheld
      split at hheld
      · exact mem_of_mem_eraseP hheld
      · exact hheld
    · exact h

lemma forall_remember (hmessage : P message)
    (overwrite : Bool) : ∀ held ∈ (state.remember message overwrite).2.ledger, P held := by
  unfold remember
  dsimp only
  split
  · exact h
  · exact forall_evictFrom (forall_insert h hmessage)

lemma forall_rememberAll (hmessages : ∀ message ∈ messages, P message) (overwrite : Bool) :
    ∀ held ∈ (rememberAll overwrite state messages).2.ledger, P held := by
  induction messages generalizing state with
  | nil => exact h
  | cons message rest ih =>
    obtain ⟨hfirst, hrest⟩ := forall_mem_cons.mp hmessages
    exact ih (forall_remember h hfirst overwrite) hrest

end

lemma Fits.small (h : Fits messages) :
    ∀ message ∈ messages, messageBytes message ≤ ledgerMaxBytes := by
  intro message hmem
  have hbytes := h.bytes
  obtain ⟨before, after, rfl⟩ := append_of_mem hmem
  rw [map_append, map_cons, sum_append, sum_cons] at hbytes
  omega

lemma Fits.of_append {later : List Message} (h : Fits (messages ++ later)) : Fits messages := by
  have ⟨hbytes, hentries⟩ := h
  rw [map_append, sum_append] at hbytes
  rw [length_append] at hentries
  exact ⟨by omega, by omega⟩

/-- A batch of which `batch` was folded in already: the messages new in it are the last ones
retained, and cost no more than the batch did. -/
structure Folding (state : ConversationLedger) (fresh : List MessageId) (batch : List Message) :
    Prop where
  aligned : state.Aligned fresh
  small : ∀ held ∈ state.ledger, messageBytes held ≤ ledgerMaxBytes
  copies : ∃ kept, kept <:+ state.ledger ∧ kept.map (·.id) = fresh ∧
    (kept.map messageBytes).sum ≤ (batch.map messageBytes).sum ∧ kept.length ≤ batch.length

variable {fresh : List MessageId} {batch : List Message}

lemma sum_replaced_le {held : List Message} (honce : (held.map (·.id)).Nodup)
    (message : Message) :
    ((held.map fun other => if other.id = message.id then message else other).map
      messageBytes).sum ≤ (held.map messageBytes).sum + messageBytes message := by
  cases hfound : held.find? fun other => other.id == message.id with
  | some earlier =>
    obtain ⟨others, hsum, hreplaced⟩ := sum_replaced honce hfound
    omega
  | none =>
    have hsame : ∀ other ∈ held, (if other.id = message.id then message else other) = other :=
      fun other hother => if_neg (by simpa using List.find?_eq_none.mp hfound other hother)
    rw [map_congr_left hsame, map_id']
    exact Nat.le_add_right ..

lemma insert_frontier (state : ConversationLedger) (message : Message) :
    (state.insert message).frontier = state.frontier := by
  unfold ConversationLedger.insert
  split <;> rfl

section

variable (h : Folding state fresh batch)
include h

lemma Folding.insert (hsmall : messageBytes message ≤ ledgerMaxBytes) :
    Folding (state.insert message)
      (if !(state.fullCopy message.id).isSome then fresh ++ [message.id] else fresh)
      (batch ++ [message]) := by
  obtain ⟨kept, hsuffix, hfresh, hbytes, hcount⟩ := h.copies
  have haccounted := h.aligned.toAccounted.insert message
  have hforall := forall_insert h.small hsmall
  have honce : (kept.map (·.id)).Nodup :=
    (h.aligned.order ▸ h.aligned.once).sublist (hsuffix.map _).sublist
  have hlisted := h.aligned.listed
  rw [ConversationLedger.insert] at haccounted hforall ⊢
  cases hcopy : state.fullCopy message.id with
  | some earlier =>
    rw [hcopy] at haccounted hforall
    refine ⟨⟨haccounted, hlisted⟩, hforall, _, hsuffix.map _,
      (ids_replaced ..).trans hfresh, ?_, ?_⟩
    · have := sum_replaced_le honce message
      rw [map_append, sum_append, map_singleton, sum_singleton]
      omega
    · simpa using hcount.trans (Nat.le_succ _)
  | none =>
    rw [hcopy] at haccounted hforall
    refine ⟨⟨haccounted, ?_⟩, hforall, kept ++ [message], ?_, ?_, ?_, ?_⟩
    · exact (append_assoc ..).symm.trans (congrArg (· ++ [message.id]) hlisted)
    · obtain ⟨dropped, hdropped⟩ := hsuffix
      exact ⟨dropped, by rw [← append_assoc, hdropped]⟩
    · simp [hfresh]
    · simpa using hbytes
    · simpa using hcount

lemma Folding.evict (hfits : Fits batch) :
    Folding state.evict fresh batch ∧ state.evict.frontier <:+ state.frontier ∧
      (state.ledger ≠ [] → state.evict.ledger ≠ []) := by
  obtain ⟨kept, hsuffix, hfresh, hbytes, hcount⟩ := h.copies
  have hkept : Fits kept := ⟨hbytes.trans hfits.bytes, hcount.trans hfits.entries⟩
  have hlength : fresh.length ≤ kept.length := by rw [← hfresh, length_map]
  obtain ⟨haligned, hfrontier, hstays⟩ := h.aligned.evictFrom rfl hsuffix hkept hlength
  refine ⟨⟨haligned, forall_evictFrom h.small, kept, hstays, hfresh, hbytes, hcount⟩, hfrontier,
    fun hsome hnone => ?_⟩
  have hempty : kept = [] := suffix_nil.mp (hnone ▸ hstays)
  -- nothing is new, and the newest copy fits by itself
  obtain ⟨before, newest, hledger⟩ := (eq_nil_or_concat' _).resolve_left hsome
  have hnewest : Fits [newest] :=
    ⟨by simpa using h.small newest (by simp [hledger]), Nat.le_of_ble_eq_true rfl⟩
  have hnew : fresh = [] := by rw [← hfresh, hempty, map_nil]
  have hlast := (h.aligned.evictFrom rfl ⟨before, hledger.symm⟩ hnewest (by simp [hnew])).2.2
  exact absurd (suffix_nil.mp (hnone ▸ hlast)) (cons_ne_nil _ _)

lemma Folding.remember (hfits : Fits (batch ++ [message])) (overwrite : Bool) :
    let one := state.remember message overwrite
    Folding one.2 (if one.1 then fresh ++ [message.id] else fresh) (batch ++ [message]) ∧
      one.2.frontier <:+ state.frontier ∧ (state.ledger ≠ [] → one.2.ledger ≠ []) := by
  unfold ConversationLedger.remember
  dsimp only
  split
  · obtain ⟨kept, hsuffix, hfresh, hbytes, hcount⟩ := h.copies
    refine ⟨⟨h.aligned, h.small, kept, hsuffix, hfresh, ?_, ?_⟩, suffix_rfl, id⟩
    · simpa using hbytes.trans (Nat.le_add_right ..)
    · simpa using hcount.trans (Nat.le_succ _)
  obtain ⟨hfolding, hfrontier, hsome⟩ :=
    (h.insert (hfits.small message (by simp))).evict hfits
  refine ⟨hfolding, state.insert_frontier message ▸ hfrontier, fun _ => hsome fun hnone => ?_⟩
  have hmem : message.id ∈ (state.insert message).ledger.map (·.id) := mem_ids_insert.mpr (.inl rfl)
  rw [hnone] at hmem
  cases hmem

lemma Folding.rememberAll (hfits : Fits (batch ++ messages)) (overwrite : Bool) :
    let folded := rememberAll overwrite state messages
    Folding folded.2 (fresh ++ folded.1) (batch ++ messages) ∧
      folded.2.frontier <:+ state.frontier ∧ (state.ledger ≠ [] → folded.2.ledger ≠ []) := by
  induction messages generalizing state fresh batch with
  | nil => exact ⟨by simpa [ConversationLedger.rememberAll] using h, suffix_rfl, id⟩
  | cons message rest ih =>
    rw [append_cons] at hfits ⊢
    obtain ⟨hone, hfrontier, hsome⟩ := h.remember hfits.of_append overwrite
    obtain ⟨hrest, hfrontier', hsome'⟩ := ih hone hfits
    refine ⟨?_, hfrontier'.trans hfrontier, fun hledger => hsome' (hsome hledger)⟩
    rw [ConversationLedger.rememberAll]
    split at hrest <;> simp_all

end

/-! ## Publishing again -/

lemma rememberAll_eq_nil_iff : (rememberAll false state messages).1 = [] ↔
      ∀ message ∈ messages, (state.fullCopy message.id).isSome = true := by
  induction messages with
  | nil => exact iff_of_true rfl (forall_mem_nil _)
  | cons message rest ih =>
    rw [rememberAll, forall_mem_cons, ← ih]
    cases hcopy : (state.fullCopy message.id).isSome <;> simp [remember, hcopy]

lemma rememberAll_of_retained
    (h : ∀ message ∈ messages, (state.fullCopy message.id).isSome = true) :
    rememberAll false state messages = ([], state) := by
  induction messages with
  | nil => rfl
  | cons message rest ih =>
    obtain ⟨hfirst, hrest⟩ := forall_mem_cons.mp h
    simp [rememberAll, remember, hfirst, ih hrest]

lemma publish_unchanged_iff (state : ConversationLedger) (messages : List Message) :
    state.publish messages = ({ epoch := state.epoch, rev := state.rev, changed := false },
          { state with messages := messages }) ↔
      ∀ message ∈ messages, (state.fullCopy message.id).isSome = true := by
  constructor
  · intro hsame
    have hchanged := congrArg (·.1.changed) hsame
    simp only [publish, advanceForNewIds, Bool.not_eq_false', List.isEmpty_iff] at hchanged
    exact rememberAll_eq_nil_iff.mp hchanged
  intro hretained
  rw [publish, rememberAll_of_retained hretained]
  simp [advanceForNewIds, revAfter, commits]

/-! ## Without evictions -/

lemma fullCopy_of_sparesAll {id : MessageId} {copy : Message}
    (hspares : sparesAll false state messages = true) (hcopy : state.fullCopy id = some copy) :
    (rememberAll false state messages).2.fullCopy id = some copy := by
  induction messages generalizing state with
  | nil => exact hcopy
  | cons message rest ih =>
    obtain ⟨hone, hrest⟩ := Bool.and_eq_true_iff.mp hspares
    refine ih hrest ?_
    cases hheld : state.fullCopy message.id with
    | some earlier => simpa [remember, hheld] using hcopy
    | none =>
      have hroom : (state.insert message).overCap = false := by simpa [spares, hheld] using hone
      have hremember : (state.remember message false).2 = state.insert message := by
        simp [remember, hheld, evict_of_not_overCap hroom]
      rw [hremember, ConversationLedger.insert, hheld, fullCopy, List.find?_append]
      exact Option.or_eq_some_iff.mpr (.inl hcopy)

lemma offered_of_sparesAll {overwrite : Bool}
    (hspares : sparesAll overwrite state messages = true) :
    ∀ message ∈ messages,
      message.id ∈ (rememberAll overwrite state messages).2.ledger.map (·.id) := by
  induction messages generalizing state with
  | nil => exact forall_mem_nil _
  | cons message rest ih =>
    obtain ⟨hone, hrest⟩ := Bool.and_eq_true_iff.mp hspares
    refine forall_mem_cons.mpr ⟨?_, ih hrest⟩
    exact (rememberAll_of_sparesAll hrest).2 _ (.inr ((remember_of_spares hone).2 _ (.inl rfl)))

lemma messages_evictFrom (order : List MessageId) (state : ConversationLedger) :
    (evictFrom order state).messages = state.messages := by
  induction order generalizing state with
  | nil => rfl
  | cons old rest ih =>
    unfold evictFrom
    split
    · rw [ih]
      unfold ConversationLedger.dropOldest
      split <;> rfl
    · rfl

lemma messages_rememberAll (state : ConversationLedger) (messages : List Message)
    (overwrite : Bool) : (rememberAll overwrite state messages).2.messages = state.messages := by
  induction messages generalizing state with
  | nil => rfl
  | cons message rest ih =>
    rw [rememberAll, ih]
    unfold remember
    dsimp only
    split
    · rfl
    rw [evict, messages_evictFrom]
    unfold ConversationLedger.insert
    split <;> rfl

end ConversationLedger

open ConversationLedger

namespace Ledgered

variable {state : Ledgered} {messages : List Message} {ops : List LedgerOp}

/-- The frontier is the tail of the epoch's commits whose messages are retained; once
something was committed, it is not empty. -/
structure Lined (state : Ledgered) : Prop where
  aligned : state.ledger.Aligned []
  small : ∀ held ∈ state.ledger.ledger, messageBytes held ≤ ledgerMaxBytes
  suffix : state.ledger.frontier <:+ state.committed
  nonempty : state.committed ≠ [] → state.ledger.ledger ≠ []

lemma Lined.fold (h : state.Lined) (hfits : Fits messages) (overwrite : Bool)
    (live : List Message) :
    let folded := rememberAll overwrite state.ledger messages
    Lined
      { ledger := ({ folded.2 with messages := live }.advanceForNewIds folded.1).2
        committed := state.committed ++ commits state.ledger.rev folded.1 } := by
  intro folded
  have hstart : state.ledger.Folding [] [] :=
    ⟨h.aligned, h.small, [], nil_suffix, rfl, Nat.le_refl _, Nat.le_refl _⟩
  obtain ⟨⟨⟨⟨horder, honce, hbytes⟩, hlisted⟩, hsmall, _⟩, hfrontier, hsome⟩ :=
    hstart.rememberAll hfits overwrite
  have hrev := (trims_rememberAll overwrite messages state.ledger).rev
  rw [nil_append] at hlisted
  refine ⟨⟨⟨horder, honce, hbytes⟩, ?_⟩, hsmall, ?_, fun hcommitted hnone => ?_⟩
  · rw [append_nil, ConversationLedger.advanceForNewIds, map_append, commits_ids]
    exact hlisted
  · obtain ⟨earlier, hearlier⟩ := hfrontier.trans h.suffix
    refine ⟨earlier, ?_⟩
    simp only [ConversationLedger.advanceForNewIds, folded, hrev, ← hearlier, append_assoc]
  · -- nothing is retained, so the batch had nothing new and nothing was committed before it
    have hids : folded.1 = [] := by
      rw [horder, show folded.2.ledger = [] from hnone] at hlisted
      exact (append_eq_nil_iff.mp hlisted).2
    rw [hids] at hcommitted
    exact hsome (h.nonempty (by simpa [commits] using hcommitted)) hnone

lemma Lined.step (h : state.Lined) {op : LedgerOp} (hfits : Fits op.offered) :
    (state.step op).2.Lined := by
  cases op with
  | publish messages => exact h.fold hfits false messages
  | recordFull messages =>
    exact h.fold hfits true (rememberAll true state.ledger messages).2.messages
  | clear =>
    exact ⟨⟨⟨rfl, nodup_nil, rfl⟩, rfl⟩, forall_mem_nil _, suffix_rfl,
      fun hnone => absurd rfl hnone⟩

lemma lined_exec (hfits : ∀ op ∈ ops, Fits op.offered) : (exec step empty ops).Lined := by
  have hempty : empty.Lined :=
    ⟨⟨⟨rfl, nodup_nil, rfl⟩, rfl⟩, forall_mem_nil _, suffix_rfl, fun hnone => absurd rfl hnone⟩
  exact exec_invariant_of_allowed (fun _ _ h hone => h.step hone) hempty hfits

lemma Lined.held (h : state.Lined) :
    ∀ commit ∈ state.ledger.frontier, (state.ledger.fullCopy commit.2).isSome = true := by
  intro commit hcommit
  rw [fullCopy_isSome_iff, ← h.aligned.order, ← h.aligned.listed, append_nil]
  exact mem_map_of_mem hcommit

lemma Whole.copies (h : state.Whole) :
    ∀ commit ∈ state.ledger.frontier, (state.ledger.fullCopy commit.2).isSome = true :=
  fun commit hcommit =>
    fullCopy_isSome_iff.mpr (h.held commit (h.listed ▸ hcommit))

/-- What is retained was offered. -/
lemma forall_exec {P : Message → Prop} (hoffered : ∀ op ∈ ops, ∀ message ∈ op.offered, P message) :
    ∀ held ∈ (exec step empty ops).ledger.ledger, P held := by
  refine exec_invariant_of_allowed (I := fun state : Ledgered =>
    ∀ held ∈ state.ledger.ledger, P held)
    (G := fun op => ∀ message ∈ op.offered, P message) ?_ (forall_mem_nil _) hoffered
  intro state op h hmessages
  cases op with
  | publish messages => exact forall_rememberAll h hmessages false
  | recordFull messages => exact forall_rememberAll h hmessages true
  | clear => exact forall_mem_nil _

structure Intact (state : Ledgered) : Prop extends Whole state where
  live : ∀ message ∈ state.ledger.messages, message.id ∈ state.ledger.ledger.map (·.id)

lemma Intact.step (h : state.Intact) {op : LedgerOp} (hspares : spares state.ledger op = true) :
    (state.step op).2.Intact := by
  refine ⟨h.toWhole.step hspares, ?_⟩
  cases op with
  | publish messages => exact offered_of_sparesAll hspares
  | recordFull messages =>
    intro message hmem
    have hmessages := state.ledger.messages_rememberAll messages true
    exact (rememberAll_of_sparesAll hspares).2 _
      (.inr (h.live message (hmessages ▸ hmem)))
  | clear => exact forall_mem_nil _

lemma Intact.exec (h : state.Intact) (hspares : neverEvicts state ops = true) :
    (Foundation.exec Ledgered.step state ops).Intact := by
  induction ops generalizing state with
  | nil => exact h
  | cons op rest ih =>
    obtain ⟨hone, hrest⟩ := Bool.and_eq_true_iff.mp hspares
    exact ih (h.step hone) hrest

end Ledgered

open Ledgered

/-- After every history the copies, their order and their bytes agree and stand within the
caps, publishing changes nothing exactly when all that is published is retained, and a
publication that evicts nothing replaces no copy.  Where every batch fits the caps, so that only
older messages are evicted, or nothing had to be evicted at all, what the frontier lists is
retained; in the second case all that is live is retained too. -/
theorem ledger_stays_accounted (ops : List LedgerOp) :
    let state := (exec step .empty ops).ledger
    state.Accounted ∧ state.ledgerBytes ≤ ledgerMaxBytes ∧ state.ledger.length ≤ ledgerMaxEntries ∧
      (offered ops ≤ u64Max → (state.frontier.map (·.1)).Pairwise (· < ·)) ∧
      (∀ messages, state.publish messages =
          ({ epoch := state.epoch, rev := state.rev, changed := false },
            { state with messages := messages }) ↔
        ∀ message ∈ messages, (state.fullCopy message.id).isSome = true) ∧
      (∀ messages, sparesAll false state messages = true →
        ∀ id copy, state.fullCopy id = some copy →
          (state.publish messages).2.fullCopy id = some copy) ∧
      ((∀ op ∈ ops, Fits op.offered) ∨ neverEvicts .empty ops = true →
        ∀ commit ∈ state.frontier, (state.fullCopy commit.2).isSome = true) ∧
      (neverEvicts .empty ops = true → state.publish state.messages =
        ({ epoch := state.epoch, rev := state.rev, changed := false }, state)) := by
  intro state
  obtain ⟨haccounted, hcap⟩ : state.Kept :=
    exec_invariant (I := fun state : Ledgered => state.ledger.Kept)
      (fun _ op h => h.step op) ⟨⟨rfl, nodup_nil, rfl⟩, rfl⟩ ops
  have hiff := publish_unchanged_iff state
  rw [overCap, decide_eq_false_iff_not, not_or, Nat.not_lt, Nat.not_lt] at hcap
  have hempty : empty.Intact := ⟨whole_empty, forall_mem_nil _⟩
  refine ⟨haccounted, hcap.1, hcap.2, fun hfew => ?_, hiff,
    fun messages hroom id copy => fullCopy_of_sparesAll hroom, ?_,
    fun hspares => ?_⟩
  · have hrecorded := recorded_exec hfew
    exact hrecorded.sorted.sublist (hrecorded.listed.map _)
  · rintro (hfits | hspares)
    · exact (lined_exec hfits).held
    · exact (whole_empty.exec hspares).copies
  · exact (hiff state.messages).mpr fun message hmessage =>
      fullCopy_isSome_iff.mpr ((hempty.exec hspares).live message hmessage)

def doubled : Nat → String
  | 0 => "x"
  | n + 1 => doubled n ++ doubled n

lemma doubled_utf8ByteSize (n : Nat) : (doubled n).utf8ByteSize = 2 ^ n := by
  induction n with
  | zero => rfl
  | succ n ih => rw [doubled, String.utf8ByteSize_append, ih, Nat.pow_succ, Nat.mul_two]

lemma messageBytes_user (id : MessageId) (content : String) :
    messageBytes (.user id content) = ledgerEntryOverhead + content.utf8ByteSize := by
  simp [messageBytes, Message.user, Message.plain]

lemma publish_tooLarge {big : Message} (hbytes : ledgerMaxBytes < messageBytes big)
    (live : List Message) (rev : Nat) (frontier : List Commit) : publish
        { ConversationLedger.empty with messages := live, rev := rev, frontier := frontier } [big] =
      ({ epoch := 0, rev := wrappingAdd rev 1, changed := true },
        { ConversationLedger.empty with
          messages := [big]
          rev := wrappingAdd rev 1
          frontier := (frontier.eraseP fun commit => commit.2 == big.id) ++
            [(wrappingAdd rev 1, big.id)] }) := by
  simp [publish, rememberAll, remember,
    ConversationLedger.insert, ConversationLedger.fullCopy, ConversationLedger.evict,
    evictFrom, overCap, dropOldest,
    ConversationLedger.empty, ConversationLedger.advanceForNewIds, ConversationLedger.revAfter,
    commits, hbytes]

/-- A message beyond the byte cap is evicted while it is published, and listed afterwards:
the frontier names what is not retained, and publishing it again is a change. -/
theorem evicted_message_is_listed :
    let state := (exec step .empty [.publish [.user 1 (doubled 24)]]).ledger
    state.frontier = [(1, 1)] ∧ state.fullCopy 1 = none ∧
      (state.publish state.messages).1 = { epoch := 0, rev := 2, changed := true } := by
  have hbytes : ledgerMaxBytes < messageBytes (.user 1 (doubled 24)) := by
    rw [messageBytes_user, doubled_utf8ByteSize]
    decide
  intro state
  have hstate : state = _ := congrArg Prod.snd (publish_tooLarge hbytes [] 0 [])
  rw [hstate]
  exact ⟨rfl, rfl, congrArg Prod.fst (publish_tooLarge hbytes _ _ _)⟩

end Quecto.Sessions
