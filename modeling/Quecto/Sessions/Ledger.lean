/-
  Sessions/Ledger.lean --- the conversation ledger of the active session.

  Source: `application/sessions/services/conversation_ledger.rs`.
-/
import Quecto.Foundation.Machine
import Quecto.Sessions.Message
import Mathlib.Data.List.Sublists

namespace Quecto.Sessions

open Foundation List

def ledgerMaxBytes : Nat := 16 * 1024 * 1024

def ledgerMaxEntries : Nat := 8192

def ledgerEntryOverhead : Nat := 256

def thinkingBlockBytes : ThinkingBlock → Nat
  | .normal thinking signature => thinking.utf8ByteSize + signature.utf8ByteSize
  | .redacted data => data.utf8ByteSize
  | .encryptedReasoning origin leadsTo item =>
    origin.utf8ByteSize + leadsTo.elim 0 String.utf8ByteSize + item.utf8ByteSize

def messageBytes (message : Message) : Nat :=
  ledgerEntryOverhead + message.content.utf8ByteSize + (message.toolCalls.map fun call =>
      call.arguments.utf8ByteSize + call.name.utf8ByteSize + call.id.utf8ByteSize).sum +
    message.toolCallId.elim 0 String.utf8ByteSize +
    message.toolName.elim 0 String.utf8ByteSize +
    (message.thinkingBlocks.map thinkingBlockBytes).sum

structure LedgerAdvance where
  epoch : Nat
  rev : Nat
  changed : Bool
  deriving DecidableEq

abbrev Commit := Nat × MessageId

/-- The visible conversation, the full copies kept of it, and the frontier of commits. -/
structure ConversationLedger where
  messages : List Message
  ledger : List Message
  ledgerOrder : List MessageId
  ledgerBytes : Nat
  generation : Nat
  epoch : Nat
  rev : Nat
  frontier : List Commit

namespace ConversationLedger

def empty : ConversationLedger where
  messages := []
  ledger := []
  ledgerOrder := []
  ledgerBytes := 0
  generation := 0
  epoch := 0
  rev := 0
  frontier := []

variable (state : ConversationLedger)

def fullCopy (id : MessageId) : Option Message :=
  state.ledger.find? fun message => message.id == id

def lookup (id : MessageId) : Option Message :=
  (state.fullCopy id).or (state.messages.find? fun message => message.id == id)

def overCap : Bool :=
  decide (ledgerMaxBytes < state.ledgerBytes ∨ ledgerMaxEntries < state.ledger.length)

/-- Eviction forgets the oldest full copy, and its commit with it. -/
def dropOldest (old : MessageId) (rest : List MessageId) : ConversationLedger :=
  match state.fullCopy old with
  | some message =>
    { state with
      ledger := state.ledger.eraseP fun message => message.id == old
      ledgerOrder := rest
      ledgerBytes := state.ledgerBytes - messageBytes message
      frontier := state.frontier.eraseP fun commit => commit.2 == old }
  | none => { state with ledgerOrder := rest }

def evictFrom : List MessageId → ConversationLedger → ConversationLedger
  | [], state => state
  | old :: rest, state =>
    if state.overCap then evictFrom rest (state.dropOldest old rest) else state

def evict : ConversationLedger := evictFrom state.ledgerOrder state

def insert (message : Message) : ConversationLedger :=
  match state.fullCopy message.id with
  | some earlier =>
    { state with
      ledger := state.ledger.map fun held => if held.id = message.id then message else held
      ledgerBytes := state.ledgerBytes - messageBytes earlier + messageBytes message }
  | none =>
    { state with
      ledger := state.ledger ++ [message]
      ledgerOrder := state.ledgerOrder ++ [message.id]
      ledgerBytes := state.ledgerBytes + messageBytes message }

def remember (message : Message) (overwrite : Bool) : Bool × ConversationLedger :=
  let already := (state.fullCopy message.id).isSome
  if already && !overwrite then (false, state)
  else (!already, (state.insert message).evict)

def rememberAll (overwrite : Bool) :
    ConversationLedger → List Message → List MessageId × ConversationLedger
  | state, [] => ([], state)
  | state, message :: rest =>
    let one := state.remember message overwrite
    let others := rememberAll overwrite one.2 rest
    (if one.1 then message.id :: others.1 else others.1, others.2)

def commits : Nat → List MessageId → List Commit
  | _, [] => []
  | rev, id :: rest => (wrappingAdd rev 1, id) :: commits (wrappingAdd rev 1) rest

def revAfter : Nat → Nat → Nat
  | rev, 0 => rev
  | rev, count + 1 => revAfter (wrappingAdd rev 1) count

def advanceForNewIds (ids : List MessageId) : LedgerAdvance × ConversationLedger :=
  let next :=
    { state with
      rev := revAfter state.rev ids.length
      frontier := state.frontier ++ commits state.rev ids }
  ({ epoch := next.epoch, rev := next.rev, changed := !ids.isEmpty }, next)

def publish (messages : List Message) : LedgerAdvance × ConversationLedger :=
  let folded := rememberAll false state messages
  { folded.2 with messages := messages }.advanceForNewIds folded.1

def recordFull (messages : List Message) : LedgerAdvance × ConversationLedger :=
  let folded := rememberAll true state messages
  folded.2.advanceForNewIds folded.1

def clear : LedgerAdvance × ConversationLedger :=
  let next :=
    { empty with
      generation := wrappingAdd state.generation 1
      epoch := wrappingAdd state.epoch 1
      rev := state.rev }
  ({ epoch := next.epoch, rev := next.rev, changed := true }, next)

/-! ## What folding in leaves alone -/

section

variable (state : ConversationLedger)

/-- The frontier only loses commits; epoch and revision stand. -/
structure Trims (before after : ConversationLedger) : Prop where
  epoch : after.epoch = before.epoch
  rev : after.rev = before.rev
  frontier : after.frontier.Sublist before.frontier

variable {state}

lemma Trims.refl (state : ConversationLedger) : Trims state state :=
  ⟨rfl, rfl, Sublist.refl _⟩

lemma Trims.trans {a b c : ConversationLedger} (h : Trims a b) (h' : Trims b c) : Trims a c :=
  ⟨h'.epoch.trans h.epoch, h'.rev.trans h.rev, h'.frontier.trans h.frontier⟩

lemma trims_dropOldest (old : MessageId) (rest : List MessageId) :
    Trims state (state.dropOldest old rest) := by
  unfold dropOldest
  split
  · exact ⟨rfl, rfl, eraseP_sublist⟩
  · exact ⟨rfl, rfl, Sublist.refl _⟩

lemma trims_evictFrom (order : List MessageId) (state : ConversationLedger) :
    Trims state (evictFrom order state) := by
  induction order generalizing state with
  | nil => exact Trims.refl state
  | cons old rest ih =>
    unfold evictFrom
    split
    · exact (trims_dropOldest old rest).trans (ih _)
    · exact Trims.refl state

lemma trims_insert (message : Message) : Trims state (state.insert message) := by
  unfold insert
  split <;> exact ⟨rfl, rfl, Sublist.refl _⟩

lemma trims_remember (message : Message) (overwrite : Bool) :
    Trims state (state.remember message overwrite).2 := by
  unfold remember
  dsimp only
  split
  · exact Trims.refl state
  · exact (trims_insert message).trans (trims_evictFrom _ _)

section

variable (overwrite : Bool) (messages : List Message) (state : ConversationLedger)

lemma trims_rememberAll : Trims state (rememberAll overwrite state messages).2 := by
  induction messages generalizing state with
  | nil => exact Trims.refl state
  | cons message rest ih => exact (trims_remember message overwrite).trans (ih _)

lemma rememberAll_length_le :
    (rememberAll overwrite state messages).1.length ≤ messages.length := by
  induction messages generalizing state with
  | nil => exact Nat.le_refl 0
  | cons message rest ih =>
    have hrest := ih (state.remember message overwrite).2
    rw [rememberAll]
    split
    · exact Nat.succ_le_succ hrest
    · exact hrest.trans (Nat.le_succ _)

end

/-! ## Revisions -/

lemma revAfter_eq {rev count : Nat} (h : rev + count ≤ u64Max) :
    revAfter rev count = rev + count := by
  induction count generalizing rev with
  | zero => rfl
  | succ count ih =>
    rw [revAfter, wrappingAdd_of_le (by omega), ih (by omega)]
    omega

lemma commits_ids (rev : Nat) (ids : List MessageId) : (commits rev ids).map (·.2) = ids := by
  induction ids generalizing rev with
  | nil => rfl
  | cons id rest ih => rw [commits, map_cons, ih]

lemma commits_spec {rev : Nat} {ids : List MessageId} (h : rev + ids.length ≤ u64Max) :
    ((commits rev ids).map (·.1)).Pairwise (· < ·) ∧
      ∀ commit ∈ commits rev ids, rev < commit.1 ∧ commit.1 ≤ rev + ids.length := by
  induction ids generalizing rev with
  | nil => exact ⟨List.Pairwise.nil, nofun⟩
  | cons id rest ih =>
    rw [length_cons] at h ⊢
    rw [commits, wrappingAdd_of_le (by omega)]
    obtain ⟨hsorted, hbounds⟩ := @ih (rev + 1) (by omega)
    constructor
    · refine pairwise_cons.mpr ⟨fun later hlater => ?_, hsorted⟩
      obtain ⟨commit, hcommit, rfl⟩ := mem_map.mp hlater
      exact (hbounds commit hcommit).1
    intro commit hcommit
    rcases mem_cons.mp hcommit with rfl | hcommit
    · exact ⟨Nat.lt_succ_self rev, by simp only; omega⟩
    · have := hbounds commit hcommit
      omega

end

/-! ## Full copies -/

section

variable {state : ConversationLedger} {id : MessageId} {message : Message} {overwrite : Bool}

lemma fullCopy_isSome_iff : (state.fullCopy id).isSome = true ↔ id ∈ state.ledger.map (·.id) := by
  rw [fullCopy, List.find?_isSome, mem_map]
  simp only [beq_iff_eq]

lemma ids_replaced (held : List Message) (message : Message) :
    (held.map fun other => if other.id = message.id then message else other).map (·.id) =
      held.map (·.id) := by
  rw [map_map]
  refine map_congr_left fun other _ => ?_
  simp only [Function.comp_apply]
  split
  · rename_i hid
    exact hid.symm
  · rfl

lemma mem_ids_insert : id ∈ (state.insert message).ledger.map (·.id) ↔
      id = message.id ∨ id ∈ state.ledger.map (·.id) := by
  unfold insert
  cases hcopy : state.fullCopy message.id with
  | some earlier =>
    have hmem : message.id ∈ state.ledger.map (·.id) := fullCopy_isSome_iff.mp (hcopy ▸ rfl)
    simp only [ids_replaced]
    exact ⟨.inr, fun h => h.elim (fun hid => hid ▸ hmem) (fun h => h)⟩
  | none =>
    simp only [map_append, map_singleton, mem_append, mem_singleton]
    exact or_comm

def spares (state : ConversationLedger) (message : Message) (overwrite : Bool) : Bool :=
  (state.fullCopy message.id).isSome && !overwrite || !(state.insert message).overCap

/-- No message of the list makes the ledger evict. -/
def sparesAll (overwrite : Bool) : ConversationLedger → List Message → Bool
  | _, [] => true
  | state, message :: rest =>
    state.spares message overwrite &&
      sparesAll overwrite (state.remember message overwrite).2 rest

lemma evict_of_not_overCap (h : state.overCap = false) : state.evict = state := by
  unfold evict
  cases state.ledgerOrder with
  | nil => rfl
  | cons old rest => rw [evictFrom, if_neg (Bool.eq_false_iff.mp h)]

lemma remember_of_spares (h : state.spares message overwrite = true) :
    (state.remember message overwrite).2.frontier = state.frontier ∧
      ∀ id, id = message.id ∨ id ∈ state.ledger.map (·.id) →
        id ∈ (state.remember message overwrite).2.ledger.map (·.id) := by
  unfold remember
  dsimp only
  split
  · rename_i hkept
    refine ⟨rfl, fun id hid => hid.elim (fun hsame => ?_) (fun hmem => hmem)⟩
    rw [hsame]
    exact fullCopy_isSome_iff.mp (Bool.and_eq_true_iff.mp hkept).1
  rename_i hkept
  rw [spares, Bool.or_eq_true, Bool.not_eq_true'] at h
  have hroom := h.resolve_left hkept
  rw [evict_of_not_overCap hroom]
  refine ⟨?_, fun id hid => mem_ids_insert.mpr hid⟩
  unfold insert
  split <;> rfl

lemma rememberAll_of_sparesAll {messages : List Message}
    (h : sparesAll overwrite state messages = true) :
    (rememberAll overwrite state messages).2.frontier = state.frontier ∧
      ∀ id, id ∈ (rememberAll overwrite state messages).1 ∨ id ∈ state.ledger.map (·.id) →
        id ∈ (rememberAll overwrite state messages).2.ledger.map (·.id) := by
  induction messages generalizing state with
  | nil => exact ⟨rfl, fun id hid => hid.elim nofun (fun hmem => hmem)⟩
  | cons message rest ih =>
    obtain ⟨hone, hrest⟩ := Bool.and_eq_true_iff.mp h
    obtain ⟨hfrontier, hheld⟩ := remember_of_spares hone
    obtain ⟨hfrontier', hheld'⟩ := ih hrest
    refine ⟨hfrontier'.trans hfrontier, fun id hid => hheld' id ?_⟩
    rcases hid with hnew | hmem
    · rw [rememberAll] at hnew
      split at hnew
      · rcases mem_cons.mp hnew with hsame | hlater
        · exact .inr (hheld id (.inl hsame))
        · exact .inl hlater
      · exact .inl hnew
    · exact .inr (hheld id (.inr hmem))

end

end ConversationLedger

open ConversationLedger

/-! ## Histories -/

inductive LedgerOp where
  | publish (messages : List Message)
  | recordFull (messages : List Message)
  | clear

def LedgerOp.offered : LedgerOp → List Message
  | publish messages | recordFull messages => messages
  | clear => []

structure Ledgered where
  ledger : ConversationLedger
  committed : List Commit

namespace Ledgered

def empty : Ledgered := { ledger := .empty, committed := [] }

def newCommits (state : ConversationLedger) : LedgerOp → List Commit
  | .publish messages => commits state.rev
      (rememberAll false state messages).1
  | .recordFull messages => commits state.rev
      (rememberAll true state messages).1
  | .clear => []

def step (state : Ledgered) (op : LedgerOp) : LedgerAdvance × Ledgered :=
  match op with
  | .publish messages =>
    let published := state.ledger.publish messages
    (published.1,
      { ledger := published.2, committed := state.committed ++ newCommits state.ledger op })
  | .recordFull messages =>
    let recorded := state.ledger.recordFull messages
    (recorded.1,
      { ledger := recorded.2, committed := state.committed ++ newCommits state.ledger op })
  | .clear => (state.ledger.clear.1, { ledger := state.ledger.clear.2, committed := [] })

/-! ## What a history records -/

/-- The frontier is part of what was ever committed, in order of revision. -/
structure Recorded (state : Ledgered) : Prop where
  listed : state.ledger.frontier.Sublist state.committed
  sorted : (state.committed.map (·.1)).Pairwise (· < ·)
  reached : ∀ commit ∈ state.committed, 0 < commit.1 ∧ commit.1 ≤ state.ledger.rev

variable {state : Ledgered} {trimmed : ConversationLedger} {ids : List MessageId}
  {messages : List Message} {ops : List LedgerOp}

lemma Recorded.batch (h : state.Recorded) (htrims : Trims state.ledger trimmed)
    (hfew : state.ledger.rev + ids.length ≤ u64Max) : Recorded
      { ledger := (trimmed.advanceForNewIds ids).2
        committed := state.committed ++ commits state.ledger.rev ids } := by
  obtain ⟨hsorted, hbounds⟩ := commits_spec hfew
  have hrev : (trimmed.advanceForNewIds ids).2.rev = state.ledger.rev + ids.length := by
    rw [advanceForNewIds, htrims.rev, revAfter_eq hfew]
  constructor
  · rw [advanceForNewIds, htrims.rev]
    exact (htrims.frontier.trans h.listed).append (Sublist.refl _)
  · rw [map_append]
    refine pairwise_append.mpr ⟨h.sorted, hsorted, fun earlier hearlier later hlater => ?_⟩
    obtain ⟨old, hold, rfl⟩ := mem_map.mp hearlier
    obtain ⟨new, hnew, rfl⟩ := mem_map.mp hlater
    exact (h.reached old hold).2.trans_lt (hbounds new hnew).1
  · intro commit hcommit
    rw [hrev]
    rcases mem_append.mp hcommit with hold | hnew
    · exact ⟨(h.reached commit hold).1, (h.reached commit hold).2.trans (Nat.le_add_right _ _)⟩
    · exact ⟨Nat.zero_lt_of_lt (hbounds commit hnew).1, (hbounds commit hnew).2⟩

lemma Recorded.fold (h : state.Recorded) (overwrite : Bool)
    (htrims : Trims state.ledger trimmed)
    (hfew : state.ledger.rev + messages.length ≤ u64Max) :
    let ids := (rememberAll overwrite state.ledger messages).1
    Recorded
        { ledger := (trimmed.advanceForNewIds ids).2
          committed := state.committed ++ commits state.ledger.rev ids } ∧
      (trimmed.advanceForNewIds ids).2.rev ≤ state.ledger.rev + messages.length := by
  intro ids
  have hlen : ids.length ≤ messages.length := rememberAll_length_le _ _ _
  have hids : state.ledger.rev + ids.length ≤ u64Max := by omega
  refine ⟨h.batch htrims hids, ?_⟩
  rw [advanceForNewIds, htrims.rev, revAfter_eq hids]
  exact Nat.add_le_add_left hlen _

lemma Recorded.step (h : state.Recorded) (op : LedgerOp)
    (hfew : state.ledger.rev + op.offered.length ≤ u64Max) : (state.step op).2.Recorded ∧
      (state.step op).2.ledger.rev ≤ state.ledger.rev + op.offered.length := by
  cases op with
  | publish messages =>
    have htrims := trims_rememberAll false messages state.ledger
    exact h.fold false ⟨htrims.epoch, htrims.rev, htrims.frontier⟩ hfew
  | recordFull messages =>
    exact h.fold true (trims_rememberAll true messages state.ledger) hfew
  | clear => exact ⟨⟨Sublist.refl _, List.Pairwise.nil, nofun⟩, Nat.le_refl _⟩

def offered (ops : List LedgerOp) : Nat := (ops.map (·.offered.length)).sum

lemma Recorded.exec (h : state.Recorded) (hfew : state.ledger.rev + offered ops ≤ u64Max) :
    (Foundation.exec Ledgered.step state ops).Recorded := by
  induction ops generalizing state with
  | nil => exact h
  | cons op rest ih =>
    rw [offered, map_cons, sum_cons] at hfew
    obtain ⟨hnext, hrev⟩ := h.step op (by omega)
    refine ih hnext ((Nat.add_le_add_right hrev _).trans ?_)
    rw [offered]
    omega

lemma recorded_exec (hfew : offered ops ≤ u64Max) : (exec step empty ops).Recorded := by
  have hempty : empty.Recorded :=
    ⟨Sublist.refl _, List.Pairwise.nil, nofun⟩
  refine hempty.exec (le_of_eq_of_le ?_ hfew)
  exact Nat.zero_add _

/-! ## Histories that never evict -/

def spares (state : ConversationLedger) : LedgerOp → Bool
  | .publish messages => sparesAll false state messages
  | .recordFull messages => sparesAll true state messages
  | .clear => true

def neverEvicts : Ledgered → List LedgerOp → Bool
  | _, [] => true
  | state, op :: rest => spares state.ledger op && neverEvicts (state.step op).2 rest

structure Whole (state : Ledgered) : Prop where
  listed : state.ledger.frontier = state.committed
  held : ∀ commit ∈ state.committed, commit.2 ∈ state.ledger.ledger.map (·.id)

lemma Whole.fold (h : state.Whole) {overwrite : Bool} {live : List Message}
    (hspares : sparesAll overwrite state.ledger messages = true) :
    let folded := rememberAll overwrite state.ledger messages
    Whole
      { ledger := ({ folded.2 with messages := live }.advanceForNewIds folded.1).2
        committed := state.committed ++ commits state.ledger.rev folded.1 } := by
  intro folded
  obtain ⟨hfrontier, hheld⟩ := rememberAll_of_sparesAll hspares
  have hrev := (trims_rememberAll overwrite messages state.ledger).rev
  constructor
  · simp only [advanceForNewIds, folded, hfrontier, hrev, h.listed]
  intro commit hcommit
  rcases mem_append.mp hcommit with hold | hnew
  · exact hheld commit.2 (.inr (h.held commit hold))
  · have hid := mem_map_of_mem (f := fun commit : Commit => commit.2) hnew
    rw [commits_ids] at hid
    exact hheld commit.2 (.inl hid)

lemma Whole.step (h : state.Whole) {op : LedgerOp} (hspares : spares state.ledger op = true) :
    (state.step op).2.Whole := by
  cases op with
  | publish messages | recordFull messages => exact h.fold hspares
  | clear => exact ⟨rfl, nofun⟩

lemma Whole.exec (h : state.Whole) (hspares : neverEvicts state ops = true) :
    (Foundation.exec Ledgered.step state ops).Whole := by
  induction ops generalizing state with
  | nil => exact h
  | cons op rest ih =>
    obtain ⟨hone, hrest⟩ := Bool.and_eq_true_iff.mp hspares
    exact ih (h.step hone) hrest

lemma whole_empty : empty.Whole := ⟨rfl, nofun⟩

end Ledgered

end Quecto.Sessions
