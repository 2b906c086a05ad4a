/-
  Context/FirstRung.lean --- what the first rung of the ladder saves.

  Source: `enforce_context_ceiling_ladder` of
  `application/agent_turn/context/context_pruning_ceiling.rs`.
-/
import Mathlib.Algebra.Order.BigOperators.Group.List
import Quecto.Context.Ladder
import Quecto.Context.TokenEstimate

namespace Quecto.Context

open Foundation Sessions TokenEstimates List

section

variable [TokenEstimates]

namespace ContextMessage

variable (m : ContextMessage)

def imageTokens : Nat :=
  (m.imageBlocks.map estimateImageTokens).sum + (m.userImageBlocks.map estimateImageTokens).sum

/-- The text that a demoted message is left with. -/
def writtenStub : String :=
  match m.role with
  | .tool =>
      collapseStub (m.toolName.getD "tool") (m.inputPreview.getD "") (estimateTokens m.content)
        (m.spillId.getD "unknown")
  | .user | .assistant | .system =>
      messageCollapseStub (roleName m.role) m.content (estimateTokens m.content)
        (m.spillId.getD "unknown")

def stubbed : ContextMessage :=
  match m.role with
  | .tool => collapseMessage m
  | .user | .assistant | .system => collapseConversationMessage m (m.spillId.getD "unknown")

/-- The rung may demote the message: it is spilled and still full, and the guard finds the stub
of a conversation message, with the whole estimate in it, cheaper than the message. -/
structure Guarded : Prop where
  full : m.isCollapsed = false
  role : m.role ≠ .system
  cheaper : ∃ spillId, m.spillId = some spillId ∧
    estimateTokens (messageCollapseStub (roleName m.role) m.content m.estimatedTokens spillId) <
      m.estimatedTokens

/-- All that the guard prices is the text, and the stub that it prices is the one written. -/
structure TextOnly : Prop where
  role : m.role ≠ .tool
  calls : m.toolCalls = []
  callId : m.toolCallId = none
  images : m.imageBlocks = [] ∧ m.userImageBlocks = []

end ContextMessage

variable {m stub : ContextMessage}

lemma demote_eq_some_iff : demote m = some stub ↔ m.Guarded ∧ m.stubbed = stub := by
  unfold demote
  constructor
  · intro h
    split at h
    · cases h
    rename_i hfull
    split at h
    · cases h
    rename_i spillId hspill
    dsimp only at h
    split at h
    · cases h
    rename_i hguard
    have hguarded (hrole : m.role ≠ .system) : m.Guarded :=
      ⟨by simpa using hfull, hrole, spillId, hspill, Nat.not_le.mp hguard⟩
    cases hrole : m.role <;> simp_all [ContextMessage.stubbed]
  · rintro ⟨⟨hfull, hrole, spillId, hspill, hguard⟩, rfl⟩
    rw [if_neg (by simp [hfull]), hspill]
    dsimp only
    rw [if_neg (Nat.not_le.mpr hguard)]
    cases hr : m.role <;> simp_all [ContextMessage.stubbed]

/-- A stub differs from its message by the text and the images: calls and call id stay. -/
lemma ContextMessage.Guarded.cost (h : m.Guarded) : m.stubbed.isCollapsed = true ∧
    m.stubbed.estimatedTokens + (estimateTokens m.content + m.imageTokens) =
      m.estimatedTokens + estimateTokens m.writtenStub := by
  cases hrole : m.role with
  | system => exact absurd hrole h.role
  | tool =>
    simp [stubbed, collapseMessage, estimatedTokens, releaseImages, writtenStub, imageTokens, hrole,
      h.full]
    omega
  | user | assistant =>
    simp [stubbed, collapseConversationMessage, estimatedTokens, releaseImages, writtenStub,
      imageTokens, hrole]
    omega

lemma ContextMessage.Guarded.pos (h : m.Guarded) : 0 < m.estimatedTokens := by
  obtain ⟨spillId, -, hguard⟩ := h.cheaper
  exact Nat.zero_lt_of_lt hguard

lemma ContextMessage.TextOnly.saves (h : m.TextOnly) (hguarded : m.Guarded) :
    estimateTokens m.writtenStub < estimateTokens m.content + m.imageTokens := by
  obtain ⟨-, hsystem, spillId, hspill, hguard⟩ := hguarded
  obtain ⟨hrole, hcalls, hcallId, himages, huser⟩ := h
  simp only [estimatedTokens, hcalls, hcallId, himages, huser] at hguard
  cases hr : m.role <;> simp_all [writtenStub, imageTokens]

/-- The messages after the first rung. -/
def afterFirstRung (messages : List ContextMessage) (maxTokens pinRecentTurns : Nat) :
    List ContextMessage :=
  if estimateTotalTokens messages ≤ maxTokens then messages
  else
    (collapseDown (lowWater maxTokens) (estimateTotalTokens messages) 0
      (messages.zip (ladderExempt messages pinRecentTurns))).messages

def Demoted (messages : List ContextMessage) (maxTokens pinRecentTurns : Nat)
    (m stub : ContextMessage) : Prop :=
  (m, stub) ∈ messages.zip (afterFirstRung messages maxTokens pinRecentTurns) ∧ stub ≠ m

/-- The messages that the ladder does not exempt. -/
def Free (messages : List ContextMessage) (pinRecentTurns : Nat) (m : ContextMessage) : Prop :=
  (m, false) ∈ messages.zip (ladderExempt messages pinRecentTurns)

variable (messages : List ContextMessage) (maxTokens pinRecentTurns : Nat)

omit [TokenEstimates] in
lemma map_fst_zip_exempt :
    (messages.zip (ladderExempt messages pinRecentTurns)).map (·.1) = messages :=
  map_fst_zip (Nat.le_of_eq (ladderExempt_length messages pinRecentTurns).symm)

lemma afterFirstRung_stubs : List.Forall₂
    (fun m stub => stub = m ∨ Free messages pinRecentTurns m ∧ demote m = some stub)
    messages (afterFirstRung messages maxTokens pinRecentTurns) := by
  unfold afterFirstRung
  split
  · exact forall₂_same.mpr fun _ _ => .inl rfl
  have hentries := map_fst_zip_exempt messages pinRecentTurns
  have hspec := (collapseDown_spec (lowWater maxTokens) 0
    (messages.zip (ladderExempt messages pinRecentTurns)) 0).1
  rw [hentries, Nat.zero_add, forall₂_iff_zip] at hspec
  nth_rewrite 2 [← hentries]
  rw [forall₂_map_left_iff, forall₂_iff_zip]
  refine ⟨hspec.1, fun {e stub} hmem => (hspec.2 hmem).imp_right ?_⟩
  rintro ⟨hfree, hdemote⟩
  have hentry := (of_mem_zip hmem).1
  rw [show e = (e.1, false) from Prod.ext rfl hfree] at hentry
  exact ⟨hentry, hdemote⟩

variable {messages} in
lemma le_estimateTotalTokens (h : m ∈ messages) :
    m.estimatedTokens ≤ estimateTotalTokens messages :=
  single_le_sum (fun _ _ => Nat.zero_le _) _ (mem_map_of_mem h)

/-- With no budget at all, the rung demotes whatever it may. -/
lemma collapseDown_zero {entries : List (ContextMessage × Bool)} {total : Nat}
    (htotal : estimateTotalTokens (entries.map (·.1)) ≤ total) (collapsed : Nat)
    (hfree : (m, false) ∈ entries) (hguarded : m.Guarded) :
    (m, m.stubbed) ∈ (entries.map (·.1)).zip (collapseDown 0 total collapsed entries).messages := by
  induction entries generalizing total collapsed with
  | nil => cases hfree
  | cons e rest ih =>
    obtain ⟨first, exempt⟩ := e
    -- a message that may be demoted costs something, so the total is not down yet
    have hpos : 0 < total := hguarded.pos.trans_le
      ((le_estimateTotalTokens (mem_map.mpr ⟨_, hfree, rfl⟩)).trans htotal)
    rw [map_cons, estimateTotalTokens_cons] at htotal
    dsimp only at htotal
    unfold collapseDown
    rw [if_neg (Nat.not_le.mpr hpos)]
    rcases mem_cons.mp hfree with heq | hfree
    · obtain ⟨rfl, rfl⟩ := Prod.mk.inj heq
      have hsome : demote m = some m.stubbed := demote_eq_some_iff.mpr ⟨hguarded, rfl⟩
      simp [hsome]
    split
    · exact mem_cons_of_mem _ (ih (by omega) collapsed hfree)
    · exact mem_cons_of_mem _ (ih (by omega) (collapsed + 1) hfree)

lemma demoted_zero (hfree : Free messages pinRecentTurns m)
    (hguarded : m.Guarded) : Demoted messages 0 pinRecentTurns m m.stubbed := by
  have hentries := map_fst_zip_exempt messages pinRecentTurns
  constructor
  · have hpos := hguarded.pos
    have hle := le_estimateTotalTokens (of_mem_zip hfree).1
    rw [afterFirstRung, if_neg (by omega)]
    nth_rewrite 1 [← hentries]
    exact collapseDown_zero (Nat.le_of_eq (congrArg _ hentries)) 0 hfree hguarded
  · intro hsame
    have hstub := hguarded.cost.1
    rw [hsame, hguarded.full] at hstub
    cases hstub

end

/-! A short text before a long call. -/

section

/-- The estimates of texts; the messages below have no images. -/
local instance textEstimates : TokenEstimates where
  estimateTokens := estimateTextTokens
  estimateImageTokens _ := 0

def shortText : ContextMessage :=
  { Message.plain 1 .assistant "ok" with
    toolCalls := [⟨"c1", "write", "a line of the file that is written by this one call of the " ++
      "tool and that is long enough for the whole message to cost more than its stub"⟩]
    turn := some 1
    spillId := some "turn1:msg:assistant"
    imageBlocks := [], userImageBlocks := [], unloadedImages := [] }

def shortContext : List ContextMessage :=
  let plain (message : Message) : ContextMessage := ⟨message, [], [], []⟩
  [plain (.plain 0 .user "go"), shortText,
    plain { Message.plain 2 .tool "done" with toolCallId := some "c1", turn := some 1 },
    plain { Message.plain 3 .assistant "bye" with turn := some 2 }]

end

end Quecto.Context
