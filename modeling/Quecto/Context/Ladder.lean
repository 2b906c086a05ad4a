/-
  Context/Ladder.lean --- the emergency ladder of the context ceiling, and what it leaves.

  Source: `application/agent_turn/context/context_pruning_ceiling.rs`,
  `context_pruning_exchanges.rs` and `exempt_flags` of `context_pruning_messages.rs`.
-/
import Quecto.Sessions.Message
import Quecto.Foundation.Pairing
import Mathlib.Data.List.Destutter
import Mathlib.Data.String.Basic

namespace Quecto.Context

open Foundation Sessions List

structure ImageBlock where
  mime : String
  data : String
  deriving DecidableEq

structure ContextMessage extends Message where
  imageBlocks : List ImageBlock
  userImageBlocks : List ImageBlock
  unloadedImages : List ImageBlock
  deriving DecidableEq

class TokenEstimates where
  estimateTokens : String → Nat
  estimateImageTokens : ImageBlock → Nat

open TokenEstimates

namespace ContextMessage

def estimatedTokens [TokenEstimates] (m : ContextMessage) : Nat :=
  estimateTokens m.content
    + (m.toolCalls.map fun call => estimateTokens call.name + estimateTokens call.arguments).sum
    + (m.toolCallId.map estimateTokens).getD 0
    + (m.imageBlocks.map estimateImageTokens).sum
    + (m.userImageBlocks.map estimateImageTokens).sum

def releaseImages (m : ContextMessage) : ContextMessage :=
  { m with imageBlocks := [], userImageBlocks := [], unloadedImages := [], imageRefs := ⟨[], []⟩ }

end ContextMessage

def estimateTotalTokens [TokenEstimates] (messages : List ContextMessage) : Nat :=
  (messages.map (·.estimatedTokens)).sum

/-! ## Stubs -/

def roleName : Role → String
  | .system => "system"
  | .user => "user"
  | .assistant => "assistant"
  | .tool => "tool"

def truncateChars (s : String) (maxChars keep : Nat) (suffix : String) : String :=
  if s.utf8ByteSize ≤ maxChars then s
  else if s.toList.length ≤ maxChars then s
  else String.ofList (s.toList.take keep) ++ suffix

def truncateUtf8Safe (s : String) (maxChars : Nat) : String :=
  truncateChars s maxChars (maxChars - 3) "..."

def collapseStub (tool inputPreview : String) (tokens : Nat) (spillId : String) : String :=
  "[" ++ tool ++ ": " ++ truncateUtf8Safe inputPreview 60 ++ " (" ++ toString tokens ++
    " tokens) — recall(\"" ++ spillId ++ "\")]"

def messageCollapseStub (role preview : String) (tokens : Nat) (spillId : String) : String :=
  let preview := (truncateUtf8Safe preview 60).map fun c => if c = '\n' ∨ c = '\r' then ' ' else c
  "[" ++ role ++ ": \"" ++ preview ++ "\" (" ++ toString tokens ++ " tokens) — recall(\"" ++
    spillId ++ "\")]"

def collapseMessage [TokenEstimates] (m : ContextMessage) : ContextMessage :=
  if m.role ≠ .tool ∨ m.isCollapsed = true then m
  else
    { m with
      content := collapseStub (m.toolName.getD "tool") (m.inputPreview.getD "")
        (estimateTokens m.content) (m.spillId.getD "unknown")
      isCollapsed := true }.releaseImages

def collapseConversationMessage [TokenEstimates] (m : ContextMessage) (spillId : String) :
    ContextMessage :=
  { ContextMessage.releaseImages
      { m with
        content := messageCollapseStub (roleName m.role) m.content
          (estimateTokens m.content) spillId
        isCollapsed := true } with
    thinkingBlocks := [] }

/-! ## Turns -/

def isStamped : TurnOrigin → Bool
  | .instruction | .progressNudge | .unrecognised => true
  | .unknown => false

def opensTurn (m : ContextMessage) : Bool :=
  let openerKind :=
    match m.userKind with
    | .prompt | .unmarked => true
    | .archiveStub => false
  m.role == .user && m.turn.isNone && openerKind

variable (messages : List ContextMessage)

def latestOpener : Option Nat := rposition opensTurn messages

def turnInFlightStart : Nat :=
  match latestOpener messages with
  | none => messages.length
  | some opener =>
      if (messages.drop opener).all fun m => isStamped m.turnOrigin then messages.length
      else opener

def reportToKeep [Whitespace] (messages : List ContextMessage) : Option Nat :=
  let finished := turnInFlightStart messages
  (transcriptReportIndex isSubstantiveReply ((messages.take finished).map (·.toMessage))).bind
    fun report => if messages[report]?.any (·.spillId.isSome) then some report else none

open TokenEstimates (estimateTokens)

/-! ## Exemptions -/

def lowWaterPercent : Nat := 75

def lowWater (limit : Nat) : Nat :=
  let wide := (limit * lowWaterPercent + 99) / 100
  if wide ≤ u64Max then min wide limit else limit

/-- Where the in-flight exchange starts: at the last assistant message when it calls
tools, and right after it otherwise. -/
def inFlightStart : Nat :=
  match rposition (fun m => m.role == .assistant) messages with
  | some last => if messages[last]?.any (·.toolCalls.isEmpty) then last + 1 else last
  | none => messages.length

def regionStart : Nat := (latestOpener messages).getD 0

/-- The start of the region that has turns: the current prompt's, or the previous one's
while the current prompt has none. -/
def tailStart : Nat :=
  let region := regionStart messages
  if (messages.drop region).all (·.turn.isNone) then (latestOpener (messages.take region)).getD 0
  else region

def pinnedTurns (pinRecentTurns : Nat) : List Nat :=
  let turns := (messages.drop (tailStart messages)).filterMap (·.turn)
  let recentTurns := (turns.insertionSort (· ≤ ·)).destutter (· ≠ ·)
  recentTurns.drop (recentTurns.length - pinRecentTurns)

def inExemptTurn (pinRecentTurns i : Nat) (m : ContextMessage) : Bool :=
  (decide (regionStart messages ≤ i) && m.turn.isNone) ||
    (decide (tailStart messages ≤ i) &&
      m.turn.any fun turn => (pinnedTurns messages pinRecentTurns).contains turn)

def exemptFlags (pinRecentTurns : Nat) : List Bool :=
  messages.zipIdx.map fun (m, i) =>
    m.isPinned || m.role == .system || inExemptTurn messages pinRecentTurns i m

def ladderExempt (pinRecentTurns : Nat) : List Bool :=
  (exemptFlags messages pinRecentTurns).zipIdx.map fun (exempt, i) =>
    exempt || decide (inFlightStart messages ≤ i)

/-! ## Exchanges -/

def madeCalls (m : ContextMessage) : List String :=
  if m.role = .assistant then m.toolCalls.map (·.id) else []

def answeredCall (m : ContextMessage) : Option String :=
  if m.role = .tool then m.toolCallId else none

def exchangeGroupsFrom (callers : OrdMap String Nat) (index : Nat) : List ContextMessage → List Nat
  | [] => []
  | m :: rest =>
      let caller := (answeredCall m).bind fun id => callers[id]?
      caller.getD index :: exchangeGroupsFrom (issueAt callers (madeCalls m) index) (index + 1) rest

def exchangeGroups : List Nat := exchangeGroupsFrom ∅ 0 messages

def keepExchangesWhole (exempt : List Bool) (groups : List Nat) : List Bool :=
  let kept := ((groups.zip exempt).filter (·.2)).map (·.1)
  (exempt.zip groups).map fun (keep, group) => keep || kept.contains group

/-! ## The first rung -/

section Rungs

variable [TokenEstimates]

/-- What the first rung makes of a message, if it demotes it: a stub must be resolvable
and cheaper than what it stands for. -/
def demote (m : ContextMessage) : Option ContextMessage :=
  if m.isCollapsed then none
  else
    match m.spillId with
    | none => none
    | some spillId =>
        let before := m.estimatedTokens
        let stubTokens :=
          estimateTokens (messageCollapseStub (roleName m.role) m.content before spillId)
        if before ≤ stubTokens then none
        else
          match m.role with
          | .tool => some (collapseMessage m)
          | .user | .assistant => some (collapseConversationMessage m spillId)
          | .system => none

structure Stubbed where
  total : Nat
  collapsed : Nat
  messages : List ContextMessage

def collapseDown (target : Nat) : Nat → Nat → List (ContextMessage × Bool) → Stubbed
  | total, collapsed, [] => ⟨total, collapsed, []⟩
  | total, collapsed, (m, exempt) :: rest =>
      if total ≤ target then ⟨total, collapsed, m :: rest.map (·.1)⟩
      else
        match if exempt then none else demote m with
        | none =>
            let done := collapseDown target total collapsed rest
            { done with messages := m :: done.messages }
        | some stub =>
            let done := collapseDown target (total - m.estimatedTokens + stub.estimatedTokens)
              (collapsed + 1) rest
            { done with messages := stub :: done.messages }

/-! ## The second rung -/

def removable (exempt : List Bool) (groups : List Nat) : OrdMap Nat (List Nat) :=
  (exempt.zip groups).zipIdx.foldl
    (fun units ((keep, group), index) =>
      if keep then units else units.insert group ((units[group]?).getD [] ++ [index])) ∅

def dropUnit (messages : List ContextMessage) (unit : List Nat) (state : Nat × List Bool) :
    Nat × List Bool :=
  unit.foldl
    (fun (total, dropping) index =>
      (total - messages[index]?.elim 0 (·.estimatedTokens), dropping.set index true)) state

def dropUnits (messages : List ContextMessage) (maxTokens : Nat) :
    List (List Nat) → Nat × List Bool → Nat × List Bool
  | [], state => state
  | unit :: rest, state =>
      if state.1 ≤ maxTokens then state
      else dropUnits messages maxTokens rest (dropUnit messages unit state)

structure Removal where
  kept : List ContextMessage
  dropped : Nat
  calls : List ToolCall

def dropExchangesUntilUnderBudget (messages : List ContextMessage) (maxTokens : Nat)
    (exempt : List Bool) (groups : List Nat) : Removal :=
  let units := (removable exempt groups).toList.map (·.2)
  let (_, dropping) := dropUnits messages maxTokens units
    (estimateTotalTokens messages, replicate messages.length false)
  { kept := ((messages.zip dropping).filter fun e => !e.2).map (·.1)
    dropped := dropping.count true
    calls := ((messages.zip dropping).filter (·.2)).flatMap (·.1.toolCalls) }

/-! ## The ladder -/

structure CeilingLadderOutcome where
  collapsedToStubs : Nat
  dropped : Nat
  droppedCalls : List ToolCall
  overBudget : Bool
  deriving DecidableEq

def keptExempt [Whitespace] (messages : List ContextMessage) (exempt : List Bool) : List Bool :=
  let exempt :=
    match reportToKeep messages with
    | some report => exempt.set report true
    | none => exempt
  keepExchangesWhole exempt (exchangeGroups messages)

def exemptTokens (messages : List ContextMessage) (exempt : List Bool) : Nat :=
  (((messages.zip exempt).filter (·.2)).map (·.1.estimatedTokens)).sum

def removeDown [Whitespace] (messages : List ContextMessage) (maxTokens : Nat)
    (exempt : List Bool) : Removal :=
  let kept := keptExempt messages exempt
  let target := lowWater maxTokens
  let dropTarget := if exemptTokens messages kept ≤ target then target else maxTokens
  dropExchangesUntilUnderBudget messages dropTarget kept (exchangeGroups messages)

def enforceContextCeilingLadder [Whitespace] (messages : List ContextMessage)
    (maxTokens pinRecentTurns : Nat) : CeilingLadderOutcome × List ContextMessage :=
  let total := estimateTotalTokens messages
  if total ≤ maxTokens then (⟨0, 0, [], false⟩, messages)
  else
    let exempt := ladderExempt messages pinRecentTurns
    let stubbed := collapseDown (lowWater maxTokens) total 0 (messages.zip exempt)
    let removal :=
      if maxTokens < stubbed.total then removeDown stubbed.messages maxTokens exempt
      else ⟨stubbed.messages, 0, []⟩
    ({ collapsedToStubs := stubbed.collapsed
       dropped := removal.dropped
       droppedCalls := removal.calls
       overBudget := decide (maxTokens < estimateTotalTokens removal.kept) },
      removal.kept)

end Rungs

/-! ## Exempt messages -/

def InFlight (messages : List ContextMessage) (i : Nat) : Prop :=
  ∃ last, LastAt (fun m => m.role == .assistant) messages last ∧
    (last < i ∨ (last = i ∧ HoldsAt (fun m => !m.toolCalls.isEmpty) messages i))

def Exempt (messages : List ContextMessage) (pinRecentTurns i : Nat) : Prop :=
  ∃ m, messages[i]? = some m ∧
    (m.isPinned = true ∨ m.role = .system ∨ inExemptTurn messages pinRecentTurns i m = true ∨
      InFlight messages i)

variable {messages : List ContextMessage} {i c r g : Nat} {exempt : List Bool} {groups : List Nat}

lemma inFlightStart_le_iff (hi : i < messages.length) :
    inFlightStart messages ≤ i ↔ InFlight messages i := by
  unfold inFlightStart InFlight
  cases hlast : rposition (fun m : ContextMessage => m.role == .assistant) messages with
  | none =>
    constructor
    · intro hle
      exact absurd hi (Nat.not_lt_of_le hle)
    · rintro ⟨last, hat, -⟩
      exact absurd hat.1 (rposition_eq_none_iff.mp hlast last)
  | some last =>
    have hat := rposition_eq_some_iff.mp hlast
    obtain ⟨m, hm, -⟩ := hat.1
    have hlatest : ∀ j, LastAt (fun m : ContextMessage => m.role == .assistant) messages j ↔
        last = j := by
      intro j
      rw [← rposition_eq_some_iff, hlast, Option.some.injEq]
    simp only [hlatest, exists_eq_left', hm, Option.any_some]
    by_cases hcalls : m.toolCalls.isEmpty = true
    · have hnot : last = i →
        ¬ HoldsAt (fun m : ContextMessage => !m.toolCalls.isEmpty) messages i := by
        rintro rfl ⟨m', hm', hsome⟩
        rw [hm, Option.some.injEq] at hm'
        subst hm'
        simp only [hcalls, Bool.not_true] at hsome
        cases hsome
      rw [if_pos hcalls]
      exact ⟨fun hle => .inl hle, fun h => h.resolve_right fun hc => hnot hc.1 hc.2⟩
    · have hholds : last = i →
        HoldsAt (fun m : ContextMessage => !m.toolCalls.isEmpty) messages i := by
        rintro rfl
        exact ⟨m, hm, by simpa using hcalls⟩
      rw [if_neg hcalls]
      constructor
      · intro hle
        obtain hlt | heq := Nat.lt_or_eq_of_le hle
        · exact .inl hlt
        · exact .inr ⟨heq, hholds heq⟩
      rintro (hlt | ⟨heq, -⟩)
      · exact Nat.le_of_lt hlt
      · exact Nat.le_of_eq heq

lemma ladderExempt_length (messages : List ContextMessage) (pinRecentTurns : Nat) :
    (ladderExempt messages pinRecentTurns).length = messages.length := by
  simp [ladderExempt, exemptFlags]

lemma ladderExempt_iff (messages : List ContextMessage) (pinRecentTurns i : Nat) :
    (ladderExempt messages pinRecentTurns)[i]? = some true ↔ Exempt messages pinRecentTurns i := by
  unfold ladderExempt exemptFlags Exempt
  rw [getElem?_map, getElem?_zipIdx, getElem?_map, getElem?_zipIdx]
  cases hm : messages[i]? with
  | none => simp
  | some m =>
    have hflight := inFlightStart_le_iff (List.getElem?_eq_some_iff.mp hm).1
    simp [hflight, or_assoc]

/-! ## Exchanges -/

def Answers (messages : List ContextMessage) (c r : Nat) : Prop :=
  AnswersCall madeCalls answeredCall messages c r

def Together (messages : List ContextMessage) (i j : Nat) : Prop :=
  i = j ∨ Answers messages i j ∨ Answers messages j i ∨
    ∃ c, Answers messages c i ∧ Answers messages c j

lemma exchangeGroupsFrom_eq (callers : OrdMap String Nat) (index : Nat)
    (messages : List ContextMessage) : exchangeGroupsFrom callers index messages =
      ((callersFrom madeCalls answeredCall callers index messages).zipIdx index).map
        fun e => e.1.getD e.2 := by
  induction messages generalizing callers index with
  | nil => rfl
  | cons m rest ih =>
    rw [exchangeGroupsFrom, callersFrom, zipIdx_cons, map_cons, ih]

lemma exchangeGroups_length (messages : List ContextMessage) :
    (exchangeGroups messages).length = messages.length := by
  rw [exchangeGroups, exchangeGroupsFrom_eq, length_map, length_zipIdx, callersFrom_length]

lemma exchangeGroups_result (h : Answers messages c r) :
    (exchangeGroups messages)[r]? = some c := by
  have hcaller := (callers_iff messages c r).mpr h
  rw [exchangeGroups, exchangeGroupsFrom_eq, getElem?_map, getElem?_zipIdx, hcaller]
  rfl

lemma exchangeGroups_other (hi : i < messages.length) (h : ∀ c, ¬ Answers messages c i) :
    (exchangeGroups messages)[i]? = some i := by
  have hlt : i < (callersFrom madeCalls answeredCall ∅ 0 messages).length := by
    rw [callersFrom_length]
    exact hi
  have hnone : (callersFrom madeCalls answeredCall ∅ 0 messages)[i]? = some none := by
    cases hcaller : (callersFrom madeCalls answeredCall ∅ 0 messages)[i]? with
    | none => exact absurd (getElem?_eq_none_iff.mp hcaller) (Nat.not_le_of_lt hlt)
    | some caller =>
      cases caller with
      | none => rfl
      | some c => exact absurd ((callers_iff messages c i).mp hcaller) (h c)
  rw [exchangeGroups, exchangeGroupsFrom_eq, getElem?_map, getElem?_zipIdx, hnone]
  simp

lemma not_answers_caller (h : Answers messages c r) (c' : Nat) : ¬ Answers messages c' c := by
  obtain ⟨m, call, hm, hcall⟩ := AnswersCall.caller h
  rintro ⟨m', call', hm', hanswered, -⟩
  rw [hm, Option.some.injEq] at hm'
  subst hm'
  unfold madeCalls at hcall
  unfold answeredCall at hanswered
  split at hcall
  · rename_i hrole
    rw [hrole] at hanswered
    cases hanswered
  · cases hcall

lemma exchangeGroups_caller (h : Answers messages c r) : (exchangeGroups messages)[c]? = some c :=
  exchangeGroups_other (Nat.lt_trans h.lt.1 h.lt.2) (not_answers_caller h)

lemma together_of_group {j : Nat} (hi : (exchangeGroups messages)[i]? = some g)
    (hj : (exchangeGroups messages)[j]? = some g) : Together messages i j := by
  have hlt : ∀ {k : Nat}, (exchangeGroups messages)[k]? = some g → k < messages.length := by
    intro k hk
    rw [← exchangeGroups_length messages]
    exact (List.getElem?_eq_some_iff.mp hk).1
  -- a message of the group answers its head, or is the head itself
  have hhead : ∀ {k : Nat}, (exchangeGroups messages)[k]? = some g →
      Answers messages g k ∨ k = g := by
    intro k hk
    by_cases hanswers : ∃ c, Answers messages c k
    · obtain ⟨c, hc⟩ := hanswers
      rw [exchangeGroups_result hc, Option.some.injEq] at hk
      exact .inl (hk ▸ hc)
    · rw [exchangeGroups_other (hlt hk) fun c hc => hanswers ⟨c, hc⟩, Option.some.injEq] at hk
      exact .inr hk
  obtain hgi | rfl := hhead hi
  · obtain hgj | rfl := hhead hj
    · exact .inr (.inr (.inr ⟨g, hgi, hgj⟩))
    · exact .inr (.inr (.inl hgi))
  obtain hgj | rfl := hhead hj
  · exact .inr (.inl hgj)
  · exact .inl rfl

/-! ## Stubs -/

section

variable [TokenEstimates]

lemma demote_same {m stub : ContextMessage} (h : demote m = some stub) :
    madeCalls stub = madeCalls m ∧ answeredCall stub = answeredCall m := by
  unfold demote at h
  split at h
  · cases h
  split at h
  · cases h
  dsimp only at h
  split at h
  · cases h
  split at h
  · rw [← Option.some.inj h]
    unfold collapseMessage
    split <;> exact ⟨rfl, rfl⟩
  · rw [← Option.some.inj h]
    exact ⟨rfl, rfl⟩
  · rw [← Option.some.inj h]
    exact ⟨rfl, rfl⟩
  · cases h

def StubOf (e : ContextMessage × Bool) (m : ContextMessage) : Prop :=
  m = e.1 ∨ (e.2 = false ∧ demote e.1 = some m)

lemma forall₂_stubOf_refl (entries : List (ContextMessage × Bool)) :
    Forall₂ StubOf entries (entries.map (·.1)) := by
  rw [forall₂_map_right_iff, forall₂_same]
  exact fun _ _ => .inl rfl

lemma estimateTotalTokens_cons (m : ContextMessage) (rest : List ContextMessage) :
    estimateTotalTokens (m :: rest) = m.estimatedTokens + estimateTotalTokens rest := by
  rw [estimateTotalTokens, map_cons, sum_cons, estimateTotalTokens]

lemma collapseDown_spec (target collapsed : Nat) (entries : List (ContextMessage × Bool))
    (paid : Nat) :
    let done := collapseDown target (paid + estimateTotalTokens (entries.map (·.1)))
      collapsed entries
    Forall₂ StubOf entries done.messages ∧
      done.total = paid + estimateTotalTokens done.messages := by
  induction entries generalizing paid collapsed with
  | nil => exact ⟨.nil, rfl⟩
  | cons e rest ih =>
    obtain ⟨m, exempt⟩ := e
    intro done
    simp only [done, map_cons, estimateTotalTokens_cons]
    unfold collapseDown
    split
    · refine ⟨forall₂_stubOf_refl ((m, exempt) :: rest), ?_⟩
      rw [estimateTotalTokens_cons]
    split
    · obtain ⟨hstubs, htotal⟩ := ih collapsed (paid + m.estimatedTokens)
      rw [Nat.add_assoc] at hstubs htotal
      refine ⟨.cons (.inl rfl) hstubs, ?_⟩
      rw [estimateTotalTokens_cons, htotal, Nat.add_assoc]
    rename_i stub hstub
    have hfree : exempt = false ∧ demote m = some stub := by
      split at hstub
      · cases hstub
      · rename_i hexempt
        exact ⟨by simpa using hexempt, hstub⟩
    -- the message's tokens are part of the total, so taking them off loses nothing
    have hpaid : paid + (m.estimatedTokens + estimateTotalTokens (rest.map (·.1))) -
        m.estimatedTokens + stub.estimatedTokens =
          paid + stub.estimatedTokens + estimateTotalTokens (rest.map (·.1)) := by omega
    rw [hpaid]
    obtain ⟨hstubs, htotal⟩ := ih (collapsed + 1) (paid + stub.estimatedTokens)
    refine ⟨.cons (.inr hfree) hstubs, ?_⟩
    rw [estimateTotalTokens_cons, htotal, Nat.add_assoc]

lemma exchangeGroups_stubs {entries : List (ContextMessage × Bool)}
    {stubbed : List ContextMessage} (h : Forall₂ StubOf entries stubbed) :
    exchangeGroups stubbed = exchangeGroups (entries.map (·.1)) := by
  have hfrom : ∀ (callers : OrdMap String Nat) (index : Nat),
      exchangeGroupsFrom callers index stubbed =
        exchangeGroupsFrom callers index (entries.map (·.1)) := by
    induction h with
    | nil => exact fun _ _ => rfl
    | @cons e m _ _ hstub _ ih =>
      have hsame : madeCalls m = madeCalls e.1 ∧ answeredCall m = answeredCall e.1 := by
        obtain rfl | ⟨-, hdemoted⟩ := hstub
        · exact ⟨rfl, rfl⟩
        · exact demote_same hdemoted
      intro callers index
      rw [map_cons, exchangeGroupsFrom, exchangeGroupsFrom, hsame.1, hsame.2, ih]
  exact hfrom ∅ 0

end

/-! ## Whole exchanges -/

lemma keepExchangesWhole_length (hlen : exempt.length = groups.length) :
    (keepExchangesWhole exempt groups).length = groups.length := by
  simp [keepExchangesWhole, hlen]

lemma keepExchangesWhole_iff (hlen : exempt.length = groups.length) (hg : groups[i]? = some g) :
    (keepExchangesWhole exempt groups)[i]? = some true ↔
      ∃ j : Nat, groups[j]? = some g ∧ exempt[j]? = some true := by
  obtain ⟨keep, hkeep⟩ : ∃ keep, exempt[i]? = some keep := ⟨_, getElem?_eq_getElem (by
      rw [hlen]
      exact (List.getElem?_eq_some_iff.mp hg).1)⟩
  have hmem : g ∈ ((groups.zip exempt).filter (·.2)).map (·.1) ↔
      ∃ j : Nat, groups[j]? = some g ∧ exempt[j]? = some true := by
    constructor
    · intro h
      obtain ⟨⟨g', keep'⟩, he, rfl⟩ := mem_map.mp h
      obtain ⟨he, htrue⟩ := mem_filter.mp he
      obtain ⟨j, hj⟩ := mem_iff_getElem?.mp he
      obtain ⟨hgroup, hexempt⟩ := getElem?_zip_eq_some.mp hj
      exact ⟨j, hgroup, htrue ▸ hexempt⟩
    · rintro ⟨j, hj⟩
      refine mem_map.mpr ⟨(g, true), mem_filter.mpr ⟨?_, rfl⟩, rfl⟩
      exact mem_of_getElem? (getElem?_zip_eq_some.mpr hj)
  have hzip : (exempt.zip groups)[i]? = some (keep, g) := getElem?_zip_eq_some.mpr ⟨hkeep, hg⟩
  have hlookup : (keepExchangesWhole exempt groups)[i]? =
      some (keep || (((groups.zip exempt).filter (·.2)).map (·.1)).contains g) := by
    rw [keepExchangesWhole, getElem?_map, hzip]
    rfl
  rw [hlookup, Option.some.injEq, Bool.or_eq_true, contains_iff_mem, hmem]
  constructor
  · rintro (rfl | h)
    · exact ⟨i, hg, hkeep⟩
    · exact h
  · exact fun h => .inr h

/-! ## Removal -/

def survivors (messages : List ContextMessage) (removed : List Bool) : List ContextMessage :=
  ((messages.zip removed).filter fun e => !e.2).map (·.1)

lemma survivors_none (messages : List ContextMessage) :
    survivors messages (replicate messages.length false) = messages := by
  induction messages with
  | nil => rfl
  | cons m rest ih =>
    exact congrArg (m :: ·) ih

section

variable [TokenEstimates] {messages : List ContextMessage} {removed : List Bool}

lemma survivors_set {m : ContextMessage} (hm : messages[i]? = some m)
    (hkept : removed[i]? = some false) :
    estimateTotalTokens (survivors messages (removed.set i true)) =
      estimateTotalTokens (survivors messages removed) - m.estimatedTokens ∧
    m.estimatedTokens ≤ estimateTotalTokens (survivors messages removed) := by
  induction messages generalizing removed i with
  | nil => cases hm
  | cons x messages ih =>
    cases removed with
    | nil => cases hkept
    | cons b removed =>
      have hcons : ∀ (b : Bool) (removed : List Bool),
          estimateTotalTokens (survivors (x :: messages) (b :: removed)) =
            (if b then 0 else x.estimatedTokens) +
              estimateTotalTokens (survivors messages removed) := by
        intro b removed
        cases b with
        | true => exact (Nat.zero_add _).symm
        | false => rfl
      cases i with
      | zero =>
        cases hm
        cases hkept
        rw [set_cons_zero, hcons, hcons, if_pos rfl, if_neg Bool.false_ne_true]
        omega
      | succ i =>
        obtain ⟨hset, hle⟩ := ih hm hkept
        rw [set_cons_succ, hcons, hcons]
        omega

def dropOne (messages : List ContextMessage) (state : Nat × List Bool) (index : Nat) :
    Nat × List Bool :=
  (state.1 - messages[index]?.elim 0 (·.estimatedTokens), state.2.set index true)

lemma foldl_dropOne {indices : List Nat} (hnodup : indices.Nodup)
    (hlen : removed.length = messages.length) (hkept : ∀ i ∈ indices, removed[i]? = some false) :
    ∃ after, indices.foldl (dropOne messages)
        (estimateTotalTokens (survivors messages removed), removed) =
      (estimateTotalTokens (survivors messages after), after) ∧ after.length = messages.length ∧
      ∀ j : Nat, after[j]? = removed[j]?.map fun b => b || decide (j ∈ indices) := by
  induction indices generalizing removed with
  | nil => exact ⟨removed, rfl, hlen, by simp⟩
  | cons i indices ih =>
    obtain ⟨hnot, hnodup⟩ := nodup_cons.mp hnodup
    have hfree := hkept i mem_cons_self
    have hi : i < messages.length := by
      rw [← hlen]
      exact (List.getElem?_eq_some_iff.mp hfree).1
    have hm := getElem?_eq_getElem hi
    have hlater : ∀ j ∈ indices, (removed.set i true)[j]? = some false := by
      intro j hj
      have hne : i ≠ j := by
        rintro rfl
        exact hnot hj
      rw [getElem?_set_ne hne]
      exact hkept j (mem_cons_of_mem i hj)
    obtain ⟨after, hafter, hlength, hlookup⟩ := ih hnodup (by rw [length_set, hlen]) hlater
    refine ⟨after, ?_, hlength, ?_⟩
    · rw [foldl_cons, ← hafter, dropOne, hm, Option.elim_some, (survivors_set hm hfree).1]
    intro j
    rw [hlookup j]
    by_cases hij : i = j
    · subst hij
      rw [List.getElem?_set_self (by omega), hfree]
      simp
    have hji : ¬ j = i := fun h => hij h.symm
    rw [getElem?_set_ne hij]
    simp [hji]

lemma dropUnits_eq (messages : List ContextMessage) (maxTokens : Nat) (units : List (List Nat))
    (state : Nat × List Bool) : ∃ gone, gone <+: units ∧
      dropUnits messages maxTokens units state = gone.flatten.foldl (dropOne messages) state ∧
      (gone = units ∨ (gone.flatten.foldl (dropOne messages) state).1 ≤ maxTokens) := by
  induction units generalizing state with
  | nil => exact ⟨[], nil_prefix, rfl, .inl rfl⟩
  | cons unit rest ih =>
    rw [dropUnits]
    split
    · rename_i hfits
      exact ⟨[], nil_prefix, rfl, .inr hfits⟩
    obtain ⟨gone, hfirst, heq, hend⟩ := ih (dropUnit messages unit state)
    have hfold : (unit :: gone).flatten.foldl (dropOne messages) state =
        gone.flatten.foldl (dropOne messages) (dropUnit messages unit state) := by
      rw [flatten_cons, foldl_append]
      rfl
    refine ⟨unit :: gone, cons_prefix_cons.mpr ⟨rfl, hfirst⟩, ?_, ?_⟩
    · rw [heq, hfold]
    · rw [hfold]
      exact hend.imp (congrArg (unit :: ·)) id

end

def freeOf (entries : List ((Bool × Nat) × Nat)) (g : Nat) : List Nat :=
  (entries.filter fun e => !e.1.1 && e.1.2 == g).map (·.2)

lemma removable_lookup (exempt : List Bool) (groups : List Nat) (g : Nat) :
    ((removable exempt groups)[g]?).getD [] = freeOf (exempt.zip groups).zipIdx g := by
  have hfold : ∀ (entries : List ((Bool × Nat) × Nat)) (units : OrdMap Nat (List Nat)),
      ((entries.foldl (fun units (e : (Bool × Nat) × Nat) =>
        if e.1.1 then units
        else units.insert e.1.2 ((units[e.1.2]?).getD [] ++ [e.2])) units)[g]?).getD [] =
        (units[g]?).getD [] ++ freeOf entries g := by
    intro entries
    induction entries with
    | nil => exact fun units => (append_nil _).symm
    | cons e entries ih =>
      intro units
      rw [foldl_cons, ih]
      obtain ⟨⟨keep, group⟩, index⟩ := e
      cases keep with
      | true => rfl
      | false =>
        simp only [Bool.false_eq_true, if_false]
        rw [OrdMap.getElem?_insert_eq]
        by_cases hg : group = g
        · rw [hg]
          simp [freeOf]
        · simp [freeOf, hg]
  have h := hfold (exempt.zip groups).zipIdx ∅
  exact h

lemma mem_freeOf :
    i ∈ freeOf (exempt.zip groups).zipIdx g ↔ exempt[i]? = some false ∧ groups[i]? = some g := by
  simp only [freeOf, mem_map, mem_filter, mem_zipIdx_iff_getElem?, Prod.exists,
    getElem?_zip_eq_some, Bool.and_eq_true, Bool.not_eq_true', beq_iff_eq]
  constructor
  · rintro ⟨keep, group, index, ⟨⟨hkeep, hgroup⟩, rfl, rfl⟩, rfl⟩
    exact ⟨hkeep, hgroup⟩
  · rintro ⟨hkeep, hgroup⟩
    exact ⟨false, g, i, ⟨⟨hkeep, hgroup⟩, rfl, rfl⟩, rfl⟩

section

variable {exempt : List Bool} {groups : List Nat}

lemma unit_eq {e : Nat × List Nat} (he : e ∈ (removable exempt groups).toList) :
    e.2 = freeOf (exempt.zip groups).zipIdx e.1 := by
  rw [← removable_lookup, OrdMap.mem_toList_iff.mp he, Option.getD_some]

lemma exists_unit (hfree : exempt[i]? = some false) (hg : groups[i]? = some g) :
    ∃ e ∈ (removable exempt groups).toList, i ∈ e.2 := by
  have hmem := mem_freeOf.mpr ⟨hfree, hg⟩
  rw [← removable_lookup] at hmem
  cases hunit : (removable exempt groups)[g]? with
  | none =>
    rw [hunit] at hmem
    cases hmem
  | some unit =>
    rw [hunit] at hmem
    exact ⟨(g, unit), OrdMap.mem_toList_iff.mpr hunit, hmem⟩

lemma freeOf_nodup (exempt : List Bool) (groups : List Nat) (g : Nat) :
    (freeOf (exempt.zip groups).zipIdx g).Nodup := by
  have hindices : ((exempt.zip groups).zipIdx.map (·.2)).Nodup := by
    rw [zipIdx_map_snd]
    exact nodup_range'
  exact (Sublist.map _ filter_sublist).nodup hindices

lemma units_nodup : ((removable exempt groups).toList.map (·.2)).flatten.Nodup := by
  rw [nodup_flatten]
  constructor
  · intro unit hunit
    obtain ⟨e, he, rfl⟩ := mem_map.mp hunit
    rw [unit_eq he]
    exact freeOf_nodup exempt groups e.1
  rw [pairwise_map]
  refine (OrdMap.toList_pairwise_lt (removable exempt groups)).imp_of_mem ?_
  intro e e' he he' hlt i hi hi'
  rw [unit_eq he, mem_freeOf] at hi
  rw [unit_eq he', mem_freeOf] at hi'
  rw [hi.2, Option.some.injEq] at hi'
  exact Nat.ne_of_lt hlt hi'.2

end

structure Removed (messages : List ContextMessage) (maxTokens : Nat) (exempt : List Bool)
    (groups : List Nat) [TokenEstimates] (removed : List Bool) : Prop where
  length : removed.length = messages.length
  kept : ∀ i : Nat, exempt[i]? = some true → removed[i]? = some false
  whole : ∀ i j g : Nat, groups[i]? = some g → groups[j]? = some g → removed[i]? = removed[j]?
  enough : maxTokens < estimateTotalTokens (survivors messages removed) →
    ∀ i : Nat, exempt[i]? = some false → removed[i]? = some true

lemma dropExchanges_spec [TokenEstimates] (messages : List ContextMessage) (maxTokens : Nat)
    (hexempt : exempt.length = messages.length) (hgroups : groups.length = messages.length)
    (hwhole : ∀ i j g : Nat, groups[i]? = some g → groups[j]? = some g → exempt[i]? = exempt[j]?) :
    ∃ removed, (dropExchangesUntilUnderBudget messages maxTokens exempt groups).kept =
        survivors messages removed ∧ Removed messages maxTokens exempt groups removed := by
  obtain ⟨gone, hfirst, hdrop, hend⟩ := dropUnits_eq messages maxTokens
    ((removable exempt groups).toList.map (·.2))
    (estimateTotalTokens messages, replicate messages.length false)
  have hgone : ∀ unit ∈ gone, ∃ g, unit = freeOf (exempt.zip groups).zipIdx g := by
    intro unit hunit
    obtain ⟨e, he, rfl⟩ := mem_map.mp (hfirst.subset hunit)
    exact ⟨e.1, unit_eq he⟩
  have hmem : ∀ i, i ∈ gone.flatten → exempt[i]? = some false ∧ i < messages.length := by
    intro i hi
    obtain ⟨unit, hunit, hi⟩ := mem_flatten.mp hi
    obtain ⟨g, rfl⟩ := hgone unit hunit
    obtain ⟨hfree, hg⟩ := mem_freeOf.mp hi
    rw [← hgroups]
    exact ⟨hfree, (List.getElem?_eq_some_iff.mp hg).1⟩
  have hnodup : gone.flatten.Nodup := hfirst.sublist.flatten.nodup units_nodup
  have hnone : (replicate messages.length false).length = messages.length :=
    length_replicate
  obtain ⟨removed, hremoved, hlength, hlookup⟩ := foldl_dropOne hnodup hnone fun i hi => by
    rw [List.getElem?_replicate, if_pos (hmem i hi).2]
  rw [survivors_none] at hremoved
  -- a message is removed when it is in a unit that went
  have hmark : ∀ i < messages.length, removed[i]? = some (decide (i ∈ gone.flatten)) := by
    intro i hi
    rw [hlookup, List.getElem?_replicate, if_pos hi]
    rfl
  refine ⟨removed, ?_, hlength, ?_, ?_, ?_⟩
  · rw [dropExchangesUntilUnderBudget, hdrop, hremoved]
    rfl
  · intro i hi
    have hlt : i < messages.length := by
      rw [← hexempt]
      exact (List.getElem?_eq_some_iff.mp hi).1
    rw [hmark i hlt, Option.some.injEq, decide_eq_false_iff_not]
    intro hgone
    rw [(hmem i hgone).1] at hi
    cases hi
  · intro i j g hi hj
    have hlt : ∀ {k : Nat}, groups[k]? = some g → k < messages.length := by
      intro k hk
      rw [← hgroups]
      exact (List.getElem?_eq_some_iff.mp hk).1
    have hgroup : ∀ {k l : Nat}, groups[k]? = some g → groups[l]? = some g →
        k ∈ gone.flatten → l ∈ gone.flatten := by
      intro k l hk hl hin
      obtain ⟨unit, hunit, hin⟩ := mem_flatten.mp hin
      refine mem_flatten.mpr ⟨unit, hunit, ?_⟩
      obtain ⟨g', rfl⟩ := hgone unit hunit
      obtain ⟨hfree, hg'⟩ := mem_freeOf.mp hin
      rw [hk] at hg'
      rw [mem_freeOf, hl, ← hwhole k l g hk hl]
      exact ⟨hfree, hg'⟩
    rw [hmark i (hlt hi), hmark j (hlt hj)]
    exact congrArg some (decide_eq_decide.mpr ⟨hgroup hi hj, hgroup hj hi⟩)
  · intro hover i hi
    have hlt : i < messages.length := by
      rw [← hexempt]
      exact (List.getElem?_eq_some_iff.mp hi).1
    obtain ⟨g, hg⟩ : ∃ g, groups[i]? = some g := ⟨_, getElem?_eq_getElem (by omega)⟩
    have hall : gone = (removable exempt groups).toList.map (·.2) := by
      refine hend.resolve_right ?_
      rw [hremoved]
      exact Nat.not_le_of_lt hover
    obtain ⟨e, he, hin⟩ := exists_unit hi hg
    rw [hmark i hlt, hall]
    exact congrArg some (decide_eq_true (mem_flatten.mpr ⟨e.2, mem_map_of_mem he, hin⟩))

/-! ## The ladder -/

lemma lowWater_le (limit : Nat) : lowWater limit ≤ limit := by
  unfold lowWater
  dsimp only
  split
  · exact Nat.min_le_right _ _
  · exact Nat.le_refl limit

section

variable [Whitespace]

def withReport (messages : List ContextMessage) (exempt : List Bool) : List Bool :=
  match reportToKeep messages with
  | some report => exempt.set report true
  | none => exempt

lemma withReport_length (messages : List ContextMessage) (exempt : List Bool) :
    (withReport messages exempt).length = exempt.length := by
  unfold withReport
  split
  · rw [length_set]
  · rfl

variable {messages : List ContextMessage} {exempt : List Bool} {i : Nat}

lemma withReport_of_exempt (h : exempt[i]? = some true) :
    (withReport messages exempt)[i]? = some true := by
  unfold withReport
  split
  · rename_i report _
    by_cases hi : report = i
    · subst hi
      exact List.getElem?_set_self (List.getElem?_eq_some_iff.mp h).1
    · rw [getElem?_set_ne hi, h]
  · exact h

lemma withReport_cases (h : (withReport messages exempt)[i]? = some true) :
    exempt[i]? = some true ∨ reportToKeep messages = some i := by
  unfold withReport at h
  split at h
  · rename_i report hreport
    by_cases hi : report = i
    · exact .inr (hi ▸ hreport)
    · rw [getElem?_set_ne hi] at h
      exact .inl h
  · exact .inl h

end

section Ladder

variable [TokenEstimates] [Whitespace]

/-- A message the ladder keeps for its own sake: an exempt one, or the report, of the
messages as the first rung leaves them. -/
def KeptAt (messages stubbed : List ContextMessage) (pinRecentTurns i : Nat) : Prop :=
  Exempt messages pinRecentTurns i ∨ reportToKeep stubbed = some i

/-- One pass of the ladder over `messages`: the first rung leaves `stubbed`, the second
one takes out what `removed` marks. -/
structure LadderRun (messages : List ContextMessage) (pinRecentTurns : Nat)
    (pass : CeilingLadderOutcome × List ContextMessage) (stubbed : List ContextMessage)
    (removed : List Bool) : Prop where
  stubbed_length : stubbed.length = messages.length
  removed_length : removed.length = messages.length
  left : pass.2 = survivors stubbed removed
  stubs : ∀ (i : Nat) (m : ContextMessage), messages[i]? = some m →
    stubbed[i]? = some m ∨ ∃ stub, demote m = some stub ∧ stubbed[i]? = some stub
  exempt : ∀ i, Exempt messages pinRecentTurns i →
    removed[i]? = some false ∧ stubbed[i]? = messages[i]?
  whole : ∀ c r, Answers messages c r → removed[c]? = removed[r]?
  overBudget : pass.1.overBudget = true → ∀ i : Nat, removed[i]? = some false →
    ∃ j, Together messages i j ∧ KeptAt messages stubbed pinRecentTurns j

lemma removeDown_spec {messages stubbed : List ContextMessage}
    (maxTokens : Nat) (hlen : stubbed.length = messages.length)
    (hexempt : exempt.length = messages.length)
    (hgroups : exchangeGroups stubbed = exchangeGroups messages) :
    ∃ removed, (removeDown stubbed maxTokens exempt).kept = survivors stubbed removed ∧
      removed.length = messages.length ∧
      (∀ i : Nat, exempt[i]? = some true → removed[i]? = some false) ∧
      (∀ c r, Answers messages c r → removed[c]? = removed[r]?) ∧
      (maxTokens < estimateTotalTokens (survivors stubbed removed) →
        ∀ i : Nat, removed[i]? = some false → ∃ j, Together messages i j ∧
            (exempt[j]? = some true ∨ reportToKeep stubbed = some j)) := by
  have hgroupsLength := exchangeGroups_length messages
  have hreported : (withReport stubbed exempt).length = (exchangeGroups messages).length := by
    rw [withReport_length, hexempt, hgroupsLength]
  have hkept : keptExempt stubbed exempt =
      keepExchangesWhole (withReport stubbed exempt) (exchangeGroups messages) := by
    rw [← hgroups]
    rfl
  have hkeptLength := keepExchangesWhole_length hreported
  rw [← hkept] at hkeptLength
  have hgroupOf : ∀ i < messages.length, ∃ g, (exchangeGroups messages)[i]? = some g := by
    intro i hi
    exact ⟨_, getElem?_eq_getElem (by omega)⟩
  have hlookup : ∀ i < messages.length, ∃ keep, (keptExempt stubbed exempt)[i]? = some keep := by
    intro i hi
    exact ⟨_, getElem?_eq_getElem (by omega)⟩
  have hiff : ∀ {i g : Nat}, (exchangeGroups messages)[i]? = some g →
      ((keptExempt stubbed exempt)[i]? = some true ↔ ∃ j : Nat,
        (exchangeGroups messages)[j]? = some g ∧ (withReport stubbed exempt)[j]? = some true) := by
    intro i g hg
    rw [hkept]
    exact keepExchangesWhole_iff hreported hg
  have hwhole : ∀ i j g : Nat, (exchangeGroups messages)[i]? = some g →
      (exchangeGroups messages)[j]? = some g →
      (keptExempt stubbed exempt)[i]? = (keptExempt stubbed exempt)[j]? := by
    intro i j g hi hj
    have hlt : ∀ {k : Nat}, (exchangeGroups messages)[k]? = some g → k < messages.length := by
      intro k hk
      rw [← hgroupsLength]
      exact (List.getElem?_eq_some_iff.mp hk).1
    obtain ⟨ki, hki⟩ := hlookup i (hlt hi)
    obtain ⟨kj, hkj⟩ := hlookup j (hlt hj)
    have hsame := (hiff hi).trans (hiff hj).symm
    rw [hki, hkj, Option.some.injEq, Option.some.injEq] at hsame
    rw [hki, hkj, Bool.eq_iff_iff.mpr hsame]
  -- the target never exceeds the ceiling
  have htarget : (if exemptTokens stubbed (keptExempt stubbed exempt) ≤ lowWater maxTokens
      then lowWater maxTokens else maxTokens) ≤ maxTokens := by
    split
    · exact lowWater_le maxTokens
    · exact Nat.le_refl maxTokens
  obtain ⟨removed, hleft, hremoved⟩ := dropExchanges_spec stubbed
    (if exemptTokens stubbed (keptExempt stubbed exempt) ≤ lowWater maxTokens
      then lowWater maxTokens else maxTokens)
    (hkeptLength.trans (hgroupsLength.trans hlen.symm)) (hgroupsLength.trans hlen.symm) hwhole
  refine ⟨removed, ?_, hremoved.length.trans hlen, ?_, ?_, ?_⟩
  · rw [removeDown, hgroups]
    exact hleft
  · intro i hi
    obtain ⟨g, hg⟩ := hgroupOf i (hexempt ▸ (List.getElem?_eq_some_iff.mp hi).1)
    exact hremoved.kept i ((hiff hg).mpr ⟨i, hg, withReport_of_exempt hi⟩)
  · intro c r hanswers
    exact hremoved.whole c r c (exchangeGroups_caller hanswers) (exchangeGroups_result hanswers)
  intro hover i hi
  have hlt : i < messages.length := by
    rw [← hlen, ← hremoved.length]
    exact (List.getElem?_eq_some_iff.mp hi).1
  obtain ⟨g, hg⟩ := hgroupOf i hlt
  obtain ⟨keep, hkeep⟩ := hlookup i hlt
  cases keep with
  | false =>
    have hgone := hremoved.enough (Nat.lt_of_le_of_lt htarget hover) i hkeep
    rw [hi] at hgone
    cases hgone
  | true =>
    obtain ⟨j, hj, hreport⟩ := (hiff hg).mp hkeep
    exact ⟨j, together_of_group hg hj, withReport_cases hreport⟩

structure FirstRung (messages : List ContextMessage) (pinRecentTurns : Nat)
    (done : Stubbed) : Prop where
  length : done.messages.length = messages.length
  total : done.total = estimateTotalTokens done.messages
  groups : exchangeGroups done.messages = exchangeGroups messages
  stubs : ∀ (i : Nat) (m : ContextMessage), messages[i]? = some m →
    done.messages[i]? = some m ∨ ∃ stub, demote m = some stub ∧ done.messages[i]? = some stub
  exempt : ∀ i, Exempt messages pinRecentTurns i → done.messages[i]? = messages[i]?

omit [Whitespace] in
lemma firstRung (messages : List ContextMessage) (target pinRecentTurns : Nat) :
    FirstRung messages pinRecentTurns (collapseDown target (estimateTotalTokens messages) 0
        (messages.zip (ladderExempt messages pinRecentTurns))) := by
  have hflags := ladderExempt_length messages pinRecentTurns
  have hentries : (messages.zip (ladderExempt messages pinRecentTurns)).map (·.1) = messages :=
    map_fst_zip (Nat.le_of_eq hflags.symm)
  obtain ⟨hstubs, htotal⟩ := collapseDown_spec target 0
    (messages.zip (ladderExempt messages pinRecentTurns)) 0
  have hgroups := exchangeGroups_stubs hstubs
  rw [hentries, Nat.zero_add] at hstubs htotal hgroups
  rw [Nat.zero_add] at htotal
  generalize collapseDown target (estimateTotalTokens messages) 0
    (messages.zip (ladderExempt messages pinRecentTurns)) = done at hstubs htotal hgroups ⊢
  have hlen : done.messages.length = messages.length := by
    rw [← hstubs.length_eq, length_zip, hflags, Nat.min_self]
  have hat : ∀ (i : Nat) (m : ContextMessage), messages[i]? = some m → ∃ keep stub,
      (ladderExempt messages pinRecentTurns)[i]? = some keep ∧ done.messages[i]? = some stub ∧
        StubOf (m, keep) stub := by
    intro i m hm
    have hi := (List.getElem?_eq_some_iff.mp hm).1
    obtain ⟨keep, hkeep⟩ : ∃ keep, (ladderExempt messages pinRecentTurns)[i]? = some keep :=
      ⟨_, getElem?_eq_getElem (by omega)⟩
    obtain ⟨hlt, hzip⟩ := List.getElem?_eq_some_iff.mp
      (getElem?_zip_eq_some (z := (m, keep)).mpr ⟨hm, hkeep⟩)
    have hget := hstubs.get hlt (by omega)
    rw [get_eq_getElem, get_eq_getElem, hzip] at hget
    exact ⟨keep, _, hkeep, getElem?_eq_getElem _, hget⟩
  refine ⟨hlen, htotal, hgroups, ?_, ?_⟩
  · intro i m hm
    obtain ⟨keep, stub, -, hstub, rfl | ⟨-, hdemote⟩⟩ := hat i m hm
    · exact .inl hstub
    · exact .inr ⟨stub, hdemote, hstub⟩
  intro i hi
  obtain ⟨m, hm, -⟩ := id hi
  obtain ⟨keep, stub, hkeep, hstub, rfl | ⟨hfree, -⟩⟩ := hat i m hm
  · rw [hstub, hm]
  rw [(ladderExempt_iff messages pinRecentTurns i).mpr hi, Option.some.injEq] at hkeep
  rw [← hkeep] at hfree
  cases hfree

lemma FirstRung.run {pinRecentTurns : Nat} {done : Stubbed}
    (h : FirstRung messages pinRecentTurns done) {outcome : CeilingLadderOutcome}
    (hbudget : outcome.overBudget = false) :
    LadderRun messages pinRecentTurns (outcome, done.messages) done.messages
      (replicate messages.length false) where
  stubbed_length := h.length
  removed_length := length_replicate
  left := by rw [← h.length, survivors_none]
  stubs := h.stubs
  exempt := by
    intro i hi
    obtain ⟨m, hm, -⟩ := id hi
    rw [List.getElem?_replicate, if_pos (List.getElem?_eq_some_iff.mp hm).1]
    exact ⟨rfl, h.exempt i hi⟩
  whole := by
    intro c r hanswers
    have hlt := AnswersCall.lt hanswers
    rw [List.getElem?_replicate, List.getElem?_replicate, if_pos hlt.2,
      if_pos (Nat.lt_trans hlt.1 hlt.2)]
  overBudget := by
    intro hover
    rw [hbudget] at hover
    cases hover

omit [Whitespace] in
lemma FirstRung.unchanged (messages : List ContextMessage) (pinRecentTurns : Nat) :
    FirstRung messages pinRecentTurns ⟨estimateTotalTokens messages, 0, messages⟩ :=
  ⟨rfl, rfl, rfl, fun _ _ hm => .inl hm, fun _ _ => rfl⟩

/-- The ladder keeps exchanges whole and touches only what it may. -/
theorem enforceContextCeilingLadder_keeps (messages : List ContextMessage)
    (maxTokens pinRecentTurns : Nat) : ∃ stubbed removed, LadderRun messages pinRecentTurns
      (enforceContextCeilingLadder messages maxTokens pinRecentTurns) stubbed removed := by
  unfold enforceContextCeilingLadder
  dsimp only
  split
  · exact ⟨messages, _, (FirstRung.unchanged messages pinRecentTurns).run rfl⟩
  have hrung := firstRung messages (lowWater maxTokens) pinRecentTurns
  generalize collapseDown (lowWater maxTokens) (estimateTotalTokens messages) 0
    (messages.zip (ladderExempt messages pinRecentTurns)) = done at hrung ⊢
  split
  · obtain ⟨removed, hleft, hlength, hkept, hwhole, hover⟩ := removeDown_spec maxTokens
      hrung.length (ladderExempt_length messages pinRecentTurns) hrung.groups
    refine ⟨done.messages, removed, hrung.length, hlength, hleft, hrung.stubs, ?_, hwhole, ?_⟩
    · intro i hi
      exact ⟨hkept i ((ladderExempt_iff messages pinRecentTurns i).mpr hi), hrung.exempt i hi⟩
    intro hbudget i hi
    rw [decide_eq_true_eq, hleft] at hbudget
    obtain ⟨j, hj, hkeptAt⟩ := hover hbudget i hi
    rw [ladderExempt_iff] at hkeptAt
    exact ⟨j, hj, hkeptAt⟩
  · rename_i hunder
    rw [hrung.total] at hunder
    exact ⟨done.messages, _, hrung.run (decide_eq_false hunder)⟩

end Ladder

end Quecto.Context
