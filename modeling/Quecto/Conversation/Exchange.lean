/-
  Conversation/Exchange.lean --- the watermark cut planner: what pins a message, and where a
  cut may fall.

  Source: `domain/conversation/services/watermark.rs`.
-/
import Quecto.Foundation.Fallible
import Quecto.Foundation.Word
import Quecto.Foundation.Pairing

namespace Quecto.Conversation

open Foundation List Checked
open Foundation.Checked (assert expect index update sliceFrom sliceTo subtract)

/-! ## The marks -/

def minSavingDivisor : Nat := 10

structure Watermark where
  high : Nat
  low : Nat
  word : high ≤ u64Max
  lowPositive : 0 < low
  lowBelowHigh : low < high
  gap : high / minSavingDivisor ≤ high - low
  deriving DecidableEq

inductive InvalidMarks where
  | lowNotPositive
  | lowNotBelowHigh (high low : Nat)
  | gapUnderMinSaving (high low minGap : Nat)
  deriving DecidableEq

namespace Watermark

def new (high low : Nat) (word : high ≤ u64Max) : Except InvalidMarks Watermark :=
  if positive : low = 0 then .error .lowNotPositive
  else if below : high ≤ low then .error (.lowNotBelowHigh high low)
  else if close : high - low < high / minSavingDivisor then
    .error (.gapUnderMinSaving high low (high / minSavingDivisor))
  else
    .ok
      { high := high
        low := low
        word := word
        lowPositive := Nat.pos_of_ne_zero positive
        lowBelowHigh := Nat.lt_of_not_le below
        gap := Nat.le_of_not_lt close }

def scale (value numerator denominator : Nat) : Checked Nat := do
  assert (numerator < denominator) "a ceiling scales a mark down"
  let scaled := value * numerator / denominator
  expect (if scaled ≤ u64Max then some scaled else none) "a scaled mark is at most the mark"

def clamp (value least most : Nat) : Checked Nat := do
  assert (least ≤ most) "assertion failed: min <= max"
  pure (if value < least then least else if most < value then most else value)

def underCeiling (marks : Watermark) (ceiling : Nat) : Checked Watermark :=
  if above : marks.high ≤ max ceiling 2 then .ok marks
  else do
    let below := max ceiling 2
    let low ← clamp (← scale marks.low below marks.high) 1 (below - 1)
    let word := Nat.le_trans (Nat.le_of_not_le above) marks.word
    expect (new below low word).toOption "scaling keeps 1 <= L < H and the gap"

end Watermark

/-! ## When a cut is due -/

structure RequestSize where
  toolTokens : Nat
  messageTokens : Nat
  deriving DecidableEq

def RequestSize.total (size : RequestSize) : Nat := saturatingAdd size.toolTokens size.messageTokens

/-- When a cut is due: the marks, the most the request may hold, and the messages'
tokens right after the previous cut if one was made. -/
structure CutTrigger where
  marks : Watermark
  ceiling : Nat
  afterLastCut : Option Nat
  deriving DecidableEq

namespace CutTrigger

def effectiveMarks (t : CutTrigger) : Checked Watermark := t.marks.underCeiling t.ceiling

def grown (t : CutTrigger) (marks : Watermark) (size : RequestSize) : Bool :=
  match t.afterLastCut with
  | some after => saturatingAdd after ((marks.high - marks.low) / 2) ≤ size.messageTokens
  | none => true

def isDue (t : CutTrigger) (size : RequestSize) : Checked Bool := do
  let marks ← t.effectiveMarks
  pure (marks.high ≤ size.total && (t.ceiling < size.total || t.grown marks size))

/-- The least a cut of a `total`-token request must save: a tenth of the high
mark, or anything at all once the request is over the ceiling. -/
def minSaving (t : CutTrigger) (total : Nat) : Checked Nat :=
  if t.ceiling < total then pure 1
  else do
    let marks ← t.effectiveMarks
    pure (max (marks.high / minSavingDivisor) 1)

end CutTrigger

/-! ## What the planner sees -/

inductive PlanRole (CallId : Type) where
  | system
  | prompt
  | user
  | opener
  | archiveStub
  | assistant (calls : List CallId)
  | toolResult (call : CallId)
  deriving DecidableEq

structure PlanMessage (CallId : Type) where
  role : PlanRole CallId
  tokens : Nat
  deriving DecidableEq

structure CutInput (CallId : Type) where
  messages : List (PlanMessage CallId)
  toolTokens : Nat
  stubTokens : Nat
  trigger : CutTrigger
  deriving DecidableEq

inductive Fill where
  | withinLow
  | newestExchangeOverLow
  | headOverLow
  deriving DecidableEq

def Fill.name : Fill → String
  | withinLow => "WithinLow"
  | newestExchangeOverLow => "NewestExchangeOverLow"
  | headOverLow => "HeadOverLow"

structure Span where
  start : Nat
  stop : Nat
  deriving DecidableEq

def Span.indices (s : Span) : List Nat := range' s.start (s.stop - s.start)

structure CutPlan where
  kept : List Nat
  archived : List Span
  stubSlot : Nat
  projectedTokens : Nat
  projectedMessageTokens : Nat
  fill : Fill
  deriving DecidableEq

def CutPlan.archivedIndices (plan : CutPlan) : List Nat := plan.archived.flatMap Span.indices

inductive NoCut where
  | notDue
  | noUserMessage
  | nothingArchivable
  | noBoundary
  | savingTooSmall (saving needed : Nat)
  deriving DecidableEq

section Planner

variable {CallId : Type}

/-! ## Roles -/

namespace PlanRole

def isUser : PlanRole CallId → Bool
  | prompt | user | opener => true
  | system | archiveStub | assistant _ | toolResult _ => false

def isPrompt : PlanRole CallId → Bool
  | prompt => true
  | system | user | opener | archiveStub | assistant _ | toolResult _ => false

def opensTurn : PlanRole CallId → Bool
  | prompt | opener => true
  | system | user | archiveStub | assistant _ | toolResult _ => false

def isStub : PlanRole CallId → Bool
  | archiveStub => true
  | system | prompt | user | opener | assistant _ | toolResult _ => false

def opensExchange : PlanRole CallId → Bool
  | prompt | user | opener | assistant _ => true
  | system | archiveStub | toolResult _ => false

end PlanRole

variable (messages : List (PlanMessage CallId))

def pinned : Option (List Bool) :=
  match position (·.role.isUser) messages with
  | none => none
  | some first =>
      let latest := rposition (·.role.isPrompt) messages
      let opener := rposition (·.role.opensTurn) messages
      some (messages.zipIdx.map fun (m, i) =>
        match m.role with
        | .system => true
        | .prompt | .user | .opener => i == first || some i == latest || some i == opener
        | .archiveStub | .assistant _ | .toolResult _ => false)

/-! ## Calls and results -/

section

variable [LinearOrder CallId]

def issue (issued : OrdMap CallId Nat) (calls : List CallId) (i : Nat) : OrdMap CallId Nat :=
  calls.foldl (fun issued call => issued.insert call i) issued

def callsFrom (issued : OrdMap CallId Nat) (i : Nat) : List (PlanMessage CallId) → List (Option Nat)
  | [] => []
  | message :: rest =>
      match message.role with
      | .assistant calls => none :: callsFrom (issue issued calls i) (i + 1) rest
      | .toolResult call => issued[call]? :: callsFrom issued (i + 1) rest
      | .system | .prompt | .user | .opener | .archiveStub =>
          none :: callsFrom issued (i + 1) rest

def callOfEachResult : List (Option Nat) := callsFrom ∅ 0 messages

def countSpans (counts : List Nat × List Nat) (entry : Option Nat × Nat) :
    Checked (List Nat × List Nat) :=
  match entry with
  | (none, _) => pure counts
  | (some call, result) => do
      let opens ← update counts.1 (call + 1) (· + 1)
      let closes ← update counts.2 (result + 1) (· + 1)
      pure (opens, closes)

def spannedFrom (opens closes : List Nat) : Nat → List Nat → Checked (List Bool)
  | _, [] => pure []
  | openPairs, i :: rest => do
      let openPairs ← subtract (openPairs + (← index opens i)) (← index closes i)
      let later ← spannedFrom opens closes openPairs rest
      pure (decide (0 < openPairs) :: later)

def boundaries : Checked (List Bool) := do
  let zeros := replicate (messages.length + 1) 0
  let (opens, closes) ← (callOfEachResult messages).zipIdx.foldlM countSpans (zeros, zeros)
  let spanned ← spannedFrom opens closes 0 (range messages.length)
  pure ((messages.zip spanned).map fun (m, spanned) => m.role.opensExchange && !spanned)

end

/-! ## Where the tail starts -/

def archivable (pinned : List Bool) (i : Nat) : Checked Bool := do
  match (← index messages i).role with
  | .prompt | .user | .opener | .assistant _ | .toolResult _ => return !(← index pinned i)
  | .system | .archiveStub => return false

def pinnedBefore (pinned : List Bool) : List Nat :=
  (messages.zip pinned).scanl
    (fun before (m, pinned) => saturatingAdd before (if pinned then m.tokens else 0)) 0

/-- The variables of the walk back: the tokens from here on, the newest boundary,
and the earliest boundary whose kept set fits. -/
structure Walk where
  suffix : Nat
  newest : Option Nat
  fitting : Option Nat
  deriving DecidableEq

def walkBack (messages : List (PlanMessage CallId)) (boundary : List Bool)
    (pinnedBefore : List Nat) (fixed low : Nat) : List Nat → Walk → Checked Walk
  | [], w => pure w
  | i :: rest, w => do
      let suffix := saturatingAdd w.suffix (← index messages i).tokens
      if ← index boundary i then
        let newest := w.newest.or (some i)
        let projected := saturatingAdd (saturatingAdd fixed (← index pinnedBefore i)) suffix
        if projected ≤ low then
          walkBack messages boundary pinnedBefore fixed low rest ⟨suffix, newest, some i⟩
        else pure ⟨suffix, newest, w.fitting⟩
      else
        walkBack messages boundary pinnedBefore fixed low rest ⟨suffix, w.newest, w.fitting⟩

def overLow (pinnedBefore : List Nat) (fixed low i : Nat) : Checked (Nat × Fill) := do
  if low < saturatingAdd fixed (← index pinnedBefore i) then pure (i, .headOverLow)
  else pure (i, .newestExchangeOverLow)

def tailStart [LinearOrder CallId] (pinned : List Bool) (fixed low : Nat) :
    Checked (Except NoCut (Nat × Fill)) := do
  match ← (range messages.length).findM? (archivable messages pinned) with
  | none => pure (.error .nothingArchivable)
  | some firstArchivable =>
      let pastStubs := ((rposition (·.role.isStub) messages).map (· + 1)).getD 0
      let boundary ← boundaries messages
      let before := pinnedBefore messages pinned
      let least := max pastStubs (firstArchivable + 1)
      let w ← walkBack messages boundary before fixed low
        (range' least (messages.length - least)).reverse ⟨0, none, none⟩
      match w.fitting, w.newest with
      | some i, _ => pure (.ok (i, .withinLow))
      | none, some i => .ok <$> overLow before fixed low i
      | none, none => pure (.error .noBoundary)

/-! ## The plan -/

def extendSpans (archived : List Span) (i : Nat) : List Span :=
  match archived.getLast? with
  | some span =>
      if span.stop = i then archived.dropLast ++ [{ span with stop := i + 1 }]
      else archived ++ [⟨i, i + 1⟩]
  | none => archived ++ [⟨i, i + 1⟩]

namespace CutPlan

def tokensOf (kept : List Nat) : Checked (List Nat) :=
  kept.mapM fun i => (·.tokens) <$> index messages i

/-- The fill matches the kept set: within the low mark, or over it because of the
newest exchange, or because of the head alone. -/
def assertFill (plan : CutPlan) (messages : List (PlanMessage CallId)) (fixed low : Nat) :
    Checked Unit := do
  let headTokens ← tokensOf messages (← sliceTo plan.kept plan.stubSlot)
  let head := saturatingAdd fixed (saturatingSum headTokens)
  let fits := decide (plan.projectedTokens ≤ low)
  let consistent :=
    match plan.fill with
    | .withinLow => fits
    | .newestExchangeOverLow => !fits && decide (head ≤ low)
    | .headOverLow => !fits && decide (low < head)
  assert consistent s!"{plan.fill.name} for {plan.projectedTokens} over L {low}"

def assertUnsplit (kept : List Bool) (entry : Option Nat × Nat) : Checked PUnit :=
  match entry with
  | (none, _) => pure ⟨⟩
  | (some call, result) => do
      assert ((← index kept call) == (← index kept result))
        s!"call {call} split from result {result}"

def assertInvariants [LinearOrder CallId] (plan : CutPlan) (messages : List (PlanMessage CallId))
    (pinned : List Bool) (fixed low : Nat) : Checked Unit := do
  let kept ← plan.kept.foldlM (fun kept i => update kept i fun _ => true)
    (replicate messages.length false)
  let archived := plan.archivedIndices
  assert (← archived.allM fun i => not <$> index kept i) "kept or archived, not both"
  assert (plan.kept.length + archived.length == messages.length) "every message placed"
  assert ((plan.kept.zip plan.kept.tail).all fun (a, b) => a < b) "kept in order"
  assert ((pinned.zip kept).all fun (p, k) => k || !p) "the pinned head is kept"
  let tail ← sliceFrom plan.kept plan.stubSlot
  let tailStart ← expect tail.head? "the newest exchange is kept"
  assert (tail == range' tailStart (messages.length - tailStart)) "a whole tail"
  assert (← (← sliceTo plan.kept plan.stubSlot).allM (index pinned)) "the stub follows the head"
  assert (← index messages tailStart).role.opensExchange "the tail opens an exchange"
  let real (i : Nat) : Checked Bool := do return !(← index messages i).role.isStub
  assert (← plan.kept.allM real) "the old stub is not kept"
  assert (← archived.anyM real) "the cut archives something"
  forM (callOfEachResult messages).zipIdx (assertUnsplit kept)
  let projected := saturatingAdd fixed (saturatingSum (← tokensOf messages plan.kept))
  assert (plan.projectedTokens == projected) "the projection counts the kept set"
  plan.assertFill messages fixed low

def keeps (pinned : List Bool) (tailStart i : Nat) : Checked Bool :=
  if tailStart ≤ i then pure true else index pinned i

def new [LinearOrder CallId] (input : CutInput CallId) (pinned : List Bool) (tailStart : Nat)
    (fill : Fill) (low : Nat) : Checked CutPlan := do
  let kept ← (range input.messages.length).filterM (keeps pinned tailStart)
  let left ← (range tailStart).filterM fun i => not <$> keeps pinned tailStart i
  let projectedMessageTokens :=
    saturatingAdd input.stubTokens (saturatingSum (← tokensOf input.messages kept))
  let plan : CutPlan :=
    { kept := kept
      archived := left.foldl extendSpans []
      stubSlot := (kept.takeWhile (· < tailStart)).length
      projectedTokens := saturatingAdd input.toolTokens projectedMessageTokens
      projectedMessageTokens := projectedMessageTokens
      fill := fill }
  let fixed := saturatingAdd input.toolTokens input.stubTokens
  plan.assertInvariants input.messages pinned fixed low
  pure plan

end CutPlan

def planCut [LinearOrder CallId] (input : CutInput CallId) : Checked (Except NoCut CutPlan) := do
  let messages := input.messages
  let size : RequestSize := ⟨input.toolTokens, saturatingSum (messages.map (·.tokens))⟩
  if ← input.trigger.isDue size then
    let low := (← input.trigger.effectiveMarks).low
    match pinned messages with
    | none => pure (.error .noUserMessage)
    | some pinned =>
        let fixed := saturatingAdd input.toolTokens input.stubTokens
        match ← tailStart messages pinned fixed low with
        | .error reason => pure (.error reason)
        | .ok (start, fill) =>
            let plan ← CutPlan.new input pinned start fill low
            let saving := size.total - plan.projectedTokens
            let needed ← input.trigger.minSaving size.total
            pure (if needed ≤ saving then .ok plan else .error (.savingTooSmall saving needed))
  else pure (.error .notDue)

end Planner

variable {CallId : Type}

/-! ## Pinned messages -/

def PlanRole.isSystem : PlanRole CallId → Bool
  | system => true
  | prompt | user | opener | archiveStub | assistant _ | toolResult _ => false

/-- What the cut keeps whatever it costs: every system message, the first user
message, the latest prompt and the latest message that opened a turn. -/
def Pinned (messages : List (PlanMessage CallId)) (i : Nat) : Prop :=
  HoldsAt (·.role.isSystem) messages i ∨ FirstAt (·.role.isUser) messages i ∨
    LastAt (·.role.isPrompt) messages i ∨ LastAt (·.role.opensTurn) messages i

variable {messages : List (PlanMessage CallId)} {pins : List Bool} {opens closes : List Nat}

lemma pinned_length (h : pinned messages = some pins) : pins.length = messages.length := by
  rw [pinned] at h
  cases hfirst : position (fun m : PlanMessage CallId => m.role.isUser) messages with
  | none => simp [hfirst] at h
  | some first =>
    rw [hfirst] at h
    rw [← Option.some.inj h]
    simp

lemma pinned_iff (h : pinned messages = some pins) (i : Nat) :
    pins[i]? = some true ↔ Pinned messages i := by
  rw [pinned] at h
  cases hfirst : position (fun m : PlanMessage CallId => m.role.isUser) messages with
  | none => simp [hfirst] at h
  | some first =>
    rw [hfirst] at h
    have hpins := (Option.some.inj h).symm
    have hf : FirstAt (·.role.isUser) messages i ↔ i = first := by
      rw [← position_eq_some_iff, hfirst, Option.some.injEq, eq_comm]
    have hl : LastAt (·.role.isPrompt) messages i ↔
        some i = rposition (·.role.isPrompt) messages := by
      rw [← rposition_eq_some_iff, eq_comm]
    have ho : LastAt (·.role.opensTurn) messages i ↔
        some i = rposition (·.role.opensTurn) messages := by
      rw [← rposition_eq_some_iff, eq_comm]
    cases hm : messages[i]? with
    | none =>
      have hlen : messages.length ≤ i := by simpa using hm
      have hnot : ∀ p : PlanMessage CallId → Bool, ¬ HoldsAt p messages i :=
        fun p hp => absurd hp.lt (by omega)
      have hpin : pins[i]? = none := by
        rw [getElem?_eq_none_iff, pinned_length (by rw [pinned, hfirst, h])]
        exact hlen
      simp [hpin, Pinned, FirstAt, LastAt, hnot]
    | some m =>
      have hat : ∀ p : PlanMessage CallId → Bool, HoldsAt p messages i ↔ p m = true := by
        simp [HoldsAt, hm]
      rw [hpins, getElem?_map, getElem?_zipIdx, hm]
      -- a message that is no user message is neither first, nor a prompt, nor an opener
      have hother : m.role.isUser = false → m.role.isPrompt = false → m.role.opensTurn = false →
          (Pinned messages i ↔ m.role.isSystem = true) := by
        intro hu hp ht
        simp [Pinned, FirstAt, LastAt, hat, hu, hp, ht]
      cases hrole : m.role with
      | system | archiveStub | assistant _ | toolResult _ =>
        simp [hother, hrole, PlanRole.isSystem, PlanRole.isUser, PlanRole.isPrompt,
          PlanRole.opensTurn]
      | prompt | user | opener => simp [Pinned, hat, hrole, PlanRole.isSystem, hf, hl, ho, or_assoc]

lemma Pinned.role {i : Nat} (h : Pinned messages i) :
    ∃ m, messages[i]? = some m ∧ (m.role.isSystem = true ∨ m.role.isUser = true) := by
  obtain ⟨m, hm, hp⟩ | ⟨⟨m, hm, hp⟩, -⟩ | ⟨⟨m, hm, hp⟩, -⟩ | ⟨⟨m, hm, hp⟩, -⟩ := h
  · exact ⟨m, hm, .inl hp⟩
  · exact ⟨m, hm, .inr hp⟩
  · cases hrole : m.role <;> simp_all [PlanRole.isPrompt, PlanRole.isUser]
  · cases hrole : m.role <;> simp_all [PlanRole.opensTurn, PlanRole.isUser]

/-! ## Calls and their results -/

variable [LinearOrder CallId]

def PlanRole.makes (call : CallId) : PlanRole CallId → Bool
  | assistant calls => calls.contains call
  | system | prompt | user | opener | archiveStub | toolResult _ => false

def Answers (messages : List (PlanMessage CallId)) (c r : Nat) : Prop :=
  ∃ m call, messages[r]? = some m ∧ m.role = .toolResult call ∧
    LastAt (·.role.makes call) (messages.take r) c

def PlanMessage.calls (m : PlanMessage CallId) : List CallId :=
  match m.role with
  | .assistant calls => calls
  | .system | .prompt | .user | .opener | .archiveStub | .toolResult _ => []

def PlanMessage.answered (m : PlanMessage CallId) : Option CallId :=
  match m.role with
  | .toolResult call => some call
  | .system | .prompt | .user | .opener | .archiveStub | .assistant _ => none

lemma answers_iff (messages : List (PlanMessage CallId)) (c r : Nat) : Answers messages c r ↔
      AnswersCall PlanMessage.calls PlanMessage.answered messages c r := by
  have hmakes : ∀ call : CallId, (fun m : PlanMessage CallId => m.role.makes call) =
      fun m => decide (call ∈ m.calls) := by
    intro call
    funext m
    unfold PlanRole.makes PlanMessage.calls
    cases m.role <;> simp
  have hanswered : ∀ (m : PlanMessage CallId) (call : CallId),
      m.role = .toolResult call ↔ m.answered = some call := by
    intro m call
    unfold PlanMessage.answered
    cases m.role <;> simp
  simp only [Answers, AnswersCall, hmakes, hanswered]

lemma Answers.lt {c r : Nat} (h : Answers messages c r) :
    c < r ∧ r < messages.length := ((answers_iff messages c r).mp h).lt

lemma callsFrom_eq (issued : OrdMap CallId Nat) (i : Nat) (rest : List (PlanMessage CallId)) :
    callsFrom issued i rest = callersFrom PlanMessage.calls PlanMessage.answered issued i rest := by
  induction rest generalizing issued i with
  | nil => rfl
  | cons m rest ih =>
    rw [callsFrom, callersFrom]
    cases hrole : m.role <;> simp only [PlanMessage.calls, PlanMessage.answered, hrole, ih] <;> rfl

section

variable (messages) (c r : Nat)

lemma callOfEachResult_iff :
    (callOfEachResult messages)[r]? = some (some c) ↔ Answers messages c r := by
  rw [callOfEachResult, callsFrom_eq, callers_iff, answers_iff]

lemma mem_calls_iff : (some c, r) ∈ (callOfEachResult messages).zipIdx ↔ Answers messages c r := by
  rw [mem_zipIdx_iff_getElem?, callOfEachResult_iff]

end

/-! ## Boundaries -/

def opensAt (i : Nat) : Option Nat × Nat → Bool
  | (some c, _) => c + 1 == i
  | (none, _) => false

def closesAt (i : Nat) : Option Nat × Nat → Bool
  | (some _, r) => r + 1 == i
  | (none, _) => false

def spansAt (i : Nat) : Option Nat × Nat → Bool
  | (some c, r) => c < i && i ≤ r
  | (none, _) => false

lemma countSpans_eq (entry : Option Nat × Nat)
    (hlt : ∀ c, entry.1 = some c → c + 1 < opens.length ∧ entry.2 + 1 < closes.length) :
    ∃ opens' closes', countSpans (opens, closes) entry = .ok (opens', closes') ∧
      opens'.length = opens.length ∧ closes'.length = closes.length ∧
      (∀ i, opens'[i]? = opens[i]?.map (· + if opensAt i entry then 1 else 0)) ∧
      (∀ i, closes'[i]? = closes[i]?.map (· + if closesAt i entry then 1 else 0)) := by
  obtain ⟨call, r⟩ := entry
  cases call with
  | none => exact ⟨opens, closes, rfl, rfl, rfl, by simp [opensAt], by simp [closesAt]⟩
  | some c =>
    obtain ⟨hcall, hresult⟩ := hlt c rfl
    refine ⟨opens.modify (c + 1) (· + 1), closes.modify (r + 1) (· + 1), ?_, by simp, by simp,
      ?_, ?_⟩
    · simp only [countSpans, update_of _ hcall, update_of _ hresult, ok_bind, pure_eq]
    · intro i
      rw [getElem?_modify]
      by_cases hi : c + 1 = i <;> cases opens[i]? <;> simp [hi, opensAt]
    intro i
    rw [getElem?_modify]
    by_cases hi : r + 1 = i <;> cases closes[i]? <;> simp [hi, closesAt]

variable (entries : List (Option Nat × Nat))

lemma countSpans_foldlM (opens closes : List Nat)
    (hlt : ∀ c r, (some c, r) ∈ entries → c + 1 < opens.length ∧ r + 1 < closes.length) :
    ∃ opens' closes', entries.foldlM countSpans (opens, closes) = .ok (opens', closes') ∧
      (∀ i, opens'[i]? = opens[i]?.map (· + entries.countP (opensAt i))) ∧
      (∀ i, closes'[i]? = closes[i]?.map (· + entries.countP (closesAt i))) := by
  induction entries generalizing opens closes with
  | nil => exact ⟨opens, closes, rfl, by simp, by simp⟩
  | cons entry entries ih =>
    obtain ⟨opens₁, closes₁, hstep, holen, hclen, ho₁, hc₁⟩ := countSpans_eq entry (by
        intro c hc
        exact hlt c entry.2 (by rw [← hc]; exact mem_cons_self))
    obtain ⟨opens₂, closes₂, hrun, ho₂, hc₂⟩ := ih opens₁ closes₁ (by
      intro c r h
      rw [holen, hclen]
      exact hlt c r (mem_cons_of_mem _ h))
    refine ⟨opens₂, closes₂, ?_, ?_, ?_⟩
    · rw [foldlM_cons, hstep, ok_bind, hrun]
    · intro i
      rw [ho₂, ho₁, countP_cons, Option.map_map]
      congr 1
      funext n
      simp only [Function.comp_apply]
      omega
    · intro i
      rw [hc₂, hc₁, countP_cons, Option.map_map]
      congr 1
      funext n
      simp only [Function.comp_apply]
      omega

def openBefore (entries : List (Option Nat × Nat)) : Nat → Nat
  | 0 => 0
  | i + 1 => entries.countP (spansAt i)

lemma openBefore_step (hlt : ∀ c r, (some c, r) ∈ entries → c < r) (i : Nat) :
    openBefore entries i + entries.countP (opensAt i) =
      entries.countP (spansAt i) + entries.countP (closesAt i) := by
  induction entries with
  | nil => cases i <;> rfl
  | cons entry entries ih =>
    have ih := ih fun c r h => hlt c r (mem_cons_of_mem _ h)
    obtain ⟨call, r⟩ := entry
    cases call with
    | none => cases i <;> simpa [openBefore, opensAt, closesAt, spansAt] using ih
    | some c =>
      have hcr := hlt c r mem_cons_self
      cases i with
      | zero => simpa [openBefore, opensAt, closesAt, spansAt] using ih
      | succ i =>
        simp only [openBefore, countP_cons, opensAt, closesAt, spansAt, Bool.and_eq_true,
          decide_eq_true_eq, beq_iff_eq] at ih ⊢
        split_ifs <;> omega

lemma spannedFrom_eq {n : Nat} (hlt : ∀ c r, (some c, r) ∈ entries → c < r)
    (hopens : ∀ i < n, opens[i]? = some (entries.countP (opensAt i)))
    (hcloses : ∀ i < n, closes[i]? = some (entries.countP (closesAt i))) (k i : Nat)
    (hk : i + k ≤ n) : spannedFrom opens closes (openBefore entries i) (range' i k) =
      .ok ((range' i k).map fun j => decide (0 < entries.countP (spansAt j))) := by
  induction k generalizing i with
  | zero => rfl
  | succ k ih =>
    have hnext : spannedFrom opens closes (entries.countP (spansAt i)) (range' (i + 1) k) = _ :=
      ih (i + 1) (by omega)
    rw [range'_succ, spannedFrom, index_of (hopens i (by omega)), ok_bind,
      index_of (hcloses i (by omega)), ok_bind, openBefore_step entries hlt i,
      subtract_of (Nat.le_add_left _ _), ok_bind, Nat.add_sub_cancel, hnext]
    rfl

def Boundary (messages : List (PlanMessage CallId)) (i : Nat) : Prop :=
  HoldsAt (·.role.opensExchange) messages i ∧ ∀ c r, Answers messages c r → ¬ (c < i ∧ i ≤ r)

lemma spanned_iff (messages : List (PlanMessage CallId)) (i : Nat) :
    0 < (callOfEachResult messages).zipIdx.countP (spansAt i) ↔
      ∃ c r, Answers messages c r ∧ c < i ∧ i ≤ r := by
  rw [countP_pos_iff]
  constructor
  · intro h
    obtain ⟨⟨call, r⟩, hmem, hspan⟩ := h
    cases call with
    | none => simp [spansAt] at hspan
    | some c =>
      refine ⟨c, r, (mem_calls_iff messages c r).mp hmem, ?_⟩
      simpa [spansAt] using hspan
  · intro h
    obtain ⟨c, r, hanswers, hspan⟩ := h
    exact ⟨(some c, r), (mem_calls_iff messages c r).mpr hanswers, by simpa [spansAt] using hspan⟩

def boundaryMarks (messages : List (PlanMessage CallId)) : List Bool :=
  (messages.zip ((range messages.length).map fun i =>
    decide (0 < (callOfEachResult messages).zipIdx.countP (spansAt i)))).map
    fun (m, spanned) => m.role.opensExchange && !spanned

variable (messages)

lemma boundaryMarks_length : (boundaryMarks messages).length = messages.length := by
  simp [boundaryMarks]

lemma boundaryMarks_iff (i : Nat) :
    (boundaryMarks messages)[i]? = some true ↔ Boundary messages i := by
  rw [Boundary, HoldsAt, boundaryMarks, getElem?_map, zip, getElem?_zipWith]
  cases hm : messages[i]? with
  | none => simp
  | some m =>
    have hi : i < messages.length := (List.getElem?_eq_some_iff.mp hm).1
    simp only [getElem?_map, getElem?_range hi, Option.map_some, Option.some.injEq,
      Bool.and_eq_true, Bool.not_eq_true', decide_eq_false_iff_not, exists_eq_left',
      spanned_iff, not_exists, not_and]

lemma boundaries_eq : boundaries messages = .ok (boundaryMarks messages) := by
  have hanswers : ∀ c r, (some c, r) ∈ (callOfEachResult messages).zipIdx →
      c < r ∧ r < messages.length := by
    intro c r h
    exact ((mem_calls_iff messages c r).mp h).lt
  have hzero : ∀ i < messages.length, (replicate (messages.length + 1) 0)[i]? = some 0 := by
    intro i hi
    rw [getElem?_replicate, if_pos (by omega)]
  obtain ⟨opens, closes, hcount, hopens, hcloses⟩ :=
    countSpans_foldlM (callOfEachResult messages).zipIdx (replicate (messages.length + 1) 0)
      (replicate (messages.length + 1) 0) (by
        intro c r h
        have := hanswers c r h
        simp only [length_replicate]
        omega)
  have hspanned := spannedFrom_eq (callOfEachResult messages).zipIdx
    (fun c r h => (hanswers c r h).1)
    (fun i hi => by rw [hopens, hzero i hi, Option.map_some, Nat.zero_add])
    (fun i hi => by rw [hcloses, hzero i hi, Option.map_some, Nat.zero_add])
    messages.length 0 (Nat.le_of_eq (Nat.zero_add _))
  rw [← range_eq_range', openBefore] at hspanned
  simp only [boundaries, hcount, ok_bind, hspanned, pure_eq]
  rfl

end Quecto.Conversation
