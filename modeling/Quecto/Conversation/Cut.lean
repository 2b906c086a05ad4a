/-
  Conversation/Cut.lean --- making the cut, and why it is not made twice.

  Source: `domain/conversation/services/watermark_cut.rs` and `opens_turn` of
  `turn_origin.rs`.
-/
import Quecto.Conversation.CutPlan

namespace Quecto.Conversation

open Foundation List Checked
open Foundation.Checked (assert index update slice)

/-! ## Messages -/

inductive Role where
  | system
  | user
  | assistant
  | tool
  deriving DecidableEq

inductive UserKind where
  | unmarked
  | prompt
  | archiveStub
  deriving DecidableEq

structure Message (CallId : Type) where
  role : Role
  userKind : UserKind
  toolCalls : List CallId
  toolCallId : Option CallId
  turn : Option Nat
  ordinal : Option Nat
  estimatedTokens : Nat
  deriving DecidableEq

variable {CallId : Type}

/-- Whether a message opens a turn: it is the user's, no turn produced it, and it is not the
harness's own stub. -/
def opensTurn (message : Message CallId) : Bool :=
  let openerKind :=
    match message.userKind with
    | .prompt | .unmarked => true
    | .archiveStub => false
  message.role == .user && message.turn.isNone && openerKind

/-- What the planner sees of a message's role. -/
def planRole [Inhabited CallId] (message : Message CallId) : PlanRole CallId :=
  match message.role, message.userKind with
  | .system, _ => .system
  | .user, .prompt => .prompt
  | .user, .archiveStub => .archiveStub
  | .user, .unmarked => if opensTurn message then .opener else .user
  | .assistant, _ => .assistant message.toolCalls
  | .tool, _ => .toolResult (message.toolCallId.getD default)

def planMessage [Inhabited CallId] (message : Message CallId) : PlanMessage CallId :=
  ⟨planRole message, message.estimatedTokens⟩

def planMessages [Inhabited CallId] (messages : List (Message CallId)) :
    List (PlanMessage CallId) := messages.map planMessage

/-! ## The cut -/

/-- The messages the plan's spans archive. -/
def archived (messages : List (Message CallId)) (plan : CutPlan) :
    Checked (List (Message CallId)) :=
  flatten <$> plan.archived.mapM fun span => slice messages span.start span.stop

/-- The variables of the loop of `apply_cut`: the stub until it is placed, the
messages kept so far and those that left. -/
structure Placing (CallId : Type) where
  stub : Option (Message CallId)
  messages : List (Message CallId)
  archived : List (Message CallId)

/-- One round of that loop: the stub goes in where the tail starts. -/
def place (kept : List Bool) (tailStart : Nat) (s : Placing CallId)
    (entry : Message CallId × Nat) : Checked (Placing CallId) := do
  let s :=
    if entry.2 = tailStart then { s with stub := none, messages := s.messages ++ s.stub.toList }
    else s
  if ← index kept entry.2 then pure { s with messages := s.messages ++ [entry.1] }
  else pure { s with archived := s.archived ++ [entry.1] }

/-- The stub takes the highest ordinal of the messages it replaces. -/
def numbered (stub : Message CallId) (replaced : List (Message CallId)) : Message CallId :=
  { stub with ordinal := (replaced.filterMap (·.ordinal)).max? }

def applyCut (messages : List (Message CallId)) (plan : CutPlan) (stub : Message CallId) :
    Checked (List (Message CallId) × List (Message CallId)) := do
  assert (stub.userKind == .archiveStub) "the stub is marked"
  let stub := numbered stub (← archived messages plan)
  let archivedCount := (plan.archived.map fun span => span.stop - span.start).sum
  assert (plan.kept.length + archivedCount == messages.length) "the plan is of these messages"
  let tailStart ← index plan.kept plan.stubSlot
  let kept ← plan.kept.foldlM (fun kept i => update kept i fun _ => true)
    (replicate messages.length false)
  let placed ← messages.zipIdx.foldlM (place kept tailStart) ⟨some stub, [], []⟩
  assert placed.stub.isNone "the stub went in before the tail"
  assert (placed.archived.length == archivedCount) "every planned message left"
  pure (placed.messages, placed.archived)

/-! ## What the cut leaves -/

/-- The cut context: the kept head, the stub and the whole tail. -/
def cutMessages {α : Type} (messages : List α) (pins : List Bool) (start : Nat) (stub : α) :
    List α :=
  gather messages (keptBefore pins start) ++
    stub :: gather messages (range' start (messages.length - start))

section Apply

variable {messages : List (Message CallId)} {pins : List Bool} {start : Nat}
  {flags : List Bool} {stub : Message CallId}

lemma leftBefore_succ (pins : List Bool) (i : Nat) :
    leftBefore pins (i + 1) = leftBefore pins i ++ if pins.getD i false then [] else [i] := by
  rw [leftBefore, range_succ, filter_append]
  congr 1
  rw [filter_singleton, Bool.cond_not, Bool.cond_eq_ite]

lemma zipIdx_take_succ {α : Type} {xs : List α} {i : Nat} {x : α} (h : xs[i]? = some x) :
    xs.zipIdx.take (i + 1) = xs.zipIdx.take i ++ [(x, i)] := by
  rw [take_add_one, getElem?_zipIdx, h]
  simp

/-- The loop before the tail: pinned messages stay, the others leave. -/
lemma place_head (hflags : ∀ i < start, flags[i]? = some (pins.getD i false))
    (hstart : start ≤ messages.length) (i : Nat) (hi : i ≤ start) :
    (messages.zipIdx.take i).foldlM (place flags start) ⟨some stub, [], []⟩ =
      .ok ⟨some stub, gather messages (keptBefore pins i),
        gather messages (leftBefore pins i)⟩ := by
  induction i with
  | zero => rfl
  | succ i ih =>
    have hm := getElem?_eq_getElem (show i < messages.length by omega)
    rw [zipIdx_take_succ hm, foldlM_concat (ih (by omega)), place,
      if_neg (show ¬ i = start by omega),
      index_of (hflags i (by omega)), keptBefore_succ, leftBefore_succ]
    cases hpin : pins.getD i false <;> simp [gather_singleton hm]

/-- The loop in the tail: the stub is in, and every message stays. -/
lemma place_tail (hflags : ∀ i < start, flags[i]? = some (pins.getD i false))
    (htail : ∀ i, start ≤ i → i < messages.length → flags[i]? = some true)
    (k : Nat) (hk : start + (k + 1) ≤ messages.length) :
    (messages.zipIdx.take (start + (k + 1))).foldlM (place flags start) ⟨some stub, [], []⟩ =
      .ok ⟨none, gather messages (keptBefore pins start) ++
          stub :: gather messages (range' start (k + 1)),
        gather messages (leftBefore pins start)⟩ := by
  induction k with
  | zero =>
    have hm := getElem?_eq_getElem (show start < messages.length by omega)
    rw [zipIdx_take_succ hm,
      foldlM_concat (place_head hflags (by omega) start (Nat.le_refl _)), place,
      index_of (htail start (Nat.le_refl _) (by omega))]
    simp [gather_singleton hm]
  | succ k ih =>
    have hm := getElem?_eq_getElem (show start + (k + 1) < messages.length by omega)
    have hrange : range' start (k + 1 + 1) = range' start (k + 1) ++ [start + (k + 1)] := by
      rw [range'_concat, Nat.one_mul]
    rw [show start + (k + 1 + 1) = start + (k + 1) + 1 from rfl, zipIdx_take_succ hm,
      foldlM_concat (ih (by omega)), place,
      index_of (htail (start + (k + 1)) (by omega) (by omega)), hrange]
    simp [gather_singleton hm]

lemma archived_ok {plan : CutPlan} (hspans : ∀ s ∈ plan.archived, s.Within start)
    (hstart : start ≤ messages.length) : ∃ left, archived messages plan = .ok left := by
  have hslices : plan.archived.mapM (fun span => slice messages span.start span.stop) =
      .ok (plan.archived.map fun span =>
        (messages.drop span.start).take (span.stop - span.start)) := by
    refine mapM_of ?_
    intro span hspan
    obtain ⟨hordered, hbound⟩ := hspans span hspan
    exact if_pos ⟨hordered, by omega⟩
  rw [archived, hslices]
  exact ⟨_, rfl⟩

/-- A cut by a plan of these messages runs to its end. -/
lemma applyCut_eq (input : CutInput CallId) (fill : Fill)
    (hinput : input.messages.length = messages.length) (hlen : pins.length = messages.length)
    (hstart : start < messages.length) (hstub : stub.userKind = .archiveStub) :
    ∃ left, applyCut messages (cutAt input pins start fill) stub =
      .ok (cutMessages messages pins start (numbered stub left),
        gather messages (leftBefore pins start)) := by
  obtain ⟨hindices, hspans⟩ := cutAt_archived input pins start fill
  obtain ⟨left, hleft⟩ := archived_ok hspans (Nat.le_of_lt hstart)
  have hkept : (cutAt input pins start fill).kept = keptAt input.messages pins start := rfl
  have hslot : (cutAt input pins start fill).stubSlot = (keptBefore pins start).length := rfl
  have hcount :
      ((cutAt input pins start fill).archived.map fun span => span.stop - span.start).sum =
      (leftBefore pins start).length := by
    rw [← hindices, CutPlan.archivedIndices, length_flatMap]
    simp [Span.indices]
  have hplaced : (keptAt input.messages pins start).length + (leftBefore pins start).length =
      messages.length := by
    rw [← length_append, (placed_perm pins (show start ≤ input.messages.length by omega)).length_eq,
      length_range, hinput]
  have htailStart : (keptAt input.messages pins start)[(keptBefore pins start).length]? =
      some start := by
    rw [← head?_drop, keptAt_drop, tail_head (by omega)]
  obtain ⟨flags, hrun, hflags⟩ := keptFlags input.messages pins
    (show start ≤ input.messages.length by omega)
  rw [hinput] at hrun hflags
  have hheadFlags : ∀ i < start, flags[i]? = some (pins.getD i false) := by
    intro i hi
    have hpin : pins[i]? = some (pins.getD i false) := by
      rw [getD_eq_getElem?_getD, getElem?_eq_getElem (by omega), Option.getD_some]
    rw [hflags i (by omega), Option.some.injEq, Bool.eq_iff_iff, decide_eq_true_iff, mem_keptAt,
      hpin]
    simp [hi, Nat.not_le_of_lt hi]
  have htailFlags : ∀ i, start ≤ i → i < messages.length → flags[i]? = some true := by
    intro i hle hlt
    rw [hflags i hlt, Option.some.injEq, decide_eq_true_iff]
    exact mem_keptAt.mpr (.inr ⟨hle, by omega⟩)
  obtain ⟨k, hk⟩ : ∃ k, messages.length = start + (k + 1) := ⟨messages.length - start - 1, by omega⟩
  have hloop : messages.zipIdx.foldlM (place flags start) ⟨some (numbered stub left), [], []⟩ =
      .ok ⟨none, cutMessages messages pins start (numbered stub left),
        gather messages (leftBefore pins start)⟩ := by
    have hall : messages.zipIdx = messages.zipIdx.take (start + (k + 1)) := by
      rw [← hk, take_of_length_le (by simp)]
    rw [hall, place_tail hheadFlags htailFlags k (by omega), cutMessages, hk,
      Nat.add_sub_cancel_left]
  have hleftLen : (gather messages (leftBefore pins start)).length =
      (leftBefore pins start).length := by
    refine gather_length ?_
    intro i hi
    have := (mem_leftBefore.mp hi).1
    omega
  refine ⟨left, ?_⟩
  simp only [applyCut, hstub, hleft, hkept, hslot, hcount, hplaced, index_of htailStart,
    hrun, hloop, hleftLen, beq_self_eq_true, assert_true, ok_bind,
    Option.isNone_none, pure_eq]

end Apply

/-! ## The context after a cut -/

section After

variable {messages : List (PlanMessage CallId)} {pins : List Bool} {start : Nat}
  {stub : PlanMessage CallId}

/-- Where the stub stands in the cut context. -/
abbrev stubAt (pins : List Bool) (start : Nat) : Nat := (keptBefore pins start).length

lemma keptBefore_lt (pins : List Bool) (hstart : start ≤ messages.length) :
    ∀ i ∈ keptBefore pins start, i < messages.length := by
  intro i hi
  have := (mem_keptBefore.mp hi).1
  omega

lemma cutMessages_length_head (pins : List Bool) (hstart : start ≤ messages.length) :
    (gather messages (keptBefore pins start)).length = stubAt pins start :=
  gather_length (keptBefore_lt pins hstart)

variable {k : Nat} {p : PlanMessage CallId → Bool}

section

variable (hstart : start ≤ messages.length)
include hstart

lemma cutMessages_head (hk : k < stubAt pins start) :
    (cutMessages messages pins start stub)[k]? = messages[(keptBefore pins start)[k]]? := by
  rw [cutMessages, getElem?_append_left (by rw [cutMessages_length_head pins hstart]; exact hk),
    gather_lookup (keptBefore_lt pins hstart), getElem?_eq_getElem hk, Option.bind_some]

lemma cutMessages_stub :
    (cutMessages messages pins start stub)[stubAt pins start]? = some stub := by
  rw [cutMessages, getElem?_append_right (by rw [cutMessages_length_head pins hstart]),
    cutMessages_length_head pins hstart, Nat.sub_self, getElem?_cons_zero]

lemma cutMessages_tail (k : Nat) :
    (cutMessages messages pins start stub)[stubAt pins start + 1 + k]? =
      messages[start + k]? := by
  rw [cutMessages, getElem?_append_right (by rw [cutMessages_length_head pins hstart]; omega),
    cutMessages_length_head pins hstart, gather_tail,
    show stubAt pins start + 1 + k - stubAt pins start = k + 1 by omega,
    getElem?_cons_succ, getElem?_drop]

end

lemma gather_tokens {is : List Nat} (h : ∀ i ∈ is, i < messages.length) :
    (gather messages is).map (·.tokens) = is.map (tokensAt messages) := by
  induction is with
  | nil => rfl
  | cons i is ih =>
    have hm := getElem?_eq_getElem (h i mem_cons_self)
    rw [gather_cons hm, map_cons, map_cons, tokensAt_of hm,
      ih fun j hj => h j (mem_cons_of_mem i hj)]

lemma cutMessages_tokens (hstart : start ≤ messages.length) :
    ((cutMessages messages pins start stub).map (·.tokens)).sum =
      headTokens messages pins start + (stub.tokens + tailTokens messages start) := by
  have htail : ∀ i ∈ range' start (messages.length - start), i < messages.length := by
    intro i hi
    have := mem_range'_1.mp hi
    omega
  rw [cutMessages, map_append, map_cons, gather_tokens (keptBefore_lt pins hstart),
    gather_tokens htail, sum_append, sum_cons, headTokens, tailTokens]

/-! ### Positions map back in order -/

section

variable (hstart : start ≤ messages.length)
include hstart

lemma holdsAt_head (hk : k < stubAt pins start) :
    HoldsAt p (cutMessages messages pins start stub) k ↔
      HoldsAt p messages (keptBefore pins start)[k] := by
  rw [HoldsAt, HoldsAt, cutMessages_head hstart hk]

lemma holdsAt_stub :
    HoldsAt p (cutMessages messages pins start stub) (stubAt pins start) ↔
      p stub = true := by
  simp [HoldsAt, cutMessages_stub hstart]

lemma holdsAt_tail (k : Nat) :
    HoldsAt p (cutMessages messages pins start stub) (stubAt pins start + 1 + k) ↔
      HoldsAt p messages (start + k) := by
  rw [HoldsAt, HoldsAt, cutMessages_tail hstart k]

end

lemma keptBefore_strictMono {j : Nat} (hjk : j < k) (hk : k < (keptBefore pins start).length) :
    (keptBefore pins start)[j] < (keptBefore pins start)[k] :=
  pairwise_iff_getElem.mp (pairwise_lt_range.filter _) j k _ hk hjk

lemma firstAt_head (hstart : start ≤ messages.length) (hk : k < stubAt pins start)
    (h : FirstAt p messages (keptBefore pins start)[k]) :
    FirstAt p (cutMessages messages pins start stub) k := by
  refine ⟨(holdsAt_head hstart hk).mpr h.1, fun j hj hheld => ?_⟩
  exact h.2 _ (keptBefore_strictMono hj hk) ((holdsAt_head hstart (by omega)).mp hheld)

lemma lastAt_head (hstart : start ≤ messages.length) (hstub : p stub = false)
    (hk : k < stubAt pins start) (h : LastAt p messages (keptBefore pins start)[k]) :
    LastAt p (cutMessages messages pins start stub) k := by
  refine ⟨(holdsAt_head hstart hk).mpr h.1, fun j hj hheld => ?_⟩
  have hbefore := (mem_keptBefore.mp (getElem_mem hk)).1
  -- a later position is in the head, at the stub or in the tail
  obtain hlt | heq | hgt := Nat.lt_trichotomy j (stubAt pins start)
  · exact h.2 _ (keptBefore_strictMono hj hlt) ((holdsAt_head hstart hlt).mp hheld)
  · rw [heq, holdsAt_stub hstart, hstub] at hheld
    cases hheld
  obtain ⟨n, rfl⟩ : ∃ n, j = stubAt pins start + 1 + n :=
    ⟨j - stubAt pins start - 1, by omega⟩
  exact h.2 (start + n) (by omega) ((holdsAt_tail hstart n).mp hheld)

lemma pinned_head (hpins : pinned messages = some pins) (hstub : stub.role = .archiveStub)
    (hstart : start ≤ messages.length) (hk : k < stubAt pins start) :
    Pinned (cutMessages messages pins start stub) k := by
  have hpinned := (pinned_iff hpins _).mp (mem_keptBefore.mp (getElem_mem hk)).2
  obtain h | h | h | h := hpinned
  · exact .inl ((holdsAt_head hstart hk).mpr h)
  · exact .inr (.inl (firstAt_head hstart hk h))
  · exact .inr (.inr (.inl (lastAt_head hstart (by simp [hstub, PlanRole.isPrompt]) hk h)))
  · exact .inr (.inr (.inr (lastAt_head hstart (by simp [hstub, PlanRole.opensTurn]) hk h)))

variable [LinearOrder CallId]

lemma answers_tail (hstart : start ≤ messages.length) {c r : Nat}
    (h : Answers messages (start + c) (start + r)) :
    Answers (cutMessages messages pins start stub) (stubAt pins start + 1 + c)
      (stubAt pins start + 1 + r) := by
  obtain ⟨m, call, hm, hrole, hlast⟩ := h
  obtain ⟨hlt, hmade, hlatest⟩ := lastAt_take.mp hlast
  refine ⟨m, call, by rw [cutMessages_tail hstart, hm], hrole, lastAt_take.mpr ⟨by omega, ?_, ?_⟩⟩
  · exact (holdsAt_tail hstart c).mpr hmade
  intro j hcj hjr hheld
  obtain ⟨n, rfl⟩ : ∃ n, j = stubAt pins start + 1 + n :=
    ⟨j - stubAt pins start - 1, by omega⟩
  exact hlatest (start + n) (by omega) (by omega) ((holdsAt_tail hstart n).mp hheld)

lemma boundary_tail (hboundary : Boundary messages start)
    (h : Boundary (cutMessages messages pins start stub) (stubAt pins start + 1 + k)) :
    Boundary messages (start + k) := by
  have hstart := Nat.le_of_lt hboundary.1.lt
  refine ⟨(holdsAt_tail hstart k).mp h.1, fun c r hanswers hspan => ?_⟩
  -- the first cut split no pair, so this one lies in the tail
  have hc : start ≤ c := by
    by_contra hlt
    exact hboundary.2 c r hanswers ⟨by omega, by omega⟩
  obtain ⟨c, rfl⟩ := Nat.exists_eq_add_of_le hc
  obtain ⟨r, rfl⟩ := Nat.exists_eq_add_of_le (show start ≤ r by omega)
  exact h.2 _ _ (answers_tail hstart hanswers) ⟨by omega, by omega⟩

end After

/-! ## No second cut -/

section

variable [LinearOrder CallId] {input : CutInput CallId} {plan : CutPlan} {marks : Watermark}
  {pins : List Bool} {start : Nat} {fill : Fill} {stub : PlanMessage CallId}

/-- A cut that came within the low mark leaves too little for the next to be due. -/
lemma not_due_after (h : PlannedAs input plan marks pins start .withinLow)
    (htokens : stub.tokens ≤ input.stubTokens) (trigger : CutTrigger)
    (hmarks : trigger.effectiveMarks = .ok marks) : trigger.isDue ⟨input.toolTokens,
      saturatingSum ((cutMessages input.messages pins start stub).map (·.tokens))⟩ = .ok false := by
  have hstart := Nat.le_of_lt h.tail.boundary.1.lt
  have hlow := h.tail.within rfl
  have hbelow := marks.lowBelowHigh
  have htotal : saturatingAdd input.toolTokens (saturatingSum
      ((cutMessages input.messages pins start stub).map (·.tokens))) < marks.high := by
    rw [saturatingSum_eq, cutMessages_tokens hstart]
    simp only [projected, saturatingAdd] at hlow ⊢
    omega
  rw [CutTrigger.isDue, hmarks, RequestSize.total]
  simp [Nat.not_le_of_lt htotal]

/-- A cut that kept only the newest exchange leaves no later boundary to cut at. -/
lemma no_tail_after (h : PlannedAs input plan marks pins start fill)
    (hfill : fill ≠ .withinLow) (hstub : stub.role = .archiveStub) {again : CutInput CallId}
    (hmessages : again.messages = cutMessages input.messages pins start stub)
    {plan' : CutPlan} {marks' : Watermark} {pins' : List Bool} {start' : Nat} {fill' : Fill} :
    ¬ PlannedAs again plan' marks' pins' start' fill' := by
  intro hagain
  have hstart := Nat.le_of_lt h.tail.boundary.1.lt
  have htail := hagain.tail
  rw [hmessages] at htail
  obtain ⟨i, hlt, harch, hunpinned⟩ := htail.archivable
  -- what the second cut archives lies after the stub
  have hpast : stubAt pins start < i := by
    obtain hhead | heq | hgt := Nat.lt_trichotomy i (stubAt pins start)
    · exact absurd (pinned_head h.pinned hstub hstart hhead) hunpinned
    · rw [heq, holdsAt_stub hstart] at harch
      simp [hstub, PlanRole.isStub] at harch
    · exact hgt
  obtain ⟨k, rfl⟩ : ∃ k, start' = stubAt pins start + 1 + k :=
    ⟨start' - stubAt pins start - 1, by omega⟩
  exact h.tail.newest hfill (start + k) (by omega) (boundary_tail h.tail.boundary htail.boundary)

end

variable [Inhabited CallId]

lemma planMessages_cut (messages : List (Message CallId)) (pins : List Bool) (start : Nat)
    (stub : Message CallId) : planMessages (cutMessages messages pins start stub) =
      cutMessages (planMessages messages) pins start (planMessage stub) := by
  simp only [planMessages, cutMessages, map_append, map_cons, map_gather, length_map]

lemma userKind_of_stub {stub : Message CallId}
    (h : planRole stub = .archiveStub) : stub.userKind = .archiveStub := by
  unfold planRole at h
  cases hrole : stub.role <;> cases hkind : stub.userKind <;> simp_all
  split_ifs at h

/-- A cut context is not cut again, whatever the baseline and the next stub. -/
theorem cut_not_repeated [LinearOrder CallId] {messages : List (Message CallId)}
    {toolTokens stubTokens : Nat} {trigger : CutTrigger} {plan : CutPlan} {stub : Message CallId}
    (hplan : planCut ⟨planMessages messages, toolTokens, stubTokens, trigger⟩ = .ok (.ok plan))
    (hstub : planRole stub = .archiveStub) (htokens : stub.estimatedTokens ≤ stubTokens) :
    ∃ messages' left, applyCut messages plan stub = .ok (messages', left) ∧
      ∀ (baseline : Option Nat) (nextStubTokens : Nat), ∃ reason,
        planCut ⟨planMessages messages', toolTokens, nextStubTokens,
          { trigger with afterLastCut := baseline }⟩ = .ok (.error reason) := by
  obtain ⟨result, hresult, hplanned⟩ :=
    planCut_ok ⟨planMessages messages, toolTokens, stubTokens, trigger⟩
  rw [hplan, Except.ok.injEq] at hresult
  obtain ⟨marks, pins, start, fill, hmade⟩ := hplanned plan hresult.symm
  have hlen : (planMessages messages).length = messages.length := length_map _
  have hpinsLen : pins.length = messages.length := (pinned_length hmade.pinned).trans hlen
  have hstart : start < messages.length := by
    rw [← hlen]
    exact hmade.tail.boundary.1.lt
  obtain ⟨left, hcut⟩ := applyCut_eq ⟨planMessages messages, toolTokens, stubTokens, trigger⟩ fill
    hlen hpinsLen hstart (userKind_of_stub hstub)
  refine ⟨_, _, by rw [hmade.made]; exact hcut, ?_⟩
  intro baseline nextStubTokens
  have hstubRole : (planMessage (numbered stub left)).role = .archiveStub := hstub
  rw [planMessages_cut]
  obtain ⟨again, hagain, hspec⟩ := planCut_ok
    ⟨cutMessages (planMessages messages) pins start (planMessage (numbered stub left)),
      toolTokens, nextStubTokens, { trigger with afterLastCut := baseline }⟩
  cases again with
  | error reason => exact ⟨reason, hagain⟩
  | ok plan' =>
    by_cases hfill : fill = .withinLow
    · subst hfill
      have hdue := not_due_after hmade
        (show (planMessage (numbered stub left)).tokens ≤ stubTokens from htokens)
        { trigger with afterLastCut := baseline } hmade.inForce
      refine ⟨.notDue, ?_⟩
      rw [planCut, hdue]
      rfl
    · obtain ⟨marks', pins', start', fill', hmade'⟩ := hspec plan' rfl
      exact absurd hmade' (no_tail_after hmade hfill hstubRole rfl)

/-! A conversation over its marks, its plan, and the context the plan leaves. -/

def sampleTrigger : CutTrigger where
  marks :=
    { high := 100, low := 50, word := by decide, lowPositive := by decide
      lowBelowHigh := by decide, gap := by decide }
  ceiling := 1000
  afterLastCut := none

def sampleMessage (role : Role) (kind : UserKind) (tokens : Nat) : Message Nat :=
  { role := role, userKind := kind, toolCalls := [], toolCallId := none, turn := none
    ordinal := none, estimatedTokens := tokens }

def sampleMessages : List (Message Nat) :=
  [sampleMessage .user .prompt 10, { sampleMessage .assistant .unmarked 30 with toolCalls := [1] },
    { sampleMessage .tool .unmarked 20 with toolCallId := some 1 },
    sampleMessage .assistant .unmarked 45]

def samplePlan : CutPlan where
  kept := [0, 3]
  archived := [⟨1, 3⟩]
  stubSlot := 1
  projectedTokens := 65
  projectedMessageTokens := 60
  fill := .newestExchangeOverLow

theorem cut_not_repeated_sample :
    ∃ messages' left, applyCut sampleMessages samplePlan (sampleMessage .user .archiveStub 4) =
        .ok (messages', left) ∧ ∀ (baseline : Option Nat) (nextStubTokens : Nat), ∃ reason,
        planCut ⟨planMessages messages', 5, nextStubTokens,
          { sampleTrigger with afterLastCut := baseline }⟩ = .ok (.error reason) := by
  have hplan :
      planCut ⟨planMessages sampleMessages, 5, 5, sampleTrigger⟩ = .ok (.ok samplePlan) := by
    decide +kernel
  exact cut_not_repeated hplan rfl (by decide)

end Quecto.Conversation
