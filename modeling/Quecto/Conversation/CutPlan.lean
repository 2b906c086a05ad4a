/-
  Conversation/CutPlan.lean --- every plan passes its own assertions.
-/
import Quecto.Conversation.TailStart

namespace Quecto.Conversation

open Foundation List Checked CutPlan PlanRole

variable {CallId : Type}

/-! ## The plan without its loops -/

def keptAt (messages : List (PlanMessage CallId)) (pins : List Bool) (start : Nat) : List Nat :=
  keptBefore pins start ++ range' start (messages.length - start)

def leftBefore (pins : List Bool) (start : Nat) : List Nat :=
  (range start).filter fun i => !pins.getD i false

variable {messages : List (PlanMessage CallId)} {pins : List Bool} {start i n : Nat}
  {spans : List Span}

lemma mem_keptBefore : i ∈ keptBefore pins start ↔ i < start ∧ pins[i]? = some true := by
  simp [keptBefore, Option.getD_eq_iff]

lemma mem_leftBefore : i ∈ leftBefore pins start ↔ i < start ∧ ¬ pins[i]? = some true := by
  rw [leftBefore, mem_filter, getD_eq_getElem?_getD]
  cases pins[i]? with
  | none => simp
  | some pin => cases pin <;> simp

lemma mem_keptAt : i ∈ keptAt messages pins start ↔
      (i < start ∧ pins[i]? = some true) ∨ (start ≤ i ∧ i < messages.length) := by
  rw [keptAt, mem_append, mem_keptBefore, mem_range'_1]
  refine or_congr_right ?_
  omega

def Span.Within (n : Nat) (s : Span) : Prop := s.start ≤ s.stop ∧ s.stop ≤ n

lemma extendSpans_indices (h : ∀ s ∈ spans, s.Within n) (hi : i < n) :
    (extendSpans spans i).flatMap Span.indices = spans.flatMap Span.indices ++ [i] ∧
      ∀ s ∈ extendSpans spans i, s.Within n := by
  have hnew : (spans ++ [(⟨i, i + 1⟩ : Span)]).flatMap Span.indices =
        spans.flatMap Span.indices ++ [i] ∧
      ∀ s ∈ spans ++ [(⟨i, i + 1⟩ : Span)], s.Within n := by
    refine ⟨by simp [Span.indices], ?_⟩
    intro s hs
    obtain hs | hs := mem_append.mp hs
    · exact h s hs
    · rw [mem_singleton.mp hs]
      exact ⟨Nat.le_succ i, hi⟩
  unfold extendSpans
  cases hlast : spans.getLast? with
  | none => exact hnew
  | some span =>
    obtain ⟨front, rfl⟩ : ∃ front, spans = front ++ [span] :=
      ⟨_, (dropLast_append_getLast? span hlast).symm⟩
    have hspan := (h span (by simp)).1
    by_cases hstop : span.stop = i
    · simp only [if_pos hstop, dropLast_concat]
      have hgrow : range' span.start (i + 1 - span.start) =
          range' span.start (span.stop - span.start) ++ [i] := by
        rw [show i + 1 - span.start = span.stop - span.start + 1 by omega, range'_concat,
          show span.start + 1 * (span.stop - span.start) = i by omega]
      refine ⟨by simp [Span.indices, hgrow], ?_⟩
      intro s hs
      obtain hs | hs := mem_append.mp hs
      · exact h s (mem_append_left _ hs)
      · rw [mem_singleton.mp hs]
        exact ⟨show span.start ≤ i + 1 by omega, hi⟩
    · simp only [if_neg hstop]
      exact hnew

lemma foldl_extendSpans (indices : List Nat) (hlt : ∀ i ∈ indices, i < n)
    (h : ∀ s ∈ spans, s.Within n) : (indices.foldl extendSpans spans).flatMap Span.indices =
        spans.flatMap Span.indices ++ indices ∧
      ∀ s ∈ indices.foldl extendSpans spans, s.Within n := by
  induction indices generalizing spans with
  | nil => exact ⟨by simp, h⟩
  | cons i indices ih =>
    obtain ⟨hindices, hwithin⟩ := extendSpans_indices h (hlt i mem_cons_self)
    obtain ⟨hall, hspans⟩ := ih (fun j hj => hlt j (mem_cons_of_mem i hj)) hwithin
    rw [foldl_cons]
    refine ⟨?_, hspans⟩
    rw [hall, hindices, append_assoc, singleton_append]

def cutAt (input : CutInput CallId) (pins : List Bool) (start : Nat) (fill : Fill) : CutPlan :=
  let tokens := headTokens input.messages pins start + tailTokens input.messages start
  { kept := keptAt input.messages pins start
    archived := (leftBefore pins start).foldl extendSpans []
    stubSlot := (keptBefore pins start).length
    projectedTokens := saturatingAdd input.toolTokens (saturatingAdd input.stubTokens tokens)
    projectedMessageTokens := saturatingAdd input.stubTokens tokens
    fill := fill }

/-- The tokens a cut leaves in place whatever it keeps. -/
abbrev fixedTokens (input : CutInput CallId) : Nat :=
  saturatingAdd input.toolTokens input.stubTokens

variable (input : CutInput CallId)

lemma cutAt_archived (pins : List Bool) (start : Nat) (fill : Fill) :
    (cutAt input pins start fill).archivedIndices = leftBefore pins start ∧
      ∀ s ∈ (cutAt input pins start fill).archived, s.Within start :=
  foldl_extendSpans (leftBefore pins start) (fun _ hi => (mem_leftBefore.mp hi).1) (by simp)

lemma cutAt_archivedIndices (pins : List Bool) (start : Nat) (fill : Fill) :
    (cutAt input pins start fill).archivedIndices = leftBefore pins start :=
  (cutAt_archived input pins start fill).1

section

variable (hlen : pins.length = messages.length)
include hlen

lemma keeps_eq (hi : i < messages.length) :
    keeps pins start i = .ok (decide (start ≤ i) || pins.getD i false) := by
  unfold keeps
  split_ifs with h
  · simp [h]
  have hpin : pins[i]? = some (pins.getD i false) := by
    rw [getD_eq_getElem?_getD, getElem?_eq_getElem (by omega), Option.getD_some]
  rw [index_of hpin]
  simp [h]

lemma kept_eq (hstart : start ≤ messages.length) :
    (range messages.length).filterM (keeps pins start) = .ok (keptAt messages pins start) := by
  rw [filterM_of fun i hi => keeps_eq hlen (mem_range.mp hi)]
  congr 1
  rw [range_eq_range', ← Nat.add_sub_cancel' hstart, ← range'_append_1,
    filter_append, Nat.zero_add, keptAt, keptBefore, range_eq_range']
  congr 1
  · apply filter_congr
    intro i hi
    have hlt : ¬ start ≤ i := by
      have := (mem_range'_1.mp hi).2
      omega
    simp [hlt]
  · apply filter_eq_self.mpr
    intro i hi
    simp [(mem_range'_1.mp hi).1]

lemma left_eq (hstart : start ≤ messages.length) :
    (range start).filterM (fun i => not <$> keeps pins start i) = .ok (leftBefore pins start) := by
  refine filterM_of ?_
  intro i hi
  have hlt := mem_range.mp hi
  rw [keeps_eq hlen (by omega)]
  simp [hlt]

end

lemma tokensOf_eq {kept : List Nat} (h : ∀ i ∈ kept, i < messages.length) :
    tokensOf messages kept = .ok (kept.map (tokensAt messages)) := by
  refine mapM_of ?_
  intro i hi
  have hm := getElem?_eq_getElem (h i hi)
  rw [index_of hm, map_ok, tokensAt_of hm]

lemma keptAt_lt (pins : List Bool) (hstart : start ≤ messages.length) :
    ∀ i ∈ keptAt messages pins start, i < messages.length := by
  intro i hi
  have := mem_keptAt.mp hi
  omega

lemma keptAt_tokens : saturatingSum ((keptAt messages pins start).map (tokensAt messages)) =
      min (headTokens messages pins start + tailTokens messages start) u64Max := by
  rw [saturatingSum_eq, keptAt, map_append, sum_append, headTokens, tailTokens]

lemma stubSlot_eq : ((keptAt messages pins start).takeWhile (· < start)).length =
      (keptBefore pins start).length := by
  have hhead : ∀ i ∈ keptBefore pins start, decide (i < start) = true := by
    intro i hi
    simpa using (mem_keptBefore.mp hi).1
  rw [keptAt, takeWhile_append_of_pos hhead]
  cases messages.length - start with
  | zero => simp
  | succ k => simp [range'_succ]

/-! ## Its assertions -/

lemma setFlags_eq (kept : List Nat) (flags : List Bool) (h : ∀ i ∈ kept, i < flags.length) :
    ∃ flags', kept.foldlM (fun flags i => update flags i fun _ => true) flags =
        .ok flags' ∧ ∀ i, flags'[i]? = flags[i]?.map (· || decide (i ∈ kept)) := by
  induction kept generalizing flags with
  | nil => exact ⟨flags, rfl, by simp⟩
  | cons k kept ih =>
    have hk := h k mem_cons_self
    obtain ⟨flags', hrun, hflags⟩ := ih (flags.modify k fun _ => true) (by
      intro i hi
      rw [length_modify]
      exact h i (mem_cons_of_mem k hi))
    refine ⟨flags', ?_, ?_⟩
    · rw [foldlM_cons, update_of _ hk, ok_bind, hrun]
    intro i
    rw [hflags, getElem?_modify, Option.map_eq_map, Option.map_map]
    congr 1
    funext flag
    by_cases hik : k = i
    · simp [hik]
    · have hne : i ≠ k := fun h => hik h.symm
      simp [hik, hne]

lemma keptFlags (messages : List (PlanMessage CallId)) (pins : List Bool)
    (hstart : start ≤ messages.length) :
    ∃ flags, (keptAt messages pins start).foldlM
          (fun flags i => update flags i fun _ => true)
          (replicate messages.length false) = .ok flags ∧
      ∀ i < messages.length, flags[i]? = some (decide (i ∈ keptAt messages pins start)) := by
  obtain ⟨flags, hrun, hflags⟩ := setFlags_eq (keptAt messages pins start)
    (replicate messages.length false) (by simpa using keptAt_lt pins hstart)
  refine ⟨flags, hrun, ?_⟩
  intro i hi
  rw [hflags, getElem?_replicate, if_pos hi, Option.map_some, Bool.false_or]

lemma placed_perm (pins : List Bool) (hstart : start ≤ messages.length) :
    (keptAt messages pins start ++ leftBefore pins start).Perm (range messages.length) := by
  have hall : range messages.length = range start ++ range' start (messages.length - start) := by
    rw [range_eq_range', range_eq_range', ← Nat.add_sub_cancel' hstart,
      ← range'_append_1, Nat.zero_add, Nat.add_sub_cancel' hstart]
  rw [hall]
  have hswap : (keptBefore pins start ++ range' start (messages.length - start) ++
      leftBefore pins start).Perm (keptBefore pins start ++ leftBefore pins start ++
        range' start (messages.length - start)) := by
    rw [append_assoc, append_assoc]
    exact perm_append_comm.append_left _
  exact hswap.trans ((filter_append_perm _ _).append_right _)

lemma keptAt_pairwise (hlen : pins.length = messages.length) (hstart : start ≤ messages.length) :
    (keptAt messages pins start).Pairwise (· < ·) := by
  have h := kept_eq hlen hstart
  rw [filterM_of fun i hi => keeps_eq hlen (mem_range.mp hi), Except.ok.injEq] at h
  rw [← h]
  exact pairwise_lt_range.filter _

lemma zip_tail_lt {xs : List Nat} (h : xs.Pairwise (· < ·)) :
    (xs.zip xs.tail).all (fun (a, b) => decide (a < b)) = true := by
  induction xs with
  | nil => rfl
  | cons x xs ih =>
    cases xs with
    | nil => rfl
    | cons y ys =>
      obtain ⟨hx, hrest⟩ := pairwise_cons.mp h
      have := ih hrest
      simp only [tail_cons] at this ⊢
      rw [zip_cons_cons, all_cons, this]
      simp [hx y mem_cons_self]

lemma keptAt_drop : (keptAt messages pins start).drop (keptBefore pins start).length =
      range' start (messages.length - start) := by
  rw [keptAt, drop_left]

lemma keptAt_take :
    (keptAt messages pins start).take (keptBefore pins start).length = keptBefore pins start := by
  rw [keptAt, take_left]

lemma tail_slice : sliceFrom (keptAt messages pins start) (keptBefore pins start).length =
      .ok (range' start (messages.length - start)) := by
  rw [sliceFrom_of (by simp [keptAt]), keptAt_drop]

lemma head_slice : sliceTo (keptAt messages pins start) (keptBefore pins start).length =
      .ok (keptBefore pins start) := by
  rw [sliceTo_of (by simp [keptAt]), keptAt_take]

lemma tail_head (hstart : start < messages.length) :
    (range' start (messages.length - start)).head? = some start := by
  obtain ⟨k, hk⟩ : ∃ k, messages.length - start = k + 1 := ⟨messages.length - start - 1, by omega⟩
  rw [hk, range'_succ, head?_cons]

lemma head_pinned : (keptBefore pins start).allM (index pins) = .ok true := by
  rw [allM_of (q := fun _ => true)]
  · simp
  · intro i hi
    exact index_of (mem_keptBefore.mp hi).2

lemma not_kept_of_left (messages : List (PlanMessage CallId)) (hi : i ∈ leftBefore pins start) :
    i < start ∧ i ∉ keptAt messages pins start := by
  obtain ⟨hi, hpin⟩ := mem_leftBefore.mp hi
  refine ⟨hi, fun h => ?_⟩
  obtain ⟨-, hp⟩ | ⟨hle, -⟩ := mem_keptAt.mp h
  · exact hpin hp
  · omega

lemma mem_keptAt_of_pinned (hpins : pinned messages = some pins) (h : Pinned messages i) :
    i ∈ keptAt messages pins start := by
  obtain ⟨m, hm, -⟩ := h.role
  have hlt := (List.getElem?_eq_some_iff.mp hm).1
  rw [mem_keptAt]
  by_cases hstart : start ≤ i
  · exact .inr ⟨hstart, hlt⟩
  · exact .inl ⟨by omega, (pinned_iff hpins i).mpr h⟩

lemma real_eq {indices : List Nat} (h : ∀ i ∈ indices, i < messages.length) :
    ∀ i ∈ indices, (do return !(← index messages i).role.isStub : Checked Bool) =
      .ok ((messages[i]?.map (!·.role.isStub)).getD false) := by
  intro i hi
  have hm := getElem?_eq_getElem (h i hi)
  rw [index_of hm, hm]
  rfl

section

variable {flags : List Bool}
  (hflags : ∀ i < messages.length, flags[i]? = some (decide (i ∈ keptAt messages pins start)))

include hflags

lemma left_disjoint (hstart : start ≤ messages.length) :
    (leftBefore pins start).allM (fun i => not <$> index flags i) = .ok true := by
  rw [allM_of (q := fun _ => true)]
  · simp
  intro i hi
  obtain ⟨hlt, hnot⟩ := not_kept_of_left messages hi
  rw [index_of (hflags i (by omega))]
  simp [hnot]

lemma pins_kept (hlen : pins.length = messages.length) :
    (pins.zip flags).all (fun (p, k) => k || !p) = true := by
  rw [all_eq_true]
  intro entry hentry
  obtain ⟨i, hi⟩ := mem_iff_getElem?.mp hentry
  obtain ⟨hpin, hflag⟩ := getElem?_zip_eq_some.mp hi
  have hi : i < messages.length := by
    rw [← hlen]
    exact (List.getElem?_eq_some_iff.mp hpin).1
  rw [hflags i hi, Option.some.injEq] at hflag
  cases hp : entry.1 with
  | false => simp [hp]
  | true =>
    rw [hp] at hpin
    have hmem : i ∈ keptAt messages pins start := by
      rw [mem_keptAt]
      by_cases h : start ≤ i
      · exact .inr ⟨h, hi⟩
      · exact .inl ⟨by omega, hpin⟩
    simp [← hflag, hmem]

end

lemma not_kept_before (hpins : pinned messages = some pins) (hlt : i < start)
    {m : PlanMessage CallId} (hm : messages[i]? = some m) (hsystem : m.role.isSystem = false)
    (huser : m.role.isUser = false) : i ∉ keptAt messages pins start := by
  intro hi
  obtain ⟨-, hpin⟩ | ⟨hle, -⟩ := mem_keptAt.mp hi
  · obtain ⟨m', hm', hrole⟩ := ((pinned_iff hpins i).mp hpin).role
    rw [hm, Option.some.injEq] at hm'
    subst hm'
    simp [hsystem, huser] at hrole
  · omega

section

variable [LinearOrder CallId] {fixed low : Nat} {fill : Fill} (hpins : pinned messages = some pins)
  (htail : TailSpec messages pins fixed low start fill)
include hpins htail

lemma kept_real : ∀ i ∈ keptAt messages pins start, ¬ HoldsAt (·.role.isStub) messages i := by
  intro i hi
  obtain ⟨-, hpin⟩ | ⟨hle, -⟩ := mem_keptAt.mp hi
  · intro hstub
    obtain ⟨m, hm, hrole⟩ := ((pinned_iff hpins i).mp hpin).role
    obtain ⟨m', hm', hstub⟩ := hstub
    cases hr : m.role <;> simp_all [isSystem, isUser, isStub]
  · exact htail.pastStubs i hle

lemma kept_unsplit {c r : Nat} (h : Answers messages c r) :
    c ∈ keptAt messages pins start ↔ r ∈ keptAt messages pins start := by
  obtain ⟨hcr, hr⟩ := h.lt
  by_cases hstart : start ≤ c
  · exact iff_of_true (mem_keptAt.mpr (.inr ⟨hstart, by omega⟩))
      (mem_keptAt.mpr (.inr ⟨by omega, hr⟩))
  have hbefore : r < start := by
    by_contra hle
    exact htail.boundary.2 c r h ⟨by omega, by omega⟩
  obtain ⟨m, call, hm, hrole, ⟨⟨m', hm', hmakes⟩, -⟩⟩ := h
  rw [getElem?_take_of_lt hcr] at hm'
  refine iff_of_false (not_kept_before hpins (by omega) hm' ?_ ?_)
    (not_kept_before hpins hbefore hm (by simp [hrole, isSystem])
      (by simp [hrole, isUser]))
  · cases hr' : m'.role <;> simp_all [makes, isSystem]
  · cases hr' : m'.role <;> simp_all [makes, isUser]

lemma left_real : ∃ i ∈ leftBefore pins start, HoldsAt (fun m => !m.role.isStub) messages i := by
  obtain ⟨i, hlt, ⟨m, hm, hrole⟩, hpin⟩ := htail.archivable
  refine ⟨i, mem_leftBefore.mpr ⟨hlt, ?_⟩, ⟨m, hm, ?_⟩⟩
  · rw [pinned_iff hpins]
    exact hpin
  · simp only [Bool.and_eq_true] at hrole
    exact hrole.2

lemma kept_real_check (hstart : start ≤ messages.length) :
    (keptAt messages pins start).allM (fun i => do
      return !(← index messages i).role.isStub) = .ok true := by
  rw [allM_of (real_eq (keptAt_lt pins hstart)), Except.ok.injEq, all_eq_true]
  intro i hi
  have hm := getElem?_eq_getElem (keptAt_lt pins hstart i hi)
  have hnot := kept_real hpins htail i hi
  rw [HoldsAt, hm] at hnot
  rw [hm]
  simpa using hnot

lemma left_real_check (hstart : start ≤ messages.length) : (leftBefore pins start).anyM (fun i => do
      return !(← index messages i).role.isStub) = .ok true := by
  have hlt : ∀ i ∈ leftBefore pins start, i < messages.length := by
    intro i hi
    have := (mem_leftBefore.mp hi).1
    omega
  rw [anyM_of (real_eq hlt), Except.ok.injEq, any_eq_true]
  obtain ⟨i, hi, m, hm, hnot⟩ := left_real hpins htail
  exact ⟨i, hi, by simpa [hm] using hnot⟩

lemma unsplit_check {flags : List Bool} (hflags : ∀ i < messages.length,
      flags[i]? = some (decide (i ∈ keptAt messages pins start))) :
    forM (callOfEachResult messages).zipIdx (assertUnsplit flags) = .ok () := by
  refine forM_of ?_
  intro entry hentry
  obtain ⟨call, r⟩ := entry
  cases call with
  | none => rfl
  | some c =>
    have hanswers := (mem_calls_iff messages c r).mp hentry
    obtain ⟨hcr, hr⟩ := hanswers.lt
    have hiff := kept_unsplit hpins htail hanswers
    simp only [assertUnsplit, index_of (hflags c (by omega)), index_of (hflags r hr), ok_bind]
    exact assert_of _ (by simp [hiff])

end

section

variable (pins : List Bool) (start : Nat) (fill : Fill)

lemma cutAt_projectedTokens : (cutAt input pins start fill).projectedTokens =
      saturatingAdd (fixedTokens input)
        (headTokens input.messages pins start + tailTokens input.messages start) := by
  simp only [cutAt, saturatingAdd]
  omega

lemma cutAt_projected : (cutAt input pins start fill).projectedTokens =
      projected input.messages pins (fixedTokens input) start := by
  rw [cutAt_projectedTokens, projected, saturatingAdd, Nat.add_assoc]

lemma projection_check : ((cutAt input pins start fill).projectedTokens ==
      saturatingAdd (fixedTokens input)
        (saturatingSum ((keptAt input.messages pins start).map (tokensAt input.messages)))) =
      true := by
  rw [keptAt_tokens, saturatingAdd_min_right, cutAt_projectedTokens]
  exact beq_self_eq_true _

end

/-! ## The planner returns -/

section Total

variable [LinearOrder CallId] {input : CutInput CallId} {pins : List Bool} {start low : Nat}
  {fill : Fill}

lemma assertFill_ok (hstart : start ≤ input.messages.length)
    (htail : TailSpec input.messages pins (fixedTokens input) low start fill) :
    (cutAt input pins start fill).assertFill input.messages (fixedTokens input) low = .ok () := by
  have hslice : sliceTo (cutAt input pins start fill).kept
      (cutAt input pins start fill).stubSlot = .ok (keptBefore pins start) := head_slice
  have htokens : tokensOf input.messages (keptBefore pins start) = .ok _ :=
    tokensOf_eq fun i hi => by
      have := (mem_keptBefore.mp hi).1
      omega
  rw [assertFill, hslice, ok_bind, htokens, ok_bind, cutAt_projected,
    saturatingSum_eq, ← headTokens]
  apply assert_of
  have hfill : (cutAt input pins start fill).fill = fill := rfl
  rw [hfill]
  cases fill with
  | withinLow => simpa using htail.within rfl
  | newestExchangeOverLow =>
    have hover := htail.overLow (by simp)
    have hhead := htail.headWithin rfl
    simp [hover, hhead]
  | headOverLow =>
    have hover := htail.overLow (by simp)
    have hhead := htail.headOver rfl
    simp [hover, hhead]

section

variable (hpins : pinned input.messages = some pins)
  (htail : TailSpec input.messages pins (fixedTokens input) low start fill)
include hpins htail

lemma assertInvariants_ok : (cutAt input pins start fill).assertInvariants input.messages pins
      (fixedTokens input) low = .ok () := by
  have hlen := pinned_length hpins
  have hlt : start < input.messages.length := htail.boundary.1.lt
  have hstart := Nat.le_of_lt hlt
  have hkept : (cutAt input pins start fill).kept = keptAt input.messages pins start := rfl
  have hslot : (cutAt input pins start fill).stubSlot = (keptBefore pins start).length := rfl
  obtain ⟨flags, hrun, hflags⟩ := keptFlags input.messages pins hstart
  obtain ⟨m, hm, hopens⟩ := htail.boundary.1
  have hplaced : (keptAt input.messages pins start).length + (leftBefore pins start).length =
      input.messages.length := by
    rw [← length_append, (placed_perm pins hstart).length_eq, length_range]
  -- the conditions, in the order the source checks them
  simp only [assertInvariants, hkept, hslot, cutAt_archivedIndices, hrun,
    left_disjoint hflags hstart, hplaced, zip_tail_lt (keptAt_pairwise hlen hstart),
    pins_kept hflags hlen, tail_slice, tail_head hlt, head_slice, head_pinned, index_of hm,
    hopens, kept_real_check hpins htail hstart, left_real_check hpins htail hstart,
    unsplit_check hpins htail hflags, tokensOf_eq (keptAt_lt pins hstart), projection_check,
    assertFill_ok hstart htail, ok_bind, assert_true, expect_some,
    beq_self_eq_true]

lemma new_eq : new input pins start fill low = .ok (cutAt input pins start fill) := by
  have hlen := pinned_length hpins
  have hstart := Nat.le_of_lt htail.boundary.1.lt
  have hassert := assertInvariants_ok hpins htail
  simp only [new, kept_eq hlen hstart, left_eq hlen hstart,
    tokensOf_eq (keptAt_lt pins hstart), keptAt_tokens, saturatingAdd_min_right, stubSlot_eq,
    ok_bind, pure_eq]
  rw [cutAt] at hassert
  rw [hassert]
  rfl

end

structure PlannedAs (input : CutInput CallId) (plan : CutPlan) (marks : Watermark)
    (pins : List Bool) (start : Nat) (fill : Fill) : Prop where
  inForce : input.trigger.effectiveMarks = .ok marks
  pinned : pinned input.messages = some pins
  tail : TailSpec input.messages pins (fixedTokens input) marks.low start fill
  made : plan = cutAt input pins start fill

lemma minSaving_ok (t : CutTrigger) (total : Nat) : ∃ needed, t.minSaving total = .ok needed := by
  obtain ⟨marks, hmarks⟩ := t.effectiveMarks_ok
  unfold CutTrigger.minSaving
  split_ifs
  · exact ⟨_, rfl⟩
  · exact ⟨_, by rw [hmarks]; rfl⟩

def requestSize (input : CutInput CallId) : RequestSize :=
  ⟨input.toolTokens, saturatingSum (input.messages.map (·.tokens))⟩

lemma planCut_cases (input : CutInput CallId) :
    ∃ marks result, input.trigger.effectiveMarks = .ok marks ∧ planCut input = .ok result ∧
      ((result = .error .notDue ∧ input.trigger.isDue (requestSize input) = .ok false) ∨
      (input.trigger.isDue (requestSize input) = .ok true ∧
        ((result = .error .noUserMessage ∧ pinned input.messages = none) ∨
        ∃ pins, pinned input.messages = some pins ∧ ((∃ reason, result = .error reason ∧
            tailStart input.messages pins (fixedTokens input) marks.low = .ok (.error reason)) ∨
          ∃ start fill,
            tailStart input.messages pins (fixedTokens input) marks.low = .ok (.ok (start, fill)) ∧
            TailSpec input.messages pins (fixedTokens input) marks.low start fill ∧
            (result = .ok (cutAt input pins start fill) ∨
              ∃ saving needed, result = .error (.savingTooSmall saving needed)))))) := by
  obtain ⟨marks, hmarks⟩ := input.trigger.effectiveMarks_ok
  obtain ⟨due, hdue⟩ : ∃ due, input.trigger.isDue (requestSize input) = .ok due := by
    rw [CutTrigger.isDue, hmarks]
    exact ⟨_, rfl⟩
  have hmeasured : input.trigger.isDue
      ⟨input.toolTokens, saturatingSum (input.messages.map (·.tokens))⟩ = .ok due := hdue
  rw [planCut]
  simp only [hmeasured, hmarks, ok_bind, pure_eq]
  cases due with
  | false => exact ⟨marks, _, rfl, rfl, .inl ⟨rfl, hdue⟩⟩
  | true =>
    cases hpins : pinned input.messages with
    | none => exact ⟨marks, _, rfl, rfl, .inr ⟨hdue, .inl ⟨rfl, rfl⟩⟩⟩
    | some pins =>
      obtain ⟨found, htail, hspec⟩ := tailStart_spec hpins (fixedTokens input) marks.low
      simp only [htail, ok_bind]
      cases found with
      | error reason =>
        exact ⟨marks, _, rfl, rfl, .inr ⟨hdue, .inr ⟨pins, rfl, .inl ⟨reason, rfl, htail⟩⟩⟩⟩
      | ok found =>
        obtain ⟨start, fill⟩ := found
        have hfound := hspec start fill rfl
        obtain ⟨needed, hneeded⟩ := minSaving_ok input.trigger
          (RequestSize.total ⟨input.toolTokens, saturatingSum (input.messages.map (·.tokens))⟩)
        simp only [new_eq hpins hfound, hneeded, ok_bind]
        refine ⟨marks, _, rfl, rfl,
          .inr ⟨hdue, .inr ⟨pins, rfl, .inr ⟨start, fill, htail, hfound, ?_⟩⟩⟩⟩
        split_ifs
        · exact .inl rfl
        · exact .inr ⟨_, _, rfl⟩

lemma planCut_ok (input : CutInput CallId) : ∃ result, planCut input = .ok result ∧
      ∀ plan, result = .ok plan →
        ∃ marks pins start fill, PlannedAs input plan marks pins start fill := by
  obtain ⟨marks, result, hmarks, hresult, hcases⟩ := planCut_cases input
  refine ⟨result, hresult, ?_⟩
  intro plan hplan
  obtain ⟨rfl, -⟩ | ⟨-, ⟨rfl, -⟩ | ⟨pins, hpins, ⟨reason, rfl, -⟩ |
    ⟨start, fill, -, hspec, rfl | ⟨saving, needed, rfl⟩⟩⟩⟩ := hcases
  · cases hplan
  · cases hplan
  · cases hplan
  · exact ⟨marks, pins, start, fill, hmarks, hpins, hspec, (Except.ok.inj hplan).symm⟩
  · cases hplan

structure KeepsExchanges (messages : List (PlanMessage CallId)) (plan : CutPlan) : Prop where
  partition : (plan.kept ++ plan.archivedIndices).Perm (range messages.length)
  system : ∀ i, HoldsAt (·.role.isSystem) messages i → i ∈ plan.kept
  firstUser : ∀ i, FirstAt (·.role.isUser) messages i → i ∈ plan.kept
  latestPrompt : ∀ i, LastAt (·.role.isPrompt) messages i → i ∈ plan.kept
  latestOpener : ∀ i, LastAt (·.role.opensTurn) messages i → i ∈ plan.kept
  noStub : ∀ i ∈ plan.kept, ¬ HoldsAt (·.role.isStub) messages i
  archives : ∃ i ∈ plan.archivedIndices, HoldsAt (fun m => !m.role.isStub) messages i
  unsplit : ∀ c r, Answers messages c r → (c ∈ plan.kept ↔ r ∈ plan.kept)
  tail : ∃ b head, Boundary messages b ∧ plan.kept = head ++ range' b (messages.length - b) ∧
    head.Pairwise (· < ·) ∧ ∀ i, i ∈ head ↔ i < b ∧ Pinned messages i

/-- The planner never panics, and what it plans splits nothing. -/
theorem planCut_keeps_exchanges (input : CutInput CallId) : ∃ result, planCut input = .ok result ∧
      ∀ plan, result = .ok plan → KeepsExchanges input.messages plan := by
  obtain ⟨result, hresult, hplanned⟩ := planCut_ok input
  refine ⟨result, hresult, ?_⟩
  intro plan hplan
  obtain ⟨marks, pins, start, fill, -, hpins, htail, rfl⟩ := hplanned plan hplan
  have hstart := Nat.le_of_lt htail.boundary.1.lt
  have hpinned : ∀ i, Pinned input.messages i → i ∈ keptAt input.messages pins start :=
    fun i h => mem_keptAt_of_pinned hpins h
  constructor
  case partition =>
    rw [cutAt_archivedIndices]
    exact placed_perm pins hstart
  case system => exact fun i h => hpinned i (.inl h)
  case firstUser => exact fun i h => hpinned i (.inr (.inl h))
  case latestPrompt => exact fun i h => hpinned i (.inr (.inr (.inl h)))
  case latestOpener => exact fun i h => hpinned i (.inr (.inr (.inr h)))
  case noStub => exact kept_real hpins htail
  case archives =>
    rw [cutAt_archivedIndices]
    exact left_real hpins htail
  case unsplit => exact fun c r h => kept_unsplit hpins htail h
  case tail =>
    refine ⟨start, keptBefore pins start, htail.boundary, rfl, ?_, ?_⟩
    · exact pairwise_lt_range.filter _
    · intro i
      rw [mem_keptBefore, pinned_iff hpins]

/-! ## The deepest tail -/

def Fits (input : CutInput CallId) (pins : List Bool) (low i : Nat) : Prop :=
  input.toolTokens + input.stubTokens + headTokens input.messages pins i +
    tailTokens input.messages i ≤ low

omit [LinearOrder CallId] in
lemma projected_le_iff (hlow : low < u64Max) (i : Nat) :
    projected input.messages pins (fixedTokens input) i ≤ low ↔ Fits input pins low i := by
  rw [projected, fixedTokens, saturatingAdd, Fits]
  omega

/-- Where the tail of a plan starts: at the earliest eligible boundary that fits, or at the
newest one when none fits. -/
structure DeepestTail (input : CutInput CallId) (pins : List Bool) (low start : Nat) : Prop where
  eligible : Eligible input.messages start
  earliest : (∃ i, Eligible input.messages i ∧ Fits input pins low i) → Fits input pins low start ∧
      ∀ i, Eligible input.messages i → Fits input pins low i → start ≤ i
  newest : (¬ ∃ i, Eligible input.messages i ∧ Fits input pins low i) →
    ∀ i, Eligible input.messages i → i ≤ start

lemma DeepestTail.of_tailStart (hlow : low < u64Max) (hpins : pinned input.messages = some pins)
    (hfound : tailStart input.messages pins (fixedTokens input) low = .ok (.ok (start, fill)))
    (hspec : TailSpec input.messages pins (fixedTokens input) low start fill) :
    DeepestTail input pins low start where
  eligible := ⟨hspec.boundary, hspec.archivable, hspec.pastStubs⟩
  earliest := by
    rintro ⟨i, hi, hfits⟩
    obtain ⟨hdeepest, -⟩ := tailStart_deepest hpins hfound
    obtain ⟨hwithin, -⟩ := hdeepest start fill rfl i hi ((projected_le_iff hlow i).mpr hfits)
    refine ⟨(projected_le_iff hlow start).mp (hspec.within hwithin), ?_⟩
    intro j hj hfitsj
    exact (hdeepest start fill rfl j hj ((projected_le_iff hlow j).mpr hfitsj)).2
  newest := by
    intro hnone i hi
    have hover : fill ≠ .withinLow := by
      intro hwithin
      exact hnone ⟨start, ⟨hspec.boundary, hspec.archivable, hspec.pastStubs⟩,
        (projected_le_iff hlow start).mp (hspec.within hwithin)⟩
    by_contra hlt
    exact hspec.newest hover i (by omega) hi.1

/-- A plan keeps the deepest tail that fits, and there is no boundary to cut at exactly when
no message opens an exchange past the stubs and the first message that may be archived. -/
theorem planCut_deepest_tail (input : CutInput CallId) : ∃ result, planCut input = .ok result ∧
      (∀ plan, result = .ok plan → ∃ marks pins start,
        input.trigger.effectiveMarks = .ok marks ∧ pinned input.messages = some pins ∧
        plan.kept.drop plan.stubSlot = range' start (input.messages.length - start) ∧
        DeepestTail input pins marks.low start) ∧ (result = .error .noBoundary ↔
        input.trigger.isDue (requestSize input) = .ok true ∧ pinned input.messages ≠ none ∧
        (∃ i, Archivable input.messages i) ∧ ¬ ∃ i, Eligible input.messages i) := by
  obtain ⟨marks, result, hmarks, hresult, hcases⟩ := planCut_cases input
  have hlow : marks.low < u64Max := Nat.lt_of_lt_of_le marks.lowBelowHigh marks.word
  refine ⟨result, hresult, ?_⟩
  obtain ⟨rfl, hdue⟩ | ⟨hdue, hcases⟩ := hcases
  · refine ⟨by simp, by simp, ?_⟩
    rintro ⟨htrue, -⟩
    rw [hdue] at htrue
    cases htrue
  obtain ⟨rfl, hnone⟩ | ⟨pins, hpins, hcases⟩ := hcases
  · exact ⟨by simp, by simp, fun h => absurd hnone h.2.1⟩
  have hsome : pinned input.messages ≠ none := hpins ▸ Option.some_ne_none pins
  obtain ⟨reason, rfl, htail⟩ | ⟨start, fill, htail, hspec, hmade⟩ := hcases
  · obtain ⟨-, hiff⟩ := tailStart_deepest hpins htail
    rw [Except.error.injEq] at hiff
    refine ⟨by simp, ?_⟩
    rw [Except.error.injEq, hiff]
    exact ⟨fun h => ⟨hdue, hsome, h⟩, fun h => h.2.2⟩
  · have hdeepest := DeepestTail.of_tailStart hlow hpins htail hspec
    constructor
    · intro plan hplan
      obtain rfl | ⟨saving, needed, rfl⟩ := hmade
      · rw [← Except.ok.inj hplan]
        exact ⟨marks, pins, start, hmarks, hpins, keptAt_drop, hdeepest⟩
      · cases hplan
    · refine ⟨?_, fun h => absurd ⟨start, hdeepest.eligible⟩ h.2.2.2⟩
      intro hno
      obtain rfl | ⟨saving, needed, rfl⟩ := hmade
      · cases hno
      · cases hno

end Total

end Quecto.Conversation
