/-
  Conversation/TailStart.lean --- the marks in force, and where the tail starts.
-/
import Quecto.Conversation.Exchange
import Mathlib.Tactic.Ring

namespace Quecto.Conversation

open Foundation List Checked

/-! ## Scaling the marks -/

namespace Watermark

lemma scaled_gap {high low below : Nat} (hlow : low < high) (hbelow : below < high)
    (hgap : high / minSavingDivisor ≤ high - low) :
    below / minSavingDivisor ≤ below - low * below / high := by
  simp only [minSavingDivisor] at hgap ⊢
  have hhigh : 0 < high := by omega
  -- `high = 10 a + r` and `below = 10 b + s`, with both remainders under ten
  obtain ⟨a, ha⟩ : ∃ a, a = high / 10 := ⟨_, rfl⟩
  obtain ⟨b, hb⟩ : ∃ b, b = below / 10 := ⟨_, rfl⟩
  have hlow' : low ≤ high - a := by omega
  have hround : low * below / high ≤ below - b := by
    rw [Nat.le_iff_lt_add_one, Nat.div_lt_iff_lt_mul hhigh]
    have hmul : low * below ≤ (high - a) * below := Nat.mul_le_mul_right below hlow'
    have hcross : b * high < a * below + high := by
      have hr : high ≤ 10 * a + 9 := by omega
      have hs : 10 * b ≤ below := by omega
      have h1 : b * high ≤ b * (10 * a + 9) := Nat.mul_le_mul_left b hr
      have h2 : a * (10 * b) ≤ a * below := Nat.mul_le_mul_left a hs
      have h3 : b * (10 * a + 9) = a * (10 * b) + 9 * b := by ring
      omega
    obtain ⟨p, hp⟩ : ∃ p, high = a + p := ⟨high - a, by omega⟩
    obtain ⟨q, hq⟩ : ∃ q, below = b + q := ⟨below - b, by omega⟩
    have hp' : high - a = p := by omega
    have hq' : below - b = q := by omega
    rw [hp'] at hmul
    rw [hq']
    have hexpand : p * below + a * below = high * below := by rw [← Nat.add_mul, hp, Nat.add_comm]
    have hexpand' : q * high + b * high = high * below := by
      rw [← Nat.add_mul, Nat.add_comm q b, ← hq, Nat.mul_comm]
    have hsucc : (q + 1) * high = q * high + high := by ring
    omega
  omega

lemma scale_ok {value numerator denominator : Nat} (hlt : numerator < denominator)
    (hword : value ≤ u64Max) :
    scale value numerator denominator = .ok (value * numerator / denominator) := by
  have hle : value * numerator / denominator ≤ u64Max := by
    refine Nat.le_trans (Nat.div_le_of_le_mul ?_) hword
    rw [Nat.mul_comm denominator]
    exact Nat.mul_le_mul_left value (Nat.le_of_lt hlt)
  simp [scale, hlt, hle]

lemma clamp_ok {value least most : Nat} (h : least ≤ most) :
    clamp value least most = .ok (max least (min value most)) := by
  simp only [clamp, h, decide_true, assert_true, ok_bind, pure_eq]
  congr 1
  split_ifs <;> omega

lemma new_ok {high low : Nat} (word : high ≤ u64Max) (hpositive : 0 < low) (hbelow : low < high)
    (hgap : high / minSavingDivisor ≤ high - low) :
    new high low word = .ok ⟨high, low, word, hpositive, hbelow, hgap⟩ := by
  rw [new, dif_neg (Nat.ne_of_gt hpositive), dif_neg (Nat.not_le_of_lt hbelow),
    dif_neg (Nat.not_lt_of_le hgap)]

variable (marks : Watermark)

lemma new_self : new marks.high marks.low marks.word = .ok marks :=
  new_ok marks.word marks.lowPositive marks.lowBelowHigh marks.gap

lemma underCeiling_below {ceiling : Nat} (hbelow : max ceiling 2 < marks.high) :
    ∃ effective, marks.underCeiling ceiling = .ok effective ∧ effective.high = max ceiling 2 ∧
      effective.low = max 1 (min (marks.low * max ceiling 2 / marks.high) (max ceiling 2 - 1)) := by
  have hlow : marks.low ≤ u64Max := Nat.le_trans (Nat.le_of_lt marks.lowBelowHigh) marks.word
  have hgap := scaled_gap marks.lowBelowHigh hbelow marks.gap
  have hone : max ceiling 2 / minSavingDivisor ≤ max ceiling 2 - 1 := by
    simp only [minSavingDivisor]
    omega
  rw [underCeiling, dif_neg (Nat.not_le_of_lt hbelow)]
  simp only [scale_ok hbelow hlow, ok_bind]
  rw [clamp_ok (by omega), ok_bind]
  have hclamped : max 1 (min (marks.low * max ceiling 2 / marks.high) (max ceiling 2 - 1)) <
      max ceiling 2 := by omega
  have hkept : max ceiling 2 / minSavingDivisor ≤ max ceiling 2 -
      max 1 (min (marks.low * max ceiling 2 / marks.high) (max ceiling 2 - 1)) := by
    omega
  rw [new_ok _ (Nat.lt_of_lt_of_le Nat.one_pos (Nat.le_max_left _ _)) hclamped hkept]
  exact ⟨_, rfl, rfl, rfl⟩

lemma underCeiling_ok (ceiling : Nat) :
    ∃ effective, marks.underCeiling ceiling = .ok effective := by
  by_cases habove : marks.high ≤ max ceiling 2
  · exact ⟨marks, dif_pos habove⟩
  · obtain ⟨effective, heffective, -⟩ := marks.underCeiling_below (Nat.lt_of_not_le habove)
    exact ⟨effective, heffective⟩

/-- The marks under a ceiling: the high mark is lowered to it and the low mark scaled down,
to marks the constructor takes, also when they are scaled down again. -/
theorem underCeiling_scales (marks : Watermark) (ceiling : Nat) :
    ∃ effective, marks.underCeiling ceiling = .ok effective ∧
      effective.high = min marks.high (max ceiling 2) ∧
      (max ceiling 2 < marks.high → effective.low =
        max 1 (min (marks.low * effective.high / marks.high) (effective.high - 1))) ∧
      (marks.high ≤ max ceiling 2 → effective = marks) ∧
      new effective.high effective.low effective.word = .ok effective ∧
      ∀ second ≤ ceiling, ∃ again, effective.underCeiling second = .ok again ∧
        new again.high again.low again.word = .ok again := by
  have htwice : ∀ effective : Watermark, ∀ second ≤ ceiling,
      ∃ again, effective.underCeiling second = .ok again ∧
        new again.high again.low again.word = .ok again := by
    intro effective second _
    obtain ⟨again, hagain⟩ := effective.underCeiling_ok second
    exact ⟨again, hagain, again.new_self⟩
  by_cases habove : marks.high ≤ max ceiling 2
  · refine ⟨marks, dif_pos habove, (Nat.min_eq_left habove).symm, fun hbelow => ?_, fun _ => rfl,
      marks.new_self, htwice marks⟩
    exact absurd hbelow (Nat.not_lt_of_le habove)
  have hbelow := Nat.lt_of_not_le habove
  obtain ⟨effective, heffective, hhigh, hlow⟩ := marks.underCeiling_below hbelow
  refine ⟨effective, heffective, ?_, fun _ => ?_, fun h => absurd h habove, effective.new_self,
    htwice effective⟩
  · rw [hhigh, Nat.min_eq_right (Nat.le_of_lt hbelow)]
  · rw [hlow, hhigh]

end Watermark

lemma CutTrigger.effectiveMarks_ok (t : CutTrigger) :
    ∃ marks, t.effectiveMarks = .ok marks := t.marks.underCeiling_ok t.ceiling

/-! ## What a cut keeps, in tokens -/

section Tail

variable {CallId : Type} (messages : List (PlanMessage CallId))

def tokensAt (i : Nat) : Nat :=
  (messages[i]?.map (·.tokens)).getD 0

def keptBefore (pins : List Bool) (start : Nat) : List Nat :=
  (range start).filter fun i => pins.getD i false

def headTokens (pins : List Bool) (start : Nat) : Nat :=
  ((keptBefore pins start).map (tokensAt messages)).sum

def tailTokens (start : Nat) : Nat :=
  ((range' start (messages.length - start)).map (tokensAt messages)).sum

def projected (pins : List Bool) (fixed start : Nat) : Nat :=
  min (fixed + headTokens messages pins start + tailTokens messages start) u64Max

variable {messages} {i : Nat}

lemma tokensAt_of {m : PlanMessage CallId} (h : messages[i]? = some m) :
    tokensAt messages i = m.tokens := by
  simp [tokensAt, h]

lemma tailTokens_step (h : i < messages.length) :
    tailTokens messages i = tokensAt messages i + tailTokens messages (i + 1) := by
  obtain ⟨k, hk⟩ : ∃ k, messages.length - i = k + 1 := ⟨messages.length - i - 1, by omega⟩
  have hk' : messages.length - (i + 1) = k := by omega
  rw [tailTokens, tailTokens, hk, hk', range'_succ, map_cons, sum_cons]

lemma keptBefore_succ (pins : List Bool) (i : Nat) :
    keptBefore pins (i + 1) = keptBefore pins i ++ if pins.getD i false then [i] else [] := by
  rw [keptBefore, range_succ, filter_append]
  congr 1
  rw [filter_singleton, Bool.cond_eq_ite]

lemma projected_anti (messages : List (PlanMessage CallId)) (pins : List Bool) (fixed : Nat)
    {j : Nat} (hij : i ≤ j) (hj : j ≤ messages.length) :
    projected messages pins fixed j ≤ projected messages pins fixed i := by
  induction j, hij using Nat.le_induction with
  | base => exact Nat.le_refl _
  | succ j _ ih =>
    refine Nat.le_trans ?_ (ih (by omega))
    have htail : tailTokens messages j = tokensAt messages j + tailTokens messages (j + 1) :=
      tailTokens_step (by omega)
    have hhead : headTokens messages pins (j + 1) ≤
        headTokens messages pins j + tokensAt messages j := by
      rw [headTokens, headTokens, keptBefore_succ]
      split_ifs <;> simp
    rw [projected, projected]
    omega

lemma pinnedBefore_lookup {pins : List Bool} (hlen : pins.length = messages.length)
    (hi : i ≤ messages.length) :
    (pinnedBefore messages pins)[i]? = some (min (headTokens messages pins i) u64Max) := by
  have hzip : (messages.zip pins).length = messages.length := by
    rw [length_zip, hlen, Nat.min_self]
  rw [pinnedBefore, getElem?_scanl, if_pos (by omega)]
  congr 1
  induction i with
  | zero => rfl
  | succ i ih =>
    obtain ⟨m, hm⟩ : ∃ m, messages[i]? = some m := ⟨_, getElem?_eq_getElem (by omega)⟩
    obtain ⟨pin, hpin⟩ : ∃ pin, pins[i]? = some pin := ⟨_, getElem?_eq_getElem (by omega)⟩
    have hentry : (messages.zip pins)[i]? = some (m, pin) := by
      rw [getElem?_zip_eq_some]
      exact ⟨hm, hpin⟩
    rw [take_add_one, hentry, Option.toList_some, foldl_append, ih (by omega),
      foldl_cons, headTokens, headTokens, keptBefore_succ,
      getD_eq_getElem?_getD, hpin]
    simp only [saturatingAdd_min_left]
    cases pin with
    | false => simp [saturatingAdd]
    | true => simp [saturatingAdd, tokensAt_of hm]

/-! ## What may be archived -/

section

variable {pins : List Bool} {first : Nat}

/-- Messages a cut may leave out. -/
def Archivable (messages : List (PlanMessage CallId)) (i : Nat) : Prop :=
  HoldsAt (fun m => !m.role.isSystem && !m.role.isStub) messages i ∧ ¬ Pinned messages i

lemma archivable_spec (hpins : pinned messages = some pins) (hi : i < messages.length) :
    ∃ answer, archivable messages pins i = .ok answer ∧
      (answer = true ↔ Archivable messages i) := by
  obtain ⟨m, hm⟩ : ∃ m, messages[i]? = some m := ⟨_, getElem?_eq_getElem hi⟩
  obtain ⟨pin, hpin⟩ : ∃ pin, pins[i]? = some pin :=
    ⟨_, getElem?_eq_getElem (by rw [pinned_length hpins]; exact hi)⟩
  have hiff : pin = true ↔ Pinned messages i := by
    rw [← pinned_iff hpins, hpin, Option.some.injEq]
  rw [archivable, index_of hm]
  cases hrole : m.role <;>
    simp [index_of hpin, Archivable, HoldsAt, hm, hrole, PlanRole.isSystem, PlanRole.isStub, ← hiff]

lemma pastStubs_iff :
    ((rposition (fun m : PlanMessage CallId => m.role.isStub) messages).map (· + 1)).getD 0 ≤ i ↔
      ∀ j, i ≤ j → ¬ HoldsAt (·.role.isStub) messages j := by
  cases hstub : rposition (fun m : PlanMessage CallId => m.role.isStub) messages with
  | none =>
    have hnone := rposition_eq_none_iff.mp hstub
    exact ⟨fun _ j _ => hnone j, fun _ => Nat.zero_le i⟩
  | some last =>
    obtain ⟨hlast, hlater⟩ := rposition_eq_some_iff.mp hstub
    rw [Option.map_some, Option.getD_some]
    constructor
    · intro hle j hj
      exact hlater j (by omega)
    intro hpast
    by_contra hle
    exact hpast last (by omega) hlast

lemma overLow_eq (hlen : pins.length = messages.length) (hi : i ≤ messages.length)
    (fixed low : Nat) : overLow (pinnedBefore messages pins) fixed low i =
      .ok (i, if low < saturatingAdd fixed (headTokens messages pins i) then .headOverLow
        else .newestExchangeOverLow) := by
  rw [overLow, index_of (pinnedBefore_lookup hlen hi), ok_bind, saturatingAdd_min_right]
  split_ifs <;> rfl

def PastArchivable (messages : List (PlanMessage CallId)) (i : Nat) : Prop :=
  (∃ a < i, Archivable messages a) ∧ ∀ j, i ≤ j → ¬ HoldsAt (·.role.isStub) messages j

def leastTail (messages : List (PlanMessage CallId)) (first : Nat) : Nat :=
  max (((rposition (·.role.isStub) messages).map (· + 1)).getD 0) (first + 1)

lemma leastTail_le_iff (hfirst : Archivable messages first)
    (hnone : ∀ j < first, ¬ Archivable messages j) (i : Nat) :
    leastTail messages first ≤ i ↔ PastArchivable messages i := by
  rw [leastTail, Nat.max_le, pastStubs_iff, and_comm]
  refine and_congr_left fun _ => ⟨fun hlt => ⟨first, hlt, hfirst⟩, ?_⟩
  rintro ⟨a, hlt, ha⟩
  by_contra hle
  exact hnone a (by omega) ha

lemma leastTail_le_length (hfirst : first < messages.length) :
    leastTail messages first ≤ messages.length := by
  refine Nat.max_le.mpr ⟨pastStubs_iff.mpr ?_, hfirst⟩
  intro j hj hstub
  exact absurd hstub.lt (by omega)

lemma findArchivable (hpins : pinned messages = some pins) :
    ∃ found, (range messages.length).findM? (archivable messages pins) = .ok found ∧
      (found = none → ∀ i, ¬ Archivable messages i) ∧
      ∀ first, found = some first → first < messages.length ∧ Archivable messages first ∧
        ∀ j < first, ¬ Archivable messages j := by
  have hiff : ∀ i < messages.length,
      (archivable messages pins i = .ok true ↔ Archivable messages i) := by
    intro i hi
    obtain ⟨answer, hanswer, hiff⟩ := archivable_spec hpins hi
    rw [hanswer, Except.ok.injEq, hiff]
  have hfind : ∀ i ∈ range messages.length,
      archivable messages pins i = .ok (decide (archivable messages pins i = .ok true)) := by
    intro i hi
    obtain ⟨answer, hanswer, -⟩ := archivable_spec hpins (mem_range.mp hi)
    rw [hanswer]
    cases answer <;> rfl
  refine ⟨_, findM?_of hfind, ?_, ?_⟩
  · intro hnone i harchivable
    have hi : i < messages.length := harchivable.1.lt
    rw [find?_range_eq_none] at hnone
    simpa [(hiff i hi).mpr harchivable] using hnone i hi
  intro first hsome
  obtain ⟨htrue, hmem, hbefore⟩ := find?_range_eq_some.mp hsome
  have hfirst := mem_range.mp hmem
  refine ⟨hfirst, (hiff first hfirst).mp (of_decide_eq_true htrue), ?_⟩
  intro j hj harchivable
  simpa [(hiff j (by omega)).mpr harchivable] using hbefore j hj

end

/-! ## The walk back -/

variable [LinearOrder CallId]

section

variable (messages) (pins : List Bool) (fixed low i : Nat) (w : Walk)

/-- What a walk back to `i` has seen: the newest boundary from there on, and the earliest
one whose kept set fits. -/
structure WalkSeen : Prop where
  newest : ∀ b, w.newest = some b → i ≤ b ∧ Boundary messages b ∧ ∀ j, b < j → ¬ Boundary messages j
  unseen : w.newest = none → ∀ j, i ≤ j → ¬ Boundary messages j
  fitting : ∀ b, w.fitting = some b →
    i ≤ b ∧ Boundary messages b ∧ projected messages pins fixed b ≤ low
  earliest : ∀ j, i ≤ j → Boundary messages j → projected messages pins fixed j ≤ low →
    ∃ b ≤ j, w.fitting = some b

/-- The walk goes on from `i`: every boundary it met fits. -/
structure WalkFrom : Prop extends WalkSeen messages pins fixed low i w where
  suffix : w.suffix = min (tailTokens messages i) u64Max
  fits : w.fitting = none → w.newest = none

/-- The walk is over. -/
structure WalkEnd : Prop extends WalkSeen messages pins fixed low i w where
  overLow : w.fitting = none → ∀ b, w.newest = some b → low < projected messages pins fixed b

end

section Walk

variable {pins : List Bool} {fixed low : Nat} {w : Walk}

lemma WalkFrom.start : WalkFrom messages pins fixed low messages.length ⟨0, none, none⟩ where
  newest := by simp
  unseen := fun _ j hj hb => absurd hb.1.lt (by omega)
  fitting := by simp
  earliest := fun j hj hb => absurd hb.1.lt (by omega)
  suffix := by simp [tailTokens]
  fits := fun _ => rfl

lemma WalkFrom.finish (h : WalkFrom messages pins fixed low i w) :
    WalkEnd messages pins fixed low i w where
  toWalkSeen := h.toWalkSeen
  overLow := by
    intro hfit b hb
    rw [h.fits hfit] at hb
    cases hb

lemma WalkFrom.newest_or (h : WalkFrom messages pins fixed low (i + 1) w)
    (hb : Boundary messages i) : ∀ b, w.newest.or (some i) = some b →
      i ≤ b ∧ Boundary messages b ∧ ∀ j, b < j → ¬ Boundary messages j := by
  intro b hnewest
  cases hw : w.newest with
  | none =>
    rw [hw, Option.none_or, Option.some.injEq] at hnewest
    subst hnewest
    exact ⟨Nat.le_refl _, hb, fun j hj => h.unseen hw j hj⟩
  | some b' =>
    rw [hw, Option.some_or, Option.some.injEq] at hnewest
    subst hnewest
    obtain ⟨hle, hrest⟩ := h.newest b' hw
    exact ⟨by omega, hrest⟩

variable (fixed low) in
lemma walkBack_step (hpins : pins.length = messages.length) (hi : i < messages.length)
    (hsuffix : w.suffix = min (tailTokens messages (i + 1)) u64Max) (rest : List Nat) :
    let walk := walkBack messages (boundaryMarks messages) (pinnedBefore messages pins) fixed low
    let suffix := min (tailTokens messages i) u64Max
    (Boundary messages i ∧ projected messages pins fixed i ≤ low ∧
      walk (i :: rest) w = walk rest ⟨suffix, w.newest.or (some i), some i⟩) ∨
    (Boundary messages i ∧ low < projected messages pins fixed i ∧
      walk (i :: rest) w = .ok ⟨suffix, w.newest.or (some i), w.fitting⟩) ∨
    (¬ Boundary messages i ∧ walk (i :: rest) w = walk rest ⟨suffix, w.newest, w.fitting⟩) := by
  intro walk suffix
  obtain ⟨m, hm⟩ : ∃ m, messages[i]? = some m := ⟨_, getElem?_eq_getElem hi⟩
  obtain ⟨mark, hmark⟩ : ∃ mark, (boundaryMarks messages)[i]? = some mark :=
    ⟨_, getElem?_eq_getElem (by rw [boundaryMarks_length]; exact hi)⟩
  have hadded : saturatingAdd w.suffix m.tokens = suffix := by
    simp only [suffix]
    rw [hsuffix, saturatingAdd_min_left, tailTokens_step hi, tokensAt_of hm, saturatingAdd,
      Nat.add_comm]
  have hprojected : saturatingAdd
      (saturatingAdd fixed (min (headTokens messages pins i) u64Max)) suffix =
        projected messages pins fixed i := by
    rw [saturatingAdd_min_right, saturatingAdd_min_right, saturatingAdd, saturatingAdd, projected]
    omega
  simp only [walk]
  rw [walkBack, index_of hm, ok_bind, index_of hmark, ok_bind, hadded]
  cases mark with
  | true =>
    have hb : Boundary messages i := (boundaryMarks_iff messages _).mp hmark
    simp only [if_true, index_of (pinnedBefore_lookup hpins (Nat.le_of_lt hi)), ok_bind, hprojected]
    by_cases hfits : projected messages pins fixed i ≤ low
    · exact .inl ⟨hb, hfits, if_pos hfits⟩
    · exact .inr (.inl ⟨hb, Nat.lt_of_not_le hfits, if_neg hfits⟩)
  | false =>
    have hb : ¬ Boundary messages i := by
      rw [← boundaryMarks_iff, hmark]
      simp
    exact .inr (.inr ⟨hb, if_neg Bool.false_ne_true⟩)

lemma walkBack_spec (hpins : pins.length = messages.length) (least k : Nat)
    (hk : least + k ≤ messages.length) (hw : WalkFrom messages pins fixed low (least + k) w) :
    ∃ w', walkBack messages (boundaryMarks messages) (pinnedBefore messages pins) fixed low
        (range' least k).reverse w = .ok w' ∧ WalkEnd messages pins fixed low least w' := by
  induction k generalizing w with
  | zero => exact ⟨w, rfl, hw.finish⟩
  | succ k ih =>
    have hw : WalkFrom messages pins fixed low (least + k + 1) w := hw
    rw [range'_concat, reverse_append, Nat.one_mul]
    obtain ⟨hb, hfits, hstep⟩ | ⟨hb, hover, hstep⟩ | ⟨hb, hstep⟩ :=
      walkBack_step fixed low hpins (by omega) hw.suffix (range' least k).reverse
    · refine hstep ▸ ih (by omega) ⟨⟨hw.newest_or hb, by simp, ?_, ?_⟩, rfl, nofun⟩
      · intro b hfit
        rw [← Option.some.inj hfit]
        exact ⟨Nat.le_refl _, hb, hfits⟩
      · exact fun j hj _ _ => ⟨least + k, hj, rfl⟩
    · refine ⟨_, hstep, ⟨?_, by simp, ?_, ?_⟩, ?_⟩
      · intro b hnewest
        obtain ⟨hle, hrest⟩ := hw.newest_or hb b hnewest
        exact ⟨by omega, hrest⟩
      · intro b hfit
        obtain ⟨hle, hrest⟩ := hw.fitting b hfit
        exact ⟨by omega, hrest⟩
      · intro j _ hbj hfits
        refine hw.earliest j ?_ hbj hfits
        -- an index up to the one that stopped the walk costs at least as much as it
        by_contra hlt
        have hanti := projected_anti messages pins fixed (i := j) (j := least + k) (by omega)
          (by omega)
        omega
      intro hnone b hnewest
      simp only [hw.fits hnone, Option.none_or, Option.some.injEq] at hnewest
      rw [← hnewest]
      exact hover
    · refine hstep ▸ ih (by omega) ⟨⟨?_, ?_, ?_, ?_⟩, rfl, hw.fits⟩
      · intro b hnewest
        obtain ⟨hle, hrest⟩ := hw.newest b hnewest
        exact ⟨by omega, hrest⟩
      · intro hnone j hj hbj
        by_cases heq : j = least + k
        · exact hb (heq ▸ hbj)
        · exact hw.unseen hnone j (by omega) hbj
      · intro b hfit
        obtain ⟨hle, hrest⟩ := hw.fitting b hfit
        exact ⟨by omega, hrest⟩
      intro j hj hbj hfits
      by_cases heq : j = least + k
      · exact absurd (heq ▸ hbj) hb
      · exact hw.earliest j (by omega) hbj hfits

end Walk

/-! ## The tail -/

/-- Where the tail starts, and why its kept set fits the low mark or does not. -/
structure TailSpec (messages : List (PlanMessage CallId)) (pins : List Bool) (fixed low start : Nat)
    (fill : Fill) : Prop where
  boundary : Boundary messages start
  archivable : ∃ i < start, Archivable messages i
  pastStubs : ∀ i, start ≤ i → ¬ HoldsAt (·.role.isStub) messages i
  within : fill = .withinLow → projected messages pins fixed start ≤ low
  overLow : fill ≠ .withinLow → low < projected messages pins fixed start
  headOver : fill = .headOverLow → low < saturatingAdd fixed (headTokens messages pins start)
  headWithin : fill = .newestExchangeOverLow →
    saturatingAdd fixed (headTokens messages pins start) ≤ low
  newest : fill ≠ .withinLow → ∀ j, start < j → ¬ Boundary messages j

section Spec

variable {pins : List Bool}

def tailAnswer (messages : List (PlanMessage CallId)) (pins : List Bool) (fixed low : Nat)
    (w : Walk) : Except NoCut (Nat × Fill) :=
  match w.fitting, w.newest with
  | some i, _ => .ok (i, .withinLow)
  | none, some i => .ok (i, if low < saturatingAdd fixed (headTokens messages pins i)
      then .headOverLow else .newestExchangeOverLow)
  | none, none => .error .noBoundary

lemma tailStart_cases (hpins : pinned messages = some pins) (fixed low : Nat) :
    (tailStart messages pins fixed low = .ok (.error .nothingArchivable) ∧
      ∀ i, ¬ Archivable messages i) ∨
    ∃ least w, tailStart messages pins fixed low = .ok (tailAnswer messages pins fixed low w) ∧
      (∃ i, Archivable messages i) ∧ (∀ i, least ≤ i ↔ PastArchivable messages i) ∧
      WalkEnd messages pins fixed low least w := by
  have hlen := pinned_length hpins
  obtain ⟨found, hfound, hnone, hsome⟩ := findArchivable hpins
  rw [tailStart, hfound]
  cases found with
  | none => exact .inl ⟨rfl, hnone rfl⟩
  | some first =>
    refine .inr ?_
    obtain ⟨hfirst, harchivable, hbefore⟩ := hsome first rfl
    have hleast := leastTail_le_length hfirst
    have hwhole := Nat.add_sub_cancel' hleast
    have hstart : WalkFrom messages pins fixed low
        (leastTail messages first + (messages.length - leastTail messages first))
        ⟨0, none, none⟩ := by
      rw [hwhole]
      exact WalkFrom.start
    obtain ⟨w, hwalk, hend⟩ := walkBack_spec hlen (leastTail messages first)
      (messages.length - leastTail messages first) (Nat.le_of_eq hwhole) hstart
    refine ⟨leastTail messages first, w, ?_, ⟨first, harchivable⟩,
      leastTail_le_iff harchivable hbefore, hend⟩
    rw [leastTail] at hwalk
    simp only [boundaries_eq, ok_bind, hwalk]
    unfold tailAnswer
    cases hfit : w.fitting with
    | some b => rfl
    | none =>
      cases hnewest : w.newest with
      | none => rfl
      | some b =>
        obtain ⟨-, hb, -⟩ := hend.newest b hnewest
        simp only [overLow_eq hlen (Nat.le_of_lt hb.1.lt), map_ok]

lemma tailStart_spec (hpins : pinned messages = some pins) (fixed low : Nat) :
    ∃ result, tailStart messages pins fixed low = .ok result ∧
      ∀ start fill, result = .ok (start, fill) → TailSpec messages pins fixed low start fill := by
  obtain ⟨htail, -⟩ | ⟨least, w, htail, -, hleast, hend⟩ := tailStart_cases hpins fixed low
  · exact ⟨_, htail, by simp⟩
  refine ⟨_, htail, ?_⟩
  intro start fill h
  unfold tailAnswer at h
  cases hfit : w.fitting with
  | some b =>
    rw [hfit] at h
    obtain ⟨rfl, rfl⟩ := Prod.mk.inj (Except.ok.inj h)
    obtain ⟨hle, hb, hlow⟩ := hend.fitting b hfit
    obtain ⟨harchivable, hstubs⟩ := (hleast b).mp hle
    exact ⟨hb, harchivable, hstubs, fun _ => hlow, by simp, by simp, by simp, by simp⟩
  | none =>
    cases hnewest : w.newest with
    | none =>
      rw [hfit, hnewest] at h
      cases h
    | some b =>
      rw [hfit, hnewest] at h
      obtain ⟨rfl, rfl⟩ := Prod.mk.inj (Except.ok.inj h)
      obtain ⟨hle, hb, hlast⟩ := hend.newest b hnewest
      obtain ⟨harchivable, hstubs⟩ := (hleast b).mp hle
      have hover := hend.overLow hfit b hnewest
      refine ⟨hb, harchivable, hstubs, ?_, fun _ => hover, ?_, ?_, fun _ => hlast⟩
      · split_ifs <;> simp
      · split_ifs with hhead
        · exact fun _ => hhead
        · simp
      split_ifs with hhead
      · simp
      · exact fun _ => Nat.le_of_not_lt hhead

/-- A boundary the tail may start at. -/
def Eligible (messages : List (PlanMessage CallId)) (i : Nat) : Prop :=
  Boundary messages i ∧ PastArchivable messages i

lemma tailStart_deepest (hpins : pinned messages = some pins) {fixed low : Nat}
    {result : Except NoCut (Nat × Fill)} (h : tailStart messages pins fixed low = .ok result) :
    (∀ start fill, result = .ok (start, fill) → ∀ i, Eligible messages i →
      projected messages pins fixed i ≤ low → fill = .withinLow ∧ start ≤ i) ∧
    (result = .error .noBoundary ↔ (∃ i, Archivable messages i) ∧ ¬ ∃ i, Eligible messages i) := by
  obtain ⟨htail, hnone⟩ | ⟨least, w, htail, hsome, hleast, hend⟩ :=
    tailStart_cases hpins fixed low
  · rw [htail, Except.ok.injEq] at h
    subst h
    refine ⟨by simp, by simp, ?_⟩
    rintro ⟨⟨i, hi⟩, -⟩
    exact absurd hi (hnone i)
  · rw [htail, Except.ok.injEq] at h
    subst h
    unfold tailAnswer
    cases hfit : w.fitting with
    | some b =>
      obtain ⟨hle, hb, -⟩ := hend.fitting b hfit
      refine ⟨?_, by simp, fun h => absurd ⟨b, hb, (hleast b).mp hle⟩ h.2⟩
      intro start fill h i hi hfits
      obtain ⟨rfl, rfl⟩ := Prod.mk.inj (Except.ok.inj h)
      obtain ⟨b', hb', hfit'⟩ := hend.earliest i ((hleast i).mpr hi.2) hi.1 hfits
      rw [hfit, Option.some.injEq] at hfit'
      exact ⟨rfl, hfit' ▸ hb'⟩
    | none =>
      cases hnewest : w.newest with
      | some b =>
        obtain ⟨hle, hb, -⟩ := hend.newest b hnewest
        refine ⟨?_, by simp, fun h => absurd ⟨b, hb, (hleast b).mp hle⟩ h.2⟩
        intro start fill _ i hi hfits
        obtain ⟨b', -, hfit'⟩ := hend.earliest i ((hleast i).mpr hi.2) hi.1 hfits
        rw [hfit] at hfit'
        cases hfit'
      | none =>
        refine ⟨by simp, fun _ => ⟨hsome, ?_⟩, fun _ => rfl⟩
        rintro ⟨i, hb, hpast⟩
        exact hend.unseen hnewest i ((hleast i).mpr hpast) hb

end Spec

end Tail

end Quecto.Conversation
