/-
  Context/CutStub.lean --- the stub that a cut of the context leaves, and its bound.

  Source: the stub of `domain/conversation/services/watermark_cut.rs`.
-/
import Quecto.Context.TokenEstimate
import Quecto.Foundation.Word

namespace Quecto.Context

open Foundation List

def stubOpening : String := "[Context archive] "

def stubArchived : String :=
  " earlier messages of this session were archived to keep the context small. recall(\""

def stubListing : String :=
  "\") lists them with their recall ids; recall(\"<id>\") reads any one in full."

def stubDropped : String :=
  " earlier messages of this session were dropped to keep the context small; " ++
    "recall(\"list\") shows what session memory still holds."

def stubText (archived : Nat) : Option String → String
  | some id => stubOpening ++ toString archived ++ (stubArchived ++ (id ++ stubListing))
  | none => stubOpening ++ toString archived ++ stubDropped

def stubTokensBound : Nat :=
  let id := "archive:" ++ toString u64Max
  max (estimateTextTokens (stubText u64Max (some id))) (estimateTextTokens (stubText u64Max none))

namespace ClassCounts

def withDense (counts : ClassCounts) (n : Nat) : ClassCounts :=
  { counts with dense := counts.dense + n }

/-- Nothing is held back: no word, no run, no dense separator to come. -/
def Fresh (counts : ClassCounts) : Prop :=
  counts =
    { prose := counts.prose, dense := counts.dense
      highEntropy := counts.highEntropy, nonAscii := counts.nonAscii }

instance (counts : ClassCounts) : Decidable counts.Fresh := inferInstanceAs (Decidable (_ = _))

variable (counts : ClassCounts) (n : Nat)

lemma endWord_withDense : (counts.withDense n).endWord = counts.endWord.withDense n := by
  unfold endWord
  split <;> simp_all [withDense]

lemma endRun_withDense : (counts.withDense n).endRun = counts.endRun.withDense n := by
  unfold endRun
  rw [endWord_withDense]
  cases h : counts.endWord.run.isHighEntropy <;> simp [withDense, h, Nat.add_right_comm]

lemma push_withDense (c : Char) : (counts.withDense n).push c = (counts.push c).withDense n := by
  unfold push
  rw [endWord_withDense, endRun_withDense]
  simp only [apply_ite (withDense · n)]
  simp only [withDense, Nat.add_right_comm]
  rfl

lemma foldl_push_withDense (text : List Char) :
    text.foldl push (counts.withDense n) = (text.foldl push counts).withDense n := by
  induction text generalizing counts with
  | nil => rfl
  | cons c text ih => rw [foldl_cons, push_withDense, ih, foldl_cons]

lemma finish_withDense_le {m : Nat} (h : n ≤ m) :
    (counts.withDense n).finish ≤ (counts.withDense m).finish := by
  simp only [finish, endRun_withDense]
  simp only [withDense]
  omega

/-- A word of digits that is being read. -/
def inNumber (counts : ClassCounts) (n : Nat) : ClassCounts :=
  { counts with
    wordLen := n, wordHasDigit := true
    run := { len := n, digit := true, lastClass := some .digit } }

variable {c : Char}

lemma digit_class (hc : c.isDigit) : c.isAlphanum ∧ AlnumClass.of c = .digit := by
  have hrange : 48 ≤ c.toNat ∧ c.toNat ≤ 57 := by
    simpa [Char.isDigit, UInt32.le_iff_toNat_le] using hc
  have hletter : c.isUpper = false ∧ c.isLower = false := by
    change decide (c.val ≥ 65 ∧ c.val ≤ 90) = false ∧ (c.val ≥ 97 && c.val ≤ 122) = false
    simp only [Bool.and_eq_false_iff, decide_eq_false_iff_not, ge_iff_le, UInt32.le_iff_toNat_le]
    change ¬ (65 ≤ c.toNat ∧ c.toNat ≤ 90) ∧ (¬ 97 ≤ c.toNat ∨ ¬ c.toNat ≤ 122)
    omega
  simp [Char.isAlphanum, hc, AlnumClass.of, hletter]

lemma push_digit (hc : c.isDigit) :
    (counts.inNumber n).push c = counts.inNumber (n + 1) := by
  obtain ⟨halnum, hclass⟩ := digit_class hc
  simp [push, inNumber, halnum, hc, Run.pushAlnum, hclass]

lemma push_first_digit (hfresh : counts.Fresh) (hc : c.isDigit) :
    counts.push c = counts.inNumber 1 := by
  obtain ⟨halnum, hclass⟩ := digit_class hc
  rw [hfresh]
  simp [push, inNumber, halnum, hc, Run.pushAlnum, hclass]

lemma push_separator (hfresh : counts.Fresh) (hn : 0 < n) (hc : c ∈ [' ', '"']) :
    (counts.inNumber n).push c = counts.withDense (n + 1) := by
  have hplain : c.isAlphanum = false ∧ c ∉ ['+', '/', '=', '-', '_'] ∧ ¬ 128 ≤ c.toNat := by
    rcases List.mem_pair.mp hc with rfl | rfl <;> decide +kernel
  rw [hfresh]
  simp [push, inNumber, hplain, endRun, endWord, hn, Run.add, Run.isHighEntropy, withDense,
    Nat.add_assoc]

lemma foldl_number {digits rest : List Char} (hfresh : counts.Fresh)
    (hne : digits ≠ []) (hdigits : ∀ d ∈ digits, d.isDigit) (hc : c ∈ [' ', '"']) :
    (digits ++ c :: rest).foldl push counts =
      (rest.foldl push counts).withDense (digits.length + 1) := by
  have hread : ∀ (digits : List Char) (n : Nat), (∀ d ∈ digits, d.isDigit) →
      digits.foldl push (counts.inNumber n) = counts.inNumber (n + digits.length) := by
    intro digits
    induction digits with
    | nil => exact fun _ _ => rfl
    | cons d digits ih =>
      intro n hdigits
      rw [foldl_cons, push_digit _ _ (hdigits d mem_cons_self),
        ih _ fun d hd => hdigits d (mem_cons_of_mem _ hd), length_cons, Nat.add_assoc,
        Nat.add_comm 1]
  obtain ⟨d, digits, rfl⟩ := exists_cons_of_ne_nil hne
  rw [cons_append, foldl_cons, push_first_digit _ hfresh (hdigits d mem_cons_self),
    foldl_append, hread _ _ fun d hd => hdigits d (mem_cons_of_mem _ hd), foldl_cons,
    push_separator _ _ hfresh (by omega) hc, foldl_push_withDense, Nat.add_comm 1, length_cons]

end ClassCounts

open ClassCounts

lemma estimate_number_le (before after : String) {n : Nat} (hn : n ≤ u64Max)
    (hfresh : (before.toList.foldl push {}).Fresh)
    (hafter : after.toList.head? = some ' ' ∨ after.toList.head? = some '"') :
    estimateTextTokens (before ++ toString n ++ after) ≤
      estimateTextTokens (before ++ toString u64Max ++ after) := by
  have hlength : (Nat.toDigits 10 n).length ≤ (Nat.toDigits 10 u64Max).length := by
    have h : (Nat.toDigits 10 u64Max).length = 20 := by decide +kernel
    rw [h, Nat.length_toDigits_le_iff (by decide) (by decide)]
    exact Nat.lt_of_le_of_lt hn (by decide)
  obtain ⟨c, tail, hafter, hc⟩ : ∃ c tail, after.toList = c :: tail ∧ c ∈ [' ', '"'] := by
    cases h : after.toList with
    | nil => simp [h] at hafter
    | cons c tail => exact ⟨c, tail, rfl, by simpa [h] using hafter⟩
  have hread : ∀ n, (before ++ toString n ++ after).toList.foldl push {} = (tail.foldl push
        (before.toList.foldl push {})).withDense ((Nat.toDigits 10 n).length + 1) := by
    intro n
    rw [Nat.toString_eq_ofList_toDigits]
    rw [String.toList_append, String.toList_append, String.toList_ofList, hafter, append_assoc,
      foldl_append]
    rw [foldl_number _ hfresh Nat.toDigits_ne_nil
      (fun d hd => Nat.isDigit_of_mem_toDigits (by decide) (by decide) hd) hc]
  unfold estimateTextTokens
  rw [hread, hread]
  exact finish_withDense_le _ _ (by omega)

lemma stub_number_le {archived : Nat} (h : archived ≤ u64Max) (id : Option String) :
    estimateTextTokens (stubText archived id) ≤ estimateTextTokens (stubText u64Max id) := by
  cases id with
  | none => exact estimate_number_le _ _ h (by decide +kernel) (by decide +kernel)
  | some id =>
    refine estimate_number_le _ _ h (by decide +kernel) (.inl ?_)
    have hhead : stubArchived.toList.head? = some ' ' := by decide +kernel
    rw [String.toList_append, List.head?_append, hhead, Option.some_or]

/-- **The stub's bound holds.**  Whatever count and index a stub names, it costs no more than
the bound that the cut was planned with. -/
theorem stub_within_bound {archived : Nat} (harchived : archived ≤ u64Max) {indexId : Option String}
    (hid : indexId = none ∨ indexId = some "archive" ∨
      ∃ n ≤ u64Max, indexId = some ("archive:" ++ toString n)) :
    estimateTextTokens (stubText archived indexId) ≤ stubTokensBound := by
  refine (stub_number_le harchived indexId).trans ?_
  obtain rfl | rfl | ⟨n, hn, rfl⟩ := hid
  · exact Nat.le_max_right _ _
  · decide +kernel
  refine Nat.le_trans ?_ (Nat.le_max_left _ _)
  have hle := estimate_number_le (stubOpening ++ toString u64Max ++ (stubArchived ++ "archive:"))
    stubListing hn (by decide +kernel) (by decide +kernel)
  simpa only [stubText, String.append_assoc] using hle

theorem second_stub_within_bound :
    estimateTextTokens (stubText 5 (some ("archive:" ++ toString 2))) ≤ stubTokensBound :=
  stub_within_bound (by decide) (.inr (.inr ⟨2, by decide, rfl⟩))

end Quecto.Context
