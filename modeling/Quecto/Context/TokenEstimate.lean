/-
  Context/TokenEstimate.lean --- the estimate of a text, by character class.

  Source: `domain/inference/value_objects/token_estimate.rs`.
-/
import Mathlib.Data.List.Basic
import Mathlib.Data.String.Basic

namespace Quecto.Context

inductive AlnumClass where
  | upper
  | lower
  | digit
  deriving DecidableEq

def AlnumClass.of (c : Char) : AlnumClass :=
  if c.isUpper then .upper else if c.isLower then .lower else .digit

structure Run where
  len : Nat := 0
  upper : Bool := false
  lower : Bool := false
  digit : Bool := false
  switches : Nat := 0
  lastClass : Option AlnumClass := none
  prose : Nat := 0
  dense : Nat := 0
  deriving DecidableEq

namespace Run

def pushAlnum (run : Run) (c : Char) : Run :=
  let class_ := AlnumClass.of c
  { run with
    switches := run.switches + (run.lastClass.any (· ≠ class_)).toNat
    lastClass := some class_
    len := run.len + 1
    upper := run.upper || class_ == .upper
    lower := run.lower || class_ == .lower
    digit := run.digit || class_ == .digit }

def isHighEntropy (run : Run) : Bool :=
  16 ≤ run.len && run.upper && run.lower && run.digit && run.len * 4 ≤ run.switches * 10

def add (run : Run) (dense : Bool) (count : Nat) : Run :=
  if dense then { run with dense := run.dense + count } else { run with prose := run.prose + count }

end Run

structure ClassCounts where
  prose : Nat := 0
  dense : Nat := 0
  highEntropy : Nat := 0
  nonAscii : Nat := 0
  wordLen : Nat := 0
  wordHasDigit : Bool := false
  nextSeparatorDense : Bool := false
  run : Run := {}
  deriving DecidableEq

namespace ClassCounts

def endWord (counts : ClassCounts) : ClassCounts :=
  let ended := { counts with wordLen := 0, wordHasDigit := false }
  if 0 < counts.wordLen then
    { ended with
      run := counts.run.add counts.wordHasDigit counts.wordLen
      nextSeparatorDense := counts.wordHasDigit }
  else ended

def endRun (counts : ClassCounts) : ClassCounts :=
  let counts := counts.endWord
  let ended := { counts with run := {} }
  if counts.run.isHighEntropy then
    { ended with
      highEntropy := counts.highEntropy + counts.run.len
      nextSeparatorDense := false }
  else
    { ended with
      prose := counts.prose + counts.run.prose
      dense := counts.dense + counts.run.dense }

def push (counts : ClassCounts) (c : Char) : ClassCounts :=
  if c.isAlphanum then
    { counts with
      wordLen := counts.wordLen + 1
      wordHasDigit := counts.wordHasDigit || c.isDigit
      run := counts.run.pushAlnum c }
  else if ['+', '/', '=', '-', '_'].contains c && decide (0 < counts.run.len) then
    let counts := counts.endWord
    let joined := { counts.run with len := counts.run.len + 1, lastClass := none }
    { counts with run := joined.add counts.nextSeparatorDense 1, nextSeparatorDense := false }
  else
    let counts := counts.endRun
    let passed := { counts with nextSeparatorDense := false }
    if 128 ≤ c.toNat then { passed with nonAscii := counts.nonAscii + 1 }
    else if counts.nextSeparatorDense then { passed with dense := counts.dense + 1 }
    else { passed with prose := counts.prose + 1 }

def finish (counts : ClassCounts) : Nat :=
  let counts := counts.endRun
  (counts.prose + 3) / 4 + (counts.dense + 1) / 2 + (counts.highEntropy * 5 + 6) / 7 +
    counts.nonAscii

end ClassCounts

def estimateTextTokens (text : String) : Nat := (text.toList.foldl ClassCounts.push {}).finish

def tallied (tally : Nat × Nat) (c : Char) : Nat × Nat :=
  if c.toNat < 128 then (tally.1 + 1, tally.2) else (tally.1, tally.2 + 1)

def estimateOpaqueTokens (text : String) : Nat :=
  let tally := text.toList.foldl tallied (0, 0)
  (tally.1 + 3) / 4 + tally.2

/-- Each character read is held once: an ASCII one in a class or in the run, whose own
classes and open word add up to it. -/
structure ClassCounts.Holds (counts : ClassCounts) (tally : Nat × Nat) : Prop where
  run : counts.run.prose + counts.run.dense + counts.wordLen = counts.run.len
  ascii : counts.prose + counts.dense + counts.highEntropy + counts.run.len = tally.1
  nonAscii : counts.nonAscii = tally.2

lemma ascii_of_isAlphanum {c : Char} (h : c.isAlphanum) : c.toNat < 128 := by
  change (decide (c.val ≥ 65 ∧ c.val ≤ 90) || (c.val ≥ 97 && c.val ≤ 122) ||
    (c.val ≥ 48 && c.val ≤ 57)) = true at h
  simp only [Bool.or_eq_true, Bool.and_eq_true, decide_eq_true_eq, ge_iff_le,
    UInt32.le_iff_toNat_le] at h
  change ((65 ≤ c.toNat ∧ c.toNat ≤ 90) ∨ (97 ≤ c.toNat ∧ c.toNat ≤ 122)) ∨
    (48 ≤ c.toNat ∧ c.toNat ≤ 57) at h
  omega

namespace ClassCounts.Holds

variable {counts : ClassCounts} {tally : Nat × Nat}

lemma endWord (h : counts.Holds tally) :
    counts.endWord.Holds tally ∧ counts.endWord.wordLen = 0 := by
  obtain ⟨hrun, hascii, hnon⟩ := h
  unfold ClassCounts.endWord
  split
  · refine ⟨⟨?_, ?_, hnon⟩, rfl⟩ <;> cases counts.wordHasDigit <;> simp [Run.add] <;> omega
  · exact ⟨⟨by simp; omega, hascii, hnon⟩, rfl⟩

lemma endRun (h : counts.Holds tally) : counts.endRun.Holds tally ∧ counts.endRun.run.len = 0 := by
  obtain ⟨⟨hrun, hascii, hnon⟩, hword⟩ := h.endWord
  unfold ClassCounts.endRun
  dsimp only
  split <;> refine ⟨⟨?_, ?_, hnon⟩, rfl⟩ <;> simp [hword] <;> omega

lemma push (h : counts.Holds tally) (c : Char) : (counts.push c).Holds (tallied tally c) := by
  unfold ClassCounts.push tallied
  split
  · rename_i hc
    obtain ⟨hrun, hascii, hnon⟩ := h
    rw [if_pos (ascii_of_isAlphanum hc)]
    refine ⟨?_, ?_, hnon⟩ <;> simp [Run.pushAlnum] <;> omega
  split
  · rename_i hjoins
    obtain ⟨⟨hrun, hascii, hnon⟩, hword⟩ := h.endWord
    have hc : ∀ c ∈ ['+', '/', '=', '-', '_'], c.toNat < 128 := by simp
    rw [if_pos (hc c (List.contains_iff_mem.mp (Bool.and_eq_true_iff.mp hjoins).1))]
    refine ⟨?_, ?_, ?_⟩ <;> cases hdense : counts.endWord.nextSeparatorDense <;>
      simp [Run.add, hdense] <;> omega
  · obtain ⟨⟨hrun, hascii, hnon⟩, -⟩ := h.endRun
    by_cases hc : c.toNat < 128
    · rw [if_pos hc]
      rw [if_neg (by omega)]
      split <;> refine ⟨hrun, ?_, hnon⟩ <;> simp <;> omega
    rw [if_neg hc]
    rw [if_pos (by omega)]
    exact ⟨hrun, hascii, congrArg (· + 1) hnon⟩

lemma read (text : List Char) :
    (text.foldl ClassCounts.push {}).Holds (text.foldl tallied (0, 0)) := by
  suffices ∀ counts tally, ClassCounts.Holds counts tally →
      (text.foldl ClassCounts.push counts).Holds (text.foldl tallied tally) from
    this _ _ ⟨rfl, rfl, rfl⟩
  induction text with
  | nil => exact fun _ _ h => h
  | cons c text ih => exact fun _ _ h => ih _ _ (h.push c)

end ClassCounts.Holds

lemma foldl_tallied (text : List Char) (tally : Nat × Nat) : text.foldl tallied tally =
    (tally.1 + text.countP (·.toNat < 128), tally.2 + text.countP (128 ≤ ·.toNat)) := by
  induction text generalizing tally with
  | nil => rfl
  | cons c text ih =>
    rw [List.foldl_cons, ih, tallied]
    by_cases hc : 128 ≤ c.toNat
    · simp [hc, Nat.not_lt.mpr hc]
      omega
    · simp [hc, Nat.not_le.mp hc]
      omega

/-- **The estimate counts every character once.**  When a run ends its classes add up to its
length; at the end of the text each ASCII character is in one class and each other one apart,
so a text costs no less than an opaque payload of its length. -/
theorem estimate_counts_characters (text : String) :
    let counts := text.toList.foldl ClassCounts.push {}
    counts.endWord.run.len = counts.endWord.run.prose + counts.endWord.run.dense ∧
    counts.endRun.prose + counts.endRun.dense + counts.endRun.highEntropy =
      text.toList.countP (·.toNat < 128) ∧
    counts.endRun.nonAscii = text.toList.countP (128 ≤ ·.toNat) ∧
    estimateOpaqueTokens text ≤ estimateTextTokens text := by
  have hread := ClassCounts.Holds.read text.toList
  obtain ⟨⟨hrun, -, -⟩, hword⟩ := hread.endWord
  obtain ⟨⟨-, hascii, hnon⟩, hlen⟩ := hread.endRun
  have htally := foldl_tallied text.toList (0, 0)
  rw [htally] at hascii hnon
  simp only [estimateOpaqueTokens, estimateTextTokens, ClassCounts.finish, htally]
  omega

end Quecto.Context
