/-
  Foundation/Word.lean --- unsigned 64-bit arithmetic over `Nat`, and blocks of addresses.
-/
import Mathlib.Algebra.BigOperators.Group.List.Basic
import Mathlib.Algebra.Order.Group.Nat
import Mathlib.Data.BitVec

namespace Quecto.Foundation

def u64Max : Nat := 2 ^ 64 - 1

def checkedAdd (a b : Nat) : Option Nat :=
  if a + b ≤ u64Max then some (a + b) else none

def saturatingAdd (a b : Nat) : Nat := min (a + b) u64Max

def saturatingMul (a b : Nat) : Nat := min (a * b) u64Max

def wrappingAdd (a b : Nat) : Nat := (a + b) % 2 ^ 64

lemma wrappingAdd_of_le {a b : Nat} (h : a + b ≤ u64Max) : wrappingAdd a b = a + b :=
  Nat.mod_eq_of_lt (Nat.lt_of_le_of_lt h (by decide))

lemma checkedAdd_eq_some {a b c : Nat} : checkedAdd a b = some c ↔ a + b = c ∧ a + b ≤ u64Max := by
  unfold checkedAdd
  split
  · rename_i h
    simp [h]
  · rename_i h
    simp [h]

/-! ## Saturating sums -/

lemma saturatingAdd_le (a b : Nat) : saturatingAdd a b ≤ u64Max := Nat.min_le_right _ _

@[simp] lemma saturatingAdd_min_left (a b : Nat) :
    saturatingAdd (min a u64Max) b = saturatingAdd a b := by
  unfold saturatingAdd
  omega

@[simp] lemma saturatingAdd_min_right (a b : Nat) :
    saturatingAdd a (min b u64Max) = saturatingAdd a b := by
  unfold saturatingAdd
  omega

def saturatingSum (xs : List Nat) : Nat := xs.foldl saturatingAdd 0

lemma foldl_saturatingAdd {a : Nat} (h : a ≤ u64Max) (xs : List Nat) :
    xs.foldl saturatingAdd a = min (a + xs.sum) u64Max := by
  induction xs generalizing a with
  | nil => rw [List.foldl_nil, List.sum_nil, Nat.add_zero, Nat.min_eq_left h]
  | cons x xs ih =>
    rw [List.foldl_cons, ih (saturatingAdd_le a x), List.sum_cons]
    unfold saturatingAdd
    omega

lemma saturatingSum_eq (xs : List Nat) : saturatingSum xs = min xs.sum u64Max := by
  rw [saturatingSum, foldl_saturatingAdd (Nat.zero_le _), Nat.zero_add]

variable {w : Nat}

def leadingMask (w length : Nat) : BitVec w :=
  if w - length < w then BitVec.allOnes w <<< (w - length) else 0

/-- The address with only its leading `length` bits. -/
def masked (address : BitVec w) (length : Nat) : BitVec w := address &&& leadingMask w length

def leading (length : Nat) (address : BitVec w) : Nat := address.toNat / 2 ^ (w - length)

variable (address : BitVec w) (length : Nat)

lemma getLsbD_masked (i : Nat) :
    (masked address length).getLsbD i = (address.getLsbD i && decide (w - length ≤ i)) := by
  unfold masked leadingMask
  split
  · rw [BitVec.getLsbD_and]
    by_cases hi : i < w
    · by_cases hle : w - length ≤ i
      · simp [hi, hle, Nat.not_lt_of_le hle]
      · simp [hle, Nat.lt_of_not_le hle]
    · rw [BitVec.getLsbD_of_ge address i (Nat.le_of_not_lt hi), Bool.false_and, Bool.false_and]
  · by_cases hi : i < w
    · have hle : ¬ w - length ≤ i := by omega
      simp [hle]
    · rw [BitVec.getLsbD_of_ge address i (Nat.le_of_not_lt hi)]
      simp

@[simp] lemma masked_masked : masked (masked address length) length = masked address length := by
  apply BitVec.eq_of_getLsbD_eq
  intro i _
  rw [getLsbD_masked, getLsbD_masked, Bool.and_assoc, Bool.and_self]

lemma masked_eq_shift : masked address length = (address >>> (w - length)) <<< (w - length) := by
  apply BitVec.eq_of_getLsbD_eq
  intro i hi
  rw [getLsbD_masked]
  by_cases hle : w - length ≤ i
  · simp [hi, hle, Nat.not_lt_of_le hle]
  · simp [hle, Nat.lt_of_not_le hle]

lemma toNat_masked : (masked address length).toNat = leading length address * 2 ^ (w - length) := by
  rw [masked_eq_shift, BitVec.toNat_shiftLeft, BitVec.toNat_ushiftRight, Nat.shiftRight_eq_div_pow,
    Nat.shiftLeft_eq]
  exact Nat.mod_eq_of_lt (Nat.lt_of_le_of_lt (Nat.div_mul_le_self _ _) address.isLt)

lemma masked_eq_iff (a b : BitVec w) (length : Nat) :
    masked a length = masked b length ↔ leading length a = leading length b := by
  rw [← BitVec.toNat_inj, toNat_masked, toNat_masked]
  exact Nat.mul_left_inj (Nat.two_pow_pos _).ne'

structure Block (w : Nat) where
  base : BitVec w
  length : Nat
  deriving DecidableEq

namespace Block

def contains (block : Block w) (address : BitVec w) : Bool :=
  masked address block.length == masked block.base block.length

def Holds (block : Block w) (address : BitVec w) : Prop :=
  leading block.length address = leading block.length block.base

instance (block : Block w) (address : BitVec w) : Decidable (block.Holds address) :=
  inferInstanceAs (Decidable (_ = _))

lemma contains_iff (block : Block w) (address : BitVec w) :
    block.contains address = true ↔ block.Holds address := by
  rw [contains, beq_iff_eq, masked_eq_iff, Holds]

lemma not_contains_iff (block : Block w) (address : BitVec w) :
    (!block.contains address) = true ↔ ¬ block.Holds address := by
  rw [Bool.not_eq_true', ← contains_iff, Bool.not_eq_true]

end Block

end Quecto.Foundation
