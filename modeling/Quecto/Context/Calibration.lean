/-
  Context/Calibration.lean --- the provider's count of tokens against the estimate.

  Source: `domain/inference/services/context_calibration.rs`.
-/
import Quecto.Foundation.Word

namespace Quecto.Context

open Foundation

/-- The observed ratio in permille, from the heuristic as it is to four times it. -/
structure EstimateScale where
  permille : Nat
  inRange : 1000 ≤ permille ∧ permille ≤ 4000

namespace EstimateScale

def observed (reported estimated : Nat) : EstimateScale :=
  if 0 < reported ∧ 0 < estimated then
    ⟨max 1000 (min ((reported * 1000 + (estimated - 1)) / estimated) 4000), by omega⟩
  else ⟨1000, by decide⟩

def calibrated (scale : EstimateScale) (estimate : Nat) : Nat :=
  min ((estimate * scale.permille + 999) / 1000) u64Max

def inEstimateUnits (scale : EstimateScale) (budget : Nat) : Nat :=
  let wide := budget * 1000 / scale.permille
  if wide ≤ u64Max then wide else budget

lemma calibrated_le_iff (scale : EstimateScale) (estimate : Nat) {budget : Nat}
    (h : budget < u64Max) :
    scale.calibrated estimate ≤ budget ↔ estimate ≤ scale.inEstimateUnits budget := by
  have hpos : 0 < scale.permille := Nat.lt_of_lt_of_le (by decide) scale.inRange.1
  have hunits : budget * 1000 / scale.permille ≤ budget :=
    Nat.div_le_of_le_mul (Nat.mul_comm .. ▸ Nat.mul_le_mul_right _ scale.inRange.1)
  rw [inEstimateUnits, if_pos (hunits.trans h.le), Nat.le_div_iff_mul_le hpos, calibrated]
  omega

lemma le_calibrated_observed {reported estimated : Nat} (hr : 0 < reported) (he : 0 < estimated)
    (hratio : reported ≤ 4 * estimated) (hword : reported ≤ u64Max) :
    reported ≤ (observed reported estimated).calibrated estimated := by
  have hpermille : reported * 1000 ≤ estimated * (observed reported estimated).permille := by
    rw [observed, if_pos ⟨hr, he⟩]
    have hceil := Nat.div_add_mod (reported * 1000 + (estimated - 1)) estimated
    have hmod := Nat.mod_lt (reported * 1000 + (estimated - 1)) he
    have hcap : (reported * 1000 + (estimated - 1)) / estimated ≤ 4000 :=
      Nat.le_of_lt_succ (Nat.div_lt_of_lt_mul (by omega))
    refine Nat.le_trans ?_ (Nat.mul_le_mul_left _ (Nat.le_max_right ..))
    rw [Nat.min_eq_left hcap]
    omega
  rw [calibrated]
  omega

/-- **A scale and its budget agree.**  An estimate fits a budget of calibrated tokens exactly
if it fits the budget in estimate units, and an observation within the cap is never
undercounted. -/
theorem calibration_adjoint (reported estimated : Nat) : (∀ estimate budget, budget < u64Max →
      ((observed reported estimated).calibrated estimate ≤ budget ↔
        estimate ≤ (observed reported estimated).inEstimateUnits budget)) ∧
    (0 < reported → 0 < estimated → reported ≤ 4 * estimated → reported ≤ u64Max →
      reported ≤ (observed reported estimated).calibrated estimated) :=
  ⟨fun estimate _ h => calibrated_le_iff _ estimate h, le_calibrated_observed⟩

end EstimateScale

end Quecto.Context
