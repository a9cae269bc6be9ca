import Mathlib.Algebra.Order.BigOperators.Group.List
import Mathlib.Algebra.Order.Field.Basic
import Mathlib.Algebra.Order.Ring.Cast
import Mathlib.Tactic.Linarith
import Mathlib.Tactic.Ring

/-!
# Mean and variance of a list

The variance of values between two bounds is at most the product of the distances of their mean
from the bounds. Of all values with a given mean, those at the two bounds vary most.

* `variance_le` — the bound on the variance
* `variance_le_mul_sq_mean` — the coefficient of variation of values between two near bounds
-/

namespace OtLab.Lib

variable {K : Type*} [Field K] [LinearOrder K] [IsStrictOrderedRing K] {values : List K}
  {low high : K}

def mean (values : List K) : K := values.sum / values.length

def variance (values : List K) : K :=
  (values.map fun value => (value - mean values) ^ 2).sum / values.length

omit [LinearOrder K] [IsStrictOrderedRing K] in
/-- The squared deviations from any center, and the products of the distances from the bounds. -/
theorem sum_sq_deviations (values : List K) (center low high : K) :
    (values.map fun value => (value - center) ^ 2).sum
      = (low + high - 2 * center) * values.sum + values.length * (center ^ 2 - low * high)
        - (values.map fun value => (value - low) * (high - value)).sum := by
  induction values with
  | nil => simp
  | cons value values ih =>
    simp only [List.map_cons, List.sum_cons, List.length_cons, Nat.cast_succ]
    rw [ih]
    ring

theorem length_cast_pos (h : values ≠ []) : (0 : K) < values.length :=
  Nat.cast_pos.mpr (List.length_pos_iff.mpr h)

theorem mul_mean (h : values ≠ []) : values.length * mean values = values.sum :=
  mul_div_cancel₀ _ (length_cast_pos h).ne'

/-- A mean is at least the least of its values. -/
theorem le_mean (h : values ≠ []) (hlow : ∀ x ∈ values, low ≤ x) : low ≤ mean values := by
  unfold mean
  rw [le_div_iff₀ (length_cast_pos h), mul_comm, ← nsmul_eq_mul]
  exact List.card_nsmul_le_sum values low hlow

/-- **The variance of values between two bounds.** -/
theorem variance_le (h : values ≠ []) (hb : ∀ x ∈ values, low ≤ x ∧ x ≤ high) :
    variance values ≤ (high - mean values) * (mean values - low) := by
  have hpos := length_cast_pos h
  have hproducts : 0 ≤ (values.map fun value => (value - low) * (high - value)).sum := by
    refine List.sum_nonneg fun x hx => ?_
    obtain ⟨value, hvalue, rfl⟩ := List.mem_map.mp hx
    obtain ⟨hlow, hhigh⟩ := hb value hvalue
    exact mul_nonneg (sub_nonneg.mpr hlow) (sub_nonneg.mpr hhigh)
  unfold variance
  rw [div_le_iff₀ hpos, sum_sq_deviations values (mean values) low high, ← mul_mean h]
  calc
    _ ≤ (low + high - 2 * mean values) * (values.length * mean values)
          + values.length * (mean values ^ 2 - low * high) := sub_le_self _ hproducts
    _ = (high - mean values) * (mean values - low) * values.length := by ring

/--
**The coefficient of variation of values whose bounds are near each other.** It is greatest for
values at both bounds whose mean is the harmonic mean of the bounds.
-/
theorem variance_le_mul_sq_mean {c : K} (h : values ≠ []) (hb : ∀ x ∈ values, low ≤ x ∧ x ≤ high)
    (hc : 0 ≤ c) (hnear : (high - low) ^ 2 ≤ 4 * c * (low * high)) :
    variance values ≤ c * mean values ^ 2 := by
  refine (variance_le h hb).trans (sub_nonneg.mp ?_)
  have hsquare : 4 * (1 + c) * (c * mean values ^ 2 - (high - mean values) * (mean values - low))
      = (2 * (1 + c) * mean values - (low + high)) ^ 2
        + (4 * c * (low * high) - (high - low) ^ 2) := by ring
  have hnonneg : 0 ≤ 4 * (1 + c) *
      (c * mean values ^ 2 - (high - mean values) * (mean values - low)) := by
    rw [hsquare]
    exact add_nonneg (sq_nonneg _) (sub_nonneg.mpr hnear)
  exact nonneg_of_mul_nonneg_right hnonneg (by linarith)

end OtLab.Lib
