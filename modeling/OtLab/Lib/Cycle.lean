import Mathlib.Data.Int.ModEq
import OtLab.Lib.Run

/-!
# Limit cycles

A map runs through a cycle of `p` states. A trajectory that meets the cycle stays on it, so from
then on its states are equal exactly at times that agree modulo `p`.

* `Cycle.iterate_eq_iff` — which late states of a trajectory are equal
-/

namespace OtLab.Lib

variable {σ : Type*} {f : σ → σ} {p : ℕ} {s : σ}

/-- A cycle of `p` states. -/
structure Cycle (f : σ → σ) (p : ℕ) where
  state : ℕ → σ
  step : ∀ i, f (state i) = state (i + 1)
  eq_iff : ∀ i j, state i = state j ↔ i ≡ j [MOD p]

namespace Cycle

variable (c : Cycle f p)

theorem iterate_state (i n : ℕ) : f^[n] (c.state i) = c.state (i + n) := by
  induction n with
  | zero => rfl
  | succ n ih => rw [Function.iterate_succ_apply', ih, c.step, Nat.add_assoc]

/-- A trajectory that has met the cycle by the time `late` is on it from then on. -/
theorem settles {k i late : ℕ} (h : f^[k] s = c.state i) (hk : k ≤ late) :
    ∃ i, ∀ n, f^[late + n] s = c.state (i + n) := by
  refine ⟨i + (late - k), fun n => ?_⟩
  have hsplit : late + n = (late - k + n) + k := by omega
  rw [hsplit, Function.iterate_add_apply, h, c.iterate_state, Nat.add_assoc]

/-- **Late states are equal exactly when their times agree modulo the length of the cycle.** -/
theorem iterate_eq_iff {i late m n : ℕ} (h : ∀ n, f^[late + n] s = c.state (i + n))
    (hm : late ≤ m) (hn : late ≤ n) : f^[m] s = f^[n] s ↔ m ≡ n [MOD p] := by
  obtain ⟨m, rfl⟩ := Nat.exists_eq_add_of_le hm
  obtain ⟨n, rfl⟩ := Nat.exists_eq_add_of_le hn
  rw [h, h, c.eq_iff]
  have hcancel : ∀ a, a + m ≡ a + n [MOD p] ↔ m ≡ n [MOD p] := fun a =>
    ⟨Nat.ModEq.add_left_cancel' a, Nat.ModEq.add_left a⟩
  rw [hcancel, hcancel]

end Cycle

end OtLab.Lib
