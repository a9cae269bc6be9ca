import Mathlib.Algebra.Order.Field.Basic
import Mathlib.Algebra.Order.Ring.Cast
import Mathlib.Data.List.Chain
import Mathlib.Tactic.Linarith
import Mathlib.Tactic.Ring

/-!
# Spaced times

Lists whose neighbouring entries are at least a distance apart. Such a list is sorted, and an
interval can only hold so many of them.

* `Spaced.length_le` — the length is bounded by the span
-/

namespace OtLab.Lib

variable {K : Type*} [Field K] [LinearOrder K] [IsStrictOrderedRing K] {d w : K} {l : List K}

/-- Every entry is at least `d` behind the one before it. -/
def Spaced (d : K) (l : List K) : Prop := l.IsChain fun earlier later => d ≤ later - earlier

omit [IsStrictOrderedRing K] in
theorem spaced_cons_cons {a b : K} : Spaced d (a :: b :: l) ↔ d ≤ b - a ∧ Spaced d (b :: l) :=
  List.isChain_cons_cons

omit [IsStrictOrderedRing K] in
theorem Spaced.append_singleton {x : K} (h : Spaced d l) (hx : ∀ last ∈ l.getLast?, d ≤ x - last) :
    Spaced d (l ++ [x]) := by
  refine List.IsChain.append h (List.isChain_singleton _) fun last hlast y hy => ?_
  obtain rfl := Option.some.inj hy
  exact hx last hlast

/-- Spaced times are sorted. -/
theorem Spaced.pairwise (hd : 0 < d) (h : Spaced d l) : l.Pairwise (· < ·) := by
  have hlt : l.IsChain (· < ·) := List.IsChain.imp (fun a b hab => by linarith) h
  exact hlt.pairwise

/-- The last entry is far behind the first one. -/
theorem Spaced.length_mul_le {a last : K} (h : Spaced d (a :: l))
    (hlast : (a :: l).getLast? = some last) : l.length * d ≤ last - a := by
  induction l generalizing a with
  | nil =>
    obtain rfl := Option.some.inj hlast
    simp
  | cons b l ih =>
    obtain ⟨hab, hl⟩ := spaced_cons_cons.mp h
    rw [List.getLast?_cons_cons] at hlast
    have := ih hl hlast
    rw [List.length_cons, Nat.cast_succ, add_mul, one_mul]
    linarith

/-- **An interval of length `w` holds at most `w / d + 1` spaced times.** -/
theorem Spaced.length_le (hd : 0 < d) (hw : 0 ≤ w) (h : Spaced d l)
    (hspan : ∀ a ∈ l, ∀ b ∈ l, b - a ≤ w) : (l.length : K) ≤ w / d + 1 := by
  cases l with
  | nil =>
    have hdiv : 0 ≤ w / d := div_nonneg hw hd.le
    rw [List.length_nil, Nat.cast_zero]
    linarith
  | cons a l =>
    have hlast := List.getLast?_eq_some_getLast (List.cons_ne_nil a l)
    have hfar := h.length_mul_le hlast
    have hnear := hspan a List.mem_cons_self _ (List.mem_of_getLast? hlast)
    have hdiv : (l.length : K) ≤ w / d := (le_div_iff₀ hd).mpr (hfar.trans hnear)
    rw [List.length_cons, Nat.cast_succ]
    linarith

end OtLab.Lib
