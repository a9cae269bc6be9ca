import Mathlib.Algebra.Order.Archimedean.Basic
import Mathlib.Algebra.Order.Field.Basic
import Mathlib.Algebra.Order.Ring.Cast
import Mathlib.Data.List.TakeWhile
import Mathlib.Tactic.Linarith
import Mathlib.Tactic.Ring

/-!
# Evenly spaced times

Sorted times with the old ones dropped, and arithmetic progressions: what is left of a
progression in a window that ends at its last time is a progression again, of known length.

* `dropWhile_lt_eq_recent` — dropping from the front leaves exactly what is recent enough
* `recent_progression` — the window of a progression is a progression
* `le_length_window` / `length_window_le` — how many times the window holds
-/

namespace OtLab.Lib

section Recent

variable {T : Type*} [LinearOrder T] {x y : T} {l l' : List T}

/-- The times that are not before `x`. -/
def recent (x : T) (l : List T) : List T := l.filter fun t => decide (x ≤ t)

theorem recent_append (x : T) (l l' : List T) : recent x (l ++ l') = recent x l ++ recent x l' :=
  List.filter_append ..

/-- Nothing that is needed later was forgotten before. -/
theorem recent_recent (h : x ≤ y) (l : List T) : recent y (recent x l) = recent y l := by
  unfold recent
  rw [List.filter_filter]
  refine List.filter_congr fun t _ => ?_
  rw [Bool.and_eq_left_iff_imp]
  intro ht
  simp only [decide_eq_true_eq] at ht ⊢
  exact h.trans ht

theorem recent_eq_self (h : ∀ t ∈ l, x ≤ t) : recent x l = l :=
  List.filter_eq_self.mpr fun t ht => by simpa using h t ht

theorem recent_eq_nil (h : ∀ t ∈ l, t < x) : recent x l = [] :=
  List.filter_eq_nil_iff.mpr fun t ht => by simpa using h t ht

/-- In a sorted list the times before a bound stand at the front. -/
theorem dropWhile_lt_eq_recent (h : l.Pairwise (· ≤ ·)) (x : T) :
    l.dropWhile (fun t => decide (t < x)) = recent x l := by
  induction l with
  | nil => rfl
  | cons a l ih =>
    obtain ⟨ha, hl⟩ := List.pairwise_cons.mp h
    by_cases hax : a < x
    · rw [List.dropWhile_cons_of_pos (by simpa using hax), ih hl]
      exact (List.filter_cons_of_neg (by simpa using hax)).symm
    · have hxa : x ≤ a := not_lt.mp hax
      rw [List.dropWhile_cons_of_neg (by simpa using hax), recent_eq_self]
      rintro t (_ | ⟨_, ht⟩)
      · exact hxa
      · exact hxa.trans (ha t ht)

/-- Nothing in a sorted list is later than its last time. -/
theorem le_getLast (h : l.Pairwise (· ≤ ·)) {last : T} (hlast : last ∈ l.getLast?) :
    ∀ t ∈ l, t ≤ last := by
  obtain ⟨l', rfl⟩ := List.getLast?_eq_some_iff.mp hlast
  intro t ht
  rcases List.mem_append.mp ht with ht | ht
  · exact (List.pairwise_append.mp h).2.2 t ht last (by simp)
  · exact (List.mem_singleton.mp ht).le

end Recent

variable {K : Type*} [Field K] {r q w : K} {c m n : Nat}

/-- The times `r`, `r + q`, and so on, `n` of them. -/
def progression (r q : K) (n : Nat) : List K := (List.range n).map fun i : Nat => r + i * q

@[simp] theorem length_progression (r q : K) (n : Nat) : (progression r q n).length = n := by
  simp [progression]

theorem progression_succ (r q : K) (n : Nat) :
    progression r q (n + 1) = progression r q n ++ [r + n * q] := by
  simp [progression, List.range_succ]

theorem getElem_progression {i : Nat} (h : i < (progression r q n).length) :
    (progression r q n)[i] = r + i * q := by
  simp [progression]

theorem drop_progression (r q : K) (n j : Nat) :
    (progression r q n).drop j = progression (r + j * q) q (n - j) := by
  refine List.ext_getElem (by simp) fun i h1 h2 => ?_
  rw [List.getElem_drop, getElem_progression, getElem_progression]
  push_cast
  ring

theorem progression_add (r q : K) (m n : Nat) :
    progression r q (m + n) = progression r q m ++ progression (r + m * q) q n := by
  induction n with
  | zero => simp [progression]
  | succ n ih =>
    rw [← Nat.add_assoc, progression_succ, ih, progression_succ, List.append_assoc]
    push_cast
    rw [add_mul, add_assoc]

variable [LinearOrder K] [IsStrictOrderedRing K]

theorem progression_sorted (hq : 0 ≤ q) (r : K) (n : Nat) :
    (progression r q n).Pairwise (· ≤ ·) := by
  refine List.pairwise_iff_getElem.mpr fun i j hi hj hij => ?_
  rw [getElem_progression, getElem_progression]
  have hcast : (i : K) ≤ j := Nat.cast_le.mpr hij.le
  have := mul_le_mul_of_nonneg_right hcast hq
  linarith

/-- The part of a progression that is recent enough is a progression. -/
theorem recent_progression (hq : 0 ≤ q) (r x : K) (n : Nat) :
    ∃ r' n', recent x (progression r q n) = progression r' q n' := by
  rw [← dropWhile_lt_eq_recent (progression_sorted hq r n)]
  obtain ⟨l, hl⟩ := List.dropWhile_suffix (l := progression r q n) fun t => decide (t < x)
  have hdrop : (progression r q n).drop l.length
      = (progression r q n).dropWhile fun t => decide (t < x) := by
    conv_lhs => rw [← hl, List.drop_left]
  exact ⟨_, _, hdrop.symm.trans (drop_progression r q n l.length)⟩

/-- A window that is at least `c` periods long holds `c + 1` times. -/
theorem le_length_window (hq : 0 ≤ q) (hc : c * q ≤ w) (hcm : c ≤ m) (r : K) :
    c + 1 ≤ (recent (r + m * q - w) (progression r q (m + 1))).length := by
  have hsplit : m + 1 = (m - c) + (c + 1) := by omega
  have hcast : ((m - c : Nat) : K) = m - c := Nat.cast_sub hcm
  have hlast : recent (r + m * q - w) (progression (r + (m - c : Nat) * q) q (c + 1))
      = progression (r + (m - c : Nat) * q) q (c + 1) := by
    refine recent_eq_self fun t ht => ?_
    obtain ⟨i, -, rfl⟩ := List.mem_map.mp ht
    have hi : 0 ≤ (i : K) * q := mul_nonneg i.cast_nonneg hq
    rw [hcast, sub_mul]
    linarith
  rw [hsplit, progression_add, recent_append, hlast, List.length_append, length_progression]
  exact Nat.le_add_left _ _

theorem length_recent_le {T : Type*} [LinearOrder T] (x : T) (l : List T) :
    (recent x l).length ≤ l.length := List.length_filter_le _ _

/-- A window that is shorter than `c + 1` periods holds at most `c + 1` times. -/
theorem length_window_le (hq : 0 ≤ q) (hc : w < (c + 1) * q) (r : K) :
    (recent (r + m * q - w) (progression r q (m + 1))).length ≤ c + 1 := by
  by_cases hcm : c ≤ m
  · have hsplit : m + 1 = (m - c) + (c + 1) := by omega
    have hcast : ((m - c : Nat) : K) = m - c := Nat.cast_sub hcm
    have hfirst : recent (r + m * q - w) (progression r q (m - c)) = [] := by
      refine recent_eq_nil fun t ht => ?_
      obtain ⟨i, hi, rfl⟩ := List.mem_map.mp ht
      have hle : (i : K) + 1 ≤ m - c := by
        rw [← hcast]
        exact_mod_cast List.mem_range.mp hi
      have := mul_le_mul_of_nonneg_right hle hq
      linarith [add_mul (i : K) 1 q, sub_mul (m : K) c q, add_mul (c : K) 1 q]
    rw [hsplit, progression_add, recent_append, hfirst, List.nil_append]
    exact (length_recent_le _ _).trans (length_progression _ _ _).le
  · refine (length_recent_le _ _).trans ?_
    rw [length_progression]
    omega

omit [IsStrictOrderedRing K] in
/-- The first multiple of a period that reaches `x`. -/
theorem exists_first_multiple [Archimedean K] (hq : 0 < q) (x : K) :
    ∃ n : Nat, x ≤ n * q ∧ ∀ i < n, i * q < x := by
  have hex : ∃ n : Nat, x ≤ n * q := by
    obtain ⟨n, hn⟩ := Archimedean.arch x hq
    exact ⟨n, by rwa [nsmul_eq_mul] at hn⟩
  classical
  exact ⟨Nat.find hex, Nat.find_spec hex, fun i hi => not_le.mp (Nat.find_min hex hi)⟩

/-- It exceeds a positive `x` by less than a period. -/
theorem first_multiple_lt {x : K} {n : Nat} (hx : 0 < x) (hq : 0 < q)
    (h : ∀ i < n, i * q < x) : n * q < x + q := by
  cases n with
  | zero => simpa using add_pos hx hq
  | succ n =>
    have := h n (Nat.lt_succ_self n)
    push_cast
    linarith [add_mul (n : K) 1 q]

end OtLab.Lib
