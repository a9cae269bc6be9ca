import Mathlib.Algebra.Order.Group.Defs
import Mathlib.Data.List.Induction
import Mathlib.Order.Interval.Set.Basic
import OtLab.Lib.Run

/-!
# Sliding windows

A tracker counts observations over a sliding window and fires once, as soon as the window holds
enough of them. It keeps only the observations that were still inside the window at the last one.

* `fires_run_iff` — forgetting the others never changes when it fires
* `fired_run_iff` — it has fired once some window held enough observations
* `exists_window_iff_burst` — which is when enough of them lie within the window's length
-/

namespace OtLab.Lib

variable {T : Type*} [AddCommGroup T] [LinearOrder T]

/-- The times less than `w` before `now`. -/
def inWindow (w now : T) (l : List T) : List T := l.filter fun t => now - w < t

theorem inWindow_append (w now : T) (l l' : List T) :
    inWindow w now (l ++ l') = inWindow w now l ++ inWindow w now l' := List.filter_append ..

/-- Pruning at an earlier time loses nothing a later window still contains. -/
theorem inWindow_inWindow [IsOrderedAddMonoid T] {w m now : T} (h : m ≤ now) (l : List T) :
    inWindow w now (inWindow w m l) = inWindow w now l := by
  unfold inWindow
  rw [List.filter_filter]
  refine List.filter_congr fun t _ => ?_
  rw [Bool.and_eq_left_iff_imp]
  intro ht
  simp only [decide_eq_true_eq] at ht ⊢
  exact lt_of_le_of_lt (sub_le_sub_right h w) ht

/-- Adding the time `now` to its window would neither change the times nor reach `n` of them. -/
def Settled (w now : T) (n : Nat) (times : List T) : Prop :=
  inWindow w now times ++ [now] = times ∧ times.length < n

/-- Adding a time to one list of many changes nothing and reaches nothing when it is settled. -/
theorem update_eq_iff_settled {κ : Type*} [DecidableEq κ] {w now : T} {n : Nat} {state : κ → List T}
    {k : κ} :
    (decide (n ≤ (inWindow w now (state k) ++ [now]).length),
      Function.update state k (inWindow w now (state k) ++ [now])) = (false, state) ↔
      Settled w now n (state k) := by
  rw [Prod.mk.injEq, decide_eq_false_iff_not, Nat.not_le, Function.update_eq_self_iff]
  constructor
  · rintro ⟨hlt, heq⟩
    exact ⟨heq, by rwa [heq] at hlt⟩
  · rintro ⟨heq, hlt⟩
    exact ⟨by rwa [heq], heq⟩

/-- In a window that is not empty a time is always one more. -/
theorem not_settled [IsOrderedAddMonoid T] {w now : T} (hw : 0 < w) (n : Nat) (times : List T) :
    ¬ Settled w now n times := by
  rintro ⟨heq, -⟩
  have hcount := congrArg (List.count now) heq
  rw [List.count_append, inWindow, List.count_filter (by simpa using hw),
    List.count_singleton_self] at hcount
  omega

/-- The window up to `now`, when nothing is later than `now`. -/
theorem inWindow_eq_filter_Ioc {w now : T} {l : List T} (h : ∀ t ∈ l, t ≤ now) :
    inWindow w now l = l.filter fun t => t ∈ Set.Ioc (now - w) now := by
  refine List.filter_congr fun t ht => ?_
  simp [Set.mem_Ioc, h t ht]

/-- Some window that ends at an observation holds `n` of them when `n` lie within its length. -/
theorem exists_window_iff_burst [IsOrderedAddMonoid T] {w : T} {n : Nat} {times : List T}
    (hn : 1 ≤ n) (h : times.Pairwise (· ≤ ·)) :
    (∃ t ∈ times, n ≤ (times.filter fun u => u ∈ Set.Ioc (t - w) t).length) ↔
      ∃ burst : List T, burst.Sublist times ∧ burst.length = n ∧
        ∀ u ∈ burst, ∀ v ∈ burst, v - u < w := by
  constructor
  · rintro ⟨t, -, hcount⟩
    refine ⟨(times.filter fun u => u ∈ Set.Ioc (t - w) t).take n,
      (List.take_sublist _ _).trans List.filter_sublist, List.length_take_of_le hcount, ?_⟩
    intro u hu v hv
    have hin : ∀ x ∈ (times.filter fun u => u ∈ Set.Ioc (t - w) t).take n, t - w < x ∧ x ≤ t :=
      fun x hx => of_decide_eq_true (List.mem_filter.mp (List.mem_of_mem_take hx)).2
    have hut : t - u < w := sub_lt_comm.mp (hin u hu).1
    exact lt_of_le_of_lt (sub_le_sub_right (hin v hv).2 u) hut
  · rintro ⟨burst, hsub, hlen, hclose⟩
    rcases List.eq_nil_or_concat burst with rfl | ⟨l, t, rfl⟩
    · simp at hlen
      omega
    rw [List.concat_eq_append] at hsub hlen hclose
    obtain ⟨-, -, hle⟩ := List.pairwise_append.mp (h.sublist hsub)
    refine ⟨t, hsub.subset (by simp), ?_⟩
    have hall : (l ++ [t]).filter (fun u => u ∈ Set.Ioc (t - w) t) = l ++ [t] := by
      refine List.filter_eq_self.mpr fun u hu => decide_eq_true ⟨?_, ?_⟩
      · exact sub_lt_comm.mp (hclose u hu t (by simp))
      · rcases List.mem_append.mp hu with hu | hu
        · exact hle u hu t (by simp)
        · exact (List.mem_singleton.mp hu).le
    rw [← hlen, ← hall]
    exact (hsub.filter _).length_le

/-! ## Trackers -/

/-- The observations a tracker still keeps, and whether it has fired. -/
structure Tracker (T : Type*) where
  kept : List T
  fired : Bool

namespace Tracker

/-- Nothing observed yet. -/
def fresh : Tracker T := ⟨[], false⟩

/-- The observations kept after one at `now`. -/
def prune (w now : T) (s : Tracker T) : List T := inWindow w now s.kept ++ [now]

/-- The tracker fires at `now`. -/
def fires (w : T) (n : Nat) (s : Tracker T) (now : T) : Bool :=
  !s.fired && decide (n ≤ (s.prune w now).length)

/-- One observation; after firing the tracker does not change any more. -/
def observe (w : T) (n : Nat) (s : Tracker T) (now : T) : Tracker T :=
  if s.fired then s else ⟨s.prune w now, s.fires w n now⟩

variable {w now : T} {n : Nat} {s : Tracker T}

theorem observe_of_fired (h : s.fired = true) : s.observe w n now = s := if_pos h

theorem observe_of_not_fired (h : s.fired = false) :
    s.observe w n now = ⟨s.prune w now, s.fires w n now⟩ := by
  unfold observe
  rw [if_neg (by simp [h])]

theorem fired_observe : (s.observe w n now).fired = (s.fired || s.fires w n now) := by
  cases h : s.fired with
  | true => rw [observe_of_fired h, h, Bool.true_or]
  | false => rw [observe_of_not_fired h, Bool.false_or]

theorem run_observe_of_fired {times : List T} (h : s.fired = true) :
    run (observe w n) s times = s := by
  induction times with
  | nil => rfl
  | cons t times ih => rw [run_cons, observe_of_fired h, ih]

/-- As long as it has not fired, the kept observations are enough for every later window. -/
theorem inWindow_kept_run [IsOrderedAddMonoid T] {times : List T}
    (hf : (run (observe w n) fresh times).fired = false) (h : ∀ t ∈ times, t ≤ now) :
    inWindow w now (run (observe w n) fresh times).kept = inWindow w now times := by
  induction times using List.reverseRecOn with
  | nil => rfl
  | append_singleton times m ih =>
    -- the last observation pruned at its own time, which is not after `now`
    have hm : m ≤ now := h m (by simp)
    have hle : ∀ t ∈ times, t ≤ now := fun t ht => h t (List.mem_append_left _ ht)
    rw [run_append, run_cons, run_nil] at hf ⊢
    rw [fired_observe, Bool.or_eq_false_iff] at hf
    rw [observe_of_not_fired hf.1, inWindow_append, ← ih hf.1 hle]
    show inWindow w now (inWindow w m _ ++ [m]) = _
    rw [inWindow_append, inWindow_inWindow hm]

/--
**A tracker fires exactly when it has not fired before and the window holds `n` observations.**

The count is over everything observed, not over what the tracker kept.
-/
theorem fires_run_iff [IsOrderedAddMonoid T] {times : List T} (hw : 0 < w)
    (h : ∀ t ∈ times, t ≤ now) :
    (run (observe w n) fresh times).fires w n now = true ↔
      (run (observe w n) fresh times).fired = false ∧
        n ≤ ((times ++ [now]).filter fun t => t ∈ Set.Ioc (now - w) now).length := by
  unfold fires
  rw [Bool.and_eq_true, Bool.not_eq_true', decide_eq_true_eq]
  refine and_congr_right fun hf => ?_
  have hle : ∀ t ∈ times ++ [now], t ≤ now := by
    intro t ht
    rcases List.mem_append.mp ht with ht | ht
    · exact h t ht
    · exact (List.mem_singleton.mp ht).le
  have hnow : inWindow w now [now] = [now] := by
    simp [inWindow, hw]
  rw [← inWindow_eq_filter_Ioc hle, inWindow_append, hnow, prune, inWindow_kept_run hf h]

/-- A window that ends before the last observation does not contain it. -/
theorem filter_Ioc_append_of_lt {times : List T} {t : T} (h : t < now) :
    (times ++ [now]).filter (fun u => decide (u ∈ Set.Ioc (t - w) t))
      = times.filter fun u => u ∈ Set.Ioc (t - w) t := by
  have hnil : [now].filter (fun u => decide (u ∈ Set.Ioc (t - w) t)) = [] := by
    simp [h]
  rw [List.filter_append, hnil, List.append_nil]

/--
**A tracker has fired exactly when a window that ended at an observation held `n` of them.**
-/
theorem fired_run_iff [IsOrderedAddMonoid T] {times : List T} (hw : 0 < w)
    (h : times.Pairwise (· ≤ ·)) :
    (run (observe w n) fresh times).fired = true ↔
      ∃ t ∈ times, n ≤ (times.filter fun u => u ∈ Set.Ioc (t - w) t).length := by
  induction times using List.reverseRecOn with
  | nil => simp [fresh]
  | append_singleton times m ih =>
    obtain ⟨hp, -, hle⟩ := List.pairwise_append.mp h
    have hlast : ∀ t ∈ times, t ≤ m := fun t ht => hle t ht m (List.mem_singleton_self m)
    rw [run_append, run_cons, run_nil, fired_observe, Bool.or_eq_true, fires_run_iff hw hlast]
    constructor
    · rintro (hf | ⟨-, hcount⟩)
      · obtain ⟨t, ht, hcount⟩ := (ih hp).mp hf
        refine ⟨t, List.mem_append_left _ ht, hcount.trans ?_⟩
        exact ((List.sublist_append_left times [m]).filter _).length_le
      · exact ⟨m, List.mem_append_right _ (List.mem_singleton_self m), hcount⟩
    · rintro ⟨t, ht, hcount⟩
      cases hf : (run (observe w n) fresh times).fired with
      | true => exact Or.inl rfl
      | false =>
        -- nothing before was enough, so the window ends at the last observation
        refine Or.inr ⟨rfl, ?_⟩
        have htm : t = m := by
          rcases List.mem_append.mp ht with ht | ht
          · refine (hlast t ht).eq_or_lt.resolve_right fun hlt => ?_
            rw [filter_Ioc_append_of_lt hlt] at hcount
            rw [(ih hp).mpr ⟨t, ht, hcount⟩] at hf
            cases hf
          · exact List.mem_singleton.mp ht
        rwa [htm] at hcount

end Tracker

end OtLab.Lib
