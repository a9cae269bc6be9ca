import Mathlib.Algebra.Order.Group.Defs
import Mathlib.Data.List.Induction
import OtLab.Lib.Run

/-!
# Rearming alarms

A party is looked at again and again and is found up or down. One that is down is reported, but
not again before a repeat time has passed; one that is up is forgotten. The memory is one slot:
the time of the last report, if any, and an empty slot counts as a report at time 0.

* `reportedAt_iff` — what is reported, in terms of the earlier reports and nothing else
* `repeat_le_of_reportedAt` — two reports without recovery in between keep their distance
-/

namespace OtLab.Lib.Rearm

variable {T : Type*} [AddCommGroup T] [LinearOrder T]

/-- One look at the party. -/
structure Sighting (T : Type*) where
  now : T
  up : Bool

/-- The party is down, and the last report is long enough ago. -/
def reports (rep : T) (slot : Option T) (o : Sighting T) : Bool :=
  !o.up && !decide (o.now - slot.getD 0 < rep)

/-- The slot after a look. -/
def look (rep : T) (slot : Option T) (o : Sighting T) : Option T :=
  if o.up then none else if reports rep slot o then some o.now else slot

/-- The slot after a history that began with an empty one. -/
def slotAfter (rep : T) (os : List (Sighting T)) : Option T := run (look rep) none os

/-- The party was reported at the `i`-th look. -/
def ReportedAt (rep : T) (os : List (Sighting T)) (i : Nat) : Prop :=
  ∃ o, os[i]? = some o ∧ reports rep (slotAfter rep (os.take i)) o = true

/-- The party was up at the `i`-th look. -/
def UpAt (os : List (Sighting T)) (i : Nat) : Prop := ∃ o, os[i]? = some o ∧ o.up = true

variable {rep : T} {os : List (Sighting T)} {o o' : Sighting T} {i j k : Nat} {slot : Option T}
  {t : T}

theorem reports_of_up (h : o.up = true) : reports rep slot o = false := by
  simp [reports, h]

theorem reports_of_down (h : o.up = false) :
    reports rep slot o = true ↔ rep ≤ o.now - slot.getD 0 := by
  simp [reports, h]

theorem slotAfter_take_succ (h : os[i]? = some o) :
    slotAfter rep (os.take (i + 1)) = look rep (slotAfter rep (os.take i)) o :=
  run_take_succ h _

theorem reportedAt_iff_reports (h : os[i]? = some o) :
    ReportedAt rep os i ↔ reports rep (slotAfter rep (os.take i)) o = true := by
  constructor
  · rintro ⟨o', ho', hr⟩
    obtain rfl := Option.some.inj (h.symm.trans ho')
    exact hr
  · exact fun hr => ⟨o, h, hr⟩

omit [AddCommGroup T] [LinearOrder T] in
theorem upAt_iff (h : os[i]? = some o) : UpAt os i ↔ o.up = true := by
  constructor
  · rintro ⟨o', ho', hu⟩
    obtain rfl := Option.some.inj (h.symm.trans ho')
    exact hu
  · exact fun hu => ⟨o, h, hu⟩

theorem not_upAt_of_reportedAt (h : ReportedAt rep os i) : ¬ UpAt os i := by
  obtain ⟨o, ho, hr⟩ := h
  intro hu
  rw [reports_of_up ((upAt_iff ho).mp hu)] at hr
  exact absurd hr (by decide)

/-- The last report before the `i`-th look was at time `t`, and the party was not up since. -/
def LastReport (rep : T) (os : List (Sighting T)) (i : Nat) (t : T) : Prop :=
  ∃ j < i, ∃ o, os[j]? = some o ∧ o.now = t ∧ ReportedAt rep os j ∧
    ∀ k, j < k → k < i → ¬ ReportedAt rep os k ∧ ¬ UpAt os k

/-- Every report before the `i`-th look was followed by a recovery. -/
def Rearmed (rep : T) (os : List (Sighting T)) (i : Nat) : Prop :=
  ∀ j < i, ReportedAt rep os j → ∃ k, j < k ∧ k < i ∧ UpAt os k

/-- A look that is down and not reported leaves the last report as it is. -/
theorem LastReport.succ (h : LastReport rep os i t) (hr : ¬ ReportedAt rep os i)
    (hu : ¬ UpAt os i) : LastReport rep os (i + 1) t := by
  obtain ⟨j, hj, o, ho, ht, hrj, hsince⟩ := h
  refine ⟨j, by omega, o, ho, ht, hrj, fun k hjk hk => ?_⟩
  rcases Nat.lt_succ_iff_lt_or_eq.mp hk with hk | rfl
  · exact hsince k hjk hk
  · exact ⟨hr, hu⟩

theorem Rearmed.succ (h : Rearmed rep os i) (hr : ¬ ReportedAt rep os i) :
    Rearmed rep os (i + 1) := by
  intro j hj hrj
  rcases Nat.lt_succ_iff_lt_or_eq.mp hj with hj | rfl
  · obtain ⟨k, hjk, hki, hup⟩ := h j hj hrj
    exact ⟨k, hjk, by omega, hup⟩
  · exact absurd hrj hr

theorem Rearmed.of_upAt (h : UpAt os i) : Rearmed rep os (i + 1) := by
  intro j hj hrj
  have hne : j ≠ i := by
    rintro rfl
    exact not_upAt_of_reportedAt hrj h
  exact ⟨i, by omega, by omega, h⟩

/-- **What the slot remembers**: the last report, unless the party has been up since. -/
theorem slotAfter_cases (hi : i ≤ os.length) :
    (∃ t, slotAfter rep (os.take i) = some t ∧ LastReport rep os i t) ∨
      (slotAfter rep (os.take i) = none ∧ Rearmed rep os i) := by
  induction i with
  | zero => exact Or.inr ⟨rfl, fun j hj => absurd hj (Nat.not_lt_zero j)⟩
  | succ i ih =>
    have ho : os[i]? = some os[i] := List.getElem?_eq_getElem (by omega)
    rw [slotAfter_take_succ ho, look]
    by_cases hu : os[i].up = true
    · rw [if_pos hu]
      exact Or.inr ⟨rfl, .of_upAt ((upAt_iff ho).mpr hu)⟩
    rw [if_neg hu]
    by_cases hr : reports rep (slotAfter rep (os.take i)) os[i] = true
    · rw [if_pos hr]
      refine Or.inl ⟨os[i].now, rfl, i, by omega, os[i], ho, rfl, ?_, by omega⟩
      exact (reportedAt_iff_reports ho).mpr hr
    rw [if_neg hr]
    have hnot : ¬ ReportedAt rep os i := mt (reportedAt_iff_reports ho).mp hr
    rcases ih (by omega) with ⟨t, hslot, hlast⟩ | ⟨hslot, hrearmed⟩
    · exact Or.inl ⟨t, hslot, hlast.succ hnot (mt (upAt_iff ho).mp hu)⟩
    · exact Or.inr ⟨hslot, hrearmed.succ hnot⟩

/-- A party that was up at the look before, or never looked at, is reported when it is down. -/
theorem reportedAt_of_rearmed (ho : os[i]? = some o) (hdown : o.up = false) (hclock : rep ≤ o.now)
    (h : Rearmed rep os i) : ReportedAt rep os i := by
  have hi : i ≤ os.length := (List.getElem?_eq_some_iff.mp ho).1.le
  rw [reportedAt_iff_reports ho, reports_of_down hdown]
  rcases @slotAfter_cases _ _ _ rep os i hi with ⟨t, -, hlast⟩ | ⟨hslot, -⟩
  · -- a remembered report without recovery would not be rearmed
    obtain ⟨j, hj, -, -, -, hrj, hsince⟩ := hlast
    obtain ⟨k, hjk, hki, hup⟩ := h j hj hrj
    exact absurd hup (hsince k hjk hki).2
  · rw [hslot]
    simpa using hclock

/--
**Reports are exact over histories.**

At clock readings of at least the repeat time, a party is reported exactly when it is down and it
was up since every earlier report, or the last report is at least the repeat time ago.
-/
theorem reportedAt_iff (hclock : ∀ o ∈ os, rep ≤ o.now) (ho : os[i]? = some o) :
    ReportedAt rep os i ↔ o.up = false ∧
      (Rearmed rep os i ∨
        ∃ j < i, ∃ o', os[j]? = some o' ∧ ReportedAt rep os j ∧
          (∀ k, j < k → k < i → ¬ ReportedAt rep os k) ∧ rep ≤ o.now - o'.now) := by
  have hi : i ≤ os.length := (List.getElem?_eq_some_iff.mp ho).1.le
  have hnow : rep ≤ o.now := hclock o (List.mem_of_getElem? ho)
  have hslots := @slotAfter_cases _ _ _ rep os i hi
  constructor
  · intro h
    have hdown : o.up = false := by
      simpa using mt (upAt_iff ho).mpr (not_upAt_of_reportedAt h)
    rw [reportedAt_iff_reports ho, reports_of_down hdown] at h
    refine ⟨hdown, ?_⟩
    rcases hslots with ⟨t, hslot, j, hj, o', ho', rfl, hrj, hsince⟩ | ⟨-, hrearmed⟩
    · rw [hslot] at h
      exact Or.inr ⟨j, hj, o', ho', hrj, fun k hjk hki => (hsince k hjk hki).1, h⟩
    · exact Or.inl hrearmed
  · rintro ⟨hdown, hrearmed | ⟨j, hj, o', ho', hrj, hlast, hrep⟩⟩
    · exact reportedAt_of_rearmed ho hdown hnow hrearmed
    rw [reportedAt_iff_reports ho, reports_of_down hdown]
    rcases hslots with ⟨t, hslot, j', hj', o'', ho'', rfl, hrj', hsince⟩ | ⟨hslot, -⟩
    · -- the last report is the one remembered
      have hle : ¬ j < j' := fun hlt => hlast j' hlt hj' hrj'
      have hge : ¬ j' < j := fun hlt => (hsince j hlt hj).1 hrj
      obtain rfl : j = j' := by omega
      obtain rfl := Option.some.inj (ho'.symm.trans ho'')
      rw [hslot]
      exact hrep
    · rw [hslot]
      simpa using hnow

/-- Two reports without recovery in between are at least the repeat time apart. -/
theorem repeat_le_of_reportedAt [IsOrderedAddMonoid T]
    (hmono : os.Pairwise fun o o' => o.now ≤ o'.now) (hjk : j < k) (hoj : os[j]? = some o)
    (hok : os[k]? = some o') (hj : ReportedAt rep os j) (hk : ReportedAt rep os k)
    (hdown : ∀ l, j < l → l < k → ¬ UpAt os l) : rep ≤ o'.now - o.now := by
  have hlen : k ≤ os.length := (List.getElem?_eq_some_iff.mp hok).1.le
  have hdownk : o'.up = false := by
    simpa using mt (upAt_iff hok).mpr (not_upAt_of_reportedAt hk)
  rw [reportedAt_iff_reports hok, reports_of_down hdownk] at hk
  rcases @slotAfter_cases _ _ _ rep os k hlen with
    ⟨t, hslot, m, hm, om, hom, rfl, hrm, hsince⟩ | ⟨-, hrearmed⟩
  · -- the report that is remembered is not earlier than the `j`-th
    rw [hslot] at hk
    have hjm : j ≤ m := Nat.le_of_not_lt fun hlt => (hsince j hlt hjk).1 hj
    have hle : o.now ≤ om.now := by
      rcases Nat.eq_or_lt_of_le hjm with rfl | hlt
      · exact (congrArg Sighting.now (Option.some.inj (hoj.symm.trans hom))).le
      · obtain ⟨hmlen, rfl⟩ := List.getElem?_eq_some_iff.mp hom
        obtain ⟨hjlen, rfl⟩ := List.getElem?_eq_some_iff.mp hoj
        exact List.pairwise_iff_getElem.mp hmono _ _ hjlen hmlen hlt
    exact hk.trans (sub_le_sub_left hle _)
  · obtain ⟨l, hjl, hlk, hup⟩ := hrearmed j hjk hj
    exact absurd hup (hdown l hjl hlk)

end OtLab.Lib.Rearm
