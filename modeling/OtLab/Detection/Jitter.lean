import OtLab.Detection.Beacon
import OtLab.Lib.Variation

/-!
# Jittered beacons

How far the intervals of a beacon may differ before `interval_regularity` takes them for irregular.
The square root is that of the reals.

* `jitter_tolerated` — intervals of which the longest is at most 1.9 times the shortest are regular
-/

namespace OtLab.Beacon

open Lib

/-- The times of flows with the given intervals, from a first one. -/
def timestamps (start : ℝ) (values : List ℝ) : List ℝ := values.scanl (· + ·) start

theorem intervals_timestamps (start : ℝ) (values : List ℝ) :
    intervals (timestamps start values) = values := by
  induction values generalizing start with
  | nil => rfl
  | cons value values ih =>
    have hnext : timestamps start (value :: values)
        = start :: timestamps (start + value) values := List.scanl_cons
    obtain ⟨rest, hrest⟩ : ∃ rest, timestamps (start + value) values = (start + value) :: rest := by
      cases values with
      | nil => exact ⟨[], List.scanl_nil⟩
      | cons next values => exact ⟨_, List.scanl_cons⟩
    have ih := ih (start + value)
    rw [hrest] at hnext ih
    rw [hnext]
    show (start + value - start) :: intervals ((start + value) :: rest) = _
    rw [ih, add_sub_cancel_left]

/-- Positive intervals of similar length that are not too short on average. -/
structure Jittered (cfg : Config ℝ) (values : List ℝ) : Prop where
  pos : ∀ x ∈ values, 0 < x
  ratio : ∀ x ∈ values, ∀ y ∈ values, x ≤ 19 / 10 * y
  minInterval : cfg.minInterval ≤ mean values

variable {cfg : Config ℝ} {values times : List ℝ}

/-- The variance of jittered intervals, whose bounds are the shortest one and 1.9 times that. -/
theorem Jittered.variance_le (h : Jittered cfg values) (hne : values ≠ []) :
    variance values ≤ 49 / 400 * mean values ^ 2 := by
  obtain ⟨low, hlow, hmin⟩ := values.toFinset.exists_min_image id
    (List.toFinset_nonempty_iff _ |>.mpr hne)
  rw [List.mem_toFinset] at hlow
  have hbounds : ∀ x ∈ values, low ≤ x ∧ x ≤ 19 / 10 * low := fun x hx =>
    ⟨hmin x (List.mem_toFinset.mpr hx), h.ratio x hx low hlow⟩
  have hnear : (19 / 10 * low - low) ^ 2 ≤ 4 * (49 / 400) * (low * (19 / 10 * low)) := by
    have hsq : 0 ≤ low ^ 2 := sq_nonneg low
    calc
      (19 / 10 * low - low) ^ 2 = 81 / 100 * low ^ 2 := by ring
      _ ≤ 931 / 1000 * low ^ 2 := mul_le_mul_of_nonneg_right (by norm_num) hsq
      _ = 4 * (49 / 400) * (low * (19 / 10 * low)) := by ring
  exact variance_le_mul_sq_mean hne hbounds (by norm_num) hnear

theorem Jittered.mean_pos (h : Jittered cfg values) (hne : values ≠ []) : 0 < mean values := by
  have hpos := length_cast_pos (K := ℝ) hne
  exact div_pos (List.sum_pos values h.pos hne) hpos

/-- The coefficient of variation of some intervals. -/
noncomputable def coefficient (values : List ℝ) : ℝ := Real.sqrt (variance values) / mean values

theorem Jittered.coefficient_le (h : Jittered cfg values) (hne : values ≠ []) :
    coefficient values ≤ 7 / 20 := by
  have hpos := h.mean_pos hne
  unfold coefficient
  rw [div_le_iff₀ hpos]
  refine (Real.sqrt_le_left (by positivity)).mpr ?_
  calc
    variance values ≤ 49 / 400 * mean values ^ 2 := h.variance_le hne
    _ = (7 / 20 * mean values) ^ 2 := by ring

/-- What `interval_regularity` returns. -/
theorem Jittered.intervalRegularity (h : Jittered cfg (intervals times))
    (hne : intervals times ≠ []) :
    Beacon.intervalRegularity cfg Real.sqrt times
      = some (coefficient (intervals times), mean (intervals times)) := by
  have hpos := h.mean_pos hne
  unfold Beacon.intervalRegularity
  dsimp only
  rw [if_neg (List.length_pos_iff.mpr hne).ne']
  show (if mean (intervals times) < cfg.minInterval then _ else
    if mean (intervals times) = 0 then _ else _) = _
  rw [if_neg (not_lt.mpr h.minInterval), if_neg hpos.ne']
  rfl

/-- A deque that is long enough and jittered is judged to be a beacon. -/
theorem Jittered.judge (h : Jittered cfg (intervals times)) (hne : intervals times ≠ [])
    (hcv : 7 / 20 ≤ cfg.maxCv) (hlen : cfg.minEvents ≤ times.length) :
    ∃ r, (Beacon.judge cfg Real.sqrt times).2 = some r := by
  unfold Beacon.judge
  rw [if_neg (Nat.not_lt.mpr hlen), h.intervalRegularity hne]
  dsimp only
  rw [if_neg (not_lt.mpr ((h.coefficient_le hne).trans hcv))]
  exact ⟨_, rfl⟩

/--
**Jitter is tolerated.**

Positive intervals of which the longest is at most 1.9 times the shortest have a coefficient of
variation of at most 0.35, in any order and however many there are. A call that fills a deque with
such times raises an alert for its key.
-/
theorem jitter_tolerated (cfg : Config ℝ) (hmin : 2 ≤ cfg.minEvents) (hcv : 7 / 20 ≤ cfg.maxCv) :
    (∀ (start : ℝ) (values : List ℝ), values ≠ [] → Jittered cfg values →
      intervalRegularity cfg Real.sqrt (timestamps start values)
        = some (Real.sqrt (variance values) / mean values, mean values) ∧
      Real.sqrt (variance values) / mean values ≤ 7 / 20) ∧
    ∀ (round : ℝ → Nat → ℝ) (st : BeaconTimes ℝ) (key : Key) (now : ℝ),
      ¬ Debounced cfg (st key) now →
      cfg.minEvents ≤ (recorded cfg (st key) now).length →
      Jittered cfg (intervals (recorded cfg (st key) now)) →
      ∃ r, (checkBeacon cfg Real.sqrt round key now st).2 = some (alert round key r) := by
  constructor
  · intro start values hne h
    have hvalues := intervals_timestamps start values
    refine ⟨?_, h.coefficient_le hne⟩
    rw [← hvalues] at h hne
    rw [h.intervalRegularity hne, hvalues]
    rfl
  · intro round st key now hdeb hlen h
    have hne : intervals (recorded cfg (st key) now) ≠ [] := by
      rw [← List.length_pos_iff, intervals, List.length_zipWith, List.length_tail]
      omega
    obtain ⟨r, hr⟩ := h.judge hne hcv hlen
    refine ⟨r, ?_⟩
    unfold checkBeacon
    dsimp only
    rw [sample_of_not_debounced hdeb, hr]
    rfl

theorem jittered_example : Jittered defaultConfig [10, 19, 10, 10] := by
  refine ⟨?_, ?_, ?_⟩
  · simp only [List.forall_mem_cons]
    norm_num
  · simp only [List.forall_mem_cons]
    norm_num
  · norm_num [mean, defaultConfig]

/-- A skewed mix of intervals of ten and nineteen seconds raises an alert at the fifth flow. -/
theorem jitter_tolerated_skewed :
    Real.sqrt (variance [10, 19, 10, 10]) / mean [10, 19, 10, 10] ≤ (7 / 20 : ℝ) ∧
    ∃ r, (checkBeacon defaultConfig Real.sqrt exactRound beacon 49 fun _ => [0, 10, 29, 39]).2
      = some (alert exactRound beacon r) := by
  have hrecorded : recorded defaultConfig [0, 10, 29, 39] (49 : ℝ) = [0, 10, 29, 39, 49] := by
    norm_num [recorded, defaultConfig]
  have hintervals : intervals [0, 10, 29, 39, 49] = [(10 : ℝ), 19, 10, 10] := by
    norm_num [intervals]
  have htolerated := jitter_tolerated defaultConfig (by decide) (by norm_num [defaultConfig])
  refine ⟨(htolerated.1 0 _ (by simp) jittered_example).2,
    htolerated.2 exactRound _ beacon 49 ?_ ?_ ?_⟩
  · norm_num [Debounced, defaultConfig]
  · rw [hrecorded]
    decide
  · rw [hrecorded, hintervals]
    exact jittered_example

end OtLab.Beacon
