import Mathlib.Algebra.Order.Floor.Defs
import Mathlib.Analysis.Real.Sqrt
import Mathlib.Data.List.Induction
import OtLab.Lib.Progression
import OtLab.Lib.Run
import OtLab.Net.Packet

/-!
# Beaconing

`check_beacon` of `firewall_events.py` records the times of denied flows, one deque for every key,
and raises `C2_BEACON` when the recorded intervals are regular. Arithmetic is exact: times are
elements of an ordered field, and the square root is a parameter.

* `sample_silent` — what a deque holds after a flow that raises no alert
* `periodic_train_found` — a periodic train is found whatever its deque held before
* `slow_train_not_found` — a train that is too slow is not
* `periodic_beacons_found` — both, for the deques of all keys and interleaved calls
-/

namespace OtLab.Beacon

open Lib

/-! ## The detector -/

section Detector

variable {K : Type*} [Field K] [LinearOrder K]

/-- The parameters read from `OT_BEACON_*` variables. -/
structure Config (K : Type*) where
  window : K
  minEvents : Nat
  minInterval : K
  maxCv : K
  debounce : K

/-- Their defaults. -/
def defaultConfig : Config K :=
  { window := 60, minEvents := 5, minInterval := 1 / 2, maxCv := 7 / 20, debounce := 2 }

/-- The intervals between consecutive times. -/
def intervals (times : List K) : List K :=
  List.zipWith (fun earlier later => later - earlier) times times.tail

/-- `interval_regularity`; `none` is a `ZeroDivisionError`. -/
def intervalRegularity (cfg : Config K) (sqrt : K → K) (times : List K) : Option (K × K) :=
  let values := intervals times
  if values.length = 0 then none
  else
    let mean := values.sum / values.length
    if mean < cfg.minInterval then some (1, mean)
    else if mean = 0 then none
    else
      let deviations : List K := values.map fun value => (value - mean) ^ 2
      let variance := deviations.sum / values.length
      some (sqrt variance / mean, mean)

/-- The key of a deque. -/
structure Key where
  srcIp : String
  dstIp : String
  dstPort : Int
  proto : String
deriving DecidableEq, Repr

/-- `_beacon_times`; a missing deque is empty. -/
abbrev BeaconTimes (K : Type*) := Key → List K

/-- What an alert reports of a deque: its length, the mean interval and the coefficient. -/
structure Regularity (K : Type*) where
  count : Nat
  mean : K
  coefficient : K

/-- A flow right behind the last recorded one is a retransmission. -/
def Debounced (cfg : Config K) (times : List K) (now : K) : Prop :=
  ∃ last ∈ times.getLast?, now - last < cfg.debounce

instance (cfg : Config K) (times : List K) (now : K) : Decidable (Debounced cfg times now) := by
  unfold Debounced
  infer_instance

/-- The deque with a flow recorded and the old times popped. -/
def recorded (cfg : Config K) (times : List K) (now : K) : List K :=
  (times ++ [now]).dropWhile fun t => decide (t < now - cfg.window)

/--
The rest of `check_beacon`, where an alert clears the deque. A `ZeroDivisionError` would leave
`check_beacon` here, with the deque as it is.
-/
def judge (cfg : Config K) (sqrt : K → K) (times : List K) : List K × Option (Regularity K) :=
  if times.length < cfg.minEvents then (times, none)
  else
    match intervalRegularity cfg sqrt times with
    | none => (times, none)
    | some (coefficient, mean) =>
      if cfg.maxCv < coefficient then (times, none)
      else ([], some ⟨times.length, mean, coefficient⟩)

/-- `check_beacon` on the deque of its key. -/
def sample (cfg : Config K) (sqrt : K → K) (times : List K) (now : K) :
    List K × Option (Regularity K) :=
  if Debounced cfg times now then (times, none) else judge cfg sqrt (recorded cfg times now)

/-- A `C2_BEACON` alert: the texts and whole numbers, and the two rounded entries. -/
structure Alert (K : Type*) where
  fields : Dict
  intervalSeconds : K
  intervalCv : K

/--
The alert for a key. `round` is a parameter, since Python rounds the binary fraction that a float
is.
-/
def alert (round : K → Nat → K) (key : Key) (r : Regularity K) : Alert K where
  fields :=
    [ ("alert_type", .str "C2_BEACON"),
      ("source_ip", .str key.srcIp),
      ("dest_ip", .str key.dstIp),
      ("dest_port", .int key.dstPort),
      ("proto", .str key.proto),
      ("beacon_count", .int r.count),
      ("mitre_id", .str "T0869"),
      ("description", .str ("Regular-interval egress from an OT host to the enterprise/C2 "
        ++ "address (denied by the zone firewall): C2 beaconing pattern.")) ]
  intervalSeconds := round r.mean 2
  intervalCv := round r.coefficient 3

/-- `check_beacon`: the deques and the alert it raises. -/
def checkBeacon (cfg : Config K) (sqrt : K → K) (round : K → Nat → K) (key : Key) (now : K)
    (st : BeaconTimes K) : BeaconTimes K × Option (Alert K) :=
  let r := sample cfg sqrt (st key) now
  (Function.update st key r.1, r.2.map (alert round key))

end Detector

/-! ## One deque -/

section Deque

variable {K : Type*} [Field K] [LinearOrder K] {cfg : Config K} {sqrt : K → K} {times : List K}
  {now : K}

theorem sample_of_debounced (h : Debounced cfg times now) :
    sample cfg sqrt times now = (times, none) := if_pos h

theorem sample_of_not_debounced (h : ¬ Debounced cfg times now) :
    sample cfg sqrt times now = judge cfg sqrt (recorded cfg times now) := if_neg h

/-- Without an alert the deque stays. -/
theorem judge_silent (h : (judge cfg sqrt times).2 = none) : (judge cfg sqrt times).1 = times := by
  unfold judge at h ⊢
  split
  · rfl
  next hlen =>
  rw [if_neg hlen] at h
  split
  · rfl
  next coefficient mean hreg =>
  rw [hreg] at h
  dsimp only at h
  split
  · rfl
  next hcv =>
  rw [if_neg hcv] at h
  cases h

/-- The deque after a flow that raises no alert. -/
def kept (cfg : Config K) (times : List K) (now : K) : List K :=
  if Debounced cfg times now then times else recorded cfg times now

/-- **What a deque holds after a flow that raises no alert.** -/
theorem sample_silent (h : (sample cfg sqrt times now).2 = none) :
    (sample cfg sqrt times now).1 = kept cfg times now := by
  unfold kept
  by_cases hd : Debounced cfg times now
  · rw [sample_of_debounced hd, if_pos hd]
  · rw [sample_of_not_debounced hd] at h ⊢
    rw [judge_silent h, if_neg hd]

/-- A short deque raises no alert. -/
theorem judge_of_length_lt (h : times.length < cfg.minEvents) :
    (judge cfg sqrt times).2 = none := by
  unfold judge
  rw [if_pos h]

/-- A perfectly regular deque that is long enough raises one. -/
theorem judge_of_regular (hlen : cfg.minEvents ≤ times.length) {mean : K}
    (hreg : intervalRegularity cfg sqrt times = some (0, mean)) (hcv : 0 ≤ cfg.maxCv) :
    (judge cfg sqrt times).2 ≠ none := by
  have hcv' : ¬ cfg.maxCv < 0 := not_lt.mpr hcv
  unfold judge
  rw [if_neg (Nat.not_lt.mpr hlen), hreg]
  dsimp only
  rw [if_neg hcv']
  exact nofun

/-- A sorted deque stays sorted, and popping leaves what the window still contains. -/
theorem recorded_eq (h : times.Pairwise (· ≤ ·)) (hlast : ∀ last ∈ times.getLast?, last ≤ now) :
    recorded cfg times now = recent (now - cfg.window) (times ++ [now]) ∧
      (recorded cfg times now).Pairwise (· ≤ ·) := by
  have hle : ∀ t ∈ times, t ≤ now := by
    intro t ht
    have hne : times ≠ [] := List.ne_nil_of_mem ht
    have hl := List.getLast?_eq_some_getLast hne
    exact (le_getLast h hl t ht).trans (hlast _ hl)
  have hsorted : (times ++ [now]).Pairwise (· ≤ ·) := by
    refine List.pairwise_append.mpr ⟨h, List.pairwise_singleton _ _, fun t ht t' ht' => ?_⟩
    rw [List.mem_singleton.mp ht']
    exact hle t ht
  refine ⟨dropWhile_lt_eq_recent hsorted _, hsorted.sublist (List.dropWhile_sublist _)⟩

theorem not_debounced_iff :
    ¬ Debounced cfg times now ↔ ∀ last ∈ times.getLast?, cfg.debounce ≤ now - last := by
  simp [Debounced]

theorem judge_sorted (h : times.Pairwise (· ≤ ·)) :
    (judge cfg sqrt times).1.Pairwise (· ≤ ·) := by
  unfold judge
  split
  · exact h
  split
  · exact h
  split
  · exact h
  · exact List.Pairwise.nil

variable [IsStrictOrderedRing K]

/-- Whatever the clock does, a sorted deque stays sorted. -/
theorem sample_sorted (hd : 0 ≤ cfg.debounce) (h : times.Pairwise (· ≤ ·)) :
    (sample cfg sqrt times now).1.Pairwise (· ≤ ·) := by
  by_cases hdeb : Debounced cfg times now
  · rw [sample_of_debounced hdeb]
    exact h
  · rw [sample_of_not_debounced hdeb]
    refine judge_sorted (recorded_eq h fun last hlast => ?_).2
    have := not_debounced_iff.mp hdeb last hlast
    linarith

omit [LinearOrder K] [IsStrictOrderedRing K] in
theorem intervals_progression (r q : K) (n : Nat) :
    intervals (progression r q (n + 1)) = List.replicate n q := by
  refine List.ext_getElem (by simp [intervals]) fun i h1 h2 => ?_
  simp only [intervals, List.getElem_zipWith, List.getElem_tail, getElem_progression,
    List.getElem_replicate]
  push_cast
  ring

/-- A progression is perfectly regular. -/
theorem intervalRegularity_progression {q : K} {n : Nat} (hsqrt : sqrt 0 = 0) (hq : 0 < q)
    (hmin : cfg.minInterval ≤ q) (hn : 0 < n) (r : K) :
    intervalRegularity cfg sqrt (progression r q (n + 1)) = some (0, q) := by
  have hn' : (n : K) ≠ 0 := Nat.cast_ne_zero.mpr hn.ne'
  have hmean : (List.replicate n q).sum / n = q := by
    rw [List.sum_replicate, nsmul_eq_mul, mul_div_cancel_left₀ q hn']
  have hdeviations : ((List.replicate n q).map fun value => (value - q) ^ 2).sum / (n : K) = 0 := by
    rw [List.map_replicate, sub_self, List.sum_replicate]
    simp
  unfold intervalRegularity
  simp only [intervals_progression, List.length_replicate, if_neg hn.ne', hmean,
    if_neg (not_lt.mpr hmin), if_neg hq.ne', hdeviations, hsqrt, zero_div]

end Deque

/-! ## A periodic train -/

section Train

variable {K : Type*} [Field K] [LinearOrder K] [IsStrictOrderedRing K] {cfg : Config K}
  {sqrt : K → K} {deque : List K} {p t0 : K} {a k : Nat}

/-- The deque after the first `i` flows of a train, none of which raises an alert. -/
def dequeAt (cfg : Config K) (deque : List K) (t0 p : K) (i : Nat) : List K :=
  run (kept cfg) deque (progression t0 p i)

omit [IsStrictOrderedRing K] in
theorem dequeAt_succ (i : Nat) :
    dequeAt cfg deque t0 p (i + 1) = kept cfg (dequeAt cfg deque t0 p i) (t0 + i * p) := by
  unfold dequeAt
  rw [progression_succ, run_append, run_cons, run_nil]

omit [IsStrictOrderedRing K] in
/-- Debounced flows leave the deque as it is. -/
theorem dequeAt_of_debounced {i n : Nat}
    (h : ∀ j < n, Debounced cfg (dequeAt cfg deque t0 p i) (t0 + (i + j : Nat) * p)) :
    dequeAt cfg deque t0 p (i + n) = dequeAt cfg deque t0 p i := by
  induction n with
  | zero => rfl
  | succ n ih =>
    have hprev := ih fun j hj => h j (by omega)
    rw [← Nat.add_assoc, dequeAt_succ, hprev, kept, if_pos (h n (Nat.lt_succ_self n))]

/--
How a train is sampled: flow `a` is the first one far enough behind the deque, and of the later
flows every `k`-th one is recorded.
-/
structure Sampled (cfg : Config K) (deque : List K) (t0 p : K) (a k : Nat) : Prop where
  first : ∀ last ∈ deque.getLast?, cfg.debounce ≤ t0 + a * p - last
  before : ∀ i < a, ∃ last ∈ deque.getLast?, t0 + i * p - last < cfg.debounce
  period : cfg.debounce ≤ k * p
  between : ∀ j < k, j * p < cfg.debounce

/-- The window at the `m`-th recorded flow. -/
def windowAt (cfg : Config K) (deque : List K) (r q : K) (m : Nat) : List K :=
  recent (r + m * q - cfg.window) (deque ++ progression r q (m + 1))

theorem windowAt_getLast? (hw : 0 ≤ cfg.window) (deque : List K) (r q : K) (m : Nat) :
    (windowAt cfg deque r q m).getLast? = some (r + m * q) := by
  have hlast : recent (r + m * q - cfg.window) [r + m * q] = [r + m * q] :=
    recent_eq_self fun t ht => by rw [List.mem_singleton.mp ht]; linarith
  rw [windowAt, progression_succ, ← List.append_assoc, recent_append, hlast,
    List.getLast?_append, List.getLast?_singleton, Option.some_or]

theorem windowAt_sorted {r q : K} (h : deque.Pairwise (· ≤ ·)) (hr : ∀ t ∈ deque, t ≤ r)
    (hq : 0 ≤ q) (m : Nat) : (windowAt cfg deque r q m).Pairwise (· ≤ ·) := by
  refine List.Pairwise.sublist List.filter_sublist (List.pairwise_append.mpr
    ⟨h, progression_sorted hq r (m + 1), fun t ht t' ht' => ?_⟩)
  obtain ⟨i, -, rfl⟩ := List.mem_map.mp ht'
  have hi : 0 ≤ (i : K) * q := mul_nonneg i.cast_nonneg hq
  linarith [hr t ht]

/-- Recording the next sample moves the window on. -/
theorem recorded_windowAt {r q : K} (hw : 0 ≤ cfg.window) (h : deque.Pairwise (· ≤ ·))
    (hr : ∀ t ∈ deque, t ≤ r) (hq : 0 ≤ q) (m : Nat) :
    recorded cfg (windowAt cfg deque r q m) (r + (m + 1 : Nat) * q)
      = windowAt cfg deque r q (m + 1) := by
  have hstep : r + m * q ≤ r + (m + 1 : Nat) * q := by
    push_cast
    linarith [add_mul (m : K) 1 q]
  have hlast : ∀ last ∈ (windowAt cfg deque r q m).getLast?, last ≤ r + (m + 1 : Nat) * q := by
    intro last hlast
    rw [windowAt_getLast? hw] at hlast
    exact (Option.some.inj hlast) ▸ hstep
  rw [(recorded_eq (windowAt_sorted h hr hq m) hlast).1, recent_append, windowAt,
    recent_recent (sub_le_sub_right hstep _), ← recent_append, List.append_assoc,
    ← progression_succ]
  rfl

theorem Sampled.pos (hs : Sampled cfg deque t0 p a k) (hd : 0 < cfg.debounce) : 0 < k := by
  refine Nat.pos_of_ne_zero ?_
  rintro rfl
  have := hs.period
  rw [Nat.cast_zero, zero_mul] at this
  linarith

theorem Sampled.last_le (hs : Sampled cfg deque t0 p a k) (hd : 0 < cfg.debounce) :
    ∀ last ∈ deque.getLast?, last ≤ t0 + a * p := by
  intro last hlast
  linarith [hs.first last hlast]

theorem Sampled.le_first (hs : Sampled cfg deque t0 p a k) (hd : 0 < cfg.debounce)
    (h : deque.Pairwise (· ≤ ·)) : ∀ t ∈ deque, t ≤ t0 + a * p := by
  intro t ht
  have hl := List.getLast?_eq_some_getLast (List.ne_nil_of_mem ht)
  exact (le_getLast h hl t ht).trans (hs.last_le hd _ hl)

omit [IsStrictOrderedRing K] in
theorem Sampled.dequeAt_first (hs : Sampled cfg deque t0 p a k) :
    dequeAt cfg deque t0 p a = deque := by
  rw [← Nat.zero_add a]
  refine dequeAt_of_debounced fun j hj => ?_
  rw [Nat.zero_add]
  exact hs.before j hj

/-- A flow that is recorded is the last one recorded until the next sample. -/
theorem Sampled.dequeAt_next (hs : Sampled cfg deque t0 p a k) (hw : 0 ≤ cfg.window) {m : Nat}
    (hk : 0 < k)
    (hnot : ¬ Debounced cfg (dequeAt cfg deque t0 p (a + m * k)) (t0 + (a + m * k : Nat) * p))
    (hrec : recorded cfg (dequeAt cfg deque t0 p (a + m * k)) (t0 + (a + m * k : Nat) * p)
      = windowAt cfg deque (t0 + a * p) (k * p) m) :
    dequeAt cfg deque t0 p (a + (m + 1) * k) = windowAt cfg deque (t0 + a * p) (k * p) m := by
  have hsampled : dequeAt cfg deque t0 p (a + m * k + 1)
      = windowAt cfg deque (t0 + a * p) (k * p) m := by
    rw [dequeAt_succ, kept, if_neg hnot, hrec]
  have hindex : a + (m + 1) * k = a + m * k + 1 + (k - 1) := by
    rw [Nat.succ_mul]
    omega
  rw [hindex, dequeAt_of_debounced, hsampled]
  intro j hj
  rw [hsampled]
  refine ⟨_, windowAt_getLast? hw deque (t0 + a * p) (k * p) m, ?_⟩
  have htime : t0 + (a + m * k + 1 + j : Nat) * p
      = t0 + a * p + m * (k * p) + (1 + j : Nat) * p := by
    push_cast
    ring
  have := hs.between (1 + j) (by omega)
  linarith

/-- **How the deque moves along a train that raises no alert.** -/
theorem dequeAt_sampled (hs : Sampled cfg deque t0 p a k) (hw : 0 ≤ cfg.window)
    (hd : 0 < cfg.debounce) (hp : 0 ≤ p) (h : deque.Pairwise (· ≤ ·)) (m : Nat) :
    ¬ Debounced cfg (dequeAt cfg deque t0 p (a + m * k)) (t0 + (a + m * k : Nat) * p) ∧
      recorded cfg (dequeAt cfg deque t0 p (a + m * k)) (t0 + (a + m * k : Nat) * p)
        = windowAt cfg deque (t0 + a * p) (k * p) m := by
  induction m with
  | zero =>
    rw [Nat.zero_mul, Nat.add_zero, hs.dequeAt_first]
    refine ⟨not_debounced_iff.mpr hs.first, ?_⟩
    rw [(recorded_eq h (hs.last_le hd)).1, windowAt, progression_succ]
    simp [progression]
  | succ m ih =>
    obtain ⟨hnot, hrec⟩ := ih
    have hq : 0 ≤ k * p := mul_nonneg k.cast_nonneg hp
    have hnow : t0 + (a + (m + 1) * k : Nat) * p = t0 + a * p + (m + 1 : Nat) * (k * p) := by
      push_cast
      ring
    rw [hs.dequeAt_next hw (hs.pos hd) hnot hrec, hnow]
    refine ⟨not_debounced_iff.mpr fun last hl => ?_,
      recorded_windowAt hw h (hs.le_first hd h) hq m⟩
    rw [windowAt_getLast? hw] at hl
    obtain rfl := Option.some.inj hl
    push_cast
    linarith [hs.period, add_mul (m : K) 1 (k * p)]

/-- One deque and the alerts raised from it. -/
def watchStep (cfg : Config K) (sqrt : K → K) (st : List K × List (Regularity K)) (now : K) :
    List K × List (Regularity K) :=
  let r := sample cfg sqrt st.1 now
  (r.1, st.2 ++ r.2.toList)

/-- A deque after some flows, and the alerts meanwhile. -/
def watch (cfg : Config K) (sqrt : K → K) (deque : List K) (times : List K) :
    List K × List (Regularity K) := run (watchStep cfg sqrt) (deque, []) times

omit [IsStrictOrderedRing K] in
theorem watch_succ (n : Nat) :
    watch cfg sqrt deque (progression t0 p (n + 1))
      = watchStep cfg sqrt (watch cfg sqrt deque (progression t0 p n)) (t0 + n * p) := by
  rw [watch, progression_succ, run_append, run_cons, run_nil]
  rfl

omit [IsStrictOrderedRing K] in
/-- A train none of whose flows raises an alert. -/
theorem watch_of_silent {n : Nat}
    (h : ∀ i < n, (sample cfg sqrt (dequeAt cfg deque t0 p i) (t0 + i * p)).2 = none) :
    watch cfg sqrt deque (progression t0 p n) = (dequeAt cfg deque t0 p n, []) := by
  induction n with
  | zero => rfl
  | succ n ih =>
    have hnow := h n (Nat.lt_succ_self n)
    rw [watch_succ, ih fun i hi => h i (by omega), watchStep, dequeAt_succ, sample_silent hnow,
      hnow]
    rfl

omit [IsStrictOrderedRing K] in
/-- As long as there is no alert, every flow is sampled from the deque of a silent train. -/
theorem silent_of_watch {n : Nat} (h : (watch cfg sqrt deque (progression t0 p n)).2 = []) :
    ∀ i < n, (sample cfg sqrt (dequeAt cfg deque t0 p i) (t0 + i * p)).2 = none := by
  induction n with
  | zero => exact fun i hi => absurd hi (Nat.not_lt_zero i)
  | succ n ih =>
    rw [watch_succ, watchStep] at h
    obtain ⟨hbefore, hnow⟩ := List.append_eq_nil_iff.mp h
    rw [watch_of_silent (ih hbefore), Option.toList_eq_nil_iff] at hnow
    intro i hi
    rcases Nat.lt_succ_iff_lt_or_eq.mp hi with hi | rfl
    · exact ih hbefore i hi
    · exact hnow

/-- Every train behind the deque is sampled, with a period of 2 to 15 seconds. -/
theorem exists_sampled [Archimedean K] (hp : 0 < p) (hp15 : p ≤ 15)
    (hstart : ∀ last ∈ deque.getLast?, last ≤ t0) :
    ∃ a k, Sampled defaultConfig deque t0 p a k ∧ a ≤ k ∧ (k * p : K) ≤ 15 := by
  obtain ⟨k, hk, hkmin⟩ := exists_first_multiple hp 2
  have hk15 : (k * p : K) ≤ 15 := by
    rcases le_or_gt 2 p with h2 | h2
    · -- every flow is recorded
      have hk1 : k ≤ 1 := by
        by_contra hlt
        have := hkmin 1 (not_le.mp hlt)
        rw [Nat.cast_one, one_mul] at this
        linarith
      have hcast : (k : K) ≤ 1 := by exact_mod_cast hk1
      have := mul_le_mul_of_nonneg_right hcast hp.le
      linarith
    · have := first_multiple_lt two_pos hp hkmin
      linarith
  cases hlast : deque.getLast? with
  | none =>
    exact ⟨0, k, ⟨by simp [hlast], by simp, hk, hkmin⟩, Nat.zero_le k, hk15⟩
  | some last =>
    have hle : last ≤ t0 := hstart last hlast
    obtain ⟨a, ha, hamin⟩ := exists_first_multiple hp (2 - (t0 - last))
    have hak : a ≤ k := by
      by_contra hka
      have := hamin k (not_le.mp hka)
      linarith
    refine ⟨a, k, ⟨?_, ?_, hk, hkmin⟩, hak, hk15⟩
    · intro l hl
      obtain rfl := Option.some.inj (hlast.symm.trans hl)
      show 2 ≤ _
      linarith
    · intro i hi
      refine ⟨last, hlast, ?_⟩
      show _ < (2 : K)
      linarith [hamin i hi]

/-- A window of a progression that is wide enough raises an alert. -/
theorem judge_windowAt {r q : K} {m : Nat} (hsqrt : sqrt 0 = 0) (hq2 : 2 ≤ q) (hq15 : q ≤ 15)
    (hm : 60 ≤ m * q) (hold : ∀ t ∈ deque, t + 2 ≤ r) :
    (judge defaultConfig sqrt (windowAt defaultConfig deque r q m)).2 ≠ none := by
  have hq : 0 ≤ q := by linarith
  have hm4 : 4 ≤ m := by
    by_contra hlt
    have hcast : (m : K) ≤ 3 := by exact_mod_cast (by omega : m ≤ 3)
    have := mul_le_mul_of_nonneg_right hcast hq
    linarith
  -- whatever the deque held before has left the window
  have hwindow : windowAt defaultConfig deque r q m
      = recent (r + m * q - 60) (progression r q (m + 1)) := by
    have hnone : recent (r + m * q - 60) deque = [] :=
      recent_eq_nil fun t ht => by linarith [hold t ht]
    rw [windowAt, recent_append]
    show recent (r + m * q - 60) deque ++ _ = _
    rw [hnone]
    rfl
  obtain ⟨r', n, hprogression⟩ := recent_progression hq r (r + m * q - 60) (m + 1)
  have hlen : 5 ≤ n := by
    have hc : ((4 : Nat) : K) * q ≤ 60 := by
      push_cast
      linarith
    have hle := le_length_window hq hc hm4 r
    rwa [hprogression, length_progression] at hle
  obtain ⟨n, rfl⟩ : ∃ n', n = n' + 1 := ⟨n - 1, by omega⟩
  rw [hwindow, hprogression]
  refine judge_of_regular (by rw [length_progression]; exact hlen)
    (intervalRegularity_progression hsqrt (by linarith) ?_ (by omega) r') ?_
  · show (1 / 2 : K) ≤ q
    linarith
  · show (0 : K) ≤ 7 / 20
    positivity

/--
**A periodic train is found**, whatever its deque held before.

Its flows are sampled with a period `q` of 2 to 15 seconds. After 60 seconds of samples the window
holds samples only, at least five of them, and their intervals are all the same.
-/
theorem periodic_train_found [Archimedean K] {N : Nat} (hsqrt : sqrt 0 = 0)
    (h : deque.Pairwise (· ≤ ·)) (hstart : ∀ last ∈ deque.getLast?, last ≤ t0) (hp : 0 < p)
    (hp15 : p ≤ 15) (hN : 120 ≤ N * p) :
    (watch defaultConfig sqrt deque (progression t0 p (N + 1))).2 ≠ [] := by
  intro hsilent
  obtain ⟨a, k, hs, hak, hk15⟩ := exists_sampled hp hp15 hstart
  have hk2 : 2 ≤ k * p := hs.period
  have hq : 0 < k * p := by linarith
  obtain ⟨m, hm, hmin⟩ := exists_first_multiple hq 60
  -- the sample at which the window is full comes within the train
  have hindex : a + m * k < N + 1 := by
    have hm75 : m * (k * p) < 60 + k * p := first_multiple_lt (by norm_num) hq hmin
    have hcast : (a : K) ≤ k := by exact_mod_cast hak
    have ha := mul_le_mul_of_nonneg_right hcast hp.le
    have htime : ((a + m * k : Nat) : K) * p < N * p := by
      push_cast
      linarith [add_mul (a : K) (m * k) p, mul_assoc (m : K) k p]
    have := lt_of_mul_lt_mul_right htime hp.le
    have hlt : a + m * k < N := by exact_mod_cast this
    omega
  obtain ⟨hnot, hrec⟩ := dequeAt_sampled hs (by norm_num [defaultConfig])
    (by norm_num [defaultConfig]) hp.le h m
  have hnone := silent_of_watch hsilent (a + m * k) hindex
  rw [sample_of_not_debounced hnot, hrec] at hnone
  refine judge_windowAt hsqrt hk2 hk15 hm (fun t ht => ?_) hnone
  have hl := List.getLast?_eq_some_getLast (List.ne_nil_of_mem ht)
  have hfirst : 2 ≤ t0 + a * p - _ := hs.first _ hl
  linarith [le_getLast h hl t ht]

/-- **A train that is too slow is not found**, from an empty deque. -/
theorem slow_train_not_found (hp : 15 < p) (n : Nat) :
    (watch defaultConfig sqrt [] (progression t0 p n)).2 = [] := by
  have hs : Sampled defaultConfig ([] : List K) t0 p 0 1 := by
    refine ⟨by simp, by simp, ?_, fun j hj => ?_⟩
    · show (2 : K) ≤ _
      rw [Nat.cast_one, one_mul]
      linarith
    · obtain rfl : j = 0 := by omega
      show _ < (2 : K)
      rw [Nat.cast_zero, zero_mul]
      exact two_pos
  have hp0 : 0 ≤ p := by linarith
  rw [watch_of_silent]
  intro i _
  obtain ⟨hnot, hrec⟩ := dequeAt_sampled hs (by norm_num [defaultConfig])
    (by norm_num [defaultConfig]) hp0 List.Pairwise.nil i
  rw [Nat.zero_add, Nat.mul_one] at hnot hrec
  rw [sample_of_not_debounced hnot, hrec]
  refine judge_of_length_lt (Nat.lt_succ_of_le ?_)
  -- four periods are longer than the window
  have hc : (60 : K) < ((3 : Nat) + 1) * ((1 : Nat) * p) := by
    push_cast
    linarith
  rw [windowAt, List.nil_append]
  exact length_window_le (mul_nonneg (Nat.cast_nonneg _) hp0) hc _

/-- Whatever the clock does, a deque is sorted. -/
theorem watch_sorted (hd : 0 ≤ cfg.debounce) (times : List K) :
    (watch cfg sqrt [] times).1.Pairwise (· ≤ ·) := by
  have hall : StepsMeet (watchStep cfg sqrt) (fun _ _ => True) ([], []) times :=
    stepsMeet_of_forall (fun _ _ => trivial) _
  refine run_invariant (fun st => st.1.Pairwise (· ≤ ·)) ?_ List.Pairwise.nil hall
  exact fun st now h _ => sample_sorted hd h

end Train

/-! ## The deques of all keys -/

section Detect

variable {K : Type*} [Field K] [LinearOrder K]

/-- A call of `check_beacon`. -/
structure Call (K : Type*) where
  key : Key
  now : K

/-- One call, with the alerts so far. -/
def call (cfg : Config K) (sqrt : K → K) (round : K → Nat → K)
    (st : BeaconTimes K × List (Alert K)) (c : Call K) : BeaconTimes K × List (Alert K) :=
  let r := checkBeacon cfg sqrt round c.key c.now st.1
  (r.1, st.2 ++ r.2.toList)

/-- The deques after some calls, and the alerts they raised. -/
def detect (cfg : Config K) (sqrt : K → K) (round : K → Nat → K) (st : BeaconTimes K)
    (calls : List (Call K)) : BeaconTimes K × List (Alert K) :=
  run (call cfg sqrt round) (st, []) calls

/-- An alert was raised for a key. -/
def Raised (round : K → Nat → K) (key : Key) (alerts : List (Alert K)) : Prop :=
  ∃ r, alert round key r ∈ alerts

omit [Field K] [LinearOrder K] in
/-- The times of the calls for a key. -/
def timesOf (key : Key) (calls : List (Call K)) : List K :=
  (calls.filter fun c => c.key = key).map Call.now

variable {cfg : Config K} {sqrt : K → K} {round : K → Nat → K} {st : BeaconTimes K} {key : Key}

omit [Field K] [LinearOrder K] in
/-- An alert names its key. -/
theorem alert_key {key key' : Key} {r r' : Regularity K}
    (h : alert round key r = alert round key' r') : key = key' := by
  have hfields := congrArg Alert.fields h
  simp only [alert, List.cons.injEq, Prod.mk.injEq, Value.str.injEq, Value.int.injEq] at hfields
  obtain ⟨-, ⟨-, hsrc⟩, ⟨-, hdst⟩, ⟨-, hport⟩, ⟨-, hproto⟩, -⟩ := hfields
  cases key
  cases key'
  simp_all

omit [Field K] [LinearOrder K] in
theorem raised_append {alerts alerts' : List (Alert K)} :
    Raised round key (alerts ++ alerts') ↔ Raised round key alerts ∨ Raised round key alerts' := by
  simp [Raised, exists_or]

omit [Field K] [LinearOrder K] in
theorem raised_toList {key' : Key} {o : Option (Regularity K)} :
    Raised round key (o.map (alert round key')).toList ↔ key' = key ∧ o ≠ none := by
  cases o with
  | none => simp [Raised]
  | some r =>
    constructor
    · rintro ⟨r', hr'⟩
      exact ⟨(alert_key (List.mem_singleton.mp hr')).symm, nofun⟩
    · rintro ⟨rfl, -⟩
      exact ⟨r, List.mem_singleton.mpr rfl⟩

omit [Field K] [LinearOrder K] in
theorem append_toList_ne_nil {l : List (Regularity K)} {o : Option (Regularity K)} :
    l ++ o.toList ≠ [] ↔ l ≠ [] ∨ o ≠ none := by
  rw [ne_eq, List.append_eq_nil_iff, Option.toList_eq_nil_iff, not_and_or]

/-- **Every key has a deque of its own**: calls for other keys do not matter. -/
theorem detect_key (calls : List (Call K)) :
    (detect cfg sqrt round st calls).1 key = (watch cfg sqrt (st key) (timesOf key calls)).1 ∧
      (Raised round key (detect cfg sqrt round st calls).2 ↔
        (watch cfg sqrt (st key) (timesOf key calls)).2 ≠ []) := by
  induction calls using List.reverseRecOn with
  | nil => exact ⟨rfl, by simp [detect, watch, timesOf, Raised]⟩
  | append_singleton calls c ih =>
    obtain ⟨hdeque, hraised⟩ := ih
    have hstep : detect cfg sqrt round st (calls ++ [c])
        = call cfg sqrt round (detect cfg sqrt round st calls) c := by
      rw [detect, run_append, run_cons, run_nil]
      rfl
    rw [hstep, call, checkBeacon]
    dsimp only
    rw [raised_append, raised_toList, hraised]
    by_cases hc : c.key = key
    · subst hc
      have htimes : timesOf c.key (calls ++ [c]) = timesOf c.key calls ++ [c.now] := by
        simp [timesOf]
      have hwatch : watch cfg sqrt (st c.key) (timesOf c.key calls ++ [c.now])
          = watchStep cfg sqrt (watch cfg sqrt (st c.key) (timesOf c.key calls)) c.now := by
        rw [watch, run_append, run_cons, run_nil]
        rfl
      rw [htimes, hwatch, Function.update_self, hdeque, watchStep]
      refine ⟨rfl, ?_⟩
      dsimp only
      rw [append_toList_ne_nil]
      exact or_congr_right (and_iff_right rfl)
    · have htimes : timesOf key (calls ++ [c]) = timesOf key calls := by
        simp [timesOf, hc]
      rw [htimes, Function.update_of_ne (Ne.symm hc), hdeque]
      exact ⟨rfl, or_iff_left fun h => hc h.1⟩

end Detect

/-- The deques at the start of the program. -/
def noTimes : BeaconTimes ℝ := fun _ => []

/--
**Periodic beacons are found whatever happened before.**

From every reachable state a strictly periodic train of flows of one key with a period of at most
15 seconds, not before the last recorded time of the key and lasting at least two minutes, raises
an alert for the key, whatever calls for other keys come in between. A slower train from an empty
deque never does.
-/
theorem periodic_beacons_found (round : ℝ → Nat → ℝ) (history train : List (Call ℝ)) (key : Key)
    (t0 p : ℝ) (N : Nat) :
    let start := (detect defaultConfig Real.sqrt round noTimes history).1
    (timesOf key train = progression t0 p (N + 1) → (∀ last ∈ (start key).getLast?, last ≤ t0) →
      0 < p → p ≤ 15 → 120 ≤ N * p →
      Raised round key (detect defaultConfig Real.sqrt round start train).2) ∧
    (∀ st : BeaconTimes ℝ, st key = [] → timesOf key train = progression t0 p N → 15 < p →
      ¬ Raised round key (detect defaultConfig Real.sqrt round st train).2) := by
  intro start
  constructor
  · intro htrain hstart hp hp15 hN
    have hsorted : (start key).Pairwise (· ≤ ·) := by
      show ((detect _ _ _ _ history).1 key).Pairwise _
      rw [(detect_key history).1]
      exact watch_sorted (by norm_num [defaultConfig]) _
    rw [(detect_key train).2, htrain]
    exact periodic_train_found Real.sqrt_zero hsorted hstart hp hp15 hN
  · intro st hempty htrain hp
    rw [(detect_key train).2, htrain, hempty, not_not]
    exact slow_train_not_found hp N

/-- The insider calls the attacker's host. -/
def beacon : Key := ⟨"172.23.0.20", "172.24.0.10", 443, "TCP"⟩

/-- Rounds an exact number, the upper one of two that are as close. -/
noncomputable def exactRound (x : ℝ) (digits : Nat) : ℝ := ⌊x * 10 ^ digits + 1 / 2⌋ / 10 ^ digits

/-- A flow every ten seconds for two minutes is found. -/
theorem periodic_beacons_found_ten_seconds :
    Raised exactRound beacon (detect defaultConfig Real.sqrt exactRound noTimes
      ((progression 0 10 13).map fun t => ⟨beacon, t⟩)).2 := by
  refine (periodic_beacons_found exactRound [] _ beacon 0 10 12).1 ?_ (by simp [detect, noTimes])
    (by norm_num) (by norm_num) (by norm_num)
  simp [timesOf, List.filter_map, Function.comp_def]

end OtLab.Beacon
