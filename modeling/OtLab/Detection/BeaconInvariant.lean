import OtLab.Detection.Beacon
import OtLab.Lib.Spacing
import OtLab.Lib.Variation

/-!
# The deques of the beacon tracker

What holds of every deque after any calls of `check_beacon`, also when the clock goes back: a time
that is recorded is at least the debounce interval behind the last one, and popping leaves nothing
older than the window.

* `sample_eq_examined` — what `interval_regularity` is called with
* `tracker_invariant` — the deques are spaced and short, and no division by zero is reached
-/

namespace OtLab.Beacon

open Lib

section Invariant

variable {K : Type*} [Field K] [LinearOrder K] {cfg : Config K} {sqrt : K → K} {times : List K}
  {now : K}

/-- The times are as far apart as the debounce interval, and lie in a window. -/
structure Kept (cfg : Config K) (times : List K) : Prop where
  spaced : Spaced cfg.debounce times
  span : ∀ first ∈ times, ∀ last ∈ times, last - first ≤ cfg.window

/-- The deque `check_beacon` calls `interval_regularity` with. -/
def examined (cfg : Config K) (times : List K) (now : K) : Option (List K) :=
  if Debounced cfg times now then none
  else if (recorded cfg times now).length < cfg.minEvents then none
  else some (recorded cfg times now)

/-- What `check_beacon` makes of what `interval_regularity` has returned for a deque. -/
def conclude (cfg : Config K) (times : List K) : Option (K × K) → List K × Option (Regularity K)
  | none => (times, none)
  | some (coefficient, mean) =>
    if cfg.maxCv < coefficient then (times, none)
    else ([], some ⟨times.length, mean, coefficient⟩)

/-- `interval_regularity` is called with the examined deque, or not at all. -/
theorem sample_eq_examined :
    sample cfg sqrt times now = (examined cfg times now).elim (kept cfg times now, none)
      fun seen => conclude cfg seen (intervalRegularity cfg sqrt seen) := by
  unfold sample examined kept
  by_cases hd : Debounced cfg times now
  · rw [if_pos hd, if_pos hd, if_pos hd]
    rfl
  · rw [if_neg hd, if_neg hd, if_neg hd, judge]
    by_cases hlen : (recorded cfg times now).length < cfg.minEvents
    · rw [if_pos hlen, if_pos hlen]
      rfl
    · rw [if_neg hlen, if_neg hlen]
      show _ = conclude cfg (recorded cfg times now) _
      cases intervalRegularity cfg sqrt (recorded cfg times now) <;> rfl

theorem judge_cases (cfg : Config K) (sqrt : K → K) (times : List K) :
    (judge cfg sqrt times).1 = times ∨ (judge cfg sqrt times).1 = [] := by
  unfold judge
  split
  · exact Or.inl rfl
  split
  · exact Or.inl rfl
  split
  · exact Or.inl rfl
  · exact Or.inr rfl

theorem kept_nil : Kept cfg [] := ⟨List.isChain_nil, nofun⟩

variable [IsStrictOrderedRing K]

theorem Kept.sorted (hd : 0 < cfg.debounce) (h : Kept cfg times) : times.Pairwise (· ≤ ·) :=
  (h.spaced.pairwise hd).imp le_of_lt

/-- Recording a time keeps the invariant, whatever the clock shows. -/
theorem kept_recorded (hd : 0 < cfg.debounce) (h : Kept cfg times)
    (hdeb : ¬ Debounced cfg times now) : Kept cfg (recorded cfg times now) := by
  have hlast := not_debounced_iff.mp hdeb
  have hle : ∀ last ∈ times.getLast?, last ≤ now := by
    intro last hl
    linarith [hlast last hl]
  have hspaced : Spaced cfg.debounce (times ++ [now]) := h.spaced.append_singleton hlast
  refine ⟨List.IsChain.suffix hspaced (List.dropWhile_suffix _), fun first hfirst last hl => ?_⟩
  rw [(recorded_eq (h.sorted hd) hle).1] at hfirst hl
  have hold : now - cfg.window ≤ first := of_decide_eq_true (List.mem_filter.mp hfirst).2
  have hnew : last ≤ now := by
    rcases List.mem_append.mp (List.mem_filter.mp hl).1 with hmem | hmem
    · have hne := List.getLast?_eq_some_getLast (List.ne_nil_of_mem hmem)
      exact (le_getLast (h.sorted hd) hne last hmem).trans (hle _ hne)
    · rw [List.mem_singleton.mp hmem]
  linarith

theorem kept_sample (hd : 0 < cfg.debounce) (h : Kept cfg times) (now : K) :
    Kept cfg (sample cfg sqrt times now).1 := by
  by_cases hdeb : Debounced cfg times now
  · rw [sample_of_debounced hdeb]
    exact h
  · rw [sample_of_not_debounced hdeb]
    rcases judge_cases cfg sqrt (recorded cfg times now) with heq | heq
    · rw [heq]
      exact kept_recorded hd h hdeb
    · rw [heq]
      exact kept_nil

omit [IsStrictOrderedRing K] in
theorem le_of_mem_intervals {d : K} (h : Spaced d times) : ∀ x ∈ intervals times, d ≤ x := by
  induction times with
  | nil => exact nofun
  | cons a times ih =>
    cases times with
    | nil => exact nofun
    | cons b times =>
      obtain ⟨hab, hspaced⟩ := spaced_cons_cons.mp h
      rintro x (_ | ⟨_, hx⟩)
      · exact hab
      · exact ih hspaced x hx

omit [LinearOrder K] [IsStrictOrderedRing K] in
theorem length_intervals (times : List K) : (intervals times).length = times.length - 1 := by
  rw [intervals, List.length_zipWith, List.length_tail]
  omega

theorem le_mean_intervals {d : K} (h : Spaced d times) (hlen : 2 ≤ times.length) :
    d ≤ mean (intervals times) := by
  refine le_mean (fun hnil => ?_) (le_of_mem_intervals h)
  have := length_intervals times
  rw [hnil, List.length_nil] at this
  omega

omit [IsStrictOrderedRing K] in
/-- With two times and a positive mean nothing is divided by zero. -/
theorem intervalRegularity_ne_none (hlen : 2 ≤ times.length) (hmean : 0 < mean (intervals times)) :
    intervalRegularity cfg sqrt times ≠ none := by
  have hn : (intervals times).length ≠ 0 := by
    rw [length_intervals]
    omega
  unfold intervalRegularity
  dsimp only
  rw [if_neg hn]
  split
  · exact nofun
  · have hne : (intervals times).sum / (intervals times).length ≠ 0 := hmean.ne'
    rw [if_neg hne]
    exact nofun

/-- What `interval_regularity` is called with. -/
theorem examined_bounds (hmin : 2 ≤ cfg.minEvents) (hd : 0 < cfg.debounce) (h : Kept cfg times)
    {seen : List K} (hseen : seen ∈ examined cfg times now) :
    2 ≤ seen.length ∧ cfg.debounce ≤ mean (intervals seen) ∧
      intervalRegularity cfg sqrt seen ≠ none := by
  unfold examined at hseen
  split at hseen
  · cases hseen
  next hdeb =>
  split at hseen
  · cases hseen
  next hlen =>
  obtain rfl := Option.some.inj hseen
  have hlen2 : 2 ≤ (recorded cfg times now).length := hmin.trans (Nat.not_lt.mp hlen)
  have hmean := le_mean_intervals (kept_recorded hd h hdeb).spaced hlen2
  exact ⟨hlen2, hmean, intervalRegularity_ne_none hlen2 (hd.trans_le hmean)⟩

end Invariant

/-! ## Any calls -/

section Calls

variable {K : Type*} [Field K] [LinearOrder K] [IsStrictOrderedRing K]
  {cfg : Config K} {sqrt : K → K} {round : K → Nat → K}

omit [IsStrictOrderedRing K] in
theorem call_key (st : BeaconTimes K × List (Alert K)) (c : Call K) :
    (call cfg sqrt round st c).1 c.key = (sample cfg sqrt (st.1 c.key) c.now).1 :=
  Function.update_self ..

omit [IsStrictOrderedRing K] in
/-- A call for one key leaves the deques of the other keys alone. -/
theorem call_of_ne (st : BeaconTimes K × List (Alert K)) {c : Call K} {key : Key}
    (h : key ≠ c.key) : (call cfg sqrt round st c).1 key = st.1 key := Function.update_of_ne h ..

theorem kept_call (hd : 0 < cfg.debounce) {st : BeaconTimes K × List (Alert K)} (c : Call K)
    (h : ∀ key, Kept cfg (st.1 key)) (key : Key) : Kept cfg ((call cfg sqrt round st c).1 key) := by
  by_cases hkey : key = c.key
  · subst hkey
    rw [call_key]
    exact kept_sample hd (h c.key) c.now
  · rw [call_of_ne st hkey]
    exact h key

theorem kept_detect (hd : 0 < cfg.debounce) (calls : List (Call K)) (key : Key) :
    Kept cfg ((detect cfg sqrt round (fun _ => []) calls).1 key) := by
  have hall : StepsMeet (call cfg sqrt round) (fun _ _ => True) (fun _ => [], []) calls :=
    stepsMeet_of_forall (fun _ _ => trivial) _
  refine run_invariant (fun st => ∀ key, Kept cfg (st.1 key)) ?_ (fun _ => kept_nil) hall key
  exact fun st c h _ => kept_call hd c h

/--
**Whatever is called and whatever the clock shows, the deques are spaced and short.**

Their times are at least the debounce interval apart and lie in a window, what a call does is
decided by what `interval_regularity` returns for the examined deque, which is never asked to divide
by zero, and a call for one key leaves the other deques alone.
-/
theorem tracker_invariant (hmin : 2 ≤ cfg.minEvents) (hd : 0 < cfg.debounce)
    (hw : 0 < cfg.window) (round : K → Nat → K) (calls : List (Call K)) :
    let st := detect cfg sqrt round (fun _ => []) calls
    (∀ key, (st.1 key).Pairwise (· < ·) ∧
      (st.1 key).IsChain (fun earlier later => cfg.debounce ≤ later - earlier) ∧
      (∀ first ∈ st.1 key, ∀ last ∈ st.1 key, last - first ≤ cfg.window) ∧
      ((st.1 key).length : K) ≤ cfg.window / cfg.debounce + 1) ∧
    ∀ c : Call K,
      (sample cfg sqrt (st.1 c.key) c.now
        = (examined cfg (st.1 c.key) c.now).elim (kept cfg (st.1 c.key) c.now, none)
          fun times => conclude cfg times (intervalRegularity cfg sqrt times)) ∧
      (∀ times ∈ examined cfg (st.1 c.key) c.now, 2 ≤ times.length ∧
        cfg.debounce ≤ mean (intervals times) ∧ intervalRegularity cfg sqrt times ≠ none) ∧
      ∀ key, key ≠ c.key → (call cfg sqrt round st c).1 key = st.1 key := by
  intro st
  have hkept : ∀ key, Kept cfg (st.1 key) := kept_detect hd calls
  refine ⟨fun key => ?_, fun c => ⟨?_, fun times htimes => ?_, fun key hkey => call_of_ne st hkey⟩⟩
  · obtain ⟨hspaced, hspan⟩ := hkept key
    exact ⟨hspaced.pairwise hd, hspaced, hspan, hspaced.length_le hd hw.le hspan⟩
  · exact sample_eq_examined
  · exact examined_bounds hmin hd (hkept c.key) htimes

end Calls

theorem tracker_invariant_default :
    ((detect (defaultConfig : Config ℝ) Real.sqrt exactRound (fun _ => [])
      [⟨beacon, 10⟩, ⟨beacon, 5⟩, ⟨beacon, 12⟩]).1 beacon).length ≤ (60 : ℝ) / 2 + 1 := by
  have h := @tracker_invariant ℝ _ _ _ defaultConfig Real.sqrt (by decide)
    (by norm_num [defaultConfig]) (by norm_num [defaultConfig]) exactRound
    [⟨beacon, 10⟩, ⟨beacon, 5⟩, ⟨beacon, 12⟩]
  exact (h.1 beacon).2.2.2

end OtLab.Beacon
