import OtLab.Response.Unblock

/-!
# The playbook's offenders

`_to_epoch` and `find_offenders` of `auto_block_ip.py`, which picks the sources to block from a
whole alert log, beside `record` of the responder, which does so while the log grows.
`datetime.fromisoformat` is a parameter.

* `flags_iff_burst` — `record` returns True at some alert when enough of them lie in a window
* `sameOffenders_iff` — the playbook, which never looks at its window, picks the same sources
  exactly when every source with enough alerts has a burst of them
-/

namespace OtLab.AutoBlock

open Lib

/-! ## The playbook -/

def WRITE_ALERT : String := "UNAUTHORIZED_MODBUS_WRITE"

/-- `iso.replace("Z", "+00:00")`. -/
def replaceZ (iso : String) : String :=
  String.ofList (iso.toList.flatMap fun c => if c = 'Z' then "+00:00".toList else [c])

/--
`_to_epoch`: only a text has a `replace`. `fromisoformat` is
`datetime.fromisoformat(text).timestamp()`, and `none` on a `ValueError`.
-/
def toEpoch (fromisoformat : String → Option ℚ) : Json → Option ℚ
  | .str iso => fromisoformat (replaceZ iso)
  | _ => none

/-- The keys of `offenders`. Floats other than `0.0` are not told apart: none is an address. -/
inductive Source where
  | none
  | number (n : Int)
  | float
  | text (s : String)
deriving DecidableEq, Repr

/-- `alert["source_ip"]` as a key: a list or an object has no hash. -/
def sourceKey (alert : List (String × Json)) : Py Source :=
  match alert.lookup "source_ip" with
  | none => .error .keyError
  | some .null => .ok .none
  | some (.bool b) => .ok (.number b.toInt)
  | some (.int n) => .ok (.number n)
  | some (.float x) => .ok (if x = .finite 0 then .number 0 else .float)
  | some (.str s) => .ok (.text s)
  | some (.arr _) | some (.obj _) => .error .typeError

/-- `alert.get("alert_type") != WRITE_ALERT` is false. -/
def isWrite (alert : List (String × Json)) : Bool :=
  match Json.get alert "alert_type" with
  | .str t => t == WRITE_ALERT
  | _ => false

/-- `offenders`, a `defaultdict(int)`: a source is a key when its count is not zero. -/
abbrev Offenders := Source → Nat

section Playbook

variable (fromisoformat : String → Option ℚ)

/-- The body of the loop of `find_offenders`. -/
def countAlert (offenders : Offenders) (alert : Json) : Py Offenders :=
  match alert with
  | .obj alert =>
    if isWrite alert then
      match toEpoch fromisoformat (Json.get alert "timestamp") with
      | none => .ok offenders
      | some _ => do
        let source ← sourceKey alert
        return Function.update offenders source (offenders source + 1)
    else .ok offenders
  | _ => .error .attributeError

/-- `find_offenders`. The window is an argument that nothing reads. -/
def findOffenders (alerts : List Json) (_window : ℚ) (trigger : Nat) :
    Py (Source → Option Nat) := do
  let offenders ← alerts.foldlM (countAlert fromisoformat) fun _ => 0
  return fun source =>
    if 0 < offenders source ∧ trigger ≤ offenders source then some (offenders source) else none

/-- The source and the time of a write alert. -/
def readWrite : Json → Option (String × ℚ)
  | .obj alert =>
    if isWrite alert then
      match toEpoch fromisoformat (Json.get alert "timestamp"), alert.lookup "source_ip" with
      | some t, some (.str ip) => some (ip, t)
      | _, _ => none
    else none
  | _ => none

/-- An alert is an object, and a write alert has a valid timestamp and a source that is a text. -/
def WellFormed (alert : Json) : Prop :=
  ∃ d, alert = .obj d ∧ (isWrite d = true → (readWrite fromisoformat alert).isSome = true)

/-- The times of the write alerts of a source, in order. -/
def writeTimes (ip : String) (alerts : List Json) : List ℚ :=
  ((alerts.filterMap (readWrite fromisoformat)).filter fun write => write.1 = ip).map Prod.snd

end Playbook

/-! ## The responder on the same times -/

/-- `record` returns True at some of the times. -/
def flags (source : Key) (window : ℚ) (threshold : Nat) : (Key → List ℚ) → List ℚ → Bool
  | _, [] => false
  | state, now :: times =>
    let (reached, state) := Responder.record state source now window threshold
    reached || flags source window threshold state times

/-- Some `trigger` of the times lie within `window` seconds. -/
def Burst (window : ℚ) (trigger : Nat) (times : List ℚ) : Prop :=
  ∃ burst : List ℚ, burst.Sublist times ∧ burst.length = trigger ∧
    ∀ u ∈ burst, ∀ v ∈ burst, v - u < window

/-- The playbook's offenders are the sources for which `record` returns True at some alert. -/
def SameOffenders (fromisoformat : String → Option ℚ) (window : ℚ) (trigger : Nat)
    (alerts : List Json) : Prop :=
  ∃ offenders, findOffenders fromisoformat alerts window trigger = .ok offenders ∧
    ∀ ip, (offenders (.text ip)).isSome = true ↔
      flags (.str ip) window trigger (fun _ => []) (writeTimes fromisoformat ip alerts) = true

variable {window : ℚ} {trigger : Nat} {times : List ℚ}

/-- Until it returns True `record` keeps the list of a tracker. -/
theorem flags_iff_fired {source : Key} {state : Key → List ℚ} (tracker : Tracker ℚ)
    (hfresh : tracker.fired = false) (hkept : state source = tracker.kept) :
    flags source window trigger state times = true ↔
      (run (Tracker.observe window trigger) tracker times).fired = true := by
  induction times generalizing state tracker with
  | nil => simp [flags, hfresh]
  | cons now times ih =>
    have hreached : (Responder.record state source now window trigger).1
        = tracker.fires window trigger now := by
      rw [Tracker.fires, hfresh, Tracker.prune, ← hkept]
      rfl
    have hstate : (Responder.record state source now window trigger).2 source
        = tracker.prune window now := by
      rw [Tracker.prune, ← hkept]
      exact Function.update_self _ _ _
    unfold flags
    rw [Bool.or_eq_true, run_cons, hreached]
    cases hfires : tracker.fires window trigger now with
    | true =>
      have hfired : (tracker.observe window trigger now).fired = true := by
        rw [Tracker.fired_observe, hfires, Bool.or_true]
      rw [Tracker.run_observe_of_fired hfired]
      exact iff_of_true (Or.inl rfl) hfired
    | false =>
      have hobserve : tracker.observe window trigger now = ⟨tracker.prune window now, false⟩ := by
        rw [Tracker.observe_of_not_fired hfresh, hfires]
      rw [or_iff_right (by simp), hobserve]
      exact ih ⟨_, false⟩ rfl hstate

/-- **`record` returns True at some alert exactly when enough of them lie in a window.** -/
theorem flags_iff_burst (source : Key) (hw : 0 < window) (htrigger : 1 ≤ trigger)
    (hsorted : times.Pairwise (· ≤ ·)) :
    flags source window trigger (fun _ => []) times = true ↔ Burst window trigger times := by
  rw [flags_iff_fired Tracker.fresh rfl rfl, Tracker.fired_run_iff hw hsorted,
    exists_window_iff_burst htrigger hsorted]
  rfl

/-! ## What the playbook counts -/

variable {fromisoformat : String → Option ℚ} {alerts : List Json} {alert : Json} {ip : String}

/-- A write alert adds one to its source; every other alert is passed over. -/
theorem countAlert_of_wellFormed (h : WellFormed fromisoformat alert) (offenders : Offenders) :
    countAlert fromisoformat offenders alert = .ok (match readWrite fromisoformat alert with
      | none => offenders
      | some (ip, _) => Function.update offenders (.text ip) (offenders (.text ip) + 1)) := by
  obtain ⟨d, rfl, hvalid⟩ := h
  unfold countAlert
  cases hwrite : isWrite d with
  | false => simp [readWrite, hwrite]
  | true =>
    obtain ⟨⟨ip, t⟩, hread⟩ := Option.isSome_iff_exists.mp (hvalid hwrite)
    rw [hread]
    simp only [readWrite, hwrite, if_true] at hread
    split at hread
    · next t' ip' hepoch hip =>
      obtain ⟨rfl, rfl⟩ := Prod.mk.inj (Option.some.inj hread)
      simp only [hepoch, sourceKey, hip, if_pos hwrite]
      rfl
    · cases hread

/-- The count of a source is the number of its write alerts. -/
theorem foldlM_countAlert (halerts : ∀ alert ∈ alerts, WellFormed fromisoformat alert)
    (offenders : Offenders) :
    ∃ offenders', alerts.foldlM (countAlert fromisoformat) offenders = .ok offenders' ∧
      ∀ ip, offenders' (.text ip)
        = offenders (.text ip) + (writeTimes fromisoformat ip alerts).length := by
  induction alerts generalizing offenders with
  | nil => exact ⟨offenders, rfl, fun _ => rfl⟩
  | cons alert alerts ih =>
    have hstep := countAlert_of_wellFormed (halerts alert (by simp)) offenders
    rw [List.foldlM_cons, hstep]
    cases hread : readWrite fromisoformat alert with
    | none =>
      obtain ⟨offenders', hrun, hcount⟩ := ih (fun x hx => halerts x (by simp [hx])) offenders
      refine ⟨offenders', hrun, fun ip => ?_⟩
      rw [hcount, writeTimes, writeTimes, List.filterMap_cons_none hread]
    | some write =>
      obtain ⟨source, t⟩ := write
      obtain ⟨offenders', hrun, hcount⟩ := ih (fun x hx => halerts x (by simp [hx]))
        (Function.update offenders (.text source) (offenders (.text source) + 1))
      refine ⟨offenders', hrun, fun ip => ?_⟩
      rw [hcount, writeTimes, writeTimes, List.filterMap_cons_some hread, List.filter_cons]
      by_cases hip : source = ip
      · subst hip
        rw [if_pos (by simp), List.map_cons, List.length_cons, Function.update_self]
        omega
      · rw [if_neg (by simp [hip]), Function.update_of_ne (by simp [Ne.symm hip])]

/-- The playbook picks a source with at least `trigger` write alerts, whenever they were. -/
theorem findOffenders_of_wellFormed (window : ℚ) (htrigger : 1 ≤ trigger)
    (halerts : ∀ alert ∈ alerts, WellFormed fromisoformat alert) :
    ∃ offenders, findOffenders fromisoformat alerts window trigger = .ok offenders ∧
      ∀ ip, (offenders (.text ip)).isSome = true ↔
        trigger ≤ (writeTimes fromisoformat ip alerts).length := by
  obtain ⟨counts, hrun, hcount⟩ := foldlM_countAlert halerts fun _ => 0
  refine ⟨fun source => if 0 < counts source ∧ trigger ≤ counts source then some (counts source)
    else none, ?_, fun ip => ?_⟩
  · rw [findOffenders, hrun]
    rfl
  have hnum : counts (.text ip) = (writeTimes fromisoformat ip alerts).length := by
    rw [hcount, Nat.zero_add]
  dsimp only
  rw [hnum]
  split
  · next h => exact iff_of_true rfl h.2
  · next h => exact iff_of_false (by simp) fun hle => h ⟨by omega, hle⟩

theorem length_le_of_burst (h : Burst window trigger times) : trigger ≤ times.length := by
  obtain ⟨burst, hsub, rfl, -⟩ := h
  exact hsub.length_le

/--
**The playbook finds the responder's offenders exactly when every source with enough write alerts
has a burst of them.**

The alerts come in any order of sources and types, with valid times that never run back.
-/
theorem sameOffenders_iff (hw : 0 < window) (htrigger : 1 ≤ trigger)
    (halerts : ∀ alert ∈ alerts, WellFormed fromisoformat alert)
    (hsorted : ((alerts.filterMap (readWrite fromisoformat)).map Prod.snd).Pairwise (· ≤ ·)) :
    SameOffenders fromisoformat window trigger alerts ↔
      ∀ ip, trigger ≤ (writeTimes fromisoformat ip alerts).length →
        Burst window trigger (writeTimes fromisoformat ip alerts) := by
  obtain ⟨offenders, hrun, hmem⟩ := findOffenders_of_wellFormed window htrigger halerts
  have hburst : ∀ ip, flags (.str ip) window trigger (fun _ => [])
      (writeTimes fromisoformat ip alerts) = true ↔
        Burst window trigger (writeTimes fromisoformat ip alerts) := fun ip =>
    flags_iff_burst _ hw htrigger (hsorted.sublist (List.filter_sublist.map _))
  constructor
  · rintro ⟨offenders', hrun', hsame⟩ ip hle
    obtain rfl : offenders = offenders' := Except.ok.inj (hrun.symm.trans hrun')
    exact (hburst ip).mp ((hsame ip).mp ((hmem ip).mpr hle))
  · intro h
    refine ⟨offenders, hrun, fun ip => ?_⟩
    rw [hmem, hburst]
    exact ⟨h ip, length_le_of_burst⟩

/-- `fromisoformat` on timestamps of the first of August 2026 in UTC. -/
def augustFirst (text : String) : Option ℚ :=
  [("2026-08-01T10:00:00+00:00", 1785578400), ("2026-08-01T10:00:01+00:00", 1785578401),
    ("2026-08-01T10:00:02+00:00", 1785578402), ("2026-08-01T11:00:00+00:00", 1785582000),
    ("2026-08-01T12:00:00+00:00", 1785585600)].lookup text

def logged (alertType ip timestamp : String) : Json :=
  .obj [("timestamp", .str timestamp), ("alert_type", .str alertType), ("source_ip", .str ip)]

/-- A burst of writes, one write of another source and an alert of another type. -/
def burstLog : List Json :=
  [logged WRITE_ALERT "172.24.0.10" "2026-08-01T10:00:00Z",
    logged "CROSS_ZONE_VIOLATION" "172.24.0.11" "2026-08-01T10:00:00Z",
    logged WRITE_ALERT "172.24.0.10" "2026-08-01T10:00:01Z",
    logged WRITE_ALERT "172.24.0.10" "2026-08-01T10:00:02Z",
    logged WRITE_ALERT "172.24.0.11" "2026-08-01T11:00:00Z"]

/-- Three writes of one source, an hour apart. -/
def hourlyLog : List Json :=
  [logged WRITE_ALERT "172.24.0.10" "2026-08-01T10:00:00Z",
    logged WRITE_ALERT "172.24.0.10" "2026-08-01T11:00:00Z",
    logged WRITE_ALERT "172.24.0.10" "2026-08-01T12:00:00Z"]

theorem reads_burstLog : burstLog.filterMap (readWrite augustFirst)
    = [("172.24.0.10", 1785578400), ("172.24.0.10", 1785578401), ("172.24.0.10", 1785578402),
      ("172.24.0.11", 1785582000)] := by
  decide +kernel

theorem wellFormed_logged {alertType ip timestamp : String}
    (h : (augustFirst (replaceZ timestamp)).isSome = true) :
    WellFormed augustFirst (logged alertType ip timestamp) := by
  refine ⟨_, rfl, fun hwrite => ?_⟩
  obtain ⟨t, ht⟩ := Option.isSome_iff_exists.mp h
  have hepoch : toEpoch augustFirst (Json.get [("timestamp", .str timestamp),
      ("alert_type", .str alertType), ("source_ip", .str ip)] "timestamp") = some t := ht
  simp only [logged, readWrite, hwrite, if_true, hepoch]
  rfl

theorem sameOffenders_iff_burst : SameOffenders augustFirst 300 3 burstLog := by
  refine (sameOffenders_iff (by decide +kernel) (by decide) ?_ ?_).mpr ?_
  · intro alert halert
    simp only [burstLog, List.mem_cons, List.not_mem_nil, or_false] at halert
    rcases halert with rfl | rfl | rfl | rfl | rfl <;>
      exact wellFormed_logged (by decide +kernel)
  · rw [reads_burstLog]
    decide +kernel
  · intro ip hle
    unfold writeTimes at hle ⊢
    rw [reads_burstLog] at hle ⊢
    by_cases h10 : ip = "172.24.0.10"
    · subst h10
      exact ⟨[1785578400, 1785578401, 1785578402], by decide +kernel, rfl, by decide +kernel⟩
    · by_cases h11 : ip = "172.24.0.11"
      · subst h11
        exact absurd hle (by decide +kernel)
      · simp [Ne.symm h10, Ne.symm h11] at hle

/-- The playbook blocks a source that the responder never flags. -/
theorem hourly_offender :
    ¬ ∀ (fromisoformat : String → Option ℚ) (window : ℚ) (trigger : Nat) (alerts : List Json),
      0 < window → 1 ≤ trigger → (∀ alert ∈ alerts, WellFormed fromisoformat alert) →
      ((alerts.filterMap (readWrite fromisoformat)).map Prod.snd).Pairwise (· ≤ ·) →
      SameOffenders fromisoformat window trigger alerts := by
  intro h
  obtain ⟨offenders, hrun, hsame⟩ := h augustFirst 300 3 hourlyLog (by decide +kernel) (by decide)
    (by
      intro alert halert
      simp only [hourlyLog, List.mem_cons, List.not_mem_nil, or_false] at halert
      rcases halert with rfl | rfl | rfl <;> exact wellFormed_logged (by decide +kernel))
    (by decide +kernel)
  have hflags : flags (.str "172.24.0.10") 300 3 (fun _ => [])
      (writeTimes augustFirst "172.24.0.10" hourlyLog) = false := by
    decide +kernel
  have hsome := (hsame "172.24.0.10").mp
  rw [hflags] at hsome
  obtain rfl := Except.ok.inj hrun
  exact absurd (hsome rfl) (by decide)

end OtLab.AutoBlock
