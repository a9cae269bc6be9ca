import Mathlib.Algebra.Group.Nat.Defs
import Mathlib.Data.List.Induction
import Mathlib.Data.List.Infix
import OtLab.Lib.Run

/-!
# The intake controller

`plc/intake.st`: one scan of the program on the holding registers, and runs of scans with Modbus
writes in between. The variables are of type `UINT`, so the arithmetic wraps at `2 ^ 16` and the
written lower clamp never acts.

* `scan_interlocked` — what every scan establishes, whatever the registers held before
* `level_le_trip` — a tripped interlock stops the filling as long as nobody opens the valve again
-/

namespace OtLab.Intake

open Lib

/-! ## One scan -/

/-- The located variables of the program, `%QW0`, `%QW1`, `%QW5` and `%QW6`. -/
structure Registers where
  inletValve : UInt16
  pump : UInt16
  tankLevel : UInt16
  alarm : UInt16
deriving DecidableEq, Repr

/-- The level controller calls for water when the tank is low. -/
def levelControl (r : Registers) : Registers :=
  if r.tankLevel < 20 then { r with inletValve := 1 } else r

/-- The level rises while the inlet valve is open and falls when it is not. -/
def simulate (r : Registers) : Registers :=
  if r.inletValve = 1 then { r with tankLevel := r.tankLevel + 1 }
  else { r with tankLevel := r.tankLevel - 1 }

def clampHigh (r : Registers) : Registers :=
  if r.tankLevel > 100 then { r with tankLevel := 100 } else r

def clampLow (r : Registers) : Registers :=
  if r.tankLevel < 0 then { r with tankLevel := 0 } else r

/-- The safety interlock. -/
def interlock (r : Registers) : Registers :=
  if r.tankLevel > 95 then { r with inletValve := 0, alarm := 1 } else { r with alarm := 0 }

/-- One scan of `PROGRAM MAIN`. -/
def scan (r : Registers) : Registers := interlock (clampLow (clampHigh (simulate (levelControl r))))

variable {r : Registers}

/-- No unsigned level is below zero. -/
theorem clampLow_eq (r : Registers) : clampLow r = r := if_neg UInt16.not_lt_zero

@[simp] theorem interlock_tankLevel (r : Registers) : (interlock r).tankLevel = r.tankLevel := by
  unfold interlock
  split <;> rfl

theorem interlock_alarm (r : Registers) :
    (interlock r).alarm = if 95 < r.tankLevel then 1 else 0 := by
  unfold interlock
  split <;> rfl

theorem interlock_inletValve (r : Registers) :
    (interlock r).inletValve = if 95 < r.tankLevel then 0 else r.inletValve := by
  unfold interlock
  split <;> rfl

@[simp] theorem clampHigh_inletValve (r : Registers) :
    (clampHigh r).inletValve = r.inletValve := by
  unfold clampHigh
  split <;> rfl

theorem clampHigh_tankLevel (r : Registers) :
    (clampHigh r).tankLevel.toNat = min 100 r.tankLevel.toNat := by
  unfold clampHigh
  split
  · next h =>
    have h100 : 100 < r.tankLevel.toNat := UInt16.lt_iff_toNat_lt.mp h
    show 100 = _
    omega
  · next h =>
    have h100 : r.tankLevel.toNat ≤ 100 := UInt16.le_iff_toNat_le.mp (UInt16.not_lt.mp h)
    omega

/-- The tank fills during a scan: the valve is open, or the level controller opens it. -/
def Fills (r : Registers) : Prop := r.tankLevel < 20 ∨ r.inletValve = 1

instance (r : Registers) : Decidable (Fills r) := by
  unfold Fills
  infer_instance

/-- A scan that fills the tank raises the level by one, up to 100. -/
theorem simulate_of_fills (h : Fills r) :
    simulate (levelControl r) = { r with inletValve := 1, tankLevel := r.tankLevel + 1 } := by
  unfold simulate levelControl
  by_cases hlow : r.tankLevel < 20
  · simp [hlow]
  · have hv : r.inletValve = 1 := h.resolve_left hlow
    simp [hlow, hv]

/-- A scan that does not lowers it by one. -/
theorem simulate_of_not_fills (h : ¬ Fills r) :
    simulate (levelControl r) = { r with tankLevel := r.tankLevel - 1 } := by
  obtain ⟨hlow, hv⟩ := not_or.mp h
  unfold simulate levelControl
  simp [hlow, hv]

/-- The tank only drains from a level of at least 20. -/
theorem le_of_not_fills (h : ¬ Fills r) : 20 ≤ r.tankLevel.toNat :=
  UInt16.le_iff_toNat_le.mp (UInt16.not_lt.mp (not_or.mp h).1)

theorem scan_alarm (r : Registers) :
    (scan r).alarm = if 95 < (scan r).tankLevel then 1 else 0 := by
  unfold scan
  rw [interlock_alarm, interlock_tankLevel]

theorem scan_inletValve (r : Registers) :
    (scan r).inletValve =
      if 95 < (scan r).tankLevel then 0 else if Fills r then 1 else r.inletValve := by
  have hvalve : (simulate (levelControl r)).inletValve
      = if Fills r then 1 else r.inletValve := by
    by_cases h : Fills r
    · rw [simulate_of_fills h, if_pos h]
    · rw [simulate_of_not_fills h, if_neg h]
  unfold scan
  rw [interlock_inletValve, interlock_tankLevel, clampLow_eq, clampHigh_inletValve, hvalve]

theorem scan_tankLevel_of_fills (h : Fills r) :
    (scan r).tankLevel.toNat = min 100 ((r.tankLevel.toNat + 1) % 2 ^ 16) := by
  unfold scan
  rw [interlock_tankLevel, clampLow_eq, clampHigh_tankLevel, simulate_of_fills h,
    UInt16.toNat_add]
  rfl

theorem scan_tankLevel_of_not_fills (h : ¬ Fills r) :
    (scan r).tankLevel.toNat = min 100 (r.tankLevel.toNat - 1) := by
  have hle : (1 : UInt16) ≤ r.tankLevel := by
    have := le_of_not_fills h
    rw [UInt16.le_iff_toNat_le]
    show 1 ≤ _
    omega
  unfold scan
  rw [interlock_tankLevel, clampLow_eq, clampHigh_tankLevel, simulate_of_not_fills h,
    UInt16.toNat_sub_of_le _ _ hle]
  rfl

/-! ## What every scan establishes -/

/-- What the interlock and the level controller promise of the registers after a scan. -/
structure Interlocked (r : Registers) : Prop where
  level_le : r.tankLevel ≤ 100
  alarm : r.alarm = if 95 < r.tankLevel then 1 else 0
  closed : 95 < r.tankLevel → r.inletValve = 0
  opened : r.tankLevel < 19 → r.inletValve = 1

theorem scan_tankLevel_le (r : Registers) : (scan r).tankLevel.toNat ≤ 100 := by
  by_cases h : Fills r
  · rw [scan_tankLevel_of_fills h]
    omega
  · rw [scan_tankLevel_of_not_fills h]
    omega

/-- A scan that does not fill ends at 19 or above. -/
theorem fills_of_scan_low (h : (scan r).tankLevel < 19) : Fills r := by
  by_contra hf
  have hlow : (scan r).tankLevel.toNat < 19 := UInt16.lt_iff_toNat_lt.mp h
  have h20 := le_of_not_fills hf
  rw [scan_tankLevel_of_not_fills hf] at hlow
  omega

/--
**Every scan leaves the registers interlocked, and its decrement never wraps.**

Nothing is asked of the registers the scan starts with.
-/
theorem scan_interlocked (r : Registers) :
    Interlocked (scan r) ∧
      ((levelControl r).inletValve ≠ 1 →
        ((levelControl r).tankLevel - 1).toNat + 1 = (levelControl r).tankLevel.toNat) := by
  refine ⟨⟨?_, scan_alarm r, ?_, ?_⟩, ?_⟩
  · exact UInt16.le_iff_toNat_le.mpr (scan_tankLevel_le r)
  · intro h
    rw [scan_inletValve, if_pos h]
  · intro h
    have hnot : ¬ 95 < (scan r).tankLevel := fun hhigh =>
      absurd (UInt16.lt_trans hhigh h) (by decide)
    rw [scan_inletValve, if_neg hnot, if_pos (fills_of_scan_low h)]
  · intro hv
    have hlow : ¬ r.tankLevel < 20 := by
      intro hlow
      exact hv (by simp [levelControl, hlow])
    have hle : (1 : UInt16) ≤ r.tankLevel :=
      UInt16.le_trans (by decide) (UInt16.not_lt.mp hlow)
    rw [levelControl, if_neg hlow, UInt16.toNat_sub_of_le _ _ hle]
    exact Nat.sub_add_cancel (UInt16.le_iff_toNat_le.mp hle)

/-! ## Runs -/

/-- A scan, or a Modbus write of a holding register between two scans. -/
inductive Event where
  | write (register : Nat) (value : UInt16)
  | scan
deriving DecidableEq, Repr

/-- A Modbus write; the other registers are not used by the program. -/
def Registers.write (r : Registers) (register : Nat) (value : UInt16) : Registers :=
  match register with
  | 0 => { r with inletValve := value }
  | 1 => { r with pump := value }
  | 5 => { r with tankLevel := value }
  | 6 => { r with alarm := value }
  | _ => r

/-- A Modbus read; the other registers are not used by the program. -/
def Registers.read (r : Registers) (register : Nat) : UInt16 :=
  match register with
  | 0 => r.inletValve
  | 1 => r.pump
  | 5 => r.tankLevel
  | 6 => r.alarm
  | _ => 0

def step (r : Registers) : Event → Registers
  | .write register value => r.write register value
  | .scan => scan r

/-- A write that leaves the process state, registers 5 and 6, alone. -/
def Event.KeepsProcess : Event → Prop
  | .write register _ => register ≠ 5 ∧ register ≠ 6
  | .scan => True

instance : DecidablePred Event.KeepsProcess
  | .write _ _ => inferInstanceAs (Decidable (_ ∧ _))
  | .scan => inferInstanceAs (Decidable True)

/-- The interlock trips in a scan: the alarm becomes 1. -/
def Trips (r : Registers) : Prop := r.alarm ≠ 1 ∧ (scan r).alarm = 1

instance (r : Registers) : Decidable (Trips r) := by
  unfold Trips
  infer_instance

/--
After every scan that trips, the level stays at or below the one of that scan until it is at or
below 95 again.
-/
def HeldAtTrip (r : Registers) (es : List Event) : Prop :=
  ∀ before episode after, es = before ++ .scan :: episode ++ after → Trips (run step r before) →
    let tripped := scan (run step r before)
    (∀ l, l <+: episode → 95 < (run step tripped l).tankLevel) →
    (run step tripped episode).tankLevel ≤ tripped.tankLevel

/-- The event is no scan that finds the valve opened above 95. -/
def NotReopened (r : Registers) : Event → Prop
  | .write _ _ => True
  | .scan => 95 < r.tankLevel → r.inletValve ≠ 1

instance (r : Registers) : DecidablePred (NotReopened r)
  | .write _ _ => inferInstanceAs (Decidable True)
  | .scan => inferInstanceAs (Decidable (_ → _))

variable {es : List Event} {e : Event}

/-- Only writes to the register of the level change it between scans. -/
theorem write_tankLevel {register : Nat} (h : register ≠ 5) (r : Registers) (value : UInt16) :
    (r.write register value).tankLevel = r.tankLevel := by
  unfold Registers.write
  split <;> first | rfl | contradiction

theorem write_alarm {register : Nat} (h : register ≠ 6) (r : Registers) (value : UInt16) :
    (r.write register value).alarm = r.alarm := by
  unfold Registers.write
  split <;> first | rfl | contradiction

/-- Above 95 a scan fills only when the valve was opened. -/
theorem fills_iff_of_high (h : 95 < r.tankLevel.toNat) : Fills r ↔ r.inletValve = 1 := by
  refine or_iff_right fun hlow => ?_
  have : r.tankLevel.toNat < 20 := UInt16.lt_iff_toNat_lt.mp hlow
  omega

theorem high_iff : 95 < r.tankLevel ↔ 95 < r.tankLevel.toNat := UInt16.lt_iff_toNat_lt

/-- Above 95 the level does not rise in a step that does not find the valve opened. -/
theorem step_tankLevel_le (hhigh : 95 < r.tankLevel) (he : e.KeepsProcess)
    (hc : NotReopened r e) : (step r e).tankLevel ≤ r.tankLevel := by
  cases e with
  | write register value =>
    show (r.write register value).tankLevel ≤ _
    rw [write_tankLevel he.1]
    exact UInt16.le_refl _
  | scan =>
    have hf : ¬ Fills r := fun hf => hc hhigh ((fills_iff_of_high (high_iff.mp hhigh)).mp hf)
    rw [UInt16.le_iff_toNat_le]
    show (scan r).tankLevel.toNat ≤ _
    rw [scan_tankLevel_of_not_fills hf]
    omega

/-- A run above 95 that does not find the valve opened never exceeds the level it starts with. -/
theorem run_tankLevel_le (hes : ∀ e ∈ es, e.KeepsProcess)
    (hhigh : ∀ l, l <+: es → 95 < (run step r l).tankLevel)
    (h : StepsMeet step NotReopened r es) : (run step r es).tankLevel ≤ r.tankLevel := by
  have habove : StepsMeet step (fun s _ => 95 < s.tankLevel) r es := stepsMeet_of_prefix hhigh
  have hkeep : StepsMeet step (fun _ e => e.KeepsProcess) r es := stepsMeet_of_forall hes r
  have hstart : r.tankLevel ≤ r.tankLevel := UInt16.le_refl _
  refine run_invariant (fun s => s.tankLevel ≤ r.tankLevel) ?_ hstart
    (stepsMeet_and h (stepsMeet_and hkeep habove))
  rintro s e hs ⟨hc, he, hs95⟩
  exact UInt16.le_trans (step_tankLevel_le hs95 he hc) hs

/-- Without a reopened valve the level is held at the trip. -/
theorem heldAtTrip_of_notReopened (hes : ∀ e ∈ es, e.KeepsProcess)
    (h : StepsMeet step NotReopened r es) : HeldAtTrip r es := by
  intro before episode after heq _ tripped hhigh
  rw [heq, List.append_assoc, List.cons_append, stepsMeet_append, stepsMeet_cons,
    stepsMeet_append] at h
  have hkeep : ∀ e ∈ episode, e.KeepsProcess := fun e he => hes e (by simp [heq, he])
  have hmeet : StepsMeet step NotReopened tripped episode := h.2.2.1
  exact run_tankLevel_le hkeep hhigh hmeet

/-- Where a run stands: not tripped, or at the level at which the interlock tripped. -/
def Phase (r : Registers) (es : List Event) : Prop :=
  ((run step r es).tankLevel.toNat ≤ 95 ∧ (run step r es).alarm ≠ 1) ∨
    ∃ before episode, es = before ++ .scan :: episode ∧ Trips (run step r before) ∧
      ∀ l, l <+: episode → (run step (scan (run step r before)) l).tankLevel.toNat = 96

theorem phase_nil (h95 : r.tankLevel ≤ 95) (halarm : r.alarm ≠ 1) : Phase r [] :=
  Or.inl ⟨UInt16.le_iff_toNat_le.mp h95, halarm⟩

theorem HeldAtTrip.of_append (h : HeldAtTrip r (es ++ [e])) : HeldAtTrip r es := by
  intro before episode after heq
  exact h before episode (after ++ [e]) (by simp [heq])

/-- From at most 95 a scan ends at most at 95, or trips at 96. -/
theorem scan_of_low (h : r.tankLevel.toNat ≤ 95) :
    ((scan r).tankLevel.toNat ≤ 95 ∧ (scan r).alarm = 0) ∨
      ((scan r).tankLevel.toNat = 96 ∧ (scan r).alarm = 1) := by
  have hle : (scan r).tankLevel.toNat ≤ 96 := by
    by_cases hf : Fills r
    · rw [scan_tankLevel_of_fills hf]
      omega
    · rw [scan_tankLevel_of_not_fills hf]
      omega
  rw [scan_alarm]
  by_cases hhigh : 95 < (scan r).tankLevel
  · rw [if_pos hhigh]
    have := high_iff.mp hhigh
    exact Or.inr ⟨by omega, rfl⟩
  · rw [if_neg hhigh]
    have := mt high_iff.mpr hhigh
    exact Or.inl ⟨by omega, rfl⟩

/-- At the level of the trip a scan drains when it finds the valve closed. -/
theorem scan_at_trip (h : r.tankLevel.toNat = 96) (hv : r.inletValve ≠ 1) :
    (scan r).tankLevel.toNat = 95 ∧ (scan r).alarm = 0 := by
  have hlevel : (scan r).tankLevel.toNat = 95 := by
    rw [scan_tankLevel_of_not_fills (mt (fills_iff_of_high (by omega)).mp hv)]
    omega
  refine ⟨hlevel, ?_⟩
  rw [scan_alarm, if_neg]
  intro hhigh
  have := high_iff.mp hhigh
  omega

theorem scan_at_trip_open (h : r.tankLevel.toNat = 96) (hv : r.inletValve = 1) :
    (scan r).tankLevel.toNat = 97 := by
  rw [scan_tankLevel_of_fills (Or.inr hv)]
  omega

/-- A scan that finds the valve opened at the level of the trip exceeds it. -/
theorem not_heldAtTrip {before episode : List Event} (htrip : Trips (run step r before))
    (hlevel : ∀ l, l <+: episode → (run step (scan (run step r before)) l).tankLevel.toNat = 96)
    (hv : (run step (scan (run step r before)) episode).inletValve = 1) :
    ¬ HeldAtTrip r (before ++ .scan :: episode ++ [.scan]) := by
  intro hheld
  have hbreach :
      (run step (scan (run step r before)) (episode ++ [.scan])).tankLevel.toNat = 97 := by
    rw [run_append, run_cons, run_nil]
    exact scan_at_trip_open (hlevel episode List.prefix_rfl) hv
  have hle := hheld before (episode ++ [.scan]) [] (by simp) htrip ?_
  · have htripped := hlevel [] List.nil_prefix
    rw [run_nil] at htripped
    have := UInt16.le_iff_toNat_le.mp hle
    omega
  · intro l hl
    rw [high_iff]
    rcases List.prefix_concat_iff.mp hl with rfl | hl
    · omega
    · have := hlevel l hl
      omega

/-- One more event, when the level is held at the trip. -/
theorem phase_append (he : e.KeepsProcess) (hheld : HeldAtTrip r (es ++ [e])) (h : Phase r es) :
    NotReopened (run step r es) e ∧ Phase r (es ++ [e]) := by
  rcases h with ⟨hlow, halarm⟩ | ⟨before, episode, rfl, htrip, hlevel⟩
  · cases e with
    | write register value =>
      refine ⟨trivial, Or.inl ?_⟩
      rw [run_append, run_cons, run_nil, step, write_tankLevel he.1, write_alarm he.2]
      exact ⟨hlow, halarm⟩
    | scan =>
      refine ⟨fun hhigh => absurd (high_iff.mp hhigh) (by omega), ?_⟩
      rcases scan_of_low hlow with ⟨hlevel, hreset⟩ | ⟨hlevel, htrip⟩
      · left
        rw [run_append, run_cons, run_nil]
        exact ⟨hlevel, by rw [step, hreset]; decide⟩
      · refine Or.inr ⟨es, [], rfl, ⟨halarm, htrip⟩, fun l hl => ?_⟩
        obtain rfl := List.prefix_nil.mp hl
        exact hlevel
  · have hrun : run step r (before ++ .scan :: episode)
        = run step (scan (run step r before)) episode := by rw [run_append, run_cons]; rfl
    have hnow := hlevel episode List.prefix_rfl
    cases e with
    | write register value =>
      refine ⟨trivial, Or.inr ⟨before, episode ++ [.write register value], by simp, htrip, ?_⟩⟩
      intro l hl
      rcases List.prefix_concat_iff.mp hl with rfl | hl
      · rw [run_append, run_cons, run_nil, step, write_tankLevel he.1]
        exact hnow
      · exact hlevel l hl
    | scan =>
      have hv : (run step (scan (run step r before)) episode).inletValve ≠ 1 :=
        fun hv => not_heldAtTrip htrip hlevel hv hheld
      obtain ⟨hdrained, hreset⟩ := scan_at_trip hnow hv
      rw [hrun]
      refine ⟨fun _ => hv, Or.inl ?_⟩
      rw [run_append, hrun, run_cons, run_nil, step, hdrained, hreset]
      decide

/-- When the level is held at every trip, no scan finds the valve opened above 95. -/
theorem notReopened_of_heldAtTrip (hes : ∀ e ∈ es, e.KeepsProcess) (h95 : r.tankLevel ≤ 95)
    (halarm : r.alarm ≠ 1) (h : HeldAtTrip r es) :
    StepsMeet step NotReopened r es ∧ Phase r es := by
  induction es using List.reverseRecOn with
  | nil => exact ⟨trivial, phase_nil h95 halarm⟩
  | append_singleton es e ih =>
    obtain ⟨hmeet, hphase⟩ := ih (fun x hx => hes x (by simp [hx])) h.of_append
    obtain ⟨hnot, hphase'⟩ := phase_append (hes e (by simp)) h hphase
    exact ⟨stepsMeet_append.mpr ⟨hmeet, hnot, trivial⟩, hphase'⟩

/--
**A tripped interlock stops the filling exactly when nobody opens the valve again.**

In every run from a level of at most 95 whose scans never find the valve opened above 95, the
level stays at or below the one of the trip. For a run that begins without alarm this is also
necessary: the program fills before it evaluates the interlock.
-/
theorem level_le_trip (r : Registers) (es : List Event) (h95 : r.tankLevel ≤ 95)
    (hes : ∀ e ∈ es, e.KeepsProcess) :
    (StepsMeet step NotReopened r es → HeldAtTrip r es) ∧
      (r.alarm ≠ 1 → HeldAtTrip r es → StepsMeet step NotReopened r es) :=
  ⟨heldAtTrip_of_notReopened hes,
    fun halarm h => (notReopened_of_heldAtTrip hes h95 halarm h).1⟩

/-- The tank at the trip level with the valve open. -/
def atTripLevel : Registers := ⟨1, 0, 95, 0⟩

/-- A valve that is opened again only after the level is back at 95 keeps the condition. -/
theorem level_le_trip_closed :
    HeldAtTrip atTripLevel [.scan, .write 0 0, .scan, .write 0 1, .scan] :=
  (level_le_trip atTripLevel _ (by decide) (by decide)).1 (by decide)

/-- A client that opens the valve again right after the trip drives the level to 97. -/
theorem reopened_not_heldAtTrip : ¬ HeldAtTrip atTripLevel [.scan, .write 0 1, .scan] := by
  intro h
  have hle := h [] [.write 0 1, .scan] [] rfl (by decide) ?_
  · exact absurd hle (by decide)
  · intro l hl
    rw [← List.mem_inits] at hl
    revert l
    decide

end OtLab.Intake
