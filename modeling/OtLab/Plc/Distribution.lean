import OtLab.Lib.Word
import OtLab.Plc.RegisterMap

/-!
# The distribution controller

`plc/distribution.st`: one scan of the program, and runs of scans with Modbus writes in between.
The pressure is clamped; the runtime is an accumulator, and grows in every scan with the pump on.

* `scan_dischargePres_le` — every scan leaves the pressure at 10 or below
* `run_exact_iff` — a run wraps nowhere exactly when the accumulator holds its scans with the
  pump on
-/

namespace OtLab.Distribution

open Lib RegisterMap
open Intake (Event)

/-! ## One scan -/

/-- The located variables of the program, `%QW0`, `%QW1`, `%QW2`, `%QW5` and `%QW6`. -/
structure Registers where
  pumpCommand : UInt16
  dischargePres : UInt16
  pumpSpeed : UInt16
  pumpRuntime : UInt16
  pressureAlarm : UInt16
deriving DecidableEq, Repr

def Registers.zero : Registers := ⟨0, 0, 0, 0, 0⟩

/-- Pressure follows the pump state. -/
def simulate (r : Registers) : Registers :=
  if r.pumpCommand = 1 then
    { r with
      dischargePres := r.dischargePres + 1
      pumpRuntime := r.pumpRuntime + 1
      pumpSpeed := 80 }
  else if r.dischargePres ≥ 2 then
    { r with dischargePres := r.dischargePres - 2, pumpSpeed := 0 }
  else { r with dischargePres := 0, pumpSpeed := 0 }

def clamp (r : Registers) : Registers :=
  if r.dischargePres > 10 then { r with dischargePres := 10 } else r

/-- The pump runs but there is no pressure. -/
def alarm (r : Registers) : Registers :=
  if r.pumpCommand = 1 ∧ r.dischargePres < 2 then { r with pressureAlarm := 1 }
  else { r with pressureAlarm := 0 }

/-- One scan of `PROGRAM MAIN`. -/
def scan (r : Registers) : Registers := alarm (clamp (simulate r))

variable {r : Registers}

@[simp] theorem alarm_pumpCommand (r : Registers) : (alarm r).pumpCommand = r.pumpCommand := by
  unfold alarm
  split <;> rfl

@[simp] theorem alarm_dischargePres (r : Registers) :
    (alarm r).dischargePres = r.dischargePres := by
  unfold alarm
  split <;> rfl

@[simp] theorem alarm_pumpRuntime (r : Registers) : (alarm r).pumpRuntime = r.pumpRuntime := by
  unfold alarm
  split <;> rfl

@[simp] theorem clamp_pumpCommand (r : Registers) : (clamp r).pumpCommand = r.pumpCommand := by
  unfold clamp
  split <;> rfl

@[simp] theorem clamp_pumpRuntime (r : Registers) : (clamp r).pumpRuntime = r.pumpRuntime := by
  unfold clamp
  split <;> rfl

theorem clamp_dischargePres_le (r : Registers) : (clamp r).dischargePres ≤ 10 := by
  unfold clamp
  split
  · exact UInt16.le_refl _
  · next h => exact UInt16.not_lt.mp h

@[simp] theorem simulate_pumpCommand (r : Registers) :
    (simulate r).pumpCommand = r.pumpCommand := by
  unfold simulate
  split_ifs <;> rfl

theorem simulate_pumpRuntime (r : Registers) :
    (simulate r).pumpRuntime = if r.pumpCommand = 1 then r.pumpRuntime + 1 else r.pumpRuntime := by
  unfold simulate
  split_ifs <;> rfl

/-- The program never writes the pump command. -/
@[simp] theorem scan_pumpCommand (r : Registers) : (scan r).pumpCommand = r.pumpCommand := by
  simp [scan]

/-- The accumulator grows in every scan with the pump on. -/
theorem scan_pumpRuntime (r : Registers) :
    (scan r).pumpRuntime = if r.pumpCommand = 1 then r.pumpRuntime + 1 else r.pumpRuntime := by
  rw [scan, alarm_pumpRuntime, clamp_pumpRuntime, simulate_pumpRuntime]

theorem scan_dischargePres_le (r : Registers) : (scan r).dischargePres ≤ 10 := by
  rw [scan, alarm_dischargePres]
  exact clamp_dischargePres_le _

/-- The increments and decrements of the program, where they are executed, are exact. -/
structure Exact (r : Registers) : Prop where
  rises : r.pumpCommand = 1 → AddExact r.dischargePres 1
  accumulates : r.pumpCommand = 1 → AddExact r.pumpRuntime 1
  falls : r.pumpCommand ≠ 1 → r.dischargePres ≥ 2 → SubExact r.dischargePres 2

/-- From a clamped pressure only the accumulator can wrap. -/
theorem exact_iff (h : r.dischargePres ≤ 10) :
    Exact r ↔ (r.pumpCommand = 1 → AddExact r.pumpRuntime 1) := by
  refine ⟨Exact.accumulates, fun hruntime => ⟨fun _ => ?_, hruntime, fun _ hge => ?_⟩⟩
  · have hle : r.dischargePres.toNat ≤ 10 := UInt16.le_iff_toNat_le.mp h
    rw [addExact_iff]
    show r.dischargePres.toNat + 1 < 2 ^ 16
    omega
  · exact subExact_iff.mpr hge

/-! ## Runs -/

/-- A Modbus write; the other registers are not used by the program. -/
def Registers.write (r : Registers) (register : Nat) (value : UInt16) : Registers :=
  match register with
  | 0 => { r with pumpCommand := value }
  | 1 => { r with dischargePres := value }
  | 2 => { r with pumpSpeed := value }
  | 5 => { r with pumpRuntime := value }
  | 6 => { r with pressureAlarm := value }
  | _ => r

/-- A Modbus read; the other registers are not used by the program. -/
def Registers.read (r : Registers) (register : Nat) : UInt16 :=
  match register with
  | 0 => r.pumpCommand
  | 1 => r.dischargePres
  | 2 => r.pumpSpeed
  | 5 => r.pumpRuntime
  | 6 => r.pressureAlarm
  | _ => 0

def step (r : Registers) : Event → Registers
  | .write register value => r.write register value
  | .scan => scan r

/-- The increments and decrements are exact in the scan that the event is. -/
def ExactAt (r : Registers) : Event → Prop
  | .write _ _ => True
  | .scan => Exact r

/-- How many scans find the pump command, as the clients last wrote it, equal to 1. -/
def pumpOnScans : UInt16 → List Event → Nat
  | _, [] => 0
  | command, .write register value :: es =>
    pumpOnScans (if register = 0 then value else command) es
  | command, .scan :: es => (if command = 1 then 1 else 0) + pumpOnScans command es

theorem write_pumpCommand (r : Registers) (register : Nat) (value : UInt16) :
    (r.write register value).pumpCommand = if register = 0 then value else r.pumpCommand := by
  unfold Registers.write
  split <;> simp_all

theorem write_dischargePres {register : Nat} (h : register ≠ 1) (r : Registers)
    (value : UInt16) : (r.write register value).dischargePres = r.dischargePres := by
  unfold Registers.write
  split <;> first | rfl | contradiction

theorem write_pumpRuntime {register : Nat} (h : register ≠ 5) (r : Registers)
    (value : UInt16) : (r.write register value).pumpRuntime = r.pumpRuntime := by
  unfold Registers.write
  split <;> first | rfl | contradiction

theorem Permitted.ne_process {register : Nat} {value : UInt16}
    (h : Permitted distribution (.write register value)) : register ≠ 1 ∧ register ≠ 5 := by
  rcases writable_distribution.mp h with rfl | rfl <;> decide

/-- The pressure stays clamped. -/
theorem step_dischargePres_le {e : Event} (he : Permitted distribution e)
    (h : r.dischargePres ≤ 10) : (step r e).dischargePres ≤ 10 := by
  cases e with
  | write register value =>
    show (r.write register value).dischargePres ≤ 10
    rw [write_dischargePres (Permitted.ne_process he).1]
    exact h
  | scan => exact scan_dischargePres_le r

/-- What one event adds to the accumulator, when it does not wrap. -/
theorem step_pumpRuntime {e : Event} (he : Permitted distribution e) (h : ExactAt r e) :
    (step r e).pumpRuntime.toNat = r.pumpRuntime.toNat + pumpOnScans r.pumpCommand [e] := by
  cases e with
  | write register value =>
    show (r.write register value).pumpRuntime.toNat = _
    rw [write_pumpRuntime (Permitted.ne_process he).2]
    rfl
  | scan =>
    show (scan r).pumpRuntime.toNat = _ + ((if r.pumpCommand = 1 then 1 else 0) + 0)
    rw [scan_pumpRuntime]
    by_cases hon : r.pumpCommand = 1
    · rw [if_pos hon, if_pos hon]
      exact h.accumulates hon
    · rw [if_neg hon, if_neg hon]
      rfl

theorem pumpOnScans_cons (r : Registers) (e : Event) (es : List Event) :
    pumpOnScans r.pumpCommand (e :: es)
      = pumpOnScans r.pumpCommand [e] + pumpOnScans (step r e).pumpCommand es := by
  cases e with
  | write register value =>
    show pumpOnScans _ es = 0 + pumpOnScans (r.write register value).pumpCommand es
    rw [write_pumpCommand, Nat.zero_add]
  | scan =>
    show _ + pumpOnScans _ es = _ + 0 + pumpOnScans (scan r).pumpCommand es
    rw [scan_pumpCommand, Nat.add_zero]

/-- The event does not wrap, when the accumulator holds it. -/
theorem exactAt_iff {e : Event} (h : r.dischargePres ≤ 10) :
    ExactAt r e ↔ r.pumpRuntime.toNat + pumpOnScans r.pumpCommand [e] < 2 ^ 16 := by
  have hbound : r.pumpRuntime.toNat < 2 ^ 16 := r.pumpRuntime.toNat_lt
  cases e with
  | write register value => exact ⟨fun _ => hbound, fun _ => trivial⟩
  | scan =>
    show Exact r ↔ _ + ((if r.pumpCommand = 1 then 1 else 0) + 0) < 2 ^ 16
    rw [exact_iff h]
    by_cases hon : r.pumpCommand = 1
    · rw [if_pos hon, addExact_iff]
      exact ⟨fun hlt => hlt hon, fun hlt _ => hlt⟩
    · rw [if_neg hon]
      exact ⟨fun _ => hbound, fun _ hon' => absurd hon' hon⟩

variable {es : List Event}

/-- A run that does not wrap has accumulated its scans with the pump on. -/
theorem run_pumpRuntime (hes : ∀ e ∈ es, Permitted distribution e)
    (h : StepsMeet step ExactAt r es) :
    (run step r es).pumpRuntime.toNat = r.pumpRuntime.toNat + pumpOnScans r.pumpCommand es := by
  induction es generalizing r with
  | nil => rfl
  | cons e es ih =>
    rw [run_cons, ih (fun x hx => hes x (by simp [hx])) h.2,
      step_pumpRuntime (hes e (by simp)) h.1, pumpOnScans_cons r e es, Nat.add_assoc]

/--
**A run wraps nowhere exactly when the accumulator holds its scans with the pump on.**

The pressure is clamped and never wraps.
-/
theorem run_exact_iff (hes : ∀ e ∈ es, Permitted distribution e) (h : r.dischargePres ≤ 10) :
    StepsMeet step ExactAt r es ↔
      r.pumpRuntime.toNat + pumpOnScans r.pumpCommand es < 2 ^ 16 := by
  induction es generalizing r with
  | nil => exact ⟨fun _ => r.pumpRuntime.toNat_lt, fun _ => trivial⟩
  | cons e es ih =>
    have he := hes e (by simp)
    have hes' : ∀ x ∈ es, Permitted distribution x := fun x hx => hes x (by simp [hx])
    rw [stepsMeet_cons, ih hes' (step_dischargePres_le he h), pumpOnScans_cons r e es]
    constructor
    · rintro ⟨hexact, hrest⟩
      rw [step_pumpRuntime he hexact] at hrest
      omega
    · intro hlt
      have hexact : ExactAt r e := (exactAt_iff h).mpr (by omega)
      rw [step_pumpRuntime he hexact]
      exact ⟨hexact, by omega⟩

theorem run_dischargePres_le (hes : ∀ e ∈ es, Permitted distribution e)
    (h : r.dischargePres ≤ 10) : (run step r es).dischargePres ≤ 10 :=
  run_invariant (fun s => s.dischargePres ≤ 10)
    (fun _ _ hs he => step_dischargePres_le he hs) h (stepsMeet_of_forall hes r)

end OtLab.Distribution
