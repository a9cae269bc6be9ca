import OtLab.Lib.Word
import OtLab.Plc.RegisterMap

/-!
# The treatment controller

`plc/treatment.st`: one scan of the program, and runs of scans with Modbus writes in between.

* `scan_residualChlor` — a scan lowers the residual chlorine by one, down to zero
* `run_exact` — the decrement never wraps, whatever clients write
* `run_residualChlor_le` — the residual chlorine never rises
-/

namespace OtLab.Treatment

open Lib RegisterMap
open Intake (Event)

/-! ## One scan -/

/-- The located variables of the program, `%QW0`, `%QW1`, `%QW2`, `%QW5` and `%QW6`. -/
structure Registers where
  inletFlow : UInt16
  dosingPump : UInt16
  dosingRate : UInt16
  residualChlor : UInt16
  dosingAlarm : UInt16
deriving DecidableEq, Repr

def Registers.zero : Registers := ⟨0, 0, 0, 0, 0⟩

/-- Residual chlorine decays over time. -/
def simulate (r : Registers) : Registers :=
  if r.residualChlor > 0 then { r with residualChlor := r.residualChlor - 1 } else r

/-- Dosing control: the pump engages when flow is present and chlorine is low. -/
def dosingControl (r : Registers) : Registers :=
  if r.inletFlow > 0 ∧ r.residualChlor < 20 then { r with dosingPump := 1, dosingRate := 50 }
  else if r.residualChlor ≥ 40 then { r with dosingPump := 0, dosingRate := 0 }
  else r

/-- Out-of-range chlorine is a process alarm. -/
def alarm (r : Registers) : Registers :=
  if r.residualChlor > 60 ∨ (r.inletFlow > 0 ∧ r.residualChlor = 0) then
    { r with dosingAlarm := 1 }
  else { r with dosingAlarm := 0 }

/-- One scan of `PROGRAM MAIN`. -/
def scan (r : Registers) : Registers := alarm (dosingControl (simulate r))

variable {r : Registers}

@[simp] theorem simulate_inletFlow (r : Registers) : (simulate r).inletFlow = r.inletFlow := by
  unfold simulate
  split <;> rfl

@[simp] theorem dosingControl_inletFlow (r : Registers) :
    (dosingControl r).inletFlow = r.inletFlow := by
  unfold dosingControl
  split_ifs <;> rfl

@[simp] theorem dosingControl_residualChlor (r : Registers) :
    (dosingControl r).residualChlor = r.residualChlor := by
  unfold dosingControl
  split_ifs <;> rfl

@[simp] theorem alarm_inletFlow (r : Registers) : (alarm r).inletFlow = r.inletFlow := by
  unfold alarm
  split <;> rfl

@[simp] theorem alarm_residualChlor (r : Registers) :
    (alarm r).residualChlor = r.residualChlor := by
  unfold alarm
  split <;> rfl

/-- The program never writes the flow. -/
@[simp] theorem scan_inletFlow (r : Registers) : (scan r).inletFlow = r.inletFlow := by
  simp [scan]

/-- The decrement of the program, where it is executed, is exact. -/
def Exact (r : Registers) : Prop := r.residualChlor > 0 → SubExact r.residualChlor 1

/-- The guard of the decrement is what keeps it from wrapping. -/
theorem exact (r : Registers) : Exact r := by
  intro hpos
  rw [subExact_iff, UInt16.le_iff_toNat_le]
  exact UInt16.lt_iff_toNat_lt.mp hpos

theorem scan_residualChlor (r : Registers) :
    (scan r).residualChlor.toNat = r.residualChlor.toNat - 1 := by
  unfold scan
  rw [alarm_residualChlor, dosingControl_residualChlor]
  unfold simulate
  split
  · next hpos =>
    have hexact : (r.residualChlor - 1).toNat + 1 = r.residualChlor.toNat := exact r hpos
    show (r.residualChlor - 1).toNat = _
    omega
  · next hzero =>
    have : r.residualChlor.toNat ≤ 0 := UInt16.le_iff_toNat_le.mp (UInt16.not_lt.mp hzero)
    omega

/-! ## Runs -/

/-- A Modbus write; the other registers are not used by the program. -/
def Registers.write (r : Registers) (register : Nat) (value : UInt16) : Registers :=
  match register with
  | 0 => { r with inletFlow := value }
  | 1 => { r with dosingPump := value }
  | 2 => { r with dosingRate := value }
  | 5 => { r with residualChlor := value }
  | 6 => { r with dosingAlarm := value }
  | _ => r

/-- A Modbus read; the other registers are not used by the program. -/
def Registers.read (r : Registers) (register : Nat) : UInt16 :=
  match register with
  | 0 => r.inletFlow
  | 1 => r.dosingPump
  | 2 => r.dosingRate
  | 5 => r.residualChlor
  | 6 => r.dosingAlarm
  | _ => 0

def step (r : Registers) : Event → Registers
  | .write register value => r.write register value
  | .scan => scan r

/-- The decrement is exact in the scan that the event is. -/
def ExactAt (r : Registers) : Event → Prop
  | .write _ _ => True
  | .scan => Exact r

/-- Only writes to its own register change the residual chlorine between scans. -/
theorem write_residualChlor {register : Nat} (h : register ≠ 5) (r : Registers)
    (value : UInt16) : (r.write register value).residualChlor = r.residualChlor := by
  unfold Registers.write
  split <;> first | rfl | contradiction

/-- **The decrement of the residual chlorine never wraps.** -/
theorem run_exact (r : Registers) (es : List Event) : StepsMeet step ExactAt r es := by
  induction es generalizing r with
  | nil => trivial
  | cons e es ih =>
    refine ⟨?_, ih _⟩
    cases e with
    | write register value => trivial
    | scan => exact exact r

theorem step_residualChlor_le {e : Event} (he : Permitted treatment e) :
    (step r e).residualChlor ≤ r.residualChlor := by
  rw [UInt16.le_iff_toNat_le]
  cases e with
  | write register value =>
    have hne : register ≠ 5 := by
      rcases writable_treatment.mp he with rfl | rfl <;> decide
    show (r.write register value).residualChlor.toNat ≤ _
    rw [write_residualChlor hne]
  | scan =>
    show (scan r).residualChlor.toNat ≤ _
    rw [scan_residualChlor]
    omega

/-- **The residual chlorine never rises** when clients write what the map marks RW. -/
theorem run_residualChlor_le {es : List Event} (hes : ∀ e ∈ es, Permitted treatment e) :
    (run step r es).residualChlor ≤ r.residualChlor := by
  have hstart : r.residualChlor ≤ r.residualChlor := UInt16.le_refl _
  refine run_invariant (fun s => s.residualChlor ≤ r.residualChlor) ?_ hstart
    (stepsMeet_of_forall hes r)
  intro s e hs he
  exact UInt16.le_trans (step_residualChlor_le he) hs

end OtLab.Treatment
