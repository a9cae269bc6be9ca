import Mathlib.Algebra.Order.Group.Int
import Mathlib.Logic.Function.Basic
import OtLab.Plc.Distribution
import OtLab.Plc.Treatment

/-!
# The process stand-in

`lab-environment/modbus-sim/server.py`: `ProcessModel`, which the historian records while the
controllers do not answer. Its registers are Python integers.

* `intake_simulates` — the stand-in of the intake runs in lockstep with the controller
* `mirrors_iff` — the stand-ins of treatment and distribution do so until their first step only
-/

namespace OtLab.StandIn

open Lib Function

/-! ## The model -/

inductive Asset where
  | intake
  | treatment
  | distribution
deriving DecidableEq, Repr

/-- The field names by holding-register offset. -/
def FIELDS : Asset → List (Nat × String)
  | .intake => [(0, "valve"), (1, "pump"), (5, "level"), (6, "alarm")]
  | .treatment => [(0, "flow"), (1, "dosing"), (2, "rate"), (5, "chlorine"), (6, "alarm")]
  | .distribution => [(0, "pump"), (1, "pressure"), (2, "speed"), (5, "runtime"), (6, "alarm")]

/-- The dictionary of the registers by offset. -/
abbrev Registers := Nat → ℤ

/-- The registers of a new `ProcessModel`. -/
def init : Registers := fun _ => 0

def stepIntake (registers : Registers) : Registers :=
  let registers := if registers 5 < 20 then update registers 0 1 else registers
  let registers := update registers 5 (registers 5 + if registers 0 = 1 then 1 else -1)
  let registers := update registers 5 (max 0 (min 100 (registers 5)))
  let registers :=
    if registers 5 > 95 then update (update registers 0 0) 6 1 else update registers 6 0
  update registers 1 (if registers 0 ≠ 0 then 60 else 0)

def stepTreatment (registers : Registers) : Registers :=
  let registers := update registers 0 40
  let registers := update registers 5 (if registers 5 > 0 then registers 5 - 1 else 0)
  let registers :=
    if registers 5 < 20 then
      let registers := update (update registers 1 1) 2 50
      update registers 5 (min 100 (registers 5 + 3))
    else if registers 5 ≥ 40 then update (update registers 1 0) 2 0
    else registers
  update registers 6
    (if registers 5 > 60 ∨ (registers 0 > 0 ∧ registers 5 = 0) then 1 else 0)

def stepDistribution (registers : Registers) : Registers :=
  let registers :=
    if registers 1 > 0 then update registers 1 (max 0 (registers 1 - 2))
    else
      let registers := update registers 1 (min 10 (registers 1 + 1))
      update registers 5 ((registers 5 + 1) % 24)
  let registers := update registers 0 (if registers 1 < 2 then 1 else 0)
  update registers 6 (if registers 0 = 1 ∧ registers 1 < 2 then 1 else 0)

/-- One call of `ProcessModel(asset).step`. -/
def step : Asset → Registers → Registers
  | .intake => stepIntake
  | .treatment => stepTreatment
  | .distribution => stepDistribution

/-! ## The intake -/

variable {m : Registers} {r : Intake.Registers}

/-- The level a step ends with. -/
def levelAfter (m : Registers) : ℤ :=
  max 0 (min 100 (m 5 + if m 5 < 20 ∨ m 0 = 1 then 1 else -1))

theorem stepIntake_spec (m : Registers) :
    stepIntake m 5 = levelAfter m ∧
      stepIntake m 0 = (if 95 < levelAfter m then 0 else if m 5 < 20 then 1 else m 0) ∧
      stepIntake m 6 = if 95 < levelAfter m then 1 else 0 := by
  unfold stepIntake levelAfter
  by_cases hlow : m 5 < 20
  · simp only [hlow, if_true, true_or]
    by_cases hhigh : 95 < max 0 (min 100 (m 5 + 1)) <;> simp [hhigh]
  · simp only [hlow, if_false, false_or]
    by_cases hhigh : 95 < max 0 (min 100 (m 5 + if m 0 = 1 then 1 else -1)) <;> simp [hhigh]

/-- The stand-in holds the valve, the level and the alarm of the controller. -/
structure Agrees (m : Registers) (r : Intake.Registers) : Prop where
  valve : m 0 = (r.read 0).toNat
  level : m 5 = (r.read 5).toNat
  alarm : m 6 = (r.read 6).toNat

theorem Agrees.low_iff (h : Agrees m r) : m 5 < 20 ↔ r.tankLevel < 20 := by
  rw [h.level, UInt16.lt_iff_toNat_lt]
  exact Int.ofNat_lt

theorem Agrees.open_iff (h : Agrees m r) : m 0 = 1 ↔ r.inletValve = 1 := by
  rw [h.valve, ← UInt16.toNat_inj]
  exact Int.ofNat_inj

theorem Agrees.fills_iff (h : Agrees m r) : m 5 < 20 ∨ m 0 = 1 ↔ Intake.Fills r :=
  or_congr h.low_iff h.open_iff

/-- In the range where neither arithmetic leaves the naturals the levels stay equal. -/
theorem Agrees.levelAfter_eq (h : Agrees m r) (hlevel : r.tankLevel ≤ 100) :
    levelAfter m = (Intake.scan r).tankLevel.toNat := by
  have hle : r.tankLevel.toNat ≤ 100 := UInt16.le_iff_toNat_le.mp hlevel
  have hm : m 5 = r.tankLevel.toNat := h.level
  unfold levelAfter
  by_cases hf : Intake.Fills r
  · rw [if_pos (h.fills_iff.mpr hf), Intake.scan_tankLevel_of_fills hf, hm]
    omega
  · have h20 := Intake.le_of_not_fills hf
    rw [if_neg (mt h.fills_iff.mp hf), Intake.scan_tankLevel_of_not_fills hf, hm]
    omega

/-- A step and a scan keep the agreement. -/
theorem Agrees.step (h : Agrees m r) (hlevel : r.tankLevel ≤ 100) :
    Agrees (stepIntake m) (Intake.scan r) := by
  obtain ⟨hlevel', hvalve', halarm'⟩ := stepIntake_spec m
  have heq := h.levelAfter_eq hlevel
  have hhigh : 95 < levelAfter m ↔ 95 < (Intake.scan r).tankLevel := by
    rw [heq, UInt16.lt_iff_toNat_lt]
    exact Int.ofNat_lt
  refine ⟨?_, hlevel'.trans heq, ?_⟩
  · show _ = ((Intake.scan r).inletValve.toNat : ℤ)
    rw [hvalve', Intake.scan_inletValve]
    by_cases h95 : 95 < (Intake.scan r).tankLevel
    · rw [if_pos (hhigh.mpr h95), if_pos h95]
      rfl
    · rw [if_neg (mt hhigh.mp h95), if_neg h95]
      by_cases hlow : m 5 < 20
      · rw [if_pos hlow, if_pos (h.fills_iff.mp (Or.inl hlow))]
        rfl
      · rw [if_neg hlow, h.valve]
        -- above 20 the tank fills only through a valve that is open already
        by_cases hf : Intake.Fills r
        · rw [if_pos hf, ← h.open_iff.mp ((h.fills_iff.mpr hf).resolve_left hlow)]
          rfl
        · rw [if_neg hf]
          rfl
  · show _ = ((Intake.scan r).alarm.toNat : ℤ)
    rw [halarm', Intake.scan_alarm]
    by_cases h95 : 95 < (Intake.scan r).tankLevel
    · rw [if_pos (hhigh.mpr h95), if_pos h95]
      rfl
    · rw [if_neg (mt hhigh.mp h95), if_neg h95]
      rfl

/--
**The stand-in simulates the intake controller.**

The controller adds and subtracts modulo `2 ^ 16` and clamps on one side only; a level that starts
in 0..100 keeps both programs where that makes no difference.
-/
theorem intake_simulates (h : Agrees m r) (hlevel : r.tankLevel ≤ 100) (n : ℕ) :
    Agrees ((step .intake)^[n] m) (Intake.scan^[n] r) := by
  have hstep : ∀ (m : Registers) (r : Intake.Registers),
      Agrees m r ∧ r.tankLevel ≤ 100 →
        Agrees (step .intake m) (Intake.scan r) ∧ (Intake.scan r).tankLevel ≤ 100 :=
    fun m r h => ⟨h.1.step h.2, (Intake.scan_interlocked r).1.level_le⟩
  exact (iterate_lockstep (fun m r => Agrees m r ∧ r.tankLevel ≤ 100) hstep ⟨h, hlevel⟩ n).1

/-- Both from all-zero registers. -/
theorem intake_simulates_init : Agrees ((step .intake)^[30] init) (Intake.scan^[30] ⟨0, 0, 0, 0⟩) :=
  intake_simulates ⟨rfl, rfl, rfl⟩ (by decide) 30

/-! ## Treatment and distribution -/

/-- A holding register of the controller after `n` scans from all-zero registers. -/
def controllerAfter : Asset → ℕ → Nat → UInt16
  | .intake, n => (Intake.scan^[n] ⟨0, 0, 0, 0⟩).read
  | .treatment, n => (Treatment.scan^[n] .zero).read
  | .distribution, n => (Distribution.scan^[n] .zero).read

/-- After `n` steps every field of the stand-in equals the register of the controller. -/
def Mirrors (asset : Asset) (n : ℕ) : Prop :=
  ∀ field ∈ FIELDS asset,
    (step asset)^[n] init field.1 = (controllerAfter asset n field.1).toNat

instance (asset : Asset) (n : ℕ) : Decidable (Mirrors asset n) :=
  List.decidableBAll _ (FIELDS asset)

theorem mirrors_zero (asset : Asset) : Mirrors asset 0 := by
  cases asset <;> decide

/-- The treatment program never writes the flow. -/
theorem controllerAfter_flow (n : ℕ) : controllerAfter .treatment n 0 = 0 := by
  show (Treatment.scan^[n] .zero).inletFlow = 0
  induction n with
  | zero => rfl
  | succ n ih => rw [iterate_succ_apply', Treatment.scan_inletFlow, ih]

/-- The stand-in sets it in every step. -/
theorem stepTreatment_flow (m : Registers) : stepTreatment m 0 = 40 := by
  unfold stepTreatment
  split_ifs <;> simp

/-- The distribution program never writes the pump command. -/
theorem controllerAfter_pumpCommand (n : ℕ) : controllerAfter .distribution n 0 = 0 := by
  show (Distribution.scan^[n] .zero).pumpCommand = 0
  induction n with
  | zero => rfl
  | succ n ih => rw [iterate_succ_apply', Distribution.scan_pumpCommand, ih]

/-- The pressure of the stand-in goes back and forth between 0 and 1. -/
theorem stepDistribution_pressure (h : m 1 = 0 ∨ m 1 = 1) :
    (stepDistribution m 1 = 0 ∨ stepDistribution m 1 = 1) ∧ stepDistribution m 0 = 1 := by
  unfold stepDistribution
  rcases h with h | h <;> simp [h]

theorem distribution_pressure (n : ℕ) :
    (step .distribution)^[n] init 1 = 0 ∨ (step .distribution)^[n] init 1 = 1 := by
  induction n with
  | zero => exact Or.inl rfl
  | succ n ih =>
    rw [iterate_succ_apply']
    exact (stepDistribution_pressure ih).1

theorem not_mirrors_treatment (n : ℕ) : ¬ Mirrors .treatment (n + 1) := by
  intro h
  have hflow := h (0, "flow") (by decide)
  rw [controllerAfter_flow, iterate_succ_apply'] at hflow
  exact absurd ((stepTreatment_flow _).symm.trans hflow) (by decide)

theorem not_mirrors_distribution (n : ℕ) : ¬ Mirrors .distribution (n + 1) := by
  intro h
  have hpump := h (0, "pump") (by decide)
  rw [controllerAfter_pumpCommand, iterate_succ_apply'] at hpump
  have hon := (stepDistribution_pressure (distribution_pressure n)).2
  exact absurd (hon.symm.trans hpump) (by decide)

/--
**The stand-ins of treatment and distribution mirror their controllers before the first step
only.**

From the first step on the one reports a flow of 40, the other a running pump, and neither program
ever writes these registers.
-/
theorem mirrors_iff (n : ℕ) :
    (Mirrors .treatment n ↔ n = 0) ∧ (Mirrors .distribution n ↔ n = 0) := by
  cases n with
  | zero => exact ⟨iff_of_true (mirrors_zero _) rfl, iff_of_true (mirrors_zero _) rfl⟩
  | succ n =>
    exact ⟨iff_of_false (not_mirrors_treatment n) (by omega),
      iff_of_false (not_mirrors_distribution n) (by omega)⟩

/-- One step of the treatment stand-in. -/
theorem treatment_flow_differs :
    ¬ ∀ (asset : Asset) (n : ℕ), asset ≠ .intake → Mirrors asset n := by
  intro h
  have hflow := h .treatment 1 (by decide) (0, "flow") (by decide)
  exact absurd hflow (by decide)

end OtLab.StandIn
