import OtLab.Plc.Distribution
import OtLab.Plc.Treatment

/-!
# Process values that wrap

The increments and decrements of the three programs, over runs from all-zero registers in which
clients write what the register map marks RW.

* `Intake.run_exact` — the level never wraps
* `noWrap_iff` — only the pump runtime can, in the 65536th scan with the pump on
-/

namespace OtLab

open Lib RegisterMap

/-! ## The intake controller -/

namespace Intake

def Registers.zero : Registers := ⟨0, 0, 0, 0⟩

/-- The increment and the decrement of the program, where they are executed, are exact. -/
structure Exact (r : Registers) : Prop where
  fills : (levelControl r).inletValve = 1 → AddExact (levelControl r).tankLevel 1
  drains : (levelControl r).inletValve ≠ 1 → SubExact (levelControl r).tankLevel 1

/-- The increment and the decrement are exact in the scan that the event is. -/
def ExactAt (r : Registers) : Event → Prop
  | .write _ _ => True
  | .scan => Exact r

variable {r : Registers} {es : List Event}

@[simp] theorem levelControl_tankLevel (r : Registers) :
    (levelControl r).tankLevel = r.tankLevel := by
  unfold levelControl
  split <;> rfl

/-- From a level in range neither wraps. -/
theorem exact_of_le (h : r.tankLevel ≤ 100) : Exact r := by
  refine ⟨fun _ => ?_, (scan_interlocked r).2⟩
  have hle : r.tankLevel.toNat ≤ 100 := UInt16.le_iff_toNat_le.mp h
  rw [addExact_iff, levelControl_tankLevel]
  show r.tankLevel.toNat + 1 < 2 ^ 16
  omega

theorem step_tankLevel_le_max {e : Event} (he : Permitted intake e) (h : r.tankLevel ≤ 100) :
    (step r e).tankLevel ≤ 100 := by
  cases e with
  | write register value =>
    have hne : register ≠ 5 := by
      rcases writable_intake.mp he with rfl | rfl <;> decide
    show (r.write register value).tankLevel ≤ 100
    rw [write_tankLevel hne]
    exact h
  | scan => exact (scan_interlocked r).1.level_le

theorem run_tankLevel_le_max (hes : ∀ e ∈ es, Permitted intake e) (h : r.tankLevel ≤ 100) :
    (run step r es).tankLevel ≤ 100 :=
  run_invariant (fun s => s.tankLevel ≤ 100)
    (fun _ _ hs he => step_tankLevel_le_max he hs) h (stepsMeet_of_forall hes r)

/-- **The level never wraps.** -/
theorem run_exact (hes : ∀ e ∈ es, Permitted intake e) (h : r.tankLevel ≤ 100) :
    StepsMeet step ExactAt r es := by
  induction es generalizing r with
  | nil => trivial
  | cons e es ih =>
    have he := hes e (by simp)
    refine ⟨?_, ih (fun x hx => hes x (by simp [hx])) (step_tankLevel_le_max he h)⟩
    cases e with
    | write register value => trivial
    | scan => exact exact_of_le h

end Intake

/-! ## The three programs together -/

open Intake (Event)

/-- No process value wraps in runs of the three programs, and what follows from it. -/
structure NoWrap (intakeRun treatmentRun distributionRun : List Event) : Prop where
  intake : StepsMeet Intake.step Intake.ExactAt .zero intakeRun
  treatment : StepsMeet Treatment.step Treatment.ExactAt .zero treatmentRun
  distribution : StepsMeet Distribution.step Distribution.ExactAt .zero distributionRun
  tankLevel_le : ∀ l, l <+: intakeRun → (run Intake.step .zero l).tankLevel ≤ 100
  dischargePres_le : ∀ l, l <+: distributionRun →
    (run Distribution.step .zero l).dischargePres ≤ 10
  residualChlor_le : ∀ l m, l <+: m → m <+: treatmentRun →
    (run Treatment.step .zero m).residualChlor ≤ (run Treatment.step .zero l).residualChlor
  pumpRuntime_le : ∀ l m, l <+: m → m <+: distributionRun →
    (run Distribution.step .zero l).pumpRuntime ≤ (run Distribution.step .zero m).pumpRuntime

variable {intakeRun treatmentRun distributionRun : List Event}

theorem permitted_mono {map : List Row} {l es : List Event} (hl : l <+: es)
    (hes : ∀ e ∈ es, Permitted map e) : ∀ e ∈ l, Permitted map e :=
  fun e he => hes e (hl.subset he)

/-- The accumulator of a run that wraps nowhere never decreases. -/
theorem Distribution.pumpRuntime_mono {l m es : List Event} {r : Distribution.Registers}
    (hes : ∀ e ∈ es, Permitted distribution e) (h : StepsMeet step ExactAt r es)
    (hl : l <+: m) (hm : m <+: es) : (run step r l).pumpRuntime ≤ (run step r m).pumpRuntime := by
  obtain ⟨k, rfl⟩ := hl
  obtain ⟨k', rfl⟩ := hm
  rw [List.append_assoc, stepsMeet_append, stepsMeet_append] at h
  rw [run_append, UInt16.le_iff_toNat_le, run_pumpRuntime (fun e he => hes e (by simp [he])) h.2.1]
  exact Nat.le_add_right _ _

/--
**No process value wraps exactly when at most 65535 scans of the distribution program find the
pump on.**

The runs start from all-zero registers, and clients write any value to any register that the map
marks RW.
-/
theorem noWrap_iff (hI : ∀ e ∈ intakeRun, Permitted RegisterMap.intake e)
    (hT : ∀ e ∈ treatmentRun, Permitted RegisterMap.treatment e)
    (hD : ∀ e ∈ distributionRun, Permitted RegisterMap.distribution e) :
    NoWrap intakeRun treatmentRun distributionRun ↔
      Distribution.pumpOnScans 0 distributionRun ≤ 65535 := by
  have hzero : Distribution.Registers.zero.dischargePres ≤ 10 := by decide
  have hlevel : Intake.Registers.zero.tankLevel ≤ 100 := by decide
  have hiff : StepsMeet Distribution.step Distribution.ExactAt .zero distributionRun ↔
      Distribution.pumpOnScans 0 distributionRun ≤ 65535 := by
    rw [Distribution.run_exact_iff hD hzero]
    show 0 + Distribution.pumpOnScans 0 distributionRun < 2 ^ 16 ↔ _
    omega
  refine ⟨fun h => hiff.mp h.distribution, fun h => ?_⟩
  have hexact := hiff.mpr h
  refine ⟨Intake.run_exact hI hlevel, Treatment.run_exact _ _, hexact, ?_, ?_, ?_, ?_⟩
  · intro l hl
    exact Intake.run_tankLevel_le_max (permitted_mono hl hI) hlevel
  · intro l hl
    exact Distribution.run_dischargePres_le (permitted_mono hl hD) hzero
  · rintro l m ⟨k, rfl⟩ hm
    rw [run_append]
    exact Treatment.run_residualChlor_le fun e he => hT e (hm.subset (by simp [he]))
  · intro l m hl hm
    exact Distribution.pumpRuntime_mono hD hexact hl hm

/-- The pump on for one scan. -/
theorem noWrap_one_scan : NoWrap [.scan] [.scan] [.write 0 1, .scan] :=
  (noWrap_iff (by decide) (by decide) (by decide)).mpr (by decide)

/-- The pump switched on, and left on for `n` scans. -/
def pumpOn (n : Nat) : List Event := .write 0 1 :: List.replicate n .scan

theorem permitted_pumpOn (n : Nat) : ∀ e ∈ pumpOn n, Permitted RegisterMap.distribution e := by
  intro e he
  rcases List.mem_cons.mp he with rfl | he
  · decide
  · rw [List.eq_of_mem_replicate he]
    trivial

theorem pumpOnScans_pumpOn (n : Nat) : Distribution.pumpOnScans 0 (pumpOn n) = n := by
  show Distribution.pumpOnScans 1 (List.replicate n .scan) = n
  induction n with
  | zero => rfl
  | succ n ih =>
    show 1 + Distribution.pumpOnScans 1 (List.replicate n .scan) = n + 1
    rw [ih, Nat.add_comm]

/-- Nine hours with the pump on: the 65536th scan wraps the accumulated runtime to zero. -/
theorem pumpRuntime_wraps :
    ¬ ∀ intakeRun treatmentRun distributionRun : List Event,
      (∀ e ∈ intakeRun, Permitted RegisterMap.intake e) →
      (∀ e ∈ treatmentRun, Permitted RegisterMap.treatment e) →
      (∀ e ∈ distributionRun, Permitted RegisterMap.distribution e) →
      NoWrap intakeRun treatmentRun distributionRun := by
  intro h
  have hexact := (h [] [] (pumpOn 65536) (by simp) (by simp) (permitted_pumpOn _)).distribution
  rw [Distribution.run_exact_iff (permitted_pumpOn _) (by decide)] at hexact
  have hcount : Distribution.pumpOnScans Distribution.Registers.zero.pumpCommand (pumpOn 65536)
      = 65536 := pumpOnScans_pumpOn 65536
  omega

end OtLab
