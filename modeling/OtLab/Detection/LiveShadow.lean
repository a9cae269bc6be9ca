import OtLab.Detection.SafetyAlerts
import OtLab.Plc.Intake

/-!
# The monitor at a running plant

The intake controller scans while the monitor looks at the traffic, so the level the monitor
remembers grows old: it is the one of the last response, and every scan since may have moved the
level by one.

* `inv_run` — the remembered level is off by no more than the scans since it was shown
* `alert_within_lag` — so an opening of the valve is reported above the threshold and only there, up
  to as many percent
-/

namespace OtLab.ProcessSafety

open Lib

/-! ## The plant -/

/-- The registers of the controller, the monitor, and the scans since it was shown a level. -/
structure Plant where
  registers : Intake.Registers
  shadow : Shadow
  lag : Nat

namespace Plant

/-- A scan of the controller, or a packet that the monitor sees. -/
inductive Event where
  | scan
  | traffic (t : Traffic)

/-- The controller and the monitor at their start. -/
def start : Plant := ⟨⟨0, 0, 0, 0⟩, resetState, 0⟩

def level (g : Plant) : Nat := g.registers.tankLevel.toNat

section Plant

variable (cfg : Config)

/-- The registers after a packet: the controller does what it is asked to. -/
def served (g : Plant) : Traffic → Intake.Registers
  | .write w =>
    if w.dst = cfg.plcIp then
      w.body.writes.foldl (fun r write => r.write write.1.toNat (UInt16.ofNat write.2)) g.registers
    else g.registers
  | _ => g.registers

def step (g : Plant) : Event → Plant
  | .scan => { g with registers := Intake.scan g.registers, lag := g.lag + 1 }
  | .traffic t =>
    { registers := g.served cfg t
      shadow := (observe cfg g.shadow (t.packet cfg)).1
      lag := if (t.level? cfg).isSome then 0 else g.lag }

/-- Responses are answered from the registers, and no client writes the level. -/
def Live (g : Plant) : Event → Prop
  | .scan => True
  | .traffic t => t.Covered cfg ∧
    match t with
    | .response r => r.file = g.registers.read
    | .write w => w.dst = cfg.plcIp → ∀ write ∈ w.body.writes, write.1 ≠ cfg.tankLevelReg
    | .other _ => True

/-- The level is in range, and off by no more than the lag from the one remembered. -/
structure Inv (g : Plant) : Prop where
  level_le : g.level ≤ 100
  le_shadow : g.level ≤ g.shadow cfg.tankLevelReg + g.lag
  shadow_le : g.shadow cfg.tankLevelReg ≤ g.level + g.lag

end Plant

/-- The registers the monitor is configured for are those of the controller. -/
structure AtIntake (cfg : Config) : Prop where
  inletValve : cfg.inletValveReg = 0
  tankLevel : cfg.tankLevelReg = 5

variable {cfg : Config} {g : Plant}

theorem AtIntake.inletValve_ne (h : AtIntake cfg) : cfg.inletValveReg ≠ cfg.tankLevelReg := by
  rw [h.inletValve, h.tankLevel]
  decide

theorem AtIntake.tankLevel_nonneg (h : AtIntake cfg) : 0 ≤ cfg.tankLevelReg := by
  rw [h.tankLevel]
  decide

/-- **A scan moves the level by one at most.** -/
theorem level_scan (h : g.level ≤ 100) :
    (Intake.scan g.registers).tankLevel.toNat ≤ g.level + 1 ∧
      g.level ≤ (Intake.scan g.registers).tankLevel.toNat + 1 := by
  unfold level at h ⊢
  by_cases hf : Intake.Fills g.registers
  · rw [Intake.scan_tankLevel_of_fills hf]
    omega
  · rw [Intake.scan_tankLevel_of_not_fills hf]
    omega

theorem foldl_write_tankLevel {writes : List (Int × Nat)} (h : ∀ write ∈ writes, write.1 ≠ 5)
    (r : Intake.Registers) :
    (writes.foldl (fun r write => r.write write.1.toNat (UInt16.ofNat write.2)) r).tankLevel
      = r.tankLevel := by
  induction writes generalizing r with
  | nil => rfl
  | cons write writes ih =>
    rw [List.foldl_cons, ih fun w hw => h w (List.mem_cons_of_mem write hw)]
    have hne := h write List.mem_cons_self
    exact Intake.write_tankLevel (by omega) r _

/-- No packet moves the level. -/
theorem served_tankLevel (hcfg : AtIntake cfg) {t : Traffic} (h : g.Live cfg (.traffic t)) :
    (g.served cfg t).tankLevel = g.registers.tankLevel := by
  cases t with
  | write w =>
    show (if w.dst = cfg.plcIp then _ else g.registers).tankLevel = _
    split
    · next hdst =>
      refine foldl_write_tankLevel (fun write hw => ?_) g.registers
      rw [← hcfg.tankLevel]
      exact h.2 hdst write hw
    · rfl
  | response r => rfl
  | other p => rfl

theorem inv_start (cfg : Config) : Inv cfg start :=
  ⟨Nat.zero_le 100, Nat.zero_le _, Nat.zero_le _⟩

theorem Inv.step (hcfg : AtIntake cfg) (e : Event) (h : Inv cfg g) (he : g.Live cfg e) :
    Inv cfg (g.step cfg e) := by
  obtain ⟨hlevel, hle, hge⟩ := h
  cases e with
  | scan =>
    obtain ⟨hup, hdown⟩ := level_scan hlevel
    have h100 := Intake.scan_tankLevel_le g.registers
    refine ⟨h100, ?_, ?_⟩
    · show (Intake.scan g.registers).tankLevel.toNat ≤ g.shadow cfg.tankLevelReg + (g.lag + 1)
      omega
    · show g.shadow cfg.tankLevelReg ≤ (Intake.scan g.registers).tankLevel.toNat + (g.lag + 1)
      omega
  | traffic t =>
    have hkept : (g.step cfg (.traffic t)).level = g.level :=
      congrArg UInt16.toNat (served_tankLevel hcfg he)
    have hshadow : (g.step cfg (.traffic t)).shadow cfg.tankLevelReg = _ :=
      (@observe_covered cfg t g.shadow hcfg.inletValve_ne hcfg.tankLevel_nonneg he.1).1
    cases hshown : t.level? cfg with
    | none =>
      have hlag : (g.step cfg (.traffic t)).lag = g.lag := by
        simp [Plant.step, hshown]
      rw [hshown, Option.elim_none] at hshadow
      refine ⟨?_, ?_, ?_⟩
      · rwa [hkept]
      · rwa [hkept, hshadow, hlag]
      · rwa [hkept, hshadow, hlag]
    | some v =>
      -- only a response shows a level, and it is the one of the registers
      have hv : v.toNat = g.level := by
        cases t with
        | response r =>
          have hfile : r.file = g.registers.read := he.2
          rw [Traffic.level?, hfile, hcfg.tankLevel] at hshown
          split at hshown
          · exact congrArg UInt16.toNat (Option.some.inj hshown).symm
          · cases hshown
        | write w => cases hshown
        | other p => cases hshown
      rw [hshown, Option.elim_some, hv] at hshadow
      refine ⟨?_, ?_, ?_⟩
      · rwa [hkept]
      · rw [hkept, hshadow]
        exact Nat.le_add_right _ _
      · rw [hkept, hshadow]
        exact Nat.le_add_right _ _

theorem inv_run (hcfg : AtIntake cfg) {es : List Event}
    (hes : StepsMeet (step cfg) (Live cfg) start es) : Inv cfg (run (step cfg) start es) :=
  run_invariant (Inv cfg) (fun _ e h he => h.step hcfg e he) (inv_start cfg) hes

/--
**An alert is right up to the scans since the last reading.**

The controller scans, clients read its registers and write all but the level, the monitor watches.
In every such run, a request that opens the valve is reported when the level exceeds the threshold
by more than the number of scans since the monitor saw a level; nothing else is reported, and not
unless the level is above the threshold less this number.
-/
theorem alert_within_lag (cfg : Config) (hcfg : AtIntake cfg) (es : List Event)
    (hes : StepsMeet (step cfg) (Live cfg) start es) (t : Traffic) (ht : t.Covered cfg) :
    let g := run (step cfg) start es
    let alerts := alertsOf (observe cfg g.shadow (t.packet cfg)).2
    (t.OpensValve cfg → cfg.levelThreshold + g.lag < g.level →
        alerts = [violation cfg (t.packet cfg).src (g.shadow cfg.tankLevelReg)]) ∧
      (alerts ≠ [] → t.OpensValve cfg ∧ cfg.levelThreshold < g.level + g.lag) ∧
      g.level ≤ g.shadow cfg.tankLevelReg + g.lag ∧
      g.shadow cfg.tankLevelReg ≤ g.level + g.lag := by
  intro g alerts
  obtain ⟨-, hle, hge⟩ : Inv cfg g := inv_run hcfg hes
  have halerts : alerts = _ :=
    (@observe_covered cfg t g.shadow hcfg.inletValve_ne hcfg.tankLevel_nonneg ht).2
  rw [halerts]
  refine ⟨fun hopens habove => if_pos ⟨hopens, by omega⟩, fun hraised => ?_, hle, hge⟩
  split at hraised
  · next h => exact ⟨h.1, by omega⟩
  · exact absurd rfl hraised

/-- The HMI reads the whole image of the controller. -/
def imageOf (registers : Intake.Registers) : ReadResponse :=
  { wholeImage with file := registers.read }

/-- The tank fills to 93, the HMI reads the registers, and a scan later the valve is opened. -/
theorem alert_within_lag_openInlet :
    let filled := run (step defaultConfig) start (List.replicate 93 .scan)
    let es : List Event := List.replicate 93 .scan
      ++ [.traffic (.response (imageOf filled.registers)), .scan]
    alertsOf (observe defaultConfig (run (step defaultConfig) start es).shadow openInlet.packet).2
      ≠ [] := by
  intro filled es
  have hscans : ∀ n g, StepsMeet (step defaultConfig) (Live defaultConfig) g
      (List.replicate n .scan) := by
    intro n
    induction n with
    | zero => exact fun _ => trivial
    | succ n ih => exact fun g => ⟨trivial, ih _⟩
  have hes : StepsMeet (step defaultConfig) (Live defaultConfig) start es :=
    stepsMeet_append.mpr ⟨hscans 93 start, ⟨⟨rfl, by decide⟩, rfl⟩, trivial, trivial⟩
  have halerts := (alert_within_lag defaultConfig ⟨rfl, rfl⟩ es hes (.write openInlet) trivial).1
    (by decide) (by decide +kernel)
  exact fun hnil => List.cons_ne_nil _ _ (halerts.symm.trans hnil)

end Plant

end OtLab.ProcessSafety
