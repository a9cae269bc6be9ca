import OtLab.Lib.Amortized
import OtLab.Plc.Distribution
import OtLab.Plc.Treatment

/-!
# Control loops that do not close

The treatment program decides on the dosing pump by a chlorine level that only ever decays, and the
distribution program raises its alarm by a pressure that the running pump itself builds up. Both
loops are looked at over runs with Modbus writes between the scans.

* `Treatment.dosing_saturates` — the dosing decision is made once, and never taken back
* `Treatment.inert_without_flow` — through the registers the map marks RW it is never made
* `Distribution.alarms_le` — the pressure alarm is up for one scan after each scan with the pump off
-/

namespace OtLab

open Lib RegisterMap
open Intake (Event)

/-- How many events of a run are scans. -/
def scans (es : List Event) : Nat := es.count .scan

/-- The event does not write the register. -/
def Spares (register : Nat) : Event → Prop
  | .write register' _ => register' ≠ register
  | .scan => True

instance (register : Nat) : DecidablePred (Spares register)
  | .write _ _ => inferInstanceAs (Decidable (_ ≠ _))
  | .scan => inferInstanceAs (Decidable True)

/-! ## The treatment controller -/

namespace Treatment

variable {r : Registers} {es : List Event} {e : Event}

/-- **The chlorine decays by one in every scan**, whatever the clients write elsewhere. -/
theorem run_residualChlor (hes : ∀ e ∈ es, Spares 5 e) :
    (run step r es).residualChlor.toNat = r.residualChlor.toNat - scans es := by
  induction es generalizing r with
  | nil => rfl
  | cons e es ih =>
    obtain ⟨he, hes'⟩ := List.forall_mem_cons.mp hes
    rw [run_cons, ih hes']
    unfold scans
    cases e with
    | write register value =>
      rw [List.count_cons_of_ne (by simp)]
      show (r.write register value).residualChlor.toNat - _ = _
      rw [write_residualChlor he]
    | scan =>
      rw [List.count_cons_self]
      show (scan r).residualChlor.toNat - _ = _
      rw [scan_residualChlor]
      omega

/-- What a scan does to the pump and the rate, by the chlorine it leaves. -/
theorem scan_dosing (r : Registers) :
    ((scan r).dosingPump, (scan r).dosingRate) =
      if 0 < r.inletFlow ∧ (scan r).residualChlor.toNat < 20 then (1, 50)
      else if 40 ≤ (scan r).residualChlor.toNat then (0, 0)
      else (r.dosingPump, r.dosingRate) := by
  have hchlor : (scan r).residualChlor = (simulate r).residualChlor := by
    rw [scan, alarm_residualChlor, dosingControl_residualChlor]
  have hpump : (simulate r).dosingPump = r.dosingPump ∧ (simulate r).dosingRate = r.dosingRate := by
    unfold simulate
    split <;> exact ⟨rfl, rfl⟩
  have halarm : ∀ s : Registers, (alarm s).dosingPump = s.dosingPump ∧
      (alarm s).dosingRate = s.dosingRate := by
    intro s
    unfold alarm
    split <;> exact ⟨rfl, rfl⟩
  have hlow : (simulate r).residualChlor < 20 ↔ (simulate r).residualChlor.toNat < 20 :=
    UInt16.lt_iff_toNat_lt
  have hhigh : (simulate r).residualChlor ≥ 40 ↔ 40 ≤ (simulate r).residualChlor.toNat :=
    UInt16.le_iff_toNat_le
  rw [hchlor, scan, (halarm _).1, (halarm _).2]
  unfold dosingControl
  simp only [simulate_inletFlow, hlow, hhigh, gt_iff_lt]
  split_ifs
  · rfl
  · rfl
  · rw [hpump.1, hpump.2]

theorem scan_dosingAlarm (r : Registers) :
    (scan r).dosingAlarm =
      if 60 < (scan r).residualChlor.toNat ∨
        (0 < r.inletFlow ∧ (scan r).residualChlor.toNat = 0) then 1 else 0 := by
  have hchlor : (scan r).residualChlor = (dosingControl (simulate r)).residualChlor := by
    rw [scan, alarm_residualChlor]
  have hflow : (dosingControl (simulate r)).inletFlow = r.inletFlow := by
    rw [dosingControl_inletFlow, simulate_inletFlow]
  have hhigh : 60 < (dosingControl (simulate r)).residualChlor ↔
      60 < (dosingControl (simulate r)).residualChlor.toNat := UInt16.lt_iff_toNat_lt
  have hzero : (dosingControl (simulate r)).residualChlor = 0 ↔
      (dosingControl (simulate r)).residualChlor.toNat = 0 := UInt16.toNat_inj.symm
  rw [hchlor, ← hflow, scan, alarm]
  simp only [gt_iff_lt, hhigh, hzero]
  split_ifs <;> rfl

/--
**The dosing decision is never taken back.**

From any registers, once a run has had as many scans as the chlorine was above 19 (and nobody wrote
the chlorine), every further scan with flow leaves the pump on at 50 %, whatever the clients wrote
to it, and raises the alarm exactly when the chlorine is used up; every scan without flow leaves
pump and rate as the clients wrote them, without alarm.
-/
theorem dosing_saturates (r : Registers) (es : List Event) (hes : ∀ e ∈ es, Spares 5 e)
    (hlong : r.residualChlor.toNat ≤ scans es + 20) :
    let s := run step r es
    (0 < s.inletFlow → (scan s).dosingPump = 1 ∧ (scan s).dosingRate = 50 ∧
        ((scan s).dosingAlarm = 1 ↔ r.residualChlor.toNat ≤ scans es + 1)) ∧
      (s.inletFlow = 0 → (scan s).dosingPump = s.dosingPump ∧ (scan s).dosingRate = s.dosingRate ∧
        (scan s).dosingAlarm = 0) := by
  intro s
  have hchlor : (scan s).residualChlor.toNat = r.residualChlor.toNat - (scans es + 1) := by
    rw [scan_residualChlor, run_residualChlor hes]
    omega
  have hdosing := scan_dosing s
  have halarm := scan_dosingAlarm s
  rw [hchlor] at hdosing halarm
  constructor
  · intro hflow
    rw [if_pos ⟨hflow, by omega⟩] at hdosing
    obtain ⟨hpump, hrate⟩ := Prod.mk.inj hdosing
    refine ⟨hpump, hrate, ?_⟩
    have hused : (60 < r.residualChlor.toNat - (scans es + 1) ∨
        (0 < s.inletFlow ∧ r.residualChlor.toNat - (scans es + 1) = 0)) ↔
        r.residualChlor.toNat ≤ scans es + 1 := by
      simp only [hflow, true_and]
      omega
    rw [halarm, if_congr hused rfl rfl]
    split <;> simp_all
  · intro hflow
    have hnone : ¬ 0 < s.inletFlow := by
      rw [hflow]
      decide
    rw [if_neg fun h => hnone h.1, if_neg (by omega)] at hdosing
    obtain ⟨hpump, hrate⟩ := Prod.mk.inj hdosing
    refine ⟨hpump, hrate, ?_⟩
    rw [halarm, if_neg]
    rintro (h | h)
    · omega
    · exact hnone h.1

/-- With the flow on, a client that switches the pump off finds it on again after the next scan. -/
theorem dosing_saturates_switched_off :
    (scan (run step ⟨7, 1, 50, 3, 0⟩ [.scan, .write 1 0, .write 2 0])).dosingPump = 1 :=
  ((dosing_saturates ⟨7, 1, 50, 3, 0⟩ [.scan, .write 1 0, .write 2 0]
    (by decide) (by decide)).1 (by decide)).1

/-- The value a register was last written, if it was written at all. -/
def lastWrite (register : Nat) (initial : UInt16) (es : List Event) : UInt16 :=
  es.foldl (fun value e => match e with
    | .write register' value' => if register' = register then value' else value
    | .scan => value) initial

/-- A scan without flow at 40 ppm or below only lets the chlorine decay. -/
theorem scan_of_no_flow (hflow : r.inletFlow = 0) (hchlor : r.residualChlor.toNat ≤ 40)
    (halarm : r.dosingAlarm = 0) :
    scan r = { r with residualChlor := UInt16.ofNat (r.residualChlor.toNat - 1) } := by
  have hnone : ¬ 0 < r.inletFlow := by
    rw [hflow]
    decide
  have hdosing := scan_dosing r
  have halarm' := scan_dosingAlarm r
  have hchlor' := scan_residualChlor r
  rw [hchlor'] at hdosing halarm'
  rw [if_neg fun h => hnone h.1, if_neg (by omega)] at hdosing
  rw [if_neg (by simp only [hnone, false_and, or_false]; omega)] at halarm'
  obtain ⟨hpump, hrate⟩ := Prod.mk.inj hdosing
  have hlevel : (scan r).residualChlor = UInt16.ofNat (r.residualChlor.toNat - 1) := by
    rw [← UInt16.toNat_inj, hchlor', UInt16.toNat_ofNat']
    omega
  have hflow' := scan_inletFlow r
  revert hpump hrate halarm' hlevel hflow'
  generalize scan r = s
  obtain ⟨flow, pump, rate, chlor, alarm⟩ := s
  rintro rfl rfl rfl rfl rfl
  rw [← halarm]

/--
**Without flow the program drives nothing.**

The map marks the flow RO, and the program does not write it. From registers without flow, at 40 ppm
or below and without alarm, clients that write what the map marks RW find the pump and the rate as
they wrote them last, the chlorine decayed by the number of scans, and never an alarm.
-/
theorem inert_without_flow (r : Registers) (es : List Event)
    (hes : ∀ e ∈ es, Permitted treatment e) (hflow : r.inletFlow = 0)
    (hchlor : r.residualChlor.toNat ≤ 40) (halarm : r.dosingAlarm = 0) :
    run step r es =
      { inletFlow := 0
        dosingPump := lastWrite 1 r.dosingPump es
        dosingRate := lastWrite 2 r.dosingRate es
        residualChlor := UInt16.ofNat (r.residualChlor.toNat - scans es)
        dosingAlarm := 0 } := by
  induction es generalizing r with
  | nil =>
    obtain ⟨flow, pump, rate, chlor, alarm⟩ := r
    obtain rfl : flow = 0 := hflow
    obtain rfl : alarm = 0 := halarm
    show _ = Registers.mk 0 pump rate (UInt16.ofNat chlor.toNat) 0
    rw [UInt16.ofNat_toNat]
    rfl
  | cons e es ih =>
    have hes' : ∀ x ∈ es, Permitted treatment x := fun x hx => hes x (List.mem_cons_of_mem _ hx)
    rw [run_cons]
    cases e with
    | write register value =>
      rcases writable_treatment.mp (hes _ List.mem_cons_self) with rfl | rfl
      · exact ih (r.write 1 value) hes' hflow hchlor halarm
      · exact ih (r.write 2 value) hes' hflow hchlor halarm
    | scan =>
      have hscan : step r .scan = _ := scan_of_no_flow hflow hchlor halarm
      have hcount : scans (.scan :: es) = scans es + 1 := List.count_cons_self
      have hdecayed : (UInt16.ofNat (r.residualChlor.toNat - 1)).toNat
          = r.residualChlor.toNat - 1 := by
        rw [UInt16.toNat_ofNat']
        omega
      have hle : (UInt16.ofNat (r.residualChlor.toNat - 1)).toNat ≤ 40 := by omega
      rw [hscan, ih { r with residualChlor := UInt16.ofNat (r.residualChlor.toNat - 1) } hes' hflow
        hle halarm, hcount]
      simp only [hdecayed, Nat.sub_sub, Nat.add_comm 1]
      rfl

/-- From all-zero registers a client's setpoint stays, and nothing else happens. -/
theorem inert_without_flow_zero :
    run step .zero [.write 2 30, .scan, .write 1 1, .scan] = ⟨0, 1, 30, 0, 0⟩ :=
  inert_without_flow .zero _ (by decide) rfl (by decide) rfl

end Treatment

/-! ## The distribution controller -/

namespace Distribution

variable {r : Registers} {es : List Event}

/-- The event is a scan that ends with the pressure alarm up. -/
def Alarms (r : Registers) (e : Event) : Prop := e = .scan ∧ (scan r).pressureAlarm = 1

/-- The event is a scan that finds the pump off. -/
def FindsPumpOff (r : Registers) (e : Event) : Prop := e = .scan ∧ r.pumpCommand ≠ 1

instance (r : Registers) (e : Event) : Decidable (Alarms r e) := by
  unfold Alarms
  infer_instance

instance (r : Registers) (e : Event) : Decidable (FindsPumpOff r e) := by
  unfold FindsPumpOff
  infer_instance

/-- What a scan does to a clamped pressure. -/
theorem scan_dischargePres (h : r.dischargePres.toNat ≤ 10) :
    (scan r).dischargePres.toNat =
      if r.pumpCommand = 1 then min 10 (r.dischargePres.toNat + 1)
      else r.dischargePres.toNat - 2 := by
  have hclamp : ∀ s : Registers, (clamp s).dischargePres.toNat = min 10 s.dischargePres.toNat := by
    intro s
    unfold clamp
    split
    · next hgt =>
      have : 10 < s.dischargePres.toNat := UInt16.lt_iff_toNat_lt.mp hgt
      show 10 = _
      omega
    · next hle =>
      have : s.dischargePres.toNat ≤ 10 := UInt16.le_iff_toNat_le.mp (UInt16.not_lt.mp hle)
      omega
  rw [scan, alarm_dischargePres, hclamp]
  unfold simulate
  split_ifs with hon hge
  · rw [UInt16.toNat_add]
    show min 10 ((r.dischargePres.toNat + 1) % 2 ^ 16) = _
    omega
  · rw [UInt16.toNat_sub_of_le _ _ hge]
    show min 10 (r.dischargePres.toNat - 2) = _
    omega
  · have : ¬ 2 ≤ r.dischargePres.toNat := fun h2 => hge (UInt16.le_iff_toNat_le.mpr h2)
    show min 10 0 = _
    omega

/-- **The alarm is up after a scan that finds the pump on and no pressure.** -/
theorem scan_pressureAlarm (h : r.dischargePres.toNat ≤ 10) :
    (scan r).pressureAlarm = 1 ↔ r.pumpCommand = 1 ∧ r.dischargePres.toNat = 0 := by
  have hpres : (clamp (simulate r)).dischargePres = (scan r).dischargePres := by
    rw [scan, alarm_dischargePres]
  have hpump : (clamp (simulate r)).pumpCommand = r.pumpCommand := by
    rw [clamp_pumpCommand, simulate_pumpCommand]
  have hlow : (scan r).dischargePres < 2 ↔ (scan r).dischargePres.toNat < 2 :=
    UInt16.lt_iff_toNat_lt
  have halarm : (scan r).pressureAlarm =
      if r.pumpCommand = 1 ∧ (scan r).dischargePres.toNat < 2 then 1 else 0 := by
    conv_lhs => rw [scan, alarm]
    rw [hpump, hpres, if_congr (and_congr_right fun _ => hlow) rfl rfl]
    split <;> rfl
  rw [halarm, scan_dischargePres h]
  by_cases hon : r.pumpCommand = 1
  · simp only [hon, if_true, true_and]
    split <;> simp <;> omega
  · simp [hon]

/-- One for a pressure that is used up: the next scan with the pump on raises the alarm. -/
def pending (r : Registers) : Nat := if r.dischargePres.toNat = 0 then 1 else 0

/-- An alarm takes from the potential, and only a scan that finds the pump off fills it up. -/
theorem alarm_pays {e : Event} (he : Permitted distribution e) (h : r.dischargePres ≤ 10) :
    (if Alarms r e then 1 else 0) + pending (step r e)
      ≤ (if FindsPumpOff r e then 1 else 0) + pending r := by
  have hle : r.dischargePres.toNat ≤ 10 := UInt16.le_iff_toNat_le.mp h
  cases e with
  | write register value =>
    have hpres : (step r (.write register value)).dischargePres = r.dischargePres :=
      write_dischargePres (Permitted.ne_process he).1 r value
    have hwrite : ¬ Alarms r (.write register value) := fun ha => nomatch ha.1
    unfold pending
    rw [if_neg hwrite, hpres]
    exact Nat.add_le_add_right (Nat.zero_le _) _
  | scan =>
    have halarms : Alarms r .scan ↔ r.pumpCommand = 1 ∧ r.dischargePres.toNat = 0 :=
      (and_iff_right rfl).trans (scan_pressureAlarm hle)
    have hoff : FindsPumpOff r .scan ↔ r.pumpCommand ≠ 1 := and_iff_right rfl
    have hnext : pending (step r .scan) = if (scan r).dischargePres.toNat = 0 then 1 else 0 := rfl
    rw [hnext, scan_dischargePres hle, if_congr halarms rfl rfl, if_congr hoff rfl rfl]
    unfold pending
    by_cases hon : r.pumpCommand = 1
    · have hpositive : ¬ min 10 (r.dischargePres.toNat + 1) = 0 := by omega
      simp only [hon, true_and, if_true, hpositive, if_false, ne_eq, not_true]
      omega
    · simp only [hon, false_and, if_false, ne_eq, not_false_eq_true, if_true]
      split_ifs <;> omega

/--
**The pressure alarm never outlasts a scan.**

In every run from a clamped pressure in which clients write what the map marks RW, the running pump
builds up pressure in the very scan that raises the alarm. So the scans with the alarm are at most
one more than the scans that find the pump off; in particular no two scans in a row raise it.
-/
theorem alarms_le (r : Registers) (es : List Event) (hes : ∀ e ∈ es, Permitted distribution e)
    (h : r.dischargePres ≤ 10) :
    countSteps step Alarms r es ≤ countSteps step FindsPumpOff r es + 1 := by
  have hle : countSteps step Alarms r es + pending (run step r es)
      ≤ countSteps step FindsPumpOff r es + pending r :=
    countSteps_le_of_potential (fun s => s.dischargePres ≤ 10) pending
      (fun _ _ hs he => step_dischargePres_le he hs) (fun _ _ hs he => alarm_pays he hs) h
      (stepsMeet_of_forall hes r)
  have hpending : pending r ≤ 1 := by
    unfold pending
    split <;> omega
  omega

/-- A pump that starts, runs and starts again after two scans raises the alarm twice. -/
theorem alarms_le_restarted :
    countSteps step Alarms .zero
        [.write 0 1, .scan, .scan, .write 0 0, .scan, .write 0 1, .scan, .scan] ≤
      countSteps step FindsPumpOff .zero
        [.write 0 1, .scan, .scan, .write 0 0, .scan, .write 0 1, .scan, .scan] + 1 :=
  alarms_le .zero _ (by decide) (by decide)

end Distribution

end OtLab
