import OtLab.Lib.Cycle
import OtLab.Plc.Intake

/-!
# The limit cycle of the intake

Left alone, the intake fills from 20 up to 96, where the interlock closes the valve, and drains
down to 19, where the level controller opens it again: 154 scans, 77 seconds. Nothing else can
happen for long, whatever the registers held at first.

* `scan_cycleRank_lt` — a rank of the registers that falls with every scan outside the cycle
* `settles_into_cycle` — after 78 scans every run without outside writes is on the cycle
-/

namespace OtLab.Intake

open Lib

variable {r : Registers}

/-! ## The cycle -/

/-- The level at a position of the cycle, up in the first 77 scans and down in the others. -/
def cycleLevel (i : Nat) : Nat := if i % 154 ≤ 76 then 20 + i % 154 else 172 - i % 154

/-- The registers at a position of the cycle; the pump is not used by the program. -/
def onCycle (pump : UInt16) (i : Nat) : Registers :=
  { inletValve := if i % 154 < 76 then 1 else 0
    pump := pump
    tankLevel := UInt16.ofNat (cycleLevel i)
    alarm := if i % 154 = 76 then 1 else 0 }

theorem cycleLevel_bounds (i : Nat) : 19 ≤ cycleLevel i ∧ cycleLevel i ≤ 96 := by
  unfold cycleLevel
  split <;> omega

theorem onCycle_tankLevel (pump : UInt16) (i : Nat) :
    (onCycle pump i).tankLevel.toNat = cycleLevel i := by
  have := cycleLevel_bounds i
  show (UInt16.ofNat (cycleLevel i)).toNat = _
  rw [UInt16.toNat_ofNat']
  omega

theorem scan_pump (r : Registers) : (scan r).pump = r.pump := by
  unfold scan interlock clampLow clampHigh simulate levelControl
  split_ifs <;> rfl

theorem registers_ext {s : Registers} (hv : r.inletValve = s.inletValve) (hp : r.pump = s.pump)
    (hl : r.tankLevel.toNat = s.tankLevel.toNat) (ha : r.alarm = s.alarm) : r = s := by
  obtain ⟨v, p, l, a⟩ := r
  obtain ⟨v', p', l', a'⟩ := s
  obtain rfl : l = l' := UInt16.toNat_inj.mp hl
  obtain rfl : v = v' := hv
  obtain rfl : p = p' := hp
  obtain rfl : a = a' := ha
  rfl

/-- Where the registers of a scan are on the cycle, by the level and the valve it leaves. -/
theorem scan_eq_onCycle {i : Nat} (hl : (scan r).tankLevel.toNat = cycleLevel i)
    (hv : (scan r).inletValve = if i % 154 < 76 then 1 else 0) :
    scan r = onCycle r.pump i := by
  refine registers_ext hv (scan_pump r) (hl.trans (onCycle_tankLevel r.pump i).symm) ?_
  show _ = if i % 154 = 76 then (1 : UInt16) else 0
  have hiff : 95 < (scan r).tankLevel ↔ i % 154 = 76 := by
    rw [high_iff, hl]
    unfold cycleLevel
    split <;> omega
  rw [scan_alarm]
  exact if_congr hiff rfl rfl

/-- The tank fills at the first 76 positions, and from the last one. -/
theorem fills_onCycle_iff (pump : UInt16) (i : Nat) :
    Fills (onCycle pump i) ↔ i % 154 < 76 ∨ i % 154 = 153 := by
  have hlow : (onCycle pump i).tankLevel < 20 ↔ i % 154 = 153 := by
    rw [UInt16.lt_iff_toNat_lt, onCycle_tankLevel]
    show cycleLevel i < 20 ↔ _
    unfold cycleLevel
    split <;> omega
  have hopen : (onCycle pump i).inletValve = 1 ↔ i % 154 < 76 := by
    show (if i % 154 < 76 then (1 : UInt16) else 0) = 1 ↔ _
    split <;> simp_all
  unfold Fills
  rw [hlow, hopen, or_comm]

/-- The level moves one position on. -/
theorem scan_onCycle_tankLevel (pump : UInt16) (i : Nat) :
    (scan (onCycle pump i)).tankLevel.toNat = cycleLevel (i + 1) := by
  have hmod : i % 154 = 153 ∧ (i + 1) % 154 = 0 ∨
      i % 154 < 153 ∧ (i + 1) % 154 = i % 154 + 1 := by omega
  by_cases hf : Fills (onCycle pump i)
  · rw [scan_tankLevel_of_fills hf, onCycle_tankLevel]
    rw [fills_onCycle_iff] at hf
    unfold cycleLevel
    split_ifs <;> omega
  · rw [scan_tankLevel_of_not_fills hf, onCycle_tankLevel]
    rw [fills_onCycle_iff] at hf
    unfold cycleLevel
    split_ifs <;> omega

/-- **A scan moves one position on.** -/
theorem scan_onCycle (pump : UInt16) (i : Nat) :
    scan (onCycle pump i) = onCycle pump (i + 1) := by
  have hnext := scan_onCycle_tankLevel pump i
  refine scan_eq_onCycle hnext ?_
  have hhigh : 95 < (scan (onCycle pump i)).tankLevel ↔ (i + 1) % 154 = 76 := by
    rw [high_iff, hnext]
    unfold cycleLevel
    split <;> omega
  have hstart : (onCycle pump i).inletValve = if i % 154 < 76 then 1 else 0 := rfl
  rw [scan_inletValve, hstart]
  simp only [hhigh, fills_onCycle_iff]
  split_ifs <;> first | rfl | omega

/-- The cycle of the registers with a given pump speed. -/
def limitCycle (pump : UInt16) : Cycle scan 154 where
  state := onCycle pump
  step := scan_onCycle pump
  eq_iff i j := by
    constructor
    · intro h
      have hlevel := congrArg (fun s => s.tankLevel.toNat) h
      have hvalve := congrArg Registers.inletValve h
      simp only [onCycle_tankLevel] at hlevel
      simp only [onCycle] at hvalve
      show i % 154 = j % 154
      unfold cycleLevel at hlevel
      -- the same level occurs twice, with the valve open and with the valve closed
      split_ifs at hlevel hvalve <;> first | omega | exact absurd hvalve (by decide)
    · intro h
      have hmod : i % 154 = j % 154 := h
      simp only [onCycle, cycleLevel, hmod]

/-! ## The way to the cycle -/

/-- The registers are on the cycle. -/
def OnCycle (r : Registers) : Prop := ∃ i, r = onCycle r.pump i

/-- A scan that fills up to a level between 20 and 96 ends on the cycle. -/
theorem onCycle_of_fills (hf : Fills r) (hl : 20 ≤ (scan r).tankLevel.toNat)
    (hh : (scan r).tankLevel.toNat ≤ 96) : OnCycle (scan r) := by
  refine ⟨(scan r).tankLevel.toNat - 20, ?_⟩
  have hmod : ((scan r).tankLevel.toNat - 20) % 154 = (scan r).tankLevel.toNat - 20 := by omega
  rw [scan_pump]
  refine scan_eq_onCycle ?_ ?_
  · unfold cycleLevel
    rw [hmod, if_pos (by omega)]
    omega
  · rw [scan_inletValve, if_pos hf, hmod]
    by_cases hhigh : 95 < (scan r).tankLevel
    · have := high_iff.mp hhigh
      rw [if_pos hhigh, if_neg (by omega)]
    · have := mt high_iff.mpr hhigh
      rw [if_neg hhigh, if_pos (by omega)]

/-- So does a scan that drains to a level between 19 and 96 with the valve closed. -/
theorem onCycle_of_closed (hv : (scan r).inletValve = 0) (hl : 19 ≤ (scan r).tankLevel.toNat)
    (hh : (scan r).tankLevel.toNat ≤ 96) : OnCycle (scan r) := by
  refine ⟨172 - (scan r).tankLevel.toNat, ?_⟩
  have hmod : (172 - (scan r).tankLevel.toNat) % 154 = 172 - (scan r).tankLevel.toNat := by omega
  rw [scan_pump]
  refine scan_eq_onCycle ?_ ?_
  · unfold cycleLevel
    rw [hmod]
    split <;> omega
  · rw [hv, hmod, if_neg (by omega)]

/--
How many scans come before the one that ends on the cycle: up to 19 while the tank is low, down
to 19 with a valve that is neither open nor closed by the interlock, or down to 97 from above.
-/
def cycleRank (r : Registers) : Nat :=
  if Fills r then
    if r.tankLevel.toNat = 65535 then 20
    else if 96 ≤ r.tankLevel.toNat then 4
    else 19 - r.tankLevel.toNat
  else if 100 < r.tankLevel.toNat then 4
  else if 97 ≤ r.tankLevel.toNat then r.tankLevel.toNat - 97
  else r.tankLevel.toNat - 19

theorem cycleRank_le (r : Registers) : cycleRank r ≤ 77 := by
  unfold cycleRank
  split_ifs <;> omega

theorem scan_inletValve_of_high (h : 95 < (scan r).tankLevel.toNat) :
    (scan r).inletValve = 0 := by
  rw [scan_inletValve, if_pos (high_iff.mpr h)]

/-- Above 96 a scan leaves the valve closed, so the next one drains. -/
theorem cycleRank_of_high (h : 96 < (scan r).tankLevel.toNat) :
    cycleRank (scan r) = (scan r).tankLevel.toNat - 97 := by
  have hle := scan_tankLevel_le r
  have hf : ¬ Fills (scan r) := by
    rw [fills_iff_of_high (by omega), scan_inletValve_of_high (by omega)]
    decide
  unfold cycleRank
  rw [if_neg hf, if_neg (by omega), if_pos (by omega)]

/-- A level that is still low is filled in the next scan too. -/
theorem cycleRank_of_low (h : (scan r).tankLevel.toNat < 20) :
    cycleRank (scan r) = 19 - (scan r).tankLevel.toNat := by
  have hf : Fills (scan r) := Or.inl (UInt16.lt_iff_toNat_lt.mpr h)
  unfold cycleRank
  rw [if_pos hf, if_neg (by omega), if_neg (by omega)]

/-- A scan that drains to a level from 20 to 95 leaves the valve as it is. -/
theorem cycleRank_of_draining (hf : ¬ Fills r) (hl : 20 ≤ (scan r).tankLevel.toNat)
    (hh : (scan r).tankLevel.toNat ≤ 95) :
    cycleRank (scan r) = (scan r).tankLevel.toNat - 19 := by
  have hhigh : ¬ 95 < (scan r).tankLevel := by
    rw [high_iff]
    omega
  have hf' : ¬ Fills (scan r) := by
    rintro (hlow | hopen)
    · have : (scan r).tankLevel.toNat < 20 := UInt16.lt_iff_toNat_lt.mp hlow
      omega
    · rw [scan_inletValve, if_neg hhigh, if_neg hf] at hopen
      exact hf (Or.inr hopen)
  unfold cycleRank
  rw [if_neg hf', if_neg (by omega), if_neg (by omega)]

/-- **Every scan that does not end on the cycle lowers the rank.** -/
theorem scan_cycleRank_lt (h : ¬ OnCycle (scan r)) : cycleRank (scan r) < cycleRank r := by
  have hbound := r.tankLevel.toNat_lt
  by_cases hf : Fills r
  · have hlevel := scan_tankLevel_of_fills hf
    have hout : ¬ (20 ≤ (scan r).tankLevel.toNat ∧ (scan r).tankLevel.toNat ≤ 96) :=
      fun hin => h (onCycle_of_fills hf hin.1 hin.2)
    by_cases hhigh : 96 < (scan r).tankLevel.toNat
    · rw [cycleRank_of_high hhigh, cycleRank, if_pos hf]
      split_ifs <;> omega
    · rw [cycleRank_of_low (by omega), cycleRank, if_pos hf]
      split_ifs <;> omega
  · have hlevel := scan_tankLevel_of_not_fills hf
    have h20 := le_of_not_fills hf
    have hne : (scan r).tankLevel.toNat ≠ 96 := fun h96 =>
      h (onCycle_of_closed (scan_inletValve_of_high (by omega)) (by omega) (by omega))
    by_cases hhigh : 96 < (scan r).tankLevel.toNat
    · rw [cycleRank_of_high hhigh, cycleRank, if_neg hf]
      split_ifs <;> omega
    · by_cases hlow : (scan r).tankLevel.toNat < 20
      · rw [cycleRank_of_low hlow, cycleRank, if_neg hf]
        split_ifs <;> omega
      · rw [cycleRank_of_draining hf (by omega) (by omega), cycleRank, if_neg hf]
        split_ifs <;> omega

/-- The cycle is reached within 78 scans. -/
theorem cycle_reached (r : Registers) : ∃ k ≤ 78, ∃ i, scan^[k] r = onCycle r.pump i := by
  have hreach : ∃ k ≤ cycleRank r, OnCycle (scan (scan^[k] r)) :=
    exists_iterate_of_rank cycleRank (fun _ => scan_cycleRank_lt) r
  obtain ⟨k, hk, i, hi⟩ := hreach
  have hle := cycleRank_le r
  have hpump : ∀ n, (scan^[n] r).pump = r.pump := by
    intro n
    induction n with
    | zero => rfl
    | succ n ih => rw [Function.iterate_succ_apply', scan_pump, ih]
  refine ⟨k + 1, by omega, i, ?_⟩
  rw [Function.iterate_succ_apply', hi, scan_pump, hpump]

/--
**Every run without outside writes settles into the same cycle of 154 scans.**

From any 16-bit values of the registers, after 78 scans the run is on the cycle, with the pump
speed it started with; and from then on its registers are equal exactly at times that agree
modulo 154.
-/
theorem settles_into_cycle (r : Registers) :
    (∃ i, ∀ n, scan^[78 + n] r = onCycle r.pump (i + n)) ∧
      ∀ m n, 78 ≤ m → 78 ≤ n → (scan^[m] r = scan^[n] r ↔ m ≡ n [MOD 154]) := by
  obtain ⟨k, hk, i, hi⟩ := cycle_reached r
  obtain ⟨j, hj⟩ := (limitCycle r.pump).settles hi hk
  exact ⟨⟨j, hj⟩, fun m n hm hn => (limitCycle r.pump).iterate_eq_iff hj hm hn⟩

end OtLab.Intake
