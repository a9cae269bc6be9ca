import OtLab.Plc.Intake

/-!
# The time to the unsafe band

Left alone, the intake drains to the low mark with its valve closed, opens the valve there and
fills up to the interlock, whatever the registers held at first. The security tests wait 90 seconds,
which are 180 scans, for a level above 90.

* `scan_unsafeRank_lt` — a rank of the registers that falls with every scan below the band
* `unsafe_band_reached` — the wait is long enough, from every point of a run
-/

namespace OtLab.Intake

open Lib

variable {r : Registers}

/-- The level the security tests wait for. -/
def Unsafe (r : Registers) : Prop := 90 < r.tankLevel

instance (r : Registers) : Decidable (Unsafe r) := by
  unfold Unsafe
  infer_instance

theorem unsafe_iff : Unsafe r ↔ 90 < r.tankLevel.toNat := UInt16.lt_iff_toNat_lt

/-- The scans left until the level is unsafe: up while the tank fills, else down to 19 first. -/
def unsafeRank (r : Registers) : Nat :=
  if Unsafe r then 0 else if Fills r then 91 - r.tankLevel.toNat else r.tankLevel.toNat + 53

theorem unsafeRank_le (r : Registers) : unsafeRank r ≤ 143 := by
  unfold unsafeRank
  split
  · omega
  · next h =>
    rw [unsafe_iff] at h
    split <;> omega

/-- Below the band a scan that fills is followed by another one. -/
theorem scan_of_fills (h : ¬ Unsafe r) (hf : Fills r) :
    (scan r).tankLevel.toNat = r.tankLevel.toNat + 1 ∧ Fills (scan r) := by
  rw [unsafe_iff] at h
  have hlevel : (scan r).tankLevel.toNat = r.tankLevel.toNat + 1 := by
    rw [scan_tankLevel_of_fills hf]
    omega
  refine ⟨hlevel, Or.inr ?_⟩
  rw [scan_inletValve, if_neg, if_pos hf]
  rw [high_iff]
  omega

/-- Below the band a scan that drains leaves the valve as it is, so draining ends at 19. -/
theorem scan_of_not_fills (h : ¬ Unsafe r) (hf : ¬ Fills r) :
    (scan r).tankLevel.toNat + 1 = r.tankLevel.toNat ∧
      (Fills (scan r) ↔ (scan r).tankLevel.toNat < 20) := by
  rw [unsafe_iff] at h
  have h20 := le_of_not_fills hf
  have hlevel : (scan r).tankLevel.toNat + 1 = r.tankLevel.toNat := by
    rw [scan_tankLevel_of_not_fills hf]
    omega
  refine ⟨hlevel, ?_⟩
  have hlow : ¬ 95 < (scan r).tankLevel := by
    rw [high_iff]
    omega
  have hvalve : (scan r).inletValve ≠ 1 := by
    rw [scan_inletValve, if_neg hlow, if_neg hf]
    exact (not_or.mp hf).2
  exact (or_iff_left hvalve).trans UInt16.lt_iff_toNat_lt

/-- Below the band every scan lowers the rank. -/
theorem scan_unsafeRank_lt (h : ¬ Unsafe r) : unsafeRank (scan r) < unsafeRank r := by
  unfold unsafeRank
  rw [if_neg h]
  by_cases hf : Fills r
  · obtain ⟨hlevel, hfills⟩ := scan_of_fills h hf
    rw [unsafe_iff] at h
    rw [if_pos hf, if_pos hfills, hlevel]
    split <;> omega
  · obtain ⟨hlevel, hfills⟩ := scan_of_not_fills h hf
    have hsafe : ¬ Unsafe (scan r) := by
      rw [unsafe_iff] at h ⊢
      omega
    have h20 := le_of_not_fills hf
    rw [if_neg hf, if_neg hsafe]
    split
    · omega
    · omega

/--
**The unsafe band is reached in time.**

From every point of every run without outside writes the level exceeds 90 within 180 scans, the
90 seconds the security tests wait.
-/
theorem unsafe_band_reached (r : Registers) (n : Nat) :
    ∃ k, n < k ∧ k ≤ n + 180 ∧ 90 < (scan^[k] r).tankLevel := by
  obtain ⟨k, hk, hreached⟩ :=
    exists_iterate_of_rank unsafeRank (fun _ => scan_unsafeRank_lt) (scan^[n + 1] r)
  -- the rank bounds the wait from the next scan on
  have hle := unsafeRank_le (scan^[n + 1] r)
  refine ⟨k + (n + 1), by omega, by omega, ?_⟩
  rw [Function.iterate_add_apply]
  exact hreached

end OtLab.Intake
