import OtLab.Attack.SimulateDnp3
import OtLab.Lib.Crc
import OtLab.Lib.Run

/-!
# What CRC-16/DNP detects

The bitwise loop of `crc16_dnp` is a reflected CRC register without preset, so the checksum of a
byte string is the complement of a remainder.

* `crc16Dnp_remainder` — the loop computes the remainder modulo the DNP polynomial
* `crc16Dnp_bursts` — every change within 16 consecutive bits changes the checksum
-/

namespace OtLab.SimulateDnp3

open Bytes Lib Lib.Crc Polynomial

/-- `0xA6BC`, the reflected coefficients of the generator. -/
def dnpRegister : BitVec 16 := 0xA6BC

/-- The generator polynomial of CRC-16/DNP. -/
noncomputable def dnpPolynomial : (ZMod 2)[X] :=
  X ^ 16 + X ^ 13 + X ^ 12 + X ^ 11 + X ^ 10 + X ^ 8 + X ^ 6 + X ^ 5 + X ^ 2 + 1

/-- The bits of a byte string, least significant bit of each octet first. -/
def transmitted (data : Bytes) : List Bool := messageBits (data.map UInt8.toBitVec)

theorem transmitted_cons (byte : UInt8) (data : Bytes) :
    transmitted (byte :: data) = bits byte.toBitVec ++ transmitted data := messageBits_cons _ _

/-- Two octets are a burst. -/
theorem differWithin_of_two (a b a' b' : UInt8) (data : Bytes) :
    DifferWithin 16 (transmitted (a :: b :: data)) (transmitted (a' :: b' :: data)) := by
  simp only [transmitted_cons]
  rw [← List.append_assoc, ← List.append_assoc]
  exact differWithin_append (by simp) (by simp) _

theorem generator_dnpRegister : generator dnpRegister = dnpPolynomial := by
  have hbits : bits dnpRegister = [false, false, true, true, true, true, false, true, false, true,
      true, false, false, true, false, true] := by decide
  rw [generator, hbits]
  simp only [toPoly_cons, toPoly_nil, List.length_cons, List.length_nil, Bool.false_eq_true,
    if_true, if_false, zero_add, add_zero, pow_zero]
  rw [dnpPolynomial]
  ring

/-- The test of the loop looks at the bit that falls out. -/
theorem and_one_ne_zero_iff (crc : UInt16) : crc &&& 1 ≠ 0 ↔ crc.toBitVec.getLsbD 0 = true := by
  have hand : (crc &&& 1).toBitVec = BitVec.setWidth 16 (BitVec.ofBool (crc.toBitVec.getLsbD 0)) :=
    BitVec.and_one_eq_setWidth_ofBool_getLsbD
  rw [ne_eq, ← UInt16.toBitVec_inj, hand]
  cases crc.toBitVec.getLsbD 0 <;> decide

theorem toBitVec_crcStep (crc : UInt16) :
    (crcStep crc).toBitVec = step dnpRegister crc.toBitVec := by
  unfold crcStep step
  by_cases h : crc.toBitVec.getLsbD 0 = true
  · rw [if_pos ((and_one_ne_zero_iff crc).mpr h), if_pos h]
    rfl
  · rw [if_neg (mt (and_one_ne_zero_iff crc).mp h), if_neg h]
    rfl

/-- The loop over the bytes, from any register. -/
theorem toBitVec_foldl_crcStep (data : Bytes) (crc : UInt16) :
    (data.foldl (fun crc byte => crcStep^[8] (crc ^^^ byte.toUInt16)) crc).toBitVec
      = (data.map UInt8.toBitVec).foldl (feed dnpRegister) crc.toBitVec := by
  induction data generalizing crc with
  | nil => rfl
  | cons byte data ih =>
    have hbyte : (crcStep^[8] (crc ^^^ byte.toUInt16)).toBitVec
        = feed dnpRegister crc.toBitVec byte.toBitVec :=
      iterate_lockstep (fun (c : UInt16) r => c.toBitVec = r)
        (fun c r h => h ▸ toBitVec_crcStep c) rfl 8
    rw [List.foldl_cons, ih, hbyte, List.map_cons, List.foldl_cons]

/-- The checksum is the complement of what the message leaves in the register. -/
theorem not_crc16Dnp (data : Bytes) :
    (~~~ crc16Dnp data).toBitVec = remainder dnpRegister (data.map UInt8.toBitVec) := by
  rw [crc16Dnp, UInt16.not_not]
  exact toBitVec_foldl_crcStep data 0

/-- **The loop computes the remainder modulo the DNP polynomial, up to the final complement.** -/
theorem crc16Dnp_remainder (data : Bytes) :
    toPoly (bits (~~~ crc16Dnp data).toBitVec)
      = (X ^ 16 * toPoly (transmitted data)) %ₘ dnpPolynomial := by
  rw [not_crc16Dnp, ← generator_dnpRegister]
  exact toPoly_remainder dnpRegister (by decide) _

/-- A burst of at most 16 bits changes the checksum. -/
theorem crc16Dnp_ne_of_burst {data data' : Bytes} (hlen : data.length = data'.length)
    (hne : data ≠ data') (h : DifferWithin 16 (transmitted data) (transmitted data')) :
    crc16Dnp data ≠ crc16Dnp data' := by
  intro heq
  have hinj : Function.Injective (List.map UInt8.toBitVec) :=
    List.map_injective_iff.mpr fun _ _ => UInt8.eq_of_toBitVec_eq
  refine remainder_ne_of_burst (g := dnpRegister) (by decide) (by decide) (by simpa using hlen)
    (hinj.ne hne) h ?_
  rw [← not_crc16Dnp, ← not_crc16Dnp, heq]

/--
**CRC-16/DNP detects every burst of at most 16 bits.**

Two byte strings of one length that differ only within 16 consecutive bits have different
checksums, because the bitwise loop computes a remainder modulo the DNP polynomial.
-/
theorem crc16Dnp_bursts :
    (∀ data : Bytes, toPoly (bits (~~~ crc16Dnp data).toBitVec)
      = (X ^ 16 * toPoly (transmitted data)) %ₘ dnpPolynomial) ∧
    ∀ data data' : Bytes, data.length = data'.length → data ≠ data' →
      DifferWithin 16 (transmitted data) (transmitted data') → crc16Dnp data ≠ crc16Dnp data' :=
  ⟨crc16Dnp_remainder, fun _ _ => crc16Dnp_ne_of_burst⟩

/-- A header whose start octets are both damaged. -/
theorem crc16Dnp_bursts_header :
    crc16Dnp [0x05, 0x64, 0x05, 0xC4] ≠ crc16Dnp [0xFA, 0x9B, 0x05, 0xC4] :=
  crc16Dnp_bursts.2 _ _ rfl (by decide) (differWithin_of_two _ _ _ _ _)

end OtLab.SimulateDnp3
