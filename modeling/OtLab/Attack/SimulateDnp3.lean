import Mathlib.Data.Nat.Bitwise
import Mathlib.Logic.Function.Iterate
import OtLab.Otdpi.Dnp3

/-!
# The emulated DNP3 master

`crc16_dnp` and `link_frame` of `simulate_dnp3_attack.py`. The frames it builds are link frames
with particular CRCs and the transport octet `0xC0`.

* `recovered_iff` — for which fragments decoding undoes framing
-/

namespace OtLab.SimulateDnp3

open Bytes Dnp3

/-- One bit of the reflected CRC-16/DNP. -/
def crcStep (crc : UInt16) : UInt16 :=
  if crc &&& 1 ≠ 0 then (crc >>> 1) ^^^ 0xA6BC else crc >>> 1

/-- `crc16_dnp`. -/
def crc16Dnp (data : Bytes) : UInt16 :=
  ~~~ data.foldl (fun crc byte => crcStep^[8] (crc ^^^ byte.toUInt16)) 0

section LinkFrame

variable (masterAddr outstationAddr : UInt16)

/-- `link_frame`; `bytes([length, control])` raises when the length is no octet. -/
def linkFrame (application : Bytes) (control : UInt8) : Py Bytes :=
  let userData : Bytes := 0xC0 :: application
  let length := 5 + userData.length
  if 255 < length then .error .valueError
  else
    let header := [UInt8.ofNat length, control] ++ little16 outstationAddr ++ little16 masterAddr
    let body := (List.range ((userData.length + 15) / 16)).flatMap fun k =>
      let block := slice userData (16 * k) (16 * k + 16)
      block ++ little16 (crc16Dnp block)
    .ok ([0x05, 0x64] ++ header ++ little16 (crc16Dnp header) ++ body)

/-- An application fragment of 2 to 249 octets. -/
structure Fragment where
  control : UInt8
  functionCode : UInt8
  objects : Bytes
  objects_le : objects.length ≤ 247

def Fragment.bytes (f : Fragment) : Bytes := f.control :: f.functionCode :: f.objects

/-- The frame `link_frame` builds for a fragment, as a link frame. -/
def Fragment.frame (f : Fragment) (control : UInt8) : LinkFrame where
  control := control
  destination := outstationAddr
  source := masterAddr
  userData := 0xC0 :: f.bytes
  crc
    | 0 => crc16Dnp ([UInt8.ofNat (5 + (f.bytes.length + 1)), control] ++ little16 outstationAddr
        ++ little16 masterAddr)
    | k + 1 => crc16Dnp (slice (0xC0 :: f.bytes) (16 * k) (16 * k + 16))
  userData_le := by
    have := f.objects_le
    simp only [Fragment.bytes, List.length_cons]
    omega

/-- `link_frame` succeeds on every fragment. -/
theorem linkFrame_fragment (f : Fragment) (control : UInt8) :
    linkFrame masterAddr outstationAddr f.bytes control
      = .ok (f.frame masterAddr outstationAddr control).bytes := by
  have hlen : ¬ 255 < 5 + (0xC0 :: f.bytes : Bytes).length := by
    have := (f.frame masterAddr outstationAddr control).userData_le
    simp only [Fragment.frame] at this
    omega
  unfold linkFrame
  simp only [if_neg hlen]
  rfl

/-- The first block behind the header: transport octet, the fragment up to its fifteenth octet and
the CRC. -/
theorem frame_bytes_eq (f : Fragment) (control : UInt8) :
    ∃ c0 c1 rest, (f.frame masterAddr outstationAddr control).bytes
      = (f.frame masterAddr outstationAddr control).header
        ++ 0xC0 :: f.control :: f.functionCode :: (f.objects.take 13 ++ c0 :: c1 :: rest) := by
  obtain ⟨rest, hrest⟩ := blocks_eq (List.cons_ne_nil 0xC0 f.bytes)
    fun k => (f.frame masterAddr outstationAddr control).crc (k + 1)
  let crc := crc16Dnp (slice (0xC0 :: f.bytes) 0 16)
  refine ⟨UInt8.ofNat crc.toNat, UInt8.ofNat (crc.toNat / 256), rest, ?_⟩
  show _ ++ blocks (0xC0 :: f.bytes) _ = _
  rw [hrest, List.append_assoc]
  rfl

/-- Transport octet, application control and function code come right after the header. -/
theorem frame_bytes (f : Fragment) (control : UInt8) :
    ∃ rest, (f.frame masterAddr outstationAddr control).bytes
      = (f.frame masterAddr outstationAddr control).header
        ++ 0xC0 :: f.control :: f.functionCode :: rest := by
  obtain ⟨c0, c1, rest, h⟩ := frame_bytes_eq masterAddr outstationAddr f control
  exact ⟨_, h⟩

/-! ## Decoding undoes framing -/

/-- The decoder recovers the fields of a fragment, and no others, from the frame built for it. -/
def Recovered (f : Fragment) (control : UInt8) : Prop :=
  ∃ e, (linkFrame masterAddr outstationAddr f.bytes control).bind decode = .ok (some e) ∧
    f.bytes[1]? = some e.functionCode ∧
    (f.bytes[0]?.map fun b => b &&& 15) = some e.applicationSequence ∧
    e.transportSequence = 0 ∧
    e.linkSource = masterAddr.toNat ∧ e.linkDestination = outstationAddr.toNat ∧
    (e.direction = .request ↔ control.toNat.testBit 7 = true) ∧
    e.objectGroup = f.bytes[2]? ∧ e.objectVariation = f.bytes[3]? ∧ e.objectCount = f.bytes[5]? ∧
    e.controlCode = if f.bytes[2]? = some 12 then f.bytes[6]? else none

/-- Every field the decoder looks for lies in the fragment, or is not looked for. -/
def Fragment.Complete (f : Fragment) : Prop :=
  7 ≤ f.bytes.length ∨ f.bytes.length = 6 ∧ f.bytes[2]? ≠ some 12

instance (f : Fragment) : Decidable f.Complete := by
  unfold Fragment.Complete
  infer_instance

theorem directionOf_eq_request_iff (control : UInt8) :
    directionOf control = .request ↔ control.toNat.testBit 7 = true := by
  have hbit : control &&& 0x80 ≠ 0 ↔ control.toNat.testBit 7 = true := by
    rw [ne_eq, ← UInt8.toNat_inj, UInt8.toNat_and, show (0x80 : UInt8).toNat = 2 ^ 7 from rfl,
      Nat.and_two_pow]
    cases control.toNat.testBit 7 <;> simp
  rw [← hbit, directionOf]
  split
  · next h => exact iff_of_true rfl h
  · next h => exact iff_of_false nofun h

/-- Of a fragment that ends too early, the CRC of the first block is read as objects. -/
theorem objects_iff (objects : Bytes) (c0 c1 : UInt8) (rest : Bytes) :
    ((objects.take 13 ++ c0 :: c1 :: rest)[0]? = objects[0]? ∧
      (objects.take 13 ++ c0 :: c1 :: rest)[1]? = objects[1]? ∧
      (objects.take 13 ++ c0 :: c1 :: rest)[3]? = objects[3]? ∧
      (if (objects.take 13 ++ c0 :: c1 :: rest)[0]? = some 12 then
          (objects.take 13 ++ c0 :: c1 :: rest)[4]?
        else none) = if objects[0]? = some 12 then objects[4]? else none) ↔
      5 ≤ objects.length ∨ objects.length = 4 ∧ objects[0]? ≠ some 12 := by
  rcases objects with - | ⟨a, - | ⟨b, - | ⟨c, - | ⟨d, - | ⟨e, objects⟩⟩⟩⟩⟩
  · simp
  · simp
  · simp
  · simp
  · by_cases ha : a = 12 <;> simp [ha]
  · simp

/-- What is decoded from a frame of the fragment when `objects` is found behind its function
code. -/
def Fragment.event (f : Fragment) (control : UInt8) (objects : Bytes) : Event where
  direction := directionOf control
  functionCode := f.functionCode
  linkSource := masterAddr.toNat
  linkDestination := outstationAddr.toNat
  linkFunction := control &&& 0x0F
  transportSequence := 0
  applicationSequence := f.control &&& 0x0F
  objectGroup := objects[0]?
  objectVariation := objects[1]?
  objectCount := objects[3]?
  controlCode := if objects[0]? = some 12 then objects[4]? else none

/-- The decoder takes the CRC of the first block for objects as well. -/
theorem decode_linkFrame (f : Fragment) (control : UInt8) :
    ∃ c0 c1 rest, (linkFrame masterAddr outstationAddr f.bytes control).bind decode
      = .ok (some (f.event masterAddr outstationAddr control
          (f.objects.take 13 ++ c0 :: c1 :: rest))) := by
  obtain ⟨c0, c1, rest, hbytes⟩ := frame_bytes_eq masterAddr outstationAddr f control
  have hsource : fromLittle (little16 masterAddr) = masterAddr.toNat := fromLittle_little16 _
  have hdest : fromLittle (little16 outstationAddr) = outstationAddr.toNat := fromLittle_little16 _
  refine ⟨c0, c1, rest, ?_⟩
  rw [linkFrame_fragment, hbytes, Fragment.event, ← hsource, ← hdest]
  exact decode_cons ..

/--
**Decoding undoes framing for complete fragments, and for no other.**

The decoder indexes the raw octets behind the header: where a fragment is too short for a field,
it reads the CRC of the first block for it.
-/
theorem recovered_iff (f : Fragment) (control : UInt8) :
    Recovered masterAddr outstationAddr f control ↔ f.Complete := by
  obtain ⟨c0, c1, rest, hdecode⟩ := decode_linkFrame masterAddr outstationAddr f control
  have hcomplete : f.Complete ↔ 5 ≤ f.objects.length ∨ f.objects.length = 4 ∧
      f.objects[0]? ≠ some 12 := by
    simp [Fragment.Complete, Fragment.bytes]
  rw [hcomplete, ← objects_iff f.objects c0 c1 rest, Recovered, hdecode]
  constructor
  · rintro ⟨e, he, -, -, -, -, -, -, hobjects⟩
    obtain rfl := Option.some.inj (Except.ok.inj he)
    exact hobjects
  · intro hobjects
    exact ⟨_, rfl, rfl, rfl, rfl, rfl, rfl, directionOf_eq_request_iff control, hobjects⟩

/-- A read without objects: application control and function code only. -/
def bareRead : Fragment := ⟨0xC0, 0x01, [], by decide⟩

/-- The CRC of a two-octet fragment is decoded as object group and variation. -/
theorem bareRead_not_recovered : ¬ Recovered 1 10 bareRead 0xC4 := by
  rintro ⟨e, he, -, -, -, -, -, -, hgroup, -⟩
  obtain ⟨c0, c1, rest, hdecode⟩ := decode_linkFrame 1 10 bareRead 0xC4
  obtain rfl := Option.some.inj (Except.ok.inj (he.symm.trans hdecode))
  have hnone : some c0 = none := hgroup
  exact absurd hnone nofun

end LinkFrame

end OtLab.SimulateDnp3
