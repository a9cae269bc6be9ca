import OtLab.Attack.Crc16Dnp
import OtLab.Lib.Blocks

/-!
# The frames of the emulated master

What a DNP3 receiver checks of a link frame, and what `link_frame` builds. The checksum of the
header is computed over the six octets behind the two start octets, and a receiver computes it over
all eight.

* `linkFrame_not_linkCorrect` — everything of a frame is right except the checksum of its header
-/

namespace OtLab.SimulateDnp3

open Bytes Lib

/-! ## What a receiver checks -/

/-- The octets sent behind a block. -/
def crcOctets (block : Bytes) : Bytes := little16 (crc16Dnp block)

/-- The blocks behind the header, each with the octets sent for its checksum. -/
def userBlocks (frame : Bytes) : List (Bytes × Bytes) := openBlocks 16 2 (frame.drop 10)

/-- A frame for some user data, apart from the checksum of its header. -/
structure Framed (frame : Bytes) (control : UInt8) (destination source : UInt16)
    (userData : Bytes) : Prop where
  start : frame.take 2 = [0x05, 0x64]
  length : frame[2]?.map UInt8.toNat = some (5 + userData.length)
  control : frame[3]? = some control
  destination : slice frame 4 6 = little16 destination
  source : slice frame 6 8 = little16 source
  nonempty : ∀ b ∈ userBlocks frame, b.1 ≠ []
  blockCrc : ∀ b ∈ userBlocks frame, b.2 = crcOctets b.1
  userData : ((userBlocks frame).map Prod.fst).flatten = userData

/-- A frame a receiver accepts. -/
structure LinkCorrect (frame : Bytes) (control : UInt8) (destination source : UInt16)
    (userData : Bytes) : Prop extends Framed frame control destination source userData where
  headerCrc : slice frame 8 10 = crcOctets (frame.take 8)

/-! ## What `link_frame` builds -/

variable (masterAddr outstationAddr : UInt16)

/-- The header block without its start octets. -/
def headerRest (application : Bytes) (control : UInt8) : Bytes :=
  [UInt8.ofNat (6 + application.length), control] ++ little16 outstationAddr ++ little16 masterAddr

/-- The frame of a fragment. -/
def frameBytes (application : Bytes) (control : UInt8) : Bytes :=
  0x05 :: 0x64 :: (headerRest masterAddr outstationAddr application control
    ++ crcOctets (headerRest masterAddr outstationAddr application control)
    ++ sealBlocks 16 crcOctets (0xC0 :: application))

/-- `link_frame` succeeds on every fragment that fits into a frame. -/
theorem linkFrame_eq {application : Bytes} (h : application.length ≤ 249) (control : UInt8) :
    linkFrame masterAddr outstationAddr application control
      = .ok (frameBytes masterAddr outstationAddr application control) := by
  have hlen : ¬ 255 < 5 + (0xC0 :: application : Bytes).length := by
    rw [List.length_cons]
    omega
  have hsix : 5 + (0xC0 :: application : Bytes).length = 6 + application.length := by
    rw [List.length_cons]
    omega
  have hbody : ((List.range (((0xC0 :: application : Bytes).length + 15) / 16)).flatMap fun k =>
      slice (0xC0 :: application) (16 * k) (16 * k + 16)
        ++ crcOctets (slice (0xC0 :: application) (16 * k) (16 * k + 16)))
      = sealBlocks 16 crcOctets (0xC0 :: application) := by
    rw [sealBlocks, ← map_range_eq_blocks (by decide), List.flatMap_map]
    simp only [slice, Nat.add_sub_cancel_left, Nat.reduceSub]
  unfold linkFrame frameBytes
  dsimp only
  rw [if_neg hlen, hsix, ← hbody]
  rfl

/-- Two zero octets leave an empty register empty. -/
theorem crc16Dnp_zeros (data : Bytes) : crc16Dnp (0 :: 0 :: data) = crc16Dnp data := by
  have hzero : crcStep^[8] (0 ^^^ (0 : UInt8).toUInt16) = 0 := by decide
  unfold crc16Dnp
  rw [List.foldl_cons, hzero, List.foldl_cons, hzero]

/-- **The start octets count**: no checksum is the same without them. -/
theorem crc16Dnp_start_ne (data : Bytes) : crc16Dnp (0x05 :: 0x64 :: data) ≠ crc16Dnp data := by
  -- against two zero octets in front the start octets are a burst of 16 bits
  rw [← crc16Dnp_zeros data]
  exact crc16Dnp_ne_of_burst rfl (by simp) (differWithin_of_two _ _ _ _ data)

theorem little16_injective : Function.Injective little16 := by
  intro m n h
  rw [← UInt16.toNat_inj, ← fromLittle_little16 m, h, fromLittle_little16]

theorem length_crcOctets (block : Bytes) : (crcOctets block).length = 2 := rfl

/-- A receiver finds the blocks of the user data with their checksums. -/
theorem userBlocks_frameBytes (application : Bytes) (control : UInt8) :
    userBlocks (frameBytes masterAddr outstationAddr application control)
      = (blocks 16 (0xC0 :: application)).map fun b => (b, crcOctets b) :=
  openBlocks_sealBlocks (by decide) length_crcOctets _

/-- What `link_frame` builds is framed as a receiver expects. -/
theorem framed_frameBytes {application : Bytes} (h : application.length ≤ 249) (control : UInt8) :
    Framed (frameBytes masterAddr outstationAddr application control) control outstationAddr
      masterAddr (0xC0 :: application) := by
  have hopen := userBlocks_frameBytes masterAddr outstationAddr application control
  refine ⟨rfl, ?_, rfl, rfl, rfl, ?_, ?_, ?_⟩
  · -- LEN is an octet because the fragment fits
    show some (UInt8.ofNat (6 + application.length)).toNat = _
    rw [UInt8.toNat_ofNat', List.length_cons]
    congr 1
    omega
  · intro b hb
    rw [hopen] at hb
    obtain ⟨block, hblock, rfl⟩ := List.mem_map.mp hb
    exact (mem_blocks (by decide) hblock).1
  · intro b hb
    rw [hopen] at hb
    obtain ⟨block, -, rfl⟩ := List.mem_map.mp hb
    rfl
  · rw [hopen, List.map_map]
    exact (congrArg _ (List.map_id _)).trans (flatten_blocks (by decide) _)

/--
**No frame of the emulated master is link-correct.**

LEN, the addresses, the blocks of user data and their checksums are as a receiver expects them,
for every fragment that fits into a frame. The checksum of the header leaves out the two start
octets, and they always change it.
-/
theorem linkFrame_not_linkCorrect (application : Bytes) (control : UInt8)
    (h : application.length ≤ 249) :
    ∃ frame, linkFrame masterAddr outstationAddr application control = .ok frame ∧
      Framed frame control outstationAddr masterAddr (0xC0 :: application) ∧
      ¬ LinkCorrect frame control outstationAddr masterAddr (0xC0 :: application) := by
  refine ⟨_, linkFrame_eq masterAddr outstationAddr h control,
    framed_frameBytes masterAddr outstationAddr h control, ?_⟩
  intro hcorrect
  have hcrc := little16_injective hcorrect.headerCrc
  exact crc16Dnp_start_ne _ hcrc.symm

/-- The Cold Restart of the emulation, application control and function code. -/
def coldRestart : Bytes := [0xC0, 0x0D]

theorem linkFrame_not_linkCorrect_coldRestart :
    ∃ frame, linkFrame 3 10 coldRestart 0xC4 = .ok frame ∧
      Framed frame 0xC4 10 3 (0xC0 :: coldRestart) ∧
      ¬ LinkCorrect frame 0xC4 10 3 (0xC0 :: coldRestart) :=
  linkFrame_not_linkCorrect 3 10 coldRestart 0xC4 (by decide)

/-- The outstation drops the Cold Restart. -/
theorem coldRestart_not_linkCorrect :
    ¬ ∀ (masterAddr outstationAddr : UInt16) (application : Bytes) (control : UInt8),
      1 ≤ application.length → application.length ≤ 249 →
      ∃ frame, linkFrame masterAddr outstationAddr application control = .ok frame ∧
        LinkCorrect frame control outstationAddr masterAddr (0xC0 :: application) := by
  intro h
  obtain ⟨frame, hframe, hcorrect⟩ := h 3 10 coldRestart 0xC4 (by decide) (by decide)
  obtain rfl := Except.ok.inj hframe
  exact crc16Dnp_start_ne [0x08, 0xC4, 10, 0, 3, 0] (little16_injective hcorrect.headerCrc).symm

end OtLab.SimulateDnp3
