import OtLab.Otdpi.Common

/-!
# DNP3

The decoder `otdpi/dnp3.py`, and link frames: ten octets of header, then the user data in blocks
of up to sixteen octets, each with a CRC. The decoder does not look at the CRCs, so a frame here
carries any.

* `decode_eq` — decoding does not fail, and what it returns
* `blocks_cons` — a frame with user data is that long
-/

namespace OtLab.Dnp3

open Bytes

/-! ## The decoder -/

def controlFunctions : List UInt8 := [3, 4, 5, 6]

def restartFunctions : List UInt8 := [13, 14]

def unsolicitedDisable : List UInt8 := [21]

/-- The default of `AUTHORIZED_MASTERS`. -/
def authorizedMasters : List Nat := [1, 2]

/-- `FUNCTION_NAMES`. -/
def functionNames : List (UInt8 × String) :=
  [ (1, "Read"),
    (2, "Write"),
    (3, "Select"),
    (4, "Operate"),
    (5, "Direct Operate"),
    (6, "Direct Operate No Ack"),
    (7, "Immediate Freeze"),
    (8, "Immediate Freeze No Ack"),
    (9, "Freeze Clear"),
    (10, "Freeze Clear No Ack"),
    (11, "Freeze At Time"),
    (12, "Freeze At Time No Ack"),
    (13, "Cold Restart"),
    (14, "Warm Restart"),
    (20, "Enable Unsolicited"),
    (21, "Disable Unsolicited"),
    (22, "Assign Class"),
    (23, "Delay Measure"),
    (24, "Record Current Time") ]

/-- `function_name`. -/
def functionName (functionCode : UInt8) : String :=
  (functionNames.lookup functionCode).getD ("Unknown (" ++ toString functionCode.toNat ++ ")")

structure Event where
  direction : Direction
  functionCode : UInt8
  linkSource : Nat
  linkDestination : Nat
  linkFunction : UInt8
  transportSequence : UInt8
  applicationSequence : UInt8
  objectGroup : Option UInt8
  objectVariation : Option UInt8
  objectCount : Option UInt8
  controlCode : Option UInt8
deriving DecidableEq, Repr

/-- The event as the dictionary `decode` returns. -/
def Event.fields (e : Event) : Dict :=
  [ ("direction", .str e.direction.text),
    ("function_code", .int e.functionCode.toNat),
    ("function_name", .str (functionName e.functionCode)),
    ("link_source", .int e.linkSource),
    ("link_destination", .int e.linkDestination),
    ("link_function", .int e.linkFunction.toNat),
    ("transport_sequence", .int e.transportSequence.toNat),
    ("application_sequence", .int e.applicationSequence.toNat),
    ("object_group", .ofOctet? e.objectGroup),
    ("object_variation", .ofOctet? e.objectVariation),
    ("object_count", .ofOctet? e.objectCount),
    ("control_code", .ofOctet? e.controlCode) ]

/-- The keys of an event. -/
def Event.keys : List String :=
  ["direction", "function_code", "function_name", "link_source", "link_destination",
    "link_function", "transport_sequence", "application_sequence", "object_group",
    "object_variation", "object_count", "control_code"]

theorem Event.keys_fields (e : Event) : (e.fields.map Prod.fst).Sublist keys := .refl _

/-- `"request" if control & 0x80 else "response"`. -/
def directionOf (control : UInt8) : Direction :=
  if control &&& 0x80 ≠ 0 then .request else .response

/-- `decode`. -/
def decode (payload : Bytes) : Py (Option Event) :=
  if payload.length < 12 then .ok none
  else do
    let start0 ← getByte payload 0
    let start1 ← getByte payload 1
    if start0 ≠ 0x05 ∨ start1 ≠ 0x64 then return none
    let control ← getByte payload 3
    let transport ← getByte payload 10
    let application := payload.drop 11
    if application.length < 2 then return none
    let applicationControl ← getByte application 0
    let functionCode ← getByte application 1
    let objectGroup := application[2]?
    return some
      { direction := directionOf control
        functionCode := functionCode
        linkSource := fromLittle (slice payload 6 8)
        linkDestination := fromLittle (slice payload 4 6)
        linkFunction := control &&& 0x0F
        transportSequence := transport &&& 0x3F
        applicationSequence := applicationControl &&& 0x0F
        objectGroup := objectGroup
        objectVariation := application[3]?
        objectCount := application[5]?
        controlCode := if objectGroup = some 12 then application[6]? else none }

/-- A payload that is too short for a function code is not decoded. -/
theorem decode_of_length_lt {payload : Bytes} (h : payload.length < 12) :
    decode payload = .ok none := if_pos h

/-- What is decoded from the first thirteen octets of a payload. -/
theorem decode_cons (len control d0 d1 s0 s1 c0 c1 transport application functionCode : UInt8)
    (objects : Bytes) :
    decode (0x05 :: 0x64 :: len :: control :: d0 :: d1 :: s0 :: s1 :: c0 :: c1 :: transport
      :: application :: functionCode :: objects) = .ok (some
        { direction := directionOf control
          functionCode := functionCode
          linkSource := fromLittle [s0, s1]
          linkDestination := fromLittle [d0, d1]
          linkFunction := control &&& 0x0F
          transportSequence := transport &&& 0x3F
          applicationSequence := application &&& 0x0F
          objectGroup := objects[0]?
          objectVariation := objects[1]?
          objectCount := objects[3]?
          controlCode := if objects[0]? = some 12 then objects[4]? else none }) := by
  unfold decode
  rw [if_neg (by simp)]
  rfl

/-! ## Decoding does not fail -/

/-- The payload begins like a frame and reaches the function code. -/
def IsFrame (payload : Bytes) : Prop :=
  13 ≤ payload.length ∧ payload[0]? = some 0x05 ∧ payload[1]? = some 0x64

instance (payload : Bytes) : Decidable (IsFrame payload) := by
  unfold IsFrame
  infer_instance

/-- The event of such a payload. -/
def eventOf (payload : Bytes) : Event where
  direction := directionOf (payload.getD 3 0)
  functionCode := payload.getD 12 0
  linkSource := fromLittle (slice payload 6 8)
  linkDestination := fromLittle (slice payload 4 6)
  linkFunction := payload.getD 3 0 &&& 0x0F
  transportSequence := payload.getD 10 0 &&& 0x3F
  applicationSequence := payload.getD 11 0 &&& 0x0F
  objectGroup := payload[13]?
  objectVariation := payload[14]?
  objectCount := payload[16]?
  controlCode := if payload[13]? = some 12 then payload[17]? else none

/-- **Decoding does not fail**: no octet is read that is not there. -/
theorem decode_eq (payload : Bytes) :
    decode payload = .ok (if IsFrame payload then some (eventOf payload) else none) := by
  by_cases hlen : payload.length < 12
  · rw [decode_of_length_lt hlen, if_neg]
    rintro ⟨hlong, -⟩
    omega
  have hget : ∀ i < 12, payload[i]? = some (payload.getD i 0) := by
    intro i hi
    exact getElem?_eq_getD (by omega)
  unfold decode
  rw [if_neg hlen, getByte_of_some (hget 0 (by decide)), getByte_of_some (hget 1 (by decide)),
    getByte_of_some (hget 3 (by decide)), getByte_of_some (hget 10 (by decide))]
  show (if payload.getD 0 0 ≠ 0x05 ∨ payload.getD 1 0 ≠ 0x64 then .ok none
    else if (payload.drop 11).length < 2 then .ok none else _ : Py (Option Event)) = _
  by_cases hstart : payload.getD 0 0 ≠ 0x05 ∨ payload.getD 1 0 ≠ 0x64
  · rw [if_pos hstart, if_neg]
    rintro ⟨-, h0, h1⟩
    rw [hget 0 (by decide)] at h0
    rw [hget 1 (by decide)] at h1
    exact hstart.elim (absurd (Option.some.inj h0)) (absurd (Option.some.inj h1))
  rw [if_neg hstart]
  rw [not_or, not_not, not_not] at hstart
  by_cases hshort : payload.length < 13
  · -- the application header is cut off before its function code
    rw [if_pos (by rw [List.length_drop]; omega), if_neg]
    rintro ⟨hlong, -⟩
    omega
  · have hframe : IsFrame payload :=
      ⟨by omega, (hget 0 (by decide)).trans (congrArg some hstart.1),
        (hget 1 (by decide)).trans (congrArg some hstart.2)⟩
    have h12 : payload[12]? = some (payload.getD 12 0) := getElem?_eq_getD (by omega)
    rw [if_neg (by rw [List.length_drop]; omega), if_pos hframe, getByte_drop, getByte_drop,
      getByte_of_some (hget 11 (by decide)), getByte_of_some h12]
    simp only [List.getElem?_drop, Nat.reduceAdd]
    rfl

/-! ## The function code of a request -/

/-- The function code of a payload that is decoded as a request. -/
def requestCode? (payload : Bytes) : Option UInt8 :=
  if payload[0]? = some 0x05 ∧ payload[1]? = some 0x64 ∧
      (payload[3]?.map directionOf) = some .request then payload[12]?
  else none

/-- The function code of an event that is a request. -/
def Event.requestCode? (e : Event) : Option UInt8 :=
  if e.direction = .request then some e.functionCode else none

/-- The octets decide whether there is a request. -/
theorem exists_decode (payload : Bytes) :
    ∃ event, decode payload = .ok event ∧
      requestCode? payload = event.bind Event.requestCode? := by
  refine ⟨_, decode_eq payload, ?_⟩
  by_cases hframe : IsFrame payload
  · obtain ⟨hlen, h0, h1⟩ := id hframe
    have hget : ∀ i < 13, payload[i]? = some (payload.getD i 0) := by
      intro i hi
      exact getElem?_eq_getD (by omega)
    rw [if_pos hframe, Option.bind_some, requestCode?, hget 3 (by decide), hget 12 (by decide)]
    simp [Event.requestCode?, eventOf, h0, h1]
  · rw [if_neg hframe, Option.bind_none]
    unfold requestCode?
    split
    · next hstart =>
      refine List.getElem?_eq_none ?_
      by_contra hlen
      exact hframe ⟨by omega, hstart.1, hstart.2.1⟩
    · rfl

/-! ## Link frames -/

/-- A link frame with any CRC fields: `crc 0` belongs to the header, `crc (k + 1)` to block `k`. -/
structure LinkFrame where
  control : UInt8
  destination : UInt16
  source : UInt16
  userData : Bytes
  crc : Nat → UInt16
  userData_le : userData.length ≤ 250

/-- The user data in blocks of sixteen octets, each followed by its CRC. -/
def blocks (userData : Bytes) (crc : Nat → UInt16) : Bytes :=
  (List.range ((userData.length + 15) / 16)).flatMap fun k =>
    slice userData (16 * k) (16 * k + 16) ++ little16 (crc k)

namespace LinkFrame

/-- The LEN octet counts control, addresses and user data. -/
def length (f : LinkFrame) : UInt8 := UInt8.ofNat (5 + f.userData.length)

/-- The ten octets of the header. -/
def header (f : LinkFrame) : Bytes :=
  [0x05, 0x64, f.length, f.control] ++ little16 f.destination ++ little16 f.source
    ++ little16 (f.crc 0)

theorem length_header (f : LinkFrame) : f.header.length = 10 := rfl

def bytes (f : LinkFrame) : Bytes := f.header ++ blocks f.userData fun k => f.crc (k + 1)

/-- What is decoded from a payload that begins with the header of a frame. -/
theorem decode_header (f : LinkFrame) (transport application functionCode : UInt8)
    (objects : Bytes) :
    ∃ e, decode (f.header ++ transport :: application :: functionCode :: objects) = .ok (some e) ∧
      e.direction = directionOf f.control ∧ e.functionCode = functionCode ∧
      e.linkSource = f.source.toNat ∧ e.linkDestination = f.destination.toNat :=
  ⟨_, decode_cons .., rfl, rfl, fromLittle_little16 f.source, fromLittle_little16 f.destination⟩

/-- A frame without user data is only a header. -/
theorem bytes_of_userData_nil {f : LinkFrame} (h : f.userData = []) : f.bytes = f.header := by
  simp [bytes, blocks, h]

end LinkFrame

/-- The first block and its CRC come first. -/
theorem blocks_eq {userData : Bytes} (h : userData ≠ []) (crc : Nat → UInt16) :
    ∃ rest, blocks userData crc = userData.take 16 ++ little16 (crc 0) ++ rest := by
  obtain ⟨n, hn⟩ : ∃ n, (userData.length + 15) / 16 = n + 1 := by
    have hpos : 0 < userData.length := List.length_pos_iff.mpr h
    exact ⟨(userData.length + 15) / 16 - 1, by omega⟩
  refine ⟨(List.range n).flatMap fun k =>
    slice userData (16 * (k + 1)) (16 * (k + 1) + 16) ++ little16 (crc (k + 1)), ?_⟩
  unfold blocks
  rw [hn, List.range_succ_eq_map, List.flatMap_cons, List.flatMap_map]
  simp [slice]

/-- A frame with user data has at least thirteen octets. -/
theorem blocks_cons {userData : Bytes} (h : userData ≠ []) (crc : Nat → UInt16) :
    ∃ b0 b1 b2 rest, blocks userData crc = b0 :: b1 :: b2 :: rest := by
  obtain ⟨rest, hrest⟩ := blocks_eq h crc
  rw [hrest]
  -- a single octet of user data is followed by the two octets of its CRC
  rcases userData with - | ⟨a, - | ⟨b, - | ⟨c, l⟩⟩⟩
  · exact absurd rfl h
  · exact ⟨_, _, _, _, rfl⟩
  · exact ⟨_, _, _, _, rfl⟩
  · exact ⟨_, _, _, _, rfl⟩

/-- The octet of a frame that is decoded as its function code. -/
def LinkFrame.functionOctet (f : LinkFrame) : UInt8 := f.bytes.getD 12 0

theorem LinkFrame.bytes_cons {f : LinkFrame} (h : f.userData ≠ []) :
    ∃ b0 b1 rest, f.bytes = f.header ++ b0 :: b1 :: f.functionOctet :: rest := by
  obtain ⟨b0, b1, b2, rest, hblocks⟩ := blocks_cons h fun k => f.crc (k + 1)
  have hbytes : f.bytes = f.header ++ b0 :: b1 :: b2 :: rest := congrArg (f.header ++ ·) hblocks
  have hoctet : f.functionOctet = b2 := by
    unfold functionOctet
    rw [hbytes]
    rfl
  exact ⟨b0, b1, rest, by rw [hoctet, hbytes]⟩

end OtLab.Dnp3
