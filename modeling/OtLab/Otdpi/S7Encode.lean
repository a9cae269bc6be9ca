import OtLab.Otdpi.S7comm

/-!
# S7comm messages of every type

A message is laid out as TPKT, a COTP data header, the S7 header, a parameter block and a data
block. The S7 header of Ack and Ack-Data is two octets longer, but the decoder reads the function
code at one fixed position.

* `decode_encode` — what is decoded from an encoded message
* `undone_iff` — decoding undoes encoding where that position is the first octet of the parameters
-/

namespace OtLab.S7comm

open Bytes

/-! ## Encoding -/

/-- The types of `ROSCTR_NAMES`; the acknowledgements carry an error class and an error code. -/
inductive PduType where
  | job
  | ack (errorClass errorCode : UInt8)
  | ackData (errorClass errorCode : UInt8)
  | userdata
deriving DecidableEq, Repr

def PduType.rosctr : PduType → UInt8
  | .job => 1
  | .ack _ _ => 2
  | .ackData _ _ => 3
  | .userdata => 7

/-- What follows the data length in the header. -/
def PduType.errors : PduType → Bytes
  | .job | .userdata => []
  | .ack errorClass errorCode | .ackData errorClass errorCode => [errorClass, errorCode]

/-- A message whose length fits the TPKT header. -/
structure Message where
  type : PduType
  /-- the octet of the COTP header behind its type -/
  tpduNumber : UInt8
  reserved : UInt16
  pduReference : UInt16
  parameters : Bytes
  data : Bytes
  length_le : 17 + type.errors.length + parameters.length + data.length ≤ 65535

namespace Message

/-- The S7 header. -/
def s7Header (m : Message) : Bytes :=
  [0x32, m.type.rosctr] ++ big16 m.reserved ++ big16 m.pduReference
    ++ big16 (UInt16.ofNat m.parameters.length) ++ big16 (UInt16.ofNat m.data.length)
    ++ m.type.errors

def s7 (m : Message) : Bytes := m.s7Header ++ m.parameters ++ m.data

theorem length_s7 (m : Message) :
    m.s7.length = 10 + m.type.errors.length + m.parameters.length + m.data.length := by
  simp only [s7, s7Header, List.length_append, List.length_cons, List.length_nil, length_big16]

/-- The message in a TPKT packet with a COTP DT header. -/
def tpkt (m : Message) : Tpkt where
  cotpType := 0xF0
  cotpRest := [m.tpduNumber]
  data := m.s7
  cotpRest_le := by simp
  length_le := by
    have := m.length_le
    rw [length_s7, List.length_singleton]
    omega
  complete := fun _ _ => by
    rw [length_s7]
    omega

def encode (m : Message) : Bytes := m.tpkt.bytes

end Message

/-- Decoding gives back the fields of the message and the first octet of its parameters. -/
structure Undone (m : Message) (pdu : Pdu) : Prop where
  rosctr : pdu.rosctr = m.type.rosctr
  pduReference : pdu.pduReference = m.pduReference.toNat
  parameterLength : pdu.parameterLength = m.parameters.length
  dataLength : pdu.dataLength = m.data.length
  direction : pdu.direction = .request ↔ m.type = .job
  functionCode : pdu.functionCode = m.parameters.head?

/-! ## Decoding -/

/-- What the decoder makes of a message. -/
def Message.decoded (m : Message) : Pdu where
  rosctr := m.type.rosctr
  pduReference := m.pduReference.toNat
  parameterLength := m.parameters.length
  dataLength := m.data.length
  cotpType := 0xF0
  functionCode := (m.type.errors ++ m.parameters ++ m.data).head?

/-- The fields of the header, at the positions the decoder reads. -/
theorem Message.slice_s7 (m : Message) :
    slice m.s7 4 6 = big16 m.pduReference ∧
      slice m.s7 6 8 = big16 (UInt16.ofNat m.parameters.length) ∧
      slice m.s7 8 10 = big16 (UInt16.ofNat m.data.length) := by
  refine ⟨?_, ?_, ?_⟩ <;> simp [s7, s7Header, big16]

/-- The octet behind the data length. -/
theorem Message.getElem?_ten (m : Message) :
    m.s7[10]? = (m.type.errors ++ m.parameters ++ m.data).head? := by
  simp [s7, s7Header, big16, List.head?_eq_getElem?]

theorem fromBig_length {n : Nat} (h : n ≤ 65535) : fromBig (big16 (UInt16.ofNat n)) = n := by
  rw [fromBig_big16, UInt16.toNat_ofNat']
  omega

/-- **Every message is decoded, with the octet behind the data length as its function code.** -/
theorem decode_encode (m : Message) : decode m.encode = .ok (some (.pdu m.decoded)) := by
  have hle := m.length_le
  have hlen : ¬ m.s7.length < 10 := by
    rw [m.length_s7]
    omega
  obtain ⟨href, hparameters, hdata⟩ := m.slice_s7
  have hbody : decodeBody m.s7 = some (.pdu
      { rosctr := m.type.rosctr
        pduReference := fromBig (slice m.s7 4 6)
        parameterLength := fromBig (slice m.s7 6 8)
        dataLength := fromBig (slice m.s7 8 10)
        cotpType := 0xF0
        functionCode := m.s7[10]? }) :=
    (decodeBody_cons hlen).trans (if_neg (not_not.mpr rfl))
  rw [Message.encode, Tpkt.bytes, decode_data rfl]
  show Except.ok (decodeBody m.s7) = _
  rw [hbody, href, hparameters, hdata, fromBig_big16, fromBig_length (by omega),
    fromBig_length (by omega), m.getElem?_ten]
  rfl

/-! ## When decoding undoes encoding -/

/-- Only a Job is decoded as a request. -/
theorem direction_decoded (m : Message) : m.decoded.direction = .request ↔ m.type = .job := by
  unfold Pdu.direction Message.decoded
  cases m.type <;> simp [PduType.rosctr]

theorem undone_decoded_iff (m : Message) :
    Undone m m.decoded ↔
      (m.type.errors ++ m.parameters ++ m.data).head? = m.parameters.head? :=
  ⟨Undone.functionCode, fun h => ⟨rfl, rfl, rfl, rfl, direction_decoded m, h⟩⟩

/-- The octet behind the data length is the first one of the parameters, or there is neither. -/
def Message.CodeInPlace (m : Message) : Prop :=
  match m.type with
  | .job | .userdata => m.parameters ≠ [] ∨ m.data = []
  | .ack errorClass _ | .ackData errorClass _ => ∃ rest, m.parameters = errorClass :: rest

theorem head?_eq_iff_codeInPlace (m : Message) :
    (m.type.errors ++ m.parameters ++ m.data).head? = m.parameters.head? ↔ m.CodeInPlace := by
  unfold Message.CodeInPlace
  cases m.type with
  | job | userdata =>
    cases hp : m.parameters with
    | nil => cases hd : m.data <;> simp [PduType.errors]
    | cons code rest => simp [PduType.errors]
  | ack errorClass errorCode | ackData errorClass errorCode =>
    cases hp : m.parameters with
    | nil => simp [PduType.errors]
    | cons code rest => simp [PduType.errors, eq_comm]

/--
**Decoding undoes encoding exactly where the function code is in place.**

For Job and Userdata there are parameters, or there is no data either; for Ack and Ack-Data the
parameters begin with the error class.
-/
theorem undone_iff (m : Message) :
    (∃ pdu, decode m.encode = .ok (some (.pdu pdu)) ∧ Undone m pdu) ↔ m.CodeInPlace := by
  rw [← head?_eq_iff_codeInPlace, ← undone_decoded_iff, decode_encode]
  constructor
  · rintro ⟨pdu, heq, h⟩
    cases heq
    exact h
  · exact fun h => ⟨_, rfl, h⟩

/-- The answer to a Read Var: its error class 0 is taken for the function code. -/
def readVarAnswer : Message where
  type := .ackData 0 0
  tpduNumber := 0x80
  reserved := 0
  pduReference := 0x026B
  parameters := [0x04, 0x01]
  data := [0xFF, 0x04, 0x00, 0x08, 0x2A]
  length_le := by decide

theorem ackData_not_undone :
    ¬ ∀ m : Message, ∃ pdu, decode m.encode = .ok (some (.pdu pdu)) ∧ Undone m pdu := by
  intro h
  obtain ⟨pdu, hdecode, hundone⟩ := h readVarAnswer
  rw [decode_encode] at hdecode
  cases hdecode
  exact absurd hundone.functionCode (by decide)

end OtLab.S7comm
