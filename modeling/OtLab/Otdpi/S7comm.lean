import OtLab.Otdpi.Common

/-!
# S7comm

The decoder `otdpi/s7comm.py`, and TPKT packets: four octets with the length of the packet, the
COTP header, and for a data packet the S7 PDU.

* `decode_eq` — decoding does not fail, and what it returns
* `decode_data` — what is decoded from a data packet depends on what follows the COTP header
-/

namespace OtLab.S7comm

open Bytes

/-! ## The decoder -/

/-- `FUNCTION_NAMES`. -/
def functionNames : List (UInt8 × String) :=
  [ (0x00, "CPU Services"),
    (0x04, "Read Var"),
    (0x05, "Write Var"),
    (0x1A, "Request Download"),
    (0x1B, "Download Block"),
    (0x1C, "Download Ended"),
    (0x1D, "Start Upload"),
    (0x1E, "Upload"),
    (0x1F, "End Upload"),
    (0x28, "PLC Control"),
    (0x29, "PLC Stop"),
    (0xF0, "Setup Communication") ]

/-- `function_name`. -/
def functionName (functionCode : UInt8) : String :=
  (functionNames.lookup functionCode).getD ("Unknown (" ++ toString functionCode.toNat ++ ")")

/-- A decoded S7 PDU. -/
structure Pdu where
  rosctr : UInt8
  pduReference : Nat
  parameterLength : Nat
  dataLength : Nat
  cotpType : UInt8
  functionCode : Option UInt8
deriving DecidableEq, Repr

/-- Only a Job is a request. -/
def Pdu.direction (p : Pdu) : Direction := if p.rosctr = 1 then .request else .response

/-- What `decode` returns: connection setup carries no S7 header. -/
inductive Event where
  | connection (cotpType : UInt8)
  | pdu (p : Pdu)
deriving DecidableEq, Repr

/-- The event as the dictionary `decode` returns. -/
def Event.fields : Event → Dict
  | .connection cotpType => [("cotp_type", .int cotpType.toNat)]
  | .pdu p =>
    [ ("direction", .str p.direction.text),
      ("rosctr", .int p.rosctr.toNat),
      ("pdu_reference", .int p.pduReference),
      ("parameter_length", .int p.parameterLength),
      ("data_length", .int p.dataLength),
      ("cotp_type", .int p.cotpType.toNat) ]
    ++ match p.functionCode with
      | some functionCode =>
        [ ("function_code", .int functionCode.toNat),
          ("function_name", .str (functionName functionCode)) ]
      | none => []

/-- The keys of an event. -/
def Event.keys : List String :=
  ["direction", "rosctr", "pdu_reference", "parameter_length", "data_length", "cotp_type",
    "function_code", "function_name"]

theorem Event.keys_fields (e : Event) : (e.fields.map Prod.fst).Sublist keys := by
  cases e with
  | connection cotpType => exact List.singleton_sublist.mpr (by simp [keys])
  | pdu p =>
    obtain ⟨rosctr, pduReference, parameterLength, dataLength, cotpType, functionCode⟩ := p
    cases functionCode with
    | none => exact List.sublist_append_left _ ["function_code", "function_name"]
    | some functionCode => exact .refl _

/-- `decode`. -/
def decode (payload : Bytes) : Py (Option Event) :=
  if payload.length < 6 then .ok none
  else do
    let version ← getByte payload 0
    let reserved ← getByte payload 1
    if version ≠ 0x03 ∨ reserved ≠ 0x00 then return none
    let cotpLength ← getByte payload 4
    let cotpType ← getByte payload 5
    -- connection setup carries no S7 header
    if cotpType ≠ 0xF0 then return some (.connection cotpType)
    let s7Offset := 5 + cotpLength.toNat
    if payload.length < s7Offset + 10 then return none
    let protocolId ← getByte payload s7Offset
    if protocolId ≠ 0x32 then return none
    let rosctr ← getByte payload (s7Offset + 1)
    return some (.pdu
      { rosctr := rosctr
        pduReference := fromBig (slice payload (s7Offset + 4) (s7Offset + 6))
        parameterLength := fromBig (slice payload (s7Offset + 6) (s7Offset + 8))
        dataLength := fromBig (slice payload (s7Offset + 8) (s7Offset + 10))
        cotpType := cotpType
        functionCode := payload[s7Offset + 10]? })

/-! ## The octets behind the header -/

/-- What is decoded from the octets behind the header of a data packet. -/
def decodeBody (body : Bytes) : Option Event :=
  match body[0]?, body[1]? with
  | some protocolId, some rosctr =>
    if body.length < 10 ∨ protocolId ≠ 0x32 then none
    else some (.pdu
      { rosctr := rosctr
        pduReference := fromBig (slice body 4 6)
        parameterLength := fromBig (slice body 6 8)
        dataLength := fromBig (slice body 8 10)
        cotpType := 0xF0
        functionCode := body[10]? })
  | _, _ => none

theorem decodeBody_of_length_lt {body : Bytes} (h : body.length < 10) :
    decodeBody body = none := by
  unfold decodeBody
  split
  · rw [if_pos (Or.inl h)]
  · rfl

theorem decodeBody_of_ne {body : Bytes} (h : body[0]? ≠ some 0x32) : decodeBody body = none := by
  unfold decodeBody
  split
  · next protocolId _ hid _ => exact if_pos (Or.inr fun heq => h (hid.trans (congrArg some heq)))
  · rfl

theorem decodeBody_cons {protocolId rosctr : UInt8} {rest : Bytes}
    (h : ¬ (protocolId :: rosctr :: rest).length < 10) :
    decodeBody (protocolId :: rosctr :: rest) = if protocolId ≠ 0x32 then none
      else some (.pdu
        { rosctr := rosctr
          pduReference := fromBig (slice (protocolId :: rosctr :: rest) 4 6)
          parameterLength := fromBig (slice (protocolId :: rosctr :: rest) 6 8)
          dataLength := fromBig (slice (protocolId :: rosctr :: rest) 8 10)
          cotpType := 0xF0
          functionCode := (protocolId :: rosctr :: rest)[10]? }) := by
  show (if _ ∨ protocolId ≠ 0x32 then _ else _) = _
  exact if_congr (or_iff_right h) rfl rfl

/-- What `decode` makes of a data packet is read off the octets behind its header. -/
theorem decode_eq_decodeBody {payload : Bytes} {cotpLength : UInt8}
    (h0 : payload[0]? = some 0x03) (h1 : payload[1]? = some 0x00)
    (h4 : payload[4]? = some cotpLength) (h5 : payload[5]? = some 0xF0) :
    decode payload = .ok (decodeBody (payload.drop (5 + cotpLength.toNat))) := by
  have hlen : ¬ payload.length < 6 := by
    have := (List.getElem?_eq_some_iff.mp h5).1
    omega
  unfold decode
  rw [if_neg hlen, getByte_of_some h0, getByte_of_some h1, getByte_of_some h4,
    getByte_of_some h5]
  show (if payload.length < 5 + cotpLength.toNat + 10 then _ else _ : Py (Option Event)) = _
  have hten : payload.length < 5 + cotpLength.toNat + 10 ↔
      (payload.drop (5 + cotpLength.toNat)).length < 10 := by
    rw [List.length_drop]
    omega
  have hzero := getByte_drop payload (5 + cotpLength.toNat) 0
  rw [Nat.add_zero] at hzero
  simp only [hten, ← hzero, ← getByte_drop, ← slice_drop, ← List.getElem?_drop]
  generalize payload.drop (5 + cotpLength.toNat) = body
  by_cases hb : body.length < 10
  · rw [if_pos hb, decodeBody_of_length_lt hb]
    rfl
  · rw [if_neg hb]
    -- with ten octets there are a protocol id and a ROSCTR
    match body, hb with
    | [], hb | [_], hb => simp at hb
    | protocolId :: rosctr :: rest, hb =>
      show (if protocolId ≠ 0x32 then _ else _ : Py (Option Event)) = _
      rw [decodeBody_cons hb]
      by_cases hid : protocolId = 0x32
      · rw [if_neg (not_not.mpr hid), if_neg (not_not.mpr hid)]
        rfl
      · rw [if_pos hid, if_pos hid]
        rfl

/-! ## Decoding does not fail -/

/-- What is decoded from a payload. -/
def decoded (payload : Bytes) : Option Event :=
  if payload[0]? = some 0x03 ∧ payload[1]? = some 0x00 then
    match payload[4]?, payload[5]? with
    | some cotpLength, some cotpType =>
      if cotpType ≠ 0xF0 then some (.connection cotpType)
      else decodeBody (payload.drop (5 + cotpLength.toNat))
    | _, _ => none
  else none

/-- **Decoding does not fail**: no octet is read that is not there. -/
theorem decode_eq (payload : Bytes) : decode payload = .ok (decoded payload) := by
  by_cases hlen : payload.length < 6
  · have h5 : payload[5]? = none := List.getElem?_eq_none (by omega)
    have hnone : decoded payload = none := by
      unfold decoded
      rw [h5]
      split
      · cases payload[4]? <;> rfl
      · rfl
    rw [hnone]
    exact if_pos hlen
  have hget : ∀ i < 6, payload[i]? = some (payload.getD i 0) := by
    intro i hi
    exact getElem?_eq_getD (by omega)
  have h0 := hget 0 (by decide)
  have h1 := hget 1 (by decide)
  have h4 := hget 4 (by decide)
  have h5 := hget 5 (by decide)
  unfold decoded
  rw [h0, h1, h4, h5]
  generalize payload.getD 0 0 = version at h0 ⊢
  generalize payload.getD 1 0 = reserved at h1 ⊢
  generalize payload.getD 4 0 = cotpLength at h4 ⊢
  generalize payload.getD 5 0 = cotpType at h5 ⊢
  by_cases hstart : version = 0x03 ∧ reserved = 0x00
  · obtain ⟨rfl, rfl⟩ := hstart
    rw [if_pos ⟨rfl, rfl⟩]
    dsimp only
    by_cases htype : cotpType = 0xF0
    · subst htype
      rw [decode_eq_decodeBody h0 h1 h4 h5, if_neg (not_not.mpr rfl)]
    · unfold decode
      rw [if_neg hlen, getByte_of_some h0, getByte_of_some h1, getByte_of_some h4,
        getByte_of_some h5, if_pos htype]
      show (if cotpType ≠ 0xF0 then _ else _ : Py (Option Event)) = _
      rw [if_pos htype]
      rfl
  · have hstart' : ¬ (some version = some 0x03 ∧ some reserved = some 0x00) := by
      rwa [Option.some.injEq, Option.some.injEq]
    unfold decode
    rw [if_neg hlen, getByte_of_some h0, getByte_of_some h1, if_neg hstart']
    exact if_pos (by rwa [← not_and_or])

/-! ## The function code of a Job -/

/-- The function code of a payload that is decoded as a Job. -/
def jobCode? (payload : Bytes) : Option UInt8 :=
  if payload[0]? = some 0x03 ∧ payload[1]? = some 0x00 ∧ payload[5]? = some 0xF0 then
    payload[4]?.bind fun cotpLength =>
      let s7Offset := 5 + cotpLength.toNat
      if payload[s7Offset]? = some 0x32 ∧ payload[s7Offset + 1]? = some 1 then
        payload[s7Offset + 10]?
      else none
  else none

/-- The function code of an event that is a Job. -/
def Event.jobCode? : Event → Option UInt8
  | .connection _ => none
  | .pdu p => if p.direction = .request then p.functionCode else none

/-- The function code of a Job, in the octets behind the header. -/
theorem bind_decodeBody_jobCode? (body : Bytes) :
    (decodeBody body).bind Event.jobCode? =
      if body[0]? = some 0x32 ∧ body[1]? = some 1 then body[10]? else none := by
  by_cases hb : body.length < 10
  · have hnone : body[10]? = none := List.getElem?_eq_none (Nat.le_of_lt (by omega))
    rw [decodeBody_of_length_lt hb, hnone, ite_self]
    rfl
  match body, hb with
  | [], hb | [_], hb => simp at hb
  | protocolId :: rosctr :: rest, hb =>
    rw [decodeBody_cons hb]
    by_cases hid : protocolId = 0x32
    · rw [if_neg (not_not.mpr hid)]
      simp [Event.jobCode?, Pdu.direction, hid]
    · rw [if_pos hid]
      simp [hid]

/-- The octets decide whether there is a Job. -/
theorem exists_decode (payload : Bytes) :
    ∃ event, decode payload = .ok event ∧ jobCode? payload = event.bind Event.jobCode? := by
  refine ⟨_, decode_eq payload, ?_⟩
  unfold decoded jobCode?
  by_cases hstart : payload[0]? = some 0x03 ∧ payload[1]? = some 0x00
  · rw [if_pos hstart]
    cases h4 : payload[4]? with
    | none => simp
    | some cotpLength =>
      cases h5 : payload[5]? with
      | none => simp
      | some cotpType =>
        by_cases htype : cotpType = 0xF0
        · subst htype
          dsimp only
          rw [if_pos ⟨hstart.1, hstart.2, rfl⟩, if_neg (not_not.mpr rfl),
            bind_decodeBody_jobCode?, Option.bind_some]
          simp only [List.getElem?_drop, Nat.add_zero]
        · simp [htype, Event.jobCode?]
  · rw [if_neg hstart, if_neg fun h => hstart ⟨h.1, h.2.1⟩]
    rfl

/-! ## TPKT packets -/

/--
A TPKT packet, delimited by its length. Data that begins like an S7 PDU has the whole of its
ten octets of header.
-/
structure Tpkt where
  cotpType : UInt8
  /-- the COTP header behind its type -/
  cotpRest : Bytes
  data : Bytes
  cotpRest_le : cotpRest.length ≤ 253
  length_le : 6 + cotpRest.length + data.length ≤ 65535
  complete : cotpType = 0xF0 → data[0]? = some 0x32 → 10 ≤ data.length

namespace Tpkt

/-- TPKT and COTP header. -/
def header (m : Tpkt) : Bytes :=
  [0x03, 0x00] ++ big16 (UInt16.ofNat (6 + m.cotpRest.length + m.data.length))
    ++ UInt8.ofNat (1 + m.cotpRest.length) :: m.cotpType :: m.cotpRest

def bytes (m : Tpkt) : Bytes := m.header ++ m.data

theorem length_header (m : Tpkt) : m.header.length = 6 + m.cotpRest.length := by
  simp only [header, List.length_append, List.length_cons, length_big16, List.length_nil]
  omega

theorem cotpLength (m : Tpkt) :
    5 + (UInt8.ofNat (1 + m.cotpRest.length)).toNat = 6 + m.cotpRest.length := by
  have := m.cotpRest_le
  simp only [UInt8.toNat_ofNat']
  omega

end Tpkt

theorem decode_connection {m : Tpkt} (h : m.cotpType ≠ 0xF0) (body : Bytes) :
    decode (m.header ++ body) = .ok (some (.connection m.cotpType)) := by
  have hlen : ¬ (m.header ++ body).length < 6 := by
    rw [List.length_append, m.length_header]
    omega
  unfold decode
  rw [if_neg hlen]
  show (if m.cotpType ≠ 0xF0 then _ else _ : Py (Option Event)) = _
  rw [if_pos h]
  rfl

/-- What is decoded from a data packet depends on what follows its header. -/
theorem decode_data {m : Tpkt} (h : m.cotpType = 0xF0) (body : Bytes) :
    decode (m.header ++ body) = .ok (decodeBody body) := by
  have hdrop : (m.header ++ body).drop (6 + m.cotpRest.length) = body :=
    List.drop_left' m.length_header
  rw [decode_eq_decodeBody rfl rfl rfl (congrArg some h), m.cotpLength, hdrop]

end OtLab.S7comm
