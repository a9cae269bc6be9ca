import OtLab.Otdpi.Common

/-!
# OPC UA

The decoder `otdpi/opcua.py`, and OPC UA/TCP messages: a header of eight octets with the type, a
chunk octet and the size of the message, and a body. The body of a `MSG` begins with the secure
conversation header, behind which the NodeId of the service stands.

* `decode_eq` — decoding does not fail, and what it returns
* `decode_msg` — what is decoded from a `MSG`
* `service_append` — the first octets of a further message never complete a known service
-/

namespace OtLab.OpcUa

open Bytes

/-! ## The decoder -/

/-- `REQUEST_SERVICES`. -/
def requestServices : List (Nat × String) :=
  [ (422, "CloseSessionRequest"),
    (446, "FindServersRequest"),
    (452, "GetEndpointsRequest"),
    (461, "CreateSessionRequest"),
    (473, "ActivateSessionRequest"),
    (487, "RegisterServerRequest"),
    (527, "BrowseRequest"),
    (533, "BrowseNextRequest"),
    (554, "TranslateBrowsePathsToNodeIdsRequest"),
    (631, "ReadRequest"),
    (673, "WriteRequest"),
    (712, "CallRequest") ]

/-- `RESPONSE_SERVICES`. -/
def responseServices : List (Nat × String) :=
  [ (425, "CloseSessionResponse"),
    (449, "FindServersResponse"),
    (455, "GetEndpointsResponse"),
    (464, "CreateSessionResponse"),
    (476, "ActivateSessionResponse"),
    (530, "BrowseResponse"),
    (536, "BrowseNextResponse"),
    (634, "ReadResponse"),
    (676, "WriteResponse"),
    (715, "CallResponse") ]

/-- `MESSAGE_TYPES`. -/
inductive MessageType where
  | hel
  | ack
  | err
  | rhe
  | opn
  | msg
  | clo
deriving DecidableEq, Repr

namespace MessageType

def text : MessageType → String
  | hel => "HEL"
  | ack => "ACK"
  | err => "ERR"
  | rhe => "RHE"
  | opn => "OPN"
  | msg => "MSG"
  | clo => "CLO"

/-- The text in ASCII. -/
def octets : MessageType → Bytes
  | hel => [0x48, 0x45, 0x4C]
  | ack => [0x41, 0x43, 0x4B]
  | err => [0x45, 0x52, 0x52]
  | rhe => [0x52, 0x48, 0x45]
  | opn => [0x4F, 0x50, 0x4E]
  | msg => [0x4D, 0x53, 0x47]
  | clo => [0x43, 0x4C, 0x4F]

def all : List MessageType := [hel, ack, err, rhe, opn, msg, clo]

/-- The type with the given octets. -/
def ofOctets (p : Bytes) : Option MessageType := all.find? fun t => t.octets == p

/-- Messages without a secure channel. -/
def isPlain (t : MessageType) : Bool := t ∈ [hel, ack, err, rhe]

theorem octets_of_ofOctets {p : Bytes} {t : MessageType} (h : ofOctets p = some t) :
    p = t.octets :=
  (beq_iff_eq.mp (List.find?_some (p := fun t : MessageType => t.octets == p) h)).symm

theorem ofOctets_octets (t : MessageType) : ofOctets t.octets = some t := by
  cases t <;> decide

end MessageType

/-- The service of a `MSG`, with its direction. -/
structure Service where
  id : Nat
  name : String
  direction : Direction
deriving DecidableEq, Repr

/-- An event; an entry the dictionary does not have is `none`. -/
structure Event where
  messageType : MessageType
  chunkType : Char
  secureChannelId : Option Nat := none
  securityPolicyUri : Option String := none
  tokenId : Option Nat := none
  sequenceNumber : Option Nat := none
  requestId : Option Nat := none
  service : Option Service := none
deriving DecidableEq, Repr

/-- An entry of the event that may be missing. -/
def entry {α : Type} (key : String) (value : α → Value) : Option α → Dict
  | some x => [(key, value x)]
  | none => []

/-- The event as the dictionary `decode` returns. -/
def Event.fields (e : Event) : Dict :=
  [ ("message_type", .str e.messageType.text),
    ("chunk_type", .str (String.singleton e.chunkType)) ]
  ++ entry "secure_channel_id" (fun n => .int (n : Nat)) e.secureChannelId
  ++ entry "security_policy_uri" .str e.securityPolicyUri
  ++ entry "token_id" (fun n => .int (n : Nat)) e.tokenId
  ++ entry "sequence_number" (fun n => .int (n : Nat)) e.sequenceNumber
  ++ entry "request_id" (fun n => .int (n : Nat)) e.requestId
  ++ match e.service with
    | some s =>
      [ ("service_id", .int s.id),
        ("opcua_service", .str s.name),
        ("direction", .str s.direction.text) ]
    | none => []

/-- The keys of an event. -/
def Event.keys : List String :=
  ["message_type", "chunk_type"] ++ ["secure_channel_id"] ++ ["security_policy_uri"]
    ++ ["token_id"] ++ ["sequence_number"] ++ ["request_id"]
    ++ ["service_id", "opcua_service", "direction"]

theorem entry_sublist {α : Type} (key : String) (value : α → Value) (x : Option α) :
    ((entry key value x).map Prod.fst).Sublist [key] := by
  cases x with
  | none => exact List.nil_sublist _
  | some x => exact .refl _

theorem Event.keys_fields (e : Event) : (e.fields.map Prod.fst).Sublist keys := by
  unfold fields keys
  simp only [List.map_append]
  refine .append (.append (.append (.append (.append (.append (.refl _) (entry_sublist ..))
    (entry_sublist ..)) (entry_sublist ..)) (entry_sublist ..)) (entry_sublist ..)) ?_
  cases e.service with
  | none => exact List.nil_sublist _
  | some s => exact .refl _

/-! The fields the producer looks up again. -/

theorem lookup_entry {α : Type} (key k : String) (value : α → Value) (o : Option α) :
    (entry key value o).lookup k = if k = key then o.map value else none := by
  cases o with
  | none =>
    rw [Option.map_none, ite_self]
    rfl
  | some a =>
    by_cases h : k = key
    · simp [entry, h]
    · simp [entry, List.lookup_cons, h, beq_false_of_ne h]

section Lookup

variable (e : Event)

theorem lookup_secureChannelId :
    e.fields.lookup "secure_channel_id" = e.secureChannelId.map fun n => .int (n : Nat) := by
  cases h : e.service <;> simp [Event.fields, List.lookup_append, lookup_entry, List.lookup_cons, h]

theorem lookup_tokenId : e.fields.lookup "token_id" = e.tokenId.map fun n => .int (n : Nat) := by
  cases h : e.service <;> simp [Event.fields, List.lookup_append, lookup_entry, List.lookup_cons, h]

theorem lookup_sequenceNumber :
    e.fields.lookup "sequence_number" = e.sequenceNumber.map fun n => .int (n : Nat) := by
  cases h : e.service <;> simp [Event.fields, List.lookup_append, lookup_entry, List.lookup_cons, h]

theorem lookup_requestId :
    e.fields.lookup "request_id" = e.requestId.map fun n => .int (n : Nat) := by
  cases h : e.service <;> simp [Event.fields, List.lookup_append, lookup_entry, List.lookup_cons, h]

theorem lookup_serviceId : e.fields.lookup "service_id" = e.service.map fun s => .int s.id := by
  cases h : e.service <;> simp [Event.fields, List.lookup_append, lookup_entry, List.lookup_cons, h]

theorem lookup_opcuaService :
    e.fields.lookup "opcua_service" = e.service.map fun s => .str s.name := by
  cases h : e.service <;> simp [Event.fields, List.lookup_append, lookup_entry, List.lookup_cons, h]

theorem lookup_direction :
    e.fields.lookup "direction" = e.service.map fun s => .str s.direction.text := by
  cases h : e.service <;> simp [Event.fields, List.lookup_append, lookup_entry, List.lookup_cons, h]

end Lookup

/-- `_read_node_id`. -/
def readNodeId (body : Bytes) (offset : Nat) : Py (Option (Nat × Nat × Nat)) :=
  if body.length ≤ offset then .ok none
  else do
    let encoding ← getByte body offset
    let offset := offset + 1
    if encoding = 0x00 ∧ offset + 1 ≤ body.length then
      let identifier ← getByte body offset
      return some (0, identifier.toNat, offset + 1)
    if encoding = 0x01 ∧ offset + 3 ≤ body.length then
      let nspace ← getByte body offset
      return some (nspace.toNat, fromLittle (slice body (offset + 1) (offset + 3)), offset + 3)
    if encoding = 0x02 ∧ offset + 6 ≤ body.length then
      return some (fromLittle (slice body offset (offset + 2)),
        fromLittle (slice body (offset + 2) (offset + 6)), offset + 6)
    return none

/-- `_read_string`. -/
def readString (data : Bytes) (offset : Nat) : Option String × Nat :=
  if data.length < offset + 4 then (none, offset)
  else
    let length := fromLittle (slice data offset (offset + 4))
    let offset := offset + 4
    if length = 0xFFFFFFFF ∨ data.length - offset < length then (none, offset)
    else (some (decodeUtf8 (slice data offset (offset + length))), offset + length)

/-- The service of a NodeId. -/
def serviceOf (nspace identifier : Nat) : Option Service :=
  if nspace ≠ 0 then none
  else
    match requestServices.lookup identifier with
    | some name => some ⟨identifier, name, .request⟩
    | none =>
      match responseServices.lookup identifier with
      | some name => some ⟨identifier, name, .response⟩
      | none => none

/-- `decode`. -/
def decode (payload : Bytes) : Py (Option Event) :=
  if payload.length < 8 then .ok none
  else
    match MessageType.ofOctets (slice payload 0 3) with
    | none => .ok none
    | some messageType => do
      let chunkType ← getByte payload 3
      let event : Event := { messageType := messageType, chunkType := Char.ofNat chunkType.toNat }
      -- HEL, ACK, ERR and RHE have no secure channel
      if messageType.isPlain then return some event
      let event := { event with secureChannelId := some (fromLittle (slice payload 8 12)) }
      if messageType = .opn then
        return some { event with securityPolicyUri := (readString payload 12).1 }
      if messageType = .clo then
        return some { event with tokenId := some (fromLittle (slice payload 12 16)) }
      -- a MSG that is cut off before its request id
      if payload.length < 24 then return some event
      let event := { event with
        tokenId := some (fromLittle (slice payload 12 16))
        sequenceNumber := some (fromLittle (slice payload 16 20))
        requestId := some (fromLittle (slice payload 20 24)) }
      match ← readNodeId payload 24 with
      | none => return some event
      | some (nspace, identifier, _) =>
        return some { event with service := serviceOf nspace identifier }

/-- A service is one of the known ones. -/
theorem serviceOf_eq_some {nspace identifier : Nat} {s : Service}
    (h : serviceOf nspace identifier = some s) :
    s.direction = .request ∧ (s.id, s.name) ∈ requestServices ∨
      s.direction = .response ∧ (s.id, s.name) ∈ responseServices := by
  have hmem : ∀ {table : List (Nat × String)} {name : String},
      table.lookup identifier = some name → (identifier, name) ∈ table := by
    intro table name hl
    rw [List.lookup_eq_some_iff] at hl
    obtain ⟨l₁, l₂, rfl, -⟩ := hl
    exact List.mem_append_right _ List.mem_cons_self
  unfold serviceOf at h
  split at h
  · cases h
  split at h
  · next name hl =>
    obtain rfl := Option.some.inj h
    exact Or.inl ⟨rfl, hmem hl⟩
  split at h
  · next name hl =>
    obtain rfl := Option.some.inj h
    exact Or.inr ⟨rfl, hmem hl⟩
  · cases h

/-- The service of an event is one of the known ones. -/
theorem service_of_decode {payload : Bytes} {e : Event} (h : decode payload = .ok (some e))
    {s : Service} (hs : s ∈ e.service) :
    ∃ nspace identifier, serviceOf nspace identifier = some s := by
  unfold decode at h
  split at h
  · cases h
  split at h
  · cases h
  cases hchunk : getByte payload 3 with
  | error => rw [hchunk] at h; cases h
  | ok chunk =>
    rw [hchunk] at h
    change (if _ then _ else if _ then _ else if _ then _ else if _ then _ else _ :
      Py (Option Event)) = _ at h
    -- only a whole `MSG` has a service
    split at h
    · cases h; cases hs
    split at h
    · cases h; cases hs
    split at h
    · cases h; cases hs
    split at h
    · cases h; cases hs
    cases hnode : readNodeId payload 24 with
    | error => rw [hnode] at h; cases h
    | ok n =>
      rw [hnode] at h
      cases n with
      | none => cases h; cases hs
      | some n => cases h; exact ⟨_, _, hs⟩

/-! ## The NodeId of a body -/

/-- Namespace and identifier at the beginning of a text. -/
def nodeId : Bytes → Option (Nat × Nat)
  | [] => none
  | encoding :: l =>
    if encoding = 0x00 then l.head?.map fun b => (0, b.toNat)
    else if encoding = 0x01 then
      match l with
      | n :: i0 :: i1 :: _ => some (n.toNat, fromLittle [i0, i1])
      | _ => none
    else if encoding = 0x02 then
      match l with
      | n0 :: n1 :: i0 :: i1 :: i2 :: i3 :: _ =>
        some (fromLittle [n0, n1], fromLittle [i0, i1, i2, i3])
      | _ => none
    else none

/-- The service whose NodeId a text begins with. -/
def service (p : Bytes) : Option Service := (nodeId p).bind fun n => serviceOf n.1 n.2

/-- Reading behind a text is reading the rest. -/
theorem readNodeId_append {p : Bytes} {n : Nat} (hp : p.length = n) (l : Bytes) :
    ∃ next, readNodeId (p ++ l) n = .ok ((nodeId l).map fun r => (r.1, r.2, next)) := by
  have hat : ∀ i, getByte (p ++ l) (n + i) = getByte l i := getByte_append_right hp l
  have hslice : ∀ i j, slice (p ++ l) (n + i) (n + j) = slice l i j :=
    fun _ _ => slice_append_right hp
  have hlen : (p ++ l).length = n + l.length := by rw [List.length_append, hp]
  cases l with
  | nil =>
    refine ⟨0, ?_⟩
    rw [readNodeId, if_pos (by rw [hlen]; exact Nat.le_refl _)]
    rfl
  | cons encoding l =>
    have hzero : getByte (p ++ encoding :: l) n = .ok encoding := hat 0
    rw [readNodeId, if_neg (by rw [hlen, List.length_cons]; omega), hzero]
    simp only [hlen, List.length_cons, Nat.add_assoc, Nat.reduceAdd, hat, hslice,
      getByte_cons_succ, slice_cons_succ, Nat.add_le_add_iff_left]
    show ∃ next, (if encoding = 0x00 ∧ _ then _ else _ : Py (Option (Nat × Nat × Nat))) = _
    by_cases h0 : encoding = 0x00
    · subst h0
      cases l with
      | nil => exact ⟨0, rfl⟩
      | cons b l => exact ⟨n + 2, by simp [nodeId]⟩
    by_cases h1 : encoding = 0x01
    · subst h1
      match l with
      | [] | [_] | [_, _] => exact ⟨0, rfl⟩
      | b :: i0 :: i1 :: l => exact ⟨n + 4, by simp [nodeId]⟩
    by_cases h2 : encoding = 0x02
    · subst h2
      match l with
      | [] | [_] | [_, _] | [_, _, _] | [_, _, _, _] | [_, _, _, _, _] => exact ⟨0, rfl⟩
      | n0 :: n1 :: i0 :: i1 :: i2 :: i3 :: l => exact ⟨n + 7, by simp [nodeId]; rfl⟩
    · exact ⟨0, by simp [nodeId, h0, h1, h2]; rfl⟩

theorem serviceOf_of_nspace_ne {nspace : Nat} (h : nspace ≠ 0) (identifier : Nat) :
    serviceOf nspace identifier = none := if_pos h

/-- All known identifiers are larger than one octet and at most 715. -/
theorem identifier_bounds :
    ∀ p ∈ requestServices ++ responseServices, 256 ≤ p.1 ∧ p.1 ≤ 715 := by decide

theorem serviceOf_of_identifier {identifier : Nat} (h : identifier < 256 ∨ 715 < identifier)
    (nspace : Nat) : serviceOf nspace identifier = none := by
  have hlookup : ∀ table : List (Nat × String), table ⊆ requestServices ++ responseServices →
      table.lookup identifier = none := by
    intro table htable
    refine List.lookup_eq_none_iff.mpr fun p hp => ?_
    have hbounds := identifier_bounds p (htable hp)
    rw [bne_iff_ne]
    omega
  unfold serviceOf
  rw [hlookup _ (List.subset_append_left _ _), hlookup _ (List.subset_append_right _ _)]
  split <;> rfl

/-! Letters are too large for the high octet of a namespace or of a known identifier. -/

theorem serviceOf_nspace_letter {n0 n1 : UInt8} (h : 65 ≤ n1.toNat) (identifier : Nat) :
    serviceOf (fromLittle [n0, n1]) identifier = none := by
  refine serviceOf_of_nspace_ne ?_ identifier
  simp only [fromLittle, List.foldr_cons, List.foldr_nil]
  omega

theorem serviceOf_fourByte_letter {i0 i1 : UInt8} (h : 65 ≤ i1.toNat) (nspace : Nat) :
    serviceOf nspace (fromLittle [i0, i1]) = none := by
  refine serviceOf_of_identifier (Or.inr ?_) nspace
  simp only [fromLittle, List.foldr_cons, List.foldr_nil]
  omega

theorem serviceOf_numeric_letter {i0 i1 i2 i3 : UInt8}
    (h : 65 ≤ i1.toNat ∨ 65 ≤ i2.toNat ∨ 65 ≤ i3.toNat) (nspace : Nat) :
    serviceOf nspace (fromLittle [i0, i1, i2, i3]) = none := by
  refine serviceOf_of_identifier (Or.inr ?_) nspace
  simp only [fromLittle, List.foldr_cons, List.foldr_nil]
  omega

theorem service_twoByte (l : Bytes) : service (0x00 :: l) = none := by
  cases l with
  | nil => rfl
  | cons b l =>
    show serviceOf 0 b.toNat = none
    exact serviceOf_of_identifier (Or.inl b.toNat_lt) 0

/-- The octets of a further message are letters, too large for a namespace or an identifier. -/
theorem service_append (l : Bytes) {r0 r1 : UInt8} (h0 : 0x41 ≤ r0) (h1 : 0x41 ≤ r1)
    (r2 r3 r4 r5 : UInt8) (rest : Bytes) :
    service (l ++ r0 :: r1 :: r2 :: r3 :: r4 :: r5 :: rest) = service l := by
  have h0' : 65 ≤ r0.toNat := UInt8.le_iff_toNat_le.mp h0
  have h1' : 65 ≤ r1.toNat := UInt8.le_iff_toNat_le.mp h1
  cases l with
  | nil =>
    have hne : ∀ b : UInt8, b.toNat < 65 → r0 ≠ b := by
      rintro b hb rfl
      omega
    simp [service, nodeId, hne 0x00 (by decide), hne 0x01 (by decide), hne 0x02 (by decide)]
  | cons encoding l =>
    by_cases e0 : encoding = 0x00
    · subst e0
      rw [List.cons_append, service_twoByte, service_twoByte]
    by_cases e1 : encoding = 0x01
    · subst e1
      -- a NodeId that is cut off takes octets of the next message
      match l with
      | [] => exact serviceOf_of_nspace_ne (by omega) _
      | [n] => exact serviceOf_fourByte_letter h1' _
      | [n, i0] => exact serviceOf_fourByte_letter h0' _
      | n :: i0 :: i1 :: l => rfl
    by_cases e2 : encoding = 0x02
    · subst e2
      match l with
      | [] => exact serviceOf_nspace_letter h1' _
      | [n0] => exact serviceOf_nspace_letter h0' _
      | [n0, n1] => exact serviceOf_numeric_letter (Or.inl h1') _
      | [n0, n1, i0] => exact serviceOf_numeric_letter (Or.inl h0') _
      | [n0, n1, i0, i1] => exact serviceOf_numeric_letter (Or.inr (Or.inl h0')) _
      | [n0, n1, i0, i1, i2] => exact serviceOf_numeric_letter (Or.inr (Or.inr h0')) _
      | n0 :: n1 :: i0 :: i1 :: i2 :: i3 :: l => rfl
    · simp [service, nodeId, e0, e1, e2]

/-! ## Messages -/

/-- An OPC UA/TCP message, delimited by its size. A `MSG` has its secure conversation header. -/
structure Message where
  messageType : MessageType
  chunk : UInt8
  body : Bytes
  size_lt : 8 + body.length < 2 ^ 32
  complete : messageType = .msg → 16 ≤ body.length

namespace Message

/-- The eight octets of the header. -/
def header (m : Message) : Bytes :=
  m.messageType.octets ++ m.chunk :: little32 (UInt32.ofNat (8 + m.body.length))

def bytes (m : Message) : Bytes := m.header ++ m.body

theorem length_header (m : Message) : m.header.length = 8 := by
  unfold header
  cases m.messageType <;> rfl

end Message

theorem ofOctets_header (m : Message) (rest : Bytes) :
    MessageType.ofOctets (slice (m.header ++ rest) 0 3) = some m.messageType := by
  have hslice : slice (m.header ++ rest) 0 3 = m.messageType.octets := by
    unfold Message.header
    cases m.messageType <;> rfl
  rw [hslice, MessageType.ofOctets_octets]

/-- A message of another type carries no service. -/
theorem decode_of_ne_msg {m : Message} (h : m.messageType ≠ .msg) (rest : Bytes) :
    ∃ e, decode (m.header ++ rest) = .ok (some e) ∧ e.service = none := by
  have hlen : ¬ (m.header ++ rest).length < 8 := by
    rw [List.length_append, m.length_header]
    omega
  have hchunk : getByte (m.header ++ rest) 3 = .ok m.chunk := by
    unfold Message.header
    cases m.messageType <;> rfl
  unfold decode
  rw [if_neg hlen, ofOctets_header, hchunk]
  cases ht : m.messageType with
  | msg => exact absurd ht h
  | _ => exact ⟨_, rfl, rfl⟩

/-- The event of a `MSG` without its service, from the 24 octets of its two headers. -/
def msgEvent (chunk : UInt8) (p : Bytes) : Event where
  messageType := .msg
  chunkType := Char.ofNat chunk.toNat
  secureChannelId := some (fromLittle (slice p 8 12))
  tokenId := some (fromLittle (slice p 12 16))
  sequenceNumber := some (fromLittle (slice p 16 20))
  requestId := some (fromLittle (slice p 20 24))

/-- The octets behind the 24 octets of its headers only decide on the service of a `MSG`. -/
theorem decode_msg_of_headers {p : Bytes} {chunk : UInt8} (hp : p.length = 24)
    (htype : slice p 0 3 = MessageType.msg.octets) (hchunk : p[3]? = some chunk) (l : Bytes) :
    decode (p ++ l) = .ok (some { msgEvent chunk p with service := service l }) := by
  have hlen : (p ++ l).length = 24 + l.length := by rw [List.length_append, hp]
  have hslice : ∀ i j, j ≤ 24 → slice (p ++ l) i j = slice p i j :=
    fun i j hj => slice_append_left (by omega) l
  have htype' : MessageType.ofOctets (slice (p ++ l) 0 3) = some .msg := by
    rw [hslice 0 3 (by decide), htype, MessageType.ofOctets_octets]
  have hchunk' : getByte (p ++ l) 3 = .ok chunk :=
    getByte_of_some (by rw [List.getElem?_append_left (by omega), hchunk])
  obtain ⟨next, hnode⟩ := readNodeId_append hp l
  unfold decode
  rw [if_neg (by omega), htype']
  simp only [hchunk', hnode, hslice, Nat.reduceLeDiff]
  show (if (p ++ l).length < 24 then _ else _ : Py (Option Event)) = _
  rw [if_neg (by omega)]
  unfold service
  cases nodeId l with
  | none => rfl
  | some n => rfl

/-- What is decoded from a `MSG`. -/
theorem decode_msg {m : Message} (h : m.messageType = .msg) {conversation : Bytes}
    (hc : conversation.length = 16) (l : Bytes) :
    decode (m.header ++ conversation ++ l) = .ok (some
      { msgEvent m.chunk (m.header ++ conversation) with service := service l }) := by
  refine decode_msg_of_headers ?_ ?_ ?_ l
  · rw [List.length_append, m.length_header, hc]
  · unfold Message.header
    rw [h]
    rfl
  · unfold Message.header
    cases m.messageType <;> rfl

/-! ## Decoding does not fail -/

/-- The event of a payload of a known type. -/
def eventOf (messageType : MessageType) (payload : Bytes) : Event :=
  let event : Event :=
    { messageType := messageType, chunkType := Char.ofNat (payload.getD 3 0).toNat }
  match messageType with
  | .hel | .ack | .err | .rhe => event
  | .opn =>
    { event with
      secureChannelId := some (fromLittle (slice payload 8 12))
      securityPolicyUri := (readString payload 12).1 }
  | .clo =>
    { event with
      secureChannelId := some (fromLittle (slice payload 8 12))
      tokenId := some (fromLittle (slice payload 12 16)) }
  | .msg =>
    if payload.length < 24 then
      { event with secureChannelId := some (fromLittle (slice payload 8 12)) }
    else { msgEvent (payload.getD 3 0) payload with service := service (payload.drop 24) }

/-- **Decoding does not fail**: no octet is read that is not there. -/
theorem decode_eq (payload : Bytes) :
    decode payload = .ok (if payload.length < 8 then none
      else (MessageType.ofOctets (slice payload 0 3)).map (eventOf · payload)) := by
  by_cases hlen : payload.length < 8
  · rw [if_pos hlen]
    exact if_pos hlen
  rw [if_neg hlen]
  have hchunk : payload[3]? = some (payload.getD 3 0) := getElem?_eq_getD (by omega)
  cases htype : MessageType.ofOctets (slice payload 0 3) with
  | none =>
    unfold decode
    rw [if_neg hlen, htype]
    rfl
  | some messageType =>
    rw [Option.map_some]
    by_cases hmsg : messageType = .msg ∧ 24 ≤ payload.length
    · obtain ⟨rfl, hlong⟩ := hmsg
      have hp : (payload.take 24).length = 24 := by
        rw [List.length_take]
        omega
      have hoctets : slice (payload.take 24) 0 3 = MessageType.msg.octets := by
        rw [slice_take (by decide)]
        exact MessageType.octets_of_ofOctets htype
      have hget : (payload.take 24)[3]? = some (payload.getD 3 0) := by
        rw [List.getElem?_take_of_lt (by decide), hchunk]
      have hdecode := decode_msg_of_headers hp hoctets hget (payload.drop 24)
      rw [List.take_append_drop] at hdecode
      rw [hdecode]
      simp only [eventOf, if_neg (Nat.not_lt.mpr hlong), msgEvent, slice_take (Nat.le_refl 24),
        slice_take (show 12 ≤ 24 by decide), slice_take (show 16 ≤ 24 by decide),
        slice_take (show 20 ≤ 24 by decide)]
    · unfold decode
      rw [if_neg hlen, htype, getByte_of_some hchunk]
      cases messageType with
      | msg =>
        have hshort : payload.length < 24 := by
          by_contra hlong
          exact hmsg ⟨rfl, Nat.not_lt.mp hlong⟩
        show (if payload.length < 24 then _ else _ : Py (Option Event)) = _
        rw [if_pos hshort, eventOf, if_pos hshort]
        rfl
      | _ => rfl

end OtLab.OpcUa
