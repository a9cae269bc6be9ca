import OtLab.Otdpi.OpcUa
import OtLab.Py.Utf8

/-!
# OPC UA messages of every type

The messages of the seven types with any size field: the ones without a channel, `OPN` with its
security policy, `CLO`, and `MSG` with the secure conversation header and a body. A body begins
with a NodeId in one of its three numeric encodings, or with something else.

* `message_recovered` — decoding gives back exactly the fields a message carries
* `service_encode_iff` — when the body of a `MSG` names a service
-/

namespace OtLab.OpcUa

open Bytes

/-! ## Encoding -/

/-- A NodeId with a numeric identifier. -/
inductive NodeId where
  | twoByte (identifier : UInt8)
  | fourByte (nspace : UInt8) (identifier : UInt16)
  | numeric (nspace : UInt16) (identifier : UInt32)
deriving DecidableEq, Repr

namespace NodeId

def encode : NodeId → Bytes
  | twoByte identifier => [0x00, identifier]
  | fourByte nspace identifier => [0x01, nspace] ++ little16 identifier
  | numeric nspace identifier => [0x02] ++ little16 nspace ++ little32 identifier

/-- The TwoByte encoding is always in namespace 0. -/
def nspace : NodeId → Nat
  | twoByte _ => 0
  | fourByte nspace _ => nspace.toNat
  | numeric nspace _ => nspace.toNat

def identifier : NodeId → Nat
  | twoByte identifier => identifier.toNat
  | fourByte _ identifier => identifier.toNat
  | numeric _ identifier => identifier.toNat

end NodeId

/-- The body of a `MSG`: a NodeId and anything, or what begins with no such NodeId. -/
inductive Body where
  | node (n : NodeId) (rest : Bytes)
  | other (octets : Bytes) (h : ∀ n rest, octets ≠ NodeId.encode n ++ rest)

def Body.encode : Body → Bytes
  | node n rest => n.encode ++ rest
  | other octets _ => octets

/-- The security policy URI of an `OPN`; a length of `0xFFFFFFFF` stands for none. -/
inductive PolicyUri where
  | null
  | uri (text : String) (h : (encodeUtf8 text).length < 0xFFFFFFFF)

namespace PolicyUri

def encode : PolicyUri → Bytes
  | null => little32 0xFFFFFFFF
  | uri text _ => little32 (UInt32.ofNat (encodeUtf8 text).length) ++ encodeUtf8 text

def text? : PolicyUri → Option String
  | null => none
  | uri text _ => some text

end PolicyUri

/-- A message type without a secure channel. -/
inductive PlainType where
  | hel
  | ack
  | err
  | rhe

def PlainType.messageType : PlainType → MessageType
  | hel => .hel
  | ack => .ack
  | err => .err
  | rhe => .rhe

/-- What a message carries behind its size, and any octets behind that. -/
inductive Content where
  | plain (type : PlainType) (rest : Bytes)
  | opn (channel : UInt32) (policy : PolicyUri) (rest : Bytes)
  | clo (channel token : UInt32) (rest : Bytes)
  | msg (channel token sequence request : UInt32) (body : Body)

namespace Content

def messageType : Content → MessageType
  | plain type _ => type.messageType
  | opn _ _ _ => .opn
  | clo _ _ _ => .clo
  | msg _ _ _ _ _ => .msg

def encode : Content → Bytes
  | plain _ rest => rest
  | opn channel policy rest => little32 channel ++ policy.encode ++ rest
  | clo channel token rest => little32 channel ++ little32 token ++ rest
  | msg channel token sequence request body =>
    little32 channel ++ little32 token ++ little32 sequence ++ little32 request ++ body.encode

end Content

/-- A message of any type; the decoder does not look at its size. -/
structure AnyMessage where
  chunk : UInt8
  size : UInt32
  content : Content

namespace AnyMessage

def header (m : AnyMessage) : Bytes :=
  m.content.messageType.octets ++ m.chunk :: little32 m.size

def encode (m : AnyMessage) : Bytes := m.header ++ m.content.encode

end AnyMessage

/-! ## What is to be decoded -/

/-- The fields of a message other than its service. -/
def AnyMessage.fields (m : AnyMessage) : Dict :=
  [ ("message_type", .str m.content.messageType.text),
    ("chunk_type", .str (String.singleton (Char.ofNat m.chunk.toNat))) ]
  ++ match m.content with
    | .plain _ _ => []
    | .opn channel policy _ =>
      ("secure_channel_id", .int channel.toNat)
        :: policy.text?.toList.map fun text => ("security_policy_uri", .str text)
    | .clo channel token _ =>
      [("secure_channel_id", .int channel.toNat), ("token_id", .int token.toNat)]
    | .msg channel token sequence request _ =>
      [ ("secure_channel_id", .int channel.toNat),
        ("token_id", .int token.toNat),
        ("sequence_number", .int sequence.toNat),
        ("request_id", .int request.toNat) ]

/-- The entries an event has for its service. -/
def serviceFields : Option Service → Dict
  | some s =>
    [ ("service_id", .int s.id),
      ("opcua_service", .str s.name),
      ("direction", .str s.direction.text) ]
  | none => []

/-- A service of the tables. -/
def Listed (s : Service) : Prop :=
  s.direction = .request ∧ (s.id, s.name) ∈ requestServices ∨
    s.direction = .response ∧ (s.id, s.name) ∈ responseServices

/-- The body begins with the NodeId of a listed service in namespace 0. -/
def AnyMessage.Names (m : AnyMessage) (s : Service) : Prop :=
  ∃ channel token sequence request n rest,
    m.content = .msg channel token sequence request (.node n rest) ∧
      n.nspace = 0 ∧ n.identifier = s.id ∧ Listed s

/-- Decoding gives back the fields of the message, and the service it names. -/
structure Recovered (m : AnyMessage) (e : Event) : Prop where
  fields : e.fields = m.fields ++ serviceFields e.service
  service : ∀ s, e.service = some s ↔ m.Names s

/-! ## Reading the parts -/

/-- A NodeId is read in each of its encodings. -/
theorem nodeId_encode (n : NodeId) (rest : Bytes) :
    nodeId (n.encode ++ rest) = some (n.nspace, n.identifier) := by
  cases n with
  | twoByte identifier => rfl
  | fourByte nspace identifier =>
    show some (nspace.toNat, fromLittle (little16 identifier)) = _
    rw [fromLittle_little16]
    rfl
  | numeric nspace identifier =>
    show some (fromLittle (little16 nspace), fromLittle (little32 identifier)) = _
    rw [fromLittle_little16, fromLittle_little32]
    rfl

/-- Nothing else is read as a NodeId. -/
theorem nodeId_eq_none {l : Bytes} (h : ∀ n rest, l ≠ NodeId.encode n ++ rest) :
    nodeId l = none := by
  cases l with
  | nil => rfl
  | cons encoding l =>
    unfold nodeId
    by_cases h0 : encoding = 0x00
    · subst h0
      cases l with
      | nil => rfl
      | cons b l => exact absurd rfl (h (.twoByte b) l)
    by_cases h1 : encoding = 0x01
    · subst h1
      match l with
      | [] | [_] | [_, _] => rfl
      | b :: i0 :: i1 :: l =>
        obtain ⟨i, hi⟩ := exists_little16 i0 i1
        exact absurd (by rw [NodeId.encode, hi]; rfl) (h (.fourByte b i) l)
    by_cases h2 : encoding = 0x02
    · subst h2
      match l with
      | [] | [_] | [_, _] | [_, _, _] | [_, _, _, _] | [_, _, _, _, _] => rfl
      | n0 :: n1 :: i0 :: i1 :: i2 :: i3 :: l =>
        obtain ⟨n, hn⟩ := exists_little16 n0 n1
        obtain ⟨i, hi⟩ := exists_little32 i0 i1 i2 i3
        exact absurd (by rw [NodeId.encode, hn, hi]; rfl) (h (.numeric n i) l)
    · simp [h0, h1, h2]

/-- A policy URI is read behind any octets. -/
theorem readString_encode {p : Bytes} {n : Nat} (hp : p.length = n) (policy : PolicyUri)
    (rest : Bytes) : (readString (p ++ (policy.encode ++ rest)) n).1 = policy.text? := by
  have hslice : ∀ i j, slice (p ++ (policy.encode ++ rest)) (n + i) (n + j)
      = slice (policy.encode ++ rest) i j := fun _ _ => slice_append_right hp
  unfold readString
  cases policy with
  | null =>
    have hlen : ¬ (p ++ (PolicyUri.null.encode ++ rest)).length < n + 4 := by
      rw [List.length_append, hp, List.length_append]
      exact Nat.not_lt.mpr (Nat.add_le_add_left (Nat.le_add_right 4 _) n)
    have hlength := hslice 0 4
    rw [Nat.add_zero] at hlength
    have hvalue : fromLittle (slice (PolicyUri.null.encode ++ rest) 0 4) = 0xFFFFFFFF :=
      fromLittle_little32 0xFFFFFFFF
    rw [if_neg hlen, hlength, hvalue]
    dsimp only
    rw [if_pos (Or.inl rfl)]
    rfl
  | uri text h =>
    have hlen : (p ++ ((PolicyUri.uri text h).encode ++ rest)).length
        = n + 4 + (encodeUtf8 text).length + rest.length := by
      simp only [PolicyUri.encode, List.length_append, hp, length_little32]
      omega
    have hlength := hslice 0 4
    rw [Nat.add_zero] at hlength
    have hvalue : fromLittle (slice ((PolicyUri.uri text h).encode ++ rest) 0 4)
        = (encodeUtf8 text).length := by
      show fromLittle (little32 (UInt32.ofNat (encodeUtf8 text).length)) = _
      rw [fromLittle_little32, UInt32.toNat_ofNat']
      exact Nat.mod_eq_of_lt (by omega)
    have htext : slice ((PolicyUri.uri text h).encode ++ rest) 4 (4 + (encodeUtf8 text).length)
        = encodeUtf8 text := by
      show ((encodeUtf8 text ++ rest)).take (4 + (encodeUtf8 text).length - 4) = _
      rw [Nat.add_sub_cancel_left, List.take_left]
    rw [if_neg (by omega), hlength, hvalue]
    dsimp only
    rw [if_neg (by omega), Nat.add_assoc, hslice, htext, decodeUtf8_encodeUtf8]
    rfl

/-! ## Services -/

/-- Every name of the tables is found under its identifier. -/
theorem lookup_of_mem :
    (∀ p ∈ requestServices, requestServices.lookup p.1 = some p.2) ∧
    ∀ p ∈ responseServices, requestServices.lookup p.1 = none ∧
      responseServices.lookup p.1 = some p.2 := by decide

theorem serviceOf_eq_some_iff {nspace identifier : Nat} {s : Service} :
    serviceOf nspace identifier = some s ↔ nspace = 0 ∧ identifier = s.id ∧ Listed s := by
  constructor
  · intro h
    have hlisted := serviceOf_eq_some h
    unfold serviceOf at h
    split at h
    · cases h
    next hn =>
    refine ⟨not_not.mp hn, ?_, hlisted⟩
    split at h
    · cases h
      rfl
    split at h
    · cases h
      rfl
    · cases h
  · rintro ⟨rfl, rfl, ⟨hd, hmem⟩ | ⟨hd, hmem⟩⟩
    · have hname := lookup_of_mem.1 _ hmem
      unfold serviceOf
      rw [if_neg (not_not.mpr rfl), hname, ← hd]
    · obtain ⟨hnone, hname⟩ := lookup_of_mem.2 _ hmem
      unfold serviceOf
      rw [if_neg (not_not.mpr rfl), hnone, hname, ← hd]

/-- The service of a body is the listed one its NodeId names. -/
theorem service_encode_iff {body : Body} {s : Service} :
    service body.encode = some s ↔ ∃ n rest, body = .node n rest ∧
      n.nspace = 0 ∧ n.identifier = s.id ∧ Listed s := by
  unfold service
  cases body with
  | node n rest =>
    rw [Body.encode, nodeId_encode, Option.bind_some, serviceOf_eq_some_iff]
    constructor
    · exact fun h => ⟨n, rest, rfl, h⟩
    · rintro ⟨n', rest', heq, h⟩
      cases heq
      exact h
  | other octets h =>
    rw [Body.encode, nodeId_eq_none h, Option.bind_none]
    exact iff_of_false nofun fun ⟨_, _, heq, _⟩ => nomatch heq

/-! ## Decoding -/

theorem length_header (m : AnyMessage) : m.header.length = 8 := by
  unfold AnyMessage.header
  cases m.content.messageType <;> rfl

/-- Only a `MSG` names a service. -/
theorem not_names {m : AnyMessage} (h : m.content.messageType ≠ .msg) (s : Service) :
    ¬ m.Names s := by
  rintro ⟨channel, token, sequence, request, n, rest, hcontent, -⟩
  rw [hcontent] at h
  exact h rfl

theorem recovered_of_no_service {m : AnyMessage} {e : Event}
    (h : m.content.messageType ≠ .msg) (hnone : e.service = none) (hfields : e.fields = m.fields) :
    Recovered m e where
  fields := by rw [hfields, hnone, serviceFields, List.append_nil]
  service := fun s => by
    rw [hnone]
    exact iff_of_false nofun (not_names h s)

/-- What a message without a channel decodes to. -/
theorem decode_plain (chunk : UInt8) (size : UInt32) (type : PlainType) (rest : Bytes) :
    decode (AnyMessage.encode ⟨chunk, size, .plain type rest⟩) = .ok (some
      { messageType := type.messageType, chunkType := Char.ofNat chunk.toNat }) := by
  have hlen : ¬ (AnyMessage.encode ⟨chunk, size, .plain type rest⟩).length < 8 := by
    rw [AnyMessage.encode, List.length_append, length_header]
    omega
  unfold decode
  rw [if_neg hlen]
  cases type <;> rfl

theorem decode_opn (chunk : UInt8) (size channel : UInt32) (policy : PolicyUri) (rest : Bytes) :
    decode (AnyMessage.encode ⟨chunk, size, .opn channel policy rest⟩) = .ok (some
      { messageType := .opn
        chunkType := Char.ofNat chunk.toNat
        secureChannelId := some channel.toNat
        securityPolicyUri := policy.text? }) := by
  have hpayload : AnyMessage.encode ⟨chunk, size, .opn channel policy rest⟩
      = MessageType.opn.octets ++ chunk :: little32 size ++ little32 channel
          ++ (policy.encode ++ rest) := by
    simp [AnyMessage.encode, AnyMessage.header, Content.encode, Content.messageType]
  have hp : (MessageType.opn.octets ++ chunk :: little32 size ++ little32 channel).length = 12 :=
    rfl
  have hlen : ¬ (AnyMessage.encode ⟨chunk, size, .opn channel policy rest⟩).length < 8 := by
    rw [AnyMessage.encode, List.length_append, length_header]
    omega
  have hstring := readString_encode hp policy rest
  unfold decode
  rw [if_neg hlen, hpayload]
  show Except.ok (some { messageType := .opn
                         chunkType := Char.ofNat chunk.toNat
                         secureChannelId := some (fromLittle (little32 channel))
                         securityPolicyUri := _ : Event}) = _
  rw [hstring, fromLittle_little32]

theorem decode_clo (chunk : UInt8) (size channel token : UInt32) (rest : Bytes) :
    decode (AnyMessage.encode ⟨chunk, size, .clo channel token rest⟩) = .ok (some
      { messageType := .clo
        chunkType := Char.ofNat chunk.toNat
        secureChannelId := some channel.toNat
        tokenId := some token.toNat }) := by
  have hlen : ¬ (AnyMessage.encode ⟨chunk, size, .clo channel token rest⟩).length < 8 := by
    rw [AnyMessage.encode, List.length_append, length_header]
    omega
  unfold decode
  rw [if_neg hlen]
  show Except.ok (some { messageType := .clo
                         chunkType := Char.ofNat chunk.toNat
                         secureChannelId := some (fromLittle (little32 channel))
                         tokenId := some (fromLittle (little32 token)) : Event}) = _
  rw [fromLittle_little32, fromLittle_little32]

theorem decode_body (chunk : UInt8) (size channel token sequence request : UInt32) (body : Body) :
    decode (AnyMessage.encode ⟨chunk, size, .msg channel token sequence request body⟩) = .ok (some
      { messageType := .msg
        chunkType := Char.ofNat chunk.toNat
        secureChannelId := some channel.toNat
        tokenId := some token.toNat
        sequenceNumber := some sequence.toNat
        requestId := some request.toNat
        service := service body.encode }) := by
  have hpayload : AnyMessage.encode ⟨chunk, size, .msg channel token sequence request body⟩
      = MessageType.msg.octets ++ chunk :: little32 size ++ (little32 channel ++ little32 token
          ++ little32 sequence ++ little32 request) ++ body.encode := by
    simp [AnyMessage.encode, AnyMessage.header, Content.encode, Content.messageType]
  rw [hpayload, decode_msg_of_headers rfl rfl rfl]
  show Except.ok (some { messageType := .msg
                         chunkType := Char.ofNat chunk.toNat
                         secureChannelId := some (fromLittle (little32 channel))
                         tokenId := some (fromLittle (little32 token))
                         sequenceNumber := some (fromLittle (little32 sequence))
                         requestId := some (fromLittle (little32 request))
                         service := service body.encode : Event}) = _
  simp only [fromLittle_little32]

/--
**Decoding undoes encoding.**

For every message of the seven types, with any chunk octet, size and trailing octets, the event
has exactly the fields of its type with the encoded values, and the service and direction of the
tables exactly when the body begins with a NodeId in namespace 0 with a listed identifier.
-/
theorem message_recovered (m : AnyMessage) :
    ∃ e, decode m.encode = .ok (some e) ∧ Recovered m e := by
  obtain ⟨chunk, size, content⟩ := m
  cases content with
  | plain type rest =>
    refine ⟨_, decode_plain chunk size type rest, recovered_of_no_service ?_ rfl rfl⟩
    cases type <;> exact nofun
  | opn channel policy rest =>
    refine ⟨_, decode_opn chunk size channel policy rest, recovered_of_no_service nofun rfl ?_⟩
    cases policy <;> rfl
  | clo channel token rest =>
    exact ⟨_, decode_clo chunk size channel token rest, recovered_of_no_service nofun rfl rfl⟩
  | msg channel token sequence request body =>
    refine ⟨_, decode_body chunk size channel token sequence request body, ?_, fun s => ?_⟩
    · cases service body.encode <;> rfl
    · refine service_encode_iff.trans ?_
      constructor
      · rintro ⟨n, rest, rfl, h⟩
        exact ⟨channel, token, sequence, request, n, rest, rfl, h⟩
      · rintro ⟨_, _, _, _, n, rest, heq, h⟩
        cases heq
        exact ⟨n, rest, rfl, h⟩

end OtLab.OpcUa
