import OtLab.Detection.OpcUaDpi

/-!
# What an encrypted body shows

On a channel negotiated `SignAndEncrypt` everything behind octet 16 of a `MSG` is ciphertext. The
decoder does not know the mode of the channel: it reads sequence number and request id behind the
token, and a service when the octets behind them happen to be its NodeId.

* `service_eq_iff` — which octets decide on the service
* `sameEvents_iff` — exactly when two bodies behind one clear header show the same
-/

namespace OtLab.OpcUaDpi

open Bytes Common OpcUa

/-! ## The octets that name a service -/

/-- The identifiers of the known services. -/
def knownServices : List Nat := (requestServices ++ responseServices).map Prod.fst

/-- The text begins with the NodeId of a service, in the four-byte or in the numeric encoding. -/
def NamesService (l : Bytes) (identifier : Nat) : Prop :=
  [0x01, 0x00] ++ little16 (UInt16.ofNat identifier) <+: l ∨
    [0x02, 0x00, 0x00] ++ little32 (UInt32.ofNat identifier) <+: l

instance (l : Bytes) (identifier : Nat) : Decidable (NamesService l identifier) := by
  unfold NamesService
  infer_instance

theorem mem_knownServices {identifier : Nat} (h : identifier ∈ knownServices) :
    256 ≤ identifier ∧ identifier ≤ 715 := by
  obtain ⟨p, hp, rfl⟩ := List.mem_map.mp h
  exact identifier_bounds p hp

/-- The NodeId of a known service is read from these octets and no others. -/
theorem nodeId_eq_iff {identifier : Nat} (h : identifier ∈ knownServices) (l : Bytes) :
    nodeId l = some (0, identifier) ↔ NamesService l identifier := by
  obtain ⟨hlow, hhigh⟩ := mem_knownServices h
  have h16 : fromLittle (little16 (UInt16.ofNat identifier)) = identifier := by
    rw [fromLittle_little16, UInt16.toNat_ofNat', Nat.mod_eq_of_lt (by omega)]
  have h32 : fromLittle (little32 (UInt32.ofNat identifier)) = identifier := by
    rw [fromLittle_little32, UInt32.toNat_ofNat', Nat.mod_eq_of_lt (by omega)]
  constructor
  · intro hnode
    unfold nodeId at hnode
    split at hnode
    · cases hnode
    next encoding l =>
    split at hnode
    · -- one octet is too small for a known service
      obtain ⟨b, -, hb⟩ := Option.map_eq_some_iff.mp hnode
      have hid := congrArg Prod.snd hb
      have := b.toNat_lt
      dsimp only at hid
      omega
    split at hnode
    · next h1 =>
      split at hnode
      · next n i0 i1 rest =>
        obtain ⟨hn, hid⟩ := Prod.mk.inj (Option.some.inj hnode)
        obtain rfl : n = 0 := UInt8.toNat_inj.mp hn
        have hoctets : [i0, i1] = little16 (UInt16.ofNat identifier) :=
          fromLittle_inj rfl (hid.trans h16.symm)
        left
        rw [h1, ← hoctets]
        exact ⟨rest, rfl⟩
      · cases hnode
    split at hnode
    · next h2 =>
      split at hnode
      · next n0 n1 i0 i1 i2 i3 rest =>
        obtain ⟨hn, hid⟩ := Prod.mk.inj (Option.some.inj hnode)
        have hzero := fromLittle_eq_zero_iff.mp hn
        obtain rfl : n0 = 0 := hzero n0 (by simp)
        obtain rfl : n1 = 0 := hzero n1 (by simp)
        have hoctets : [i0, i1, i2, i3] = little32 (UInt32.ofNat identifier) :=
          fromLittle_inj rfl (hid.trans h32.symm)
        right
        rw [h2, ← hoctets]
        exact ⟨rest, rfl⟩
      · cases hnode
    · cases hnode
  · rintro (⟨rest, rfl⟩ | ⟨rest, rfl⟩)
    · exact congrArg (fun n => some (0, n)) h16
    · exact congrArg (fun n => some (0, n)) h32

theorem serviceOf_id {nspace identifier : Nat} {s : Service}
    (h : serviceOf nspace identifier = some s) : s.id = identifier ∧ nspace = 0 := by
  unfold serviceOf at h
  split at h
  · cases h
  next hn =>
  rw [not_not] at hn
  split at h
  · obtain rfl := Option.some.inj h
    exact ⟨rfl, hn⟩
  split at h
  · obtain rfl := Option.some.inj h
    exact ⟨rfl, hn⟩
  · cases h

theorem serviceOf_of_mem {identifier : Nat} (h : identifier ∈ knownServices) :
    ∃ s, serviceOf 0 identifier = some s := by
  unfold serviceOf
  rw [if_neg (by simp)]
  cases hreq : requestServices.lookup identifier with
  | some name => exact ⟨_, rfl⟩
  | none =>
    cases hresp : responseServices.lookup identifier with
    | some name => exact ⟨_, rfl⟩
    | none =>
      obtain ⟨p, hp, rfl⟩ := List.mem_map.mp h
      rcases List.mem_append.mp hp with hp | hp
      · exact absurd (List.lookup_eq_none_iff.mp hreq p hp) (by simp)
      · exact absurd (List.lookup_eq_none_iff.mp hresp p hp) (by simp)

/-- A service is found exactly when its octets stand there. -/
theorem map_id_service_iff {identifier : Nat} (h : identifier ∈ knownServices) (l : Bytes) :
    (service l).map Service.id = some identifier ↔ NamesService l identifier := by
  rw [← nodeId_eq_iff h, service]
  constructor
  · intro hs
    obtain ⟨s, hservice, hid⟩ := Option.map_eq_some_iff.mp hs
    obtain ⟨⟨nspace, identifier'⟩, hnode, hof⟩ := Option.bind_eq_some_iff.mp hservice
    obtain ⟨hsid, hn⟩ := serviceOf_id hof
    dsimp only at hsid hn
    rw [hnode, hn, ← hsid, hid]
  · intro hnode
    obtain ⟨s, hs⟩ := serviceOf_of_mem h
    rw [hnode, Option.bind_some, hs, Option.map_some, (serviceOf_id hs).1]

/-- **The octets that name a known service decide on the service.** -/
theorem service_eq_iff (l l' : Bytes) :
    service l = service l' ↔
      ∀ identifier ∈ knownServices, NamesService l identifier ↔ NamesService l' identifier := by
  have hknown : ∀ {l : Bytes} {s : Service}, service l = some s →
      s.id ∈ knownServices ∧ serviceOf 0 s.id = some s := by
    intro l s hs
    obtain ⟨⟨nspace, identifier⟩, -, hof⟩ := Option.bind_eq_some_iff.mp hs
    obtain ⟨rfl, rfl⟩ := serviceOf_id hof
    refine ⟨?_, hof⟩
    rcases serviceOf_eq_some hof with ⟨-, hmem⟩ | ⟨-, hmem⟩
    · exact List.mem_map.mpr ⟨_, List.mem_append_left _ hmem, rfl⟩
    · exact List.mem_map.mpr ⟨_, List.mem_append_right _ hmem, rfl⟩
  have hsub : ∀ {l l' : Bytes} {s : Service},
      (∀ identifier ∈ knownServices, NamesService l identifier → NamesService l' identifier) →
      service l = some s → service l' = some s := by
    intro l l' s h hs
    obtain ⟨hmem, hof⟩ := hknown hs
    have hnames := h _ hmem ((map_id_service_iff hmem l).mp (by rw [hs, Option.map_some]))
    obtain ⟨s', hs', hid⟩ := Option.map_eq_some_iff.mp ((map_id_service_iff hmem l').mpr hnames)
    have hof' := (hknown hs').2
    rw [hid, hof] at hof'
    rw [hs', Option.some.inj hof']
  constructor
  · intro h identifier hmem
    rw [← map_id_service_iff hmem, ← map_id_service_iff hmem, h]
  · intro h
    exact Option.ext fun s => ⟨hsub fun i hi => (h i hi).mp, hsub fun i hi => (h i hi).mpr⟩

/-! ## Two bodies behind one header -/

/-- What the clear header leaves open: the octets the decoder reads behind the token. -/
def SameHidden (p p' : Bytes) : Prop :=
  p.length < 24 ∧ p'.length < 24 ∨
    24 ≤ p.length ∧ 24 ≤ p'.length ∧ slice p 16 24 = slice p' 16 24 ∧
      ∀ identifier ∈ knownServices,
        NamesService (p.drop 24) identifier ↔ NamesService (p'.drop 24) identifier

instance (p p' : Bytes) : Decidable (SameHidden p p') := by
  unfold SameHidden
  infer_instance

/-- Both payloads are reported with the same fields and raise the same alerts. -/
def SameEvents (p p' : Bytes) : Prop :=
  (decode p).map (Option.map Event.fields) = (decode p').map (Option.map Event.fields) ∧
    ∀ (src dst : IPv4) (h : TcpHeader),
      alertsOn processPacket src dst h p = alertsOn processPacket src dst h p'

/-- The four octets of the sequence number and the four of the request id. -/
theorem slice_sequence_request (p : Bytes) :
    slice p 16 20 = (slice p 16 24).take 4 ∧ slice p 20 24 = (slice p 16 24).drop 4 := by
  unfold slice
  constructor
  · rw [List.take_take]
    rfl
  · rw [List.drop_take, List.drop_drop]

section Same

variable {p p' : Bytes}

/-- The clear octets of two payloads. -/
theorem slice_eq_of_clear (hclear : p.take 16 = p'.take 16) {i j : Nat} (hj : j ≤ 16) :
    slice p i j = slice p' i j := by
  rw [← slice_take hj, hclear, slice_take hj]

/-- A whole clear header of a `MSG` is decoded. -/
theorem decode_of_clear (hmsg : slice p 0 3 = MessageType.msg.octets) (hlen : 16 ≤ p.length) :
    decode p = .ok (some (eventOf .msg p)) := by
  rw [decode_eq, if_neg (by omega), hmsg, MessageType.ofOctets_octets, Option.map_some]

theorem eventOf_of_lt (h : p.length < 24) :
    eventOf .msg p =
      { messageType := .msg, chunkType := Char.ofNat (p.getD 3 0).toNat,
        secureChannelId := some (fromLittle (slice p 8 12)) } := if_pos h

theorem eventOf_of_le (h : 24 ≤ p.length) :
    eventOf .msg p = { msgEvent (p.getD 3 0) p with service := service (p.drop 24) } :=
  if_neg (Nat.not_lt.mpr h)

/-- The events are equal when the octets behind the token are read alike. -/
theorem eventOf_eq (hclear : p.take 16 = p'.take 16) (h : SameHidden p p') :
    eventOf .msg p = eventOf .msg p' := by
  have hchunk : p.getD 3 0 = p'.getD 3 0 := by
    have hget : ∀ q : Bytes, q.getD 3 0 = (q.take 16).getD 3 0 := fun q => by
      rw [List.getD_eq_getElem?_getD, List.getD_eq_getElem?_getD,
        List.getElem?_take_of_lt (by decide)]
    rw [hget, hclear, ← hget]
  have hchannel : slice p 8 12 = slice p' 8 12 := slice_eq_of_clear hclear (by decide)
  have htoken : slice p 12 16 = slice p' 12 16 := slice_eq_of_clear hclear (by decide)
  rcases h with ⟨hlt, hlt'⟩ | ⟨hle, hle', hhidden, hservice⟩
  · rw [eventOf_of_lt hlt, eventOf_of_lt hlt', hchunk, hchannel]
  · rw [eventOf_of_le hle, eventOf_of_le hle', (service_eq_iff _ _).mpr hservice]
    unfold msgEvent
    rw [(slice_sequence_request p).1, (slice_sequence_request p).2, (slice_sequence_request p').1,
      (slice_sequence_request p').2, hhidden, hchunk, hchannel, htoken]

theorem map_int_inj {o o' : Option Nat}
    (h : (o.map fun n => Value.int (n : Nat)) = o'.map fun n => Value.int (n : Nat)) : o = o' := by
  refine Option.map_injective (fun m n hmn => ?_) h
  exact Int.ofNat_inj.mp (Value.int.inj hmn)

/-- The fields of the events tell what was read behind the token. -/
theorem sameHidden_of_fields (hfields : (eventOf .msg p).fields = (eventOf .msg p').fields) :
    SameHidden p p' := by
  have hlookup : ∀ key, (eventOf .msg p).fields.lookup key = (eventOf .msg p').fields.lookup key :=
    fun key => by rw [hfields]
  have htoken := hlookup "token_id"
  have hsequence := hlookup "sequence_number"
  have hrequest := hlookup "request_id"
  have hservice := hlookup "service_id"
  rw [lookup_tokenId, lookup_tokenId] at htoken
  rw [lookup_sequenceNumber, lookup_sequenceNumber] at hsequence
  rw [lookup_requestId, lookup_requestId] at hrequest
  rw [lookup_serviceId, lookup_serviceId] at hservice
  by_cases hlt : p.length < 24
  · by_cases hlt' : p'.length < 24
    · exact Or.inl ⟨hlt, hlt'⟩
    · -- only the longer payload is reported with its token
      rw [eventOf_of_lt hlt, eventOf_of_le (Nat.not_lt.mp hlt')] at htoken
      exact absurd (map_int_inj htoken) (by simp [msgEvent])
  · have hle := Nat.not_lt.mp hlt
    by_cases hlt' : p'.length < 24
    · rw [eventOf_of_lt hlt', eventOf_of_le hle] at htoken
      exact absurd (map_int_inj htoken) (by simp [msgEvent])
    · have hle' := Nat.not_lt.mp hlt'
      rw [eventOf_of_le hle, eventOf_of_le hle'] at hsequence hrequest hservice
      have hlength : ∀ {q : Bytes} {i : Nat}, 24 ≤ q.length → i ≤ 20 →
          (slice q i (i + 4)).length = 4 := by
        intro q i hq hi
        rw [slice, List.length_take, List.length_drop]
        omega
      have hsequence' : slice p 16 20 = slice p' 16 20 :=
        fromLittle_inj ((hlength hle (by decide)).trans (hlength hle' (by decide)).symm)
          (Option.some.inj (map_int_inj hsequence))
      have hrequest' : slice p 20 24 = slice p' 20 24 :=
        fromLittle_inj ((hlength hle (by decide)).trans (hlength hle' (by decide)).symm)
          (Option.some.inj (map_int_inj hrequest))
      refine Or.inr ⟨hle, hle', ?_, ?_⟩
      · rw [← List.take_append_drop 4 (slice p 16 24), ← List.take_append_drop 4 (slice p' 16 24),
          ← (slice_sequence_request p).1, ← (slice_sequence_request p).2,
          ← (slice_sequence_request p').1, ← (slice_sequence_request p').2, hsequence', hrequest']
      · have hids : (service (p.drop 24)).map Service.id
            = (service (p'.drop 24)).map Service.id := by
          refine map_int_inj ?_
          rw [Option.map_map, Option.map_map]
          exact hservice
        intro identifier hmem
        rw [← map_id_service_iff hmem, ← map_id_service_iff hmem, hids]

/-- The alerts of a payload that is decoded alike. -/
theorem alertsOn_congr (hdecode : decode p = decode p') (src dst : IPv4) (h : TcpHeader) :
    alertsOn processPacket src dst h p = alertsOn processPacket src dst h p' := by
  by_cases hp : h.dport = port
  · obtain ⟨event, hevent⟩ : ∃ event, decode p = .ok event := ⟨_, decode_eq p⟩
    unfold processPacket
    rw [alertsOn_produce hp hevent, alertsOn_produce hp (hdecode ▸ hevent)]
    rfl
  · unfold processPacket
    rw [alertsOn_produce_of_port_ne hp, alertsOn_produce_of_port_ne hp]

/--
**Ciphertext influences the events, except where two bodies happen to agree.**

Two payloads of a `MSG` with one clear header show the same fields and raise the same alerts
exactly if both end before octet 24, or if they agree on the octets 16 to 23 and the octets behind
them are the NodeId of the same known service, or of none.
-/
theorem sameEvents_iff (p p' : Bytes) (hmsg : slice p 0 3 = MessageType.msg.octets)
    (hclear : p.take 16 = p'.take 16) : SameEvents p p' ↔ SameHidden p p' := by
  have hlen := congrArg List.length hclear
  rw [List.length_take, List.length_take] at hlen
  by_cases hshort : p.length < 16
  · -- nothing is left open behind a header that is cut off
    obtain rfl : p = p' := by
      rwa [List.take_of_length_le (by omega), List.take_of_length_le (by omega)] at hclear
    exact iff_of_true ⟨rfl, fun _ _ _ => rfl⟩ (Or.inl ⟨by omega, by omega⟩)
  have hmsg' : slice p' 0 3 = MessageType.msg.octets := by
    rw [← slice_eq_of_clear hclear (by decide), hmsg]
  have hdecode := decode_of_clear hmsg (by omega)
  have hdecode' := decode_of_clear hmsg' (by omega)
  constructor
  · rintro ⟨hfields, -⟩
    rw [hdecode, hdecode'] at hfields
    exact sameHidden_of_fields (Option.some.inj (Except.ok.inj hfields))
  · intro h
    have hsame : decode p = decode p' := by
      rw [hdecode, hdecode', eventOf_eq hclear h]
    exact ⟨by rw [hsame], alertsOn_congr hsame⟩

end Same

/-- The clear octets of a `MSG` on channel 7 with token 1. -/
def clearHeader : Bytes :=
  [0x4D, 0x53, 0x47, 0x46, 0x40, 0, 0, 0, 7, 0, 0, 0, 1, 0, 0, 0]

/-- Bodies that agree on the octets 16 to 23 and name no service show the same. -/
theorem sameEvents_iff_noService :
    SameEvents (clearHeader ++ [1, 0, 0, 0, 2, 0, 0, 0, 0xA7, 0x31])
      (clearHeader ++ [1, 0, 0, 0, 2, 0, 0, 0, 0x5C, 0xE0, 0x44]) :=
  (sameEvents_iff _ _ (by decide) (by decide)).mpr (by decide)

/-- Ciphertext that reads like the NodeId of a WriteRequest raises an alert. -/
theorem ciphertext_raises_alert :
    ¬ ∀ p p' : Bytes, slice p 0 3 = MessageType.msg.octets → p.take 16 = p'.take 16 →
      SameEvents p p' := by
  intro h
  have halerts := (h (clearHeader ++ [9, 8, 7, 6, 5, 4, 3, 2, 0x01, 0x00, 0xA1, 0x02])
    (clearHeader ++ [9, 8, 7, 6, 5, 4, 3, 2, 0x5C, 0xE0, 0x44, 0x10]) (by decide) (by decide)).2
    ⟨10, 0, 0, 1⟩ ⟨10, 0, 0, 2⟩ ⟨50000, port, 0⟩
  revert halerts
  decide

end OtLab.OpcUaDpi
