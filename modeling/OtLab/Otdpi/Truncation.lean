import OtLab.Otdpi.Dnp3
import OtLab.Otdpi.OpcUa
import OtLab.Otdpi.S7comm

/-!
# Truncated payloads

A captured segment can end anywhere. What a decoder reads from the first octets of a payload
should be what it reads from the whole. A slice that is cut off is a shorter integer in Python, so
a field is only safe behind a test of the length.

* `stable_iff` — which truncated payloads are decoded like the whole
-/

namespace OtLab.Truncation

open Bytes

/-- Every field of `d` that is not `None` is a field of `d'`, with the same value. -/
def Kept (d d' : Dict) : Prop :=
  ∀ key v, d.lookup key = some v → v ≠ .none → d'.lookup key = some v

/-- What is decoded from the truncated payload `q` is also decoded from the payload `p`. -/
def Stable {E : Type} (decode : Bytes → Py (Option E)) (fields : E → Dict) (q p : Bytes) : Prop :=
  ∀ e, decode q = .ok (some e) → ∃ e', decode p = .ok (some e') ∧ Kept (fields e) (fields e')

/-! ## Dictionaries -/

/-- An entry of a dictionary without repeated keys is found under its key. -/
theorem lookup_of_mem {d : Dict} (hd : (d.map Prod.fst).Nodup) {key : String} {v : Value}
    (h : (key, v) ∈ d) : d.lookup key = some v := by
  obtain ⟨l₁, l₂, rfl⟩ := List.append_of_mem h
  rw [List.map_append, List.map_cons, List.nodup_append] at hd
  refine List.lookup_eq_some_iff.mpr ⟨l₁, l₂, rfl, fun x hx => ?_⟩
  rw [bne_iff_ne]
  exact (hd.2.2 x.1 (List.mem_map_of_mem hx) key List.mem_cons_self).symm

theorem kept_of_mem {d d' : Dict} (hd : (d'.map Prod.fst).Nodup)
    (h : ∀ x ∈ d, x.2 ≠ .none → x ∈ d') : Kept d d' := by
  intro key v hlookup hv
  obtain ⟨l₁, l₂, rfl, -⟩ := List.lookup_eq_some_iff.mp hlookup
  exact lookup_of_mem hd (h (key, v) (List.mem_append_right _ List.mem_cons_self) hv)

/-! ## Octets of a longer payload -/

theorem getElem?_append_of_some {q : Bytes} {i : Nat} {b : UInt8} (h : q[i]? = some b)
    (r : Bytes) : (q ++ r)[i]? = some b := by
  rw [List.getElem?_append_left (List.getElem?_eq_some_iff.mp h).1, h]

theorem getD_append_of_lt {q : Bytes} {i : Nat} (h : i < q.length) (r : Bytes) :
    (q ++ r).getD i 0 = q.getD i 0 := by
  rw [List.getD_eq_getElem?_getD, List.getD_eq_getElem?_getD, List.getElem?_append_left h]

theorem mem_slice {p : Bytes} {i j : Nat} {b : UInt8} :
    b ∈ slice p i j ↔ ∃ k, i ≤ k ∧ k < j ∧ p[k]? = some b := by
  unfold slice
  rw [List.mem_iff_getElem?]
  constructor
  · rintro ⟨k, hk⟩
    rw [List.getElem?_take, List.getElem?_drop] at hk
    split at hk
    · exact ⟨i + k, by omega, by omega, hk⟩
    · cases hk
  · rintro ⟨k, hi, hj, hk⟩
    refine ⟨k - i, ?_⟩
    rw [List.getElem?_take, if_pos (by omega), List.getElem?_drop, Nat.add_sub_cancel' hi, hk]

/-- An integer that is cut off is the whole one when the octets that are cut off are zeros. -/
theorem fromLittle_slice_append_iff (q r : Bytes) (i j : Nat) :
    fromLittle (slice (q ++ r) i j) = fromLittle (slice q i j) ↔
      ∀ k, q.length ≤ k → i ≤ k → k < j → (q ++ r).getD k 0 = 0 := by
  have hpow : 0 < 256 ^ (slice q i j).length := Nat.pow_pos (by decide)
  rw [slice_append, fromLittle_append, Nat.add_eq_left, Nat.mul_eq_zero,
    or_iff_right (Nat.ne_of_gt hpow), fromLittle_eq_zero_iff]
  constructor
  · intro h k hq hi hj
    rw [List.getD_eq_getElem?_getD, List.getElem?_append_right hq]
    cases hk : r[k - q.length]? with
    | none => rfl
    | some b => exact h b (mem_slice.mpr ⟨k - q.length, by omega, by omega, hk⟩)
  · intro h b hb
    obtain ⟨k, hi, hj, hk⟩ := mem_slice.mp hb
    have hzero := h (q.length + k) (by omega) (by omega) (by omega)
    rw [List.getD_eq_getElem?_getD, List.getElem?_append_right (by omega),
      Nat.add_sub_cancel_left, hk] at hzero
    exact hzero

/-! ## DNP3 -/

theorem ofOctet?_of_kept {o o' : Option UInt8} (h : ∀ b, o = some b → o' = some b)
    (hne : Value.ofOctet? o ≠ .none) : Value.ofOctet? o' = Value.ofOctet? o := by
  cases o with
  | none => exact absurd rfl hne
  | some b => rw [h b rfl]

/-- The function code of a truncated frame is there, and its objects are the first ones. -/
theorem dnp3_kept {q : Bytes} (hq : 13 ≤ q.length) (r : Bytes) :
    Kept (Dnp3.eventOf q).fields (Dnp3.eventOf (q ++ r)).fields := by
  have hget : ∀ i < 13, (q ++ r).getD i 0 = q.getD i 0 :=
    fun i hi => getD_append_of_lt (by omega) r
  have hslice : ∀ i, ∀ j ≤ 13, slice (q ++ r) i j = slice q i j :=
    fun i j hj => slice_append_left (by omega) r
  have hoctet : ∀ i b, q[i]? = some b → (q ++ r)[i]? = some b :=
    fun i b h => getElem?_append_of_some h r
  have hcontrol : ∀ b, (if q[13]? = some 12 then q[17]? else none) = some b →
      (if (q ++ r)[13]? = some 12 then (q ++ r)[17]? else none) = some b := by
    intro b hb
    split at hb
    · next hgroup => rw [if_pos (hoctet 13 12 hgroup), hoctet 17 b hb]
    · cases hb
  -- the first eight fields are never `None`
  have hsplit : ∀ p : Bytes, (Dnp3.eventOf p).fields = (Dnp3.eventOf p).fields.take 8 ++
      [ ("object_group", .ofOctet? p[13]?),
        ("object_variation", .ofOctet? p[14]?),
        ("object_count", .ofOctet? p[16]?),
        ("control_code", .ofOctet? (if p[13]? = some 12 then p[17]? else none)) ] := fun _ => rfl
  have hfixed : (Dnp3.eventOf (q ++ r)).fields.take 8 = (Dnp3.eventOf q).fields.take 8 := by
    simp only [Dnp3.Event.fields, Dnp3.eventOf, hget, hslice, Nat.reduceLT, Nat.reduceLeDiff]
    rfl
  refine kept_of_mem (.sublist (Dnp3.Event.keys_fields _) (by decide)) fun x hx hne => ?_
  rw [hsplit, List.mem_append] at hx
  rw [hsplit, hfixed]
  rcases hx with hx | hx
  · exact List.mem_append_left _ hx
  refine List.mem_append_right _ ?_
  simp only [List.mem_cons, List.not_mem_nil, or_false] at hx ⊢
  rcases hx with rfl | rfl | rfl | rfl
  · rw [ofOctet?_of_kept (hoctet 13) hne]
    exact Or.inl rfl
  · rw [ofOctet?_of_kept (hoctet 14) hne]
    exact Or.inr (Or.inl rfl)
  · rw [ofOctet?_of_kept (hoctet 16) hne]
    exact Or.inr (Or.inr (Or.inl rfl))
  · rw [ofOctet?_of_kept hcontrol hne]
    exact Or.inr (Or.inr (Or.inr rfl))

theorem dnp3_stable (q r : Bytes) : Stable Dnp3.decode Dnp3.Event.fields q (q ++ r) := by
  intro e he
  rw [Dnp3.decode_eq] at he
  by_cases hframe : Dnp3.IsFrame q
  · rw [if_pos hframe] at he
    obtain rfl := Option.some.inj (Except.ok.inj he)
    obtain ⟨hlen, h0, h1⟩ := hframe
    have hframe' : Dnp3.IsFrame (q ++ r) :=
      ⟨by rw [List.length_append]; omega, getElem?_append_of_some h0 r,
        getElem?_append_of_some h1 r⟩
    exact ⟨_, by rw [Dnp3.decode_eq, if_pos hframe'], dnp3_kept hlen r⟩
  · rw [if_neg hframe] at he
    cases he

/-! ## S7comm -/

theorem decodeBody_stable {body : Bytes} {e : S7comm.Event}
    (h : S7comm.decodeBody body = some e) (r : Bytes) :
    ∃ e', S7comm.decodeBody (body ++ r) = some e' ∧ Kept e.fields e'.fields := by
  by_cases hlen : body.length < 10
  · rw [S7comm.decodeBody_of_length_lt hlen] at h
    cases h
  have hslice : ∀ i, ∀ j ≤ 10, slice (body ++ r) i j = slice body i j :=
    fun i j hj => slice_append_left (by omega) r
  match body, hlen, hslice with
  | [], hlen, _ | [_], hlen, _ => simp at hlen
  | protocolId :: rosctr :: rest, hlen, hslice =>
    have hlen' : ¬ (protocolId :: rosctr :: (rest ++ r)).length < 10 := by
      simp only [List.length_cons, List.length_append] at hlen ⊢
      omega
    rw [List.cons_append, List.cons_append] at hslice ⊢
    rw [S7comm.decodeBody_cons hlen] at h
    rw [S7comm.decodeBody_cons hlen']
    split at h
    · cases h
    next hid =>
      obtain rfl := Option.some.inj h
      rw [if_neg hid]
      refine ⟨_, rfl, kept_of_mem (.sublist (S7comm.Event.keys_fields _) (by decide)) ?_⟩
      simp only [hslice, Nat.reduceLeDiff]
      intro x hx _
      unfold S7comm.Event.fields at hx ⊢
      rcases List.mem_append.mp hx with hfixed | hcode
      · exact List.mem_append_left _ hfixed
      · refine List.mem_append_right _ ?_
        cases hten : (protocolId :: rosctr :: rest)[10]? with
        | none =>
          rw [hten] at hcode
          cases hcode
        | some functionCode =>
          have hten' := getElem?_append_of_some hten r
          rw [List.cons_append, List.cons_append] at hten'
          rw [hten] at hcode
          rw [hten']
          exact hcode

theorem s7comm_stable (q r : Bytes) : Stable S7comm.decode S7comm.Event.fields q (q ++ r) := by
  intro e he
  rw [S7comm.decode_eq] at he
  have hdecoded := Except.ok.inj he
  unfold S7comm.decoded at hdecoded
  split at hdecoded
  · next hstart =>
    split at hdecoded
    · next cotpLength cotpType h4 h5 =>
      have hdecoded' : S7comm.decoded (q ++ r) = if cotpType ≠ 0xF0 then
          some (.connection cotpType)
          else S7comm.decodeBody ((q ++ r).drop (5 + cotpLength.toNat)) := by
        unfold S7comm.decoded
        rw [if_pos ⟨getElem?_append_of_some hstart.1 r, getElem?_append_of_some hstart.2 r⟩,
          getElem?_append_of_some h4, getElem?_append_of_some h5]
      split at hdecoded
      · next htype =>
        rw [if_pos htype] at hdecoded'
        obtain rfl := Option.some.inj hdecoded
        exact ⟨_, by rw [S7comm.decode_eq, hdecoded'], fun _ _ hv _ => hv⟩
      · next htype =>
        rw [if_neg htype] at hdecoded'
        have hlen : 5 + cotpLength.toNat ≤ q.length := by
          by_contra hlong
          rw [List.drop_eq_nil_of_le (by omega)] at hdecoded
          cases hdecoded
        rw [List.drop_append_of_le_length hlen] at hdecoded'
        obtain ⟨e', he', hkept⟩ := decodeBody_stable hdecoded r
        exact ⟨e', by rw [S7comm.decode_eq, hdecoded', he'], hkept⟩
    · cases hdecoded
  · cases hdecoded

/-! ## OPC UA -/

/-- The octets the integers without a test of the length are read from end here. -/
def headEnd : OpcUa.MessageType → Nat
  | .opn | .msg => 12
  | .clo => 16
  | .hel | .ack | .err | .rhe => 0

/-- What is cut off behind `q` of the integers in the head of `p` are zeros. -/
def ZerosCut (q p : Bytes) : Prop :=
  ∀ t, 8 ≤ q.length → OpcUa.MessageType.ofOctets (slice q 0 3) = some t →
    ∀ i, q.length ≤ i → i < headEnd t → p.getD i 0 = 0

theorem readString_append {q : Bytes} {n : Nat} {s : String} (h : (OpcUa.readString q n).1 = some s)
    (r : Bytes) : (OpcUa.readString (q ++ r) n).1 = some s := by
  unfold OpcUa.readString at h ⊢
  split at h
  · cases h
  next hlen =>
    have hslice : slice (q ++ r) n (n + 4) = slice q n (n + 4) := slice_append_left (by omega) r
    rw [if_neg (by rw [List.length_append]; omega), hslice]
    dsimp only at h ⊢
    split at h
    · cases h
    next hfits =>
      rw [not_or, Nat.not_lt] at hfits
      rw [if_neg (by rw [List.length_append]; omega), slice_append_left (by omega)]
      exact h

theorem nodeId_append {l : Bytes} {n : Nat × Nat} (h : OpcUa.nodeId l = some n) (r : Bytes) :
    OpcUa.nodeId (l ++ r) = some n := by
  cases l with
  | nil => cases h
  | cons encoding l =>
    by_cases e0 : encoding = 0x00
    · subst e0
      match l, h with
      | [], h => cases h
      | b :: l, h => exact h
    by_cases e1 : encoding = 0x01
    · subst e1
      match l, h with
      | [], h | [_], h | [_, _], h => cases h
      | n :: i0 :: i1 :: l, h => exact h
    by_cases e2 : encoding = 0x02
    · subst e2
      match l, h with
      | [], h | [_], h | [_, _], h | [_, _, _], h | [_, _, _, _], h | [_, _, _, _, _], h => cases h
      | n0 :: n1 :: i0 :: i1 :: i2 :: i3 :: l, h => exact h
    · simp [OpcUa.nodeId, e0, e1, e2] at h

theorem service_append_of_some {l : Bytes} {s : OpcUa.Service} (h : OpcUa.service l = some s)
    (r : Bytes) : OpcUa.service (l ++ r) = some s := by
  obtain ⟨n, hn, hs⟩ := Option.bind_eq_some_iff.mp h
  exact Option.bind_eq_some_iff.mpr ⟨n, nodeId_append hn r, hs⟩

/-- What `e` holds, `e'` holds as well. -/
structure Within (e e' : OpcUa.Event) : Prop where
  messageType : e'.messageType = e.messageType
  chunkType : e'.chunkType = e.chunkType
  secureChannelId : ∀ n, e.secureChannelId = some n → e'.secureChannelId = some n
  securityPolicyUri : ∀ s, e.securityPolicyUri = some s → e'.securityPolicyUri = some s
  tokenId : ∀ n, e.tokenId = some n → e'.tokenId = some n
  sequenceNumber : ∀ n, e.sequenceNumber = some n → e'.sequenceNumber = some n
  requestId : ∀ n, e.requestId = some n → e'.requestId = some n
  service : ∀ s, e.service = some s → e'.service = some s

theorem Within.refl (e : OpcUa.Event) : Within e e :=
  ⟨rfl, rfl, fun _ h => h, fun _ h => h, fun _ h => h, fun _ h => h, fun _ h => h, fun _ h => h⟩

theorem mem_entry_of_within {α : Type} {key : String} {value : α → Value} {o o' : Option α}
    (h : ∀ a, o = some a → o' = some a) {x : String × Value} (hx : x ∈ OpcUa.entry key value o) :
    x ∈ OpcUa.entry key value o' := by
  cases o with
  | none => cases hx
  | some a => rwa [h a rfl]

theorem kept_of_within {e e' : OpcUa.Event} (h : Within e e') : Kept e.fields e'.fields := by
  refine kept_of_mem (.sublist (OpcUa.Event.keys_fields _) (by decide)) fun x hx _ => ?_
  unfold OpcUa.Event.fields at hx ⊢
  rw [h.messageType, h.chunkType]
  simp only [List.mem_append] at hx ⊢
  refine hx.imp (.imp (.imp (.imp (.imp (.imp id (mem_entry_of_within h.secureChannelId))
    (mem_entry_of_within h.securityPolicyUri)) (mem_entry_of_within h.tokenId))
    (mem_entry_of_within h.sequenceNumber)) (mem_entry_of_within h.requestId)) fun hx => ?_
  cases hs : e.service with
  | none =>
    rw [hs] at hx
    cases hx
  | some s =>
    rw [hs] at hx
    rwa [h.service s hs]

theorem secureChannelId_of_kept {e e' : OpcUa.Event} (h : Kept e.fields e'.fields) {n : Nat}
    (hn : e.secureChannelId = some n) : e'.secureChannelId = some n := by
  have hfound : e.fields.lookup "secure_channel_id" = some (.int n) := by
    rw [OpcUa.lookup_secureChannelId, hn]
    rfl
  have hlookup := h _ _ hfound (by simp)
  rw [OpcUa.lookup_secureChannelId] at hlookup
  cases h' : e'.secureChannelId <;> simp_all

theorem tokenId_of_kept {e e' : OpcUa.Event} (h : Kept e.fields e'.fields) {n : Nat}
    (hn : e.tokenId = some n) : e'.tokenId = some n := by
  have hfound : e.fields.lookup "token_id" = some (.int n) := by
    rw [OpcUa.lookup_tokenId, hn]
    rfl
  have hlookup := h _ _ hfound (by simp)
  rw [OpcUa.lookup_tokenId] at hlookup
  cases h' : e'.tokenId <;> simp_all

theorem secureChannelId_eventOf {t : OpcUa.MessageType} (h : 0 < headEnd t) (p : Bytes) :
    (OpcUa.eventOf t p).secureChannelId = some (fromLittle (slice p 8 12)) := by
  cases t with
  | hel | ack | err | rhe => exact absurd h (by decide)
  | opn | clo => rfl
  | msg =>
    unfold OpcUa.eventOf
    dsimp only
    split <;> rfl

/-- The octets decide whether the events agree. -/
theorem kept_eventOf_iff {q : Bytes} (hq : 8 ≤ q.length) (t : OpcUa.MessageType) (r : Bytes) :
    Kept (OpcUa.eventOf t q).fields (OpcUa.eventOf t (q ++ r)).fields ↔
      ∀ i, q.length ≤ i → i < headEnd t → (q ++ r).getD i 0 = 0 := by
  have hchunk : (q ++ r).getD 3 0 = q.getD 3 0 := getD_append_of_lt (by omega) r
  constructor
  · intro h i hi hend
    have hchannel := secureChannelId_of_kept h (secureChannelId_eventOf (by omega) q)
    rw [secureChannelId_eventOf (by omega), Option.some.injEq,
      fromLittle_slice_append_iff] at hchannel
    by_cases h12 : i < 12
    · exact hchannel i hi (by omega) h12
    -- only the token of a `CLO` lies behind the channel
    cases t with
    | clo =>
      have htoken := Option.some.inj (tokenId_of_kept h rfl)
      exact (fromLittle_slice_append_iff q r 12 16).mp htoken i hi (by omega) hend
    | hel | ack | err | rhe | opn | msg => simp only [headEnd] at hend; omega
  · intro h
    have hslice : ∀ i j, j ≤ headEnd t →
        fromLittle (slice (q ++ r) i j) = fromLittle (slice q i j) := by
      intro i j hj
      exact (fromLittle_slice_append_iff q r i j).mpr fun k hk _ hkj => h k hk (by omega)
    apply kept_of_within
    cases t with
    | hel | ack | err | rhe =>
      unfold OpcUa.eventOf
      rw [hchunk]
      exact .refl _
    | opn =>
      unfold OpcUa.eventOf
      dsimp only
      rw [hchunk, hslice 8 12 (Nat.le_refl 12)]
      exact { Within.refl _ with securityPolicyUri := fun _ h => readString_append h r }
    | clo =>
      unfold OpcUa.eventOf
      dsimp only
      rw [hchunk, hslice 8 12 (by decide), hslice 12 16 (Nat.le_refl 16)]
      exact .refl _
    | msg =>
      unfold OpcUa.eventOf
      dsimp only
      by_cases hlen : q.length < 24
      · rw [if_pos hlen, hchunk, hslice 8 12 (Nat.le_refl 12)]
        split
        · exact .refl _
        · exact ⟨rfl, rfl, fun _ h => (congrArg some (hslice 8 12 (Nat.le_refl 12))).trans h,
            nofun, nofun, nofun, nofun, nofun⟩
      · have hwhole : ∀ i, ∀ j ≤ 24, slice (q ++ r) i j = slice q i j :=
          fun i j hj => slice_append_left (by omega) r
        rw [if_neg hlen, if_neg (by rw [List.length_append]; omega), hchunk,
          List.drop_append_of_le_length (by omega)]
        simp only [OpcUa.msgEvent, hwhole, Nat.reduceLeDiff]
        exact { Within.refl _ with service := fun _ h => service_append_of_some h r }

theorem opcua_stable_iff (q r : Bytes) :
    Stable OpcUa.decode OpcUa.Event.fields q (q ++ r) ↔ ZerosCut q (q ++ r) := by
  have hdecode := OpcUa.decode_eq q
  have hdecode' := OpcUa.decode_eq (q ++ r)
  by_cases hq : q.length < 8
  · rw [if_pos hq] at hdecode
    refine iff_of_true (fun e he => ?_) fun t hlen => absurd hlen (Nat.not_le.mpr hq)
    rw [hdecode] at he
    cases he
  have hq' : 8 ≤ q.length := Nat.not_lt.mp hq
  have hshort : ¬ (q ++ r).length < 8 := by
    rw [List.length_append]
    omega
  rw [if_neg hq] at hdecode
  rw [if_neg hshort, slice_append_left (by omega)] at hdecode'
  cases htype : OpcUa.MessageType.ofOctets (slice q 0 3) with
  | none =>
    rw [htype] at hdecode
    refine iff_of_true (fun e he => ?_) fun t _ ht => ?_
    · rw [hdecode] at he
      cases he
    · rw [htype] at ht
      cases ht
  | some t =>
    rw [htype] at hdecode hdecode'
    constructor
    · intro h t' _ ht'
      obtain rfl := Option.some.inj (htype.symm.trans ht')
      obtain ⟨e', he', hkept⟩ := h _ hdecode
      obtain rfl := Option.some.inj (Except.ok.inj (hdecode'.symm.trans he'))
      exact (kept_eventOf_iff hq' t r).mp hkept
    · intro h e he
      obtain rfl := Option.some.inj (Except.ok.inj (hdecode.symm.trans he))
      exact ⟨_, hdecode', (kept_eventOf_iff hq' t r).mpr (h t hq' htype)⟩

/-! ## Truncation of every decoder -/

/--
**What is decoded from a truncated payload is decoded from the whole exactly when no integer in
the head of an OPC UA message loses octets other than zeros.**

DNP3 and S7comm test the length before they read an integer, as `decode` does for a `MSG`. The
channel, and the token of a `CLO`, are read without a test.
-/
theorem stable_iff (q r : Bytes) :
    (Stable Dnp3.decode Dnp3.Event.fields q (q ++ r) ∧
      Stable S7comm.decode S7comm.Event.fields q (q ++ r) ∧
      Stable OpcUa.decode OpcUa.Event.fields q (q ++ r)) ↔ ZerosCut q (q ++ r) := by
  rw [opcua_stable_iff]
  exact ⟨fun h => h.2.2, fun h => ⟨dnp3_stable q r, s7comm_stable q r, h⟩⟩

/-- The first nine octets of a `MSG` on channel 256, which are decoded with channel 0. -/
theorem channel_cut :
    ¬ ∀ q r : Bytes, Stable Dnp3.decode Dnp3.Event.fields q (q ++ r) ∧
      Stable S7comm.decode S7comm.Event.fields q (q ++ r) ∧
      Stable OpcUa.decode OpcUa.Event.fields q (q ++ r) := by
  intro hall
  have hstable := (hall [0x4D, 0x53, 0x47, 0x46, 0x20, 0, 0, 0, 0]
    [1, 0, 0, 1, 0, 0, 0, 2, 0, 0, 0, 3, 0, 0, 0, 1, 0, 0x77, 2, 0, 0, 0, 0]).2.2
  have hzeros := (opcua_stable_iff _ _).mp hstable
  exact absurd (hzeros .msg (by simp) (by decide) 9 (by simp) (by decide)) (by decide)

end OtLab.Truncation
