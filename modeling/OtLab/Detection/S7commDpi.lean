import OtLab.Detection.Separation
import OtLab.Otdpi.S7comm

/-!
# The S7comm telemetry producer

`s7comm_dpi.py` decodes the first TPKT packet of a payload and never looks at its length, so the
packets behind it are not seen.

* `separates_iff` — exactly when it alerts on a series of packets as if they came one by one
-/

namespace OtLab.S7commDpi

open Bytes Common S7comm

/-! ## The producer -/

/-- The default of `PORT`. -/
def port : UInt16 := 102

def programDownload : List UInt8 := [0x1A, 0x1B, 0x1C]

def programUpload : List UInt8 := [0x1D, 0x1E, 0x1F]

def controlOrStop : List UInt8 := [0x28, 0x29]

/-- The alert type, technique and description for a function code that has one. -/
def detection (functionCode : UInt8) : Option Dict :=
  if functionCode ∈ programDownload then some
    [ ("alert_type", .str "S7COMM_PROGRAM_DOWNLOAD"),
      ("mitre_id", .str "T0843"),
      ("description", .str "S7comm program block download to a controller.") ]
  else if functionCode ∈ programUpload then some
    [ ("alert_type", .str "S7COMM_PROGRAM_UPLOAD"),
      ("mitre_id", .str "T0845"),
      ("description", .str "S7comm program block upload from a controller.") ]
  else if functionCode ∈ controlOrStop then some
    [ ("alert_type", .str "S7COMM_CHANGE_OPERATING_MODE"),
      ("mitre_id", .str "T0858"),
      ("description", .str "S7comm PLC Control or PLC Stop requested.") ]
  else none

/-- The alerts of `process_packet` for an event. -/
def alerts (event : Event) (packet : Packet) : List Dict :=
  match event with
  | .connection _ => []
  | .pdu p =>
    if p.direction ≠ .request then []
    else
      match p.functionCode with
      | none => []
      | some functionCode =>
        match detection functionCode with
        | none => []
        | some head =>
          [ head ++
            [ ("protocol", .str "s7comm"),
              ("function_code", .int functionCode.toNat),
              ("function_name", .str (functionName functionCode)),
              ("pdu_reference", .int p.pduReference),
              ("rosctr", .int p.rosctr.toNat),
              ("source_ip", .str packet.src.str),
              ("dest_ip", .str packet.dst.str) ] ]

/-- `process_packet`. -/
def processPacket : Packet → Py (List SinkCall) :=
  produce "s7comm" port decode Event.fields alerts

/-! ## Several packets in one payload -/

variable {src dst : IPv4} {h : TcpHeader}

/-- The alerts for what a payload decodes to. -/
theorem alertsOn_of_decode (hp : h.dport = port) {payload : Bytes} {event : Option Event}
    (hdecode : decode payload = .ok event) :
    alertsOn processPacket src dst h payload
      = event.toList.flatMap fun e => alerts e (.segment src dst h []) :=
  alertsOn_produce hp hdecode

/-- A packet is reported: a Job with a function code of one of the three groups. -/
def reported (m : Tpkt) : Bool :=
  m.cotpType == 0xF0 && m.data[0]? == some 0x32 && m.data[1]? == some 1
    && m.data[10]?.any fun functionCode => (detection functionCode).isSome

theorem alerts_pdu_eq_nil_iff (p : Pdu) (packet : Packet) :
    alerts (.pdu p) packet = [] ↔
      ¬ (p.rosctr = 1 ∧ p.functionCode.any (fun fc => (detection fc).isSome) = true) := by
  unfold alerts Pdu.direction
  by_cases hr : p.rosctr = 1
  · cases hfc : p.functionCode with
    | none => simp [hr, hfc]
    | some fc => cases hd : detection fc <;> simp [hr, hfc, hd]
  · simp [hr]

/--
What follows the data stands where the function code is expected only if the data is no more than
the header, and then it is the first octet of the next packet.
-/
theorem functionCode_append {data rest : Bytes} (hten : 10 ≤ data.length)
    (hrest : ∀ b, rest[0]? = some b → b = 0x03) :
    (data ++ rest)[10]? = data[10]? ∨
      data[10]? = none ∧ ((data ++ rest)[10]?.any fun fc => (detection fc).isSome) = false := by
  rcases Nat.lt_or_eq_of_le hten with hlt | heq
  · exact Or.inl (List.getElem?_append_left hlt)
  · have hnext : (data ++ rest)[10]? = rest[0]? := by
      rw [List.getElem?_append_right (Nat.le_of_eq heq.symm), ← heq]
    refine Or.inr ⟨List.getElem?_eq_none_iff.mpr (Nat.le_of_eq heq.symm), ?_⟩
    rw [hnext]
    cases hr : rest[0]? with
    | none => rfl
    | some b =>
      rw [hrest b hr]
      decide

/-- What follows a whole header does not change what is reported of the data. -/
theorem alerts_decodeBody_append {data rest : Bytes} (hten : 10 ≤ data.length)
    (hrest : ∀ b, rest[0]? = some b → b = 0x03) (packet : Packet) :
    (decodeBody (data ++ rest)).toList.flatMap (alerts · packet)
      = (decodeBody data).toList.flatMap (alerts · packet) := by
  have hcode := functionCode_append hten hrest
  match data, hten with
  | [], hten | [_], hten => simp at hten
  | protocolId :: rosctr :: tail, hten =>
    have hlen : ¬ (protocolId :: rosctr :: tail).length < 10 := Nat.not_lt.mpr hten
    have hlen' : ¬ (protocolId :: rosctr :: (tail ++ rest)).length < 10 := by
      rw [← List.cons_append, ← List.cons_append, List.length_append]
      omega
    have hslice : ∀ i j, j ≤ 10 → slice (protocolId :: rosctr :: (tail ++ rest)) i j
        = slice (protocolId :: rosctr :: tail) i j :=
      fun i j hj => slice_append_left (Nat.le_trans hj hten) rest
    rw [List.cons_append, List.cons_append] at hcode ⊢
    rw [decodeBody_cons hlen, decodeBody_cons hlen', hslice 4 6 (by decide),
      hslice 6 8 (by decide), hslice 8 10 (by decide)]
    by_cases hid : protocolId = 0x32
    · rw [if_neg (not_not.mpr hid), if_neg (not_not.mpr hid), Option.toList_some,
        Option.toList_some, List.flatMap_singleton, List.flatMap_singleton]
      rcases hcode with hsame | ⟨hnone, hsilent⟩
      · rw [hsame]
      · -- neither the missing function code nor the one of the next packet is reported
        rw [hnone, (alerts_pdu_eq_nil_iff _ packet).mpr fun h => Bool.eq_false_iff.mp hsilent h.2,
          (alerts_pdu_eq_nil_iff _ packet).mpr (by simp)]
    · rw [if_pos hid, if_pos hid]

/-- What follows a packet does not change what is reported of it. -/
theorem alertsOn_append (hp : h.dport = port) (m : Tpkt) {rest : Bytes}
    (hrest : ∀ b, rest[0]? = some b → b = 0x03) :
    alertsOn processPacket src dst h (m.bytes ++ rest)
      = alertsOn processPacket src dst h m.bytes := by
  unfold Tpkt.bytes
  rw [List.append_assoc]
  by_cases hdt : m.cotpType = 0xF0
  · rw [alertsOn_of_decode hp (decode_data hdt _), alertsOn_of_decode hp (decode_data hdt _)]
    by_cases hid : m.data[0]? = some 0x32
    · exact alerts_decodeBody_append (m.complete hdt hid) hrest _
    · have hid' : (m.data ++ rest)[0]? ≠ some 0x32 := by
        cases hdata : m.data with
        | nil =>
          rw [List.nil_append]
          intro h0
          exact absurd (hrest _ h0) (by decide)
        | cons b data =>
          rw [hdata] at hid
          exact hid
      rw [decodeBody_of_ne hid, decodeBody_of_ne hid']
  · rw [alertsOn_of_decode hp (decode_connection hdt _),
      alertsOn_of_decode hp (decode_connection hdt _)]

theorem alertsOn_eq_nil_iff (hp : h.dport = port) (m : Tpkt) :
    alertsOn processPacket src dst h m.bytes = [] ↔ reported m = false := by
  unfold Tpkt.bytes reported
  by_cases hdt : m.cotpType = 0xF0
  · rw [alertsOn_of_decode hp (decode_data hdt _)]
    by_cases hid : m.data[0]? = some 0x32
    · obtain ⟨r, tail, hdata⟩ : ∃ r tail, m.data = 0x32 :: r :: tail := by
        have hten := m.complete hdt hid
        match hm : m.data, hten, hid with
        | b :: r :: tail, _, hid => exact ⟨r, tail, by rw [Option.some.inj hid]⟩
        | [_], hten, _ => simp at hten
      have hlen := m.complete hdt hid
      rw [hdata] at hlen ⊢
      rw [decodeBody_cons (by omega), if_neg (by decide), Option.toList_some,
        List.flatMap_singleton, alerts_pdu_eq_nil_iff]
      simp [hdt]
    · rw [decodeBody_of_ne hid]
      simp [hid]
  · rw [alertsOn_of_decode hp (decode_connection hdt _)]
    simp [hdt, alerts]

/-- The producer separates a series of packets: none after the first is to be reported. -/
def Separated (h : TcpHeader) (ms : List Tpkt) : Prop :=
  h.dport = port → ∀ m ∈ ms, reported m = false

theorem separates_iff (src dst : IPv4) (h : TcpHeader) (m : Tpkt) (ms : List Tpkt) :
    Separates processPacket src dst h ((m :: ms).map Tpkt.bytes) ↔ Separated h ms := by
  have hrest : ∀ b, (ms.map Tpkt.bytes).flatten[0]? = some b → b = 0x03 := by
    cases ms with
    | nil => simp
    | cons m' ms => exact fun b hb => (Option.some.inj hb).symm
  exact separates_iff_of_append alertsOn_produce_of_port_ne
    (fun hp => alertsOn_append hp m hrest) (fun hp => alertsOn_eq_nil_iff hp)

end OtLab.S7commDpi
