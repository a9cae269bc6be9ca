import OtLab.Detection.Separation
import OtLab.Otdpi.OpcUa

/-!
# The OPC UA telemetry producer

`opcua_dpi.py` decodes the first message of a payload and never looks at its size, so the messages
behind it are not seen.

* `separates_iff` — exactly when it alerts on a series of messages as if they came one by one
-/

namespace OtLab.OpcUaDpi

open Bytes Common OpcUa

/-! ## The producer -/

/-- The default of `PORT`. -/
def port : UInt16 := 4840

/-- `DETECTIONS`: alert type, technique and description by service. -/
def detections : List (String × String × String × String) :=
  [ ("BrowseRequest", "OPCUA_BROWSE_REQUEST", "T0888", "OPC UA address space browse."),
    ("BrowseNextRequest", "OPCUA_BROWSE_REQUEST", "T0888", "OPC UA address space browse."),
    ("WriteRequest", "OPCUA_WRITE_REQUEST", "T1692.001", "OPC UA write request."),
    ("CallRequest", "OPCUA_METHOD_CALL", "T0871", "OPC UA method call request.") ]

/-- `event.get(key)` of an entry that may be missing. -/
def valueOrNone : Option Nat → Value
  | some n => .int n
  | none => .none

/-- The alerts of `process_packet` for an event. -/
def alerts (event : Event) (packet : Packet) : List Dict :=
  match event.service with
  | none => []
  | some s =>
    if s.direction ≠ .request then []
    else
      match detections.lookup s.name with
      | none => []
      | some (alertType, mitreId, description) =>
        [ [ ("alert_type", .str alertType),
            ("mitre_id", .str mitreId),
            ("description", .str description),
            ("protocol", .str "opcua"),
            ("opcua_service", .str s.name),
            ("service_id", .int s.id),
            ("secure_channel_id", valueOrNone event.secureChannelId),
            ("request_id", valueOrNone event.requestId),
            ("source_ip", .str packet.src.str),
            ("dest_ip", .str packet.dst.str) ] ]

/-- `process_packet`. -/
def processPacket : Packet → Py (List SinkCall) :=
  produce "opcua" port decode Event.fields alerts

/-! ## Several messages in one payload -/

variable {src dst : IPv4} {h : TcpHeader}

theorem alertsOn_of_decode (hp : h.dport = port) {payload : Bytes} {e : Event}
    (hdecode : decode payload = .ok (some e)) :
    alertsOn processPacket src dst h payload = alerts e (.segment src dst h []) :=
  (alertsOn_produce hp hdecode).trans (List.flatMap_singleton _ _)

/-- A service is reported. -/
def isReported (s : Service) : Bool :=
  s.direction = .request && (detections.lookup s.name).isSome

/-- A message is reported: a `MSG` whose body names a service with a detection. -/
def reported (m : Message) : Bool :=
  m.messageType = .msg && (service (m.body.drop 16)).any isReported

theorem alerts_eq_nil_iff (e : Event) (packet : Packet) :
    alerts e packet = [] ↔ e.service.any isReported = false := by
  unfold alerts
  cases e.service with
  | none => simp
  | some s =>
    by_cases hd : s.direction = .request
    · cases hl : detections.lookup s.name <;> simp [isReported, hd, hl]
    · simp [isReported, hd]

/-- The beginning of a further message. -/
def Continues (rest : Bytes) : Prop :=
  rest = [] ∨ ∃ r0 r1 r2 r3 r4 r5 tail, rest = r0 :: r1 :: r2 :: r3 :: r4 :: r5 :: tail ∧
    0x41 ≤ r0 ∧ 0x41 ≤ r1

theorem continues_flatten (ms : List Message) : Continues (ms.map Message.bytes).flatten := by
  cases ms with
  | nil => exact Or.inl rfl
  | cons m ms =>
    right
    rw [List.map_cons, List.flatten_cons]
    unfold Message.bytes Message.header
    cases m.messageType <;> exact ⟨_, _, _, _, _, _, _, rfl, by decide, by decide⟩

/-- What is reported of a `MSG` with other octets behind its headers. -/
theorem alertsOn_msg (hp : h.dport = port) {m : Message} (hm : m.messageType = .msg) (l : Bytes) :
    alertsOn processPacket src dst h (m.header ++ m.body.take 16 ++ l)
      = alerts { msgEvent m.chunk (m.header ++ m.body.take 16) with service := service l }
          (.segment src dst h []) := by
  have hc : (m.body.take 16).length = 16 := by
    rw [List.length_take]
    exact Nat.min_eq_left (m.complete hm)
  exact alertsOn_of_decode hp (decode_msg hm hc l)

theorem bytes_eq (m : Message) : m.bytes = m.header ++ m.body.take 16 ++ m.body.drop 16 := by
  rw [List.append_assoc, List.take_append_drop]
  rfl

/-- What follows a message does not change what is reported of it. -/
theorem alertsOn_append (hp : h.dport = port) (m : Message) {rest : Bytes}
    (hrest : Continues rest) :
    alertsOn processPacket src dst h (m.bytes ++ rest)
      = alertsOn processPacket src dst h m.bytes := by
  by_cases hm : m.messageType = .msg
  · have hservice : service (m.body.drop 16 ++ rest) = service (m.body.drop 16) := by
      rcases hrest with rfl | ⟨r0, r1, r2, r3, r4, r5, tail, rfl, h0, h1⟩
      · rw [List.append_nil]
      · exact service_append _ h0 h1 r2 r3 r4 r5 tail
    rw [bytes_eq, List.append_assoc, alertsOn_msg hp hm, alertsOn_msg hp hm, hservice]
  · obtain ⟨e, hdecode, he⟩ := decode_of_ne_msg hm (m.body ++ rest)
    obtain ⟨e', hdecode', he'⟩ := decode_of_ne_msg hm m.body
    unfold Message.bytes
    rw [List.append_assoc, alertsOn_of_decode hp hdecode, alertsOn_of_decode hp hdecode', alerts,
      he, alerts, he']

theorem alertsOn_eq_nil_iff (hp : h.dport = port) (m : Message) :
    alertsOn processPacket src dst h m.bytes = [] ↔ reported m = false := by
  unfold reported
  by_cases hm : m.messageType = .msg
  · rw [bytes_eq, alertsOn_msg hp hm, alerts_eq_nil_iff]
    simp [hm]
  · obtain ⟨e, hdecode, he⟩ := decode_of_ne_msg hm m.body
    unfold Message.bytes
    rw [alertsOn_of_decode hp hdecode, alerts_eq_nil_iff, he]
    simp [hm]

/-- The producer separates a series of messages: none after the first is to be reported. -/
def Separated (h : TcpHeader) (ms : List Message) : Prop :=
  h.dport = port → ∀ m ∈ ms, reported m = false

theorem separates_iff (src dst : IPv4) (h : TcpHeader) (m : Message) (ms : List Message) :
    Separates processPacket src dst h ((m :: ms).map Message.bytes) ↔ Separated h ms :=
  separates_iff_of_append alertsOn_produce_of_port_ne
    (fun hp => alertsOn_append hp m (continues_flatten ms)) (fun hp => alertsOn_eq_nil_iff hp)

end OtLab.OpcUaDpi
