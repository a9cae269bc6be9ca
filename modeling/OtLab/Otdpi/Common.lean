import OtLab.Net.Packet

/-!
# Shared parts of the telemetry producers

The direction of a decoded message, the guard every producer begins with, and the sinks of
`common.py`.
-/

namespace OtLab

inductive Direction where
  | request
  | response
deriving DecidableEq, Repr

def Direction.text : Direction → String
  | .request => "request"
  | .response => "response"

/-- The value of an entry that may be `None`. -/
def Value.ofOctet? : Option UInt8 → Value
  | .some b => .int b.toNat
  | .none => Value.none

namespace Common

/-- The payload of a TCP segment sent to `port`, the only packets a producer looks at. -/
def payloadTo (port : UInt16) (packet : Packet) : Option Bytes :=
  match packet.tcp? with
  | some h => if h.dport = port then packet.load? else none
  | none => none

/-- `push_to_loki(service, {**event, **endpoint})`. -/
def pushToLoki (service : String) (event : Dict) (packet : Packet) : SinkCall :=
  .loki service "ot_ndr"
    (event ++ [("src_ip", .str packet.src.str), ("dst_ip", .str packet.dst.str)])

/-- `write_alert`. -/
def writeAlert (alert : Dict) : SinkCall := .alert alert

/--
The `process_packet` the producers share: decode a payload sent to `port`, push the event and
write its alerts.
-/
def produce {Event : Type} (service : String) (port : UInt16)
    (decode : Bytes → Py (Option Event)) (fields : Event → Dict)
    (alerts : Event → Packet → List Dict) (packet : Packet) : Py (List SinkCall) :=
  match payloadTo port packet with
  | none => .ok []
  | some payload => do
    match ← decode payload with
    | none => return []
    | some event =>
      return pushToLoki service (fields event) packet :: (alerts event packet).map writeAlert

theorem payloadTo_segment {port : UInt16} {src dst : IPv4} {h : TcpHeader} (hp : h.dport = port)
    (load : Bytes) : payloadTo port (.segment src dst h load) = some load := by
  simp [payloadTo, hp]

theorem payloadTo_segment_of_ne {port : UInt16} {src dst : IPv4} {h : TcpHeader}
    (hp : h.dport ≠ port) (load : Bytes) : payloadTo port (.segment src dst h load) = none := by
  simp [payloadTo, hp]

@[simp] theorem payloadTo_port (port : UInt16) (src dst : IPv4) (sport flags : UInt16)
    (load : Bytes) : payloadTo port (.segment src dst ⟨sport, port, flags⟩ load) = some load :=
  payloadTo_segment rfl load

end Common

/-- A producer pushes the event and writes its alerts. -/
theorem alertsOf_push (service : String) (event : Dict) (packet : Packet) (alerts : List Dict) :
    alertsOf (Common.pushToLoki service event packet :: alerts.map Common.writeAlert) = alerts := by
  show alertsOf (alerts.map SinkCall.alert) = alerts
  induction alerts with
  | nil => rfl
  | cons a alerts ih => rw [List.map_cons, alertsOf_alert, ih]

/-- The alerts a handler has written; one that raises before its sinks writes none. -/
def alertsWritten : Py (List SinkCall) → List Dict
  | .ok calls => alertsOf calls
  | .error _ => []

@[simp] theorem alertsWritten_ok (calls : List SinkCall) :
    alertsWritten (.ok calls) = alertsOf calls := rfl

end OtLab
