import OtLab.Net.Address
import OtLab.Py.Bytes
import OtLab.Py.Value

/-!
# Captured packets

A packet is an IPv4 header, the transport its protocol field announces, and the layers the
capture library finds above it. `TCP in packet` and `packet[TCP]` search all layers, so a
tunnelled segment is found as well.

Non-IP frames are left out: every handler returns on them at once.
-/

namespace OtLab

/-- The fields of a TCP header the handlers read. -/
structure TcpHeader where
  sport : UInt16
  dport : UInt16
  flags : UInt16
deriving DecidableEq, Repr

/-- What the protocol field of an IPv4 header announces. -/
inductive Transport where
  | tcp (header : TcpHeader)
  | udp (sport dport : UInt16)
  | icmp
  | other (protocol : UInt8)
deriving DecidableEq, Repr

/-- A layer above the transport of the packet: a tunnelled header or the payload. -/
inductive Layer where
  | ip (src dst : IPv4)
  | transport (t : Transport)
  | raw (load : Bytes)
deriving DecidableEq, Repr

structure Packet where
  src : IPv4
  dst : IPv4
  transport : Transport
  inner : List Layer
deriving DecidableEq, Repr

namespace Transport

def tcp? : Transport → Option TcpHeader
  | .tcp h => some h
  | _ => none

def udpDport? : Transport → Option UInt16
  | .udp _ d => some d
  | _ => none

def isIcmp : Transport → Bool
  | .icmp => true
  | _ => false

end Transport

namespace Layer

def transport? : Layer → Option Transport
  | .transport t => some t
  | _ => none

def raw? : Layer → Option Bytes
  | .raw load => some load
  | _ => none

end Layer

namespace Packet

/-- Every transport header of the packet, outermost first. -/
def transports (p : Packet) : List Transport := p.transport :: p.inner.filterMap Layer.transport?

/-- `packet[TCP]`. -/
def tcp? (p : Packet) : Option TcpHeader := p.transports.findSome? Transport.tcp?

/-- `packet[UDP].dport`. -/
def udpDport? (p : Packet) : Option UInt16 := p.transports.findSome? Transport.udpDport?

/-- `ICMP in packet`. -/
def hasIcmp (p : Packet) : Bool := p.transports.any Transport.isIcmp

/-- `packet[Raw].load`. -/
def load? (p : Packet) : Option Bytes := p.inner.findSome? Layer.raw?

/-- `payload[7]`, the Modbus function code, of a payload that has it. -/
def functionCode? (p : Packet) : Option UInt8 := p.load?.bind fun payload => payload[7]?

/--
A TCP segment that carries a payload. The capture library is taken to show the payload as `Raw`,
with no dissector of its own bound to the ports.
-/
def segment (src dst : IPv4) (header : TcpHeader) (load : Bytes) : Packet :=
  { src := src, dst := dst, transport := .tcp header, inner := [.raw load] }

@[simp] theorem segment_src (src dst : IPv4) (h : TcpHeader) (load : Bytes) :
    (segment src dst h load).src = src := rfl

@[simp] theorem segment_dst (src dst : IPv4) (h : TcpHeader) (load : Bytes) :
    (segment src dst h load).dst = dst := rfl

@[simp] theorem segment_tcp? (src dst : IPv4) (h : TcpHeader) (load : Bytes) :
    (segment src dst h load).tcp? = some h := rfl

@[simp] theorem segment_load? (src dst : IPv4) (h : TcpHeader) (load : Bytes) :
    (segment src dst h load).load? = some load := rfl

end Packet

/-- A call of one of the sinks, without the time stamp it adds. -/
inductive SinkCall where
  /-- `push_to_loki(service, fields, job)` -/
  | loki (service job : String) (fields : Dict)
  /-- an alert appended to `alerts.json` -/
  | alert (fields : Dict)
deriving DecidableEq, Repr

/-- The alert a sink call writes, when it writes one. -/
def SinkCall.alert? : SinkCall → Option Dict
  | .alert fields => some fields
  | .loki .. => none

/-- The alerts written by a list of sink calls, in order. -/
def alertsOf (calls : List SinkCall) : List Dict := calls.filterMap SinkCall.alert?

/-- The event a sink call pushes to Loki, when it pushes one. -/
def SinkCall.push? : SinkCall → Option Dict
  | .alert _ => none
  | .loki _ _ fields => some fields

/-- The events pushed by a list of sink calls, in order. -/
def pushesOf (calls : List SinkCall) : List Dict := calls.filterMap SinkCall.push?

@[simp] theorem alertsOf_nil : alertsOf [] = [] := rfl

@[simp] theorem alertsOf_alert (d : Dict) (l : List SinkCall) :
    alertsOf (.alert d :: l) = d :: alertsOf l := rfl

@[simp] theorem alertsOf_loki (s j : String) (d : Dict) (l : List SinkCall) :
    alertsOf (.loki s j d :: l) = alertsOf l := rfl

end OtLab
