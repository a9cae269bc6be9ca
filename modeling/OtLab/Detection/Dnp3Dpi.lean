import OtLab.Detection.Separation
import OtLab.Otdpi.Dnp3

/-!
# The DNP3 telemetry producer

`dnp3_dpi.py` decodes the first frame of a payload and never looks at LEN. A frame without user
data is too short to be decoded alone, but with another frame behind it the LEN octet of that
frame stands where the function code is expected.

* `separates_iff` — exactly when it alerts on a series of link frames as if they came one by one
-/

namespace OtLab.Dnp3Dpi

open Bytes Common Dnp3

/-! ## The producer -/

/-- The default of `PORT`. -/
def port : UInt16 := 20000

/-- The entries all alerts of `process_packet` share. -/
def base (event : Event) (packet : Packet) : Dict :=
  [ ("protocol", .str "dnp3"),
    ("link_source", .int event.linkSource),
    ("link_destination", .int event.linkDestination),
    ("function_code", .int event.functionCode.toNat),
    ("function_name", .str (functionName event.functionCode)),
    ("source_ip", .str packet.src.str),
    ("dest_ip", .str packet.dst.str) ]

def unauthorizedControl : Dict :=
  [ ("alert_type", .str "DNP3_UNAUTHORIZED_CONTROL"),
    ("mitre_id", .str "T1692.001"),
    ("description", .str "DNP3 control operation from an unauthorized master.") ]

def restartCommand : Dict :=
  [ ("alert_type", .str "DNP3_RESTART_COMMAND"),
    ("mitre_id", .str "T0816"),
    ("description", .str "DNP3 cold/warm restart requested.") ]

def unsolicitedDisabled : Dict :=
  [ ("alert_type", .str "DNP3_UNSOLICITED_DISABLED"),
    ("mitre_id", .str "T0878"),
    ("description", .str "DNP3 unsolicited responses disabled.") ]

variable (masters : List Nat)

/-- The alerts of `process_packet` for an event. -/
def alerts (event : Event) (packet : Packet) : List Dict :=
  if event.direction ≠ .request then []
  else
    (if event.functionCode ∈ controlFunctions ∧ event.linkSource ∉ masters then
      [unauthorizedControl ++ base event packet] else [])
    ++ (if event.functionCode ∈ restartFunctions then [restartCommand ++ base event packet] else [])
    ++ (if event.functionCode ∈ unsolicitedDisable then
      [unsolicitedDisabled ++ base event packet] else [])

/-- `process_packet`. -/
def processPacket : Packet → Py (List SinkCall) :=
  produce "dnp3" port decode Event.fields (alerts masters)

/-! ## What an alert depends on -/

/-- The link addresses and the function code an alert is about. -/
structure Notice where
  source : UInt16
  destination : UInt16
  functionCode : UInt8
deriving DecidableEq

/-- A function code from a link source is reported. -/
def reported (masters : List Nat) (source : UInt16) (functionCode : UInt8) : Bool :=
  functionCode ∈ controlFunctions && decide (source.toNat ∉ masters)
    || functionCode ∈ restartFunctions || functionCode ∈ unsolicitedDisable

/-- What is reported of a frame when `functionCode` is taken for its function code. -/
def notice (masters : List Nat) (f : LinkFrame) (functionCode : UInt8) : Option Notice :=
  if directionOf f.control = .request ∧ reported masters f.source functionCode then
    some ⟨f.source, f.destination, functionCode⟩
  else none

/-- The alert for a notice. -/
def Notice.alert (src dst : IPv4) (n : Notice) : Dict :=
  (if n.functionCode ∈ controlFunctions then unauthorizedControl
    else if n.functionCode ∈ restartFunctions then restartCommand
    else unsolicitedDisabled)
  ++ [ ("protocol", .str "dnp3"),
    ("link_source", .int n.source.toNat),
    ("link_destination", .int n.destination.toNat),
    ("function_code", .int n.functionCode.toNat),
    ("function_name", .str (functionName n.functionCode)),
    ("source_ip", .str src.str),
    ("dest_ip", .str dst.str) ]

/-- No function code belongs to two of the three groups. -/
theorem groups_disjoint (functionCode : UInt8) :
    (functionCode ∈ controlFunctions → functionCode ∉ restartFunctions ∧
      functionCode ∉ unsolicitedDisable) ∧
    (functionCode ∈ restartFunctions → functionCode ∉ unsolicitedDisable) := by
  constructor
  · intro h
    simp only [controlFunctions, List.mem_cons, List.not_mem_nil, or_false] at h
    rcases h with rfl | rfl | rfl | rfl <;> decide
  · intro h
    simp only [restartFunctions, List.mem_cons, List.not_mem_nil, or_false] at h
    rcases h with rfl | rfl <;> decide

/-- There is at most one alert, and its notice determines it. -/
theorem alerts_eq {e : Event} {f : LinkFrame} {functionCode : UInt8} {packet : Packet}
    (hd : e.direction = directionOf f.control) (hfc : e.functionCode = functionCode)
    (hs : e.linkSource = f.source.toNat) (hdst : e.linkDestination = f.destination.toNat) :
    alerts masters e packet
      = (notice masters f functionCode).toList.map (Notice.alert packet.src packet.dst) := by
  obtain ⟨hcontrol, hrestart⟩ := groups_disjoint functionCode
  unfold alerts notice base reported
  rw [hd, hfc, hs, hdst]
  by_cases hreq : directionOf f.control = .request
  · by_cases hc : functionCode ∈ controlFunctions
    · obtain ⟨hnr, hnu⟩ := hcontrol hc
      by_cases hm : f.source.toNat ∈ masters <;> simp [hreq, hc, hnr, hnu, hm, Notice.alert]
    · by_cases hr : functionCode ∈ restartFunctions
      · simp [hreq, hc, hr, hrestart hr, Notice.alert]
      · by_cases hu : functionCode ∈ unsolicitedDisable <;>
          simp [hreq, hc, hr, hu, Notice.alert]
  · simp [hreq]

theorem Notice.alert_injective (src dst : IPv4) : Function.Injective (Notice.alert src dst) := by
  rintro ⟨s, d, fc⟩ ⟨s', d', fc'⟩ heq
  have hlen : ∀ fc : UInt8, (if fc ∈ controlFunctions then unauthorizedControl
      else if fc ∈ restartFunctions then restartCommand else unsolicitedDisabled).length = 3 := by
    intro fc
    split
    · rfl
    split <;> rfl
  have htail := (List.append_inj heq ((hlen fc).trans (hlen fc').symm)).2
  simp only [List.cons.injEq, Prod.mk.injEq, Value.int.injEq, Int.natCast_inj, UInt16.toNat_inj,
    UInt8.toNat_inj, true_and, and_true] at htail
  obtain ⟨rfl, rfl, rfl, -⟩ := htail
  rfl

/-! ## Several frames in one payload -/

variable {masters} {src dst : IPv4} {h : TcpHeader}

/-- The alerts on a payload that begins with a header and three more octets. -/
theorem alertsOn_header (hp : h.dport = port) (f : LinkFrame)
    (transport application functionCode : UInt8) (rest : Bytes) :
    alertsOn (processPacket masters) src dst h
        (f.header ++ transport :: application :: functionCode :: rest)
      = (notice masters f functionCode).toList.map (Notice.alert src dst) := by
  obtain ⟨e, hdecode, hd, hfc, hs, hdst⟩ :=
    LinkFrame.decode_header f transport application functionCode rest
  rw [processPacket, alertsOn_produce hp hdecode, Option.toList_some, List.flatMap_singleton,
    alerts_eq masters hd hfc hs hdst]
  rfl

/-- What is reported of a frame in a packet of its own. -/
def frameNotice (masters : List Nat) (f : LinkFrame) : Option Notice :=
  if f.userData = [] then none else notice masters f f.functionOctet

/-- What is reported of a header with the next frame behind it. -/
def boundaryNotice (masters : List Nat) (f : LinkFrame) : List LinkFrame → Option Notice
  | [] => none
  | g :: _ => if f.userData = [] then notice masters f g.length else none

theorem alertsOn_of_userData (hp : h.dport = port) {f : LinkFrame} (hf : f.userData ≠ [])
    (rest : Bytes) :
    alertsOn (processPacket masters) src dst h (f.bytes ++ rest)
      = (frameNotice masters f).toList.map (Notice.alert src dst) := by
  obtain ⟨b0, b1, tail, hbytes⟩ := f.bytes_cons hf
  rw [hbytes, List.append_assoc, List.cons_append, List.cons_append, List.cons_append,
    alertsOn_header hp, frameNotice, if_neg hf]

theorem alertsOn_bytes (hp : h.dport = port) (f : LinkFrame) :
    alertsOn (processPacket masters) src dst h f.bytes
      = (frameNotice masters f).toList.map (Notice.alert src dst) := by
  by_cases hf : f.userData = []
  · have hlen : f.bytes.length < 12 := by
      rw [f.bytes_of_userData_nil hf, f.length_header]
      decide
    rw [processPacket, alertsOn_produce hp (decode_of_length_lt hlen), frameNotice, if_pos hf]
    rfl
  · have hnext := @alertsOn_of_userData masters src dst h hp f hf []
    rwa [List.append_nil] at hnext

/-- A header-only frame is decoded together with the beginning of the next frame. -/
theorem alertsOn_of_header_only (hp : h.dport = port) {f : LinkFrame} (hf : f.userData = [])
    (gs : List LinkFrame) :
    alertsOn (processPacket masters) src dst h (f.bytes ++ (gs.map LinkFrame.bytes).flatten)
      = (boundaryNotice masters f gs).toList.map (Notice.alert src dst) := by
  cases gs with
  | nil =>
    rw [List.map_nil, List.flatten_nil, List.append_nil, alertsOn_bytes hp, frameNotice, if_pos hf]
    rfl
  | cons g gs =>
    rw [f.bytes_of_userData_nil hf, List.map_cons, List.flatten_cons, boundaryNotice, if_pos hf]
    exact alertsOn_header hp f 0x05 0x64 g.length _

theorem flatMap_alertsOn (hp : h.dport = port) (fs : List LinkFrame) :
    (fs.map LinkFrame.bytes).flatMap (alertsOn (processPacket masters) src dst h)
      = (fs.filterMap (frameNotice masters)).map (Notice.alert src dst) := by
  induction fs with
  | nil => rfl
  | cons f fs ih =>
    rw [List.map_cons, List.flatMap_cons, ih, alertsOn_bytes hp, List.filterMap_cons]
    cases frameNotice masters f <;> rfl

/--
The producer separates a series of frames: what is to be reported of the frames after the first is
what it reads off the boundary between a first frame without user data and the next one, so
nothing when the first frame has user data.
-/
def Separated (masters : List Nat) (h : TcpHeader) (f : LinkFrame) (fs : List LinkFrame) : Prop :=
  h.dport = port → fs.filterMap (frameNotice masters) = (boundaryNotice masters f fs).toList

theorem separates_iff (masters : List Nat) (src dst : IPv4) (h : TcpHeader) (f : LinkFrame)
    (fs : List LinkFrame) :
    Separates (processPacket masters) src dst h ((f :: fs).map LinkFrame.bytes) ↔
      Separated masters h f fs := by
  unfold Separated
  by_cases hp : h.dport = port
  · simp only [hp, true_implies]
    by_cases hf : f.userData = []
    · -- the first frame is silent alone, and together with the next one read at the boundary
      have hnone : frameNotice masters f = none := if_pos hf
      unfold Separates
      rw [flatMap_alertsOn hp, List.map_cons, List.flatten_cons, alertsOn_of_header_only hp hf,
        (List.map_injective_iff.mpr (Notice.alert_injective src dst)).eq_iff,
        List.filterMap_cons_none hnone, eq_comm]
    · -- the first frame is read as if it were alone
      have hnone : boundaryNotice masters f fs = none := by
        cases fs with
        | nil => rfl
        | cons g gs => exact if_neg hf
      rw [List.map_cons, separates_cons_iff (by rw [alertsOn_of_userData hp hf, alertsOn_bytes hp]),
        alertsOn_of_userData hp hf, alertsOn_bytes hp, hnone, ← List.flatMap_eq_nil_iff,
        flatMap_alertsOn hp, List.map_eq_nil_iff]
      exact and_iff_right rfl
  · exact iff_of_true (separates_of_silent (alertsOn_produce_of_port_ne hp) _)
      fun h' => absurd h' hp

end OtLab.Dnp3Dpi
