import OtLab.Attack.SimulateDnp3
import OtLab.Firewall.Ruleset

/-!
# The DNP3 write detector

`dnp3_anomaly.py` has a parser of its own, which takes the octet behind the transport octet for
the function code. In a frame with a transport header this is the application control octet.

* `detectors_agree_iff` — exactly when it reads what `otdpi.dnp3.decode` reads
-/

namespace OtLab.Dnp3Anomaly

open Bytes Common SimulateDnp3

/-- `DNP3_WRITE_FC`. -/
def writeFc : List UInt8 := [3, 4, 5, 6, 7, 8, 9, 23]

def dnp3Port : UInt16 := 20000

/-- The default of `AUTHORIZED_OPERATORS`. -/
def authorizedOperators : List IPv4 := [hmiHost, ewsHost]

/-- The alert `process_packet` has `log_alert` write. -/
def writeAlert (srcIp dstIp : IPv4) (functionCode : UInt8) : Dict :=
  [ ("alert_type", .str "DNP3_WRITE_UNAUTHORIZED"),
    ("source_ip", .str srcIp.str),
    ("dest_ip", .str dstIp.str),
    ("function_code", .int functionCode.toNat),
    ("mitre_id", .str "T0831"),
    ("description", .str
      "Unauthorized DNP3 write/operate command detected from an untrusted source.") ]

variable (authorized : List IPv4)

/-- `process_packet`. The source of an IPv4 header is always an address. -/
def processPacket (packet : Packet) : Py (List SinkCall) :=
  match payloadTo dnp3Port packet with
  | none => .ok []
  | some payload =>
    if payload.length < 12 then .ok []
    else do
      let start0 ← getByte payload 0
      let start1 ← getByte payload 1
      if start0 ≠ 0x05 ∨ start1 ≠ 0x64 then return []
      let functionCode ← getByte payload 11
      if functionCode ∈ writeFc ∧ packet.src ∉ authorized then
        return [.alert (writeAlert packet.src packet.dst functionCode)]
      else return []

/-- The alert type of an alert. -/
def IsWriteAlert (a : Dict) : Prop := a.lookup "alert_type" = some (.str "DNP3_WRITE_UNAUTHORIZED")

/--
The detector and the decoder read the same function code from the payload: there is an alert
exactly when the source is not authorized and the decoded function code is a write, and every
alert carries that function code.
-/
def Agree (packet : Packet) (payload : Bytes) : Prop :=
  ∃ e, Dnp3.decode payload = .ok (some e) ∧
    ((∃ a ∈ alertsWritten (processPacket authorized packet), IsWriteAlert a) ↔
      packet.src ∉ authorized ∧ e.functionCode ∈ writeFc) ∧
    ∀ a ∈ alertsWritten (processPacket authorized packet), IsWriteAlert a →
      a.lookup "function_code" = some (.int e.functionCode.toNat)

variable {authorized}

/-- The detector goes by the octet behind the transport octet. -/
theorem alerts_header (src dst : IPv4) (sport flags : UInt16) (f : Dnp3.LinkFrame)
    (transport octet : UInt8) (rest : Bytes) :
    alertsWritten (processPacket authorized (.segment src dst ⟨sport, dnp3Port, flags⟩
        (f.header ++ transport :: octet :: rest)))
      = if octet ∈ writeFc ∧ src ∉ authorized then [writeAlert src dst octet] else [] := by
  have hlen : ¬ (f.header ++ transport :: octet :: rest).length < 12 := by
    rw [List.length_append, f.length_header, List.length_cons, List.length_cons]
    omega
  unfold processPacket
  rw [payloadTo_port]
  dsimp only
  rw [if_neg hlen]
  show alertsWritten (if octet ∈ writeFc ∧ src ∉ authorized then _ else _) = _
  split
  · rfl
  · rfl

theorem isWriteAlert_writeAlert (src dst : IPv4) (octet : UInt8) :
    IsWriteAlert (writeAlert src dst octet) := rfl

theorem functionCode_writeAlert (src dst : IPv4) (octet : UInt8) :
    (writeAlert src dst octet).lookup "function_code" = some (.int octet.toNat) := rfl

theorem agree_frame_iff (f : Fragment) (masterAddr outstationAddr : UInt16) (control : UInt8)
    (src dst : IPv4) (sport flags : UInt16) :
    Agree authorized (.segment src dst ⟨sport, dnp3Port, flags⟩
        (f.frame masterAddr outstationAddr control).bytes)
        (f.frame masterAddr outstationAddr control).bytes ↔
      src ∈ authorized ∨ (f.control ∉ writeFc ∧ f.functionCode ∉ writeFc) ∨
        f.control = f.functionCode := by
  obtain ⟨rest, hrest⟩ := frame_bytes masterAddr outstationAddr f control
  rw [hrest]
  obtain ⟨e, hdecode, -, hfc, -, -⟩ := Dnp3.LinkFrame.decode_header
    (f.frame masterAddr outstationAddr control) 0xC0 f.control f.functionCode rest
  unfold Agree
  rw [alerts_header, hdecode, Packet.segment_src]
  simp only [Except.ok.injEq, Option.some.injEq, exists_eq_left', hfc]
  by_cases hsrc : src ∈ authorized
  · simp [hsrc]
  by_cases hctl : f.control ∈ writeFc
  · -- there is an alert, with the application control octet for a function code
    rw [if_pos ⟨hctl, hsrc⟩]
    simp only [List.mem_singleton, exists_eq_left, forall_eq, isWriteAlert_writeAlert,
      functionCode_writeAlert, hsrc, hctl, true_iff, not_false_eq_true, true_and, true_implies,
      Option.some.injEq, Value.int.injEq, Int.natCast_inj, UInt8.toNat_inj, false_or, not_true,
      false_and]
    constructor
    · exact fun h => h.2
    · rintro h
      exact ⟨h ▸ hctl, h⟩
  · -- there is none
    rw [if_neg fun h => hctl h.1]
    simp only [List.not_mem_nil, false_and, exists_false, false_iff, hsrc, hctl, true_and,
      not_false_eq_true, false_or, false_implies, implies_true, and_true]
    constructor
    · exact fun h => Or.inl h
    · rintro (h | h)
      · exact h
      · exact h ▸ hctl

/--
**The two DNP3 detectors agree exactly when the source is authorized, or neither the application
control octet nor the function code is a write code, or both octets are the same.**
-/
theorem detectors_agree_iff (authorized : List IPv4) (masterAddr outstationAddr : UInt16)
    (f : Fragment) (control : UInt8) (src dst : IPv4) (sport flags : UInt16) :
    ∃ frame, linkFrame masterAddr outstationAddr f.bytes control = .ok frame ∧
      (Agree authorized (.segment src dst ⟨sport, dnp3Port, flags⟩ frame) frame ↔
        src ∈ authorized ∨ (f.control ∉ writeFc ∧ f.functionCode ∉ writeFc) ∨
          f.control = f.functionCode) :=
  ⟨_, linkFrame_fragment masterAddr outstationAddr f control,
    agree_frame_iff f masterAddr outstationAddr control src dst sport flags⟩

/-- The first Direct Operate of the emulation, sent with the usual application control octet. -/
def directOperate : Fragment := ⟨0xC0, 5, [0x0C, 0x01, 0x17, 0x01, 0x00, 0x03], by decide⟩

/-- The write detector is blind to the emulated Direct Operate, which `decode` sees. -/
theorem detectors_disagree :
    ¬ ∀ (authorized : List IPv4) (masterAddr outstationAddr : UInt16) (f : Fragment)
      (control : UInt8) (src dst : IPv4) (sport flags : UInt16) (frame : Bytes),
      control &&& 0x80 ≠ 0 →
      linkFrame masterAddr outstationAddr f.bytes control = .ok frame →
      Agree authorized (.segment src dst ⟨sport, dnp3Port, flags⟩ frame) frame := by
  intro h
  have hagree := h authorizedOperators 3 10 directOperate 0xC4 insiderHost ⟨172, 21, 0, 50⟩
    40000 0x18 _ (by decide) (linkFrame_fragment 3 10 directOperate 0xC4)
  rw [agree_frame_iff] at hagree
  revert hagree
  decide

end OtLab.Dnp3Anomaly
