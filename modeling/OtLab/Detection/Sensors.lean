import OtLab.Detection.BruteForce
import OtLab.Detection.Dnp3Anomaly
import OtLab.Detection.Dnp3Dpi
import OtLab.Detection.ModbusAnomaly
import OtLab.Detection.OpcUaDpi
import OtLab.Detection.ProcessSafety
import OtLab.Detection.S7commDpi

/-!
# Sensors do not raise

An exception in the handler of a sensor ends its capture. The handlers of the seven sensors are
stated here over everything that can raise: `packet[TCP]` and `packet[Raw]`, an index into the
payload, and a subscript of a dictionary. Each of them is then the handler of its own module.

* `sensors_never_raise` — no packet makes a handler raise
-/

namespace OtLab.Sensors

open Bytes Common

/-! ## What can raise -/

/-- `packet[TCP]`. -/
def tcpLayer (packet : Packet) : Py TcpHeader :=
  match packet.tcp? with
  | some h => .ok h
  | none => .error .indexError

/-- `bytes(packet[Raw].load)`. -/
def rawLoad (packet : Packet) : Py Bytes :=
  match packet.load? with
  | some load => .ok load
  | none => .error .indexError

/-- `d[key]`. -/
def subscript (d : Dict) (key : String) : Py Value :=
  match d.lookup key with
  | some v => .ok v
  | none => .error .keyError

/-- `d.get(key)`. -/
def get (d : Dict) (key : String) : Value := (d.lookup key).getD .none

/-- `ipaddress.ip_address(src_ip) in authorized`, and `False` where it raises `ValueError`. -/
def isAuthorized (authorized : List IPv4) (srcIp : String) : Bool :=
  match ipAddress srcIp with
  | some address => address ∈ authorized.map IpAddress.v4
  | none => false

/-- Octets as members of a set of integers. -/
def codes (l : List UInt8) : List Value := l.map fun b => .int b.toNat

/-! ## The handlers -/

/-- `modbus_anomaly.process_packet`. -/
def modbusAnomaly (authorized : List IPv4) (packet : Packet) : Py (List SinkCall) := do
  if packet.tcp?.isNone then return []
  let tcp ← tcpLayer packet
  if tcp.dport ≠ ModbusAnomaly.modbusPort then return []
  if packet.load?.isNone then return []
  let payload ← rawLoad packet
  if payload.length < 8 then return []
  let functionCode ← getByte payload 7
  if functionCode ∈ ModbusAnomaly.writeFc then
    if isAuthorized authorized packet.src.str then return []
    let regAddr := fromBig (slice payload 8 10)
    return [.alert (ModbusAnomaly.writeAlert packet.src regAddr)]
  return []

/-- `dnp3_anomaly.process_packet`. -/
def dnp3Anomaly (authorized : List IPv4) (packet : Packet) : Py (List SinkCall) := do
  if packet.tcp?.isNone then return []
  let tcp ← tcpLayer packet
  if tcp.dport ≠ Dnp3Anomaly.dnp3Port then return []
  if packet.load?.isNone then return []
  let payload ← rawLoad packet
  if payload.length < 12 then return []
  if (← getByte payload 0) ≠ 0x05 then return []
  if (← getByte payload 1) ≠ 0x64 then return []
  let functionCode ← getByte payload 11
  if functionCode ∈ Dnp3Anomaly.writeFc then
    if isAuthorized authorized packet.src.str then return []
    return [.alert (Dnp3Anomaly.writeAlert packet.src packet.dst functionCode)]
  return []

/--
The beginning of the `process_packet` of a telemetry producer: the event of a segment sent to
`port`, as a dictionary.
-/
def eventAt {Event : Type} (port : UInt16) (decode : Bytes → Py (Option Event))
    (fields : Event → Dict) (packet : Packet) : Py (Option Dict) := do
  if packet.tcp?.isNone ∨ packet.load?.isNone then return none
  let tcp ← tcpLayer packet
  if tcp.dport ≠ port then return none
  let event ← decode (← rawLoad packet)
  return event.map fields

/-- `dnp3_dpi.process_packet`. -/
def dnp3Dpi (masters : List Nat) (packet : Packet) : Py (List SinkCall) := do
  match ← eventAt Dnp3Dpi.port Dnp3.decode Dnp3.Event.fields packet with
  | none => return []
  | some event =>
    let push := pushToLoki "dnp3" event packet
    if (← subscript event "direction") ≠ .str "request" then return [push]
    let functionCode ← subscript event "function_code"
    let linkSource ← subscript event "link_source"
    let linkDestination ← subscript event "link_destination"
    let functionName ← subscript event "function_name"
    let base : Dict :=
      [ ("protocol", .str "dnp3"),
        ("link_source", linkSource),
        ("link_destination", linkDestination),
        ("function_code", functionCode),
        ("function_name", functionName),
        ("source_ip", .str packet.src.str),
        ("dest_ip", .str packet.dst.str) ]
    return push ::
      ((if functionCode ∈ codes Dnp3.controlFunctions ∧
          linkSource ∉ masters.map (fun n => Value.int (n : Nat)) then
        [writeAlert (Dnp3Dpi.unauthorizedControl ++ base)] else [])
      ++ (if functionCode ∈ codes Dnp3.restartFunctions then
        [writeAlert (Dnp3Dpi.restartCommand ++ base)] else [])
      ++ (if functionCode ∈ codes Dnp3.unsolicitedDisable then
        [writeAlert (Dnp3Dpi.unsolicitedDisabled ++ base)] else []))

/-- `s7comm_dpi.process_packet`. -/
def s7commDpi (packet : Packet) : Py (List SinkCall) := do
  match ← eventAt S7commDpi.port S7comm.decode S7comm.Event.fields packet with
  | none => return []
  | some event =>
    let push := pushToLoki "s7comm" event packet
    if get event "direction" ≠ .str "request" ∨ (event.lookup "function_code").isNone then
      return [push]
    let functionCode ← subscript event "function_code"
    let base : Dict :=
      [ ("protocol", .str "s7comm"),
        ("function_code", functionCode),
        ("function_name", get event "function_name"),
        ("pdu_reference", get event "pdu_reference"),
        ("rosctr", get event "rosctr"),
        ("source_ip", .str packet.src.str),
        ("dest_ip", .str packet.dst.str) ]
    if functionCode ∈ codes S7commDpi.programDownload then
      return [push, writeAlert (
        [ ("alert_type", .str "S7COMM_PROGRAM_DOWNLOAD"),
          ("mitre_id", .str "T0843"),
          ("description", .str "S7comm program block download to a controller.") ] ++ base)]
    if functionCode ∈ codes S7commDpi.programUpload then
      return [push, writeAlert (
        [ ("alert_type", .str "S7COMM_PROGRAM_UPLOAD"),
          ("mitre_id", .str "T0845"),
          ("description", .str "S7comm program block upload from a controller.") ] ++ base)]
    if functionCode ∈ codes S7commDpi.controlOrStop then
      return [push, writeAlert (
        [ ("alert_type", .str "S7COMM_CHANGE_OPERATING_MODE"),
          ("mitre_id", .str "T0858"),
          ("description", .str "S7comm PLC Control or PLC Stop requested.") ] ++ base)]
    return [push]

/-- `DETECTIONS.get(service)`. -/
def detectionOf : Value → Option (String × String × String)
  | .str name => OpcUaDpi.detections.lookup name
  | _ => none

/-- `opcua_dpi.process_packet`. -/
def opcuaDpi (packet : Packet) : Py (List SinkCall) := do
  match ← eventAt OpcUaDpi.port OpcUa.decode OpcUa.Event.fields packet with
  | none => return []
  | some event =>
    let push := pushToLoki "opcua" event packet
    if get event "direction" ≠ .str "request" then return [push]
    match detectionOf (get event "opcua_service") with
    | none => return [push]
    | some (alertType, mitreId, description) =>
      return [push, writeAlert
        [ ("alert_type", .str alertType),
          ("mitre_id", .str mitreId),
          ("description", .str description),
          ("protocol", .str "opcua"),
          ("opcua_service", get event "opcua_service"),
          ("service_id", get event "service_id"),
          ("secure_channel_id", get event "secure_channel_id"),
          ("request_id", get event "request_id"),
          ("source_ip", .str packet.src.str),
          ("dest_ip", .str packet.dst.str) ]]

/-- `shadow_registers`. -/
abbrev Registers := Int → Option Nat

/-- `reset_state` of `process_safety_violation.py`. -/
def resetState (cfg : ProcessSafety.Config) : Registers :=
  Function.update (Function.update (fun _ => none) cfg.inletValveReg (some 0))
    cfg.tankLevelReg (some 0)

/-- `shadow_registers[register]`. -/
def readRegister (registers : Registers) (register : Int) : Py Nat :=
  match registers register with
  | some value => .ok value
  | none => .error .keyError

/-- Part 1 of `process_safety_violation.process_packet`. -/
def learn (cfg : ProcessSafety.Config) (srcIp : IPv4) (funcCode : UInt8) (payload : Bytes)
    (registers : Registers) : Py Registers :=
  if srcIp = cfg.plcIp ∧ funcCode = 3 ∧ 9 ≤ payload.length then do
    let byteCount ← getByte payload 8
    let registerCount := byteCount.toNat / 2
    if cfg.tankLevelReg < registerCount then
      let offset := 9 + cfg.tankLevelReg * 2
      return Function.update registers cfg.tankLevelReg
        (some (fromBig (sliceAt payload offset (offset + 2))))
    else return registers
  else .ok registers

/-- The body of the loop of part 2. -/
def enforce (cfg : ProcessSafety.Config) (srcIp : IPv4) (st : Registers × List SinkCall)
    (write : Int × Nat) : Py (Registers × List SinkCall) :=
  if write.1 ≠ cfg.inletValveReg then .ok st
  else if write.2 = 1 then do
    let currentLevel ← readRegister st.1 cfg.tankLevelReg
    let calls :=
      if cfg.levelThreshold < currentLevel then
        st.2 ++ ProcessSafety.logAlert cfg srcIp currentLevel
      else st.2
    return (Function.update st.1 cfg.inletValveReg (some write.2), calls)
  else .ok (Function.update st.1 cfg.inletValveReg (some write.2), st.2)

/-- `process_safety_violation.process_packet`: the registers and the sink calls. -/
def processSafety (cfg : ProcessSafety.Config) (packet : Packet) (registers : Registers) :
    Py (Registers × List SinkCall) := do
  if packet.load?.isNone then return (registers, [])
  let payload ← rawLoad packet
  if payload.length < 8 then return (registers, [])
  let funcCode ← getByte payload 7
  let registers ← learn cfg packet.src funcCode payload registers
  if packet.dst = cfg.plcIp ∧ (funcCode = 6 ∨ funcCode = 16) then
    let writes ← ProcessSafety.iterWrites payload funcCode
    writes.foldlM (enforce cfg packet.src) (registers, [])
  else return (registers, [])

/-- One more packet of a capture. -/
def monitor (cfg : ProcessSafety.Config) (st : Registers × List SinkCall) (packet : Packet) :
    Py (Registers × List SinkCall) := do
  let (registers, calls) ← processSafety cfg packet st.1
  return (registers, st.2 ++ calls)

/-- `ot_brute_force.process_packet`, with the alerts written so far. -/
def bruteForce (windowSeconds : ℚ) (errorThreshold : Nat)
    (st : BruteForce.ErrorTracker × List Dict) (x : BruteForce.Sighting) :
    Py (BruteForce.ErrorTracker × List Dict) := do
  let (tracker, alerts) := st
  if x.packet.load?.isNone then return st
  let payload ← rawLoad x.packet
  if payload.length < 8 then return st
  let functionCode ← getByte payload 7
  if 128 < functionCode then
    let times := Lib.inWindow windowSeconds x.now (tracker x.packet.src ++ [x.now])
    if errorThreshold ≤ times.length then
      return (Function.update tracker x.packet.src [],
        alerts ++ [BruteForce.alert x.packet.src times.length])
    return (Function.update tracker x.packet.src times, alerts)
  return st

/-! ## Every handler is that of its module -/

/-- The beginning of a producer does not raise when its decoder does not. -/
theorem eventAt_eq {Event : Type} {port : UInt16} {decode : Bytes → Py (Option Event)}
    {fields : Event → Dict} {d : Bytes → Option Event} (hd : ∀ p, decode p = .ok (d p))
    (packet : Packet) :
    eventAt port decode fields packet
      = .ok (((payloadTo port packet).bind d).map fields) := by
  unfold eventAt payloadTo tcpLayer rawLoad
  cases packet.tcp? with
  | none => rfl
  | some h =>
    cases packet.load? with
    | none => simp [pure, Except.pure]
    | some payload =>
      show (if h.dport ≠ port then _ else _ : Py (Option Dict)) = _
      by_cases hp : h.dport = port
      · dsimp only
        rw [if_neg (not_not.mpr hp), if_pos hp, Option.bind_some]
        show decode payload >>= _ = _
        rw [hd]
        rfl
      · dsimp only
        rw [if_pos hp, if_neg hp]
        rfl

/-- A producer whose decoder does not raise. -/
theorem produce_eq {Event : Type} {service : String} {port : UInt16}
    {decode : Bytes → Py (Option Event)} {fields : Event → Dict}
    {alerts : Event → Packet → List Dict} {d : Bytes → Option Event}
    (hd : ∀ p, decode p = .ok (d p)) (packet : Packet) :
    produce service port decode fields alerts packet
      = .ok (((payloadTo port packet).bind d).elim [] fun event =>
          pushToLoki service (fields event) packet :: (alerts event packet).map writeAlert) := by
  unfold produce
  cases payloadTo port packet with
  | none => rfl
  | some payload =>
    dsimp only
    rw [hd, Option.bind_some]
    cases d payload with
    | none => rfl
    | some event => rfl

theorem int_mem_codes {b : UInt8} {l : List UInt8} : Value.int b.toNat ∈ codes l ↔ b ∈ l := by
  unfold codes
  rw [List.mem_map]
  constructor
  · rintro ⟨b', hb', heq⟩
    rw [Value.int.injEq, Int.natCast_inj, UInt8.toNat_inj] at heq
    exact heq ▸ hb'
  · exact fun h => ⟨b, h, rfl⟩

theorem int_mem_masters {n : Nat} {masters : List Nat} :
    Value.int n ∈ masters.map (fun n => Value.int (n : Nat)) ↔ n ∈ masters := by
  rw [List.mem_map]
  constructor
  · rintro ⟨m, hm, heq⟩
    rw [Value.int.injEq, Int.natCast_inj] at heq
    exact heq ▸ hm
  · exact fun h => ⟨n, h, rfl⟩

theorem text_eq_request {d : Direction} : Value.str d.text = .str "request" ↔ d = .request := by
  cases d <;> decide

theorem dnp3Dpi_eq (masters : List Nat) (packet : Packet) :
    dnp3Dpi masters packet = Dnp3Dpi.processPacket masters packet := by
  unfold dnp3Dpi Dnp3Dpi.processPacket
  rw [eventAt_eq Dnp3.decode_eq, produce_eq Dnp3.decode_eq]
  cases (payloadTo Dnp3Dpi.port packet).bind _ with
  | none => rfl
  | some e =>
    show (if Value.str e.direction.text ≠ .str "request" then _ else _ : Py (List SinkCall)) = _
    unfold Dnp3Dpi.alerts
    by_cases hd : e.direction = .request
    · rw [if_neg (not_not.mpr (text_eq_request.mpr hd)), Option.elim_some,
        if_neg (not_not.mpr hd)]
      show Except.ok (_ :: ((if Value.int e.functionCode.toNat ∈ _ ∧ Value.int e.linkSource ∉ _
        then _ else _) ++ (if Value.int e.functionCode.toNat ∈ _ then _ else _) ++
        (if Value.int e.functionCode.toNat ∈ _ then _ else _))) = _
      simp only [int_mem_codes, int_mem_masters, List.map_append, apply_ite (List.map writeAlert)]
      rfl
    · rw [if_pos (fun h => hd (text_eq_request.mp h)), Option.elim_some, if_pos hd]
      rfl

theorem s7commDpi_eq (packet : Packet) : s7commDpi packet = S7commDpi.processPacket packet := by
  unfold s7commDpi S7commDpi.processPacket
  rw [eventAt_eq S7comm.decode_eq, produce_eq S7comm.decode_eq]
  cases (payloadTo S7commDpi.port packet).bind _ with
  | none => rfl
  | some e =>
    cases e with
    | connection cotpType => rfl
    | pdu p =>
      obtain ⟨rosctr, pduReference, parameterLength, dataLength, cotpType, functionCode⟩ := p
      let direction := if rosctr = 1 then Direction.request else .response
      cases functionCode with
      | none =>
        show (if Value.str direction.text ≠ .str "request" ∨ true = true then _ else _ :
          Py (List SinkCall)) = _
        rw [if_pos (Or.inr rfl), Option.elim_some]
        unfold S7commDpi.alerts
        dsimp only
        split <;> rfl
      | some functionCode =>
        show (if Value.str direction.text ≠ .str "request" ∨ false = true then _ else _ :
          Py (List SinkCall)) = _
        rw [Option.elim_some]
        unfold S7commDpi.alerts
        show _ = Except.ok (_ :: (if direction ≠ .request then [] else _).map writeAlert)
        by_cases hd : direction = .request
        · rw [if_neg (not_or.mpr ⟨not_not.mpr (text_eq_request.mpr hd), Bool.false_ne_true⟩),
            if_neg (not_not.mpr hd)]
          show (if Value.int functionCode.toNat ∈ _ then _ else
            if Value.int functionCode.toNat ∈ _ then _ else
            if Value.int functionCode.toNat ∈ _ then _ else _ : Py (List SinkCall)) = _
          simp only [int_mem_codes, S7commDpi.detection]
          split
          · rfl
          split
          · rfl
          split <;> rfl
        · rw [if_pos (Or.inl fun h => hd (text_eq_request.mp h)), if_pos hd]
          rfl

/-- `event.get(key)` is the entry, or `None`. -/
theorem get_eq {e : Dict} {key : String} {v : Option Value} (h : e.lookup key = v) :
    get e key = v.getD .none := congrArg (Option.getD · Value.none) h

theorem getD_eq_valueOrNone (o : Option Nat) :
    (o.map fun n => Value.int (n : Nat)).getD .none = OpcUaDpi.valueOrNone o := by
  cases o <;> rfl

theorem opcuaDpi_eq (packet : Packet) : opcuaDpi packet = OpcUaDpi.processPacket packet := by
  unfold opcuaDpi OpcUaDpi.processPacket
  rw [eventAt_eq OpcUa.decode_eq, produce_eq OpcUa.decode_eq]
  cases (payloadTo OpcUaDpi.port packet).bind _ with
  | none => rfl
  | some e =>
    show (if get e.fields "direction" ≠ .str "request" then _ else _ : Py (List SinkCall)) = _
    rw [get_eq (OpcUa.lookup_direction e), Option.elim_some]
    unfold OpcUaDpi.alerts
    cases hs : e.service with
    | none =>
      rw [if_pos (by simp)]
      rfl
    | some s =>
      rw [Option.map_some, Option.getD_some]
      dsimp only
      by_cases hd : s.direction = .request
      · rw [if_neg (not_not.mpr (text_eq_request.mpr hd)), if_neg (not_not.mpr hd)]
        have hservice := OpcUa.lookup_opcuaService e
        have hid := OpcUa.lookup_serviceId e
        rw [hs, Option.map_some] at hservice hid
        rw [get_eq hservice, get_eq hid, get_eq (OpcUa.lookup_secureChannelId e),
          get_eq (OpcUa.lookup_requestId e), getD_eq_valueOrNone, getD_eq_valueOrNone]
        show (match OpcUaDpi.detections.lookup s.name with
          | none => _
          | some (alertType, mitreId, description) => _ : Py (List SinkCall)) = _
        cases OpcUaDpi.detections.lookup s.name with
        | none => rfl
        | some d => rfl
      · rw [if_pos (fun h => hd (text_eq_request.mp h)), if_pos hd]
        rfl

/-- The source of an IPv4 header is always an address. -/
theorem isAuthorized_str {authorized : List IPv4} {x : IPv4} :
    isAuthorized authorized x.str = true ↔ x ∈ authorized := by
  unfold isAuthorized
  rw [ipAddress_str]
  dsimp only
  rw [decide_eq_true_iff, List.mem_map]
  constructor
  · rintro ⟨y, hy, heq⟩
    exact IpAddress.v4.inj heq ▸ hy
  · exact fun h => ⟨x, h, rfl⟩

/-- An alert on a write of a source that is not authorized. -/
theorem ite_isAuthorized {authorized : List IPv4} {x : IPv4} {p : Prop} [Decidable p]
    (calls : List SinkCall) :
    (if p then if isAuthorized authorized x.str then .ok [] else .ok calls else .ok [] :
      Py (List SinkCall)) = if p ∧ x ∉ authorized then .ok calls else .ok [] := by
  by_cases hp : p
  · by_cases hx : x ∈ authorized
    · rw [if_pos hp, if_pos (isAuthorized_str.mpr hx), if_neg fun h => h.2 hx]
    · rw [if_pos hp, if_neg (isAuthorized_str.not.mpr hx), if_pos ⟨hp, hx⟩]
  · rw [if_neg hp, if_neg fun h => hp h.1]

theorem modbusAnomaly_eq (authorized : List IPv4) (packet : Packet) :
    modbusAnomaly authorized packet = ModbusAnomaly.processPacket authorized packet := by
  unfold modbusAnomaly ModbusAnomaly.processPacket payloadTo tcpLayer rawLoad
  cases packet.tcp? with
  | none => rfl
  | some h =>
    dsimp only
    show (if h.dport ≠ ModbusAnomaly.modbusPort then _ else _ : Py (List SinkCall)) = _
    by_cases hp : h.dport = ModbusAnomaly.modbusPort
    · rw [if_neg (not_not.mpr hp), if_pos hp]
      cases packet.load? with
      | none => rfl
      | some payload =>
        show (if payload.length < 8 then _ else _ : Py (List SinkCall)) = _
        dsimp only
        by_cases hlen : payload.length < 8
        · rw [if_pos hlen, if_pos hlen]
          rfl
        · rw [if_neg hlen, if_neg hlen, getByte_of_some (getElem?_eq_getD (by omega))]
          exact ite_isAuthorized _
    · rw [if_pos hp, if_neg hp]
      rfl

theorem dnp3Anomaly_eq (authorized : List IPv4) (packet : Packet) :
    dnp3Anomaly authorized packet = Dnp3Anomaly.processPacket authorized packet := by
  unfold dnp3Anomaly Dnp3Anomaly.processPacket payloadTo tcpLayer rawLoad
  cases packet.tcp? with
  | none => rfl
  | some h =>
    dsimp only
    show (if h.dport ≠ Dnp3Anomaly.dnp3Port then _ else _ : Py (List SinkCall)) = _
    by_cases hp : h.dport = Dnp3Anomaly.dnp3Port
    · rw [if_neg (not_not.mpr hp), if_pos hp]
      cases packet.load? with
      | none => rfl
      | some payload =>
        show (if payload.length < 12 then _ else _ : Py (List SinkCall)) = _
        dsimp only
        by_cases hlen : payload.length < 12
        · rw [if_pos hlen, if_pos hlen]
          rfl
        · rw [if_neg hlen, if_neg hlen, getByte_of_some (getElem?_eq_getD (i := 0) (by omega)),
            getByte_of_some (getElem?_eq_getD (i := 1) (by omega)),
            getByte_of_some (getElem?_eq_getD (i := 11) (by omega))]
          show (if payload.getD 0 0 ≠ 0x05 then _ else if payload.getD 1 0 ≠ 0x64 then _ else _ :
            Py (List SinkCall)) = if payload.getD 0 0 ≠ 0x05 ∨ payload.getD 1 0 ≠ 0x64 then _ else _
          by_cases h0 : payload.getD 0 0 ≠ 0x05
          · rw [if_pos h0, if_pos (Or.inl h0)]
          by_cases h1 : payload.getD 1 0 ≠ 0x64
          · rw [if_neg h0, if_pos h1, if_pos (Or.inr h1)]
          rw [if_neg h0, if_neg h1, if_neg (not_or.mpr ⟨h0, h1⟩)]
          exact ite_isAuthorized _
    · rw [if_pos hp, if_neg hp]
      rfl

theorem bruteForce_eq (windowSeconds : ℚ) (errorThreshold : Nat)
    (st : BruteForce.ErrorTracker × List Dict) (x : BruteForce.Sighting) :
    bruteForce windowSeconds errorThreshold st x
      = .ok (BruteForce.handle windowSeconds errorThreshold st x) := by
  obtain ⟨tracker, alerts⟩ := st
  unfold bruteForce BruteForce.handle BruteForce.processPacket Packet.functionCode? rawLoad
  cases x.packet.load? with
  | none => exact congrArg (fun l => Except.ok (tracker, l)) (List.append_nil alerts).symm
  | some payload =>
    show (if payload.length < 8 then _ else _ : Py (BruteForce.ErrorTracker × List Dict)) = _
    rw [Option.bind_some]
    by_cases hlen : payload.length < 8
    · rw [if_pos hlen, List.getElem?_eq_none (by omega)]
      exact congrArg (fun l => Except.ok (tracker, l)) (List.append_nil alerts).symm
    · have hget : payload[7]? = some (payload.getD 7 0) := getElem?_eq_getD (by omega)
      rw [if_neg hlen, getByte_of_some hget, hget]
      show (if 128 < payload.getD 7 0 then if _ then _ else _ else _ :
        Py (BruteForce.ErrorTracker × List Dict)) = _
      dsimp only
      by_cases hcode : 128 < payload.getD 7 0
      · rw [if_pos hcode, if_pos hcode]
        split
        · rfl
        · exact congrArg (fun l => Except.ok (_, l)) (List.append_nil alerts).symm
      · rw [if_neg hcode, if_neg hcode]
        exact congrArg (fun l => Except.ok (tracker, l)) (List.append_nil alerts).symm

/-! ## The shadow registers -/

section Shadow

variable {cfg : ProcessSafety.Config} {registers : Registers} {shadow : ProcessSafety.Shadow}

/-- Both registers have a key, with the values of the shadow. -/
def Shadows (cfg : ProcessSafety.Config) (registers : Registers)
    (shadow : ProcessSafety.Shadow) : Prop :=
  registers cfg.inletValveReg = some (shadow cfg.inletValveReg) ∧
    registers cfg.tankLevelReg = some (shadow cfg.tankLevelReg)

theorem shadows_resetState (cfg : ProcessSafety.Config) :
    Shadows cfg (resetState cfg) ProcessSafety.resetState := by
  unfold Shadows resetState ProcessSafety.resetState
  constructor
  · by_cases h : cfg.inletValveReg = cfg.tankLevelReg
    · rw [h, Function.update_self]
    · rw [Function.update_of_ne h, Function.update_self]
  · rw [Function.update_self]

theorem update_eq_some {r : Int} (h : registers r = some (shadow r)) (register : Int)
    (value : Nat) :
    Function.update registers register (some value) r
      = some (Function.update shadow register value r) := by
  by_cases hr : r = register
  · subst hr
    rw [Function.update_self, Function.update_self]
  · rw [Function.update_of_ne hr, Function.update_of_ne hr, h]

theorem Shadows.update (h : Shadows cfg registers shadow) (register : Int) (value : Nat) :
    Shadows cfg (Function.update registers register (some value))
      (Function.update shadow register value) :=
  ⟨update_eq_some h.1 register value, update_eq_some h.2 register value⟩

theorem learn_simulates (h : Shadows cfg registers shadow) (srcIp : IPv4) (funcCode : UInt8)
    (payload : Bytes) :
    ∃ registers' shadow', learn cfg srcIp funcCode payload registers = .ok registers' ∧
      ProcessSafety.learn cfg srcIp funcCode payload shadow = .ok shadow' ∧
      Shadows cfg registers' shadow' := by
  unfold learn ProcessSafety.learn
  by_cases hread : srcIp = cfg.plcIp ∧ funcCode = 3 ∧ 9 ≤ payload.length
  · rw [if_pos hread, if_pos hread, getByte_of_some (getElem?_eq_getD (i := 8) (by omega))]
    by_cases hcount : cfg.tankLevelReg < ((payload.getD 8 0).toNat / 2 : Nat)
    · refine ⟨_, _, if_pos hcount, if_pos hcount, h.update _ _⟩
    · refine ⟨_, _, if_neg hcount, if_neg hcount, h⟩
  · rw [if_neg hread, if_neg hread]
    exact ⟨_, _, rfl, rfl, h⟩

/-- The registers and sink calls of a handler and of the one over the shadow. -/
def Simulates (cfg : ProcessSafety.Config) (st : Registers × List SinkCall)
    (st' : ProcessSafety.Shadow × List SinkCall) : Prop :=
  Shadows cfg st.1 st'.1 ∧ st.2 = st'.2

theorem enforce_simulates (srcIp : IPv4) (st : Registers × List SinkCall)
    (st' : ProcessSafety.Shadow × List SinkCall) (write : Int × Nat) (h : Simulates cfg st st') :
    ∃ st₁, enforce cfg srcIp st write = .ok st₁ ∧
      Simulates cfg st₁ (ProcessSafety.enforce cfg srcIp st' write) := by
  obtain ⟨registers, calls⟩ := st
  obtain ⟨shadow, calls'⟩ := st'
  obtain ⟨hshadows, rfl⟩ := h
  unfold enforce ProcessSafety.enforce
  by_cases hreg : write.1 ≠ cfg.inletValveReg
  · rw [if_pos hreg, if_pos hreg]
    exact ⟨_, rfl, hshadows, rfl⟩
  · rw [if_neg hreg, if_neg hreg]
    by_cases hopen : write.2 = 1
    · have hread : readRegister registers cfg.tankLevelReg = .ok (shadow cfg.tankLevelReg) := by
        have hlevel : registers cfg.tankLevelReg = _ := hshadows.2
        unfold readRegister
        rw [hlevel]
      rw [if_pos hopen]
      dsimp only
      rw [hread]
      refine ⟨_, rfl, hshadows.update _ _, ?_⟩
      simp only [hopen, true_and]
    · rw [if_neg hopen]
      refine ⟨_, rfl, hshadows.update _ _, ?_⟩
      simp only [hopen, false_and, if_false]

/-- A packet is handled as by `ProcessSafety.processPacket`. -/
theorem processSafety_simulates (h : Shadows cfg registers shadow) (packet : Packet) :
    ∃ st st', processSafety cfg packet registers = .ok st ∧
      ProcessSafety.processPacket cfg packet shadow = .ok st' ∧ Simulates cfg st st' := by
  unfold processSafety ProcessSafety.processPacket rawLoad
  cases packet.load? with
  | none => exact ⟨_, _, rfl, rfl, h, rfl⟩
  | some payload =>
    dsimp only
    show ∃ st st', (if payload.length < 8 then _ else _ : Py (Registers × List SinkCall)) = _ ∧ _
    by_cases hlen : payload.length < 8
    · rw [if_pos hlen, if_pos hlen]
      exact ⟨_, _, rfl, rfl, h, rfl⟩
    rw [if_neg hlen, if_neg hlen, getByte_of_some (getElem?_eq_getD (by omega))]
    obtain ⟨registers', shadow', hlearn, hlearn', h'⟩ :=
      learn_simulates h packet.src (payload.getD 7 0) payload
    obtain ⟨writes, hwrites⟩ := ProcessSafety.exists_iterWrites payload (payload.getD 7 0)
    show ∃ st st', (learn cfg packet.src (payload.getD 7 0) payload registers >>= _) = _ ∧
      (ProcessSafety.learn cfg packet.src (payload.getD 7 0) payload shadow >>= _) = _ ∧ _
    rw [hlearn, hlearn']
    show ∃ st st', (if packet.dst = cfg.plcIp ∧ (payload.getD 7 0 = 6 ∨ payload.getD 7 0 = 16) then
        _ else _ : Py (Registers × List SinkCall)) = _ ∧
      (if packet.dst = cfg.plcIp ∧ (payload.getD 7 0 = 6 ∨ payload.getD 7 0 = 16) then
        _ else _ : Py (ProcessSafety.Shadow × List SinkCall)) = _ ∧ _
    by_cases hwrite : packet.dst = cfg.plcIp ∧ (payload.getD 7 0 = 6 ∨ payload.getD 7 0 = 16)
    · rw [if_pos hwrite, if_pos hwrite, hwrites]
      obtain ⟨st, hst, hsim⟩ := Lib.foldlM_simulates (Simulates cfg)
        (enforce_simulates packet.src) writes (s := (registers', [])) (t := (shadow', [])) ⟨h', rfl⟩
      exact ⟨st, _, hst, rfl, hsim⟩
    · rw [if_neg hwrite, if_neg hwrite]
      exact ⟨_, _, rfl, rfl, h', rfl⟩

theorem monitor_succeeds (cfg : ProcessSafety.Config) (st : Registers × List SinkCall)
    (packet : Packet) (h : ∃ shadow, Shadows cfg st.1 shadow) :
    ∃ st₁, monitor cfg st packet = .ok st₁ ∧ ∃ shadow, Shadows cfg st₁.1 shadow := by
  obtain ⟨shadow, h⟩ := h
  obtain ⟨st₁, st', hst₁, -, hsim⟩ := processSafety_simulates h packet
  refine ⟨(st₁.1, st.2 ++ st₁.2), ?_, st'.1, hsim.1⟩
  unfold monitor
  rw [hst₁]
  rfl

/-- The monitor does not raise, whatever it has seen before. -/
theorem monitor_never_raises (cfg : ProcessSafety.Config) (packets : List Packet) :
    ∃ st, packets.foldlM (monitor cfg) (resetState cfg, []) = .ok st := by
  have hreset : ∃ shadow, Shadows cfg (resetState cfg) shadow := ⟨_, shadows_resetState cfg⟩
  obtain ⟨st, hst, -⟩ := Lib.foldlM_succeeds
    (fun st : Registers × List SinkCall => ∃ shadow, Shadows cfg st.1 shadow)
    (monitor_succeeds cfg) packets (s := (resetState cfg, [])) hreset
  exact ⟨st, hst⟩

end Shadow

/-! ## No packet makes a handler raise -/

theorem bruteForce_never_raises (windowSeconds : ℚ) (errorThreshold : Nat)
    (xs : List BruteForce.Sighting) :
    ∃ st, xs.foldlM (bruteForce windowSeconds errorThreshold) (fun _ => [], []) = .ok st := by
  obtain ⟨st, hst, -⟩ := Lib.foldlM_succeeds (fun _ => True)
    (fun st x _ => ⟨_, bruteForce_eq windowSeconds errorThreshold st x, trivial⟩) xs trivial
  exact ⟨st, hst⟩

theorem exists_ite_ok {p : Prop} [Decidable p] (a b : List SinkCall) :
    ∃ calls, (if p then .ok a else .ok b : Py (List SinkCall)) = .ok calls :=
  ⟨_, (apply_ite Except.ok p a b).symm⟩

theorem exists_modbusAnomaly (authorized : List IPv4) (packet : Packet) :
    ∃ calls, modbusAnomaly authorized packet = .ok calls := by
  rw [modbusAnomaly_eq]
  unfold ModbusAnomaly.processPacket
  cases payloadTo ModbusAnomaly.modbusPort packet with
  | none => exact ⟨_, rfl⟩
  | some payload =>
    dsimp only
    split
    · exact ⟨_, rfl⟩
    · rw [getByte_of_some (getElem?_eq_getD (by omega))]
      exact exists_ite_ok _ _

theorem exists_dnp3Anomaly (authorized : List IPv4) (packet : Packet) :
    ∃ calls, dnp3Anomaly authorized packet = .ok calls := by
  rw [dnp3Anomaly_eq]
  unfold Dnp3Anomaly.processPacket
  cases payloadTo Dnp3Anomaly.dnp3Port packet with
  | none => exact ⟨_, rfl⟩
  | some payload =>
    dsimp only
    split
    · exact ⟨_, rfl⟩
    · rw [getByte_of_some (getElem?_eq_getD (i := 0) (by omega)),
        getByte_of_some (getElem?_eq_getD (i := 1) (by omega)),
        getByte_of_some (getElem?_eq_getD (i := 11) (by omega))]
      show ∃ calls, (if payload.getD 0 0 ≠ 0x05 ∨ payload.getD 1 0 ≠ 0x64 then _ else _ :
        Py (List SinkCall)) = _
      split
      · exact ⟨_, rfl⟩
      · exact exists_ite_ok _ _

/--
**No packet makes the handler of a sensor raise.**

The monitor and the brute-force detector keep a state, so they are stated over whole captures.
-/
theorem sensors_never_raise (writers operators : List IPv4) (masters : List Nat)
    (cfg : ProcessSafety.Config) (windowSeconds : ℚ) (errorThreshold : Nat) :
    (∀ packet, (∃ calls, modbusAnomaly writers packet = .ok calls) ∧
      (∃ calls, dnp3Anomaly operators packet = .ok calls) ∧
      (∃ calls, dnp3Dpi masters packet = .ok calls) ∧
      (∃ calls, s7commDpi packet = .ok calls) ∧
      ∃ calls, opcuaDpi packet = .ok calls) ∧
    (∀ packets : List Packet,
      ∃ st, packets.foldlM (monitor cfg) (resetState cfg, []) = .ok st) ∧
    ∀ xs : List BruteForce.Sighting,
      ∃ st, xs.foldlM (bruteForce windowSeconds errorThreshold) (fun _ => [], []) = .ok st := by
  refine ⟨fun packet => ⟨exists_modbusAnomaly writers packet, exists_dnp3Anomaly operators packet,
    ?_, ?_, ?_⟩, monitor_never_raises cfg, bruteForce_never_raises windowSeconds errorThreshold⟩
  · exact ⟨_, (dnp3Dpi_eq masters packet).trans (produce_eq Dnp3.decode_eq packet)⟩
  · exact ⟨_, (s7commDpi_eq packet).trans (produce_eq S7comm.decode_eq packet)⟩
  · exact ⟨_, (opcuaDpi_eq packet).trans (produce_eq OpcUa.decode_eq packet)⟩

end OtLab.Sensors
