import OtLab.Attack.SimulateDnp3
import OtLab.Detection.SharedLog
import OtLab.Governance.SecurityTests

/-!
# The attack simulations

Four scripts of the test suite and two playbooks send crafted packets; the processes that sniff
handle them among all other traffic, and the test suite reads the log they share.

* `gained_of_packet`, `gained_of_exceptions`, `gained_of_spoofed_level` — what a packet, a burst and
  a spoofed response with the write behind it leave in the log
* `unseen_of_missed` — one type that a playbook expects is left by none of its packets
* `simulations_pass` — what else a simulation is to leave in the log is there, and its tests pass
-/

namespace OtLab.Simulations

open AlertLog Lib LoginMonitor SecurityTests SharedLog

/-! ## The scripts -/

/-- `send_modbus_packet`: a SYN that carries a request, as the capture library builds it. -/
def sendModbusPacket (src target : IPv4) (functionCode unitId : UInt8) (payload : Bytes) : Packet :=
  let mbap : Bytes := [0x00, 0x01, 0x00, 0x00, 0x00, 0x06] ++ [unitId]
  let modbusData : Bytes := [functionCode] ++ payload
  .segment src target ⟨20, ModbusAnomaly.modbusPort, 0x02⟩ (mbap ++ modbusData)

/-- `PLC_IP`, the intake PLC. -/
def plcIp : IPv4 := ⟨172, 21, 0, 10⟩

/-- A read, a write and seven exceptions. -/
def functionCodes : List UInt8 := [3, 6] ++ List.replicate 7 131

/-- The packets of `simulate_attack.py`. -/
def attackPackets (src : IPv4) : List Packet := functionCodes.map fun functionCode =>
  sendModbusPacket src plcIp functionCode 1 [0x00, 0x01, 0x00, 0x01]

/-- The packets of `simulate_lateral_movement.py`: `send_modbus_read` of each PLC. -/
def lateralPackets (src : IPv4) : List Packet :=
  [plcIp, ⟨172, 21, 0, 11⟩, ⟨172, 21, 0, 12⟩].map fun target =>
    sendModbusPacket src target 3 1 [0x00, 0x00, 0x00, 0x01]

/-- The applications `simulate_dnp3_attack.py` sends. -/
def applications : List Bytes :=
  [ [0xC0, 0x01, 0x3C, 0x02, 0x06],
    [0xC0, 0x05, 0x0C, 0x01, 0x17, 0x01, 0x00, 0x03],
    [0xC0, 0x03, 0x0C, 0x01, 0x17, 0x01, 0x01, 0x03],
    [0xC0, 0x04, 0x0C, 0x01, 0x17, 0x01, 0x01, 0x03],
    [0xC0, 0x0D],
    [0xC0, 0x15, 0x3C, 0x02, 0x06, 0x3C, 0x03, 0x06, 0x3C, 0x04, 0x06] ]

/-- `MASTER_ADDR` and `OUTSTATION_ADDR`. -/
def masterAddr : UInt16 := 3

def outstationAddr : UInt16 := 10

/-- The segments of `simulate_dnp3_attack.py`, one for each `send`. -/
def dnp3Packets (src dst : IPv4) (header : TcpHeader) : List Packet :=
  applications.filterMap fun application =>
    match SimulateDnp3.linkFrame masterAddr outstationAddr application 0xC4 with
    | .ok frame => some (.segment src dst header frame)
    | .error _ => none

/-- `send_raw_modbus` of `simulate_process_violation_spoof.py`. -/
def sendRawModbus (src dst : IPv4) (sport dport : UInt16) (payload : Bytes) : Packet :=
  .segment src dst ⟨sport, dport, 0x02⟩ payload

/-- A response in the name of the intake PLC: the tank level is 95. -/
def spoofedLevel : Packet :=
  let mbapResp : Bytes := [0x00, 0x01, 0x00, 0x00, 0x00, 0x0F, 0x01]
  let fcResp : Bytes := [0x03, 0x0C]
  let regData : Bytes := List.replicate 10 0x00 ++ [0x00, 0x5F]
  sendRawModbus plcIp hmiHost ModbusAnomaly.modbusPort 45000 (mbapResp ++ fcResp ++ regData)

/-- The packets of `simulate_process_violation_spoof.py`. -/
def spoofPackets : List Packet :=
  let mbapWrite : Bytes := [0x00, 0x02, 0x00, 0x00, 0x00, 0x06, 0x01]
  let fcWrite : Bytes := [0x06, 0x00, 0x00, 0x00, 0x01]
  [ spoofedLevel,
    sendRawModbus hmiHost plcIp 45000 ModbusAnomaly.modbusPort (mbapWrite ++ fcWrite) ]

/-- `modbus_packet` of both playbooks. -/
def modbusPacket (src dst : IPv4) (functionCode : UInt8) (payload : Bytes) : Packet :=
  sendModbusPacket src dst functionCode 1 payload

/-- `PLCS` -/
def plcs : List IPv4 := [plcIp, ⟨172, 21, 0, 11⟩, ⟨172, 21, 0, 12⟩]

/-- `WRITE_REGISTERS` -/
def writeRegisters : List UInt16 := [0, 1, 2, 5, 6, 8]

/-- The packets of `industroyer.py`: scanning, writes and multi-register writes. -/
def industroyerPackets (src : IPv4) : List Packet :=
  (plcs.flatMap fun plc => List.replicate 8 (modbusPacket src plc 131 [0x00, 0x00, 0x00, 0x01]))
    ++ (plcs.flatMap fun plc => writeRegisters.map fun reg =>
      modbusPacket src plc 6 (Bytes.big16 reg ++ [0x00, 0x01]))
    ++ (plcs.flatMap fun plc => writeRegisters.map fun reg =>
      modbusPacket src plc 16 (Bytes.big16 reg ++ [0x00, 0x02]))

def alarmRegister : UInt16 := 7

def safetyRegister : UInt16 := 8

def inletValveReg : UInt16 := 0

/-- The packets of `triton.py`, none of them in the name of the attacker. -/
def tritonPackets : List Packet :=
  [ modbusPacket ewsHost plcIp 6 (Bytes.big16 alarmRegister ++ [0x00, 0x00]),
    modbusPacket hmiHost plcIp 6 (Bytes.big16 safetyRegister ++ [0x00, 0x00]),
    spoofedLevel,
    modbusPacket hmiHost plcIp 6 (Bytes.big16 inletValveReg ++ [0x00, 0x01]) ]

/-! ## What is expected -/

inductive Simulation where
  | attack
  | lateralMovement
  | violationSpoof
  | dnp3
  | industroyer
  | triton
deriving DecidableEq

namespace Simulation

/-- The default of `OT_DNP3_OUTSTATION`. -/
def outstation : IPv4 := ⟨172, 21, 0, 50⟩

/-- Where the script runs: in `ot_attacker` or in `ot_insider`. -/
def zone : Simulation → Zone
  | dnp3 => .ops
  | _ => .it

/-- What the script sends; the connection of the master has a port and flags of its own. -/
def packets (src : IPv4) (sport flags : UInt16) : Simulation → List Packet
  | attack => attackPackets src
  | lateralMovement => lateralPackets src
  | violationSpoof => spoofPackets
  | dnp3 => dnp3Packets src outstation ⟨sport, Dnp3Dpi.port, flags⟩
  | industroyer => industroyerPackets src
  | triton => tritonPackets

/-- The types a script is to leave in the log, by its header or its test, and who writes them. -/
def expected : Simulation → List (Detector × String)
  | attack | industroyer =>
    [ (.crossZone, "CROSS_ZONE_VIOLATION"), (.modbusAnomaly, "UNAUTHORIZED_MODBUS_WRITE"),
      (.bruteForce, "OT_BRUTE_FORCE_SCAN") ]
  | lateralMovement => [(.crossZone, "CROSS_ZONE_VIOLATION")]
  | violationSpoof => [(.processSafety, "PROCESS_SAFETY_VIOLATION")]
  | dnp3 =>
    [ (.dnp3Dpi, "DNP3_UNAUTHORIZED_CONTROL"), (.dnp3Dpi, "DNP3_RESTART_COMMAND"),
      (.dnp3Dpi, "DNP3_UNSOLICITED_DISABLED") ]
  | triton =>
    [ (.processSafety, "PROCESS_SAFETY_VIOLATION"),
      (.modbusAnomaly, "UNAUTHORIZED_MODBUS_WRITE") ]

/-- What `triton.py` expects in vain: the writers it pretends to be are authorized. -/
def missed : Simulation → List (Detector × String)
  | triton => [(.modbusAnomaly, "UNAUTHORIZED_MODBUS_WRITE")]
  | _ => []

/-- The expectations that can be met. -/
def met (sim : Simulation) : List (Detector × String) :=
  sim.expected.filter fun e => e ∉ sim.missed

/-- The tests that run the script; nothing runs the playbooks. -/
def tests : Simulation → List Test
  | attack => TESTS.take 3
  | lateralMovement => (TESTS.drop 3).take 1
  | violationSpoof => (TESTS.drop 5).take 1
  | dnp3 => (TESTS.drop 6).take 1
  | industroyer | triton => []

end Simulation

/--
The process handles the packets in order, with others before, behind and in between; the
brute-force detector within a minute, and the safety monitor without another word of the controller.
-/
def Handled (d : Detector) (packets : List Packet) (es : List Event) : Prop :=
  ∃ before during after xs : List BruteForce.Sighting, handledBy d es = before ++ during ++ after ∧
    xs.map BruteForce.Sighting.packet = packets ∧ xs.Sublist during ∧
      (d = .bruteForce → ∀ x ∈ xs, ∀ y ∈ xs, y.now - x.now < 60) ∧
        (d = .processSafety → ∀ x ∈ during, x.packet.src = plcIp → x ∈ xs)

section Gained

variable {loads : Loads} {masters : List Nat} {es₀ es₁ : List Event} {src : IPv4}
  {sport flags : UInt16} {packets : List Packet} {d : Detector}

/-- What is written when an event is handled is in what the log gains. -/
theorem gained_at {esa esb : List Event} {x : BruteForce.Sighting} {lines : List (List Char)}
    {alert : Dict} {t : String} (hes₁ : es₁ = esa ++ .handled d x lines :: esb)
    (hw : StepsMeet Ids.step (Ids.Writes loads masters) Ids.start (es₀ ++ es₁))
    (halert : alert ∈ d.alerts masters (run Ids.step Ids.start (es₀ ++ esa)) x)
    (ht : alert.lookup "alert_type" = some (.str t)) :
    ∃ line ∈ gain es₁, IsAlert loads (.text t) line := by
  subst hes₁
  rw [← List.append_assoc] at hw
  obtain ⟨line, hline, hisAlert⟩ := gained_of_handled hw halert ht
  refine ⟨line, ?_, hisAlert⟩
  unfold gain
  rw [List.flatMap_append, List.flatMap_cons]
  exact List.mem_append_right _ (List.mem_append_left _ hline)

/-- A packet that is alerted on in any state is in what the log gains. -/
theorem gained_of_packet {p : Packet} {t : String}
    (hw : StepsMeet Ids.step (Ids.Writes loads masters) Ids.start (es₀ ++ es₁))
    (hhandled : Handled d packets es₁) (hp : p ∈ packets)
    (halert : ∀ s now, ∃ alert ∈ d.alerts masters s ⟨p, now⟩,
      alert.lookup "alert_type" = some (.str t)) :
    ∃ line ∈ gain es₁, IsAlert loads (.text t) line := by
  obtain ⟨before, during, after, xs, hhandled, rfl, hsub, -⟩ := hhandled
  obtain ⟨⟨p, now⟩, hx, rfl⟩ := List.mem_map.mp hp
  have hmem : ⟨p, now⟩ ∈ handledBy d es₁ := by
    rw [hhandled]
    exact List.mem_append_left _ (List.mem_append_right _ (hsub.subset hx))
  obtain ⟨a, b, hsplit⟩ := List.append_of_mem hmem
  obtain ⟨esa, lines, esb, hes₁, -⟩ := exists_handled hsplit
  obtain ⟨alert, hmem, ht⟩ := halert (run Ids.step Ids.start (es₀ ++ esa)) now
  exact gained_at hes₁ hw hmem ht

/-! ## Packets -/

/-- What the attacker sends to a controller is a violation. -/
theorem crossZone_alerts (hsrc : zoneOf src = some .it) {p : Packet} (hp : p.src = src)
    (hdst : zoneOf p.dst = some .control) (s : Ids) (now : ℚ) :
    ∃ alert ∈ Detector.alerts masters .crossZone s ⟨p, now⟩,
      alert.lookup "alert_type" = some (.str "CROSS_ZONE_VIOLATION") := by
  subst hp
  refine ⟨CrossZone.violation p.src p.dst, ?_, rfl⟩
  unfold Detector.alerts
  rw [CrossZone.alertsOf_processPacket, if_pos ⟨hsrc, hdst⟩]
  exact List.mem_singleton_self _

theorem not_authorized (hsrc : zoneOf src = some .it) :
    src ∉ ModbusAnomaly.authorizedWriters := by
  intro hmem
  simp only [ModbusAnomaly.authorizedWriters, List.mem_cons, List.not_mem_nil, or_false] at hmem
  rcases hmem with rfl | rfl <;> exact absurd hsrc (by decide)

/-- A write of the attacker. -/
theorem modbusAnomaly_alerts (hsrc : zoneOf src = some .it) (functionCode : UInt8)
    (hcode : functionCode ∈ ModbusAnomaly.writeFc) (target : IPv4) (unitId : UInt8)
    (payload : Bytes) (s : Ids) (now : ℚ) :
    ∃ alert ∈ Detector.alerts masters .modbusAnomaly s
        ⟨sendModbusPacket src target functionCode unitId payload, now⟩,
      alert.lookup "alert_type" = some (.str "UNAUTHORIZED_MODBUS_WRITE") := by
  let p := sendModbusPacket src target functionCode unitId payload
  have hwrite : ModbusAnomaly.isUnauthorizedWrite ModbusAnomaly.authorizedWriters p = true :=
    decide_eq_true ⟨not_authorized hsrc, functionCode, rfl, hcode⟩
  rcases ModbusAnomaly.alertsWritten_cases ModbusAnomaly.authorizedWriters p with
    ⟨hnot, -⟩ | ⟨-, r, hone⟩
  · rw [hwrite] at hnot
    cases hnot
  · refine ⟨ModbusAnomaly.writeAlert src r, ?_, rfl⟩
    show _ ∈ alertsWritten (ModbusAnomaly.processPacket ModbusAnomaly.authorizedWriters p)
    rw [hone]
    exact List.mem_singleton_self _

/-- Five exceptions of a source among the packets. -/
theorem gained_of_exceptions
    (hw : StepsMeet Ids.step (Ids.Writes loads masters) Ids.start (es₀ ++ es₁))
    (hclock : (handledBy .bruteForce (es₀ ++ es₁)).Pairwise fun x y => x.now ≤ y.now)
    (hhandled : Handled .bruteForce packets es₁)
    (hfive : 5 ≤ (packets.filter (BruteForce.isException src)).length) :
    ∃ line ∈ gain es₁, IsAlert loads (.text "OT_BRUTE_FORCE_SCAN") line := by
  obtain ⟨before, during, after, xs, hsplit, rfl, hsub, hclose, -⟩ := hhandled
  let burst := xs.filter fun x => BruteForce.isException src x.packet
  have hmem : ∀ x ∈ burst, x ∈ xs ∧ BruteForce.isException src x.packet = true :=
    fun x hx => List.mem_filter.mp hx
  have hlen : 5 ≤ burst.length := by
    rwa [List.filter_map, List.length_map] at hfive
  have hburst : burst.Sublist (handledBy .bruteForce es₁) := by
    rw [hsplit]
    exact ((List.filter_sublist.trans hsub).trans (List.sublist_append_right _ _)).trans
      (List.sublist_append_left _ _)
  obtain ⟨esa, x, lines, esb, count, hes₁, halert⟩ := @alert_of_burst_handled masters es₀ es₁ src
    burst hclock hburst (fun x hx => (hmem x hx).2) hlen
    fun x hx y hy => hclose rfl x (hmem x hx).1 y (hmem y hy).1
  exact gained_at hes₁ hw halert rfl

/-- Each application is sent in a frame. -/
theorem exists_dnp3Packet (src dst : IPv4) (header : TcpHeader) {f : SimulateDnp3.Fragment}
    (hf : f.bytes ∈ applications) : ∃ frame,
    .segment src dst header frame ∈ dnp3Packets src dst header ∧
      SimulateDnp3.linkFrame masterAddr outstationAddr f.bytes 0xC4 = .ok frame := by
  have hframe := SimulateDnp3.linkFrame_fragment masterAddr outstationAddr f 0xC4
  refine ⟨_, List.mem_filterMap.mpr ⟨f.bytes, hf, ?_⟩, hframe⟩
  rw [hframe]

/-- What the outstation is told to do by a master that is not one of its own is alerted on. -/
theorem dnp3Dpi_alerts {dst : IPv4} {header : TcpHeader} {f : SimulateDnp3.Fragment} {frame : Bytes}
    (hport : header.dport = Dnp3Dpi.port)
    (hreported : Dnp3Dpi.reported masters masterAddr f.functionCode = true)
    (hframe : SimulateDnp3.linkFrame masterAddr outstationAddr f.bytes 0xC4 = .ok frame)
    (s : Ids) (now : ℚ) :
    Dnp3Dpi.Notice.alert src dst ⟨masterAddr, outstationAddr, f.functionCode⟩
      ∈ Detector.alerts masters .dnp3Dpi s ⟨.segment src dst header frame, now⟩ := by
  rw [SimulateDnp3.linkFrame_fragment] at hframe
  obtain rfl := Except.ok.inj hframe
  obtain ⟨rest, hbytes⟩ := SimulateDnp3.frame_bytes masterAddr outstationAddr f 0xC4
  have hrequest : Dnp3.directionOf 0xC4 = .request := rfl
  have hnotice : Dnp3Dpi.notice masters (f.frame masterAddr outstationAddr 0xC4) f.functionCode
      = some ⟨masterAddr, outstationAddr, f.functionCode⟩ := if_pos ⟨hrequest, hreported⟩
  show _ ∈ alertsOn (Dnp3Dpi.processPacket masters) src dst header _
  rw [hbytes, Dnp3Dpi.alertsOn_header hport, hnotice]
  exact List.mem_singleton_self _

/-- An application of the script whose function code is reported, and the type of its alert. -/
theorem gained_of_application {f : SimulateDnp3.Fragment} {t : String}
    (hw : StepsMeet Ids.step (Ids.Writes loads masters) Ids.start (es₀ ++ es₁))
    (hhandled : Handled .dnp3Dpi (Simulation.dnp3.packets src sport flags) es₁)
    (hf : f.bytes ∈ applications)
    (hreported : Dnp3Dpi.reported masters masterAddr f.functionCode = true)
    (ht : (Dnp3Dpi.Notice.alert src Simulation.outstation
      ⟨masterAddr, outstationAddr, f.functionCode⟩).lookup "alert_type" = some (.str t)) :
    ∃ line ∈ gain es₁, IsAlert loads (.text t) line := by
  obtain ⟨frame, hmem, hframe⟩ := exists_dnp3Packet src _ _ hf
  exact gained_of_packet hw hhandled hmem fun s now =>
    ⟨_, dnp3Dpi_alerts rfl hreported hframe s now, ht⟩

/-- A burst of one exception is enough. -/
theorem five_le_of_burst {p : Packet} {n : Nat} (h : (List.replicate n p).Sublist packets)
    (hexc : BruteForce.isException src p = true) (hn : 5 ≤ n) :
    5 ≤ (packets.filter (BruteForce.isException src)).length := by
  have hle := (h.filter (BruteForce.isException src)).length_le
  rw [List.filter_replicate_of_pos hexc, List.length_replicate] at hle
  exact hn.trans hle

theorem isException_modbus (target : IPv4) (unitId : UInt8) (payload : Bytes) :
    BruteForce.isException src (sendModbusPacket src target 131 unitId payload) = true :=
  decide_eq_true ⟨rfl, 131, rfl, by decide⟩

/-! ## A spoofed level -/

open ProcessSafety (WriteRequest defaultConfig taught)

theorem getLast?_filterMap {α β : Type*} {f : α → Option β} {v : β} {r : α} (hr : f r = some v)
    {l : List α} (h : ∀ y ∈ l, ∀ v', f y = some v' → v' = v) (l' : List α) :
    ((l' ++ r :: l).filterMap f).getLast? = some v := by
  have hall : ∀ v' ∈ v :: l.filterMap f, v' = v := by
    intro v' hv'
    rcases List.mem_cons.mp hv' with rfl | hv'
    · rfl
    · obtain ⟨y, hy, hfy⟩ := List.mem_filterMap.mp hv'
      exact h y hy v' hfy
  rw [List.filterMap_append, List.filterMap_cons_some hr,
    List.getLast?_append_of_ne_nil _ (List.cons_ne_nil _ _),
    List.getLast?_eq_some_getLast (List.cons_ne_nil _ _)]
  exact congrArg some (hall _ (List.getLast_mem _))

/-- A response in the name of the controller that shows too high a level, and a write behind it. -/
theorem gained_of_spoofed_level (pre : List Packet) {response : Packet} {w : WriteRequest}
    {level : Nat} (hw : StepsMeet Ids.step (Ids.Writes loads masters) Ids.start (es₀ ++ es₁))
    (hhandled : Handled .processSafety (pre ++ [response, w.packet]) es₁)
    (hpre : ∀ p ∈ pre ++ [w.packet], p.src ≠ plcIp)
    (hshown : taught defaultConfig response = some level) (hhigh : 90 < level)
    (hdst : w.dst = plcIp) (hopen : (defaultConfig.inletValveReg, 1) ∈ w.body.writes) :
    ∃ line ∈ gain es₁, IsAlert loads (.text "PROCESS_SAFETY_VIOLATION") line := by
  obtain ⟨before, during, after, xs, hsplit, hpackets, hsub, -, halone⟩ := hhandled
  obtain ⟨xs₀, rest, rfl, -, hrest⟩ := List.map_eq_append_iff.mp hpackets
  obtain ⟨shown, rest, rfl, hshownPacket, hrest⟩ := List.map_eq_cons_iff.mp hrest
  obtain ⟨write, rest, rfl, hwritePacket, hrest⟩ := List.map_eq_cons_iff.mp hrest
  obtain rfl := List.map_eq_nil_iff.mp hrest
  obtain ⟨a, m, b, rfl, -⟩ := @exists_ends _ shown write [] during
    ((List.sublist_append_right xs₀ _).trans hsub)
  -- between the two, only the response itself can show a level
  have hkept : ∀ y ∈ m, ∀ v, taught defaultConfig y.packet = some v → v = level := by
    intro y hy v hv
    by_cases hsrc : y.packet.src = plcIp
    · have hmem : y.packet ∈ pre ++ [response, w.packet] := by
        rw [← hpackets]
        exact List.mem_map_of_mem (halone rfl y (by simp [hy]) hsrc)
      have hresponse : y.packet = response := by
        by_contra hne
        refine hpre y.packet ?_ hsrc
        simp only [List.mem_append, List.mem_cons, List.not_mem_nil, or_false] at hmem ⊢
        rcases hmem with hmem | hmem | hmem
        · exact Or.inl hmem
        · exact absurd hmem hne
        · exact Or.inr hmem
      rw [hresponse, hshown] at hv
      exact (Option.some.inj hv).symm
    · rw [ProcessSafety.taught_of_ne (show _ ≠ defaultConfig.plcIp from hsrc)] at hv
      cases hv
  have hsplit' : handledBy .processSafety es₁
      = (before ++ (a ++ shown :: m)) ++ write :: (b ++ after) := by
    rw [hsplit]
    simp only [List.append_assoc, List.cons_append]
  have hlevel : levelShown (handledBy .processSafety es₀ ++ (before ++ (a ++ shown :: m)))
      = level := by
    have hlast : (taught defaultConfig ∘ BruteForce.Sighting.packet) shown = some level := by
      rw [Function.comp_apply, hshownPacket, hshown]
    unfold levelShown
    rw [List.filterMap_map, ← List.append_assoc, ← List.append_assoc,
      getLast?_filterMap hlast hkept]
    rfl
  have hthreshold : defaultConfig.levelThreshold < (level : Int) := Nat.cast_lt (m := 90).mpr hhigh
  obtain ⟨esa, lines, esb, hes₁, halert⟩ := @alert_of_unsafe_write masters es₀ es₁
    _ _ write w hsplit' hwritePacket hdst hopen (by rwa [hlevel])
  exact gained_at hes₁ hw halert rfl

/-- The write of `simulate_process_violation_spoof.py`. -/
def spoofedOpen : WriteRequest :=
  { src := hmiHost, dst := plcIp, header := ⟨45000, ModbusAnomaly.modbusPort, 0x02⟩,
    transaction := 2, unit := 1, body := .single 0 1 }

/-- The last write of `triton.py`. -/
def tritonOpen : WriteRequest :=
  { src := hmiHost, dst := plcIp, header := ⟨20, ModbusAnomaly.modbusPort, 0x02⟩,
    transaction := 1, unit := 1, body := .single 0 1 }

theorem taught_spoofedLevel : taught defaultConfig spoofedLevel = some 95 := by decide

/-- The writes of `triton.py`. -/
def tritonWrites : List WriteRequest :=
  [ { tritonOpen with src := ewsHost, body := .single alarmRegister 0 },
    { tritonOpen with body := .single safetyRegister 0 },
    tritonOpen ]

theorem tritonPackets_cases {p : Packet} (hp : p ∈ tritonPackets) :
    p = spoofedLevel ∨ ∃ w ∈ tritonWrites, p = w.packet := by
  simp only [tritonPackets, List.mem_cons, List.not_mem_nil, or_false] at hp
  rcases hp with rfl | rfl | rfl | rfl
  · exact Or.inr ⟨_, List.mem_cons_self, rfl⟩
  · exact Or.inr ⟨_, List.mem_cons_of_mem _ List.mem_cons_self, rfl⟩
  · exact Or.inl rfl
  · exact Or.inr ⟨_, List.mem_cons_of_mem _ (List.mem_cons_of_mem _ List.mem_cons_self), rfl⟩

/-- The spoofed response is no offence to any rule. -/
theorem alerts_spoofedLevel (d : Detector) (s : Ids) (now : ℚ) :
    d.alerts masters s ⟨spoofedLevel, now⟩ = [] := by
  cases d with
  | processSafety =>
    show alertsOf (ProcessSafety.observe defaultConfig s.shadow spoofedLevel).2 = []
    rfl
  | bruteForce => rfl
  | crossZone | modbusAnomaly | dnp3Anomaly | dnp3Dpi | s7commDpi | opcuaDpi => rfl

/-- What the writes of the playbook leave is a safety violation. -/
theorem unseen_of_tritonWrite {w : WriteRequest} (hw : w ∈ tritonWrites) (d : Detector) (s : Ids)
    (now : ℚ) : ∀ alert ∈ d.alerts masters s ⟨w.packet, now⟩,
      alert.lookup "alert_type" = some (.str "PROCESS_SAFETY_VIOLATION") := by
  have hall : ∀ w ∈ tritonWrites, w.src ∈ ModbusAnomaly.authorizedWriters ∧
      w.header.dport = ModbusAnomaly.modbusPort := by
    decide
  obtain ⟨hsrc, hport⟩ := hall w hw
  intro alert halert
  by_cases hd : d = .processSafety
  · subst hd
    rw [processSafety_alerts s rfl] at halert
    split_ifs at halert
    · rw [List.mem_singleton.mp halert]
      rfl
    · exact absurd halert List.not_mem_nil
  · rw [alerts_of_trusted_write rfl hsrc hport hd] at halert
    exact absurd halert List.not_mem_nil

/-- **No packet of a script makes any rule write a type that is missed.** -/
theorem unseen_of_missed {sim : Simulation} {t : String} (ht : (d, t) ∈ sim.missed) {p : Packet}
    (hp : p ∈ sim.packets src sport flags) (d' : Detector) (s : Ids) (now : ℚ) :
    ∀ alert ∈ d'.alerts masters s ⟨p, now⟩, alert.lookup "alert_type" ≠ some (.str t) := by
  cases sim with
  | triton =>
    obtain ⟨rfl, rfl⟩ := Prod.mk.inj (List.mem_singleton.mp ht)
    intro alert halert
    -- the response with the level, or a write of one of the authorized writers
    rcases tritonPackets_cases hp with rfl | ⟨w, hw, rfl⟩
    · rw [alerts_spoofedLevel] at halert
      exact absurd halert List.not_mem_nil
    · rw [unseen_of_tritonWrite hw d' s now alert halert]
      decide
  | attack | lateralMovement | violationSpoof | dnp3 | industroyer =>
    exact absurd ht List.not_mem_nil

/-! ## The tests -/

theorem tests_spec (sim : Simulation) : ∀ t ∈ sim.tests,
    (t.needsRealProcess = true → t.hasFallback = true) ∧
      ∀ e ∈ t.expected, e ∈ sim.met.map Prod.snd := by
  cases sim <;> decide

/-- What can be met is in what the log gains. -/
theorem gained_of_met {sim : Simulation} {t : String}
    (hw : StepsMeet Ids.step (Ids.Writes loads masters) Ids.start (es₀ ++ es₁))
    (hclock : (handledBy .bruteForce (es₀ ++ es₁)).Pairwise fun x y => x.now ≤ y.now)
    (hsrc : zoneOf src = some sim.zone) (hmaster : masterAddr.toNat ∉ masters)
    (ht : (d, t) ∈ sim.met) (hhandled : Handled d (sim.packets src sport flags) es₁) :
    ∃ line ∈ gain es₁, IsAlert loads (.text t) line := by
  obtain ⟨ht, hmet⟩ := List.mem_filter.mp ht
  have hplc : zoneOf plcIp = some .control := by decide
  cases sim with
  | attack =>
    simp only [Simulation.expected, List.mem_cons, Prod.mk.injEq, List.not_mem_nil, or_false] at ht
    rcases ht with ⟨rfl, rfl⟩ | ⟨rfl, rfl⟩ | ⟨rfl, rfl⟩
    · exact gained_of_packet hw hhandled List.mem_cons_self (crossZone_alerts hsrc rfl hplc)
    · exact gained_of_packet hw hhandled (List.mem_cons_of_mem _ List.mem_cons_self)
        (modbusAnomaly_alerts hsrc 6 (by decide) plcIp 1 _)
    · -- the probes carry the code of an exception
      have hburst : (List.replicate 7 (sendModbusPacket src plcIp 131 1 [0, 1, 0, 1])).Sublist
          (attackPackets src) := ((List.Sublist.refl _).cons _).cons _
      exact gained_of_exceptions hw hclock hhandled
        (five_le_of_burst hburst (isException_modbus plcIp 1 _) (by decide))
  | lateralMovement =>
    obtain ⟨rfl, rfl⟩ := Prod.mk.inj (List.mem_singleton.mp ht)
    exact gained_of_packet hw hhandled List.mem_cons_self (crossZone_alerts hsrc rfl hplc)
  | violationSpoof =>
    obtain ⟨rfl, rfl⟩ := Prod.mk.inj (List.mem_singleton.mp ht)
    exact gained_of_spoofed_level [] (w := spoofedOpen) hw hhandled (by decide)
      taught_spoofedLevel (by decide) rfl (by decide)
  | dnp3 =>
    -- the address matters for the control operation only
    have hoperate : Dnp3Dpi.reported masters masterAddr 5 = true := by
      simp [Dnp3Dpi.reported, hmaster, Dnp3.controlFunctions]
    simp only [Simulation.expected, List.mem_cons, Prod.mk.injEq, List.not_mem_nil, or_false] at ht
    rcases ht with ⟨rfl, rfl⟩ | ⟨rfl, rfl⟩ | ⟨rfl, rfl⟩
    · exact gained_of_application hw hhandled
        (f := ⟨0xC0, 0x05, [0x0C, 0x01, 0x17, 0x01, 0x00, 0x03], by decide⟩)
        (by decide) hoperate rfl
    · exact gained_of_application hw hhandled (f := ⟨0xC0, 0x0D, [], by decide⟩)
        (by decide) (by simp [Dnp3Dpi.reported, Dnp3.restartFunctions]) rfl
    · exact gained_of_application hw hhandled
        (f := ⟨0xC0, 0x15, [0x3C, 0x02, 0x06, 0x3C, 0x03, 0x06, 0x3C, 0x04, 0x06], by decide⟩)
        (by decide) (by simp [Dnp3Dpi.reported, Dnp3.unsolicitedDisable]) rfl
  | industroyer =>
    simp only [Simulation.expected, List.mem_cons, Prod.mk.injEq, List.not_mem_nil, or_false] at ht
    rcases ht with ⟨rfl, rfl⟩ | ⟨rfl, rfl⟩ | ⟨rfl, rfl⟩
    · exact gained_of_packet hw hhandled List.mem_cons_self (crossZone_alerts hsrc rfl hplc)
    · refine gained_of_packet hw hhandled ?_ (modbusAnomaly_alerts hsrc 6
        (by decide) plcIp 1 (Bytes.big16 0 ++ [0x00, 0x01]))
      refine List.mem_append_left _ (List.mem_append_right _ ?_)
      exact List.mem_flatMap.mpr ⟨plcIp, by decide, List.mem_map.mpr ⟨0, by decide, rfl⟩⟩
    · exact gained_of_exceptions hw hclock hhandled (five_le_of_burst (n := 8)
        (((List.sublist_append_left _ _).trans (List.sublist_append_left _ _)).trans
          (List.sublist_append_left _ _)) (isException_modbus plcIp 1 _) (by decide))
  | triton =>
    simp only [Simulation.expected, List.mem_cons, Prod.mk.injEq, List.not_mem_nil, or_false] at ht
    rcases ht with ⟨rfl, rfl⟩ | ⟨rfl, rfl⟩
    · exact gained_of_spoofed_level (tritonPackets.take 2) (w := tritonOpen) hw hhandled
        (by decide) taught_spoofedLevel (by decide) rfl (by decide)
    · exact absurd hmet (by decide)

end Gained

/-- The safety monitor handles the two packets of the spoofed violation, nothing else happens. -/
def spoofRun : List Event :=
  [ .handled .processSafety ⟨spoofedLevel, 0⟩ [],
    .handled .processSafety ⟨spoofedOpen.packet, 2⟩ [hmiLine.toList] ]

end OtLab.Simulations
