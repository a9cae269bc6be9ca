import OtLab.Detection.Separation
import OtLab.Firewall.Ruleset

/-!
# The Modbus write detector

`modbus_anomaly.py` reads the function code and the register address at fixed offsets of the
payload and never looks at the length in the MBAP header.

* `separates_iff` — exactly when it alerts on a series of ADUs as if they came one by one
-/

namespace OtLab.ModbusAnomaly

open Bytes Common

/-! ## The detector -/

/-- `MODBUS_WRITE_FC`. -/
def writeFc : List UInt8 := [6, 16]

def modbusPort : UInt16 := 502

/-- The default of `AUTHORIZED_WRITERS`. -/
def authorizedWriters : List IPv4 := [hmiHost, ewsHost]

/-- The alert `process_packet` has `log_alert` write. -/
def writeAlert (srcIp : IPv4) (targetRegister : Nat) : Dict :=
  [ ("alert_type", .str "UNAUTHORIZED_MODBUS_WRITE"),
    ("source_ip", .str srcIp.str),
    ("target_register", .int targetRegister),
    ("mitre_id", .str "T0831"),
    ("description", .str
      "Unauthorized Modbus write command detected from an untrusted source.") ]

variable (authorized : List IPv4)

/-- `process_packet`. The source of an IPv4 header is always an address. -/
def processPacket (packet : Packet) : Py (List SinkCall) :=
  match payloadTo modbusPort packet with
  | none => .ok []
  | some payload =>
    if payload.length < 8 then .ok []
    else do
      let functionCode ← getByte payload 7
      if functionCode ∈ writeFc ∧ packet.src ∉ authorized then
        let regAddr := fromBig (slice payload 8 10)
        return [.alert (writeAlert packet.src regAddr)]
      else return []

/-- The function code of a payload of at least eight octets sent to the port. -/
def functionCode? (packet : Packet) : Option UInt8 :=
  (payloadTo modbusPort packet).bind fun payload => payload[7]?

/-- The packet is a write of a source that is not authorized. -/
def isUnauthorizedWrite (packet : Packet) : Bool :=
  packet.src ∉ authorized ∧ ∃ code ∈ functionCode? packet, code ∈ writeFc

/-- A packet is answered with one alert about its source if it is an unauthorized write. -/
theorem alertsWritten_cases (packet : Packet) :
    (isUnauthorizedWrite authorized packet = false ∧
      alertsWritten (processPacket authorized packet) = []) ∨
    (isUnauthorizedWrite authorized packet = true ∧
      ∃ r, alertsWritten (processPacket authorized packet) = [writeAlert packet.src r]) := by
  unfold isUnauthorizedWrite functionCode? processPacket
  cases payloadTo modbusPort packet with
  | none => exact Or.inl ⟨by simp, rfl⟩
  | some payload =>
    dsimp only
    by_cases hlen : payload.length < 8
    · rw [if_pos hlen, Option.bind_some, List.getElem?_eq_none (by omega)]
      exact Or.inl ⟨by simp, rfl⟩
    · obtain ⟨code, hcode⟩ : ∃ code, payload[7]? = some code :=
        ⟨_, List.getElem?_eq_getElem (by omega)⟩
      rw [if_neg hlen, getByte_of_some hcode, Option.bind_some, hcode]
      by_cases hw : code ∈ writeFc ∧ packet.src ∉ authorized
      · refine Or.inr ⟨decide_eq_true ⟨hw.2, code, rfl, hw.1⟩, fromBig (slice payload 8 10), ?_⟩
        show alertsWritten (if _ then _ else _) = _
        rw [if_pos hw]
        rfl
      · refine Or.inl ⟨decide_eq_false ?_, ?_⟩
        · rintro ⟨hsrc, code', hcode', hmem⟩
          obtain rfl := Option.some.inj hcode'
          exact hw ⟨hmem, hsrc⟩
        · show alertsWritten (if _ then _ else _) = _
          rw [if_neg hw]
          rfl

/-! ## Modbus/TCP messages -/

/-- A Modbus/TCP ADU, delimited by the length in its MBAP header. -/
structure Adu where
  transaction : UInt16
  unit : UInt8
  functionCode : UInt8
  data : Bytes
  data_le : data.length ≤ 252

namespace Adu

def bytes (m : Adu) : Bytes :=
  big16 m.transaction ++ [0, 0] ++ big16 (UInt16.ofNat (2 + m.data.length))
    ++ m.unit :: m.functionCode :: m.data

/-- The ADU is a write. -/
def isWrite (m : Adu) : Bool := m.functionCode ∈ writeFc

/-- The register address in the data of a request. -/
def register (data : Bytes) : Nat := fromBig (data.take 2)

end Adu

variable {authorized} {src dst : IPv4} {h : TcpHeader}

/-- The alerts on an ADU, whatever follows it in the payload. -/
theorem alertsOn_adu (hp : h.dport = modbusPort) (m : Adu) (rest : Bytes) :
    alertsOn (processPacket authorized) src dst h (m.bytes ++ rest)
      = if m.isWrite = true ∧ src ∉ authorized then
          [writeAlert src (Adu.register (m.data ++ rest))]
        else [] := by
  have hlen : ¬ (m.bytes ++ rest).length < 8 := by
    simp only [Adu.bytes, List.length_append, List.length_cons, length_big16]
    omega
  unfold alertsOn processPacket
  rw [payloadTo_segment hp]
  dsimp only
  rw [if_neg hlen]
  show alertsWritten (if m.functionCode ∈ writeFc ∧ src ∉ authorized then _ else _) = _
  simp only [Adu.isWrite, decide_eq_true_eq]
  by_cases hw : m.functionCode ∈ writeFc ∧ src ∉ authorized
  · rw [if_pos hw, if_pos hw]
    rfl
  · rw [if_neg hw, if_neg hw]
    rfl

theorem alertsOn_bytes (hp : h.dport = modbusPort) (m : Adu) :
    alertsOn (processPacket authorized) src dst h m.bytes
      = if m.isWrite = true ∧ src ∉ authorized then [writeAlert src (Adu.register m.data)]
        else [] := by
  have hadu := @alertsOn_adu authorized src dst h hp m []
  rwa [List.append_nil, List.append_nil] at hadu

theorem alertsOn_of_port_ne (hp : h.dport ≠ modbusPort) (payload : Bytes) :
    alertsOn (processPacket authorized) src dst h payload = [] := by
  unfold alertsOn processPacket
  rw [payloadTo_segment_of_ne hp]
  rfl

theorem writeAlert_inj {r r' : Nat} : writeAlert src r = writeAlert src r' ↔ r = r' := by
  constructor
  · intro h
    simp only [writeAlert, List.cons.injEq, Prod.mk.injEq, Value.int.injEq, Int.natCast_inj,
      true_and, and_true] at h
    exact h
  · rintro rfl
    rfl

/--
The detector separates a series of ADUs: nothing is to be reported, or no ADU after the first is a
write and the register address of the first, if it is one, lies within it.
-/
def Separated (authorized : List IPv4) (src : IPv4) (h : TcpHeader) (m : Adu) (ms : List Adu) :
    Prop :=
  h.dport = modbusPort → src ∉ authorized →
    (m.isWrite = true →
      Adu.register (m.data ++ (ms.map Adu.bytes).flatten) = Adu.register m.data) ∧
    ∀ m' ∈ ms, m'.isWrite = false

theorem separates_iff (authorized : List IPv4) (src dst : IPv4) (h : TcpHeader) (m : Adu)
    (ms : List Adu) :
    Separates (processPacket authorized) src dst h ((m :: ms).map Adu.bytes) ↔
      Separated authorized src h m ms := by
  unfold Separated
  by_cases hp : h.dport = modbusPort
  · rw [List.map_cons, separates_cons_iff]
    · rw [alertsOn_adu hp, alertsOn_bytes hp, List.forall_mem_map]
      simp only [alertsOn_bytes hp]
      by_cases hsrc : src ∈ authorized
      · simp [hsrc]
      · -- two alerts of one source differ only in the register
        cases hm : m.isWrite <;> simp [hp, hsrc, writeAlert_inj]
    · rw [alertsOn_adu hp, alertsOn_bytes hp]
      split <;> rfl
  · exact iff_of_true (separates_of_silent (alertsOn_of_port_ne hp) _) fun h' => absurd h' hp

end OtLab.ModbusAnomaly
