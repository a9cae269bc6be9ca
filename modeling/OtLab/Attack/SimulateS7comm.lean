import OtLab.Otdpi.S7Encode
import OtLab.Siem.Bundle

/-!
# The raw S7comm jobs of the emulation

`raw_s7_job` of `simulate_s7comm_attack.py` builds a Job of its own, because the client library has
no program download and upload. The decoder of the sensor never looks at the length of a packet, so
the first 18 octets of the frame decide what it makes of a segment.

* `rawS7Job_eq_ok_iff` — which jobs are built
* `decode_of_start` — what is decoded from a segment that starts like a job
* `job_reported` — the rules that fire and the alerts that are written are those of the function
  code
-/

namespace OtLab.SimulateS7comm

open Bytes Common S7comm Siem

/-! ## Building a job -/

/-- The exceptions of building a frame. -/
inductive JobError where
  | valueError
  | overflowError
deriving DecidableEq, Repr

/-- `n.to_bytes(2, "big")`. -/
def toBytes (n : Nat) : Except JobError Bytes :=
  if n < 2 ^ 16 then .ok (big16 (UInt16.ofNat n)) else .error .overflowError

/-- `bytes([n])`. -/
def octet (n : Int) : Except JobError Bytes :=
  if 0 ≤ n ∧ n < 256 then .ok [UInt8.ofNat n.toNat] else .error .valueError

/-- The default of `params`. -/
def defaultParams : Bytes := List.replicate 6 0x00

/-- The frame of `raw_s7_job`. -/
def rawS7Job (functionCode : Int) (params : Bytes) : Except JobError Bytes := do
  let parameterLength ← toBytes (1 + params.length)
  let code ← octet functionCode
  let s7 : Bytes := [0x32, 0x01, 0x00, 0x00] ++ [0x00, 0x01] ++ parameterLength ++ [0x00, 0x00]
    ++ code ++ params
  let length ← toBytes (4 + 3 + s7.length)
  return [0x03, 0x00] ++ length ++ [0x02, 0xF0, 0x80] ++ s7

/-! ## The jobs that are built -/

theorem length_job_le (code : UInt8) {params : Bytes} (h : params.length ≤ 65517) :
    17 + PduType.job.errors.length + (code :: params).length + ([] : Bytes).length ≤ 65535 := by
  rw [List.length_cons, List.length_nil, PduType.errors, List.length_nil]
  omega

/-- The job as a message: the function code is the first octet of the parameters. -/
def job (code : UInt8) (params : Bytes) (h : params.length ≤ 65517) : Message where
  type := .job
  tpduNumber := 0x80
  reserved := 0
  pduReference := 1
  parameters := code :: params
  data := []
  length_le := length_job_le code h

/-- What is in front of the function code. -/
def lead (length parameterLength : UInt16) : Bytes :=
  [0x03, 0x00] ++ big16 length ++ [0x02, 0xF0, 0x80]
    ++ ([0x32, 0x01, 0x00, 0x00] ++ [0x00, 0x01] ++ big16 parameterLength ++ [0x00, 0x00])

/-- The frame for a function code and its parameters. -/
def frame (code : UInt8) (params : Bytes) : Bytes :=
  lead (UInt16.ofNat (18 + params.length)) (UInt16.ofNat (1 + params.length)) ++ code :: params

/-- A frame is the encoding of the job. -/
theorem encode_job (code : UInt8) (params : Bytes) (h : params.length ≤ 65517) :
    (job code params h).encode = frame code params := by
  have hs7 : 6 + [(0x80 : UInt8)].length + (job code params h).s7.length = 18 + params.length := by
    rw [Message.length_s7]
    simp only [job, PduType.errors, List.length_cons, List.length_nil]
    omega
  have hheader : (job code params h).tpkt.header = [0x03, 0x00]
      ++ big16 (UInt16.ofNat (18 + params.length)) ++ [0x02, 0xF0, 0x80] := by
    unfold Tpkt.header
    show _ ++ big16 (UInt16.ofNat (6 + [(0x80 : UInt8)].length + (job code params h).s7.length))
      ++ _ = _
    rw [hs7]
    rfl
  have hbody : (job code params h).s7 = [0x32, 0x01, 0x00, 0x00] ++ [0x00, 0x01]
      ++ big16 (UInt16.ofNat (1 + params.length)) ++ [0x00, 0x00] ++ code :: params := by
    have hzero : big16 (0 : UInt16) = [0x00, 0x00] := rfl
    have hone : big16 (1 : UInt16) = [0x00, 0x01] := rfl
    simp [Message.s7, Message.s7Header, job, PduType.rosctr, PduType.errors, hzero, hone,
      Nat.add_comm 1]
  show (job code params h).tpkt.header ++ (job code params h).s7 = _
  rw [hheader, hbody, frame, lead]
  simp only [List.append_assoc]

theorem toBytes_of_lt {n : Nat} (h : n < 2 ^ 16) : toBytes n = .ok (big16 (UInt16.ofNat n)) :=
  if_pos h

theorem octet_toNat (code : UInt8) : octet code.toNat = .ok [code] := by
  have hlt := code.toNat_lt
  unfold octet
  rw [if_pos ⟨Int.natCast_nonneg _, by omega⟩, Int.toNat_natCast, UInt8.ofNat_toNat]

/-- The octets behind the COTP header. -/
theorem length_s7 (parameterLength : UInt16) (code : UInt8) (params : Bytes) :
    4 + 3 + (([0x32, 0x01, 0x00, 0x00] : Bytes) ++ [0x00, 0x01] ++ big16 parameterLength
      ++ [0x00, 0x00] ++ [code] ++ params).length = 18 + params.length := by
  simp only [List.length_append, List.length_cons, List.length_nil, length_big16]
  omega

/-- A function code that is an octet: only the length of the packet can run out of range. -/
theorem rawS7Job_octet (code : UInt8) (params : Bytes) :
    rawS7Job code.toNat params = if params.length ≤ 65517 then .ok (frame code params)
      else .error .overflowError := by
  unfold rawS7Job
  by_cases hparameters : 1 + params.length < 2 ^ 16
  · rw [toBytes_of_lt hparameters, octet_toNat]
    show (toBytes _).bind _ = _
    rw [length_s7]
    by_cases hlen : params.length ≤ 65517
    · rw [toBytes_of_lt (by omega), if_pos hlen, frame, lead]
      simp only [Except.bind, List.append_assoc, List.singleton_append]
      rfl
    · have hlength : ¬ 18 + params.length < 2 ^ 16 := by omega
      rw [toBytes, if_neg hlength, if_neg hlen]
      rfl
  · rw [toBytes, if_neg hparameters, if_neg (by omega)]
    rfl

/-- The length of the parameters is written before the function code. -/
theorem rawS7Job_of_not_octet {functionCode : Int} (h : ¬ (0 ≤ functionCode ∧ functionCode < 256))
    (params : Bytes) :
    rawS7Job functionCode params
      = .error (if params.length ≤ 65534 then .valueError else .overflowError) := by
  unfold rawS7Job
  rw [octet, if_neg h, toBytes]
  by_cases hparameters : 1 + params.length < 2 ^ 16
  · rw [if_pos hparameters, if_pos (by omega)]
    rfl
  · rw [if_neg hparameters, if_neg (by omega)]
    rfl

theorem exists_octet_iff {n : Int} : (∃ code : UInt8, n = code.toNat) ↔ 0 ≤ n ∧ n < 256 := by
  constructor
  · rintro ⟨code, rfl⟩
    have := code.toNat_lt
    omega
  · intro h
    refine ⟨UInt8.ofNat n.toNat, ?_⟩
    rw [UInt8.toNat_ofNat']
    omega

/-- **Which jobs are built**: those with an octet for a function code that fit into a packet. -/
theorem rawS7Job_eq_ok_iff {functionCode : Int} {params bytes : Bytes} :
    rawS7Job functionCode params = .ok bytes ↔
      params.length ≤ 65517 ∧ ∃ code : UInt8, functionCode = code.toNat ∧
        bytes = frame code params := by
  by_cases hcode : ∃ code : UInt8, functionCode = code.toNat
  · obtain ⟨code, rfl⟩ := hcode
    have hsame : ∀ c : UInt8, (code.toNat : Int) = c.toNat ↔ code = c := fun c =>
      Int.natCast_inj.trans UInt8.toNat_inj
    simp only [rawS7Job_octet, hsame, exists_eq_left']
    split
    · next hlen => simp [hlen, eq_comm]
    · next hlen => simp [hlen]
  · rw [rawS7Job_of_not_octet (mt exists_octet_iff.mpr hcode)]
    refine iff_of_false nofun ?_
    rintro ⟨-, code, heq, -⟩
    exact hcode ⟨code, heq⟩

/-! ## What the sensor makes of a job -/

/-- What is decoded from a job. -/
def pdu (code : UInt8) (parameterLength : UInt16) : Pdu :=
  ⟨1, 1, parameterLength.toNat, 0, 0xF0, some code⟩

/-- The length of the packet is never read, and what follows the function code is not either. -/
theorem decode_lead (length parameterLength : UInt16) (code : UInt8) (rest : Bytes) :
    decode (lead length parameterLength ++ code :: rest)
      = .ok (some (.pdu (pdu code parameterLength))) := by
  have hten : ¬ (0x32 :: 0x01 :: ([0x00, 0x00] ++ [0x00, 0x01] ++ big16 parameterLength
      ++ [0x00, 0x00] ++ code :: rest)).length < 10 := by
    simp only [List.length_cons, List.length_append, length_big16]
    omega
  rw [decode_eq_decodeBody rfl rfl rfl rfl, pdu, ← fromBig_big16 parameterLength]
  exact congrArg Except.ok (decodeBody_cons hten)

/-- The first 18 octets of a frame end with the function code. -/
theorem decode_of_start {code : UInt8} {params payload : Bytes}
    (h : (frame code params).take 18 <+: payload) :
    decode payload = .ok (some (.pdu (pdu code (UInt16.ofNat (1 + params.length))))) := by
  obtain ⟨rest, rfl⟩ := h
  have htake : (frame code params).take 18
      = lead (UInt16.ofNat (18 + params.length)) (UInt16.ofNat (1 + params.length)) ++ [code] := rfl
  rw [htake, List.append_assoc]
  exact decode_lead ..

section Classified

variable {code : UInt8} {parameterLength : UInt16} {packet : Packet} {d : Detection}

theorem triggers_pdu_iff :
    (s7commLine (.pdu (pdu code parameterLength))).Triggers d ↔
      d ≠ .unauthorizedControl ∧ code ∈ d.codes := by
  have hdirection : (pdu code parameterLength).direction = .request := rfl
  have hcode : (pdu code parameterLength).functionCode = some code := rfl
  rw [s7comm_triggers_iff, hdirection, hcode]
  simp

/-- The alert of a job has the type of the S7comm detection of its function code. -/
theorem hasType_pdu_iff :
    (∃ alert ∈ S7commDpi.alerts (.pdu (pdu code parameterLength)) packet, HasType d alert) ↔
      d.service = "s7comm" ∧ code ∈ d.codes := by
  rw [s7comm_alerts_iff, triggers_pdu_iff]
  refine and_congr_right fun hservice => and_iff_right ?_
  rintro rfl
  exact absurd hservice (by decide)

/-- An alert names the function code of the job, its reference and its two ends. -/
structure Names (functionCode : Int) (src dst : IPv4) (alert : Dict) : Prop where
  functionCode : alert.lookup "function_code" = some (.int functionCode)
  pduReference : alert.lookup "pdu_reference" = some (.int 1)
  sourceIp : alert.lookup "source_ip" = some (.str src.str)
  destIp : alert.lookup "dest_ip" = some (.str dst.str)

/-- What the head of an alert is about. -/
theorem keys_detection {head : Dict} (h : head ∈ S7commDpi.detection code) :
    head.map Prod.fst = ["alert_type", "mitre_id", "description"] := by
  unfold S7commDpi.detection at h
  split_ifs at h
  case neg => cases h
  all_goals
    obtain rfl := Option.some.inj h
    rfl

theorem names_of_mem_alerts {alert : Dict}
    (h : alert ∈ S7commDpi.alerts (.pdu (pdu code parameterLength)) packet) :
    Names code.toNat packet.src packet.dst alert := by
  have halerts : S7commDpi.alerts (.pdu (pdu code parameterLength)) packet
      = (S7commDpi.detection code).toList.map fun head => head ++
        [ ("protocol", .str "s7comm"),
          ("function_code", .int code.toNat),
          ("function_name", .str (functionName code)),
          ("pdu_reference", .int 1),
          ("rosctr", .int 1),
          ("source_ip", .str packet.src.str),
          ("dest_ip", .str packet.dst.str) ] := by
    have hdirection : (pdu code parameterLength).direction = .request := rfl
    have hcode : (pdu code parameterLength).functionCode = some code := rfl
    unfold S7commDpi.alerts
    dsimp only
    rw [if_neg (not_not.mpr hdirection), hcode]
    dsimp only
    cases S7commDpi.detection code <;> rfl
  rw [halerts] at h
  obtain ⟨head, hhead, rfl⟩ := List.mem_map.mp h
  have hkeys := keys_detection (Option.mem_toList.mp hhead)
  have hlookup : ∀ (key : String) (l : Dict), key ∉ ["alert_type", "mitre_id", "description"] →
      (head ++ l).lookup key = l.lookup key := by
    intro key l hkey
    rw [← hkeys] at hkey
    rw [List.lookup_append, List.lookup_eq_none_iff.mpr ?_, Option.none_or]
    intro p hp
    rw [bne_iff_ne]
    rintro rfl
    exact hkey (List.mem_map_of_mem hp)
  constructor <;> rw [hlookup _ _ (by decide)] <;> rfl

/-- The generated rules that fire on a job are those about its function code. -/
theorem raised_job_iff {L : Loki} (hL : L.Documented) (hA : L.DocumentedOnAddresses)
    {src dst : IPv4} {header : TcpHeader} {payload : Bytes} (hport : header.dport = S7commDpi.port)
    (hdecode : decode payload = .ok (some (.pdu (pdu code parameterLength)))) {r : RuleName} :
    Raised L (callsOf (S7commDpi.processPacket (.segment src dst header payload))) r ↔
      r.IsAbout code.toNat none src := by
  refine (raised_s7comm_iff hL hA).trans ?_
  rw [payloadTo_segment hport, Packet.segment_src]
  simp only [Option.mem_def, Option.some.injEq, exists_eq_left', hdecode, Except.ok.injEq,
    Event.pdu.injEq]
  exact and_iff_right rfl |>.trans (by simp [pdu])

end Classified

/--
A job with a function code is what the rules and the alerts are about. A job has no link source, and
the rules on Modbus requests do not ask which protocol a request is one of.
-/
structure Reported (L : Loki) (functionCode : Int) (src dst : IPv4) (calls : List SinkCall) :
    Prop where
  detections : ∀ d : Detection, Raised L calls (.detection d) ↔
    d ≠ .unauthorizedControl ∧ ∃ code ∈ d.codes, functionCode = code.toNat
  writes : Raised L calls .modbusUnauthorizedWrite ↔
    functionCode ∈ [6, 16] ∧ src ∉ controlWriters
  scans : Raised L calls .modbusDeviceIdentificationScan ↔ functionCode ∈ [17, 43]
  others : ∀ r ∈ [RuleName.firewallCrossZoneViolation, .processSafetyViolation, .c2Beacon,
    .detectionServiceDown], ¬ Raised L calls r
  alerts : ∀ d : Detection, (∃ alert ∈ alertsOf calls, HasType d alert) ↔
    d.service = "s7comm" ∧ ∃ code ∈ d.codes, functionCode = code.toNat
  names : ∀ alert ∈ alertsOf calls, Names functionCode src dst alert

/-- A segment that starts like a job is reported as that job. -/
theorem reported_of_start {L : Loki} (hL : L.Documented) (hA : L.DocumentedOnAddresses)
    (src dst : IPv4) {header : TcpHeader} (hport : header.dport = S7commDpi.port) {code : UInt8}
    {params payload : Bytes} (hstart : (frame code params).take 18 <+: payload) :
    ∃ calls, S7commDpi.processPacket (.segment src dst header payload) = .ok calls ∧
      Reported L code.toNat src dst calls := by
  have hdecode := decode_of_start hstart
  have hsame : ∀ d : Detection, (∃ c ∈ d.codes, (code.toNat : Int) = c.toNat) ↔
      code ∈ d.codes := by
    intro d
    simp only [Int.natCast_inj, UInt8.toNat_inj, exists_eq_right']
  obtain ⟨event, hevent⟩ : ∃ event,
      event = Event.pdu (pdu code (UInt16.ofNat (1 + params.length))) := ⟨_, rfl⟩
  obtain ⟨calls, hcalls, heq⟩ : ∃ calls,
      S7commDpi.processPacket (.segment src dst header payload) = .ok calls ∧
        calls = pushToLoki "s7comm" event.fields (.segment src dst header payload)
          :: (S7commDpi.alerts event (.segment src dst header payload)).map writeAlert := by
    refine ⟨_, ?_, rfl⟩
    unfold S7commDpi.processPacket produce
    rw [payloadTo_segment hport]
    dsimp only
    rw [hdecode, hevent]
    rfl
  have hraised : ∀ r, Raised L calls r ↔ r.IsAbout code.toNat none src := by
    intro r
    rw [← raised_job_iff hL hA hport hdecode, hcalls]
    rfl
  refine ⟨calls, hcalls, ?_, ?_, ?_, ?_, ?_, ?_⟩
  · intro d
    rw [hraised, hsame]
    exact @triggers_pdu_iff code 0 d
  · rw [hraised]
    refine and_congr_left' ?_
    simp only [List.mem_cons, List.not_mem_nil, or_false]
    omega
  · rw [hraised]
    simp only [RuleName.IsAbout, List.mem_cons, List.not_mem_nil, or_false]
    omega
  · simp only [hraised, List.forall_mem_cons]
    exact ⟨id, id, id, id, List.forall_mem_nil _⟩
  · intro d
    rw [heq, alertsOf_push, hevent, hasType_pdu_iff, hsame]
  · intro alert halert
    rw [heq, alertsOf_push, hevent] at halert
    exact names_of_mem_alerts halert

/--
**What the emulation sends is what the sensor reports.**

A job is built exactly for an octet as function code and parameters that fit into a packet, and it
is a well-formed message. However the stream is cut behind the function code, the generated rules
that fire are those with the function code in their table, and the alerts those of S7comm among
them.
-/
theorem job_reported {L : Loki} (hL : L.Documented) (hA : L.DocumentedOnAddresses)
    (src dst : IPv4) {header : TcpHeader} (hport : header.dport = S7commDpi.port)
    (functionCode : Int) (params : Bytes) :
    ((∃ bytes, rawS7Job functionCode params = .ok bytes) ↔
      (0 ≤ functionCode ∧ functionCode < 256) ∧ params.length ≤ 65517) ∧
    ∀ bytes, rawS7Job functionCode params = .ok bytes →
      (∃ m : Message, m.type = .job ∧ m.data = [] ∧ m.parameters.tail = params ∧
        bytes = m.encode) ∧
      ∀ payload, bytes.take 18 <+: payload →
        ∃ calls, S7commDpi.processPacket (.segment src dst header payload) = .ok calls ∧
          Reported L functionCode src dst calls := by
  constructor
  · rw [← exists_octet_iff]
    constructor
    · rintro ⟨bytes, hjob⟩
      obtain ⟨hlen, code, hcode, -⟩ := rawS7Job_eq_ok_iff.mp hjob
      exact ⟨⟨code, hcode⟩, hlen⟩
    · rintro ⟨⟨code, hcode⟩, hlen⟩
      exact ⟨_, rawS7Job_eq_ok_iff.mpr ⟨hlen, code, hcode, rfl⟩⟩
  · intro bytes hjob
    obtain ⟨hlen, code, rfl, rfl⟩ := rawS7Job_eq_ok_iff.mp hjob
    exact ⟨⟨job code params hlen, rfl, rfl, rfl, (encode_job code params hlen).symm⟩,
      fun payload hstart => reported_of_start hL hA src dst hport hstart⟩

/-- The first job of the emulation, a request to start a download. -/
theorem job_reported_download :
    ∃ bytes, rawS7Job 0x1A defaultParams = .ok bytes ∧
      ∃ calls, S7commDpi.processPacket (.segment ⟨172, 23, 0, 20⟩ ⟨172, 21, 0, 52⟩
        ⟨50000, S7commDpi.port, 24⟩ bytes) = .ok calls ∧
        Reported dottedLoki 0x1A ⟨172, 23, 0, 20⟩ ⟨172, 21, 0, 52⟩ calls := by
  obtain ⟨hbuilt, hreported⟩ := job_reported dottedLoki_documented dottedLoki_documentedOnAddresses
    ⟨172, 23, 0, 20⟩ ⟨172, 21, 0, 52⟩
    (rfl : (⟨50000, S7commDpi.port, 24⟩ : TcpHeader).dport = S7commDpi.port) 0x1A defaultParams
  obtain ⟨bytes, hjob⟩ := hbuilt.mpr (by decide)
  exact ⟨bytes, hjob, (hreported bytes hjob).2 bytes (List.take_prefix 18 bytes)⟩

end OtLab.SimulateS7comm
