import OtLab.Siem.Classification

/-!
# The generated rules

All of the generated rules in `siem/rules`: the nine of the protocols, two on Modbus requests and
one each for drops of the firewall, safety violations, beacons and stopped producers. Three of them
have negated regular expressions as well, which an absent label passes.

* `fires_eq_true_iff` — a rule fires on what the labels say
* `Shown.Shows.of_lookup` — and these say what the entries of the record do
* `raised_dnp3_iff`, `raised_s7comm_iff`, `raised_opcua_iff` — the rules that fire on what the three
  decoders push
-/

namespace OtLab.Siem

open Common Logfmt

/-! ## The rules -/

/-- A rule with the filters ``label!~`pattern` `` of its expression. -/
structure GeneratedRule where
  rule : Rule
  mismatches : List (String × String)

/-- The expression of the rule matches a line of a job; an absent label is no match. -/
def GeneratedRule.fires (L : Loki) (r : GeneratedRule) (job line : String) : Bool :=
  r.rule.fires L job line
    && r.mismatches.all fun f => !((L.labels line f.1).any fun text => L.isMatch f.2 text)

/-- Filters ``label=~`(?i)^word$` ``. -/
def saying (entries : List (String × String)) : List (List LabelFilter) :=
  entries.map fun e => [.regex e.1 ("(?i)^" ++ e.2 ++ "$")]

def modbusUnauthorizedWrite : GeneratedRule where
  rule := onRequest "Modbus_Write_From_Unauthorized_Control_Writer" [functionCodes [6, 16]]
  mismatches :=
    [("src_ip", "(?i)^172\\.21\\.0\\.20$"), ("src_ip", "(?i)^172\\.22\\.0\\.10$")]

def modbusDeviceIdentificationScan : GeneratedRule where
  rule := onRequest "Modbus_Device_Identification_Scan" [functionCodes [17, 43]]
  mismatches := []

def firewallCrossZoneViolation : GeneratedRule where
  rule :=
    { alert := "Industrial_Protocol_Traffic_From_Enterprise_To_Control_Zone"
      filters := saying [("action", "DROP"), ("src_zone", "it"), ("dst_zone", "control")] }
  mismatches := [("proto", "(?i)^ICMP$")]

def processSafetyViolation : GeneratedRule where
  rule :=
    { alert := "Process_Safety_Violation_From_Physics_Aware_Monitor"
      filters := saying [("event_type", "process_safety_violation"), ("response", "none")] }
  mismatches := []

def c2Beacon : GeneratedRule where
  rule := ⟨"C2_Beacon_From_OT_Host", saying [("alert_type", "C2_BEACON")]⟩
  mismatches := []

def detectionServiceDown : GeneratedRule where
  rule := ⟨"Detection_Service_Stopped", saying [("alert_type", "DETECTION_SERVICE_DOWN")]⟩
  mismatches := []

/-- The rules of the bundle. -/
inductive RuleName where
  | detection (d : Detection)
  | modbusUnauthorizedWrite
  | modbusDeviceIdentificationScan
  | firewallCrossZoneViolation
  | processSafetyViolation
  | c2Beacon
  | detectionServiceDown
deriving DecidableEq, Repr

def RuleName.generated : RuleName → GeneratedRule
  | detection d => ⟨d.rule, []⟩
  | modbusUnauthorizedWrite => Siem.modbusUnauthorizedWrite
  | modbusDeviceIdentificationScan => Siem.modbusDeviceIdentificationScan
  | firewallCrossZoneViolation => Siem.firewallCrossZoneViolation
  | processSafetyViolation => Siem.processSafetyViolation
  | c2Beacon => Siem.c2Beacon
  | detectionServiceDown => Siem.detectionServiceDown

/-- The alert type of the evidence log that corresponds to a rule; three have none. -/
def RuleName.alertType : RuleName → Option String
  | detection d => some d.alertType
  | processSafetyViolation => some "PROCESS_SAFETY_VIOLATION"
  | c2Beacon => some "C2_BEACON"
  | detectionServiceDown => some "DETECTION_SERVICE_DOWN"
  | modbusUnauthorizedWrite | modbusDeviceIdentificationScan | firewallCrossZoneViolation => none

/-- The writers the Modbus rule excepts. -/
def controlWriters : List IPv4 := [⟨172, 21, 0, 20⟩, ⟨172, 22, 0, 10⟩]

/-! ## What the rules see of a line -/

/-- `re.escape` of a dotted text. -/
def escapeDots (text : String) : String :=
  String.ofList (replaceChar '.' ['\\', '.'] text.toList)

/-- What the documentation says of addresses. -/
structure Loki.DocumentedOnAddresses (L : Loki) : Prop where
  reads : ∀ d key (a : IPv4), PlainKeys d → d.lookup key = some (.str a.str) →
    L.labels (logfmt d) key = some a.str
  matchesDotted : ∀ a b : IPv4,
    L.isMatch ("(?i)^" ++ escapeDots a.str ++ "$") b.str = decide (b = a)

/-- The labels whose values are words. -/
def wordKeys : List String :=
  ["action", "src_zone", "dst_zone", "proto", "event_type", "response", "alert_type"]

/-- The values of the labels the rules look at. -/
structure Shown where
  line : Line
  srcIp : Option IPv4
  word : String → Option String

/-- The labels that are read carry the values. -/
structure Shown.Shows (s : Shown) (labels : String → Option String) : Prop where
  line : s.line.Shows labels
  srcIp : labels "src_ip" = s.srcIp.map IPv4.str
  word : ∀ key ∈ wordKeys, labels key = s.word key
  isWord : ∀ key ∈ wordKeys, ∀ t ∈ s.word key, IsWord t

/-- A label has a word for its value, apart from case. -/
def Shown.Says (s : Shown) (key word : String) : Prop :=
  ∃ t ∈ s.word key, foldCase t = foldCase word

/-- A rule, in terms of the values. -/
def Shown.Meets (s : Shown) : RuleName → Prop
  | .detection d => s.line.Triggers d
  | .modbusUnauthorizedWrite =>
    s.line.direction = some .request ∧ (∃ code ∈ s.line.functionCode, code ∈ [6, 16]) ∧
      ∀ a ∈ s.srcIp, a ∉ controlWriters
  | .modbusDeviceIdentificationScan =>
    s.line.direction = some .request ∧ ∃ code ∈ s.line.functionCode, code ∈ [17, 43]
  | .firewallCrossZoneViolation =>
    s.Says "action" "DROP" ∧ s.Says "src_zone" "it" ∧ s.Says "dst_zone" "control" ∧
      ¬ s.Says "proto" "ICMP"
  | .processSafetyViolation =>
    s.Says "event_type" "process_safety_violation" ∧ s.Says "response" "none"
  | .c2Beacon => s.Says "alert_type" "C2_BEACON"
  | .detectionServiceDown => s.Says "alert_type" "DETECTION_SERVICE_DOWN"

section Shows

variable {L : Loki} {s : Shown} {job text : String}

theorem any_isMatch_iff (hL : L.Documented) {labels : String → Option String} (h : s.Shows labels)
    {key word : String} (hkey : key ∈ wordKeys) (hword : IsWord word) :
    ((labels key).any fun t => L.isMatch ("(?i)^" ++ word ++ "$") t) = true ↔ s.Says key word := by
  have hisWord := h.isWord key hkey
  rw [h.word key hkey]
  unfold Shown.Says
  cases hs : s.word key with
  | none => simp
  | some t => simp [hL.ignoresCase word t hword (hisWord t hs)]

theorem any_isMatch_dotted_iff (hA : L.DocumentedOnAddresses) {labels : String → Option String}
    (h : s.Shows labels) (a : IPv4) :
    ((labels "src_ip").any fun t => L.isMatch ("(?i)^" ++ escapeDots a.str ++ "$") t) = true ↔
      s.srcIp = some a := by
  rw [h.srcIp]
  cases s.srcIp with
  | none => simp
  | some b => simp [hA.matchesDotted]

/-- A rule whose filters are words. -/
theorem fires_saying_iff (hL : L.Documented) (hjob : IsWord job) (h : s.Shows (L.labels text))
    (alert : String) {entries : List (String × String)}
    (hentries : ∀ e ∈ entries, e.1 ∈ wordKeys ∧ IsWord e.2) :
    Rule.fires L ⟨alert, saying entries⟩ job text = true ↔ ∀ e ∈ entries, s.Says e.1 e.2 := by
  unfold Rule.fires saying
  rw [hL.anyText job hjob, Bool.true_and, List.all_map, List.all_eq_true]
  refine forall₂_congr fun e he => ?_
  rw [← any_isMatch_iff hL h (hentries e he).1 (hentries e he).2]
  simp [LabelFilter.eval, LabelFilter.accepts, LabelFilter.label]

theorem fires_generated_iff {r : GeneratedRule} :
    r.fires L job text = true ↔ r.rule.fires L job text = true ∧
      ∀ f ∈ r.mismatches, ¬ ((L.labels text f.1).any fun t => L.isMatch f.2 t) = true := by
  unfold GeneratedRule.fires
  rw [Bool.and_eq_true, List.all_eq_true]
  simp only [Bool.not_eq_true']
  simp

/-- The patterns of the excepted writers are their addresses. -/
theorem writer_patterns :
    ("(?i)^172\\.21\\.0\\.20$" = "(?i)^" ++ escapeDots (IPv4.str ⟨172, 21, 0, 20⟩) ++ "$") ∧
      "(?i)^172\\.22\\.0\\.10$" = "(?i)^" ++ escapeDots (IPv4.str ⟨172, 22, 0, 10⟩) ++ "$" := by
  decide

/-- **A generated rule fires on what the labels say.** -/
theorem fires_eq_true_iff (hL : L.Documented) (hA : L.DocumentedOnAddresses) (hjob : IsWord job)
    (h : s.Shows (L.labels text)) (r : RuleName) :
    r.generated.fires L job text = true ↔ s.Meets r := by
  rw [fires_generated_iff]
  cases r with
  | detection d =>
    refine (and_iff_left ?_).trans (fires_iff hL hjob h.line d)
    exact fun _ hf => absurd hf List.not_mem_nil
  | modbusUnauthorizedWrite =>
    have hwriters : (∀ f ∈ modbusUnauthorizedWrite.mismatches,
        ¬ ((L.labels text f.1).any fun t => L.isMatch f.2 t) = true) ↔
          ∀ a ∈ s.srcIp, a ∉ controlWriters := by
      unfold modbusUnauthorizedWrite controlWriters
      rw [List.forall_mem_cons, List.forall_mem_singleton, writer_patterns.1, writer_patterns.2,
        any_isMatch_dotted_iff hA h, any_isMatch_dotted_iff hA h]
      cases s.srcIp <;> simp
    have hcodes := exists_functionCodes hL h.line [6, 16]
    refine (and_congr (fires_onRequest hL hjob h.line _ _) hwriters).trans ?_
    rw [List.forall_mem_singleton, hcodes, and_assoc]
    rfl
  | modbusDeviceIdentificationScan =>
    have hcodes := exists_functionCodes hL h.line [17, 43]
    refine (and_iff_left ?_).trans ((fires_onRequest hL hjob h.line _ _).trans ?_)
    · exact fun _ hf => absurd hf List.not_mem_nil
    · rw [List.forall_mem_singleton, hcodes]
      rfl
  | firewallCrossZoneViolation =>
    have hicmp : "(?i)^ICMP$" = "(?i)^" ++ "ICMP" ++ "$" := by decide
    have hproto : (∀ f ∈ firewallCrossZoneViolation.mismatches,
        ¬ ((L.labels text f.1).any fun t => L.isMatch f.2 t) = true) ↔ ¬ s.Says "proto" "ICMP" := by
      unfold firewallCrossZoneViolation
      rw [List.forall_mem_singleton, hicmp, any_isMatch_iff hL h (by decide) (by decide)]
    refine (and_congr (fires_saying_iff hL hjob h _ (by decide)) hproto).trans ?_
    simp only [List.forall_mem_cons, List.not_mem_nil, false_imp_iff, implies_true, and_true,
      and_assoc]
    rfl
  | processSafetyViolation =>
    refine (and_iff_left ?_).trans ((fires_saying_iff hL hjob h _ (by decide)).trans ?_)
    · exact fun _ hf => absurd hf List.not_mem_nil
    · simp only [List.forall_mem_cons, List.not_mem_nil, false_imp_iff, implies_true, and_true]
      rfl
  | c2Beacon =>
    refine (and_iff_left ?_).trans ((fires_saying_iff hL hjob h _ (by decide)).trans ?_)
    · exact fun _ hf => absurd hf List.not_mem_nil
    · exact List.forall_mem_singleton
  | detectionServiceDown =>
    refine (and_iff_left ?_).trans ((fires_saying_iff hL hjob h _ (by decide)).trans ?_)
    · exact fun _ hf => absurd hf List.not_mem_nil
    · exact List.forall_mem_singleton

/-- Loki shows of a record what its entries say. -/
theorem Shown.Shows.of_lookup (hL : L.Documented) (hA : L.DocumentedOnAddresses) {d : Dict}
    (hd : PlainKeys d) (hline : s.line.Shows (L.labels (logfmt d)))
    (hsrc : d.lookup "src_ip" = s.srcIp.map fun a => .str a.str)
    (hword : ∀ key ∈ wordKeys, (d.lookup key).bind Value.text? = s.word key ∧
      ∀ t ∈ s.word key, IsWord t) : s.Shows (L.labels (logfmt d)) where
  line := hline
  srcIp := by
    cases ha : s.srcIp with
    | none =>
      rw [ha] at hsrc
      exact hL.reads.absent d _ hd (by rw [hsrc]; rfl)
    | some a =>
      rw [ha] at hsrc
      exact hA.reads d _ a hd hsrc
  word key hkey := hL.reads.labels_eq hd (hword key hkey).1 (hword key hkey).2
  isWord key hkey := (hword key hkey).2

end Shows

/-! ## What is raised -/

/-- A rule fires on a line that is pushed. -/
def Raised (L : Loki) (calls : List SinkCall) (r : RuleName) : Prop :=
  ∃ service job fields, SinkCall.loki service job fields ∈ calls ∧
    r.generated.fires L job (logfmt fields) = true

section Raised

variable {L : Loki} {calls calls' : List SinkCall} {r : RuleName}

theorem not_raised_nil : ¬ Raised L [] r := by
  rintro ⟨_, _, _, h, -⟩
  exact List.not_mem_nil h

theorem raised_append : Raised L (calls ++ calls') r ↔ Raised L calls r ∨ Raised L calls' r := by
  simp only [Raised, List.mem_append, or_and_right, exists_or]

theorem raised_cons_loki {service job : String} {fields : Dict} :
    Raised L (.loki service job fields :: calls) r ↔
      r.generated.fires L job (logfmt fields) = true ∨ Raised L calls r := by
  simp only [Raised, List.mem_cons, SinkCall.loki.injEq, or_and_right, exists_or, and_assoc,
    exists_and_left, exists_eq_left]

theorem raised_cons_alert {alert : Dict} :
    Raised L (.alert alert :: calls) r ↔ Raised L calls r := by
  simp [Raised]

theorem not_raised_alerts (alerts : List Dict) : ¬ Raised L (alerts.map writeAlert) r := by
  rintro ⟨service, job, fields, h, -⟩
  obtain ⟨alert, -, heq⟩ := List.mem_map.mp h
  exact absurd heq nofun

end Raised

/-- A rule is about a request with a function code. -/
def RuleName.IsAbout (code : Nat) (linkSource : Option Nat) (src : IPv4) : RuleName → Prop
  | .detection d => (⟨some .request, some code, linkSource, none⟩ : Line).Triggers d
  | .modbusUnauthorizedWrite => code ∈ [6, 16] ∧ src ∉ controlWriters
  | .modbusDeviceIdentificationScan => code ∈ [17, 43]
  | _ => False

/-! ## Events of the protocols -/

section Events

variable {L : Loki} {packet : Packet} {r : RuleName}

/-- The event of a decoder with the addresses of its packet. -/
def eventShown (line : Line) (packet : Packet) : Shown := ⟨line, some packet.src, fun _ => none⟩

theorem lookup_append_of_not_mem {d d' : Dict} {key : String} (h : key ∉ d.map Prod.fst) :
    (d ++ d').lookup key = d'.lookup key := by
  have hnone : d.lookup key = none := by
    rw [List.lookup_eq_none_iff]
    intro p hp
    rw [bne_iff_ne]
    rintro rfl
    exact h (List.mem_map_of_mem hp)
  rw [List.lookup_append, hnone, Option.none_or]

theorem eventShown_shows (hL : L.Documented) (hA : L.DocumentedOnAddresses) {d : Dict}
    {keys : List String} (hd : (d.map Prod.fst).Sublist keys)
    (hplain : PlainKeys (d ++ endpoint packet)) (hkeys : ∀ key ∈ "src_ip" :: wordKeys, key ∉ keys)
    {line : Line} (hline : line.Shows (L.labels (logfmt (d ++ endpoint packet)))) :
    (eventShown line packet).Shows (L.labels (logfmt (d ++ endpoint packet))) := by
  have hlookup : ∀ key ∈ "src_ip" :: wordKeys,
      (d ++ endpoint packet).lookup key = (endpoint packet).lookup key := fun key hkey =>
    lookup_append_of_not_mem fun hmem => hkeys key hkey (hd.subset hmem)
  refine .of_lookup hL hA hplain hline ((hlookup _ List.mem_cons_self).trans rfl) fun key hkey => ?_
  rw [hlookup key (List.mem_cons_of_mem _ hkey)]
  refine ⟨?_, nofun⟩
  simp only [wordKeys, List.mem_cons, List.not_mem_nil, or_false] at hkey
  rcases hkey with rfl | rfl | rfl | rfl | rfl | rfl | rfl <;> rfl

theorem meets_event_iff {d : Direction} {code : Nat} {linkSource : Option Nat} :
    (eventShown ⟨some d, some code, linkSource, none⟩ packet).Meets r ↔
      d = .request ∧ r.IsAbout code linkSource packet.src := by
  cases r with
  | detection detection =>
    show some d = some Direction.request ∧ _ ↔
      d = .request ∧ some Direction.request = some .request ∧ _
    rw [Option.some_inj]
    exact and_congr_right fun _ => (and_iff_right rfl).symm
  | modbusUnauthorizedWrite | modbusDeviceIdentificationScan =>
    simp [Shown.Meets, eventShown, RuleName.IsAbout]
  | firewallCrossZoneViolation | processSafetyViolation | c2Beacon | detectionServiceDown =>
    simp [Shown.Meets, Shown.Says, eventShown, RuleName.IsAbout]

/-- Without a function code only the rules of the protocols are left. -/
theorem meets_codeless_iff {line : Line} (h : line.functionCode = none) :
    (eventShown line packet).Meets r ↔ ∃ d, r = .detection d ∧ line.Triggers d := by
  cases r with
  | detection detection => simp [Shown.Meets, eventShown]
  | modbusUnauthorizedWrite | modbusDeviceIdentificationScan =>
    simp [Shown.Meets, eventShown, h]
  | firewallCrossZoneViolation | processSafetyViolation | c2Beacon | detectionServiceDown =>
    simp [Shown.Meets, Shown.Says, eventShown]

/-- What a decoder pushes. -/
theorem raised_produce_iff {Event : Type} {service : String} {port : UInt16}
    {decode : Bytes → Py (Option Event)} {fields : Event → Dict}
    {alerts : Event → Packet → List Dict} :
    Raised L (callsOf (produce service port decode fields alerts packet)) r ↔
      ∃ payload ∈ payloadTo port packet, ∃ e, decode payload = .ok (some e) ∧
        r.generated.fires L "ot_ndr" (logfmt (fields e ++ endpoint packet)) = true := by
  unfold produce
  cases payloadTo port packet with
  | none => exact iff_of_false not_raised_nil nofun
  | some payload =>
    simp only [Option.mem_def, Option.some.injEq, exists_eq_left']
    cases hdecode : decode payload with
    | error => exact iff_of_false not_raised_nil nofun
    | ok event =>
      cases event with
      | none => exact iff_of_false not_raised_nil nofun
      | some e =>
        refine raised_cons_loki.trans ((or_iff_left (not_raised_alerts _)).trans ?_)
        simp only [Except.ok.injEq, Option.some.injEq, exists_eq_left']
        rfl

/-- The rules that fire on what is decoded from DNP3. -/
theorem raised_dnp3_iff (hL : L.Documented) (hA : L.DocumentedOnAddresses) (masters : List Nat) :
    Raised L (callsOf (Dnp3Dpi.processPacket masters packet)) r ↔
      ∃ payload ∈ payloadTo Dnp3Dpi.port packet, ∃ e, Dnp3.decode payload = .ok (some e) ∧
        e.direction = .request ∧
          r.IsAbout e.functionCode.toNat (some e.linkSource) packet.src := by
  refine raised_produce_iff.trans (exists_congr fun payload => and_congr_right fun _ =>
    exists_congr fun e => and_congr_right fun _ => ?_)
  exact (fires_eq_true_iff hL hA (by decide) (eventShown_shows hL hA e.keys_fields
    (plainKeys_endpoint e.keys_fields (by decide)) (by decide) (dnp3Line_shows hL e)) r).trans
      meets_event_iff

/-- The rules that fire on what is decoded from S7comm. -/
theorem raised_s7comm_iff (hL : L.Documented) (hA : L.DocumentedOnAddresses) :
    Raised L (callsOf (S7commDpi.processPacket packet)) r ↔
      ∃ payload ∈ payloadTo S7commDpi.port packet, ∃ p,
        S7comm.decode payload = .ok (some (.pdu p)) ∧ p.direction = .request ∧
          ∃ code ∈ p.functionCode, r.IsAbout code.toNat none packet.src := by
  refine raised_produce_iff.trans (exists_congr fun payload => and_congr_right fun _ => ?_)
  have hfires : ∀ e : S7comm.Event,
      r.generated.fires L "ot_ndr" (logfmt (e.fields ++ endpoint packet)) = true ↔
        (eventShown (s7commLine e) packet).Meets r := fun e =>
    fires_eq_true_iff hL hA (by decide) (eventShown_shows hL hA e.keys_fields
      (plainKeys_endpoint e.keys_fields (by decide)) (by decide) (s7commLine_shows hL e)) r
  simp only [hfires]
  constructor
  · rintro ⟨e, hdecode, hmeets⟩
    cases e with
    | connection cotpType =>
      -- a connection has no direction
      obtain ⟨d, -, htriggers⟩ := (meets_codeless_iff rfl).mp hmeets
      exact absurd htriggers.1 nofun
    | pdu p =>
      cases hcode : p.functionCode with
      | none =>
        -- the payload ends before the function code
        obtain ⟨d, -, htriggers⟩ := (meets_codeless_iff (by simp [s7commLine, hcode])).mp hmeets
        obtain ⟨-, -, code, hmem, -⟩ := (s7comm_triggers_iff p d).mp htriggers
        rw [hcode] at hmem
        cases hmem
      | some code =>
        have hline : s7commLine (.pdu p) = ⟨some p.direction, some code.toNat, none, none⟩ := by
          simp [s7commLine, hcode]
        rw [hline] at hmeets
        obtain ⟨hrequest, habout⟩ := meets_event_iff.mp hmeets
        exact ⟨p, hdecode, hrequest, code, hcode, habout⟩
  · rintro ⟨p, hdecode, hrequest, code, hcode, habout⟩
    have hline : s7commLine (.pdu p) = ⟨some p.direction, some code.toNat, none, none⟩ := by
      simp [s7commLine, Option.mem_def.mp hcode]
    refine ⟨.pdu p, hdecode, ?_⟩
    rw [hline]
    exact meets_event_iff.mpr ⟨hrequest, habout⟩

/-- The rules that fire on what is decoded from OPC UA. -/
theorem raised_opcua_iff (hL : L.Documented) (hA : L.DocumentedOnAddresses) :
    Raised L (callsOf (OpcUaDpi.processPacket packet)) r ↔
      ∃ payload ∈ payloadTo OpcUaDpi.port packet, ∃ e,
        OpcUa.decode payload = .ok (some e) ∧ ∃ d, r = .detection d ∧ (opcuaLine e).Triggers d := by
  refine raised_produce_iff.trans (exists_congr fun payload => and_congr_right fun _ =>
    exists_congr fun e => and_congr_right fun hdecode => ?_)
  exact (fires_eq_true_iff hL hA (by decide) (eventShown_shows hL hA e.keys_fields
    (plainKeys_endpoint e.keys_fields (by decide)) (by decide)
    (opcuaLine_shows hL (isWord_service hdecode))) r).trans (meets_codeless_iff rfl)

end Events

/-! ## A reader of addresses -/

section Dotted

/-- The characters of an address are digits and dots. -/
theorem forall_mem_chars {p : Char → Prop} (hdigit : ∀ d : Fin 10, p (Nat.digitChar d))
    (hdot : p '.') (a : IPv4) : ∀ c ∈ a.chars, p c := by
  have hoctet : ∀ n : UInt8, ∀ c ∈ IPv4.octetChars n, p c := by
    intro n c hc
    obtain ⟨d, rfl⟩ :=
      IPv4.eq_digitChar_of_isDigit (Nat.isDigit_of_mem_toDigits (by decide) (by decide) hc)
    exact hdigit d
  unfold IPv4.chars
  rw [List.intercalate_cons_cons, List.intercalate_cons_cons, List.intercalate_cons_cons,
    List.intercalate_singleton]
  simp only [List.forall_mem_append, List.forall_mem_singleton]
  exact ⟨⟨hoctet a.a, hdot⟩, ⟨hoctet a.b, hdot⟩, ⟨hoctet a.c, hdot⟩, hoctet a.d⟩

theorem isPlain_str (a : IPv4) : IsPlain a.str := by
  unfold IsPlain IPv4.str
  rw [String.toList_ofList]
  refine ⟨?_, forall_mem_chars (by decide) (by decide) a⟩
  unfold IPv4.chars
  rw [List.intercalate_cons_cons]
  simp

/-- An address has no case. -/
theorem foldCase_str (a : IPv4) : foldCase a.str = a.chars := by
  unfold foldCase IPv4.str
  rw [String.toList_ofList]
  refine (List.map_congr_left ?_).trans (List.map_id _)
  exact forall_mem_chars (by decide) (by decide) a

/-- Loki on words and addresses: patterns are read without their backslashes. -/
def dottedLoki : Loki where
  labels := wordLoki.labels
  isMatch pattern text := wordLoki.isMatch (String.ofList (pattern.toList.filter (· ≠ '\\'))) text
  parseFloat := wordLoki.parseFloat

theorem filter_escapeDots {l : List Char} (h : '\\' ∉ l) :
    (replaceChar '.' ['\\', '.'] l).filter (· ≠ '\\') = l := by
  induction l with
  | nil => rfl
  | cons c l ih =>
    obtain ⟨hc, hl⟩ := List.ne_and_not_mem_of_not_mem_cons h
    unfold replaceChar at ih ⊢
    rw [List.flatMap_cons, List.filter_append, ih hl]
    by_cases hdot : c = '.'
    · subst hdot
      rfl
    · rw [if_neg hdot, List.filter_singleton, decide_eq_true (Ne.symm hc)]
      rfl

/-- Without backslashes it is the reader of words. -/
theorem isMatch_dottedLoki {pattern text word : String}
    (h : pattern.toList.filter (· ≠ '\\') = word.toList) :
    dottedLoki.isMatch ("(?i)^" ++ pattern ++ "$") text =
      decide (foldCase text = foldCase word) := by
  have hends : "(?i)^".toList.filter (· ≠ '\\') = "(?i)^".toList ∧
      "$".toList.filter (· ≠ '\\') = "$".toList := by decide
  rw [← isMatch_wordLoki]
  show wordLoki.isMatch (String.ofList _) text = _
  congr 1
  apply String.toList_injective
  rw [String.toList_ofList]
  simp only [String.toList_append, List.filter_append, h, hends.1, hends.2]

theorem dottedLoki_documented : dottedLoki.Documented where
  reads := wordLoki_documented.reads
  ignoresCase word text hword _ := by
    refine isMatch_dottedLoki (List.filter_eq_self.mpr fun c hc => ?_)
    rw [decide_eq_true_eq]
    rintro rfl
    exact absurd (hword.2 _ hc) (by decide)
  anyText := wordLoki_documented.anyText
  number := wordLoki_documented.number

theorem dottedLoki_documentedOnAddresses : dottedLoki.DocumentedOnAddresses where
  reads d key a hd hlookup := labels_of_plain hd (by rw [hlookup]; rfl) (isPlain_str a)
  matchesDotted a b := by
    have hbackslash : '\\' ∉ a.chars := fun h =>
      forall_mem_chars (by decide) (by decide) a (p := (· ≠ '\\')) _ h rfl
    have hpattern : (escapeDots a.str).toList.filter (· ≠ '\\') = a.str.toList := by
      unfold escapeDots IPv4.str
      rw [String.toList_ofList, String.toList_ofList, filter_escapeDots hbackslash]
    rw [isMatch_dottedLoki hpattern, foldCase_str, foldCase_str, decide_eq_decide]
    exact ⟨fun h => IPv4.str_injective (congrArg String.ofList h), fun h => by rw [h]⟩

end Dotted

end OtLab.Siem
