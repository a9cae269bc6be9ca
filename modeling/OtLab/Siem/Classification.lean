import OtLab.Detection.Dnp3Dpi
import OtLab.Detection.OpcUaDpi
import OtLab.Detection.S7commDpi
import OtLab.Siem.Rules

/-!
# The evidence log and the SIEM

A producer pushes an event to Loki and writes the alerts of its own protocol. The rules do not look
at the service of a line, so a rule of one protocol can fire on an event of another one: DNP3 and
S7comm both have requests with a function code, and give different meanings to the same numbers.

* `dnp3_alerts_iff`, `s7comm_alerts_iff`, `opcua_alerts_iff` — an alert is written exactly for a
  rule of the producer's protocol that fires
* `classified_alike_iff` — so the two agree unless a request has a function code of the other table
-/

namespace OtLab.Siem

open Common Logfmt

/-! ## The two classifications -/

/-- The sink calls of a handler; one that raises before its sinks makes none. -/
def callsOf : Py (List SinkCall) → List SinkCall
  | .ok calls => calls
  | .error _ => []

/-- The rule of a detection fires on a line that was pushed. -/
def Fires (L : Loki) (calls : List SinkCall) (d : Detection) : Prop :=
  ∃ service job fields, SinkCall.loki service job fields ∈ calls ∧
    d.rule.fires L job (logfmt fields) = true

/-- An alert has the type of a detection. -/
def HasType (d : Detection) (alert : Dict) : Prop :=
  alert.lookup "alert_type" = some (.str d.alertType)

instance (d : Detection) (alert : Dict) : Decidable (HasType d alert) :=
  inferInstanceAs (Decidable (_ = _))

/-- The rules that fire are those of the alerts that are written. -/
def ClassifiedAlike (L : Loki) (process : Packet → Py (List SinkCall)) (packet : Packet) : Prop :=
  ∀ d, Fires L (callsOf (process packet)) d ↔
    ∃ alert ∈ alertsOf (callsOf (process packet)), HasType d alert

/-- The producers with the default masters. -/
def producers : List (Packet → Py (List SinkCall)) :=
  [Dnp3Dpi.processPacket Dnp3.authorizedMasters, S7commDpi.processPacket, OpcUaDpi.processPacket]

/-- The addresses every pushed event ends with. -/
def endpoint (packet : Packet) : Dict :=
  [("src_ip", .str packet.src.str), ("dst_ip", .str packet.dst.str)]

section Produce

variable {L : Loki} {Event : Type} {service : String} {port : UInt16}
  {decode : Bytes → Py (Option Event)} {fields : Event → Dict} {alerts : Event → Packet → List Dict}
  {packet : Packet}

/-- A producer classifies alike when it does so on what it decodes. -/
theorem classifiedAlike_produce_iff :
    ClassifiedAlike L (produce service port decode fields alerts) packet ↔
      ∀ payload ∈ payloadTo port packet, ∀ e, decode payload = .ok (some e) → ∀ d : Detection,
        (d.rule.fires L "ot_ndr" (logfmt (fields e ++ endpoint packet)) = true ↔
          ∃ alert ∈ alerts e packet, HasType d alert) := by
  unfold ClassifiedAlike produce
  cases payloadTo port packet with
  | none => simp [callsOf, Fires]
  | some payload =>
    simp only [Option.mem_def, Option.some.injEq, forall_eq']
    cases hdecode : decode payload with
    | error => simp [callsOf, Fires, bind, Except.bind]
    | ok event =>
      cases event with
      | none => simp [callsOf, Fires, bind, Except.bind, pure, Except.pure]
      | some e =>
        show (∀ d, Fires L (pushToLoki service (fields e) packet
          :: (alerts e packet).map writeAlert) d ↔ ∃ alert ∈ alertsOf (pushToLoki service (fields e)
            packet :: (alerts e packet).map writeAlert), HasType d alert) ↔ _
        rw [alertsOf_push]
        have hfires : ∀ d, Fires L (pushToLoki service (fields e) packet
            :: (alerts e packet).map writeAlert) d ↔
              d.rule.fires L "ot_ndr" (logfmt (fields e ++ endpoint packet)) = true := by
          intro d
          simp [Fires, pushToLoki, writeAlert, endpoint]
        simp only [hfires, Except.ok.injEq, Option.some.injEq, forall_eq']

end Produce

/-! ## What the producers push -/

def dnp3Line (e : Dnp3.Event) : Line where
  direction := some e.direction
  functionCode := some e.functionCode.toNat
  linkSource := some e.linkSource
  service := none

def s7commLine : S7comm.Event → Line
  | .connection _ => ⟨none, none, none, none⟩
  | .pdu p => ⟨some p.direction, p.functionCode.map UInt8.toNat, none, none⟩

def opcuaLine (e : OpcUa.Event) : Line where
  direction := e.service.map OpcUa.Service.direction
  functionCode := none
  linkSource := none
  service := e.service.map OpcUa.Service.name

section Shows

variable {L : Loki} {packet : Packet}

/-- The keys of an event and of its endpoint are words, each used once. -/
theorem plainKeys_endpoint {d : Dict} {keys : List String} (h : (d.map Prod.fst).Sublist keys)
    (hkeys : (∀ k ∈ keys ++ ["src_ip", "dst_ip"], IsWord k) ∧
      (keys ++ ["src_ip", "dst_ip"]).Nodup) : PlainKeys (d ++ endpoint packet) := by
  refine plainKeys_of_sublist ?_ hkeys
  rw [List.map_append]
  exact .append h (.refl _)

theorem dnp3Line_shows (hL : L.Documented) (e : Dnp3.Event) :
    (dnp3Line e).Shows (L.labels (logfmt (e.fields ++ endpoint packet))) := by
  exact .of_lookup hL (plainKeys_endpoint e.keys_fields (by decide)) rfl rfl rfl rfl nofun

theorem s7commLine_shows (hL : L.Documented) (e : S7comm.Event) :
    (s7commLine e).Shows (L.labels (logfmt (e.fields ++ endpoint packet))) := by
  have hkeys : PlainKeys (e.fields ++ endpoint packet) :=
    plainKeys_endpoint e.keys_fields (by decide)
  cases e with
  | connection cotpType => exact .of_lookup hL hkeys rfl rfl rfl rfl nofun
  | pdu p =>
    obtain ⟨rosctr, pduReference, parameterLength, dataLength, cotpType, functionCode⟩ := p
    cases functionCode with
    | none => exact .of_lookup hL hkeys rfl rfl rfl rfl nofun
    | some functionCode => exact .of_lookup hL hkeys rfl rfl rfl rfl nofun

theorem lookup_entry_of_ne {α : Type} {key k : String} (h : key ≠ k) (value : α → Value)
    (x : Option α) : (OpcUa.entry k value x).lookup key = none := by
  cases x with
  | none => rfl
  | some x => rw [OpcUa.entry, List.lookup_cons, beq_false_of_ne h]; rfl

theorem opcuaLine_shows (hL : L.Documented) {e : OpcUa.Event}
    (hword : ∀ s ∈ e.service, IsWord s.name) :
    (opcuaLine e).Shows (L.labels (logfmt (e.fields ++ endpoint packet))) := by
  have hkeys : PlainKeys (e.fields ++ endpoint packet) :=
    plainKeys_endpoint e.keys_fields (by decide)
  have hname : ∀ s ∈ (opcuaLine e).service, IsWord s := by
    intro s hs
    obtain ⟨service, hmem, rfl⟩ := Option.mem_map.mp hs
    exact hword service hmem
  refine .of_lookup hL hkeys ?_ ?_ ?_ ?_ hname
  all_goals
    unfold OpcUa.Event.fields
    cases hs : e.service <;>
      simp [opcuaLine, hs, List.lookup_append, lookup_entry_of_ne, endpoint, List.lookup_cons,
        Value.text?]

end Shows

/-! ## Function codes -/

/-- The function codes of a detection, in the tables of its producer. -/
def Detection.codes : Detection → List UInt8
  | .unauthorizedControl => Dnp3.controlFunctions
  | .restartCommand => Dnp3.restartFunctions
  | .unsolicitedDisabled => Dnp3.unsolicitedDisable
  | .programDownload => S7commDpi.programDownload
  | .programUpload => S7commDpi.programUpload
  | .changeOperatingMode => S7commDpi.controlOrStop
  | .browseRequest | .writeRequest | .methodCall => []

theorem exists_toNat_mem {code : Option UInt8} (codes : List UInt8) :
    (∃ n ∈ code.map UInt8.toNat, n ∈ codes.map UInt8.toNat) ↔ ∃ c ∈ code, c ∈ codes := by
  cases code with
  | none => simp
  | some c => simp [UInt8.toNat_inj]

/-- Which rules fire on a line with a function code: those whose codes contain it. -/
theorem triggers_iff_codes {line : Line} {code : Option UInt8}
    (hcode : line.functionCode = code.map UInt8.toNat) (hservice : line.service = none)
    (d : Detection) :
    line.Triggers d ↔ line.direction = some .request ∧ (∃ c ∈ code, c ∈ d.codes) ∧
      (d = .unauthorizedControl →
        ∃ source ∈ line.linkSource, source ∉ Dnp3.authorizedMasters) := by
  have hcodes := @exists_toNat_mem code d.codes
  unfold Line.Triggers
  rw [hcode, hservice]
  refine and_congr_right fun _ => ?_
  cases d
  case unauthorizedControl =>
    refine and_congr hcodes ?_
    simp [Dnp3.authorizedMasters]
  case browseRequest | writeRequest | methodCall => simp [Detection.codes]
  all_goals
    refine hcodes.trans (and_iff_left ?_).symm
    exact nofun

theorem dnp3_triggers_iff (e : Dnp3.Event) (d : Detection) :
    (dnp3Line e).Triggers d ↔ e.direction = .request ∧ e.functionCode ∈ d.codes ∧
      (d = .unauthorizedControl → e.linkSource ∉ Dnp3.authorizedMasters) := by
  have hcode : (dnp3Line e).functionCode = (some e.functionCode).map UInt8.toNat := rfl
  rw [triggers_iff_codes hcode rfl]
  simp [dnp3Line]

theorem s7comm_triggers_iff (p : S7comm.Pdu) (d : Detection) :
    (s7commLine (.pdu p)).Triggers d ↔ p.direction = .request ∧ d ≠ .unauthorizedControl ∧
      ∃ code ∈ p.functionCode, code ∈ d.codes := by
  have hcode : (s7commLine (.pdu p)).functionCode = p.functionCode.map UInt8.toNat := rfl
  rw [triggers_iff_codes hcode rfl]
  simp [s7commLine, and_comm]

/-- No function code belongs to two detections of S7comm. -/
theorem s7comm_groups_disjoint (code : UInt8) :
    (code ∈ S7commDpi.programDownload → code ∉ S7commDpi.programUpload ∧
      code ∉ S7commDpi.controlOrStop) ∧
    (code ∈ S7commDpi.programUpload → code ∉ S7commDpi.controlOrStop) := by
  constructor
  · intro h
    simp only [S7commDpi.programDownload, List.mem_cons, List.not_mem_nil, or_false] at h
    rcases h with rfl | rfl | rfl <;> decide
  · intro h
    simp only [S7commDpi.programUpload, List.mem_cons, List.not_mem_nil, or_false] at h
    rcases h with rfl | rfl | rfl <;> decide

theorem hasType_cons {d : Detection} (d' : Detection) (rest : Dict) :
    HasType d (("alert_type", .str d'.alertType) :: rest) ↔ d = d' := by
  unfold HasType
  rw [List.lookup_cons_self, Option.some.injEq, Value.str.injEq,
    Detection.alertType_injective.eq_iff, eq_comm]

/-! ## Alerts and rules of one protocol -/

theorem dnp3_alerts_iff (e : Dnp3.Event) (packet : Packet) (d : Detection) :
    (∃ alert ∈ Dnp3Dpi.alerts Dnp3.authorizedMasters e packet, HasType d alert) ↔
      d.service = "dnp3" ∧ (dnp3Line e).Triggers d := by
  have hcontrol : ∀ l, HasType d (Dnp3Dpi.unauthorizedControl ++ l) ↔ d = .unauthorizedControl :=
    fun l => hasType_cons .unauthorizedControl _
  have hrestart : ∀ l, HasType d (Dnp3Dpi.restartCommand ++ l) ↔ d = .restartCommand :=
    fun l => hasType_cons .restartCommand _
  have hunsolicited : ∀ l, HasType d (Dnp3Dpi.unsolicitedDisabled ++ l) ↔
      d = .unsolicitedDisabled := fun l => hasType_cons .unsolicitedDisabled _
  rw [dnp3_triggers_iff]
  unfold Dnp3Dpi.alerts
  by_cases hd : e.direction = .request
  · rw [if_neg (not_not.mpr hd)]
    cases d <;>
      simp [hd, Detection.service, Detection.codes, or_and_right, exists_or, hcontrol,
        hrestart, hunsolicited]
  · rw [if_pos hd]
    simp [hd]

/-- The alert for a function code is the one of the detection it belongs to. -/
theorem hasType_detection_iff (code : UInt8) (l : Dict) (d : Detection) :
    (∃ head ∈ S7commDpi.detection code, HasType d (head ++ l)) ↔
      d.service = "s7comm" ∧ code ∈ d.codes := by
  obtain ⟨hdownload, hupload⟩ := s7comm_groups_disjoint code
  unfold S7commDpi.detection
  split
  · next h =>
    obtain ⟨hnu, hnc⟩ := hdownload h
    have htype : ∀ rest, HasType d (_ :: rest) ↔ _ := hasType_cons .programDownload
    simp only [Option.mem_def, Option.some.injEq, exists_eq_left']
    refine (htype _).trans ?_
    cases d <;> simp [Detection.service, Detection.codes, h, hnu, hnc]
  split
  · next hnd h =>
    have hnc := hupload h
    have htype : ∀ rest, HasType d (_ :: rest) ↔ _ := hasType_cons .programUpload
    simp only [Option.mem_def, Option.some.injEq, exists_eq_left']
    refine (htype _).trans ?_
    cases d <;> simp [Detection.service, Detection.codes, hnd, h, hnc]
  split
  · next hnd hnu h =>
    have htype : ∀ rest, HasType d (_ :: rest) ↔ _ := hasType_cons .changeOperatingMode
    simp only [Option.mem_def, Option.some.injEq, exists_eq_left']
    refine (htype _).trans ?_
    cases d <;> simp [Detection.service, Detection.codes, hnd, hnu, h]
  · next hnd hnu hnc =>
    cases d <;> simp [Detection.service, Detection.codes, hnd, hnu, hnc]

theorem s7comm_alerts_iff (e : S7comm.Event) (packet : Packet) (d : Detection) :
    (∃ alert ∈ S7commDpi.alerts e packet, HasType d alert) ↔
      d.service = "s7comm" ∧ (s7commLine e).Triggers d := by
  cases e with
  | connection cotpType => simp [S7commDpi.alerts, s7commLine, Line.Triggers]
  | pdu p =>
    have hne : d.service = "s7comm" → d ≠ .unauthorizedControl := by
      rintro hs rfl
      exact absurd hs (by decide)
    unfold S7commDpi.alerts
    rw [s7comm_triggers_iff]
    by_cases hd : p.direction = .request
    · dsimp only
      rw [if_neg (not_not.mpr hd)]
      cases hfc : p.functionCode with
      | none => simp
      | some code =>
        dsimp only
        generalize (("protocol", Value.str "s7comm") :: _ : Dict) = l
        have hown : d.service = "s7comm" ∧ p.direction = .request ∧ d ≠ .unauthorizedControl ∧
            (∃ c ∈ some code, c ∈ d.codes) ↔ d.service = "s7comm" ∧ code ∈ d.codes := by
          simp only [Option.mem_def, Option.some.injEq, exists_eq_left']
          exact and_congr_right fun hs => ⟨fun h => h.2.2, fun h => ⟨hd, hne hs, h⟩⟩
        rw [hown, ← hasType_detection_iff code l d]
        cases S7commDpi.detection code <;> simp
    · dsimp only
      rw [if_pos hd]
      simp [hd]

/-- The alert types of `DETECTIONS` are those of the rules for the same services. -/
theorem detections_iff (d : Detection) : ∀ p ∈ OpcUa.requestServices,
    ((OpcUaDpi.detections.lookup p.2).map Prod.fst = some d.alertType ↔
      d.service = "opcua" ∧ (⟨some .request, none, none, some p.2⟩ : Line).Triggers d) := by
  cases d <;>
    simp only [Line.Triggers]
  all_goals decide

theorem opcua_alerts_iff {e : OpcUa.Event} {payload : Bytes}
    (h : OpcUa.decode payload = .ok (some e)) (packet : Packet) (d : Detection) :
    (∃ alert ∈ OpcUaDpi.alerts e packet, HasType d alert) ↔
      d.service = "opcua" ∧ (opcuaLine e).Triggers d := by
  unfold OpcUaDpi.alerts
  cases hs : e.service with
  | none => simp [opcuaLine, hs, Line.Triggers]
  | some s =>
    obtain ⟨nspace, identifier, hservice⟩ := OpcUa.service_of_decode h (Option.mem_def.mpr hs)
    dsimp only
    rcases OpcUa.serviceOf_eq_some hservice with ⟨hd, hmem⟩ | ⟨hd, -⟩
    · have hline : opcuaLine e = ⟨some .request, none, none, some s.name⟩ := by
        simp [opcuaLine, hs, hd]
      rw [if_neg (not_not.mpr hd), hline, ← detections_iff d _ hmem]
      cases OpcUaDpi.detections.lookup s.name with
      | none => simp
      | some detection =>
        obtain ⟨alertType, mitreId, description⟩ := detection
        simp [HasType]
    · have hline : (opcuaLine e).direction = some .response := by
        simp [opcuaLine, hs, hd]
      rw [if_pos (by rw [hd]; decide)]
      simp [Line.Triggers, hline]

/-! ## Rules of another protocol -/

/-- The function codes of the rules that are not about DNP3. -/
theorem exists_foreign_dnp3_iff (code : UInt8) :
    (∃ d : Detection, d.service ≠ "dnp3" ∧ code ∈ d.codes) ↔
      code ∈ S7commDpi.programDownload ++ S7commDpi.programUpload ++ S7commDpi.controlOrStop := by
  constructor
  · rintro ⟨d, hs, hmem⟩
    cases d
    case programDownload => exact List.mem_append_left _ (List.mem_append_left _ hmem)
    case programUpload => exact List.mem_append_left _ (List.mem_append_right _ hmem)
    case changeOperatingMode => exact List.mem_append_right _ hmem
    case browseRequest | writeRequest | methodCall => cases hmem
    all_goals exact absurd rfl hs
  · intro hmem
    rcases List.mem_append.mp hmem with hmem | hmem
    · rcases List.mem_append.mp hmem with hmem | hmem
      · exact ⟨.programDownload, by decide, hmem⟩
      · exact ⟨.programUpload, by decide, hmem⟩
    · exact ⟨.changeOperatingMode, by decide, hmem⟩

/-- The function codes of the rules that are not about S7comm and do not look at a link source. -/
theorem exists_foreign_s7comm_iff (code : UInt8) :
    (∃ d : Detection, d.service ≠ "s7comm" ∧ d ≠ .unauthorizedControl ∧ code ∈ d.codes) ↔
      code ∈ Dnp3.restartFunctions ++ Dnp3.unsolicitedDisable := by
  constructor
  · rintro ⟨d, hs, hne, hmem⟩
    cases d
    case restartCommand => exact List.mem_append_left _ hmem
    case unsolicitedDisabled => exact List.mem_append_right _ hmem
    case unauthorizedControl => exact absurd rfl hne
    case browseRequest | writeRequest | methodCall => cases hmem
    all_goals exact absurd rfl hs
  · intro hmem
    rcases List.mem_append.mp hmem with hmem | hmem
    · exact ⟨.restartCommand, by decide, nofun, hmem⟩
    · exact ⟨.unsolicitedDisabled, by decide, nofun, hmem⟩

/-- A DNP3 event meets a foreign rule only as a request with a function code of S7comm. -/
theorem dnp3_foreign_iff (e : Dnp3.Event) :
    (∀ d, (dnp3Line e).Triggers d → d.service = "dnp3") ↔
      ∀ code ∈ e.requestCode?,
        code ∉ S7commDpi.programDownload ++ S7commDpi.programUpload ++ S7commDpi.controlOrStop := by
  simp only [dnp3_triggers_iff, ← exists_foreign_dnp3_iff]
  constructor
  · rintro h code hcode ⟨d, hs, hmem⟩
    obtain ⟨hd, heq⟩ := Option.ite_none_right_eq_some.mp hcode
    obtain rfl := Option.some.inj heq
    exact hs (h d ⟨hd, hmem, fun hd => absurd (hd ▸ rfl) hs⟩)
  · rintro h d ⟨hd, hmem, -⟩
    by_contra hs
    exact h e.functionCode (if_pos hd) ⟨d, hs, hmem⟩

/-- An S7comm event meets a foreign rule only as a Job with a function code of DNP3. -/
theorem s7comm_foreign_iff (e : S7comm.Event) :
    (∀ d, (s7commLine e).Triggers d → d.service = "s7comm") ↔
      ∀ code ∈ e.jobCode?, code ∉ Dnp3.restartFunctions ++ Dnp3.unsolicitedDisable := by
  cases e with
  | connection cotpType => exact iff_of_true (fun d h => nomatch h.1) nofun
  | pdu p =>
    simp only [s7comm_triggers_iff, ← exists_foreign_s7comm_iff]
    constructor
    · rintro h code hcode ⟨d, hs, hne, hmem⟩
      obtain ⟨hd, hfc⟩ := Option.ite_none_right_eq_some.mp hcode
      exact hs (h d ⟨hd, hne, code, hfc, hmem⟩)
    · rintro h d ⟨hd, hne, code, hfc, hmem⟩
      by_contra hs
      have hcode : (S7comm.Event.pdu p).jobCode? = p.functionCode := if_pos hd
      exact h code (hcode ▸ hfc) ⟨d, hs, hne, hmem⟩

/-- An OPC UA event has no function code. -/
theorem opcua_foreign (e : OpcUa.Event) (d : Detection) (h : (opcuaLine e).Triggers d) :
    d.service = "opcua" := by
  obtain ⟨-, h⟩ := h
  cases d
  case browseRequest | writeRequest | methodCall => rfl
  case unauthorizedControl =>
    obtain ⟨⟨_, hc, -⟩, -⟩ := h
    cases hc
  all_goals
    obtain ⟨_, hc, -⟩ := h
    cases hc

/-! ## The packets that are classified alike -/

/-- The requests of the packet have no function code that is in a table of the other protocol. -/
def Unshared (packet : Packet) : Prop :=
  (∀ payload ∈ payloadTo Dnp3Dpi.port packet, ∀ code ∈ Dnp3.requestCode? payload,
    code ∉ S7commDpi.programDownload ++ S7commDpi.programUpload ++ S7commDpi.controlOrStop) ∧
  (∀ payload ∈ payloadTo S7commDpi.port packet, ∀ code ∈ S7comm.jobCode? payload,
    code ∉ Dnp3.restartFunctions ++ Dnp3.unsolicitedDisable)

/-- A condition on the function codes of events is one on the octets. -/
theorem forall_decoded_iff {Event : Type} {decoded : Py (Option Event)} {octet : Option UInt8}
    {code? : Event → Option UInt8}
    (h : ∃ event, decoded = .ok event ∧ octet = event.bind code?) (p : UInt8 → Prop) :
    (∀ e, decoded = .ok (some e) → ∀ code ∈ code? e, p code) ↔ ∀ code ∈ octet, p code := by
  obtain ⟨event, rfl, rfl⟩ := h
  cases event with
  | none => simp
  | some e => simp

variable {L : Loki}

/-- When a producer alerts exactly for its own rules, only a foreign rule can make a difference. -/
theorem alike_iff_of_own (hL : L.Documented) {line : Line} {d : Dict} {service : String}
    {alerts : List Dict} (hshows : line.Shows (L.labels (logfmt d)))
    (hown : ∀ d, (∃ alert ∈ alerts, HasType d alert) ↔ d.service = service ∧ line.Triggers d) :
    (∀ x : Detection, (x.rule.fires L "ot_ndr" (logfmt d) = true ↔
      ∃ alert ∈ alerts, HasType x alert)) ↔ ∀ x, line.Triggers x → x.service = service := by
  refine forall_congr' fun x => ?_
  rw [fires_iff hL (by decide) hshows, hown]
  exact iff_and_self

theorem dnp3_classifiedAlike_iff (hL : L.Documented) (packet : Packet) :
    ClassifiedAlike L (Dnp3Dpi.processPacket Dnp3.authorizedMasters) packet ↔
      ∀ payload ∈ payloadTo Dnp3Dpi.port packet, ∀ code ∈ Dnp3.requestCode? payload,
        code ∉ S7commDpi.programDownload ++ S7commDpi.programUpload ++ S7commDpi.controlOrStop := by
  refine classifiedAlike_produce_iff.trans (forall₂_congr fun payload _ => ?_)
  rw [← forall_decoded_iff (Dnp3.exists_decode payload)]
  refine forall₂_congr fun e _ => ?_
  rw [alike_iff_of_own hL (dnp3Line_shows hL e) (dnp3_alerts_iff e packet), dnp3_foreign_iff]

theorem s7comm_classifiedAlike_iff (hL : L.Documented) (packet : Packet) :
    ClassifiedAlike L S7commDpi.processPacket packet ↔
      ∀ payload ∈ payloadTo S7commDpi.port packet, ∀ code ∈ S7comm.jobCode? payload,
        code ∉ Dnp3.restartFunctions ++ Dnp3.unsolicitedDisable := by
  refine classifiedAlike_produce_iff.trans (forall₂_congr fun payload _ => ?_)
  rw [← forall_decoded_iff (S7comm.exists_decode payload)]
  refine forall₂_congr fun e _ => ?_
  rw [alike_iff_of_own hL (s7commLine_shows hL e) (s7comm_alerts_iff e packet),
    s7comm_foreign_iff]

theorem isWord_service {e : OpcUa.Event} {payload : Bytes}
    (hdecode : OpcUa.decode payload = .ok (some e)) : ∀ s ∈ e.service, IsWord s.name := by
  have hnames : ∀ p ∈ OpcUa.requestServices ++ OpcUa.responseServices, IsWord p.2 := by
    decide +kernel
  intro s hs
  obtain ⟨_, _, hservice⟩ := OpcUa.service_of_decode hdecode hs
  rcases OpcUa.serviceOf_eq_some hservice with ⟨-, hmem⟩ | ⟨-, hmem⟩
  · exact hnames _ (List.mem_append_left _ hmem)
  · exact hnames _ (List.mem_append_right _ hmem)

/-- OPC UA events are always classified alike. -/
theorem opcua_classifiedAlike (hL : L.Documented) (packet : Packet) :
    ClassifiedAlike L OpcUaDpi.processPacket packet := by
  refine classifiedAlike_produce_iff.mpr fun payload _ e hdecode => ?_
  exact (alike_iff_of_own hL (opcuaLine_shows hL (isWord_service hdecode))
    (opcua_alerts_iff hdecode packet)).mpr (opcua_foreign e)

/--
**Evidence log and SIEM classify a packet alike exactly when its function code is unshared.**

The rules that fire on the lines of the three producers are those of the alerts they write, if and
only if no DNP3 request has a function code that S7comm reports, and no S7comm Job one that is a
restart or disables unsolicited responses in DNP3.
-/
theorem classified_alike_iff (hL : L.Documented) (packet : Packet) :
    (∀ process ∈ producers, ClassifiedAlike L process packet) ↔ Unshared packet := by
  unfold producers Unshared
  rw [List.forall_mem_cons, List.forall_mem_cons, List.forall_mem_singleton,
    and_iff_left (opcua_classifiedAlike hL packet)]
  exact and_congr (dnp3_classifiedAlike_iff hL packet) (s7comm_classifiedAlike_iff hL packet)

/-! ## A reader of the format -/

/-- Loki on words: the reader of logfmt, patterns `(?i)^word$` and decimal numbers. -/
def wordLoki : Loki where
  labels := Logfmt.labels
  isMatch pattern text :=
    if pattern = ".+" then decide (text ≠ "")
    else decide (foldCase text = (pattern.toList.drop 5).dropLast.map Char.toLower)
  parseFloat text :=
    if text.toList.all Char.isDigit then some (Nat.ofDigitChars 10 text.toList 0 : ℚ) else none

theorem isMatch_wordLoki (word text : String) :
    wordLoki.isMatch ("(?i)^" ++ word ++ "$") text = decide (foldCase text = foldCase word) := by
  have hpattern : ("(?i)^" ++ word ++ "$").toList = "(?i)^".toList ++ word.toList ++ ['$'] := by
    rw [String.toList_append, String.toList_append]
    rfl
  have hne : "(?i)^" ++ word ++ "$" ≠ ".+" := by
    intro h
    have hlist := hpattern.symm.trans (congrArg String.toList h)
    exact absurd (List.cons.inj hlist).1 (by decide)
  have hword : (("(?i)^" ++ word ++ "$").toList.drop 5).dropLast = word.toList := by
    rw [hpattern]
    exact List.dropLast_concat
  unfold wordLoki foldCase
  dsimp only
  rw [if_neg hne, hword]

theorem wordLoki_documented : wordLoki.Documented where
  reads := reads_labels
  ignoresCase word text _ _ := isMatch_wordLoki word text
  anyText := by
    rintro text ⟨hne, -⟩
    refine decide_eq_true ?_
    rintro rfl
    exact hne rfl
  number := by
    intro n
    have hdigits : (toString n).toList = Nat.toDigits 10 n := Nat.toList_repr
    have hall : (Nat.toDigits 10 n).all Char.isDigit = true :=
      List.all_eq_true.mpr fun c hc => Nat.isDigit_of_mem_toDigits (by decide) (by decide) hc
    unfold wordLoki
    dsimp only
    rw [hdigits, if_pos hall, Nat.ofDigitChars_toDigits (by decide) (by decide)]

instance (packet : Packet) : Decidable (Unshared packet) :=
  have (code? : Option UInt8) (codes : List UInt8) : Decidable (∀ code ∈ code?, code ∉ codes) :=
    Option.decidableForallMem code?
  inferInstanceAs (Decidable (_ ∧ _))

/-- A request to start a download, sent to the controller. -/
def downloadPacket : Packet :=
  .segment ⟨172, 23, 0, 20⟩ ⟨172, 21, 0, 52⟩ ⟨50000, S7commDpi.port, 24⟩
    [0x03, 0x00, 0x00, 0x12, 0x02, 0xF0, 0x80, 0x32, 0x01, 0x00, 0x00, 0x02, 0x6B, 0x00, 0x0E,
      0x00, 0x00, 0x1A]

theorem classified_alike_iff_download :
    ClassifiedAlike wordLoki S7commDpi.processPacket downloadPacket :=
  (classified_alike_iff wordLoki_documented downloadPacket).mpr (by decide) _ (by
    simp [producers])

/-- A DNP3 request to delete a file, with a function code that starts a block download in S7comm. -/
def deleteFilePacket : Packet :=
  .segment ⟨172, 23, 0, 20⟩ ⟨172, 21, 0, 50⟩ ⟨50000, Dnp3Dpi.port, 24⟩
    [0x05, 0x64, 0x08, 0xC4, 0x0A, 0x00, 0x01, 0x00, 0xFC, 0x42, 0xC0, 0xC0, 0x1B]

/-- A DNP3 request fires a rule of S7comm, so the two do not classify every packet alike. -/
theorem classified_differently :
    ¬ ∀ L : Loki, L.Documented → ∀ packet : Packet, ∀ process ∈ producers,
      ClassifiedAlike L process packet := by
  intro h
  have hlike := h wordLoki wordLoki_documented deleteFilePacket _ List.mem_cons_self
  have hcodes := (dnp3_classifiedAlike_iff wordLoki_documented deleteFilePacket).mp hlike _ rfl
  exact hcodes 27 (by decide) (by decide)

end OtLab.Siem
