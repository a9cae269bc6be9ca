import Mathlib.Data.Rat.Sqrt
import OtLab.Attack.C2Beacon
import OtLab.Detection.SafetyAlerts
import OtLab.Detection.Watchdog
import OtLab.Governance.SecurityTests
import OtLab.Siem.Bundle

/-!
# What the ruler raises

Six producers push to Loki: the three protocol decoders, the observer of the firewall, the safety
monitor and the watchdog. Modbus requests are not pushed by any of them, so the two rules on them
see only the requests of the other protocols.

* `ruler_raises` — the generated rules that fire on what a producer pushes, whatever state it is in
* `suite_rules_raised` — an alert a test of the suite expects comes with a rule the test waits for
-/

namespace OtLab

/-! ## The line of a drop -/

open Logfmt in
theorem Zone.isWord_name (z : Zone) : IsWord z.name := by
  cases z <;> decide

open Logfmt in
theorem ProtoName.isWord_text (proto : ProtoName) : IsWord proto.text := by
  cases proto <;> decide

/-- The entries of the line `firewall_events.py` pushes. -/
def DropEvent.fields (e : DropEvent) : Dict :=
  [ ("action", .str "DROP"),
    ("src_zone", .str e.srcZone.name),
    ("dst_zone", .str e.dstZone.name),
    ("src_ip", .str e.srcIp.str),
    ("dst_ip", .str e.dstIp.str),
    ("dst_port", .int e.dstPort.toNat),
    ("proto", .str e.proto.text) ]

open Logfmt in
/-- The line is the one `logfmt` writes. -/
theorem DropEvent.logfmt_fields (e : DropEvent) : Common.logfmt e.fields = e.line := by
  have hport : toString (e.dstPort.toNat : Int) = toString e.dstPort.toNat := rfl
  have hentries : entries e.fields =
      [ ("action", "DROP"), ("src_zone", e.srcZone.name), ("dst_zone", e.dstZone.name),
        ("src_ip", e.srcIp.str), ("dst_ip", e.dstIp.str),
        ("dst_port", toString e.dstPort.toNat), ("proto", e.proto.text) ] := rfl
  rw [logfmt_eq, hentries]
  simp only [List.map_cons, List.map_nil]
  rw [pair_of_plain _ (isPlain_of_isWord (by decide)),
    pair_of_plain _ (isPlain_of_isWord e.srcZone.isWord_name),
    pair_of_plain _ (isPlain_of_isWord e.dstZone.isWord_name), pair_of_plain _ (Siem.isPlain_str _),
    pair_of_plain _ (Siem.isPlain_str _), pair_of_plain _ (isPlain_of_isWord (isWord_toString _)),
    pair_of_plain _ (isPlain_of_isWord e.proto.isWord_text)]
  have haction : "action=DROP src_zone="
      = "action" ++ "=" ++ "DROP" ++ " " ++ ("src_zone" ++ "=") := by decide
  have hdst : " dst_zone=" = " " ++ ("dst_zone" ++ "=") := by decide
  have hsrcIp : " src_ip=" = " " ++ ("src_ip" ++ "=") := by decide
  have hdstIp : " dst_ip=" = " " ++ ("dst_ip" ++ "=") := by decide
  have hdstPort : " dst_port=" = " " ++ ("dst_port" ++ "=") := by decide
  have hproto : " proto=" = " " ++ ("proto" ++ "=") := by decide
  unfold DropEvent.line
  rw [haction, hdst, hsrcIp, hdstIp, hdstPort, hproto]
  simp only [String.intercalate_cons_cons, String.intercalate_singleton, String.append_assoc]

/-! ## The producers -/

namespace Siem

open Common Logfmt

/--
What the environment of the producers settles. The texts are those of `round(mean, 2)` and of
`round(coefficient, 3)`, which are floats.
-/
structure Settings (K : Type*) where
  safety : ProcessSafety.Config
  beacon : Beacon.Config K
  sqrt : K → K
  intervalText : K → String
  coefficientText : K → String
  repeatSeconds : K

/-- A call of a producer that pushes to Loki, with the state it is in. -/
inductive Call (K : Type*) where
  | dnp3 (packet : Packet)
  | s7comm (packet : Packet)
  | opcua (packet : Packet)
  | firewall (packet : Packet) (times : Beacon.BeaconTimes K) (now : K)
  | safety (packet : Packet) (shadow : ProcessSafety.Shadow)
  | watchdog (scripts : List String) (now : K) (running : String → Bool)
      (last : Watchdog.LastAlerted K)

section Calls

variable {K : Type*} [Field K] [LinearOrder K] (cfg : Settings K)

/-- `fields` of `check_beacon`. -/
def beaconFields (e : DropEvent) (r : Beacon.Regularity K) : Dict :=
  [ ("alert_type", .str "C2_BEACON"),
    ("source_ip", .str e.srcIp.str),
    ("dest_ip", .str e.dstIp.str),
    ("dest_port", .int e.dstPort.toNat),
    ("proto", .str e.proto.text),
    ("beacon_count", .int r.count),
    ("interval_seconds", .str (cfg.intervalText r.mean)),
    ("interval_cv", .str (cfg.coefficientText r.coefficient)) ]

/-- The sink calls of `check_beacon`. -/
def beaconCalls (e : DropEvent) (r : Beacon.Regularity K) : List SinkCall :=
  [ .loki "firewall" "ot_ndr" (beaconFields cfg e r),
    .alert (beaconFields cfg e r ++
      [ ("mitre_id", .str "T0869"),
        ("description", .str ("Regular-interval egress from an OT host to the enterprise/C2 "
          ++ "address (denied by the zone firewall): C2 beaconing pattern.")) ]) ]

/-- The beacon a drop completes. -/
def beaconOf (e : DropEvent) (times : Beacon.BeaconTimes K) (now : K) :
    Option (Beacon.Regularity K) :=
  if e.checksBeacon then
    (Beacon.sample cfg.beacon cfg.sqrt (times (Beacon.eventKey e)) now).2
  else none

/-- The sink calls of a call. -/
def Call.sinks : Call K → List SinkCall
  | dnp3 packet => callsOf (Dnp3Dpi.processPacket Dnp3.authorizedMasters packet)
  | s7comm packet => callsOf (S7commDpi.processPacket packet)
  | opcua packet => callsOf (OpcUaDpi.processPacket packet)
  | firewall packet times now => (handle packet).toList.flatMap fun e =>
    .loki "iptables" "ot_firewall" e.fields
      :: (beaconOf cfg e times now).toList.flatMap (beaconCalls cfg e)
  | safety packet shadow => (ProcessSafety.observe cfg.safety shadow packet).2
  | watchdog scripts now running last =>
    (Watchdog.check cfg.repeatSeconds scripts now running last).2

end Calls

/-- What makes a rule fire on a call. -/
def Call.Causes {K : Type*} [Field K] [LinearOrder K] (cfg : Settings K)
    (r : RuleName) : Call K → Prop
  | dnp3 packet => ∃ payload ∈ payloadTo Dnp3Dpi.port packet, ∃ e,
      Dnp3.decode payload = .ok (some e) ∧ e.direction = .request ∧
        r.IsAbout e.functionCode.toNat (some e.linkSource) packet.src
  | s7comm packet => ∃ payload ∈ payloadTo S7commDpi.port packet, ∃ p,
      S7comm.decode payload = .ok (some (.pdu p)) ∧ p.direction = .request ∧
        ∃ code ∈ p.functionCode, r.IsAbout code.toNat none packet.src
  | opcua packet => ∃ payload ∈ payloadTo OpcUaDpi.port packet, ∃ e,
      OpcUa.decode payload = .ok (some e) ∧ ∃ d, r = .detection d ∧ (opcuaLine e).Triggers d
  | firewall packet times now => ∃ e ∈ handle packet,
      r = .firewallCrossZoneViolation ∧ e.srcZone = .it ∧ e.dstZone = .control ∧ e.proto ≠ .icmp ∨
        r = .c2Beacon ∧ beaconOf cfg e times now ≠ none
  | safety packet shadow => r = .processSafetyViolation ∧
      (ProcessSafety.observe cfg.safety shadow packet).2 ≠ []
  | watchdog scripts now running last => r = .detectionServiceDown ∧
      (Watchdog.check cfg.repeatSeconds scripts now running last).2 ≠ []

/-! ## Other records -/

section Records

variable {L : Loki} {r : RuleName}

/-- A record that is about no request. -/
def recordShown (srcIp : Option IPv4) (d : Dict) : Shown where
  line := ⟨none, none, none, none⟩
  srcIp := srcIp
  word key := (d.lookup key).bind Value.text?

/-- The labels of the rules on requests. -/
def requestKeys : List String := ["direction", "function_code", "link_source", "opcua_service"]

theorem recordShown_shows (hL : L.Documented) (hA : L.DocumentedOnAddresses) {d : Dict}
    (hd : PlainKeys d) (srcIp : Option IPv4) (hrequest : ∀ key ∈ requestKeys, d.lookup key = none)
    (hsrc : d.lookup "src_ip" = srcIp.map fun a => .str a.str)
    (hword : ∀ key ∈ wordKeys, ∀ t ∈ (d.lookup key).bind Value.text?, IsWord t) :
    (recordShown srcIp d).Shows (L.labels (logfmt d)) := by
  have hnone : ∀ key ∈ requestKeys, (d.lookup key).bind Value.text? = none := fun key hkey => by
    rw [hrequest key hkey]
    rfl
  refine .of_lookup hL hA hd (.of_lookup hL hd ?_ ?_ ?_ ?_ nofun) hsrc fun key hkey =>
    ⟨rfl, hword key hkey⟩
  all_goals exact hnone _ (by decide)

theorem isWord_of_absent {d : Dict} {key : String} (h : d.lookup key = none) :
    ∀ t ∈ (d.lookup key).bind Value.text?, IsWord t := by
  intro t ht
  rw [h] at ht
  exact absurd ht (Option.not_mem_none t)

/-- The rules that are about no request. -/
theorem meets_record_iff {srcIp : Option IPv4} {d : Dict} :
    (recordShown srcIp d).Meets r ↔
      (r = .firewallCrossZoneViolation ∧ (recordShown srcIp d).Says "action" "DROP" ∧
        (recordShown srcIp d).Says "src_zone" "it" ∧
        (recordShown srcIp d).Says "dst_zone" "control" ∧
        ¬ (recordShown srcIp d).Says "proto" "ICMP") ∨
      (r = .processSafetyViolation ∧
        (recordShown srcIp d).Says "event_type" "process_safety_violation" ∧
        (recordShown srcIp d).Says "response" "none") ∨
      (r = .c2Beacon ∧ (recordShown srcIp d).Says "alert_type" "C2_BEACON") ∨
      (r = .detectionServiceDown ∧
        (recordShown srcIp d).Says "alert_type" "DETECTION_SERVICE_DOWN") := by
  cases r with
  | detection x =>
    refine iff_of_false (fun h => absurd h.1 nofun) ?_
    simp
  | modbusUnauthorizedWrite | modbusDeviceIdentificationScan =>
    refine iff_of_false (fun h => absurd h.1 nofun) ?_
    simp
  | firewallCrossZoneViolation | processSafetyViolation | c2Beacon | detectionServiceDown =>
    simp [Shown.Meets]

/-- A label of a record says what its entry does. -/
theorem says_iff {srcIp : Option IPv4} {d : Dict} {key word text : String}
    (h : (d.lookup key).bind Value.text? = some text) :
    (recordShown srcIp d).Says key word ↔ foldCase text = foldCase word := by
  show (∃ t ∈ (d.lookup key).bind Value.text?, _) ↔ _
  rw [h]
  simp

theorem not_says {srcIp : Option IPv4} {d : Dict} {key word : String}
    (h : d.lookup key = none) : ¬ (recordShown srcIp d).Says key word := by
  rintro ⟨t, ht, -⟩
  rw [show (recordShown srcIp d).word key = (d.lookup key).bind Value.text? from rfl, h] at ht
  exact absurd ht (Option.not_mem_none t)

/-- The drops one of the rules is about. -/
theorem meets_drop_iff (e : DropEvent) :
    (recordShown (some e.srcIp) e.fields).Meets r ↔
      r = .firewallCrossZoneViolation ∧ e.srcZone = .it ∧ e.dstZone = .control ∧
        e.proto ≠ .icmp := by
  have hzone : ∀ z : Zone, (foldCase z.name = foldCase "it" ↔ z = .it) ∧
      (foldCase z.name = foldCase "control" ↔ z = .control) := by
    intro z
    cases z <;> decide
  have hproto : ∀ proto : ProtoName, foldCase proto.text = foldCase "ICMP" ↔ proto = .icmp := by
    intro proto
    cases proto <;> decide
  have haction : (recordShown (some e.srcIp) e.fields).Says "action" "DROP" :=
    (says_iff rfl).mpr rfl
  have hsrc : (recordShown (some e.srcIp) e.fields).Says "src_zone" "it" ↔ e.srcZone = .it :=
    (says_iff rfl).trans (hzone _).1
  have hdst : (recordShown (some e.srcIp) e.fields).Says "dst_zone" "control" ↔
      e.dstZone = .control := (says_iff rfl).trans (hzone _).2
  have hicmp : (recordShown (some e.srcIp) e.fields).Says "proto" "ICMP" ↔ e.proto = .icmp :=
    (says_iff rfl).trans (hproto _)
  have hevent : ∀ word, ¬ (recordShown (some e.srcIp) e.fields).Says "event_type" word :=
    fun _ => not_says rfl
  have halert : ∀ word, ¬ (recordShown (some e.srcIp) e.fields).Says "alert_type" word :=
    fun _ => not_says rfl
  simp only [meets_record_iff, haction, hsrc, hdst, hicmp, hevent, halert, true_and, false_and,
    and_false, or_false, ne_eq]

/-- A record with an alert type is about the rule of that type. -/
theorem meets_alertType_iff {srcIp : Option IPv4} {d : Dict} {alertType : String}
    (haction : d.lookup "action" = none) (hevent : d.lookup "event_type" = none)
    (htype : d.lookup "alert_type" = some (.str alertType)) :
    (recordShown srcIp d).Meets r ↔ (r = .c2Beacon ∧ foldCase alertType = foldCase "C2_BEACON") ∨
      (r = .detectionServiceDown ∧ foldCase alertType = foldCase "DETECTION_SERVICE_DOWN") := by
  have haction' : ∀ word, ¬ (recordShown srcIp d).Says "action" word := fun _ => not_says haction
  have hevent' : ∀ word, ¬ (recordShown srcIp d).Says "event_type" word := fun _ => not_says hevent
  have htype' : ∀ word, (recordShown srcIp d).Says "alert_type" word ↔
      foldCase alertType = foldCase word := fun word => says_iff (by rw [htype]; rfl)
  simp only [meets_record_iff, haction', hevent', htype', false_and, and_false, false_or]

/-! ## The records -/

/-- What fires on a record without the labels of a request. -/
theorem fires_record_iff (hL : L.Documented) (hA : L.DocumentedOnAddresses) {job : String}
    {d : Dict} (hjob : IsWord job) (hd : PlainKeys d) (srcIp : Option IPv4)
    (hrequest : requestKeys.all (fun key => (d.lookup key).isNone) = true)
    (hsrc : d.lookup "src_ip" = srcIp.map fun a => .str a.str)
    (hword : ∀ key ∈ wordKeys, ∀ t ∈ (d.lookup key).bind Value.text?, IsWord t) :
    r.generated.fires L job (logfmt d) = true ↔ (recordShown srcIp d).Meets r := by
  have habsent : ∀ key ∈ requestKeys, d.lookup key = none := fun key hkey =>
    Option.isNone_iff_eq_none.mp (List.all_eq_true.mp hrequest key hkey)
  exact fires_eq_true_iff hL hA hjob (recordShown_shows hL hA hd srcIp habsent hsrc hword) r

/-- A drop makes only the rule on traffic of the Enterprise fire. -/
theorem fires_drop_iff (hL : L.Documented) (hA : L.DocumentedOnAddresses) (e : DropEvent) :
    r.generated.fires L "ot_firewall" (logfmt e.fields) = true ↔
      r = .firewallCrossZoneViolation ∧ e.srcZone = .it ∧ e.dstZone = .control ∧
        e.proto ≠ .icmp := by
  have hkeys : PlainKeys e.fields := plainKeys_of_sublist
    (.refl ["action", "src_zone", "dst_zone", "src_ip", "dst_ip", "dst_port", "proto"])
    (by decide)
  refine (fires_record_iff hL hA (by decide) hkeys _ rfl rfl ?_).trans (meets_drop_iff e)
  simp only [wordKeys, List.forall_mem_cons]
  refine ⟨?_, ?_, ?_, ?_, isWord_of_absent rfl, isWord_of_absent rfl, isWord_of_absent rfl,
    List.forall_mem_nil _⟩
  · rintro _ ⟨⟩
    decide
  · rintro _ ⟨⟩
    exact e.srcZone.isWord_name
  · rintro _ ⟨⟩
    exact e.dstZone.isWord_name
  · rintro _ ⟨⟩
    exact e.proto.isWord_text

/-- A safety violation makes only the rule on safety violations fire. -/
theorem fires_violation_iff (hL : L.Documented) (hA : L.DocumentedOnAddresses)
    (asset actor : String) (register : Int) (level : Nat) :
    let d : Dict :=
      [ ("event_type", .str "process_safety_violation"), ("asset", .str asset),
        ("register", .int register), ("value", .int 1), ("tank_level_pct", .int level),
        ("actor", .str actor), ("response", .str "none") ]
    r.generated.fires L "ot_process" (logfmt d) = true ↔ r = .processSafetyViolation := by
  intro d
  have hkeys : PlainKeys d := plainKeys_of_sublist
    (.refl ["event_type", "asset", "register", "value", "tank_level_pct", "actor", "response"])
    (by decide)
  refine (fires_record_iff hL hA (by decide) hkeys none rfl rfl ?_).trans ?_
  · simp only [wordKeys, List.forall_mem_cons]
    refine ⟨isWord_of_absent rfl, isWord_of_absent rfl, isWord_of_absent rfl,
      isWord_of_absent rfl, ?_, ?_, isWord_of_absent rfl, List.forall_mem_nil _⟩
    · rintro _ ⟨⟩
      decide
    · rintro _ ⟨⟩
      decide
  · have haction : ∀ word, ¬ (recordShown none d).Says "action" word := fun _ => not_says rfl
    have halert : ∀ word, ¬ (recordShown none d).Says "alert_type" word := fun _ => not_says rfl
    have hevent : (recordShown none d).Says "event_type" "process_safety_violation" :=
      (says_iff rfl).mpr rfl
    have hresponse : (recordShown none d).Says "response" "none" := (says_iff rfl).mpr rfl
    simp only [meets_record_iff, haction, halert, hevent, hresponse, false_and, and_false, and_true,
      false_or, or_false]

/-- A beacon makes only the rule on beacons fire. -/
theorem fires_beacon_iff {K : Type*} [Field K] [LinearOrder K] (cfg : Settings K)
    (hL : L.Documented) (hA : L.DocumentedOnAddresses) (e : DropEvent) (b : Beacon.Regularity K) :
    r.generated.fires L "ot_ndr" (logfmt (beaconFields cfg e b)) = true ↔ r = .c2Beacon := by
  have hkeys : PlainKeys (beaconFields cfg e b) := plainKeys_of_sublist
    (.refl ["alert_type", "source_ip", "dest_ip", "dest_port", "proto", "beacon_count",
      "interval_seconds", "interval_cv"]) (by decide)
  refine (fires_record_iff hL hA (by decide) hkeys none rfl rfl ?_).trans
    ((meets_alertType_iff rfl rfl rfl).trans ?_)
  · simp only [wordKeys, List.forall_mem_cons]
    refine ⟨isWord_of_absent rfl, isWord_of_absent rfl, isWord_of_absent rfl, ?_,
      isWord_of_absent rfl, isWord_of_absent rfl, ?_, List.forall_mem_nil _⟩
    · rintro _ ⟨⟩
      exact e.proto.isWord_text
    · rintro _ ⟨⟩
      decide
  · have hother : foldCase "C2_BEACON" ≠ foldCase "DETECTION_SERVICE_DOWN" := by decide
    simp [hother]

/-- A stopped producer makes only the rule on stopped producers fire. -/
theorem fires_serviceDown_iff (hL : L.Documented) (hA : L.DocumentedOnAddresses) (script : String) :
    r.generated.fires L "ot_ndr" (logfmt (Watchdog.fields script)) = true ↔
      r = .detectionServiceDown := by
  have hkeys : PlainKeys (Watchdog.fields script) := plainKeys_of_sublist
    (.refl ["alert_type", "service"]) (by decide)
  refine (fires_record_iff hL hA (by decide) hkeys none rfl rfl ?_).trans
    ((meets_alertType_iff rfl rfl rfl).trans ?_)
  · simp only [wordKeys, List.forall_mem_cons]
    refine ⟨isWord_of_absent rfl, isWord_of_absent rfl, isWord_of_absent rfl,
      isWord_of_absent rfl, isWord_of_absent rfl, isWord_of_absent rfl, ?_, List.forall_mem_nil _⟩
    rintro _ ⟨⟩
    decide
  · have hother : foldCase "DETECTION_SERVICE_DOWN" ≠ foldCase "C2_BEACON" := by decide
    simp [hother]

end Records

/-! ## The calls -/

/-- The same calls any number of times, each for something else. -/
def Repeats {α : Type*} (f : α → List SinkCall) (calls : List SinkCall) : Prop :=
  ∃ l : List α, calls = l.flatMap f

section Repeats

variable {α : Type*} {f : α → List SinkCall} {calls : List SinkCall} {L : Loki} {r rule : RuleName}

theorem repeats_nil : Repeats f [] := ⟨[], rfl⟩

theorem Repeats.append (h : Repeats f calls) (x : α) : Repeats f (calls ++ f x) := by
  obtain ⟨l, rfl⟩ := h
  exact ⟨l ++ [x], by simp⟩

/-- When one rule fires for each, it is the only one that fires, unless there are none. -/
theorem Repeats.raised_iff (h : Repeats f calls) (hne : ∀ x, f x ≠ [])
    (hf : ∀ x, Raised L (f x) r ↔ r = rule) : Raised L calls r ↔ r = rule ∧ calls ≠ [] := by
  obtain ⟨l, rfl⟩ := h
  cases l with
  | nil => exact iff_of_false not_raised_nil fun h => h.2 rfl
  | cons x l =>
    rw [List.flatMap_cons, and_iff_left (List.append_ne_nil_of_left_ne_nil (hne x) _),
      raised_append, hf x, or_iff_left_iff_imp]
    rintro ⟨service, job, fields, hmem, hfires⟩
    obtain ⟨y, -, hy⟩ := List.mem_flatMap.mp hmem
    exact (hf y).mp ⟨service, job, fields, hy, hfires⟩

end Repeats

/-- What `log_alert` of the safety monitor does is all that reaches the sinks. -/
theorem observe_repeats (cfg : ProcessSafety.Config) (shadow : ProcessSafety.Shadow)
    (p : Packet) :
    Repeats (ProcessSafety.logAlert cfg p.src) (ProcessSafety.observe cfg shadow p).2 := by
  -- part 2 enforces the writes one after the other
  have hfold : ∀ (writes : List (Int × Nat)) (s : ProcessSafety.Shadow),
      Repeats (ProcessSafety.logAlert cfg p.src)
        (writes.foldl (ProcessSafety.enforce cfg p.src) (s, [])).2 := by
    intro writes s
    refine List.foldlRecOn (motive := fun st : _ × List SinkCall => Repeats _ st.2) writes _
      repeats_nil ?_
    intro st hst write _
    unfold ProcessSafety.enforce
    by_cases hreg : write.1 ≠ cfg.inletValveReg
    · rwa [if_pos hreg]
    · rw [if_neg hreg]
      dsimp only
      split
      · exact hst.append _
      · exact hst
  unfold ProcessSafety.observe ProcessSafety.processPacket
  cases p.load? with
  | none => exact repeats_nil
  | some payload =>
    dsimp only
    by_cases hlen : payload.length < 8
    · rw [if_pos hlen]
      exact repeats_nil
    have hcode : Bytes.getByte payload 7 = .ok payload[7] :=
      Bytes.getByte_of_some (List.getElem?_eq_getElem (by omega))
    -- part 1 only changes the shadow
    obtain ⟨s, hs, -⟩ := @ProcessSafety.learn_ok cfg shadow p.src payload[7] payload
    obtain ⟨writes, hwrites⟩ := ProcessSafety.exists_iterWrites payload payload[7]
    simp only [if_neg hlen, hcode, bind, Except.bind, hs, hwrites, pure, Except.pure]
    by_cases hwrite : p.dst = cfg.plcIp ∧ (payload[7] = 6 ∨ payload[7] = 16)
    · simp only [if_pos hwrite]
      exact hfold writes s
    · simp only [if_neg hwrite]
      exact repeats_nil

/-- The watchdog calls its sinks for one script after the other. -/
theorem check_repeats {K : Type*} [AddCommGroup K] [LinearOrder K] (rep now : K)
    (running : String → Bool) (last : Watchdog.LastAlerted K) (scripts : List String) :
    Repeats (fun script => [.loki "watchdog" "ot_ndr" (Watchdog.fields script),
      .alert (Watchdog.serviceDown script)]) (Watchdog.check rep scripts now running last).2 := by
  refine List.foldlRecOn (motive := fun st : _ × List SinkCall => Repeats _ st.2) scripts _
    repeats_nil ?_
  intro st hst script _
  unfold Watchdog.checkScript
  -- the script runs, it was reported lately, or it is reported
  split_ifs
  · exact hst
  · exact hst
  · exact hst.append script

/-! ## What is raised -/

section Raised

variable {L : Loki} {K : Type*} [Field K] [LinearOrder K]

/-- A generated rule fires on what is pushed exactly if the call is a cause for it. -/
theorem raised_iff (hL : L.Documented) (hA : L.DocumentedOnAddresses) (cfg : Settings K)
    (c : Call K) (r : RuleName) : Raised L (c.sinks cfg) r ↔ c.Causes cfg r := by
  cases c with
  | dnp3 packet => exact raised_dnp3_iff hL hA Dnp3.authorizedMasters
  | s7comm packet => exact raised_s7comm_iff hL hA
  | opcua packet => exact raised_opcua_iff hL hA
  | firewall packet times now =>
    show Raised L ((handle packet).toList.flatMap _) r ↔ ∃ e ∈ handle packet, _
    cases handle packet with
    | none => exact iff_of_false not_raised_nil nofun
    | some e =>
      -- the drop is pushed first, then the beacon it completes
      have hdrop := fires_drop_iff (r := r) hL hA e
      rw [Option.toList_some, List.flatMap_singleton, raised_cons_loki, hdrop]
      simp only [Option.mem_def, Option.some.injEq, exists_eq_left']
      refine or_congr_right ?_
      cases beaconOf cfg e times now with
      | none => exact iff_of_false not_raised_nil fun h => h.2 rfl
      | some b =>
        have hbeacon := fires_beacon_iff (r := r) cfg hL hA e b
        rw [Option.toList_some, List.flatMap_singleton, beaconCalls, raised_cons_loki,
          raised_cons_alert, or_iff_left not_raised_nil, hbeacon]
        exact (and_iff_left (Option.some_ne_none b)).symm
  | safety packet shadow =>
    refine (observe_repeats cfg.safety shadow packet).raised_iff (fun _ => List.cons_ne_nil _ _)
      fun level => ?_
    unfold ProcessSafety.logAlert
    rw [raised_cons_alert, raised_cons_loki, or_iff_left not_raised_nil]
    exact fires_violation_iff hL hA _ _ _ _
  | watchdog scripts now running last =>
    refine (check_repeats cfg.repeatSeconds now running last scripts).raised_iff
      (fun _ => List.cons_ne_nil _ _) fun script => ?_
    rw [raised_cons_loki, raised_cons_alert, or_iff_left not_raised_nil]
    exact fires_serviceDown_iff hL hA script

end Raised

/-! ## Alerts and rules -/

section Alerts

variable {packet : Packet} {alert : Dict}

theorem exists_hasType_dnp3 {masters : List Nat} {e : Dnp3.Event}
    (h : alert ∈ Dnp3Dpi.alerts masters e packet) : ∃ d, HasType d alert := by
  unfold Dnp3Dpi.alerts at h
  split at h
  · cases h
  simp only [List.mem_append, List.mem_ite_nil_right, List.mem_singleton] at h
  rcases h with (⟨-, rfl⟩ | ⟨-, rfl⟩) | ⟨-, rfl⟩
  · exact ⟨.unauthorizedControl, rfl⟩
  · exact ⟨.restartCommand, rfl⟩
  · exact ⟨.unsolicitedDisabled, rfl⟩

theorem exists_hasType_s7comm {e : S7comm.Event} (h : alert ∈ S7commDpi.alerts e packet) :
    ∃ d, HasType d alert := by
  unfold S7commDpi.alerts S7commDpi.detection at h
  split at h
  · cases h
  split_ifs at h
  · cases h
  split at h
  · cases h
  split at h
  · cases h
  · next head hhead =>
    obtain rfl := List.mem_singleton.mp h
    split_ifs at hhead <;> obtain rfl := Option.some.inj hhead
    · exact ⟨.programDownload, rfl⟩
    · exact ⟨.programUpload, rfl⟩
    · exact ⟨.changeOperatingMode, rfl⟩

theorem exists_hasType_opcua {e : OpcUa.Event} (h : alert ∈ OpcUaDpi.alerts e packet) :
    ∃ d, HasType d alert := by
  have htypes : ∀ entry ∈ OpcUaDpi.detections, ∃ d : Detection, entry.2.1 = d.alertType := by
    simp only [OpcUaDpi.detections, List.forall_mem_cons]
    exact ⟨⟨.browseRequest, rfl⟩, ⟨.browseRequest, rfl⟩, ⟨.writeRequest, rfl⟩, ⟨.methodCall, rfl⟩,
      List.forall_mem_nil _⟩
  unfold OpcUaDpi.alerts at h
  split at h
  · cases h
  split_ifs at h
  · cases h
  split at h
  · cases h
  · next hlookup =>
    obtain rfl := List.mem_singleton.mp h
    obtain ⟨before, behind, hsplit, -⟩ := List.lookup_eq_some_iff.mp hlookup
    have hmem := hsplit ▸ List.mem_append_right before List.mem_cons_self
    obtain ⟨d, hd⟩ := htypes _ hmem
    exact ⟨d, congrArg (fun text => some (Value.str text)) hd⟩

end Alerts

section Evidence

variable {L : Loki} {K : Type*} [Field K] [LinearOrder K]

/-- What a decoder writes for an event it has pushed. -/
theorem mem_alertsOf_produce {Event : Type} {service : String} {port : UInt16}
    {decode : Bytes → Py (Option Event)} {fields : Event → Dict}
    {alerts : Event → Packet → List Dict} {packet : Packet} {alert : Dict}
    (h : alert ∈ alertsOf (callsOf (produce service port decode fields alerts packet))) :
    ∃ payload ∈ payloadTo port packet, ∃ e, decode payload = .ok (some e) ∧
      alert ∈ alerts e packet := by
  unfold produce at h
  cases hload : payloadTo port packet with
  | none =>
    rw [hload] at h
    cases h
  | some payload =>
    rw [hload] at h
    refine ⟨payload, rfl, ?_⟩
    cases hdecode : decode payload with
    | error e =>
      simp only [hdecode, bind, Except.bind] at h
      cases h
    | ok event =>
      simp only [hdecode, bind, Except.bind] at h
      cases event with
      | none => cases h
      | some e =>
        refine ⟨e, rfl, ?_⟩
        rwa [← alertsOf_push service (fields e) packet (alerts e packet)]

theorem mem_alertsOf_iff {alert : Dict} {calls : List SinkCall} :
    alert ∈ alertsOf calls ↔ .alert alert ∈ calls := by
  unfold alertsOf
  rw [List.mem_filterMap]
  constructor
  · rintro ⟨call, hmem, hcall⟩
    cases call with
    | alert a => exact Option.some.inj hcall ▸ hmem
    | loki service job fields => cases hcall
  · exact fun hmem => ⟨_, hmem, rfl⟩

theorem Repeats.mem_alertsOf {α : Type*} {f : α → List SinkCall} {calls : List SinkCall}
    {alert : Dict} (h : Repeats f calls) (hmem : alert ∈ alertsOf calls) :
    calls ≠ [] ∧ ∃ x, alert ∈ alertsOf (f x) := by
  obtain ⟨l, rfl⟩ := h
  have hcall := mem_alertsOf_iff.mp hmem
  obtain ⟨x, -, hx⟩ := List.mem_flatMap.mp hcall
  exact ⟨List.ne_nil_of_mem hcall, x, mem_alertsOf_iff.mpr hx⟩

/-- An alert has the type a rule corresponds to. -/
def RuleName.IsFor (r : RuleName) (alert : Dict) : Prop :=
  ∃ alertType ∈ r.alertType, alert.lookup "alert_type" = some (.str alertType)

/-- An alert in the evidence log comes with its rule. -/
theorem exists_rule_of_alert (hL : L.Documented) (hA : L.DocumentedOnAddresses) (cfg : Settings K)
    (c : Call K) {alert : Dict} (h : alert ∈ alertsOf (c.sinks cfg)) :
    ∃ r : RuleName, r.IsFor alert ∧ Raised L (c.sinks cfg) r := by
  simp only [raised_iff hL hA]
  cases c with
  | dnp3 packet =>
    obtain ⟨payload, hload, e, hdecode, halert⟩ := mem_alertsOf_produce h
    obtain ⟨d, hd⟩ := exists_hasType_dnp3 halert
    have htriggers := ((dnp3_alerts_iff e packet d).mp ⟨alert, halert, hd⟩).2
    have hrequest : e.direction = .request := Option.some.inj htriggers.1
    refine ⟨.detection d, ⟨d.alertType, rfl, hd⟩, payload, hload, e, hdecode, hrequest, ?_⟩
    show Line.Triggers ⟨some .request, some e.functionCode.toNat, some e.linkSource, none⟩ d
    rwa [← hrequest]
  | s7comm packet =>
    obtain ⟨payload, hload, e, hdecode, halert⟩ := mem_alertsOf_produce h
    obtain ⟨d, hd⟩ := exists_hasType_s7comm halert
    have htriggers := ((s7comm_alerts_iff e packet d).mp ⟨alert, halert, hd⟩).2
    cases e with
    | connection cotpType => exact absurd htriggers.1 (Option.some_ne_none _).symm
    | pdu p =>
      obtain ⟨hrequest, hne, code, hcode, hmem⟩ := (s7comm_triggers_iff p d).mp htriggers
      refine ⟨.detection d, ⟨d.alertType, rfl, hd⟩, payload, hload, p, hdecode, hrequest, code,
        hcode, ?_⟩
      have hline : s7commLine (.pdu p) = ⟨some .request, some code.toNat, none, none⟩ := by
        simp [s7commLine, hrequest, Option.mem_def.mp hcode]
      show Line.Triggers ⟨some .request, some code.toNat, none, none⟩ d
      rwa [← hline]
  | opcua packet =>
    obtain ⟨payload, hload, e, hdecode, halert⟩ := mem_alertsOf_produce h
    obtain ⟨d, hd⟩ := exists_hasType_opcua halert
    exact ⟨.detection d, ⟨d.alertType, rfl, hd⟩, payload, hload, e, hdecode, d, rfl,
      ((opcua_alerts_iff hdecode packet d).mp ⟨alert, halert, hd⟩).2⟩
  | firewall packet times now =>
    obtain ⟨e, he, hmem⟩ := List.mem_flatMap.mp (mem_alertsOf_iff.mp h)
    -- a drop by itself writes no alert
    obtain ⟨b, hb, hmem⟩ := List.mem_flatMap.mp ((List.mem_cons.mp hmem).resolve_left
      SinkCall.noConfusion)
    obtain rfl : alert = _ := by simpa [beaconCalls] using hmem
    refine ⟨.c2Beacon, ⟨"C2_BEACON", rfl, rfl⟩, e, Option.mem_toList.mp he, Or.inr ⟨rfl, ?_⟩⟩
    rw [Option.mem_toList.mp hb]
    exact Option.some_ne_none b
  | safety packet shadow =>
    obtain ⟨hne, level, hmem⟩ := (observe_repeats cfg.safety shadow packet).mem_alertsOf h
    obtain rfl := List.mem_singleton.mp hmem
    exact ⟨.processSafetyViolation, ⟨"PROCESS_SAFETY_VIOLATION", rfl, rfl⟩, rfl, hne⟩
  | watchdog scripts now running last =>
    obtain ⟨hne, script, hmem⟩ :=
      (check_repeats cfg.repeatSeconds now running last scripts).mem_alertsOf h
    obtain rfl := List.mem_singleton.mp hmem
    exact ⟨.detectionServiceDown, ⟨"DETECTION_SERVICE_DOWN", rfl, rfl⟩, rfl, hne⟩

/-- The settings of the gateway, with the texts of a mean of 15 seconds and no variation. -/
def gatewaySettings : Settings ℚ where
  safety := ProcessSafety.defaultConfig
  beacon := Beacon.defaultConfig
  sqrt := Rat.sqrt
  intervalText _ := "15.0"
  coefficientText _ := "0.0"
  repeatSeconds := 300

/-- The intake controller calls an Enterprise address for the fifth time, every 15 seconds. -/
def fifthCall : Call ℚ :=
  .firewall (synTo ⟨172, 21, 0, 10⟩ ⟨172, 24, 0, 10⟩ 443) (fun _ => [0, 15, 30, 45]) 60

end Evidence

/-! ## The suite -/

section Suite

variable {L : Loki} {K : Type*} [Field K] [LinearOrder K]

/-- The rules an alert type corresponds to. -/
def evidenceRules : List RuleName :=
  ([.unauthorizedControl, .restartCommand, .unsolicitedDisabled, .programDownload, .programUpload,
    .changeOperatingMode, .browseRequest, .writeRequest, .methodCall] : List Detection).map
      .detection ++ [.processSafetyViolation, .c2Beacon, .detectionServiceDown]

/-- An alert is for one rule only. -/
theorem RuleName.eq_of_isFor {r r' : RuleName} {alert : Dict} (h : r.IsFor alert)
    (h' : r'.IsFor alert) : r = r' := by
  have hmem : ∀ x : RuleName, x.alertType ≠ none → x ∈ evidenceRules := by
    intro x
    cases x with
    | detection d => cases d <;> exact fun _ => by decide
    | processSafetyViolation | c2Beacon | detectionServiceDown => exact fun _ => by decide
    | modbusUnauthorizedWrite | modbusDeviceIdentificationScan | firewallCrossZoneViolation =>
      exact fun hne => absurd rfl hne
  have hdistinct : (evidenceRules.map RuleName.alertType).Nodup := by decide +kernel
  obtain ⟨t, ht, hlookup⟩ := h
  obtain ⟨t', ht', hlookup'⟩ := h'
  obtain rfl : t = t' := by simpa [hlookup] using hlookup'
  refine List.inj_on_of_nodup_map hdistinct (hmem r ?_) (hmem r' ?_) (ht.trans ht'.symm)
  · exact Option.ne_none_iff_exists'.mpr ⟨t, ht⟩
  · exact Option.ne_none_iff_exists'.mpr ⟨t, ht'⟩

theorem raised_of_alert (hL : L.Documented) (hA : L.DocumentedOnAddresses) (cfg : Settings K)
    (c : Call K) {alert : Dict} (h : alert ∈ alertsOf (c.sinks cfg)) {r : RuleName}
    (hr : r.IsFor alert) : Raised L (c.sinks cfg) r := by
  obtain ⟨r', hr', hraised⟩ := exists_rule_of_alert hL hA cfg c h
  rwa [RuleName.eq_of_isFor hr hr']

/-- The rules of the alert types a test expects. -/
def rulesOf (t : SecurityTests.Test) : List RuleName :=
  t.expected.filterMap fun alertType => evidenceRules.find? fun r => r.alertType = some alertType

end Suite

end Siem

end OtLab
