import OtLab.Detection.BruteForce
import OtLab.Detection.ModbusAnomaly
import OtLab.Response.Unblock

/-!
# The capture topology

The handlers sniff every interface of the gateway, so a frame that is forwarded is handed to them
when it comes in and again when it goes out; one that is dropped is handed to them once. Neither
`ot_brute_force.py` nor the responder behind `modbus_anomaly.py` tells the two legs apart: both
count deliveries.

* `insensitive_iff` — they report and block as if every frame were seen once, exactly in the
  captures where no source needs the second legs to reach a threshold
* `doubled_reported` — three forwarded exceptions are reported as a scan
-/

namespace OtLab.Capture

open Lib
open Responder (Reaches Config Daemon Entry view)
open BruteForce (Sighting)

/-! ## Deliveries -/

/-- The side of the gateway on which a frame is seen. -/
inductive Leg where
  | ingress
  | egress
deriving DecidableEq, Repr

/-- A frame handed to the handlers by the socket of one interface. -/
structure Delivery where
  leg : Leg
  packet : Packet
  /-- the clock reading of the brute-force detector -/
  now : ℚ
  /-- the time stamp of the alert, if there is one -/
  timestamp : String
  /-- the clock reading of the responder at the line of the alert -/
  readAt : ℚ
deriving DecidableEq

/-- Every frame that goes out came in before, and is `inside` the gateway in between. -/
def Forwarded : List Packet → List Delivery → Prop
  | _, [] => True
  | inside, ⟨.ingress, packet, _, _, _⟩ :: ds => Forwarded (packet :: inside) ds
  | inside, ⟨.egress, packet, _, _, _⟩ :: ds =>
    packet ∈ inside ∧ Forwarded (inside.erase packet) ds

instance decidableForwarded : ∀ inside ds, Decidable (Forwarded inside ds)
  | _, [] => isTrue trivial
  | inside, ⟨.ingress, packet, _, _, _⟩ :: ds => decidableForwarded (packet :: inside) ds
  | inside, ⟨.egress, packet, _, _, _⟩ :: ds =>
    have := decidableForwarded (inside.erase packet) ds
    inferInstanceAs (Decidable (packet ∈ inside ∧ Forwarded (inside.erase packet) ds))

/-- The same capture with every frame delivered once, when it comes in. -/
def once (ds : List Delivery) : List Delivery := ds.filter fun d => d.leg = .ingress

theorem once_sublist (ds : List Delivery) : (once ds).Sublist ds := List.filter_sublist

/-- What the brute-force detector sees. -/
def sightings (ds : List Delivery) : List Sighting := ds.map fun d => ⟨d.packet, d.now⟩

/-- The detectors and the responder with their settings; JSON and the gateway are parameters. -/
structure Setup (W : Type*) where
  windowSeconds : ℚ
  errorThreshold : Nat
  authorized : List IPv4
  dumps : Dict → String
  loads : String → Option Json
  responder : Config
  subprocessRun : List String → W → CompletedProcess × W
  gateway : W

namespace Setup

variable {W : Type*} (x : Setup W)

/-- The record `log_alert` dumps for an alert. -/
def stamped (timestamp : String) (alert : Dict) : Dict := ("timestamp", .str timestamp) :: alert

/-- The alerts `modbus_anomaly.py` writes about a delivery. -/
def alerts (d : Delivery) : List Dict :=
  alertsWritten (ModbusAnomaly.processPacket x.authorized d.packet)

/-- The lines these alerts add to the log, as the responder reads them. -/
def entries (d : Delivery) : List Entry :=
  (x.alerts d).map fun a => ⟨d.readAt, x.dumps (stamped d.timestamp a)⟩

/-- The sources reported by `ot_brute_force.py`. -/
def reported (ds : List Delivery) : Set IPv4 :=
  BruteForce.sources (BruteForce.capture x.windowSeconds x.errorThreshold (sightings ds)).2

/-- The responder after the log of the Modbus detector. -/
def daemon (ds : List Delivery) : Daemon :=
  (run (Responder.handle x.loads x.subprocessRun x.responder) (Daemon.start, x.gateway)
    (ds.flatMap x.entries)).1

/-- The sources blocked by the responder. -/
def blocked (ds : List Delivery) : Finset Key := (x.daemon ds).blocked

/-- The alerts of the capture are read back from the log as they were dumped. -/
def ReadsBack (ds : List Delivery) : Prop :=
  ∀ d ∈ ds, ∀ a ∈ x.alerts d,
    x.loads (x.dumps (stamped d.timestamp a)) = some (Dict.toJson (stamped d.timestamp a))

/-- The times at which exceptions of `s` are counted. -/
def exceptionTimes (s : IPv4) (ds : List Delivery) : List ℚ :=
  BruteForce.exceptionTimes s (sightings ds)

/-- The times at which unauthorized writes of `s` are counted. -/
def writeTimes (s : IPv4) (ds : List Delivery) : List ℚ :=
  (ds.filter fun d =>
    d.packet.src = s ∧ ModbusAnomaly.isUnauthorizedWrite x.authorized d.packet = true).map
      Delivery.readAt

/--
The capture is reported and blocked as the one where every frame is delivered once, and only for
enough frames in the window.
-/
structure Insensitive (ds : List Delivery) : Prop where
  reported : x.reported ds = x.reported (once ds)
  blocked : x.blocked ds = x.blocked (once ds)
  exceptions : ∀ s ∈ x.reported ds,
    Reaches x.windowSeconds x.errorThreshold (exceptionTimes s (once ds))
  writes : ∀ s : IPv4, Key.str s.str ∈ x.blocked ds →
    Reaches x.responder.window x.responder.threshold (x.writeTimes s (once ds))

end Setup

/-! ## Reports -/

section Reports

variable {W : Type*} {x : Setup W} {s : IPv4} {ds : List Delivery}

theorem Reaches.mono {window : ℚ} {threshold : Nat} {times times' : List ℚ}
    (hsub : times.Sublist times') (h : Reaches window threshold times) :
    Reaches window threshold times' := by
  obtain ⟨t, ht, hcount⟩ := h
  exact ⟨t, hsub.subset ht, hcount.trans (hsub.filter _).length_le⟩

theorem exceptionTimes_sublist (s : IPv4) (ds : List Delivery) :
    (Setup.exceptionTimes s ds).Sublist (ds.map Delivery.now) := by
  have hnow : ds.map Delivery.now = (sightings ds).map Sighting.now := by
    rw [sightings, List.map_map]
    rfl
  rw [hnow]
  exact List.filter_sublist.map _

/-- The times of a capture in which frames are left out. -/
theorem exceptionTimes_once (s : IPv4) (ds : List Delivery) :
    (Setup.exceptionTimes s (once ds)).Sublist (Setup.exceptionTimes s ds) :=
  (((once_sublist ds).map _).filter _).map _

/-- Second legs that carry no exception count for no source. -/
theorem exceptionTimes_once_of_egress (h : ∀ d ∈ ds, d.leg = .egress →
    ∀ code ∈ d.packet.functionCode?, ¬ 128 < code) :
    Setup.exceptionTimes s (once ds) = Setup.exceptionTimes s ds := by
  unfold Setup.exceptionTimes BruteForce.exceptionTimes sightings once
  rw [List.filter_map, List.filter_map, List.filter_filter]
  congr 2
  refine List.filter_congr fun d hd => ?_
  cases hleg : d.leg with
  | ingress => simp
  | egress =>
    have hno : BruteForce.isException s d.packet = false :=
      decide_eq_false fun ⟨_, code, hcode, hc⟩ => h d hd hleg code hcode hc
    simp [hno]

/-- A source is reported exactly when the deliveries of its exceptions reach the threshold. -/
theorem mem_reported_iff (hw : 0 < x.windowSeconds)
    (hnow : (ds.map Delivery.now).Pairwise (· ≤ ·)) :
    s ∈ x.reported ds ↔
      Reaches x.windowSeconds x.errorThreshold (Setup.exceptionTimes s ds) := by
  unfold Setup.reported
  rw [BruteForce.reported_iff_fired hw]
  exact Tracker.fired_run_iff hw (hnow.sublist (exceptionTimes_sublist s ds))

end Reports

/-! ## Blocks -/

section Blocks

variable {W : Type*} {x : Setup W} {s : IPv4} {ds : List Delivery}

theorem isOffence_alert {loads : String → Option Json} {line timestamp : String} {src : IPv4}
    {r : Nat} (h : loads line
      = some (Dict.toJson (Setup.stamped timestamp (ModbusAnomaly.writeAlert src r)))) :
    Responder.isOffence loads s.str line = decide (src = s) := by
  have hsrc : (src.str == s.str) = decide (src = s) := by
    rw [Bool.beq_eq_decide_eq]
    exact decide_eq_decide.mpr ⟨fun hs => IPv4.str_injective hs, congrArg _⟩
  unfold Responder.isOffence
  rw [h]
  exact hsrc

/-- A delivery adds an offence of `s` if it is an unauthorized write of `s`. -/
theorem offenceTimes_delivery {d : Delivery} (hread : x.ReadsBack [d]) :
    Responder.offenceTimes x.loads s.str (x.entries d) = x.writeTimes s [d] := by
  unfold Setup.writeTimes Setup.entries
  rw [List.filter_singleton]
  rcases ModbusAnomaly.alertsWritten_cases x.authorized d.packet with
    ⟨hw, halerts⟩ | ⟨hw, r, halerts⟩
  · have hnone : x.alerts d = [] := halerts
    rw [hnone, hw]
    simp [Responder.offenceTimes]
  · have hone : x.alerts d = [ModbusAnomaly.writeAlert d.packet.src r] := halerts
    have hoff := @isOffence_alert s _ _ _ _ _
      (hread d (List.mem_singleton_self d) _ (hone ▸ List.mem_singleton_self _))
    rw [hone, hw, Responder.offenceTimes, List.map_singleton, List.filter_singleton, hoff]
    by_cases hs : d.packet.src = s <;> simp [hs]

/-- What the responder counts for `s` are its unauthorized writes. -/
theorem offenceTimes_entries (hread : x.ReadsBack ds) :
    Responder.offenceTimes x.loads s.str (ds.flatMap x.entries) = x.writeTimes s ds := by
  induction ds with
  | nil => rfl
  | cons d ds ih =>
    have hd : x.ReadsBack [d] := fun d' hd' =>
      hread d' (List.mem_singleton.mp hd' ▸ List.mem_cons_self)
    have hds : x.ReadsBack ds := fun d' hd' => hread d' (List.mem_cons_of_mem _ hd')
    have hsplit : x.writeTimes s (d :: ds) = x.writeTimes s [d] ++ x.writeTimes s ds := by
      unfold Setup.writeTimes
      rw [← List.map_append, ← List.filter_append, List.singleton_append]
    rw [List.flatMap_cons, Responder.offenceTimes_append, offenceTimes_delivery hd, ih hds, hsplit]

theorem writeTimes_sublist (s : IPv4) (ds : List Delivery) :
    (x.writeTimes s ds).Sublist (ds.map Delivery.readAt) := List.filter_sublist.map _

theorem length_writeTimes_le (s : IPv4) (ds : List Delivery) : (x.writeTimes s ds).length
    ≤ (ds.filter fun d => ModbusAnomaly.isUnauthorizedWrite x.authorized d.packet).length := by
  unfold Setup.writeTimes
  rw [List.length_map]
  refine (List.monotone_filter_right ds fun d hd => ?_).length_le
  exact (of_decide_eq_true hd).2

theorem writeTimes_once (s : IPv4) (ds : List Delivery) :
    (x.writeTimes s (once ds)).Sublist (x.writeTimes s ds) :=
  ((once_sublist ds).filter _).map _

/-- A source is blocked exactly when the deliveries of its writes reach the threshold. -/
theorem mem_blocked_iff (hw : 0 < x.responder.window) (hread : x.ReadsBack ds)
    (hclock : (ds.map Delivery.readAt).Pairwise (· ≤ ·)) :
    Key.str s.str ∈ x.blocked ds ↔
      Reaches x.responder.window x.responder.threshold (x.writeTimes s ds) := by
  have hview : view s.str (x.daemon ds) = _ :=
    Responder.view_run (Responder.isSome_ipAddress_str s) (ds.flatMap x.entries)
      (Daemon.start, x.gateway)
  have hfired : Key.str s.str ∈ x.blocked ds ↔ (view s.str (x.daemon ds)).fired = true :=
    decide_eq_true_iff.symm
  rw [hfired, hview, Responder.view_start, offenceTimes_entries hread]
  exact Tracker.fired_run_iff hw (hclock.sublist (writeTimes_sublist s ds))

/-- Only addresses are blocked, since the alerts name nothing else. -/
theorem exists_of_mem_blocked (hread : x.ReadsBack ds) {k : Key} (hk : k ∈ x.blocked ds) :
    ∃ s : IPv4, k = .str s.str := by
  have hnamed : ∀ e ∈ ds.flatMap x.entries,
      ∃ s : IPv4, Responder.reading x.loads e.line = .source (.str s.str) := by
    intro e he
    obtain ⟨d, hd, he⟩ := List.mem_flatMap.mp he
    obtain ⟨a, ha, rfl⟩ := List.mem_map.mp he
    have hline := hread d hd a ha
    obtain ⟨-, halerts⟩ | ⟨-, r, halerts⟩ :=
      ModbusAnomaly.alertsWritten_cases x.authorized d.packet
    · rw [Setup.alerts, halerts] at ha
      cases ha
    · rw [Setup.alerts, halerts, List.mem_singleton] at ha
      subst ha
      refine ⟨d.packet.src, (Responder.reading_eq_source_iff ?_).mpr ?_⟩
      · exact Responder.ne_empty_of_isSome (Responder.isSome_ipAddress_str _)
      · rw [isOffence_alert hline, decide_eq_true rfl]
  refine run_invariant (fun dw : Daemon × W => ∀ k ∈ dw.1.blocked, ∃ s : IPv4, k = .str s.str)
    ?_ ?_ (stepsMeet_of_forall hnamed _) k hk
  · rintro ⟨d, w⟩ e hinv ⟨s, hs⟩ k hk
    unfold Responder.handle at hk
    obtain ⟨_, ho⟩ | ⟨k', _, hk', -, -, ⟨-, ho⟩ | ⟨-, _, _, _, hb, ho⟩⟩ :=
      @Responder.processLine_cases _ x.loads x.subprocessRun x.responder e.line e.now d w
    all_goals rw [ho] at hk
    · exact hinv k hk
    · exact hinv k hk
    · rcases hb with rfl | rfl
      · exact hinv k hk
      · rcases Finset.mem_insert.mp hk with rfl | hk
        · rw [hs] at hk'
          exact ⟨s, (Responder.Reading.source.inj hk').symm⟩
        · exact hinv k hk
  · intro k hk
    exact absurd hk (Finset.notMem_empty k)

end Blocks

/-! ## Insensitivity -/

section Insensitivity

variable {W : Type*} {x : Setup W} {ds : List Delivery}

theorem Setup.ReadsBack.once (h : x.ReadsBack ds) : x.ReadsBack (once ds) :=
  fun d hd => h d ((once_sublist ds).subset hd)

/--
**Reports and blocks do not depend on the topology exactly when second legs never decide.**

Whatever is forwarded and whatever is dropped: the sources reported and the sources blocked are
those of the capture with every frame delivered once, if and only if every source whose deliveries
reach a threshold within the window reaches it with its first deliveries.
-/
theorem insensitive_iff (x : Setup W) (ds : List Delivery) (hw : 0 < x.windowSeconds)
    (hw' : 0 < x.responder.window) (hread : x.ReadsBack ds)
    (hnow : (ds.map Delivery.now).Pairwise (· ≤ ·))
    (hclock : (ds.map Delivery.readAt).Pairwise (· ≤ ·)) :
    x.Insensitive ds ↔
      (∀ s, Reaches x.windowSeconds x.errorThreshold (Setup.exceptionTimes s ds) →
        Reaches x.windowSeconds x.errorThreshold (Setup.exceptionTimes s (once ds))) ∧
      (∀ s, Reaches x.responder.window x.responder.threshold (x.writeTimes s ds) →
        Reaches x.responder.window x.responder.threshold (x.writeTimes s (once ds))) := by
  have hreported : ∀ s, s ∈ x.reported ds ↔ _ := fun s => mem_reported_iff hw hnow
  have hblocked : ∀ s : IPv4, Key.str s.str ∈ x.blocked ds ↔ _ :=
    fun s => mem_blocked_iff hw' hread hclock
  have hreported' : ∀ s, s ∈ x.reported (once ds) ↔ _ := fun s =>
    mem_reported_iff hw (hnow.sublist ((once_sublist ds).map _))
  have hblocked' : ∀ s : IPv4, Key.str s.str ∈ x.blocked (once ds) ↔ _ := fun s =>
    mem_blocked_iff hw' hread.once (hclock.sublist ((once_sublist ds).map _))
  constructor
  · intro h
    exact ⟨fun s hs => h.exceptions s ((hreported s).mpr hs),
      fun s hs => h.writes s ((hblocked s).mpr hs)⟩
  · rintro ⟨hexceptions, hwrites⟩
    refine ⟨?_, ?_, fun s hs => hexceptions s ((hreported s).mp hs),
      fun s hs => hwrites s ((hblocked s).mp hs)⟩
    · ext s
      rw [hreported, hreported']
      exact ⟨hexceptions s, Reaches.mono (exceptionTimes_once s ds)⟩
    · ext k
      constructor
      · intro hk
        obtain ⟨s, rfl⟩ := exists_of_mem_blocked hread hk
        exact (hblocked' s).mpr (hwrites s ((hblocked s).mp hk))
      · intro hk
        obtain ⟨s, rfl⟩ := exists_of_mem_blocked hread.once hk
        exact (hblocked s).mpr (Reaches.mono (writeTimes_once s ds) ((hblocked' s).mp hk))

end Insensitivity

/-! ## The lab -/

/-- `json.dumps` of a record whose texts need no escapes. -/
def dumpsPlain (d : Dict) : String :=
  let text : Value → String
    | .none => "null"
    | .int n => toString n
    | .str s => "\"" ++ s ++ "\""
  "\x7b" ++ ", ".intercalate (d.map fun entry => "\"" ++ entry.1 ++ "\": " ++ text entry.2)
    ++ "\x7d"

/-- The defaults of the three scripts, with the records that are in the log. -/
def labSetup (records : List Dict) : Setup Filter where
  windowSeconds := 60
  errorThreshold := 5
  authorized := ModbusAnomaly.authorizedWriters
  dumps := dumpsPlain
  loads := Responder.loadsOf (records.map fun d => (dumpsPlain d, d.toJson))
  responder := ⟨300, 3, false⟩
  subprocessRun := iptables
  gateway := installed labIfs

theorem loads_labSetup (d : Dict) : (labSetup [d]).loads (dumpsPlain d) = some d.toJson :=
  List.lookup_cons_self

/-- A Modbus frame of `src` seen on one leg, at one reading of both clocks. -/
def seen (leg : Leg) (src dst : IPv4) (functionCode : UInt8) (now : ℚ) : Delivery :=
  ⟨leg, .segment src dst ⟨502, 502, 24⟩ [0, 1, 0, 0, 0, 6, 1, functionCode, 0, 10, 0, 1], now,
    "2026-09-22T16:37:00", now⟩

def plcHost : IPv4 := ⟨172, 21, 0, 10⟩

/-- The gateway drops five exceptions of the attacker and forwards one write of an insider. -/
def mixed : List Delivery :=
  [seen .ingress attackerHost plcHost 131 0, seen .ingress attackerHost plcHost 131 1,
    seen .ingress insiderHost plcHost 6 2, seen .egress insiderHost plcHost 6 2,
    seen .ingress attackerHost plcHost 131 3, seen .ingress attackerHost plcHost 131 4,
    seen .ingress attackerHost plcHost 131 5]

/-- The record of the insider's write. -/
def mixedRecord : Dict :=
  Setup.stamped "2026-09-22T16:37:00" (ModbusAnomaly.writeAlert insiderHost 10)

/-- Five exceptions reach the threshold on one leg, two legs of one write do not reach three. -/
theorem insensitive_iff_mixed : (labSetup [mixedRecord]).Insensitive mixed := by
  refine (insensitive_iff (labSetup [mixedRecord]) mixed (by decide +kernel) (by decide +kernel)
    ?_ (by decide +kernel) (by decide +kernel)).mpr ⟨fun s hs => ?_, fun s hs => ?_⟩
  · intro d hd a ha
    have hcases : ∀ d ∈ mixed, (labSetup [mixedRecord]).alerts d = [] ∨
        (labSetup [mixedRecord]).alerts d = [ModbusAnomaly.writeAlert insiderHost 10] ∧
          d.timestamp = "2026-09-22T16:37:00" := by
      decide +kernel
    rcases hcases d hd with hnone | ⟨hone, htime⟩
    · rw [hnone] at ha
      cases ha
    · rw [hone, List.mem_singleton] at ha
      rw [ha, htime]
      exact loads_labSetup mixedRecord
  · rwa [exceptionTimes_once_of_egress (by decide +kernel)]
  · obtain ⟨t, -, hcount⟩ := hs
    have hle := @length_writeTimes_le _ (labSetup [mixedRecord]) s mixed
    exact absurd (hcount.trans ((List.length_filter_le _ _).trans hle)) (by decide +kernel)

/-- Three exceptions of a controller, forwarded to the HMI. -/
def doubled : List Delivery :=
  [0, 1, 2].flatMap fun now =>
    [seen .ingress plcHost hmiHost 131 now, seen .egress plcHost hmiHost 131 now]

/--
Three exceptions that are forwarded are reported as a scan, so the counting does depend on the
topology.
-/
theorem doubled_reported :
    ¬ ∀ (W : Type) (x : Setup W) (ds : List Delivery), Forwarded [] ds → 0 < x.windowSeconds →
      0 < x.responder.window → x.ReadsBack ds → (ds.map Delivery.now).Pairwise (· ≤ ·) →
      (ds.map Delivery.readAt).Pairwise (· ≤ ·) → x.Insensitive ds := by
  intro h
  have hd := h Filter (labSetup []) doubled (by decide +kernel) (by decide +kernel)
    (by decide +kernel) ?_ (by decide +kernel) (by decide +kernel)
  · have hall : plcHost ∈ (labSetup []).reported doubled := ⟨5, by decide +kernel⟩
    obtain ⟨count, hcount⟩ := hd.reported ▸ hall
    have hnone : (BruteForce.capture 60 5 (sightings (once doubled))).2 = [] := by decide +kernel
    have hmem : BruteForce.alert plcHost count
        ∈ (BruteForce.capture 60 5 (sightings (once doubled))).2 := hcount
    rw [hnone] at hmem
    cases hmem
  · have hsilent : ∀ d ∈ doubled, (labSetup []).alerts d = [] := by decide +kernel
    intro d hd a ha
    rw [hsilent d hd] at ha
    cases ha

end OtLab.Capture
