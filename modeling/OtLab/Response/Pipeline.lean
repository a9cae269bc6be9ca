import OtLab.Detection.Dnp3Anomaly
import OtLab.Detection.Dnp3Dpi
import OtLab.Detection.ModbusAnomaly
import OtLab.Firewall.Conntrack
import OtLab.Firewall.TwoTools
import OtLab.Response.Capture

/-!
# From the packet to the block

Three detectors look at the captured packets and append their alerts to one log, an armed responder
reads the log line by line, and its blocks decide what the gateway forwards. All run on their own,
in any order.

The lines in between carry no more than a ledger does that never sees one: of every alert still to
be read the source it holds against, and of every source the times at which such alerts were read.

* `refines_step` — the refinement, one lemma for each kind of event
* `containment_end_to_end` — the gateway drops exactly the sources the ledger convicts
* `trusted_sources_stay_connected` — the two trusted hosts, whoever forges their address
-/

namespace OtLab.Pipeline

open Lib Responder

/-! ## The detectors -/

/-- The producers of the alerts the responder watches. -/
inductive Detector where
  | modbusAnomaly
  | dnp3Anomaly
  | dnp3Dpi
deriving DecidableEq, Repr

section Detectors

variable (masters : List Nat)

/-- Their `process_packet`, with the default addresses; `masters` is `AUTHORIZED_MASTERS`. -/
def Detector.process : Detector → Packet → Py (List SinkCall)
  | modbusAnomaly => ModbusAnomaly.processPacket ModbusAnomaly.authorizedWriters
  | dnp3Anomaly => Dnp3Anomaly.processPacket Dnp3Anomaly.authorizedOperators
  | dnp3Dpi => Dnp3Dpi.processPacket masters

/-- The type of the alert is in `WATCH_TYPES`. -/
def watched (alert : Dict) : Bool :=
  watchTypes.any fun t => alert.lookup "alert_type" == some (.str t)

/-- Whom the alerts on a packet are held against, in order. -/
def Detector.blames (d : Detector) (p : Packet) : List (Option IPv4) :=
  (alertsWritten (d.process masters p)).map fun alert => if watched alert then some p.src else none

end Detectors

variable {masters : List Nat} {p : Packet}

theorem alertsWritten_produce {Event : Type} {service : String} {port : UInt16}
    {decode : Bytes → Py (Option Event)} {fields : Event → Dict}
    {alerts : Event → Packet → List Dict} {alert : Dict}
    (h : alert ∈ alertsWritten (Common.produce service port decode fields alerts p)) :
    ∃ payload e, Common.payloadTo port p = some payload ∧ decode payload = .ok (some e) ∧
      alert ∈ alerts e p := by
  unfold Common.produce at h
  cases hload : Common.payloadTo port p with
  | none =>
    rw [hload] at h
    exact absurd h List.not_mem_nil
  | some payload =>
    rw [hload] at h
    dsimp only at h
    cases hdecode : decode payload with
    | error e =>
      rw [hdecode] at h
      exact absurd h List.not_mem_nil
    | ok event =>
      rw [hdecode] at h
      cases event with
      | none => exact absurd h List.not_mem_nil
      | some e =>
        have halerts : alert ∈ alertsOf (Common.pushToLoki service (fields e) p ::
          (alerts e p).map Common.writeAlert) := h
        rw [alertsOf_push] at halerts
        exact ⟨payload, e, rfl, hdecode, halerts⟩

/-- The DNP3 detector writes at most one alert, and none about an authorized source. -/
theorem dnp3Anomaly_cases (authorized : List IPv4) (p : Packet) :
    alertsWritten (Dnp3Anomaly.processPacket authorized p) = [] ∨
      p.src ∉ authorized ∧ ∃ code, alertsWritten (Dnp3Anomaly.processPacket authorized p)
        = [Dnp3Anomaly.writeAlert p.src p.dst code] := by
  unfold Dnp3Anomaly.processPacket
  cases Common.payloadTo Dnp3Anomaly.dnp3Port p with
  | none => exact Or.inl rfl
  | some payload =>
    dsimp only
    by_cases hlen : payload.length < 12
    · rw [if_pos hlen]
      exact Or.inl rfl
    have hget : ∀ i < 12, ∃ octet, payload[i]? = some octet :=
      fun i hi => ⟨_, List.getElem?_eq_getElem (by omega)⟩
    obtain ⟨start0, h0⟩ := hget 0 (by omega)
    obtain ⟨start1, h1⟩ := hget 1 (by omega)
    obtain ⟨code, h11⟩ := hget 11 (by omega)
    rw [if_neg hlen, Bytes.getByte_of_some h0, Bytes.getByte_of_some h1,
      Bytes.getByte_of_some h11]
    simp only [bind, Except.bind, pure, Except.pure]
    split_ifs with hstart hw
    · exact Or.inl rfl
    · exact Or.inr ⟨hw.2, code, rfl⟩
    · exact Or.inl rfl

/-- Every alert of the producer starts with its own entries and ends with the shared ones. -/
theorem mem_dnp3Dpi_alerts {e : Dnp3.Event} {alert : Dict}
    (h : alert ∈ Dnp3Dpi.alerts masters e p) : ∃ kind ∈
      [Dnp3Dpi.unauthorizedControl, Dnp3Dpi.restartCommand, Dnp3Dpi.unsolicitedDisabled],
      alert = kind ++ Dnp3Dpi.base e p ∧ (kind = Dnp3Dpi.unauthorizedControl →
        e.direction = .request ∧ e.functionCode ∈ Dnp3.controlFunctions ∧
          e.linkSource ∉ masters) := by
  unfold Dnp3Dpi.alerts at h
  split at h
  · exact absurd h List.not_mem_nil
  next hdirection =>
    rw [not_not] at hdirection
    rcases List.mem_append.mp h with h | h
    · rcases List.mem_append.mp h with h | h
      · split at h
        · next hc =>
          exact ⟨_, List.mem_cons_self, List.mem_singleton.mp h, fun _ => ⟨hdirection, hc⟩⟩
        · exact absurd h List.not_mem_nil
      · split at h
        · exact ⟨Dnp3Dpi.restartCommand, by simp, List.mem_singleton.mp h,
            fun hk => absurd hk (by decide)⟩
        · exact absurd h List.not_mem_nil
    · split at h
      · exact ⟨Dnp3Dpi.unsolicitedDisabled, by simp, List.mem_singleton.mp h,
          fun hk => absurd hk (by decide)⟩
      · exact absurd h List.not_mem_nil

/-- Every alert of the detectors names the source of the packet. -/
theorem source_of_alert {d : Detector} {alert : Dict}
    (h : alert ∈ alertsWritten (d.process masters p)) :
    alert.lookup "source_ip" = some (.str p.src.str) := by
  cases d with
  | modbusAnomaly =>
    rcases ModbusAnomaly.alertsWritten_cases ModbusAnomaly.authorizedWriters p with
      ⟨-, hnone⟩ | ⟨-, r, hone⟩
    · rw [Detector.process, hnone] at h
      exact absurd h List.not_mem_nil
    · rw [Detector.process, hone, List.mem_singleton] at h
      rw [h]
      rfl
  | dnp3Anomaly =>
    rcases dnp3Anomaly_cases Dnp3Anomaly.authorizedOperators p with hnone | ⟨-, code, hone⟩
    · rw [Detector.process, hnone] at h
      exact absurd h List.not_mem_nil
    · rw [Detector.process, hone, List.mem_singleton] at h
      rw [h]
      rfl
  | dnp3Dpi =>
    obtain ⟨-, e, -, -, he⟩ := alertsWritten_produce h
    obtain ⟨kind, hkind, rfl, -⟩ := mem_dnp3Dpi_alerts he
    simp only [List.mem_cons, List.not_mem_nil, or_false] at hkind
    rcases hkind with rfl | rfl | rfl <;> rfl

/-! ## The log -/

/-- The line decodes to the alert, behind the time stamp the writers put first. -/
def Encodes (loads : String → Option Json) (line : String) (alert : Dict) : Prop :=
  ∃ timestamp, loads line = some (Dict.toJson (("timestamp", .str timestamp) :: alert))

/-- The line is an offence of a source exactly if it holds against it. -/
def Names (loads : String → Option Json) (line : String) (blame : Option IPv4) : Prop :=
  ∀ s : IPv4, isOffence loads s.str line = true ↔ blame = some s

variable {loads : String → Option Json} {line : String}

/-- The line of an alert holds against whom the alert names. -/
theorem names_of_encodes {s : IPv4} {alert : Dict}
    (hs : alert.lookup "source_ip" = some (.str s.str)) (h : Encodes loads line alert) :
    Names loads line (if watched alert then some s else none) := by
  obtain ⟨timestamp, hline⟩ := h
  intro s'
  have htype : Json.get ((("timestamp", Value.str timestamp) :: alert).map fun entry =>
      (entry.1, entry.2.toJson)) "alert_type"
        = ((alert.lookup "alert_type").map Value.toJson).getD .null := get_toJson _ _
  have hsource : Json.get ((("timestamp", Value.str timestamp) :: alert).map fun entry =>
      (entry.1, entry.2.toJson)) "source_ip"
        = ((alert.lookup "source_ip").map Value.toJson).getD .null := get_toJson _ _
  unfold isOffence watched
  rw [hline]
  unfold Dict.toJson
  dsimp only
  rw [htype, hsource, hs]
  cases alert.lookup "alert_type" with
  | none => simp [Value.toJson]
  | some v =>
    cases v with
    | none => simp [Value.toJson]
    | int n => simp [Value.toJson]
    | str t =>
      by_cases ht : t ∈ watchTypes
      · simp [Value.toJson, ht, IPv4.str_injective.eq_iff]
      · simp [Value.toJson, ht]

/-- What the detectors append to the log holds against whom they blame. -/
theorem names_of_logged {d : Detector} {lines : List String}
    (h : List.Forall₂ (Encodes loads) lines (alertsWritten (d.process masters p))) :
    List.Forall₂ (Names loads) lines (d.blames masters p) := by
  unfold Detector.blames
  have hsource : ∀ alert ∈ alertsWritten (d.process masters p),
      alert.lookup "source_ip" = some (.str p.src.str) := fun _ => source_of_alert
  generalize alertsWritten (d.process masters p) = alerts at h hsource
  induction h with
  | nil => exact .nil
  | cons hline _ ih =>
    exact .cons (names_of_encodes (hsource _ List.mem_cons_self) hline)
      (ih fun a ha => hsource a (List.mem_cons_of_mem _ ha))

/-! ## The two systems -/

/-- A detector sees a packet and appends lines, another producer appends one, or one is read. -/
inductive Event where
  | sniffed (d : Detector) (p : Packet) (lines : List String)
  | other (line : String)
  | read (now : ℚ)

/-- The lines are what the detector writes; those of the other producers are no offences. -/
def Event.Logged (loads : String → Option Json) (masters : List Nat) : Event → Prop
  | sniffed d p lines => List.Forall₂ (Encodes loads) lines (alertsWritten (d.process masters p))
  | other line => ∀ s : IPv4, isOffence loads s.str line = false
  | read _ => True

/-- The clock readings of the responder. -/
def readings (es : List Event) : List ℚ :=
  es.filterMap fun
    | .read now => some now
    | _ => none

/-- The part of the log that is not read yet, the responder's memory and the gateway's table. -/
structure State where
  unread : List String
  daemon : Daemon
  filter : Filter

/-- The alerts to be read, by whom they hold against, and when alerts were read about a source. -/
structure Ledger where
  pending : List (Option IPv4)
  times : IPv4 → List ℚ

def State.start (ifs : Zone → Iface) : State := ⟨[], Daemon.start, installed ifs⟩

def Ledger.start : Ledger := ⟨[], fun _ => []⟩

section System

variable (loads : String → Option Json) (window : ℚ) (threshold : Nat) (masters : List Nat)

def State.step (g : State) : Event → State
  | .sniffed _ _ lines => { g with unread := g.unread ++ lines }
  | .other line => { g with unread := g.unread ++ [line] }
  | .read now =>
    match g.unread with
    | [] => g
    | line :: unread =>
      let r := Responder.handle loads iptables (armed window threshold) (g.daemon, g.filter)
        ⟨now, line⟩
      ⟨unread, r.1, r.2⟩

def Ledger.step (a : Ledger) : Event → Ledger
  | .sniffed d p _ => { a with pending := a.pending ++ d.blames masters p }
  | .other _ => { a with pending := a.pending ++ [none] }
  | .read now =>
    match a.pending with
    | [] => a
    | blame :: pending =>
      ⟨pending, fun s => if blame = some s then a.times s ++ [now] else a.times s⟩

/-- The state and the ledger agree on what is unread, what is remembered and who is dropped. -/
structure Refines (ifs : Zone → Iface) (g : State) (a : Ledger) : Prop where
  unread : List.Forall₂ (Names loads) g.unread a.pending
  memory : ∀ s : IPv4, view s.str g.daemon
    = run (Tracker.observe window threshold) Tracker.fresh (a.times s)
  chain : ∃ l : List IPv4, g.filter = blockedAround ifs l [] ∧ l.Nodup ∧
    ∀ s, s ∈ l ↔ (view s.str g.daemon).fired = true

end System

variable {window : ℚ} {threshold : Nat} {ifs : Zone → Iface} {g : State} {a : Ledger}

theorem refines_start (loads : String → Option Json) (window : ℚ) (threshold : Nat)
    (ifs : Zone → Iface) : Refines loads window threshold ifs (State.start ifs) Ledger.start where
  unread := .nil
  memory := fun _ => rfl
  chain := by
    refine ⟨[], ?_, List.nodup_nil, fun s => ?_⟩
    · simp [State.start, blockedAround, installed, Filter.withForward, forwardChain]
    · simp [State.start, view_start, Tracker.fresh]

/-- A line that makes no tracker fire leaves the table as it is. -/
theorem handle_filter_of_quiet {d : Daemon} {f : Filter} {e : Entry}
    (h : ∀ s : IPv4, isOffence loads s.str e.line = true →
      ¬ (view s.str d).fires window threshold e.now = true) :
    (Responder.handle loads iptables (armed window threshold) (d, f) e).2 = f := by
  rcases @handle_filter_cases loads window threshold d f e with heq | ⟨s, ho, hf, -⟩
  · exact heq
  · exact absurd hf (h s ho)

/-- After a line the chain still holds one rule of each source whose tracker has fired. -/
theorem chain_handle {blame : Option IPv4} {now : ℚ} (hnames : Names loads line blame)
    {d : Daemon} {f : Filter} {l : List IPv4} (hf : f = blockedAround ifs l []) (hl : l.Nodup)
    (hmem : ∀ s, s ∈ l ↔ (view s.str d).fired = true) :
    let r := Responder.handle loads iptables (armed window threshold) (d, f) ⟨now, line⟩
    ∃ l' : List IPv4, r.2 = blockedAround ifs l' [] ∧ l'.Nodup ∧
      ∀ s, s ∈ l' ↔ (view s.str r.1).fired = true := by
  intro r
  have hview : ∀ s : IPv4, view s.str r.1 =
      if isOffence loads s.str line then (view s.str d).observe window threshold now
      else view s.str d := fun s => view_handle (isSome_ipAddress_str s) (d, f) ⟨now, line⟩
  by_cases hfires : ∃ s : IPv4, isOffence loads s.str line = true ∧
      (view s.str d).fires window threshold now = true
  · obtain ⟨s, ho, hs⟩ := hfires
    have hnot : s ∉ l := by
      rw [hmem]
      unfold Tracker.fires at hs
      rw [Bool.and_eq_true, Bool.not_eq_true'] at hs
      simp [hs.1]
    refine ⟨s :: l, ?_, List.nodup_cons.mpr ⟨hnot, hl⟩, fun s' => ?_⟩
    · show (Responder.handle loads iptables (armed window threshold) (d, f) ⟨now, line⟩).2 = _
      rw [@handle_filter_of_fires loads window threshold d f ⟨now, line⟩ s ho hs, hf]
      rfl
    · rw [hview, List.mem_cons, hmem]
      by_cases hs' : s' = s
      · rw [hs', if_pos ho, Tracker.fired_observe, hs]
        simp
      · -- the line holds against one source only
        have hother : ¬ isOffence loads s'.str line = true := fun ho' =>
          hs' (Option.some.inj (((hnames s').mp ho').symm.trans ((hnames s).mp ho)))
        rw [if_neg hother]
        simp [hs']
  · have hquiet : ∀ s : IPv4, isOffence loads s.str line = true →
        ¬ (view s.str d).fires window threshold now = true := fun s ho hs => hfires ⟨s, ho, hs⟩
    refine ⟨l, ?_, hl, fun s => ?_⟩
    · exact (@handle_filter_of_quiet loads window threshold d f ⟨now, line⟩ hquiet).trans hf
    · rw [hview, hmem]
      by_cases ho : isOffence loads s.str line = true
      · rw [if_pos ho, Tracker.fired_observe, Bool.eq_false_iff.mpr (hquiet s ho), Bool.or_false]
      · rw [if_neg ho]

/-- **Every event keeps the state and the ledger together.** -/
theorem refines_step (e : Event) (he : e.Logged loads masters)
    (h : Refines loads window threshold ifs g a) :
    Refines loads window threshold ifs (g.step loads window threshold e) (a.step masters e) := by
  cases e with
  | sniffed d p lines =>
    exact ⟨List.rel_append h.unread (names_of_logged he), h.memory, h.chain⟩
  | other line =>
    have hnames : Names loads line none := fun s => by simp [he s]
    exact ⟨List.rel_append h.unread (.cons hnames .nil), h.memory, h.chain⟩
  | read now =>
    obtain ⟨unread, daemon, filter⟩ := g
    obtain ⟨pending, times⟩ := a
    obtain ⟨hunread, hmemory, l, hfilter, hnodup, hmem⟩ := h
    dsimp only at hunread hmemory hfilter hmem
    cases hunread with
    | nil => exact ⟨.nil, hmemory, l, hfilter, hnodup, hmem⟩
    | @cons line blame unread pending hnames hunread =>
      refine ⟨hunread, fun s => ?_, chain_handle hnames hfilter hnodup hmem⟩
      show view s.str (Responder.handle loads iptables (armed window threshold) (daemon, filter)
          ⟨now, line⟩).1 =
        run _ _ (if blame = some s then times s ++ [now] else times s)
      rw [view_handle (isSome_ipAddress_str s), hmemory]
      by_cases ho : isOffence loads s.str line = true
      · rw [if_pos ho, if_pos ((hnames s).mp ho), run_append, run_cons, run_nil]
        rfl
      · rw [if_neg ho, if_neg (mt (hnames s).mpr ho)]

/-- The times of a source are some of the clock readings, in order. -/
theorem times_sublist (es : List Event) (s : IPv4) : ∀ a : Ledger,
    ((run (Ledger.step masters) a es).times s).Sublist (a.times s ++ readings es) := by
  induction es with
  | nil => exact fun a => List.sublist_append_left _ _
  | cons e es ih =>
    intro a
    rw [run_cons]
    refine (ih (a.step masters e)).trans ?_
    cases e with
    | sniffed d p lines => exact List.Sublist.refl _
    | other line => exact List.Sublist.refl _
    | read now =>
      have hreadings : readings (.read now :: es) = [now] ++ readings es := rfl
      rw [hreadings, ← List.append_assoc]
      refine List.Sublist.append_right ?_ _
      rcases a with ⟨- | ⟨blame, pending⟩, times⟩
      · exact List.sublist_append_left _ _
      · show (if blame = some s then times s ++ [now] else times s).Sublist (times s ++ [now])
        split
        · exact List.Sublist.refl _
        · exact List.sublist_append_left _ _

/-! ## The whole pipeline -/

/-- The script's verdict on a packet, unless its source is convicted. -/
def Ledger.verdict (window : ℚ) (threshold : Nat) (ifs : Zone → Iface) (a : Ledger)
    (q : FwPacket) : Verdict :=
  if Reaches window threshold (a.times q.src) then .drop else (forwardChain ifs).verdict q

/-- A source has fired once enough of its times lie within a window. -/
theorem Refines.fired_iff {es : List Event} (hw : 0 < window)
    (hclock : (readings es).Pairwise (· ≤ ·))
    (h : Refines loads window threshold ifs g (run (Ledger.step masters) Ledger.start es))
    (s : IPv4) : (view s.str g.daemon).fired = true ↔
      Reaches window threshold ((run (Ledger.step masters) Ledger.start es).times s) := by
  rw [h.memory]
  exact Tracker.fired_run_iff hw (hclock.sublist (times_sublist es s Ledger.start))

/--
**What the sensors see decides what the gateway forwards.**

In every interleaving of packets, other alerts and readings of the log: the gateway drops the
packets of a source when `THRESHOLD` of the watched alerts on its packets were read within `WINDOW`,
and gives every other packet the verdict of the script; it holds one rule of each such source and
none of any other, and leaves the other chains alone.
-/
theorem containment_end_to_end (loads : String → Option Json) (window : ℚ) (threshold : Nat)
    (masters : List Nat) (ifs : Zone → Iface) (es : List Event) (hw : 0 < window)
    (hes : ∀ e ∈ es, e.Logged loads masters) (hclock : (readings es).Pairwise (· ≤ ·)) :
    let g := run (State.step loads window threshold) (State.start ifs) es
    let a := run (Ledger.step masters) Ledger.start es
    (∀ q, g.filter.forward.verdict q = a.verdict window threshold ifs q) ∧
      (∀ s, g.filter.forward.rules.count (dropFrom s) =
        if Reaches window threshold (a.times s) then 1 else 0) ∧
      g.filter.input = (installed ifs).input ∧ g.filter.output = (installed ifs).output := by
  intro g a
  have h : Refines loads window threshold ifs g a :=
    run_lockstep (Refines loads window threshold ifs)
      (fun e he _ _ => refines_step e (hes e he)) (refines_start loads window threshold ifs)
  have hfired : ∀ s, (view s.str g.daemon).fired = true ↔ Reaches window threshold (a.times s) :=
    fun s => h.fired_iff hw hclock s
  obtain ⟨l, hfilter, hnodup, hmem⟩ := h.chain
  rw [hfilter]
  refine ⟨fun q => ?_, fun s => ?_, rfl, rfl⟩
  · rw [verdict_blockedAround]
    exact if_congr ((hmem q.src).trans (hfired q.src)) rfl rfl
  · rw [count_blockedAround, List.count_nil, Nat.add_zero]
    by_cases hs : s ∈ l
    · rw [if_pos ((hfired s).mp ((hmem s).mp hs)), List.count_eq_one_of_mem hnodup hs]
    · rw [if_neg fun hr => hs ((hmem s).mpr ((hfired s).mpr hr)), List.count_eq_zero.mpr hs]

/-- A host writes the first register of a controller. -/
def registerWrite (src : IPv4) : Packet :=
  .segment src ⟨172, 21, 0, 10⟩ ⟨40000, 502, 0x18⟩ [0, 1, 0, 0, 0, 6, 1, 6, 0, 0, 0, 1]

/-- The record of an alert, with the time stamp of the writers. -/
def stamped (alert : Dict) : Dict := Capture.Setup.stamped "2026-09-22T16:37:00" alert

/-- The line of the log for an alert, and what it decodes to. -/
def logLine (alert : Dict) : String × Json :=
  (Capture.dumpsPlain (stamped alert), (stamped alert).toJson)

/-- The line of the log for the write. -/
def writeLine (src : IPv4) : String × Json := logLine (ModbusAnomaly.writeAlert src 0)

/-- The host asks for the historian's data. -/
def reportQuery (src : IPv4) : FwPacket :=
  { iif := labIfs .it, oif := labIfs .ops, src := src, dst := ⟨172, 23, 0, 10⟩,
    protocol := tcpProtocol, icmpType := none, dport := some 8086, state := .new }

theorem containment_end_to_end_third_write :
    let loads := loadsOf [writeLine attackerHost]
    let write : Event :=
      .sniffed .modbusAnomaly (registerWrite attackerHost) [(writeLine attackerHost).1]
    (run (State.step loads 300 3) (State.start labIfs)
        [write, write, .read 0, .read 10, write, .read 299]).filter.forward.verdict
      (reportQuery attackerHost) = .drop := by
  intro loads write
  have hwrite : write.Logged loads [] :=
    .cons ⟨"2026-09-22T16:37:00", List.lookup_cons_self⟩ .nil
  refine ((containment_end_to_end loads 300 3 [] labIfs
    [write, write, .read 0, .read 10, write, .read 299] (by decide +kernel) ?_
    (by decide +kernel)).1 (reportQuery attackerHost)).trans (by decide +kernel)
  intro e he
  simp only [List.mem_cons, List.not_mem_nil, or_false] at he
  rcases he with rfl | rfl | rfl | rfl | rfl | rfl <;> first | exact hwrite | exact trivial

/-! ## The trusted hosts -/

/-- The hosts both write detectors trust. -/
def trustedHosts : List IPv4 := [hmiHost, ewsHost]

/-- The frame asks for a control operation in the name of a master that is not authorized. -/
def ClaimsControl (masters : List Nat) (p : Packet) : Prop :=
  ∃ payload e, Common.payloadTo Dnp3Dpi.port p = some payload ∧
    Dnp3.decode payload = .ok (some e) ∧ e.direction = .request ∧
    e.functionCode ∈ Dnp3.controlFunctions ∧ e.linkSource ∉ masters

/-- A detector that blames a trusted host is the one that looks at link addresses only. -/
theorem claimsControl_of_blames {d : Detector} {s : IPv4} (hs : s ∈ trustedHosts)
    (h : some s ∈ d.blames masters p) : d = .dnp3Dpi ∧ p.src = s ∧ ClaimsControl masters p := by
  obtain ⟨alert, halert, hblame⟩ := List.mem_map.mp h
  split at hblame
  · next hwatched =>
    obtain rfl := Option.some.inj hblame
    cases d with
    | modbusAnomaly =>
      rcases ModbusAnomaly.alertsWritten_cases ModbusAnomaly.authorizedWriters p with
        ⟨-, hnone⟩ | ⟨hwrite, -⟩
      · rw [Detector.process, hnone] at halert
        exact absurd halert List.not_mem_nil
      · exact absurd hs (of_decide_eq_true hwrite).1
    | dnp3Anomaly =>
      rcases dnp3Anomaly_cases Dnp3Anomaly.authorizedOperators p with hnone | ⟨hnot, -⟩
      · rw [Detector.process, hnone] at halert
        exact absurd halert List.not_mem_nil
      · exact absurd hs hnot
    | dnp3Dpi =>
      obtain ⟨payload, e, hload, hdecode, he⟩ := alertsWritten_produce halert
      obtain ⟨kind, hkind, rfl, hcontrol⟩ := mem_dnp3Dpi_alerts he
      simp only [List.mem_cons, List.not_mem_nil, or_false] at hkind
      rcases hkind with rfl | rfl | rfl
      · exact ⟨rfl, rfl, payload, e, hload, hdecode, hcontrol rfl⟩
      · exact absurd hwatched (by simp [watched, watchTypes, Dnp3Dpi.restartCommand])
      · exact absurd hwatched (by simp [watched, watchTypes, Dnp3Dpi.unsolicitedDisabled])
  · exact absurd hblame (by simp)

/-- No alert is pending or was read about the source. -/
def Ledger.Clears (a : Ledger) (s : IPv4) : Prop := some s ∉ a.pending ∧ a.times s = []

theorem Ledger.Clears.step {s : IPv4} (e : Event) (h : a.Clears s)
    (he : ∀ d p lines, e = .sniffed d p lines → some s ∉ d.blames masters p) :
    (a.step masters e).Clears s := by
  obtain ⟨hpending, htimes⟩ := h
  cases e with
  | sniffed d p lines =>
    refine ⟨fun hmem => ?_, htimes⟩
    rcases List.mem_append.mp hmem with hmem | hmem
    · exact hpending hmem
    · exact he d p lines rfl hmem
  | other line =>
    refine ⟨fun hmem => ?_, htimes⟩
    rcases List.mem_append.mp hmem with hmem | hmem
    · exact hpending hmem
    · exact absurd (List.mem_singleton.mp hmem) (by simp)
  | read now =>
    rcases a with ⟨- | ⟨blame, pending⟩, times⟩
    · exact ⟨hpending, htimes⟩
    · have hother : blame ≠ some s := fun hb => hpending (hb ▸ List.mem_cons_self)
      refine ⟨fun hmem => hpending (List.mem_cons_of_mem _ hmem), ?_⟩
      show (if blame = some s then times s ++ [now] else times s) = []
      rw [if_neg hother]
      exact htimes

/--
**The trusted hosts stay connected.**

Whatever is sent in the name of the HMI or the engineering workstation: as long as no DNP3 frame
with its address asks for a control operation with a link address that is not authorized, the
gateway gives its packets the verdict of the script. No write to a PLC or an outstation can be held
against it.
-/
theorem trusted_sources_stay_connected (loads : String → Option Json) (window : ℚ)
    (threshold : Nat) (masters : List Nat) (ifs : Zone → Iface) (es : List Event)
    (hes : ∀ e ∈ es, e.Logged loads masters) (s : IPv4) (hs : s ∈ trustedHosts)
    (hnone : ∀ p lines, .sniffed .dnp3Dpi p lines ∈ es → p.src = s → ¬ ClaimsControl masters p)
    (q : FwPacket) (hq : q.src = s) :
    (run (State.step loads window threshold) (State.start ifs) es).filter.forward.verdict q
      = (forwardChain ifs).verdict q := by
  have h : Refines loads window threshold ifs _ _ :=
    run_lockstep (Refines loads window threshold ifs)
      (fun e he _ _ => refines_step e (hes e he)) (refines_start loads window threshold ifs)
  have hclears : (run (Ledger.step masters) Ledger.start es).Clears s := by
    refine run_invariant (fun a : Ledger => a.Clears s) (fun a e ha he => ha.step e he)
      ⟨List.not_mem_nil, rfl⟩ (stepsMeet_of_forall (P := fun e : Event =>
        ∀ d p lines, e = .sniffed d p lines → some s ∉ d.blames masters p) ?_ _)
    rintro e he d p lines rfl hblame
    obtain ⟨rfl, hsrc, hclaims⟩ := claimsControl_of_blames hs hblame
    exact hnone p lines he hsrc hclaims
  obtain ⟨l, hfilter, -, hmem⟩ := h.chain
  rw [hfilter, verdict_blockedAround, hq, if_neg]
  rw [hmem, h.memory, hclears.2]
  exact Bool.false_ne_true

/-- A cold restart in the name of the HMI, with the link address of a master. -/
def hmiRestart : Packet :=
  .segment hmiHost ⟨172, 21, 0, 50⟩ ⟨40000, Dnp3Dpi.port, 0x18⟩
    [0x05, 0x64, 0x08, 0xC4, 0x0A, 0x00, 0x01, 0x00, 0xFC, 0x42, 0xC0, 0xC0, 0x0D, 0x9C, 0x86]

/-- The alert on it, which the responder does not watch. -/
def restartAlert : Dict :=
  Dnp3Dpi.Notice.alert hmiHost ⟨172, 21, 0, 50⟩ ⟨1, 10, 0x0D⟩

/-- The HMI writes and restarts an outstation while the attacker writes, and the log is read. -/
theorem trusted_sources_stay_connected_hmi :
    let loads := loadsOf [logLine restartAlert, writeLine attackerHost]
    (run (State.step loads 300 3) (State.start labIfs)
        [ .sniffed .modbusAnomaly (registerWrite hmiHost) [],
          .sniffed .dnp3Dpi hmiRestart [(logLine restartAlert).1],
          .sniffed .modbusAnomaly (registerWrite attackerHost) [(writeLine attackerHost).1],
          .read 0, .read 1 ]).filter.forward.verdict OtLab.Gateway.hmiToPlc.packet
      = (forwardChain labIfs).verdict OtLab.Gateway.hmiToPlc.packet := by
  intro loads
  have hrestart : alertsWritten (Detector.dnp3Dpi.process [1, 2] hmiRestart) = [restartAlert] := by
    decide
  have hread : loads (writeLine attackerHost).1 = some (writeLine attackerHost).2 := by
    have hne : ((writeLine attackerHost).1 == (logLine restartAlert).1) = false := by decide +kernel
    show List.lookup _ [_, _] = _
    rw [List.lookup_cons, hne]
    exact List.lookup_cons_self
  refine trusted_sources_stay_connected loads 300 3 [1, 2] labIfs _ ?_ hmiHost (by decide) ?_
    OtLab.Gateway.hmiToPlc.packet rfl
  · intro e he
    simp only [List.mem_cons, List.not_mem_nil, or_false] at he
    rcases he with rfl | rfl | rfl | rfl | rfl
    · exact .nil
    · show List.Forall₂ _ _ (alertsWritten _)
      rw [hrestart]
      exact .cons ⟨"2026-09-22T16:37:00", List.lookup_cons_self⟩ .nil
    · exact .cons ⟨"2026-09-22T16:37:00", hread⟩ .nil
    · exact trivial
    · exact trivial
  · intro p lines hmem hsrc hclaims
    obtain ⟨rfl, -⟩ : p = hmiRestart ∧ lines = [(logLine restartAlert).1] := by simpa using hmem
    obtain ⟨payload, e, hload, hdecode, -, hcontrol, -⟩ := hclaims
    obtain rfl := Option.some.inj hload
    rw [Dnp3.decode_cons] at hdecode
    obtain rfl := Option.some.inj (Except.ok.inj hdecode)
    exact absurd hcontrol (by decide)

end OtLab.Pipeline
