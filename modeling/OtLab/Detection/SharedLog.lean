import OtLab.Detection.CrossZone
import OtLab.Detection.Dnp3Anomaly
import OtLab.Detection.Dnp3Dpi
import OtLab.Detection.ExceptionWindow
import OtLab.Detection.ModbusAnomaly
import OtLab.Detection.OpcUaDpi
import OtLab.Detection.S7commDpi
import OtLab.Detection.SafetyAlerts
import OtLab.Governance.AlertLog

/-!
# Eight processes and one log

`start_ids.sh` starts every rule as a process of its own. Those that sniff handle the same packets,
each at its own time, and append their alerts to one log, as other producers do.

* `gained_of_handled` — an alert of a handler is in what the log gains
* `alert_of_burst_handled` — a burst of exceptions is reported, whatever was handled before
* `alert_of_unsafe_write` — a write is checked against the level that was shown last
* `trusted_writes_seen_iff` — who notices a write in the name of a trusted host, and when
-/

namespace OtLab

/-! ## The level that was shown last -/

namespace ProcessSafety

open Bytes Lib

variable {cfg : Config} {shadow : Shadow} {p : Packet}

/-- The level a packet shows the monitor, whatever octets it is made of. -/
def taught (cfg : Config) (p : Packet) : Option Nat :=
  p.load?.bind fun payload =>
    let offset := 9 + cfg.tankLevelReg * 2
    if p.src = cfg.plcIp ∧ payload[7]? = some 3 ∧
        ∃ byteCount ∈ payload[8]?, cfg.tankLevelReg < (byteCount.toNat / 2 : Nat) then
      some (fromBig (sliceAt payload offset (offset + 2)))
    else none

theorem taught_of_ne (h : p.src ≠ cfg.plcIp) : taught cfg p = none := by
  unfold taught
  cases p.load? with
  | none => rfl
  | some payload => exact if_neg fun h' => h h'.1

/-- Enforcement leaves the level alone. -/
theorem foldl_enforce_level (hne : cfg.inletValveReg ≠ cfg.tankLevelReg) (src : IPv4)
    (writes : List (Int × Nat)) : ∀ st : Shadow × List SinkCall,
    (writes.foldl (enforce cfg src) st).1 cfg.tankLevelReg = st.1 cfg.tankLevelReg := by
  induction writes with
  | nil => exact fun _ => rfl
  | cons write writes ih =>
    intro st
    rw [List.foldl_cons, ih]
    unfold enforce
    by_cases hreg : write.1 ≠ cfg.inletValveReg
    · rw [if_pos hreg]
    · rw [if_neg hreg]
      exact Function.update_of_ne (Ne.symm hne) _ _

theorem learn_level {payload : Bytes} {code : UInt8} (hload : p.load? = some payload)
    (hcode : payload[7]? = some code) :
    ∃ s, learn cfg p.src code payload shadow = .ok s ∧
      s cfg.tankLevelReg = (taught cfg p).getD (shadow cfg.tankLevelReg) := by
  unfold learn taught
  rw [hload, Option.bind_some, hcode]
  dsimp only
  by_cases h : p.src = cfg.plcIp ∧ code = 3 ∧ 9 ≤ payload.length
  · obtain ⟨hsrc, rfl, hlen⟩ := h
    have hcount : payload[8]? = some payload[8] := List.getElem?_eq_getElem (by omega)
    rw [if_pos ⟨hsrc, rfl, hlen⟩, getByte_of_some hcount, hcount]
    by_cases hlt : cfg.tankLevelReg < (payload[8].toNat / 2 : Nat)
    · refine ⟨_, if_pos hlt, ?_⟩
      rw [if_pos ⟨hsrc, rfl, _, rfl, hlt⟩]
      exact Function.update_self _ _ _
    · refine ⟨_, if_neg hlt, ?_⟩
      rw [if_neg]
      · rfl
      · rintro ⟨-, -, b, hb, hlt'⟩
        obtain rfl := Option.some.inj hb
        exact hlt hlt'
  · refine ⟨_, if_neg h, ?_⟩
    rw [if_neg]
    · rfl
    · rintro ⟨hsrc, hthree, b, hb, -⟩
      obtain ⟨hlt, -⟩ := List.getElem?_eq_some_iff.mp hb
      exact h ⟨hsrc, Option.some.inj hthree, hlt⟩

/-- Whatever is captured, the shadowed level is the one that was shown last. -/
theorem observe_level (hne : cfg.inletValveReg ≠ cfg.tankLevelReg) (shadow : Shadow) (p : Packet) :
    (observe cfg shadow p).1 cfg.tankLevelReg = (taught cfg p).getD (shadow cfg.tankLevelReg) := by
  unfold observe processPacket
  cases hload : p.load? with
  | none =>
    rw [taught, hload]
    rfl
  | some payload =>
    dsimp only
    by_cases hlen : payload.length < 8
    · simp only [if_pos hlen]
      rw [taught, hload, Option.bind_some]
      simp [List.getElem?_eq_none (show payload.length ≤ 7 by omega)]
    have hcode : payload[7]? = some payload[7] := List.getElem?_eq_getElem (by omega)
    obtain ⟨s, hs, hlevel⟩ := @learn_level cfg shadow p payload payload[7] hload hcode
    obtain ⟨writes, hwrites⟩ := exists_iterWrites payload payload[7]
    simp only [if_neg hlen, getByte_of_some hcode, bind, Except.bind, hs, hwrites, pure,
      Except.pure, ← hlevel]
    by_cases hw : p.dst = cfg.plcIp ∧ (payload[7] = 6 ∨ payload[7] = 16)
    · simp only [if_pos hw]
      exact foldl_enforce_level hne p.src writes (s, [])
    · simp only [if_neg hw]

/-- The level after a capture. -/
theorem level_run (hne : cfg.inletValveReg ≠ cfg.tankLevelReg) (ps : List Packet) :
    ∀ shadow : Shadow, run (fun shadow p => (observe cfg shadow p).1) shadow ps cfg.tankLevelReg
      = (ps.filterMap (taught cfg)).getLast?.getD (shadow cfg.tankLevelReg) := by
  induction ps with
  | nil => exact fun _ => rfl
  | cons p ps ih =>
    intro shadow
    rw [run_cons, ih, observe_level hne, List.filterMap_cons]
    cases taught cfg p with
    | none => rfl
    | some level => rw [List.getLast?_cons]; rfl

end ProcessSafety

namespace SharedLog

open AlertLog Lib LoginMonitor

/-! ## The processes -/

/-- The rules that handle packets. -/
inductive Detector where
  | crossZone
  | modbusAnomaly
  | bruteForce
  | processSafety
  | dnp3Anomaly
  | dnp3Dpi
  | s7commDpi
  | opcuaDpi
deriving DecidableEq

/-- The state of `ot_brute_force.py` and of `process_safety_violation.py`, and the log. -/
structure Ids where
  tracker : BruteForce.ErrorTracker
  shadow : ProcessSafety.Shadow
  log : List (List Char)

def Ids.start : Ids := ⟨fun _ => [], ProcessSafety.resetState, []⟩

/-- A process handles a packet and appends these lines, or another producer appends a line. -/
inductive Event where
  | handled (d : Detector) (x : BruteForce.Sighting) (lines : List (List Char))
  | other (line : List Char)

def Event.lines : Event → List (List Char)
  | handled _ _ lines => lines
  | other line => [line]

/-- What a process handles. -/
def Event.sighting? (d : Detector) : Event → Option BruteForce.Sighting
  | handled d' x _ => if d' = d then some x else none
  | other _ => none

def handledBy (d : Detector) (es : List Event) : List BruteForce.Sighting :=
  es.filterMap (Event.sighting? d)

section Detectors

variable (loads : Loads) (masters : List Nat)

/-- The alerts of the `process_packet` of a process, with the default settings. -/
def Detector.alerts (d : Detector) (s : Ids) (x : BruteForce.Sighting) : List Dict :=
  match d with
  | .crossZone => alertsOf (CrossZone.processPacket x.packet)
  | .modbusAnomaly =>
    alertsWritten (ModbusAnomaly.processPacket ModbusAnomaly.authorizedWriters x.packet)
  | .bruteForce => (BruteForce.processPacket 60 5 x.packet x.now s.tracker).2.toList
  | .processSafety =>
    alertsOf (ProcessSafety.observe ProcessSafety.defaultConfig s.shadow x.packet).2
  | .dnp3Anomaly =>
    alertsWritten (Dnp3Anomaly.processPacket Dnp3Anomaly.authorizedOperators x.packet)
  | .dnp3Dpi => alertsWritten (Dnp3Dpi.processPacket masters x.packet)
  | .s7commDpi => alertsWritten (S7commDpi.processPacket x.packet)
  | .opcuaDpi => alertsWritten (OpcUaDpi.processPacket x.packet)

def Ids.step (s : Ids) : Event → Ids
  | .handled d x lines =>
    { tracker := if d = .bruteForce then (BruteForce.processPacket 60 5 x.packet x.now s.tracker).1
        else s.tracker
      shadow := if d = .processSafety then
          (ProcessSafety.observe ProcessSafety.defaultConfig s.shadow x.packet).1
        else s.shadow
      log := s.log ++ lines }
  | .other line => { s with log := s.log ++ [line] }

/-- The lines are those of the alerts; what the others write is in nobody's way. -/
def Ids.Writes (s : Ids) : Event → Prop
  | .handled d x lines => List.Forall₂ (Logs loads) lines (d.alerts masters s x)
  | .other line => OneLine line ∧ Countable loads line

end Detectors

/-! ## What the log gains -/

section Log

variable {loads : Loads} {masters : List Nat} {s : Ids} {es : List Event} {d : Detector}
  {x : BruteForce.Sighting} {line : List Char} {lines : List (List Char)} {alert : Dict}

/-- What the log gains in a run. -/
def gain (es : List Event) : List (List Char) := es.flatMap Event.lines

theorem log_run (es : List Event) : ∀ s : Ids, (run Ids.step s es).log = s.log ++ gain es := by
  induction es with
  | nil => exact fun s => (List.append_nil _).symm
  | cons e es ih =>
    intro s
    have hcons : gain (e :: es) = e.lines ++ gain es := List.flatMap_cons
    rw [run_cons, ih, hcons, ← List.append_assoc]
    cases e <;> rfl

/-- No line of a run is in the way of the test suite. -/
theorem gain_countable (hw : StepsMeet Ids.step (Ids.Writes loads masters) s es) :
    ∀ line ∈ gain es, OneLine line ∧ Countable loads line := by
  induction es generalizing s with
  | nil => exact fun _ h => absurd h List.not_mem_nil
  | cons e es ih =>
    obtain ⟨hwrites, hrest⟩ := hw
    intro line hline
    rcases List.mem_append.mp hline with hline | hline
    · cases e with
      | handled d x lines =>
        obtain ⟨alert, -, hlogs⟩ := mem_left_of_forall₂ (List.Forall₂.flip hwrites) hline
        exact ⟨hlogs.1, countable_of_logs hlogs⟩
      | other line' =>
        obtain rfl := List.mem_singleton.mp hline
        exact hwrites
    · exact ih hrest line hline

/-- The lists of the brute-force detector depend on what it handles only. -/
theorem tracker_run (es : List Event) : ∀ (s : Ids) (written : List Dict),
    (run Ids.step s es).tracker
      = (run (BruteForce.handle 60 5) (s.tracker, written) (handledBy .bruteForce es)).1 := by
  induction es with
  | nil => exact fun _ _ => rfl
  | cons e es ih =>
    intro s written
    rw [run_cons, handledBy, List.filterMap_cons]
    cases e with
    | other line => exact ih _ written
    | handled d x lines =>
      by_cases hd : d = .bruteForce
      · subst hd
        exact ih _ _
      · rw [Event.sighting?, if_neg hd, Ids.step, if_neg hd]
        exact ih _ written

/-- And so does what the safety monitor has learned. -/
theorem shadow_run (es : List Event) : ∀ s : Ids, (run Ids.step s es).shadow
    = run (fun shadow p => (ProcessSafety.observe ProcessSafety.defaultConfig shadow p).1) s.shadow
        ((handledBy .processSafety es).map BruteForce.Sighting.packet) := by
  induction es with
  | nil => exact fun _ => rfl
  | cons e es ih =>
    intro s
    rw [run_cons, ih]
    cases e with
    | other line => rfl
    | handled d x lines =>
      by_cases hd : d = .processSafety
      · subst hd
        rfl
      · have hskip : handledBy .processSafety (.handled d x lines :: es)
            = handledBy .processSafety es := List.filterMap_cons_none (if_neg hd)
        rw [hskip, Ids.step, if_neg hd]

/-- The event at which a process handled a packet. -/
theorem exists_handled {a b : List BruteForce.Sighting} (h : handledBy d es = a ++ x :: b) :
    ∃ esa lines esb, es = esa ++ .handled d x lines :: esb ∧ handledBy d esa = a := by
  obtain ⟨esa, rest, rfl, ha, hrest⟩ := List.filterMap_eq_append_iff.mp h
  obtain ⟨skipped, e, esb, rfl, hskipped, he, -⟩ := List.filterMap_eq_cons_iff.mp hrest
  cases e with
  | other line => cases he
  | handled d' x' lines =>
    rw [Event.sighting?] at he
    split at he
    · next hd =>
      obtain rfl := Option.some.inj he
      subst hd
      refine ⟨esa ++ skipped, lines, esb, (List.append_assoc ..).symm, ?_⟩
      rw [handledBy, List.filterMap_append, ha, List.filterMap_eq_nil_iff.mpr hskipped,
        List.append_nil]
    · cases he

/-- An alert of a handler is in what the log gains. -/
theorem gained_of_handled {esa esb : List Event} {t : String}
    (hw : StepsMeet Ids.step (Ids.Writes loads masters) s (esa ++ .handled d x lines :: esb))
    (halert : alert ∈ d.alerts masters (run Ids.step s esa) x)
    (ht : alert.lookup "alert_type" = some (.str t)) :
    ∃ line ∈ lines, IsAlert loads (.text t) line := by
  obtain ⟨-, hwrites, -⟩ := stepsMeet_append.mp hw
  obtain ⟨line, hline, hlogs⟩ := mem_left_of_forall₂ hwrites halert
  exact ⟨line, hline, isAlert_of_logs hlogs ht rfl⟩

end Log

/-! ## A burst of exceptions -/

section Burst

open BruteForce

variable {masters : List Nat} {es₀ es₁ : List Event} {src : IPv4} {xs : List Sighting}

theorem handledBy_append (d : Detector) (es es' : List Event) :
    handledBy d (es ++ es') = handledBy d es ++ handledBy d es' := List.filterMap_append

/-- A sublist begins and ends within the list, with the rest of it in between. -/
theorem exists_ends {α : Type*} {first last : α} {mid l : List α}
    (h : (first :: (mid ++ [last])).Sublist l) :
    ∃ p m q, l = p ++ first :: (m ++ last :: q) ∧ mid.Sublist m := by
  obtain ⟨r₁, r₂, rfl, hfirst, hrest⟩ := List.cons_sublist_iff.mp h
  obtain ⟨r₃, r₄, rfl, hmid, hlast⟩ := List.append_sublist_iff.mp hrest
  obtain ⟨p, p', rfl⟩ := List.append_of_mem hfirst
  obtain ⟨q, q', rfl⟩ := List.append_of_mem (List.singleton_sublist.mp hlast)
  refine ⟨p, p' ++ r₃ ++ q, q', by simp, hmid.trans ?_⟩
  exact (List.sublist_append_right p' r₃).trans (List.sublist_append_left _ q)

/-- **A burst of exceptions is reported, whatever the detector handled before and in between.** -/
theorem alert_of_burst_handled
    (hclock : (handledBy .bruteForce (es₀ ++ es₁)).Pairwise fun x y => x.now ≤ y.now)
    (hxs : xs.Sublist (handledBy .bruteForce es₁))
    (hexc : ∀ x ∈ xs, isException src x.packet = true) (hlen : 5 ≤ xs.length)
    (hclose : ∀ x ∈ xs, ∀ y ∈ xs, y.now - x.now < 60) :
    ∃ esa x lines esb count, es₁ = esa ++ .handled .bruteForce x lines :: esb ∧
      alert src count ∈
        Detector.alerts masters .bruteForce (run Ids.step Ids.start (es₀ ++ esa)) x := by
  obtain ⟨first, rest, rfl⟩ := List.exists_cons_of_length_pos (show 0 < xs.length by omega)
  have hrest : rest ≠ [] := by
    rintro rfl
    simp at hlen
  obtain ⟨mid, last, rfl⟩ := (List.eq_nil_or_concat' rest).resolve_left hrest
  obtain ⟨p, m, q, hsplit, hmid⟩ := exists_ends hxs
  let all := handledBy .bruteForce es₀ ++ handledBy .bruteForce es₁
  let before := handledBy .bruteForce es₀ ++ p
  have hall : all = (before ++ first :: (m ++ [last])) ++ q := by
    simp only [all, before, hsplit, List.append_assoc, List.cons_append, List.nil_append]
  have hwindow : (before ++ first :: (m ++ [last])).length = before.length + 1 + m.length + 1 := by
    simp only [List.length_append, List.length_cons, List.length_nil]
    omega
  have hbetween : between all before.length (before.length + 1 + m.length)
      = first :: (m ++ [last]) := by
    rw [between, hall, List.take_left' hwindow, List.drop_left]
  have hfirst : all[before.length]? = some first := by simp [hall]
  have hlast : all[before.length + 1 + m.length]? = some last := by
    rw [hall, List.getElem?_append_left (by omega),
      List.getElem?_append_right (by omega),
      show before.length + 1 + m.length - before.length = m.length + 1 by omega,
      List.getElem?_cons_succ, List.getElem?_append_right (Nat.le_refl _), Nat.sub_self]
    rfl
  have hcount : 5 ≤ ((between all before.length (before.length + 1 + m.length)).filter
      fun z => isException src z.packet).length := by
    have hsub : (first :: (mid ++ [last])).Sublist
        (between all before.length (before.length + 1 + m.length)) := by
      rw [hbetween]
      exact (hmid.append_right [last]).cons_cons first
    have hself : (first :: (mid ++ [last])).filter (fun z => isException src z.packet)
        = first :: (mid ++ [last]) := List.filter_eq_self.mpr hexc
    rw [← hself] at hlen
    exact hlen.trans (hsub.filter _).length_le
  have hclock' : all.Pairwise fun x y => x.now ≤ y.now := by rwa [handledBy_append] at hclock
  obtain ⟨l, hl, -, count, halert⟩ := alert_of_burst hclock' (by omega) hfirst hlast
    (hexc last (by simp)) hcount (hclose first (by simp) last (by simp))
  -- the alert is written at an event of the second stretch
  obtain ⟨x, hx⟩ : ∃ x, all[l]? = some x := by
    cases hx : all[l]? with
    | none =>
      rw [alertAt, hx] at halert
      cases halert
    | some x => exact ⟨x, rfl⟩
  have hle : (handledBy .bruteForce es₀).length ≤ l := by
    refine Nat.le_trans ?_ hl
    rw [List.length_append]
    exact Nat.le_add_right _ _
  rw [alertAt_eq hx] at halert
  rw [List.getElem?_append_right hle] at hx
  obtain ⟨hlt, hget⟩ := List.getElem?_eq_some_iff.mp hx
  have hcut := (List.take_append_drop (l - (handledBy .bruteForce es₀).length)
    (handledBy .bruteForce es₁)).symm
  rw [List.drop_eq_getElem_cons hlt, hget] at hcut
  obtain ⟨esa, lines, esb, hes₁, hhandled⟩ := exists_handled hcut
  refine ⟨esa, x, lines, esb, count, hes₁, ?_⟩
  have htracker : (run Ids.step Ids.start (es₀ ++ esa)).tracker = listsBefore 60 5 all l := by
    rw [tracker_run (es₀ ++ esa) Ids.start [], handledBy_append, hhandled, listsBefore,
      List.take_append, List.take_of_length_le hle]
    rfl
  show alert src count ∈ Option.toList _
  rw [htracker, halert]
  exact List.mem_singleton_self _

end Burst

/-! ## An unsafe write -/

section Safety

open ProcessSafety (Shadow WriteRequest defaultConfig taught violation)

variable {masters : List Nat} {es₀ es₁ : List Event} {a b : List BruteForce.Sighting}
  {x : BruteForce.Sighting} {w : WriteRequest}

/-- The level the packets have shown. -/
def levelShown (xs : List BruteForce.Sighting) : Nat :=
  ((xs.map BruteForce.Sighting.packet).filterMap (taught defaultConfig)).getLast?.getD 0

theorem level_after (es : List Event) :
    (run Ids.step Ids.start es).shadow defaultConfig.tankLevelReg
      = levelShown (handledBy .processSafety es) := by
  rw [shadow_run, ProcessSafety.level_run (by decide)]
  rfl

/-- What the safety monitor has for a write request. -/
theorem processSafety_alerts (s : Ids) (hx : x.packet = w.packet) :
    Detector.alerts masters .processSafety s x =
      if w.dst = defaultConfig.plcIp ∧ (defaultConfig.inletValveReg, 1) ∈ w.body.writes ∧
          defaultConfig.levelThreshold < s.shadow defaultConfig.tankLevelReg then
        [violation defaultConfig w.src (s.shadow defaultConfig.tankLevelReg)] else [] := by
  unfold Detector.alerts
  rw [hx, (ProcessSafety.observe_write (by decide) w).2]
  split_ifs
  · rfl
  · rfl

/-- A write that opens the inlet valve is checked against the level that was shown last. -/
theorem alert_of_unsafe_write (h : handledBy .processSafety es₁ = a ++ x :: b)
    (hx : x.packet = w.packet) (hdst : w.dst = defaultConfig.plcIp)
    (hopen : (defaultConfig.inletValveReg, 1) ∈ w.body.writes)
    (hlevel : defaultConfig.levelThreshold < levelShown (handledBy .processSafety es₀ ++ a)) :
    ∃ esa lines esb, es₁ = esa ++ .handled .processSafety x lines :: esb ∧
      violation defaultConfig w.src (levelShown (handledBy .processSafety es₀ ++ a)) ∈
        Detector.alerts masters .processSafety (run Ids.step Ids.start (es₀ ++ esa)) x := by
  obtain ⟨esa, lines, esb, hes₁, hhandled⟩ := exists_handled h
  refine ⟨esa, lines, esb, hes₁, ?_⟩
  rw [processSafety_alerts _ hx, level_after, handledBy_append, hhandled,
    if_pos ⟨hdst, hopen, hlevel⟩]
  exact List.mem_singleton_self _

end Safety

/-! ## Writes in the name of a trusted host -/

section Trusted

open ProcessSafety (WriteRequest defaultConfig violation)

variable {loads : Loads} {masters : List Nat} {d : Detector} {s : Ids}
  {x : BruteForce.Sighting} {w : WriteRequest}

theorem zoneOf_trusted {src : IPv4} (h : src ∈ ModbusAnomaly.authorizedWriters) :
    zoneOf src ≠ some .it := by
  simp only [ModbusAnomaly.authorizedWriters, List.mem_cons, List.not_mem_nil, or_false] at h
  rcases h with rfl | rfl <;> decide

/-- Nothing but its source, its port and its function code is looked at elsewhere. -/
theorem alerts_of_trusted_write (hx : x.packet = w.packet)
    (hsrc : w.src ∈ ModbusAnomaly.authorizedWriters)
    (hport : w.header.dport = ModbusAnomaly.modbusPort) (hd : d ≠ .processSafety) :
    d.alerts masters s x = [] := by
  have hother : ∀ port : UInt16, port ≠ ModbusAnomaly.modbusPort → w.header.dport ≠ port := by
    rintro port hne rfl
    exact hne hport
  unfold Detector.alerts
  rw [hx]
  cases d with
  | processSafety => exact absurd rfl hd
  | crossZone =>
    dsimp only
    rw [CrossZone.alertsOf_processPacket]
    exact if_neg fun h => zoneOf_trusted hsrc h.1
  | modbusAnomaly =>
    rcases ModbusAnomaly.alertsWritten_cases ModbusAnomaly.authorizedWriters w.packet with
      ⟨-, hnone⟩ | ⟨hwrite, -⟩
    · exact hnone
    · exact absurd hsrc (of_decide_eq_true hwrite).1
  | bruteForce =>
    have hcode : w.packet.functionCode? = some w.body.functionCode := rfl
    have hlow : ¬ 128 < w.body.functionCode := by
      cases w.body with
      | single => exact show ¬ (128 : UInt8) < 6 by decide
      | multiple => exact show ¬ (128 : UInt8) < 16 by decide
    dsimp only [BruteForce.processPacket]
    rw [hcode]
    dsimp only
    rw [if_neg hlow]
    rfl
  | dnp3Anomaly =>
    show alertsWritten (Dnp3Anomaly.processPacket _ (.segment _ _ _ _)) = []
    unfold Dnp3Anomaly.processPacket
    rw [Common.payloadTo_segment_of_ne (hother _ (by decide))]
    rfl
  | dnp3Dpi => exact alertsOn_produce_of_port_ne (hother Dnp3Dpi.port (by decide)) _
  | s7commDpi => exact alertsOn_produce_of_port_ne (hother S7commDpi.port (by decide)) _
  | opcuaDpi => exact alertsOn_produce_of_port_ne (hother OpcUaDpi.port (by decide)) _

/--
**A write in the name of a trusted host.**

In every run, a Modbus write with the address of the HMI or the engineering workstation leaves a
line in the log exactly if the process that handles it is the safety monitor, it opens the inlet
valve of the intake PLC, and the level shown last in what the monitor has handled is above 90. That
line is a safety violation.
-/
theorem trusted_writes_seen_iff (loads : Loads) (masters : List Nat) (esa esb : List Event)
    (d : Detector) (x : BruteForce.Sighting) (lines : List (List Char)) (w : WriteRequest)
    (hw : StepsMeet Ids.step (Ids.Writes loads masters) Ids.start
      (esa ++ .handled d x lines :: esb))
    (hx : x.packet = w.packet) (hsrc : w.src ∈ ModbusAnomaly.authorizedWriters)
    (hport : w.header.dport = ModbusAnomaly.modbusPort) :
    (lines ≠ [] ↔ d = .processSafety ∧ w.dst = defaultConfig.plcIp ∧
      (defaultConfig.inletValveReg, 1) ∈ w.body.writes ∧
        90 < levelShown (handledBy .processSafety esa)) ∧
    ∀ line ∈ lines, IsAlert loads (.text "PROCESS_SAFETY_VIOLATION") line := by
  obtain ⟨-, hwrites, -⟩ := stepsMeet_append.mp hw
  have hlines : List.Forall₂ (Logs loads) lines
      (d.alerts masters (run Ids.step Ids.start esa) x) := hwrites
  by_cases hd : d = .processSafety
  · subst hd
    rw [processSafety_alerts _ hx, level_after] at hlines
    have hthreshold : defaultConfig.levelThreshold < levelShown (handledBy .processSafety esa) ↔
        90 < levelShown (handledBy .processSafety esa) := Nat.cast_lt (α := Int) (m := 90)
    split_ifs at hlines with h
    · obtain ⟨line, hlogs, rfl⟩ : ∃ line, Logs loads line (violation defaultConfig w.src
          (levelShown (handledBy .processSafety esa))) ∧ lines = [line] := by
        cases hlines with
        | cons hlogs hnil =>
          cases hnil
          exact ⟨_, hlogs, rfl⟩
      refine ⟨iff_of_true (List.cons_ne_nil _ _) ⟨rfl, h.1, h.2.1, hthreshold.mp h.2.2⟩,
        fun line' hline' => ?_⟩
      obtain rfl := List.mem_singleton.mp hline'
      exact isAlert_of_logs hlogs rfl rfl
    · cases hlines
      exact ⟨iff_of_false (fun hne => hne rfl) fun ⟨_, hdst, hopen, hhigh⟩ =>
          h ⟨hdst, hopen, hthreshold.mpr hhigh⟩,
        fun line hline => absurd hline List.not_mem_nil⟩
  · rw [alerts_of_trusted_write hx hsrc hport hd] at hlines
    cases hlines
    exact ⟨iff_of_false (fun hne => hne rfl) fun hall => hd hall.1,
      fun line hline => absurd hline List.not_mem_nil⟩

/-- The inlet valve is opened in the name of the HMI. -/
def hmiOpens : WriteRequest := { ProcessSafety.openInlet with src := hmiHost }

def hmiRecord : Dict :=
  ("timestamp", .str "2026-09-22T16:37:00") :: violation defaultConfig hmiHost 95

/-- What `json.dumps` makes of it. -/
def hmiLine : String :=
  "\x7b\"timestamp\": \"2026-09-22T16:37:00\", \"alert_type\": \"PROCESS_SAFETY_VIOLATION\", "
    ++ "\"source_ip\": \"172.22.0.10\", "
    ++ "\"details\": \"Current Tank Level: 95%, Command: OPEN Inlet Valve\", "
    ++ "\"mitre_id\": \"T0836\", \"description\": \"Safety Interlock Violation: "
    ++ "Attempted to open inlet valve while container is at overflow capacity.\", "
    ++ "\"event_type\": \"process_safety_violation\", \"asset\": \"PLC-01\", "
    ++ "\"actor\": \"172.22.0.10\", \"register\": \"HR0\", \"value\": 1, "
    ++ "\"tank_level_pct\": 95, \"response\": \"none\"\x7d"

theorem oneLine_hmiLine : OneLine hmiLine.toList := by
  unfold hmiLine
  iterate 7 refine oneLine_append ?_ (oneLine_toList rfl (by decide))
  exact oneLine_toList rfl (by decide)

/-- `json.loads`, of the one line of the log. -/
def loadsHmi (text : String) : Py (Option Json) :=
  .ok (if text = hmiLine then some hmiRecord.toJson else none)

theorem logs_hmi : Logs loadsHmi hmiLine.toList (violation defaultConfig hmiHost 95) := by
  refine ⟨oneLine_hmiLine, "2026-09-22T16:37:00", ?_⟩
  rw [String.ofList_toList]
  exact congrArg Except.ok (if_pos rfl)

/-- The HMI has read a level of 95 before. -/
theorem trusted_writes_seen_iff_hmi :
    IsAlert loadsHmi (.text "PROCESS_SAFETY_VIOLATION") hmiLine.toList := by
  have hread : Detector.alerts [1, 2] .processSafety Ids.start
      ⟨ProcessSafety.wholeImage.packet defaultConfig, 0⟩ = [] := by decide +kernel
  have hopens : Detector.alerts [1, 2] .processSafety
      (Ids.start.step (.handled .processSafety
        ⟨ProcessSafety.wholeImage.packet defaultConfig, 0⟩ [])) ⟨hmiOpens.packet, 1⟩
      = [violation defaultConfig hmiHost 95] := by
    rw [processSafety_alerts _ rfl]
    exact if_pos (by decide +kernel)
  refine (trusted_writes_seen_iff loadsHmi [1, 2]
    [.handled .processSafety ⟨ProcessSafety.wholeImage.packet defaultConfig, 0⟩ []] []
    .processSafety ⟨hmiOpens.packet, 1⟩ [hmiLine.toList] hmiOpens
    ⟨?_, ?_, trivial⟩ rfl (by decide) rfl).2 _ (List.mem_singleton_self _)
  · show List.Forall₂ _ [] (Detector.alerts _ _ _ _)
    rw [hread]
    exact .nil
  · show List.Forall₂ _ _ (Detector.alerts _ _ _ _)
    rw [hopens]
    exact .cons logs_hmi .nil

end Trusted

end SharedLog

end OtLab
