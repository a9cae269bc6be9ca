import OtLab.Detection.Beacon
import OtLab.Detection.Dnp3Dpi
import OtLab.Detection.OpcUaDpi
import OtLab.Detection.S7commDpi
import OtLab.Detection.Watchdog
import OtLab.Lib.Interruptible

/-!
# Outages of the SIEM

Every producer pushes an event to Loki before it writes its alert, and `push_to_loki` catches only
`OSError`. A malformed reply raises `HTTPException`, which leaves the producer before the alert is
written.

* `exec_processPacket`, `exec_checkBeacon`, `exec_check` — without a malformed reply the producers
  do what their models without sinks say
* `evidence_kept_iff` — the evidence is kept exactly when no push meets a malformed reply
-/

namespace OtLab.SinkOutage

open Lib

/-! ## The sinks -/

/-- How the Loki endpoint answers a push. -/
inductive LokiReply where
  | accepted
  | osError
  | malformed
deriving DecidableEq, Repr

/-- What escapes a handler. -/
inductive Escape where
  | httpException
  | zeroDivisionError
  | raised (e : PyError)
deriving DecidableEq, Repr

/-- The module state of a producer, `alerts.json`, and the number of pushes so far. -/
structure Sinks (σ A : Type) where
  tracker : σ
  alerts : List A
  pushes : Nat

abbrev Handler (σ A : Type) := Interruptible Escape (Sinks σ A)

variable {σ A : Type}

/-- `push_to_loki`; `loki` answers the pushes in their order. -/
def pushToLoki (loki : Nat → LokiReply) : Handler σ A Bool := do
  let s ← get
  modify fun s => { s with pushes := s.pushes + 1 }
  match loki s.pushes with
  | .accepted => return true
  | .osError => return false
  | .malformed => throw .httpException

/-- `write_alert`. -/
def writeAlert (alert : A) : Handler σ A Unit :=
  modify fun s => { s with alerts := s.alerts ++ [alert] }

/-! ## The producers -/

section Producers

variable (loki : Nat → LokiReply)

/-- One call of a sink. -/
def perform : SinkCall → Handler σ Dict Unit
  | .loki _ _ _ => do
    let _ ← pushToLoki loki
  | .alert a => writeAlert a

/-- `process_packet` with its sinks. -/
def processPacket (process : Packet → Py (List SinkCall)) (packet : Packet) :
    Handler Unit Dict Unit :=
  match process packet with
  | .ok calls => calls.forM (perform loki)
  | .error e => throw (.raised e)

section Beacon

open Beacon

variable {K : Type} [Field K] [LinearOrder K]

/-- `_beacon_times[key] = times`. -/
def setTimes (key : Beacon.Key) (times : List K) : Handler (BeaconTimes K) (Alert K) Unit :=
  modify fun s => { s with tracker := Function.update s.tracker key times }

/-- The end of `check_beacon`: the deque is cleared behind the alert. -/
def raiseBeacon (round : K → Nat → K) (key : Beacon.Key) (r : Regularity K) :
    Handler (BeaconTimes K) (Alert K) Unit := do
  let _ ← pushToLoki loki
  writeAlert (alert round key r)
  setTimes key []

/-- The rest of `check_beacon` when the flow is recorded. -/
def judgeTimes (cfg : Config K) (sqrt : K → K) (round : K → Nat → K) (key : Beacon.Key)
    (times : List K) : Handler (BeaconTimes K) (Alert K) Unit := do
  if times.length < cfg.minEvents then return
  match intervalRegularity cfg sqrt times with
  | none => throw .zeroDivisionError
  | some (coefficient, mean) =>
    if cfg.maxCv < coefficient then return
    raiseBeacon loki round key ⟨times.length, mean, coefficient⟩

/-- `check_beacon` with its sinks. -/
def checkBeacon (cfg : Config K) (sqrt : K → K) (round : K → Nat → K) (key : Beacon.Key) (now : K) :
    Handler (BeaconTimes K) (Alert K) Unit := do
  let s ← get
  if Debounced cfg (s.tracker key) now then return
  setTimes key (recorded cfg (s.tracker key) now)
  judgeTimes loki cfg sqrt round key (recorded cfg (s.tracker key) now)

end Beacon

section Watchdog

open Watchdog

variable {T : Type} [AddCommGroup T] [LinearOrder T]

/-- The body of the loop of `check` with its sinks: the entry is set before the push. -/
def checkScript (repeatSeconds now : T) (running : String → Bool) (script : String) :
    Handler (LastAlerted T) Dict Unit := do
  if running script then
    modify fun s => { s with tracker := Function.update s.tracker script none }
    return
  let s ← get
  if now - (s.tracker script).getD 0 < repeatSeconds then return
  modify fun s => { s with tracker := Function.update s.tracker script (some now) }
  let _ ← pushToLoki loki
  writeAlert (serviceDown script)

/-- `check` with its sinks. -/
def check (repeatSeconds : T) (scripts : List String) (now : T) (running : String → Bool) :
    Handler (LastAlerted T) Dict Unit :=
  scripts.forM (checkScript loki repeatSeconds now running)

end Watchdog

end Producers

/-! ## The sinks, call by call -/

theorem accepted_ne_malformed : LokiReply.accepted ≠ .malformed := LokiReply.noConfusion

section Push

variable {loki : Nat → LokiReply} {tracker : σ} {alerts : List A} {pushes : Nat}

theorem exec_pushToLoki (h : loki pushes ≠ .malformed) :
    ∃ b, exec (pushToLoki loki) ⟨tracker, alerts, pushes⟩
      = (.ok b, ⟨tracker, alerts, pushes + 1⟩) := by
  unfold pushToLoki
  rw [exec_get_bind, exec_bind_of_ok (exec_modify _ _)]
  cases hreply : loki pushes with
  | accepted => exact ⟨true, rfl⟩
  | osError => exact ⟨false, rfl⟩
  | malformed => exact absurd hreply h

theorem exec_pushToLoki_malformed (h : loki pushes = .malformed) :
    exec (pushToLoki loki) ⟨tracker, alerts, pushes⟩
      = (.error .httpException, ⟨tracker, alerts, pushes + 1⟩) := by
  unfold pushToLoki
  rw [exec_get_bind, exec_bind_of_ok (exec_modify _ _), h]
  rfl

end Push

variable {loki : Nat → LokiReply} {s : Sinks σ A}

theorem exec_forM_cons {ε τ α : Type} (f : α → Interruptible ε τ Unit) (a : α) (l : List α)
    (t : τ) : exec ((a :: l).forM f) t = exec (f a >>= fun _ => l.forM f) t := rfl

/-- Alerts are written one behind the other. -/
theorem exec_forM_writeAlert {s : Sinks σ Dict} (alerts : List Dict) :
    exec ((alerts.map Common.writeAlert).forM (perform loki)) s
      = (.ok (), { s with alerts := s.alerts ++ alerts }) := by
  induction alerts generalizing s with
  | nil => simp [List.forM_nil]
  | cons a alerts ih =>
    have hwrite : exec (perform loki (Common.writeAlert a)) s
        = (.ok (), { s with alerts := s.alerts ++ [a] }) := rfl
    rw [List.map_cons, exec_forM_cons, exec_bind_of_ok hwrite, ih]
    simp

/-- The alerts behind a push. -/
theorem exec_forM_push {s : Sinks σ Dict} {service job : String} {event : Dict} {alerts : List Dict}
    (h : loki s.pushes ≠ .malformed) :
    exec ((.loki service job event :: alerts.map Common.writeAlert).forM (perform loki)) s
      = (.ok (), { s with alerts := s.alerts ++ alerts, pushes := s.pushes + 1 }) := by
  obtain ⟨b, hpush⟩ := exec_pushToLoki h
  have hperform : exec (perform loki (.loki service job event)) s
      = (.ok (), { s with pushes := s.pushes + 1 }) := by
    unfold perform
    rw [exec_bind_of_ok hpush, exec_pure]
  rw [exec_forM_cons, exec_bind_of_ok hperform, exec_forM_writeAlert]

/-- A push that raises is the last thing a handler does. -/
theorem exec_forM_push_malformed {s : Sinks σ Dict} {service job : String} {event : Dict}
    {calls : List SinkCall} (h : loki s.pushes = .malformed) :
    exec ((.loki service job event :: calls).forM (perform loki)) s
      = (.error .httpException, { s with pushes := s.pushes + 1 }) := by
  have hperform : exec (perform loki (.loki service job event)) s
      = (.error .httpException, { s with pushes := s.pushes + 1 }) := by
    unfold perform
    rw [exec_bind_of_error (exec_pushToLoki_malformed h)]
  rw [exec_forM_cons, exec_bind_of_error hperform]

/-! ## Evidence -/

/-- The alerts are appended, and the module state ends as it does when every push is accepted. -/
def EvidenceKept (handler : (Nat → LokiReply) → Handler σ A Unit) (loki : Nat → LokiReply)
    (s : Sinks σ A) (alerts : List A) : Prop :=
  (exec (handler loki) s).2.alerts = s.alerts ++ alerts ∧
    (exec (handler loki) s).2.tracker = (exec (handler fun _ => .accepted) s).2.tracker

variable {handler : (Nat → LokiReply) → Handler σ A Unit} {alerts : List A}

/-- A handler that ends as if its pushes were accepted keeps the evidence. -/
theorem evidenceKept_of_eq {r : Except Escape Unit × Sinks σ A} (h : exec (handler loki) s = r)
    (haccepted : exec (handler fun _ => .accepted) s = r)
    (halerts : r.2.alerts = s.alerts ++ alerts) : EvidenceKept handler loki s alerts := by
  unfold EvidenceKept
  rw [h, haccepted]
  exact ⟨halerts, rfl⟩

/-- Evidence is lost with an alert. -/
theorem not_evidenceKept
    (h : (exec (handler loki) s).2.alerts.length < s.alerts.length + alerts.length) :
    ¬ EvidenceKept handler loki s alerts := by
  rintro ⟨halerts, -⟩
  rw [halerts, List.length_append] at h
  exact Nat.lt_irrefl _ h

/-! ## The producers for one packet -/

section Produce

open Common

variable {Event : Type} {service : String} {port : UInt16} {decode : Bytes → Py (Option Event)}
  {fields : Event → Dict} {alertsFor : Event → Packet → List Dict} {packet : Packet}

/-- A packet raises a detection. -/
def Detects (process : Packet → Py (List SinkCall)) (packet : Packet) : Prop :=
  alertsWritten (process packet) ≠ []

instance (process : Packet → Py (List SinkCall)) (packet : Packet) :
    Decidable (Detects process packet) :=
  inferInstanceAs (Decidable (alertsWritten (process packet) ≠ []))

/-- A packet that raises a detection pushes its event first. -/
theorem exists_push (h : Detects (produce service port decode fields alertsFor) packet) :
    ∃ event, produce service port decode fields alertsFor packet
      = .ok (.loki service "ot_ndr" event
          :: (alertsWritten (produce service port decode fields alertsFor packet)).map
            Common.writeAlert) := by
  unfold Detects produce at h
  unfold produce
  cases hpayload : payloadTo port packet with
  | none =>
    rw [hpayload] at h
    exact absurd rfl h
  | some payload =>
    rw [hpayload] at h
    dsimp only at h ⊢
    rcases hdecode : decode payload with e | - | e
    · rw [hdecode] at h
      exact absurd rfl h
    · rw [hdecode] at h
      exact absurd rfl h
    · have hwritten := alertsOf_push service (fields e) packet (alertsFor e packet)
      refine ⟨fields e ++ [("src_ip", .str packet.src.str), ("dst_ip", .str packet.dst.str)], ?_⟩
      show Except.ok (Common.pushToLoki service (fields e) packet
          :: (alertsFor e packet).map Common.writeAlert)
        = .ok (Common.pushToLoki service (fields e) packet
          :: (alertsOf (Common.pushToLoki service (fields e) packet
            :: (alertsFor e packet).map Common.writeAlert)).map Common.writeAlert)
      rw [hwritten]

variable {s : Sinks Unit Dict}

/-- Without a malformed reply the alerts of the packet are appended. -/
theorem exec_processPacket (h : Detects (produce service port decode fields alertsFor) packet)
    (hreply : loki s.pushes ≠ .malformed) :
    exec (processPacket loki (produce service port decode fields alertsFor) packet) s
      = (.ok (), { s with
          alerts := s.alerts ++ alertsWritten (produce service port decode fields alertsFor packet)
          pushes := s.pushes + 1 }) := by
  obtain ⟨event, hcalls⟩ := exists_push h
  generalize alertsWritten (produce service port decode fields alertsFor packet) = alerts
    at hcalls ⊢
  unfold processPacket
  rw [hcalls]
  exact exec_forM_push hreply

/-- A malformed reply leaves the alerts as they were. -/
theorem exec_processPacket_malformed
    (h : Detects (produce service port decode fields alertsFor) packet)
    (hreply : loki s.pushes = .malformed) :
    exec (processPacket loki (produce service port decode fields alertsFor) packet) s
      = (.error .httpException, { s with pushes := s.pushes + 1 }) := by
  obtain ⟨event, hcalls⟩ := exists_push h
  unfold processPacket
  rw [hcalls]
  exact exec_forM_push_malformed hreply

/-- A packet that raises a detection keeps its evidence unless its push is answered badly. -/
theorem processPacket_kept_iff
    (h : Detects (produce service port decode fields alertsFor) packet) :
    EvidenceKept (processPacket · (produce service port decode fields alertsFor) packet) loki s
        (alertsWritten (produce service port decode fields alertsFor packet)) ↔
      loki s.pushes ≠ .malformed := by
  constructor
  · -- the exception leaves the handler before the alerts
    intro hkept hreply
    refine not_evidenceKept ?_ hkept
    rw [exec_processPacket_malformed h hreply]
    exact Nat.lt_add_of_pos_right (List.length_pos_iff.mpr h)
  · intro hreply
    exact evidenceKept_of_eq (exec_processPacket h hreply)
      (exec_processPacket h accepted_ne_malformed) rfl

end Produce

/-! ## Beaconing -/

section Beacon

open Beacon

variable {K : Type} [Field K] [LinearOrder K] {cfg : Config K} {sqrt : K → K}
  {round : K → Nat → K} {key : Beacon.Key} {now : K} {s : Sinks (BeaconTimes K) (Alert K)}

/-- The recorded times raise no alert and no push, or end with the alert. -/
theorem judgeTimes_cases (cfg : Config K) (sqrt : K → K) (round : K → Nat → K) (key : Beacon.Key)
    (times : List K) :
    (judge cfg sqrt times = (times, none) ∧
      ∀ loki s, (exec (judgeTimes loki cfg sqrt round key times) s).2 = s) ∨
    ∃ r, judge cfg sqrt times = ([], some r) ∧
      ∀ loki, judgeTimes loki cfg sqrt round key times = raiseBeacon loki round key r := by
  unfold judge judgeTimes
  by_cases hlen : times.length < cfg.minEvents
  · refine .inl ⟨if_pos hlen, fun loki s => ?_⟩
    rw [if_pos hlen]
    rfl
  simp only [if_neg hlen]
  rcases intervalRegularity cfg sqrt times with - | ⟨coefficient, mean⟩
  · -- a ZeroDivisionError
    exact .inl ⟨rfl, fun _ _ => rfl⟩
  dsimp only
  by_cases hcv : cfg.maxCv < coefficient
  · refine .inl ⟨if_pos hcv, fun loki s => ?_⟩
    rw [if_pos hcv]
    rfl
  · exact .inr ⟨_, if_neg hcv, fun loki => if_neg hcv⟩

/-- A flow raises no alert and makes no push, or ends with the alert. -/
theorem checkBeacon_cases (cfg : Config K) (sqrt : K → K) (round : K → Nat → K) (key : Beacon.Key)
    (now : K) (s : Sinks (BeaconTimes K) (Alert K)) :
    ((Beacon.checkBeacon cfg sqrt round key now s.tracker).2 = none ∧
      ∀ loki, (exec (checkBeacon loki cfg sqrt round key now) s).2
        = { s with tracker := (Beacon.checkBeacon cfg sqrt round key now s.tracker).1 }) ∨
    ∃ r times, Beacon.checkBeacon cfg sqrt round key now s.tracker
        = (Function.update s.tracker key [], some (alert round key r)) ∧
      ∀ loki, exec (checkBeacon loki cfg sqrt round key now) s
        = exec (raiseBeacon loki round key r)
            { s with tracker := Function.update s.tracker key times } := by
  unfold Beacon.checkBeacon checkBeacon
  simp only [exec_get_bind]
  by_cases hd : Debounced cfg (s.tracker key) now
  · refine .inl ⟨?_, fun loki => ?_⟩
    · rw [sample_of_debounced hd]
      rfl
    · rw [sample_of_debounced hd, if_pos hd]
      dsimp only
      rw [Function.update_eq_self]
      rfl
  -- the flow is recorded before the times are judged
  have hset : ∀ loki, exec (do
        setTimes key (recorded cfg (s.tracker key) now)
        judgeTimes loki cfg sqrt round key (recorded cfg (s.tracker key) now)) s
      = exec (judgeTimes loki cfg sqrt round key (recorded cfg (s.tracker key) now))
        { s with tracker := Function.update s.tracker key (recorded cfg (s.tracker key) now) } :=
    fun loki => exec_bind_of_ok (exec_modify _ s) _
  simp only [if_neg hd, sample_of_not_debounced hd, hset]
  obtain ⟨hjudge, hexec⟩ | ⟨r, hjudge, hexec⟩ :=
    judgeTimes_cases cfg sqrt round key (recorded cfg (s.tracker key) now)
  · rw [hjudge]
    exact .inl ⟨rfl, fun loki => hexec loki _⟩
  · rw [hjudge]
    exact .inr ⟨r, _, rfl, fun loki => by rw [hexec]⟩

section Raise

variable {tracker : BeaconTimes K} {alerts : List (Alert K)} {pushes : Nat} {r : Regularity K}

omit [Field K] [LinearOrder K] in
theorem exec_raiseBeacon (h : loki pushes ≠ .malformed) :
    exec (raiseBeacon loki round key r) ⟨tracker, alerts, pushes⟩
      = (.ok (), ⟨Function.update tracker key [], alerts ++ [alert round key r], pushes + 1⟩) := by
  obtain ⟨b, hpush⟩ := exec_pushToLoki h
  unfold raiseBeacon
  rw [exec_bind_of_ok hpush]
  rfl

omit [Field K] [LinearOrder K] in
theorem exec_raiseBeacon_malformed (h : loki pushes = .malformed) :
    exec (raiseBeacon loki round key r) ⟨tracker, alerts, pushes⟩
      = (.error .httpException, ⟨tracker, alerts, pushes + 1⟩) :=
  exec_bind_of_error (exec_pushToLoki_malformed h) _

end Raise

/-- Without a malformed reply `check_beacon` does what its model without sinks says. -/
theorem exec_checkBeacon (h : loki s.pushes ≠ .malformed) :
    (exec (checkBeacon loki cfg sqrt round key now) s).2 =
      { tracker := (Beacon.checkBeacon cfg sqrt round key now s.tracker).1
        alerts := s.alerts ++ (Beacon.checkBeacon cfg sqrt round key now s.tracker).2.toList
        pushes := s.pushes
          + (Beacon.checkBeacon cfg sqrt round key now s.tracker).2.toList.length } := by
  obtain ⟨hnone, hexec⟩ | ⟨r, times, hr, hexec⟩ := checkBeacon_cases cfg sqrt round key now s
  · rw [hexec, hnone]
    simp
  · rw [hexec, exec_raiseBeacon h, hr]
    simp

/-- A flow that raises a detection keeps its evidence unless its push is answered badly. -/
theorem checkBeacon_kept_iff (h : (Beacon.checkBeacon cfg sqrt round key now s.tracker).2 ≠ none) :
    EvidenceKept (checkBeacon · cfg sqrt round key now) loki s
        (Beacon.checkBeacon cfg sqrt round key now s.tracker).2.toList ↔
      loki s.pushes ≠ .malformed := by
  obtain ⟨hnone, -⟩ | ⟨r, times, hr, hexec⟩ := checkBeacon_cases cfg sqrt round key now s
  · exact absurd hnone h
  rw [hr, Option.toList_some]
  constructor
  · intro hkept hreply
    refine not_evidenceKept ?_ hkept
    rw [hexec, exec_raiseBeacon_malformed hreply]
    exact Nat.lt_succ_self _
  · intro hreply
    exact evidenceKept_of_eq ((hexec loki).trans (exec_raiseBeacon hreply))
      ((hexec fun _ => .accepted).trans (exec_raiseBeacon accepted_ne_malformed)) rfl

end Beacon

/-! ## The watchdog -/

section Watchdog

open Watchdog Rearm

variable {T : Type} [AddCommGroup T] [LinearOrder T]

/-- The scripts a check finds down and due for an alert. -/
def due (rep now : T) (running : String → Bool) (last : LastAlerted T) (scripts : List String) :
    List String :=
  scripts.filter fun script => reports rep (last script) (sighting now running script)

variable {rep now : T} {running : String → Bool} {last : LastAlerted T} {script : String}
  {scripts : List String} {s : Sinks (LastAlerted T) Dict}

theorem due_cons_of_reports (h : reports rep (last script) (sighting now running script) = true) :
    due rep now running last (script :: scripts)
      = script :: due rep now running last scripts := List.filter_cons_of_pos h

theorem due_cons_of_not_reports
    (h : ¬ reports rep (last script) (sighting now running script) = true) :
    due rep now running last (script :: scripts) = due rep now running last scripts :=
  List.filter_cons_of_neg h

/-- The entry of a script after one check. -/
def entryAfter (rep now : T) (running : String → Bool) (last : LastAlerted T) (script : String) :
    LastAlerted T :=
  Function.update last script (look rep (last script) (sighting now running script))

/-- What becomes of the entry of a script does not matter for the others. -/
theorem due_entryAfter (h : script ∉ scripts) :
    due rep now running (entryAfter rep now running last script) scripts
      = due rep now running last scripts := by
  refine List.filter_congr ?_
  intro script' hmem
  have hne : script' ≠ script := by
    rintro rfl
    exact h hmem
  rw [entryAfter, Function.update_of_ne hne]

/-- A script that is not due makes no push. -/
theorem exec_checkScript_silent
    (h : ¬ reports rep (s.tracker script) (sighting now running script) = true) :
    exec (checkScript loki rep now running script) s
      = (.ok (), { s with tracker := entryAfter rep now running s.tracker script }) := by
  unfold checkScript entryAfter look
  by_cases hup : running script = true
  · rw [if_pos hup, if_pos (c := (sighting now running script).up = true) hup]
    rfl
  · have hlt : now - (s.tracker script).getD 0 < rep := by simpa [reports, sighting, hup] using h
    rw [if_neg hup, if_neg (c := (sighting now running script).up = true) hup, if_neg h,
      Function.update_eq_self, exec_get_bind, if_pos hlt]
    rfl

/-- The entry of a script that is due is set before the push. -/
theorem exec_checkScript_due
    (h : reports rep (s.tracker script) (sighting now running script) = true) :
    exec (checkScript loki rep now running script) s
      = exec (pushToLoki loki >>= fun _ => writeAlert (serviceDown script))
          { s with tracker := entryAfter rep now running s.tracker script } := by
  unfold checkScript entryAfter look
  have hup : ¬ running script = true := by
    rintro hup
    simp [reports, sighting, hup] at h
  have hlt : ¬ now - (s.tracker script).getD 0 < rep := by
    simpa [reports, sighting, hup] using h
  rw [if_neg hup, if_neg (c := (sighting now running script).up = true) hup, if_pos h,
    exec_get_bind, if_neg hlt, exec_bind_of_ok (exec_modify _ _)]
  rfl

/-- A script that is due and whose push is not answered badly gets its alert. -/
theorem exec_checkScript_alert
    (h : reports rep (s.tracker script) (sighting now running script) = true)
    (hreply : loki s.pushes ≠ .malformed) :
    exec (checkScript loki rep now running script) s
      = (.ok (), ⟨entryAfter rep now running s.tracker script, s.alerts ++ [serviceDown script],
          s.pushes + 1⟩) := by
  obtain ⟨b, hpush⟩ := exec_pushToLoki hreply
  rw [exec_checkScript_due h, exec_bind_of_ok hpush]
  rfl

/-- A malformed reply costs the script its alert. -/
theorem exec_checkScript_malformed
    (h : reports rep (s.tracker script) (sighting now running script) = true)
    (hreply : loki s.pushes = .malformed) :
    exec (checkScript loki rep now running script) s
      = (.error .httpException,
        ⟨entryAfter rep now running s.tracker script, s.alerts, s.pushes + 1⟩) := by
  rw [exec_checkScript_due h]
  exact exec_bind_of_error (exec_pushToLoki_malformed hreply) _

/-- Without a malformed reply the watchdog does what its model without sinks says. -/
theorem exec_check_foldl (hnodup : scripts.Nodup) (calls : List SinkCall)
    (h : ∀ i < (due rep now running s.tracker scripts).length,
      loki (s.pushes + i) ≠ .malformed) :
    exec (check loki rep scripts now running) s
      = (.ok (),
        { tracker := (scripts.foldl (Watchdog.checkScript rep now running) (s.tracker, calls)).1
          alerts := s.alerts ++ (due rep now running s.tracker scripts).map serviceDown
          pushes := s.pushes + (due rep now running s.tracker scripts).length }) := by
  induction scripts generalizing s calls with
  | nil => simp [check, due, List.forM_nil]
  | cons script scripts ih =>
    obtain ⟨hnot, hnodup⟩ := List.nodup_cons.mp hnodup
    have hothers : due rep now running (entryAfter rep now running s.tracker script) scripts
        = due rep now running s.tracker scripts := due_entryAfter hnot
    rw [List.foldl_cons, checkScript_eq]
    unfold check at ih ⊢
    rw [exec_forM_cons]
    by_cases hdue : reports rep (s.tracker script) (sighting now running script) = true
    · -- the first push is the one of this script
      rw [due_cons_of_reports hdue, List.length_cons] at h
      have hfirst : loki s.pushes ≠ .malformed := h 0 (Nat.succ_pos _)
      rw [exec_bind_of_ok (exec_checkScript_alert hdue hfirst), ih hnodup]
      · dsimp only
        rw [hothers, due_cons_of_reports hdue, List.map_cons, List.length_cons, List.append_assoc,
          Nat.add_assoc, Nat.add_comm 1]
        rfl
      · dsimp only
        rw [hothers]
        intro i hi
        rw [Nat.add_assoc, Nat.add_comm 1]
        exact h (i + 1) (Nat.succ_lt_succ hi)
    · rw [due_cons_of_not_reports hdue] at h ⊢
      rw [exec_bind_of_ok (exec_checkScript_silent hdue), ih hnodup]
      · dsimp only
        rw [hothers]
        rfl
      · dsimp only
        rw [hothers]
        exact h

theorem exec_check (hnodup : scripts.Nodup)
    (h : ∀ i < (due rep now running s.tracker scripts).length,
      loki (s.pushes + i) ≠ .malformed) :
    exec (check loki rep scripts now running) s
      = (.ok (),
        { tracker := (Watchdog.check rep scripts now running s.tracker).1
          alerts := s.alerts ++ alertsOf (Watchdog.check rep scripts now running s.tracker).2
          pushes := s.pushes + (due rep now running s.tracker scripts).length }) := by
  rw [alertsOf_check hnodup]
  exact exec_check_foldl hnodup [] h

/-- The scripts behind a malformed reply are not checked, and one that is due loses its alert. -/
theorem length_alerts_check_lt (hnodup : scripts.Nodup)
    (h : ∃ i < (due rep now running s.tracker scripts).length,
      loki (s.pushes + i) = .malformed) :
    (exec (check loki rep scripts now running) s).2.alerts.length
      < s.alerts.length + (due rep now running s.tracker scripts).length := by
  induction scripts generalizing s with
  | nil =>
    obtain ⟨i, hi, -⟩ := h
    exact absurd hi (Nat.not_lt_zero i)
  | cons script scripts ih =>
    obtain ⟨hnot, hnodup⟩ := List.nodup_cons.mp hnodup
    have hothers : due rep now running (entryAfter rep now running s.tracker script) scripts
        = due rep now running s.tracker scripts := due_entryAfter hnot
    unfold check at ih ⊢
    rw [exec_forM_cons]
    by_cases hdue : reports rep (s.tracker script) (sighting now running script) = true
    · rw [due_cons_of_reports hdue, List.length_cons] at h ⊢
      by_cases hfirst : loki s.pushes = .malformed
      · -- the exception ends the loop
        rw [exec_bind_of_error (exec_checkScript_malformed hdue hfirst)]
        exact Nat.lt_add_of_pos_right (Nat.succ_pos _)
      -- the malformed reply is for a later script
      obtain ⟨i, hi, hreply⟩ := h
      obtain ⟨i, rfl⟩ : ∃ j, i = j + 1 := by
        refine Nat.exists_eq_succ_of_ne_zero ?_
        rintro rfl
        exact hfirst hreply
      rw [exec_bind_of_ok (exec_checkScript_alert hdue hfirst)]
      have hlt := @ih ⟨entryAfter rep now running s.tracker script,
        s.alerts ++ [serviceDown script], s.pushes + 1⟩ hnodup
      rw [hothers, List.length_append, List.length_singleton] at hlt
      have hreply' : loki (s.pushes + 1 + i) = .malformed := by
        rw [Nat.add_assoc, Nat.add_comm 1]
        exact hreply
      have := hlt ⟨i, Nat.lt_of_succ_lt_succ hi, hreply'⟩
      omega
    · rw [due_cons_of_not_reports hdue] at h ⊢
      rw [exec_bind_of_ok (exec_checkScript_silent hdue), ← hothers]
      refine ih hnodup ?_
      dsimp only
      rw [hothers]
      exact h

/-- A check keeps its evidence unless the push of a script that is due is answered badly. -/
theorem check_kept_iff (hnodup : scripts.Nodup) :
    EvidenceKept (check · rep scripts now running) loki s
        (alertsOf (Watchdog.check rep scripts now running s.tracker).2) ↔
      ∀ i < (due rep now running s.tracker scripts).length,
        loki (s.pushes + i) ≠ .malformed := by
  constructor
  · intro hkept
    by_contra hreply
    push Not at hreply
    refine not_evidenceKept ?_ hkept
    rw [alertsOf_check hnodup, List.length_map]
    exact length_alerts_check_lt hnodup hreply
  · intro hreply
    exact evidenceKept_of_eq (exec_check hnodup hreply)
      (exec_check hnodup fun _ _ => accepted_ne_malformed) rfl

end Watchdog

/-! ## The five producers -/

/--
**The evidence of a detection is kept exactly when its push is not answered badly.**

For every packet or check that raises a detection and all replies of the endpoint, the alerts are
appended and the module state ends as after accepted pushes exactly when no push made for them
meets a malformed reply. A check of the watchdog pushes once for every script that is due.
-/
theorem evidence_kept_iff {K : Type} [Field K] [LinearOrder K] {T : Type}
    [AddCommGroup T] [LinearOrder T] (loki : Nat → LokiReply) :
    (∀ (masters : List Nat) (packet : Packet) (s : Sinks Unit Dict),
      Detects (Dnp3Dpi.processPacket masters) packet →
      (EvidenceKept (processPacket · (Dnp3Dpi.processPacket masters) packet) loki s
          (alertsWritten (Dnp3Dpi.processPacket masters packet)) ↔
        loki s.pushes ≠ .malformed)) ∧
    (∀ (packet : Packet) (s : Sinks Unit Dict), Detects S7commDpi.processPacket packet →
      (EvidenceKept (processPacket · S7commDpi.processPacket packet) loki s
          (alertsWritten (S7commDpi.processPacket packet)) ↔
        loki s.pushes ≠ .malformed)) ∧
    (∀ (packet : Packet) (s : Sinks Unit Dict), Detects OpcUaDpi.processPacket packet →
      (EvidenceKept (processPacket · OpcUaDpi.processPacket packet) loki s
          (alertsWritten (OpcUaDpi.processPacket packet)) ↔
        loki s.pushes ≠ .malformed)) ∧
    (∀ (cfg : Beacon.Config K) (sqrt : K → K) (round : K → Nat → K) (key : Beacon.Key) (now : K)
      (s : Sinks (Beacon.BeaconTimes K) (Beacon.Alert K)),
      (Beacon.checkBeacon cfg sqrt round key now s.tracker).2 ≠ none →
      (EvidenceKept (checkBeacon · cfg sqrt round key now) loki s
          (Beacon.checkBeacon cfg sqrt round key now s.tracker).2.toList ↔
        loki s.pushes ≠ .malformed)) ∧
    ∀ (rep : T) (scripts : List String) (now : T) (running : String → Bool)
      (s : Sinks (Watchdog.LastAlerted T) Dict), scripts.Nodup →
      (EvidenceKept (check · rep scripts now running) loki s
          (alertsOf (Watchdog.check rep scripts now running s.tracker).2) ↔
        ∀ i < (due rep now running s.tracker scripts).length,
          loki (s.pushes + i) ≠ .malformed) :=
  ⟨fun _ _ _ h => processPacket_kept_iff h, fun _ _ h => processPacket_kept_iff h,
    fun _ _ h => processPacket_kept_iff h, fun _ _ _ _ _ _ h => checkBeacon_kept_iff h,
    fun _ _ _ _ _ h => check_kept_iff h⟩

/-- A payload on its way from the enterprise zone to a controller. -/
def toController (port : UInt16) (payload : Bytes) : Packet :=
  .segment ⟨172, 24, 0, 10⟩ ⟨172, 21, 0, 10⟩ ⟨50000, port, 0x18⟩ payload

/-- A Direct Operate whose link source is no master. -/
def directOperate : Packet :=
  toController Dnp3Dpi.port
    [0x05, 0x64, 0x08, 0xC4, 0x0A, 0x00, 0x01, 0x00, 0x4E, 0x5F, 0xC0, 0xC0, 0x05, 0x1B, 0xCC]

/-- A PLC stop. -/
def plcStop : Packet :=
  toController S7commDpi.port
    [ 0x03, 0, 0, 0x1B, 0x02, 0xF0, 0x80, 0x32, 0x01, 0, 0, 0, 0, 0, 0x10, 0, 0, 0x29, 0, 0, 0, 0,
      0, 0x09, 0x50, 0x5F, 0x50 ]

/-- A WriteRequest on channel 7. -/
def writeRequest : Packet :=
  toController OpcUaDpi.port
    [ 0x4D, 0x53, 0x47, 0x46, 0x1C, 0, 0, 0, 7, 0, 0, 0, 1, 0, 0, 0, 1, 0, 0, 0, 1, 0, 0, 0,
      0x01, 0x00, 0xA1, 0x02 ]

/-- The Modbus detector is not running, the responder is. -/
def modbusDown (script : String) : Bool := script == "responder.py"

/-- An endpoint that cannot be reached costs no evidence. -/
theorem evidence_kept_iff_unreachable :
    EvidenceKept (processPacket · (Dnp3Dpi.processPacket [3]) directOperate) (fun _ => .osError)
        ⟨(), [], 0⟩ (alertsWritten (Dnp3Dpi.processPacket [3] directOperate)) ∧
      EvidenceKept (processPacket · S7commDpi.processPacket plcStop) (fun _ => .osError)
        ⟨(), [], 0⟩ (alertsWritten (S7commDpi.processPacket plcStop)) ∧
      EvidenceKept (processPacket · OpcUaDpi.processPacket writeRequest) (fun _ => .osError)
        ⟨(), [], 0⟩ (alertsWritten (OpcUaDpi.processPacket writeRequest)) ∧
      EvidenceKept
        (checkBeacon · (Beacon.defaultConfig (K := ℚ)) (fun v => v) (fun x _ => x) Beacon.beacon 40)
        (fun _ => .osError) ⟨fun _ => [0, 10, 20, 30], [], 0⟩
        (Beacon.checkBeacon Beacon.defaultConfig (fun v => v) (fun x _ => x) Beacon.beacon 40
          fun _ => [0, 10, 20, 30]).2.toList ∧
      EvidenceKept (check · (300 : ℤ) ["modbus_anomaly.py", "responder.py"] 1000 modbusDown)
        (fun _ => .osError) ⟨fun _ => none, [], 0⟩
        (alertsOf (Watchdog.check (300 : ℤ) ["modbus_anomaly.py", "responder.py"] 1000 modbusDown
          fun _ => none).2) := by
  have hreply : LokiReply.osError ≠ .malformed := LokiReply.noConfusion
  obtain ⟨hdnp3, hs7, hopcua, hbeacon, hwatchdog⟩ :=
    @evidence_kept_iff ℚ _ _ ℤ _ _ fun _ => .osError
  exact ⟨(hdnp3 [3] directOperate _ (by decide)).mpr hreply,
    (hs7 plcStop _ (by decide)).mpr hreply,
    (hopcua writeRequest _ (by decide)).mpr hreply,
    (hbeacon _ _ _ Beacon.beacon 40 _ (by decide +kernel)).mpr hreply,
    (hwatchdog 300 _ 1000 modbusDown _ (by decide)).mpr fun _ _ => hreply⟩

/-- A malformed reply costs the alert of a Direct Operate and the alert of a detector that is down,
whose entry is set all the same. -/
theorem malformed_reply_loses_evidence :
    ¬ EvidenceKept (processPacket · (Dnp3Dpi.processPacket [3]) directOperate)
        (fun _ => .malformed) ⟨(), [], 0⟩
        (alertsWritten (Dnp3Dpi.processPacket [3] directOperate)) ∧
      (exec (check (fun _ => .malformed) (300 : ℤ) ["modbus_anomaly.py"] 1000 modbusDown)
        ⟨fun _ => none, [], 0⟩).2.alerts = [] ∧
      (exec (check (fun _ => .malformed) (300 : ℤ) ["modbus_anomaly.py"] 1000 modbusDown)
        ⟨fun _ => none, [], 0⟩).2.tracker "modbus_anomaly.py" = some 1000 := by
  refine ⟨?_, rfl, rfl⟩
  rintro ⟨halerts, -⟩
  revert halerts
  decide

end OtLab.SinkOutage
