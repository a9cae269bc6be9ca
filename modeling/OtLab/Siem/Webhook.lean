import Mathlib.Data.List.Forall2
import OtLab.Lib.Run
import OtLab.Py.Utf8
import OtLab.Py.Value

/-!
# The webhook receiver

`webhook_receiver.py` takes the notifications of the Alertmanager and appends one entry for each
alert to `siem_alerts.json`. The entries are written while the alerts are read, and an exception
other than a `JSONDecodeError` leaves the request without an answer; what was written stays.

* `allOrNothing_iff` — exactly which bodies are recorded whole or refused
* `exactlyOnce_run` — deliveries of such bodies are recorded once, however they are repeated
* `delivers_iff` — both
-/

namespace OtLab.Webhook

open Lib

/-! ## The receiver -/

/-- A line of `siem_alerts.json`. -/
abbrev Entry := List (String × Json)

/-- What `for alert in value` runs through: the keys of an object, the characters of a text. -/
def elements : Json → Option (List Json)
  | .arr l => some l
  | .obj d => some (d.map fun member => .str member.1)
  | .str s => some (s.toList.map fun c => .str (String.ofList [c]))
  | _ => none

/-- The entry of an alert. -/
def entry (receivedAt : String) : Json → Py Entry
  | .obj alert =>
    match (alert.lookup "labels").getD (.obj []) with
    | .obj labels => .ok
      [ ("received_at", .str receivedAt),
        ("status", Json.get alert "status"),
        ("alertname", Json.get labels "alertname"),
        ("severity", Json.get labels "severity"),
        ("mitre_id", Json.get labels "mitre"),
        ("annotations", (alert.lookup "annotations").getD (.obj [])) ]
    | _ => .error .attributeError
  | _ => .error .attributeError

/-- The loop of `persist`: what it raises, and the log. The clock is read for every entry. -/
def writeEntries (now : Nat → String) : List Json → List Entry → Option PyError × List Entry
  | [], log => (none, log)
  | alert :: alerts, log =>
    match entry (now log.length) alert with
    | .error e => (some e, log)
    | .ok line => writeEntries now alerts (log ++ [line])

/-- `persist`. -/
def persist (now : Nat → String) (payload : Json) (log : List Entry) :
    Option PyError × List Entry :=
  match payload with
  | .obj payload =>
    match elements ((payload.lookup "alerts").getD (.arr [])) with
    | none => (some .typeError, log)
    | some alerts => writeEntries now alerts log
  | _ => (some .attributeError, log)

/-- The `body` of a request with some content; without any it is an empty object. -/
def bodyOf (content : Bytes) : Bytes := if content.length = 0 then [0x7B, 0x7D] else content

/--
`do_POST`: the status it answers or what it raises, and the log. The `Content-Length` is taken to
be the length of the body.
-/
def doPost (loads : Loads) (now : Nat → String) (content : Bytes) (log : List Entry) :
    Py Nat × List Entry :=
  match (bodyOf content).decodeUtf8Strict with
  | none => (.error .valueError, log)
  | some text =>
    match loads text with
    | .error e => (.error e, log)
    | .ok none => (.ok 400, log)
    | .ok (some payload) =>
      -- what `persist` ran through has a length to print
      match persist now payload log with
      | (some e, log) => (.error e, log)
      | (none, log) => (.ok 200, log)

/-! ## All or nothing -/

/-- The decoded body; `none` when it is no UTF-8. -/
def decodedBody (loads : Loads) (content : Bytes) : Option (Py (Option Json)) :=
  (bodyOf content).decodeUtf8Strict.map loads

/-- The alerts of the payload, as far as it has any. -/
def alertsOf (loads : Loads) (content : Bytes) : Option (List Json) :=
  match decodedBody loads content with
  | some (.ok (some (.obj payload))) => elements ((payload.lookup "alerts").getD (.arr []))
  | _ => none

/-- The entries are those of the alerts, in order. -/
def Records (alerts : List Json) (entries : List Entry) : Prop :=
  List.Forall₂ (fun alert line => ∃ receivedAt, entry receivedAt alert = .ok line) alerts entries

/-- A 200 with an entry for each alert, or an error status and an unchanged log. -/
def AllOrNothing (loads : Loads) (now : Nat → String) (content : Bytes) (log : List Entry) :
    Prop :=
  ((doPost loads now content log).1 = .ok 200 ∧ ∃ alerts entries,
    alertsOf loads content = some alerts ∧ Records alerts entries ∧
      (doPost loads now content log).2 = log ++ entries) ∨
  ∃ status, (doPost loads now content log).1 = .ok status ∧ 400 ≤ status ∧
    (doPost loads now content log).2 = log

/-- The alert is an object, and so are its labels if it has any. -/
def IsAlert (j : Json) : Prop :=
  ∃ alert labels, j = .obj alert ∧ (alert.lookup "labels").getD (.obj []) = .obj labels

/-- The body is text but no JSON, or an object whose `alerts` can be run through and are alerts. -/
def IsWellFormed (loads : Loads) (content : Bytes) : Prop :=
  decodedBody loads content = some (.ok none) ∨
    ∃ alerts, alertsOf loads content = some alerts ∧ ∀ alert ∈ alerts, IsAlert alert

/-! ## Deliveries that are repeated -/

/-- The log, and the deliveries that were answered 200, in that order. -/
structure Receiver where
  log : List Entry
  answered : List Nat

/-- The sender posts a delivery, at some readings of the receiver's clock. -/
structure Attempt where
  delivery : Nat
  now : Nat → String

/-- A delivery is posted until it is answered 200. -/
def attempt (loads : Loads) (deliveries : Nat → Bytes) (s : Receiver) (a : Attempt) : Receiver :=
  if a.delivery ∈ s.answered then s
  else
    match doPost loads a.now (deliveries a.delivery) s.log with
    | (.ok 200, log) => ⟨log, s.answered ++ [a.delivery]⟩
    | (_, log) => ⟨log, s.answered⟩

/-- Behind `log` are the entries of the answered deliveries, each of them once. -/
def ExactlyOnce (loads : Loads) (deliveries : Nat → Bytes) (log : List Entry) (s : Receiver) :
    Prop :=
  s.answered.Nodup ∧ (∀ i ∈ s.answered, (alertsOf loads (deliveries i)).isSome = true) ∧
    ∃ entries, s.log = log ++ entries ∧
      Records (s.answered.flatMap fun i => (alertsOf loads (deliveries i)).getD []) entries

/-- The delivery was answered, or its body is well formed. -/
def Orderly (loads : Loads) (deliveries : Nat → Bytes) (s : Receiver) (a : Attempt) : Prop :=
  a.delivery ∈ s.answered ∨ IsWellFormed loads (deliveries a.delivery)

section Proofs

variable {loads : Loads} {now : Nat → String} {content : Bytes} {log : List Entry}
  {alerts : List Json}

/-! ## What is written -/

theorem isAlert_iff {j : Json} (receivedAt : String) :
    IsAlert j ↔ ∃ line, entry receivedAt j = .ok line := by
  unfold entry
  constructor
  · rintro ⟨alert, labels, rfl, hlabels⟩
    dsimp only
    rw [hlabels]
    exact ⟨_, rfl⟩
  · rintro ⟨line, h⟩
    split at h
    · next alert =>
      split at h
      · next labels hlabels => exact ⟨alert, labels, rfl, hlabels⟩
      · cases h
    · cases h

/-- The entries are written up to the first alert that is none. -/
theorem writeEntries_spec (now : Nat → String) (alerts : List Json) (log : List Entry) :
    ∃ entries, (writeEntries now alerts log).2 = log ++ entries ∧
      ((writeEntries now alerts log).1 = none ↔ ∀ alert ∈ alerts, IsAlert alert) ∧
      ((writeEntries now alerts log).1 = none → Records alerts entries) := by
  induction alerts generalizing log with
  | nil => exact ⟨[], (List.append_nil log).symm, by simp [writeEntries], fun _ => .nil⟩
  | cons alert alerts ih =>
    unfold writeEntries
    rw [List.forall_mem_cons, isAlert_iff (now log.length)]
    cases hentry : entry (now log.length) alert with
    | error e => exact ⟨[], (List.append_nil log).symm, by simp, nofun⟩
    | ok line =>
      obtain ⟨entries, hlog, hnone, hrecords⟩ := ih (log ++ [line])
      refine ⟨line :: entries, ?_, ?_, fun h => .cons ⟨_, hentry⟩ (hrecords h)⟩
      · rw [hlog, List.append_assoc, List.singleton_append]
      · rw [and_iff_right ⟨line, rfl⟩]
        exact hnone

/-- A body is refused, before or by the JSON decoder, or its alerts are written. -/
theorem doPost_cases (loads : Loads) (now : Nat → String) (content : Bytes) (log : List Entry) :
    ((∃ e, doPost loads now content log = (.error e, log)) ∧ ¬ IsWellFormed loads content) ∨
    (doPost loads now content log = (.ok 400, log) ∧ IsWellFormed loads content) ∨
    ∃ alerts, alertsOf loads content = some alerts ∧
      (IsWellFormed loads content ↔ ∀ alert ∈ alerts, IsAlert alert) ∧
      (doPost loads now content log).2 = (writeEntries now alerts log).2 ∧
      (match (writeEntries now alerts log).1 with
        | some e => (doPost loads now content log).1 = .error e
        | none => (doPost loads now content log).1 = .ok 200) := by
  unfold IsWellFormed alertsOf decodedBody doPost
  cases (bodyOf content).decodeUtf8Strict with
  | none => exact Or.inl ⟨⟨_, rfl⟩, by simp⟩
  | some text =>
    dsimp only [Option.map_some]
    cases loads text with
    | error e => exact Or.inl ⟨⟨_, rfl⟩, by simp⟩
    | ok decoded =>
      cases decoded with
      | none => exact Or.inr (Or.inl ⟨rfl, Or.inl rfl⟩)
      | some payload =>
        cases payload with
        | obj payload =>
          dsimp only [persist]
          cases elements ((payload.lookup "alerts").getD (.arr [])) with
          | none => exact Or.inl ⟨⟨_, rfl⟩, by simp⟩
          | some alerts =>
            refine Or.inr (Or.inr ⟨alerts, rfl, by simp, ?_⟩)
            dsimp only
            rcases writeEntries now alerts log with ⟨raised, log'⟩
            cases raised with
            | none => exact ⟨rfl, rfl⟩
            | some e => exact ⟨rfl, rfl⟩
        | _ => exact Or.inl ⟨⟨_, rfl⟩, by simp⟩

/-- A request without an answer is neither recorded nor refused. -/
theorem not_allOrNothing_of_raised {e : PyError}
    (h : (doPost loads now content log).1 = .error e) :
    ¬ AllOrNothing loads now content log := by
  unfold AllOrNothing
  rw [h]
  rintro (⟨h, -⟩ | ⟨status, h, -⟩)
  · cases h
  · cases h

/-- **Which bodies are recorded whole or refused.** -/
theorem allOrNothing_iff :
    AllOrNothing loads now content log ↔ IsWellFormed loads content := by
  rcases doPost_cases loads now content log with
    ⟨⟨e, hpost⟩, hill⟩ | ⟨hpost, hwell⟩ | ⟨alerts, halerts, hwell, hlog, hstatus⟩
  · exact iff_of_false (not_allOrNothing_of_raised (congrArg Prod.fst hpost)) hill
  · unfold AllOrNothing
    rw [hpost]
    exact iff_of_true (Or.inr ⟨400, rfl, le_rfl, rfl⟩) hwell
  · obtain ⟨entries, hwritten, hnone, hrecords⟩ := writeEntries_spec now alerts log
    rw [hwell, ← hnone]
    cases hraised : (writeEntries now alerts log).1 with
    | none =>
      rw [hraised] at hstatus
      exact iff_of_true (Or.inl ⟨hstatus, alerts, entries, halerts, hrecords hraised,
        hlog.trans hwritten⟩) rfl
    | some e =>
      rw [hraised] at hstatus
      exact iff_of_false (not_allOrNothing_of_raised hstatus) (Option.some_ne_none e)

/-! ## Runs -/

variable {deliveries : Nat → Bytes}

theorem records_append {alerts' : List Json} {entries entries' : List Entry}
    (h : Records alerts entries) (h' : Records alerts' entries') :
    Records (alerts ++ alerts') (entries ++ entries') := List.rel_append h h'

/-- An attempt on a well-formed delivery records it, or changes nothing. -/
theorem exactlyOnce_attempt {s : Receiver} {a : Attempt}
    (hs : ExactlyOnce loads deliveries log s) (h : Orderly loads deliveries s a) :
    ExactlyOnce loads deliveries log (attempt loads deliveries s a) := by
  unfold attempt
  by_cases hanswered : a.delivery ∈ s.answered
  · rw [if_pos hanswered]
    exact hs
  rw [if_neg hanswered]
  obtain ⟨hnodup, hsome, entries, hlog, hrecords⟩ := hs
  have hwell : AllOrNothing loads a.now (deliveries a.delivery) s.log :=
    allOrNothing_iff.mpr (h.resolve_left hanswered)
  unfold AllOrNothing at hwell
  rcases hpost : doPost loads a.now (deliveries a.delivery) s.log with ⟨answer, log'⟩
  rw [hpost] at hwell
  rcases hwell with
    ⟨h200, alerts, entries', halerts, hrecords', hlog'⟩ | ⟨status, hstatus, hle, hlog'⟩
  · obtain rfl : answer = .ok 200 := h200
    refine ⟨?_, ?_, entries ++ entries', ?_, ?_⟩
    · refine List.nodup_append.mpr ⟨hnodup, List.pairwise_singleton _ _, fun i hi j hj heq => ?_⟩
      rw [← List.mem_singleton.mp hj, ← heq] at hanswered
      exact hanswered hi
    · intro i hi
      rcases List.mem_append.mp hi with hi | hi
      · exact hsome i hi
      · rw [List.mem_singleton.mp hi, halerts]
        rfl
    · show log' = _
      rw [← List.append_assoc, ← hlog]
      exact hlog'
    · show Records ((s.answered ++ [a.delivery]).flatMap _) _
      rw [List.flatMap_append, List.flatMap_singleton, halerts]
      exact records_append hrecords hrecords'
  · obtain rfl : answer = .ok status := hstatus
    have hne : status ≠ 200 := by omega
    obtain rfl : log' = s.log := hlog'
    split
    · next heq => exact absurd (Except.ok.inj (Prod.mk.inj heq).1) hne
    · next heq =>
      obtain ⟨-, rfl⟩ := Prod.mk.inj heq
      exact ⟨hnodup, hsome, entries, hlog, hrecords⟩

/-- **Deliveries of well-formed bodies are recorded exactly once.** -/
theorem exactlyOnce_run {trace : List Attempt}
    (h : StepsMeet (attempt loads deliveries) (Orderly loads deliveries) ⟨log, []⟩ trace) :
    ExactlyOnce loads deliveries log (run (attempt loads deliveries) ⟨log, []⟩ trace) := by
  refine run_invariant (ExactlyOnce loads deliveries log)
    (fun s a hs ha => exactlyOnce_attempt hs ha) ?_ h
  exact ⟨List.nodup_nil, nofun, [], (List.append_nil log).symm, .nil⟩

/--
**The receiver records all or nothing of exactly the well-formed bodies.**

When the sender repeats each of its deliveries until it is answered 200, in any order among the
deliveries, every delivery that was answered is recorded once.
-/
theorem delivers_iff (loads : Loads) :
    (∀ now content log, AllOrNothing loads now content log ↔ IsWellFormed loads content) ∧
    ∀ deliveries log trace,
      StepsMeet (attempt loads deliveries) (Orderly loads deliveries) ⟨log, []⟩ trace →
        ExactlyOnce loads deliveries log (run (attempt loads deliveries) ⟨log, []⟩ trace) :=
  ⟨fun _ _ _ => allOrNothing_iff, fun _ _ _ => exactlyOnce_run⟩

end Proofs

/-- A notification of one alert, and one with a `null` behind the alert. -/
def alertText : String := "\x7b\"alerts\":[\x7b\x7d]\x7d"

def nullText : String := "\x7b\"alerts\":[\x7b\x7d,null]\x7d"

/-- `json.loads` on these. -/
def loadsTexts (text : String) : Py (Option Json) :=
  .ok ([(alertText, .obj [("alerts", .arr [.obj []])]),
    (nullText, .obj [("alerts", .arr [.obj [], .null])])].lookup text)

theorem decodedBody_encodeUtf8 (loads : Loads) {text : String}
    (h : (Bytes.encodeUtf8 text).length ≠ 0) :
    decodedBody loads (Bytes.encodeUtf8 text) = some (loads text) := by
  unfold decodedBody bodyOf
  rw [if_neg h, Bytes.decodeUtf8Strict_eq_some_iff.mpr rfl, Option.map_some]

/-- The second attempt of a delivery that was answered records nothing more. -/
theorem delivers_iff_twice :
    let deliveries := fun _ => Bytes.encodeUtf8 alertText
    ExactlyOnce loadsTexts deliveries [] (run (attempt loadsTexts deliveries) ⟨[], []⟩
      [⟨0, fun _ => "2026-08-01T10:00:00"⟩, ⟨0, fun _ => "2026-08-01T10:00:30"⟩]) := by
  intro deliveries
  have hwell : IsWellFormed loadsTexts (Bytes.encodeUtf8 alertText) := by
    refine Or.inr ⟨[.obj []], ?_, ?_⟩
    · unfold alertsOf
      rw [decodedBody_encodeUtf8 loadsTexts (by decide)]
      rfl
    · intro alert halert
      rw [List.mem_singleton.mp halert]
      exact ⟨[], [], rfl, rfl⟩
  exact (delivers_iff loadsTexts).2 deliveries [] _ ⟨Or.inr hwell, Or.inr hwell, trivial⟩

/-- The alert before the `null` stays in the log, and the request gets no answer. -/
theorem null_halfRecorded :
    ¬ ∀ loads now content log, AllOrNothing loads now content log := by
  intro h
  have hdecoded : (bodyOf (Bytes.encodeUtf8 nullText)).decodeUtf8Strict = some nullText := by
    unfold bodyOf
    rw [if_neg (by decide), Bytes.decodeUtf8Strict_eq_some_iff.mpr rfl]
  have hraised : (doPost loadsTexts (fun _ => "2026-08-01T10:00:00") (Bytes.encodeUtf8 nullText)
      []).1 = .error .attributeError := by
    unfold doPost
    rw [hdecoded]
    rfl
  exact not_allOrNothing_of_raised hraised (h _ _ _ _)

end OtLab.Webhook
