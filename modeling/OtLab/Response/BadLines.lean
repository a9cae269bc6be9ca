import OtLab.Response.LoginMonitor
import OtLab.Response.Responder

/-!
# Bad log lines

`process_line` of the responder with a `json.loads` and a `subprocess.run` that may raise anything.
A line can decode to any JSON value; only a `JSONDecodeError` and the `ValueError` of an address
are caught.

* `processLine_eq` — without such exceptions it is the `process_line` of `OtLab.Responder`
* `isQuietKey_iff` — what a positive window leaves of the keys that change nothing
* `responder_tolerates_iff` — exactly which lines the responder handles or skips as it should
* `skipsBadLines_iff` — the same of the responder and the login monitor
-/

namespace OtLab.BadLines

open Lib Responder

/-! ## The responder -/

section ProcessLine

variable {W : Type*} (loads : Loads) (subprocessRun : List String → W → Py CompletedProcess × W)

/-- `apply_drop` on any key: `subprocess.run` takes no integer as a word of a command. -/
def applyDrop (source : Key) (enforce : Bool) (w : W) : Py String × W :=
  if !enforce then (.ok "dry-run", w)
  else
    match source with
    | .int _ => (.error .typeError, w)
    | .str s =>
      match subprocessRun ["iptables", "-I", "FORWARD", "-s", s, "-j", "DROP"] w with
      | (.error e, w) => (.error e, w)
      | (.ok result, w) =>
        (.ok (if result.returncode = 0 then "blocked" else "error: " ++ strip result.stderr), w)

/-- The end of `process_line`, for a source that is neither blocked nor no address. -/
def offence (c : Config) (k : Key) (now : ℚ) (d : Daemon) (w : W) : Outcome W :=
  let (reached, state) := record d.state k now c.window c.threshold
  if reached then
    match applyDrop subprocessRun k c.enforce w with
    | (.ok status, w) => ⟨none, some k, some status, ⟨state, insert k d.blocked⟩, w⟩
    | (.error e, w) => ⟨some e, some k, none, ⟨state, d.blocked⟩, w⟩
  else ⟨none, none, none, ⟨state, d.blocked⟩, w⟩

/-- `process_line` at the clock reading `now`. -/
def processLine (c : Config) (line : String) (now : ℚ) (d : Daemon) (w : W) : Outcome W :=
  match loads line with
  | .error e => ⟨some e, none, none, d, w⟩
  | .ok decoded =>
    match reading (fun _ => decoded) line with
    | .raises e => ⟨some e, none, none, d, w⟩
    | .ignored => ⟨none, none, none, d, w⟩
    | .source k =>
      if k ∈ d.blocked then ⟨none, none, none, d, w⟩
      else if !Key.isAddress k then ⟨none, none, none, d, w⟩
      else offence subprocessRun c k now d w

end ProcessLine

/-! ## Lines that are skipped -/

section Tolerance

variable {W : Type*} (loads : Loads) (subprocessRun : List String → W → Py CompletedProcess × W)
  (c : Config) (line : String) (now : ℚ) (d : Daemon) (w : W)

/-- The line is a watched alert whose `source_ip` is a text and an address. -/
def IsWatchedAlert : Prop :=
  ∃ alert t s, loads line = .ok (some (.obj alert)) ∧ Json.get alert "alert_type" = .str t ∧
    t ∈ watchTypes ∧ Json.get alert "source_ip" = .str s ∧ (ipAddress s).isSome = true

/-- Nothing is raised, and a line that is no watched alert of a textual address changes nothing. -/
def Tolerates : Prop :=
  (processLine loads subprocessRun c line now d w).raised = none ∧
    (¬ IsWatchedAlert loads line → (processLine loads subprocessRun c line now d w).daemon = d)

/-- Recording the key would change nothing. -/
def IsQuietKey (k : Key) : Prop :=
  k ∈ d.blocked ∨ ¬ Key.isAddress k ∨ Settled c.window now c.threshold (d.state k)

/-- A `subprocess.run` that the text is due for does not raise. -/
def IsQuietText (s : String) : Prop :=
  Key.str s ∈ d.blocked ∨ (ipAddress s).isSome = false ∨
    (record d.state (.str s) now c.window c.threshold).1 = false ∨ c.enforce = false ∨
    ∀ e, (subprocessRun ["iptables", "-I", "FORWARD", "-s", s, "-j", "DROP"] w).1 ≠ .error e

/-- The value has no effect as a source, or is a text. A list or an object must be empty. -/
def IsQuietSource : Json → Prop
  | .null | .float _ => True
  | .str s => IsQuietText subprocessRun c now d w s
  | .arr l => l = []
  | .obj o => o = []
  | .bool b => b = false ∨ IsQuietKey c now d (.int 1)
  | .int n => n = 0 ∨ IsQuietKey c now d (.int n)

/-- `alert_type` can be looked up in a set, and the `source_ip` of a watched one is quiet. -/
def IsPlainAlert (alert : List (String × Json)) : Prop :=
  match Json.get alert "alert_type" with
  | .arr _ | .obj _ => False
  | .str t => t ∈ watchTypes → IsQuietSource subprocessRun c now d w (Json.get alert "source_ip")
  | _ => True

/-- The line is no JSON at all, or a plain alert. -/
def IsPlainLine : Prop :=
  loads line = .ok none ∨
    ∃ alert, loads line = .ok (some (.obj alert)) ∧ IsPlainAlert subprocessRun c now d w alert

end Tolerance

section Proofs

variable {W : Type*} {loads : Loads} {subprocessRun : List String → W → Py CompletedProcess × W}
  {c : Config} {line : String} {now : ℚ} {d : Daemon} {w : W} {alert : List (String × Json)}

/-- When neither `json.loads` nor `subprocess.run` raises, this is the responder as it stood. -/
theorem processLine_eq {loads : String → Option Json}
    {subprocessRun : List String → W → CompletedProcess × W} :
    processLine (fun line => .ok (loads line))
        (fun command w => ((.ok (subprocessRun command w).1), (subprocessRun command w).2))
        c line now d w
      = Responder.processLine loads subprocessRun c line now d w := by
  unfold processLine Responder.processLine offence
  dsimp only
  have hreading : reading (fun _ => loads line) line = reading loads line := rfl
  rw [hreading]
  cases reading loads line with
  | raises e => rfl
  | ignored => rfl
  | source k =>
    have hdrop : applyDrop (fun command w => ((.ok (subprocessRun command w).1),
        (subprocessRun command w).2)) k c.enforce w = dropKey subprocessRun k c.enforce w := by
      unfold applyDrop dropKey OtLab.applyDrop
      cases k <;> cases c.enforce <;> rfl
    dsimp only
    exact hdrop ▸ rfl

/-- A settled key is recorded without a change, any other one with a change. -/
theorem record_eq_iff {k : Key} {window : ℚ} {threshold : Nat} {state : Key → List ℚ} :
    record state k now window threshold = (false, state) ↔
      Settled window now threshold (state k) := update_eq_iff_settled

/-- With a window that is not empty only a key that is not recorded at all is quiet. -/
theorem isQuietKey_iff {k : Key} (hw : 0 < c.window) :
    IsQuietKey c now d k ↔ k ∈ d.blocked ∨ ¬ Key.isAddress k := by
  unfold IsQuietKey
  rw [or_iff_left (not_settled hw c.threshold (d.state k))]

/-- A line that is skipped is tolerated. -/
theorem tolerates_of_skipped
    (h : processLine loads subprocessRun c line now d w = ⟨none, none, none, d, w⟩) :
    Tolerates loads subprocessRun c line now d w := by
  unfold Tolerates
  rw [h]
  exact ⟨rfl, fun _ => rfl⟩

theorem not_tolerates_of_raised {e : PyError}
    (h : (processLine loads subprocessRun c line now d w).raised = some e) :
    ¬ Tolerates loads subprocessRun c line now d w := by
  unfold Tolerates
  rw [h]
  exact fun hnone => nomatch hnone.1

/-- What `process_line` does about a source it looks at. -/
theorem processLine_of_reading {decoded : Option Json} {k : Key} (hload : loads line = .ok decoded)
    (hreading : reading (fun _ => decoded) line = .source k) :
    processLine loads subprocessRun c line now d w =
      if k ∈ d.blocked then ⟨none, none, none, d, w⟩
      else if !Key.isAddress k then ⟨none, none, none, d, w⟩
      else offence subprocessRun c k now d w := by
  unfold processLine
  rw [hload]
  dsimp only
  rw [hreading]

/-- A source is skipped when it is blocked or no address. What is left is the offence. -/
theorem tolerates_iff_of_source {decoded : Option Json} {k : Key} {Q : Prop}
    (hload : loads line = .ok decoded) (hreading : reading (fun _ => decoded) line = .source k)
    (h : k ∉ d.blocked → Key.isAddress k → processLine loads subprocessRun c line now d w
      = offence subprocessRun c k now d w →
      (Tolerates loads subprocessRun c line now d w ↔ Q)) :
    Tolerates loads subprocessRun c line now d w ↔ k ∈ d.blocked ∨ ¬ Key.isAddress k ∨ Q := by
  have hline : processLine loads subprocessRun c line now d w = _ :=
    processLine_of_reading hload hreading
  by_cases hblocked : k ∈ d.blocked
  · rw [if_pos hblocked] at hline
    exact iff_of_true (tolerates_of_skipped hline) (Or.inl hblocked)
  rw [if_neg hblocked] at hline
  rw [or_iff_right hblocked]
  cases haddress : Key.isAddress k with
  | false =>
    rw [haddress] at hline
    exact iff_of_true (tolerates_of_skipped hline) (Or.inl Bool.false_ne_true)
  | true =>
    rw [haddress] at hline
    rw [or_iff_right (by simp)]
    exact h hblocked haddress hline

/-- A number is tolerated when it is not recorded, since nothing may come of it. -/
theorem tolerates_iff_of_number {decoded : Option Json} {n : Int}
    (hload : loads line = .ok decoded)
    (hreading : reading (fun _ => decoded) line = .source (.int n))
    (hwatched : ¬ IsWatchedAlert loads line) :
    Tolerates loads subprocessRun c line now d w ↔ IsQuietKey c now d (.int n) := by
  refine tolerates_iff_of_source hload hreading ?_
  intro hblocked _ hline
  rw [← record_eq_iff]
  have hdaemon : (offence subprocessRun c (.int n) now d w).raised = none ∧
      (offence subprocessRun c (.int n) now d w).daemon = d ↔
        record d.state (.int n) now c.window c.threshold = (false, d.state) := by
    unfold offence applyDrop
    rcases d with ⟨memory, blocked⟩
    rcases record memory (.int n) now c.window c.threshold with ⟨reached, state⟩
    cases reached with
    | false => simp
    | true =>
      cases c.enforce with
      | false => simpa using fun _ => hblocked
      | true => simp
  unfold Tolerates
  rw [hline, ← hdaemon]
  exact and_congr_right fun _ => ⟨fun h => h hwatched, fun h _ => h⟩

/-- A text is recorded when it is an address, and `subprocess.run` is the only thing to raise. -/
theorem tolerates_iff_of_text {decoded : Option Json} {s : String}
    (hload : loads line = .ok decoded)
    (hreading : reading (fun _ => decoded) line = .source (.str s))
    (hwatched : (ipAddress s).isSome = true → IsWatchedAlert loads line) :
    Tolerates loads subprocessRun c line now d w ↔ IsQuietText subprocessRun c now d w s := by
  unfold IsQuietText
  rw [← Bool.not_eq_true]
  refine tolerates_iff_of_source hload hreading ?_
  intro _ haddress hline
  have hraised : Tolerates loads subprocessRun c line now d w ↔
      (offence subprocessRun c (.str s) now d w).raised = none := by
    unfold Tolerates
    rw [hline]
    exact and_iff_left fun h => absurd (hwatched haddress) h
  rw [hraised]
  unfold offence applyDrop
  rcases record d.state (.str s) now c.window c.threshold with ⟨reached, state⟩
  cases reached with
  | false => exact iff_of_true rfl (Or.inl rfl)
  | true =>
    cases c.enforce with
    | false => exact iff_of_true rfl (Or.inr (Or.inl rfl))
    | true =>
      simp only [Bool.not_true, Bool.false_eq_true, if_false, if_true]
      rcases subprocessRun ["iptables", "-I", "FORWARD", "-s", s, "-j", "DROP"] w with ⟨r, w'⟩
      cases r with
      | error e =>
        refine iff_of_false (Option.some_ne_none e) ?_
        rintro (h | h | h)
        · cases h
        · cases h
        · exact h e rfl
      | ok result => exact iff_of_true rfl (Or.inr (Or.inr nofun))

/-- What becomes of an alert before the memory is looked at. -/
theorem reading_alert (alert : List (String × Json)) (line : String) :
    reading (fun _ => some (.obj alert)) line =
      match Json.get alert "alert_type" with
      | .str t => if t ∈ watchTypes then sourceReading (Json.get alert "source_ip") else .ignored
      | .arr _ | .obj _ => .raises .typeError
      | _ => .ignored := rfl

theorem tolerates_of_ignored {decoded : Option Json} (hload : loads line = .ok decoded)
    (hreading : reading (fun _ => decoded) line = .ignored) :
    Tolerates loads subprocessRun c line now d w := by
  refine tolerates_of_skipped ?_
  unfold processLine
  rw [hload]
  dsimp only
  rw [hreading]

theorem not_tolerates_of_raises {decoded : Option Json} {e : PyError}
    (hload : loads line = .ok decoded) (hreading : reading (fun _ => decoded) line = .raises e) :
    ¬ Tolerates loads subprocessRun c line now d w := by
  refine not_tolerates_of_raised (e := e) ?_
  unfold processLine
  rw [hload]
  dsimp only
  rw [hreading]

/-- What is done about the `source_ip` of a watched alert. -/
theorem tolerates_iff_of_watched {t : String} (hload : loads line = .ok (some (.obj alert)))
    (htype : Json.get alert "alert_type" = .str t) (hwatch : t ∈ watchTypes) :
    Tolerates loads subprocessRun c line now d w ↔
      IsQuietSource subprocessRun c now d w (Json.get alert "source_ip") := by
  have hreading : reading (fun _ => some (.obj alert)) line
      = sourceReading (Json.get alert "source_ip") := by
    rw [reading_alert, htype]
    exact if_pos hwatch
  have hwatched : ∀ s, Json.get alert "source_ip" = .str s → (ipAddress s).isSome = true →
      IsWatchedAlert loads line := fun s hs hv => ⟨alert, t, s, hload, htype, hwatch, hs, hv⟩
  have hnumber : ∀ n, (∀ s, Json.get alert "source_ip" ≠ .str s) →
      sourceReading (Json.get alert "source_ip") = .source (.int n) →
      (Tolerates loads subprocessRun c line now d w ↔ IsQuietKey c now d (.int n)) := by
    intro n hstr h
    refine tolerates_iff_of_number hload (hreading.trans h) ?_
    rintro ⟨alert', t', s, hload', -, -, hs, -⟩
    rw [hload] at hload'
    obtain rfl := Json.obj.inj (Option.some.inj (Except.ok.inj hload'))
    exact hstr s hs
  generalize Json.get alert "source_ip" = source at hreading hwatched hnumber ⊢
  cases source with
  | null => exact iff_of_true (tolerates_of_ignored hload hreading) trivial
  | float x => exact iff_of_true (tolerates_of_ignored hload hreading) trivial
  | bool b =>
    cases b with
    | false => exact iff_of_true (tolerates_of_ignored hload hreading) (Or.inl rfl)
    | true => exact (hnumber 1 nofun rfl).trans (or_iff_right Bool.noConfusion).symm
  | int n =>
    by_cases hn : n = 0
    · have hzero : sourceReading (.int n) = .ignored := if_pos hn
      exact iff_of_true (tolerates_of_ignored hload (hreading.trans hzero)) (Or.inl hn)
    · exact (hnumber n nofun (if_neg hn)).trans (or_iff_right hn).symm
  | str s =>
    by_cases hs : s = ""
    · subst hs
      exact iff_of_true (tolerates_of_ignored hload hreading) (Or.inr (Or.inl (by decide)))
    · exact tolerates_iff_of_text hload (hreading.trans (if_neg hs)) (hwatched s rfl)
  | arr l =>
    cases l with
    | nil => exact iff_of_true (tolerates_of_ignored hload hreading) rfl
    | cons j l => exact iff_of_false (not_tolerates_of_raises hload hreading) nofun
  | obj o =>
    cases o with
    | nil => exact iff_of_true (tolerates_of_ignored hload hreading) rfl
    | cons j o => exact iff_of_false (not_tolerates_of_raises hload hreading) nofun

/-- Which alerts are tolerated. -/
theorem tolerates_iff_of_alert (hload : loads line = .ok (some (.obj alert))) :
    Tolerates loads subprocessRun c line now d w ↔ IsPlainAlert subprocessRun c now d w alert := by
  have hreading := reading_alert alert line
  unfold IsPlainAlert
  cases htype : Json.get alert "alert_type" with
  | str t =>
    by_cases hwatch : t ∈ watchTypes
    · rw [tolerates_iff_of_watched hload htype hwatch]
      exact ⟨fun h _ => h, fun h => h hwatch⟩
    · rw [htype] at hreading
      have hignored := hreading.trans (if_neg hwatch)
      exact iff_of_true (tolerates_of_ignored hload hignored) fun h => absurd h hwatch
  | arr l =>
    rw [htype] at hreading
    exact iff_of_false (not_tolerates_of_raises hload hreading) id
  | obj o =>
    rw [htype] at hreading
    exact iff_of_false (not_tolerates_of_raises hload hreading) id
  | _ =>
    rw [htype] at hreading
    exact iff_of_true (tolerates_of_ignored hload hreading) trivial

/-- **Which lines the responder tolerates.** -/
theorem responder_tolerates_iff :
    Tolerates loads subprocessRun c line now d w ↔
      IsPlainLine loads subprocessRun c line now d w := by
  unfold IsPlainLine
  cases hload : loads line with
  | error e =>
    refine iff_of_false (not_tolerates_of_raised (e := e) ?_) (by simp)
    unfold processLine
    rw [hload]
  | ok decoded =>
    cases decoded with
    | none => exact iff_of_true (tolerates_of_ignored hload rfl) (Or.inl rfl)
    | some j =>
      cases j with
      | obj alert =>
        rw [tolerates_iff_of_alert hload]
        constructor
        · exact fun h => Or.inr ⟨alert, rfl, h⟩
        · rintro (h | ⟨alert', heq, h⟩)
          · cases h
          · obtain rfl := Json.obj.inj (Option.some.inj (Except.ok.inj heq))
            exact h
      | _ => exact iff_of_false (not_tolerates_of_raises hload rfl) (by simp)

/--
**The responder and the login monitor skip exactly the plain lines.**

For every other line one of them raises, or records something that is no offence of an address, or
no failed login of a textual source.
-/
theorem skipsBadLines_iff (loads : Loads)
    (subprocessRun : List String → W → Py CompletedProcess × W) (line : String) (now : ℚ)
    (c : Config) (d : Daemon) (w : W) (c' : LoginMonitor.Config) (m : LoginMonitor.Monitor) :
    (Tolerates loads subprocessRun c line now d w ↔
      IsPlainLine loads subprocessRun c line now d w) ∧
    (LoginMonitor.Tolerates loads c' line now m ↔ LoginMonitor.IsPlainLine loads c' line now m) :=
  ⟨responder_tolerates_iff, LoginMonitor.tolerates_iff⟩

end Proofs

/-- `json.loads`, of the text `[]` alone. -/
def loadsEmptyList (line : String) : Py (Option Json) :=
  .ok (if line = "[]" then some (.arr []) else none)

/-- An empty list is a bad line, and both raise an `AttributeError` at its `get`. -/
theorem emptyList_raises :
    ¬ ∀ (loads : Loads) (line : String) (now : ℚ) (c : Config) (d : Daemon)
        (c' : LoginMonitor.Config) (m : LoginMonitor.Monitor),
      Tolerates loads (fun _ (w : Unit) => (.ok ⟨0, ""⟩, w)) c line now d () ∧
        LoginMonitor.Tolerates loads c' line now m := by
  intro h
  obtain ⟨⟨hraised, -⟩, -⟩ := h loadsEmptyList "[]" 0 ⟨300, 3, true⟩ Daemon.start ⟨300, 3, "T0859"⟩
    ⟨fun _ => [], ∅, []⟩
  exact absurd hraised (by decide)

end OtLab.BadLines
