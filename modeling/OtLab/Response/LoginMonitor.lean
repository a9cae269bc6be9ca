import Mathlib.Algebra.Order.Ring.Rat
import Mathlib.Data.Finset.Insert
import Mathlib.Data.List.Infix
import OtLab.Lib.Window
import OtLab.Py.Bytes
import OtLab.Py.Value

/-!
# The login monitor

`monitor.py` reads the access log of the reverse proxy and raises `HMI_LOGIN_FAILURE` for a source
with enough failed logins within the window. A line can decode to any JSON value, and the monitor
looks at its members without asking for their types.

* `tolerates_iff` — exactly which lines are handled or skipped as they should be
-/

namespace OtLab.LoginMonitor

open Lib

/-! ## The monitor -/

/-- The keys of `state`. Equal numbers are one key, and `json.loads` has only one NaN object. -/
inductive Source where
  | null
  | number (value : ℚ)
  | infinity (negative : Bool)
  | nan
  | text (s : String)
deriving DecidableEq

structure Config where
  window : ℚ
  threshold : Nat
  mitre : String

/-- The memory of the monitor and the alert log. -/
structure Monitor where
  state : Source → List ℚ
  alerted : Finset Source
  alerts : List (List (String × Json))

/-- `"login.htm" in value`. -/
def mentionsLogin : Json → Py Bool
  | .str s => .ok (decide ("login.htm".toList <:+: s.toList))
  | .arr l => .ok (l.any fun j => match j with
    | .str s => s == "login.htm"
    | _ => false)
  | .obj d => .ok (d.lookup "login.htm").isSome
  | _ => .error .typeError

/-- `request.startswith("POST ") and "login.htm" in request`, of a text. -/
def isLoginPost (request : String) : Bool :=
  decide ("POST ".toList <+: request.toList ∧ "login.htm".toList <:+: request.toList)

/-- `is_login_failure`. -/
def isLoginFailure (entry : List (String × Json)) : Py Bool :=
  let request := (entry.lookup "request").getD (.str "")
  let location := (entry.lookup "location").getD (.str "")
  match request with
  | .str request => if isLoginPost request then mentionsLogin location else .ok false
  | _ => .error .attributeError

/-- A value as a key of `state`: a list or an object has no hash. -/
def key : Json → Py Source
  | .null => .ok .null
  | .bool b => .ok (.number (if b then 1 else 0))
  | .int n => .ok (.number n)
  | .float (.finite value) => .ok (.number value)
  | .float (.infinite negative) => .ok (.infinity negative)
  | .float .nan => .ok .nan
  | .str s => .ok (.text s)
  | .arr _ | .obj _ => .error .typeError

/-- `record`: whether the source crosses the threshold, and the new state. -/
def record (state : Source → List ℚ) (sourceIp : Source) (now window : ℚ) (threshold : Nat) :
    Bool × (Source → List ℚ) :=
  let timestamps := inWindow window now (state sourceIp) ++ [now]
  (decide (threshold ≤ timestamps.length), Function.update state sourceIp timestamps)

/-- The alert of `write_alert`. -/
def alert (c : Config) (sourceIp : Json) (count : Nat) : List (String × Json) :=
  [ ("alert_type", .str "HMI_LOGIN_FAILURE"),
    ("source_ip", sourceIp),
    ("attempt_count", .int count),
    ("mitre_id", .str c.mitre),
    ("description", .str "Repeated failed Scada-LTS logins from a single source.") ]

/-- The end of `process_line`: an attempt of a source is recorded under its key. -/
def attempt (c : Config) (sourceIp : Json) (k : Source) (now : ℚ) (m : Monitor) : Monitor :=
  let (reached, state) := record m.state k now c.window c.threshold
  if reached then
    ⟨state, insert k m.alerted, m.alerts ++ [alert c sourceIp (state k).length]⟩
  else ⟨state, m.alerted, m.alerts⟩

/-- `process_line` on the memory and the alert log: what it raises, and the new ones. -/
def processLine (loads : Loads) (c : Config) (line : String) (now : ℚ) (m : Monitor) :
    Option PyError × Monitor :=
  match loads line with
  | .error e => (some e, m)
  | .ok none => (none, m)
  | .ok (some (.obj entry)) =>
    match isLoginFailure entry with
    | .error e => (some e, m)
    | .ok false => (none, m)
    | .ok true =>
      let sourceIp := Json.get entry "remote_addr"
      if !sourceIp.truthy then (none, m)
      else
        match key sourceIp with
        | .error e => (some e, m)
        | .ok k => (none, attempt c sourceIp k now m)
  | .ok (some _) => (some .attributeError, m)

/-! ## Lines that are skipped -/

/-- The line is a failed login with a `remote_addr` that is a text and not empty. -/
def IsFailedLogin (loads : Loads) (line : String) : Prop :=
  ∃ entry s, loads line = .ok (some (.obj entry)) ∧ isLoginFailure entry = .ok true ∧
    Json.get entry "remote_addr" = .str s ∧ s ≠ ""

/-- Nothing is raised, and a line that is no failed login of a textual source changes nothing. -/
def Tolerates (loads : Loads) (c : Config) (line : String) (now : ℚ) (m : Monitor) : Prop :=
  (processLine loads c line now m).1 = none ∧
    (¬ IsFailedLogin loads line → (processLine loads c line now m).2 = m)

/-- The value has no effect as a source, or its key is settled. A list or object must be empty. -/
def IsQuietSource (c : Config) (now : ℚ) (m : Monitor) : Json → Prop
  | .null | .str _ => True
  | .arr l => l = []
  | .obj d => d = []
  | .bool b => b = false ∨ Settled c.window now c.threshold (m.state (.number 1))
  | .int n => n = 0 ∨ Settled c.window now c.threshold (m.state (.number n))
  | .float (.finite value) =>
    value = 0 ∨ Settled c.window now c.threshold (m.state (.number value))
  | .float (.infinite negative) =>
    Settled c.window now c.threshold (m.state (.infinity negative))
  | .float .nan => Settled c.window now c.threshold (m.state .nan)

/-- The value is a container, so that `in` finds out whether it mentions the login page. -/
def IsContainer : Json → Prop
  | .str _ | .arr _ | .obj _ => True
  | _ => False

/--
The members `process_line` reaches are of the types it takes for granted: `request` is a text,
`location` behind the request of a login is a container, and `remote_addr` of a failed login is a
text or without effect. A missing `request` or `location` is the empty text.
-/
def IsPlainEntry (c : Config) (now : ℚ) (m : Monitor) (entry : List (String × Json)) : Prop :=
  ∃ request, (entry.lookup "request").getD (.str "") = .str request ∧
    (isLoginPost request = true →
      IsContainer ((entry.lookup "location").getD (.str "")) ∧
      (mentionsLogin ((entry.lookup "location").getD (.str "")) = .ok true →
        IsQuietSource c now m (Json.get entry "remote_addr")))

/-- The line is no JSON at all, or a plain entry. -/
def IsPlainLine (loads : Loads) (c : Config) (line : String) (now : ℚ) (m : Monitor) : Prop :=
  loads line = .ok none ∨
    ∃ entry, loads line = .ok (some (.obj entry)) ∧ IsPlainEntry c now m entry

/-! ## Recording -/

section Proofs

variable {loads : Loads} {c : Config} {line : String} {now : ℚ} {m : Monitor}
  {entry : List (String × Json)}

/-- A settled key is recorded without a change, any other one with a change. -/
theorem record_eq_iff {k : Source} {window : ℚ} {threshold : Nat} {state : Source → List ℚ} :
    record state k now window threshold = (false, state) ↔
      Settled window now threshold (state k) := update_eq_iff_settled

theorem attempt_eq_self_iff {sourceIp : Json} {k : Source} :
    attempt c sourceIp k now m = m ↔ Settled c.window now c.threshold (m.state k) := by
  rw [← record_eq_iff]
  unfold attempt
  rcases m with ⟨memory, alerted, alerts⟩
  rcases record memory k now c.window c.threshold with ⟨reached, state⟩
  cases reached with
  | false => simp
  | true => simp

theorem isContainer_iff (j : Json) : IsContainer j ↔ ∃ b, mentionsLogin j = .ok b := by
  cases j <;> simp [IsContainer, mentionsLogin]

/-- A line that is skipped is tolerated. -/
theorem tolerates_of_skipped (h : processLine loads c line now m = (none, m)) :
    Tolerates loads c line now m := by
  unfold Tolerates
  rw [h]
  exact ⟨rfl, fun _ => rfl⟩

theorem not_tolerates_of_raised {e : PyError} (h : processLine loads c line now m = (some e, m)) :
    ¬ Tolerates loads c line now m := by
  unfold Tolerates
  rw [h]
  exact fun hnone => nomatch hnone.1

/-- What is done about the source of a failed login. -/
theorem tolerates_iff_of_failure (hload : loads line = .ok (some (.obj entry)))
    (hfailure : isLoginFailure entry = .ok true) :
    Tolerates loads c line now m ↔ IsQuietSource c now m (Json.get entry "remote_addr") := by
  have hline : processLine loads c line now m =
      if !(Json.get entry "remote_addr").truthy then (none, m)
      else match key (Json.get entry "remote_addr") with
        | .error e => (some e, m)
        | .ok k => (none, attempt c (Json.get entry "remote_addr") k now m) := by
    unfold processLine
    rw [hload]
    dsimp only
    rw [hfailure]
  have hnumber : ∀ k, key (Json.get entry "remote_addr") = .ok k →
      (Json.get entry "remote_addr").truthy = true →
      (∀ s, Json.get entry "remote_addr" ≠ .str s) →
      (Tolerates loads c line now m ↔ Settled c.window now c.threshold (m.state k)) := by
    intro k hk htruthy hs
    have hfailed : ¬ IsFailedLogin loads line := by
      rintro ⟨entry', s, hload', -, hstr, -⟩
      rw [hload] at hload'
      obtain rfl := Json.obj.inj (Option.some.inj (Except.ok.inj hload'))
      exact hs s hstr
    rw [htruthy, hk] at hline
    unfold Tolerates
    rw [hline]
    exact ⟨fun h => attempt_eq_self_iff.mp (h.2 hfailed),
      fun h => ⟨rfl, fun _ => attempt_eq_self_iff.mpr h⟩⟩
  have htext : ∀ s, Json.get entry "remote_addr" = .str s → s ≠ "" →
      IsFailedLogin loads line := fun s hs hne => ⟨entry, s, hload, hfailure, hs, hne⟩
  generalize Json.get entry "remote_addr" = sourceIp at hline hnumber htext ⊢
  cases sourceIp with
  | null => exact iff_of_true (tolerates_of_skipped hline) trivial
  | bool b =>
    cases b with
    | false => exact iff_of_true (tolerates_of_skipped hline) (Or.inl rfl)
    | true => exact (hnumber _ rfl rfl nofun).trans (or_iff_right Bool.noConfusion).symm
  | int n =>
    by_cases hn : n = 0
    · subst hn
      exact iff_of_true (tolerates_of_skipped hline) (Or.inl rfl)
    · exact (hnumber _ rfl (bne_iff_ne.mpr hn) nofun).trans (or_iff_right hn).symm
  | float x =>
    cases x with
    | finite value =>
      by_cases hv : value = 0
      · subst hv
        exact iff_of_true (tolerates_of_skipped hline) (Or.inl rfl)
      · refine (hnumber _ rfl ?_ nofun).trans (or_iff_right hv).symm
        exact bne_iff_ne.mpr fun heq => hv (Double.finite.inj heq)
    | infinite negative => exact hnumber _ rfl rfl nofun
    | nan => exact hnumber _ rfl rfl nofun
  | str s =>
    refine iff_of_true ?_ trivial
    by_cases hs : s = ""
    · subst hs
      exact tolerates_of_skipped hline
    · have htruthy : (Json.str s).truthy = true := bne_iff_ne.mpr hs
      rw [htruthy] at hline
      unfold Tolerates
      rw [hline]
      exact ⟨rfl, fun h => absurd (htext s rfl hs) h⟩
  | arr l =>
    cases l with
    | nil => exact iff_of_true (tolerates_of_skipped hline) rfl
    | cons j l => exact iff_of_false (not_tolerates_of_raised hline) nofun
  | obj d =>
    cases d with
    | nil => exact iff_of_true (tolerates_of_skipped hline) rfl
    | cons j d => exact iff_of_false (not_tolerates_of_raised hline) nofun

/-- Which entries are tolerated. -/
theorem tolerates_iff_of_entry (hload : loads line = .ok (some (.obj entry))) :
    Tolerates loads c line now m ↔ IsPlainEntry c now m entry := by
  have hline : ∀ r, isLoginFailure entry = r → processLine loads c line now m =
      match r with
      | .error e => (some e, m)
      | .ok false => (none, m)
      | .ok true =>
        if !(Json.get entry "remote_addr").truthy then (none, m)
        else match key (Json.get entry "remote_addr") with
          | .error e => (some e, m)
          | .ok k => (none, attempt c (Json.get entry "remote_addr") k now m) := by
    rintro r rfl
    unfold processLine
    rw [hload]
  unfold IsPlainEntry
  cases hrequest : (entry.lookup "request").getD (.str "") with
  | str request =>
    have hfailure : isLoginFailure entry = if isLoginPost request then
        mentionsLogin ((entry.lookup "location").getD (.str "")) else .ok false := by
      unfold isLoginFailure
      rw [hrequest]
    have hplain : ∀ P : String → Prop, (∃ r, Json.str request = .str r ∧ P r) ↔ P request :=
      fun P => ⟨fun ⟨r, hr, h⟩ => Json.str.inj hr ▸ h, fun h => ⟨request, rfl, h⟩⟩
    rw [hplain]
    cases hpost : isLoginPost request with
    | false =>
      rw [hpost] at hfailure
      exact iff_of_true (tolerates_of_skipped (hline _ hfailure)) nofun
    | true =>
      rw [hpost, if_pos rfl] at hfailure
      simp only [forall_const]
      cases hmentions : mentionsLogin ((entry.lookup "location").getD (.str "")) with
      | error e =>
        rw [hmentions] at hfailure
        refine iff_of_false (not_tolerates_of_raised (hline _ hfailure)) fun h => ?_
        obtain ⟨b, hb⟩ := (isContainer_iff _).mp h.1
        rw [hmentions] at hb
        cases hb
      | ok b =>
        have hcontainer := (isContainer_iff _).mpr ⟨b, hmentions⟩
        rw [hmentions] at hfailure
        cases b with
        | false =>
          exact iff_of_true (tolerates_of_skipped (hline _ hfailure)) ⟨hcontainer, nofun⟩
        | true =>
          rw [tolerates_iff_of_failure hload hfailure]
          exact ⟨fun h => ⟨hcontainer, fun _ => h⟩, fun h => h.2 rfl⟩
  | _ =>
    have hfailure : isLoginFailure entry = .error .attributeError := by
      unfold isLoginFailure
      rw [hrequest]
    exact iff_of_false (not_tolerates_of_raised (hline _ hfailure)) fun ⟨_, h, _⟩ => nomatch h

/-- **Which lines the monitor tolerates.** -/
theorem tolerates_iff : Tolerates loads c line now m ↔ IsPlainLine loads c line now m := by
  unfold IsPlainLine
  cases hload : loads line with
  | error e =>
    have hline : processLine loads c line now m = (some e, m) := by
      unfold processLine
      rw [hload]
    exact iff_of_false (not_tolerates_of_raised hline) (by simp)
  | ok decoded =>
    cases decoded with
    | none =>
      have hline : processLine loads c line now m = (none, m) := by
        unfold processLine
        rw [hload]
      exact iff_of_true (tolerates_of_skipped hline) (Or.inl rfl)
    | some j =>
      cases j with
      | obj entry =>
        rw [tolerates_iff_of_entry hload]
        constructor
        · exact fun h => Or.inr ⟨entry, rfl, h⟩
        · rintro (h | ⟨entry', heq, h⟩)
          · cases h
          · obtain rfl := Json.obj.inj (Option.some.inj (Except.ok.inj heq))
            exact h
      | _ =>
        have hline : processLine loads c line now m = (some .attributeError, m) := by
          unfold processLine
          rw [hload]
        exact iff_of_false (not_tolerates_of_raised hline) (by simp)

end Proofs

end OtLab.LoginMonitor
