import OtLab.Historian.Poller

/-!
# The health file

What `poll_once` returns and writes to `HEALTH_FILE`, against what InfluxDB has stored.
`http_post` counts a 400 as done, for the sake of the `CREATE` requests of `ensure_schema`, and
`write_points` uses it as well.

* `honest_iff` — the health file is honest unless all targets were read and `/write` was answered
  with a 400
-/

namespace OtLab.Poller

/-- Every target of the cycle was read without error. -/
def AllRead (attempt : Nat → Attempt) (targets : List Target) : Prop :=
  ∀ i < targets.length, ∃ l, (attempt i).read = .registers l

/-- Every target was read and InfluxDB accepted all points of the cycle. -/
def Stored (attempt : Nat → Attempt) (http : HttpOutcome) (targets : List Target) : Prop :=
  AllRead attempt targets ∧ http = .success

/-- `HEALTH_FILE` after a cycle that ends at the time `now`; a missing file is `none`. -/
def healthFile (now : Int) (file : Option String) (result : PollResult) : Option String :=
  if result.healthWritten then some (toString now) else file

/-- The cycle reports health only when its data is stored, and leaves the file alone otherwise. -/
structure Honest (zone : String) (attempt : Nat → Attempt) (http : HttpOutcome)
    (clients : Clients) (targets : List Target) : Prop where
  returned : (pollOnce zone attempt http clients targets).ok = true → Stored attempt http targets
  refreshed : (pollOnce zone attempt http clients targets).healthWritten = true →
    Stored attempt http targets
  kept : ¬ Stored attempt http targets → ∀ now file,
    healthFile now file (pollOnce zone attempt http clients targets) = file

variable {zone : String} {attempt : Nat → Attempt} {http : HttpOutcome} {clients : Clients}
  {targets : List Target}

theorem ok_pollTarget (t : Target) (a : Attempt) (st : PollState) :
    (pollTarget t a st).ok = true ↔ st.ok = true ∧ ∃ l, a.read = .registers l := by
  unfold pollTarget
  cases a.read with
  | raised | errorResponse => simp
  | registers l => simp

/-- The loop keeps `ok` exactly when every target answers with registers. -/
theorem ok_pollTargets (attempt : Nat → Attempt) : ∀ (ts : List Target) (i : Nat)
    (st : PollState), (pollTargets attempt i ts st).ok = true ↔
      st.ok = true ∧ ∀ j < ts.length, ∃ l, (attempt (i + j)).read = .registers l
  | [], _, _ => by simp [pollTargets]
  | t :: ts, i, st => by
    rw [pollTargets, ok_pollTargets attempt ts (i + 1), ok_pollTarget, and_assoc]
    refine and_congr_right fun _ => ?_
    constructor
    · rintro ⟨hfirst, hrest⟩ j hj
      cases j with
      | zero => exact hfirst
      | succ j =>
        rw [show i + (j + 1) = i + 1 + j by omega]
        exact hrest j (by simpa using hj)
    · intro h
      refine ⟨h 0 (by simp), fun j hj => ?_⟩
      rw [show i + 1 + j = i + (j + 1) by omega]
      exact h (j + 1) (by simpa using hj)

theorem httpPost_iff : httpPost http = true ↔ http = .success ∨ http = .httpError 400 := by
  cases http <;> simp [httpPost]

/-- The health line is always written, so there is always something to post. -/
theorem writePoints_append (lines : List String) (health : String) :
    writePoints (lines ++ [health]) http = httpPost http :=
  if_neg (by simp)

/-- When `poll_once` returns True. -/
theorem ok_pollOnce_iff :
    (pollOnce zone attempt http clients targets).ok = true ↔
      (http = .success ∨ http = .httpError 400) ∧ AllRead attempt targets := by
  unfold pollOnce
  dsimp only
  rw [writePoints_append, Bool.and_eq_true, httpPost_iff, ok_pollTargets]
  simp [AllRead]

/-- The health file is refreshed exactly when `poll_once` returns True. -/
theorem healthWritten_eq :
    (pollOnce zone attempt http clients targets).healthWritten
      = (pollOnce zone attempt http clients targets).ok := rfl

/--
**The cycle is honest unless all its targets were read and `/write` was answered with a 400.**

This is for every list of targets, every mix of failures and every outcome of the request.
-/
theorem honest_iff (zone : String) (attempt : Nat → Attempt) (http : HttpOutcome)
    (clients : Clients) (targets : List Target) :
    Honest zone attempt http clients targets ↔
      ¬ (AllRead attempt targets ∧ http = .httpError 400) := by
  constructor
  · rintro h ⟨hread, rfl⟩
    have hstored := h.returned (ok_pollOnce_iff.mpr ⟨Or.inr rfl, hread⟩)
    cases hstored.2
  · intro h
    have hok : (pollOnce zone attempt http clients targets).ok = true →
        Stored attempt http targets := by
      intro hok
      obtain ⟨hhttp, hread⟩ := ok_pollOnce_iff.mp hok
      exact ⟨hread, hhttp.resolve_right fun hbad => h ⟨hread, hbad⟩⟩
    refine ⟨hok, hok, fun hnot now file => ?_⟩
    rw [healthFile, healthWritten_eq, if_neg (mt hok hnot)]

/-- The three controllers answer and InfluxDB refuses the points, for example as a partial write. -/
theorem refused_write_reported_healthy :
    ¬ ∀ zone attempt http clients targets, Honest zone attempt http clients targets := by
  intro h
  have hbad := (h "control" (answeringCycle true).attempt (.httpError 400) (fun _ => none)
    defaultPrimary).returned (by decide)
  cases hbad.2

end OtLab.Poller
