import Mathlib.Algebra.Order.Ring.Rat
import Mathlib.Data.Finset.Insert
import Mathlib.Data.List.Pairwise
import OtLab.Firewall.Containment
import OtLab.Lib.Window
import OtLab.Py.Bytes
import OtLab.Py.Value

/-!
# The responder

`record` and `process_line` of `responder.py`. The daemon keeps the recent offences of every
source and the set of sources it has blocked; `json.loads` and `subprocess.run` are parameters.

What the daemon knows about one source is a sliding-window tracker that only the offences of that
source move (`view_step`).

* `blocks_exactly_repeat_offenders` — `apply_drop` is called for a source at the line where its
  offences within the window reach the threshold, and at no other line
-/

namespace OtLab.Responder

open Lib

/-! ## Reading an alert line -/

def watchTypes : List String :=
  ["UNAUTHORIZED_MODBUS_WRITE", "DNP3_WRITE_UNAUTHORIZED", "DNP3_UNAUTHORIZED_CONTROL"]

/-- What `process_line` makes of a line before it looks at its memory. -/
inductive Reading where
  | raises (e : PyError)
  | ignored
  | source (k : Key)
deriving DecidableEq

/-- `if not source_ip or source_ip in blocked`: a list or an object has no hash. -/
def sourceReading : Json → Reading
  | .str s => if s = "" then .ignored else .source (.str s)
  | .int n => if n = 0 then .ignored else .source (.int n)
  | .bool b => if b then .source (.int 1) else .ignored
  | .arr l => if l.isEmpty then .ignored else .raises .typeError
  | .obj d => if d.isEmpty then .ignored else .raises .typeError
  -- no float is an address, so it does not matter whether it is in `blocked`
  | .float _ => .ignored
  | .null => .ignored

/-- The first lines of `process_line`; `loads` is `none` on a `JSONDecodeError`. -/
def reading (loads : String → Option Json) (line : String) : Reading :=
  match loads line with
  | none => .ignored
  | some (.obj alert) =>
    match Json.get alert "alert_type" with
    | .str t => if t ∈ watchTypes then sourceReading (Json.get alert "source_ip") else .ignored
    | .arr _ | .obj _ => .raises .typeError
    | _ => .ignored
  | some _ => .raises .attributeError

/-- The line is a watched offence of the source `s`. -/
def isOffence (loads : String → Option Json) (s line : String) : Bool :=
  match loads line with
  | some (.obj alert) =>
    match Json.get alert "alert_type", Json.get alert "source_ip" with
    | .str t, .str ip => decide (t ∈ watchTypes) && ip == s
    | _, _ => false
  | _ => false

/-- `ipaddress.ip_address(source_ip)` does not raise. -/
def Key.isAddress : Key → Bool
  | .int n => (ipAddressOfInt n).isSome
  | .str s => (ipAddress s).isSome

/-! ## The daemon -/

structure Config where
  window : ℚ
  threshold : Nat
  enforce : Bool

structure Daemon where
  state : Key → List ℚ
  blocked : Finset Key

/-- The memory `main` starts with. -/
def Daemon.start : Daemon := ⟨fun _ => [], ∅⟩

/-- `record`: whether the source crosses the threshold, and the new state. -/
def record (state : Key → List ℚ) (source : Key) (now window : ℚ) (threshold : Nat) :
    Bool × (Key → List ℚ) :=
  let timestamps := inWindow window now (state source) ++ [now]
  (decide (threshold ≤ timestamps.length), Function.update state source timestamps)

/-- What one call of `process_line` does: the source it called `apply_drop` for, with its status. -/
structure Outcome (W : Type*) where
  raised : Option PyError
  called : Option Key
  status : Option String
  daemon : Daemon
  world : W

section ProcessLine

variable {W : Type*} (loads : String → Option Json)
  (subprocessRun : List String → W → CompletedProcess × W)

/-- `apply_drop` on any key: `subprocess.run` takes no integer as a word of a command. -/
def dropKey (source : Key) (enforce : Bool) (w : W) : Py String × W :=
  match source with
  | .str s =>
    let r := applyDrop subprocessRun s enforce w
    (.ok r.1, r.2)
  | .int _ => (if enforce then .error .typeError else .ok "dry-run", w)

/-- `process_line` at the clock reading `now`. -/
def processLine (c : Config) (line : String) (now : ℚ) (d : Daemon) (w : W) : Outcome W :=
  match reading loads line with
  | .raises e => ⟨some e, none, none, d, w⟩
  | .ignored => ⟨none, none, none, d, w⟩
  | .source k =>
    -- a blocked source is not recorded any more, a text that is no address never
    if k ∈ d.blocked then ⟨none, none, none, d, w⟩
    else if !Key.isAddress k then ⟨none, none, none, d, w⟩
    else
      let (reached, state) := record d.state k now c.window c.threshold
      if reached then
        -- the source counts as blocked whatever the status says
        match dropKey subprocessRun k c.enforce w with
        | (.ok status, w) => ⟨none, some k, some status, ⟨state, insert k d.blocked⟩, w⟩
        | (.error e, w) => ⟨some e, some k, none, ⟨state, d.blocked⟩, w⟩
      else ⟨none, none, none, ⟨state, d.blocked⟩, w⟩

end ProcessLine

/-! ## What the daemon knows about one source -/

/-- The tracker the daemon keeps for the source `s`. -/
def view (s : String) (d : Daemon) : Tracker ℚ :=
  ⟨d.state (.str s), decide (Key.str s ∈ d.blocked)⟩

theorem view_start (s : String) : view s Daemon.start = Tracker.fresh := rfl

theorem sourceReading_eq_str {j : Json} {s : String} (hs : s ≠ "") :
    sourceReading j = .source (.str s) ↔ j = .str s := by
  cases j with
  | str s' =>
    simp only [sourceReading, Json.str.injEq]
    split
    · next h => simp only [reduceCtorEq, false_iff, h]; exact Ne.symm hs
    · simp
  | null => simp [sourceReading]
  | float b => simp [sourceReading]
  | bool b => cases b <;> simp [sourceReading]
  | int n => simp only [sourceReading]; split <;> simp
  | arr l => simp only [sourceReading]; split <;> simp
  | obj d => simp only [sourceReading]; split <;> simp

/-- For a source that is not empty, an offence is a line that names it. -/
theorem reading_eq_source_iff {loads : String → Option Json} {s line : String} (hs : s ≠ "") :
    reading loads line = .source (.str s) ↔ isOffence loads s line = true := by
  unfold reading isOffence
  rcases loads line with - | j
  · simp
  cases j with
  | obj alert =>
    dsimp only
    generalize Json.get alert "alert_type" = ty
    generalize Json.get alert "source_ip" = ip
    cases ty with
    | str t =>
      by_cases ht : t ∈ watchTypes
      · simp only [if_pos ht, sourceReading_eq_str hs]
        cases ip <;> simp [ht]
      · simp only [if_neg ht]
        cases ip <;> simp [ht]
    | _ => simp
  | _ => simp

theorem ne_empty_of_isSome {s : String} (h : (ipAddress s).isSome = true) : s ≠ "" := by
  rintro rfl
  revert h
  decide

section Step

variable {W : Type*} {loads : String → Option Json}
  {subprocessRun : List String → W → CompletedProcess × W} {c : Config}
  {s line : String} {now : ℚ} {d : Daemon} {w : W}

/--
What a line can do: nothing, or the offence of an unblocked address is recorded, and `apply_drop`
is called for it when `record` says so.
-/
theorem processLine_cases :
    (∃ e, processLine loads subprocessRun c line now d w = ⟨e, none, none, d, w⟩) ∨
    ∃ k state, reading loads line = .source k ∧ k ∉ d.blocked ∧ Key.isAddress k = true ∧
      (record d.state k now c.window c.threshold = (false, state) ∧
        processLine loads subprocessRun c line now d w
          = ⟨none, none, none, ⟨state, d.blocked⟩, w⟩ ∨
      record d.state k now c.window c.threshold = (true, state) ∧
        ∃ raised status blocked, (blocked = d.blocked ∨ blocked = insert k d.blocked) ∧
          processLine loads subprocessRun c line now d w
            = ⟨raised, some k, status, ⟨state, blocked⟩,
                (dropKey subprocessRun k c.enforce w).2⟩) := by
  unfold processLine
  cases hr : reading loads line with
  | raises e => exact Or.inl ⟨some e, rfl⟩
  | ignored => exact Or.inl ⟨none, rfl⟩
  | source k =>
    by_cases hb : k ∈ d.blocked
    · exact Or.inl ⟨none, if_pos hb⟩
    by_cases hv : Key.isAddress k = true
    · rcases hrec : record d.state k now c.window c.threshold with ⟨reached, state⟩
      refine Or.inr ⟨k, state, rfl, hb, hv, ?_⟩
      simp only [if_neg hb, hv, Bool.not_true, Bool.false_eq_true, if_false, hrec]
      cases reached with
      | false => exact Or.inl ⟨rfl, rfl⟩
      | true =>
        rcases dropKey subprocessRun k c.enforce w with ⟨r, w'⟩
        cases r with
        | ok status => exact Or.inr ⟨rfl, none, some status, _, Or.inr rfl, rfl⟩
        | error e => exact Or.inr ⟨rfl, some e, none, _, Or.inl rfl, rfl⟩
    · simp only [if_neg hb, hv, Bool.not_false, if_true]
      exact Or.inl ⟨none, rfl⟩

/-- An unblocked valid source is recorded, and blocked when it reaches the threshold. -/
theorem processLine_of_source (hr : reading loads line = .source (.str s))
    (hb : Key.str s ∉ d.blocked) (hv : (ipAddress s).isSome = true) :
    processLine loads subprocessRun c line now d w =
      let state := Function.update d.state (.str s) ((view s d).prune c.window now)
      if (view s d).fires c.window c.threshold now then
        let r := applyDrop subprocessRun s c.enforce w
        ⟨none, some (.str s), some r.1, ⟨state, insert (.str s) d.blocked⟩, r.2⟩
      else ⟨none, none, none, ⟨state, d.blocked⟩, w⟩ := by
  have hf : (view s d).fires c.window c.threshold now
      = decide (c.threshold ≤ ((view s d).prune c.window now).length) := by
    simp [Tracker.fires, view, hb]
  unfold processLine
  rw [hr, hf]
  simp only [if_neg hb, Key.isAddress, hv, Bool.not_true, Bool.false_eq_true, if_false]
  rfl

/-- A blocked source is not looked at again. -/
theorem processLine_of_blocked {k : Key} (hr : reading loads line = .source k)
    (hb : k ∈ d.blocked) :
    processLine loads subprocessRun c line now d w = ⟨none, none, none, d, w⟩ := by
  unfold processLine
  rw [hr]
  simp only [if_pos hb]

/-- On an offence of a valid source its tracker takes a step, and `apply_drop` is called when it
fires. -/
theorem view_step (ho : isOffence loads s line = true) (hv : (ipAddress s).isSome = true) :
    view s (processLine loads subprocessRun c line now d w).daemon
        = (view s d).observe c.window c.threshold now ∧
      ((processLine loads subprocessRun c line now d w).called = some (.str s) ↔
        (view s d).fires c.window c.threshold now = true) := by
  have hr := (reading_eq_source_iff (ne_empty_of_isSome hv)).mpr ho
  by_cases hb : Key.str s ∈ d.blocked
  · have hfired : (view s d).fired = true := decide_eq_true hb
    rw [processLine_of_blocked hr hb, Tracker.observe_of_fired hfired]
    simp [Tracker.fires, hfired]
  · have hfired : (view s d).fired = false := decide_eq_false hb
    rw [processLine_of_source hr hb hv, Tracker.observe_of_not_fired hfired]
    cases hf : (view s d).fires c.window c.threshold now with
    | true => simp [view]
    | false => simp [view, hb]

/-- A line that does not name the source changes nothing the daemon knows about it. -/
theorem view_of_reading_ne (hr : reading loads line ≠ .source (.str s)) :
    view s (processLine loads subprocessRun c line now d w).daemon = view s d ∧
      (processLine loads subprocessRun c line now d w).called ≠ some (.str s) := by
  obtain ⟨e, ho⟩ | ⟨k, state, hk, -, -, h⟩ :=
    @processLine_cases _ loads subprocessRun c line now d w
  · rw [ho]
    exact ⟨rfl, nofun⟩
  have hne : Key.str s ≠ k := by
    rintro rfl
    exact hr hk
  have hstate : (record d.state k now c.window c.threshold).2 (.str s) = d.state (.str s) :=
    Function.update_of_ne hne _ _
  rcases h with ⟨hrec, ho⟩ | ⟨hrec, raised, status, blocked, hb, ho⟩
  · rw [hrec] at hstate
    rw [ho]
    exact ⟨congrArg (Tracker.mk · _) hstate, nofun⟩
  · rw [hrec] at hstate
    rw [ho]
    have hblocked : Key.str s ∈ blocked ↔ Key.str s ∈ d.blocked := by
      rcases hb with rfl | rfl
      · exact Iff.rfl
      · rw [Finset.mem_insert, or_iff_right hne]
    refine ⟨?_, fun h => hne (Option.some.inj h).symm⟩
    simp only [view, hblocked]
    exact congrArg (Tracker.mk · _) hstate

/-- `apply_drop` is only called for addresses. -/
theorem isAddress_of_called {k : Key}
    (h : (processLine loads subprocessRun c line now d w).called = some k) :
    Key.isAddress k = true := by
  obtain ⟨e, ho⟩ | ⟨k', state, -, -, hv, ⟨-, ho⟩ | ⟨-, raised, status, blocked, -, ho⟩⟩ :=
    @processLine_cases _ loads subprocessRun c line now d w
  · rw [ho] at h
    cases h
  · rw [ho] at h
    cases h
  · rw [ho] at h
    cases h
    exact hv

/-- The world changes only by an `apply_drop` of a text. -/
theorem processLine_world :
    (processLine loads subprocessRun c line now d w).world =
      match (processLine loads subprocessRun c line now d w).called with
      | some (.str t) => (applyDrop subprocessRun t c.enforce w).2
      | _ => w := by
  obtain ⟨e, ho⟩ | ⟨k, state, -, -, -, ⟨-, ho⟩ | ⟨-, raised, status, blocked, -, ho⟩⟩ :=
    @processLine_cases _ loads subprocessRun c line now d w
  · rw [ho]
  · rw [ho]
  · rw [ho]
    cases k <;> rfl

/-- `apply_drop` is called for a text only on an offence that makes its tracker fire. -/
theorem fires_of_called {t : String}
    (h : (processLine loads subprocessRun c line now d w).called = some (.str t)) :
    (ipAddress t).isSome = true ∧ isOffence loads t line = true ∧
      (view t d).fires c.window c.threshold now = true := by
  have hv : (ipAddress t).isSome = true := isAddress_of_called h
  have ho : isOffence loads t line = true := by
    rw [← reading_eq_source_iff (ne_empty_of_isSome hv)]
    by_contra hr
    exact (view_of_reading_ne hr).2 h
  exact ⟨hv, ho, (view_step ho hv).2.mp h⟩

end Step

/-! ## A whole log -/

/-- A line and the clock reading at which it is processed. -/
structure Entry where
  now : ℚ
  line : String

section Log

variable {W : Type*} (loads : String → Option Json)
  (subprocessRun : List String → W → CompletedProcess × W) (c : Config)

/-- One line of the log, on the daemon's memory and the world. -/
def handle (dw : Daemon × W) (e : Entry) : Daemon × W :=
  let o := processLine loads subprocessRun c e.line e.now dw.1 dw.2
  (o.daemon, o.world)

/-- The memory of a daemon started in the world `w`, after the first `k` lines. -/
def before (w : W) (log : List Entry) (k : Nat) : Daemon × W :=
  run (handle loads subprocessRun c) (Daemon.start, w) (log.take k)

/-- The source `apply_drop` is called for at line `k`. -/
def callAt (w : W) (log : List Entry) (k : Nat) : Option Key :=
  log[k]?.bind fun e =>
    let dw := before loads subprocessRun c w log k
    (processLine loads subprocessRun c e.line e.now dw.1 dw.2).called

/-- The times of the watched offences of `s`, in order. -/
def offenceTimes (s : String) (log : List Entry) : List ℚ :=
  (log.filter fun e => isOffence loads s e.line).map Entry.now

variable {loads subprocessRun c} {w : W} {log : List Entry} {s : String} {k : Nat}

theorem before_succ {e : Entry} (h : log[k]? = some e) :
    before loads subprocessRun c w log (k + 1)
      = handle loads subprocessRun c (before loads subprocessRun c w log k) e :=
  run_take_succ h _

theorem offenceTimes_append (log' : List Entry) :
    offenceTimes loads s (log ++ log') = offenceTimes loads s log ++ offenceTimes loads s log' := by
  unfold offenceTimes
  rw [List.filter_append, List.map_append]

/-- With a clock that never runs back no earlier offence is later than a line. -/
theorem offenceTimes_le (hclock : log.Pairwise fun e e' => e.now ≤ e'.now) {e : Entry}
    (he : log[k]? = some e) : ∀ t ∈ offenceTimes loads s (log.take k), t ≤ e.now := by
  intro t ht
  obtain ⟨e', he', rfl⟩ := List.mem_map.mp ht
  obtain ⟨j, hj, rfl⟩ := List.mem_take_iff_getElem.mp (List.mem_filter.mp he').1
  obtain ⟨hk, rfl⟩ := List.getElem?_eq_some_iff.mp he
  exact List.pairwise_iff_getElem.mp hclock _ _ _ hk (by omega)

/-- Only the offences of a valid source move its tracker. -/
theorem view_handle (hv : (ipAddress s).isSome = true) (dw : Daemon × W) (e : Entry) :
    view s (handle loads subprocessRun c dw e).1 =
      if isOffence loads s e.line then (view s dw.1).observe c.window c.threshold e.now
      else view s dw.1 := by
  unfold handle
  by_cases ho : isOffence loads s e.line = true
  · rw [if_pos ho]
    exact (view_step ho hv).1
  · rw [if_neg ho]
    exact (view_of_reading_ne (mt (reading_eq_source_iff (ne_empty_of_isSome hv)).mp ho)).1

theorem view_run (hv : (ipAddress s).isSome = true) (log : List Entry) (dw : Daemon × W) :
    view s (run (handle loads subprocessRun c) dw log).1
      = run (Tracker.observe c.window c.threshold) (view s dw.1) (offenceTimes loads s log) := by
  induction log generalizing dw with
  | nil => rfl
  | cons e log ih =>
    rw [run_cons, ih, view_handle hv]
    unfold offenceTimes
    rw [List.filter_cons]
    by_cases ho : isOffence loads s e.line = true
    · rw [if_pos ho, if_pos ho, List.map_cons, run_cons]
    · rw [if_neg ho, if_neg ho]

/-- The tracker of a valid source has observed exactly its offences. -/
theorem view_before (hv : (ipAddress s).isSome = true) :
    view s (before loads subprocessRun c w log k).1
      = run (Tracker.observe c.window c.threshold) Tracker.fresh
          (offenceTimes loads s (log.take k)) := by
  unfold before
  rw [view_run hv, view_start]

/-- `apply_drop` is called when the tracker over the offences so far fires. -/
theorem callAt_eq_some_iff {e : Entry} (he : log[k]? = some e) :
    callAt loads subprocessRun c w log k = some (.str s) ↔
      (ipAddress s).isSome = true ∧ isOffence loads s e.line = true ∧
        (run (Tracker.observe c.window c.threshold) Tracker.fresh
          (offenceTimes loads s (log.take k))).fires c.window c.threshold e.now = true := by
  unfold callAt
  rw [he, Option.bind_some]
  constructor
  · intro h
    obtain ⟨hv, ho, hf⟩ := fires_of_called h
    exact ⟨hv, ho, view_before hv ▸ hf⟩
  · rintro ⟨hv, ho, hf⟩
    have hview : view s (before loads subprocessRun c w log k).1 = _ := view_before hv
    rw [← hview] at hf
    exact (view_step ho hv).2.mpr hf

/-- A source is in `blocked` once `apply_drop` has been called for it. -/
theorem fired_before_iff (hv : (ipAddress s).isSome = true) :
    (view s (before loads subprocessRun c w log k).1).fired = true ↔
      ∃ j < k, callAt loads subprocessRun c w log j = some (.str s) := by
  induction k with
  | zero => simp [before, view_start, Tracker.fresh]
  | succ k ih =>
    rw [Nat.exists_lt_succ_right, ← ih]
    cases he : log[k]? with
    | none => simp [before, take_succ_of_none he, callAt, he]
    | some e =>
      have hview : view s (before loads subprocessRun c w log k).1 = _ := view_before hv
      rw [callAt_eq_some_iff he, ← hview, before_succ he, view_handle hv]
      by_cases ho : isOffence loads s e.line = true
      · rw [if_pos ho, Tracker.fired_observe, Bool.or_eq_true]
        simp only [hv, ho, true_and]
      · rw [if_neg ho]
        simp only [ho, false_and, and_false, or_false, Bool.false_eq_true]

/-- The daemon's list of recent offences counts what the whole log says about the window. -/
theorem callAt_iff_count (hw : 0 < c.window) (hclock : log.Pairwise fun e e' => e.now ≤ e'.now)
    {e : Entry} (he : log[k]? = some e) :
    callAt loads subprocessRun c w log k = some (.str s) ↔
      (ipAddress s).isSome = true ∧ isOffence loads s e.line = true ∧
        (∀ j < k, callAt loads subprocessRun c w log j ≠ some (.str s)) ∧
        c.threshold ≤ ((offenceTimes loads s (log.take (k + 1))).filter fun t =>
          t ∈ Set.Ioc (e.now - c.window) e.now).length := by
  rw [callAt_eq_some_iff he]
  refine and_congr_right fun hv => and_congr_right fun ho => ?_
  have htimes : offenceTimes loads s (log.take (k + 1))
      = offenceTimes loads s (log.take k) ++ [e.now] := by
    rw [List.take_add_one, he, Option.toList_some, offenceTimes_append]
    simp [offenceTimes, ho]
  have hview : view s (before loads subprocessRun c w log k).1 = _ := view_before hv
  rw [Tracker.fires_run_iff hw (offenceTimes_le hclock he), htimes, ← hview, ← Bool.not_eq_true,
    fired_before_iff hv]
  simp only [not_exists, not_and, ne_eq]

theorem callAt_unique {j : Nat} (hw : 0 < c.window)
    (hclock : log.Pairwise fun e e' => e.now ≤ e'.now)
    (hj : callAt loads subprocessRun c w log j = some (.str s))
    (hk : callAt loads subprocessRun c w log k = some (.str s)) : j = k := by
  have hnot : ∀ {i i'}, callAt loads subprocessRun c w log i = some (.str s) →
      callAt loads subprocessRun c w log i' = some (.str s) → ¬ i < i' := by
    intro i i' hi hi' hlt
    obtain ⟨e, he, -⟩ := Option.bind_eq_some_iff.mp hi'
    exact ((callAt_iff_count hw hclock he).mp hi').2.2.1 i hlt hi
  have h1 := hnot hj hk
  have h2 := hnot hk hj
  omega

/-- Whether `s` is blocked at a line depends on that line and on the offences of `s` before it. -/
theorem callAt_congr {w' : W} {log' : List Entry} {k' : Nat} (he : log[k]? = log'[k']?)
    (h : offenceTimes loads s (log.take k) = offenceTimes loads s (log'.take k')) :
    callAt loads subprocessRun c w log k = some (.str s) ↔
      callAt loads subprocessRun c w' log' k' = some (.str s) := by
  cases he' : log'[k']? with
  | none => simp [callAt, he, he']
  | some e => rw [callAt_eq_some_iff (he.trans he'), callAt_eq_some_iff he', h]

/--
**The responder blocks exactly the repeat offenders.**

`apply_drop` is called for `s` at a line exactly when `s` is an address, the line is an offence of
`s`, there was no earlier call for `s`, and at least `THRESHOLD` offences of `s` up to this line
lie within the window. So there is at most one call for `s`, and it depends on nothing but the
offences of `s`.
-/
theorem blocks_exactly_repeat_offenders (w : W) (log : List Entry) (hw : 0 < c.window)
    (hclock : log.Pairwise fun e e' => e.now ≤ e'.now) (s : String) :
    (∀ k e, log[k]? = some e →
      (callAt loads subprocessRun c w log k = some (.str s) ↔
        (ipAddress s).isSome = true ∧ isOffence loads s e.line = true ∧
          (∀ j < k, callAt loads subprocessRun c w log j ≠ some (.str s)) ∧
          c.threshold ≤ ((offenceTimes loads s (log.take (k + 1))).filter fun t =>
            t ∈ Set.Ioc (e.now - c.window) e.now).length)) ∧
    (∀ j k, callAt loads subprocessRun c w log j = some (.str s) →
      callAt loads subprocessRun c w log k = some (.str s) → j = k) ∧
    (∀ (w' : W) (log' : List Entry) (k k' : Nat), log[k]? = log'[k']? →
      offenceTimes loads s (log.take k) = offenceTimes loads s (log'.take k') →
      (callAt loads subprocessRun c w log k = some (.str s) ↔
        callAt loads subprocessRun c w' log' k' = some (.str s))) :=
  ⟨fun _ _ he => callAt_iff_count hw hclock he, fun _ _ => callAt_unique hw hclock,
    fun _ _ _ _ => callAt_congr⟩

end Log

/-- `json.loads` on the lines of a finite log; any other text is undecodable. -/
def loadsOf (decoded : List (String × Json)) (line : String) : Option Json := decoded.lookup line

/-- An alert of the Modbus detector, as a line of the log and decoded. -/
def writeAlert (ip : String) : String × Json :=
  ("\x7b\"alert_type\": \"UNAUTHORIZED_MODBUS_WRITE\", \"source_ip\": \"" ++ ip ++ "\"\x7d",
    .obj [("alert_type", .str "UNAUTHORIZED_MODBUS_WRITE"), ("source_ip", .str ip)])

theorem isOffence_writeAlert (ip s : String) :
    isOffence (loadsOf [writeAlert ip]) s (writeAlert ip).1 = (ip == s) := by
  have hloads : loadsOf [writeAlert ip] (writeAlert ip).1 = some (writeAlert ip).2 :=
    List.lookup_cons_self
  unfold isOffence
  rw [hloads]
  rfl

/-- The third offence within five minutes is blocked, across a line of another source. -/
theorem blocks_exactly_repeat_offenders_third :
    let attacker := writeAlert "172.24.0.10"
    let insider := writeAlert "172.23.0.15"
    callAt (loadsOf [attacker, insider]) iptables ⟨300, 3, true⟩ (installed labIfs)
        [⟨0, attacker.1⟩, ⟨10, insider.1⟩, ⟨20, attacker.1⟩, ⟨299, attacker.1⟩] 3
      = some (.str "172.24.0.10") := by
  intro attacker insider
  refine ((blocks_exactly_repeat_offenders _ _ (by decide +kernel) (by decide +kernel)
    "172.24.0.10").1 3 ⟨299, attacker.1⟩ rfl).mpr ⟨by decide, by decide, ?_, by decide +kernel⟩
  decide +kernel

end OtLab.Responder
