import Mathlib.Algebra.Order.Group.Int
import Mathlib.Data.List.Nodup
import OtLab.Lib.Rearm
import OtLab.Net.Packet

/-!
# The availability watchdog

`watchdog.py` checks every producer script again and again and raises `DETECTION_SERVICE_DOWN` for
one that is not running, repeating the alert while the outage lasts. Every script has an entry of
its own in `_last_alerted`, so its checks form a rearming alarm of its own.

* `alertsOf_check` — the alerts of one check, in the order of the scripts
* `watchdog_exact` — what is alerted over a whole run
-/

namespace OtLab.Watchdog

open Lib Lib.Rearm

variable {T : Type*} [AddCommGroup T] [LinearOrder T]

/-! ## The watchdog -/

/-- `_last_alerted`. -/
abbrev LastAlerted (T : Type*) := String → Option T

/-- The entries the event and the alert share. -/
def fields (script : String) : Dict :=
  [("alert_type", .str "DETECTION_SERVICE_DOWN"), ("service", .str script)]

/-- The alert of a script that is not running. -/
def serviceDown (script : String) : Dict :=
  fields script ++
    [ ("mitre_id", .str "T0881"),
      ("description", .str ("Detection producer " ++ script ++ " is not running: the sensor has "
        ++ "been stopped or crashed (Inhibit Response Function).")) ]

/-- The body of the loop of `check`. -/
def checkScript (repeatSeconds now : T) (running : String → Bool)
    (st : LastAlerted T × List SinkCall) (script : String) : LastAlerted T × List SinkCall :=
  if running script then (Function.update st.1 script none, st.2)
  else if now - (st.1 script).getD 0 < repeatSeconds then st
  else
    (Function.update st.1 script (some now),
      st.2 ++ [.loki "watchdog" "ot_ndr" (fields script), .alert (serviceDown script)])

/-- `check`. -/
def check (repeatSeconds : T) (scripts : List String) (now : T) (running : String → Bool)
    (lastAlerted : LastAlerted T) : LastAlerted T × List SinkCall :=
  scripts.foldl (checkScript repeatSeconds now running) (lastAlerted, [])

/-! ## One check -/

variable {rep now : T} {running : String → Bool} {last : LastAlerted T} {scripts : List String}
  {s : String} {st : LastAlerted T × List SinkCall}

/-- What a check sees of a script. -/
def sighting (now : T) (running : String → Bool) (script : String) : Sighting T :=
  ⟨now, running script⟩

/-- One script in one check: its alarm looks once, and a report is an alert. -/
theorem checkScript_eq (rep now : T) (running : String → Bool)
    (st : LastAlerted T × List SinkCall) (script : String) :
    checkScript rep now running st script =
      (Function.update st.1 script (look rep (st.1 script) (sighting now running script)),
        st.2 ++ if reports rep (st.1 script) (sighting now running script) then
          [.loki "watchdog" "ot_ndr" (fields script), .alert (serviceDown script)] else []) := by
  unfold checkScript look reports sighting
  by_cases hup : running script = true
  · simp [hup]
  · by_cases hlt : now - (st.1 script).getD 0 < rep <;> simp [hup, hlt]

theorem alertsOf_append (l l' : List SinkCall) : alertsOf (l ++ l') = alertsOf l ++ alertsOf l' :=
  List.filterMap_append

/-- A check of distinct scripts: every script is looked at once, with the entry it had before. -/
theorem foldl_checkScript (hnodup : scripts.Nodup) :
    let st' := scripts.foldl (checkScript rep now running) st
    (∀ s, st'.1 s = if s ∈ scripts then look rep (st.1 s) (sighting now running s) else st.1 s) ∧
      alertsOf st'.2 = alertsOf st.2 ++ (scripts.filter fun s =>
        reports rep (st.1 s) (sighting now running s)).map serviceDown := by
  induction scripts generalizing st with
  | nil => simp
  | cons script scripts ih =>
    obtain ⟨hnot, hnodup⟩ := List.nodup_cons.mp hnodup
    obtain ⟨hentry, halerts⟩ := @ih (checkScript rep now running st script) hnodup
    rw [List.foldl_cons]
    refine ⟨fun s => ?_, ?_⟩
    · rw [hentry, checkScript_eq]
      by_cases hs : s = script
      · subst hs
        simp [hnot]
      · simp [hs]
    · have hothers : (scripts.filter fun s =>
            reports rep ((checkScript rep now running st script).1 s) (sighting now running s))
          = scripts.filter fun s => reports rep (st.1 s) (sighting now running s) := by
        refine List.filter_congr fun s hs => ?_
        have hne : s ≠ script := fun h => hnot (h ▸ hs)
        have hentry : (checkScript rep now running st script).1 s = st.1 s := by
          rw [checkScript_eq]
          exact Function.update_of_ne hne _ _
        rw [hentry]
      rw [halerts, hothers, checkScript_eq, alertsOf_append, List.append_assoc, List.filter_cons]
      by_cases hr : reports rep (st.1 script) (sighting now running script) = true
      · simp [hr]
      · simp [hr]

/-- The alerts of one check are those of the scripts whose alarm reports, in their order. -/
theorem alertsOf_check (hnodup : scripts.Nodup) (rep now : T) (running : String → Bool)
    (last : LastAlerted T) :
    alertsOf (check rep scripts now running last).2 =
      (scripts.filter fun s => reports rep (last s) (sighting now running s)).map serviceDown :=
  (foldl_checkScript hnodup).2

theorem check_entry (hnodup : scripts.Nodup) (hs : s ∈ scripts) :
    (check rep scripts now running last).1 s = look rep (last s) (sighting now running s) := by
  unfold check
  rw [(foldl_checkScript hnodup).1, if_pos hs]

/-- The alert names its script. -/
theorem serviceDown_injective : Function.Injective serviceDown := by
  intro s s' h
  simp only [serviceDown, fields, List.cons_append, List.cons.injEq, Prod.mk.injEq,
    Value.str.injEq] at h
  exact h.2.1.2

/-! ## Runs -/

/-- One call of `check` and what `running` answers in it. -/
structure Check (T : Type*) where
  now : T
  running : String → Bool

section Runs

variable (rep : T) (scripts : List String) (checks : List (Check T))

/-- `_last_alerted` after some checks. -/
def lastAlertedAfter : LastAlerted T :=
  run (fun last c => (check rep scripts c.now c.running last).1) (fun _ => none) checks

/-- The alerts of the `i`-th check. -/
def alertsAt (i : Nat) : List Dict :=
  match checks[i]? with
  | some c => alertsOf
      (check rep scripts c.now c.running (lastAlertedAfter rep scripts (checks.take i))).2
  | none => []

/-- The `i`-th check raises `DETECTION_SERVICE_DOWN` for a script. -/
def Raises (i : Nat) (script : String) : Prop := serviceDown script ∈ alertsAt rep scripts checks i

omit [AddCommGroup T] [LinearOrder T] in
/-- The `i`-th check sees the script running. -/
def RunningAt (checks : List (Check T)) (i : Nat) (script : String) : Prop :=
  ∃ c, checks[i]? = some c ∧ c.running script = true

/-- What the checks see of one script. -/
def history (script : String) : List (Sighting T) :=
  checks.map fun c => sighting c.now c.running script

end Runs

variable {checks : List (Check T)} {c : Check T} {i : Nat}

omit [AddCommGroup T] [LinearOrder T] in
theorem getElem?_history : (history checks s)[i]?
    = checks[i]?.map fun c => sighting c.now c.running s := List.getElem?_map

omit [AddCommGroup T] [LinearOrder T] in
/-- A look is the sighting of a check. -/
theorem exists_getElem?_history {P : Sighting T → Prop} :
    (∃ o, (history checks s)[i]? = some o ∧ P o) ↔
      ∃ c, checks[i]? = some c ∧ P (sighting c.now c.running s) := by
  rw [getElem?_history]
  cases checks[i]? <;> simp

omit [AddCommGroup T] [LinearOrder T] in
theorem runningAt_iff : RunningAt checks i s ↔ UpAt (history checks s) i := by
  unfold RunningAt UpAt
  rw [getElem?_history]
  cases checks[i]? <;> simp [sighting]

/-- The entry of a script is the slot of its own alarm. -/
theorem lastAlertedAfter_eq (hnodup : scripts.Nodup) (hs : s ∈ scripts) :
    lastAlertedAfter rep scripts checks s = slotAfter rep (history checks s) := by
  induction checks using List.reverseRecOn with
  | nil => rfl
  | append_singleton checks c ih =>
    unfold lastAlertedAfter slotAfter history at ih ⊢
    rw [run_append, run_cons, run_nil, check_entry hnodup hs, ih, List.map_append, run_append]
    rfl

/-- A check raises an alert for a script exactly when the alarm of the script reports. -/
theorem raises_iff_reportedAt (hnodup : scripts.Nodup) (hs : s ∈ scripts) :
    Raises rep scripts checks i s ↔ ReportedAt rep (history checks s) i := by
  unfold Raises alertsAt ReportedAt
  rw [getElem?_history]
  cases checks[i]? with
  | none => simp
  | some c =>
    have hslot : lastAlertedAfter rep scripts (checks.take i) s
        = slotAfter rep ((history checks s).take i) := by
      rw [lastAlertedAfter_eq hnodup hs, history, List.map_take]
      rfl
    simp [alertsOf_check hnodup, List.mem_map_of_injective serviceDown_injective, hs, hslot]

theorem alertsAt_nodup (hnodup : scripts.Nodup) (i : Nat) :
    (alertsAt rep scripts checks i).Nodup := by
  unfold alertsAt
  cases checks[i]? with
  | none => exact List.nodup_nil
  | some c =>
    show (alertsOf _).Nodup
    rw [alertsOf_check hnodup]
    exact List.Nodup.map serviceDown_injective (hnodup.filter _)

omit [AddCommGroup T] [LinearOrder T] in
theorem getElem?_history_of_some (hc : checks[i]? = some c) :
    (history checks s)[i]? = some (sighting c.now c.running s) := by
  rw [getElem?_history, hc, Option.map_some]

/-- When a check raises an alert for a script, in terms of what earlier checks saw and raised. -/
theorem raises_iff (hnodup : scripts.Nodup) (hs : s ∈ scripts)
    (hclock : ∀ c ∈ checks, rep ≤ c.now) (hc : checks[i]? = some c) :
    Raises rep scripts checks i s ↔ c.running s = false ∧
      ((∀ j < i, Raises rep scripts checks j s → ∃ k, j < k ∧ k < i ∧ RunningAt checks k s) ∨
        ∃ j < i, ∃ c', checks[j]? = some c' ∧ Raises rep scripts checks j s ∧
          (∀ k, j < k → k < i → ¬ Raises rep scripts checks k s) ∧ rep ≤ c.now - c'.now) := by
  have hclock' : ∀ o ∈ history checks s, rep ≤ o.now := by
    intro o ho
    obtain ⟨c, hc, rfl⟩ := List.mem_map.mp ho
    exact hclock c hc
  simp only [raises_iff_reportedAt hnodup hs, runningAt_iff]
  rw [reportedAt_iff hclock' (getElem?_history_of_some hc)]
  simp only [exists_getElem?_history]
  rfl

/-- The first check that sees an outage reports it. -/
theorem raises_of_outage (hnodup : scripts.Nodup) (hs : s ∈ scripts)
    (hclock : ∀ c ∈ checks, rep ≤ c.now) (hc : checks[i]? = some c) (hdown : c.running s = false)
    (hrunning : ∀ j, j + 1 = i → RunningAt checks j s) : Raises rep scripts checks i s := by
  rw [raises_iff_reportedAt hnodup hs]
  have hnow := hclock c (List.mem_of_getElem? hc)
  refine reportedAt_of_rearmed (getElem?_history_of_some hc) hdown hnow ?_
  -- the check before saw the script running
  intro j hj hrj
  obtain ⟨i, rfl⟩ := Nat.exists_eq_succ_of_ne_zero (Nat.ne_zero_of_lt hj)
  have hup := runningAt_iff.mp (hrunning i rfl)
  have hne : j ≠ i := by
    rintro rfl
    exact not_upAt_of_reportedAt hrj hup
  exact ⟨i, by omega, by omega, hup⟩

/-- Two alerts of one outage keep their distance. -/
theorem repeat_le_of_raises [IsOrderedAddMonoid T] (hnodup : scripts.Nodup) (hs : s ∈ scripts)
    (hmono : checks.Pairwise fun c c' => c.now ≤ c'.now) {j k : Nat} {c c' : Check T}
    (hjk : j < k) (hc : checks[j]? = some c) (hc' : checks[k]? = some c')
    (hj : Raises rep scripts checks j s) (hk : Raises rep scripts checks k s)
    (hdown : ∀ l, j < l → l < k → ¬ RunningAt checks l s) : rep ≤ c'.now - c.now := by
  have hmono' : (history checks s).Pairwise fun o o' => o.now ≤ o'.now :=
    List.pairwise_map.mpr hmono
  rw [raises_iff_reportedAt hnodup hs] at hj hk
  refine repeat_le_of_reportedAt hmono' hjk (getElem?_history_of_some hc)
    (getElem?_history_of_some hc') hj hk ?_
  intro l hjl hlk
  exact mt runningAt_iff.mpr (hdown l hjl hlk)

/--
**The watchdog is exact over runs.**

A check raises an alert for a script exactly when the script is down and every earlier alert for
it was followed by a check that saw it running, or its last alert is at least `REPEAT_SECONDS`
ago. So the first check that sees an outage reports it, two alerts of one outage are not closer
than `REPEAT_SECONDS`, and nothing but its own history matters for a script.
-/
theorem watchdog_exact [IsOrderedAddMonoid T] (rep : T) (scripts : List String)
    (checks : List (Check T)) (hnodup : scripts.Nodup) (hclock : ∀ c ∈ checks, rep ≤ c.now)
    (hmono : checks.Pairwise fun c c' => c.now ≤ c'.now) (s : String) (hs : s ∈ scripts) :
    (∀ i c, checks[i]? = some c →
      (Raises rep scripts checks i s ↔ c.running s = false ∧
        ((∀ j < i, Raises rep scripts checks j s → ∃ k, j < k ∧ k < i ∧ RunningAt checks k s) ∨
          ∃ j < i, ∃ c', checks[j]? = some c' ∧ Raises rep scripts checks j s ∧
            (∀ k, j < k → k < i → ¬ Raises rep scripts checks k s) ∧ rep ≤ c.now - c'.now))) ∧
    (∀ i c, checks[i]? = some c → c.running s = false →
      (∀ j, j + 1 = i → RunningAt checks j s) → Raises rep scripts checks i s) ∧
    (∀ j k c c', j < k → checks[j]? = some c → checks[k]? = some c' →
      Raises rep scripts checks j s → Raises rep scripts checks k s →
      (∀ l, j < l → l < k → ¬ RunningAt checks l s) → rep ≤ c'.now - c.now) ∧
    (∀ (scripts' : List String) (checks' : List (Check T)), scripts'.Nodup → s ∈ scripts' →
      history checks s = history checks' s →
      ∀ i, Raises rep scripts checks i s ↔ Raises rep scripts' checks' i s) ∧
    ∀ i, (alertsAt rep scripts checks i).Nodup := by
  refine ⟨fun i c hc => raises_iff hnodup hs hclock hc,
    fun i c hc => raises_of_outage hnodup hs hclock hc,
    fun j k c c' => repeat_le_of_raises hnodup hs hmono, ?_, alertsAt_nodup hnodup⟩
  intro scripts' checks' hnodup' hs' hhistory i
  rw [raises_iff_reportedAt hnodup hs, raises_iff_reportedAt hnodup' hs', hhistory]

/-- The Modbus detector is down, comes back within the repeat time and stops again. -/
def flapping : List (Check ℤ) :=
  [ ⟨1000, fun s => s == "responder.py"⟩, ⟨1100, fun s => s == "responder.py"⟩,
    ⟨1150, fun _ => true⟩, ⟨1200, fun s => s == "responder.py"⟩ ]

/-- The second outage is reported although it begins 200 seconds after the first report. -/
theorem watchdog_exact_flapping :
    Raises 300 ["modbus_anomaly.py", "responder.py"] flapping 3 "modbus_anomaly.py" := by
  refine (watchdog_exact (300 : ℤ) _ flapping (by decide) (by decide) (by decide)
    "modbus_anomaly.py" (by decide)).2.1 3 _ rfl rfl ?_
  rintro j hj
  obtain rfl : j = 2 := by omega
  exact ⟨_, rfl, rfl⟩

end OtLab.Watchdog
