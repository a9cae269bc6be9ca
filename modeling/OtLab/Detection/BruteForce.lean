import Mathlib.Algebra.Order.Ring.Rat
import OtLab.Lib.Window
import OtLab.Net.Packet

/-!
# The brute-force detector

`ot_brute_force.py` keeps the times of the recent Modbus exceptions of every source and empties
the list of a source it has just reported. Up to the first report of a source its list is a
sliding-window tracker that only its own exceptions move.

* `reported_iff_fired` — a source is reported exactly when the tracker over its exceptions fires
-/

namespace OtLab.BruteForce

open Lib

/-! ## The detector -/

/-- `error_tracker`; a missing list is empty. -/
abbrev ErrorTracker := IPv4 → List ℚ

/-- The alert `process_packet` has `log_alert` write. -/
def alert (srcIp : IPv4) (count : Nat) : Dict :=
  [ ("alert_type", .str "OT_BRUTE_FORCE_SCAN"),
    ("source_ip", .str srcIp.str),
    ("error_count", .int count),
    ("mitre_id", .str "T0846"),
    ("description", .str
      "Excessive Modbus exceptions detected. Possible scanning or brute-force activity.") ]

variable (windowSeconds : ℚ) (errorThreshold : Nat)

/-- `process_packet` at the clock reading `currentTime`, with the alert it writes. -/
def processPacket (packet : Packet) (currentTime : ℚ) (tracker : ErrorTracker) :
    ErrorTracker × Option Dict :=
  match packet.functionCode? with
  | none => (tracker, none)
  | some functionCode =>
    if 128 < functionCode then
      let times := inWindow windowSeconds currentTime (tracker packet.src ++ [currentTime])
      if errorThreshold ≤ times.length then
        (Function.update tracker packet.src [], some (alert packet.src times.length))
      else (Function.update tracker packet.src times, none)
    else (tracker, none)

/-- A packet handed to `process_packet` and the time it is handled. -/
structure Sighting where
  packet : Packet
  now : ℚ

/-- One packet, on the lists and the alerts written so far. -/
def handle (st : ErrorTracker × List Dict) (x : Sighting) : ErrorTracker × List Dict :=
  let r := processPacket windowSeconds errorThreshold x.packet x.now st.1
  (r.1, st.2 ++ r.2.toList)

/-- A whole capture; `reset_state` empties every list. -/
def capture (xs : List Sighting) : ErrorTracker × List Dict :=
  run (handle windowSeconds errorThreshold) (fun _ => [], []) xs

/-- The sources the alerts name. -/
def sources (alerts : List Dict) : Set IPv4 := {s | ∃ count, alert s count ∈ alerts}

/-- The packet is a Modbus exception of `s`. -/
def isException (s : IPv4) (packet : Packet) : Bool :=
  packet.src = s ∧ ∃ code ∈ packet.functionCode?, 128 < code

/-- The times of the exceptions of `s`, in order. -/
def exceptionTimes (s : IPv4) (xs : List Sighting) : List ℚ :=
  (xs.filter fun x => isException s x.packet).map Sighting.now

/-! ## The list of one source -/

section Source

variable {windowSeconds : ℚ} {errorThreshold : Nat} {s : IPv4} {x : Sighting}
  {st : ErrorTracker × List Dict} {tr : Tracker ℚ}

theorem alert_inj {s s' : IPv4} {n n' : Nat} (h : alert s n = alert s' n') : s = s' := by
  simp only [alert, List.cons.injEq, Prod.mk.injEq, Value.str.injEq, true_and] at h
  exact IPv4.str_injective h.1

theorem alert_count_inj {n m : Nat} (h : alert s n = alert s m) : n = m := by
  simpa [alert] using h

/-- A packet that is no exception of `s` writes no alert for `s` and leaves its list alone. -/
theorem processPacket_of_not_exception {tracker : ErrorTracker}
    (h : isException s x.packet = false) :
    (processPacket windowSeconds errorThreshold x.packet x.now tracker).1 s = tracker s ∧
      ∀ count, (processPacket windowSeconds errorThreshold x.packet x.now tracker).2
        ≠ some (alert s count) := by
  unfold processPacket
  cases hcode : x.packet.functionCode? with
  | none => simp
  | some code =>
    by_cases hc : 128 < code
    · have hne : s ≠ x.packet.src := by
        rintro rfl
        simp [isException, hcode, hc] at h
      simp only [if_pos hc]
      split
      · refine ⟨Function.update_of_ne hne _ _, fun count heq => ?_⟩
        exact hne (alert_inj (Option.some.inj heq)).symm
      · exact ⟨Function.update_of_ne hne _ _, by simp⟩
    · simp [hc]

/-- An exception of `s` goes onto its list, which is emptied when it is long enough. -/
theorem processPacket_of_exception {tracker : ErrorTracker} (h : isException s x.packet = true) :
    let times := inWindow windowSeconds x.now (tracker s ++ [x.now])
    (errorThreshold ≤ times.length ∧
      (processPacket windowSeconds errorThreshold x.packet x.now tracker).1 s = [] ∧
      (processPacket windowSeconds errorThreshold x.packet x.now tracker).2
        = some (alert s times.length)) ∨
    (¬ errorThreshold ≤ times.length ∧
      (processPacket windowSeconds errorThreshold x.packet x.now tracker).1 s = times ∧
      (processPacket windowSeconds errorThreshold x.packet x.now tracker).2 = none) := by
  obtain ⟨rfl, code, hcode, hc⟩ := of_decide_eq_true h
  intro times
  unfold processPacket
  rw [Option.mem_def.mp hcode]
  simp only [if_pos hc]
  by_cases hreach : errorThreshold ≤ times.length
  · left
    rw [if_pos hreach]
    exact ⟨hreach, Function.update_self _ _ _, rfl⟩
  · right
    rw [if_neg hreach]
    exact ⟨hreach, Function.update_self _ _ _, rfl⟩

/-- What an exception of `s` does depends on the list of `s` only. -/
theorem processPacket_congr {tracker tracker' : ErrorTracker}
    (hexc : isException s x.packet = true) (h : tracker s = tracker' s) :
    (processPacket windowSeconds errorThreshold x.packet x.now tracker).1 s
        = (processPacket windowSeconds errorThreshold x.packet x.now tracker').1 s ∧
      (processPacket windowSeconds errorThreshold x.packet x.now tracker).2
        = (processPacket windowSeconds errorThreshold x.packet x.now tracker').2 := by
  have hleft := @processPacket_of_exception windowSeconds errorThreshold s x tracker hexc
  have hright := @processPacket_of_exception windowSeconds errorThreshold s x tracker' hexc
  rw [h] at hleft
  obtain ⟨hreach, hlist, halert⟩ | ⟨hreach, hlist, halert⟩ := hleft <;>
    rcases hright with ⟨hreach', hlist', halert'⟩ | ⟨hreach', hlist', halert'⟩
  · exact ⟨hlist.trans hlist'.symm, halert.trans halert'.symm⟩
  · exact absurd hreach hreach'
  · exact absurd hreach' hreach
  · exact ⟨hlist.trans hlist'.symm, halert.trans halert'.symm⟩

/-- A packet that is no exception of `s` leaves the list of `s` and its reports alone. -/
theorem handle_of_not_exception (h : isException s x.packet = false) :
    (handle windowSeconds errorThreshold st x).1 s = st.1 s ∧
      (s ∈ sources (handle windowSeconds errorThreshold st x).2 ↔ s ∈ sources st.2) := by
  obtain ⟨hlist, hother⟩ := @processPacket_of_not_exception windowSeconds errorThreshold s x st.1 h
  refine ⟨hlist, ?_⟩
  constructor
  · rintro ⟨count, hcount⟩
    rcases List.mem_append.mp hcount with hcount | hcount
    · exact ⟨count, hcount⟩
    · exact absurd (Option.mem_toList.mp hcount) (hother count)
  · rintro ⟨count, hcount⟩
    exact ⟨count, List.mem_append_left _ hcount⟩

/-- An exception of `s` empties its list and reports it, or goes onto the list. -/
theorem handle_of_exception (hw : 0 < windowSeconds) (h : isException s x.packet = true) :
    (errorThreshold ≤ (inWindow windowSeconds x.now (st.1 s) ++ [x.now]).length ∧
      s ∈ sources (handle windowSeconds errorThreshold st x).2) ∨
    (¬ errorThreshold ≤ (inWindow windowSeconds x.now (st.1 s) ++ [x.now]).length ∧
      (handle windowSeconds errorThreshold st x).1 s
        = inWindow windowSeconds x.now (st.1 s) ++ [x.now] ∧
      (handle windowSeconds errorThreshold st x).2 = st.2) := by
  have hnow : inWindow windowSeconds x.now (st.1 s ++ [x.now])
      = inWindow windowSeconds x.now (st.1 s) ++ [x.now] := by
    rw [inWindow_append]
    simp [inWindow, hw]
  have hcases := @processPacket_of_exception windowSeconds errorThreshold s x st.1 h
  rw [hnow] at hcases
  rcases hcases with ⟨hreach, -, halert⟩ | ⟨hreach, hlist, halert⟩
  · refine Or.inl ⟨hreach, (inWindow windowSeconds x.now (st.1 s) ++ [x.now]).length, ?_⟩
    exact List.mem_append_right _ (Option.mem_toList.mpr halert)
  · refine Or.inr ⟨hreach, hlist, ?_⟩
    show st.2 ++ Option.toList _ = st.2
    rw [halert]
    exact List.append_nil _

theorem sources_handle (h : s ∈ sources st.2) :
    s ∈ sources (handle windowSeconds errorThreshold st x).2 := by
  obtain ⟨count, hc⟩ := h
  exact ⟨count, List.mem_append_left _ hc⟩

/-- The tracker has fired if the source is reported, and holds its list until then. -/
structure Follows (s : IPv4) (st : ErrorTracker × List Dict) (tr : Tracker ℚ) : Prop where
  fired : tr.fired = true ↔ s ∈ sources st.2
  kept : tr.fired = false → st.1 s = tr.kept

theorem Follows.handle_exception (hw : 0 < windowSeconds) (h : Follows s st tr)
    (hx : isException s x.packet = true) :
    Follows s (handle windowSeconds errorThreshold st x)
      (tr.observe windowSeconds errorThreshold x.now) := by
  cases hf : tr.fired with
  | true =>
    rw [Tracker.observe_of_fired hf]
    refine ⟨iff_of_true hf (sources_handle (h.fired.mp hf)), fun hnot => ?_⟩
    rw [hf] at hnot
    cases hnot
  | false =>
    have hkept := h.kept hf
    have hnone : s ∉ sources st.2 := fun hs => by
      rw [h.fired.mpr hs] at hf
      cases hf
    rw [Tracker.observe_of_not_fired hf]
    unfold Tracker.fires Tracker.prune
    rw [hf, ← hkept]
    obtain ⟨hreach, hs⟩ | ⟨hreach, hlist, halerts⟩ :=
      @handle_of_exception _ errorThreshold s x st hw hx
    · have hfires := decide_eq_true hreach
      refine ⟨iff_of_true hfires hs, fun hnot => ?_⟩
      cases hfires.symm.trans hnot
    · refine ⟨iff_of_false ?_ ?_, fun _ => hlist⟩
      · simpa using hreach
      · rwa [halerts]

theorem Follows.handle (errorThreshold : Nat) (x : Sighting) (hw : 0 < windowSeconds)
    (h : Follows s st tr) :
    Follows s (handle windowSeconds errorThreshold st x)
      (if isException s x.packet then tr.observe windowSeconds errorThreshold x.now else tr) := by
  by_cases hx : isException s x.packet = true
  · rw [if_pos hx]
    exact h.handle_exception hw hx
  · rw [if_neg hx]
    obtain ⟨hlist, hsources⟩ := handle_of_not_exception (Bool.not_eq_true _ ▸ hx)
    exact ⟨h.fired.trans hsources.symm, fun hf => hlist.trans (h.kept hf)⟩

theorem Follows.run (hw : 0 < windowSeconds) (xs : List Sighting) :
    ∀ {st tr}, Follows s st tr →
      Follows s (run (BruteForce.handle windowSeconds errorThreshold) st xs)
        (run (Tracker.observe windowSeconds errorThreshold) tr (exceptionTimes s xs)) := by
  induction xs with
  | nil => exact id
  | cons x xs ih =>
    intro st tr h
    have hstep := ih (h.handle errorThreshold x hw)
    rw [run_cons]
    unfold exceptionTimes at hstep ⊢
    rw [List.filter_cons]
    by_cases hx : isException s x.packet = true
    · rw [if_pos hx] at hstep ⊢
      exact hstep
    · rw [if_neg hx] at hstep ⊢
      exact hstep

/-- **A source is reported exactly when the tracker over its exceptions has fired.** -/
theorem reported_iff_fired (hw : 0 < windowSeconds) (xs : List Sighting) :
    s ∈ sources (capture windowSeconds errorThreshold xs).2 ↔
      (run (Tracker.observe windowSeconds errorThreshold) Tracker.fresh
        (exceptionTimes s xs)).fired = true := by
  refine (Follows.run hw xs ⟨?_, fun _ => rfl⟩).fired.symm
  simp [Tracker.fresh, sources]

end Source

end OtLab.BruteForce
