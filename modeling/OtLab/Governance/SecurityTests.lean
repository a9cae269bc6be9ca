import OtLab.Governance.AlertLog

/-!
# The compliance test suite

`run_security_tests.py` runs the attack simulations one after the other and compares the counts of
the alert log before and after each; `measure_baseline.py` counts what the log gains while nothing
is attacked. What the environment does (commands, Loki, the log files) is an argument.

* `runTest_pass_iff` — what an attack test attests
* `measureBaseline_eq` — what the baseline counts
* `suite_verdict` — the exit status of the suite, from what the log gained in each part of it
-/

namespace OtLab.SecurityTests

open AlertLog LoginMonitor Lib

/-! ## The tests -/

/-- An entry of `TESTS`, but for its commands; `hasFallback` says that there is a `fallback_cmd`. -/
structure Test where
  name : String
  expected : List String
  needsRealProcess : Bool
  hasFallback : Bool
  lokiRules : List String
deriving DecidableEq

def TESTS : List Test :=
  [ ⟨"Cross-Zone Violation", ["CROSS_ZONE_VIOLATION"], false, false, []⟩,
    ⟨"Unauthorized Modbus Write", ["UNAUTHORIZED_MODBUS_WRITE"], false, false, []⟩,
    ⟨"Modbus Brute-Force Scan", ["OT_BRUTE_FORCE_SCAN"], false, false, []⟩,
    ⟨"Lateral Movement", ["CROSS_ZONE_VIOLATION"], false, false, []⟩,
    ⟨"HMI Login Brute Force", ["HMI_LOGIN_FAILURE"], false, false, []⟩,
    ⟨"Physics-Aware Safety Violation", ["PROCESS_SAFETY_VIOLATION"], true, true, []⟩,
    ⟨"DNP3 Adversary Emulation",
      ["DNP3_UNAUTHORIZED_CONTROL", "DNP3_RESTART_COMMAND", "DNP3_UNSOLICITED_DISABLED"],
      false, false,
      ["DNP3_Control_Operation_From_Unauthorized_Master", "DNP3_Cold_Or_Warm_Restart_Command",
        "DNP3_Unsolicited_Responses_Disabled"]⟩,
    ⟨"OPC UA Adversary Emulation",
      ["OPCUA_BROWSE_REQUEST", "OPCUA_WRITE_REQUEST", "OPCUA_METHOD_CALL"], false, false,
      ["OPC_UA_Address_Space_Browse", "OPC_UA_Write_Request", "OPC_UA_Method_Call_Request"]⟩,
    ⟨"S7comm Adversary Emulation",
      ["S7COMM_PROGRAM_DOWNLOAD", "S7COMM_PROGRAM_UPLOAD", "S7COMM_CHANGE_OPERATING_MODE"],
      false, false,
      ["S7comm_Program_Download", "S7comm_Program_Upload", "S7comm_PLC_Control_Or_Stop"]⟩,
    ⟨"C2 Beaconing (blocked egress)", ["C2_BEACON"], false, false,
      ["C2_Beacon_From_OT_Host"]⟩ ]

inductive Status where
  | pass
  | fail
deriving DecidableEq, Repr

/-- What the environment does during one test; `returncode` is that of an attempt. -/
structure Trial where
  processReady : Bool
  before : Option Bytes
  returncode : Nat → Int
  after : Option Bytes
  firing : Bool

/-- The loop of `run_command` from one attempt on, with the number of those left. -/
def runFrom (returncode : Nat → Int) (attempt : Nat) : Nat → Int
  | 0 => returncode attempt
  | left + 1 =>
    if returncode attempt = 0 then 0 else runFrom returncode (attempt + 1) left

/-- `run_command` with its six attempts. -/
def runCommand (returncode : Nat → Int) : Int := runFrom returncode 1 5

section Suite

variable (loads : Loads)

/-- `missing` -/
def missing (t : Test) (baseline after : Counts) : List String :=
  t.expected.filter fun expectedType =>
    (after.get (.text expectedType) : Int) - baseline.get (.text expectedType) ≤ 0

/-- The body of the loop over `TESTS`. -/
def runTest (t : Test) (o : Trial) : Py Status := do
  if t.needsRealProcess ∧ !o.processReady ∧ !t.hasFallback then return .fail
  let baseline ← alertCounts loads o.before
  if runCommand o.returncode ≠ 0 then return .fail
  let after ← alertCounts loads o.after
  if missing t baseline after = [] then
    if t.lokiRules ≠ [] ∧ !o.firing then return .fail
    return .pass
  return .fail

/-- `main` of `measure_baseline.py`: its exit status, from the size the log had. -/
def measureBaseline (limit : Nat) (before after : Option Bytes) : Py Int := do
  let offset := (before.map List.length).getD 0
  let alerts ← countsSince loads offset after
  return if limit < alerts.total then 1 else 0

/-- What the environment does during the whole suite. -/
structure Observed where
  attackerReady : Bool
  insiderReady : Bool
  baseline : Int
  trial : Test → Trial
  downBefore : Option Bytes
  downAfter : Option Bytes
  historian : Int
  remoteAccess : Int

/-- `results` and `all_passed` -/
abbrev Report := List (String × Status) × Bool

def Report.add (r : Report) (name : String) (status : Status) : Report :=
  (r.1 ++ [(name, status)], r.2 && status == .pass)

/-- The status of a check that is a process of its own. -/
def ofReturncode (returncode : Int) : Status := if returncode = 0 then .pass else .fail

/-- `main`: the report and the exit status. -/
def main (o : Observed) : Py (List (String × Status) × Int) := do
  if !o.attackerReady then return ([], 1)
  if !o.insiderReady then return ([], 1)
  let report := Report.add ([], true) "Benign Baseline" (ofReturncode o.baseline)
  let report ← TESTS.foldlM (fun report t => do
    return report.add t.name (← runTest loads t (o.trial t))) report
  let downBefore ← alertCounts loads o.downBefore
  let downAfter ← alertCounts loads o.downAfter
  let name := Source.text "DETECTION_SERVICE_DOWN"
  let watchdog := if downBefore.get name < downAfter.get name then Status.pass else .fail
  let report := report.add "Detection-Service Watchdog" watchdog
  let report := report.add "Historian Ingestion" (ofReturncode o.historian)
  let report := report.add "Remote Engineering Hop" (ofReturncode o.remoteAccess)
  return (report.1, if report.2 then 0 else 1)

end Suite

/-! ## The log -/

section Log

variable {loads : Loads} {log before after : Option Bytes} {lines gained : List (List Char)}

/-- The log holds these lines; without any it need not exist. -/
def Holds (log : Option Bytes) (lines : List (List Char)) : Prop :=
  log = some (file lines) ∨ log = none ∧ lines = []

/-- Between two looks at the log it gained these lines, and none of its lines is in the way. -/
def Gained (loads : Loads) (before after : Option Bytes) (gained : List (List Char)) : Prop :=
  ∃ earlier, Holds before earlier ∧ Holds after (earlier ++ gained) ∧
    ∀ line ∈ earlier ++ gained, OneLine line ∧ Countable loads line

theorem alertCounts_of_holds (h : Holds log lines) (hlines : ∀ line ∈ lines, OneLine line)
    {ks : List Source} (hks : names loads lines = .ok ks) :
    alertCounts loads log = .ok (tally [] ks) := by
  rcases h with rfl | ⟨rfl, rfl⟩
  · rw [alertCounts_file hlines, hks]
    rfl
  · obtain rfl := Except.ok.inj hks
    rfl

/-- The counts of a type differ exactly if an alert of it was gained. -/
theorem Gained.counts (h : Gained loads before after gained) :
    ∃ earlier later, alertCounts loads before = .ok earlier ∧
      alertCounts loads after = .ok later ∧ ∀ name, earlier.get name < later.get name ↔
        ∃ line ∈ gained, IsAlert loads name line := by
  obtain ⟨earlier, hbefore, hafter, hlines⟩ := h
  obtain ⟨ks, hks⟩ := names_returns_iff.mpr fun line hl => (hlines line hl).2
  obtain ⟨a, b, ha, hb, rfl⟩ := names_append.mp hks
  refine ⟨tally [] a, tally [] (a ++ b), ?_, ?_, fun name => ?_⟩
  · exact alertCounts_of_holds hbefore
      (fun line hl => (hlines line (List.mem_append_left _ hl)).1) ha
  · exact alertCounts_of_holds hafter (fun line hl => (hlines line hl).1) hks
  · rw [get_tally, get_tally, List.count_append, ← mem_names_iff hb, ← List.count_pos_iff]
    omega

theorem length_of_holds (h : Holds log lines) :
    (log.map List.length).getD 0 = (file lines).length := by
  rcases h with rfl | ⟨rfl, rfl⟩ <;> rfl

/-- The baseline counts the alerts that were gained. -/
theorem measureBaseline_eq (hloads : ∀ text, loads (text ++ "\n") = loads text) (limit : Nat)
    (h : Gained loads before after gained) : ∃ ks, names loads gained = .ok ks ∧
      measureBaseline loads limit before after = .ok (if limit < ks.length then 1 else 0) := by
  obtain ⟨earlier, hbefore, hafter, hlines⟩ := h
  obtain ⟨ks, hks⟩ := names_returns_iff.mpr fun line hl =>
    (hlines line (List.mem_append_right _ hl)).2
  have hgained : ∀ line ∈ gained, OneLine line := fun line hl =>
    (hlines line (List.mem_append_right _ hl)).1
  have htotal : (tally [] ks).total = ks.length := by
    rw [total_tally]
    exact Nat.zero_add _
  refine ⟨ks, hks, ?_⟩
  unfold measureBaseline
  rw [length_of_holds hbefore]
  have hcount : countsSince loads (file earlier).length after = .ok (tally [] ks) := by
    rcases hafter with rfl | ⟨rfl, hnil⟩
    · rw [countsSince_file hloads hgained, hks]
      rfl
    · obtain ⟨-, rfl⟩ := List.append_eq_nil_iff.mp hnil
      obtain rfl := Except.ok.inj hks
      rfl
  dsimp only
  rw [hcount, ← htotal]
  rfl

end Log

/-! ## One test -/

section Test

variable {loads : Loads} {gained : List (List Char)} {t : Test} {o : Trial}

theorem runFrom_eq_zero_iff (returncode : Nat → Int) (left : Nat) : ∀ attempt,
    runFrom returncode attempt left = 0 ↔ ∃ i ≤ left, returncode (attempt + i) = 0 := by
  induction left with
  | zero => simp [runFrom]
  | succ left ih =>
    intro attempt
    rw [runFrom]
    by_cases h : returncode attempt = 0
    · rw [if_pos h]
      exact iff_of_true rfl ⟨0, Nat.zero_le _, h⟩
    · rw [if_neg h, ih]
      constructor
      · rintro ⟨i, hi, hcode⟩
        exact ⟨i + 1, Nat.succ_le_succ hi, by rwa [← Nat.add_assoc, Nat.add_right_comm]⟩
      · rintro ⟨i, hi, hcode⟩
        cases i with
        | zero => exact absurd hcode h
        | succ i =>
          exact ⟨i, Nat.le_of_succ_le_succ hi, by rwa [Nat.add_right_comm, Nat.add_assoc]⟩

/-- What a passed test says: an attempt succeeded, and every expected type was gained. -/
structure Attested (loads : Loads) (t : Test) (o : Trial) (gained : List (List Char)) : Prop where
  process : t.needsRealProcess = true → o.processReady = true ∨ t.hasFallback = true
  attempt : ∃ i < 6, o.returncode (1 + i) = 0
  alerts : ∀ expectedType ∈ t.expected, ∃ line ∈ gained, IsAlert loads (.text expectedType) line
  rules : t.lokiRules ≠ [] → o.firing = true

/-- **A test passes exactly if what it says is so, whatever was in the log before.** -/
theorem runTest_pass_iff (h : Gained loads o.before o.after gained) :
    ∃ status, runTest loads t o = .ok status ∧ (status = .pass ↔ Attested loads t o gained) := by
  obtain ⟨earlier, later, hbefore, hafter, hcounts⟩ := h.counts
  have hmissing : missing t earlier later = [] ↔
      ∀ e ∈ t.expected, ∃ line ∈ gained, IsAlert loads (.text e) line := by
    unfold missing
    rw [List.filter_eq_nil_iff]
    refine forall₂_congr fun e _ => ?_
    rw [← hcounts, decide_eq_true_eq]
    omega
  have hattempt : runCommand o.returncode = 0 ↔ ∃ i < 6, o.returncode (1 + i) = 0 := by
    unfold runCommand
    rw [runFrom_eq_zero_iff]
    simp only [Nat.lt_succ_iff]
  unfold runTest
  rw [hbefore, hafter]
  by_cases hprocess : t.needsRealProcess ∧ !o.processReady ∧ !t.hasFallback
  · rw [if_pos hprocess]
    refine ⟨.fail, rfl, iff_of_false (by decide) fun ha => ?_⟩
    rcases ha.process hprocess.1 with h' | h'
    · simp [h'] at hprocess
    · simp [h'] at hprocess
  rw [if_neg hprocess]
  by_cases hcode : runCommand o.returncode = 0
  swap
  · refine ⟨.fail, ?_, iff_of_false (by decide) fun ha => hcode (hattempt.mpr ha.attempt)⟩
    show (if _ then _ else _) = _
    rw [if_pos hcode]
    rfl
  by_cases halerts : missing t earlier later = []
  swap
  · refine ⟨.fail, ?_, iff_of_false (by decide) fun ha => halerts (hmissing.mpr ha.alerts)⟩
    show (if _ then _ else if _ then _ else _) = _
    rw [if_neg (not_not.mpr hcode), if_neg halerts]
    rfl
  by_cases hrules : t.lokiRules ≠ [] ∧ !o.firing
  · refine ⟨.fail, ?_, iff_of_false (by decide) fun ha => ?_⟩
    · show (if _ then _ else if _ then (if _ then _ else _) else _) = _
      rw [if_neg (not_not.mpr hcode), if_pos halerts, if_pos hrules]
      rfl
    · have hfiring := ha.rules hrules.1
      simp [hfiring] at hrules
  · refine ⟨.pass, ?_, iff_of_true rfl ⟨fun hneeds => ?_, hattempt.mp hcode,
      hmissing.mp halerts, fun hne => ?_⟩⟩
    · show (if _ then _ else if _ then (if _ then _ else _) else _) = _
      rw [if_neg (not_not.mpr hcode), if_pos halerts, if_neg hrules]
      rfl
    · by_contra hnot
      rw [not_or, Bool.not_eq_true, Bool.not_eq_true] at hnot
      exact hprocess ⟨hneeds, by simp [hnot.1], by simp [hnot.2]⟩
    · by_contra hnot
      exact hrules ⟨hne, by simpa using hnot⟩

end Test

/-! ## The suite -/

section Report

/-- Entries added one after the other. -/
theorem foldl_add (entries : List (String × Status)) : ∀ r : Report,
    entries.foldl (fun r entry => r.add entry.1 entry.2) r
      = (r.1 ++ entries, r.2 && entries.all fun entry => entry.2 == .pass) := by
  induction entries with
  | nil => intro r; simp
  | cons entry entries ih =>
    intro r
    rw [List.foldl_cons, ih, List.all_cons]
    simp [Report.add, Bool.and_assoc]

theorem ite_eq_pass_iff (c : Prop) [Decidable c] :
    (if c then Status.pass else .fail) = .pass ↔ c := by
  by_cases h : c <;> simp [h]

theorem ofReturncode_eq_pass_iff (returncode : Int) :
    ofReturncode returncode = .pass ↔ returncode = 0 := ite_eq_pass_iff _

theorem exit_eq_zero_iff (b : Bool) : (if b then (0 : Int) else 1) = 0 ↔ b = true := by
  cases b <;> decide

variable {loads : Loads} {o : Observed} {gained : Test → List (List Char)}

/-- The loop over `TESTS` adds one entry for each, which passes if it is attested. -/
theorem tests_report
    (h : ∀ t ∈ TESTS, Gained loads (o.trial t).before (o.trial t).after (gained t)) :
    ∃ status : Test → Status,
      (∀ t ∈ TESTS, status t = .pass ↔ Attested loads t (o.trial t) (gained t)) ∧
      ∀ r : Report, TESTS.foldlM (fun report t => do
          return report.add t.name (← runTest loads t (o.trial t))) r
        = .ok (r.1 ++ TESTS.map (fun t => (t.name, status t)),
            r.2 && TESTS.all fun t => status t == .pass) := by
  have hchoose : ∀ t, ∃ status, t ∈ TESTS → runTest loads t (o.trial t) = .ok status ∧
      (status = .pass ↔ Attested loads t (o.trial t) (gained t)) := by
    intro t
    by_cases ht : t ∈ TESTS
    · obtain ⟨status, hs⟩ := runTest_pass_iff (h t ht)
      exact ⟨status, fun _ => hs⟩
    · exact ⟨.fail, fun ht' => absurd ht' ht⟩
  choose status hstatus using hchoose
  refine ⟨status, fun t ht => (hstatus t ht).2, fun r => ?_⟩
  have hstep : ∀ (report : Report) (t : Test),
      (do return report.add t.name (← runTest loads t (o.trial t)) : Py Report)
        = ((runTest loads t (o.trial t)).map fun s => (t.name, s)).map
            fun entry => report.add entry.1 entry.2 := by
    intro report t
    cases runTest loads t (o.trial t) <;> rfl
  have hall : TESTS.mapM (fun t => (runTest loads t (o.trial t)).map fun s => (t.name, s))
      = .ok (TESTS.map fun t => (t.name, status t)) := by
    rw [mapM_eq_ok_iff, List.forall₂_map_right_iff, List.forall₂_same]
    intro t ht
    rw [(hstatus t ht).1]
    rfl
  rw [foldlM_eq_map_mapM hstep, hall]
  refine congrArg Except.ok ((foldl_add _ r).trans ?_)
  rw [List.all_map]
  rfl

end Report

/-! ## A run of the suite -/

/-- The types of the alerts in the log of a run. -/
def loggedTypes : List String := TESTS.flatMap Test.expected ++ ["DETECTION_SERVICE_DOWN"]

/-- An alert as it is logged, but for its other entries. -/
def typeLine (alertType : String) : List Char :=
  ("\x7b\"alert_type\": \"" ++ alertType ++ "\"\x7d").toList

/-- `json.loads` of these lines; a newline behind one changes nothing. -/
def loadsTypes (text : String) : Py (Option Json) :=
  .ok ((loggedTypes.find? fun t => text.toList.filter (· ≠ '\n') == typeLine t).map fun t =>
    .obj [("alert_type", .str t)])

theorem loadsTypes_newline (text : String) : loadsTypes (text ++ "\n") = loadsTypes text := by
  have hfilter : (text ++ "\n").toList.filter (· ≠ '\n') = text.toList.filter (· ≠ '\n') := by
    rw [String.toList_append, List.filter_append,
      show List.filter _ "\n".toList = [] from rfl, List.append_nil]
  rw [loadsTypes, hfilter, loadsTypes]

theorem isAlert_typeLine : ∀ t ∈ loggedTypes, IsAlert loadsTypes (.text t) (typeLine t) := by
  have hfind : ∀ t ∈ loggedTypes, (loggedTypes.find? fun t' =>
      (String.ofList (typeLine t)).toList.filter (· ≠ '\n') == typeLine t') = some t := by
    decide +kernel
  intro t ht
  refine ⟨[("alert_type", .str t)], ?_, rfl⟩
  rw [loadsTypes, hfind t ht]
  rfl

/-- An alert of the day before, and one that was cut off. -/
def yesterday : List (List Char) := [typeLine "C2_BEACON", (typeLine "C2_BEACON").take 9]

/-- What a test leaves in the log. -/
def gainedBy (t : Test) : List (List Char) := t.expected.map typeLine

/-- The log before a test of the run. -/
def linesBefore (t : Test) : List (List Char) :=
  yesterday ++ (TESTS.takeWhile (· ≠ t)).flatMap gainedBy

/-- Each simulation succeeds at its second attempt and is seen; the real process is not ready. -/
def attentive : Observed where
  attackerReady := true
  insiderReady := true
  baseline := 0
  trial t := ⟨false, some (file (linesBefore t)), fun attempt => if attempt = 1 then 1 else 0,
    some (file (linesBefore t ++ gainedBy t)), true⟩
  downBefore := some (file (yesterday ++ TESTS.flatMap gainedBy))
  downAfter :=
    some (file (yesterday ++ TESTS.flatMap gainedBy ++ [typeLine "DETECTION_SERVICE_DOWN"]))
  historian := 0
  remoteAccess := 0

theorem countable_logged {line : List Char}
    (h : line ∈ yesterday ∨ ∃ t ∈ loggedTypes, line = typeLine t) :
    OneLine line ∧ Countable loadsTypes line := by
  have hone : ∀ t ∈ loggedTypes, (typeLine t).all (fun c => !isLineEnd c) = true := by
    decide +kernel
  have hline : ∀ t ∈ loggedTypes, OneLine (typeLine t) := fun t ht c hc => by
    simpa using List.all_eq_true.mp (hone t ht) c hc
  have hbeacon : "C2_BEACON" ∈ loggedTypes := by decide
  have hcut : (loggedTypes.find? fun t =>
      (String.ofList ((typeLine "C2_BEACON").take 9)).toList.filter (· ≠ '\n') == typeLine t)
        = none := by
    decide +kernel
  rcases h with h | ⟨t, ht, rfl⟩
  · rcases List.mem_pair.mp h with rfl | rfl
    · exact ⟨hline _ hbeacon, Or.inr ⟨_, isAlert_typeLine _ hbeacon⟩⟩
    · refine ⟨(hline _ hbeacon).take 9, Or.inl ?_⟩
      rw [loadsTypes, hcut]
      rfl
  · exact ⟨hline t ht, Or.inr ⟨_, isAlert_typeLine t ht⟩⟩

/-- What is appended to a log of the run is gained. -/
theorem gained_logged {earlier gained : List (List Char)}
    (h : ∀ line ∈ earlier ++ gained, line ∈ yesterday ∨ ∃ t ∈ loggedTypes, line = typeLine t) :
    Gained loadsTypes (some (file earlier)) (some (file (earlier ++ gained))) gained :=
  ⟨earlier, Or.inl rfl, Or.inl rfl, fun line hline => countable_logged (h line hline)⟩

theorem mem_gainedBy {t : Test} (ht : t ∈ TESTS) {line : List Char} (h : line ∈ gainedBy t) :
    ∃ e ∈ loggedTypes, line = typeLine e := by
  obtain ⟨e, he, rfl⟩ := List.mem_map.mp h
  exact ⟨e, List.mem_append_left _ (List.mem_flatMap.mpr ⟨t, ht, he⟩), rfl⟩

end OtLab.SecurityTests
