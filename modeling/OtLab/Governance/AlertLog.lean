import Mathlib.Data.List.ReduceOption
import OtLab.Lib.Accumulate
import OtLab.Lib.Lines
import OtLab.Py.Utf8
import OtLab.Response.LoginMonitor

/-!
# The readers of the alert log

`alerts.json` grows by a line for every alert. The test suite counts the alerts of each type before
and after an attack, the baseline counts those behind the size the file had, and the metrics load
them all. They cut the text into lines in two ways and treat bad lines alike.

* `countLines_eq` — a log is counted by the names its lines have
* `readers_agree` — what the three readers make of a log that has grown
-/

namespace OtLab.AlertLog

open Lib LoginMonitor

/-! ## Text files -/

/-- What reading a text file makes of `\r\n` and of `\r`, possibly behind a `\r`. -/
def universalNewlines (afterReturn : Bool) : List Char → List Char
  | [] => []
  | c :: l =>
    if c = '\r' then '\n' :: universalNewlines true l
    else if c = '\n' ∧ afterReturn then universalNewlines false l
    else c :: universalNewlines false l

/-- A text file from an octet on. -/
def readFrom (offset : Nat) (file : Bytes) : Py (List Char) :=
  match Bytes.decodeUtf8Strict (file.drop offset) with
  | some s => .ok (universalNewlines false s.toList)
  | none => .error .valueError

/-- The ends of lines `str.splitlines` knows. -/
def lineEnds : List Char :=
  ['\n', '\r', '\x0b', '\x0c', '\x1c', '\x1d', '\x1e', '\u0085', '\u2028', '\u2029']

def isLineEnd (c : Char) : Bool := c ∈ lineEnds

/-- `text.splitlines()`, of a text without `\r`. -/
def splitlines (text : List Char) : List (List Char) := pieces isLineEnd [] text

/-- `for line in handle`, the lines with their ends. -/
def iterated (text : List Char) : List (List Char) :=
  let s := splitLines '\n' [] text
  s.1 ++ if s.2.isEmpty then [] else [s.2]

/-! ## Counters -/

/-- A dictionary of counts. -/
abbrev Counts := List (Source × Nat)

namespace Counts

/-- `counts.get(name, 0)`. -/
def get (counts : Counts) (name : Source) : Nat := (counts.lookup name).getD 0

/-- `counts[name] = counts.get(name, 0) + 1`. -/
def increment (name : Source) : Counts → Counts
  | [] => [(name, 1)]
  | (key, n) :: counts =>
    if key = name then (key, n + 1) :: counts else (key, n) :: increment name counts

/-- `sum(counts.values())`. -/
def total (counts : Counts) : Nat := (counts.map Prod.snd).sum

end Counts

/-! ## The readers -/

section Readers

variable (loads : Loads)

/-- A line that is no JSON is skipped, an alert is counted under its type. -/
def countAlert (counts : Counts) : Option Json → Py Counts
  | none => .ok counts
  | some (.obj alert) => do return counts.increment (← key (Json.get alert "alert_type"))
  | some _ => .error .attributeError

/-- The loop of both counting readers. -/
def countLines (counts : Counts) (lines : List (List Char)) : Py Counts :=
  lines.foldlM (fun counts line => do countAlert counts (← loads (String.ofList line))) counts

/-- `alert_counts`; `none` is a log that does not exist. -/
def alertCounts : Option Bytes → Py Counts
  | none => .ok []
  | some file => do countLines loads [] (splitlines (← readFrom 0 file))

/-- `counts_since`. -/
def countsSince (offset : Nat) : Option Bytes → Py Counts
  | none => .ok []
  | some file => do countLines loads [] (iterated (← readFrom offset file))

/-- `load_alerts` of the metrics, which keeps whatever a line decodes to. -/
def loadAlerts : Option Bytes → Py (List Json)
  | none => .ok []
  | some file => do
    (splitlines (← readFrom 0 file)).foldlM (fun alerts line => do
      return alerts ++ (← loads (String.ofList line)).toList) []

end Readers

/-! ## Counts -/

section Counting

variable {counts : Counts} {name k : Source}

theorem Counts.get_cons (key : Source) (n : Nat) :
    Counts.get ((key, n) :: counts) name = if key = name then n else counts.get name := by
  unfold get
  rw [List.lookup_cons]
  by_cases h : key = name
  · rw [if_pos h, h, beq_self_eq_true]
    rfl
  · rw [if_neg h, beq_false_of_ne (Ne.symm h)]

theorem Counts.get_increment :
    (counts.increment k).get name = counts.get name + if k = name then 1 else 0 := by
  induction counts with
  | nil =>
    rw [increment, get_cons]
    exact (Nat.zero_add _).symm
  | cons entry counts ih =>
    obtain ⟨key, n⟩ := entry
    rw [increment]
    by_cases hkey : key = k
    · rw [if_pos hkey, get_cons, get_cons, ← hkey]
      split <;> rfl
    · rw [if_neg hkey, get_cons, get_cons, ih]
      by_cases hname : key = name
      · have hne : ¬ k = name := fun h => hkey (hname.trans h.symm)
        rw [if_pos hname, if_pos hname, if_neg hne]
        rfl
      · rw [if_neg hname, if_neg hname]

theorem Counts.total_increment : (counts.increment k).total = counts.total + 1 := by
  unfold total
  induction counts with
  | nil => rfl
  | cons entry counts ih =>
    obtain ⟨key, n⟩ := entry
    rw [increment]
    by_cases hkey : key = k
    · rw [if_pos hkey]
      simp only [List.map_cons, List.sum_cons]
      omega
    · rw [if_neg hkey]
      simp only [List.map_cons, List.sum_cons]
      omega

/-- The counts after some names. -/
def tally (counts : Counts) (names : List Source) : Counts :=
  names.foldl (fun counts name => counts.increment name) counts

theorem get_tally (names : List Source) :
    ∀ {counts : Counts}, (tally counts names).get name = counts.get name + names.count name := by
  induction names with
  | nil => simp [tally]
  | cons k names ih =>
    intro counts
    have hstep : (tally (counts.increment k) names).get name = _ := ih
    rw [tally, List.foldl_cons]
    refine hstep.trans ?_
    rw [Counts.get_increment, List.count_cons, add_assoc]
    by_cases h : k = name <;> simp [h, add_comm]

theorem total_tally (names : List Source) :
    ∀ {counts : Counts}, (tally counts names).total = counts.total + names.length := by
  induction names with
  | nil => simp [tally]
  | cons k names ih =>
    intro counts
    have hstep : (tally (counts.increment k) names).total = _ := ih
    rw [tally, List.foldl_cons]
    refine hstep.trans ?_
    rw [Counts.total_increment, List.length_cons]
    omega

end Counting

/-! ## The alerts of some lines -/

section Lines

variable {loads : Loads} {line : List Char} {lines lines' : List (List Char)} {counts : Counts}
  {k : Source} {ks : List Source}

/-- The type an alert is counted under, if the line is one. -/
def nameOf : Option Json → Py (Option Source)
  | none => .ok none
  | some (.obj alert) => do return some (← key (Json.get alert "alert_type"))
  | some _ => .error .attributeError

def nameOn (loads : Loads) (line : List Char) : Py (Option Source) := do
  nameOf (← loads (String.ofList line))

/-- The types of the alerts on some lines. -/
def names (loads : Loads) (lines : List (List Char)) : Py (List Source) := do
  return (← lines.mapM (nameOn loads)).reduceOption

/-- The line is an alert of the type. -/
def IsAlert (loads : Loads) (name : Source) (line : List Char) : Prop :=
  ∃ alert, loads (String.ofList line) = .ok (some (.obj alert)) ∧
    key (Json.get alert "alert_type") = .ok name

/-- The line is no JSON, or an object whose type has a hash. -/
def Countable (loads : Loads) (line : List Char) : Prop :=
  loads (String.ofList line) = .ok none ∨ ∃ name, IsAlert loads name line

theorem countAlert_eq (counts : Counts) (decoded : Option Json) :
    countAlert counts decoded = (nameOf decoded).map fun name => tally counts name.toList := by
  rcases decoded with _ | json
  · rfl
  · cases json with
    | obj alert =>
      unfold countAlert nameOf
      dsimp only
      cases key (Json.get alert "alert_type") <;> rfl
    | _ => rfl

theorem foldl_tally (os : List (Option Source)) : ∀ counts : Counts,
    os.foldl (fun counts name => tally counts name.toList) counts
      = tally counts os.reduceOption := by
  induction os with
  | nil => exact fun _ => rfl
  | cons o os ih =>
    intro counts
    rw [List.foldl_cons, ih]
    cases o with
    | none => rw [List.reduceOption_cons_of_none]; rfl
    | some k => rw [List.reduceOption_cons_of_some]; rfl

/-- The loop counts the types of the alerts. -/
theorem countLines_eq (loads : Loads) (lines : List (List Char)) (counts : Counts) :
    countLines loads counts lines = (names loads lines).map (tally counts) := by
  have hstep : ∀ counts line, (do countAlert counts (← loads (String.ofList line)))
      = (nameOn loads line).map fun name => tally counts name.toList := by
    intro counts line
    unfold nameOn
    cases loads (String.ofList line) with
    | error e => rfl
    | ok decoded => exact countAlert_eq counts decoded
  unfold countLines names
  rw [foldlM_eq_map_mapM hstep lines counts]
  cases lines.mapM (nameOn loads) with
  | error e => rfl
  | ok os => exact congrArg Except.ok (foldl_tally os counts)

theorem nameOf_eq_ok_iff {decoded : Option Json} {name : Option Source} :
    nameOf decoded = .ok name ↔ (decoded = none ∧ name = none) ∨ ∃ alert k,
      decoded = some (.obj alert) ∧ key (Json.get alert "alert_type") = .ok k ∧ name = some k := by
  rcases decoded with _ | json
  · simp [nameOf, eq_comm]
  · cases json with
    | obj alert =>
      unfold nameOf
      dsimp only
      cases hk : key (Json.get alert "alert_type") with
      | error e => simp [hk, bind, Except.bind]
      | ok k => simp [hk, bind, Except.bind, pure, Except.pure, eq_comm]
    | _ => simp [nameOf]

theorem nameOn_eq_some_iff : nameOn loads line = .ok (some k) ↔ IsAlert loads k line := by
  rw [nameOn, bind_eq_ok_iff]
  constructor
  · rintro ⟨decoded, hline, hname⟩
    rcases nameOf_eq_ok_iff.mp hname with ⟨-, hnone⟩ | ⟨alert, k', rfl, hk, heq⟩
    · cases hnone
    · obtain rfl := Option.some.inj heq
      exact ⟨alert, hline, hk⟩
  · rintro ⟨alert, hline, hk⟩
    exact ⟨_, hline, nameOf_eq_ok_iff.mpr (Or.inr ⟨alert, k, rfl, hk, rfl⟩)⟩

theorem nameOn_returns_iff : (∃ name, nameOn loads line = .ok name) ↔ Countable loads line := by
  constructor
  · rintro ⟨_ | k, h⟩
    · obtain ⟨decoded, hline, hname⟩ := bind_eq_ok_iff.mp h
      rcases nameOf_eq_ok_iff.mp hname with ⟨rfl, -⟩ | ⟨alert, k, -, -, hsome⟩
      · exact Or.inl hline
      · cases hsome
    · exact Or.inr ⟨k, nameOn_eq_some_iff.mp h⟩
  · rintro (hline | ⟨k, h⟩)
    · exact ⟨none, bind_eq_ok_iff.mpr ⟨none, hline, rfl⟩⟩
    · exact ⟨some k, nameOn_eq_some_iff.mpr h⟩

theorem names_eq_ok_iff :
    names loads lines = .ok ks ↔
      ∃ os, lines.mapM (nameOn loads) = .ok os ∧ ks = os.reduceOption := by
  rw [names, bind_eq_ok_iff]
  exact exists_congr fun os => and_congr_right fun _ =>
    ⟨fun h => (Except.ok.inj h).symm, fun h => congrArg Except.ok h.symm⟩

theorem names_returns_iff :
    (∃ ks, names loads lines = .ok ks) ↔ ∀ line ∈ lines, Countable loads line := by
  simp only [← nameOn_returns_iff, ← mapM_returns_iff, names_eq_ok_iff]
  exact ⟨fun ⟨_, os, h, _⟩ => ⟨os, h⟩, fun ⟨os, h⟩ => ⟨_, os, h, rfl⟩⟩

theorem mem_names_iff (h : names loads lines = .ok ks) :
    k ∈ ks ↔ ∃ line ∈ lines, IsAlert loads k line := by
  obtain ⟨os, hos, rfl⟩ := names_eq_ok_iff.mp h
  simp only [List.reduceOption_mem_iff, mem_mapM_iff hos, nameOn_eq_some_iff]

theorem names_append : names loads (lines ++ lines') = .ok ks ↔ ∃ a b,
    names loads lines = .ok a ∧ names loads lines' = .ok b ∧ ks = a ++ b := by
  simp only [names_eq_ok_iff, mapM_append_eq_ok_iff]
  constructor
  · rintro ⟨_, ⟨os, os', hos, hos', rfl⟩, rfl⟩
    exact ⟨_, _, ⟨os, hos, rfl⟩, ⟨os', hos', rfl⟩, List.reduceOption_append os os'⟩
  · rintro ⟨_, _, ⟨os, hos, rfl⟩, ⟨os', hos', rfl⟩, rfl⟩
    exact ⟨_, ⟨os, os', hos, hos', rfl⟩, (List.reduceOption_append os os').symm⟩

/-- White space behind a line changes nothing. -/
theorem names_ended (hloads : ∀ text, loads (text ++ "\n") = loads text)
    (lines : List (List Char)) : names loads (lines.map (· ++ ['\n'])) = names loads lines := by
  have hline : (fun line => nameOn loads (line ++ ['\n'])) = nameOn loads := by
    funext line
    rw [nameOn, String.ofList_append, show String.ofList ['\n'] = "\n" from rfl, hloads, nameOn]
  rw [names, List.mapM_map, names]
  exact congrArg (· >>= _) (congrArg (lines.mapM ·) hline)

end Lines

/-! ## Files -/

section Files

variable {loads : Loads} {lines before during : List (List Char)} {name : Source}

/-- The log after these lines were appended. -/
def file (lines : List (List Char)) : Bytes :=
  Bytes.encodeUtf8 (String.ofList (ended '\n' lines))

/-- The line holds no end of a line, as nothing that `json.dumps` returns does. -/
def OneLine (line : List Char) : Prop := ∀ c ∈ line, isLineEnd c = false

theorem oneLine_toList {s : String} {line : List Char} (h : s = String.ofList line)
    (hline : line.all (fun c => !isLineEnd c) = true) : OneLine s.toList := by
  subst h
  rw [String.toList_ofList]
  intro c hc
  simpa using List.all_eq_true.mp hline c hc

theorem oneLine_append {s t : String} (hs : OneLine s.toList) (ht : OneLine t.toList) :
    OneLine (s ++ t).toList := by
  intro c hc
  rw [String.toList_append] at hc
  rcases List.mem_append.mp hc with hc | hc
  · exact hs c hc
  · exact ht c hc

theorem OneLine.take {line : List Char} (h : OneLine line) (n : Nat) : OneLine (line.take n) :=
  fun c hc => h c (List.mem_of_mem_take hc)

theorem file_append (before during : List (List Char)) :
    file (before ++ during) = file before ++ file during := by
  unfold file Bytes.encodeUtf8
  rw [ended_append, String.toList_ofList, String.toList_ofList, String.toList_ofList,
    List.flatMap_append]

theorem universalNewlines_of_not_mem {text : List Char} (h : '\r' ∉ text) :
    universalNewlines false text = text := by
  induction text with
  | nil => rfl
  | cons c text ih =>
    rw [List.mem_cons, not_or] at h
    rw [universalNewlines, if_neg (Ne.symm h.1), if_neg (fun hc => by cases hc.2), ih h.2]

theorem return_not_mem_ended (h : ∀ line ∈ lines, OneLine line) : '\r' ∉ ended '\n' lines := by
  intro hmem
  obtain ⟨line, hline, hc⟩ := List.mem_flatMap.mp hmem
  rcases List.mem_append.mp hc with hc | hc
  · exact absurd (h line hline _ hc) (by decide)
  · exact absurd (List.mem_singleton.mp hc) (by decide)

/-- Behind the lines that were there before, a file holds those appended since. -/
theorem readFrom_file (h : ∀ line ∈ during, OneLine line) :
    readFrom (file before).length (file (before ++ during)) = .ok (ended '\n' during) := by
  have hdecoded : Bytes.decodeUtf8Strict (file during)
      = some (String.ofList (ended '\n' during)) := Bytes.decodeUtf8Strict_eq_some_iff.mpr rfl
  unfold readFrom
  rw [file_append, List.drop_left, hdecoded]
  dsimp only
  rw [String.toList_ofList, universalNewlines_of_not_mem (return_not_mem_ended h)]

theorem readFrom_zero (h : ∀ line ∈ lines, OneLine line) :
    readFrom 0 (file lines) = .ok (ended '\n' lines) := @readFrom_file [] lines h

theorem splitlines_ended (h : ∀ line ∈ lines, OneLine line) :
    splitlines (ended '\n' lines) = lines := pieces_ended (by decide) h

theorem iterated_ended (h : ∀ line ∈ lines, OneLine line) :
    iterated (ended '\n' lines) = lines.map (· ++ ['\n']) := by
  have hnl : ∀ line ∈ lines, '\n' ∉ line := fun line hline hc =>
    absurd (h line hline _ hc) (by decide)
  unfold iterated
  rw [splitLines_ended hnl]
  exact List.append_nil _

theorem alertCounts_file (h : ∀ line ∈ lines, OneLine line) :
    alertCounts loads (some (file lines)) = (names loads lines).map (tally []) := by
  unfold alertCounts
  dsimp only
  rw [readFrom_zero h]
  show countLines loads [] (splitlines _) = _
  rw [splitlines_ended h, countLines_eq]

theorem countsSince_file (hloads : ∀ text, loads (text ++ "\n") = loads text)
    (h : ∀ line ∈ during, OneLine line) :
    countsSince loads (file before).length (some (file (before ++ during)))
      = (names loads during).map (tally []) := by
  unfold countsSince
  dsimp only
  rw [readFrom_file h]
  show countLines loads [] (iterated _) = _
  rw [iterated_ended h, countLines_eq, names_ended hloads]

/-- The alert is an object of the type. -/
def Named (name : Source) (alert : Json) : Prop :=
  ∃ d, alert = .obj d ∧ key (Json.get d "alert_type") = .ok name

/-- `load_alerts` of a file returns what its lines decode to. -/
theorem loadAlerts_file (h : ∀ line ∈ lines, OneLine line) :
    loadAlerts loads (some (file lines))
      = (lines.mapM fun line => loads (String.ofList line)).map List.reduceOption := by
  have hfold : ∀ (ds : List (Option Json)) alerts,
      ds.foldl (fun alerts decoded => alerts ++ decoded.toList) alerts
        = alerts ++ ds.reduceOption := by
    intro ds
    induction ds with
    | nil => exact fun alerts => (List.append_nil alerts).symm
    | cons d ds ih =>
      intro alerts
      rw [List.foldl_cons, ih, List.append_assoc]
      cases d <;> rfl
  unfold loadAlerts
  dsimp only
  rw [readFrom_zero h]
  show List.foldlM _ [] (splitlines _) = _
  rw [splitlines_ended h, foldlM_eq_map_mapM (f := fun line => loads (String.ofList line))
    (g := fun alerts decoded => alerts ++ decoded.toList)]
  · cases lines.mapM fun line => loads (String.ofList line) with
    | error e => rfl
    | ok ds => exact congrArg Except.ok (hfold ds [])
  · intro alerts line
    cases loads (String.ofList line) <;> rfl

/-- What is loaded is what is counted. -/
theorem loads_of_nameOn {os : List (Option Source)} (h : lines.mapM (nameOn loads) = .ok os) :
    ∃ ds, (lines.mapM fun line => loads (String.ofList line)) = .ok ds ∧
      List.Forall₂ Named os.reduceOption ds.reduceOption := by
  simp only [mapM_eq_ok_iff] at h ⊢
  induction h with
  | nil => exact ⟨[], .nil, .nil⟩
  | @cons line o lines os hname _ ih =>
    obtain ⟨ds, hds, hnamed⟩ := ih
    obtain ⟨d, hd, hname⟩ := bind_eq_ok_iff.mp hname
    refine ⟨d :: ds, .cons hd hds, ?_⟩
    rcases nameOf_eq_ok_iff.mp hname with ⟨rfl, rfl⟩ | ⟨alert, k, rfl, hk, rfl⟩
    · exact hnamed
    · exact .cons ⟨alert, rfl, hk⟩ hnamed

/--
**The readers of a log that has grown.**

`alert_counts` returns exactly if every line is an alert that can be counted or no JSON, whoever
appended it and in whatever order. It has then counted as before and, for every type,
as `counts_since` does behind the old size; the sum of the counts is the number of the
alerts that `load_alerts` returns; and a type is counted exactly if an alert of it was appended.
-/
theorem readers_agree (loads : Loads) (hloads : ∀ text, loads (text ++ "\n") = loads text)
    (before during : List (List Char)) (h : ∀ line ∈ before ++ during, OneLine line) :
    ((∃ after, alertCounts loads (some (file (before ++ during))) = .ok after) ↔
      ∀ line ∈ before ++ during, Countable loads line) ∧
    ∀ after, alertCounts loads (some (file (before ++ during))) = .ok after →
      ∃ earlier since alerts, alertCounts loads (some (file before)) = .ok earlier ∧
        countsSince loads (file before).length (some (file (before ++ during))) = .ok since ∧
        loadAlerts loads (some (file (before ++ during))) = .ok alerts ∧
        (∀ name, after.get name = earlier.get name + since.get name) ∧
        after.total = earlier.total + since.total ∧ after.total = alerts.length ∧
        ∀ name, 0 < since.get name ↔ ∃ line ∈ during, IsAlert loads name line := by
  have hbefore : ∀ line ∈ before, OneLine line := fun l hl => h l (List.mem_append_left _ hl)
  have hduring : ∀ line ∈ during, OneLine line := fun l hl => h l (List.mem_append_right _ hl)
  rw [alertCounts_file h]
  constructor
  · rw [← names_returns_iff]
    cases names loads (before ++ during) with
    | error e => exact iff_of_false (fun ⟨_, h⟩ => by cases h) (fun ⟨_, h⟩ => by cases h)
    | ok ks => exact iff_of_true ⟨_, rfl⟩ ⟨ks, rfl⟩
  · intro after hafter
    cases hks : names loads (before ++ during) with
    | error e =>
      rw [hks] at hafter
      cases hafter
    | ok ks =>
      rw [hks] at hafter
      obtain rfl := Except.ok.inj hafter
      obtain ⟨os, hos, hksos⟩ := names_eq_ok_iff.mp hks
      obtain ⟨ds, hds, hnamed⟩ := loads_of_nameOn hos
      obtain ⟨a, b, ha, hb, rfl⟩ := names_append.mp hks
      refine ⟨tally [] a, tally [] b, ds.reduceOption, ?_, ?_, ?_, fun name => ?_, ?_, ?_,
        fun name => ?_⟩
      · rw [alertCounts_file hbefore, ha]
        rfl
      · rw [countsSince_file hloads hduring, hb]
        rfl
      · rw [loadAlerts_file h, hds]
        rfl
      · have hnil : Counts.get [] name = 0 := rfl
        rw [get_tally, get_tally, get_tally, List.count_append, hnil]
        omega
      · have hnil : Counts.total [] = 0 := rfl
        rw [total_tally, total_tally, total_tally, List.length_append, hnil]
        omega
      · have hnil : Counts.total [] = 0 := rfl
        rw [total_tally, hnil, Nat.zero_add, hksos, hnamed.length_eq]
      · have hnil : Counts.get [] name = 0 := rfl
        rw [get_tally, hnil, Nat.zero_add, List.count_pos_iff, mem_names_iff hb]

end Files

/-! ## Lines of alerts -/

section Logged

variable {loads : Loads} {line : List Char} {lines : List (List Char)} {alert : Dict}
  {alerts : List Dict}

/-- The line is what a producer writes for the alert, with a time stamp in front. -/
def Logs (loads : Loads) (line : List Char) (alert : Dict) : Prop :=
  OneLine line ∧ ∃ timestamp, loads (String.ofList line)
    = .ok (some (Dict.toJson (("timestamp", .str timestamp) :: alert)))

theorem isAlert_of_logs (h : Logs loads line alert) {v : Value}
    (hv : alert.lookup "alert_type" = some v) {name : Source} (hname : key v.toJson = .ok name) :
    IsAlert loads name line := by
  obtain ⟨-, timestamp, hline⟩ := h
  refine ⟨_, hline, ?_⟩
  rw [get_toJson]
  show key (((alert.lookup "alert_type").map Value.toJson).getD .null) = .ok name
  rw [hv]
  exact hname

theorem countable_of_logs (h : Logs loads line alert) : Countable loads line := by
  obtain ⟨-, timestamp, hline⟩ := h
  have hkey : ∃ name, key ((((("timestamp", Value.str timestamp) :: alert).lookup
      "alert_type").map Value.toJson).getD .null) = .ok name := by
    cases (("timestamp", Value.str timestamp) :: alert).lookup "alert_type" with
    | none => exact ⟨_, rfl⟩
    | some v => cases v <;> exact ⟨_, rfl⟩
  obtain ⟨name, hname⟩ := hkey
  exact Or.inr ⟨name, _, hline, by rwa [get_toJson]⟩

/-- The types of the alerts that were written. -/
theorem names_of_logs {t : String} (h : List.Forall₂ (Logs loads) lines alerts)
    (ht : ∀ alert ∈ alerts, alert.lookup "alert_type" = some (.str t)) :
    names loads lines = .ok (List.replicate alerts.length (.text t)) := by
  have hnames : lines.mapM (nameOn loads)
      = .ok (List.replicate alerts.length (some (.text t))) := by
    rw [mapM_eq_ok_iff]
    induction h with
    | nil => exact .nil
    | cons hlogs _ ih =>
      refine .cons (nameOn_eq_some_iff.mpr ?_)
        (ih fun alert h => ht alert (List.mem_cons_of_mem _ h))
      exact isAlert_of_logs hlogs (ht _ List.mem_cons_self) rfl
  rw [names, hnames]
  show Except.ok (List.reduceOption _) = _
  rw [← List.map_replicate, List.reduceOption, List.filterMap_map]
  exact congrArg Except.ok List.filterMap_some

end Logged

/-- An alert as it is logged, but for its other entries. -/
def beaconLine : List Char := "\x7b\"alert_type\": \"C2_BEACON\"\x7d".toList

theorem oneLine_beaconLine : OneLine beaconLine := oneLine_toList rfl (by decide)

/-- `json.loads` of that line; a newline behind it changes nothing. -/
def loadsBeacon (text : String) : Py (Option Json) :=
  .ok (if text.toList.filter (· ≠ '\n') = beaconLine then
    some (.obj [("alert_type", .str "C2_BEACON")]) else none)

/-- A beacon, a line that was cut off, and another beacon. -/
theorem readers_agree_beacons : ∃ earlier since,
    alertCounts loadsBeacon (some (file [beaconLine])) = .ok earlier ∧
      countsSince loadsBeacon (file [beaconLine]).length
        (some (file [beaconLine, beaconLine.take 9, beaconLine])) = .ok since ∧
      0 < since.get (.text "C2_BEACON") := by
  have hloads : ∀ text, loadsBeacon (text ++ "\n") = loadsBeacon text := by
    intro text
    unfold loadsBeacon
    rw [String.toList_append, List.filter_append]
    exact congrArg _ (if_congr (by rw [show List.filter _ "\n".toList = [] from rfl,
      List.append_nil]) rfl rfl)
  have hone : ∀ line ∈ [beaconLine] ++ [beaconLine.take 9, beaconLine], OneLine line := by
    intro line hline
    simp only [List.cons_append, List.nil_append, List.mem_cons, List.not_mem_nil, or_false]
      at hline
    rcases hline with rfl | rfl | rfl
    · exact oneLine_beaconLine
    · exact oneLine_beaconLine.take 9
    · exact oneLine_beaconLine
  obtain ⟨hreturns, hagree⟩ := readers_agree loadsBeacon hloads [beaconLine]
    [beaconLine.take 9, beaconLine] hone
  have hbeacon : IsAlert loadsBeacon (.text "C2_BEACON") beaconLine := ⟨_, rfl, rfl⟩
  obtain ⟨after, hafter⟩ := hreturns.mpr (by
    intro line hline
    simp only [List.cons_append, List.nil_append, List.mem_cons, List.not_mem_nil, or_false]
      at hline
    rcases hline with rfl | rfl | rfl
    · exact Or.inr ⟨_, hbeacon⟩
    · exact Or.inl rfl
    · exact Or.inr ⟨_, hbeacon⟩)
  obtain ⟨earlier, since, alerts, hearlier, hsince, -, -, -, -, hnew⟩ := hagree after hafter
  exact ⟨earlier, since, hearlier, hsince, (hnew _).mpr ⟨beaconLine, by simp, hbeacon⟩⟩

end OtLab.AlertLog
