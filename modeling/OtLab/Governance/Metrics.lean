import Mathlib.Data.Finset.Card
import Mathlib.Data.Finset.Image
import Mathlib.Data.List.Sort
import OtLab.Governance.AlertLog
import OtLab.Response.AutoBlock

/-!
# The detection metrics

`summarize` of `metrics.py` over the alerts of the log. Several producers append to it at once, so
the order of its lines says little.

* `summarize_eq` — the summary in terms of what each alert contributes
* `rule_spec` — what it says of a rule, from the sources and the times of its alerts
* `summary_of_log` — the summary does not depend on the order of the lines and counts as the test
  suite does
-/

namespace OtLab.Metrics

open AlertLog Lib LoginMonitor

/-! ## The metrics -/

def RULE_LABELS : List (String × String) :=
  [ ("UNAUTHORIZED_MODBUS_WRITE", "T0831 Manipulation of Control"),
    ("OT_BRUTE_FORCE_SCAN", "T0846 Reconnaissance"),
    ("CROSS_ZONE_VIOLATION", "T0886 Lateral Movement"),
    ("PROCESS_SAFETY_VIOLATION", "T0836 Safety Interlock") ]

/--
What the metrics take from the library. `fromisoformat` is `datetime.fromisoformat(_).timestamp()`,
`fromtimestamp` is `datetime.fromtimestamp(_, timezone.utc).isoformat()`, and `none` is a
`ValueError` of either. The others are the operations on floats, which round.
-/
structure Library where
  fromisoformat : String → Option ℚ
  fromtimestamp : ℚ → Option String
  sub : ℚ → ℚ → ℚ
  div : ℚ → Nat → ℚ
  round : ℚ → Nat → ℚ

/-- `_to_epoch`, as the playbook has it. -/
def toEpoch (fromisoformat : String → Option ℚ) : Json → Option ℚ := AutoBlock.toEpoch fromisoformat

/-- The three dictionaries; `by_source` as the set of its pairs, a missing list is empty. -/
structure Tallies where
  byType : Counts
  bySource : Finset (Source × Source)
  timestamps : Source → List ℚ

def Tallies.empty : Tallies := ⟨[], ∅, fun _ => []⟩

/-- The body of the loop of `summarize`. -/
def observe (fromisoformat : String → Option ℚ) (t : Tallies) : Json → Py Tallies
  | .obj alert => do
    let alertType ← key (Json.get alert "alert_type")
    let byType := t.byType.increment alertType
    let src := Json.get alert "source_ip"
    let bySource ←
      if src.truthy then do pure (insert (alertType, ← key src) t.bySource) else pure t.bySource
    let timestamps :=
      match toEpoch fromisoformat (Json.get alert "timestamp") with
      | some ts =>
        if ts ≠ 0 then Function.update t.timestamps alertType (t.timestamps alertType ++ [ts])
        else t.timestamps
      | none => t.timestamps
    return ⟨byType, bySource, timestamps⟩
  | _ => .error .attributeError

/-- An entry of `summary["rules"]`. -/
structure Rule where
  label : String
  count : Nat
  uniqueSources : Nat
  firstSeen : Option String
  lastSeen : Option String
  meanTimeToDetect : ℚ
deriving DecidableEq

structure Summary where
  totalAlerts : Nat
  rules : List (String × Rule)
  totalUniqueSources : Nat
deriving DecidableEq

section Summarize

variable (lib : Library)

/-- The text of a time, if there is one and it is not zero. -/
def seen (ts : Option ℚ) : Py (Option String) :=
  match ts.filter (· ≠ 0) with
  | none => .ok none
  | some ts =>
    match lib.fromtimestamp ts with
    | some text => .ok (some text)
    | none => .error .valueError

/-- `mean_time_to_detect_s` of sorted times. -/
def meanTime (times : List ℚ) : ℚ :=
  match times.head?, times.getLast? with
  | some first, some last =>
    if first ≠ 0 ∧ last ≠ 0 ∧ 1 < times.length then
      lib.round (lib.div (lib.sub last first) (max (times.length - 1) 1)) 1
    else 0
  | _, _ => 0

/-- A turn of the second loop of `summarize`. -/
def rule (t : Tallies) (alertType label : String) : Py Rule := do
  let times := (t.timestamps (.text alertType)).insertionSort (· ≤ ·)
  return {
    label := label
    count := t.byType.get (.text alertType)
    uniqueSources := (t.bySource.filter fun pair => pair.1 = .text alertType).card
    firstSeen := ← seen lib times.head?
    lastSeen := ← seen lib times.getLast?
    meanTimeToDetect := meanTime lib times }

/-- The second loop, and the sum over all types. -/
def report (total : Nat) (t : Tallies) : Py Summary := do
  let rules ← RULE_LABELS.mapM fun entry => do return (entry.1, ← rule lib t entry.1 entry.2)
  return ⟨total, rules, (t.bySource.image Prod.snd).card⟩

def summarize (alerts : List Json) : Py Summary := do
  report lib alerts.length (← alerts.foldlM (observe lib.fromisoformat) Tallies.empty)

end Summarize

/-! ## What an alert contributes -/

/-- The key, the source and the time of an alert. -/
structure Entry where
  alertType : Source
  source : Option Source
  time : Option ℚ

def entryOf (fromisoformat : String → Option ℚ) : Json → Py Entry
  | .obj alert => do
    let alertType ← key (Json.get alert "alert_type")
    let src := Json.get alert "source_ip"
    let source ← if src.truthy then do pure (some (← key src)) else pure none
    return ⟨alertType, source,
      (toEpoch fromisoformat (Json.get alert "timestamp")).filter (· ≠ 0)⟩
  | _ => .error .attributeError

namespace Entry

def pair (e : Entry) : Option (Source × Source) := e.source.map fun src => (e.alertType, src)

def timeOf (name : Source) (e : Entry) : Option ℚ := if e.alertType = name then e.time else none

end Entry

/-- The dictionaries after some alerts. -/
def Tallies.after (t : Tallies) (es : List Entry) : Tallies :=
  { byType := tally t.byType (es.map Entry.alertType)
    bySource := t.bySource ∪ (es.filterMap Entry.pair).toFinset
    timestamps := fun name => t.timestamps name ++ es.filterMap (Entry.timeOf name) }

section Entries

variable {fromisoformat : String → Option ℚ} {t : Tallies} {es es' : List Entry} {name : Source}

theorem bySource_after_single (t : Tallies) (e : Entry) :
    (t.after [e]).bySource
      = e.source.elim t.bySource fun src => insert (e.alertType, src) t.bySource := by
  unfold Tallies.after
  obtain ⟨alertType, source, time⟩ := e
  cases source with
  | none => exact Finset.union_empty t.bySource
  | some src =>
    show t.bySource ∪ [(alertType, src)].toFinset = insert (alertType, src) t.bySource
    rw [List.toFinset_cons, List.toFinset_nil, Finset.insert_eq, Finset.union_empty,
      Finset.union_comm, ← Finset.insert_eq]

theorem timestamps_after_single (t : Tallies) (e : Entry) :
    (t.after [e]).timestamps = e.time.elim t.timestamps fun ts =>
      Function.update t.timestamps e.alertType (t.timestamps e.alertType ++ [ts]) := by
  funext name
  obtain ⟨alertType, source, time⟩ := e
  show t.timestamps name ++ List.filterMap (Entry.timeOf name) [_] = _
  by_cases h : alertType = name
  · subst h
    cases time <;> simp [Entry.timeOf]
  · cases time <;> simp [Entry.timeOf, h, Ne.symm h]

/-- A turn of the loop adds what the alert contributes. -/
theorem observe_eq (t : Tallies) (alert : Json) :
    observe fromisoformat t alert = (entryOf fromisoformat alert).map fun e => t.after [e] := by
  have hext : ∀ e, t.after [e] = ⟨t.byType.increment e.alertType, (t.after [e]).bySource,
    (t.after [e]).timestamps⟩ := fun _ => rfl
  cases alert with
  | obj alert =>
    unfold observe entryOf
    dsimp only
    cases key (Json.get alert "alert_type") with
    | error e => rfl
    | ok alertType =>
      show (if _ then _ else _) = Except.map _ (if _ then _ else _)
      by_cases hsrc : (Json.get alert "source_ip").truthy = true
      · rw [if_pos hsrc, if_pos hsrc]
        cases key (Json.get alert "source_ip") with
        | error e => rfl
        | ok src =>
          refine congrArg Except.ok (Eq.trans ?_ (hext _).symm)
          rw [bySource_after_single, timestamps_after_single]
          cases toEpoch fromisoformat (Json.get alert "timestamp") with
          | none => rfl
          | some ts => by_cases hts : ts = 0 <;> simp [hts, Option.filter]
      · rw [if_neg hsrc, if_neg hsrc]
        refine congrArg Except.ok (Eq.trans ?_ (hext _).symm)
        rw [bySource_after_single, timestamps_after_single]
        cases toEpoch fromisoformat (Json.get alert "timestamp") with
        | none => rfl
        | some ts => by_cases hts : ts = 0 <;> simp [hts, Option.filter]
  | _ => rfl

theorem after_append (es es' : List Entry) : t.after (es ++ es') = (t.after es).after es' := by
  unfold Tallies.after tally
  simp only [List.map_append, List.foldl_append, List.filterMap_append, List.toFinset_append,
    Finset.union_assoc, List.append_assoc]

theorem foldl_after (es : List Entry) : ∀ t : Tallies,
    es.foldl (fun t e => t.after [e]) t = t.after es := by
  induction es with
  | nil => intro t; simp [Tallies.after, tally]
  | cons e es ih =>
    intro t
    rw [List.foldl_cons, ih, ← after_append]
    rfl

/-- The summary of alerts that contribute these entries. -/
def summaryOf (lib : Library) (es : List Entry) : Py Summary :=
  report lib es.length (Tallies.empty.after es)

theorem summarize_eq (lib : Library) (alerts : List Json) :
    summarize lib alerts = alerts.mapM (entryOf lib.fromisoformat) >>= summaryOf lib := by
  unfold summarize
  rw [foldlM_eq_map_mapM observe_eq alerts Tallies.empty]
  cases hes : alerts.mapM (entryOf lib.fromisoformat) with
  | error e => rfl
  | ok es =>
    have hlen : alerts.length = es.length := (mapM_eq_ok_iff.mp hes).length_eq
    show report lib alerts.length (es.foldl (fun t e => t.after [e]) Tallies.empty) = _
    rw [foldl_after, hlen]
    rfl

/-! ## The order of the alerts -/

theorem sort_perm {times times' : List ℚ} (h : times.Perm times') :
    times.insertionSort (· ≤ ·) = times'.insertionSort (· ≤ ·) :=
  (((List.perm_insertionSort _ times).trans h).trans (List.perm_insertionSort _ times').symm)
    |>.eq_of_pairwise' (List.pairwise_insertionSort _ _) (List.pairwise_insertionSort _ _)

theorem summaryOf_perm (lib : Library) (h : es.Perm es') :
    summaryOf lib es = summaryOf lib es' := by
  have hsource : (Tallies.empty.after es).bySource = (Tallies.empty.after es').bySource :=
    congrArg (∅ ∪ ·) (List.toFinset_eq_of_perm _ _ (h.filterMap Entry.pair))
  have hrule : ∀ name label, rule lib (Tallies.empty.after es) name label
      = rule lib (Tallies.empty.after es') name label := by
    intro name label
    have hcount : (Tallies.empty.after es).byType.get (.text name)
        = (Tallies.empty.after es').byType.get (.text name) := by
      unfold Tallies.after
      rw [get_tally, get_tally, (h.map Entry.alertType).count_eq]
    have htimes : ((Tallies.empty.after es).timestamps (.text name)).insertionSort (· ≤ ·)
        = ((Tallies.empty.after es').timestamps (.text name)).insertionSort (· ≤ ·) :=
      sort_perm ((h.filterMap (Entry.timeOf (.text name))).append_left [])
    unfold rule
    rw [hcount, hsource, htimes]
  unfold summaryOf report
  rw [h.length_eq, hsource]
  simp only [hrule]

/-! ## One rule -/

/-- The sources of the alerts of a type. -/
def sourcesOf (es : List Entry) (name : Source) : Finset Source :=
  ((es.filter (·.alertType = name)).filterMap Entry.source).toFinset

/-- The times of the alerts of a type, in order. -/
def timesOf (es : List Entry) (name : Source) : List ℚ :=
  ((es.filter (·.alertType = name)).filterMap Entry.time).insertionSort (· ≤ ·)

theorem bySource_after (es : List Entry) :
    (Tallies.empty.after es).bySource = (es.filterMap Entry.pair).toFinset := Finset.empty_union _

theorem card_sources (es : List Entry) (name : Source) :
    ((Tallies.empty.after es).bySource.filter fun pair => pair.1 = name).card
      = (sourcesOf es name).card := by
  have hset : ((Tallies.empty.after es).bySource.filter fun pair => pair.1 = name)
      = (sourcesOf es name).image (Prod.mk name) := by
    ext pair
    simp only [bySource_after, sourcesOf, Entry.pair, Finset.mem_filter, List.mem_toFinset,
      List.mem_filterMap, Option.map_eq_some_iff, Finset.mem_image, List.mem_filter,
      decide_eq_true_eq]
    constructor
    · rintro ⟨⟨e, he, src, hsrc, rfl⟩, hname⟩
      exact ⟨src, ⟨e, ⟨he, hname⟩, hsrc⟩, congrArg (·, src) hname.symm⟩
    · rintro ⟨src, ⟨e, ⟨he, hname⟩, hsrc⟩, rfl⟩
      exact ⟨⟨e, he, src, hsrc, congrArg (·, src) hname⟩, rfl⟩
  rw [hset, Finset.card_image_of_injective _ (Prod.mk_right_injective name)]

theorem image_sources (es : List Entry) :
    (Tallies.empty.after es).bySource.image Prod.snd = (es.filterMap Entry.source).toFinset := by
  ext src
  simp only [bySource_after, Entry.pair, Finset.mem_image, List.mem_toFinset, List.mem_filterMap,
    Option.map_eq_some_iff]
  constructor
  · rintro ⟨_, ⟨e, he, src, hsrc, rfl⟩, rfl⟩
    exact ⟨e, he, hsrc⟩
  · rintro ⟨e, he, hsrc⟩
    exact ⟨_, ⟨e, he, src, hsrc, rfl⟩, rfl⟩

theorem sort_timestamps (es : List Entry) (name : Source) :
    ((Tallies.empty.after es).timestamps name).insertionSort (· ≤ ·) = timesOf es name := by
  have htimes : es.filterMap (Entry.timeOf name)
      = (es.filter (·.alertType = name)).filterMap Entry.time := by
    rw [List.filterMap_filter]
    simp only [decide_eq_true_eq]
    rfl
  rw [timesOf, ← htimes]
  rfl

/-- What an entry says about its alert. -/
theorem of_entryOf {alert : Json} {e : Entry} (h : entryOf fromisoformat alert = .ok e) :
    Named e.alertType alert ∧ e.time ≠ some 0 := by
  cases alert with
  | obj alert =>
    obtain ⟨alertType, hkey, h⟩ := bind_eq_ok_iff.mp h
    have hcases : ∃ source, e = ⟨alertType, source,
        (toEpoch fromisoformat (Json.get alert "timestamp")).filter (· ≠ 0)⟩ := by
      dsimp only at h
      split at h
      · obtain ⟨src, -, h⟩ := bind_eq_ok_iff.mp h
        exact ⟨some src, (Except.ok.inj h).symm⟩
      · exact ⟨none, (Except.ok.inj h).symm⟩
    obtain ⟨source, rfl⟩ := hcases
    refine ⟨⟨alert, rfl, hkey⟩, fun hzero => ?_⟩
    exact absurd (Option.filter_eq_some_iff.mp hzero).2 (by decide)
  | _ => cases h

theorem ne_zero_of_mem_timesOf (hes : ∀ e ∈ es, e.time ≠ some 0) :
    ∀ ts ∈ timesOf es name, ts ≠ 0 := by
  rintro ts hts rfl
  rw [timesOf, List.mem_insertionSort, List.mem_filterMap] at hts
  obtain ⟨e, he, htime⟩ := hts
  exact hes e (List.mem_filter.mp he).1 htime

/-- The text is that of the time. -/
theorem seen_eq_ok_iff {lib : Library} {ts : Option ℚ} (h : ∀ t ∈ ts, t ≠ 0)
    {text : Option String} :
    seen lib ts = .ok text ↔ text.map some = ts.map lib.fromtimestamp := by
  cases ts with
  | none => cases text <;> simp [seen]
  | some ts =>
    have hfilter : (some ts).filter (· ≠ 0) = some ts := by simp [Option.filter, h ts rfl]
    rw [seen, hfilter]
    dsimp only
    cases htext : lib.fromtimestamp ts with
    | none => cases text <;> simp [htext]
    | some text' => cases text <;> simp [htext, eq_comm]

/-- What is between the first and the last of some times, for each step between them. -/
def span (lib : Library) (times : List ℚ) : ℚ :=
  if times.length < 2 then 0
  else lib.round (lib.div (lib.sub (times.getLastD 0) (times.headD 0)) (times.length - 1)) 1

theorem meanTime_eq {lib : Library} {times : List ℚ} (h : ∀ ts ∈ times, ts ≠ 0) :
    meanTime lib times = span lib times := by
  rcases times with _ | ⟨first, times⟩
  · rfl
  have hlast : (first :: times).getLast? = some (times.getLastD first) := by
    rw [List.getLastD_eq_getLast?, List.getLast?_cons]
  have hlastMem : times.getLastD first ∈ first :: times := List.mem_of_getLast? hlast
  unfold meanTime span
  rw [List.head?_cons, hlast]
  dsimp only
  by_cases hlen : 1 < (first :: times).length
  · rw [if_pos ⟨h first List.mem_cons_self, h _ hlastMem, hlen⟩, if_neg (by omega),
      Nat.max_eq_left (by omega), List.getLastD_cons, List.headD_cons]
  · rw [if_neg fun hand => hlen hand.2.2, if_pos (by omega)]

/-- What the summary is to say of a rule, from the entries of the log. -/
structure Rule.Tells (lib : Library) (es : List Entry) (name : String) (r : Rule) : Prop where
  count : r.count = (es.map Entry.alertType).count (.text name)
  uniqueSources : r.uniqueSources = (sourcesOf es (.text name)).card
  firstSeen : r.firstSeen.map some = (timesOf es (.text name)).head?.map lib.fromtimestamp
  lastSeen : r.lastSeen.map some = (timesOf es (.text name)).getLast?.map lib.fromtimestamp
  meanTimeToDetect : r.meanTimeToDetect = span lib (timesOf es (.text name))

/-- What the summary is to say: the rules in the order of the table, and the totals. -/
structure Summary.Tells (lib : Library) (es : List Entry) (s : Summary) : Prop where
  totalAlerts : s.totalAlerts = es.length
  rules : List.Forall₂ (fun entry (r : String × Rule) =>
    r.1 = entry.1 ∧ r.2.label = entry.2 ∧ r.2.Tells lib es entry.1) RULE_LABELS s.rules
  totalUniqueSources : s.totalUniqueSources = (es.filterMap Entry.source).toFinset.card

theorem rule_spec (lib : Library) (hes : ∀ e ∈ es, e.time ≠ some 0) (alertType label : String)
    (r : Rule) :
    rule lib (Tallies.empty.after es) alertType label = .ok r ↔
      r.label = label ∧ r.Tells lib es alertType := by
  have hne : ∀ ts ∈ timesOf es (.text alertType), ts ≠ 0 := ne_zero_of_mem_timesOf hes
  have hcount : (Tallies.empty.after es).byType.get (.text alertType)
      = (es.map Entry.alertType).count (.text alertType) := (get_tally _).trans (Nat.zero_add _)
  unfold rule
  dsimp only
  rw [hcount, card_sources, sort_timestamps, meanTime_eq hne]
  simp only [bind_eq_ok_iff, seen_eq_ok_iff fun ts hts => hne ts (List.mem_of_head? hts),
    seen_eq_ok_iff fun ts hts => hne ts (List.mem_of_getLast? hts)]
  constructor
  · rintro ⟨first, hfirst, last, hlast, hr⟩
    obtain rfl := Except.ok.inj hr
    exact ⟨rfl, rfl, rfl, hfirst, hlast, rfl⟩
  · obtain ⟨rlabel, rcount, rsources, first, last, mean⟩ := r
    rintro ⟨rfl, rfl, rfl, hfirst, hlast, rfl⟩
    exact ⟨first, hfirst, last, hlast, rfl⟩

/-- The summary of some entries says this and nothing else. -/
theorem summaryOf_eq_ok_iff (lib : Library) (hes : ∀ e ∈ es, e.time ≠ some 0) {s : Summary} :
    summaryOf lib es = .ok s ↔ s.Tells lib es := by
  have hentry : ∀ (entry : String × String) (r : String × Rule),
      ((do return (entry.1, ← rule lib (Tallies.empty.after es) entry.1 entry.2) : Py _) = .ok r ↔
        r.1 = entry.1 ∧ r.2.label = entry.2 ∧ r.2.Tells lib es entry.1) := by
    intro entry r
    rw [bind_eq_ok_iff, ← rule_spec lib hes]
    constructor
    · rintro ⟨x, hx, hr⟩
      obtain rfl := Except.ok.inj hr
      exact ⟨rfl, hx⟩
    · obtain ⟨name, x⟩ := r
      rintro ⟨rfl, hx⟩
      exact ⟨x, hx, rfl⟩
  unfold summaryOf report
  rw [bind_eq_ok_iff, image_sources]
  simp only [mapM_eq_ok_iff, hentry]
  constructor
  · rintro ⟨rules, hrules, hs⟩
    obtain rfl := Except.ok.inj hs
    exact ⟨rfl, hrules, rfl⟩
  · obtain ⟨total, rules, sources⟩ := s
    rintro ⟨rfl, hrules, rfl⟩
    exact ⟨rules, hrules, rfl⟩

end Entries

/-! ## The log -/

section Log

variable {loads : Loads} {lib : Library} {lines lines' : List (List Char)} {es : List Entry}

/-- What the summary counts is what the test suite counts. -/
theorem names_of_entries {ds : List (Option Json)}
    (hds : (lines.mapM fun line => loads (String.ofList line)) = .ok ds)
    (hes : ds.reduceOption.mapM (entryOf lib.fromisoformat) = .ok es) :
    names loads lines = .ok (es.map Entry.alertType) := by
  rw [mapM_eq_ok_iff] at hds
  rw [names_eq_ok_iff]
  induction hds generalizing es with
  | nil =>
    obtain rfl := Except.ok.inj hes
    exact ⟨[], rfl, rfl⟩
  | @cons line d lines ds hline _ ih =>
    cases d with
    | none =>
      rw [List.reduceOption_cons_of_none] at hes
      obtain ⟨os, hos, heq⟩ := ih hes
      refine ⟨none :: os, mapM_eq_ok_iff.mpr (.cons ?_ (mapM_eq_ok_iff.mp hos)), heq⟩
      exact bind_eq_ok_iff.mpr ⟨none, hline, rfl⟩
    | some alert =>
      rw [List.reduceOption_cons_of_some, mapM_eq_ok_iff] at hes
      obtain ⟨e, rest, he, hrest, rfl⟩ := List.forall₂_cons_left_iff.mp hes
      obtain ⟨os, hos, heq⟩ := ih (mapM_eq_ok_iff.mpr hrest)
      obtain ⟨d, rfl, hkey⟩ := (of_entryOf he).1
      refine ⟨some e.alertType :: os, mapM_eq_ok_iff.mpr (.cons ?_ (mapM_eq_ok_iff.mp hos)), ?_⟩
      · exact nameOn_eq_some_iff.mpr ⟨d, hline, hkey⟩
      · rw [List.reduceOption_cons_of_some, List.map_cons, heq]

/-- `metrics.py` on a log. -/
def metricsOf (loads : Loads) (lib : Library) (log : Option Bytes) : Py Summary := do
  summarize lib (← loadAlerts loads log)

theorem metricsOf_file (h : ∀ line ∈ lines, OneLine line) {s : Summary} :
    metricsOf loads lib (some (file lines)) = .ok s ↔ ∃ ds es,
      (lines.mapM fun line => loads (String.ofList line)) = .ok ds ∧
        ds.reduceOption.mapM (entryOf lib.fromisoformat) = .ok es ∧ summaryOf lib es = .ok s := by
  rw [metricsOf, bind_eq_ok_iff]
  simp only [loadAlerts_file h, summarize_eq, bind_eq_ok_iff]
  constructor
  · rintro ⟨alerts, halerts, es, hes, hs⟩
    cases hds : lines.mapM fun line => loads (String.ofList line) with
    | error e =>
      rw [hds] at halerts
      cases halerts
    | ok ds =>
      rw [hds] at halerts
      obtain rfl := Except.ok.inj halerts
      exact ⟨ds, es, rfl, hes, hs⟩
  · rintro ⟨ds, es, hds, hes, hs⟩
    exact ⟨ds.reduceOption, by rw [hds]; rfl, es, hes, hs⟩

/-- Another order of the lines is another order of the entries. -/
theorem metricsOf_perm (hperm : lines.Perm lines') (h : ∀ line ∈ lines, OneLine line) {s : Summary}
    (hs : metricsOf loads lib (some (file lines)) = .ok s) :
    metricsOf loads lib (some (file lines')) = .ok s := by
  have h' : ∀ line ∈ lines', OneLine line := fun line hl => h line (hperm.mem_iff.mpr hl)
  obtain ⟨ds, es, hds, hes, hs⟩ := (metricsOf_file h).mp hs
  obtain ⟨ds', hds', hdsPerm⟩ := mapM_perm hperm hds
  obtain ⟨es', hes', hesPerm⟩ := mapM_perm (hdsPerm.filterMap id) hes
  exact (metricsOf_file h').mpr ⟨ds', es', hds', hes', (summaryOf_perm lib hesPerm).symm.trans hs⟩

theorem time_ne_zero {alerts : List Json} (hes : alerts.mapM (entryOf lib.fromisoformat) = .ok es) :
    ∀ e ∈ es, e.time ≠ some 0 := by
  intro e he
  obtain ⟨alert, -, halert⟩ := (mem_mapM_iff hes).mp he
  exact (of_entryOf halert).2

/--
**The summary of a log.**

The metrics are computed exactly if every alert has an entry and the first and the last time of each
rule have a text, and then they say what `Summary.Tells` says of these entries: how many alerts of a
rule there are, how many sources they name, the first and the last of their times and what is
between them on average. In whatever order the producers append the same lines, they are the same,
and they count every rule as the test suite does.
-/
theorem summary_of_log (loads : Loads) (lib : Library) {lines lines' : List (List Char)}
    (hperm : lines.Perm lines') (h : ∀ line ∈ lines, OneLine line) (s : Summary) :
    (metricsOf loads lib (some (file lines)) = .ok s ↔ ∃ alerts es,
      loadAlerts loads (some (file lines)) = .ok alerts ∧
        alerts.mapM (entryOf lib.fromisoformat) = .ok es ∧ s.Tells lib es) ∧
    (metricsOf loads lib (some (file lines')) = .ok s ↔
      metricsOf loads lib (some (file lines)) = .ok s) ∧
    (metricsOf loads lib (some (file lines)) = .ok s →
      ∃ counts, alertCounts loads (some (file lines)) = .ok counts ∧
        s.totalAlerts = counts.total ∧ ∀ r ∈ s.rules, r.2.count = counts.get (.text r.1)) := by
  have h' : ∀ line ∈ lines', OneLine line := fun line hl => h line (hperm.mem_iff.mpr hl)
  refine ⟨?_, ⟨metricsOf_perm hperm.symm h', metricsOf_perm hperm h⟩, fun hs => ?_⟩
  · rw [metricsOf, bind_eq_ok_iff]
    simp only [summarize_eq, bind_eq_ok_iff]
    refine exists_congr fun alerts => ⟨?_, ?_⟩
    · rintro ⟨halerts, es, hes, hs⟩
      exact ⟨es, halerts, hes, (summaryOf_eq_ok_iff lib (time_ne_zero hes)).mp hs⟩
    · rintro ⟨es, halerts, hes, hs⟩
      exact ⟨halerts, es, hes, (summaryOf_eq_ok_iff lib (time_ne_zero hes)).mpr hs⟩
  · obtain ⟨ds, es, hds, hes, hs⟩ := (metricsOf_file h).mp hs
    have htells : s.Tells lib es := (summaryOf_eq_ok_iff lib (time_ne_zero hes)).mp hs
    refine ⟨tally [] (es.map Entry.alertType), ?_, ?_, fun r hr => ?_⟩
    · rw [alertCounts_file h, names_of_entries hds hes]
      rfl
    · rw [htells.totalAlerts, total_tally, List.length_map]
      exact (Nat.zero_add _).symm
    · obtain ⟨entry, -, hname, -, hrule⟩ := mem_left_of_forall₂ htells.rules hr
      rw [hrule.count, get_tally, hname]
      exact (Nat.zero_add _).symm

end Log

/-- An alert of the cross-zone detector as a line of the log, but for its other entries. -/
def crossingLine (time source : String) : String :=
  "\x7b\"timestamp\": \"" ++ time ++ "\", \"alert_type\": \"CROSS_ZONE_VIOLATION\", "
    ++ "\"source_ip\": \"" ++ source ++ "\"\x7d"

def crossing (time source : String) : Json :=
  .obj [("timestamp", .str time), ("alert_type", .str "CROSS_ZONE_VIOLATION"),
    ("source_ip", .str source)]

theorem oneLine_crossingLine {time source : String} (htime : OneLine time.toList)
    (hsource : OneLine source.toList) : OneLine (crossingLine time source).toList := by
  unfold crossingLine
  refine oneLine_append (oneLine_append (oneLine_append (oneLine_append (oneLine_append ?_ htime)
    ?_) ?_) hsource) ?_ <;> exact oneLine_toList rfl (by decide)

/-- Three crossings in two hours, by two hosts. -/
def crossings : List (String × String) :=
  [("2026-08-01T10:00:00", "172.24.0.10"), ("2026-08-01T11:00:00", "172.24.0.11"),
    ("2026-08-01T12:00:00", "172.24.0.10")]

/-- `json.loads` of their lines; what is cut off is no JSON. -/
def loadsCrossings (text : String) : Py (Option Json) :=
  .ok ((crossings.find? fun c => crossingLine c.1 c.2 == text).map fun c => crossing c.1 c.2)

/-- The library on these times, in UTC; floats are exact on whole seconds. -/
def augustLibrary : Library where
  fromisoformat text := [("2026-08-01T10:00:00", 1785578400), ("2026-08-01T11:00:00", 1785582000),
    ("2026-08-01T12:00:00", 1785585600)].lookup text
  fromtimestamp ts := [((1785578400 : ℚ), "2026-08-01T10:00:00+00:00"),
    (1785582000, "2026-08-01T11:00:00+00:00"), (1785585600, "2026-08-01T12:00:00+00:00")].lookup ts
  sub x y := x - y
  div x n := x / n
  round x _ := x

def crossingSummary : Summary where
  totalAlerts := 3
  rules := RULE_LABELS.map fun entry => (entry.1,
    if entry.1 = "CROSS_ZONE_VIOLATION" then
      ⟨entry.2, 3, 2, some "2026-08-01T10:00:00+00:00", some "2026-08-01T12:00:00+00:00", 3600⟩
    else ⟨entry.2, 0, 0, none, none, 0⟩)
  totalUniqueSources := 2

theorem loads_crossingLine : ∀ c ∈ crossings,
    loadsCrossings (String.ofList (crossingLine c.1 c.2).toList)
      = .ok (some (crossing c.1 c.2)) := by
  have hfind : ∀ c ∈ crossings,
      crossings.find? (fun d => crossingLine d.1 d.2 == crossingLine c.1 c.2) = some c := by
    decide +kernel
  intro c hc
  unfold loadsCrossings
  rw [String.ofList_toList, hfind c hc]
  rfl

/-- What the crossings contribute. -/
def crossingEntry (c : String × String) : Entry :=
  ⟨.text "CROSS_ZONE_VIOLATION", some (.text c.2), augustLibrary.fromisoformat c.1⟩

theorem entryOf_crossing : ∀ c ∈ crossings,
    entryOf augustLibrary.fromisoformat (crossing c.1 c.2) = .ok (crossingEntry c) := by
  have htime : ∀ c ∈ crossings, c.2 ≠ "" ∧
      (toEpoch augustLibrary.fromisoformat (.str c.1)).filter (· ≠ 0)
        = augustLibrary.fromisoformat c.1 := by
    decide +kernel
  intro c hc
  obtain ⟨hsource, htime⟩ := htime c hc
  have htruthy : (Json.str c.2).truthy = true := by simpa [Json.truthy] using hsource
  unfold crossingEntry
  rw [← htime]
  show (if (Json.str c.2).truthy then _ else _) = _
  rw [if_pos htruthy]
  rfl

/-- The crossings in another order, behind a line that was cut off. -/
theorem summary_of_log_crossings :
    let lines := crossings.map fun c => (crossingLine c.1 c.2).toList
    metricsOf loadsCrossings augustLibrary
        (some (file ((lines.headD []).take 9 :: lines.reverse))) = .ok crossingSummary := by
  intro lines
  have hlines : ∀ line ∈ lines, OneLine line := by
    intro line hline
    obtain ⟨c, hc, rfl⟩ := List.mem_map.mp hline
    simp only [crossings, List.mem_cons, List.not_mem_nil, or_false] at hc
    rcases hc with rfl | rfl | rfl <;>
      exact oneLine_crossingLine (oneLine_toList rfl (by decide)) (oneLine_toList rfl (by decide))
  have hone : ∀ line ∈ (lines.headD []).take 9 :: lines, OneLine line :=
    List.forall_mem_cons.mpr ⟨(hlines _ List.mem_cons_self).take 9, hlines⟩
  have hcut : crossings.find? (fun d => crossingLine d.1 d.2
      == String.ofList ((lines.headD []).take 9)) = none := by
    decide +kernel
  have hds : ((lines.headD []).take 9 :: lines).mapM
        (fun line => loadsCrossings (String.ofList line))
      = .ok (none :: crossings.map fun c => some (crossing c.1 c.2)) := by
    refine mapM_eq_ok_iff.mpr (.cons ?_ ?_)
    · rw [loadsCrossings, hcut]
      rfl
    · rw [List.forall₂_map_left_iff, List.forall₂_map_right_iff, List.forall₂_same]
      exact loads_crossingLine
  obtain ⟨htells, hsame, -⟩ := summary_of_log loadsCrossings augustLibrary
    (.cons _ (List.reverse_perm lines).symm) hone crossingSummary
  refine hsame.mpr (htells.mpr ⟨crossings.map fun c => crossing c.1 c.2,
    crossings.map crossingEntry, ?_, ?_, rfl, ?_, by decide +kernel⟩)
  · rw [loadAlerts_file hone, hds]
    rfl
  · rw [mapM_eq_ok_iff, List.forall₂_map_left_iff, List.forall₂_map_right_iff, List.forall₂_same]
    exact entryOf_crossing
  · refine .cons ⟨rfl, rfl, ?_⟩
      (.cons ⟨rfl, rfl, ?_⟩ (.cons ⟨rfl, rfl, ?_⟩ (.cons ⟨rfl, rfl, ?_⟩ .nil)))
    all_goals constructor <;> decide +kernel

end OtLab.Metrics
