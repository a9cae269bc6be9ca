import Mathlib.Data.List.Forall2
import Mathlib.Data.List.TakeWhile
import OtLab.Historian.Poller
import OtLab.Lib.LineProtocol
import OtLab.Py.Value

/-!
# The points of a cycle

Whether the lines of `poll_once` are points of the line protocol and carry what `line_protocol` is
given. Nothing is escaped, and an asset without an entry in `FIELDS` has no fields.

* `asset_of_parseTargets` — which separators `parse_targets` keeps out of the asset names
* `lines_read_back_iff` — when every line of a cycle is read back
-/

namespace OtLab.Poller

open Lib LineProtocol

/-! ## Targets -/

/-- `s.partition(sep)` without the separator. -/
def partition (sep : Char) (s : String) : String × String :=
  (String.ofList (s.toList.takeWhile (· ≠ sep)),
    String.ofList ((s.toList.dropWhile (· ≠ sep)).drop 1))

/-- An item of `parse_targets`; `int` is a parameter, for ports that are not negative. -/
def parseTarget (int : String → Py Nat) (item : String) : Py Target := do
  let (asset, endpoint) := partition '=' item
  let (host, port) := partition ':' endpoint
  let port ← int (if port = "" then "502" else port)
  return ⟨strip asset, strip host, port⟩

/-- `parse_targets`. -/
def parseTargets (int : String → Py Nat) (value : String) : Py (List Target) :=
  let items := (value.toList.splitOn ',').map fun item => strip (String.ofList item)
  (items.filter (· ≠ "")).mapM (parseTarget int)

theorem mem_toList_strip {c : Char} {s : String} (h : c ∈ (strip s).toList) : c ∈ s.toList := by
  unfold strip at h
  rw [String.toList_ofList, List.mem_reverse] at h
  have hright := (List.dropWhile_sublist isSpace).subset h
  exact (List.dropWhile_sublist isSpace).subset (List.mem_reverse.mp hright)

/-- No piece of a list contains the element it was split at. -/
theorem not_mem_of_mem_splitOn {x : Char} {l piece : List Char} (h : piece ∈ l.splitOn x) :
    x ∉ piece := by
  induction l generalizing piece with
  | nil =>
    rw [List.splitOn_nil, List.mem_singleton] at h
    rw [h]
    exact List.not_mem_nil
  | cons y l ih =>
    obtain ⟨first, others, hsplit⟩ := List.exists_cons_of_ne_nil (List.splitOn_ne_nil x l)
    rw [hsplit] at ih
    rw [List.splitOn_cons_eq_if_modifyHead, hsplit] at h
    by_cases hy : y = x
    · rw [if_pos (beq_iff_eq.mpr hy)] at h
      rcases List.mem_cons.mp h with rfl | h
      · exact List.not_mem_nil
      · exact ih h
    · rw [if_neg (by simpa using hy), List.modifyHead_cons] at h
      rcases List.mem_cons.mp h with rfl | h
      · exact List.not_mem_cons_of_ne_of_not_mem (Ne.symm hy) (ih List.mem_cons_self)
      · exact ih (List.mem_cons_of_mem _ h)

/-- The items of a comprehension that does not raise. -/
theorem exists_of_mem_mapM {α β : Type} {f : α → Py β} {l : List α} {l' : List β}
    (h : l.mapM f = .ok l') : ∀ b ∈ l', ∃ a ∈ l, f a = .ok b := by
  induction l generalizing l' with
  | nil =>
    obtain rfl := Except.ok.inj h
    exact List.forall_mem_nil _
  | cons a l ih =>
    rw [List.mapM_cons] at h
    cases hfa : f a with
    | error e =>
      rw [hfa] at h
      cases h
    | ok b =>
      rw [hfa] at h
      cases hl : l.mapM f with
      | error e =>
        rw [hl] at h
        cases h
      | ok bs =>
        rw [hl] at h
        obtain rfl := Except.ok.inj h
        refine List.forall_mem_cons.mpr ⟨⟨a, List.mem_cons_self, hfa⟩, fun b' hb' => ?_⟩
        obtain ⟨a', ha', hf⟩ := ih hl b' hb'
        exact ⟨a', List.mem_cons_of_mem a ha', hf⟩

theorem asset_of_parseTarget {int : String → Py Nat} {item : String} {t : Target}
    (h : parseTarget int item = .ok t) : t.asset = strip (partition '=' item).1 := by
  unfold parseTarget at h
  dsimp only at h
  generalize (if (partition ':' (partition '=' item).2).2 = "" then "502"
    else (partition ':' (partition '=' item).2).2) = port at h
  cases hport : int port with
  | error e =>
    rw [hport] at h
    cases h
  | ok n =>
    rw [hport] at h
    obtain rfl := Except.ok.inj h
    rfl

/-- **An asset name has no comma and no equals sign**; blanks, backslashes and line breaks stay. -/
theorem asset_of_parseTargets {int : String → Py Nat} {value : String} {targets : List Target}
    (h : parseTargets int value = .ok targets) :
    ∀ t ∈ targets, ',' ∉ t.asset.toList ∧ '=' ∉ t.asset.toList := by
  intro t ht
  obtain ⟨item, hitem, hparse⟩ := exists_of_mem_mapM h t ht
  obtain ⟨piece, hpiece, rfl⟩ := List.mem_map.mp (List.mem_of_mem_filter hitem)
  rw [asset_of_parseTarget hparse]
  have hsub : ∀ c ∈ (strip (partition '=' (strip (String.ofList piece))).1).toList,
      c ∈ piece ∧ c ≠ '=' := by
    intro c hc
    have hwhile := mem_toList_strip hc
    unfold partition at hwhile
    rw [String.toList_ofList] at hwhile
    have hmem := mem_toList_strip ((List.takeWhile_sublist _).subset hwhile)
    rw [String.toList_ofList] at hmem
    exact ⟨hmem, by simpa using List.mem_takeWhile_imp hwhile⟩
  exact ⟨fun hc => not_mem_of_mem_splitOn hpiece (hsub _ hc).1, fun hc => (hsub _ hc).2 rfl⟩

/-! ## What `line_protocol` is given -/

/-- The arguments of a call of `line_protocol`. -/
structure Given where
  measurement : String
  tags : List (String × Option String)
  values : List (String × Nat)

namespace Given

def line (g : Given) : String := lineProtocol g.measurement g.tags g.values

/-- The tags that have a value. -/
def present (g : Given) : List (String × String) :=
  g.tags.filterMap fun (key, value) => value.map fun v => (key, v)

/-- The point the arguments stand for. -/
def point (g : Given) : LineProtocol.Point where
  measurement := g.measurement
  tags := g.present
  fields := g.values.map fun field => (field.1, (field.2 : Int))
  timestamp := none

/-- A line is read as the point it was given, with a field. -/
def ReadBack (line : String) (g : Given) : Prop :=
  parse line.toList = some g.point ∧ g.point.fields ≠ []

end Given

/-- What is given for a point of a cycle. -/
def Point.given (zone : String) (p : Point) : Given :=
  ⟨"process_state", [("asset", some p.asset), ("zone", some zone)], p.values⟩

/-- What is given for the health of a cycle. -/
def healthGiven (zone : String) (st : PollState) : Given :=
  ⟨"poller_health", [("zone", some zone)],
    [("points", st.points.length), ("ok", if st.ok then 1 else 0)]⟩

/-- What `poll_once` gives to `line_protocol`, call by call. -/
def givens (zone : String) (attempt : Nat → Attempt) (clients : Clients) (targets : List Target) :
    List Given :=
  let st := pollTargets attempt 0 targets { clients := clients, points := [], ok := true }
  st.points.map (Point.given zone) ++ [healthGiven zone st]

/-- Every line of a cycle is read back. -/
def LinesReadBack (zone : String) (attempt : Nat → Attempt) (http : HttpOutcome)
    (clients : Clients) (targets : List Target) : Prop :=
  List.Forall₂ Given.ReadBack (pollOnce zone attempt http clients targets).lines
    (givens zone attempt clients targets)

/-! ## One line -/

/-- A line is its arguments written as they are. -/
theorem toList_line (g : Given) : g.line.toList = render g.measurement g.present g.values := by
  have htags : g.present.map (fun tag => "," ++ tag.1 ++ "=" ++ tag.2)
      = g.tags.filterMap fun tag => tag.2.map fun v => "," ++ tag.1 ++ "=" ++ v := by
    unfold Given.present
    rw [List.map_filterMap]
    simp [Function.comp_def]
  have hfields : g.values.map (String.toList ∘ fun field =>
      field.1 ++ "=" ++ toString field.2 ++ "i") = g.values.map fieldChars := by
    refine List.map_congr_left fun field _ => ?_
    simp [fieldChars, integerChars]
  have hline : g.line = g.measurement
      ++ String.join (g.tags.filterMap fun tag => tag.2.map fun v => "," ++ tag.1 ++ "=" ++ v)
      ++ " " ++ ",".intercalate (g.values.map fun field =>
        field.1 ++ "=" ++ toString field.2 ++ "i") := rfl
  unfold render
  rw [hline, ← htags]
  simp only [String.toList_append, String.toList_join, String.toList_intercalate, List.map_map,
    hfields, List.flatMap_map]
  simp [tagChars]

/-- When a line is read back whose measurement and keys are names. -/
theorem readBack_iff {g : Given} (hm : IsName g.measurement)
    (hkeys : ∀ tag ∈ g.present, IsName tag.1) (hvalues : ∀ field ∈ g.values, IsName field.1) :
    Given.ReadBack g.line g ↔ (∀ tag ∈ g.present, IsName tag.2) ∧ g.values ≠ [] := by
  have hfields : g.point.fields ≠ [] ↔ g.values ≠ [] := List.map_eq_nil_iff.not
  unfold Given.ReadBack
  rw [hfields, toList_line]
  unfold Given.point
  rw [parse_render_iff hm hkeys hvalues]
  exact and_iff_left_of_imp And.right

/-! ## Fields -/

/-- `FIELDS` has a field at offset 0 for every asset it knows. -/
theorem fields_eq_cons {asset : String} (h : fields asset ≠ []) :
    ∃ name rest, fields asset = (0, name) :: rest := by
  unfold fields at h ⊢
  split_ifs at h ⊢
  · exact ⟨_, _, rfl⟩
  · exact ⟨_, _, rfl⟩
  · exact ⟨_, _, rfl⟩
  · exact absurd rfl h

theorem isName_asset {asset : String} (h : fields asset ≠ []) : IsName asset := by
  unfold fields at h
  split_ifs at h with hintake htreatment hdistribution
  · subst hintake
    decide
  · subst htreatment
    decide
  · subst hdistribution
    decide
  · exact absurd rfl h

theorem isName_field (asset : String) : ∀ entry ∈ fields asset, IsName entry.2 := by
  unfold fields
  split_ifs <;> decide

theorem isName_decodeRegisters {asset : String} {l : List Nat} :
    ∀ field ∈ decodeRegisters asset l, IsName field.1 := by
  intro field hmem
  obtain ⟨entry, hentry, h⟩ := List.mem_filterMap.mp hmem
  obtain ⟨v, -, rfl⟩ := Option.map_eq_some_iff.mp h
  exact isName_field asset entry hentry

/-- When a controller's registers make a field. -/
theorem decodeRegisters_ne_nil_iff {asset : String} {l : List Nat} :
    decodeRegisters asset l ≠ [] ↔ fields asset ≠ [] ∧ l ≠ [] := by
  constructor
  · intro h
    refine ⟨fun hnil => h ?_, fun hnil => h ?_⟩
    · rw [decodeRegisters, hnil, List.filterMap_nil]
    · rw [hnil]
      exact List.filterMap_eq_nil_iff.mpr fun entry _ => rfl
  · -- the field at offset 0 is always there
    rintro ⟨hfields, hl⟩
    obtain ⟨name, rest, hcons⟩ := fields_eq_cons hfields
    obtain ⟨v, l, rfl⟩ := List.exists_cons_of_ne_nil hl
    rw [decodeRegisters, hcons, List.filterMap_cons]
    exact List.cons_ne_nil _ _

/-! ## A cycle -/

theorem lines_pollOnce (zone : String) (attempt : Nat → Attempt) (http : HttpOutcome)
    (clients : Clients) (targets : List Target) :
    (pollOnce zone attempt http clients targets).lines
      = (givens zone attempt clients targets).map Given.line := by
  unfold pollOnce givens
  rw [List.map_append, List.map_map]
  rfl

theorem linesReadBack_iff {zone : String} {attempt : Nat → Attempt} {http : HttpOutcome}
    {clients : Clients} {targets : List Target} :
    LinesReadBack zone attempt http clients targets ↔
      ∀ g ∈ givens zone attempt clients targets, Given.ReadBack g.line g := by
  unfold LinesReadBack
  rw [lines_pollOnce, List.forall₂_map_left_iff, List.forall₂_same]

/-- The health line is read back when the zone is a name. -/
theorem readBack_health (zone : String) (st : PollState) :
    Given.ReadBack (healthGiven zone st).line (healthGiven zone st) ↔ IsName zone := by
  have hpresent : (healthGiven zone st).present = [("zone", zone)] := rfl
  rw [readBack_iff (by decide : IsName "poller_health"), hpresent]
  · simp [healthGiven]
  · rw [hpresent, List.forall_mem_singleton]
    exact (by decide : IsName "zone")
  · unfold healthGiven
    rw [List.forall_mem_cons, List.forall_mem_singleton]
    exact (by decide : IsName "points" ∧ IsName "ok")

/-- The line of a point is read back when its tags are names and it has a field. -/
theorem readBack_point {zone : String} {p : Point} {l : List Nat}
    (hp : p.values = decodeRegisters p.asset l) :
    Given.ReadBack (p.given zone).line (p.given zone) ↔
      IsName zone ∧ fields p.asset ≠ [] ∧ l ≠ [] := by
  have hpresent : (p.given zone).present = [("asset", p.asset), ("zone", zone)] := rfl
  have hvalues : (p.given zone).values = decodeRegisters p.asset l := hp
  rw [readBack_iff (by decide : IsName "process_state"), hpresent, hvalues,
    decodeRegisters_ne_nil_iff, List.forall_mem_cons, List.forall_mem_singleton]
  · constructor
    · rintro ⟨⟨-, hzone⟩, h⟩
      exact ⟨hzone, h⟩
    · rintro ⟨hzone, h⟩
      exact ⟨⟨isName_asset h.1, hzone⟩, h⟩
  · rw [hpresent, List.forall_mem_cons, List.forall_mem_singleton]
    exact (by decide : IsName "asset" ∧ IsName "zone")
  · rw [hvalues]
    exact isName_decodeRegisters

section Points

variable {Q : Point → Prop} {R : String → List Nat → Prop}

/-- A target that answers with registers adds a point. -/
theorem forall_points_pollTarget
    (hQ : ∀ p l, p.values = decodeRegisters p.asset l → (Q p ↔ R p.asset l)) (t : Target)
    (a : Attempt) (st : PollState) :
    (∀ p ∈ (pollTarget t a st).points, Q p) ↔
      (∀ p ∈ st.points, Q p) ∧ ∀ l, a.read = .registers l → R t.asset l := by
  unfold pollTarget
  cases a.read with
  | raised | errorResponse => simp
  | registers l =>
    dsimp only
    rw [List.forall_mem_append, List.forall_mem_singleton, hQ _ l rfl]
    simp

/-- What holds of the points of a cycle, in terms of the targets that answered. -/
theorem forall_points_iff
    (hQ : ∀ p l, p.values = decodeRegisters p.asset l → (Q p ↔ R p.asset l))
    (attempt : Nat → Attempt) : ∀ (ts : List Target) (i : Nat) (st : PollState),
    (∀ p ∈ (pollTargets attempt i ts st).points, Q p) ↔
      (∀ p ∈ st.points, Q p) ∧
        ∀ j t l, ts[j]? = some t → (attempt (i + j)).read = .registers l → R t.asset l
  | [], _, _ => by simp [pollTargets]
  | t :: ts, i, st => by
    rw [pollTargets, forall_points_iff hQ attempt ts (i + 1), forall_points_pollTarget hQ,
      and_assoc]
    refine and_congr_right fun _ => ?_
    constructor
    · rintro ⟨hfirst, hrest⟩ j t' l ht hread
      cases j with
      | zero =>
        obtain rfl : t = t' := Option.some.inj ht
        exact hfirst l hread
      | succ j =>
        rw [show i + (j + 1) = i + 1 + j by omega] at hread
        exact hrest j t' l ht hread
    · intro h
      refine ⟨fun l hread => h 0 t l rfl hread, fun j t' l ht hread => ?_⟩
      rw [show i + 1 + j = i + (j + 1) by omega] at hread
      exact h (j + 1) t' l ht hread

end Points

/--
**Every line of a cycle is read back exactly when the zone is a name and every target that answers
is known and returns a register.**

This is for every list of targets, every zone and all lists of registers.
-/
theorem lines_read_back_iff (zone : String) (attempt : Nat → Attempt) (http : HttpOutcome)
    (clients : Clients) (targets : List Target) :
    LinesReadBack zone attempt http clients targets ↔
      IsName zone ∧ ∀ i t l, targets[i]? = some t → (attempt i).read = .registers l →
        fields t.asset ≠ [] ∧ l ≠ [] := by
  have hpoint : ∀ (p : Point) (l : List Nat), p.values = decodeRegisters p.asset l →
      (Given.ReadBack (p.given zone).line (p.given zone) ↔
        IsName zone ∧ fields p.asset ≠ [] ∧ l ≠ []) := fun p l => readBack_point
  -- the health line asks for the zone, so the points may assume it
  rw [linesReadBack_iff]
  unfold givens
  rw [List.forall_mem_append, List.forall_mem_map, List.forall_mem_singleton, readBack_health,
    forall_points_iff (R := fun asset l => IsName zone ∧ fields asset ≠ [] ∧ l ≠ []) hpoint,
    and_comm]
  refine and_congr_right fun hzone => ?_
  simp [hzone]

/-- A pump that `FIELDS` does not know answers, and its line has no field. -/
theorem unknown_asset_not_read_back :
    ¬ ∀ (int : String → Py Nat) (value zone : String) (attempt : Nat → Attempt)
      (http : HttpOutcome) (clients : Clients) (targets : List Target),
      parseTargets int value = .ok targets →
      LinesReadBack zone attempt http clients targets := by
  intro h
  have hlines := h (fun _ => .ok 502) "plc_pump=172.21.0.13:502" "control"
    (answeringCycle true).attempt .success (fun _ => none) [⟨"plc_pump", "172.21.0.13", 502⟩]
    (by decide)
  obtain ⟨hfirst, -⟩ := List.forall₂_cons.mp hlines
  exact hfirst.2 rfl

end OtLab.Poller
