import Mathlib.Data.List.Sort
import Mathlib.Data.String.Basic
import OtLab.Governance.AlertLog
import OtLab.Lib.DictDiff
import OtLab.Lib.Run

/-!
# The golden manifest

`plc_integrity_check.py --update` writes the digests of the programs in `plc` to a manifest, and a
later run compares the files with it. The digest is a parameter, and anything may happen to the
files in between.

* `mem_goldenManifest_iff` — what the manifest holds
* `verdict_of_run` — what a check finds, and what it appends to the alert log, along every run
-/

namespace OtLab.Integrity

open AlertLog Lib LoginMonitor
open Bytes (sha256Small sha256Small_inj)

/-! ## The repository -/

inductive Node where
  | file (contents : Bytes)
  | dir
deriving DecidableEq

/--
The names in `PLC_DIR`, and what a path from the root of the repository leads to. A name that leads
nowhere, a dangling link, is left out by `programs`, though `glob` would list it.
-/
structure Tree where
  listing : List String
  node : String → Option Node
  listed : ∀ name, '/' ∉ name.toList → (node ("plc/" ++ name)).isSome → name ∈ listing

/-- The ways the script ends without a return code. -/
inductive Stop where
  | keyError
  | typeError
  | attributeError
  | isADirectoryError
  | fileNotFoundError
deriving DecidableEq, Repr

abbrev Check := Except Stop

def path (name : String) : String := "plc/" ++ name

/-- The name matches `*.st`. -/
def isProgram (name : String) : Bool := ".st".toList.isSuffixOf name.toList

/-- `st_file.stem`; a name that begins with its last dot has no suffix. -/
def stem (name : String) : String :=
  let base := name.toList.take (name.toList.length - 3)
  if base = [] then name else String.ofList base

/-- `sorted(PLC_DIR.glob("*.st"))` -/
def programs (tree : Tree) : List String :=
  (tree.listing.filter fun name => isProgram name && (tree.node (path name)).isSome).insertionSort
    (· ≤ ·)

inductive Status where
  | ok
  | missing
  | tampered
deriving DecidableEq, Repr

def Status.str : Status → String
  | ok => "OK"
  | missing => "MISSING"
  | tampered => "TAMPERED"

section Script

variable (sha256 : Bytes → String)

/-- `sha256_of` -/
def sha256Of : Node → Check String
  | .file contents => .ok (sha256 contents)
  | .dir => .error .isADirectoryError

/-- The entry of a program. -/
def entry (name digest : String) : Json :=
  .obj [("program", .str (path name)), ("sha256", .str digest)]

/-- `update_manifest`, up to its file. -/
def updateManifest (tree : Tree) : Check (List (String × Json)) :=
  (programs tree).foldlM (fun manifest name => do
    let digest ← match tree.node (path name) with
      | some node => sha256Of sha256 node
      | none => .error .fileNotFoundError
    return assign (stem name) (entry name digest) manifest) []

/-- `info[key]` -/
def subscript (info : Json) (key : String) : Check Json :=
  match info with
  | .obj d =>
    match d.lookup key with
    | some value => .ok value
    | none => .error .keyError
  | _ => .error .typeError

/-- The body of the loop of `verify`. -/
def verifyProgram (tree : Tree) (item : String × Json) : Check (String × Status) := do
  match ← subscript item.2 "program" with
  | .str program =>
    match tree.node program with
    | none => return (item.1, .missing)
    | some node =>
      let digest ← sha256Of sha256 node
      match ← subscript item.2 "sha256" with
      | .str golden => return (item.1, if digest = golden then .ok else .tampered)
      | _ => return (item.1, .tampered)
  | _ => .error .typeError

/-- `verify`; the keys of a dictionary are distinct. -/
def verify (tree : Tree) : Json → Check (List (String × Status))
  | .obj manifest => (manifest.insertionSort fun a b => a.1 ≤ b.1).mapM (verifyProgram sha256 tree)
  | _ => .error .attributeError

/-- An entry of the alert log, but for its time stamp. -/
def tamperAlert (result : String × Status) : Dict :=
  [ ("alert_type", .str "PLC_LOGIC_TAMPERED"),
    ("plc", .str result.1),
    ("status", .str result.2.str),
    ("mitre_id", .str "T0843"),
    ("description", .str "PLC logic integrity verification failed.") ]

/-- `main` without `--update`: the alerts it appends with `--alert-log`, and its return code. -/
def main (tree : Tree) (manifest : Option Json) : Check (List Dict × Nat) := do
  match manifest with
  | none => .error .fileNotFoundError
  | some manifest =>
    let results ← verify sha256 tree manifest
    let bad := results.filter fun result => result.2 ≠ .ok
    return (bad.map tamperAlert, if bad = [] then 0 else 1)

/-! ## Runs -/

/-- The files, and what `MANIFEST` decodes to when it is there. -/
structure Station where
  tree : Tree
  manifest : Option Json

/-- Somebody changes the files, or runs the script with `--update`. -/
inductive Event where
  | changed (tree : Tree)
  | update

/-- An update that raises leaves the manifest alone. -/
def Station.step (s : Station) : Event → Station
  | .changed tree => { s with tree }
  | .update =>
    match updateManifest sha256 s.tree with
    | .ok manifest => { s with manifest := some (.obj manifest) }
    | .error _ => s

end Script

/-! ## What is golden -/

/-- The files, and what they were at the last update that went through. -/
structure Baseline where
  tree : Tree
  golden : Option Tree

def Readable (tree : Tree) : Prop := ∀ name ∈ programs tree, tree.node (path name) ≠ some .dir

instance (tree : Tree) : Decidable (Readable tree) :=
  inferInstanceAs (Decidable (∀ name ∈ programs tree, _))

def Baseline.step (a : Baseline) : Event → Baseline
  | .changed tree => { a with tree }
  | .update => if Readable a.tree then { a with golden := some a.tree } else a

/-- The manifest has an entry for the program: none that comes later has its key. -/
def Covered (golden : Tree) (name : String) : Prop :=
  name ∈ programs golden ∧ ∀ name' ∈ programs golden, stem name' = stem name → name' ≤ name

/-- What is to be found about a program. -/
def statusOf (golden tree : Tree) (name : String) : Status :=
  match tree.node (path name) with
  | none => .missing
  | some node => if golden.node (path name) = some node then .ok else .tampered

/-! ## The manifest -/

variable {tree golden : Tree} {name : String}

theorem mem_programs_iff : name ∈ programs tree ↔
    name ∈ tree.listing ∧ isProgram name = true ∧ (tree.node (path name)).isSome = true := by
  rw [programs, List.mem_insertionSort, List.mem_filter, Bool.and_eq_true]

/-- The last one of a sorted list. -/
theorem getLast?_eq_some_iff_of_sorted {α : Type*} [PartialOrder α] {l : List α}
    (h : l.Pairwise (· ≤ ·)) {a : α} : l.getLast? = some a ↔ a ∈ l ∧ ∀ b ∈ l, b ≤ a := by
  have hlast : ∀ z, l.getLast? = some z → z ∈ l ∧ ∀ b ∈ l, b ≤ z := by
    intro z hz
    obtain ⟨init, rfl⟩ := List.getLast?_eq_some_iff.mp hz
    refine ⟨by simp, fun b hb => ?_⟩
    rcases List.mem_append.mp hb with hb | hb
    · exact (List.pairwise_append.mp h).2.2 b hb z (List.mem_singleton_self z)
    · exact (List.mem_singleton.mp hb).le
  constructor
  · exact hlast a
  · rintro ⟨hmem, hmax⟩
    cases hz : l.getLast? with
    | none =>
      rw [List.getLast?_eq_none_iff] at hz
      rw [hz] at hmem
      exact absurd hmem List.not_mem_nil
    | some z =>
      obtain ⟨hzmem, hzmax⟩ := hlast z hz
      rw [le_antisymm (hmax z hzmem) (hzmax a hmem)]

section Manifest

variable {sha256 : Bytes → String}

/-- The digest of a program that is a file. -/
def digestOf (sha256 : Bytes → String) (tree : Tree) (name : String) : String :=
  match tree.node (path name) with
  | some (.file contents) => sha256 contents
  | _ => ""

/-- What `update_manifest` writes when every program is a file. -/
def goldenManifest (sha256 : Bytes → String) (tree : Tree) : List (String × Json) :=
  assignAll [] ((programs tree).map fun name => (stem name, entry name (digestOf sha256 tree name)))

/-- The update goes through exactly if no program is a directory. -/
theorem updateManifest_eq (sha256 : Bytes → String) (tree : Tree) :
    (Readable tree → updateManifest sha256 tree = .ok (goldenManifest sha256 tree)) ∧
    (¬ Readable tree → ∃ e, updateManifest sha256 tree = .error e) := by
  let digested (name : String) : Check (String × Json) := do
    let digest ← match tree.node (path name) with
      | some node => sha256Of sha256 node
      | none => .error .fileNotFoundError
    return (stem name, entry name digest)
  have hsplit : updateManifest sha256 tree
      = ((programs tree).mapM digested).map fun ps => assignAll [] ps := by
    refine foldlM_eq_map_mapM (f := digested)
      (g := fun manifest (p : String × Json) => assign p.1 p.2 manifest) ?_ _ _
    intro manifest name
    simp only [digested]
    cases tree.node (path name) with
    | none => rfl
    | some node => cases node <;> rfl
  constructor
  · intro hreadable
    have hall : (programs tree).mapM digested = .ok ((programs tree).map fun name =>
        (stem name, entry name (digestOf sha256 tree name))) := by
      refine mapM_comprehension fun name hname => ?_
      have hnode := (mem_programs_iff.mp hname).2.2
      have hfile := hreadable name hname
      simp only [digested, digestOf]
      cases hn : tree.node (path name) with
      | none =>
        rw [hn] at hnode
        cases hnode
      | some node =>
        cases node with
        | file contents => rfl
        | dir => exact absurd hn hfile
    rw [hsplit, hall]
    rfl
  · intro hnot
    cases hrun : updateManifest sha256 tree with
    | error e => exact ⟨e, rfl⟩
    | ok manifest =>
      refine absurd (fun name hname hdir => ?_) hnot
      rw [hsplit] at hrun
      cases hall : (programs tree).mapM digested with
      | error e =>
        rw [hall] at hrun
        cases hrun
      | ok ps =>
        obtain ⟨p, hp⟩ := mapM_returns_iff.mp ⟨ps, hall⟩ name hname
        simp only [digested, hdir] at hp
        cases hp

theorem nodup_keys_goldenManifest : (keys (goldenManifest sha256 tree)).Nodup :=
  nodup_keys_assignAll _ [] List.nodup_nil

/-- **What the manifest holds**: an entry for every covered program, and no other. -/
theorem mem_goldenManifest_iff {item : String × Json} : item ∈ goldenManifest sha256 tree ↔
    ∃ name, Covered tree name ∧ item = (stem name, entry name (digestOf sha256 tree name)) := by
  obtain ⟨k, v⟩ := item
  have hsorted : ((programs tree).filter fun name => stem name = k).Pairwise (· ≤ ·) :=
    (List.pairwise_insertionSort _ _).filter _
  rw [mem_iff_lookup nodup_keys_goldenManifest, goldenManifest, lookup_assignAll, List.filter_map,
    List.getLast?_map, List.lookup_nil, Option.or_none, Option.map_map, Option.map_eq_some_iff]
  refine exists_congr fun name => ?_
  have hcovered : ((programs tree).filter fun name => stem name = k).getLast? = some name ↔
      Covered tree name ∧ stem name = k := by
    rw [getLast?_eq_some_iff_of_sorted hsorted]
    simp only [List.mem_filter, decide_eq_true_eq, Covered, and_imp]
    constructor
    · rintro ⟨⟨hmem, rfl⟩, hmax⟩
      exact ⟨⟨hmem, hmax⟩, rfl⟩
    · rintro ⟨⟨hmem, hmax⟩, rfl⟩
      exact ⟨⟨hmem, rfl⟩, hmax⟩
  rw [Prod.mk.injEq, eq_comm (b := stem name), eq_comm (b := entry _ _), ← and_assoc, ← hcovered]
  rfl

end Manifest

/-- Only a file that is called `.st` can share its key with another one. -/
theorem covered_of_mem (h : name ∈ programs tree) (hne : name ≠ ".st") : Covered tree name := by
  refine ⟨h, fun name' hname' hstem => ?_⟩
  have hparts : ∀ n ∈ programs tree, ∃ base, n = String.ofList (base ++ ".st".toList) ∧
      stem n = if base = [] then n else String.ofList base := by
    intro n hn
    obtain ⟨base, hbase⟩ := List.isSuffixOf_iff_suffix.mp (mem_programs_iff.mp hn).2.1
    have htake : n.toList.take (n.toList.length - 3) = base := by
      rw [← hbase, List.length_append]
      exact List.take_left' (Nat.add_sub_cancel ..).symm
    refine ⟨base, ?_, ?_⟩
    · rw [hbase, String.ofList_toList]
    · rw [stem, htake]
  obtain ⟨base, rfl, hbase⟩ := hparts name h
  obtain ⟨base', rfl, hbase'⟩ := hparts name' hname'
  rw [hbase, hbase'] at hstem
  by_cases hnil : base = []
  · exact absurd (by rw [hnil]; rfl) hne
  · rw [if_neg hnil] at hstem
    by_cases hnil' : base' = []
    · -- then the other file is called `.st.st`
      subst hnil'
      rw [if_pos rfl, List.nil_append] at hstem
      obtain rfl := String.ofList_injective hstem
      decide
    · rw [if_neg hnil'] at hstem
      rw [String.ofList_injective hstem]

/-! ## The check -/

section Verify

variable {sha256 : Bytes → String}

/-- One program of a golden manifest. -/
theorem verifyProgram_entry (sha256 : Bytes → String) (tree : Tree) (name digest : String) :
    verifyProgram sha256 tree (stem name, entry name digest) =
      match tree.node (path name) with
      | none => .ok (stem name, .missing)
      | some .dir => .error .isADirectoryError
      | some (.file contents) =>
        .ok (stem name, if sha256 contents = digest then .ok else .tampered) := by
  have hprogram : subscript (entry name digest) "program" = .ok (.str (path name)) := rfl
  have hgolden : subscript (entry name digest) "sha256" = .ok (.str digest) := rfl
  unfold verifyProgram
  rw [hprogram]
  dsimp only [bind, Except.bind]
  cases tree.node (path name) with
  | none => rfl
  | some node =>
    cases node with
    | dir => rfl
    | file contents =>
      dsimp only [sha256Of]
      rw [hgolden]
      rfl

/-- The digest tells the contents that are compared apart. -/
def Distinguishes (sha256 : Bytes → String) (golden tree : Tree) : Prop :=
  ∀ name c c', golden.node (path name) = some (.file c) →
    tree.node (path name) = some (.file c') → sha256 c' = sha256 c → c' = c

theorem verifyProgram_golden (hreadable : Readable golden)
    (hdigest : Distinguishes sha256 golden tree) (hcovered : Covered golden name)
    (hfile : tree.node (path name) ≠ some .dir) :
    verifyProgram sha256 tree (stem name, entry name (digestOf sha256 golden name))
      = .ok (stem name, statusOf golden tree name) := by
  rw [verifyProgram_entry, statusOf]
  cases htree : tree.node (path name) with
  | none => rfl
  | some node =>
    cases node with
    | dir => exact absurd htree hfile
    | file contents =>
      have hgolden := hreadable name hcovered.1
      have hsome := (mem_programs_iff.mp hcovered.1).2.2
      dsimp only
      cases hg : golden.node (path name) with
      | none =>
        rw [hg] at hsome
        cases hsome
      | some node =>
        cases node with
        | dir => exact absurd hg hgolden
        | file contents' =>
          rw [digestOf, hg]
          dsimp only
          refine congrArg (fun status => Except.ok (stem name, status)) (if_congr ?_ rfl rfl)
          rw [Option.some.injEq, Node.file.injEq]
          exact ⟨fun h => (hdigest name _ _ hg htree h).symm, fun h => by rw [h]⟩

/-- What a check of a golden manifest returns. -/
theorem verify_golden (hreadable : Readable golden) (hdigest : Distinguishes sha256 golden tree)
    (hfile : ∀ name, Covered golden name → tree.node (path name) ≠ some .dir) :
    ∃ results, verify sha256 tree (.obj (goldenManifest sha256 golden)) = .ok results ∧
      (results.map Prod.fst).Nodup ∧
      ∀ result, result ∈ results ↔
        ∃ name, Covered golden name ∧ result = (stem name, statusOf golden tree name) := by
  let items := (goldenManifest sha256 golden).insertionSort fun a b => a.1 ≤ b.1
  have hmem : ∀ item, item ∈ items ↔ ∃ name, Covered golden name ∧
      item = (stem name, entry name (digestOf sha256 golden name)) := fun item =>
    (List.mem_insertionSort _).trans mem_goldenManifest_iff
  have hprogram : ∀ item ∈ items, ∃ name, Covered golden name ∧ item.1 = stem name ∧
      verifyProgram sha256 tree item = .ok (stem name, statusOf golden tree name) := by
    intro item hitem
    obtain ⟨name, hcovered, rfl⟩ := (hmem item).mp hitem
    exact ⟨name, hcovered, rfl, verifyProgram_golden hreadable hdigest hcovered
      (hfile name hcovered)⟩
  obtain ⟨results, hresults⟩ := (mapM_returns_iff (f := verifyProgram sha256 tree)).mpr
    fun item hitem => (hprogram item hitem).imp' _ fun name h => h.2.2
  refine ⟨results, hresults, ?_, fun result => ?_⟩
  · have hkeys : results.map Prod.fst = items.map Prod.fst := by
      refine map_mapM hresults fun item hitem result hok => ?_
      obtain ⟨name, -, hkey, hresult⟩ := hprogram item hitem
      rw [← Except.ok.inj (hresult.symm.trans hok), hkey]
    rw [hkeys]
    exact ((List.perm_insertionSort _ _).map Prod.fst).nodup_iff.mpr nodup_keys_goldenManifest
  · rw [mem_mapM_iff hresults]
    constructor
    · rintro ⟨item, hitem, hok⟩
      obtain ⟨name, hcovered, -, hresult⟩ := hprogram item hitem
      exact ⟨name, hcovered, Except.ok.inj (hok.symm.trans hresult)⟩
    · rintro ⟨name, hcovered, rfl⟩
      exact ⟨_, (hmem _).mpr ⟨name, hcovered, rfl⟩,
        verifyProgram_golden hreadable hdigest hcovered (hfile name hcovered)⟩

end Verify

/-! ## Runs of the script -/

/-- The manifest is the one of the golden files. -/
structure Refines (sha256 : Bytes → String) (s : Station) (a : Baseline) : Prop where
  tree : s.tree = a.tree
  manifest : s.manifest = a.golden.map fun golden => .obj (goldenManifest sha256 golden)
  readable : ∀ golden, a.golden = some golden → Readable golden

theorem refines_step {sha256 : Bytes → String} (e : Event) {s : Station} {a : Baseline}
    (h : Refines sha256 s a) : Refines sha256 (s.step sha256 e) (a.step e) := by
  cases e with
  | changed tree => exact ⟨rfl, h.manifest, h.readable⟩
  | update =>
    obtain ⟨hgoes, hraises⟩ := updateManifest_eq sha256 a.tree
    unfold Station.step Baseline.step
    rw [h.tree]
    by_cases hreadable : Readable a.tree
    · rw [hgoes hreadable]
      dsimp only
      rw [if_pos hreadable]
      refine ⟨rfl, rfl, fun golden hgolden => ?_⟩
      obtain rfl := Option.some.inj hgolden
      exact hreadable
    · obtain ⟨e, he⟩ := hraises hreadable
      rw [he]
      dsimp only
      rw [if_neg hreadable]
      exact h

/-- The alerts of a check are those of the programs that are not as they were. -/
theorem tamperAlert_injective : Function.Injective tamperAlert := by
  rintro ⟨plc, status⟩ ⟨plc', status'⟩ h
  simp only [tamperAlert, List.cons.injEq, Prod.mk.injEq, Value.str.injEq, true_and, and_true] at h
  obtain ⟨rfl, hstatus⟩ := h
  have : ∀ st st' : Status, st.str = st'.str → st = st' := by
    intro st st'
    cases st <;> cases st' <;> decide
  rw [this status status' hstatus]

/-- As many alerts of the type are counted afterwards as there are lines more. -/
theorem count_of_logs {loads : Loads} {before lines : List (List Char)} {alerts : List Dict}
    {t : String} {earlier : Counts} (hone : ∀ line ∈ before, OneLine line)
    (hearlier : alertCounts loads (some (file before)) = .ok earlier)
    (hlogs : List.Forall₂ (Logs loads) lines alerts)
    (ht : ∀ alert ∈ alerts, alert.lookup "alert_type" = some (.str t)) :
    ∃ later, alertCounts loads (some (file (before ++ lines))) = .ok later ∧
      later.get (.text t) = earlier.get (.text t) + alerts.length := by
  rw [alertCounts_file hone] at hearlier
  cases hbefore : names loads before with
  | error e =>
    rw [hbefore] at hearlier
    cases hearlier
  | ok ks =>
    rw [hbefore] at hearlier
    obtain rfl := Except.ok.inj hearlier
    have hlines : ∀ line ∈ lines, OneLine line := by
      intro line hline
      obtain ⟨alert, -, hlogs⟩ := mem_left_of_forall₂ hlogs.flip hline
      exact hlogs.1
    have hall : ∀ line ∈ before ++ lines, OneLine line := List.forall_mem_append.mpr ⟨hone, hlines⟩
    have hnames := names_append.mpr ⟨ks, _, hbefore, names_of_logs hlogs ht, rfl⟩
    refine ⟨_, by rw [alertCounts_file hall, hnames]; rfl, ?_⟩
    rw [get_tally, get_tally, List.count_append, List.count_replicate_self]
    omega

theorem statusOf_eq_ok_iff (hname : name ∈ programs golden) :
    statusOf golden tree name = .ok ↔ tree.node (path name) = golden.node (path name) := by
  have hsome := (mem_programs_iff.mp hname).2.2
  unfold statusOf
  cases tree.node (path name) with
  | none =>
    refine iff_of_false (show Status.missing ≠ .ok by decide) fun heq => ?_
    rw [← heq] at hsome
    cases hsome
  | some node =>
    dsimp only
    split_ifs with h
    · exact iff_of_true rfl h.symm
    · exact iff_of_false (by decide) fun heq => h heq.symm

/--
**What a check finds.**

However the files change and whenever the manifest is updated: a check compares the files with what
they were at the last update that went through. Its exit status is zero exactly if every covered
program is as it was then, it appends one alert for each that is not, and `alert_counts` counts
these.
-/
theorem verdict_of_run (sha256 : Bytes → String) (tree : Tree) (es : List Event) :
    let s := run (Station.step sha256) ⟨tree, none⟩ es
    let a := run Baseline.step ⟨tree, none⟩ es
    (a.golden = none → main sha256 s.tree s.manifest = .error .fileNotFoundError) ∧
    ∀ golden, a.golden = some golden → Distinguishes sha256 golden s.tree →
      (∀ name, Covered golden name → s.tree.node (path name) ≠ some .dir) →
      ∃ alerts code, main sha256 s.tree s.manifest = .ok (alerts, code) ∧
        (code = 0 ↔ ∀ name, Covered golden name →
          s.tree.node (path name) = golden.node (path name)) ∧
        alerts.Nodup ∧
        (∀ alert, alert ∈ alerts ↔ ∃ name, Covered golden name ∧
          statusOf golden s.tree name ≠ .ok ∧
            alert = tamperAlert (stem name, statusOf golden s.tree name)) ∧
        ∀ loads before lines earlier, (∀ line ∈ before, OneLine line) →
          alertCounts loads (some (file before)) = .ok earlier →
          List.Forall₂ (Logs loads) lines alerts →
          ∃ later, alertCounts loads (some (file (before ++ lines))) = .ok later ∧
            later.get (.text "PLC_LOGIC_TAMPERED")
              = earlier.get (.text "PLC_LOGIC_TAMPERED") + alerts.length := by
  intro s a
  have hrefines : Refines sha256 s a :=
    run_lockstep (Refines sha256) (fun e _ _ _ h => refines_step e h)
      ⟨rfl, rfl, fun _ h => by cases h⟩
  constructor
  · intro hnone
    rw [hrefines.manifest, hnone]
    rfl
  · intro golden hgolden hdigest hfile
    obtain ⟨results, hverify, hnodup, hresults⟩ :=
      verify_golden (hrefines.readable golden hgolden) hdigest hfile
    let bad := results.filter fun result => result.2 ≠ .ok
    have hbad : ∀ result, result ∈ bad ↔ ∃ name, Covered golden name ∧
        statusOf golden s.tree name ≠ .ok ∧ result = (stem name, statusOf golden s.tree name) := by
      intro result
      rw [List.mem_filter, hresults, decide_eq_true_eq]
      constructor
      · rintro ⟨⟨name, hcovered, rfl⟩, hne⟩
        exact ⟨name, hcovered, hne, rfl⟩
      · rintro ⟨name, hcovered, hne, rfl⟩
        exact ⟨⟨name, hcovered, rfl⟩, hne⟩
    refine ⟨bad.map tamperAlert, if bad = [] then 0 else 1, ?_, ?_, ?_, fun alert => ?_, ?_⟩
    · rw [hrefines.manifest, hgolden]
      unfold main
      dsimp only [Option.map_some]
      rw [hverify]
      rfl
    · have hcode : (if bad = [] then 0 else 1) = 0 ↔ bad = [] := by
        split_ifs with h
        · exact iff_of_true rfl h
        · exact iff_of_false (by decide) h
      rw [hcode, List.eq_nil_iff_forall_not_mem]
      constructor
      · intro hnil name hcovered
        by_contra hne
        exact hnil _ ((hbad _).mpr ⟨name, hcovered,
          mt (statusOf_eq_ok_iff hcovered.1).mp hne, rfl⟩)
      · intro hsame result hresult
        obtain ⟨name, hcovered, hne, -⟩ := (hbad result).mp hresult
        exact hne ((statusOf_eq_ok_iff hcovered.1).mpr (hsame name hcovered))
    · exact ((hnodup.of_map _).filter _).map tamperAlert_injective
    · rw [List.mem_map]
      constructor
      · rintro ⟨result, hresult, rfl⟩
        obtain ⟨name, hcovered, hne, rfl⟩ := (hbad result).mp hresult
        exact ⟨name, hcovered, hne, rfl⟩
      · rintro ⟨name, hcovered, hne, rfl⟩
        exact ⟨_, (hbad _).mpr ⟨name, hcovered, hne, rfl⟩, rfl⟩
    · intro loads before lines earlier hone hearlier hlogs
      refine count_of_logs hone hearlier hlogs fun alert halert => ?_
      obtain ⟨result, -, rfl⟩ := List.mem_map.mp halert
      rfl

/-! ## A changed program -/

/-- Files in `plc`. -/
def treeOf (files : List (String × Bytes)) : Tree where
  listing := files.map Prod.fst
  node p := (files.find? fun f => path f.1 = p).map fun f => .file f.2
  listed := by
    intro name _ hsome
    rw [Option.isSome_map, List.find?_isSome] at hsome
    obtain ⟨f, hf, hpath⟩ := hsome
    obtain rfl := (String.append_right_inj "plc/").mp (of_decide_eq_true hpath)
    exact List.mem_map_of_mem hf

/-- Two programs, and what they are after somebody has emptied one of them. -/
def goldenFiles : List (String × Bytes) :=
  [("intake.st", [97, 98, 99]), ("treatment.st", [97, 98, 99])]

def emptiedFiles : List (String × Bytes) :=
  [("intake.st", []), ("treatment.st", [97, 98, 99])]

theorem exists_of_node_treeOf {files : List (String × Bytes)} {p : String} {contents : Bytes}
    (h : (treeOf files).node p = some (.file contents)) : contents ∈ files.map Prod.snd := by
  obtain ⟨f, hf, hcontents⟩ := Option.map_eq_some_iff.mp h
  obtain rfl := Node.file.inj hcontents
  exact List.mem_map_of_mem (List.mem_of_find?_eq_some hf)

theorem distinguishes_small : Distinguishes sha256Small (treeOf goldenFiles)
    (treeOf emptiedFiles) := by
  intro name c c' hc hc' hdigest
  have hgolden : c = [97, 98, 99] := by simpa [goldenFiles] using exists_of_node_treeOf hc
  have hemptied : c' = [] ∨ c' = [97, 98, 99] := by
    simpa [emptiedFiles] using exists_of_node_treeOf hc'
  exact sha256Small_inj hemptied (Or.inr hgolden) hdigest

/-- The change is found. -/
theorem verdict_of_run_emptied : ∃ alerts code,
    let s := run (Station.step sha256Small) ⟨treeOf goldenFiles, none⟩
      [.update, .changed (treeOf emptiedFiles)]
    main sha256Small s.tree s.manifest = .ok (alerts, code) ∧ code ≠ 0 := by
  have hnames : ∀ name ∈ programs (treeOf goldenFiles),
      name = "intake.st" ∨ name = "treatment.st" := by
    intro name hname
    have hlisted := (mem_programs_iff.mp hname).1
    simpa [treeOf, goldenFiles] using hlisted
  have hreadable : Readable (treeOf goldenFiles) := by
    intro name hname
    rcases hnames name hname with rfl | rfl <;> decide
  have hgolden : (run Baseline.step ⟨treeOf goldenFiles, none⟩
      [.update, .changed (treeOf emptiedFiles)]).golden = some (treeOf goldenFiles) := by
    rw [run_cons, Baseline.step, if_pos hreadable]
    rfl
  have hfile : ∀ name, Covered (treeOf goldenFiles) name →
      (treeOf emptiedFiles).node (path name) ≠ some .dir := by
    rintro name ⟨hname, -⟩
    rcases hnames name hname with rfl | rfl <;> decide
  have hintake : "intake.st" ∈ programs (treeOf goldenFiles) := mem_programs_iff.mpr (by decide)
  obtain ⟨alerts, code, hmain, hcode, -⟩ := (verdict_of_run sha256Small (treeOf goldenFiles)
    [.update, .changed (treeOf emptiedFiles)]).2 (treeOf goldenFiles) hgolden
      distinguishes_small hfile
  refine ⟨alerts, code, hmain, fun hzero => ?_⟩
  have hsame := hcode.mp hzero "intake.st" (covered_of_mem hintake (by decide))
  exact absurd hsame (by decide)

end OtLab.Integrity
