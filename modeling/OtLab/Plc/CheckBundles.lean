import Mathlib.Data.List.Sort
import Mathlib.Order.Basic
import OtLab.Lib.DictDiff
import OtLab.Lib.Polling
import OtLab.Py.Bytes

/-!
# The bundle drift gate

`check_bundles.py` compares every bundle of the working tree with the one committed under the same
path, by the names of its files and the digests of their contents. The digest, the unified diff and
the messages of git are parameters.

* `main_eq_zero_iff` — when the gate passes
* `drift_gate_exact` — the gate passes exactly when the two trees hold the same files
-/

namespace OtLab.CheckBundles

open Lib
open Bytes (sha256Small sha256Small_inj)

/-! ## Archives -/

structure ZipEntry where
  filename : String
  contents : Bytes
deriving DecidableEq, Repr

/-- `info.is_dir()`. -/
def ZipEntry.isDir (info : ZipEntry) : Bool := info.filename.toList.getLast? = some '/'

/-- `archive.infolist()`. -/
abbrev Archive := List ZipEntry

/-- The ways `main` ends without a return code. -/
inductive Stop where
  | systemExit (message : String)
  | keyError
deriving DecidableEq, Repr

abbrev Gate := Except Stop

/-- `archive.read(name)`; of a repeated name it is the last entry. -/
def read (archive : Archive) (name : String) : Gate Bytes :=
  match (archive.filter fun info => info.filename = name).getLast? with
  | some info => .ok info.contents
  | none => .error .keyError

/-- The names of the files, in the order of their first entries. -/
def fileNames (archive : Archive) : List String :=
  ((archive.filter fun info => !info.isDir).map ZipEntry.filename).eraseDups

section Gate

variable {δ : Type} [DecidableEq δ] (sha256 : Bytes → δ)
  (textDiff : Bytes → Bytes → String → String) (stderr : String → String)

/-- `manifest`. -/
def manifest (archive : Archive) : Gate (List (String × δ)) :=
  (fileNames archive).mapM fun name => do
    let contents ← read archive name
    return (name, sha256 contents)

/-- `sorted`. -/
def sorted (names : List String) : List String := names.insertionSort (· ≤ ·)

/-- `plc/programs`: the listed names, and the `program.zip` of a name when it is a file. -/
structure WorkingTree where
  listing : List String
  bundle : String → Option Archive
  listed : ∀ name, (bundle name).isSome → name ∈ listing

/-- The bundles committed to `HEAD`, by the name of their program. -/
abbrev Head := String → Option Archive

def relativePath (program : String) : String := "plc/programs/" ++ program ++ "/program.zip"

/-- `committed_zip`. -/
def committedZip (head : Head) (program : String) : Gate Archive :=
  match head program with
  | some archive => .ok archive
  | none => .error (.systemExit ("cannot read " ++ relativePath program ++ " from HEAD: "
      ++ stderr (relativePath program)))

/-- What `main` has printed, and its variable `failed`. -/
structure GateState where
  lines : List String
  failed : Bool

/-- The lines about an entry whose content changed. -/
def contentChanged (relative : String) (committed rebuilt : Archive) (filename : String) :
    Gate (List String) := do
  let before ← read committed filename
  let after ← read rebuilt filename
  return [relative ++ ": content changed: " ++ filename, textDiff before after filename]

/-- What the loop of `main` does with two archives: what it prints, and whether they differ. -/
def checkBundle (relative : String) (committedBlob rebuiltBlob : Archive) :
    Gate (List String × Bool) := do
  let committed ← manifest sha256 committedBlob
  let rebuilt ← manifest sha256 rebuiltBlob
  let changed := sorted (changedKeys committed rebuilt)
  let added := sorted (newKeys committed rebuilt)
  let removed := sorted (newKeys rebuilt committed)
  if changed.isEmpty && added.isEmpty && removed.isEmpty then
    return ([relative ++ ": up to date (" ++ toString committed.length ++ " entries)"], false)
  let missing := removed.map fun filename => relative ++ ": missing from rebuild: " ++ filename
  let new := added.map fun filename => relative ++ ": new in rebuild: " ++ filename
  let diffs ← changed.mapM (contentChanged textDiff relative committedBlob rebuiltBlob)
  return (missing ++ new ++ diffs.flatten, true)

/-- The body of the loop of `main`. -/
def checkProgram (head : Head) (st : GateState) (program : String × Archive) : Gate GateState := do
  let committedBlob ← committedZip stderr head program.1
  let (lines, drifted) ←
    checkBundle sha256 textDiff (relativePath program.1) committedBlob program.2
  return { lines := st.lines ++ lines, failed := st.failed || drifted }

/-- The names with a bundle, sorted, with their bundles. -/
def WorkingTree.programs (work : WorkingTree) : List (String × Archive) :=
  (sorted work.listing).filterMap fun name => (work.bundle name).map fun archive => (name, archive)

/-- `main`: the printed lines and the return code. -/
def main (head : Head) (work : WorkingTree) : Gate (List String × Nat) := do
  if work.programs.isEmpty then .error (.systemExit "no bundles found under plc/programs/")
  let st ← work.programs.foldlM (checkProgram sha256 textDiff stderr head) ⟨[], false⟩
  return (st.lines, if st.failed then 1 else 0)

end Gate

/-! ## The files of an archive -/

/-- The contents of the last entry of a file. -/
def contentsOf (archive : Archive) (name : String) : Option Bytes :=
  ((archive.filter fun info => !info.isDir && info.filename = name).getLast?).map ZipEntry.contents

/-- The same file names, and the same contents under every name. -/
def SameFiles (committed rebuilt : Archive) : Prop :=
  ∀ name, contentsOf committed name = contentsOf rebuilt name

variable {archive : Archive} {name : String}

theorem mem_fileNames_iff :
    name ∈ fileNames archive ↔ ∃ info ∈ archive, info.isDir = false ∧ info.filename = name := by
  simp only [fileNames, List.mem_eraseDups, List.mem_map, List.mem_filter, Bool.not_eq_true',
    and_assoc]

theorem mem_fileNames_iff_isSome :
    name ∈ fileNames archive ↔ (contentsOf archive name).isSome := by
  rw [mem_fileNames_iff, contentsOf, Option.isSome_map, List.getLast?_isSome, ne_eq,
    List.filter_eq_nil_iff]
  simp

/-- Whether an entry is a directory depends on its name only. -/
theorem read_of_mem (h : name ∈ fileNames archive) :
    ∃ contents, contentsOf archive name = some contents ∧ read archive name = .ok contents := by
  obtain ⟨contents, hcontents⟩ := Option.isSome_iff_exists.mp (mem_fileNames_iff_isSome.mp h)
  obtain ⟨info, -, hfile, rfl⟩ := mem_fileNames_iff.mp h
  have hfilter : (archive.filter fun other => !other.isDir && other.filename = info.filename)
      = archive.filter fun other => other.filename = info.filename := by
    refine List.filter_congr fun other _ => ?_
    by_cases hname : other.filename = info.filename
    · have hother : other.isDir = false := by
        rw [ZipEntry.isDir, hname]
        exact hfile
      simp [hname, hother]
    · simp [hname]
  refine ⟨contents, hcontents, ?_⟩
  rw [contentsOf, hfilter] at hcontents
  obtain ⟨last, hlast, rfl⟩ := Option.map_eq_some_iff.mp hcontents
  unfold read
  rw [hlast]

/-! ## The manifests -/

section Gate

variable {δ : Type} [DecidableEq δ] {sha256 : Bytes → δ}
  {textDiff : Bytes → Bytes → String → String} {stderr : String → String}

omit [DecidableEq δ] in
/-- The manifest of an archive never raises, and it maps a file to the digest of its contents. -/
theorem exists_manifest (sha256 : Bytes → δ) (archive : Archive) :
    ∃ m, manifest sha256 archive = .ok m ∧ keys m = fileNames archive ∧
      ∀ name, m.lookup name = (contentsOf archive name).map sha256 := by
  let digest name := sha256 ((contentsOf archive name).getD [])
  refine ⟨(fileNames archive).map fun name => (name, digest name), ?_, ?_, ?_⟩
  · refine mapM_comprehension fun name hname => ?_
    obtain ⟨contents, hcontents, hread⟩ := read_of_mem hname
    rw [hread]
    simp only [digest, hcontents]
    rfl
  · simp [keys, Function.comp_def]
  · intro name
    rw [lookup_comprehension]
    by_cases hname : name ∈ fileNames archive
    · obtain ⟨contents, hcontents, -⟩ := read_of_mem hname
      simp [hname, digest, hcontents]
    · rw [if_neg hname]
      rw [mem_fileNames_iff_isSome, Bool.not_eq_true, Option.isSome_eq_false_iff,
        Option.isNone_iff_eq_none] at hname
      rw [hname, Option.map_none]

theorem sorted_eq_nil_iff {names : List String} : sorted names = [] ↔ names = [] := by
  rw [← List.length_eq_zero_iff, sorted, List.length_insertionSort, List.length_eq_zero_iff]

theorem isEmpty_sorted (names : List String) : (sorted names).isEmpty = names.isEmpty := by
  cases names with
  | nil => rfl
  | cons name names =>
    rw [List.isEmpty_cons, List.isEmpty_eq_false_iff, ne_eq, sorted_eq_nil_iff]
    exact List.cons_ne_nil name names

/-- The lines about changed entries can always be printed. -/
theorem exists_contentChanged (textDiff : Bytes → Bytes → String → String) {relative : String}
    {committed rebuilt : Archive} {names : List String}
    (h : ∀ name ∈ names, name ∈ fileNames committed ∧ name ∈ fileNames rebuilt) :
    ∃ lines, names.mapM (contentChanged textDiff relative committed rebuilt) = .ok lines := by
  refine ⟨names.map fun name => [relative ++ ": content changed: " ++ name,
    textDiff ((contentsOf committed name).getD []) ((contentsOf rebuilt name).getD []) name], ?_⟩
  refine mapM_comprehension fun name hname => ?_
  obtain ⟨hcommitted, hrebuilt⟩ := h name hname
  obtain ⟨before, hbefore, hread⟩ := read_of_mem hcommitted
  obtain ⟨after, hafter, hread'⟩ := read_of_mem hrebuilt
  unfold contentChanged
  rw [hread, hread', hbefore, hafter]
  rfl

/-- The same digest for every file. -/
def SameDigests (sha256 : Bytes → δ) (committed rebuilt : Archive) : Prop :=
  ∀ name, (contentsOf committed name).map sha256 = (contentsOf rebuilt name).map sha256

/-- Two archives are compared without an exception. -/
theorem checkBundle_spec (sha256 : Bytes → δ) (textDiff : Bytes → Bytes → String → String)
    (relative : String) (committed rebuilt : Archive) :
    ∃ lines drifted, checkBundle sha256 textDiff relative committed rebuilt = .ok (lines, drifted) ∧
      (drifted = false ↔ SameDigests sha256 committed rebuilt) := by
  obtain ⟨m, hm, hkeys, hlookup⟩ := exists_manifest sha256 committed
  obtain ⟨m', hm', hkeys', hlookup'⟩ := exists_manifest sha256 rebuilt
  have hsame : SameDigests sha256 committed rebuilt ↔
      changedKeys m m' = [] ∧ newKeys m m' = [] ∧ newKeys m' m = [] := by
    rw [diff_eq_nil_iff]
    simp only [hlookup, hlookup']
    rfl
  have hboth : ∀ name ∈ sorted (changedKeys m m'),
      name ∈ fileNames committed ∧ name ∈ fileNames rebuilt := by
    intro name hname
    obtain ⟨hmem, hrest⟩ := List.mem_filter.mp ((List.mem_insertionSort _).mp hname)
    rw [← hkeys, ← hkeys']
    exact ⟨hmem, (of_decide_eq_true hrest).1⟩
  obtain ⟨diffs, hdiffs⟩ := @exists_contentChanged textDiff relative _ _ _ hboth
  have hrun : checkBundle sha256 textDiff relative committed rebuilt =
      if (changedKeys m m').isEmpty && (newKeys m m').isEmpty && (newKeys m' m).isEmpty then
        .ok ([relative ++ ": up to date (" ++ toString m.length ++ " entries)"], false)
      else .ok ((sorted (newKeys m' m)).map
          (fun name => relative ++ ": missing from rebuild: " ++ name)
        ++ (sorted (newKeys m m')).map (fun name => relative ++ ": new in rebuild: " ++ name)
        ++ diffs.flatten, true) := by
    unfold checkBundle
    rw [hm, hm']
    simp only [isEmpty_sorted, hdiffs, bind, Except.bind, pure, Except.pure]
  rw [hrun, hsame]
  by_cases hempty : changedKeys m m' = [] ∧ newKeys m m' = [] ∧ newKeys m' m = []
  · obtain ⟨hchanged, hadded, hremoved⟩ := hempty
    rw [hchanged, hadded, hremoved]
    exact ⟨_, false, rfl, by simp⟩
  · refine ⟨_, true, if_neg ?_, iff_of_false Bool.true_eq_false.mp hempty⟩
    simpa [and_assoc] using hempty

/-! ## The gate -/

/-- A bundle passes: it is committed, with the same digest for every file. -/
def Passes (sha256 : Bytes → δ) (head : Head) (program : String × Archive) : Prop :=
  ∃ committed, head program.1 = some committed ∧ SameDigests sha256 committed program.2

/-- What the loop does with one bundle. -/
theorem checkProgram_spec (sha256 : Bytes → δ) (textDiff : Bytes → Bytes → String → String)
    (stderr : String → String) (head : Head) (st : GateState) (program : String × Archive) :
    (¬ Passes sha256 head program ∧ ∃ message,
        checkProgram sha256 textDiff stderr head st program = .error (.systemExit message))
      ∨ ∃ st', checkProgram sha256 textDiff stderr head st program = .ok st' ∧
        (st'.failed = false ↔ st.failed = false ∧ Passes sha256 head program) := by
  unfold checkProgram committedZip
  cases hhead : head program.1 with
  | none =>
    refine Or.inl ⟨?_, _, rfl⟩
    rintro ⟨committed, hcommitted, -⟩
    rw [hhead] at hcommitted
    cases hcommitted
  | some committed =>
    obtain ⟨lines, drifted, hcheck, hdrifted⟩ :=
      checkBundle_spec sha256 textDiff (relativePath program.1) committed program.2
    have hpasses : Passes sha256 head program ↔ SameDigests sha256 committed program.2 := by
      constructor
      · rintro ⟨other, hother, h⟩
        obtain rfl := Option.some.inj (hhead.symm.trans hother)
        exact h
      · exact fun h => ⟨committed, hhead, h⟩
    refine Or.inr ⟨⟨st.lines ++ lines, st.failed || drifted⟩, ?_, ?_⟩
    · show (checkBundle sha256 textDiff (relativePath program.1) committed program.2 >>= _) = _
      rw [hcheck]
      rfl
    · rw [hpasses, ← hdrifted, Bool.or_eq_false_iff]

/-- What the loop does with all bundles. -/
theorem foldlM_checkProgram (sha256 : Bytes → δ) (textDiff : Bytes → Bytes → String → String)
    (stderr : String → String) (head : Head) (programs : List (String × Archive)) (st : GateState) :
    ((¬ ∀ p ∈ programs, Passes sha256 head p) ∧
        ∃ message, programs.foldlM (checkProgram sha256 textDiff stderr head) st
          = .error (.systemExit message))
      ∨ ∃ st', programs.foldlM (checkProgram sha256 textDiff stderr head) st = .ok st' ∧
        (st'.failed = false ↔ st.failed = false ∧ ∀ p ∈ programs, Passes sha256 head p) := by
  induction programs generalizing st with
  | nil => exact Or.inr ⟨st, rfl, by simp⟩
  | cons program programs ih =>
    rw [List.foldlM_cons, List.forall_mem_cons]
    rcases checkProgram_spec sha256 textDiff stderr head st program with
      ⟨hnot, message, hstop⟩ | ⟨st₁, hstep, hfailed₁⟩
    · rw [hstop]
      exact Or.inl ⟨fun h => hnot h.1, message, rfl⟩
    · rw [hstep]
      rcases ih st₁ with ⟨hnot, hstop⟩ | ⟨st', hrest, hfailed⟩
      · exact Or.inl ⟨fun h => hnot h.2, hstop⟩
      · exact Or.inr ⟨st', hrest, by rw [hfailed, hfailed₁, and_assoc]⟩

theorem mem_programs {work : WorkingTree} {program : String × Archive} :
    program ∈ work.programs ↔ work.bundle program.1 = some program.2 := by
  unfold WorkingTree.programs
  rw [List.mem_filterMap]
  constructor
  · rintro ⟨name, -, h⟩
    obtain ⟨archive, harchive, rfl⟩ := Option.map_eq_some_iff.mp h
    exact harchive
  · intro h
    refine ⟨program.1, ?_, by rw [h]; rfl⟩
    rw [sorted, List.mem_insertionSort]
    exact work.listed _ (by rw [h, Option.isSome_some])

section Trees

variable (sha256 : Bytes → δ) (textDiff : Bytes → Bytes → String → String)
  (stderr : String → String) (head : Head) (work : WorkingTree)

/-- `main` returns 0. -/
def ReturnsZero : Prop := ∃ lines, main sha256 textDiff stderr head work = .ok (lines, 0)

/-- `main` returns 1 or exits with a message. -/
def Fails : Prop :=
  (∃ lines, main sha256 textDiff stderr head work = .ok (lines, 1)) ∨
    ∃ message, main sha256 textDiff stderr head work = .error (.systemExit message)

omit [DecidableEq δ] in
/-- No two different contents compared by the gate have one digest. -/
def NoCollision : Prop :=
  ∀ name committed rebuilt, head name = some committed → work.bundle name = some rebuilt →
    ∀ a ∈ committed, ∀ b ∈ rebuilt, sha256 a.contents = sha256 b.contents → a.contents = b.contents

/-- The two trees have bundles under the same paths, with the same files. -/
structure SameBundles : Prop where
  paths : ∀ name, (head name).isSome ↔ (work.bundle name).isSome
  files : ∀ name committed rebuilt, head name = some committed → work.bundle name = some rebuilt →
    SameFiles committed rebuilt

/-- **When the gate passes**: there is a bundle, and every bundle of the working tree passes. -/
theorem main_eq_zero_iff :
    (ReturnsZero sha256 textDiff stderr head work ↔ (∃ name, (work.bundle name).isSome) ∧
      ∀ name rebuilt, work.bundle name = some rebuilt → Passes sha256 head (name, rebuilt)) ∧
    (¬ ReturnsZero sha256 textDiff stderr head work → Fails sha256 textDiff stderr head work) := by
  have hall : (∀ p ∈ work.programs, Passes sha256 head p) ↔
      ∀ name rebuilt, work.bundle name = some rebuilt → Passes sha256 head (name, rebuilt) := by
    constructor
    · exact fun h name rebuilt hname => h (name, rebuilt) (mem_programs.mpr hname)
    · exact fun h p hp => h p.1 p.2 (mem_programs.mp hp)
  have hsome : work.programs ≠ [] ↔ ∃ name, (work.bundle name).isSome := by
    constructor
    · intro hne
      obtain ⟨p, hp⟩ := List.exists_mem_of_ne_nil _ hne
      exact ⟨p.1, by rw [mem_programs.mp hp, Option.isSome_some]⟩
    · rintro ⟨name, hname⟩
      obtain ⟨archive, harchive⟩ := Option.isSome_iff_exists.mp hname
      exact List.ne_nil_of_mem (a := (name, archive)) (mem_programs.mpr harchive)
  rw [← hall, ← hsome]
  unfold ReturnsZero Fails main
  by_cases hempty : work.programs = []
  · -- the guard of a tree without bundles
    rw [hempty]
    refine ⟨iff_of_false ?_ fun h => h.1 rfl, fun _ => Or.inr ⟨_, rfl⟩⟩
    rintro ⟨lines, h⟩
    cases h
  · rw [if_neg (by simpa using hempty)]
    show ((∃ lines, (work.programs.foldlM _ _ >>= _) = _) ↔ _) ∧
      (¬ (∃ lines, (work.programs.foldlM _ _ >>= _) = _) →
        (∃ lines, (work.programs.foldlM _ _ >>= _) = _) ∨
          ∃ message, (work.programs.foldlM _ _ >>= _) = _)
    rcases foldlM_checkProgram sha256 textDiff stderr head work.programs ⟨[], false⟩ with
      ⟨hnot, message, hstop⟩ | ⟨st, hrun, hfailed⟩
    · -- a bundle that HEAD does not have
      rw [hstop]
      refine ⟨iff_of_false ?_ fun h => hnot h.2, fun _ => Or.inr ⟨message, rfl⟩⟩
      rintro ⟨lines, h⟩
      cases h
    · rw [hrun]
      obtain ⟨lines, failed⟩ := st
      cases failed with
      | false => exact ⟨iff_of_true ⟨lines, rfl⟩ ⟨hempty, (hfailed.mp rfl).2⟩,
          fun h => absurd ⟨lines, rfl⟩ h⟩
      | true =>
        refine ⟨iff_of_false ?_ fun h => ?_, fun _ => Or.inl ⟨lines, rfl⟩⟩
        · rintro ⟨lines', h⟩
          cases h
        · exact absurd (hfailed.mpr ⟨rfl, h.2⟩) Bool.true_eq_false.mp

variable {sha256 textDiff stderr head work}

omit [DecidableEq δ] in
/-- Without collisions equal digests are equal contents. -/
theorem sameDigests_iff (hash : NoCollision sha256 head work) {name : String}
    {committed rebuilt : Archive} (hc : head name = some committed)
    (hr : work.bundle name = some rebuilt) :
    SameDigests sha256 committed rebuilt ↔ SameFiles committed rebuilt := by
  have hmem : ∀ {archive : Archive} {file : String} {contents : Bytes},
      contentsOf archive file = some contents → ∃ info ∈ archive, info.contents = contents := by
    intro archive file contents h
    obtain ⟨info, hlast, hcontents⟩ := Option.map_eq_some_iff.mp h
    exact ⟨info, List.mem_of_mem_filter (List.mem_of_getLast? hlast), hcontents⟩
  constructor
  · intro h file
    have hfile := h file
    cases hcommitted : contentsOf committed file with
    | none =>
      rw [hcommitted, Option.map_none, eq_comm, Option.map_eq_none_iff] at hfile
      exact hfile.symm
    | some before =>
      rw [hcommitted, Option.map_some, eq_comm, Option.map_eq_some_iff] at hfile
      obtain ⟨after, hafter, hdigest⟩ := hfile
      obtain ⟨a, ha, rfl⟩ := hmem hcommitted
      obtain ⟨b, hb, rfl⟩ := hmem hafter
      rw [hafter, hash name committed rebuilt hc hr a ha b hb hdigest.symm]
  · exact fun h file => by rw [h file]

/--
**The gate passes exactly when the trees hold the same files.**

Where every committed bundle is in the working tree, `main` returns 0 if and only if there is a
bundle, both trees have the same paths, and under every path the two archives have the same file
names with the same contents, those of the last entry of the name. Otherwise it returns 1 or exits
with a message.
-/
theorem drift_gate_exact (hash : NoCollision sha256 head work)
    (hrebuilt : ∀ name, (head name).isSome → (work.bundle name).isSome) :
    (ReturnsZero sha256 textDiff stderr head work ↔
      (∃ name, (work.bundle name).isSome) ∧ SameBundles head work) ∧
    (¬ ReturnsZero sha256 textDiff stderr head work → Fails sha256 textDiff stderr head work) := by
  obtain ⟨hzero, hfails⟩ := main_eq_zero_iff sha256 textDiff stderr head work
  refine ⟨hzero.trans (and_congr_right fun _ => ?_), hfails⟩
  constructor
  · intro h
    refine ⟨fun name => ⟨hrebuilt name, fun hname => ?_⟩, fun name committed rebuilt hc hr => ?_⟩
    · obtain ⟨rebuilt, hr⟩ := Option.isSome_iff_exists.mp hname
      obtain ⟨committed, hc, -⟩ := h name rebuilt hr
      rw [hc, Option.isSome_some]
    · obtain ⟨other, hother, hsame⟩ := h name rebuilt hr
      obtain rfl := Option.some.inj (hc.symm.trans hother)
      exact (sameDigests_iff hash hc hr).mp hsame
  · rintro ⟨hpaths, hfiles⟩ name rebuilt hr
    obtain ⟨committed, hc⟩ :=
      Option.isSome_iff_exists.mp ((hpaths name).mpr (by rw [hr, Option.isSome_some]))
    exact ⟨committed, hc, (sameDigests_iff hash hc hr).mpr (hfiles name committed rebuilt hc hr)⟩

end Trees

end Gate

/-- The two trees have bundles under the same paths, with the same entries that are no directories,
in any order. -/
structure SameEntries (head : Head) (work : WorkingTree) : Prop where
  paths : ∀ name, (head name).isSome ↔ (work.bundle name).isSome
  entries : ∀ name committed rebuilt, head name = some committed → work.bundle name = some rebuilt →
    (committed.filter fun info => !info.isDir).Perm (rebuilt.filter fun info => !info.isDir)

/-- A tree with one bundle. -/
def oneBundle (program : String) (archive : Archive) : WorkingTree where
  listing := [program]
  bundle name := if name = program then some archive else none
  listed name h := by
    by_cases hname : name = program
    · exact List.mem_singleton.mpr hname
    · rw [if_neg hname] at h
      cases h

/-- A tree with the bundles of two programs. -/
def twoBundles (intake treatment : Archive) : WorkingTree where
  listing := ["treatment", "intake"]
  bundle name :=
    if name = "intake" then some intake
    else if name = "treatment" then some treatment else none
  listed name h := by
    by_cases hintake : name = "intake"
    · exact List.mem_cons_of_mem _ (List.mem_singleton.mpr hintake)
    by_cases htreatment : name = "treatment"
    · exact htreatment ▸ List.mem_cons_self
    · rw [if_neg hintake, if_neg htreatment] at h
      cases h

/-- A tree without bundles. -/
def noBundles : WorkingTree := ⟨[], fun _ => none, fun _ h => nomatch h⟩

def rebuiltIntake : Archive := [⟨"src/", []⟩, ⟨"src/main.st", [2]⟩]

/-- An older version of a file is still in the archive. -/
def repeatedIntake : Archive := [⟨"src/main.st", [1]⟩, ⟨"src/main.st", [2]⟩]

theorem twoBundles_eq_some_iff {intake treatment archive : Archive} {name : String} :
    (twoBundles intake treatment).bundle name = some archive ↔
      name = "intake" ∧ archive = intake ∨ name = "treatment" ∧ archive = treatment := by
  unfold twoBundles
  dsimp only
  by_cases hintake : name = "intake"
  · subst hintake
    simp [eq_comm]
  by_cases htreatment : name = "treatment"
  · subst htreatment
    simp [eq_comm]
  · simp [hintake, htreatment]

/-- Two bundles as they were committed. -/
def committedBundles : WorkingTree :=
  twoBundles [⟨"src/", []⟩, ⟨"src/main.st", [97, 98, 99]⟩, ⟨"src/globals.st", []⟩]
    [⟨"src/main.st", [97, 98, 99]⟩]

/-- Built again, the entries of the first come in another order. -/
def rebuiltBundles : WorkingTree :=
  twoBundles [⟨"src/globals.st", []⟩, ⟨"src/main.st", [97, 98, 99]⟩] [⟨"src/main.st", [97, 98, 99]⟩]

/-- The bundles pass. -/
theorem drift_gate_exact_intake :
    ReturnsZero sha256Small (fun _ _ _ => "") id committedBundles.bundle rebuiltBundles := by
  have hhash : NoCollision sha256Small committedBundles.bundle rebuiltBundles := by
    intro name committed rebuilt hc hr a ha b hb
    have hsmall : ∀ info ∈ committed ++ rebuilt,
        info.contents = [] ∨ info.contents = [97, 98, 99] := by
      rcases twoBundles_eq_some_iff.mp hc with ⟨-, rfl⟩ | ⟨-, rfl⟩ <;>
        rcases twoBundles_eq_some_iff.mp hr with ⟨-, rfl⟩ | ⟨-, rfl⟩ <;> decide
    exact sha256Small_inj (hsmall a (List.mem_append_left _ ha))
      (hsmall b (List.mem_append_right _ hb))
  have hpaths : ∀ name,
      (committedBundles.bundle name).isSome ↔ (rebuiltBundles.bundle name).isSome := by
    intro name
    simp only [Option.isSome_iff_exists, committedBundles, rebuiltBundles, twoBundles_eq_some_iff]
    constructor
    · rintro ⟨_, ⟨hname, -⟩ | ⟨hname, -⟩⟩
      · exact ⟨_, Or.inl ⟨hname, rfl⟩⟩
      · exact ⟨_, Or.inr ⟨hname, rfl⟩⟩
    · rintro ⟨_, ⟨hname, -⟩ | ⟨hname, -⟩⟩
      · exact ⟨_, Or.inl ⟨hname, rfl⟩⟩
      · exact ⟨_, Or.inr ⟨hname, rfl⟩⟩
  refine (drift_gate_exact hhash fun name => (hpaths name).mp).1.mpr ⟨⟨"intake", rfl⟩, hpaths,
    fun name committed rebuilt hc hr file => ?_⟩
  rcases twoBundles_eq_some_iff.mp hc with ⟨rfl, rfl⟩ | ⟨rfl, rfl⟩ <;>
    rcases twoBundles_eq_some_iff.mp hr with ⟨hname, rfl⟩ | ⟨hname, rfl⟩
  · -- the directory is no file, and the two files have names of their own
    by_cases hmain : file = "src/main.st"
    · subst hmain
      decide
    by_cases hglobals : file = "src/globals.st"
    · subst hglobals
      decide
    simp [contentsOf, ZipEntry.isDir, Ne.symm hmain, Ne.symm hglobals]
  · exact absurd hname (by decide)
  · exact absurd hname (by decide)
  · rfl

/--
Two trees without bundles are equal and fail, and an archive with a repeated name passes for one
that has only its last entry.
-/
theorem gate_not_exact_on_entries :
    ¬ (ReturnsZero id (fun _ _ _ => "") id noBundles.bundle noBundles ↔
        SameEntries noBundles.bundle noBundles) ∧
    ¬ (ReturnsZero id (fun _ _ _ => "") id (oneBundle "intake" repeatedIntake).bundle
        (oneBundle "intake" rebuiltIntake) ↔
        SameEntries (oneBundle "intake" repeatedIntake).bundle
          (oneBundle "intake" rebuiltIntake)) := by
  constructor
  · intro h
    have hsame : SameEntries noBundles.bundle noBundles :=
      ⟨fun _ => Iff.rfl, fun _ _ _ hc => nomatch hc⟩
    obtain ⟨lines, hzero⟩ := h.mpr hsame
    cases hzero
  · intro h
    have hpasses : ReturnsZero id (fun _ _ _ => "") id (oneBundle "intake" repeatedIntake).bundle
        (oneBundle "intake" rebuiltIntake) := ⟨_, rfl⟩
    have hperm := (h.mp hpasses).entries "intake" repeatedIntake rebuiltIntake rfl rfl
    exact absurd hperm.length_eq (by decide)

end OtLab.CheckBundles
