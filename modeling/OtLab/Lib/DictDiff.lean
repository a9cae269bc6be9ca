import Mathlib.Data.List.Basic

/-!
# Differences of dictionaries

Dictionaries are association lists, and what counts of them is what a lookup finds.

* `diff_eq_nil_iff` — nothing changed, added or removed means that every lookup agrees
* `mapM_comprehension` — a dictionary comprehension that does not raise
* `lookup_assignAll` — of several assignments to a key the last one counts
-/

namespace OtLab.Lib

variable {κ ν : Type*} [DecidableEq κ]

/-- The keys of a dictionary. -/
def keys (d : List (κ × ν)) : List κ := d.map Prod.fst

/-- The keys of the second dictionary that the first one does not have. -/
def newKeys (d d' : List (κ × ν)) : List κ := (keys d').filter fun k => k ∉ keys d

/-- The keys of both dictionaries with another value. -/
def changedKeys [DecidableEq ν] (d d' : List (κ × ν)) : List κ :=
  (keys d).filter fun k => k ∈ keys d' ∧ d.lookup k ≠ d'.lookup k

variable {d d' : List (κ × ν)}

theorem mem_keys_iff {k : κ} : k ∈ keys d ↔ (d.lookup k).isSome := by
  rw [List.lookup_isSome_iff, keys, List.mem_map]
  constructor
  · rintro ⟨p, hp, rfl⟩
    exact ⟨p, hp, beq_self_eq_true _⟩
  · rintro ⟨p, hp, heq⟩
    exact ⟨p, hp, (beq_iff_eq.mp heq).symm⟩

theorem newKeys_eq_nil_iff :
    newKeys d d' = [] ↔ ∀ k, (d'.lookup k).isSome → (d.lookup k).isSome := by
  rw [newKeys, List.filter_eq_nil_iff]
  simp only [decide_eq_true_eq, not_not, mem_keys_iff]

/-- **No difference is found exactly when every lookup agrees.** -/
theorem diff_eq_nil_iff [DecidableEq ν] :
    changedKeys d d' = [] ∧ newKeys d d' = [] ∧ newKeys d' d = [] ↔
      ∀ k, d.lookup k = d'.lookup k := by
  rw [newKeys_eq_nil_iff, newKeys_eq_nil_iff, changedKeys, List.filter_eq_nil_iff]
  simp only [decide_eq_true_eq, not_and, not_not, mem_keys_iff]
  constructor
  · rintro ⟨hchanged, hadded, hremoved⟩ k
    cases hk : d.lookup k with
    | some v =>
      have hsome : (d.lookup k).isSome := by rw [hk, Option.isSome_some]
      rw [← hk]
      exact hchanged k hsome (hremoved k hsome)
    | none =>
      cases hk' : d'.lookup k with
      | none => rfl
      | some v =>
        have hsome := hadded k (by rw [hk', Option.isSome_some])
        rw [hk] at hsome
        cases hsome
  · intro h
    exact ⟨fun k _ _ => h k, fun k hk => (h k).symm ▸ hk, fun k hk => h k ▸ hk⟩

/-- A dictionary with a value for every name of a list. -/
theorem lookup_comprehension (f : κ → ν) (names : List κ) (k : κ) :
    (names.map fun n => (n, f n)).lookup k = if k ∈ names then some (f k) else none := by
  induction names with
  | nil => rfl
  | cons n names ih =>
    rw [List.map_cons, List.lookup_cons, ih]
    by_cases h : k = n
    · subst h
      simp
    · simp [h, beq_false_of_ne h]

/-- A comprehension over names none of which raises. -/
theorem mapM_comprehension {ε α β : Type*} {f : α → Except ε β} {g : α → β} {l : List α}
    (h : ∀ a ∈ l, f a = .ok (g a)) : l.mapM f = .ok (l.map g) := by
  induction l with
  | nil => rfl
  | cons a l ih =>
    rw [List.mapM_cons, h a List.mem_cons_self, ih fun b hb => h b (List.mem_cons_of_mem a hb)]
    rfl

/-! ## Assignment -/

/-- `d[k] = v`: in its place if the key is there, else at the end. -/
def assign (k : κ) (v : ν) : List (κ × ν) → List (κ × ν)
  | [] => [(k, v)]
  | p :: d => if p.1 = k then (k, v) :: d else p :: assign k v d

/-- Assignments one after the other. -/
def assignAll (d : List (κ × ν)) (ps : List (κ × ν)) : List (κ × ν) :=
  ps.foldl (fun d p => assign p.1 p.2 d) d

theorem lookup_cons_ite (p : κ × ν) (d : List (κ × ν)) (k : κ) :
    (p :: d).lookup k = if k = p.1 then some p.2 else d.lookup k := by
  rw [List.lookup_cons]
  by_cases h : k = p.1
  · subst h
    rw [beq_self_eq_true, if_pos rfl]
  · rw [beq_false_of_ne h, if_neg h]

theorem lookup_assign (k : κ) (v : ν) (d : List (κ × ν)) (k' : κ) :
    (assign k v d).lookup k' = if k' = k then some v else d.lookup k' := by
  induction d with
  | nil => exact lookup_cons_ite (k, v) [] k'
  | cons p d ih =>
    rw [assign]
    by_cases hp : p.1 = k
    · subst hp
      rw [if_pos rfl, lookup_cons_ite, lookup_cons_ite]
      by_cases h : k' = p.1 <;> simp [h]
    · rw [if_neg hp, lookup_cons_ite, lookup_cons_ite, ih]
      by_cases h : k' = p.1
      · subst h
        rw [if_pos rfl, if_neg hp, if_pos rfl]
      · rw [if_neg h, if_neg h]

theorem mem_keys_assign {k k' : κ} {v : ν} : k' ∈ keys (assign k v d) ↔ k' = k ∨ k' ∈ keys d := by
  rw [mem_keys_iff, mem_keys_iff, lookup_assign]
  by_cases h : k' = k
  · simp [h]
  · rw [if_neg h]
    exact (or_iff_right h).symm

theorem nodup_keys_assign (h : (keys d).Nodup) (k : κ) (v : ν) : (keys (assign k v d)).Nodup := by
  induction d with
  | nil => exact List.nodup_cons.mpr ⟨List.not_mem_nil, List.nodup_nil⟩
  | cons p d ih =>
    obtain ⟨hnot, hrest⟩ := List.nodup_cons.mp h
    rw [assign]
    by_cases hp : p.1 = k
    · rw [if_pos hp]
      subst hp
      exact h
    · rw [if_neg hp]
      refine List.nodup_cons.mpr ⟨fun hmem => ?_, ih hrest⟩
      rcases mem_keys_assign.mp hmem with heq | hmem
      · exact hp heq
      · exact hnot hmem

theorem nodup_keys_assignAll (ps : List (κ × ν)) :
    ∀ d : List (κ × ν), (keys d).Nodup → (keys (assignAll d ps)).Nodup := by
  induction ps with
  | nil => exact fun _ h => h
  | cons p ps ih => exact fun d h => ih _ (nodup_keys_assign h p.1 p.2)

/-- **Of several assignments to a key the last one counts.** -/
theorem lookup_assignAll (ps : List (κ × ν)) (k : κ) : ∀ d : List (κ × ν),
    (assignAll d ps).lookup k
      = ((ps.filter fun p => p.1 = k).getLast?.map Prod.snd).or (d.lookup k) := by
  induction ps with
  | nil => exact fun _ => rfl
  | cons p ps ih =>
    intro d
    show (assignAll (assign p.1 p.2 d) ps).lookup k = _
    rw [ih, lookup_assign, List.filter_cons]
    by_cases h : k = p.1
    · subst h
      rw [if_pos rfl, if_pos (decide_eq_true rfl), List.getLast?_cons]
      cases (ps.filter fun q => q.1 = p.1).getLast? <;> rfl
    · rw [if_neg h, if_neg (by simpa using Ne.symm h)]

/-- An entry of a dictionary is what a lookup finds. -/
theorem mem_iff_lookup (h : (keys d).Nodup) {k : κ} {v : ν} : (k, v) ∈ d ↔ d.lookup k = some v := by
  induction d with
  | nil => simp
  | cons p d ih =>
    obtain ⟨hnot, hrest⟩ := List.nodup_cons.mp h
    rw [List.mem_cons, ih hrest, lookup_cons_ite]
    by_cases hk : k = p.1
    · subst hk
      have hnone : d.lookup p.1 = none := by
        rw [← Option.not_isSome_iff_eq_none, ← mem_keys_iff]
        exact hnot
      simp [hnone, Prod.ext_iff, eq_comm]
    · simp [hk, Prod.ext_iff]

end OtLab.Lib
