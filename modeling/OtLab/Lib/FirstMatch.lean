import Mathlib.Data.List.Basic

/-!
# Ordered rule lists

A rule either says nothing about an input or gives a verdict. A list of rules is evaluated from
its head: the first rule that says something decides, and a default verdict decides when none
does. Rules are added and removed by edits at the head and deletions of the first equal rule.

* `firstMatch_append_default` — rules at the end that only give the default change nothing
* `firstMatch_erase_none` — deleting a rule changes nothing for inputs it is silent about
* `actAll_insert_delete` — an insertion is undone by the deletion of the same rule, whatever
  edits of other rules happen in between
-/

namespace OtLab.Lib

section FirstMatch

variable {R P V : Type*} (judge : R → P → Option V) (dflt : V)

/-- The verdict of a rule list: the first rule that says something about `p`, or the default. -/
def firstMatch (rules : List R) (p : P) : V := (rules.findSome? fun r => judge r p).getD dflt

variable {judge dflt} {rules rest : List R} {r : R} {p : P} {v : V}

@[simp] theorem firstMatch_nil : firstMatch judge dflt [] p = dflt := rfl

theorem firstMatch_cons_some (h : judge r p = some v) :
    firstMatch judge dflt (r :: rules) p = v := by
  simp [firstMatch, h]

theorem firstMatch_cons_none (h : judge r p = none) :
    firstMatch judge dflt (r :: rules) p = firstMatch judge dflt rules p := by
  simp [firstMatch, h]

/-- Rules that are silent about `p` are passed over. -/
theorem firstMatch_append_none (h : ∀ r ∈ rules, judge r p = none) :
    firstMatch judge dflt (rules ++ rest) p = firstMatch judge dflt rest p := by
  induction rules with
  | nil => rfl
  | cons r rules ih =>
    rw [List.cons_append, firstMatch_cons_none (h r (by simp))]
    exact ih fun x hx => h x (by simp [hx])

/-- A verdict other than the default stays when rules are added at the end. -/
theorem firstMatch_append_of_ne (h : firstMatch judge dflt rules p ≠ dflt) :
    firstMatch judge dflt (rules ++ rest) p = firstMatch judge dflt rules p := by
  unfold firstMatch at h ⊢
  rw [List.findSome?_append]
  cases hf : rules.findSome? fun r => judge r p with
  | none =>
    rw [hf] at h
    exact absurd rfl h
  | some v => rfl

/-- If every rule of the front that speaks says `v`, and one does, the verdict is `v`. -/
theorem firstMatch_append_of_mem (hall : ∀ r ∈ rules, judge r p = none ∨ judge r p = some v)
    (hr : r ∈ rules) (hv : judge r p = some v) : firstMatch judge dflt (rules ++ rest) p = v := by
  induction rules with
  | nil => simp at hr
  | cons x rules ih =>
    rw [List.cons_append]
    rcases hall x (by simp) with hx | hx
    · rw [firstMatch_cons_none hx]
      refine ih (fun y hy => hall y (by simp [hy])) ?_
      rcases List.mem_cons.mp hr with rfl | hr
      · rw [hx] at hv; simp at hv
      · exact hr
    · exact firstMatch_cons_some hx

/-- Rules at the end that only ever give the default verdict change nothing. -/
theorem firstMatch_append_default (h : ∀ r ∈ rest, judge r p = none ∨ judge r p = some dflt) :
    firstMatch judge dflt (rules ++ rest) p = firstMatch judge dflt rules p := by
  induction rules with
  | nil =>
    induction rest with
    | nil => rfl
    | cons x rest ih =>
      rcases h x (by simp) with hx | hx
      · rw [List.nil_append, firstMatch_cons_none hx]
        exact ih fun y hy => h y (by simp [hy])
      · exact firstMatch_cons_some hx
  | cons x rules ih =>
    rw [List.cons_append]
    cases hx : judge x p with
    | none => rw [firstMatch_cons_none hx, firstMatch_cons_none hx, ih]
    | some w => rw [firstMatch_cons_some hx, firstMatch_cons_some hx]

/-- If every rule that speaks says `v`, the verdict is `v` exactly when one speaks. -/
theorem firstMatch_eq_iff (hall : ∀ r ∈ rules, judge r p = none ∨ judge r p = some v)
    (hne : dflt ≠ v) : firstMatch judge dflt rules p = v ↔ ∃ r ∈ rules, judge r p = some v := by
  constructor
  · intro h
    by_contra hno
    have hsilent : ∀ r ∈ rules, judge r p = none := fun r hr =>
      (hall r hr).resolve_right fun hv => hno ⟨r, hr, hv⟩
    have hnone : firstMatch judge dflt (rules ++ []) p = dflt := firstMatch_append_none hsilent
    rw [List.append_nil] at hnone
    exact hne (hnone.symm.trans h)
  · rintro ⟨r, hr, hv⟩
    have hv' : firstMatch judge dflt (rules ++ []) p = v := firstMatch_append_of_mem hall hr hv
    rwa [List.append_nil] at hv'

/-- Deleting a rule changes nothing for an input it is silent about. -/
theorem firstMatch_erase_none [DecidableEq R] (h : judge r p = none) :
    firstMatch judge dflt (rules.erase r) p = firstMatch judge dflt rules p := by
  induction rules with
  | nil => rfl
  | cons x rules ih =>
    by_cases hx : x = r
    · subst hx
      rw [List.erase_cons_head, firstMatch_cons_none h]
    · rw [List.erase_cons_tail (by simpa using hx)]
      cases hs : judge x p with
      | none => rw [firstMatch_cons_none hs, firstMatch_cons_none hs, ih]
      | some w => rw [firstMatch_cons_some hs, firstMatch_cons_some hs]

end FirstMatch

/-! ## Edits -/

section Edits

variable {R : Type*} [DecidableEq R]

/-- An edit of a rule list: an insertion at the head, or the deletion of the first equal rule. -/
inductive HeadEdit (R : Type*) where
  | insert (r : R)
  | delete (r : R)

namespace HeadEdit

/-- The rule an edit is about. -/
def rule : HeadEdit R → R
  | insert r => r
  | delete r => r

/-- Applies an edit; a deletion fails when there is no equal rule. -/
def act : HeadEdit R → List R → Option (List R)
  | insert r, l => some (r :: l)
  | delete r, l => if r ∈ l then some (l.erase r) else none

/-- Applies edits in order, all of which have to succeed. -/
def actAll (es : List (HeadEdit R)) (l : List R) : Option (List R) :=
  es.foldlM (fun l e => e.act l) l

@[simp] theorem actAll_nil (l : List R) : actAll [] l = some l := rfl

@[simp] theorem actAll_cons (e : HeadEdit R) (es : List (HeadEdit R)) (l : List R) :
    actAll (e :: es) l = (e.act l).bind (actAll es) := rfl

theorem actAll_append (es es' : List (HeadEdit R)) (l : List R) :
    actAll (es ++ es') l = (actAll es l).bind (actAll es') := by
  simp only [actAll, List.foldlM_append]
  rfl

/-- What an edit of another rule does commutes with deleting `a`. -/
theorem act_erase {e : HeadEdit R} {a : R} (he : e.rule ≠ a) {l : List R} :
    e.act (l.erase a) = (e.act l).map fun l' => l'.erase a := by
  cases e with
  | insert r =>
    have hr : r ≠ a := he
    simp [act, hr]
  | delete r =>
    have hr : r ≠ a := he
    simp only [act, List.mem_erase_of_ne hr]
    split
    · simp [List.erase_comm]
    · rfl

/-- An edit that does not delete `a` keeps it. -/
theorem mem_of_act {e : HeadEdit R} {a : R} (he : e ≠ delete a) {l l' : List R} (ha : a ∈ l)
    (h : e.act l = some l') : a ∈ l' := by
  cases e with
  | insert r =>
    simp only [act, Option.some.injEq] at h
    subst h
    exact List.mem_cons_of_mem _ ha
  | delete r =>
    have hr : a ≠ r := fun hra => he (by rw [hra])
    simp only [act] at h
    split at h
    · simp only [Option.some.injEq] at h
      subst h
      exact (List.mem_erase_of_ne hr).mpr ha
    · simp at h

/-- Edits that do not delete `a` keep it. -/
theorem mem_of_actAll {a : R} : ∀ {es : List (HeadEdit R)} {l l' : List R},
    (∀ e ∈ es, e ≠ delete a) → a ∈ l → actAll es l = some l' → a ∈ l'
  | [], _, _, _, ha, h => by
    obtain rfl := Option.some.inj h
    exact ha
  | e :: es, l, l', he, ha, h => by
    rw [actAll_cons] at h
    obtain ⟨m, hm, h⟩ := Option.bind_eq_some_iff.mp h
    exact mem_of_actAll (fun x hx => he x (by simp [hx])) (mem_of_act (he e (by simp)) ha hm) h

omit [DecidableEq R] in
theorem ne_delete_of_rule_ne {e : HeadEdit R} {a : R} (h : e.rule ≠ a) : e ≠ delete a := by
  rintro rfl
  exact h rfl

/-- Edits of other rules, followed by the deletion of `a`, act as on the list without `a`. -/
theorem actAll_then_delete {a : R} : ∀ (es : List (HeadEdit R)) (l : List R),
    (∀ e ∈ es, e.rule ≠ a) → a ∈ l →
    (actAll es l).bind (delete a).act = actAll es (l.erase a)
  | [], l, _, ha => by simp [act, ha]
  | e :: es, l, h, ha => by
    have he : e.rule ≠ a := h e (by simp)
    rw [actAll_cons, actAll_cons, act_erase he]
    cases hl : e.act l with
    | none => rfl
    | some l' =>
      exact actAll_then_delete es l' (fun x hx => h x (by simp [hx]))
        (mem_of_act (ne_delete_of_rule_ne he) ha hl)

/-- **An insertion is undone by the deletion of the same rule**, whatever edits of other rules
happen in between. -/
theorem actAll_insert_delete {a : R} {es : List (HeadEdit R)} (h : ∀ e ∈ es, e.rule ≠ a)
    (l : List R) : actAll (insert a :: es ++ [delete a]) l = actAll es l := by
  have hkey := actAll_then_delete es (a :: l) h (by simp)
  rw [List.erase_cons_head] at hkey
  rw [List.cons_append, actAll_cons, ← hkey]
  show actAll (es ++ [delete a]) (a :: l) = _
  rw [actAll_append]
  congr 1
  funext m
  rw [actAll_cons]
  cases (delete a).act m <;> rfl

end HeadEdit

end Edits

end OtLab.Lib
