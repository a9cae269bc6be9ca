import Mathlib.Data.List.Perm.Basic
import OtLab.Lib.Polling

/-!
# Loops that may raise

A loop over a list that makes something of every element, or raises, and folds what it made.
`foldlM_eq_map_mapM` separates the two, and then the first part is a relation between lists.

* `mapM_eq_ok_iff` — such a loop returns when every turn does
* `mapM_perm` — in another order it returns the same in another order
-/

namespace OtLab.Lib

universe u

variable {ε σ : Type*} {α β : Type u} {f : α → Except ε β} {l l' : List α} {bs : List β}

/-- A loop whose turns only fold what they make. -/
theorem foldlM_eq_map_mapM {step : σ → α → Except ε σ} {g : σ → β → σ}
    (h : ∀ s a, step s a = (f a).map (g s)) (l : List α) : ∀ s,
    l.foldlM step s = (l.mapM f).map fun bs => bs.foldl g s := by
  induction l with
  | nil => exact fun _ => rfl
  | cons a l ih =>
    intro s
    rw [List.foldlM_cons, List.mapM_cons, h]
    cases f a with
    | error e => rfl
    | ok b =>
      refine (ih (g s b)).trans ?_
      show _ = Except.map _ (Except.bind (l.mapM f) _)
      cases l.mapM f <;> rfl

theorem mapM_eq_ok_iff :
    l.mapM f = .ok bs ↔ List.Forall₂ (fun a b => f a = .ok b) l bs := by
  induction l generalizing bs with
  | nil =>
    rw [List.forall₂_nil_left_iff, List.mapM_nil]
    exact ⟨fun h => (Except.ok.inj h).symm, fun h => congrArg Except.ok h.symm⟩
  | cons a l ih =>
    rw [List.forall₂_cons_left_iff, List.mapM_cons, bind_eq_ok_iff]
    constructor
    · rintro ⟨b, ha, h⟩
      obtain ⟨rest, hrest, h⟩ := bind_eq_ok_iff.mp h
      exact ⟨b, rest, ha, ih.mp hrest, (Except.ok.inj h).symm⟩
    · rintro ⟨b, rest, ha, hrest, rfl⟩
      exact ⟨b, ha, bind_eq_ok_iff.mpr ⟨rest, ih.mpr hrest, rfl⟩⟩

theorem mapM_returns_iff : (∃ bs, l.mapM f = .ok bs) ↔ ∀ a ∈ l, ∃ b, f a = .ok b := by
  simp only [mapM_eq_ok_iff]
  induction l with
  | nil => exact iff_of_true ⟨[], .nil⟩ fun _ h => absurd h List.not_mem_nil
  | cons a l ih =>
    rw [List.forall_mem_cons, ← ih]
    constructor
    · rintro ⟨_, h⟩
      obtain ⟨b, rest, ha, hrest, -⟩ := List.forall₂_cons_left_iff.mp h
      exact ⟨⟨b, ha⟩, rest, hrest⟩
    · rintro ⟨⟨b, ha⟩, rest, hrest⟩
      exact ⟨b :: rest, .cons ha hrest⟩

theorem mem_mapM_iff {b : β} (h : l.mapM f = .ok bs) : b ∈ bs ↔ ∃ a ∈ l, f a = .ok b := by
  rw [mapM_eq_ok_iff] at h
  induction h with
  | nil => simp
  | cons ha _ ih =>
    rw [List.mem_cons, List.exists_mem_cons_iff, ha, Except.ok.injEq]
    exact or_congr eq_comm ih

/-- What every turn keeps of its element, the loop keeps of the list. -/
theorem map_mapM {γ : Type*} {g : β → γ} {k : α → γ} (h : l.mapM f = .ok bs)
    (hk : ∀ a ∈ l, ∀ b, f a = .ok b → g b = k a) : bs.map g = l.map k := by
  rw [mapM_eq_ok_iff] at h
  induction h with
  | nil => rfl
  | cons ha _ ih =>
    rw [List.map_cons, List.map_cons, hk _ List.mem_cons_self _ ha,
      ih fun a hmem => hk a (List.mem_cons_of_mem _ hmem)]

/-- What stands on the right is related to something on the left. -/
theorem mem_left_of_forall₂ {γ δ : Type*} {R : γ → δ → Prop} {l : List γ} {l' : List δ}
    (h : List.Forall₂ R l l') {b : δ} (hb : b ∈ l') : ∃ a ∈ l, R a b := by
  induction h with
  | nil => exact absurd hb List.not_mem_nil
  | cons hab _ ih =>
    rcases List.mem_cons.mp hb with rfl | hb
    · exact ⟨_, List.mem_cons_self, hab⟩
    · obtain ⟨a, ha, hr⟩ := ih hb
      exact ⟨a, List.mem_cons_of_mem _ ha, hr⟩

theorem mapM_append_eq_ok_iff :
    (l ++ l').mapM f = .ok bs ↔
      ∃ cs ds, l.mapM f = .ok cs ∧ l'.mapM f = .ok ds ∧ bs = cs ++ ds := by
  rw [List.mapM_append, bind_eq_ok_iff]
  constructor
  · rintro ⟨cs, hcs, h⟩
    obtain ⟨ds, hds, h⟩ := bind_eq_ok_iff.mp h
    exact ⟨cs, ds, hcs, hds, (Except.ok.inj h).symm⟩
  · rintro ⟨cs, ds, hcs, hds, rfl⟩
    exact ⟨cs, hcs, bind_eq_ok_iff.mpr ⟨ds, hds, rfl⟩⟩

/-- In another order the turns make the same in that order. -/
theorem mapM_perm (hperm : l.Perm l') (h : l.mapM f = .ok bs) :
    ∃ bs', l'.mapM f = .ok bs' ∧ bs.Perm bs' := by
  obtain ⟨bs', hl', hbs⟩ := List.perm_comp_forall₂ hperm.symm (mapM_eq_ok_iff.mp h)
  exact ⟨bs', mapM_eq_ok_iff.mpr hl', hbs.symm⟩

end OtLab.Lib
