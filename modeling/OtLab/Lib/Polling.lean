import Mathlib.Data.List.Infix

/-!
# Polling

A loop looks at one reply after the other until one of them decides it, or none is left. Looking
at a reply may raise, and a reply behind the one that decides is never looked at.

* `pollUntil_eq_some_iff` — what decides the loop is the first reply that decides
* `pollUntil_returns_iff` — the loop returns when no reply up to there raises
-/

namespace OtLab.Lib

universe u

/-! ## Computations that may raise -/

theorem bind_eq_ok_iff {ε : Type*} {α β : Type u} {x : Except ε α} {g : α → Except ε β} {b : β} :
    x >>= g = .ok b ↔ ∃ a, x = .ok a ∧ g a = .ok b := by
  cases x with
  | error e => exact iff_of_false nofun fun ⟨_, h, _⟩ => nomatch h
  | ok a => exact ⟨fun h => ⟨a, rfl, h⟩, fun ⟨_, ha, h⟩ => Except.ok.inj ha ▸ h⟩

/-- A sequence returns when its first part does and then the rest. -/
theorem bind_returns_iff {ε : Type*} {α β : Type u} {x : Except ε α} {g : α → Except ε β} :
    (∃ b, x >>= g = .ok b) ↔ ∃ a, x = .ok a ∧ ∃ b, g a = .ok b := by
  simp only [bind_eq_ok_iff]
  exact ⟨fun ⟨b, a, ha, hb⟩ => ⟨a, ha, b, hb⟩, fun ⟨a, ha, b, hb⟩ => ⟨b, a, ha, hb⟩⟩

/-! ## The loop -/

variable {ρ ε α : Type*} (f : ρ → Except ε (Option α))

/-- The first decision of a reply; `none` when none of them decides. -/
def pollUntil : List ρ → Except ε (Option α)
  | [] => .ok none
  | reply :: replies =>
    match f reply with
    | .error e => .error e
    | .ok (some a) => .ok (some a)
    | .ok none => pollUntil replies

/-- Every reply of the list leaves the loop undecided. -/
def Undecided (replies : List ρ) : Prop := ∀ reply ∈ replies, f reply = .ok none

/-- Some reply decides on `a`, behind replies that do not decide. -/
def Decides (replies : List ρ) (a : α) : Prop :=
  ∃ waited reply, waited ++ [reply] <+: replies ∧ Undecided f waited ∧ f reply = .ok (some a)

/-- No reply raises that is looked at. -/
def Calm (replies : List ρ) : Prop :=
  ∀ waited reply, waited ++ [reply] <+: replies → Undecided f waited → ∃ r, f reply = .ok r

variable {f} {reply : ρ} {replies : List ρ}

theorem pollUntil_cons :
    pollUntil f (reply :: replies) = match f reply with
      | .error e => .error e
      | .ok (some a) => .ok (some a)
      | .ok none => pollUntil f replies := rfl

theorem undecided_cons :
    Undecided f (reply :: replies) ↔ f reply = .ok none ∧ Undecided f replies :=
  List.forall_mem_cons

/-- The replies that are looked at are the first one, or the first one and some of the rest. -/
theorem prefix_concat_cons_iff {waited : List ρ} {x : ρ} :
    waited ++ [x] <+: reply :: replies ↔
      waited = [] ∧ x = reply ∨ ∃ rest, waited = reply :: rest ∧ rest ++ [x] <+: replies := by
  cases waited with
  | nil =>
    rw [List.nil_append, List.cons_prefix_cons]
    simp
  | cons y rest =>
    rw [List.cons_append, List.cons_prefix_cons]
    constructor
    · rintro ⟨rfl, h⟩
      exact Or.inr ⟨rest, rfl, h⟩
    · rintro (⟨h, -⟩ | ⟨rest', h, hprefix⟩)
      · cases h
      · obtain ⟨rfl, rfl⟩ := List.cons.inj h
        exact ⟨rfl, hprefix⟩

theorem decides_cons {a : α} :
    Decides f (reply :: replies) a ↔
      f reply = .ok (some a) ∨ f reply = .ok none ∧ Decides f replies a := by
  constructor
  · rintro ⟨waited, x, hprefix, hwaited, hx⟩
    rcases prefix_concat_cons_iff.mp hprefix with ⟨rfl, rfl⟩ | ⟨rest, rfl, hbehind⟩
    · exact Or.inl hx
    · obtain ⟨hreply, hrest⟩ := undecided_cons.mp hwaited
      exact Or.inr ⟨hreply, rest, x, hbehind, hrest, hx⟩
  · rintro (hx | ⟨hreply, rest, x, hprefix, hrest, hx⟩)
    · exact ⟨[], reply, prefix_concat_cons_iff.mpr (Or.inl ⟨rfl, rfl⟩), nofun, hx⟩
    · exact ⟨reply :: rest, x, prefix_concat_cons_iff.mpr (Or.inr ⟨rest, rfl, hprefix⟩),
        undecided_cons.mpr ⟨hreply, hrest⟩, hx⟩

theorem calm_cons :
    Calm f (reply :: replies) ↔
      (∃ r, f reply = .ok r) ∧ (f reply = .ok none → Calm f replies) := by
  constructor
  · intro h
    refine ⟨h [] reply (prefix_concat_cons_iff.mpr (Or.inl ⟨rfl, rfl⟩)) nofun, ?_⟩
    intro hreply waited x hprefix hwaited
    exact h (reply :: waited) x (prefix_concat_cons_iff.mpr (Or.inr ⟨waited, rfl, hprefix⟩))
      (undecided_cons.mpr ⟨hreply, hwaited⟩)
  · rintro ⟨hreply, hrest⟩ waited x hprefix hwaited
    rcases prefix_concat_cons_iff.mp hprefix with ⟨rfl, rfl⟩ | ⟨rest, rfl, hbehind⟩
    · exact hreply
    · obtain ⟨hnone, hundecided⟩ := undecided_cons.mp hwaited
      exact hrest hnone rest x hbehind hundecided

/-- **The loop is decided by the first reply that decides.** -/
theorem pollUntil_eq_some_iff {a : α} :
    pollUntil f replies = .ok (some a) ↔ Decides f replies a := by
  induction replies with
  | nil =>
    refine iff_of_false nofun ?_
    rintro ⟨waited, x, hprefix, -⟩
    simp at hprefix
  | cons reply replies ih =>
    rw [decides_cons, ← ih, pollUntil_cons]
    rcases f reply with e | - | b
    · simp
    · simp
    · simp

/-- **The loop returns when nothing it looks at raises.** -/
theorem pollUntil_returns_iff : (∃ r, pollUntil f replies = .ok r) ↔ Calm f replies := by
  induction replies with
  | nil =>
    refine iff_of_true ⟨none, rfl⟩ ?_
    intro waited x hprefix
    simp at hprefix
  | cons reply replies ih =>
    rw [calm_cons, ← ih, pollUntil_cons]
    rcases f reply with e | - | b
    · simp
    · simp
    · simp

/-- A loop of which only its being decided is used. -/
theorem pollUntil_isSome_iff {ε ρ : Type} {f : ρ → Except ε (Option Unit)} {replies : List ρ} :
    (do
      let r ← pollUntil f replies
      return r.isSome) = .ok true ↔ Decides f replies () := by
  rw [← pollUntil_eq_some_iff, bind_eq_ok_iff]
  constructor
  · rintro ⟨r, hr, hsome⟩
    exact hr.trans (congrArg _ (Option.eq_some_of_isSome (Except.ok.inj hsome)))
  · exact fun h => ⟨some (), h, rfl⟩

/-- What is done only behind a loop that decided on `a`. -/
theorem pollUntil_then_iff {a : α} {P : Prop} :
    (∃ r, pollUntil f replies = .ok r ∧ (r = some a → P)) ↔
      Calm f replies ∧ (Decides f replies a → P) := by
  rw [← pollUntil_returns_iff, ← pollUntil_eq_some_iff]
  constructor
  · rintro ⟨r, hr, h⟩
    refine ⟨⟨r, hr⟩, fun ha => h ?_⟩
    exact Except.ok.inj (hr.symm.trans ha)
  · rintro ⟨⟨r, hr⟩, h⟩
    refine ⟨r, hr, ?_⟩
    rintro rfl
    exact h hr

end OtLab.Lib
