import Mathlib.Logic.Basic
import Mathlib.Logic.Function.Iterate

/-!
# Runs of a deterministic system

A system takes a step on every event. `StepsMeet` says that every step of a run satisfies a
condition on the state before it and the event; `run_invariant` carries an invariant along such
a run. `iterate_lockstep` is the simulation rule of two systems that take their steps together.
-/

namespace OtLab.Lib

variable {σ ε : Type*} (step : σ → ε → σ)

/-- The state after a list of events. -/
def run (s : σ) (es : List ε) : σ := es.foldl step s

/-- Every step of the run satisfies `C`, a condition on the state before the step and the event. -/
def StepsMeet (C : σ → ε → Prop) : σ → List ε → Prop
  | _, [] => True
  | s, e :: es => C s e ∧ StepsMeet C (step s e) es

variable {step}

@[simp] theorem run_nil (s : σ) : run step s [] = s := rfl

@[simp] theorem run_cons (s : σ) (e : ε) (es : List ε) :
    run step s (e :: es) = run step (step s e) es := rfl

theorem run_append (s : σ) (es es' : List ε) :
    run step s (es ++ es') = run step (run step s es) es' := List.foldl_append

/-- One more event of a run. -/
theorem run_take_succ {es : List ε} {e : ε} {k : ℕ} (h : es[k]? = some e) (s : σ) :
    run step s (es.take (k + 1)) = step (run step s (es.take k)) e := by
  rw [List.take_add_one, h, Option.toList_some, run_append, run_cons, run_nil]

/-- Behind the end of a list there is nothing more to take. -/
theorem take_succ_of_none {es : List ε} {k : ℕ} (h : es[k]? = none) :
    es.take (k + 1) = es.take k := by
  rw [List.take_add_one, h, Option.toList_none, List.append_nil]

@[simp] theorem stepsMeet_nil {C : σ → ε → Prop} (s : σ) : StepsMeet step C s [] := trivial

@[simp] theorem stepsMeet_cons {C : σ → ε → Prop} {s : σ} {e : ε} {es : List ε} :
    StepsMeet step C s (e :: es) ↔ C s e ∧ StepsMeet step C (step s e) es := Iff.rfl

instance decidableStepsMeet {C : σ → ε → Prop} [∀ s e, Decidable (C s e)] :
    ∀ s es, Decidable (StepsMeet step C s es)
  | _, [] => isTrue trivial
  | s, e :: es =>
    have := decidableStepsMeet (C := C) (step s e) es
    inferInstanceAs (Decidable (C s e ∧ StepsMeet step C (step s e) es))

theorem stepsMeet_append {C : σ → ε → Prop} {es es' : List ε} {s : σ} :
    StepsMeet step C s (es ++ es') ↔
      StepsMeet step C s es ∧ StepsMeet step C (run step s es) es' := by
  induction es generalizing s with
  | nil => simp
  | cons e es ih => rw [List.cons_append, stepsMeet_cons, stepsMeet_cons, ih, run_cons, and_assoc]

theorem stepsMeet_and {C D : σ → ε → Prop} {es : List ε} :
    ∀ {s : σ}, StepsMeet step C s es → StepsMeet step D s es →
      StepsMeet step (fun s e => C s e ∧ D s e) s es := by
  induction es with
  | nil => exact fun _ _ => trivial
  | cons e es ih => exact fun hC hD => ⟨⟨hC.1, hD.1⟩, ih hC.2 hD.2⟩

theorem stepsMeet_congr {C D : σ → ε → Prop} (h : ∀ s e, C s e ↔ D s e) {es : List ε} :
    ∀ {s : σ}, StepsMeet step C s es ↔ StepsMeet step D s es := by
  induction es with
  | nil => exact Iff.rfl
  | cons e es ih => exact and_congr (h _ e) ih

/-- The condition at one event of the run. -/
theorem stepsMeet_getElem? {C : σ → ε → Prop} {es : List ε} {e : ε} {k : ℕ} :
    ∀ {s : σ}, StepsMeet step C s es → es[k]? = some e → C (run step s (es.take k)) e := by
  induction es generalizing k with
  | nil => exact fun _ he => nomatch he
  | cons x es ih =>
    intro s h he
    cases k with
    | zero =>
      obtain rfl := Option.some.inj he
      exact h.1
    | succ k => exact ih h.2 he

/-- A condition on events alone holds along a run when it holds of every event. -/
theorem stepsMeet_of_forall {P : ε → Prop} {es : List ε} (h : ∀ e ∈ es, P e) (s : σ) :
    StepsMeet step (fun _ e => P e) s es := by
  induction es generalizing s with
  | nil => trivial
  | cons e es ih => exact ⟨h e (by simp), ih (fun x hx => h x (by simp [hx])) _⟩

/-- A condition on states alone holds along a run when it holds after every prefix. -/
theorem stepsMeet_of_prefix {P : σ → Prop} {es : List ε} {s : σ}
    (h : ∀ l, l <+: es → P (run step s l)) : StepsMeet step (fun s _ => P s) s es := by
  induction es generalizing s with
  | nil => trivial
  | cons e es ih =>
    exact ⟨h [] List.nil_prefix, ih fun l hl => h (e :: l) ((List.prefix_cons_inj e).mpr hl)⟩

/-- An invariant kept by every step that meets the condition holds after a run whose steps do. -/
theorem run_invariant {C : σ → ε → Prop} (Inv : σ → Prop)
    (hstep : ∀ s e, Inv s → C s e → Inv (step s e)) {es : List ε} :
    ∀ {s : σ}, Inv s → StepsMeet step C s es → Inv (run step s es) := by
  induction es with
  | nil => exact fun hs _ => hs
  | cons e es ih => exact fun hs h => ih (hstep _ e hs h.1) h.2

/-- An invariant of the steps of a system that can fail holds after every run that succeeds. -/
theorem foldlM_invariant {step? : σ → ε → Option σ} (Inv : σ → Prop)
    (hstep : ∀ s e s', Inv s → step? s e = some s' → Inv s') {es : List ε} :
    ∀ {s s' : σ}, Inv s → es.foldlM step? s = some s' → Inv s' := by
  induction es with
  | nil =>
    intro s s' hs h
    obtain rfl := Option.some.inj h
    exact hs
  | cons e es ih =>
    intro s s' hs h
    rw [List.foldlM_cons] at h
    obtain ⟨s₁, hs₁, h⟩ := Option.bind_eq_some_iff.mp h
    exact ih (hstep s e s₁ hs hs₁) h

/-- When every step succeeds and keeps a relation to a total system, so does a whole run. -/
theorem foldlM_simulates {α τ : Type*} {step? : σ → ε → Except α σ} {g : τ → ε → τ}
    (R : σ → τ → Prop) (hstep : ∀ s t e, R s t → ∃ s', step? s e = .ok s' ∧ R s' (g t e))
    (es : List ε) : ∀ {s : σ} {t : τ}, R s t →
      ∃ s', es.foldlM step? s = .ok s' ∧ R s' (es.foldl g t) := by
  induction es with
  | nil => exact fun {s _} h => ⟨s, rfl, h⟩
  | cons e es ih =>
    intro s t h
    obtain ⟨s₁, hs₁, h₁⟩ := hstep s t e h
    rw [List.foldlM_cons, hs₁]
    exact ih h₁

/-- When an invariant lets every step succeed and is kept by it, a whole run succeeds. -/
theorem foldlM_succeeds {α : Type*} {step? : σ → ε → Except α σ} (Inv : σ → Prop)
    (hstep : ∀ s e, Inv s → ∃ s', step? s e = .ok s' ∧ Inv s') (es : List ε) {s : σ} (hs : Inv s) :
    ∃ s', es.foldlM step? s = .ok s' ∧ Inv s' :=
  foldlM_simulates (g := fun (u : Unit) _ => u) (fun s _ => Inv s) (fun s _ e => hstep s e) es
    (t := ()) hs

/-- A relation that is kept when two systems take a step on the same event is kept by their runs. -/
theorem run_lockstep {τ : Type*} {g : τ → ε → τ} (R : σ → τ → Prop) {es : List ε}
    (hstep : ∀ e ∈ es, ∀ s t, R s t → R (step s e) (g t e)) :
    ∀ {s : σ} {t : τ}, R s t → R (run step s es) (run g t es) := by
  induction es with
  | nil => exact fun h => h
  | cons e es ih =>
    intro s t h
    have hrest : ∀ e' ∈ es, ∀ s t, R s t → R (step s e') (g t e') :=
      fun e' he' => hstep e' (List.mem_cons_of_mem e he')
    exact ih hrest (hstep e List.mem_cons_self s t h)

/-- A relation that steps taken together keep relates the states after any number of them. -/
theorem iterate_lockstep {τ : Type*} {f : σ → σ} {g : τ → τ} (R : σ → τ → Prop)
    (hstep : ∀ s t, R s t → R (f s) (g t)) {s : σ} {t : τ} (h : R s t) (n : ℕ) :
    R (f^[n] s) (g^[n] t) := by
  induction n with
  | zero => exact h
  | succ n ih =>
    rw [Function.iterate_succ_apply', Function.iterate_succ_apply']
    exact hstep _ _ ih

/-- A rank that falls with every step outside the goal bounds the steps until it is reached. -/
theorem exists_iterate_of_rank {f : σ → σ} {Goal : σ → Prop} (rank : σ → ℕ)
    (hstep : ∀ s, ¬ Goal s → rank (f s) < rank s) (s : σ) : ∃ k ≤ rank s, Goal (f^[k] s) := by
  induction hr : rank s using Nat.strongRecOn generalizing s with
  | ind m ih =>
    by_cases hgoal : Goal s
    · exact ⟨0, Nat.zero_le m, hgoal⟩
    · have hlt : rank (f s) < m := hr ▸ hstep s hgoal
      obtain ⟨k, hk, hreached⟩ := ih _ hlt (f s) rfl
      exact ⟨k + 1, by omega, hreached⟩

end OtLab.Lib
