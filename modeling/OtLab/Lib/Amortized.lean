import OtLab.Lib.Run

/-!
# Counting steps of a run

How many steps of a run satisfy a condition on the state before the step and the event. A potential
that pays for them bounds their number by the number of the steps that fill it up again.

* `countSteps_le_of_potential` — the potential method
-/

namespace OtLab.Lib

variable {σ ε : Type*} (step : σ → ε → σ) (C : σ → ε → Prop) [∀ s e, Decidable (C s e)]

/-- How many steps of the run satisfy `C`. -/
def countSteps : σ → List ε → ℕ
  | _, [] => 0
  | s, e :: es => (if C s e then 1 else 0) + countSteps (step s e) es

@[simp] theorem countSteps_nil (s : σ) : countSteps step C s [] = 0 := rfl

theorem countSteps_cons (s : σ) (e : ε) (es : List ε) :
    countSteps step C s (e :: es) = (if C s e then 1 else 0) + countSteps step C (step s e) es :=
  rfl

variable {step C} {D : σ → ε → Prop} [∀ s e, Decidable (D s e)]

/--
**The potential method.** If a step that satisfies `C` takes one from the potential, and no step
adds more than one to it, and that only if it satisfies `D`, then a run has not many more steps of
the one kind than of the other.
-/
theorem countSteps_le_of_potential {P : σ → ε → Prop} (Inv : σ → Prop) (potential : σ → ℕ)
    (hinv : ∀ s e, Inv s → P s e → Inv (step s e))
    (hpays : ∀ s e, Inv s → P s e → (if C s e then 1 else 0) + potential (step s e)
      ≤ (if D s e then 1 else 0) + potential s) {es : List ε} :
    ∀ {s : σ}, Inv s → StepsMeet step P s es →
      countSteps step C s es + potential (run step s es)
        ≤ countSteps step D s es + potential s := by
  induction es with
  | nil =>
    intro s _ _
    exact Nat.le_refl _
  | cons e es ih =>
    intro s hs h
    have hstep := hpays s e hs h.1
    have hrest := ih (hinv s e hs h.1) h.2
    rw [countSteps_cons, countSteps_cons, run_cons]
    omega

end OtLab.Lib
