import Mathlib.Tactic.Common

/-!
# CalledIt.Lib.Run

Runs of a labelled transition system.

`Run step s tr t` says that `t` is reached from `s` by the steps recorded in
the trace `tr`, oldest first.  `Run.invariant` turns "holds at the start and is
kept by every step" into "holds at the end of every run"; `Run.invariant_trace`
does the same for properties that also speak of the trace so far.
-/

namespace Lib

section

variable {σ ε : Type} {step : σ → ε → σ → Prop} {s t u : σ} {e : ε} {tr tr' : List ε}

/-- Finite runs, with the labels of their steps in order. -/
inductive Run (step : σ → ε → σ → Prop) : σ → List ε → σ → Prop
  | refl (s : σ) : Run step s [] s
  | snoc {s t u : σ} {e : ε} {tr : List ε} :
      Run step s tr t → step t e u → Run step s (tr ++ [e]) u

namespace Run

theorem single (h : step s e t) : Run step s [e] t := .snoc (.refl s) h

theorem append (h : Run step s tr t) (h' : Run step t tr' u) : Run step s (tr ++ tr') u := by
  induction h' with
  | refl => simpa using h
  | snoc _ hs ih =>
      rw [← List.append_assoc]
      exact .snoc ih hs

/-- A property kept by every step holds at the end of every run. -/
theorem invariant {I : σ → Prop} (hI : ∀ {s e t}, step s e t → I s → I t)
    (h : Run step s tr t) (h0 : I s) : I t := by
  induction h with
  | refl => exact h0
  | snoc _ hs ih => exact hI hs ih

/-- The same for a property of the state together with the trace so far, which
starts at `tr₀`. -/
theorem invariant_trace {I : List ε → σ → Prop}
    (hI : ∀ {tr s e t}, step s e t → I tr s → I (tr ++ [e]) t)
    (h : Run step s tr t) {tr₀ : List ε} (h0 : I tr₀ s) : I (tr₀ ++ tr) t := by
  induction h with
  | refl => simpa using h0
  | snoc _ hs ih =>
      rw [← List.append_assoc]
      exact hI hs ih

end Run

end

end Lib
