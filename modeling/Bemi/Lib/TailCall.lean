import Mathlib.Tactic.Common

/-!
# Tail calls

Functions that return a result or call another one last. `Returns` says that a call comes back, with
enough fuel; functions that only call one another never do (`not_returns`).
-/

namespace TailCall

variable {F R : Type*} (body : F → F ⊕ R)

/-- A call with fuel. A body answers the function to call last, or a result. -/
def run : Nat → F → Option R
  | 0, _ => none
  | fuel + 1, f =>
    match body f with
    | .inl next => run fuel next
    | .inr result => some result

def Returns (f : F) : Prop := ∃ fuel result, run body fuel f = some result

variable {body}

lemma returns_of_result {f : F} {result : R} (h : body f = .inr result) : Returns body f :=
  ⟨1, result, by rw [run, h]⟩

/-- Functions that only call one another never return. -/
theorem not_returns {P : F → Prop} (h : ∀ f, P f → ∃ next, body f = .inl next ∧ P next) {f : F}
    (hf : P f) : ¬ Returns body f := by
  rintro ⟨fuel, result, hrun⟩
  induction fuel generalizing f with
  | zero => cases hrun
  | succ fuel ih =>
    obtain ⟨next, hcall, hnext⟩ := h f hf
    rw [run, hcall] at hrun
    exact ih hnext hrun

end TailCall
