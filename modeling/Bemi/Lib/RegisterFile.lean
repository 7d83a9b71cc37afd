import Bemi.Lib.Run
import Mathlib.Logic.Function.Basic

/-!
# Register files

The runs of a system whose operations write to registers and may be refused. When a refused write
changes nothing that can be read, and any other one the register it is for, each register reads as the
last write to it that was not refused, and before the first one as it did at the beginning.
-/

namespace RegisterFile
open Transition

variable {ι V σ ρ : Type*} [DecidableEq ι] {accepted : ρ → Bool}

/-- The last value written to a register by a write that was accepted. -/
def lastWritten (accepted : ρ → Bool) (tr : List (Event σ (ι × V) ρ)) (i : ι) : Option V :=
  (tr.reverse.find? fun ev => decide (ev.op.1 = i) && accepted ev.answer).map (·.op.2)

lemma lastWritten_concat (tr : List (Event σ (ι × V) ρ)) (ev : Event σ (ι × V) ρ) (i : ι) :
    lastWritten accepted (tr ++ [ev]) i =
      if ev.op.1 = i ∧ accepted ev.answer = true then some ev.op.2
      else lastWritten accepted tr i := by
  rw [lastWritten, List.reverse_append, List.reverse_singleton, List.singleton_append,
    List.find?_cons]
  split
  · rename_i hfound
    rw [Bool.and_eq_true, decide_eq_true_iff] at hfound
    rw [if_pos hfound]
    rfl
  · rename_i hfound
    rw [Bool.and_eq_false_iff, decide_eq_false_iff_not] at hfound
    rw [if_neg]
    · rfl
    · rintro ⟨hi, haccepted⟩
      rcases hfound with hne | hrefused
      · exact hne hi
      · rw [haccepted] at hrefused
        cases hrefused

/-- A write changes the register it is for, unless it is refused. -/
def Writes (accepted : ρ → Bool) (read : σ → ι → V) (Step : σ → ι × V → ρ → σ → Prop) : Prop :=
  ∀ s w answer s', Step s w answer s' →
    read s' = if accepted answer then Function.update (read s) w.1 w.2 else read s

variable {read : σ → ι → V} {Step : σ → ι × V → ρ → σ → Prop} {s₀ s : σ}
  {tr : List (Event σ (ι × V) ρ)}

/-- Each register reads as the last accepted write to it. -/
theorem read_eq (h : Writes accepted read Step) (run : Run Step s₀ tr s) (i : ι) :
    read s i = (lastWritten accepted tr i).getD (read s₀ i) := by
  refine run.history (I := fun tr s => read s i = (lastWritten accepted tr i).getD (read s₀ i))
    rfl ?_
  intro tr s w answer s' ih step
  rw [h s w answer s' step, lastWritten_concat]
  cases haccepted : accepted answer with
  | false => simpa using ih
  | true =>
    by_cases hi : w.1 = i
    · subst hi
      simp
    · rw [if_pos rfl, Function.update_of_ne (Ne.symm hi), if_neg fun hw => hi hw.1]
      exact ih

/-- A write changes no other register. -/
lemma read_other (h : Writes accepted read Step) {w : ι × V} {answer : ρ} {s' : σ}
    (step : Step s w answer s') {j : ι} (hj : j ≠ w.1) : read s' j = read s j := by
  rw [h s w answer s' step]
  split
  · exact Function.update_of_ne hj _ _
  · rfl

end RegisterFile
