import Mathlib.Tactic.Common
import Mathlib.Logic.Function.Iterate

/-!
# Scans without a bound

The loop that looks at one place after the other until it finds what it looks for. It has no bound
of its own, so it takes fuel: with some fuel it ends exactly when what it looks for is somewhere on
its way.
-/

namespace Scan

variable {α : Type*}

/-- `loop { if found(a) { break } a = next(a) }`; the answer is the place where it ends. -/
def scan (found : α → Bool) (next : α → α) : ℕ → α → Option α
  | 0, _ => none
  | fuel + 1, a => if found a then some a else scan found next fuel (next a)

lemma scan_isSome_iff (found : α → Bool) (next : α → α) (fuel : ℕ) (a : α) :
    (scan found next fuel a).isSome = true ↔ ∃ k < fuel, found (next^[k] a) = true := by
  induction fuel generalizing a with
  | zero => exact iff_of_false nofun fun ⟨k, hk, _⟩ => absurd hk (Nat.not_lt_zero k)
  | succ fuel ih =>
    rw [scan]
    by_cases ha : found a = true
    · rw [if_pos ha]
      exact iff_of_true rfl ⟨0, Nat.succ_pos fuel, ha⟩
    · rw [if_neg ha, ih]
      constructor
      · intro h
        obtain ⟨k, hk, hfound⟩ := h
        exact ⟨k + 1, Nat.succ_lt_succ hk, hfound⟩
      · intro h
        obtain ⟨k, hk, hfound⟩ := h
        cases k with
        | zero => exact absurd hfound ha
        | succ k => exact ⟨k, Nat.lt_of_succ_lt_succ hk, hfound⟩

/-- The scan ends exactly when it gets to a place that it looks for. -/
theorem scan_ends_iff (found : α → Bool) (next : α → α) (a : α) :
    (∃ fuel, (scan found next fuel a).isSome = true) ↔ ∃ k, found (next^[k] a) = true := by
  simp only [scan_isSome_iff]
  constructor
  · intro h
    obtain ⟨_, k, -, hfound⟩ := h
    exact ⟨k, hfound⟩
  · intro h
    obtain ⟨k, hfound⟩ := h
    exact ⟨k + 1, k, Nat.lt_succ_self k, hfound⟩

end Scan
