import Mathlib.Tactic.Common
import Mathlib.Data.Nat.Init

/-!
# Counting down

A counter that starts at its period, counts one tick after the other, and starts again when nothing
is left: what is left after `k` ticks, and the ticks at which it runs out.
-/

namespace Countdown

/-- What is left after `k` ticks. -/
def left (n k : ℕ) : ℕ := n - k % n

/-- The ticks, of the first `k`, at which nothing is left. -/
def fires (n k : ℕ) : List ℕ := (List.range (k / n)).map fun i => (i + 1) * n

variable {n k : ℕ}

lemma left_zero (n : ℕ) : left n 0 = n := by
  rw [left, Nat.zero_mod, Nat.sub_zero]

/-- The next tick leaves nothing, and the counter starts again. -/
lemma left_of_dvd (hn : 0 < n) (h : n ∣ k + 1) : left n k = 1 ∧ left n (k + 1) = n := by
  have hk := Nat.div_add_mod k n
  have hk' := Nat.div_add_mod (k + 1) n
  rw [Nat.succ_div_of_dvd h, Nat.mul_succ, Nat.mod_eq_zero_of_dvd h] at hk'
  rw [left, left, Nat.mod_eq_zero_of_dvd h]
  omega

/-- The next tick leaves one less. -/
lemma left_of_not_dvd (hn : 0 < n) (h : ¬ n ∣ k + 1) :
    1 < left n k ∧ left n (k + 1) = left n k - 1 := by
  have hk := Nat.div_add_mod k n
  have hk' := Nat.div_add_mod (k + 1) n
  have hlt := Nat.mod_lt (k + 1) hn
  rw [Nat.succ_div_of_not_dvd h] at hk'
  rw [left, left]
  omega

lemma fires_of_dvd (h : n ∣ k + 1) : fires n (k + 1) = fires n k ++ [k + 1] := by
  have hlast : (k / n + 1) * n = k + 1 := by
    rw [← Nat.succ_div_of_dvd h, Nat.div_mul_cancel h]
  rw [fires, fires, Nat.succ_div_of_dvd h, List.range_succ, List.map_append, List.map_singleton,
    hlast]

lemma fires_of_not_dvd (h : ¬ n ∣ k + 1) : fires n (k + 1) = fires n k := by
  rw [fires, fires, Nat.succ_div_of_not_dvd h]

lemma fires_of_lt (h : k < n) : fires n k = [] := by
  rw [fires, Nat.div_eq_of_lt h, List.range_zero, List.map_nil]

/-- The first of these ticks. -/
lemma take_fires (n k : ℕ) :
    (fires n k).take 1 = (List.range (min 1 (k / n))).map fun i => (i + 1) * n := by
  rw [fires, ← List.map_take, List.take_range]

end Countdown
