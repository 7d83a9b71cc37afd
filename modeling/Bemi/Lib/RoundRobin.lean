import Mathlib.Tactic.Common
import Mathlib.Algebra.GroupWithZero.Nat
import Mathlib.Algebra.Group.Fin.Basic

/-!
# Round-robin search

The first index with a property in cyclic order from a starting point: a `do`/`while` loop that
stops when it is back where it started.
-/

namespace RoundRobin

variable {n : Nat} [NeZero n]

/-- The distance still to go shrinks with every step that does not close the circle. -/
lemma sub_next_lt {start b : Fin n} (h : b + 1 ≠ start) :
    (start - (b + 1) - 1).val < (start - (b + 1)).val := by
  have hne : start - (b + 1) ≠ 0 := fun e => h (sub_eq_zero.mp e).symm
  rw [Fin.val_sub_one_of_ne_zero hne]
  have : (start - (b + 1)).val ≠ 0 := fun e => hne (Fin.ext e)
  omega

/-- The search from `b` on, until `start` comes round again. -/
def searchFrom (p : Fin n → Bool) (start b : Fin n) : Option (Fin n) :=
  if p b then some b
  else if h : b + 1 = start then none
  else searchFrom p start (b + 1)
termination_by (start - (b + 1)).val
decreasing_by
  have := sub_next_lt h
  rwa [sub_sub] at this

/-- The first index from `start` on that satisfies `p`. -/
def search (p : Fin n → Bool) (start : Fin n) : Option (Fin n) :=
  searchFrom p start start

lemma searchFrom_some {p : Fin n → Bool} {start b c : Fin n}
    (h : searchFrom p start b = some c) : p c = true := by
  induction b using searchFrom.induct p start with
  | case1 b hb =>
    rw [searchFrom, if_pos hb] at h
    exact Option.some.inj h ▸ hb
  | case2 b hb =>
    rename_i hstart
    rw [searchFrom, if_neg hb, dif_pos hstart] at h
    cases h
  | case3 b hb =>
    rename_i hstart ih
    rw [searchFrom, if_neg hb, dif_neg hstart] at h
    exact ih h

/-- What the search finds has the property. -/
theorem search_some {p : Fin n → Bool} {start c : Fin n} (h : search p start = some c) :
    p c = true :=
  searchFrom_some h

lemma searchFrom_first {p : Fin n → Bool} {start b c : Fin n} (h : searchFrom p start b = some c)
    (i : Fin n) (hi : (i - b).val < (c - b).val) : p i = false := by
  induction b using searchFrom.induct p start with
  | case1 b hb =>
    rw [searchFrom, if_pos hb] at h
    rw [Option.some.inj h, sub_self] at hi
    exact absurd hi (Nat.not_lt_zero _)
  | case2 b hb hstart =>
    rw [searchFrom, if_neg hb, dif_pos hstart] at h
    cases h
  | case3 b hb hstart ih =>
    rw [searchFrom, if_neg hb, dif_neg hstart] at h
    by_cases hib : i - b = 0
    · rw [sub_eq_zero.mp hib]
      exact Bool.eq_false_of_not_eq_true hb
    · have hcb : c - b ≠ 0 := fun e => by
        rw [e] at hi
        exact absurd hi (Nat.not_lt_zero _)
      have hpos : (i - b).val ≠ 0 := fun e => hib (Fin.ext e)
      apply ih h
      rw [← sub_sub, ← sub_sub, Fin.val_sub_one_of_ne_zero hib, Fin.val_sub_one_of_ne_zero hcb]
      omega

/-- What comes before it, in cyclic order from the start, does not. -/
theorem search_first {p : Fin n → Bool} {start c : Fin n} (h : search p start = some c)
    (i : Fin n) (hi : (i - start).val < (c - start).val) : p i = false :=
  searchFrom_first h i hi

/-- A search that fails has looked at every index up to the start. -/
lemma searchFrom_none {p : Fin n → Bool} {start b : Fin n} (h : searchFrom p start b = none)
    (i : Fin n) (hi : (i - b).val ≤ (start - (b + 1)).val) : p i = false := by
  induction b using searchFrom.induct p start with
  | case1 b hb =>
    rw [searchFrom, if_pos hb] at h
    cases h
  | case2 b hb hstart =>
    rw [hstart, sub_self] at hi
    have hzero : i - b = 0 := Fin.ext (Nat.le_zero.mp hi)
    rw [sub_eq_zero.mp hzero]
    exact Bool.eq_false_of_not_eq_true hb
  | case3 b hb hstart ih =>
    rw [searchFrom, if_neg hb, dif_neg hstart] at h
    by_cases hib : i - b = 0
    · rw [sub_eq_zero.mp hib]
      exact Bool.eq_false_of_not_eq_true hb
    · have hne : start - (b + 1) ≠ 0 := fun e => hstart (sub_eq_zero.mp e).symm
      apply ih h
      rw [← sub_sub, ← sub_sub start, Fin.val_sub_one_of_ne_zero hib,
        Fin.val_sub_one_of_ne_zero hne]
      omega

/-- The search fails when no index has the property. -/
theorem search_eq_none_iff {p : Fin n → Bool} {start : Fin n} :
    search p start = none ↔ ∀ i, p i = false := by
  constructor
  · intro h i
    refine searchFrom_none h i ?_
    obtain ⟨m, rfl⟩ := Nat.exists_eq_succ_of_ne_zero (NeZero.ne n)
    have hlast : (start - (start + 1)).val = m := by
      rw [sub_add_cancel_left]
      exact Fin.coe_neg_one
    rw [hlast]
    exact Nat.le_of_lt_succ (i - start).isLt
  · intro h
    cases hs : search p start with
    | none => rfl
    | some c =>
      have hc := search_some hs
      rw [h c] at hc
      cases hc

end RoundRobin
