import Mathlib.Algebra.GroupWithZero.Nat
import Mathlib.Data.List.DropRight
import Mathlib.Data.List.MinMax

/-!
# Recency

A list of events, some of which access an item. Accesses are numbered from 1 on; `last` is the number
of the last one of an item. Of several items, the one accessed least recently is the one with the
least `last`. A counter of bounded width keeps that order for as long as it does not overflow.
-/

namespace Recency

variable {α ι : Type*} (acc : α → ι → Prop)

open Classical in
/-- How many events access an item. -/
noncomputable def count (tr : List α) : Nat :=
  tr.countP fun ev => ∃ i, acc ev i

open Classical in
/-- The number of the last access of an item, or 0. -/
noncomputable def last (tr : List α) (i : ι) : Nat :=
  count acc (tr.rdropWhile fun ev => ¬ acc ev i)

variable {acc} {tr : List α} {ev : α} {i : ι}

lemma count_concat (h : acc ev i) : count acc (tr ++ [ev]) = count acc tr + 1 := by
  have hev : ∃ i, acc ev i := ⟨i, h⟩
  simp [count, List.countP_append, hev]

lemma count_concat_of_not (h : ∀ i, ¬ acc ev i) : count acc (tr ++ [ev]) = count acc tr := by
  have hev : ¬ ∃ i, acc ev i := not_exists.mpr h
  simp only [count, List.countP_append, List.countP_singleton, hev, decide_false,
    Bool.false_eq_true, if_false, Nat.add_zero]

/-- An access is the last one. -/
lemma last_concat (h : acc ev i) : last acc (tr ++ [ev]) i = count acc tr + 1 := by
  rw [last, List.rdropWhile_concat_neg _ _ _ (by simpa using h), count_concat h]

/-- An event that does not access an item keeps its last access. -/
lemma last_concat_of_not (h : ¬ acc ev i) : last acc (tr ++ [ev]) i = last acc tr i := by
  rw [last, List.rdropWhile_concat_pos _ _ _ (by simpa using h), last]

lemma last_le (tr : List α) (i : ι) : last acc tr i ≤ count acc tr :=
  (List.rdropWhile_prefix _ _).sublist.countP_le

lemma count_le_length (tr : List α) : count acc tr ≤ tr.length :=
  List.countP_le_length

/-- Only the order of the keys matters to the first least item. -/
lemma argmin_congr {β γ : Type*} [LinearOrder β] [LinearOrder γ] [DecidableEq ι] {l : List ι}
    {f : ι → β} {g : ι → γ} (h : ∀ i ∈ l, ∀ j ∈ l, f i ≤ f j ↔ g i ≤ g j) :
    l.argmin f = l.argmin g := by
  ext i
  rw [List.argmin_eq_some_iff, List.argmin_eq_some_iff]
  refine and_congr_right fun hi => and_congr ?_ ?_
  · exact forall₂_congr fun j hj => h i hi j hj
  · exact forall₂_congr fun j hj => imp_congr_left (h j hj i hi)

/-- Numbers of accesses below the bound of a counter are ordered as the counter values are. -/
theorem argmin_counter [DecidableEq ι] {bound : Nat} (hbound : count acc tr ≤ bound) {l : List ι}
    (hl : ∀ i ∈ l, 0 < last acc tr i) :
    l.argmin (fun i => (last acc tr i - 1) % bound) = l.argmin (last acc tr) := by
  refine argmin_congr fun i hi j hj => ?_
  have hposi := hl i hi
  have hposj := hl j hj
  have hi : last acc tr i ≤ count acc tr := last_le tr i
  have hj : last acc tr j ≤ count acc tr := last_le tr j
  rw [Nat.mod_eq_of_lt (by omega), Nat.mod_eq_of_lt (by omega)]
  omega

end Recency
