import Mathlib.Algebra.BigOperators.Fin
import Mathlib.Algebra.Order.BigOperators.Group.Finset
import Bemi.Lib.Lookup

/-!
# Tables of slots

A finite table, a measure of its slots and its total over the table; how replacing one slot changes
the total. `count` is the total of a test: the number of slots that pass it. A scan from the first
slot on finds a slot exactly when one passes.
-/

namespace Slots

variable {ι ε : Type*} [Fintype ι] [DecidableEq ι]

/-- Replacing a slot changes the total by the difference of the two measures. -/
lemma sum_update (f : ε → ℕ) (t : ι → ε) (i : ι) (e : ε) :
    ∑ j, f (Function.update t i e j) + f (t i) = ∑ j, f (t j) + f e := by
  have hupdate (j : ι) : f (Function.update t i e j) = Function.update (fun j => f (t j)) i (f e) j :=
    Function.apply_update (fun _ => f) t i e j
  rw [Finset.sum_congr rfl fun j _ => hupdate j, Finset.sum_update_of_mem (Finset.mem_univ i),
    ← Finset.add_sum_erase Finset.univ (fun j => f (t j)) (Finset.mem_univ i),
    Finset.sdiff_singleton_eq_erase]
  omega

/-- The number of slots that pass a test. -/
def count (p : ε → Bool) (t : ι → ε) : ℕ :=
  ∑ j, (p (t j)).toNat

lemma count_update (p : ε → Bool) (t : ι → ε) (i : ι) (e : ε) :
    count p (Function.update t i e) + (p (t i)).toNat = count p t + (p e).toNat :=
  sum_update (fun e => (p e).toNat) t i e

omit [DecidableEq ι] in
/-- The count is the number of slots exactly when every slot passes. -/
lemma count_eq_card_iff {p : ε → Bool} {t : ι → ε} :
    count p t = Fintype.card ι ↔ ∀ i, p (t i) = true := by
  have hle (i : ι) (_ : i ∈ Finset.univ) : (p (t i)).toNat ≤ 1 := Bool.toNat_le _
  rw [count, ← Finset.card_univ, Finset.card_eq_sum_ones, Finset.sum_eq_sum_iff_of_le hle]
  exact ⟨fun h i => Bool.toNat_eq_one.mp (h i (Finset.mem_univ i)), fun h i _ =>
    Bool.toNat_eq_one.mpr (h i)⟩

/-- A scan finds nothing when no slot passes. -/
lemma find_none_iff {n : ℕ} {q : Fin n → Bool} :
    (List.finRange n).find? q = none ↔ ∀ i, q i = false := by
  rw [List.find?_eq_none]
  constructor
  · exact fun h i => Bool.eq_false_of_not_eq_true (h i (List.mem_finRange i))
  · exact fun h i _ => Bool.not_eq_true _ ▸ h i

/-- A scan finds the first slot that passes. -/
lemma find_some {n : ℕ} {q : Fin n → Bool} {i : Fin n} (h : (List.finRange n).find? q = some i) :
    q i = true ∧ ∀ j, q j = true → i ≤ j := by
  obtain ⟨hi, hbefore⟩ :=
    Lookup.find?_pairwise (fun _ _ => Nat.lt_asymm) (List.pairwise_lt_finRange n) h
  refine ⟨hi, fun j hj => Fin.not_lt.mp fun hlt => ?_⟩
  exact Bool.false_ne_true ((hbefore j (List.mem_finRange j) hlt).symm.trans hj)

end Slots
