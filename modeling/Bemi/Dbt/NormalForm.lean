import Mathlib.Data.List.Chain
import Bemi.Dbt.Optimizer

/-!
# Normal form of the optimizer

One call of `optimize_block` leaves a block in which neither pass finds anything, so a second call
changes nothing, not even the array behind the active micro-ops. The deletions of the second pass
compare the kept micro-op with its new successor, which is why no pair is recreated behind the
index.
-/

namespace Bemi.Dbt
open Machine

/-! ## The count of the second pass -/

/-- A micro-op before the last one, and the one behind it. -/
lemma index_lt {n i : Nat} (h : i < n - 1) : i < n := by omega

lemma index_succ_lt {n i : Nat} (h : i < n - 1) : i + 1 < n := by omega

/-- The second loop of `optimize_block` with the subtraction in its bound checked. -/
def eliminateBackToBackChecked (tb : TranslationBlock) (i : Nat) : Option TranslationBlock :=
  if tb.microOpCount = 0 then none
  else if h : i < tb.microOpCount - 1 then
    let uop1 := tb.uop i (index_lt h)
    let uop2 := tb.uop (i + 1) (index_succ_lt h)
    if backToBack uop1 uop2 then eliminateBackToBackChecked (tb.remove (i + 1)) i
    else eliminateBackToBackChecked tb (i + 1)
  else some tb
termination_by tb.microOpCount - i
decreasing_by
  · rw [tb.microOpCount_remove (i + 1) (by omega)]
    omega
  · omega

/-- `optimize_block`, where `none` is an underflow of `micro_op_count - 1`. -/
def optimizeBlockChecked (tb : TranslationBlock) : Option TranslationBlock :=
  let tb := eliminateRedundant tb 0
  if tb.microOpCount > 1 then eliminateBackToBackChecked tb 0 else some tb

/-- The second pass keeps the micro-op at its index, so the count stays above 0. -/
lemma eliminateBackToBackChecked_eq (tb : TranslationBlock) (i : Nat) (h : 0 < tb.microOpCount) :
    eliminateBackToBackChecked tb i = some (eliminateBackToBack tb i) := by
  induction tb, i using eliminateBackToBack.induct with
  | case1 tb i hi uop1 uop2 hpair ih =>
    have hrem := tb.microOpCount_remove (i + 1) (by omega)
    rw [eliminateBackToBackChecked, if_neg (by omega), dif_pos hi, eliminateBackToBack, dif_pos hi]
    simp only [uop1, uop2] at hpair
    simp only [hpair, if_true]
    exact ih (by omega)
  | case2 tb i hi uop1 uop2 hpair ih =>
    rw [eliminateBackToBackChecked, if_neg (by omega), dif_pos hi, eliminateBackToBack, dif_pos hi]
    simp only [uop1, uop2] at hpair
    simp only [hpair]
    exact ih h
  | case3 tb i hi =>
    rw [eliminateBackToBackChecked, if_neg (by omega), dif_neg hi, eliminateBackToBack, dif_neg hi]

lemma optimizeBlockChecked_eq (tb : TranslationBlock) :
    optimizeBlockChecked tb = some (optimizeBlock tb) := by
  rw [optimizeBlockChecked, optimizeBlock]
  split_ifs with hcount
  · exact eliminateBackToBackChecked_eq _ 0 (by omega)
  · rfl

/-! ## Blocks that the passes leave alone -/

lemma uop_mem_active (tb : TranslationBlock) (i : Nat) (h : i < tb.microOpCount) :
    tb.uop i h ∈ tb.active :=
  List.mem_of_getElem? (tb.active_get i h)

/-- Without redundant micro-ops the first pass does nothing. -/
lemma eliminateRedundant_eq_self (tb : TranslationBlock) (i : Nat)
    (h : ∀ uop ∈ tb.active, redundant uop = false) : eliminateRedundant tb i = tb := by
  induction tb, i using eliminateRedundant.induct with
  | case1 tb i hi hred ih =>
    rw [h _ (uop_mem_active tb i hi)] at hred
    cases hred
  | case2 tb i hi hred ih =>
    rw [eliminateRedundant, dif_pos hi, if_neg hred]
    exact ih h
  | case3 tb i hi => rw [eliminateRedundant, dif_neg hi]

/-- Without back-to-back moves the second pass does nothing. -/
lemma eliminateBackToBack_eq_self (tb : TranslationBlock) (i : Nat)
    (h : tb.active.IsChain fun a b => backToBack a b = false) : eliminateBackToBack tb i = tb := by
  induction tb, i using eliminateBackToBack.induct with
  | case1 tb i hi uop1 uop2 hpair ih =>
    have hlen : i + 1 < tb.active.length := by
      rw [tb.length_active]
      omega
    obtain ⟨_, hi₁⟩ := List.getElem?_eq_some_iff.mp (tb.active_get i (by omega))
    obtain ⟨_, hi₂⟩ := List.getElem?_eq_some_iff.mp (tb.active_get (i + 1) (by omega))
    have hclean := List.isChain_iff_getElem.mp h i hlen
    simp only [uop1, uop2] at hpair
    rw [hi₁, hi₂, hpair] at hclean
    cases hclean
  | case2 tb i hi uop1 uop2 hpair ih =>
    rw [eliminateBackToBack, dif_pos hi]
    simp only [uop1, uop2] at hpair
    simp only [hpair]
    exact ih h
  | case3 tb i hi => rw [eliminateBackToBack, dif_neg hi]

lemma redundant_iff (uop : MicroOpInst) :
    redundant uop = true ↔ uop.code = .nop ∨ (uop.code = .movRR ∧ uop.dst = uop.src1) := by
  simp [redundant]

/-- One call of `optimize_block` never underflows, deletes micro-ops only, and leaves no `Nop`, no
move of a register to itself, no move whose predecessor is the same move the other way round, and
nothing for another call. -/
theorem optimizeBlock_normalForm (tb : TranslationBlock) :
    optimizeBlockChecked tb = some (optimizeBlock tb) ∧
      (optimizeBlock tb).active.Sublist tb.active ∧
      (∀ uop ∈ (optimizeBlock tb).active,
        uop.code ≠ .nop ∧ ¬ (uop.code = .movRR ∧ uop.dst = uop.src1)) ∧
      (∀ pre a b post, (optimizeBlock tb).active = pre ++ a :: b :: post →
        ¬ (a.code = .movRR ∧ b.code = .movRR ∧ a.dst = b.src1 ∧ a.src1 = b.dst)) ∧
      optimizeBlock (optimizeBlock tb) = optimizeBlock tb := by
  have hsub := squash_sublist backToBack (essential tb.active)
  have hchain := squash_isChain backToBack (essential tb.active)
  rw [← active_optimizeBlock] at hsub hchain
  have hclean : ∀ uop ∈ (optimizeBlock tb).active, redundant uop = false := by
    intro uop huop
    have hkept := List.of_mem_filter (hsub.subset huop)
    rwa [Bool.not_eq_true'] at hkept
  refine ⟨optimizeBlockChecked_eq tb, hsub.trans List.filter_sublist, ?_, ?_, ?_⟩
  · intro uop huop
    rw [ne_eq, ← not_or, ← redundant_iff, hclean uop huop]
    decide
  · intro pre a b post hact hpair
    have hnot := List.isChain_iff_forall_rel_of_append_cons_cons.mp hchain hact
    rw [backToBack_iff.mpr hpair] at hnot
    cases hnot
  · rw [optimizeBlock, eliminateRedundant_eq_self _ 0 hclean, eliminateBackToBack_eq_self _ 0 hchain,
      ite_self]

end Bemi.Dbt
