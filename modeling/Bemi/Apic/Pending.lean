import Bemi.Apic.Registers
import Bemi.Lib.Bits

/-!
# Pending interrupts

What injecting an interrupt and taking the next one do to the vectors in IRR and ISR.
-/

namespace Bemi.Apic
open Bits

/-- The processor's `AsmMsb32`, as its callers need it: taken from 31, the highest bit set. -/
def CountsFromTop (asmMsb32 : UInt32 → UInt32) : Prop :=
  ∀ x, x ≠ 0 → (31 - asmMsb32 x).toNat = x.toNat.log2

/-- Such a function: the number of zeros above the highest bit set. -/
def leadingZeros (x : UInt32) : UInt32 := 31 - UInt32.ofNat x.toNat.log2

lemma countsFromTop_leadingZeros : CountsFromTop leadingZeros := by
  intro x hx
  have hne : x.toNat ≠ 0 := fun e => hx (UInt32.toNat_inj.mp e)
  have hlt : x.toNat.log2 < 32 := (Nat.log2_lt hne).mpr x.toNat_lt
  have hlog : (UInt32.ofNat x.toNat.log2).toNat = x.toNat.log2 := by
    rw [UInt32.toNat_ofNat']
    omega
  have htop : (leadingZeros x).toNat = 31 - x.toNat.log2 := by
    rw [leadingZeros, UInt32.toNat_sub, hlog]
    simp only [UInt32.reduceToNat]
    omega
  rw [UInt32.toNat_sub, htop]
  simp only [UInt32.reduceToNat]
  omega

/-! ## Vectors in a block -/

lemma irrReg_injective : Function.Injective irrReg := by
  have key : ∀ i j : Fin 8, irrReg i = irrReg j → i = j := by decide
  exact fun i j => key i j

lemma isrReg_injective : Function.Injective isrReg := by
  have key : ∀ i j : Fin 8, isrReg i = isrReg j → i = j := by decide
  exact fun i j => key i j

lemma irrReg_ne_isrReg : ∀ i j : Fin 8, irrReg i ≠ isrReg j := by decide

variable {reg : Fin 8 → Fin (lapicRegsSize / 4)} {regs : Fin (lapicRegsSize / 4) → UInt32}

/-- A register that is not in the block. -/
lemma vectorSet_update_other {r : Fin (lapicRegsSize / 4)} (h : ∀ i, reg i ≠ r) (x : UInt32)
    (v : Nat) : vectorSet ⟨Function.update regs r x⟩ reg v = vectorSet ⟨regs⟩ reg v := by
  unfold vectorSet
  split
  · dsimp only
    rw [Function.update_of_ne (h _)]
  · rfl

/-- A register of the block. -/
lemma vectorSet_update (hreg : Function.Injective reg) (i : Fin 8) (x : UInt32) (v : Nat) :
    vectorSet ⟨Function.update regs (reg i) x⟩ reg v =
      if v / 32 = i then x.toNat.testBit (v % 32) else vectorSet ⟨regs⟩ reg v := by
  unfold vectorSet
  by_cases h : v / 32 < 8
  · rw [dif_pos h, dif_pos h]
    split
    · rename_i hi
      obtain rfl : (⟨v / 32, h⟩ : Fin 8) = i := Fin.ext hi
      dsimp only
      rw [Function.update_self]
    · rename_i hi
      have hne : reg ⟨v / 32, h⟩ ≠ reg i := fun e => hi (congrArg Fin.val (hreg e))
      dsimp only
      rw [Function.update_of_ne hne]
  · rw [dif_neg h, dif_neg h, if_neg (by omega)]

lemma vectorSet_of_div {i : Fin 8} {v : Nat} (h : v / 32 = i) :
    vectorSet ⟨regs⟩ reg v = (regs (reg i)).toNat.testBit (v % 32) := by
  have hi : (⟨v / 32, h ▸ i.isLt⟩ : Fin 8) = i := Fin.ext h
  rw [vectorSet, dif_pos (h ▸ i.isLt), hi]

lemma vectorSet_set (hreg : Function.Injective reg) (i : Fin 8) {b : UInt32} (hb : b.toNat < 32)
    (v : Nat) :
    vectorSet ⟨Function.update regs (reg i) (regs (reg i) ||| (1 <<< b))⟩ reg v =
      (vectorSet ⟨regs⟩ reg v || decide (v = i * 32 + b.toNat)) := by
  rw [vectorSet_update hreg]
  split
  · rename_i hi
    rw [testBit_set _ hb, vectorSet_of_div hi]
    congr 2
    exact propext (by omega)
  · rename_i hi
    rw [decide_eq_false (by omega), Bool.or_false]

lemma vectorSet_clear (hreg : Function.Injective reg) (i : Fin 8) {b : UInt32} (hb : b.toNat < 32)
    (v : Nat) :
    vectorSet ⟨Function.update regs (reg i) (regs (reg i) &&& ~~~(1 <<< b))⟩ reg v =
      (vectorSet ⟨regs⟩ reg v && !decide (v = i * 32 + b.toNat)) := by
  rw [vectorSet_update hreg]
  split
  · rename_i hi
    rw [testBit_clear _ hb, vectorSet_of_div hi]
    congr 3
    exact propext (by omega)
  · rename_i hi
    rw [decide_eq_false (by omega), Bool.not_false, Bool.and_true]

/-! ## Injection -/

/-- The register that `ApicShadowInjectInterrupt` works out. -/
lemma toNat_regIndex (vector : UInt32) :
    ((0x200 + vector / 32 * 16) / 4 : UInt32).toNat = 128 + vector.toNat / 32 * 4 := by
  have := vector.toNat_lt
  rw [UInt32.toNat_div, UInt32.toNat_add, UInt32.toNat_mul, UInt32.toNat_div]
  simp only [UInt32.reduceToNat]
  omega

/-- Injecting a vector sets its bit in IRR. -/
lemma apicShadowInjectInterrupt_vector (a : ApicShadow) {vector : UInt32}
    (h : vector.toNat / 32 < 8) :
    (apicShadowInjectInterrupt a vector).1 = ⟨Function.update a.gLapicRegs (irrReg ⟨_, h⟩)
      (a.gLapicRegs (irrReg ⟨_, h⟩) ||| (1 <<< (vector % 32)))⟩ := by
  have hidx := toNat_regIndex vector
  have hlt : ((0x200 + vector / 32 * 16) / 4 : UInt32).toNat < lapicRegsSize / 4 := by
    change _ < 256
    omega
  have hreg : (⟨_, hlt⟩ : Fin (lapicRegsSize / 4)) = irrReg ⟨_, h⟩ := by
    apply Fin.ext
    change ((0x200 + vector / 32 * 16) / 4 : UInt32).toNat = (0x200 + vector.toNat / 32 * 16) / 4
    omega
  simp only [apicShadowInjectInterrupt, dif_pos hlt, hreg]

/-- Beyond the vectors there is no register of IRR or ISR. -/
lemma vectorSet_inject_beyond (a : ApicShadow) {vector : UInt32} (h : ¬ vector.toNat / 32 < 8)
    {reg : Fin 8 → Fin (lapicRegsSize / 4)} (hreg : ∀ i, (reg i).val < 160) (v : Nat) :
    vectorSet (apicShadowInjectInterrupt a vector).1 reg v = vectorSet a reg v := by
  have hidx := toNat_regIndex vector
  by_cases hlt : ((0x200 + vector / 32 * 16) / 4 : UInt32).toNat < lapicRegsSize / 4
  · simp only [apicShadowInjectInterrupt, dif_pos hlt]
    refine vectorSet_update_other (fun i e => ?_) _ v
    have he : (reg i).val = ((0x200 + vector / 32 * 16) / 4 : UInt32).toNat := congrArg Fin.val e
    have hi := hreg i
    omega
  · simp only [apicShadowInjectInterrupt, dif_neg hlt]

lemma irr_inject_beyond (a : ApicShadow) {vector : UInt32} (h : ¬ vector.toNat / 32 < 8) (v : Nat) :
    irr (apicShadowInjectInterrupt a vector).1 v = irr a v :=
  vectorSet_inject_beyond a h (by decide) v

/-- An injected vector is requested, beside those that were. -/
lemma irr_inject (a : ApicShadow) (vector : UInt32) (v : Nat) :
    irr (apicShadowInjectInterrupt a vector).1 v =
      (irr a v || decide (v = vector.toNat ∧ v < 256)) := by
  by_cases h : vector.toNat / 32 < 8
  · have hb : (vector % 32).toNat = vector.toNat % 32 := UInt32.toNat_mod ..
    rw [apicShadowInjectInterrupt_vector a h, irr,
      vectorSet_set irrReg_injective _ (by omega), hb]
    congr 2
    exact propext (by dsimp only; omega)
  · rw [irr_inject_beyond a h, decide_eq_false (by omega), Bool.or_false]

/-! ## The next interrupt -/

/-- The registers of IRR are zero when no vector is requested. -/
lemma irr_eq_zero_iff (a : ApicShadow) :
    (∀ i, a.gLapicRegs (irrReg i) = 0) ↔ ∀ v, irr a v = false := by
  constructor
  · intro h v
    unfold irr vectorSet
    split
    · rw [h]
      exact Nat.zero_testBit _
    · rfl
  · intro h i
    apply (eq_zero_iff _).mpr
    intro j
    by_contra hj
    have hj := Bool.eq_true_of_not_eq_false hj
    have hlt := lt_of_testBit hj
    have hi : (i * 32 + j) / 32 = i.val := by omega
    have hv := h (i * 32 + j)
    rw [irr, vectorSet_of_div hi, show (i * 32 + j) % 32 = j by omega, hj] at hv
    cases hv

/-- Nothing is taken when no vector is requested. -/
lemma apicGetPendingInterrupt_none {a : ApicShadow} (h : ∀ v, irr a v = false)
    (asmMsb32 : UInt32 → UInt32) : apicGetPendingInterrupt asmMsb32 a = (a, none) := by
  unfold apicGetPendingInterrupt
  split
  · rfl
  · rename_i i hi
    have := List.find?_some hi
    simp [(irr_eq_zero_iff a).mpr h i] at this

/-- Otherwise a vector moves from IRR to ISR. -/
lemma apicGetPendingInterrupt_some {asmMsb32 : UInt32 → UInt32} (hm : CountsFromTop asmMsb32)
    {a : ApicShadow} (h : ∃ v, irr a v = true) :
    ∃ a' : ApicShadow, ∃ v : UInt32, apicGetPendingInterrupt asmMsb32 a = (a', some v) ∧
      v.toNat < 256 ∧ irr a v.toNat = true ∧
      (∀ w, irr a' w = (irr a w && !decide (w = v.toNat))) ∧
      (∀ w, isr a' w = (isr a w || decide (w = v.toNat))) := by
  unfold apicGetPendingInterrupt
  split
  · -- some register of IRR is not zero
    rename_i hnone
    obtain ⟨v, hv⟩ := h
    have all : ∀ i : Fin 8, i ∈ [7, 6, 5, 4, 3, 2, 1, 0] := by decide
    have zero : ∀ i, a.gLapicRegs (irrReg i) = 0 := fun i => by
      simpa using List.find?_eq_none.mp hnone i (all i)
    rw [(irr_eq_zero_iff a).mp zero v] at hv
    cases hv
  · rename_i i hi
    have hne : a.gLapicRegs (irrReg i) ≠ 0 := by simpa using List.find?_some hi
    generalize hx : a.gLapicRegs (irrReg i) = x at hne
    have hbit := hm x hne
    generalize hb : 31 - asmMsb32 x = b at hbit
    have hset : x.toNat.testBit b.toNat = true := by
      rw [hbit]
      exact Nat.testBit_log2 fun e => hne (UInt32.toNat_inj.mp e)
    have hlt := lt_of_testBit hset
    have hv : (UInt32.ofNat i * 32 + b).toNat = i * 32 + b.toNat := by
      have := i.isLt
      rw [UInt32.toNat_add, UInt32.toNat_mul, UInt32.toNat_ofNat']
      simp only [UInt32.reduceToNat]
      omega
    refine ⟨_, _, rfl, ?_, ?_, fun w => ?_, fun w => ?_⟩
    · omega
    · rw [hv, irr, vectorSet_of_div (i := i) (by omega), hx]
      rwa [show (i * 32 + b.toNat) % 32 = b.toNat by omega]
    · rw [hv, irr, vectorSet_update_other fun j => irrReg_ne_isrReg j i, ← hx,
        vectorSet_clear irrReg_injective i hlt]
      rfl
    · rw [hv, isr, vectorSet_set isrReg_injective i hlt,
        vectorSet_update_other fun j => (irrReg_ne_isrReg i j).symm]
      rfl

end Bemi.Apic
