import Mathlib.Order.Bounds.Basic
import Bemi.Apic.Pending
import Bemi.Lib.Priority

/-!
# The APIC shadow as two sets of vectors

IRR and ISR are eight registers each, sixteen bytes apart, and a vector is a register and a bit of
it. Read so, injection, the next interrupt and end of interrupt are the steps of a controller of
interrupts by priority, and they change no other register.
-/

namespace Bemi.Apic
open Bits Transition

/-! ## The greatest vector of a block -/

section
variable {reg : Fin 8 → Fin (lapicRegsSize / 4)} {regs : Fin (lapicRegsSize / 4) → UInt32}

/-- A vector of a block is a register that is not zero. -/
lemma reg_ne_zero {v : Nat} (h : vectorSet ⟨regs⟩ reg v = true) :
    ∃ i : Fin 8, v / 32 = i ∧ regs (reg i) ≠ 0 := by
  unfold vectorSet at h
  split at h
  · rename_i hlt
    refine ⟨⟨v / 32, hlt⟩, rfl, fun hzero => ?_⟩
    dsimp only at h
    rw [hzero, UInt32.toNat_zero, Nat.zero_testBit] at h
    cases h
  · cases h

lemma vectorSet_empty
    (h : ([7, 6, 5, 4, 3, 2, 1, 0] : List (Fin 8)).find? (fun i => regs (reg i) ≠ 0) = none) :
    {v | vectorSet ⟨regs⟩ reg v = true} = ∅ := by
  have all : ∀ i : Fin 8, i ∈ [7, 6, 5, 4, 3, 2, 1, 0] := by decide
  refine Set.eq_empty_of_forall_notMem fun v hv => ?_
  obtain ⟨i, -, hne⟩ := reg_ne_zero hv
  exact absurd (List.find?_eq_none.mp h i (all i)) (by simpa using hne)

/-- The scan from the top finds the greatest vector. -/
lemma isGreatest_scan {asmMsb32 : UInt32 → UInt32} (hm : CountsFromTop asmMsb32) {i : Fin 8}
    (h : ([7, 6, 5, 4, 3, 2, 1, 0] : List (Fin 8)).find? (fun i => regs (reg i) ≠ 0) = some i) :
    (31 - asmMsb32 (regs (reg i))).toNat < 32 ∧
      IsGreatest {v | vectorSet ⟨regs⟩ reg v = true}
        (i * 32 + (31 - asmMsb32 (regs (reg i))).toNat) := by
  have all : ∀ j : Fin 8, j ∈ [7, 6, 5, 4, 3, 2, 1, 0] := by decide
  have sorted : ([7, 6, 5, 4, 3, 2, 1, 0] : List (Fin 8)).Pairwise (· > ·) := by decide
  obtain ⟨hne, above, below, hsplit, habove⟩ := List.find?_eq_some_iff_append.mp h
  have hne : regs (reg i) ≠ 0 := by simpa using hne
  have hbit := hm _ hne
  have hne' : (regs (reg i)).toNat ≠ 0 := fun e => hne (UInt32.toNat_inj.mp e)
  have hset := Nat.testBit_log2 hne'
  have hlt := lt_of_testBit hset
  rw [hbit]
  refine ⟨hlt, ?_, fun v hv => ?_⟩
  · change vectorSet ⟨regs⟩ reg _ = true
    rw [vectorSet_of_div (i := i) (by omega)]
    rwa [show (i * 32 + (regs (reg i)).toNat.log2) % 32 = (regs (reg i)).toNat.log2 by omega]
  · obtain ⟨j, hj, hjne⟩ := reg_ne_zero hv
    -- no register above the one found holds a vector
    have hji : j.val ≤ i.val := by
      have hmem : j ∈ above ++ i :: below := hsplit ▸ all j
      rcases List.mem_append.mp hmem with hmem | hmem
      · exact absurd (habove j hmem) (by simpa using hjne)
      · rw [hsplit] at sorted
        rcases List.mem_cons.mp hmem with rfl | hmem
        · exact Nat.le_refl _
        · have hgt : i > j := List.rel_of_pairwise_cons (List.pairwise_append.mp sorted).2.1 hmem
          exact Nat.le_of_lt hgt
    rcases Nat.lt_or_eq_of_le hji with hlt' | heq
    · omega
    · obtain rfl := Fin.ext heq
      have hv : vectorSet ⟨regs⟩ reg v = true := hv
      rw [vectorSet_of_div hj] at hv
      have hbelow : v % 32 ≤ (regs (reg j)).toNat.log2 :=
        (Nat.le_log2 hne').mpr (Nat.ge_two_pow_of_testBit hv)
      omega

end

/-! ## The steps -/

/-- The vectors requested and in service. -/
def vectors (a : ApicShadow) : Priority.Sets Nat :=
  ⟨{v | irr a v = true}, {v | isr a v = true}⟩

/-- Injection of a vector, the next interrupt and end of interrupt. -/
inductive VectorStep (asmMsb32 : UInt32 → UInt32) :
    ApicShadow → Priority.Op Nat → Option Nat → ApicShadow → Prop where
  | inject {a} {vector : UInt32} :
    vector.toNat < 256 →
    VectorStep asmMsb32 a (.inject vector.toNat)
      (some (apicShadowInjectInterrupt a vector).2.toNat) (apicShadowInjectInterrupt a vector).1
  | get {a} :
    VectorStep asmMsb32 a .get ((apicGetPendingInterrupt asmMsb32 a).2.map UInt32.toNat)
      (apicGetPendingInterrupt asmMsb32 a).1
  | eoi {a} :
    VectorStep asmMsb32 a .eoi none (apicShadowEoi asmMsb32 a)

/-- A register outside ISR and IRR. -/
def IsOther (r : Fin (lapicRegsSize / 4)) : Prop :=
  ∀ i, r ≠ irrReg i ∧ r ≠ isrReg i

/-- The value of a vector found by a scan. -/
lemma toNat_vector (i : Fin 8) {b : UInt32} (hb : b.toNat < 32) :
    (UInt32.ofNat i * 32 + b).toNat = i * 32 + b.toNat := by
  have hi := i.isLt
  rw [UInt32.toNat_add, UInt32.toNat_mul, UInt32.toNat_ofNat']
  simp only [UInt32.reduceToNat]
  omega

lemma vectors_inject (a : ApicShadow) {vector : UInt32} (h : vector.toNat < 256) :
    (apicShadowInjectInterrupt a vector).2 = vector ∧
      vectors (apicShadowInjectInterrupt a vector).1 =
        { vectors a with requested := insert vector.toNat (vectors a).requested } ∧
      ∀ r, IsOther r → (apicShadowInjectInterrupt a vector).1.gLapicRegs r = a.gLapicRegs r := by
  have hdiv : vector.toNat / 32 < 8 := by omega
  have hidx := toNat_regIndex vector
  have hlt : ((0x200 + vector / 32 * 16) / 4 : UInt32).toNat < lapicRegsSize / 4 := by
    change _ < 256
    omega
  refine ⟨?_, ?_, fun r hr => ?_⟩
  · simp only [apicShadowInjectInterrupt, dif_pos hlt]
  · apply Priority.Sets.ext
    · ext v
      change irr _ v = true ↔ v ∈ insert _ {v | irr a v = true}
      rw [irr_inject, Bool.or_eq_true, decide_eq_true_eq, Set.mem_insert_iff, or_comm]
      refine or_congr (and_iff_left_of_imp fun hv => ?_) Iff.rfl
      omega
    · ext v
      change isr _ v = true ↔ isr a v = true
      rw [apicShadowInjectInterrupt_vector a hdiv, isr,
        vectorSet_update_other fun j => (irrReg_ne_isrReg _ j).symm]
      rfl
  · rw [apicShadowInjectInterrupt_vector a hdiv]
    exact Function.update_of_ne (hr _).1 _ _

/-- The next interrupt is the greatest vector requested. -/
lemma vectors_get {asmMsb32 : UInt32 → UInt32} (hm : CountsFromTop asmMsb32) (a : ApicShadow) :
    Priority.Step (vectors a) .get ((apicGetPendingInterrupt asmMsb32 a).2.map UInt32.toNat)
        (vectors (apicGetPendingInterrupt asmMsb32 a).1) ∧
      ∀ r, IsOther r → (apicGetPendingInterrupt asmMsb32 a).1.gLapicRegs r = a.gLapicRegs r := by
  rw [apicGetPendingInterrupt]
  split
  · rename_i hnone
    exact ⟨.getNone (vectorSet_empty hnone), fun _ _ => rfl⟩
  · rename_i i hi
    obtain ⟨hlt, hmax⟩ := isGreatest_scan hm hi
    generalize 31 - asmMsb32 (a.gLapicRegs (irrReg i)) = b at hlt hmax
    constructor
    · have hsets : vectors ⟨Function.update (Function.update a.gLapicRegs (irrReg i)
            (a.gLapicRegs (irrReg i) &&& ~~~(1 <<< b))) (isrReg i)
            (Function.update a.gLapicRegs (irrReg i)
              (a.gLapicRegs (irrReg i) &&& ~~~(1 <<< b)) (isrReg i) ||| (1 <<< b))⟩ =
          ⟨(vectors a).requested \ {i * 32 + b.toNat},
            insert (i * 32 + b.toNat) (vectors a).inService⟩ := by
        apply Priority.Sets.ext
        · ext v
          change irr _ v = true ↔ irr a v = true ∧ ¬ v = _
          rw [irr, vectorSet_update_other fun j => irrReg_ne_isrReg j i,
            vectorSet_clear irrReg_injective i hlt]
          simp [irr]
        · ext v
          change isr _ v = true ↔ v = _ ∨ isr a v = true
          rw [isr, vectorSet_set isrReg_injective i hlt,
            vectorSet_update_other fun j => (irrReg_ne_isrReg i j).symm]
          simp [isr, or_comm]
      dsimp only
      rw [hsets, Option.map_some, toNat_vector i hlt]
      exact .get hmax
    · intro r hr
      exact (Function.update_of_ne (hr i).2 _ _).trans (Function.update_of_ne (hr i).1 _ _)

/-- An end of interrupt takes the greatest vector out of service. -/
lemma vectors_eoi {asmMsb32 : UInt32 → UInt32} (hm : CountsFromTop asmMsb32) (a : ApicShadow) :
    Priority.Step (vectors a) .eoi none (vectors (apicShadowEoi asmMsb32 a)) ∧
      ∀ r, IsOther r → (apicShadowEoi asmMsb32 a).gLapicRegs r = a.gLapicRegs r := by
  rw [apicShadowEoi]
  split
  · rename_i hnone
    exact ⟨.eoiNone (vectorSet_empty hnone), fun _ _ => rfl⟩
  · rename_i i hi
    obtain ⟨hlt, hmax⟩ := isGreatest_scan hm hi
    generalize 31 - asmMsb32 (a.gLapicRegs (isrReg i)) = b at hlt hmax
    constructor
    · have hsets : vectors ⟨Function.update a.gLapicRegs (isrReg i)
            (a.gLapicRegs (isrReg i) &&& ~~~(1 <<< b))⟩ =
          { vectors a with inService := (vectors a).inService \ {i * 32 + b.toNat} } := by
        apply Priority.Sets.ext
        · ext v
          change irr _ v = true ↔ irr a v = true
          rw [irr, vectorSet_update_other fun j => irrReg_ne_isrReg j i]
          rfl
        · ext v
          change isr _ v = true ↔ isr a v = true ∧ ¬ v = _
          rw [isr, vectorSet_clear isrReg_injective i hlt]
          simp [isr]
      dsimp only
      rw [hsets]
      exact .eoi hmax
    · exact fun r hr => Function.update_of_ne (hr i).2 _ _

/-- Each operation is the step of a controller, and keeps the other registers. -/
lemma vectorStep_sim {asmMsb32 : UInt32 → UInt32} (hm : CountsFromTop asmMsb32)
    {a a' : ApicShadow} {op : Priority.Op Nat} {r : Option Nat}
    (st : VectorStep asmMsb32 a op r a') :
    Priority.Step (vectors a) op r (vectors a') ∧
      ∀ reg, IsOther reg → a'.gLapicRegs reg = a.gLapicRegs reg := by
  cases st with
  | @inject vector h =>
    obtain ⟨hanswer, hsets, hother⟩ := vectors_inject a h
    rw [hanswer, hsets]
    exact ⟨.inject, hother⟩
  | get => exact vectors_get hm a
  | eoi => exact vectors_eoi hm a

/-- The registers from ISR on start as zero. -/
lemma apicShadowInit_reg (apicId : UInt32) {r : Fin (lapicRegsSize / 4)} (h : 0x100 / 4 ≤ r.val) :
    (apicShadowInit apicId).gLapicRegs r = 0 := by
  have hne {k : Nat} (hk : k < lapicRegsSize / 4) (hlt : k < 0x100 / 4) : r ≠ ⟨k, hk⟩ := by
    rintro rfl
    exact absurd h (Nat.not_le_of_lt hlt)
  unfold apicShadowInit
  dsimp only
  rw [Function.update_of_ne (hne _ (by decide)), Function.update_of_ne (hne _ (by decide)),
    Function.update_of_ne (hne _ (by decide))]

lemma vectors_init (apicId : UInt32) :
    vectors (apicShadowInit apicId).toApicShadow = ⟨∅, ∅⟩ := by
  have hblocks : ∀ i : Fin 8, 0x100 / 4 ≤ (irrReg i).val ∧ 0x100 / 4 ≤ (isrReg i).val := by decide
  have hzero (i : Fin 8) : (apicShadowInit apicId).gLapicRegs (irrReg i) = 0 ∧
      (apicShadowInit apicId).gLapicRegs (isrReg i) = 0 :=
    ⟨apicShadowInit_reg apicId (hblocks i).1, apicShadowInit_reg apicId (hblocks i).2⟩
  apply Priority.Sets.ext
  · refine Set.eq_empty_of_forall_notMem fun v hv => ?_
    obtain ⟨i, -, hne⟩ := reg_ne_zero hv
    exact hne (hzero i).1
  · refine Set.eq_empty_of_forall_notMem fun v hv => ?_
    obtain ⟨i, -, hne⟩ := reg_ne_zero hv
    exact hne (hzero i).2

/-- From initialisation on the register file is a controller of interrupts by priority, and its
other registers stay what initialisation made them. -/
theorem apicShadow_refines {asmMsb32 : UInt32 → UInt32} (hm : CountsFromTop asmMsb32)
    (apicId : UInt32) {tr : List (Event ApicShadow (Priority.Op Nat) (Option Nat))}
    {a : ApicShadow}
    (run : Run (VectorStep asmMsb32) (apicShadowInit apicId).toApicShadow tr a) :
    Run Priority.Step ⟨∅, ∅⟩ (tr.map fun ev => ⟨vectors ev.before, ev.op, ev.answer⟩)
        (vectors a) ∧
      ∀ reg, IsOther reg → a.gLapicRegs reg = (apicShadowInit apicId).gLapicRegs reg := by
  constructor
  · have h := run.map vectors fun _ _ _ _ st => (vectorStep_sim hm st).1
    rwa [vectors_init] at h
  · refine run.history (I := fun _ a => ∀ reg, IsOther reg → a.gLapicRegs reg =
      (apicShadowInit apicId).gLapicRegs reg) (fun _ _ => rfl) fun tr s op r s' hs st reg hreg => ?_
    rw [(vectorStep_sim hm st).2 reg hreg, hs reg hreg]

/-- Vectors 33 and 70 are injected, taken in descending order, and one ends. -/
theorem apicShadow_refines_two :
    ∃ tr a, Run (VectorStep leadingZeros) (apicShadowInit 0).toApicShadow tr a ∧
      tr.map Event.answer = [some 33, some 70, some 70, none, some 33, none] ∧
      Run Priority.Step ⟨∅, ∅⟩ (tr.map fun ev => ⟨vectors ev.before, ev.op, ev.answer⟩)
        (vectors a) ∧
      ∀ reg, IsOther reg → a.gLapicRegs reg = (apicShadowInit 0).gLapicRegs reg := by
  have hrun := @Run.nil _ _ _ (VectorStep leadingZeros) (apicShadowInit 0).toApicShadow
    |>.snoc (@VectorStep.inject _ _ 33 (by decide)) |>.snoc (@VectorStep.inject _ _ 70 (by decide))
    |>.snoc .get |>.snoc .eoi |>.snoc .get |>.snoc .get
  exact ⟨_, _, hrun, by decide, apicShadow_refines countsFromTop_leadingZeros 0 hrun⟩

end Bemi.Apic
