import Bemi.Dbt.Flags

/-!
# Compare and branch

`CmpRR` or `SubRR`, and then `JccRel`: the branch is taken exactly when the relation that its
condition code stands for holds of the operands compared. The codes A and B are missing, since the
parity flag is not kept.
-/

namespace Bemi.Dbt

inductive Condition where
  | o | no | b | ae | e | ne | be | a | s | ns | l | ge | le | g
  deriving DecidableEq, Repr

namespace Condition

/-- The code that `JccRel` carries in `src2`. -/
def code : Condition → UInt8
  | o => 0x0 | no => 0x1 | b => 0x2 | ae => 0x3 | e => 0x4 | ne => 0x5 | be => 0x6 | a => 0x7
  | s => 0x8 | ns => 0x9 | l => 0xC | ge => 0xD | le => 0xE | g => 0xF

/-- The other condition of a pair of codes. -/
def other : Condition → Condition
  | o => no | no => o | b => ae | ae => b | e => ne | ne => e | be => a | a => be
  | s => ns | ns => s | l => ge | ge => l | le => g | g => le

/-- The relation of the operands `x` and `y` that a condition stands for. -/
def Relation (x y : BemiWord) : Condition → Prop
  | o => ¬ SubFits x y
  | no => SubFits x y
  | b => x < y
  | ae => x ≥ y
  | e => x = y
  | ne => x ≠ y
  | be => x ≤ y
  | a => x > y
  | s => topBit (x - y) = true
  | ns => topBit (x - y) = false
  | l => x.toInt64 < y.toInt64
  | ge => x.toInt64 ≥ y.toInt64
  | le => x.toInt64 ≤ y.toInt64
  | g => x.toInt64 > y.toInt64

instance (x y : BemiWord) : DecidablePred (Relation x y)
  | o => inferInstanceAs (Decidable (¬ _))
  | no => inferInstanceAs (Decidable (SubFits x y))
  | b | a => inferInstanceAs (Decidable (_ < _))
  | ae | be => inferInstanceAs (Decidable (_ ≤ _))
  | e | s | ns => inferInstanceAs (Decidable (_ = _))
  | ne => inferInstanceAs (Decidable (_ ≠ _))
  | l | g => inferInstanceAs (Decidable (_ < _))
  | ge | le => inferInstanceAs (Decidable (_ ≤ _))

/-- Of the two conditions of a pair exactly one holds. -/
lemma relation_other (x y : BemiWord) (c : Condition) : c.other.Relation x y ↔ ¬ c.Relation x y := by
  cases c with
  | o | ne => exact not_not.symm
  | no | e => exact Iff.rfl
  | b | a => exact UInt64.not_lt.symm
  | ae | be => exact UInt64.not_le.symm
  | s => exact (Bool.not_eq_true _).symm.to_iff
  | ns => exact (Bool.not_eq_false _).symm.to_iff
  | l | g => exact Int64.not_lt.symm
  | ge | le => exact Int64.not_le.symm

/-- Flags with the meaning that a subtraction gives them decide the relation. -/
lemma conditionHolds_iff {cf zf sf of : Bool} {x y : BemiWord} (hcf : cf = true ↔ x < y)
    (hzf : zf = true ↔ x = y) (hsf : sf = topBit (x - y)) (hof : of = true ↔ ¬ SubFits x y)
    (hsign : sf ≠ of ↔ x.toInt64 < y.toInt64) (c : Condition) :
    conditionHolds cf zf sf of c.code.toNat = true ↔ c.Relation x y := by
  have not {p : Bool} {P : Prop} (h : p = true ↔ P) : (!p) = true ↔ ¬ P := by
    rw [Bool.not_eq_true', ← Bool.not_eq_true, h]
  have hbe : (cf || zf) = true ↔ x ≤ y := by
    rw [Bool.or_eq_true, hcf, hzf, UInt64.le_iff_lt_or_eq]
  have hlt : (sf != of) = true ↔ x.toInt64 < y.toInt64 := bne_iff_ne.trans hsign
  have heq : x = y ↔ x.toInt64 = y.toInt64 :=
    ⟨congrArg UInt64.toInt64, fun h => congrArg Int64.toUInt64 h⟩
  have hle : (zf || sf != of) = true ↔ x.toInt64 ≤ y.toInt64 := by
    rw [Bool.or_eq_true, hzf, hlt, Int64.le_iff_lt_or_eq, or_comm, heq]
  have hbeq : (sf == of) = !(sf != of) := (Bool.not_not _).symm
  cases c with
  | o => exact hof
  | no => exact (not hof).trans not_not
  | b => exact hcf
  | ae => exact (not hcf).trans UInt64.not_lt
  | e => exact hzf
  | ne => exact not hzf
  | be => exact hbe
  | a =>
    change (!cf && !zf) = true ↔ _
    rw [← Bool.not_or]
    exact (not hbe).trans UInt64.not_le
  | s => exact hsf ▸ Iff.rfl
  | ns =>
    change (!sf) = true ↔ topBit (x - y) = false
    rw [Bool.not_eq_true', hsf]
  | l => exact hlt
  | ge =>
    change (sf == of) = true ↔ _
    rw [hbeq]
    exact (not hlt).trans Int64.not_lt
  | le => exact hle
  | g =>
    change (!zf && sf == of) = true ↔ _
    rw [hbeq, ← Bool.not_or]
    exact (not hle).trans Int64.not_le

end Condition

/-- The flags that a comparison or a subtraction leaves. -/
lemma getFlags_compare {M : Type*} (io : Callbacks M) (e : Executor M) {cmp : MicroOpInst}
    (hcmp : cmp.code = .cmpRR ∨ cmp.code = .subRR) (nextIp : Option BemiWord) :
    let x := e.read cmp.src1
    let y := e.read cmp.src2
    (executeInst io e cmp nextIp).1.getFlags =
      flagsWord (carryOf x y true) (x - y = 0) (topBit (x - y))
        (overflowOf (x - y) x y true ≠ 0) := by
  dsimp only
  rw [← decide_and_top]
  obtain hcode | hcode := hcmp
  all_goals
    rw [executeInst, hcode]
    exact getFlags_updateFlagsArith ..

/-- After a comparison `JccRel` tests the relation of the operands. -/
lemma jccTaken_compare {M : Type*} (io : Callbacks M) (e : Executor M) {cmp : MicroOpInst}
    (hcmp : cmp.code = .cmpRR ∨ cmp.code = .subRR) (nextIp : Option BemiWord) (c : Condition) :
    jccTaken (executeInst io e cmp nextIp).1.getFlags c.code = true ↔
      c.Relation (e.read cmp.src1) (e.read cmp.src2) := by
  rw [getFlags_compare io e hcmp, jccTaken_flagsWord]
  apply Condition.conditionHolds_iff
  · exact carryOf_sub _ _
  · rw [decide_eq_true_eq]
    exact sub_eq_zero_iff _ _
  · rfl
  · rw [decide_eq_true_eq]
    exact overflowOf_sub _ _
  · exact sign_ne_overflow_iff _ _

/-- `JccRel` by whether its condition holds. -/
lemma executeInst_jccRel {M : Type*} (io : Callbacks M) (e : Executor M) {jcc : MicroOpInst}
    (hjcc : jcc.code = .jccRel) (nextIp : Option BemiWord) {P : Prop} [Decidable P]
    (h : jccTaken e.getFlags jcc.src2.toU8 = true ↔ P) :
    executeInst io e jcc nextIp =
      (e, .ok (if P then some (e.read .rax + jcc.immediate) else nextIp)) := by
  unfold executeInst
  rw [hjcc]
  by_cases hP : P
  · rw [if_pos hP]
    exact if_pos (h.mpr hP)
  · rw [if_neg hP]
    exact if_neg (mt h.mp hP)

/-- After a comparison of `x` and `y`, `JccRel` sets `next_ip` exactly when the relation of its
condition holds of `x` and `y`, and with the other code of the pair exactly when it does not. -/
theorem compareBranch {M : Type*} (io : Callbacks M) (e : Executor M) {cmp jcc jcc' : MicroOpInst}
    (hcmp : cmp.code = .cmpRR ∨ cmp.code = .subRR) (hjcc : jcc.code = .jccRel)
    (hjcc' : jcc'.code = .jccRel) {c : Condition} (hc : jcc.src2.toU8 = c.code)
    (hc' : jcc'.src2.toU8 = c.other.code) (nextIp : Option BemiWord) :
    let e₁ := (executeInst io e cmp nextIp).1
    let holds := c.Relation (e.read cmp.src1) (e.read cmp.src2)
    executeInst io e₁ jcc nextIp =
        (e₁, .ok (if holds then some (e₁.read .rax + jcc.immediate) else nextIp)) ∧
      executeInst io e₁ jcc' nextIp =
        (e₁, .ok (if ¬ holds then some (e₁.read .rax + jcc'.immediate) else nextIp)) := by
  constructor
  · apply executeInst_jccRel io _ hjcc
    rw [hc]
    exact jccTaken_compare io e hcmp nextIp c
  · apply executeInst_jccRel io _ hjcc'
    rw [hc', jccTaken_compare io e hcmp nextIp]
    exact Condition.relation_other _ _ c

/-- A comparison of RBX and RCX, and then `JL` and `JGE`: -1 is less than 1. -/
theorem compareBranch_less :
    let e : Executor Unit := ⟨(RegisterFile.new.write .rbx (0 - 1)).write .rcx 1, ()⟩
    let e₁ := (executeInst ⟨none, none⟩ e (.new .cmpRR .rNone .rbx .rcx 0) none).1
    executeInst ⟨none, none⟩ e₁ (.new .jccRel .rNone .rNone .r12 0x10) none =
        (e₁, .ok (some 0x10)) ∧
      executeInst ⟨none, none⟩ e₁ (.new .jccRel .rNone .rNone .r13 0x10) none = (e₁, .ok none) :=
  compareBranch (c := .l) ⟨none, none⟩ _ (.inl rfl) rfl rfl rfl rfl none

end Bemi.Dbt
