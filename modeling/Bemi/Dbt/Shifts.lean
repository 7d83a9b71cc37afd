import Bemi.Dbt.Flags
import Bemi.Lib.Shift

/-!
# Shifts

`ShlRR`, `ShrRR` and `SarRR` by a register against the x86 rules. The count is taken modulo 64 and
the results are right, but the flags are those of a logical operation: written also when the count
is 0, and with CF clear whatever was shifted out.
-/

namespace Bemi.Dbt

inductive ShiftOp where
  | shl | shr | sar
  deriving DecidableEq, Repr

namespace ShiftOp

def code : ShiftOp → MicroOpCode
  | shl => .shlRR
  | shr => .shrRR
  | sar => .sarRR

/-- `a` shifted by `m`. -/
def result (op : ShiftOp) (a : BemiWord) (m : ℕ) : BemiWord :=
  match op with
  | shl => UInt64.ofNat (a.toNat * 2 ^ m)
  | shr => UInt64.ofNat (a.toNat / 2 ^ m)
  | sar => (Int64.ofInt (a.toInt64.toInt / 2 ^ m)).toUInt64

/-- The last of the `m` bits shifted out. -/
def lastOut (op : ShiftOp) (a : BemiWord) (m : ℕ) : Bool :=
  match op with
  | shl => a.toNat.testBit (64 - m)
  | shr | sar => a.toNat.testBit (m - 1)

/-- A shift by 0 is the operand. -/
lemma result_zero (op : ShiftOp) (a : BemiWord) : op.result a 0 = a := by
  cases op with
  | shl =>
    rw [result, pow_zero, mul_one]
    exact UInt64.ofNat_toNat
  | shr =>
    rw [result, pow_zero, Nat.div_one]
    exact UInt64.ofNat_toNat
  | sar =>
    rw [result, pow_zero, Int.ediv_one, Int64.ofInt_toInt]
    rfl

end ShiftOp

variable {M : Type*} (io : Callbacks M)

/-- What the x86 rules ask of a shift. -/
def FollowsX86 (e : Executor M) (op : ShiftOp) (inst : MicroOpInst) (nextIp : Option BemiWord) :
    Prop :=
  let m := (e.read inst.src2).toNat % 64
  let a := e.read inst.src1
  let e' := (executeInst io e { inst with code := op.code } nextIp).1
  (inst.dst ≠ .rNone → e'.read inst.dst = op.result a m) ∧
    if m = 0 then e'.getFlags = e.getFlags
    else
      e'.getFlags.toNat.testBit 6 = decide (op.result a m = 0) ∧
        e'.getFlags.toNat.testBit 7 = topBit (op.result a m) ∧
        e'.getFlags.toNat.testBit 0 = op.lastOut a m

/-- The flags of a logical operation. -/
def logicFlags (result : BemiWord) : BemiWord :=
  flagsWord false (result = 0) (topBit result) false

lemma updateFlagsLogic_eq (rf : RegisterFile) (result : BemiWord) :
    rf.updateFlagsLogic result = rf.setFlags (logicFlags result) := by
  rw [RegisterFile.updateFlagsLogic, logicFlags, ← decide_and_top]
  simp only [flagsWord, decide_eq_true_eq]
  rfl

lemma shl_eq (a n : BemiWord) : a <<< (n &&& 0x3F) = ShiftOp.shl.result a (n.toNat % 64) := by
  apply UInt64.toNat_inj.mp
  rw [UInt64.toNat_shiftLeft, Shift.toNat_and_63, Nat.mod_mod, Nat.shiftLeft_eq, ShiftOp.result,
    UInt64.toNat_ofNat']

lemma shr_eq (a n : BemiWord) : a >>> (n &&& 0x3F) = ShiftOp.shr.result a (n.toNat % 64) := by
  apply UInt64.toNat_inj.mp
  have hlt := Nat.lt_of_le_of_lt (Nat.div_le_self a.toNat (2 ^ (n.toNat % 64))) a.toNat_lt
  rw [UInt64.toNat_shiftRight, Shift.toNat_and_63, Nat.mod_mod, Nat.shiftRight_eq_div_pow,
    ShiftOp.result, UInt64.toNat_ofNat', Nat.mod_eq_of_lt hlt]

lemma sar_eq (a n : BemiWord) :
    (a.toInt64 >>> (n &&& 0x3F).toInt64).toUInt64 = ShiftOp.sar.result a (n.toNat % 64) := by
  have hcount := Shift.toNat_and_63 n
  rw [Shift.toUInt64_shiftRight a (Shift.and_63_lt n), hcount]
  apply UInt64.toBitVec_inj.mp
  have hdiv : a.toInt64.toInt / 2 ^ (n.toNat % 64) =
      (a.toBitVec.sshiftRight (n.toNat % 64)).toInt := by
    rw [BitVec.toInt_sshiftRight, Int.shiftRight_eq_div_pow, Nat.cast_pow]
    rfl
  rw [ShiftOp.result, hdiv]
  exact (BitVec.ofInt_toInt (x := a.toBitVec.sshiftRight (n.toNat % 64))).symm

/-- A shift writes its result and the flags of a logical operation. -/
lemma executeInst_shift (e : Executor M) (op : ShiftOp) (inst : MicroOpInst)
    (nextIp : Option BemiWord) {r : BemiWord}
    (hr : op.result (e.read inst.src1) ((e.read inst.src2).toNat % 64) = r) :
    (executeInst io e { inst with code := op.code } nextIp).1 =
      (e.write inst.dst r).setFlags (logicFlags r) := by
  have hcount := Shift.not_and_63_ge (e.read inst.src2)
  have hexec {r' : BemiWord} (h : r' = r) :
      (e.write inst.dst r').updateFlagsLogic r' = (e.write inst.dst r).setFlags (logicFlags r) := by
    rw [h, Executor.updateFlagsLogic, updateFlagsLogic_eq]
    rfl
  subst hr
  cases op with
  | shl => exact hexec ((if_neg hcount).trans (shl_eq _ _))
  | shr => exact hexec ((if_neg hcount).trans (shr_eq _ _))
  | sar => exact hexec ((congrArg Int64.toUInt64 (if_neg hcount)).trans (sar_eq _ _))

/-! ## Flags -/

lemma logicFlags_bits (r : BemiWord) :
    (logicFlags r).toNat.testBit 6 = decide (r = 0) ∧ (logicFlags r).toNat.testBit 7 = topBit r ∧
      (logicFlags r).toNat.testBit 0 = false := by
  rw [logicFlags]
  cases decide (r = 0) <;> cases topBit r <;> decide

/-- The flags of a logical operation are never the word that they describe. -/
lemma logicFlags_ne (r : BemiWord) : logicFlags r ≠ r := by
  intro h
  rw [logicFlags] at h
  cases hzero : decide (r = 0) with
  | true =>
    rw [of_decide_eq_true hzero] at h
    exact absurd h (by decide)
  | false =>
    cases htop : topBit r with
    | true =>
      rw [hzero, htop] at h
      rw [← h] at htop
      exact absurd htop (by decide)
    | false =>
      rw [hzero, htop] at h
      exact absurd h.symm (of_decide_eq_false hzero)

lemma getFlags_shift (e : Executor M) (dst : Register) (r : BemiWord) :
    ((e.write dst r).setFlags (logicFlags r)).getFlags = logicFlags r :=
  getFlags_setFlags _ _

lemma read_shift (e : Executor M) {dst : Register} (r : BemiWord) (hnone : dst ≠ .rNone)
    (hflags : dst ≠ .rFlags) : ((e.write dst r).setFlags (logicFlags r)).read dst = r :=
  (RegisterFile.read_write_ne _ _ hflags.symm).trans (RegisterFile.read_write_self _ _ hnone)

/-- A shift follows the x86 rules if and only if its destination is not the flags register and,
with a count of 0, the flags are already those of a logical operation on the operand, with any other
count, the last bit shifted out is clear. -/
theorem shift_followsX86_iff (e : Executor M) (op : ShiftOp) (inst : MicroOpInst)
    (nextIp : Option BemiWord) :
    FollowsX86 io e op inst nextIp ↔
      inst.dst ≠ .rFlags ∧
        let m := (e.read inst.src2).toNat % 64
        let a := e.read inst.src1
        if m = 0 then e.getFlags = logicFlags a else op.lastOut a m = false := by
  obtain ⟨a, ha⟩ : ∃ a, e.read inst.src1 = a := ⟨_, rfl⟩
  obtain ⟨m, hm⟩ : ∃ m, (e.read inst.src2).toNat % 64 = m := ⟨_, rfl⟩
  obtain ⟨r, hr⟩ : ∃ r, op.result a m = r := ⟨_, rfl⟩
  have hexec := executeInst_shift io e op inst nextIp ((congrArg₂ op.result ha hm).trans hr)
  obtain ⟨hzf, hsf, hcf⟩ := logicFlags_bits r
  rw [FollowsX86]
  dsimp only
  rw [hexec, ha, hm, hr, getFlags_shift, hzf, hsf, hcf, and_iff_right rfl, and_iff_right rfl,
    @eq_comm _ false]
  apply and_congr
  · constructor
    · intro hdst hflags
      have hread := hdst (by rw [hflags]; decide)
      rw [hflags] at hread
      exact logicFlags_ne r (hread.symm.trans (getFlags_setFlags _ _)).symm
    · intro hflags hnone
      exact read_shift e r hnone hflags
  · by_cases hzero : m = 0
    · rw [if_pos hzero, if_pos hzero, ← hr, hzero, op.result_zero]
      exact eq_comm
    · rw [if_neg hzero, if_neg hzero]

/-- `SHL RAX, RCX` of `2 ^ 63` by 1 leaves CF clear. -/
theorem shift_followsX86_not : ¬ ∀ (e : Executor Unit) (op : ShiftOp) (inst : MicroOpInst),
    FollowsX86 ⟨none, none⟩ e op inst none := by
  intro h
  have hshl := h ⟨(RegisterFile.new.write .rax 0x8000000000000000).write .rcx 1, ()⟩ .shl
    (.new .shlRR .rax .rax .rcx 0)
  exact absurd hshl.2.2.2 (by decide)

end Bemi.Dbt
