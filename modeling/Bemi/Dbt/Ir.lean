import Mathlib.Data.List.Basic
import Bemi.Lib.Filling

/-!
# Micro-op IR

Model of `dbt/ir.rs`: registers, micro-ops and the `TranslationBlock`, a fixed array of 256
micro-ops of which the first `microOpCount` are active. The bound on the count is a field of the
structure; `push` and `remove` keep it. `TranslationBlock.active` is the list of active micro-ops,
and the lemmas `active_push` and `active_remove` read the two array operations on it.
-/

namespace Bemi.Dbt

abbrev BemiWord := UInt64

def maxMicroOpsPerBlock : Nat := 256

inductive Register where
  | rax | rcx | rdx | rbx | rsp | rbp | rsi | rdi
  | r8 | r9 | r10 | r11 | r12 | r13 | r14 | r15
  | rTmp0 | rTmp1 | rTmp2 | rTmp3 | rTmp4 | rTmp5 | rTmp6 | rTmp7
  | rTmp8 | rTmp9 | rTmpA | rTmpB | rTmpC | rTmpD | rTmpE | rTmpF
  | rFlags
  | rNone
  deriving DecidableEq, Repr

/-- The discriminant of a register (`reg as u8`). -/
def Register.toU8 : Register → UInt8
  | .rax => 0 | .rcx => 1 | .rdx => 2 | .rbx => 3
  | .rsp => 4 | .rbp => 5 | .rsi => 6 | .rdi => 7
  | .r8 => 8 | .r9 => 9 | .r10 => 10 | .r11 => 11
  | .r12 => 12 | .r13 => 13 | .r14 => 14 | .r15 => 15
  | .rTmp0 => 16 | .rTmp1 => 17 | .rTmp2 => 18 | .rTmp3 => 19
  | .rTmp4 => 20 | .rTmp5 => 21 | .rTmp6 => 22 | .rTmp7 => 23
  | .rTmp8 => 24 | .rTmp9 => 25 | .rTmpA => 26 | .rTmpB => 27
  | .rTmpC => 28 | .rTmpD => 29 | .rTmpE => 30 | .rTmpF => 31
  | .rFlags => 32
  | .rNone => 0xFF

/-- The register with a given discriminant (`from_u8`). -/
def Register.fromU8 (v : UInt8) : Register :=
  match v.toNat with
  | 0 => .rax | 1 => .rcx | 2 => .rdx | 3 => .rbx
  | 4 => .rsp | 5 => .rbp | 6 => .rsi | 7 => .rdi
  | 8 => .r8 | 9 => .r9 | 10 => .r10 | 11 => .r11
  | 12 => .r12 | 13 => .r13 | 14 => .r14 | 15 => .r15
  | 16 => .rTmp0 | 17 => .rTmp1 | 18 => .rTmp2 | 19 => .rTmp3
  | 20 => .rTmp4 | 21 => .rTmp5 | 22 => .rTmp6 | 23 => .rTmp7
  | 24 => .rTmp8 | 25 => .rTmp9 | 26 => .rTmpA | 27 => .rTmpB
  | 28 => .rTmpC | 29 => .rTmpD | 30 => .rTmpE | 31 => .rTmpF
  | 32 => .rFlags
  | _ => .rNone

lemma Register.fromU8_toU8 (r : Register) : Register.fromU8 r.toU8 = r := by
  cases r <;> rfl

lemma Register.toU8_injective : Function.Injective Register.toU8 :=
  Function.LeftInverse.injective Register.fromU8_toU8

/-- Every register but `RNone` indexes the register file. -/
lemma Register.toNat_lt {r : Register} (h : r ≠ .rNone) : r.toU8.toNat < 33 := by
  cases r <;> first | decide | exact absurd rfl h

inductive MicroOpCode where
  | nop
  | movRR | movRI | movRM | movMR | movMI
  | addRR | addRI | subRR | subRI
  | adcRR | sbbRR
  | mulRR | mulRI | divRR | idivRR
  | imulRR | imulRI
  | cmpRR | cmpRI
  | jmpRel | jmpAbs | jccRel
  | callRel | callAbs | ret
  | pushR | popR
  | loadRR | storeRR
  | andRR | orRR | xorRR
  | shlRR | shrRR | sarRR
  | notR | negR | incR | decR
  | leaRR
  | movsxRR | movzxRR
  | cmovcc | setcc
  | cdq | cqo
  | cpuid | rdmsr | wrmsr
  | hlt | cli | sti
  | invlpg | mfence
  | xsave | xrstor | wbinvd
  | syscall | sysret
  | intVec | iret
  | movsxd
  | traceExit
  | macroOpFused | macroOpPassthrough
  | testRR | testRI
  | bsfRR | bsrRR
  | popcntRR
  | rolRI | rorRI | rclRI | rcrRI
  | btRI | btrRI | btsRI | btcRI
  | cmpxchgRR
  | xaddRR
  | xchgRR
  deriving DecidableEq, Repr

structure MicroOpInst where
  code : MicroOpCode
  dst : Register
  src1 : Register
  src2 : Register
  immediate : BemiWord
  operandSize : UInt8
  deriving DecidableEq, Repr

/-- `MicroOpInst::new`: the operand size defaults to 8 bytes. -/
def MicroOpInst.new (code : MicroOpCode) (dst src1 src2 : Register) (imm : BemiWord) :
    MicroOpInst :=
  { code, dst, src1, src2, immediate := imm, operandSize := 8 }

def MicroOpInst.withSize (self : MicroOpInst) (size : UInt8) : MicroOpInst :=
  { self with operandSize := size }

/-- A block of micro-ops. `count_le` is the bound that `push` checks. -/
structure TranslationBlock where
  guestIp : UInt64
  guestSize : UInt32
  instructionCount : UInt32
  microOpCount : Nat
  microOps : Vector MicroOpInst maxMicroOpsPerBlock
  translationValid : Bool
  count_le : microOpCount ≤ maxMicroOpsPerBlock

namespace TranslationBlock

def new (guestIp : UInt64) : TranslationBlock where
  guestIp := guestIp
  guestSize := 0
  instructionCount := 0
  microOpCount := 0
  microOps := Vector.replicate maxMicroOpsPerBlock (MicroOpInst.new .nop .rNone .rNone .rNone 0)
  translationValid := true
  count_le := Nat.zero_le _

/-- Append a micro-op unless the block is full (`push`); the flag tells whether it fitted. -/
def push (self : TranslationBlock) (inst : MicroOpInst) : TranslationBlock × Bool :=
  if h : self.microOpCount < maxMicroOpsPerBlock then
    ({ self with
        microOps := self.microOps.set self.microOpCount inst
        microOpCount := self.microOpCount + 1
        count_le := h }, true)
  else
    (self, false)

/-- The micro-op at an active index (`micro_ops[i]`). -/
def uop (self : TranslationBlock) (i : Nat) (h : i < self.microOpCount) : MicroOpInst :=
  have := self.count_le
  self.microOps[i]

/-- The shifting loop of `remove`: `micro_ops[j] = micro_ops[j + 1]` for `k` indices from `index`. -/
def shiftDown (ops : Vector MicroOpInst maxMicroOpsPerBlock) (index : Nat) :
    Nat → Vector MicroOpInst maxMicroOpsPerBlock
  | 0 => ops
  | k + 1 =>
    let ops := shiftDown ops index k
    if h : index + k + 1 < maxMicroOpsPerBlock then
      ops.set (index + k) ops[index + k + 1]
    else ops

/-- Delete the micro-op at `index` (`remove`); indices past the active ones are ignored. -/
def remove (self : TranslationBlock) (index : Nat) : TranslationBlock :=
  if index < self.microOpCount then
    { self with
      microOps := shiftDown self.microOps index (self.microOpCount - 1 - index)
      microOpCount := self.microOpCount - 1
      count_le := Nat.le_trans (Nat.sub_le _ _) self.count_le }
  else self

/-- The active micro-ops, `micro_ops[0..micro_op_count]`. -/
def active (self : TranslationBlock) : List MicroOpInst :=
  self.microOps.toList.take self.microOpCount

@[simp] lemma length_active (tb : TranslationBlock) : tb.active.length = tb.microOpCount := by
  simp [active, Nat.min_eq_left tb.count_le]

@[simp] lemma active_new (ip : UInt64) : (new ip).active = [] := rfl

@[simp] lemma take_active (tb : TranslationBlock) :
    tb.active.take maxMicroOpsPerBlock = tb.active :=
  List.take_of_length_le (by rw [length_active]; exact tb.count_le)

lemma active_get (tb : TranslationBlock) (i : Nat) (h : i < tb.microOpCount) :
    tb.active[i]? = some (tb.uop i h) := by
  have hi : i < maxMicroOpsPerBlock := Nat.lt_of_lt_of_le h tb.count_le
  simp [active, uop, h, hi]

/-- The active micro-ops from an active index on. -/
lemma active_drop (tb : TranslationBlock) (i : Nat) (h : i < tb.microOpCount) :
    tb.active.drop i = tb.uop i h :: tb.active.drop (i + 1) := by
  have hi : i < tb.active.length := by simpa using h
  have hget := tb.active_get i h
  rw [List.getElem?_eq_getElem hi] at hget
  rw [List.drop_eq_getElem_cons hi, Option.some.inj hget]

/-- The micro-op at an index, read off a split of the active ones. -/
lemma uop_of_active {tb : TranslationBlock} {pre post : List MicroOpInst} {x : MicroOpInst}
    (h : tb.active = pre ++ x :: post) (hi : pre.length < tb.microOpCount) :
    tb.uop pre.length hi = x := by
  have hget := tb.active_get pre.length hi
  rw [h] at hget
  simpa using hget.symm

/-- `push` appends to the active micro-ops of a block that is not full. -/
lemma active_push (tb : TranslationBlock) (inst : MicroOpInst)
    (h : tb.microOpCount < maxMicroOpsPerBlock) :
    (tb.push inst).1.active = tb.active ++ [inst] := by
  simp only [push, dif_pos h, active, Filling.take_set]

/-- A full block is left as it is. -/
lemma push_full (tb : TranslationBlock) (inst : MicroOpInst)
    (h : ¬ tb.microOpCount < maxMicroOpsPerBlock) : tb.push inst = (tb, false) := by
  simp [push, h]

/-- What the shifting loop leaves at each index. -/
lemma shiftDown_get (ops : Vector MicroOpInst maxMicroOpsPerBlock) (index k i : Nat)
    (hk : index + k < maxMicroOpsPerBlock) :
    (shiftDown ops index k).toList[i]? =
      if index ≤ i ∧ i < index + k then ops.toList[i + 1]? else ops.toList[i]? := by
  induction k generalizing i with
  | zero =>
    have : ¬ (index ≤ i ∧ i < index + 0) := by omega
    rw [if_neg this, shiftDown]
  | succ k ih =>
    have hk' : index + k + 1 < maxMicroOpsPerBlock := by omega
    have hnext : (shiftDown ops index k)[index + k + 1] = ops[index + k + 1] := by
      have := ih (index + k + 1) (by omega)
      rw [if_neg (by omega)] at this
      simpa [hk'] using this
    rw [shiftDown]
    simp only [dif_pos hk', Vector.toList_set, List.getElem?_set, Vector.length_toList, hnext]
    rcases Nat.lt_trichotomy i (index + k) with hi | rfl | hi
    · rw [if_neg (by omega), ih i (by omega)]
      simp only [hi, show i < index + (k + 1) by omega]
    · rw [if_pos rfl, if_pos (by omega), if_pos (by omega)]
      simp [hk']
    · rw [if_neg (by omega), ih i (by omega), if_neg (by omega), if_neg (by omega)]

/-- `remove` erases one active micro-op. -/
lemma active_remove (tb : TranslationBlock) (index : Nat) :
    (tb.remove index).active = tb.active.eraseIdx index := by
  by_cases h : index < tb.microOpCount
  · have hle := tb.count_le
    apply List.ext_getElem?
    intro i
    simp only [remove, if_pos h, active, List.getElem?_take, List.getElem?_eraseIdx]
    rw [shiftDown_get _ _ _ _ (by omega)]
    by_cases hi : i < index
    · simp [hi, show i < tb.microOpCount - 1 by omega, show i < tb.microOpCount by omega,
        show ¬ index ≤ i by omega]
    · rw [if_neg hi]
      by_cases hi' : i < tb.microOpCount - 1
      · simp [hi', show i + 1 < tb.microOpCount by omega, show index ≤ i by omega,
          show i < index + (tb.microOpCount - 1 - index) by omega]
      · simp [hi', show ¬ i + 1 < tb.microOpCount by omega]
  · rw [List.eraseIdx_of_length_le (by simpa using h), remove, if_neg h]

/-- `remove`, read off a split of the active micro-ops. -/
lemma active_remove_split {tb : TranslationBlock} {pre post : List MicroOpInst} {x : MicroOpInst}
    (h : tb.active = pre ++ x :: post) : (tb.remove pre.length).active = pre ++ post := by
  rw [active_remove, h, List.eraseIdx_append_of_length_le (Nat.le_refl _)]
  simp

@[simp] lemma microOpCount_remove (tb : TranslationBlock) (index : Nat)
    (h : index < tb.microOpCount) : (tb.remove index).microOpCount = tb.microOpCount - 1 := by
  simp [remove, h]

end TranslationBlock

end Bemi.Dbt
