import Bemi.Dbt.Operand
import Bemi.Lib.Shift

/-!
# Integer instructions on 64-bit registers

What the translation of `ADD`, `SUB`, `CMP`, the logic instructions, the shifts and the rotates
leaves in a 64-bit destination, against x86. `translate_binary` is given the register opcode for the
immediate form of the logic instructions and the shifts, and a rotate always becomes a rotate by
`immediate64()`: the operand is lost. `translate_integer_iff` says when nobody notices.
-/

namespace Bemi.Dbt
open Machine Parts Shift

/-! ## What x86 says -/

def isShiftOrRotate : Mnemonic → Bool
  | .shl | .sal | .shr | .sar | .rol | .ror => true
  | _ => false

def isInteger : Mnemonic → Bool
  | .add | .sub | .cmp | .and | .or | .xor => true
  | m => isShiftOrRotate m

/-- The destination after a 64-bit instruction on `a` and `b`. -/
def x86Integer (m : Mnemonic) (a b : UInt64) : UInt64 :=
  match m with
  | .add => a + b
  | .sub => a - b
  | .and => a &&& b
  | .or => a ||| b
  | .xor => a ^^^ b
  | .shl | .sal => a <<< (b &&& 63)
  | .shr => a >>> (b &&& 63)
  | .sar => sar a (b &&& 63).toNat
  | .rol => ⟨a.toBitVec.rotateLeft (b &&& 63).toNat⟩
  | .ror => ⟨a.toBitVec.rotateRight (b &&& 63).toNat⟩
  | _ => a

/-- The second operand is a 64-bit register, `CL` for shifts and rotates, or an immediate. -/
def SecondOperand (inst : Instruction) : Prop :=
  isImm inst.op1Kind = true ∨ inst.op1Kind = .register ∧
    if isShiftOrRotate inst.mnemonic then inst.op1Register = .cl
    else ∃ src, inst.op1Register.view = some (src, .full)

/-- An integer instruction with a 64-bit destination register. -/
structure IntegerInst (inst : Instruction) (dst : Register) : Prop where
  mnemonic : isInteger inst.mnemonic = true
  dstKind : inst.op0Kind = .register
  dstView : inst.op0Register.view = some (dst, .full)
  second : SecondOperand inst

variable {M : Type*}

/-- The value of the second operand. -/
def secondValue (inst : Instruction) (e : Executor M) : UInt64 :=
  if isImm inst.op1Kind then inst.immediate64
  else if inst.op1Register = .cl then e.read .rcx &&& 0xFF
  else e.read (mapRegister inst.op1Register)

/-! ## What the translation computes -/

/-- The operand that the micro-op works with. -/
def usedValue (inst : Instruction) (e : Executor M) : UInt64 :=
  match inst.mnemonic with
  | .rol | .ror => inst.immediate64
  | .add | .sub | .cmp =>
    if isImm inst.op1Kind then inst.immediate64 else e.read (mapRegister inst.op1Register)
  | _ => if isImm inst.op1Kind then 0 else e.read (mapRegister inst.op1Register)

/-- The opcode of the register form. -/
def rrCode : Mnemonic → MicroOpCode
  | .add => .addRR
  | .sub => .subRR
  | .cmp => .cmpRR
  | .and => .andRR
  | .or => .orRR
  | .xor => .xorRR
  | .shl | .sal => .shlRR
  | .shr => .shrRR
  | .sar => .sarRR
  | _ => .nop

/-- The opcode given for the immediate form. -/
def riCode : Mnemonic → MicroOpCode
  | .add => .addRI
  | .sub => .subRI
  | .cmp => .cmpRI
  | m => rrCode m

variable (io : Callbacks M)

lemma executeInst_rr (e : Executor M) {dst : Register} (src : Register) (imm : BemiWord)
    (hdst : dst.isGeneral = true) {m : Mnemonic} (hm : isInteger m = true) (hrol : m ≠ .rol)
    (hror : m ≠ .ror) :
    OnlyWrites e (executeInst io e ((MicroOpInst.new (rrCode m) dst dst src imm).withSize 8) none).1
      dst (x86Integer m (e.read dst) (e.read src)) := by
  have hsmall := not_and_63_ge (e.read src)
  cases m with
  | add | sub | and | or | xor => exact (onlyWrites_write e _ hdst).setFlags hdst _
  | cmp => exact (onlyWrites_refl e dst).setFlags hdst _
  | shl | sal =>
    have hval : (if e.read src &&& 0x3F ≥ 64 then 0 else e.read dst <<< (e.read src &&& 0x3F)) =
        x86Integer .shl (e.read dst) (e.read src) := if_neg hsmall
    exact hval ▸ (onlyWrites_write e _ hdst).setFlags hdst _
  | shr =>
    have hval : (if e.read src &&& 0x3F ≥ 64 then 0 else e.read dst >>> (e.read src &&& 0x3F)) =
        x86Integer .shr (e.read dst) (e.read src) := if_neg hsmall
    exact hval ▸ (onlyWrites_write e _ hdst).setFlags hdst _
  | sar =>
    have hval : (if e.read src &&& 0x3F ≥ 64 then (if (e.read dst).toInt64 < 0 then -1 else 0)
        else (e.read dst).toInt64 >>> (e.read src &&& 0x3F).toInt64).toUInt64 =
        x86Integer .sar (e.read dst) (e.read src) := by
      rw [if_neg hsmall]
      exact toUInt64_shiftRight _ (and_63_lt _)
    exact hval ▸ (onlyWrites_write e _ hdst).setFlags hdst _
  | rol => exact absurd rfl hrol
  | ror => exact absurd rfl hror
  | _ => cases hm

/-- The micro-op of a `translate_binary` instruction, by the kind of its second operand. -/
lemma translateBinary_eq {inst : Instruction} {dst : Register} (h : IntegerInst inst dst)
    (rr ri : MicroOpCode) :
    translateBinary inst rr ri =
      if isImm inst.op1Kind then
        [(MicroOpInst.new ri dst dst .rNone inst.immediate64).withSize 8]
      else [(MicroOpInst.new rr dst dst (mapRegister inst.op1Register) 0).withSize 8] := by
  have hmap := (view_spec h.dstView).1
  cases himm : isImm inst.op1Kind with
  | true =>
    have hne : inst.op1Kind ≠ .register := fun heq => by simp [heq, isImm] at himm
    simp [translateBinary, h.dstKind, hne, himm, hmap]
  | false =>
    obtain htrue | ⟨hreg, -⟩ := h.second
    · rw [himm] at htrue
      cases htrue
    · simp [translateBinary, h.dstKind, hreg, hmap]

lemma uopsOf_integer {inst : Instruction} (hm : isInteger inst.mnemonic = true)
    (hrol : inst.mnemonic ≠ .rol) (hror : inst.mnemonic ≠ .ror) :
    uopsOf inst = translateBinary inst (rrCode inst.mnemonic) (riCode inst.mnemonic) := by
  revert hm hrol hror
  unfold uopsOf translateInstruction
  cases inst.mnemonic <;> intro hm hrol hror <;>
    first | rfl | exact absurd rfl hrol | exact absurd rfl hror | cases hm

/-- A rotate is one micro-op on its destination, which carries `immediate64()`. -/
lemma runUops_rotate {inst : Instruction} {dst : Register} (h : IntegerInst inst dst)
    (e : Executor M) (hrot : inst.mnemonic = .rol ∨ inst.mnemonic = .ror) :
    OnlyWrites e (runUops io (uopsOf inst) e).1 dst
      (x86Integer inst.mnemonic (e.read dst) (usedValue inst e)) := by
  obtain ⟨hmap, hdst⟩ := view_spec h.dstView
  have huops : uopsOf inst = [(MicroOpInst.new (if inst.mnemonic = .rol then .rolRI else .rorRI)
      dst dst .rNone inst.immediate64).withSize 8] := by
    obtain hm | hm := hrot <;> simp [uopsOf, translateInstruction, hm, hmap]
  rw [huops, runUops_singleton, usedValue]
  obtain hm | hm := hrot
  all_goals
    rw [hm]
    exact onlyWrites_write e _ hdst

/-- The immediate form computes with the immediate or, where its opcode is the register form's, with
the absent register. -/
lemma executeInst_ri (e : Executor M) {dst : Register} (imm : BemiWord)
    (hdst : dst.isGeneral = true) {m : Mnemonic} (hm : isInteger m = true) (hrol : m ≠ .rol)
    (hror : m ≠ .ror) :
    OnlyWrites e
      (executeInst io e ((MicroOpInst.new (riCode m) dst dst .rNone imm).withSize 8) none).1 dst
      (x86Integer m (e.read dst) (if m = .add ∨ m = .sub ∨ m = .cmp then imm else 0)) := by
  have hrr := executeInst_rr io e .rNone imm hdst hm hrol hror
  cases m with
  | add | sub => exact (onlyWrites_write e _ hdst).setFlags hdst _
  | cmp => exact (onlyWrites_refl e dst).setFlags hdst _
  | _ => exact hrr

/-- The translation leaves the x86 result for the operand that it works with. -/
lemma runUops_integer {inst : Instruction} {dst : Register} (h : IntegerInst inst dst)
    (e : Executor M) :
    OnlyWrites e (runUops io (uopsOf inst) e).1 dst
      (x86Integer inst.mnemonic (e.read dst) (usedValue inst e)) := by
  by_cases hrot : inst.mnemonic = .rol ∨ inst.mnemonic = .ror
  · exact runUops_rotate io h e hrot
  obtain ⟨hrol, hror⟩ := not_or.mp hrot
  have hdst := (view_spec h.dstView).2
  have hm := h.mnemonic
  rw [uopsOf_integer hm hrol hror, translateBinary_eq h, usedValue]
  cases himm : isImm inst.op1Kind with
  | false =>
    have hrr := executeInst_rr io e (mapRegister inst.op1Register) 0 hdst hm hrol hror
    rw [if_neg (by simp), runUops_singleton]
    revert hrr hrol hror
    cases inst.mnemonic with
    | rol => exact fun hrol => absurd rfl hrol
    | ror => exact fun _ hror => absurd rfl hror
    | _ => exact fun _ _ hrr => hrr
  | true =>
    have hri := executeInst_ri io e inst.immediate64 hdst hm hrol hror
    rw [if_pos rfl, runUops_singleton]
    revert hri hrol hror
    cases inst.mnemonic with
    | rol => exact fun hrol => absurd rfl hrol
    | ror => exact fun _ hror => absurd rfl hror
    | _ => exact fun _ _ hri => hri

/-! ## When the operand is not missed -/

/-- The operand used makes no difference. An immediate is lost by the logic instructions and the
shifts, which go on with 0; a rotate takes `immediate64()` for `CL`. -/
def OperandHonoured (inst : Instruction) (dst : Register) (e : Executor M) : Prop :=
  let a := e.read dst
  let imm := inst.immediate64
  match inst.mnemonic, isImm inst.op1Kind with
  | .and, true => a &&& imm = 0
  | .or, true => a ||| imm = a
  | .xor, true => imm = 0
  | .shl, true | .sal, true | .shr, true => imm &&& 63 = 0 ∨ a = 0
  | .sar, true => imm &&& 63 = 0 ∨ a = 0 ∨ a = -1
  | .rol, false =>
    a.toBitVec.rotateLeft (imm &&& 63).toNat = a.toBitVec.rotateLeft (e.read .rcx &&& 63).toNat
  | .ror, false =>
    a.toBitVec.rotateRight (imm &&& 63).toNat = a.toBitVec.rotateRight (e.read .rcx &&& 63).toNat
  | _, _ => True

/-- An immediate is used as it is, or it is 0 that is used. -/
lemma x86Integer_immediate_iff {inst : Instruction} {dst : Register}
    (hm : isInteger inst.mnemonic = true) (himm : isImm inst.op1Kind = true) (e : Executor M) :
    x86Integer inst.mnemonic (e.read dst) (usedValue inst e) =
        x86Integer inst.mnemonic (e.read dst) (secondValue inst e) ↔
      OperandHonoured inst dst e := by
  unfold usedValue secondValue OperandHonoured
  rw [himm]
  revert hm
  cases inst.mnemonic with
  | add | sub | cmp | rol | ror => exact fun _ => iff_of_true rfl trivial
  | and =>
    intro _
    dsimp only [x86Integer]
    rw [if_pos rfl, if_pos rfl, UInt64.and_zero, eq_comm]
  | or =>
    intro _
    dsimp only [x86Integer]
    rw [if_pos rfl, if_pos rfl, UInt64.or_zero, eq_comm]
  | xor =>
    intro _
    dsimp only [x86Integer]
    rw [if_pos rfl, if_pos rfl, UInt64.xor_right_inj, eq_comm]
  | shl | sal =>
    intro _
    dsimp only [x86Integer]
    rw [if_pos rfl, if_pos rfl, UInt64.zero_and, UInt64.shiftLeft_zero, eq_comm]
    exact shiftLeft_eq_self_iff _ _
  | shr =>
    intro _
    dsimp only [x86Integer]
    rw [if_pos rfl, if_pos rfl, UInt64.zero_and, UInt64.shiftRight_zero, eq_comm]
    exact shiftRight_eq_self_iff _ _
  | sar =>
    intro _
    have hzero : sar (e.read dst) 0 = e.read dst := (sar_eq_self_iff _ 0).mpr (.inl rfl)
    have hcount : (inst.immediate64 &&& 63).toNat = 0 ↔ inst.immediate64 &&& 63 = 0 :=
      UInt64.toNat_inj (b := 0)
    dsimp only [x86Integer]
    rw [if_pos rfl, if_pos rfl, UInt64.zero_and, show (0 : UInt64).toNat = 0 from rfl, hzero, eq_comm,
      sar_eq_self_iff, hcount]
  | _ => exact fun hm => nomatch hm

/-- A register operand is used but by the rotates. -/
lemma x86Integer_register_iff {inst : Instruction} {dst : Register} (h : IntegerInst inst dst)
    (himm : isImm inst.op1Kind = false) (e : Executor M) :
    x86Integer inst.mnemonic (e.read dst) (usedValue inst e) =
        x86Integer inst.mnemonic (e.read dst) (secondValue inst e) ↔
      OperandHonoured inst dst e := by
  have hm := h.mnemonic
  obtain htrue | ⟨-, hsecond⟩ := h.second
  · rw [himm] at htrue
    cases htrue
  have hother (hshift : isShiftOrRotate inst.mnemonic = false) :
      secondValue inst e = e.read (mapRegister inst.op1Register) := by
    rw [hshift, if_neg (by simp)] at hsecond
    obtain ⟨src, hsrc⟩ := hsecond
    have hcl : inst.op1Register ≠ .cl := by
      intro hcl
      rw [hcl] at hsrc
      cases hsrc
    rw [secondValue, himm, if_neg (by simp), if_neg hcl]
  have hcl (hshift : isShiftOrRotate inst.mnemonic = true) :
      mapRegister inst.op1Register = .rcx ∧ secondValue inst e = e.read .rcx &&& 0xFF := by
    rw [hshift, if_pos rfl] at hsecond
    rw [secondValue, himm, hsecond, if_neg (by simp), if_pos rfl]
    exact ⟨rfl, rfl⟩
  unfold usedValue OperandHonoured
  rw [himm]
  revert hm hother hcl
  cases inst.mnemonic with
  | add | sub | cmp | and | or | xor =>
    intro _ hother _
    rw [hother rfl]
    exact iff_of_true rfl trivial
  | shl | sal | shr | sar =>
    intro _ _ hcl
    obtain ⟨hrcx, hval⟩ := hcl rfl
    dsimp only [x86Integer]
    rw [if_neg (by simp), hval, hrcx, and_255_63]
    exact iff_of_true rfl trivial
  | rol | ror =>
    intro _ _ hcl
    dsimp only [x86Integer]
    rw [(hcl rfl).2, and_255_63]
    exact UInt64.toBitVec_inj.symm
  | _ => exact fun hm => nomatch hm

/-- An integer instruction on a 64-bit register is translated right, all other general registers
kept, exactly when its operand makes no difference where it is lost. -/
theorem translate_integer_iff {inst : Instruction} {dst : Register} (h : IntegerInst inst dst)
    (e : Executor M) :
    OnlyWrites e (runUops io (uopsOf inst) e).1 dst
        (x86Integer inst.mnemonic (e.read dst) (secondValue inst e)) ↔
      OperandHonoured inst dst e :=
  (runUops_integer io h e).iff_eq.trans <|
    match himm : isImm inst.op1Kind with
    | true => x86Integer_immediate_iff h.mnemonic himm e
    | false => x86Integer_register_iff h himm e

/-- `m rax, imm` with a sign-extended byte. -/
def raxImmediate (m : Mnemonic) (imm : UInt64) : Instruction :=
  { byteInstruction 0x90 0x1000 with
    len := 4
    mnemonic := m
    op0Register := .rax
    op1Kind := .immediate8to64
    immediate64 := imm }

lemma raxImmediate_integer {m : Mnemonic} (h : isInteger m = true) (imm : UInt64) :
    IntegerInst (raxImmediate m imm) .rax :=
  ⟨h, rfl, rfl, .inl rfl⟩

/-- `ADD RAX, 5`. -/
theorem translate_integer_iff_add :
    OnlyWrites ⟨RegisterFile.new, ()⟩
      (runUops ⟨none, none⟩ (uopsOf (raxImmediate .add 5)) ⟨RegisterFile.new, ()⟩).1 .rax 5 :=
  (translate_integer_iff ⟨none, none⟩ (raxImmediate_integer rfl 5) ⟨RegisterFile.new, ()⟩).mpr
    trivial

/-- `AND RAX, 0x0F` of 0xFF leaves 0. -/
theorem translate_integer_not : ¬ ∀ (inst : Instruction) (dst : Register) (e : Executor Unit),
    IntegerInst inst dst → OnlyWrites e (runUops ⟨none, none⟩ (uopsOf inst) e).1 dst
      (x86Integer inst.mnemonic (e.read dst) (secondValue inst e)) := by
  intro h
  have hrax := (h (raxImmediate .and 0x0F) .rax ⟨RegisterFile.new.write .rax 0xFF, ()⟩
    (raxImmediate_integer rfl _)).1
  revert hrax
  decide

end Bemi.Dbt
