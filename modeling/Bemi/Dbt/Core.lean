import Bemi.Dbt.Branch
import Bemi.Dbt.Flags
import Bemi.Dbt.Integer
import Bemi.Dbt.Moves
import Bemi.Lib.X86Core

/-!
# Guest instructions that the translator keeps

The instructions of the x86-64 core that the translator gets right with all their effects: 64-bit
register forms, for `ADD`, `SUB`, `CMP` and `MOV` immediates that `immediate64()` tells right, memory
operands without index, stack operations, `JMP` through a register, `RET` and `HLT`. `Decodes` says
what iced reports about such an instruction, `Agrees` relates the guest's state to the executor's.
Each instruction becomes one micro-op (`uopsOf_decodes`), and the flags that the executor computes with
bits are those that x86 defines with numbers.
-/

namespace Bemi.Dbt
open Machine X86

/-! ## Guest instructions -/

/-- The IR's name of a general register. -/
def general (r : Gpr) : Register := Register.fromU8 (UInt8.ofNat r)

lemma general_isGeneral : ∀ r : Gpr, (general r).isGeneral = true := by
  decide

lemma general_injective : Function.Injective general := by
  have h : ∀ r r' : Gpr, general r = general r' → r = r' := by decide
  exact fun _ _ => h _ _

def mnemonicOf : BinOp → Mnemonic
  | .add => .add
  | .sub => .sub
  | .cmp => .cmp
  | .and => .and
  | .or => .or
  | .xor => .xor

/-- The operations whose immediate form the translator keeps. -/
def keepsImmediate : BinOp → Bool
  | .add | .sub | .cmp => true
  | .and | .or | .xor => false

/-- A memory operand `[base + disp]`; an absent base is RIP or none at all. -/
structure MemoryOperand (g : GuestInstruction) (base : Option Gpr) (disp : UInt64) : Prop where
  base : g.memoryBase.view = base.map fun r => (general r, .full)
  index : g.memoryIndex.view = none
  disp : g.memoryDisplacement64 = disp
  size : g.memorySize = 8

/-- What iced says about an instruction of the core. -/
inductive Decodes (g : GuestInstruction) : Insn → Prop where
  | nop : g.mnemonic = .nop → Decodes g .nop
  | binaryReg {op dst src} :
    g.mnemonic = mnemonicOf op → g.op0Kind = .register → g.op1Kind = .register →
    g.op0Register.view = some (general dst, .full) →
    g.op1Register.view = some (general src, .full) →
    Decodes g (.binary op dst (.reg src))
  | binaryImm {op dst} :
    g.mnemonic = mnemonicOf op → keepsImmediate op = true →
    g.op0Kind = .register → isImm g.op1Kind = true →
    g.op0Register.view = some (general dst, .full) →
    g.immediate64 = g.immediateValue g.op1Kind →
    Decodes g (.binary op dst (.imm (g.immediateValue g.op1Kind)))
  | inc {dst} :
    g.mnemonic = .inc → g.op0Kind = .register →
    g.op0Register.view = some (general dst, .full) →
    Decodes g (.inc dst)
  | dec {dst} :
    g.mnemonic = .dec → g.op0Kind = .register →
    g.op0Register.view = some (general dst, .full) →
    Decodes g (.dec dst)
  | movReg {dst src} :
    g.mnemonic = .mov → g.op0Kind = .register → g.op1Kind = .register →
    g.op0Register.view = some (general dst, .full) →
    g.op1Register.view = some (general src, .full) →
    Decodes g (.mov dst (.reg src))
  | movImm {dst} :
    g.mnemonic = .mov → g.op0Kind = .register → isImm g.op1Kind = true →
    g.op0Register.view = some (general dst, .full) →
    g.immediate64 = g.immediateValue g.op1Kind →
    Decodes g (.mov dst (.imm (g.immediateValue g.op1Kind)))
  | load {dst base disp} :
    g.mnemonic = .mov → g.op0Kind = .register → g.op1Kind = .memory →
    g.op0Register.view = some (general dst, .full) → MemoryOperand g base disp →
    Decodes g (.load dst base disp)
  | store {base disp src} :
    g.mnemonic = .mov → g.op0Kind = .memory → g.op1Kind = .register →
    g.op1Register.view = some (general src, .full) → MemoryOperand g base disp →
    Decodes g (.store base disp src)
  | movsxd {dst src} :
    g.mnemonic = .movsxd → g.op0Kind = .register → g.op1Kind = .register →
    g.op0Register.view = some (general dst, .full) →
    g.op1Register.view = some (general src, .low32) →
    Decodes g (.movsxd dst src)
  | push {src} :
    g.mnemonic = .push → g.op0Kind = .register →
    g.op0Register.view = some (general src, .full) →
    Decodes g (.push src)
  | pop {dst} :
    g.mnemonic = .pop → g.op0Kind = .register →
    g.op0Register.view = some (general dst, .full) →
    Decodes g (.pop dst)
  | jmp {target} :
    g.mnemonic = .jmp → g.op0Kind = .register →
    g.op0Register.view = some (general target, .full) →
    Decodes g (.jmp target)
  | ret : g.mnemonic = .ret → isImm g.op0Kind = false → Decodes g .ret
  | hlt : g.mnemonic = .hlt → Decodes g .hlt

/-! ## Guest state and executor -/

variable {M : Type*}

/-- CF, ZF, SF and OF of a flags word. -/
def flagsOf (w : BemiWord) : Flags where
  cf := w.toNat.testBit 0
  zf := w.toNat.testBit 6
  sf := w.toNat.testBit 7
  of := w.toNat.testBit 11

/-- The executor holds the guest's registers, flags and memory. -/
structure Agrees (g : State M) (e : Executor M) : Prop where
  gpr : ∀ r, e.read (general r) = g.gpr r
  flags : flagsOf e.getFlags = g.flags
  mem : e.mem = g.mem

/-- The callbacks are the guest's memory; only their 8-byte accesses matter. -/
structure Implements (io : Callbacks M) (mem : Memory M) : Prop where
  read : ∃ mr, io.memoryRead = some mr ∧ ∀ m addr val, mr m addr true val = mem.load m addr
  write : ∃ mw, io.memoryWrite = some mw ∧ ∀ m addr val, mw m addr true val = mem.store m addr val

section
variable {g : State M} {e : Executor M} (h : Agrees g e)
include h

lemma Agrees.write (r : Gpr) (v : UInt64) : Agrees (g.set r v) (e.write (general r) v) where
  gpr r' := by
    have hne := Register.isGeneral_ne (general_isGeneral r)
    by_cases hr : r' = r
    · rw [hr, State.gpr_set_self]
      exact RegisterFile.read_write_self _ _ hne.1
    · rw [State.gpr_set_ne _ _ hr, ← h.gpr r']
      exact RegisterFile.read_write_ne _ _ fun heq => hr (general_injective heq).symm
  flags := by
    rw [State.set, ← h.flags]
    have hne := (Register.isGeneral_ne (general_isGeneral r)).2
    exact congrArg flagsOf (RegisterFile.read_write_ne _ _ hne)
  mem := h.mem

lemma Agrees.setFlags {flags : Flags} (w : BemiWord)
    (hw : flagsOf (e.setFlags w).getFlags = flags) :
    Agrees { g with flags := flags } (e.setFlags w) where
  gpr r := by
    rw [← h.gpr r]
    exact RegisterFile.read_write_ne _ _ (Register.isGeneral_ne (general_isGeneral r)).2.symm
  flags := hw
  mem := h.mem

lemma Agrees.setMem {m m' : M} (hm : m = m') : Agrees { g with mem := m' } { e with mem := m } :=
  ⟨h.gpr, h.flags, hm⟩

end

/-! ## Flags -/

lemma flagsOf_flagsWord (cf zf sf of : Bool) : flagsOf (flagsWord cf zf sf of) = ⟨cf, zf, sf, of⟩ := by
  cases cf <;> cases zf <;> cases sf <;> cases of <;> rfl

/-- An addition overflows when the signed sum does not fit. -/
lemma overflowOf_add (a b : BemiWord) :
    overflowOf (a + b) a b false ≠ 0 ↔ overflows (a.toInt64.toInt + b.toInt64.toInt) = true := by
  have ha := a.toNat_lt
  have hb := b.toNat_lt
  have hadd : (a + b).toNat = (a.toNat + b.toNat) % 2 ^ 64 := UInt64.toNat_add a b
  rw [overflowOf, if_neg (by decide), shiftRight_top_iff, topBit_and, topBit_xor, topBit_xor,
    overflows, decide_eq_true_eq]
  obtain ⟨ta, na, ia⟩ | ⟨ta, na, ia⟩ := sign_cases a <;>
    obtain ⟨tb, nb, ib⟩ | ⟨tb, nb, ib⟩ := sign_cases b <;>
      obtain ⟨tr, nr, -⟩ | ⟨tr, nr, -⟩ := sign_cases (a + b) <;>
        rw [ta, tb, tr, ia, ib] <;>
          first
            | exact iff_of_true rfl (by omega)
            | exact iff_of_false (by decide) (by omega)

/-- The sign flag says that the result is negative. -/
lemma topBit_eq_decide (x : BemiWord) : topBit x = decide (x.toInt64 < 0) := by
  rw [Bool.eq_iff_iff, decide_eq_true_eq, Int64.lt_iff_toInt_lt]
  have hzero : (0 : Int64).toInt = 0 := rfl
  have hlt := x.toNat_lt
  obtain ⟨htop, hx, hint⟩ | ⟨htop, hx, hint⟩ := sign_cases x
  · rw [htop, hint, hzero]
    exact iff_of_true rfl (by omega)
  · rw [htop, hint, hzero]
    exact iff_of_false (by decide) (by omega)

lemma flagsOf_add (rf : RegisterFile) (a b : BemiWord) :
    flagsOf (rf.updateFlagsArith (a + b) a b false).getFlags = addFlags a b := by
  have hcarry : carryOf a b false = decide (2 ^ 64 ≤ a.toNat + b.toNat) := by
    rw [Bool.eq_iff_iff, carryOf_add, decide_eq_true_eq]
  have hover : decide (overflowOf (a + b) a b false ≠ 0) =
      overflows (a.toInt64.toInt + b.toInt64.toInt) := by
    rw [Bool.eq_iff_iff, decide_eq_true_eq, overflowOf_add]
  rw [getFlags_updateFlagsArith, flagsOf_flagsWord, decide_and_top, topBit_eq_decide, hcarry, hover]
  rfl

lemma flagsOf_sub (rf : RegisterFile) (a b : BemiWord) :
    flagsOf (rf.updateFlagsArith (a - b) a b true).getFlags = subFlags a b := by
  have hover : decide (overflowOf (a - b) a b true ≠ 0) =
      overflows (a.toInt64.toInt - b.toInt64.toInt) := by
    rw [Bool.eq_iff_iff, decide_eq_true_eq, overflowOf_sub, overflows, decide_eq_true_eq, SubFits]
  rw [getFlags_updateFlagsArith, flagsOf_flagsWord, decide_and_top, topBit_eq_decide, hover]
  rfl

lemma flagsOf_logic (rf : RegisterFile) (result : BemiWord) :
    flagsOf (rf.updateFlagsLogic result).getFlags = X86.logicFlags result := by
  have hword : (rf.updateFlagsLogic result).getFlags =
      flagsWord false (result = 0) (result &&& ((1 : BemiWord) <<< 63) ≠ 0) false := by
    rw [RegisterFile.updateFlagsLogic, getFlags_setFlags]
    simp only [flagsWord, decide_eq_true_eq, Bool.false_eq_true, if_false]
  rw [hword, flagsOf_flagsWord, decide_and_top, topBit_eq_decide]
  rfl

/-- A bit of a flags word in which the old CF has been put back. -/
lemma testBit_keepCarry (w old : BemiWord) (i : Nat) :
    ((w &&& ~~~0x01) ||| (old &&& 0x01)).toNat.testBit i =
      (w.toNat.testBit i && (~~~0x01 : BemiWord).toNat.testBit i ||
        old.toNat.testBit i && (0x01 : BemiWord).toNat.testBit i) := by
  rw [UInt64.toNat_or, UInt64.toNat_and, UInt64.toNat_and, Nat.testBit_or, Nat.testBit_and,
    Nat.testBit_and]

lemma flagsOf_keepCarry (w old : BemiWord) :
    flagsOf ((w &&& ~~~0x01) ||| (old &&& 0x01)) = { flagsOf w with cf := (flagsOf old).cf } := by
  have hmask : ∀ i ∈ [0, 6, 7, 11], (~~~0x01 : BemiWord).toNat.testBit i = decide (i ≠ 0) ∧
      (0x01 : BemiWord).toNat.testBit i = decide (i = 0) := by decide
  simp only [flagsOf, testBit_keepCarry, hmask, List.mem_cons, true_or, or_true]
  simp

/-! ## The micro-op of an instruction -/

/-- The IR's name of a base register. -/
def baseRegister : Option Gpr → Register
  | some r => general r
  | none => .rNone

/-- What the translator makes of an instruction of the core. -/
def microOp : Insn → MicroOpInst
  | .nop => .new .nop .rNone .rNone .rNone 0
  | .binary op dst (.reg src) =>
    (MicroOpInst.new (rrCode (mnemonicOf op)) (general dst) (general dst) (general src) 0).withSize 8
  | .binary op dst (.imm v) =>
    (MicroOpInst.new (riCode (mnemonicOf op)) (general dst) (general dst) .rNone v).withSize 8
  | .inc dst => (MicroOpInst.new .incR (general dst) (general dst) .rNone 0).withSize 8
  | .dec dst => (MicroOpInst.new .decR (general dst) (general dst) .rNone 0).withSize 8
  | .mov dst (.reg src) => (MicroOpInst.new .movRR (general dst) (general src) .rNone 0).withSize 8
  | .mov dst (.imm v) => (MicroOpInst.new .movRI (general dst) .rNone .rNone v).withSize 8
  | .load dst base disp =>
    (MicroOpInst.new .movRM (general dst) (baseRegister base) .rNone disp).withSize 8
  | .store base disp src =>
    (MicroOpInst.new .movMR (baseRegister base) (general src) .rNone disp).withSize 8
  | .movsxd dst src => (MicroOpInst.new .movsxd (general dst) (general src) .rNone 0).withSize 8
  | .push src => (MicroOpInst.new .pushR .rNone (general src) .rNone 0).withSize 8
  | .pop dst => (MicroOpInst.new .popR (general dst) .rNone .rNone 0).withSize 8
  | .jmp target => .new .jmpAbs .rNone (general target) .rNone 0
  | .ret => .new .ret .rNone .rNone .rNone 0
  | .hlt => .new .hlt .rNone .rNone .rNone 0

lemma mnemonicOf_integer (op : BinOp) : isInteger (mnemonicOf op) = true ∧
    mnemonicOf op ≠ .rol ∧ mnemonicOf op ≠ .ror := by
  cases op <;> decide

lemma mapRegister_base {guest : GuestInstruction} {base : Option Gpr} {disp : UInt64}
    (hop : MemoryOperand guest base disp) : mapRegister guest.memoryBase = baseRegister base := by
  cases base with
  | none => exact mapRegister_of_view_none hop.base
  | some r => exact (view_spec hop.base).1

/-- An instruction of the core becomes its one micro-op. -/
lemma uopsOf_decodes {guest : GuestInstruction} {i : Insn} (hdec : Decodes guest i) :
    uopsOf guest.toInstruction = [microOp i] := by
  cases hdec with
  | nop hm | ret hm | hlt hm => simp [uopsOf, translateInstruction, hm, plainUop, microOp]
  | @binaryReg op dst src hm h0 h1 hdst hsrc =>
    obtain ⟨hint, hrol, hror⟩ := mnemonicOf_integer op
    have himm : isImm guest.op1Kind = false := by rw [h1]; rfl
    have hshift : isShiftOrRotate (mnemonicOf op) = false := by cases op <;> rfl
    rw [← hm] at hint hrol hror hshift
    have hsecond : SecondOperand guest.toInstruction := .inr ⟨h1, by rw [hshift]; exact ⟨_, hsrc⟩⟩
    rw [uopsOf_integer hint hrol hror, translateBinary_eq ⟨hint, h0, hdst, hsecond⟩, himm,
      (view_spec hsrc).1, hm]
    rfl
  | @binaryImm op dst hm hop h0 h1 hdst himm =>
    obtain ⟨hint, hrol, hror⟩ := mnemonicOf_integer op
    rw [← hm] at hint hrol hror
    rw [uopsOf_integer hint hrol hror, translateBinary_eq ⟨hint, h0, hdst, .inl h1⟩, h1, hm, ← himm]
    rfl
  | inc hm h0 hdst | dec hm h0 hdst | pop hm h0 hdst =>
    simp [uopsOf, translateInstruction, hm, (view_spec hdst).1, microOp]
  | movReg hm h0 h1 hdst hsrc =>
    simp [uopsOf, translateInstruction, translateMov, hm, h0, h1, (view_spec hdst).1,
      (view_spec hsrc).1, microOp]
  | movImm hm h0 h1 hdst himm =>
    simp [uopsOf, translateInstruction, translateMov, hm, h0, h1, (isImm_ne h1).1,
      (view_spec hdst).1, microOp, ← himm]
  | load hm h0 h1 hdst hop =>
    simp [uopsOf, translateInstruction, translateMov, hm, h0, h1, isImm, (view_spec hdst).1,
      mapRegister_base hop, hop.disp, microOp]
  | store hm h0 h1 hsrc hop =>
    simp [uopsOf, translateInstruction, translateMov, hm, h0, h1, (view_spec hsrc).1,
      mapRegister_base hop, hop.disp, microOp]
  | movsxd hm h0 h1 hdst hsrc =>
    simp [uopsOf, translateInstruction, hm, (view_spec hdst).1, (view_spec hsrc).1, microOp]
  | push hm h0 hsrc =>
    simp [uopsOf, translateInstruction, hm, (view_spec hsrc).1, microOp]
  | jmp hm h0 htarget =>
    simp [uopsOf, translateInstruction, hm, h0, (view_spec htarget).1, microOp]

end Bemi.Dbt
