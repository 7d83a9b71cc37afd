import Mathlib.Data.Fintype.Basic
import Mathlib.Tactic.FinCases
import Bemi.I8088.Executor
import Bemi.Lib.I8086

/-!
# What a step of the simulator does

One description of `step` for each 8086 instruction that `decode_8088` knows and that is neither a
conditional jump nor a software interrupt. `decode_op` is the record the decoder makes, `step_op`
the executor that dispatching it leaves.
-/

namespace Bemi.I8088
open I8086 (Op)

/-- What the decoder makes of an instruction whose opcode byte has been read at `phys`. -/
def decodedOp (mem : Memory8088) (phys : UInt32) (op : Op) : DecodedInst8088 :=
  let opcode := op.byte.toUInt16
  let rel8 := (mem.read8 (phys + 1)).toInt8.toInt16
  let imm16 := mem.read16 (phys + 1)
  match op with
  | .nop => ⟨opcode, 1, 0, 0, 0, 0, false, .other, "NOP"⟩
  | .hlt => ⟨opcode, 1, 0, 0, 0, 0, false, .system, "HLT"⟩
  | .cli => ⟨opcode, 1, 0, 0, 0, 0, false, .system, "CLI"⟩
  | .sti => ⟨opcode, 1, 0, 0, 0, 0, false, .system, "STI"⟩
  | .jmpShort => ⟨opcode, 2, 0, 0, 1, rel8, false, .jmp, "JMP"⟩
  | .jmpNear => ⟨opcode, 3, 0, 0, 2, imm16.toInt16, false, .jmp, "JMP"⟩
  | .jmpFar => ⟨opcode, 5, imm16, 0, 2, 0, true, .jmp, "JMP FAR"⟩
  | .call => ⟨opcode, 3, 0, 0, 2, imm16.toInt16, false, .call, "CALL"⟩
  | .ret => ⟨opcode, 1, 0, 0, 0, 0, false, .ret, "RET"⟩
  | .retImm => ⟨opcode, 3, imm16, 0, 2, 0, false, .ret, "RET"⟩
  | .push _ => ⟨opcode, 1, 0, 0, 0, 0, false, .push, "PUSH"⟩
  | .pop _ => ⟨opcode, 1, 0, 0, 0, 0, false, .pop, "POP"⟩
  | .movByte _ => ⟨opcode, 2, (mem.read8 (phys + 1)).toUInt16, 0, 1, 0, false, .mov, "MOV"⟩
  | .movWord _ => ⟨opcode, 3, imm16, 0, 2, 0, false, .mov, "MOV"⟩

/-- Bit 3 of a move's opcode is its width. -/
lemma movByte_narrow : ∀ r, (Op.movByte r).byte &&& 0x08 = 0 := by decide

lemma movWord_wide : ∀ r, (Op.movWord r).byte &&& 0x08 ≠ 0 := by decide

/-- The low bits of a register's opcode are its encoding. -/
lemma regIdx (r : I8086.Reg) :
    (Op.push r).byte.toUInt16.toUInt8 &&& 0x07 = .ofNat r ∧
      (Op.pop r).byte.toUInt16.toUInt8 &&& 0x07 = .ofNat r ∧
      (Op.movByte r).byte.toUInt16.toUInt8 &&& 0x07 = .ofNat r ∧
      (Op.movWord r).byte.toUInt16.toUInt8 &&& 0x07 = .ofNat r := by
  revert r
  decide

lemma decode_op {mem : Memory8088} {cs ip : UInt16} {op : Op}
    (h : mem.read8 (linear cs ip) = op.byte) :
    decode8088 mem cs ip = some (decodedOp mem (linear cs ip) op) := by
  rw [linear] at h ⊢
  cases op with
  | push r => fin_cases r <;> simp [decode8088, decodedOp, h, Op.byte]
  | pop r => fin_cases r <;> simp [decode8088, decodedOp, h, Op.byte]
  | movByte r =>
    have hb := movByte_narrow r
    fin_cases r <;> simp [decode8088, decodedOp, h, Op.byte] <;> exact hb
  | movWord r =>
    have hb := movWord_wide r
    fin_cases r <;> simp [decode8088, decodedOp, h, Op.byte] <;> exact hb
  | _ => simp [decode8088, decodedOp, h, Op.byte]

/-- The opcode ranges are made of the opcodes of their registers. -/
lemma exists_reg (n : Fin 256) :
    (0x50 ≤ n.val ∧ n.val ≤ 0x5F →
        ∃ r, UInt8.ofNat n = (Op.push r).byte ∨ UInt8.ofNat n = (Op.pop r).byte) ∧
      (0xB0 ≤ n.val ∧ n.val ≤ 0xBF →
        ∃ r, UInt8.ofNat n = (Op.movByte r).byte ∨ UInt8.ofNat n = (Op.movWord r).byte) := by
  revert n
  decide +kernel

/-- The decoder makes a conditional jump or nothing at all of every other byte, `INT` apart. -/
lemma decode_other {mem : Memory8088} {cs ip : UInt16}
    (h : ∀ op : Op, mem.read8 (linear cs ip) ≠ op.byte) (hint : mem.read8 (linear cs ip) ≠ 0xCD) :
    ∃ inst, decode8088 mem cs ip = some inst ∧
      (inst.category = .jcc ∨ inst.category = .other) := by
  simp only [decode8088]
  rw [linear] at h hint
  generalize mem.read8 (cs.toUInt32 <<< 4 + ip.toUInt32) = b at h hint ⊢
  have hreg := exists_reg ⟨b.toNat, b.toNat_lt⟩
  simp only [UInt8.ofNat_toNat] at hreg
  have hpush : ¬ (0x50 ≤ b ∧ b ≤ 0x5F) := by
    intro hb
    obtain ⟨r, hr | hr⟩ := hreg.1 hb
    · exact h _ hr
    · exact h _ hr
  have hmov : ¬ (0xB0 ≤ b ∧ b ≤ 0xBF) := by
    intro hb
    obtain ⟨r, hr | hr⟩ := hreg.2 hb
    · exact h _ hr
    · exact h _ hr
  have hlit : b ≠ 0x90 ∧ b ≠ 0xF4 ∧ b ≠ 0xFA ∧ b ≠ 0xFB ∧ b ≠ 0xEB ∧ b ≠ 0xE9 ∧ b ≠ 0xEA ∧
      b ≠ 0xE8 ∧ b ≠ 0xC3 ∧ b ≠ 0xC2 :=
    ⟨h .nop, h .hlt, h .cli, h .sti, h .jmpShort, h .jmpNear, h .jmpFar, h .call, h .ret,
      h .retImm⟩
  simp only [hlit, hpush, hmov, hint, if_false]
  by_cases hjcc : 0x70 ≤ b ∧ b ≤ 0x7F
  · exact ⟨_, if_pos hjcc, .inl rfl⟩
  · exact ⟨_, if_neg hjcc, .inr rfl⟩

/-- None of these instructions is a software interrupt. -/
lemma byte_ne_int (op : Op) : op.byte ≠ 0xCD := by
  cases op with
  | push r | pop r | movByte r | movWord r =>
    revert r
    decide
  | _ => decide

lemma decode_int {mem : Memory8088} {cs ip : UInt16} (h : mem.read8 (linear cs ip) = 0xCD) :
    decode8088 mem cs ip = some
      ⟨0xCD, 2, (mem.read8 (linear cs ip + 1)).toUInt16, 0, 1, 0, false, .system, "INT"⟩ := by
  rw [linear] at h ⊢
  simp [decode8088, h]

namespace X8088Executor

/-- The general register of an encoding. -/
def gp (x : X8088Executor) (r : I8086.Reg) : UInt16 := x.readGp16 (.ofNat r)

def setGp (x : X8088Executor) (r : I8086.Reg) (v : UInt16) : X8088Executor :=
  x.writeGp16 (.ofNat r) v

/-- The operand bytes that the decoder reads, behind the opcode's physical address. -/
def operand8 (x : X8088Executor) : UInt8 :=
  x.mem.read8 (linear x.cpu.cs x.cpu.ip + 1)

def operand16 (x : X8088Executor) : UInt16 :=
  x.mem.read16 (linear x.cpu.cs x.cpu.ip + 1)

/-- What `step` leaves. -/
def stepOp (x : X8088Executor) (op : Op) : X8088Executor :=
  let ip := x.cpu.ip
  let sp := x.cpu.sp
  match op with
  | .nop => x.setIp (ip + 1)
  | .hlt => { x with cpu := { x.cpu with ip := ip + 1, halted := true } }
  | .cli => { x with cpu := { x.cpu with ip := ip + 1, interruptsEnabled := false } }
  | .sti => { x with cpu := { x.cpu with ip := ip + 1, interruptsEnabled := true } }
  | .jmpShort => x.setIp (ip + 2 + I8086.signExtend x.operand8)
  | .jmpNear => x.setIp (ip + 3 + x.operand16)
  | .jmpFar => { x with cpu := { x.cpu with ip := x.operand16, cs := 0 } }
  | .call => (x.pushWord (ip + 3)).setIp (ip + 3 + x.operand16)
  | .ret => (x.setSp (sp + 2)).setIp x.topWord
  | .retImm => (x.setSp (sp + 2 + x.operand16)).setIp x.topWord
  | .push r => (x.pushWord (x.gp r)).setIp (ip + 1)
  | .pop r => ((x.setSp (sp + 2)).setGp r x.topWord).setIp (ip + 1)
  | .movByte r => (x.setGp r x.operand8.toUInt16).setIp (ip + 2)
  | .movWord r => (x.setGp r x.operand16).setIp (ip + 3)

lemma writeGp16_setIp (x : X8088Executor) (r : I8086.Reg) (v ip : UInt16) :
    (x.setIp ip).writeGp16 (.ofNat r) v = (x.setGp r v).setIp ip := by
  fin_cases r <;> rfl

/-- `step` on one of these instructions. -/
lemma step_op {x : X8088Executor} {op : Op} (hrun : x.cpu.halted = false)
    (hop : x.mem.read8 (linear x.cpu.cs x.cpu.ip) = op.byte) :
    ∃ cont, x.step = some (x.stepOp op, cont) := by
  rw [step, if_neg (by simp [hrun])]
  simp only [decode_op hop]
  cases op with
  | retImm =>
    by_cases h : x.mem.read16 (linear x.cpu.cs x.cpu.ip + 1) > 0
    · simp only [dispatch, decodedOp, h, if_true]
      exact ⟨_, rfl⟩
    · have hzero : x.mem.read16 (linear x.cpu.cs x.cpu.ip + 1) = 0 := by simpa using h
      simp only [dispatch, decodedOp, stepOp, operand16, hzero, UInt16.add_zero]
      exact ⟨_, rfl⟩
  | push r =>
    simp only [dispatch, decodedOp, (regIdx r).1]
    exact ⟨_, rfl⟩
  | pop r =>
    simp only [dispatch, decodedOp, (regIdx r).2.1]
    exact ⟨_, congrArg (fun x => some (x, _)) (writeGp16_setIp (x.setSp (x.cpu.sp + 2)) r _ _)⟩
  | movByte r =>
    simp only [dispatch, decodedOp, (regIdx r).2.2.1, writeGp16_setIp]
    exact ⟨_, rfl⟩
  | movWord r =>
    simp only [dispatch, decodedOp, (regIdx r).2.2.2, writeGp16_setIp]
    exact ⟨_, rfl⟩
  | _ => exact ⟨_, rfl⟩

/-- `step` of a halted simulator. -/
lemma step_halted {x : X8088Executor} (h : ¬ x.cpu.halted = false) : x.step = some (x, false) :=
  if_pos (Bool.of_not_eq_false h)

/-- `step` on any other byte moves IP at most. -/
lemma step_other {x : X8088Executor} (hrun : x.cpu.halted = false)
    (hop : ∀ op : Op, x.mem.read8 (linear x.cpu.cs x.cpu.ip) ≠ op.byte)
    (hint : x.mem.read8 (linear x.cpu.cs x.cpu.ip) ≠ 0xCD) :
    ∃ ip cont, x.step = some (x.setIp ip, cont) := by
  obtain ⟨inst, hdecode, hcat⟩ := decode_other hop hint
  rw [step, if_neg (by simp [hrun])]
  simp only [hdecode, dispatch]
  cases hcat with
  | inl hjcc =>
    rw [hjcc]
    exact ⟨_, _, rfl⟩
  | inr hother =>
    rw [hother]
    exact ⟨_, _, rfl⟩

/-- `step` on a software interrupt. -/
lemma step_int {x : X8088Executor} (hrun : x.cpu.halted = false)
    (hop : x.mem.read8 (linear x.cpu.cs x.cpu.ip) = 0xCD) :
    x.step = (x.bios.handleInt (x.setIp (x.cpu.ip + 2)).cpu x.mem x.operand8).map
      fun (bios, cpu, _) => ({ x with bios, cpu }, !bios.dosBreak) := by
  rw [step, if_neg (by simp [hrun])]
  simp only [decode_int hop, dispatch]
  have hother : (0xCD : UInt16).toUInt8 ≠ 0xF4 ∧ (0xCD : UInt16).toUInt8 ≠ 0xFA ∧
      (0xCD : UInt16).toUInt8 ≠ 0xFB := by decide
  rw [if_neg hother.1, if_neg hother.2.1, if_neg hother.2.2, if_pos (by decide)]
  have himm : x.operand8.toUInt16.toUInt8 = x.operand8 := UInt8.toUInt8_toUInt16 _
  rw [← himm]
  cases hhandle : x.bios.handleInt (x.setIp (x.cpu.ip + 2)).cpu x.mem
    x.operand8.toUInt16.toUInt8 with
  | none =>
    split
    · rfl
    · rename_i hsome
      cases hhandle.symm.trans hsome
  | some res =>
    split
    · rename_i hnone
      cases hhandle.symm.trans hnone
    · rename_i hsome
      cases hhandle.symm.trans hsome
      rfl

/-- What a step of a running simulator does: an instruction, a software interrupt or a move of
IP. -/
lemma step_cases {x : X8088Executor} (hrun : x.cpu.halted = false) :
    (∃ op cont, x.mem.read8 (linear x.cpu.cs x.cpu.ip) = Op.byte op ∧
        x.step = some (x.stepOp op, cont)) ∨
      (x.mem.read8 (linear x.cpu.cs x.cpu.ip) = 0xCD ∧
        x.step = (x.bios.handleInt (x.setIp (x.cpu.ip + 2)).cpu x.mem x.operand8).map
          fun (bios, cpu, _) => ({ x with bios, cpu }, !bios.dosBreak)) ∨
      (x.mem.read8 (linear x.cpu.cs x.cpu.ip) ≠ 0xCD ∧
        ∃ ip cont, x.step = some (x.setIp ip, cont)) := by
  by_cases hop : ∃ op, x.mem.read8 (linear x.cpu.cs x.cpu.ip) = Op.byte op
  · obtain ⟨op, hop⟩ := hop
    obtain ⟨cont, hstep⟩ := step_op hrun hop
    exact .inl ⟨op, cont, hop, hstep⟩
  · by_cases hint : x.mem.read8 (linear x.cpu.cs x.cpu.ip) = 0xCD
    · exact .inr (.inl ⟨hint, step_int hrun hint⟩)
    · exact .inr (.inr ⟨hint, step_other hrun (not_exists.mp hop) hint⟩)

/-- A simulator that has just been reset, with some code at its entry point. -/
def resetWith (code : List UInt8) : X8088Executor :=
  X8088Executor.new.loadImage code 0xFFFF0

end X8088Executor

end Bemi.I8088
