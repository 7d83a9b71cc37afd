import Bemi.I8088.Step
import Bemi.I8088.Words

/-!
# The simulator against the 8086

`X8088Executor.view` is what the registers and the memory of the simulator stand for, and
`step_refines_iff` the exact condition under which a step is the instruction of the manual. The
simulator goes on reading and writing behind offset `FFFF` of a segment where the 8086 starts over
at offset 0; it pushes the old SP, drops the segment of a far jump, and moves a byte into the word
register that has the byte register's number.
-/

namespace Bemi.I8088
open I8086 (Op State physical word lowByte highByte)

namespace X8088Executor

/-! ### The 8086 state of a simulator -/

def view (x : X8088Executor) : State where
  gp := x.gp
  cs := x.cpu.cs
  ds := x.cpu.ds
  es := x.cpu.es
  ss := x.cpu.ss
  ip := x.cpu.ip
  mem := x.mem.ram

@[simp] lemma view_setIp (x : X8088Executor) (ip : UInt16) : (x.setIp ip).view = x.view.jump ip :=
  rfl

@[simp] lemma view_setGp (x : X8088Executor) (r : I8086.Reg) (v : UInt16) :
    (x.setGp r v).view = x.view.set r v := by
  have hgp : (x.setGp r v).gp = Function.update x.gp r v := by
    funext i
    fin_cases r <;> fin_cases i <;> rfl
  have hrest : (x.setGp r v).view = { x.view with gp := (x.setGp r v).gp } := by
    fin_cases r <;> rfl
  rw [hrest, hgp]
  rfl

@[simp] lemma view_setSp (x : X8088Executor) (v : UInt16) :
    (x.setSp v).view = x.view.set I8086.sp v :=
  view_setGp x I8086.sp v

/-! ### Operands and stack words -/

/-- The byte `k` behind the opcode is the same for the simulator, which counts on in physical
addresses, and for the 8086, which counts on in the code segment. -/
def SameByte (x : X8088Executor) (k : UInt16) : Prop :=
  x.mem.read8 (linear x.cpu.cs x.cpu.ip + k.toUInt32) = x.mem.read8 (linear x.cpu.cs (x.cpu.ip + k))

/-- The second byte of the word at SS:SP is the same for both. -/
def SameTop (x : X8088Executor) : Prop :=
  x.mem.read8 (linear x.cpu.ss x.cpu.sp + 1) = x.mem.read8 (linear x.cpu.ss (x.cpu.sp + 1))

/-- Pushing `v` leaves the same memory for both: the word does not run past the end of the stack
segment, or the places of both second bytes already hold its high byte. -/
def SamePush (x : X8088Executor) (v : UInt16) : Prop :=
  x.cpu.sp = 1 →
    x.mem.read8 (linear x.cpu.ss 0xFFFF + 1) = highByte v ∧
      x.mem.read8 (linear x.cpu.ss 0) = highByte v

/-- When the simulator does what the manual says. -/
def Meets (x : X8088Executor) : Op → Prop
  | .nop | .hlt | .cli | .sti => True
  | .jmpShort => x.SameByte 1
  | .jmpNear | .movWord _ => x.SameByte 1 ∧ x.SameByte 2
  | .jmpFar =>
    (x.SameByte 1 ∧ x.SameByte 2) ∧
      x.mem.read8 (linear x.cpu.cs (x.cpu.ip + 3)) = 0 ∧
      x.mem.read8 (linear x.cpu.cs (x.cpu.ip + 4)) = 0
  | .call => (x.SameByte 1 ∧ x.SameByte 2) ∧ x.SamePush (x.cpu.ip + 3)
  | .ret | .pop _ => x.SameTop
  | .retImm => (x.SameByte 1 ∧ x.SameByte 2) ∧ x.SameTop
  | .push r => r ≠ I8086.sp ∧ x.SamePush (x.gp r)
  | .movByte r =>
    if r < I8086.ah then x.SameByte 1 ∧ highByte (x.gp r) = 0
    else
      x.gp r = x.operand8.toUInt16 ∧
        highByte (x.gp (r - I8086.ah)) = x.mem.read8 (linear x.cpu.cs (x.cpu.ip + 1))

lemma byteAt_view (x : X8088Executor) (seg off : UInt16) :
    x.view.byteAt seg off = x.mem.read8 (linear seg off) := by
  rw [Memory8088.read8, index_linear]
  rfl

lemma operand8_eq_iff {x : X8088Executor} : x.operand8 = x.view.operand8 ↔ x.SameByte 1 := by
  rw [State.operand8, byteAt_view]
  rfl

lemma operand16_eq_iff {x : X8088Executor} :
    x.operand16 = x.view.operand16 1 ↔ x.SameByte 1 ∧ x.SameByte 2 := by
  have h2 : linear x.cpu.cs x.cpu.ip + 1 + 1 = linear x.cpu.cs x.cpu.ip + 2 := by
    rw [UInt32.add_assoc]
    rfl
  have h2' : x.view.ip + 1 + 1 = x.view.ip + 2 := by
    rw [UInt16.add_assoc]
    rfl
  rw [operand16, read16_eq, State.operand16, State.wordAt, I8086.word_inj, byteAt_view, byteAt_view,
    h2, h2']
  rfl

/-- The segment word of a far jump. -/
lemma segment_eq_zero_iff {x : X8088Executor} :
    x.view.operand16 3 = 0 ↔
      x.mem.read8 (linear x.cpu.cs (x.cpu.ip + 3)) = 0 ∧
        x.mem.read8 (linear x.cpu.cs (x.cpu.ip + 4)) = 0 := by
  have hnext : x.view.ip + 3 + 1 = x.view.ip + 4 := by
    rw [UInt16.add_assoc]
    rfl
  rw [State.operand16, State.wordAt, hnext, I8086.word_eq_iff, byteAt_view, byteAt_view]
  rfl

lemma topWord_eq_iff {x : X8088Executor} : x.topWord = x.view.top ↔ x.SameTop := by
  rw [topWord, read16_eq, State.top, State.wordAt, I8086.word_inj, byteAt_view, byteAt_view]
  exact and_iff_right rfl

/-! ### Pushing a word -/

lemma view_pushWord (x : X8088Executor) (v : UInt16) :
    (x.pushWord v).view =
      { x.view.set I8086.sp (x.cpu.sp - 2) with
        mem := Function.update (Function.update x.mem.ram (physical x.cpu.ss (x.cpu.sp - 2))
            (lowByte v)) (Memory8088.index (linear x.cpu.ss (x.cpu.sp - 2) + 1)) (highByte v) } := by
  have hmem := write16_ram x.mem (linear x.cpu.ss (x.cpu.sp - 2)) v
  rw [index_linear] at hmem
  have hset := view_setSp x (x.cpu.sp - 2)
  rw [← hset, ← hmem]
  rfl

/-- The push of an operand that does not depend on SP. -/
lemma pushWord_eq_iff {x : X8088Executor} {v : UInt16} (operand : State → UInt16)
    (hv : operand (x.view.set I8086.sp (x.cpu.sp - 2)) = v) :
    (x.pushWord v).view = x.view.push operand ↔ x.SamePush v := by
  have hpush : x.view.push operand =
      { x.view.set I8086.sp (x.cpu.sp - 2) with
        mem := Function.update (Function.update x.mem.ram (physical x.cpu.ss (x.cpu.sp - 2))
            (lowByte v)) (physical x.cpu.ss (x.cpu.sp - 2 + 1)) (highByte v) } := by
    rw [← hv]
    rfl
  have hmem {s : State} {m m' : I8086.Address → UInt8} :
      ({ s with mem := m } : State) = { s with mem := m' } ↔ m = m' :=
    ⟨congrArg State.mem, fun h => h ▸ rfl⟩
  rw [view_pushWord, hpush, hmem, I8086.update_second_eq_iff (index_succ_ne _ _)
    (I8086.physical_succ_ne _ _), index_succ_eq_iff]
  have hsp : x.cpu.sp - 2 = 0xFFFF ↔ x.cpu.sp = 1 := UInt16.sub_eq_iff_eq_add
  rw [SamePush, Memory8088.read8, Memory8088.read8, index_linear, ne_eq, hsp,
    ← Decidable.imp_iff_not_or]
  refine imp_congr_right fun h => ?_
  rw [h]
  rfl

/-- SP itself: the 8086 pushes it after, the simulator before it goes down. -/
lemma pushWord_sp_ne (x : X8088Executor) :
    (x.pushWord x.cpu.sp).view ≠ x.view.push fun s => s.gp I8086.sp := by
  intro h
  have hx := (index_succ_ne x.cpu.ss (x.cpu.sp - 2)).symm
  have hs := (I8086.physical_succ_ne x.cpu.ss (x.cpu.sp - 2)).symm
  have hlow : lowByte x.cpu.sp = lowByte (x.cpu.sp - 2) := by
    calc lowByte x.cpu.sp
        = Function.update (Function.update x.mem.ram (physical x.cpu.ss (x.cpu.sp - 2))
            (lowByte x.cpu.sp)) (Memory8088.index (linear x.cpu.ss (x.cpu.sp - 2) + 1))
            (highByte x.cpu.sp) (physical x.cpu.ss (x.cpu.sp - 2)) := by
          rw [Function.update_of_ne hx, Function.update_self]
      _ = (x.pushWord x.cpu.sp).view.mem (physical x.cpu.ss (x.cpu.sp - 2)) :=
          (congrFun (congrArg State.mem (view_pushWord x _)) _).symm
      _ = (x.view.push fun s => s.gp I8086.sp).mem (physical x.cpu.ss (x.cpu.sp - 2)) := by rw [h]
      _ = lowByte (x.cpu.sp - 2) :=
          (Function.update_of_ne hs _ _).trans (Function.update_self _ _ _)
  have hsp := x.cpu.sp.toNat_lt
  have htwo : (2 : UInt16).toNat = 2 := rfl
  have hlow := congrArg UInt8.toNat hlow
  simp only [lowByte, UInt8.toNat_ofNat', UInt16.toNat_sub, htwo] at hlow
  omega

/-- A byte goes to the word register with its number: right where the high half is already clear,
or where both registers already hold what is to be written. -/
lemma movByte_eq_iff (x : X8088Executor) (r : I8086.Reg) :
    x.view.set r x.operand8.toUInt16 = x.view.setByte r x.view.operand8 ↔
      x.Meets (.movByte r) := by
  have hzero : x.operand8.toUInt16 = word x.operand8 0 := by
    have hlt := x.operand8.toNat_lt
    rw [word, ← UInt16.toNat_inj, UInt16.toNat_ofNat', UInt8.toNat_toUInt16, UInt8.toNat_zero]
    omega
  by_cases hr : r < I8086.ah
  · rw [State.setByte, if_pos hr, State.set_eq_iff, hzero, I8086.word_inj, operand8_eq_iff, Meets,
      if_pos hr]
    exact and_congr_right fun _ => eq_comm
  · have hne : r ≠ r - I8086.ah := by revert r; decide
    rw [State.setByte, if_neg hr, State.set_ne_eq_iff hne, I8086.word_high rfl, Meets, if_neg hr,
      State.operand8, byteAt_view]
    rfl

/-- A step is the instruction of the manual exactly when its condition holds. -/
lemma stepOp_eq_iff (x : X8088Executor) (op : Op) :
    (x.stepOp op).view = x.view.exec op ↔ x.Meets op := by
  have hip : x.view.ip = x.cpu.ip := rfl
  have hsp : x.view.gp I8086.sp = x.cpu.sp := rfl
  cases op with
  | nop => exact iff_of_true rfl trivial
  | hlt => exact iff_of_true rfl trivial
  | cli => exact iff_of_true rfl trivial
  | sti => exact iff_of_true rfl trivial
  | jmpShort =>
    rw [stepOp, view_setIp, State.exec, State.jump_eq_iff rfl, hip, UInt16.add_right_inj,
      I8086.signExtend_inj, operand8_eq_iff]
    exact and_iff_right rfl
  | jmpNear =>
    rw [stepOp, view_setIp, State.exec, State.jump_eq_iff rfl, hip, UInt16.add_right_inj,
      operand16_eq_iff]
    exact and_iff_right rfl
  | jmpFar =>
    rw [Meets, ← operand16_eq_iff, ← segment_eq_zero_iff]
    constructor
    · intro h
      exact ⟨congrArg State.ip h, (congrArg State.cs h).symm⟩
    · rintro ⟨hoff, hseg⟩
      rw [stepOp, hoff, State.exec, hseg]
      rfl
  | call =>
    rw [stepOp, view_setIp, State.exec, State.jump_eq_iff, hip, UInt16.add_right_inj,
      operand16_eq_iff, pushWord_eq_iff (fun _ => x.cpu.ip + 3) rfl]
    · exact and_comm
    · rfl
  | ret =>
    rw [stepOp, view_setIp, view_setSp, State.exec, State.jump_eq_iff, topWord_eq_iff]
    · exact and_iff_right rfl
    · rfl
  | retImm =>
    rw [stepOp, view_setIp, view_setSp, State.exec, State.jump_eq_iff, topWord_eq_iff,
      State.set_eq_iff, hsp, UInt16.add_right_inj, operand16_eq_iff]
    · rfl
    · rfl
  | push r =>
    rw [stepOp, view_setIp, State.exec, State.jump_eq_iff, hip, and_iff_left rfl]
    · by_cases hr : r = I8086.sp
      · subst hr
        exact iff_of_false (pushWord_sp_ne x) (fun h => h.1 rfl)
      · rw [pushWord_eq_iff (v := x.gp r) (fun s => s.gp r) (Function.update_of_ne hr _ _)]
        exact (and_iff_right hr).symm
    · rfl
  | pop r =>
    rw [stepOp, view_setIp, view_setGp, view_setSp, State.exec, State.jump_eq_iff, hip, hsp,
      and_iff_left rfl, State.set_eq_iff, topWord_eq_iff]
    · rfl
    · rfl
  | movByte r =>
    rw [stepOp, view_setIp, view_setGp, State.exec, State.jump_eq_iff, hip, and_iff_left rfl,
      movByte_eq_iff]
    rw [State.setByte]
    split <;> rfl
  | movWord r =>
    rw [stepOp, view_setIp, view_setGp, State.exec, State.jump_eq_iff, hip, and_iff_left rfl,
      State.set_eq_iff, operand16_eq_iff]
    · rfl
    · rfl

/-- A step of a running simulator is the instruction of the manual exactly when its condition
holds. -/
theorem step_refines_iff {x : X8088Executor} {op : Op} (hrun : x.cpu.halted = false)
    (hop : x.mem.read8 (linear x.cpu.cs x.cpu.ip) = op.byte) :
    (∃ x' cont, x.step = some (x', cont) ∧ x'.view = x.view.exec op) ↔ x.Meets op := by
  obtain ⟨cont, hstep⟩ := step_op hrun hop
  rw [hstep, ← stepOp_eq_iff]
  constructor
  · rintro ⟨x', cont', heq, hview⟩
    cases heq
    exact hview
  · exact fun hview => ⟨_, _, rfl, hview⟩

theorem step_refines_iff_movAl :
    ∃ x' cont, (resetWith [0xB0, 0x05]).step = some (x', cont) ∧
      x'.view = (resetWith [0xB0, 0x05]).view.exec (.movByte 0) :=
  (step_refines_iff rfl (by decide)).mpr ⟨by unfold SameByte; decide, by decide⟩

/-- MOV AH,5 loads SP. -/
theorem step_refines_not :
    (resetWith [0xB4, 0x05]).cpu.halted = false ∧
      (resetWith [0xB4, 0x05]).mem.read8 (linear 0xF000 0xFFF0) = (Op.movByte 4).byte ∧
      ¬ ∃ x' cont, (resetWith [0xB4, 0x05]).step = some (x', cont) ∧
        x'.view = (resetWith [0xB4, 0x05]).view.exec (.movByte 4) := by
  refine ⟨rfl, by decide, ?_⟩
  rintro ⟨x', cont, hstep, hview⟩
  obtain ⟨cont', hop⟩ : ∃ cont, (resetWith [0xB4, 0x05]).step =
      some ((resetWith [0xB4, 0x05]).stepOp (.movByte 4), cont) := step_op rfl (by decide)
  rw [hop] at hstep
  cases hstep
  have hsp := ((stepOp_eq_iff _ _).mp hview).1
  revert hsp
  decide

end X8088Executor

end Bemi.I8088
