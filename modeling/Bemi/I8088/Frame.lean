import Bemi.I8088.Termination

/-!
# The frame of a step

What a step leaves alone. The memory changes at a PUSH or a CALL only, and then at the two bytes of
the word below SP; DS, ES, SS and the flags never change.
-/

namespace Bemi.I8088
open I8086 (Op physical lowByte highByte)

/-- The opcode bytes of PUSH and CALL. -/
def Pushes (b : UInt8) : Prop := 0x50 ≤ b ∧ b ≤ 0x57 ∨ b = 0xE8

instance (b : UInt8) : Decidable (Pushes b) := inferInstanceAs (Decidable (_ ∨ _))

/-- The next address of the memory, which wraps. -/
def next (a : I8086.Address) : I8086.Address :=
  ⟨(a.val + 1) % 0x100000, Nat.mod_lt _ (by decide)⟩

/-- The registers that no step changes. -/
structure SameSegments (cpu cpu' : Cpu8088) : Prop where
  ds : cpu'.ds = cpu.ds
  es : cpu'.es = cpu.es
  ss : cpu'.ss = cpu.ss
  flags : cpu'.flags = cpu.flags

lemma not_pushes_pop : ∀ r, ¬ Pushes (Op.pop r).byte := by decide

lemma not_pushes_mov : ∀ r, ¬ Pushes (Op.movByte r).byte ∧ ¬ Pushes (Op.movWord r).byte := by decide

lemma pushes_push : ∀ r, Pushes (Op.push r).byte := by decide

lemma push_ne_call : ∀ r, (Op.push r).byte ≠ 0xE8 := by decide

lemma push_reg : ∀ r, (Op.push r).byte &&& 7 = .ofNat r := by decide

/-- A PUSH or a CALL is one of the manual's instructions. -/
lemma Pushes.exists_op {b : UInt8} (h : Pushes b) : ∃ op : Op, b = op.byte := by
  cases h with
  | inl hpush =>
    have hreg := (exists_reg ⟨b.toNat, b.toNat_lt⟩).1
    rw [UInt8.ofNat_toNat] at hreg
    have hupper : b.toNat ≤ 0x5F := Nat.le_trans hpush.2 (by decide)
    obtain ⟨r, hr | hr⟩ := hreg ⟨hpush.1, hupper⟩
    · exact ⟨_, hr⟩
    · exact ⟨_, hr⟩
  | inr hcall => exact ⟨.call, hcall⟩

lemma index_linear_next (seg off : UInt16) :
    Memory8088.index (linear seg off + 1) = next (physical seg off) := by
  apply Fin.ext
  rw [index_linear_succ]
  exact (Nat.mod_add_mod _ _ _).symm

lemma next_ne (seg off : UInt16) : next (physical seg off) ≠ physical seg off := by
  rw [← index_linear_next]
  exact index_succ_ne seg off

/-- The interrupt handler writes AX at most. -/
lemma handleInt_spec {bios bios' : BiosShim} {cpu cpu' : Cpu8088} {mem : Memory8088}
    {intNum : UInt8} {consumed : Bool}
    (h : bios.handleInt cpu mem intNum = some (bios', cpu', consumed)) :
    ∃ ax, cpu' = { cpu with ax } := by
  rw [BiosShim.handleInt] at h
  simp only at h
  split_ifs at h <;> cases h <;> exact ⟨_, rfl⟩

namespace X8088Executor

/-- The slot of the word that a PUSH or a CALL writes. -/
def slot (x : X8088Executor) : I8086.Address :=
  physical x.cpu.ss (x.cpu.sp - 2)

/-- The word that it writes: the offset behind a CALL, or the register before SP moves. -/
def pushedWord (x : X8088Executor) (b : UInt8) : UInt16 :=
  if b = 0xE8 then x.cpu.ip + 3 else x.readGp16 (b &&& 7)

lemma pushedWord_push (x : X8088Executor) (r : I8086.Reg) :
    x.pushedWord (Op.push r).byte = x.gp r := by
  rw [pushedWord, if_neg (push_ne_call r), push_reg, gp]

lemma pushWord_ram (x : X8088Executor) (v : UInt16) :
    (x.pushWord v).mem.ram =
      Function.update (Function.update x.mem.ram x.slot (lowByte v)) (next x.slot)
        (highByte v) := by
  rw [slot, ← index_linear_next, ← index_linear]
  exact write16_ram _ _ _

lemma writeGp16_mem (x : X8088Executor) (idx : UInt8) (v : UInt16) :
    (x.writeGp16 idx v).mem = x.mem := by
  rw [writeGp16]
  split <;> rfl

lemma writeGp16_segments (x : X8088Executor) (idx : UInt8) (v : UInt16) :
    SameSegments x.cpu (x.writeGp16 idx v).cpu := by
  rw [writeGp16]
  split <;> exact ⟨rfl, rfl, rfl, rfl⟩

lemma stepOp_segments (x : X8088Executor) (op : Op) : SameSegments x.cpu (x.stepOp op).cpu := by
  cases op with
  | pop r =>
    obtain ⟨hds, hes, hss, hflags⟩ :=
      writeGp16_segments (x.setSp (x.cpu.sp + 2)) (.ofNat r) x.topWord
    exact ⟨hds, hes, hss, hflags⟩
  | movByte r =>
    obtain ⟨hds, hes, hss, hflags⟩ := writeGp16_segments x (.ofNat r) x.operand8.toUInt16
    exact ⟨hds, hes, hss, hflags⟩
  | movWord r =>
    obtain ⟨hds, hes, hss, hflags⟩ := writeGp16_segments x (.ofNat r) x.operand16
    exact ⟨hds, hes, hss, hflags⟩
  | _ => exact ⟨rfl, rfl, rfl, rfl⟩

/-- The instructions that push leave the word at the slot. -/
lemma stepOp_pushes (x : X8088Executor) {op : Op} (h : Pushes op.byte) :
    (x.stepOp op).mem = (x.pushWord (x.pushedWord op.byte)).mem ∧
      (x.stepOp op).cpu.sp = x.cpu.sp - 2 := by
  cases op with
  | call => exact ⟨rfl, rfl⟩
  | push r =>
    rw [pushedWord_push]
    exact ⟨rfl, rfl⟩
  | pop r => exact absurd h (not_pushes_pop r)
  | movByte r => exact absurd h (not_pushes_mov r).1
  | movWord r => exact absurd h (not_pushes_mov r).2
  | _ => exact absurd h (by decide)

/-- The others leave the memory as it is. -/
lemma stepOp_mem (x : X8088Executor) {op : Op} (h : ¬ Pushes op.byte) :
    (x.stepOp op).mem = x.mem := by
  cases op with
  | call => exact absurd (Or.inr rfl) h
  | push r => exact absurd (pushes_push r) h
  | pop r => exact writeGp16_mem (x.setSp (x.cpu.sp + 2)) (.ofNat r) x.topWord
  | movByte r => exact writeGp16_mem x (.ofNat r) x.operand8.toUInt16
  | movWord r => exact writeGp16_mem x (.ofNat r) x.operand16
  | _ => rfl

/-- What a step leaves when it is neither a PUSH nor a CALL. -/
lemma step_not_pushes {x x' : X8088Executor} {cont : Bool} (hrun : x.cpu.halted = false)
    (hpush : ¬ Pushes (x.mem.read8 (linear x.cpu.cs x.cpu.ip))) (hstep : x.step = some (x', cont)) :
    x'.mem = x.mem ∧ SameSegments x.cpu x'.cpu := by
  obtain ⟨op, cont', hop, hspec⟩ | ⟨-, hspec⟩ | ⟨-, ip, cont', hspec⟩ := step_cases hrun
  · rw [hspec] at hstep
    cases hstep
    rw [hop] at hpush
    exact ⟨stepOp_mem x hpush, stepOp_segments x op⟩
  · rw [hspec, Option.map_eq_some_iff] at hstep
    obtain ⟨⟨bios, cpu, consumed⟩, hhandle, heq⟩ := hstep
    cases heq
    obtain ⟨ax, rfl⟩ := handleInt_spec hhandle
    exact ⟨rfl, rfl, rfl, rfl, rfl⟩
  · rw [hspec] at hstep
    cases hstep
    exact ⟨rfl, rfl, rfl, rfl, rfl⟩

/-- What a PUSH or a CALL leaves. -/
lemma step_pushes {x x' : X8088Executor} {cont : Bool} (hrun : x.cpu.halted = false)
    (hpush : Pushes (x.mem.read8 (linear x.cpu.cs x.cpu.ip))) (hstep : x.step = some (x', cont)) :
    x'.mem = (x.pushWord (x.pushedWord (x.mem.read8 (linear x.cpu.cs x.cpu.ip)))).mem ∧
      x'.cpu.sp = x.cpu.sp - 2 ∧ SameSegments x.cpu x'.cpu := by
  obtain ⟨op, hop⟩ := hpush.exists_op
  obtain ⟨cont', hspec⟩ := step_op hrun hop
  rw [hspec] at hstep
  cases hstep
  rw [hop] at hpush ⊢
  obtain ⟨hmem, hsp⟩ := stepOp_pushes x hpush
  exact ⟨hmem, hsp, stepOp_segments x op⟩

/-- A step writes to the slot of the word below SP at most, and only when it is a PUSH or a CALL;
then the word is there and SP has gone down by two. -/
theorem step_frame {x x' : X8088Executor} {cont : Bool} (hstep : x.step = some (x', cont)) :
    (∀ a, a ≠ x.slot → a ≠ next x.slot → x'.mem.ram a = x.mem.ram a) ∧
      (¬ Pushes (x.mem.read8 (linear x.cpu.cs x.cpu.ip)) → x'.mem.ram = x.mem.ram) ∧
      (x.cpu.halted = false → Pushes (x.mem.read8 (linear x.cpu.cs x.cpu.ip)) →
        x'.mem.ram x.slot = lowByte (x.pushedWord (x.mem.read8 (linear x.cpu.cs x.cpu.ip))) ∧
          x'.mem.ram (next x.slot) =
            highByte (x.pushedWord (x.mem.read8 (linear x.cpu.cs x.cpu.ip))) ∧
          x'.cpu.sp = x.cpu.sp - 2) ∧
      x'.cpu.ds = x.cpu.ds ∧ x'.cpu.es = x.cpu.es ∧ x'.cpu.ss = x.cpu.ss ∧
      x'.cpu.flags = x.cpu.flags := by
  by_cases hrun : x.cpu.halted = false
  · by_cases hpush : Pushes (x.mem.read8 (linear x.cpu.cs x.cpu.ip))
    · obtain ⟨hmem, hsp, hds, hes, hss, hflags⟩ := step_pushes hrun hpush hstep
      have hne : next x.slot ≠ x.slot := next_ne x.cpu.ss (x.cpu.sp - 2)
      refine ⟨?_, fun h => absurd hpush h, fun _ _ => ⟨?_, ?_, hsp⟩, hds, hes, hss, hflags⟩
      · intro a ha ha'
        rw [hmem, pushWord_ram, Function.update_of_ne ha', Function.update_of_ne ha]
      · rw [hmem, pushWord_ram, Function.update_of_ne hne.symm, Function.update_self]
      · rw [hmem, pushWord_ram, Function.update_self]
    · obtain ⟨hmem, hds, hes, hss, hflags⟩ := step_not_pushes hrun hpush hstep
      rw [hmem]
      exact ⟨fun _ _ _ => rfl, fun _ => rfl, fun _ h => absurd h hpush, hds, hes, hss, hflags⟩
  · rw [step_halted hrun] at hstep
    cases hstep
    exact ⟨fun _ _ _ => rfl, fun _ => rfl, fun h => absurd h hrun, rfl, rfl, rfl, rfl⟩

/-- PUSH AX after reset. -/
theorem step_frame_push :
    ∃ x' : X8088Executor, ∃ cont,
      (resetWith [0x50]).step = some (x', cont) ∧ x'.cpu.sp = 0xFFFC := by
  obtain ⟨cont, hstep⟩ :
      ∃ cont, (resetWith [0x50]).step = some ((resetWith [0x50]).stepOp (.push 0), cont) :=
    step_op rfl (by decide)
  exact ⟨_, cont, hstep, ((step_frame hstep).2.2.1 rfl (by decide)).2.2⟩

end X8088Executor

end Bemi.I8088
