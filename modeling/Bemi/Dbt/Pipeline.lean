import Mathlib.Data.List.Forall2
import Bemi.Dbt.Core
import Bemi.Dbt.Optimizer
import Bemi.Lib.FlowRel

/-!
# From guest code to executed micro-ops

The three passes in a row: a block is translated, optimized and executed. For the instructions that
the translator keeps the pipeline runs the guest program: registers, flags, memory and the address to
go on at are those of the x86 machine, for blocks of any such instructions that fit the micro-op
array.

Each instruction is simulated by its micro-op; `flow_rel` makes a block of that.
-/

namespace Bemi.Dbt
open Machine X86

variable {M : Type*}

/-! ## Instructions -/

section
variable {io : Callbacks M} {mem : Memory M}

/-- The guest instruction and its micro-op both go on, or both stop with the same address, and the
executor agrees with the guest afterwards. -/
def Simulated (io : Callbacks M) (mem : Memory M) (i : Insn) : Prop :=
  ∀ (g : State M) (t : Executor M × Option BemiWord), Agrees g t.1 ∧ t.2 = none →
    Flow.Rel (fun g t => Agrees g t.1 ∧ t.2 = none) (fun r q => Agrees r.1 q.1 ∧ q.2 = .ok r.2)
      (X86.step mem i g) (microStep io (microOp i) t)

lemma simulated_next {i : Insn}
    (hstep : ∀ (g : State M) (e : Executor M), Agrees g e → ∃ g' e', X86.step mem i g = .next g' ∧
      microStep io (microOp i) (e, none) = .next (e', none) ∧ Agrees g' e') :
    Simulated io mem i := by
  rintro g ⟨e, ip⟩ ⟨hagree, rfl⟩
  obtain ⟨g', e', hguest, huop, hagree'⟩ := hstep g e hagree
  rw [huop, hguest]
  exact .next ⟨hagree', rfl⟩

lemma simulated_stop {i : Insn}
    (hstep : ∀ (g : State M) (e : Executor M), Agrees g e → ∃ g' e' ip,
      X86.step mem i g = .stop (g', ip) ∧
      microStep io (microOp i) (e, none) = .stop (e', .ok ip) ∧ Agrees g' e') :
    Simulated io mem i := by
  rintro g ⟨e, ip⟩ ⟨hagree, rfl⟩
  obtain ⟨g', e', ip, hguest, huop, hagree'⟩ := hstep g e hagree
  rw [huop, hguest]
  exact .stop ⟨hagree', rfl⟩

lemma simulated_binaryReg (op : BinOp) (dst src : Gpr) :
    Simulated io mem (.binary op dst (.reg src)) := by
  refine simulated_next fun g e h => ?_
  have hd := h.gpr dst
  have hs := h.gpr src
  cases op with
  | add =>
    refine ⟨_, _, rfl, rfl, ?_⟩
    rw [State.operand, ← hd, ← hs]
    exact (h.write dst _).setFlags _ (flagsOf_add _ _ _)
  | sub =>
    refine ⟨_, _, rfl, rfl, ?_⟩
    rw [State.operand, ← hd, ← hs]
    exact (h.write dst _).setFlags _ (flagsOf_sub _ _ _)
  | cmp =>
    refine ⟨_, _, rfl, rfl, ?_⟩
    rw [State.operand, ← hd, ← hs]
    exact h.setFlags _ (flagsOf_sub _ _ _)
  | and | or | xor =>
    refine ⟨_, _, rfl, rfl, ?_⟩
    rw [State.operand, ← hd, ← hs]
    exact (h.write dst _).setFlags _ (flagsOf_logic _ _)

lemma simulated_binaryImm {op : BinOp} (hop : keepsImmediate op = true) (dst : Gpr) (v : UInt64) :
    Simulated io mem (.binary op dst (.imm v)) := by
  refine simulated_next fun g e h => ?_
  have hd := h.gpr dst
  cases op with
  | add =>
    refine ⟨_, _, rfl, rfl, ?_⟩
    rw [State.operand, ← hd]
    exact (h.write dst _).setFlags _ (flagsOf_add _ _ _)
  | sub =>
    refine ⟨_, _, rfl, rfl, ?_⟩
    rw [State.operand, ← hd]
    exact (h.write dst _).setFlags _ (flagsOf_sub _ _ _)
  | cmp =>
    refine ⟨_, _, rfl, rfl, ?_⟩
    rw [State.operand, ← hd]
    exact h.setFlags _ (flagsOf_sub _ _ _)
  | and | or | xor => cases hop

/-- `INC` and `DEC` put the old CF back. -/
lemma Agrees.keepCarry {g : State M} {e e' : Executor M} {flags : Flags} (h : Agrees g e)
    (h' : Agrees { g with flags := flags } e') :
    Agrees { g with flags := { flags with cf := g.flags.cf } }
      (e'.setFlags ((e'.getFlags &&& ~~~0x01) ||| (e.getFlags &&& 0x01))) := by
  refine h'.setFlags _ ?_
  have hget := getFlags_setFlags e'.regs ((e'.getFlags &&& ~~~0x01) ||| (e.getFlags &&& 0x01))
  rw [← h.flags, ← show flagsOf e'.getFlags = flags from h'.flags, ← flagsOf_keepCarry]
  exact congrArg flagsOf hget

lemma simulated_inc (dst : Gpr) : Simulated io mem (.inc dst) := by
  refine simulated_next fun g e h => ⟨_, _, rfl, rfl, ?_⟩
  rw [← h.gpr dst]
  have hset := h.write dst (e.read (general dst) + 1)
  exact hset.keepCarry (hset.setFlags _ (flagsOf_add _ (e.read (general dst)) 1))

lemma simulated_dec (dst : Gpr) : Simulated io mem (.dec dst) := by
  refine simulated_next fun g e h => ⟨_, _, rfl, rfl, ?_⟩
  rw [← h.gpr dst]
  have hset := h.write dst (e.read (general dst) - 1)
  exact hset.keepCarry (hset.setFlags _ (flagsOf_sub _ (e.read (general dst)) 1))

/-! ### Memory -/

lemma load_eq (himpl : Implements io mem) (e : Executor M) (addr : UInt64) :
    e.load io addr true = ({ e with mem := (mem.load e.mem addr).1 }, (mem.load e.mem addr).2) := by
  obtain ⟨mr, hmr, hload⟩ := himpl.read
  rw [Executor.load, hmr, ← hload _ _ 0]

lemma store_eq (himpl : Implements io mem) (e : Executor M) (addr val : UInt64) :
    e.store io addr true val = { e with mem := mem.store e.mem addr val } := by
  obtain ⟨mw, hmw, hstore⟩ := himpl.write
  rw [Executor.store, hmw, ← hstore]

lemma Agrees.read_rsp {g : State M} {e : Executor M} (h : Agrees g e) :
    e.read .rsp = g.gpr rsp :=
  h.gpr rsp

/-- The address of a memory operand. -/
lemma Agrees.address {g : State M} {e : Executor M} (h : Agrees g e) (base : Option Gpr)
    (disp : UInt64) : e.read (baseRegister base) + disp = g.address base disp := by
  cases base with
  | none => rfl
  | some r => exact congrArg (· + disp) (h.gpr r)

lemma simulated_load (himpl : Implements io mem) (dst : Gpr) (base : Option Gpr) (disp : UInt64) :
    Simulated io mem (.load dst base disp) := by
  refine simulated_next fun g e h => ?_
  have haddr := h.address base disp
  refine ⟨_, (e.load io (g.address base disp) true).1.write (general dst)
    (e.load io (g.address base disp) true).2, rfl, ?_, ?_⟩
  · rw [← haddr]
    rfl
  · rw [load_eq himpl, h.mem]
    exact (h.write dst _).setMem rfl

lemma simulated_store (himpl : Implements io mem) (base : Option Gpr) (disp : UInt64) (src : Gpr) :
    Simulated io mem (.store base disp src) := by
  refine simulated_next fun g e h => ?_
  have haddr := h.address base disp
  refine ⟨_, e.store io (g.address base disp) true (e.read (general src)), rfl, ?_, ?_⟩
  · rw [← haddr]
    rfl
  · rw [store_eq himpl, h.mem, h.gpr]
    exact h.setMem rfl

lemma simulated_push (himpl : Implements io mem) (src : Gpr) : Simulated io mem (.push src) := by
  refine simulated_next fun g e h => ?_
  refine ⟨_, (e.write .rsp (e.read .rsp - 8)).store io (e.read .rsp - 8) true
    (e.read (general src)), rfl, rfl, ?_⟩
  rw [store_eq himpl, h.read_rsp, h.gpr]
  exact (h.write rsp _).setMem (congrArg (mem.store · _ _) h.mem)

lemma simulated_pop (himpl : Implements io mem) (dst : Gpr) : Simulated io mem (.pop dst) := by
  refine simulated_next fun g e h => ?_
  refine ⟨_, ((e.load io (e.read .rsp) true).1.write .rsp (e.read .rsp + 8)).write (general dst)
    (e.load io (e.read .rsp) true).2, rfl, rfl, ?_⟩
  rw [load_eq himpl, h.read_rsp, h.mem]
  exact ((h.write rsp _).write dst _).setMem rfl

lemma simulated_ret (himpl : Implements io mem) : Simulated io mem .ret := by
  refine simulated_stop fun g e h => ?_
  refine ⟨_, (e.load io (e.read .rsp) true).1.write .rsp (e.read .rsp + 8), _, rfl, ?_, ?_⟩
  · rw [← h.read_rsp, ← h.mem, ← congrArg Prod.snd (load_eq himpl e (e.read .rsp))]
    rfl
  · rw [load_eq himpl, h.read_rsp, h.mem]
    exact (h.write rsp _).setMem rfl

/-- Every instruction of the core is simulated by its micro-op. -/
theorem simulated_decodes (himpl : Implements io mem) {guest : GuestInstruction} {i : Insn}
    (hdec : Decodes guest i) : Simulated io mem i := by
  cases hdec with
  | nop => exact simulated_next fun g e h => ⟨g, e, rfl, rfl, h⟩
  | @binaryReg op dst src => exact simulated_binaryReg op dst src
  | @binaryImm op dst hm hop => exact simulated_binaryImm hop dst _
  | @inc dst => exact simulated_inc dst
  | @dec dst => exact simulated_dec dst
  | @movReg dst src =>
    refine simulated_next fun g e h => ⟨_, _, rfl, rfl, ?_⟩
    rw [State.operand, ← h.gpr]
    exact h.write dst _
  | @movImm dst => exact simulated_next fun g e h => ⟨_, _, rfl, rfl, h.write dst _⟩
  | @load dst base disp => exact simulated_load himpl dst base disp
  | @store base disp src => exact simulated_store himpl base disp src
  | @movsxd dst src =>
    refine simulated_next fun g e h => ⟨_, _, rfl, rfl, ?_⟩
    rw [← h.gpr]
    exact h.write dst _
  | @push src => exact simulated_push himpl src
  | @pop dst => exact simulated_pop himpl dst
  | @jmp target =>
    refine simulated_stop fun g e h => ⟨g, e, _, rfl, ?_, h⟩
    rw [← h.gpr]
    rfl
  | ret => exact simulated_ret himpl
  | hlt => exact simulated_stop fun g e h => ⟨g, e, none, rfl, rfl, h⟩

end

/-! ## Blocks -/

/-- The optimizer keeps the run of a block that moves nothing to `RNone`. -/
theorem executeBlock_optimizeBlock (io : Callbacks M) {tb : TranslationBlock}
    (h : ∀ uop ∈ tb.active, uop.code = .movRR → uop.dst ≠ .rNone) (e : Executor M) :
    executeBlock io e (optimizeBlock tb) = executeBlock io e tb := by
  have hidle : ZeroingIdle io tb e := by
    intro pre a b post hact hpair
    have ha : a ∈ essential tb.active := by simp [hact]
    exact absurd hpair.2.2.1 (h a (List.mem_of_mem_filter ha) hpair.1)
  have hsame := (zeroingIdle_iff_harmless io tb e).mp hidle
  rw [executeBlock_eq, active_optimizeBlock, flow_squash (backToBack_same io) _ _ hsame,
    executeBlock_essential]

/-- A move of the core has a general register for its destination. -/
lemma microOp_movRR {i : Insn} (h : (microOp i).code = .movRR) : (microOp i).dst ≠ .rNone := by
  cases i with
  | mov dst src =>
    cases src with
    | reg src => exact (Register.isGeneral_ne (general_isGeneral dst)).1
    | imm v => cases h
  | binary op dst src => cases src <;> cases op <;> cases h
  | _ => cases h

lemma flatMap_uopsOf_decodes {guest : List GuestInstruction} {prog : List Insn}
    (hdec : List.Forall₂ Decodes guest prog) :
    (guest.map GuestInstruction.toInstruction).flatMap uopsOf = prog.map microOp := by
  induction hdec with
  | nil => rfl
  | cons hi _ ih => rw [List.map_cons, List.flatMap_cons, uopsOf_decodes hi, ih]; rfl

/-- A block of core instructions is simulated by the micro-ops of its instructions. -/
lemma flow_microOps {io : Callbacks M} {mem : Memory M} (himpl : Implements io mem)
    {guest : List GuestInstruction} {prog : List Insn} (hdec : List.Forall₂ Decodes guest prog)
    {g : State M} {e : Executor M} (h : Agrees g e) :
    ∃ e', runUops io (prog.map microOp) e = (e', .ok (X86.run mem prog g).2) ∧
      Agrees (X86.run mem prog g).1 e' := by
  have hboth : List.Forall₂ (fun i guest => Simulated io mem i ∧ Decodes guest i) prog guest :=
    (hdec.imp fun _ _ hi => ⟨simulated_decodes himpl hi, hi⟩).flip
  have hsim := ((List.forall₂_and_left prog guest).mp hboth).1
  have hrel := flow_rel hsim (s := g) (t := (e, none)) ⟨h, rfl⟩
  obtain ⟨hagree, hres⟩ := hrel.finish (fun s => (s, none)) microDone
    fun s t hst => ⟨hst.1, by rw [microDone, hst.2]⟩
  rw [runUops, flow_map]
  exact ⟨_, Prod.ext rfl hres, hagree⟩

/-- Translating a block of core instructions, optimizing it and executing it runs the guest
program. -/
theorem pipeline_simulates {io : Callbacks M} {mem : Memory M} (himpl : Implements io mem)
    {decoder : Decoder} {code : List UInt8} {x86Ip : UInt64} {bitness : UInt32}
    {tb : TranslationBlock} (htb : translateBlock decoder code x86Ip bitness = .ok tb)
    {guest : List GuestInstruction} {prog : List Insn}
    (hblock : blockOf (decoder code x86Ip bitness) = guest.map GuestInstruction.toInstruction)
    (hdec : List.Forall₂ Decodes guest prog) (hfit : prog.length ≤ maxMicroOpsPerBlock)
    {g : State M} {e : Executor M} (h : Agrees g e) :
    ∃ e', executeBlock io e (optimizeBlock tb) = (e', .ok (X86.run mem prog g).2) ∧
      Agrees (X86.run mem prog g).1 e' := by
  have hact : tb.active = prog.map microOp := by
    rw [(translateBlock_spec htb).1, hblock, flatMap_uopsOf_decodes hdec]
    exact List.take_of_length_le (by rwa [List.length_map])
  have hmov : ∀ uop ∈ tb.active, uop.code = .movRR → uop.dst ≠ .rNone := by
    rw [hact, List.forall_mem_map]
    exact fun i _ hi => microOp_movRR hi
  rw [executeBlock_optimizeBlock io hmov, executeBlock_eq, hact]
  exact flow_microOps himpl hdec h

/-- `ADD RAX, RBX`, `PUSH RAX`, `RET`. -/
def addPushRet : List GuestInstruction :=
  let plain (m : Mnemonic) (op0 op1 : IcedRegister) : GuestInstruction :=
    { byteInstruction 0x90 0x1000 with
      mnemonic := m
      op0Register := op0
      op1Register := op1
      memoryIndex := .other 0
      memoryIndexScale := 1
      memorySize := 8
      immediate := 0
      immediate64_eq := by decide }
  [plain .add .rax .rbx, plain .push .rax (.other 0), plain .ret (.other 0) (.other 0)]

/-- A decoder that is right on the one buffer that holds these instructions. -/
def addPushRetDecoder : Decoder
  | [0x48, 0x01, 0xD8, 0x50, 0xC3], _, _ => addPushRet.map GuestInstruction.toInstruction
  | _, _, _ => []

/-- A memory of words, each at its own address. -/
def wordMemory : Memory (UInt64 → UInt64) where
  load m addr := (m, m addr)
  store m addr v := fun a => if a = addr then v else m a

def wordCallbacks : Callbacks (UInt64 → UInt64) where
  memoryRead := some fun m addr _ _ => wordMemory.load m addr
  memoryWrite := some fun m addr _ v => wordMemory.store m addr v

/-- With RAX = 2 and RBX = 0x40 the return goes to 0x42. -/
theorem pipeline_simulates_return :
    ∃ tb e', translateBlock addPushRetDecoder [0x48, 0x01, 0xD8, 0x50, 0xC3] 0x1000 64 = .ok tb ∧
      executeBlock wordCallbacks
          ⟨(RegisterFile.new.write .rax 2).write .rbx 0x40, fun _ => 0⟩ (optimizeBlock tb) =
        (e', .ok (some 0x42)) ∧ e'.read .rax = 0x42 ∧ e'.read .rsp = 0 := by
  let g : State (UInt64 → UInt64) :=
    { gpr := fun r => if r = 0 then 2 else if r = 3 then 0x40 else 0
      flags := ⟨false, false, false, false⟩
      mem := fun _ => 0 }
  have hagree : Agrees g ⟨(RegisterFile.new.write .rax 2).write .rbx 0x40, fun _ => 0⟩ :=
    ⟨by decide, by decide, rfl⟩
  have hdec : List.Forall₂ Decodes addPushRet [.binary .add 0 (.reg 3), .push 0, .ret] :=
    .cons (.binaryReg rfl rfl rfl rfl rfl) (.cons (.push rfl rfl rfl) (.cons (.ret rfl rfl) .nil))
  have himpl : Implements wordCallbacks wordMemory :=
    ⟨⟨_, rfl, fun _ _ _ => rfl⟩, ⟨_, rfl, fun _ _ _ => rfl⟩⟩
  obtain ⟨tb, htb⟩ := translateBlock_ok addPushRetDecoder [0x48, 0x01, 0xD8, 0x50, 0xC3] 0x1000 64
    (by decide)
  obtain ⟨e', hexec, hafter⟩ := pipeline_simulates himpl htb rfl hdec (by decide) hagree
  exact ⟨tb, e', htb, hexec, hafter.gpr 0, (hafter.gpr rsp).trans (by decide)⟩

end Bemi.Dbt
