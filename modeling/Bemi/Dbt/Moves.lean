import Bemi.Dbt.Operand
import Bemi.Lib.Ram

/-!
# Memory and immediate operands

`MOV` and `PUSH` on 64-bit registers, immediates and memory operands: what the translation does to
the registers and to memory, against x86. Memory is a RAM that records its accesses. A micro-op has
one base register and one immediate, so an index is dropped, `MovMI` has no room for both its
displacement and its data, and `PUSH` looks at a register only. iced's `immediate64()` is meant for
64-bit immediates: it does not extend the sign of the shorter ones.
-/

namespace Bemi.Dbt
open Machine Parts Ram

/-! ## Memory -/

inductive Access where
  | read (addr : UInt64) (size : Nat)
  | write (addr : UInt64) (size : Nat)
  deriving DecidableEq

/-- Bytes, and the accesses to them so far. -/
structure TracedRam where
  bytes : Bytes
  accesses : List Access

/-- A 64-bit value as bytes, least significant first. -/
def byteOf (v : UInt64) (i : Nat) : UInt8 :=
  UInt8.ofNat (v.toNat / 256 ^ i)

def TracedRam.load (m : TracedRam) (addr : UInt64) (size : Nat) : TracedRam × UInt64 :=
  (⟨m.bytes, m.accesses ++ [.read addr size]⟩, UInt64.ofNat (number m.bytes addr size))

def TracedRam.store (m : TracedRam) (addr : UInt64) (size : Nat) (v : UInt64) : TracedRam :=
  ⟨storeBytes m.bytes addr (byteOf v) size, m.accesses ++ [.write addr size]⟩

/-- Narrow accesses are one byte wide. -/
def tracedCallbacks : Callbacks TracedRam where
  memoryRead := some fun m addr wide _ =>
    m.load addr (if wide then 8 else 1)
  memoryWrite := some fun m addr wide val => m.store addr (if wide then 8 else 1) val

/-- What has been stored tells the value. -/
lemma TracedRam.store_inj {m : TracedRam} {addr addr' v v' : UInt64} {size : Nat}
    (h : m.store addr 8 v = m.store addr' size v') : addr = addr' ∧ size = 8 ∧ v = v' := by
  obtain ⟨hbytes, haccesses⟩ := TracedRam.mk.inj h
  obtain ⟨rfl, rfl⟩ := Access.write.inj (List.cons.inj (List.append_cancel_left haccesses)).1
  refine ⟨rfl, rfl, ?_⟩
  rw [← load64_store64 m.bytes addr v, ← load64_store64 m.bytes addr v']
  exact congrArg (load64 · addr) hbytes

/-! ## What x86 says -/

/-- An instruction with what its operands say beside what the translator reads of them. The size is
that of the memory operand in bytes. iced keeps the low half of an immediate by itself; the high half
of a 64-bit one is where a displacement is, and `immediate64()` puts the two together whatever the
kind of the operand. -/
structure GuestInstruction extends Instruction where
  memoryIndex : IcedRegister
  memoryIndexScale : UInt64
  memorySize : Nat
  immediate : UInt32
  immediate64_eq : immediate64 = memoryDisplacement64 <<< 32 ||| immediate.toUInt64

/-- The value of a register operand; an absent base or index counts as 0, and so does RIP, which the
displacement already contains. -/
def IcedRegister.value {M : Type*} (r : IcedRegister) (e : Executor M) : UInt64 :=
  match r.view with
  | some (reg, p) => p.get (e.read reg)
  | none => 0

def IcedRegister.is32 (r : IcedRegister) : Bool :=
  match r.view with
  | some (_, .low32) => true
  | _ => false

namespace GuestInstruction

/-- `[base + index*scale + disp]`, cut to 32 bits if the address registers are. -/
def effectiveAddress {M : Type*} (g : GuestInstruction) (e : Executor M) : UInt64 :=
  let sum := g.memoryBase.value e + g.memoryIndex.value e * g.memoryIndexScale +
    g.memoryDisplacement64
  if g.memoryBase.is32 || g.memoryIndex.is32 then sum &&& 0xFFFFFFFF else sum

/-- The value of an immediate operand, extended as its kind says. -/
def immediateValue (g : GuestInstruction) : OpKind → UInt64
  | .immediate8 => g.immediate.toUInt8.toUInt64
  | .immediate16 => g.immediate.toUInt16.toUInt64
  | .immediate32 => g.immediate.toUInt64
  | .immediate8to16 => g.immediate.toUInt8.toInt8.toInt16.toUInt16.toUInt64
  | .immediate8to32 => g.immediate.toUInt8.toInt8.toInt32.toUInt32.toUInt64
  | .immediate8to64 => g.immediate.toUInt8.toInt8.toInt64.toUInt64
  | .immediate32to64 => g.immediate.toInt32.toInt64.toUInt64
  | _ => g.immediate64

/-- Read a source operand. -/
def fetch (g : GuestInstruction) (kind : OpKind) (reg : IcedRegister) (e : Executor TracedRam) :
    Executor TracedRam × UInt64 :=
  match kind with
  | .register => (e, reg.value e)
  | .memory =>
    let (mem, v) := e.mem.load (g.effectiveAddress e) g.memorySize
    ({ e with mem := mem }, v)
  | _ => (e, g.immediateValue kind)

def x86Mov (g : GuestInstruction) (e : Executor TracedRam) : Executor TracedRam :=
  let (e', v) := g.fetch g.op1Kind g.op1Register e
  if g.op0Kind = .memory then
    { e' with mem := e'.mem.store (g.effectiveAddress e) g.memorySize v }
  else e'.write (mapRegister g.op0Register) v

/-- The bytes that a `PUSH` of the operand puts on the stack. -/
def pushSize (g : GuestInstruction) : Nat :=
  match g.op0Kind with
  | .immediate16 | .immediate8to16 => 2
  | .immediate32 | .immediate8to32 => 4
  | .memory => g.memorySize
  | _ => 8

def x86Push (g : GuestInstruction) (e : Executor TracedRam) : Executor TracedRam :=
  let (e', v) := g.fetch g.op0Kind g.op0Register e
  let rsp := e.read .rsp - UInt64.ofNat g.pushSize
  { e'.write .rsp rsp with mem := e'.mem.store rsp g.pushSize v }

def x86Move (g : GuestInstruction) (e : Executor TracedRam) : Executor TracedRam :=
  if g.mnemonic = .push then g.x86Push e else g.x86Mov e

end GuestInstruction

/-- The forms of `MOV` and `PUSH`. Without a register operand iced's `op0_register` is its
`None`. -/
inductive MoveForm (g : GuestInstruction) : Prop where
  | regReg {dst src} :
    g.mnemonic = .mov → g.op0Kind = .register → g.op1Kind = .register →
    g.op0Register.view = some (dst, .full) →
    g.op1Register.view = some (src, .full) →
    MoveForm g
  | regImm {dst} :
    g.mnemonic = .mov → g.op0Kind = .register → isImm g.op1Kind = true →
    g.op0Register.view = some (dst, .full) →
    MoveForm g
  | regMem {dst} :
    g.mnemonic = .mov → g.op0Kind = .register → g.op1Kind = .memory →
    g.op0Register.view = some (dst, .full) →
    g.memorySize = 8 →
    MoveForm g
  | memReg {src} :
    g.mnemonic = .mov → g.op0Kind = .memory → g.op1Kind = .register →
    g.op1Register.view = some (src, .full) →
    g.memorySize = 8 →
    MoveForm g
  | memImm :
    g.mnemonic = .mov → g.op0Kind = .memory → isImm g.op1Kind = true →
    MoveForm g
  | pushReg {src} :
    g.mnemonic = .push → g.op0Kind = .register →
    g.op0Register.view = some (src, .full) →
    MoveForm g
  | pushImm :
    g.mnemonic = .push → isImm g.op0Kind = true →
    g.op0Register.view = none →
    MoveForm g
  | pushMem :
    g.mnemonic = .push → g.op0Kind = .memory →
    g.op0Register.view = none →
    MoveForm g

/-! ## When the translation is right -/

/-- What the form asks of its operands: an address that its base and displacement make up alone; for
`MOV` of an immediate to a register one that `immediate64()` tells right, and to memory the one value
and size that are always stored, at the one address at which they are; for `PUSH` of an immediate
eight bytes of 0. `PUSH` of a memory operand is never right. -/
def OperandsMet (g : GuestInstruction) (e : Executor TracedRam) : Prop :=
  let base := e.read (mapRegister g.memoryBase)
  match g.mnemonic, g.op0Kind with
  | .push, .register => True
  | .push, .memory => False
  | .push, kind => g.pushSize = 8 ∧ g.immediateValue kind = 0
  | _, .memory =>
    if isImm g.op1Kind then
      g.memorySize = 8 ∧ g.immediateValue g.op1Kind = 0xFF ∧
        base + g.immediate64 = g.effectiveAddress e
    else base + g.memoryDisplacement64 = g.effectiveAddress e
  | _, _ =>
    if isImm g.op1Kind then g.immediate64 = g.immediateValue g.op1Kind
    else g.op1Kind = .memory → base + g.memoryDisplacement64 = g.effectiveAddress e

/-- `immediate64()` tells a sign-extended immediate right exactly when it is not negative. -/
lemma immediate32to64_iff {g : GuestInstruction} (hdisp : g.memoryDisplacement64 = 0) :
    g.immediate64 = g.immediateValue .immediate32to64 ↔ g.immediate < 0x80000000 := by
  have hzero : (0 : UInt64) <<< 32 ||| g.immediate.toUInt64 = g.immediate.toUInt64 := by simp
  have hsign : g.immediate.toInt32.toInt64.toUInt64.toNat =
      g.immediate.toNat + if g.immediate.toBitVec.msb then 2 ^ 64 - 2 ^ 32 else 0 := by
    change (g.immediate.toBitVec.signExtend 64).toNat = _
    rw [BitVec.toNat_signExtend, BitVec.toNat_setWidth_of_le (by decide)]
    rfl
  have hmsb : g.immediate.toBitVec.msb = decide (2 ^ 31 ≤ g.immediate.toNat) :=
    BitVec.msb_eq_decide _
  rw [g.immediate64_eq, hdisp, hzero, GuestInstruction.immediateValue, ← UInt64.toNat_inj, hsign,
    hmsb, UInt32.toNat_toUInt64, UInt32.lt_iff_toNat_lt]
  change _ ↔ g.immediate.toNat < 2 ^ 31
  simp only [decide_eq_true_eq]
  split <;> omega

lemma IcedRegister.value_full {M : Type*} {r : IcedRegister} {reg : Register}
    (h : r.view = some (reg, .full)) (e : Executor M) : r.value e = e.read reg := by
  rw [IcedRegister.value, h]
  exact Part.get_full _

lemma isImm_ne {kind : OpKind} (h : isImm kind = true) : kind ≠ .register ∧ kind ≠ .memory := by
  refine ⟨fun heq => ?_, fun heq => ?_⟩ <;> rw [heq] at h <;> cases h

/-- An immediate is fetched as it is. -/
lemma GuestInstruction.fetch_imm {g : GuestInstruction} {kind : OpKind} (h : isImm kind = true)
    (reg : IcedRegister) (e : Executor TracedRam) :
    g.fetch kind reg e = (e, g.immediateValue kind) := by
  obtain ⟨hreg, hmem⟩ := isImm_ne h
  rw [GuestInstruction.fetch]
  · exact hreg
  · exact hmem

/-- Results that differ in memory only are equal when the memories are. -/
lemma result_mem_iff {e : Executor TracedRam} {m m' : TracedRam} :
    (({ e with mem := m }, .ok none) : Executor TracedRam × ExecResult) =
      ({ e with mem := m' }, .ok none) ↔ m = m' := by
  simp

/-- A store goes where x86 says exactly if it has the same address, size and value. -/
lemma store_iff {m : TracedRam} {addr addr' v v' : UInt64} {size : Nat} :
    m.store addr 8 v = m.store addr' size v' ↔ addr = addr' ∧ size = 8 ∧ v = v' :=
  ⟨TracedRam.store_inj, fun ⟨haddr, hsize, hv⟩ => by rw [haddr, hsize, hv]⟩

/-- The accesses tell where a load has read. -/
lemma load_inj {m : TracedRam} {addr addr' : UInt64} {size : Nat}
    (h : (m.load addr size).1 = (m.load addr' size).1) : addr = addr' := by
  have haccesses := congrArg TracedRam.accesses h
  exact (Access.read.inj (List.cons.inj (List.append_cancel_left haccesses)).1).1

variable {g : GuestInstruction}

lemma translate_regReg {dst src : Register} (hm : g.mnemonic = .mov) (h0 : g.op0Kind = .register)
    (h1 : g.op1Kind = .register) (hdst : g.op0Register.view = some (dst, .full))
    (hsrc : g.op1Register.view = some (src, .full)) (e : Executor TracedRam) :
    runUops tracedCallbacks (uopsOf g.toInstruction) e = (g.x86Move e, .ok none) := by
  have huops : uopsOf g.toInstruction = [(MicroOpInst.new .movRR dst src .rNone 0).withSize 8] := by
    simp [uopsOf, translateInstruction, hm, translateMov, h0, h1, (view_spec hdst).1,
      (view_spec hsrc).1]
  have hx86 : g.x86Move e = e.write dst (e.read src) := by
    simp [GuestInstruction.x86Move, GuestInstruction.x86Mov, GuestInstruction.fetch, hm, h0, h1,
      IcedRegister.value_full hsrc, (view_spec hdst).1]
  rw [huops, runUops_singleton, hx86]
  rfl

lemma translate_regImm_iff {dst : Register} (hm : g.mnemonic = .mov)
    (h0 : g.op0Kind = .register) (h1 : isImm g.op1Kind = true)
    (hdst : g.op0Register.view = some (dst, .full)) (e : Executor TracedRam) :
    runUops tracedCallbacks (uopsOf g.toInstruction) e = (g.x86Move e, .ok none) ↔
      g.immediate64 = g.immediateValue g.op1Kind := by
  have huops : uopsOf g.toInstruction =
      [(MicroOpInst.new .movRI dst .rNone .rNone g.immediate64).withSize 8] := by
    simp [uopsOf, translateInstruction, hm, translateMov, h0, h1, (isImm_ne h1).1,
      (view_spec hdst).1]
  have hx86 : g.x86Move e = e.write dst (g.immediateValue g.op1Kind) := by
    simp [GuestInstruction.x86Move, GuestInstruction.x86Mov, GuestInstruction.fetch_imm h1, hm, h0,
      (view_spec hdst).1]
  have hne := (Register.isGeneral_ne (view_spec hdst).2).1
  rw [huops, runUops_singleton, hx86]
  constructor
  · intro h
    have hread := congrArg (fun r => r.1.regs.read dst) h
    dsimp only [Executor.write] at hread
    rw [RegisterFile.read_write_self _ _ hne] at hread
    exact (RegisterFile.read_write_self _ _ hne).symm.trans hread
  · exact fun h => by rw [← h]; rfl

lemma translate_regMem_iff {dst : Register} (hm : g.mnemonic = .mov) (h0 : g.op0Kind = .register)
    (h1 : g.op1Kind = .memory) (hdst : g.op0Register.view = some (dst, .full))
    (hsize : g.memorySize = 8) (e : Executor TracedRam) :
    runUops tracedCallbacks (uopsOf g.toInstruction) e = (g.x86Move e, .ok none) ↔
      e.read (mapRegister g.memoryBase) + g.memoryDisplacement64 = g.effectiveAddress e := by
  have huops : uopsOf g.toInstruction = [(MicroOpInst.new .movRM dst (mapRegister g.memoryBase)
      .rNone g.memoryDisplacement64).withSize 8] := by
    simp [uopsOf, translateInstruction, hm, translateMov, h0, h1, isImm, (view_spec hdst).1]
  have hx86 : g.x86Move e =
      ⟨(e.write dst (e.mem.load (g.effectiveAddress e) 8).2).regs,
        (e.mem.load (g.effectiveAddress e) 8).1⟩ := by
    simp [GuestInstruction.x86Move, GuestInstruction.x86Mov, GuestInstruction.fetch, hm, h0, h1,
      (view_spec hdst).1, Executor.write, hsize]
  rw [huops, runUops_singleton, hx86]
  constructor
  · exact fun h => load_inj (congrArg (fun r => r.1.mem) h)
  · exact fun h => h ▸ rfl

lemma translate_memReg_iff {src : Register} (hm : g.mnemonic = .mov) (h0 : g.op0Kind = .memory)
    (h1 : g.op1Kind = .register) (hsrc : g.op1Register.view = some (src, .full))
    (hsize : g.memorySize = 8) (e : Executor TracedRam) :
    runUops tracedCallbacks (uopsOf g.toInstruction) e = (g.x86Move e, .ok none) ↔
      e.read (mapRegister g.memoryBase) + g.memoryDisplacement64 = g.effectiveAddress e := by
  have huops : uopsOf g.toInstruction = [(MicroOpInst.new .movMR (mapRegister g.memoryBase) src
      .rNone g.memoryDisplacement64).withSize 8] := by
    simp [uopsOf, translateInstruction, hm, translateMov, h0, h1, (view_spec hsrc).1]
  have hx86 : g.x86Move e =
      { e with mem := e.mem.store (g.effectiveAddress e) 8 (e.read src) } := by
    simp [GuestInstruction.x86Move, GuestInstruction.x86Mov, GuestInstruction.fetch, hm, h0, h1,
      IcedRegister.value_full hsrc, hsize]
  rw [huops, runUops_singleton, hx86]
  refine result_mem_iff.trans (store_iff.trans ?_)
  exact ⟨fun h => h.1, fun h => ⟨h, rfl, rfl⟩⟩

lemma translate_memImm_iff (hm : g.mnemonic = .mov) (h0 : g.op0Kind = .memory)
    (h1 : isImm g.op1Kind = true) (e : Executor TracedRam) :
    runUops tracedCallbacks (uopsOf g.toInstruction) e = (g.x86Move e, .ok none) ↔
      g.memorySize = 8 ∧ g.immediateValue g.op1Kind = 0xFF ∧
        e.read (mapRegister g.memoryBase) + g.immediate64 = g.effectiveAddress e := by
  have huops : uopsOf g.toInstruction = [(MicroOpInst.new .movMI (mapRegister g.memoryBase) .rNone
      .rNone g.immediate64).withSize 8] := by
    simp [uopsOf, translateInstruction, hm, translateMov, h0, h1, (isImm_ne h1).1]
  have hx86 : g.x86Move e =
      { e with mem :=
          e.mem.store (g.effectiveAddress e) g.memorySize (g.immediateValue g.op1Kind) } := by
    simp [GuestInstruction.x86Move, GuestInstruction.x86Mov, GuestInstruction.fetch_imm h1, hm, h0]
  rw [huops, runUops_singleton, hx86]
  refine result_mem_iff.trans (store_iff.trans ?_)
  constructor
  · rintro ⟨haddr, hsize, hv⟩
    exact ⟨hsize, hv.symm, haddr⟩
  · rintro ⟨hsize, hv, haddr⟩
    exact ⟨haddr, hsize, hv.symm⟩

lemma translate_push (hm : g.mnemonic = .push) (e : Executor TracedRam) :
    runUops tracedCallbacks (uopsOf g.toInstruction) e =
      (⟨(e.write .rsp (e.read .rsp - 8)).regs,
        e.mem.store (e.read .rsp - 8) 8 (e.read (mapRegister g.op0Register))⟩, .ok none) := by
  have huops : uopsOf g.toInstruction =
      [(MicroOpInst.new .pushR .rNone (mapRegister g.op0Register) .rNone 0).withSize 8] := by
    simp [uopsOf, translateInstruction, hm]
  rw [huops, runUops_singleton]
  rfl

/-- Without a register operand the translation pushes eight bytes of 0. -/
lemma translate_push_imm_iff (hm : g.mnemonic = .push) (h0 : isImm g.op0Kind = true)
    (hnone : g.op0Register.view = none) (e : Executor TracedRam) :
    runUops tracedCallbacks (uopsOf g.toInstruction) e = (g.x86Move e, .ok none) ↔
      g.pushSize = 8 ∧ g.immediateValue g.op0Kind = 0 := by
  have hx86 : g.x86Move e = ⟨(e.write .rsp (e.read .rsp - UInt64.ofNat g.pushSize)).regs,
      e.mem.store (e.read .rsp - UInt64.ofNat g.pushSize) g.pushSize
        (g.immediateValue g.op0Kind)⟩ := by
    simp [GuestInstruction.x86Move, GuestInstruction.x86Push, GuestInstruction.fetch_imm h0, hm]
  have hzero : e.read .rNone = 0 := rfl
  rw [translate_push hm, hx86, mapRegister_of_view_none hnone, hzero]
  constructor
  · intro h
    obtain ⟨-, hsize, hv⟩ := store_iff.mp (congrArg (fun r => r.1.mem) h)
    exact ⟨hsize, hv.symm⟩
  · rintro ⟨hsize, hv⟩
    rw [hsize, hv]
    rfl

/-- A memory operand of `PUSH` is read before the push; the translation makes no such access. -/
lemma x86Push_accesses (hm : g.mnemonic = .push) (h0 : g.op0Kind = .memory)
    (e : Executor TracedRam) :
    (g.x86Move e).mem.accesses =
      e.mem.accesses ++ [.read (g.effectiveAddress e) g.memorySize] ++
        [.write (e.read .rsp - UInt64.ofNat g.pushSize) g.pushSize] := by
  simp [GuestInstruction.x86Move, GuestInstruction.x86Push, GuestInstruction.fetch, hm, h0,
    TracedRam.load, TracedRam.store]

/-- The translation of `MOV` and `PUSH` does what x86 does, to registers and memory and with the
same accesses, exactly when the operands are as the form asks. -/
theorem translate_move_iff (h : MoveForm g) (e : Executor TracedRam) :
    runUops tracedCallbacks (uopsOf g.toInstruction) e = (g.x86Move e, .ok none) ↔
      OperandsMet g e := by
  unfold OperandsMet
  cases h with
  | regReg hm h0 h1 hdst hsrc =>
    rw [hm, h0, h1]
    exact iff_of_true (translate_regReg hm h0 h1 hdst hsrc e) (by simp [isImm])
  | regImm hm h0 h1 hdst =>
    rw [hm, h0]
    exact (translate_regImm_iff hm h0 h1 hdst e).trans (by simp [h1])
  | regMem hm h0 h1 hdst hsize =>
    rw [hm, h0, h1]
    exact (translate_regMem_iff hm h0 h1 hdst hsize e).trans (by simp [isImm])
  | memReg hm h0 h1 hsrc hsize =>
    rw [hm, h0, h1]
    exact translate_memReg_iff hm h0 h1 hsrc hsize e
  | memImm hm h0 h1 =>
    rw [hm, h0, h1]
    exact translate_memImm_iff hm h0 h1 e
  | @pushReg src hm h0 hsrc =>
    have hx86 : g.x86Move e = ⟨(e.write .rsp (e.read .rsp - 8)).regs,
        e.mem.store (e.read .rsp - 8) 8 (e.read src)⟩ := by
      simp [GuestInstruction.x86Move, GuestInstruction.x86Push, GuestInstruction.fetch,
        GuestInstruction.pushSize, hm, h0, IcedRegister.value_full hsrc]
    rw [hm, h0, translate_push hm, hx86, (view_spec hsrc).1]
    exact iff_of_true rfl trivial
  | pushImm hm h0 hnone =>
    obtain ⟨hreg, hmem⟩ := isImm_ne h0
    rw [hm, translate_push_imm_iff hm h0 hnone]
    split
    · exact absurd ‹g.op0Kind = .register› hreg
    · exact absurd ‹g.op0Kind = .memory› hmem
    · rfl
    · contradiction
    · contradiction
  | pushMem hm h0 hnone =>
    rw [hm, h0, translate_push hm]
    refine iff_of_false (fun h => ?_) id
    have haccesses := congrArg (fun r => r.1.mem.accesses.length) h
    dsimp only at haccesses
    rw [x86Push_accesses hm h0] at haccesses
    simp [TracedRam.store] at haccesses

/-- `MOV RAX, [RBX + index*scale + 8]`. -/
def movLoad (index : IcedRegister) (scale : UInt64) : GuestInstruction where
  toInstruction :=
    { byteInstruction 0x90 0x1000 with
      len := 4
      mnemonic := .mov
      op0Register := .rax
      op1Kind := .memory
      memoryBase := .rbx
      memoryDisplacement64 := 8
      immediate64 := 0x800000000 }
  memoryIndex := index
  memoryIndexScale := scale
  memorySize := 8
  immediate := 0
  immediate64_eq := by decide

/-- RBX = 0x100 and RCX = 2 over an empty memory. -/
def movState : Executor TracedRam where
  regs := (RegisterFile.new.write .rbx 0x100).write .rcx 2
  mem := ⟨fun _ => 0, []⟩

theorem translate_move_iff_load :
    runUops tracedCallbacks (uopsOf (movLoad (.other 0) 1).toInstruction) movState =
      ((movLoad (.other 0) 1).x86Move movState, .ok none) :=
  (translate_move_iff (.regMem rfl rfl rfl rfl rfl) movState).mpr fun _ => by decide

/-- `MOV RAX, [RBX + RCX*4 + 8]` is to read at 0x110. -/
theorem translate_move_not : ¬ ∀ (g : GuestInstruction) (e : Executor TracedRam), MoveForm g →
    runUops tracedCallbacks (uopsOf g.toInstruction) e = (g.x86Move e, .ok none) := by
  intro h
  have heq := h (movLoad .rcx 4) movState (.regMem rfl rfl rfl rfl rfl)
  have haccesses := congrArg (fun r => r.1.mem.accesses) heq
  revert haccesses
  decide

end Bemi.Dbt
