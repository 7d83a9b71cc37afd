import Bemi.Dbt.Ir
import Bemi.Lib.Machine

/-!
# Micro-op executor

Model of `dbt/executor/mod.rs`: the register file, the memory callbacks, `execute_inst` with one
branch for each opcode, and the loop of `execute_block`. A callback is a function on a state `M` of
its own, so a deterministic memory of any kind can stand behind it. `execute_inst` can end in three
ways, `Ok`, `Err` and a panic (the one signed division that overflows).

`executeBlock_eq` reads the loop as a straight-line machine over the active micro-ops; everything
said about blocks elsewhere goes through it.
-/

namespace Bemi.Dbt
open Machine

/-! ## Register file -/

structure RegisterFile where
  regs : Vector BemiWord 33
  deriving DecidableEq

namespace RegisterFile

def new : RegisterFile := ⟨Vector.replicate 33 0⟩

/-- `RNone` reads as 0. -/
def read (self : RegisterFile) (reg : Register) : BemiWord :=
  if h : reg = .rNone then 0
  else
    have := Register.toNat_lt h
    self.regs[reg.toU8.toNat]

/-- Writes to `RNone` are swallowed. -/
def write (self : RegisterFile) (reg : Register) (value : BemiWord) : RegisterFile :=
  if h : reg = .rNone then self
  else ⟨self.regs.set reg.toU8.toNat value (Register.toNat_lt h)⟩

def getFlags (self : RegisterFile) : BemiWord :=
  self.read .rFlags

def setFlags (self : RegisterFile) (flags : BemiWord) : RegisterFile :=
  self.write .rFlags flags

/-- Bit 0 = CF, bit 6 = ZF, bit 7 = SF, bit 11 = OF. -/
def updateFlagsArith (self : RegisterFile) (result operand1 operand2 : BemiWord) (isSub : Bool) :
    RegisterFile :=
  let flags : BemiWord := 0
  let flags := if result = 0 then flags ||| 0x40 else flags
  let flags := if result &&& ((1 : BemiWord) <<< 63) ≠ 0 then flags ||| 0x80 else flags
  let carry : Bool :=
    if isSub then operand1 < operand2
    else (0xFFFFFFFFFFFFFFFF - operand1) < operand2
  let flags := if carry then flags ||| 0x01 else flags
  let overflow :=
    if isSub then ((operand1 ^^^ operand2) &&& (operand1 ^^^ result)) >>> 63
    else ((operand1 ^^^ result) &&& (operand2 ^^^ result)) >>> 63
  let flags := if overflow ≠ 0 then flags ||| 0x0800 else flags
  self.setFlags flags

/-- CF and OF are cleared for logic ops. -/
def updateFlagsLogic (self : RegisterFile) (result : BemiWord) : RegisterFile :=
  let flags : BemiWord := 0
  let flags := if result = 0 then flags ||| 0x40 else flags
  let flags := if result &&& ((1 : BemiWord) <<< 63) ≠ 0 then flags ||| 0x80 else flags
  self.setFlags flags

@[simp] lemma read_rNone (rf : RegisterFile) : rf.read .rNone = 0 := rfl

@[simp] lemma write_rNone (rf : RegisterFile) (v : BemiWord) : rf.write .rNone v = rf := rfl

lemma read_write_self (rf : RegisterFile) {r : Register} (v : BemiWord) (h : r ≠ .rNone) :
    (rf.write r v).read r = v := by
  simp [read, write, h]

lemma read_write_ne (rf : RegisterFile) {r r' : Register} (v : BemiWord) (h : r ≠ r') :
    (rf.write r v).read r' = rf.read r' := by
  unfold read write
  by_cases hr' : r' = .rNone
  · simp [hr']
  · by_cases hr : r = .rNone
    · simp [hr]
    · have hne : r.toU8.toNat ≠ r'.toU8.toNat := fun e =>
        h (Register.toU8_injective (UInt8.toNat_inj.mp e))
      simp [hr, hr', hne]

/-- Writing back what a register holds changes nothing. -/
lemma write_read (rf : RegisterFile) (r : Register) : rf.write r (rf.read r) = rf := by
  unfold read write
  by_cases hr : r = .rNone
  · simp [hr]
  · simp [hr]

lemma write_write (rf : RegisterFile) (r : Register) (v w : BemiWord) :
    (rf.write r v).write r w = rf.write r w := by
  unfold write
  by_cases hr : r = .rNone
  · simp [hr]
  · simp [hr]

end RegisterFile

/-! ## Executor -/

/-- The two memory callbacks. `M` is what they can see and change; a read gets the value to
overwrite (`&mut u64`), the flag says whether the access is 8 bytes wide. -/
structure Callbacks (M : Type*) where
  memoryRead : Option (M → UInt64 → Bool → UInt64 → M × UInt64)
  memoryWrite : Option (M → UInt64 → Bool → UInt64 → M)

structure Executor (M : Type*) where
  regs : RegisterFile
  mem : M
  deriving DecidableEq

/-- How `execute_inst` and `execute_block` end. -/
inductive ExecResult where
  | ok (nextIp : Option BemiWord)
  | err (msg : String)
  | panic
  deriving DecidableEq

variable {M : Type*}

namespace Executor

def read (e : Executor M) (reg : Register) : BemiWord :=
  e.regs.read reg

def write (e : Executor M) (reg : Register) (value : BemiWord) : Executor M :=
  { e with regs := e.regs.write reg value }

def getFlags (e : Executor M) : BemiWord :=
  e.regs.getFlags

def setFlags (e : Executor M) (flags : BemiWord) : Executor M :=
  { e with regs := e.regs.setFlags flags }

def updateFlagsArith (e : Executor M) (result operand1 operand2 : BemiWord) (isSub : Bool) :
    Executor M :=
  { e with regs := e.regs.updateFlagsArith result operand1 operand2 isSub }

def updateFlagsLogic (e : Executor M) (result : BemiWord) : Executor M :=
  { e with regs := e.regs.updateFlagsLogic result }

/-- `if let Some(mr) = memory_read { mr(addr, wide, &mut val) }` with `val` starting at 0. -/
def load (io : Callbacks M) (e : Executor M) (addr : UInt64) (wide : Bool) :
    Executor M × UInt64 :=
  match io.memoryRead with
  | none => (e, 0)
  | some mr => ({ e with mem := (mr e.mem addr wide 0).1 }, (mr e.mem addr wide 0).2)

/-- `if let Some(mw) = memory_write { mw(addr, wide, val) }`. -/
def store (io : Callbacks M) (e : Executor M) (addr : UInt64) (wide : Bool) (val : UInt64) :
    Executor M :=
  match io.memoryWrite with
  | none => e
  | some mw => { e with mem := mw e.mem addr wide val }

end Executor

/-- The condition `JccRel` tests, by the condition code in `src2`. -/
def jccTaken (flags : BemiWord) (condition : UInt8) : Bool :=
  let zf := (flags >>> 6) &&& 1
  let sf := (flags >>> 7) &&& 1
  let cf := flags &&& 1
  let of := (flags >>> 11) &&& 1
  match condition.toNat with
  | 0x0 => of ≠ 0
  | 0x1 => of = 0
  | 0x2 => cf ≠ 0
  | 0x3 => cf = 0
  | 0x4 => zf ≠ 0
  | 0x5 => zf = 0
  | 0x6 => cf ≠ 0 || zf ≠ 0
  | 0x7 => cf = 0 && zf = 0
  | 0x8 => sf ≠ 0
  | 0x9 => sf = 0
  | 0xC => sf ≠ of
  | 0xD => sf = of
  | 0xE => zf ≠ 0 || sf ≠ of
  | 0xF => zf = 0 && sf = of
  | _ => false

/-- One micro-op (`execute_inst`): the executor after it, and the result with the updated
`next_ip`. -/
def executeInst (io : Callbacks M) (e : Executor M) (inst : MicroOpInst)
    (nextIp : Option BemiWord) : Executor M × ExecResult :=
  let ok (e : Executor M) : Executor M × ExecResult := (e, .ok nextIp)
  match inst.code with
  | .nop => ok e
  | .movRR =>
    let val := e.read inst.src1
    ok (e.write inst.dst val)
  | .movRI => ok (e.write inst.dst inst.immediate)
  | .movRM =>
    let addr := e.read inst.src1 + inst.immediate
    let (e, val) := e.load io addr (inst.operandSize = 8)
    ok (e.write inst.dst val)
  | .movMR =>
    let addr := e.read inst.dst + inst.immediate
    let val := e.read inst.src1
    ok (e.store io addr (inst.operandSize = 8) val)
  | .movMI =>
    -- the stored value is the discriminant of `src1`
    let addr := e.read inst.dst + inst.immediate
    ok (e.store io addr (inst.operandSize = 8) inst.src1.toU8.toUInt64)
  | .addRR =>
    let a := e.read inst.src1
    let b := e.read inst.src2
    let result := a + b
    ok ((e.write inst.dst result).updateFlagsArith result a b false)
  | .addRI =>
    let a := e.read inst.src1
    let b := inst.immediate
    let result := a + b
    ok ((e.write inst.dst result).updateFlagsArith result a b false)
  | .subRR =>
    let a := e.read inst.src1
    let b := e.read inst.src2
    let result := a - b
    ok ((e.write inst.dst result).updateFlagsArith result a b true)
  | .subRI =>
    let a := e.read inst.src1
    let b := inst.immediate
    let result := a - b
    ok ((e.write inst.dst result).updateFlagsArith result a b true)
  | .adcRR =>
    let a := e.read inst.src1
    let b := e.read inst.src2
    let cf := e.getFlags &&& 0x01
    let result := a + b + cf
    ok ((e.write inst.dst result).updateFlagsArith result a b false)
  | .sbbRR =>
    let a := e.read inst.src1
    let b := e.read inst.src2
    let cf := e.getFlags &&& 0x01
    let result := a - b - cf
    ok ((e.write inst.dst result).updateFlagsArith result a b true)
  | .mulRR =>
    let a := e.read .rax
    let b := e.read inst.src1
    let result := a.toNat * b.toNat
    let e := e.write .rax (UInt64.ofNat result)
    let e := e.write .rdx (UInt64.ofNat (result >>> 64))
    let overflow := result > 0xFFFFFFFFFFFFFFFF
    let flags := e.getFlags &&& ~~~0x0801
    let flags := if overflow then flags ||| 0x0801 else flags
    ok (e.setFlags flags)
  | .imulRR =>
    let a := (e.read inst.src1).toInt64
    let b := (e.read inst.src2).toInt64
    let result := a.toInt * b.toInt
    let e := e.write inst.dst (Int64.ofInt result).toUInt64
    let overflow := result ≠ (Int64.ofInt result).toInt
    let flags := e.getFlags &&& ~~~0x0801
    let flags := if overflow then flags ||| 0x0801 else flags
    ok (e.setFlags flags)
  | .imulRI =>
    let a := (e.read inst.src1).toInt64
    let b := inst.immediate.toInt64
    let result := a.toInt * b.toInt
    let e := e.write inst.dst (Int64.ofInt result).toUInt64
    let overflow := result ≠ (Int64.ofInt result).toInt
    let flags := e.getFlags &&& ~~~0x0801
    let flags := if overflow then flags ||| 0x0801 else flags
    ok (e.setFlags flags)
  | .divRR =>
    let divisor := e.read inst.src1
    if divisor = 0 then (e, .err "Division by zero")
    else
      let dividendLo := e.read .rax
      let dividendHi := e.read .rdx
      let dividend := (dividendHi.toNat <<< 64) ||| dividendLo.toNat
      let quotient := UInt64.ofNat (dividend / divisor.toNat)
      let remainder := UInt64.ofNat (dividend % divisor.toNat)
      ok ((e.write .rax quotient).write .rdx remainder)
  | .idivRR =>
    let divisor := (e.read inst.src1).toBitVec
    if divisor = 0 then (e, .err "Signed division by zero")
    else
      let dividendLo := (e.read .rax).toBitVec
      let dividendHi := (e.read .rdx).toBitVec
      -- the low half is sign-extended before it is or-ed in
      let dividend : BitVec 128 :=
        (dividendHi.signExtend 128 <<< 64) ||| dividendLo.signExtend 128
      let divisor := divisor.signExtend 128
      if dividend = BitVec.intMin 128 ∧ divisor = BitVec.allOnes 128 then (e, .panic)
      else
        let quotient : UInt64 := ⟨(dividend.sdiv divisor).setWidth 64⟩
        let remainder : UInt64 := ⟨(dividend.srem divisor).setWidth 64⟩
        ok ((e.write .rax quotient).write .rdx remainder)
  | .cmpRR =>
    let a := e.read inst.src1
    let b := e.read inst.src2
    let result := a - b
    ok (e.updateFlagsArith result a b true)
  | .cmpRI =>
    let a := e.read inst.src1
    let b := inst.immediate
    let result := a - b
    ok (e.updateFlagsArith result a b true)
  | .testRR =>
    let a := e.read inst.src1
    let b := e.read inst.src2
    let result := a &&& b
    ok (e.updateFlagsLogic result)
  | .testRI =>
    let a := e.read inst.src1
    let b := inst.immediate
    let result := a &&& b
    ok (e.updateFlagsLogic result)
  | .andRR =>
    let a := e.read inst.src1
    let b := e.read inst.src2
    let result := a &&& b
    ok ((e.write inst.dst result).updateFlagsLogic result)
  | .orRR =>
    let a := e.read inst.src1
    let b := e.read inst.src2
    let result := a ||| b
    ok ((e.write inst.dst result).updateFlagsLogic result)
  | .xorRR =>
    let a := e.read inst.src1
    let b := e.read inst.src2
    let result := a ^^^ b
    ok ((e.write inst.dst result).updateFlagsLogic result)
  | .notR =>
    let a := e.read inst.src1
    ok (e.write inst.dst (~~~a))
  | .negR =>
    let a := e.read inst.src1
    let result := 0 - a
    ok ((e.write inst.dst result).updateFlagsArith result 0 a true)
  | .incR =>
    let a := e.read inst.src1
    let result := a + 1
    let e := e.write inst.dst result
    -- INC does not modify CF
    let cf := e.getFlags &&& 0x01
    let e := e.updateFlagsArith result a 1 false
    let flags := (e.getFlags &&& ~~~0x01) ||| cf
    ok (e.setFlags flags)
  | .decR =>
    let a := e.read inst.src1
    let result := a - 1
    let e := e.write inst.dst result
    -- DEC does not modify CF
    let cf := e.getFlags &&& 0x01
    let e := e.updateFlagsArith result a 1 true
    let flags := (e.getFlags &&& ~~~0x01) ||| cf
    ok (e.setFlags flags)
  | .shlRR =>
    let a := e.read inst.src1
    let shift := e.read inst.src2 &&& 0x3F
    let result := if shift ≥ 64 then 0 else a <<< shift
    ok ((e.write inst.dst result).updateFlagsLogic result)
  | .shrRR =>
    let a := e.read inst.src1
    let shift := e.read inst.src2 &&& 0x3F
    let result := if shift ≥ 64 then 0 else a >>> shift
    ok ((e.write inst.dst result).updateFlagsLogic result)
  | .sarRR =>
    let a := (e.read inst.src1).toInt64
    let shift := e.read inst.src2 &&& 0x3F
    let result :=
      (if shift ≥ 64 then (if a < 0 then -1 else 0) else a >>> shift.toInt64).toUInt64
    ok ((e.write inst.dst result).updateFlagsLogic result)
  | .rolRI =>
    let a := e.read inst.src1
    let shift := inst.immediate &&& 63
    let result : UInt64 := ⟨a.toBitVec.rotateLeft shift.toNat⟩
    ok (e.write inst.dst result)
  | .rorRI =>
    let a := e.read inst.src1
    let shift := inst.immediate &&& 63
    let result : UInt64 := ⟨a.toBitVec.rotateRight shift.toNat⟩
    ok (e.write inst.dst result)
  | .rclRI =>
    let a := e.read inst.src1
    let shift := inst.immediate &&& 63
    let result : UInt64 := ⟨a.toBitVec.rotateLeft shift.toNat⟩
    ok (e.write inst.dst result)
  | .rcrRI =>
    let a := e.read inst.src1
    let shift := inst.immediate &&& 63
    let result : UInt64 := ⟨a.toBitVec.rotateRight shift.toNat⟩
    ok (e.write inst.dst result)
  | .btRI =>
    let base := e.read inst.src1
    let bit := inst.immediate &&& 63
    let cf := (base >>> bit) &&& 1
    ok (e.setFlags ((e.getFlags &&& ~~~0x01) ||| cf))
  | .btrRI =>
    let base := e.read inst.src1
    let bit := inst.immediate &&& 63
    let mask := 1 <<< bit
    let cf := (base >>> bit) &&& 1
    let e := e.setFlags ((e.getFlags &&& ~~~0x01) ||| cf)
    ok (e.write inst.dst (base &&& ~~~mask))
  | .btsRI =>
    let base := e.read inst.src1
    let bit := inst.immediate &&& 63
    let mask := 1 <<< bit
    let cf := (base >>> bit) &&& 1
    let e := e.setFlags ((e.getFlags &&& ~~~0x01) ||| cf)
    ok (e.write inst.dst (base ||| mask))
  | .btcRI =>
    let base := e.read inst.src1
    let bit := inst.immediate &&& 63
    let mask := 1 <<< bit
    let cf := (base >>> bit) &&& 1
    let e := e.setFlags ((e.getFlags &&& ~~~0x01) ||| cf)
    ok (e.write inst.dst (base ^^^ mask))
  | .bsfRR =>
    let src := e.read inst.src1
    if src = 0 then ok (e.setFlags (e.getFlags ||| 0x40))
    else
      let e := e.write inst.dst ⟨src.toBitVec.ctz⟩
      ok (e.setFlags (e.getFlags &&& ~~~0x40))
  | .bsrRR =>
    let src := e.read inst.src1
    if src = 0 then ok (e.setFlags (e.getFlags ||| 0x40))
    else
      let e := e.write inst.dst (63 - ⟨src.toBitVec.clz⟩)
      ok (e.setFlags (e.getFlags &&& ~~~0x40))
  | .popcntRR =>
    let src := e.read inst.src1
    let count : UInt64 := ⟨src.toBitVec.cpop⟩
    let e := e.write inst.dst count
    let flags := if count = 0 then e.getFlags ||| 0x40 else e.getFlags &&& ~~~0x40
    ok (e.setFlags flags)
  | .leaRR =>
    let base := e.read inst.src1
    let result := base + inst.immediate
    ok (e.write inst.dst result)
  | .loadRR =>
    let addr := e.read inst.src1 + e.read inst.src2
    let (e, val) := e.load io addr (inst.operandSize = 8)
    ok (e.write inst.dst val)
  | .storeRR =>
    let addr := e.read inst.dst + e.read inst.src2
    let val := e.read inst.src1
    ok (e.store io addr (inst.operandSize = 8) val)
  | .movsxRR =>
    let src := e.read inst.src1
    let result :=
      match inst.operandSize.toNat with
      | 1 => src.toUInt8.toInt8.toInt64.toUInt64
      | 2 => src.toUInt16.toInt16.toInt64.toUInt64
      | 4 => src.toUInt32.toInt32.toInt64.toUInt64
      | _ => src
    ok (e.write inst.dst result)
  | .movzxRR =>
    let src := e.read inst.src1
    let result :=
      match inst.operandSize.toNat with
      | 1 => src &&& 0xFF
      | 2 => src &&& 0xFFFF
      | 4 => src &&& 0xFFFFFFFF
      | _ => src
    ok (e.write inst.dst result)
  | .movsxd =>
    let src := (e.read inst.src1).toUInt32.toInt32.toInt64.toUInt64
    ok (e.write inst.dst src)
  | .pushR =>
    let val := e.read inst.src1
    let rsp := e.read .rsp - 8
    let e := e.write .rsp rsp
    ok (e.store io rsp true val)
  | .popR =>
    let rsp := e.read .rsp
    let (e, val) := e.load io rsp true
    let e := e.write .rsp (rsp + 8)
    ok (e.write inst.dst val)
  | .jmpRel =>
    -- "current IP stored in RAX for tracing"
    let ip := e.read .rax
    let target := ip + inst.immediate
    (e, .ok (some target))
  | .jmpAbs =>
    let target := e.read inst.src1
    (e, .ok (some target))
  | .jccRel =>
    if jccTaken e.getFlags inst.src2.toU8 then
      let ip := e.read .rax
      (e, .ok (some (ip + inst.immediate)))
    else ok e
  | .callRel =>
    let ip := e.read .rax
    let retAddr := ip
    let rsp := e.read .rsp - 8
    let e := e.write .rsp rsp
    let e := e.store io rsp true retAddr
    (e, .ok (some (ip + inst.immediate)))
  | .callAbs =>
    let ip := e.read .rax
    let retAddr := ip
    let rsp := e.read .rsp - 8
    let e := e.write .rsp rsp
    let e := e.store io rsp true retAddr
    (e, .ok (some (e.read inst.src1)))
  | .ret =>
    let rsp := e.read .rsp
    let (e, retAddr) := e.load io rsp true
    let e := e.write .rsp (rsp + 8)
    (e, .ok (some retAddr))
  | .cmovcc =>
    if e.getFlags ≠ 0 then
      let val := e.read inst.src1
      ok (e.write inst.dst val)
    else ok e
  | .setcc =>
    let val := if e.getFlags ≠ 0 then 1 else 0
    ok (e.write inst.dst val)
  | .cdq | .cqo =>
    let rax := e.read .rax
    if rax &&& 0x8000000000000000 ≠ 0 then ok (e.write .rdx (~~~0))
    else ok (e.write .rdx 0)
  | .xchgRR =>
    let a := e.read inst.src1
    let b := e.read inst.src2
    ok ((e.write inst.src1 b).write inst.src2 a)
  | .cmpxchgRR =>
    let acc := e.read .rax
    let mem := e.read inst.src1
    if acc = mem then
      let e := e.write inst.src1 (e.read inst.src2)
      ok (e.setFlags (e.getFlags ||| 0x40))
    else
      let e := e.write .rax mem
      ok (e.setFlags (e.getFlags &&& ~~~0x40))
  | .xaddRR =>
    let a := e.read inst.src1
    let b := e.read inst.src2
    let result := a + b
    let e := e.write inst.src2 a
    let e := e.write inst.src1 result
    ok (e.updateFlagsArith result a b false)
  | .cpuid | .rdmsr | .wrmsr | .hlt | .cli | .sti | .invlpg | .mfence
  | .xsave | .xrstor | .wbinvd | .syscall | .sysret | .intVec | .iret => ok e
  | .mulRI | .traceExit | .macroOpFused | .macroOpPassthrough => ok e

/-- The opcodes after which `execute_block` leaves its loop. -/
def MicroOpCode.endsBlock : MicroOpCode → Bool
  | .ret | .jmpRel | .jmpAbs | .jccRel | .callRel | .callAbs | .traceExit | .hlt => true
  | _ => false

/-- The loop of `execute_block` from index `pc`. -/
def executeLoop (io : Callbacks M) (tb : TranslationBlock) (e : Executor M) (pc : Nat)
    (nextIp : Option BemiWord) : Executor M × ExecResult :=
  if h : pc < tb.microOpCount then
    let inst := tb.uop pc h
    match executeInst io e inst nextIp with
    | (e, .ok nextIp) =>
      if inst.code.endsBlock then (e, .ok nextIp)
      else executeLoop io tb e (pc + 1) nextIp
    | r => r
  else (e, .ok nextIp)
termination_by tb.microOpCount - pc

def executeBlock (io : Callbacks M) (e : Executor M) (tb : TranslationBlock) :
    Executor M × ExecResult :=
  executeLoop io tb e 0 none

/-! ## The loop as a straight-line machine -/

/-- One micro-op as a machine step on the executor and the pending `next_ip`. -/
def microStep (io : Callbacks M) (inst : MicroOpInst) (s : Executor M × Option BemiWord) :
    Flow (Executor M × Option BemiWord) (Executor M × ExecResult) :=
  match executeInst io s.1 inst s.2 with
  | (e, .ok nextIp) => if inst.code.endsBlock then .stop (e, .ok nextIp) else .next (e, nextIp)
  | r => .stop r

/-- The result once every micro-op has been executed. -/
def microDone (s : Executor M × Option BemiWord) : Executor M × ExecResult :=
  (s.1, .ok s.2)

lemma microDone_injective : Function.Injective (microDone (M := M)) := by
  rintro ⟨e, n⟩ ⟨e', n'⟩ h
  simpa [microDone] using h

lemma executeLoop_eq (io : Callbacks M) (tb : TranslationBlock) (e : Executor M) (pc : Nat)
    (nextIp : Option BemiWord) :
    executeLoop io tb e pc nextIp =
      (flow (microStep io) (tb.active.drop pc) (e, nextIp)).finish microDone := by
  induction e, pc, nextIp using executeLoop.induct io tb with
  | case1 e pc nextIp h inst e' nextIp' hinst hend =>
    rw [executeLoop, dif_pos h, tb.active_drop pc h, flow_cons, microStep]
    simp only [inst] at hinst hend
    simp [hinst, hend]
  | case2 e pc nextIp h inst e' nextIp' hinst hend ih =>
    rw [executeLoop, dif_pos h, tb.active_drop pc h, flow_cons, microStep]
    simp only [inst] at hinst hend
    simp [hinst, hend, ih]
  | case3 e pc nextIp h inst hr =>
    rw [executeLoop, dif_pos h, tb.active_drop pc h, flow_cons, microStep]
    split
    · exact absurd ‹_› (hr _ _)
    · simp
  | case4 e pc nextIp h =>
    rw [executeLoop, dif_neg h, List.drop_eq_nil_of_le (by simpa using h)]
    rfl

/-- `execute_block` runs the active micro-ops in order. -/
theorem executeBlock_eq (io : Callbacks M) (e : Executor M) (tb : TranslationBlock) :
    executeBlock io e tb = (flow (microStep io) tb.active (e, none)).finish microDone := by
  rw [executeBlock, executeLoop_eq, List.drop_zero]

/-- Run a list of micro-ops the way `execute_block` does. -/
def runUops (io : Callbacks M) (uops : List MicroOpInst) (e : Executor M) :
    Executor M × ExecResult :=
  (flow (microStep io) uops (e, none)).finish microDone

/-- A single micro-op runs as `execute_inst` does it. -/
lemma runUops_singleton (io : Callbacks M) (uop : MicroOpInst) (e : Executor M) :
    runUops io [uop] e = executeInst io e uop none := by
  rw [runUops, flow_cons, microStep]
  split
  · split <;> simp_all [microDone]
  · rfl

/-- The opcodes that always hand over to the next micro-op. -/
def MicroOpCode.fallsThrough : MicroOpCode → Bool
  | .divRR | .idivRR => false
  | code => !code.endsBlock

lemma executeInst_fallsThrough (io : Callbacks M) {uop : MicroOpInst}
    (h : uop.code.fallsThrough = true) (e : Executor M) (nextIp : Option BemiWord) :
    ∃ e', executeInst io e uop nextIp = (e', .ok nextIp) := by
  obtain ⟨code, dst, src1, src2, immediate, operandSize⟩ := uop
  cases code with
  | divRR | idivRR | ret | jmpRel | jmpAbs | jccRel | callRel | callAbs | traceExit | hlt =>
    cases h
  | bsfRR | bsrRR | cmovcc | cdq | cqo | cmpxchgRR =>
    unfold executeInst
    dsimp only
    split <;> exact ⟨_, rfl⟩
  | _ => exact ⟨_, rfl⟩

lemma microStep_fallsThrough (io : Callbacks M) {uop : MicroOpInst}
    (h : uop.code.fallsThrough = true) (e : Executor M) (nextIp : Option BemiWord) :
    ∃ e', microStep io uop (e, nextIp) = .next (e', nextIp) := by
  obtain ⟨e', he'⟩ := executeInst_fallsThrough io h e nextIp
  have hend : uop.code.endsBlock = false := by
    revert h
    cases uop.code <;> decide
  exact ⟨e', by rw [microStep, he']; simp [hend]⟩

/-- A list of such micro-ops falls through at its end. -/
lemma flow_fallsThrough (io : Callbacks M) {uops : List MicroOpInst}
    (h : ∀ uop ∈ uops, uop.code.fallsThrough = true) (e : Executor M) :
    flow (microStep io) uops (e, none) = .next ((runUops io uops e).1, none) := by
  have hex : ∃ e', flow (microStep io) uops (e, none) = .next (e', none) := by
    induction uops generalizing e with
    | nil => exact ⟨e, rfl⟩
    | cons uop uops ih =>
      obtain ⟨e₁, hstep⟩ := microStep_fallsThrough io (h uop (by simp)) e none
      obtain ⟨e', hrest⟩ := ih (fun u hu => h u (List.mem_cons_of_mem _ hu)) e₁
      exact ⟨e', by rw [flow_cons, hstep, Flow.bind_next, hrest]⟩
  obtain ⟨e', he'⟩ := hex
  rw [runUops, he']
  rfl

/-- After such a list, the rest runs on the executor that it leaves. -/
lemma runUops_append (io : Callbacks M) {us : List MicroOpInst}
    (h : ∀ uop ∈ us, uop.code.fallsThrough = true) (vs : List MicroOpInst) (e : Executor M) :
    runUops io (us ++ vs) e = runUops io vs (runUops io us e).1 := by
  rw [runUops, flow_append, flow_fallsThrough io h, Flow.bind_next]
  rfl

end Bemi.Dbt
