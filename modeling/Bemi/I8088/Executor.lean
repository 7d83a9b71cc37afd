import Mathlib.Tactic.Common
import Mathlib.Data.List.Basic

/-!
# 8088 simulator

Model of `dbt/x8088.rs`: the CPU, the 1 MB memory, the BIOS shim, the decoder and
`X8088Executor::step`. The memory is a function of the 20-bit physical address; every access masks
its address. The trace output, the printed characters and the cycle counter, which no step reads,
are left out. A step that never returns (a string output without an end) is `none`.
-/

namespace Bemi.I8088

inductive InstCategory where
  | alu | mov | jmp | jcc | call | ret | push | pop | string | system | other
  deriving DecidableEq, Repr

structure DecodedInst8088 where
  opcode : UInt16
  length : UInt8
  immediate : UInt16
  immediate2 : UInt16
  dispSize : UInt8
  displacement : Int16
  isFar : Bool
  category : InstCategory
  mnemonic : String
  deriving DecidableEq, Repr

def DecodedInst8088.ipAfter (self : DecodedInst8088) (currentIp : UInt16) : UInt16 :=
  currentIp + self.length.toUInt16

def DecodedInst8088.branchTarget (self : DecodedInst8088) (currentIp : UInt16) : UInt16 :=
  let next := self.ipAfter currentIp
  next + self.displacement.toUInt16

structure Cpu8088 where
  ax : UInt16
  bx : UInt16
  cx : UInt16
  dx : UInt16
  si : UInt16
  di : UInt16
  sp : UInt16
  bp : UInt16
  cs : UInt16
  ds : UInt16
  es : UInt16
  ss : UInt16
  ip : UInt16
  flags : UInt16
  halted : Bool
  interruptsEnabled : Bool
  deriving DecidableEq, Repr

def Cpu8088.new : Cpu8088 where
  ax := 0
  bx := 0
  cx := 0
  dx := 0
  si := 0
  di := 0
  sp := 0xFFFE
  bp := 0
  cs := 0xF000
  ds := 0
  es := 0
  ss := 0
  ip := 0xFFF0
  flags := 0x0002
  halted := false
  interruptsEnabled := false

/-- The physical address of `seg:off` (`Cpu8088::linear`), before it is masked to 20 bits. -/
def linear (seg off : UInt16) : UInt32 :=
  (seg.toUInt32 <<< 4) + off.toUInt32

/-! ### Memory -/

/-- One byte for each 20-bit address. -/
structure Memory8088 where
  ram : Fin 0x100000 → UInt8

namespace Memory8088

def new : Memory8088 := ⟨fun _ => 0⟩

/-- `(addr & 0xF_FFFF) as usize`. -/
def index (addr : UInt32) : Fin 0x100000 :=
  ⟨(addr &&& 0xFFFFF).toNat, by
    have : (addr &&& 0xFFFFF).toNat ≤ (0xFFFFF : UInt32).toNat := by
      rw [UInt32.toNat_and]
      exact Nat.and_le_right
    exact Nat.lt_of_le_of_lt this (by decide)⟩

def read8 (self : Memory8088) (addr : UInt32) : UInt8 :=
  self.ram (index addr)

def write8 (self : Memory8088) (addr : UInt32) (v : UInt8) : Memory8088 :=
  ⟨fun i => if i = index addr then v else self.ram i⟩

def read16 (self : Memory8088) (addr : UInt32) : UInt16 :=
  let lo := (self.read8 addr).toUInt16
  let hi := (self.read8 (addr + 1)).toUInt16
  lo ||| (hi <<< 8)

def write16 (self : Memory8088) (addr : UInt32) (v : UInt16) : Memory8088 :=
  let self := self.write8 addr v.toUInt8
  self.write8 (addr + 1) (v >>> 8).toUInt8

/-- Load a byte slice at a physical address, as far as the memory goes. -/
def loadAt (self : Memory8088) (phys : UInt32) (data : List UInt8) : Memory8088 :=
  let base := (index phys).val
  let len := min data.length (0x100000 - base)
  ⟨fun i => if base ≤ i.val ∧ i.val < base + len then data.getD (i.val - base) 0 else self.ram i⟩

end Memory8088

/-! ### BIOS and DOS shim -/

structure BiosShim where
  dosBreak : Bool
  deriving DecidableEq, Repr

/-- Does the string at an address end, within `n` bytes? -/
def stringEnds (mem : Memory8088) (addr : UInt32) (n : Nat) : Bool :=
  (List.range n).any fun i => mem.read8 (addr + UInt32.ofNat i) == 0x24

/-- `handle_int`; the last component tells whether the interrupt was consumed. The string output
loop visits every byte of the memory before it repeats itself. -/
def BiosShim.handleInt (self : BiosShim) (cpu : Cpu8088) (mem : Memory8088) (intNum : UInt8) :
    Option (BiosShim × Cpu8088 × Bool) :=
  if intNum = 0x10 then
    some (self, cpu, true)
  else if intNum = 0x16 then
    some (self, { cpu with ax := 0 }, true)
  else if intNum = 0x20 then
    some ({ self with dosBreak := true }, cpu, true)
  else if intNum = 0x21 then
    let ah := (cpu.ax >>> 8).toUInt8
    if ah = 0x02 then
      some (self, cpu, true)
    else if ah = 0x09 then
      if stringEnds mem (linear cpu.ds cpu.dx) 0x100000 then some (self, cpu, true) else none
    else if ah = 0x4C then
      some ({ self with dosBreak := true }, cpu, true)
    else
      some (self, cpu, true)
  else
    some (self, cpu, false)

/-! ### Decoder -/

/-- `decode_8088`. The record's fields are mnemonic, category, length, immediate, displacement size,
displacement and `is_far`, as in the source's tuples. -/
def decode8088 (mem : Memory8088) (cs ip : UInt16) : Option DecodedInst8088 :=
  let phys := (cs.toUInt32 <<< 4) + ip.toUInt32
  let b0 := mem.read8 phys
  let inst (mnemonic : String) (category : InstCategory) (length : UInt8) (imm : UInt16)
      (dispSz : UInt8) (disp : Int16) (isFar : Bool) : Option DecodedInst8088 :=
    some
      { opcode := b0.toUInt16, length, immediate := imm, immediate2 := 0, dispSize := dispSz,
        displacement := disp, isFar, category, mnemonic }
  if b0 = 0x90 then
    inst "NOP" .other 1 0 0 0 false
  else if b0 = 0xF4 then
    inst "HLT" .system 1 0 0 0 false
  else if b0 = 0xFA then
    inst "CLI" .system 1 0 0 0 false
  else if b0 = 0xFB then
    inst "STI" .system 1 0 0 0 false
  else if 0x70 ≤ b0 ∧ b0 ≤ 0x7F then
    let rel := (mem.read8 (phys + 1)).toInt8.toInt16
    inst "Jcc" .jcc 2 0 1 rel false
  else if b0 = 0xEB then
    let rel := (mem.read8 (phys + 1)).toInt8.toInt16
    inst "JMP" .jmp 2 0 1 rel false
  else if b0 = 0xE9 then
    let rel := (mem.read16 (phys + 1)).toInt16
    inst "JMP" .jmp 3 0 2 rel false
  else if b0 = 0xEA then
    -- the segment word is read and dropped
    let off := mem.read16 (phys + 1)
    inst "JMP FAR" .jmp 5 off 2 0 true
  else if b0 = 0xE8 then
    let rel := (mem.read16 (phys + 1)).toInt16
    inst "CALL" .call 3 0 2 rel false
  else if b0 = 0xC3 then
    inst "RET" .ret 1 0 0 0 false
  else if b0 = 0xC2 then
    let n := mem.read16 (phys + 1)
    inst "RET" .ret 3 n 2 0 false
  else if b0 = 0xCD then
    let n := mem.read8 (phys + 1)
    inst "INT" .system 2 n.toUInt16 1 0 false
  else if 0x50 ≤ b0 ∧ b0 ≤ 0x5F then
    let m := if b0 < 0x58 then "PUSH" else "POP"
    let cat := if b0 < 0x58 then .push else .pop
    inst m cat 1 0 0 0 false
  else if 0xB0 ≤ b0 ∧ b0 ≤ 0xBF then
    let wide := b0 &&& 0x08 ≠ 0
    if wide then
      inst "MOV" .mov 3 (mem.read16 (phys + 1)) 2 0 false
    else
      inst "MOV" .mov 2 (mem.read8 (phys + 1)).toUInt16 1 0 false
  else
    inst "???" .other 1 0 0 0 false

/-! ### Executor -/

structure X8088Executor where
  cpu : Cpu8088
  mem : Memory8088
  bios : BiosShim

namespace X8088Executor

def new : X8088Executor where
  cpu := Cpu8088.new
  mem := Memory8088.new
  bios := ⟨false⟩

/-- Load a raw binary image at a physical address. -/
def loadImage (self : X8088Executor) (data : List UInt8) (physBase : UInt32) : X8088Executor :=
  { self with mem := self.mem.loadAt physBase data }

/-- Set the CS:IP and SS:SP entry points. -/
def setEntry (self : X8088Executor) (cs ip ss sp : UInt16) : X8088Executor :=
  { self with cpu := { self.cpu with cs, ip, ss, sp } }

def readGp16 (self : X8088Executor) (idx : UInt8) : UInt16 :=
  match (idx &&& 7).toNat with
  | 0 => self.cpu.ax | 1 => self.cpu.cx
  | 2 => self.cpu.dx | 3 => self.cpu.bx
  | 4 => self.cpu.sp | 5 => self.cpu.bp
  | 6 => self.cpu.si | _ => self.cpu.di

def writeGp16 (self : X8088Executor) (idx : UInt8) (val : UInt16) : X8088Executor :=
  let cpu := self.cpu
  match (idx &&& 7).toNat with
  | 0 => { self with cpu := { cpu with ax := val } }
  | 1 => { self with cpu := { cpu with cx := val } }
  | 2 => { self with cpu := { cpu with dx := val } }
  | 3 => { self with cpu := { cpu with bx := val } }
  | 4 => { self with cpu := { cpu with sp := val } }
  | 5 => { self with cpu := { cpu with bp := val } }
  | 6 => { self with cpu := { cpu with si := val } }
  | _ => { self with cpu := { cpu with di := val } }

/-- `self.cpu.ip = ip`. -/
def setIp (self : X8088Executor) (ip : UInt16) : X8088Executor :=
  { self with cpu := { self.cpu with ip := ip } }

/-- `self.cpu.sp = sp`. -/
def setSp (self : X8088Executor) (sp : UInt16) : X8088Executor :=
  { self with cpu := { self.cpu with sp := sp } }

/-- Push a word: `sp` goes down by two, the word is written at `ss:sp`. -/
def pushWord (self : X8088Executor) (val : UInt16) : X8088Executor :=
  let self := self.setSp (self.cpu.sp - 2)
  let addr := linear self.cpu.ss self.cpu.sp
  { self with mem := self.mem.write16 addr val }

/-- The word at `ss:sp`. -/
def topWord (self : X8088Executor) : UInt16 :=
  self.mem.read16 (linear self.cpu.ss self.cpu.sp)

/-- The dispatch of `step`, on an executor whose `ip` already points behind the instruction. -/
def dispatch (self : X8088Executor) (inst : DecodedInst8088) (ip : UInt16) :
    Option (X8088Executor × Bool) :=
  let done (self : X8088Executor) : Option (X8088Executor × Bool) :=
    some (self, !self.bios.dosBreak)
  match inst.category with
  | .system =>
    if inst.opcode.toUInt8 = 0xF4 then
      some ({ self with cpu := { self.cpu with halted := true } }, false)
    else if inst.opcode.toUInt8 = 0xFA then
      done { self with cpu := { self.cpu with interruptsEnabled := false } }
    else if inst.opcode.toUInt8 = 0xFB then
      done { self with cpu := { self.cpu with interruptsEnabled := true } }
    else if inst.opcode.toUInt8 = 0xCD then
      match self.bios.handleInt self.cpu self.mem inst.immediate.toUInt8 with
      | none => none
      | some (bios, cpu, _) => done { self with bios, cpu }
    else
      done self
  | .jmp =>
    if inst.isFar then
      done { self with cpu := { self.cpu with ip := inst.immediate, cs := inst.immediate2 } }
    else
      done (self.setIp (inst.branchTarget ip))
  | .jcc => done (self.setIp (inst.branchTarget ip))
  | .call =>
    let retIp := ip + inst.length.toUInt16
    done ((self.pushWord retIp).setIp (inst.branchTarget ip))
  | .ret =>
    let self := (self.setIp self.topWord).setSp (self.cpu.sp + 2)
    if inst.immediate > 0 then
      done (self.setSp (self.cpu.sp + inst.immediate))
    else
      done self
  | .push =>
    let regIdx := inst.opcode.toUInt8 &&& 0x07
    done (self.pushWord (self.readGp16 regIdx))
  | .pop =>
    let regIdx := inst.opcode.toUInt8 &&& 0x07
    let val := self.topWord
    done ((self.setSp (self.cpu.sp + 2)).writeGp16 regIdx val)
  | .mov =>
    let regIdx := inst.opcode.toUInt8 &&& 0x07
    done (self.writeGp16 regIdx inst.immediate)
  | .alu | .string | .other => done self

/-- Execute one instruction (`step`); the flag tells whether execution should continue. -/
def step (self : X8088Executor) : Option (X8088Executor × Bool) :=
  if self.cpu.halted then some (self, false)
  else
    let cs := self.cpu.cs
    let ip := self.cpu.ip
    match decode8088 self.mem cs ip with
    | none => some (self, false)
    | some inst => (self.setIp (ip + inst.length.toUInt16)).dispatch inst ip

end X8088Executor

end Bemi.I8088
