import Mathlib.Algebra.GroupWithZero.Nat
import Bemi.Apic.Shadow

/-!
# APIC shadow registers

The rest of `hwcompat/apic/ApicShadow.c`: reading and writing registers, end of interrupt, injection,
guest accesses to the APIC page, the initial state and the timer. The timer variables extend the
register file. `irr` and `isr` are the vectors requested and in service.
-/

namespace Bemi.Apic

structure Lapic extends ApicShadow where
  gTimerEnabled : Bool
  gTimerInitialCount : UInt32
  gTimerCurrentCount : UInt32
  gTimerLvt : UInt32

def apicShadowRead (a : ApicShadow) (offset : UInt32) : UInt32 :=
  if h : offset.toNat < lapicRegsSize then a.gLapicRegs ⟨offset.toNat / 4, by
    change offset.toNat < 0x400 at h
    change _ < 256
    omega⟩
  else 0

local instance neZero_eight : NeZero 8 := ⟨Nat.succ_ne_zero 7⟩

/-- Clear the bit of the highest vector in service. -/
def apicShadowEoi (asmMsb32 : UInt32 → UInt32) (a : ApicShadow) : ApicShadow :=
  match [7, 6, 5, 4, 3, 2, 1, 0].find? fun i => a.gLapicRegs (isrReg i) ≠ 0 with
  | none => a
  | some i =>
    let bit := 31 - asmMsb32 (a.gLapicRegs (isrReg i))
    ⟨Function.update a.gLapicRegs (isrReg i)
      (a.gLapicRegs (isrReg i) &&& ~~~(1 <<< bit))⟩

def apicShadowWrite (asmMsb32 : UInt32 → UInt32) (a : Lapic) (offset value : UInt32) : Lapic :=
  if h : offset.toNat < lapicRegsSize then
    let reg : Fin (lapicRegsSize / 4) := ⟨offset.toNat / 4, by
      change offset.toNat < 0x400 at h
      change _ < 256
      omega⟩
    let a := { a with gLapicRegs := Function.update a.gLapicRegs reg value }
    if offset = 0x320 then
      { a with gTimerLvt := value }
    else if offset = 0x380 then
      { a with
        gTimerInitialCount := value
        gTimerCurrentCount := value
        gTimerEnabled := value > 0 && a.gTimerLvt &&& 0x10000 = 0 }
    else if offset = 0xB0 then
      { a with toApicShadow := apicShadowEoi asmMsb32 a.toApicShadow }
    else a
  else a

/-- Request an interrupt. A register beyond the file is left alone; `0` is returned then. -/
def apicShadowInjectInterrupt (a : ApicShadow) (vector : UInt32) : ApicShadow × UInt32 :=
  let regIndex := (0x200 + vector / 32 * 16) / 4
  if h : regIndex.toNat < lapicRegsSize / 4 then
    let reg : Fin (lapicRegsSize / 4) := ⟨regIndex.toNat, h⟩
    (⟨Function.update a.gLapicRegs reg (a.gLapicRegs reg ||| (1 <<< (vector % 32)))⟩, vector)
  else (a, 0)

/-- A guest access to the APIC page: whether it is one, and the value read or written. -/
def apicHandleMmioAccess (asmMsb32 : UInt32 → UInt32) (a : Lapic)
    (guestPhysicalAddress : UInt64) (isWrite : Bool) (registerValue : UInt64) :
    Lapic × UInt64 × Bool :=
  if guestPhysicalAddress < 0xFEE00000 ∨ guestPhysicalAddress ≥ 0xFEE01000 then
    (a, registerValue, false)
  else
    let offset := (guestPhysicalAddress - 0xFEE00000).toUInt32
    if isWrite then
      (apicShadowWrite asmMsb32 a offset registerValue.toUInt32, registerValue, true)
    else
      (a, (apicShadowRead a.toApicShadow offset).toUInt64, true)

def apicShadowInit (apicId : UInt32) : Lapic :=
  let regs : Fin (lapicRegsSize / 4) → UInt32 := fun _ => 0
  let regs := Function.update regs ⟨0x20 / 4, by decide⟩ (apicId <<< 24)
  let regs := Function.update regs ⟨0x30 / 4, by decide⟩ 0x50014
  let regs := Function.update regs ⟨0xF0 / 4, by decide⟩ 0xFF
  { gLapicRegs := regs
    gTimerEnabled := false
    gTimerInitialCount := 0
    gTimerCurrentCount := 0
    gTimerLvt := 0x10000 }

def apicShadowTimerTick (a : Lapic) : Lapic :=
  if a.gTimerEnabled ∧ a.gTimerCurrentCount > 0 then
    let a := { a with gTimerCurrentCount := a.gTimerCurrentCount - 1 }
    if a.gTimerCurrentCount = 0 then
      let vector := a.gTimerLvt &&& 0xFF
      let a :=
        if vector ≥ 16 then
          { a with toApicShadow := (apicShadowInjectInterrupt a.toApicShadow vector).1 }
        else a
      -- periodic or one-shot
      if a.gTimerLvt &&& 0x20000 ≠ 0 then { a with gTimerCurrentCount := a.gTimerInitialCount }
      else { a with gTimerEnabled := false }
    else a
  else a

/-! ## Requested and in service -/

/-- Is a vector set in the eight registers at a block? -/
def vectorSet (a : ApicShadow) (reg : Fin 8 → Fin (lapicRegsSize / 4)) (v : Nat) : Bool :=
  if h : v / 32 < 8 then (a.gLapicRegs (reg ⟨v / 32, h⟩)).toNat.testBit (v % 32) else false

/-- The vectors in IRR. -/
def irr (a : ApicShadow) (v : Nat) : Bool := vectorSet a irrReg v

/-- The vectors in ISR. -/
def isr (a : ApicShadow) (v : Nat) : Bool := vectorSet a isrReg v

end Bemi.Apic
