import Mathlib.Tactic.Common
import Mathlib.Logic.Function.Basic

/-!
# APIC shadow

The register file of `hwcompat/apic/ApicShadow.c` and the function by which the exit handlers take
the next pending interrupt from it. `AsmMsb32` is not part of the repository.
-/

namespace Bemi.Apic

abbrev lapicRegsSize : Nat := 0x400

structure ApicShadow where
  gLapicRegs : Fin (lapicRegsSize / 4) → UInt32

/-- The `i`-th register of the block at `block`, `0x100` for ISR and `0x200` for IRR. -/
def blockReg (block : Nat) (h : block ≤ 0x200) (i : Fin 8) : Fin (lapicRegsSize / 4) :=
  ⟨(block + i * 16) / 4, by
    change _ < 256
    have := i.isLt
    omega⟩

def isrReg : Fin 8 → Fin (lapicRegsSize / 4) := blockReg 0x100 (by decide)

def irrReg : Fin 8 → Fin (lapicRegsSize / 4) := blockReg 0x200 (by decide)

/-- The vector taken, if one was requested, which moves from IRR to ISR. -/
def apicGetPendingInterrupt (asmMsb32 : UInt32 → UInt32) (a : ApicShadow) :
    ApicShadow × Option UInt32 :=
  match [7, 6, 5, 4, 3, 2, 1, 0].find? fun i => a.gLapicRegs (irrReg i) ≠ 0 with
  | none => (a, none)
  | some i =>
    let bit := 31 - asmMsb32 (a.gLapicRegs (irrReg i))
    let v := UInt32.ofNat i * 32 + bit
    let regs := Function.update a.gLapicRegs (irrReg i)
      (a.gLapicRegs (irrReg i) &&& ~~~(1 <<< bit))
    (⟨Function.update regs (isrReg i) (regs (isrReg i) ||| (1 <<< bit))⟩, some v)

end Bemi.Apic
