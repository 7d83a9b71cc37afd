import Bemi.Apic.Shadow
import Bemi.Efi

/-!
# VM exits

Model of `BemiVmxExitHandler` and the exit handlers of `hypervisor/vmx/vmxcore.c`. The VMCS is a
store of fields, read by `BemiVmRead` and written by `BemiVmWrite`. The processor's `CPUID` and
`AsmMsb32` are parameters. Of `GUEST_STATE` the fields are kept that the handlers use; its first
sixteen, the general registers, are indexed by `Gpr` in their order.
-/

namespace Bemi.Vmx
open Bemi.Apic

inductive Gpr where
  | rax | rbx | rcx | rdx | rsi | rdi | rbp | rsp
  | r8 | r9 | r10 | r11 | r12 | r13 | r14 | r15
  deriving DecidableEq, Repr

/-- The first sixteen fields of `GUEST_STATE` as an array. -/
def gprArray : List Gpr :=
  [.rax, .rbx, .rcx, .rdx, .rsi, .rdi, .rbp, .rsp,
   .r8, .r9, .r10, .r11, .r12, .r13, .r14, .r15]

structure GuestState where
  gpr : Gpr → UInt64
  guestRip : UInt64
  guestRflags : UInt64
  guestCr0 : UInt64
  guestCr3 : UInt64
  guestCr4 : UInt64
  guestEfer : UInt64

structure VmExitInfo where
  exitReason : UInt64
  exitQualification : UInt64
  guestRip : UInt64
  guestRsp : UInt64
  instructionLength : UInt64
  exitInterruptInfo : UInt64
  exitInterruptErrorCode : UInt64

structure CpuidRegs where
  eax : UInt32
  ebx : UInt32
  ecx : UInt32
  edx : UInt32

/-- The processor. -/
structure Host where
  asmCpuidEx : UInt32 → UInt32 → CpuidRegs
  asmMsb32 : UInt32 → UInt32

/-- What the handlers change beside the guest state. -/
structure VmxState where
  vmcs : UInt64 → UInt64
  msrs : UInt32 → UInt64
  apic : ApicShadow

def GuestState.setGpr (g : GuestState) (r : Gpr) (v : UInt64) : GuestState :=
  { g with gpr := Function.update g.gpr r v }

lemma gpr_setGpr_self (g : GuestState) (r : Gpr) (v : UInt64) : (g.setGpr r v).gpr r = v :=
  Function.update_self _ _ _

lemma setGpr_self (g : GuestState) (r : Gpr) : g.setGpr r (g.gpr r) = g := by
  rw [GuestState.setGpr, Function.update_eq_self]

/-- `GuestState->GuestRip += ExitInfo->InstructionLength`. -/
def GuestState.advance (g : GuestState) (info : VmExitInfo) : GuestState :=
  { g with guestRip := g.guestRip + info.instructionLength }

/-! ## Exit handlers -/

/-- What `HandleCpuidExit` answers for a leaf and a subleaf. -/
def cpuidAnswer (host : Host) (leaf subleaf : UInt32) : CpuidRegs :=
  let c := host.asmCpuidEx leaf subleaf
  -- leaf 1 without the hypervisor bit and VMX
  let c := if leaf = 1 then
      { c with ecx := c.ecx &&& ~~~(0x80000000 : UInt32) &&& ~~~(0x20 : UInt32) }
    else c
  if leaf = 0 ∧ c.eax > 0x1F then { c with eax := 0x1F } else c

def handleCpuidExit (host : Host) (info : VmExitInfo) (g : GuestState) : GuestState × EfiStatus :=
  let c := cpuidAnswer host (g.gpr .rax).toUInt32 (g.gpr .rcx).toUInt32
  ((((((g.setGpr .rax c.eax.toUInt64).setGpr .rbx c.ebx.toUInt64).setGpr .rcx
    c.ecx.toUInt64).setGpr .rdx c.edx.toUInt64)).advance info, .success)

def handleMsrExit (info : VmExitInfo) (msrs : UInt32 → UInt64) (g : GuestState) :
    (UInt32 → UInt64) × GuestState × EfiStatus :=
  let msrIndex := (g.gpr .rcx).toUInt32
  if info.exitReason = 0x1F then
    let msrValue := msrs msrIndex
    (msrs, ((g.setGpr .rax (msrValue &&& 0xFFFFFFFF)).setGpr .rdx (msrValue >>> 32)).advance info,
      .success)
  else
    let msrValue := (g.gpr .rax &&& (0xFFFFFFFF : UInt64)) ||| (g.gpr .rdx <<< (32 : UInt64))
    -- two MSRs are protected
    let msrs := if msrIndex = 0x3A ∨ msrIndex = 0x13C then msrs
      else Function.update msrs msrIndex msrValue
    (msrs, g.advance info, .success)

def handleCrAccess (info : VmExitInfo) (g : GuestState) : GuestState × EfiStatus :=
  let qualification := info.exitQualification
  let crNum := qualification &&& 0x0F
  let accessType := (qualification >>> 4) &&& 0x03
  let regNum := (qualification >>> 8) &&& 0x0F
  let reg := gprArray.getD regNum.toNat .r15
  let g :=
    if accessType = 0 then
      let val := g.gpr reg
      if crNum = 0 then { g with guestCr0 := val }
      else if crNum = 3 then { g with guestCr3 := val }
      else if crNum = 4 then { g with guestCr4 := val }
      else g
    else
      g.setGpr reg
        (if crNum = 0 then g.guestCr0
        else if crNum = 3 then g.guestCr3
        else if crNum = 4 then g.guestCr4
        else 0)
  (g.advance info, .success)

/-- I/O exits are consumed. -/
def handleIoExit (info : VmExitInfo) (g : GuestState) : GuestState × EfiStatus :=
  (g.advance info, .success)

/-- The `switch` on the exit reason. -/
def dispatch (host : Host) (info : VmExitInfo) (msrs : UInt32 → UInt64) (g : GuestState) :
    (UInt32 → UInt64) × GuestState :=
  let exitReason := info.exitReason
  if exitReason = 0x0A then (msrs, (handleCpuidExit host info g).1)
  else if exitReason = 0x1F ∨ exitReason = 0x20 then
    let (msrs, g, _) := handleMsrExit info msrs g
    (msrs, g)
  else if exitReason = 0x1C then (msrs, (handleCrAccess info g).1)
  else if exitReason = 0x1E then (msrs, (handleIoExit info g).1)
  -- an external interrupt, an open interrupt window, the preemption timer
  else if exitReason = 0x01 ∨ exitReason = 0x07 ∨ exitReason = 0x34 then (msrs, g)
  -- HLT, INVD, XSETBV, EPT exits, VMCALL and those that are not handled
  else (msrs, g.advance info)

/-! ## The handler -/

/-- The registers that the stub has saved; the rest of `guestState` is zero. -/
def loadGprs (guestGprBase : List UInt64) : Gpr → UInt64
  | .rax => guestGprBase.getD 0 0
  | .rbx => guestGprBase.getD 1 0
  | .rcx => guestGprBase.getD 2 0
  | .rdx => guestGprBase.getD 3 0
  | .rsi => guestGprBase.getD 4 0
  | .rdi => guestGprBase.getD 5 0
  | .rbp => guestGprBase.getD 6 0
  | .rsp => 0
  | .r8 => guestGprBase.getD 7 0
  | .r9 => guestGprBase.getD 8 0
  | .r10 => guestGprBase.getD 9 0
  | .r11 => guestGprBase.getD 10 0
  | .r12 => guestGprBase.getD 11 0
  | .r13 => guestGprBase.getD 12 0
  | .r14 => guestGprBase.getD 13 0
  | .r15 => guestGprBase.getD 14 0

/-- Write the registers back to the stub's save area. -/
def storeGprs (gpr : Gpr → UInt64) (guestGprBase : List UInt64) : List UInt64 :=
  [gpr .rax, gpr .rbx, gpr .rcx, gpr .rdx, gpr .rsi, gpr .rdi, gpr .rbp, gpr .r8, gpr .r9,
    gpr .r10, gpr .r11, gpr .r12, gpr .r13, gpr .r14, gpr .r15] ++ guestGprBase.drop 15

def vmxReadGuestState (vmcs : UInt64 → UInt64) (g : GuestState) : GuestState where
  gpr := Function.update g.gpr .rsp (vmcs 0x681C)
  guestRip := vmcs 0x681E
  guestRflags := vmcs 0x6820
  guestCr0 := vmcs 0x6800
  guestCr3 := vmcs 0x6802
  guestCr4 := vmcs 0x6804
  guestEfer := vmcs 0x2806

def bemiVmWrite (vmcs : UInt64 → UInt64) (field value : UInt64) : UInt64 → UInt64 :=
  Function.update vmcs field value

def vmxWriteGuestState (vmcs : UInt64 → UInt64) (g : GuestState) : UInt64 → UInt64 :=
  let vmcs := bemiVmWrite vmcs 0x681E g.guestRip
  let vmcs := bemiVmWrite vmcs 0x681C (g.gpr .rsp)
  let vmcs := bemiVmWrite vmcs 0x6800 g.guestCr0
  let vmcs := bemiVmWrite vmcs 0x6802 g.guestCr3
  let vmcs := bemiVmWrite vmcs 0x6804 g.guestCr4
  let vmcs := bemiVmWrite vmcs 0x2806 g.guestEfer
  bemiVmWrite vmcs 0x6820 g.guestRflags

def readExitInfo (vmcs : UInt64 → UInt64) (g : GuestState) : VmExitInfo where
  exitReason := vmcs 0x4402
  exitQualification := vmcs 0x6400
  guestRip := g.guestRip
  guestRsp := g.gpr .rsp
  instructionLength := vmcs 0x440C
  exitInterruptInfo := vmcs 0x4404
  exitInterruptErrorCode := vmcs 0x4406

/-- Deliver a pending APIC interrupt if IF is set. -/
def deliverPending (host : Host) (s : VmxState) (g : GuestState) : VmxState :=
  match apicGetPendingInterrupt host.asmMsb32 s.apic with
  | (apic, none) => { s with apic := apic }
  | (apic, some pendingVector) =>
    if (g.guestRflags &&& 0x200) ≠ 0 then
      { s with
        apic := apic
        vmcs := bemiVmWrite s.vmcs 0x4016 (pendingVector ||| 0x700).toUInt64 }
    else { s with apic := apic }

/-- `BemiVmxExitHandler`: the state, and the save area at `GuestGprBase`. -/
def bemiVmxExitHandler (host : Host) (s : VmxState) (guestGprBase : List UInt64) :
    VmxState × List UInt64 :=
  let guestState := vmxReadGuestState s.vmcs ⟨loadGprs guestGprBase, 0, 0, 0, 0, 0, 0⟩
  let exitInfo := readExitInfo s.vmcs guestState
  let (msrs, guestState) := dispatch host exitInfo s.msrs guestState
  let s := { s with msrs := msrs, vmcs := vmxWriteGuestState s.vmcs guestState }
  (deliverPending host s guestState, storeGprs guestState.gpr guestGprBase)

end Bemi.Vmx
