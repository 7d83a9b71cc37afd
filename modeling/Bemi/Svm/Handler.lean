import Bemi.Apic.Registers
import Bemi.Vmx.Handler

/-!
# SVM exits

Model of `BemiSvmExitHandler` of `hypervisor/svm/svmcore.c`, which shares its exit handlers with
VMX. The VMCB is a store of 64-bit fields at their offsets.
-/

namespace Bemi.Svm
open Bemi.Apic Bemi.Vmx

/-- What the handler changes beside the guest state. -/
structure SvmState where
  vmcb : UInt64 → UInt64
  msrs : UInt32 → UInt64
  apic : Lapic

/-- The guest state at an exit: the registers saved and the fields read from the VMCB. -/
def readGuestState (vmcb : UInt64 → UInt64) (guestGprBase : List UInt64) : GuestState where
  gpr := Function.update (loadGprs guestGprBase) .rsp (vmcb 0x148)
  guestRip := vmcb 0x138
  guestRflags := vmcb 0x140
  guestCr0 := vmcb 0x100
  guestCr3 := vmcb 0x110
  guestCr4 := vmcb 0x118
  guestEfer := 0

/-- The exit code, EXITINFO1, and a length taken from the next RIP. -/
def readExitInfo (vmcb : UInt64 → UInt64) (g : GuestState) : VmExitInfo where
  exitReason := vmcb 0x70
  exitQualification := vmcb 0x78
  guestRip := g.guestRip
  guestRsp := g.gpr .rsp
  instructionLength := if vmcb 0x90 > g.guestRip then vmcb 0x90 - g.guestRip else 3
  exitInterruptInfo := 0
  exitInterruptErrorCode := 0

/-- A nested page fault: accesses to the APIC page are carried out. -/
def handleNpf (host : Host) (info : VmExitInfo) (apic : Lapic) (g : GuestState) :
    Lapic × GuestState :=
  let gpa := info.exitQualification &&& 0xFFFFFFFFFFFFF000
  let (apic, g) :=
    if gpa ≥ 0xFEC00000 ∧ gpa < 0xFF000000 then
      let isWrite := info.exitQualification &&& 0x20 ≠ 0
      match apicHandleMmioAccess host.asmMsb32 apic gpa isWrite (g.gpr .rax) with
      | (apic, value, true) =>
        if isWrite then (apic, g)
        else
          (apic, g.setGpr .rax ((g.gpr .rax &&& ~~~(0xFFFFFFFF : UInt64)) |||
            (value &&& 0xFFFFFFFF)))
      | (apic, _, false) => (apic, g)
    else (apic, g)
  (apic, { g with guestRip := g.guestRip + 1 })

/-- The `switch` on the exit code. -/
def dispatch (host : Host) (info : VmExitInfo) (s : SvmState) (g : GuestState) :
    SvmState × GuestState × EfiStatus :=
  let exitReason := info.exitReason
  if exitReason = 0x72 then
    let (g, status) := handleCpuidExit host info g
    (s, g, status)
  else if exitReason = 0x7C then
    let (msrs, g, status) := handleMsrExit info s.msrs g
    ({ s with msrs := msrs }, g, status)
  else if exitReason = 0x00 ∨ exitReason = 0x03 ∨ exitReason = 0x04 ∨ exitReason = 0x10 ∨
      exitReason = 0x13 ∨ exitReason = 0x14 then
    let (g, status) := handleCrAccess info g
    (s, g, status)
  else if exitReason = 0x7B then
    let (g, status) := handleIoExit info g
    (s, g, status)
  else if exitReason = 0x78 then
    (s, g.advance info, .success)
  else if exitReason = 0x400 then
    let (apic, g) := handleNpf host info s.apic g
    ({ s with apic := apic }, g, .success)
  else
    (s, { g with guestRip := g.guestRip + 1 }, .success)

def writeGuestState (vmcb : UInt64 → UInt64) (g : GuestState) : UInt64 → UInt64 :=
  let vmcb := Function.update vmcb 0x138 g.guestRip
  let vmcb := Function.update vmcb 0x148 (g.gpr .rsp)
  let vmcb := Function.update vmcb 0x100 g.guestCr0
  let vmcb := Function.update vmcb 0x110 g.guestCr3
  let vmcb := Function.update vmcb 0x118 g.guestCr4
  Function.update vmcb 0x140 g.guestRflags

/-- `BemiSvmExitHandler`: the state, the save area at `GuestGprBase`, and the status. -/
def bemiSvmExitHandler (host : Host) (s : SvmState) (guestGprBase : List UInt64) :
    SvmState × List UInt64 × EfiStatus :=
  let guestState := readGuestState s.vmcb guestGprBase
  let exitInfo := readExitInfo s.vmcb guestState
  let (s, guestState, status) := dispatch host exitInfo s guestState
  ({ s with vmcb := writeGuestState s.vmcb guestState },
    storeGprs guestState.gpr guestGprBase, status)

end Bemi.Svm
