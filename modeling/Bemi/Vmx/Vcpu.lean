import Bemi.Lib.TailCall
import Bemi.Vmx.Handler

/-!
# The VMX backend

Model of `HypervisorBackendInit`, `VmxVcpuCreate`, `VmxSetupVmcs` and `VmxHandleExit` in
`hypervisor/vmx/vmxcore.c`. What the allocator answers, and whether `VMXON`, `VMCLEAR` and `VMPTRLD`
succeed, is a parameter (`Outcomes`). A pointer in the dispatch table is the name of the function.
-/

namespace Bemi.Vmx

/-! ## State -/

inductive HypervisorVendor where
  | hypervisorIntel | hypervisorAmd | hypervisorUnknown
  deriving DecidableEq, Repr

/-- The functions of type `HYPERVISOR_HANDLE_EXIT`. -/
inductive ExitFunction where
  | vmxHandleExit | handleCpuidExit | handleMsrExit | handleCrAccess | handleIoExit
  deriving DecidableEq, Repr

/-- The functions behind the other pointers of the table. -/
inductive BackendFunction where
  | hypervisorBackendInit | vmxVcpuCreate | vmxVcpuRun
  deriving DecidableEq, Repr

/-- `HYPERVISOR_BACKEND`; a `none` is `NULL`. -/
structure HypervisorBackend where
  vendor : HypervisorVendor
  init : Option BackendFunction
  vcpuCreate : Option BackendFunction
  vcpuRun : Option BackendFunction
  handleExit : Option ExitFunction
  featureFlags : UInt64
  pageTableHost : UInt64

structure VcpuState where
  vmcsPhysAddr : UInt64
  vmxonRegionPhys : UInt64
  active : Bool
  deriving DecidableEq, Repr

/-- The globals of `vmxcore.c`, the processor with the VMCS of each region, and the pages that are
allocated, with their first doublewords. -/
structure Core where
  gVcpuState : UInt64 → VcpuState
  gCpuCount : UInt64
  gHypervisorBackend : HypervisorBackend
  cr0 : UInt64
  cr3 : UInt64
  cr4 : UInt64
  msrs : UInt32 → UInt64
  gdtrBase : UInt64
  idtrBase : UInt64
  vmxOperation : Bool
  currentVmcs : UInt64
  vmcs : UInt64 → UInt64 → UInt64
  pages : List UInt64
  revId : UInt64 → UInt32

/-- What the allocator and the processor answer. -/
structure Outcomes where
  vmxonRegion : Option UInt64
  vmcsRegion : Option UInt64
  bemiVmxOn : UInt32
  bemiVmClear : UInt32
  bemiVmPtrLd : UInt32

def maxLogicalProcessors : UInt64 := 256

/-! ## Initialisation -/

/-- Set VMXE in CR4. -/
def enableVmx (c : Core) : Core :=
  if c.cr4 &&& 0x2000 = 0 then { c with cr4 := c.cr4 ||| 0x2000 } else c

def hypervisorBackendInit (cpuCount : UInt64) (c : Core) : Core × EfiStatus :=
  let c := enableVmx { c with gCpuCount := cpuCount, gVcpuState := fun _ => ⟨0, 0, false⟩ }
  if c.cr0 &&& 0x80000000 = 0 ∨ c.cr0 &&& 1 = 0 then (c, .unsupported)
  else if c.msrs 0x3A &&& 1 = 0 then (c, .unsupported)
  else if c.msrs 0x3A &&& 4 = 0 then (c, .unsupported)
  else
    ({ c with
      gHypervisorBackend :=
        { vendor := .hypervisorIntel
          init := some .hypervisorBackendInit
          vcpuCreate := some .vmxVcpuCreate
          vcpuRun := some .vmxVcpuRun
          handleExit := some .vmxHandleExit
          featureFlags := 0
          pageTableHost := c.cr3 } },
      .success)

/-! ## Creating a VCPU -/

def adjustCtrl (msrs : UInt32 → UInt64) (msr : UInt32) (requested : UInt64) : UInt64 :=
  let msrValue := msrs msr
  let allowedZero := msrValue &&& 0xFFFFFFFF
  let allowedOne := (msrValue >>> 32) &&& 0xFFFFFFFF
  (requested ||| allowedZero) &&& allowedOne

/-- The writes of `VmxSetupVmcs` to the VMCS, in their order. -/
def setupWrites (entryPoint stackPointer : UInt64) (c : Core) : List (UInt64 × UInt64) :=
  let pinCtrl := adjustCtrl c.msrs 0x481 (0x1 ||| 0x8)
  let procCtrl := adjustCtrl c.msrs 0x482 (0x10000000 ||| 0x1000000)
  let procCtrl2 := adjustCtrl c.msrs 0x48B (0x2 ||| 0x20 ||| 0x100000)
  let exitCtrl := adjustCtrl c.msrs 0x485 (0x200 ||| 0x200000 ||| 0x4)
  let entryCtrl := adjustCtrl c.msrs 0x484 0x8000
  let hostCr3 := c.cr3
  -- controls
  [(0x4000, pinCtrl), (0x4002, procCtrl), (0x401E, procCtrl2), (0x400C, exitCtrl),
    (0x4012, entryCtrl), (0x4004, 0), (0x4006, 0),
    -- host state
    (0x6C00, c.cr0), (0x6C02, hostCr3), (0x6C04, c.cr4), (0x2C02, c.msrs 0xC0000080),
    -- guest segment selectors and bases
    (0x802, 0x08), (0x806, 0x10), (0x800, 0x10), (0x804, 0x10), (0x808, 0x10), (0x80A, 0x10),
    (0x80C, 0x00), (0x80E, 0x18),
    (0x608, 0), (0x618, 0), (0x600, 0), (0x610, 0), (0x620, 0), (0x628, 0), (0x630, 0),
    (0x638, 0),
    (0x658, c.gdtrBase), (0x65C, c.idtrBase),
    -- guest registers
    (0x6800, c.cr0), (0x6802, hostCr3), (0x6804, c.cr4), (0x6820, 0x2),
    (0x2806, c.msrs 0xC0000080), (0x681E, entryPoint), (0x681C, stackPointer)]

def vmxSetupVmcs (entryPoint stackPointer : UInt64) (c : Core) : Core × EfiStatus :=
  let vmcs := (setupWrites entryPoint stackPointer c).foldl
    (fun vmcs w => bemiVmWrite vmcs w.1 w.2) (c.vmcs c.currentVmcs)
  ({ c with vmcs := Function.update c.vmcs c.currentVmcs vmcs }, .success)

/-- `AllocateAlignedPages`, `ZeroMem` and the revision identifier. -/
def allocateRegion (region : UInt64) (revId : UInt32) (c : Core) : Core :=
  { c with pages := region :: c.pages, revId := Function.update c.revId region revId }

def freeAlignedPages (region : UInt64) (c : Core) : Core :=
  { c with pages := c.pages.erase region }

def setVcpu (vcpuId : UInt64) (v : VcpuState) (c : Core) : Core :=
  { c with gVcpuState := Function.update c.gVcpuState vcpuId v }

/-- From `VMXON` on. -/
def startVcpu (o : Outcomes) (vcpuId entryPoint stackPointer : UInt64) (c : Core) :
    Core × EfiStatus :=
  if o.bemiVmxOn ≠ 0 then (c, .deviceError)
  else
    let c := { c with vmxOperation := true }
    if o.bemiVmClear ≠ 0 then (c, .deviceError)
    else if o.bemiVmPtrLd ≠ 0 then (c, .deviceError)
    else
      let c := { c with currentVmcs := (c.gVcpuState vcpuId).vmcsPhysAddr }
      let (c, status) := vmxSetupVmcs entryPoint stackPointer c
      if status.isError then (c, status)
      else (setVcpu vcpuId { c.gVcpuState vcpuId with active := true } c, .success)

def vmxVcpuCreate (o : Outcomes) (vcpuId entryPoint stackPointer : UInt64) (c : Core) :
    Core × EfiStatus :=
  if vcpuId ≥ maxLogicalProcessors then (c, .invalidParameter)
  else
    let revId := (c.msrs 0x480 &&& 0x7FFFFFFF).toUInt32
    match o.vmxonRegion with
    | none => (c, .outOfResources)
    | some vmxonRegion =>
      let c := allocateRegion vmxonRegion revId c
      match o.vmcsRegion with
      | none => (freeAlignedPages vmxonRegion c, .outOfResources)
      | some vmcsRegion =>
        let c := allocateRegion vmcsRegion revId c
        let c := setVcpu vcpuId ⟨vmcsRegion, vmxonRegion, false⟩ c
        startVcpu o vcpuId entryPoint stackPointer c

/-! ## Outcomes -/

/-- The three instructions succeed. -/
def Outcomes.Started (o : Outcomes) : Prop :=
  o.bemiVmxOn = 0 ∧ o.bemiVmClear = 0 ∧ o.bemiVmPtrLd = 0

instance Outcomes.decidableStarted (o : Outcomes) : Decidable o.Started :=
  inferInstanceAs (Decidable (_ ∧ _))

/-- With both regions allocated and entered in `gVcpuState`. -/
def prepare (vmxonRegion vmcsRegion vcpuId : UInt64) (c : Core) : Core :=
  let revId := (c.msrs 0x480 &&& 0x7FFFFFFF).toUInt32
  setVcpu vcpuId ⟨vmcsRegion, vmxonRegion, false⟩
    (allocateRegion vmcsRegion revId (allocateRegion vmxonRegion revId c))

section
variable (o : Outcomes) (vcpuId entryPoint stackPointer : UInt64) (c : Core)

/-- A failing instruction leaves all else as it was prepared. -/
lemma startVcpu_of_not (h : ¬ o.Started) :
    ∃ on, startVcpu o vcpuId entryPoint stackPointer c =
      ({ c with vmxOperation := on }, .deviceError) := by
  rw [startVcpu]
  by_cases hon : o.bemiVmxOn = 0
  · rw [if_neg (not_not_intro hon)]
    by_cases hclear : o.bemiVmClear = 0
    · have hptr : o.bemiVmPtrLd ≠ 0 := fun heq => h ⟨hon, hclear, heq⟩
      rw [if_neg (not_not_intro hclear), if_pos hptr]
      exact ⟨true, rfl⟩
    · rw [if_pos hclear]
      exact ⟨true, rfl⟩
  · rw [if_pos hon]
    exact ⟨c.vmxOperation, rfl⟩

lemma startVcpu_of_started (h : o.Started) :
    startVcpu o vcpuId entryPoint stackPointer c =
      (setVcpu vcpuId { c.gVcpuState vcpuId with active := true }
        (vmxSetupVmcs entryPoint stackPointer
          { c with
            vmxOperation := true
            currentVmcs := (c.gVcpuState vcpuId).vmcsPhysAddr }).1, .success) := by
  obtain ⟨hon, hclear, hptr⟩ := h
  rw [startVcpu, if_neg (not_not_intro hon)]
  dsimp only
  rw [if_neg (not_not_intro hclear), if_neg (not_not_intro hptr)]
  rfl

/-- Where a call ends. -/
theorem vmxVcpuCreate_cases :
    (¬ vcpuId < maxLogicalProcessors ∧
        vmxVcpuCreate o vcpuId entryPoint stackPointer c = (c, .invalidParameter)) ∨
      (vmxVcpuCreate o vcpuId entryPoint stackPointer c).2 = .outOfResources ∧
        (o.vmxonRegion = none ∧ (vmxVcpuCreate o vcpuId entryPoint stackPointer c).1 = c ∨
          o.vmcsRegion = none ∧ ∃ vmxonRegion revId,
            (vmxVcpuCreate o vcpuId entryPoint stackPointer c).1 =
              freeAlignedPages vmxonRegion (allocateRegion vmxonRegion revId c)) ∨
      vcpuId < maxLogicalProcessors ∧ ∃ vmxonRegion vmcsRegion,
        o.vmxonRegion = some vmxonRegion ∧ o.vmcsRegion = some vmcsRegion ∧
          vmxVcpuCreate o vcpuId entryPoint stackPointer c =
            startVcpu o vcpuId entryPoint stackPointer
              (prepare vmxonRegion vmcsRegion vcpuId c) := by
  rw [vmxVcpuCreate]
  by_cases hid : vcpuId ≥ maxLogicalProcessors
  · rw [if_pos hid]
    exact .inl ⟨UInt64.not_lt.mpr hid, rfl⟩
  rw [if_neg hid]
  cases hvmxon : o.vmxonRegion with
  | none => exact .inr (.inl ⟨rfl, .inl ⟨rfl, rfl⟩⟩)
  | some vmxonRegion =>
    cases hvmcs : o.vmcsRegion with
    | none => exact .inr (.inl ⟨rfl, .inr ⟨rfl, vmxonRegion, _, rfl⟩⟩)
    | some vmcsRegion =>
      exact .inr (.inr ⟨UInt64.not_le.mp hid, vmxonRegion, vmcsRegion, rfl, rfl, rfl⟩)

end

/-! ## Exits -/

/-- The functions that `HandleExit` may be. `VmxHandleExit` calls the one in the table; a call of
`NULL` does not come back. -/
def exitFunction (host : Host) (info : VmExitInfo) (g : GuestState) (c : Core) :
    Option ExitFunction → Option ExitFunction ⊕ Core × GuestState × EfiStatus
  | none => .inl none
  | some .vmxHandleExit => .inl c.gHypervisorBackend.handleExit
  | some .handleCpuidExit => .inr (c, handleCpuidExit host info g)
  | some .handleMsrExit =>
    let (msrs, g, status) := handleMsrExit info c.msrs g
    .inr ({ c with msrs := msrs }, g, status)
  | some .handleCrAccess => .inr (c, handleCrAccess info g)
  | some .handleIoExit => .inr (c, handleIoExit info g)

/-- `gHypervisorBackend.HandleExit(ExitInfo, GuestState)` returns. -/
def HandleExitReturns (host : Host) (info : VmExitInfo) (g : GuestState) (c : Core) : Prop :=
  TailCall.Returns (exitFunction host info g c) c.gHypervisorBackend.handleExit

/-- A processor in protected mode with paging, and VMX enabled and locked by the firmware. -/
def readyCore : Core where
  gVcpuState := fun _ => ⟨0, 0, false⟩
  gCpuCount := 0
  gHypervisorBackend := ⟨.hypervisorIntel, none, none, none, none, 0, 0⟩
  cr0 := 0x80000001
  cr3 := 0
  cr4 := 0
  msrs := fun index => if index = 0x3A then 5 else 0
  gdtrBase := 0
  idtrBase := 0
  vmxOperation := false
  currentVmcs := 0
  vmcs := fun _ _ => 0
  pages := []
  revId := fun _ => 0

end Bemi.Vmx
