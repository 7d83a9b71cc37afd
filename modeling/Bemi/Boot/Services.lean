import Bemi.Acpi.Madt
import Bemi.Boot.Protocol
import Bemi.BwGov.Governor
import Bemi.Csm.E820
import Bemi.L0.Cache
import Bemi.Rob.Distributor
import Bemi.Rob.V72
import Bemi.Vmx.Vcpu

/-!
# Memory of the firmware

Who owns the memory that the firmware allocates: `BemiInitHypervisor`, `VmxTestGuestLaunch` and
`BemiBiosEntryPoint` of `bemibioscore/dxe/bemibioscore.c`, `PostExecutePowerOnSelfTest` of
`bemibioscore/post/postroutines.c`, the services of `legacy/csm/CsmModule.c`, and the allocations of
`AcpiInitTables`, `VmxVcpuCreate` and the initialisation of the performance modules, whose other parts
are modelled elsewhere. The answers of other parts of the firmware are parameters.
-/

namespace Bemi.Boot
open Program Prog Ownership

/-! ## Compatibility services -/

inductive Int13Status where
  | noMedia
  | other (status : EfiStatus)
  deriving DecidableEq

/-- The function of a call is to read or to write sectors. -/
def BlockIo.transfer (blockIo : BlockIo) (function : UInt8) (lba : UInt64) (sectorCount : UInt16) :
    EfiStatus :=
  let size := (sectorCount.toUInt32 * blockIo.blockSize).toNat
  if function = 2 then (blockIo.readBlocks blockIo.mediaId lba size).1
  else if function = 3 then blockIo.writeBlocks blockIo.mediaId lba size
  else .unsupported

/-- Any drive is the first block device. -/
def csmEmulateInt13 (devices : List BlockIo) (function : UInt8) (lba : UInt64)
    (sectorCount : UInt16) : Prog Pool Int13Status := do
  match devices, ← locateHandleBuffer devices with
  | blockIo :: _, (_, some handles) =>
    if blockIo.handleProtocol.isError then do
      free handles
      pure (.other blockIo.handleProtocol)
    else do
      free handles
      pure (.other (blockIo.transfer function lba sectorCount))
  | _, _ => pure .noMedia

/-- The memory map services, which place a block that the pool grants somewhere. -/
structure MapServices extends Csm.BootServices where
  placed : ∀ size mem, (allocateZeroPool size mem).1 ≠ 0

/-- The services with a pool that refuses. -/
def MapServices.refusing (gBS : MapServices) : Csm.BootServices :=
  { gBS.toBootServices with allocateZeroPool := fun _ mem => (0, mem) }

def csmEmulateInt15E820 (gBS : MapServices) (mem : Ram.Bytes) (e820MapBuffer : UInt64)
    (mapCount : UInt32) : Prog Pool Csm.E820Result :=
  let query := gBS.sizeQuery
  if query.status ≠ .bufferTooSmall then pure ⟨query.status, mapCount, mem⟩
  else do
    match ← alloc with
    | none => pure ⟨.outOfResources, mapCount, mem⟩
    | some memoryMap =>
      let (address, mem) := gBS.allocateZeroPool (query.mapSize + 2 * query.descriptorSize) mem
      let (answer, mem) := gBS.dataQuery query.mapSize address mem
      if answer.status.isError then do
        free memoryMap
        pure ⟨answer.status, mapCount, mem⟩
      else
        let result := Csm.populate answer mem address e820MapBuffer mapCount
        do
          free memoryMap
          pure result

/-! ## ACPI and POST -/

/-- The table that is handed to the firmware, if any, and the status. -/
def acpiInitTables (firmware : Acpi.AcpiFirmware) (cpuCount : UInt32) :
    Prog Pool (Option (List UInt8) × EfiStatus) := do
  match ← alloc with
  | none => pure (none, .outOfResources)
  | some madt =>
    let status :=
      if ¬ firmware.locateProtocol.isError then firmware.installAcpiTable
      else firmware.installConfigurationTable
    do
      free madt
      pure (some (Acpi.madt cpuCount), status)

def wordCount : ℕ := 256

def testPattern : UInt64 := 0xDEADBEEFCAFEBABE

/-- `readBack` is what a word of the buffer holds when the pattern has been written to all of them; the
result has the status and what is written to port 0x80. -/
def postExecutePowerOnSelfTest (readBack : ℕ → UInt64) : Prog Pool (EfiStatus × Option UInt8) := do
  match ← alloc with
  | none => pure (.outOfResources, none)
  | some testBuffer => do
    let failure ← firstSome (fun i =>
      if readBack i ≠ testPattern then do
        free testBuffer
        pure (some (EfiStatus.deviceError, none))
      else pure none) (List.range wordCount)
    match failure with
    | some result => pure result
    | none => do
      free testBuffer
      pure (.success, some 1)

/-! ## The hypervisor -/

structure HypervisorResult where
  status : EfiStatus
  traceCacheBuffer : Option ℕ
  gMemComp : Option ℕ

def HypervisorResult.blocks (r : HypervisorResult) : List ℕ :=
  r.traceCacheBuffer.toList ++ r.gMemComp.toList

/-- `backendInit` and `smmInit` are the answers of `HypervisorBackendInit` and `SmmHandlerInit`. -/
def bemiInitHypervisor (backendInit smmInit : EfiStatus) : Prog Pool HypervisorResult :=
  if backendInit.isError then pure ⟨backendInit, none, none⟩
  else do
    match ← alloc with
    | none => pure ⟨.outOfResources, none, none⟩
    | some traceCacheBuffer =>
      if smmInit.isError then do
        free traceCacheBuffer
        pure ⟨smmInit, none, none⟩
      else do
        -- `MemoryCompressorInit`, whose status is not looked at
        let gMemComp ← alloc
        pure ⟨.success, some traceCacheBuffer, gMemComp⟩

/-- The regions that `gVcpuState` points to, and the state of the backend. -/
structure VcpuResult where
  status : EfiStatus
  core : Vmx.Core
  regions : Option (ℕ × ℕ)

def VcpuResult.blocks (r : VcpuResult) : List ℕ :=
  match r.regions with
  | some (vmxonRegion, vmcsRegion) => [vmxonRegion, vmcsRegion]
  | none => []

/-- The allocations of `VmxVcpuCreate`; `place` has the address of a block. -/
def vmxVcpuCreate (place : ℕ → UInt64) (o : Vmx.Outcomes)
    (vcpuId entryPoint stackPointer : UInt64) (c : Vmx.Core) : Prog Pool VcpuResult :=
  let create vmxonRegion vmcsRegion :=
    Vmx.vmxVcpuCreate { o with vmxonRegion, vmcsRegion } vcpuId entryPoint stackPointer c
  let answer (r : Vmx.Core × EfiStatus) regions : VcpuResult := ⟨r.2, r.1, regions⟩
  if vcpuId ≥ Vmx.maxLogicalProcessors then pure (answer (create none none) none)
  else do
    match ← alloc with
    | none => pure (answer (create none none) none)
    | some vmxonRegion => do
      match ← alloc with
      | none => do
        free vmxonRegion
        pure (answer (create (some (place vmxonRegion)) none) none)
      | some vmcsRegion =>
        pure (answer (create (some (place vmxonRegion)) (some (place vmcsRegion)))
          (some (vmxonRegion, vmcsRegion)))

def guestBlocks (vcpu : Option VcpuResult) : List ℕ := vcpu.elim [] VcpuResult.blocks

/-- What becomes of the VCPU of the test guest, if it comes to that. The answer of `VcpuRun` is looked at
for a message only. -/
def vmxTestGuestLaunch (place : ℕ → UInt64) (o : Vmx.Outcomes) (c : Vmx.Core) :
    Prog Pool (Option VcpuResult) := do
  match ← alloc with
  | none => pure none
  | some guestCode => do
    match ← alloc with
    | none => do
      free guestCode
      pure none
    | some guestStack => do
      let vcpu ← vmxVcpuCreate place o 0 (place guestCode) (place guestStack + 4096) c
      free guestCode
      free guestStack
      pure (some vcpu)

/-- `BemiBootModeLegacy`. -/
def bemiBootModeLegacy : UInt8 := 1

/-- What the other parts of the firmware answer during the entry point. -/
structure Platform where
  acpi : Acpi.AcpiFirmware
  gCpuCount : UInt64
  bemiNative : Option UInt8
  pcdBemiBootMode : UInt8
  backendInit : EfiStatus
  smmInit : EfiStatus
  place : ℕ → UInt64
  vmx : Vmx.Outcomes
  core : Vmx.Core
  installProtocolInterface : EfiStatus

structure EntryResult where
  status : EfiStatus
  gBootMode : UInt8
  hypervisor : Option HypervisorResult
  vcpu : Option VcpuResult

def EntryResult.blocks (r : EntryResult) : List ℕ :=
  r.hypervisor.elim [] HypervisorResult.blocks ++ guestBlocks r.vcpu

def bemiBiosEntryPoint (e : Platform) : Prog Pool EntryResult := do
  let gBootMode := e.bemiNative.getD e.pcdBemiBootMode
  let _ ← acpiInitTables e.acpi e.gCpuCount.toUInt32
  if gBootMode = bemiBootModeLegacy then do
    let hypervisor ← bemiInitHypervisor e.backendInit e.smmInit
    if hypervisor.status.isError then
      pure ⟨e.installProtocolInterface, gBootMode, some hypervisor, none⟩
    else do
      let vcpu ← vmxTestGuestLaunch e.place e.vmx e.core
      pure ⟨e.installProtocolInterface, gBootMode, some hypervisor, vcpu⟩
  else pure ⟨e.installProtocolInterface, gBootMode, none, none⟩

/-! ## Performance modules -/

/-- An initialisation that asks for a number of blocks in turn and returns at the first that is refused,
with the blocks that it has got in the globals. Its status depends on which are granted. -/
structure ModuleInit where
  count : ℕ
  status : (ℕ → Bool) → EfiStatus

def ModuleInit.run (m : ModuleInit) : Prog Pool (List ℕ × EfiStatus) := do
  let blocks ← allocUpTo m.count
  pure (blocks, m.status fun k => decide (k < blocks.length))

def robDistributorInit : ModuleInit := ⟨1, fun pool => (Rob.robDistributorInit (pool 0)).1⟩

/-- The main ring, the extended banks and the metadata. -/
def v72RobDistributorInit (g : Rob.V72Globals) : ModuleInit :=
  ⟨1 + Rob.v72RobExtBanks + 1, fun pool => (Rob.v72RobDistributorInit pool g).2⟩

def bwGovernorInit (maxThreads : UInt32) (peakBwGbs : Float) : ModuleInit :=
  ⟨1, fun pool => (BwGov.bwGovernorInit (pool 0) maxThreads peakBwGbs).2⟩

/-- One cache for each unit. -/
def l0CacheInit (activeUnits : UInt32) : ModuleInit :=
  ⟨min activeUnits.toNat L0.l0MaxUnits, fun pool => (L0.l0CacheInit pool activeUnits).2⟩

inductive PerformanceModule where
  | robDistributor
  | v72RobDistributor (g : Rob.V72Globals)
  | bwGovernor (maxThreads : UInt32) (peakBwGbs : Float)
  | l0Cache (activeUnits : UInt32)

def PerformanceModule.init : PerformanceModule → ModuleInit
  | robDistributor => robDistributorInit
  | v72RobDistributor g => v72RobDistributorInit g
  | bwGovernor maxThreads peakBwGbs => bwGovernorInit maxThreads peakBwGbs
  | l0Cache activeUnits => l0CacheInit activeUnits

/-! ## Calls -/

inductive FirmwareCall where
  | bootProtocolScanAndLoad (bootBuffer bufferSize : Bool) (devices : List BlockIo)
  | csmEmulateInt13 (devices : List BlockIo) (function : UInt8) (lba : UInt64)
      (sectorCount : UInt16)
  | csmEmulateInt15E820 (gBS : MapServices) (mem : Ram.Bytes) (e820MapBuffer : UInt64)
      (mapCount : UInt32)
  | acpiInitTables (firmware : Acpi.AcpiFirmware) (cpuCount : UInt32)
  | postExecutePowerOnSelfTest (readBack : ℕ → UInt64)
  | bemiInitHypervisor (backendInit smmInit : EfiStatus)
  | vmxVcpuCreate (place : ℕ → UInt64) (o : Vmx.Outcomes)
      (vcpuId entryPoint stackPointer : UInt64) (c : Vmx.Core)
  | bemiBiosEntryPoint (e : Platform)
  | initModule (m : PerformanceModule)

inductive Answer where
  | scan (r : ScanResult)
  | int13 (r : Int13Status)
  | e820 (r : Csm.E820Result)
  | acpi (r : Option (List UInt8) × EfiStatus)
  | selfTest (r : EfiStatus × Option UInt8)
  | hypervisor (r : HypervisorResult)
  | vcpu (r : VcpuResult)
  | entry (r : EntryResult)
  | buffers (r : List ℕ × EfiStatus)

/-- The blocks that the caller gets or that globals point to. -/
def Answer.blocks : Answer → List ℕ
  | .scan r => r.blocks
  | .hypervisor r => r.blocks
  | .vcpu r => r.blocks
  | .entry r => r.blocks
  | .buffers r => r.1
  | _ => []

def perform : FirmwareCall → Prog Pool Answer
  | .bootProtocolScanAndLoad bootBuffer bufferSize devices =>
    .scan <$> bootProtocolScanAndLoad bootBuffer bufferSize devices
  | .csmEmulateInt13 devices function lba sectorCount =>
    .int13 <$> csmEmulateInt13 devices function lba sectorCount
  | .csmEmulateInt15E820 gBS mem e820MapBuffer mapCount =>
    .e820 <$> csmEmulateInt15E820 gBS mem e820MapBuffer mapCount
  | .acpiInitTables firmware cpuCount => .acpi <$> acpiInitTables firmware cpuCount
  | .postExecutePowerOnSelfTest readBack => .selfTest <$> postExecutePowerOnSelfTest readBack
  | .bemiInitHypervisor backendInit smmInit =>
    .hypervisor <$> bemiInitHypervisor backendInit smmInit
  | .vmxVcpuCreate place o vcpuId entryPoint stackPointer c =>
    .vcpu <$> vmxVcpuCreate place o vcpuId entryPoint stackPointer c
  | .bemiBiosEntryPoint e => .entry <$> bemiBiosEntryPoint e
  | .initModule m => .buffers <$> m.init.run

/-! ## Answers -/

def Int13Right (devices : List BlockIo) (function : UInt8) (lba : UInt64) (sectorCount : UInt16)
    (status : Int13Status) (refused : Prop) : Prop :=
  match status with
  | .noMedia => devices = [] ∨ refused
  | .other status => ∃ d post, devices = d :: post ∧
      status = if d.handleProtocol.isError then d.handleProtocol
        else d.transfer function lba sectorCount

/-- The map of the services, or of those with a pool that refuses. -/
def E820Right (gBS : MapServices) (mem : Ram.Bytes) (e820MapBuffer : UInt64) (mapCount : UInt32)
    (r : Csm.E820Result) (refused : Prop) : Prop :=
  r = Csm.csmEmulateInt15E820 gBS.toBootServices mem e820MapBuffer mapCount ∨
    refused ∧ r = Csm.csmEmulateInt15E820 gBS.refusing mem e820MapBuffer mapCount

def AcpiRight (firmware : Acpi.AcpiFirmware) (cpuCount : UInt32)
    (r : Option (List UInt8) × EfiStatus) (refused : Prop) : Prop :=
  ∃ allocated, r = Acpi.acpiInitTables { firmware with allocated } cpuCount ∧
    (allocated = false → refused)

/-- The test passes if every word holds the pattern. -/
def SelfTestRight (readBack : ℕ → UInt64) (r : EfiStatus × Option UInt8) (refused : Prop) : Prop :=
  r = (.success, some 1) ∧ (∀ i < wordCount, readBack i = testPattern) ∨
    r = (.deviceError, none) ∧ (∃ i < wordCount, readBack i ≠ testPattern) ∨
    r = (.outOfResources, none) ∧ refused

/-- A hypervisor that is initialised has its trace cache; else the status says what has failed, and
nothing is kept. -/
def HypervisorRight (backendInit smmInit : EfiStatus) (r : HypervisorResult) (refused : Prop) :
    Prop :=
  r.status = .success ∧ backendInit.isError = false ∧ smmInit.isError = false ∧
      r.traceCacheBuffer.isSome ∧ (r.gMemComp = none → refused) ∨
    r.status.isError = true ∧ r.blocks = [] ∧
      (r.status = backendInit ∨ backendInit.isError = false ∧
        (r.status = smmInit ∨ r.status = .outOfResources ∧ refused))

/-- A VCPU that has got both regions has them in its entry of `gVcpuState`, and is active if `VMXON`,
`VMCLEAR` and `VMPTRLD` succeed; without them all entries are as they were. -/
def VcpuRight (place : ℕ → UInt64) (o : Vmx.Outcomes) (vcpuId : UInt64) (c : Vmx.Core)
    (r : VcpuResult) (refused : Prop) : Prop :=
  match r.regions with
  | some (vmxonRegion, vmcsRegion) =>
    vcpuId < Vmx.maxLogicalProcessors ∧
      r.status = (if o.Started then .success else .deviceError) ∧
      r.core.gVcpuState = Function.update c.gVcpuState vcpuId
        ⟨place vmcsRegion, place vmxonRegion, decide o.Started⟩
  | none =>
    (r.status = .invalidParameter ∧ vcpuId ≥ Vmx.maxLogicalProcessors ∨
      r.status = .outOfResources ∧ vcpuId < Vmx.maxLogicalProcessors ∧ refused) ∧
      r.core.gVcpuState = c.gVcpuState

/-- Without the pages of the test guest there is no VCPU. -/
def GuestRight (place : ℕ → UInt64) (o : Vmx.Outcomes) (c : Vmx.Core) (vcpu : Option VcpuResult)
    (refused : Prop) : Prop :=
  vcpu.elim refused fun r => VcpuRight place o 0 c r refused

/-- In native mode there is no hypervisor, and without a hypervisor no test guest. -/
def EntryRight (e : Platform) (r : EntryResult) (refused : Prop) : Prop :=
  r.status = e.installProtocolInterface ∧ r.gBootMode = e.bemiNative.getD e.pcdBemiBootMode ∧
    match r.hypervisor with
    | none => r.gBootMode ≠ bemiBootModeLegacy ∧ r.vcpu = none
    | some h =>
      r.gBootMode = bemiBootModeLegacy ∧ HypervisorRight e.backendInit e.smmInit h refused ∧
        if h.status.isError then r.vcpu = none else GuestRight e.place e.vmx e.core r.vcpu refused

/-- With all of its blocks or with those before the one that is refused. -/
def ModuleRight (m : ModuleInit) (r : List ℕ × EfiStatus) (refused : Prop) : Prop :=
  r.2 = m.status (fun k => decide (k < r.1.length)) ∧
    (r.1.length = m.count ∨ r.1.length < m.count ∧ refused)

/-- `refused` says whether one of the requests of the call was. -/
def Right (call : FirmwareCall) (answer : Answer) (refused : Prop) : Prop :=
  match call, answer with
  | .bootProtocolScanAndLoad bootBuffer bufferSize devices, .scan r =>
    Scanned (bootBuffer && bufferSize) devices r refused
  | .csmEmulateInt13 devices function lba sectorCount, .int13 r =>
    Int13Right devices function lba sectorCount r refused
  | .csmEmulateInt15E820 gBS mem e820MapBuffer mapCount, .e820 r =>
    E820Right gBS mem e820MapBuffer mapCount r refused
  | .acpiInitTables firmware cpuCount, .acpi r => AcpiRight firmware cpuCount r refused
  | .postExecutePowerOnSelfTest readBack, .selfTest r => SelfTestRight readBack r refused
  | .bemiInitHypervisor backendInit smmInit, .hypervisor r =>
    HypervisorRight backendInit smmInit r refused
  | .vmxVcpuCreate place o vcpuId _ _ c, .vcpu r => VcpuRight place o vcpuId c r refused
  | .bemiBiosEntryPoint e, .entry r => EntryRight e r refused
  | .initModule m, .buffers r => ModuleRight m.init r refused
  | _, _ => False

/-! ## Ownership -/

section
variable {refused refused' : Prop} (h : refused → refused')
include h

/-- What is right for a part of the requests is right for all of them. -/
lemma HypervisorRight.mono {backendInit smmInit : EfiStatus} {r : HypervisorResult}
    (hr : HypervisorRight backendInit smmInit r refused) :
    HypervisorRight backendInit smmInit r refused' :=
  hr.imp (fun ⟨hs, hb, hm, ht, hnone⟩ => ⟨hs, hb, hm, ht, fun heq => h (hnone heq)⟩)
    (And.imp_right (And.imp_right (Or.imp_right (And.imp_right (Or.imp_right (And.imp_right h))))))

lemma VcpuRight.mono {place : ℕ → UInt64} {o : Vmx.Outcomes} {vcpuId : UInt64} {c : Vmx.Core}
    {r : VcpuResult} (hr : VcpuRight place o vcpuId c r refused) :
    VcpuRight place o vcpuId c r refused' := by
  obtain ⟨status, core, regions⟩ := r
  cases regions with
  | some regions => exact hr
  | none => exact hr.imp_left (Or.imp_right (And.imp_right (And.imp_right h)))

lemma GuestRight.mono {place : ℕ → UInt64} {o : Vmx.Outcomes} {c : Vmx.Core}
    {vcpu : Option VcpuResult} (hr : GuestRight place o c vcpu refused) :
    GuestRight place o c vcpu refused' := by
  cases vcpu with
  | none => exact h hr
  | some r => exact VcpuRight.mono h hr

end

/-- Answers that name the blocks of the results. -/
lemma owns_map {α : Type} {m : Prog Pool α} {names : α → List ℕ} {R : α → Prop → Prop}
    {f : α → Answer} {R' : Answer → Prop → Prop} (hm : Spec ∅ m (Owns names R))
    (hnames : ∀ a, (f a).blocks = names a) (hright : ∀ a refused, R a refused → R' (f a) refused) :
    Spec ∅ (f <$> m) (Owns Answer.blocks R') := by
  rw [map_eq_pure_bind]
  refine hm.bind ?_
  rintro a S refused ⟨hnodup, hS, ha⟩
  rw [← hnames] at hnodup hS
  refine Spec.pure _ ⟨hnodup, hS, ?_⟩
  rw [or_false]
  exact hright a refused ha

/-- A program that gives its only block back. -/
lemma free_owns {α : Type} {names : α → List ℕ} {R : α → Prop → Prop} {b : ℕ} {a : α}
    (hnames : names a = []) (ha : ∀ refused, R a refused) :
    Spec {b} (free b >>= fun _ => pure a) (Owns names R) := by
  refine (Spec.free b).bind ?_
  rintro - S refused rfl
  exact Spec.pure a (.nil hnames (ha _))

lemma nodup_pair {a b : ℕ} (h : b ∉ ({a} : Finset ℕ)) : [a, b].Nodup :=
  List.nodup_cons.mpr ⟨fun ha => h (Finset.mem_singleton.mpr (List.mem_singleton.mp ha).symm),
    List.nodup_singleton b⟩

lemma toFinset_pair (a b : ℕ) : insert b {a} = [a, b].toFinset := by
  rw [List.toFinset_cons, List.toFinset_cons, List.toFinset_nil, Finset.pair_comm,
    LawfulSingleton.insert_empty_eq]

lemma csmEmulateInt13_owns (devices : List BlockIo) (function : UInt8) (lba : UInt64)
    (sectorCount : UInt16) :
    Spec ∅ (csmEmulateInt13 devices function lba sectorCount)
      (Owns (fun _ => []) (Int13Right devices function lba sectorCount)) := by
  refine (locateHandleBuffer_spec devices).bind ?_
  rintro ⟨status, _ | handles⟩ S refused hS
  · obtain ⟨rfl, hnone⟩ := hS
    cases devices <;> exact Spec.pure _ (.nil rfl (hnone.imp_right .inl))
  · obtain ⟨rfl, hsome⟩ := hS
    cases devices with
    | nil => exact absurd rfl hsome
    | cons d post =>
      refine Spec.ite (fun herror => ?_) fun herror => ?_
      · exact free_owns rfl fun _ => ⟨d, post, rfl, (if_pos herror).symm⟩
      · exact free_owns rfl fun _ => ⟨d, post, rfl, (if_neg herror).symm⟩

lemma csmEmulateInt15E820_owns (gBS : MapServices) (mem : Ram.Bytes) (e820MapBuffer : UInt64)
    (mapCount : UInt32) :
    Spec ∅ (csmEmulateInt15E820 gBS mem e820MapBuffer mapCount)
      (Owns (fun _ => []) (E820Right gBS mem e820MapBuffer mapCount)) := by
  refine Spec.ite (fun hquery => ?_) fun hquery => Spec.alloc.bind ?_
  · refine Spec.pure _ (.nil rfl (.inl ?_))
    rw [Csm.csmEmulateInt15E820, if_pos hquery]
  rintro (_ | memoryMap) S refused ⟨rfl, hrefused⟩
  · refine Spec.pure _ (.nil rfl (.inr ⟨.inl (hrefused rfl), ?_⟩))
    rw [Csm.csmEmulateInt15E820, MapServices.refusing, if_neg hquery]
    rfl
  · have hplaced := gBS.placed (gBS.sizeQuery.mapSize + 2 * gBS.sizeQuery.descriptorSize) mem
    refine Spec.ite (fun herror => free_owns rfl fun _ => .inl ?_)
      fun herror => free_owns rfl fun _ => .inl ?_
    · rw [Csm.csmEmulateInt15E820, if_neg hquery]
      dsimp only
      rw [if_neg hplaced, if_pos herror]
    · rw [Csm.csmEmulateInt15E820, if_neg hquery]
      dsimp only
      rw [if_neg hplaced, if_neg herror]

lemma acpiInitTables_owns (firmware : Acpi.AcpiFirmware) (cpuCount : UInt32) :
    Spec ∅ (acpiInitTables firmware cpuCount)
      (Owns (fun _ => []) (AcpiRight firmware cpuCount)) := by
  refine Spec.alloc.bind ?_
  rintro (_ | madt) S refused ⟨rfl, hrefused⟩
  · exact Spec.pure _ (.nil rfl ⟨false, rfl, fun _ => .inl (hrefused rfl)⟩)
  · refine free_owns rfl fun _ => ⟨true, ?_, nofun⟩
    rw [Acpi.acpiInitTables]
    split <;> simp_all

lemma postExecutePowerOnSelfTest_owns (readBack : ℕ → UInt64) :
    Spec ∅ (postExecutePowerOnSelfTest readBack)
      (Owns (fun _ => []) (SelfTestRight readBack)) := by
  refine Spec.alloc.bind ?_
  rintro (_ | testBuffer) S refused ⟨rfl, hrefused⟩
  · exact Spec.pure _ (.nil rfl (.inr (.inr ⟨rfl, .inl (hrefused rfl)⟩)))
  have hround (i : ℕ) : Spec {testBuffer}
      (if readBack i ≠ testPattern then do
        free testBuffer
        pure (some (EfiStatus.deviceError, (none : Option UInt8)))
      else pure none)
      (Round {testBuffer} (readBack i = testPattern) fun r S _ =>
        S = ∅ ∧ r = (.deviceError, none) ∧ readBack i ≠ testPattern) := by
    refine Spec.ite (fun hne => ?_) fun heq => Spec.pure _ ⟨not_not.mp heq, rfl⟩
    refine (Spec.free testBuffer).bind ?_
    rintro - S - rfl
    exact Spec.pure _ ⟨rfl, rfl, hne⟩
  refine (Spec.firstSome hround (List.range wordCount)).bind ?_
  rintro (_ | r) S refused' hS
  · obtain ⟨hall, rfl⟩ := hS
    exact free_owns rfl fun _ => .inl ⟨rfl, fun i hi => hall i (List.mem_range.mpr hi)⟩
  · obtain ⟨pre, i, post, -, hsplit, -, -, rfl, rfl, hne⟩ := hS
    have hi : i ∈ List.range wordCount := by
      rw [hsplit]
      exact List.mem_append_right pre List.mem_cons_self
    exact Spec.pure _ (.nil rfl (.inr (.inl ⟨rfl, i, List.mem_range.mp hi, hne⟩)))

lemma bemiInitHypervisor_owns (backendInit smmInit : EfiStatus) :
    Spec ∅ (bemiInitHypervisor backendInit smmInit)
      (Owns HypervisorResult.blocks (HypervisorRight backendInit smmInit)) := by
  refine Spec.ite (fun hbackend => ?_) fun hbackend => Spec.alloc.bind ?_
  · exact Spec.pure _ (.nil rfl (.inr ⟨hbackend, rfl, .inl rfl⟩))
  rw [Bool.not_eq_true] at hbackend
  rintro (_ | traceCacheBuffer) S refused ⟨rfl, hrefused⟩
  · exact Spec.pure _
      (.nil rfl (.inr ⟨rfl, rfl, .inr ⟨hbackend, .inr ⟨rfl, .inl (hrefused rfl)⟩⟩⟩))
  refine Spec.ite (fun hsmm => ?_) fun hsmm => ?_
  · exact free_owns rfl fun _ => .inr ⟨hsmm, rfl, .inr ⟨hbackend, .inl rfl⟩⟩
  rw [Bool.not_eq_true] at hsmm
  refine (Spec.alloc_insert {traceCacheBuffer}).bind ?_
  rintro (_ | gMemComp) S refused' ⟨hS, hS'⟩
  · exact Spec.pure _ ⟨List.nodup_singleton _, hS,
      .inl ⟨rfl, hbackend, hsmm, rfl, fun _ => .inr (.inl hS')⟩⟩
  · rw [hS']
    exact Spec.pure _ ⟨nodup_pair hS, toFinset_pair _ _, .inl ⟨rfl, hbackend, hsmm, rfl, nofun⟩⟩

section
variable (o : Vmx.Outcomes) {vcpuId : UInt64} (entryPoint stackPointer : UInt64) (c : Vmx.Core)

lemma create_invalidParameter (hid : vcpuId ≥ Vmx.maxLogicalProcessors) :
    Vmx.vmxVcpuCreate o vcpuId entryPoint stackPointer c = (c, .invalidParameter) := by
  rw [Vmx.vmxVcpuCreate, if_pos hid]

/-- Without one of the regions no entry of `gVcpuState` is written. -/
lemma create_outOfResources (hid : ¬ vcpuId ≥ Vmx.maxLogicalProcessors)
    (hregion : o.vmxonRegion = none ∨ o.vmcsRegion = none) :
    (Vmx.vmxVcpuCreate o vcpuId entryPoint stackPointer c).2 = .outOfResources ∧
      (Vmx.vmxVcpuCreate o vcpuId entryPoint stackPointer c).1.gVcpuState = c.gVcpuState := by
  rw [Vmx.vmxVcpuCreate, if_neg hid]
  rcases h : o.vmxonRegion with _ | vmxonRegion
  · exact ⟨rfl, rfl⟩
  · obtain hnone | hnone := hregion
    · cases h.symm.trans hnone
    · dsimp only
      rw [hnone]
      exact ⟨rfl, rfl⟩

lemma create_started (hid : ¬ vcpuId ≥ Vmx.maxLogicalProcessors) {vmxonRegion vmcsRegion : UInt64}
    (hvmxon : o.vmxonRegion = some vmxonRegion) (hvmcs : o.vmcsRegion = some vmcsRegion) :
    (Vmx.vmxVcpuCreate o vcpuId entryPoint stackPointer c).2 =
        (if o.Started then .success else .deviceError) ∧
      (Vmx.vmxVcpuCreate o vcpuId entryPoint stackPointer c).1.gVcpuState =
        Function.update c.gVcpuState vcpuId ⟨vmcsRegion, vmxonRegion, decide o.Started⟩ := by
  have hcreate : Vmx.vmxVcpuCreate o vcpuId entryPoint stackPointer c =
      Vmx.startVcpu o vcpuId entryPoint stackPointer
        (Vmx.prepare vmxonRegion vmcsRegion vcpuId c) := by
    rw [Vmx.vmxVcpuCreate, if_neg hid, hvmxon, hvmcs]
    rfl
  rw [hcreate]
  by_cases hstarted : o.Started
  · rw [Vmx.startVcpu_of_started o vcpuId entryPoint stackPointer _ hstarted, if_pos hstarted,
      decide_eq_true hstarted]
    refine ⟨rfl, ?_⟩
    simp [Vmx.setVcpu, Vmx.prepare, Vmx.vmxSetupVmcs, Vmx.allocateRegion]
  · obtain ⟨on, hstart⟩ := Vmx.startVcpu_of_not o vcpuId entryPoint stackPointer
      (Vmx.prepare vmxonRegion vmcsRegion vcpuId c) hstarted
    rw [hstart, if_neg hstarted, decide_eq_false hstarted]
    exact ⟨rfl, rfl⟩

end

lemma vmxVcpuCreate_owns (place : ℕ → UInt64) (o : Vmx.Outcomes)
    (vcpuId entryPoint stackPointer : UInt64) (c : Vmx.Core) :
    Spec ∅ (vmxVcpuCreate place o vcpuId entryPoint stackPointer c)
      (Owns VcpuResult.blocks (VcpuRight place o vcpuId c)) := by
  refine Spec.ite (fun hid => ?_) fun hid => Spec.alloc.bind ?_
  · have hcreate := create_invalidParameter
      { o with vmxonRegion := none, vmcsRegion := none } entryPoint stackPointer c hid
    exact Spec.pure _ (.nil rfl
      ⟨.inl ⟨congrArg Prod.snd hcreate, hid⟩, congrArg (·.1.gVcpuState) hcreate⟩)
  have hlt := UInt64.not_le.mp hid
  rintro (_ | vmxonRegion) S refused ⟨rfl, hrefused⟩
  · obtain ⟨hstatus, hstate⟩ := create_outOfResources
      { o with vmxonRegion := none, vmcsRegion := none } entryPoint stackPointer c hid (.inl rfl)
    exact Spec.pure _ (.nil rfl ⟨.inr ⟨hstatus, hlt, .inl (hrefused rfl)⟩, hstate⟩)
  refine (Spec.alloc_insert {vmxonRegion}).bind ?_
  rintro (_ | vmcsRegion) S refused' ⟨hS, hS'⟩
  · obtain ⟨hstatus, hstate⟩ := create_outOfResources
      { o with vmxonRegion := some (place vmxonRegion), vmcsRegion := none } entryPoint stackPointer
      c hid (.inr rfl)
    rw [hS]
    refine (Spec.free vmxonRegion).bind ?_
    rintro - S - rfl
    exact Spec.pure _ (.nil rfl ⟨.inr ⟨hstatus, hlt, .inr (.inl hS')⟩, hstate⟩)
  · rw [hS']
    exact Spec.pure _ ⟨nodup_pair hS, toFinset_pair _ _, hlt, create_started
      { o with vmxonRegion := some (place vmxonRegion), vmcsRegion := some (place vmcsRegion) }
      entryPoint stackPointer c hid rfl rfl⟩

/-- The pages of the test guest are given back, the regions of its VCPU are not. -/
lemma vmxTestGuestLaunch_owns (place : ℕ → UInt64) (o : Vmx.Outcomes) (c : Vmx.Core) :
    Spec ∅ (vmxTestGuestLaunch place o c) (Owns guestBlocks (GuestRight place o c)) := by
  refine Spec.alloc.bind ?_
  rintro (_ | guestCode) S refused ⟨rfl, hrefused⟩
  · exact Spec.pure none (.nil rfl (.inl (hrefused rfl)))
  refine (Spec.alloc_insert {guestCode}).bind ?_
  rintro (_ | guestStack) S refused' ⟨hS, hS'⟩
  · rw [hS]
    exact free_owns rfl fun _ => .inr (.inl hS')
  rw [hS']
  refine ((vmxVcpuCreate_owns place o 0 _ _ c).owns_frame _).bind ?_
  rintro vcpu S refused'' ⟨hnodup, hnew, rfl, hright⟩
  -- both pages are freed, in the order of their allocation
  have hset : vcpu.blocks.toFinset ∪ {guestStack, guestCode} =
      insert guestCode (insert guestStack vcpu.blocks.toFinset) := by
    rw [Finset.union_comm, Finset.insert_union, Finset.singleton_union, Finset.insert_comm]
  have hstack : guestStack ∉ vcpu.blocks.toFinset := fun h =>
    hnew _ (List.mem_toFinset.mp h) (Finset.mem_insert_self _ _)
  have hcode : guestCode ∉ insert guestStack vcpu.blocks.toFinset := by
    rw [Finset.mem_insert, not_or]
    refine ⟨fun h => hS (Finset.mem_singleton.mpr h.symm), fun h => ?_⟩
    exact hnew _ (List.mem_toFinset.mp h) (Finset.mem_insert_of_mem (Finset.mem_singleton_self _))
  rw [hset]
  refine (Spec.free_insert hcode).bind ?_
  rintro - S - rfl
  refine (Spec.free_insert hstack).bind ?_
  rintro - S - rfl
  exact Spec.pure (some vcpu) ⟨hnodup, rfl, VcpuRight.mono (fun h => .inr (.inr (.inl h))) hright⟩

lemma bemiBiosEntryPoint_owns (e : Platform) :
    Spec ∅ (bemiBiosEntryPoint e) (Owns EntryResult.blocks (EntryRight e)) := by
  refine (acpiInitTables_owns e.acpi e.gCpuCount.toUInt32).bind ?_
  rintro - S refused ⟨-, rfl, -⟩
  refine Spec.ite (fun hlegacy => ?_) fun hnative => ?_
  · refine (bemiInitHypervisor_owns e.backendInit e.smmInit).bind ?_
    rintro h S refused' ⟨hnodup, rfl, hright⟩
    refine Spec.ite (fun herror => ?_) fun hinit => ?_
    · refine Spec.pure _ ⟨?_, ?_, rfl, rfl, hlegacy, .mono (fun hr => .inr (.inl hr)) hright, ?_⟩
      · rwa [EntryResult.blocks, guestBlocks, Option.elim_some, Option.elim_none, List.append_nil]
      · rw [EntryResult.blocks, guestBlocks, Option.elim_some, Option.elim_none, List.append_nil]
      · rw [if_pos herror]
    · refine ((vmxTestGuestLaunch_owns e.place e.vmx e.core).owns_frame _).bind ?_
      rintro vcpu S refused'' ⟨hnodup', hnew, rfl, hright'⟩
      refine Spec.pure _
        ⟨?_, ?_, rfl, rfl, hlegacy, .mono (fun hr => .inr (.inl hr)) hright, ?_⟩
      · refine List.nodup_append'.mpr ⟨hnodup, hnodup', fun b hb hb' => ?_⟩
        exact hnew b hb' (List.mem_toFinset.mpr hb)
      · rw [EntryResult.blocks, List.toFinset_append, Finset.union_comm]
        rfl
      · rw [if_neg hinit]
        exact .mono (fun hr => .inr (.inr (.inl hr))) hright'
  · exact Spec.pure _ (.nil rfl ⟨rfl, rfl, hnative, rfl⟩)

lemma initModule_owns (m : ModuleInit) :
    Spec ∅ m.run (Owns Prod.fst (ModuleRight m)) := by
  refine (Spec.allocUpTo m.count).bind ?_
  rintro blocks S refused ⟨hnodup, rfl, hlength⟩
  exact Spec.pure _ ⟨hnodup, rfl, rfl, hlength.imp_right (And.imp_right .inl)⟩

lemma perform_owns (call : FirmwareCall) :
    Spec ∅ (perform call) (Owns Answer.blocks (Right call)) := by
  cases call with
  | bootProtocolScanAndLoad bootBuffer bufferSize devices =>
    exact owns_map (scan_spec bootBuffer bufferSize devices) (fun _ => rfl) fun _ _ h => h
  | csmEmulateInt13 devices function lba sectorCount =>
    exact owns_map (csmEmulateInt13_owns devices function lba sectorCount) (fun _ => rfl) fun _ _ h => h
  | csmEmulateInt15E820 gBS mem e820MapBuffer mapCount =>
    exact owns_map (csmEmulateInt15E820_owns gBS mem e820MapBuffer mapCount) (fun _ => rfl)
      fun _ _ h => h
  | acpiInitTables firmware cpuCount =>
    exact owns_map (acpiInitTables_owns firmware cpuCount) (fun _ => rfl) fun _ _ h => h
  | postExecutePowerOnSelfTest readBack =>
    exact owns_map (postExecutePowerOnSelfTest_owns readBack) (fun _ => rfl) fun _ _ h => h
  | bemiInitHypervisor backendInit smmInit =>
    exact owns_map (bemiInitHypervisor_owns backendInit smmInit) (fun _ => rfl) fun _ _ h => h
  | vmxVcpuCreate place o vcpuId entryPoint stackPointer c =>
    exact owns_map (vmxVcpuCreate_owns place o vcpuId entryPoint stackPointer c) (fun _ => rfl)
      fun _ _ h => h
  | bemiBiosEntryPoint e => exact owns_map (bemiBiosEntryPoint_owns e) (fun _ => rfl) fun _ _ h => h
  | initModule m => exact owns_map (initModule_owns m.init) (fun _ => rfl) fun _ _ h => h

/-- Whatever the pool refuses and whatever calls are made, every call is answered as is right for it
and for its own requests, no block is freed that is not allocated, and the blocks that are allocated in
the end are those that the answers name, each of which is named once. -/
theorem firmware_owns (grants : ℕ → Bool) (calls : List FirmwareCall) :
    ∃ answers, (execAll (Pool.empty grants) (calls.map perform)).1 = answers.map some ∧
      EachRight perform Right (Pool.empty grants) calls answers ∧
      (answers.flatMap Answer.blocks).Nodup ∧
      (execAll (Pool.empty grants) (calls.map perform)).2.live =
        (answers.flatMap Answer.blocks).toFinset := by
  obtain ⟨answers, hanswers, hright, hnodup, -, hlive⟩ :=
    Spec.execAll perform_owns calls (Pool.regular_empty grants)
  refine ⟨answers, hanswers, hright, hnodup, ?_⟩
  rw [hlive]
  exact Finset.union_empty _

end Bemi.Boot
