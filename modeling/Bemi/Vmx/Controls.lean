import Mathlib.Data.Set.Basic
import Bemi.Vmx.Vcpu

/-!
# Control fields

The words of a control field and of its capability MSR as sets of bits. `AdjustCtrl` asks for the
bits requested and those that the low half of the MSR forces, and then drops what the high half does
not allow; nobody looks at what has been dropped.
-/

namespace Bemi.Vmx

/-! ## Words as sets of bits -/

def bits (v : UInt64) : Set ℕ := {j | v.toNat.testBit j = true}

lemma bits_or (v w : UInt64) : bits (v ||| w) = bits v ∪ bits w := by
  ext j
  simp [bits]

lemma bits_and (v w : UInt64) : bits (v &&& w) = bits v ∩ bits w := by
  ext j
  simp [bits]

lemma bits_low : bits 0xFFFFFFFF = {j | j < 32} := by
  ext j
  change (2 ^ 32 - 1 : ℕ).testBit j = true ↔ j < 32
  rw [Nat.testBit_two_pow_sub_one, decide_eq_true_iff]

lemma bits_shiftRight (v : UInt64) : bits (v >>> 32) = {j | j + 32 ∈ bits v} := by
  ext j
  change (v >>> 32).toNat.testBit j = true ↔ v.toNat.testBit (j + 32) = true
  rw [UInt64.toNat_shiftRight, Nat.testBit_shiftRight, Nat.add_comm]
  rfl

/-! ## The five fields -/

/-- A control field of the VMCS, its capability MSR, and what `VmxSetupVmcs` requests for it. -/
structure Control where
  field : UInt64
  msr : UInt32
  requested : UInt64
  deriving DecidableEq

/-- External-interrupt and NMI exiting. -/
def pinBased : Control := ⟨0x4000, 0x481, 0x1 ||| 0x8⟩

/-- MSR bitmaps and MWAIT exiting. -/
def procBased : Control := ⟨0x4002, 0x482, 0x10000000 ||| 0x1000000⟩

/-- EPT, VPID and XSAVES. -/
def procBased2 : Control := ⟨0x401E, 0x48B, 0x2 ||| 0x20 ||| 0x100000⟩

/-- Host address space, loading EFER and saving the debug controls. -/
def exitControls : Control := ⟨0x400C, 0x485, 0x200 ||| 0x200000 ||| 0x4⟩

/-- Loading EFER. -/
def entryControls : Control := ⟨0x4012, 0x484, 0x8000⟩

def controls : List Control := [pinBased, procBased, procBased2, exitControls, entryControls]

/-- The bits that the low half of the MSR forces. -/
def Control.forced (msrs : UInt32 → UInt64) (k : Control) : Set ℕ :=
  {j | j < 32 ∧ j ∈ bits (msrs k.msr)}

/-- The bits that its high half allows. -/
def Control.allowed (msrs : UInt32 → UInt64) (k : Control) : Set ℕ :=
  {j | j < 32 ∧ j + 32 ∈ bits (msrs k.msr)}

lemma bits_adjustCtrl (msrs : UInt32 → UInt64) (k : Control) :
    bits (adjustCtrl msrs k.msr k.requested) =
      (bits k.requested ∪ k.forced msrs) ∩ k.allowed msrs := by
  have hforced : bits (msrs k.msr &&& 0xFFFFFFFF) = k.forced msrs := by
    rw [bits_and, bits_low, Set.inter_comm]
    rfl
  have hallowed : bits ((msrs k.msr >>> 32) &&& 0xFFFFFFFF) = k.allowed msrs := by
    rw [bits_and, bits_low, bits_shiftRight, Set.inter_comm]
    rfl
  rw [adjustCtrl, bits_and, bits_or, hforced, hallowed]

/-! ## The VMCS of a new VCPU -/

/-- A field keeps what is written to it once. -/
lemma foldl_bemiVmWrite_of_not_mem {ws : List (UInt64 × UInt64)} {field : UInt64}
    (h : field ∉ ws.map Prod.fst) (vmcs : UInt64 → UInt64) :
    ws.foldl (fun vmcs w => bemiVmWrite vmcs w.1 w.2) vmcs field = vmcs field := by
  induction ws generalizing vmcs with
  | nil => rfl
  | cons w ws ih =>
    rw [List.map_cons, List.mem_cons, not_or] at h
    rw [List.foldl_cons, ih h.2, bemiVmWrite, Function.update_of_ne h.1]

lemma foldl_bemiVmWrite_of_mem {ws : List (UInt64 × UInt64)} (hws : (ws.map Prod.fst).Nodup)
    {w : UInt64 × UInt64} (h : w ∈ ws) (vmcs : UInt64 → UInt64) :
    ws.foldl (fun vmcs w => bemiVmWrite vmcs w.1 w.2) vmcs w.1 = w.2 := by
  induction ws generalizing vmcs with
  | nil => cases h
  | cons w' ws ih =>
    rw [List.map_cons, List.nodup_cons] at hws
    rw [List.foldl_cons]
    rcases List.mem_cons.mp h with rfl | hmem
    · rw [foldl_bemiVmWrite_of_not_mem hws.1, bemiVmWrite, Function.update_self]
    · exact ih hws.2 hmem _

/-- The fields that `VmxSetupVmcs` writes to. -/
def setupFields : List UInt64 :=
  [0x4000, 0x4002, 0x401E, 0x400C, 0x4012, 0x4004, 0x4006, 0x6C00, 0x6C02, 0x6C04, 0x2C02,
    0x802, 0x806, 0x800, 0x804, 0x808, 0x80A, 0x80C, 0x80E,
    0x608, 0x618, 0x600, 0x610, 0x620, 0x628, 0x630, 0x638, 0x658, 0x65C,
    0x6800, 0x6802, 0x6804, 0x6820, 0x2806, 0x681E, 0x681C]

/-- The VMCS of a VCPU. -/
def vcpuVmcs (c : Core) (vcpuId : UInt64) : UInt64 → UInt64 :=
  c.vmcs (c.gVcpuState vcpuId).vmcsPhysAddr

/-- What a VCPU has in a control field. -/
def Control.contents (k : Control) (vcpuId : UInt64) (c : Core) : Set ℕ :=
  bits (vcpuVmcs c vcpuId k.field)

section
variable {o : Outcomes} {vcpuId entryPoint stackPointer : UInt64} {c : Core}

/-- Each field is written to once. -/
lemma setupWrites_nodup : ((setupWrites entryPoint stackPointer c).map Prod.fst).Nodup := by
  have hfields : (setupWrites entryPoint stackPointer c).map Prod.fst = setupFields := rfl
  rw [hfields]
  decide

lemma mem_setupWrites {k : Control} (hk : k ∈ controls) :
    (k.field, adjustCtrl c.msrs k.msr k.requested) ∈ setupWrites entryPoint stackPointer c := by
  have hfirst : (setupWrites entryPoint stackPointer c).take 5 =
      controls.map fun k => (k.field, adjustCtrl c.msrs k.msr k.requested) := rfl
  refine List.mem_of_mem_take (i := 5) ?_
  rw [hfirst]
  exact List.mem_map_of_mem hk

/-- `VmxSetupVmcs` has written to the VMCS of the VCPU. -/
lemma vcpuVmcs_started (vcpuId : UInt64) (c : Core) :
    vcpuVmcs (setVcpu vcpuId { c.gVcpuState vcpuId with active := true }
      (vmxSetupVmcs entryPoint stackPointer
        { c with
          vmxOperation := true
          currentVmcs := (c.gVcpuState vcpuId).vmcsPhysAddr }).1) vcpuId =
      (setupWrites entryPoint stackPointer c).foldl (fun vmcs w => bemiVmWrite vmcs w.1 w.2)
        (vcpuVmcs c vcpuId) := by
  rw [vcpuVmcs, setVcpu]
  dsimp only
  rw [Function.update_self]
  exact Function.update_self _ _ _

/-- What a new VCPU has in its control fields. -/
lemma vcpuVmcs_control (h : (vmxVcpuCreate o vcpuId entryPoint stackPointer c).2 = .success)
    {k : Control} (hk : k ∈ controls) :
    vcpuVmcs (vmxVcpuCreate o vcpuId entryPoint stackPointer c).1 vcpuId k.field =
      adjustCtrl c.msrs k.msr k.requested := by
  rcases vmxVcpuCreate_cases o vcpuId entryPoint stackPointer c with
    ⟨-, hcreate⟩ | ⟨hstatus, -⟩ | ⟨-, vmxonRegion, vmcsRegion, -, -, hcreate⟩
  · rw [hcreate] at h
    cases h
  · rw [hstatus] at h
    cases h
  · by_cases hstart : o.Started
    · rw [hcreate, startVcpu_of_started _ _ _ _ _ hstart, vcpuVmcs_started]
      exact foldl_bemiVmWrite_of_mem setupWrites_nodup (mem_setupWrites hk) _
    · obtain ⟨on, hfail⟩ := startVcpu_of_not o vcpuId entryPoint stackPointer
        (prepare vmxonRegion vmcsRegion vcpuId c) hstart
      rw [hcreate, hfail] at h
      cases h

/-- The control fields of a new VCPU have what is requested as far as it is allowed, all that is
forced, and nothing that is not allowed. -/
theorem controls_of_created (h : (vmxVcpuCreate o vcpuId entryPoint stackPointer c).2 = .success)
    (hmsrs : ∀ k ∈ controls, k.forced c.msrs ⊆ k.allowed c.msrs) {k : Control}
    (hk : k ∈ controls) :
    let c' := (vmxVcpuCreate o vcpuId entryPoint stackPointer c).1
    bits k.requested ∩ k.allowed c.msrs ⊆ k.contents vcpuId c' ∧
      k.forced c.msrs ⊆ k.contents vcpuId c' ∧ k.contents vcpuId c' ⊆ k.allowed c.msrs ∧
      (bits k.requested ⊆ k.contents vcpuId c' ↔ bits k.requested ⊆ k.allowed c.msrs) := by
  dsimp only
  rw [Control.contents, vcpuVmcs_control h hk, bits_adjustCtrl]
  refine ⟨Set.inter_subset_inter_left _ Set.subset_union_left,
    Set.subset_inter Set.subset_union_right (hmsrs k hk), Set.inter_subset_right, ?_⟩
  rw [Set.subset_inter_iff]
  exact and_iff_right Set.subset_union_left

end

/-- A processor without EPT, all else allowed and nothing forced. -/
def noEptCore : Core :=
  { readyCore with
    msrs := fun index => if index = 0x48B then 0xFFFFFFFD00000000 else 0xFFFFFFFF00000000 }

def allSucceed : Outcomes := ⟨some 0x1000, some 0x2000, 0, 0, 0⟩

lemma noEptCore_success : (vmxVcpuCreate allSucceed 0 0 0 noEptCore).2 = .success := by
  decide

lemma noEptCore_forced : ∀ k ∈ controls, k.forced noEptCore.msrs ⊆ k.allowed noEptCore.msrs := by
  have hforced : ∀ k ∈ controls, ∀ j < 32, (noEptCore.msrs k.msr).toNat.testBit j = true →
      (noEptCore.msrs k.msr).toNat.testBit (j + 32) = true := by decide
  intro k hk j hj
  exact ⟨hj.1, hforced k hk j hj.1 hj.2⟩

theorem controls_of_noEpt :
    procBased2.contents 0 (vmxVcpuCreate allSucceed 0 0 0 noEptCore).1 ⊆
      procBased2.allowed noEptCore.msrs :=
  (controls_of_created noEptCore_success noEptCore_forced (k := procBased2) (by decide)).2.2.1

/-- A VCPU is created there without EPT. -/
theorem created_without_ept :
    (vmxVcpuCreate allSucceed 0 0 0 noEptCore).2 = .success ∧
      (∀ k ∈ controls, k.forced noEptCore.msrs ⊆ k.allowed noEptCore.msrs) ∧
      procBased2 ∈ controls ∧
      ¬ bits procBased2.requested ⊆
        procBased2.contents 0 (vmxVcpuCreate allSucceed 0 0 0 noEptCore).1 := by
  refine ⟨noEptCore_success, noEptCore_forced, by decide, fun hsubset => ?_⟩
  have hept : 1 ∈ bits procBased2.requested := by
    change procBased2.requested.toNat.testBit 1 = true
    decide
  have hnone : (vcpuVmcs (vmxVcpuCreate allSucceed 0 0 0 noEptCore).1 0
      procBased2.field).toNat.testBit 1 = false := by
    rw [vcpuVmcs_control noEptCore_success (by decide)]
    decide
  have hbit : (vcpuVmcs (vmxVcpuCreate allSucceed 0 0 0 noEptCore).1 0
      procBased2.field).toNat.testBit 1 = true := hsubset hept
  rw [hnone] at hbit
  cases hbit

end Bemi.Vmx
