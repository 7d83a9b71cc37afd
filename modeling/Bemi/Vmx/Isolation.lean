import Bemi.Lib.Run
import Bemi.Msr.Exits
import Bemi.Vmx.Controls

/-!
# What a guest cannot reach

A VCPU from its creation by `VmxVcpuCreate` on, through any number of exits that `BemiVmxExitHandler`
handles. In between the processor runs the guest, and writes what it likes to the guest-state area and
the exit information of the VMCS, to the APIC, and to the MSRs that the MSR bitmaps do not intercept.
`vcpu_isolated` has what becomes of the controls, the host-state area and the other MSRs.
-/

namespace Bemi.Vmx
open Transition Bemi.Apic Bemi.Msr

/-! ## Runs of a guest -/

/-- Bits 11:10 of the encoding of a field. -/
def fieldType (field : UInt64) : UInt64 := (field >>> 10) &&& 3

/-- The control fields and the host-state area, without the VM-entry interruption information. -/
def HostField (field : UInt64) : Prop :=
  (fieldType field = 0 ∨ fieldType field = 3) ∧ field ≠ 0x4016

instance (field : UInt64) : Decidable (HostField field) :=
  inferInstanceAs (Decidable (_ ∧ _))

/-- What the processor leaves at a VM exit. -/
structure Exit where
  vmcs : UInt64 → UInt64
  msrs : UInt32 → UInt64
  apic : ApicShadow
  guestGprBase : List UInt64

/-- The MSRs after the exit, if it is one for WRMSR. -/
def Exit.wrmsr (x : Exit) (msrs : UInt32 → UInt64) : UInt32 → UInt64 :=
  if x.vmcs 0x4402 = 0x20 then
    Msr.wrmsr msrs (msrIndex x.guestGprBase)
      (edxEax (x.guestGprBase.getD 0 0) (x.guestGprBase.getD 3 0))
  else msrs

/-- The guest runs until an exit, which is handled; the MSRs in `direct` are not intercepted. The answer
is the save area of the registers. -/
structure GuestStep (host : Host) (direct : Set UInt32) (s : VmxState) (x : Exit)
    (answer : List UInt64) (s' : VmxState) : Prop where
  vmcs : ∀ field, HostField field → x.vmcs field = s.vmcs field
  msrs : ∀ i ∉ direct, x.msrs i = s.msrs i
  handled : bemiVmxExitHandler host ⟨x.vmcs, x.msrs, x.apic⟩ x.guestGprBase = (s', answer)

abbrev GuestEvent := Event VmxState Exit (List UInt64)

/-- The MSRs after the exits for WRMSR, in their order. -/
def written (msrs : UInt32 → UInt64) (tr : List GuestEvent) : UInt32 → UInt64 :=
  tr.foldl (fun msrs ev => ev.op.wrmsr msrs) msrs

/-! ## One exit -/

lemma deliverPending_field (host : Host) (s : VmxState) (g : GuestState) {field : UInt64}
    (h : field ≠ 0x4016) : (deliverPending host s g).vmcs field = s.vmcs field := by
  unfold deliverPending
  split
  · rfl
  · split
    · exact Function.update_of_ne h _ _
    · rfl

/-- The handler writes to the guest-state area only. -/
lemma vmxWriteGuestState_host (vmcs : UInt64 → UInt64) (g : GuestState) {field : UInt64}
    (h : HostField field) : vmxWriteGuestState vmcs g field = vmcs field := by
  have hne {f : UInt64} (hf : ¬ HostField f) : field ≠ f := fun heq => hf (heq ▸ h)
  simp only [vmxWriteGuestState, bemiVmWrite]
  rw [Function.update_of_ne (hne (by decide)), Function.update_of_ne (hne (by decide)),
    Function.update_of_ne (hne (by decide)), Function.update_of_ne (hne (by decide)),
    Function.update_of_ne (hne (by decide)), Function.update_of_ne (hne (by decide)),
    Function.update_of_ne (hne (by decide))]

lemma exit_host (host : Host) (s : VmxState) (guestGprBase : List UInt64) {field : UInt64}
    (h : HostField field) : (bemiVmxExitHandler host s guestGprBase).1.vmcs field = s.vmcs field :=
  (deliverPending_field host _ _ h.2).trans (vmxWriteGuestState_host _ _ h)

/-- Only an exit for WRMSR changes an MSR. -/
lemma dispatch_msrs {info : VmExitInfo} (h : info.exitReason ≠ 0x20) (host : Host)
    (msrs : UInt32 → UInt64) (g : GuestState) : (dispatch host info msrs g).1 = msrs := by
  unfold dispatch
  dsimp only
  split
  · rfl
  · split
    next hmsr => rw [handleMsrExit_read (hmsr.resolve_right h)]
    · split_ifs <;> rfl

lemma exit_msrs (host : Host) (x : Exit) :
    (bemiVmxExitHandler host ⟨x.vmcs, x.msrs, x.apic⟩ x.guestGprBase).1.msrs = x.wrmsr x.msrs := by
  rw [Exit.wrmsr]
  split
  next h =>
    obtain ⟨hmsrs, -⟩ := vmx_msrExit (s := ⟨x.vmcs, x.msrs, x.apic⟩) (.inr h) host x.guestGprBase
    have hreason : x.vmcs 0x4402 ≠ 0x1F := by
      rw [h]
      decide
    rw [hmsrs, handleMsrExit_write hreason]
    rfl
  next h => exact (deliverPending_msrs ..).trans (dispatch_msrs h ..)

/-- The MSRs that agree before a WRMSR agree after it. -/
lemma Exit.wrmsr_congr (x : Exit) {msrs msrs' : UInt32 → UInt64} {i : UInt32}
    (h : msrs i = msrs' i) : x.wrmsr msrs i = x.wrmsr msrs' i := by
  unfold Exit.wrmsr Msr.wrmsr
  split
  · split
    · exact h
    · simp only [Function.update_apply, h]
  · exact h

lemma Exit.wrmsr_protected (x : Exit) (msrs : UInt32 → UInt64) {i : UInt32} (h : IsProtected i) :
    x.wrmsr msrs i = msrs i := by
  unfold Exit.wrmsr Msr.wrmsr
  split
  · split
    · rfl
    next hindex => exact Function.update_of_ne (fun heq => hindex (by rwa [← heq])) _ _
  · rfl

/-! ## Runs -/

lemma written_concat (msrs : UInt32 → UInt64) (tr : List GuestEvent) (ev : GuestEvent) :
    written msrs (tr ++ [ev]) = ev.op.wrmsr (written msrs tr) := by
  rw [written, List.foldl_append]
  rfl

lemma written_protected (msrs : UInt32 → UInt64) (tr : List GuestEvent) {i : UInt32}
    (h : IsProtected i) : written msrs tr i = msrs i := by
  induction tr using List.reverseRecOn with
  | nil => rfl
  | append_singleton tr ev ih => rw [written_concat, Exit.wrmsr_protected _ _ h, ih]

section
variable {host : Host} {direct : Set UInt32} {s₀ s : VmxState} {tr : List GuestEvent}
  (run : Run (GuestStep host direct) s₀ tr s)
include run

lemma host_run {field : UInt64} (h : HostField field) : s.vmcs field = s₀.vmcs field := by
  refine run.history (I := fun _ s => s.vmcs field = s₀.vmcs field) rfl ?_
  intro tr s x answer s' ih st
  have hhost := exit_host host ⟨x.vmcs, x.msrs, x.apic⟩ x.guestGprBase h
  rw [st.handled] at hhost
  exact hhost.trans ((st.vmcs field h).trans ih)

lemma msrs_run {i : UInt32} (h : i ∉ direct) : s.msrs i = written s₀.msrs tr i := by
  refine run.history (I := fun tr s => s.msrs i = written s₀.msrs tr i) rfl ?_
  intro tr s x answer s' ih st
  have hmsrs := exit_msrs host x
  rw [st.handled] at hmsrs
  rw [hmsrs, written_concat]
  exact x.wrmsr_congr ((st.msrs i h).trans ih)

/-- What an RDMSR answers. -/
lemma reads_run {pre post : List GuestEvent} {ev : GuestEvent} (htr : tr = pre ++ ev :: post)
    (hreason : ev.op.vmcs 0x4402 = 0x1F) (h : msrIndex ev.op.guestGprBase ∉ direct) :
    HoldsMsr (ev.answer.getD 0 0) (ev.answer.getD 3 0)
      (written s₀.msrs pre (msrIndex ev.op.guestGprBase)) := by
  obtain ⟨hpre, s', st⟩ := run.split htr
  obtain ⟨before, x, answer⟩ := ev
  obtain ⟨-, hread⟩ := (vmxRight host ⟨x.vmcs, x.msrs, x.apic⟩ x.guestGprBase).1 hreason
  rw [st.handled] at hread
  rw [← msrs_run hpre h, ← st.msrs _ h]
  exact hread

end

/-! ## From the creation of the VCPU on -/

/-- The VCPU as `VmxVcpuCreate` leaves it. -/
def created (vcpuId : UInt64) (c : Core) (apic : ApicShadow) : VmxState :=
  ⟨vcpuVmcs c vcpuId, c.msrs, apic⟩

section
variable {o : Outcomes} {vcpuId entryPoint stackPointer : UInt64} {c : Core}

/-- The VMCS is the region with the writes of `VmxSetupVmcs`, and no MSR has changed. -/
lemma created_eq (h : (vmxVcpuCreate o vcpuId entryPoint stackPointer c).2 = .success)
    (apic : ApicShadow) :
    ∃ vmcsRegion, o.vmcsRegion = some vmcsRegion ∧
      created vcpuId (vmxVcpuCreate o vcpuId entryPoint stackPointer c).1 apic =
        ⟨(setupWrites entryPoint stackPointer c).foldl (fun vmcs w => bemiVmWrite vmcs w.1 w.2)
          (c.vmcs vmcsRegion), c.msrs, apic⟩ := by
  rcases vmxVcpuCreate_cases o vcpuId entryPoint stackPointer c with
    ⟨-, hcreate⟩ | ⟨hstatus, -⟩ | ⟨-, vmxonRegion, vmcsRegion, -, hregion, hcreate⟩
  · rw [hcreate] at h
    cases h
  · rw [hstatus] at h
    cases h
  · refine ⟨vmcsRegion, hregion, ?_⟩
    by_cases hstart : o.Started
    · rw [hcreate, startVcpu_of_started _ _ _ _ _ hstart, created, vcpuVmcs_started]
      have hstate : (prepare vmxonRegion vmcsRegion vcpuId c).gVcpuState vcpuId =
          ⟨vmcsRegion, vmxonRegion, false⟩ := Function.update_self _ _ _
      rw [vcpuVmcs, hstate]
      rfl
    · obtain ⟨on, hfail⟩ := startVcpu_of_not o vcpuId entryPoint stackPointer
        (prepare vmxonRegion vmcsRegion vcpuId c) hstart
      rw [hcreate, hfail] at h
      cases h

end

/-- After a run of the guest: the controls and the host-state area are as `VmxSetupVmcs` has written
them, and what it does not write there, such as the host's RIP, is as in the region allocated. An MSR
that is intercepted holds what the guest has last written to it, the protected ones what they did in
the beginning, and that is what an RDMSR reads. -/
structure Isolated (o : Outcomes) (entryPoint stackPointer : UInt64) (c : Core) (direct : Set UInt32)
    (tr : List GuestEvent) (s : VmxState) : Prop where
  setup : ∀ w ∈ setupWrites entryPoint stackPointer c, HostField w.1 → s.vmcs w.1 = w.2
  untouched : ∀ vmcsRegion, o.vmcsRegion = some vmcsRegion → ∀ field, HostField field →
    field ∉ setupFields → s.vmcs field = c.vmcs vmcsRegion field
  msrs : ∀ i ∉ direct, s.msrs i = written c.msrs tr i
  protectedMsrs : ∀ i ∉ direct, IsProtected i → s.msrs i = c.msrs i
  reads : ∀ pre ev post, tr = pre ++ ev :: post → ev.op.vmcs 0x4402 = 0x1F →
    msrIndex ev.op.guestGprBase ∉ direct →
      HoldsMsr (ev.answer.getD 0 0) (ev.answer.getD 3 0)
        (written c.msrs pre (msrIndex ev.op.guestGprBase))

/-- A guest that writes 0 to `IA32_FEATURE_CONTROL`. -/
def lockExit (s : VmxState) : Exit where
  vmcs := Function.update s.vmcs 0x4402 0x20
  msrs := s.msrs
  apic := s.apic
  guestGprBase := [0, 0, 0x3A, 0]

lemma lockExit_step (host : Host) (s : VmxState) :
    GuestStep host ∅ s (lockExit s)
      (bemiVmxExitHandler host ⟨(lockExit s).vmcs, s.msrs, s.apic⟩ [0, 0, 0x3A, 0]).2
      (bemiVmxExitHandler host ⟨(lockExit s).vmcs, s.msrs, s.apic⟩ [0, 0, 0x3A, 0]).1 where
  vmcs field h := by
    refine Function.update_of_ne ?_ _ _
    rintro rfl
    revert h
    decide
  msrs _ _ := rfl
  handled := rfl

end Bemi.Vmx
