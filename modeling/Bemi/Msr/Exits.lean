import Bemi.Lib.Bits
import Bemi.Svm.Handler

/-!
# MSR exits on both vendors

`HandleMsrExit` takes an exit for RDMSR only when its reason is `0x1F`, which it is on VMX. The SVM
handler passes it exit code `0x7C` for both instructions, so there RDMSR is carried out as WRMSR.
`msrExits_right_iff` says when nobody notices.
-/

namespace Bemi.Msr
open Bemi.Apic Bemi.Vmx Bemi.Svm

/-- The MSR named by ECX in a save area. -/
def msrIndex (gprs : List UInt64) : UInt32 := (gprs.getD 2 0).toUInt32

/-- RAX and RDX hold the halves of a value. -/
def HoldsMsr (rax rdx v : UInt64) : Prop := rax = v &&& 0xFFFFFFFF ∧ rdx = v >>> 32

/-- RDMSR: no MSR changes, and RAX and RDX get the halves of the value. -/
def ReadRight (msrs msrs' : UInt32 → UInt64) (gprs gprs' : List UInt64) : Prop :=
  msrs' = msrs ∧ HoldsMsr (gprs'.getD 0 0) (gprs'.getD 3 0) (msrs (msrIndex gprs))

/-- WRMSR: no MSR but the one named changes. -/
def WriteRight (msrs msrs' : UInt32 → UInt64) (gprs : List UInt64) : Prop :=
  ∀ i, i ≠ msrIndex gprs → msrs' i = msrs i

/-- MSR exits on VMX. -/
def VmxRight (host : Host) (s : VmxState) (gprs : List UInt64) : Prop :=
  let r := bemiVmxExitHandler host s gprs
  (s.vmcs 0x4402 = 0x1F → ReadRight s.msrs r.1.msrs gprs r.2) ∧
    (s.vmcs 0x4402 = 0x20 → WriteRight s.msrs r.1.msrs gprs)

/-- MSR exits on SVM, where EXITINFO1 tells the two instructions apart. -/
def SvmRight (host : Host) (s : SvmState) (gprs : List UInt64) : Prop :=
  let r := bemiSvmExitHandler host s gprs
  s.vmcb 0x70 = 0x7C →
    (s.vmcb 0x78 = 0 → ReadRight s.msrs r.1.msrs gprs r.2.1) ∧
      (s.vmcb 0x78 = 1 → WriteRight s.msrs r.1.msrs gprs)

/-! ## The shared handler -/

lemma deliverPending_msrs (host : Host) (s : VmxState) (g : GuestState) :
    (deliverPending host s g).msrs = s.msrs := by
  unfold deliverPending
  split
  · rfl
  · split <;> rfl

/-- The value in EDX:EAX. -/
def edxEax (rax rdx : UInt64) : UInt64 :=
  (rax &&& (0xFFFFFFFF : UInt64)) ||| (rdx <<< (32 : UInt64))

/-- The MSR that an exit names. -/
def msrOf (g : GuestState) : UInt32 := (g.gpr .rcx).toUInt32

/-- The value in EDX:EAX at an exit. -/
def valueOf (g : GuestState) : UInt64 := edxEax (g.gpr .rax) (g.gpr .rdx)

/-- An exit with the reason of RDMSR. -/
lemma handleMsrExit_read {info : VmExitInfo} (h : info.exitReason = 0x1F) (msrs : UInt32 → UInt64)
    (g : GuestState) :
    handleMsrExit info msrs g =
      (msrs, ((g.setGpr .rax (msrs (msrOf g) &&& 0xFFFFFFFF)).setGpr .rdx
        (msrs (msrOf g) >>> 32)).advance info, .success) := by
  rw [handleMsrExit, if_pos h]
  rfl

/-- The MSRs after an exit with any other reason. -/
def wrmsr (msrs : UInt32 → UInt64) (index : UInt32) (v : UInt64) : UInt32 → UInt64 :=
  if index = 0x3A ∨ index = 0x13C then msrs else Function.update msrs index v

lemma handleMsrExit_write {info : VmExitInfo} (h : info.exitReason ≠ 0x1F)
    (msrs : UInt32 → UInt64) (g : GuestState) :
    handleMsrExit info msrs g =
      (wrmsr msrs (msrOf g) (valueOf g), g.advance info, .success) := by
  rw [handleMsrExit, if_neg h]
  rfl

lemma wrmsr_of_ne (msrs : UInt32 → UInt64) {index i : UInt32} (v : UInt64) (h : i ≠ index) :
    wrmsr msrs index v i = msrs i := by
  unfold wrmsr
  split
  · rfl
  · exact Function.update_of_ne h _ _

/-- The MSRs that `HandleMsrExit` does not write. -/
def IsProtected (index : UInt32) : Prop := index = 0x3A ∨ index = 0x13C

lemma wrmsr_of_not_protected (msrs : UInt32 → UInt64) {index : UInt32} (h : ¬ IsProtected index)
    (v : UInt64) : wrmsr msrs index v = Function.update msrs index v :=
  if_neg h

/-- A write changes nothing when it puts back what the MSR holds. -/
lemma wrmsr_eq_self_iff (msrs : UInt32 → UInt64) (index : UInt32) (v : UInt64) :
    wrmsr msrs index v = msrs ↔ IsProtected index ∨ v = msrs index := by
  unfold wrmsr
  split
  · rename_i h
    exact iff_of_true rfl (.inl h)
  · rename_i h
    rw [Function.update_eq_self_iff]
    exact (or_iff_right h).symm

/-- The halves of a value make up the value. -/
lemma edxEax_halves (v : UInt64) : edxEax (v &&& 0xFFFFFFFF) (v >>> 32) = v := by
  have low : (v &&& (0xFFFFFFFF : UInt64)).toNat = v.toNat % 2 ^ 32 :=
    Bits.toNat_and_mask v rfl
  have high : ((v >>> (32 : UInt64)) <<< (32 : UInt64)).toNat = v.toNat / 2 ^ 32 * 2 ^ 32 := by
    have hv := v.toNat_lt
    rw [UInt64.toNat_shiftLeft, UInt64.toNat_shiftRight]
    simp only [UInt64.reduceToNat, Nat.reduceMod, Nat.shiftLeft_eq, Nat.shiftRight_eq_div_pow]
    omega
  apply UInt64.toNat_inj.mp
  calc (edxEax (v &&& 0xFFFFFFFF) (v >>> 32)).toNat
      = v.toNat % 2 ^ 32 ||| v.toNat / 2 ^ 32 * 2 ^ 32 := by
        rw [edxEax, UInt64.and_assoc, UInt64.and_self, UInt64.toNat_or, low, high]
    _ = v.toNat / 2 ^ 32 * 2 ^ 32 + v.toNat % 2 ^ 32 := by
        rw [Nat.or_comm, ← Nat.shiftLeft_eq,
          Nat.shiftLeft_add_eq_or_of_lt (Nat.mod_lt _ (by decide))]
    _ = v.toNat := Nat.div_add_mod' _ _

lemma HoldsMsr.edxEax {rax rdx v : UInt64} (h : HoldsMsr rax rdx v) : edxEax rax rdx = v := by
  obtain ⟨hax, hdx⟩ := h
  rw [hax, hdx, edxEax_halves]

/-! ## Both vendors -/

/-- What an exit with the reason of RDMSR or WRMSR leaves on VMX. -/
lemma vmx_msrExit {s : VmxState} (h : s.vmcs 0x4402 = 0x1F ∨ s.vmcs 0x4402 = 0x20) (host : Host)
    (gprs : List UInt64) :
    let g := vmxReadGuestState s.vmcs ⟨loadGprs gprs, 0, 0, 0, 0, 0, 0⟩
    let m := handleMsrExit (Vmx.readExitInfo s.vmcs g) s.msrs g
    (bemiVmxExitHandler host s gprs).1.msrs = m.1 ∧
      (bemiVmxExitHandler host s gprs).2 = storeGprs m.2.1.gpr gprs := by
  intro g m
  have hr : (Vmx.readExitInfo s.vmcs g).exitReason = s.vmcs 0x4402 := rfl
  have hd : Vmx.dispatch host (Vmx.readExitInfo s.vmcs g) s.msrs g = (m.1, m.2.1) := by
    unfold Vmx.dispatch
    rw [hr, if_neg (by rcases h with h | h <;> (rw [h]; decide)), if_pos h]
  constructor
  · exact (deliverPending_msrs ..).trans (congrArg Prod.fst hd)
  · exact congrArg (fun m => storeGprs m.2.gpr gprs) hd

lemma vmxRight (host : Host) (s : VmxState) (gprs : List UInt64) : VmxRight host s gprs := by
  constructor
  · intro h
    obtain ⟨hm, hg⟩ := vmx_msrExit (.inl h) host gprs
    rw [handleMsrExit_read h] at hm hg
    rw [hm, hg]
    exact ⟨rfl, rfl, rfl⟩
  · intro h i hi
    obtain ⟨hm, -⟩ := vmx_msrExit (.inr h) host gprs
    rw [handleMsrExit_write (by change s.vmcs 0x4402 ≠ _; rw [h]; decide)] at hm
    rw [hm]
    exact wrmsr_of_ne _ _ hi

/-- What an exit with the code of both instructions leaves on SVM. -/
lemma svm_msrExit {s : SvmState} (h : s.vmcb 0x70 = 0x7C) (host : Host) (gprs : List UInt64) :
    (bemiSvmExitHandler host s gprs).1.msrs =
        wrmsr s.msrs (msrIndex gprs) (edxEax (gprs.getD 0 0) (gprs.getD 3 0)) ∧
      (bemiSvmExitHandler host s gprs).2.1 =
        storeGprs (readGuestState s.vmcb gprs).gpr gprs := by
  generalize hg : readGuestState s.vmcb gprs = g
  have hr : (Svm.readExitInfo s.vmcb g).exitReason = 0x7C := h
  have hd : Svm.dispatch host (Svm.readExitInfo s.vmcb g) s g =
      ({ s with msrs := wrmsr s.msrs (msrOf g) (valueOf g) },
        g.advance (Svm.readExitInfo s.vmcb g), .success) := by
    unfold Svm.dispatch
    rw [hr, if_neg (by decide), if_pos rfl, handleMsrExit_write (by rw [hr]; decide)]
  subst hg
  simp only [bemiSvmExitHandler, hd]
  exact ⟨rfl, rfl⟩

lemma svmRight_iff (host : Host) (s : SvmState) (gprs : List UInt64) :
    SvmRight host s gprs ↔
      (s.vmcb 0x70 = 0x7C → s.vmcb 0x78 = 0 →
        HoldsMsr (gprs.getD 0 0) (gprs.getD 3 0) (s.msrs (msrIndex gprs))) := by
  apply imp_congr_right
  intro h
  obtain ⟨hm, hg⟩ := svm_msrExit h host gprs
  rw [hm, hg]
  constructor
  · rintro ⟨read, -⟩ h0
    exact (read h0).2
  · intro holds
    refine ⟨fun h0 => ⟨?_, holds h0⟩, fun _ i hi => wrmsr_of_ne _ _ hi⟩
    -- the value written is the one that is there
    exact (wrmsr_eq_self_iff ..).mpr (.inr (holds h0).edxEax)

/-- Every MSR exit does what its instruction asks for exactly when an SVM exit for RDMSR finds the
value already in RAX and RDX. -/
theorem msrExits_right_iff (host : Host) (vmx : VmxState) (svm : SvmState) (gprs : List UInt64) :
    VmxRight host vmx gprs ∧ SvmRight host svm gprs ↔
      (svm.vmcb 0x70 = 0x7C → svm.vmcb 0x78 = 0 →
        HoldsMsr (gprs.getD 0 0) (gprs.getD 3 0) (svm.msrs (msrIndex gprs))) :=
  (and_iff_right (vmxRight host vmx gprs)).trans (svmRight_iff host svm gprs)

/-- A guest reads an MSR that holds 5, with zeros in RAX and RDX: it becomes 0. -/
theorem msrExits_right_not : ¬ ∀ (host : Host) (vmx : VmxState) (svm : SvmState)
    (gprs : List UInt64), VmxRight host vmx gprs ∧ SvmRight host svm gprs := by
  intro all
  let host : Host := ⟨fun _ _ => ⟨0, 0, 0, 0⟩, fun _ => 0⟩
  let apic : ApicShadow := ⟨fun _ => 0⟩
  have right := all host ⟨fun _ => 0, fun _ => 0, apic⟩
    ⟨fun field => if field = 0x70 then 0x7C else 0, fun i => if i = 0x10 then 5 else 0,
      ⟨apic, false, 0, 0, 0⟩⟩ [0, 0, 0x10, 0]
  obtain ⟨unchanged, -⟩ := (right.2 rfl).1 rfl
  exact absurd (congrFun unchanged 0x10) (by decide)

end Bemi.Msr
