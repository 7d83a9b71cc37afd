import Bemi.Lib.SaveArea
import Bemi.Vmx.Handler

/-!
# The round trip of the guest registers

`BemiVmxExitTrampoline` of `hypervisor/vmx/vmxexitasm.nasm` saves the guest's registers, passes a
pointer to them through `VmxExitDispatch` to `BemiVmxExitHandler`, and restores them. It pushes RAX
first and R15 last, so the pointer is to R15; the handler reads RAX there, and so on down to R15
where RAX is. `roundTrip_iff` says for which registers nobody notices.
-/

namespace Bemi.Vmx
open SaveArea

/-- The registers in the order in which they are pushed. -/
def pushOrder : List Gpr :=
  [.rax, .rbx, .rcx, .rdx, .rsi, .rdi, .rbp, .r8, .r9, .r10, .r11, .r12, .r13, .r14, .r15]

/-- Up to `VMRESUME`. `call` stands for `mov rcx, rsp`, `sub rsp, 32`, the call and
`add rsp, 32`. -/
def bemiVmxExitTrampoline : List (Insn Gpr) :=
  [.push .rax, .push .rbx, .push .rcx, .push .rdx, .push .rsi, .push .rdi, .push .rbp, .push .r8,
    .push .r9, .push .r10, .push .r11, .push .r12, .push .r13, .push .r14, .push .r15,
    .call,
    .pop .r15, .pop .r14, .pop .r13, .pop .r12, .pop .r11, .pop .r10, .pop .r9, .pop .r8,
    .pop .rbp, .pop .rdi, .pop .rsi, .pop .rdx, .pop .rcx, .pop .rbx, .pop .rax]

/-- The handler called from the stub; `scratch` is what the call leaves in the registers. -/
def vmxExitDispatch (host : Host) (scratch : Gpr → UInt64) : Callee Gpr UInt64 VmxState :=
  fun guestGprBase s =>
    let (s, guestGprBase) := bemiVmxExitHandler host s guestGprBase
    ⟨scratch, guestGprBase, s⟩

/-- From a VM exit to the next VM entry: the state and the registers the guest goes on with. Its RSP
is kept in the VMCS. -/
def vmExit (host : Host) (scratch : Gpr → UInt64) (stack : List UInt64) (s : VmxState)
    (guest : Gpr → UInt64) : VmxState × (Gpr → UInt64) :=
  let s := { s with vmcs := bemiVmWrite s.vmcs 0x681C (guest .rsp) }
  let m := exec (vmxExitDispatch host scratch) bemiVmxExitTrampoline ⟨guest, stack, s⟩
  (m.world, Function.update m.regs .rsp (m.world.vmcs 0x681C))

lemma trampoline_eq : bemiVmxExitTrampoline =
    pushOrder.map .push ++ Insn.call :: pushOrder.reverse.map .pop := rfl

/-- The register whose place in the save area the handler takes for that of another. -/
def mirror : Gpr → Gpr
  | .rax => .r15
  | .rbx => .r14
  | .rcx => .r13
  | .rdx => .r12
  | .rsi => .r11
  | .rdi => .r10
  | .rbp => .r9
  | .rsp => .rsp
  | .r8 => .r8
  | .r9 => .rbp
  | .r10 => .rdi
  | .r11 => .rsi
  | .r12 => .rdx
  | .r13 => .rcx
  | .r14 => .rbx
  | .r15 => .rax

/-- The registers are restored from what the handler has stored for their mirror images. -/
lemma assign_stored (gpr regs : Gpr → UInt64) {r : Gpr} (h : r ≠ .rsp) :
    assign pushOrder.reverse (storeGprs gpr []) regs r = gpr (mirror r) := by
  cases r with
  | rsp => exact absurd rfl h
  | _ => rfl

lemma storeGprs_saved (gpr guest : Gpr → UInt64) (stack : List UInt64) :
    storeGprs gpr ((pushOrder.map guest).reverse ++ stack) = storeGprs gpr [] ++ stack := by
  simp [storeGprs, pushOrder]

/-- Delivering an interrupt leaves the guest's RSP. -/
lemma deliverPending_rsp (host : Host) (s : VmxState) (g : GuestState) :
    (deliverPending host s g).vmcs 0x681C = s.vmcs 0x681C := by
  unfold deliverPending
  split
  · rfl
  · split <;> rfl

lemma vmxWriteGuestState_rsp (vmcs : UInt64 → UInt64) (g : GuestState) :
    vmxWriteGuestState vmcs g 0x681C = g.gpr .rsp := by
  simp [vmxWriteGuestState, bemiVmWrite]

/-- What the handler hands to the exit handlers. -/
def handled (host : Host) (s : VmxState) (guestGprBase : List UInt64) : GuestState :=
  let guestState := vmxReadGuestState s.vmcs ⟨loadGprs guestGprBase, 0, 0, 0, 0, 0, 0⟩
  (dispatch host (readExitInfo s.vmcs guestState) s.msrs guestState).2

lemma bemiVmxExitHandler_saved (host : Host) (s : VmxState) (guestGprBase : List UInt64) :
    (bemiVmxExitHandler host s guestGprBase).2 =
      storeGprs (handled host s guestGprBase).gpr guestGprBase := rfl

lemma bemiVmxExitHandler_rsp (host : Host) (s : VmxState) (guestGprBase : List UInt64) :
    (bemiVmxExitHandler host s guestGprBase).1.vmcs 0x681C =
      (handled host s guestGprBase).gpr .rsp := by
  unfold bemiVmxExitHandler
  dsimp only
  rw [deliverPending_rsp]
  exact vmxWriteGuestState_rsp s.vmcs _

/-- The guest goes on with the mirror image of what the exit handlers have left. -/
lemma vmExit_gpr (host : Host) (scratch : Gpr → UInt64) (stack : List UInt64) (s : VmxState)
    (guest : Gpr → UInt64) (r : Gpr) :
    (vmExit host scratch stack s guest).2 r =
      (handled host { s with vmcs := bemiVmWrite s.vmcs 0x681C (guest .rsp) }
        ((pushOrder.map guest).reverse ++ stack)).gpr (mirror r) := by
  have hsaved := exec_saved (vmxExitDispatch host scratch) pushOrder
    ⟨guest, stack, { s with vmcs := bemiVmWrite s.vmcs 0x681C (guest .rsp) }⟩ _
    (storeGprs (handled host { s with vmcs := bemiVmWrite s.vmcs 0x681C (guest .rsp) }
      ((pushOrder.map guest).reverse ++ stack)).gpr []) rfl rfl
    ((bemiVmxExitHandler_saved ..).trans (storeGprs_saved _ guest stack))
  rw [vmExit, trampoline_eq]
  dsimp only
  rw [hsaved]
  by_cases hr : r = .rsp
  · rw [hr, Function.update_self]
    exact bemiVmxExitHandler_rsp ..
  · rw [Function.update_of_ne hr]
    exact assign_stored _ scratch hr

/-- `dispatch` on a CPUID exit. -/
lemma dispatch_cpuid {info : VmExitInfo} (h : info.exitReason = 0x0A) (host : Host)
    (msrs : UInt32 → UInt64) (g : GuestState) :
    (dispatch host info msrs g).2 = (handleCpuidExit host info g).1 := by
  simp [dispatch, h]

lemma handled_cpuid {s : VmxState} (h : s.vmcs 0x4402 = 0x0A) (host : Host)
    (guest : Gpr → UInt64) (stack : List UInt64) (r : Gpr) :
    let c := cpuidAnswer host (guest .r15).toUInt32 (guest .r13).toUInt32
    (handled host { s with vmcs := bemiVmWrite s.vmcs 0x681C (guest .rsp) }
        ((pushOrder.map guest).reverse ++ stack)).gpr r =
      match r with
      | .rax => c.eax.toUInt64
      | .rbx => c.ebx.toUInt64
      | .rcx => c.ecx.toUInt64
      | .rdx => c.edx.toUInt64
      | r => guest (mirror r) := by
  rw [handled, dispatch_cpuid (show VmExitInfo.exitReason _ = _ from h)]
  cases r <;> rfl

/-- A CPUID exit takes its leaf from R15 and its subleaf from R13, and answers in R15 to R12. -/
lemma vmExit_cpuid {s : VmxState} (h : s.vmcs 0x4402 = 0x0A) (host : Host)
    (scratch : Gpr → UInt64) (stack : List UInt64) (guest : Gpr → UInt64) (r : Gpr) :
    let c := cpuidAnswer host (guest .r15).toUInt32 (guest .r13).toUInt32
    (vmExit host scratch stack s guest).2 r =
      match r with
      | .r15 => c.eax.toUInt64
      | .r14 => c.ebx.toUInt64
      | .r13 => c.ecx.toUInt64
      | .r12 => c.edx.toUInt64
      | r => guest r := by
  rw [vmExit_gpr, handled_cpuid h]
  cases r <;> rfl

/-- RAX to RDX hold what `HandleCpuidExit` computes for RAX and RCX, the other registers what they
held. -/
def RoundTrip (host : Host) (guest after : Gpr → UInt64) : Prop :=
  let c := cpuidAnswer host (guest .rax).toUInt32 (guest .rcx).toUInt32
  (after .rax = c.eax.toUInt64 ∧ after .rbx = c.ebx.toUInt64 ∧ after .rcx = c.ecx.toUInt64 ∧
    after .rdx = c.edx.toUInt64) ∧
    ∀ r, r ∉ [Gpr.rax, .rbx, .rcx, .rdx] → after r = guest r

/-- RAX to RDX hold the answer for RAX and RCX already, and R15 to R12 the answer for R15 and R13. -/
def AnswersHeld (host : Host) (guest : Gpr → UInt64) : Prop :=
  let c := cpuidAnswer host (guest .rax).toUInt32 (guest .rcx).toUInt32
  let c' := cpuidAnswer host (guest .r15).toUInt32 (guest .r13).toUInt32
  (guest .rax = c.eax.toUInt64 ∧ guest .rbx = c.ebx.toUInt64 ∧ guest .rcx = c.ecx.toUInt64 ∧
    guest .rdx = c.edx.toUInt64) ∧
    guest .r15 = c'.eax.toUInt64 ∧ guest .r14 = c'.ebx.toUInt64 ∧ guest .r13 = c'.ecx.toUInt64 ∧
      guest .r12 = c'.edx.toUInt64

/-- A CPUID exit is a round trip exactly when neither the answer expected nor the one given changes
a register. -/
theorem roundTrip_iff (host : Host) (scratch : Gpr → UInt64) (stack : List UInt64) (s : VmxState)
    (guest : Gpr → UInt64) (h : s.vmcs 0x4402 = 0x0A) :
    RoundTrip host guest (vmExit host scratch stack s guest).2 ↔ AnswersHeld host guest := by
  have hafter := vmExit_cpuid h host scratch stack guest
  simp only [RoundTrip, AnswersHeld, hafter]
  refine and_congr_right fun _ => ⟨fun hothers => ?_, fun ⟨h15, h14, h13, h12⟩ r hr => ?_⟩
  · exact ⟨(hothers .r15 (by decide)).symm, (hothers .r14 (by decide)).symm,
      (hothers .r13 (by decide)).symm, (hothers .r12 (by decide)).symm⟩
  · cases r with
    | r15 => exact h15.symm
    | r14 => exact h14.symm
    | r13 => exact h13.symm
    | r12 => exact h12.symm
    | _ => rfl

/-- A processor whose CPUID answers the same for every leaf. -/
def constHost (c : CpuidRegs) : Host :=
  ⟨fun _ _ => c, fun x => x⟩

def cpuidExit : VmxState where
  vmcs field := if field = 0x4402 then 0x0A else 0
  msrs _ := 0
  apic := ⟨fun _ => 0⟩

/-- A processor whose CPUID answers with the leaf and the subleaf, and 1 more than each. -/
def leafHost : Host :=
  ⟨fun leaf subleaf => ⟨leaf, leaf + 1, subleaf, subleaf + 1⟩, fun x => x⟩

/-- Leaf 0x16 is in RAX and leaf 0x80000008 in R15, each with its answer. -/
def leafGuest : Gpr → UInt64
  | .rax => 0x16
  | .rbx => 0x17
  | .rcx => 5
  | .rdx => 6
  | .r15 => 0x80000008
  | .r14 => 0x80000009
  | .r13 => 3
  | .r12 => 4
  | _ => 0x7000

theorem roundTrip_iff_held :
    RoundTrip leafHost leafGuest (vmExit leafHost (fun _ => 7) [] cpuidExit leafGuest).2 :=
  (roundTrip_iff leafHost (fun _ => 7) [] cpuidExit leafGuest rfl).mpr
    ⟨⟨rfl, rfl, rfl, rfl⟩, rfl, rfl, rfl, rfl⟩

/-- For leaf 0 the guest's RAX stays 0; the answer is in R15. -/
theorem roundTrip_not : ¬ ∀ (host : Host) (scratch : Gpr → UInt64) (stack : List UInt64)
    (s : VmxState) (guest : Gpr → UInt64), s.vmcs 0x4402 = 0x0A →
      RoundTrip host guest (vmExit host scratch stack s guest).2 := by
  intro h
  have hrax := (h (constHost ⟨0x16, 0x756E6547, 0x6C65746E, 0x49656E69⟩) (fun _ => 7) [] cpuidExit
    (fun _ => 0) rfl).1.1
  rw [vmExit_cpuid rfl] at hrax
  revert hrax
  decide

end Bemi.Vmx
