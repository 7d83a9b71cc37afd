import Bemi.Vmx.Vcpu

/-!
# Exit dispatch

`VmxHandleExit` calls the function in the dispatch table, and `HypervisorBackendInit` has put
`VmxHandleExit` there. With any other function in the table the call returns
(`handleExitReturns_iff`); after the initialisation it never does.
-/

namespace Bemi.Vmx
open TailCall

section
variable (host : Host) (info : VmExitInfo) (g : GuestState)

/-- A table whose entry is `VmxHandleExit` or `NULL`. -/
def Circular (c : Core) : Prop :=
  c.gHypervisorBackend.handleExit = none ∨
    c.gHypervisorBackend.handleExit = some .vmxHandleExit

/-- The entry only ever calls itself. -/
lemma not_handleExitReturns {c : Core} (h : Circular c) : ¬ HandleExitReturns host info g c := by
  refine not_returns (P := fun f => f = c.gHypervisorBackend.handleExit) (fun f hf => ?_) rfl
  rcases h with hnull | hself
  · exact ⟨none, by rw [hf, hnull]; rfl, hnull.symm⟩
  · exact ⟨c.gHypervisorBackend.handleExit, by rw [hf.trans hself]; rfl, rfl⟩

/-- The other functions of its type return. -/
lemma handleExitReturns {c : Core} (h : ¬ Circular c) : HandleExitReturns host info g c := by
  rw [Circular, not_or] at h
  obtain ⟨hnull, hself⟩ := h
  rw [HandleExitReturns]
  cases hentry : c.gHypervisorBackend.handleExit with
  | none => exact absurd hentry hnull
  | some f =>
    cases f with
    | vmxHandleExit => exact absurd hentry hself
    | handleCpuidExit => exact returns_of_result rfl
    | handleMsrExit => exact returns_of_result rfl
    | handleCrAccess => exact returns_of_result rfl
    | handleIoExit => exact returns_of_result rfl

theorem handleExitReturns_iff (c : Core) : HandleExitReturns host info g c ↔ ¬ Circular c :=
  ⟨fun hreturns hcircular => not_handleExitReturns host info g hcircular hreturns,
    handleExitReturns host info g⟩

end

/-- A successful initialisation has filled the table. -/
lemma handleExit_of_init {cpuCount : UInt64} {c : Core}
    (h : (hypervisorBackendInit cpuCount c).2 = .success) :
    (hypervisorBackendInit cpuCount c).1.gHypervisorBackend.handleExit = some .vmxHandleExit := by
  rw [hypervisorBackendInit] at h ⊢
  generalize enableVmx _ = c' at h ⊢
  by_cases hcr0 : c'.cr0 &&& 0x80000000 = 0 ∨ c'.cr0 &&& 1 = 0
  · rw [if_pos hcr0] at h
    cases h
  rw [if_neg hcr0] at h ⊢
  by_cases hlock : c'.msrs 0x3A &&& 1 = 0
  · rw [if_pos hlock] at h
    cases h
  rw [if_neg hlock] at h ⊢
  by_cases hvmx : c'.msrs 0x3A &&& 4 = 0
  · rw [if_pos hvmx] at h
    cases h
  rw [if_neg hvmx]

/-- After the initialisation a call of `HandleExit` never returns. -/
theorem handleExit_never_returns {cpuCount : UInt64} {c : Core}
    (h : (hypervisorBackendInit cpuCount c).2 = .success) (host : Host) (info : VmExitInfo)
    (g : GuestState) :
    ¬ HandleExitReturns host info g (hypervisorBackendInit cpuCount c).1 :=
  not_handleExitReturns host info g (.inr (handleExit_of_init h))

def idleHost : Host := ⟨fun _ _ => ⟨0, 0, 0, 0⟩, fun _ => 0⟩

def cpuidInfo : VmExitInfo := ⟨0x0A, 0, 0, 0, 2, 0, 0⟩

def zeroGuest : GuestState := ⟨fun _ => 0, 0, 0, 0, 0, 0, 0⟩

lemma readyCore_init : (hypervisorBackendInit 1 readyCore).2 = .success := by decide

/-- A CPUID exit there. -/
theorem handleExit_ready :
    ¬ HandleExitReturns idleHost cpuidInfo zeroGuest (hypervisorBackendInit 1 readyCore).1 :=
  handleExit_never_returns readyCore_init idleHost cpuidInfo zeroGuest

/-- No fuel is enough for it. -/
theorem handleExit_circular :
    (hypervisorBackendInit 1 readyCore).2 = .success ∧
      ∀ fuel result, run (exitFunction idleHost cpuidInfo zeroGuest
        (hypervisorBackendInit 1 readyCore).1) fuel
        (hypervisorBackendInit 1 readyCore).1.gHypervisorBackend.handleExit ≠ some result := by
  refine ⟨readyCore_init, fun fuel result hrun => ?_⟩
  exact not_handleExitReturns idleHost cpuidInfo zeroGuest (.inr (handleExit_of_init readyCore_init))
    ⟨fuel, result, hrun⟩

end Bemi.Vmx
