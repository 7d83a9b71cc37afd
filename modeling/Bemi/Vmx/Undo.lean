import Bemi.Vmx.Vcpu

/-!
# Failing creations

A call of `VmxVcpuCreate` that fails for want of memory gives back what it has allocated. One that
fails at `VMXON`, `VMCLEAR` or `VMPTRLD` keeps both regions, the overwritten entry of `gVcpuState`,
and VMX operation where `VMXON` has entered it.
-/

namespace Bemi.Vmx

/-- Nothing of a call is left: the VCPU's entry, the pages, and VMX operation. -/
structure Undone (vcpuId : UInt64) (c c' : Core) : Prop where
  gVcpuState : c'.gVcpuState vcpuId = c.gVcpuState vcpuId
  pages : c'.pages = c.pages
  vmxOperation : c'.vmxOperation → c.vmxOperation

/-- One of the three instructions fails, and the call gets that far. -/
def Outcomes.Abandons (o : Outcomes) (vcpuId : UInt64) : Prop :=
  vcpuId < maxLogicalProcessors ∧ o.vmxonRegion ≠ none ∧ o.vmcsRegion ≠ none ∧ ¬ o.Started

lemma Undone.refl (vcpuId : UInt64) (c : Core) : Undone vcpuId c c := ⟨rfl, rfl, id⟩

/-- A region that is freed again. -/
lemma undone_free (vcpuId region : UInt64) (revId : UInt32) (c : Core) :
    Undone vcpuId c (freeAlignedPages region (allocateRegion region revId c)) :=
  ⟨rfl, List.erase_cons_head _ _, id⟩

section
variable (o : Outcomes) (vcpuId entryPoint stackPointer : UInt64) (c : Core)

/-- What an abandoned call leaves. -/
lemma vmxVcpuCreate_of_abandons (h : o.Abandons vcpuId) :
    (vmxVcpuCreate o vcpuId entryPoint stackPointer c).2 = .deviceError ∧
      ∃ vmxonRegion vmcsRegion,
        (vmxVcpuCreate o vcpuId entryPoint stackPointer c).1.gVcpuState vcpuId =
            ⟨vmcsRegion, vmxonRegion, false⟩ ∧
          (vmxVcpuCreate o vcpuId entryPoint stackPointer c).1.pages =
            vmcsRegion :: vmxonRegion :: c.pages := by
  obtain ⟨hid, hvmxon, hvmcs, hstart⟩ := h
  rcases vmxVcpuCreate_cases o vcpuId entryPoint stackPointer c with
    ⟨hid', -⟩ | ⟨-, ⟨hnone, -⟩ | ⟨hnone, -⟩⟩ | ⟨-, vmxonRegion, vmcsRegion, -, -, hcreate⟩
  · exact absurd hid hid'
  · exact absurd hnone hvmxon
  · exact absurd hnone hvmcs
  · obtain ⟨on, hfail⟩ := startVcpu_of_not o vcpuId entryPoint stackPointer
      (prepare vmxonRegion vmcsRegion vcpuId c) hstart
    rw [hcreate, hfail]
    exact ⟨rfl, vmxonRegion, vmcsRegion, Function.update_self _ _ _, rfl⟩

/-- A failing call undoes itself unless it is abandoned. -/
theorem undone_iff :
    ((vmxVcpuCreate o vcpuId entryPoint stackPointer c).2 ≠ .success →
        Undone vcpuId c (vmxVcpuCreate o vcpuId entryPoint stackPointer c).1) ↔
      ¬ o.Abandons vcpuId := by
  constructor
  · intro hundone habandons
    obtain ⟨hstatus, vmxonRegion, vmcsRegion, -, hpages⟩ :=
      vmxVcpuCreate_of_abandons o vcpuId entryPoint stackPointer c habandons
    have hkept := (hundone (by rw [hstatus]; exact EfiStatus.noConfusion)).pages
    rw [hpages] at hkept
    have hlength := congrArg List.length hkept
    rw [List.length_cons, List.length_cons] at hlength
    omega
  · intro hgoes hfailed
    rcases vmxVcpuCreate_cases o vcpuId entryPoint stackPointer c with
      ⟨-, hcreate⟩ | ⟨-, ⟨-, hcreate⟩ | ⟨-, vmxonRegion, revId, hcreate⟩⟩ |
      ⟨hid, vmxonRegion, vmcsRegion, hvmxon, hvmcs, hcreate⟩
    · rw [hcreate]
      exact Undone.refl vcpuId c
    · rw [hcreate]
      exact Undone.refl vcpuId c
    · rw [hcreate]
      exact undone_free vcpuId vmxonRegion revId c
    · have hstart : o.Started := by
        by_contra hstart
        refine hgoes ⟨hid, ?_, ?_, hstart⟩
        · rw [hvmxon]
          exact Option.some_ne_none _
        · rw [hvmcs]
          exact Option.some_ne_none _
      rw [hcreate, startVcpu_of_started o vcpuId entryPoint stackPointer _ hstart] at hfailed
      exact absurd rfl hfailed

end

/-- The first VCPU of a processor whose `VMXON` fails. -/
theorem undone_vmxon_fails :
    (vmxVcpuCreate ⟨some 0x1000, some 0x2000, 1, 0, 0⟩ 0 0 0 readyCore).2 = .deviceError ∧
      ¬ Undone 0 readyCore
        (vmxVcpuCreate ⟨some 0x1000, some 0x2000, 1, 0, 0⟩ 0 0 0 readyCore).1 := by
  refine ⟨by decide, fun hundone => ?_⟩
  have hpages : (vmxVcpuCreate ⟨some 0x1000, some 0x2000, 1, 0, 0⟩ 0 0 0 readyCore).1.pages ≠
      readyCore.pages := by decide
  exact hpages hundone.pages

end Bemi.Vmx
