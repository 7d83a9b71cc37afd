import Bemi.Cpuid.Exits

/-!
# Other subleaves

The overrides of leaf 1 and of the hypervisor leaves are for subleaf 0, and `CpuidSpoofHandler`
compares the subleaf too. With another one in ECX it answers what the processor does, although neither
leaf has subleaves.
-/

namespace Bemi.Cpuid
open Bemi.Vmx Chain

/-- Leaf 1 with VMX and the hypervisor bit, without PDCM: bits 5 and 31, not bit 15. -/
def Leaf01Spoofed (c : CpuidRegs) : Prop := c.ecx &&& 0x80008020 = 0x80000020

/-- The signature and the last of the hypervisor leaves. -/
def SignatureSpoofed (c : CpuidRegs) : Prop :=
  c.eax = 0x40000005 ∧
    c.ebx = hypervisorSignature ∧ c.ecx = hypervisorSignature ∧ c.edx = hypervisorSignature

/-- The bits that are set and cleared in leaf 1. -/
lemma leaf01Spoofed_force (c : CpuidRegs) : Leaf01Spoofed (forceLeaf01 c) := by
  have hset : (0x20 : UInt32) ||| 0x80000000 = 0x80000020 := by decide
  have hkept : ~~~(0x8000 : UInt32) &&& 0x80008020 = 0x80000020 := by decide
  rw [Leaf01Spoofed, forceLeaf01, UInt32.and_assoc, hkept, UInt32.or_assoc, hset]
  exact Bits.or_and_self c.ecx 0x80000020

section
variable (p : Processor) {t : Overrides}
  (h : t.gCpuidOverrides = (allOverrides p).take maxCpuidOverrides)
include h

/-- Subleaf 0 of a leaf with a fixed override. -/
lemma cpuidSpoofHandler_fixed {leaf : UInt32} (hleaf : leaf = 1 ∨ leaf = 0x40000000) :
    cpuidSpoofHandler p t leaf 0 = fixedRegs p leaf 0 := by
  have hfixed : (leaf, 0) ∈ fixedKeys p := by
    rw [mem_fixedKeys]
    rcases hleaf with rfl | rfl
    · exact .inl ⟨rfl, rfl⟩
    · exact .inr (.inr (.inr (.inr (.inr ⟨by decide, rfl⟩))))
  rw [cpuidSpoofHandler_eq p h, if_pos hfixed]

/-- Any other subleaf. -/
lemma cpuidSpoofHandler_processor {leaf subleaf : UInt32} (hleaf : leaf = 1 ∨ leaf = 0x40000000)
    (hsub : subleaf ≠ 0) : cpuidSpoofHandler p t leaf subleaf = p.asmCpuidEx leaf subleaf := by
  have hfixed : (leaf, subleaf) ∉ fixedKeys p := by
    rw [mem_fixedKeys]
    rcases hleaf with rfl | rfl
    · simp [hypervisorLeaves, hsub]
    · simp [hsub]
  have hblank : blanked leaf = false := by
    rcases hleaf with rfl | rfl <;> decide
  rw [cpuidSpoofHandler_eq p h, if_neg hfixed, if_neg fun hext => hsub hext.2,
    if_neg fun hother => hsub hother.2, hblank]
  rfl

end

/-- Where neither leaf has subleaves, a subleaf other than 0 is spoofed only if the processor answers
so by itself. -/
theorem spoofed_subleaf_iff (p : Processor) (h01 : ∀ s, p.asmCpuidEx 1 s = p.asmCpuid 1)
    (hhv : ∀ s, p.asmCpuidEx 0x40000000 s = p.asmCpuid 0x40000000) {t : Overrides}
    (h : Settles (cpuidSpoofInit p) t) (subleaf : UInt32) :
    Leaf01Spoofed (cpuidSpoofHandler p t 1 subleaf) ∧
        SignatureSpoofed (cpuidSpoofHandler p t 0x40000000 subleaf) ↔
      subleaf = 0 ∨
        Leaf01Spoofed (p.asmCpuid 1) ∧ SignatureSpoofed (p.asmCpuid 0x40000000) := by
  have htable := cpuidSpoofInit_table p h
  by_cases hsub : subleaf = 0
  · subst hsub
    rw [cpuidSpoofHandler_fixed p htable (.inl rfl), cpuidSpoofHandler_fixed p htable (.inr rfl)]
    exact iff_of_true ⟨leaf01Spoofed_force (p.asmCpuid 1), rfl, rfl, rfl, rfl⟩ (.inl rfl)
  · rw [cpuidSpoofHandler_processor p htable (.inl rfl) hsub,
      cpuidSpoofHandler_processor p htable (.inr rfl) hsub, h01, hhv]
    exact (or_iff_right hsub).symm

/-- Subleaf 0. -/
theorem spoofed_subleaf_zero :
    ∃ t, Settles (cpuidSpoofInit smallProcessor) t ∧
      Leaf01Spoofed (cpuidSpoofHandler smallProcessor t 1 0) ∧
      SignatureSpoofed (cpuidSpoofHandler smallProcessor t 0x40000000 0) := by
  obtain ⟨t, ht, -⟩ := cpuidSpoofInit_settles smallProcessor (by decide) (by decide)
  exact ⟨t, ht, (spoofed_subleaf_iff smallProcessor (fun _ => rfl) (fun _ => rfl) ht 0).mpr
    (.inl rfl)⟩

/-- With 1 in ECX, neither leaf is spoofed. -/
theorem not_spoofed_subleaf_one :
    ∃ t, Settles (cpuidSpoofInit smallProcessor) t ∧
      ¬ Leaf01Spoofed (cpuidSpoofHandler smallProcessor t 1 1) ∧
      ¬ SignatureSpoofed (cpuidSpoofHandler smallProcessor t 0x40000000 1) := by
  obtain ⟨t, ht, htable⟩ := cpuidSpoofInit_settles smallProcessor (by decide) (by decide)
  refine ⟨t, ht, ?_, ?_⟩
  · rw [cpuidSpoofHandler_processor smallProcessor htable (.inl rfl) (by decide), Leaf01Spoofed]
    decide
  · rw [cpuidSpoofHandler_processor smallProcessor htable (.inr rfl) (by decide)]
    exact fun hspoofed => absurd hspoofed.1 (by decide)

end Bemi.Cpuid
