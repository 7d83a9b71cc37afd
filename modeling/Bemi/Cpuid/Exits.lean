import Bemi.Cpuid.Spoof
import Bemi.Lib.Bits

/-!
# CPUID exits and the table of overrides

A guest executes CPUID by an exit, which `HandleCpuidExit` answers from the processor alone, and a
caller of the BEMI protocol is answered by `CpuidSpoofHandler` from the table. `cpuid_agrees_iff` says
for which leaves and subleaves of which processors the two answers are the same.
-/

namespace Bemi.Cpuid
open Bemi.Vmx Chain Loop

section
variable (p : Processor)

/-! ## What the handler answers -/

/-- The number of overrides there is room for after the fixed ones. -/
def room : Nat :=
  maxCpuidOverrides - (fixedKeys p).length

/-- The extended leaves whose overrides are in the table. -/
def storedExtended : List UInt32 :=
  (extendedLeaves p).take (room p)

/-- The other leaves whose overrides are in the table. -/
def storedOther : List UInt32 :=
  (otherLeaves p).take (room p - (extendedLeaves p).length)

lemma length_visited_le {α : Type} (go : α → Bool) (as : List α) :
    (visited go as).length ≤ as.length := by
  induction as with
  | nil => exact Nat.le_refl 0
  | cons a as ih =>
    rw [visited, List.length_cons, List.length_cons]
    split
    · exact Nat.succ_le_succ ih
    · exact Nat.succ_le_succ (Nat.zero_le _)

/-- The fixed overrides fit. -/
lemma fixedKeys_length_le : (fixedKeys p).length ≤ maxCpuidOverrides := by
  have h04 : (cacheSubleaves p).length ≤ 5 :=
    (List.length_filter_le ..).trans (length_visited_le _ [0, 1, 2, 3, 4])
  have h0B : (topologyLevels p).length ≤ 4 := length_visited_le _ [0, 1, 2, 3]
  have h0D : (stateSubleaves p).length ≤ 10 :=
    (List.length_filter_le ..).trans (length_visited_le _ [0, 1, 2, 3, 4, 5, 6, 7, 8, 9])
  have hhv : hypervisorLeaves.length = 6 := rfl
  simp only [fixedKeys, maxCpuidOverrides, List.length_append, List.length_map,
    List.length_singleton]
  omega

/-- The table, in its three parts. -/
lemma take_allOverrides : (allOverrides p).take maxCpuidOverrides =
    (fixedKeys p).map (entry (fixedRegs p)) ++
      (((storedExtended p).map fun leaf => (leaf, 0)).map
        (entry fun leaf _ => exposeSvm leaf (p.asmCpuid leaf))) ++
      (((storedOther p).map fun leaf => (leaf, 0)).map (entry fun leaf _ => p.asmCpuid leaf)) := by
  have hroom : maxCpuidOverrides - ((fixedKeys p).length + (extendedLeaves p).length) =
      room p - (extendedLeaves p).length := (Nat.sub_sub ..).symm
  rw [allOverrides, List.take_append, List.take_append, List.length_append, List.length_map,
    List.length_map, List.take_of_length_le (by rw [List.length_map]; exact fixedKeys_length_le p),
    hroom, ← List.map_take, ← List.map_take, List.map_map, List.map_map]
  rfl

lemma cpuidSpoofHandler_eq {t : Overrides}
    (h : t.gCpuidOverrides = (allOverrides p).take maxCpuidOverrides) (leaf subleaf : UInt32) :
    cpuidSpoofHandler p t leaf subleaf =
      if (leaf, subleaf) ∈ fixedKeys p then fixedRegs p leaf subleaf
      else if leaf ∈ storedExtended p ∧ subleaf = 0 then exposeSvm leaf (p.asmCpuid leaf)
      else if leaf ∈ storedOther p ∧ subleaf = 0 then p.asmCpuid leaf
      else if blanked leaf then ⟨0, 0, 0, 0⟩
      else p.asmCpuidEx leaf subleaf := by
  have hmem (leaves : List UInt32) :
      (leaf, subleaf) ∈ leaves.map (fun leaf => (leaf, (0 : UInt32))) ↔
        leaf ∈ leaves ∧ subleaf = 0 := by
    rw [List.mem_map]
    constructor
    · rintro ⟨leaf', hleaf, heq⟩
      cases heq
      exact ⟨hleaf, rfl⟩
    · rintro ⟨hleaf, rfl⟩
      exact ⟨leaf, hleaf, rfl⟩
  have hkey (f : UInt32 → UInt32 → CpuidRegs) (k : UInt32 × UInt32) :
      ((entry f k).leaf, (entry f k).subleaf) = k := rfl
  rw [cpuidSpoofHandler, h, take_allOverrides, List.find?_append, List.find?_append]
  by_cases hfixed : (leaf, subleaf) ∈ fixedKeys p
  · rw [if_pos hfixed, Lookup.find?_map_of_mem (hkey _) hfixed]
    rfl
  rw [if_neg hfixed, Lookup.find?_map_of_not_mem (hkey _) hfixed, Option.none_or]
  by_cases hext : leaf ∈ storedExtended p ∧ subleaf = 0
  · rw [if_pos hext, Lookup.find?_map_of_mem (hkey _) ((hmem _).mpr hext)]
    rfl
  rw [if_neg hext, Lookup.find?_map_of_not_mem (hkey _) (hext ∘ (hmem _).mp), Option.none_or]
  by_cases hother : leaf ∈ storedOther p ∧ subleaf = 0
  · rw [if_pos hother, Lookup.find?_map_of_mem (hkey _) ((hmem _).mpr hother)]
    rfl
  · rw [if_neg hother, Lookup.find?_map_of_not_mem (hkey _) (hother ∘ (hmem _).mp)]

/-! ## What both answer -/

/-- The condition, leaf by leaf, that the two answers are the same. -/
def Agrees (leaf subleaf : UInt32) : Prop :=
  let c := p.asmCpuidEx leaf subleaf
  if leaf = 0 then c.eax ≤ 0x1F
  else if leaf = 1 then subleaf ≠ 0 ∧ c.ecx &&& 0x80000020 = 0
  else if leaf = 4 then
    subleaf ∈ cacheSubleaves p →
      c.eax &&& 0x1F ≠ 0 ∧ (c.eax &&& 0x1F = 3 → rewriteCache c = c)
  else if leaf ∈ hypervisorLeaves ∧ subleaf = 0 then c = hypervisorRegs leaf
  else if leaf ∈ storedExtended p ∧ subleaf = 0 then c = exposeSvm leaf (p.asmCpuid leaf)
  else if leaf ∈ storedOther p ∧ subleaf = 0 then c = p.asmCpuid leaf
  else blanked leaf → c = ⟨0, 0, 0, 0⟩

lemma mem_fixedKeys {leaf subleaf : UInt32} : (leaf, subleaf) ∈ fixedKeys p ↔
    leaf = 1 ∧ subleaf = 0 ∨ leaf = 4 ∧ subleaf ∈ cacheSubleaves p ∨ leaf = 7 ∧ subleaf = 0 ∨
      leaf = 0x0B ∧ subleaf ∈ topologyLevels p ∨ leaf = 0x0D ∧ subleaf ∈ stateSubleaves p ∨
      leaf ∈ hypervisorLeaves ∧ subleaf = 0 := by
  simp only [fixedKeys, List.mem_append, List.mem_map, List.mem_singleton, Prod.mk.injEq]
  grind

lemma le_of_storedExtended {leaf : UInt32} (h : leaf ∈ storedExtended p) : 0x80000000 ≤ leaf :=
  (mem_upTo.mp (List.mem_of_mem_take h)).1

lemma of_storedOther {leaf : UInt32} (h : leaf ∈ storedOther p) :
    2 ≤ leaf ∧ enumerated leaf = false := by
  obtain ⟨hleaf, henum⟩ := List.mem_filter.mp (List.mem_of_mem_take h)
  exact ⟨(mem_upTo.mp hleaf).1, by simpa using henum⟩

/-- A leaf below 80000000h that is no standard leaf of the last loop. -/
lemma cpuidSpoofHandler_low {t : Overrides}
    (h : t.gCpuidOverrides = (allOverrides p).take maxCpuidOverrides) {leaf subleaf : UInt32}
    (hlow : ¬ 0x80000000 ≤ leaf) (hleaf : ¬ (2 ≤ leaf ∧ enumerated leaf = false)) :
    cpuidSpoofHandler p t leaf subleaf =
      if (leaf, subleaf) ∈ fixedKeys p then fixedRegs p leaf subleaf
      else if blanked leaf then ⟨0, 0, 0, 0⟩
      else p.asmCpuidEx leaf subleaf := by
  have hext : ¬ (leaf ∈ storedExtended p ∧ subleaf = 0) := fun hs =>
    hlow (le_of_storedExtended p hs.1)
  have hother : ¬ (leaf ∈ storedOther p ∧ subleaf = 0) := fun hs => hleaf (of_storedOther p hs.1)
  rw [cpuidSpoofHandler_eq p h, if_neg hext, if_neg hother]

/-- Leaf 0: the exit limits the last leaf. -/
lemma agrees_leaf00 {t : Overrides}
    (h : t.gCpuidOverrides = (allOverrides p).take maxCpuidOverrides) (subleaf : UInt32) :
    cpuidAnswer p.toHost 0 subleaf = cpuidSpoofHandler p t 0 subleaf ↔
      (p.asmCpuidEx 0 subleaf).eax ≤ 0x1F := by
  have hfixed : (0, subleaf) ∉ fixedKeys p := by
    rw [mem_fixedKeys]
    simp [hypervisorLeaves]
  have hanswer : cpuidAnswer p.toHost 0 subleaf =
      if (p.asmCpuidEx 0 subleaf).eax > 0x1F then { p.asmCpuidEx 0 subleaf with eax := 0x1F }
      else p.asmCpuidEx 0 subleaf := by
    simp [cpuidAnswer]
  rw [cpuidSpoofHandler_low p h (by decide) (by decide), if_neg hfixed, if_neg (by decide),
    hanswer]
  split
  · rename_i hbig
    constructor
    · intro heq
      rw [← heq]
      exact UInt32.le_refl _
    · exact fun hle => absurd hbig (UInt32.not_lt.mpr hle)
  · rename_i hsmall
    exact ⟨fun _ => UInt32.not_lt.mp hsmall, fun _ => rfl⟩

/-- Leaf 1: the exit hides VMX and the hypervisor bit, which the override sets. -/
lemma agrees_leaf01 {t : Overrides}
    (h : t.gCpuidOverrides = (allOverrides p).take maxCpuidOverrides) (subleaf : UInt32) :
    cpuidAnswer p.toHost 1 subleaf = cpuidSpoofHandler p t 1 subleaf ↔
      subleaf ≠ 0 ∧ (p.asmCpuidEx 1 subleaf).ecx &&& 0x80000020 = 0 := by
  have hfixed : (1, subleaf) ∈ fixedKeys p ↔ subleaf = 0 := by
    rw [mem_fixedKeys]
    simp [hypervisorLeaves]
  have hanswer : cpuidAnswer p.toHost 1 subleaf =
      { p.asmCpuidEx 1 subleaf with
        ecx := (p.asmCpuidEx 1 subleaf).ecx &&& ~~~(0x80000000 : UInt32) &&& ~~~(0x20 : UInt32) } := by
    rw [cpuidAnswer, if_pos rfl]
    exact if_neg fun hzero => absurd hzero.1 (by decide)
  rw [cpuidSpoofHandler_low p h (by decide) (by decide), hanswer]
  split
  · rename_i hs
    constructor
    · intro heq
      -- bit 5 is clear on the left and set on the right
      have hvmx := congrArg (fun c : CpuidRegs => c.ecx.toBitVec.getLsbD 5) heq
      simp [fixedRegs, forceLeaf01] at hvmx
    · exact fun hne => absurd (hfixed.mp hs) hne.1
  · rename_i hs
    have hmask : ~~~(0x80000000 : UInt32) &&& ~~~(0x20 : UInt32) = ~~~(0x80000020 : UInt32) := by
      decide
    rw [if_neg (by decide), UInt32.and_assoc, hmask, ← Bits.and_not_eq_self_iff]
    constructor
    · exact fun heq => ⟨fun hz => hs (hfixed.mpr hz), congrArg CpuidRegs.ecx heq⟩
    · intro hkeep
      rw [hkeep.2]

/-- Leaf 4: the exit leaves the caches as they are. -/
lemma agrees_leaf04 {t : Overrides}
    (h : t.gCpuidOverrides = (allOverrides p).take maxCpuidOverrides) (subleaf : UInt32) :
    p.asmCpuidEx 4 subleaf = cpuidSpoofHandler p t 4 subleaf ↔
      (subleaf ∈ cacheSubleaves p →
        (p.asmCpuidEx 4 subleaf).eax &&& 0x1F ≠ 0 ∧
          ((p.asmCpuidEx 4 subleaf).eax &&& 0x1F = 3 →
            rewriteCache (p.asmCpuidEx 4 subleaf) = p.asmCpuidEx 4 subleaf)) := by
  have hfixed : (4, subleaf) ∈ fixedKeys p ↔ subleaf ∈ cacheSubleaves p := by
    rw [mem_fixedKeys]
    simp [hypervisorLeaves]
  rw [cpuidSpoofHandler_low p h (by decide) (by decide)]
  split
  · rename_i hs
    have hregs : fixedRegs p 4 subleaf = cacheRegs p subleaf := rfl
    rw [hregs, cacheRegs, forall_prop_of_true (hfixed.mp hs)]
    split
    · rename_i hnone
      refine ⟨fun heq => ?_, fun hcache => absurd hnone hcache.1⟩
      rw [heq] at hnone
      exact absurd hnone (by decide)
    · rename_i hcache
      split
      · rename_i hthree
        exact ⟨fun heq => ⟨hcache, fun _ => heq.symm⟩, fun hkeep => (hkeep.2 hthree).symm⟩
      · rename_i hthree
        exact ⟨fun _ => ⟨hcache, fun hthree' => absurd hthree' hthree⟩, fun _ => rfl⟩
  · rename_i hs
    rw [if_neg (by decide)]
    exact ⟨fun _ hsub => absurd (hfixed.mpr hsub) hs, fun _ => rfl⟩

/-- The exit answers every other leaf as the processor does. -/
lemma cpuidAnswer_other {host : Host} {leaf : UInt32} (h00 : leaf ≠ 0) (h01 : leaf ≠ 1)
    (subleaf : UInt32) : cpuidAnswer host leaf subleaf = host.asmCpuidEx leaf subleaf := by
  rw [cpuidAnswer, if_neg h01]
  exact if_neg fun hzero => h00 hzero.1

lemma hypervisorLeaves_ge {leaf : UInt32} (h : leaf ∈ hypervisorLeaves) : 0x40000000 ≤ leaf := by
  simp only [hypervisorLeaves, List.mem_cons, List.not_mem_nil, or_false] at h
  rcases h with rfl | rfl | rfl | rfl | rfl | rfl <;> decide

/-- Leaves 7, 0Bh and 0Dh are the processor's, in the table or not. -/
lemma processor_leaf {leaf : UInt32} (h : leaf = 7 ∨ leaf = 0x0B ∨ leaf = 0x0D) (subleaf : UInt32) :
    fixedRegs p leaf subleaf = p.asmCpuidEx leaf subleaf ∧ leaf ∉ storedExtended p ∧
      leaf ∉ storedOther p ∧ blanked leaf = false := by
  have hsmall : ¬ 0x80000000 ≤ leaf ∧ enumerated leaf = true ∧ blanked leaf = false := by
    rcases h with rfl | rfl | rfl <;> decide
  obtain ⟨hlow, henum, hblank⟩ := hsmall
  refine ⟨?_, fun hs => hlow (le_of_storedExtended p hs), fun hs => ?_, hblank⟩
  · rcases h with rfl | rfl | rfl <;> rfl
  · have hother := (of_storedOther p hs).2
    rw [henum] at hother
    cases hother

/-- Once the table has been filled, the condition is exact. -/
lemma agrees_iff {t : Overrides}
    (h : t.gCpuidOverrides = (allOverrides p).take maxCpuidOverrides) (leaf subleaf : UInt32) :
    cpuidAnswer p.toHost leaf subleaf = cpuidSpoofHandler p t leaf subleaf ↔
      Agrees p leaf subleaf := by
  rw [Agrees]
  by_cases h00 : leaf = 0
  · subst h00
    rw [if_pos rfl]
    exact agrees_leaf00 p h subleaf
  by_cases h01 : leaf = 1
  · subst h01
    rw [if_neg h00, if_pos rfl]
    exact agrees_leaf01 p h subleaf
  rw [if_neg h00, if_neg h01, cpuidAnswer_other h00 h01]
  by_cases h04 : leaf = 4
  · subst h04
    rw [if_pos rfl]
    exact agrees_leaf04 p h subleaf
  rw [if_neg h04, cpuidSpoofHandler_eq p h]
  by_cases hhv : leaf ∈ hypervisorLeaves ∧ subleaf = 0
  · have hle : 0x40000000 ≤ leaf := hypervisorLeaves_ge hhv.1
    have hfixed : (leaf, subleaf) ∈ fixedKeys p :=
      (mem_fixedKeys p).mpr (.inr (.inr (.inr (.inr (.inr hhv)))))
    rw [if_pos hhv, if_pos hfixed, fixedRegs_hypervisor p hle]
  rw [if_neg hhv]
  by_cases hfixed : (leaf, subleaf) ∈ fixedKeys p
  · have hleaf : leaf = 7 ∨ leaf = 0x0B ∨ leaf = 0x0D := by
      rw [mem_fixedKeys] at hfixed
      grind
    rw [if_pos hfixed]
    obtain ⟨hregs, hext, hother, hblank⟩ := processor_leaf p hleaf subleaf
    rw [hregs, if_neg fun hs => hext hs.1, if_neg fun hs => hother hs.1, hblank]
    exact ⟨nofun, fun _ => rfl⟩
  rw [if_neg hfixed]
  split
  · rfl
  split
  · rfl
  split
  · rename_i hblank
    rw [forall_prop_of_true hblank]
  · rename_i hblank
    exact ⟨fun _ hb => absurd hb hblank, fun _ => rfl⟩

/-- The registers that a CPUID exit leaves for the guest. -/
def answered (g : GuestState) : CpuidRegs :=
  ⟨(g.gpr .rax).toUInt32, (g.gpr .rbx).toUInt32, (g.gpr .rcx).toUInt32, (g.gpr .rdx).toUInt32⟩

lemma answered_exit (host : Host) (info : VmExitInfo) (g : GuestState) :
    answered (handleCpuidExit host info g).1 =
      cpuidAnswer host (g.gpr .rax).toUInt32 (g.gpr .rcx).toUInt32 := by
  simp [answered, handleCpuidExit, GuestState.setGpr, GuestState.advance]

/-- After `CpuidSpoofInit`, a CPUID exit gives the guest what `CpuidSpoofHandler` answers exactly for
the leaves and subleaves that meet the condition. -/
theorem cpuid_agrees_iff {t : Overrides} (h : Settles (cpuidSpoofInit p) t) (info : VmExitInfo)
    (g : GuestState) :
    answered (handleCpuidExit p.toHost info g).1 =
        cpuidSpoofHandler p t (g.gpr .rax).toUInt32 (g.gpr .rcx).toUInt32 ↔
      Agrees p (g.gpr .rax).toUInt32 (g.gpr .rcx).toUInt32 := by
  rw [answered_exit]
  exact agrees_iff p (cpuidSpoofInit_table p h) _ _

end

/-- A processor with the leaves 0, 1 and 80000000h, and no subleaves. -/
def smallProcessor : Processor :=
  let answer (leaf : UInt32) : CpuidRegs :=
    if leaf = 0 then ⟨1, 0x756E6547, 0x6C65746E, 0x49656E69⟩
    else if leaf = 1 then ⟨0x906EA, 0x100800, 0x7FFAFBBF, 0xBFEBFBFF⟩
    else if leaf = 0x80000000 then ⟨0x80000000, 0, 0, 0⟩
    else ⟨0, 0, 0, 0⟩
  { asmCpuid := answer
    asmCpuidEx := fun leaf _ => answer leaf
    asmMsb32 := fun _ => 0 }

def cpuidGuest (leaf : UInt64) : GuestState where
  gpr := fun r => if r = .rax then leaf else 0
  guestRip := 0
  guestRflags := 2
  guestCr0 := 0
  guestCr3 := 0
  guestCr4 := 0
  guestEfer := 0

def cpuidInfo : VmExitInfo :=
  ⟨0x0A, 0, 0, 0, 2, 0, 0⟩

/-- Leaf 0 of a processor whose last leaf needs no limit. -/
theorem cpuid_agrees_iff_small :
    ∃ t, Settles (cpuidSpoofInit smallProcessor) t ∧
      answered (handleCpuidExit smallProcessor.toHost cpuidInfo (cpuidGuest 0)).1 =
        cpuidSpoofHandler smallProcessor t 0 0 := by
  obtain ⟨t, ht, -⟩ := cpuidSpoofInit_settles smallProcessor (by decide) (by decide)
  refine ⟨t, ht, (cpuid_agrees_iff smallProcessor ht cpuidInfo (cpuidGuest 0)).mpr ?_⟩
  exact show (1 : UInt32) ≤ 0x1F by decide

/-- On leaf 1 the guest sees no hypervisor, while `CpuidSpoofHandler` answers that there is one. -/
theorem cpuid_agrees_not :
    ¬ ∀ (p : Processor) (t : Overrides), Settles (cpuidSpoofInit p) t →
      ∀ (info : VmExitInfo) (g : GuestState),
        answered (handleCpuidExit p.toHost info g).1 =
          cpuidSpoofHandler p t (g.gpr .rax).toUInt32 (g.gpr .rcx).toUInt32 := by
  intro h
  obtain ⟨t, ht, htable⟩ := cpuidSpoofInit_settles smallProcessor (by decide) (by decide)
  have heq := h smallProcessor t ht cpuidInfo (cpuidGuest 1)
  rw [answered_exit] at heq
  exact ((agrees_leaf01 smallProcessor htable 0).mp heq).1 rfl

end Bemi.Cpuid
