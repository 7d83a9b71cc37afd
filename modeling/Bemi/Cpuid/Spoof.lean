import Bemi.Lib.Filling
import Bemi.Lib.Lookup
import Bemi.Lib.Loop
import Bemi.Vmx.Handler

/-!
# CPUID spoofing

Model of `hwcompat/cpuid/cpuidspoof.c`: the table of overrides, how `CpuidSpoofInit` fills it from what
the processor answers, and `CpuidSpoofHandler`, which answers from the table and else from the
processor. `AsmCpuid` executes CPUID with whatever ECX holds, so it is a function of its own beside
`AsmCpuidEx`. The loops over the extended and the standard leaves take fuel.
-/

namespace Bemi.Cpuid
open Bemi.Vmx Chain Loop

structure CpuidOverride extends CpuidRegs where
  leaf : UInt32
  subleaf : UInt32

abbrev maxCpuidOverrides : Nat := 128

/-- The overrides in use. -/
structure Overrides where
  gCpuidOverrides : List CpuidOverride
  bound : gCpuidOverrides.length ≤ maxCpuidOverrides

/-- A processor on which CPUID is executed in both ways. -/
structure Processor extends Host where
  asmCpuid : UInt32 → CpuidRegs

/-! ## The table -/

def Overrides.empty : Overrides :=
  ⟨[], Nat.zero_le _⟩

def Overrides.addOverride (t : Overrides) (leaf subleaf : UInt32) (c : CpuidRegs) : Overrides :=
  if h : t.gCpuidOverrides.length < maxCpuidOverrides then
    ⟨t.gCpuidOverrides ++ [{ c with leaf, subleaf }], List.length_append ▸ h⟩
  else t

/-- Leaf 1 with VMX and the hypervisor bit, without PDCM. -/
def forceLeaf01 (c : CpuidRegs) : CpuidRegs :=
  { c with ecx := (c.ecx ||| 0x20 ||| 0x80000000) &&& ~~~(0x8000 : UInt32) }

/-- 16 ways, one partition, lines of 64 bytes. -/
def cacheGeometry : UInt32 := ((15 : UInt32) <<< (22 : UInt32)) ||| ((0 : UInt32) <<< (12 : UInt32)) ||| 63

/-- A level 3 cache as leaf 4 describes it to the guest. -/
def rewriteCache (c : CpuidRegs) : CpuidRegs :=
  { c with
    eax := (c.eax &&& ~~~(0x1F : UInt32)) ||| 3 ||| ((3 : UInt32) <<< (5 : UInt32))
    ebx := cacheGeometry
    ecx := 16383 }

/-- Extended leaf 1 with SVM. -/
def exposeSvm (leaf : UInt32) (c : CpuidRegs) : CpuidRegs :=
  if leaf = 0x80000001 then { c with ecx := c.ecx ||| 4 } else c

def hypervisorSignature : UInt32 := 0x494d4542

section
variable (p : Processor)

def populateLeaf01 (t : Overrides) : Overrides :=
  t.addOverride 1 0 (forceLeaf01 (p.asmCpuid 1))

def populateLeaf04 (t : Overrides) : Overrides :=
  forBreak (fun subleaf t =>
    let c := p.asmCpuidEx 4 subleaf
    let cacheType := c.eax &&& 0x1F
    if cacheType = 0 then
      (if subleaf = 3 then
        t.addOverride 4 subleaf
          { eax := 3 ||| ((3 : UInt32) <<< (5 : UInt32)) ||| 0x100
            ebx := cacheGeometry
            ecx := 16383
            edx := 0 }
      else t, false)
    else (t.addOverride 4 subleaf (if cacheType = 3 then rewriteCache c else c), true))
    [0, 1, 2, 3, 4] t

def populateLeaf07 (t : Overrides) : Overrides :=
  t.addOverride 7 0 (p.asmCpuidEx 7 0)

def populateLeaf0B (t : Overrides) : Overrides :=
  forBreak (fun level t =>
    let c := p.asmCpuidEx 0x0B level
    let type := (c.ecx >>> (8 : UInt32)) &&& 0xFF
    (t.addOverride 0x0B level c, type ≠ 0))
    [0, 1, 2, 3] t

def populateLeaf0D (t : Overrides) : Overrides :=
  forBreak (fun subleaf t =>
    let c := p.asmCpuidEx 0x0D subleaf
    if subleaf > 0 ∧ c.eax = 0 ∧ c.ebx = 0 ∧ c.ecx = 0 ∧ c.edx = 0 then (t, false)
    else (t.addOverride 0x0D subleaf c, true))
    [0, 1, 2, 3, 4, 5, 6, 7, 8, 9] t

def populateHypervisorLeaves (t : Overrides) : Overrides :=
  let t := t.addOverride 0x40000000 0
    ⟨0x40000005, hypervisorSignature, hypervisorSignature, hypervisorSignature⟩
  let t := t.addOverride 0x40000001 0 ⟨0x00010003, 0, 0, 0⟩
  let t := t.addOverride 0x40000002 0 ⟨0, 0, 0, 0⟩
  let t := t.addOverride 0x40000003 0 ⟨0, 0, 0, 0⟩
  let t := t.addOverride 0x40000004 0 ⟨0, 0, 0, 0⟩
  t.addOverride 0x40000005 0 ⟨0, 0, 0, 0⟩

def populateExtendedLeaves (fuel : Nat) (t : Overrides) : Option Overrides :=
  let gMaxExtendedLeaf := (p.asmCpuid 0x80000000).eax
  forUpTo (fun leaf t => t.addOverride leaf 0 (exposeSvm leaf (p.asmCpuid leaf)))
    gMaxExtendedLeaf fuel 0x80000000 t

/-- The standard leaves that have a function of their own. -/
def enumerated (leaf : UInt32) : Bool :=
  leaf = 0x04 || leaf = 0x07 || leaf = 0x0B || leaf = 0x0D

def populateOtherLeaves (gMaxStandardLeaf : UInt32) (fuel : Nat) (t : Overrides) :
    Option Overrides :=
  forUpTo (fun leaf t => if enumerated leaf then t else t.addOverride leaf 0 (p.asmCpuid leaf))
    gMaxStandardLeaf fuel 2 t

def cpuidSpoofInit (fuel : Nat) : Option Overrides :=
  let gMaxStandardLeaf := (p.asmCpuid 0).eax
  let t := populateLeaf01 p .empty
  let t := populateLeaf04 p t
  let t := populateLeaf07 p t
  let t := populateLeaf0B p t
  let t := populateLeaf0D p t
  let t := populateHypervisorLeaves t
  (populateExtendedLeaves p fuel t).bind (populateOtherLeaves p gMaxStandardLeaf fuel)

/-- The leaves that are zero unless there is an override. -/
def blanked (leaf : UInt32) : Bool :=
  0x40000001 ≤ leaf && leaf ≤ 0x4FFFFFFF ||
    0x80000009 ≤ leaf && leaf ≤ 0x80000018 && leaf ≠ 0x8000000A && leaf ≠ 0x80000019 &&
      leaf ≠ 0x8000001A && leaf ≠ 0x8000001D && leaf ≠ 0x8000001E && leaf ≠ 0x8000001F

def cpuidSpoofHandler (t : Overrides) (leaf subleaf : UInt32) : CpuidRegs :=
  match t.gCpuidOverrides.find? fun o => (o.leaf, o.subleaf) = (leaf, subleaf) with
  | some o => o.toCpuidRegs
  | none => if blanked leaf then ⟨0, 0, 0, 0⟩ else p.asmCpuidEx leaf subleaf

end

/-! ## What the table holds -/

/-- The override of a leaf and a subleaf. -/
def entry (f : UInt32 → UInt32 → CpuidRegs) (k : UInt32 × UInt32) : CpuidOverride :=
  { f k.1 k.2 with leaf := k.1, subleaf := k.2 }

/-- One table is the other with some overrides added, as many as there is room for. -/
def Adds (os : List CpuidOverride) (t t' : Overrides) : Prop :=
  t'.gCpuidOverrides = (t.gCpuidOverrides ++ os).take maxCpuidOverrides

lemma Adds.trans {os os' : List CpuidOverride} {t t' t'' : Overrides} (h : Adds os t t')
    (h' : Adds os' t' t'') : Adds (os ++ os') t t'' := by
  rw [Adds, h', h, Filling.take_take_append, List.append_assoc]

lemma adds_addOverride (f : UInt32 → UInt32 → CpuidRegs) (t : Overrides) (leaf subleaf : UInt32) :
    Adds [entry f (leaf, subleaf)] t (t.addOverride leaf subleaf (f leaf subleaf)) := by
  rw [Adds, Overrides.addOverride]
  split
  · rename_i h
    exact (List.take_of_length_le (List.length_append ▸ h)).symm
  · rename_i h
    have hfull := Nat.le_antisymm t.bound (Nat.le_of_not_lt h)
    rw [List.take_append_of_le_length (Nat.le_of_eq hfull.symm), List.take_of_length_le t.bound]

/-- Adding the overrides of some leaves. -/
lemma adds_foldl {α : Type} (f : UInt32 → UInt32 → CpuidRegs) (key : α → UInt32 × UInt32)
    (as : List α) (t : Overrides) :
    Adds (as.map fun a => entry f (key a)) t
      (as.foldl (fun t a => t.addOverride (key a).1 (key a).2 (f (key a).1 (key a).2)) t) :=
  Filling.foldl_take (fun t a => adds_addOverride f t (key a).1 (key a).2) as t t.bound

/-- A loop with a break over the subleaves of a leaf. -/
lemma adds_forBreak (f : UInt32 → UInt32 → CpuidRegs) (leaf : UInt32)
    {body : UInt32 → Overrides → Overrides × Bool} {go keep : UInt32 → Bool}
    (h : ∀ s t, body s t = (if keep s then t.addOverride leaf s (f leaf s) else t, go s))
    (ss : List UInt32) (t : Overrides) :
    Adds (((visited go ss).filter keep).map fun s => entry f (leaf, s)) t (forBreak body ss t) := by
  have hfold : forBreak body ss t =
      ((visited go ss).filter keep).foldl (fun t s => t.addOverride leaf s (f leaf s)) t := by
    rw [forBreak_eq_foldl (fun s t => by rw [h]), List.foldl_filter]
    simp only [h]
  rw [hfold]
  exact adds_foldl f (fun s => (leaf, s)) _ t

section
variable (p : Processor)

/-- Leaf 4 describes a cache. -/
def describesCache (subleaf : UInt32) : Bool :=
  (p.asmCpuidEx 4 subleaf).eax &&& 0x1F ≠ 0

/-- The subleaves of leaf 4 that have an override. -/
def cacheSubleaves : List UInt32 :=
  (visited (describesCache p) [0, 1, 2, 3, 4]).filter fun s => describesCache p s || s = 3

/-- The levels of leaf 0Bh that have an override. -/
def topologyLevels : List UInt32 :=
  visited (fun level => ((p.asmCpuidEx 0x0B level).ecx >>> (8 : UInt32)) &&& 0xFF ≠ 0) [0, 1, 2, 3]

/-- Leaf 0Dh describes a state component. -/
def describesState (subleaf : UInt32) : Bool :=
  let c := p.asmCpuidEx 0x0D subleaf
  ¬ (subleaf > 0 ∧ c.eax = 0 ∧ c.ebx = 0 ∧ c.ecx = 0 ∧ c.edx = 0)

/-- The subleaves of leaf 0Dh that have an override. -/
def stateSubleaves : List UInt32 :=
  (visited (describesState p) [0, 1, 2, 3, 4, 5, 6, 7, 8, 9]).filter (describesState p)

def hypervisorLeaves : List UInt32 :=
  [0x40000000, 0x40000001, 0x40000002, 0x40000003, 0x40000004, 0x40000005]

/-- The leaves and subleaves whose overrides come before those of the loops over the leaves. -/
def fixedKeys : List (UInt32 × UInt32) :=
  [(1, 0)] ++ (cacheSubleaves p).map (fun s => (4, s)) ++ [(7, 0)] ++
    (topologyLevels p).map (fun s => (0x0B, s)) ++ (stateSubleaves p).map (fun s => (0x0D, s)) ++
    hypervisorLeaves.map fun leaf => (leaf, 0)

/-- What leaf 4 is overridden with. -/
def cacheRegs (subleaf : UInt32) : CpuidRegs :=
  let c := p.asmCpuidEx 4 subleaf
  if c.eax &&& 0x1F = 0 then
    { eax := 3 ||| ((3 : UInt32) <<< (5 : UInt32)) ||| 0x100
      ebx := cacheGeometry
      ecx := 16383
      edx := 0 }
  else if c.eax &&& 0x1F = 3 then rewriteCache c else c

/-- What the hypervisor leaves are overridden with. -/
def hypervisorRegs (leaf : UInt32) : CpuidRegs :=
  if leaf = 0x40000000 then
    ⟨0x40000005, hypervisorSignature, hypervisorSignature, hypervisorSignature⟩
  else if leaf = 0x40000001 then ⟨0x00010003, 0, 0, 0⟩
  else ⟨0, 0, 0, 0⟩

def fixedRegs (leaf subleaf : UInt32) : CpuidRegs :=
  if leaf = 1 then forceLeaf01 (p.asmCpuid 1)
  else if leaf = 4 then cacheRegs p subleaf
  else if 0x40000000 ≤ leaf then hypervisorRegs leaf
  else p.asmCpuidEx leaf subleaf

/-- The leaves from 80000000h on for which `CpuidSpoofInit` makes an override. -/
def extendedLeaves : List UInt32 :=
  upTo 0x80000000 (p.asmCpuid 0x80000000).eax

/-- The standard leaves for which `PopulateOtherLeaves` makes an override. -/
def otherLeaves : List UInt32 :=
  (upTo 2 (p.asmCpuid 0).eax).filter fun leaf => !enumerated leaf

/-- All the overrides that `CpuidSpoofInit` makes, in order. -/
def allOverrides : List CpuidOverride :=
  (fixedKeys p).map (entry (fixedRegs p)) ++
    (extendedLeaves p).map (fun leaf => entry (fun leaf _ => exposeSvm leaf (p.asmCpuid leaf)) (leaf, 0)) ++
    (otherLeaves p).map fun leaf => entry (fun leaf _ => p.asmCpuid leaf) (leaf, 0)

lemma adds_leaf04 (t : Overrides) :
    Adds (((cacheSubleaves p).map fun s => (4, s)).map (entry (fixedRegs p))) t
      (populateLeaf04 p t) := by
  rw [List.map_map]
  refine adds_forBreak (fixedRegs p) 4 (fun s t => ?_) _ t
  have hregs : fixedRegs p 4 s = cacheRegs p s := rfl
  dsimp only
  rw [hregs, cacheRegs]
  split
  · rename_i hnone
    have hdesc : describesCache p s = false := decide_eq_false (not_not_intro hnone)
    rw [hdesc, Bool.false_or]
    simp
  · rename_i hsome
    have hdesc : describesCache p s = true := decide_eq_true hsome
    rw [hdesc, Bool.true_or]
    rfl

lemma adds_leaf0B (t : Overrides) :
    Adds (((topologyLevels p).map fun s => (0x0B, s)).map (entry (fixedRegs p))) t
      (populateLeaf0B p t) := by
  rw [List.map_map, topologyLevels, ← List.filter_true (visited _ _)]
  exact adds_forBreak (fixedRegs p) 0x0B (fun _ _ => rfl) _ t

lemma adds_leaf0D (t : Overrides) :
    Adds (((stateSubleaves p).map fun s => (0x0D, s)).map (entry (fixedRegs p))) t
      (populateLeaf0D p t) := by
  rw [List.map_map]
  refine adds_forBreak (fixedRegs p) 0x0D (fun s t => ?_) _ t
  have hregs : fixedRegs p 0x0D s = p.asmCpuidEx 0x0D s := rfl
  dsimp only
  rw [hregs]
  split
  · rename_i hblank
    have hdesc : describesState p s = false := decide_eq_false (not_not_intro hblank)
    rw [hdesc]
    rfl
  · rename_i hstate
    have hdesc : describesState p s = true := decide_eq_true hstate
    rw [hdesc]
    rfl

lemma fixedRegs_hypervisor {leaf : UInt32} (h : 0x40000000 ≤ leaf) (subleaf : UInt32) :
    fixedRegs p leaf subleaf = hypervisorRegs leaf := by
  rw [fixedRegs, if_neg, if_neg, if_pos h]
  · rintro rfl
    exact absurd h (by decide)
  · rintro rfl
    exact absurd h (by decide)

lemma adds_hypervisorLeaves (t : Overrides) :
    Adds ((hypervisorLeaves.map fun leaf => (leaf, 0)).map (entry (fixedRegs p))) t
      (populateHypervisorLeaves t) := by
  have h (leaf : UInt32) (hleaf : 0x40000000 ≤ leaf) (t : Overrides) :
      Adds [entry (fixedRegs p) (leaf, 0)] t (t.addOverride leaf 0 (hypervisorRegs leaf)) := by
    rw [← fixedRegs_hypervisor p hleaf 0]
    exact adds_addOverride (fixedRegs p) t leaf 0
  exact ((((((h 0x40000000 (by decide) _).trans (h 0x40000001 (by decide) _)).trans
    (h 0x40000002 (by decide) _)).trans (h 0x40000003 (by decide) _)).trans
    (h 0x40000004 (by decide) _)).trans (h 0x40000005 (by decide) _))

/-- The overrides that do not depend on how many leaves the processor has. -/
lemma adds_fixed : Adds ((fixedKeys p).map (entry (fixedRegs p))) .empty
    (populateHypervisorLeaves (populateLeaf0D p (populateLeaf0B p (populateLeaf07 p
      (populateLeaf04 p (populateLeaf01 p .empty)))))) := by
  have h01 : Adds [entry (fixedRegs p) (1, 0)] .empty (populateLeaf01 p .empty) :=
    adds_addOverride (fixedRegs p) .empty 1 0
  have h07 (t : Overrides) : Adds [entry (fixedRegs p) (7, 0)] t (populateLeaf07 p t) :=
    adds_addOverride (fixedRegs p) t 7 0
  rw [fixedKeys, List.map_append, List.map_append, List.map_append, List.map_append,
    List.map_append]
  exact ((((h01.trans (adds_leaf04 p _)).trans (h07 _)).trans (adds_leaf0B p _)).trans
    (adds_leaf0D p _)).trans (adds_hypervisorLeaves p _)

lemma settles_extendedLeaves (h : (p.asmCpuid 0x80000000).eax ≠ 0xFFFFFFFF) (t : Overrides) :
    ∃ t', Settles (fun fuel => populateExtendedLeaves p fuel t) t' ∧
      Adds ((extendedLeaves p).map fun leaf =>
        entry (fun leaf _ => exposeSvm leaf (p.asmCpuid leaf)) (leaf, 0)) t t' :=
  ⟨_, forUpTo_settles _ h 0x80000000 t, adds_foldl _ (fun leaf => (leaf, 0)) _ t⟩

lemma settles_otherLeaves (h : (p.asmCpuid 0).eax ≠ 0xFFFFFFFF) (t : Overrides) :
    ∃ t', Settles (fun fuel => populateOtherLeaves p (p.asmCpuid 0).eax fuel t) t' ∧
      Adds ((otherLeaves p).map fun leaf => entry (fun leaf _ => p.asmCpuid leaf) (leaf, 0)) t
        t' := by
  refine ⟨_, forUpTo_settles _ h 2 t, ?_⟩
  have hbody (t : Overrides) (leaf : UInt32) :
      (if enumerated leaf then t else t.addOverride leaf 0 (p.asmCpuid leaf)) =
        if !enumerated leaf then t.addOverride leaf 0 (p.asmCpuid leaf) else t := by
    cases enumerated leaf with
    | true => rfl
    | false => rfl
  have hfold := adds_foldl (fun leaf _ => p.asmCpuid leaf) (fun leaf => (leaf, 0)) (otherLeaves p) t
  rw [otherLeaves, List.foldl_filter] at hfold
  simp only [hbody]
  exact hfold

/-- When the loops over the leaves end, the table holds the first of all the overrides. -/
lemma cpuidSpoofInit_settles (hext : (p.asmCpuid 0x80000000).eax ≠ 0xFFFFFFFF)
    (hstd : (p.asmCpuid 0).eax ≠ 0xFFFFFFFF) :
    ∃ t, Settles (cpuidSpoofInit p) t ∧
      t.gCpuidOverrides = (allOverrides p).take maxCpuidOverrides := by
  obtain ⟨t, ht, hadds⟩ := settles_extendedLeaves p hext
    (populateHypervisorLeaves (populateLeaf0D p (populateLeaf0B p (populateLeaf07 p
      (populateLeaf04 p (populateLeaf01 p .empty))))))
  obtain ⟨t', ht', hadds'⟩ := settles_otherLeaves p hstd t
  exact ⟨t', ht.bind ht', ((adds_fixed p).trans hadds).trans hadds'⟩

/-- `CpuidSpoofInit` does not return on a processor with a last leaf of FFFFFFFFh. -/
lemma cpuidSpoofInit_some {fuel : Nat} {t : Overrides} (h : cpuidSpoofInit p fuel = some t) :
    (p.asmCpuid 0x80000000).eax ≠ 0xFFFFFFFF ∧ (p.asmCpuid 0).eax ≠ 0xFFFFFFFF := by
  obtain ⟨t', hext, hstd⟩ := Option.bind_eq_some_iff.mp h
  constructor
  · intro hlast
    rw [populateExtendedLeaves, hlast, forUpTo_diverges] at hext
    cases hext
  · intro hlast
    rw [populateOtherLeaves, hlast, forUpTo_diverges] at hstd
    cases hstd

/-- Once `CpuidSpoofInit` has returned, the table holds the first of all the overrides. -/
lemma cpuidSpoofInit_table {t : Overrides} (h : Settles (cpuidSpoofInit p) t) :
    t.gCpuidOverrides = (allOverrides p).take maxCpuidOverrides := by
  obtain ⟨N, hN⟩ := id h
  obtain ⟨hext, hstd⟩ := cpuidSpoofInit_some p (hN N (Nat.le_refl N))
  obtain ⟨t', ht', htable⟩ := cpuidSpoofInit_settles p hext hstd
  rw [h.unique ht', htable]

end

end Bemi.Cpuid
