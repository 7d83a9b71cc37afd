import Mathlib.Algebra.GroupWithZero.Nat
import Bemi.Cpuid.Spoof
import Bemi.Lib.Bits

/-!
# Topology detection

Model of `PostDetectTopology` of `bemibiospkg/bemibioscore/post/postroutines.c`. Leaf 0BH gives, at
each level, the logical processors below it: those of a core at the level of type SMT, those of the
package at the level of type Core. Leaf 4 gives one cache per subleaf, up to the first one of type 0.
-/

namespace Bemi.Post
open Bemi.Cpuid Bemi.Vmx Loop

/-! ## The routine -/

/-- The locals that the levels of leaf 0BH set. -/
structure Levels where
  cores : UInt32
  threadsPerCore : UInt32
  deriving DecidableEq

def levelType (c : CpuidRegs) : UInt32 := (c.ecx >>> 8) &&& 0xFF

def levelStep (c : CpuidRegs) (l : Levels) : Levels :=
  if levelType c = 1 then { l with threadsPerCore := c.ebx &&& 0xFFFF }
  else if levelType c = 2 then { l with cores := c.ebx &&& 0xFFFF }
  else l

def cacheType (c : CpuidRegs) : UInt32 := c.eax &&& 0x1F

def ways (c : CpuidRegs) : UInt32 := ((c.ebx >>> 22) &&& 0x3FF) + 1
def partitions (c : CpuidRegs) : UInt32 := ((c.ebx >>> 12) &&& 0x3FF) + 1
def lineSize (c : CpuidRegs) : UInt32 := (c.ebx &&& 0xFFF) + 1
def sets (c : CpuidRegs) : UInt32 := c.ecx + 1

def cacheSize (c : CpuidRegs) : UInt32 :=
  ways c * partitions c * lineSize c * sets c

section
variable (host : Processor)

def detectLevels : Levels :=
  let maxLeaf := (host.asmCpuid 0).eax
  let l : Levels := { cores := 0, threadsPerCore := 1 }
  let l :=
    if 0x0B ≤ maxLeaf then
      [0, 1].foldl (fun l level => levelStep (host.asmCpuidEx 0x0B level) l) l
    else if 1 ≤ maxLeaf then
      let htBits := ((host.asmCpuid 1).ebx >>> 16) &&& 0xFF
      { l with threadsPerCore := htBits }
    else l
  if l.cores = 0 then { l with cores := l.threadsPerCore } else l

/-- Subleaf `k` of leaf 4. -/
def cacheLeaf (k : Nat) : CpuidRegs := host.asmCpuidEx 4 (UInt32.ofNat k)

def cacheStep (cacheLevel : Nat) (cacheSizeL3 : UInt32) : UInt32 × Bool :=
  let c := cacheLeaf host cacheLevel
  if cacheType c = 0 then (cacheSizeL3, false)
  else if cacheType c = 3 then (cacheSize c, true)
  else (cacheSizeL3, true)

def detectCache : UInt32 :=
  if 4 ≤ (host.asmCpuid 0).eax then forBreak (cacheStep host) (List.range 10) 0 else 0

/-- What the routine stores through its two pointers. -/
structure Topology where
  cpuCount : UInt64
  cacheSizes : UInt64
  deriving DecidableEq

def postDetectTopology : Topology :=
  let l := detectLevels host
  { cpuCount := l.cores.toUInt64 * l.threadsPerCore.toUInt64
    cacheSizes := (detectCache host).toUInt64 }

end

/-! ## What the processor reports -/

/-- Level 0 of type SMT with `t` logical processors per core, level 1 of type Core with `p` per
package. -/
structure Reports (host : Processor) (t p : UInt32) : Prop where
  supported : 0x0B ≤ (host.asmCpuid 0).eax
  smt : levelType (host.asmCpuidEx 0x0B 0) = 1
  perCore : (host.asmCpuidEx 0x0B 0).ebx &&& 0xFFFF = t
  core : levelType (host.asmCpuidEx 0x0B 1) = 2
  perPackage : (host.asmCpuidEx 0x0B 1).ebx &&& 0xFFFF = p
  multiple : t.toNat ∣ p.toNat

/-- Cache `k` is the last unified one among the first `n` subleaves. -/
def LastUnified (host : Processor) (n k : Nat) : Prop :=
  IsLast (fun k => cacheType (cacheLeaf host k) = 3) (fun k => cacheType (cacheLeaf host k) ≠ 0) n k

/-- Ways, partitions, line size and sets multiplied without a bound. -/
def cacheBytes (c : CpuidRegs) : Nat :=
  (ways c).toNat * (partitions c).toNat * (lineSize c).toNat * (c.ecx.toNat + 1)

/-- Subleaf numbers have 32 bits. -/
abbrev subleaves : Nat := 2 ^ 32

/-- The logical processors of the package, and the size of the last unified cache where it fits. -/
structure Detects (host : Processor) (p : UInt32) (r : Topology) : Prop where
  count : r.cpuCount.toNat = p.toNat
  cache : ∀ k, LastUnified host subleaves k → cacheBytes (cacheLeaf host k) < 2 ^ 32 →
    r.cacheSizes.toNat = cacheBytes (cacheLeaf host k)

/-! ## The count -/

lemma levelStep_smt {c : CpuidRegs} (h : levelType c = 1) (l : Levels) :
    levelStep c l = { l with threadsPerCore := c.ebx &&& 0xFFFF } :=
  if_pos h

lemma levelStep_core {c : CpuidRegs} (h : levelType c = 2) (l : Levels) :
    levelStep c l = { l with cores := c.ebx &&& 0xFFFF } := by
  rw [levelStep, if_neg (by rw [h]; decide), if_pos h]

section
variable {host : Processor} {t p : UInt32} (h : Reports host t p)
include h

/-- The level of type Core is taken for a number of cores. -/
lemma Reports.detectLevels : detectLevels host = ⟨if p = 0 then t else p, t⟩ := by
  unfold Post.detectLevels
  simp only [if_pos h.supported, List.foldl_cons, List.foldl_nil, levelStep_smt h.smt,
    levelStep_core h.core, h.perCore, h.perPackage]
  split <;> rfl

lemma Reports.perCore_lt : t.toNat < 2 ^ 16 := by
  rw [← h.perCore, UInt32.toNat_and]
  exact Nat.lt_of_le_of_lt Nat.and_le_right (by decide)

lemma Reports.perPackage_lt : p.toNat < 2 ^ 16 := by
  rw [← h.perPackage, UInt32.toNat_and]
  exact Nat.lt_of_le_of_lt Nat.and_le_right (by decide)

lemma Reports.cpuCount :
    (postDetectTopology host).cpuCount.toNat = (if p = 0 then t else p).toNat * t.toNat := by
  have ht := h.perCore_lt
  have hcores : (if p = 0 then t else p).toNat < 2 ^ 16 := by
    split
    · exact ht
    · exact h.perPackage_lt
  have hcount := Nat.mul_lt_mul'' hcores ht
  simp only [postDetectTopology, h.detectLevels, UInt64.toNat_mul, UInt32.toNat_toUInt64]
  exact Nat.mod_eq_of_lt (by omega)

/-- The product is the count where a core has one logical processor. -/
lemma Reports.count_iff :
    (postDetectTopology host).cpuCount.toNat = p.toNat ↔ t = 0 ∨ t = 1 ∧ p ≠ 0 := by
  rw [h.cpuCount]
  by_cases hp : p = 0
  · subst hp
    rw [if_pos rfl, UInt32.toNat_zero, Nat.mul_eq_zero, or_self, ← UInt32.toNat_zero,
      UInt32.toNat_inj]
    exact ⟨.inl, fun h0 => h0.resolve_right fun h1 => h1.2 rfl⟩
  · have hpos := Bits.toNat_pos hp
    have ht : t ≠ 0 := by
      rintro rfl
      exact hp (UInt32.toNat_inj.mp (Nat.zero_dvd.mp h.multiple))
    rw [if_neg hp, Nat.mul_eq_left (Nat.ne_of_gt hpos), ← UInt32.toNat_one, UInt32.toNat_inj]
    exact ⟨fun h1 => .inr ⟨h1, hp⟩, fun h1 => (h1.resolve_left ht).1⟩

end

/-! ## The cache -/

lemma toNat_and_succ_pos (x : UInt32) {m : UInt32} (hm : m.toNat < 2 ^ 12) :
    0 < ((x &&& m) + 1).toNat := by
  have hle : (x &&& m).toNat ≤ m.toNat := UInt32.toNat_and .. ▸ Nat.and_le_right
  rw [UInt32.toNat_add, UInt32.toNat_one]
  omega

lemma cacheBytes_pos (c : CpuidRegs) : 0 < cacheBytes c := by
  have hways : 0 < (ways c).toNat := toNat_and_succ_pos _ (by decide)
  have hpartitions : 0 < (partitions c).toNat := toNat_and_succ_pos _ (by decide)
  have hline : 0 < (lineSize c).toNat := toNat_and_succ_pos _ (by decide)
  exact Nat.mul_pos (Nat.mul_pos (Nat.mul_pos hways hpartitions) hline) c.ecx.toNat.succ_pos

/-- The 32-bit product loses what is above its width. -/
lemma toNat_cacheSize (c : CpuidRegs) : (cacheSize c).toNat = cacheBytes c % 2 ^ 32 := by
  simp only [cacheSize, cacheBytes, sets, UInt32.toNat_mul, UInt32.toNat_add, UInt32.toNat_one,
    Nat.mul_mod_mod, Nat.mod_mul_mod]

section
variable {host : Processor} (hleaf : 4 ≤ (host.asmCpuid 0).eax)
include hleaf

omit hleaf in
lemma cacheStep_eq (cacheLevel : Nat) (cacheSizeL3 : UInt32) :
    cacheStep host cacheLevel cacheSizeL3 =
      (if decide (cacheType (cacheLeaf host cacheLevel) = 3) then
        cacheSize (cacheLeaf host cacheLevel) else cacheSizeL3,
        decide (cacheType (cacheLeaf host cacheLevel) ≠ 0)) := by
  unfold cacheStep
  by_cases h0 : cacheType (cacheLeaf host cacheLevel) = 0
  · simp [h0]
  · by_cases h3 : cacheType (cacheLeaf host cacheLevel) = 3
    · simp [h3]
    · simp [h0, h3]

lemma detectCache_last {k : Nat} (hk : LastUnified host 10 k) :
    detectCache host = cacheSize (cacheLeaf host k) := by
  rw [detectCache, if_pos hleaf]
  apply forBreak_last cacheStep_eq
  simp only [decide_eq_true_eq]
  exact hk

lemma detectCache_none (hnone : ∀ k, ¬ LastUnified host 10 k) : detectCache host = 0 := by
  rw [detectCache, if_pos hleaf]
  apply forBreak_none cacheStep_eq
  simp only [decide_eq_true_eq]
  exact hnone

/-- A size is stored where the last unified cache among ten subleaves has it, in 32 bits. -/
lemma cacheSizes_iff {n : Nat} (hpos : 0 < n) :
    (postDetectTopology host).cacheSizes.toNat = n ↔
      ∃ j, LastUnified host 10 j ∧ cacheBytes (cacheLeaf host j) % 2 ^ 32 = n := by
  rw [postDetectTopology, UInt32.toNat_toUInt64]
  by_cases hsome : ∃ j, LastUnified host 10 j
  · obtain ⟨j, hj⟩ := hsome
    rw [detectCache_last hleaf hj, toNat_cacheSize]
    exact ⟨fun hn => ⟨j, hj, hn⟩, fun ⟨i, hi, hn⟩ => hi.unique hj ▸ hn⟩
  · rw [detectCache_none hleaf fun j hj => hsome ⟨j, hj⟩]
    exact ⟨fun hn => absurd hn (Nat.ne_of_lt hpos), fun ⟨j, hj, _⟩ => absurd ⟨j, hj⟩ hsome⟩

end

/-! ## Detection -/

/-- Detection is right where no core has two logical processors and the ten subleaves read give the
size of the last unified cache: it is among them, or one that is has the same size in 32 bits. -/
theorem detects_iff (host : Processor) (t p : UInt32) (h : Reports host t p) :
    Detects host p (postDetectTopology host) ↔
      (t = 0 ∨ t = 1 ∧ p ≠ 0) ∧
        ∀ k, LastUnified host subleaves k → cacheBytes (cacheLeaf host k) < 2 ^ 32 →
          k < 10 ∨ ∃ j, LastUnified host 10 j ∧
            cacheBytes (cacheLeaf host j) % 2 ^ 32 = cacheBytes (cacheLeaf host k) := by
  have hleaf : 4 ≤ (host.asmCpuid 0).eax := UInt32.le_trans (by decide) h.supported
  have hsize := fun k => cacheSizes_iff hleaf (cacheBytes_pos (cacheLeaf host k))
  constructor
  · rintro ⟨hcount, hcache⟩
    refine ⟨h.count_iff.mp hcount, fun k hk hfits => .inr ?_⟩
    exact (hsize k).mp (hcache k hk hfits)
  · rintro ⟨hcount, hcache⟩
    refine ⟨h.count_iff.mpr hcount, fun k hk hfits => (hsize k).mpr ?_⟩
    rcases hcache k hk hfits with hlt | hj
    · exact ⟨k, hk.of_lt (by decide) hlt, Nat.mod_eq_of_lt hfits⟩
    · exact hj

/-- Leaf 0BH with `t` and `p`, leaf 4 with one cache: unified, of 16 ways and 16384 sets. -/
def reporting (t p : UInt32) : Processor where
  asmMsb32 := id
  asmCpuid _ := ⟨0x0B, 0, 0, 0⟩
  asmCpuidEx leaf subleaf :=
    if leaf = 0x0B then (if subleaf = 0 then ⟨1, t, 0x100, 0⟩ else ⟨2, p, 0x201, 0⟩)
    else if leaf = 4 ∧ subleaf = 0 then ⟨0x63, cacheGeometry, 16383, 0⟩
    else ⟨0, 0, 0, 0⟩

/-- Four processors without SMT and a cache of 16 MiB. -/
theorem detects_four : Detects (reporting 1 4) 4 (postDetectTopology (reporting 1 4)) := by
  have h : Reports (reporting 1 4) 1 4 := by constructor <;> decide
  refine (detects_iff (reporting 1 4) 1 4 h).mpr ⟨.inr (by decide), fun k hk _ => .inl ?_⟩
  by_contra hlt
  exact hk.reached 1 (by omega) (by decide)

/-- With two logical processors per core the eight of the package are counted twice. -/
theorem not_detects_smt :
    Reports (reporting 2 8) 2 8 ∧
      (postDetectTopology (reporting 2 8)).cpuCount = 16 ∧
      ¬ Detects (reporting 2 8) 8 (postDetectTopology (reporting 2 8)) := by
  refine ⟨by constructor <;> decide, by decide, fun h => ?_⟩
  exact absurd h.count (by decide)

end Bemi.Post
