import Bemi.Lib.Bits
import Bemi.Lib.MaskRange

/-!
# The SMRR of the trace cache

Model of `SmmHandlerInit` of `hwcompat/smm/smmhandler.c`. `BemiInitHypervisor` passes it the address of a
pool allocation, which is aligned to 8 bytes only, and the size that a 32-bit PCD configures. The
hardware compares bits 31:12 of an address with the base on the bits of the mask.
-/

namespace Bemi.Smm
open MaskRange

/-! ## The handler -/

/-- The fields of `BEMI_SMM_STATE` that are not left zero. -/
structure SmmState where
  magic : UInt64
  traceCacheBase : UInt64
  traceCacheSize : UInt64
  bemiActive : Bool
  deriving DecidableEq

structure SmmStatistics where
  tscFrequency : UInt64
  maxLatencyUs : UInt64
  totalSmiCount : UInt64
  budgetViolations : UInt64
  smrrBase : UInt32
  smrrMask : UInt32
  smrrConfigured : Bool
  deriving DecidableEq

def savedStateMagic : UInt64 := 0x42454D49534D4D00

/-- The mask, with the bits of the memory type. -/
def smrrMask (traceCacheSize : UInt64) : UInt32 :=
  (~~~(traceCacheSize - 1) ||| 0x06).toUInt32

def smmHandlerInit (traceCacheBase traceCacheSize : UInt64) : SmmState × SmmStatistics :=
  let gSmmState : SmmState :=
    { magic := savedStateMagic
      traceCacheBase := traceCacheBase
      traceCacheSize := traceCacheSize
      bemiActive := true }
  let gSmmStats : SmmStatistics :=
    { tscFrequency := 2500000000
      maxLatencyUs := 0
      totalSmiCount := 0
      budgetViolations := 0
      smrrBase := 0
      smrrMask := 0
      smrrConfigured := false }
  if traceCacheBase ≠ 0 ∧ traceCacheSize ≠ 0 then
    (gSmmState, { gSmmStats with
      smrrBase := traceCacheBase.toUInt32
      smrrMask := smrrMask traceCacheSize
      smrrConfigured := true })
  else (gSmmState, gSmmStats)

/-! ## The range protected -/

/-- Bits 31:12. -/
def page (a : UInt32) : BitVec 20 := a.toBitVec.extractLsb' 12 20

/-- The comparison that the hardware makes. -/
def SmmStatistics.Covers (s : SmmStatistics) (a : UInt32) : Prop :=
  page (a &&& s.smrrMask) = page (s.smrrBase &&& s.smrrMask)

/-- The page addresses covered are those from the base on, for as many bytes as the size says. -/
def SmmStatistics.Protects (s : SmmStatistics) (base size : Nat) : Prop :=
  ∀ a : UInt32, 4096 ∣ a.toNat → (s.Covers a ↔ base ≤ a.toNat ∧ a.toNat < base + size)

/-- The pages that so many bytes take. -/
def pages (size : UInt32) : Nat := (size.toNat + 4095) / 4096

lemma toNat_page (a : UInt32) : (page a).toNat = a.toNat / 4096 := by
  have hlt := a.toNat_lt
  rw [page, BitVec.extractLsb'_toNat, Nat.shiftRight_eq_div_pow]
  exact Nat.mod_eq_of_lt (by omega)

lemma page_and (a b : UInt32) : page (a &&& b) = page a &&& page b := by
  rw [page, UInt32.toBitVec_and, BitVec.extractLsb'_and]
  rfl

lemma page_or (a b : UInt32) : page (a ||| b) = page a ||| page b := by
  rw [page, UInt32.toBitVec_or, BitVec.extractLsb'_or]
  rfl

lemma exists_page (q : BitVec 20) : ∃ a : UInt32, a.toNat = 4096 * q.toNat ∧ page a = q := by
  have hlt := q.isLt
  have ha : (UInt32.ofNat (4096 * q.toNat)).toNat = 4096 * q.toNat :=
    UInt32.toNat_ofNat_of_lt' (show 4096 * q.toNat < 2 ^ 32 by omega)
  refine ⟨UInt32.ofNat (4096 * q.toNat), ha, BitVec.eq_of_toNat_eq ?_⟩
  rw [toNat_page, ha]
  exact Nat.mul_div_cancel_left _ (by decide)

/-- The last page of the size, counted from zero. -/
def lastPage (size : UInt32) : BitVec 20 := page (size - 1)

lemma toNat_lastPage {size : UInt32} (h : size ≠ 0) :
    (lastPage size).toNat = (size.toNat - 1) / 4096 := by
  have hle : (1 : UInt32) ≤ size := UInt32.le_iff_toNat_le.mpr (Bits.toNat_pos h)
  rw [lastPage, toNat_page, UInt32.toNat_sub_of_le _ _ hle, UInt32.toNat_one]

lemma lastPage_add_one {size : UInt32} (h : size ≠ 0) : (lastPage size).toNat + 1 = pages size := by
  have hpos := Bits.toNat_pos h
  rw [toNat_lastPage h, pages]
  omega

/-- The mask leaves out the bits of the last page, whatever they are. -/
lemma page_smrrMask (size : UInt32) : page (smrrMask size.toUInt64) = ~~~lastPage size := by
  have hmask : smrrMask size.toUInt64 = ~~~(size - 1) ||| 6 := by
    rw [smrrMask, UInt64.toUInt32_or, UInt64.toUInt32_not, UInt64.toUInt32_sub,
      UInt32.toUInt32_toUInt64]
    rfl
  have hnot : page (~~~(size - 1)) = ~~~page (size - 1) := by
    ext i hi
    simp [page, show 12 + i < 32 by omega]
  rw [hmask, page_or, hnot, lastPage, show page 6 = 0#20 by decide, BitVec.or_zero]

section
variable {base : UInt64} {size : UInt32} (hbase : base ≠ 0) (hsize : size ≠ 0)
include hbase hsize

lemma covers_iff (a : UInt32) :
    (smmHandlerInit base size.toUInt64).2.Covers a ↔
      Matches (~~~lastPage size) (page base.toUInt32) (page a) := by
  have hsize' : size.toUInt64 ≠ 0 := fun h => hsize (UInt32.toUInt64_inj.mp h)
  rw [smmHandlerInit, if_pos ⟨hbase, hsize'⟩, SmmStatistics.Covers, Matches, page_and, page_and,
    page_smrrMask]

/-- What is protected, in page numbers. -/
lemma protects_iff_matches :
    (smmHandlerInit base size.toUInt64).2.Protects base.toNat size.toNat ↔
      ∀ q, Matches (~~~lastPage size) (page base.toUInt32) q ↔
        base.toNat ≤ 4096 * q.toNat ∧ 4096 * q.toNat < base.toNat + size.toNat := by
  constructor
  · intro h q
    obtain ⟨a, ha, rfl⟩ := exists_page q
    rw [← covers_iff hbase hsize, ← ha]
    exact h a ⟨_, ha⟩
  · intro h a ha
    rw [covers_iff hbase hsize, h, toNat_page, Nat.mul_div_cancel' ha]

end

lemma toNat_page_base (base : UInt64) :
    (page base.toUInt32).toNat = base.toNat % 2 ^ 32 / 4096 := by
  rw [toNat_page, UInt64.toNat_toUInt32]

/-- The least page that matches is not above the base, so nothing of the base is lost. -/
lemma base_eq {base : UInt64} {size : UInt32}
    (h : ∀ q, Matches (~~~lastPage size) (page base.toUInt32) q ↔
      base.toNat ≤ 4096 * q.toNat ∧ 4096 * q.toNat < base.toNat + size.toNat) :
    base.toNat = 4096 * (page base.toUInt32).toNat := by
  have hle : (page base.toUInt32 &&& ~~~lastPage size).toNat ≤ (page base.toUInt32).toNat :=
    BitVec.toNat_and .. ▸ Nat.and_le_left
  have hge := ((h _).mp (matches_and_not (lastPage size) (page base.toUInt32))).1
  have hpage := toNat_page_base base
  omega

/-- From a page on, so many bytes are so many pages. -/
lemma bytes_iff_inRange {base : UInt64} {size : UInt32} (hsize : size ≠ 0)
    (h : base.toNat = 4096 * (page base.toUInt32).toNat) (q : BitVec 20) :
    base.toNat ≤ 4096 * q.toNat ∧ 4096 * q.toNat < base.toNat + size.toNat ↔
      InRange (page base.toUInt32) (lastPage size) q := by
  have hpos := Bits.toNat_pos hsize
  rw [InRange, toNat_lastPage hsize, h]
  omega

/-- The range covers exactly the trace cache where that lies below 4 GiB, takes a power of two of pages
and is aligned to as many. -/
theorem protects_iff (base : UInt64) (size : UInt32) (hbase : base ≠ 0) (hsize : size ≠ 0) :
    (smmHandlerInit base size.toUInt64).2.Protects base.toNat size.toNat ↔
      base.toNat < 2 ^ 32 ∧ (pages size).isPowerOfTwo ∧ 4096 * pages size ∣ base.toNat := by
  have hpage := toNat_page_base base
  rw [protects_iff_matches hbase hsize]
  constructor
  · intro h
    have heq := base_eq h
    have hlt := (page base.toUInt32).isLt
    have hrange := fun q => (h q).trans (bytes_iff_inRange hsize heq q)
    obtain ⟨hpow, hdvd⟩ := (matches_inRange_iff _ _).mp hrange
    rw [lastPage_add_one hsize] at hpow hdvd
    refine ⟨by omega, hpow, ?_⟩
    rw [heq]
    exact Nat.mul_dvd_mul_left 4096 hdvd
  · rintro ⟨hlt, hpow, hdvd⟩ q
    have heq : base.toNat = 4096 * (page base.toUInt32).toNat := by
      have := Nat.dvd_trans (Nat.dvd_mul_right ..) hdvd
      omega
    rw [bytes_iff_inRange hsize heq]
    revert q
    rw [matches_inRange_iff, lastPage_add_one hsize]
    rw [heq] at hdvd
    exact ⟨hpow, Nat.dvd_of_mul_dvd_mul_left (by decide) hdvd⟩

/-- Four MiB at an address aligned to four MiB. -/
theorem protects_aligned :
    (smmHandlerInit 0x7E400000 (UInt32.toUInt64 0x400000)).2.Protects 0x7E400000 0x400000 :=
  (protects_iff 0x7E400000 0x400000 (by decide) (by decide)).mpr
    ⟨by decide, ⟨10, by decide⟩, by decide⟩

/-- Four MiB at a pool address: the range starts below it and ends before it. -/
theorem not_protects_pool :
    ¬ (smmHandlerInit 0x7E5F0018 (UInt32.toUInt64 0x400000)).2.Protects 0x7E5F0018 0x400000 := by
  intro h
  have hcovered : (smmHandlerInit 0x7E5F0018 (UInt32.toUInt64 0x400000)).2.Covers 0x7E400000 :=
    show page _ = page _ by decide
  exact absurd ((h 0x7E400000 (by decide)).mp hcovered).1 (by decide)

end Bemi.Smm
