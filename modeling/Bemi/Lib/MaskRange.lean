import Mathlib.Algebra.GroupWithZero.Nat
import Mathlib.Tactic.Common

/-!
# Ranges by a mask

A range register compares a number with a base on the bits of a mask: `Matches`. The numbers that match
are an interval from the base on exactly when the bits that are not compared are the low ones and the
base has none of them.
-/

namespace MaskRange

variable {w : Nat}

/-- `q` is the base on the bits of the mask. -/
def Matches (mask base q : BitVec w) : Prop := q &&& mask = base &&& mask

/-- The interval of `size + 1` numbers from the base on. -/
def InRange (base size q : BitVec w) : Prop :=
  base.toNat ≤ q.toNat ∧ q.toNat ≤ base.toNat + size.toNat

lemma matches_and_not (s c : BitVec w) : Matches (~~~s) c (c &&& ~~~s) := by
  rw [Matches, BitVec.and_assoc, BitVec.and_self]

/-- The bits compared are those that the complement of the mask has not. -/
lemma matches_iff_testBit {s c q : BitVec w} :
    Matches (~~~s) c q ↔
      ∀ i < w, s.toNat.testBit i = false → q.toNat.testBit i = c.toNat.testBit i := by
  rw [Matches, BitVec.eq_of_getLsbD_eq_iff]
  apply forall_congr'
  intro i
  apply forall_congr'
  intro hi
  simp only [BitVec.getLsbD_and, BitVec.getLsbD_not, hi, decide_true, Bool.true_and,
    BitVec.testBit_toNat]
  cases s.getLsbD i with
  | true => simp
  | false => simp

lemma disjoint_of_and_not {s c : BitVec w} (h : c &&& ~~~s = c) : c &&& s = 0#w := by
  rw [← h, BitVec.and_assoc, BitVec.and_comm (~~~s), BitVec.and_not_self]
  exact BitVec.and_zero

/-- A number with all the bits up to its greatest one is one below a power of two. -/
lemma isPowerOfTwo_of_testBit {s : Nat} (h : ∀ i, 2 ^ i ≤ s → s.testBit i = true) :
    (s + 1).isPowerOfTwo := by
  rcases Nat.eq_zero_or_pos s with rfl | hpos
  · exact ⟨0, rfl⟩
  · refine ⟨s.log2 + 1, ?_⟩
    have hall : s = 2 ^ (s.log2 + 1) - 1 := by
      apply Nat.eq_of_testBit_eq
      intro i
      rw [Nat.testBit_two_pow_sub_one]
      by_cases hi : i < s.log2 + 1
      · rw [decide_eq_true hi]
        apply h
        exact Nat.le_trans (Nat.pow_le_pow_right (by decide) (Nat.le_of_lt_succ hi))
          (Nat.log2_self_le (Nat.ne_of_gt hpos))
      · rw [decide_eq_false hi]
        apply Nat.testBit_lt_two_pow
        exact Nat.lt_of_lt_of_le Nat.lt_log2_self
          (Nat.pow_le_pow_right (by decide) (Nat.le_of_not_lt hi))
    have := Nat.two_pow_pos (s.log2 + 1)
    omega

/-- With an interval no bit that is compared lies below the greatest one that is not: adding it to the
base leads to a number of the interval with another bit. -/
lemma testBit_of_inRange {s c : BitVec w} (hdisjoint : c &&& s = 0#w)
    (h : ∀ q, Matches (~~~s) c q ↔ InRange c s q) {i : Nat} (hi : 2 ^ i ≤ s.toNat) :
    s.toNat.testBit i = true := by
  have hsum := BitVec.toNat_add_of_and_eq_zero hdisjoint
  have hlt := (c + s).isLt
  obtain ⟨q, hq⟩ : ∃ q : BitVec w, q.toNat = c.toNat + 2 ^ i :=
    ⟨BitVec.ofNat w (c.toNat + 2 ^ i), by
      rw [BitVec.toNat_ofNat]
      exact Nat.mod_eq_of_lt (by omega)⟩
  have hiw : i < w := (Nat.pow_lt_pow_iff_right (by decide)).mp (Nat.lt_of_le_of_lt hi s.isLt)
  have hmatch := (h q).mpr ⟨hq ▸ Nat.le_add_right .., hq ▸ Nat.add_le_add_left hi _⟩
  cases hs : s.toNat.testBit i with
  | true => rfl
  | false =>
    have hbit := matches_iff_testBit.mp hmatch i hiw hs
    rw [hq, Nat.add_comm, Nat.testBit_two_pow_add_eq] at hbit
    exact ((Bool.not_eq_self _).mp hbit).elim

/-- Where the low bits are not compared, a match is an equal quotient. -/
lemma matches_iff_div {s c q : BitVec w} {k : Nat} (hs : s.toNat + 1 = 2 ^ k) :
    Matches (~~~s) c q ↔ q.toNat / 2 ^ k = c.toNat / 2 ^ k := by
  rw [matches_iff_testBit, Nat.eq_sub_of_add_eq hs]
  constructor
  · intro h
    apply Nat.eq_of_testBit_eq
    intro i
    rw [Nat.testBit_div_two_pow, Nat.testBit_div_two_pow]
    by_cases hi : i + k < w
    · apply h _ hi
      rw [Nat.testBit_two_pow_sub_one]
      exact decide_eq_false (by omega)
    · rw [BitVec.testBit_toNat, BitVec.testBit_toNat, BitVec.getLsbD_of_ge _ _ (by omega),
        BitVec.getLsbD_of_ge _ _ (by omega)]
  · intro h i _ hlow
    rw [Nat.testBit_two_pow_sub_one, decide_eq_false_iff_not, Nat.not_lt] at hlow
    have hbit := congrArg (·.testBit (i - k)) h
    simpa only [Nat.testBit_div_two_pow, Nat.sub_add_cancel hlow] using hbit

/-- The numbers that match are an interval from the base on exactly where the bits that are not compared
are the low ones and the base is aligned to them. -/
theorem matches_inRange_iff (s c : BitVec w) :
    (∀ q, Matches (~~~s) c q ↔ InRange c s q) ↔
      (s.toNat + 1).isPowerOfTwo ∧ s.toNat + 1 ∣ c.toNat := by
  constructor
  · intro h
    have hle : (c &&& ~~~s).toNat ≤ c.toNat := BitVec.toNat_and .. ▸ Nat.and_le_left
    have hge := ((h _).mp (matches_and_not s c)).1
    have hdisjoint := disjoint_of_and_not (BitVec.eq_of_toNat_eq (Nat.le_antisymm hle hge))
    have hpow := isPowerOfTwo_of_testBit fun i hi => testBit_of_inRange hdisjoint h hi
    refine ⟨hpow, ?_⟩
    obtain ⟨k, hk⟩ := hpow
    rw [hk]
    apply Nat.dvd_of_mod_eq_zero
    rw [← Nat.and_two_pow_sub_one_eq_mod, ← hk, Nat.add_sub_cancel, ← BitVec.toNat_and, hdisjoint,
      BitVec.toNat_ofNat, Nat.zero_mod]
  · rintro ⟨⟨k, hk⟩, d, hd⟩ q
    rw [matches_iff_div hk, InRange, hd, hk, Nat.mul_div_cancel_left d (Nat.two_pow_pos k),
      Nat.div_eq_iff (Nat.two_pow_pos k), Nat.mul_comm d]
    omega

end MaskRange
