import Bemi.Lib.Bits
import Mathlib.Tactic.Common
import Mathlib.Algebra.GroupWithZero.Nat
import Mathlib.Algebra.Order.Ring.Int

/-!
# Shifts that change nothing

When a 64-bit word is its own shift by a count below 64: the count is 0, or the word consists of
copies of the bit that is shifted in.
-/

namespace Shift

/-- The arithmetic right shift. -/
def sar (a : UInt64) (count : Nat) : UInt64 :=
  ⟨a.toBitVec.sshiftRight count⟩

/-- A masked count is the count modulo 64. -/
lemma toNat_and_63 (c : UInt64) : (c &&& 63).toNat = c.toNat % 64 :=
  Bits.toNat_and_mask (k := 6) c rfl

lemma and_63_lt (c : UInt64) : (c &&& 63).toNat < 64 := by
  rw [toNat_and_63]
  exact Nat.mod_lt _ (by decide)

/-- A bound on a masked count never applies. -/
lemma not_and_63_ge (c : UInt64) : ¬ c &&& 63 ≥ 64 := by
  rw [ge_iff_le, UInt64.le_iff_toNat_le]
  exact Nat.not_le_of_lt (and_63_lt c)

/-- Masking a count twice is masking it once. -/
lemma and_255_63 (c : UInt64) : (c &&& 0xFF) &&& 63 = c &&& 63 := by
  rw [UInt64.and_assoc]
  rfl

/-- The 64-bit arithmetic shift of signed words. -/
lemma toUInt64_shiftRight (a : UInt64) {c : UInt64} (h : c.toNat < 64) :
    (a.toInt64 >>> c.toInt64).toUInt64 = sar a c.toNat := by
  have small : ∀ k : Fin 64, ((BitVec.ofNat 64 k).smod 64).toNat = k := by decide
  have hc : (c.toInt64.toBitVec.smod 64).toNat = c.toNat := by
    have hk := small ⟨c.toNat, h⟩
    rwa [show BitVec.ofNat 64 c.toNat = c.toInt64.toBitVec from BitVec.eq_of_toNat_eq (by
      rw [BitVec.toNat_ofNat, Nat.mod_eq_of_lt c.toNat_lt]; rfl)] at hk
  apply UInt64.toBitVec_inj.mp
  rw [Int64.toBitVec_toUInt64, Int64.toBitVec_shiftRight, BitVec.sshiftRight', hc]
  rfl

lemma mul_pow_mod_eq_self {a k : Nat} (ha : a < 2 ^ 64) (hk : k ≠ 0)
    (h : a * 2 ^ k % 2 ^ 64 = a) : a = 0 := by
  have hpos : 1 ≤ 2 ^ k := Nat.one_le_two_pow
  have hdvd : 2 ^ 64 ∣ a * (2 ^ k - 1) := by
    rw [Nat.mul_sub_one]
    exact Nat.dvd_of_mod_eq_zero (Nat.sub_mod_eq_zero_of_mod_eq
      (h.trans (Nat.mod_eq_of_lt ha).symm))
  have hodd : Nat.Coprime (2 ^ 64) (2 ^ k - 1) := by
    have hmod : (2 ^ k - 1) % 2 = 1 := by
      obtain ⟨j, rfl⟩ := Nat.exists_eq_succ_of_ne_zero hk
      rw [Nat.pow_succ] at hpos ⊢
      omega
    apply Nat.Coprime.pow_left
    rw [Nat.Coprime, Nat.gcd_rec, hmod, Nat.gcd_one_left]
  exact Nat.eq_zero_of_dvd_of_lt (hodd.dvd_of_dvd_mul_right hdvd) ha

theorem shiftLeft_eq_self_iff (a c : UInt64) : a <<< (c &&& 63) = a ↔ c &&& 63 = 0 ∨ a = 0 := by
  have hlt := and_63_lt c
  constructor
  · intro h
    by_cases hc : c &&& 63 = 0
    · exact .inl hc
    · right
      have hk : (c &&& 63).toNat ≠ 0 := fun h0 => hc (UInt64.toNat_inj.mp h0)
      apply UInt64.toNat_inj.mp
      apply mul_pow_mod_eq_self a.toNat_lt hk
      have := congrArg UInt64.toNat h
      rwa [UInt64.toNat_shiftLeft, Nat.mod_eq_of_lt hlt, Nat.shiftLeft_eq] at this
  · rintro (h | rfl)
    · simp [h]
    · simp

theorem shiftRight_eq_self_iff (a c : UInt64) : a >>> (c &&& 63) = a ↔ c &&& 63 = 0 ∨ a = 0 := by
  have hlt := and_63_lt c
  constructor
  · intro h
    by_cases hc : c &&& 63 = 0
    · exact .inl hc
    · right
      have hk : 1 < 2 ^ (c &&& 63).toNat :=
        Nat.one_lt_two_pow fun h0 => hc (UInt64.toNat_inj.mp h0)
      have hdiv := congrArg UInt64.toNat h
      rw [UInt64.toNat_shiftRight, Nat.mod_eq_of_lt hlt, Nat.shiftRight_eq_div_pow] at hdiv
      apply UInt64.toNat_inj.mp
      by_contra hne
      exact Nat.ne_of_lt (Nat.div_lt_self (Nat.pos_of_ne_zero hne) hk) hdiv
  · rintro (h | rfl)
    · simp [h]
    · simp

lemma ediv_eq_self {z m : Int} (hm : 1 < m) (h : z / m = z) : z = 0 ∨ z = -1 := by
  have hdiv := Int.mul_ediv_add_emod z m
  rw [h] at hdiv
  have hlow := Int.emod_nonneg z (show m ≠ 0 by omega)
  have hhigh := Int.emod_lt_of_pos z (show 0 < m by omega)
  rcases Int.lt_trichotomy z 0 with hz | hz | hz
  · right
    by_contra hne
    have := Int.mul_le_mul_of_nonneg_left (show z ≤ -2 by omega) (show 0 ≤ m - 1 by omega)
    grind
  · exact .inl hz
  · have := Int.mul_pos (show 0 < m - 1 by omega) hz
    grind

theorem sar_eq_self_iff (a : UInt64) (k : Nat) : sar a k = a ↔ k = 0 ∨ a = 0 ∨ a = -1 := by
  constructor
  · intro h
    by_cases hk : k = 0
    · exact .inl hk
    · right
      have hdiv := congrArg (fun x => x.toBitVec.toInt) h
      dsimp only [sar] at hdiv
      rw [BitVec.toInt_sshiftRight, Int.shiftRight_eq_div_pow] at hdiv
      have hm : (1 : Int) < ((2 ^ k : Nat) : Int) := Int.ofNat_lt.mpr (Nat.one_lt_two_pow hk)
      obtain hz | hz := ediv_eq_self hm hdiv
      · exact .inl (UInt64.toBitVec_inj.mp (BitVec.eq_of_toInt_eq hz))
      · exact .inr (UInt64.toBitVec_inj.mp (BitVec.eq_of_toInt_eq hz))
  · have word (x : UInt64) (hx : ((x.toBitVec.toInt) >>> k) = x.toBitVec.toInt) : sar x k = x :=
      UInt64.toBitVec_inj.mp (BitVec.eq_of_toInt_eq (BitVec.toInt_sshiftRight.trans hx))
    rintro (rfl | rfl | rfl)
    · exact word a (Int.shiftRight_zero _)
    · exact word 0 (Int.zero_shiftRight k)
    · refine word (-1) ?_
      change Int.negSucc (0 >>> k) = -1
      rw [Nat.zero_shiftRight]
      rfl

end Shift
