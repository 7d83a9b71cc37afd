import Mathlib.Tactic.Common
import Mathlib.Algebra.GroupWithZero.Nat
import Mathlib.Data.Nat.Bitwise

/-!
# Bits of machine words

Setting and clearing one bit of a 32-bit word, and the words that have a bit set. Masks and halves of
64-bit words.
-/

namespace Bits

lemma toNat_bit {b : UInt32} (h : b.toNat < 32) : ((1 : UInt32) <<< b).toNat = 2 ^ b.toNat := by
  rw [UInt32.toNat_shiftLeft, Nat.mod_eq_of_lt h, Nat.shiftLeft_eq, UInt32.toNat_one, Nat.one_mul]
  exact Nat.mod_eq_of_lt (Nat.pow_lt_pow_right (by decide) h)

/-- There is no bit beyond the word. -/
lemma lt_of_testBit {x : UInt32} {j : Nat} (h : x.toNat.testBit j = true) : j < 32 := by
  by_contra hj
  have hx : x.toNat < 2 ^ j :=
    Nat.lt_of_lt_of_le x.toNat_lt (Nat.pow_le_pow_right (by decide) (Nat.le_of_not_lt hj))
  rw [Nat.testBit_lt_two_pow hx] at h
  cases h

/-- Setting a bit. -/
lemma testBit_set (x : UInt32) {b : UInt32} (h : b.toNat < 32) (j : Nat) :
    (x ||| (1 <<< b)).toNat.testBit j = (x.toNat.testBit j || decide (b.toNat = j)) := by
  rw [UInt32.toNat_or, Nat.testBit_or, toNat_bit h, Nat.testBit_two_pow]

/-- Clearing a bit. -/
lemma testBit_clear (x : UInt32) {b : UInt32} (h : b.toNat < 32) (j : Nat) :
    (x &&& ~~~(1 <<< b)).toNat.testBit j = (x.toNat.testBit j && !decide (b.toNat = j)) := by
  have mask : (~~~((1 : UInt32) <<< b)).toNat = 2 ^ 32 - (2 ^ b.toNat + 1) := by
    rw [UInt32.toNat_not, toNat_bit h]
    change 2 ^ 32 - 1 - _ = _
    omega
  rw [UInt32.toNat_and, Nat.testBit_and, mask,
    Nat.testBit_two_pow_sub_succ (Nat.pow_lt_pow_right (by decide) h), Nat.testBit_two_pow]
  cases hx : x.toNat.testBit j with
  | false => rfl
  | true => rw [decide_eq_true (lt_of_testBit hx), Bool.true_and]

/-- A word is zero when it has no bit set. -/
lemma eq_zero_iff (x : UInt32) : x = 0 ↔ ∀ j, x.toNat.testBit j = false := by
  constructor
  · rintro rfl j
    exact Nat.zero_testBit j
  · intro h
    exact UInt32.toNat_inj.mp (Nat.zero_of_testBit_eq_false h)

lemma toNat_pos {x : UInt32} (h : x ≠ 0) : 0 < x.toNat :=
  Nat.pos_of_ne_zero fun h0 => h (UInt32.toNat_inj.mp h0)

lemma and_or_right (x y m : UInt32) : (x ||| y) &&& m = (x &&& m) ||| (y &&& m) :=
  UInt32.toBitVec_inj.mp BitVec.and_or_distrib_right

/-- Clearing some bits leaves a word as it is exactly when it has none of them. -/
lemma and_not_eq_self_iff {x m : UInt32} : x &&& ~~~m = x ↔ x &&& m = 0 := by
  constructor
  · intro h
    rw [← h, UInt32.and_assoc, UInt32.not_and_self, UInt32.and_zero]
  · intro h
    calc x &&& ~~~m = (~~~m &&& x) ||| (m &&& x) := by
          rw [UInt32.and_comm m, h, UInt32.or_zero, UInt32.and_comm]
      _ = (~~~m ||| m) &&& x := (and_or_right _ _ _).symm
      _ = x := by
          rw [UInt32.not_or_self]
          exact UInt32.neg_one_and

/-- Bits that have been set are all there. -/
lemma or_and_self (x m : UInt32) : (x ||| m) &&& m = m :=
  calc (x ||| m) &&& m = (x &&& m) ||| (-1 &&& m) := by
        rw [and_or_right, UInt32.and_self, UInt32.neg_one_and]
    _ = (x ||| -1) &&& m := (and_or_right _ _ _).symm
    _ = m := by
        rw [UInt32.or_neg_one]
        exact UInt32.neg_one_and

/-! ## Words of 64 bits -/

lemma and_or_right_64 (x y m : UInt64) : (x ||| y) &&& m = (x &&& m) ||| (y &&& m) :=
  UInt64.toBitVec_inj.mp BitVec.and_or_distrib_right

/-- The low bits of a word. -/
lemma toNat_and_mask (x : UInt64) {m : UInt64} {k : Nat} (hm : m.toNat = 2 ^ k - 1) :
    (x &&& m).toNat = x.toNat % 2 ^ k := by
  rw [UInt64.toNat_and, hm, Nat.and_two_pow_sub_one_eq_mod]

lemma and_mask_eq_self {x m : UInt64} {k : Nat} (hm : m.toNat = 2 ^ k - 1) (hx : x.toNat < 2 ^ k) :
    x &&& m = x := by
  apply UInt64.toNat_inj.mp
  rw [toNat_and_mask x hm, Nat.mod_eq_of_lt hx]

lemma byte_and (b : UInt8) : b.toUInt64 &&& 0xFF = b.toUInt64 := by
  apply and_mask_eq_self (k := 8) rfl
  rw [UInt8.toNat_toUInt64]
  exact b.toNat_lt

lemma word_and (w : UInt16) : w.toUInt64 &&& 0xFFFF = w.toUInt64 := by
  apply and_mask_eq_self (k := 16) rfl
  rw [UInt16.toNat_toUInt64]
  exact w.toNat_lt

lemma dword_and (v : UInt32) : v.toUInt64 &&& 0xFFFFFFFF = v.toUInt64 := by
  apply and_mask_eq_self (k := 32) rfl
  rw [UInt32.toNat_toUInt64]
  exact v.toNat_lt

/-- A new low half. -/
def setLow (x : UInt64) (v : UInt32) : UInt64 := (x &&& ~~~(0xFFFFFFFF : UInt64)) ||| v.toUInt64

lemma toUInt32_toUInt64 (x : UInt64) : x.toUInt32.toUInt64 = x &&& 0xFFFFFFFF := by
  apply UInt64.toNat_inj.mp
  rw [toNat_and_mask (k := 32) x rfl, UInt32.toNat_toUInt64, UInt64.toNat_toUInt32]

lemma toUInt32_setLow (x : UInt64) (v : UInt32) : (setLow x v).toUInt32 = v := by
  rw [setLow, UInt64.toUInt32_or, UInt64.toUInt32_and, UInt32.toUInt32_toUInt64]
  exact (congrArg (· ||| v) UInt32.and_zero).trans UInt32.zero_or

lemma setLow_self (x : UInt64) : setLow x x.toUInt32 = x := by
  rw [setLow, toUInt32_toUInt64, UInt64.and_comm, UInt64.and_comm x, ← and_or_right_64,
    UInt64.not_or_self]
  exact UInt64.neg_one_and

/-- What the low half was replaced by can be told from the word. -/
lemma setLow_eq_iff {x : UInt64} {v w : UInt32} : setLow x v = setLow x w ↔ v = w := by
  constructor
  · intro h
    rw [← toUInt32_setLow x v, h, toUInt32_setLow]
  · rintro rfl
    rfl

lemma eq_setLow_iff {x : UInt64} {v : UInt32} : x = setLow x v ↔ x.toUInt32 = v := by
  rw [← setLow_eq_iff (x := x), setLow_self]

end Bits
