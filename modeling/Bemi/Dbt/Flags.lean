import Mathlib.Algebra.Order.Ring.Int
import Mathlib.Data.Nat.Bitwise
import Bemi.Dbt.Executor

/-!
# Flags of additions and subtractions

What `update_flags_arith` leaves in the flags register, as four truth values, and what `JccRel` makes
of them. The lemmas about CF and OF say what the comparisons and the bit trick of the source come to
for the numbers that the operands stand for.
-/

namespace Bemi.Dbt

/-- A flags word with CF (bit 0), ZF (6), SF (7) and OF (11). -/
def flagsWord (cf zf sf of : Bool) : BemiWord :=
  let flags : BemiWord := 0
  let flags := if zf then flags ||| 0x40 else flags
  let flags := if sf then flags ||| 0x80 else flags
  let flags := if cf then flags ||| 0x01 else flags
  if of then flags ||| 0x0800 else flags

/-- The carry of an addition, the borrow of a subtraction. -/
def carryOf (a b : BemiWord) (isSub : Bool) : Bool :=
  if isSub then a < b else (0xFFFFFFFFFFFFFFFF - a) < b

/-- The overflow bit: the signs of the operands and of the result. -/
def overflowOf (result a b : BemiWord) (isSub : Bool) : BemiWord :=
  if isSub then ((a ^^^ b) &&& (a ^^^ result)) >>> 63
  else ((a ^^^ result) &&& (b ^^^ result)) >>> 63

lemma getFlags_setFlags (rf : RegisterFile) (flags : BemiWord) :
    (rf.setFlags flags).getFlags = flags :=
  RegisterFile.read_write_self rf flags (by decide)

lemma getFlags_updateFlagsArith (rf : RegisterFile) (result a b : BemiWord) (isSub : Bool) :
    (rf.updateFlagsArith result a b isSub).getFlags =
      flagsWord (carryOf a b isSub) (result = 0) (result &&& ((1 : BemiWord) <<< 63) ≠ 0)
        (overflowOf result a b isSub ≠ 0) := by
  rw [RegisterFile.updateFlagsArith, getFlags_setFlags]
  simp only [flagsWord, decide_eq_true_eq]
  rfl

/-- The carry flag is the lowest bit. -/
lemma flagsWord_and_one (cf zf sf of : Bool) :
    flagsWord cf zf sf of &&& 0x01 = if cf then 1 else 0 := by
  cases cf <;> cases zf <;> cases sf <;> cases of <;> rfl

/-- The condition with a code on the four flags. -/
def conditionHolds (cf zf sf of : Bool) : Nat → Bool
  | 0x0 => of
  | 0x1 => !of
  | 0x2 => cf
  | 0x3 => !cf
  | 0x4 => zf
  | 0x5 => !zf
  | 0x6 => cf || zf
  | 0x7 => !cf && !zf
  | 0x8 => sf
  | 0x9 => !sf
  | 0xC => sf != of
  | 0xD => sf == of
  | 0xE => zf || sf != of
  | 0xF => !zf && sf == of
  | _ => false

lemma jccTaken_flagsWord (cf zf sf of : Bool) (condition : UInt8) :
    jccTaken (flagsWord cf zf sf of) condition = conditionHolds cf zf sf of condition.toNat := by
  unfold jccTaken
  generalize condition.toNat = n
  match n with
  | 0 | 1 | 2 | 3 | 4 | 5 | 6 | 7 | 8 | 9 | 10 | 11 | 12 | 13 | 14 | 15 =>
    cases cf <;> cases zf <;> cases sf <;> cases of <;> rfl
  | n + 16 => rfl

/-! ## What the flags say about numbers -/

/-- The sign bit. -/
def topBit (x : BemiWord) : Bool := x.toNat.testBit 63

lemma topBit_iff (x : BemiWord) : topBit x = true ↔ 2 ^ 63 ≤ x.toNat := by
  have hlt := x.toNat_lt
  rw [topBit, Nat.testBit_eq_decide_div_mod_eq, decide_eq_true_eq]
  omega

/-- The test of the source for SF. -/
lemma decide_and_top (x : BemiWord) : decide (x &&& ((1 : BemiWord) <<< 63) ≠ 0) = topBit x := by
  have hmask : (x &&& ((1 : BemiWord) <<< 63)).toNat = (topBit x).toNat * 2 ^ 63 := by
    have hone : ((1 : BemiWord) <<< 63).toNat = 2 ^ 63 := rfl
    rw [UInt64.toNat_and, hone, topBit, Nat.and_two_pow]
  rw [Bool.eq_iff_iff, decide_eq_true_eq, ne_eq, ← UInt64.toNat_inj, hmask]
  cases topBit x <;> simp

lemma shiftRight_top_iff (x : BemiWord) : x >>> 63 ≠ 0 ↔ topBit x = true := by
  have hlt := x.toNat_lt
  have hshift : (x >>> 63).toNat = x.toNat / 2 ^ 63 := by
    rw [UInt64.toNat_shiftRight, Nat.shiftRight_eq_div_pow]
    rfl
  rw [ne_eq, ← UInt64.toNat_inj, hshift, topBit_iff]
  change ¬ _ = 0 ↔ _
  omega

lemma topBit_xor (x y : BemiWord) : topBit (x ^^^ y) = (topBit x ^^ topBit y) := by
  rw [topBit, UInt64.toNat_xor, Nat.testBit_xor]
  rfl

lemma topBit_and (x y : BemiWord) : topBit (x &&& y) = (topBit x && topBit y) := by
  rw [topBit, UInt64.toNat_and, Nat.testBit_and]
  rfl

/-- The signed value of a word, by its sign bit. -/
lemma sign_cases (x : BemiWord) :
    (topBit x = true ∧ 2 ^ 63 ≤ x.toNat ∧ x.toInt64.toInt = (x.toNat : Int) - 2 ^ 64) ∨
      (topBit x = false ∧ x.toNat < 2 ^ 63 ∧ x.toInt64.toInt = (x.toNat : Int)) := by
  have hlt := x.toNat_lt
  have hint : x.toInt64.toInt =
      if 2 * x.toNat < 2 ^ 64 then (x.toNat : Int) else x.toNat - ((2 ^ 64 : Nat) : Int) :=
    BitVec.toInt_eq_toNat_cond x.toBitVec
  cases htop : topBit x with
  | true =>
    have hx := (topBit_iff x).mp htop
    rw [if_neg (by omega)] at hint
    exact .inl ⟨rfl, hx, hint⟩
  | false =>
    have hx : ¬ 2 ^ 63 ≤ x.toNat := fun h => by simp [(topBit_iff x).mpr h] at htop
    rw [if_pos (by omega)] at hint
    exact .inr ⟨rfl, by omega, hint⟩

/-- An addition carries when the sum does not fit. -/
lemma carryOf_add (a b : BemiWord) : carryOf a b false = true ↔ 2 ^ 64 ≤ a.toNat + b.toNat := by
  have ha := a.toNat_lt
  have hb := b.toNat_lt
  have hmax : (0xFFFFFFFFFFFFFFFF - a).toNat = 2 ^ 64 - 1 - a.toNat := by
    have hword : (0xFFFFFFFFFFFFFFFF : BemiWord).toNat = 2 ^ 64 - 1 := rfl
    rw [UInt64.toNat_sub, hword]
    omega
  rw [carryOf, if_neg (by decide), decide_eq_true_eq, UInt64.lt_iff_toNat_lt, hmax]
  omega

lemma carryOf_sub (a b : BemiWord) : carryOf a b true = true ↔ a < b := by
  rw [carryOf, if_pos rfl, decide_eq_true_eq]

/-- A difference is zero when the operands are equal. -/
lemma sub_eq_zero_iff (a b : BemiWord) : a - b = 0 ↔ a = b := by
  rw [UInt64.sub_eq_iff_eq_add, UInt64.zero_add]

/-- The difference, without `%`. -/
lemma toNat_sub_cases (a b : BemiWord) :
    b.toNat ≤ a.toNat ∧ (a - b).toNat = a.toNat - b.toNat ∨
      a.toNat < b.toNat ∧ (a - b).toNat = 2 ^ 64 + a.toNat - b.toNat := by
  have ha := a.toNat_lt
  have hb := b.toNat_lt
  rw [UInt64.toNat_sub]
  omega

/-- The difference of the signed operands fits 64 bits. -/
def SubFits (a b : BemiWord) : Prop :=
  -2 ^ 63 ≤ a.toInt64.toInt - b.toInt64.toInt ∧ a.toInt64.toInt - b.toInt64.toInt < 2 ^ 63

instance (a b : BemiWord) : Decidable (SubFits a b) :=
  inferInstanceAs (Decidable (_ ∧ _))

/-- A subtraction overflows when the difference does not fit. -/
lemma overflowOf_sub (a b : BemiWord) : overflowOf (a - b) a b true ≠ 0 ↔ ¬ SubFits a b := by
  have ha := a.toNat_lt
  have hb := b.toNat_lt
  have hsub := toNat_sub_cases a b
  rw [overflowOf, if_pos rfl, shiftRight_top_iff, topBit_and, topBit_xor, topBit_xor, SubFits]
  obtain ⟨ta, na, ia⟩ | ⟨ta, na, ia⟩ := sign_cases a <;>
    obtain ⟨tb, nb, ib⟩ | ⟨tb, nb, ib⟩ := sign_cases b <;>
      obtain ⟨tr, nr, -⟩ | ⟨tr, nr, -⟩ := sign_cases (a - b) <;>
        rw [ta, tb, tr, ia, ib] <;>
          first
            | exact iff_of_true rfl (by omega)
            | exact iff_of_false (by decide) (by omega)

/-- The sign bit of a difference orders the signed operands when the difference fits, and the other
way round when it does not. -/
lemma topBit_sub_iff (a b : BemiWord) :
    topBit (a - b) = true ↔ (a.toInt64 < b.toInt64 ↔ SubFits a b) := by
  have ha := a.toNat_lt
  have hb := b.toNat_lt
  have hsub := toNat_sub_cases a b
  rw [Int64.lt_iff_toInt_lt, SubFits]
  obtain ⟨-, na, ia⟩ | ⟨-, na, ia⟩ := sign_cases a <;>
    obtain ⟨-, nb, ib⟩ | ⟨-, nb, ib⟩ := sign_cases b <;>
      obtain ⟨tr, nr, -⟩ | ⟨tr, nr, -⟩ := sign_cases (a - b) <;>
        rw [tr, ia, ib] <;>
          first
            | exact iff_of_true rfl (by omega)
            | exact iff_of_false (by decide) (by omega)

/-- The sign bit and the overflow together order the signed operands. -/
lemma sign_ne_overflow_iff (a b : BemiWord) :
    (topBit (a - b) ≠ decide (overflowOf (a - b) a b true ≠ 0)) ↔ a.toInt64 < b.toInt64 := by
  have htop := topBit_sub_iff a b
  rw [decide_eq_decide.mpr (overflowOf_sub a b)]
  by_cases hfit : SubFits a b
  · rw [decide_eq_false (not_not.mpr hfit), ne_eq, Bool.not_eq_false, htop]
    exact iff_true_right hfit
  · rw [decide_eq_true hfit, ne_eq, htop]
    exact (not_congr (iff_false_right hfit)).trans not_not

end Bemi.Dbt
