import Mathlib.Tactic.Common
import Mathlib.Algebra.GroupWithZero.Nat
import Mathlib.Algebra.Order.Ring.Int
import Mathlib.Algebra.Order.Group.Abs

/-!
# Truncating division with a bounded quotient

`D = q * d + r` when the quotient is kept modulo a bound: it holds exactly when nothing is cut off,
and whether it is can be read off `D` and `d`. Unsigned numbers first, then signed ones, whose
quotients are rounded towards zero.
-/

namespace Division

/-- A quotient that is cut off is right exactly when nothing is cut off. -/
lemma div_mod_exact_iff {D d B : ℕ} (hd : 0 < d) (hB : 0 < B) :
    D = D / d % B * d + D % d ↔ D < B * d := by
  have hdiv : D / d * d + D % d = D := by
    rw [Nat.mul_comm]
    exact Nat.div_add_mod D d
  rw [← Nat.div_lt_iff_lt_mul hd]
  constructor
  · intro h
    have hquot : D / d % B = D / d := by
      apply Nat.eq_of_mul_eq_mul_right hd
      omega
    exact hquot ▸ Nat.mod_lt _ hB
  · intro h
    rw [Nat.mod_eq_of_lt h, hdiv]

/-- The quotient of `D` by `d`, rounded towards zero, lies in `[-m, m)`. -/
def Fits (m D d : ℤ) : Prop :=
  -((m + 1) * |d|) < D * d.sign ∧ D * d.sign < m * |d|

instance (m D d : ℤ) : Decidable (Fits m D d) :=
  inferInstanceAs (Decidable (_ ∧ _))

lemma tdiv_range_of_pos {m D d : ℤ} (hm : 0 < m) (hd : 0 < d) :
    (-m ≤ D.tdiv d ∧ D.tdiv d < m) ↔ -((m + 1) * d) < D ∧ D < m * d := by
  have hmd : 0 < m * d := Int.mul_pos hm hd
  have hmd' : 0 < (m + 1) * d := Int.mul_pos (by omega) hd
  obtain hD | hD := Int.le_total 0 D
  · have hpos : 0 ≤ D.tdiv d := Int.tdiv_nonneg hD (Int.le_of_lt hd)
    rw [Int.tdiv_eq_ediv_of_nonneg hD] at hpos ⊢
    rw [Int.ediv_lt_iff_lt_mul hd]
    omega
  · have hpos : 0 ≤ (-D).tdiv d := Int.tdiv_nonneg (by omega) (Int.le_of_lt hd)
    have hneg : D.tdiv d = -((-D) / d) := by
      rw [← Int.tdiv_eq_ediv_of_nonneg (by omega), Int.neg_tdiv, Int.neg_neg]
    rw [Int.tdiv_eq_ediv_of_nonneg (by omega)] at hpos
    have hlt : -D / d < m + 1 ↔ -D < (m + 1) * d := Int.ediv_lt_iff_lt_mul hd
    rw [hneg]
    omega

/-- The range of the quotient, without dividing. -/
lemma tdiv_range_iff {m D d : ℤ} (hm : 0 < m) (hd : d ≠ 0) :
    (-m ≤ D.tdiv d ∧ D.tdiv d < m) ↔ Fits m D d := by
  obtain hneg | hpos := Int.lt_or_gt_of_ne hd
  · have h := tdiv_range_of_pos (D := -D) hm (Int.neg_pos_of_neg hneg)
    rw [Int.neg_tdiv_neg] at h
    rw [h, Fits, abs_of_neg hneg, Int.sign_eq_neg_one_of_neg hneg, Int.mul_neg_one]
  · rw [tdiv_range_of_pos hm hpos, Fits, abs_of_pos hpos, Int.sign_eq_one_of_pos hpos, Int.mul_one]

/-- With the right remainder, only the right quotient gives back the dividend. -/
lemma eq_tdiv_iff {D d : ℤ} (hd : d ≠ 0) (q : ℤ) : D = q * d + D.tmod d ↔ q = D.tdiv d := by
  have hdiv := Int.tdiv_mul_add_tmod D d
  constructor
  · intro h
    apply Int.eq_of_mul_eq_mul_right hd
    omega
  · intro h
    rw [h, hdiv]

lemma abs_tmod_lt (D : ℤ) {d : ℤ} (hd : d ≠ 0) : |D.tmod d| < |d| := by
  rw [Int.abs_eq_natAbs, Int.abs_eq_natAbs, Int.natAbs_tmod]
  exact_mod_cast Nat.mod_lt _ (Int.natAbs_pos.mpr hd)

/-- The remainder is zero or has the sign of the dividend. -/
lemma tmod_sign (D d : ℤ) : D.tmod d = 0 ∨ (D.tmod d).sign = D.sign := by
  rw [← Int.sign_eq_zero_iff_zero, Int.sign_tmod]
  split
  · exact .inl rfl
  · exact .inr rfl

/-- A wrapped number is the number itself exactly when it is in range. -/
lemma bmod_eq_self_iff (q : ℤ) (m : ℕ) (hm : 0 < m) :
    q.bmod (2 * m) = q ↔ -(m : ℤ) ≤ q ∧ q < m := by
  have hlow := Int.le_bmod (x := q) (m := 2 * m) (by omega)
  have hhigh := Int.bmod_lt (x := q) (m := 2 * m) (by omega)
  constructor
  · intro h
    rw [h] at hlow hhigh
    omega
  · intro h
    exact Int.bmod_eq_of_le (by omega) (by omega)

/-- A signed quotient that is cut off is right exactly when it fits. -/
lemma tdiv_bmod_exact_iff {D d : ℤ} {m : ℕ} (hm : 0 < m) (hd : d ≠ 0) :
    D = (D.tdiv d).bmod (2 * m) * d + D.tmod d ↔ Fits m D d := by
  rw [eq_tdiv_iff hd, bmod_eq_self_iff _ _ hm]
  exact tdiv_range_iff (by omega) hd

/-- The quotient of a number in `[-m, m)` fits, the one of `-m` by `-1` apart. -/
lemma fits_of_range {m A d : ℤ} (hd : d ≠ 0) (hlow : -m ≤ A) (hhigh : A < m)
    (h : ¬ (A = -m ∧ d = -1)) : Fits m A d := by
  have hm : 0 < m := by omega
  have hscale {k : ℤ} (hk : k ≤ |d|) : m * k ≤ m * |d| :=
    Int.mul_le_mul_of_nonneg_left hk (Int.le_of_lt hm)
  have hone : 1 ≤ |d| := Int.one_le_abs hd
  have hexpand : (m + 1) * |d| = m * |d| + |d| := by rw [Int.add_mul, Int.one_mul]
  have hsingle := hscale hone
  rw [Fits, hexpand]
  obtain hneg | hpos := Int.lt_or_gt_of_ne hd
  · rw [Int.sign_eq_neg_one_of_neg hneg]
    by_cases hminus : d = -1
    · omega
    · have hdouble := hscale (k := 2) (by rw [abs_of_neg hneg]; omega)
      omega
  · rw [Int.sign_eq_one_of_pos hpos]
    omega

/-- Dividing a wrong dividend `A` gives back `D` only where the overflow of `-m` by `-1` repairs it. -/
lemma wrong_dividend_iff {m : ℕ} {A D d : ℤ} (hd : d ≠ 0) (hlow : -(m : ℤ) ≤ A) (hhigh : A < m)
    (hne : A ≠ D) :
    D = (A.tdiv d).bmod (2 * m) * d + A.tmod d ↔ A = -(m : ℤ) ∧ d = -1 ∧ D = m := by
  by_cases hover : A = -(m : ℤ) ∧ d = -1
  · obtain ⟨rfl, rfl⟩ := hover
    have hquot : (-(m : ℤ)).tdiv (-1) = m := by rw [Int.neg_tdiv_neg, Int.tdiv_one]
    have hwrap : (m : ℤ).bmod (2 * m) = -m := by
      have hshift : (m : ℤ) - (2 * m : ℕ) = -m := by omega
      rw [← Int.sub_bmod_right, hshift]
      exact Int.bmod_eq_of_le (by omega) (by omega)
    rw [hquot, hwrap, Int.tmod_neg, Int.tmod_one]
    omega
  · have hright := (tdiv_bmod_exact_iff (by omega) hd).mpr (fits_of_range hd hlow hhigh hover)
    rw [← hright]
    exact iff_of_false (fun h => hne h.symm) fun h => hover ⟨h.1, h.2.1⟩

end Division
