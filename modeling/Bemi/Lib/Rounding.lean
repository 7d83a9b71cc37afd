import Bemi.Lib.Binary64

/-!
# Rounding and order

The floats that are not too small hold the numbers `q * 2 ^ e` with a mantissa `q` of 53 bits. A
rounded result is next to the exact one: no such number is between them. So a result can be compared
with a float by comparing the exact one, whichever way it was rounded.
-/

namespace Binary64
open Float.Model Float.Model.UnpackedFloat

/-- The number with a mantissa and an exponent. -/
def value (q : Nat) (e : Int) : ℚ := q * 2 ^ e

/-- A mantissa with 53 bits. -/
structure Mantissa (q : Nat) : Prop where
  low : 2 ^ 52 ≤ q
  high : q < 2 ^ 53

lemma Mantissa.pos {q : Nat} (h : Mantissa q) : 0 < q := Nat.lt_of_lt_of_le (Nat.two_pow_pos 52) h.low

lemma Mantissa.log2 {q : Nat} (h : Mantissa q) : q.log2 = 52 :=
  (Nat.log2_eq_iff (Nat.ne_of_gt h.pos)).mpr ⟨h.low, h.high⟩

/-- No number with a mantissa of 53 bits is between the two. -/
structure Faithful (x y : ℚ) : Prop where
  le : ∀ q e, Mantissa q → value q e ≤ x → value q e ≤ y
  ge : ∀ q e, Mantissa q → x ≤ value q e → y ≤ value q e

/-! ## Order -/

section
variable {q q' : Nat} {e e' : Int}

lemma two_zpow_pos (e : Int) : (0 : ℚ) < 2 ^ e := zpow_pos two_pos e

lemma value_le_iff_mantissa : value q e ≤ value q' e ↔ q ≤ q' := by
  rw [value, value, mul_le_mul_iff_left₀ (two_zpow_pos e), Nat.cast_le]

lemma value_mul_two_pow (q s : Nat) (e : Int) : value (q * 2 ^ s) e = value q (e + s) := by
  rw [value, value, Nat.cast_mul, Nat.cast_pow, Nat.cast_ofNat, zpow_add₀ two_ne_zero, zpow_natCast]
  ring

/-- A mantissa is not made up for by a smaller exponent. -/
lemma value_lt_of_exponent (hq : q < 2 ^ 53) (hq' : 2 ^ 52 ≤ q') (he : e < e') :
    value q e < value q' e' := by
  obtain ⟨d, rfl⟩ : ∃ d : Nat, e' = e + (d + 1 : Nat) := ⟨(e' - e - 1).toNat, by omega⟩
  have hscale : 2 ^ 53 ≤ q' * 2 ^ (d + 1) := by
    have hd := Nat.two_pow_pos d
    calc 2 ^ 53 = 2 ^ 52 * 2 ^ 1 := rfl
      _ ≤ q' * 2 ^ (d + 1) := Nat.mul_le_mul hq' (Nat.pow_le_pow_right two_pos (by omega))
  rw [← value_mul_two_pow, ← not_le, value_le_iff_mantissa]
  omega

/-- The next number after one is a unit of its last place away. -/
lemma value_succ_le (hq : Mantissa q) (hq' : Mantissa q') (h : value q e < value q' e') :
    value (q + 1) e ≤ value q' e' := by
  rcases lt_trichotomy e e' with hlt | rfl | hgt
  · rcases Nat.lt_or_ge (q + 1) (2 ^ 53) with hroom | hfull
    · exact (value_lt_of_exponent hroom hq'.low hlt).le
    · have heq : q + 1 = 2 ^ 52 * 2 ^ 1 := Nat.le_antisymm hq.high hfull
      obtain ⟨d, rfl⟩ : ∃ d : Nat, e' = e + (d + 1 : Nat) := ⟨(e' - e - 1).toNat, by omega⟩
      rw [← value_mul_two_pow, value_le_iff_mantissa, heq]
      exact Nat.mul_le_mul hq'.low (Nat.pow_le_pow_right two_pos (by omega))
  · rw [← not_le, value_le_iff_mantissa, not_le] at h
    exact value_le_iff_mantissa.mpr h
  · exact absurd (value_lt_of_exponent hq'.high hq.low hgt) (not_lt.mpr h.le)

end

/-! ## Rounding -/

section
variable {q : Nat} {e : Int} {x : ℚ}

lemma faithful_below (hq : Mantissa q) (hlow : value q e ≤ x) (hhigh : x < value (q + 1) e) :
    Faithful x (value q e) where
  le q' e' hq' hle := by
    by_contra hgt
    exact absurd (value_succ_le hq hq' (not_le.mp hgt)) (not_le.mpr (hle.trans_lt hhigh))
  ge _ _ _ hge := hlow.trans hge

lemma faithful_above (hq : Mantissa q) (hlow : value q e < x) (hhigh : x ≤ value (q + 1) e) :
    Faithful x (value (q + 1) e) where
  le _ _ _ hle := hle.trans hhigh
  ge _ _ hq' hge := value_succ_le hq hq' (hlow.trans_le hge)

end

lemma roundedMantissa_bounds (em : ExtendedMantissa) :
    em.mantissa ≤ em.roundedMantissa ∧ em.roundedMantissa ≤ em.mantissa + 1 := by
  obtain ⟨m, r, s⟩ := em
  cases r <;> cases s <;>
    simp only [ExtendedMantissa.roundedMantissa, ExtendedMantissa.accuracy,
      Accuracy.roundToNearestEven] <;> omega

/-- Nothing is rounded up without need. -/
lemma roundedMantissa_shiftRight (m s : Nat) :
    let r := ((⟨m, false, false⟩ : ExtendedMantissa) >>> s).roundedMantissa
    r = m / 2 ^ s ∨ r = m / 2 ^ s + 1 ∧ m / 2 ^ s * 2 ^ s < m := by
  obtain ⟨hlow, hhigh⟩ := roundedMantissa_bounds ((⟨m, false, false⟩ : ExtendedMantissa) >>> s)
  rw [mantissa_shiftRight] at hlow hhigh
  dsimp only at hlow hhigh ⊢
  rcases Nat.lt_or_ge (m / 2 ^ s * 2 ^ s) m with hlt | hge
  · omega
  · have heq : m / 2 ^ s * 2 ^ s = m := Nat.le_antisymm (Nat.div_mul_le_self ..) hge
    have hexact := shiftRight_exact (m / 2 ^ s) s
    rw [heq] at hexact
    rw [hexact]
    exact .inl rfl

/-- The mantissa that was rounded is next to the exact number. -/
lemma faithful_shiftRight {m s : Nat} (hq : Mantissa (m / 2 ^ s)) (e : Int) : Faithful (value m e)
    (value ((⟨m, false, false⟩ : ExtendedMantissa) >>> s).roundedMantissa (e + s)) := by
  have hbelow : value (m / 2 ^ s) (e + s) ≤ value m e := by
    rw [← value_mul_two_pow, value_le_iff_mantissa]
    exact Nat.div_mul_le_self ..
  have habove : value m e < value (m / 2 ^ s + 1) (e + s) := by
    rw [← value_mul_two_pow, ← not_le, value_le_iff_mantissa, not_le, Nat.add_one_mul]
    exact Nat.lt_div_mul_add (Nat.two_pow_pos s)
  rcases roundedMantissa_shiftRight m s with hdown | ⟨hup, hlt⟩
  · rw [hdown]
    exact faithful_below hq hbelow habove
  · have hstrict : value (m / 2 ^ s) (e + s) < value m e := by
      rw [← value_mul_two_pow, ← not_le, value_le_iff_mantissa, not_le]
      exact hlt
    rw [hup]
    exact faithful_above hq hstrict habove.le

/-- A mantissa that was rounded up to 54 bits is shifted once more. -/
lemma shiftToTargetExponent_rounded {r : Nat} (hlow : 2 ^ 52 ≤ r) (hhigh : r ≤ 2 ^ 53) {e : Int}
    (he : -1074 ≤ e) : ∃ q e', Mantissa q ∧ (e' = e ∨ e' = e + 1) ∧ value q e' = value r e ∧
      shiftToTargetExponent Format.binary64 r e .exact = (⟨q, false, false⟩, e') := by
  rcases Nat.lt_or_ge r (2 ^ 53) with hroom | hfull
  · have hr : Mantissa r := ⟨hlow, hroom⟩
    have hexact := shiftToTargetExponent_exact hr.log2 0 (e := e) (by omega)
    rw [Nat.pow_zero, Nat.mul_one, Int.natCast_zero, Int.add_zero] at hexact
    exact ⟨r, e, hr, .inl rfl, rfl, hexact⟩
  · obtain rfl : r = 2 ^ 52 * 2 ^ 1 := Nat.le_antisymm hhigh hfull
    have hq : Mantissa (2 ^ 52) := ⟨le_rfl, by decide⟩
    exact ⟨2 ^ 52, e + 1, hq, .inr rfl, (value_mul_two_pow ..).symm,
      shiftToTargetExponent_exact hq.log2 1 (by omega)⟩

/-- What is rounded has 53 bits again and is next to the exact number. -/
lemma roundWithAccuracy_faithful {m s : Nat} (hlog : m.log2 = 52 + s) {e : Int}
    (he : -1074 ≤ e + s) : ∃ q e', ∃ hq : Mantissa q,
      roundWithAccuracy Format.binary64 .positive m e .exact = .finite .positive q e' hq.pos ∧
        (e' = e + s ∨ e' = e + s + 1) ∧ Faithful (value m e) (value q e') := by
  have hne : m ≠ 0 := by
    rintro rfl
    rw [Nat.log2_zero] at hlog
    omega
  obtain ⟨hlow, hhigh⟩ := (Nat.log2_eq_iff hne).mp hlog
  have hmantissa : Mantissa (m / 2 ^ s) := by
    constructor
    · rw [Nat.le_div_iff_mul_le (Nat.two_pow_pos s), ← Nat.pow_add]
      exact hlow
    · rw [Nat.div_lt_iff_lt_mul (Nat.two_pow_pos s), ← Nat.pow_add]
      exact Nat.lt_of_lt_of_eq hhigh (congrArg _ (by omega))
  have hshift : shiftToTargetExponent Format.binary64 m e .exact =
      ((⟨m, false, false⟩ : ExtendedMantissa) >>> s, e + s) := by
    have hamount : ((52 + s : Nat) + e - 52 - e).toNat = s := by omega
    rw [shiftToTargetExponent, targetExponent_eq hlog (by omega), shiftToExponent, hamount]
    rfl
  obtain ⟨hdown, hup⟩ := roundedMantissa_bounds ((⟨m, false, false⟩ : ExtendedMantissa) >>> s)
  rw [mantissa_shiftRight] at hdown hup
  have hfaithful := faithful_shiftRight hmantissa e
  obtain ⟨q, e', hq, hexponent, hvalue, hagain⟩ := shiftToTargetExponent_rounded
    (hmantissa.low.trans hdown) (hup.trans hmantissa.high) he
  refine ⟨q, e', hq, ?_, hexponent, hvalue ▸ hfaithful⟩
  rw [roundWithAccuracy, hshift]
  dsimp only
  rw [hagain]
  exact dif_neg (Nat.ne_of_gt hq.pos)

/-! ## Floats -/

/-- The float holds `value q e`. -/
structure Normal (x : Float) (q : Nat) (e : Int) : Prop where
  mantissa : Mantissa q
  low : -1074 ≤ e
  high : e ≤ 971
  unpack : x.toModel.unpack = .finite .positive q e mantissa.pos

lemma Normal.pack {x : Float} {q : Nat} {e : Int} (hq : Mantissa q) (hlow : -1074 ≤ e)
    (hhigh : e ≤ 971) (h : x.toModel = Float.Model.pack (.finite .positive q e hq.pos)) :
    Normal x q e :=
  ⟨hq, hlow, hhigh, h ▸ unpack_pack hq.log2 hq.pos hlow hhigh⟩

/-- Floats are compared by their numbers. -/
lemma Normal.le_iff {x y : Float} {q q' : Nat} {e e' : Int} (hx : Normal x q e)
    (hy : Normal y q' e') : x ≤ y ↔ value q e ≤ value q' e' := by
  have hmodel : x ≤ y ↔ x.toModel.unpack.le y.toModel.unpack = true := decide_eq_true_iff
  rw [hmodel, hx.unpack, hy.unpack]
  change ((compare e e').then (compare q q')).isLE = true ↔ _
  rcases lt_trichotomy e e' with hlt | rfl | hgt
  · rw [compare_lt_iff_lt.mpr hlt]
    exact iff_of_true rfl (value_lt_of_exponent hx.mantissa.high hy.mantissa.low hlt).le
  · rw [compare_eq_iff_eq.mpr rfl, Ordering.eq_then, value_le_iff_mantissa, Nat.isLE_compare]
  · rw [compare_gt_iff_gt.mpr hgt]
    refine iff_of_false Bool.false_ne_true (not_le.mpr ?_)
    exact value_lt_of_exponent hy.mantissa.high hx.mantissa.low hgt

lemma log2_mul {q q' : Nat} (hq : Mantissa q) (hq' : Mantissa q') :
    ∃ s, (s = 52 ∨ s = 53) ∧ (q * q').log2 = 52 + s := by
  have hlow : 2 ^ (52 + 52) ≤ q * q' := by
    rw [Nat.pow_add]
    exact Nat.mul_le_mul hq.low hq'.low
  have hhigh : q * q' < 2 ^ (53 + 53) := by
    rw [Nat.pow_add]
    exact Nat.mul_lt_mul'' hq.high hq'.high
  have hne : q * q' ≠ 0 := Nat.ne_of_gt (Nat.mul_pos hq.pos hq'.pos)
  rcases Nat.lt_or_ge (q * q') (2 ^ 105) with hlt | hge
  · exact ⟨52, .inl rfl, (Nat.log2_eq_iff hne).mpr ⟨hlow, hlt⟩⟩
  · exact ⟨53, .inr rfl, (Nat.log2_eq_iff hne).mpr ⟨hge, hhigh⟩⟩

/-- A product is next to the exact one. -/
lemma Normal.mul {x y : Float} {q q' : Nat} {e e' : Int} (hx : Normal x q e) (hy : Normal y q' e')
    (hlow : -1126 ≤ e + e') (hhigh : e + e' ≤ 917) : ∃ p d, Normal (x * y) p d ∧
      e + e' + 52 ≤ d ∧ d ≤ e + e' + 54 ∧ Faithful (value q e * value q' e') (value p d) := by
  have hproduct : value q e * value q' e' = value (q * q') (e + e') := by
    rw [value, value, value, Nat.cast_mul, zpow_add₀ two_ne_zero]
    ring
  obtain ⟨s, hs, hlog⟩ := log2_mul hx.mantissa hy.mantissa
  obtain ⟨p, d, hp, hround, hd, hfaithful⟩ := roundWithAccuracy_faithful hlog (e := e + e')
    (by omega)
  refine ⟨p, d, .pack hp (by omega) (by omega) ?_, by omega, by omega, hproduct ▸ hfaithful⟩
  change Float.Model.pack (UnpackedFloat.mul Format.binary64 x.toModel.unpack y.toModel.unpack) = _
  rw [hx.unpack, hy.unpack, ← hround]
  rfl

/-- The quotient by a power of two is exact. -/
lemma Normal.div_two_pow {x y : Float} {q : Nat} {e k : Int} (hx : Normal x q e)
    (hy : Normal y (2 ^ 52) (k - 52)) (hlow : -1022 ≤ e - k) (hhigh : e - k ≤ 971) :
    Normal (x / y) q (e - k) := by
  -- the quotient is computed with one bit more than it needs
  have htarget : min (e - (k - 52)) (Format.binary64.targetExponent
      (totalExponent q e - totalExponent (2 ^ 52) (k - 52))) = e - k - 1 := by
    simp only [Format.targetExponent, totalExponent, hx.mantissa.log2, hy.mantissa.log2,
      Format.mantissaBits, Format.minExponent]
    omega
  have hshift : (e - (k - 52) - (e - k - 1)).toNat = 53 := by omega
  have hscaled : q <<< 53 = q * 2 * 2 ^ 52 := by
    rw [Nat.shiftLeft_eq, Nat.mul_assoc]
    rfl
  have hquotient : (q <<< 53) / 2 ^ 52 = q * 2 ^ 1 := by
    rw [hscaled, Nat.mul_div_cancel _ (Nat.two_pow_pos 52), Nat.pow_one]
  have hremainder : (q <<< 53) % 2 ^ 52 = 0 := by
    rw [hscaled, Nat.mul_mod_left]
  have hround := roundWithAccuracy_exact hx.mantissa.log2 hx.mantissa.pos 1 (e := e - k - 1)
    (by omega)
  have hexponent : e - k - 1 + (1 : Nat) = e - k := by omega
  rw [hexponent] at hround
  refine .pack hx.mantissa (by omega) hhigh ?_
  change Float.Model.pack (UnpackedFloat.div Format.binary64 x.toModel.unpack y.toModel.unpack) = _
  rw [hx.unpack, hy.unpack, ← hround]
  let quotient := divCore Format.binary64 q e (2 ^ 52) (k - 52)
  change Float.Model.pack
    (roundWithAccuracy Format.binary64 .positive quotient.1 quotient.2.1 quotient.2.2) = _
  dsimp only [quotient]
  rw [divCore, htarget, hshift, hquotient, hremainder]
  rfl

/-! ## Integers -/

lemma value_zero (n : Nat) : value n 0 = n := by
  rw [value, zpow_zero, mul_one]

/-- Few bits are only shifted. -/
lemma round_small {n : Nat} (hpos : 0 < n) (hlt : n < 2 ^ 53) : ∃ q e, ∃ hq : Mantissa q,
    UnpackedFloat.round Format.binary64 .positive n 0 = .finite .positive q e hq.pos ∧
      -52 ≤ e ∧ e ≤ 0 ∧ value q e = n := by
  have hlog : n.log2 < 53 := (Nat.log2_lt (Nat.ne_of_gt hpos)).mpr hlt
  have hne : n * 2 ^ (52 - n.log2) ≠ 0 :=
    Nat.ne_of_gt (Nat.mul_pos hpos (Nat.two_pow_pos _))
  obtain ⟨hlow, hhigh⟩ := (Nat.log2_eq_iff hne).mp (log2_normalized hpos hlt)
  refine ⟨n * 2 ^ (52 - n.log2), n.log2 - 52 - (0 : Nat), ⟨hlow, hhigh⟩, ?_, by omega, by omega, ?_⟩
  · rw [round_dyadic hpos hlt, dyadic, dif_pos hpos]
  · have hexponent : (n.log2 : Int) - 52 - (0 : Nat) + (52 - n.log2 : Nat) = 0 := by omega
    rw [value_mul_two_pow, hexponent, value_zero]

/-- Many bits are rounded. -/
lemma round_large {n : Nat} (hge : 2 ^ 53 ≤ n) (hlt : n < 2 ^ 64) : ∃ q e, ∃ hq : Mantissa q,
    UnpackedFloat.round Format.binary64 .positive n 0 = .finite .positive q e hq.pos ∧
      0 ≤ e ∧ e ≤ 12 ∧ Faithful n (value q e) := by
  have hne : n ≠ 0 := by
    rintro rfl
    exact absurd hge (by decide)
  have hfew : n.log2 < 64 := (Nat.log2_lt hne).mpr hlt
  have hmany : 53 ≤ n.log2 := (Nat.le_log2 hne).mpr hge
  have hlog : n.log2 = 52 + (n.log2 - 52) := by omega
  have hshift : (0 - ((n.log2 : Int) + 0 - 52)).toNat = 0 := by omega
  obtain ⟨q, e, hq, hround, he, hfaithful⟩ := roundWithAccuracy_faithful hlog (e := 0) (by omega)
  refine ⟨q, e, hq, ?_, by omega, by omega, value_zero n ▸ hfaithful⟩
  rw [UnpackedFloat.round, targetExponent_eq rfl (by omega), decreaseExponent, hshift,
    Nat.shiftLeft_zero]
  exact hround

/-- An integer is next to what it is converted to. -/
lemma normal_toFloat {n : UInt64} (hpos : 0 < n.toNat) : ∃ q e, Normal n.toFloat q e ∧
    -52 ≤ e ∧ e ≤ 12 ∧ Faithful n.toNat (value q e) := by
  have hcompare : compare (n.toNat : Int) 0 = .gt := compare_gt_iff_gt.mpr (by omega)
  have hmodel : n.toFloat.toModel =
      Float.Model.pack (UnpackedFloat.round Format.binary64 .positive n.toNat 0) := by
    change Float.Model.pack (UnpackedFloat.normalize Format.binary64 n.toNat 0 .positive) = _
    rw [UnpackedFloat.normalize, hcompare]
    rfl
  rcases Nat.lt_or_ge n.toNat (2 ^ 53) with hsmall | hlarge
  · obtain ⟨q, e, hq, hround, hlow, hhigh, hvalue⟩ := round_small hpos hsmall
    refine ⟨q, e, .pack hq (by omega) (by omega) (hround ▸ hmodel), hlow, by omega, ?_⟩
    rw [hvalue]
    exact ⟨fun _ _ _ => id, fun _ _ _ => id⟩
  · obtain ⟨q, e, hq, hround, hlow, hhigh, hfaithful⟩ := round_large hlarge n.toNat_lt
    exact ⟨q, e, .pack hq (by omega) (by omega) (hround ▸ hmodel), by omega, hhigh, hfaithful⟩

end Binary64
