import Mathlib

/-!
# Exact arithmetic on floats

A `Float` holds the number `n / 2 ^ k` without loss if `n` has at most 53 bits. Integers of that size
are converted exactly, the product of two such numbers is exact if it is one again, and the conversion
to an integer drops what is behind the point.
-/

namespace Binary64
open Float.Model Float.Model.UnpackedFloat

/-! ## Shifts -/

/-- No bit that is set is shifted out. -/
lemma shiftRight_exact (q s : Nat) :
    (⟨q * 2 ^ s, false, false⟩ : ExtendedMantissa) >>> s = ⟨q, false, false⟩ := by
  induction s generalizing q with
  | zero =>
    rw [Nat.pow_zero, Nat.mul_one]
    rfl
  | succ s ih =>
    change ((⟨q * 2 ^ (s + 1), false, false⟩ : ExtendedMantissa) >>> s).shiftRightOne = _
    rw [Nat.pow_succ', ← Nat.mul_assoc, ih, ExtendedMantissa.shiftRightOne]
    simp

lemma mantissa_shiftRight (em : ExtendedMantissa) (s : Nat) :
    (em >>> s).mantissa = em.mantissa / 2 ^ s := by
  induction s with
  | zero => exact (Nat.div_one _).symm
  | succ s ih =>
    change (em >>> s).mantissa / 2 = _
    rw [ih, Nat.div_div_eq_div_mul, Nat.pow_succ]

lemma log2_mul_two_pow {q : Nat} (hq : q ≠ 0) (s : Nat) : (q * 2 ^ s).log2 = q.log2 + s := by
  have hs : 0 < 2 ^ s := Nat.two_pow_pos s
  apply (Nat.log2_eq_iff (Nat.mul_ne_zero hq (Nat.ne_of_gt hs))).mpr
  obtain ⟨hlow, hhigh⟩ := (Nat.log2_eq_iff hq).mp rfl
  constructor
  · rw [Nat.pow_add]
    exact Nat.mul_le_mul_right _ hlow
  · rw [Nat.add_right_comm, Nat.pow_add]
    exact Nat.mul_lt_mul_of_pos_right hhigh hs

/-! ## Rounding -/

lemma targetExponent_eq {m : Nat} {e : Int} {l : Nat} (hl : m.log2 = l) (he : -1022 ≤ l + e) :
    Format.binary64.targetExponent (totalExponent m e) = l + e - 52 := by
  simp only [Format.targetExponent, totalExponent, hl, Format.mantissaBits, Format.minExponent]
  omega

/-- A mantissa of 53 bits, with zeros behind it. -/
lemma shiftToTargetExponent_exact {q : Nat} (hq : q.log2 = 52) (s : Nat) {e : Int}
    (he : -1074 ≤ e + s) :
    shiftToTargetExponent Format.binary64 (q * 2 ^ s) e .exact = (⟨q, false, false⟩, e + s) := by
  have hne : q ≠ 0 := by
    rintro rfl
    exact absurd hq (by decide)
  have hlog : (q * 2 ^ s).log2 = 52 + s := by rw [log2_mul_two_pow hne, hq]
  have hshift : ((52 + s : Nat) + e - 52 - e).toNat = s := by omega
  rw [shiftToTargetExponent, targetExponent_eq hlog (by omega), shiftToExponent, hshift]
  exact congrArg (·, e + (s : Int)) (shiftRight_exact q s)

lemma roundWithAccuracy_exact {q : Nat} (hq : q.log2 = 52) (hpos : 0 < q) (s : Nat) {e : Int}
    (he : -1074 ≤ e + s) :
    roundWithAccuracy Format.binary64 .positive (q * 2 ^ s) e .exact =
      .finite .positive q (e + s) hpos := by
  have hagain := shiftToTargetExponent_exact hq 0 (e := e + s) (by omega)
  rw [Nat.pow_zero, Nat.mul_one] at hagain
  rw [roundWithAccuracy, shiftToTargetExponent_exact hq s he]
  dsimp only [ExtendedMantissa.roundedMantissa, ExtendedMantissa.accuracy,
    Accuracy.roundToNearestEven]
  rw [hagain]
  dsimp only
  rw [dif_neg (Nat.ne_of_gt hpos)]
  congr 1
  exact Int.add_zero _

/-! ## Packing -/

lemma unpackSign_packComponents {spec : Format} {sign exponent mantissa} :
    unpackSign (packComponents spec sign exponent mantissa) = sign.toBitVec := by
  ext i hi
  have hzero : i = 0 := by omega
  subst hzero
  simp [unpackSign, packComponents, BitVec.getLsbD_eq_getElem, BitVec.getLsbD_append,
    BitVec.getElem_append]

/-- A number with a mantissa of 53 bits is read as it was stored. -/
lemma unpack_pack {q : Nat} (hq : q.log2 = 52) (hpos : 0 < q) {e : Int} (hlow : -1074 ≤ e)
    (hhigh : e ≤ 971) :
    (Float.Model.pack (.finite .positive q e hpos)).unpack = .finite .positive q e hpos := by
  obtain ⟨hge, hlt⟩ := (Nat.log2_eq_iff (Nat.ne_of_gt hpos)).mp hq
  have hbiased : (e + Format.binary64.exponentBias + (52 : Nat)).toNat = (e + 1075).toNat := by
    change (e + 1023 + 52).toNat = _
    omega
  have hexponent : (BitVec.ofNat 11 (e + 1075).toNat).toNat = (e + 1075).toNat := by
    rw [BitVec.toNat_ofNat]
    exact Nat.mod_eq_of_lt (by omega)
  have hones : BitVec.ofNat 11 (e + 1075).toNat ≠ -1#11 := by
    intro h
    have hnat := congrArg BitVec.toNat h
    rw [hexponent] at hnat
    change _ = 2047 at hnat
    omega
  have hzero : BitVec.ofNat 11 (e + 1075).toNat ≠ 0#11 := by
    intro h
    have hnat := congrArg BitVec.toNat h
    rw [hexponent] at hnat
    change _ = 0 at hnat
    omega
  have hmantissa : (1#1 ++ BitVec.ofNat 52 q).toNat = q := by
    simp only [BitVec.toNat_append, BitVec.toNat_ofNat, Nat.shiftLeft_eq]
    rw [Nat.mul_comm, ← Nat.two_pow_add_eq_or_of_lt (Nat.mod_lt q (Nat.two_pow_pos 52))]
    omega
  change UnpackedFloat.unpack Format.binary64 (UnpackedFloat.pack Format.binary64 _) = _
  rw [UnpackedFloat.pack]
  dsimp only
  rw [hbiased, if_neg (by change ¬ 2048 ≤ _; omega), if_pos (by rw [hq]; rfl), UnpackedFloat.unpack]
  simp only [unpackExponent_packComponents, unpackMantissa_packComponents,
    unpackSign_packComponents]
  rw [if_neg hones, if_neg hzero]
  congr 1
  rw [hexponent]
  change ((e + 1075).toNat : Int) - (1023 + 52) = e
  omega

/-! ## Numbers held exactly -/

lemma log2_normalized {n : Nat} (hpos : 0 < n) (h : n < 2 ^ 53) :
    (n * 2 ^ (52 - n.log2)).log2 = 52 := by
  have hlog : n.log2 < 53 := (Nat.log2_lt (Nat.ne_of_gt hpos)).mpr h
  rw [log2_mul_two_pow (Nat.ne_of_gt hpos)]
  omega

/-- `n / 2 ^ k`, with a mantissa of 53 bits. -/
def dyadic (n k : Nat) : UnpackedFloat :=
  if h : 0 < n then
    .finite .positive (n * 2 ^ (52 - n.log2)) (n.log2 - 52 - k)
      (Nat.mul_pos h (Nat.two_pow_pos _))
  else .zero .positive

/-- The number is `n / 2 ^ k`. -/
structure Exactly (x : Float) (n k : Nat) : Prop where
  size : n < 2 ^ 53
  scale : k ≤ 1022
  unpack : x.toModel.unpack = dyadic n k

lemma Exactly.pack {x : Float} {n k : Nat} (hsize : n < 2 ^ 53) (hscale : k ≤ 1022)
    (h : x.toModel = Float.Model.pack (dyadic n k)) : Exactly x n k := by
  refine ⟨hsize, hscale, ?_⟩
  rw [h, dyadic]
  split
  · rename_i hpos
    have hlog : n.log2 < 53 := (Nat.log2_lt (Nat.ne_of_gt hpos)).mpr hsize
    exact unpack_pack (log2_normalized hpos hsize) _ (by omega) (by omega)
  · rfl

lemma round_dyadic {n : Nat} (hpos : 0 < n) (h : n < 2 ^ 53) :
    UnpackedFloat.round Format.binary64 .positive n 0 = dyadic n 0 := by
  have hlog : n.log2 < 53 := (Nat.log2_lt (Nat.ne_of_gt hpos)).mpr h
  have hshift : (0 - ((n.log2 : Int) + 0 - 52)).toNat = 52 - n.log2 := by omega
  have hq := log2_normalized hpos h
  have hround := roundWithAccuracy_exact hq (Nat.mul_pos hpos (Nat.two_pow_pos _)) 0
    (e := (n.log2 : Int) - 52) (by omega)
  rw [Nat.pow_zero, Nat.mul_one] at hround
  rw [UnpackedFloat.round, targetExponent_eq rfl (by omega), decreaseExponent, hshift,
    Nat.shiftLeft_eq, dyadic, dif_pos hpos]
  dsimp only
  have hexponent : (0 : Int) - ((52 - n.log2 : Nat) : Int) = n.log2 - 52 := by omega
  rw [hexponent, hround]
  congr 1

/-- Integers are converted exactly. -/
lemma exactly_toFloat (n : UInt32) : Exactly n.toFloat n.toNat 0 := by
  have hlt := n.toNat_lt
  apply Exactly.pack (by omega) (Nat.zero_le _)
  change Float.Model.pack (UnpackedFloat.normalize Format.binary64 n.toNat 0 .positive) = _
  rw [UnpackedFloat.normalize]
  rcases Nat.eq_zero_or_pos n.toNat with hzero | hpos
  · rw [hzero]
    rfl
  · have hcompare : compare (n.toNat : Int) 0 = .gt := compare_gt_iff_gt.mpr (by omega)
    rw [hcompare]
    dsimp only
    rw [Int.toNat_natCast, round_dyadic hpos (by omega)]

/-- A product that has room is not rounded. -/
lemma mul_dyadic {m n j k : Nat} (hsize : m * n < 2 ^ 53) (hscale : j + k ≤ 1022) :
    UnpackedFloat.mul Format.binary64 (dyadic m j) (dyadic n k) = dyadic (m * n) (j + k) := by
  rcases Nat.eq_zero_or_pos m with rfl | hm
  · rw [Nat.zero_mul, dyadic, dif_neg (Nat.lt_irrefl 0), dyadic, dyadic,
      dif_neg (Nat.lt_irrefl 0)]
    split
    · rfl
    · rfl
  rcases Nat.eq_zero_or_pos n with rfl | hn
  · rw [Nat.mul_zero, dyadic, dyadic, dif_neg (Nat.lt_irrefl 0), dif_pos hm, dyadic,
      dif_neg (Nat.lt_irrefl 0)]
    rfl
  have hpos : 0 < m * n := Nat.mul_pos hm hn
  have hlog : (m * n).log2 < 53 := (Nat.log2_lt (Nat.ne_of_gt hpos)).mpr hsize
  have hsum : m.log2 + n.log2 ≤ (m * n).log2 := by
    apply (Nat.le_log2 (Nat.ne_of_gt hpos)).mpr
    rw [Nat.pow_add]
    exact Nat.mul_le_mul (Nat.log2_self_le (Nat.ne_of_gt hm)) (Nat.log2_self_le (Nat.ne_of_gt hn))
  let s := (m * n).log2 + 52 - m.log2 - n.log2
  have hmantissa : m * 2 ^ (52 - m.log2) * (n * 2 ^ (52 - n.log2)) =
      m * n * 2 ^ (52 - (m * n).log2) * 2 ^ s := by
    rw [Nat.mul_mul_mul_comm, Nat.mul_assoc (m * n), ← Nat.pow_add, ← Nat.pow_add]
    congr 2
    omega
  have hround := roundWithAccuracy_exact (log2_normalized hpos hsize)
    (Nat.mul_pos hpos (Nat.two_pow_pos _)) s
    (e := (m.log2 : Int) - 52 - j + (n.log2 - 52 - k)) (by omega)
  rw [dyadic, dif_pos hm, dyadic, dif_pos hn, dyadic, dif_pos hpos]
  change roundWithAccuracy Format.binary64 .positive _ _ .exact = _
  rw [hmantissa, hround]
  congr 1
  omega

lemma Exactly.mul {x y : Float} {m n j k : Nat} (hx : Exactly x m j) (hy : Exactly y n k)
    (hsize : m * n < 2 ^ 53) (hscale : j + k ≤ 1022) : Exactly (x * y) (m * n) (j + k) := by
  apply Exactly.pack hsize hscale
  change Float.Model.pack (UnpackedFloat.mul Format.binary64 x.toModel.unpack y.toModel.unpack) = _
  rw [hx.unpack, hy.unpack, mul_dyadic hsize hscale]

/-- What is behind the point is dropped. -/
lemma Exactly.toUInt32 {x : Float} {n k : Nat} (h : Exactly x n k) (hlt : n / 2 ^ k < 2 ^ 32) :
    x.toUInt32.toNat = n / 2 ^ k := by
  change (UInt32.ofNatClamp (x.toModel.unpack.toInt 0 (UInt32.size - 1)).toNat).toNat = _
  have hint : x.toModel.unpack.toInt 0 (UInt32.size - 1) = (n / 2 ^ k : Nat) := by
    rw [h.unpack, dyadic]
    split
    · rename_i hpos
      have hlog : n.log2 < 53 := (Nat.log2_lt (Nat.ne_of_gt hpos)).mpr h.size
      have hup : ((n.log2 : Int) - 52 - k - 0).toNat = 0 := by omega
      have hdown : (0 - ((n.log2 : Int) - 52 - k)).toNat = 52 - n.log2 + k := by omega
      change UnpackedFloat.roundToInt .positive _ _ = _
      have hquotient : n * 2 ^ (52 - n.log2) / 2 ^ (52 - n.log2 + k) = n / 2 ^ k := by
        rw [Nat.pow_add, Nat.mul_comm n, Nat.mul_div_mul_left _ _ (Nat.two_pow_pos _)]
      rw [UnpackedFloat.roundToInt, decreaseExponent, hup, Nat.shiftLeft_zero]
      dsimp only
      rw [Int.natCast_zero, Int.sub_zero, shiftToExponent, hdown]
      dsimp only
      rw [mantissa_shiftRight]
      exact congrArg Int.ofNat hquotient
    · rename_i hzero
      obtain rfl : n = 0 := by omega
      rw [Nat.zero_div]
      rfl
  have hsize : n / 2 ^ k < UInt32.size := hlt
  rw [hint, Int.toNat_natCast, UInt32.ofNatClamp, dif_pos hsize]
  rfl

end Binary64
