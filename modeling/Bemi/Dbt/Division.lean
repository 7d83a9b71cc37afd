import Bemi.Dbt.Flags
import Bemi.Lib.Division

/-!
# Division

`DivRR` and `IdivRR` divide RDX:RAX by a register. Neither checks that the quotient fits 64 bits, and
the signed division assembles its dividend from a sign-extended lower half, so that it divides RAX
alone when bit 63 of RAX is set.
-/

namespace Bemi.Dbt
open Division

variable {M : Type*} (io : Callbacks M)

/-- The division `inst` is refused, or it leaves in RAX and RDX a quotient and a remainder that are
`right`. -/
def RefusedOrRight (e : Executor M) (inst : MicroOpInst) (nextIp : Option BemiWord)
    (right : BemiWord → BemiWord → Prop) : Prop :=
  let (e', res) := executeInst io e inst nextIp
  ((∃ msg, res = .err msg) ∧ e'.regs = e.regs) ∨
    (res = .ok nextIp ∧ right (e'.read .rax) (e'.read .rdx))

/-- RDX:RAX as an unsigned number. -/
def dividend (e : Executor M) : ℕ :=
  (e.read .rdx).toNat * 2 ^ 64 + (e.read .rax).toNat

/-- RDX:RAX as a two's complement number. -/
def signedDividend (e : Executor M) : ℤ :=
  (e.read .rdx).toInt64.toInt * 2 ^ 64 + (e.read .rax).toNat

/-- What an unsigned division promises. -/
def DivRight (e : Executor M) (inst : MicroOpInst) (nextIp : Option BemiWord) : Prop :=
  let d := (e.read inst.src1).toNat
  RefusedOrRight io e { inst with code := .divRR } nextIp fun q r =>
    dividend e = q.toNat * d + r.toNat ∧ r.toNat < d

/-- What a signed division promises. -/
def IdivRight (e : Executor M) (inst : MicroOpInst) (nextIp : Option BemiWord) : Prop :=
  let D := signedDividend e
  let d := (e.read inst.src1).toInt64.toInt
  RefusedOrRight io e { inst with code := .idivRR } nextIp fun q r =>
    D = q.toInt64.toInt * d + r.toInt64.toInt ∧ |r.toInt64.toInt| < |d| ∧
      (r.toInt64.toInt = 0 ∨ r.toInt64.toInt.sign = D.sign)

/-! ## Registers -/

lemma read_rax_result (e : Executor M) (q r : BemiWord) :
    ((e.write .rax q).write .rdx r).read .rax = q :=
  (RegisterFile.read_write_ne _ _ (by decide)).trans
    (RegisterFile.read_write_self _ _ (by decide))

lemma read_rdx_result (e : Executor M) (q r : BemiWord) :
    ((e.write .rax q).write .rdx r).read .rdx = r :=
  RegisterFile.read_write_self _ _ (by decide)

/-! ## Unsigned -/

lemma executeInst_divRR (e : Executor M) (inst : MicroOpInst) (nextIp : Option BemiWord)
    (h : e.read inst.src1 ≠ 0) :
    executeInst io e { inst with code := .divRR } nextIp =
      ((e.write .rax (UInt64.ofNat (dividend e / (e.read inst.src1).toNat))).write .rdx
        (UInt64.ofNat (dividend e % (e.read inst.src1).toNat)), .ok nextIp) := by
  have hdividend : (e.read .rdx).toNat <<< 64 ||| (e.read .rax).toNat = dividend e := by
    rw [← Nat.shiftLeft_add_eq_or_of_lt (e.read .rax).toNat_lt, Nat.shiftLeft_eq, dividend]
  rw [← hdividend]
  exact if_neg h

lemma toNat_pos {d : BemiWord} (h : d ≠ 0) : 0 < d.toNat :=
  Nat.pos_of_ne_zero fun h0 => h (UInt64.toNat_inj.mp h0)

/-- The dividend divided by `d` fits 64 bits exactly when its upper half is below `d`. -/
lemma dividend_lt_iff (e : Executor M) (d : BemiWord) :
    dividend e < 2 ^ 64 * d.toNat ↔ e.read .rdx < d := by
  have hlow := (e.read .rax).toNat_lt
  rw [UInt64.lt_iff_toNat_lt, dividend]
  omega

lemma divRight_iff (e : Executor M) (inst : MicroOpInst) (nextIp : Option BemiWord) :
    DivRight io e inst nextIp ↔ e.read inst.src1 = 0 ∨ e.read .rdx < e.read inst.src1 := by
  by_cases hd : e.read inst.src1 = 0
  · have hrefused : executeInst io e { inst with code := .divRR } nextIp =
        (e, .err "Division by zero") := if_pos hd
    rw [DivRight, RefusedOrRight, hrefused]
    exact iff_of_true (.inl ⟨⟨_, rfl⟩, rfl⟩) (.inl hd)
  · have hpos := toNat_pos hd
    have hmod := Nat.mod_lt (dividend e) hpos
    have hr : (UInt64.ofNat (dividend e % (e.read inst.src1).toNat)).toNat =
        dividend e % (e.read inst.src1).toNat :=
      UInt64.toNat_ofNat_of_lt (hmod.trans (e.read inst.src1).toNat_lt)
    rw [DivRight, RefusedOrRight, executeInst_divRR io e inst nextIp hd]
    dsimp only
    rw [read_rax_result, read_rdx_result, hr, UInt64.toNat_ofNat', ← dividend_lt_iff,
      ← div_mod_exact_iff hpos (by decide), or_iff_right hd]
    constructor
    · intro h
      obtain ⟨⟨msg, hmsg⟩, -⟩ | ⟨-, hright, -⟩ := h
      · cases hmsg
      · exact hright
    · intro h
      exact .inr ⟨rfl, h, hmod⟩

/-! ## Signed -/

/-- The dividend that the signed division assembles. -/
def assembled (hi lo : BemiWord) : BitVec 128 :=
  (hi.toBitVec.signExtend 128 <<< 64) ||| lo.toBitVec.signExtend 128

lemma msb_toBitVec (x : BemiWord) : x.toBitVec.msb = topBit x :=
  BitVec.msb_eq_getLsbD_last _

/-- Bit 63 set: the sign bits of the lower half cover the upper half. -/
lemma assembled_of_topBit (hi : BemiWord) {lo : BemiWord} (h : topBit lo = true) :
    assembled hi lo = lo.toBitVec.signExtend 128 := by
  apply BitVec.eq_of_getLsbD_eq
  intro i hi128
  rw [assembled, BitVec.getLsbD_or, BitVec.getLsbD_shiftLeft, BitVec.getLsbD_signExtend,
    BitVec.getLsbD_signExtend, (msb_toBitVec lo).trans h]
  by_cases hlow : i < 64
  · simp [hlow]
  · simp [hlow, hi128]

/-- Bit 63 clear: the halves are joined. -/
lemma assembled_of_not_topBit (hi : BemiWord) {lo : BemiWord} (h : topBit lo = false) :
    assembled hi lo = hi.toBitVec ++ lo.toBitVec := by
  apply BitVec.eq_of_getLsbD_eq
  intro i hi128
  rw [assembled, BitVec.getLsbD_or, BitVec.getLsbD_shiftLeft, BitVec.getLsbD_signExtend,
    BitVec.getLsbD_signExtend, (msb_toBitVec lo).trans h, BitVec.getLsbD_append]
  by_cases hlow : i < 64
  · simp [hlow, hi128]
  · have hupper : i - 64 < 64 := by omega
    have hupper' : i - 64 < 128 := by omega
    simp [hlow, hi128, hupper, hupper']

lemma toInt_assembled (hi lo : BemiWord) :
    (assembled hi lo).toInt =
      if topBit lo then lo.toInt64.toInt else hi.toInt64.toInt * 2 ^ 64 + lo.toNat := by
  cases h : topBit lo with
  | true =>
    rw [assembled_of_topBit hi h, if_pos rfl]
    exact BitVec.toInt_signExtend_of_le (by decide)
  | false =>
    rw [assembled_of_not_topBit hi h, if_neg (by decide), BitVec.toInt_append, if_neg (by decide),
      Int.mul_comm]
    rfl

/-- The signed value of a word that was cut off. -/
lemma toInt_setWidth (x : BitVec 128) :
    (⟨x.setWidth 64⟩ : UInt64).toInt64.toInt = x.toInt.bmod (2 * 2 ^ 63) := by
  change (x.setWidth 64).toInt = _
  rw [BitVec.toInt_setWidth, BitVec.toInt_eq_toNat_bmod, Int.bmod_bmod_of_dvd (by decide)]
  rfl

lemma toInt64_ne_zero {d : BemiWord} (h : d ≠ 0) : d.toInt64.toInt ≠ 0 := by
  have hcases := sign_cases d
  have hpos := toNat_pos h
  have hlt := d.toNat_lt
  omega

/-- What the signed division leaves, unless it panics. -/
lemma executeInst_idivRR (e : Executor M) (inst : MicroOpInst) (nextIp : Option BemiWord)
    (h : e.read inst.src1 ≠ 0) :
    let x := assembled (e.read .rdx) (e.read .rax)
    let d := (e.read inst.src1).toBitVec.signExtend 128
    executeInst io e { inst with code := .idivRR } nextIp =
      if x = BitVec.intMin 128 ∧ d = BitVec.allOnes 128 then (e, .panic)
      else ((e.write .rax ⟨(x.sdiv d).setWidth 64⟩).write .rdx ⟨(x.srem d).setWidth 64⟩,
        .ok nextIp) := by
  have hd : ¬ (e.read inst.src1).toBitVec = 0 := fun h0 => h (UInt64.toBitVec_inj.mp h0)
  exact if_neg hd

lemma signedDividend_eq (e : Executor M) :
    signedDividend e = (assembled (e.read .rdx) (e.read .rax)).toInt ∨ topBit (e.read .rax) = true := by
  cases h : topBit (e.read .rax) with
  | true => exact .inr rfl
  | false =>
    rw [toInt_assembled, h]
    exact .inl rfl

/-- A remainder by a 64-bit divisor is not cut off. -/
lemma tmod_bmod (A : ℤ) {d : BemiWord} (h : d ≠ 0) :
    (A.tmod d.toInt64.toInt).bmod (2 * 2 ^ 63) = A.tmod d.toInt64.toInt := by
  have hsign := sign_cases d
  have hd64 := d.toNat_lt
  have hd : |d.toInt64.toInt| ≤ 2 ^ 63 := abs_le.mpr (by omega)
  have hlt := abs_lt.mp ((abs_tmod_lt A (toInt64_ne_zero h)).trans_le hd)
  rw [bmod_eq_self_iff _ _ (by decide)]
  omega

/-- Where the signed division panics, the equation is wrong too. -/
lemma panic_wrong (e : Executor M) {d : ℤ}
    (hA : (assembled (e.read .rdx) (e.read .rax)).toInt = -2 ^ 127) (hd : d = -1) :
    signedDividend e ≠ ((-2 ^ 127 : ℤ).tdiv d).bmod (2 * 2 ^ 63) * d + (-2 ^ 127 : ℤ).tmod d := by
  have hzero : ((-2 ^ 127 : ℤ).tdiv d).bmod (2 * 2 ^ 63) * d + (-2 ^ 127 : ℤ).tmod d = 0 := by
    rw [hd]
    decide
  rw [hzero]
  obtain hD | htop := signedDividend_eq e
  · rw [hD, hA]
    decide
  · have hlow := sign_cases (e.read .rax)
    rw [toInt_assembled, if_pos htop] at hA
    omega

/-- A signed division is right exactly when the equation holds for what it assembles. -/
lemma idivRight_iff_assembled (e : Executor M) (inst : MicroOpInst) (nextIp : Option BemiWord)
    (h : e.read inst.src1 ≠ 0) {A d : ℤ}
    (hA : (assembled (e.read .rdx) (e.read .rax)).toInt = A)
    (hd : (e.read inst.src1).toInt64.toInt = d) :
    IdivRight io e inst nextIp ↔
      signedDividend e = (A.tdiv d).bmod (2 * 2 ^ 63) * d + A.tmod d ∧
        (A.tmod d = 0 ∨ (A.tmod d).sign = (signedDividend e).sign) := by
  have hne : d ≠ 0 := hd ▸ toInt64_ne_zero h
  have hext : ((e.read inst.src1).toBitVec.signExtend 128).toInt = d :=
    (BitVec.toInt_signExtend_of_le (by decide)).trans hd
  have hr : (A.tmod d).bmod (2 * 2 ^ 63) = A.tmod d := hd ▸ tmod_bmod A h
  rw [IdivRight, RefusedOrRight, executeInst_idivRR io e inst nextIp h, hd]
  dsimp only
  split_ifs with hpanic
  · obtain ⟨hmin, hones⟩ := hpanic
    rw [hmin] at hA
    rw [hones] at hext
    apply iff_of_false
    · intro hright
      obtain ⟨⟨msg, hmsg⟩, -⟩ | ⟨hok, -⟩ := hright
      · cases hmsg
      · cases hok
    · intro hright
      have hmin' : A = -2 ^ 127 := hA.symm
      rw [hmin'] at hright
      exact panic_wrong e (congrArg BitVec.toInt hmin) hext.symm hright.1
  · have hq (x y : BitVec 128) : (x.sdiv y).toInt.bmod (2 * 2 ^ 63) =
        (x.toInt.tdiv y.toInt).bmod (2 * 2 ^ 63) := by
      rw [BitVec.toInt_sdiv, Int.bmod_bmod_of_dvd (by decide)]
    dsimp only
    rw [read_rax_result, read_rdx_result, toInt_setWidth, toInt_setWidth, hq, BitVec.toInt_srem,
      hext, hA, hr]
    constructor
    · intro hright
      obtain ⟨⟨msg, hmsg⟩, -⟩ | ⟨-, heq, -, hsign⟩ := hright
      · cases hmsg
      · exact ⟨heq, hsign⟩
    · intro hright
      exact .inr ⟨rfl, hright.1, abs_tmod_lt A hne, hright.2⟩

/-- The signed division is given the dividend that the registers hold. -/
def DividendKept (hi lo : BemiWord) : Prop :=
  lo < 0x8000000000000000 ∨ hi = 0xFFFFFFFFFFFFFFFF

/-- The one division of a wrong dividend that comes out right: `2 ^ 63` by -1. -/
def Repaired (hi lo d : BemiWord) : Prop :=
  hi = 0 ∧ lo = 0x8000000000000000 ∧ d = 0xFFFFFFFFFFFFFFFF

lemma eq_minus_one_iff (x : BemiWord) : x = 0xFFFFFFFFFFFFFFFF ↔ x.toInt64.toInt = -1 := by
  have hsign := sign_cases x
  have hlt := x.toNat_lt
  rw [← UInt64.toNat_inj]
  change x.toNat = 2 ^ 64 - 1 ↔ _
  omega

lemma lt_top_iff (x : BemiWord) : x < 0x8000000000000000 ↔ topBit x = false := by
  rw [UInt64.lt_iff_toNat_lt, ← Bool.not_eq_true, topBit_iff, Nat.not_le]
  exact Iff.rfl

/-- Bit 63 of RAX set and RDX not all ones: the wrong dividend. -/
lemma dividendKept_iff (e : Executor M) :
    DividendKept (e.read .rdx) (e.read .rax) ↔
      (assembled (e.read .rdx) (e.read .rax)).toInt = signedDividend e := by
  have hlo := sign_cases (e.read .rax)
  rw [DividendKept, lt_top_iff, eq_minus_one_iff, toInt_assembled, signedDividend]
  cases h : topBit (e.read .rax) with
  | true =>
    rw [if_pos rfl, or_iff_right (by decide)]
    rw [topBit_iff] at h
    omega
  | false => exact iff_of_true (.inl rfl) (if_neg (by decide))

lemma repaired_iff (e : Executor M) (d : BemiWord)
    (h : ¬ DividendKept (e.read .rdx) (e.read .rax)) :
    Repaired (e.read .rdx) (e.read .rax) d ↔
      (assembled (e.read .rdx) (e.read .rax)).toInt = -((2 ^ 63 : ℕ) : ℤ) ∧
        d.toInt64.toInt = -1 ∧ signedDividend e = (2 ^ 63 : ℕ) := by
  have hlo := sign_cases (e.read .rax)
  have hhi := sign_cases (e.read .rdx)
  have hlt := (e.read .rdx).toNat_lt
  have htop : topBit (e.read .rax) = true := by
    rw [DividendKept, not_or, lt_top_iff, Bool.not_eq_false] at h
    exact h.1
  rw [Repaired, eq_minus_one_iff, toInt_assembled, if_pos htop, signedDividend,
    ← UInt64.toNat_inj, ← UInt64.toNat_inj]
  change (e.read .rdx).toNat = 0 ∧ (e.read .rax).toNat = 2 ^ 63 ∧ _ ↔ _
  push_cast
  omega

lemma toInt_assembled_range (e : Executor M) (h : ¬ DividendKept (e.read .rdx) (e.read .rax)) :
    -((2 ^ 63 : ℕ) : ℤ) ≤ (assembled (e.read .rdx) (e.read .rax)).toInt ∧
      (assembled (e.read .rdx) (e.read .rax)).toInt < (2 ^ 63 : ℕ) := by
  have hlo := sign_cases (e.read .rax)
  have hlt := (e.read .rax).toNat_lt
  rw [DividendKept, not_or, lt_top_iff, Bool.not_eq_false] at h
  rw [toInt_assembled, if_pos h.1]
  omega

lemma idivRight_iff (e : Executor M) (inst : MicroOpInst) (nextIp : Option BemiWord) :
    IdivRight io e inst nextIp ↔
      e.read inst.src1 = 0 ∨
        Fits (2 ^ 63) (signedDividend e) (e.read inst.src1).toInt64.toInt ∧
          (DividendKept (e.read .rdx) (e.read .rax) ∨
            Repaired (e.read .rdx) (e.read .rax) (e.read inst.src1)) := by
  by_cases hd : e.read inst.src1 = 0
  · have hrefused : executeInst io e { inst with code := .idivRR } nextIp =
        (e, .err "Signed division by zero") := if_pos (congrArg UInt64.toBitVec hd)
    rw [IdivRight, RefusedOrRight, hrefused]
    exact iff_of_true (.inl ⟨⟨_, rfl⟩, rfl⟩) (.inl hd)
  have hne := toInt64_ne_zero hd
  rw [idivRight_iff_assembled io e inst nextIp hd rfl rfl, or_iff_right hd]
  by_cases hkept : DividendKept (e.read .rdx) (e.read .rax)
  · have hright := tdiv_bmod_exact_iff (D := signedDividend e) (m := 2 ^ 63) (by decide) hne
    rw [(dividendKept_iff e).mp hkept, hright, and_iff_left (tmod_sign _ _),
      and_iff_left (.inl hkept)]
    exact Iff.rfl
  · have hwrong := mt (dividendKept_iff e).mpr hkept
    have hrange := toInt_assembled_range e hkept
    rw [wrong_dividend_iff hne hrange.1 hrange.2 hwrong, ← repaired_iff e _ hkept,
      or_iff_right hkept]
    constructor
    · intro h
      obtain ⟨-, hminus, hD⟩ := (repaired_iff e _ hkept).mp h.1
      refine ⟨?_, h.1⟩
      rw [hminus, hD]
      decide
    · intro h
      obtain ⟨hA, hminus, -⟩ := (repaired_iff e _ hkept).mp h.2
      refine ⟨h.2, .inl ?_⟩
      rw [hA, hminus]
      decide

/-! ## Both -/

/-- An unsigned division is refused or exact if and only if the divisor is 0 or above RDX. A signed
one is if and only if the divisor is 0, or the quotient of RDX:RAX fits 64 bits and either the
dividend is not spoiled by bit 63 of RAX or it is `2 ^ 63`, divided by -1. -/
theorem division_right_iff (e : Executor M) (inst : MicroOpInst) (nextIp : Option BemiWord) :
    (DivRight io e inst nextIp ↔ e.read inst.src1 = 0 ∨ e.read .rdx < e.read inst.src1) ∧
      (IdivRight io e inst nextIp ↔
        e.read inst.src1 = 0 ∨
          Fits (2 ^ 63) (signedDividend e) (e.read inst.src1).toInt64.toInt ∧
            (DividendKept (e.read .rdx) (e.read .rax) ∨
              Repaired (e.read .rdx) (e.read .rax) (e.read inst.src1))) :=
  ⟨divRight_iff io e inst nextIp, idivRight_iff io e inst nextIp⟩

/-- `2 ^ 64` divided by 1 leaves the quotient 0. -/
theorem division_right_not : ¬ ∀ (e : Executor Unit) (inst : MicroOpInst),
    DivRight ⟨none, none⟩ e inst none ∧ IdivRight ⟨none, none⟩ e inst none := by
  intro h
  have hdiv := (h ⟨(RegisterFile.new.write .rdx 1).write .rbx 1, ()⟩
    (.new .divRR .rNone .rbx .rNone 0)).1
  obtain ⟨⟨msg, hmsg⟩, -⟩ | ⟨-, hright, -⟩ := hdiv
  · exact absurd hmsg nofun
  · exact absurd hright (by decide)

end Bemi.Dbt
