import Mathlib.Tactic.Common
import Mathlib.Algebra.GroupWithZero.Nat

/-!
# Parts of a 64-bit register

The parts of a general register that an x86 operand can name. Reading a part gives its bits;
writing one follows the x86 rule: 8- and 16-bit parts leave the other bits, a 32-bit part clears the
upper half. `put_eq_iff` says when a whole register is what writing a part leaves.
-/

namespace Parts

inductive Part where
  | low8 | high8 | low16 | low32 | full
  deriving DecidableEq, Repr

namespace Part

/-- The number of bits. -/
def bits : Part → Nat
  | low8 | high8 => 8
  | low16 => 16
  | low32 => 32
  | full => 64

/-- The first bit. -/
def offset : Part → Nat
  | high8 => 8
  | _ => 0

def get (p : Part) (x : UInt64) : UInt64 :=
  UInt64.ofNat (x.toNat / 2 ^ p.offset % 2 ^ p.bits)

/-- The bits of a value that fit the part. -/
def trunc (p : Part) (v : UInt64) : UInt64 :=
  UInt64.ofNat (v.toNat % 2 ^ p.bits)

/-- The register `old` after `v` has been written to the part. -/
def put (p : Part) (old v : UInt64) : UInt64 :=
  match p with
  | low8 => UInt64.ofNat (old.toNat / 2 ^ 8 * 2 ^ 8 + v.toNat % 2 ^ 8)
  | high8 =>
    UInt64.ofNat (old.toNat / 2 ^ 16 * 2 ^ 16 + v.toNat % 2 ^ 8 * 2 ^ 8 + old.toNat % 2 ^ 8)
  | low16 => UInt64.ofNat (old.toNat / 2 ^ 16 * 2 ^ 16 + v.toNat % 2 ^ 16)
  | low32 => UInt64.ofNat (v.toNat % 2 ^ 32)
  | full => v

/-- The low bits of the part's width, as a signed number extended to 64 bits. -/
def signExtend (p : Part) (v : UInt64) : UInt64 :=
  ⟨(v.toBitVec.setWidth p.bits).signExtend 64⟩

/-- Outside the part `r` is what a write leaves of `old`. -/
def Keeps (p : Part) (old r : UInt64) : Prop :=
  match p with
  | low8 => r.toNat / 2 ^ 8 = old.toNat / 2 ^ 8
  | high8 => r.toNat / 2 ^ 16 = old.toNat / 2 ^ 16 ∧ r.toNat % 2 ^ 8 = old.toNat % 2 ^ 8
  | low16 => r.toNat / 2 ^ 16 = old.toNat / 2 ^ 16
  | low32 => r.toNat < 2 ^ 32
  | full => True

instance (p : Part) (old r : UInt64) : Decidable (p.Keeps old r) :=
  match p with
  | low8 => inferInstanceAs (Decidable (_ = _))
  | high8 => inferInstanceAs (Decidable (_ ∧ _))
  | low16 => inferInstanceAs (Decidable (_ = _))
  | low32 => inferInstanceAs (Decidable (_ < _))
  | full => inferInstanceAs (Decidable True)

lemma toNat_get (p : Part) (x : UInt64) :
    (p.get x).toNat = x.toNat / 2 ^ p.offset % 2 ^ p.bits := by
  have := x.toNat_lt
  cases p <;> simp only [get, bits, offset, UInt64.toNat_ofNat'] <;> omega

lemma toNat_trunc (p : Part) (v : UInt64) : (p.trunc v).toNat = v.toNat % 2 ^ p.bits := by
  have := v.toNat_lt
  cases p <;> simp only [trunc, bits, UInt64.toNat_ofNat'] <;> omega

@[simp] lemma get_full (x : UInt64) : full.get x = x := by
  apply UInt64.toNat_inj.mp
  rw [toNat_get]
  simp only [bits, offset, Nat.pow_zero, Nat.div_one]
  exact Nat.mod_eq_of_lt x.toNat_lt

/-- But for the second byte, reading a part is cutting the register off. -/
lemma get_eq_trunc {p : Part} (h : p ≠ high8) (x : UInt64) : p.get x = p.trunc x := by
  apply UInt64.toNat_inj.mp
  rw [toNat_get, toNat_trunc]
  cases p with
  | high8 => exact absurd rfl h
  | _ => simp only [offset, Nat.pow_zero, Nat.div_one]

lemma trunc_get {p q : Part} (h : p.bits ≤ q.bits) (x : UInt64) : q.trunc (p.get x) = p.get x := by
  apply UInt64.toNat_inj.mp
  rw [toNat_trunc, toNat_get]
  exact Nat.mod_eq_of_lt (Nat.lt_of_lt_of_le (Nat.mod_lt _ (Nat.two_pow_pos _))
    (Nat.pow_le_pow_right (by decide) h))

/-- Parts of one width other than the second byte are the same. -/
lemma eq_of_bits {p q : Part} (h : p.bits = q.bits) (hp : p ≠ high8) (hq : q ≠ high8) : p = q := by
  cases p <;> cases q <;> first | rfl | contradiction

lemma trunc_eq_iff (p : Part) (x y : UInt64) :
    p.trunc x = p.trunc y ↔ x.toNat % 2 ^ p.bits = y.toNat % 2 ^ p.bits := by
  rw [← UInt64.toNat_inj, toNat_trunc, toNat_trunc]

@[simp] lemma trunc_trunc (p : Part) (x : UInt64) : p.trunc (p.trunc x) = p.trunc x := by
  rw [trunc_eq_iff, toNat_trunc, Nat.mod_mod]

lemma trunc_add (p : Part) (x y : UInt64) : p.trunc (x + y) = p.trunc (p.trunc x + p.trunc y) := by
  rw [trunc_eq_iff, UInt64.toNat_add, UInt64.toNat_add, toNat_trunc, toNat_trunc]
  cases p <;> simp only [bits] <;> omega

lemma trunc_sub (p : Part) (x y : UInt64) : p.trunc (x - y) = p.trunc (p.trunc x - p.trunc y) := by
  rw [trunc_eq_iff, UInt64.toNat_sub, UInt64.toNat_sub, toNat_trunc, toNat_trunc]
  have := x.toNat_lt
  have := y.toNat_lt
  cases p <;> simp only [bits] <;> omega

lemma trunc_and (p : Part) (x y : UInt64) :
    p.trunc (x &&& y) = p.trunc (p.trunc x &&& p.trunc y) := by
  rw [trunc_eq_iff, UInt64.toNat_and, UInt64.toNat_and, toNat_trunc, toNat_trunc,
    ← Nat.and_mod_two_pow, Nat.mod_mod]

lemma trunc_or (p : Part) (x y : UInt64) :
    p.trunc (x ||| y) = p.trunc (p.trunc x ||| p.trunc y) := by
  rw [trunc_eq_iff, UInt64.toNat_or, UInt64.toNat_or, toNat_trunc, toNat_trunc,
    ← Nat.or_mod_two_pow, Nat.mod_mod]

lemma trunc_xor (p : Part) (x y : UInt64) :
    p.trunc (x ^^^ y) = p.trunc (p.trunc x ^^^ p.trunc y) := by
  rw [trunc_eq_iff, UInt64.toNat_xor, UInt64.toNat_xor, toNat_trunc, toNat_trunc,
    ← Nat.xor_mod_two_pow, Nat.mod_mod]

/-- The sign is above the bits that are extended. -/
lemma trunc_signExtend {p q : Part} (h : q.bits ≤ p.bits) (x : UInt64) :
    q.trunc (p.signExtend x) = q.trunc x := by
  have hq : q.bits ≤ 64 := by cases q <;> decide
  have hbits : (((x.toBitVec.setWidth p.bits).signExtend 64).setWidth q.bits) =
      x.toBitVec.setWidth q.bits := by
    ext i hi
    simp [BitVec.getElem_signExtend, show i < p.bits by omega, show i < 64 by omega]
  rw [trunc_eq_iff]
  have hnat := congrArg BitVec.toNat hbits
  rwa [BitVec.toNat_setWidth, BitVec.toNat_setWidth] at hnat

/-- Extending what a part has been cut off to is extending the register. -/
lemma signExtend_get {p : Part} (h : p ≠ high8) (x : UInt64) :
    p.signExtend (p.get x) = p.signExtend x := by
  have hbits : (p.get x).toBitVec.setWidth p.bits = x.toBitVec.setWidth p.bits := by
    apply BitVec.eq_of_toNat_eq
    rw [BitVec.toNat_setWidth, BitVec.toNat_setWidth, UInt64.toNat_toBitVec, UInt64.toNat_toBitVec,
      get_eq_trunc h, toNat_trunc, Nat.mod_mod]
  rw [signExtend, signExtend, hbits]

/-- A register is what writing a part leaves when it has the value in the part and keeps the rest. -/
theorem eq_put_iff (p : Part) (old v r : UInt64) :
    r = p.put old v ↔ p.get r = p.trunc v ∧ p.Keeps old r := by
  rw [← UInt64.toNat_inj, ← UInt64.toNat_inj, toNat_get, toNat_trunc]
  have := old.toNat_lt
  have := v.toNat_lt
  have := r.toNat_lt
  cases p with
  | full => simp only [put, Keeps, bits, offset, and_true]; omega
  | _ => simp only [put, Keeps, bits, offset, UInt64.toNat_ofNat']; omega

end Part

end Parts
