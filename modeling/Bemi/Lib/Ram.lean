import Mathlib.Tactic.Common
import Mathlib.Algebra.GroupWithZero.Nat

/-!
# Byte-addressed memory

A 64-bit address space of bytes with 64-bit little-endian accesses. A load gives back what was
stored at its address, and a store is not seen by loads at addresses apart from its own.
-/

namespace Ram

/-- One byte for each address. -/
abbrev Bytes := UInt64 → UInt8

/-- The number in `n` bytes from `a`, least significant byte first. -/
def number (m : Bytes) (a : UInt64) : Nat → Nat
  | 0 => 0
  | n + 1 => number m a n + (m (a + UInt64.ofNat n)).toNat * 256 ^ n

def load64 (m : Bytes) (a : UInt64) : UInt64 :=
  UInt64.ofNat (number m a 8)

def store64 (m : Bytes) (a v : UInt64) : Bytes :=
  fun b => if (b - a).toNat < 8 then UInt8.ofNat (v.toNat / 256 ^ (b - a).toNat) else m b

/-- Store `size` bytes, given by their distance from `a`. -/
def storeBytes (m : Bytes) (a : UInt64) (data : Nat → UInt8) (size : Nat) : Bytes :=
  fun b => if (b - a).toNat < size then data (b - a).toNat else m b

/-- The eight bytes at `a` and those at `b` do not overlap. -/
def Apart (a b : UInt64) : Prop :=
  8 ≤ (b - a).toNat ∧ 8 ≤ (a - b).toNat

instance (a b : UInt64) : Decidable (Apart a b) :=
  inferInstanceAs (Decidable (_ ∧ _))

lemma store64_of_not_within (m : Bytes) {a x : UInt64} (v : UInt64) (h : ¬ (x - a).toNat < 8) :
    store64 m a v x = m x :=
  if_neg h

/-! ## Accesses of any size -/

/-- The address is one of the `n` from `a` on. -/
def Within (a : UInt64) (n : Nat) (x : UInt64) : Prop :=
  (x - a).toNat < n

lemma within_iff {a x : UInt64} {n : Nat} (h : a.toNat + n ≤ 2 ^ 64) :
    Within a n x ↔ a.toNat ≤ x.toNat ∧ x.toNat < a.toNat + n := by
  have ha := a.toNat_lt
  have hx := x.toNat_lt
  rw [Within, UInt64.toNat_sub]
  omega

/-- Ranges one behind the other have no address in common. -/
lemma Within.not_within {a b x : UInt64} {n k : Nat} (hx : Within a n x) (ha : a.toNat + n ≤ 2 ^ 64)
    (hb : b.toNat + k ≤ 2 ^ 64) (h : a.toNat + n ≤ b.toNat ∨ b.toNat + k ≤ a.toNat) :
    ¬ Within b k x := by
  rw [within_iff ha] at hx
  rw [within_iff hb]
  omega

/-- The bytes of a part of a field are bytes of the field. -/
lemma Within.of_offset {a i x : UInt64} {k n : Nat} (h : Within (a + i) k x)
    (hn : i.toNat + k ≤ n) : Within a n x := by
  have ha := a.toNat_lt
  have hx := x.toNat_lt
  have hi := i.toNat_lt
  rw [Within, UInt64.toNat_sub, UInt64.toNat_add] at h
  rw [Within, UInt64.toNat_sub]
  omega

/-- The `n` bytes below an address. -/
def Below (a : UInt64) (n : Nat) (x : UInt64) : Prop :=
  Within (a - UInt64.ofNat n) n x

/-- The bytes below an address are those that come last when one counts upwards from it. -/
lemma below_iff {a x : UInt64} {n : Nat} : Below a n x ↔ 2 ^ 64 ≤ (x - a).toNat + n := by
  have ha := a.toNat_lt
  have hx := x.toNat_lt
  rw [Below, Within, UInt64.toNat_sub, UInt64.toNat_sub, UInt64.toNat_sub, UInt64.toNat_ofNat']
  omega

/-- The bytes from an address on are not below it. -/
lemma not_below_of_within {a x : UInt64} {k n : Nat} (h : n + k ≤ 2 ^ 64) (hx : Within a k x) :
    ¬ Below a n x := by
  rw [Within] at hx
  rw [below_iff]
  omega

/-- Going down in two steps. -/
lemma not_below_add {a x : UInt64} {k n : Nat} (h : n + k ≤ 2 ^ 64) (hx : ¬ Below a (n + k) x) :
    ¬ Within (a - UInt64.ofNat k) k x ∧ ¬ Below (a - UInt64.ofNat k) n x := by
  have ha := a.toNat_lt
  have hxlt := x.toNat_lt
  rw [below_iff, UInt64.toNat_sub] at hx
  rw [below_iff, Within, UInt64.toNat_sub, UInt64.toNat_sub, UInt64.toNat_ofNat']
  omega

/-- `size` bytes of a number. -/
def store (m : Bytes) (a : UInt64) (size v : Nat) : Bytes :=
  storeBytes m a (fun k => UInt8.ofNat (v / 256 ^ k)) size

lemma store_of_not_within (m : Bytes) {a x : UInt64} {size : Nat} (v : Nat)
    (h : ¬ Within a size x) : store m a size v x = m x :=
  if_neg h

lemma store_zero (m : Bytes) {a x : UInt64} {size : Nat} (h : Within a size x) :
    store m a size 0 x = 0 := by
  have hbyte : store m a size 0 x = UInt8.ofNat (0 / 256 ^ (x - a).toNat) := if_pos h
  rw [hbyte, Nat.zero_div]
  rfl

/-- Only the bytes of a number matter to it. -/
lemma number_congr {m m' : Bytes} {a : UInt64} {n : Nat} (h : ∀ x, Within a n x → m' x = m x) :
    number m' a n = number m a n := by
  induction n with
  | zero => rfl
  | succ n ih =>
    have hlast : Within a (n + 1) (a + UInt64.ofNat n) := by
      rw [Within, UInt64.add_comm, UInt64.add_sub_cancel, UInt64.toNat_ofNat']
      exact Nat.lt_succ_of_le (Nat.mod_le _ _)
    rw [number, number, ih fun x hx => h x (Nat.lt_succ_of_lt hx), h _ hlast]

lemma number_zero {m : Bytes} {a : UInt64} {n : Nat} (h : ∀ x, Within a n x → m x = 0) :
    number m a n = 0 := by
  have hzero (k : Nat) : number (fun _ => 0) a k = 0 := by
    induction k with
    | zero => rfl
    | succ k ih => rw [number, ih, UInt8.toNat_zero, Nat.zero_mul]
  rw [number_congr h, hzero]

/-- The bytes of 0 are 0. -/
lemma byte_of_number_zero {m : Bytes} {a x : UInt64} {n : Nat} (h : number m a n = 0)
    (hx : Within a n x) : m x = 0 := by
  induction n with
  | zero => exact absurd hx (Nat.not_lt_zero _)
  | succ n ih =>
    rw [number] at h
    have hbyte := (Nat.mul_eq_zero.mp (Nat.eq_zero_of_add_eq_zero_left h)).resolve_right
      (Nat.ne_of_gt (Nat.pow_pos (by decide)))
    rcases Nat.lt_succ_iff_lt_or_eq.mp hx with hlt | heq
    · exact ih (Nat.eq_zero_of_add_eq_zero_right h) hlt
    · have hlast : a + UInt64.ofNat n = x := by
        rw [← heq, UInt64.ofNat_toNat, UInt64.add_comm, UInt64.sub_add_cancel]
      rw [hlast] at hbyte
      exact UInt8.toNat_inj.mp hbyte

lemma number_lt (m : Bytes) (a : UInt64) (n : Nat) : number m a n < 256 ^ n := by
  induction n with
  | zero => exact Nat.one_pos
  | succ n ih =>
    have hbyte : (m (a + UInt64.ofNat n)).toNat * 256 ^ n ≤ 255 * 256 ^ n :=
      Nat.mul_le_mul_right _ (Nat.le_of_lt_succ (m (a + UInt64.ofNat n)).toNat_lt)
    rw [number, Nat.pow_succ]
    omega

/-- The low bytes of the number just stored. -/
lemma number_store_low (m : Bytes) (a : UInt64) {size n : Nat} (v : Nat) (hsize : size < 2 ^ 64)
    (hn : n ≤ size) : number (store m a size v) a n = v % 256 ^ n := by
  induction n with
  | zero => simp [number, Nat.mod_one]
  | succ n ih =>
    have hoff : (a + UInt64.ofNat n - a).toNat = n := by
      rw [UInt64.add_comm, UInt64.add_sub_cancel, UInt64.toNat_ofNat']
      omega
    have hdigit : v % 256 ^ (n + 1) = v % 256 ^ n + 256 ^ n * (v / 256 ^ n % 256) := by
      rw [Nat.pow_succ, Nat.mod_mul]
    rw [number, ih (by omega), store, storeBytes, hoff, if_pos (by omega), UInt8.toNat_ofNat',
      hdigit, Nat.mul_comm (256 ^ n)]

lemma number_store_self (m : Bytes) (a : UInt64) {size : Nat} (v : Nat) (hsize : size < 2 ^ 64) :
    number (store m a size v) a size = v % 256 ^ size :=
  number_store_low m a v hsize (Nat.le_refl size)

/-- A load gives back what was stored. -/
theorem load64_store64 (m : Bytes) (a v : UInt64) : load64 (store64 m a v) a = v := by
  have hnumber : number (store64 m a v) a 8 = v.toNat % 256 ^ 8 :=
    number_store_self m a v.toNat (by decide)
  apply UInt64.toNat_inj.mp
  rw [load64, hnumber, UInt64.toNat_ofNat']
  have := v.toNat_lt
  omega

lemma Apart.not_within {a b x : UInt64} (h : Apart a b) (hx : Within b 8 x) : ¬ Within a 8 x := by
  have ha := a.toNat_lt
  have hb := b.toNat_lt
  have hxlt := x.toNat_lt
  rw [Apart, UInt64.toNat_sub, UInt64.toNat_sub] at h
  rw [Within, UInt64.toNat_sub] at hx ⊢
  omega

/-- A store is not seen by loads apart from it. -/
theorem load64_store64_apart (m : Bytes) {a b : UInt64} (v : UInt64) (h : Apart a b) :
    load64 (store64 m a v) b = load64 m b :=
  congrArg UInt64.ofNat (number_congr fun _ hx => store64_of_not_within m v (h.not_within hx))

/-- A store into one field of a record is not seen by another field. -/
lemma number_store_field (m : Bytes) (a : UInt64) {i j : UInt64} {k n : Nat} (v : Nat)
    (h : i.toNat + k ≤ j.toNat ∨ j.toNat + n ≤ i.toNat) (hi : i.toNat + k ≤ 2 ^ 63)
    (hj : j.toNat + n ≤ 2 ^ 63) : number (store m (a + i) k v) (a + j) n = number m (a + j) n := by
  refine number_congr fun x hx => store_of_not_within m v fun hx' => ?_
  have ha := a.toNat_lt
  have hxlt := x.toNat_lt
  rw [Within, UInt64.toNat_sub, UInt64.toNat_add] at hx hx'
  omega

lemma load64_store_nat (m : Bytes) (a : UInt64) {v : Nat} (h : v < 256 ^ 8) :
    load64 (store m a 8 v) a = UInt64.ofNat v := by
  rw [load64, number_store_self m a v (by decide), Nat.mod_eq_of_lt h]

lemma load64_store (m : Bytes) (a v : UInt64) : load64 (store m a 8 v.toNat) a = v :=
  (load64_store_nat m a v.toNat_lt).trans UInt64.ofNat_toNat

-- from here on a store is known by the numbers that are loaded after it
attribute [irreducible] store

def load32 (m : Bytes) (a : UInt64) : UInt32 :=
  UInt32.ofNat (number m a 4)

lemma load32_store_nat (m : Bytes) (a : UInt64) {v : Nat} (h : v < 256 ^ 4) :
    load32 (store m a 4 v) a = UInt32.ofNat v := by
  rw [load32, number_store_self m a v (by decide), Nat.mod_eq_of_lt h]

lemma load32_store (m : Bytes) (a : UInt64) (v : UInt32) :
    load32 (store m a 4 v.toNat) a = v :=
  (load32_store_nat m a v.toNat_lt).trans UInt32.ofNat_toNat

/-- A byte that is a truth value. -/
def loadBool (m : Bytes) (a : UInt64) : Bool :=
  number m a 1 ≠ 0

lemma loadBool_store (m : Bytes) (a : UInt64) (v : Nat) (h : v < 256) :
    loadBool (store m a 1 v) a = decide (v ≠ 0) := by
  rw [loadBool, number_store_self m a v (by decide), Nat.pow_one, Nat.mod_eq_of_lt h]

/-! ## Fields of a record -/

section
variable (m : Bytes) (a : UInt64) {i j : UInt64} {k : Nat} (v : Nat)

lemma load64_store_field (h : i.toNat + k ≤ j.toNat ∨ j.toNat + 8 ≤ i.toNat)
    (hi : i.toNat + k ≤ 2 ^ 63) (hj : j.toNat + 8 ≤ 2 ^ 63) :
    load64 (store m (a + i) k v) (a + j) = load64 m (a + j) :=
  congrArg UInt64.ofNat (number_store_field m a v h hi hj)

lemma load32_store_field (h : i.toNat + k ≤ j.toNat ∨ j.toNat + 4 ≤ i.toNat)
    (hi : i.toNat + k ≤ 2 ^ 63) (hj : j.toNat + 4 ≤ 2 ^ 63) :
    load32 (store m (a + i) k v) (a + j) = load32 m (a + j) :=
  congrArg UInt32.ofNat (number_store_field m a v h hi hj)

lemma loadBool_store_field (h : i.toNat + k ≤ j.toNat ∨ j.toNat + 1 ≤ i.toNat)
    (hi : i.toNat + k ≤ 2 ^ 63) (hj : j.toNat + 1 ≤ 2 ^ 63) :
    loadBool (store m (a + i) k v) (a + j) = loadBool m (a + j) := by
  rw [loadBool, loadBool, number_store_field m a v h hi hj]

end

/-! ## Records in a row -/

lemma add_ofNat_zero_mul (a : UInt64) (k : Nat) : a + UInt64.ofNat (0 * k) = a := by
  rw [Nat.zero_mul]
  exact UInt64.add_zero a

lemma add_ofNat_succ_mul (a k : UInt64) (i : Nat) :
    a + UInt64.ofNat ((i + 1) * k.toNat) = a + k + UInt64.ofNat (i * k.toNat) := by
  rw [Nat.succ_mul, UInt64.ofNat_add, UInt64.ofNat_toNat, UInt64.add_comm (UInt64.ofNat _),
    UInt64.add_assoc]

/-- Record `i` of a row is within the row, whatever the stride. -/
lemma Within.of_record {a x : UInt64} {i n l stride : Nat}
    (h : Within (a + UInt64.ofNat (i * stride)) l x) (hl : l ≤ stride) (hi : i < n) :
    Within a (n * stride) x := by
  apply h.of_offset
  have hle : (i + 1) * stride ≤ n * stride := Nat.mul_le_mul_right stride hi
  have hmod : (UInt64.ofNat (i * stride)).toNat ≤ i * stride := by
    rw [UInt64.toNat_ofNat']
    exact Nat.mod_le _ _
  rw [Nat.succ_mul] at hle
  omega

/-- The records after the first one are within the row. -/
lemma Within.of_rest {a k x : UInt64} {n : Nat} (h : Within (a + k) (n * k.toNat) x) :
    Within a ((n + 1) * k.toNat) x := by
  apply h.of_offset
  rw [Nat.succ_mul]
  omega

/-- They are apart from the first one. -/
lemma Within.not_rest {a k x : UInt64} {n : Nat} (h : Within a k.toNat x)
    (hn : (n + 1) * k.toNat < 2 ^ 64) : ¬ Within (a + k) (n * k.toNat) x := by
  have hx := x.toNat_lt
  have ha := a.toNat_lt
  rw [Nat.succ_mul] at hn
  rw [Within, UInt64.toNat_sub] at h
  rw [Within, UInt64.toNat_sub, UInt64.toNat_add]
  omega

end Ram
