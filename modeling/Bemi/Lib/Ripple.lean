import Mathlib.Algebra.Order.Ring.Int
import Mathlib.Data.Nat.Digits.Defs
import Mathlib.Tactic.Ring
import Mathlib.Tactic.LinearCombination

/-!
# Ripple arithmetic

Sums and differences of numbers in base `B`, one limb after the other with a carry between them. Both
are `a + σ (b + c)`, with `σ = 1` for a sum and `σ = -1` for a difference. `carry` is the exact
carry out of a limb; a machine has a rule `next` of its own for it. `value_eq` is the value law of
the exact ripple, and `ripple_iff` says when another rule computes the same number: it must give the
exact carry at every limb, for the exact carry in.
-/

namespace Ripple

/-- One limb before it is reduced. -/
def total (σ : ℤ) (p : ℕ × ℕ) (c : Bool) : ℤ :=
  p.1 + σ * (p.2 + c.toNat)

def digit (σ : ℤ) (B : ℕ) (p : ℕ × ℕ) (c : Bool) : ℕ :=
  (total σ p c % B).toNat

/-- The exact carry out of a limb. -/
def carry (σ : ℤ) (B : ℕ) (p : ℕ × ℕ) (c : Bool) : Bool :=
  ¬ (0 ≤ total σ p c ∧ total σ p c < B)

/-- The limbs of the result when carries follow the rule `next`. -/
def digits (σ : ℤ) (B : ℕ) (next : ℕ × ℕ → Bool → Bool) : List (ℕ × ℕ) → Bool → List ℕ
  | [], _ => []
  | p :: l, c => digit σ B p c :: digits σ B next l (next p c)

/-- The carry out of the last limb. -/
def last (next : ℕ × ℕ → Bool → Bool) : List (ℕ × ℕ) → Bool → Bool
  | [], c => c
  | p :: l, c => last next l (next p c)

/-- What the whole of the limbs should come to. -/
def value (σ : ℤ) (B : ℕ) (l : List (ℕ × ℕ)) (c : Bool) : ℤ :=
  total σ (Nat.ofDigits B (l.map Prod.fst), Nat.ofDigits B (l.map Prod.snd)) c

section
variable {σ : ℤ} {B : ℕ}

lemma length_digits (next : ℕ × ℕ → Bool → Bool) (l : List (ℕ × ℕ)) (c : Bool) :
    (digits σ B next l c).length = l.length := by
  induction l generalizing c with
  | nil => rfl
  | cons p l ih => exact congrArg (· + 1) (ih _)

lemma value_cons (p : ℕ × ℕ) (l : List (ℕ × ℕ)) (c : Bool) :
    value σ B (p :: l) c = total σ p c + B * value σ B l false := by
  simp only [value, total, List.map_cons, Nat.ofDigits_cons, Nat.cast_add, Nat.cast_mul,
    Bool.toNat_false, Nat.cast_zero, add_zero]
  ring

lemma value_carry (l : List (ℕ × ℕ)) (c : Bool) :
    value σ B l c = value σ B l false + σ * c.toNat := by
  simp only [value, total, Bool.toNat_false, Nat.cast_zero, add_zero]
  ring

/-- A number is determined by its residue and by the one multiple of `N` it may be off by. -/
lemma eq_emod_iff (hσ : σ = 1 ∨ σ = -1) {x d N : ℤ} {k : Bool} (hd : 0 ≤ d) (hdN : d < N)
    (hx : x = d + σ * (N * k.toNat)) : d = x % N ∧ (k = true ↔ ¬ (0 ≤ x ∧ x < N)) := by
  constructor
  · have hfac : σ * (N * k.toNat) = N * (σ * k.toNat) := by ring
    rw [hx, hfac, Int.add_mul_emod_self_left, Int.emod_eq_of_lt hd hdN]
  · cases k with
    | false =>
      have hx' : x = d := by simpa using hx
      rw [hx']
      exact iff_of_false (by decide) (not_not.mpr ⟨hd, hdN⟩)
    | true =>
      have hx' : x = d + σ * N := by simpa using hx
      refine iff_of_true rfl fun h => ?_
      rcases hσ with rfl | rfl <;> omega

variable (hσ : σ = 1 ∨ σ = -1)
include hσ

/-- A limb is its digit and its carry. -/
lemma total_eq {p : ℕ × ℕ} (hp : p.1 < B ∧ p.2 < B) (c : Bool) :
    total σ p c = digit σ B p c + σ * (B * (carry σ B p c).toNat) := by
  have hB : (0 : ℤ) < B := by omega
  have hc : (c.toNat : ℤ) ≤ 1 := by cases c <;> decide
  have hmod : (digit σ B p c : ℤ) = total σ p c % B :=
    Int.toNat_of_nonneg (Int.emod_nonneg _ hB.ne')
  have hlow : -B ≤ total σ p c ∧ total σ p c < 2 * B := by
    rw [total]
    rcases hσ with rfl | rfl <;> omega
  rw [hmod]
  cases hcarry : carry σ B p c with
  | false =>
    have hfit : 0 ≤ total σ p c ∧ total σ p c < B := by simpa [carry] using hcarry
    rw [Int.emod_eq_of_lt hfit.1 hfit.2]
    simp
  | true =>
    have hfit : ¬ (0 ≤ total σ p c ∧ total σ p c < B) := of_decide_eq_true hcarry
    rcases hσ with rfl | rfl
    · have hnonneg : 0 ≤ total 1 p c := by rw [total]; omega
      rw [← Int.sub_emod_right, Int.emod_eq_of_lt (by omega) (by omega)]
      simp
    · have hneg : total (-1) p c < 0 := by
        by_contra h
        have : total (-1) p c < B := by rw [total]; omega
        exact hfit ⟨by omega, this⟩
      rw [← Int.add_emod_right, Int.emod_eq_of_lt (by omega) (by omega)]
      simp

/-- The two carries that can come in give different digits. -/
lemma digit_injective (hB : 1 < B) {p : ℕ × ℕ} {c c' : Bool} (h : digit σ B p c = digit σ B p c') :
    c = c' := by
  have hpos : (0 : ℤ) < B := by omega
  have hmod : total σ p c % B = total σ p c' % B := by
    rw [← Int.toNat_of_nonneg (Int.emod_nonneg _ hpos.ne'),
      ← Int.toNat_of_nonneg (Int.emod_nonneg (total σ p c') hpos.ne')]
    exact congrArg Nat.cast h
  have hdvd : (B : ℤ) ∣ total σ p c - total σ p c' :=
    Int.dvd_of_emod_eq_zero (Int.emod_eq_emod_iff_emod_sub_eq_zero.mp hmod)
  have hdiff : total σ p c - total σ p c' = σ * (c.toNat - c'.toNat) := by
    rw [total, total]
    ring
  rw [hdiff] at hdvd
  have hsmall : ¬ (B : ℤ) ∣ 1 := fun h => by
    have := Int.le_of_dvd one_pos h
    omega
  cases c <;> cases c'
  · rfl
  · refine absurd ?_ hsmall
    rcases hσ with rfl | rfl <;> simpa using hdvd
  · refine absurd ?_ hsmall
    rcases hσ with rfl | rfl <;> simpa using hdvd
  · rfl

/-- The value law of the exact ripple. -/
lemma value_eq {l : List (ℕ × ℕ)} (hl : ∀ p ∈ l, p.1 < B ∧ p.2 < B) (c : Bool) :
    value σ B l c =
      Nat.ofDigits B (digits σ B (carry σ B) l c) +
        σ * (B ^ l.length * (last (carry σ B) l c).toNat) := by
  induction l generalizing c with
  | nil => simp [value, total, digits, last]
  | cons p l ih =>
    obtain ⟨hp, hl⟩ := List.forall_mem_cons.mp hl
    have ih := ih hl (carry σ B p c)
    rw [value_carry] at ih
    rw [value_cons, total_eq hσ hp, digits, last, Nat.ofDigits_cons, Nat.cast_add, Nat.cast_mul,
      List.length_cons, pow_succ]
    linear_combination (B : ℤ) * ih

omit hσ in
lemma digits_lt (hB : 0 < B) (next : ℕ × ℕ → Bool → Bool) (l : List (ℕ × ℕ)) (c : Bool) :
    ∀ d ∈ digits σ B next l c, d < B := by
  have hpos : (0 : ℤ) < B := by omega
  induction l generalizing c with
  | nil => exact fun d hd => nomatch hd
  | cons p l ih =>
    refine List.forall_mem_cons.mpr ⟨?_, ih _⟩
    have hlt := Int.emod_lt_of_pos (total σ p c) hpos
    have hnonneg := Int.emod_nonneg (total σ p c) hpos.ne'
    rw [digit]
    omega

/-- The exact ripple computes the number modulo `B ^ n`, and its last carry says whether the number
fits. -/
lemma exact_ripple (hB : 1 < B) {l : List (ℕ × ℕ)} (hl : ∀ p ∈ l, p.1 < B ∧ p.2 < B) (c : Bool) :
    ((Nat.ofDigits B (digits σ B (carry σ B) l c) : ℕ) : ℤ) = value σ B l c % B ^ l.length ∧
      (last (carry σ B) l c = true ↔ ¬ (0 ≤ value σ B l c ∧ value σ B l c < B ^ l.length)) := by
  have hlt := Nat.ofDigits_lt_base_pow_length hB (digits_lt (σ := σ) (by omega) (carry σ B) l c)
  rw [length_digits] at hlt
  exact eq_emod_iff hσ (Int.natCast_nonneg _) (by exact_mod_cast hlt) (value_eq hσ hl c)

/-- Two rules give the same limbs and the same last carry when they agree at every limb. -/
lemma digits_eq_iff (hB : 1 < B) {next exact : ℕ × ℕ → Bool → Bool} (l : List (ℕ × ℕ)) (c : Bool) :
    digits σ B next l c = digits σ B exact l c ∧ last next l c = last exact l c ↔
      ∀ lo p hi, l = lo ++ p :: hi → next p (last exact lo c) = exact p (last exact lo c) := by
  induction l generalizing c with
  | nil => simp [digits, last]
  | cons p l ih =>
    have hhead : digits σ B next (p :: l) c = digits σ B exact (p :: l) c ∧
        last next (p :: l) c = last exact (p :: l) c → next p c = exact p c := by
      rintro ⟨hdigits, hlast⟩
      cases l with
      | nil => exact hlast
      | cons q l =>
        rw [digits, digits, digits, digits, List.cons.injEq, List.cons.injEq] at hdigits
        exact digit_injective hσ hB hdigits.2.1
    constructor
    · intro h lo q hi hsplit
      have hp := hhead h
      cases lo with
      | nil =>
        obtain ⟨rfl, -⟩ := List.cons.inj hsplit
        exact hp
      | cons r lo =>
        obtain ⟨rfl, hrest⟩ := List.cons.inj hsplit
        have htail : digits σ B next l (exact p c) = digits σ B exact l (exact p c) ∧
            last next l (exact p c) = last exact l (exact p c) := by
          rw [digits, digits, last, last, hp, List.cons.injEq] at h
          exact ⟨h.1.2, h.2⟩
        exact (ih _).mp htail lo q hi hrest
    · intro h
      have hp : next p c = exact p c := h [] p l rfl
      have htail := (ih (exact p c)).mpr fun lo q hi hsplit =>
        h (p :: lo) q hi (congrArg (p :: ·) hsplit)
      rw [digits, digits, last, last, hp]
      exact ⟨congrArg _ htail.1, htail.2⟩

/-- A rule computes the number modulo `B ^ n` and the right last carry exactly when it gives the
exact carry at every limb. -/
theorem ripple_iff (hB : 1 < B) (next : ℕ × ℕ → Bool → Bool) {l : List (ℕ × ℕ)}
    (hl : ∀ p ∈ l, p.1 < B ∧ p.2 < B) (c : Bool) :
    ((Nat.ofDigits B (digits σ B next l c) : ℕ) : ℤ) = value σ B l c % B ^ l.length ∧
        (last next l c = true ↔ ¬ (0 ≤ value σ B l c ∧ value σ B l c < B ^ l.length)) ↔
      ∀ lo p hi, l = lo ++ p :: hi →
        next p (last (carry σ B) lo c) = carry σ B p (last (carry σ B) lo c) := by
  obtain ⟨hvalue, hlast⟩ := exact_ripple hσ hB hl c
  rw [← digits_eq_iff hσ hB l c, ← hvalue, ← hlast, Nat.cast_inj, ← Bool.eq_iff_iff]
  refine and_congr_left fun _ => ⟨fun h => ?_, congrArg _⟩
  have hB0 : 0 < B := by omega
  exact Nat.ofDigits_inj_of_len_eq hB ((length_digits ..).trans (length_digits ..).symm)
    (digits_lt hB0 next l c) (digits_lt hB0 (carry σ B) l c) h

/-- The carry into a limb is set when the limbs below it do not fit. -/
lemma carry_in_iff (hB : 1 < B) {l lo hi : List (ℕ × ℕ)} (hl : ∀ p ∈ l, p.1 < B ∧ p.2 < B)
    (hsplit : l = lo ++ hi) (c : Bool) :
    last (carry σ B) lo c = true ↔ ¬ (0 ≤ value σ B lo c ∧ value σ B lo c < B ^ lo.length) :=
  (exact_ripple hσ hB (fun p hp => hl p (hsplit ▸ List.mem_append_left _ hp)) c).2

end

end Ripple
