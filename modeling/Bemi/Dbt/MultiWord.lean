import Mathlib.Algebra.GroupWithZero.Nat
import Bemi.Lib.Ripple
import Bemi.Dbt.Flags

/-!
# Multi-word arithmetic

Sums and differences of numbers of any length: `AddRR` or `SubRR` on the lowest limbs, then `AdcRR`
or `SbbRR` limb by limb, with moves in between. `AdcRR` and `SbbRR` take the carry in into the result
and leave it out of the flags, so the carry out is that of the two operands alone.
`multiWord_iff` says which numbers come out right all the same.
-/

namespace Bemi.Dbt
open Machine

variable {M : Type*} (io : Callbacks M)

/-- Micro-ops that only move data, and not into the flags register. -/
def MicroOpInst.isMove (uop : MicroOpInst) : Bool :=
  match uop.code with
  | .movRR | .movRI | .movRM | .leaRR | .loadRR => uop.dst ≠ .rFlags
  | .movMR | .movMI | .storeRR | .nop => true
  | _ => false

/-- One limb of the program: moves, and then the operation with its registers. -/
structure Limb where
  moves : List MicroOpInst
  op : MicroOpInst
  isMove : ∀ uop ∈ moves, uop.isMove = true
  kept : op.dst ≠ .rNone ∧ op.dst ≠ .rFlags

namespace Limb

def uops (code : MicroOpCode) (x : Limb) : List MicroOpInst :=
  x.moves ++ [{ x.op with code := code }]

/-- The executor that the operation finds. -/
def before (x : Limb) (e : Executor M) : Executor M :=
  (runUops io x.moves e).1

def after (code : MicroOpCode) (x : Limb) (e : Executor M) : Executor M :=
  (runUops io (x.uops code) e).1

def operands (x : Limb) (e : Executor M) : BemiWord × BemiWord :=
  ((x.before io e).read x.op.src1, (x.before io e).read x.op.src2)

def result (code : MicroOpCode) (x : Limb) (e : Executor M) : BemiWord :=
  (x.after io code e).read x.op.dst

end Limb

/-- The opcode for the lowest limb. -/
def firstCode (isSub : Bool) : MicroOpCode :=
  if isSub then .subRR else .addRR

/-- The opcode for the limbs above it. -/
def nextCode (isSub : Bool) : MicroOpCode :=
  if isSub then .sbbRR else .adcRR

/-- The program from a limb with opcode `code` on. -/
def limbProgram (isSub : Bool) : MicroOpCode → List Limb → List MicroOpInst
  | _, [] => []
  | code, x :: xs => x.uops code ++ limbProgram isSub (nextCode isSub) xs

/-- The limbs of both operands, as the operations of the run read them. -/
def limbOperands (isSub : Bool) :
    MicroOpCode → List Limb → Executor M → List (BemiWord × BemiWord)
  | _, [], _ => []
  | code, x :: xs, e =>
    x.operands io e :: limbOperands isSub (nextCode isSub) xs (x.after io code e)

/-- The limbs that the operations of the run leave. -/
def limbResults (isSub : Bool) : MicroOpCode → List Limb → Executor M → List BemiWord
  | _, [], _ => []
  | code, x :: xs, e =>
    x.result io code e :: limbResults isSub (nextCode isSub) xs (x.after io code e)

/-- The number with these limbs, the lowest one first. -/
def value (limbs : List BemiWord) : ℕ :=
  Nat.ofDigits (2 ^ 64) (limbs.map UInt64.toNat)

/-! ## One limb -/

lemma fallsThrough_of_isMove {uop : MicroOpInst} (h : uop.isMove = true) :
    uop.code.fallsThrough = true := by
  revert h
  rw [MicroOpInst.isMove]
  cases uop.code <;> simp [MicroOpCode.fallsThrough, MicroOpCode.endsBlock]

lemma getFlags_write (e : Executor M) {r : Register} (v : BemiWord) (h : r ≠ .rFlags) :
    (e.write r v).getFlags = e.getFlags :=
  RegisterFile.read_write_ne e.regs v h

lemma getFlags_load (e : Executor M) (addr : UInt64) (wide : Bool) :
    (e.load io addr wide).1.getFlags = e.getFlags := by
  rw [Executor.load]
  split <;> rfl

lemma getFlags_store (e : Executor M) (addr : UInt64) (wide : Bool) (v : UInt64) :
    (e.store io addr wide v).getFlags = e.getFlags := by
  rw [Executor.store]
  split <;> rfl

lemma getFlags_move {uop : MicroOpInst} (h : uop.isMove = true) (e : Executor M)
    (nextIp : Option BemiWord) : (executeInst io e uop nextIp).1.getFlags = e.getFlags := by
  obtain ⟨code, dst, src1, src2, immediate, operandSize⟩ := uop
  cases code with
  | movRR | movRI | leaRR => exact getFlags_write e _ (of_decide_eq_true h)
  | movRM | loadRR =>
    exact (getFlags_write _ _ (of_decide_eq_true h)).trans (getFlags_load io e _ _)
  | movMR | movMI | storeRR => exact getFlags_store io e _ _ _
  | nop => rfl
  | _ => cases h

lemma getFlags_moves {uops : List MicroOpInst} (h : ∀ uop ∈ uops, uop.isMove = true)
    (e : Executor M) : (runUops io uops e).1.getFlags = e.getFlags := by
  induction uops generalizing e with
  | nil => rfl
  | cons uop uops ih =>
    obtain ⟨hu, hus⟩ := List.forall_mem_cons.mp h
    have hfirst : ∀ u ∈ [uop], u.code.fallsThrough = true :=
      List.forall_mem_singleton.mpr (fallsThrough_of_isMove hu)
    rw [← List.singleton_append, runUops_append io hfirst, ih hus, runUops_singleton,
      getFlags_move io hu]

/-- `1` for a sum, `-1` for a difference. -/
def sign (isSub : Bool) : ℤ :=
  if isSub then -1 else 1

lemma sign_cases_eq (isSub : Bool) : sign isSub = 1 ∨ sign isSub = -1 := by
  cases isSub with
  | false => exact .inl rfl
  | true => exact .inr rfl

/-- The numbers of a pair of words. -/
def limbPair (p : BemiWord × BemiWord) : ℕ × ℕ :=
  (p.1.toNat, p.2.toNat)

/-- CF as the lowest bit of the flags. -/
def carryWord (c : Bool) : BemiWord :=
  if c then 1 else 0

/-- The carry in that an opcode of the program uses: none at the lowest limb, else CF. -/
inductive CarryIn (isSub : Bool) (e : Executor M) : MicroOpCode → Bool → Prop
  | first : CarryIn isSub e (firstCode isSub) false
  | next {c : Bool} (h : e.getFlags &&& 0x01 = carryWord c) :
      CarryIn isSub e (nextCode isSub) c

/-- The word that an operation of the program leaves. -/
def limbWord (isSub : Bool) (a b : BemiWord) (c : Bool) : BemiWord :=
  if isSub then a - b - carryWord c else a + b + carryWord c

lemma toNat_limbWord (isSub : Bool) (a b : BemiWord) (c : Bool) :
    (limbWord isSub a b c).toNat = Ripple.digit (sign isSub) (2 ^ 64) (limbPair (a, b)) c := by
  have ha := a.toNat_lt
  have hb := b.toNat_lt
  have hc : (carryWord c).toNat = c.toNat := by cases c <;> rfl
  have hle : c.toNat ≤ 1 := Bool.toNat_le c
  rw [limbWord, Ripple.digit, Ripple.total, limbPair, sign]
  cases isSub with
  | false =>
    rw [if_neg (by decide), if_neg (by decide), UInt64.toNat_add, UInt64.toNat_add, hc]
    push_cast
    omega
  | true =>
    rw [if_pos rfl, if_pos rfl, UInt64.toNat_sub, UInt64.toNat_sub, hc]
    push_cast
    omega

/-- The flags hold the carry of the two operands alone. -/
lemma carryOf_eq (isSub : Bool) (a b : BemiWord) :
    carryOf a b isSub = Ripple.carry (sign isSub) (2 ^ 64) (limbPair (a, b)) false := by
  have ha := a.toNat_lt
  have hb := b.toNat_lt
  rw [Bool.eq_iff_iff, Ripple.carry, decide_eq_true_eq, Ripple.total, limbPair, sign,
    Bool.toNat_false]
  cases isSub with
  | false =>
    rw [carryOf_add, if_neg (by decide)]
    push_cast
    omega
  | true =>
    rw [carryOf_sub, UInt64.lt_iff_toNat_lt, if_pos rfl]
    push_cast
    omega

/-- The flags and the word after one limb. -/
lemma limb_step {isSub : Bool} {code : MicroOpCode} {c : Bool} {e : Executor M} (x : Limb)
    (hc : CarryIn isSub e code c) :
    (x.result io code e).toNat =
        Ripple.digit (sign isSub) (2 ^ 64) (limbPair (x.operands io e)) c ∧
      (x.after io code e).getFlags &&& 0x01 =
        carryWord (Ripple.carry (sign isSub) (2 ^ 64) (limbPair (x.operands io e)) false) := by
  obtain ⟨hnone, hflags⟩ := x.kept
  have hmoves := getFlags_moves io x.isMove e
  obtain ⟨a, ha⟩ : ∃ a, a = (x.before io e).read x.op.src1 := ⟨_, rfl⟩
  obtain ⟨b, hb⟩ : ∃ b, b = (x.before io e).read x.op.src2 := ⟨_, rfl⟩
  have hoperands : x.operands io e = (a, b) := by rw [Limb.operands, ha, hb]
  -- the operation writes its word and then the flags
  have hafter : x.after io code e =
      ((x.before io e).write x.op.dst (limbWord isSub a b c)).updateFlagsArith
        (limbWord isSub a b c) a b isSub := by
    rw [Limb.after, Limb.uops, runUops_append io fun u hu => fallsThrough_of_isMove (x.isMove u hu),
      runUops_singleton]
    change (executeInst io (x.before io e) _ none).1 = _
    cases hc with
    | first =>
      cases isSub with
      | false => simp [executeInst, firstCode, limbWord, carryWord, ha, hb]
      | true => simp [executeInst, firstCode, limbWord, carryWord, ha, hb]
    | next h =>
      have hbefore : (x.before io e).getFlags &&& 0x01 = carryWord c := by
        rw [← h, Limb.before, hmoves]
      cases isSub with
      | false => simp [executeInst, nextCode, limbWord, hbefore, ha, hb]
      | true => simp [executeInst, nextCode, limbWord, hbefore, ha, hb]
  rw [hoperands, ← toNat_limbWord, ← carryOf_eq, Limb.result, hafter]
  constructor
  · congr 1
    exact (RegisterFile.read_write_ne _ _ hflags.symm).trans
      (RegisterFile.read_write_self _ _ hnone)
  · have h := getFlags_updateFlagsArith ((x.before io e).write x.op.dst (limbWord isSub a b c)).regs
      (limbWord isSub a b c) a b isSub
    change (RegisterFile.updateFlagsArith _ _ _ _ _).getFlags &&& 0x01 = _
    rw [h, flagsWord_and_one, carryWord]

/-! ## The whole program -/

lemma uops_fallsThrough {isSub : Bool} {code : MicroOpCode} {c : Bool} {e : Executor M} (x : Limb)
    (hc : CarryIn isSub e code c) : ∀ uop ∈ x.uops code, uop.code.fallsThrough = true := by
  rw [Limb.uops, List.forall_mem_append]
  refine ⟨fun u hu => fallsThrough_of_isMove (x.isMove u hu), List.forall_mem_singleton.mpr ?_⟩
  cases hc <;> cases isSub <;> rfl

/-- The carry rule of the machine. -/
def carryRule (isSub : Bool) (p : ℕ × ℕ) (_ : Bool) : Bool :=
  Ripple.carry (sign isSub) (2 ^ 64) p false

/-- A program is a ripple whose carries follow the rule of the machine. -/
lemma limbs_run {isSub : Bool} {code : MicroOpCode} {c : Bool} {e : Executor M} (xs : List Limb)
    (hc : CarryIn isSub e code c) (hflags : xs = [] → e.getFlags &&& 0x01 = carryWord c) :
    (limbResults io isSub code xs e).map UInt64.toNat =
        Ripple.digits (sign isSub) (2 ^ 64) (carryRule isSub)
          ((limbOperands io isSub code xs e).map limbPair) c ∧
      (runUops io (limbProgram isSub code xs) e).1.getFlags &&& 0x01 =
        carryWord (Ripple.last (carryRule isSub)
          ((limbOperands io isSub code xs e).map limbPair) c) := by
  induction xs generalizing code c e with
  | nil => exact ⟨rfl, hflags rfl⟩
  | cons x xs ih =>
    obtain ⟨hword, hcarry⟩ := limb_step io x hc
    obtain ⟨hwords, hlast⟩ := ih (.next hcarry) fun _ => hcarry
    constructor
    · rw [limbResults, limbOperands, List.map_cons, List.map_cons, Ripple.digits, hword, hwords]
      rfl
    · rw [limbProgram, runUops_append io (uops_fallsThrough x hc), limbOperands, List.map_cons,
        Ripple.last]
      exact hlast

/-- The exact result, not reduced. -/
def wanted (isSub : Bool) (limbs : List (BemiWord × BemiWord)) : ℤ :=
  value (limbs.map Prod.fst) + sign isSub * value (limbs.map Prod.snd)

lemma value_limbPair (isSub : Bool) (limbs : List (BemiWord × BemiWord)) :
    Ripple.value (sign isSub) (2 ^ 64) (limbs.map limbPair) false = wanted isSub limbs := by
  simp only [Ripple.value, Ripple.total, wanted, value, List.map_map, Bool.toNat_false,
    Nat.cast_zero, add_zero]
  rfl

lemma limbPair_lt (limbs : List (BemiWord × BemiWord)) :
    ∀ p ∈ limbs.map limbPair, p.1 < 2 ^ 64 ∧ p.2 < 2 ^ 64 := by
  intro p hp
  obtain ⟨⟨a, b⟩, -, rfl⟩ := List.mem_map.mp hp
  exact ⟨a.toNat_lt, b.toNat_lt⟩

/-- The carry in does not matter for the carry out of two limbs. -/
def Settled (isSub : Bool) (a b : BemiWord) : Prop :=
  if isSub then a ≠ b else a.toNat + b.toNat ≠ 2 ^ 64 - 1

lemma carry_settled_iff (isSub : Bool) (a b : BemiWord) :
    Ripple.carry (sign isSub) (2 ^ 64) (limbPair (a, b)) false =
      Ripple.carry (sign isSub) (2 ^ 64) (limbPair (a, b)) true ↔ Settled isSub a b := by
  have ha := a.toNat_lt
  have hb := b.toNat_lt
  rw [Bool.eq_iff_iff, Ripple.carry, Ripple.carry, decide_eq_true_eq, decide_eq_true_eq,
    Ripple.total, Ripple.total, limbPair, sign, Settled, Bool.toNat_false, Bool.toNat_true]
  cases isSub with
  | false =>
    rw [if_neg (by decide), if_neg (by decide)]
    push_cast
    omega
  | true =>
    rw [if_pos rfl, if_pos rfl, ne_eq, ← UInt64.toNat_inj]
    push_cast
    omega

lemma length_limbOperands (isSub : Bool) (code : MicroOpCode) (xs : List Limb) (e : Executor M) :
    (limbOperands io isSub code xs e).length = xs.length := by
  induction xs generalizing code e with
  | nil => rfl
  | cons x xs ih => exact congrArg (· + 1) (ih _ _)

/-- A program is right exactly when below every limb that is not settled the exact result fits. -/
lemma limbs_right_iff (isSub : Bool) (x : Limb) (xs : List Limb) (e : Executor M) :
    let limbs := limbOperands io isSub (firstCode isSub) (x :: xs) e
    let n := (x :: xs).length
    (value (limbResults io isSub (firstCode isSub) (x :: xs) e) : ℤ) =
          wanted isSub limbs % 2 ^ (64 * n) ∧
        ((runUops io (limbProgram isSub (firstCode isSub) (x :: xs)) e).1.getFlags &&& 0x01 = 1 ↔
          ¬ (0 ≤ wanted isSub limbs ∧ wanted isSub limbs < 2 ^ (64 * n))) ↔
      ∀ lo a b hi, limbs = lo ++ (a, b) :: hi →
        ¬ (0 ≤ wanted isSub lo ∧ wanted isSub lo < 2 ^ (64 * lo.length)) → Settled isSub a b := by
  intro limbs n
  have hone (c : Bool) : carryWord c = 1 ↔ c = true := by cases c <;> decide
  have hpow (k : ℕ) : (((2 ^ 64 : ℕ) : ℤ)) ^ k = 2 ^ (64 * k) := by
    rw [pow_mul]
    norm_num
  have hlen : (limbs.map limbPair).length = n :=
    (List.length_map _).trans (length_limbOperands io isSub (firstCode isSub) (x :: xs) e)
  obtain ⟨hwords, hflags⟩ := limbs_run io (x :: xs) (@CarryIn.first M isSub e) nofun
  have hripple := Ripple.ripple_iff (sign_cases_eq isSub) (by norm_num : 1 < 2 ^ 64)
    (carryRule isSub) (limbPair_lt limbs) false
  rw [hlen, hpow, value_limbPair] at hripple
  have hin {lo hi : List (BemiWord × BemiWord)} (hsplit : limbs = lo ++ hi) :
      Ripple.last (Ripple.carry (sign isSub) (2 ^ 64)) (lo.map limbPair) false = true ↔
        ¬ (0 ≤ wanted isSub lo ∧ wanted isSub lo < 2 ^ (64 * lo.length)) := by
    have h := Ripple.carry_in_iff (sign_cases_eq isSub) (by norm_num) (limbPair_lt limbs)
      ((congrArg (List.map limbPair) hsplit).trans List.map_append) false
    rw [List.length_map, hpow, value_limbPair] at h
    exact h
  rw [hflags, hone, value, hwords, hripple]
  constructor
  · intro h lo a b hi hsplit hfit
    have hrule := h (lo.map limbPair) (limbPair (a, b)) (hi.map limbPair) (by simp [hsplit])
    rw [(hin hsplit).mpr hfit] at hrule
    exact (carry_settled_iff isSub a b).mp hrule
  · intro h lo p hi hsplit
    obtain ⟨lo, rest, hlimbs, rfl, hrest⟩ := List.map_eq_append_iff.mp hsplit
    obtain ⟨⟨a, b⟩, hi, rfl, rfl, rfl⟩ := List.map_eq_cons_iff.mp hrest
    cases hlast : Ripple.last (Ripple.carry (sign isSub) (2 ^ 64)) (lo.map limbPair) false with
    | false => rfl
    | true => exact (carry_settled_iff isSub a b).mpr (h lo a b hi hlimbs ((hin hlimbs).mp hlast))

/-- A program of `AddRR` and `AdcRR` leaves the sum of its operands and its carry. -/
def SumRight (xs : List Limb) (e : Executor M) : Prop :=
  let limbs := limbOperands io false .addRR xs e
  let a := value (limbs.map Prod.fst)
  let b := value (limbs.map Prod.snd)
  value (limbResults io false .addRR xs e) = (a + b) % 2 ^ (64 * xs.length) ∧
    ((runUops io (limbProgram false .addRR xs) e).1.getFlags &&& 0x01 = 1 ↔
      2 ^ (64 * xs.length) ≤ a + b)

/-- A program of `SubRR` and `SbbRR` leaves the difference of its operands and its borrow. -/
def DifferenceRight (xs : List Limb) (e : Executor M) : Prop :=
  let limbs := limbOperands io true .subRR xs e
  let a := value (limbs.map Prod.fst)
  let b := value (limbs.map Prod.snd)
  (value (limbResults io true .subRR xs e) : ℤ) = ((a : ℤ) - b) % 2 ^ (64 * xs.length) ∧
    ((runUops io (limbProgram true .subRR xs) e).1.getFlags &&& 0x01 = 1 ↔ a < b)

lemma value_lt (ws : List BemiWord) : value ws < 2 ^ (64 * ws.length) := by
  have h := Nat.ofDigits_lt_base_pow_length (b := 2 ^ 64) (l := ws.map UInt64.toNat) (by norm_num)
    fun d hd => by
      obtain ⟨w, -, rfl⟩ := List.mem_map.mp hd
      exact w.toNat_lt
  rw [List.length_map, ← pow_mul] at h
  exact h

lemma wanted_sum (limbs : List (BemiWord × BemiWord)) :
    wanted false limbs =
      ((value (limbs.map Prod.fst) + value (limbs.map Prod.snd) : ℕ) : ℤ) := by
  rw [wanted, sign, if_neg (by decide), one_mul, Nat.cast_add]

lemma wanted_difference (limbs : List (BemiWord × BemiWord)) :
    wanted true limbs = (value (limbs.map Prod.fst) : ℤ) - value (limbs.map Prod.snd) := by
  rw [wanted, sign, if_pos rfl, neg_one_mul, Int.sub_eq_add_neg]

lemma sum_unfit_iff (limbs : List (BemiWord × BemiWord)) (k : ℕ) :
    ¬ (0 ≤ wanted false limbs ∧ wanted false limbs < 2 ^ k) ↔
      2 ^ k ≤ value (limbs.map Prod.fst) + value (limbs.map Prod.snd) := by
  rw [wanted_sum, not_and, not_lt, forall_prop_of_true (Int.natCast_nonneg _)]
  exact_mod_cast Iff.rfl

lemma difference_unfit_iff (limbs : List (BemiWord × BemiWord)) :
    ¬ (0 ≤ wanted true limbs ∧ wanted true limbs < 2 ^ (64 * limbs.length)) ↔
      value (limbs.map Prod.fst) < value (limbs.map Prod.snd) := by
  have hlt : (value (limbs.map Prod.fst) : ℤ) < 2 ^ (64 * limbs.length) := by
    have h := value_lt (limbs.map Prod.fst)
    rw [List.length_map] at h
    exact_mod_cast h
  rw [wanted_difference]
  omega

/-- A sum of two numbers is right exactly when no limb that a carry comes into holds operands that
add up to `2 ^ 64 - 1`, and a difference when no limb that a borrow comes into holds equal
operands. -/
theorem multiWord_iff (x : Limb) (xs : List Limb) (e : Executor M) :
    (SumRight io (x :: xs) e ↔
      ∀ lo a b hi, limbOperands io false .addRR (x :: xs) e = lo ++ (a, b) :: hi →
        2 ^ (64 * lo.length) ≤ value (lo.map Prod.fst) + value (lo.map Prod.snd) →
          a.toNat + b.toNat ≠ 2 ^ 64 - 1) ∧
      (DifferenceRight io (x :: xs) e ↔
        ∀ lo a b hi, limbOperands io true .subRR (x :: xs) e = lo ++ (a, b) :: hi →
          value (lo.map Prod.fst) < value (lo.map Prod.snd) → a ≠ b) := by
  constructor
  · have h := limbs_right_iff io false x xs e
    simp only [sum_unfit_iff] at h
    rw [wanted_sum] at h
    refine Iff.trans (and_congr_left fun _ => ?_) h
    exact_mod_cast Iff.rfl
  · have hlen := length_limbOperands io true .subRR (x :: xs) e
    have hout := difference_unfit_iff (limbOperands io true .subRR (x :: xs) e)
    rw [hlen] at hout
    have h := limbs_right_iff io true x xs e
    simp only [difference_unfit_iff] at h
    rw [DifferenceRight, ← wanted_difference]
    refine Iff.trans (and_congr_right fun _ => iff_congr Iff.rfl ?_) h
    exact hout.symm

/-- A limb with the operands `a` and `b`, loaded into RAX and RBX. -/
def immediateLimb (a b : BemiWord) : Limb where
  moves := [.new .movRI .rax .rNone .rNone a, .new .movRI .rbx .rNone .rNone b]
  op := .new .addRR .rax .rax .rbx 0
  isMove := by
    intro uop huop
    rcases List.mem_pair.mp huop with rfl | rfl <;> rfl
  kept := by decide

/-- `2 ^ 128 - 1` plus 1: the carry out of the upper limb is lost. -/
theorem multiWord_not : ¬ ∀ (x : Limb) (xs : List Limb) (e : Executor Unit),
    SumRight ⟨none, none⟩ (x :: xs) e ∧ DifferenceRight ⟨none, none⟩ (x :: xs) e := by
  intro h
  have hsum := (h (immediateLimb 0xFFFFFFFFFFFFFFFF 1) [immediateLimb 0xFFFFFFFFFFFFFFFF 0]
    ⟨RegisterFile.new, ()⟩).1.2
  exact absurd (hsum.mpr (by decide)) (by decide)

end Bemi.Dbt
