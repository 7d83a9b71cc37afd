import Bemi.Dbt.Translator
import Bemi.Dbt.Compare

/-!
# Conditional sets

`SETcc` against `JccRel`. The translator passes the condition of `SETcc` as the number of the
mnemonic in the immediate, where the executor does not look: `Setcc` asks whether any flag at all is
set.
-/

namespace Bemi.Dbt

/-- The condition of a `SETcc` mnemonic. The one of `SETP` and `SETNP` has no code in `JccRel`. -/
def setccCondition : Mnemonic → Option Condition
  | .seto => some .o
  | .setno => some .no
  | .setb | .setc => some .b
  | .setae | .setnc => some .ae
  | .sete => some .e
  | .setne => some .ne
  | .setbe => some .be
  | .seta => some .a
  | .sets => some .s
  | .setns => some .ns
  | .setl => some .l
  | .setge => some .ge
  | .setle => some .le
  | .setg => some .g
  | _ => none

namespace Condition

/-- The `JccRel` with the code of a condition. -/
def jcc (c : Condition) : MicroOpInst :=
  .new .jccRel .rNone .rNone (Register.fromU8 c.code) 0

/-- The condition on CF, ZF, SF and OF of a flags word. -/
def holdsIn (flags : BemiWord) (c : Condition) : Bool :=
  conditionHolds (flags.toNat.testBit 0) (flags.toNat.testBit 6) (flags.toNat.testBit 7)
    (flags.toNat.testBit 11) c.code.toNat

/-- The conditions that no flag at all does not meet. -/
def needsFlag : Condition → Bool
  | o | b | e | be | s | l | le => true
  | no | ae | ne | a | ns | ge | g => false

lemma jcc_code (c : Condition) : c.jcc.src2.toU8 = c.code := by
  cases c <;> rfl

/-- With all flags clear a condition holds when it needs none. -/
lemma holdsIn_zero (c : Condition) : c.holdsIn 0 = !c.needsFlag := by
  cases c <;> rfl

end Condition

variable {M : Type*} (io : Callbacks M)

/-- `JccRel` takes the branch. -/
def JccTakes (e : Executor M) (c : Condition) : Prop :=
  (executeInst io e c.jcc none).2 ≠ .ok none

instance (e : Executor M) (c : Condition) : Decidable (JccTakes io e c) :=
  inferInstanceAs (Decidable (¬ _))

/-- A micro-op has a destination and writes to it whether `JccRel` would branch. -/
def SetsLikeJcc (e : Executor M) (uop : MicroOpInst) (c : Condition) : Prop :=
  uop.dst ≠ .rNone ∧
    executeInst io e uop none = (e.write uop.dst (if JccTakes io e c then 1 else 0), .ok none)

instance [DecidableEq M] (e : Executor M) (uop : MicroOpInst) (c : Condition) :
    Decidable (SetsLikeJcc io e uop c) :=
  inferInstanceAs (Decidable (_ ∧ _))

/-- A bit as a word. -/
def bitWord (b : Bool) : BemiWord :=
  if b then 1 else 0

/-- A flag as `JccRel` extracts it. -/
lemma flag_eq (flags : BemiWord) {i : UInt64} (h : i.toNat < 64) :
    (flags >>> i) &&& 1 = bitWord (flags.toNat.testBit i.toNat) := by
  apply UInt64.toNat_inj.mp
  rw [UInt64.toNat_and, UInt64.toNat_shiftRight, Nat.mod_eq_of_lt h]
  change flags.toNat >>> i.toNat &&& 1 = _
  rw [Nat.and_one_is_mod, Nat.shiftRight_eq_div_pow, ← Nat.toNat_testBit]
  cases flags.toNat.testBit i.toNat <;> rfl

/-- `JccRel` tests the condition on the flags. -/
lemma jccTaken_eq (flags : BemiWord) (c : Condition) : jccTaken flags c.code = c.holdsIn flags := by
  have hcf : flags &&& 1 = bitWord (flags.toNat.testBit 0) := by
    have h := flag_eq flags (i := 0) (by decide)
    rwa [UInt64.shiftRight_zero] at h
  have hzf : (flags >>> 6) &&& 1 = bitWord (flags.toNat.testBit 6) := flag_eq flags (by decide)
  have hsf : (flags >>> 7) &&& 1 = bitWord (flags.toNat.testBit 7) := flag_eq flags (by decide)
  have hof : (flags >>> 11) &&& 1 = bitWord (flags.toNat.testBit 11) := flag_eq flags (by decide)
  rw [jccTaken, hcf, hzf, hsf, hof, Condition.holdsIn]
  generalize flags.toNat.testBit 0 = cf
  generalize flags.toNat.testBit 6 = zf
  generalize flags.toNat.testBit 7 = sf
  generalize flags.toNat.testBit 11 = of
  cases c <;> cases cf <;> cases zf <;> cases sf <;> cases of <;> rfl

lemma jccTakes_iff (e : Executor M) (c : Condition) :
    JccTakes io e c ↔ c.holdsIn e.getFlags = true := by
  have htaken : jccTaken e.getFlags c.jcc.src2.toU8 = true ↔ c.holdsIn e.getFlags = true := by
    rw [c.jcc_code, jccTaken_eq]
  rw [JccTakes, executeInst_jccRel io e rfl none htaken]
  split_ifs with h
  · exact iff_of_true nofun h
  · exact iff_of_false (fun hne => hne rfl) h

lemma translate_setcc {inst : Instruction} {c : Condition}
    (h : setccCondition inst.mnemonic = some c) :
    translateInstruction inst = .ok [MicroOpInst.new .setcc (mapRegister inst.op0Register) .rNone
      .rNone inst.mnemonicValue] := by
  unfold translateInstruction
  cases hm : inst.mnemonic with
  | seto | setno | setb | setc | setae | setnc | sete | setne | setbe | seta | sets | setns | setl
  | setge | setle | setg => rfl
  | _ =>
    rw [hm] at h
    cases h

/-- Two words written to a register that there is agree when they are equal. -/
lemma write_eq_iff (e : Executor M) {r : Register} (hr : r ≠ .rNone) (v w : BemiWord) :
    e.write r v = e.write r w ↔ v = w := by
  constructor
  · intro h
    rw [← RegisterFile.read_write_self e.regs v hr, ← RegisterFile.read_write_self e.regs w hr]
    exact congrArg (fun e' => e'.regs.read r) h
  · rintro rfl
    rfl

/-- The micro-op of a `SETcc` writes what `JccRel` decides if and only if it has a destination, and
all flags are clear and the condition needs one, or some are set and the condition holds. -/
theorem setcc_like_jcc_iff (e : Executor M) (inst : Instruction) {c : Condition}
    (h : setccCondition inst.mnemonic = some c) :
    ∃ uop, translateInstruction inst = .ok [uop] ∧
      (SetsLikeJcc io e uop c ↔ uop.dst ≠ .rNone ∧
        if e.getFlags = 0 then c.needsFlag = true else c.holdsIn e.getFlags = true) := by
  refine ⟨_, translate_setcc h, ?_⟩
  rw [SetsLikeJcc]
  refine and_congr_right fun hdst => ?_
  change (e.write _ (if e.getFlags ≠ 0 then 1 else 0), ExecResult.ok none) = _ ↔ _
  rw [Prod.mk.injEq, and_iff_left rfl, write_eq_iff e hdst]
  have htakes := jccTakes_iff io e c
  by_cases hflags : e.getFlags = 0
  · rw [hflags, c.holdsIn_zero, Bool.not_eq_true'] at htakes
    rw [if_neg (not_not.mpr hflags), if_pos hflags]
    split_ifs with hjcc
    · exact iff_of_false (by decide) (by rw [htakes.mp hjcc]; decide)
    · exact iff_of_true rfl (Bool.of_not_eq_false (mt htakes.mpr hjcc))
  · rw [if_pos hflags, if_neg hflags, ← htakes]
    split_ifs with hjcc
    · exact iff_of_true rfl hjcc
    · exact iff_of_false (by decide) hjcc

/-- `SETcc AL`. -/
def setAl (m : Mnemonic) : Instruction :=
  { byteInstruction 0x90 0x1000 with
    len := 3
    mnemonic := m
    op0Register := .al }

theorem setcc_like_jcc_iff_sete :
    let e : Executor Unit := ⟨RegisterFile.new, ()⟩
    ∃ uop, translateInstruction (setAl .sete) = .ok [uop] ∧
      (SetsLikeJcc ⟨none, none⟩ e uop .e ↔ uop.dst ≠ .rNone ∧
        if e.getFlags = 0 then Condition.e.needsFlag = true
        else Condition.e.holdsIn e.getFlags = true) :=
  setcc_like_jcc_iff ⟨none, none⟩ ⟨RegisterFile.new, ()⟩ (setAl .sete) rfl

/-- `SETNE AL` with all flags clear leaves 0. -/
theorem setcc_like_jcc_not : ¬ ∀ (inst : Instruction) (c : Condition) (e : Executor Unit),
    setccCondition inst.mnemonic = some c →
      ∃ uop, translateInstruction inst = .ok [uop] ∧ SetsLikeJcc ⟨none, none⟩ e uop c := by
  intro h
  obtain ⟨uop, huop, hset⟩ := h (setAl .setne) .ne ⟨RegisterFile.new, ()⟩ rfl
  obtain ⟨rfl, -⟩ := List.cons.inj (Except.ok.inj huop)
  exact absurd hset (by decide)

end Bemi.Dbt
