import Bemi.Dbt.Integer

/-!
# Operand width

Register-to-register moves, arithmetic and extensions on 8-, 16-, 32- and 64-bit operands. The
translator maps every operand to its 64-bit register and gives every micro-op the size 8, so that
the executor works on whole registers. `translate_width_iff` says when the destination is
nevertheless what x86 leaves.
-/

namespace Bemi.Dbt
open Machine Parts

/-! ## What x86 says -/

/-- The operand widths that an instruction comes with. -/
def WidthForm (m : Mnemonic) (d s : Part) : Prop :=
  match m with
  | .mov | .add | .sub | .and | .or | .xor => d.bits = s.bits
  | .movzx | .movsx => s.bits < d.bits ∧ s.bits ≤ 16
  | .movsxd => (d, s) ∈ [(.full, .low32), (.low32, .low32), (.low16, .low16)]
  | _ => False

/-- A register-to-register instruction with the parts that its operands name. -/
structure WidthInst (inst : Instruction) (dst : Register) (d : Part) (src : Register) (s : Part) :
    Prop where
  form : WidthForm inst.mnemonic d s
  dstKind : inst.op0Kind = .register
  dstView : inst.op0Register.view = some (dst, d)
  srcKind : inst.op1Kind = .register
  srcView : inst.op1Register.view = some (src, s)

/-- `MOV` and the arithmetic instructions on two values. -/
def aluResult (m : Mnemonic) (a b : UInt64) : UInt64 :=
  match m with
  | .add => a + b
  | .sub => a - b
  | .and => a &&& b
  | .or => a ||| b
  | .xor => a ^^^ b
  | _ => b

/-- What is written to the destination part, for the registers `a` and `b`. -/
def x86Narrow (m : Mnemonic) (d s : Part) (a b : UInt64) : UInt64 :=
  match m with
  | .movzx => s.get b
  | .movsx | .movsxd => s.signExtend (s.get b)
  | m => aluResult m (d.get a) (s.get b)

/-! ## What the translation computes -/

/-- The operation on the whole registers. -/
def wholeResult (m : Mnemonic) (a b : UInt64) : UInt64 :=
  match m with
  | .movsxd => Part.low32.signExtend b
  | m => aluResult m a b

variable {M : Type*} (io : Callbacks M)

lemma runUops_width {inst : Instruction} {dst src : Register} {d s : Part}
    (h : WidthInst inst dst d src s) (e : Executor M) :
    OnlyWrites e (runUops io (uopsOf inst) e).1 dst
      (wholeResult inst.mnemonic (e.read dst) (e.read src)) := by
  obtain ⟨hform, h0, hdst, h1, hsrc⟩ := h
  obtain ⟨hmap, hgen⟩ := view_spec hdst
  have hmap' := (view_spec hsrc).1
  revert hform
  unfold uopsOf translateInstruction
  cases inst.mnemonic with
  | mov =>
    intro _
    simp only [translateMov, h0, h1, hmap, hmap', and_self, if_true]
    rw [runUops_singleton]
    exact onlyWrites_write e _ hgen
  | add | sub | and | or | xor =>
    intro _
    simp only [translateBinary, h0, h1, hmap, hmap', and_self, if_true]
    rw [runUops_singleton]
    exact (onlyWrites_write e _ hgen).setFlags hgen _
  | movzx | movsx =>
    intro _
    simp only [hmap, hmap']
    rw [runUops_singleton]
    exact onlyWrites_write e _ hgen
  | movsxd =>
    intro _
    have hext : (e.read src).toUInt32.toInt32.toInt64.toUInt64 =
        Part.low32.signExtend (e.read src) := rfl
    simp only [hmap, hmap']
    rw [runUops_singleton, wholeResult, ← hext]
    exact onlyWrites_write e _ hgen
  | _ => exact fun hform => hform.elim

/-! ## When the width makes no difference -/

/-- The whole-register result keeps what is outside the destination part. `MOVZX` and `MOVSX` find
their source extended already, and where AH, BH, CH or DH is an operand the byte comes out right all
the same. -/
def WidthKept (m : Mnemonic) (d s : Part) (a b : UInt64) : Prop :=
  d.Keeps a (wholeResult m a b) ∧
    match m with
    | .movzx => d.get b = s.get b
    | .movsx => d.get b = d.trunc (s.signExtend (s.get b))
    | .movsxd => True
    | m => d = .high8 ∨ s = .high8 →
        d.get (aluResult m a b) = d.trunc (aluResult m (d.get a) (s.get b))

/-- The arithmetic commutes with cutting off. -/
lemma trunc_aluResult (m : Mnemonic) (p : Part) (a b : UInt64) :
    p.trunc (aluResult m a b) = p.trunc (aluResult m (p.trunc a) (p.trunc b)) := by
  unfold aluResult
  cases m with
  | add => exact p.trunc_add a b
  | sub => exact p.trunc_sub a b
  | and => exact p.trunc_and a b
  | or => exact p.trunc_or a b
  | xor => exact p.trunc_xor a b
  | _ => exact (p.trunc_trunc b).symm

/-- With two low parts of one width the arithmetic comes out right. -/
lemma get_aluResult (m : Mnemonic) {d s : Part} (hbits : d.bits = s.bits) (hd : d ≠ .high8)
    (hs : s ≠ .high8) (a b : UInt64) :
    d.get (aluResult m a b) = d.trunc (aluResult m (d.get a) (s.get b)) := by
  obtain rfl := Part.eq_of_bits hbits hd hs
  rw [Part.get_eq_trunc hd, Part.get_eq_trunc hd, Part.get_eq_trunc hd]
  exact trunc_aluResult m d a b

/-- `MOVSXD` comes out right. -/
lemma get_movsxd {d s : Part}
    (h : (d, s) ∈ [(Part.full, Part.low32), (.low32, .low32), (.low16, .low16)]) (b : UInt64) :
    d.get (Part.low32.signExtend b) = d.trunc (s.signExtend (s.get b)) := by
  simp only [List.mem_cons, Prod.mk.injEq, List.not_mem_nil, or_false] at h
  obtain ⟨rfl, rfl⟩ | ⟨rfl, rfl⟩ | ⟨rfl, rfl⟩ := h
  · rw [Part.signExtend_get (by decide), Part.get_eq_trunc (by decide)]
  · rw [Part.signExtend_get (by decide), Part.get_eq_trunc (by decide)]
  · rw [Part.signExtend_get (by decide), Part.get_eq_trunc (by decide),
      Part.trunc_signExtend (by decide), Part.trunc_signExtend (by decide)]

/-- The translation leaves what x86 does, all other general registers kept, exactly when the
operation on the whole registers does not go beyond the operands' width. -/
theorem translate_width_iff {inst : Instruction} {dst src : Register} {d s : Part}
    (h : WidthInst inst dst d src s) (e : Executor M) :
    OnlyWrites e (runUops io (uopsOf inst) e).1 dst
        (d.put (e.read dst) (x86Narrow inst.mnemonic d s (e.read dst) (e.read src))) ↔
      WidthKept inst.mnemonic d s (e.read dst) (e.read src) := by
  rw [(runUops_width io h e).iff_eq, Part.eq_put_iff, and_comm]
  unfold WidthKept
  refine and_congr_right fun _ => ?_
  have hform := h.form
  revert hform
  cases inst.mnemonic with
  | mov | add | sub | and | or | xor =>
    intro hbits
    refine ⟨fun heq _ => heq, fun heq => ?_⟩
    by_cases hhigh : d = .high8 ∨ s = .high8
    · exact heq hhigh
    · rw [not_or] at hhigh
      exact get_aluResult _ hbits hhigh.1 hhigh.2 _ _
  | movzx =>
    rintro ⟨hlt, -⟩
    dsimp only [wholeResult, aluResult, x86Narrow]
    rw [Part.trunc_get (Nat.le_of_lt hlt)]
  | movsx => exact fun _ => Iff.rfl
  | movsxd => exact fun hmem => iff_of_true (get_movsxd hmem _) trivial
  | _ => exact fun hform => hform.elim

/-- `m dst, src` on registers. -/
def registerPair (m : Mnemonic) (dst src : IcedRegister) : Instruction :=
  { byteInstruction 0x90 0x1000 with
    len := 3
    mnemonic := m
    op0Register := dst
    op1Register := src }

/-- `ADD EAX, EBX` of 1 and 2. -/
theorem translate_width_iff_add :
    OnlyWrites ⟨(RegisterFile.new.write .rax 1).write .rbx 2, ()⟩
      (runUops ⟨none, none⟩ (uopsOf (registerPair .add .eax .ebx))
        ⟨(RegisterFile.new.write .rax 1).write .rbx 2, ()⟩).1 .rax 3 :=
  (translate_width_iff ⟨none, none⟩
    (⟨rfl, rfl, rfl, rfl, rfl⟩ : WidthInst (registerPair .add .eax .ebx) .rax .low32 .rbx .low32)
    ⟨(RegisterFile.new.write .rax 1).write .rbx 2, ()⟩).mpr
    ⟨by decide, fun hhigh => absurd hhigh (by decide)⟩

/-- `MOV EAX, EBX` leaves the upper half of RBX in RAX. -/
theorem translate_width_not :
    ¬ ∀ (inst : Instruction) (dst src : Register) (d s : Part) (e : Executor Unit),
      WidthInst inst dst d src s → OnlyWrites e (runUops ⟨none, none⟩ (uopsOf inst) e).1 dst
        (d.put (e.read dst) (x86Narrow inst.mnemonic d s (e.read dst) (e.read src))) := by
  intro h
  have hrax := (h (registerPair .mov .eax .ebx) .rax .rbx .low32 .low32
    ⟨RegisterFile.new.write .rbx 0x100000001, ()⟩ ⟨rfl, rfl, rfl, rfl, rfl⟩).1
  revert hrax
  decide

end Bemi.Dbt
