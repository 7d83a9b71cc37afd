import Bemi.Dbt.Translator
import Bemi.Dbt.Executor

/-!
# Direct branches

What a translated block that ends in a direct `JMP`, `Jcc` or `CALL` returns, against what the
guest asked for: the absolute target that iced decoded, when the x86 condition holds. The translator
leaves the target in the immediate and no condition code at all (`src2` is `RNone`); the executor
adds RAX to the immediate and reads a condition code in `src2`.

`RETF` is translated like `RET` but does not end a block, so the translation of a longer block can
stop before its branch. `translateBlock_branch_iff` tells the two cases apart.
-/

namespace Bemi.Dbt
open Machine

/-! ## What the guest says -/

/-- The x86 condition of a conditional jump on CF (bit 0), ZF (6), SF (7) and OF (11). -/
def x86Condition (m : Mnemonic) (flags : BemiWord) : Bool :=
  let cf := flags &&& 0x1 ≠ 0
  let zf := flags &&& 0x40 ≠ 0
  let sf := flags &&& 0x80 ≠ 0
  let of := flags &&& 0x800 ≠ 0
  match m with
  | .jo => of
  | .jno => ¬of
  | .jb => cf
  | .jae => ¬cf
  | .je => zf
  | .jne => ¬zf
  | .jbe => cf ∨ zf
  | .ja => ¬cf ∧ ¬zf
  | .js => sf
  | .jns => ¬sf
  | .jl => ¬(sf ↔ of)
  | .jge => sf ↔ of
  | .jle => zf ∨ ¬(sf ↔ of)
  | .jg => ¬zf ∧ (sf ↔ of)
  | _ => false

def isNearBranch : OpKind → Bool
  | .nearBranch16 | .nearBranch32 | .nearBranch64 => true
  | _ => false

/-- A direct `JMP`, `CALL`, or `Jcc` other than `JP` and `JNP`. -/
def DirectBranch (br : Instruction) : Prop :=
  isNearBranch br.op0Kind = true ∧
    (br.mnemonic = .jmp ∨ br.mnemonic = .call ∨
      isJcc br.mnemonic = true ∧ br.mnemonic ≠ .jp ∧ br.mnemonic ≠ .jnp)

/-- Whether the guest takes the branch. -/
def Taken (br : Instruction) (flags : BemiWord) : Prop :=
  isJcc br.mnemonic = true → x86Condition br.mnemonic flags = true

instance (br : Instruction) (flags : BemiWord) : Decidable (Taken br flags) :=
  inferInstanceAs (Decidable (_ → _))

/-- The `next_ip` the guest asks for. -/
def branchGoal (br : Instruction) (flags : BemiWord) : Option BemiWord :=
  if Taken br flags then some br.nearBranch64 else none

/-! ## Translated instructions -/

lemma isBranchOrRet_of_direct {br : Instruction} (h : DirectBranch br) :
    isBranchOrRet br.mnemonic = true := by
  obtain ⟨-, hjmp | hcall | ⟨hjcc, -, -⟩⟩ := h
  · rw [hjmp]; rfl
  · rw [hcall]; rfl
  · revert hjcc
    cases br.mnemonic <;> simp [isJcc, isBranchOrRet]

/-- `translate_mov` makes at most one micro-op, and it falls through. -/
lemma translateMov_cases (inst : Instruction) : translateMov inst = [] ∨
    ∃ uop, translateMov inst = [uop] ∧ uop.code.fallsThrough = true := by
  unfold translateMov
  dsimp only
  split_ifs <;> first | exact .inr ⟨_, rfl, rfl⟩ | exact .inl rfl

/-- `translate_binary` makes at most one micro-op, of one of its two codes. -/
lemma translateBinary_cases (inst : Instruction) {rrCode riCode : MicroOpCode}
    (hrr : rrCode.fallsThrough = true) (hri : riCode.fallsThrough = true) :
    translateBinary inst rrCode riCode = [] ∨
      ∃ uop, translateBinary inst rrCode riCode = [uop] ∧ uop.code.fallsThrough = true := by
  unfold translateBinary
  dsimp only
  split_ifs
  · exact .inr ⟨_, rfl, hrr⟩
  · exact .inr ⟨_, rfl, hri⟩
  · exact .inl rfl

/-- An instruction becomes at most one micro-op. It falls through unless the instruction is a
branch, a return or a halt. -/
lemma uopsOf_cases (inst : Instruction) : uopsOf inst = [] ∨ ∃ uop, uopsOf inst = [uop] ∧
    (isBranchOrRet inst.mnemonic = true ∨ inst.mnemonic = .retf ∨
      uop.code.fallsThrough = true) := by
  have weaken {uops : List MicroOpInst} {P Q : Prop}
      (h : uops = [] ∨ ∃ uop, uops = [uop] ∧ uop.code.fallsThrough = true) :
      uops = [] ∨ ∃ uop, uops = [uop] ∧ (P ∨ Q ∨ uop.code.fallsThrough = true) :=
    h.imp_right fun ⟨uop, he, hf⟩ => ⟨uop, he, .inr (.inr hf)⟩
  unfold uopsOf translateInstruction
  cases inst.mnemonic with
  | mov => exact weaken (translateMov_cases inst)
  | add | sub | cmp | and | or | xor | shl | sal | shr | sar =>
    exact weaken (translateBinary_cases inst rfl rfl)
  | jmp | call =>
    dsimp only
    split_ifs <;> exact .inr ⟨_, rfl, .inl rfl⟩
  | jo | jno | jb | jae | je | jne | jbe | ja | js | jns | jp | jnp | jl | jge | jle | jg | ret
  | hlt => exact .inr ⟨_, rfl, .inl rfl⟩
  | retf => exact .inr ⟨_, rfl, .inr (.inl rfl)⟩
  | _ => exact .inr ⟨_, rfl, .inr (.inr rfl)⟩

lemma length_uopsOf (inst : Instruction) : (uopsOf inst).length ≤ 1 := by
  obtain h | ⟨uop, h, -⟩ := uopsOf_cases inst <;> simp [h]

lemma length_flatMap_uopsOf (insts : List Instruction) :
    (insts.flatMap uopsOf).length ≤ insts.length := by
  induction insts with
  | nil => simp
  | cons inst rest ih =>
    have := length_uopsOf inst
    simp only [List.flatMap_cons, List.length_append, List.length_cons]
    omega

/-- A block of at most 256 instructions is translated without loss. -/
lemma translateBlock_fits {decoder : Decoder} {code : List UInt8} {x86Ip : UInt64}
    {bitness : UInt32} (h : (blockOf (decoder code x86Ip bitness)).length ≤ maxMicroOpsPerBlock) :
    ∃ tb, translateBlock decoder code x86Ip bitness = .ok tb ∧
      tb.active = (blockOf (decoder code x86Ip bitness)).flatMap uopsOf := by
  obtain ⟨tb, htb⟩ := translateBlock_ok decoder code x86Ip bitness
    (Nat.lt_of_le_of_lt h (by decide))
  obtain ⟨hact, -, -⟩ := translateBlock_spec htb
  refine ⟨tb, htb, hact.trans (List.take_of_length_le ?_)⟩
  exact Nat.le_trans (length_flatMap_uopsOf _) h

/-- Straight-line code without `RETF` falls through. -/
lemma flow_straight {M : Type*} (io : Callbacks M) {pre : List Instruction}
    (hbr : ∀ inst ∈ pre, isBranchOrRet inst.mnemonic = false)
    (hretf : ∀ inst ∈ pre, inst.mnemonic ≠ .retf) (e : Executor M) :
    flow (microStep io) (pre.flatMap uopsOf) (e, none) =
      .next ((runUops io (pre.flatMap uopsOf) e).1, none) := by
  apply flow_fallsThrough
  intro uop huop
  obtain ⟨inst, hinst, hmem⟩ := List.mem_flatMap.mp huop
  obtain h | ⟨uop', h, hcase⟩ := uopsOf_cases inst
  · rw [h] at hmem
    cases hmem
  · rw [h, List.mem_singleton] at hmem
    subst hmem
    obtain hcase | hcase | hcase := hcase
    · rw [hbr inst hinst] at hcase
      cases hcase
    · exact absurd hcase (hretf inst hinst)
    · exact hcase

/-! ## Where the translation goes -/

variable {M : Type*} (io : Callbacks M)

/-- The executor at the branch: the micro-ops of the instructions before it have been executed, up
to a `RETF` if there is one. -/
def atBranch (pre : List Instruction) (e : Executor M) : Executor M :=
  (runUops io (pre.flatMap uopsOf) e).1

/-- What the executor returns at a direct branch. -/
lemma microStep_direct {br : Instruction} (h : DirectBranch br) (e : Executor M) :
    ((flow (microStep io) (uopsOf br) (e, none)).finish microDone).2 =
      .ok (if isJcc br.mnemonic then none else some (e.read .rax + br.nearBranch64)) := by
  obtain ⟨hnear, hcase⟩ := h
  have hreg : br.op0Kind ≠ .register := by
    intro hk
    rw [hk] at hnear
    cases hnear
  obtain hjmp | hcall | ⟨hjcc, -, -⟩ := hcase
  · have huops : uopsOf br = [.new .jmpRel .rNone .rNone .rNone br.nearBranch64] := by
      simp [uopsOf, translateInstruction, hjmp, hreg]
    rw [huops, hjmp]
    rfl
  · have huops : uopsOf br = [.new .callRel .rNone .rNone .rNone br.nearBranch64] := by
      simp [uopsOf, translateInstruction, hcall, hreg]
    rw [huops, hcall]
    rfl
  · have huops : uopsOf br = [.new .jccRel .rNone .rNone .rNone br.nearBranch64] := by
      revert hjcc
      unfold uopsOf translateInstruction
      cases br.mnemonic <;> intro hjcc <;> first | rfl | cases hjcc
    rw [huops, hjcc]
    rfl

/-- The word that a return pops. -/
def topOfStack (e : Executor M) : UInt64 :=
  (e.load io (e.read .rsp) true).2

/-- A `RETF` ends the run of its block with the word it pops. -/
lemma runUops_retf {pre : List Instruction} {retf : Instruction} (post : List MicroOpInst)
    (hbr : ∀ inst ∈ pre, isBranchOrRet inst.mnemonic = false)
    (hretf : ∀ inst ∈ pre, inst.mnemonic ≠ .retf) (hr : retf.mnemonic = .retf) (e : Executor M) :
    (runUops io (pre.flatMap uopsOf ++ (uopsOf retf ++ post)) e).2 =
      .ok (some (topOfStack io (atBranch io pre e))) := by
  have huops : uopsOf retf = [.new .ret .rNone .rNone .rNone 0] := by
    simp [uopsOf, translateInstruction, hr, plainUop]
  rw [runUops, flow_append, flow_straight io hbr hretf, Flow.bind_next, huops]
  rfl

/-- The instructions before the first `RETF`. -/
def beforeRetf (pre : List Instruction) : List Instruction :=
  pre.takeWhile fun inst => inst.mnemonic ≠ .retf

lemma beforeRetf_spec {pre : List Instruction} (h : ∃ inst ∈ pre, inst.mnemonic = .retf) :
    ∃ retf post, pre = beforeRetf pre ++ retf :: post ∧ retf.mnemonic = .retf ∧
      ∀ inst ∈ beforeRetf pre, inst.mnemonic ≠ .retf := by
  induction pre with
  | nil => simp at h
  | cons inst pre ih =>
    by_cases hinst : inst.mnemonic = .retf
    · exact ⟨inst, pre, by simp [beforeRetf, hinst], hinst, by simp [beforeRetf, hinst]⟩
    · obtain ⟨retf, post, heq, hr, hno⟩ := ih (by simpa [hinst] using h)
      have hcons : beforeRetf (inst :: pre) = inst :: beforeRetf pre := by
        simp [beforeRetf, hinst]
      rw [hcons]
      exact ⟨retf, post, congrArg (inst :: ·) heq, hr, by simpa [hinst] using hno⟩

/-- When the translation of `pre` and the branch `br` goes where the guest says. If nothing returns
before the branch, RAX is 0 there (`JMP`, `CALL`) or its condition fails (`Jcc`). If a `RETF`
returns first, the branch would be taken and the word popped happens to be its target. -/
def Honoured (pre : List Instruction) (br : Instruction) (e : Executor M) : Prop :=
  if ∃ inst ∈ pre, inst.mnemonic = .retf then
    Taken br (atBranch io pre e).getFlags ∧
      topOfStack io (atBranch io (beforeRetf pre) e) = br.nearBranch64
  else if isJcc br.mnemonic then ¬Taken br (atBranch io pre e).getFlags
  else (atBranch io pre e).read .rax = 0

/-- A block that ends in a direct branch is translated, and its translation goes where the guest
says exactly in the cases of `Honoured`. -/
theorem translateBlock_branch_iff {decoder : Decoder} {code : List UInt8} {x86Ip : UInt64}
    {bitness : UInt32} {pre rest : List Instruction} {br : Instruction}
    (hcode : decoder code x86Ip bitness = pre ++ br :: rest)
    (hpre : ∀ inst ∈ pre, isBranchOrRet inst.mnemonic = false) (hbr : DirectBranch br)
    (hlen : pre.length + 1 ≤ 256) (e : Executor M) :
    ∃ tb, translateBlock decoder code x86Ip bitness = .ok tb ∧
      ((executeBlock io e tb).2 = .ok (branchGoal br (atBranch io pre e).getFlags) ↔
        Honoured io pre br e) := by
  have hblock : blockOf (decoder code x86Ip bitness) = pre ++ [br] := by
    rw [hcode, blockOf_append rest hpre (isBranchOrRet_of_direct hbr)]
  have hfit : (blockOf (decoder code x86Ip bitness)).length ≤ maxMicroOpsPerBlock := by
    rw [hblock, List.length_append]
    exact hlen
  obtain ⟨tb, htb, hact⟩ := translateBlock_fits hfit
  refine ⟨tb, htb, ?_⟩
  have hexec : executeBlock io e tb = runUops io (pre.flatMap uopsOf ++ uopsOf br) e := by
    rw [executeBlock_eq, hact, hblock, runUops, List.flatMap_append, List.flatMap_singleton]
  by_cases hretf : ∃ inst ∈ pre, inst.mnemonic = .retf
  · have hres : (executeBlock io e tb).2 =
        .ok (some (topOfStack io (atBranch io (beforeRetf pre) e))) := by
      obtain ⟨retf, post, heq, hr, hno⟩ := beforeRetf_spec hretf
      have hbefore : ∀ inst ∈ beforeRetf pre, isBranchOrRet inst.mnemonic = false :=
        fun inst h => hpre inst (List.takeWhile_subset _ h)
      have hflat : pre.flatMap uopsOf ++ uopsOf br = (beforeRetf pre).flatMap uopsOf ++
          (uopsOf retf ++ (post.flatMap uopsOf ++ uopsOf br)) := by
        conv_lhs => rw [heq]
        simp
      rw [hexec, hflat]
      exact runUops_retf io _ hbefore hno hr e
    rw [hres, Honoured, if_pos hretf]
    by_cases htaken : Taken br (atBranch io pre e).getFlags
    · simp [branchGoal, htaken]
    · simp [branchGoal, htaken]
  · have hno : ∀ inst ∈ pre, inst.mnemonic ≠ .retf := fun inst h hr => hretf ⟨inst, h, hr⟩
    have hres : (executeBlock io e tb).2 = .ok (if isJcc br.mnemonic then none
        else some ((atBranch io pre e).read .rax + br.nearBranch64)) := by
      rw [hexec, runUops, flow_append, flow_straight io hpre hno, Flow.bind_next]
      exact microStep_direct io hbr _
    rw [hres, Honoured, if_neg hretf]
    cases hjcc : isJcc br.mnemonic with
    | true => simp [branchGoal]
    | false => simp [branchGoal, Taken, hjcc]

/-- A two-byte direct branch. -/
def shortBranch (m : Mnemonic) (ip target : UInt64) : Instruction where
  ip := ip
  len := 2
  mnemonic := m
  mnemonicValue := 0
  op0Kind := .nearBranch64
  op1Kind := .register
  op0Register := .other 0
  op1Register := .other 0
  memoryBase := .other 0
  memoryDisplacement64 := 0
  immediate64 := 0
  nearBranch64 := target

/-- A decoder that is right on a buffer with one short `JMP` or `JE`. -/
def shortBranchDecoder : Decoder
  | [b, rel], ip, _ =>
    let target := ip + 2 + rel.toInt8.toInt64.toUInt64
    if b = 0xEB then [shortBranch .jmp ip target]
    else if b = 0x74 then [shortBranch .je ip target]
    else []
  | _, _, _ => []

theorem translateBlock_branch_iff_jmp :
    ∃ tb, translateBlock shortBranchDecoder [0xEB, 0x0E] 0x1000 64 = .ok tb ∧
      (executeBlock ⟨none, none⟩ ⟨RegisterFile.new, ()⟩ tb).2 = .ok (some 0x1010) := by
  have hcode : shortBranchDecoder [0xEB, 0x0E] 0x1000 64 =
      [] ++ shortBranch .jmp 0x1000 0x1010 :: [] := rfl
  obtain ⟨tb, htb, hiff⟩ := translateBlock_branch_iff ⟨none, none⟩ hcode (by simp)
    ⟨rfl, .inl rfl⟩ (by decide) ⟨RegisterFile.new, ()⟩
  refine ⟨tb, htb, hiff.mpr ?_⟩
  rw [Honoured, if_neg (by decide), if_neg (by decide)]
  rfl

/-- With RAX = 1 a `JMP` to 0x1010 goes to 0x1011, and with ZF set a `JE` falls through. -/
theorem translateBlock_branch_not :
    (∃ tb, translateBlock shortBranchDecoder [0xEB, 0x0E] 0x1000 64 = .ok tb ∧
      (executeBlock ⟨none, none⟩ ⟨RegisterFile.new.write .rax 1, ()⟩ tb).2 = .ok (some 0x1011) ∧
      branchGoal (shortBranch .jmp 0x1000 0x1010) 0 = some 0x1010) ∧
    ∃ tb, translateBlock shortBranchDecoder [0x74, 0x0E] 0x1000 64 = .ok tb ∧
      (executeBlock ⟨none, none⟩ ⟨RegisterFile.new.setFlags 0x40, ()⟩ tb).2 = .ok none ∧
      branchGoal (shortBranch .je 0x1000 0x1010) 0x40 = some 0x1010 := by
  refine ⟨⟨_, rfl, ?_, rfl⟩, ⟨_, rfl, ?_, by decide⟩⟩
  · rw [executeBlock_eq]
    rfl
  · rw [executeBlock_eq]
    rfl

end Bemi.Dbt
