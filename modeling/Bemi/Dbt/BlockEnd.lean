import Bemi.Dbt.Branch

/-!
# Block ends

Where the translator ends a block against where the executor leaves it. `is_branch_or_ret` lists the
mnemonics after which decoding stops, `execute_block` the micro-ops after which execution stops, and
`translate_instruction` maps the one to the other. They agree but for `RETF`, which becomes a `Ret`
and does not end its block.
-/

namespace Bemi.Dbt
open Machine

/-! ## What an instruction becomes -/

lemma mem_translateMov {inst : Instruction} {uop : MicroOpInst} (h : uop ∈ translateMov inst) :
    uop.code.fallsThrough = true := by
  obtain hnil | ⟨uop', hone, hfall⟩ := translateMov_cases inst
  · rw [hnil] at h
    cases h
  · rw [hone, List.mem_singleton] at h
    exact h ▸ hfall

lemma mem_translateBinary {inst : Instruction} {rrCode riCode : MicroOpCode} {uop : MicroOpInst}
    (h : uop ∈ translateBinary inst rrCode riCode) (hrr : rrCode.fallsThrough = true)
    (hri : riCode.fallsThrough = true) : uop.code.fallsThrough = true := by
  obtain hnil | ⟨uop', hone, hfall⟩ := translateBinary_cases inst hrr hri
  · rw [hnil] at h
    cases h
  · rw [hone, List.mem_singleton] at h
    exact h ▸ hfall

/-- A micro-op made by the translator falls through or ends the block; none can fail. It ends the
block only if its instruction is a branch, a return or a halt, or a `RETF`. -/
lemma uopsOf_ends {inst : Instruction} {uop : MicroOpInst} (h : uop ∈ uopsOf inst) :
    uop.code.fallsThrough = true ∨ uop.code.endsBlock = true ∧
      (isBranchOrRet inst.mnemonic = true ∨ inst.mnemonic = .retf) := by
  revert h
  unfold uopsOf translateInstruction
  cases inst.mnemonic with
  | mov => exact fun h => .inl (mem_translateMov h)
  | add | sub | cmp | and | or | xor | shl | sal | shr | sar =>
    exact fun h => .inl (mem_translateBinary h rfl rfl)
  | jmp | call =>
    dsimp only
    split_ifs <;> exact fun h => List.mem_singleton.mp h ▸ .inr ⟨rfl, .inl rfl⟩
  | jo | jno | jb | jae | je | jne | jbe | ja | js | jns | jp | jnp | jl | jge | jle | jg | ret
  | hlt => exact fun h => List.mem_singleton.mp h ▸ .inr ⟨rfl, .inl rfl⟩
  | retf => exact fun h => List.mem_singleton.mp h ▸ .inr ⟨rfl, .inr rfl⟩
  | _ => exact fun h => List.mem_singleton.mp h ▸ .inl rfl

lemma uopsOf_retf {inst : Instruction} (h : inst.mnemonic = .retf) :
    uopsOf inst = [.new .ret .rNone .rNone .rNone 0] := by
  simp [uopsOf, translateInstruction, h, plainUop]

/-- A micro-op of a block, traced back to its instruction. -/
lemma flatMap_uopsOf_split {insts : List Instruction} {pre post : List MicroOpInst}
    {uop : MicroOpInst} (h : insts.flatMap uopsOf = pre ++ uop :: post) :
    ∃ before inst after, insts = before ++ inst :: after ∧ uop ∈ uopsOf inst ∧
      before.flatMap uopsOf = pre ∧ after.flatMap uopsOf = post := by
  induction insts generalizing pre with
  | nil => simp at h
  | cons inst rest ih =>
    have skip {uops : List MicroOpInst} (huops : uopsOf inst = uops) {pre' : List MicroOpInst}
        (hpre : pre = uops ++ pre') (hrest : rest.flatMap uopsOf = pre' ++ uop :: post) :
        ∃ before i after, inst :: rest = before ++ i :: after ∧ uop ∈ uopsOf i ∧
          before.flatMap uopsOf = pre ∧ after.flatMap uopsOf = post := by
      obtain ⟨before, i, after, heq, hmem, hbefore, hafter⟩ := ih hrest
      exact ⟨inst :: before, i, after, congrArg (inst :: ·) heq, hmem,
        by rw [List.flatMap_cons, huops, hbefore, hpre], hafter⟩
    rw [List.flatMap_cons] at h
    obtain hnil | ⟨uop', hone, -⟩ := uopsOf_cases inst
    · rw [hnil, List.nil_append] at h
      exact skip hnil rfl h
    · rw [hone, List.singleton_append] at h
      cases pre with
      | nil =>
        obtain ⟨rfl, rfl⟩ := List.cons.inj h
        exact ⟨[], inst, rest, rfl, by rw [hone]; exact List.mem_singleton_self _, rfl, rfl⟩
      | cons p pre =>
        obtain ⟨rfl, hrest⟩ := List.cons.inj h
        exact skip hone rfl hrest

/-- Only the last instruction of a block is a branch, a return or a halt. -/
lemma blockOf_last {insts before after : List Instruction} {inst : Instruction}
    (h : blockOf insts = before ++ inst :: after) (hbr : isBranchOrRet inst.mnemonic = true) :
    after = [] := by
  induction insts generalizing before with
  | nil => simp [blockOf] at h
  | cons i rest ih =>
    rw [blockOf] at h
    split at h
    · cases before with
      | nil => exact (List.cons.inj h).2.symm
      | cons b before => simp at h
    · cases before with
      | nil =>
        obtain ⟨rfl, -⟩ := List.cons.inj h
        exact absurd hbr ‹_›
      | cons b before => exact ih (List.cons.inj h).2

/-! ## Where execution stops -/

variable {M : Type*} (io : Callbacks M)

/-- A micro-op that ends the block stops the run. -/
lemma microStep_ends {uop : MicroOpInst} (h : uop.code.endsBlock = true)
    (s : Executor M × Option BemiWord) :
    ∃ e nextIp, microStep io uop s = .stop (e, .ok nextIp) := by
  obtain ⟨code, dst, src1, src2, immediate, operandSize⟩ := uop
  cases code with
  | ret | jmpRel | jmpAbs | callRel | callAbs | traceExit | hlt => exact ⟨_, _, rfl⟩
  | jccRel =>
    unfold microStep executeInst
    dsimp only
    cases jccTaken s.1.getFlags src2.toU8 with
    | true => exact ⟨_, _, rfl⟩
    | false => exact ⟨_, _, rfl⟩
  | _ => cases h

/-- A micro-op at which `execute_block` stops is the last active one. -/
def TranslationBlock.EndsLast (tb : TranslationBlock) : Prop :=
  ∀ pre uop post, tb.active = pre ++ uop :: post → uop.code.endsBlock = true → post = []

/-- `execute_block` gets to an instruction: its micro-ops and those of the instructions before it are
in the block, and none of the latter stops the run. -/
def TranslationBlock.Reaches (tb : TranslationBlock) (before : List Instruction)
    (inst : Instruction) (e : Executor M) : Prop :=
  before.flatMap uopsOf ++ uopsOf inst <+: tb.active ∧
    ∃ s, flow (microStep io) (before.flatMap uopsOf) (e, none) = .next s

/-- Unless a micro-op fails, `execute_block` gets to all instructions counted. -/
def TranslationBlock.AllReached (tb : TranslationBlock) (insts : List Instruction)
    (e : Executor M) : Prop :=
  ∀ nextIp, (executeBlock io e tb).2 = .ok nextIp → ∀ before inst after,
    insts.take tb.instructionCount.toNat = before ++ inst :: after → tb.Reaches io before inst e

/-- A `RETF` can only be the last instruction of a block. -/
def RetfLast (block : List Instruction) : Prop :=
  ∀ before retf after, block = before ++ retf :: after → retf.mnemonic = .retf → after = []

/-- The result of micro-ops that cannot fail. -/
lemma finish_ok {uops : List MicroOpInst}
    (hcode : ∀ uop ∈ uops, uop.code.fallsThrough = true ∨ uop.code.endsBlock = true)
    (e : Executor M) :
    ∃ nextIp, ((flow (microStep io) uops (e, none)).finish microDone).2 = .ok nextIp := by
  induction uops generalizing e with
  | nil => exact ⟨none, rfl⟩
  | cons uop uops ih =>
    obtain hfall | hend := hcode uop (by simp)
    · obtain ⟨e', hstep⟩ := microStep_fallsThrough io hfall e none
      rw [flow_cons, hstep]
      exact ih (fun u hu => hcode u (List.mem_cons_of_mem _ hu)) e'
    · obtain ⟨e', nextIp, hstep⟩ := microStep_ends io hend (e, none)
      rw [flow_cons, hstep]
      exact ⟨nextIp, rfl⟩

/-- Nothing behind a `RETF` is reached. -/
lemma not_reaches_retf {tb : TranslationBlock} {before : List Instruction} {retf : Instruction}
    (hr : retf.mnemonic = .retf) (inst : Instruction) (e : Executor M) :
    ¬ tb.Reaches io (before ++ [retf]) inst e := by
  rintro ⟨-, s, hflow⟩
  rw [List.flatMap_append, List.flatMap_singleton, uopsOf_retf hr, flow_concat] at hflow
  cases hbefore : flow (microStep io) (before.flatMap uopsOf) (e, none) with
  | next s' =>
    have hends : (MicroOpInst.new .ret .rNone .rNone .rNone 0).code.endsBlock = true := rfl
    obtain ⟨e', nextIp, hstep⟩ := microStep_ends io hends s'
    rw [hbefore, Flow.bind_next, hstep] at hflow
    cases hflow
  | stop r =>
    rw [hbefore] at hflow
    cases hflow

/-- Before the last instruction of a block everything falls through, but for a `RETF`. -/
lemma flow_before {insts before after : List Instruction} {inst : Instruction}
    (h : blockOf insts = before ++ inst :: after) (hretf : RetfLast (blockOf insts))
    (e : Executor M) : ∃ s, flow (microStep io) (before.flatMap uopsOf) (e, none) = .next s := by
  refine ⟨_, flow_fallsThrough io (fun uop huop => ?_) e⟩
  obtain ⟨i, hi, hmem⟩ := List.mem_flatMap.mp huop
  obtain ⟨pre, post, rfl⟩ := List.append_of_mem hi
  have hsplit : blockOf insts = pre ++ i :: (post ++ inst :: after) := by
    rw [h, List.append_assoc, List.cons_append]
  have hne : post ++ inst :: after ≠ [] := List.append_ne_nil_of_right_ne_nil _ (by simp)
  obtain hfall | ⟨-, hbr | hr⟩ := uopsOf_ends hmem
  · exact hfall
  · exact absurd (blockOf_last hsplit hbr) hne
  · exact absurd (hretf _ _ _ hsplit hr) hne

/-- In a translated block the micro-op at which execution stops is the last one and every instruction
counted is reached, exactly when no instruction follows a `RETF` and the block fits. -/
theorem translateBlock_ends_iff {decoder : Decoder} {code : List UInt8} {x86Ip : UInt64}
    {bitness : UInt32} {tb : TranslationBlock}
    (h : translateBlock decoder code x86Ip bitness = .ok tb) (e : Executor M) :
    (tb.EndsLast ∧ tb.AllReached io (decoder code x86Ip bitness) e) ↔
      RetfLast (blockOf (decoder code x86Ip bitness)) ∧
        ((blockOf (decoder code x86Ip bitness)).flatMap uopsOf).length ≤ maxMicroOpsPerBlock := by
  obtain ⟨hact, hic, -⟩ := translateBlock_spec h
  rw [TranslationBlock.EndsLast, TranslationBlock.AllReached, hic, take_blockOf, executeBlock_eq]
  constructor
  · rintro ⟨-, hall⟩
    have hcode : ∀ uop ∈ tb.active,
        uop.code.fallsThrough = true ∨ uop.code.endsBlock = true := by
      intro uop huop
      rw [hact] at huop
      obtain ⟨inst, -, hmem⟩ := List.mem_flatMap.mp (List.mem_of_mem_take huop)
      exact (uopsOf_ends hmem).imp_right And.left
    obtain ⟨nextIp, hok⟩ := finish_ok io hcode e
    constructor
    · intro before retf after hblock hr
      cases after with
      | nil => rfl
      | cons inst after =>
        have hreach := hall nextIp hok (before ++ [retf]) inst after (by simp [hblock])
        exact absurd hreach (not_reaches_retf io hr inst e)
    · rcases List.eq_nil_or_concat' (blockOf (decoder code x86Ip bitness)) with hnil | hlast
      · rw [hnil]
        exact Nat.zero_le _
      · obtain ⟨before, inst, hblock⟩ := hlast
        obtain ⟨hreached, -⟩ := hall nextIp hok before inst [] hblock
        rw [hblock, List.flatMap_append, List.flatMap_singleton]
        calc (before.flatMap uopsOf ++ uopsOf inst).length
          _ ≤ tb.active.length := hreached.length_le
          _ = tb.microOpCount := tb.length_active
          _ ≤ maxMicroOpsPerBlock := tb.count_le
  · rintro ⟨hretf, hfit⟩
    rw [List.take_of_length_le hfit] at hact
    rw [hact]
    constructor
    · intro pre uop post heq hend
      obtain ⟨before, inst, after, hblock, hmem, -, rfl⟩ := flatMap_uopsOf_split heq
      obtain hfall | ⟨-, hbr | hr⟩ := uopsOf_ends hmem
      · revert hfall hend
        cases uop.code <;> simp [MicroOpCode.fallsThrough, MicroOpCode.endsBlock]
      · rw [blockOf_last hblock hbr, List.flatMap_nil]
      · rw [hretf before inst after hblock hr, List.flatMap_nil]
    · intro nextIp _ before inst after hblock
      refine ⟨⟨after.flatMap uopsOf, ?_⟩, flow_before io hblock hretf e⟩
      rw [hact, hblock, List.flatMap_append, List.flatMap_cons, List.append_assoc]

/-- A decoder that is right on buffers of `RETF`, NOP, RET and HLT. -/
def retfDecoder : Decoder
  | [], _, _ => []
  | b :: code, ip, bitness =>
    (if b = 0xCB then { byteInstruction b ip with mnemonic := .retf } else byteInstruction b ip) ::
      retfDecoder code (ip + 1) bitness

theorem translateBlock_ends_iff_nopRetf :
    ∃ tb, translateBlock retfDecoder [0x90, 0xCB] 0x1000 64 = .ok tb ∧ tb.EndsLast ∧
      tb.AllReached ⟨none, none⟩ (retfDecoder [0x90, 0xCB] 0x1000 64)
        ⟨RegisterFile.new, ()⟩ := by
  refine ⟨_, rfl, (translateBlock_ends_iff ⟨none, none⟩ rfl ⟨RegisterFile.new, ()⟩).mpr ⟨?_, ?_⟩⟩
  · intro before retf after hblock hr
    match before with
    | [] =>
      obtain ⟨rfl, -⟩ := List.cons.inj hblock
      cases hr
    | [_] =>
      obtain ⟨-, hafter⟩ := List.cons.inj (List.cons.inj hblock).2
      exact hafter.symm
    | _ :: _ :: before => simp [retfDecoder, blockOf, byteInstruction, isBranchOrRet] at hblock
  · decide

/-- A NOP behind `RETF` is translated and counted, but never reached. -/
theorem translateBlock_ends_not :
    ∃ tb, translateBlock retfDecoder [0xCB, 0x90] 0x1000 64 = .ok tb ∧
      tb.instructionCount = 2 ∧ ¬ tb.EndsLast := by
  obtain ⟨tb, htb⟩ := translateBlock_ok retfDecoder [0xCB, 0x90] 0x1000 64 (by decide)
  obtain ⟨hact, hic, -⟩ := translateBlock_spec htb
  refine ⟨tb, htb, UInt32.toNat_inj.mp hic, fun h => ?_⟩
  have hnil := h [] (.new .ret .rNone .rNone .rNone 0) [.new .nop .rNone .rNone .rNone 0] hact rfl
  cases hnil

end Bemi.Dbt
