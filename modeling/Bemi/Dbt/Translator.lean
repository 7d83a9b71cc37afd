import Mathlib.Algebra.GroupWithZero.Nat
import Mathlib.Data.List.TakeDrop
import Bemi.Dbt.Decoder

/-!
# Block translator

Model of `dbt/translator.rs`: `translate_instruction` and the decode loop of `translate_block`. The
inner loop stops at the first micro-op that does not fit, the outer one goes on decoding and
counting until a branch or the end of the buffer. `instruction_count` is a `u32` whose increment is
overflow-checked, `guest_size` is the byte count truncated to 32 bits.

`translateBlock_covers_iff`: the block covers what its counters say exactly when nothing overflows.
-/

namespace Bemi.Dbt

def isBranchOrRet : Mnemonic → Bool
  | .jmp
  | .jo | .jno | .jb | .jae
  | .je | .jne | .jbe | .ja
  | .js | .jns | .jp | .jnp
  | .jl | .jge | .jle | .jg
  | .call | .ret | .iret | .hlt => true
  | _ => false

def isJcc : Mnemonic → Bool
  | .jo | .jno | .jb | .jae
  | .je | .jne | .jbe | .ja
  | .js | .jns | .jp | .jnp
  | .jl | .jge | .jle | .jg => true
  | _ => false

def isSetcc : Mnemonic → Bool
  | .seta | .setae | .setb | .setbe
  | .setc | .setnc | .sete | .setne
  | .setg | .setge | .setl | .setle
  | .seto | .setno | .sets | .setns
  | .setp | .setnp => true
  | _ => false

def isImm : OpKind → Bool
  | .immediate8 | .immediate16 | .immediate32 | .immediate64
  | .immediate8to16 | .immediate8to32 | .immediate8to64
  | .immediate32to64 => true
  | _ => false

/-- `translate_mov`: the micro-ops it appends. -/
def translateMov (inst : Instruction) : List MicroOpInst :=
  let dstKind := inst.op0Kind
  let srcKind := inst.op1Kind
  let opSize : UInt8 := 8
  if dstKind = .register ∧ srcKind = .register then
    let dst := mapRegister inst.op0Register
    let src := mapRegister inst.op1Register
    [(MicroOpInst.new .movRR dst src .rNone 0).withSize opSize]
  else if dstKind = .register ∧ isImm srcKind then
    let dst := mapRegister inst.op0Register
    [(MicroOpInst.new .movRI dst .rNone .rNone inst.immediate64).withSize opSize]
  else if dstKind = .register ∧ srcKind = .memory then
    let dst := mapRegister inst.op0Register
    let base := mapRegister inst.memoryBase
    [(MicroOpInst.new .movRM dst base .rNone inst.memoryDisplacement64).withSize opSize]
  else if dstKind = .memory ∧ srcKind = .register then
    let src := mapRegister inst.op1Register
    let base := mapRegister inst.memoryBase
    [(MicroOpInst.new .movMR base src .rNone inst.memoryDisplacement64).withSize opSize]
  else if dstKind = .memory ∧ isImm srcKind then
    -- the displacement is read and dropped
    let base := mapRegister inst.memoryBase
    [(MicroOpInst.new .movMI base .rNone .rNone inst.immediate64).withSize opSize]
  else []

/-- `translate_binary`: the micro-ops it appends. -/
def translateBinary (inst : Instruction) (rrCode riCode : MicroOpCode) : List MicroOpInst :=
  let dstKind := inst.op0Kind
  let srcKind := inst.op1Kind
  let opSize : UInt8 := 8
  if dstKind = .register ∧ srcKind = .register then
    let dst := mapRegister inst.op0Register
    let src := mapRegister inst.op1Register
    [(MicroOpInst.new rrCode dst dst src 0).withSize opSize]
  else if dstKind = .register ∧ isImm srcKind then
    let dst := mapRegister inst.op0Register
    [(MicroOpInst.new riCode dst dst .rNone inst.immediate64).withSize opSize]
  else []

/-- A micro-op without operands. -/
def plainUop (code : MicroOpCode) : List MicroOpInst :=
  [MicroOpInst.new code .rNone .rNone .rNone 0]

/-- `translate_instruction`. It has no error path: every mnemonic outside the list is a `Nop`. -/
def translateInstruction (inst : Instruction) : Except String (List MicroOpInst) :=
  let opSize : UInt8 := 8
  let m := inst.mnemonic
  match m with
  | .nop => .ok (plainUop .nop)
  | .mov => .ok (translateMov inst)
  | .movzx =>
    let dst := mapRegister inst.op0Register
    let src := mapRegister inst.op1Register
    .ok [(MicroOpInst.new .movzxRR dst src .rNone 0).withSize opSize]
  | .movsx =>
    let dst := mapRegister inst.op0Register
    let src := mapRegister inst.op1Register
    .ok [(MicroOpInst.new .movsxRR dst src .rNone 0).withSize opSize]
  | .movsxd =>
    let dst := mapRegister inst.op0Register
    let src := mapRegister inst.op1Register
    .ok [(MicroOpInst.new .movsxd dst src .rNone 0).withSize opSize]
  | .add => .ok (translateBinary inst .addRR .addRI)
  | .sub => .ok (translateBinary inst .subRR .subRI)
  | .cmp => .ok (translateBinary inst .cmpRR .cmpRI)
  | .and => .ok (translateBinary inst .andRR .andRR)
  | .or => .ok (translateBinary inst .orRR .orRR)
  | .xor => .ok (translateBinary inst .xorRR .xorRR)
  | .shl | .sal => .ok (translateBinary inst .shlRR .shlRR)
  | .shr => .ok (translateBinary inst .shrRR .shrRR)
  | .sar => .ok (translateBinary inst .sarRR .sarRR)
  | .rol =>
    let dst := mapRegister inst.op0Register
    .ok [(MicroOpInst.new .rolRI dst dst .rNone inst.immediate64).withSize opSize]
  | .ror =>
    let dst := mapRegister inst.op0Register
    .ok [(MicroOpInst.new .rorRI dst dst .rNone inst.immediate64).withSize opSize]
  | .push =>
    let src := mapRegister inst.op0Register
    .ok [(MicroOpInst.new .pushR .rNone src .rNone 0).withSize opSize]
  | .pop =>
    let dst := mapRegister inst.op0Register
    .ok [(MicroOpInst.new .popR dst .rNone .rNone 0).withSize opSize]
  | .inc =>
    let dst := mapRegister inst.op0Register
    .ok [(MicroOpInst.new .incR dst dst .rNone 0).withSize opSize]
  | .dec =>
    let dst := mapRegister inst.op0Register
    .ok [(MicroOpInst.new .decR dst dst .rNone 0).withSize opSize]
  | .jmp =>
    if inst.op0Kind = .register then
      let target := mapRegister inst.op0Register
      .ok [MicroOpInst.new .jmpAbs .rNone target .rNone 0]
    else
      .ok [MicroOpInst.new .jmpRel .rNone .rNone .rNone inst.nearBranch64]
  | .call =>
    if inst.op0Kind = .register then
      let target := mapRegister inst.op0Register
      .ok [MicroOpInst.new .callAbs .rNone target .rNone 0]
    else
      .ok [MicroOpInst.new .callRel .rNone .rNone .rNone inst.nearBranch64]
  | .ret | .retf => .ok (plainUop .ret)
  | .hlt => .ok (plainUop .hlt)
  | .cli => .ok (plainUop .cli)
  | .sti => .ok (plainUop .sti)
  | _ =>
    if isJcc m then .ok [MicroOpInst.new .jccRel .rNone .rNone .rNone inst.nearBranch64]
    else if isSetcc m then
      let dst := mapRegister inst.op0Register
      .ok [(MicroOpInst.new .setcc dst .rNone .rNone inst.mnemonicValue).withSize opSize]
    else
      -- "Safe fallback: emit Nop"
      .ok (plainUop .nop)

/-- How `translate_block` ends; `panic` is the overflow of `instruction_count`. -/
inductive TranslateResult where
  | ok (tb : TranslationBlock)
  | err (msg : String)
  | panic

/-- The inner loop: push the micro-ops until one is refused. -/
def pushAll (tb : TranslationBlock) : List MicroOpInst → TranslationBlock
  | [] => tb
  | uop :: uops =>
    match tb.push uop with
    | (tb, true) => pushAll tb uops
    | (tb, false) => tb

/-- The decode loop; `guestBytesRead` counts the bytes decoded so far. -/
def translateLoop : List Instruction → TranslationBlock → Nat → TranslateResult
  | [], tb, guestBytesRead => .ok { tb with guestSize := UInt32.ofNat guestBytesRead }
  | instruction :: rest, tb, guestBytesRead =>
    let guestBytesRead := guestBytesRead + instruction.len
    match translateInstruction instruction with
    | .error e => .err e
    | .ok uops =>
      let tb := pushAll tb uops
      if tb.instructionCount = 0xFFFFFFFF then .panic
      else
        let tb := { tb with instructionCount := tb.instructionCount + 1 }
        if isBranchOrRet instruction.mnemonic then
          .ok { tb with guestSize := UInt32.ofNat guestBytesRead }
        else translateLoop rest tb guestBytesRead

def translateBlock (decoder : Decoder) (code : List UInt8) (x86Ip : UInt64) (bitness : UInt32) :
    TranslateResult :=
  translateLoop (decoder code x86Ip bitness) (TranslationBlock.new x86Ip) 0

/-! ## What a translated block holds -/

/-- The micro-ops `translate_instruction` makes of an instruction. -/
def uopsOf (inst : Instruction) : List MicroOpInst :=
  match translateInstruction inst with
  | .ok uops => uops
  | .error _ => []

/-- The bytes of a list of instructions. -/
def bytesOf (insts : List Instruction) : Nat :=
  (insts.map Instruction.len).sum

/-- The instructions of one block: up to and including the first branch, return or halt. -/
def blockOf : List Instruction → List Instruction
  | [] => []
  | inst :: rest => if isBranchOrRet inst.mnemonic then [inst] else inst :: blockOf rest

lemma translateInstruction_ok (inst : Instruction) :
    translateInstruction inst = .ok (uopsOf inst) := by
  have h : ∃ uops, translateInstruction inst = .ok uops := by
    unfold translateInstruction
    dsimp only
    split <;> (try split) <;> (try split) <;> exact ⟨_, rfl⟩
  obtain ⟨uops, h⟩ := h
  rw [uopsOf, h]

/-- The instructions of one block are the first ones decoded. -/
lemma take_blockOf (insts : List Instruction) :
    insts.take (blockOf insts).length = blockOf insts := by
  induction insts with
  | nil => rfl
  | cons inst rest ih =>
    rw [blockOf]
    split
    · rfl
    · rw [List.length_cons, List.take_succ_cons, ih]

/-- A straight-line run ends its block at the first branch. -/
lemma blockOf_append {pre : List Instruction} {br : Instruction} (rest : List Instruction)
    (hpre : ∀ inst ∈ pre, isBranchOrRet inst.mnemonic = false)
    (hbr : isBranchOrRet br.mnemonic = true) :
    blockOf (pre ++ br :: rest) = pre ++ [br] := by
  induction pre with
  | nil => simp [blockOf, hbr]
  | cons inst pre ih =>
    have hinst := hpre inst (by simp)
    rw [List.cons_append, blockOf, hinst, if_neg (by simp),
      ih fun i hi => hpre i (List.mem_cons_of_mem _ hi)]
    rfl

/-- The inner loop appends what fits. -/
lemma pushAll_spec (tb : TranslationBlock) (uops : List MicroOpInst) :
    (pushAll tb uops).active = (tb.active ++ uops).take maxMicroOpsPerBlock ∧
      (pushAll tb uops).instructionCount = tb.instructionCount := by
  induction uops generalizing tb with
  | nil => simp [pushAll]
  | cons uop uops ih =>
    rw [pushAll]
    by_cases h : tb.microOpCount < maxMicroOpsPerBlock
    · have hpush : tb.push uop = ((tb.push uop).1, true) := by simp [TranslationBlock.push, h]
      have hcount : (tb.push uop).1.instructionCount = tb.instructionCount := by
        simp [TranslationBlock.push, h]
      obtain ⟨hact, hic⟩ := ih (tb.push uop).1
      rw [hpush]
      rw [tb.active_push uop h, List.append_assoc] at hact
      exact ⟨hact, hic.trans hcount⟩
    · rw [tb.push_full uop h]
      have hlen : tb.active.length = maxMicroOpsPerBlock := by
        have hle := tb.count_le
        rw [tb.length_active]
        omega
      exact ⟨by rw [List.take_append_of_le_length (Nat.le_of_eq hlen.symm), tb.take_active], rfl⟩

/-- What one step of the decode loop does: it counts the instruction and keeps what fits. -/
lemma translateLoop_cons (inst : Instruction) (rest : List Instruction) (tb : TranslationBlock)
    (guestBytesRead : Nat) (h : tb.instructionCount.toNat + 1 < 2 ^ 32) :
    ∃ tb₁ : TranslationBlock,
      tb₁.active = (tb.active ++ uopsOf inst).take maxMicroOpsPerBlock ∧
      tb₁.instructionCount.toNat = tb.instructionCount.toNat + 1 ∧
      translateLoop (inst :: rest) tb guestBytesRead =
        if isBranchOrRet inst.mnemonic then
          .ok { tb₁ with guestSize := UInt32.ofNat (guestBytesRead + inst.len) }
        else translateLoop rest tb₁ (guestBytesRead + inst.len) := by
  obtain ⟨hact, hic⟩ := pushAll_spec tb (uopsOf inst)
  have hne : (pushAll tb (uopsOf inst)).instructionCount ≠ 0xFFFFFFFF := by
    rw [hic]
    intro hmax
    rw [hmax] at h
    exact absurd h (by decide)
  refine ⟨{ pushAll tb (uopsOf inst) with
    instructionCount := (pushAll tb (uopsOf inst)).instructionCount + 1 }, hact, ?_, ?_⟩
  · change ((pushAll tb (uopsOf inst)).instructionCount + 1).toNat = _
    rw [hic, UInt32.toNat_add]
    exact Nat.mod_eq_of_lt h
  · rw [translateLoop, translateInstruction_ok]
    dsimp only
    rw [if_neg hne]

/-- The overflow of `instruction_count` ends the loop. -/
lemma translateLoop_overflow (inst : Instruction) (rest : List Instruction)
    (tb : TranslationBlock) (guestBytesRead : Nat)
    (h : ¬ tb.instructionCount.toNat + 1 < 2 ^ 32) :
    translateLoop (inst :: rest) tb guestBytesRead = .panic := by
  obtain ⟨-, hic⟩ := pushAll_spec tb (uopsOf inst)
  have hmax : tb.instructionCount = 0xFFFFFFFF := by
    apply UInt32.toNat_inj.mp
    have := tb.instructionCount.toNat_lt
    have : (0xFFFFFFFF : UInt32).toNat = 2 ^ 32 - 1 := by decide
    omega
  rw [translateLoop, translateInstruction_ok]
  dsimp only
  rw [if_pos (hic.trans hmax)]

/-- What the decode loop returns: the first 256 micro-ops of the block, all its instructions
counted, all its bytes counted modulo `2 ^ 32`. -/
lemma translateLoop_spec {insts : List Instruction} {tb tb' : TranslationBlock}
    {guestBytesRead : Nat} (h : translateLoop insts tb guestBytesRead = .ok tb') :
    tb'.active = (tb.active ++ (blockOf insts).flatMap uopsOf).take maxMicroOpsPerBlock ∧
      tb'.instructionCount.toNat = tb.instructionCount.toNat + (blockOf insts).length ∧
      tb'.guestSize = UInt32.ofNat (guestBytesRead + bytesOf (blockOf insts)) := by
  induction insts generalizing tb guestBytesRead with
  | nil =>
    cases h
    rw [blockOf, List.flatMap_nil, List.append_nil, tb.take_active]
    exact ⟨rfl, rfl, rfl⟩
  | cons inst rest ih =>
    by_cases hlt : tb.instructionCount.toNat + 1 < 2 ^ 32
    · obtain ⟨tb₁, hact, hic, heq⟩ := translateLoop_cons inst rest tb guestBytesRead hlt
      rw [heq] at h
      cases hbr : isBranchOrRet inst.mnemonic with
      | true =>
        rw [hbr, if_pos rfl] at h
        cases h
        simp only [blockOf, hbr, if_pos, bytesOf]
        exact ⟨by rw [List.flatMap_singleton]; exact hact, hic, by simp⟩
      | false =>
        rw [hbr, if_neg (by simp)] at h
        obtain ⟨hact', hic', hgs'⟩ := ih h
        simp only [blockOf, hbr, bytesOf] at hact' hic' hgs' ⊢
        refine ⟨?_, ?_, ?_⟩
        · rw [hact', hact, Filling.take_take_append]
          simp
        · rw [hic', hic]
          simp
          omega
        · rw [hgs']
          simp [Nat.add_assoc]
    · rw [translateLoop_overflow inst rest tb guestBytesRead hlt] at h
      cases h

/-- A block whose counter cannot overflow is translated. -/
lemma translateLoop_ok {insts : List Instruction} {tb : TranslationBlock} {guestBytesRead : Nat}
    (h : tb.instructionCount.toNat + (blockOf insts).length < 2 ^ 32) :
    ∃ tb', translateLoop insts tb guestBytesRead = .ok tb' := by
  induction insts generalizing tb guestBytesRead with
  | nil => exact ⟨_, rfl⟩
  | cons inst rest ih =>
    cases hbr : isBranchOrRet inst.mnemonic with
    | true =>
      simp only [blockOf, hbr, if_pos, List.length_singleton] at h
      obtain ⟨tb₁, -, -, heq⟩ := translateLoop_cons inst rest tb guestBytesRead h
      exact ⟨_, by rw [heq, hbr, if_pos rfl]⟩
    | false =>
      simp only [blockOf, hbr, Bool.false_eq_true, if_neg, not_false_eq_true,
        List.length_cons] at h
      obtain ⟨tb₁, -, hic, heq⟩ := translateLoop_cons inst rest tb guestBytesRead (by omega)
      have hfit : tb₁.instructionCount.toNat + (blockOf rest).length < 2 ^ 32 := by omega
      obtain ⟨tb', htb'⟩ := @ih tb₁ (guestBytesRead + inst.len) hfit
      exact ⟨tb', by rw [heq, hbr, if_neg (by simp), htb']⟩

/-- What `translate_block` returns. -/
lemma translateBlock_spec {decoder : Decoder} {code : List UInt8} {x86Ip : UInt64}
    {bitness : UInt32} {tb : TranslationBlock}
    (h : translateBlock decoder code x86Ip bitness = .ok tb) :
    tb.active =
        ((blockOf (decoder code x86Ip bitness)).flatMap uopsOf).take maxMicroOpsPerBlock ∧
      tb.instructionCount.toNat = (blockOf (decoder code x86Ip bitness)).length ∧
      tb.guestSize = UInt32.ofNat (bytesOf (blockOf (decoder code x86Ip bitness))) := by
  obtain ⟨hact, hic, hgs⟩ := translateLoop_spec h
  refine ⟨by simpa using hact, ?_, by simpa using hgs⟩
  rw [hic]
  exact Nat.zero_add _

lemma translateBlock_ok (decoder : Decoder) (code : List UInt8) (x86Ip : UInt64)
    (bitness : UInt32) (h : (blockOf (decoder code x86Ip bitness)).length < 2 ^ 32) :
    ∃ tb, translateBlock decoder code x86Ip bitness = .ok tb :=
  translateLoop_ok (by rwa [show (TranslationBlock.new x86Ip).instructionCount.toNat = 0 from rfl,
    Nat.zero_add])

/-! ## Coverage -/

/-- The block holds the micro-ops of the instructions it counts and spans their bytes. -/
def TranslationBlock.Covers (tb : TranslationBlock) (insts : List Instruction) : Prop :=
  tb.active = (insts.take tb.instructionCount.toNat).flatMap uopsOf ∧
    tb.guestSize.toNat = bytesOf (insts.take tb.instructionCount.toNat)

/-- A translated block covers what it counts exactly when its micro-ops fit the array and its bytes
fit 32 bits. -/
theorem translateBlock_covers_iff {decoder : Decoder} {code : List UInt8} {x86Ip : UInt64}
    {bitness : UInt32} {tb : TranslationBlock}
    (h : translateBlock decoder code x86Ip bitness = .ok tb) :
    tb.Covers (decoder code x86Ip bitness) ↔
      ((blockOf (decoder code x86Ip bitness)).flatMap uopsOf).length ≤ maxMicroOpsPerBlock ∧
        bytesOf (blockOf (decoder code x86Ip bitness)) < 2 ^ 32 := by
  obtain ⟨hact, hic, hgs⟩ := translateBlock_spec h
  rw [TranslationBlock.Covers, hic, take_blockOf, hact, hgs, UInt32.toNat_ofNat']
  apply and_congr
  · exact List.take_eq_self_iff _
  · constructor
    · intro hmod
      exact hmod ▸ Nat.mod_lt _ (by decide)
    · exact Nat.mod_eq_of_lt

/-- The one-byte instructions NOP, RET and HLT. -/
def byteInstruction (b : UInt8) (ip : UInt64) : Instruction where
  ip := ip
  len := 1
  mnemonic :=
    if b = 0x90 then .nop else if b = 0xC3 then .ret else if b = 0xF4 then .hlt else .other 0
  mnemonicValue := 0
  op0Kind := .register
  op1Kind := .register
  op0Register := .other 0
  op1Register := .other 0
  memoryBase := .other 0
  memoryDisplacement64 := 0
  immediate64 := 0
  nearBranch64 := 0

/-- A decoder that is right on buffers of NOP, RET and HLT. -/
def byteDecoder : Decoder
  | [], _, _ => []
  | b :: code, ip, bitness => byteInstruction b ip :: byteDecoder code (ip + 1) bitness

/-- NOPs before a RET are one block. -/
lemma blockOf_nopSled (n : Nat) (ip : UInt64) (bitness : UInt32) :
    (blockOf (byteDecoder (List.replicate n 0x90 ++ [0xC3]) ip bitness)).length = n + 1 ∧
      ((blockOf (byteDecoder (List.replicate n 0x90 ++ [0xC3]) ip bitness)).flatMap
        uopsOf).length = n + 1 := by
  induction n generalizing ip with
  | zero => exact ⟨rfl, rfl⟩
  | succ n ih =>
    obtain ⟨hlen, huops⟩ := ih (ip + 1)
    rw [List.replicate_succ, List.cons_append, byteDecoder, blockOf,
      if_neg (by simp [byteInstruction, isBranchOrRet])]
    refine ⟨by rw [List.length_cons, hlen], ?_⟩
    rw [List.flatMap_cons, List.length_append, huops]
    simp [uopsOf, translateInstruction, byteInstruction, plainUop]
    omega

theorem translateBlock_covers_iff_nopRet :
    ∃ tb, translateBlock byteDecoder [0x90, 0xC3] 0x1000 64 = .ok tb ∧
      (tb.Covers (byteDecoder [0x90, 0xC3] 0x1000 64) ↔ 2 ≤ maxMicroOpsPerBlock ∧ 2 < 2 ^ 32) :=
  ⟨_, rfl, translateBlock_covers_iff rfl⟩

/-- 256 NOPs fill the array: the RET after them is counted and lost. -/
theorem translateBlock_covers_not :
    ∃ tb, translateBlock byteDecoder (List.replicate 256 0x90 ++ [0xC3]) 0x1000 64 = .ok tb ∧
      tb.instructionCount.toNat = 257 ∧ tb.microOpCount = 256 ∧
      ¬ tb.Covers (byteDecoder (List.replicate 256 0x90 ++ [0xC3]) 0x1000 64) := by
  obtain ⟨hlen, huops⟩ := blockOf_nopSled 256 0x1000 64
  obtain ⟨tb, htb⟩ := translateBlock_ok byteDecoder (List.replicate 256 0x90 ++ [0xC3]) 0x1000 64
    (by rw [hlen]; decide)
  obtain ⟨hact, hic, -⟩ := translateBlock_spec htb
  have hcount := congrArg List.length hact
  rw [tb.length_active, List.length_take, huops] at hcount
  refine ⟨tb, htb, hic.trans hlen, hcount, ?_⟩
  rintro ⟨hcov, -⟩
  have hall := congrArg List.length hcov
  rw [tb.length_active, hic, take_blockOf, huops, hcount] at hall
  exact absurd hall (by decide)

end Bemi.Dbt
