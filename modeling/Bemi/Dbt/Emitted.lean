import Mathlib.Data.List.Forall2
import Mathlib.Algebra.Order.Ring.Int
import Bemi.Dbt.Codegen
import Bemi.Lib.X64

/-!
# Emitted code decodes to what was asked for

A sequence of emitter calls on an empty buffer, read back by the encoding rules of x86-64. Whatever
the calls, the bytes of each of them decode to one instruction, `Call.decoded`; it is the one asked
for exactly for `Call.Encodable` calls. PUSH and POP never emit the REX.B prefix that `R8` to `R15`
need, and a displacement keeps only the low 32 bits of the distance.
-/

namespace Bemi.Dbt
open Stream X64 CodeBuffer

/-- A call of an emitter. -/
inductive Call where
  | movRR (dst src : Register)
  | movRI (dst : Register) (imm : UInt64)
  | testRR (dst src : Register)
  | xchgRR (dst src : Register)
  | addRR (dst src : Register)
  | addRI (dst : Register) (imm : Int32)
  | subRR (dst src : Register)
  | subRI (dst : Register) (imm : Int32)
  | andRR (dst src : Register)
  | orRR (dst src : Register)
  | xorRR (dst src : Register)
  | cmpRR (dst src : Register)
  | pushR (register : Register)
  | popR (register : Register)
  | ret
  | nop
  | jmpRel32 (target current : BemiWord)
  | callRel32 (target current : BemiWord)
  deriving DecidableEq, Repr

namespace Call
open X64Emitter

def emit (buf : CodeBuffer) : Call → CodeBuffer
  | movRR dst src => emitMovRR buf dst src
  | movRI dst imm => emitMovRI buf dst imm
  | testRR dst src => emitTestRR buf dst src
  | xchgRR dst src => emitXchgRR buf dst src
  | addRR dst src => emitAddRR buf dst src
  | addRI dst imm => emitAddRI buf dst imm
  | subRR dst src => emitSubRR buf dst src
  | subRI dst imm => emitSubRI buf dst imm
  | andRR dst src => emitAndRR buf dst src
  | orRR dst src => emitOrRR buf dst src
  | xorRR dst src => emitXorRR buf dst src
  | cmpRR dst src => emitCmpRR buf dst src
  | pushR register => emitPushR buf register
  | popR register => emitPopR buf register
  | ret => emitRet buf
  | nop => emitNop buf
  | jmpRel32 target current => emitJmpRel32 buf target current
  | callRel32 target current => emitCallRel32 buf target current

/-- The instruction that a call asks for. -/
def asked : Call → Insn
  | movRR dst src => .mov true dst.toU8.toNat src.toU8.toNat
  | movRI dst imm => .movImm true dst.toU8.toNat imm
  | testRR dst src => .test true dst.toU8.toNat src.toU8.toNat
  | xchgRR dst src => .xchg true dst.toU8.toNat src.toU8.toNat
  | addRR dst src => .alu .add true dst.toU8.toNat src.toU8.toNat
  | addRI dst imm => .aluImm .add true dst.toU8.toNat imm.toInt64.toUInt64
  | subRR dst src => .alu .sub true dst.toU8.toNat src.toU8.toNat
  | subRI dst imm => .aluImm .sub true dst.toU8.toNat imm.toInt64.toUInt64
  | andRR dst src => .alu .and true dst.toU8.toNat src.toU8.toNat
  | orRR dst src => .alu .or true dst.toU8.toNat src.toU8.toNat
  | xorRR dst src => .alu .xor true dst.toU8.toNat src.toU8.toNat
  | cmpRR dst src => .alu .cmp true dst.toU8.toNat src.toU8.toNat
  | pushR register => .push register.toU8.toNat
  | popR register => .pop register.toU8.toNat
  | ret => .ret
  | nop => .nop
  | jmpRel32 target _ => .jmp target
  | callRel32 target _ => .call target

/-- The registers a call names. -/
def registers : Call → List Register
  | movRR dst src | testRR dst src | xchgRR dst src | addRR dst src | subRR dst src
  | andRR dst src | orRR dst src | xorRR dst src | cmpRR dst src => [dst, src]
  | movRI dst _ | addRI dst _ | subRI dst _ => [dst]
  | pushR register | popR register => [register]
  | _ => []

/-- Where a branch is told that its displacement field stands. -/
def current : Call → Option BemiWord
  | jmpRel32 _ current | callRel32 _ current => some current
  | _ => none

/-- The bytes of a call: what it writes to an empty buffer. -/
def bytes (c : Call) : List UInt8 := (c.emit CodeBuffer.new).content

end Call

/-- Calls one after the other, the first on an empty buffer. -/
def emitAll (calls : List Call) : CodeBuffer :=
  calls.foldl Call.emit CodeBuffer.new

/-- Every branch is told the address of its displacement field, the byte behind its opcode. -/
def Placed : UInt64 → List Call → Prop
  | _, [] => True
  | address, c :: cs =>
    (∀ cur ∈ c.current, cur = address + 1) ∧ Placed (address + .ofNat c.bytes.length) cs

/-- The instructions in a buffer whose first byte stands at `base`. -/
def decodeBuffer (base : UInt64) (buf : CodeBuffer) : Option (List Insn) :=
  decodeAll (fun pos => decode (base + .ofNat pos)) buf.len 0 buf.content

/-- The register is one of the eight that need no prefix; the displacement fits 32 signed bits. -/
def Call.Encodable : Call → Prop
  | .pushR register | .popR register => isR8OrAbove register = false
  | .jmpRel32 target current | .callRel32 target current =>
    -2 ^ 31 ≤ (target - (current + 4)).toInt64.toInt ∧
      (target - (current + 4)).toInt64.toInt < 2 ^ 31
  | _ => True

instance : DecidablePred Call.Encodable
  | .pushR _ | .popR _ => inferInstanceAs (Decidable (_ = false))
  | .jmpRel32 _ _ | .callRel32 _ _ => inferInstanceAs (Decidable (_ ∧ _))
  | .movRR _ _ | .movRI _ _ | .testRR _ _ | .xchgRR _ _ | .addRR _ _ | .addRI _ _ | .subRR _ _
  | .subRI _ _ | .andRR _ _ | .orRR _ _ | .xorRR _ _ | .cmpRR _ _ | .ret | .nop => .isTrue trivial

/-- The instruction that the bytes of a call decode to. -/
def Call.decoded : Call → Insn
  | .testRR dst src => .test true src.toU8.toNat dst.toU8.toNat
  | .xchgRR dst src => .xchg true src.toU8.toNat dst.toU8.toNat
  | .pushR register => .push (register.toU8.toNat % 8)
  | .popR register => .pop (register.toU8.toNat % 8)
  | .jmpRel32 target current => .jmp (current + 4 + signExtend32 (rel32 target current).toNat)
  | .callRel32 target current => .call (current + 4 + signExtend32 (rel32 target current).toNat)
  | c => c.asked

/-! ### Bytes of a call -/

lemma Emits.content_new {f : CodeBuffer → CodeBuffer} {bs : List UInt8} (h : Emits f bs)
    (hlen : bs.length ≤ maxCodeSize) : (f CodeBuffer.new).content = bs := by
  rw [h CodeBuffer.new, CodeBuffer.content_new, List.nil_append, List.take_of_length_le hlen]

/-- Every call emits at least one byte and at most ten. -/
lemma Call.folds (c : Call) :
    ∃ bs, Folds (Call.emit · c) bs ∧ bs ≠ [] ∧ bs.length ≤ 10 := by
  have single (b : UInt8) : [b] ≠ [] ∧ [b].length ≤ 10 :=
    ⟨List.cons_ne_nil b [], Nat.le_of_ble_eq_true rfl⟩
  have triple (a b d : UInt8) : [a, b, d] ≠ [] ∧ [a, b, d].length ≤ 10 :=
    ⟨List.cons_ne_nil a [b, d], Nat.le_of_ble_eq_true rfl⟩
  have operand (b : UInt8) (bs : List UInt8) (n v : ℕ) (h : bs.length + 1 + n ≤ 10) :
      (b :: bs) ++ leBytes n v ≠ [] ∧ ((b :: bs) ++ leBytes n v).length ≤ 10 := by
    rw [List.length_append, length_leBytes]
    exact ⟨List.cons_ne_nil _ _, h⟩
  cases c with
  | movRR dst src => exact ⟨_, .emitRR 0x8B dst src, triple _ _ _⟩
  | testRR dst src => exact ⟨_, .emitRR 0x85 dst src, triple _ _ _⟩
  | xchgRR dst src => exact ⟨_, .emitRR 0x87 dst src, triple _ _ _⟩
  | addRR dst src => exact ⟨_, .emitRR 0x03 dst src, triple _ _ _⟩
  | subRR dst src => exact ⟨_, .emitRR 0x2B dst src, triple _ _ _⟩
  | andRR dst src => exact ⟨_, .emitRR 0x23 dst src, triple _ _ _⟩
  | orRR dst src => exact ⟨_, .emitRR 0x0B dst src, triple _ _ _⟩
  | xorRR dst src => exact ⟨_, .emitRR 0x33 dst src, triple _ _ _⟩
  | cmpRR dst src => exact ⟨_, .emitRR 0x3B dst src, triple _ _ _⟩
  | movRI dst imm => exact ⟨_, .emitMovRI dst imm, operand _ [_] 8 _ (Nat.le_refl 10)⟩
  | addRI dst imm => exact ⟨_, .emitRI 0 dst imm, operand _ [_, _] 4 _ (Nat.le_of_ble_eq_true rfl)⟩
  | subRI dst imm => exact ⟨_, .emitRI 5 dst imm, operand _ [_, _] 4 _ (Nat.le_of_ble_eq_true rfl)⟩
  | pushR register => exact ⟨_, .emitR 0x50 register, single _⟩
  | popR register => exact ⟨_, .emitR 0x58 register, single _⟩
  | ret => exact ⟨_, .emitU8 0xC3, single _⟩
  | nop => exact ⟨_, .emitU8 0x90, single _⟩
  | jmpRel32 target current =>
    exact ⟨_, .emitBranch 0xE9 target current, operand _ [] 4 _ (Nat.le_of_ble_eq_true rfl)⟩
  | callRel32 target current =>
    exact ⟨_, .emitBranch 0xE8 target current, operand _ [] 4 _ (Nat.le_of_ble_eq_true rfl)⟩

/-- A call appends its bytes as far as they fit. -/
lemma Call.emits (c : Call) : Emits (Call.emit · c) c.bytes ∧ c.bytes ≠ [] := by
  obtain ⟨bs, hbs, hne, hlen⟩ := c.folds
  have hbytes : c.bytes = bs := hbs.emits.content_new (hlen.trans (by decide))
  rw [hbytes]
  exact ⟨hbs.emits, hne⟩

/-- What calls append to an empty buffer that is large enough. -/
lemma content_emitAll {calls : List Call}
    (hfit : (calls.flatMap Call.bytes).length ≤ maxCodeSize) :
    (emitAll calls).content = calls.flatMap Call.bytes := by
  suffices h : Emits (calls.foldl Call.emit ·) (calls.flatMap Call.bytes) from h.content_new hfit
  clear hfit
  induction calls with
  | nil => exact .nothing
  | cons c calls ih => exact c.emits.1.andThen ih

/-! ### Decoding one call -/

section
open X64Emitter

lemma rex_ofByte (r x b : Bool) : Rex.ofByte (rexByte true r x b) = some ⟨true, r, x, b⟩ := by
  revert r x b
  decide

lemma modrmByte_fields : ∀ m n : Fin 8,
    (modrmByte 3 (.ofNat m) (.ofNat n)).toNat / 64 = 3 ∧
      (modrmByte 3 (.ofNat m) (.ofNat n)).toNat / 8 % 8 = m ∧
      (modrmByte 3 (.ofNat m) (.ofNat n)).toNat % 8 = n := by
  decide

lemma modRM_modrmByte (rex : Rex) {m n : UInt8} (hm : m.toNat < 8) (hn : n.toNat < 8)
    (rest : List UInt8) :
    modRM rex (modrmByte 3 m n :: rest) =
      some (regNumber rex.r m.toNat, regNumber rex.b n.toNat) := by
  obtain ⟨hmod, hreg, hrm⟩ := modrmByte_fields ⟨m.toNat, hm⟩ ⟨n.toNat, hn⟩
  simp only [UInt8.ofNat_toNat] at hmod hreg hrm
  rw [modRM, if_pos hmod, hreg, hrm]

lemma reg_lt (r : Register) : (reg r).toNat < 8 := by
  cases r <;> decide

/-- A general register's number, from the two parts in which it is encoded. -/
lemma regNumber_reg {r : Register} (h : r.isGeneral = true) :
    regNumber (isR8OrAbove r) (reg r).toNat = r.toU8.toNat := by
  cases r <;> first | rfl | cases h

/-- A prefixed opcode of two registers. -/
lemma decode_rr {opcode : UInt8} {insn : Nat → Nat → Insn}
    (hop : ∀ r b address rest, decodeOpcode ⟨true, r, false, b⟩ address opcode rest =
      (modRM ⟨true, r, false, b⟩ rest).map fun (r, rm) => (insn r rm, 2))
    {dst src : Register} (hdst : dst.isGeneral = true) (hsrc : src.isGeneral = true)
    (address : UInt64) (rest : List UInt8) :
    decode address ([rexByte true (isR8OrAbove dst) false (isR8OrAbove src), opcode,
        modrmByte 3 (reg dst) (reg src)] ++ rest) =
      some (insn dst.toU8.toNat src.toU8.toNat, 3) := by
  simp only [List.cons_append, List.nil_append, decode, rex_ofByte, hop,
    modRM_modrmByte _ (reg_lt dst) (reg_lt src), regNumber_reg hdst, regNumber_reg hsrc,
    Option.map_some]

/-- A prefixed 81 group opcode. -/
lemma decode_ri {op : AluOp} {ext : UInt8} (hext : ext.toNat < 8)
    (hop : AluOp.ofCode ext.toNat = op) {dst : Register} (hdst : dst.isGeneral = true)
    (imm : UInt32) (address : UInt64) (rest : List UInt8) :
    decode address ([rexByte true false false (isR8OrAbove dst), 0x81,
        modrmByte 3 ext (reg dst)] ++ leBytes 4 imm.toNat ++ rest) =
      some (.aluImm op true dst.toU8.toNat (signExtend32 imm.toNat), 7) := by
  have himm : leTake 4 (leBytes 4 imm.toNat ++ rest) = some imm.toNat :=
    leTake_leBytes imm.toNat_lt rest
  have hlow : regNumber false ext.toNat % 8 = ext.toNat := Nat.mod_eq_of_lt hext
  have hopcode (rex : Rex) (code : List UInt8) : decodeOpcode rex (address + 1) 0x81 code =
      (do
        let (r, rm) ← modRM rex code
        let imm ← leTake 4 (code.drop 1)
        return (.aluImm (AluOp.ofCode (r % 8)) rex.w rm (signExtend32 imm), 6)) := rfl
  simp only [List.cons_append, List.nil_append, decode, rex_ofByte, hopcode,
    modRM_modrmByte _ hext (reg_lt dst), regNumber_reg hdst, List.drop_succ_cons,
    List.drop_zero, himm, Option.bind_eq_bind, Option.bind_some, hlow, hop]
  rfl

/-- The prefixed opcode that carries a register number and is followed by eight bytes. -/
lemma decode_movRI {dst : Register} (hdst : dst.isGeneral = true) (imm : UInt64)
    (address : UInt64) (rest : List UInt8) :
    decode address ([rexByte true false false (isR8OrAbove dst), 0xB8 ||| (reg dst &&& 7)] ++
        leBytes 8 imm.toNat ++ rest) = some (.movImm true dst.toU8.toNat imm, 10) := by
  have himm : leTake 8 (leBytes 8 imm.toNat ++ rest) = some imm.toNat :=
    leTake_leBytes imm.toNat_lt rest
  have hopcode (b : Bool) (code : List UInt8) :
      decodeOpcode ⟨true, false, false, b⟩ (address + 1) (0xB8 ||| (reg dst &&& 7)) code =
        (leTake 8 code).map fun imm =>
          (.movImm true (regNumber b (reg dst).toNat) (.ofNat imm), 9) := by
    cases dst <;> rfl
  simp only [List.cons_append, List.nil_append, decode, rex_ofByte, hopcode, himm,
    regNumber_reg hdst, Option.map_some, UInt64.ofNat_toNat]

/-- An opcode without a prefix that carries a register number: only the low three bits are there. -/
lemma decode_push {r : Register} (hr : r.isGeneral = true) (address : UInt64)
    (rest : List UInt8) :
    decode address ([0x50 ||| (reg r &&& 7)] ++ rest) = some (.push (r.toU8.toNat % 8), 1) := by
  cases r <;> first | rfl | cases hr

lemma decode_pop {r : Register} (hr : r.isGeneral = true) (address : UInt64)
    (rest : List UInt8) :
    decode address ([0x58 ||| (reg r &&& 7)] ++ rest) = some (.pop (r.toU8.toNat % 8), 1) := by
  cases r <;> first | rfl | cases hr

/-- An opcode with a relative target. -/
lemma decode_branch {opcode : UInt8} (insn : UInt64 → Insn) (hnone : Rex.ofByte opcode = none)
    (hop : ∀ address rest, decodeOpcode .none address opcode rest =
      (leTake 4 rest).map fun rel => (insn (address + 5 + signExtend32 rel), 5))
    (target address : UInt64) (rest : List UInt8) :
    decode address (opcode :: leBytes 4 (rel32 target (address + 1)).toNat ++ rest) =
      some (insn (address + 1 + 4 + signExtend32 (rel32 target (address + 1)).toNat), 5) := by
  have hrel : leTake 4 (leBytes 4 (rel32 target (address + 1)).toNat ++ rest) =
      some (rel32 target (address + 1)).toNat :=
    leTake_leBytes (rel32 target (address + 1)).toNat_lt rest
  have hnext : address + 5 = address + 1 + 4 := by rw [UInt64.add_assoc]; rfl
  simp only [List.cons_append, decode, hnone, hop, hrel, Option.map_some, hnext]

end

/-! ### A sequence of calls -/

/-- Wherever `f` appends its bytes, with the displacement where `current` says, they decode to
`insn`. -/
def ReadAs (f : CodeBuffer → CodeBuffer) (current : Option BemiWord) (insn : Insn) : Prop :=
  ∃ bs, Emits f bs ∧ bs ≠ [] ∧ bs.length ≤ maxCodeSize ∧
    ∀ address, (∀ cur ∈ current, cur = address + 1) →
      ∀ rest, decode address (bs ++ rest) = some (insn, bs.length)

namespace ReadAs
open X64Emitter

lemma emitRR (opcode : UInt8) (insn : Nat → Nat → Insn)
    (hop : ∀ r b address rest, decodeOpcode ⟨true, r, false, b⟩ address opcode rest =
      (modRM ⟨true, r, false, b⟩ rest).map fun (r, rm) => (insn r rm, 2))
    {dst src : Register} (h : ∀ r ∈ [dst, src], r.isGeneral = true) (cur : Option BemiWord) :
    ReadAs (X64Emitter.emitRR opcode · dst src) cur (insn dst.toU8.toNat src.toU8.toNat) := by
  have hdst := h dst (by simp)
  have hsrc := h src (by simp)
  exact ⟨_, (Folds.emitRR opcode dst src).emits, by simp, by simp [maxCodeSize],
    fun address _ rest => decode_rr hop hdst hsrc address rest⟩

lemma emitRI (op : AluOp) {ext : UInt8} (hext : ext.toNat < 8)
    (hop : AluOp.ofCode ext.toNat = op) {dst : Register} (h : ∀ r ∈ [dst], r.isGeneral = true)
    (imm : Int32) (cur : Option BemiWord) :
    ReadAs (X64Emitter.emitRI ext · dst imm) cur
      (.aluImm op true dst.toU8.toNat imm.toInt64.toUInt64) := by
  have hdst := h dst (by simp)
  have himm : signExtend32 imm.toUInt32.toNat = imm.toInt64.toUInt64 := by
    apply UInt64.toBitVec_inj.mp
    simp [signExtend32]
  rw [← himm]
  exact ⟨_, (Folds.emitRI ext dst imm).emits, by simp, by simp [maxCodeSize],
    fun address _ rest => decode_ri hext hop hdst imm.toUInt32 address rest⟩

lemma emitMovRI {dst : Register} (h : ∀ r ∈ [dst], r.isGeneral = true) (imm : UInt64)
    (cur : Option BemiWord) :
    ReadAs (X64Emitter.emitMovRI · dst imm) cur (.movImm true dst.toU8.toNat imm) := by
  have hdst := h dst (by simp)
  exact ⟨_, (Folds.emitMovRI dst imm).emits, by simp, by simp [maxCodeSize],
    fun address _ rest => decode_movRI hdst imm address rest⟩

lemma emitR (opcode : UInt8) (insn : Nat → Insn)
    (hdecode : ∀ {r : Register}, r.isGeneral = true → ∀ address rest,
      decode address ([opcode ||| (reg r &&& 7)] ++ rest) = some (insn (r.toU8.toNat % 8), 1))
    {register : Register} (h : ∀ r ∈ [register], r.isGeneral = true) (cur : Option BemiWord) :
    ReadAs (X64Emitter.emitR opcode · register) cur (insn (register.toU8.toNat % 8)) := by
  have hreg := h register (by simp)
  exact ⟨_, (Folds.emitR opcode register).emits, by simp, by simp [maxCodeSize],
    fun address _ rest => hdecode hreg address rest⟩

lemma emitBranch (opcode : UInt8) (insn : UInt64 → Insn) (hnone : Rex.ofByte opcode = none)
    (hop : ∀ address rest, decodeOpcode .none address opcode rest =
      (leTake 4 rest).map fun rel => (insn (address + 5 + signExtend32 rel), 5))
    (target cur : BemiWord) :
    ReadAs (X64Emitter.emitBranch opcode · target cur) (some cur)
      (insn (cur + 4 + signExtend32 (rel32 target cur).toNat)) := by
  refine ⟨_, (Folds.emitBranch opcode target cur).emits, by simp, by simp [maxCodeSize], ?_⟩
  intro address hcur rest
  obtain rfl := hcur cur rfl
  rw [decode_branch insn hnone hop target address rest]
  simp

end ReadAs

/-- What the bytes of a call decode to, one case for each shape of call. -/
lemma Call.readAs (c : Call) (h : ∀ r ∈ c.registers, r.isGeneral = true) :
    ReadAs (Call.emit · c) c.current c.decoded := by
  cases c with
  | movRR => exact .emitRR 0x8B (.mov true) (fun _ _ _ _ => rfl) h _
  | testRR => exact .emitRR 0x85 (fun r rm => .test true rm r) (fun _ _ _ _ => rfl) h _
  | xchgRR => exact .emitRR 0x87 (fun r rm => .xchg true rm r) (fun _ _ _ _ => rfl) h _
  | addRR => exact .emitRR 0x03 (.alu .add true) (fun _ _ _ _ => rfl) h _
  | subRR => exact .emitRR 0x2B (.alu .sub true) (fun _ _ _ _ => rfl) h _
  | andRR => exact .emitRR 0x23 (.alu .and true) (fun _ _ _ _ => rfl) h _
  | orRR => exact .emitRR 0x0B (.alu .or true) (fun _ _ _ _ => rfl) h _
  | xorRR => exact .emitRR 0x33 (.alu .xor true) (fun _ _ _ _ => rfl) h _
  | cmpRR => exact .emitRR 0x3B (.alu .cmp true) (fun _ _ _ _ => rfl) h _
  | movRI dst imm => exact .emitMovRI h imm _
  | addRI dst imm => exact .emitRI .add (show (0 : UInt8).toNat < 8 by decide) rfl h imm _
  | subRI dst imm => exact .emitRI .sub (show (5 : UInt8).toNat < 8 by decide) rfl h imm _
  | pushR register => exact .emitR 0x50 .push decode_push h _
  | popR register => exact .emitR 0x58 .pop decode_pop h _
  | ret => exact ⟨_, .emitU8 0xC3, by simp, by simp [maxCodeSize], fun _ _ _ => rfl⟩
  | nop => exact ⟨_, .emitU8 0x90, by simp, by simp [maxCodeSize], fun _ _ _ => rfl⟩
  | jmpRel32 target cur => exact .emitBranch 0xE9 .jmp rfl (fun _ _ => rfl) target cur
  | callRel32 target cur => exact .emitBranch 0xE8 .call rfl (fun _ _ => rfl) target cur

/-- Calls that are told their places are read one by one. -/
lemma reads_calls {base : UInt64} {pos : Nat} {calls : List Call}
    (hgen : ∀ c ∈ calls, ∀ r ∈ c.registers, r.isGeneral = true)
    (hplaced : Placed (base + .ofNat pos) calls) :
    Reads (fun pos => decode (base + .ofNat pos)) Call.bytes Call.decoded pos calls := by
  induction calls generalizing pos with
  | nil => exact trivial
  | cons c calls ih =>
    obtain ⟨hcur, hplaced⟩ := hplaced
    obtain ⟨bs, hbs, hne, hlen, hdec⟩ := c.readAs (hgen c (by simp))
    obtain rfl : c.bytes = bs := hbs.content_new hlen
    refine ⟨⟨hne, hdec _ hcur⟩, ih (fun c hc => hgen c (by simp [hc])) ?_⟩
    rwa [UInt64.ofNat_add, ← UInt64.add_assoc]

/-- The instructions that a buffer of calls decodes to. -/
lemma decodeBuffer_emitAll {base : UInt64} {calls : List Call}
    (hgen : ∀ c ∈ calls, ∀ r ∈ c.registers, r.isGeneral = true)
    (hfit : (calls.flatMap Call.bytes).length ≤ maxCodeSize) (hplaced : Placed base calls) :
    decodeBuffer base (emitAll calls) = some (calls.map Call.decoded) := by
  have hplaced : Placed (base + .ofNat 0) calls := by simpa using hplaced
  have hlen := length_content (emitAll calls)
  rw [content_emitAll hfit] at hlen
  rw [decodeBuffer, content_emitAll hfit]
  exact decodeAll_flatMap (reads_calls hgen hplaced) (Nat.le_of_eq hlen)

/-! ### What was asked for -/

/-- A number is its low 32 bits, extended, exactly when it fits them. -/
lemma signExtend32_eq_iff (d : UInt64) :
    signExtend32 d.toUInt32.toNat = d ↔
      -2 ^ 31 ≤ d.toInt64.toInt ∧ d.toInt64.toInt < 2 ^ 31 := by
  have hlow : (BitVec.ofNat 32 d.toUInt32.toNat).toNat = d.toNat % 2 ^ 32 := by
    rw [BitVec.toNat_ofNat, UInt64.toNat_toUInt32, Nat.mod_mod]
  have hext : (signExtend32 d.toUInt32.toNat).toBitVec.toInt =
      if 2 * (d.toNat % 2 ^ 32) < 2 ^ 32 then (d.toNat % 2 ^ 32 : Int)
      else (d.toNat % 2 ^ 32 : Int) - 2 ^ 32 := by
    rw [signExtend32, BitVec.toInt_signExtend_of_le (by decide), BitVec.toInt_eq_toNat_cond, hlow]
    rfl
  have hint : d.toBitVec.toInt =
      if 2 * d.toNat < 2 ^ 64 then (d.toNat : Int) else (d.toNat : Int) - 2 ^ 64 :=
    BitVec.toInt_eq_toNat_cond d.toBitVec
  have hd : d.toInt64.toInt = d.toBitVec.toInt := rfl
  have hlt := d.toNat_lt
  rw [← UInt64.toBitVec_inj, ← BitVec.toInt_inj, hext, hd, hint]
  omega

/-- The displacement leads to the target exactly when it fits. -/
lemma rel32_reaches (target current : BemiWord) :
    current + 4 + signExtend32 (rel32 target current).toNat = target ↔
      -2 ^ 31 ≤ (target - (current + 4)).toInt64.toInt ∧
        (target - (current + 4)).toInt64.toInt < 2 ^ 31 := by
  rw [← signExtend32_eq_iff, rel32, UInt64.eq_sub_iff_add_eq, UInt64.add_comm]

/-- A register that is encoded in three bits is one of the first eight. -/
lemma toU8_mod_eq_iff {r : Register} (h : r.isGeneral = true) :
    r.toU8.toNat % 8 = r.toU8.toNat ↔ isR8OrAbove r = false := by
  cases r <;> first | decide | cases h

/-- A call gets the instruction it asks for exactly when it is encodable. -/
lemma Call.decoded_same_iff {c : Call} (h : ∀ r ∈ c.registers, r.isGeneral = true) :
    Insn.Same c.decoded c.asked ↔ c.Encodable := by
  cases c with
  | testRR dst src => exact ⟨fun _ => trivial, fun _ => .test _ _ _⟩
  | xchgRR dst src => exact ⟨fun _ => trivial, fun _ => .xchg _ _ _⟩
  | pushR register =>
    rw [decoded, asked, Insn.same_iff_eq (i := .push _) nofun nofun, Insn.push.injEq]
    exact toU8_mod_eq_iff (h register (by simp [registers]))
  | popR register =>
    rw [decoded, asked, Insn.same_iff_eq (i := .pop _) nofun nofun, Insn.pop.injEq]
    exact toU8_mod_eq_iff (h register (by simp [registers]))
  | jmpRel32 target cur =>
    rw [decoded, asked, Insn.same_iff_eq (i := .jmp _) nofun nofun, Insn.jmp.injEq]
    exact rel32_reaches target cur
  | callRel32 target cur =>
    rw [decoded, asked, Insn.same_iff_eq (i := .call _) nofun nofun, Insn.call.injEq]
    exact rel32_reaches target cur
  | _ => exact ⟨fun _ => trivial, fun _ => .refl _⟩

/-- Calls on general registers whose bytes fit the buffer decode to what was asked for exactly when
PUSH and POP are kept to the first eight registers and displacements to 32 signed bits. -/
theorem emitAll_decodes_iff (base : UInt64) {calls : List Call}
    (hgen : ∀ c ∈ calls, ∀ r ∈ c.registers, r.isGeneral = true)
    (hfit : (calls.flatMap Call.bytes).length ≤ maxCodeSize) (hplaced : Placed base calls) :
    (∃ insns, decodeBuffer base (emitAll calls) = some insns ∧
        List.Forall₂ Insn.Same insns (calls.map Call.asked)) ↔
      ∀ c ∈ calls, c.Encodable := by
  have hsame : List.Forall₂ Insn.Same (calls.map Call.decoded) (calls.map Call.asked) ↔
      ∀ c ∈ calls, c.Encodable := by
    rw [List.forall₂_map_left_iff, List.forall₂_map_right_iff, List.forall₂_same]
    exact forall₂_congr fun c hc => Call.decoded_same_iff (hgen c hc)
  rw [decodeBuffer_emitAll hgen hfit hplaced, ← hsame]
  constructor
  · rintro ⟨insns, heq, h⟩
    cases heq
    exact h
  · intro h
    exact ⟨_, rfl, h⟩

theorem emitAll_decodes_iff_movJmp :
    ∃ insns, decodeBuffer 0x1000 (emitAll [.movRR .rax .r9, .pushR .rbx, .jmpRel32 0x1000 0x1005]) =
        some insns ∧
      List.Forall₂ Insn.Same insns
        ([.movRR .rax .r9, .pushR .rbx, .jmpRel32 0x1000 0x1005].map Call.asked) := by
  have hjmp : (0x1005 : UInt64) = 0x1000 + .ofNat (Call.movRR .rax .r9).bytes.length +
      .ofNat (Call.pushR .rbx).bytes.length + 1 := by decide +kernel
  refine (emitAll_decodes_iff 0x1000 (by decide) (by decide +kernel) ?_).mpr (by decide)
  exact ⟨nofun, nofun, fun _ h => Option.some.inj h ▸ hjmp, trivial⟩

/-- PUSH R12 is read back as PUSH RSP. -/
theorem emitAll_decodes_not :
    (∀ r ∈ (Call.pushR .r12).registers, r.isGeneral = true) ∧
      ([Call.pushR .r12].flatMap Call.bytes).length ≤ maxCodeSize ∧
      Placed 0x1000 [.pushR .r12] ∧
      ¬ ∃ insns, decodeBuffer 0x1000 (emitAll [.pushR .r12]) = some insns ∧
        List.Forall₂ Insn.Same insns ([.pushR .r12].map Call.asked) := by
  have hrsp : decodeBuffer 0x1000 (emitAll [.pushR .r12]) = some [.push 4] := by decide +kernel
  refine ⟨by decide, by decide +kernel, ⟨nofun, trivial⟩, ?_⟩
  rintro ⟨insns, heq, h⟩
  rw [hrsp] at heq
  cases heq
  cases h with
  | cons hsame _ => cases hsame

end Bemi.Dbt
