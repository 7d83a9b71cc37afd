import Bemi.Dbt.Operand
import Bemi.Lib.Stream

/-!
# x86-64 emitter

Model of `dbt/codegen/mod.rs`: a `CodeBuffer` of 4096 bytes of which the first `len` are in use, and
the `X64Emitter`. A byte that does not fit is dropped. `Emits` says which bytes an emitter appends;
`to_le_bytes` is `Stream.leBytes`.
-/

namespace Bemi.Dbt
open Stream

def isR8OrAbove (reg : Register) : Bool :=
  let r := reg.toU8
  8 ≤ r && r ≤ 15

def maxCodeSize : Nat := 4096

/-! ### Code buffer -/

/-- The code buffer, without its relocation table, which no emitter uses. `len_le` is the bound that
`emit_u8` checks. -/
structure CodeBuffer where
  bytes : Vector UInt8 maxCodeSize
  len : Nat
  len_le : len ≤ maxCodeSize

namespace CodeBuffer

def new : CodeBuffer where
  bytes := Vector.replicate maxCodeSize 0
  len := 0
  len_le := Nat.zero_le _

def emitU8 (self : CodeBuffer) (v : UInt8) : CodeBuffer :=
  if h : self.len < maxCodeSize then
    { bytes := self.bytes.set self.len v
      len := self.len + 1
      len_le := h }
  else self

def emitU32 (self : CodeBuffer) (v : UInt32) : CodeBuffer :=
  (leBytes 4 v.toNat).foldl emitU8 self

def emitU64 (self : CodeBuffer) (v : UInt64) : CodeBuffer :=
  (leBytes 8 v.toNat).foldl emitU8 self

/-- The byte that `emit_rex` puts together. -/
def rexByte (w r x b : Bool) : UInt8 :=
  let rex : UInt8 := 0x40
  let rex := if w then rex ||| 0x08 else rex
  let rex := if r then rex ||| 0x04 else rex
  let rex := if x then rex ||| 0x02 else rex
  if b then rex ||| 0x01 else rex

def emitRex (self : CodeBuffer) (w r x b : Bool) : CodeBuffer :=
  let rex := rexByte w r x b
  if rex ≠ 0x40 then self.emitU8 rex else self

/-- The byte that `emit_modrm` puts together. -/
def modrmByte (mod reg rm : UInt8) : UInt8 :=
  (mod <<< 6) ||| ((reg &&& 7) <<< 3) ||| (rm &&& 7)

def emitModrm (self : CodeBuffer) (mod reg rm : UInt8) : CodeBuffer :=
  self.emitU8 (modrmByte mod reg rm)

/-- The displacement of `emit_rel32`: the low 32 bits of the distance (`as i32 as u32`). -/
def rel32 (target current : BemiWord) : UInt32 :=
  (target - (current + 4)).toUInt32

def emitRel32 (self : CodeBuffer) (target current : BemiWord) : CodeBuffer :=
  self.emitU32 (rel32 target current)

/-- The bytes in use, `bytes[0..len]`. -/
def content (self : CodeBuffer) : List UInt8 :=
  self.bytes.toList.take self.len

@[simp] lemma length_content (buf : CodeBuffer) : buf.content.length = buf.len := by
  simp [content, Nat.min_eq_left buf.len_le]

@[simp] lemma content_new : new.content = [] := rfl

@[simp] lemma take_content (buf : CodeBuffer) : buf.content.take maxCodeSize = buf.content :=
  List.take_of_length_le (by rw [length_content]; exact buf.len_le)

end CodeBuffer

/-! ### Emitters -/

namespace X64Emitter
open CodeBuffer

/-- `X64Emitter::reg`: the three low bits of the hardware encoding. -/
def reg : Register → UInt8
  | .rax | .r8 => 0 | .rcx | .r9 => 1
  | .rdx | .r10 => 2 | .rbx | .r11 => 3
  | .rsp | .r12 => 4 | .rbp | .r13 => 5
  | .rsi | .r14 => 6 | .rdi | .r15 => 7
  | _ => 0

/-- REX.W opcode /r, shared by the emitters of two registers. -/
def emitRR (opcode : UInt8) (buf : CodeBuffer) (dst src : Register) : CodeBuffer :=
  let r := isR8OrAbove dst
  let b := isR8OrAbove src
  let buf := buf.emitRex true r false b
  let buf := buf.emitU8 opcode
  buf.emitModrm 3 (reg dst) (reg src)

/-- REX.W 81 /ext id, shared by the emitters of a register and an `i32`. -/
def emitRI (ext : UInt8) (buf : CodeBuffer) (dst : Register) (imm : Int32) : CodeBuffer :=
  let b := isR8OrAbove dst
  let buf := buf.emitRex true false false b
  let buf := buf.emitU8 0x81
  let buf := buf.emitModrm 3 ext (reg dst)
  buf.emitU32 imm.toUInt32

/-- A register in the opcode, shared by PUSH and POP. -/
def emitR (opcode : UInt8) (buf : CodeBuffer) (register : Register) : CodeBuffer :=
  let r := reg register
  let buf := if r ≥ 8 then buf.emitRex false false false true else buf
  buf.emitU8 (opcode ||| (r &&& 7))

/-- A relative branch, shared by JMP and CALL. -/
def emitBranch (opcode : UInt8) (buf : CodeBuffer) (target current : BemiWord) : CodeBuffer :=
  let buf := buf.emitU8 opcode
  buf.emitRel32 target current

def emitMovRR := emitRR 0x8B
def emitTestRR := emitRR 0x85
def emitXchgRR := emitRR 0x87
def emitAddRR := emitRR 0x03
def emitSubRR := emitRR 0x2B
def emitAndRR := emitRR 0x23
def emitOrRR := emitRR 0x0B
def emitXorRR := emitRR 0x33
def emitCmpRR := emitRR 0x3B

def emitMovRI (buf : CodeBuffer) (dst : Register) (imm : UInt64) : CodeBuffer :=
  let r := reg dst
  let b := isR8OrAbove dst
  let buf := buf.emitRex true false false b
  let buf := buf.emitU8 (0xB8 ||| (r &&& 7))
  buf.emitU64 imm

def emitAddRI := emitRI 0
def emitSubRI := emitRI 5

def emitPushR := emitR 0x50
def emitPopR := emitR 0x58

def emitRet (buf : CodeBuffer) : CodeBuffer := buf.emitU8 0xC3

def emitJmpRel32 := emitBranch 0xE9
def emitCallRel32 := emitBranch 0xE8

def emitNop (buf : CodeBuffer) : CodeBuffer := buf.emitU8 0x90

end X64Emitter

/-! ### What an emitter appends

Every emitter is a fold of `emit_u8` over the bytes of its instruction, and so it appends them as far
as they fit.
-/

/-- `f` appends `bs`, as far as they fit. -/
def Emits (f : CodeBuffer → CodeBuffer) (bs : List UInt8) : Prop :=
  ∀ buf, (f buf).content = (buf.content ++ bs).take maxCodeSize

namespace Emits
open CodeBuffer X64Emitter

lemma nothing : Emits id [] := fun buf => by simp

lemma andThen {f g : CodeBuffer → CodeBuffer} {bs cs : List UInt8} (hf : Emits f bs)
    (hg : Emits g cs) : Emits (fun buf => g (f buf)) (bs ++ cs) := by
  intro buf
  rw [hg (f buf), hf buf, Filling.take_take_append, List.append_assoc]

lemma emitU8 (v : UInt8) : Emits (CodeBuffer.emitU8 · v) [v] := by
  intro buf
  by_cases h : buf.len < maxCodeSize
  · have hlen : (buf.content ++ [v]).length ≤ maxCodeSize := by
      simpa using Nat.succ_le_of_lt h
    rw [List.take_of_length_le hlen]
    simp only [CodeBuffer.emitU8, dif_pos h, content, Filling.take_set]
  · have hlen : buf.content.length = maxCodeSize := by
      rw [length_content]
      exact Nat.le_antisymm buf.len_le (Nat.le_of_not_lt h)
    rw [List.take_append_of_le_length (Nat.le_of_eq hlen.symm), take_content]
    simp only [CodeBuffer.emitU8, dif_neg h]

lemma all (bs : List UInt8) : Emits (bs.foldl CodeBuffer.emitU8 ·) bs := by
  induction bs with
  | nil => exact nothing
  | cons b bs ih => exact (emitU8 b).andThen ih

end Emits

/-- `f` emits the bytes `bs` one after the other. -/
def Folds (f : CodeBuffer → CodeBuffer) (bs : List UInt8) : Prop :=
  ∀ buf, f buf = bs.foldl CodeBuffer.emitU8 buf

namespace Folds
open CodeBuffer X64Emitter

lemma emits {f : CodeBuffer → CodeBuffer} {bs : List UInt8} (h : Folds f bs) : Emits f bs := by
  intro buf
  rw [h buf]
  exact Emits.all bs buf

/-- A REX prefix with the W bit is a byte of its own. -/
lemma emitRex (buf : CodeBuffer) (r x b : Bool) :
    buf.emitRex true r x b = buf.emitU8 (rexByte true r x b) := by
  have hne : rexByte true r x b ≠ 0x40 := by
    revert r x b
    decide
  rw [CodeBuffer.emitRex, if_pos hne]

lemma emitRR (opcode : UInt8) (dst src : Register) :
    Folds (X64Emitter.emitRR opcode · dst src)
      [rexByte true (isR8OrAbove dst) false (isR8OrAbove src), opcode,
        modrmByte 3 (reg dst) (reg src)] := by
  intro buf
  simp only [X64Emitter.emitRR, emitRex]
  rfl

lemma emitRI (ext : UInt8) (dst : Register) (imm : Int32) :
    Folds (X64Emitter.emitRI ext · dst imm)
      ([rexByte true false false (isR8OrAbove dst), 0x81, modrmByte 3 ext (reg dst)] ++
        leBytes 4 imm.toUInt32.toNat) := by
  intro buf
  simp only [X64Emitter.emitRI, emitRex, List.foldl_append]
  rfl

lemma emitMovRI (dst : Register) (imm : UInt64) :
    Folds (X64Emitter.emitMovRI · dst imm)
      ([rexByte true false false (isR8OrAbove dst), 0xB8 ||| (reg dst &&& 7)] ++
        leBytes 8 imm.toNat) := by
  intro buf
  simp only [X64Emitter.emitMovRI, emitRex, List.foldl_append]
  rfl

/-- The register number is never 8 or above, so no prefix is emitted. -/
lemma emitR (opcode : UInt8) (register : Register) :
    Folds (X64Emitter.emitR opcode · register) [opcode ||| (reg register &&& 7)] := by
  intro buf
  have hlow : ¬ reg register ≥ 8 := by cases register <;> decide
  simp only [X64Emitter.emitR, if_neg hlow]
  rfl

lemma emitBranch (opcode : UInt8) (target current : BemiWord) :
    Folds (X64Emitter.emitBranch opcode · target current)
      (opcode :: leBytes 4 (rel32 target current).toNat) :=
  fun _ => rfl

lemma emitU8 (v : UInt8) : Folds (CodeBuffer.emitU8 · v) [v] :=
  fun _ => rfl

end Folds

end Bemi.Dbt
