import Bemi.Lib.Stream

/-!
# x86-64 machine code

The encoding rules of 64-bit mode for a set of register, immediate and relative-branch instructions:
an optional REX prefix, an opcode byte, a ModRM byte with two register operands, an immediate. The
decoder is total: `none` stands for whatever lies outside the set, memory operands among it. An
instruction's `wide` flag is REX.W; without it the operation is a 32-bit one. The immediates of the
81 group are shown sign-extended, branch targets as absolute addresses.
-/

namespace X64
open Stream

/-- The arithmetic operations, in the order of their opcode rows and of the 81 group. -/
inductive AluOp where
  | add | or | adc | sbb | and | sub | xor | cmp
  deriving DecidableEq, Repr

def AluOp.ofCode : Nat → AluOp
  | 0 => .add | 1 => .or | 2 => .adc | 3 => .sbb
  | 4 => .and | 5 => .sub | 6 => .xor | _ => .cmp

inductive Insn where
  | mov (wide : Bool) (dst src : Nat)
  | movImm (wide : Bool) (dst : Nat) (imm : UInt64)
  | alu (op : AluOp) (wide : Bool) (dst src : Nat)
  | aluImm (op : AluOp) (wide : Bool) (dst : Nat) (imm : UInt64)
  | test (wide : Bool) (a b : Nat)
  | xchg (wide : Bool) (a b : Nat)
  | push (reg : Nat)
  | pop (reg : Nat)
  | ret
  | nop
  | jmp (target : UInt64)
  | call (target : UInt64)
  deriving DecidableEq, Repr

/-- The same operation: TEST and XCHG do not tell their operands apart. -/
inductive Insn.Same : Insn → Insn → Prop where
  | refl (i) : Same i i
  | test (wide a b) : Same (.test wide a b) (.test wide b a)
  | xchg (wide a b) : Same (.xchg wide a b) (.xchg wide b a)

/-- Any other operation is the same only as itself. -/
lemma Insn.same_iff_eq {i j : Insn} (ht : ∀ wide a b, i ≠ .test wide a b)
    (hx : ∀ wide a b, i ≠ .xchg wide a b) : Same i j ↔ i = j := by
  constructor
  · intro h
    cases h with
    | refl => rfl
    | test wide a b => exact absurd rfl (ht wide a b)
    | xchg wide a b => exact absurd rfl (hx wide a b)
  · rintro rfl
    exact .refl i

structure Rex where
  w : Bool
  r : Bool
  x : Bool
  b : Bool
  deriving DecidableEq, Repr

def Rex.none : Rex := ⟨false, false, false, false⟩

/-- The prefix that a byte is, if it is one. -/
def Rex.ofByte (byte : UInt8) : Option Rex :=
  if byte.toNat / 16 = 4 then
    some ⟨byte.toNat / 8 % 2 = 1, byte.toNat / 4 % 2 = 1, byte.toNat / 2 % 2 = 1, byte.toNat % 2 = 1⟩
  else Option.none

/-- A register number: three bits and the prefix bit that extends them. -/
def regNumber (ext : Bool) (low : Nat) : Nat := low + if ext then 8 else 0

/-- The reg and r/m registers of a ModRM byte that names two registers. -/
def modRM (rex : Rex) : List UInt8 → Option (Nat × Nat)
  | [] => none
  | byte :: _ =>
    if byte.toNat / 64 = 3 then
      some (regNumber rex.r (byte.toNat / 8 % 8), regNumber rex.b (byte.toNat % 8))
    else none

/-- A signed 32-bit number, extended to 64 bits. -/
def signExtend32 (n : Nat) : UInt64 := ⟨(BitVec.ofNat 32 n).signExtend 64⟩

/-- The instruction of an opcode byte. `address` is where the opcode stands and `rest` what follows
it; the length counts from the opcode. -/
def decodeOpcode (rex : Rex) (address : UInt64) (opcode : UInt8) (rest : List UInt8) :
    Option (Insn × Nat) :=
  let row := opcode.toNat / 8
  let col := opcode.toNat % 8
  if row < 8 ∧ col = 3 then
    (modRM rex rest).map fun (r, rm) => (.alu (AluOp.ofCode row) rex.w r rm, 2)
  else if row = 0x50 / 8 then
    some (.push (regNumber rex.b col), 1)
  else if row = 0x58 / 8 then
    some (.pop (regNumber rex.b col), 1)
  else if opcode = 0x81 then do
    let (r, rm) ← modRM rex rest
    let imm ← leTake 4 (rest.drop 1)
    return (.aluImm (AluOp.ofCode (r % 8)) rex.w rm (signExtend32 imm), 6)
  else if opcode = 0x85 then
    (modRM rex rest).map fun (r, rm) => (.test rex.w rm r, 2)
  else if opcode = 0x87 then
    (modRM rex rest).map fun (r, rm) => (.xchg rex.w rm r, 2)
  else if opcode = 0x8B then
    (modRM rex rest).map fun (r, rm) => (.mov rex.w r rm, 2)
  else if opcode = 0x90 then
    some (if rex.b then .xchg rex.w 0 8 else .nop, 1)
  else if row = 0xB8 / 8 then
    if rex.w then (leTake 8 rest).map fun imm => (.movImm true (regNumber rex.b col) (.ofNat imm), 9)
    else (leTake 4 rest).map fun imm => (.movImm false (regNumber rex.b col) (.ofNat imm), 5)
  else if opcode = 0xC3 then
    some (.ret, 1)
  else if opcode = 0xE8 then
    (leTake 4 rest).map fun rel => (.call (address + 5 + signExtend32 rel), 5)
  else if opcode = 0xE9 then
    (leTake 4 rest).map fun rel => (.jmp (address + 5 + signExtend32 rel), 5)
  else none

/-- The instruction at the front of `code`, which stands at `address`. -/
def decode (address : UInt64) : List UInt8 → Option (Insn × Nat)
  | [] => none
  | byte :: rest =>
    match Rex.ofByte byte, rest with
    | some _, [] => none
    | some rex, opcode :: rest =>
      (decodeOpcode rex (address + 1) opcode rest).map fun (insn, n) => (insn, n + 1)
    | none, rest => decodeOpcode .none address byte rest

end X64
