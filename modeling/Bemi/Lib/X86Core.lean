import Mathlib.Algebra.GroupWithZero.Nat
import Mathlib.Algebra.Order.Ring.Int
import Mathlib.Logic.Function.Basic
import Bemi.Lib.Machine

/-!
# Straight-line x86-64 code

A core of 64-bit integer instructions on the sixteen general registers, the four arithmetic flags
CF, ZF, SF and OF and a memory of 64-bit words, as a straight-line machine: `NOP`, `ADD`, `SUB`,
`CMP`, `AND`, `OR`, `XOR`, `INC`, `DEC`, `MOV` in its register, immediate, load and store forms,
`MOVSXD`, `PUSH` and `POP`. `JMP`, `RET` and `HLT` end a run, the first two with the address at which
it goes on. Flags are defined by what they say about numbers, not by the bits of the result.
-/

namespace X86
open Machine

/-- A general register, by its number. -/
abbrev Gpr := Fin 16

local instance neZero_sixteen : NeZero 16 := ⟨Nat.succ_ne_zero 15⟩

/-- RSP. -/
def rsp : Gpr := 4

inductive BinOp where
  | add | sub | cmp | and | or | xor
  deriving DecidableEq, Repr

inductive Operand where
  | reg (r : Gpr)
  | imm (v : UInt64)
  deriving DecidableEq, Repr

/-- A memory operand is a base, which may be absent, and a displacement. -/
inductive Insn where
  | nop
  | binary (op : BinOp) (dst : Gpr) (src : Operand)
  | inc (dst : Gpr)
  | dec (dst : Gpr)
  | mov (dst : Gpr) (src : Operand)
  | load (dst : Gpr) (base : Option Gpr) (disp : UInt64)
  | store (base : Option Gpr) (disp : UInt64) (src : Gpr)
  | movsxd (dst src : Gpr)
  | push (src : Gpr)
  | pop (dst : Gpr)
  | jmp (target : Gpr)
  | ret
  | hlt
  deriving DecidableEq, Repr

structure Flags where
  cf : Bool
  zf : Bool
  sf : Bool
  of : Bool
  deriving DecidableEq, Repr

/-- How the words of a memory are read and written; reading may change it. -/
structure Memory (M : Type*) where
  load : M → UInt64 → M × UInt64
  store : M → UInt64 → UInt64 → M

structure State (M : Type*) where
  gpr : Gpr → UInt64
  flags : Flags
  mem : M

/-! ## Flags -/

/-- The signed number does not fit 64 bits. -/
def overflows (n : Int) : Bool := ¬ (-2 ^ 63 ≤ n ∧ n < 2 ^ 63)

/-- ZF and SF tell the result, the other two are given. -/
def Flags.ofResult (result : UInt64) (cf of : Bool) : Flags where
  cf := cf
  zf := result = 0
  sf := result.toInt64 < 0
  of := of

def addFlags (a b : UInt64) : Flags :=
  .ofResult (a + b) (2 ^ 64 ≤ a.toNat + b.toNat) (overflows (a.toInt64.toInt + b.toInt64.toInt))

def subFlags (a b : UInt64) : Flags :=
  .ofResult (a - b) (a < b) (overflows (a.toInt64.toInt - b.toInt64.toInt))

def logicFlags (result : UInt64) : Flags :=
  .ofResult result false false

/-- What a two-operand instruction leaves in its destination, `none` if nothing, and its flags. -/
def BinOp.eval : BinOp → UInt64 → UInt64 → Option UInt64 × Flags
  | .add, a, b => (some (a + b), addFlags a b)
  | .sub, a, b => (some (a - b), subFlags a b)
  | .cmp, a, b => (none, subFlags a b)
  | .and, a, b => (some (a &&& b), logicFlags (a &&& b))
  | .or, a, b => (some (a ||| b), logicFlags (a ||| b))
  | .xor, a, b => (some (a ^^^ b), logicFlags (a ^^^ b))

/-! ## Steps and runs -/

variable {M : Type*}

namespace State

def set (s : State M) (r : Gpr) (v : UInt64) : State M :=
  { s with gpr := Function.update s.gpr r v }

def operand (s : State M) : Operand → UInt64
  | .reg r => s.gpr r
  | .imm v => v

def address (s : State M) (base : Option Gpr) (disp : UInt64) : UInt64 :=
  (base.map s.gpr).getD 0 + disp

@[simp] lemma gpr_set_self (s : State M) (r : Gpr) (v : UInt64) : (s.set r v).gpr r = v := by
  simp [set]

lemma gpr_set_ne (s : State M) {r r' : Gpr} (v : UInt64) (h : r' ≠ r) :
    (s.set r v).gpr r' = s.gpr r' := by
  simp [set, h]

end State

/-- The low 32 bits, sign-extended. -/
def signExtend32 (v : UInt64) : UInt64 := ⟨(v.toBitVec.setWidth 32).signExtend 64⟩

/-- One instruction; a run that stops carries the address it goes on at, if there is one. -/
def step (mem : Memory M) (i : Insn) (s : State M) : Flow (State M) (State M × Option UInt64) :=
  match i with
  | .nop => .next s
  | .binary op dst src =>
    let (result, flags) := op.eval (s.gpr dst) (s.operand src)
    let s := match result with
      | some v => s.set dst v
      | none => s
    .next { s with flags := flags }
  | .inc dst =>
    let a := s.gpr dst
    .next { s.set dst (a + 1) with flags := { addFlags a 1 with cf := s.flags.cf } }
  | .dec dst =>
    let a := s.gpr dst
    .next { s.set dst (a - 1) with flags := { subFlags a 1 with cf := s.flags.cf } }
  | .mov dst src => .next (s.set dst (s.operand src))
  | .load dst base disp =>
    let (m, v) := mem.load s.mem (s.address base disp)
    .next { s.set dst v with mem := m }
  | .store base disp src =>
    .next { s with mem := mem.store s.mem (s.address base disp) (s.gpr src) }
  | .movsxd dst src => .next (s.set dst (signExtend32 (s.gpr src)))
  | .push src =>
    let top := s.gpr rsp - 8
    .next { s.set rsp top with mem := mem.store s.mem top (s.gpr src) }
  | .pop dst =>
    let (m, v) := mem.load s.mem (s.gpr rsp)
    .next { (s.set rsp (s.gpr rsp + 8)).set dst v with mem := m }
  | .jmp target => .stop (s, some (s.gpr target))
  | .ret =>
    let (m, v) := mem.load s.mem (s.gpr rsp)
    .stop ({ s.set rsp (s.gpr rsp + 8) with mem := m }, some v)
  | .hlt => .stop (s, none)

/-- Run a program; one that falls off its end has no address to go on at. -/
def run (mem : Memory M) (prog : List Insn) (s : State M) : State M × Option UInt64 :=
  (flow (step mem) prog s).finish fun s => (s, none)

end X86
