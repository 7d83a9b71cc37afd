import Mathlib.Data.List.FinRange
import Bemi.Lib.I8086

/-!
# Programs of the 8086

Fetching and executing one instruction after the other (`State.run`), up to a number of instructions
or to a HLT, which is the last one. The opcode bytes of the instructions of `Op` are all different
(`Op.ofByte_eq_some_iff`); on any other byte the program goes wrong.
-/

namespace I8086

/-- Every instruction. -/
def Op.all : List Op :=
  [.nop, .hlt, .cli, .sti, .jmpShort, .jmpNear, .jmpFar, .call, .ret, .retImm] ++
    (List.finRange 8).flatMap fun r => [.push r, .pop r, .movByte r, .movWord r]

/-- The instruction of an opcode byte. -/
def Op.ofByte (b : UInt8) : Option Op := Op.all.find? (·.byte == b)

lemma Op.ofByte_byte (op : Op) : Op.ofByte op.byte = some op := by
  cases op with
  | push r | pop r | movByte r | movWord r =>
    revert r
    decide
  | _ => decide

lemma Op.ofByte_eq_some_iff {b : UInt8} {op : Op} : Op.ofByte b = some op ↔ b = op.byte := by
  constructor
  · intro h
    have hbyte : (op.byte == b) = true := List.find?_some (p := fun op : Op => op.byte == b) h
    exact (eq_of_beq hbyte).symm
  · rintro rfl
    exact op.ofByte_byte

namespace State

/-- The instruction at CS:IP. -/
def fetch (s : State) : Option Op := Op.ofByte (s.byteAt s.cs s.ip)

/-- Run at most `n` instructions; the answer has the number of those executed. -/
def run : ℕ → State → Option (State × ℕ)
  | 0, s => some (s, 0)
  | n + 1, s =>
    match s.fetch with
    | none => none
    | some .hlt => some (s.exec .hlt, 1)
    | some op => (run n (s.exec op)).map fun (s, k) => (s, k + 1)

variable {s : State} {op : Op}

lemma run_fetch_none (h : s.fetch = none) (n : ℕ) : s.run (n + 1) = none := by
  rw [run, h]

lemma run_hlt (h : s.fetch = some .hlt) (n : ℕ) : s.run (n + 1) = some (s.exec .hlt, 1) := by
  rw [run, h]

lemma run_succ (h : s.fetch = some op) (hop : op ≠ .hlt) (n : ℕ) :
    s.run (n + 1) = ((s.exec op).run n).map fun (s, k) => (s, k + 1) := by
  rw [run, h]
  cases op with
  | hlt => exact absurd rfl hop
  | _ => rfl

end State

end I8086
