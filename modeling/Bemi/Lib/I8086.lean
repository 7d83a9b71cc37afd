import Mathlib.Tactic.Common
import Mathlib.Logic.Function.Basic
import Mathlib.Algebra.GroupWithZero.Nat

/-!
# The 8086, from its manual

Control transfers, stack operations and immediate moves of the 8086, on general registers, segment
registers, the instruction pointer and a memory of `2 ^ 20` bytes. An address is a segment and a
16-bit offset: what lies behind offset `FFFF` of a segment is its offset 0, for instruction bytes
and for the second byte of a word alike; physical addresses wrap at `2 ^ 20`. The flags are left out.
-/

namespace I8086

/-- The general registers, in the order of their encoding: AX, CX, DX, BX, SP, BP, SI, DI. -/
abbrev Reg := Fin 8

local instance neZero_eight : NeZero 8 := ⟨Nat.succ_ne_zero 7⟩

/-- The stack pointer. -/
abbrev sp : Reg := 4

/-- The first of the registers that name a high byte in a byte move. -/
abbrev ah : Reg := 4

abbrev Address := Fin 0x100000

@[ext] structure State where
  gp : Reg → UInt16
  cs : UInt16
  ds : UInt16
  es : UInt16
  ss : UInt16
  ip : UInt16
  mem : Address → UInt8

/-- An instruction, without its operand bytes. A register operand of a byte move names AL, CL, DL,
BL, AH, CH, DH or BH. -/
inductive Op where
  | nop | hlt | cli | sti
  | jmpShort | jmpNear | jmpFar
  | call | ret | retImm
  | push (r : Reg) | pop (r : Reg)
  | movByte (r : Reg) | movWord (r : Reg)
  deriving DecidableEq, Repr

def Op.byte : Op → UInt8
  | nop => 0x90 | hlt => 0xF4 | cli => 0xFA | sti => 0xFB
  | jmpShort => 0xEB | jmpNear => 0xE9 | jmpFar => 0xEA
  | call => 0xE8 | ret => 0xC3 | retImm => 0xC2
  | push r => .ofNat (0x50 + r) | pop r => .ofNat (0x58 + r)
  | movByte r => .ofNat (0xB0 + r) | movWord r => .ofNat (0xB8 + r)

def physical (seg off : UInt16) : Address :=
  ⟨(16 * seg.toNat + off.toNat) % 0x100000, Nat.mod_lt _ (by decide)⟩

def lowByte (v : UInt16) : UInt8 := .ofNat (v.toNat % 256)

def highByte (v : UInt16) : UInt8 := .ofNat (v.toNat / 256)

def word (low high : UInt8) : UInt16 := .ofNat (low.toNat + 256 * high.toNat)

def signExtend (b : UInt8) : UInt16 := ⟨b.toBitVec.signExtend 16⟩

namespace State

def byteAt (s : State) (seg off : UInt16) : UInt8 := s.mem (physical seg off)

def wordAt (s : State) (seg off : UInt16) : UInt16 :=
  word (s.byteAt seg off) (s.byteAt seg (off + 1))

/-- Store a word, low byte first. -/
def storeWord (s : State) (seg off v : UInt16) : State :=
  let mem := Function.update s.mem (physical seg off) (lowByte v)
  { s with mem := Function.update mem (physical seg (off + 1)) (highByte v) }

def set (s : State) (r : Reg) (v : UInt16) : State :=
  { s with gp := Function.update s.gp r v }

/-- Store to a byte register; the other half of its word register is kept. -/
def setByte (s : State) (r : Reg) (v : UInt8) : State :=
  if r < ah then s.set r (word v (highByte (s.gp r)))
  else s.set (r - ah) (word (lowByte (s.gp (r - ah))) v)

def jump (s : State) (ip : UInt16) : State := { s with ip := ip }

/-- SP goes down by two before the operand is read. -/
def push (s : State) (operand : State → UInt16) : State :=
  let s := s.set sp (s.gp sp - 2)
  s.storeWord s.ss (s.gp sp) (operand s)

/-- The word at the top of the stack. -/
def top (s : State) : UInt16 := s.wordAt s.ss (s.gp sp)

/-- The operand bytes behind the opcode. -/
def operand8 (s : State) : UInt8 := s.byteAt s.cs (s.ip + 1)

def operand16 (s : State) (k : UInt16) : UInt16 := s.wordAt s.cs (s.ip + k)

/-- One instruction, which stands at CS:IP. -/
def exec (s : State) : Op → State
  | .nop | .hlt | .cli | .sti => s.jump (s.ip + 1)
  | .jmpShort => s.jump (s.ip + 2 + signExtend s.operand8)
  | .jmpNear => s.jump (s.ip + 3 + s.operand16 1)
  | .jmpFar => { s with ip := s.operand16 1, cs := s.operand16 3 }
  | .call => (s.push fun _ => s.ip + 3).jump (s.ip + 3 + s.operand16 1)
  | .ret => (s.set sp (s.gp sp + 2)).jump s.top
  | .retImm => (s.set sp (s.gp sp + 2 + s.operand16 1)).jump s.top
  | .push r => (s.push fun s => s.gp r).jump (s.ip + 1)
  | .pop r => ((s.set sp (s.gp sp + 2)).set r s.top).jump (s.ip + 1)
  | .movByte r => (s.setByte r s.operand8).jump (s.ip + 2)
  | .movWord r => (s.set r (s.operand16 1)).jump (s.ip + 3)

end State

/-! ### Words and their bytes -/

lemma word_inj {a b c d : UInt8} : word a b = word c d ↔ a = c ∧ b = d := by
  have ha := a.toNat_lt
  have hb := b.toNat_lt
  have hc := c.toNat_lt
  have hd := d.toNat_lt
  rw [word, word, ← UInt16.toNat_inj, UInt16.toNat_ofNat', UInt16.toNat_ofNat', ← UInt8.toNat_inj,
    ← UInt8.toNat_inj]
  omega

lemma word_bytes (v : UInt16) : word (lowByte v) (highByte v) = v := by
  have hv := v.toNat_lt
  rw [word, lowByte, highByte, ← UInt16.toNat_inj, UInt16.toNat_ofNat', UInt8.toNat_ofNat',
    UInt8.toNat_ofNat']
  omega

lemma word_eq_iff {a b : UInt8} {v : UInt16} : word a b = v ↔ a = lowByte v ∧ b = highByte v := by
  rw [← word_inj, word_bytes]

/-- Two neighbouring offsets of a segment are different addresses. -/
lemma physical_succ_ne (seg off : UInt16) : physical seg (off + 1) ≠ physical seg off := by
  intro h
  have h := congrArg Fin.val h
  have hs := seg.toNat_lt
  have ho := off.toNat_lt
  simp only [physical, UInt16.toNat_add] at h
  have : (1 : UInt16).toNat = 1 := rfl
  omega

/-- A word with a given high byte. -/
lemma word_high {low : UInt8} {b : UInt8} {v : UInt16} (h : low = lowByte v) :
    v = word low b ↔ highByte v = b := by
  rw [eq_comm, word_eq_iff, eq_comm (a := b)]
  exact and_iff_right h

lemma signExtend_inj {a b : UInt8} : signExtend a = signExtend b ↔ a = b := by
  constructor
  · intro h
    have h := congrArg (fun v : UInt16 => v.toBitVec.toInt) h
    simp only [signExtend, BitVec.toInt_signExtend_of_le (show 8 ≤ 16 by decide)] at h
    exact UInt8.toBitVec_inj.mp (BitVec.toInt_inj.mp h)
  · rintro rfl
    rfl

/-! ### When two states are the same -/

namespace State

lemma jump_eq_iff {s t : State} (h : s.ip = t.ip) {i j : UInt16} :
    s.jump i = t.jump j ↔ s = t ∧ i = j := by
  simp only [State.ext_iff, jump, h]
  tauto

lemma set_eq_iff {s : State} {r : Reg} {v w : UInt16} : s.set r v = s.set r w ↔ v = w := by
  constructor
  · intro h
    have h := congrFun (congrArg gp h) r
    simpa [set] using h
  · rintro rfl
    rfl

/-- Writing to one register or to another. -/
lemma set_ne_eq_iff {s : State} {r r' : Reg} (hne : r ≠ r') {v w : UInt16} :
    s.set r v = s.set r' w ↔ s.gp r = v ∧ s.gp r' = w := by
  constructor
  · intro h
    have hr := congrFun (congrArg gp h) r
    have hr' := congrFun (congrArg gp h) r'
    simp only [set, Function.update_self, Function.update_of_ne hne,
      Function.update_of_ne hne.symm] at hr hr'
    exact ⟨hr.symm, hr'⟩
  · rintro ⟨rfl, rfl⟩
    simp only [set, Function.update_eq_self]

end State

/-- Two bytes stored one after the other, the second at one place or at another. -/
lemma update_second_eq_iff {α β : Type*} [DecidableEq α] {f : α → β} {p q q' : α} {a b : β}
    (hq : q ≠ p) (hq' : q' ≠ p) :
    Function.update (Function.update f p a) q b = Function.update (Function.update f p a) q' b ↔
      q = q' ∨ f q = b ∧ f q' = b := by
  by_cases heq : q = q'
  · simp [heq]
  · constructor
    · intro h
      have hb := congrFun h q
      have hb' := congrFun h q'
      simp only [Function.update_self, Function.update_of_ne heq, Function.update_of_ne hq,
        Function.update_of_ne (Ne.symm heq), Function.update_of_ne hq'] at hb hb'
      exact .inr ⟨hb.symm, hb'⟩
    · rintro (h | ⟨hb, hb'⟩)
      · exact absurd h heq
      · have hq : Function.update f p a q = b := by rw [Function.update_of_ne hq, hb]
        have hq' : Function.update f p a q' = b := by rw [Function.update_of_ne hq', hb']
        exact (Function.update_eq_self_iff.mpr hq.symm).trans
          (Function.update_eq_self_iff.mpr hq'.symm).symm

end I8086
