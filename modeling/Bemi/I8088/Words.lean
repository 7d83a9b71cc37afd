import Bemi.I8088.Executor
import Bemi.Lib.I8086

/-!
# Words in the simulator's memory

Physical addresses, masked to 20 bits, and the two bytes of a word. A word that is written is read
back, and is not seen by words at another offset of the same segment with the same parity, wherever
the offsets or the physical addresses wrap.
-/

namespace Bemi.I8088
open I8086 (physical word lowByte highByte)

lemma index_toNat (a : UInt32) : (Memory8088.index a).val = a.toNat % 0x100000 := by
  have h : (a &&& 0xFFFFF).toNat = a.toNat &&& (2 ^ 20 - 1) := UInt32.toNat_and ..
  exact h.trans (Nat.and_two_pow_sub_one_eq_mod _ _)

lemma linear_toNat (seg off : UInt16) :
    (linear seg off).toNat = 16 * seg.toNat + off.toNat := by
  have hs := seg.toNat_lt
  have ho := off.toNat_lt
  rw [linear, UInt32.toNat_add, UInt32.toNat_shiftLeft, UInt16.toNat_toUInt32,
    UInt16.toNat_toUInt32, Nat.shiftLeft_eq]
  have hshift : 2 ^ ((4 : UInt32).toNat % 32) = 16 := rfl
  rw [hshift]
  omega

lemma index_linear (seg off : UInt16) : Memory8088.index (linear seg off) = physical seg off := by
  apply Fin.ext
  rw [index_toNat, linear_toNat]
  rfl

/-- The byte behind the one at `seg:off`, for the simulator. -/
lemma index_linear_succ (seg off : UInt16) :
    (Memory8088.index (linear seg off + 1)).val = (16 * seg.toNat + off.toNat + 1) % 0x100000 := by
  have hs := seg.toNat_lt
  have ho := off.toNat_lt
  have h1 : (1 : UInt32).toNat = 1 := rfl
  rw [index_toNat, UInt32.toNat_add, linear_toNat, h1]
  omega

/-- Below the end of the segment it is the byte at the next offset, and only there. -/
lemma index_succ_eq_iff (seg off : UInt16) :
    Memory8088.index (linear seg off + 1) = physical seg (off + 1) ↔ off ≠ 0xFFFF := by
  have hs := seg.toNat_lt
  have ho := off.toNat_lt
  have h1 : (1 : UInt16).toNat = 1 := rfl
  have hmax : off ≠ 0xFFFF ↔ off.toNat ≠ 0xFFFF := by
    rw [ne_eq, ← UInt16.toNat_inj]
    rfl
  rw [Fin.ext_iff, index_linear_succ, hmax]
  simp only [physical, UInt16.toNat_add, h1]
  omega

lemma index_succ_ne (seg off : UInt16) :
    Memory8088.index (linear seg off + 1) ≠ physical seg off := by
  intro h
  have h := congrArg Fin.val h
  have hs := seg.toNat_lt
  have ho := off.toNat_lt
  rw [index_linear_succ] at h
  simp only [physical] at h
  omega

lemma read16_eq (mem : Memory8088) (addr : UInt32) :
    mem.read16 addr = word (mem.read8 addr) (mem.read8 (addr + 1)) := by
  have hlo := (mem.read8 addr).toNat_lt
  have hhi := (mem.read8 (addr + 1)).toNat_lt
  have hshift : (8 : UInt16).toNat % 16 = 8 := rfl
  rw [Memory8088.read16, word, ← UInt16.toNat_inj, UInt16.toNat_or, UInt16.toNat_shiftLeft,
    UInt8.toNat_toUInt16, UInt8.toNat_toUInt16, hshift, UInt16.toNat_ofNat', Nat.or_comm,
    Nat.mod_eq_of_lt (by rw [Nat.shiftLeft_eq]; omega), ← Nat.shiftLeft_add_eq_or_of_lt hlo,
    Nat.shiftLeft_eq]
  omega

lemma write16_ram (mem : Memory8088) (addr : UInt32) (v : UInt16) :
    (mem.write16 addr v).ram =
      Function.update (Function.update mem.ram (Memory8088.index addr) (lowByte v))
        (Memory8088.index (addr + 1)) (highByte v) := by
  have hlow : v.toUInt8 = lowByte v := by
    rw [lowByte, ← UInt8.toNat_inj, UInt16.toNat_toUInt8, UInt8.toNat_ofNat']
    omega
  have hhigh : (v >>> 8).toUInt8 = highByte v := by
    have hshift : (8 : UInt16).toNat % 16 = 8 := rfl
    rw [highByte, ← UInt8.toNat_inj, UInt16.toNat_toUInt8, UInt16.toNat_shiftRight,
      UInt8.toNat_ofNat', hshift, Nat.shiftRight_eq_div_pow]
  funext i
  simp only [Memory8088.write16, Memory8088.write8, hlow, hhigh, Function.update_apply]

/-- A word that has been written is read back. -/
lemma read16_write16 (mem : Memory8088) (seg off v : UInt16) :
    (mem.write16 (linear seg off) v).read16 (linear seg off) = v := by
  have hne := index_succ_ne seg off
  rw [← index_linear] at hne
  rw [read16_eq, Memory8088.read8, Memory8088.read8, write16_ram, Function.update_self,
    Function.update_of_ne hne.symm, Function.update_self, I8086.word_bytes]

/-- Words at an even distance in a segment do not overlap. -/
lemma read16_write16_apart (mem : Memory8088) (seg : UInt16) {a b : UInt16} (v : UInt16)
    (heven : (b - a).toNat % 2 = 0) (hne : b ≠ a) :
    (mem.write16 (linear seg a) v).read16 (linear seg b) = mem.read16 (linear seg b) := by
  have hs := seg.toNat_lt
  have ha := a.toNat_lt
  have hb := b.toNat_lt
  have hne : b.toNat ≠ a.toNat := fun h => hne (UInt16.toNat_inj.mp h)
  rw [UInt16.toNat_sub] at heven
  have apart {i j : Fin 0x100000} (h : i.val ≠ j.val) : i ≠ j := fun heq => h (congrArg Fin.val heq)
  have hll : Memory8088.index (linear seg b) ≠ Memory8088.index (linear seg a) := by
    apply apart
    rw [index_toNat, index_toNat, linear_toNat, linear_toNat]
    omega
  have hlh : Memory8088.index (linear seg b) ≠ Memory8088.index (linear seg a + 1) := by
    apply apart
    rw [index_toNat, index_linear_succ, linear_toNat]
    omega
  have hhl : Memory8088.index (linear seg b + 1) ≠ Memory8088.index (linear seg a) := by
    apply apart
    rw [index_toNat (linear seg a), index_linear_succ, linear_toNat]
    omega
  have hhh : Memory8088.index (linear seg b + 1) ≠ Memory8088.index (linear seg a + 1) := by
    apply apart
    rw [index_linear_succ, index_linear_succ]
    omega
  simp only [read16_eq, Memory8088.read8, write16_ram, Function.update_of_ne hll,
    Function.update_of_ne hlh, Function.update_of_ne hhl, Function.update_of_ne hhh]

end Bemi.I8088
