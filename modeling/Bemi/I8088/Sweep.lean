import Mathlib.Data.List.GetD
import Mathlib.Order.Monotone.Basic
import Bemi.I8088.Words
import Bemi.Lib.Chain

/-!
# The disassembly sweep

Model of `cmd_decode` of `dbt/bin/sim8088.rs`: the bytes are loaded at 0x0100 into a memory of zeros
and decoded one instruction after the other up to their end. The sweep gives the lines it prints, each
an address with the instruction there. Addresses have 16 bits, and the loop takes fuel.
-/

namespace Bemi.I8088
open Chain

/-! ## The command -/

/-- `while ip < end_ip` -/
def sweep (mem : Memory8088) (endIp : UInt16) :
    Nat → UInt16 → Option (List (UInt16 × DecodedInst8088))
  | 0, _ => none
  | fuel + 1, ip =>
    if ip < endIp then
      match decode8088 mem 0 ip with
      | some inst => (sweep mem endIp fuel (inst.ipAfter ip)).map ((ip, inst) :: ·)
      | none => some []
    else some []

def loaded (bytes : List UInt8) : X8088Executor :=
  let exec := X8088Executor.new
  let exec := exec.loadImage bytes 0x0100
  exec.setEntry 0x0000 0x0100 0x0000 0xFFFE

def endIp (bytes : List UInt8) : UInt16 := 0x0100 + UInt16.ofNat bytes.length

def cmdDecode (bytes : List UInt8) (fuel : Nat) : Option (List (UInt16 × DecodedInst8088)) :=
  sweep (loaded bytes).mem (endIp bytes) fuel 0x0100

/-! ## Lengths of instructions -/

/-- The bytes that the decoder takes an instruction to have. -/
def lengthOf (b0 : UInt8) : Nat :=
  if 0x70 ≤ b0 ∧ b0 ≤ 0x7F ∨ b0 = 0xEB ∨ b0 = 0xCD then 2
  else if b0 = 0xE9 ∨ b0 = 0xE8 ∨ b0 = 0xC2 then 3
  else if b0 = 0xEA then 5
  else if 0xB0 ≤ b0 ∧ b0 ≤ 0xBF then if b0 &&& 0x08 ≠ 0 then 3 else 2
  else 1

lemma decode8088_length (mem : Memory8088) (cs ip : UInt16) :
    (decode8088 mem cs ip).map (·.length.toNat) =
      some (lengthOf (mem.read8 ((cs.toUInt32 <<< 4) + ip.toUInt32))) := by
  simp only [decode8088, apply_ite (Option.map _), Option.map_some]
  generalize mem.read8 ((cs.toUInt32 <<< 4) + ip.toUInt32) = b0
  obtain ⟨n, rfl⟩ : ∃ n : Fin 256, b0 = UInt8.ofFin n := ⟨b0.toFin, rfl⟩
  revert n
  decide +kernel

lemma lengthOf_bounds (b0 : UInt8) : 1 ≤ lengthOf b0 ∧ lengthOf b0 ≤ 5 := by
  rw [lengthOf]
  split_ifs <;> decide

/-! ## The linear sweep -/

/-- The memory at an address: the bytes from 0x0100 on, and zeros. -/
def byteAt (bytes : List UInt8) (a : Nat) : UInt8 :=
  if 0x0100 ≤ a then bytes.getD (a - 0x0100) 0 else 0

/-- The address of instruction `k`, without wrapping. -/
def start (bytes : List UInt8) : Nat → Nat
  | 0 => 0x0100
  | k + 1 => start bytes k + lengthOf (byteAt bytes (start bytes k))

/-- Each instruction that starts among the bytes ends below the top of the segment. -/
def Fits (bytes : List UInt8) : Prop :=
  ∀ k, start bytes k < 0x0100 + bytes.length → start bytes (k + 1) < 0x10000

/-- The sweep ends, and each line is of a higher address than the ones before. -/
def Ends (bytes : List UInt8) : Prop :=
  ∃ lines, Settles (cmdDecode bytes) lines ∧ (lines.map Prod.fst).Pairwise (· < ·)

lemma start_lt_succ (bytes : List UInt8) (k : Nat) : start bytes k < start bytes (k + 1) :=
  Nat.lt_add_of_pos_right (lengthOf_bounds _).1

lemma start_mono (bytes : List UInt8) : Monotone (start bytes) :=
  monotone_nat_of_le_succ fun k => Nat.le_of_lt (start_lt_succ bytes k)

section
variable {bytes : List UInt8} (hlen : bytes.length ≤ 65279)
include hlen

lemma read8_loaded (ip : UInt16) :
    (loaded bytes).mem.read8 (((0 : UInt16).toUInt32 <<< 4) + ip.toUInt32) =
      byteAt bytes ip.toNat := by
  have hip := ip.toNat_lt
  have haddr : (((0 : UInt16).toUInt32 <<< 4) + ip.toUInt32).toNat = ip.toNat := by
    rw [show ((0 : UInt16).toUInt32 <<< 4 : UInt32) = 0 from rfl, UInt32.zero_add,
      UInt16.toNat_toUInt32]
  have hindex : (Memory8088.index (((0 : UInt16).toUInt32 <<< 4) + ip.toUInt32)).val = ip.toNat := by
    rw [index_toNat, haddr]
    exact Nat.mod_eq_of_lt (by omega)
  have hbase : (Memory8088.index 0x0100).val = 0x0100 := rfl
  change (Memory8088.new.loadAt 0x0100 bytes).ram _ = _
  simp only [Memory8088.loadAt, Memory8088.new, hindex, hbase, byteAt]
  rw [Nat.min_eq_left (by omega)]
  by_cases hlow : 0x0100 ≤ ip.toNat
  · rw [if_pos hlow]
    split
    · rfl
    · rw [List.getD_eq_default _ _ (by omega)]
  · rw [if_neg hlow, if_neg fun h => hlow h.1]

lemma toNat_endIp : (endIp bytes).toNat = 0x0100 + bytes.length := by
  have hofNat : (UInt16.ofNat bytes.length).toNat = bytes.length :=
    UInt16.toNat_ofNat_of_lt' (show bytes.length < 2 ^ 16 by omega)
  rw [endIp, UInt16.toNat_add, hofNat]
  exact Nat.mod_eq_of_lt (show 0x0100 + bytes.length < 2 ^ 16 by omega)

/-- One round: the next address is taken modulo the segment. -/
lemma sweep_succ {ip : UInt16} (h : ip.toNat < 0x0100 + bytes.length) :
    ∃ inst next, next.toNat = (ip.toNat + lengthOf (byteAt bytes ip.toNat)) % 0x10000 ∧
      ∀ fuel, sweep (loaded bytes).mem (endIp bytes) (fuel + 1) ip =
        (sweep (loaded bytes).mem (endIp bytes) fuel next).map ((ip, inst) :: ·) := by
  have hlt : ip < endIp bytes := by
    rw [UInt16.lt_iff_toNat_lt, toNat_endIp hlen]
    exact h
  have hlength := decode8088_length (loaded bytes).mem 0 ip
  rw [read8_loaded hlen] at hlength
  obtain ⟨inst, hinst, heq⟩ := Option.map_eq_some_iff.mp hlength
  refine ⟨inst, inst.ipAfter ip, ?_, fun fuel => ?_⟩
  · rw [DecodedInst8088.ipAfter, UInt16.toNat_add, UInt8.toNat_toUInt16, heq]
  · rw [sweep, if_pos hlt, hinst]

lemma sweep_end (fuel : Nat) {ip : UInt16} (h : 0x0100 + bytes.length ≤ ip.toNat) :
    sweep (loaded bytes).mem (endIp bytes) (fuel + 1) ip = some [] := by
  rw [sweep, if_neg]
  rw [UInt16.lt_iff_toNat_lt, toNat_endIp hlen]
  omega

/-! ## Without a crossing -/

/-- From instruction `k` on the sweep goes up, with a round for each byte left at most. -/
lemma sweep_fits (hfits : Fits bytes) (k : Nat) {ip : UInt16} (hip : ip.toNat = start bytes k) :
    ∃ lines, (∀ fuel, 0x0100 + bytes.length - start bytes k + 1 ≤ fuel →
        sweep (loaded bytes).mem (endIp bytes) fuel ip = some lines) ∧
      (lines.map Prod.fst).Pairwise (· < ·) ∧ ∀ a ∈ lines.map Prod.fst, ip ≤ a := by
  -- on the bytes left
  induction hn : 0x0100 + bytes.length - start bytes k using Nat.strongRecOn
    generalizing k ip with
  | ind n ih =>
    by_cases hend : 0x0100 + bytes.length ≤ start bytes k
    · refine ⟨[], fun fuel hfuel => ?_, List.Pairwise.nil, fun a ha => by cases ha⟩
      obtain ⟨m, rfl⟩ := Nat.exists_eq_add_of_le' (Nat.le_trans (Nat.le_add_left 1 n) hfuel)
      exact sweep_end hlen m (by omega)
    · have hnext := hfits k (by omega)
      have hlt := start_lt_succ bytes k
      have hin : ip.toNat < 0x0100 + bytes.length := by omega
      obtain ⟨inst, next, hwrap, hsweep⟩ := sweep_succ hlen hin
      have hstart : next.toNat = start bytes (k + 1) := by
        rw [hwrap, hip]
        exact Nat.mod_eq_of_lt hnext
      obtain ⟨lines, hlines, hup, hle⟩ := ih _ (by omega) (k + 1) hstart rfl
      have hnextlt : ip < next := UInt16.lt_iff_toNat_lt.mpr (by omega)
      refine ⟨(ip, inst) :: lines, fun fuel hfuel => ?_, ?_, ?_⟩
      · obtain ⟨m, rfl⟩ := Nat.exists_eq_add_of_le' (Nat.le_trans (Nat.le_add_left 1 n) hfuel)
        rw [hsweep, hlines m (by omega), Option.map_some]
      · exact List.pairwise_cons.mpr ⟨fun a ha => UInt16.lt_of_lt_of_le hnextlt (hle a ha), hup⟩
      · intro a ha
        rcases List.mem_cons.mp ha with rfl | ha
        · exact UInt16.le_refl _
        · exact UInt16.le_trans (UInt16.le_of_lt hnextlt) (hle a ha)

/-! ## With a crossing -/

/-- The addresses of a sweep whose instruction `k` crosses the top: those of the instructions up to it
and those below the bytes, where it goes on from zero. -/
def Circuit (bytes : List UInt8) (k a : Nat) : Prop :=
  a < 0x0100 ∨ ∃ j ≤ k, a = start bytes j

omit hlen in
lemma lengthOf_low {a : Nat} (h : a < 0x0100) : lengthOf (byteAt bytes a) = 1 := by
  rw [byteAt, if_neg (Nat.not_le_of_lt h)]
  rfl

/-- The sweep does not leave the circuit. -/
lemma circuit_next {k a : Nat} (hk : start bytes k < 0x0100 + bytes.length)
    (hcross : 0x10000 ≤ start bytes (k + 1)) (h : Circuit bytes k a) :
    Circuit bytes k ((a + lengthOf (byteAt bytes a)) % 0x10000) := by
  rcases h with hlow | ⟨j, hj, rfl⟩
  · rw [lengthOf_low hlow, Nat.mod_eq_of_lt (by omega)]
    rcases Nat.lt_or_eq_of_le (Nat.succ_le_of_lt hlow) with hlt | heq
    · exact .inl hlt
    · exact .inr ⟨0, k.zero_le, heq⟩
  · have hnext : start bytes j + lengthOf (byteAt bytes (start bytes j)) = start bytes (j + 1) := rfl
    rw [hnext]
    rcases Nat.lt_or_eq_of_le hj with hlt | rfl
    · have hle : start bytes (j + 1) ≤ start bytes k := start_mono bytes hlt
      rw [Nat.mod_eq_of_lt (by omega)]
      exact .inr ⟨j + 1, hlt, rfl⟩
    · have hlen5 := (lengthOf_bounds (byteAt bytes (start bytes j))).2
      exact .inl (by omega)

omit hlen in
lemma circuit_lt (hpos : 1 ≤ bytes.length) {k a : Nat} (hk : start bytes k < 0x0100 + bytes.length)
    (h : Circuit bytes k a) : a < 0x0100 + bytes.length := by
  rcases h with hlow | ⟨j, hj, rfl⟩
  · omega
  · exact Nat.lt_of_le_of_lt (start_mono bytes hj) hk

lemma sweep_circuit (hpos : 1 ≤ bytes.length) {k : Nat} (hk : start bytes k < 0x0100 + bytes.length)
    (hcross : 0x10000 ≤ start bytes (k + 1)) (fuel : Nat) {ip : UInt16}
    (h : Circuit bytes k ip.toNat) : sweep (loaded bytes).mem (endIp bytes) fuel ip = none := by
  induction fuel generalizing ip with
  | zero => rfl
  | succ fuel ih =>
    obtain ⟨inst, next, hwrap, hsweep⟩ := sweep_succ hlen (circuit_lt hpos hk h)
    have hnext : Circuit bytes k next.toNat := hwrap ▸ circuit_next hlen hk hcross h
    rw [hsweep, ih hnext, Option.map_none]

/-- A crossing sweep comes back to the bytes for ever. -/
lemma not_ends_of_crossing (hpos : 1 ≤ bytes.length) {k : Nat}
    (hk : start bytes k < 0x0100 + bytes.length) (hcross : 0x10000 ≤ start bytes (k + 1)) :
    ¬ Ends bytes := by
  rintro ⟨lines, ⟨n, hn⟩, _⟩
  have hfirst : Circuit bytes k (0x0100 : UInt16).toNat := .inr ⟨0, k.zero_le, rfl⟩
  have hnone := sweep_circuit hlen hpos hk hcross n hfirst
  have hsome := hn n (Nat.le_refl n)
  rw [cmdDecode, hnone] at hsome
  cases hsome

end

/-! ## The end of the sweep -/

/-- The sweep ends, and goes up, exactly where no instruction crosses the top of the segment. -/
theorem sweep_ends_iff (bytes : List UInt8) (hpos : 1 ≤ bytes.length)
    (hlen : bytes.length ≤ 65279) : Ends bytes ↔ Fits bytes := by
  constructor
  · intro hends k hk
    by_contra hcross
    exact not_ends_of_crossing hlen hpos hk (Nat.le_of_not_lt hcross) hends
  · intro hfits
    have hfirst : (0x0100 : UInt16).toNat = start bytes 0 := rfl
    obtain ⟨lines, hlines, hup, _⟩ := sweep_fits hlen hfits 0 hfirst
    exact ⟨lines, ⟨_, hlines⟩, hup⟩

/-- With room for the longest instruction after the last byte nothing crosses. -/
lemma fits_of_length {bytes : List UInt8} (h : bytes.length ≤ 65275) : Fits bytes := by
  intro k hk
  have hlength := (lengthOf_bounds (byteAt bytes (start bytes k))).2
  have hstart : start bytes (k + 1) = start bytes k + lengthOf (byteAt bytes (start bytes k)) := rfl
  omega

/-- `MOV AX, 0x1234; JMP short; HLT` -/
theorem sweep_three : Ends [0xB8, 0x34, 0x12, 0xEB, 0x00, 0xF4] :=
  (sweep_ends_iff [0xB8, 0x34, 0x12, 0xEB, 0x00, 0xF4] (by decide) (by decide)).mpr
    (fits_of_length (by decide))

/-- Jumps of two bytes each. -/
lemma start_jumps {k : Nat} (h : k ≤ 32640) :
    start (List.replicate 65279 0xEB) k = 0x0100 + 2 * k := by
  induction k with
  | zero => rfl
  | succ k ih =>
    have hbyte : byteAt (List.replicate 65279 0xEB) (0x0100 + 2 * k) = 0xEB := by
      rw [byteAt, if_pos (Nat.le_add_right ..), Nat.add_sub_cancel_left, List.getD_replicate]
      omega
    rw [start, ih (by omega), hbyte]
    rfl

/-- The last one starts at 0xFFFE and ends the segment, so the sweep starts over at zero. -/
theorem sweep_not_ends : ¬ Ends (List.replicate 65279 0xEB) := by
  have hlength : (List.replicate 65279 (0xEB : UInt8)).length = 65279 := List.length_replicate
  refine not_ends_of_crossing (k := 32639) (by omega) (by omega) ?_ ?_
  · rw [start_jumps (by decide), hlength]
    exact Nat.lt_add_one _
  · exact Nat.le_of_eq (start_jumps (Nat.le_refl _)).symm

end Bemi.I8088
