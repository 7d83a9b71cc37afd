import Bemi.I8088.Step
import Bemi.I8088.Words
import Bemi.Lib.Scan

/-!
# Termination of a step

The one loop of a step is the string output of `INT 21h` with AH = 09h, which goes on until it reads
a `$`. Its address is masked to 20 bits, so it comes round to every byte of the memory: it ends
exactly when there is a `$` anywhere.
-/

namespace Bemi.I8088

/-- `$`. -/
def isDollar (mem : Memory8088) (addr : UInt32) : Bool :=
  mem.read8 addr == 0x24

/-- The loop of the string output, with fuel; the answer is the address of the `$`. -/
def printString (mem : Memory8088) (fuel : ℕ) (addr : UInt32) : Option UInt32 :=
  Scan.scan (isDollar mem) (· + 1) fuel addr

/-- The address after `k` rounds. -/
lemma iterate_succ (addr : UInt32) (k : ℕ) : (· + 1)^[k] addr = addr + UInt32.ofNat k := by
  induction k with
  | zero => exact (UInt32.add_zero addr).symm
  | succ k ih =>
    rw [Function.iterate_succ_apply', ih, UInt32.add_assoc, UInt32.ofNat_add]
    rfl

/-- The rounds from an address on come to every byte within one megabyte. -/
lemma exists_round (addr : UInt32) (a : Fin 0x100000) :
    ∃ k < 0x100000, Memory8088.index (addr + UInt32.ofNat k) = a := by
  have haddr := addr.toNat_lt
  refine ⟨(a.val + 0x100000 - addr.toNat % 0x100000) % 0x100000, Nat.mod_lt _ (by decide), ?_⟩
  apply Fin.ext
  have ha := a.isLt
  rw [index_toNat, UInt32.toNat_add, UInt32.toNat_ofNat']
  omega

lemma stringEnds_iff (mem : Memory8088) (addr : UInt32) :
    stringEnds mem addr 0x100000 = true ↔ ∃ a, mem.ram a = 0x24 := by
  rw [stringEnds, List.any_eq_true]
  constructor
  · intro h
    obtain ⟨k, -, hk⟩ := h
    exact ⟨_, eq_of_beq hk⟩
  · intro h
    obtain ⟨a, ha⟩ := h
    obtain ⟨k, hlt, hk⟩ := exists_round addr a
    refine ⟨k, List.mem_range.mpr hlt, beq_iff_eq.mpr ?_⟩
    rw [Memory8088.read8, hk, ha]

/-- The loop ends exactly when there is a `$` in the memory. -/
lemma printString_ends_iff (mem : Memory8088) (addr : UInt32) :
    (∃ fuel, (printString mem fuel addr).isSome = true) ↔ ∃ a, mem.ram a = 0x24 := by
  simp only [printString, Scan.scan_ends_iff, iterate_succ]
  constructor
  · intro h
    obtain ⟨k, hk⟩ := h
    exact ⟨_, eq_of_beq hk⟩
  · intro h
    obtain ⟨a, ha⟩ := h
    obtain ⟨k, -, hk⟩ := exists_round addr a
    refine ⟨k, beq_iff_eq.mpr ?_⟩
    rw [Memory8088.read8, hk, ha]

/-! ## The step -/

/-- The string output of DOS. -/
def IsStringOutput (cpu : Cpu8088) (intNum : UInt8) : Prop :=
  intNum = 0x21 ∧ (cpu.ax >>> 8).toUInt8 = 0x09

instance (cpu : Cpu8088) (intNum : UInt8) : Decidable (IsStringOutput cpu intNum) :=
  inferInstanceAs (Decidable (_ ∧ _))

/-- What the handler does with a string output. -/
lemma handleInt_stringOutput {bios : BiosShim} {cpu : Cpu8088} {mem : Memory8088} {intNum : UInt8}
    (h : IsStringOutput cpu intNum) :
    bios.handleInt cpu mem intNum =
      if stringEnds mem (linear cpu.ds cpu.dx) 0x100000 then some (bios, cpu, true) else none := by
  obtain ⟨rfl, hah⟩ := h
  simp [BiosShim.handleInt, hah]

/-- The handler returns from every other interrupt. -/
lemma handleInt_isSome {bios : BiosShim} {cpu : Cpu8088} {mem : Memory8088} {intNum : UInt8}
    (h : ¬ IsStringOutput cpu intNum) : (bios.handleInt cpu mem intNum).isSome = true := by
  rw [IsStringOutput, not_and] at h
  rw [BiosShim.handleInt]
  by_cases h21 : intNum = 0x21
  · simp only [if_neg (h h21)]
    split_ifs <;> rfl
  · simp only [if_neg h21]
    split_ifs <;> rfl

/-- The interrupt handler returns unless its string has no end. -/
lemma handleInt_isSome_iff (bios : BiosShim) (cpu : Cpu8088) (mem : Memory8088) (intNum : UInt8) :
    (bios.handleInt cpu mem intNum).isSome = true ↔
      (IsStringOutput cpu intNum → ∃ a, mem.ram a = 0x24) := by
  by_cases hout : IsStringOutput cpu intNum
  · rw [handleInt_stringOutput hout, ← stringEnds_iff mem (linear cpu.ds cpu.dx)]
    cases stringEnds mem (linear cpu.ds cpu.dx) 0x100000 with
    | true => exact iff_of_true rfl fun _ => rfl
    | false => exact iff_of_false Bool.false_ne_true fun h => Bool.false_ne_true (h hout)
  · exact iff_of_true (handleInt_isSome hout) fun h => absurd h hout

namespace X8088Executor

/-- The simulator is about to execute `INT 21h` with AH = 09h. -/
def PrintsString (x : X8088Executor) : Prop :=
  x.cpu.halted = false ∧ x.mem.read8 (linear x.cpu.cs x.cpu.ip) = 0xCD ∧
    IsStringOutput x.cpu x.operand8

/-- A step returns if and only if it is not a string output or the loop of the string output ends,
and that is if and only if there is a `$` somewhere in the memory. -/
theorem step_returns_iff (x : X8088Executor) :
    (x.step.isSome = true ↔ (x.PrintsString →
        ∃ fuel, (printString x.mem fuel (linear x.cpu.ds x.cpu.dx)).isSome = true)) ∧
      (x.step.isSome = true ↔ (x.PrintsString → ∃ a, x.mem.ram a = 0x24)) := by
  rw [printString_ends_iff, and_self_iff]
  by_cases hrun : x.cpu.halted = false
  · obtain ⟨op, cont, hop, hstep⟩ | ⟨hint, hstep⟩ | ⟨hint, ip, cont, hstep⟩ := step_cases hrun
    · rw [hstep]
      apply iff_of_true rfl
      intro h
      exact absurd (hop.symm.trans h.2.1) (byte_ne_int op)
    · rw [hstep, Option.isSome_map, handleInt_isSome_iff]
      exact imp_congr_left (and_iff_right hrun |>.trans (and_iff_right hint)).symm
    · rw [hstep]
      apply iff_of_true rfl
      intro h
      exact absurd h.2.1 hint
  · rw [step_halted hrun]
    exact iff_of_true rfl fun h => absurd h.1 hrun

/-- `INT 21h` with AH = 09h at F000:FFF0 and no `$` anywhere: the step does not return. -/
theorem step_returns_not : ¬ ∀ x : X8088Executor, x.step.isSome = true := by
  intro h
  let ram : Fin 0x100000 → UInt8 := fun a =>
    if a.val = 0xFFFF0 then 0xCD else if a.val = 0xFFFF1 then 0x21 else 0
  let x : X8088Executor := ⟨{ Cpu8088.new with ax := 0x0900 }, ⟨ram⟩, ⟨false⟩⟩
  have hcode : x.mem.read8 (linear x.cpu.cs x.cpu.ip) = 0xCD := by decide
  have hstep := h x
  rw [step_int rfl hcode, Option.isSome_map, handleInt_isSome_iff] at hstep
  obtain ⟨a, ha⟩ := hstep (by decide)
  change ram a = 0x24 at ha
  simp only [ram] at ha
  split_ifs at ha <;> exact absurd ha (by decide)

end X8088Executor

end Bemi.I8088
