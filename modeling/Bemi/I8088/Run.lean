import Bemi.I8088.Refine
import Bemi.I8088.Sweep
import Bemi.Lib.I8086Run

/-!
# Runs of the simulator

Model of `run_simulation` of `dbt/bin/sim8088.rs`: it steps until a limit of cycles, a halt or the end
of the DOS program, and counts the cycles. `runSimulation_lockstep_iff` carries the condition of a
step to whole programs: the simulator is in lockstep with the 8086 as long as every instruction that
it reaches meets its condition, and no longer. Timing and the printed report are left out.
-/

namespace Bemi.I8088
open I8086 (Op State)

/-- `run_simulation`: the executor at the end, with the cycles executed. A step that never returns
makes it `none`. -/
def runSimulation : ℕ → X8088Executor → Option (X8088Executor × ℕ)
  | 0, exec => some (exec, 0)
  | maxCycles + 1, exec =>
    match exec.step with
    | none => none
    | some (exec, more) =>
      if !more || exec.cpu.halted || exec.bios.dosBreak then some (exec, 1)
      else (runSimulation maxCycles exec).map fun (exec, cycles) => (exec, cycles + 1)

/-- The executor of `cmd_run`: the disk image goes to the boot sector's address, which is the entry
point. -/
def booted (diskData : List UInt8) : X8088Executor :=
  let exec := X8088Executor.new
  let exec := exec.loadImage diskData 0x7C00
  exec.setEntry 0x0000 0x7C00 0x0000 0xFFFE

/-- `cmd_run` on a disk image. -/
def cmdRun (diskData : List UInt8) (maxCycles : ℕ) : Option (X8088Executor × ℕ) :=
  runSimulation maxCycles (booted diskData)

namespace X8088Executor

/-- Neither halted nor left by the DOS program. -/
structure Running (x : X8088Executor) : Prop where
  halted : x.cpu.halted = false
  dosBreak : x.bios.dosBreak = false

/-! ## One cycle -/

/-- What the dispatch says about going on. -/
lemma dispatch_more {x x' : X8088Executor} {inst : DecodedInst8088} {ip : UInt16} {more : Bool}
    (h : x.dispatch inst ip = some (x', more)) :
    more = !x'.bios.dosBreak ∨ x'.cpu.halted = true := by
  simp only [dispatch] at h
  split at h
  · split_ifs at h
    · cases h
      exact .inr rfl
    · cases h
      exact .inl rfl
    · cases h
      exact .inl rfl
    · split at h
      · cases h
      · cases h
        exact .inl rfl
    · cases h
      exact .inl rfl
  · split_ifs at h <;> cases h <;> exact .inl rfl
  · cases h
    exact .inl rfl
  · cases h
    exact .inl rfl
  · split_ifs at h <;> cases h <;> exact .inl rfl
  all_goals
    cases h
    exact .inl rfl

/-- The simulation stops at a halt or at the end of the DOS program. -/
lemma step_more {x x' : X8088Executor} {more : Bool} (h : x.step = some (x', more)) :
    (!more || x'.cpu.halted || x'.bios.dosBreak) = (x'.cpu.halted || x'.bios.dosBreak) := by
  have hmore : more = !x'.bios.dosBreak ∨ x'.cpu.halted = true := by
    rw [step] at h
    split_ifs at h with hhalted
    · cases h
      exact .inr hhalted
    · obtain ⟨inst, hdecode, -⟩ := Option.map_eq_some_iff.mp 
        (decode8088_length x.mem x.cpu.cs x.cpu.ip)
      simp only [hdecode] at h
      exact dispatch_more h
  cases hmore with
  | inl hbreak => rw [hbreak]; cases x'.cpu.halted <;> cases x'.bios.dosBreak <;> rfl
  | inr hhalted => rw [hhalted, Bool.or_true, Bool.true_or]

lemma stepOp_bios (x : X8088Executor) (op : Op) : (x.stepOp op).bios = x.bios := by
  cases op with
  | pop r | movByte r | movWord r => fin_cases r <;> rfl
  | _ => rfl

/-- Only a HLT halts. -/
lemma stepOp_halted (x : X8088Executor) {op : Op} (hop : op ≠ .hlt) :
    (x.stepOp op).cpu.halted = x.cpu.halted := by
  cases op with
  | hlt => exact absurd rfl hop
  | pop r | movByte r | movWord r => fin_cases r <;> rfl
  | _ => rfl

lemma Running.stepOp {x : X8088Executor} (h : x.Running) {op : Op} (hop : op ≠ .hlt) :
    (x.stepOp op).Running :=
  ⟨(stepOp_halted x hop).trans h.halted, (congrArg _ (stepOp_bios x op)).trans h.dosBreak⟩

/-- The instruction that the simulator is about to decode. -/
def fetch (x : X8088Executor) : Option Op :=
  Op.ofByte (x.mem.read8 (linear x.cpu.cs x.cpu.ip))

lemma fetch_view (x : X8088Executor) : x.view.fetch = x.fetch :=
  congrArg Op.ofByte (byteAt_view x _ _)

lemma step_fetch {x : X8088Executor} {op : Op} (hrun : x.Running) (hop : x.fetch = some op) :
    ∃ more, x.step = some (x.stepOp op, more) :=
  step_op hrun.halted (Op.ofByte_eq_some_iff.mp hop)

lemma run_hlt {x : X8088Executor} (hrun : x.Running) (hop : x.fetch = some .hlt) (n : ℕ) :
    runSimulation (n + 1) x = some (x.stepOp .hlt, 1) := by
  obtain ⟨more, hstep⟩ := step_fetch hrun hop
  simp only [runSimulation, hstep, step_more hstep]
  exact if_pos rfl

lemma run_succ {x : X8088Executor} {op : Op} (hrun : x.Running) (hop : x.fetch = some op)
    (hne : op ≠ .hlt) (n : ℕ) :
    runSimulation (n + 1) x =
      (runSimulation n (x.stepOp op)).map fun (x, cycles) => (x, cycles + 1) := by
  obtain ⟨more, hstep⟩ := step_fetch hrun hop
  have hgo : ¬ (!more || (x.stepOp op).cpu.halted || (x.stepOp op).bios.dosBreak) = true := by
    have hrun' := hrun.stepOp hne
    rw [step_more hstep, hrun'.halted, hrun'.dosBreak]
    decide
  simp only [runSimulation, hstep]
  exact if_neg hgo

/-! ## Lockstep -/

/-- The simulator is in the state of the 8086, after as many instructions, wherever the limit of
cycles stops it. -/
def Lockstep (x : X8088Executor) (maxCycles : ℕ) : Prop :=
  ∀ n ≤ maxCycles, ∃ y cycles, runSimulation n x = some (y, cycles) ∧
    x.view.run n = some (y.view, cycles)

/-- Every instruction that the simulator reaches within a number of cycles is one of the manual's
and meets its condition. -/
def MeetsAll (x : X8088Executor) (maxCycles : ℕ) : Prop :=
  ∀ n < maxCycles, ∀ y, runSimulation n x = some (y, n) → y.cpu.halted = false →
    ∃ op, y.fetch = some op ∧ y.Meets op

variable {x : X8088Executor} {op : Op} {n : ℕ}

lemma lockstep_zero : x.Lockstep 0 := by
  intro n hn
  rw [Nat.le_zero.mp hn]
  exact ⟨x, 0, rfl, rfl⟩

lemma not_lockstep_of_fetch (h : x.fetch = none) : ¬ x.Lockstep (n + 1) := by
  intro hlock
  obtain ⟨y, cycles, -, href⟩ := hlock 1 (Nat.succ_le_succ (Nat.zero_le n))
  rw [State.run_fetch_none (x.fetch_view.trans h)] at href
  cases href

lemma lockstep_hlt (hrun : x.Running) (hop : x.fetch = some .hlt) : x.Lockstep (n + 1) := by
  intro k _
  cases k with
  | zero => exact ⟨x, 0, rfl, rfl⟩
  | succ k =>
    refine ⟨_, _, run_hlt hrun hop k, ?_⟩
    rw [State.run_hlt (x.fetch_view.trans hop)]
    rfl

lemma lockstep_succ (hrun : x.Running) (hop : x.fetch = some op) (hne : op ≠ .hlt) :
    x.Lockstep (n + 1) ↔ x.Meets op ∧ (x.stepOp op).Lockstep n := by
  have href := State.run_succ (x.fetch_view.trans hop) hne
  have hsim := run_succ hrun hop hne
  rw [← stepOp_eq_iff]
  constructor
  · intro h
    have hview : (x.stepOp op).view = x.view.exec op := by
      obtain ⟨y, cycles, hy, hs⟩ := h 1 (Nat.succ_le_succ (Nat.zero_le n))
      have hy := (hsim 0).symm.trans hy
      have hs := Option.some.inj ((href 0).symm.trans hs)
      cases hy
      exact (congrArg Prod.fst hs).symm
    refine ⟨hview, fun k hk => ?_⟩
    obtain ⟨y, cycles, hy, hs⟩ := h (k + 1) (Nat.succ_le_succ hk)
    rw [hsim, Option.map_eq_some_iff] at hy
    rw [href, ← hview, Option.map_eq_some_iff] at hs
    obtain ⟨⟨y, k'⟩, hy, heq⟩ := hy
    cases heq
    obtain ⟨⟨s, k''⟩, hs, heq⟩ := hs
    cases heq
    exact ⟨y, k', hy, hs⟩
  · rintro ⟨hview, h⟩ k hk
    cases k with
    | zero => exact ⟨x, 0, rfl, rfl⟩
    | succ k =>
      obtain ⟨y, cycles, hy, hs⟩ := h k (Nat.le_of_succ_le_succ hk)
      refine ⟨y, cycles + 1, ?_, ?_⟩
      · rw [hsim, hy]
        rfl
      · rw [href, ← hview, hs]
        rfl

lemma meetsAll_succ (hrun : x.Running) (hop : x.fetch = some op) (hne : op ≠ .hlt) :
    x.MeetsAll (n + 1) ↔ x.Meets op ∧ (x.stepOp op).MeetsAll n := by
  have hsim := run_succ hrun hop hne
  constructor
  · intro h
    constructor
    · obtain ⟨op', hop', hmeets⟩ := h 0 (Nat.succ_pos n) x rfl hrun.halted
      rw [hop] at hop'
      cases hop'
      exact hmeets
    · intro k hk y hy hhalted
      refine h (k + 1) (Nat.succ_lt_succ hk) y ?_ hhalted
      rw [hsim, hy]
      rfl
  · rintro ⟨hmeets, h⟩ k hk y hy hhalted
    cases k with
    | zero =>
      cases hy
      exact ⟨op, hop, hmeets⟩
    | succ k =>
      rw [hsim, Option.map_eq_some_iff] at hy
      obtain ⟨⟨y', k'⟩, hy, heq⟩ := hy
      cases heq
      exact h k (Nat.lt_of_succ_lt_succ hk) y hy hhalted

lemma meetsAll_hlt (hrun : x.Running) (hop : x.fetch = some .hlt) : x.MeetsAll (n + 1) := by
  intro k _ y hy hhalted
  cases k with
  | zero =>
    cases hy
    exact ⟨.hlt, hop, trivial⟩
  | succ k =>
    rw [run_hlt hrun hop] at hy
    cases hy
    cases hhalted

/-- The simulator runs a program as the 8086 does, wherever it is stopped within `maxCycles`, if and
only if every instruction it reaches meets its condition. -/
theorem runSimulation_lockstep_iff (hrun : x.Running) (maxCycles : ℕ) :
    x.Lockstep maxCycles ↔ x.MeetsAll maxCycles := by
  induction maxCycles generalizing x with
  | zero => exact iff_of_true lockstep_zero fun n hn => absurd hn (Nat.not_lt_zero n)
  | succ n ih =>
    cases hop : x.fetch with
    | none =>
      refine iff_of_false (not_lockstep_of_fetch hop) fun h => ?_
      obtain ⟨op, hop', -⟩ := h 0 (Nat.succ_pos n) x rfl hrun.halted
      rw [hop] at hop'
      cases hop'
    | some op =>
      by_cases hne : op = .hlt
      · subst hne
        exact iff_of_true (lockstep_hlt hrun hop) (meetsAll_hlt hrun hop)
      · rw [lockstep_succ hrun hop hne, meetsAll_succ hrun hop hne, ih (hrun.stepOp hne)]

/-- MOV AX,1234h and HLT in a boot sector. -/
theorem runSimulation_lockstep_movHlt :
    ∃ y, cmdRun [0xB8, 0x34, 0x12, 0xF4] 50 = some (y, 2) ∧
      (booted [0xB8, 0x34, 0x12, 0xF4]).view.run 50 = some (y.view, 2) := by
  have hrun : (booted [0xB8, 0x34, 0x12, 0xF4]).Running := ⟨rfl, rfl⟩
  have hmov : (booted [0xB8, 0x34, 0x12, 0xF4]).fetch = some (.movWord 0) := by decide
  have hrun' := hrun.stepOp (show Op.movWord 0 ≠ .hlt by decide)
  have hhlt : ((booted [0xB8, 0x34, 0x12, 0xF4]).stepOp (.movWord 0)).fetch = some .hlt := by decide
  have hmeets : (booted [0xB8, 0x34, 0x12, 0xF4]).MeetsAll 50 := by
    rw [meetsAll_succ hrun hmov (by decide)]
    exact ⟨by unfold Meets SameByte; decide, meetsAll_hlt hrun' hhlt⟩
  obtain ⟨y, cycles, hy, hs⟩ := (runSimulation_lockstep_iff hrun 50).mpr hmeets 50 le_rfl
  have hcycles := hy
  rw [run_succ hrun hmov (by decide), run_hlt hrun' hhlt] at hcycles
  cases hcycles
  exact ⟨_, hy, hs⟩

end X8088Executor

end Bemi.I8088
