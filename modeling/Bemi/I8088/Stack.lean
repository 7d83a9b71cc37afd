import Bemi.I8088.Step
import Bemi.I8088.Words
import Bemi.Lib.Brackets
import Bemi.Lib.Run

/-!
# Stack discipline of the simulator

Runs of NOP, near JMP, PUSH, POP (not to SP), near CALL and RET. `Stacked` is the invariant: the
words of the pushes and calls that are still pending stand in the stack segment from SP on.
`stack_discipline` reads off it that a pop gets the word of its matching push and that a balanced
run restores SP, up to 32768 words deep, which is all that fits the 64 KB that offsets can name.
-/

namespace Bemi.I8088
open I8086 (Op)
open Transition Brackets

/-- The instructions of the runs. -/
def IsStackOp : Op → Prop
  | .nop | .jmpShort | .jmpNear | .call | .ret | .push _ => True
  | .pop r => r ≠ I8086.sp
  | _ => False

/-- One step of a running simulator on one of these instructions; the answer is the state after. -/
def StackStep (x : X8088Executor) (op : Op) (after x' : X8088Executor) : Prop :=
  IsStackOp op ∧ x.cpu.halted = false ∧ x.mem.read8 (linear x.cpu.cs x.cpu.ip) = op.byte ∧
    (∃ cont, x.step = some (x', cont)) ∧ after = x'

abbrev StackEvent := Event X8088Executor Op X8088Executor

/-- PUSH and CALL open, POP and RET close. -/
def kind (ev : StackEvent) : Kind :=
  match ev.op with
  | .push _ | .call => .opens
  | .pop _ | .ret => .closes
  | _ => .neutral

/-- The word a PUSH or CALL writes: the register, or the offset behind the call. -/
def written (ev : StackEvent) : UInt16 :=
  match ev.op with
  | .push r => ev.before.gp r
  | _ => ev.before.cpu.ip + 3

/-- The word that has arrived after a POP or RET: in the register, or as the next IP. -/
def received (ev : StackEvent) : UInt16 :=
  match ev.op with
  | .pop r => ev.answer.gp r
  | _ => ev.answer.cpu.ip

/-- The words of pending events stand one behind the other from an offset on. -/
def Stacked (mem : Memory8088) (ss : UInt16) : UInt16 → List StackEvent → Prop
  | _, [] => True
  | sp, ev :: st => mem.read16 (linear ss sp) = written ev ∧ Stacked mem ss (sp + 2) st

/-- A word written `k` words below the pending ones leaves them, if all together fit 64 KB. -/
lemma Stacked.write16 {mem : Memory8088} {ss sp : UInt16} {st : List StackEvent}
    (h : Stacked mem ss sp st) (v : UInt16) {k : Nat} (hk : 0 < k) (hfit : k + st.length ≤ 32768) :
    Stacked (mem.write16 (linear ss (sp - .ofNat (2 * k))) v) ss sp st := by
  induction st generalizing sp k with
  | nil => exact trivial
  | cons ev st ih =>
    obtain ⟨hword, hrest⟩ := h
    rw [List.length_cons] at hfit
    have htwo : (2 : UInt16).toNat = 2 := rfl
    have hdist : (sp - (sp - .ofNat (2 * k))).toNat = 2 * k := by
      have := sp.toNat_lt
      rw [UInt16.toNat_sub, UInt16.toNat_sub, UInt16.toNat_ofNat']
      omega
    have hnext : sp - .ofNat (2 * k) = sp + 2 - .ofNat (2 * (k + 1)) := by
      have := sp.toNat_lt
      rw [← UInt16.toNat_inj, UInt16.toNat_sub, UInt16.toNat_sub, UInt16.toNat_add,
        UInt16.toNat_ofNat', UInt16.toNat_ofNat', htwo]
      omega
    have hne : sp ≠ sp - .ofNat (2 * k) := by
      intro h
      rw [← h, UInt16.sub_self] at hdist
      have : (0 : UInt16).toNat = 0 := rfl
      omega
    constructor
    · rw [read16_write16_apart _ _ _ (by omega) hne]
      exact hword
    · rw [hnext]
      exact ih hrest (Nat.succ_pos k) (by omega)

/-! ### One step -/

/-- What a step on one of these instructions does to the registers and memory that the stack
discipline is about, one case for each kind. -/
lemma stackStep_spec {x x' after : X8088Executor} {op : Op} (st : StackStep x op after x') :
    after = x' ∧ x'.cpu.ss = x.cpu.ss ∧ x'.cpu.cs = x.cpu.cs ∧
      match kind ⟨x, op, after⟩ with
      | .opens =>
        x'.cpu.sp = x.cpu.sp - 2 ∧
          x'.mem = x.mem.write16 (linear x.cpu.ss (x.cpu.sp - 2)) (written ⟨x, op, after⟩)
      | .closes =>
        x'.cpu.sp = x.cpu.sp + 2 ∧ x'.mem = x.mem ∧
          received ⟨x, op, after⟩ = x.mem.read16 (linear x.cpu.ss x.cpu.sp)
      | .neutral => x'.cpu.sp = x.cpu.sp ∧ x'.mem = x.mem := by
  obtain ⟨hop, hrun, hbyte, ⟨cont, hstep⟩, rfl⟩ := st
  obtain ⟨cont', hspec⟩ := X8088Executor.step_op hrun hbyte
  rw [hspec] at hstep
  cases hstep
  refine ⟨rfl, ?_⟩
  cases op with
  | nop => exact ⟨rfl, rfl, rfl, rfl⟩
  | jmpShort => exact ⟨rfl, rfl, rfl, rfl⟩
  | jmpNear => exact ⟨rfl, rfl, rfl, rfl⟩
  | call => exact ⟨rfl, rfl, rfl, rfl⟩
  | ret => exact ⟨rfl, rfl, rfl, rfl, rfl⟩
  | push r => exact ⟨rfl, rfl, rfl, rfl⟩
  | pop r =>
    have hr : r ≠ I8086.sp := hop
    fin_cases r <;> first | exact ⟨rfl, rfl, rfl, rfl, rfl⟩ | exact absurd rfl hr
  | _ => exact hop.elim

/-! ### Runs -/

/-- The stack of a simulator that started as `x₀` and has some events pending. -/
structure Disciplined (x₀ : X8088Executor) (st : List StackEvent) (x : X8088Executor) : Prop where
  sp_eq : x.cpu.sp + .ofNat (2 * st.length) = x₀.cpu.sp
  cs_eq : ∀ m ∈ st, m.before.cpu.cs = x.cpu.cs
  stacked : Stacked x.mem x.cpu.ss x.cpu.sp st

lemma Disciplined.step {x₀ x x' after : X8088Executor} {op : Op} {st st' : List StackEvent}
    (h : Disciplined x₀ st x) (hstep : StackStep x op after x')
    (hnote : note kind st ⟨x, op, after⟩ = some st') (hfit : st'.length ≤ 32768) :
    Disciplined x₀ st' x' := by
  obtain ⟨-, hss, hcs, hspec⟩ := stackStep_spec hstep
  obtain ⟨hkind, rfl⟩ | ⟨hkind, m, rfl⟩ | ⟨hkind, rfl⟩ := note_eq_some hnote
  · rw [hkind] at hspec
    obtain ⟨hsp, hmem⟩ := hspec
    rw [List.length_cons] at hfit
    have hback : x'.cpu.sp + 2 = x.cpu.sp := by rw [hsp, UInt16.sub_add_cancel]
    refine ⟨?_, ?_, ?_, ?_⟩
    · rw [← h.sp_eq, ← hback, List.length_cons, Nat.mul_succ, Nat.add_comm, UInt16.ofNat_add,
        UInt16.add_assoc]
      rfl
    · intro m hm
      rw [hcs]
      cases hm with
      | head => rfl
      | tail _ hm => exact h.cs_eq m hm
    · rw [hmem, hss, hsp]
      exact read16_write16 _ _ _ _
    · have htwo : (2 : UInt16) = .ofNat (2 * 1) := rfl
      have hwrite := h.stacked.write16 (written ⟨x, op, after⟩) Nat.one_pos (by omega)
      rw [← htwo] at hwrite
      rwa [hback, hmem, hss]
  · rw [hkind] at hspec
    obtain ⟨hsp, hmem, -⟩ := hspec
    refine ⟨?_, fun m hm => ?_, ?_⟩
    · rw [← h.sp_eq, hsp, List.length_cons, Nat.mul_succ, Nat.add_comm, UInt16.ofNat_add,
        UInt16.add_assoc]
      rfl
    · rw [hcs]
      exact h.cs_eq m (List.mem_cons_of_mem _ hm)
    · rw [hmem, hss, hsp]
      exact h.stacked.2
  · rw [hkind] at hspec
    obtain ⟨hsp, hmem⟩ := hspec
    refine ⟨?_, fun m hm => ?_, ?_⟩
    · rw [hsp]
      exact h.sp_eq
    · rw [hcs]
      exact h.cs_eq m hm
    · rw [hmem, hss, hsp]
      exact h.stacked

lemma disciplined_of_run {x₀ x : X8088Executor} {tr : List StackEvent}
    (run : Run StackStep x₀ tr x) :
    Within kind 32768 tr → ∀ st, pending kind tr = some st → Disciplined x₀ st x := by
  refine run.history (I := fun tr x =>
    Within kind 32768 tr → ∀ st, pending kind tr = some st → Disciplined x₀ st x) ?_ ?_
  · intro _ st hst
    cases hst
    exact ⟨UInt16.add_zero _, fun _ hm => absurd hm List.not_mem_nil, trivial⟩
  · intro tr x op after x' ih hstep hdepth st' hst'
    have hfit := hdepth _ st' (List.prefix_refl _) hst'
    rw [pending_concat, Option.bind_eq_some_iff] at hst'
    obtain ⟨st, hst, hnote⟩ := hst'
    exact (ih hdepth.of_append st hst).step hstep hnote hfit

/-- In a balanced run that is at most 32768 words deep SP ends where it started, and every POP or
RET gets the word of its matching PUSH or CALL: a RET that matches a CALL goes on behind it. -/
theorem stack_discipline {x₀ x : X8088Executor} {tr : List StackEvent}
    (run : Run StackStep x₀ tr x) (hbal : Balanced kind tr) (hdepth : Within kind 32768 tr) :
    x.cpu.sp = x₀.cpu.sp ∧
      ∀ pre ev post, tr = pre ++ ev :: post → kind ev = .closes →
        ∃ m st, pending kind pre = some (m :: st) ∧ received ev = written m ∧
          (ev.op = .ret → m.op = .call →
            ev.answer.cpu.cs = m.before.cpu.cs ∧ ev.answer.cpu.ip = m.before.cpu.ip + 3) := by
  constructor
  · have hend := (disciplined_of_run run hdepth [] hbal).sp_eq
    exact (UInt16.add_zero _).symm.trans hend
  · rintro pre ⟨y, op, after⟩ post rfl hkind
    obtain ⟨hpre, y', hstep⟩ := run.split rfl
    have hbal : pending kind ((pre ++ [⟨y, op, after⟩]) ++ post) = some [] := by
      rw [List.append_assoc]
      exact hbal
    obtain ⟨st', hst'⟩ := pending_of_append hbal
    rw [pending_concat, Option.bind_eq_some_iff] at hst'
    obtain ⟨st, hst, hnote⟩ := hst'
    obtain ⟨rfl, hss, hcs, hspec⟩ := stackStep_spec hstep
    rw [hkind] at hspec
    obtain ⟨hsp, hmem, hreceived⟩ := hspec
    obtain ⟨hk, -⟩ | ⟨-, m, rfl⟩ | ⟨hk, -⟩ := note_eq_some hnote
    · rw [hkind] at hk
      cases hk
    · have hdisc := disciplined_of_run hpre hdepth.of_append _ hst
      have hword : received ⟨y, op, after⟩ = written m := hreceived.trans hdisc.stacked.1
      have hframe := hdisc.cs_eq m List.mem_cons_self
      refine ⟨m, st', hst, hword, ?_⟩
      rintro hret hcall
      rw [received, hret, written, hcall] at hword
      exact ⟨hcs.trans hframe.symm, hword⟩
    · rw [hkind] at hk
      cases hk

/-- PUSH AX, POP BX after reset. -/
theorem stack_discipline_pushPop :
    ∃ x₁ x₂ : X8088Executor,
      (∃ cont, (X8088Executor.resetWith [0x50, 0x5B]).step = some (x₁, cont)) ∧
      (∃ cont, x₁.step = some (x₂, cont)) ∧
      x₂.cpu.sp = (X8088Executor.resetWith [0x50, 0x5B]).cpu.sp := by
  let pushed := (X8088Executor.resetWith [0x50, 0x5B]).stepOp (.push 0)
  have hpush : ∃ cont, (X8088Executor.resetWith [0x50, 0x5B]).step = some (pushed, cont) :=
    X8088Executor.step_op rfl (by decide)
  have hpop : ∃ cont, pushed.step = some (pushed.stepOp (.pop 3), cont) :=
    X8088Executor.step_op rfl (by decide)
  have st₁ : StackStep _ (.push 0) _ _ := ⟨trivial, rfl, by decide, hpush, rfl⟩
  have st₂ : StackStep _ (.pop 3) _ _ := ⟨by unfold IsStackOp; decide, rfl, by decide, hpop, rfl⟩
  have run := (Run.nil.snoc st₁).snoc st₂
  refine ⟨_, _, hpush, hpop, (stack_discipline run ?_ ?_).1⟩
  · rfl
  · apply within_of_length
    simp

end Bemi.I8088
