import Bemi.Dbt.Branch
import Bemi.Lib.Ram
import Bemi.Lib.Run

/-!
# CALL and RET linkage

Guest code that calls and returns through translated instructions, as a transition system: `CALL`
pushes a frame, `RET` with RSP back at the slot of the innermost frame pops it, and whatever other
code runs in between (`work`) may do anything but overwrite the slots of the frames still open. The
frames are a ghost stack, so that runs of any nesting depth are covered and the returns match the
calls in reverse order.

The executor stores RAX where the return address belongs; `linkage_iff` says when a run does not
notice.
-/

namespace Bemi.Dbt
open Machine Ram Transition

variable {M : Type*}

/-- The callbacks act as a RAM whose 64-bit words are `word`. -/
structure ActsAsRam (io : Callbacks M) (word : M → UInt64 → UInt64) : Prop where
  read : ∃ mr, io.memoryRead = some mr ∧ ∀ m addr val, mr m addr true val = (m, word m addr)
  write : ∃ mw, io.memoryWrite = some mw ∧
    (∀ m addr val, word (mw m addr true val) addr = val) ∧
    ∀ m addr addr' val, Apart addr addr' → word (mw m addr true val) addr' = word m addr'

/-! ## The two instructions -/

/-- A `CALL` with a near-branch operand. -/
def DirectCall (inst : Instruction) : Prop :=
  inst.mnemonic = .call ∧ isNearBranch inst.op0Kind = true

/-- A direct `CALL` stores RAX in the new top slot. -/
lemma runUops_call {io : Callbacks M} {word : M → UInt64 → UInt64} (ram : ActsAsRam io word)
    {inst : Instruction} (h : DirectCall inst) (e : Executor M) :
    ∃ e' nextIp, runUops io (uopsOf inst) e = (e', .ok nextIp) ∧
      e'.read .rsp = e.read .rsp - 8 ∧
      word e'.mem (e.read .rsp - 8) = e.read .rax ∧
      ∀ addr, Apart (e.read .rsp - 8) addr → word e'.mem addr = word e.mem addr := by
  obtain ⟨hcall, hnear⟩ := h
  have hreg : inst.op0Kind ≠ .register := by
    intro hk
    rw [hk] at hnear
    cases hnear
  have huops : uopsOf inst = [.new .callRel .rNone .rNone .rNone inst.nearBranch64] := by
    simp [uopsOf, translateInstruction, hcall, hreg]
  obtain ⟨mw, hmw, hsame, hapart⟩ := ram.write
  refine ⟨((e.write .rsp (e.read .rsp - 8)).store io (e.read .rsp - 8) true (e.read .rax)),
    some (e.read .rax + inst.nearBranch64), ?_, ?_, ?_, ?_⟩
  · rw [huops]
    rfl
  · simp only [Executor.store, hmw]
    exact RegisterFile.read_write_self _ _ (by decide)
  · simp only [Executor.store, hmw]
    exact hsame _ _ _
  · intro addr haddr
    simp only [Executor.store, hmw]
    exact hapart _ _ _ _ haddr

/-- A `RET` returns to the word at the top of the stack and pops it. -/
lemma runUops_ret {io : Callbacks M} {word : M → UInt64 → UInt64} (ram : ActsAsRam io word)
    {inst : Instruction} (h : inst.mnemonic = .ret) (e : Executor M) :
    runUops io (uopsOf inst) e =
      (e.write .rsp (e.read .rsp + 8), .ok (some (word e.mem (e.read .rsp)))) := by
  have huops : uopsOf inst = [.new .ret .rNone .rNone .rNone 0] := by
    simp [uopsOf, translateInstruction, h, plainUop]
  obtain ⟨mr, hmr, hread⟩ := ram.read
  have hload : e.load io (e.read .rsp) true = (e, word e.mem (e.read .rsp)) := by
    simp only [Executor.load, hmr, hread]
  rw [huops, runUops, flow_cons, microStep]
  simp only [executeInst, MicroOpInst.new, hload]
  rfl

/-! ## Runs -/

/-- A call that has not returned: the instruction and RSP before it. -/
structure Frame where
  call : Instruction
  rsp : UInt64

/-- Where the return address is stored. -/
def Frame.slot (f : Frame) : UInt64 :=
  f.rsp - 8

/-- The address of the instruction after the call. -/
def Frame.returnAddress (f : Frame) : UInt64 :=
  f.call.ip + UInt64.ofNat f.call.len

/-- The executor and the open calls, innermost first. -/
structure Linkage (M : Type*) where
  e : Executor M
  frames : List Frame

inductive LinkOp (M : Type*) where
  | work (e' : Executor M)
  | call (inst : Instruction)
  | ret (inst : Instruction)

/-- One step of guest code, with the result of the instruction it executes. -/
inductive LinkStep (io : Callbacks M) (word : M → UInt64 → UInt64) :
    Linkage M → LinkOp M → ExecResult → Linkage M → Prop where
  | work {e e' fs} :
    (∀ f ∈ fs, word e'.mem f.slot = word e.mem f.slot) →
    LinkStep io word ⟨e, fs⟩ (.work e') (.ok none) ⟨e', fs⟩
  | call {e fs inst e' r} :
    DirectCall inst →
    (∀ f ∈ fs, Apart (e.read .rsp - 8) f.slot) →
    runUops io (uopsOf inst) e = (e', r) →
    LinkStep io word ⟨e, fs⟩ (.call inst) r ⟨e', ⟨inst, e.read .rsp⟩ :: fs⟩
  | ret {e f fs inst e' r} :
    inst.mnemonic = .ret →
    e.read .rsp = f.slot →
    runUops io (uopsOf inst) e = (e', r) →
    LinkStep io word ⟨e, f :: fs⟩ (.ret inst) r ⟨e', fs⟩

/-- Every open call has its return address in its slot. -/
def Linked (word : M → UInt64 → UInt64) (s : Linkage M) : Prop :=
  ∀ f ∈ s.frames, word s.e.mem f.slot = f.returnAddress

/-- A return goes to the return address of the innermost open call and restores RSP. -/
def ReturnsToCaller (io : Callbacks M) (ev : Event (Linkage M) (LinkOp M) ExecResult) : Prop :=
  match ev.op, ev.before.frames with
  | .ret inst, f :: _ => ev.answer = .ok (some f.returnAddress) ∧
      (runUops io (uopsOf inst) ev.before.e).1.read .rsp = f.rsp
  | _, _ => True

/-- A call is executed with its return address in RAX. -/
def RaxHoldsReturn (ev : Event (Linkage M) (LinkOp M) ExecResult) : Prop :=
  match ev.op with
  | .call inst => ev.before.e.read .rax = inst.ip + UInt64.ofNat inst.len
  | _ => True

/-- A step keeps the return addresses in place, if RAX is right whenever it is a call. -/
lemma linked_step {io : Callbacks M} {word : M → UInt64 → UInt64} (ram : ActsAsRam io word)
    {s s' : Linkage M} {op : LinkOp M} {r : ExecResult} (hs : Linked word s)
    (st : LinkStep io word s op r s') (hrax : RaxHoldsReturn ⟨s, op, r⟩) : Linked word s' := by
  cases st with
  | work hkeep =>
    intro f hf
    rw [hkeep f hf]
    exact hs f hf
  | @call e fs inst e' r hcall hapart hrun =>
    obtain ⟨e₁, nextIp, hrun', -, htop, hrest⟩ := runUops_call ram hcall e
    obtain ⟨rfl, rfl⟩ := Prod.mk.inj (hrun.symm.trans hrun')
    intro f hf
    cases hf with
    | head => exact htop.trans hrax
    | tail _ hf => exact (hrest _ (hapart f hf)).trans (hs f hf)
  | @ret e f fs inst e' r hret hrsp hrun =>
    obtain ⟨rfl, rfl⟩ := Prod.mk.inj (hrun.symm.trans (runUops_ret ram hret e))
    intro g hg
    exact hs g (List.mem_cons_of_mem _ hg)

/-- With the return addresses in place, a return goes back to its caller. -/
lemma returnsToCaller_step {io : Callbacks M} {word : M → UInt64 → UInt64}
    (ram : ActsAsRam io word) {s s' : Linkage M} {op : LinkOp M} {r : ExecResult}
    (hs : Linked word s) (st : LinkStep io word s op r s') : ReturnsToCaller io ⟨s, op, r⟩ := by
  cases st with
  | work | call => trivial
  | @ret e f fs inst e' r hret hrsp hrun =>
    have hret' := runUops_ret ram hret e
    obtain ⟨-, rfl⟩ := Prod.mk.inj (hrun.symm.trans hret')
    refine ⟨?_, ?_⟩
    · rw [hrsp, hs f (by simp)]
    · dsimp only
      rw [hret', hrsp, Executor.read, Executor.write, RegisterFile.read_write_self _ _ (by decide),
        Frame.slot, UInt64.sub_add_cancel]

/-- A call whose return address is in place had it in RAX. -/
lemma raxHoldsReturn_step {io : Callbacks M} {word : M → UInt64 → UInt64}
    (ram : ActsAsRam io word) {s s' : Linkage M} {op : LinkOp M} {r : ExecResult}
    (st : LinkStep io word s op r s') (hs' : Linked word s') : RaxHoldsReturn ⟨s, op, r⟩ := by
  cases st with
  | work | ret => trivial
  | @call e fs inst e' r hcall hapart hrun =>
    obtain ⟨e₁, nextIp, hrun', -, htop, -⟩ := runUops_call ram hcall e
    obtain ⟨rfl, rfl⟩ := Prod.mk.inj (hrun.symm.trans hrun')
    exact htop.symm.trans (hs' ⟨inst, e.read .rsp⟩ (by simp))

/-- In a run of calls and returns nested to any depth, every open call keeps its return address in
its slot and every return goes back to its caller, exactly when every call is executed with its
return address in RAX. -/
theorem linkage_iff {io : Callbacks M} {word : M → UInt64 → UInt64} (ram : ActsAsRam io word)
    {e₀ : Executor M} {tr : List (Event (Linkage M) (LinkOp M) ExecResult)} {s : Linkage M}
    (run : Run (LinkStep io word) ⟨e₀, []⟩ tr s) :
    (Always (Linked word) tr s ∧ ∀ ev ∈ tr, ReturnsToCaller io ev) ↔
      ∀ ev ∈ tr, RaxHoldsReturn ev := by
  apply Run.always_iff (I := Linked word) (fun f hf => absurd hf (by simp)) _ _ _ _ run
  · exact fun s op r s' hs st hc => linked_step ram hs st hc
  · exact fun s hs => hs
  · exact fun s op r s' hs st _ => returnsToCaller_step ram hs st
  · exact fun s op r s' _ st _ hs' => raxHoldsReturn_step ram st hs'

/-- Callbacks on a RAM of bytes; narrow accesses are one byte wide. -/
def ramCallbacks : Callbacks Bytes where
  memoryRead := some fun m addr wide _ =>
    (m, if wide then load64 m addr else (m addr).toUInt64)
  memoryWrite := some fun m addr wide val =>
    if wide then store64 m addr val else fun b => if b = addr then val.toUInt8 else m b

lemma ramCallbacks_acts : ActsAsRam ramCallbacks load64 where
  read := ⟨_, rfl, fun _ _ _ => rfl⟩
  write := ⟨_, rfl, load64_store64, fun m _ _ val h => load64_store64_apart m val h⟩

/-- `CALL 0x2000` at 0x1000. -/
def callInstruction : Instruction :=
  { shortBranch .call 0x1000 0x2000 with len := 5 }

/-- An executor about to call, with an empty memory. -/
def beforeCall (rax : BemiWord) : Executor Bytes where
  regs := (RegisterFile.new.write .rsp 0x8000).write .rax rax
  mem := fun _ => 0

/-- The executor after `CALL`. -/
def afterCall (rax : BemiWord) : Executor Bytes :=
  (runUops ramCallbacks (uopsOf callInstruction) (beforeCall rax)).1

/-- The run of `CALL` at 0x1000 and `RET` at 0x2000. -/
lemma run_callRet (rax : BemiWord) :
    ∃ s r, Run (LinkStep ramCallbacks load64) ⟨beforeCall rax, []⟩
      [⟨⟨beforeCall rax, []⟩, .call callInstruction, r⟩,
        ⟨⟨afterCall rax, [⟨callInstruction, 0x8000⟩]⟩, .ret (byteInstruction 0xC3 0x2000),
          .ok (some rax)⟩] s := by
  have hdirect : DirectCall callInstruction := ⟨rfl, rfl⟩
  have hmnem : (byteInstruction 0xC3 0x2000).mnemonic = .ret := rfl
  obtain ⟨e', nextIp, hcall, hrsp, htop, -⟩ :=
    runUops_call ramCallbacks_acts hdirect (beforeCall rax)
  have hafter : afterCall rax = e' := congrArg Prod.fst hcall
  have hret := runUops_ret ramCallbacks_acts hmnem (afterCall rax)
  have hrax : load64 (afterCall rax).mem ((afterCall rax).read .rsp) = rax := by
    rw [hafter, hrsp, htop]
    exact RegisterFile.read_write_self _ _ (by decide)
  rw [hrax] at hret
  exact ⟨_, _, .snoc (.snoc .nil (.call hdirect (by simp) rfl)) (.ret hmnem rfl hret)⟩

theorem linkage_iff_callRet :
    ∃ tr s, Run (LinkStep ramCallbacks load64) ⟨beforeCall 0x1005, []⟩ tr s ∧ tr.length = 2 ∧
      Always (Linked load64) tr s ∧ ∀ ev ∈ tr, ReturnsToCaller ramCallbacks ev := by
  obtain ⟨s, r, run⟩ := run_callRet 0x1005
  refine ⟨_, s, run, rfl, (linkage_iff ramCallbacks_acts run).mpr ?_⟩
  simp only [List.forall_mem_cons, List.not_mem_nil, false_implies, implies_true, and_true]
  exact ⟨rfl, trivial⟩

/-- With RAX = 0 the return goes to 0 instead of 0x1005. -/
theorem linkage_not :
    ∃ tr s, Run (LinkStep ramCallbacks load64) ⟨beforeCall 0, []⟩ tr s ∧
      ∃ ev ∈ tr, ev.op = .ret (byteInstruction 0xC3 0x2000) ∧ ev.answer = .ok (some 0) ∧
        ¬ ReturnsToCaller ramCallbacks ev := by
  obtain ⟨s, r, run⟩ := run_callRet 0
  refine ⟨_, s, run, _, List.mem_cons_of_mem _ (List.mem_singleton_self _), rfl, rfl, ?_⟩
  rintro ⟨hans, -⟩
  revert hans
  decide

end Bemi.Dbt
