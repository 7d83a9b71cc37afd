import Bemi.Dbt.Translator
import Bemi.Dbt.Executor
import Bemi.Lib.Ram

/-!
# Saving registers on the stack

`PushR` of a list of registers and `PopR` of the same list in reverse. The pairs nest, so the
argument is one push, what lies between, and the pop that belongs to the push: what lies between
restores the registers and writes below the pushed slot only, so the pop finds the value pushed.
-/

namespace Bemi.Dbt
open Ram

variable {M : Type*}

/-- The callbacks act as a RAM with the given bytes. -/
structure RamLike (io : Callbacks M) (bytes : M → Bytes) : Prop where
  read : ∃ mr, io.memoryRead = some mr ∧ ∀ m addr val,
    (mr m addr true val).2 = load64 (bytes m) addr ∧ bytes (mr m addr true val).1 = bytes m
  write : ∃ mw, io.memoryWrite = some mw ∧ ∀ m addr val,
    bytes (mw m addr true val) = store64 (bytes m) addr val

def pushUop (r : Register) : MicroOpInst :=
  .new .pushR .rNone r .rNone 0

def popUop (r : Register) : MicroOpInst :=
  .new .popR r .rNone .rNone 0

/-- Push the registers in order and pop them in reverse. -/
def saveRestore (rs : List Register) : List MicroOpInst :=
  rs.map pushUop ++ rs.reverse.map popUop

/-- The first push belongs to the last pop. -/
lemma saveRestore_cons (r : Register) (rs : List Register) :
    saveRestore (r :: rs) = pushUop r :: (saveRestore rs ++ [popUop r]) := by
  rw [saveRestore, saveRestore, List.reverse_cons, List.map_append, List.map_cons,
    List.cons_append, List.append_assoc]
  rfl

lemma length_saveRestore (rs : List Register) : (saveRestore rs).length = 2 * rs.length := by
  rw [saveRestore, List.length_append, List.length_map, List.length_map, List.length_reverse]
  omega

lemma saveRestore_fallsThrough (rs : List Register) :
    ∀ uop ∈ saveRestore rs, uop.code.fallsThrough = true := by
  rw [saveRestore, List.forall_mem_append, List.forall_mem_map, List.forall_mem_map]
  exact ⟨fun _ _ => rfl, fun _ _ => rfl⟩

/-! ## One push and its pop -/

section
variable {io : Callbacks M} {bytes : M → Bytes} (ram : RamLike io bytes)
include ram

lemma executeInst_push (r : Register) (e : Executor M) :
    ∃ e', executeInst io e (pushUop r) none = (e', .ok none) ∧
      e'.regs = e.regs.write .rsp (e.read .rsp - 8) ∧
      bytes e'.mem = store64 (bytes e.mem) (e.read .rsp - 8) (e.read r) := by
  obtain ⟨mw, hmw, hstore⟩ := ram.write
  have hexec : executeInst io e (pushUop r) none =
      ((e.write .rsp (e.read .rsp - 8)).store io (e.read .rsp - 8) true (e.read r), .ok none) := rfl
  refine ⟨_, hexec, ?_, ?_⟩
  · rw [Executor.store, hmw]
    rfl
  · rw [Executor.store, hmw]
    exact hstore _ _ _

lemma executeInst_pop (r : Register) (e : Executor M) :
    ∃ e', executeInst io e (popUop r) none = (e', .ok none) ∧
      e'.regs = (e.regs.write .rsp (e.read .rsp + 8)).write r (load64 (bytes e.mem) (e.read .rsp)) ∧
      bytes e'.mem = bytes e.mem := by
  obtain ⟨mr, hmr, hload⟩ := ram.read
  have hexec : executeInst io e (popUop r) none =
      (((e.load io (e.read .rsp) true).1.write .rsp (e.read .rsp + 8)).write r
        (e.load io (e.read .rsp) true).2, .ok none) := rfl
  obtain ⟨hval, hmem⟩ := hload e.mem (e.read .rsp) 0
  refine ⟨_, hexec, ?_, ?_⟩
  · rw [Executor.load, hmr, ← hval]
    rfl
  · rw [Executor.load, hmr]
    exact hmem

/-- A pop after a push of the same register undoes it, if in between RSP is restored and the slot
is left alone. -/
lemma pop_after_push (r : Register) {e e₁ e₂ : Executor M}
    (hpush : e₁.regs = e.regs.write .rsp (e.read .rsp - 8)) (hregs : e₂.regs = e₁.regs)
    (hslot : load64 (bytes e₂.mem) (e.read .rsp - 8) = e.read r) :
    ∃ e', executeInst io e₂ (popUop r) none = (e', .ok none) ∧ e'.regs = e.regs ∧
      bytes e'.mem = bytes e₂.mem := by
  obtain ⟨e', hexec, hpop, hmem⟩ := executeInst_pop ram r e₂
  refine ⟨e', hexec, ?_, hmem⟩
  have hrsp : e₂.read .rsp = e.read .rsp - 8 := by
    rw [Executor.read, hregs, hpush]
    exact RegisterFile.read_write_self _ _ (by decide)
  have hback : e₂.regs.write .rsp (e.read .rsp - 8 + 8) = e.regs := by
    rw [hregs, hpush, RegisterFile.write_write, UInt64.sub_add_cancel]
    exact RegisterFile.write_read e.regs .rsp
  rw [hpop, hrsp, hback, hslot]
  exact RegisterFile.write_read e.regs r

end

/-! ## Nested pairs -/

/-- Pushes and the pops that belong to them restore the registers and write below RSP only. -/
lemma runUops_saveRestore {io : Callbacks M} {bytes : M → Bytes} (ram : RamLike io bytes)
    (rs : List Register) (h : 8 * rs.length ≤ 2 ^ 64) (e : Executor M) :
    ∃ e', runUops io (saveRestore rs) e = (e', .ok none) ∧ e'.regs = e.regs ∧
      ∀ x, ¬ Below (e.read .rsp) (8 * rs.length) x → bytes e'.mem x = bytes e.mem x := by
  induction rs generalizing e with
  | nil => exact ⟨e, rfl, rfl, fun _ _ => rfl⟩
  | cons r rs ih =>
    rw [List.length_cons, Nat.mul_succ] at h ⊢
    obtain ⟨e₁, hexec₁, hpush, hstore⟩ := executeInst_push ram r e
    obtain ⟨e₂, hexec₂, hregs, hbelow⟩ := ih (by omega) e₁
    have hrsp : e₁.read .rsp = e.read .rsp - 8 := by
      rw [Executor.read, hpush]
      exact RegisterFile.read_write_self _ _ (by decide)
    rw [hrsp] at hbelow
    -- the inner pairs stay below the slot, so it still holds the value pushed
    have hslot : load64 (bytes e₂.mem) (e.read .rsp - 8) = e.read r := by
      rw [load64, number_congr fun x hx => hbelow x (not_below_of_within h hx), hstore]
      exact load64_store64 _ _ _
    obtain ⟨e₃, hexec₃, hback, hmem⟩ := pop_after_push ram r hpush hregs hslot
    refine ⟨e₃, ?_, hback, ?_⟩
    · have hfirst : ∀ uop ∈ [pushUop r], uop.code.fallsThrough = true :=
        List.forall_mem_singleton.mpr rfl
      rw [saveRestore_cons, ← List.singleton_append, runUops_append io hfirst, runUops_singleton,
        hexec₁, runUops_append io (saveRestore_fallsThrough rs), hexec₂, runUops_singleton, hexec₃]
    · intro x hx
      obtain ⟨hslot', hbelow'⟩ := not_below_add h hx
      rw [hmem, hbelow x hbelow', hstore]
      exact store64_of_not_within _ _ hslot'

/-- There is a block of pushes and pops for every list of at most 128 registers, and every such
block leaves all registers as they were and memory as it was, the 8 bytes for each register below
RSP apart. -/
theorem executeBlock_saveRestore {io : Callbacks M} {bytes : M → Bytes} (ram : RamLike io bytes)
    (rs : List Register) (h : rs.length ≤ 128) :
    (∃ tb : TranslationBlock, tb.active = saveRestore rs) ∧
      ∀ (tb : TranslationBlock) (e : Executor M), tb.active = saveRestore rs →
        ∃ e', executeBlock io e tb = (e', .ok none) ∧ e'.regs = e.regs ∧
          ∀ x, ¬ Below (e.read .rsp) (8 * rs.length) x → bytes e'.mem x = bytes e.mem x := by
  constructor
  · refine ⟨pushAll (.new 0) (saveRestore rs), ?_⟩
    have hlen : (saveRestore rs).length ≤ maxMicroOpsPerBlock := by
      rw [length_saveRestore, maxMicroOpsPerBlock]
      omega
    rw [(pushAll_spec _ _).1, TranslationBlock.active_new, List.nil_append,
      List.take_of_length_le hlen]
  · intro tb e htb
    rw [executeBlock_eq, htb]
    exact runUops_saveRestore ram rs (by omega) e

/-- A RAM of bytes. -/
def byteCallbacks : Callbacks Bytes where
  memoryRead := some fun m addr wide _ =>
    (m, if wide then load64 m addr else (m addr).toUInt64)
  memoryWrite := some fun m addr wide val =>
    if wide then store64 m addr val else fun x => if x = addr then val.toUInt8 else m x

lemma ramLike_byteCallbacks : RamLike byteCallbacks id where
  read := ⟨_, rfl, fun _ _ _ => ⟨rfl, rfl⟩⟩
  write := ⟨_, rfl, fun _ _ _ => rfl⟩

/-- Registers saved from RSP = 8 on, where the second slot wraps around. -/
theorem executeBlock_saveRestore_wraps :
    let e : Executor Bytes := ⟨(RegisterFile.new.write .rax 5).write .rsp 8, fun _ => 0⟩
    ∃ tb e', tb.active = saveRestore [.rax, .rsp, .rNone, .rax] ∧
      executeBlock byteCallbacks e tb = (e', .ok none) ∧ e'.regs = e.regs ∧
        ∀ x, ¬ Below 8 32 x → e'.mem x = 0 := by
  intro e
  obtain ⟨⟨tb, htb⟩, hrun⟩ := executeBlock_saveRestore ramLike_byteCallbacks
    [.rax, .rsp, .rNone, .rax] (by decide)
  obtain ⟨e', hexec, hregs, hmem⟩ := hrun tb e htb
  exact ⟨tb, e', htb, hexec, hregs, hmem⟩

end Bemi.Dbt
