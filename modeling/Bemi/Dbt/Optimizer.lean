import Bemi.Dbt.Executor

/-!
# Block optimizer

Model of `dbt/optimizer.rs` and its effect on execution. The first pass deletes `Nop`s and
self-moves, the second deletes a move whose predecessor is the same move the other way round. Read
on the active micro-ops the passes are a filter and the peephole rewrite `squash`
(`active_optimizeBlock`).

The second pass is not sound for every register: after `MovRR RNone, s` the move `MovRR s, RNone`
still zeroes `s`, and the pass deletes it. `optimizeBlock_sound_iff` gives the exact condition.
-/

namespace Bemi.Dbt
open Machine

/-- What the first pass deletes. -/
def redundant (uop : MicroOpInst) : Bool :=
  uop.code = .nop || (uop.code = .movRR && uop.dst = uop.src1)

/-- What the second pass deletes `uop2` for. -/
def backToBack (uop1 uop2 : MicroOpInst) : Bool :=
  uop1.code = .movRR && uop2.code = .movRR && uop1.dst = uop2.src1 && uop1.src1 = uop2.dst

/-- The first loop of `optimize_block`, from index `i`. -/
def eliminateRedundant (tb : TranslationBlock) (i : Nat) : TranslationBlock :=
  if h : i < tb.microOpCount then
    if redundant (tb.uop i h) then eliminateRedundant (tb.remove i) i
    else eliminateRedundant tb (i + 1)
  else tb
termination_by tb.microOpCount - i
decreasing_by
  · rw [tb.microOpCount_remove i h]
    omega
  · omega

/-- The second loop of `optimize_block`, from index `i`. -/
def eliminateBackToBack (tb : TranslationBlock) (i : Nat) : TranslationBlock :=
  if h : i < tb.microOpCount - 1 then
    let uop1 := tb.uop i (by omega)
    let uop2 := tb.uop (i + 1) (by omega)
    if backToBack uop1 uop2 then eliminateBackToBack (tb.remove (i + 1)) i
    else eliminateBackToBack tb (i + 1)
  else tb
termination_by tb.microOpCount - i
decreasing_by
  · rw [tb.microOpCount_remove (i + 1) (by omega)]
    omega
  · omega

def optimizeBlock (tb : TranslationBlock) : TranslationBlock :=
  let tb := eliminateRedundant tb 0
  if tb.microOpCount > 1 then eliminateBackToBack tb 0 else tb

/-! ## The passes on the active micro-ops -/

/-- An active micro-op, read off a split of the active ones. -/
lemma active_head {tb : TranslationBlock} {pre rest : List MicroOpInst}
    (hact : tb.active = pre ++ rest) (h : pre.length < tb.microOpCount) :
    ∃ a post, rest = a :: post ∧ tb.uop pre.length h = a := by
  cases rest with
  | nil => simp [← tb.length_active, hact] at h
  | cons a post => exact ⟨a, post, rfl, TranslationBlock.uop_of_active hact h⟩

/-- The first pass from index `i` filters the active micro-ops from `i` on. -/
lemma active_eliminateRedundant (tb : TranslationBlock) (i : Nat) {pre rest : List MicroOpInst}
    (hact : tb.active = pre ++ rest) (hi : pre.length = i) :
    (eliminateRedundant tb i).active = pre ++ rest.filter fun uop => !redundant uop := by
  induction tb, i using eliminateRedundant.induct generalizing pre rest with
  | case1 tb i h hred ih =>
    subst hi
    obtain ⟨a, post, rfl, ha⟩ := active_head hact h
    rw [ha] at hred
    rw [eliminateRedundant, dif_pos h, ha, if_pos hred,
      ih (TranslationBlock.active_remove_split hact) rfl, List.filter_cons_of_neg (by simp [hred])]
  | case2 tb i h hred ih =>
    subst hi
    obtain ⟨a, post, rfl, ha⟩ := active_head hact h
    have hact' : tb.active = (pre ++ [a]) ++ post := by simp [hact]
    rw [ha] at hred
    rw [eliminateRedundant, dif_pos h, ha, if_neg hred, ih hact' (by simp),
      List.filter_cons_of_pos (by simp [hred])]
    simp
  | case3 tb i h =>
    have hrest : rest = [] := by
      rw [← tb.length_active, hact] at h
      simpa [hi] using h
    rw [eliminateRedundant, dif_neg h, hact, hrest]
    rfl

/-- Two consecutive active micro-ops, read off a split of the active ones. -/
lemma active_pair {tb : TranslationBlock} {pre rest : List MicroOpInst}
    (hact : tb.active = pre ++ rest) (h : pre.length + 1 < tb.microOpCount) :
    ∃ a b post, rest = a :: b :: post ∧ tb.uop pre.length (by omega) = a ∧
      tb.uop (pre.length + 1) h = b := by
  obtain ⟨a, post, rfl, ha⟩ := active_head hact (by omega)
  have hact' : tb.active = (pre ++ [a]) ++ post := by simp [hact]
  obtain ⟨b, post, rfl, hb⟩ := active_head hact' (by simpa using h)
  simp only [List.length_append, List.length_singleton] at hb
  exact ⟨a, b, post, rfl, ha, hb⟩

/-- The second pass from index `i` squashes the active micro-ops from `i` on. -/
lemma active_eliminateBackToBack (tb : TranslationBlock) (i : Nat) {pre rest : List MicroOpInst}
    (hact : tb.active = pre ++ rest) (hi : pre.length = i) :
    (eliminateBackToBack tb i).active = pre ++ squash backToBack rest := by
  induction tb, i using eliminateBackToBack.induct generalizing pre rest with
  | case1 tb i h uop1 uop2 =>
    rename_i hpair ih
    subst hi
    obtain ⟨a, b, post, rfl, ha, hb⟩ := active_pair hact (by omega)
    simp only [uop1, uop2, ha, hb] at hpair
    have hact' : tb.active = (pre ++ [a]) ++ b :: post := by simp [hact]
    have hrem := TranslationBlock.active_remove_split hact'
    simp only [List.length_append, List.length_singleton, List.append_assoc,
      List.singleton_append] at hrem
    rw [eliminateBackToBack, dif_pos h]
    simp only [ha, hb]
    rw [if_pos hpair, ih hrem rfl, squash_cons_cons, if_pos hpair]
  | case2 tb i h uop1 uop2 =>
    rename_i hpair ih
    subst hi
    obtain ⟨a, b, post, rfl, ha, hb⟩ := active_pair hact (by omega)
    simp only [uop1, uop2, ha, hb] at hpair
    have hact' : tb.active = (pre ++ [a]) ++ b :: post := by simp [hact]
    rw [eliminateBackToBack, dif_pos h]
    simp only [ha, hb]
    rw [if_neg hpair, ih hact' (by simp), squash_cons_cons, if_neg hpair]
    simp
  | case3 tb i h =>
    have hcount : tb.microOpCount = pre.length + rest.length := by
      rw [← tb.length_active, hact, List.length_append]
    rw [eliminateBackToBack, dif_neg h, hact]
    match rest with
    | [] => simp
    | [_] => simp
    | _ :: _ :: _ => simp at hcount; omega

/-- The active micro-ops that the first pass leaves. -/
def essential (uops : List MicroOpInst) : List MicroOpInst :=
  uops.filter fun uop => !redundant uop

/-- `optimize_block` on the active micro-ops: filter, then squash. -/
theorem active_optimizeBlock (tb : TranslationBlock) :
    (optimizeBlock tb).active = squash backToBack (essential tb.active) := by
  have h₁ : (eliminateRedundant tb 0).active = essential tb.active :=
    active_eliminateRedundant tb 0 (show tb.active = [] ++ tb.active from rfl) rfl
  rw [optimizeBlock]
  split
  · exact active_eliminateBackToBack _ 0 (h₁.trans (List.nil_append _).symm) rfl
  · have hlen : (essential tb.active).length ≤ 1 := by
      rw [← h₁, TranslationBlock.length_active]
      omega
    rw [h₁]
    match hl : essential tb.active with
    | [] => simp
    | [_] => simp
    | _ :: _ :: _ => simp [hl] at hlen

/-! ## Effect on execution -/

variable {M : Type*} (io : Callbacks M)

lemma microStep_movRR {uop : MicroOpInst} (h : uop.code = .movRR)
    (s : Executor M × Option BemiWord) :
    microStep io uop s = .next (s.1.write uop.dst (s.1.read uop.src1), s.2) := by
  simp [microStep, executeInst, h, MicroOpCode.endsBlock]

/-- A redundant micro-op does nothing. -/
lemma microStep_redundant {uop : MicroOpInst} (h : redundant uop = true)
    (s : Executor M × Option BemiWord) : microStep io uop s = .next s := by
  simp only [redundant, Bool.or_eq_true, Bool.and_eq_true, decide_eq_true_eq] at h
  rcases h with hnop | ⟨hmov, hself⟩
  · simp [microStep, executeInst, hnop, MicroOpCode.endsBlock]
  · rw [microStep_movRR io hmov, hself, Executor.write, Executor.read, RegisterFile.write_read]

lemma backToBack_iff {a b : MicroOpInst} :
    backToBack a b = true ↔
      a.code = .movRR ∧ b.code = .movRR ∧ a.dst = b.src1 ∧ a.src1 = b.dst := by
  simp [backToBack, and_assoc]

lemma backToBack_same (a b b' : MicroOpInst) (h : backToBack a b = true)
    (h' : backToBack a b' = true) : microStep io b = microStep io b' := by
  obtain ⟨-, hb, hsrc, hdst⟩ := backToBack_iff.mp h
  obtain ⟨-, hb', hsrc', hdst'⟩ := backToBack_iff.mp h'
  funext s
  rw [microStep_movRR io hb, microStep_movRR io hb', ← hsrc, ← hdst, ← hsrc', ← hdst']

/-- A move deleted in two steps repeats the first of them. -/
lemma backToBack_back (u a b : MicroOpInst) (s s₁ : Executor M × Option BemiWord)
    (hua : backToBack u a = true) (hab : backToBack a b = true)
    (hu : microStep io u s = .next s₁) : microStep io b s₁ = .next s₁ := by
  obtain ⟨hcu, -, hdst, hsrc⟩ := backToBack_iff.mp hua
  obtain ⟨-, hcb, hdst', hsrc'⟩ := backToBack_iff.mp hab
  rw [microStep_movRR io hcu] at hu
  obtain rfl := Flow.next.inj hu
  rw [microStep_movRR io hcb, ← hsrc', ← hdst, ← hdst', ← hsrc]
  simp only [Executor.write, Executor.read]
  by_cases hd : u.dst = .rNone
  · simp [hd]
  · by_cases he : u.dst = u.src1
    · rw [he, RegisterFile.write_read, RegisterFile.write_read]
    · rw [RegisterFile.read_write_ne _ _ he, RegisterFile.write_write]

/-- `MovRR RNone, s` followed by `MovRR s, RNone`. -/
def ZeroingPair (a b : MicroOpInst) : Prop :=
  a.code = .movRR ∧ b.code = .movRR ∧ a.dst = .rNone ∧ b.src1 = .rNone ∧ b.dst = a.src1

/-- Wherever the run reaches a zeroing pair, `Nop`s and self-moves aside, the register that the
second move zeroes already holds 0. -/
def ZeroingIdle (tb : TranslationBlock) (e : Executor M) : Prop :=
  ∀ pre a b post, essential tb.active = pre ++ a :: b :: post → ZeroingPair a b →
    ∀ e' nextIp, flow (microStep io) pre (e, none) = .next (e', nextIp) → e'.read a.src1 = 0

/-- The second move of a back-to-back pair does nothing unless it zeroes a register. -/
lemma backToBack_idle_iff {a b : MicroOpInst} (h : backToBack a b = true)
    (s : Executor M × Option BemiWord) :
    (∀ s₁, microStep io a s = .next s₁ → microStep io b s₁ = .next s₁) ↔
      (a.dst = .rNone → s.1.read a.src1 = 0) := by
  obtain ⟨ha, hb, hdst, hsrc⟩ := backToBack_iff.mp h
  rw [microStep_movRR io ha]
  simp only [Flow.next.injEq, forall_eq', microStep_movRR io hb, ← hdst, ← hsrc]
  by_cases hd : a.dst = .rNone
  · simp only [hd, forall_const, Executor.write, Executor.read, RegisterFile.write_rNone,
      RegisterFile.read_rNone]
    constructor
    · intro hw
      have hregs : s.1.regs.write a.src1 0 = s.1.regs :=
        congrArg (fun p : Executor M × Option BemiWord => p.1.regs) hw
      by_cases hs : a.src1 = .rNone
      · rw [hs, RegisterFile.read_rNone]
      · rw [← hregs, RegisterFile.read_write_self _ _ hs]
    · intro hz
      rw [← hz, RegisterFile.write_read]
  · simp only [hd, false_implies, iff_true, Executor.write, Executor.read]
    by_cases he : a.dst = a.src1
    · rw [he, RegisterFile.write_read, RegisterFile.write_read]
    · have hback := RegisterFile.write_read (s.1.regs.write a.dst (s.1.regs.read a.src1)) a.src1
      rw [RegisterFile.read_write_ne _ _ he] at hback
      rw [RegisterFile.read_write_self _ _ hd, hback]

/-- The peephole rewrite is harmless exactly when the zeroing pairs are idle. -/
lemma zeroingIdle_iff_harmless (tb : TranslationBlock) (e : Executor M) :
    ZeroingIdle io tb e ↔
      Harmless backToBack (microStep io) (essential tb.active) (e, none) := by
  constructor
  · intro h pre a b post hl hab s₀ s₁ hpre ha
    refine (backToBack_idle_iff io hab s₀).mpr (fun hd => ?_) s₁ ha
    obtain ⟨hca, hcb, hdst, hsrc⟩ := backToBack_iff.mp hab
    exact h pre a b post hl ⟨hca, hcb, hd, by rw [← hdst, hd], hsrc.symm⟩ s₀.1 s₀.2 hpre
  · intro h pre a b post hl hab e' nextIp hpre
    obtain ⟨hca, hcb, hd, hsrc, hdst⟩ := hab
    have hback : backToBack a b = true :=
      backToBack_iff.mpr ⟨hca, hcb, by rw [hd, hsrc], hdst.symm⟩
    exact (backToBack_idle_iff io hback (e', nextIp)).mp
      (fun s₁ => h pre a b post hl hback (e', nextIp) s₁ hpre) hd

/-- One call of a memory callback, with the value it delivered or stored. -/
inductive MemAccess where
  | read (addr : UInt64) (wide : Bool) (val : UInt64)
  | write (addr : UInt64) (wide : Bool) (val : UInt64)
  deriving DecidableEq

/-- The callbacks with a log of their calls, oldest first. -/
def Callbacks.recorded : Callbacks (M × List MemAccess) where
  memoryRead := io.memoryRead.map fun mr m addr wide val =>
    (((mr m.1 addr wide val).1, m.2 ++ [.read addr wide (mr m.1 addr wide val).2]),
      (mr m.1 addr wide val).2)
  memoryWrite := io.memoryWrite.map fun mw m addr wide val =>
    (mw m.1 addr wide val, m.2 ++ [.write addr wide val])

/-- Executing `tb` before and after `optimize_block` gives the same result, registers, memory and
memory accesses. -/
def SameRun (tb : TranslationBlock) (regs : RegisterFile) (m : M) : Prop :=
  executeBlock io.recorded ⟨regs, (m, [])⟩ (optimizeBlock tb) =
    executeBlock io.recorded ⟨regs, (m, [])⟩ tb

/-- The first `n` active micro-ops of a block, as a block. -/
def TranslationBlock.truncate (tb : TranslationBlock) (n : Nat) : TranslationBlock :=
  { tb with
    microOpCount := min n tb.microOpCount
    count_le := Nat.le_trans (Nat.min_le_right _ _) tb.count_le }

lemma active_truncate (tb : TranslationBlock) (n : Nat) :
    (tb.truncate n).active = tb.active.take n := by
  simp [TranslationBlock.truncate, TranslationBlock.active, List.take_take]

/-- The prefixes of a filtered list are the filtered prefixes. -/
lemma prefix_essential_iff (l p : List MicroOpInst) :
    p <+: essential l ↔ ∃ n, p = essential (l.take n) := by
  constructor
  · intro hp
    induction l generalizing p with
    | nil => exact ⟨0, by simpa [essential] using hp⟩
    | cons x l ih =>
      cases hx : redundant x with
      | true =>
        obtain ⟨n, hn⟩ := ih p (by simpa [essential, hx] using hp)
        exact ⟨n + 1, by simpa [essential, hx] using hn⟩
      | false =>
        cases p with
        | nil => exact ⟨0, by simp [essential]⟩
        | cons y p =>
          have hp : y :: p <+: x :: essential l := by simpa [essential, hx] using hp
          obtain ⟨rfl, hp'⟩ := List.cons_prefix_cons.mp hp
          obtain ⟨n, hn⟩ := ih p hp'
          exact ⟨n + 1, by simpa [essential, hx] using hn⟩
  · rintro ⟨n, rfl⟩
    exact (List.take_prefix n l).filter _

/-- A block runs like its essential micro-ops. -/
lemma executeBlock_essential (e : Executor M) (tb : TranslationBlock) :
    executeBlock io e tb =
      (flow (microStep io) (essential tb.active) (e, none)).finish microDone := by
  rw [executeBlock_eq, essential, flow_filter]
  intro uop h s
  exact microStep_redundant io (by simpa using h) s

/-- The optimizer is sound on a block, and on every truncation of it, exactly when the zeroing
pairs that the run reaches are idle. -/
theorem optimizeBlock_sound_iff (tb : TranslationBlock) (regs : RegisterFile) (m : M) :
    (ZeroingIdle io.recorded tb ⟨regs, (m, [])⟩ → SameRun io tb regs m) ∧
      ((∀ n, SameRun io (tb.truncate n) regs m) ↔
        ZeroingIdle io.recorded tb ⟨regs, (m, [])⟩) := by
  have hrun (tb : TranslationBlock) : SameRun io tb regs m ↔
      (flow (microStep io.recorded) (squash backToBack (essential tb.active))
          (⟨regs, (m, [])⟩, none)).finish microDone =
        (flow (microStep io.recorded) (essential tb.active)
          (⟨regs, (m, [])⟩, none)).finish microDone := by
    rw [SameRun, executeBlock_eq _ _ (optimizeBlock tb), executeBlock_essential,
      active_optimizeBlock]
  have hexact : (∀ n, SameRun io (tb.truncate n) regs m) ↔
      ZeroingIdle io.recorded tb ⟨regs, (m, [])⟩ := by
    rw [zeroingIdle_iff_harmless, ← squash_finish_iff microDone_injective
      (backToBack_same io.recorded) _ (backToBack_back io.recorded)]
    · simp only [hrun, active_truncate, prefix_essential_iff, forall_exists_index,
        forall_eq_apply_imp_iff]
    · intro a b s h
      exact ⟨_, microStep_movRR io.recorded (backToBack_iff.mp h).2.1 s⟩
  refine ⟨fun h => ?_, hexact⟩
  have hall := hexact.mpr h tb.microOpCount
  rw [hrun, active_truncate, List.take_of_length_le (by simp)] at hall
  exact (hrun tb).mpr hall

/-- The move that zeroes RAX is deleted: `MovRR RNone, RAX; MovRR RAX, RNone` with RAX = 1. -/
theorem optimizeBlock_unsound :
    ¬ ∀ (tb : TranslationBlock) (regs : RegisterFile) (io : Callbacks Unit),
      SameRun io tb regs () := by
  intro h
  let tb := ((TranslationBlock.new 0).push (.new .movRR .rNone .rax .rNone 0)).1
  let tb := (tb.push (.new .movRR .rax .rNone .rNone 0)).1
  have hact : tb.active =
      [.new .movRR .rNone .rax .rNone 0, .new .movRR .rax .rNone .rNone 0] := rfl
  have hopt : squash backToBack (essential tb.active) =
      [.new .movRR .rNone .rax .rNone 0] := by
    have hess : essential tb.active = tb.active := rfl
    rw [hess, hact, squash_cons_cons, if_pos (by decide), squash_singleton]
  have := h tb (RegisterFile.new.write .rax 1) ⟨none, none⟩
  rw [SameRun, executeBlock_eq, executeBlock_eq, active_optimizeBlock, hopt, hact] at this
  have := congrArg (fun p => p.1.regs.read .rax) this
  revert this
  decide

end Bemi.Dbt
