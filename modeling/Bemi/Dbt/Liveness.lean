import Bemi.Dbt.Executor

/-!
# Live registers of a block

Which registers a micro-op looks at (`reads`), the implied RAX, RDX, RSP and flags included, and
which it overwrites whatever they held (`kills`). `liveIn` goes backwards through a block and collects
the registers that it may look at before it overwrites them. Two executors that agree on these and on
memory cannot be told apart by the block: `executeBlock_liveIn`.
-/

namespace Bemi.Dbt
open Machine

/-! ## What a micro-op looks at and overwrites -/

namespace MicroOpInst

def reads (uop : MicroOpInst) : List Register :=
  match uop.code with
  | .movRR | .movRM | .addRI | .subRI | .cmpRI | .testRI | .notR | .negR
  | .rolRI | .rorRI | .rclRI | .rcrRI | .leaRR | .movsxRR | .movzxRR | .movsxd
  | .jmpAbs => [uop.src1]
  | .addRR | .subRR | .cmpRR | .testRR | .andRR | .orRR | .xorRR | .shlRR | .shrRR | .sarRR
  | .loadRR | .xchgRR | .xaddRR => [uop.src1, uop.src2]
  | .adcRR | .sbbRR | .imulRR => [uop.src1, uop.src2, .rFlags]
  | .imulRI | .incR | .decR | .btRI | .btrRI | .btsRI | .btcRI | .bsfRR | .bsrRR | .popcntRR
  | .cmovcc => [uop.src1, .rFlags]
  | .mulRR => [.rax, uop.src1, .rFlags]
  | .divRR | .idivRR => [uop.src1, .rax, .rdx]
  | .movMR => [uop.dst, uop.src1]
  | .movMI => [uop.dst]
  | .storeRR => [uop.dst, uop.src1, uop.src2]
  | .pushR => [uop.src1, .rsp]
  | .popR | .ret => [.rsp]
  | .jmpRel | .cdq | .cqo => [.rax]
  | .jccRel => [.rFlags, .rax]
  | .callRel => [.rax, .rsp]
  | .callAbs => [.rax, .rsp, uop.src1]
  | .setcc => [.rFlags]
  | .cmpxchgRR => [.rax, uop.src1, uop.src2, .rFlags]
  | _ => []

def kills (uop : MicroOpInst) : List Register :=
  match uop.code with
  | .movRR | .movRI | .movRM | .notR | .rolRI | .rorRI | .rclRI | .rcrRI | .leaRR | .loadRR
  | .movsxRR | .movzxRR | .movsxd | .setcc => [uop.dst]
  | .addRR | .addRI | .subRR | .subRI | .adcRR | .sbbRR | .imulRR | .imulRI
  | .andRR | .orRR | .xorRR | .negR | .incR | .decR | .shlRR | .shrRR | .sarRR
  | .btrRI | .btsRI | .btcRI | .popcntRR => [uop.dst, .rFlags]
  -- these write their destination on one branch only
  | .cmpRR | .cmpRI | .testRR | .testRI | .btRI | .bsfRR | .bsrRR | .cmpxchgRR => [.rFlags]
  | .mulRR => [.rax, .rdx, .rFlags]
  | .divRR | .idivRR => [.rax, .rdx]
  | .pushR | .callRel | .callAbs | .ret => [.rsp]
  | .popR => [.rsp, uop.dst]
  | .cdq | .cqo => [.rdx]
  | .xchgRR => [uop.src1, uop.src2]
  | .xaddRR => [uop.src1, uop.src2, .rFlags]
  | _ => []

end MicroOpInst

/-- The registers that micro-ops may look at before they overwrite them, `out` being looked at
behind the block. -/
def liveIn (out : List Register) : List MicroOpInst → List Register
  | [] => out
  | uop :: uops =>
    uop.reads ++
      (if uop.code.endsBlock then out else liveIn out uops).filter fun r => r ∉ uop.kills

/-! ## Agreement -/

variable {M : Type*}

/-- The executors have the same memory and the same values in the registers `rs`. -/
structure AgreeOn (rs : List Register) (e e' : Executor M) : Prop where
  read : ∀ r ∈ rs, e.read r = e'.read r
  mem : e.mem = e'.mem

section
variable {rs : List Register} {e e' : Executor M} (h : AgreeOn rs e e')
include h

lemma AgreeOn.mono {rs' : List Register} (hsub : rs' ⊆ rs) : AgreeOn rs' e e' :=
  ⟨fun r hr => h.read r (hsub hr), h.mem⟩

/-- Writing the same value makes them agree there too. -/
lemma AgreeOn.write (r : Register) (v : BemiWord) :
    AgreeOn (r :: rs) (e.write r v) (e'.write r v) where
  read r' hr' := by
    by_cases heq : r = r'
    · subst heq
      by_cases hnone : r = .rNone
      · rw [hnone]
        rfl
      · exact (RegisterFile.read_write_self _ _ hnone).trans
          (RegisterFile.read_write_self _ _ hnone).symm
    · have hmem : r' ∈ rs := (List.mem_cons.mp hr').resolve_left (Ne.symm heq)
      exact (RegisterFile.read_write_ne _ _ heq).trans
        ((h.read r' hmem).trans (RegisterFile.read_write_ne _ _ heq).symm)
  mem := h.mem

lemma AgreeOn.setFlags (w : BemiWord) : AgreeOn (.rFlags :: rs) (e.setFlags w) (e'.setFlags w) :=
  h.write .rFlags w

lemma AgreeOn.updateFlagsArith (result a b : BemiWord) (isSub : Bool) :
    AgreeOn (.rFlags :: rs) (e.updateFlagsArith result a b isSub)
      (e'.updateFlagsArith result a b isSub) :=
  h.setFlags _

lemma AgreeOn.store (io : Callbacks M) (addr : UInt64) (wide : Bool) (v : UInt64) :
    AgreeOn rs (e.store io addr wide v) (e'.store io addr wide v) := by
  unfold Executor.store
  cases io.memoryWrite with
  | none => exact h
  | some mw => exact ⟨h.read, congrArg (mw · addr wide v) h.mem⟩

/-- A load gets the same value. -/
lemma AgreeOn.load (io : Callbacks M) (addr : UInt64) (wide : Bool) :
    AgreeOn rs (e.load io addr wide).1 (e'.load io addr wide).1 ∧
      (e.load io addr wide).2 = (e'.load io addr wide).2 := by
  unfold Executor.load
  cases io.memoryRead with
  | none => exact ⟨h, rfl⟩
  | some mr => exact ⟨⟨h.read, congrArg (fun m => (mr m addr wide 0).1) h.mem⟩,
      congrArg (fun m => (mr m addr wide 0).2) h.mem⟩

end

/-! ## One micro-op -/

/-- The same result and memory and, if it is `Ok`, agreement on the registers `rs`. -/
structure SameOutcome (rs : List Register) (x y : Executor M × ExecResult) : Prop where
  result : x.2 = y.2
  mem : x.1.mem = y.1.mem
  agree : ∀ ip, x.2 = .ok ip → AgreeOn rs x.1 y.1

lemma SameOutcome.ok {rs rs' : List Register} {e e' : Executor M} (h : AgreeOn rs' e e')
    (hsub : rs ⊆ rs') (ip : Option BemiWord) : SameOutcome rs (e, .ok ip) (e', .ok ip) :=
  ⟨rfl, h.mem, fun _ _ => h.mono hsub⟩

lemma getFlags_eq {rs : List Register} {e e' : Executor M} (h : AgreeOn rs e e')
    (hmem : .rFlags ∈ rs) : e.getFlags = e'.getFlags :=
  h.read .rFlags hmem

/-- Executors that agree on what a micro-op looks at agree afterwards on what it overwrites, too. -/
lemma executeInst_agree (io : Callbacks M) (uop : MicroOpInst) {rs : List Register}
    {e e' : Executor M} (hreads : uop.reads ⊆ rs) (h : AgreeOn rs e e') (ip : Option BemiWord) :
    SameOutcome (uop.kills ++ rs) (executeInst io e uop ip) (executeInst io e' uop ip) := by
  obtain ⟨code, dst, src1, src2, imm, size⟩ := uop
  have hread : ∀ r ∈ MicroOpInst.reads ⟨code, dst, src1, src2, imm, size⟩, e.read r = e'.read r :=
    fun r hr => h.read r (hreads hr)
  cases code with
  | movRR | notR | rolRI | rorRI | rclRI | rcrRI | leaRR | movsxRR | movzxRR | movsxd =>
    simp only [MicroOpInst.reads, List.mem_singleton, forall_eq] at hread
    simp only [executeInst, hread]
    exact .ok (h.write _ _) (by simp [MicroOpInst.kills]) ip
  | movRI => exact .ok (h.write _ _) (by simp [MicroOpInst.kills]) ip
  | movRM =>
    simp only [MicroOpInst.reads, List.mem_singleton, forall_eq] at hread
    obtain ⟨hload, hval⟩ := h.load io (e'.read src1 + imm) (size = 8)
    simp only [executeInst, hread, hval]
    exact .ok (hload.write _ _) (by simp [MicroOpInst.kills]) ip
  | movMR =>
    simp only [MicroOpInst.reads, List.forall_mem_cons] at hread
    simp only [executeInst, hread]
    exact .ok (h.store io _ _ _) (by simp [MicroOpInst.kills]) ip
  | movMI =>
    simp only [MicroOpInst.reads, List.mem_singleton, forall_eq] at hread
    simp only [executeInst, hread]
    exact .ok (h.store io _ _ _) (by simp [MicroOpInst.kills]) ip
  | addRR | subRR | andRR | orRR | xorRR | shlRR | shrRR | sarRR =>
    simp only [MicroOpInst.reads, List.forall_mem_cons] at hread
    simp only [executeInst, hread]
    exact .ok ((h.write _ _).setFlags _) (by intro r; simp [MicroOpInst.kills]; tauto) ip
  | addRI | subRI | negR =>
    simp only [MicroOpInst.reads, List.mem_singleton, forall_eq] at hread
    simp only [executeInst, hread]
    exact .ok ((h.write _ _).setFlags _) (by intro r; simp [MicroOpInst.kills]; tauto) ip
  | adcRR | sbbRR =>
    have hflags := getFlags_eq h (hreads (by simp [MicroOpInst.reads]))
    simp only [MicroOpInst.reads, List.forall_mem_cons] at hread
    simp only [executeInst, hread, hflags]
    exact .ok ((h.write _ _).setFlags _) (by intro r; simp [MicroOpInst.kills]; tauto) ip
  | cmpRR | testRR =>
    simp only [MicroOpInst.reads, List.forall_mem_cons] at hread
    simp only [executeInst, hread]
    exact .ok (h.setFlags _) (by simp [MicroOpInst.kills]) ip
  | cmpRI | testRI =>
    simp only [MicroOpInst.reads, List.mem_singleton, forall_eq] at hread
    simp only [executeInst, hread]
    exact .ok (h.setFlags _) (by simp [MicroOpInst.kills]) ip
  | incR =>
    have hflags : .rFlags ∈ rs := hreads (by simp [MicroOpInst.reads])
    simp only [MicroOpInst.reads, List.forall_mem_cons] at hread
    have hw := h.write dst (e'.read src1 + 1)
    have ha := hw.updateFlagsArith (e'.read src1 + 1) (e'.read src1) 1 false
    simp only [executeInst, hread]
    rw [getFlags_eq hw (List.mem_cons_of_mem _ hflags), getFlags_eq ha List.mem_cons_self]
    exact .ok (ha.setFlags _) (by intro r; simp [MicroOpInst.kills]; tauto) ip
  | decR =>
    have hflags : .rFlags ∈ rs := hreads (by simp [MicroOpInst.reads])
    simp only [MicroOpInst.reads, List.forall_mem_cons] at hread
    have hw := h.write dst (e'.read src1 - 1)
    have ha := hw.updateFlagsArith (e'.read src1 - 1) (e'.read src1) 1 true
    simp only [executeInst, hread]
    rw [getFlags_eq hw (List.mem_cons_of_mem _ hflags), getFlags_eq ha List.mem_cons_self]
    exact .ok (ha.setFlags _) (by intro r; simp [MicroOpInst.kills]; tauto) ip
  | mulRR =>
    have hflags : .rFlags ∈ rs := hreads (by simp [MicroOpInst.reads])
    simp only [MicroOpInst.reads, List.forall_mem_cons] at hread
    simp only [executeInst, hread]
    have hw := (h.write .rax (UInt64.ofNat ((e'.read .rax).toNat * (e'.read src1).toNat))).write .rdx
      (UInt64.ofNat (((e'.read .rax).toNat * (e'.read src1).toNat) >>> 64))
    rw [getFlags_eq hw (by simp [hflags])]
    exact .ok (hw.setFlags _) (by intro r; simp [MicroOpInst.kills]; tauto) ip
  | imulRR | imulRI =>
    have hflags : .rFlags ∈ rs := hreads (by simp [MicroOpInst.reads])
    simp only [MicroOpInst.reads, List.forall_mem_cons] at hread
    simp only [executeInst, hread]
    have hw (v : BemiWord) := h.write dst v
    rw [getFlags_eq (hw _) (by simp [hflags])]
    exact .ok ((hw _).setFlags _) (by intro r; simp [MicroOpInst.kills]; tauto) ip
  | divRR =>
    simp only [MicroOpInst.reads, List.forall_mem_cons] at hread
    simp only [executeInst, hread]
    split
    · exact ⟨rfl, h.mem, fun _ hok => nomatch hok⟩
    · exact .ok ((h.write _ _).write _ _) (by intro r; simp [MicroOpInst.kills]; tauto) ip
  | idivRR =>
    simp only [MicroOpInst.reads, List.forall_mem_cons] at hread
    simp only [executeInst, hread]
    split
    · exact ⟨rfl, h.mem, fun _ hok => nomatch hok⟩
    · split
      · exact ⟨rfl, h.mem, fun _ hok => nomatch hok⟩
      · exact .ok ((h.write _ _).write _ _) (by intro r; simp [MicroOpInst.kills]; tauto) ip
  | btRI =>
    have hflags := getFlags_eq h (hreads (by simp [MicroOpInst.reads]))
    simp only [MicroOpInst.reads, List.forall_mem_cons] at hread
    simp only [executeInst, hread, hflags]
    exact .ok (h.setFlags _) (by simp [MicroOpInst.kills]) ip
  | btrRI | btsRI | btcRI =>
    have hflags := getFlags_eq h (hreads (by simp [MicroOpInst.reads]))
    simp only [MicroOpInst.reads, List.forall_mem_cons] at hread
    simp only [executeInst, hread, hflags]
    exact .ok ((h.setFlags _).write _ _) (by simp [MicroOpInst.kills]) ip
  | bsfRR | bsrRR =>
    have hflags : .rFlags ∈ rs := hreads (by simp [MicroOpInst.reads])
    simp only [MicroOpInst.reads, List.forall_mem_cons] at hread
    simp only [executeInst, hread]
    split
    · rw [getFlags_eq h hflags]
      exact .ok (h.setFlags _) (by simp [MicroOpInst.kills]) ip
    · have hw (v : BemiWord) := h.write dst v
      rw [getFlags_eq (hw _) (by simp [hflags])]
      exact .ok ((hw _).setFlags _) (by intro r; simp [MicroOpInst.kills]; tauto) ip
  | popcntRR =>
    have hflags : .rFlags ∈ rs := hreads (by simp [MicroOpInst.reads])
    simp only [MicroOpInst.reads, List.forall_mem_cons] at hread
    simp only [executeInst, hread]
    have hw (v : BemiWord) := h.write dst v
    rw [getFlags_eq (hw _) (by simp [hflags])]
    exact .ok ((hw _).setFlags _) (by intro r; simp [MicroOpInst.kills]; tauto) ip
  | loadRR =>
    simp only [MicroOpInst.reads, List.forall_mem_cons] at hread
    obtain ⟨hload, hval⟩ := h.load io (e'.read src1 + e'.read src2) (size = 8)
    simp only [executeInst, hread, hval]
    exact .ok (hload.write _ _) (by simp [MicroOpInst.kills]) ip
  | storeRR =>
    simp only [MicroOpInst.reads, List.forall_mem_cons] at hread
    simp only [executeInst, hread]
    exact .ok (h.store io _ _ _) (by simp [MicroOpInst.kills]) ip
  | pushR =>
    simp only [MicroOpInst.reads, List.forall_mem_cons] at hread
    simp only [executeInst, hread]
    exact .ok ((h.write _ _).store io _ _ _) (by simp [MicroOpInst.kills]) ip
  | popR =>
    simp only [MicroOpInst.reads, List.mem_singleton, forall_eq] at hread
    obtain ⟨hload, hval⟩ := h.load io (e'.read .rsp) true
    simp only [executeInst, hread, hval]
    exact .ok ((hload.write _ _).write _ _) (by intro r; simp [MicroOpInst.kills]; tauto) ip
  | jmpRel | jmpAbs =>
    simp only [MicroOpInst.reads, List.mem_singleton, forall_eq] at hread
    simp only [executeInst, hread]
    exact .ok h (by simp [MicroOpInst.kills]) _
  | jccRel =>
    have hflags := getFlags_eq h (hreads (by simp [MicroOpInst.reads]))
    simp only [MicroOpInst.reads, List.forall_mem_cons] at hread
    simp only [executeInst, hread, hflags]
    split <;> exact .ok h (by simp [MicroOpInst.kills]) _
  | callRel =>
    simp only [MicroOpInst.reads, List.forall_mem_cons] at hread
    simp only [executeInst, hread]
    exact .ok ((h.write _ _).store io _ _ _) (by simp [MicroOpInst.kills]) _
  | callAbs =>
    have hsrc : src1 ∈ rs := hreads (by simp [MicroOpInst.reads])
    simp only [MicroOpInst.reads, List.forall_mem_cons] at hread
    simp only [executeInst, hread]
    have hw := (h.write .rsp (e'.read .rsp - 8)).store io (e'.read .rsp - 8) true (e'.read .rax)
    rw [hw.read src1 (List.mem_cons_of_mem _ hsrc)]
    exact .ok hw (by simp [MicroOpInst.kills]) _
  | ret =>
    simp only [MicroOpInst.reads, List.mem_singleton, forall_eq] at hread
    obtain ⟨hload, hval⟩ := h.load io (e'.read .rsp) true
    simp only [executeInst, hread, hval]
    exact .ok (hload.write _ _) (by simp [MicroOpInst.kills]) _
  | cmovcc =>
    have hflags := getFlags_eq h (hreads (by simp [MicroOpInst.reads]))
    simp only [MicroOpInst.reads, List.forall_mem_cons] at hread
    simp only [executeInst, hread, hflags]
    split
    · exact .ok (h.write _ _) (by simp [MicroOpInst.kills]) ip
    · exact .ok h (by simp [MicroOpInst.kills]) ip
  | setcc =>
    have hflags := getFlags_eq h (hreads (by simp [MicroOpInst.reads]))
    simp only [executeInst, hflags]
    exact .ok (h.write _ _) (by simp [MicroOpInst.kills]) ip
  | cdq | cqo =>
    simp only [MicroOpInst.reads, List.mem_singleton, forall_eq] at hread
    simp only [executeInst, hread]
    split <;> exact .ok (h.write _ _) (by simp [MicroOpInst.kills]) ip
  | xchgRR =>
    simp only [MicroOpInst.reads, List.forall_mem_cons] at hread
    simp only [executeInst, hread]
    exact .ok ((h.write _ _).write _ _) (by intro r; simp [MicroOpInst.kills]; tauto) ip
  | cmpxchgRR =>
    have hflags : .rFlags ∈ rs := hreads (by simp [MicroOpInst.reads])
    simp only [MicroOpInst.reads, List.forall_mem_cons] at hread
    simp only [executeInst, hread]
    split
    · have hw := h.write src1 (e'.read src2)
      rw [getFlags_eq hw (by simp [hflags])]
      exact .ok (hw.setFlags _) (by intro r; simp [MicroOpInst.kills]; tauto) ip
    · have hw := h.write .rax (e'.read src1)
      rw [getFlags_eq hw (by simp [hflags])]
      exact .ok (hw.setFlags _) (by intro r; simp [MicroOpInst.kills]; tauto) ip
  | xaddRR =>
    simp only [MicroOpInst.reads, List.forall_mem_cons] at hread
    simp only [executeInst, hread]
    exact .ok (((h.write _ _).write _ _).setFlags _)
      (by intro r; simp [MicroOpInst.kills]; tauto) ip
  | _ => exact .ok h (by simp [MicroOpInst.kills]) ip

/-! ## Blocks -/

/-- What is live behind a micro-op is overwritten by it or live before it. -/
lemma subset_liveIn (out : List Register) (uop : MicroOpInst) (uops : List MicroOpInst) :
    (if uop.code.endsBlock then out else liveIn out uops) ⊆
      uop.kills ++ liveIn out (uop :: uops) := by
  intro r hr
  rw [liveIn, List.mem_append, List.mem_append, List.mem_filter, decide_eq_true_eq]
  by_cases hk : r ∈ uop.kills
  · exact .inl hk
  · exact .inr (.inr ⟨hr, hk⟩)

/-- The live registers are passed from one micro-op to the next. -/
lemma flow_liveIn (io : Callbacks M) (out : List Register) {uops : List MicroOpInst}
    {e e' : Executor M} (h : AgreeOn (liveIn out uops) e e') (ip : Option BemiWord) :
    SameOutcome out ((flow (microStep io) uops (e, ip)).finish microDone)
      ((flow (microStep io) uops (e', ip)).finish microDone) := by
  induction uops generalizing e e' ip with
  | nil => exact .ok h (List.Subset.refl _) ip
  | cons uop uops ih =>
    have hsub := subset_liveIn out uop uops
    obtain ⟨hres, hmem, hagree⟩ :=
      executeInst_agree io uop (List.subset_append_left _ _) h ip
    rw [flow_cons, flow_cons, microStep, microStep]
    revert hres hmem hagree
    generalize executeInst io e uop ip = x
    generalize executeInst io e' uop ip = y
    obtain ⟨f, res⟩ := x
    obtain ⟨f', res'⟩ := y
    rintro (rfl : res = res') hmem hagree
    cases res with
    | ok ip' =>
      have hafter := (hagree ip' rfl).mono hsub
      dsimp only
      cases hend : uop.code.endsBlock with
      | true =>
        rw [hend, if_pos rfl] at hafter
        exact .ok hafter (List.Subset.refl _) ip'
      | false =>
        rw [hend, if_neg (by simp)] at hafter
        exact ih hafter ip'
    | err msg => exact ⟨rfl, hmem, fun _ hok => by cases hok⟩
    | panic => exact ⟨rfl, hmem, fun _ hok => by cases hok⟩

/-- A block cannot tell executors apart that agree on its live registers and on memory: it ends in
the same way with the same memory, and if it does not fail they agree on what is live behind it. -/
theorem executeBlock_liveIn (io : Callbacks M) (tb : TranslationBlock) (out : List Register)
    {e e' : Executor M} (h : AgreeOn (liveIn out tb.active) e e') :
    SameOutcome out (executeBlock io e tb) (executeBlock io e' tb) := by
  rw [executeBlock_eq, executeBlock_eq]
  exact flow_liveIn io out h none

/-- `MovRI RTmp0, 7`, `AddRR RBX, RAX, RTmp0`: what RBX, the scratch register and the flags held
does not matter. -/
theorem executeBlock_liveIn_scratch :
    let tb := ((TranslationBlock.new 0).push (.new .movRI .rTmp0 .rNone .rNone 7)).1
    let tb := (tb.push (.new .addRR .rbx .rax .rTmp0 0)).1
    SameOutcome [.rbx, .rFlags] (executeBlock ⟨none, none⟩ ⟨RegisterFile.new, ()⟩ tb)
      (executeBlock ⟨none, none⟩
        ⟨((RegisterFile.new.write .rbx 1).write .rTmp0 2).write .rFlags 3, ()⟩ tb) :=
  executeBlock_liveIn ⟨none, none⟩ _ [.rbx, .rFlags] ⟨by decide, rfl⟩

end Bemi.Dbt
