import Mathlib.Order.Bounds.Basic
import Bemi.Lib.SlotQueue
import Bemi.Rob.Distributor

/-!
# Order and ages in the v7.1 reorder buffer

What a reorder buffer is for: the entries of a bank, from its head on, are the youngest of the
allocations that it has been given, in program order, each with the data of its allocation. `log`
writes down the allocations of a run and counts its ticks. In every run the entries of every bank
match the end of the log (`robBanks_inOrder`): an entry is stamped with its place and with the cycle
of its allocation, a retired one with a later cycle; and `MaxCount` is the greatest number of entries
that the bank has held.
-/

namespace Bemi.Rob
open SlotRing Transition

/-- An allocation that has been granted, after some ticks. -/
structure Allocation where
  rip : UInt64
  microOpStart : UInt64
  microOpCount : UInt32
  tick : ℕ
  handle : Handle

def logStep (log : List Allocation × ℕ) (ev : RobEvent) : List Allocation × ℕ :=
  match ev.op with
  | .allocate rip microOpStart microOpCount =>
    match ev.answer.2 with
    | some handle => (log.1 ++ [⟨rip, microOpStart, microOpCount, log.2, handle⟩], log.2)
    | none => log
  | .retire .. => log
  | .tick => (log.1, log.2 + 1)

/-- The allocations granted in a run, in order, and the number of its ticks. -/
def log (tr : List RobEvent) : List Allocation × ℕ := tr.foldl logStep ([], 0)

def allocationsTo (b : Fin robBanks) (tr : List RobEvent) : List Allocation :=
  (log tr).1.filter (·.handle.1 = b)

/-- The entry is that of the allocation, as it looks after `now` ticks. -/
structure Describes (now : ℕ) (a : Allocation) (e : RobEntry) : Prop where
  rip : e.rip = a.rip
  microOpStart : e.microOpStart = a.microOpStart
  microOpCount : e.microOpCount = a.microOpCount
  bankId : e.bankId = UInt32.ofNat a.handle.1.val
  slotInBank : e.slotInBank = UInt32.ofNat a.handle.2.val
  allocTick : e.allocTick = UInt64.ofNat a.tick
  aged : a.tick ≤ now
  retireTick : e.state = .allocated ∧ e.retireTick = 0 ∨
    e.state = .retired ∧ ∃ k, a.tick ≤ k ∧ k ≤ now ∧ e.retireTick = UInt64.ofNat k

/-- The numbers of entries that a bank has held in a run. -/
def counts (b : Fin robBanks) (tr : List RobEvent) (rob : RobDistributor) : Set ℕ :=
  {n | n = (rob.banks b).count ∨ ∃ ev ∈ tr, ∃ old, ev.before = some old ∧ n = (old.banks b).count}

structure InOrder (tr : List RobEvent) (rob : RobDistributor) : Prop where
  cycle : rob.cycleCounter = UInt64.ofNat (log tr).2
  ticks : (log tr).1.Pairwise fun a a' => a.tick ≤ a'.tick
  past : ∀ a ∈ (log tr).1, a.tick ≤ (log tr).2
  entries : ∀ b, ∃ l, l <:+ allocationsTo b tr ∧
    List.Forall₂ (Describes (log tr).2) l (rob.banks b).entries
  maxCount : ∀ b, IsGreatest (counts b tr rob) (rob.banks b).maxCount

/-! ## The log -/

lemma log_snoc (tr : List RobEvent) (ev : RobEvent) : log (tr ++ [ev]) = logStep (log tr) ev := by
  rw [log, List.foldl_append]
  rfl

/-- A call that hands out no handle and is no tick is not logged. -/
lemma log_other {tr : List RobEvent} {ev : RobEvent} (hop : ev.op ≠ .tick)
    (hanswer : ev.answer.2 = none) : log (tr ++ [ev]) = log tr := by
  rw [log_snoc, logStep]
  split
  · rw [hanswer]
  · rfl
  · rename_i htick
    exact absurd htick hop

lemma counts_snoc (b : Fin robBanks) (tr : List RobEvent) (rob rob' : RobDistributor) (op : RobOp)
    (r : RobAnswer) : counts b (tr ++ [⟨some rob, op, r⟩]) rob' =
      insert (rob'.banks b).count (counts b tr rob) := by
  ext n
  simp only [counts, Set.mem_ofPred_eq, Set.mem_insert_iff, List.mem_append, List.mem_singleton]
  constructor
  · rintro (h | ⟨ev, hev | rfl, old, hold, hn⟩)
    · exact .inl h
    · exact .inr (.inr ⟨ev, hev, old, hold, hn⟩)
    · cases hold
      exact .inr (.inl hn)
  · rintro (h | h | ⟨ev, hev, old, hold, hn⟩)
    · exact .inl h
    · exact .inr ⟨_, .inr rfl, rob, rfl, h⟩
    · exact .inr ⟨ev, .inl hev, old, hold, hn⟩

/-- Time only ages the entries. -/
lemma Describes.later {now now' : ℕ} {a : Allocation} {e : RobEntry} (h : Describes now a e)
    (hle : now ≤ now') : Describes now' a e := by
  refine { h with aged := Nat.le_trans h.aged hle, retireTick := h.retireTick.imp_right ?_ }
  rintro ⟨hst, k, hk, hk', htick⟩
  exact ⟨hst, k, hk, Nat.le_trans hk' hle, htick⟩

/-! ## One call -/

/-- The entry that `RobAllocateEntry` puts in a bank. -/
def RobDistributor.newEntry (rob : RobDistributor) (rip microOpStart : UInt64)
    (microOpCount : UInt32) (b : Fin robBanks) : RobEntry :=
  { rip, microOpStart, microOpCount
    state := .allocated
    allocTick := rob.cycleCounter
    retireTick := 0
    bankId := UInt32.ofNat b.val
    slotInBank := UInt32.ofNat (rob.banks b).tail.val }

lemma robAllocateEntry_granted (rob : RobDistributor) (rip microOpStart : UInt64)
    (microOpCount : UInt32) :
    robAllocateEntry (some rob) rip microOpStart microOpCount =
        (some { rob with totalStalls := rob.totalStalls + 1 }, .outOfResources, none) ∨
      ∃ b, (rob.banks b).count < robEntriesPerBank ∧
        robAllocateEntry (some rob) rip microOpStart microOpCount =
          (some (rob.allocate b (rob.newEntry rip microOpStart microOpCount b)), .success,
            some (b, (rob.banks b).tail)) := by
  rw [robAllocateEntry]
  cases hsearch : RoundRobin.search (fun b => (rob.banks b).count < robEntriesPerBank)
    rob.nextAllocBank with
  | none => exact .inl rfl
  | some b => exact .inr ⟨b, of_decide_eq_true (RoundRobin.search_some hsearch), rfl⟩

section
variable {tr : List RobEvent} {rob : RobDistributor}

/-- A call that is not logged and leaves the banks alone. -/
lemma InOrder.keep (h : InOrder tr rob) {rob' : RobDistributor} {op : RobOp} {r : RobAnswer}
    (hlog : log (tr ++ [⟨some rob, op, r⟩]) = log tr) (hbanks : rob'.banks = rob.banks)
    (hcycle : rob'.cycleCounter = rob.cycleCounter) :
    InOrder (tr ++ [⟨some rob, op, r⟩]) rob' := by
  refine ⟨?_, ?_, ?_, fun b => ?_, fun b => ?_⟩
  · rw [hlog, hcycle]
    exact h.cycle
  · rw [hlog]
    exact h.ticks
  · rw [hlog]
    exact h.past
  · rw [allocationsTo, hlog, hbanks]
    exact h.entries b
  · rw [counts_snoc, hbanks, Set.insert_eq_of_mem (.inl rfl)]
    exact h.maxCount b

lemma InOrder.tick (h : InOrder tr rob) (r : RobAnswer) :
    InOrder (tr ++ [⟨some rob, .tick, r⟩]) { rob with cycleCounter := rob.cycleCounter + 1 } := by
  have hlog : log (tr ++ [⟨some rob, .tick, r⟩]) = ((log tr).1, (log tr).2 + 1) := log_snoc _ _
  refine ⟨?_, ?_, ?_, fun b => ?_, fun b => ?_⟩
  · rw [hlog, h.cycle, UInt64.ofNat_add]
    rfl
  · rw [hlog]
    exact h.ticks
  · rw [hlog]
    exact fun a ha => Nat.le_succ_of_le (h.past a ha)
  · rw [allocationsTo, hlog]
    obtain ⟨l, hl, hmatch⟩ := h.entries b
    exact ⟨l, hl, hmatch.imp fun _ _ ha => ha.later (Nat.le_succ _)⟩
  · rw [counts_snoc, Set.insert_eq_of_mem (.inl rfl)]
    exact h.maxCount b

lemma InOrder.fill (h : InOrder tr rob) (hs : RobSound rob) {b : Fin robBanks}
    (hlt : (rob.banks b).count < robEntriesPerBank) (rip microOpStart : UInt64)
    (microOpCount : UInt32) :
    InOrder (tr ++ [⟨some rob, .allocate rip microOpStart microOpCount,
        (.success, some (b, (rob.banks b).tail))⟩])
      (rob.allocate b (rob.newEntry rip microOpStart microOpCount b)) := by
  let a : Allocation := ⟨rip, microOpStart, microOpCount, (log tr).2, (b, (rob.banks b).tail)⟩
  have hlog : log (tr ++ [⟨some rob, .allocate rip microOpStart microOpCount,
      (.success, some (b, (rob.banks b).tail))⟩]) = ((log tr).1 ++ [a], (log tr).2) := log_snoc _ _
  refine ⟨?_, ?_, ?_, fun c => ?_, fun c => ?_⟩
  · rw [hlog]
    exact h.cycle
  · rw [hlog, List.pairwise_append]
    refine ⟨h.ticks, List.pairwise_singleton _ _, fun a' ha' x hx => ?_⟩
    rw [List.mem_singleton.mp hx]
    exact h.past a' ha'
  · rw [hlog]
    intro a' ha'
    obtain ha' | ha' := List.mem_append.mp ha'
    · exact h.past a' ha'
    · rw [List.mem_singleton.mp ha']
  · obtain ⟨l, hl, hmatch⟩ := h.entries c
    rw [allocationsTo, hlog, List.filter_append, RobDistributor.allocate]
    dsimp only
    rcases eq_or_ne c b with rfl | hne
    · have hdescribes : Describes (log tr).2 a
          (rob.newEntry rip microOpStart microOpCount c) :=
        ⟨rfl, rfl, rfl, rfl, rfl, h.cycle, le_rfl, .inl ⟨rfl, rfl⟩⟩
      rw [Function.update_self, List.filter_singleton]
      obtain ⟨before, hbefore⟩ := hl
      refine ⟨l ++ [a], ?_, Buffer.forall₂_put (hs.banks c).toShaped hlt rfl hmatch hdescribes⟩
      refine ⟨before, ?_⟩
      rw [← List.append_assoc, hbefore]
      simp [a, allocationsTo]
    · rw [Function.update_of_ne hne]
      refine ⟨l, ?_, hmatch⟩
      simpa [a, hne.symm, allocationsTo] using hl
  · rw [counts_snoc, RobDistributor.allocate]
    dsimp only
    rcases eq_or_ne c b with rfl | hne
    · have hmax := (h.maxCount c).insert ((rob.banks c).count + 1)
      rw [Function.update_self]
      have hnew : ((rob.banks c).allocate (rob.newEntry rip microOpStart microOpCount c)).maxCount =
          max ((rob.banks c).count + 1) (rob.banks c).maxCount := by
        rw [RobBank.allocate]
        dsimp only
        split <;> omega
      rw [hnew]
      exact hmax
    · rw [Function.update_of_ne hne, Set.insert_eq_of_mem (.inl rfl)]
      exact h.maxCount c

lemma InOrder.retire (h : InOrder tr rob) (hs : RobSound rob) (i : Handle) {bank slot : UInt32}
    (r : EfiStatus) :
    InOrder (tr ++ [⟨some rob, .retire bank slot, (r, none)⟩]) (rob.retire i) := by
  have hlog : log (tr ++ [⟨some rob, .retire bank slot, (r, none)⟩]) = log tr :=
    log_other nofun rfl
  refine ⟨?_, ?_, ?_, fun b => ?_, fun b => ?_⟩
  · rw [hlog]
    exact h.cycle
  · rw [hlog]
    exact h.ticks
  · rw [hlog]
    exact h.past
  · obtain ⟨l, hl, hmatch⟩ := h.entries b
    rw [allocationsTo, hlog, RobDistributor.retire]
    dsimp only
    rcases eq_or_ne b i.1 with rfl | hne
    · rw [Function.update_self, RobBank.retire]
      dsimp only
      let entry : RobEntry :=
        { (rob.banks i.1).slots i.2 with state := .retired, retireTick := rob.cycleCounter }
      have hwindowed : ((rob.banks i.1).toBuffer.set i.2 entry).ring.Windowed := by
        rw [Buffer.ring_set _ _ rfl]
        exact (hs.banks i.1).toShaped.windowed.mark i.2
      have hset : List.Forall₂ (Describes (log tr).2) l
          ((rob.banks i.1).toBuffer.set i.2 entry).entries :=
        Buffer.forall₂_set hmatch fun a ha =>
          { ha with retireTick := .inr ⟨rfl, (log tr).2, ha.aged, le_rfl, h.cycle⟩ }
      obtain ⟨l', hl', hmatch'⟩ := Buffer.forall₂_drain hwindowed hset
      exact ⟨l', hl'.trans hl, hmatch'⟩
    · rw [Function.update_of_ne hne]
      exact ⟨l, hl, hmatch⟩
  · rw [counts_snoc, RobDistributor.retire]
    dsimp only
    rcases eq_or_ne b i.1 with rfl | hne
    · rw [Function.update_self]
      have hmax := (h.maxCount i.1).insert ((rob.banks i.1).retire i.2 rob.cycleCounter).count
      have hle : ((rob.banks i.1).retire i.2 rob.cycleCounter).count ≤ (rob.banks i.1).maxCount :=
        Nat.le_trans (Buffer.drain_count_le _) ((h.maxCount i.1).2 (.inl rfl))
      rw [max_eq_right hle] at hmax
      exact hmax
    · rw [Function.update_of_ne hne, Set.insert_eq_of_mem (.inl rfl)]
      exact h.maxCount b

end

/-! ## Runs -/

lemma inOrder_init : InOrder [] ⟨fun _ => zeroBank, 0, 0, 0, 0, 0⟩ := by
  refine ⟨rfl, .nil, nofun, fun b => ⟨[], List.nil_suffix, .nil⟩, fun b => ⟨.inl rfl, ?_⟩⟩
  rintro n (hn | ⟨ev, hev, -⟩)
  · exact hn.le
  · cases hev

lemma inOrder_step {tr : List RobEvent} {rob rob' : RobDistributor} {op : RobOp} {r : RobAnswer}
    (hs : RobSound rob) (h : InOrder tr rob) (st : RobStep (some rob) op r (some rob')) :
    InOrder (tr ++ [⟨some rob, op, r⟩]) rob' := by
  cases op with
  | allocate rip microOpStart microOpCount =>
    obtain hcall | ⟨b, hlt, hcall⟩ := robAllocateEntry_granted rob rip microOpStart microOpCount
    · cases st.symm.trans hcall
      exact h.keep (log_other (fun htick => by cases htick) rfl) rfl rfl
    · cases st.symm.trans hcall
      exact h.fill hs hlt rip microOpStart microOpCount
  | retire bank slot =>
    obtain ⟨-, status, -, hcall⟩ | ⟨i, -, -, hcall⟩ := robRetireEntry_cases rob bank slot
    · rw [RobStep, robCall, hcall] at st
      cases st
      exact h.keep (log_other (fun htick => by cases htick) rfl) rfl rfl
    · rw [RobStep, robCall, hcall] at st
      cases st
      exact h.retire hs i .success
  | tick =>
    cases st
    exact h.tick _

lemma inOrder_of_run {pool : Bool} {tr : List RobEvent} {s : Option RobDistributor}
    (run : Run RobStep (robDistributorInit pool).2 tr s) : ∀ rob, s = some rob → InOrder tr rob := by
  induction run with
  | nil =>
    intro rob hrob
    cases pool with
    | false => cases hrob
    | true =>
      cases hrob
      exact inOrder_init
  | @snoc tr s op r s' run st ih =>
    rintro rob' rfl
    cases s with
    | none => cases (robStep_none st).1
    | some rob =>
      obtain ⟨hs, -⟩ := robInv_of_run run
      exact inOrder_step hs (ih rob rfl) st

/-- In every run the entries of each bank, from its head on, are those of the latest allocations to
it, in their order; and as long as the cycle counter does not wrap, no entry is younger than the one
behind it, and none has been retired before it was allocated. -/
theorem robBanks_inOrder {pool : Bool} {tr : List RobEvent} {rob : RobDistributor}
    (run : Run RobStep (robDistributorInit pool).2 tr (some rob)) :
    InOrder tr rob ∧ ((log tr).2 < 2 ^ 64 → ∀ b,
      (rob.banks b).entries.Pairwise (fun e e' => e.allocTick ≤ e'.allocTick) ∧
        ∀ e ∈ (rob.banks b).entries, e.state = .retired → e.allocTick ≤ e.retireTick) := by
  have h := inOrder_of_run run rob rfl
  refine ⟨h, fun hwrap b => ?_⟩
  obtain ⟨l, hl, hmatch⟩ := h.entries b
  have hsub : l.Sublist (log tr).1 := hl.sublist.trans List.filter_sublist
  have htick {k : ℕ} (hk : k ≤ (log tr).2) : (UInt64.ofNat k).toNat = k :=
    UInt64.toNat_ofNat_of_lt (Nat.lt_of_le_of_lt hk hwrap)
  constructor
  · refine Buffer.pairwise_of_forall₂ hmatch (h.ticks.sublist hsub) ?_
    intro a _ a' _ e e' hae hae' hle
    rw [hae.allocTick, hae'.allocTick, UInt64.le_iff_toNat_le, htick hae.aged, htick hae'.aged]
    exact hle
  · intro e he hst
    obtain ⟨a, -, hae⟩ := Buffer.exists_of_forall₂ hmatch he
    obtain ⟨hallocated, -⟩ | ⟨-, k, hk, hnow, hretire⟩ := hae.retireTick
    · rw [hallocated] at hst
      cases hst
    · rw [hae.allocTick, hretire, UInt64.le_iff_toNat_le, htick hae.aged, htick hnow]
      exact hk

/-- An allocation and a tick. -/
theorem robBanks_inOrder_first :
    ∃ (tr : List RobEvent) (rob : RobDistributor), Run RobStep (robDistributorInit true).2 tr
      (some rob) ∧ (log tr).2 = 1 ∧ InOrder tr rob ∧
      (rob.banks 0).entries.Pairwise fun e e' => e.allocTick ≤ e'.allocTick := by
  obtain ⟨rob, hrob, -⟩ := robStep_move robStep_first
  have st := robStep_first
  rw [hrob] at st
  have hrun := (Run.nil.snoc st).snoc (show RobStep (some rob) .tick _ (some _) from rfl)
  obtain ⟨hin, hage⟩ := robBanks_inOrder hrun
  exact ⟨_, _, hrun, rfl, hin, (hage (show 1 < 2 ^ 64 by decide) 0).1⟩

end Bemi.Rob
