import Mathlib.Data.Fintype.Prod
import Bemi.Efi
import Bemi.Lib.RoundRobin
import Bemi.Lib.Run
import Bemi.Lib.SlotRing

/-!
# The v7.1 reorder buffer

Model of the v7.1 half of `performance/rob/robdistributor.c`: seven banks of 112 slots, allocation in
the first bank with room in cyclic order, retirement in any order with a draining loop at the head.
Ring positions are `Fin`s, so that indices are in range by construction; `gRob` is an `Option`,
`NULL` being `none`.

Each bank is a buffer of entries, and as a ring of slots the two operations are `push` and `retire`.
`robDistributor_sound` is the invariant of every run, with the handles that the callers hold kept as
a history of the calls.
-/

namespace Bemi.Rob
open SlotRing Transition

abbrev robBanks : Nat := 7
abbrev robEntriesPerBank : Nat := 112

instance : NeZero robBanks := ⟨by decide⟩
instance : NeZero robEntriesPerBank := ⟨by decide⟩

structure RobEntry where
  rip : UInt64
  microOpStart : UInt64
  microOpCount : UInt32
  state : SlotState
  allocTick : UInt64
  retireTick : UInt64
  bankId : UInt32
  slotInBank : UInt32

instance : SlotEntry RobEntry where
  state := RobEntry.state
  setState e st := { e with state := st }
  state_setState _ _ := rfl

structure RobBank extends Buffer robEntriesPerBank RobEntry where
  maxCount : Nat

structure RobDistributor where
  banks : Fin robBanks → RobBank
  nextAllocBank : Fin robBanks
  totalAllocations : UInt64
  totalRetirements : UInt64
  totalStalls : UInt64
  cycleCounter : UInt64

/-- The bank and the slot of an entry. -/
abbrev Handle := Fin robBanks × Fin robEntriesPerBank

/-! ## Operations -/

def zeroEntry : RobEntry := ⟨0, 0, 0, .free, 0, 0, 0, 0⟩

def zeroBank : RobBank := ⟨Buffer.zero zeroEntry, 0⟩

/-- `pool` tells whether `AllocateZeroPool` succeeds. -/
def robDistributorInit (pool : Bool) : EfiStatus × Option RobDistributor :=
  if pool then (.success, some ⟨fun _ => zeroBank, 0, 0, 0, 0, 0⟩)
  else (.outOfResources, none)

/-- The bank after an entry has been put in the slot at its tail. -/
def RobBank.allocate (bp : RobBank) (entry : RobEntry) : RobBank where
  toBuffer := bp.toBuffer.put entry
  maxCount := if bp.count + 1 > bp.maxCount then bp.count + 1 else bp.maxCount

/-- The distributor after an entry has been put in bank `b`. -/
def RobDistributor.allocate (rob : RobDistributor) (b : Fin robBanks) (entry : RobEntry) :
    RobDistributor :=
  { rob with
    banks := Function.update rob.banks b ((rob.banks b).allocate entry)
    nextAllocBank := b + 1
    totalAllocations := rob.totalAllocations + 1 }

/-- The status and, on success, the bank and slot written to the output parameters. -/
def robAllocateEntry (gRob : Option RobDistributor) (rip microOpStart : UInt64)
    (microOpCount : UInt32) : Option RobDistributor × EfiStatus × Option Handle :=
  match gRob with
  | none => (none, .notReady, none)
  | some rob =>
    match RoundRobin.search (fun b => (rob.banks b).count < robEntriesPerBank)
        rob.nextAllocBank with
    | none => (some { rob with totalStalls := rob.totalStalls + 1 }, .outOfResources, none)
    | some b =>
      let slot := (rob.banks b).tail
      let entry : RobEntry :=
        { rip, microOpStart, microOpCount
          state := .allocated
          allocTick := rob.cycleCounter
          retireTick := 0
          bankId := UInt32.ofNat b.val
          slotInBank := UInt32.ofNat slot.val }
      (some (rob.allocate b entry), .success, some (b, slot))

/-- The bank after the entry in a slot has been retired at `tick` and the head has been drained. -/
def RobBank.retire (bp : RobBank) (slot : Fin robEntriesPerBank) (tick : UInt64) : RobBank :=
  let entry := { bp.slots slot with state := .retired, retireTick := tick }
  { bp with toBuffer := (bp.toBuffer.set slot entry).drain }

/-- The distributor after the ALLOCATED entry of a handle has been retired. -/
def RobDistributor.retire (rob : RobDistributor) (h : Handle) : RobDistributor :=
  { rob with
    banks := Function.update rob.banks h.1 ((rob.banks h.1).retire h.2 rob.cycleCounter)
    totalRetirements := rob.totalRetirements + 1 }

def robRetireEntry (gRob : Option RobDistributor) (bank slot : UInt32) :
    Option RobDistributor × EfiStatus :=
  match gRob with
  | none => (none, .notReady)
  | some rob =>
    if h : bank.toNat < robBanks ∧ slot.toNat < robEntriesPerBank then
      let handle : Handle := (⟨bank.toNat, h.1⟩, ⟨slot.toNat, h.2⟩)
      let entry := (rob.banks handle.1).slots handle.2
      if entry.state ≠ .allocated then (some rob, .notReady)
      else (some (rob.retire handle), .success)
    else (some rob, .invalidParameter)

def robTick (gRob : Option RobDistributor) : Option RobDistributor :=
  gRob.map fun rob => { rob with cycleCounter := rob.cycleCounter + 1 }

/-! ## Banks as rings -/

lemma ring_allocate (bp : RobBank) {entry : RobEntry} (h : entry.state = .allocated) :
    (bp.allocate entry).ring = bp.ring.push :=
  Buffer.ring_put _ h

lemma ring_retire (bp : RobBank) (slot : Fin robEntriesPerBank) (tick : UInt64) :
    (bp.retire slot tick).ring = bp.ring.retire slot := by
  rw [RobBank.retire]
  dsimp only
  rw [Buffer.ring_drain, Buffer.ring_set _ _ rfl]
  rfl

/-- The state of the slot a handle names. -/
def RobDistributor.state (rob : RobDistributor) (h : Handle) : SlotState :=
  (rob.banks h.1).ring.state h.2

/-- The handles of the ALLOCATED slots. -/
def RobDistributor.allocatedSlots (rob : RobDistributor) : Finset Handle :=
  Finset.univ.filter fun h => rob.state h = .allocated

lemma mem_allocatedSlots {rob : RobDistributor} {h : Handle} :
    h ∈ rob.allocatedSlots ↔ rob.state h = .allocated := by
  simp [RobDistributor.allocatedSlots]

/-- Every bank is a well-formed ring, and the totals count the ALLOCATED slots. -/
structure RobSound (rob : RobDistributor) : Prop where
  banks : ∀ b, (rob.banks b).ring.WellFormed
  totals : rob.totalAllocations - rob.totalRetirements =
    UInt64.ofNat rob.allocatedSlots.card

/-! ## What one call does -/

/-- `RobAllocateEntry` fails when no bank has room. -/
lemma robAllocateEntry_full {rob : RobDistributor}
    (h : ¬ ∃ b, (rob.banks b).count < robEntriesPerBank) (rip microOpStart : UInt64)
    (microOpCount : UInt32) :
    robAllocateEntry (some rob) rip microOpStart microOpCount =
      (some { rob with totalStalls := rob.totalStalls + 1 }, .outOfResources, none) := by
  have hsearch : RoundRobin.search (fun b => (rob.banks b).count < robEntriesPerBank)
      rob.nextAllocBank = none :=
    RoundRobin.search_eq_none_iff.mpr fun b => decide_eq_false (not_exists.mp h b)
  rw [robAllocateEntry, hsearch]

/-- Otherwise it fills the tail slot of the first bank that has room. -/
lemma robAllocateEntry_room {rob : RobDistributor}
    (h : ∃ b, (rob.banks b).count < robEntriesPerBank) (rip microOpStart : UInt64)
    (microOpCount : UInt32) :
    ∃ b entry, (rob.banks b).count < robEntriesPerBank ∧
      (∀ c, (c - rob.nextAllocBank).val < (b - rob.nextAllocBank).val →
        ¬ (rob.banks c).count < robEntriesPerBank) ∧
      entry.state = .allocated ∧
      robAllocateEntry (some rob) rip microOpStart microOpCount =
        (some (rob.allocate b entry), .success, some (b, (rob.banks b).tail)) := by
  cases hsearch : RoundRobin.search (fun b => (rob.banks b).count < robEntriesPerBank)
    rob.nextAllocBank with
  | none =>
    obtain ⟨b, hb⟩ := h
    exact absurd hb (of_decide_eq_false (RoundRobin.search_eq_none_iff.mp hsearch b))
  | some b =>
    refine ⟨b, _, ?_, ?_, ?_, by rw [robAllocateEntry, hsearch]⟩
    · exact of_decide_eq_true (RoundRobin.search_some hsearch)
    · intro c hc
      exact of_decide_eq_false (RoundRobin.search_first hsearch c hc)
    · rfl

/-- Room or not. -/
lemma robAllocateEntry_cases (rob : RobDistributor) (rip microOpStart : UInt64)
    (microOpCount : UInt32) :
    robAllocateEntry (some rob) rip microOpStart microOpCount =
        (some { rob with totalStalls := rob.totalStalls + 1 }, .outOfResources, none) ∨
      ∃ b entry, (rob.banks b).count < robEntriesPerBank ∧ entry.state = .allocated ∧
        robAllocateEntry (some rob) rip microOpStart microOpCount =
          (some (rob.allocate b entry), .success, some (b, (rob.banks b).tail)) := by
  by_cases hroom : ∃ b, (rob.banks b).count < robEntriesPerBank
  · obtain ⟨b, entry, hlt, -, hentry, hcall⟩ :=
      robAllocateEntry_room hroom rip microOpStart microOpCount
    exact .inr ⟨b, entry, hlt, hentry, hcall⟩
  · exact .inl (robAllocateEntry_full hroom rip microOpStart microOpCount)

/-- Two arguments name a handle. -/
def Names (bank slot : UInt32) (h : Handle) : Prop :=
  bank.toNat = h.1.val ∧ slot.toNat = h.2.val

lemma Names.unique {bank slot : UInt32} {h h' : Handle} (hn : Names bank slot h)
    (hn' : Names bank slot h') : h = h' :=
  Prod.ext (Fin.ext (hn.1.symm.trans hn'.1)) (Fin.ext (hn.2.symm.trans hn'.2))

/-- `RobRetireEntry` retires the slot named if it is ALLOCATED and does nothing otherwise. -/
lemma robRetireEntry_cases (rob : RobDistributor) (bank slot : UInt32) :
    ((∀ h, Names bank slot h → rob.state h ≠ .allocated) ∧
        ∃ status, status ≠ .success ∧ robRetireEntry (some rob) bank slot = (some rob, status)) ∨
      ∃ h, Names bank slot h ∧ rob.state h = .allocated ∧
        robRetireEntry (some rob) bank slot = (some (rob.retire h), .success) := by
  by_cases hrange : bank.toNat < robBanks ∧ slot.toNat < robEntriesPerBank
  · let h : Handle := (⟨bank.toNat, hrange.1⟩, ⟨slot.toNat, hrange.2⟩)
    by_cases hst : rob.state h = .allocated
    · refine .inr ⟨h, ⟨rfl, rfl⟩, hst, ?_⟩
      rw [robRetireEntry]
      dsimp only
      rw [dif_pos hrange]
      exact if_neg (not_not_intro hst)
    · refine .inl ⟨fun h' hn' => ?_, .notReady, by simp, ?_⟩
      · rwa [hn'.unique (⟨rfl, rfl⟩ : Names bank slot h)]
      · rw [robRetireEntry]
        dsimp only
        rw [dif_pos hrange]
        exact if_pos hst
  · refine .inl ⟨fun h hn => absurd ⟨hn.1 ▸ h.1.isLt, hn.2 ▸ h.2.isLt⟩ hrange, .invalidParameter,
      by simp, ?_⟩
    rw [robRetireEntry]
    dsimp only
    rw [dif_neg hrange]

/-- The slot states after an allocation. -/
lemma state_allocate {rob : RobDistributor} {b : Fin robBanks} {entry : RobEntry}
    (hentry : entry.state = .allocated) (h : Handle) :
    (rob.allocate b entry).state h =
      if h.1 = b then (rob.banks b).ring.push.state h.2 else rob.state h := by
  rw [RobDistributor.state, RobDistributor.state, RobDistributor.allocate]
  dsimp only
  rw [Function.update_apply]
  split
  · rw [ring_allocate _ hentry]
  · rfl

/-- The slot states after a retirement. -/
lemma state_retire {rob : RobDistributor} {h₀ : Handle} (h : Handle) :
    (rob.retire h₀).state h =
      if h.1 = h₀.1 then ((rob.banks h₀.1).ring.retire h₀.2).state h.2 else rob.state h := by
  rw [RobDistributor.state, RobDistributor.state, RobDistributor.retire]
  dsimp only
  rw [Function.update_apply]
  split
  · rw [ring_retire]
  · rfl

/-- Filling the tail slot of a bank with room allocates that slot, which was not allocated
before. -/
lemma RobSound.allocatedSlots_allocate {rob : RobDistributor} (hs : RobSound rob)
    {b : Fin robBanks} {entry : RobEntry} (hlt : (rob.banks b).count < robEntriesPerBank)
    (hentry : entry.state = .allocated) :
    (b, (rob.banks b).tail) ∉ rob.allocatedSlots ∧
      (rob.allocate b entry).allocatedSlots =
        insert (b, (rob.banks b).tail) rob.allocatedSlots := by
  have hfree : (rob.banks b).ring.state (rob.banks b).tail = .free :=
    (hs.banks b).toShaped.tail_free hlt
  constructor
  · rw [mem_allocatedSlots, RobDistributor.state, hfree]
    simp
  · ext ⟨c, i⟩
    rw [Finset.mem_insert, mem_allocatedSlots, mem_allocatedSlots, state_allocate hentry]
    by_cases hc : c = b
    · subst hc
      rw [if_pos rfl, Ring.push_allocated]
      simp [RobDistributor.state, Buffer.ring]
    · rw [if_neg hc]
      simp [hc]

lemma RobSound.allocate {rob : RobDistributor} (hs : RobSound rob) {b : Fin robBanks}
    {entry : RobEntry} (hlt : (rob.banks b).count < robEntriesPerBank)
    (hentry : entry.state = .allocated) : RobSound (rob.allocate b entry) := by
  obtain ⟨hnot, hslots⟩ := hs.allocatedSlots_allocate hlt hentry
  refine ⟨fun c => ?_, ?_⟩
  · rw [RobDistributor.allocate]
    dsimp only
    rw [Function.update_apply]
    split
    · rw [ring_allocate _ hentry]
      exact (hs.banks b).push hlt
    · exact hs.banks c
  · rw [hslots, Finset.card_insert_of_notMem hnot, UInt64.ofNat_add, ← hs.totals,
      RobDistributor.allocate]
    grind

/-- Retiring gives up one slot. -/
lemma allocatedSlots_retire (rob : RobDistributor) (h : Handle) :
    (rob.retire h).allocatedSlots = rob.allocatedSlots.erase h := by
  obtain ⟨b, i⟩ := h
  ext ⟨c, j⟩
  rw [Finset.mem_erase, mem_allocatedSlots, mem_allocatedSlots, state_retire]
  by_cases hc : c = b
  · subst hc
    rw [if_pos rfl, Ring.retire_allocated]
    simp [RobDistributor.state]
  · rw [if_neg hc]
    simp [hc]

lemma RobSound.retire {rob : RobDistributor} (hs : RobSound rob) {h : Handle}
    (hst : rob.state h = .allocated) : RobSound (rob.retire h) := by
  refine ⟨fun c => ?_, ?_⟩
  · rw [RobDistributor.retire]
    dsimp only
    rw [Function.update_apply]
    split
    · rw [ring_retire]
      exact (hs.banks h.1).retire hst
    · exact hs.banks c
  · have hcard := Finset.card_erase_add_one (mem_allocatedSlots.mpr hst)
    have htotals := hs.totals
    rw [← hcard, UInt64.ofNat_add] at htotals
    rw [allocatedSlots_retire, RobDistributor.retire]
    grind

/-! ## Runs -/

inductive RobOp where
  | allocate (rip microOpStart : UInt64) (microOpCount : UInt32)
  | retire (bank slot : UInt32)
  | tick

/-- The status, and the handle if one is handed out. -/
abbrev RobAnswer := EfiStatus × Option Handle

def robCall (gRob : Option RobDistributor) : RobOp → Option RobDistributor × RobAnswer
  | .allocate rip microOpStart microOpCount => robAllocateEntry gRob rip microOpStart microOpCount
  | .retire bank slot =>
    let (gRob, status) := robRetireEntry gRob bank slot
    (gRob, status, none)
  | .tick => (robTick gRob, .success, none)

def RobStep (gRob : Option RobDistributor) (op : RobOp) (answer : RobAnswer)
    (gRob' : Option RobDistributor) : Prop :=
  robCall gRob op = (gRob', answer)

/-- What a step can do to a distributor, one case for each outcome of a call. -/
inductive RobMove (rob : RobDistributor) : RobOp → RobAnswer → RobDistributor → Prop where
  | stall {rip microOpStart microOpCount} :
    RobMove rob (.allocate rip microOpStart microOpCount) (.outOfResources, none)
      { rob with totalStalls := rob.totalStalls + 1 }
  | fill {rip microOpStart microOpCount b entry} :
    (rob.banks b).count < robEntriesPerBank →
    entry.state = .allocated →
    RobMove rob (.allocate rip microOpStart microOpCount) (.success, some (b, (rob.banks b).tail))
      (rob.allocate b entry)
  | refuse {bank slot status} :
    (∀ h, Names bank slot h → rob.state h ≠ .allocated) →
    RobMove rob (.retire bank slot) (status, none) rob
  | retire {bank slot h} :
    Names bank slot h →
    rob.state h = .allocated →
    RobMove rob (.retire bank slot) (.success, none) (rob.retire h)
  | tick : RobMove rob .tick (.success, none) { rob with cycleCounter := rob.cycleCounter + 1 }

lemma robStep_move {rob : RobDistributor} {op : RobOp} {r : RobAnswer} {s' : Option RobDistributor}
    (st : RobStep (some rob) op r s') : ∃ rob', s' = some rob' ∧ RobMove rob op r rob' := by
  cases op with
  | allocate rip start count =>
    obtain hcall | ⟨b, entry, hlt, hentry, hcall⟩ := robAllocateEntry_cases rob rip start count
    · cases st.symm.trans hcall
      exact ⟨_, rfl, .stall⟩
    · cases st.symm.trans hcall
      exact ⟨_, rfl, .fill hlt hentry⟩
  | retire bank slot =>
    obtain ⟨hno, status, -, hcall⟩ | ⟨h, hn, hst, hcall⟩ := robRetireEntry_cases rob bank slot
    · rw [RobStep, robCall, hcall] at st
      cases st
      exact ⟨_, rfl, .refuse hno⟩
    · rw [RobStep, robCall, hcall] at st
      cases st
      exact ⟨_, rfl, .retire hn hst⟩
  | tick =>
    cases st
    exact ⟨_, rfl, .tick⟩

/-- Without a distributor every step is refused. -/
lemma robStep_none {op : RobOp} {r : RobAnswer} {s' : Option RobDistributor}
    (st : RobStep none op r s') : s' = none ∧ r.2 = none := by
  cases op with
  | allocate rip start count =>
    cases st
    exact ⟨rfl, rfl⟩
  | retire bank slot =>
    cases st
    exact ⟨rfl, rfl⟩
  | tick =>
    cases st
    exact ⟨rfl, rfl⟩

abbrev RobEvent := Event (Option RobDistributor) RobOp RobAnswer

/-- What a call does to the handles held: an allocation adds the handle it returns, a call of
`RobRetireEntry` gives up the handle it names. -/
def holdStep (held : Handle → Prop) (ev : RobEvent) (h : Handle) : Prop :=
  match ev.op with
  | .allocate .. => held h ∨ ev.answer.2 = some h
  | .retire bank slot => held h ∧ ¬ Names bank slot h
  | .tick => held h

/-- The handles of the allocations that have not been retired. -/
def Held (tr : List RobEvent) : Handle → Prop :=
  tr.foldl holdStep fun _ => False

lemma held_snoc (tr : List RobEvent) (ev : RobEvent) (h : Handle) :
    Held (tr ++ [ev]) h ↔ holdStep (Held tr) ev h := by
  simp [Held]

/-- The distributor is sound, and the handles held are those of the ALLOCATED slots. -/
def RobInv (tr : List RobEvent) : Option RobDistributor → Prop
  | none => ∀ h, ¬ Held tr h
  | some rob => RobSound rob ∧ ∀ h, Held tr h ↔ rob.state h = .allocated

lemma robInv_init (pool : Bool) : RobInv [] (robDistributorInit pool).2 := by
  cases pool with
  | false => exact fun h hh => hh
  | true =>
    have hfree (h : Handle) : RobDistributor.state ⟨fun _ => zeroBank, 0, 0, 0, 0, 0⟩ h = .free :=
      rfl
    refine ⟨⟨fun b => Ring.empty_wellFormed, ?_⟩, fun h => ?_⟩
    · rw [RobDistributor.allocatedSlots]
      simp [hfree]
    · simp [Held, hfree]

/-- Every call keeps the invariant. -/
lemma robInv_step (tr : List RobEvent) (s : Option RobDistributor) (op : RobOp) (r : RobAnswer)
    (s' : Option RobDistributor) (hI : RobInv tr s) (st : RobStep s op r s') :
    RobInv (tr ++ [⟨s, op, r⟩]) s' := by
  cases s with
  | none =>
    obtain ⟨rfl, hr⟩ := robStep_none st
    intro h hh
    rw [held_snoc] at hh
    cases op with
    | allocate rip start count =>
      obtain hh | hh := hh
      · exact hI h hh
      · rw [hr] at hh
        cases hh
    | retire bank slot => exact hI h hh.1
    | tick => exact hI h hh
  | some rob =>
    obtain ⟨hs, hheld⟩ := hI
    obtain ⟨rob', rfl, move⟩ := robStep_move st
    cases move with
    | stall =>
      refine ⟨⟨hs.banks, hs.totals⟩, fun h => ?_⟩
      rw [held_snoc]
      refine Iff.trans ?_ (hheld h)
      simp [holdStep]
    | fill hlt hentry =>
      refine ⟨hs.allocate hlt hentry, fun h => ?_⟩
      rw [← mem_allocatedSlots, (hs.allocatedSlots_allocate hlt hentry).2, Finset.mem_insert,
        mem_allocatedSlots, ← hheld h, held_snoc]
      simp [holdStep, or_comm, eq_comm]
    | refuse hno =>
      refine ⟨hs, fun h => ?_⟩
      rw [held_snoc, ← hheld h]
      exact and_iff_left_of_imp fun hh hn => hno h hn ((hheld h).mp hh)
    | retire hn hst =>
      refine ⟨hs.retire hst, fun h => ?_⟩
      rw [← mem_allocatedSlots, allocatedSlots_retire, Finset.mem_erase, mem_allocatedSlots,
        ← hheld h, held_snoc, and_comm]
      exact and_congr_right fun _ => not_congr ⟨fun hn' => hn'.unique hn, fun e => e ▸ hn⟩
    | tick =>
      refine ⟨⟨hs.banks, hs.totals⟩, fun h => ?_⟩
      rw [held_snoc]
      exact hheld h

lemma robInv_of_run {pool : Bool} {tr : List RobEvent} {s : Option RobDistributor}
    (run : Run RobStep (robDistributorInit pool).2 tr s) : RobInv tr s :=
  run.history (robInv_init pool) robInv_step

/-! ## Turns -/

/-- A bank with room in front of `NextAllocBank` takes the next entry. -/
lemma robStep_next {rob : RobDistributor}
    (h : (rob.banks rob.nextAllocBank).count < robEntriesPerBank) (rip microOpStart : UInt64)
    (microOpCount : UInt32) :
    ∃ entry, entry.state = .allocated ∧
      RobStep (some rob) (.allocate rip microOpStart microOpCount)
        (.success, some (rob.nextAllocBank, (rob.banks rob.nextAllocBank).tail))
        (some (rob.allocate rob.nextAllocBank entry)) := by
  obtain ⟨b, entry, -, hfirst, hentry, hcall⟩ :=
    robAllocateEntry_room ⟨_, h⟩ rip microOpStart microOpCount
  have hb : b = rob.nextAllocBank := by
    by_contra hne
    refine hfirst rob.nextAllocBank ?_ h
    rw [sub_self]
    exact Nat.pos_of_ne_zero fun hzero => hne (sub_eq_zero.mp (Fin.ext hzero))
  subst hb
  exact ⟨entry, hentry, hcall⟩

/-- Allocations in a row go through the banks in turn, as long as there is room. -/
lemma robRun_turns {n : ℕ} (hn : n ≤ 784) :
    ∃ tr rob, Run RobStep (robDistributorInit true).2 tr (some rob) ∧
      tr.map Event.op = List.replicate n (.allocate 0x1000 0 1) ∧
      rob.nextAllocBank.val = n % 7 ∧
      (∀ b, (rob.banks b).count = (n + (6 - b.val)) / 7 ∧
        (rob.banks b).tail.val = (rob.banks b).count % 112) ∧
      ∀ h, Held tr h ↔ h.1.val + 7 * h.2.val < n := by
  induction n with
  | zero =>
    refine ⟨[], _, .nil, rfl, rfl, fun b => ⟨?_, rfl⟩, fun h => by simp [Held]⟩
    exact (Nat.div_eq_of_lt (by omega)).symm
  | succ n ih =>
    obtain ⟨tr, rob, run, hops, hnext, hbanks, hheld⟩ := ih (Nat.le_of_succ_le hn)
    obtain ⟨hcount, htail⟩ := hbanks rob.nextAllocBank
    have hturn : (rob.banks rob.nextAllocBank).count = n / 7 := by
      rw [hcount, hnext]
      omega
    have hroom : (rob.banks rob.nextAllocBank).count < 112 := by
      rw [hturn]
      omega
    obtain ⟨entry, -, st⟩ := robStep_next hroom 0x1000 0 1
    refine ⟨_, _, run.snoc st, ?_, ?_, fun b => ?_, fun h => ?_⟩
    · rw [List.map_append, hops, List.replicate_succ']
      rfl
    · change (rob.nextAllocBank + 1).val = _
      rw [Fin.val_add, hnext]
      exact Nat.mod_add_mod ..
    · have hlt : b.val < 7 := b.isLt
      by_cases hb : b = rob.nextAllocBank
      · subst hb
        have hput : (rob.allocate rob.nextAllocBank entry).banks rob.nextAllocBank =
            (rob.banks rob.nextAllocBank).allocate entry := Function.update_self ..
        rw [hput]
        refine ⟨?_, ?_⟩
        · change (rob.banks rob.nextAllocBank).count + 1 = _
          rw [hturn, hnext]
          omega
        · change ((rob.banks rob.nextAllocBank).tail + 1).val =
            ((rob.banks rob.nextAllocBank).count + 1) % 112
          rw [Fin.val_add, htail]
          exact Nat.mod_add_mod ..
      · obtain ⟨hcount', htail'⟩ := hbanks b
        have hne : b.val ≠ n % 7 := fun e => hb (Fin.ext (e.trans hnext.symm))
        have hkeep : (rob.allocate rob.nextAllocBank entry).banks b = rob.banks b :=
          Function.update_of_ne hb ..
        rw [hkeep]
        refine ⟨?_, htail'⟩
        rw [hcount']
        omega
    · rw [Nat.mod_eq_of_lt hroom] at htail
      have hlt : h.1.val < 7 := h.1.isLt
      rw [held_snoc]
      refine (or_congr (hheld h) Option.some_inj).trans ?_
      rw [Prod.ext_iff, Fin.ext_iff, Fin.ext_iff, hnext, htail, hturn]
      omega

/-- The first allocation after a successful initialisation. -/
lemma robStep_first : RobStep (robDistributorInit true).2 (.allocate 0x1000 0 1)
    (.success, some (0, 0)) (robCall (robDistributorInit true).2 (.allocate 0x1000 0 1)).1 := by
  have hans : (robCall (robDistributorInit true).2 (.allocate 0x1000 0 1)).2 =
      (.success, some (0, 0)) := by
    simp only [robDistributorInit, if_pos, robCall, robAllocateEntry, RoundRobin.search]
    rw [RoundRobin.searchFrom, if_pos (by decide)]
    rfl
  rw [← hans]
  rfl

/-! ## Every run -/

/-- After every run from `RobDistributorInit`, every bank is a well-formed ring and the totals count
the ALLOCATED slots; an allocation never returns a handle that is held, and `RobRetireEntry`
succeeds on the handles held and changes nothing otherwise. -/
theorem robDistributor_sound {pool : Bool} {tr : List RobEvent} {s : Option RobDistributor}
    (run : Run RobStep (robDistributorInit pool).2 tr s) :
    (∀ rob, s = some rob → RobSound rob) ∧
      (∀ rip microOpStart microOpCount h,
        (robAllocateEntry s rip microOpStart microOpCount).2.2 = some h → ¬ Held tr h) ∧
      ∀ bank slot,
        ((robRetireEntry s bank slot).2 = .success ↔ ∃ h, Held tr h ∧ Names bank slot h) ∧
        ((robRetireEntry s bank slot).2 ≠ .success → (robRetireEntry s bank slot).1 = s) := by
  have hI := robInv_of_run run
  cases s with
  | none =>
    refine ⟨by simp, by simp [robAllocateEntry], fun bank slot => ⟨?_, fun _ => rfl⟩⟩
    refine ⟨fun e => absurd e (by simp [robRetireEntry]), ?_⟩
    rintro ⟨h, hh, -⟩
    exact absurd hh (hI h)
  | some rob =>
    obtain ⟨hs, hheld⟩ := hI
    refine ⟨fun rob' e => Option.some.inj e ▸ hs, fun rip start count h hans => ?_,
      fun bank slot => ?_⟩
    · obtain hstall | ⟨b, entry, hlt, hentry, hcall⟩ := robAllocateEntry_cases rob rip start count
      · rw [hstall] at hans
        cases hans
      · rw [hcall] at hans
        cases hans
        rw [hheld, ← mem_allocatedSlots]
        exact (hs.allocatedSlots_allocate hlt hentry).1
    · obtain ⟨hno, status, hstatus, hcall⟩ | ⟨h₀, hn, hst, hcall⟩ :=
        robRetireEntry_cases rob bank slot
      · rw [hcall]
        refine ⟨⟨fun e => absurd e hstatus, ?_⟩, fun _ => rfl⟩
        rintro ⟨h, hh, hn⟩
        exact absurd ((hheld h).mp hh) (hno h hn)
      · rw [hcall]
        exact ⟨⟨fun _ => ⟨h₀, (hheld h₀).mpr hst, hn⟩, fun _ => rfl⟩, fun e => absurd rfl e⟩

/-- Eight allocations in a row: the first bank takes two entries, the others one. -/
theorem robDistributor_sound_allocate :
    ∃ tr s, Run RobStep (robDistributorInit true).2 tr s ∧
      tr.map Event.op = List.replicate 8 (.allocate 0x1000 0 1) ∧
      (robRetireEntry s 0 1).2 = .success ∧ (robRetireEntry s 1 1).2 ≠ .success := by
  obtain ⟨tr, rob, run, hops, -, -, hheld⟩ := robRun_turns (n := 8) (by decide)
  obtain ⟨-, -, hretire⟩ := robDistributor_sound run
  refine ⟨tr, some rob, run, hops, (hretire 0 1).1.mpr ⟨(0, 1), ?_, rfl, rfl⟩, fun h => ?_⟩
  · exact (hheld (0, 1)).mpr (by decide)
  · obtain ⟨⟨b, i⟩, hh, hb, hi⟩ := (hretire 1 1).1.mp h
    have hlt : b.val + 7 * i.val < 8 := (hheld (b, i)).mp hh
    rw [← hb, ← hi] at hlt
    exact absurd hlt (by decide)

end Bemi.Rob
