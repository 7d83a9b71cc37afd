import Bemi.Efi
import Bemi.Lib.RoundRobin
import Bemi.Lib.SlotRing

/-!
# The v7.2 reorder buffer

Model of the v7.2 half of `performance/rob/robdistributor.c`: a main ring of 1568 compressed entries,
seven extended rings of 9362, and one table of metadata indexed by the reorder tag. The globals keep
their C names; pointers are `Option`s. A call that dereferences `NULL`, or indexes a ring outside
its array, has no result (`none`).

The tags come from one counter modulo 1568 (`gV72MetaTail`), whatever ring the entry goes to.
-/

namespace Bemi.Rob
open SlotRing

abbrev v72RobMainEntries : Nat := 1568
abbrev v72RobExtBanks : Nat := 7
abbrev v72RobExtEntries : Nat := 9362

instance : NeZero v72RobMainEntries := ⟨by decide⟩
instance : NeZero v72RobExtBanks := ⟨by decide⟩
instance : NeZero v72RobExtEntries := ⟨by decide⟩

structure V72RobEntryCompressed where
  reorderTag : BitVec 11
  readyMask : BitVec 3
  state : SlotState
  deriving DecidableEq

instance : SlotEntry V72RobEntryCompressed where
  state := V72RobEntryCompressed.state
  setState e st := { e with state := st }
  state_setState _ _ := rfl

structure V72RobMetadata where
  rip : UInt64
  microOpStart : UInt64
  microOpCount : UInt32
  bankId : UInt32
  slotInBank : UInt32
  allocTick : UInt64

abbrev V72MainRob := Buffer v72RobMainEntries V72RobEntryCompressed
abbrev V72ExtRobBank := Buffer v72RobExtEntries V72RobEntryCompressed

structure V72Globals where
  gV72MainRob : Option V72MainRob
  gV72ExtBanks : Fin v72RobExtBanks → Option V72ExtRobBank
  gV72Meta : Option (Fin v72RobMainEntries → V72RobMetadata)
  gV72MetaHead : UInt32
  gV72MetaTail : Fin v72RobMainEntries
  gV72MetaCount : UInt32
  gV72MainCount : Nat
  gV72MainHead : UInt32
  gV72ExtCounts : Fin v72RobExtBanks → Nat
  gV72NextExtBank : Fin v72RobExtBanks
  gV72TotalAllocations : UInt64
  gV72TotalRetirements : UInt64
  gV72TotalStalls : UInt64
  gV72CycleCounter : UInt64

/-! ## Initialisation -/

def zeroEntryCompressed : V72RobEntryCompressed := ⟨0, 0, .free⟩

def zeroMetadata : V72RobMetadata := ⟨0, 0, 0, 0, 0, 0⟩

/-- The loop over the extended banks, for the banks in `bs`; the flag tells whether it ran to its
end. `pool` tells which calls of `AllocateZeroPool` succeed. -/
def initExtBanks (pool : Nat → Bool) : List (Fin v72RobExtBanks) → V72Globals → V72Globals × Bool
  | [], g => (g, true)
  | i :: bs, g =>
    if pool (i.val + 1) then
      initExtBanks pool bs
        { g with
          gV72ExtBanks := Function.update g.gV72ExtBanks i (some (Buffer.zero zeroEntryCompressed))
          gV72ExtCounts := Function.update g.gV72ExtCounts i 0 }
    else ({ g with gV72ExtBanks := Function.update g.gV72ExtBanks i none }, false)

def v72RobDistributorInit (pool : Nat → Bool) (g : V72Globals) : V72Globals × EfiStatus :=
  if pool 0 then
    let g := { g with gV72MainRob := some (Buffer.zero zeroEntryCompressed) }
    match initExtBanks pool (List.finRange v72RobExtBanks) g with
    | (g, false) => (g, .outOfResources)
    | (g, true) =>
      if pool (v72RobExtBanks + 1) then
        ({ g with
          gV72Meta := some fun _ => zeroMetadata
          gV72MainCount := 0
          gV72MainHead := 0
          gV72MetaHead := 0
          gV72MetaTail := 0
          gV72MetaCount := 0
          gV72NextExtBank := 0
          gV72TotalAllocations := 0
          gV72TotalRetirements := 0
          gV72TotalStalls := 0
          gV72CycleCounter := 0 }, .success)
      else ({ g with gV72Meta := none }, .outOfResources)
  else ({ g with gV72MainRob := none }, .outOfResources)

/-! ## Allocation -/

/-- The end of both branches of an allocation: fill in the metadata of the tag, move on to the next
tag and count. -/
def V72Globals.record (g : V72Globals) (md : Fin v72RobMainEntries → V72RobMetadata)
    (rip microOpStart : UInt64) (microOpCount bankId slotInBank : UInt32) : V72Globals :=
  { g with
    gV72Meta := some (Function.update md g.gV72MetaTail
      { rip, microOpStart, microOpCount, bankId, slotInBank, allocTick := g.gV72CycleCounter })
    gV72MetaTail := g.gV72MetaTail + 1
    gV72MetaCount := g.gV72MetaCount + 1
    gV72TotalAllocations := g.gV72TotalAllocations + 1 }

/-- The scan for an extended bank with room. A `NULL` bank ends it, too: its count is read. -/
def V72Globals.freeExtBank (g : V72Globals) : Option (Fin v72RobExtBanks) :=
  RoundRobin.search (fun eb =>
    match g.gV72ExtBanks eb with
    | none => true
    | some ebp => ebp.count < v72RobExtEntries) g.gV72NextExtBank

/-- The entry written for a tag. -/
def tagEntry (tag : Fin v72RobMainEntries) : V72RobEntryCompressed :=
  ⟨BitVec.ofNat 11 tag.val, 0, .allocated⟩

/-- The globals after an allocation in the main ring. -/
def V72Globals.allocateMain (g : V72Globals) (main : V72MainRob)
    (md : Fin v72RobMainEntries → V72RobMetadata) (rip microOpStart : UInt64)
    (microOpCount : UInt32) : V72Globals :=
  V72Globals.record
    { g with
      gV72MainRob := some (main.put (tagEntry g.gV72MetaTail))
      gV72MainCount := g.gV72MainCount + 1 }
    md rip microOpStart microOpCount 0xFFFFFFFF (UInt32.ofNat main.tail.val)

/-- The globals after an allocation in an extended ring. -/
def V72Globals.allocateExt (g : V72Globals) (eb : Fin v72RobExtBanks) (ebp : V72ExtRobBank)
    (md : Fin v72RobMainEntries → V72RobMetadata) (rip microOpStart : UInt64)
    (microOpCount : UInt32) : V72Globals :=
  V72Globals.record
    { g with
      gV72NextExtBank := eb + 1
      gV72ExtBanks := Function.update g.gV72ExtBanks eb (some (ebp.put (tagEntry g.gV72MetaTail)))
      gV72ExtCounts := Function.update g.gV72ExtCounts eb (g.gV72ExtCounts eb + 1) }
    md rip microOpStart microOpCount (UInt32.ofNat eb.val) (UInt32.ofNat ebp.tail.val)

/-- The status and, on success, the tag written to `ReorderTag`. -/
def v72RobAllocateEntry (g : V72Globals) (rip microOpStart : UInt64) (microOpCount : UInt32) :
    Option (V72Globals × EfiStatus × Option (Fin v72RobMainEntries)) :=
  match g.gV72MainRob with
  | none => some (g, .notReady, none)
  | some main =>
    let tag := g.gV72MetaTail
    if g.gV72MainCount < v72RobMainEntries then
      match g.gV72Meta with
      | none => none
      | some md =>
        some (g.allocateMain main md rip microOpStart microOpCount, .success, some tag)
    else
      match g.freeExtBank with
      | none =>
        some ({ g with gV72TotalStalls := g.gV72TotalStalls + 1 }, .outOfResources, none)
      | some eb =>
        match g.gV72ExtBanks eb, g.gV72Meta with
        | some ebp, some md =>
          some (g.allocateExt eb ebp md rip microOpStart microOpCount, .success, some tag)
        | _, _ => none

section
variable {g : V72Globals} {main : V72MainRob} {md : Fin v72RobMainEntries → V72RobMetadata}
  (rip microOpStart : UInt64) (microOpCount : UInt32)

/-- With room in the main ring the entry goes there. -/
lemma v72RobAllocateEntry_main (hmain : g.gV72MainRob = some main) (hmd : g.gV72Meta = some md)
    (hroom : g.gV72MainCount < v72RobMainEntries) :
    v72RobAllocateEntry g rip microOpStart microOpCount =
      some (g.allocateMain main md rip microOpStart microOpCount, .success,
        some g.gV72MetaTail) := by
  simp only [v72RobAllocateEntry, hmain, hmd, if_pos hroom]

/-- With the main ring full the entry goes to an extended ring with room. -/
lemma v72RobAllocateEntry_ext (hmain : g.gV72MainRob = some main) (hmd : g.gV72Meta = some md)
    (hroom : ¬ g.gV72MainCount < v72RobMainEntries) {eb : Fin v72RobExtBanks}
    {ebp : V72ExtRobBank} (hfree : g.freeExtBank = some eb) (hext : g.gV72ExtBanks eb = some ebp) :
    v72RobAllocateEntry g rip microOpStart microOpCount =
      some (g.allocateExt eb ebp md rip microOpStart microOpCount, .success,
        some g.gV72MetaTail) := by
  simp only [v72RobAllocateEntry, hmain, hmd, if_neg hroom, hfree, hext]

/-- With all rings full the allocation stalls. -/
lemma v72RobAllocateEntry_stall (hmain : g.gV72MainRob = some main)
    (hroom : ¬ g.gV72MainCount < v72RobMainEntries) (hfree : g.freeExtBank = none) :
    v72RobAllocateEntry g rip microOpStart microOpCount =
      some ({ g with gV72TotalStalls := g.gV72TotalStalls + 1 }, .outOfResources, none) := by
  simp only [v72RobAllocateEntry, hmain, if_neg hroom, hfree]

end

/-! ## Retirement -/

/-- Mark the entry in a slot RETIRED and drain the head. -/
def retireSlot {n : Nat} [NeZero n] (ring : Buffer n V72RobEntryCompressed) (slot : Fin n) :
    Buffer n V72RobEntryCompressed :=
  (ring.set slot { ring.slots slot with state := .retired }).drain

/-- The globals after a retirement in the main ring; `gV72MainCount` goes down with each slot that
the draining loop frees. -/
def V72Globals.retireMain (g : V72Globals) (main : V72MainRob) (slot : Fin v72RobMainEntries) :
    V72Globals :=
  { g with
    gV72MainRob := some (retireSlot main slot)
    gV72MainCount := g.gV72MainCount - (main.count - (retireSlot main slot).count)
    gV72TotalRetirements := g.gV72TotalRetirements + 1 }

/-- The globals after a retirement in an extended ring. -/
def V72Globals.retireExt (g : V72Globals) (eb : Fin v72RobExtBanks) (ebp : V72ExtRobBank)
    (slot : Fin v72RobExtEntries) : V72Globals :=
  { g with
    gV72ExtBanks := Function.update g.gV72ExtBanks eb (some (retireSlot ebp slot))
    gV72ExtCounts := Function.update g.gV72ExtCounts eb
      (g.gV72ExtCounts eb - (ebp.count - (retireSlot ebp slot).count))
    gV72TotalRetirements := g.gV72TotalRetirements + 1 }

def v72RobRetireEntry (g : V72Globals) (reorderTag : UInt32) : Option (V72Globals × EfiStatus) :=
  match g.gV72MainRob with
  | none => some (g, .notReady)
  | some main =>
    if htag : reorderTag.toNat < v72RobMainEntries then
      match g.gV72Meta with
      | none => none
      | some md =>
        let m := md ⟨reorderTag.toNat, htag⟩
        if m.bankId = 0xFFFFFFFF then
          if main.count = 0 then some (g, .notReady)
          else if hslot : m.slotInBank.toNat < v72RobMainEntries then
            some (g.retireMain main ⟨m.slotInBank.toNat, hslot⟩, .success)
          else none
        else if heb : m.bankId.toNat < v72RobExtBanks then
          let eb : Fin v72RobExtBanks := ⟨m.bankId.toNat, heb⟩
          match g.gV72ExtBanks eb with
          | none => some (g, .notReady)
          | some ebp =>
            if ebp.count = 0 then some (g, .notReady)
            else if hslot : m.slotInBank.toNat < v72RobExtEntries then
              some (g.retireExt eb ebp ⟨m.slotInBank.toNat, hslot⟩, .success)
            else none
        else some (g, .invalidParameter)
    else some (g, .invalidParameter)

def v72RobTick (g : V72Globals) : V72Globals :=
  { g with gV72CycleCounter := g.gV72CycleCounter + 1 }

/-! ## Sizes -/

def v72RobGetTotalEntries : Nat :=
  v72RobMainEntries + v72RobExtBanks * v72RobExtEntries

def v72RobGetActiveCount (g : V72Globals) : Nat :=
  match g.gV72MainRob with
  | none => 0
  | some main =>
    (List.finRange v72RobExtBanks).foldl (fun total i =>
      match g.gV72ExtBanks i with
      | none => total
      | some ebp => total + ebp.count) main.count

end Bemi.Rob
