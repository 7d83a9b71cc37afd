import Mathlib.Algebra.BigOperators.Fin
import Mathlib.Algebra.Order.BigOperators.Group.Finset
import Bemi.Rob.Distributor

/-!
# Allocation in the v7.1 reorder buffer

`RobAllocateEntry` looks at each bank once, in cyclic order from `NextAllocBank`. So it finds a slot
whenever fewer entries are active than there are, the slot is in the first bank that has one, and a
stall is all that a failure leaves behind.
-/

namespace Bemi.Rob
open SlotRing Transition

def robGetTotalEntries : UInt32 := UInt32.ofNat (robBanks * robEntriesPerBank)

def robGetActiveCount (gRob : Option RobDistributor) : UInt32 :=
  match gRob with
  | none => 0
  | some rob =>
    (List.finRange robBanks).foldl (fun total b => total + UInt32.ofNat (rob.banks b).count) 0

/-- A sum of counts, in 32 bits. -/
lemma foldl_count {α : Type*} (count : α → ℕ) (l : List α) (total : UInt32) :
    l.foldl (fun total b => total + UInt32.ofNat (count b)) total =
      total + UInt32.ofNat (l.map count).sum := by
  induction l generalizing total with
  | nil => exact (UInt32.add_zero total).symm
  | cons b l ih =>
    rw [List.foldl_cons, ih, List.map_cons, List.sum_cons, UInt32.ofNat_add, UInt32.add_assoc]

lemma robGetActiveCount_eq (rob : RobDistributor) :
    robGetActiveCount (some rob) = UInt32.ofNat (∑ b, (rob.banks b).count) := by
  rw [robGetActiveCount, foldl_count, UInt32.zero_add, Fin.sum_univ_def]

/-- The banks never hold more entries than there are. -/
lemma RobSound.sum_le {rob : RobDistributor} (hs : RobSound rob) :
    ∑ b, (rob.banks b).count ≤ robBanks * robEntriesPerBank := by
  have h := Finset.sum_le_card_nsmul Finset.univ (fun b => (rob.banks b).count) robEntriesPerBank
    fun b _ => (hs.banks b).count_le
  rwa [Finset.card_univ, Fintype.card_fin] at h

/-- Fewer entries are active than there are exactly when some bank has room. -/
lemma RobSound.active_lt_iff {rob : RobDistributor} (hs : RobSound rob) :
    robGetActiveCount (some rob) < robGetTotalEntries ↔
      ∃ b, (rob.banks b).count < robEntriesPerBank := by
  have hle := hs.sum_le
  have hfit : (robGetActiveCount (some rob)).toNat = ∑ b, (rob.banks b).count := by
    rw [robGetActiveCount_eq]
    exact UInt32.toNat_ofNat_of_lt (Nat.lt_of_le_of_lt hle (by decide))
  have htotal : robGetTotalEntries.toNat = ∑ _b : Fin robBanks, robEntriesPerBank := by
    rw [Finset.sum_const, Finset.card_univ, Fintype.card_fin]
    rfl
  rw [UInt32.lt_iff_toNat_lt, hfit, htotal]
  constructor
  · intro h
    obtain ⟨b, -, hb⟩ := Finset.exists_lt_of_sum_lt h
    exact ⟨b, hb⟩
  · intro h
    obtain ⟨b, hb⟩ := h
    exact Finset.sum_lt_sum (fun c _ => (hs.banks c).count_le) ⟨b, Finset.mem_univ b, hb⟩

/-- No call makes a distributor, and none takes it away. -/
lemma isSome_of_run {pool : Bool} {tr : List RobEvent} {s : Option RobDistributor}
    (run : Run RobStep (robDistributorInit pool).2 tr s) :
    s.isSome = true ↔ (robDistributorInit pool).1 = .success := by
  induction run with
  | nil => cases pool <;> decide
  | @snoc tr s op r s' _ st ih =>
    rw [← ih]
    cases s with
    | none =>
      obtain ⟨rfl, -⟩ := robStep_none st
      rfl
    | some rob =>
      obtain ⟨rob', rfl, -⟩ := robStep_move st
      rfl

/-- After every run from `RobDistributorInit`, `RobAllocateEntry` succeeds exactly when the
initialisation did and fewer entries are active than there are. Then it fills a free slot of the
first bank that has one, in cyclic order from `NextAllocBank`; when it is out of resources it counts
a stall and changes nothing else. -/
theorem robAllocateEntry_complete {pool : Bool} {tr : List RobEvent} {s : Option RobDistributor}
    (run : Run RobStep (robDistributorInit pool).2 tr s) (rip microOpStart : UInt64)
    (microOpCount : UInt32) :
    ((robAllocateEntry s rip microOpStart microOpCount).2.1 = .success ↔
        (robDistributorInit pool).1 = .success ∧ robGetActiveCount s < robGetTotalEntries) ∧
      ((robAllocateEntry s rip microOpStart microOpCount).2.1 = .success →
        ∃ rob b entry, s = some rob ∧ rob.state (b, (rob.banks b).tail) = .free ∧
          (∀ c, (c - rob.nextAllocBank).val < (b - rob.nextAllocBank).val →
            ∀ i, rob.state (c, i) ≠ .free) ∧
          entry.state = .allocated ∧
          robAllocateEntry s rip microOpStart microOpCount =
            (some (rob.allocate b entry), .success, some (b, (rob.banks b).tail))) ∧
      ((robAllocateEntry s rip microOpStart microOpCount).2.1 = .outOfResources →
        ∃ rob, s = some rob ∧
          robAllocateEntry s rip microOpStart microOpCount =
            (some { rob with totalStalls := rob.totalStalls + 1 }, .outOfResources, none)) ∧
      ((robDistributorInit pool).1 ≠ .success →
        robAllocateEntry s rip microOpStart microOpCount = (s, .notReady, none)) := by
  have hinit := isSome_of_run run
  cases s with
  | none =>
    have hno : (robDistributorInit pool).1 ≠ .success := fun h => Bool.false_ne_true (hinit.mpr h)
    refine ⟨iff_of_false ?_ fun h => hno h.1, ?_, ?_, fun _ => rfl⟩
    · rw [robAllocateEntry]
      simp
    · intro h
      cases h
    · intro h
      cases h
  | some rob =>
    obtain ⟨hs, -⟩ := robInv_of_run run
    have hyes := hinit.mp rfl
    rw [and_iff_right hyes, hs.active_lt_iff]
    by_cases hroom : ∃ b, (rob.banks b).count < robEntriesPerBank
    · obtain ⟨b, entry, hlt, hfirst, hentry, hcall⟩ :=
        robAllocateEntry_room hroom rip microOpStart microOpCount
      rw [hcall]
      refine ⟨iff_of_true rfl hroom, fun _ => ?_, ?_, fun h => absurd hyes h⟩
      · refine ⟨rob, b, entry, rfl, (hs.banks b).tail_free hlt, fun c hc i hi => ?_, hentry, rfl⟩
        exact hfirst c hc ((hs.banks c).count_lt_iff.mpr ⟨i, hi⟩)
      · intro h
        cases h
    · rw [robAllocateEntry_full hroom]
      refine ⟨iff_of_false ?_ hroom, ?_, fun _ => ⟨rob, rfl, rfl⟩, fun h => absurd hyes h⟩
      · simp
      · intro h
        cases h

/-- Behind 783 allocations in a row there is one slot left. -/
theorem robAllocateEntry_complete_last :
    ∃ tr s, Run RobStep (robDistributorInit true).2 tr s ∧
      tr.map Event.op = List.replicate 783 (.allocate 0x1000 0 1) ∧
      (robAllocateEntry s 0x1000 0 1).2.1 = .success := by
  obtain ⟨tr, rob, run, hops, -, hbanks, -⟩ := robRun_turns (n := 783) (by decide)
  have hactive : robGetActiveCount (some rob) = 783 := by
    rw [robGetActiveCount_eq, Finset.sum_congr rfl fun b _ => (hbanks b).1]
    rfl
  refine ⟨tr, some rob, run, hops, ?_⟩
  exact (robAllocateEntry_complete run 0x1000 0 1).1.mpr ⟨rfl, hactive ▸ by decide⟩

/-- Without a distributor nothing is active, and still nothing can be allocated. -/
theorem robAllocateEntry_complete_not :
    ¬ ∀ (pool : Bool) (tr : List RobEvent) (s : Option RobDistributor),
      Run RobStep (robDistributorInit pool).2 tr s → ∀ rip microOpStart microOpCount,
        (robAllocateEntry s rip microOpStart microOpCount).2.1 = .success ↔
          robGetActiveCount s < robGetTotalEntries := by
  intro h
  have hfirst := (h false [] none .nil 0x1000 0 1).mpr (by decide)
  cases hfirst

end Bemi.Rob
