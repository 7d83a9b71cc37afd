import Bemi.Rob.V72Rings

/-!
# Failed initialisation of the v7.2 reorder buffer

`V72RobDistributorInit` makes nine allocations and returns an error at the first that fails, with
what it allocated before left in the globals. Both operations judge readiness by the pointer to the
main ring alone. A failure of the very first allocation therefore leaves the buffer not ready for
good; after any other failure the next allocation of an entry gets past the check.
-/

namespace Bemi.Rob
open SlotRing Transition

/-- A call has a result, and an allocation or retirement answers `EFI_NOT_READY`. -/
def V72Globals.Refuses (g : V72Globals) (op : V72Call) : Prop :=
  ∃ r g', V72CallStep g op r g' ∧ (op ≠ .tick → r.1 = .notReady)

/-- Whatever calls are made, none dereferences `NULL` and all are refused. -/
def V72Globals.NotReady (g : V72Globals) : Prop :=
  ∀ tr g', Run V72CallStep g tr g' → ∀ op, g'.Refuses op

/-! ## What the checks see -/

section
variable {g : V72Globals}

/-- Without a main ring every call is refused, and changes no pointer. -/
lemma call_of_null (hmain : g.gV72MainRob = none) (op : V72Call) :
    ∃ r g', g.call op = some (g', r) ∧ g'.gV72MainRob = none ∧ (op ≠ .tick → r.1 = .notReady) := by
  cases op with
  | allocate rip microOpStart microOpCount =>
    refine ⟨(.notReady, none), g, ?_, hmain, fun _ => rfl⟩
    rw [V72Globals.call, v72RobAllocateEntry, hmain]
  | tick => exact ⟨_, v72RobTick g, rfl, hmain, fun h => absurd rfl h⟩
  | retire reorderTag =>
    refine ⟨(.notReady, none), g, ?_, hmain, fun _ => rfl⟩
    rw [V72Globals.call, v72RobRetireEntry, hmain]
    rfl

lemma null_step {g' : V72Globals} {op : V72Call} {r : V72Answer} (hmain : g.gV72MainRob = none)
    (st : V72CallStep g op r g') : g'.gV72MainRob = none := by
  obtain ⟨r₁, g₁, hcall, hnull, -⟩ := call_of_null hmain op
  rw [V72CallStep, hcall] at st
  cases st
  exact hnull

/-- Without a main ring the buffer is not ready, and stays so. -/
lemma notReady_of_null (hmain : g.gV72MainRob = none) : g.NotReady := by
  intro tr g' run op
  have hnull : g'.gV72MainRob = none :=
    run.history (I := fun _ g => g.gV72MainRob = none) hmain
      fun _ _ _ _ _ h st => null_step h st
  obtain ⟨r, g₁, hcall, -, hr⟩ := call_of_null hnull op
  exact ⟨r, g₁, hcall, hr⟩

/-- With a main ring an allocation does not answer `EFI_NOT_READY`, whatever the other pointers. -/
lemma v72RobAllocateEntry_ne_notReady {g' : V72Globals} {main : V72MainRob}
    {rip microOpStart : UInt64} {microOpCount : UInt32} {r : V72Answer}
    (hmain : g.gV72MainRob = some main)
    (h : v72RobAllocateEntry g rip microOpStart microOpCount = some (g', r)) :
    r.1 ≠ .notReady := by
  intro hr
  rw [v72RobAllocateEntry, hmain] at h
  dsimp only at h
  split at h
  · split at h
    · cases h
    · cases h
      cases hr
  · split at h
    · cases h
      cases hr
    · split at h
      · cases h
        cases hr
      · cases h

/-- With a main ring the next allocation of an entry is not refused. -/
lemma not_notReady {main : V72MainRob} (hmain : g.gV72MainRob = some main) : ¬ g.NotReady := by
  intro h
  obtain ⟨r, g', st, hr⟩ := h [] g .nil (.allocate 0 0 0)
  exact v72RobAllocateEntry_ne_notReady hmain st (hr nofun)

end

/-! ## What the initialisation leaves -/

/-- The loop over the extended banks runs to its end when all its allocations succeed. -/
lemma initExtBanks_snd (pool : Nat → Bool) (bs : List (Fin v72RobExtBanks)) (g : V72Globals) :
    (initExtBanks pool bs g).2 = true ↔ ∀ i ∈ bs, pool (i.val + 1) = true := by
  induction bs generalizing g with
  | nil => exact iff_of_true rfl (List.forall_mem_nil _)
  | cons i bs ih =>
    rw [initExtBanks, List.forall_mem_cons]
    split
    · rename_i hi
      rw [ih]
      exact ⟨fun h => ⟨hi, h⟩, fun h => h.2⟩
    · rename_i hi
      exact iff_of_false Bool.false_ne_true fun h => hi h.1

/-- The main ring is there unless the first allocation failed. -/
lemma v72RobDistributorInit_main (pool : Nat → Bool) (g : V72Globals) :
    (v72RobDistributorInit pool g).1.gV72MainRob =
      if pool 0 then some (Buffer.zero zeroEntryCompressed) else none := by
  have hbanks := initExtBanks_main pool (List.finRange v72RobExtBanks)
    { g with gV72MainRob := some (Buffer.zero zeroEntryCompressed) }
  cases h0 : pool 0 with
  | false => simp only [v72RobDistributorInit, h0, Bool.false_eq_true, if_false]
  | true =>
    rcases hinit : initExtBanks pool (List.finRange v72RobExtBanks)
      { g with gV72MainRob := some (Buffer.zero zeroEntryCompressed) } with ⟨g₁, ok⟩
    rw [hinit] at hbanks
    cases ok with
    | false => simpa only [v72RobDistributorInit, h0, if_true, hinit] using hbanks
    | true =>
      simp only [v72RobDistributorInit, h0, if_true, hinit]
      split
      · exact hbanks
      · exact hbanks

/-- The initialisation succeeds when its nine allocations do. -/
lemma v72RobDistributorInit_success_iff (pool : Nat → Bool) (g : V72Globals) :
    (v72RobDistributorInit pool g).2 = .success ↔
      ∀ i < v72RobExtBanks + 2, pool i = true := by
  have hsplit : (∀ i < v72RobExtBanks + 2, pool i = true) ↔ pool 0 = true ∧
      (∀ i ∈ List.finRange v72RobExtBanks, pool (i.val + 1) = true) ∧
      pool (v72RobExtBanks + 1) = true := by
    constructor
    · intro h
      exact ⟨h 0 (by omega), fun i _ => h (i.val + 1) (by omega), h (v72RobExtBanks + 1) (by omega)⟩
    · rintro ⟨h0, hbank, hmeta⟩ i hi
      cases i with
      | zero => exact h0
      | succ j =>
        rcases Nat.lt_or_ge j v72RobExtBanks with hj | hj
        · exact hbank ⟨j, hj⟩ (List.mem_finRange _)
        · rw [Nat.le_antisymm (by omega) hj]
          exact hmeta
  have hbanks := initExtBanks_snd pool (List.finRange v72RobExtBanks)
    { g with gV72MainRob := some (Buffer.zero zeroEntryCompressed) }
  rw [hsplit, ← hbanks]
  cases h0 : pool 0 with
  | false => simp [v72RobDistributorInit, h0]
  | true =>
    rcases hinit : initExtBanks pool (List.finRange v72RobExtBanks)
      { g with gV72MainRob := some (Buffer.zero zeroEntryCompressed) } with ⟨g₁, ok⟩
    cases ok with
    | false => simp [v72RobDistributorInit, h0, hinit]
    | true =>
      cases hmeta : pool (v72RobExtBanks + 1) with
      | false => simp [v72RobDistributorInit, h0, hinit, hmeta]
      | true => simp [v72RobDistributorInit, h0, hinit, hmeta]

/-- A failed initialisation leaves the buffer not ready exactly when it failed at its first
allocation. -/
theorem failedInit_notReady_iff (pool : Nat → Bool) (g : V72Globals) :
    ((v72RobDistributorInit pool g).2 ≠ .success → (v72RobDistributorInit pool g).1.NotReady) ↔
      pool 0 = false ∨ ∀ i < v72RobExtBanks + 2, pool i = true := by
  have hmain := v72RobDistributorInit_main pool g
  rw [Ne, v72RobDistributorInit_success_iff, ← or_iff_not_imp_left, or_comm]
  refine or_congr_left ?_
  cases hpool : pool 0 with
  | false =>
    rw [hpool] at hmain
    exact ⟨fun _ => rfl, fun _ => notReady_of_null hmain⟩
  | true =>
    rw [hpool] at hmain
    exact ⟨fun h => absurd h (not_notReady hmain), nofun⟩

/-- The ninth allocation, of the metadata, fails: the next allocation of an entry dereferences
`NULL`. -/
theorem failedInit_notReady_not :
    (v72RobDistributorInit (fun i => i != 8) zeroGlobals).2 = .outOfResources ∧
      v72RobAllocateEntry (v72RobDistributorInit (fun i => i != 8) zeroGlobals).1 0x1000 0 1 = none ∧
      ¬ (v72RobDistributorInit (fun i => i != 8) zeroGlobals).1.NotReady :=
  ⟨rfl, rfl, not_notReady (v72RobDistributorInit_main _ _)⟩

end Bemi.Rob
