import Bemi.Rob.V72Rings

/-!
# Retirement by tag

Whether `V72RobRetireEntry` succeeds only for the tags of allocations not retired yet. Nothing in the
metadata of a tag says so: the function succeeds whenever the ring they name is not empty, whatever
has become of the allocation, and for a tag never given out they name slot 0 of the first extended
bank. Besides, `gV72MetaCount` only goes up.
-/

namespace Bemi.Rob
open SlotRing Transition

/-- The tags of the allocations not retired yet, after a call. -/
def tagsAfter (live : List Nat) : V72Call → V72Answer → List Nat
  | .allocate .., (_, some tag) => tag.val :: live
  | .retire reorderTag, (.success, _) => live.erase reorderTag.toNat
  | _, _ => live

/-- One call, with the tags of the allocations not retired yet. -/
inductive LiveStep : V72Globals × List Nat → V72Call → V72Answer → V72Globals × List Nat → Prop where
  | mk {g op r g'} (live : List Nat) :
    V72CallStep g op r g' →
    LiveStep (g, live) op r (g', tagsAfter live op r)

abbrev LiveEvent := Event (V72Globals × List Nat) V72Call V72Answer

/-- The counters agree with the allocations not retired yet. -/
def CountsLive (x : V72Globals × List Nat) : Prop :=
  x.1.gV72TotalRetirements ≤ x.1.gV72TotalAllocations ∧ x.1.gV72MetaCount.toNat = x.2.length

/-- A retirement succeeds only for the tag of an allocation not retired yet, and changes nothing if it
does not succeed. -/
def RetireOnce (ev : LiveEvent) : Prop :=
  ∀ reorderTag, ev.op = .retire reorderTag →
    ∀ g' status, v72RobRetireEntry ev.before.1 reorderTag = some (g', status) →
      (status = .success → reorderTag.toNat ∈ ev.before.2) ∧ (status ≠ .success → g' = ev.before.1)

/-- The ring that the metadata of a retired tag name is empty. -/
def NamesEmpty (ev : LiveEvent) : Prop :=
  ∀ reorderTag, ev.op = .retire reorderTag → ev.before.1.entriesNamed reorderTag = 0

/-- It is empty if the tag is not that of an allocation not retired yet. -/
def StaleNamesEmpty (ev : LiveEvent) : Prop :=
  ∀ reorderTag, ev.op = .retire reorderTag → reorderTag.toNat ∉ ev.before.2 →
    ev.before.1.entriesNamed reorderTag = 0

/-- As long as nothing has been retired, the entries are the allocations. -/
def NothingRetired (x : V72Globals × List Nat) : Prop :=
  ∃ c, V72Rings x.1 c ∧ c.entries = x.2.length ∧ x.1.gV72MetaCount.toNat = x.2.length ∧
    x.1.gV72TotalRetirements = 0

/-- Calls that retire from empty rings only keep it so. -/
lemma nothingRetired_step {x x' : V72Globals × List Nat} {op : V72Call} {r : V72Answer}
    (hI : NothingRetired x) (st : LiveStep x op r x') (hempty : NamesEmpty ⟨x, op, r⟩) :
    NothingRetired x' := by
  obtain ⟨c, hs, hentries, hmeta, hretired⟩ := hI
  cases st with
  | @mk g op r g' live hcall =>
    cases op with
    | allocate rip microOpStart microOpCount =>
      obtain ⟨-, hstall⟩ | ⟨-, g₁, c₁, hok, hs₁, hentries₁, hmeta₁, hretired₁⟩ :=
        v72RobAllocateEntry_rings hs rip microOpStart microOpCount
      · cases hcall.symm.trans hstall
        exact ⟨c, hs.stall, hentries, hmeta, hretired⟩
      · cases hcall.symm.trans hok
        refine ⟨c₁, hs₁, hentries₁.trans (congrArg (· + 1) hentries), ?_, hretired₁.trans hretired⟩
        -- the rings hold far fewer entries than the counter can count
        have hle := hs₁.entries_le
        have htotal : v72RobGetTotalEntries = 67102 := rfl
        rw [hmeta₁, UInt32.toNat_add, hmeta, Nat.mod_eq_of_lt]
        · rfl
        · change live.length + 1 < 2 ^ 32
          dsimp only at hentries
          omega
    | tick =>
      cases hcall
      exact ⟨c, hs.tick, hentries, hmeta, hretired⟩
    | retire reorderTag =>
      obtain ⟨-, status, hstatus, hfail⟩ | ⟨hne, -⟩ := v72RobRetireEntry_rings hs reorderTag
      · cases hcall.symm.trans (V72CallStep.retire hfail)
        have hlive : tagsAfter live (.retire reorderTag) (status, none) = live := by
          cases status with
          | success => exact absurd rfl hstatus
          | _ => rfl
        rw [hlive]
        exact ⟨c, hs, hentries, hmeta, hretired⟩
      · exact absurd (hempty reorderTag rfl) hne

/-- A retirement that finds an empty ring fails. -/
lemma retireOnce_iff {x : V72Globals × List Nat} (h : ∃ c, V72Rings x.1 c) (op : V72Call)
    (r : V72Answer) : RetireOnce ⟨x, op, r⟩ ↔ StaleNamesEmpty ⟨x, op, r⟩ := by
  obtain ⟨c, hs⟩ := h
  refine forall₂_congr fun reorderTag _ => ?_
  obtain ⟨hzero, status, hstatus, hfail⟩ | ⟨hne, g₁, c₁, hok, -⟩ :=
    v72RobRetireEntry_rings hs reorderTag
  · refine iff_of_true (fun g' status' hcall => ?_) fun _ => hzero
    cases hcall.symm.trans hfail
    exact ⟨fun h => absurd h hstatus, fun _ => rfl⟩
  · constructor
    · exact fun h hstale => absurd ((h g₁ .success hok).1 rfl) hstale
    · intro h g' status hcall
      cases hcall.symm.trans hok
      exact ⟨fun _ => not_not.mp fun hstale => hne (h hstale), fun h => absurd rfl h⟩

/-- A retirement after which the counters still agree has found an empty ring. -/
lemma namesEmpty_step {x x' : V72Globals × List Nat} {op : V72Call} {r : V72Answer}
    (hI : NothingRetired x) (st : LiveStep x op r x') (honce : RetireOnce ⟨x, op, r⟩)
    (hcounts : CountsLive x') : NamesEmpty ⟨x, op, r⟩ := by
  obtain ⟨c, hs, -, hmeta, -⟩ := hI
  rintro reorderTag rfl
  cases st with
  | @mk g _ r g' live hcall =>
    obtain ⟨hzero, -⟩ | ⟨-, g₁, c₁, hok, -, hmeta₁⟩ := v72RobRetireEntry_rings hs reorderTag
    · exact hzero
    · -- a success gives up a tag, and the count of the metadata stays
      cases hcall.symm.trans (V72CallStep.retire hok)
      have hlive : reorderTag.toNat ∈ live := (honce reorderTag rfl g' .success hok).1 rfl
      have hcount : g'.gV72MetaCount.toNat = (live.erase reorderTag.toNat).length := hcounts.2
      have hpos := List.length_pos_of_mem hlive
      rw [List.length_erase_of_mem hlive, hmeta₁, hmeta] at hcount
      dsimp only at hcount
      omega

lemma liveStep_rings {x x' : V72Globals × List Nat} {op : V72Call} {r : V72Answer}
    (hI : ∃ c, V72Rings x.1 c) (st : LiveStep x op r x') : ∃ c, V72Rings x'.1 c := by
  cases st with
  | mk live hcall => exact hcall.rings hI

lemma nothingRetired_init {pool : Nat → Bool} {g : V72Globals}
    (h : (v72RobDistributorInit pool g).2 = .success) :
    NothingRetired ((v72RobDistributorInit pool g).1, []) := by
  obtain ⟨g₁, -, hinit⟩ := v72RobDistributorInit_success h
  refine ⟨zeroCore, v72Rings_init h, ?_, ?_, ?_⟩
  · rw [V72Core.entries]
    exact Nat.add_eq_zero_iff.mpr ⟨rfl, Finset.sum_eq_zero fun _ _ => rfl⟩
  · rw [hinit]
    rfl
  · rw [hinit]

/-- In a run from a successful initialisation with any tags, every retirement is one of an allocation
not retired yet and the counters agree with those allocations, exactly when every retirement finds
an empty ring. The retirements alone are right exactly when those of other tags do. -/
theorem retireOnce_run_iff {pool : Nat → Bool} {g : V72Globals}
    (hinit : (v72RobDistributorInit pool g).2 = .success) {tr : List LiveEvent}
    {x : V72Globals × List Nat} (run : Run LiveStep ((v72RobDistributorInit pool g).1, []) tr x) :
    ((Always CountsLive tr x ∧ ∀ ev ∈ tr, RetireOnce ev) ↔ ∀ ev ∈ tr, NamesEmpty ev) ∧
      ((∀ ev ∈ tr, RetireOnce ev) ↔ ∀ ev ∈ tr, StaleNamesEmpty ev) := by
  constructor
  · apply Run.always_iff (I := NothingRetired) (nothingRetired_init hinit) _ _ _ _ run
    · exact fun _ _ _ _ hI st hempty => nothingRetired_step hI st hempty
    · rintro ⟨g', live⟩ ⟨c, -, -, hmeta, hretired⟩
      refine ⟨?_, hmeta⟩
      rw [hretired]
      exact UInt64.zero_le
    · rintro y op r y' ⟨c, hs, -⟩ - hempty
      exact (retireOnce_iff ⟨c, hs⟩ op r).mpr fun reorderTag hop _ => hempty reorderTag hop
    · exact fun _ _ _ _ hI st honce hcounts => namesEmpty_step hI st honce hcounts
  · refine forall₂_congr fun ev hev => ?_
    obtain ⟨pre, post, hsplit⟩ := List.append_of_mem hev
    have hrings := (run.split hsplit).1.history (I := fun _ y => ∃ c, V72Rings y.1 c)
      ⟨zeroCore, v72Rings_init hinit⟩ fun _ _ _ _ _ hI st => liveStep_rings hI st
    exact retireOnce_iff hrings ev.op ev.answer

/-- A retirement before any allocation, of a tag never given out, finds an empty ring. -/
theorem retireOnce_run_iff_early :
    ∃ tr x, Run LiveStep (v72Start.g, []) tr x ∧ tr.map Event.op = [.retire 5] ∧
      Always CountsLive tr x ∧ ∀ ev ∈ tr, RetireOnce ev := by
  have hinit : (v72RobDistributorInit (fun _ => true) zeroGlobals).2 = .success := rfl
  obtain ⟨g', r, hcall, -⟩ := (v72Rings_init hinit).call (.retire 5)
  have hrun : Run LiveStep (v72Start.g, []) _ _ := Run.nil.snoc (.mk [] hcall)
  refine ⟨_, _, hrun, rfl, (retireOnce_run_iff hinit hrun).1.mpr ?_⟩
  rw [List.nil_append, List.forall_mem_singleton]
  rintro reorderTag ⟨⟩
  rfl

/-- Two allocations, and the first one retired twice: the second retirement succeeds, too. -/
theorem retireOnce_run_not :
    ¬ ∀ tr x, Run LiveStep (v72Start.g, []) tr x →
      Always CountsLive tr x ∧ ∀ ev ∈ tr, RetireOnce ev := by
  intro h
  have hs₀ : V72Sound v72Start.g zeroCore := (v72RobDistributorInit_spec rfl).1
  have hs₁ := hs₀.allocateMain (by decide) 0x1000 0 1
  have hs₂ := hs₁.allocateMain (by decide) 0x2000 0 1
  have hs₃ := @V72Sound.retireMain _ _ hs₂ 0 rfl
  have hcall₁ := v72RobAllocateEntry_main 0x1000 0 1 hs₀.points.main hs₀.points.md
    (hs₀.mainCount ▸ by decide)
  have hcall₂ := v72RobAllocateEntry_main 0x2000 0 1 hs₁.points.main hs₁.points.md
    (hs₁.mainCount ▸ by decide)
  have hcall₃ := @v72RobRetireEntry_main _ _ hs₂ 0 0 rfl rfl rfl
  have hrun : Run LiveStep (v72Start.g, []) _ _ :=
    Run.nil.snoc (.mk [] (.allocate hcall₁)) |>.snoc (.mk _ (.allocate hcall₂))
      |>.snoc (.mk _ (.retire hcall₃))
  have hrings := hrun.history (I := fun _ y => ∃ c, V72Rings y.1 c)
    ⟨zeroCore, v72Rings_init rfl⟩ fun _ _ _ _ _ hI st => liveStep_rings hI st
  obtain ⟨c, hs⟩ := hrings
  obtain ⟨g', r, hcall₄, -⟩ := hs.call (.retire 0)
  have honce := (h _ _ (hrun.snoc (.mk _ hcall₄))).2
  rw [forall_mem_snoc, retireOnce_iff ⟨c, hs⟩] at honce
  -- the second allocation is still in flight
  have hne : (1 : Fin v72RobMainEntries) ≠ 0 := by decide
  have hstale : (0 : UInt32).toNat ∉ [1] := by decide
  refine @count_ne_zero _ _ 1 hs₃.main ?_ (honce.2 0 rfl hstale)
  exact (retireSlot_allocated _ 0).mpr ⟨hne, rfl⟩

end Bemi.Rob
