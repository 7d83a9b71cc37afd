import Bemi.Rob.V72Turns

/-!
# Reorder tags

Whether the tags of the v7.2 reorder buffer identify the entries in flight. There are far more slots
than tags, so a tag can be given out again while the allocation it was first given to is still in
flight. `tagsIdentify_iff` shows that nothing else goes wrong.
-/

namespace Bemi.Rob
open SlotRing Transition

/-! ## From initialisation -/

/-- The loop over the extended banks keeps the main ring. -/
lemma initExtBanks_main (pool : Nat → Bool) (bs : List (Fin v72RobExtBanks)) (g : V72Globals) :
    (initExtBanks pool bs g).1.gV72MainRob = g.gV72MainRob := by
  induction bs generalizing g with
  | nil => rfl
  | cons i bs ih =>
    rw [initExtBanks]
    split
    · exact ih _
    · rfl

/-- What the loop stores for each bank is there for the banks it has been through. -/
lemma initExtBanks_field {γ : Type} {f : V72Globals → Fin v72RobExtBanks → γ} {z : γ}
    (hf : ∀ (g : V72Globals) i, f { g with
      gV72ExtBanks := Function.update g.gV72ExtBanks i (some (Buffer.zero zeroEntryCompressed))
      gV72ExtCounts := Function.update g.gV72ExtCounts i 0 } = Function.update (f g) i z)
    {pool : Nat → Bool} {bs : List (Fin v72RobExtBanks)} {g g' : V72Globals}
    (h : initExtBanks pool bs g = (g', true)) : ∀ b, b ∈ bs ∨ f g b = z → f g' b = z := by
  induction bs generalizing g with
  | nil =>
    cases h
    exact fun b hb => hb.resolve_left List.not_mem_nil
  | cons i bs ih =>
    rw [initExtBanks] at h
    split at h
    · refine fun b hb => ih h b ?_
      rw [hf]
      by_cases hbi : b = i
      · subst hbi
        exact .inr (Function.update_self ..)
      · refine hb.imp (fun hmem => (List.mem_cons.mp hmem).resolve_left hbi) fun hz => ?_
        exact (Function.update_of_ne hbi ..).trans hz
    · cases h

/-- What the globals point to after a successful initialisation. -/
def zeroCore : V72Core :=
  ⟨Buffer.zero zeroEntryCompressed, fun _ => Buffer.zero zeroEntryCompressed, fun _ => zeroMetadata⟩

lemma zeroRing_wellFormed {n : Nat} [NeZero n] :
    (Buffer.zero zeroEntryCompressed : Buffer n V72RobEntryCompressed).ring.WellFormed := by
  rw [Buffer.ring_zero rfl]
  exact Ring.empty_wellFormed

/-- An initialisation that succeeds has been through all banks. -/
lemma v72RobDistributorInit_success {pool : Nat → Bool} {g : V72Globals}
    (h : (v72RobDistributorInit pool g).2 = .success) :
    ∃ g₁, initExtBanks pool (List.finRange v72RobExtBanks)
          { g with gV72MainRob := some (Buffer.zero zeroEntryCompressed) } = (g₁, true) ∧
      (v72RobDistributorInit pool g).1 =
        { g₁ with
          gV72Meta := some fun _ => zeroMetadata
          gV72MainCount := 0
          gV72MainHead := 0
          gV72MetaHead := 0
          gV72MetaTail := 0
          gV72MetaCount := 0
          gV72NextExtBank := 0
          gV72TotalAllocations := 0
          gV72TotalRetirements := 0
          gV72TotalStalls := 0
          gV72CycleCounter := 0 } := by
  by_cases h0 : pool 0 = true
  · rcases hinit : initExtBanks pool (List.finRange v72RobExtBanks)
      { g with gV72MainRob := some (Buffer.zero zeroEntryCompressed) } with ⟨g₁, ok⟩
    cases ok with
    | false => simp [v72RobDistributorInit, h0, hinit] at h
    | true =>
      by_cases h8 : pool (v72RobExtBanks + 1) = true
      · refine ⟨g₁, rfl, ?_⟩
        simp only [v72RobDistributorInit, if_pos h0, hinit, if_pos h8]
      · simp [v72RobDistributorInit, h0, hinit, h8] at h
  · simp [v72RobDistributorInit, h0] at h

lemma v72RobDistributorInit_spec {pool : Nat → Bool} {g : V72Globals}
    (h : (v72RobDistributorInit pool g).2 = .success) :
    V72Sound (v72RobDistributorInit pool g).1 zeroCore ∧
      (v72RobDistributorInit pool g).1.gV72MetaTail = 0 ∧
      (v72RobDistributorInit pool g).1.gV72NextExtBank = 0 := by
  obtain ⟨g₁, hbanks, hinit⟩ := v72RobDistributorInit_success h
  have hmain := initExtBanks_main pool (List.finRange v72RobExtBanks)
    { g with gV72MainRob := some (Buffer.zero zeroEntryCompressed) }
  rw [hbanks] at hmain
  have hext := initExtBanks_field (f := V72Globals.gV72ExtBanks) (fun _ _ => rfl) hbanks
  rw [hinit]
  exact ⟨⟨⟨hmain, fun b => hext b (.inl (List.mem_finRange b)), rfl⟩, zeroRing_wellFormed,
    fun _ => zeroRing_wellFormed, rfl⟩, rfl, rfl⟩

lemma v72Inv_init {pool : Nat → Bool} {g : V72Globals}
    (h : (v72RobDistributorInit pool g).2 = .success) :
    V72Inv ⟨(v72RobDistributorInit pool g).1, []⟩ := by
  have hfree (p : Position) : (zeroCore.entryAt p).state = .free := by
    cases p <;> rfl
  refine ⟨zeroCore, (v72RobDistributorInit_spec h).1, by simp, by simp, fun p => ?_, by simp,
    by simp⟩
  simp [hfree]

/-- The globals before any call. -/
def zeroGlobals : V72Globals :=
  ⟨none, fun _ => none, none, 0, 0, 0, 0, 0, fun _ => 0, 0, 0, 0, 0, 0⟩

/-- The state after a successful initialisation. -/
def v72Start : V72State :=
  ⟨(v72RobDistributorInit (fun _ => true) zeroGlobals).1, []⟩

/-- The first 1568 allocations fill the main ring and use up the tags, one after the other. -/
lemma run_fill {n : Nat} (h : n ≤ v72RobMainEntries) :
    ∃ tr s c, Run V72Step v72Start tr s ∧ tr.length = n ∧
      (∀ ev ∈ tr, ev.op = .allocate 0x1000 0 1) ∧ V72Sound s.g c ∧ c.ext = zeroCore.ext ∧
      s.g.gV72NextExtBank = 0 ∧ c.main.count = n ∧
      s.g.gV72MetaTail.val = n % v72RobMainEntries ∧
      ∀ m < n, ∃ a ∈ s.live, a.tag.val = m := by
  induction n with
  | zero =>
    obtain ⟨hs, htail, hext⟩ := @v72RobDistributorInit_spec (fun _ => true) zeroGlobals rfl
    exact ⟨[], v72Start, zeroCore, .nil, rfl, by simp, hs, rfl, hext, rfl,
      congrArg Fin.val htail, fun m hm => absurd hm (Nat.not_lt_zero m)⟩
  | succ n ih =>
    obtain ⟨tr, s, c, run, hlen, hops, hs, hext, hnext, hcount, htail, hlive⟩ :=
      ih (Nat.le_of_succ_le h)
    have hlt : c.main.count < v72RobMainEntries := hcount ▸ h
    have hroom : s.g.gV72MainCount < v72RobMainEntries := hs.mainCount ▸ hlt
    have hcall := v72RobAllocateEntry_main 0x1000 0 1 hs.points.main hs.points.md hroom
    have hslot : s.g.nextSlot = some (.inl c.main.tail) := by
      simp only [V72Globals.nextSlot, hs.points.main, if_pos hroom]
    have hmod : n % v72RobMainEntries = n := Nat.mod_eq_of_lt h
    refine ⟨_, _, _, .snoc run (.allocate hcall), by simp [hlen], ?_,
      hs.allocateMain hlt 0x1000 0 1, hext, hnext, congrArg (· + 1) hcount, ?_, fun m hm => ?_⟩
    · simpa [or_imp, forall_and] using hops
    · change (s.g.gV72MetaTail + 1).val = (n + 1) % v72RobMainEntries
      rw [Fin.val_add, htail, hmod]
      rfl
    · rw [V72State.liveAfter_some hslot]
      rcases Nat.lt_succ_iff_lt_or_eq.mp hm with hlt | rfl
      · obtain ⟨a, ha, htag⟩ := hlive m hlt
        exact ⟨a, List.mem_cons_of_mem _ ha, htag⟩
      · exact ⟨_, List.mem_cons_self, htail.trans hmod⟩

/-- In a run from a successful initialisation the tags identify the allocations in flight, and
every retirement succeeds on its entry, exactly when every allocation finds the next tag not in
flight. -/
theorem tagsIdentify_iff {pool : Nat → Bool} {g : V72Globals}
    (hinit : (v72RobDistributorInit pool g).2 = .success) {tr : List V72Event} {s : V72State}
    (run : Run V72Step ⟨(v72RobDistributorInit pool g).1, []⟩ tr s) :
    (Always TagsIdentify tr s ∧ ∀ ev ∈ tr, RetireSucceeds ev) ↔ ∀ ev ∈ tr, FreshTag ev := by
  apply Run.always_iff (I := V72Inv) (v72Inv_init hinit) v72Inv_step _ _ _ run
  · rintro s ⟨c, hs, hid⟩
    exact ⟨c, hs.points, hid⟩
  · exact fun s op r s' hI st _ => retireSucceeds_step s op r s' hI st
  · exact fun s op r s' hI st _ hP => freshTag_step s op r s' hI st hP

/-- Two allocations, of which the second one is retired first. -/
theorem tagsIdentify_iff_outOfOrder :
    ∃ tr s a b, Run V72Step v72Start tr s ∧
      tr.map Event.op =
        [.allocate 0x1000 0 1, .allocate 0x1000 0 1, .retire b, .retire a] ∧
      a.tag = 0 ∧ b.tag = 1 ∧ Always TagsIdentify tr s ∧ ∀ ev ∈ tr, RetireSucceeds ev := by
  have hinit : (v72RobDistributorInit (fun _ => true) zeroGlobals).2 = .success := rfl
  obtain ⟨tr, s, -, run, hlen, hops, -, -, -, -, -, hlive⟩ := run_fill (n := 2) (by decide)
  obtain ⟨a, ha, hatag⟩ := hlive 0 (by decide)
  obtain ⟨b, hb, hbtag⟩ := hlive 1 (by decide)
  have hfew : (allocations tr).length < v72RobMainEntries :=
    Nat.lt_of_le_of_lt (List.length_filterMap_le ..) (hlen ▸ by decide)
  have hfresh := freshTag_of_few (v72RobDistributorInit_spec hinit).2.1 rfl run hfew
  have hinv : V72Inv s := Run.guarded (v72Inv_init hinit) v72Inv_step run hfresh
  obtain ⟨s₁, st, hs₁⟩ := hinv.retire hb
  have hinv₁ : V72Inv s₁ := v72Inv_step _ _ _ _ hinv st trivial
  have hne : a ≠ b := by
    rintro rfl
    exact absurd (hatag.symm.trans hbtag) (by decide)
  have ha₁ : a ∈ s₁.live := hs₁ ▸ (List.mem_erase_of_ne hne).mpr ha
  obtain ⟨s₂, st₂, -⟩ := hinv₁.retire ha₁
  have run₂ := (run.snoc st).snoc st₂
  have hmap : tr.map Event.op = List.replicate 2 (.allocate 0x1000 0 1) :=
    List.eq_replicate_iff.mpr ⟨by simp [hlen], by simpa using hops⟩
  obtain ⟨halways, hretires⟩ := (tagsIdentify_iff hinit run₂).mpr
    (forall_mem_snoc.mpr ⟨forall_mem_snoc.mpr ⟨hfresh, trivial⟩, trivial⟩)
  refine ⟨_, s₂, a, b, run₂, ?_, Fin.ext hatag, Fin.ext hbtag, halways, hretires⟩
  rw [List.map_append, List.map_append, hmap]
  rfl

/-- The 1569th allocation in a row gets tag 0, which is still in flight. -/
theorem tagsIdentify_not :
    ∃ tr s, Run V72Step v72Start tr s ∧ tr.length = 1569 ∧
      (∀ ev ∈ tr, ev.op = .allocate 0x1000 0 1) ∧ ¬ TagsIdentify s := by
  obtain ⟨tr, s, c, run, hlen, hops, hs, hext, hnext, hcount, htail, hlive⟩ :=
    run_fill (Nat.le_refl _)
  have hroom : ¬ s.g.gV72MainCount < v72RobMainEntries := by
    rw [hs.mainCount, hcount]
    exact Nat.lt_irrefl _
  have hbank : s.g.gV72ExtBanks 0 = some (zeroCore.ext 0) := by rw [hs.points.ext, hext]
  have hfree : s.g.freeExtBank = some 0 := by
    rw [V72Globals.freeExtBank, hnext, RoundRobin.search, RoundRobin.searchFrom, hbank]
    rfl
  have hcall := v72RobAllocateEntry_ext 0x1000 0 1 hs.points.main hs.points.md hroom hfree hbank
  have hslot : s.g.nextSlot = some (.inr (0, (zeroCore.ext 0).tail)) := by
    simp only [V72Globals.nextSlot, hs.points.main, if_neg hroom, hfree]
    rw [Option.bind_some, hbank]
    rfl
  have hzero : s.g.gV72MetaTail = 0 := Fin.ext (by rw [htail, Nat.mod_self]; rfl)
  refine ⟨_, _, .snoc run (.allocate hcall), by simp [hlen], ?_, ?_⟩
  · simpa [or_imp, forall_and] using hops
  · rintro ⟨c', -, hid⟩
    obtain ⟨a, ha, htag⟩ := hlive 0 (by decide)
    have htags := hid.tags
    rw [V72State.liveAfter_some hslot, List.map_cons, List.nodup_cons] at htags
    exact htags.1 (List.mem_map.mpr ⟨a, ha, (Fin.ext htag).trans hzero.symm⟩)

end Bemi.Rob
