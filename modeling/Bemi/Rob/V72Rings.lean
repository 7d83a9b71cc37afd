import Bemi.Lib.Slots
import Bemi.Rob.V72Tags

/-!
# The rings under any use

The v7.2 reorder buffer called in any order and with any tags, stale, repeated or never given out. A
retirement marks the slot that the metadata of its tag name, whoever holds it by now, and that slot
may lie outside the window of its ring. The rings stay sound all the same, and an allocation runs
out of resources exactly when they are full.
-/

namespace Bemi.Rob
open SlotRing Transition

/-- A call, with any arguments. -/
inductive V72Call where
  | allocate (rip microOpStart : UInt64) (microOpCount : UInt32)
  | tick
  | retire (reorderTag : UInt32)
  deriving DecidableEq, Repr

def V72Globals.call (g : V72Globals) : V72Call → Option (V72Globals × V72Answer)
  | .allocate rip microOpStart microOpCount =>
    v72RobAllocateEntry g rip microOpStart microOpCount
  | .tick => some (v72RobTick g, .success, none)
  | .retire reorderTag =>
    (v72RobRetireEntry g reorderTag).map fun (g, status) => (g, status, none)

/-- A call that has a result. -/
def V72CallStep (g : V72Globals) (op : V72Call) (r : V72Answer) (g' : V72Globals) : Prop :=
  g.call op = some (g', r)

lemma V72CallStep.allocate {g g' : V72Globals} {rip microOpStart : UInt64} {microOpCount : UInt32}
    {r : V72Answer} (h : v72RobAllocateEntry g rip microOpStart microOpCount = some (g', r)) :
    V72CallStep g (.allocate rip microOpStart microOpCount) r g' :=
  h

lemma V72CallStep.retire {g g' : V72Globals} {reorderTag : UInt32} {status : EfiStatus}
    (h : v72RobRetireEntry g reorderTag = some (g', status)) :
    V72CallStep g (.retire reorderTag) (status, none) g' := by
  rw [V72CallStep, V72Globals.call, h]
  rfl

/-- The rings are sound, the counts kept beside them are theirs, and the metadata of every tag name
a slot. -/
structure V72Rings (g : V72Globals) (c : V72Core) : Prop where
  points : g.Points c
  main : c.main.ring.Headed
  ext : ∀ eb, (c.ext eb).ring.Headed
  mainCount : g.gV72MainCount = c.main.count
  extCounts : ∀ eb, g.gV72ExtCounts eb = (c.ext eb).count
  named : ∀ tag, ∃ p : Position, (c.md tag).bankId = p.bankId ∧ (c.md tag).slotInBank = p.slotInBank

/-! ## How full the rings are -/

/-- The entries in all rings. -/
def V72Core.entries (c : V72Core) : Nat :=
  c.main.count + ∑ eb, (c.ext eb).count

lemma v72RobGetActiveCount_eq {g : V72Globals} {c : V72Core} (h : g.Points c) :
    v72RobGetActiveCount g = c.entries := by
  have hfold (f : Fin v72RobExtBanks → Nat) (l : List (Fin v72RobExtBanks)) (total : Nat) :
      l.foldl (fun total i => total + f i) total = total + (l.map f).sum := by
    induction l generalizing total with
    | nil => rfl
    | cons i l ih => rw [List.foldl_cons, ih, List.map_cons, List.sum_cons, Nat.add_assoc]
  simp only [v72RobGetActiveCount, h.main, h.ext]
  rw [hfold, V72Core.entries, Fin.sum_univ_def]

section
variable {g : V72Globals} {c : V72Core} (hs : V72Rings g c)
include hs

lemma V72Rings.entries_le : c.entries ≤ v72RobGetTotalEntries := by
  have hsum : ∑ eb, (c.ext eb).count ≤ ∑ _eb : Fin v72RobExtBanks, v72RobExtEntries :=
    Finset.sum_le_sum fun eb _ => (hs.ext eb).count_le
  rw [Fin.sum_const, smul_eq_mul] at hsum
  exact Nat.add_le_add hs.main.count_le hsum

/-- All entries are in use when every ring is full. -/
lemma V72Rings.entries_eq_iff : c.entries = v72RobGetTotalEntries ↔
    c.main.count = v72RobMainEntries ∧ ∀ eb, (c.ext eb).count = v72RobExtEntries := by
  have hle : ∀ eb ∈ Finset.univ, (c.ext eb).count ≤ v72RobExtEntries :=
    fun eb _ => (hs.ext eb).count_le
  have hsum := Finset.sum_eq_sum_iff_of_le hle
  have hsumLe := Finset.sum_le_sum hle
  have hmain := hs.main.count_le
  change c.main.count ≤ v72RobMainEntries at hmain
  rw [Fin.sum_const, smul_eq_mul] at hsum hsumLe
  rw [V72Core.entries, v72RobGetTotalEntries]
  constructor
  · intro h
    exact ⟨by omega, fun eb => hsum.mp (by omega) eb (Finset.mem_univ eb)⟩
  · rintro ⟨hm, he⟩
    rw [hm, hsum.mpr fun eb _ => he eb]

/-- The scan fails when every extended ring is full. -/
lemma V72Rings.freeExtBank_none_iff :
    g.freeExtBank = none ↔ ∀ eb, (c.ext eb).count = v72RobExtEntries := by
  rw [V72Globals.freeExtBank, RoundRobin.search_eq_none_iff]
  refine forall_congr' fun eb => ?_
  have hle : (c.ext eb).count ≤ v72RobExtEntries := (hs.ext eb).count_le
  rw [hs.points.ext]
  dsimp only
  rw [decide_eq_false_iff_not]
  omega

end

/-! ## The calls -/

/-- Replacing one bank in the globals and in what they point to. -/
lemma V72Globals.Points.updateExt {g : V72Globals} {c : V72Core} (h : g.Points c)
    (eb : Fin v72RobExtBanks) (ebp : V72ExtRobBank) (b : Fin v72RobExtBanks) :
    Function.update g.gV72ExtBanks eb (some ebp) b = some (Function.update c.ext eb ebp b) := by
  by_cases hb : b = eb
  · subst hb
    rw [Function.update_self, Function.update_self]
  · rw [Function.update_of_ne hb, Function.update_of_ne hb, h.ext]

lemma extCounts_update {counts : Fin v72RobExtBanks → Nat}
    {ext : Fin v72RobExtBanks → V72ExtRobBank} (h : ∀ eb, counts eb = (ext eb).count)
    (eb : Fin v72RobExtBanks) {k : Nat} {ebp : V72ExtRobBank} (hk : k = ebp.count)
    (b : Fin v72RobExtBanks) : Function.update counts eb k b = (Function.update ext eb ebp b).count := by
  by_cases hb : b = eb
  · subst hb
    rw [Function.update_self, Function.update_self, hk]
  · rw [Function.update_of_ne hb, Function.update_of_ne hb, h]

/-- One more entry in a bank is one more in all. -/
lemma sum_count_update (ext : Fin v72RobExtBanks → V72ExtRobBank) (eb : Fin v72RobExtBanks)
    {ebp : V72ExtRobBank} (h : ebp.count = (ext eb).count + 1) :
    ∑ b, (Function.update ext eb ebp b).count = ∑ b, (ext b).count + 1 := by
  have hsum := Slots.sum_update Buffer.count ext eb ebp
  omega

/-- The bank of a slot is read back from the metadata of its tag. -/
lemma named_update {md : Fin v72RobMainEntries → V72RobMetadata} {tag : Fin v72RobMainEntries}
    {m : V72RobMetadata}
    (h : ∀ t, ∃ p : Position, (md t).bankId = p.bankId ∧ (md t).slotInBank = p.slotInBank)
    (p : Position) (hbank : m.bankId = p.bankId) (hslot : m.slotInBank = p.slotInBank) :
    ∀ t, ∃ p : Position, (Function.update md tag m t).bankId = p.bankId ∧
      (Function.update md tag m t).slotInBank = p.slotInBank := by
  rw [Function.forall_update_iff md (p := fun _ m => ∃ p : Position, m.bankId = p.bankId ∧
    m.slotInBank = p.slotInBank)]
  exact ⟨⟨p, hbank, hslot⟩, fun t _ => h t⟩

section
variable {g : V72Globals} {c : V72Core} (hs : V72Rings g c)
include hs

/-- An allocation succeeds unless every ring is full; then only the stalls change. -/
lemma v72RobAllocateEntry_rings (rip microOpStart : UInt64) (microOpCount : UInt32) :
    c.entries = v72RobGetTotalEntries ∧
        v72RobAllocateEntry g rip microOpStart microOpCount =
          some ({ g with gV72TotalStalls := g.gV72TotalStalls + 1 }, .outOfResources, none) ∨
      c.entries ≠ v72RobGetTotalEntries ∧ ∃ g' c',
        v72RobAllocateEntry g rip microOpStart microOpCount =
          some (g', .success, some g.gV72MetaTail) ∧ V72Rings g' c' ∧
        c'.entries = c.entries + 1 ∧ g'.gV72MetaCount = g.gV72MetaCount + 1 ∧
        g'.gV72TotalRetirements = g.gV72TotalRetirements := by
  obtain ⟨hmain, hext, hmd⟩ := hs.points
  by_cases hroom : g.gV72MainCount < v72RobMainEntries
  · have hlt : c.main.count < v72RobMainEntries := hs.mainCount ▸ hroom
    refine .inr ⟨fun h => ?_, _, { c with
        main := c.main.put (tagEntry g.gV72MetaTail)
        md := Function.update c.md g.gV72MetaTail _ },
      v72RobAllocateEntry_main rip microOpStart microOpCount hmain hmd hroom,
      ⟨⟨rfl, hext, rfl⟩, ?_, hs.ext, congrArg (· + 1) hs.mainCount, hs.extCounts,
        named_update hs.named (.inl c.main.tail) rfl rfl⟩, ?_, rfl, rfl⟩
    · exact absurd (hs.entries_eq_iff.mp h).1 (Nat.ne_of_lt hlt)
    · rw [Buffer.ring_put c.main (tagEntry_state _)]
      exact hs.main.push hlt
    · rw [V72Core.entries, V72Core.entries, Nat.add_right_comm]
      rfl
  · have hfull : c.main.count = v72RobMainEntries :=
      Nat.le_antisymm hs.main.count_le (hs.mainCount ▸ Nat.le_of_not_lt hroom)
    cases hfree : g.freeExtBank with
    | none =>
      refine .inl ⟨hs.entries_eq_iff.mpr ⟨hfull, hs.freeExtBank_none_iff.mp hfree⟩, ?_⟩
      exact v72RobAllocateEntry_stall rip microOpStart microOpCount hmain hroom hfree
    | some eb =>
      have hlt : (c.ext eb).count < v72RobExtEntries := by
        have := RoundRobin.search_some hfree
        simpa [hext] using this
      refine .inr ⟨fun h => ?_, _, { c with
          ext := Function.update c.ext eb ((c.ext eb).put (tagEntry g.gV72MetaTail))
          md := Function.update c.md g.gV72MetaTail _ },
        v72RobAllocateEntry_ext rip microOpStart microOpCount hmain hmd hroom hfree (hext eb),
        ⟨⟨hmain, hs.points.updateExt eb _, rfl⟩, hs.main, ?_, hs.mainCount, ?_,
          named_update hs.named (.inr (eb, (c.ext eb).tail)) rfl rfl⟩, ?_, rfl, rfl⟩
      · exact absurd ((hs.entries_eq_iff.mp h).2 eb) (Nat.ne_of_lt hlt)
      · rw [Function.forall_update_iff c.ext (p := fun _ b => b.ring.Headed)]
        refine ⟨?_, fun b _ => hs.ext b⟩
        rw [Buffer.ring_put (c.ext eb) (tagEntry_state _)]
        exact (hs.ext eb).push hlt
      · exact extCounts_update hs.extCounts eb (congrArg (· + 1) (hs.extCounts eb))
      · exact congrArg (c.main.count + ·) (sum_count_update c.ext eb rfl)

/-- The number of entries of the ring that the metadata of a tag name. -/
def V72Globals.entriesNamed (g : V72Globals) (reorderTag : UInt32) : Nat :=
  match g.gV72Meta with
  | none => 0
  | some md =>
    if htag : reorderTag.toNat < v72RobMainEntries then
      let m := md ⟨reorderTag.toNat, htag⟩
      if m.bankId = 0xFFFFFFFF then (g.gV72MainRob.map Buffer.count).getD 0
      else if heb : m.bankId.toNat < v72RobExtBanks then
        ((g.gV72ExtBanks ⟨m.bankId.toNat, heb⟩).map Buffer.count).getD 0
      else 0
    else 0

/-- Whatever slot of the main ring is retired, the rings stay sound. -/
lemma V72Rings.retireMain (slot : Fin v72RobMainEntries) :
    V72Rings (g.retireMain c.main slot) { c with main := retireSlot c.main slot } := by
  refine ⟨⟨rfl, hs.points.ext, hs.points.md⟩, ?_, hs.ext, ?_, hs.extCounts, hs.named⟩
  · rw [ring_retireSlot]
    exact hs.main.retire slot
  · have hle := retireSlot_count_le c.main slot
    have hcount := hs.mainCount
    change g.gV72MainCount - (c.main.count - (retireSlot c.main slot).count) =
      (retireSlot c.main slot).count
    omega

lemma V72Rings.retireExt (eb : Fin v72RobExtBanks) (slot : Fin v72RobExtEntries) :
    V72Rings (g.retireExt eb (c.ext eb) slot)
      { c with ext := Function.update c.ext eb (retireSlot (c.ext eb) slot) } := by
  refine ⟨⟨hs.points.main, hs.points.updateExt eb _, hs.points.md⟩, hs.main, ?_, hs.mainCount, ?_,
    hs.named⟩
  · rw [Function.forall_update_iff c.ext (p := fun _ b => b.ring.Headed)]
    refine ⟨?_, fun b _ => hs.ext b⟩
    rw [ring_retireSlot]
    exact (hs.ext eb).retire slot
  · have hle := retireSlot_count_le (c.ext eb) slot
    have hcount := hs.extCounts eb
    exact extCounts_update hs.extCounts eb (by omega)

/-- A retirement fails, and then changes nothing, or succeeds, and then keeps the rings sound. It
succeeds when the ring named is not empty. -/
lemma v72RobRetireEntry_rings (reorderTag : UInt32) :
    g.entriesNamed reorderTag = 0 ∧
        (∃ status, status ≠ .success ∧ v72RobRetireEntry g reorderTag = some (g, status)) ∨
      g.entriesNamed reorderTag ≠ 0 ∧ ∃ g' c', v72RobRetireEntry g reorderTag = some (g', .success) ∧
        V72Rings g' c' ∧ g'.gV72MetaCount = g.gV72MetaCount := by
  obtain ⟨hmain, hext, hmd⟩ := hs.points
  by_cases htag : reorderTag.toNat < v72RobMainEntries
  · obtain ⟨p, hbank, hslot⟩ := hs.named ⟨reorderTag.toNat, htag⟩
    cases p with
    | inl slot =>
      obtain ⟨hin, hi⟩ := index_ofNat (by decide) hslot
      have hbank : (c.md ⟨reorderTag.toNat, htag⟩).bankId = 0xFFFFFFFF := hbank
      have hnamed : g.entriesNamed reorderTag = c.main.count := by
        simp only [V72Globals.entriesNamed, hmd, dif_pos htag, hbank, if_true, hmain]
        rfl
      rw [hnamed]
      by_cases hzero : c.main.count = 0
      · refine .inl ⟨hzero, .notReady, by decide, ?_⟩
        simp only [v72RobRetireEntry, hmain, dif_pos htag, hmd, hbank, if_true, if_pos hzero]
      · refine .inr ⟨hzero, _, _, ?_, hs.retireMain slot, rfl⟩
        simp only [v72RobRetireEntry, hmain, dif_pos htag, hmd, hbank, if_true, if_neg hzero,
          dif_pos hin, hi]
    | inr p =>
      obtain ⟨eb, slot⟩ := p
      obtain ⟨hin, hi⟩ := index_ofNat (by decide) hslot
      obtain ⟨hbankIn, heb⟩ := index_ofNat (by decide) hbank
      have hother : (c.md ⟨reorderTag.toNat, htag⟩).bankId ≠ 0xFFFFFFFF := by
        intro e
        rw [e] at hbankIn
        exact absurd hbankIn (by decide)
      have hnamed : g.entriesNamed reorderTag = (c.ext eb).count := by
        simp only [V72Globals.entriesNamed, hmd, dif_pos htag, if_neg hother, dif_pos hbankIn, heb,
          hext]
        rfl
      rw [hnamed]
      by_cases hzero : (c.ext eb).count = 0
      · refine .inl ⟨hzero, .notReady, by decide, ?_⟩
        simp only [v72RobRetireEntry, hmain, dif_pos htag, hmd, if_neg hother, dif_pos hbankIn, heb,
          hext, if_pos hzero]
      · refine .inr ⟨hzero, _, _, ?_, hs.retireExt eb slot, rfl⟩
        simp only [v72RobRetireEntry, hmain, dif_pos htag, hmd, if_neg hother, dif_pos hbankIn,
          heb, hext, if_neg hzero, dif_pos hin, hi]
  · refine .inl ⟨?_, .invalidParameter, by decide, ?_⟩
    · simp only [V72Globals.entriesNamed, hmd, dif_neg htag]
    · simp only [v72RobRetireEntry, hmain, dif_neg htag]

/-- A stall counts and leaves the rings alone. -/
lemma V72Rings.stall : V72Rings { g with gV72TotalStalls := g.gV72TotalStalls + 1 } c :=
  ⟨⟨hs.points.main, hs.points.ext, hs.points.md⟩, hs.main, hs.ext, hs.mainCount, hs.extCounts,
    hs.named⟩

lemma V72Rings.tick : V72Rings (v72RobTick g) c :=
  ⟨⟨hs.points.main, hs.points.ext, hs.points.md⟩, hs.main, hs.ext, hs.mainCount, hs.extCounts,
    hs.named⟩

/-- Every call has a result, and keeps the rings sound. -/
lemma V72Rings.call (op : V72Call) : ∃ g' r, g.call op = some (g', r) ∧ ∃ c', V72Rings g' c' := by
  cases op with
  | allocate rip microOpStart microOpCount =>
    obtain ⟨-, hcall⟩ | ⟨-, g', c', hcall, hs', -⟩ :=
      v72RobAllocateEntry_rings hs rip microOpStart microOpCount
    · exact ⟨_, _, hcall, c, hs.stall⟩
    · exact ⟨_, _, hcall, c', hs'⟩
  | tick => exact ⟨_, _, rfl, c, hs.tick⟩
  | retire reorderTag =>
    obtain ⟨-, status, -, hcall⟩ | ⟨-, g', c', hcall, hs', -⟩ := v72RobRetireEntry_rings hs reorderTag
    · exact ⟨_, _, V72CallStep.retire hcall, c, hs⟩
    · exact ⟨_, _, V72CallStep.retire hcall, c', hs'⟩

end

lemma V72CallStep.rings {g g' : V72Globals} {op : V72Call} {r : V72Answer}
    (st : V72CallStep g op r g') (h : ∃ c, V72Rings g c) : ∃ c, V72Rings g' c := by
  obtain ⟨c, hs⟩ := h
  obtain ⟨g₁, r₁, hcall, hs'⟩ := hs.call op
  cases st.symm.trans hcall
  exact hs'

/-! ## From initialisation -/

lemma v72Rings_init {pool : Nat → Bool} {g : V72Globals}
    (h : (v72RobDistributorInit pool g).2 = .success) :
    V72Rings (v72RobDistributorInit pool g).1 zeroCore := by
  obtain ⟨hs, -, -⟩ := v72RobDistributorInit_spec h
  refine ⟨hs.points, hs.main.headed, fun eb => (hs.ext eb).headed, hs.mainCount, fun eb => ?_,
    fun tag => ⟨.inr (0, 0), rfl, rfl⟩⟩
  obtain ⟨g₁, hbanks, hinit⟩ := v72RobDistributorInit_success h
  rw [hinit]
  exact initExtBanks_field (f := V72Globals.gV72ExtCounts) (fun _ _ => rfl) hbanks eb
    (.inl (List.mem_finRange eb))

/-- The window of a ring lies in it, its slots are ALLOCATED or RETIRED, the one at the head is
ALLOCATED, and the count kept beside the ring is its own. -/
structure RingSound {n : Nat} (ring : Buffer n V72RobEntryCompressed) (count : Nat) : Prop where
  count_le : ring.count ≤ n
  tail_eq : ring.tail.val = (ring.head.val + ring.count) % n
  window : ∀ k, k < ring.count → ∀ i : Fin n, i.val = (ring.head.val + k) % n →
    (ring.slots i).state = .allocated ∨ (ring.slots i).state = .retired
  head_live : 0 < ring.count → (ring.slots ring.head).state = .allocated
  count_eq : count = ring.count

lemma ringSound_of_headed {n : Nat} {ring : Buffer n V72RobEntryCompressed} {count : Nat}
    (h : ring.ring.Headed) (hcount : count = ring.count) : RingSound ring count := by
  refine ⟨h.count_le, h.tail_eq, fun k hk i hi => ?_, h.head_live, hcount⟩
  have hoff : ring.ring.offset i = k :=
    Ring.offset_of_add _ (Nat.lt_of_lt_of_le hk h.count_le) hi
  have hne : (ring.slots i).state ≠ .free := h.inside i (hoff ▸ hk)
  cases hst : (ring.slots i).state with
  | free => exact absurd hst hne
  | allocated => exact .inl rfl
  | retired => exact .inr rfl

/-- Every sequence of calls can be made. -/
lemma exists_calls {g : V72Globals} {c : V72Core} (hs : V72Rings g c) (ops : List V72Call) :
    ∃ tr g', Run V72CallStep g tr g' ∧ tr.map Event.op = ops ∧ ∃ c', V72Rings g' c' := by
  induction ops using List.reverseRecOn with
  | nil => exact ⟨[], g, .nil, rfl, c, hs⟩
  | append_singleton ops op ih =>
    obtain ⟨tr, g', run, hops, c', hs'⟩ := ih
    obtain ⟨g'', r, hcall, hs''⟩ := hs'.call op
    exact ⟨_, g'', run.snoc hcall, by rw [List.map_append, hops]; rfl, hs''⟩

/-- After any calls with any tags the rings and the counts kept beside them are sound, every further
call has a result, and an allocation runs out of resources exactly when all entries are active. -/
theorem v72Rings_sound {pool : Nat → Bool} {g : V72Globals}
    (hinit : (v72RobDistributorInit pool g).2 = .success)
    {tr : List (Event V72Globals V72Call V72Answer)} {g' : V72Globals}
    (run : Run V72CallStep (v72RobDistributorInit pool g).1 tr g') :
    (∃ c, g'.Points c ∧ RingSound c.main g'.gV72MainCount ∧
        ∀ eb, RingSound (c.ext eb) (g'.gV72ExtCounts eb)) ∧
      (∀ op, ∃ g'' r, V72CallStep g' op r g'') ∧
      ∀ rip microOpStart microOpCount g'' r,
        V72CallStep g' (.allocate rip microOpStart microOpCount) r g'' →
        (r.1 = .outOfResources ↔ v72RobGetActiveCount g' = v72RobGetTotalEntries) ∧
          (r.1 = .outOfResources →
            g'' = { g' with gV72TotalStalls := g'.gV72TotalStalls + 1 }) := by
  obtain ⟨c, hs⟩ : ∃ c, V72Rings g' c :=
    run.history (I := fun _ g => ∃ c, V72Rings g c) ⟨zeroCore, v72Rings_init hinit⟩
      fun _ _ _ _ _ hI st => st.rings hI
  refine ⟨⟨c, hs.points, ringSound_of_headed hs.main hs.mainCount,
    fun eb => ringSound_of_headed (hs.ext eb) (hs.extCounts eb)⟩, fun op => ?_, ?_⟩
  · obtain ⟨g'', r, hcall, -⟩ := hs.call op
    exact ⟨g'', r, hcall⟩
  · intro rip microOpStart microOpCount g'' r hcall
    rw [v72RobGetActiveCount_eq hs.points]
    obtain ⟨hfull, hstall⟩ | ⟨hroom, g₁, c₁, hok, -⟩ :=
      v72RobAllocateEntry_rings hs rip microOpStart microOpCount
    · cases hcall.symm.trans hstall
      exact ⟨iff_of_true rfl hfull, fun _ => rfl⟩
    · cases hcall.symm.trans hok
      exact ⟨iff_of_false nofun hroom, nofun⟩

/-- A tag never given out, and one retired twice. -/
theorem v72Rings_sound_misuse :
    ∃ tr g', Run V72CallStep v72Start.g tr g' ∧
      tr.map Event.op = [.retire 5, .allocate 0x1000 0 1, .allocate 0x2000 0 1, .retire 0, .retire 0] ∧
      (∃ c, g'.Points c ∧ RingSound c.main g'.gV72MainCount ∧
        ∀ eb, RingSound (c.ext eb) (g'.gV72ExtCounts eb)) := by
  have hinit : (v72RobDistributorInit (fun _ => true) zeroGlobals).2 = .success := rfl
  obtain ⟨tr, g', run, hops, -⟩ := exists_calls (v72Rings_init hinit)
    [.retire 5, .allocate 0x1000 0 1, .allocate 0x2000 0 1, .retire 0, .retire 0]
  exact ⟨tr, g', run, hops, (v72Rings_sound hinit run).1⟩

end Bemi.Rob
