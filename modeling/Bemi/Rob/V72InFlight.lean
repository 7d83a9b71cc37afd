import Mathlib.Data.List.Nodup
import Bemi.Lib.Run
import Bemi.Rob.V72

/-!
# Allocations in flight

Runs of the v7.2 reorder buffer that allocate, tick and retire. A run keeps the list of the
allocations not yet retired, with the tag returned, the Rip and the slot filled, and only these are
retired. As long as a new tag is none of theirs, the tags identify the entries in flight and the
retirements succeed.
-/

namespace Bemi.Rob
open SlotRing Transition

/-! ## Slots of all rings -/

/-- A slot of the main ring, or of an extended one. -/
abbrev Position := Fin v72RobMainEntries ⊕ (Fin v72RobExtBanks × Fin v72RobExtEntries)

/-- The bank number that the metadata record for a slot. -/
def Position.bankId : Position → UInt32
  | .inl _ => 0xFFFFFFFF
  | .inr (eb, _) => UInt32.ofNat eb.val

/-- The slot number that the metadata record for a slot. -/
def Position.slotInBank : Position → UInt32
  | .inl slot => UInt32.ofNat slot.val
  | .inr (_, slot) => UInt32.ofNat slot.val

/-- What the pointers among the globals point to. -/
structure V72Core where
  main : V72MainRob
  ext : Fin v72RobExtBanks → V72ExtRobBank
  md : Fin v72RobMainEntries → V72RobMetadata

/-- The pointers are valid and point to `c`. -/
structure V72Globals.Points (g : V72Globals) (c : V72Core) : Prop where
  main : g.gV72MainRob = some c.main
  ext : ∀ eb, g.gV72ExtBanks eb = some (c.ext eb)
  md : g.gV72Meta = some c.md

def V72Core.entryAt (c : V72Core) : Position → V72RobEntryCompressed
  | .inl slot => c.main.slots slot
  | .inr (eb, slot) => (c.ext eb).slots slot

/-- The slot that the next successful allocation fills. -/
def V72Globals.nextSlot (g : V72Globals) : Option Position :=
  match g.gV72MainRob with
  | none => none
  | some main =>
    if g.gV72MainCount < v72RobMainEntries then some (.inl main.tail)
    else g.freeExtBank.bind fun eb => (g.gV72ExtBanks eb).map fun ebp => .inr (eb, ebp.tail)

/-! ## Allocations in flight -/

/-- A successful allocation: the tag returned, the Rip and the slot filled. -/
structure V72Alloc where
  tag : Fin v72RobMainEntries
  rip : UInt64
  slot : Position
  deriving DecidableEq

/-- The tags and the slots of the allocations in flight are distinct, their slots are the ALLOCATED
ones and carry their tags, and the metadata of their tags are theirs. -/
structure Identifies (live : List V72Alloc) (c : V72Core) : Prop where
  tags : (live.map V72Alloc.tag).Nodup
  slots : (live.map V72Alloc.slot).Nodup
  held : ∀ p, (c.entryAt p).state = .allocated ↔ ∃ a ∈ live, a.slot = p
  entries : ∀ a ∈ live, (c.entryAt a.slot).reorderTag = BitVec.ofNat 11 a.tag.val
  metadata : ∀ a ∈ live, (c.md a.tag).rip = a.rip ∧ (c.md a.tag).bankId = a.slot.bankId ∧
    (c.md a.tag).slotInBank = a.slot.slotInBank

/-- A free slot is filled under a tag that is not in flight. -/
lemma Identifies.allocate {live : List V72Alloc} {c c' : V72Core} (h : Identifies live c)
    {a : V72Alloc} (hfree : (c.entryAt a.slot).state = .free) (htag : ∀ b ∈ live, b.tag ≠ a.tag)
    (hentry : ∀ p, c'.entryAt p = if p = a.slot then tagEntry a.tag else c.entryAt p)
    {m : V72RobMetadata} (hmd : c'.md = Function.update c.md a.tag m) (hrip : m.rip = a.rip)
    (hbank : m.bankId = a.slot.bankId) (hslot : m.slotInBank = a.slot.slotInBank) :
    Identifies (a :: live) c' := by
  have hslots : ∀ b ∈ live, b.slot ≠ a.slot := by
    intro b hb e
    have hst := (h.held b.slot).mpr ⟨b, hb, rfl⟩
    rw [e, hfree] at hst
    cases hst
  constructor
  · rw [List.map_cons, List.nodup_cons]
    refine ⟨?_, h.tags⟩
    simpa using htag
  · rw [List.map_cons, List.nodup_cons]
    refine ⟨?_, h.slots⟩
    rintro hmem
    obtain ⟨b, hb, e⟩ := List.mem_map.mp hmem
    exact hslots b hb e
  · intro p
    rw [hentry p]
    by_cases hp : p = a.slot
    · rw [if_pos hp]
      exact ⟨fun _ => ⟨a, by simp, hp.symm⟩, fun _ => rfl⟩
    · rw [if_neg hp, h.held p]
      simp [Ne.symm hp]
  · intro b hb
    rw [hentry]
    cases hb with
    | head => rw [if_pos rfl]; rfl
    | tail _ hb =>
      rw [if_neg (hslots b hb)]
      exact h.entries b hb
  · intro b hb
    rw [hmd]
    cases hb with
    | head => rw [Function.update_self]; exact ⟨hrip, hbank, hslot⟩
    | tail _ hb =>
      rw [Function.update_of_ne (htag b hb)]
      exact h.metadata b hb

/-- The slot of one allocation is given up and the others are left alone. -/
lemma Identifies.retire {live : List V72Alloc} {c c' : V72Core} (h : Identifies live c)
    {a : V72Alloc} (ha : a ∈ live)
    (hstate : ∀ p, (c'.entryAt p).state = .allocated ↔
      p ≠ a.slot ∧ (c.entryAt p).state = .allocated)
    (hentry : ∀ p, p ≠ a.slot → (c.entryAt p).state = .allocated → c'.entryAt p = c.entryAt p)
    (hmd : c'.md = c.md) : Identifies (live.erase a) c' := by
  have hnodup : live.Nodup := h.tags.of_map _
  have hslots : ∀ b ∈ live.erase a, b.slot ≠ a.slot := by
    intro b hb e
    obtain ⟨hne, hmem⟩ := (hnodup.mem_erase_iff).mp hb
    exact hne (List.inj_on_of_nodup_map h.slots hmem ha e)
  constructor
  · exact h.tags.sublist ((List.erase_sublist).map _)
  · exact h.slots.sublist ((List.erase_sublist).map _)
  · intro p
    rw [hstate p, h.held p]
    constructor
    · rintro ⟨hp, b, hb, rfl⟩
      exact ⟨b, (hnodup.mem_erase_iff).mpr ⟨fun e => hp (e ▸ rfl), hb⟩, rfl⟩
    · rintro ⟨b, hb, rfl⟩
      exact ⟨hslots b hb, b, List.mem_of_mem_erase hb, rfl⟩
  · intro b hb
    have hmem := List.mem_of_mem_erase hb
    rw [hentry _ (hslots b hb) ((h.held _).mpr ⟨b, hmem, rfl⟩)]
    exact h.entries b hmem
  · intro b hb
    rw [hmd]
    exact h.metadata b (List.mem_of_mem_erase hb)

/-! ## One call on sound rings -/

/-- The pointers are valid, the rings well formed, and the count kept beside the main ring is its
own. -/
structure V72Sound (g : V72Globals) (c : V72Core) : Prop where
  points : g.Points c
  main : c.main.ring.WellFormed
  ext : ∀ eb, (c.ext eb).ring.WellFormed
  mainCount : g.gV72MainCount = c.main.count

lemma tagEntry_state (tag : Fin v72RobMainEntries) :
    SlotEntry.state (tagEntry tag) = .allocated := rfl

lemma V72Sound.allocateMain {g : V72Globals} {c : V72Core} (hs : V72Sound g c)
    (hlt : c.main.count < v72RobMainEntries) (rip microOpStart : UInt64) (microOpCount : UInt32) :
    V72Sound (g.allocateMain c.main c.md rip microOpStart microOpCount) { c with
      main := c.main.put (tagEntry g.gV72MetaTail)
      md := Function.update c.md g.gV72MetaTail ⟨rip, microOpStart, microOpCount, 0xFFFFFFFF,
        UInt32.ofNat c.main.tail.val, g.gV72CycleCounter⟩ } := by
  refine ⟨⟨rfl, hs.points.ext, rfl⟩, ?_, hs.ext, congrArg (· + 1) hs.mainCount⟩
  rw [Buffer.ring_put c.main (tagEntry_state _)]
  exact hs.main.push hlt

lemma V72Sound.allocateExt {g : V72Globals} {c : V72Core} (hs : V72Sound g c)
    {eb : Fin v72RobExtBanks} (hlt : (c.ext eb).count < v72RobExtEntries)
    (rip microOpStart : UInt64) (microOpCount : UInt32) :
    V72Sound (g.allocateExt eb (c.ext eb) c.md rip microOpStart microOpCount) { c with
      ext := Function.update c.ext eb ((c.ext eb).put (tagEntry g.gV72MetaTail))
      md := Function.update c.md g.gV72MetaTail ⟨rip, microOpStart, microOpCount,
        UInt32.ofNat eb.val, UInt32.ofNat (c.ext eb).tail.val, g.gV72CycleCounter⟩ } := by
  refine ⟨⟨hs.points.main, fun b => ?_, rfl⟩, hs.main, fun b => ?_, hs.mainCount⟩
  · change Function.update g.gV72ExtBanks eb _ b = some (Function.update c.ext eb _ b)
    by_cases hb : b = eb
    · subst hb
      simp
    · simp [hb, hs.points.ext]
  · by_cases hb : b = eb
    · subst hb
      simp only [Function.update_self]
      rw [Buffer.ring_put (c.ext b) (tagEntry_state _)]
      exact (hs.ext b).push hlt
    · simp only [Function.update_of_ne hb]
      exact hs.ext b

/-- An allocation on sound rings stalls, or fills a free slot under the tag at `gV72MetaTail`. -/
lemma v72RobAllocateEntry_cases {g : V72Globals} {c : V72Core} (hs : V72Sound g c)
    (rip microOpStart : UInt64) (microOpCount : UInt32) :
    (∃ g', v72RobAllocateEntry g rip microOpStart microOpCount = some (g', .outOfResources, none) ∧
        g.nextSlot = none ∧ V72Sound g' c) ∨
      ∃ g' c' p m, v72RobAllocateEntry g rip microOpStart microOpCount =
          some (g', .success, some g.gV72MetaTail) ∧
        g.nextSlot = some p ∧ V72Sound g' c' ∧ (c.entryAt p).state = .free ∧
        (∀ q, c'.entryAt q = if q = p then tagEntry g.gV72MetaTail else c.entryAt q) ∧
        c'.md = Function.update c.md g.gV72MetaTail m ∧ m.rip = rip ∧ m.bankId = p.bankId ∧
        m.slotInBank = p.slotInBank := by
  obtain ⟨hmain, hext, hmd⟩ := hs.points
  by_cases hroom : g.gV72MainCount < v72RobMainEntries
  · have hlt : c.main.count < v72RobMainEntries := hs.mainCount ▸ hroom
    refine .inr ⟨_, _, .inl c.main.tail, _,
      v72RobAllocateEntry_main rip microOpStart microOpCount hmain hmd hroom, ?_,
      hs.allocateMain hlt rip microOpStart microOpCount, hs.main.tail_free hlt, ?_,
      rfl, rfl, rfl, rfl⟩
    · simp only [V72Globals.nextSlot, hmain, if_pos hroom]
    · rintro (slot | q)
      · simp [V72Core.entryAt, Buffer.put_slots]
      · simp [V72Core.entryAt]
  · cases hfree : g.freeExtBank with
    | none =>
      refine .inl ⟨{ g with gV72TotalStalls := g.gV72TotalStalls + 1 },
        v72RobAllocateEntry_stall rip microOpStart microOpCount hmain hroom hfree, ?_,
        ⟨hmain, hext, hmd⟩, hs.main, hs.ext, hs.mainCount⟩
      simp only [V72Globals.nextSlot, hmain, if_neg hroom, hfree]
      rfl
    | some eb =>
      have hlt : (c.ext eb).count < v72RobExtEntries := by
        have := RoundRobin.search_some hfree
        simpa [hext] using this
      refine .inr ⟨_, _, .inr (eb, (c.ext eb).tail), _,
        v72RobAllocateEntry_ext rip microOpStart microOpCount hmain hmd hroom hfree (hext eb), ?_,
        hs.allocateExt hlt rip microOpStart microOpCount, (hs.ext eb).tail_free hlt, ?_,
        rfl, rfl, rfl, rfl⟩
      · simp only [V72Globals.nextSlot, hmain, if_neg hroom, hfree, hext]
        rfl
      · rintro (slot | ⟨b, slot⟩)
        · simp [V72Core.entryAt]
        · by_cases hb : b = eb
          · subst hb
            simp [V72Core.entryAt, Buffer.put_slots]
          · simp [V72Core.entryAt, hb]

/-- A ring with an ALLOCATED slot is not empty. -/
lemma count_ne_zero {n : Nat} {ring : Buffer n V72RobEntryCompressed}
    {slot : Fin n} (h : ring.ring.WellFormed) (hslot : (ring.slots slot).state = .allocated) :
    ring.count ≠ 0 := by
  have hne : ring.ring.state slot ≠ .free := by
    intro e
    have : (ring.slots slot).state = .free := e
    rw [hslot] at this
    cases this
  exact Nat.ne_of_gt (Nat.lt_of_le_of_lt (Nat.zero_le _) (h.offset_lt_count hne))

section
variable {n : Nat} [NeZero n] (ring : Buffer n V72RobEntryCompressed) (slot : Fin n)

lemma ring_retireSlot : (retireSlot ring slot).ring = ring.ring.retire slot := by
  rw [retireSlot, Buffer.ring_drain, Buffer.ring_set _ _ rfl]
  rfl

/-- Retiring a slot leaves the other ALLOCATED entries alone. -/
lemma retireSlot_slots {i : Fin n} (hne : i ≠ slot) (hi : (ring.slots i).state = .allocated) :
    (retireSlot ring slot).slots i = ring.slots i := by
  have hset : (ring.set slot { ring.slots slot with state := .retired }).slots i = ring.slots i := by
    simp [Buffer.set, hne]
  rw [retireSlot, Buffer.drain_slots _ (by rw [hset]; exact hi), hset]

lemma retireSlot_allocated {i : Fin n} : ((retireSlot ring slot).slots i).state = .allocated ↔
    i ≠ slot ∧ (ring.slots i).state = .allocated := by
  have h := Ring.retire_allocated (r := ring.ring) (i := slot) (j := i)
  rw [← ring_retireSlot] at h
  exact h

lemma retireSlot_count_le : (retireSlot ring slot).count ≤ ring.count :=
  Buffer.drain_count_le _

end

/-- An index stored in 32 bits is read back. -/
lemma index_ofNat {m : Nat} (hm : m ≤ 2 ^ 32) {x : UInt32} {i : Fin m}
    (hx : x = UInt32.ofNat i.val) : ∃ h : x.toNat < m, (⟨x.toNat, h⟩ : Fin m) = i := by
  have hnat : x.toNat = i.val := by
    rw [hx]
    exact UInt32.toNat_ofNat_of_lt' (Nat.lt_of_lt_of_le i.isLt hm)
  exact ⟨hnat ▸ i.isLt, Fin.ext hnat⟩

lemma V72Sound.retireMain {g : V72Globals} {c : V72Core} (hs : V72Sound g c)
    {slot : Fin v72RobMainEntries} (hst : (c.main.slots slot).state = .allocated) :
    V72Sound (g.retireMain c.main slot) { c with main := retireSlot c.main slot } := by
  refine ⟨⟨rfl, hs.points.ext, hs.points.md⟩, ?_, hs.ext, ?_⟩
  · rw [ring_retireSlot]
    exact hs.main.retire hst
  · have := retireSlot_count_le c.main slot
    have := hs.mainCount
    change g.gV72MainCount - (c.main.count - (retireSlot c.main slot).count) =
      (retireSlot c.main slot).count
    omega

lemma V72Sound.retireExt {g : V72Globals} {c : V72Core} (hs : V72Sound g c)
    {eb : Fin v72RobExtBanks} {slot : Fin v72RobExtEntries}
    (hst : ((c.ext eb).slots slot).state = .allocated) :
    V72Sound (g.retireExt eb (c.ext eb) slot)
      { c with ext := Function.update c.ext eb (retireSlot (c.ext eb) slot) } := by
  refine ⟨⟨hs.points.main, fun b => ?_, hs.points.md⟩, hs.main, fun b => ?_, hs.mainCount⟩
  · change Function.update g.gV72ExtBanks eb _ b = some (Function.update c.ext eb _ b)
    by_cases hb : b = eb
    · subst hb
      simp
    · simp [hb, hs.points.ext]
  · by_cases hb : b = eb
    · subst hb
      simp only [Function.update_self]
      rw [ring_retireSlot]
      exact (hs.ext b).retire hst
    · simp only [Function.update_of_ne hb]
      exact hs.ext b

section
variable {g : V72Globals} {c : V72Core} (hs : V72Sound g c) {tag : Fin v72RobMainEntries}
include hs

/-- Retiring a tag whose metadata name an ALLOCATED slot of the main ring. -/
lemma v72RobRetireEntry_main {slot : Fin v72RobMainEntries}
    (hst : (c.main.slots slot).state = .allocated) (hbank : (c.md tag).bankId = 0xFFFFFFFF)
    (hslot : (c.md tag).slotInBank = UInt32.ofNat slot.val) :
    v72RobRetireEntry g (UInt32.ofNat tag.val) = some (g.retireMain c.main slot, .success) := by
  obtain ⟨hmain, -, hmd⟩ := hs.points
  obtain ⟨hlt, htag⟩ := index_ofNat (i := tag) (by decide) rfl
  obtain ⟨hin, hi⟩ := index_ofNat (by decide) hslot
  have hpos : c.main.count ≠ 0 := count_ne_zero hs.main hst
  simp only [v72RobRetireEntry, hmain, dif_pos hlt, hmd, htag, hbank, if_true, if_neg hpos,
    dif_pos hin, hi]

/-- Retiring a tag whose metadata name an ALLOCATED slot of an extended bank. -/
lemma v72RobRetireEntry_ext {eb : Fin v72RobExtBanks} {slot : Fin v72RobExtEntries}
    (hst : ((c.ext eb).slots slot).state = .allocated)
    (hbank : (c.md tag).bankId = UInt32.ofNat eb.val)
    (hslot : (c.md tag).slotInBank = UInt32.ofNat slot.val) :
    v72RobRetireEntry g (UInt32.ofNat tag.val) =
      some (g.retireExt eb (c.ext eb) slot, .success) := by
  obtain ⟨hmain, hext, hmd⟩ := hs.points
  obtain ⟨hlt, htag⟩ := index_ofNat (i := tag) (by decide) rfl
  obtain ⟨hbankIn, heb⟩ := index_ofNat (by decide) hbank
  obtain ⟨hin, hi⟩ := index_ofNat (by decide) hslot
  have hpos : (c.ext eb).count ≠ 0 := count_ne_zero (hs.ext eb) hst
  have hmainBank : (c.md tag).bankId ≠ 0xFFFFFFFF := by
    intro e
    rw [e] at hbankIn
    exact absurd hbankIn (by decide)
  simp only [v72RobRetireEntry, hmain, dif_pos hlt, hmd, htag, if_neg hmainBank,
    dif_pos hbankIn, heb, hext, if_neg hpos, dif_pos hin, hi]

end

/-- Retiring a tag whose metadata name an ALLOCATED slot retires that slot. -/
lemma v72RobRetireEntry_cases {g : V72Globals} {c : V72Core} (hs : V72Sound g c)
    {tag : Fin v72RobMainEntries} {p : Position} (hp : (c.entryAt p).state = .allocated)
    (hbank : (c.md tag).bankId = p.bankId) (hslot : (c.md tag).slotInBank = p.slotInBank) :
    ∃ g' c', v72RobRetireEntry g (UInt32.ofNat tag.val) = some (g', .success) ∧ V72Sound g' c' ∧
      c'.md = c.md ∧
      (∀ q, (c'.entryAt q).state = .allocated ↔ q ≠ p ∧ (c.entryAt q).state = .allocated) ∧
      ∀ q, q ≠ p → (c.entryAt q).state = .allocated → c'.entryAt q = c.entryAt q := by
  cases p with
  | inl slot =>
    refine ⟨_, _, v72RobRetireEntry_main hs hp hbank hslot, hs.retireMain hp, rfl, ?_, ?_⟩
    · intro q
      cases q with
      | inl i => simpa [V72Core.entryAt] using retireSlot_allocated c.main slot
      | inr q => simp [V72Core.entryAt]
    · intro q hne hq
      cases q with
      | inl i => exact retireSlot_slots c.main slot (fun e => hne (e ▸ rfl)) hq
      | inr q => rfl
  | inr p =>
    obtain ⟨eb, slot⟩ := p
    refine ⟨_, _, v72RobRetireEntry_ext hs hp hbank hslot, hs.retireExt hp, rfl, ?_, ?_⟩
    · rintro (i | ⟨b, i⟩)
      · simp [V72Core.entryAt]
      · by_cases hb : b = eb
        · subst hb
          simpa [V72Core.entryAt] using retireSlot_allocated (c.ext b) slot
        · simp [V72Core.entryAt, hb]
    · rintro (i | ⟨b, i⟩) hne hq
      · rfl
      · by_cases hb : b = eb
        · subst hb
          simp only [V72Core.entryAt, Function.update_self]
          exact retireSlot_slots (c.ext b) slot (fun e => hne (e ▸ rfl)) hq
        · simp [V72Core.entryAt, hb]

/-! ## Runs -/

/-- The globals and the allocations in flight. -/
structure V72State where
  g : V72Globals
  live : List V72Alloc

inductive V72Op where
  | allocate (rip microOpStart : UInt64) (microOpCount : UInt32)
  | tick
  | retire (a : V72Alloc)

/-- The status, and the tag if one is returned. -/
abbrev V72Answer := EfiStatus × Option (Fin v72RobMainEntries)

/-- The allocations in flight after a call that answered `tag`. -/
def V72State.liveAfter (s : V72State) (rip : UInt64) (tag : Option (Fin v72RobMainEntries)) :
    List V72Alloc :=
  match tag, s.g.nextSlot with
  | some t, some p => ⟨t, rip, p⟩ :: s.live
  | _, _ => s.live

lemma V72State.liveAfter_some {s : V72State} {p : Position} (h : s.g.nextSlot = some p)
    (rip : UInt64) (tag : Fin v72RobMainEntries) :
    s.liveAfter rip (some tag) = ⟨tag, rip, p⟩ :: s.live := by
  simp only [V72State.liveAfter, h]

/-- One call. Only allocations in flight are retired, by the tag that was returned for them. -/
inductive V72Step : V72State → V72Op → V72Answer → V72State → Prop where
  | allocate {s : V72State} {rip start count g' status tag} :
    v72RobAllocateEntry s.g rip start count = some (g', status, tag) →
    V72Step s (.allocate rip start count) (status, tag) ⟨g', s.liveAfter rip tag⟩
  | tick {s : V72State} :
    V72Step s .tick (.success, none) ⟨v72RobTick s.g, s.live⟩
  | retire {s : V72State} {a g' status} :
    a ∈ s.live →
    v72RobRetireEntry s.g (UInt32.ofNat a.tag.val) = some (g', status) →
    V72Step s (.retire a) (status, none) ⟨g', s.live.erase a⟩

abbrev V72Event := Event V72State V72Op V72Answer

/-- The tags identify the allocations in flight. -/
def TagsIdentify (s : V72State) : Prop :=
  ∃ c, s.g.Points c ∧ Identifies s.live c

/-- A retirement succeeds. -/
def RetireSucceeds (ev : V72Event) : Prop :=
  match ev.op with
  | .retire _ => ev.answer.1 = .success
  | _ => True

/-- An allocation that finds a slot finds the tag at `gV72MetaTail` not in flight. -/
def FreshTag (ev : V72Event) : Prop :=
  match ev.op with
  | .allocate .. => ev.before.g.nextSlot ≠ none →
      ∀ a ∈ ev.before.live, a.tag ≠ ev.before.g.gV72MetaTail
  | _ => True

def V72Inv (s : V72State) : Prop :=
  ∃ c, V72Sound s.g c ∧ Identifies s.live c

/-- Calls that meet the condition keep the invariant. -/
lemma v72Inv_step (s : V72State) (op : V72Op) (r : V72Answer) (s' : V72State) (hI : V72Inv s)
    (st : V72Step s op r s') (hfresh : FreshTag ⟨s, op, r⟩) : V72Inv s' := by
  obtain ⟨c, hs, hid⟩ := hI
  cases st with
  | @allocate rip start count g' status tag hcall =>
    obtain ⟨g₁, hstall, -, hs'⟩ | ⟨g₁, c', p, m, hok, hnext, hs', hfree, hentry, hmd, hrip, hbank,
      hslot⟩ := v72RobAllocateEntry_cases hs rip start count
    · cases hcall.symm.trans hstall
      exact ⟨c, hs', hid⟩
    · cases hcall.symm.trans hok
      refine ⟨c', hs', ?_⟩
      rw [V72State.liveAfter_some hnext]
      exact hid.allocate hfree (hfresh (by rw [hnext]; simp)) hentry hmd hrip hbank hslot
  | tick => exact ⟨c, ⟨⟨hs.points.main, hs.points.ext, hs.points.md⟩, hs.main, hs.ext,
      hs.mainCount⟩, hid⟩
  | @retire a g' status ha hcall =>
    obtain ⟨-, hbank, hslot⟩ := hid.metadata a ha
    obtain ⟨g₁, c', hok, hs', hmd, hstate, hentry⟩ :=
      v72RobRetireEntry_cases hs ((hid.held a.slot).mpr ⟨a, ha, rfl⟩) hbank hslot
    cases hcall.symm.trans hok
    exact ⟨c', hs', hid.retire ha hstate hentry hmd⟩

/-- Where the tags identify the allocations, each of them can be retired. -/
lemma V72Inv.retire {s : V72State} (h : V72Inv s) {a : V72Alloc} (ha : a ∈ s.live) :
    ∃ s', V72Step s (.retire a) (.success, none) s' ∧ s'.live = s.live.erase a := by
  obtain ⟨c, hs, hid⟩ := h
  obtain ⟨-, hbank, hslot⟩ := hid.metadata a ha
  obtain ⟨g', c', hok, -⟩ :=
    v72RobRetireEntry_cases hs ((hid.held a.slot).mpr ⟨a, ha, rfl⟩) hbank hslot
  exact ⟨_, .retire ha hok, rfl⟩

/-- In a state where the tags identify the allocations, every retirement succeeds. -/
lemma retireSucceeds_step (s : V72State) (op : V72Op) (r : V72Answer) (s' : V72State)
    (hI : V72Inv s) (st : V72Step s op r s') : RetireSucceeds ⟨s, op, r⟩ := by
  obtain ⟨c, hs, hid⟩ := hI
  cases st with
  | allocate | tick => trivial
  | @retire a g' status ha hcall =>
    obtain ⟨-, hbank, hslot⟩ := hid.metadata a ha
    obtain ⟨g₁, c', hok, -⟩ :=
      v72RobRetireEntry_cases hs ((hid.held a.slot).mpr ⟨a, ha, rfl⟩) hbank hslot
    cases hcall.symm.trans hok
    rfl

/-- An allocation after which the tags are distinct took a fresh one. -/
lemma freshTag_step (s : V72State) (op : V72Op) (r : V72Answer) (s' : V72State) (hI : V72Inv s)
    (st : V72Step s op r s') (hP : TagsIdentify s') : FreshTag ⟨s, op, r⟩ := by
  obtain ⟨c, hs, -⟩ := hI
  obtain ⟨c', -, hid'⟩ := hP
  cases st with
  | tick | retire => trivial
  | @allocate rip start count g' status tag hcall =>
    obtain ⟨g₁, hstall, hnext, -⟩ | ⟨g₁, c₁, p, m, hok, hnext, -⟩ :=
      v72RobAllocateEntry_cases hs rip start count
    · exact fun hne => absurd hnext hne
    · cases hcall.symm.trans hok
      have htags := hid'.tags
      rw [V72State.liveAfter_some hnext, List.map_cons, List.nodup_cons] at htags
      exact fun _ a ha e => htags.1 (List.mem_map.mpr ⟨a, ha, e⟩)

end Bemi.Rob
