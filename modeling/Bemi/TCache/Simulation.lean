import Bemi.TCache.Agreement

/-!
# The trace cache in memory does what its model does

While the parts lie apart, each call on the bytes answers what the call of the model answers on the
view of them, and leaves bytes whose view agrees with what the model leaves.
-/

namespace Bemi.TCache
open Chain Ram

namespace TraceMemory

variable {m : TraceMemory} {n : Nat} {p : UInt64} {s : TraceCache}

/-! ## Fields -/

section
variable (m p)

lemma entry_storeExecutionCount (v : UInt32) :
    (m.store (p + 32) 4 v.toNat).entry p = { m.entry p with executionCount := v } := by
  simp (disch := decide) only [entry, store, load32_store, load64_store_field, load32_store_field,
    loadBool_store_field]

lemma entry_storePinCount (v : UInt32) :
    (m.store (p + 36) 4 v.toNat).entry p = { m.entry p with pinCount := v } := by
  simp (disch := decide) only [entry, store, load32_store, load64_store_field, load32_store_field,
    loadBool_store_field]

lemma entry_storeDboOptimizationHint (v : UInt32) :
    (m.store (p + 40) 4 v.toNat).entry p = { m.entry p with dboOptimizationHint := v } := by
  simp (disch := decide) only [entry, store, load32_store, load64_store_field, load32_store_field,
    loadBool_store_field]

lemma entry_storeLruCounter (v : UInt32) :
    (m.store (p + 44) 4 v.toNat).entry p = { m.entry p with lruCounter := v } := by
  simp (disch := decide) only [entry, store, load32_store, load64_store_field, load32_store_field,
    loadBool_store_field]

lemma entry_storeValid (v : Nat) (hv : v < 256) :
    (m.store (p + 48) 1 v).entry p = { m.entry p with valid := decide (v ≠ 0) } := by
  simp (disch := first | decide | assumption) only [entry, store, loadBool_store,
    load64_store_field, load32_store_field]

lemma entry_storeNext (v : UInt64) :
    (m.store (p + 56) 8 v.toNat).entry p = { m.entry p with next := v } := by
  simp (disch := decide) only [entry, store, load64_store, load64_store_field, load32_store_field,
    loadBool_store_field]

lemma header_storeNextAlloc (v : UInt64) :
    (m.store (m.gTraceCache + 16) 8 v.toNat).header = { m.header with nextAlloc := v } := by
  simp (disch := decide) only [header, store, load64_store, load64_store_field, load32_store_field,
    loadBool_store_field]

lemma header_storeEntryCount (v : UInt32) :
    (m.store (m.gTraceCache + 24) 4 v.toNat).header = { m.header with entryCount := v } := by
  simp (disch := decide) only [header, store, load32_store, load64_store_field, load32_store_field,
    loadBool_store_field]

lemma header_storeLruCounter (v : UInt64) :
    (m.store (m.gTraceCache + 32) 8 v.toNat).header = { m.header with lruCounter := v } := by
  simp (disch := decide) only [header, store, load64_store, load64_store_field, load32_store_field,
    loadBool_store_field]

end

/-! ## Edits -/

lemma Layout.store (h : Layout n m) (a : UInt64) (k v : Nat) : Layout n (m.store a k v) :=
  ⟨h.entries, h.table⟩

lemma Layout.stampLru (h : Layout n m) (p : UInt64) : Layout n (m.stampLru p) :=
  ⟨h.entries, h.table⟩

/-- A store into an entry that edits it. -/
lemma agree_edit (ha : Agree n m.view s) (h : Layout n m) (hp : InArena m.gTraceCache n p)
    (e : TraceCacheEntry → TraceCacheEntry) {i : UInt64} {k v : Nat}
    (he : (m.store (p + i) k v).entry p = e (m.entry p)) (hi : i.toNat + k ≤ 64) :
    Agree n (m.store (p + i) k v).view (s.setEntry p (e (s.heap p))) :=
  agree_storeEntry ha h hp hi (he.trans (congrArg e (ha.heap p hp)))

/-- A store into the header that edits it. -/
lemma agree_editHeader (ha : Agree n m.view s) (h : Layout n m)
    (hd : TraceCacheHeader → TraceCacheHeader) {i : UInt64} {k v : Nat}
    (hh : (m.store (m.gTraceCache + i) k v).header = hd m.header) (hi : i.toNat + k ≤ 56) :
    Agree n (m.store (m.gTraceCache + i) k v).view { s with header := hd s.header } :=
  agree_storeHeader ha h hi (hh.trans (congrArg hd ha.header))

lemma agree_stampLru (ha : Agree n m.view s) (h : Layout n m) (hp : InArena m.gTraceCache n p) :
    Agree n (m.stampLru p).view (s.stampLru p) := by
  have hheader : m.header = s.header := ha.header
  have h₁ := agree_storeHeader ha h (by decide)
    (header_storeLruCounter m (m.header.lruCounter + 1))
  have h₂ := agree_edit h₁ (h.store ..) hp
    (fun e => { e with lruCounter := m.header.lruCounter.toUInt32 })
    (entry_storeLruCounter _ p m.header.lruCounter.toUInt32) (by decide)
  rw [hheader] at h₂
  rw [TraceMemory.stampLru, TraceCache.stampLru, hheader]
  exact h₂

@[simp] lemma setEntry_setEntry (s : TraceCache) (p : UInt64) (e e' : TraceCacheEntry) :
    (s.setEntry p e).setEntry p e' = s.setEntry p e' := by
  simp [TraceCache.setEntry]

lemma stampLru_self (s : TraceCache) (p : UInt64) : (s.stampLru p).heap p =
    { s.heap p with lruCounter := s.header.lruCounter.toUInt32 } :=
  Function.update_self ..

/-- What a lookup does to the entry that it finds. -/
lemma agree_hit (ha : Agree n m.view s) (h : Layout n m) (hp : InArena m.gTraceCache n p) :
    Agree n (m.hit p).view ((s.setEntry p (s.heap p).executed).stampLru p) := by
  have hentry : m.entry p = s.heap p := ha.heap p hp
  have h₁ := agree_edit ha h hp
    (fun e => { e with executionCount := (m.entry p).executionCount + 1 })
    (entry_storeExecutionCount m p _) (by decide)
  have h₂ := agree_stampLru h₁ (h.store ..) hp
  have hstamped := h₂.heap p hp
  rw [stampLru_self, setEntry_self] at hstamped
  have hexec : (((m.store (p + 32) 4 ((m.entry p).executionCount + 1).toNat).stampLru p).entry
      p).executionCount = (s.heap p).executionCount + 1 := by
    rw [← hentry]
    exact congrArg TraceCacheEntry.executionCount hstamped
  rw [hit, hexec, TraceCacheEntry.executed]
  dsimp only
  split
  · rename_i hhot
    have h₃ := agree_edit h₂ ((h.store ..).stampLru p) hp
      (fun e => { e with
        dboOptimizationHint := e.dboOptimizationHint ||| traceCacheDboFusionEnable })
      (entry_storeDboOptimizationHint _ p _) (by decide)
    rw [hentry] at h₃ ⊢
    simpa [TraceCache.stampLru, TraceCache.setEntry] using h₃
  · rw [hentry] at h₂ ⊢
    exact h₂

/-! ## A new entry -/

/-- Apart from an entry that is being filled the memory looks the same. -/
structure Refilling (n : Nat) (p : UInt64) (s : TraceCache) (m : TraceMemory) : Prop where
  agree : Agree n m.view (s.setEntry p (m.entry p))
  layout : Layout n m
  inArena : InArena m.gTraceCache n p

lemma Refilling.start (ha : Agree n m.view s) (h : Layout n m) (hp : InArena m.gTraceCache n p) :
    Refilling n p s m := by
  refine ⟨⟨ha.gTraceCache, ha.header, ha.gTraceBuckets, ha.buckets, fun a hin => ?_⟩, h, hp⟩
  rcases eq_or_ne a p with rfl | hne
  · exact (setEntry_self ..).symm
  · exact (ha.heap a hin).trans (setEntry_of_ne s _ hne).symm

lemma Refilling.store (hs : Refilling n p s m) {i : UInt64} {k v : Nat} (hi : i.toNat + k ≤ 64) :
    Refilling n p s (m.store (p + i) k v) := by
  have hstore := agree_storeEntry (v := v) hs.agree hs.layout hs.inArena hi rfl
  rw [setEntry_setEntry] at hstore
  exact ⟨hstore, hs.layout.store .., hs.inArena⟩

/-- An entry whose fields from `Rip` to `DboOptimizationHint` have been filled. -/
def filled (e : TraceCacheEntry) (rip context : UInt64) : TraceCacheEntry :=
  { e with
    rip, context, translatedAddr := 0, microOpCount := 0, instructionCount := 0, executionCount := 1
    pinCount := 0, dboOptimizationHint := 0 }

lemma entry_fill (m : TraceMemory) (p rip context : UInt64) :
    (m.fill p rip context).entry p = filled (m.entry p) rip context := by
  simp (disch := decide) only [fill, filled, entry, store, load64_store, load64_store_nat,
    load32_store_nat, load64_store_field, load32_store_field, loadBool_store_field]
  rfl

lemma agree_fill (ha : Agree n m.view s) (h : Layout n m) (hp : InArena m.gTraceCache n p)
    (rip context : UInt64) :
    Agree n (m.fill p rip context).view (s.setEntry p (filled (s.heap p) rip context)) := by
  have hentry : filled (s.heap p) rip context = (m.fill p rip context).entry p := by
    rw [entry_fill, ← ha.heap p hp]
    rfl
  have hfill : Refilling n p s (m.fill p rip context) :=
    (Refilling.start ha h hp)
      |>.store (i := 0) (k := 8) (v := rip.toNat) (by decide)
      |>.store (i := 8) (k := 8) (v := context.toNat) (by decide)
      |>.store (i := 16) (k := 8) (v := 0) (by decide)
      |>.store (i := 24) (k := 4) (v := 0) (by decide)
      |>.store (i := 28) (k := 4) (v := 0) (by decide)
      |>.store (i := 32) (k := 4) (v := 1) (by decide)
      |>.store (i := 36) (k := 4) (v := 0) (by decide)
      |>.store (i := 40) (k := 4) (v := 0) (by decide)
  rw [hentry]
  exact hfill.agree

/-- An entry is put at the head of a bucket. -/
lemma agree_link (ha : Agree n m.view s) (h : Layout n m) (hp : InArena m.gTraceCache n p)
    (b : Bucket) : Agree n (m.link p b).view
      { s.setEntry p { s.heap p with next := s.buckets b } with
        header := { s.header with entryCount := s.header.entryCount + 1 }
        buckets := Function.update s.buckets b p } := by
  have hbucket : m.bucket b = s.buckets b := congrFun ha.buckets b
  have h₁ := agree_edit ha h hp (fun e => { e with next := m.bucket b }) (entry_storeNext m p _)
    (by decide)
  have h₂ := agree_storeBucket h₁ (h.store ..) b p
  have h₃ := agree_editHeader h₂ ((h.store ..).store ..)
    (fun hd => { hd with entryCount := hd.entryCount + 1 }) (header_storeEntryCount _ _) (by decide)
  rw [hbucket] at h₃
  rw [link, hbucket]
  exact h₃

/-! ## Calls -/

/-- The chains of a memory end and go through the first entries of the arena, which lie apart from
the header and the bucket table. -/
structure Placed (n : Nat) (m : TraceMemory) (chains : Bucket → List UInt64) : Prop where
  linked : Linked m.view chains
  inArena : ∀ b, ∀ a ∈ chains b, InArena m.gTraceCache n a
  layout : ∀ b, ∀ a ∈ chains b, Layout n m

/-- What a call leaves agrees with what the call of the model does, and is in the same place. -/
structure Simulates (n : Nat) (m m' : TraceMemory) (s' : TraceCache) : Prop where
  agree : Agree n m'.view s'
  gTraceCache : m'.gTraceCache = m.gTraceCache
  gTraceBuckets : m'.gTraceBuckets = m.gTraceBuckets

lemma Simulates.refl (n : Nat) (m : TraceMemory) : Simulates n m m m.view :=
  ⟨.refl n m.view, rfl, rfl⟩

lemma Simulates.layout {m' : TraceMemory} {s' : TraceCache} (h : Simulates n m m' s')
    (hl : Layout n m) : Layout n m' := by
  obtain ⟨hentries, htable⟩ := hl
  rw [← h.gTraceBuckets] at hentries htable
  rw [← h.gTraceCache] at hentries
  exact ⟨hentries, htable⟩

variable {chains : Bucket → List UInt64} {fuel : Nat} {rip context : UInt64} {s' : TraceCache}

/-- A walk for a key stops at an entry of a chain or at the end. -/
lemma Placed.find (h : Placed n m chains) (hfind : m.view.find fuel rip context = some p) :
    p = 0 ∨ ∃ b, p ∈ chains b := by
  obtain ⟨⟨q, u⟩, hwalk, rfl⟩ := Option.map_eq_some_iff.mp hfind
  have hstep (a : UInt64) (_ : Unit) (ha : ∃ b, a ∈ chains b) (_ : True)
      (_ : (!(m.view.heap a).isFor rip context) = true) :
      True ∧ ((∃ b, (m.view.heap a).next ∈ chains b) ∨ (m.view.heap a).next = 0) := by
    obtain ⟨b, ha⟩ := ha
    exact ⟨trivial, ((h.linked.ends b).next_mem ha).imp_left fun hmem => ⟨b, hmem⟩⟩
  refine (walk_invariant _ _ _ hstep ?_ trivial hwalk).1.symm
  exact (h.linked.ends (traceCacheHash rip context)).head_mem.imp_left fun hmem => ⟨_, hmem⟩

lemma hit_globals (m : TraceMemory) (p : UInt64) :
    (m.hit p).gTraceCache = m.gTraceCache ∧ (m.hit p).gTraceBuckets = m.gTraceBuckets := by
  rw [hit]
  split
  · exact ⟨rfl, rfl⟩
  · exact ⟨rfl, rfl⟩

lemma sim_lookup (h : Placed n m chains)
    (hrun : TCache.traceCacheLookup fuel m.view rip context = some (s', p)) :
    ∃ m', traceCacheLookup fuel m rip context = some (m', p) ∧ Simulates n m m' s' ∧
      (p = 0 ∨ ∃ b, p ∈ chains b) := by
  rw [TCache.traceCacheLookup] at hrun
  rw [traceCacheLookup]
  split at hrun
  · rename_i hready
    rw [if_pos hready]
    obtain ⟨q, hfind, hq⟩ := Option.map_eq_some_iff.mp hrun
    rw [hfind]
    split at hq
    · rename_i hnull
      cases hq
      exact ⟨m, by rw [Option.map_some, if_pos hnull], .refl n m, .inl rfl⟩
    · rename_i hnull
      cases hq
      obtain ⟨b, hb⟩ := (h.find hfind).resolve_left hnull
      obtain ⟨hg, hb'⟩ := hit_globals m p
      refine ⟨m.hit p, by rw [Option.map_some, if_neg hnull], ⟨?_, hg, hb'⟩, .inr ⟨b, hb⟩⟩
      exact agree_hit (.refl n m.view) (h.layout b p hb) (h.inArena b p hb)
  · rename_i hready
    cases hrun
    exact ⟨m, if_neg hready, .refl n m, .inl rfl⟩

lemma sim_evict (h : Placed n m chains)
    (hrun : TCache.traceCacheEvictLru fuel m.view = some s') :
    ∃ m', traceCacheEvictLru fuel m = some m' ∧ Simulates n m m' s' := by
  obtain ⟨acc, hscan, rfl⟩ := Option.map_eq_some_iff.mp hrun
  refine ⟨m.evict acc.victim, Option.map_eq_some_iff.mpr ⟨acc, hscan, rfl⟩, ?_⟩
  rw [evict, TraceCache.evict]
  rcases scanAll_spares h.linked hscan with hnull | ⟨⟨b, hb⟩, -⟩
  · rw [if_neg (not_not_intro hnull), if_neg (not_not_intro hnull)]
    exact .refl n m
  · have hnull := h.linked.ne_null hb
    have hl := h.layout b _ hb
    rw [if_pos hnull, if_pos hnull]
    have h₁ := agree_edit (.refl n m.view) hl (h.inArena b _ hb)
      (fun e => { e with valid := false }) (entry_storeValid m acc.victim 0 (by decide)) (by decide)
    have h₂ := agree_editHeader h₁ (hl.store ..)
      (fun hd => { hd with entryCount := hd.entryCount - 1 }) (header_storeEntryCount _ _) (by decide)
    exact ⟨h₂, rfl, rfl⟩

/-- A full cache evicts an entry before it creates another. -/
lemma sim_makeSpace (h : Placed n m chains)
    (hrun : (if m.view.header.entryCount ≥ traceCacheMaxEntries then
      TCache.traceCacheEvictLru fuel m.view else some m.view) = some s') :
    ∃ m', (if m.header.entryCount ≥ traceCacheMaxEntries then traceCacheEvictLru fuel m
        else some m) = some m' ∧ Simulates n m m' s' ∧ ∃ dropped, Frame dropped m.view s' := by
  split at hrun
  · rename_i hfull
    obtain ⟨m₁, hm₁, hsim⟩ := sim_evict h hrun
    obtain ⟨acc, -, rfl⟩ := Option.map_eq_some_iff.mp hrun
    exact ⟨m₁, (if_pos hfull).trans hm₁, hsim, _, frame_evict m.view acc.victim⟩
  · rename_i hspace
    cases hrun
    exact ⟨m, if_neg hspace, .refl n m, _, Same.refl m.view⟩

/-- Where the entry fits, it goes to `NextAlloc`, and its bucket leads to it. -/
lemma sim_create (ha : Agree n m.view s) (h : Layout n m)
    (hp : InArena m.gTraceCache n s.header.nextAlloc)
    (hfit : ¬ s.header.nextAlloc + entrySize > s.header.baseAddress + s.header.size)
    (rip context : UInt64) : (m.create rip context).2 = s.header.alloc ∧
      Simulates n m (m.create rip context).1 (s.create rip context) := by
  have hheader : m.header = s.header := ha.header
  have halloc : s.header.alloc = s.header.nextAlloc := if_neg hfit
  rw [create, hheader, if_neg hfit, hheader]
  refine ⟨halloc.symm, ?_, rfl, rfl⟩
  have h₁ := agree_editHeader ha h
    (fun hd => { hd with nextAlloc := s.header.nextAlloc + entrySize })
    (header_storeNextAlloc m _) (by decide)
  have h₂ := agree_fill h₁ (h.store ..) hp rip context
  have hl₂ : Layout n ((m.store (m.gTraceCache + 16) 8
      (s.header.nextAlloc + entrySize).toNat).fill s.header.nextAlloc rip context) :=
    ⟨h.entries, h.table⟩
  have h₃ := agree_stampLru h₂ hl₂ hp
  have hl₃ := hl₂.stampLru s.header.nextAlloc
  have h₄ := agree_edit h₃ hl₃ hp (fun e => { e with valid := true })
    (entry_storeValid _ _ 1 (by decide)) (by decide)
  have hl₄ := hl₃.store (s.header.nextAlloc + 48) 1 1
  have h₅ := agree_link h₄ hl₄ hp (traceCacheHash rip context)
  simpa [TraceCache.create, TraceCache.newEntry, TraceCache.setEntry, TraceCache.stampLru, filled,
    halloc] using h₅

/-- The next entry fits between the others and the bucket table, and within the arena. -/
structure Room (n : Nat) (m : TraceMemory) : Prop where
  layout : Layout n m
  inArena : InArena m.gTraceCache n m.header.nextAlloc
  fits : ¬ m.header.nextAlloc + entrySize > m.header.baseAddress + m.header.size

lemma sim_insert (h : Placed n m chains)
    (hroom : m.view.ready = true → m.view.find fuel rip context = some 0 → Room n m)
    (hrun : TCache.traceCacheInsert fuel m.view rip context = some (s', p)) :
    ∃ m', traceCacheInsert fuel m rip context = some (m', p) ∧ Simulates n m m' s' := by
  rw [TCache.traceCacheInsert] at hrun
  rw [traceCacheInsert]
  split at hrun
  · rename_i hready
    rw [if_pos hready]
    obtain ⟨q, hfind, hq⟩ := Option.bind_eq_some_iff.mp hrun
    rw [hfind, Option.bind_some]
    split at hq
    · rename_i hnull
      subst hnull
      obtain ⟨hl, hin, hfits⟩ := hroom hready hfind
      obtain ⟨s₁, hevict, hcreate⟩ := Option.map_eq_some_iff.mp hq
      cases hcreate
      obtain ⟨m₁, hm₁, hsim, dropped, hframe⟩ := sim_makeSpace h hevict
      rw [← hsim.gTraceCache] at hin
      have hnext : s₁.header.nextAlloc = m.header.nextAlloc := hframe.nextAlloc
      have hbase : s₁.header.baseAddress = m.header.baseAddress := hframe.baseAddress
      have hsize : s₁.header.size = m.header.size := hframe.size
      rw [← hnext] at hin
      rw [← hnext, ← hbase, ← hsize] at hfits
      obtain ⟨halloc, hagree, hg, hb⟩ := sim_create hsim.agree (hsim.layout hl) hin hfits rip
        context
      refine ⟨(m₁.create rip context).1, ?_, hagree, hg.trans hsim.gTraceCache,
        hb.trans hsim.gTraceBuckets⟩
      rw [if_pos rfl, hm₁, Option.map_some, ← halloc]
    · rename_i hnull
      cases hq
      obtain ⟨b, hb⟩ := (h.find hfind).resolve_left hnull
      exact ⟨m.stampLru p, if_neg hnull,
        agree_stampLru (.refl n m.view) (h.layout b p hb) (h.inArena b p hb), rfl, rfl⟩
  · rename_i hready
    cases hrun
    exact ⟨m, if_neg hready, .refl n m⟩

/-- A lookup, and then another pin count for the entry that it finds. -/
lemma sim_repin (h : Placed n m chains) (guard : TraceCacheEntry → Prop) [DecidablePred guard]
    (pins : TraceCacheEntry → UInt32)
    (hrun : ((TCache.traceCacheLookup fuel m.view rip context).map fun (s, p) =>
      if p ≠ 0 ∧ guard (s.heap p) then s.setEntry p { s.heap p with pinCount := pins (s.heap p) }
      else s) = some s') :
    ∃ m', ((traceCacheLookup fuel m rip context).map fun (m, p) =>
        if p ≠ 0 ∧ guard (m.entry p) then m.store (p + 36) 4 (pins (m.entry p)).toNat else m) =
      some m' ∧ Simulates n m m' s' := by
  obtain ⟨⟨s₁, p⟩, hlookup, hpin⟩ := Option.map_eq_some_iff.mp hrun
  obtain ⟨m₁, hm₁, hsim, hp⟩ := sim_lookup h hlookup
  rw [hm₁]
  refine ⟨_, rfl, ?_⟩
  dsimp only at hpin ⊢
  rcases eq_or_ne p 0 with rfl | hnull
  · rw [if_neg fun hguard => hguard.1 rfl] at hpin ⊢
    cases hpin
    exact hsim
  · obtain ⟨b, hb⟩ := hp.resolve_left hnull
    have hin : InArena m₁.gTraceCache n p := by
      rw [hsim.gTraceCache]
      exact h.inArena b p hb
    have hl : Layout n m₁ := hsim.layout (h.layout b p hb)
    have hentry : m₁.entry p = s₁.heap p := hsim.agree.heap p hin
    rw [hentry]
    split at hpin
    · rename_i hguard
      cases hpin
      rw [if_pos hguard]
      refine ⟨agree_edit hsim.agree hl hin (fun e => { e with pinCount := pins (s₁.heap p) })
        (entry_storePinCount m₁ p _) (by decide), hsim.gTraceCache, hsim.gTraceBuckets⟩
    · rename_i hguard
      cases hpin
      rw [if_neg hguard]
      exact hsim

/-- During an invalidation: what has been written so far, and the links are the old ones. -/
structure Invalidating (n : Nat) (m : TraceMemory) (heap : Heap) (m' : TraceMemory) : Prop where
  sim : Simulates n m m' { m.view with heap := heap }
  next : ∀ a, (heap a).next = (m.entry a).next

lemma invalidateEntry_next (rip a b : UInt64) (heap : Heap) :
    (TCache.invalidateEntry rip a heap b).next = (heap b).next := by
  rw [invalidateEntry_apply]
  exact without_field (fun e => (without_fields e rip).1) _ _

lemma Invalidating.entry {heap : Heap} {m' : TraceMemory} {b : Bucket} (h : Placed n m chains)
    (hi : Invalidating n m heap m') (rip : UInt64) (hp : p ∈ chains b) :
    Invalidating n m (TCache.invalidateEntry rip p heap) (invalidateEntry rip p m') := by
  have hin : InArena m'.gTraceCache n p := by
    rw [hi.sim.gTraceCache]
    exact h.inArena b p hp
  have hl : Layout n m' := hi.sim.layout (h.layout b p hp)
  have hentry : m'.entry p = heap p := hi.sim.agree.heap p hin
  refine ⟨?_, fun a => (invalidateEntry_next rip p a heap).trans (hi.next a)⟩
  rw [invalidateEntry, TCache.invalidateEntry, hentry]
  split
  · have hedit := agree_edit hi.sim.agree hl hin (fun e => { e with valid := false })
      (entry_storeValid m' p 0 (by decide)) (by decide)
    exact ⟨hedit, hi.sim.gTraceCache, hi.sim.gTraceBuckets⟩
  · exact hi.sim

lemma Invalidating.bucket {heap heap' : Heap} {m' : TraceMemory} {b : Bucket}
    (h : Placed n m chains) (hi : Invalidating n m heap m')
    (hrun : TCache.invalidateBucket fuel m.view rip heap b = some heap') :
    ∃ m'', invalidateBucket fuel rip m' b = some m'' ∧ Invalidating n m heap' m'' := by
  obtain ⟨⟨q, heap₁⟩, hwalk, rfl⟩ := Option.map_eq_some_iff.mp hrun
  have step (a : UInt64) (heap : Heap) (m₁ : TraceMemory) (ha : a ∈ chains b)
      (hi : Invalidating n m heap m₁) : true = true ∧ (true = true →
        Invalidating n m (TCache.invalidateEntry rip a heap) (invalidateEntry rip a m₁) ∧
        (TCache.invalidateEntry rip a heap a).next = ((invalidateEntry rip a m₁).entry a).next ∧
        ((TCache.invalidateEntry rip a heap a).next ∈ chains b ∨
          (TCache.invalidateEntry rip a heap a).next = 0)) := by
    have hi' := hi.entry h rip ha
    have hin : InArena (invalidateEntry rip a m₁).gTraceCache n a := by
      rw [hi'.sim.gTraceCache]
      exact h.inArena b a ha
    refine ⟨rfl, fun _ => ⟨hi', ?_, ?_⟩⟩
    · exact congrArg TraceCacheEntry.next (hi'.sim.agree.heap a hin).symm
    · rw [hi'.next]
      exact (h.linked.ends b).next_mem ha
  have hhead : m'.bucket b = m.bucket b := congrFun hi.sim.agree.buckets b
  obtain ⟨-, m'', hwalk', hi'⟩ : (q ∈ chains b ∨ q = 0) ∧ ∃ m'', walk 0 (fun _ _ => true)
      (invalidateEntry rip) (fun m entry => (m.entry entry).next) fuel (m.bucket b) m' =
        some (q, m'') ∧ Invalidating n m heap₁ m'' :=
    walk_sim _ _ _ step (h.linked.ends b).head_mem hi hwalk
  refine ⟨m'', ?_, hi'⟩
  rw [invalidateBucket, hhead]
  exact Option.map_eq_some_iff.mpr ⟨(q, m''), hwalk', rfl⟩

lemma Invalidating.buckets {heap heap' : Heap} {m' : TraceMemory} (h : Placed n m chains)
    (hi : Invalidating n m heap m') (bs : List Bucket)
    (hrun : bs.foldlM (TCache.invalidateBucket fuel m.view rip) heap = some heap') :
    ∃ m'', bs.foldlM (invalidateBucket fuel rip) m' = some m'' ∧ Invalidating n m heap' m'' := by
  have body (b : Bucket) (heap : Heap) (m' : TraceMemory) (heap' : Heap)
      (hi : Invalidating n m heap m')
      (hbucket : TCache.invalidateBucket fuel m.view rip heap b = some heap') :
      ∃ m'', invalidateBucket fuel rip m' b = some m'' ∧ Invalidating n m heap' m'' :=
    hi.bucket h hbucket
  exact foldlM_sim body bs hi hrun

lemma sim_invalidate (h : Placed n m chains)
    (hrun : TCache.traceCacheInvalidate fuel m.view rip = some s') :
    ∃ m', traceCacheInvalidate fuel m rip = some m' ∧ Simulates n m m' s' := by
  rw [TCache.traceCacheInvalidate] at hrun
  rw [traceCacheInvalidate]
  split at hrun
  · rename_i hnull
    obtain ⟨heap, hloop, rfl⟩ := Option.map_eq_some_iff.mp hrun
    have hstart : Invalidating n m m.view.heap m := ⟨.refl n m, fun _ => rfl⟩
    obtain ⟨m', hloop', hi⟩ := hstart.buckets h allBuckets hloop
    exact ⟨m', (if_pos hnull).trans hloop', hi.sim⟩
  · rename_i hnull
    cases hrun
    exact ⟨m, if_neg hnull, .refl n m⟩

/-- A call that returns in the model returns the same in memory. -/
lemma sim_perform {op : Op} {answer : Option UInt64} (h : Placed n m chains)
    (hroom : ∀ rip context, op = .insert rip context → m.view.ready = true →
      m.view.find fuel rip context = some 0 → Room n m)
    (hrun : TCache.perform fuel m.view op = some (s', answer)) :
    ∃ m', perform fuel m op = some (m', answer) ∧ Simulates n m m' s' := by
  cases op with
  | insert rip context =>
    obtain ⟨⟨s₁, p⟩, hinsert, heq⟩ := Option.map_eq_some_iff.mp hrun
    cases heq
    obtain ⟨m', hm', hsim⟩ := sim_insert h (hroom rip context rfl) hinsert
    exact ⟨m', Option.map_eq_some_iff.mpr ⟨(m', p), hm', rfl⟩, hsim⟩
  | lookup rip context =>
    obtain ⟨⟨s₁, p⟩, hlookup, heq⟩ := Option.map_eq_some_iff.mp hrun
    cases heq
    obtain ⟨m', hm', hsim, -⟩ := sim_lookup h hlookup
    exact ⟨m', Option.map_eq_some_iff.mpr ⟨(m', p), hm', rfl⟩, hsim⟩
  | pinEntry rip context =>
    obtain ⟨s₁, hpin, heq⟩ := Option.map_eq_some_iff.mp hrun
    cases heq
    obtain ⟨m', hm', hsim⟩ := sim_repin h (fun _ => True) (fun e => e.pinCount + 1)
      (by simpa [TCache.traceCachePinEntry] using hpin)
    exact ⟨m', Option.map_eq_some_iff.mpr ⟨m', by simpa [traceCachePinEntry] using hm', rfl⟩, hsim⟩
  | unpinEntry rip context =>
    obtain ⟨s₁, hpin, heq⟩ := Option.map_eq_some_iff.mp hrun
    cases heq
    obtain ⟨m', hm', hsim⟩ := sim_repin h (fun e => e.pinCount > 0) (fun e => e.pinCount - 1) hpin
    exact ⟨m', Option.map_eq_some_iff.mpr ⟨m', hm', rfl⟩, hsim⟩
  | invalidate rip =>
    obtain ⟨s₁, hinvalidate, heq⟩ := Option.map_eq_some_iff.mp hrun
    cases heq
    obtain ⟨m', hm', hsim⟩ := sim_invalidate h hinvalidate
    exact ⟨m', Option.map_eq_some_iff.mpr ⟨m', hm', rfl⟩, hsim⟩

/-! ## Steps -/

section
variable (m : TraceMemory)

lemma steady_find (s : TraceCache) (rip context : UInt64) : Steady fun n => s.find n rip context :=
  (steady_walk _ _ _ _ _).map _

lemma steady_scan (s : TraceCache) (acc : Scan) (b : Bucket) : Steady fun n => s.scan n acc b := by
  unfold TraceCache.scan
  split
  · exact (steady_walk _ _ _ _ _).map _
  · exact .const _

lemma steady_traceCacheLookup (rip context : UInt64) :
    Steady fun n => traceCacheLookup n m rip context := by
  unfold traceCacheLookup
  split
  · exact (steady_find m.view rip context).map _
  · exact .const _

lemma steady_traceCacheEvictLru : Steady fun n => traceCacheEvictLru n m :=
  Steady.map (.foldlM (fun acc b => steady_scan m.view acc b) _ _) _

lemma steady_traceCacheInsert (rip context : UInt64) :
    Steady fun n => traceCacheInsert n m rip context := by
  unfold traceCacheInsert
  split
  · refine (steady_find m.view rip context).bind fun p => ?_
    split
    · apply Steady.map
      split
      · exact steady_traceCacheEvictLru m
      · exact .const _
    · exact .const _
  · exact .const _

lemma steady_traceCacheInvalidate (rip : UInt64) : Steady fun n => traceCacheInvalidate n m rip := by
  unfold traceCacheInvalidate
  split
  · exact .foldlM (fun m b => (steady_walk _ _ _ _ _).map _) _ _
  · exact .const _

lemma steady_perform (op : Op) : Steady fun n => perform n m op := by
  cases op with
  | insert rip context => exact (steady_traceCacheInsert m rip context).map _
  | lookup rip context => exact (steady_traceCacheLookup m rip context).map _
  | pinEntry rip context => exact ((steady_traceCacheLookup m rip context).map _).map _
  | unpinEntry rip context => exact ((steady_traceCacheLookup m rip context).map _).map _
  | invalidate rip => exact (steady_traceCacheInvalidate m rip).map _

end

/-- A call returns, and does what the call of the model does. -/
lemma Placed.step_exists (h : Placed n m chains) (op : Op) (hroom : Creates m.view op → Room n m) :
    ∃ answer m' s', Step m op answer m' ∧ TCache.Step m.view op answer s' ∧
      Simulates n m m' s' := by
  obtain ⟨answer, s', ⟨N, hN⟩, -⟩ := h.linked.step_exists op
  obtain ⟨M, hM⟩ : ∃ M, ∀ fuel, M ≤ fuel → ∀ rip context, op = .insert rip context →
      m.view.ready = true → m.view.find fuel rip context = some 0 → Room n m := by
    cases op with
    | insert rip context =>
      obtain ⟨M, hM⟩ := h.linked.creates_of_find rip context
      refine ⟨M, fun fuel hfuel rip' context' hop hready hnull => ?_⟩
      obtain ⟨rfl, rfl⟩ := Op.insert.inj hop
      exact hroom (hM fuel hfuel hready hnull)
    | lookup => exact ⟨0, nofun⟩
    | pinEntry => exact ⟨0, nofun⟩
    | unpinEntry => exact ⟨0, nofun⟩
    | invalidate => exact ⟨0, nofun⟩
  obtain ⟨m', hm', hsim⟩ := sim_perform h (hM _ (Nat.le_max_right N M)) (hN _ (Nat.le_max_left N M))
  exact ⟨answer, m', s', (steady_perform m op).settles hm', ⟨N, hN⟩, hsim⟩

/-- The same of a call that is known to return. -/
lemma Placed.step {op : Op} {answer : Option UInt64} {m' : TraceMemory} (h : Placed n m chains)
    (hroom : Creates m.view op → Room n m) (st : Step m op answer m') :
    ∃ s', TCache.Step m.view op answer s' ∧ Simulates n m m' s' := by
  obtain ⟨answer', m'', s', st', hmodel, hsim⟩ := h.step_exists op hroom
  obtain ⟨rfl, rfl⟩ := Prod.mk.inj (st.unique st')
  exact ⟨s', hmodel, hsim⟩

end TraceMemory

end Bemi.TCache
