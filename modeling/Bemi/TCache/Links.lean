import Bemi.TCache.TraceCache

/-!
# What the trace cache operations do to the chains

One lemma for each operation, over a cache whose chains end: the operation terminates, and apart
from `create` it changes neither a link nor a key. `Frame dropped s s'` states the latter, together
with the entries that lose their `Valid`.
-/

namespace Bemi.TCache
open Chain

def TraceCache.next (s : TraceCache) (p : UInt64) : UInt64 :=
  (s.heap p).next

lemma ready_ne_null {s : TraceCache} (h : s.ready = true) : s.gTraceCache ≠ 0 := by
  rw [TraceCache.ready, Bool.and_eq_true] at h
  simpa using h.1

/-- The chains end, and each valid entry is in the bucket of its key. -/
structure Linked (s : TraceCache) (chains : Bucket → List UInt64) : Prop where
  ends : ∀ b, Ends s.next 0 (s.buckets b) (chains b)
  hash : ∀ b, ∀ a ∈ chains b, (s.heap a).valid = true →
    traceCacheHash (s.heap a).rip (s.heap a).context = b

lemma Linked.unique {s : TraceCache} {chains chains' : Bucket → List UInt64} (h : Linked s chains)
    (h' : Linked s chains') : chains = chains' :=
  funext fun b => (h.ends b).unique (h'.ends b)

/-- `s'` differs from `s` in contents of entries at most, and in its counters; exactly the entries
in `dropped` are no longer valid. -/
structure Frame (dropped : UInt64 → Prop) (s s' : TraceCache) : Prop where
  gTraceCache : s'.gTraceCache = s.gTraceCache
  initialized : s'.header.initialized = s.header.initialized
  baseAddress : s'.header.baseAddress = s.header.baseAddress
  size : s'.header.size = s.header.size
  nextAlloc : s'.header.nextAlloc = s.header.nextAlloc
  buckets : s'.buckets = s.buckets
  next : ∀ a, (s'.heap a).next = (s.heap a).next
  rip : ∀ a, (s'.heap a).rip = (s.heap a).rip
  context : ∀ a, (s'.heap a).context = (s.heap a).context
  valid : ∀ a, (s'.heap a).valid = true ↔ (s.heap a).valid = true ∧ ¬ dropped a

/-- Nothing is dropped. -/
abbrev Same : TraceCache → TraceCache → Prop := Frame fun _ => False

lemma Same.refl (s : TraceCache) : Same s s :=
  ⟨rfl, rfl, rfl, rfl, rfl, rfl, fun _ => rfl, fun _ => rfl, fun _ => rfl, fun _ => by simp⟩

lemma Frame.trans {d d' : UInt64 → Prop} {s s' s'' : TraceCache} (h : Frame d s s')
    (h' : Frame d' s' s'') : Frame (fun a => d a ∨ d' a) s s'' where
  gTraceCache := h'.gTraceCache.trans h.gTraceCache
  initialized := h'.initialized.trans h.initialized
  baseAddress := h'.baseAddress.trans h.baseAddress
  size := h'.size.trans h.size
  nextAlloc := h'.nextAlloc.trans h.nextAlloc
  buckets := h'.buckets.trans h.buckets
  next a := (h'.next a).trans (h.next a)
  rip a := (h'.rip a).trans (h.rip a)
  context a := (h'.context a).trans (h.context a)
  valid a := by rw [h'.valid, h.valid, not_or, and_assoc]

lemma Same.trans {s s' s'' : TraceCache} (h : Same s s') (h' : Same s' s'') : Same s s'' := by
  simpa using Frame.trans h h'

lemma Frame.next_eq {d : UInt64 → Prop} {s s' : TraceCache} (h : Frame d s s') :
    s'.next = s.next :=
  funext h.next

lemma Frame.ready_eq {d : UInt64 → Prop} {s s' : TraceCache} (h : Frame d s s') :
    s'.ready = s.ready := by
  rw [TraceCache.ready, TraceCache.ready, h.gTraceCache, h.initialized]

lemma Frame.alloc_eq {d : UInt64 → Prop} {s s' : TraceCache} (h : Frame d s s') :
    s'.header.alloc = s.header.alloc := by
  rw [TraceCacheHeader.alloc, TraceCacheHeader.alloc, h.baseAddress, h.size, h.nextAlloc]

lemma Frame.linked {d : UInt64 → Prop} {s s' : TraceCache} (h : Frame d s s')
    {chains : Bucket → List UInt64} (hl : Linked s chains) : Linked s' chains where
  ends b := by
    rw [h.next_eq, h.buckets]
    exact hl.ends b
  hash b a ha hv := by
    rw [h.rip, h.context]
    exact hl.hash b a ha ((h.valid a).mp hv).1

@[simp] lemma setEntry_self (s : TraceCache) (p : UInt64) (e : TraceCacheEntry) :
    (s.setEntry p e).heap p = e :=
  Function.update_self ..

@[simp] lemma setEntry_of_ne (s : TraceCache) {p a : UInt64} (e : TraceCacheEntry) (h : a ≠ p) :
    (s.setEntry p e).heap a = s.heap a :=
  Function.update_of_ne h ..

/-- A field that the new entry shares with the old one is the same everywhere. -/
lemma setEntry_field {γ : Type} {s : TraceCache} {p : UInt64} {e : TraceCacheEntry}
    (f : TraceCacheEntry → γ) (h : f e = f (s.heap p)) (a : UInt64) :
    f ((s.setEntry p e).heap a) = f (s.heap a) := by
  by_cases ha : a = p
  · rw [ha, setEntry_self, h]
  · rw [setEntry_of_ne s e ha]

/-- Changing the other fields of an entry. -/
lemma same_setEntry {s : TraceCache} {p : UInt64} {e : TraceCacheEntry}
    (hnext : e.next = (s.heap p).next) (hrip : e.rip = (s.heap p).rip)
    (hcontext : e.context = (s.heap p).context) (hvalid : e.valid = (s.heap p).valid) :
    Same s (s.setEntry p e) := by
  refine ⟨rfl, rfl, rfl, rfl, rfl, rfl, setEntry_field _ hnext, setEntry_field _ hrip,
    setEntry_field _ hcontext, fun a => ?_⟩
  rw [setEntry_field _ hvalid]
  simp

lemma same_stampLru (s : TraceCache) (p : UInt64) : Same s (s.stampLru p) := by
  have h := same_setEntry (s := s) (p := p)
    (e := { s.heap p with lruCounter := s.header.lruCounter.toUInt32 }) rfl rfl rfl rfl
  exact ⟨rfl, rfl, rfl, rfl, rfl, rfl, h.next, h.rip, h.context, h.valid⟩

/-! ## Lookup -/

/-- `p` is what a walk along the chain of a key finds. -/
def Finds (s : TraceCache) (chains : Bucket → List UInt64) (rip context p : UInt64) : Prop :=
  (p = 0 ∧ ∀ a ∈ chains (traceCacheHash rip context), (s.heap a).isFor rip context = false) ∨
    (p ∈ chains (traceCacheHash rip context) ∧ (s.heap p).isFor rip context = true)

lemma find_settles {s : TraceCache} {chains : Bucket → List UInt64} (h : Linked s chains)
    (rip context : UInt64) :
    ∃ p, Settles (fun n => s.find n rip context) p ∧ Finds s chains rip context p := by
  obtain ⟨done, rest, hchain, hdone, hrest, hwalk⟩ :=
    walk_settles (fun _ entry => !(s.heap entry).isFor rip context) (fun _ u => u)
      (fun _ entry => (s.heap entry).next) (fun _ _ => rfl) () (h.ends (traceCacheHash rip context))
  refine ⟨_, hwalk.map Prod.fst, ?_⟩
  cases rest with
  | nil =>
    rw [List.append_nil] at hchain
    refine .inl ⟨rfl, fun a ha => ?_⟩
    obtain ⟨-, hstop⟩ := hdone a (hchain ▸ ha)
    simpa using hstop
  | cons a rest =>
    refine .inr ⟨?_, ?_⟩
    · rw [hchain]
      simp
    · simpa using hrest a rfl

lemma Linked.ne_null {s : TraceCache} {chains : Bucket → List UInt64} (h : Linked s chains)
    {b : Bucket} {a : UInt64} (ha : a ∈ chains b) : a ≠ 0 :=
  (h.ends b).ne_null ha

lemma executed_keeps (e : TraceCacheEntry) : e.executed.next = e.next ∧ e.executed.rip = e.rip ∧
    e.executed.context = e.context ∧ e.executed.valid = e.valid := by
  unfold TraceCacheEntry.executed
  dsimp only
  split <;> exact ⟨rfl, rfl, rfl, rfl⟩

lemma lookup_settles {s : TraceCache} {chains : Bucket → List UInt64} (h : Linked s chains)
    (rip context : UInt64) :
    ∃ s' p, Settles (fun n => traceCacheLookup n s rip context) (s', p) ∧ Same s s' ∧
      s'.header.entryCount = s.header.entryCount ∧
      (s.ready = false ∧ p = 0 ∨ s.ready = true ∧ Finds s chains rip context p) := by
  unfold traceCacheLookup
  cases hready : s.ready with
  | false => exact ⟨s, 0, .const _, .refl s, rfl, .inl ⟨rfl, rfl⟩⟩
  | true =>
    obtain ⟨p, hfind, hp⟩ := find_settles h rip context
    by_cases hp0 : p = 0
    · refine ⟨s, p, ?_, .refl s, rfl, .inr ⟨rfl, hp⟩⟩
      have := hfind.map fun p =>
        if p = 0 then (s, 0) else ((s.setEntry p (s.heap p).executed).stampLru p, p)
      simpa [hp0] using this
    · obtain ⟨hnext, hrip, hcontext, hvalid⟩ := executed_keeps (s.heap p)
      refine ⟨(s.setEntry p (s.heap p).executed).stampLru p, p, ?_, ?_, rfl, .inr ⟨rfl, hp⟩⟩
      · have := hfind.map fun p =>
          if p = 0 then (s, 0) else ((s.setEntry p (s.heap p).executed).stampLru p, p)
        simpa [hp0] using this
      · exact (same_setEntry hnext hrip hcontext hvalid).trans (same_stampLru _ p)

/-- A lookup, and then an edit of the entry found that keeps its key, link and valid flag. -/
lemma lookup_edit_settles {s : TraceCache} {chains : Bucket → List UInt64} (h : Linked s chains)
    (rip context : UInt64) (guard : TraceCache → UInt64 → Prop) [∀ s p, Decidable (guard s p)]
    (edit : TraceCacheEntry → TraceCacheEntry) (hkeeps : ∀ e, (edit e).next = e.next ∧
      (edit e).rip = e.rip ∧ (edit e).context = e.context ∧ (edit e).valid = e.valid) :
    ∃ s', Settles (fun n => (traceCacheLookup n s rip context).map fun (s, p) =>
        if guard s p then s.setEntry p (edit (s.heap p)) else s) s' ∧ Same s s' ∧
      s'.header.entryCount = s.header.entryCount := by
  obtain ⟨s₁, p, hlookup, hsame, hcount, -⟩ := lookup_settles h rip context
  refine ⟨_, hlookup.map _, ?_⟩
  dsimp only
  split
  · obtain ⟨hnext, hrip, hcontext, hvalid⟩ := hkeeps (s₁.heap p)
    exact ⟨hsame.trans (same_setEntry hnext hrip hcontext hvalid), hcount⟩
  · exact ⟨hsame, hcount⟩

/-! ## Insertion -/

/-- The scan of one chain ends; it only reads the heap. -/
lemma scan_settles {s : TraceCache} {chains : Bucket → List UInt64} (h : Linked s chains)
    (acc : Scan) (b : Bucket) : ∃ acc', Settles (fun n => s.scan n acc b) acc' := by
  unfold TraceCache.scan
  split
  · obtain ⟨_, _, -, -, -, hwalk⟩ :=
      walk_settles (fun acc _ => acc.scanned < s.header.lruScanDepth) (Scan.entry s.heap)
        (fun _ entry => (s.heap entry).next) (fun _ _ => rfl) acc (h.ends b)
    exact ⟨_, hwalk.map Prod.snd⟩
  · exact ⟨acc, .const acc⟩

/-- The victim of a scan, if there is one, is on a chain and not pinned. -/
def Spares (s : TraceCache) (chains : Bucket → List UInt64) (acc : Scan) : Prop :=
  acc.victim = 0 ∨ (∃ b, acc.victim ∈ chains b) ∧ (s.heap acc.victim).pinCount = 0

lemma scan_spares {s : TraceCache} {chains : Bucket → List UInt64} (h : Linked s chains)
    {fuel : Nat} {b : Bucket} {acc acc' : Scan} (hacc : Spares s chains acc)
    (hrun : s.scan fuel acc b = some acc') : Spares s chains acc' := by
  rw [TraceCache.scan] at hrun
  split at hrun
  · obtain ⟨⟨q, acc₁⟩, hwalk, rfl⟩ := Option.map_eq_some_iff.mp hrun
    have step (a : UInt64) (acc : Scan) (ha : ∃ b, a ∈ chains b) (hacc : Spares s chains acc)
        (_ : decide (acc.scanned < s.header.lruScanDepth) = true) :
        Spares s chains (Scan.entry s.heap a acc) ∧
          ((∃ b, (s.heap a).next ∈ chains b) ∨ (s.heap a).next = 0) := by
      obtain ⟨c, ha⟩ := ha
      refine ⟨?_, ((h.ends c).next_mem ha).imp_left fun hmem => ⟨c, hmem⟩⟩
      rw [Scan.entry]
      split
      · rename_i hcandidate
        rw [Bool.and_eq_true] at hcandidate
        split
        · exact .inr ⟨⟨c, ha⟩, by simpa using hcandidate.2⟩
        · exact hacc
      · exact hacc
    exact (walk_invariant _ _ _ step ((h.ends b).head_mem.imp_left fun hmem => ⟨b, hmem⟩) hacc
      hwalk).2
  · cases hrun
    exact hacc

lemma scanAll_spares {s : TraceCache} {chains : Bucket → List UInt64} (h : Linked s chains)
    {fuel : Nat} {bs : List Bucket} {acc : Scan}
    (hrun : bs.foldlM (s.scan fuel) ⟨0xFFFFFFFFFFFFFFFF, 0, 0⟩ = some acc) :
    Spares s chains acc :=
  foldlM_invariant (fun _ _ _ hacc hscan => scan_spares h hacc hscan) bs (.inl rfl) hrun

lemma frame_evict (s : TraceCache) (victim : UInt64) :
    Frame (fun a => victim ≠ 0 ∧ a = victim) s (s.evict victim) := by
  unfold TraceCache.evict
  split
  next hv =>
    refine ⟨rfl, rfl, rfl, rfl, rfl, rfl, setEntry_field _ rfl, setEntry_field _ rfl,
      setEntry_field _ rfl, fun a => ?_⟩
    change ((s.setEntry victim { s.heap victim with valid := false }).heap a).valid = true ↔ _
    by_cases ha : a = victim
    · simp [ha, hv]
    · rw [setEntry_of_ne s _ ha]
      simp [ha]
  next hv => simpa [hv] using Same.refl s

lemma evict_settles {s : TraceCache} {chains : Bucket → List UInt64} (h : Linked s chains) :
    ∃ s' dropped, Settles (fun n => traceCacheEvictLru n s) s' ∧ Frame dropped s s' := by
  obtain ⟨acc, hscan, -⟩ := Settles.foldlM (I := fun _ _ => True) (f := fun n => s.scan n)
    (fun _ b acc _ => (scan_settles h acc b).imp fun _ hacc => ⟨hacc, trivial⟩)
    (scanOrder s.startBucket) [] ⟨0xFFFFFFFFFFFFFFFF, 0, 0⟩ trivial
  exact ⟨_, _, hscan.map _, frame_evict s acc.victim⟩

/-- An insertion is refused, finds its entry, or creates one after it may have evicted another. -/
lemma insert_settles {s : TraceCache} {chains : Bucket → List UInt64} (h : Linked s chains)
    (rip context : UInt64) :
    ∃ s' p, Settles (fun n => traceCacheInsert n s rip context) (s', p) ∧
      (s.ready = false ∧ s' = s ∧ p = 0 ∨
        s.ready = true ∧ p ∈ chains (traceCacheHash rip context) ∧
          (s.heap p).isFor rip context = true ∧ Same s s' ∧
          s'.header.entryCount = s.header.entryCount ∨
        s.ready = true ∧
          (∀ a ∈ chains (traceCacheHash rip context), (s.heap a).isFor rip context = false) ∧
          ∃ s₁ dropped, Frame dropped s s₁ ∧
            (s.header.entryCount < traceCacheMaxEntries → s₁ = s) ∧
            s' = s₁.create rip context ∧ p = s.header.alloc) := by
  unfold traceCacheInsert
  cases hready : s.ready with
  | false => exact ⟨s, 0, .const _, .inl ⟨rfl, rfl, rfl⟩⟩
  | true =>
    obtain ⟨p, hfind, ⟨rfl, hnone⟩ | ⟨hp, hfor⟩⟩ := find_settles h rip context
    · by_cases hfull : s.header.entryCount ≥ traceCacheMaxEntries
      · obtain ⟨s₁, dropped, hevict, hframe⟩ := evict_settles h
        refine ⟨s₁.create rip context, s.header.alloc, ?_, .inr (.inr ⟨rfl, hnone, s₁, dropped,
          hframe, fun hlt => absurd hlt (UInt32.not_lt.mpr hfull), rfl, rfl⟩)⟩
        rw [← hframe.alloc_eq]
        simp only [if_true]
        refine hfind.bind ?_
        simp only [if_true, if_pos hfull]
        exact hevict.map fun s => (s.create rip context, s.header.alloc)
      · refine ⟨s.create rip context, s.header.alloc, ?_, .inr (.inr ⟨rfl, hnone, s, fun _ => False,
          Same.refl s, fun _ => rfl, rfl, rfl⟩)⟩
        simp only [if_true]
        refine hfind.bind ?_
        simp only [if_true, if_neg hfull]
        exact .const _
    · refine ⟨s.stampLru p, p, ?_, .inr (.inl ⟨rfl, hp, hfor, same_stampLru s p, rfl⟩)⟩
      simp only [if_true]
      refine hfind.bind ?_
      simp only [if_neg (h.ne_null hp)]
      exact .const _

/-- The entry at `a` is on the chain of bucket `b`. -/
def OnChain (s : TraceCache) (b : Bucket) (a : UInt64) : Prop :=
  Reach s.next 0 a (s.buckets b)

lemma Linked.onChain_iff {s : TraceCache} {chains : Bucket → List UInt64} (h : Linked s chains)
    {b : Bucket} {a : UInt64} : OnChain s b a ↔ a ∈ chains b :=
  (h.ends b).reach_iff

@[simp] lemma create_gTraceCache (s : TraceCache) (rip context : UInt64) :
    (s.create rip context).gTraceCache = s.gTraceCache := by
  simp only [TraceCache.create, TraceCache.setEntry]

@[simp] lemma create_gTraceBuckets (s : TraceCache) (rip context : UInt64) :
    (s.create rip context).gTraceBuckets = s.gTraceBuckets := by
  simp only [TraceCache.create, TraceCache.setEntry]

@[simp] lemma create_header (s : TraceCache) (rip context : UInt64) :
    (s.create rip context).header =
      { s.header with
        nextAlloc := s.header.alloc + entrySize
        lruCounter := s.header.lruCounter + 1
        entryCount := s.header.entryCount + 1 } := rfl

lemma create_ready (s : TraceCache) (rip context : UInt64) :
    (s.create rip context).ready = s.ready := by
  rw [TraceCache.ready, create_gTraceCache, create_header]
  rfl

@[simp] lemma create_buckets (s : TraceCache) (rip context : UInt64) :
    (s.create rip context).buckets =
      Function.update s.buckets (traceCacheHash rip context) s.header.alloc := rfl

@[simp] lemma create_self (s : TraceCache) (rip context : UInt64) :
    (s.create rip context).heap s.header.alloc = s.newEntry rip context := by
  simp only [TraceCache.create, TraceCache.setEntry, Function.update_self]

lemma create_of_ne (s : TraceCache) (rip context : UInt64) {a : UInt64}
    (ha : a ≠ s.header.alloc) : (s.create rip context).heap a = s.heap a := by
  simp only [TraceCache.create, TraceCache.setEntry, Function.update_of_ne ha]

/-- The chains after an entry has been put at the head of its bucket; one at `NULL` ends the
chain. -/
def createdChains (s : TraceCache) (chains : Bucket → List UInt64) (rip context : UInt64) :
    Bucket → List UInt64 :=
  Function.update chains (traceCacheHash rip context)
    (if s.header.alloc = 0 then [] else s.header.alloc :: chains (traceCacheHash rip context))

/-- Creating an entry at an address that is on no chain keeps the chains. -/
lemma Linked.create {s : TraceCache} {chains : Bucket → List UInt64} (h : Linked s chains)
    {rip context : UInt64} (hfresh : ∀ b, s.header.alloc ∉ chains b) :
    Linked (s.create rip context) (createdChains s chains rip context) := by
  have hne {b : Bucket} {a : UInt64} (ha : a ∈ chains b) : a ≠ s.header.alloc := by
    rintro rfl
    exact hfresh b ha
  have hold (b : Bucket) : Ends (s.create rip context).next 0 (s.buckets b) (chains b) :=
    (h.ends b).congr fun a ha => congrArg TraceCacheEntry.next (create_of_ne s _ _ (hne ha))
  have hhash {b : Bucket} {a : UInt64} (ha : a ∈ chains b)
      (hv : ((s.create rip context).heap a).valid = true) :
      traceCacheHash ((s.create rip context).heap a).rip ((s.create rip context).heap a).context =
        b := by
    rw [create_of_ne s _ _ (hne ha)] at hv ⊢
    exact h.hash b a ha hv
  refine ⟨fun b => ?_, fun b a ha hv => ?_⟩
  · rw [createdChains, create_buckets]
    by_cases hb : b = traceCacheHash rip context
    · subst hb
      rw [Function.update_self, Function.update_self]
      split
      next hnull =>
        rw [hnull]
        exact .nil
      next hnull =>
        refine .cons hnull ?_
        rw [TraceCache.next, create_self]
        exact hold _
    · rw [Function.update_of_ne hb, Function.update_of_ne hb]
      exact hold b
  · rw [createdChains] at ha
    by_cases hb : b = traceCacheHash rip context
    · subst hb
      rw [Function.update_self] at ha
      split at ha
      next => cases ha
      next =>
        rcases List.mem_cons.mp ha with rfl | ha
        · rw [create_self]
          rfl
        · exact hhash ha hv
    · rw [Function.update_of_ne hb] at ha
      exact hhash ha hv

lemma Linked.reach_create {s : TraceCache} {chains : Bucket → List UInt64} (h : Linked s chains)
    (rip context : UInt64) {b : Bucket} (ha : s.header.alloc ∈ chains b) :
    Reach (s.create rip context).next 0 s.header.alloc (s.buckets b) :=
  (h.onChain_iff.mpr ha).congr fun _ hp => congrArg TraceCacheEntry.next (create_of_ne s _ _ hp)

/-- An entry created at an address that is on the chain of its bucket closes the chain. -/
lemma Linked.not_ends_create {s : TraceCache} {chains : Bucket → List UInt64} (h : Linked s chains)
    {rip context : UInt64} (ha : s.header.alloc ∈ chains (traceCacheHash rip context))
    (l : List UInt64) : ¬ Ends (s.create rip context).next 0
      ((s.create rip context).buckets (traceCacheHash rip context)) l := by
  intro hends
  rw [create_buckets, Function.update_self] at hends
  refine hends.not_reach_next (hends.reach_iff.mp (.here (h.ne_null ha))) ?_
  rw [TraceCache.next, create_self]
  exact h.reach_create rip context ha

/-- An entry created at an address that is on a chain breaks the chains. -/
lemma Linked.not_create {s : TraceCache} {chains chains' : Bucket → List UInt64}
    (h : Linked s chains) {rip context : UInt64}
    (h' : Linked (s.create rip context) chains') (b : Bucket) : s.header.alloc ∉ chains b := by
  intro ha
  by_cases hb : b = traceCacheHash rip context
  · subst hb
    exact h.not_ends_create ha _ (h'.ends _)
  · -- the new entry is valid and on the chain of another bucket than its own
    have hhead := h'.ends b
    rw [create_buckets, Function.update_of_ne hb] at hhead
    have hhash := h'.hash b _ (hhead.reach_iff.mp (h.reach_create rip context ha))
      (by rw [create_self]; rfl)
    rw [create_self] at hhash
    exact hb hhash.symm

/-! ## Invalidation -/

/-- `e` if it is not of `rip`, and otherwise `e` without its `Valid`. -/
def TraceCacheEntry.without (e : TraceCacheEntry) (rip : UInt64) : TraceCacheEntry :=
  if e.rip = rip then { e with valid := false } else e

@[simp] lemma without_without (e : TraceCacheEntry) (rip : UInt64) :
    (e.without rip).without rip = e.without rip := by
  unfold TraceCacheEntry.without
  split <;> rfl

lemma without_fields (e : TraceCacheEntry) (rip : UInt64) : (e.without rip).next = e.next ∧
    (e.without rip).rip = e.rip ∧ (e.without rip).context = e.context ∧
    ((e.without rip).valid = true ↔ e.valid = true ∧ e.rip ≠ rip) := by
  unfold TraceCacheEntry.without
  split
  next h => simp [h]
  next h => simp [h]

/-- Taking the `Valid` of some entries changes no other field. -/
lemma without_field {γ : Type} {rip : UInt64} {f : TraceCacheEntry → γ}
    (hf : ∀ e : TraceCacheEntry, f (e.without rip) = f e) (p : Prop) [Decidable p]
    (e : TraceCacheEntry) : f (if p then e.without rip else e) = f e := by
  split
  · exact hf e
  · rfl

lemma invalidateEntry_apply (rip p : UInt64) (heap : Heap) (a : UInt64) :
    invalidateEntry rip p heap a = if a = p then (heap a).without rip else heap a := by
  unfold invalidateEntry
  by_cases hap : a = p
  · subst hap
    rw [if_pos rfl]
    have hinvalid (e : TraceCacheEntry) (h : e.valid = false) : { e with valid := false } = e := by
      cases e
      cases h
      rfl
    cases hvalid : (heap a).valid with
    | true => by_cases hrip : (heap a).rip = rip <;> simp [TraceCacheEntry.without, hrip]
    | false => simp [TraceCacheEntry.without, hinvalid _ hvalid]
  · rw [if_neg hap]
    split
    · exact Function.update_of_ne hap ..
    · rfl

lemma foldl_invalidateEntry (rip : UInt64) (l : List UInt64) (heap : Heap) (a : UInt64) :
    l.foldl (fun heap p => invalidateEntry rip p heap) heap a =
      if a ∈ l then (heap a).without rip else heap a := by
  induction l generalizing heap with
  | nil => simp
  | cons p l ih =>
    rw [List.foldl_cons, ih, invalidateEntry_apply]
    by_cases hap : a = p
    · simp [hap]
    · simp [hap]

lemma invalidateBucket_settles {s : TraceCache} {chains : Bucket → List UInt64}
    (h : Linked s chains) (rip : UInt64) {heap : Heap}
    (hnext : ∀ a, (heap a).next = (s.heap a).next) (b : Bucket) :
    ∃ heap', Settles (fun n => invalidateBucket n s rip heap b) heap' ∧
      ∀ a, heap' a = if a ∈ chains b then (heap a).without rip else heap a := by
  have keep (a : UInt64) (heap : Heap) :
      (fun p => (invalidateEntry rip a heap p).next) = fun p => (heap p).next := by
    funext p
    rw [invalidateEntry_apply]
    exact without_field (fun e => (without_fields e rip).1) _ _
  have hends : Ends (fun p => (heap p).next) 0 (s.buckets b) (chains b) := by
    rw [show (fun p => (heap p).next) = s.next from funext hnext]
    exact h.ends b
  obtain ⟨done, rest, hchain, -, hrest, hwalk⟩ :=
    walk_settles (fun _ _ => true) (invalidateEntry rip) (fun heap p => (heap p).next) keep heap
      hends
  obtain rfl : rest = [] := by
    cases rest with
    | nil => rfl
    | cons a _ => cases hrest a rfl
  obtain rfl : chains b = done := by rw [hchain, List.append_nil]
  exact ⟨_, hwalk.map Prod.snd, foldl_invalidateEntry rip _ heap⟩

lemma invalidateBuckets_settles {s : TraceCache} {chains : Bucket → List UInt64}
    (h : Linked s chains) (rip : UInt64) (bs : List Bucket) :
    ∃ heap, Settles (fun n => bs.foldlM (invalidateBucket n s rip) s.heap) heap ∧
      ∀ a, heap a = if ∃ b ∈ bs, a ∈ chains b then (s.heap a).without rip else s.heap a := by
  have body (done : List Bucket) (b : Bucket) (heap : Heap)
      (hheap : ∀ a, heap a =
        if ∃ c ∈ done, a ∈ chains c then (s.heap a).without rip else s.heap a) :
      ∃ heap', Settles (fun n => invalidateBucket n s rip heap b) heap' ∧ ∀ a, heap' a =
        if ∃ c ∈ done ++ [b], a ∈ chains c then (s.heap a).without rip else s.heap a := by
    have hnext (a : UInt64) : (heap a).next = (s.heap a).next := by
      rw [hheap]
      exact without_field (fun e => (without_fields e rip).1) _ _
    obtain ⟨heap', hwalk, hheap'⟩ := invalidateBucket_settles h rip hnext b
    refine ⟨heap', hwalk, fun a => ?_⟩
    have hsplit : (∃ c ∈ done ++ [b], a ∈ chains c) ↔ (∃ c ∈ done, a ∈ chains c) ∨ a ∈ chains b := by
      simp [or_and_right, exists_or]
    rw [hheap', hheap]
    by_cases hb : a ∈ chains b
    · rw [if_pos hb, if_pos (hsplit.mpr (.inr hb))]
      split
      · exact without_without ..
      · rfl
    · simp only [hsplit, hb, or_false, if_false]
  exact Settles.foldlM body bs [] s.heap fun a => by simp

lemma mem_allBuckets (b : Bucket) : b ∈ allBuckets :=
  List.mem_finRange b

/-- What an invalidation changes. -/
lemma invalidated_frame {s : TraceCache} {chains : Bucket → List UInt64} {rip : UInt64}
    {heap : UInt64 → TraceCacheEntry} (hheap : ∀ a, heap a =
      if ∃ b, a ∈ chains b then (s.heap a).without rip else s.heap a) :
    Frame (fun a => (∃ b, a ∈ chains b) ∧ (s.heap a).rip = rip) s { s with heap := heap } := by
  have field {γ : Type} (f : TraceCacheEntry → γ)
      (hf : ∀ e : TraceCacheEntry, f (e.without rip) = f e) (a : UInt64) :
      f (heap a) = f (s.heap a) := by
    rw [hheap]
    exact without_field hf _ _
  refine ⟨rfl, rfl, rfl, rfl, rfl, rfl, field _ fun e => (without_fields e rip).1,
    field _ fun e => (without_fields e rip).2.1, field _ fun e => (without_fields e rip).2.2.1,
    fun a => ?_⟩
  change (heap a).valid = true ↔ _
  rw [hheap]
  split
  next hchain => simp [(without_fields (s.heap a) rip).2.2.2, hchain]
  next hchain => simp [hchain]

lemma invalidate_settles {s : TraceCache} {chains : Bucket → List UInt64} (h : Linked s chains)
    (rip : UInt64) :
    ∃ s', Settles (fun n => traceCacheInvalidate n s rip) s' ∧ s'.header = s.header ∧
      Frame (fun a => s.gTraceCache ≠ 0 ∧ (∃ b, a ∈ chains b) ∧ (s.heap a).rip = rip) s s' := by
  unfold traceCacheInvalidate
  by_cases hnull : s.gTraceCache ≠ 0
  · obtain ⟨heap, hloop, hheap⟩ := invalidateBuckets_settles h rip allBuckets
    simp only [mem_allBuckets, true_and] at hheap
    simp only [if_pos hnull]
    refine ⟨_, hloop.map _, rfl, ?_⟩
    simpa only [hnull, ne_eq, not_false_eq_true, true_and] using invalidated_frame hheap
  · simp only [if_neg hnull]
    refine ⟨s, .const s, rfl, ?_⟩
    simpa [hnull] using Same.refl s

/-! ## One call -/

/-- Everything a call can do to a cache whose chains end. -/
inductive Outcome (chains : Bucket → List UInt64) (s : TraceCache) :
    Op → Option UInt64 → TraceCache → Prop where
  | refused {rip context} :
    s.ready = false →
    Outcome chains s (.insert rip context) (some 0) s
  | found {rip context p s'} :
    s.ready = true →
    p ∈ chains (traceCacheHash rip context) →
    (s.heap p).isFor rip context = true →
    Same s s' →
    s'.header.entryCount = s.header.entryCount →
    Outcome chains s (.insert rip context) (some p) s'
  | created {rip context s₁ dropped} :
    s.ready = true →
    (∀ a ∈ chains (traceCacheHash rip context), (s.heap a).isFor rip context = false) →
    Frame dropped s s₁ →
    (s.header.entryCount < traceCacheMaxEntries → s₁ = s) →
    Outcome chains s (.insert rip context) (some s.header.alloc) (s₁.create rip context)
  | lookup {rip context p s'} :
    Same s s' →
    s'.header.entryCount = s.header.entryCount →
    (s.ready = false ∧ p = 0 ∨ s.ready = true ∧ Finds s chains rip context p) →
    Outcome chains s (.lookup rip context) (some p) s'
  | pinEntry {rip context s'} :
    Same s s' →
    s'.header.entryCount = s.header.entryCount →
    Outcome chains s (.pinEntry rip context) none s'
  | unpinEntry {rip context s'} :
    Same s s' →
    s'.header.entryCount = s.header.entryCount →
    Outcome chains s (.unpinEntry rip context) none s'
  | invalidate {rip s'} :
    Frame (fun a => s.gTraceCache ≠ 0 ∧ (∃ b, a ∈ chains b) ∧ (s.heap a).rip = rip) s s' →
    s'.header = s.header →
    Outcome chains s (.invalidate rip) none s'

/-- Every call on a cache whose chains end returns. -/
lemma Linked.step_exists {s : TraceCache} {chains : Bucket → List UInt64} (h : Linked s chains)
    (op : Op) : ∃ answer s', Step s op answer s' ∧ Outcome chains s op answer s' := by
  cases op with
  | insert rip context =>
    obtain ⟨s', p, hsettles, hcases⟩ := insert_settles h rip context
    refine ⟨_, _, hsettles.map fun r => (r.1, some r.2), ?_⟩
    rcases hcases with ⟨hready, rfl, rfl⟩ | ⟨hready, hp, hfor, hsame, hcount⟩ |
      ⟨hready, hnone, s₁, dropped, hframe, heq, rfl, rfl⟩
    · exact .refused hready
    · exact .found hready hp hfor hsame hcount
    · exact .created hready hnone hframe heq
  | lookup rip context =>
    obtain ⟨s', p, hsettles, hsame, hcount, hp⟩ := lookup_settles h rip context
    exact ⟨_, _, hsettles.map fun r => (r.1, some r.2), .lookup hsame hcount hp⟩
  | pinEntry rip context =>
    obtain ⟨s', hsettles, hsame, hcount⟩ := lookup_edit_settles h rip context (fun _ p => p ≠ 0)
      (fun e : TraceCacheEntry => { e with pinCount := e.pinCount + 1 }) fun _ => ⟨rfl, rfl, rfl, rfl⟩
    exact ⟨_, _, hsettles.map fun s => (s, none), .pinEntry hsame hcount⟩
  | unpinEntry rip context =>
    obtain ⟨s', hsettles, hsame, hcount⟩ := lookup_edit_settles h rip context
      (fun s p => p ≠ 0 ∧ (s.heap p).pinCount > 0)
      (fun e : TraceCacheEntry => { e with pinCount := e.pinCount - 1 }) fun _ => ⟨rfl, rfl, rfl, rfl⟩
    exact ⟨_, _, hsettles.map fun s => (s, none), .unpinEntry hsame hcount⟩
  | invalidate rip =>
    obtain ⟨s', hsettles, hheader, hframe⟩ := invalidate_settles h rip
    exact ⟨_, _, hsettles.map fun s => (s, none), .invalidate hframe hheader⟩

lemma Linked.outcome {s s' : TraceCache} {chains : Bucket → List UInt64} (h : Linked s chains)
    {op : Op} {answer : Option UInt64} (st : Step s op answer s') :
    Outcome chains s op answer s' := by
  obtain ⟨answer', s'', st', houtcome⟩ := h.step_exists op
  obtain ⟨rfl, rfl⟩ := Prod.mk.inj (st.unique st')
  exact houtcome

/-- A call creates an entry: it is an insertion whose key has no valid entry on its chain. -/
def Creates (s : TraceCache) (op : Op) : Prop :=
  ∃ rip context, op = .insert rip context ∧ s.ready = true ∧
    ∀ a, OnChain s (traceCacheHash rip context) a → (s.heap a).isFor rip context = false

lemma Linked.creates_iff {s : TraceCache} {chains : Bucket → List UInt64} (h : Linked s chains)
    {rip context : UInt64} : Creates s (.insert rip context) ↔ s.ready = true ∧
      ∀ a ∈ chains (traceCacheHash rip context), (s.heap a).isFor rip context = false := by
  constructor
  · rintro ⟨_, _, hop, hready, hnone⟩
    obtain ⟨rfl, rfl⟩ := Op.insert.inj hop
    exact ⟨hready, fun a ha => hnone a (h.onChain_iff.mpr ha)⟩
  · rintro ⟨hready, hnone⟩
    exact ⟨rip, context, rfl, hready, fun a ha => hnone a (h.onChain_iff.mp ha)⟩

/-- With enough fuel, a walk for a key that comes to the end of its chain means a creation. -/
lemma Linked.creates_of_find {s : TraceCache} {chains : Bucket → List UInt64} (h : Linked s chains)
    (rip context : UInt64) : ∃ N, ∀ fuel, N ≤ fuel → s.ready = true →
      s.find fuel rip context = some 0 → Creates s (.insert rip context) := by
  obtain ⟨p, ⟨N, hN⟩, hp⟩ := find_settles h rip context
  refine ⟨N, fun fuel hfuel hready hnull => ?_⟩
  obtain rfl : p = 0 := Option.some.inj ((hN fuel hfuel).symm.trans hnull)
  rcases hp with ⟨-, hnone⟩ | ⟨hmem, -⟩
  · exact h.creates_iff.mpr ⟨hready, hnone⟩
  · exact absurd rfl (h.ne_null hmem)

end Bemi.TCache
