import Bemi.TCache.Arena

/-!
# Pinned traces

Eviction spares an entry whose `PinCount` is positive. The arena does not look at it: behind its
last entry below the bucket table it goes on into the table, and at its end it starts again at the
base. `pins_survive` says that a pinned trace survives as long as neither happens.
-/

namespace Bemi.TCache
open Chain Ram Transition

/-- What makes an entry the trace that it is. -/
def TraceCacheEntry.trace (e : TraceCacheEntry) : UInt64 × UInt64 × UInt64 × Bool :=
  (e.rip, e.context, e.translatedAddr, e.valid)

variable {s s' : TraceCache} {chains : Bucket → List UInt64} {fuel : Nat} {rip context p q : UInt64}

lemma trace_eq_iff {e e' : TraceCacheEntry} : e'.trace = e.trace ↔ e'.rip = e.rip ∧
    e'.context = e.context ∧ e'.translatedAddr = e.translatedAddr ∧ e'.valid = e.valid := by
  simp [TraceCacheEntry.trace]

lemma trace_executed (e : TraceCacheEntry) : e.executed.trace = e.trace := by
  rw [TraceCacheEntry.executed]
  dsimp only
  split <;> rfl

lemma trace_stampLru (s : TraceCache) (p a : UInt64) :
    ((s.stampLru p).heap a).trace = (s.heap a).trace := by
  apply setEntry_field TraceCacheEntry.trace
  rfl

lemma trace_lookup (hrun : traceCacheLookup fuel s rip context = some (s', q)) (a : UInt64) :
    (s'.heap a).trace = (s.heap a).trace := by
  rw [traceCacheLookup] at hrun
  split at hrun
  · obtain ⟨p, -, hp⟩ := Option.map_eq_some_iff.mp hrun
    split at hp
    · cases hp
      rfl
    · cases hp
      rw [trace_stampLru]
      exact setEntry_field _ (trace_executed _) a
  · cases hrun
    rfl

/-- A lookup, and then an edit of the entry found that keeps the trace. -/
lemma trace_lookup_edit {guard : TraceCache × UInt64 → Prop} [DecidablePred guard]
    (edit : TraceCacheEntry → TraceCacheEntry) (hedit : ∀ e, (edit e).trace = e.trace)
    (hrun : ((traceCacheLookup fuel s rip context).map fun r =>
      if guard r then r.1.setEntry r.2 (edit (r.1.heap r.2)) else r.1) = some s') (a : UInt64) :
    (s'.heap a).trace = (s.heap a).trace := by
  obtain ⟨⟨s₁, q⟩, hlookup, heq⟩ := Option.map_eq_some_iff.mp hrun
  split at heq
  · cases heq
    exact (setEntry_field _ (hedit _) a).trans (trace_lookup hlookup a)
  · cases heq
    exact trace_lookup hlookup a

/-- The victim of an eviction is not pinned. -/
lemma trace_evict (h : Linked s chains) (hpin : 0 < (s.heap p).pinCount)
    (hrun : traceCacheEvictLru fuel s = some s') : (s'.heap p).trace = (s.heap p).trace := by
  obtain ⟨acc, hscan, rfl⟩ := Option.map_eq_some_iff.mp hrun
  rw [TraceCache.evict]
  split
  · rename_i hnull
    have hne : p ≠ acc.victim := by
      rintro rfl
      rcases scanAll_spares h hscan with hzero | ⟨-, hunpinned⟩
      · exact hnull hzero
      · rw [hunpinned] at hpin
        cases hpin
    exact congrArg TraceCacheEntry.trace (setEntry_of_ne s _ hne)
  · rfl

lemma trace_insert (h : Linked s chains) (hpin : 0 < (s.heap p).pinCount)
    (hfresh : s.ready = true → s.find fuel rip context = some 0 → p ≠ s.header.alloc)
    (hrun : traceCacheInsert fuel s rip context = some (s', q)) :
    (s'.heap p).trace = (s.heap p).trace := by
  rw [traceCacheInsert] at hrun
  split at hrun
  · rename_i hready
    obtain ⟨a, hfind, ha⟩ := Option.bind_eq_some_iff.mp hrun
    split at ha
    · rename_i hnull
      subst hnull
      obtain ⟨s₁, hspace, hcreate⟩ := Option.map_eq_some_iff.mp ha
      cases hcreate
      obtain ⟨halloc, htrace⟩ : s₁.header.alloc = s.header.alloc ∧
          (s₁.heap p).trace = (s.heap p).trace := by
        split at hspace
        · refine ⟨?_, trace_evict h hpin hspace⟩
          obtain ⟨acc, -, rfl⟩ := Option.map_eq_some_iff.mp hspace
          exact (frame_evict s acc.victim).alloc_eq
        · cases hspace
          exact ⟨rfl, rfl⟩
      rw [create_of_ne s₁ rip context (halloc ▸ hfresh hready hfind), htrace]
    · cases ha
      exact trace_stampLru s _ p
  · cases hrun
    rfl

/-- The walk along a chain leaves the entries of another `Rip`. -/
lemma invalidateBucket_keeps {heap heap' : Heap} {b : Bucket} (hrip : (heap p).rip ≠ rip)
    (hrun : invalidateBucket fuel s rip heap b = some heap') : heap' p = heap p := by
  obtain ⟨⟨a, heap₁⟩, hwalk, rfl⟩ := Option.map_eq_some_iff.mp hrun
  have step (a : UInt64) (heap₁ : Heap) (_ : True) (hkept : heap₁ p = heap p)
      (_ : true = true) : invalidateEntry rip a heap₁ p = heap p ∧
        (True ∨ (invalidateEntry rip a heap₁ a).next = 0) := by
    refine ⟨?_, .inl trivial⟩
    rw [invalidateEntry_apply, hkept, TraceCacheEntry.without, if_neg hrip, ite_self]
  exact (walk_invariant (A := fun _ => True) (I := fun heap₁ => heap₁ p = heap p) _ _ _ step
    (.inl trivial) rfl hwalk).2

lemma trace_invalidate (hrip : (s.heap p).rip ≠ rip)
    (hrun : traceCacheInvalidate fuel s rip = some s') :
    (s'.heap p).trace = (s.heap p).trace := by
  rw [traceCacheInvalidate] at hrun
  split at hrun
  · obtain ⟨heap, hloop, rfl⟩ := Option.map_eq_some_iff.mp hrun
    have body (b : Bucket) (heap heap' : Heap) (hkept : heap p = s.heap p)
        (hbucket : invalidateBucket fuel s rip heap b = some heap') : heap' p = s.heap p := by
      rw [invalidateBucket_keeps (hkept ▸ hrip) hbucket, hkept]
    exact congrArg TraceCacheEntry.trace (foldlM_invariant body allBuckets rfl hloop)
  · cases hrun
    rfl

/-- A pinned trace outlives any call that neither invalidates its `Rip` nor creates an entry in its
place. -/
lemma Linked.trace_step (h : Linked s chains) {op : Op} {answer : Option UInt64}
    (st : Step s op answer s') (hpin : 0 < (s.heap p).pinCount)
    (hfresh : Creates s op → p ≠ s.header.alloc) (hrip : op ≠ .invalidate (s.heap p).rip) :
    (s'.heap p).trace = (s.heap p).trace := by
  obtain ⟨N, hN⟩ := st
  cases op with
  | insert rip context =>
    obtain ⟨M, hM⟩ := h.creates_of_find rip context
    obtain ⟨⟨s₁, q⟩, hinsert, heq⟩ :=
      Option.map_eq_some_iff.mp (hN (max N M) (Nat.le_max_left N M))
    cases heq
    exact trace_insert h hpin (fun hready hfind =>
      hfresh (hM _ (Nat.le_max_right N M) hready hfind)) hinsert
  | lookup rip context =>
    obtain ⟨⟨s₁, q⟩, hlookup, heq⟩ := Option.map_eq_some_iff.mp (hN N (Nat.le_refl N))
    cases heq
    exact trace_lookup hlookup p
  | pinEntry rip context =>
    obtain ⟨s₁, hrun, heq⟩ := Option.map_eq_some_iff.mp (hN N (Nat.le_refl N))
    cases heq
    exact trace_lookup_edit (fun e => { e with pinCount := e.pinCount + 1 })
      (fun _ => rfl) hrun p
  | unpinEntry rip context =>
    obtain ⟨s₁, hrun, heq⟩ := Option.map_eq_some_iff.mp (hN N (Nat.le_refl N))
    cases heq
    exact trace_lookup_edit (fun e => { e with pinCount := e.pinCount - 1 })
      (fun _ => rfl) hrun p
  | invalidate rip =>
    obtain ⟨s₁, hrun, heq⟩ := Option.map_eq_some_iff.mp (hN N (Nat.le_refl N))
    cases heq
    exact trace_invalidate (fun heq => hrip (congrArg Op.invalidate heq.symm)) hrun

/-- Pinning counts at the entry of the key. -/
lemma pinEntry_step {answer : Option UInt64} (hready : s.ready = true) (hnull : p ≠ 0)
    (hfind : Settles (fun n => s.find n rip context) p)
    (st : Step s (.pinEntry rip context) answer s') :
    (s'.heap p).pinCount = (s.heap p).pinCount + 1 := by
  obtain ⟨fuel, hpin, hfound⟩ := Settles.both st hfind
  obtain ⟨s₁, hrun, heq⟩ := Option.map_eq_some_iff.mp hpin
  cases heq
  rw [traceCachePinEntry, traceCacheLookup, if_pos hready, hfound, Option.map_some, if_neg hnull,
    Option.map_some] at hrun
  dsimp only at hrun
  rw [if_pos hnull] at hrun
  cases hrun
  rw [setEntry_self, TraceMemory.stampLru_self, setEntry_self, TraceCacheEntry.executed]
  dsimp only
  split <;> rfl

/-! ## Runs -/

namespace TraceMemory

/-- If the call creates an entry, the entry ends below the bucket table. -/
def StepFits (ev : Event TraceMemory Op (Option UInt64)) : Prop :=
  Fits ev.before.view ev.op

/-- The call spares a pinned entry for `rip`. -/
def Spared (p rip : UInt64) (ev : Event TraceMemory Op (Option UInt64)) : Prop :=
  0 < (ev.before.entry p).pinCount ∧ ev.op ≠ .invalidate rip

/-- A pinned trace among stacked entries. -/
structure Kept (p : UInt64) (e : TraceCacheEntry) (m : TraceMemory) : Prop where
  stacked : ∃ n chains, Stacked n m.view chains ∧ ∃ b, p ∈ chains b
  trace : (m.entry p).trace = e.trace

lemma Kept.step {m m' : TraceMemory} {e : TraceCacheEntry} {op : Op} {answer : Option UInt64}
    (h : Kept p e m) (st : Step m op answer m') (hfit : Fits m.view op)
    (hspared : Spared p e.rip ⟨m, op, answer⟩) : Kept p e m' := by
  obtain ⟨⟨n, chains, hstacked, b, hp⟩, htrace⟩ := h
  obtain ⟨hpin, hrip⟩ := hspared
  obtain ⟨k, chains', s', -, hsub, h', hmodel, hsim⟩ := stacked_step hstacked hfit st
  have hp' := hsub b hp
  refine ⟨⟨k, chains', h', b, hp'⟩, ?_⟩
  have hentry : m'.entry p = s'.heap p := hsim.agree.heap p (h'.inArena b p hp')
  have hsame : e.rip = (m.entry p).rip := (congrArg Prod.fst htrace).symm
  rw [hsame] at hrip
  rw [hentry, ← htrace]
  refine hstacked.linked.trace_step hmodel hpin (fun hcreates heq => ?_) hrip
  exact hstacked.alloc_not_mem (hfit hcreates) b (heq ▸ hp)

/-- The lookup of a trace that is kept finds its entry. -/
lemma Kept.lookup {m : TraceMemory} {e : TraceCacheEntry} (h : Kept p e m)
    (hvalid : e.valid = true) : ∃ m', Step m (.lookup e.rip e.context) (some p) m' := by
  obtain ⟨⟨n, chains, hstacked, b, hp⟩, htrace⟩ := h
  have hfit : Fits m.view (.lookup e.rip e.context) := nofun
  obtain ⟨k, -, -, hplaced, hroom⟩ := placed_of_stacked hstacked hfit
  obtain ⟨answer, m', s', st, hmodel, -⟩ := hplaced.step_exists _ hroom
  obtain ⟨hrip, hcontext, -, hvalid'⟩ := trace_eq_iff.mp htrace
  have hfor : (m.view.heap p).isFor e.rip e.context = true :=
    isFor_iff.mpr ⟨hrip, hcontext, hvalid'.trans hvalid⟩
  obtain rfl : traceCacheHash e.rip e.context = b := by
    rw [← hrip, ← hcontext]
    exact hstacked.linked.hash b p hp (hvalid'.trans hvalid)
  cases hstacked.linked.outcome hmodel with
  | lookup _ _ hfound =>
    rcases hfound with ⟨hready, -⟩ | ⟨-, ⟨-, hnone⟩ | ⟨hmem, hfor'⟩⟩
    · cases hready.symm.trans hstacked.ready
    · cases (hnone p hp).symm.trans hfor
    · obtain rfl := hstacked.unique e.rip e.context _ hmem p hp hfor' hfor
      exact ⟨m', st⟩

/-- A trace that is valid and pinned at some point of a run stays in its entry, with its key and its
translation, and a lookup finds it there: until after a call on it unpinned, or an invalidation of
its `Rip`, and as long as each entry that the run creates ends below the bucket table. -/
theorem pins_survive (mem : Bytes) {baseAddress size : UInt64}
    (hregion : baseAddress.toNat + (initSize baseAddress size).toNat < 2 ^ 64)
    {tr₀ tr : List (Event TraceMemory Op (Option UInt64))} {m₀ m : TraceMemory}
    (run₀ : Run Step (traceCacheInit mem baseAddress size).1 tr₀ m₀)
    (hfits₀ : ∀ ev ∈ tr₀, StepFits ev) {b : Bucket} (hp : OnChain m₀.view b p)
    (hvalid : (m₀.entry p).valid = true) (run : Run Step m₀ tr m) (hfits : ∀ ev ∈ tr, StepFits ev)
    (hspared : ∀ ev ∈ tr, Spared p (m₀.entry p).rip ev) :
    (m.entry p).valid = true ∧ (m.entry p).rip = (m₀.entry p).rip ∧
      (m.entry p).context = (m₀.entry p).context ∧
        (m.entry p).translatedAddr = (m₀.entry p).translatedAddr ∧
          ∃ m', Step m (.lookup (m₀.entry p).rip (m₀.entry p).context) (some p) m' := by
  have hsound : Sound m₀ :=
    run₀.guarded (init_sound mem hregion) (fun _ _ _ _ h st hfit => h.step hfit st) hfits₀
  have hkept₀ : Kept p (m₀.entry p) m₀ := by
    rcases hsound with hfull | ⟨n, chains, hstacked⟩
    · rw [OnChain, hfull.buckets] at hp
      cases hp with
      | here hne => exact absurd rfl hne
      | step hne => exact absurd rfl hne
    · exact ⟨⟨n, chains, hstacked, b, hstacked.linked.onChain_iff.mp hp⟩, rfl⟩
  have hkept : Kept p (m₀.entry p) m :=
    run.guarded (C := fun ev => StepFits ev ∧ Spared p (m₀.entry p).rip ev) hkept₀
      (fun _ _ _ _ h st hcond => h.step st hcond.1 hcond.2)
      fun ev hev => ⟨hfits ev hev, hspared ev hev⟩
  obtain ⟨hrip, hcontext, htranslated, hvalid'⟩ := trace_eq_iff.mp hkept.trace
  exact ⟨hvalid'.trans hvalid, hrip, hcontext, htranslated, hkept.lookup hvalid⟩

/-- The cache holds one entry. -/
structure Single (base table rip context p : UInt64) (m : TraceMemory) : Prop where
  gTraceCache : m.gTraceCache = base
  gTraceBuckets : m.gTraceBuckets = table
  stacked : ∃ chains, Stacked 1 m.view chains
  buckets : m.view.buckets = Function.update (fun _ => 0) (traceCacheHash rip context) p
  entryCount : m.header.entryCount = 1
  isFor : (m.entry p).isFor rip context = true
  ne_null : p ≠ 0

variable {base table : UInt64}

lemma Single.onChain (h : Single base table rip context p m) :
    OnChain m.view (traceCacheHash rip context) p := by
  rw [OnChain, h.buckets, Function.update_self]
  exact .here h.ne_null

/-- The first insertion. -/
lemma insert_single {m : TraceMemory} (h : Stacked 0 m.view fun _ => [])
    (hbuckets : ∀ b, m.bucket b = 0) (hcount : m.header.entryCount = 0)
    (hfits : m.header.nextAlloc.toNat + 64 ≤ m.gTraceBuckets.toNat) (rip context : UInt64) :
    ∃ m' p, Step m (.insert rip context) (some p) m' ∧
      Single m.gTraceCache m.gTraceBuckets rip context p m' ∧ (m'.entry p).pinCount = 0 := by
  have hfit : Fits m.view (.insert rip context) := fun _ => hfits
  obtain ⟨answer, m', st⟩ := step_of_stacked h hfit
  obtain ⟨k, chains', s', hk, -, h', hmodel, hagree, hg, hb⟩ := stacked_step h hfit st
  have hcreates : Creates m.view (.insert rip context) :=
    h.linked.creates_iff.mpr ⟨h.ready, nofun⟩
  obtain rfl : k = 1 := (hk.resolve_left fun hnot => hnot.1 hcreates).2
  have hnull := h.alloc_ne_null hfits
  have halloc := h.alloc_eq hfits
  cases h.linked.outcome hmodel with
  | refused hready => cases hready.symm.trans h.ready
  | found _ hmem => cases hmem
  | @created _ _ s₁ _ _ _ _ hsame =>
    obtain rfl := hsame (by rw [show m.view.header.entryCount = 0 from hcount]; decide)
    have hin : InArena m'.view.gTraceCache 1 m.view.header.alloc := by
      rw [hagree.gTraceCache, create_gTraceCache, halloc]
      exact ⟨0, Nat.one_pos, h.nextAlloc⟩
    have hentry : m'.entry m.view.header.alloc = m.view.newEntry rip context :=
      (hagree.heap _ hin).trans (create_self ..)
    refine ⟨m', _, st, ⟨hg, hb, ⟨chains', h'⟩, ?_, ?_, ?_, hnull⟩, ?_⟩
    · rw [hagree.buckets, create_buckets]
      exact congrArg (Function.update · _ _) (funext hbuckets)
    · have hheader : m'.header = _ := hagree.header
      rw [hheader, create_header, show m.view.header.entryCount = 0 from hcount]
      rfl
    · rw [hentry, newEntry_isFor]
      exact ⟨rfl, rfl⟩
    · rw [hentry]
      rfl

/-- A pin on the only entry. -/
lemma pin_single {m : TraceMemory} (h : Single base table rip context p m) :
    ∃ m', Step m (.pinEntry rip context) none m' ∧ Single base table rip context p m' ∧
      (m'.entry p).pinCount = (m.entry p).pinCount + 1 := by
  obtain ⟨chains, hstacked⟩ := h.stacked
  have hfit : Fits m.view (.pinEntry rip context) := nofun
  obtain ⟨answer, m', st⟩ := step_of_stacked hstacked hfit
  obtain ⟨k, chains', s', hk, hsub, h', hmodel, hagree, hg, hb⟩ := stacked_step hstacked hfit st
  have hcreates : ¬ Creates m.view (.pinEntry rip context) := nofun
  obtain rfl : k = 1 := (hk.resolve_right fun hc => hcreates hc.1).2
  have hmem := hstacked.linked.onChain_iff.mp h.onChain
  obtain ⟨q, hfind, hq⟩ := find_settles hstacked.linked rip context
  obtain rfl : q = p := by
    rcases hq with ⟨-, hnone⟩ | ⟨hmem', hfor⟩
    · cases (hnone p hmem).symm.trans h.isFor
    · exact hstacked.unique rip context q hmem' p hmem hfor h.isFor
  have hentry : m'.entry q = s'.heap q := hagree.heap q (h'.inArena _ q (hsub _ hmem))
  have hpinned := pinEntry_step hstacked.ready h.ne_null hfind hmodel
  cases hstacked.linked.outcome hmodel with
  | pinEntry hsame hcount =>
    refine ⟨m', st, ⟨hg.trans h.gTraceCache, hb.trans h.gTraceBuckets, ⟨chains', h'⟩, ?_, ?_, ?_,
      h.ne_null⟩, ?_⟩
    · rw [hagree.buckets, hsame.buckets]
      exact h.buckets
    · have hheader : m'.header = _ := hagree.header
      rw [hheader, hcount]
      exact h.entryCount
    · rw [hentry]
      exact (hsame.isFor_iff ..).mpr ⟨h.isFor, not_false⟩
    · rw [hentry, hpinned]
      rfl

/-- The first key inserted in a region with room for an entry. -/
lemma insert_first (mem : Bytes) {baseAddress size : UInt64} (hbase : baseAddress ≠ 0)
    (hregion : baseAddress.toNat + (initSize baseAddress size).toNat < 2 ^ 64)
    (hsize : 524288 + 120 ≤ (initSize baseAddress size).toNat) (rip context : UInt64) :
    ∃ m p, Step (traceCacheInit mem baseAddress size).1 (.insert rip context) (some p) m ∧
      Fits (traceCacheInit mem baseAddress size).1.view (.insert rip context) ∧
        Single baseAddress (baseAddress + initSize baseAddress size - bucketSize) rip context p m ∧
          (m.entry p).pinCount = 0 := by
  obtain ⟨harena, -, -⟩ := arena_region hregion
  have htable := init_table mem hregion (by omega)
  have hagree := agree_init mem (fun _ => default) hregion (by omega)
  have hfits : (traceCacheInit mem baseAddress size).1.header.nextAlloc.toNat + 64 ≤
      (traceCacheInit mem baseAddress size).1.gTraceBuckets.toNat := by
    have hnext : (traceCacheInit mem baseAddress size).1.header.nextAlloc.toNat =
        baseAddress.toNat + 56 := by
      have hheader : (traceCacheInit mem baseAddress size).1.header = _ := hagree.header
      rw [hheader]
      exact harena
    omega
  obtain ⟨m, p, st, hsingle, hunpinned⟩ :=
    insert_single (init_stacked mem hbase hregion (by omega)) (init_bucket mem baseAddress size)
      (congrArg TraceCacheHeader.entryCount hagree.header) hfits rip context
  rw [init_gTraceCache, init_gTraceBuckets] at hsingle
  exact ⟨m, p, st, fun _ => hfits, hsingle, hunpinned⟩

/-- The first key inserted, and pinned, in a region with room for an entry. -/
lemma insert_pin (mem : Bytes) {baseAddress size : UInt64} (hbase : baseAddress ≠ 0)
    (hregion : baseAddress.toNat + (initSize baseAddress size).toNat < 2 ^ 64)
    (hsize : 524288 + 120 ≤ (initSize baseAddress size).toNat) (rip context : UInt64) :
    ∃ tr m p, Run Step (traceCacheInit mem baseAddress size).1 tr m ∧
      tr.map Event.op = [.insert rip context, .pinEntry rip context] ∧ (∀ ev ∈ tr, StepFits ev) ∧
        Single baseAddress (baseAddress + initSize baseAddress size - bucketSize) rip context p m ∧
          (m.entry p).pinCount = 1 := by
  obtain ⟨m₁, p, st₁, hfits, hsingle₁, hunpinned⟩ :=
    insert_first mem hbase hregion hsize rip context
  obtain ⟨m₂, st₂, hsingle₂, hpinned⟩ := pin_single hsingle₁
  refine ⟨_, m₂, p, (Run.nil.snoc st₁).snoc st₂, rfl, ?_, hsingle₂, by rw [hpinned, hunpinned]; rfl⟩
  intro ev hev
  rcases List.mem_append.mp hev with hev | hev
  · obtain rfl := List.mem_singleton.mp hev
    exact hfits
  · obtain rfl := List.mem_singleton.mp hev
    exact nofun

/-- In a cache of four megabytes a pinned trace survives the insertion of another one. -/
theorem pins_survive_insert : ∃ tr₀ m₀ tr m p,
    Run Step (traceCacheInit (fun _ => 0) 0x100000 0x400000).1 tr₀ m₀ ∧
      tr₀.map Event.op = [.insert 2 0, .pinEntry 2 0] ∧ Run Step m₀ tr m ∧
        tr.map Event.op = [.insert 3 0] ∧ (m₀.entry p).pinCount = 1 ∧
          (m.entry p).valid = true ∧ ∃ m', Step m (.lookup 2 0) (some p) m' := by
  have hregion : (0x100000 : UInt64).toNat + (initSize 0x100000 0x400000).toNat < 2 ^ 64 := by decide
  obtain ⟨tr₀, m₀, p, run₀, hops₀, hfits₀, hsingle, hpin⟩ :=
    insert_pin (fun _ => 0) (by decide) hregion (by decide) 2 0
  obtain ⟨hrip, hcontext, hvalid⟩ := isFor_iff.mp hsingle.isFor
  obtain ⟨chains, hstacked⟩ := hsingle.stacked
  have hfit : Fits m₀.view (.insert 3 0) := by
    intro _
    have hg : m₀.view.gTraceCache = 0x100000 := hsingle.gTraceCache
    have hb : m₀.view.gTraceBuckets = 0x480000 := hsingle.gTraceBuckets
    rw [hstacked.nextAlloc, hg, hb]
    decide
  obtain ⟨answer, m, st⟩ := step_of_stacked hstacked hfit
  have hsurvives := pins_survive (fun _ => 0) hregion run₀ hfits₀ hsingle.onChain hvalid
    (Run.nil.snoc st) (fun ev hev => by
      obtain rfl := List.mem_singleton.mp hev
      exact hfit) fun ev hev => by
      obtain rfl := List.mem_singleton.mp hev
      exact ⟨by rw [hpin]; decide, nofun⟩
  rw [hrip, hcontext] at hsurvives
  obtain ⟨hvalid', -, -, -, hlookup⟩ := hsurvives
  exact ⟨tr₀, m₀, _, m, p, run₀, hops₀, Run.nil.snoc st, rfl, hpin, hvalid', hlookup⟩

/-! ## An entry in the bucket table -/

section
variable (m : TraceMemory) (a : UInt64) (k v : Nat)

lemma store_gTraceCache : (m.store a k v).gTraceCache = m.gTraceCache := rfl

lemma store_gTraceBuckets : (m.store a k v).gTraceBuckets = m.gTraceBuckets := rfl

lemma stampLru_gTraceCache : (m.stampLru a).gTraceCache = m.gTraceCache := rfl

lemma stampLru_gTraceBuckets : (m.stampLru a).gTraceBuckets = m.gTraceBuckets := rfl

lemma fill_gTraceCache (rip context : UInt64) :
    (m.fill a rip context).gTraceCache = m.gTraceCache := rfl

lemma fill_gTraceBuckets (rip context : UInt64) :
    (m.fill a rip context).gTraceBuckets = m.gTraceBuckets := rfl

end

section
variable {m : TraceMemory} {x : UInt64}

lemma store_mem {a : UInt64} {k : Nat} (v : Nat) (h : ¬ Within a k x) :
    (m.store a k v).mem x = m.mem x :=
  store_of_not_within m.mem v h

lemma fill_mem (hentry : ¬ Within p 64 x) : (m.fill p rip context).mem x = m.mem x := by
  have he {i : UInt64} {k : Nat} (hi : i.toNat + k ≤ 64) : ¬ Within (p + i) k x :=
    fun hx => hentry (hx.of_offset hi)
  rw [fill, store_mem _ (he (by decide)), store_mem _ (he (by decide)), store_mem _ (he (by decide)),
    store_mem _ (he (by decide)), store_mem _ (he (by decide)), store_mem _ (he (by decide)),
    store_mem _ (he (by decide)), store_mem _ (he (by decide))]

lemma stampLru_mem (hheader : ¬ Within m.gTraceCache 56 x) (hentry : ¬ Within p 64 x) :
    (m.stampLru p).mem x = m.mem x := by
  rw [TraceMemory.stampLru, store_mem _ fun hx => hentry (hx.of_offset (by decide)),
    store_mem _ fun hx => hheader (hx.of_offset (by decide))]

lemma link_mem {b : Bucket} (hheader : ¬ Within m.gTraceCache 56 x) (hentry : ¬ Within p 64 x)
    (hbucket : ¬ Within (m.bucketAddress b) 8 x) : (m.link p b).mem x = m.mem x := by
  have hcount : ¬ Within (m.gTraceCache + 24) 4 x := fun hx => hheader (hx.of_offset (by decide))
  have hnext : ¬ Within (p + 56) 8 x := fun hx => hentry (hx.of_offset (by decide))
  exact (store_mem _ hcount).trans ((store_mem _ hbucket).trans (store_mem _ hnext))

lemma create_eq
    (hfit : ¬ m.header.nextAlloc + entrySize > m.header.baseAddress + m.header.size)
    (rip context : UInt64) : m.create rip context =
      (((((m.store (m.gTraceCache + 16) 8 (m.header.nextAlloc + entrySize).toNat).fill
        m.header.nextAlloc rip context).stampLru m.header.nextAlloc).store
          (m.header.nextAlloc + 48) 1 1).link m.header.nextAlloc (traceCacheHash rip context),
        m.header.nextAlloc) := by
  rw [create, if_neg hfit]

/-- A creation writes the header, its entry and its bucket. -/
lemma create_mem
    (hfit : ¬ m.header.nextAlloc + entrySize > m.header.baseAddress + m.header.size)
    (hheader : ¬ Within m.gTraceCache 56 x) (hentry : ¬ Within m.header.nextAlloc 64 x)
    (hbucket : ¬ Within (m.bucketAddress (traceCacheHash rip context)) 8 x) :
    (m.create rip context).1.mem x = m.mem x := by
  have hvalid : ¬ Within (m.header.nextAlloc + 48) 1 x :=
    fun hx => hentry (hx.of_offset (by decide))
  have hnext : ¬ Within (m.gTraceCache + 16) 8 x := fun hx => hheader (hx.of_offset (by decide))
  rw [create_eq hfit]
  dsimp only
  rw [link_mem (p := m.header.nextAlloc), store_mem _ hvalid, stampLru_mem (p := m.header.nextAlloc),
    fill_mem hentry, store_mem _ hnext]
  · rw [fill_gTraceCache, store_gTraceCache]
    exact hheader
  · exact hentry
  · rw [store_gTraceCache, stampLru_gTraceCache, fill_gTraceCache, store_gTraceCache]
    exact hheader
  · exact hentry
  · rw [bucketAddress, store_gTraceBuckets, stampLru_gTraceBuckets, fill_gTraceBuckets,
      store_gTraceBuckets]
    exact hbucket

/-- An entry apart from all of them is kept. -/
lemma create_entry {q : UInt64}
    (hfit : ¬ m.header.nextAlloc + entrySize > m.header.baseAddress + m.header.size)
    (hapart : ∀ x, Within q 64 x → ¬ Within m.gTraceCache 56 x ∧ ¬ Within m.header.nextAlloc 64 x ∧
      ¬ Within (m.bucketAddress (traceCacheHash rip context)) 8 x) :
    (m.create rip context).1.entry q = m.entry q := by
  apply entry_congr
  intro x hx
  obtain ⟨hheader, hentry, hbucket⟩ := hapart x hx
  exact create_mem hfit hheader hentry hbucket

/-- The entry that is put at the head of a bucket changes its link only. -/
lemma link_translatedAddr {b : Bucket} (hheader : ∀ x, Within p 64 x → ¬ Within m.gTraceCache 56 x)
    (hbucket : ∀ x, Within p 64 x → ¬ Within (m.bucketAddress b) 8 x) :
    ((m.link p b).entry p).translatedAddr = (m.entry p).translatedAddr := by
  have hcount (x : UInt64) (hx : Within p 64 x) : ¬ Within (m.gTraceCache + 24) 4 x :=
    fun hx' => hheader x hx (hx'.of_offset (by decide))
  rw [link, entry_store_apart, entry_store_apart, entry_storeNext]
  · exact hbucket
  · exact hcount

/-- The new entry is not translated yet. -/
lemma create_translatedAddr
    (hfit : ¬ m.header.nextAlloc + entrySize > m.header.baseAddress + m.header.size)
    (hheader : ∀ x, Within m.header.nextAlloc 64 x → ¬ Within m.gTraceCache 56 x)
    (hbucket : ∀ x, Within m.header.nextAlloc 64 x →
      ¬ Within (m.bucketAddress (traceCacheHash rip context)) 8 x) :
    ((m.create rip context).1.entry m.header.nextAlloc).translatedAddr = 0 := by
  have hcounter (x : UInt64) (hx : Within m.header.nextAlloc 64 x) :
      ¬ Within (m.gTraceCache + 32) 8 x := fun hx' => hheader x hx (hx'.of_offset (by decide))
  rw [create_eq hfit]
  dsimp only
  rw [link_translatedAddr, entry_storeValid, TraceMemory.stampLru, entry_storeLruCounter,
    entry_store_apart, entry_fill]
  · rfl
  · rw [fill_gTraceCache, store_gTraceCache]
    exact hcounter
  · decide
  · rw [store_gTraceCache, stampLru_gTraceCache, fill_gTraceCache, store_gTraceCache]
    exact hheader
  · rw [bucketAddress, store_gTraceBuckets, stampLru_gTraceBuckets, fill_gTraceBuckets,
      store_gTraceBuckets]
    exact hbucket

end

lemma find_null {s : TraceCache} (h : s.buckets (traceCacheHash rip context) = 0) (n : Nat) :
    s.find (n + 1) rip context = some 0 := by
  rw [TraceCache.find, h, walk, if_neg fun hne => hne.1 rfl]
  rfl

/-- `Insert` makes an entry for a key whose bucket is empty. -/
lemma step_insert {m : TraceMemory} (hready : m.view.ready = true)
    (hnull : m.view.buckets (traceCacheHash rip context) = 0)
    (hcount : ¬ m.header.entryCount ≥ traceCacheMaxEntries)
    (hfit : ¬ m.header.nextAlloc + entrySize > m.header.baseAddress + m.header.size) :
    Step m (.insert rip context) (some m.header.nextAlloc) (m.create rip context).1 := by
  have hresult : m.create rip context = ((m.create rip context).1, m.header.nextAlloc) := by
    rw [create_eq hfit]
  refine ⟨1, fun n hn => ?_⟩
  obtain ⟨n, rfl⟩ := Nat.exists_eq_add_of_le' hn
  dsimp only
  rw [perform, traceCacheInsert, if_pos hready, find_null hnull, Option.bind_some, if_pos rfl,
    if_neg hcount, Option.map_some, Option.map_some, hresult]

/-- `Lookup` finds nothing there. -/
lemma step_lookup {m : TraceMemory} (hnull : m.view.buckets (traceCacheHash rip context) = 0) :
    Step m (.lookup rip context) (some 0) m := by
  refine ⟨1, fun n hn => ?_⟩
  obtain ⟨n, rfl⟩ := Nat.exists_eq_add_of_le' hn
  dsimp only
  rw [perform, traceCacheLookup, find_null hnull]
  split
  · rfl
  · rfl

/-- An entry made over a bucket empties it. -/
lemma create_bucket {m : TraceMemory} {b : Bucket}
    (hfit : ¬ m.header.nextAlloc + entrySize > m.header.baseAddress + m.header.size)
    (hapart : ∀ x, Within m.header.nextAlloc 64 x → ¬ Within m.gTraceCache 56 x ∧
      ¬ Within (m.bucketAddress (traceCacheHash rip context)) 8 x)
    (hb : m.bucketAddress b = m.header.nextAlloc + 16) :
    (m.create rip context).1.view.buckets b = 0 := by
  have htranslated : ((m.create rip context).1.entry m.header.nextAlloc).translatedAddr = 0 :=
    create_translatedAddr hfit (fun x hx => (hapart x hx).1) fun x hx => (hapart x hx).2
  have haddress : (m.create rip context).1.bucketAddress b = m.header.nextAlloc + 16 := by
    rw [create_eq hfit]
    exact hb
  change load64 _ _ = 0
  rw [haddress]
  exact htranslated

/-- Behind the only entry that ends below the bucket table, the next one is put over the first eight
buckets, and linked into another one. -/
lemma Single.second {m : TraceMemory} (h : Single 0x100000 0x100078 2 0 p m) :
    m.header.nextAlloc = 0x100078 ∧
      ¬ m.header.nextAlloc + entrySize > m.header.baseAddress + m.header.size ∧
      m.view.ready = true ∧ m.view.buckets (traceCacheHash 0x100 0) = 0 ∧
      Step m (.insert 0x100 0) (some m.header.nextAlloc) (m.create 0x100 0).1 := by
  obtain ⟨chains, hstacked⟩ := h.stacked
  have hnext : m.header.nextAlloc = 0x100078 := by
    have hnext := hstacked.nextAlloc
    rw [show m.view.gTraceCache = 0x100000 from h.gTraceCache] at hnext
    exact UInt64.toNat_inj.mp hnext
  have hfit : ¬ m.header.nextAlloc + entrySize > m.header.baseAddress + m.header.size := by
    have hend := hstacked.arenaEnd
    rw [show m.view.gTraceBuckets = 0x100078 from h.gTraceBuckets] at hend
    rw [hnext, gt_iff_lt, UInt64.lt_iff_toNat_lt]
    change ¬ (m.view.header.baseAddress + m.view.header.size).toNat < _
    rw [hend]
    decide
  have hnull : m.view.buckets (traceCacheHash 0x100 0) = 0 := by
    rw [h.buckets, Function.update_of_ne (by decide)]
  have hcount : ¬ m.header.entryCount ≥ traceCacheMaxEntries := by
    rw [h.entryCount]
    decide
  exact ⟨hnext, hfit, hstacked.ready, hnull, step_insert hstacked.ready hnull hcount hfit⟩

/-- In a cache with room for one entry below its bucket table, the second one is written into the
table: it takes the bucket of a pinned trace, whose lookup then finds nothing. -/
theorem pins_survive_not : ∃ tr₀ m₀ p answer m,
    Run Step (traceCacheInit (fun _ => 0) 0x100000 0x80078).1 tr₀ m₀ ∧
      tr₀.map Event.op = [.insert 2 0, .pinEntry 2 0] ∧ OnChain m₀.view (traceCacheHash 2 0) p ∧
        (m₀.entry p).isFor 2 0 = true ∧ (m₀.entry p).pinCount = 1 ∧
          Step m₀ (.insert 0x100 0) answer m ∧ (m.entry p).pinCount = 1 ∧
            Step m (.lookup 2 0) (some 0) m := by
  have hregion : (0x100000 : UInt64).toNat + (initSize 0x100000 0x80078).toNat < 2 ^ 64 := by decide
  obtain ⟨tr₀, m₀, p, run₀, hops₀, -, hsingle, hpin⟩ :=
    insert_pin (fun _ => 0) (by decide) hregion (by decide) 2 0
  obtain ⟨hnext, hfit, -, -, st⟩ := Single.second hsingle
  have hg : m₀.gTraceCache = 0x100000 := hsingle.gTraceCache
  have hb : m₀.gTraceBuckets = 0x100078 := hsingle.gTraceBuckets
  have hbucket : m₀.bucketAddress (traceCacheHash 0x100 0) = 0x100878 := by
    rw [bucketAddress, hb]
    decide
  have hhead : m₀.bucketAddress (traceCacheHash 2 0) = m₀.header.nextAlloc + 16 := by
    rw [bucketAddress, hb, hnext]
    decide
  refine ⟨tr₀, m₀, p, _, _, run₀, hops₀, hsingle.onChain, hsingle.isFor, hpin, st, ?_,
    step_lookup (create_bucket hfit ?_ hhead)⟩
  · obtain ⟨chains, hstacked⟩ := hsingle.stacked
    obtain ⟨i, hi, hp⟩ := hstacked.inArena _ p (hstacked.linked.onChain_iff.mp hsingle.onChain)
    obtain rfl : i = 0 := Nat.lt_one_iff.mp hi
    rw [show m₀.view.gTraceCache = 0x100000 from hg] at hp
    obtain rfl : p = 0x100038 := UInt64.toNat_inj.mp hp
    rw [create_entry hfit]
    · exact hpin
    · rw [hg, hnext, hbucket]
      intro x hx
      exact ⟨hx.not_within (by decide) (by decide) (by decide),
        hx.not_within (by decide) (by decide) (by decide),
        hx.not_within (by decide) (by decide) (by decide)⟩
  · rw [hg, hnext, hbucket]
    intro x hx
    exact ⟨hx.not_within (by decide) (by decide) (by decide),
      hx.not_within (by decide) (by decide) (by decide)⟩

end TraceMemory

end Bemi.TCache
