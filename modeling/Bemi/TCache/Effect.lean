import Bemi.TCache.Overlap
import Bemi.TCache.Victim

/-!
# What a call changes

Everything that a call can do to a cache that is ready and whose chains end: `Effect` is the
inversion of `Step`. A call accesses an entry, creates one, invalidates some, or leaves the cache as
it is. An access stores the global counter in the entry and counts it on.
-/

namespace Bemi.TCache
open Chain

/-- The call inserts or finds the entry `p`; pinning and unpinning look it up. -/
def Accesses (s : TraceCache) (op : Op) (answer : Option UInt64) (p : UInt64) : Prop :=
  p ≠ 0 ∧ match op with
    | .insert _ _ | .lookup _ _ => answer = some p
    | .pinEntry rip context | .unpinEntry rip context =>
      s.ready = true ∧ Settles (fun n => s.find n rip context) p
    | .invalidate _ => False

/-- The call may change a pin count. -/
def Op.pins : Op → Bool
  | .pinEntry _ _ | .unpinEntry _ _ => true
  | _ => false

/-- The cache in which a new entry is created: one with too many entries evicts one first. -/
def TraceCache.withSpace (s : TraceCache) (chains : Bucket → List UInt64) : TraceCache :=
  if s.header.entryCount ≥ traceCacheMaxEntries then
    s.evict ((s.leastRecent (s.candidates chains)).getD 0)
  else s

inductive Effect (chains : Bucket → List UInt64) (s : TraceCache) :
    Op → Option UInt64 → TraceCache → Prop where
  | idle {op answer} :
    (∀ p, ¬ Accesses s op answer p) →
    ¬ Creates s op →
    (∀ rip, op ≠ .invalidate rip) →
    Effect chains s op answer s
  | accessed {op answer p b e} :
    Accesses s op answer p →
    ¬ Creates s op →
    p ∈ chains b →
    e.trace = (s.heap p).trace →
    e.next = (s.heap p).next →
    (op.pins = false → e.pinCount = (s.heap p).pinCount) →
    Effect chains s op answer ((s.setEntry p e).stampLru p)
  | created {rip context} :
    Creates s (.insert rip context) →
    Effect chains s (.insert rip context) (some s.header.alloc)
      ((s.withSpace chains).create rip context)
  | invalidated {rip heap} :
    (∀ a, heap a = if ∃ b, a ∈ chains b then (s.heap a).without rip else s.heap a) →
    Effect chains s (.invalidate rip) none { s with heap := heap }

variable {s s' : TraceCache} {chains : Bucket → List UInt64} {rip context p : UInt64} {heap : Heap}

lemma withSpace_alloc (s : TraceCache) (chains : Bucket → List UInt64) :
    (s.withSpace chains).header.alloc = s.header.alloc := by
  rw [TraceCache.withSpace]
  split
  · exact (frame_evict s _).alloc_eq
  · rfl

lemma linked_withSpace (h : Linked s chains) : Linked (s.withSpace chains) chains := by
  rw [TraceCache.withSpace]
  split
  · exact (frame_evict s _).linked h
  · exact h

lemma setEntry_heap (s : TraceCache) (p : UInt64) : s.setEntry p (s.heap p) = s := by
  rw [TraceCache.setEntry, Function.update_eq_self]

/-- Another pin count for an entry that has been looked up. -/
lemma setEntry_stampLru (s : TraceCache) (p : UInt64) (e : TraceCacheEntry) (pins : UInt32) :
    ((s.setEntry p e).stampLru p).setEntry p
        { ((s.setEntry p e).stampLru p).heap p with pinCount := pins } =
      (s.setEntry p { e with pinCount := pins }).stampLru p := by
  simp only [TraceCache.stampLru, TraceCache.setEntry, Function.update_idem, Function.update_self]

lemma executed_next (e : TraceCacheEntry) : e.executed.next = e.next :=
  (executed_keeps e).1

lemma executed_pinCount (e : TraceCacheEntry) : e.executed.pinCount = e.pinCount := by
  rw [TraceCacheEntry.executed]
  dsimp only
  split <;> rfl

/-! ## Each call -/

section
variable (h : Linked s chains) (hready : s.ready = true)
include h hready

lemma effect_insert {answer : Option UInt64} (st : Step s (.insert rip context) answer s') :
    Effect chains s (.insert rip context) answer s' := by
  obtain ⟨p, hfind, ⟨rfl, hnone⟩ | ⟨hp, hfor⟩⟩ := find_settles h rip context
  · obtain ⟨N, hN⟩ := st
    obtain ⟨M, hM⟩ := hfind
    obtain ⟨K, hK⟩ : Settles (fun n => if s.header.entryCount ≥ traceCacheMaxEntries then
        traceCacheEvictLru n s else some s) (s.withSpace chains) := by
      rw [TraceCache.withSpace]
      split
      · exact evictLru_settles h
      · exact .const s
    obtain ⟨n, hn, hm, hk⟩ : ∃ n, N ≤ n ∧ M ≤ n ∧ K ≤ n := ⟨max N (max M K), by omega⟩
    have hrun : perform n s (.insert rip context) = some (s', answer) := hN n hn
    have hnull : s.find n rip context = some 0 := hM n hm
    have hspace : (if s.header.entryCount ≥ traceCacheMaxEntries then traceCacheEvictLru n s
      else some s) = some (s.withSpace chains) := hK n hk
    rw [perform, traceCacheInsert, if_pos hready, hnull, Option.bind_some, if_pos rfl, hspace,
      Option.map_some, Option.map_some, withSpace_alloc] at hrun
    cases hrun
    exact .created (h.creates_iff.mpr ⟨hready, hnone⟩)
  · obtain ⟨n, hrun, hfound⟩ := Settles.both st hfind
    rw [perform, traceCacheInsert, if_pos hready, hfound, Option.bind_some,
      if_neg (h.ne_null hp), Option.map_some] at hrun
    cases hrun
    have haccessed : Effect chains s (.insert rip context) (some p)
        ((s.setEntry p (s.heap p)).stampLru p) := by
      refine .accessed ⟨h.ne_null hp, rfl⟩ (fun hcreates => ?_) hp rfl rfl fun _ => rfl
      cases ((h.creates_iff.mp hcreates).2 p hp).symm.trans hfor
    rw [setEntry_heap] at haccessed
    exact haccessed

/-- What a lookup returns, and the entry that it finds. -/
lemma lookup_effect : ∃ p, Settles (fun n => s.find n rip context) p ∧
    (p = 0 ∧ Settles (fun n => traceCacheLookup n s rip context) (s, 0) ∨
      p ≠ 0 ∧ p ∈ chains (traceCacheHash rip context) ∧
        Settles (fun n => traceCacheLookup n s rip context)
          ((s.setEntry p (s.heap p).executed).stampLru p, p)) := by
  obtain ⟨p, hfind, hp⟩ := find_settles h rip context
  have hlookup := hfind.map fun p =>
    if p = 0 then (s, 0) else ((s.setEntry p (s.heap p).executed).stampLru p, p)
  refine ⟨p, hfind, ?_⟩
  simp only [traceCacheLookup, if_pos hready]
  rcases hp with ⟨rfl, -⟩ | ⟨hp, -⟩
  · exact .inl ⟨rfl, hlookup⟩
  · have hnull := h.ne_null hp
    rw [if_neg hnull] at hlookup
    exact .inr ⟨hnull, hp, hlookup⟩

lemma effect_lookup {answer : Option UInt64} (st : Step s (.lookup rip context) answer s') :
    Effect chains s (.lookup rip context) answer s' := by
  obtain ⟨p, -, ⟨rfl, hlookup⟩ | ⟨hnull, hp, hlookup⟩⟩ := lookup_effect h hready
  · obtain ⟨rfl, rfl⟩ := Prod.mk.inj (st.unique (hlookup.map fun r => (r.1, some r.2)))
    refine .idle ?_ nofun nofun
    rintro p ⟨hnull, heq⟩
    exact hnull (Option.some.inj heq).symm
  · obtain ⟨rfl, rfl⟩ := Prod.mk.inj (st.unique (hlookup.map fun r => (r.1, some r.2)))
    exact .accessed ⟨hnull, rfl⟩ nofun hp (trace_executed _) (executed_next _)
      fun _ => executed_pinCount _

/-- A lookup, and then another pin count for the entry that it finds. -/
lemma effect_repin {op : Op} {answer : Option UInt64} (guard : TraceCacheEntry → Prop)
    [DecidablePred guard] (pins : TraceCacheEntry → UInt32) (hpins : op.pins = true)
    (haccess : ∀ p, Accesses s op answer p ↔ p ≠ 0 ∧ s.ready = true ∧
      Settles (fun n => s.find n rip context) p)
    (st : Settles (fun n => (traceCacheLookup n s rip context).map fun (s, p) =>
      if p ≠ 0 ∧ guard (s.heap p) then s.setEntry p { s.heap p with pinCount := pins (s.heap p) }
      else s) s') : Effect chains s op answer s' := by
  have hnot : op.pins ≠ false := by
    rw [hpins]
    exact nofun
  have hcreates : ¬ Creates s op := by
    rintro ⟨_, _, rfl, -⟩
    cases hpins
  have hinvalidate (rip : UInt64) : op ≠ .invalidate rip := by
    rintro rfl
    cases hpins
  obtain ⟨p, hfind, ⟨rfl, hlookup⟩ | ⟨hnull, hp, hlookup⟩⟩ := lookup_effect h hready
  · obtain rfl := st.unique (hlookup.map _)
    refine .idle (fun p hp => ?_) hcreates hinvalidate
    obtain ⟨hne, -, hfind'⟩ := (haccess p).mp hp
    exact hne (hfind'.unique hfind)
  · obtain rfl := st.unique (hlookup.map _)
    dsimp only
    have hacc := (haccess p).mpr ⟨hnull, hready, hfind⟩
    split
    · rw [setEntry_stampLru]
      exact .accessed hacc hcreates hp (trace_executed (s.heap p)) (executed_next (s.heap p))
        fun heq => absurd heq hnot
    · exact .accessed hacc hcreates hp (trace_executed _) (executed_next _)
        fun heq => absurd heq hnot

lemma effect_invalidate {answer : Option UInt64} (st : Step s (.invalidate rip) answer s') :
    Effect chains s (.invalidate rip) answer s' := by
  obtain ⟨heap, hloop, hheap⟩ := invalidateBuckets_settles h rip allBuckets
  have hinvalidate := hloop.map fun heap => ({ s with heap := heap } : TraceCache)
  have hsettles : Settles (fun n => traceCacheInvalidate n s rip) { s with heap := heap } := by
    simpa only [traceCacheInvalidate, if_pos (ready_ne_null hready)] using hinvalidate
  obtain ⟨rfl, rfl⟩ := Prod.mk.inj (st.unique (hsettles.map fun s => (s, none)))
  simp only [mem_allBuckets, true_and] at hheap
  exact .invalidated hheap

omit h hready in
/-- A call that returns no pointer. -/
lemma settles_none {f : Nat → Option TraceCache} {answer : Option UInt64}
    (st : Settles (fun n => (f n).map fun s => (s, none)) (s', answer)) :
    answer = none ∧ Settles f s' := by
  obtain ⟨N, hN⟩ := st
  refine ⟨?_, N, fun n hn => ?_⟩
  · obtain ⟨s₁, -, heq⟩ := Option.map_eq_some_iff.mp (hN N (Nat.le_refl N))
    cases heq
    rfl
  · obtain ⟨s₁, hrun, heq⟩ := Option.map_eq_some_iff.mp (hN n hn)
    cases heq
    exact hrun

/-- What a call does to a cache whose chains end. -/
theorem Linked.effect {op : Op} {answer : Option UInt64} (st : Step s op answer s') :
    Effect chains s op answer s' := by
  cases op with
  | insert rip context => exact effect_insert h hready st
  | lookup rip context => exact effect_lookup h hready st
  | pinEntry rip context =>
    obtain ⟨rfl, hpin⟩ := settles_none st
    refine effect_repin h hready (fun _ => True) (fun e => e.pinCount + 1) rfl (fun _ => Iff.rfl)
      ?_
    simpa only [traceCachePinEntry, and_true] using hpin
  | unpinEntry rip context =>
    obtain ⟨rfl, hunpin⟩ := settles_none st
    exact effect_repin h hready (fun e => e.pinCount > 0) (fun e => e.pinCount - 1) rfl
      (fun _ => Iff.rfl) hunpin
  | invalidate rip => exact effect_invalidate h hready st

end

lemma accesses_unique {op : Op} {answer : Option UInt64} {q : UInt64}
    (hp : Accesses s op answer p) (hq : Accesses s op answer q) : p = q := by
  cases op with
  | insert | lookup => exact Option.some.inj (hp.2.symm.trans hq.2)
  | pinEntry | unpinEntry => exact hp.2.2.unique hq.2.2
  | invalidate => exact hp.2.elim

end Bemi.TCache
