import Bemi.TCache.Links
import Bemi.TCache.Memory

/-!
# Memory agrees with the model of the trace cache

As long as the header, the entries created so far and the bucket table lie apart (`Layout`), a store
into one of them changes the view of that one only. `Agree n` says that two caches look the same, of
the heap the first `n` entries of the arena.
-/

namespace Bemi.TCache
open Chain Ram

/-- The address is one of the first `n` entries behind the header. -/
def InArena (base : UInt64) (n : Nat) (a : UInt64) : Prop :=
  ∃ i < n, a.toNat = base.toNat + 56 + 64 * i

structure Agree (n : Nat) (s s' : TraceCache) : Prop where
  gTraceCache : s.gTraceCache = s'.gTraceCache
  header : s.header = s'.header
  gTraceBuckets : s.gTraceBuckets = s'.gTraceBuckets
  buckets : s.buckets = s'.buckets
  heap : ∀ a, InArena s.gTraceCache n a → s.heap a = s'.heap a

lemma Agree.refl (n : Nat) (s : TraceCache) : Agree n s s :=
  ⟨rfl, rfl, rfl, rfl, fun _ _ => rfl⟩

namespace TraceMemory

/-- The first `n` entries end before the bucket table, which ends within the address space. -/
structure Layout (n : Nat) (m : TraceMemory) : Prop where
  entries : m.gTraceCache.toNat + 56 + 64 * n ≤ m.gTraceBuckets.toNat
  table : m.gTraceBuckets.toNat + 524288 ≤ 2 ^ 64

variable {m : TraceMemory} {n : Nat} {p : UInt64}

/-! ## Stores apart from what is read -/

section
variable {a : UInt64} {k : Nat} (v : Nat)

@[simp] lemma view_store_gTraceCache (m : TraceMemory) (a : UInt64) (k v : Nat) :
    (m.store a k v).view.gTraceCache = m.view.gTraceCache := rfl

@[simp] lemma view_store_gTraceBuckets (m : TraceMemory) (a : UInt64) (k v : Nat) :
    (m.store a k v).view.gTraceBuckets = m.view.gTraceBuckets := rfl

lemma load_store_apart {c : UInt64} {l : Nat} (h : ∀ x, Within c l x → ¬ Within a k x) :
    number (m.store a k v).mem c l = number m.mem c l :=
  number_congr fun x hx => store_of_not_within m.mem v (h x hx)

/-- An entry depends on its 64 bytes. -/
lemma entry_congr {m' : TraceMemory} (h : ∀ x, Within p 64 x → m'.mem x = m.mem x) :
    m'.entry p = m.entry p := by
  have field {i : UInt64} {l : Nat} (hi : i.toNat + l ≤ 64) :
      number m'.mem (p + i) l = number m.mem (p + i) l :=
    number_congr fun x hx => h x (hx.of_offset hi)
  simp only [entry, load64, load32, loadBool, field (i := 0) (l := 8) (by decide),
    field (i := 8) (l := 8) (by decide), field (i := 16) (l := 8) (by decide),
    field (i := 24) (l := 4) (by decide), field (i := 28) (l := 4) (by decide),
    field (i := 32) (l := 4) (by decide), field (i := 36) (l := 4) (by decide),
    field (i := 40) (l := 4) (by decide), field (i := 44) (l := 4) (by decide),
    field (i := 48) (l := 1) (by decide), field (i := 56) (l := 8) (by decide)]

lemma entry_store_apart (h : ∀ x, Within p 64 x → ¬ Within a k x) :
    (m.store a k v).entry p = m.entry p :=
  entry_congr fun x hx => store_of_not_within m.mem v (h x hx)

/-- The header depends on its 56 bytes. -/
lemma header_store_apart (h : ∀ x, Within m.gTraceCache 56 x → ¬ Within a k x) :
    (m.store a k v).header = m.header := by
  have field {i : UInt64} {l : Nat} (hi : i.toNat + l ≤ 56) :
      number (m.store a k v).mem (m.gTraceCache + i) l = number m.mem (m.gTraceCache + i) l :=
    load_store_apart v fun x hx => h x (hx.of_offset hi)
  have hg : (m.store a k v).gTraceCache = m.gTraceCache := rfl
  simp only [header, hg, load64, load32, loadBool, field (i := 0) (l := 8) (by decide),
    field (i := 8) (l := 8) (by decide), field (i := 16) (l := 8) (by decide),
    field (i := 24) (l := 4) (by decide), field (i := 28) (l := 4) (by decide),
    field (i := 32) (l := 8) (by decide), field (i := 40) (l := 1) (by decide),
    field (i := 44) (l := 4) (by decide), field (i := 48) (l := 4) (by decide)]

/-- A bucket depends on its eight bytes. -/
lemma bucket_store_apart {b : Bucket} (h : ∀ x, Within (m.bucketAddress b) 8 x → ¬ Within a k x) :
    (m.store a k v).bucket b = m.bucket b :=
  congrArg UInt64.ofNat (load_store_apart v h)

end

/-! ## The parts lie apart -/

lemma Layout.entry_iff (h : Layout n m) (hp : InArena m.gTraceCache n p) (x : UInt64) :
    Within p 64 x ↔ p.toNat ≤ x.toNat ∧ x.toNat < p.toNat + 64 := by
  obtain ⟨i, hi, hp⟩ := hp
  have hentries := h.entries
  have htable := h.table
  exact within_iff (by omega)

lemma Layout.header_iff (h : Layout n m) (x : UInt64) : Within m.gTraceCache 56 x ↔
    m.gTraceCache.toNat ≤ x.toNat ∧ x.toNat < m.gTraceCache.toNat + 56 := by
  have hentries := h.entries
  have htable := h.table
  exact within_iff (by omega)

lemma Layout.bucketAddress (h : Layout n m) (b : Bucket) :
    (m.bucketAddress b).toNat = m.gTraceBuckets.toNat + 8 * b := by
  have htable := h.table
  have hb : (b : Nat) < 65536 := b.isLt
  rw [TraceMemory.bucketAddress, UInt64.toNat_add, UInt64.toNat_ofNat']
  omega

lemma Layout.bucket_iff (h : Layout n m) (b : Bucket) (x : UInt64) :
    Within (m.bucketAddress b) 8 x ↔ m.gTraceBuckets.toNat + 8 * b ≤ x.toNat ∧
      x.toNat < m.gTraceBuckets.toNat + 8 * b + 8 := by
  have htable := h.table
  have hb : (b : Nat) < 65536 := b.isLt
  have haddress := Layout.bucketAddress h b
  rw [within_iff (by omega), haddress]

/-- An entry, the header and a bucket have no byte in common. -/
lemma Layout.apart (h : Layout n m) (hp : InArena m.gTraceCache n p) (b : Bucket) {x : UInt64}
    (hx : Within p 64 x) : ¬ Within m.gTraceCache 56 x ∧ ¬ Within (m.bucketAddress b) 8 x := by
  rw [h.entry_iff hp] at hx
  rw [h.header_iff, h.bucket_iff]
  obtain ⟨i, hi, hp⟩ := hp
  have hentries := h.entries
  omega

lemma Layout.apart_header (h : Layout n m) (b : Bucket) {x : UInt64}
    (hx : Within m.gTraceCache 56 x) : ¬ Within (m.bucketAddress b) 8 x := by
  rw [h.header_iff] at hx
  rw [h.bucket_iff]
  have hentries := h.entries
  omega

/-- Nor have two entries or two buckets. -/
lemma Layout.apart_entry (h : Layout n m) (hp : InArena m.gTraceCache n p) {a : UInt64}
    (ha : InArena m.gTraceCache n a) (hne : a ≠ p) {x : UInt64} (hx : Within a 64 x) :
    ¬ Within p 64 x := by
  rw [h.entry_iff ha] at hx
  rw [h.entry_iff hp]
  obtain ⟨i, hi, hp⟩ := hp
  obtain ⟨j, hj, ha⟩ := ha
  have hij : i ≠ j := by
    rintro rfl
    exact hne (UInt64.toNat_inj.mp (ha.trans hp.symm))
  omega

lemma Layout.apart_bucket (h : Layout n m) {b c : Bucket} (hne : c ≠ b) {x : UInt64}
    (hx : Within (m.bucketAddress c) 8 x) : ¬ Within (m.bucketAddress b) 8 x := by
  rw [h.bucket_iff] at hx ⊢
  have hne : (c : Nat) ≠ b := fun heq => hne (Fin.ext heq)
  omega

/-! ## Stores into one part -/

/-- A store into a field of an entry changes the entry. -/
lemma agree_storeEntry {s : TraceCache} (ha : Agree n m.view s) (h : Layout n m)
    (hp : InArena m.gTraceCache n p) {i : UInt64} {k v : Nat} (hi : i.toNat + k ≤ 64)
    {e : TraceCacheEntry} (he : (m.store (p + i) k v).entry p = e) :
    Agree n (m.store (p + i) k v).view (s.setEntry p e) where
  gTraceCache := (view_store_gTraceCache ..).trans ha.gTraceCache
  header := by
    have hheader : (m.store (p + i) k v).header = m.header :=
      header_store_apart v fun x hx hx' => (h.apart hp 0 (hx'.of_offset hi)).1 hx
    exact hheader.trans ha.header
  gTraceBuckets := (view_store_gTraceBuckets ..).trans ha.gTraceBuckets
  buckets := by
    have hbuckets (b : Bucket) : (m.store (p + i) k v).bucket b = m.bucket b :=
      bucket_store_apart v fun x hx hx' => (h.apart hp b (hx'.of_offset hi)).2 hx
    exact (funext hbuckets).trans ha.buckets
  heap a hin := by
    rcases eq_or_ne a p with rfl | hne
    · rw [setEntry_self]
      exact he
    · have hentry : (m.store (p + i) k v).entry a = m.entry a :=
        entry_store_apart v fun x hx hx' => h.apart_entry hp hin hne hx (hx'.of_offset hi)
      rw [setEntry_of_ne s e hne]
      exact hentry.trans (ha.heap a hin)

/-- A store into the header. -/
lemma agree_storeHeader {s : TraceCache} (ha : Agree n m.view s) (h : Layout n m) {i : UInt64}
    {k v : Nat} (hi : i.toNat + k ≤ 56) {hd : TraceCacheHeader}
    (hh : (m.store (m.gTraceCache + i) k v).header = hd) :
    Agree n (m.store (m.gTraceCache + i) k v).view { s with header := hd } where
  gTraceCache := (view_store_gTraceCache ..).trans ha.gTraceCache
  header := hh
  gTraceBuckets := (view_store_gTraceBuckets ..).trans ha.gTraceBuckets
  buckets := by
    have hbuckets (b : Bucket) : (m.store (m.gTraceCache + i) k v).bucket b = m.bucket b :=
      bucket_store_apart v fun x hx hx' => h.apart_header b (hx'.of_offset hi) hx
    exact (funext hbuckets).trans ha.buckets
  heap a hin := by
    have hentry : (m.store (m.gTraceCache + i) k v).entry a = m.entry a :=
      entry_store_apart v fun x hx hx' => (h.apart hin 0 hx).1 (hx'.of_offset hi)
    exact hentry.trans (ha.heap a hin)

/-- A store into a bucket. -/
lemma agree_storeBucket {s : TraceCache} (ha : Agree n m.view s) (h : Layout n m) (b : Bucket)
    (v : UInt64) : Agree n (m.store (m.bucketAddress b) 8 v.toNat).view
      { s with buckets := Function.update s.buckets b v } where
  gTraceCache := (view_store_gTraceCache ..).trans ha.gTraceCache
  header := by
    have hheader : (m.store (m.bucketAddress b) 8 v.toNat).header = m.header :=
      header_store_apart _ fun x hx => h.apart_header b hx
    exact hheader.trans ha.header
  gTraceBuckets := (view_store_gTraceBuckets ..).trans ha.gTraceBuckets
  buckets := by
    funext c
    change (m.store (m.bucketAddress b) 8 v.toNat).bucket c = Function.update s.buckets b v c
    rcases eq_or_ne c b with rfl | hne
    · have hbucket : (m.store (m.bucketAddress c) 8 v.toNat).bucket c = v :=
        load64_store m.mem (m.bucketAddress c) v
      rw [Function.update_self]
      exact hbucket
    · have hbucket : (m.store (m.bucketAddress b) 8 v.toNat).bucket c = m.bucket c :=
        bucket_store_apart _ fun x hx => h.apart_bucket hne hx
      rw [Function.update_of_ne hne]
      exact hbucket.trans (congrFun ha.buckets c)
  heap a hin := by
    have hentry : (m.store (m.bucketAddress b) 8 v.toNat).entry a = m.entry a :=
      entry_store_apart _ fun x hx => (h.apart hin b hx).2
    exact hentry.trans (ha.heap a hin)

end TraceMemory

end Bemi.TCache
