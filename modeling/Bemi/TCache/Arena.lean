import Bemi.TCache.Represents
import Bemi.TCache.Simulation

/-!
# The arena below the bucket table

`Stacked n s chains`: the chains hold the first `n` entries behind the header, and these end below
the bucket table. In memory, too, a call keeps this as long as an entry that it creates still ends
there.
-/

namespace Bemi.TCache
open Chain Ram Transition

structure Stacked (n : Nat) (s : TraceCache) (chains : Bucket → List UInt64) : Prop where
  linked : Linked s chains
  ready : s.ready = true
  inArena : ∀ b, ∀ a ∈ chains b, InArena s.gTraceCache n a
  unique : ∀ rip context, ∀ a ∈ chains (traceCacheHash rip context),
    ∀ a' ∈ chains (traceCacheHash rip context), (s.heap a).isFor rip context = true →
      (s.heap a').isFor rip context = true → a = a'
  nextAlloc : s.header.nextAlloc.toNat = s.gTraceCache.toNat + 56 + 64 * n
  arenaEnd : (s.header.baseAddress + s.header.size).toNat = s.gTraceBuckets.toNat + 524288
  below : s.gTraceCache.toNat + 56 + 64 * n ≤ s.gTraceBuckets.toNat

/-- If the call creates an entry, the entry ends below the bucket table. -/
def Fits (s : TraceCache) (op : Op) : Prop :=
  Creates s op → s.header.nextAlloc.toNat + 64 ≤ s.gTraceBuckets.toNat

lemma InArena.mono {base a : UInt64} {n k : Nat} (h : InArena base n a) (hn : n ≤ k) :
    InArena base k a := by
  obtain ⟨i, hi, ha⟩ := h
  exact ⟨i, Nat.lt_of_lt_of_le hi hn, ha⟩

variable {n : Nat} {s s' : TraceCache} {chains : Bucket → List UInt64}

lemma Stacked.frame {d : UInt64 → Prop} (h : Stacked n s chains) (hf : Frame d s s')
    (hbuckets : s'.gTraceBuckets = s.gTraceBuckets) : Stacked n s' chains where
  linked := hf.linked h.linked
  ready := hf.ready_eq.trans h.ready
  inArena := by
    rw [hf.gTraceCache]
    exact h.inArena
  unique rip context a ha a' ha' hfor hfor' :=
    h.unique rip context a ha a' ha' ((hf.isFor_iff ..).mp hfor).1 ((hf.isFor_iff ..).mp hfor').1
  nextAlloc := by
    rw [hf.nextAlloc, hf.gTraceCache]
    exact h.nextAlloc
  arenaEnd := by
    rw [hf.baseAddress, hf.size, hbuckets]
    exact h.arenaEnd
  below := by
    rw [hf.gTraceCache, hbuckets]
    exact h.below

/-- An entry that ends below the bucket table ends within the arena. -/
lemma Stacked.fits (h : Stacked n s chains)
    (hfit : s.header.nextAlloc.toNat + 64 ≤ s.gTraceBuckets.toNat) :
    ¬ s.header.nextAlloc + entrySize > s.header.baseAddress + s.header.size := by
  have hend := h.arenaEnd
  have hlt := (s.header.baseAddress + s.header.size).toNat_lt
  rw [gt_iff_lt, UInt64.lt_iff_toNat_lt, hend, UInt64.toNat_add]
  change ¬ _ < (_ + 64) % _
  omega

lemma Stacked.alloc_eq (h : Stacked n s chains)
    (hfit : s.header.nextAlloc.toNat + 64 ≤ s.gTraceBuckets.toNat) :
    s.header.alloc = s.header.nextAlloc :=
  if_neg (h.fits hfit)

lemma Stacked.alloc_ne_null (h : Stacked n s chains)
    (hfit : s.header.nextAlloc.toNat + 64 ≤ s.gTraceBuckets.toNat) : s.header.alloc ≠ 0 := by
  intro hnull
  have hnext := h.nextAlloc
  rw [← h.alloc_eq hfit, hnull] at hnext
  change 0 = _ at hnext
  omega

lemma Stacked.alloc_not_mem (h : Stacked n s chains)
    (hfit : s.header.nextAlloc.toNat + 64 ≤ s.gTraceBuckets.toNat) (b : Bucket) :
    s.header.alloc ∉ chains b := by
  intro ha
  obtain ⟨i, hi, ha⟩ := h.inArena b _ ha
  rw [h.alloc_eq hfit, h.nextAlloc] at ha
  omega

lemma Stacked.create (h : Stacked n s chains) {rip context : UInt64}
    (hnone : ∀ a ∈ chains (traceCacheHash rip context), (s.heap a).isFor rip context = false)
    (hfit : s.header.nextAlloc.toNat + 64 ≤ s.gTraceBuckets.toNat) :
    Stacked (n + 1) (s.create rip context) (createdChains s chains rip context) := by
  have hnext := h.nextAlloc
  have halloc := h.alloc_eq hfit
  have hlt := s.gTraceBuckets.toNat_lt
  have hnull := h.alloc_ne_null hfit
  have hfresh := h.alloc_not_mem hfit
  constructor
  · exact h.linked.create hfresh
  · rw [create_ready]
    exact h.ready
  · intro b a ha
    rw [create_gTraceCache]
    rcases (mem_createdChains hnull).mp ha with ⟨-, rfl⟩ | ha
    · rw [halloc]
      exact ⟨n, Nat.lt_succ_self n, hnext⟩
    · exact (h.inArena b a ha).mono (Nat.le_succ n)
  · exact unique_create hnull hfresh hnone h.unique
  · rw [create_header, create_gTraceCache, halloc, UInt64.toNat_add, hnext]
    change (_ + 64) % _ = _
    omega
  · rw [create_header, create_gTraceBuckets]
    exact h.arenaEnd
  · rw [create_gTraceCache, create_gTraceBuckets]
    omega

/-- A creation stacks another entry, any other call leaves the chains. -/
lemma Stacked.step (h : Stacked n s chains) {op : Op} {answer : Option UInt64} (hfit : Fits s op)
    (hbuckets : s'.gTraceBuckets = s.gTraceBuckets) (st : Step s op answer s') :
    ∃ chains', (∀ b, chains b ⊆ chains' b) ∧
      (¬ Creates s op ∧ Stacked n s' chains' ∨ Creates s op ∧ Stacked (n + 1) s' chains') := by
  have same {d : UInt64 → Prop} (hf : Frame d s s') (hnot : ¬ Creates s op) :
      ∃ chains', (∀ b, chains b ⊆ chains' b) ∧
        (¬ Creates s op ∧ Stacked n s' chains' ∨ Creates s op ∧ Stacked (n + 1) s' chains') :=
    ⟨chains, fun _ => List.Subset.refl _, .inl ⟨hnot, h.frame hf hbuckets⟩⟩
  cases h.linked.outcome st with
  | refused hready =>
    rw [h.ready] at hready
    cases hready
  | @found rip context p _ _ hp hfor hsame _ =>
    refine same hsame fun hcreates => ?_
    rw [(h.linked.creates_iff.mp hcreates).2 p hp] at hfor
    cases hfor
  | @created rip context s₁ _ hready hnone hframe _ =>
    have hcreates := h.linked.creates_iff.mpr ⟨hready, hnone⟩
    rw [create_gTraceBuckets] at hbuckets
    have h₁ : Stacked n s₁ chains := h.frame hframe hbuckets
    have hnone₁ (a : UInt64) (ha : a ∈ chains (traceCacheHash rip context)) :
        (s₁.heap a).isFor rip context = false := by
      cases hfor : (s₁.heap a).isFor rip context with
      | false => rfl
      | true =>
        have hold := ((hframe.isFor_iff ..).mp hfor).1
        rw [hnone a ha] at hold
        cases hold
    have hfit₁ : s₁.header.nextAlloc.toNat + 64 ≤ s₁.gTraceBuckets.toNat := by
      rw [hframe.nextAlloc, hbuckets]
      exact hfit hcreates
    exact ⟨_, fun b a ha => (mem_createdChains (h₁.alloc_ne_null hfit₁)).mpr (.inr ha),
      .inr ⟨hcreates, h₁.create hnone₁ hfit₁⟩⟩
  | lookup hsame _ _ => exact same hsame nofun
  | pinEntry hsame _ => exact same hsame nofun
  | unpinEntry hsame _ => exact same hsame nofun
  | invalidate hframe _ => exact same hframe nofun

/-! ## In memory -/

lemma Agree.mono {k : Nat} (ha : Agree k s s') (hn : n ≤ k) : Agree n s s' :=
  ⟨ha.gTraceCache, ha.header, ha.gTraceBuckets, ha.buckets, fun a hin => ha.heap a (hin.mono hn)⟩

/-- What the chains go through looks the same. -/
lemma Agree.stacked (ha : Agree n s s') (h : Stacked n s' chains) : Stacked n s chains := by
  have hin (b : Bucket) (a : UInt64) (hmem : a ∈ chains b) : InArena s.gTraceCache n a := by
    rw [ha.gTraceCache]
    exact h.inArena b a hmem
  have heap (b : Bucket) (a : UInt64) (hmem : a ∈ chains b) : s.heap a = s'.heap a :=
    ha.heap a (hin b a hmem)
  refine ⟨⟨fun b => ?_, fun b a hmem hvalid => ?_⟩, ?_, hin,
    fun rip context a hmem a' hmem' hfor hfor' => ?_, ?_, ?_, ?_⟩
  · rw [ha.buckets]
    exact (h.linked.ends b).congr fun a hmem => congrArg TraceCacheEntry.next (heap b a hmem)
  · rw [heap b a hmem] at hvalid ⊢
    exact h.linked.hash b a hmem hvalid
  · rw [TraceCache.ready, ha.gTraceCache, ha.header]
    exact h.ready
  · rw [heap _ a hmem] at hfor
    rw [heap _ a' hmem'] at hfor'
    exact h.unique rip context a hmem a' hmem' hfor hfor'
  · rw [ha.header, ha.gTraceCache]
    exact h.nextAlloc
  · rw [ha.header, ha.gTraceBuckets]
    exact h.arenaEnd
  · rw [ha.gTraceCache, ha.gTraceBuckets]
    exact h.below

namespace TraceMemory

variable {m m' : TraceMemory} {op : Op} {answer : Option UInt64}

lemma Simulates.mono {k : Nat} (h : Simulates k m m' s') (hn : n ≤ k) : Simulates n m m' s' :=
  ⟨h.agree.mono hn, h.gTraceCache, h.gTraceBuckets⟩

lemma layout_of_stacked {k : Nat} (h : Stacked n m.view chains)
    (hk : m.gTraceCache.toNat + 56 + 64 * k ≤ m.gTraceBuckets.toNat) : Layout k m := by
  have hend : _ = m.gTraceBuckets.toNat + 524288 := h.arenaEnd
  have hlt := (m.view.header.baseAddress + m.view.header.size).toNat_lt
  exact ⟨hk, by omega⟩

/-- The entries up to the one that the call may create have their place. -/
lemma placed_of_stacked (h : Stacked n m.view chains) (hfit : Fits m.view op) :
    ∃ k, n ≤ k ∧ (Creates m.view op → n + 1 ≤ k) ∧ Placed k m chains ∧
      (Creates m.view op → Room k m) := by
  by_cases hcreates : Creates m.view op
  · have hnext := h.nextAlloc
    have hfits := hfit hcreates
    have hbelow : m.gTraceCache.toNat + 56 + 64 * (n + 1) ≤ m.gTraceBuckets.toNat := by
      change _ = m.gTraceCache.toNat + 56 + 64 * n at hnext
      change _ ≤ m.gTraceBuckets.toNat at hfits
      omega
    have hl := layout_of_stacked h hbelow
    refine ⟨n + 1, Nat.le_succ n, fun _ => Nat.le_refl _, ⟨h.linked,
      fun b a ha => (h.inArena b a ha).mono (Nat.le_succ n), fun _ _ _ => hl⟩,
      fun _ => ⟨hl, ⟨n, Nat.lt_succ_self n, hnext⟩, h.fits hfits⟩⟩
  · have hl := layout_of_stacked h h.below
    exact ⟨n, Nat.le_refl n, fun hc => absurd hc hcreates,
      ⟨h.linked, h.inArena, fun _ _ _ => hl⟩, fun hc => absurd hc hcreates⟩

/-- A call on memory keeps the entries stacked. -/
lemma stacked_step (h : Stacked n m.view chains) (hfit : Fits m.view op)
    (st : Step m op answer m') :
    ∃ k chains' s', (¬ Creates m.view op ∧ k = n ∨ Creates m.view op ∧ k = n + 1) ∧
      (∀ b, chains b ⊆ chains' b) ∧ Stacked k m'.view chains' ∧
        TCache.Step m.view op answer s' ∧ Simulates k m m' s' := by
  obtain ⟨k, hn, hk, hplaced, hroom⟩ := placed_of_stacked h hfit
  obtain ⟨s', hmodel, hsim⟩ := hplaced.step hroom st
  have hbuckets : s'.gTraceBuckets = m.view.gTraceBuckets :=
    hsim.agree.gTraceBuckets.symm.trans hsim.gTraceBuckets
  obtain ⟨chains', hsub, ⟨hnot, h'⟩ | ⟨hcreates, h'⟩⟩ := h.step hfit hbuckets hmodel
  · have hsim' := hsim.mono hn
    exact ⟨n, chains', s', .inl ⟨hnot, rfl⟩, hsub, hsim'.agree.stacked h', hmodel, hsim'⟩
  · have hsim' := hsim.mono (hk hcreates)
    exact ⟨n + 1, chains', s', .inr ⟨hcreates, rfl⟩, hsub, hsim'.agree.stacked h', hmodel, hsim'⟩

/-- There is such a call. -/
lemma step_of_stacked (h : Stacked n m.view chains) (hfit : Fits m.view op) :
    ∃ answer m', Step m op answer m' := by
  obtain ⟨k, -, -, hplaced, hroom⟩ := placed_of_stacked h hfit
  obtain ⟨answer, m', -, st, -⟩ := hplaced.step_exists op hroom
  exact ⟨answer, m', st⟩

/-! ## After `TraceCacheInit` -/

section
variable (mem : Bytes) (baseAddress size : UInt64)

lemma init_gTraceCache : (traceCacheInit mem baseAddress size).1.gTraceCache = baseAddress :=
  initHeader_gTraceCache mem baseAddress (initSize baseAddress size)

lemma init_gTraceBuckets : (traceCacheInit mem baseAddress size).1.gTraceBuckets =
    baseAddress + initSize baseAddress size - bucketSize := rfl

lemma init_mem : (traceCacheInit mem baseAddress size).1.mem =
    Ram.store (initHeader mem baseAddress (initSize baseAddress size)).mem
      (baseAddress + initSize baseAddress size - bucketSize) 524288 0 := rfl

end

variable (mem : Bytes) {baseAddress size : UInt64}

lemma init_bucket (baseAddress size : UInt64) (b : Bucket) :
    (traceCacheInit mem baseAddress size).1.bucket b = 0 := by
  rw [bucket, bucketAddress, init_gTraceBuckets, init_mem]
  refine congrArg UInt64.ofNat (number_zero fun x hx => store_zero _ (hx.of_offset ?_))
  have hb : (b : Nat) < 65536 := b.isLt
  rw [UInt64.toNat_ofNat']
  change _ ≤ 524288
  omega

/-- The bucket table ends where the region does. -/
lemma init_table (hregion : baseAddress.toNat + (initSize baseAddress size).toNat < 2 ^ 64)
    (hsize : 524288 ≤ (initSize baseAddress size).toNat) :
    (traceCacheInit mem baseAddress size).1.gTraceBuckets.toNat + 524288 =
      baseAddress.toNat + (initSize baseAddress size).toNat := by
  rw [init_gTraceBuckets, UInt64.toNat_sub, UInt64.toNat_add]
  change (2 ^ 64 - 524288 + _) % _ + _ = _
  omega

/-- Zeroing the bucket table leaves the bytes before it. -/
lemma init_apart (hregion : baseAddress.toNat + (initSize baseAddress size).toNat < 2 ^ 64) {k : Nat}
    (hsize : 524288 + k ≤ (initSize baseAddress size).toNat) {x : UInt64}
    (hx : Within baseAddress k x) :
    ¬ Within (traceCacheInit mem baseAddress size).1.gTraceBuckets 524288 x := by
  have htable := init_table mem hregion (by omega)
  exact hx.not_within (by omega) (by omega) (.inl (by omega))

/-- A region with room for the bucket table behind the header looks as in the model. -/
lemma agree_init (heap : Heap)
    (hregion : baseAddress.toNat + (initSize baseAddress size).toNat < 2 ^ 64)
    (hsize : 524288 + 56 ≤ (initSize baseAddress size).toNat) :
    Agree 0 (traceCacheInit mem baseAddress size).1.view
      (TCache.traceCacheInit heap baseAddress size).1 := by
  refine ⟨init_gTraceCache .., ?_, rfl, funext fun b => init_bucket mem baseAddress size b, ?_⟩
  · have hkeep : (traceCacheInit mem baseAddress size).1.header =
        (initHeader mem baseAddress (initSize baseAddress size)).header := by
      refine header_store_apart 0 fun x hx => init_apart mem hregion hsize ?_
      rw [← initHeader_gTraceCache mem baseAddress (initSize baseAddress size)]
      exact hx
    exact hkeep.trans (initHeader_header ..)
  · rintro a ⟨i, hi, -⟩
    cases hi

lemma init_stacked (hbase : baseAddress ≠ 0)
    (hregion : baseAddress.toNat + (initSize baseAddress size).toNat < 2 ^ 64)
    (hsize : 524288 + 56 ≤ (initSize baseAddress size).toNat) :
    Stacked 0 (traceCacheInit mem baseAddress size).1.view fun _ => [] := by
  obtain ⟨harena, hlength, -⟩ := arena_region hregion
  have htable := init_table mem hregion (by omega)
  have hlinked : Linked (TCache.traceCacheInit (fun _ => default) baseAddress size).1 fun _ => [] :=
    ⟨fun _ => .nil, nofun⟩
  refine (agree_init mem (fun _ => default) hregion hsize).stacked
    ⟨hlinked, by simp [TraceCache.ready, TCache.traceCacheInit, hbase], nofun, nofun, ?_, ?_, ?_⟩
  · exact harena
  · change (baseAddress + headerSize + (initSize baseAddress size - headerSize)).toNat =
      (traceCacheInit mem baseAddress size).1.gTraceBuckets.toNat + 524288
    rw [htable, UInt64.toNat_add, harena, hlength]
    omega
  · change baseAddress.toNat + 56 + 64 * 0 ≤
      (traceCacheInit mem baseAddress size).1.gTraceBuckets.toNat
    omega

/-- A bucket table that reaches into the header that far zeroes `Initialized`. -/
lemma init_not_ready (hregion : baseAddress.toNat + (initSize baseAddress size).toNat < 2 ^ 64)
    (hsize : (initSize baseAddress size).toNat ≤ 524288 + 40) :
    (traceCacheInit mem baseAddress size).1.view.ready = false := by
  obtain ⟨-, -, hmin⟩ := arena_region hregion
  have hinitialized : (traceCacheInit mem baseAddress size).1.header.initialized = false := by
    refine decide_eq_false (not_not_intro (number_zero fun x hx => store_zero _ ?_))
    have hx' : Within (baseAddress + 40) 1 x := by
      rw [← init_gTraceCache mem baseAddress size]
      exact hx
    change (x - (baseAddress + initSize baseAddress size - 524288)).toNat < 524288
    have hxlt := x.toNat_lt
    rw [Within, UInt64.toNat_sub, UInt64.toNat_add] at hx'
    rw [UInt64.toNat_sub, UInt64.toNat_sub, UInt64.toNat_add]
    change (2 ^ 64 - (_ + 40) % _ + _) % _ < 1 at hx'
    change (2 ^ 64 - (2 ^ 64 - 524288 + _) % _ + _) % _ < 524288
    omega
  rw [TraceCache.ready]
  change (_ && (traceCacheInit mem baseAddress size).1.header.initialized) = false
  rw [hinitialized, Bool.and_false]

/-- One that reaches less far leaves `BaseAddress` and `NextAlloc`. -/
lemma init_start (hregion : baseAddress.toNat + (initSize baseAddress size).toNat < 2 ^ 64)
    (hsize : 524288 + 24 ≤ (initSize baseAddress size).toNat) :
    (traceCacheInit mem baseAddress size).1.header.nextAlloc = baseAddress + headerSize ∧
      (traceCacheInit mem baseAddress size).1.header.baseAddress = baseAddress + headerSize := by
  have keep {i : UInt64} (hi : i.toNat + 8 ≤ 24) :
      load64 (traceCacheInit mem baseAddress size).1.mem (baseAddress + i) =
        load64 (initHeader mem baseAddress (initSize baseAddress size)).mem (baseAddress + i) :=
    congrArg UInt64.ofNat (load_store_apart 0 fun x hx =>
      init_apart mem hregion (k := 24) hsize (hx.of_offset hi))
  have hheader := initHeader_header mem baseAddress (initSize baseAddress size)
  have hnext := congrArg TraceCacheHeader.nextAlloc hheader
  have hbase := congrArg TraceCacheHeader.baseAddress hheader
  rw [header] at hnext hbase ⊢
  dsimp only at hnext hbase ⊢
  rw [initHeader_gTraceCache] at hnext hbase
  rw [init_gTraceCache, keep (by decide), keep (by decide)]
  exact ⟨hnext, hbase⟩

/-- The bucket table may reach into the header, but `EntryCount` is zero either way. -/
lemma init_entryCount (baseAddress size : UInt64) :
    (traceCacheInit mem baseAddress size).1.header.entryCount = 0 := by
  have hheader := congrArg TraceCacheHeader.entryCount
    (initHeader_header mem baseAddress (initSize baseAddress size))
  rw [header] at hheader
  dsimp only at hheader
  have hnumber := congrArg UInt32.toNat hheader
  rw [load32, UInt32.toNat_ofNat_of_lt' (number_lt _ _ 4)] at hnumber
  refine congrArg UInt32.ofNat (number_zero fun x hx => ?_)
  rw [init_gTraceCache, ← initHeader_gTraceCache mem baseAddress (initSize baseAddress size)] at hx
  rw [init_mem]
  by_cases htable : Within (baseAddress + initSize baseAddress size - bucketSize) 524288 x
  · exact store_zero _ htable
  · rw [store_of_not_within _ _ htable]
    exact byte_of_number_zero hnumber hx

/-- Where the bucket table reaches into the header, the cache is not ready or starts at the base. -/
lemma init_alloc (hregion : baseAddress.toNat + (initSize baseAddress size).toNat < 2 ^ 64)
    (hready : (traceCacheInit mem baseAddress size).1.view.ready = true) :
    (traceCacheInit mem baseAddress size).1.header.nextAlloc.toNat = baseAddress.toNat + 56 ∧
      (traceCacheInit mem baseAddress size).1.header.alloc.toNat = baseAddress.toNat + 56 := by
  obtain ⟨harena, -, -⟩ := arena_region hregion
  rcases Nat.lt_or_ge (524288 + 40) (initSize baseAddress size).toNat with hlarge | hsmall
  · obtain ⟨hnext, hbase⟩ := init_start mem hregion (by omega)
    rw [TraceCacheHeader.alloc, hbase, hnext, ite_self]
    exact ⟨harena, harena⟩
  · cases hready.symm.trans (init_not_ready mem hregion hsmall)

/-- Where the bucket table reaches into the header, the cache is not ready or has no room for an
entry. -/
lemma init_full (hregion : baseAddress.toNat + (initSize baseAddress size).toNat < 2 ^ 64)
    (hsize : (initSize baseAddress size).toNat < 524288 + 56)
    (hready : (traceCacheInit mem baseAddress size).1.view.ready = true) :
    (traceCacheInit mem baseAddress size).1.gTraceBuckets.toNat <
      (traceCacheInit mem baseAddress size).1.header.nextAlloc.toNat + 64 := by
  rcases Nat.lt_or_ge (524288 + 40) (initSize baseAddress size).toNat with hlarge | hsmall
  · have htable := init_table mem hregion (by omega)
    rw [(init_alloc mem hregion hready).1]
    omega
  · cases hready.symm.trans (init_not_ready mem hregion hsmall)

/-- There is no entry, and none fits. -/
structure Full (s : TraceCache) : Prop where
  buckets : ∀ b, s.buckets b = 0
  room : s.ready = true → s.gTraceBuckets.toNat < s.header.nextAlloc.toNat + 64

/-- What a run whose entries all fit goes through. -/
def Sound (m : TraceMemory) : Prop :=
  Full m.view ∨ ∃ n chains, Stacked n m.view chains

/-- There is no room for an entry, or the header is as the code sets it. -/
lemma init_cases (hregion : baseAddress.toNat + (initSize baseAddress size).toNat < 2 ^ 64) :
    Full (traceCacheInit mem baseAddress size).1.view ∨
      Stacked 0 (traceCacheInit mem baseAddress size).1.view (fun _ => []) ∧
        (traceCacheInit mem baseAddress size).1.header =
          (TCache.traceCacheInit (fun _ => default) baseAddress size).1.header := by
  have hbuckets := init_bucket mem baseAddress size
  rcases eq_or_ne baseAddress 0 with rfl | hbase
  · refine .inl ⟨hbuckets, fun hready => ?_⟩
    exact absurd (init_gTraceCache mem 0 size) (ready_ne_null hready)
  · rcases Nat.lt_or_ge (initSize baseAddress size).toNat (524288 + 56) with hsmall | hlarge
    · exact .inl ⟨hbuckets, init_full mem hregion hsmall⟩
    · exact .inr ⟨init_stacked mem hbase hregion hlarge, (agree_init mem _ hregion hlarge).header⟩

lemma init_sound (hregion : baseAddress.toNat + (initSize baseAddress size).toNat < 2 ^ 64) :
    Sound (traceCacheInit mem baseAddress size).1 :=
  (init_cases mem hregion).imp_right fun h => ⟨0, _, h.1⟩

/-- A call that creates nothing in a cache without entries changes nothing that the next one
depends on. -/
lemma empty_step {m m' : TraceMemory} {op : Op} {answer : Option UInt64}
    (hempty : ∀ b, m.view.buckets b = 0) (hnot : ¬ Creates m.view op) (st : Step m op answer m') :
    (∀ b, m'.view.buckets b = 0) ∧ m'.view.ready = m.view.ready ∧
      m'.header.nextAlloc = m.header.nextAlloc ∧ m'.header.alloc = m.header.alloc ∧
        m'.header.entryCount = m.header.entryCount ∧ m'.gTraceCache = m.gTraceCache ∧
          m'.gTraceBuckets = m.gTraceBuckets := by
  have hlinked : Linked m.view fun _ => [] := by
    refine ⟨fun b => ?_, nofun⟩
    rw [hempty]
    exact .nil
  obtain ⟨s', hmodel, hsim⟩ := Placed.step (n := 0) ⟨hlinked, nofun, nofun⟩
    (fun hc => absurd hc hnot) st
  have hheader : m'.header = s'.header := hsim.agree.header
  have keep {d : UInt64 → Prop} (hf : Frame d m.view s')
      (hcount : s'.header.entryCount = m.header.entryCount) :
      (∀ b, m'.view.buckets b = 0) ∧ m'.view.ready = m.view.ready ∧
        m'.header.nextAlloc = m.header.nextAlloc ∧ m'.header.alloc = m.header.alloc ∧
          m'.header.entryCount = m.header.entryCount ∧ m'.gTraceCache = m.gTraceCache ∧
            m'.gTraceBuckets = m.gTraceBuckets := by
    rw [hheader]
    refine ⟨fun b => ?_, ?_, hf.nextAlloc, hf.alloc_eq, hcount, hsim.gTraceCache,
      hsim.gTraceBuckets⟩
    · rw [hsim.agree.buckets, hf.buckets]
      exact hempty b
    · rw [← hf.ready_eq, TraceCache.ready, hsim.agree.gTraceCache, hsim.agree.header]
      rfl
  cases hlinked.outcome hmodel with
  | refused => exact keep (Same.refl _) rfl
  | found _ hp => cases hp
  | created hready hnone => exact absurd (hlinked.creates_iff.mpr ⟨hready, hnone⟩) hnot
  | lookup hsame hcount => exact keep hsame hcount
  | pinEntry hsame hcount => exact keep hsame hcount
  | unpinEntry hsame hcount => exact keep hsame hcount
  | invalidate hframe hheader' => exact keep hframe (congrArg TraceCacheHeader.entryCount hheader')

/-- A full cache stays as it is. -/
lemma full_step {m m' : TraceMemory} {op : Op} {answer : Option UInt64} (h : Full m.view)
    (hfit : Fits m.view op) (st : Step m op answer m') : Full m'.view := by
  have hcreates : ¬ Creates m.view op := by
    intro hcreates
    have hfits := hfit hcreates
    obtain ⟨_, _, -, hready, -⟩ := hcreates
    exact Nat.not_le_of_lt (h.room hready) hfits
  obtain ⟨hempty, hready, hnext, -, -, -, hbuckets⟩ := empty_step h.buckets hcreates st
  refine ⟨hempty, fun hready' => ?_⟩
  change m'.gTraceBuckets.toNat < m'.header.nextAlloc.toNat + 64
  rw [hbuckets, hnext]
  exact h.room (hready ▸ hready')

lemma Sound.step {m m' : TraceMemory} {op : Op} {answer : Option UInt64} (h : Sound m)
    (hfit : Fits m.view op) (st : Step m op answer m') : Sound m' := by
  rcases h with hfull | ⟨n, chains, h⟩
  · exact .inl (full_step hfull hfit st)
  · obtain ⟨k, chains', -, -, -, h', -⟩ := stacked_step h hfit st
    exact .inr ⟨k, chains', h'⟩

end TraceMemory

end Bemi.TCache
