import Mathlib.Data.Set.Card
import Bemi.TCache.Effect

/-!
# Live traces

`EntryCount` is meant to be the number of valid entries on the chains: a creation counts it up, an
eviction counts it down. `TraceCacheInvalidate` takes the `Valid` of entries and leaves the count.
`countsLive_iff` says that the count is right for as long as no invalidation finds a valid entry.
-/

namespace Bemi.TCache
open Chain Ram Transition

/-- The valid entries on the chains. -/
def TraceCache.live (s : TraceCache) : Set UInt64 :=
  {a | (∃ b, OnChain s b a) ∧ (s.heap a).valid = true}

instance finite_uInt64 : Finite UInt64 :=
  .of_injective UInt64.toFin fun _ _ => UInt64.toFin_inj.mp

variable {s s' : TraceCache} {chains : Bucket → List UInt64} {n : Nat} {rip context : UInt64}

lemma Linked.mem_live (h : Linked s chains) {a : UInt64} :
    a ∈ s.live ↔ (∃ b, a ∈ chains b) ∧ (s.heap a).valid = true :=
  and_congr_left fun _ => exists_congr fun _ => h.onChain_iff

/-- If no more traces are live than a scan looks at, the candidates are those not pinned. -/
lemma mem_candidates_iff (h : Linked s chains)
    (hsmall : s.live.ncard ≤ s.header.lruScanDepth.toNat) {a : UInt64} :
    a ∈ s.candidates chains ↔ a ∈ s.live ∧ (s.heap a).pinCount = 0 := by
  have hmem {a : UInt64} : (a ∈ ((scanOrder s.startBucket).flatMap chains).filter fun a =>
      (s.heap a).evictable) ↔ a ∈ s.live ∧ (s.heap a).pinCount = 0 := by
    rw [List.mem_filter, List.mem_flatMap, TraceCacheEntry.evictable, Bool.and_eq_true,
      beq_iff_eq, h.mem_live, and_assoc]
    refine and_congr_left fun _ => exists_congr fun b => ?_
    exact and_iff_right (mem_scanOrder _ b)
  -- no node comes twice: a valid one is on the chain of its key only
  have hnodup : (((scanOrder s.startBucket).flatMap chains).filter fun a =>
      (s.heap a).evictable).Nodup := by
    rw [List.filter_flatMap, List.nodup_flatMap]
    refine ⟨fun b _ => (h.ends b).nodup.filter _, ?_⟩
    have horder : (scanOrder s.startBucket).Nodup :=
      (List.nodup_finRange _).map fun _ _ => add_left_cancel
    refine horder.imp fun {b c} hne x hb hc => hne ?_
    obtain ⟨hb, hcandidate⟩ := List.mem_filter.mp hb
    obtain ⟨hc, -⟩ := List.mem_filter.mp hc
    rw [TraceCacheEntry.evictable, Bool.and_eq_true] at hcandidate
    rw [← h.hash b x hb hcandidate.1, h.hash c x hc hcandidate.1]
  have hlength : (((scanOrder s.startBucket).flatMap chains).filter fun a =>
      (s.heap a).evictable).length ≤ s.header.lruScanDepth.toNat := by
    rw [← List.toFinset_card_of_nodup hnodup, ← Set.ncard_coe_finset]
    refine Nat.le_trans (Set.ncard_le_ncard fun a ha => ?_) hsmall
    exact (hmem.mp (List.mem_toFinset.mp ha)).1
  rw [TraceCache.candidates, List.take_of_length_le hlength, hmem]

/-! ## What the calls do to the live traces -/

lemma Frame.live_eq {d : UInt64 → Prop} (h : Frame d s s') : s'.live = {a ∈ s.live | ¬ d a} := by
  ext a
  have hchain (b : Bucket) : OnChain s' b a ↔ OnChain s b a := by
    rw [OnChain, OnChain, h.next_eq, h.buckets]
  change (_ ∧ _) ↔ (_ ∧ _) ∧ _
  rw [h.valid, and_assoc, exists_congr hchain]

lemma Same.live_eq (h : Same s s') : s'.live = s.live := by
  rw [Frame.live_eq h]
  simp

lemma accessed_live {p : UInt64} {e : TraceCacheEntry} (htrace : e.trace = (s.heap p).trace)
    (hnext : e.next = (s.heap p).next) : ((s.setEntry p e).stampLru p).live = s.live := by
  obtain ⟨hrip, hcontext, -, hvalid⟩ := trace_eq_iff.mp htrace
  exact ((same_setEntry hnext hrip hcontext hvalid).trans (same_stampLru _ p)).live_eq

lemma invalidated_live (h : Linked s chains) {heap : Heap}
    (hheap : ∀ a, heap a = if ∃ b, a ∈ chains b then (s.heap a).without rip else s.heap a) :
    ({ s with heap := heap } : TraceCache).live = {a ∈ s.live | (s.heap a).rip ≠ rip} := by
  rw [(invalidated_frame hheap).live_eq]
  ext a
  refine and_congr_right fun hmem => ?_
  rw [not_and]
  exact ⟨fun hnot => hnot (h.mem_live.mp hmem).1, fun hne _ => hne⟩

lemma created_live (h : Linked s chains) (hfresh : ∀ b, s.header.alloc ∉ chains b)
    (hnull : s.header.alloc ≠ 0) (rip context : UInt64) :
    (s.create rip context).live = insert s.header.alloc s.live := by
  ext a
  rw [(h.create hfresh).mem_live, Set.mem_insert_iff, h.mem_live]
  simp only [mem_createdChains hnull, exists_or]
  constructor
  · rintro ⟨⟨b, -, rfl⟩ | ⟨b, hb⟩, hvalid⟩
    · exact .inl rfl
    · have hne : a ≠ s.header.alloc := by
        rintro rfl
        exact hfresh b hb
      rw [create_of_ne s rip context hne] at hvalid
      exact .inr ⟨⟨b, hb⟩, hvalid⟩
  · rintro (rfl | ⟨⟨b, hb⟩, hvalid⟩)
    · refine ⟨.inl ⟨_, rfl, rfl⟩, ?_⟩
      rw [create_self]
      rfl
    · have hne : a ≠ s.header.alloc := by
        rintro rfl
        exact hfresh b hb
      refine ⟨.inr ⟨b, hb⟩, ?_⟩
      rw [create_of_ne s rip context hne]
      exact hvalid

/-! ## The count -/

def CountsLive (s : TraceCache) : Prop :=
  s.header.entryCount.toNat = s.live.ncard

/-- An invalidation finds no valid entry of its `Rip`; and if the count is the greatest that the
field holds, a creation finds one to evict. -/
def KeepsCount (s : TraceCache) (op : Op) : Prop :=
  (∀ rip, op = .invalidate rip → ∀ a ∈ s.live, (s.heap a).rip ≠ rip) ∧
    (Creates s op → s.live.ncard = 2 ^ 32 - 1 → ∃ a ∈ s.live, (s.heap a).pinCount = 0)

/-- An eviction keeps the count right. It evicts an entry unless all are pinned. -/
lemma withSpace_counts (h : Linked s chains) (hdepth : s.header.lruScanDepth ≠ 0)
    (hcount : CountsLive s) : CountsLive (s.withSpace chains) ∧
      ((s.withSpace chains).live.ncard = 2 ^ 32 - 1 ↔
        s.live.ncard = 2 ^ 32 - 1 ∧ ∀ a ∈ s.live, (s.heap a).pinCount ≠ 0) := by
  rw [CountsLive] at hcount
  have hlt := s.header.entryCount.toNat_lt
  rw [TraceCache.withSpace]
  split
  · rename_i hfull
    rw [ge_iff_le, UInt32.le_iff_toNat_le] at hfull
    change 131072 ≤ _ at hfull
    cases hleast : s.leastRecent (s.candidates chains) with
    | none =>
      have hpinned := (candidates_eq_nil hdepth).mp (leastRecent_eq_none.mp hleast)
      have hsame : s.evict 0 = s := if_neg fun hne => hne rfl
      rw [Option.getD_none, hsame]
      refine ⟨hcount, fun heq => ⟨heq, fun a ha => ?_⟩, fun heq => heq.1⟩
      obtain ⟨⟨b, hb⟩, hvalid⟩ := h.mem_live.mp ha
      exact hpinned b a hb hvalid
    | some v =>
      obtain ⟨⟨b, hb⟩, hvalid, hpin⟩ := mem_candidates (leastRecent_mem hleast)
      have hnull := h.ne_null hb
      have hmem : v ∈ s.live := h.mem_live.mpr ⟨⟨b, hb⟩, hvalid⟩
      have hlive : (s.evict v).live = s.live \ {v} := by
        rw [(frame_evict s v).live_eq]
        ext a
        simp [hnull]
      have hncard := Set.ncard_sdiff_singleton_of_mem hmem
      have hentries : (s.evict v).header.entryCount = s.header.entryCount - 1 := by
        rw [TraceCache.evict, if_pos hnull]
      have hdown : (s.header.entryCount - 1).toNat = s.header.entryCount.toNat - 1 := by
        rw [UInt32.toNat_sub]
        change (2 ^ 32 - 1 + _) % _ = _
        omega
      rw [Option.getD_some, CountsLive, hlive, hncard, hentries, hdown, hcount]
      refine ⟨rfl, fun heq => ?_, fun hall => absurd hpin (hall.2 v hmem)⟩
      omega
  · rename_i hspace
    rw [ge_iff_le, UInt32.le_iff_toNat_le] at hspace
    change ¬ 131072 ≤ _ at hspace
    refine ⟨hcount, fun heq => ?_, fun hall => hall.1⟩
    omega

/-- A call keeps the count right exactly when it meets the condition. -/
lemma Effect.countsLive {op : Op} {answer : Option UInt64} (he : Effect chains s op answer s')
    (h : Linked s chains) (hdepth : s.header.lruScanDepth ≠ 0)
    (hfresh : Creates s op → s.header.alloc ≠ 0 ∧ ∀ b, s.header.alloc ∉ chains b)
    (hcount : CountsLive s) : CountsLive s' ↔ KeepsCount s op := by
  cases he with
  | idle _ hnot hother =>
    exact ⟨fun _ => ⟨fun rip heq => absurd heq (hother rip), fun hc => absurd hc hnot⟩,
      fun _ => hcount⟩
  | accessed hacc hnot _ htrace hnext =>
    refine ⟨fun _ => ⟨?_, fun hc => absurd hc hnot⟩, fun _ => ?_⟩
    · rintro rip rfl
      exact hacc.2.elim
    · rw [CountsLive, accessed_live htrace hnext]
      exact hcount
  | created hcreates =>
    rename_i rip context
    obtain ⟨hnull, hfresh⟩ := hfresh hcreates
    obtain ⟨hcount₁, hmax⟩ := withSpace_counts h hdepth hcount
    have h₁ := linked_withSpace h
    rw [← withSpace_alloc s chains] at hnull
    have hfresh₁ : ∀ b, (s.withSpace chains).header.alloc ∉ chains b := by
      rw [withSpace_alloc]
      exact hfresh
    have hnew : (s.withSpace chains).header.alloc ∉ (s.withSpace chains).live := by
      intro hmem
      obtain ⟨⟨b, hb⟩, -⟩ := h₁.mem_live.mp hmem
      exact hfresh₁ b hb
    have hlt := (s.withSpace chains).header.entryCount.toNat_lt
    have hkeeps : KeepsCount s (.insert rip context) ↔
        (s.withSpace chains).live.ncard ≠ 2 ^ 32 - 1 := by
      rw [Ne, hmax, not_and]
      push Not
      exact ⟨fun hk => hk.2 hcreates, fun hk => ⟨nofun, fun _ => hk⟩⟩
    rw [CountsLive] at hcount₁
    rw [hkeeps, CountsLive, created_live h₁ hfresh₁ hnull, Set.ncard_insert_of_notMem hnew,
      create_header, UInt32.toNat_add, hcount₁]
    change (_ + 1) % 2 ^ 32 = _ ↔ _
    omega
  | @invalidated rip heap hheap =>
    have hsub : {a ∈ s.live | (s.heap a).rip ≠ rip} ⊆ s.live := fun a ha => ha.1
    rw [CountsLive, invalidated_live h hheap]
    constructor
    · intro hkept
      refine ⟨fun rip' heq a ha => ?_, nofun⟩
      cases heq
      have hall := Set.eq_of_subset_of_ncard_le hsub (Nat.le_of_eq (hcount.symm.trans hkept))
      rw [← hall] at ha
      exact ha.2
    · rintro ⟨hnone, -⟩
      have hall : {a ∈ s.live | (s.heap a).rip ≠ rip} = s.live :=
        Set.sep_eq_self_iff_mem_true.mpr fun a ha => hnone rip rfl a ha
      rw [hall]
      exact hcount

/-- No call changes the depth of the scan. -/
lemma Effect.lruScanDepth {op : Op} {answer : Option UInt64} (he : Effect chains s op answer s') :
    s'.header.lruScanDepth = s.header.lruScanDepth := by
  cases he with
  | idle => rfl
  | accessed => rfl
  | created =>
    rw [create_header]
    change (s.withSpace chains).header.lruScanDepth = _
    rw [TraceCache.withSpace, TraceCache.evict]
    split
    · split <;> rfl
    · rfl
  | invalidated => rfl

/-! ## In memory -/

lemma Agree.symm (ha : Agree n s s') : Agree n s' s :=
  ⟨ha.gTraceCache.symm, ha.header.symm, ha.gTraceBuckets.symm, ha.buckets.symm,
    fun a hin => (ha.heap a (by rw [InArena, ha.gTraceCache]; exact hin)).symm⟩

/-- What is stacked looks the same, and so is live. -/
lemma Agree.live_eq (ha : Agree n s s') (h : Stacked n s chains) : s.live = s'.live := by
  have h' := ha.symm.stacked h
  ext a
  rw [h.linked.mem_live, h'.linked.mem_live]
  refine and_congr_right fun hmem => ?_
  obtain ⟨b, hb⟩ := hmem
  rw [ha.heap a (h.inArena b a hb)]

namespace TraceMemory

/-- A call of the public interface. -/
inductive Call where
  | op (op : Op)
  | warmKernel (kernelBase kernelSize : UInt64)

/-- The loop of `TraceCacheWarmKernel` from an offset on, with the insertions that it makes. -/
inductive Warms (kernelBase kernelSize : UInt64) :
    UInt64 → TraceMemory → List (Event TraceMemory Op (Option UInt64)) → TraceMemory → Prop where
  | done {offset m} :
    ¬ offset < kernelSize →
    Warms kernelBase kernelSize offset m [] m
  | insert {offset m answer m' tr m''} :
    offset < kernelSize →
    Step m (.insert (kernelBase + offset) 0) answer m' →
    Warms kernelBase kernelSize (offset + 64) m' tr m'' →
    Warms kernelBase kernelSize offset m (⟨m, .insert (kernelBase + offset) 0, answer⟩ :: tr) m''

inductive CallStep : TraceMemory → Call → List (Event TraceMemory Op (Option UInt64)) →
    TraceMemory → Prop where
  | op {m op answer m'} :
    Step m op answer m' →
    CallStep m (.op op) [⟨m, op, answer⟩] m'
  | warmKernel {m kernelBase kernelSize tr m'} :
    Warms kernelBase kernelSize 0 m tr m' →
    CallStep m (.warmKernel kernelBase kernelSize) tr m'

/-- The operations of a run: those that are called, and the insertions of `TraceCacheWarmKernel`. -/
def operations (tr : List (Event TraceMemory Call (List (Event TraceMemory Op (Option UInt64))))) :
    List (Event TraceMemory Op (Option UInt64)) :=
  tr.flatMap Event.answer

lemma Warms.run {kernelBase kernelSize offset : UInt64} {m m' : TraceMemory}
    {tr : List (Event TraceMemory Op (Option UInt64))}
    (h : Warms kernelBase kernelSize offset m tr m') : Run Step m tr m' := by
  induction h with
  | done => exact .nil
  | insert _ st _ ih => exact (Run.nil.snoc st).append ih

lemma run_operations {m₀ m : TraceMemory}
    {tr : List (Event TraceMemory Call (List (Event TraceMemory Op (Option UInt64))))}
    (run : Run CallStep m₀ tr m) : Run Step m₀ (operations tr) m := by
  induction run with
  | nil => exact .nil
  | snoc _ st ih =>
    rw [operations, List.flatMap_append, List.flatMap_cons, List.flatMap_nil, List.append_nil]
    cases st with
    | op st => exact ih.snoc st
    | warmKernel hwarms => exact ih.append hwarms.run

/-- The test that makes `TraceCacheInsert` evict is true when 131072 traces are live. -/
def EvictsWhenFull (ev : Event TraceMemory Op (Option UInt64)) : Prop :=
  Creates ev.before.view ev.op → (ev.before.header.entryCount ≥ traceCacheMaxEntries ↔
    131072 ≤ ev.before.view.live.ncard)

/-- What a run whose entries all fit goes through, its count right. -/
def Counted (m : TraceMemory) : Prop :=
  CountsLive m.view ∧ (Full m.view ∨
    ∃ n chains, Stacked n m.view chains ∧ m.header.lruScanDepth ≠ 0)

variable {m m' : TraceMemory} {op : Op} {answer : Option UInt64}

lemma empty_live (h : ∀ b, m.view.buckets b = 0) : m.view.live = ∅ := by
  have hlinked : Linked m.view fun _ => [] := ⟨fun b => by rw [h]; exact .nil, nofun⟩
  ext a
  rw [hlinked.mem_live]
  simp

lemma counted_init (mem : Bytes) {baseAddress size : UInt64}
    (hregion : baseAddress.toNat + (initSize baseAddress size).toNat < 2 ^ 64) :
    Counted (traceCacheInit mem baseAddress size).1 := by
  refine ⟨?_, (init_cases mem hregion).imp_right ?_⟩
  · change (traceCacheInit mem baseAddress size).1.header.entryCount.toNat = _
    rw [init_entryCount, empty_live (init_bucket mem baseAddress size), Set.ncard_empty]
    rfl
  · rintro ⟨hstacked, hheader⟩
    refine ⟨0, _, hstacked, ?_⟩
    rw [hheader]
    change traceCacheLruScan ≠ 0
    decide

/-- A call keeps the count right exactly when it meets the condition. -/
lemma Counted.step (h : Counted m) (hfit : Fits m.view op) (st : Step m op answer m') :
    (CountsLive m'.view ↔ KeepsCount m.view op) ∧ (CountsLive m'.view → Counted m') := by
  obtain ⟨hcount, hfull | ⟨n, chains, hstacked, hdepth⟩⟩ := h
  · have hnot : ¬ Creates m.view op := by
      intro hcreates
      have hfits := hfit hcreates
      obtain ⟨_, _, -, hready, -⟩ := hcreates
      exact Nat.not_le_of_lt (hfull.room hready) hfits
    obtain ⟨hempty, -, -, -, hentries, -, -⟩ := empty_step hfull.buckets hnot st
    have hlive := empty_live hfull.buckets
    have hcount' : CountsLive m'.view := by
      change m'.header.entryCount.toNat = _
      rw [hentries, empty_live hempty, ← hlive]
      exact hcount
    refine ⟨⟨fun _ => ⟨fun rip _ a ha => ?_, fun hc => absurd hc hnot⟩, fun _ => hcount'⟩,
      fun _ => ⟨hcount', .inl (full_step hfull hfit st)⟩⟩
    rw [hlive] at ha
    cases ha
  · obtain ⟨k, chains', s', -, -, h', hmodel, hsim⟩ := stacked_step hstacked hfit st
    have heffect := hstacked.linked.effect hstacked.ready hmodel
    have hheader : m'.header = s'.header := hsim.agree.header
    have hsame : CountsLive m'.view ↔ CountsLive s' := by
      rw [CountsLive, CountsLive, hsim.agree.live_eq h', hsim.agree.header]
    refine ⟨hsame.trans (heffect.countsLive hstacked.linked hdepth (fun hcreates => ?_) hcount),
      fun hcount' => ⟨hcount', .inr ⟨k, chains', h', ?_⟩⟩⟩
    · exact ⟨hstacked.alloc_ne_null (hfit hcreates), hstacked.alloc_not_mem (hfit hcreates)⟩
    · rw [hheader, heffect.lruScanDepth]
      exact hdepth

/-- In a run on a region of memory in which every new entry ends below the bucket table,
`EntryCount` is the number of live traces at all times, and eviction starts at 131072 of them,
exactly when no invalidation finds a live trace of its `Rip`, and no entry is created with
4294967295 live traces that are all pinned. -/
theorem countsLive_iff (mem : Bytes) {baseAddress size : UInt64}
    (hregion : baseAddress.toNat + (initSize baseAddress size).toNat < 2 ^ 64)
    {tr : List (Event TraceMemory Call (List (Event TraceMemory Op (Option UInt64))))}
    {m : TraceMemory} (run : Run CallStep (traceCacheInit mem baseAddress size).1 tr m)
    (hfits : ∀ ev ∈ operations tr, StepFits ev) :
    (Always (fun m => CountsLive m.view) (operations tr) m ∧
        ∀ ev ∈ operations tr, EvictsWhenFull ev) ↔
      ∀ ev ∈ operations tr, KeepsCount ev.before.view ev.op := by
  have hiff : (Always (fun m => CountsLive m.view) (operations tr) m ∧
      ∀ ev ∈ operations tr, StepFits ev) ↔
        ∀ ev ∈ operations tr, StepFits ev ∧ KeepsCount ev.before.view ev.op := by
    refine (run_operations run).always_iff (counted_init mem hregion) ?_ (fun m h => h.1)
      (fun _ _ _ _ _ _ hcond => hcond.1) ?_
    · rintro m op answer m' h st ⟨hfit, hkeeps⟩
      obtain ⟨hstep, hcounted⟩ := h.step hfit st
      exact hcounted (hstep.mpr hkeeps)
    · intro m op answer m' h st hfit hcount
      exact ⟨hfit, (h.step hfit st).1.mp hcount⟩
  constructor
  · rintro ⟨halways, -⟩ ev hev
    exact (hiff.mp ⟨halways, hfits⟩ ev hev).2
  · intro hkeeps
    obtain ⟨halways, -⟩ := hiff.mpr fun ev hev => ⟨hfits ev hev, hkeeps ev hev⟩
    refine ⟨halways, fun ev hev _ => ?_⟩
    have hcount : ev.before.header.entryCount.toNat = _ := halways.1 ev hev
    rw [ge_iff_le, UInt32.le_iff_toNat_le, hcount]
    rfl

/-- The first insertion in a region of four megabytes. -/
lemma counted_first : ∃ m p,
    Step (traceCacheInit (fun _ => 0) 0x100000 0x400000).1 (.insert 2 0) (some p) m ∧
      Fits (traceCacheInit (fun _ => 0) 0x100000 0x400000).1.view (.insert 2 0) ∧
        KeepsCount (traceCacheInit (fun _ => 0) 0x100000 0x400000).1.view (.insert 2 0) ∧
          (∃ chains, Stacked 1 m.view chains) ∧ p ∈ m.view.live ∧ (m.entry p).rip = 2 := by
  have hregion : (0x100000 : UInt64).toNat + (initSize 0x100000 0x400000).toNat < 2 ^ 64 := by decide
  obtain ⟨m, p, st, hfits, hsingle, -⟩ :=
    insert_first (fun _ => 0) (by decide) hregion (by decide) 2 0
  obtain ⟨hrip, -, hvalid⟩ := isFor_iff.mp hsingle.isFor
  refine ⟨m, p, st, hfits, ⟨nofun, fun _ hmax => ?_⟩, hsingle.stacked,
    ⟨⟨_, hsingle.onChain⟩, hvalid⟩, hrip⟩
  rw [empty_live (init_bucket _ _ _), Set.ncard_empty] at hmax
  cases hmax

/-- Warming a block of code counts one trace. -/
theorem countsLive_iff_warmKernel : ∃ tr m,
    Run CallStep (traceCacheInit (fun _ => 0) 0x100000 0x400000).1 tr m ∧
      tr.map Event.op = [.warmKernel 2 1] ∧ (operations tr).map Event.op = [.insert 2 0] ∧
        CountsLive m.view := by
  have hregion : (0x100000 : UInt64).toNat + (initSize 0x100000 0x400000).toNat < 2 ^ 64 := by decide
  obtain ⟨m, p, st, hfits, hkeeps, -⟩ := counted_first
  have hwarms : Warms 2 1 0 (traceCacheInit (fun _ => 0) 0x100000 0x400000).1
      [⟨_, .insert (2 + 0) 0, some p⟩] m := .insert (by decide) st (.done (by decide))
  have run := Run.nil.snoc (CallStep.warmKernel hwarms)
  have hcounts := (countsLive_iff (fun _ => 0) hregion run (fun ev hev => by
    obtain rfl := List.mem_singleton.mp hev
    exact hfits)).mpr fun ev hev => by
      obtain rfl := List.mem_singleton.mp hev
      exact hkeeps
  exact ⟨_, m, run, rfl, rfl, hcounts.1.2⟩

/-- An inserted trace is invalidated: none is live, and the count stays. -/
theorem countsLive_not : ∃ tr m,
    Run CallStep (traceCacheInit (fun _ => 0) 0x100000 0x400000).1 tr m ∧
      tr.map Event.op = [.op (.insert 2 0), .op (.invalidate 2)] ∧
        (∀ ev ∈ operations tr, StepFits ev) ∧ ¬ CountsLive m.view := by
  have hregion : (0x100000 : UInt64).toNat + (initSize 0x100000 0x400000).toNat < 2 ^ 64 := by decide
  obtain ⟨m₁, p, st₁, hfits, hkeeps, ⟨chains, hstacked⟩, hlive, hrip⟩ := counted_first
  have hnofit : Fits m₁.view (.invalidate 2) := nofun
  obtain ⟨answer, m₂, st₂⟩ := step_of_stacked hstacked hnofit
  obtain ⟨hstep, hcounted⟩ := (counted_init (fun _ => 0) hregion).step hfits st₁
  refine ⟨_, m₂, (Run.nil.snoc (.op st₁)).snoc (.op st₂), rfl, ?_, fun hcount => ?_⟩
  · intro ev hev
    rcases List.mem_cons.mp hev with rfl | hev
    · exact hfits
    · obtain rfl := List.mem_singleton.mp hev
      exact hnofit
  · have hdrops := ((hcounted (hstep.mpr hkeeps)).step hnofit st₂).1.mp hcount
    exact hdrops.1 2 rfl p hlive hrip

end TraceMemory

end Bemi.TCache
