import Bemi.Lib.Recency
import Bemi.TCache.Live

/-!
# The order of evictions

Each access stores the global counter in the entry, 64 bits in 32, and an eviction takes the least of
what is stored. `evictsOldest_iff` says when that is the entry accessed least recently: when the
numbers of the accesses come in the same order modulo `2 ^ 32`. After `2 ^ 32` accesses they do not.
-/

namespace Bemi.TCache
open Chain Ram Transition

namespace TraceMemory

def AccessedBy (ev : Event TraceMemory Op (Option UInt64)) (a : UInt64) : Prop :=
  Accesses ev.before.view ev.op ev.answer a

/-- How many accesses a run has made. -/
noncomputable abbrev accesses (tr : List (Event TraceMemory Op (Option UInt64))) : Nat :=
  Recency.count AccessedBy tr

/-- The number of the last access of an entry in a run. -/
noncomputable abbrev lastAccess (tr : List (Event TraceMemory Op (Option UInt64))) (a : UInt64) :
    Nat :=
  Recency.last AccessedBy tr a

/-- The counters in the entries number their last accesses, modulo `2 ^ 32`. -/
structure Stamped (tr : List (Event TraceMemory Op (Option UInt64))) (s : TraceCache)
    (chains : Bucket → List UInt64) : Prop where
  counter : s.header.lruCounter = UInt64.ofNat (accesses tr)
  accessed : ∀ b, ∀ a ∈ chains b, 0 < lastAccess tr a
  stamp : ∀ b, ∀ a ∈ chains b, (s.heap a).lruCounter = UInt32.ofNat (lastAccess tr a - 1)
  apart : ∀ b, ∀ a ∈ chains b, ∀ b', ∀ a' ∈ chains b', lastAccess tr a = lastAccess tr a' → a = a'

variable {n : Nat} {tr : List (Event TraceMemory Op (Option UInt64))} {m m' : TraceMemory}
  {s s' : TraceCache} {chains chains' : Bucket → List UInt64} {op : Op} {answer : Option UInt64}

/-- Without an access nothing changes. -/
lemma Stamped.idle (hs : Stamped tr s chains) {ev : Event TraceMemory Op (Option UInt64)}
    (hnot : ∀ a, ¬ AccessedBy ev a) (hcounter : s'.header.lruCounter = s.header.lruCounter)
    (hheap : ∀ a, (s'.heap a).lruCounter = (s.heap a).lruCounter) :
    Stamped (tr ++ [ev]) s' chains := by
  have hlast (a : UInt64) : lastAccess (tr ++ [ev]) a = lastAccess tr a :=
    Recency.last_concat_of_not (hnot a)
  have hcount : accesses (tr ++ [ev]) = accesses tr := Recency.count_concat_of_not hnot
  refine ⟨?_, ?_, ?_, ?_⟩
  · rw [hcounter, hs.counter, hcount]
  · simp only [hlast]
    exact hs.accessed
  · simp only [hlast, hheap]
    exact hs.stamp
  · simp only [hlast]
    exact hs.apart

/-- An access stamps its entry, which may be new. -/
lemma Stamped.access (hs : Stamped tr s chains) {ev : Event TraceMemory Op (Option UInt64)}
    {p : UInt64} (hacc : AccessedBy ev p)
    (hunique : ∀ a, AccessedBy ev a → a = p)
    (hcounter : s'.header.lruCounter = s.header.lruCounter + 1)
    (hstamp : (s'.heap p).lruCounter = s.header.lruCounter.toUInt32)
    (hothers : ∀ a, a ≠ p → (s'.heap a).lruCounter = (s.heap a).lruCounter)
    (hchains : ∀ b, ∀ a ∈ chains' b, a = p ∨ ∃ b, a ∈ chains b) :
    Stamped (tr ++ [ev]) s' chains' := by
  have hself : lastAccess (tr ++ [ev]) p = accesses tr + 1 := Recency.last_concat hacc
  have hother {a : UInt64} (hne : a ≠ p) : lastAccess (tr ++ [ev]) a = lastAccess tr a :=
    Recency.last_concat_of_not fun ha => hne (hunique a ha)
  have hcount : accesses (tr ++ [ev]) = accesses tr + 1 := Recency.count_concat hacc
  have hle (a : UInt64) : lastAccess tr a ≤ accesses tr := Recency.last_le tr a
  refine ⟨?_, ?_, ?_, ?_⟩
  · rw [hcounter, hs.counter, hcount, UInt64.ofNat_add]
    rfl
  · intro b a ha
    by_cases hap : a = p
    · rw [hap, hself]
      exact Nat.succ_pos _
    · obtain ⟨c, hc⟩ := (hchains b a ha).resolve_left hap
      rw [hother hap]
      exact hs.accessed c a hc
  · intro b a ha
    by_cases hap : a = p
    · rw [hap, hself, hstamp, hs.counter, UInt64.toUInt32_ofNat']
      rfl
    · obtain ⟨c, hc⟩ := (hchains b a ha).resolve_left hap
      rw [hother hap, hothers a hap]
      exact hs.stamp c a hc
  · intro b a ha b' a' ha' heq
    have hlea := hle a
    have hlea' := hle a'
    by_cases hap : a = p
    · by_cases hap' : a' = p
      · rw [hap, hap']
      · rw [hap, hself, hother hap'] at heq
        omega
    · obtain ⟨c, hc⟩ := (hchains b a ha).resolve_left hap
      by_cases hap' : a' = p
      · rw [hap', hself, hother hap] at heq
        omega
      · obtain ⟨c', hc'⟩ := (hchains b' a' ha').resolve_left hap'
        rw [hother hap, hother hap'] at heq
        exact hs.apart c a hc c' a' hc' heq

lemma withSpace_counters (s : TraceCache) (chains : Bucket → List UInt64) :
    (s.withSpace chains).header.lruCounter = s.header.lruCounter ∧
      ∀ a, ((s.withSpace chains).heap a).lruCounter = (s.heap a).lruCounter := by
  rw [TraceCache.withSpace, TraceCache.evict]
  split
  · split
    · exact ⟨rfl, setEntry_field TraceCacheEntry.lruCounter rfl⟩
    · exact ⟨rfl, fun _ => rfl⟩
  · exact ⟨rfl, fun _ => rfl⟩

/-- A call keeps the entries stamped. -/
lemma Stamped.step (hs : Stamped tr m.view chains) (h : Linked m.view chains)
    (hfresh : Creates m.view op → m.view.header.alloc ≠ 0 ∧ ∀ b, m.view.header.alloc ∉ chains b)
    (he : Effect chains m.view op answer s') :
    ∃ chains', Linked s' chains' ∧ Stamped (tr ++ [⟨m, op, answer⟩]) s' chains' := by
  cases he with
  | idle hnot => exact ⟨chains, h, hs.idle hnot rfl fun _ => rfl⟩
  | @accessed _ _ p b e hacc _ hmem htrace hnext =>
    obtain ⟨hrip, hcontext, -, hvalid⟩ := trace_eq_iff.mp htrace
    have hsame := (same_setEntry hnext hrip hcontext hvalid).trans (same_stampLru _ p)
    refine ⟨chains, hsame.linked h, hs.access hacc (fun a ha => accesses_unique ha hacc) rfl ?_ ?_
      fun b a ha => .inr ⟨b, ha⟩⟩
    · rw [stampLru_self]
      rfl
    · intro a hne
      rw [TraceCache.stampLru]
      dsimp only
      rw [setEntry_of_ne _ _ hne, setEntry_of_ne _ _ hne]
  | @created rip context hcreates =>
    obtain ⟨hnull, hfresh⟩ := hfresh hcreates
    obtain ⟨hcounter, hheap⟩ := withSpace_counters m.view chains
    have h₁ := linked_withSpace h
    have halloc := withSpace_alloc m.view chains
    have hacc : AccessedBy ⟨m, .insert rip context, some m.view.header.alloc⟩ m.view.header.alloc :=
      ⟨hnull, rfl⟩
    rw [← halloc] at hnull hfresh
    refine ⟨_, h₁.create hfresh, hs.access hacc (fun a ha => accesses_unique ha hacc) ?_ ?_ ?_ ?_⟩
    · rw [create_header, hcounter]
    · rw [← halloc, create_self, ← hcounter]
      rfl
    · intro a hne
      rw [← halloc] at hne
      rw [create_of_ne _ _ _ hne, hheap]
    · intro b a ha
      rcases (mem_createdChains hnull).mp ha with ⟨-, rfl⟩ | ha
      · exact .inl halloc
      · exact .inr ⟨b, ha⟩
  | @invalidated rip heap hheap =>
    refine ⟨chains, (invalidated_frame hheap).linked h, hs.idle (fun a ha => ha.2.elim) rfl fun a => ?_⟩
    change (heap a).lruCounter = _
    rw [hheap]
    split
    · rw [TraceCacheEntry.without]
      split <;> rfl
    · rfl

/-- What a run whose entries all fit goes through. -/
def Timed (tr : List (Event TraceMemory Op (Option UInt64))) (m : TraceMemory) : Prop :=
  Full m.view ∨ ∃ n chains, Stacked n m.view chains ∧ Stamped tr m.view chains

lemma Stamped.of_agree (hs : Stamped tr s' chains) (ha : Agree n s s') (h : Stacked n s chains) :
    Stamped tr s chains := by
  refine ⟨?_, hs.accessed, fun b a hmem => ?_, hs.apart⟩
  · rw [ha.header]
    exact hs.counter
  · rw [ha.heap a (h.inArena b a hmem)]
    exact hs.stamp b a hmem

lemma timed_init (mem : Bytes) {baseAddress size : UInt64}
    (hregion : baseAddress.toNat + (initSize baseAddress size).toNat < 2 ^ 64) :
    Timed [] (traceCacheInit mem baseAddress size).1 := by
  rcases init_cases mem hregion with hfull | ⟨hstacked, hheader⟩
  · exact .inl hfull
  · refine .inr ⟨0, _, hstacked, ?_, nofun, nofun, nofun⟩
    change (traceCacheInit mem baseAddress size).1.header.lruCounter = _
    rw [hheader]
    rfl

/-- A call on stacked entries keeps them stamped. -/
lemma stamped_step (h : Stacked n m.view chains) (hs : Stamped tr m.view chains)
    (hfit : Fits m.view op) (st : Step m op answer m') :
    ∃ k chains' s', (¬ Creates m.view op ∧ k = n ∨ Creates m.view op ∧ k = n + 1) ∧
      Stacked k m'.view chains' ∧ Stamped (tr ++ [⟨m, op, answer⟩]) m'.view chains' ∧
        TCache.Step m.view op answer s' ∧ Effect chains m.view op answer s' ∧
          Simulates k m m' s' := by
  obtain ⟨k, chains', s', hk, -, h', hmodel, hsim⟩ := stacked_step h hfit st
  have heffect := h.linked.effect h.ready hmodel
  obtain ⟨chains₁, hlinked, hs₁⟩ := hs.step h.linked
    (fun hcreates => ⟨h.alloc_ne_null (hfit hcreates), h.alloc_not_mem (hfit hcreates)⟩) heffect
  have hmodel' : Stacked k s' chains' := hsim.agree.symm.stacked h'
  obtain rfl : chains₁ = chains' := hlinked.unique hmodel'.linked
  exact ⟨k, chains₁, s', hk, h', hs₁.of_agree hsim.agree h', hmodel, heffect, hsim⟩

lemma Timed.step (h : Timed tr m) (hfit : Fits m.view op) (st : Step m op answer m') :
    Timed (tr ++ [⟨m, op, answer⟩]) m' := by
  rcases h with hfull | ⟨n, chains, h, hs⟩
  · exact .inl (full_step hfull hfit st)
  · obtain ⟨k, chains', -, -, h', hs', -⟩ := stamped_step h hs hfit st
    exact .inr ⟨k, chains', h', hs'⟩

/-! ## Evictions -/

/-- The call evicts. -/
def Evicts (ev : Event TraceMemory Op (Option UInt64)) : Prop :=
  Creates ev.before.view ev.op ∧ ev.before.header.entryCount ≥ traceCacheMaxEntries

/-- The entries that `TraceCacheEvictLru` looks at: the first `LruScanDepth` that are valid and not
pinned. -/
def Candidates (m : TraceMemory) (l : List UInt64) : Prop :=
  ∃ chains, (∀ b, Ends m.view.next 0 (m.view.buckets b) (chains b)) ∧ l = m.view.candidates chains

/-- The victim of `TraceCacheEvictLru`, or `NULL`. -/
def Victim (m : TraceMemory) (v : UInt64) : Prop :=
  Settles (fun n => ((scanOrder m.view.startBucket).foldlM (m.view.scan n)
    ⟨0xFFFFFFFFFFFFFFFF, 0, 0⟩).map Scan.victim) v

/-- If the call evicts, the victim is the candidate accessed least recently, and there is none only
if there is no candidate. -/
def EvictsOldest (tr : List (Event TraceMemory Op (Option UInt64)))
    (ev : Event TraceMemory Op (Option UInt64)) : Prop :=
  Evicts ev → ∃ l v, Candidates ev.before l ∧ Victim ev.before v ∧
    (l = [] ∧ v = 0 ∨ v ∈ l ∧ ∀ a ∈ l, lastAccess tr v ≤ lastAccess tr a)

/-- If the call evicts, the candidate accessed least recently is also the first of those with the
least number of the last access modulo `2 ^ 32`. -/
def OldestFirst (tr : List (Event TraceMemory Op (Option UInt64)))
    (ev : Event TraceMemory Op (Option UInt64)) : Prop :=
  Evicts ev → ∀ l, Candidates ev.before l →
    l.argmin (fun a => (lastAccess tr a - 1) % 2 ^ 32) = l.argmin (lastAccess tr)

lemma Stamped.leastRecent (hs : Stamped tr s chains) {l : List UInt64}
    (hl : ∀ a ∈ l, ∃ b, a ∈ chains b) :
    s.leastRecent l = l.argmin fun a => (lastAccess tr a - 1) % 2 ^ 32 := by
  have hkey {a : UInt64} (ha : a ∈ l) :
      (s.heap a).lruCounter.toNat = (lastAccess tr a - 1) % 2 ^ 32 := by
    obtain ⟨b, hb⟩ := hl a ha
    rw [hs.stamp b a hb, UInt32.toNat_ofNat']
  refine Recency.argmin_congr fun a ha a' ha' => ?_
  rw [hkey ha, hkey ha']

/-- An eviction takes the oldest candidate exactly under the condition. -/
lemma Stamped.evictsOldest (hs : Stamped tr m.view chains) (h : Linked m.view chains) :
    EvictsOldest tr ⟨m, op, answer⟩ ↔ OldestFirst tr ⟨m, op, answer⟩ := by
  have hmem {a : UInt64} (ha : a ∈ m.view.candidates chains) : ∃ b, a ∈ chains b :=
    (mem_candidates ha).1
  have hvictim := victim_settles h
  rw [hs.leastRecent fun a ha => hmem ha] at hvictim
  have hcandidates {l : List UInt64} (hl : Candidates m l) : l = m.view.candidates chains := by
    obtain ⟨chains', hends, rfl⟩ := hl
    rw [funext fun b => (hends b).unique (h.ends b)]
  refine forall_congr' fun _ => ?_
  constructor
  · rintro ⟨l, v, hl, hv, holdest⟩ l' hl'
    obtain rfl := (hcandidates hl').trans (hcandidates hl).symm
    obtain rfl := hcandidates hl
    obtain rfl := hv.unique hvictim
    rcases holdest with ⟨hnil, -⟩ | ⟨hv, hle⟩
    · rw [hnil]
      rfl
    · cases hfirst : (m.view.candidates chains).argmin
        fun a => (lastAccess tr a - 1) % 2 ^ 32 with
      | none =>
        rw [List.argmin_eq_none.mp hfirst] at hv
        cases hv
      | some v =>
        rw [hfirst, Option.getD_some] at hv hle
        cases hlast : (m.view.candidates chains).argmin (lastAccess tr) with
        | none =>
          rw [List.argmin_eq_none.mp hlast] at hv
          cases hv
        | some w =>
          have hw := List.argmin_mem hlast
          have hwv := List.le_of_mem_argmin hv hlast
          obtain ⟨b, hb⟩ := hmem hv
          obtain ⟨c, hc⟩ := hmem hw
          rw [hs.apart b v hb c w hc (Nat.le_antisymm (hle w hw) hwv)]
  · intro hfirst
    have hfirst := hfirst _ ⟨chains, h.ends, rfl⟩
    refine ⟨_, _, ⟨chains, h.ends, rfl⟩, hvictim, ?_⟩
    rw [hfirst]
    cases hlast : (m.view.candidates chains).argmin (lastAccess tr) with
    | none => exact .inl ⟨List.argmin_eq_none.mp hlast, rfl⟩
    | some v => exact .inr ⟨List.argmin_mem hlast, fun a ha => List.le_of_mem_argmin ha hlast⟩

/-- A run whose entries all fit keeps its entries stamped. -/
lemma timed_of_run (mem : Bytes) {baseAddress size : UInt64}
    (hregion : baseAddress.toNat + (initSize baseAddress size).toNat < 2 ^ 64)
    (run : Run Step (traceCacheInit mem baseAddress size).1 tr m)
    (hfits : ∀ ev ∈ tr, StepFits ev) : Timed tr m := by
  refine run.history (I := fun tr m => (∀ ev ∈ tr, StepFits ev) → Timed tr m)
    (fun _ => timed_init mem hregion) ?_ hfits
  intro tr m op answer m' ih st hfits
  obtain ⟨hpre, hlast⟩ := forall_mem_snoc.mp hfits
  exact (ih hpre).step hlast st

/-- Where no entry fits, no call evicts. -/
lemma Timed.cases (h : Timed tr m) (hfit : Fits m.view op) :
    ¬ Evicts ⟨m, op, answer⟩ ∨ ∃ n chains, Stacked n m.view chains ∧ Stamped tr m.view chains := by
  refine h.imp_left fun hfull => ?_
  rintro ⟨hcreates, -⟩
  have hfits := hfit hcreates
  obtain ⟨_, _, -, hready, -⟩ := hcreates
  exact Nat.not_le_of_lt (hfull.room hready) hfits

/-- So an event of a run evicts nothing or finds such a cache. -/
lemma evicts_cases (mem : Bytes) {baseAddress size : UInt64}
    (hregion : baseAddress.toNat + (initSize baseAddress size).toNat < 2 ^ 64)
    {tr : List (Event TraceMemory Op (Option UInt64))} {m : TraceMemory}
    (run : Run Step (traceCacheInit mem baseAddress size).1 tr m)
    (hfits : ∀ ev ∈ tr, StepFits ev) {pre post : List (Event TraceMemory Op (Option UInt64))}
    {ev : Event TraceMemory Op (Option UInt64)} (hsplit : tr = pre ++ ev :: post) :
    ¬ Evicts ev ∨
      ∃ n chains, Stacked n ev.before.view chains ∧ Stamped pre ev.before.view chains := by
  rw [hsplit, List.forall_mem_append, List.forall_mem_cons] at hfits
  obtain ⟨hpre, hfit, -⟩ := hfits
  exact (timed_of_run mem hregion (run.split hsplit).1 hpre).cases hfit

/-- In a run on a region of memory in which every new entry ends below the bucket table, every
eviction takes the oldest candidate exactly when the numbers of the accesses single it out modulo
`2 ^ 32`. -/
theorem evictsOldest_iff (mem : Bytes) {baseAddress size : UInt64}
    (hregion : baseAddress.toNat + (initSize baseAddress size).toNat < 2 ^ 64)
    {tr : List (Event TraceMemory Op (Option UInt64))} {m : TraceMemory}
    (run : Run Step (traceCacheInit mem baseAddress size).1 tr m)
    (hfits : ∀ ev ∈ tr, StepFits ev) :
    (∀ pre ev post, tr = pre ++ ev :: post → EvictsOldest pre ev) ↔
      ∀ pre ev post, tr = pre ++ ev :: post → OldestFirst pre ev := by
  refine forall_congr' fun pre => forall_congr' fun ev => forall_congr' fun post =>
    forall_congr' fun hsplit => ?_
  rcases evicts_cases mem hregion run hfits hsplit with hnot | ⟨n, chains, h, hs⟩
  · exact ⟨fun _ he => absurd he hnot, fun _ he => absurd he hnot⟩
  · exact hs.evictsOldest h.linked

/-- Up to `2 ^ 32` accesses the condition holds. -/
lemma Stamped.oldestFirst (hs : Stamped tr m.view chains) (h : Linked m.view chains)
    (hbound : accesses tr ≤ 2 ^ 32) : OldestFirst tr ⟨m, op, answer⟩ := by
  rintro - l ⟨chains', hends, rfl⟩
  obtain rfl : chains' = chains := funext fun b => (hends b).unique (h.ends b)
  refine Recency.argmin_counter hbound fun a ha => ?_
  obtain ⟨⟨b, hb⟩, -⟩ := mem_candidates ha
  exact hs.accessed b a hb

/-- A run of at most `2 ^ 32` accesses meets the condition. -/
lemma oldestFirst_of_run (mem : Bytes) {baseAddress size : UInt64}
    (hregion : baseAddress.toNat + (initSize baseAddress size).toNat < 2 ^ 64)
    (run : Run Step (traceCacheInit mem baseAddress size).1 tr m)
    (hfits : ∀ ev ∈ tr, StepFits ev) (hbound : accesses tr ≤ 2 ^ 32)
    {pre post : List (Event TraceMemory Op (Option UInt64))}
    {ev : Event TraceMemory Op (Option UInt64)} (hsplit : tr = pre ++ ev :: post) :
    OldestFirst pre ev := by
  have hle : accesses pre ≤ accesses tr := by
    rw [hsplit]
    exact (List.prefix_append pre (ev :: post)).sublist.countP_le
  rcases evicts_cases mem hregion run hfits hsplit with hnot | ⟨n, chains, h, hs⟩
  · exact fun he => absurd he hnot
  · exact hs.oldestFirst h.linked (Nat.le_trans hle hbound)

/-! ## Past the end of the counter -/

/-- A live trace: its entry, its `Rip` and the number of its last access. -/
structure LiveTrace where
  entry : UInt64
  rip : UInt64
  last : Nat

/-- The live traces are those in `l`, none of them pinned. -/
structure Contents (tr : List (Event TraceMemory Op (Option UInt64))) (s : TraceCache)
    (l : List LiveTrace) : Prop where
  live : ∀ a, a ∈ s.live ↔ ∃ t ∈ l, t.entry = a
  isFor : ∀ t ∈ l, (s.heap t.entry).isFor t.rip 0 = true
  pinCount : ∀ t ∈ l, (s.heap t.entry).pinCount = 0
  last : ∀ t ∈ l, lastAccess tr t.entry = t.last

/-- A run on a region of sixteen megabytes with `n` entries, those in `l` live. -/
structure Reached (tr : List (Event TraceMemory Op (Option UInt64))) (n : Nat) (m : TraceMemory)
    (l : List LiveTrace) : Prop where
  run : Run Step (traceCacheInit (fun _ => 0) 0x100000 0x1000000).1 tr m
  fits : ∀ ev ∈ tr, StepFits ev
  stamped : ∃ chains, Stacked n m.view chains ∧ Stamped tr m.view chains
  entryCount : m.header.entryCount = UInt32.ofNat n
  lruScanDepth : m.header.lruScanDepth = 64
  table : m.gTraceBuckets.toNat = m.gTraceCache.toNat + 0xF80000
  contents : Contents tr m.view l

variable {l : List LiveTrace} {rip : UInt64}

lemma reached_nil : Reached [] 0 (traceCacheInit (fun _ => 0) 0x100000 0x1000000).1 [] := by
  have hregion : (0x100000 : UInt64).toNat + (initSize 0x100000 0x1000000).toNat < 2 ^ 64 := by
    decide
  have hroom : 524288 + 56 ≤ (initSize 0x100000 0x1000000).toNat := by decide
  have hstacked := init_stacked (fun _ => 0) (by decide) hregion hroom
  have hheader : (traceCacheInit (fun _ => 0) 0x100000 0x1000000).1.header = _ :=
    (agree_init (fun _ => 0) (fun _ => default) hregion hroom).header
  refine ⟨.nil, nofun, ⟨_, hstacked, ?_, nofun, nofun, nofun⟩, init_entryCount .., ?_, ?_, ?_⟩
  · change (traceCacheInit (fun _ => 0) 0x100000 0x1000000).1.header.lruCounter = _
    rw [hheader]
    rfl
  · rw [hheader]
    rfl
  · rw [init_gTraceCache, init_gTraceBuckets]
    decide
  · refine ⟨fun a => ?_, nofun, nofun, nofun⟩
    rw [empty_live (init_bucket (fun _ => 0) 0x100000 0x1000000)]
    simp

/-- There is room for many entries. -/
lemma Reached.fits_of (h : Reached tr n m l) (hn : n < 200000) : Fits m.view op := by
  obtain ⟨chains, hstacked, -⟩ := h.stamped
  intro _
  have hnext : m.header.nextAlloc.toNat = m.gTraceCache.toNat + 56 + 64 * n := hstacked.nextAlloc
  change m.header.nextAlloc.toNat + 64 ≤ m.gTraceBuckets.toNat
  rw [hnext, h.table]
  omega

/-- Another call, and what is left to show of it. -/
lemma Reached.step (h : Reached tr n m l) (hn : n < 200000) (op : Op) :
    ∃ answer m' k chains s', Step m op answer m' ∧
      (¬ Creates m.view op ∧ k = n ∨ Creates m.view op ∧ k = n + 1) ∧
        Stacked n m.view chains ∧ TCache.Step m.view op answer s' ∧
          Effect chains m.view op answer s' ∧
            ∀ l', s'.header.entryCount = UInt32.ofNat k →
              Contents (tr ++ [⟨m, op, answer⟩]) s' l' → Reached (tr ++ [⟨m, op, answer⟩]) k m' l' := by
  have hfit : Fits m.view op := h.fits_of hn
  obtain ⟨chains, hstacked, hs⟩ := h.stamped
  obtain ⟨answer, m', st⟩ := step_of_stacked hstacked hfit
  obtain ⟨k, chains', s', hk, h', hs', hmodel, heffect, hsim⟩ := stamped_step hstacked hs hfit st
  refine ⟨answer, m', k, chains, s', st, hk, hstacked, hmodel, heffect, fun l' hcount hshows => ?_⟩
  have hheader : m'.header = s'.header := hsim.agree.header
  have hlive : m'.view.live = s'.live := hsim.agree.live_eq h'
  have hentry {t : LiveTrace} (ht : t ∈ l') : m'.entry t.entry = s'.heap t.entry := by
    have hmem : t.entry ∈ m'.view.live := by
      rw [hlive, hshows.live]
      exact ⟨t, ht, rfl⟩
    obtain ⟨⟨b, hb⟩, -⟩ := h'.linked.mem_live.mp hmem
    exact hsim.agree.heap _ (h'.inArena b _ hb)
  refine ⟨h.run.snoc st, forall_mem_snoc.mpr ⟨h.fits, hfit⟩, ⟨chains', h', hs'⟩, ?_, ?_, ?_, ?_⟩
  · rw [hheader, hcount]
  · rw [hheader, heffect.lruScanDepth]
    exact h.lruScanDepth
  · rw [hsim.gTraceBuckets, hsim.gTraceCache]
    exact h.table
  · refine ⟨fun a => ?_, fun t ht => ?_, fun t ht => ?_, hshows.last⟩
    · rw [hlive]
      exact hshows.live a
    · change (m'.entry t.entry).isFor _ _ = true
      rw [hentry ht]
      exact hshows.isFor t ht
    · change (m'.entry t.entry).pinCount = 0
      rw [hentry ht]
      exact hshows.pinCount t ht

lemma Reached.creates (h : Reached tr n m l) (hnew : ∀ t ∈ l, t.rip ≠ rip) :
    Creates m.view (.insert rip 0) := by
  obtain ⟨chains, hstacked, -⟩ := h.stamped
  refine hstacked.linked.creates_iff.mpr ⟨hstacked.ready, fun a ha => ?_⟩
  by_contra hfor
  have hfor : (m.view.heap a).isFor rip 0 = true := eq_true_of_ne_false hfor
  obtain ⟨hrip, -, hvalid⟩ := isFor_iff.mp hfor
  obtain ⟨t, ht, rfl⟩ := (h.contents.live a).mp (hstacked.linked.mem_live.mpr ⟨⟨_, ha⟩, hvalid⟩)
  exact hnew t ht ((isFor_iff.mp (h.contents.isFor t ht)).1.symm.trans hrip)

/-- Another trace for a new `Rip`, while the cache is not full. -/
lemma Reached.insert (h : Reached tr n m l) (hn : n < 131072) (rip : UInt64)
    (hnew : ∀ t ∈ l, t.rip ≠ rip) :
    ∃ answer m' p, Reached (tr ++ [⟨m, .insert rip 0, answer⟩]) (n + 1) m'
      (⟨p, rip, accesses tr + 1⟩ :: l) ∧
        accesses (tr ++ [⟨m, .insert rip 0, answer⟩]) = accesses tr + 1 := by
  obtain ⟨answer, m', k, chains, s', -, hk, hstacked, -, heffect, hreached⟩ :=
    h.step (by omega) (.insert rip 0)
  have hcreates := h.creates hnew
  obtain rfl : k = n + 1 := (hk.resolve_left fun hc => hc.1 hcreates).2
  have hfit : m.view.header.nextAlloc.toNat + 64 ≤ m.view.gTraceBuckets.toNat :=
    h.fits_of (by omega) hcreates
  have hnull := hstacked.alloc_ne_null hfit
  have hfresh := hstacked.alloc_not_mem hfit
  have hspace : m.view.withSpace chains = m.view := by
    refine if_neg fun hfull => ?_
    change m.header.entryCount ≥ _ at hfull
    rw [ge_iff_le, UInt32.le_iff_toNat_le, h.entryCount, UInt32.toNat_ofNat'] at hfull
    change 131072 ≤ _ at hfull
    omega
  cases heffect with
  | idle _ hnot => exact absurd hcreates hnot
  | accessed _ hnot => exact absurd hcreates hnot
  | created =>
    have hacc : AccessedBy ⟨m, .insert rip 0, some m.view.header.alloc⟩ m.view.header.alloc :=
      ⟨hnull, rfl⟩
    have hne {t : LiveTrace} (ht : t ∈ l) : t.entry ≠ m.view.header.alloc := by
      intro heq
      obtain ⟨⟨b, hb⟩, -⟩ := hstacked.linked.mem_live.mp ((h.contents.live _).mpr ⟨t, ht, rfl⟩)
      rw [heq] at hb
      exact hfresh b hb
    have hself := create_self m.view rip 0
    refine ⟨_, m', m.view.header.alloc, hreached _ ?_ ⟨fun a => ?_, ?_, ?_, ?_⟩,
      Recency.count_concat hacc⟩
    · rw [hspace, create_header, UInt32.ofNat_add]
      change m.header.entryCount + 1 = _
      rw [h.entryCount]
      rfl
    · rw [hspace, created_live hstacked.linked hfresh hnull, Set.mem_insert_iff, h.contents.live,
        List.exists_mem_cons_iff]
      exact or_congr_left eq_comm
    · rw [hspace, List.forall_mem_cons]
      refine ⟨?_, fun t ht => ?_⟩
      · rw [hself]
        exact isFor_iff.mpr ⟨rfl, rfl, rfl⟩
      · rw [create_of_ne _ _ _ (hne ht)]
        exact h.contents.isFor t ht
    · rw [hspace, List.forall_mem_cons]
      refine ⟨?_, fun t ht => ?_⟩
      · rw [hself]
        rfl
      · rw [create_of_ne _ _ _ (hne ht)]
        exact h.contents.pinCount t ht
    · rw [List.forall_mem_cons]
      refine ⟨Recency.last_concat hacc, fun t ht => ?_⟩
      rw [← h.contents.last t ht]
      exact Recency.last_concat_of_not fun ha => hne ht (accesses_unique ha hacc)

/-- A lookup of the only live trace. -/
lemma Reached.lookup {p : UInt64} {last : Nat} (h : Reached tr n m [⟨p, rip, last⟩])
    (hn : n < 200000) :
    ∃ answer m', Reached (tr ++ [⟨m, .lookup rip 0, answer⟩]) n m' [⟨p, rip, accesses tr + 1⟩] ∧
      accesses (tr ++ [⟨m, .lookup rip 0, answer⟩]) = accesses tr + 1 := by
  obtain ⟨answer, m', k, chains, s', -, hk, hstacked, hmodel, heffect, hreached⟩ :=
    h.step hn (.lookup rip 0)
  obtain rfl : k = n := (hk.resolve_right fun hc => by obtain ⟨⟨_, _, heq, -⟩, -⟩ := hc; cases heq).2
  have ht : (⟨p, rip, last⟩ : LiveTrace) ∈ [⟨p, rip, last⟩] := List.mem_singleton_self _
  have hfor := h.contents.isFor _ ht
  have hpin := h.contents.pinCount _ ht
  dsimp only at hfor hpin
  have hlive : p ∈ m.view.live := (h.contents.live p).mpr ⟨_, ht, rfl⟩
  have hmem : p ∈ chains (traceCacheHash rip 0) := by
    obtain ⟨⟨b, hb⟩, hvalid⟩ := hstacked.linked.mem_live.mp hlive
    obtain ⟨hrip, hcontext, -⟩ := isFor_iff.mp hfor
    rw [← hrip, ← hcontext, hstacked.linked.hash b p hb hvalid]
    exact hb
  have hanswer : answer = some p := by
    cases hstacked.linked.outcome hmodel with
    | lookup _ _ hfinds =>
      rcases hfinds with ⟨hnot, -⟩ | ⟨-, ⟨-, hnone⟩ | ⟨hq, hqfor⟩⟩
      · cases hnot.symm.trans hstacked.ready
      · cases (hnone p hmem).symm.trans hfor
      · rw [hstacked.unique rip 0 _ hq p hmem hqfor hfor]
  subst hanswer
  have hnull := hstacked.linked.ne_null hmem
  have hacc : AccessedBy ⟨m, .lookup rip 0, some p⟩ p := ⟨hnull, rfl⟩
  cases heffect with
  | idle hnot => exact absurd hacc (hnot p)
  | @accessed _ _ q b e hq _ _ htrace hnext hpins =>
    obtain rfl : p = q := accesses_unique hacc hq
    obtain ⟨hrip, hcontext, -, hvalid⟩ := trace_eq_iff.mp htrace
    refine ⟨_, m', hreached _ h.entryCount ⟨fun a => ?_, ?_, ?_, ?_⟩, Recency.count_concat hacc⟩
    · rw [accessed_live htrace hnext, h.contents.live]
      simp
    · simp only [List.forall_mem_singleton]
      rw [stampLru_self, setEntry_self]
      obtain ⟨hrip', hcontext', hvalid'⟩ := isFor_iff.mp hfor
      exact isFor_iff.mpr ⟨hrip.trans hrip', hcontext.trans hcontext', hvalid.trans hvalid'⟩
    · simp only [List.forall_mem_singleton]
      rw [stampLru_self, setEntry_self]
      exact (hpins rfl).trans hpin
    · rw [List.forall_mem_singleton]
      exact Recency.last_concat hacc

/-- An invalidation of the only live trace. -/
lemma Reached.invalidate {p : UInt64} {last : Nat} (h : Reached tr n m [⟨p, rip, last⟩])
    (hn : n < 200000) :
    ∃ answer m', Reached (tr ++ [⟨m, .invalidate rip, answer⟩]) n m' [] ∧
      accesses (tr ++ [⟨m, .invalidate rip, answer⟩]) = accesses tr := by
  obtain ⟨answer, m', k, chains, s', -, hk, hstacked, -, heffect, hreached⟩ :=
    h.step hn (.invalidate rip)
  obtain rfl : k = n := (hk.resolve_right fun hc => by obtain ⟨⟨_, _, heq, -⟩, -⟩ := hc; cases heq).2
  cases heffect with
  | idle _ _ hnot => exact absurd rfl (hnot rip)
  | accessed hacc => exact hacc.2.elim
  | invalidated hheap =>
    refine ⟨none, m', hreached [] h.entryCount ⟨fun a => ?_, nofun, nofun, nofun⟩,
      Recency.count_concat_of_not fun a ha => ha.2.elim⟩
    rw [invalidated_live hstacked.linked hheap]
    constructor
    · rintro ⟨ha, hne⟩
      obtain ⟨t, ht, rfl⟩ := (h.contents.live a).mp ha
      obtain rfl := List.mem_singleton.mp ht
      exact absurd (isFor_iff.mp (h.contents.isFor _ (List.mem_singleton_self _))).1 hne
    · rintro ⟨t, ht, -⟩
      cases ht

/-- Traces that are inserted and invalidated again count. -/
lemma reached_drain (n : Nat) (hn : n ≤ 131072) : ∃ tr m, Reached tr n m [] ∧ accesses tr = n := by
  induction n with
  | zero => exact ⟨[], _, reached_nil, rfl⟩
  | succ n ih =>
    obtain ⟨tr, m, h, hcount⟩ := ih (by omega)
    obtain ⟨_, _, _, h₁, hcount₁⟩ := h.insert (by omega) 2 nofun
    obtain ⟨_, _, h₂, hcount₂⟩ := h₁.invalidate (by omega)
    refine ⟨_, _, h₂, ?_⟩
    rw [hcount₂, hcount₁, hcount]

/-- A trace that is looked up `k` times. -/
lemma Reached.lookups {p : UInt64} (h : Reached tr n m [⟨p, rip, accesses tr⟩]) (hn : n < 200000)
    (k : Nat) : ∃ tr' m', Reached tr' n m' [⟨p, rip, accesses tr'⟩] ∧
      accesses tr' = accesses tr + k := by
  induction k with
  | zero => exact ⟨tr, m, h, rfl⟩
  | succ k ih =>
    obtain ⟨tr', m', h', hcount⟩ := ih
    obtain ⟨_, _, h'', hcount'⟩ := h'.lookup hn
    rw [← hcount'] at h''
    refine ⟨_, _, h'', ?_⟩
    rw [hcount', hcount, Nat.add_assoc]

/-- A full cache with two live traces, the first of them looked up `k` times before the other one
was inserted. -/
lemma reached_two (k : Nat) : ∃ tr m a b,
    Reached tr 131072 m [⟨b, 4, 131072 + k⟩, ⟨a, 3, 131071 + k⟩] ∧ accesses tr = 131072 + k := by
  obtain ⟨tr, m, h, hcount⟩ := reached_drain 131070 (by decide)
  obtain ⟨_, _, a, h₁, hcount₁⟩ := h.insert (by decide) 3 nofun
  rw [← hcount₁] at h₁
  obtain ⟨tr₂, _, h₂, hcount₂⟩ := h₁.lookups (by decide) k
  have three_ne : (3 : UInt64) ≠ 4 := by decide
  obtain ⟨_, _, b, h₃, hcount₃⟩ := h₂.insert (by decide) 4 (by
    rw [List.forall_mem_singleton]
    exact three_ne)
  have hfirst : accesses tr₂ = 131071 + k := by rw [hcount₂, hcount₁, hcount]
  have hsecond : accesses tr₂ + 1 = 131072 + k := by omega
  rw [hsecond, hfirst] at h₃
  rw [hsecond] at hcount₃
  exact ⟨_, _, a, b, h₃, hcount₃⟩

/-- The next insertion of a new `Rip` evicts, and both live traces are its candidates. -/
lemma Reached.evicts {t₁ t₂ : LiveTrace} (h : Reached tr 131072 m [t₁, t₂])
    (hnew : ∀ t ∈ [t₁, t₂], t.rip ≠ rip) (answer : Option UInt64) :
    Evicts ⟨m, .insert rip 0, answer⟩ ∧
      ∃ l, Candidates m l ∧ ∀ a, a ∈ l ↔ a = t₁.entry ∨ a = t₂.entry := by
  obtain ⟨chains, hstacked, -⟩ := h.stamped
  have hlinked := hstacked.linked
  have hlive : m.view.live = {t₁.entry, t₂.entry} := by
    ext a
    rw [h.contents.live]
    simp [eq_comm]
  refine ⟨⟨h.creates hnew, ?_⟩, _, ⟨chains, hlinked.ends, rfl⟩, fun a => ?_⟩
  · change m.header.entryCount ≥ _
    rw [h.entryCount]
    decide
  · have hsmall : m.view.live.ncard ≤ m.view.header.lruScanDepth.toNat := by
      change _ ≤ m.header.lruScanDepth.toNat
      rw [hlive, h.lruScanDepth]
      exact Nat.le_trans (Set.ncard_insert_le _ _) (by rw [Set.ncard_singleton]; decide)
    rw [mem_candidates_iff hlinked hsmall, h.contents.live]
    constructor
    · rintro ⟨⟨t, ht, rfl⟩, -⟩
      simpa using Or.imp (congrArg LiveTrace.entry) (congrArg LiveTrace.entry) (by simpa using ht)
    · rintro (rfl | rfl)
      · have ht : t₁ ∈ [t₁, t₂] := by simp
        have hpin := h.contents.pinCount t₁ ht
        exact ⟨⟨t₁, ht, rfl⟩, hpin⟩
      · have ht : t₂ ∈ [t₁, t₂] := by simp
        have hpin := h.contents.pinCount t₂ ht
        exact ⟨⟨t₂, ht, rfl⟩, hpin⟩

/-- The run in which the cache is filled, and another trace then inserted. -/
lemma reached_eviction (k : Nat) : ∃ pre ev m a b,
    Run Step (traceCacheInit (fun _ => 0) 0x100000 0x1000000).1 (pre ++ [ev]) m ∧
      (∀ e ∈ pre ++ [ev], StepFits e) ∧ accesses pre = 131072 + k ∧ Evicts ev ∧
        (∃ chains, Stacked 131072 ev.before.view chains ∧ Stamped pre ev.before.view chains) ∧
          (∃ l, Candidates ev.before l ∧ ∀ x, x ∈ l ↔ x = b ∨ x = a) ∧
            lastAccess pre a = 131071 + k ∧ lastAccess pre b = 131072 + k := by
  obtain ⟨pre, m, a, b, h, hcount⟩ := reached_two k
  have three_ne : (3 : UInt64) ≠ 5 := by decide
  have four_ne : (4 : UInt64) ≠ 5 := by decide
  have hnew : ∀ t ∈ [(⟨b, 4, 131072 + k⟩ : LiveTrace), ⟨a, 3, 131071 + k⟩], t.rip ≠ 5 := by
    rw [List.forall_mem_cons, List.forall_mem_singleton]
    exact ⟨four_ne, three_ne⟩
  have hfit : Fits m.view (.insert 5 0) := h.fits_of (by decide)
  obtain ⟨chains, hstacked, hs⟩ := h.stamped
  obtain ⟨answer, m', st⟩ := step_of_stacked hstacked hfit
  obtain ⟨hevicts, hcandidates⟩ := h.evicts hnew answer
  exact ⟨pre, ⟨m, .insert 5 0, answer⟩, m', a, b, h.run.snoc st,
    forall_mem_snoc.mpr ⟨h.fits, hfit⟩, hcount, hevicts, ⟨chains, hstacked, hs⟩, hcandidates,
    h.contents.last ⟨a, 3, 131071 + k⟩ (by simp), h.contents.last ⟨b, 4, 131072 + k⟩ (by simp)⟩

/-- In a short run an eviction takes the oldest candidate. -/
theorem evictsOldest_iff_insert : ∃ pre ev m,
    Run Step (traceCacheInit (fun _ => 0) 0x100000 0x1000000).1 (pre ++ [ev]) m ∧
      (∀ e ∈ pre ++ [ev], StepFits e) ∧ Evicts ev ∧ EvictsOldest pre ev := by
  have hregion : (0x100000 : UInt64).toNat + (initSize 0x100000 0x1000000).toNat < 2 ^ 64 := by
    decide
  obtain ⟨pre, ev, m, -, -, run, hfits, hcount, hevicts, -⟩ := reached_eviction 0
  have hbound : accesses (pre ++ [ev]) ≤ 2 ^ 32 := by
    have hlast : accesses [ev] ≤ 1 := Recency.count_le_length _
    have happend : accesses (pre ++ [ev]) = accesses pre + accesses [ev] := List.countP_append
    omega
  have holdest := (evictsOldest_iff (fun _ => 0) hregion run hfits).mpr
    fun _ _ _ => oldestFirst_of_run (fun _ => 0) hregion run hfits hbound
  exact ⟨pre, ev, m, run, hfits, hevicts, holdest pre ev [] rfl⟩

/-- The entry with the counter 0 was accessed after the one with the counter 4294967295. -/
theorem evictsOldest_not : ∃ pre ev m,
    Run Step (traceCacheInit (fun _ => 0) 0x100000 0x1000000).1 (pre ++ [ev]) m ∧
      (∀ e ∈ pre ++ [ev], StepFits e) ∧ ¬ EvictsOldest pre ev := by
  obtain ⟨pre, ev, m, a, b, run, hfits, -, hevicts, ⟨chains, hstacked, hs⟩, ⟨l, hl, hmem⟩, ha, hb⟩ :=
    reached_eviction (2 ^ 32 - 131071)
  refine ⟨pre, ev, m, run, hfits, fun holdest => ?_⟩
  have hfirst := (hs.evictsOldest hstacked.linked).mp holdest hevicts l hl
  have hamem : a ∈ l := (hmem a).mpr (.inr rfl)
  have hbmem : b ∈ l := (hmem b).mpr (.inl rfl)
  cases hmin : l.argmin (lastAccess pre) with
  | none =>
    rw [List.argmin_eq_none.mp hmin] at hamem
    cases hamem
  | some v =>
    have hle := List.le_of_mem_argmin hamem hmin
    rw [hmin] at hfirst
    have hle' := List.le_of_mem_argmin hbmem hfirst
    rcases (hmem v).mp (List.argmin_mem hmin) with rfl | rfl
    · rw [ha, hb] at hle
      omega
    · rw [ha, hb] at hle'
      omega

end TraceMemory

end Bemi.TCache
