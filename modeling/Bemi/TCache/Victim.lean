import Mathlib.Algebra.Group.Fin.Basic
import Mathlib.Data.List.MinMax
import Bemi.TCache.Links

/-!
# The victim of an eviction

`TraceCacheEvictLru` goes through the chains, from a bucket given by the global counter on, and looks
at the first `LruScanDepth` entries that are valid and not pinned. Its victim is the first of them
with the least `LruCounter`.
-/

namespace Bemi.TCache
open Chain

def TraceCacheEntry.evictable (e : TraceCacheEntry) : Bool :=
  e.valid && e.pinCount == 0

/-- The entries that an eviction looks at, in the order in which it comes to them. -/
def TraceCache.candidates (s : TraceCache) (chains : Bucket → List UInt64) : List UInt64 :=
  (((scanOrder s.startBucket).flatMap chains).filter fun a => (s.heap a).evictable).take
    s.header.lruScanDepth.toNat

/-- The first of the entries with the least `LruCounter`. -/
def TraceCache.leastRecent (s : TraceCache) (l : List UInt64) : Option UInt64 :=
  l.argmin fun a => (s.heap a).lruCounter.toNat

/-- What a scan has found when it has looked at the candidates `l`. -/
structure Scan.Found (s : TraceCache) (l : List UInt64) (acc : Scan) : Prop where
  scanned : acc.scanned.toNat = l.length
  victim : acc.victim = (s.leastRecent l).getD 0
  minLRU : acc.minLRU.toNat =
    ((s.leastRecent l).map fun a => (s.heap a).lruCounter.toNat).getD (2 ^ 64 - 1)

variable {s : TraceCache} {chains : Bucket → List UInt64}

/-- The scan looks at another candidate. -/
lemma Scan.Found.entry {l : List UInt64} {acc : Scan} (h : Scan.Found s l acc) {a : UInt64}
    (hcandidate : (s.heap a).evictable = true) (hroom : l.length < 2 ^ 32 - 1) :
    Scan.Found s (l ++ [a]) (Scan.entry s.heap a acc) := by
  obtain ⟨hscanned, hvictim, hmin⟩ := h
  have hnext : (acc.scanned + 1).toNat = (l ++ [a]).length := by
    rw [UInt32.toNat_add, hscanned, List.length_append]
    exact Nat.mod_eq_of_lt (by simpa using Nat.lt_of_lt_of_le (Nat.succ_lt_succ hroom) (by decide))
  have hlt : (s.heap a).lruCounter.toUInt64 < acc.minLRU ↔
      (s.heap a).lruCounter.toNat < acc.minLRU.toNat := by
    rw [UInt64.lt_iff_toNat_lt, UInt32.toNat_toUInt64]
  rw [Scan.entry, ← TraceCacheEntry.evictable, if_pos hcandidate]
  rw [TraceCache.leastRecent] at hvictim hmin
  cases hleast : l.argmin fun a => (s.heap a).lruCounter.toNat with
  | none =>
    -- the first candidate: any counter is below the start value
    rw [hleast] at hmin
    have hfirst : (s.heap a).lruCounter.toUInt64 < acc.minLRU := by
      rw [hlt, hmin]
      have hcounter := (s.heap a).lruCounter.toNat_lt
      change _ < 2 ^ 64 - 1
      omega
    rw [if_pos hfirst]
    refine ⟨hnext, ?_, ?_⟩
    · rw [TraceCache.leastRecent, List.argmin_concat, hleast]
      rfl
    · rw [TraceCache.leastRecent, List.argmin_concat, hleast]
      exact UInt32.toNat_toUInt64 _
  | some v =>
    rw [hleast] at hvictim hmin
    change _ = (s.heap v).lruCounter.toNat at hmin
    rw [hmin] at hlt
    split
    · rename_i hless
      refine ⟨hnext, ?_, ?_⟩
      · rw [TraceCache.leastRecent, List.argmin_concat, hleast]
        dsimp only
        rw [if_pos (hlt.mp hless)]
        rfl
      · rw [TraceCache.leastRecent, List.argmin_concat, hleast]
        dsimp only
        rw [if_pos (hlt.mp hless)]
        exact UInt32.toNat_toUInt64 _
    · rename_i hless
      refine ⟨hnext, ?_, ?_⟩
      · rw [TraceCache.leastRecent, List.argmin_concat, hleast]
        dsimp only
        rw [if_neg fun h => hless (hlt.mpr h)]
        exact hvictim
      · rw [TraceCache.leastRecent, List.argmin_concat, hleast]
        dsimp only
        rw [if_neg fun h => hless (hlt.mpr h)]
        exact hmin

/-- One node of a chain, as long as the scan goes on. -/
def Scan.node (s : TraceCache) (acc : Scan) (a : UInt64) : Scan :=
  if acc.scanned < s.header.lruScanDepth then Scan.entry s.heap a acc else acc

/-- The scan over the nodes of all chains. -/
lemma foldl_node (s : TraceCache) (nodes : List UInt64) :
    Scan.Found s ((nodes.filter fun a => (s.heap a).evictable).take s.header.lruScanDepth.toNat)
      (nodes.foldl (Scan.node s) ⟨0xFFFFFFFFFFFFFFFF, 0, 0⟩) := by
  induction nodes using List.reverseRecOn with
  | nil =>
    rw [List.filter_nil, List.take_nil]
    exact ⟨rfl, rfl, rfl⟩
  | append_singleton nodes a ih =>
    have hdepth := s.header.lruScanDepth.toNat_lt
    have hscanned := ih.scanned
    rw [List.length_take] at hscanned
    rw [List.foldl_append, List.foldl_cons, List.foldl_nil, List.filter_append, Scan.node]
    cases hcandidate : (s.heap a).evictable with
    | false =>
      have hlast : [a].filter (fun a => (s.heap a).evictable) = [] := by
        simp only [List.filter_cons, hcandidate, Bool.false_eq_true, if_false, List.filter_nil]
      rw [hlast, List.append_nil]
      split
      · rw [Scan.entry, ← TraceCacheEntry.evictable, hcandidate, if_neg Bool.false_ne_true]
        exact ih
      · exact ih
    | true =>
      have hlast : [a].filter (fun a => (s.heap a).evictable) = [a] := by
        simp only [List.filter_cons, hcandidate, if_true, List.filter_nil]
      rw [hlast]
      split
      · rename_i hgo
        rw [UInt32.lt_iff_toNat_lt, hscanned] at hgo
        have hlt : (nodes.filter fun a => (s.heap a).evictable).length <
            s.header.lruScanDepth.toNat := by omega
        rw [List.take_of_length_le (by rw [List.length_append]; exact hlt)]
        rw [List.take_of_length_le (Nat.le_of_lt hlt)] at ih
        exact ih.entry hcandidate (by omega)
      · rename_i hstop
        rw [UInt32.lt_iff_toNat_lt, hscanned] at hstop
        rw [List.take_append_of_le_length (by omega)]
        exact ih

/-- The scan of one chain. -/
lemma scan_settles_foldl (h : Linked s chains) (acc : Scan) (b : Bucket) :
    Settles (fun n => s.scan n acc b) ((chains b).foldl (Scan.node s) acc) := by
  obtain ⟨q, hwalk⟩ := walk_settles_foldl (Scan.entry s.heap) (fun _ entry => (s.heap entry).next)
    (fun acc => decide (acc.scanned < s.header.lruScanDepth)) (fun _ _ => rfl) acc (h.ends b)
  have hnode : (fun acc a => if decide (acc.scanned < s.header.lruScanDepth) = true then
      Scan.entry s.heap a acc else acc) = Scan.node s := by
    funext acc a
    simp only [Scan.node, decide_eq_true_eq]
  rw [hnode] at hwalk
  unfold TraceCache.scan
  split
  · exact hwalk.map Prod.snd
  · rename_i hstop
    have hsame : (chains b).foldl (Scan.node s) acc = acc := by
      induction chains b with
      | nil => rfl
      | cons a l ih => rw [List.foldl_cons, Scan.node, if_neg hstop, ih]
    rw [hsame]
    exact .const acc

/-- The scan of all chains. -/
lemma scanAll_settles (h : Linked s chains) (bs : List Bucket) (acc : Scan) :
    Settles (fun n => bs.foldlM (s.scan n) acc) ((bs.flatMap chains).foldl (Scan.node s) acc) := by
  obtain ⟨acc', hscan, rfl⟩ := Settles.foldlM (f := fun n => s.scan n)
    (I := fun done acc' => acc' = (done.flatMap chains).foldl (Scan.node s) acc)
    (fun done b acc' hacc => ⟨_, scan_settles_foldl h acc' b, by
      rw [List.flatMap_append, List.foldl_append, ← hacc, List.flatMap_cons, List.flatMap_nil,
        List.append_nil]⟩) bs [] acc rfl
  exact hscan

/-- The victim that the scan chooses. -/
theorem victim_settles (h : Linked s chains) :
    Settles (fun n => ((scanOrder s.startBucket).foldlM (s.scan n)
      ⟨0xFFFFFFFFFFFFFFFF, 0, 0⟩).map Scan.victim) ((s.leastRecent (s.candidates chains)).getD 0) := by
  have hfound := foldl_node s ((scanOrder s.startBucket).flatMap chains)
  rw [TraceCache.candidates, ← hfound.victim]
  exact (scanAll_settles h (scanOrder s.startBucket) _).map Scan.victim

lemma evictLru_settles (h : Linked s chains) : Settles (fun n => traceCacheEvictLru n s)
    (s.evict ((s.leastRecent (s.candidates chains)).getD 0)) := by
  have hfound := foldl_node s ((scanOrder s.startBucket).flatMap chains)
  rw [TraceCache.candidates, ← hfound.victim]
  exact (scanAll_settles h (scanOrder s.startBucket) _).map fun acc => s.evict acc.victim

/-! ## Candidates -/

lemma mem_scanOrder (start b : Bucket) : b ∈ scanOrder start :=
  List.mem_map.mpr ⟨b - start, mem_allBuckets _, add_sub_cancel start b⟩

/-- A candidate is on a chain, valid and not pinned. -/
lemma mem_candidates {a : UInt64} (ha : a ∈ s.candidates chains) :
    (∃ b, a ∈ chains b) ∧ (s.heap a).valid = true ∧ (s.heap a).pinCount = 0 := by
  obtain ⟨hmem, hcandidate⟩ := List.mem_filter.mp (List.mem_of_mem_take ha)
  obtain ⟨b, -, hb⟩ := List.mem_flatMap.mp hmem
  rw [TraceCacheEntry.evictable, Bool.and_eq_true, beq_iff_eq] at hcandidate
  exact ⟨⟨b, hb⟩, hcandidate⟩

/-- Nothing is scanned only if there is no such entry. -/
lemma candidates_eq_nil (hdepth : s.header.lruScanDepth ≠ 0) :
    s.candidates chains = [] ↔ ∀ b, ∀ a ∈ chains b, (s.heap a).valid = true →
      (s.heap a).pinCount ≠ 0 := by
  have hpos : s.header.lruScanDepth.toNat ≠ 0 := fun h => hdepth (UInt32.toNat_inj.mp h)
  rw [TraceCache.candidates, List.take_eq_nil_iff]
  constructor
  · rintro (h | h) b a ha hvalid hpin
    · exact absurd h hpos
    · refine List.filter_eq_nil_iff.mp h a (List.mem_flatMap.mpr ⟨b, mem_scanOrder _ b, ha⟩) ?_
      rw [TraceCacheEntry.evictable, hvalid, hpin]
      rfl
  · intro h
    refine .inr (List.filter_eq_nil_iff.mpr fun a ha hcandidate => ?_)
    obtain ⟨b, -, hb⟩ := List.mem_flatMap.mp ha
    rw [TraceCacheEntry.evictable, Bool.and_eq_true, beq_iff_eq] at hcandidate
    exact h b a hb hcandidate.1 hcandidate.2

/-- The victim is one of the candidates. -/
lemma leastRecent_mem {l : List UInt64} {v : UInt64} (h : s.leastRecent l = some v) : v ∈ l :=
  List.argmin_mem h

lemma leastRecent_eq_none {l : List UInt64} : s.leastRecent l = none ↔ l = [] :=
  List.argmin_eq_none

end Bemi.TCache
