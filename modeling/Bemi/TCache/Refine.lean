import Bemi.TCache.Represents

/-!
# The trace cache refines a finite map

The map is the set of keys that have been inserted and not invalidated since (`Present`). As long as
the arena does not wrap and nothing is evicted, lookups agree with it, each key has one entry at
most, and an invalidation removes the keys of its `Rip` and no others.
-/

namespace Bemi.TCache
open Chain Transition

/-- What the cache should answer after the calls `ops`. -/
structure RefinesMap (ops : List Op) (s : TraceCache) : Prop where
  lookup : ∀ rip context, ∃ s' p, Settles (fun n => traceCacheLookup n s rip context) (s', p) ∧
    (p ≠ 0 ↔ Present ops rip context) ∧
      (p ≠ 0 → (s'.heap p).rip = rip ∧ (s'.heap p).context = context)
  unique : ∀ b b' a a', OnChain s b a → OnChain s b' a' →
    (s.heap a).valid = true → (s.heap a').valid = true →
      (s.heap a).rip = (s.heap a').rip → (s.heap a).context = (s.heap a').context → a = a'
  invalidate : ∀ rip, ∃ s', Settles (fun n => traceCacheInvalidate n s rip) s' ∧
    ∀ b a, (OnChain s' b a ↔ OnChain s b a) ∧ (OnChain s b a →
      (s'.heap a).rip = (s.heap a).rip ∧ (s'.heap a).context = (s.heap a).context ∧
        ((s'.heap a).valid = true ↔ (s.heap a).valid = true ∧ (s.heap a).rip ≠ rip))

/-- A cache that represents the calls so far answers as the map does. -/
lemma Represents.refinesMap {base size : UInt64} {ops : List Op} {n : Nat} {s : TraceCache}
    {chains : Bucket → List UInt64} (h : Represents base size ops n s chains) :
    RefinesMap ops s where
  lookup rip context := by
    obtain ⟨s', p, hsettles, hsame, -, hp⟩ := lookup_settles h.linked rip context
    refine ⟨s', p, hsettles, ?_⟩
    rcases hp with ⟨hready, -⟩ | ⟨-, ⟨rfl, hnone⟩ | ⟨hmem, hfor⟩⟩
    · rw [h.ready] at hready
      cases hready
    · refine ⟨iff_of_false (by simp) fun hpresent => ?_, by simp⟩
      obtain ⟨a, ha, hfor⟩ := (h.present ..).mpr hpresent
      rw [hnone a ha] at hfor
      cases hfor
    · obtain ⟨hrip, hcontext, -⟩ := isFor_iff.mp hfor
      refine ⟨iff_of_true (h.linked.ne_null hmem) ((h.present ..).mp ⟨p, hmem, hfor⟩), fun _ => ?_⟩
      rw [hsame.rip, hsame.context]
      exact ⟨hrip, hcontext⟩
  unique b b' a a' ha ha' hvalid hvalid' hrip hcontext := by
    rw [h.linked.onChain_iff] at ha ha'
    obtain rfl := h.linked.hash b a ha hvalid
    obtain rfl := h.linked.hash b' a' ha' hvalid'
    rw [← hrip, ← hcontext] at ha'
    exact h.unique _ _ a ha a' ha' (isFor_iff.mpr ⟨rfl, rfl, hvalid⟩)
      (isFor_iff.mpr ⟨hrip.symm, hcontext.symm, hvalid'⟩)
  invalidate rip := by
    obtain ⟨s', hsettles, -, hframe⟩ := invalidate_settles h.linked rip
    have hnull := ready_ne_null h.ready
    refine ⟨s', hsettles, fun b a => ⟨?_, fun ha => ⟨hframe.rip a, hframe.context a, ?_⟩⟩⟩
    · rw [(hframe.linked h.linked).onChain_iff, h.linked.onChain_iff]
    · rw [h.linked.onChain_iff] at ha
      rw [hframe.valid]
      simp only [hnull, ne_eq, not_false_eq_true, true_and, show ∃ b, a ∈ chains b from ⟨b, ha⟩]

open Classical in
/-- How many calls of a run created an entry. -/
noncomputable def created (tr : List (Event TraceCache Op (Option UInt64))) : Nat :=
  tr.countP fun ev => Creates ev.before ev.op

lemma created_concat (tr : List (Event TraceCache Op (Option UInt64))) (s : TraceCache) (op : Op)
    (answer : Option UInt64) :
    (¬ Creates s op → created (tr ++ [⟨s, op, answer⟩]) = created tr) ∧
      (Creates s op → created (tr ++ [⟨s, op, answer⟩]) = created tr + 1) := by
  constructor <;> intro h <;> simp [created, List.countP_append, h]

/-- How many entries fit between the header and the bucket table. -/
def fit (baseAddress size : UInt64) : Nat :=
  ((initSize baseAddress size).toNat - headerSize.toNat - bucketSize.toNat) / entrySize.toNat

/-- For a region of memory (not at address 0, and within the address space) and any run on it that
creates fewer entries than fit and fewer than make the cache evict: lookups find exactly the keys
inserted and not invalidated since, no key has two entries, and an invalidation removes exactly
the entries of its `Rip`. -/
theorem traceCache_refines (heap : Heap) {baseAddress size : UInt64} (hbase : baseAddress ≠ 0)
    (hregion : baseAddress.toNat + (initSize baseAddress size).toNat < 2 ^ 64)
    {tr : List (Event TraceCache Op (Option UInt64))} {s : TraceCache}
    (run : Run Step (traceCacheInit heap baseAddress size).1 tr s)
    (hfit : created tr < fit baseAddress size)
    (hmax : created tr < traceCacheMaxEntries.toNat) : RefinesMap (tr.map Event.op) s := by
  obtain ⟨hbase', hsize', hlarge⟩ := arena_region hregion
  let I (tr : List (Event TraceCache Op (Option UInt64))) (s : TraceCache) : Prop :=
    created tr < fit baseAddress size → created tr < 131072 →
      ∃ chains, Represents (baseAddress + headerSize) (initSize baseAddress size - headerSize)
        (tr.map Event.op) (created tr) s chains
  have hI : I tr s := by
    refine run.history (I := I) (fun _ _ => ⟨_, represents_init heap baseAddress size hbase⟩) ?_
    intro tr s op answer s' ih st hfit hmax
    obtain ⟨hold, hnew⟩ := created_concat tr s op answer
    have hle : created tr ≤ created (tr ++ [⟨s, op, answer⟩]) := by
      by_cases hc : Creates s op
      · rw [hnew hc]
        exact Nat.le_succ _
      · rw [hold hc]
    obtain ⟨chains, h⟩ := ih (Nat.lt_of_le_of_lt hle hfit) (Nat.lt_of_le_of_lt hle hmax)
    have hroom (hc : Creates s op) :
        64 * (created tr + 1) ≤ (initSize baseAddress size - headerSize).toNat ∧
          created tr < 131072 := by
      rw [hnew hc] at hfit hmax
      change _ < (_ - 56 - 524288) / 64 at hfit
      omega
    rw [List.map_append]
    obtain ⟨chains', ⟨hc, h'⟩ | ⟨hc, h'⟩⟩ := h.step (by omega) (by omega) hroom st
    · rw [hold hc]
      exact ⟨chains', h'⟩
    · rw [hnew hc]
      exact ⟨chains', h'⟩
  obtain ⟨chains, h⟩ := hI hfit hmax
  exact h.refinesMap

/-- Every short enough list of calls has a run. -/
lemma run_exists (heap : Heap) (baseAddress size : UInt64) (hbase : baseAddress ≠ 0)
    (hregion : baseAddress.toNat + (initSize baseAddress size).toNat < 2 ^ 64) (ops : List Op)
    (hroom : 64 * ops.length ≤ (initSize baseAddress size).toNat - 56)
    (hmax : ops.length ≤ 131072) :
    ∃ tr s, Run Step (traceCacheInit heap baseAddress size).1 tr s ∧ tr.map Event.op = ops ∧
      ∃ n ≤ ops.length, ∃ chains, Represents (baseAddress + headerSize)
        (initSize baseAddress size - headerSize) ops n s chains := by
  obtain ⟨hbase', hsize', hlarge⟩ := arena_region hregion
  induction ops using List.reverseRecOn with
  | nil => exact ⟨[], _, .nil, rfl, 0, Nat.le_refl 0, _, represents_init heap baseAddress size hbase⟩
  | append_singleton ops op ih =>
    rw [List.length_append, List.length_singleton] at hroom hmax
    obtain ⟨tr, s, run, hops, n, hn, chains, h⟩ := ih (by omega) (by omega)
    obtain ⟨answer, s', st, -⟩ := h.linked.step_exists op
    refine ⟨_, s', run.snoc st, by simp [hops], ?_⟩
    rw [List.length_append, List.length_singleton]
    obtain ⟨chains', ⟨-, h'⟩ | ⟨-, h'⟩⟩ :=
      h.step (by omega) (by omega) (fun _ => ⟨by omega, by omega⟩) st
    · exact ⟨n, by omega, chains', h'⟩
    · exact ⟨n + 1, by omega, chains', h'⟩

theorem traceCache_refines_invalidate :
    ∃ tr s, Run Step (traceCacheInit (fun _ => default) 0x100000 0x400000).1 tr s ∧
      tr.map Event.op = [.insert 0x1000 0, .insert 0x2000 0, .invalidate 0x1000] ∧
      RefinesMap (tr.map Event.op) s := by
  obtain ⟨tr, s, run, hops, -⟩ := run_exists (fun _ => default) 0x100000 0x400000
    (by decide) (by decide)
    [.insert 0x1000 0, .insert 0x2000 0, .invalidate 0x1000] (by decide) (by decide)
  have hlength : created tr ≤ 3 := by
    have := congrArg List.length hops
    rw [List.length_map] at this
    exact List.countP_le_length.trans (Nat.le_of_eq this)
  exact ⟨tr, s, run, hops, traceCache_refines _ (by decide) (by decide) run
    (Nat.lt_of_le_of_lt hlength (by decide)) (Nat.lt_of_le_of_lt hlength (by decide))⟩

end Bemi.TCache
