import Bemi.Lib.Run
import Bemi.TCache.Links

/-!
# The trace cache before its arena wraps

`Represents base size ops n s chains` relates a cache to the calls made so far: the chains hold the
`n` entries of a prefix of the arena, at most one valid entry of each key, and the keys with a valid
entry are those inserted and not invalidated since. A call keeps the relation as long as the arena
has room for another entry and the cache fewer entries than would make it evict one.
-/

namespace Bemi.TCache
open Chain Transition

/-- `TraceCacheInsert` was called for a key, and `TraceCacheInvalidate` for its `Rip` not since the
last such call. -/
def Present (ops : List Op) (rip context : UInt64) : Prop :=
  ∃ before after, ops = before ++ Op.insert rip context :: after ∧
    Op.insert rip context ∉ after ∧ Op.invalidate rip ∉ after

lemma not_present_nil (rip context : UInt64) : ¬ Present [] rip context := by
  rintro ⟨before, after, h, -⟩
  simp at h

lemma present_concat (ops : List Op) (op : Op) (rip context : UInt64) :
    Present (ops ++ [op]) rip context ↔
      op = .insert rip context ∨ op ≠ .invalidate rip ∧ Present ops rip context := by
  constructor
  · rintro ⟨before, after, h, hinsert, hinvalidate⟩
    rcases List.eq_nil_or_concat after with rfl | ⟨after, x, rfl⟩
    · left
      simpa using (List.append_inj' h rfl).2
    · right
      have h' : ops ++ [op] = (before ++ Op.insert rip context :: after) ++ [x] := by simpa using h
      obtain ⟨rfl, hx⟩ := List.append_inj' h' rfl
      obtain rfl : op = x := by simpa using hx
      rw [List.concat_eq_append] at hinsert hinvalidate
      simp only [List.mem_append, List.mem_singleton, not_or] at hinsert hinvalidate
      exact ⟨fun h => hinvalidate.2 h.symm, before, after, rfl, hinsert.1, hinvalidate.1⟩
  · rintro (rfl | ⟨hop, before, after, rfl, hinsert, hinvalidate⟩)
    · exact ⟨ops, [], rfl, nofun, nofun⟩
    · by_cases hop' : op = .insert rip context
      · subst hop'
        exact ⟨_, [], rfl, nofun, nofun⟩
      · refine ⟨before, after ++ [op], by simp, ?_, ?_⟩
        · simp [hinsert, Ne.symm hop']
        · simp [hinvalidate, Ne.symm hop]

structure Represents (base size : UInt64) (ops : List Op) (n : Nat) (s : TraceCache)
    (chains : Bucket → List UInt64) : Prop where
  linked : Linked s chains
  ready : s.ready = true
  baseAddress : s.header.baseAddress = base
  size : s.header.size = size
  nextAlloc : s.header.nextAlloc.toNat = base.toNat + 64 * n
  entryCount : s.header.entryCount.toNat = n
  arena : ∀ a, (∃ b, a ∈ chains b) ↔ ∃ i < n, a.toNat = base.toNat + 64 * i
  unique : ∀ rip context, ∀ a ∈ chains (traceCacheHash rip context),
    ∀ a' ∈ chains (traceCacheHash rip context), (s.heap a).isFor rip context = true →
      (s.heap a').isFor rip context = true → a = a'
  present : ∀ rip context, (∃ a ∈ chains (traceCacheHash rip context),
    (s.heap a).isFor rip context = true) ↔ Present ops rip context

lemma isFor_iff {e : TraceCacheEntry} {rip context : UInt64} : e.isFor rip context = true ↔
    e.rip = rip ∧ e.context = context ∧ e.valid = true := by
  simp [TraceCacheEntry.isFor, and_assoc]

lemma Frame.isFor_iff {d : UInt64 → Prop} {s s' : TraceCache} (h : Frame d s s')
    (a rip context : UInt64) : (s'.heap a).isFor rip context = true ↔
      (s.heap a).isFor rip context = true ∧ ¬ d a := by
  rw [TCache.isFor_iff, TCache.isFor_iff, h.rip, h.context, h.valid, and_assoc, and_assoc]

variable {base size : UInt64} {ops : List Op} {n : Nat} {s s' : TraceCache}
  {chains : Bucket → List UInt64}

/-- A call that changes no link and no key keeps the relation if it drops what it should. -/
lemma Represents.frame {d : UInt64 → Prop} {ops' : List Op}
    (h : Represents base size ops n s chains) (hf : Frame d s s')
    (hcount : s'.header.entryCount = s.header.entryCount)
    (hpresent : ∀ rip context, Present ops' rip context ↔
      ∃ a ∈ chains (traceCacheHash rip context), (s.heap a).isFor rip context = true ∧ ¬ d a) :
    Represents base size ops' n s' chains where
  linked := hf.linked h.linked
  ready := hf.ready_eq.trans h.ready
  baseAddress := hf.baseAddress.trans h.baseAddress
  size := hf.size.trans h.size
  nextAlloc := by rw [hf.nextAlloc]; exact h.nextAlloc
  entryCount := by rw [hcount]; exact h.entryCount
  arena := h.arena
  unique rip context a ha a' ha' hfor hfor' :=
    h.unique rip context a ha a' ha' ((hf.isFor_iff ..).mp hfor).1 ((hf.isFor_iff ..).mp hfor').1
  present rip context := by simp only [hf.isFor_iff, hpresent]

lemma Represents.same {ops' : List Op} (h : Represents base size ops n s chains)
    (hs : Same s s') (hcount : s'.header.entryCount = s.header.entryCount)
    (hpresent : ∀ rip context, Present ops' rip context ↔ Present ops rip context) :
    Represents base size ops' n s' chains := by
  refine h.frame hs hcount fun rip context => ?_
  rw [hpresent, ← h.present]
  simp

/-- The next entry goes behind the others while the arena has room. -/
lemma Represents.alloc_eq (h : Represents base size ops n s chains)
    (hregion : base.toNat + size.toNat < 2 ^ 64) (hroom : 64 * (n + 1) ≤ size.toNat) :
    s.header.alloc = s.header.nextAlloc := by
  have hnext := h.nextAlloc
  have hsmall : ¬ s.header.nextAlloc + entrySize > s.header.baseAddress + s.header.size := by
    rw [h.baseAddress, h.size, gt_iff_lt, UInt64.lt_iff_toNat_lt, UInt64.toNat_add,
      UInt64.toNat_add, hnext]
    change ¬ _ < (_ + 64) % _
    omega
  rw [TraceCacheHeader.alloc, if_neg hsmall]

lemma mem_createdChains {rip context : UInt64} (hnull : s.header.alloc ≠ 0) {a : UInt64}
    {b : Bucket} : a ∈ createdChains s chains rip context b ↔
      b = traceCacheHash rip context ∧ a = s.header.alloc ∨ a ∈ chains b := by
  rw [createdChains, if_neg hnull]
  by_cases hb : b = traceCacheHash rip context
  · subst hb
    simp
  · simp [hb]

lemma newEntry_isFor (s : TraceCache) (rip context rip' context' : UInt64) :
    (s.newEntry rip context).isFor rip' context' = true ↔ rip = rip' ∧ context = context' := by
  simp [isFor_iff, TraceCache.newEntry]

/-- The entries for a key after a creation: those there were, and the new one for its own key. -/
lemma createdChains_isFor (rip context : UInt64) (hnull : s.header.alloc ≠ 0)
    (hfresh : ∀ b, s.header.alloc ∉ chains b) (a rip' context' : UInt64) :
    (a ∈ createdChains s chains rip context (traceCacheHash rip' context') ∧
        ((s.create rip context).heap a).isFor rip' context' = true) ↔
      (a = s.header.alloc ∧ rip = rip' ∧ context = context') ∨
        a ∈ chains (traceCacheHash rip' context') ∧ (s.heap a).isFor rip' context' = true := by
  rw [mem_createdChains hnull]
  by_cases ha : a = s.header.alloc
  · subst ha
    rw [create_self, newEntry_isFor]
    constructor
    · rintro ⟨-, hkey⟩
      exact .inl ⟨rfl, hkey⟩
    · rintro (⟨-, rfl, rfl⟩ | ⟨hmem, -⟩)
      · exact ⟨.inl ⟨rfl, rfl⟩, rfl, rfl⟩
      · exact absurd hmem (hfresh _)
  · rw [create_of_ne s _ _ ha]
    simp [ha]

/-- Creating the only entry for its key leaves one entry for each key. -/
lemma unique_create {rip context : UInt64} (hnull : s.header.alloc ≠ 0)
    (hfresh : ∀ b, s.header.alloc ∉ chains b)
    (hnone : ∀ a ∈ chains (traceCacheHash rip context), (s.heap a).isFor rip context = false)
    (hunique : ∀ rip context, ∀ a ∈ chains (traceCacheHash rip context),
      ∀ a' ∈ chains (traceCacheHash rip context), (s.heap a).isFor rip context = true →
        (s.heap a').isFor rip context = true → a = a') (rip' context' : UInt64) :
    ∀ a ∈ createdChains s chains rip context (traceCacheHash rip' context'),
      ∀ a' ∈ createdChains s chains rip context (traceCacheHash rip' context'),
        ((s.create rip context).heap a).isFor rip' context' = true →
          ((s.create rip context).heap a').isFor rip' context' = true → a = a' := by
  intro a ha a' ha' hfor hfor'
  have key (a : UInt64) := createdChains_isFor rip context hnull hfresh a rip' context'
  rcases (key a).mp ⟨ha, hfor⟩ with ⟨rfl, rfl, rfl⟩ | ⟨hmem, hold⟩ <;>
    rcases (key a').mp ⟨ha', hfor'⟩ with ⟨rfl, hrip, hcontext⟩ | ⟨hmem', hold'⟩
  · rfl
  · rw [hnone a' hmem'] at hold'
    cases hold'
  · subst hrip hcontext
    rw [hnone a hmem] at hold
    cases hold
  · exact hunique rip' context' a hmem a' hmem' hold hold'

lemma Represents.create (h : Represents base size ops n s chains)
    (hregion : base.toNat + size.toNat < 2 ^ 64) (hbase : 0 < base.toNat)
    (hroom : 64 * (n + 1) ≤ size.toNat) (hmax : n < 131072) {rip context : UInt64}
    (hnone : ∀ a ∈ chains (traceCacheHash rip context),
      (s.heap a).isFor rip context = false) :
    Represents base size (ops ++ [.insert rip context]) (n + 1) (s.create rip context)
      (createdChains s chains rip context) := by
  have halloc : s.header.alloc.toNat = base.toNat + 64 * n := by
    rw [h.alloc_eq hregion hroom]
    exact h.nextAlloc
  have hnull : s.header.alloc ≠ 0 := by
    intro h0
    rw [h0] at halloc
    change 0 = _ at halloc
    omega
  have hfresh (b : Bucket) : s.header.alloc ∉ chains b := by
    intro ha
    obtain ⟨i, hi, hai⟩ := (h.arena _).mp ⟨b, ha⟩
    omega
  constructor
  · exact h.linked.create hfresh
  · rw [create_ready]
    exact h.ready
  · rw [create_header]
    exact h.baseAddress
  · rw [create_header]
    exact h.size
  · rw [create_header, UInt64.toNat_add, halloc]
    change (_ + 64) % _ = _
    omega
  · rw [create_header, UInt32.toNat_add, h.entryCount]
    change (_ + 1) % _ = _
    omega
  · intro a
    simp only [mem_createdChains hnull, exists_or, exists_eq_left, h.arena]
    constructor
    · rintro (rfl | ⟨i, hi, ha⟩)
      · exact ⟨n, Nat.lt_succ_self n, halloc⟩
      · exact ⟨i, Nat.lt_succ_of_lt hi, ha⟩
    · rintro ⟨i, hi, ha⟩
      rcases Nat.lt_succ_iff_lt_or_eq.mp hi with hi | rfl
      · exact .inr ⟨i, hi, ha⟩
      · exact .inl (UInt64.toNat_inj.mp (ha.trans halloc.symm))
  · exact unique_create hnull hfresh hnone h.unique
  · intro rip' context'
    simp only [createdChains_isFor rip context hnull hfresh, exists_or, exists_eq_left, present_concat,
      ← h.present, Op.insert.injEq, ne_eq, reduceCtorEq, not_false_eq_true, true_and]

/-- One call: a creation adds an entry, any other call leaves their number. -/
lemma Represents.step (h : Represents base size ops n s chains)
    (hregion : base.toNat + size.toNat < 2 ^ 64) (hbase : 0 < base.toNat) {op : Op}
    {answer : Option UInt64} (hroom : Creates s op → 64 * (n + 1) ≤ size.toNat ∧ n < 131072)
    (st : Step s op answer s') : ∃ chains',
      ¬ Creates s op ∧ Represents base size (ops ++ [op]) n s' chains' ∨
        Creates s op ∧ Represents base size (ops ++ [op]) (n + 1) s' chains' := by
  cases h.linked.outcome st with
  | refused hready =>
    rw [h.ready] at hready
    cases hready
  | @found rip context p _ _ hp hfor hsame hcount =>
    refine ⟨chains, .inl ⟨fun hcreates => ?_, h.same hsame hcount fun rip' context' => ?_⟩⟩
    · rw [(h.linked.creates_iff.mp hcreates).2 p hp] at hfor
      cases hfor
    · rw [present_concat, or_iff_right_iff_imp.mpr]
      · simp
      · rintro hop
        obtain ⟨rfl, rfl⟩ := Op.insert.inj hop
        exact ⟨nofun, (h.present ..).mp ⟨p, hp, hfor⟩⟩
  | @created rip context s₁ _ hready hnone hframe heq =>
    have hcreates := h.linked.creates_iff.mpr ⟨hready, hnone⟩
    obtain ⟨hfits, hmax⟩ := hroom hcreates
    obtain rfl := heq (by
      rw [UInt32.lt_iff_toNat_lt, h.entryCount]
      exact hmax)
    exact ⟨_, .inr ⟨hcreates, h.create hregion hbase hfits hmax hnone⟩⟩
  | lookup hsame hcount _ =>
    exact ⟨chains, .inl ⟨nofun, h.same hsame hcount fun _ _ => by simp [present_concat]⟩⟩
  | pinEntry hsame hcount =>
    exact ⟨chains, .inl ⟨nofun, h.same hsame hcount fun _ _ => by simp [present_concat]⟩⟩
  | unpinEntry hsame hcount =>
    exact ⟨chains, .inl ⟨nofun, h.same hsame hcount fun _ _ => by simp [present_concat]⟩⟩
  | @invalidate rip _ hframe hheader =>
    refine ⟨chains, .inl ⟨nofun, h.frame hframe (by rw [hheader]) fun rip' context' => ?_⟩⟩
    have hnull := ready_ne_null h.ready
    rw [present_concat, ← h.present]
    simp only [reduceCtorEq, false_or, ne_eq, Op.invalidate.injEq]
    constructor
    · rintro ⟨hrip, a, ha, hfor⟩
      refine ⟨a, ha, hfor, fun hdropped => hrip ?_⟩
      rw [← hdropped.2.2, (isFor_iff.mp hfor).1]
    · rintro ⟨a, ha, hfor, hkept⟩
      refine ⟨fun hrip => hkept ⟨hnull, ⟨_, ha⟩, ?_⟩, a, ha, hfor⟩
      rw [hrip, (isFor_iff.mp hfor).1]

/-- Inserting a new key creates an entry. -/
lemma Represents.insert_step (h : Represents base size ops n s chains) (hmax : n < 131072)
    {rip context : UInt64} (hnew : ¬ Present ops rip context) :
    (∀ a ∈ chains (traceCacheHash rip context), (s.heap a).isFor rip context = false) ∧
      Step s (.insert rip context) (some s.header.alloc) (s.create rip context) := by
  have hnone : ∀ a ∈ chains (traceCacheHash rip context),
      (s.heap a).isFor rip context = false := by
    intro a ha
    by_contra hfor
    exact hnew ((h.present ..).mp ⟨a, ha, by simpa using hfor⟩)
  refine ⟨hnone, ?_⟩
  obtain ⟨answer, s', st, houtcome⟩ := h.linked.step_exists (.insert rip context)
  cases houtcome with
  | refused hready =>
    rw [h.ready] at hready
    cases hready
  | @found _ _ p _ _ hp hfor _ _ =>
    rw [hnone p hp] at hfor
    cases hfor
  | @created _ _ s₁ _ _ _ _ heq =>
    obtain rfl := heq (by
      rw [UInt32.lt_iff_toNat_lt, h.entryCount]
      exact hmax)
    exact st

/-- The cache that `TraceCacheInit` leaves. -/
lemma represents_init (heap : Heap) (baseAddress size : UInt64) (hbase : baseAddress ≠ 0) :
    Represents (baseAddress + headerSize) (initSize baseAddress size - headerSize) [] 0
      (traceCacheInit heap baseAddress size).1 fun _ => [] where
  linked := ⟨fun _ => .nil, nofun⟩
  ready := by simp [TraceCache.ready, traceCacheInit, hbase]
  baseAddress := rfl
  size := rfl
  nextAlloc := rfl
  entryCount := rfl
  arena a := by simp
  unique := nofun
  present rip context := by simp [not_present_nil]

/-- The arena lies behind the header, and ends where the region does. -/
lemma arena_region {baseAddress size : UInt64}
    (hregion : baseAddress.toNat + (initSize baseAddress size).toNat < 2 ^ 64) :
    (baseAddress + headerSize).toNat = baseAddress.toNat + 56 ∧
      (initSize baseAddress size - headerSize).toNat = (initSize baseAddress size).toNat - 56 ∧
      4096 ≤ (initSize baseAddress size).toNat := by
  have hsize : 4096 ≤ (initSize baseAddress size).toNat := by
    unfold initSize
    split
    · decide
    next h => exact UInt64.not_lt.mp (not_or.mp h).2
  rw [UInt64.toNat_add, UInt64.toNat_sub]
  change (_ + 56) % _ = _ ∧ (2 ^ 64 - 56 + _) % _ = _ ∧ _
  omega

end Bemi.TCache
