import Bemi.TCache.Effect
import Bemi.TCache.Refine

/-!
# What the trace cache counts

The map behind the cache, with its values: a `Tally` for each key that has been inserted and not
invalidated since. It says how often the trace was executed, how often it is pinned and which hint
it got. As long as the arena does not wrap and nothing is evicted, the entries hold exactly the
tallies of the calls so far (`traceCache_tallies`).
-/

namespace Bemi.TCache
open Chain Transition

structure Tally where
  executionCount : UInt32
  pinCount : UInt32
  dboOptimizationHint : UInt32
  deriving DecidableEq

def TraceCacheEntry.tally (e : TraceCacheEntry) : Tally :=
  ⟨e.executionCount, e.pinCount, e.dboOptimizationHint⟩

namespace Tally

/-- A trace that has just been inserted. -/
def new : Tally := ⟨1, 0, 0⟩

def executed (t : Tally) : Tally where
  executionCount := t.executionCount + 1
  pinCount := t.pinCount
  dboOptimizationHint :=
    if t.executionCount + 1 > 100 then t.dboOptimizationHint ||| traceCacheDboFusionEnable
    else t.dboOptimizationHint

def pinned (t : Tally) : Tally := { t with pinCount := t.pinCount + 1 }

/-- A pin count of 0 stays. -/
def unpinned (t : Tally) : Tally :=
  { t with pinCount := if t.pinCount > 0 then t.pinCount - 1 else 0 }

end Tally

/-- The tally of a key after one more call. -/
def Op.onTally (rip context : UInt64) (t : Option Tally) : Op → Option Tally
  | .insert rip' context' => if rip' = rip ∧ context' = context then some (t.getD .new) else t
  | .lookup rip' context' => if rip' = rip ∧ context' = context then t.map .executed else t
  | .pinEntry rip' context' =>
    if rip' = rip ∧ context' = context then t.map (·.executed.pinned) else t
  | .unpinEntry rip' context' =>
    if rip' = rip ∧ context' = context then t.map (·.executed.unpinned) else t
  | .invalidate rip' => if rip' = rip then none else t

/-- The tally of a key after the calls `ops`. -/
def tally (ops : List Op) (rip context : UInt64) : Option Tally :=
  ops.foldl (Op.onTally rip context) none

lemma tally_concat (ops : List Op) (op : Op) (rip context : UInt64) :
    tally (ops ++ [op]) rip context = op.onTally rip context (tally ops rip context) :=
  List.foldl_concat ..

lemma onTally_isSome (op : Op) (rip context : UInt64) (t : Option Tally) :
    (op.onTally rip context t).isSome = true ↔
      op = .insert rip context ∨ op ≠ .invalidate rip ∧ t.isSome = true := by
  cases op with
  | insert rip' context' =>
    rw [Op.onTally]
    split
    next hkey => simp [hkey]
    next hkey => simp [hkey]
  | lookup | pinEntry | unpinEntry =>
    rw [Op.onTally]
    split <;> simp
  | invalidate rip' =>
    rw [Op.onTally]
    split
    next hrip => simp [hrip]
    next hrip => simp [hrip]

/-- The keys of the map are those that are present. -/
lemma tally_isSome (ops : List Op) (rip context : UInt64) :
    (tally ops rip context).isSome = true ↔ Present ops rip context := by
  induction ops using List.reverseRecOn with
  | nil => exact iff_of_false nofun (not_present_nil rip context)
  | append_singleton ops op ih => rw [tally_concat, onTally_isSome, present_concat, ih]

/-- A tally is new, has been kept, or comes from one execution more and perhaps another pin count. -/
lemma onTally_eq_some {op : Op} {rip context : UInt64} {t : Option Tally} {u : Tally}
    (h : op.onTally rip context t = some u) : u = .new ∨ t = some u ∨
      ∃ v pins, t = some v ∧ u = { v.executed with pinCount := pins } := by
  have hmap {g : Tally → Tally} {p : Prop} [Decidable p]
      (hg : ∀ v, ∃ pins, g v = { v.executed with pinCount := pins })
      (hif : (if p then t.map g else t) = some u) : t = some u ∨
        ∃ v pins, t = some v ∧ u = { v.executed with pinCount := pins } := by
    split at hif
    · obtain ⟨v, hv, rfl⟩ := Option.map_eq_some_iff.mp hif
      obtain ⟨pins, hpins⟩ := hg v
      exact .inr ⟨v, pins, hv, hpins⟩
    · exact .inl hif
  cases op with
  | insert rip' context' =>
    rw [Op.onTally] at h
    split at h
    · cases t with
      | none => exact .inl (Option.some.inj h).symm
      | some v => exact .inr (.inl h)
    · exact .inr (.inl h)
  | lookup rip' context' => exact .inr (hmap (fun v => ⟨_, rfl⟩) h)
  | pinEntry rip' context' => exact .inr (hmap (fun v => ⟨_, rfl⟩) h)
  | unpinEntry rip' context' => exact .inr (hmap (fun v => ⟨_, rfl⟩) h)
  | invalidate rip' =>
    rw [Op.onTally] at h
    split at h
    · cases h
    · exact .inr (.inl h)

/-- Before its count can wrap, a trace has its hint if and only if it was executed more than 100
times. -/
lemma tally_hint {ops : List Op} (hops : ops.length < 2 ^ 32) {rip context : UInt64} {t : Tally}
    (ht : tally ops rip context = some t) : t.executionCount.toNat ≤ ops.length ∧
      t.dboOptimizationHint = if t.executionCount > 100 then 1 else 0 := by
  induction ops using List.reverseRecOn generalizing t with
  | nil => cases ht
  | append_singleton ops op ih =>
    rw [List.length_append, List.length_singleton] at hops ⊢
    rw [tally_concat] at ht
    obtain rfl | hold | ⟨v, pins, hold, rfl⟩ := onTally_eq_some ht
    · exact ⟨Nat.succ_le_succ (Nat.zero_le _), rfl⟩
    · obtain ⟨hcount, hhint⟩ := ih (Nat.lt_of_succ_lt hops) hold
      exact ⟨Nat.le_succ_of_le hcount, hhint⟩
    · obtain ⟨hcount, hhint⟩ := ih (Nat.lt_of_succ_lt hops) hold
      have hsucc : (v.executionCount + 1).toNat = v.executionCount.toNat + 1 := by
        rw [UInt32.toNat_add]
        exact Nat.mod_eq_of_lt (by change _ + 1 < _; omega)
      refine ⟨hsucc.trans_le (Nat.succ_le_succ hcount), ?_⟩
      rw [Tally.executed]
      dsimp only
      split
      next hhot =>
        rw [hhint]
        split <;> rfl
      next hcold =>
        rw [hhint, if_neg]
        rw [gt_iff_lt, UInt32.lt_iff_toNat_lt] at hcold ⊢
        omega

/-! ## What a call does to the entry of its key -/

variable {s s' : TraceCache} {chains : Bucket → List UInt64} {rip context : UInt64}
  {f : Tally → Tally} {ops : List Op} {op : Op} {answer : Option UInt64}

/-- At most the entry of the key changes, and its tally as `f` says. -/
inductive Touches (chains : Bucket → List UInt64) (s : TraceCache) (rip context : UInt64)
    (f : Tally → Tally) : TraceCache → Prop where
  | absent :
    (∀ a ∈ chains (traceCacheHash rip context), (s.heap a).isFor rip context = false) →
    Touches chains s rip context f s
  | present {p e s'} :
    p ∈ chains (traceCacheHash rip context) →
    (s.heap p).isFor rip context = true →
    s'.heap = Function.update s.heap p e →
    e.trace = (s.heap p).trace →
    e.tally = f (s.heap p).tally →
    Touches chains s rip context f s'

lemma tally_executed (e : TraceCacheEntry) : e.executed.tally = e.tally.executed := by
  by_cases hhot : e.executionCount + 1 > 100
  · simp [TraceCacheEntry.executed, Tally.executed, TraceCacheEntry.tally, hhot]
  · simp [TraceCacheEntry.executed, Tally.executed, TraceCacheEntry.tally, hhot]

lemma tally_unpinned (e : TraceCacheEntry) :
    (if e.pinCount > 0 then { e with pinCount := e.pinCount - 1 } else e).tally =
      e.tally.unpinned := by
  rw [Tally.unpinned]
  split
  next hpos => exact congrArg (Tally.mk _ · _) (if_pos hpos).symm
  next hzero =>
    have hpins : e.pinCount = 0 := by
      rw [← UInt32.toNat_inj]
      rw [gt_iff_lt, UInt32.lt_iff_toNat_lt] at hzero
      exact Nat.eq_zero_of_not_pos hzero
    rw [if_neg (show ¬ e.tally.pinCount > 0 from hzero)]
    exact congrArg (Tally.mk _ · _) hpins

lemma setEntry_stampLru_heap (s : TraceCache) (p : UInt64) (e : TraceCacheEntry) :
    ((s.setEntry p e).stampLru p).heap =
      Function.update s.heap p { e with lruCounter := s.header.lruCounter.toUInt32 } := by
  simp only [TraceCache.stampLru, TraceCache.setEntry, Function.update_idem, Function.update_self]

section
variable (h : Linked s chains) (hready : s.ready = true)
include h hready

lemma insert_touches (hcreates : ¬ Creates s (.insert rip context))
    (st : Step s (.insert rip context) answer s') : Touches chains s rip context id s' := by
  obtain ⟨p, hfind, ⟨rfl, hnone⟩ | ⟨hp, hfor⟩⟩ := find_settles h rip context
  · exact absurd (h.creates_iff.mpr ⟨hready, hnone⟩) hcreates
  · obtain ⟨n, hrun, hfound⟩ := Settles.both st hfind
    rw [perform, traceCacheInsert, if_pos hready, hfound, Option.bind_some,
      if_neg (h.ne_null hp), Option.map_some] at hrun
    cases hrun
    exact .present hp hfor rfl rfl rfl

/-- A lookup finds no entry and changes nothing, or counts an execution of the one it finds. -/
lemma lookup_counts : ∃ s' p, Settles (fun n => traceCacheLookup n s rip context) (s', p) ∧
    (p = 0 ∧ s' = s ∧ (∀ a ∈ chains (traceCacheHash rip context),
        (s.heap a).isFor rip context = false) ∨
      p ≠ 0 ∧ p ∈ chains (traceCacheHash rip context) ∧ (s.heap p).isFor rip context = true ∧
        ∃ e, s'.heap = Function.update s.heap p e ∧ e.trace = (s.heap p).trace ∧
          e.tally = (s.heap p).tally.executed) := by
  obtain ⟨p, hfind, hfinds⟩ := find_settles h rip context
  obtain ⟨q, hfind', hlookup⟩ := @lookup_effect s chains rip context h hready
  obtain rfl := hfind.unique hfind'
  obtain ⟨rfl, hlookup⟩ | ⟨hnull, hp, hlookup⟩ := hlookup
  · obtain ⟨-, hnone⟩ | ⟨hp, -⟩ := hfinds
    · exact ⟨s, 0, hlookup, .inl ⟨rfl, rfl, hnone⟩⟩
    · exact absurd rfl (h.ne_null hp)
  · obtain ⟨rfl, -⟩ | ⟨-, hfor⟩ := hfinds
    · exact absurd rfl hnull
    · exact ⟨_, p, hlookup, .inr ⟨hnull, hp, hfor, _, setEntry_stampLru_heap s p _,
        trace_executed (s.heap p), tally_executed (s.heap p)⟩⟩

lemma lookup_touches (st : Step s (.lookup rip context) answer s') :
    Touches chains s rip context .executed s' := by
  obtain ⟨s₁, p, hlookup, hp⟩ := @lookup_counts s chains rip context h hready
  obtain ⟨rfl, rfl⟩ := Prod.mk.inj (st.unique (hlookup.map fun r => (r.1, some r.2)))
  obtain ⟨-, rfl, hnone⟩ | ⟨-, hp, hfor, e, hheap, htrace, htally⟩ := hp
  · exact .absent hnone
  · exact .present hp hfor hheap htrace htally

/-- A lookup, and then perhaps another pin count for the entry that it finds. -/
lemma repin_touches (guard : TraceCacheEntry → Prop) [DecidablePred guard]
    (pins : TraceCacheEntry → UInt32)
    (hf : ∀ e, (if guard e then { e with pinCount := pins e } else e).tally = f e.tally)
    (st : Settles (fun n => (traceCacheLookup n s rip context).map fun (s, p) =>
      if p ≠ 0 ∧ guard (s.heap p) then s.setEntry p { s.heap p with pinCount := pins (s.heap p) }
      else s) s') : Touches chains s rip context (fun t => f t.executed) s' := by
  obtain ⟨s₁, p, hlookup, hp⟩ := @lookup_counts s chains rip context h hready
  obtain rfl := st.unique (hlookup.map _)
  obtain ⟨rfl, rfl, hnone⟩ | ⟨hnull, hp, hfor, e, hheap, htrace, htally⟩ := hp
  · exact .absent hnone
  · have hself : s₁.heap p = e := by rw [hheap, Function.update_self]
    have hf := hf e
    dsimp only
    rw [hself]
    split
    next hguard =>
      rw [if_pos hguard.2, htally] at hf
      refine .present (e := { e with pinCount := pins e }) hp hfor ?_ htrace hf
      rw [TraceCache.setEntry, hheap, Function.update_idem]
    next hguard =>
      rw [if_neg fun hg => hguard ⟨hnull, hg⟩, htally] at hf
      exact .present hp hfor hheap htrace (htally.trans hf)

end

/-! ## The entries hold the tallies -/

/-- Each entry holds the tally of its key. -/
def Tallied (ops : List Op) (s : TraceCache) (chains : Bucket → List UInt64) : Prop :=
  ∀ rip context, ∀ a ∈ chains (traceCacheHash rip context), (s.heap a).isFor rip context = true →
    tally ops rip context = some (s.heap a).tally

/-- Each entry holds what `T` says of its key. -/
def Holds (T : UInt64 → UInt64 → Option Tally) (s : TraceCache) (chains : Bucket → List UInt64) :
    Prop :=
  ∀ rip context, ∀ a ∈ chains (traceCacheHash rip context), (s.heap a).isFor rip context = true →
    T rip context = some (s.heap a).tally

variable {base size : UInt64} {n : Nat} {T T' : UInt64 → UInt64 → Option Tally}

lemma Holds.touch (ht : Holds T s chains) (h : Represents base size ops n s chains)
    (touch : Touches chains s rip context f s')
    (hT : ∀ rip' context' t, T rip' context' = some t → T' rip' context' =
      if rip = rip' ∧ context = context' then some (f t) else some t) :
    Holds T' s' chains := by
  intro rip' context' a ha hfor'
  cases touch with
  | absent hnone =>
    rw [hT _ _ _ (ht rip' context' a ha hfor'), if_neg]
    rintro ⟨rfl, rfl⟩
    rw [hnone a ha] at hfor'
    cases hfor'
  | @present p e _ hp hfor hheap htrace htally =>
    obtain ⟨hrip, hcontext, -, hvalid⟩ := trace_eq_iff.mp htrace
    have hkey {r c : UInt64} : e.isFor r c = (s.heap p).isFor r c := by
      rw [TraceCacheEntry.isFor, TraceCacheEntry.isFor, hrip, hcontext, hvalid]
    rw [hheap] at hfor' ⊢
    by_cases hap : a = p
    · subst hap
      rw [Function.update_self] at hfor' ⊢
      rw [hkey] at hfor'
      obtain ⟨hrip, hcontext, -⟩ := isFor_iff.mp hfor
      obtain ⟨hrip', hcontext', -⟩ := isFor_iff.mp hfor'
      rw [hT _ _ _ (ht rip' context' a ha hfor'), if_pos ⟨hrip.symm.trans hrip',
        hcontext.symm.trans hcontext'⟩, htally]
    · rw [Function.update_of_ne hap] at hfor' ⊢
      rw [hT _ _ _ (ht rip' context' a ha hfor'), if_neg]
      rintro ⟨rfl, rfl⟩
      exact hap (h.unique rip context a ha p hp hfor' hfor)

lemma Holds.create (ht : Holds T s chains) (hnew : T rip context = none)
    (hnull : s.header.alloc ≠ 0) (hfresh : ∀ b, s.header.alloc ∉ chains b)
    (hnone : ∀ a ∈ chains (traceCacheHash rip context),
      (s.heap a).isFor rip context = false) :
    Holds (fun rip' context' => (Op.insert rip context).onTally rip' context' (T rip' context'))
      (s.create rip context) (createdChains s chains rip context) := by
  intro rip' context' a ha hfor
  dsimp only
  rw [Op.onTally]
  by_cases hself : a = s.header.alloc
  · subst hself
    rw [create_self] at hfor ⊢
    obtain ⟨rfl, rfl⟩ := (newEntry_isFor ..).mp hfor
    rw [if_pos ⟨rfl, rfl⟩, hnew]
    rfl
  · obtain ⟨rfl, -⟩ | ⟨hmem, hfor⟩ :=
      (createdChains_isFor rip context hnull hfresh a rip' context').mp ⟨ha, hfor⟩
    · exact absurd rfl hself
    · rw [create_of_ne s rip context hself, if_neg, ht rip' context' a hmem hfor]
      rintro ⟨rfl, rfl⟩
      rw [hnone a hmem] at hfor
      cases hfor

lemma tally_without (e : TraceCacheEntry) (rip : UInt64) : (e.without rip).tally = e.tally := by
  rw [TraceCacheEntry.without]
  split <;> rfl

lemma Holds.invalidate (ht : Holds T s chains) {heap : Heap}
    (hheap : ∀ a, heap a = if ∃ b, a ∈ chains b then (s.heap a).without rip else s.heap a) :
    Holds (fun rip' context' => (Op.invalidate rip).onTally rip' context' (T rip' context'))
      { s with heap := heap } chains := by
  intro rip' context' a ha hfor
  have hself : heap a = (s.heap a).without rip := by rw [hheap, if_pos ⟨_, ha⟩]
  obtain ⟨-, hrip, hcontext, hvalid⟩ := without_fields (s.heap a) rip
  dsimp only at hfor ⊢
  rw [hself, isFor_iff, hrip, hcontext, hvalid] at hfor
  obtain ⟨rfl, rfl, hold, hne⟩ := hfor
  rw [Op.onTally, if_neg (Ne.symm hne), hself, tally_without]
  exact ht _ _ a ha (isFor_iff.mpr ⟨rfl, rfl, hold⟩)

/-- The next entry goes where no chain comes by. -/
lemma Represents.alloc_fresh (h : Represents base size ops n s chains)
    (hregion : base.toNat + size.toNat < 2 ^ 64) (hbase : 0 < base.toNat)
    (hroom : 64 * (n + 1) ≤ size.toNat) :
    s.header.alloc ≠ 0 ∧ ∀ b, s.header.alloc ∉ chains b := by
  have halloc : s.header.alloc.toNat = base.toNat + 64 * n := by
    rw [h.alloc_eq hregion hroom]
    exact h.nextAlloc
  constructor
  · intro hnull
    rw [hnull] at halloc
    change 0 = _ at halloc
    omega
  · intro b ha
    obtain ⟨i, hi, hai⟩ := (h.arena _).mp ⟨b, ha⟩
    omega

/-- A call that creates no entry leaves the chains. -/
lemma linked_of_not_creates (h : Linked s chains) (hcreates : ¬ Creates s op)
    (st : Step s op answer s') : Linked s' chains := by
  cases h.outcome st with
  | refused => exact h
  | found _ _ _ hsame => exact hsame.linked h
  | created hready hnone => exact absurd (h.creates_iff.mpr ⟨hready, hnone⟩) hcreates
  | lookup hsame => exact hsame.linked h
  | pinEntry hsame => exact hsame.linked h
  | unpinEntry hsame => exact hsame.linked h
  | invalidate hframe => exact hframe.linked h

/-- One call keeps the tallies in the entries. -/
lemma Holds.step (ht : Holds T s chains) (h : Represents base size ops n s chains)
    (hT : ∀ rip context, (T rip context).isSome = true ↔ Present ops rip context)
    (hregion : base.toNat + size.toNat < 2 ^ 64) (hbase : 0 < base.toNat)
    (hroom : Creates s op → 64 * (n + 1) ≤ size.toNat ∧ n < 131072) (st : Step s op answer s')
    {chains' : Bucket → List UInt64} (h' : Linked s' chains') :
    Holds (fun rip context => op.onTally rip context (T rip context)) s' chains' := by
  by_cases hcreates : Creates s op
  · obtain ⟨hfits, hmax⟩ := hroom hcreates
    obtain ⟨hnull, hfresh⟩ := h.alloc_fresh hregion hbase hfits
    obtain ⟨rip, context, rfl, -⟩ := id hcreates
    cases h.linked.outcome st with
    | refused hready =>
      rw [h.ready] at hready
      cases hready
    | found _ hp hfor =>
      rw [(h.linked.creates_iff.mp hcreates).2 _ hp] at hfor
      cases hfor
    | created _ hnone _ heq =>
      obtain rfl := heq (by
        rw [UInt32.lt_iff_toNat_lt, h.entryCount]
        exact hmax)
      obtain rfl := h'.unique (h.linked.create hfresh)
      refine ht.create ?_ hnull hfresh hnone
      rw [← Option.not_isSome_iff_eq_none, hT, ← h.present]
      rintro ⟨a, ha, hfor⟩
      rw [hnone a ha] at hfor
      cases hfor
  · obtain rfl := h'.unique (linked_of_not_creates h.linked hcreates st)
    cases op with
    | insert rip context =>
      exact ht.touch h (insert_touches h.linked h.ready hcreates st) fun _ _ _ ht => congrArg (Op.onTally _ _ · _) ht
    | lookup rip context =>
      exact ht.touch h (lookup_touches h.linked h.ready st) fun _ _ _ ht => congrArg (Op.onTally _ _ · _) ht
    | pinEntry rip context =>
      obtain ⟨-, hpin⟩ := settles_none st
      refine ht.touch h (repin_touches h.linked h.ready (f := .pinned) (fun _ => True)
        (fun e => e.pinCount + 1) (fun _ => rfl) ?_) fun _ _ _ ht => congrArg (Op.onTally _ _ · _) ht
      simpa only [traceCachePinEntry, and_true] using hpin
    | unpinEntry rip context =>
      obtain ⟨-, hunpin⟩ := settles_none st
      refine ht.touch h (repin_touches h.linked h.ready (f := .unpinned) (fun e => e.pinCount > 0)
        (fun e => e.pinCount - 1) tally_unpinned hunpin) fun _ _ _ ht => congrArg (Op.onTally _ _ · _) ht
    | invalidate rip =>
      cases effect_invalidate h.linked h.ready st with
      | idle _ _ hne => exact absurd rfl (hne rip)
      | accessed hacc => exact hacc.2.elim
      | invalidated hheap => exact ht.invalidate hheap

lemma Tallied.step (ht : Tallied ops s chains) (h : Represents base size ops n s chains)
    (hregion : base.toNat + size.toNat < 2 ^ 64) (hbase : 0 < base.toNat)
    (hroom : Creates s op → 64 * (n + 1) ≤ size.toNat ∧ n < 131072) (st : Step s op answer s')
    {chains' : Bucket → List UInt64} (h' : Linked s' chains') :
    Tallied (ops ++ [op]) s' chains' := by
  have hstep := Holds.step ht h (tally_isSome ops) hregion hbase hroom st h'
  intro rip context a ha hfor
  rw [tally_concat]
  exact hstep rip context a ha hfor

/-- The cache represents the calls so far, with their tallies. -/
lemma tallied_of_run (heap : Heap) {baseAddress size : UInt64} (hbase : baseAddress ≠ 0)
    (hregion : baseAddress.toNat + (initSize baseAddress size).toNat < 2 ^ 64)
    {tr : List (Event TraceCache Op (Option UInt64))} {s : TraceCache}
    (run : Run Step (traceCacheInit heap baseAddress size).1 tr s)
    (hfit : created tr < fit baseAddress size)
    (hmax : created tr < traceCacheMaxEntries.toNat) :
    ∃ chains, Represents (baseAddress + headerSize) (initSize baseAddress size - headerSize)
      (tr.map Event.op) (created tr) s chains ∧ Tallied (tr.map Event.op) s chains := by
  obtain ⟨hbase', hsize', hlarge⟩ := arena_region hregion
  let I (tr : List (Event TraceCache Op (Option UInt64))) (s : TraceCache) : Prop :=
    created tr < fit baseAddress size → created tr < 131072 →
      ∃ chains, Represents (baseAddress + headerSize) (initSize baseAddress size - headerSize)
        (tr.map Event.op) (created tr) s chains ∧ Tallied (tr.map Event.op) s chains
  refine run.history (I := I)
    (fun _ _ => ⟨_, represents_init heap baseAddress size hbase, nofun⟩) ?_ hfit hmax
  intro tr s op answer s' ih st hfit hmax
  obtain ⟨hold, hnew⟩ := created_concat tr s op answer
  have hle : created tr ≤ created (tr ++ [⟨s, op, answer⟩]) := by
    by_cases hc : Creates s op
    · rw [hnew hc]
      exact Nat.le_succ _
    · rw [hold hc]
  obtain ⟨chains, h, ht⟩ := ih (Nat.lt_of_le_of_lt hle hfit) (Nat.lt_of_le_of_lt hle hmax)
  have hroom (hc : Creates s op) :
      64 * (created tr + 1) ≤ (initSize baseAddress size - headerSize).toNat ∧
        created tr < 131072 := by
    rw [hnew hc] at hfit hmax
    change _ < (_ - 56 - 524288) / 64 at hfit
    omega
  rw [List.map_append]
  obtain ⟨chains', ⟨hc, h'⟩ | ⟨hc, h'⟩⟩ := h.step (by omega) (by omega) hroom st
  · rw [hold hc]
    exact ⟨chains', h', ht.step h (by omega) (by omega) hroom st h'.linked⟩
  · rw [hnew hc]
    exact ⟨chains', h', ht.step h (by omega) (by omega) hroom st h'.linked⟩

/-- In every run on a region of memory that creates fewer entries than fit and fewer than make the
cache evict, a key has the tally `t` if and only if a valid entry of the key, on its chain, holds
`t`; and before the counts can wrap, the hint marks exactly the traces that were executed more than
100 times. -/
theorem traceCache_tallies (heap : Heap) {baseAddress size : UInt64} (hbase : baseAddress ≠ 0)
    (hregion : baseAddress.toNat + (initSize baseAddress size).toNat < 2 ^ 64)
    {tr : List (Event TraceCache Op (Option UInt64))} {s : TraceCache}
    (run : Run Step (traceCacheInit heap baseAddress size).1 tr s)
    (hfit : created tr < fit baseAddress size)
    (hmax : created tr < traceCacheMaxEntries.toNat) :
    (∀ rip context t, tally (tr.map Event.op) rip context = some t ↔
      ∃ a, OnChain s (traceCacheHash rip context) a ∧ (s.heap a).isFor rip context = true ∧
        (s.heap a).tally = t) ∧
      (tr.length < 2 ^ 32 → ∀ b a, OnChain s b a → (s.heap a).valid = true →
        (s.heap a).dboOptimizationHint = if (s.heap a).executionCount > 100 then 1 else 0) := by
  obtain ⟨chains, h, ht⟩ := tallied_of_run heap hbase hregion run hfit hmax
  refine ⟨fun rip context t => ⟨fun htally => ?_, ?_⟩, fun hlength b a ha hvalid => ?_⟩
  · have hpresent := (tally_isSome ..).mp (Option.isSome_of_eq_some htally)
    obtain ⟨a, ha, hfor⟩ := (h.present rip context).mpr hpresent
    exact ⟨a, h.linked.onChain_iff.mpr ha, hfor,
      Option.some.inj ((ht rip context a ha hfor).symm.trans htally)⟩
  · rintro ⟨a, ha, hfor, rfl⟩
    exact ht rip context a (h.linked.onChain_iff.mp ha) hfor
  · rw [h.linked.onChain_iff] at ha
    obtain rfl := h.linked.hash b a ha hvalid
    exact (tally_hint (by rwa [List.length_map])
      (ht _ _ a ha (isFor_iff.mpr ⟨rfl, rfl, hvalid⟩))).2

/-- A trace is inserted, looked up and pinned, and another one comes and goes. -/
theorem traceCache_tallies_pinned :
    ∃ tr s, Run Step (traceCacheInit (fun _ => default) 0x100000 0x400000).1 tr s ∧
      (∃ a, OnChain s (traceCacheHash 0x1000 0) a ∧ (s.heap a).isFor 0x1000 0 = true ∧
        (s.heap a).tally = ⟨3, 1, 0⟩) ∧
      ¬ ∃ a t, OnChain s (traceCacheHash 0x2000 0) a ∧ (s.heap a).isFor 0x2000 0 = true ∧
        (s.heap a).tally = t := by
  obtain ⟨tr, s, run, hops, -⟩ := run_exists (fun _ => default) 0x100000 0x400000
    (by decide) (by decide) [.insert 0x1000 0, .lookup 0x1000 0, .insert 0x2000 0,
      .pinEntry 0x1000 0, .invalidate 0x2000] (by decide) (by decide)
  have hlength : created tr ≤ 5 := by
    have := congrArg List.length hops
    rw [List.length_map] at this
    exact List.countP_le_length.trans (Nat.le_of_eq this)
  obtain ⟨htallies, -⟩ := traceCache_tallies _ (by decide) (by decide) run
    (Nat.lt_of_le_of_lt hlength (by decide)) (Nat.lt_of_le_of_lt hlength (by decide))
  rw [hops] at htallies
  refine ⟨tr, s, run, (htallies 0x1000 0 _).mp (by decide), ?_⟩
  rintro ⟨a, t, ha⟩
  have htally := (htallies 0x2000 0 t).mpr ⟨a, ha⟩
  rw [show tally _ 0x2000 0 = none by decide] at htally
  cases htally

end Bemi.TCache
