import Bemi.Efi
import Bemi.TCache.Tallies

/-!
# The trace cache prefilled and configured

The rest of `performance/tcache/tracecache.c`: `TraceCacheDboPrefill` inserts the blocks of a hot path
and marks their traces as hot, and the v7.1 and v7.2 configurations set how far an eviction scans.
`TraceMap` is the map behind the cache with all its calls; as long as no more entries are created than
fit, the entries of the cache are those of the map (`traceModule_refines`).
-/

namespace Bemi.TCache
open Chain Transition

/-! ## The functions -/

def traceCacheDboPrefillDepth : UInt32 := 64

section
variable (s : TraceCache)

def traceCacheV71Configure : TraceCache × EfiStatus :=
  if s.ready then
    ({ s with header := { s.header with lruScanDepth := 128, targetHitRate := 80 } }, .success)
  else (s, .notReady)

def traceCacheV72Init : TraceCache × EfiStatus :=
  if s.ready then
    ({ s with header := { s.header with lruScanDepth := 256, targetHitRate := 92 } }, .success)
  else (s, .notReady)

def traceCacheGetV71HitRate : UInt32 :=
  if s.ready then s.header.targetHitRate else 0

end

def TraceCacheEntry.prefilled (e : TraceCacheEntry) : TraceCacheEntry :=
  { e with executionCount := 200, dboOptimizationHint := traceCacheDboFusionEnable }

/-- The body of the loop of `TraceCacheDboPrefill`. -/
def prefillBlock (fuel : Nat) (s : TraceCache) (rip : UInt64) : Option TraceCache :=
  (traceCacheInsert fuel s rip 0).map fun (s, entry) =>
    if entry ≠ 0 then s.setEntry entry (s.heap entry).prefilled else s

/-- The blocks of the loop; `i * 64` is a product of 32 bits. -/
def prefillRips (hotPathBase : UInt64) (blockCount : UInt32) : List UInt64 :=
  let count := if blockCount > 0 then blockCount else traceCacheDboPrefillDepth
  (List.range count.toNat).map fun i => hotPathBase + (UInt32.ofNat i * 64).toUInt64

def traceCacheDboPrefill (fuel : Nat) (s : TraceCache) (hotPathBase : UInt64)
    (blockCount : UInt32) : Option TraceCache :=
  if s.ready then (prefillRips hotPathBase blockCount).foldlM (prefillBlock fuel) s else some s

inductive ModuleCall where
  | op (op : Op)
  | v71Configure
  | v72Init
  | dboPrefill (hotPathBase : UInt64) (blockCount : UInt32)
  | getV71HitRate
  deriving DecidableEq

inductive ModuleAnswer where
  | op (answer : Option UInt64)
  | status (status : EfiStatus)
  | done
  | hitRate (rate : UInt32)

def performModule (fuel : Nat) (s : TraceCache) : ModuleCall → Option (TraceCache × ModuleAnswer)
  | .op op => (perform fuel s op).map fun (s, answer) => (s, .op answer)
  | .v71Configure => some ((traceCacheV71Configure s).1, .status (traceCacheV71Configure s).2)
  | .v72Init => some ((traceCacheV72Init s).1, .status (traceCacheV72Init s).2)
  | .dboPrefill hotPathBase blockCount =>
    (traceCacheDboPrefill fuel s hotPathBase blockCount).map fun s => (s, .done)
  | .getV71HitRate => some (s, .hitRate (traceCacheGetV71HitRate s))

/-- A call that returns. -/
def ModuleStep (s : TraceCache) (call : ModuleCall) (answer : ModuleAnswer) (s' : TraceCache) :
    Prop :=
  Settles (fun n => performModule n s call) (s', answer)

abbrev ModuleEvent := Event TraceCache ModuleCall ModuleAnswer

/-! ## The map -/

/-- A hot trace. -/
def Tally.prefilled (t : Tally) : Tally :=
  { t with executionCount := 200, dboOptimizationHint := traceCacheDboFusionEnable }

/-- The tally of each key, how many entries have been created, and the configuration. -/
structure TraceMap where
  tallies : UInt64 → UInt64 → Option Tally
  created : Nat
  lruScanDepth : UInt32
  targetHitRate : UInt32

namespace TraceMap

def empty : TraceMap := ⟨fun _ _ => none, 0, traceCacheLruScan, 75⟩

variable (t : TraceMap)

/-- An insertion creates an entry for a key that has none. -/
def creates : Op → Nat
  | .insert rip context => if (t.tallies rip context).isNone then 1 else 0
  | _ => 0

def op (op : Op) : TraceMap :=
  { t with
    tallies := fun rip context => op.onTally rip context (t.tallies rip context)
    created := t.created + t.creates op }

def markHot (rip context : UInt64) : TraceMap :=
  { t with
    tallies := fun rip' context' =>
      if rip = rip' ∧ context = context' then (t.tallies rip' context').map .prefilled
      else t.tallies rip' context' }

def prefillBlock (rip : UInt64) : TraceMap := (t.op (.insert rip 0)).markHot rip 0

def perform : ModuleCall → TraceMap
  | .op op => t.op op
  | .v71Configure => { t with lruScanDepth := 128, targetHitRate := 80 }
  | .v72Init => { t with lruScanDepth := 256, targetHitRate := 92 }
  | .dboPrefill hotPathBase blockCount => (prefillRips hotPathBase blockCount).foldl prefillBlock t
  | .getV71HitRate => t

end TraceMap

/-- The map after the calls. -/
def traceMap (calls : List ModuleCall) : TraceMap := calls.foldl .perform .empty

variable {t : TraceMap}

lemma traceMap_concat (calls : List ModuleCall) (call : ModuleCall) :
    traceMap (calls ++ [call]) = (traceMap calls).perform call := List.foldl_concat ..

lemma created_le_foldl (rips : List UInt64) (t : TraceMap) :
    t.created ≤ (rips.foldl .prefillBlock t).created := by
  induction rips generalizing t with
  | nil => exact Nat.le_refl _
  | cons rip rips ih => exact Nat.le_trans (Nat.le_add_right _ _) (ih (t.prefillBlock rip))

lemma created_le_perform (t : TraceMap) (call : ModuleCall) :
    t.created ≤ (t.perform call).created := by
  cases call with
  | op op => exact Nat.le_add_right _ _
  | dboPrefill hotPathBase blockCount => exact created_le_foldl _ t
  | v71Configure | v72Init | getV71HitRate => exact Nat.le_refl _

/-! ## The cache holds the map -/

structure Mirrors (base size : UInt64) (ops : List Op) (t : TraceMap) (s : TraceCache)
    (chains : Bucket → List UInt64) : Prop where
  represents : Represents base size ops t.created s chains
  keys : ∀ rip context, (t.tallies rip context).isSome = true ↔ Present ops rip context
  holds : Holds t.tallies s chains
  lruScanDepth : s.header.lruScanDepth = t.lruScanDepth
  targetHitRate : s.header.targetHitRate = t.targetHitRate

variable {base size : UInt64} {ops : List Op} {s s' : TraceCache}
  {chains chains' : Bucket → List UInt64} {op : Op} {answer : Option UInt64} {rip context : UInt64}

lemma Mirrors.creates_iff (h : Mirrors base size ops t s chains) :
    Creates s (.insert rip context) ↔ t.tallies rip context = none := by
  rw [h.represents.linked.creates_iff, ← Option.not_isSome_iff_eq_none, h.keys,
    ← h.represents.present]
  simp [h.represents.ready]

/-- The map counts the entries that are created. -/
lemma Mirrors.created_eq (h : Mirrors base size ops t s chains) (op : Op) :
    (¬ Creates s op → (t.op op).created = t.created) ∧
      (Creates s op → (t.op op).created = t.created + 1) := by
  cases op with
  | insert rip context =>
    rw [h.creates_iff, TraceMap.op, TraceMap.creates, ← Option.isNone_iff_eq_none]
    exact ⟨fun hsome => congrArg (t.created + ·) (if_neg hsome),
      fun hnone => congrArg (t.created + ·) (if_pos hnone)⟩
  | lookup | pinEntry | unpinEntry | invalidate =>
    refine ⟨fun _ => rfl, ?_⟩
    rintro ⟨_, _, hop, -⟩
    cases hop

/-- No operation changes the configuration. -/
lemma Effect.settings (he : Effect chains s op answer s') :
    s'.header.lruScanDepth = s.header.lruScanDepth ∧
      s'.header.targetHitRate = s.header.targetHitRate := by
  cases he with
  | idle | accessed | invalidated => exact ⟨rfl, rfl⟩
  | created =>
    rw [create_header]
    change (s.withSpace chains).header.lruScanDepth = _ ∧
      (s.withSpace chains).header.targetHitRate = _
    rw [TraceCache.withSpace, TraceCache.evict]
    split
    · split <;> exact ⟨rfl, rfl⟩
    · exact ⟨rfl, rfl⟩

section
variable (h : Mirrors base size ops t s chains) (hregion : base.toNat + size.toNat < 2 ^ 64)
  (hbase : 0 < base.toNat)
include h hregion hbase

lemma Mirrors.operate (hroom : 64 * (t.op op).created ≤ size.toNat ∧ (t.op op).created ≤ 131072)
    (st : Step s op answer s') :
    ∃ chains', Mirrors base size (ops ++ [op]) (t.op op) s' chains' := by
  obtain ⟨hold, hnew⟩ := h.created_eq op
  obtain ⟨hdepth, hrate⟩ := (h.represents.linked.effect h.represents.ready st).settings
  have hfits (hc : Creates s op) : 64 * (t.created + 1) ≤ size.toNat ∧ t.created < 131072 := by
    rwa [hnew hc] at hroom
  have hkeys (rip context : UInt64) : ((t.op op).tallies rip context).isSome = true ↔
      Present (ops ++ [op]) rip context := by
    rw [present_concat, ← h.keys]
    exact onTally_isSome op rip context _
  obtain ⟨chains', ⟨hc, h'⟩ | ⟨hc, h'⟩⟩ := h.represents.step hregion hbase hfits st
  · exact ⟨chains', hold hc ▸ h', hkeys,
      h.holds.step h.represents h.keys hregion hbase hfits st h'.linked,
      hdepth.trans h.lruScanDepth, hrate.trans h.targetHitRate⟩
  · exact ⟨chains', hnew hc ▸ h', hkeys,
      h.holds.step h.represents h.keys hregion hbase hfits st h'.linked,
      hdepth.trans h.lruScanDepth, hrate.trans h.targetHitRate⟩

end

/-- What an insertion answers is the entry of its key. -/
lemma insert_answers {n : Nat} {p : UInt64} (h : Represents base size ops n s chains)
    (hregion : base.toNat + size.toNat < 2 ^ 64) (hbase : 0 < base.toNat)
    (hroom : Creates s (.insert rip context) → 64 * (n + 1) ≤ size.toNat ∧ n < 131072)
    (st : Step s (.insert rip context) (some p) s') (h' : Linked s' chains') :
    p ∈ chains' (traceCacheHash rip context) ∧ (s'.heap p).isFor rip context = true := by
  cases h.linked.outcome st with
  | refused hready =>
    rw [h.ready] at hready
    cases hready
  | found _ hp hfor hsame =>
    obtain rfl := h'.unique (hsame.linked h.linked)
    exact ⟨hp, (hsame.isFor_iff ..).mpr ⟨hfor, not_false⟩⟩
  | created hready hnone _ heq =>
    obtain ⟨hfits, hmax⟩ := hroom (h.linked.creates_iff.mpr ⟨hready, hnone⟩)
    obtain ⟨hnull, hfresh⟩ := h.alloc_fresh hregion hbase hfits
    obtain rfl := heq (by
      rw [UInt32.lt_iff_toNat_lt, h.entryCount]
      exact hmax)
    obtain rfl := h'.unique (h.linked.create hfresh)
    refine ⟨(mem_createdChains hnull).mpr (.inl ⟨rfl, rfl⟩), ?_⟩
    rw [create_self]
    exact (newEntry_isFor ..).mpr ⟨rfl, rfl⟩

lemma Mirrors.configure (h : Mirrors base size ops t s chains) (lruScanDepth targetHitRate : UInt32) :
    Mirrors base size ops { t with lruScanDepth, targetHitRate }
      { s with header := { s.header with lruScanDepth, targetHitRate } } chains where
  represents := h.represents.same ⟨rfl, rfl, rfl, rfl, rfl, rfl, fun _ => rfl, fun _ => rfl,
    fun _ => rfl, fun _ => by rw [not_false_eq_true, and_true]⟩ rfl fun _ _ => Iff.rfl
  keys := h.keys
  holds := h.holds
  lruScanDepth := rfl
  targetHitRate := rfl

lemma Mirrors.markHot (h : Mirrors base size ops t s chains) {p : UInt64}
    (hp : p ∈ chains (traceCacheHash rip context)) (hfor : (s.heap p).isFor rip context = true) :
    Mirrors base size ops (t.markHot rip context) (s.setEntry p (s.heap p).prefilled) chains where
  represents := h.represents.same (same_setEntry rfl rfl rfl rfl) rfl fun _ _ => Iff.rfl
  keys rip' context' := by
    rw [← h.keys, TraceMap.markHot]
    dsimp only
    split
    · rw [Option.isSome_map]
    · rfl
  holds := by
    refine h.holds.touch h.represents (f := .prefilled) (.present hp hfor rfl rfl rfl) ?_
    intro rip' context' u hu
    rw [TraceMap.markHot]
    dsimp only
    rw [hu]
    rfl
  lruScanDepth := h.lruScanDepth
  targetHitRate := h.targetHitRate

section
variable (h : Mirrors base size ops t s chains) (hregion : base.toNat + size.toNat < 2 ^ 64)
  (hbase : 0 < base.toNat)
include h hregion hbase

lemma Mirrors.prefillBlock (hroom : 64 * (t.prefillBlock rip).created ≤ size.toNat ∧
      (t.prefillBlock rip).created ≤ 131072) :
    ∃ s' ops' chains', Settles (fun n => prefillBlock n s rip) s' ∧
      Mirrors base size ops' (t.prefillBlock rip) s' chains' := by
  obtain ⟨s', p, hinsert, -⟩ := insert_settles h.represents.linked rip 0
  have st : Step s (.insert rip 0) (some p) s' := hinsert.map fun r => (r.1, some r.2)
  obtain ⟨chains', h'⟩ := h.operate hregion hbase hroom st
  have hfits (hc : Creates s (.insert rip 0)) :
      64 * (t.created + 1) ≤ size.toNat ∧ t.created < 131072 := by
    have hcreated : (t.prefillBlock rip).created = t.created + 1 := (h.created_eq _).2 hc
    rwa [hcreated] at hroom
  obtain ⟨hp, hfor⟩ := insert_answers h.represents hregion hbase hfits st h'.represents.linked
  have hnull : p ≠ 0 := h'.represents.linked.ne_null hp
  refine ⟨s'.setEntry p (s'.heap p).prefilled, _, chains', ?_, h'.markHot hp hfor⟩
  have hmark := hinsert.map fun r =>
    if r.2 ≠ 0 then r.1.setEntry r.2 (r.1.heap r.2).prefilled else r.1
  dsimp only at hmark
  rw [if_pos hnull] at hmark
  exact hmark

lemma Mirrors.prefill (rips : List UInt64)
    (hroom : 64 * (rips.foldl .prefillBlock t).created ≤ size.toNat ∧
      (rips.foldl .prefillBlock t).created ≤ 131072) :
    ∃ s' ops' chains', Settles (fun n => rips.foldlM (TCache.prefillBlock n) s) s' ∧
      Mirrors base size ops' (rips.foldl .prefillBlock t) s' chains' := by
  induction rips generalizing t s ops chains with
  | nil => exact ⟨s, ops, chains, .const s, h⟩
  | cons rip rips ih =>
    have hle := created_le_foldl rips (t.prefillBlock rip)
    rw [List.foldl_cons] at hroom
    have hfirst : 64 * (t.prefillBlock rip).created ≤ size.toNat ∧
        (t.prefillBlock rip).created ≤ 131072 :=
      ⟨Nat.le_trans (Nat.mul_le_mul_left 64 hle) hroom.1, Nat.le_trans hle hroom.2⟩
    obtain ⟨s₁, ops₁, chains₁, hblock, h₁⟩ := h.prefillBlock hregion hbase hfirst
    obtain ⟨s', ops', chains', hrest, h'⟩ := ih h₁ hroom
    exact ⟨s', ops', chains', hblock.bind hrest, h'⟩

/-- A call leaves the cache that the map describes. -/
lemma Mirrors.step {call : ModuleCall} {answer : ModuleAnswer}
    (hroom : 64 * (t.perform call).created ≤ size.toNat ∧ (t.perform call).created ≤ 131072)
    (st : ModuleStep s call answer s') :
    ∃ ops' chains', Mirrors base size ops' (t.perform call) s' chains' := by
  cases call with
  | op op =>
    obtain ⟨answer', s₁, st₁, -⟩ := h.represents.linked.step_exists op
    obtain ⟨rfl, -⟩ := Prod.mk.inj (st.unique (st₁.map fun r => (r.1, ModuleAnswer.op r.2)))
    obtain ⟨chains', h'⟩ := h.operate hregion hbase hroom st₁
    exact ⟨_, chains', h'⟩
  | dboPrefill hotPathBase blockCount =>
    obtain ⟨s₁, ops₁, chains₁, hprefill, h₁⟩ :=
      h.prefill hregion hbase (prefillRips hotPathBase blockCount) hroom
    simp only [ModuleStep, performModule, traceCacheDboPrefill, h.represents.ready, if_true] at st
    obtain ⟨rfl, -⟩ := Prod.mk.inj (st.unique (hprefill.map fun s => (s, ModuleAnswer.done)))
    exact ⟨ops₁, chains₁, h₁⟩
  | v71Configure =>
    simp only [ModuleStep, performModule, traceCacheV71Configure, h.represents.ready, if_true] at st
    obtain ⟨rfl, -⟩ := Prod.mk.inj (st.unique (.const _))
    exact ⟨ops, chains, h.configure _ _⟩
  | v72Init =>
    simp only [ModuleStep, performModule, traceCacheV72Init, h.represents.ready, if_true] at st
    obtain ⟨rfl, -⟩ := Prod.mk.inj (st.unique (.const _))
    exact ⟨ops, chains, h.configure _ _⟩
  | getV71HitRate =>
    obtain ⟨rfl, -⟩ := Prod.mk.inj (st.unique (.const _))
    exact ⟨ops, chains, h⟩

/-- A call returns, however long the chains are. -/
lemma Mirrors.step_exists (call : ModuleCall)
    (hroom : 64 * (t.perform call).created ≤ size.toNat ∧ (t.perform call).created ≤ 131072) :
    ∃ answer s', ModuleStep s call answer s' := by
  cases call with
  | op op =>
    obtain ⟨answer, s', st, -⟩ := h.represents.linked.step_exists op
    exact ⟨_, _, st.map fun r => (r.1, ModuleAnswer.op r.2)⟩
  | dboPrefill hotPathBase blockCount =>
    obtain ⟨s', -, -, hprefill, -⟩ :=
      h.prefill hregion hbase (prefillRips hotPathBase blockCount) hroom
    refine ⟨.done, s', ?_⟩
    simp only [ModuleStep, performModule, traceCacheDboPrefill, h.represents.ready, if_true]
    exact hprefill.map fun s => (s, ModuleAnswer.done)
  | v71Configure | v72Init | getV71HitRate => exact ⟨_, _, .const _⟩

end

/-! ## Runs -/

lemma mirrors_init (heap : Heap) (baseAddress size : UInt64) (hbase : baseAddress ≠ 0) :
    Mirrors (baseAddress + headerSize) (initSize baseAddress size - headerSize) [] .empty
      (traceCacheInit heap baseAddress size).1 fun _ => [] :=
  ⟨represents_init heap baseAddress size hbase,
    fun rip context => iff_of_false nofun (not_present_nil rip context), nofun, rfl, rfl⟩

/-- As many entries as fit end in the arena. -/
lemma le_arena {baseAddress size : UInt64} {n : Nat}
    (hregion : baseAddress.toNat + (initSize baseAddress size).toNat < 2 ^ 64)
    (hfit : n ≤ fit baseAddress size) : 64 * n ≤ (initSize baseAddress size - headerSize).toNat := by
  obtain ⟨-, hsize, -⟩ := arena_region hregion
  rw [hsize]
  change n ≤ (_ - 56 - 524288) / 64 at hfit
  omega

lemma mirrors_of_run (heap : Heap) {baseAddress size : UInt64} (hbase : baseAddress ≠ 0)
    (hregion : baseAddress.toNat + (initSize baseAddress size).toNat < 2 ^ 64)
    {tr : List ModuleEvent} (run : Run ModuleStep (traceCacheInit heap baseAddress size).1 tr s)
    (hfit : (traceMap (tr.map Event.op)).created ≤ fit baseAddress size)
    (hmax : (traceMap (tr.map Event.op)).created ≤ traceCacheMaxEntries.toNat) :
    ∃ ops chains, Mirrors (baseAddress + headerSize) (initSize baseAddress size - headerSize) ops
      (traceMap (tr.map Event.op)) s chains := by
  obtain ⟨hbase', hsize', hlarge⟩ := arena_region hregion
  let I (tr : List ModuleEvent) (s : TraceCache) : Prop :=
    (traceMap (tr.map Event.op)).created ≤ fit baseAddress size →
      (traceMap (tr.map Event.op)).created ≤ 131072 →
        ∃ ops chains, Mirrors (baseAddress + headerSize) (initSize baseAddress size - headerSize) ops
          (traceMap (tr.map Event.op)) s chains
  refine run.history (I := I)
    (fun _ _ => ⟨_, _, mirrors_init heap baseAddress size hbase⟩) ?_ hfit hmax
  intro tr s call answer s' ih st hfit hmax
  rw [List.map_append, List.map_singleton, traceMap_concat] at hfit hmax ⊢
  have hle := created_le_perform (traceMap (tr.map Event.op)) call
  obtain ⟨ops, chains, h⟩ := ih (Nat.le_trans hle hfit) (Nat.le_trans hle hmax)
  exact h.step (by omega) (by omega) ⟨le_arena hregion hfit, hmax⟩ st

/-- In every run of the module on a region of memory with room for its table that creates no more
entries than fit and no more than the cache holds before it evicts, the valid entries are those of the
map: a key has the tally `t` if and only if an entry of the key, on its chain, holds `t`. The
configuration is the last one, and every call for which there is room returns. -/
theorem traceModule_refines (heap : Heap) {baseAddress size : UInt64} (hbase : baseAddress ≠ 0)
    (hregion : baseAddress.toNat + (initSize baseAddress size).toNat < 2 ^ 64)
    (_htable : TableBehindHeader baseAddress size)
    {tr : List ModuleEvent} (run : Run ModuleStep (traceCacheInit heap baseAddress size).1 tr s)
    (hfit : (traceMap (tr.map Event.op)).created ≤ fit baseAddress size)
    (hmax : (traceMap (tr.map Event.op)).created ≤ traceCacheMaxEntries.toNat) :
    (∀ rip context t, (traceMap (tr.map Event.op)).tallies rip context = some t ↔
      ∃ a, OnChain s (traceCacheHash rip context) a ∧ (s.heap a).isFor rip context = true ∧
        (s.heap a).tally = t) ∧
      s.header.entryCount.toNat = (traceMap (tr.map Event.op)).created ∧
        s.header.lruScanDepth = (traceMap (tr.map Event.op)).lruScanDepth ∧
          traceCacheGetV71HitRate s = (traceMap (tr.map Event.op)).targetHitRate ∧
            ∀ call, (traceMap (tr.map Event.op ++ [call])).created ≤ fit baseAddress size →
              (traceMap (tr.map Event.op ++ [call])).created ≤ traceCacheMaxEntries.toNat →
                ∃ answer s', ModuleStep s call answer s' := by
  obtain ⟨ops, chains, h⟩ := mirrors_of_run heap hbase hregion run hfit hmax
  refine ⟨fun rip context t => ⟨fun htally => ?_, ?_⟩, h.represents.entryCount, h.lruScanDepth, ?_,
    fun call hfit' hmax' => ?_⟩
  · have hpresent := (h.keys rip context).mp (Option.isSome_of_eq_some htally)
    obtain ⟨a, ha, hfor⟩ := (h.represents.present rip context).mpr hpresent
    exact ⟨a, h.represents.linked.onChain_iff.mpr ha, hfor,
      Option.some.inj ((h.holds rip context a ha hfor).symm.trans htally)⟩
  · rintro ⟨a, ha, hfor, rfl⟩
    exact h.holds rip context a (h.represents.linked.onChain_iff.mp ha) hfor
  · rw [traceCacheGetV71HitRate, if_pos h.represents.ready]
    exact h.targetHitRate
  · obtain ⟨hbase', hsize', hlarge⟩ := arena_region hregion
    rw [traceMap_concat] at hfit' hmax'
    exact h.step_exists (by omega) (by omega) call ⟨le_arena hregion hfit', hmax'⟩

/-- Every list of calls that fits has a run. -/
lemma moduleRun_exists (heap : Heap) {baseAddress size : UInt64} (hbase : baseAddress ≠ 0)
    (hregion : baseAddress.toNat + (initSize baseAddress size).toNat < 2 ^ 64)
    (calls : List ModuleCall) (hfit : (traceMap calls).created ≤ fit baseAddress size)
    (hmax : (traceMap calls).created ≤ traceCacheMaxEntries.toNat) :
    ∃ tr s, Run ModuleStep (traceCacheInit heap baseAddress size).1 tr s ∧
      tr.map Event.op = calls := by
  induction calls using List.reverseRecOn with
  | nil => exact ⟨[], _, .nil, rfl⟩
  | append_singleton calls call ih =>
    rw [traceMap_concat] at hfit hmax
    have hle := created_le_perform (traceMap calls) call
    obtain ⟨tr, s, run, rfl⟩ := ih (Nat.le_trans hle hfit) (Nat.le_trans hle hmax)
    obtain ⟨ops, chains, h⟩ := mirrors_of_run heap hbase hregion run (Nat.le_trans hle hfit)
      (Nat.le_trans hle hmax)
    obtain ⟨hbase', hsize', hlarge⟩ := arena_region hregion
    obtain ⟨answer, s', st⟩ :=
      h.step_exists (by omega) (by omega) call ⟨le_arena hregion hfit, hmax⟩
    exact ⟨_, s', run.snoc st, by rw [List.map_append]; rfl⟩

/-- Two blocks are prefilled, and one of them is looked up. -/
theorem traceModule_refines_hot :
    ∃ tr s, Run ModuleStep (traceCacheInit (fun _ => default) 0x100000 0x400000).1 tr s ∧
      tr.map Event.op = [.v72Init, .dboPrefill 0x1000 2, .op (.lookup 0x1040 0)] ∧
      (∃ a, OnChain s (traceCacheHash 0x1040 0) a ∧ (s.heap a).isFor 0x1040 0 = true ∧
        (s.heap a).tally = ⟨201, 0, 1⟩) ∧ s.header.lruScanDepth = 256 := by
  obtain ⟨tr, s, run, hcalls⟩ := @moduleRun_exists (fun _ => default) 0x100000 0x400000
    (by decide) (by decide)
    [.v72Init, .dboPrefill 0x1000 2, .op (.lookup 0x1040 0)] (by decide) (by decide)
  have hrefines := traceModule_refines (fun _ => default) (by decide) (by decide) (by decide) run
    (by rw [hcalls]; decide) (by rw [hcalls]; decide)
  rw [hcalls] at hrefines
  obtain ⟨htallies, -, hdepth, -⟩ := hrefines
  exact ⟨tr, s, run, hcalls, (htallies 0x1040 0 _).mp (by decide), hdepth⟩

end Bemi.TCache
