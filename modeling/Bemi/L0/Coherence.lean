import Bemi.L0.Cache
import Bemi.Lib.Bits
import Bemi.Lib.Ram
import Bemi.Lib.Run

/-!
# Coherence of an L0 cache

One unit's cache against the write-through memory behind it. The memory is a ghost: it starts
arbitrary and takes every write of the unit. The cache is coherent when each valid line holds
memory; reads that hit are then right, but for those that do not fit their line and copy nothing.

A miss fills the line with zeroes, and a write that does not fit its line leaves the cache alone.
`readsRight_iff` says which calls keep the cache coherent.
-/

namespace Bemi.L0
open Transition

/-! ## Addresses -/

/-- The number of the 64-byte block of an address. -/
def block (a : UInt64) : Nat :=
  a.toNat / 64

lemma l0CacheIndex_val (a : UInt64) : (l0CacheIndex a).val = a.toNat / 64 % 16 := by
  change ((a >>> 6) &&& 15).toNat = _
  rw [Bits.toNat_and_mask (k := 4) _ rfl, UInt64.toNat_shiftRight, Nat.shiftRight_eq_div_pow]
  rfl

lemma l0CacheTag_toNat (a : UInt64) : (l0CacheTag a).toNat = a.toNat / 1024 := by
  rw [l0CacheTag, UInt64.toNat_shiftRight, Nat.shiftRight_eq_div_pow]
  rfl

lemma lineOffset_eq (a : UInt64) : lineOffset a = a.toNat % 64 :=
  Bits.toNat_and_mask (k := 6) a rfl

/-- Index and tag determine the block. -/
lemma block_eq_iff {a b : UInt64} :
    block a = block b ↔ l0CacheIndex a = l0CacheIndex b ∧ l0CacheTag a = l0CacheTag b := by
  rw [Fin.ext_iff, ← UInt64.toNat_inj, l0CacheIndex_val, l0CacheIndex_val, l0CacheTag_toNat,
    l0CacheTag_toNat, block, block]
  omega

/-- The bytes of an access that fits its line, from their distance to its start. -/
lemma fitsLine_byte {a size : UInt64} (h : fitsLine a size = true) {i : Nat}
    (hi : i < size.toNat) : block (a + UInt64.ofNat i) = block a ∧
      lineOffset (a + UInt64.ofNat i) = lineOffset a + i := by
  have hfit : size.toNat ≤ 64 - lineOffset a := of_decide_eq_true h
  rw [lineOffset_eq] at hfit
  rw [lineOffset_eq, lineOffset_eq, block, block, UInt64.toNat_add, UInt64.toNat_ofNat']
  have := a.toNat_lt
  omega

/-- The same bytes, from their place in the line. -/
lemma fitsLine_range {a size : UInt64} (h : fitsLine a size = true) (b : UInt64) :
    (b - a).toNat < size.toNat ↔
      block b = block a ∧ lineOffset a ≤ lineOffset b ∧ lineOffset b < lineOffset a + size.toNat := by
  have hfit : size.toNat ≤ 64 - lineOffset a := of_decide_eq_true h
  rw [lineOffset_eq] at hfit
  rw [lineOffset_eq, lineOffset_eq, block, block, UInt64.toNat_sub]
  have := a.toNat_lt
  have := b.toNat_lt
  omega

lemma fitsLine_sub {a size b : UInt64} (h : fitsLine a size = true)
    (hb : (b - a).toNat < size.toNat) : (b - a).toNat = lineOffset b - lineOffset a := by
  have hfit : size.toNat ≤ 64 - lineOffset a := of_decide_eq_true h
  rw [lineOffset_eq] at hfit
  rw [UInt64.toNat_sub] at hb
  rw [lineOffset_eq, lineOffset_eq, UInt64.toNat_sub]
  have := a.toNat_lt
  have := b.toNat_lt
  omega

/-! ## Lines -/

/-- The byte a cache holds for an address. -/
def L0MicroCache.byteAt (c : L0MicroCache) (a : UInt64) : UInt8 :=
  (c.lines (l0CacheIndex a)).data (lineOffset a)

/-- Every valid line holds memory. -/
def Coherent (c : L0MicroCache) (m : Ram.Bytes) : Prop :=
  ∀ a, c.hit a = true → c.byteAt a = m a

lemma hit_iff {c : L0MicroCache} {a : UInt64} : c.hit a = true ↔
    (c.lines (l0CacheIndex a)).valid = true ∧
      (c.lines (l0CacheIndex a)).tag = l0CacheTag a := by
  simp [L0MicroCache.hit]

/-- A hit depends on the block only. -/
lemma hit_of_block {c : L0MicroCache} {a b : UInt64} (h : block a = block b) :
    c.hit a = c.hit b := by
  obtain ⟨hindex, htag⟩ := block_eq_iff.mp h
  rw [L0MicroCache.hit, L0MicroCache.hit, hindex, htag]

/-- After the line of an address has been replaced, the cache is coherent when the new line holds
memory and the other lines do. -/
lemma coherent_update_iff {c c' : L0MicroCache} {addr : UInt64} {line : L0CacheLine}
    (hlines : c'.lines = Function.update c.lines (l0CacheIndex addr) line)
    (hvalid : line.valid = true) (htag : line.tag = l0CacheTag addr) (m : Ram.Bytes) :
    Coherent c' m ↔
      (∀ a, l0CacheIndex a ≠ l0CacheIndex addr → c.hit a = true → c.byteAt a = m a) ∧
        ∀ a, block a = block addr → line.data (lineOffset a) = m a := by
  have hne {a : UInt64} (h : l0CacheIndex a ≠ l0CacheIndex addr) :
      c'.hit a = c.hit a ∧ c'.byteAt a = c.byteAt a := by
    simp [L0MicroCache.hit, L0MicroCache.byteAt, hlines, h]
  have hsame {a : UInt64} (h : l0CacheIndex a = l0CacheIndex addr) :
      (c'.hit a = true ↔ block a = block addr) ∧
        c'.byteAt a = line.data (lineOffset a) := by
    rw [hit_iff, block_eq_iff, L0MicroCache.byteAt, hlines, h, Function.update_self, hvalid, htag]
    simp [eq_comm]
  constructor
  · intro hc
    refine ⟨fun a hindex hhit => ?_, fun a hblock => ?_⟩
    · obtain ⟨hhit', hbyte⟩ := hne hindex
      rw [← hbyte]
      exact hc a (hhit'.trans hhit)
    · obtain ⟨hhit', hbyte⟩ := hsame (block_eq_iff.mp hblock).1
      rw [← hbyte]
      exact hc a (hhit'.mpr hblock)
  · rintro ⟨hothers, hline⟩ a hhit
    by_cases h : l0CacheIndex a = l0CacheIndex addr
    · obtain ⟨hhit', hbyte⟩ := hsame h
      rw [hbyte]
      exact hline a (hhit'.mp hhit)
    · obtain ⟨hhit', hbyte⟩ := hne h
      rw [hbyte]
      exact hothers a h (hhit'.symm.trans hhit)

/-! ## One access -/

/-- The memory after a write of the unit. -/
def memAfter (m : Ram.Bytes) (physAddr : UInt64) (data : Option Buffer) (size : UInt64) :
    Ram.Bytes :=
  match data with
  | some buf => Ram.storeBytes m physAddr buf size.toNat
  | none => m

/-- A write copies the byte at `a` into the line. -/
def Copied (physAddr : UInt64) (data : Option Buffer) (size a : UInt64) : Prop :=
  data ≠ none ∧ fitsLine physAddr size = true ∧ (a - physAddr).toNat < size.toNat

/-- The bytes a buffer holds are those of memory from `physAddr` on. -/
def Holds (buf : Buffer) (m : Ram.Bytes) (physAddr size : UInt64) : Prop :=
  ∀ i < size.toNat, buf i = m (physAddr + UInt64.ofNat i)

/-- A read that leaves the cache coherent and its buffer right: a miss fills its line with zeroes
only where memory is zero, and a hit that does not fit its line finds the buffer right already. -/
def ReadSafe (c : L0MicroCache) (m : Ram.Bytes) (physAddr : UInt64) (data : Option Buffer)
    (size : UInt64) : Prop :=
  (c.hit physAddr = false → ∀ a, block a = block physAddr → m a = 0) ∧
    ∀ buf, data = some buf → c.hit physAddr = true → fitsLine physAddr size = false →
      Holds buf m physAddr size

/-- A write that leaves the cache coherent: a miss leaves zeroes in its line only where memory is
zero afterwards, and a write that does not fit its line changes no byte of a line that stays. -/
def WriteSafe (c : L0MicroCache) (m : Ram.Bytes) (physAddr : UInt64) (data : Option Buffer)
    (size : UInt64) : Prop :=
  (c.hit physAddr = false → ∀ a, block a = block physAddr → ¬ Copied physAddr data size a →
      memAfter m physAddr data size a = 0) ∧
    (fitsLine physAddr size = false → ∀ a, c.hit a = true →
      c.hit physAddr = true ∨ l0CacheIndex a ≠ l0CacheIndex physAddr →
      memAfter m physAddr data size a = m a)

/-- A read that hits leaves the lines alone and copies from the line. -/
lemma read_hit {c : L0MicroCache} {physAddr : UInt64} (h : c.hit physAddr = true)
    (data : Option Buffer) (size : UInt64) :
    (c.read physAddr data size).1.lines = c.lines ∧
      (c.read physAddr data size).2 =
        (.success, copyOut (c.lines (l0CacheIndex physAddr)) physAddr data size) := by
  have h' : L0MicroCache.hit { c with totalAccesses := c.totalAccesses + 1 } physAddr = true := h
  simp only [L0MicroCache.read, h', if_true, and_self]

/-- A read that misses replaces its line by zeroes. -/
lemma read_miss {c : L0MicroCache} {physAddr : UInt64} (h : c.hit physAddr = false)
    (data : Option Buffer) (size : UInt64) :
    (c.read physAddr data size).1.lines =
        Function.update c.lines (l0CacheIndex physAddr) (filledLine physAddr) ∧
      (c.read physAddr data size).2.1 = .warnStatusNotFound := by
  have h' : L0MicroCache.hit { c with totalAccesses := c.totalAccesses + 1 } physAddr = false := h
  simp [L0MicroCache.read, h']

/-- What a hit on a coherent cache puts in the buffer. -/
lemma copyOut_byte {c : L0MicroCache} {m : Ram.Bytes} (hc : Coherent c m) {physAddr size : UInt64}
    (hhit : c.hit physAddr = true) (hfit : fitsLine physAddr size = true) {buf buf' : Buffer}
    (h : copyOut (c.lines (l0CacheIndex physAddr)) physAddr (some buf) size = some buf') {i : Nat}
    (hi : i < size.toNat) : buf' i = m (physAddr + UInt64.ofNat i) := by
  obtain ⟨hblock, hoff⟩ := fitsLine_byte hfit hi
  have hbyte := hc (physAddr + UInt64.ofNat i) ((hit_of_block hblock).trans hhit)
  rw [L0MicroCache.byteAt, (block_eq_iff.mp hblock).1, hoff] at hbyte
  simp only [copyOut, Option.map_some, if_pos hfit, Option.some.injEq] at h
  rw [← h, ← hbyte, copyMem, if_pos ⟨Nat.zero_le _, by omega⟩]
  rfl

/-- A coherent cache stays coherent through a read unless a miss hides bytes of memory. -/
lemma coherent_read_iff {c : L0MicroCache} {m : Ram.Bytes} (hc : Coherent c m)
    (physAddr : UInt64) (data : Option Buffer) (size : UInt64) :
    Coherent (c.read physAddr data size).1 m ↔
      (c.hit physAddr = false → ∀ a, block a = block physAddr → m a = 0) := by
  cases hhit : c.hit physAddr with
  | true =>
    obtain ⟨hlines, -⟩ := read_hit hhit data size
    have hcoh : Coherent (c.read physAddr data size).1 m := by
      intro a ha
      rw [L0MicroCache.hit, hlines] at ha
      rw [L0MicroCache.byteAt, hlines]
      exact hc a ha
    simp [hcoh]
  | false =>
    obtain ⟨hlines, -⟩ := read_miss hhit data size
    rw [coherent_update_iff hlines rfl rfl]
    constructor
    · rintro ⟨-, hzero⟩ - a ha
      exact (hzero a ha).symm
    · intro hzero
      exact ⟨fun a _ => hc a, fun a ha => (hzero rfl a ha).symm⟩

/-- A byte that a write that fits its line does not reach. -/
lemma memAfter_of_fits {m : Ram.Bytes} {physAddr a : UInt64} {data : Option Buffer}
    {size : UInt64} (hfit : fitsLine physAddr size = true)
    (h : ¬ Copied physAddr data size a) : memAfter m physAddr data size a = m a := by
  cases data with
  | none => rfl
  | some buf =>
    have hout : ¬ (a - physAddr).toNat < size.toNat := fun hlt => h ⟨by simp, hfit, hlt⟩
    rw [memAfter, Ram.storeBytes, if_neg hout]

/-- What a write leaves in its line. -/
lemma copyIn_data {line : L0CacheLine} {physAddr a : UInt64} {data : Option Buffer}
    {size : UInt64} (m : Ram.Bytes) (ha : block a = block physAddr) :
    (Copied physAddr data size a →
        (copyIn line physAddr data size).data (lineOffset a) = memAfter m physAddr data size a) ∧
      (¬ Copied physAddr data size a →
        (copyIn line physAddr data size).data (lineOffset a) = line.data (lineOffset a)) := by
  cases data with
  | none => exact ⟨fun h => absurd rfl h.1, fun _ => rfl⟩
  | some buf =>
    cases hfit : fitsLine physAddr size with
    | false =>
      refine ⟨fun h => ?_, fun _ => ?_⟩
      · have := h.2.1
        rw [hfit] at this
        cases this
      · rw [copyIn, hfit]
        rfl
    | true =>
      have hrange := fitsLine_range hfit a
      rw [copyIn, if_pos hfit]
      refine ⟨fun h => ?_, fun h => ?_⟩
      · obtain ⟨-, hlo, hhi⟩ := hrange.mp h.2.2
        rw [memAfter, Ram.storeBytes, if_pos h.2.2, fitsLine_sub hfit h.2.2]
        dsimp only [copyMem]
        rw [if_pos ⟨hlo, hhi⟩]
      · have hout : ¬ (lineOffset physAddr ≤ lineOffset a ∧
            lineOffset a < lineOffset physAddr + size.toNat) := fun hin =>
          h ⟨by simp, hfit, hrange.mpr ⟨ha, hin⟩⟩
        dsimp only [copyMem]
        rw [if_neg hout]

/-- Copying into a line keeps its tag and its valid bit. -/
lemma copyIn_tag (line : L0CacheLine) (physAddr : UInt64) (data : Option Buffer) (size : UInt64) :
    (copyIn line physAddr data size).tag = line.tag ∧
      (copyIn line physAddr data size).valid = line.valid := by
  unfold copyIn
  split
  · split <;> exact ⟨rfl, rfl⟩
  · exact ⟨rfl, rfl⟩

/-- Two hits in one line are hits of one block. -/
lemma block_of_hits {c : L0MicroCache} {a b : UInt64} (ha : c.hit a = true) (hb : c.hit b = true)
    (h : l0CacheIndex a = l0CacheIndex b) : block a = block b := by
  rw [block_eq_iff]
  refine ⟨h, ?_⟩
  rw [← (hit_iff.mp ha).2, h, (hit_iff.mp hb).2]

/-- The line that a write copies into. -/
def L0MicroCache.lineBefore (c : L0MicroCache) (physAddr : UInt64) : L0CacheLine :=
  if c.hit physAddr then c.lines (l0CacheIndex physAddr) else filledLine physAddr

lemma lineBefore_tag (c : L0MicroCache) (physAddr : UInt64) :
    (c.lineBefore physAddr).valid = true ∧ (c.lineBefore physAddr).tag = l0CacheTag physAddr := by
  rw [L0MicroCache.lineBefore]
  split
  next hhit => exact hit_iff.mp hhit
  next => exact ⟨rfl, rfl⟩

lemma lineBefore_data {c : L0MicroCache} {m : Ram.Bytes} (hc : Coherent c m) {physAddr a : UInt64}
    (ha : block a = block physAddr) :
    (c.lineBefore physAddr).data (lineOffset a) = if c.hit physAddr = true then m a else 0 := by
  rw [L0MicroCache.lineBefore]
  split
  next hhit =>
    have hbyte := hc a ((hit_of_block ha).trans hhit)
    rwa [L0MicroCache.byteAt, (block_eq_iff.mp ha).1] at hbyte
  next => rfl

/-- A coherent cache stays coherent through a write exactly when the write is safe. -/
lemma coherent_write_iff {c : L0MicroCache} {m : Ram.Bytes} (hc : Coherent c m)
    (physAddr : UInt64) (data : Option Buffer) (size : UInt64) :
    Coherent (c.write physAddr data size) (memAfter m physAddr data size) ↔
      WriteSafe c m physAddr data size := by
  have hlines : (c.write physAddr data size).lines = Function.update c.lines
      (l0CacheIndex physAddr) (copyIn (c.lineBefore physAddr) physAddr data size) := rfl
  obtain ⟨hvalid, htag⟩ := lineBefore_tag c physAddr
  obtain ⟨htag', hvalid'⟩ := copyIn_tag (c.lineBefore physAddr) physAddr data size
  rw [coherent_update_iff hlines (hvalid'.trans hvalid) (htag'.trans htag)]
  have hown {a : UInt64} (ha : block a = block physAddr) :
      (copyIn (c.lineBefore physAddr) physAddr data size).data (lineOffset a) =
          memAfter m physAddr data size a ↔
        (¬ Copied physAddr data size a →
          (if c.hit physAddr = true then m a else 0) = memAfter m physAddr data size a) := by
    by_cases hcopied : Copied physAddr data size a
    · exact iff_of_true ((copyIn_data m ha).1 hcopied) fun h => absurd hcopied h
    · rw [(copyIn_data m ha).2 hcopied, lineBefore_data hc ha]
      exact (imp_iff_right hcopied).symm
  constructor
  · intro h
    obtain ⟨hothers, hline⟩ := h
    constructor
    · intro hmiss a ha hcopied
      have hbyte := (hown ha).mp (hline a ha) hcopied
      rw [hmiss] at hbyte
      exact hbyte.symm
    · intro hfit a hhit hstays
      by_cases hindex : l0CacheIndex a = l0CacheIndex physAddr
      · have hhit' := hstays.resolve_right (absurd hindex)
        have ha := block_of_hits hhit hhit' hindex
        have hbyte := (hown ha).mp (hline a ha) (by simp [Copied, hfit])
        rw [if_pos hhit'] at hbyte
        exact hbyte.symm
      · rw [← hothers a hindex hhit, hc a hhit]
  · intro h
    obtain ⟨hmiss, hcross⟩ := h
    -- the write changes no byte of a line that stays, but for those it copies into the line
    have hkept {a : UInt64} (hhit : c.hit a = true) (hcopied : ¬ Copied physAddr data size a)
        (hstays : c.hit physAddr = true ∨ l0CacheIndex a ≠ l0CacheIndex physAddr) :
        memAfter m physAddr data size a = m a := by
      cases hfit : fitsLine physAddr size with
      | false => exact hcross hfit a hhit hstays
      | true => exact memAfter_of_fits hfit hcopied
    constructor
    · intro a hindex hhit
      rw [hc a hhit]
      apply (hkept hhit _ (.inr hindex)).symm
      intro hcopied
      exact hindex (block_eq_iff.mp ((fitsLine_range hcopied.2.1 a).mp hcopied.2.2).1).1
    · intro a ha
      rw [hown ha]
      intro hcopied
      cases hhit : c.hit physAddr with
      | false => exact (hmiss hhit a ha hcopied).symm
      | true => exact (hkept ((hit_of_block ha).trans hhit) hcopied (.inl hhit)).symm

/-- An invalidation only takes lines away. -/
lemma Coherent.invalidate {c : L0MicroCache} {m : Ram.Bytes} (hc : Coherent c m)
    (physAddr : UInt64) : Coherent (c.invalidate physAddr) m := by
  unfold L0MicroCache.invalidate
  split
  next hhit =>
    intro a ha
    rw [hit_iff] at ha
    by_cases hindex : l0CacheIndex a = l0CacheIndex physAddr
    · simp [hindex] at ha
    · simp only [Function.update_of_ne hindex] at ha
      simp only [L0MicroCache.byteAt, Function.update_of_ne hindex]
      exact hc a (hit_iff.mpr ha)
  next => exact hc

/-! ## The units -/

lemma ready_eq_some {g : L0Globals} {u : UInt32} {i : Fin l0MaxUnits} {c : L0MicroCache} :
    g.ready u = some (i, c) ↔ u < g.gL0ActiveUnits ∧ i.val = u.toNat ∧
      g.gL0Caches i = some c ∧ c.initialized = true := by
  unfold L0Globals.ready
  split
  next hu =>
    constructor
    · intro h
      dsimp only at h
      split at h
      next c' hcache =>
        split at h
        next hinit =>
          obtain ⟨rfl, rfl⟩ := Prod.mk.inj (Option.some.inj h)
          exact ⟨hu, rfl, hcache, hinit⟩
        next => cases h
      next => cases h
    · rintro ⟨-, hi, hcache, hinit⟩
      obtain rfl : i = ⟨u.toNat, Nat.lt_of_lt_of_le hu g.active_le⟩ := Fin.ext hi
      simp [hcache, hinit]
  next hu => simp [hu]

/-- Replacing the cache of a unit is not seen by the others. -/
lemma ready_update {g : L0Globals} {v : UInt32} {i : Fin l0MaxUnits} {c c' : L0MicroCache}
    (h : g.ready v = some (i, c)) (hinit : c'.initialized = c.initialized) (u : UInt32) :
    L0Globals.ready { g with gL0Caches := Function.update g.gL0Caches i (some c') } u =
      if u = v then some (i, c') else g.ready u := by
  obtain ⟨hv, hi, hcache, hready⟩ := ready_eq_some.mp h
  split
  next huv =>
    subst huv
    exact ready_eq_some.mpr ⟨hv, hi, by simp, hinit.trans hready⟩
  next huv =>
    ext ⟨j, d⟩
    rw [ready_eq_some, ready_eq_some]
    refine and_congr_right fun _ => and_congr_right fun hj => ?_
    have hji : j ≠ i := by
      rintro rfl
      exact huv (UInt32.toNat_inj.mp (hj.symm.trans hi))
    simp only [Function.update_of_ne hji]

lemma read_initialized (c : L0MicroCache) (physAddr : UInt64) (data : Option Buffer)
    (size : UInt64) : (c.read physAddr data size).1.initialized = c.initialized := by
  unfold L0MicroCache.read
  dsimp only
  split <;> rfl

/-- A call that changes the cache of its own unit if that is ready. -/
lemma ready_access {g g' : L0Globals} {v : UInt32} {f : L0MicroCache → L0MicroCache}
    (hinit : ∀ c, (f c).initialized = c.initialized)
    (hnone : g.ready v = none → g' = g)
    (hsome : ∀ i c, g.ready v = some (i, c) →
      g' = { g with gL0Caches := Function.update g.gL0Caches i (some (f c)) }) (u : UInt32) :
    g'.ready u = if u = v then (g.ready u).map fun p => (p.1, f p.2) else g.ready u := by
  cases hv : g.ready v with
  | none =>
    rw [hnone hv]
    split
    next huv =>
      rw [huv, hv]
      rfl
    next => rfl
  | some p =>
    rw [hsome p.1 p.2 hv, ready_update hv (hinit p.2)]
    split
    next huv =>
      rw [huv, hv]
      rfl
    next => rfl

lemma ready_read (g : L0Globals) (v : UInt32) (physAddr : UInt64) (data : Option Buffer)
    (size : UInt64) (u : UInt32) :
    (l0CacheRead g v physAddr data size).1.ready u =
      if u = v then (g.ready u).map fun p => (p.1, (p.2.read physAddr data size).1)
      else g.ready u := by
  refine ready_access (f := fun c => (c.read physAddr data size).1)
    (fun c => read_initialized c physAddr data size) (fun hv => ?_) (fun i c hv => ?_) u <;>
  simp only [l0CacheRead, hv]

lemma ready_write (g : L0Globals) (v : UInt32) (physAddr : UInt64) (data : Option Buffer)
    (size : UInt64) (u : UInt32) :
    (l0CacheWrite g v physAddr data size).1.ready u =
      if u = v then (g.ready u).map fun p => (p.1, p.2.write physAddr data size)
      else g.ready u := by
  refine ready_access (f := fun c => c.write physAddr data size) (fun _ => rfl) (fun hv => ?_)
    (fun i c hv => ?_) u <;>
  simp only [l0CacheWrite, hv]

lemma invalidate_initialized (c : L0MicroCache) (physAddr : UInt64) :
    (c.invalidate physAddr).initialized = c.initialized := by
  unfold L0MicroCache.invalidate
  split <;> rfl

lemma ready_invalidate (g : L0Globals) (physAddr : UInt64) (u : UInt32) :
    (l0CacheInvalidate g physAddr).ready u =
      (g.ready u).map fun p => (p.1, p.2.invalidate physAddr) := by
  unfold L0Globals.ready
  split
  next hu =>
    have hu' : u.toNat < g.gL0ActiveUnits.toNat := hu
    rw [dif_pos (show u < g.gL0ActiveUnits from hu)]
    cases hcache : g.gL0Caches ⟨u.toNat, Nat.lt_of_lt_of_le hu g.active_le⟩ with
    | none => simp [l0CacheInvalidate, hcache]
    | some c =>
      cases hinit : c.initialized with
      | true => simp [l0CacheInvalidate, hcache, hu', hinit, invalidate_initialized]
      | false => simp [l0CacheInvalidate, hcache, hinit]
  next hu => rw [dif_neg (show ¬ u < g.gL0ActiveUnits from hu)]; rfl

/-! ## Runs -/

inductive Op where
  | read (unitId : UInt32) (physAddr : UInt64) (data : Option Buffer) (size : UInt64)
  | write (unitId : UInt32) (physAddr : UInt64) (data : Option Buffer) (size : UInt64)
  | invalidate (physAddr : UInt64)

/-- What a call returns; a read also leaves its buffer. -/
inductive Answer where
  | read (status : EfiStatus) (data : Option Buffer)
  | write (status : EfiStatus)
  | invalidate

/-- The caches, and the memory behind one of them. -/
structure Backed where
  g : L0Globals
  mem : Ram.Bytes

/-- One call; the writes of unit `u` go through to memory. -/
def perform (u : UInt32) (s : Backed) : Op → Backed × Answer
  | .read unitId physAddr data size =>
    let (g, status, data) := l0CacheRead s.g unitId physAddr data size
    ({ s with g := g }, .read status data)
  | .write unitId physAddr data size =>
    let (g, status) := l0CacheWrite s.g unitId physAddr data size
    ({ g := g, mem := if unitId = u then memAfter s.mem physAddr data size else s.mem },
      .write status)
  | .invalidate physAddr => ({ s with g := l0CacheInvalidate s.g physAddr }, .invalidate)

def Step (u : UInt32) (s : Backed) (op : Op) (answer : Answer) (s' : Backed) : Prop :=
  perform u s op = (s', answer)

/-- A read of unit `u` that returns success has placed memory in its buffer. -/
def ReadRight (u : UInt32) (ev : Event Backed Op Answer) : Prop :=
  ∀ physAddr buf size buf', ev.op = .read u physAddr (some buf) size →
    ev.answer = .read .success (some buf') → Holds buf' ev.before.mem physAddr size

/-- Every read of unit `u` within a line that would return success now would place memory in its
buffer. -/
def ReadsRight (u : UInt32) (s : Backed) : Prop :=
  ∀ physAddr buf size buf', fitsLine physAddr size = true →
    (l0CacheRead s.g u physAddr (some buf) size).2 = (.success, some buf') →
    Holds buf' s.mem physAddr size

/-- A call of unit `u`, if ready, is safe. -/
def StepSafe (u : UInt32) (ev : Event Backed Op Answer) : Prop :=
  ∀ i c, ev.before.g.ready u = some (i, c) → ∀ physAddr data size,
    (ev.op = .read u physAddr data size → ReadSafe c ev.before.mem physAddr data size) ∧
      (ev.op = .write u physAddr data size → WriteSafe c ev.before.mem physAddr data size)

/-- The cache of unit `u`, if ready, is coherent. -/
def UnitCoherent (u : UInt32) (s : Backed) : Prop :=
  ∀ i c, s.g.ready u = some (i, c) → Coherent c s.mem

/-- A read that succeeds has hit. -/
lemma read_success {g : L0Globals} {u : UInt32} {physAddr size : UInt64}
    {data data' : Option Buffer}
    (h : (l0CacheRead g u physAddr data size).2 = (.success, data')) :
    ∃ i c, g.ready u = some (i, c) ∧ c.hit physAddr = true ∧
      copyOut (c.lines (l0CacheIndex physAddr)) physAddr data size = data' := by
  cases hready : g.ready u with
  | none => simp [l0CacheRead, hready] at h
  | some p =>
    obtain ⟨i, c⟩ := p
    rw [l0CacheRead, hready] at h
    replace h : (c.read physAddr data size).2 = (.success, data') := h
    cases hhit : c.hit physAddr with
    | false =>
      have := (read_miss hhit data size).2
      rw [h] at this
      cases this
    | true =>
      rw [(read_hit hhit data size).2] at h
      exact ⟨i, c, rfl, hhit, (Prod.mk.inj h).2⟩

/-- One byte at a time, the reads within a line see the whole cache. -/
lemma readsRight_iff_unitCoherent {u : UInt32} {s : Backed} :
    ReadsRight u s ↔ UnitCoherent u s := by
  constructor
  · intro h i c hready a hhit
    have hfit : fitsLine a 1 = true := by
      have := Nat.mod_lt a.toNat (show 64 > 0 by decide)
      rw [fitsLine, lineOffset_eq]
      exact decide_eq_true (by change 1 ≤ 64 - _; omega)
    obtain ⟨-, hread⟩ := read_hit hhit (some fun _ => 0) 1
    have hanswer : (l0CacheRead s.g u a (some fun _ => 0) 1).2 =
        (.success, copyOut (c.lines (l0CacheIndex a)) a (some fun _ => 0) 1) := by
      simp only [l0CacheRead, hready, hread]
    have := h a (fun _ => 0) 1 _ hfit hanswer 0 (by decide)
    rw [show a + UInt64.ofNat 0 = a from UInt64.add_zero a] at this
    simp only [if_pos hfit] at this
    rw [← this]
    rfl
  · intro h physAddr buf size buf' hfit hread i hi
    obtain ⟨j, c, hready, hhit, hcopy⟩ := read_success hread
    exact copyOut_byte (h j c hready) hhit hfit hcopy hi

/-- What holds of a cache after a change of it. -/
lemma forall_ready_map {ι : Type*} {o : Option (ι × L0MicroCache)} {f : L0MicroCache → L0MicroCache}
    {P : L0MicroCache → Prop} :
    (∀ i c', (o.map fun p => (p.1, f p.2)) = some (i, c') → P c') ↔
      ∀ i c, o = some (i, c) → P (f c) := by
  constructor
  · intro h i c hready
    apply h i
    rw [hready]
    rfl
  · intro h i c' hmap
    obtain ⟨⟨j, c⟩, hready, heq⟩ := Option.map_eq_some_iff.mp hmap
    cases heq
    exact h j c hready

/-- One call keeps the cache of unit `u` coherent unless a miss of the unit hides memory or a
write of the unit is not safe. -/
lemma unitCoherent_step {u : UInt32} {s s' : Backed} {op : Op} {answer : Answer}
    (h : UnitCoherent u s) (st : Step u s op answer s') :
    UnitCoherent u s' ↔ ∀ i c, s.g.ready u = some (i, c) → ∀ physAddr data size,
      (op = .read u physAddr data size → c.hit physAddr = false →
        ∀ a, block a = block physAddr → s.mem a = 0) ∧
      (op = .write u physAddr data size → WriteSafe c s.mem physAddr data size) := by
  obtain ⟨rfl, -⟩ := Prod.mk.inj st
  cases op with
  | read v physAddr data size =>
    change (∀ i c', (l0CacheRead s.g v physAddr data size).1.ready u = some (i, c') →
      Coherent c' s.mem) ↔ _
    rw [ready_read]
    by_cases hv : u = v
    · subst hv
      rw [if_pos rfl, forall_ready_map (f := fun c => (c.read physAddr data size).1)]
      refine forall₃_congr fun i c hready => (coherent_read_iff (h i c hready) ..).trans ?_
      constructor
      · intro hzero _ _ _
        refine ⟨fun hop => ?_, nofun⟩
        cases hop
        exact hzero
      · intro hsafe
        exact (hsafe physAddr data size).1 rfl
    · rw [if_neg hv]
      refine iff_of_true h fun i c _ _ _ _ => ⟨fun hop => ?_, nofun⟩
      injection hop with hvu
      exact absurd hvu.symm hv
  | write v physAddr data size =>
    change (∀ i c', (l0CacheWrite s.g v physAddr data size).1.ready u = some (i, c') →
      Coherent c' (if v = u then memAfter s.mem physAddr data size else s.mem)) ↔ _
    rw [ready_write]
    by_cases hv : u = v
    · subst hv
      rw [if_pos rfl, if_pos rfl, forall_ready_map (f := fun c => c.write physAddr data size)]
      refine forall₃_congr fun i c hready => (coherent_write_iff (h i c hready) ..).trans ?_
      constructor
      · intro hsafe _ _ _
        refine ⟨nofun, fun hop => ?_⟩
        cases hop
        exact hsafe
      · intro hsafe
        exact (hsafe physAddr data size).2 rfl
    · rw [if_neg hv, if_neg (Ne.symm hv)]
      refine iff_of_true h fun i c _ _ _ _ => ⟨nofun, fun hop => ?_⟩
      injection hop with hvu
      exact absurd hvu.symm hv
  | invalidate physAddr =>
    refine iff_of_true ?_ fun i c _ _ _ _ => ⟨nofun, nofun⟩
    change ∀ i c', (l0CacheInvalidate s.g physAddr).ready u = some (i, c') → Coherent c' s.mem
    rw [ready_invalidate, forall_ready_map (f := fun c => c.invalidate physAddr)]
    intro i c hready
    exact (h i c hready).invalidate physAddr

/-- On a coherent cache a successful read is right unless it hits without fitting its line. -/
lemma readRight_step {u : UInt32} {s s' : Backed} {op : Op} {answer : Answer}
    (h : UnitCoherent u s) (st : Step u s op answer s') :
    ReadRight u ⟨s, op, answer⟩ ↔ ∀ i c, s.g.ready u = some (i, c) → ∀ physAddr buf size,
      op = .read u physAddr (some buf) size → c.hit physAddr = true →
        fitsLine physAddr size = false → Holds buf s.mem physAddr size := by
  obtain ⟨-, rfl⟩ := Prod.mk.inj st
  constructor
  · rintro hright i c hready physAddr buf size rfl hhit hfit
    refine hright physAddr buf size buf rfl ?_
    have hread := (read_hit hhit (some buf) size).2
    simp only [copyOut, hfit, Option.map_some] at hread
    simp only [l0CacheRead, hready, hread]
    rfl
  · rintro hcross physAddr buf size buf' rfl hanswer
    have hread : (l0CacheRead s.g u physAddr (some buf) size).2 = (.success, some buf') := by
      injection hanswer with hstatus hbuf
      exact Prod.ext hstatus hbuf
    cases hfit : fitsLine physAddr size with
    | true => exact readsRight_iff_unitCoherent.mpr h physAddr buf size buf' hfit hread
    | false =>
      obtain ⟨i, c, hready, hhit, hcopy⟩ := read_success hread
      simp only [copyOut, hfit, Option.map_some, Option.some.injEq] at hcopy
      rw [← hcopy]
      exact hcross i c hready physAddr buf size rfl hhit hfit

lemma stepSafe_iff {u : UInt32} {s s' : Backed} {op : Op} {answer : Answer}
    (h : UnitCoherent u s) (st : Step u s op answer s') :
    StepSafe u ⟨s, op, answer⟩ ↔ ReadRight u ⟨s, op, answer⟩ ∧ UnitCoherent u s' := by
  rw [readRight_step h st, unitCoherent_step h st]
  constructor
  · intro hsafe
    refine ⟨fun i c hready physAddr buf size hop => ?_, fun i c hready physAddr data size => ?_⟩
    · exact ((hsafe i c hready physAddr (some buf) size).1 hop).2 buf rfl
    · obtain ⟨hread, hwrite⟩ := hsafe i c hready physAddr data size
      exact ⟨fun hop => (hread hop).1, hwrite⟩
  · rintro ⟨hright, hcoherent⟩ i c hready physAddr data size
    obtain ⟨hread, hwrite⟩ := hcoherent i c hready physAddr data size
    refine ⟨fun hop => ⟨hread hop, ?_⟩, hwrite⟩
    rintro buf rfl
    exact hright i c hready physAddr buf size hop

/-! ## The result -/

/-- The allocating loop only adds fresh caches. -/
lemma initUnits_fresh (pool : Nat → Bool) (us : List (Fin l0MaxUnits))
    (caches : Fin l0MaxUnits → Option L0MicroCache)
    (h : ∀ i c, caches i = some c → c = freshCache) (i : Fin l0MaxUnits) (c : L0MicroCache)
    (hc : (initUnits pool us caches).1 i = some c) : c = freshCache := by
  induction us generalizing caches with
  | nil => exact h i c hc
  | cons v us ih =>
    rw [initUnits] at hc
    split at hc
    · refine ih _ (fun k d hd => ?_) hc
      by_cases hk : k = v
      · subst hk
        simpa [eq_comm] using hd
      · rw [Function.update_of_ne hk] at hd
        exact h k d hd
    · by_cases hi : i = v
      · subst hi
        simp at hc
      · simp only [Function.update_of_ne hi] at hc
        exact h i c hc

lemma l0CacheInit_fresh {pool : Nat → Bool} {activeUnits : UInt32} {i : Fin l0MaxUnits}
    {c : L0MicroCache} (h : (l0CacheInit pool activeUnits).1.gL0Caches i = some c) :
    c = freshCache := by
  have hfresh (us) : (initUnits pool us fun _ => none).1 i = some c → c = freshCache :=
    initUnits_fresh pool us _ (by simp) i c
  unfold l0CacheInit at h
  dsimp only at h
  split at h <;>
  next heq => exact hfresh _ ((congrArg (fun r => r.1 i) heq).trans h)

/-- After `L0CacheInit` no line is valid. -/
lemma unitCoherent_init (pool : Nat → Bool) (activeUnits : UInt32) (mem : Ram.Bytes)
    (u : UInt32) : UnitCoherent u ⟨(l0CacheInit pool activeUnits).1, mem⟩ := by
  intro i c hready a hhit
  obtain rfl := l0CacheInit_fresh (ready_eq_some.mp hready).2.2.1
  cases hhit

/-- For a unit of freshly initialised caches and any memory behind it: every read of the unit that
returns success within a run has placed memory in its buffer, and every read within a line would do
so in each of the run's states, exactly when the calls of the unit are safe. -/
theorem readsRight_iff (pool : Nat → Bool) (activeUnits u : UInt32) (mem : Ram.Bytes)
    {tr : List (Event Backed Op Answer)} {s : Backed}
    (run : Run (Step u) ⟨(l0CacheInit pool activeUnits).1, mem⟩ tr s) :
    (Always (ReadsRight u) tr s ∧ ∀ ev ∈ tr, ReadRight u ev) ↔ ∀ ev ∈ tr, StepSafe u ev := by
  refine Run.always_iff (I := UnitCoherent u) (unitCoherent_init pool activeUnits mem u) ?_ ?_ ?_ ?_
    run
  · exact fun _ _ _ _ h st hsafe => ((stepSafe_iff h st).mp hsafe).2
  · exact fun _ h => readsRight_iff_unitCoherent.mpr h
  · exact fun _ _ _ _ h st hsafe => ((stepSafe_iff h st).mp hsafe).1
  · exact fun _ _ _ _ h st hright hnext =>
      (stepSafe_iff h st).mpr ⟨hright, readsRight_iff_unitCoherent.mp hnext⟩

/-- A byte written to zeroed memory and read back. -/
def writeThenRead : List (Event Backed Op Answer) × Backed :=
  let s₀ : Backed := ⟨(l0CacheInit (fun _ => true) 1).1, fun _ => 0⟩
  let s₁ := perform 0 s₀ (.write 0 0 (some fun _ => 5) 1)
  let s₂ := perform 0 s₁.1 (.read 0 0 (some fun _ => 255) 1)
  ([⟨s₀, .write 0 0 (some fun _ => 5) 1, s₁.2⟩, ⟨s₁.1, .read 0 0 (some fun _ => 255) 1, s₂.2⟩],
    s₂.1)

lemma writeThenRead_run :
    Run (Step 0) ⟨(l0CacheInit (fun _ => true) 1).1, fun _ => 0⟩ writeThenRead.1
      writeThenRead.2 :=
  .snoc (.snoc .nil rfl) rfl

theorem readsRight_iff_writeThenRead :
    Always (ReadsRight 0) writeThenRead.1 writeThenRead.2 ∧
      ∀ ev ∈ writeThenRead.1, ReadRight 0 ev := by
  refine (readsRight_iff (fun _ => true) 1 0 (fun _ => 0) writeThenRead_run).mpr fun ev hev => ?_
  intro i c hready physAddr data size
  rcases List.mem_cons.mp hev with rfl | hev
  · refine ⟨nofun, fun hop => ?_⟩
    obtain ⟨-, rfl, rfl, rfl⟩ := Op.write.inj hop
    exact ⟨fun _ a _ hcopied => memAfter_of_fits (by decide) hcopied, nofun⟩
  · obtain rfl := List.mem_singleton.mp hev
    refine ⟨fun hop => ?_, nofun⟩
    obtain ⟨-, rfl, rfl, rfl⟩ := Op.read.inj hop
    refine ⟨fun hmiss => ?_, fun _ _ _ => nofun⟩
    obtain ⟨-, rfl⟩ := Prod.mk.inj (Option.some.inj (hready.symm.trans rfl))
    cases hmiss

/-- A read miss followed by the same read: the hit returns the zero that the miss has left. -/
def missThenHit : List (Event Backed Op Answer) × Backed :=
  let s₀ : Backed := ⟨(l0CacheInit (fun _ => true) 1).1, fun _ => 7⟩
  let op : Op := .read 0 0 (some fun _ => 255) 1
  let s₁ := perform 0 s₀ op
  let s₂ := perform 0 s₁.1 op
  ([⟨s₀, op, s₁.2⟩, ⟨s₁.1, op, s₂.2⟩], s₂.1)

lemma missThenHit_run :
    Run (Step 0) ⟨(l0CacheInit (fun _ => true) 1).1, fun _ => 7⟩ missThenHit.1 missThenHit.2 :=
  .snoc (.snoc .nil rfl) rfl

/-- Where memory holds a value other than zero, a read miss followed by a read hit is enough. -/
theorem readsRight_not : ¬ ∀ (pool : Nat → Bool) (activeUnits u : UInt32) (mem : Ram.Bytes)
    (tr : List (Event Backed Op Answer)) (s : Backed),
    Run (Step u) ⟨(l0CacheInit pool activeUnits).1, mem⟩ tr s → ∀ ev ∈ tr, ReadRight u ev := by
  intro h
  have hright := h _ 1 0 _ _ _ missThenHit_run _ (List.mem_cons_of_mem _ (List.mem_singleton.mpr rfl))
  have := hright 0 (fun _ => 255) 1 _ rfl rfl 0 (by decide)
  revert this
  decide

end Bemi.L0
