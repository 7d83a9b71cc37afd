import Bemi.L0.DirectMapped

/-!
# What a unit is to its callers

A unit does not serve memory: a block that it does not hold is zero. `Scratch` is the store that it
is instead, of blocks and bytes without lines and tags, with the counts that `L0CachePrintStats`
prints. The units are such stores, each apart from the others (`l0_refines`).
-/

namespace Bemi.L0

/-! ## Statistics -/

/-- The numbers that the statistics print. -/
structure L0Totals where
  totalAccess : UInt64
  totalHit : UInt64
  totalMiss : UInt64
  totalWT : UInt64
  deriving DecidableEq

/-- `L0CachePrintStats`: what it prints, if anything. -/
def l0CachePrintStats (g : L0Globals) (unitId : UInt32) : Option L0Totals :=
  if h : unitId.toNat < l0MaxUnits then
    (g.gL0Caches ⟨unitId.toNat, h⟩).map fun c =>
      ⟨c.totalAccesses, c.hits, c.misses, c.writeThrough⟩
  else none

/-- One turn of the loop over the units. -/
def L0Totals.add (t : L0Totals) : Option L0MicroCache → L0Totals
  | some c => ⟨t.totalAccess + c.totalAccesses, t.totalHit + c.hits, t.totalMiss + c.misses,
      t.totalWT + c.writeThrough⟩
  | none => t

/-- The totals of some units. -/
def L0Globals.totals (g : L0Globals) (us : List (Fin l0MaxUnits)) : L0Totals :=
  us.foldl (fun t u => t.add (g.gL0Caches u)) ⟨0, 0, 0, 0⟩

def l0CachePrintAggregateStats (g : L0Globals) : L0Totals :=
  g.totals ((List.finRange l0MaxUnits).take g.gL0ActiveUnits.toNat)

/-- `L0CacheV71PrintAggregateStats` goes over all units that there can be. -/
def l0CacheV71PrintAggregateStats (g : L0Globals) : L0Totals :=
  g.totals (List.finRange l0MaxUnits)

/-! ## The store -/

/-- Accesses by their outcome. -/
structure Counts where
  hits : Nat
  misses : Nat
  writes : Nat

def Counts.add (n m : Counts) : Counts :=
  ⟨n.hits + m.hits, n.misses + m.misses, n.writes + m.writes⟩

/-- The counts as 64 bits show them. -/
def Counts.printed (n : Counts) : L0Totals :=
  ⟨UInt64.ofNat (n.hits + n.misses + n.writes), UInt64.ofNat n.hits, UInt64.ofNat n.misses,
    UInt64.ofNat n.writes⟩

/-- The blocks that are there, the bytes of all, and the accesses so far. -/
structure Scratch extends Counts where
  resident : Nat → Bool
  bytes : Ram.Bytes

/-- What an access that fits its block writes; another one writes nothing. -/
def stored (m : Ram.Bytes) (a : UInt64) (data : Option Buffer) (size : UInt64) : Ram.Bytes :=
  if fitsLine a size then memAfter m a data size else m

namespace Scratch

def empty : Scratch := ⟨⟨0, 0, 0⟩, fun _ => false, fun _ => 0⟩

variable (p : Scratch) (a : UInt64) (data : Option Buffer) (size : UInt64)

/-- The block of an address comes in, as zeroes if it is not there, for that of its index. -/
def fetch : Scratch :=
  { p with
    resident := fun b => decide (b = block a) || p.resident b && decide (b % 16 ≠ block a % 16)
    bytes := fun x => if block x = block a ∧ p.resident (block a) = false then 0 else p.bytes x }

/-- The caller's buffer, with the bytes from an address on if they are of one block. -/
def view : Option Buffer :=
  data.map fun buf i =>
    if fitsLine a size = true ∧ i < size.toNat then p.bytes (a + UInt64.ofNat i) else buf i

def read : Scratch × EfiStatus × Option Buffer :=
  if p.resident (block a) then
    ({ p.fetch a with hits := p.hits + 1 }, .success, (p.fetch a).view a data size)
  else
    ({ p.fetch a with misses := p.misses + 1 }, .warnStatusNotFound, (p.fetch a).view a data size)

def write : Scratch :=
  { p.fetch a with bytes := stored (p.fetch a).bytes a data size, writes := p.writes + 1 }

def invalidate : Scratch :=
  { p with resident := fun b => p.resident b && decide (block a ≠ b) }

end Scratch

/-- What a call does to the store of unit `u`. -/
def Scratch.after (p : Scratch) (u : UInt32) : Op → Scratch
  | .read unitId physAddr data size => if u = unitId then (p.read physAddr data size).1 else p
  | .write unitId physAddr data size => if u = unitId then p.write physAddr data size else p
  | .invalidate physAddr => p.invalidate physAddr

/-- The stores of the units that are there. -/
abbrev Pads := UInt32 → Option Scratch

/-- The units that `L0CacheInit` sets up. -/
def Pads.init (activeUnits : UInt32) : Pads := fun u =>
  if u.toNat < min activeUnits.toNat l0MaxUnits then some .empty else none

def Pads.after (pads : Pads) (op : Op) : Pads := fun u => (pads u).map fun p => p.after u op

def Pads.answer (pads : Pads) : Op → Answer
  | .read unitId physAddr data size =>
    match pads unitId with
    | some p => .read (p.read physAddr data size).2.1 (p.read physAddr data size).2.2
    | none => .read .notReady data
  | .write unitId _ _ _ => .write (if (pads unitId).isSome then .success else .notReady)
  | .invalidate _ => .invalidate

/-- The counts of the first `n` units. -/
def Pads.total (pads : Pads) (n : Nat) : Counts :=
  ((List.finRange l0MaxUnits).take n).foldl
    (fun t i => t.add (((pads (UInt32.ofNat i.val)).map (·.toCounts)).getD ⟨0, 0, 0⟩)) ⟨0, 0, 0⟩

def Pads.answers (pads : Pads) : List Op → List Answer
  | [] => []
  | op :: ops => pads.answer op :: (pads.after op).answers ops

/-! ## One cache -/

/-- The cache holds the store; its counters are of 64 bits. -/
structure Shows (c : L0MicroCache) (p : Scratch) : Prop where
  resident a : c.hit a = p.resident (block a)
  bytes : Coherent c p.bytes
  totalAccesses : c.totalAccesses = UInt64.ofNat (p.hits + p.misses + p.writes)
  hits : c.hits = UInt64.ofNat p.hits
  misses : c.misses = UInt64.ofNat p.misses
  writeThrough : c.writeThrough = UInt64.ofNat p.writes

variable {c c' : L0MicroCache} {p : Scratch} {a b : UInt64} {u : UInt32}

lemma shows_fresh : Shows freshCache .empty where
  resident _ := rfl
  bytes _ hhit := nomatch hhit
  totalAccesses := rfl
  hits := rfl
  misses := rfl
  writeThrough := rfl

/-- One more, on both sides. -/
lemma counted {x : UInt64} {n : Nat} (h : x = UInt64.ofNat n) : x + 1 = UInt64.ofNat (n + 1) := by
  rw [h, UInt64.ofNat_add]
  rfl

/-- A read leaves its line there. -/
lemma read_lines (b : UInt64) (data : Option Buffer) (size : UInt64) :
    (c.read b data size).1.lines = Function.update c.lines (l0CacheIndex b) (c.lineBefore b) := by
  rw [L0MicroCache.lineBefore]
  cases hhit : c.hit b with
  | true =>
    rw [if_pos rfl, Function.update_eq_self]
    exact (read_hit hhit data size).1
  | false => exact (read_miss hhit data size).1

lemma stored_of_copied {data : Option Buffer} {size : UInt64} (m : Ram.Bytes)
    (h : Copied b data size a) : stored m b data size = memAfter m b data size :=
  if_pos h.2.1

lemma stored_of_not_copied {data : Option Buffer} {size : UInt64} (m : Ram.Bytes)
    (h : ¬ Copied b data size a) : stored m b data size a = m a := by
  rw [stored]
  split
  next hfit => exact memAfter_of_fits hfit h
  next => rfl

lemma index_eq_iff : l0CacheIndex a = l0CacheIndex b ↔ block a % 16 = block b % 16 := by
  rw [Fin.ext_iff, l0CacheIndex_val, l0CacheIndex_val]
  rfl

section
variable (h : Shows c p)
include h

/-- An access brings its block in. -/
lemma Shows.resident_fetch (hhit : c'.hit a = true ↔ block b = block a ∨
    c.hit a = true ∧ ¬ (block b ≠ block a ∧ l0CacheIndex b = l0CacheIndex a)) :
    c'.hit a = (p.fetch b).resident (block a) := by
  rw [Bool.eq_iff_iff, hhit, h.resident, index_eq_iff]
  simp only [Scratch.fetch, Bool.or_eq_true, Bool.and_eq_true, decide_eq_true_eq]
  by_cases hblock : block b = block a
  · simp [hblock]
  · have hblock' : ¬ block a = block b := fun heq => hblock heq.symm
    rw [or_iff_right hblock, or_iff_right hblock', ne_eq, and_iff_right hblock]
    exact and_congr_right fun _ => ne_comm

/-- The line that an access leaves before it is written holds the bytes of the block. -/
lemma Shows.lineBefore_byte (ha : block a = block b) :
    (c.lineBefore b).data (lineOffset a) = (p.fetch b).bytes a := by
  rw [lineBefore_data h.bytes ha, h.resident]
  cases hres : p.resident (block b) <;> simp [Scratch.fetch, ha, hres]

/-- The line of an address with what a write copies into it, and the store with the same bytes. -/
lemma Shows.bytes_fetch (data : Option Buffer) (size : UInt64)
    (hlines : c'.lines = Function.update c.lines (l0CacheIndex b)
      (copyIn (c.lineBefore b) b data size)) :
    Coherent c' (stored (p.fetch b).bytes b data size) := by
  obtain ⟨hvalid, htag⟩ := lineBefore_tag c b
  obtain ⟨htag', hvalid'⟩ := copyIn_tag (c.lineBefore b) b data size
  refine (coherent_update_iff hlines (hvalid'.trans hvalid) (htag'.trans htag) _).mpr ⟨?_, ?_⟩
  · intro x hindex hhit
    have hblock : block x ≠ block b := fun heq => hindex (block_eq_iff.mp heq).1
    have hcopied : ¬ Copied b data size x := fun hcopied =>
      hblock ((fitsLine_range hcopied.2.1 x).mp hcopied.2.2).1
    rw [stored_of_not_copied _ hcopied, h.bytes x hhit]
    exact (if_neg fun hboth => hblock hboth.1).symm
  · intro x hblock
    by_cases hcopied : Copied b data size x
    · rw [stored_of_copied _ hcopied]
      exact (copyIn_data _ hblock).1 hcopied
    · rw [stored_of_not_copied _ hcopied, (copyIn_data (p.fetch b).bytes hblock).2 hcopied]
      exact h.lineBefore_byte hblock

/-- What a read puts in the buffer. -/
lemma Shows.view_eq (data : Option Buffer) (size : UInt64) :
    copyOut (c.lineBefore b) b data size = (p.fetch b).view b data size := by
  rw [copyOut, Scratch.view]
  congr 1
  funext buf i
  cases hfit : fitsLine b size with
  | false => simp
  | true =>
    simp only [if_true, copyMem, true_and, Nat.zero_le, Nat.zero_add, Nat.sub_zero]
    by_cases hi : i < size.toNat
    · obtain ⟨hblock, hoff⟩ := fitsLine_byte hfit hi
      rw [if_pos hi, if_pos hi, ← hoff]
      exact h.lineBefore_byte hblock
    · rw [if_neg hi, if_neg hi]

lemma Shows.read (data : Option Buffer) (size : UInt64) :
    Shows (c.read b data size).1 (p.read b data size).1 ∧
      (c.read b data size).2 = (p.read b data size).2 := by
  have hresident (a : UInt64) : (c.read b data size).1.hit a = (p.fetch b).resident (block a) :=
    h.resident_fetch (hit_read data size)
  have hbytes : Coherent (c.read b data size).1 (p.fetch b).bytes := by
    have hnone := h.bytes_fetch none size (read_lines b data size)
    rwa [stored, memAfter, ite_self] at hnone
  have hview := h.view_eq data size (b := b)
  rw [L0MicroCache.lineBefore] at hview
  cases hhit : c.hit b with
  | true =>
    have hfound : L0MicroCache.hit { c with totalAccesses := c.totalAccesses + 1 } b = true := hhit
    rw [hhit, if_pos rfl] at hview
    rw [L0MicroCache.read, if_pos hfound] at hresident hbytes ⊢
    rw [Scratch.read, if_pos ((h.resident b).symm.trans hhit)]
    refine ⟨⟨hresident, hbytes, ?_, counted h.hits, h.misses, h.writeThrough⟩, ?_⟩
    · change c.totalAccesses + 1 = UInt64.ofNat (p.hits + 1 + p.misses + p.writes)
      rw [Nat.add_right_comm p.hits, Nat.add_right_comm _ 1]
      exact counted h.totalAccesses
    · rw [← hview]
  | false =>
    have hfound : ¬ L0MicroCache.hit { c with totalAccesses := c.totalAccesses + 1 } b = true :=
      fun htrue => Bool.false_ne_true (hhit.symm.trans htrue)
    rw [hhit, if_neg Bool.false_ne_true] at hview
    rw [L0MicroCache.read, if_neg hfound] at hresident hbytes ⊢
    rw [Scratch.read, ← h.resident, hhit, if_neg Bool.false_ne_true]
    refine ⟨⟨hresident, hbytes, ?_, h.hits, counted h.misses, h.writeThrough⟩, ?_⟩
    · change c.totalAccesses + 1 = UInt64.ofNat (p.hits + (p.misses + 1) + p.writes)
      rw [← Nat.add_assoc p.hits, Nat.add_right_comm _ 1]
      exact counted h.totalAccesses
    · rw [← hview]

lemma Shows.write (data : Option Buffer) (size : UInt64) :
    Shows (c.write b data size) (p.write b data size) where
  resident a := h.resident_fetch (hit_write data size)
  bytes := h.bytes_fetch data size rfl
  totalAccesses := by
    change c.totalAccesses + 1 = UInt64.ofNat (p.hits + p.misses + (p.writes + 1))
    rw [← Nat.add_assoc]
    exact counted h.totalAccesses
  hits := h.hits
  misses := h.misses
  writeThrough := counted h.writeThrough

lemma Shows.invalidate (b : UInt64) : Shows (c.invalidate b) (p.invalidate b) := by
  have hresident (a : UInt64) : (c.invalidate b).hit a = (p.invalidate b).resident (block a) := by
    rw [Bool.eq_iff_iff, hit_invalidate, h.resident]
    simp [Scratch.invalidate]
  have hbytes : Coherent (c.invalidate b) p.bytes := h.bytes.invalidate b
  rw [L0MicroCache.invalidate] at hresident hbytes ⊢
  by_cases hhit : c.hit b = true
  · rw [if_pos hhit] at hresident hbytes ⊢
    exact ⟨hresident, hbytes, h.totalAccesses, h.hits, h.misses, h.writeThrough⟩
  · rw [if_neg hhit] at hresident hbytes ⊢
    exact ⟨hresident, hbytes, h.totalAccesses, h.hits, h.misses, h.writeThrough⟩

lemma Shows.after (u : UInt32) (op : Op) : Shows (c.after u op) (p.after u op) := by
  cases op with
  | read v b data size =>
    rw [L0MicroCache.after, Scratch.after]
    split
    · exact (h.read data size).1
    · exact h
  | write v b data size =>
    rw [L0MicroCache.after, Scratch.after]
    split
    · exact h.write data size
    · exact h
  | invalidate b => exact h.invalidate b

end

/-! ## The units -/

def L0Globals.answer (g : L0Globals) : Op → Answer
  | .read unitId physAddr data size =>
    .read (l0CacheRead g unitId physAddr data size).2.1
      (l0CacheRead g unitId physAddr data size).2.2
  | .write unitId physAddr data size => .write (l0CacheWrite g unitId physAddr data size).2
  | .invalidate _ => .invalidate

/-- What a list of calls answers. -/
def L0Globals.answers (g : L0Globals) : List Op → List Answer
  | [] => []
  | op :: ops => g.answer op :: (g.after op).answers ops

/-- The units that are there are those of the stores, and each holds its own. -/
def Represents (g : L0Globals) (pads : Pads) : Prop :=
  ∀ u, Option.Rel (fun q p => Shows q.2 p) (g.ready u) (pads u)

variable {g : L0Globals} {pads : Pads}

section
variable (h : Represents g pads)
include h

lemma Represents.unit (u : UInt32) : g.ready u = none ∧ pads u = none ∨
    ∃ i c p, g.ready u = some (i, c) ∧ pads u = some p ∧ Shows c p := by
  have hu := h u
  generalize g.ready u = q at hu ⊢
  generalize pads u = p at hu ⊢
  cases hu with
  | some hshows => exact .inr ⟨_, _, _, rfl, rfl, hshows⟩
  | none => exact .inl ⟨rfl, rfl⟩

lemma Represents.after (op : Op) : Represents (g.after op) (pads.after op) := by
  intro u
  rw [ready_after, Pads.after]
  rcases h.unit u with ⟨hready, hpad⟩ | ⟨i, c, p, hready, hpad, hshows⟩
  · rw [hready, hpad]
    exact .none
  · rw [hready, hpad]
    exact .some (hshows.after u op)

lemma Represents.answer (op : Op) : g.answer op = pads.answer op := by
  cases op with
  | read v b data size =>
    rw [L0Globals.answer, Pads.answer, l0CacheRead]
    rcases h.unit v with ⟨hready, hpad⟩ | ⟨i, c, p, hready, hpad, hshows⟩
    · rw [hready, hpad]
    · rw [hready, hpad]
      exact congrArg (fun r : EfiStatus × Option Buffer => Answer.read r.1 r.2)
        (hshows.read data size).2
  | write v b data size =>
    rw [L0Globals.answer, Pads.answer, l0CacheWrite]
    rcases h.unit v with ⟨hready, hpad⟩ | ⟨i, c, p, hready, hpad, hshows⟩
    · rw [hready, hpad]
      rfl
    · rw [hready, hpad]
      rfl
  | invalidate b => rfl

end

lemma Represents.answers (h : Represents g pads) (ops : List Op) :
    g.answers ops = pads.answers ops := by
  induction ops generalizing g pads with
  | nil => rfl
  | cons op ops ih =>
    rw [L0Globals.answers, Pads.answers, h.answer op, ih (h.after op)]

/-- The printed numbers of a unit are those of its store. -/
lemma Represents.printStats (h : Represents g pads) {u : UInt32} {p : Scratch}
    (hpad : pads u = some p) : l0CachePrintStats g u = some p.printed := by
  rcases h.unit u with ⟨-, hnone⟩ | ⟨i, c, p', hready, hpad', hshows⟩
  · rw [hnone] at hpad
    cases hpad
  · obtain rfl : p' = p := Option.some.inj (hpad'.symm.trans hpad)
    obtain ⟨-, hi, hcache, -⟩ := ready_eq_some.mp hready
    have hu : u.toNat < l0MaxUnits := hi ▸ i.isLt
    rw [l0CachePrintStats, dif_pos hu, show (⟨u.toNat, hu⟩ : Fin l0MaxUnits) = i from
      Fin.ext hi.symm, hcache, Option.map_some, Counts.printed, hshows.totalAccesses, hshows.hits,
      hshows.misses, hshows.writeThrough]

lemma Shows.add (h : Shows c p) (n : Counts) :
    n.printed.add (some c) = (n.add p.toCounts).printed := by
  have haccess : n.hits + p.hits + (n.misses + p.misses) + (n.writes + p.writes) =
      n.hits + n.misses + n.writes + (p.hits + p.misses + p.writes) := by
    omega
  simp only [L0Totals.add, Counts.printed, Counts.add, h.totalAccesses, h.hits, h.misses,
    h.writeThrough, haccess, UInt64.ofNat_add]

lemma toNat_ofNat_unit {k : Nat} (h : k < l0MaxUnits) : (UInt32.ofNat k).toNat = k :=
  UInt32.toNat_ofNat_of_lt' (Nat.lt_trans h (by decide))

/-- The loop over units that are all there adds their counts. -/
lemma Represents.totals (h : Represents g pads) (us : List (Fin l0MaxUnits))
    (hus : ∀ i ∈ us, (pads (UInt32.ofNat i.val)).isSome = true) (n : Counts) :
    us.foldl (fun t u => t.add (g.gL0Caches u)) n.printed = (us.foldl (fun t i =>
      t.add (((pads (UInt32.ofNat i.val)).map (·.toCounts)).getD ⟨0, 0, 0⟩)) n).printed := by
  induction us generalizing n with
  | nil => rfl
  | cons i us ih =>
    have hi := hus i List.mem_cons_self
    rw [List.foldl_cons, List.foldl_cons]
    rcases h.unit (UInt32.ofNat i.val) with ⟨-, hnone⟩ | ⟨j, c, p, hready, hpad, hshows⟩
    · rw [hnone] at hi
      cases hi
    · obtain ⟨-, hj, hcache, -⟩ := ready_eq_some.mp hready
      obtain rfl : j = i := by
        rw [toNat_ofNat_unit i.isLt] at hj
        exact Fin.ext hj
      rw [hcache, hshows.add n, hpad]
      exact ih (fun k hk => hus k (List.mem_cons_of_mem _ hk)) _

/-! ## After `L0CacheInit` -/

lemma active_init (pool : Nat → Bool) (activeUnits : UInt32) :
    (l0CacheInit pool activeUnits).1.gL0ActiveUnits.toNat = min activeUnits.toNat l0MaxUnits := by
  have hactive : (l0CacheInit pool activeUnits).1.gL0ActiveUnits =
      if activeUnits.toNat > l0MaxUnits then 84 else activeUnits := by
    unfold l0CacheInit
    dsimp only
    split <;> rfl
  rw [hactive]
  split
  next hmore => exact (Nat.min_eq_right (Nat.le_of_lt hmore)).symm
  next hmore => exact (Nat.min_eq_left (Nat.le_of_not_lt hmore)).symm

lemma represents_init {pool : Nat → Bool} {activeUnits : UInt32}
    (hinit : (l0CacheInit pool activeUnits).2 = .success) :
    Represents (l0CacheInit pool activeUnits).1 (Pads.init activeUnits) := by
  intro u
  rw [Pads.init, ← active_init pool activeUnits]
  split
  next hu =>
    obtain ⟨i, hready⟩ := ready_init hinit hu
    rw [hready]
    exact .some shows_fresh
  next hu =>
    have hinactive : ¬ u < (l0CacheInit pool activeUnits).1.gL0ActiveUnits := hu
    rw [L0Globals.ready, dif_neg hinactive]
    exact .none

/-- The units of the array that are active are there, and no others. -/
structure Complete (g : L0Globals) (pads : Pads) : Prop where
  active u : u.toNat < g.gL0ActiveUnits.toNat → (pads u).isSome = true
  others i : g.gL0ActiveUnits.toNat ≤ i.val → g.gL0Caches i = none

/-- The allocating loop leaves the units that it does not reach. -/
lemma initUnits_other (pool : Nat → Bool) (us : List (Fin l0MaxUnits))
    (caches : Fin l0MaxUnits → Option L0MicroCache) {i : Fin l0MaxUnits} (hi : i ∉ us) :
    (initUnits pool us caches).1 i = caches i := by
  induction us generalizing caches with
  | nil => rfl
  | cons v us ih =>
    have hv : i ≠ v := List.ne_of_not_mem_cons hi
    rw [initUnits]
    split
    · rw [ih _ (List.not_mem_of_not_mem_cons hi), Function.update_of_ne hv]
    · exact Function.update_of_ne hv ..

lemma mem_take_finRange {n : Nat} {i : Fin l0MaxUnits}
    (hi : i ∈ (List.finRange l0MaxUnits).take n) : i.val < n := by
  obtain ⟨k, hk, rfl⟩ := List.mem_take_iff_getElem.mp hi
  rw [List.getElem_finRange]
  exact Nat.lt_of_lt_of_le hk (Nat.min_le_left ..)

lemma mem_drop_finRange {n : Nat} {i : Fin l0MaxUnits}
    (hi : i ∈ (List.finRange l0MaxUnits).drop n) : n ≤ i.val := by
  obtain ⟨k, hk, rfl⟩ := List.mem_drop_iff_getElem.mp hi
  rw [List.getElem_finRange]
  exact Nat.le_add_right n k

lemma complete_init {pool : Nat → Bool} {activeUnits : UInt32}
    (hinit : (l0CacheInit pool activeUnits).2 = .success) :
    Complete (l0CacheInit pool activeUnits).1 (Pads.init activeUnits) where
  active u hu := by
    rw [Pads.init, ← active_init pool activeUnits, if_pos hu]
    rfl
  others i hi := by
    have hother := initUnits_other pool _ (fun _ => none) fun hmem =>
      Nat.not_lt.mpr hi (mem_take_finRange hmem)
    rw [l0CacheInit_success hinit] at hother
    exact hother

lemma active_after (g : L0Globals) (op : Op) : (g.after op).gL0ActiveUnits = g.gL0ActiveUnits := by
  cases op with
  | read v b data size =>
    rw [L0Globals.after, l0CacheRead]
    split <;> rfl
  | write v b data size =>
    rw [L0Globals.after, l0CacheWrite]
    split <;> rfl
  | invalidate b => rfl

/-- No call sets up a unit. -/
lemma caches_after {i : Fin l0MaxUnits} (h : g.gL0Caches i = none) (op : Op) :
    (g.after op).gL0Caches i = none := by
  have hother {v : UInt32} {j : Fin l0MaxUnits} {c : L0MicroCache}
      (hready : g.ready v = some (j, c)) : i ≠ j := by
    rintro rfl
    obtain ⟨-, -, hcache, -⟩ := ready_eq_some.mp hready
    cases h.symm.trans hcache
  cases op with
  | read v b data size =>
    rw [L0Globals.after, l0CacheRead]
    split
    next => exact h
    next hready => exact (Function.update_of_ne (hother hready) ..).trans h
  | write v b data size =>
    rw [L0Globals.after, l0CacheWrite]
    split
    next => exact h
    next hready => exact (Function.update_of_ne (hother hready) ..).trans h
  | invalidate b =>
    rw [L0Globals.after, l0CacheInvalidate]
    dsimp only
    rw [h]
    rfl

lemma Complete.after (h : Complete g pads) (op : Op) :
    Complete (g.after op) (pads.after op) where
  active u hu := by
    rw [active_after] at hu
    rw [Pads.after, Option.isSome_map]
    exact h.active u hu
  others i hi := by
    rw [active_after] at hi
    exact caches_after (h.others i hi) op

lemma Represents.printAggregateStats (h : Represents g pads) (hcomplete : Complete g pads) :
    l0CachePrintAggregateStats g = (pads.total g.gL0ActiveUnits.toNat).printed := by
  refine h.totals _ (fun i hi => hcomplete.active _ ?_) ⟨0, 0, 0⟩
  exact (toNat_ofNat_unit i.isLt).trans_lt (mem_take_finRange hi)

/-- Units that are not there add nothing. -/
lemma foldl_add_none (us : List (Fin l0MaxUnits)) (hus : ∀ i ∈ us, g.gL0Caches i = none)
    (t : L0Totals) : us.foldl (fun t u => t.add (g.gL0Caches u)) t = t := by
  induction us with
  | nil => rfl
  | cons i us ih =>
    rw [List.foldl_cons, hus i List.mem_cons_self]
    exact ih fun k hk => hus k (List.mem_cons_of_mem _ hk)

lemma Complete.v71PrintAggregateStats (h : Complete g pads) :
    l0CacheV71PrintAggregateStats g = l0CachePrintAggregateStats g := by
  rw [l0CacheV71PrintAggregateStats, L0Globals.totals,
    ← List.take_append_drop g.gL0ActiveUnits.toNat (List.finRange l0MaxUnits), List.foldl_append]
  exact foldl_add_none _ (fun i hi => h.others i (mem_drop_finRange hi)) _

/-- The stores stay those of the units through any calls. -/
lemma Represents.foldl (h : Represents g pads) (hcomplete : Complete g pads) (ops : List Op) :
    Represents (ops.foldl L0Globals.after g) (ops.foldl Pads.after pads) ∧
      Complete (ops.foldl L0Globals.after g) (ops.foldl Pads.after pads) ∧
        (ops.foldl L0Globals.after g).gL0ActiveUnits = g.gL0ActiveUnits := by
  induction ops generalizing g pads with
  | nil => exact ⟨h, hcomplete, rfl⟩
  | cons op ops ih =>
    obtain ⟨hunits, hall, hactive⟩ := ih (h.after op) (hcomplete.after op)
    exact ⟨hunits, hall, hactive.trans (active_after g op)⟩

/-- Each unit holds the blocks and the bytes of its store, and the statistics print the counts of
the stores. -/
structure Agrees (activeUnits : Nat) (g : L0Globals) (pads : Pads) : Prop where
  units : Represents g pads
  printStats u p : pads u = some p → l0CachePrintStats g u = some p.printed
  printAggregateStats : l0CachePrintAggregateStats g = (pads.total activeUnits).printed
  v71PrintAggregateStats : l0CacheV71PrintAggregateStats g = (pads.total activeUnits).printed

/-- After a successful `L0CacheInit` any calls answer what the stores answer, and leave the units in
agreement with the stores. -/
theorem l0_refines {pool : Nat → Bool} {activeUnits : UInt32}
    (hinit : (l0CacheInit pool activeUnits).2 = .success) (ops : List Op) :
    (l0CacheInit pool activeUnits).1.answers ops = (Pads.init activeUnits).answers ops ∧
      Agrees (min activeUnits.toNat l0MaxUnits)
        (ops.foldl L0Globals.after (l0CacheInit pool activeUnits).1)
        (ops.foldl Pads.after (Pads.init activeUnits)) := by
  have hunits := represents_init hinit
  obtain ⟨hafter, hcomplete, hactive⟩ := hunits.foldl (complete_init hinit) ops
  have htotals := hafter.printAggregateStats hcomplete
  rw [hactive, active_init] at htotals
  exact ⟨hunits.answers ops, hafter, fun u p => hafter.printStats, htotals,
    hcomplete.v71PrintAggregateStats.trans htotals⟩

/-- A byte written by one unit, read back by it, and not seen by the other. -/
theorem l0_refines_twoUnits : l0CachePrintAggregateStats
    (([.write 0 0x1041 (some fun _ => 5) 1, .read 0 0x1041 none 1, .read 1 0x1041 none 1] :
      List Op).foldl L0Globals.after (l0CacheInit (fun _ => true) 2).1) = ⟨3, 1, 1, 1⟩ :=
  (l0_refines rfl _).2.printAggregateStats.trans (by decide)

end Bemi.L0
