import Bemi.L0.Coherence
import Bemi.Lib.Since

/-!
# Hits and the history of calls

A unit's cache is direct-mapped: line `i` holds the block of index `i` that the unit accessed last,
unless that has been invalidated. So the calls made since `L0CacheInit` tell which reads hit, and
those of other units do not matter.
-/

namespace Bemi.L0
open History

/-- The caches after a call. -/
def L0Globals.after (g : L0Globals) : Op → L0Globals
  | .read unitId physAddr data size => (l0CacheRead g unitId physAddr data size).1
  | .write unitId physAddr data size => (l0CacheWrite g unitId physAddr data size).1
  | .invalidate physAddr => l0CacheInvalidate g physAddr

/-- A read or write of unit `u` in the block of `a`. -/
def Touches (u : UInt32) (a : UInt64) : Op → Prop
  | .read unitId b _ _ | .write unitId b _ _ => unitId = u ∧ block b = block a
  | .invalidate _ => False

/-- A read or write of unit `u` in another block with the index of `a`, or an invalidation of the
block of `a`. -/
def Displaces (u : UInt32) (a : UInt64) : Op → Prop
  | .read unitId b _ _ | .write unitId b _ _ =>
    unitId = u ∧ block b ≠ block a ∧ l0CacheIndex b = l0CacheIndex a
  | .invalidate b => block b = block a

/-- The call is not an access of unit `u`. -/
def Foreign (u : UInt32) : Op → Prop
  | .read unitId _ _ _ | .write unitId _ _ _ => unitId ≠ u
  | .invalidate _ => True

/-- A call takes at most the one line that holds the block that it invalidates. -/
def KeepsLines (op : Op) (c c' : L0MicroCache) : Prop :=
  ∀ j, c'.lines j = c.lines j ∨ ∃ b, op = .invalidate b ∧ c.hit b = true ∧ j = l0CacheIndex b ∧
    c'.lines j = { c.lines j with valid := false }

variable {c : L0MicroCache} {g : L0Globals} {u : UInt32} {a b : UInt64}

/-! ## One cache -/

/-- After its line has been filled a block is there, and the others of its index are not. -/
lemma hit_update {c' : L0MicroCache} {line : L0CacheLine}
    (hlines : c'.lines = Function.update c.lines (l0CacheIndex b) line)
    (hvalid : line.valid = true) (htag : line.tag = l0CacheTag b) :
    c'.hit a = true ↔ block b = block a ∨
      c.hit a = true ∧ ¬ (block b ≠ block a ∧ l0CacheIndex b = l0CacheIndex a) := by
  rw [hit_iff, hlines]
  by_cases hindex : l0CacheIndex b = l0CacheIndex a
  · rw [← hindex, Function.update_self, htag, and_iff_right hvalid]
    constructor
    · intro htags
      exact .inl (block_eq_iff.mpr ⟨hindex, htags⟩)
    · rintro (hblock | ⟨-, hnot⟩)
      · exact (block_eq_iff.mp hblock).2
      · exact (block_eq_iff.mp (not_not.mp fun hne => hnot ⟨hne, rfl⟩)).2
  · rw [Function.update_of_ne (Ne.symm hindex), ← hit_iff]
    constructor
    · intro hhit
      exact .inr ⟨hhit, fun hboth => hindex hboth.2⟩
    · rintro (hblock | ⟨hhit, -⟩)
      · exact absurd (block_eq_iff.mp hblock).1 hindex
      · exact hhit

lemma hit_read (data : Option Buffer) (size : UInt64) : (c.read b data size).1.hit a = true ↔
    block b = block a ∨
      c.hit a = true ∧ ¬ (block b ≠ block a ∧ l0CacheIndex b = l0CacheIndex a) := by
  cases hhit : c.hit b with
  | false => exact hit_update (read_miss hhit data size).1 rfl rfl
  | true =>
    have hlines : (c.read b data size).1.lines =
        Function.update c.lines (l0CacheIndex b) (c.lines (l0CacheIndex b)) := by
      rw [Function.update_eq_self]
      exact (read_hit hhit data size).1
    exact hit_update hlines (hit_iff.mp hhit).1 (hit_iff.mp hhit).2

lemma hit_write (data : Option Buffer) (size : UInt64) : (c.write b data size).hit a = true ↔
    block b = block a ∨
      c.hit a = true ∧ ¬ (block b ≠ block a ∧ l0CacheIndex b = l0CacheIndex a) := by
  obtain ⟨hvalid, htag⟩ := lineBefore_tag c b
  obtain ⟨htag', hvalid'⟩ := copyIn_tag (c.lineBefore b) b data size
  exact hit_update rfl (hvalid'.trans hvalid) (htag'.trans htag)

/-- What an invalidation does to the lines. -/
lemma invalidate_lines (j : Fin l0CacheLines) : (c.invalidate b).lines j =
    if c.hit b = true ∧ j = l0CacheIndex b then { c.lines j with valid := false }
    else c.lines j := by
  rw [L0MicroCache.invalidate]
  by_cases hhit : c.hit b = true
  · by_cases hj : j = l0CacheIndex b
    · rw [if_pos hhit, if_pos ⟨hhit, hj⟩, hj]
      exact Function.update_self ..
    · rw [if_pos hhit, if_neg fun h => hj h.2]
      exact Function.update_of_ne hj ..
  · rw [if_neg hhit, if_neg fun h => hhit h.1]

lemma hit_invalidate :
    (c.invalidate b).hit a = true ↔ c.hit a = true ∧ block b ≠ block a := by
  rw [hit_iff, invalidate_lines]
  split
  · rename_i hline
    obtain ⟨hb, hindex⟩ := hline
    refine iff_of_false (fun h => Bool.false_ne_true h.1) fun h => h.2 ?_
    exact block_of_hits hb h.1 hindex.symm
  · rename_i hline
    rw [← hit_iff]
    refine (and_iff_left_of_imp fun ha hblock => hline ⟨?_, ?_⟩).symm
    · rw [hit_of_block hblock]
      exact ha
    · exact (block_eq_iff.mp hblock).1.symm

/-! ## The units -/

/-- The unit is there, and its cache holds the block of `a`. -/
def L0Globals.Holds (g : L0Globals) (u : UInt32) (a : UInt64) : Prop :=
  ∃ i c, g.ready u = some (i, c) ∧ c.hit a = true

/-- The unit is there. -/
def L0Globals.Active (g : L0Globals) (u : UInt32) : Prop :=
  ∃ i c, g.ready u = some (i, c)

lemma read_success_iff (data : Option Buffer) (size : UInt64) :
    (l0CacheRead g u a data size).2.1 = .success ↔ g.Holds u a := by
  rw [L0Globals.Holds, l0CacheRead]
  cases hready : g.ready u with
  | none => simp
  | some p =>
    obtain ⟨i, c⟩ := p
    cases hhit : c.hit a with
    | true => simp [read_hit hhit, hhit]
    | false => simp [read_miss hhit, hhit]

/-- What a call does to the cache of unit `u`. -/
def L0MicroCache.after (c : L0MicroCache) (u : UInt32) : Op → L0MicroCache
  | .read unitId physAddr data size =>
    if u = unitId then (c.read physAddr data size).1 else c
  | .write unitId physAddr data size => if u = unitId then c.write physAddr data size else c
  | .invalidate physAddr => c.invalidate physAddr

lemma ready_after (g : L0Globals) (u : UInt32) (op : Op) :
    (g.after op).ready u = (g.ready u).map fun p => (p.1, p.2.after u op) := by
  cases op with
  | read v b data size =>
    refine (ready_read g v b data size u).trans ?_
    simp only [L0MicroCache.after]
    split
    · rfl
    · exact Option.map_id'.symm
  | write v b data size =>
    refine (ready_write g v b data size u).trans ?_
    simp only [L0MicroCache.after]
    split
    · rfl
    · exact Option.map_id'.symm
  | invalidate b => exact ready_invalidate g b u

/-- An access makes its block present on its own unit, and displaces another one there. -/
lemma hit_access {c' : L0MicroCache} {v : UInt32} (h : c'.hit a = true ↔ block b = block a ∨
    c.hit a = true ∧ ¬ (block b ≠ block a ∧ l0CacheIndex b = l0CacheIndex a)) :
    (if u = v then c' else c).hit a = true ↔ v = u ∧ block b = block a ∨
      c.hit a = true ∧ ¬ (v = u ∧ block b ≠ block a ∧ l0CacheIndex b = l0CacheIndex a) := by
  by_cases hv : u = v
  · rw [if_pos hv, h, and_iff_right hv.symm, and_iff_right hv.symm]
  · have hnot : ¬ v = u := fun heq => hv heq.symm
    rw [if_neg hv]
    simp [hnot]

lemma hit_after (op : Op) :
    (c.after u op).hit a = true ↔ Touches u a op ∨ c.hit a = true ∧ ¬ Displaces u a op := by
  cases op with
  | read v b data size => exact hit_access (hit_read data size)
  | write v b data size => exact hit_access (hit_write data size)
  | invalidate b => exact hit_invalidate.trans (or_iff_right not_false).symm

/-- A call that is not an access of the unit keeps its lines. -/
lemma keepsLines_after {op : Op} (hop : Foreign u op) : KeepsLines op c (c.after u op) := by
  intro j
  cases op with
  | read v b data size =>
    refine .inl ?_
    rw [L0MicroCache.after, if_neg (Ne.symm hop)]
  | write v b data size =>
    refine .inl ?_
    rw [L0MicroCache.after, if_neg (Ne.symm hop)]
  | invalidate b =>
    rw [L0MicroCache.after, invalidate_lines]
    split
    · rename_i hline
      exact .inr ⟨b, rfl, hline.1, hline.2, rfl⟩
    · exact .inl rfl

/-! ## After `L0CacheInit` -/

/-- An allocating loop that runs to its end has set up its units. -/
lemma initUnits_all (pool : Nat → Bool) (us : List (Fin l0MaxUnits))
    (caches : Fin l0MaxUnits → Option L0MicroCache) (h : (initUnits pool us caches).2 = true)
    {i : Fin l0MaxUnits} (hi : i ∈ us ∨ caches i = some freshCache) :
    (initUnits pool us caches).1 i = some freshCache := by
  induction us generalizing caches with
  | nil => exact hi.resolve_left List.not_mem_nil
  | cons v us ih =>
    rw [initUnits] at h ⊢
    by_cases hpool : pool v.val = true
    · rw [if_pos hpool] at h ⊢
      refine ih _ h ?_
      by_cases hv : i = v
      · rw [hv, Function.update_self]
        exact .inr rfl
      · rw [Function.update_of_ne hv]
        exact hi.imp_left fun hmem => (List.mem_cons.mp hmem).resolve_left hv
    · rw [if_neg hpool] at h
      cases h

/-- What the loop of a successful `L0CacheInit` did. -/
lemma l0CacheInit_success {pool : Nat → Bool} {activeUnits : UInt32}
    (hinit : (l0CacheInit pool activeUnits).2 = .success) :
    (initUnits pool ((List.finRange l0MaxUnits).take
        (l0CacheInit pool activeUnits).1.gL0ActiveUnits.toNat) fun _ => none) =
      ((l0CacheInit pool activeUnits).1.gL0Caches, true) := by
  unfold l0CacheInit at hinit ⊢
  dsimp only at hinit ⊢
  split at hinit
  · rename_i heq
    simp only [heq]
  · cases hinit

/-- A successful `L0CacheInit` leaves every active unit with an empty cache. -/
lemma ready_init {pool : Nat → Bool} {activeUnits : UInt32}
    (hinit : (l0CacheInit pool activeUnits).2 = .success)
    (hu : u < (l0CacheInit pool activeUnits).1.gL0ActiveUnits) :
    ∃ i, (l0CacheInit pool activeUnits).1.ready u = some (i, freshCache) := by
  have hlt : u.toNat < (l0CacheInit pool activeUnits).1.gL0ActiveUnits.toNat := hu
  have hle := (l0CacheInit pool activeUnits).1.active_le
  have hunits := l0CacheInit_success hinit
  let i : Fin l0MaxUnits := ⟨u.toNat, Nat.lt_of_lt_of_le hlt hle⟩
  have hmem : i ∈ (List.finRange l0MaxUnits).take
      (l0CacheInit pool activeUnits).1.gL0ActiveUnits.toNat := by
    refine List.mem_take_iff_getElem.mpr ⟨u.toNat, ?_, ?_⟩
    · rw [List.length_finRange]
      omega
    · exact List.getElem_finRange _
  refine ⟨i, ready_eq_some.mpr ⟨hu, rfl, ?_, rfl⟩⟩
  have hall := initUnits_all pool _ (fun _ => none) (congrArg Prod.snd hunits) (.inl hmem)
  rw [hunits] at hall
  exact hall

/-- After a successful `L0CacheInit` a read of an active unit succeeds exactly when the unit has
touched the block before and since the last time neither touched another block of the same index
nor has the block been invalidated. The other calls leave the lines of the unit, but for the line
of an invalidated block. -/
theorem directMapped {pool : Nat → Bool} {activeUnits : UInt32}
    (hinit : (l0CacheInit pool activeUnits).2 = .success) {u : UInt32}
    (hu : u < (l0CacheInit pool activeUnits).1.gL0ActiveUnits) (ops : List Op) :
    (∀ a data size,
      (l0CacheRead (ops.foldl L0Globals.after (l0CacheInit pool activeUnits).1) u a data size).2.1 =
        .success ↔ Since (Touches u a) (Displaces u a) ops) ∧
      ∀ op, Foreign u op → ∃ i c c',
        (ops.foldl L0Globals.after (l0CacheInit pool activeUnits).1).ready u = some (i, c) ∧
          ((ops.foldl L0Globals.after (l0CacheInit pool activeUnits).1).after op).ready u =
            some (i, c') ∧ KeepsLines op c c' := by
  obtain ⟨i, hready⟩ := ready_init hinit hu
  have hactive (g : L0Globals) (op : Op) : g.Active u → (g.after op).Active u := by
    rintro ⟨i, c, h⟩
    refine ⟨i, c.after u op, ?_⟩
    rw [ready_after, h]
    rfl
  constructor
  · intro a data size
    rw [read_success_iff]
    refine foldl_iff_since (I := fun g : L0Globals => g.Active u) (R := fun g => g.Holds u a)
      ⟨i, _, hready⟩ ?_ hactive ?_ ops
    · rintro ⟨i', c, hc, hhit⟩
      rw [hready] at hc
      cases hc
      cases hhit
    · rintro g op ⟨i, c, h⟩
      have hholds (g : L0Globals) {c : L0MicroCache} (h : g.ready u = some (i, c)) :
          g.Holds u a ↔ c.hit a = true := by
        simp [L0Globals.Holds, h]
      have hafter : (g.after op).ready u = some (i, c.after u op) := by
        rw [ready_after, h]
        rfl
      rw [hholds g h, hholds _ hafter, hit_after]
  · intro op hop
    obtain ⟨i, c, h⟩ : (ops.foldl L0Globals.after (l0CacheInit pool activeUnits).1).Active u :=
      ops.foldlRecOn L0Globals.after ⟨i, _, hready⟩ fun g h op _ => hactive g op h
    refine ⟨i, c, c.after u op, h, ?_, keepsLines_after hop⟩
    rw [ready_after, h]
    rfl

/-- A block that has been read hits, until another one of its index is read. -/
theorem directMapped_read :
    (l0CacheRead ([.read 1 0x1040 none 1, .write 0 0x1440 none 1].foldl L0Globals.after
        (l0CacheInit (fun _ => true) 2).1) 1 0x107F none 1).2.1 = .success ∧
      (l0CacheRead ([.read 1 0x1040 none 1, .write 1 0x1440 none 1].foldl L0Globals.after
        (l0CacheInit (fun _ => true) 2).1) 1 0x107F none 1).2.1 ≠ .success := by
  have hinit : (l0CacheInit (fun _ => true) 2).2 = .success := rfl
  have hu : 1 < (l0CacheInit (fun _ => true) 2).1.gL0ActiveUnits := by decide
  have hblock : block 0x1040 = block 0x107F := by decide
  have hother : block 0x1440 ≠ block 0x107F ∧ l0CacheIndex 0x1440 = l0CacheIndex 0x107F := by decide
  constructor
  · refine ((directMapped hinit hu _).1 0x107F none 1).mpr ⟨[], _, _, rfl, ⟨rfl, hblock⟩, ?_⟩
    rintro op hop
    obtain rfl := List.mem_singleton.mp hop
    have hne : ¬ (0 : UInt32) = 1 := by decide
    exact ⟨fun h => hne h.1, fun h => hne h.1⟩
  · intro hsuccess
    have hsince : Since (Touches 1 0x107F) (Displaces 1 0x107F)
        ([.read 1 0x1040 none 1] ++ [.write 1 0x1440 none 1]) :=
      ((directMapped hinit hu _).1 0x107F none 1).mp hsuccess
    rcases since_concat.mp hsince with h | h
    · exact hother.1 h.2
    · exact h.2 ⟨rfl, hother⟩

end Bemi.L0
