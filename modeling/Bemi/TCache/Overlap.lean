import Bemi.TCache.Pins
import Bemi.TCache.Refine

/-!
# Entries and the bucket table

The arena of `TraceCacheInit` ends where the region does, and so does the bucket table: behind the
last entry that ends below the table, the next one is written into it. `entriesApart_iff` says how
many entries a region of a given size takes before that.
-/

namespace Bemi.TCache
open Chain Ram Transition

namespace TraceMemory

/-- The `n` bytes at `a` lie in `[lo, hi)`. -/
def Inside (lo hi a : UInt64) (n : Nat) : Prop :=
  lo ≤ a ∧ a.toNat + n ≤ hi.toNat

/-- The bucket table lies in the region. -/
def TableInside (baseAddress size : UInt64) (m : TraceMemory) : Prop :=
  Inside baseAddress (baseAddress + size) m.gTraceBuckets 524288

/-- If the call creates an entry, it lies in the region behind the header, and apart from the bucket
table. -/
def EntryApart (baseAddress size : UInt64) (ev : Event TraceMemory Op (Option UInt64)) : Prop :=
  Creates ev.before.view ev.op → ∀ p, ev.answer = some p →
    Inside (baseAddress + headerSize) (baseAddress + size) p 64 ∧
      ∀ x, Within p 64 x → ¬ Within ev.before.gTraceBuckets 524288 x

/-- How many calls of a run created an entry. -/
noncomputable def created (tr : List (Event TraceMemory Op (Option UInt64))) : Nat :=
  TCache.created (tr.map fun ev => ⟨ev.before.view, ev.op, ev.answer⟩)

/-- The header, `n` entries and the bucket table fit into the region. -/
def Takes (size : UInt64) (n : Nat) : Prop :=
  n = 0 ∨ 56 + 64 * n + 524288 ≤ size.toNat

variable {n : Nat} {m m' : TraceMemory} {chains : Bucket → List UInt64} {op : Op}
  {answer : Option UInt64} {baseAddress size : UInt64}
  {tr : List (Event TraceMemory Op (Option UInt64))}

lemma created_concat (tr : List (Event TraceMemory Op (Option UInt64))) (m : TraceMemory) (op : Op)
    (answer : Option UInt64) :
    (¬ Creates m.view op → created (tr ++ [⟨m, op, answer⟩]) = created tr) ∧
      (Creates m.view op → created (tr ++ [⟨m, op, answer⟩]) = created tr + 1) := by
  rw [created, List.map_append]
  exact TCache.created_concat _ m.view op answer

lemma Takes.mono {k : Nat} (h : Takes size k) (hn : n ≤ k) : Takes size n := by
  rcases h with rfl | h
  · exact .inl (Nat.le_zero.mp hn)
  · exact .inr (by omega)

/-! ## Where a new entry goes -/

lemma create_snd (m : TraceMemory) (rip context : UInt64) :
    (m.create rip context).2 = m.header.alloc := by
  rw [create, TraceCacheHeader.alloc]
  dsimp only
  split
  · rw [header_storeNextAlloc]
  · rfl

/-- What an insertion answers is the same with and without room for the entry. -/
lemma insert_answer {fuel : Nat} {rip context p : UInt64} {s' : TraceCache} (h : Placed n m chains)
    (hrun : TCache.traceCacheInsert fuel m.view rip context = some (s', p)) :
    ∃ m', traceCacheInsert fuel m rip context = some (m', p) := by
  rw [TCache.traceCacheInsert] at hrun
  rw [traceCacheInsert]
  split at hrun
  · rename_i hready
    rw [if_pos hready]
    obtain ⟨q, hfind, hq⟩ := Option.bind_eq_some_iff.mp hrun
    rw [hfind, Option.bind_some]
    split at hq
    · rename_i hnull
      obtain ⟨s₁, hspace, hcreate⟩ := Option.map_eq_some_iff.mp hq
      cases hcreate
      obtain ⟨m₁, hm₁, hsim, -⟩ := sim_makeSpace h hspace
      have hheader : m₁.header = s₁.header := hsim.agree.header
      refine ⟨(m₁.create rip context).1, ?_⟩
      rw [if_pos hnull, hm₁, Option.map_some, ← hheader, ← create_snd m₁ rip context]
    · rename_i hnull
      cases hq
      exact ⟨_, if_neg hnull⟩
  · rename_i hready
    cases hrun
    exact ⟨m, if_neg hready⟩

/-- A call that creates an entry answers where the header says. -/
lemma Placed.creates_answer (h : Placed n m chains) (hcreates : Creates m.view op)
    (st : Step m op answer m') : answer = some m.header.alloc := by
  obtain ⟨answer₁, s₁, hsettles, houtcome⟩ := h.linked.step_exists op
  obtain ⟨fuel, hview, hrun⟩ := Settles.both hsettles st
  obtain ⟨rip, context, rfl, hcreates⟩ := hcreates
  obtain ⟨⟨s₂, q⟩, hinsert, heq⟩ := Option.map_eq_some_iff.mp hview
  cases heq
  obtain ⟨m₂, hm₂⟩ := insert_answer h hinsert
  rw [perform, hm₂] at hrun
  cases hrun
  cases houtcome with
  | refused hready => cases hready.symm.trans hcreates.1
  | found _ hp hfor => cases (hcreates.2 _ (h.linked.onChain_iff.mpr hp)).symm.trans hfor
  | created => rfl

/-! ## The region -/

/-- The size is taken as it is given. -/
lemma initSize_eq (hbase : baseAddress ≠ 0) (hsize : 4096 ≤ size) :
    initSize baseAddress size = size :=
  if_neg (not_or.mpr ⟨hbase, UInt64.not_lt.mpr hsize⟩)

/-- The end of the bucket table is that of the region. -/
lemma tableInside_iff (mem : Bytes) (hbase : baseAddress ≠ 0) (hsize : 4096 ≤ size) :
    TableInside baseAddress size (traceCacheInit mem baseAddress size).1 ↔
      baseAddress.toNat + size.toNat < 2 ^ 64 ∧ 524288 ≤ size.toNat := by
  have hlt := baseAddress.toNat_lt
  have hslt := size.toNat_lt
  have hpos : 0 < baseAddress.toNat :=
    Nat.pos_of_ne_zero fun h => hbase (UInt64.toNat_inj.mp h)
  rw [TableInside, Inside, init_gTraceBuckets, initSize_eq hbase hsize, UInt64.le_iff_toNat_le,
    UInt64.toNat_sub, UInt64.toNat_add]
  change _ ≤ (2 ^ 64 - 524288 + _) % _ ∧ (2 ^ 64 - 524288 + _) % _ + _ ≤ _ ↔ _
  omega

/-- A cache in a region, its bucket table at the end of the region. -/
structure InRegion (baseAddress size : UInt64) (m : TraceMemory) : Prop where
  gTraceCache : m.gTraceCache = baseAddress
  table : m.gTraceBuckets.toNat + 524288 = baseAddress.toNat + size.toNat
  region : baseAddress.toNat + size.toNat < 2 ^ 64

/-- A new entry is as it should be exactly when it starts behind the header and ends below the
table. -/
lemma InRegion.entryApart_iff (h : InRegion baseAddress size m) {i : Nat}
    (hcreates : Creates m.view op) {p : UInt64} (hp : p.toNat = baseAddress.toNat + 56 + 64 * i)
    (hi : 64 * i + 524288 ≤ size.toNat) :
    EntryApart baseAddress size ⟨m, op, some p⟩ ↔ Takes size (i + 1) := by
  obtain ⟨-, htable, hregion⟩ := h
  have hplt := p.toNat_lt
  rw [EntryApart]
  dsimp only
  constructor
  · intro hapart
    obtain ⟨-, hdisjoint⟩ := hapart hcreates p rfl
    by_contra hnot
    have hover : ¬ 56 + 64 * (i + 1) + 524288 ≤ size.toNat := fun hle => hnot (.inr hle)
    -- the first byte of the table, or of the entry if the table starts before it
    rcases Nat.le_total p.toNat m.gTraceBuckets.toNat with hle | hle
    · refine hdisjoint m.gTraceBuckets ((within_iff (by omega)).mpr (by omega)) ?_
      exact (within_iff (by omega)).mpr (by omega)
    · refine hdisjoint p ((within_iff (by omega)).mpr (by omega)) ?_
      exact (within_iff (by omega)).mpr (by omega)
  · intro htakes _ q hq
    obtain rfl := Option.some.inj hq
    have hfit := htakes.resolve_left (Nat.succ_ne_zero i)
    refine ⟨⟨?_, ?_⟩, fun x hx => hx.not_within (by omega) (by omega) (.inl (by omega))⟩
    · rw [UInt64.le_iff_toNat_le, UInt64.toNat_add]
      change (_ + 56) % _ ≤ _
      omega
    · rw [UInt64.toNat_add, Nat.mod_eq_of_lt hregion]
      omega

/-- A cache with `n` entries created in its region, none of them in the table. There is no entry if
the table reaches into the header, and then the first one would start in the table. -/
structure Clear (baseAddress size : UInt64) (n : Nat) (m : TraceMemory) : Prop where
  inRegion : InRegion baseAddress size m
  large : 524288 ≤ size.toNat
  entries : (∃ chains, Stacked n m.view chains) ∨
    n = 0 ∧ size.toNat < 524288 + 56 ∧ (∀ b, m.view.buckets b = 0) ∧
      (m.view.ready = true → m.header.alloc.toNat = baseAddress.toNat + 56)

lemma clear_init (mem : Bytes) (hbase : baseAddress ≠ 0) (hsize : 4096 ≤ size)
    (hregion : baseAddress.toNat + size.toNat < 2 ^ 64) (hlarge : 524288 ≤ size.toNat) :
    Clear baseAddress size 0 (traceCacheInit mem baseAddress size).1 := by
  have hinit := initSize_eq hbase hsize
  have hregion' : baseAddress.toNat + (initSize baseAddress size).toNat < 2 ^ 64 := by
    rw [hinit]
    exact hregion
  have htable := init_table mem hregion' (by rw [hinit]; exact hlarge)
  rw [hinit] at htable
  refine ⟨⟨init_gTraceCache .., htable, hregion⟩, hlarge, ?_⟩
  rcases Nat.lt_or_ge size.toNat (524288 + 56) with hsmall | hroom
  · exact .inr ⟨rfl, hsmall, init_bucket mem baseAddress size,
      fun hready => (init_alloc mem hregion' hready).2⟩
  · exact .inl ⟨_, init_stacked mem hbase hregion' (by rw [hinit]; exact hroom)⟩

/-- A call that creates nothing leaves the cache clear. -/
lemma Clear.idle (h : Clear baseAddress size n m) (hnot : ¬ Creates m.view op)
    (st : Step m op answer m') : Clear baseAddress size n m' := by
  obtain ⟨⟨hg, htable, hregion⟩, hlarge, ⟨chains, hstacked⟩ | ⟨hn, hsmall, hempty, halloc⟩⟩ := h
  · obtain ⟨k, chains', s', hk, -, h', -, hsim⟩ :=
      stacked_step hstacked (fun hc => absurd hc hnot) st
    obtain rfl : k = n := (hk.resolve_right fun hc => hnot hc.1).2
    exact ⟨⟨hsim.gTraceCache.trans hg, hsim.gTraceBuckets ▸ htable, hregion⟩, hlarge,
      .inl ⟨chains', h'⟩⟩
  · obtain ⟨hempty', hready, -, halloc', -, hg', hb'⟩ := empty_step hempty hnot st
    refine ⟨⟨hg'.trans hg, hb' ▸ htable, hregion⟩, hlarge, .inr ⟨hn, hsmall, hempty', fun hr => ?_⟩⟩
    rw [halloc']
    exact halloc (hready ▸ hr)

/-- The entry that a call creates is as it should be exactly when the region takes it, and then the
cache stays clear. -/
lemma Clear.creates (h : Clear baseAddress size n m) (hcreates : Creates m.view op)
    (st : Step m op answer m') :
    (EntryApart baseAddress size ⟨m, op, answer⟩ ↔ Takes size (n + 1)) ∧
      (Takes size (n + 1) → Clear baseAddress size (n + 1) m') := by
  obtain ⟨hin, hlarge, ⟨chains, hstacked⟩ | ⟨rfl, hsmall, hempty, halloc⟩⟩ := h
  · have hnext : m.header.nextAlloc.toNat = m.gTraceCache.toNat + 56 + 64 * n := hstacked.nextAlloc
    have hbelow : m.gTraceCache.toNat + 56 + 64 * n ≤ m.gTraceBuckets.toNat := hstacked.below
    have htable := hin.table
    have hregion := hin.region
    rw [hin.gTraceCache] at hnext hbelow
    have hplaced : Placed n m chains := ⟨hstacked.linked, hstacked.inArena,
      fun _ _ _ => layout_of_stacked hstacked hstacked.below⟩
    have hfits : m.header.alloc = m.header.nextAlloc := by
      have hend : (m.header.baseAddress + m.header.size).toNat = m.gTraceBuckets.toNat + 524288 :=
        hstacked.arenaEnd
      refine if_neg ?_
      rw [gt_iff_lt, UInt64.lt_iff_toNat_lt, hend, UInt64.toNat_add]
      change ¬ _ < (_ + 64) % _
      omega
    rw [hplaced.creates_answer hcreates st, hfits]
    refine ⟨hin.entryApart_iff hcreates hnext (by omega), fun htakes => ?_⟩
    have hfit := htakes.resolve_left (Nat.succ_ne_zero n)
    obtain ⟨k, chains', s', hk, -, h', -, hsim⟩ := stacked_step hstacked (fun _ => by
      change m.header.nextAlloc.toNat + 64 ≤ m.gTraceBuckets.toNat
      omega) st
    obtain rfl : k = n + 1 := (hk.resolve_left fun hc => hc.1 hcreates).2
    exact ⟨⟨hsim.gTraceCache.trans hin.gTraceCache, hsim.gTraceBuckets ▸ htable, hregion⟩, hlarge,
      .inl ⟨chains', h'⟩⟩
  · have hlinked : Linked m.view fun _ => [] := ⟨fun b => by rw [hempty]; exact .nil, nofun⟩
    have hplaced : Placed 0 m fun _ => [] := ⟨hlinked, nofun, nofun⟩
    have hready : m.view.ready = true := by
      obtain ⟨_, _, -, hready, -⟩ := hcreates
      exact hready
    rw [hplaced.creates_answer hcreates st]
    refine ⟨hin.entryApart_iff hcreates (halloc hready) (by omega), fun htakes => ?_⟩
    have hfit := htakes.resolve_left Nat.one_ne_zero
    omega

/-- In a run on any region the bucket table lies in the region, and every new entry lies behind the
header and apart from the table, exactly when the region ends within the address space and takes
the header, the table and all entries that the run creates. -/
theorem entriesApart_iff (mem : Bytes) {baseAddress size : UInt64} (hbase : baseAddress ≠ 0)
    (hsize : 4096 ≤ size) {tr : List (Event TraceMemory Op (Option UInt64))} {m : TraceMemory}
    (run : Run Step (traceCacheInit mem baseAddress size).1 tr m) :
    (TableInside baseAddress size (traceCacheInit mem baseAddress size).1 ∧
        ∀ ev ∈ tr, EntryApart baseAddress size ev) ↔
      baseAddress.toNat + size.toNat < 2 ^ 64 ∧ 524288 ≤ size.toNat ∧ Takes size (created tr) := by
  rw [tableInside_iff mem hbase hsize, and_assoc]
  refine and_congr_right fun hregion => and_congr_right fun hlarge => ?_
  -- as long as the region takes what was created so far, the cache is clear
  let I (tr : List (Event TraceMemory Op (Option UInt64))) (m : TraceMemory) : Prop :=
    ((∀ ev ∈ tr, EntryApart baseAddress size ev) ↔ Takes size (created tr)) ∧
      (Takes size (created tr) → Clear baseAddress size (created tr) m)
  suffices hI : I tr m from hI.1
  refine run.history (I := I) ?_ ?_
  · exact ⟨⟨fun _ => .inl rfl, nofun⟩, fun _ => clear_init mem hbase hsize hregion hlarge⟩
  · rintro tr m op answer m' ⟨hiff, hclear⟩ st
    obtain ⟨hold, hnew⟩ := created_concat tr m op answer
    change (_ ↔ _) ∧ _
    rw [forall_mem_snoc, hiff]
    by_cases hcreates : Creates m.view op
    · rw [hnew hcreates]
      by_cases htakes : Takes size (created tr)
      · obtain ⟨hapart, hkeep⟩ := (hclear htakes).creates hcreates st
        rw [hapart]
        exact ⟨⟨fun h => h.2, fun h => ⟨htakes, h⟩⟩, hkeep⟩
      · have hnot : ¬ Takes size (created tr + 1) := fun h => htakes (h.mono (Nat.le_succ _))
        exact ⟨⟨fun h => absurd h.1 htakes, fun h => absurd h hnot⟩, fun h => absurd h hnot⟩
    · rw [hold hcreates]
      exact ⟨⟨fun h => h.1, fun h => ⟨h, fun hc => absurd hc hcreates⟩⟩,
        fun h => (hclear h).idle hcreates st⟩

/-- A region of four megabytes takes a first entry. -/
theorem entriesApart_iff_insert : ∃ ev m,
    Run Step (traceCacheInit (fun _ => 0) 0x100000 0x400000).1 [ev] m ∧ ev.op = .insert 2 0 ∧
      TableInside 0x100000 0x400000 (traceCacheInit (fun _ => 0) 0x100000 0x400000).1 ∧
        EntryApart 0x100000 0x400000 ev := by
  have hregion : (0x100000 : UInt64).toNat + (initSize 0x100000 0x400000).toNat < 2 ^ 64 := by decide
  obtain ⟨m, p, st, -⟩ := insert_first (fun _ => 0) (by decide) hregion (by decide) 2 0
  have run : Run Step (traceCacheInit (fun _ => 0) 0x100000 0x400000).1 [_] m := Run.nil.snoc st
  have hcreated : created [⟨(traceCacheInit (fun _ => 0) 0x100000 0x400000).1, .insert 2 0, some p⟩] ≤
      1 := List.countP_le_length
  have htakes : Takes 0x400000 1 := .inr (by decide)
  obtain ⟨htable, hentries⟩ := (entriesApart_iff (fun _ => 0) (by decide) (by decide) run).mpr
    ⟨by decide, by decide, htakes.mono hcreated⟩
  exact ⟨_, m, run, rfl, htable, hentries _ (List.mem_singleton_self _)⟩

/-- A region of a page has no room for the bucket table, which is put in front of it. In one with
room for one entry below the table, the second one is put into the table. -/
theorem entriesApart_not :
    ¬ TableInside 0x100000 0x1000 (traceCacheInit (fun _ => 0) 0x100000 0x1000).1 ∧
      ∃ tr m, Run Step (traceCacheInit (fun _ => 0) 0x100000 0x80078).1 tr m ∧
        tr.map Event.op = [.insert 2 0, .insert 0x100 0] ∧
          ¬ ∀ ev ∈ tr, EntryApart 0x100000 0x80078 ev := by
  refine ⟨fun h => ?_, ?_⟩
  · exact absurd ((tableInside_iff _ (by decide) (by decide)).mp h).2 (by decide)
  · have hregion : (0x100000 : UInt64).toNat + (initSize 0x100000 0x80078).toNat < 2 ^ 64 := by
      decide
    obtain ⟨m₁, p, st₁, -, hsingle, -⟩ :=
      insert_first (fun _ => 0) (by decide) hregion (by decide) 2 0
    obtain ⟨hnext, -, hready, hnull, st₂⟩ := Single.second hsingle
    refine ⟨_, _, (Run.nil.snoc st₁).snoc st₂, rfl, fun h => ?_⟩
    have hcreates : Creates m₁.view (.insert 0x100 0) := by
      refine ⟨0x100, 0, rfl, hready, fun a ha => ?_⟩
      rw [OnChain, hnull] at ha
      cases ha with
      | here hne => exact absurd rfl hne
      | step hne => exact absurd rfl hne
    obtain ⟨-, hdisjoint⟩ := (forall_mem_snoc.mp h).2 hcreates _ rfl
    refine hdisjoint 0x100078 ?_ ?_
    · rw [hnext, Within]
      decide
    · change Within m₁.gTraceBuckets _ _
      rw [hsingle.gTraceBuckets, Within]
      decide

end TraceMemory

end Bemi.TCache
