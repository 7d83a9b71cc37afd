import Bemi.TCache.Represents

/-!
# The chains of the trace cache over whole runs

A new entry that takes an address no chain passes through goes in front of its chain. Once the
arena has wrapped, `NextAlloc` points at an entry that is still linked: a new entry there closes its
chain into a cycle, or ends up on the chain of another bucket. `chainsEnd_iff` says that nothing else
goes wrong.
-/

namespace Bemi.TCache
open Chain Transition

/-- Following `Next` from every bucket head reaches `NULL`, and the valid entries on the way belong
to the bucket. -/
def WellLinked (s : TraceCache) : Prop :=
  ∀ b, ∃ l, Ends s.next 0 (s.buckets b) l ∧ ∀ a ∈ l, (s.heap a).valid = true →
    traceCacheHash (s.heap a).rip (s.heap a).context = b

/-- Every call returns. -/
def Terminates (s : TraceCache) : Prop :=
  ∀ op, ∃ answer s', Step s op answer s'

lemma wellLinked_iff {s : TraceCache} : WellLinked s ↔ ∃ chains, Linked s chains := by
  constructor
  · intro h
    choose chains hends hhash using h
    exact ⟨chains, hends, hhash⟩
  · rintro ⟨chains, h⟩ b
    exact ⟨chains b, h.ends b, h.hash b⟩

/-- If the call creates an entry, no chain passes through the address that it takes. -/
def StepFresh (ev : Event TraceCache Op (Option UInt64)) : Prop :=
  Creates ev.before ev.op → ∀ b, ¬ OnChain ev.before b ev.before.header.alloc

/-- A call keeps the chains exactly when it takes no address from them. -/
lemma Linked.step_iff {s s' : TraceCache} {chains : Bucket → List UInt64} (h : Linked s chains)
    {op : Op} {answer : Option UInt64} (st : Step s op answer s') :
    WellLinked s' ↔ StepFresh ⟨s, op, answer⟩ := by
  have other {d : UInt64 → Prop} (hframe : Frame d s s') (hnot : ¬ Creates s op) :
      WellLinked s' ↔ StepFresh ⟨s, op, answer⟩ :=
    iff_of_true (wellLinked_iff.mpr ⟨chains, hframe.linked h⟩) fun hcreates => absurd hcreates hnot
  cases h.outcome st with
  | refused hready =>
    refine other (Same.refl s) fun hcreates => ?_
    rw [(h.creates_iff.mp hcreates).1] at hready
    cases hready
  | @found _ _ p _ _ hp hfor hsame _ =>
    refine other hsame fun hcreates => ?_
    rw [(h.creates_iff.mp hcreates).2 p hp] at hfor
    cases hfor
  | @created rip context s₁ _ hready hnone hframe _ =>
    have h₁ := hframe.linked h
    have hfresh : StepFresh ⟨s, .insert rip context, some s.header.alloc⟩ ↔
        ∀ b, s₁.header.alloc ∉ chains b := by
      simp only [StepFresh, h.onChain_iff, hframe.alloc_eq]
      exact ⟨fun hf => hf (h.creates_iff.mpr ⟨hready, hnone⟩), fun hf _ => hf⟩
    rw [hfresh, wellLinked_iff]
    exact ⟨fun ⟨_, h'⟩ => h₁.not_create h', fun hf => ⟨_, h₁.create hf⟩⟩
  | lookup hsame _ _ => exact other hsame nofun
  | pinEntry hsame _ => exact other hsame nofun
  | unpinEntry hsame _ => exact other hsame nofun
  | invalidate hframe _ => exact other hframe nofun

/-- In a run from `TraceCacheInit` all chains end, their valid entries hash to their bucket and every
call returns, in every state, exactly when each new entry takes an address that is on no chain. -/
theorem chainsEnd_iff (heap : Heap) {baseAddress size : UInt64}
    (_htable : TableBehindHeader baseAddress size)
    {tr : List (Event TraceCache Op (Option UInt64))} {s : TraceCache}
    (run : Run Step (traceCacheInit heap baseAddress size).1 tr s) :
    Always (fun s => WellLinked s ∧ Terminates s) tr s ↔ ∀ ev ∈ tr, StepFresh ev := by
  have linked {s s' : TraceCache} {op : Op} {answer : Option UInt64} (h : WellLinked s)
      (st : Step s op answer s') : WellLinked s' ↔ StepFresh ⟨s, op, answer⟩ := by
    obtain ⟨chains, h⟩ := wellLinked_iff.mp h
    exact h.step_iff st
  have hiff := Run.always_iff (I := WellLinked) (P := fun s => WellLinked s ∧ Terminates s)
    (Q := fun _ => True) (C := StepFresh) (fun b => ⟨[], .nil, nofun⟩)
    (fun _ _ _ _ h st hfresh => (linked h st).mpr hfresh)
    (fun s h => by
      obtain ⟨chains, hl⟩ := wellLinked_iff.mp h
      refine ⟨h, fun op => ?_⟩
      obtain ⟨answer, s', st, -⟩ := hl.step_exists op
      exact ⟨answer, s', st⟩)
    (fun _ _ _ _ _ _ _ => trivial)
    (fun _ _ _ _ h st _ hnext => (linked h st).mp hnext.1) run
  simpa using hiff

theorem chainsEnd_iff_insert : ∃ tr s,
    Run Step (traceCacheInit (fun _ => default) 0x100000 0x100000).1 tr s ∧
      tr.map Event.op = [.insert 0x1000 0] ∧
      Always (fun s => WellLinked s ∧ Terminates s) tr s := by
  have h := represents_init (fun _ => default) 0x100000 0x100000 (by decide)
  obtain ⟨-, st⟩ := h.insert_step (by decide) (not_present_nil 0x1000 0)
  refine ⟨_, _, .snoc .nil st, rfl, (chainsEnd_iff _ (by decide) (.snoc .nil st)).mpr ?_⟩
  rintro ev hev - b hb
  obtain rfl := List.mem_singleton.mp hev
  cases h.linked.onChain_iff.mp hb

/-! ## After a wrap -/

/-- The instruction pointer that belongs to the last bucket in a context. The head of this bucket
lies behind every entry of the arena below. -/
def lastRip (context : UInt64) : UInt64 :=
  (0xFFFF : UInt64) ^^^ (context <<< 7)

/-- Insertions of different keys with the same hash. -/
def collide (i : Nat) : Op :=
  .insert (lastRip (UInt64.ofNat i)) (UInt64.ofNat i)

lemma traceCacheHash_lastRip (context : UInt64) :
    traceCacheHash (lastRip context) context = 65535 := by
  unfold traceCacheHash lastRip
  simp only [UInt64.xor_assoc, UInt64.xor_self]
  rfl

lemma map_collide_succ (n : Nat) :
    (List.range (n + 1)).map collide = (List.range n).map collide ++ [collide n] := by
  rw [List.range_succ, List.map_append]
  rfl

lemma not_present_collide {n : Nat} (hn : n < 16384) :
    ¬ Present ((List.range n).map collide) (lastRip (UInt64.ofNat n)) (UInt64.ofNat n) := by
  rintro ⟨before, after, h, -⟩
  have hmem : collide n ∈ (List.range n).map collide := by
    rw [h]
    simp [collide]
  obtain ⟨i, hi, heq⟩ := List.mem_map.mp hmem
  have hi := List.mem_range.mp hi
  have := congrArg UInt64.toNat (Op.insert.inj heq).2
  rw [UInt64.toNat_ofNat', UInt64.toNat_ofNat'] at this
  omega

/-- An arena of 16383 entries, filled with the entries of one bucket. -/
lemma fill (n : Nat) (hn : n ≤ 16383) : ∃ tr s chains,
    Run Step (traceCacheInit (fun _ => default) 0x100000 0x100000).1 tr s ∧
      tr.map Event.op = (List.range n).map collide ∧
      Represents (0x100000 + headerSize) (initSize 0x100000 0x100000 - headerSize)
        ((List.range n).map collide) n s chains ∧
      ∀ b, b ≠ 65535 → chains b = [] := by
  induction n with
  | zero => exact ⟨[], _, _, .nil, rfl, represents_init _ _ _ (by decide), fun _ _ => rfl⟩
  | succ n ih =>
    obtain ⟨tr, s, chains, run, hops, h, hchains⟩ := ih (by omega)
    obtain ⟨hnone, st⟩ := h.insert_step (by omega) (not_present_collide (by omega))
    refine ⟨_, _, createdChains s chains (lastRip (UInt64.ofNat n)) (UInt64.ofNat n), run.snoc st,
      ?_, ?_, fun b hb => ?_⟩
    · rw [List.map_append, hops, map_collide_succ]
      rfl
    · rw [map_collide_succ]
      exact h.create (by decide) (by decide) (by change _ ≤ 1048520; omega) (by omega) hnone
    · rw [createdChains, traceCacheHash_lastRip, Function.update_of_ne hb]
      exact hchains b hb

/-- In a region of 1 MB the 16384th key of one bucket takes the address of the first and makes the
chain a cycle. -/
theorem chainsEnd_not : TableBehindHeader 0x100000 0x100000 ∧ ∃ tr s,
    Run Step (traceCacheInit (fun _ => default) 0x100000 0x100000).1 tr s ∧
      tr.map Event.op = (List.range 16384).map collide ∧
      ¬ ∃ l, Ends s.next 0 (s.buckets 65535) l := by
  obtain ⟨tr, s, chains, run, hops, h, hchains⟩ := fill 16383 (Nat.le_refl 16383)
  obtain ⟨-, st⟩ := h.insert_step (by decide) (not_present_collide (by decide))
  -- one more entry would end 56 bytes behind the arena, so it goes to the base
  have halloc : s.header.alloc = 0x100000 + headerSize := by
    have hnext := h.nextAlloc
    rw [TraceCacheHeader.alloc, if_pos, h.baseAddress]
    rw [h.baseAddress, h.size, gt_iff_lt, UInt64.lt_iff_toNat_lt,
      UInt64.toNat_add s.header.nextAlloc, hnext]
    decide
  have hlinked : s.header.alloc ∈ chains 65535 := by
    obtain ⟨b, hb⟩ := (h.arena s.header.alloc).mpr ⟨0, by decide, by rw [halloc]; rfl⟩
    by_cases hlast : b = 65535
    · rwa [hlast] at hb
    · rw [hchains b hlast] at hb
      cases hb
  refine ⟨by decide, _, _, run.snoc st, ?_, ?_⟩
  · rw [List.map_append, hops]
    exact (map_collide_succ 16383).symm
  · rintro ⟨l, hends⟩
    have hhash := traceCacheHash_lastRip (UInt64.ofNat 16383)
    rw [← hhash] at hlinked hends
    exact h.linked.not_ends_create hlinked l hends

end Bemi.TCache
