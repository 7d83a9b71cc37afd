import Bemi.Rob.V72InFlight

/-!
# Tags go round

The tag counter of the v7.2 reorder buffer runs modulo 1568, so the tag of an allocation is that of
the one 1568 before. `freshTag_iff_oldRetired` says in terms of the calls when every allocation finds
a tag that is not in flight: when it finds the one 1568 before it retired.
-/

namespace Bemi.Rob
open Transition

/-- A call hands out the tag at `gV72MetaTail` and moves on to the next one, or does neither. -/
lemma v72RobAllocateEntry_tag {g g' : V72Globals} {rip microOpStart : UInt64} {microOpCount : UInt32}
    {status : EfiStatus} {tag : Option (Fin v72RobMainEntries)}
    (h : v72RobAllocateEntry g rip microOpStart microOpCount = some (g', status, tag)) :
    tag = none ∧ g'.gV72MetaTail = g.gV72MetaTail ∨
      tag = some g.gV72MetaTail ∧ g'.gV72MetaTail = g.gV72MetaTail + 1 ∧ g.nextSlot ≠ none := by
  cases hmain : g.gV72MainRob with
  | none =>
    simp only [v72RobAllocateEntry, hmain] at h
    cases h
    exact .inl ⟨rfl, rfl⟩
  | some main =>
    by_cases hroom : g.gV72MainCount < v72RobMainEntries
    · cases hmd : g.gV72Meta with
      | none => simp [v72RobAllocateEntry, hmain, hroom, hmd] at h
      | some md =>
        rw [v72RobAllocateEntry_main rip microOpStart microOpCount hmain hmd hroom] at h
        cases h
        exact .inr ⟨rfl, rfl, by simp [V72Globals.nextSlot, hmain, hroom]⟩
    · cases hfree : g.freeExtBank with
      | none =>
        rw [v72RobAllocateEntry_stall rip microOpStart microOpCount hmain hroom hfree] at h
        cases h
        exact .inl ⟨rfl, rfl⟩
      | some eb =>
        cases hext : g.gV72ExtBanks eb with
        | none => simp [v72RobAllocateEntry, hmain, hroom, hfree, hext] at h
        | some ebp =>
          cases hmd : g.gV72Meta with
          | none => simp [v72RobAllocateEntry, hmain, hroom, hfree, hext, hmd] at h
          | some md =>
            rw [v72RobAllocateEntry_ext rip microOpStart microOpCount hmain hmd hroom hfree hext]
              at h
            cases h
            exact .inr ⟨rfl, rfl, by simp [V72Globals.nextSlot, hmain, hroom, hfree, hext]⟩

/-- A retirement hands out no tag. -/
lemma v72RobRetireEntry_tail {g g' : V72Globals} {reorderTag : UInt32} {status : EfiStatus}
    (h : v72RobRetireEntry g reorderTag = some (g', status)) :
    g'.gV72MetaTail = g.gV72MetaTail := by
  simp only [v72RobRetireEntry] at h
  split at h
  · cases h
    rfl
  split at h
  · split at h
    · cases h
    split at h
    · split_ifs at h
      all_goals
        cases h
        rfl
    split at h
    · split at h
      · cases h
        rfl
      split_ifs at h
      all_goals
        cases h
        rfl
    · cases h
      rfl
  · cases h
    rfl

/-- The allocation that a call makes. -/
def V72Event.allocation (ev : V72Event) : Option V72Alloc :=
  match ev.op, ev.answer.2, ev.before.g.nextSlot with
  | .allocate rip _ _, some t, some p => some ⟨t, rip, p⟩
  | _, _, _ => none

/-- The allocations made, the first one first. -/
def allocations (tr : List V72Event) : List V72Alloc :=
  tr.filterMap V72Event.allocation

/-- The tags go round. -/
def GoRound (tr : List V72Event) (s : V72State) : Prop :=
  s.g.gV72MetaTail.val = (allocations tr).length % v72RobMainEntries ∧
    ∀ n a, (allocations tr)[n]? = some a → a.tag.val = n % v72RobMainEntries

/-- A call that makes no allocation and moves no tag. -/
lemma GoRound.skip {tr : List V72Event} {s s' : V72State} {ev : V72Event} (h : GoRound tr s)
    (hev : ev.allocation = none) (htail : s'.g.gV72MetaTail = s.g.gV72MetaTail) :
    GoRound (tr ++ [ev]) s' := by
  have hsame : allocations (tr ++ [ev]) = allocations tr := by simp [allocations, hev]
  rw [GoRound, hsame, htail]
  exact h

/-- A call that makes an allocation moves to the next tag. -/
lemma GoRound.allocate {tr : List V72Event} {s s' : V72State} {ev : V72Event} {a : V72Alloc}
    (h : GoRound tr s) (hev : ev.allocation = some a) (htag : a.tag = s.g.gV72MetaTail)
    (htail : s'.g.gV72MetaTail = s.g.gV72MetaTail + 1) : GoRound (tr ++ [ev]) s' := by
  obtain ⟨hmeta, hround⟩ := h
  have hmore : allocations (tr ++ [ev]) = allocations tr ++ [a] := by simp [allocations, hev]
  rw [GoRound, hmore, List.length_append, List.length_singleton]
  refine ⟨?_, fun n b hb => ?_⟩
  · rw [htail, Fin.val_add, hmeta]
    exact Nat.mod_add_mod ..
  · rcases Nat.lt_or_ge n (allocations tr).length with hn | hn
    · rw [List.getElem?_append_left hn] at hb
      exact hround n b hb
    · rw [List.getElem?_append_right hn, List.getElem?_singleton] at hb
      split_ifs at hb with hlast
      cases hb
      rw [htag, hmeta, Nat.le_antisymm (Nat.sub_eq_zero_iff_le.mp hlast) hn]

lemma V72Event.allocation_none {s : V72State} {op : V72Op} {status : EfiStatus} :
    V72Event.allocation ⟨s, op, (status, none)⟩ = none := by
  cases op <;> rfl

lemma V72Event.allocation_some {s : V72State} {rip start : UInt64} {count : UInt32}
    {status : EfiStatus} {t : Fin v72RobMainEntries} {p : Position} (h : s.g.nextSlot = some p) :
    V72Event.allocation ⟨s, .allocate rip start count, (status, some t)⟩ = some ⟨t, rip, p⟩ := by
  simp only [V72Event.allocation, h]

/-- What a step allocates: nothing, or the next tag, put at the front of those in flight. -/
lemma v72Step_cases {s s' : V72State} {op : V72Op} {r : V72Answer} (st : V72Step s op r s') :
    (V72Event.allocation ⟨s, op, r⟩ = none ∧ s'.g.gV72MetaTail = s.g.gV72MetaTail ∧
        s'.live ⊆ s.live) ∨
      ∃ a, V72Event.allocation ⟨s, op, r⟩ = some a ∧ a.tag = s.g.gV72MetaTail ∧
        s'.g.gV72MetaTail = s.g.gV72MetaTail + 1 ∧ s'.live = a :: s.live ∧
        s.g.nextSlot ≠ none := by
  cases st with
  | @allocate rip start count g' status tag hcall =>
    obtain ⟨rfl, htail⟩ | ⟨rfl, htail, hslot⟩ := v72RobAllocateEntry_tag hcall
    · exact .inl ⟨V72Event.allocation_none, htail, List.Subset.refl _⟩
    · obtain ⟨p, hp⟩ := Option.ne_none_iff_exists'.mp hslot
      exact .inr ⟨_, V72Event.allocation_some hp, rfl, htail, s.liveAfter_some hp rip _, hslot⟩
  | tick => exact .inl ⟨rfl, rfl, List.Subset.refl _⟩
  | @retire a g' status ha hcall =>
    exact .inl ⟨rfl, v72RobRetireEntry_tail hcall, List.erase_subset⟩

/-- Tags are handed out one after the other, in every run. -/
lemma goRound_of_run {s₀ s : V72State} (hzero : s₀.g.gV72MetaTail = 0) {tr : List V72Event}
    (run : Run V72Step s₀ tr s) : GoRound tr s := by
  induction run with
  | nil => exact ⟨congrArg Fin.val hzero, by simp [allocations]⟩
  | snoc _ st ih =>
    obtain ⟨hnone, htail, -⟩ | ⟨a, hsome, htag, htail, -⟩ := v72Step_cases st
    · exact ih.skip hnone htail
    · exact ih.allocate hsome htag htail

/-- An allocation in flight is one of the last 1568. -/
def Recent (tr : List V72Event) (s : V72State) : Prop :=
  ∀ a ∈ s.live, ∃ n, (allocations tr)[n]? = some a ∧
    (allocations tr).length ≤ n + v72RobMainEntries

/-- When an allocation finds a slot, the one 1568 before it has been retired. -/
def OldRetired (pre : List V72Event) (ev : V72Event) : Prop :=
  match ev.op with
  | .allocate .. => ev.before.g.nextSlot ≠ none → v72RobMainEntries ≤ (allocations pre).length →
      ∀ a, (allocations pre)[(allocations pre).length - v72RobMainEntries]? = some a →
        a ∉ ev.before.live
  | _ => True

/-- The tag that comes next is the one of the allocation 1568 before. -/
lemma freshTag_iff_step {tr : List V72Event} {s : V72State} (hround : GoRound tr s)
    (hrecent : Recent tr s) (op : V72Op) (r : V72Answer) :
    FreshTag ⟨s, op, r⟩ ↔ OldRetired tr ⟨s, op, r⟩ := by
  obtain ⟨hmeta, htags⟩ := hround
  cases op with
  | tick | retire => rfl
  | allocate rip start count =>
    refine forall_congr' fun hslot => ?_
    constructor
    · intro hfresh hlong a ha hlive
      refine hfresh a hlive (Fin.ext ?_)
      rw [htags _ a ha, hmeta, ← Nat.mod_eq_sub_mod hlong]
    · intro hold a hlive htag
      obtain ⟨n, ha, hlast⟩ := hrecent a hlive
      have hn : n < (allocations tr).length := (List.getElem?_eq_some_iff.mp ha).1
      have hmod : n % v72RobMainEntries = (allocations tr).length % v72RobMainEntries := by
        rw [← htags n a ha, htag, hmeta]
      have hwhole : (allocations tr).length = n + v72RobMainEntries := by
        have hdvd : v72RobMainEntries ∣ (allocations tr).length - n :=
          Nat.dvd_of_mod_eq_zero (Nat.sub_mod_eq_zero_of_mod_eq hmod.symm)
        have hle := Nat.le_of_dvd (Nat.sub_pos_of_lt hn) hdvd
        omega
      refine hold (by omega) a ?_ hlive
      rw [hwhole, Nat.add_sub_cancel]
      exact ha

/-- A fresh tag leaves in flight only the last 1568 allocations. -/
lemma Recent.step {tr : List V72Event} {s s' : V72State} {op : V72Op} {r : V72Answer}
    (h : Recent tr s) (hround : GoRound tr s) (st : V72Step s op r s')
    (hfresh : FreshTag ⟨s, op, r⟩) : Recent (tr ++ [⟨s, op, r⟩]) s' := by
  obtain ⟨hnone, -, hlive⟩ | ⟨a, hsome, htag, -, hlive, hslot⟩ := v72Step_cases st
  · have hsame : allocations (tr ++ [⟨s, op, r⟩]) = allocations tr := by
      simp [allocations, hnone]
    rw [Recent, hsame]
    exact fun b hb => h b (hlive hb)
  · have hmore : allocations (tr ++ [⟨s, op, r⟩]) = allocations tr ++ [a] := by
      simp [allocations, hsome]
    have hold := (freshTag_iff_step hround h op r).mp hfresh
    rw [Recent, hmore, hlive, List.length_append, List.length_singleton]
    intro b hb
    rcases List.mem_cons.mp hb with rfl | hb
    · exact ⟨(allocations tr).length, List.getElem?_concat_length, by omega⟩
    · obtain ⟨n, hn, hlast⟩ := h b hb
      have hlt : n < (allocations tr).length := (List.getElem?_eq_some_iff.mp hn).1
      refine ⟨n, (List.getElem?_append_left hlt).trans hn, ?_⟩
      by_contra hless
      have heq : (allocations tr).length - v72RobMainEntries = n := by omega
      cases op with
      | allocate rip start count => exact hold hslot (by omega) b (heq ▸ hn) hb
      | tick => cases hsome
      | retire a => cases hsome

/-- After fresh tags only, the last 1568 allocations are in flight at most. -/
lemma recent_of_run {s₀ s : V72State} (hzero : s₀.g.gV72MetaTail = 0) (hnil : s₀.live = [])
    {tr : List V72Event} (run : Run V72Step s₀ tr s) (h : ∀ ev ∈ tr, FreshTag ev) :
    Recent tr s := by
  induction run with
  | nil => simp [Recent, hnil]
  | snoc run st ih =>
    obtain ⟨hbefore, hfresh⟩ := forall_mem_snoc.mp h
    exact (ih hbefore).step (goRound_of_run hzero run) st hfresh

/-- Every allocation finds a fresh tag exactly when it finds the one 1568 before it retired. -/
lemma freshTag_iff_oldRetired {s₀ s : V72State} (hzero : s₀.g.gV72MetaTail = 0)
    (hnil : s₀.live = []) {tr : List V72Event} (run : Run V72Step s₀ tr s) :
    (∀ ev ∈ tr, FreshTag ev) ↔
      ∀ pre ev post, tr = pre ++ ev :: post → OldRetired pre ev := by
  induction run with
  | nil => simp
  | snoc run st ih =>
    rw [forall_mem_snoc, forall_split_snoc, ← ih]
    exact and_congr_right fun hbefore =>
      freshTag_iff_step (goRound_of_run hzero run) (recent_of_run hzero hnil run hbefore) _ _

/-- Fewer than 1568 allocations find fresh tags. -/
lemma freshTag_of_few {s₀ s : V72State} (hzero : s₀.g.gV72MetaTail = 0) (hnil : s₀.live = [])
    {tr : List V72Event} (run : Run V72Step s₀ tr s)
    (hfew : (allocations tr).length < v72RobMainEntries) : ∀ ev ∈ tr, FreshTag ev := by
  refine (freshTag_iff_oldRetired hzero hnil run).mpr fun pre ev post hsplit => ?_
  have hpre : (allocations pre).length ≤ (allocations tr).length := by
    rw [hsplit, allocations, allocations, List.filterMap_append, List.length_append]
    exact Nat.le_add_right ..
  rw [OldRetired]
  split
  · intro _ hlong
    omega
  · trivial

end Bemi.Rob
