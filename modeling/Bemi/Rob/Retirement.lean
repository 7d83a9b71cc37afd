import Bemi.Rob.Allocation

/-!
# Retirement in the v7.1 reorder buffer

Retirements commute: giving up an entry before or after the head of its bank has been drained comes
to the same. So a set of entries may be retired in any order. The slots of a bank are freed in the
order of their allocations, and when no entry is left every slot is free.
-/

namespace Bemi.Rob
open SlotRing Transition

/-- A call of `RobRetireEntry` on a handle. -/
def retireHandle (gRob : Option RobDistributor) (h : Handle) : Option RobDistributor × EfiStatus :=
  robRetireEntry gRob (UInt32.ofNat h.1.val) (UInt32.ofNat h.2.val)

/-- Calls of `RobRetireEntry` on some handles, one after the other. -/
def retireAll (gRob : Option RobDistributor) (l : List Handle) : Option RobDistributor :=
  l.foldl (fun gRob h => (retireHandle gRob h).1) gRob

lemma retireAll_none (l : List Handle) : retireAll none l = none := by
  induction l with
  | nil => rfl
  | cons h l ih => exact ih

lemma names_self (h : Handle) : Names (UInt32.ofNat h.1.val) (UInt32.ofNat h.2.val) h := by
  have hb : h.1.val < 2 ^ 32 := Nat.lt_trans h.1.isLt (by decide)
  have hs : h.2.val < 2 ^ 32 := Nat.lt_trans h.2.isLt (by decide)
  exact ⟨UInt32.toNat_ofNat_of_lt' hb, UInt32.toNat_ofNat_of_lt' hs⟩

lemma retireHandle_allocated {rob : RobDistributor} {h : Handle} (hst : rob.state h = .allocated) :
    retireHandle (some rob) h = (some (rob.retire h), .success) := by
  obtain ⟨hno, -⟩ | ⟨h', hn, -, hcall⟩ :=
    robRetireEntry_cases rob (UInt32.ofNat h.1.val) (UInt32.ofNat h.2.val)
  · exact absurd hst (hno h (names_self h))
  · rw [retireHandle, hcall, hn.unique (names_self h)]

lemma retireHandle_other {rob : RobDistributor} {h : Handle} (hst : rob.state h ≠ .allocated) :
    (retireHandle (some rob) h).1 = some rob := by
  obtain ⟨-, status, -, hcall⟩ | ⟨h', hn, hst', -⟩ :=
    robRetireEntry_cases rob (UInt32.ofNat h.1.val) (UInt32.ofNat h.2.val)
  · rw [retireHandle, hcall]
  · rw [hn.unique (names_self h)] at hst'
    exact absurd hst' hst

/-! ## Order -/

/-- A retirement gives up its own entry and no other. -/
lemma state_retire_allocated {rob : RobDistributor} {h h' : Handle} :
    (rob.retire h).state h' = .allocated ↔ h' ≠ h ∧ rob.state h' = .allocated := by
  rw [← mem_allocatedSlots, allocatedSlots_retire, Finset.mem_erase, mem_allocatedSlots]

/-- The entry that a retirement leaves in its slot. -/
def RobEntry.retired (entry : RobEntry) (tick : UInt64) : RobEntry :=
  { entry with state := .retired, retireTick := tick }

/-- A retirement leaves the other entries in use alone. -/
lemma RobBank.retire_slots (bp : RobBank) {i j : Fin robEntriesPerBank} (hne : j ≠ i) (tick : UInt64)
    (hj : (bp.slots j).state = .allocated) : (bp.retire i tick).slots j = bp.slots j := by
  have hset : (bp.toBuffer.set i ((bp.slots i).retired tick)).slots j = bp.slots j :=
    Function.update_of_ne hne _ _
  have hdrain := Buffer.drain_slots (bp.toBuffer.set i ((bp.slots i).retired tick)) (i := j)
  rw [hset] at hdrain
  exact hdrain hj

lemma RobBank.retire_retire (bp : RobBank) {i j : Fin robEntriesPerBank} (hne : j ≠ i)
    (tick : UInt64) (hj : (bp.slots j).state = .allocated) :
    (bp.retire i tick).retire j tick =
      ⟨((bp.toBuffer.set i ((bp.slots i).retired tick)).drain.set j
        ((bp.slots j).retired tick)).drain, bp.maxCount⟩ := by
  have hslot := bp.retire_slots hne tick hj
  rw [RobBank.retire, hslot]
  rfl

/-- Two entries of one bank. -/
lemma RobBank.retire_comm (bp : RobBank) {i j : Fin robEntriesPerBank} (hne : i ≠ j) (tick : UInt64)
    (hi : (bp.slots i).state = .allocated) (hj : (bp.slots j).state = .allocated) :
    (bp.retire i tick).retire j tick = (bp.retire j tick).retire i tick := by
  rw [bp.retire_retire hne.symm tick hj, bp.retire_retire hne tick hi,
    Buffer.drain_set_comm _ hne _ _ hi hj]

/-- Two entries of any banks. -/
lemma RobDistributor.retire_comm (rob : RobDistributor) {h h' : Handle} (hne : h ≠ h')
    (hst : rob.state h = .allocated) (hst' : rob.state h' = .allocated) :
    (rob.retire h).retire h' = (rob.retire h').retire h := by
  obtain ⟨b, i⟩ := h
  obtain ⟨c, j⟩ := h'
  simp only [RobDistributor.retire]
  congr 1
  by_cases hbc : b = c
  · subst hbc
    have hij : i ≠ j := fun e => hne (by rw [e])
    simp only [Function.update_self, Function.update_idem]
    rw [RobBank.retire_comm _ hij _ hst hst']
  · rw [Function.update_of_ne hbc, Function.update_of_ne (Ne.symm hbc), Function.update_comm hbc]

/-- Two calls commute, whatever they name. -/
lemma retireHandle_comm (gRob : Option RobDistributor) (h h' : Handle) :
    (retireHandle (retireHandle gRob h).1 h').1 = (retireHandle (retireHandle gRob h').1 h).1 := by
  cases gRob with
  | none => rfl
  | some rob =>
    by_cases hne : h = h'
    · rw [hne]
    · by_cases hst : rob.state h = .allocated
      · by_cases hst' : rob.state h' = .allocated
        · rw [retireHandle_allocated hst, retireHandle_allocated hst',
            retireHandle_allocated (state_retire_allocated.mpr ⟨Ne.symm hne, hst'⟩),
            retireHandle_allocated (state_retire_allocated.mpr ⟨hne, hst⟩),
            RobDistributor.retire_comm rob hne hst hst']
        · have hlater : (rob.retire h).state h' ≠ .allocated := fun e =>
            hst' (state_retire_allocated.mp e).2
          rw [retireHandle_other hst', retireHandle_allocated hst, retireHandle_other hlater]
      · by_cases hst' : rob.state h' = .allocated
        · have hlater : (rob.retire h').state h ≠ .allocated := fun e =>
            hst (state_retire_allocated.mp e).2
          rw [retireHandle_other hst, retireHandle_allocated hst', retireHandle_other hlater]
        · rw [retireHandle_other hst, retireHandle_other hst', retireHandle_other hst]

/-- The order of the retirements does not matter. -/
theorem retireAll_perm {l l' : List Handle} (hperm : l.Perm l') (gRob : Option RobDistributor) :
    retireAll gRob l = retireAll gRob l' :=
  hperm.foldl_eq' (fun h _ h' _ gRob => retireHandle_comm gRob h h') gRob

/-! ## Draining -/

/-- The slots of a bank in use, from its head on. -/
def RobDistributor.inUse (rob : RobDistributor) (b : Fin robBanks) :
    List (Fin robEntriesPerBank) :=
  (rob.banks b).ring.window

/-- The slots of a bank that a call of `RobRetireEntry` frees, in the order of its loop. -/
def freed (b : Fin robBanks) (gRob : Option RobDistributor) (h : Handle) :
    List (Fin robEntriesPerBank) :=
  match gRob with
  | none => []
  | some rob =>
    if rob.state h = .allocated ∧ h.1 = b then ((rob.banks b).ring.mark h.2).drained else []

/-- The slots of a bank that some calls free, one call after the other. -/
def freedAll (b : Fin robBanks) : Option RobDistributor → List Handle →
    List (Fin robEntriesPerBank)
  | _, [] => []
  | gRob, h :: l => freed b gRob h ++ freedAll b (retireHandle gRob h).1 l

/-- The slots of a bank that have been handed out, in the order of their allocations. -/
def granted (b : Fin robBanks) (tr : List RobEvent) : List (Fin robEntriesPerBank) :=
  tr.filterMap fun ev => ev.answer.2.bind fun h => if h.1 = b then some h.2 else none

lemma RobSound.mem_inUse {rob : RobDistributor} (hs : RobSound rob) {b : Fin robBanks}
    {i : Fin robEntriesPerBank} : i ∈ rob.inUse b ↔ rob.state (b, i) ≠ .free :=
  (hs.banks b).mem_window

lemma inUse_retire {rob : RobDistributor} {h : Handle} (hst : rob.state h = .allocated)
    (b : Fin robBanks) : rob.inUse b = freed b (some rob) h ++ (rob.retire h).inUse b := by
  rw [freed, RobDistributor.inUse, RobDistributor.inUse, RobDistributor.retire]
  dsimp only
  by_cases hb : h.1 = b
  · subst hb
    rw [if_pos ⟨hst, rfl⟩, Function.update_self, ring_retire]
    exact ((rob.banks h.1).ring.mark h.2).window_drain
  · rw [if_neg fun e => hb e.2, Function.update_of_ne (Ne.symm hb)]
    rfl

/-- What one call does. -/
lemma retireHandle_spec {rob : RobDistributor} (hs : RobSound rob) (h : Handle) :
    ∃ rob', (retireHandle (some rob) h).1 = some rob' ∧ RobSound rob' ∧
      (∀ b, rob.inUse b = freed b (some rob) h ++ rob'.inUse b) ∧
      ∀ h', rob'.state h' = .allocated ↔ h' ≠ h ∧ rob.state h' = .allocated := by
  by_cases hst : rob.state h = .allocated
  · rw [retireHandle_allocated hst]
    exact ⟨_, rfl, hs.retire hst, inUse_retire hst, fun _ => state_retire_allocated⟩
  · refine ⟨rob, retireHandle_other hst, hs, fun b => ?_, fun h' => ?_⟩
    · rw [freed, if_neg fun e => hst e.1]
      rfl
    · constructor
      · intro hst'
        exact ⟨fun heq => hst (heq ▸ hst'), hst'⟩
      · exact And.right

/-- What some calls do, one after the other. -/
lemma retireAll_spec {rob : RobDistributor} (hs : RobSound rob) (l : List Handle) :
    ∃ rob', retireAll (some rob) l = some rob' ∧ RobSound rob' ∧
      (∀ b, rob.inUse b = freedAll b (some rob) l ++ rob'.inUse b) ∧
      ∀ h, rob'.state h = .allocated ↔ h ∉ l ∧ rob.state h = .allocated := by
  induction l generalizing rob with
  | nil => exact ⟨rob, rfl, hs, fun _ => rfl, fun h => (and_iff_right List.not_mem_nil).symm⟩
  | cons h l ih =>
    obtain ⟨mid, hmid, hsmid, hfreed, hstate⟩ := retireHandle_spec hs h
    obtain ⟨rob', hrob', hs', hfreed', hstate'⟩ := ih hsmid
    refine ⟨rob', ?_, hs', fun b => ?_, fun h' => ?_⟩
    · rw [retireAll, List.foldl_cons, hmid]
      exact hrob'
    · rw [freedAll, hmid, List.append_assoc, ← hfreed', hfreed]
    · rw [hstate', hstate, List.mem_cons, not_or, and_left_comm, and_assoc]

lemma granted_none {b : Fin robBanks} {tr : List RobEvent} {ev : RobEvent}
    (h : ev.answer.2 = none) : granted b (tr ++ [ev]) = granted b tr := by
  simp [granted, h]

lemma granted_some {b : Fin robBanks} {tr : List RobEvent} {ev : RobEvent} {h : Handle}
    (hev : ev.answer.2 = some h) :
    granted b (tr ++ [ev]) = granted b tr ++ if h.1 = b then [h.2] else [] := by
  by_cases hb : h.1 = b <;> simp [granted, hev, hb]

lemma RobSound.inUse_allocate {rob : RobDistributor} (hs : RobSound rob) {c : Fin robBanks}
    {entry : RobEntry} (hentry : entry.state = .allocated) (b : Fin robBanks) :
    (rob.allocate c entry).inUse b =
      rob.inUse b ++ if c = b then [(rob.banks c).tail] else [] := by
  rw [RobDistributor.inUse, RobDistributor.inUse, RobDistributor.allocate]
  dsimp only
  by_cases hc : c = b
  · subst hc
    rw [if_pos rfl, Function.update_self, ring_allocate _ hentry]
    exact (hs.banks c).toShaped.windowed.window_push
  · rw [if_neg hc, Function.update_of_ne (Ne.symm hc), List.append_nil]

/-- What one step does to the slots in use and to those handed out. -/
lemma inUse_suffix_step {tr : List RobEvent} {rob rob' : RobDistributor} {op : RobOp}
    {r : RobAnswer} (hs : RobSound rob) (move : RobMove rob op r rob') {b : Fin robBanks}
    (h : rob.inUse b <:+ granted b tr) :
    rob'.inUse b <:+ granted b (tr ++ [⟨some rob, op, r⟩]) := by
  cases move with
  | fill hlt hentry =>
    rw [granted_some rfl, hs.inUse_allocate hentry]
    obtain ⟨before, hbefore⟩ := h
    rw [← hbefore, List.append_assoc]
    exact List.suffix_append _ _
  | retire hn hst =>
    rw [granted_none rfl]
    rw [inUse_retire hst b] at h
    exact (List.suffix_append _ _).trans h
  | _ =>
    rw [granted_none rfl]
    exact h

/-- The slots in use are those handed out last, in the same order. -/
lemma inUse_suffix {pool : Bool} {tr : List RobEvent} {s : Option RobDistributor}
    (run : Run RobStep (robDistributorInit pool).2 tr s) {rob : RobDistributor} (h : s = some rob)
    (b : Fin robBanks) : rob.inUse b <:+ granted b tr := by
  induction run generalizing rob with
  | nil =>
    cases pool with
    | false => cases h
    | true =>
      cases h
      exact List.nil_suffix
  | @snoc tr s op r s' run st ih =>
    cases s with
    | none => cases h.symm.trans (robStep_none st).1
    | some old =>
      obtain ⟨hs, -⟩ := robInv_of_run run
      obtain ⟨rob', hrob', move⟩ := robStep_move st
      cases h.symm.trans hrob'
      exact inUse_suffix_step hs move (ih rfl)

/-! ## Any order -/

/-- A list names the handles of a set, each once. -/
def Orders (R : Finset Handle) (l : List Handle) : Prop :=
  l.Nodup ∧ ∀ h, h ∈ l ↔ h ∈ R

lemma Orders.perm {R : Finset Handle} {l l' : List Handle} (h : Orders R l) (h' : Orders R l') :
    l.Perm l' :=
  (List.perm_ext_iff_of_nodup h.1 h'.1).mpr fun a => (h.2 a).trans (h'.2 a).symm

/-- Every call succeeds when the handles name different entries in use. -/
lemma retireAll_success {rob : RobDistributor} (hs : RobSound rob) {pre post : List Handle}
    {h : Handle} (hnodup : (pre ++ h :: post).Nodup) (hst : rob.state h = .allocated) :
    (retireHandle (retireAll (some rob) pre) h).2 = .success := by
  obtain ⟨mid, hmid, -, -, hstate⟩ := retireAll_spec hs pre
  have hnew : h ∉ pre := fun hpre =>
    (List.nodup_append.mp hnodup).2.2 h hpre h List.mem_cons_self rfl
  rw [hmid, retireHandle_allocated ((hstate h).mpr ⟨hnew, hst⟩)]

/-- A distributor with no entry in use. -/
lemma RobSound.drained {rob : RobDistributor} (hs : RobSound rob)
    (h : ∀ handle, rob.state handle ≠ .allocated) :
    robGetActiveCount (some rob) = 0 ∧ ∀ handle, rob.state handle = .free := by
  have hempty (b : Fin robBanks) := (hs.banks b).empty_of_none fun i => h (b, i)
  constructor
  · have hsum : ∑ b, (rob.banks b).count = 0 := Finset.sum_eq_zero fun b _ => (hempty b).1
    rw [robGetActiveCount_eq, hsum]
    rfl
  · intro handle
    exact (hempty handle.1).2 handle.2

/-- After every run from `RobDistributorInit`, the entries that some of the handles held name may be
retired in any order: every call succeeds and the distributor is the same in the end. In each bank
the slots in use are those handed out last, and they are freed in the order in which they were
handed out. When all handles are retired, no entry is active and every slot is free. -/
theorem robRetireEntry_anyOrder {pool : Bool} {tr : List RobEvent} {s : Option RobDistributor}
    (run : Run RobStep (robDistributorInit pool).2 tr s) {R : Finset Handle}
    (hR : ∀ h ∈ R, Held tr h) {l : List Handle} (hl : Orders R l) :
    (∀ pre h post, l = pre ++ h :: post → (retireHandle (retireAll s pre) h).2 = .success) ∧
      (∀ l', Orders R l' → retireAll s l' = retireAll s l) ∧
      (∀ rob, s = some rob → ∃ rob', retireAll s l = some rob' ∧
        ∀ b, rob.inUse b <:+ granted b tr ∧ (rob.inUse b).Nodup ∧
          rob.inUse b = freedAll b s l ++ rob'.inUse b ∧
          ∀ i, (i ∈ rob.inUse b ↔ rob.state (b, i) ≠ .free) ∧
            (i ∈ rob'.inUse b ↔ rob'.state (b, i) ≠ .free)) ∧
      ((∀ h, Held tr h → h ∈ R) → robGetActiveCount (retireAll s l) = 0 ∧
        ∀ rob', retireAll s l = some rob' → ∀ h, rob'.state h = .free) := by
  refine ⟨?_, fun l' hl' => retireAll_perm (hl'.perm hl) s, ?_, ?_⟩
  · intro pre h post hsplit
    have hheld := hR h ((hl.2 h).mp (by simp [hsplit]))
    cases s with
    | none => exact absurd hheld (robInv_of_run run h)
    | some rob =>
      obtain ⟨hs, hinv⟩ := robInv_of_run run
      have hnodup := hl.1
      rw [hsplit] at hnodup
      exact retireAll_success hs hnodup ((hinv h).mp hheld)
  · intro rob hrob
    subst hrob
    obtain ⟨hs, -⟩ := robInv_of_run run
    obtain ⟨rob', hrob', hs', hfreed, -⟩ := retireAll_spec hs l
    refine ⟨rob', hrob', fun b => ?_⟩
    have hnodup : (rob.inUse b).Nodup := (hs.banks b).toShaped.windowed.nodup_window
    exact ⟨inUse_suffix run rfl b, hnodup, hfreed b, fun _ => ⟨hs.mem_inUse, hs'.mem_inUse⟩⟩
  · intro hall
    cases s with
    | none =>
      rw [retireAll_none]
      exact ⟨rfl, nofun⟩
    | some rob =>
      obtain ⟨hs, hinv⟩ := robInv_of_run run
      obtain ⟨rob', hrob', hs', -, hstate⟩ := retireAll_spec hs l
      have hgone (h : Handle) : rob'.state h ≠ .allocated := by
        intro hst
        obtain ⟨hnot, hst⟩ := (hstate h).mp hst
        exact hnot ((hl.2 h).mpr (hall h ((hinv h).mpr hst)))
      obtain ⟨hactive, hfree⟩ := hs'.drained hgone
      rw [hrob']
      refine ⟨hactive, fun rob'' heq => ?_⟩
      cases heq
      exact hfree

/-- The handles of eight allocations in a row. -/
def eightHandles : List Handle :=
  [(0, 0), (1, 0), (2, 0), (3, 0), (4, 0), (5, 0), (6, 0), (0, 1)]

/-- Eight allocations, retired in their own order and in the opposite one. -/
theorem robRetireEntry_anyOrder_reverse :
    ∃ tr s, Run RobStep (robDistributorInit true).2 tr s ∧
      tr.map Event.op = List.replicate 8 (.allocate 0x1000 0 1) ∧
      retireAll s eightHandles.reverse = retireAll s eightHandles ∧
      robGetActiveCount (retireAll s eightHandles) = 0 := by
  obtain ⟨tr, rob, run, hops, -, -, hheld⟩ := robRun_turns (n := 8) (by decide)
  have hnodup : eightHandles.Nodup := by decide
  have hl : Orders eightHandles.toFinset eightHandles := ⟨hnodup, fun h => by simp⟩
  have hl' : Orders eightHandles.toFinset eightHandles.reverse :=
    ⟨List.nodup_reverse.mpr hnodup, fun h => by simp⟩
  have hR : ∀ h ∈ eightHandles.toFinset, Held tr h := by
    intro h hh
    have hlt : ∀ h ∈ eightHandles, h.1.val + 7 * h.2.val < 8 := by
      simp [eightHandles, robBanks]
    exact (hheld h).mpr (hlt h (List.mem_toFinset.mp hh))
  obtain ⟨-, hsame, -, hdrained⟩ := robRetireEntry_anyOrder run hR hl
  refine ⟨tr, some rob, run, hops, hsame _ hl', (hdrained ?_).1⟩
  rintro ⟨b, i⟩ hh
  have hlt : b.val + 7 * i.val < 8 := (hheld (b, i)).mp hh
  have hi : i = 0 ∨ i = 1 ∧ b = 0 := by
    rcases Nat.eq_zero_or_pos i.val with hzero | hpos
    · exact .inl (Fin.ext hzero)
    · exact .inr ⟨Fin.ext (show i.val = 1 by omega), Fin.ext (show b.val = 0 by omega)⟩
  rw [List.mem_toFinset]
  rcases hi with rfl | ⟨rfl, rfl⟩
  · clear hh hlt
    revert b
    decide
  · decide

end Bemi.Rob
