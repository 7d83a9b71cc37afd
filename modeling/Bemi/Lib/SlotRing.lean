import Mathlib.Tactic.Common
import Mathlib.Algebra.GroupWithZero.Nat
import Mathlib.Data.Fin.Basic
import Mathlib.Data.List.Iterate
import Mathlib.Data.List.Nodup
import Mathlib.Logic.Function.Basic

/-!
# Ring buffers of slots

A ring of `n` slots that are filled in order at the tail, given up in any order and released in
order at the head. A slot is free, allocated, or retired: given up but not yet released. `retire`
gives up one slot and releases what has reached the head (`drain`).

`WellFormed` is the invariant of the ring. `push` and `retire` keep it, and they change which slots
are allocated by exactly the slot they name. `Headed` is what is left of it when any slot may be given
up, in use or not.

A `Buffer` is a ring whose slots hold entries that carry their slot's state. Its operations are those
of the ring it is seen as.
-/

namespace SlotRing

inductive SlotState where
  | free
  | allocated
  | retired
  deriving DecidableEq, Repr

structure Ring (n : Nat) where
  head : Fin n
  tail : Fin n
  count : Nat
  state : Fin n → SlotState

namespace Ring

variable {n : Nat}

/-- How far a slot is behind the head. -/
def offset (r : Ring n) (i : Fin n) : Nat :=
  (i - r.head).val

/-- Give up a slot. -/
def mark (r : Ring n) (i : Fin n) : Ring n :=
  { r with state := Function.update r.state i .retired }

/-- The `count` slots from the head on are in use; the others may be in any state. -/
structure Windowed (r : Ring n) : Prop where
  count_le : r.count ≤ n
  tail_eq : r.tail.val = (r.head.val + r.count) % n
  inside : ∀ i, r.offset i < r.count → r.state i ≠ .free

/-- Besides, nothing at the head waits to be released. -/
structure Headed (r : Ring n) : Prop extends Windowed r where
  head_live : 0 < r.count → r.state r.head = .allocated

/-- The `count` slots from the head on are in use and no others. -/
structure Shaped (r : Ring n) : Prop where
  count_le : r.count ≤ n
  tail_eq : r.tail.val = (r.head.val + r.count) % n
  outside : ∀ i, r.count ≤ r.offset i → r.state i = .free
  inside : ∀ i, r.offset i < r.count → r.state i ≠ .free

/-- Nothing at the head waits to be released. -/
structure WellFormed (r : Ring n) : Prop extends Shaped r where
  head_live : 0 < r.count → r.state r.head = .allocated

/-! ## Arithmetic of the window -/

lemma mod_wrap {x n : Nat} (h : x < 2 * n) : x % n = if x < n then x else x - n := by
  split
  · exact Nat.mod_eq_of_lt ‹_›
  · rw [Nat.mod_eq_sub_mod (by omega), Nat.mod_eq_of_lt (by omega)]

lemma offset_eq (r : Ring n) (i : Fin n) :
    r.offset i = if r.head.val ≤ i.val then i.val - r.head.val else i.val + n - r.head.val := by
  have hi := i.isLt
  have hh := r.head.isLt
  rw [offset, Fin.sub_def]
  dsimp only
  rw [mod_wrap (by omega)]
  split <;> split <;> omega

lemma Shaped.windowed {r : Ring n} (h : r.Shaped) : r.Windowed :=
  ⟨h.count_le, h.tail_eq, h.inside⟩

lemma WellFormed.headed {r : Ring n} (h : r.WellFormed) : r.Headed :=
  ⟨h.windowed, h.head_live⟩

/-- The tail of such a ring, without `%`. -/
lemma Windowed.tail_wrap {r : Ring n} (h : r.Windowed) : r.tail.val =
    if r.head.val + r.count < n then r.head.val + r.count else r.head.val + r.count - n := by
  have hh := r.head.isLt
  have hle := h.count_le
  rw [h.tail_eq, mod_wrap (by omega)]

/-- The slot at the tail comes right after the window. -/
lemma Windowed.offset_tail {r : Ring n} (h : r.Windowed) (hlt : r.count < n) :
    r.offset r.tail = r.count := by
  have htail := h.tail_wrap
  have hh := r.head.isLt
  rw [offset_eq]
  split at htail <;> split <;> omega

/-- A slot is determined by its offset. -/
lemma offset_injective (r : Ring n) {i j : Fin n} (h : r.offset i = r.offset j) : i = j := by
  have hi := i.isLt
  have hj := j.isLt
  have hh := r.head.isLt
  rw [offset_eq, offset_eq] at h
  apply Fin.ext
  split at h <;> split at h <;> omega

/-- The slot at a distance from the head. -/
lemma offset_of_add (r : Ring n) {i : Fin n} {k : Nat} (hk : k < n)
    (hi : i.val = (r.head.val + k) % n) : r.offset i = k := by
  have hh := r.head.isLt
  rw [mod_wrap (by omega)] at hi
  rw [offset_eq]
  split at hi <;> split <;> omega

/-- The slot after the window is free. -/
lemma Shaped.tail_free {r : Ring n} (h : r.Shaped) (hlt : r.count < n) :
    r.state r.tail = .free :=
  h.outside _ (Nat.le_of_eq (h.windowed.offset_tail hlt).symm)

/-- There is room as long as a slot is free. -/
lemma Shaped.count_lt_iff {r : Ring n} (h : r.Shaped) : r.count < n ↔ ∃ i, r.state i = .free := by
  constructor
  · intro hlt
    exact ⟨r.tail, h.tail_free hlt⟩
  · intro hfree
    obtain ⟨i, hi⟩ := hfree
    apply Nat.lt_of_le_of_lt (Nat.le_of_not_lt fun hlt => h.inside i hlt hi)
    exact (i - r.head).isLt

/-- A slot in use lies in the window. -/
lemma Shaped.offset_lt_count {r : Ring n} (h : r.Shaped) {i : Fin n} (hi : r.state i ≠ .free) :
    r.offset i < r.count :=
  Nat.lt_of_not_le fun hle => hi (h.outside i hle)

lemma offset_eq_zero {r : Ring n} {i : Fin n} (h : r.offset i = 0) : i = r.head := by
  have hi := i.isLt
  have hh := r.head.isLt
  rw [offset_eq] at h
  apply Fin.ext
  split at h <;> omega

lemma mark_state (r : Ring n) (i j : Fin n) :
    (r.mark i).state j = if j = i then .retired else r.state j := by
  simp only [mark, Function.update_apply]

/-- Giving up any slot keeps the window in use. -/
lemma Windowed.mark {r : Ring n} (h : r.Windowed) (i : Fin n) : (r.mark i).Windowed := by
  refine ⟨h.count_le, h.tail_eq, fun j hj => ?_⟩
  rw [mark_state]
  split
  · exact nofun
  · exact h.inside j hj

/-- Giving up an allocated slot keeps the shape. -/
lemma Shaped.mark {r : Ring n} (h : r.Shaped) {i : Fin n} (hi : r.state i = .allocated) :
    (r.mark i).Shaped := by
  have hwin : r.offset i < r.count := h.offset_lt_count (by simp [hi])
  refine ⟨h.count_le, h.tail_eq, fun j hj => ?_, (h.windowed.mark i).inside⟩
  change r.count ≤ r.offset j at hj
  rw [mark_state, if_neg fun e => by rw [e] at hj; omega]
  exact h.outside j hj

variable [NeZero n]

/-- Fill the slot at the tail. -/
def push (r : Ring n) : Ring n :=
  { r with
    tail := r.tail + 1
    count := r.count + 1
    state := Function.update r.state r.tail .allocated }

/-- Release the slot at the head. -/
def release (r : Ring n) : Ring n :=
  { r with
    head := r.head + 1
    count := r.count - 1
    state := Function.update r.state r.head .free }

/-- Release retired slots as long as there are some at the head. -/
def drain (r : Ring n) : Ring n :=
  if 0 < r.count ∧ r.state r.head = .retired then drain r.release
  else r
termination_by r.count
decreasing_by
  simp only [release]
  omega

/-- Give up a slot and release what has reached the head. -/
def retire (r : Ring n) (i : Fin n) : Ring n :=
  (r.mark i).drain

lemma val_next (i : Fin n) : (i + 1).val = if i.val + 1 < n then i.val + 1 else 0 := by
  have hi := i.isLt
  rw [Fin.val_add, Fin.val_one', Nat.add_mod_mod, mod_wrap (by omega)]
  split <;> omega

/-! ## Filling -/

lemma push_state (r : Ring n) (i : Fin n) :
    r.push.state i = if i = r.tail then .allocated else r.state i := by
  simp only [push, Function.update_apply]

lemma push_allocated {r : Ring n} {i : Fin n} :
    r.push.state i = .allocated ↔ i = r.tail ∨ r.state i = .allocated := by
  rw [push_state]
  by_cases h : i = r.tail <;> simp [h]

/-- Filling a slot of a ring that is not full. -/
lemma Windowed.push {r : Ring n} (h : r.Windowed) (hlt : r.count < n) : r.push.Windowed := by
  have htail := h.tail_wrap
  have hh := r.head.isLt
  have hoff := h.offset_tail hlt
  refine ⟨hlt, ?_, fun i hi => ?_⟩
  · change (r.tail + 1).val = (r.head.val + (r.count + 1)) % n
    rw [val_next, mod_wrap (by omega)]
    split at htail <;> split <;> split <;> omega
  · change r.offset i < r.count + 1 at hi
    rw [push_state]
    split
    · simp
    · rename_i hne
      have : r.offset i ≠ r.count := fun e => hne (r.offset_injective (e.trans hoff.symm))
      exact h.inside i (by omega)

lemma Shaped.push {r : Ring n} (h : r.Shaped) (hlt : r.count < n) : r.push.Shaped := by
  have hwin := h.windowed.push hlt
  have hoff := h.windowed.offset_tail hlt
  refine ⟨hwin.count_le, hwin.tail_eq, fun i hi => ?_, hwin.inside⟩
  change r.count + 1 ≤ r.offset i at hi
  rw [push_state, if_neg fun e => by rw [e] at hi; omega]
  exact h.outside i (by omega)

theorem Headed.push {r : Ring n} (h : r.Headed) (hlt : r.count < n) : r.push.Headed := by
  refine ⟨h.toWindowed.push hlt, fun _ => ?_⟩
  change r.push.state r.head = .allocated
  rw [push_allocated]
  rcases Nat.eq_zero_or_pos r.count with h0 | hpos
  · left
    have htail := h.tail_eq
    rw [h0, Nat.add_zero, Nat.mod_eq_of_lt r.head.isLt] at htail
    exact Fin.ext htail.symm
  · exact .inr (h.head_live hpos)

theorem WellFormed.push {r : Ring n} (h : r.WellFormed) (hlt : r.count < n) :
    r.push.WellFormed :=
  ⟨h.toShaped.push hlt, (h.headed.push hlt).head_live⟩

/-! ## Releasing -/

lemma release_state (r : Ring n) (i : Fin n) :
    r.release.state i = if i = r.head then .free else r.state i := by
  simp only [release, Function.update_apply]

/-- Releasing the head moves the window by one. -/
lemma offset_release (r : Ring n) (i : Fin n) :
    r.release.offset i = if i = r.head then n - 1 else r.offset i - 1 := by
  have hi := i.isLt
  have hh := r.head.isLt
  have hnext : r.release.head.val = if r.head.val + 1 < n then r.head.val + 1 else 0 :=
    val_next r.head
  rw [offset_eq, offset_eq, hnext]
  by_cases h : i = r.head
  · rw [if_pos h, h]
    split <;> split <;> omega
  · have hne : i.val ≠ r.head.val := fun e => h (Fin.ext e)
    rw [if_neg h]
    split <;> split <;> split <;> omega

lemma Windowed.release {r : Ring n} (h : r.Windowed) (hpos : 0 < r.count) :
    r.release.Windowed := by
  have htail := h.tail_wrap
  have hh := r.head.isLt
  have hle := h.count_le
  refine ⟨?_, ?_, fun i hi => ?_⟩
  · change r.count - 1 ≤ n
    omega
  · change r.tail.val = ((r.head + 1).val + (r.count - 1)) % n
    rw [val_next]
    split at htail <;> split <;> rw [mod_wrap (by omega)] <;> split <;> omega
  · change r.release.offset i < r.count - 1 at hi
    rw [offset_release] at hi
    rw [release_state]
    split at hi
    · omega
    · rename_i hne
      rw [if_neg hne]
      have : r.offset i ≠ 0 := fun e => hne (offset_eq_zero e)
      exact h.inside i (by omega)

lemma Shaped.release {r : Ring n} (h : r.Shaped) (hpos : 0 < r.count) : r.release.Shaped := by
  have hwin := h.windowed.release hpos
  refine ⟨hwin.count_le, hwin.tail_eq, fun i hi => ?_, hwin.inside⟩
  change r.count - 1 ≤ r.release.offset i at hi
  rw [offset_release] at hi
  rw [release_state]
  split
  · rfl
  · rename_i hne
    rw [if_neg hne] at hi
    have : r.offset i ≠ 0 := fun e => hne (offset_eq_zero e)
    exact h.outside i (by omega)

/-- Draining leaves nothing to release at the head. -/
lemma Windowed.drain {r : Ring n} (h : r.Windowed) : r.drain.Headed := by
  induction r using drain.induct with
  | case1 r hcond ih =>
    rw [Ring.drain, if_pos hcond]
    exact ih (h.release hcond.1)
  | case2 r hcond =>
    rw [Ring.drain, if_neg hcond]
    refine ⟨h, fun hpos => ?_⟩
    have hhead : r.offset r.head < r.count := by simpa [offset] using hpos
    have hne := h.inside r.head hhead
    cases hst : r.state r.head with
    | free => exact absurd hst hne
    | allocated => rfl
    | retired => exact absurd ⟨hpos, hst⟩ hcond

lemma Shaped.drain {r : Ring n} (h : r.Shaped) : r.drain.WellFormed := by
  refine ⟨?_, h.windowed.drain.head_live⟩
  induction r using drain.induct with
  | case1 r hcond ih =>
    rw [Ring.drain, if_pos hcond]
    exact ih (h.release hcond.1)
  | case2 r hcond =>
    rw [Ring.drain, if_neg hcond]
    exact h

/-- Draining allocates nothing and gives up nothing. -/
lemma drain_allocated (r : Ring n) (i : Fin n) :
    r.drain.state i = .allocated ↔ r.state i = .allocated := by
  induction r using drain.induct with
  | case1 r hcond ih =>
    rw [drain, if_pos hcond, ih, release_state]
    split
    · rename_i he
      simp [he, hcond.2]
    · rfl
  | case2 r hcond => rw [drain, if_neg hcond]

/-- Whatever slot is given up, the ring stays sound. -/
theorem Headed.retire {r : Ring n} (h : r.Headed) (i : Fin n) : (r.retire i).Headed :=
  (h.toWindowed.mark i).drain

theorem WellFormed.retire {r : Ring n} (h : r.WellFormed) {i : Fin n}
    (hi : r.state i = .allocated) : (r.retire i).WellFormed :=
  (h.toShaped.mark hi).drain

lemma retire_allocated {r : Ring n} {i j : Fin n} :
    (r.retire i).state j = .allocated ↔ j ≠ i ∧ r.state j = .allocated := by
  rw [retire, drain_allocated, mark_state]
  by_cases h : j = i <;> simp [h]

/-- The ring with all slots free. -/
def empty : Ring n where
  head := 0
  tail := 0
  count := 0
  state := fun _ => .free

lemma empty_wellFormed : (empty : Ring n).WellFormed where
  count_le := Nat.zero_le n
  tail_eq := by simp [empty]
  outside := fun _ _ => rfl
  inside := fun _ h => absurd h (Nat.not_lt_zero _)
  head_live := fun h => absurd h (Nat.lt_irrefl 0)

/-! ## First in, first out -/

/-- The slots from the head on, in the order in which they were filled. -/
def window (r : Ring n) : List (Fin n) :=
  List.iterate (· + 1) r.head r.count

/-- The slots that `drain` releases, in the order in which it does so. -/
def drained (r : Ring n) : List (Fin n) :=
  if 0 < r.count ∧ r.state r.head = .retired then r.head :: drained r.release
  else []
termination_by r.count
decreasing_by
  simp only [release]
  omega

/-- The slot some places behind another. -/
lemma iterate_next (i : Fin n) (k : ℕ) : ((· + 1)^[k] i).val = (i.val + k) % n := by
  induction k with
  | zero => exact (Nat.mod_eq_of_lt i.isLt).symm
  | succ k ih =>
    rw [Function.iterate_succ_apply', Fin.val_add, ih, Fin.val_one', ← Nat.add_mod, Nat.add_assoc]

/-- The window holds the slots in use and no others. -/
lemma Shaped.mem_window {r : Ring n} (h : r.Shaped) {i : Fin n} :
    i ∈ r.window ↔ r.state i ≠ .free := by
  have hle := h.count_le
  rw [window, List.mem_iterate]
  constructor
  · intro hi
    obtain ⟨k, hk, rfl⟩ := hi
    apply h.inside
    rw [r.offset_of_add (Nat.lt_of_lt_of_le hk hle) (iterate_next r.head k)]
    exact hk
  · intro hi
    refine ⟨r.offset i, h.offset_lt_count hi, r.offset_injective ?_⟩
    exact (r.offset_of_add (i - r.head).isLt (iterate_next r.head _)).symm

/-- No slot is in the window twice. -/
lemma Windowed.nodup_window {r : Ring n} (h : r.Windowed) : r.window.Nodup := by
  have hle := h.count_le
  rw [List.nodup_iff_injective_getElem]
  intro j k hjk
  have hj := j.isLt
  have hk := k.isLt
  simp only [window, List.length_iterate] at hj hk
  simp only [window, List.getElem_iterate] at hjk
  have hoffset := congrArg r.offset hjk
  rw [r.offset_of_add (Nat.lt_of_lt_of_le hj hle) (iterate_next r.head _),
    r.offset_of_add (Nat.lt_of_lt_of_le hk hle) (iterate_next r.head _)] at hoffset
  exact Fin.ext hoffset

lemma Windowed.window_push {r : Ring n} (h : r.Windowed) : r.push.window = r.window ++ [r.tail] := by
  have htail : (· + 1)^[r.count] r.head = r.tail :=
    Fin.ext ((iterate_next r.head r.count).trans h.tail_eq.symm)
  have hpush : r.push.window = List.iterate (· + 1) r.head (r.count + 1) := rfl
  rw [hpush, List.iterate_add, htail]
  rfl

lemma window_release {r : Ring n} (hpos : 0 < r.count) :
    r.window = r.head :: r.release.window := by
  obtain ⟨k, hk⟩ := Nat.exists_eq_succ_of_ne_zero (Nat.ne_of_gt hpos)
  have hrelease : r.release.window = List.iterate (· + 1) (r.head + 1) (r.count - 1) := rfl
  rw [hrelease, window, hk]
  rfl

/-- Slots are released in the order in which they were filled. -/
theorem window_drain (r : Ring n) : r.window = r.drained ++ r.drain.window := by
  induction r using drain.induct with
  | case1 r hcond ih =>
    rw [drain, drained, if_pos hcond, if_pos hcond, window_release hcond.1, ih]
    rfl
  | case2 r hcond =>
    rw [drain, drained, if_neg hcond, if_neg hcond]
    rfl

omit [NeZero n] in
/-- A ring in which nothing is allocated is empty. -/
lemma WellFormed.empty_of_none {r : Ring n} (h : r.WellFormed)
    (hnone : ∀ i, r.state i ≠ .allocated) : r.count = 0 ∧ ∀ i, r.state i = .free := by
  have hcount : r.count = 0 := Nat.eq_zero_of_not_pos fun hpos => hnone _ (h.head_live hpos)
  refine ⟨hcount, fun i => h.outside i ?_⟩
  rw [hcount]
  exact Nat.zero_le _

end Ring

/-! ## Buffers -/

/-- Entries that carry the state of their slot. -/
class SlotEntry (ε : Type*) where
  state : ε → SlotState
  setState : ε → SlotState → ε
  state_setState : ∀ e st, state (setState e st) = st

structure Buffer (n : Nat) (ε : Type*) where
  head : Fin n
  tail : Fin n
  count : Nat
  slots : Fin n → ε

namespace Buffer

variable {n : Nat} {ε : Type*} [SlotEntry ε]

/-- The ring a buffer is seen as. -/
def ring (b : Buffer n ε) : Ring n :=
  ⟨b.head, b.tail, b.count, fun i => SlotEntry.state (b.slots i)⟩

/-- Replace the entry in a slot. -/
def set (b : Buffer n ε) (i : Fin n) (entry : ε) : Buffer n ε :=
  { b with slots := Function.update b.slots i entry }

lemma state_update (slots : Fin n → ε) (i : Fin n) (entry : ε) :
    (fun j => SlotEntry.state (Function.update slots i entry j)) =
      Function.update (fun j => SlotEntry.state (slots j)) i (SlotEntry.state entry) := by
  funext j
  by_cases h : j = i
  · simp [h]
  · simp [h]

lemma ring_set (b : Buffer n ε) (i : Fin n) {entry : ε} (h : SlotEntry.state entry = .retired) :
    (b.set i entry).ring = b.ring.mark i := by
  simp only [ring, set, Ring.mark, state_update, h]

variable [NeZero n]

/-- Put an entry in the slot at the tail. -/
def put (b : Buffer n ε) (entry : ε) : Buffer n ε :=
  { b with
    slots := Function.update b.slots b.tail entry
    tail := b.tail + 1
    count := b.count + 1 }

/-- Free the slot at the head. -/
def release (b : Buffer n ε) : Buffer n ε :=
  { b with
    slots := Function.update b.slots b.head (SlotEntry.setState (b.slots b.head) .free)
    head := b.head + 1
    count := b.count - 1 }

/-- Free the retired slots at the head. -/
def drain (b : Buffer n ε) : Buffer n ε :=
  if 0 < b.count ∧ SlotEntry.state (b.slots b.head) = .retired then drain b.release
  else b
termination_by b.count
decreasing_by
  simp only [release]
  omega

lemma ring_put (b : Buffer n ε) {entry : ε} (h : SlotEntry.state entry = .allocated) :
    (b.put entry).ring = b.ring.push := by
  simp only [ring, put, Ring.push, state_update, h]

lemma ring_release (b : Buffer n ε) : b.release.ring = b.ring.release := by
  simp only [ring, release, Ring.release, state_update, SlotEntry.state_setState]

lemma ring_drain (b : Buffer n ε) : b.drain.ring = b.ring.drain := by
  induction b using drain.induct with
  | case1 b hcond ih =>
    have hring : b.ring.drain = b.ring.release.drain := by
      rw [Ring.drain]
      exact if_pos hcond
    rw [drain, if_pos hcond, ih, ring_release, hring]
  | case2 b hcond =>
    have hring : b.ring.drain = b.ring := by
      rw [Ring.drain]
      exact if_neg hcond
    rw [drain, if_neg hcond, hring]

omit [SlotEntry ε] in
lemma put_slots (b : Buffer n ε) (entry : ε) (i : Fin n) :
    (b.put entry).slots i = if i = b.tail then entry else b.slots i := by
  simp only [put, Function.update_apply]

/-- Draining leaves the entries in allocated slots alone. -/
lemma drain_slots (b : Buffer n ε) {i : Fin n} (h : SlotEntry.state (b.slots i) = .allocated) :
    b.drain.slots i = b.slots i := by
  induction b using drain.induct with
  | case1 b hcond ih =>
    have hne : i ≠ b.head := by
      rintro rfl
      rw [hcond.2] at h
      cases h
    have hslot : b.release.slots i = b.slots i := by
      simp [release, hne]
    rw [drain, if_pos hcond, ih (by rw [hslot]; exact h), hslot]
  | case2 b hcond => rw [drain, if_neg hcond]

/-- Replacing an allocated entry before or after draining. -/
lemma drain_set_drain (b : Buffer n ε) {i : Fin n} (entry : ε)
    (h : SlotEntry.state (b.slots i) = .allocated) :
    (b.drain.set i entry).drain = (b.set i entry).drain := by
  induction b using drain.induct with
  | case1 b hcond ih =>
    have hne : b.head ≠ i := by
      rintro rfl
      rw [hcond.2] at h
      cases h
    have hslot : b.release.slots i = b.slots i := by
      simp [release, hne.symm]
    have hhead : (b.set i entry).slots b.head = b.slots b.head :=
      Function.update_of_ne hne _ _
    have hset : (b.set i entry).drain = (b.set i entry).release.drain := by
      rw [drain]
      apply if_pos
      rw [← hhead] at hcond
      exact hcond
    have hdrain : b.drain = b.release.drain := by rw [drain, if_pos hcond]
    have hcomm : (b.set i entry).release = b.release.set i entry := by
      simp only [release, set, Function.update_of_ne hne]
      rw [Function.update_comm hne]
    rw [hdrain, ih (by rw [hslot]; exact h), hset, hcomm]
  | case2 b hcond =>
    have hdrain : b.drain = b := by rw [drain, if_neg hcond]
    rw [hdrain]

/-- Two allocated entries are given up in either order. -/
theorem drain_set_comm (b : Buffer n ε) {i j : Fin n} (hne : i ≠ j) (entry entry' : ε)
    (hi : SlotEntry.state (b.slots i) = .allocated) (hj : SlotEntry.state (b.slots j) = .allocated) :
    ((b.set i entry).drain.set j entry').drain = ((b.set j entry').drain.set i entry).drain := by
  have hi' : SlotEntry.state ((b.set j entry').slots i) = .allocated := by
    rw [set]
    dsimp only
    rwa [Function.update_of_ne hne]
  have hj' : SlotEntry.state ((b.set i entry).slots j) = .allocated := by
    rw [set]
    dsimp only
    rwa [Function.update_of_ne hne.symm]
  rw [drain_set_drain _ entry' hj', drain_set_drain _ entry hi', set, set, set, set]
  dsimp only
  rw [Function.update_comm hne]

/-- Draining only frees. -/
lemma drain_count_le (b : Buffer n ε) : b.drain.count ≤ b.count := by
  induction b using drain.induct with
  | case1 b hcond ih =>
    rw [drain, if_pos hcond]
    exact Nat.le_trans ih (Nat.sub_le _ _)
  | case2 b hcond => rw [drain, if_neg hcond]

/-- The buffer with zeroed entries. -/
def zero (entry : ε) : Buffer n ε :=
  ⟨0, 0, 0, fun _ => entry⟩

lemma ring_zero {entry : ε} (h : SlotEntry.state entry = .free) :
    (zero entry : Buffer n ε).ring = Ring.empty := by
  simp only [ring, zero, Ring.empty, h]

end Buffer

end SlotRing
