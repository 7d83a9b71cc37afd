import Mathlib.Data.List.Forall2
import Bemi.Lib.SlotRing

/-!
# Buffers as queues

The entries of a buffer from its head on. Putting an entry in appends it, draining drops a part at
the front, and replacing an entry keeps its place. So entries that match a list of descriptions go on
matching it: `forall₂_put`, `forall₂_set` and `forall₂_drain`.
-/

namespace SlotRing.Buffer

variable {n : ℕ} {ε α : Type*} [SlotEntry ε] [NeZero n] {b : Buffer n ε} {R : α → ε → Prop}
  {l : List α}

/-- The entries in use, in the order in which they were put in. -/
def entries (b : Buffer n ε) : List ε := b.ring.window.map b.slots

lemma entries_put (h : b.ring.Shaped) (hlt : b.count < n) {entry : ε}
    (hentry : SlotEntry.state entry = .allocated) : (b.put entry).entries = b.entries ++ [entry] := by
  have htail : b.tail ∉ b.ring.window := fun hmem => h.mem_window.mp hmem (h.tail_free hlt)
  have hkeep : b.ring.window.map (b.put entry).slots = b.ring.window.map b.slots := by
    refine List.map_congr_left fun i hi => ?_
    rw [put_slots]
    exact if_neg fun (heq : i = b.tail) => htail (heq ▸ hi)
  have hput : (b.put entry).slots b.ring.tail = entry := by
    rw [put_slots]
    exact if_pos rfl
  rw [entries, ring_put b hentry, h.windowed.window_push, List.map_append, hkeep, List.map_singleton,
    hput]
  rfl

/-- Draining changes no slot but those that it releases. -/
lemma drain_slots_of_notMem (b : Buffer n ε) {i : Fin n} (h : i ∉ b.ring.drained) :
    b.drain.slots i = b.slots i := by
  induction b using drain.induct with
  | case1 b hcond ih =>
    have hdrained : b.ring.drained = b.head :: b.release.ring.drained := by
      rw [Ring.drained, ring_release]
      exact if_pos hcond
    rw [hdrained, List.mem_cons, not_or] at h
    rw [drain, if_pos hcond, ih h.2]
    exact Function.update_of_ne h.1 _ _
  | case2 b hcond => rw [drain, if_neg hcond]

lemma entries_drain (h : b.ring.Windowed) :
    b.drain.entries = b.entries.drop b.ring.drained.length := by
  have hsplit := b.ring.window_drain
  have hnodup := h.nodup_window
  rw [hsplit] at hnodup
  have hkeep : b.ring.drain.window.map b.drain.slots = b.ring.drain.window.map b.slots := by
    refine List.map_congr_left fun i hi => b.drain_slots_of_notMem fun hdrained => ?_
    exact (List.disjoint_of_nodup_append hnodup) hdrained hi
  rw [entries, ring_drain, hkeep, entries, hsplit, List.map_append, List.drop_left']
  exact List.length_map _

/-! ### Matching a list of descriptions -/

omit [SlotEntry ε] in
lemma exists_of_forall₂ {u : List ε} (h : List.Forall₂ R l u) {e : ε} (he : e ∈ u) :
    ∃ a ∈ l, R a e := by
  induction h with
  | nil => cases he
  | cons hae _ ih =>
    cases he with
    | head => exact ⟨_, List.mem_cons_self, hae⟩
    | tail _ he =>
      obtain ⟨a, ha, hae⟩ := ih he
      exact ⟨a, List.mem_cons_of_mem _ ha, hae⟩

omit [SlotEntry ε] in
/-- An order of the descriptions is one of the entries. -/
lemma pairwise_of_forall₂ {u : List ε} {S : α → α → Prop} {T : ε → ε → Prop}
    (h : List.Forall₂ R l u) (hl : l.Pairwise S)
    (hrel : ∀ a ∈ l, ∀ a' ∈ l, ∀ e e', R a e → R a' e' → S a a' → T e e') : u.Pairwise T := by
  induction h with
  | nil => exact .nil
  | @cons a e l u hae hrest ih =>
    obtain ⟨hhead, htail⟩ := List.pairwise_cons.mp hl
    refine List.pairwise_cons.mpr ⟨fun e' he' => ?_, ih htail fun a ha a' ha' =>
      hrel a (List.mem_cons_of_mem _ ha) a' (List.mem_cons_of_mem _ ha')⟩
    obtain ⟨a', ha', hae'⟩ := exists_of_forall₂ hrest he'
    exact hrel a List.mem_cons_self a' (List.mem_cons_of_mem _ ha') e e' hae hae' (hhead a' ha')

lemma forall₂_put (h : b.ring.Shaped) (hlt : b.count < n) {entry : ε}
    (hentry : SlotEntry.state entry = .allocated) (hl : List.Forall₂ R l b.entries) {a : α}
    (ha : R a entry) : List.Forall₂ R (l ++ [a]) (b.put entry).entries := by
  rw [entries_put h hlt hentry]
  exact List.rel_append hl (.cons ha .nil)

lemma forall₂_set (hl : List.Forall₂ R l b.entries) {i : Fin n} {entry : ε}
    (hkeep : ∀ a, R a (b.slots i) → R a entry) : List.Forall₂ R l (b.set i entry).entries := by
  rw [entries, List.forall₂_map_right_iff] at hl ⊢
  refine hl.imp fun a j ha => ?_
  rw [set]
  dsimp only
  rcases eq_or_ne j i with rfl | hne
  · rw [Function.update_self]
    exact hkeep a ha
  · rwa [Function.update_of_ne hne]

lemma forall₂_drain (h : b.ring.Windowed) (hl : List.Forall₂ R l b.entries) :
    ∃ l', l' <:+ l ∧ List.Forall₂ R l' b.drain.entries := by
  rw [entries_drain h]
  exact ⟨_, List.drop_suffix _ l, List.forall₂_drop _ hl⟩

end SlotRing.Buffer
