import Mathlib.Tactic.Common
import Mathlib.Data.List.Basic

/-!
# Tables searched from the front

A table is a list of entries, an entry is looked up by a test, and the first one that passes is the
one meant. What a lookup finds after the entry at a position has been replaced.
-/

namespace Lookup

variable {ε : Type*} {p : ε → Bool} {t : List ε}

/-- The entry at the position found. -/
lemma find?_of_findFinIdx? {i : Fin t.length} (h : t.findFinIdx? p = some i) :
    t.find? p = some t[i] := by
  rw [List.find?_eq_map_findFinIdx?_getElem, h, Option.map_some]

/-- Replacing the entry found by one that passes the test too. -/
lemma find?_set_self {i : Fin t.length} (h : t.findFinIdx? p = some i) {e : ε} (he : p e = true) :
    (t.set i e).find? p = some e := by
  obtain ⟨-, first⟩ := List.findFinIdx?_eq_some_iff.mp h
  apply List.find?_eq_some_iff_getElem.mpr
  refine ⟨he, i, by simp, List.getElem_set_self .., fun j hj => ?_⟩
  rw [List.getElem_set_ne (Nat.ne_of_gt hj)]
  simpa using first ⟨j, Nat.lt_trans hj i.isLt⟩ hj

/-- Replacing an entry that fails a test by another one that fails it. -/
lemma find?_set_of_not {i : Nat} (hi : i < t.length) (hp : p t[i] = false) {e : ε}
    (he : p e = false) : (t.set i e).find? p = t.find? p := by
  induction t generalizing i with
  | nil => rfl
  | cons x t ih =>
    cases i with
    | zero => rw [List.set_cons_zero, List.find?_cons_of_neg (by simp [he]),
        List.find?_cons_of_neg (by simpa using hp)]
    | succ i =>
      rw [List.set_cons_succ, List.find?_cons, List.find?_cons,
        ih (Nat.lt_of_succ_lt_succ hi) (by simpa using hp)]

/-- In an ordered table the entry found is the first in the order. -/
lemma find?_pairwise {r : ε → ε → Prop} (hr : ∀ x y, r x y → ¬ r y x) (ht : t.Pairwise r) {x : ε}
    (h : t.find? p = some x) : p x = true ∧ ∀ y ∈ t, r y x → p y = false := by
  induction ht with
  | nil => cases h
  | @cons z t hz _ ih =>
    rw [List.find?_cons] at h
    cases hp : p z with
    | true =>
      rw [hp] at h
      cases h
      refine ⟨hp, fun y hy hyz => ?_⟩
      rcases List.mem_cons.mp hy with rfl | hy
      · exact absurd hyz (hr _ _ hyz)
      · exact absurd hyz (hr _ _ (hz y hy))
    | false =>
      rw [hp] at h
      obtain ⟨hx, hbefore⟩ := ih h
      refine ⟨hx, fun y hy hyx => ?_⟩
      rcases List.mem_cons.mp hy with rfl | hy
      · exact hp
      · exact hbefore y hy hyx

/-- Making an entry pass the test, if it is the one found or none is. -/
lemma find?_of_pass {q : ε → Bool} {x : ε} (hx : x ∈ t) (hq : ∀ y, q y = true ↔ y = x ∨ p y = true)
    (h : t.find? p = some x ∨ t.find? p = none) : t.find? q = some x := by
  induction t with
  | nil => cases hx
  | cons y t ih =>
    rw [List.find?_cons] at h ⊢
    cases hy : p y with
    | true =>
      rw [hy] at h
      obtain rfl : y = x := Option.some.inj (h.resolve_right (Option.some_ne_none y))
      rw [(hq y).mpr (.inl rfl)]
    | false =>
      rw [hy] at h
      by_cases heq : y = x
      · rw [(hq y).mpr (.inl heq), heq]
      · have hnot : q y = false := by simpa [heq, hy] using hq y
        rw [hnot]
        exact ih ((List.mem_cons.mp hx).resolve_left (Ne.symm heq)) h

/-! ## Tables with one entry for each of some keys -/

section
variable {κ : Type*} [DecidableEq κ] {key : ε → κ} {entry : κ → ε} {ks : List κ} {k : κ}

/-- A key is found when it is one of them. -/
lemma find?_map_of_mem (h : ∀ k, key (entry k) = k) (hk : k ∈ ks) :
    (ks.map entry).find? (fun e => key e = k) = some (entry k) := by
  induction ks with
  | nil => cases hk
  | cons k' ks ih =>
    rw [List.map_cons, List.find?_cons, h]
    rcases eq_or_ne k' k with rfl | hne
    · rw [decide_eq_true rfl]
    · rw [decide_eq_false hne]
      exact ih (List.mem_of_ne_of_mem hne.symm hk)

/-- No other key is found. -/
lemma find?_map_of_not_mem (h : ∀ k, key (entry k) = k) (hk : k ∉ ks) :
    (ks.map entry).find? (fun e => key e = k) = none := by
  rw [List.find?_eq_none]
  intro e he
  obtain ⟨k', hk', rfl⟩ := List.mem_map.mp he
  rw [h, decide_eq_true_iff]
  rintro rfl
  exact hk hk'

end

end Lookup
