import Mathlib.Tactic.Common
import Mathlib.Data.List.TakeDrop

/-!
# Arrays filled from the front

A fixed array of which the first entries are in use is a list that cannot grow past the capacity of
the array. Writing the next entry appends to the list; appending piece by piece to a list that is cut
off at the capacity is the same as appending all and cutting off once.
-/

namespace Filling

variable {α : Type*} {cap : Nat}

/-- Writing the entry behind the ones in use appends it to them. -/
lemma take_set (v : Vector α cap) {n : Nat} (h : n < cap) (x : α) :
    (v.set n x).toList.take (n + 1) = v.toList.take n ++ [x] := by
  have hn : n < v.toList.length := by simpa using h
  rw [Vector.toList_set, List.take_succ_eq_append_getElem (by simpa using h)]
  rw [List.take_set_of_le (Nat.le_refl n), List.getElem_set_self]

/-- What was cut off once leaves no room for what follows. -/
lemma take_take_append (n : Nat) (xs ys : List α) :
    (xs.take n ++ ys).take n = (xs ++ ys).take n := by
  simp only [List.take_append, List.take_take, Nat.min_self, List.length_take]
  congr 2
  omega

/-- A run of writes appends what is written and cuts off once. -/
lemma foldl_take {β γ : Type*} {get : β → List α} {put : β → γ → β} {e : γ → α} {n : Nat}
    (h : ∀ t x, get (put t x) = (get t ++ [e x]).take n) (xs : List γ) (t : β)
    (ht : (get t).length ≤ n) : get (xs.foldl put t) = (get t ++ xs.map e).take n := by
  induction xs generalizing t with
  | nil => rw [List.foldl_nil, List.map_nil, List.append_nil, List.take_of_length_le ht]
  | cons x xs ih =>
    have hput : (get (put t x)).length ≤ n := h t x ▸ List.length_take_le ..
    rw [List.foldl_cons, ih _ hput, h, take_take_append, List.append_assoc, List.map_cons,
      List.singleton_append]

/-- Writing the next entry if there is room for it. -/
def push (n : Nat) (xs : List α) (x : α) : List α := if xs.length < n then xs ++ [x] else xs

lemma length_push_le {n : Nat} {xs : List α} (h : xs.length ≤ n) (x : α) :
    (push n xs x).length ≤ n := by
  rw [push]
  split
  · rename_i hlt
    rw [List.length_append, List.length_singleton]
    exact hlt
  · exact h

lemma length_push {n : Nat} {xs : List α} (h : xs.length ≤ n) (x : α) :
    (push n xs x).length = min (xs.length + 1) n := by
  rw [push]
  split
  · rw [List.length_append, List.length_singleton]
    omega
  · omega

/-- The first entry that passes a test is one of those there were, or the new one. -/
lemma find?_push (n : Nat) (xs : List α) (x : α) (p : α → Bool) :
    (push n xs x).find? p =
      (xs.find? p).or (if xs.length < n ∧ p x = true then some x else none) := by
  rw [push]
  split
  next hroom =>
    rw [List.find?_append, List.find?_singleton]
    cases hp : p x <;> simp [hroom]
  next hfull => simp [hfull]

/-- Writing behind the entries that were kept keeps what there is room for. -/
lemma push_take (n : Nat) (xs : List α) (x : α) : push n (xs.take n) x = (xs ++ [x]).take n := by
  rw [← take_take_append, push]
  have hlength := List.length_take_le n xs
  split
  · rename_i hroom
    have hle : (xs.take n ++ [x]).length ≤ n := by
      rw [List.length_append, List.length_singleton]
      exact hroom
    exact (List.take_of_length_le hle).symm
  · rename_i hfull
    rw [List.take_append_of_le_length (by omega), List.take_of_length_le hlength]

end Filling
