import Mathlib.Data.List.Basic
import Bemi.Lib.Chain

/-!
# Counting loops

Two shapes of a `for` loop. `forBreak` goes over some items and may leave the loop after any of them;
`forUpTo` counts a 32-bit variable up to a last value that it includes, and never ends when that is
the greatest one. Each does its body for a list of items: `visited`, `upTo`. A loop that overwrites its
result at every item that matches answers for the last of these: `IsLast`.
-/

namespace Loop
open Chain

variable {α σ : Type*}

/-! ## Loops with a break -/

/-- The body answers the next state and whether to go on. -/
def forBreak (body : α → σ → σ × Bool) : List α → σ → σ
  | [], s => s
  | a :: as, s => if (body a s).2 then forBreak body as (body a s).1 else (body a s).1

/-- The items up to the first one that leaves the loop, with that one. -/
def visited (go : α → Bool) : List α → List α
  | [] => []
  | a :: as => a :: if go a then visited go as else []

/-- Where only the item decides whether to go on, the body is done for the items visited. -/
lemma forBreak_eq_foldl {body : α → σ → σ × Bool} {go : α → Bool} (h : ∀ a s, (body a s).2 = go a)
    (as : List α) (s : σ) :
    forBreak body as s = (visited go as).foldl (fun s a => (body a s).1) s := by
  induction as generalizing s with
  | nil => rfl
  | cons a as ih =>
    rw [forBreak, visited, List.foldl_cons, h]
    cases go a with
    | true => exact ih _
    | false => rfl

/-- `k` is the last of the first `n` items that satisfies `p`, among those that the loop reaches. -/
structure IsLast (p go : Nat → Prop) (n k : Nat) : Prop where
  lt : k < n
  reached : ∀ i < k, go i
  holds : p k
  last : ∀ j, k < j → j < n → (∀ i < j, go i) → ¬ p j

lemma IsLast.of_lt {p go : Nat → Prop} {m n k : Nat} (h : IsLast p go n k) (hmn : m ≤ n)
    (hk : k < m) : IsLast p go m k :=
  ⟨hk, h.reached, h.holds, fun j hj hjm => h.last j hj (Nat.lt_of_lt_of_le hjm hmn)⟩

lemma IsLast.unique {p go : Nat → Prop} {n j k : Nat} (hj : IsLast p go n j)
    (hk : IsLast p go n k) : j = k := by
  rcases Nat.lt_trichotomy j k with hlt | heq | hlt
  · exact absurd hk.holds (hj.last k hlt hk.lt hk.reached)
  · exact heq
  · exact absurd hj.holds (hk.last j hlt hj.lt hj.reached)

lemma isLast_succ {p go : Nat → Prop} {n k : Nat} (hn : (∀ i < n, go i) ∧ p n) :
    IsLast p go (n + 1) k ↔ k = n := by
  constructor
  · intro h
    by_contra hk
    exact h.last n (by have := h.lt; omega) n.lt_succ_self hn.1 hn.2
  · rintro rfl
    exact ⟨k.lt_succ_self, hn.1, hn.2, fun j hj hjk => absurd hjk (by omega)⟩

lemma isLast_succ_of_not {p go : Nat → Prop} {n k : Nat} (hn : ¬ ((∀ i < n, go i) ∧ p n)) :
    IsLast p go (n + 1) k ↔ IsLast p go n k := by
  constructor
  · intro h
    refine h.of_lt n.le_succ (Nat.lt_of_le_of_ne (Nat.le_of_lt_succ h.lt) ?_)
    rintro rfl
    exact hn ⟨h.reached, h.holds⟩
  · intro h
    refine ⟨Nat.lt_succ_of_lt h.lt, h.reached, h.holds, fun j hj hjn hgo hp => ?_⟩
    rcases Nat.lt_succ_iff_lt_or_eq.mp hjn with hlt | rfl
    · exact h.last j hj hlt hgo hp
    · exact hn ⟨hgo, hp⟩

/-- The items visited of a longer list: those before, and the next one if all of them went on. -/
lemma visited_concat (go : α → Bool) (as : List α) (a : α) :
    visited go (as ++ [a]) = visited go as ++ if as.all go then [a] else [] := by
  induction as with
  | nil => simp [visited]
  | cons b as ih =>
    cases hb : go b with
    | true => simp [visited, hb, ih]
    | false => simp [visited, hb]

section
variable {p go : Nat → Bool} {f : Nat → σ} {body : Nat → σ → σ × Bool}
  (h : ∀ i s, body i s = (if p i then f i else s, go i)) (n : Nat) (s : σ)
include h

lemma forBreak_range_succ :
    forBreak body (List.range (n + 1)) s =
      if (∀ i < n, go i) ∧ p n then f n else forBreak body (List.range n) s := by
  have hgo : ∀ i s, (body i s).2 = go i := fun i s => by rw [h]
  rw [forBreak_eq_foldl hgo, forBreak_eq_foldl hgo, List.range_succ, visited_concat,
    List.foldl_append]
  by_cases hall : ∀ i < n, go i = true
  · have hrange : (List.range n).all go = true := by simpa using hall
    rw [if_pos hrange, List.foldl_cons, List.foldl_nil, h]
    cases p n with
    | true => rw [if_pos rfl, if_pos ⟨hall, rfl⟩]
    | false => rw [if_neg Bool.false_ne_true, if_neg fun hp => Bool.false_ne_true hp.2]
  · have hrange : ¬ (List.range n).all go = true := by simpa using hall
    rw [if_neg hrange, List.foldl_nil, if_neg fun hp => hall hp.1]

/-- A loop that keeps what the last matching item gives answers that. -/
lemma forBreak_last {k : Nat} (hk : IsLast (p ·) (go ·) n k) :
    forBreak body (List.range n) s = f k := by
  induction n with
  | zero => exact absurd hk.lt k.not_lt_zero
  | succ n ih =>
    rw [forBreak_range_succ h]
    split
    · rename_i hn
      rw [(isLast_succ hn).mp hk]
    · rename_i hn
      exact ih ((isLast_succ_of_not hn).mp hk)

/-- Without one it leaves the state. -/
lemma forBreak_none (hnone : ∀ k, ¬ IsLast (p ·) (go ·) n k) :
    forBreak body (List.range n) s = s := by
  induction n with
  | zero => rfl
  | succ n ih =>
    rw [forBreak_range_succ h]
    split
    · rename_i hn
      exact absurd ((isLast_succ hn).mpr rfl) (hnone n)
    · rename_i hn
      exact ih fun k hk => hnone k ((isLast_succ_of_not hn).mpr hk)

end

/-! ## Counting up -/

/-- `for (i = first; i <= last; i++)`, with fuel. -/
def forUpTo (body : UInt32 → σ → σ) (last : UInt32) : Nat → UInt32 → σ → Option σ
  | 0, _, _ => none
  | fuel + 1, i, s => if i ≤ last then forUpTo body last fuel (i + 1) (body i s) else some s

/-- The numbers from the first one to the last one. -/
def upTo (first last : UInt32) : List UInt32 :=
  (List.range (last.toNat + 1 - first.toNat)).map fun k => first + UInt32.ofNat k

lemma toNat_succ {i last : UInt32} (h : i ≤ last) (hlast : last ≠ 0xFFFFFFFF) :
    (i + 1).toNat = i.toNat + 1 := by
  have hle := UInt32.le_iff_toNat_le.mp h
  have hne : last.toNat ≠ 0xFFFFFFFF := fun heq => hlast (UInt32.toNat_inj.mp heq)
  have hlt := last.toNat_lt
  rw [UInt32.toNat_add, UInt32.toNat_one]
  exact Nat.mod_eq_of_lt (by omega)

lemma upTo_nil {i last : UInt32} (h : ¬ i ≤ last) : upTo i last = [] := by
  have hlt := UInt32.le_iff_toNat_le.not.mp h
  rw [upTo, Nat.sub_eq_zero_of_le (by omega), List.range_zero, List.map_nil]

lemma upTo_cons {i last : UInt32} (h : i ≤ last) (hlast : last ≠ 0xFFFFFFFF) :
    upTo i last = i :: upTo (i + 1) last := by
  have hle := UInt32.le_iff_toNat_le.mp h
  have hlen : last.toNat + 1 - i.toNat = last.toNat + 1 - (i + 1).toNat + 1 := by
    rw [toNat_succ h hlast]
    omega
  rw [upTo, hlen, List.range_succ_eq_map, List.map_cons, List.map_map, upTo]
  congr 1
  · exact UInt32.add_zero i
  · apply List.map_congr_left
    intro k _
    rw [Function.comp_apply, Nat.succ_eq_add_one, UInt32.ofNat_add, UInt32.add_comm (UInt32.ofNat k),
      ← UInt32.add_assoc]
    rfl

lemma mem_upTo {first last a : UInt32} : a ∈ upTo first last ↔ first ≤ a ∧ a ≤ last := by
  rw [upTo, List.mem_map, UInt32.le_iff_toNat_le, UInt32.le_iff_toNat_le]
  constructor
  · rintro ⟨k, hk, rfl⟩
    have hlt := last.toNat_lt
    have hk := List.mem_range.mp hk
    rw [UInt32.toNat_add, UInt32.toNat_ofNat', Nat.mod_eq_of_lt (show k < 2 ^ 32 by omega),
      Nat.mod_eq_of_lt (by omega)]
    omega
  · rintro ⟨hfirst, hlast⟩
    refine ⟨a.toNat - first.toNat, List.mem_range.mpr (by omega), ?_⟩
    have ha := a.toNat_lt
    apply UInt32.toNat_inj.mp
    have hdiff : (UInt32.ofNat (a.toNat - first.toNat)).toNat = a.toNat - first.toNat :=
      UInt32.toNat_ofNat_of_lt' (Nat.lt_of_le_of_lt (Nat.sub_le ..) ha)
    rw [UInt32.toNat_add, hdiff, Nat.add_sub_of_le hfirst, Nat.mod_eq_of_lt ha]

/-- A loop up to less than the greatest number does its body for each of the numbers. -/
lemma forUpTo_settles (body : UInt32 → σ → σ) {last : UInt32} (hlast : last ≠ 0xFFFFFFFF)
    (first : UInt32) (s : σ) :
    Settles (fun fuel => forUpTo body last fuel first s)
      ((upTo first last).foldl (fun s i => body i s) s) := by
  refine ⟨last.toNat + 1 - first.toNat + 1, fun fuel hfuel => ?_⟩
  induction fuel generalizing first s with
  | zero => exact absurd hfuel (Nat.not_succ_le_zero _)
  | succ fuel ih =>
    dsimp only [forUpTo]
    split
    · rename_i h
      have hle := UInt32.le_iff_toNat_le.mp h
      rw [upTo_cons h hlast, List.foldl_cons]
      apply ih
      rw [toNat_succ h hlast]
      omega
    · rename_i h
      rw [upTo_nil h, List.foldl_nil]

/-- A loop up to the greatest number does not end. -/
lemma forUpTo_diverges (body : UInt32 → σ → σ) (fuel : Nat) (first : UInt32) (s : σ) :
    forUpTo body 0xFFFFFFFF fuel first s = none := by
  induction fuel generalizing first s with
  | zero => rfl
  | succ fuel ih =>
    have hle : first ≤ 0xFFFFFFFF := UInt32.le_iff_toNat_le.mpr (Nat.le_of_lt_succ first.toNat_lt)
    rw [forUpTo, if_pos hle]
    exact ih _ _

end Loop
