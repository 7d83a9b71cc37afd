import Mathlib.Tactic.Common
import Mathlib.Data.List.Induction

/-!
# Since

`Since p q l` says of a list of events that one with `p` has happened, and neither another one nor
one with `q` after it. What an event with `p` brings about and one with `q` undoes is there exactly
then: `foldl_iff_since`.
-/

namespace History

variable {α σ : Type*}

def Since (p q : α → Prop) (l : List α) : Prop :=
  ∃ pre ev post, l = pre ++ ev :: post ∧ p ev ∧ ∀ e ∈ post, ¬ p e ∧ ¬ q e

variable {p q : α → Prop}

lemma not_since_nil : ¬ Since p q [] := by
  rintro ⟨pre, ev, post, h, -⟩
  simp at h

lemma since_concat {l : List α} {e : α} :
    Since p q (l ++ [e]) ↔ p e ∨ Since p q l ∧ ¬ q e := by
  constructor
  · rintro ⟨pre, ev, post, h, hp, hpost⟩
    cases post using List.reverseRecOn with
    | nil =>
      obtain ⟨-, hev⟩ := List.append_inj' h rfl
      cases hev
      exact .inl hp
    | append_singleton post e' =>
      rw [← List.cons_append, ← List.append_assoc] at h
      obtain ⟨hl, he⟩ := List.append_inj' h rfl
      cases he
      have hlast : ¬ p e ∧ ¬ q e := hpost e (by simp)
      exact .inr ⟨⟨pre, ev, post, hl, hp, fun x hx => hpost x (by simp [hx])⟩, hlast.2⟩
  · intro h
    by_cases hp : p e
    · exact ⟨l, e, [], rfl, hp, nofun⟩
    · obtain ⟨⟨pre, ev, post, rfl, hev, hpost⟩, hq⟩ := h.resolve_left hp
      refine ⟨pre, ev, post ++ [e], by simp, hev, fun x hx => ?_⟩
      rcases List.mem_append.mp hx with hx | hx
      · exact hpost x hx
      · obtain rfl := List.mem_singleton.mp hx
        exact ⟨hp, hq⟩

/-- The events of a counting loop. -/
lemma since_map_range {f : Nat → α} {n : Nat} : Since p q ((List.range n).map f) ↔
    ∃ j < n, p (f j) ∧ ∀ k, j < k → k < n → ¬ p (f k) ∧ ¬ q (f k) := by
  induction n with
  | zero => exact iff_of_false not_since_nil fun h => Nat.not_lt_zero _ h.choose_spec.1
  | succ n ih =>
    rw [List.range_succ, List.map_append, List.map_cons, List.map_nil, since_concat, ih]
    constructor
    · rintro (hp | ⟨⟨j, hj, hp, hlast⟩, hq⟩)
      · exact ⟨n, Nat.lt_succ_self n, hp, fun k hk hk' => absurd hk' (by omega)⟩
      · by_cases hn : p (f n)
        · exact ⟨n, Nat.lt_succ_self n, hn, fun k hk hk' => absurd hk' (by omega)⟩
        · refine ⟨j, by omega, hp, fun k hk hk' => ?_⟩
          rcases Nat.lt_succ_iff_lt_or_eq.mp hk' with hlt | rfl
          · exact hlast k hk hlt
          · exact ⟨hn, hq⟩
    · rintro ⟨j, hj, hp, hlast⟩
      rcases Nat.lt_succ_iff_lt_or_eq.mp hj with hlt | rfl
      · refine .inr ⟨⟨j, hlt, hp, fun k hk hk' => hlast k hk (by omega)⟩, ?_⟩
        exact (hlast n hlt (Nat.lt_succ_self n)).2
      · exact .inl hp

/-- What `p` brings about and `q` undoes, in the states that keep an invariant. -/
theorem foldl_iff_since {step : σ → α → σ} {I R : σ → Prop} {s : σ} (init : I s) (hnot : ¬ R s)
    (keep : ∀ s e, I s → I (step s e))
    (hstep : ∀ s e, I s → (R (step s e) ↔ p e ∨ R s ∧ ¬ q e)) (l : List α) :
    R (l.foldl step s) ↔ Since p q l := by
  suffices h : I (l.foldl step s) ∧ (R (l.foldl step s) ↔ Since p q l) from h.2
  induction l using List.reverseRecOn with
  | nil => exact ⟨init, iff_of_false hnot not_since_nil⟩
  | append_singleton l e ih =>
    obtain ⟨hI, hR⟩ := ih
    rw [List.foldl_append, List.foldl_cons, List.foldl_nil]
    refine ⟨keep _ e hI, ?_⟩
    rw [hstep _ e hI, hR, since_concat]

end History
