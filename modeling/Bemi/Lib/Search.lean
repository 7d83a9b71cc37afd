import Mathlib.Data.List.Basic

/-!
# Searching for the best candidate

A search goes over candidates, some of which are not feasible, and keeps one that is better than what
it has so far. It starts from a preset, which need not be feasible.
-/

namespace Search

variable {α : Type*} (better : α → α → Bool)

/-- One candidate, `none` if it is not feasible. -/
def consider (best : α) : Option α → α
  | none => best
  | some a => if better a best then a else best

def search (preset : α) (cs : List (Option α)) : α := cs.foldl (consider better) preset

/-- The search ends with the preset or with a feasible candidate. -/
lemma search_cases (preset : α) (cs : List (Option α)) :
    search better preset cs = preset ∨ some (search better preset cs) ∈ cs := by
  induction cs generalizing preset with
  | nil => exact .inl rfl
  | cons c cs ih =>
    have hstep : search better preset (c :: cs) = search better (consider better preset c) cs := rfl
    rw [hstep]
    rcases ih (consider better preset c) with heq | hmem
    · rw [heq]
      cases c with
      | none => exact .inl rfl
      | some a =>
        rw [consider]
        split
        · exact .inr (List.mem_cons_self ..)
        · exact .inl rfl
    · exact .inr (List.mem_cons_of_mem _ hmem)

/-- With no feasible candidate the preset stays. -/
lemma search_infeasible {preset : α} {cs : List (Option α)} (h : ∀ c ∈ cs, c = none) :
    search better preset cs = preset := by
  rcases search_cases better preset cs with heq | hmem
  · exact heq
  · cases h _ hmem

/-- Where every feasible candidate is better than the preset, one of them replaces it. -/
lemma search_feasible {preset : α} {cs : List (Option α)}
    (h : ∀ a, some a ∈ cs → better a preset) (hex : ∃ a, some a ∈ cs) :
    some (search better preset cs) ∈ cs := by
  induction cs with
  | nil =>
    obtain ⟨a, ha⟩ := hex
    cases ha
  | cons c cs ih =>
    cases c with
    | none =>
      obtain ⟨a, ha⟩ := hex
      have ha' : some a ∈ cs := List.mem_of_ne_of_mem (by simp) ha
      exact List.mem_cons_of_mem _ (ih (fun b hb => h b (List.mem_cons_of_mem _ hb)) ⟨a, ha'⟩)
    | some a =>
      have hstep : search better preset (some a :: cs) = search better a cs := by
        rw [search, List.foldl_cons, consider, if_pos (h a (List.mem_cons_self ..))]
        rfl
      rw [hstep]
      rcases search_cases better a cs with heq | hmem
      · rw [heq]
        exact List.mem_cons_self ..
      · exact List.mem_cons_of_mem _ hmem

end Search
