import Mathlib.Tactic.Common
import Mathlib.Data.List.Induction

/-!
# Straight-line machines

An instruction either hands a new state to the next instruction or stops the run with a result.
`flow` runs a list of instructions, `Flow.finish` turns what it leaves into a result, and `reached`
is the part of the list that the run gets to. Two rewrites of instruction lists are justified here
for every machine: dropping instructions that do nothing (`flow_filter`), and the peephole rewrite
`squash`, which deletes an instruction that its nearest kept predecessor cancels. `squash` needs a
semantic side condition, `Harmless`; `flow_squash` shows that the condition is enough and
`squash_finish_iff` that it is exact once every prefix of the list counts.
-/

namespace Machine

/-- What one instruction leaves: a state for the next one, or the end of the run. -/
inductive Flow (σ ρ : Type*) where
  | next (s : σ)
  | stop (r : ρ)

variable {ι σ ρ : Type*}

/-- Continue with `k` unless the run has stopped. -/
def Flow.bind : Flow σ ρ → (σ → Flow σ ρ) → Flow σ ρ
  | .next s, k => k s
  | .stop r, _ => .stop r

/-- The result of a run whose instructions have all been executed or that has stopped. -/
def Flow.finish (done : σ → ρ) : Flow σ ρ → ρ
  | .next s => done s
  | .stop r => r

/-- Run a list of instructions. -/
def flow (step : ι → σ → Flow σ ρ) : List ι → σ → Flow σ ρ
  | [], s => .next s
  | i :: is, s => (step i s).bind (flow step is)

@[simp] lemma Flow.bind_next (s : σ) (k : σ → Flow σ ρ) : (Flow.next s).bind k = k s := rfl

@[simp] lemma Flow.bind_stop (r : ρ) (k : σ → Flow σ ρ) : (Flow.stop r).bind k = .stop r := rfl

@[simp] lemma Flow.finish_next (done : σ → ρ) (s : σ) : (Flow.next s).finish done = done s := rfl

@[simp] lemma Flow.finish_stop (done : σ → ρ) (r : ρ) :
    (Flow.stop r : Flow σ ρ).finish done = r := rfl

@[simp] lemma Flow.bind_id (f : Flow σ ρ) : f.bind Flow.next = f := by
  cases f with
  | next s => rfl
  | stop r => rfl

lemma Flow.bind_assoc (f : Flow σ ρ) (k l : σ → Flow σ ρ) :
    (f.bind k).bind l = f.bind (fun s => (k s).bind l) := by
  cases f with
  | next s => rfl
  | stop r => rfl

/-- A bind falls through exactly when both halves do. -/
lemma Flow.bind_eq_next {f : Flow σ ρ} {k : σ → Flow σ ρ} {s : σ} :
    f.bind k = .next s ↔ ∃ s', f = .next s' ∧ k s' = .next s := by
  cases f with
  | next s' => simp
  | stop r => simp

section
variable (step : ι → σ → Flow σ ρ)

@[simp] lemma flow_nil (s : σ) : flow step [] s = .next s := rfl

@[simp] lemma flow_cons (i : ι) (is : List ι) (s : σ) :
    flow step (i :: is) s = (step i s).bind (flow step is) := rfl

/-- Running a concatenation is running one list after the other. -/
lemma flow_append (xs ys : List ι) (s : σ) :
    flow step (xs ++ ys) s = (flow step xs s).bind (flow step ys) := by
  induction xs generalizing s with
  | nil => rfl
  | cons x xs ih =>
    rw [List.cons_append, flow_cons, flow_cons, Flow.bind_assoc]
    congr 1
    funext s'
    exact ih s'

/-- The last instruction of a list runs on what the others leave. -/
lemma flow_concat (xs : List ι) (i : ι) (s : σ) :
    flow step (xs ++ [i]) s = (flow step xs s).bind (step i) := by
  rw [flow_append]
  congr 1
  funext s'
  rw [flow_cons, show flow step [] = Flow.next from rfl, Flow.bind_id]

/-- Dropping instructions that do nothing does not change the run. -/
lemma flow_filter {keep : ι → Bool} (idle : ∀ i, keep i = false → ∀ s, step i s = .next s)
    (xs : List ι) (s : σ) : flow step (xs.filter keep) s = flow step xs s := by
  induction xs generalizing s with
  | nil => rfl
  | cons x xs ih =>
    cases hx : keep x with
    | true =>
      rw [List.filter_cons_of_pos hx, flow_cons, flow_cons]
      congr 1
      funext s'
      exact ih s'
    | false =>
      rw [List.filter_cons_of_neg (by simp [hx]), flow_cons, idle x hx s]
      exact ih s

end

/-! ## The peephole rewrite -/

/-- Delete every instruction that its nearest kept predecessor cancels. -/
def squash (cancels : ι → ι → Bool) : List ι → List ι
  | [] => []
  | [a] => [a]
  | a :: b :: rest =>
    if cancels a b then squash cancels (a :: rest) else a :: squash cancels (b :: rest)
termination_by l => l.length

section
variable (cancels : ι → ι → Bool)

@[simp] lemma squash_nil : squash cancels [] = [] := by
  simp [squash]

@[simp] lemma squash_singleton (a : ι) : squash cancels [a] = [a] := by
  simp [squash]

lemma squash_cons_cons (a b : ι) (rest : List ι) :
    squash cancels (a :: b :: rest) =
      if cancels a b then squash cancels (a :: rest) else a :: squash cancels (b :: rest) := by
  rw [squash]

/-- The first instruction is always kept. -/
lemma squash_head (a : ι) (rest : List ι) : ∃ t, squash cancels (a :: rest) = a :: t := by
  induction rest generalizing a with
  | nil => exact ⟨[], by simp⟩
  | cons b rest ih =>
    rw [squash_cons_cons]
    split
    · exact ih a
    · exact ⟨_, rfl⟩

/-- How `squash` treats an instruction appended at the end: the last kept one decides. -/
lemma squash_concat (l : List ι) (b : ι) :
    squash cancels (l ++ [b]) =
      match (squash cancels l).getLast? with
      | none => [b]
      | some u => if cancels u b then squash cancels l else squash cancels l ++ [b] := by
  induction l using squash.induct cancels with
  | case1 => simp
  | case2 a => simp [squash_cons_cons]
  | case3 a c rest hc ih =>
    rw [List.cons_append, List.cons_append, squash_cons_cons, squash_cons_cons, if_pos hc, if_pos hc]
    exact ih
  | case4 a c rest hc ih =>
    rw [List.cons_append, List.cons_append, squash_cons_cons, squash_cons_cons, if_neg hc, if_neg hc]
    obtain ⟨t, ht⟩ := squash_head cancels c rest
    rw [List.cons_append] at ih
    rw [ih, ht]
    cases hl : (c :: t).getLast? with
    | none => simp at hl
    | some u =>
      rw [List.getLast?_cons_cons, hl]
      dsimp only
      split <;> simp

/-- `squash` only deletes. -/
lemma squash_sublist (l : List ι) : (squash cancels l).Sublist l := by
  induction l using squash.induct cancels with
  | case1 =>
    simp only [squash_nil, List.Sublist.refl]
  | case2 a =>
    simp only [squash_singleton, List.Sublist.refl]
  | case3 a b rest hab ih =>
    rw [squash_cons_cons, if_pos hab]
    exact ih.trans (.cons_cons a (.cons b (.refl rest)))
  | case4 a b rest hab ih =>
    rw [squash_cons_cons, if_neg hab]
    exact .cons_cons a ih

/-- What `squash` keeps cancels nothing of what it keeps. -/
lemma squash_isChain (l : List ι) :
    (squash cancels l).IsChain fun a b => cancels a b = false := by
  induction l using squash.induct cancels with
  | case1 => simp
  | case2 a => simp
  | case3 a b rest hab ih =>
    rw [squash_cons_cons, if_pos hab]
    exact ih
  | case4 a b rest hab ih =>
    rw [squash_cons_cons, if_neg hab]
    -- the first one kept of the rest is `b`
    obtain ⟨t, ht⟩ := squash_head cancels b rest
    rw [ht] at ih ⊢
    exact .cons_cons (Bool.eq_false_iff.mpr hab) ih

variable (step : ι → σ → Flow σ ρ)

/-- Wherever the run of `l` from `s` reaches a cancelling pair, the second instruction of the pair
does nothing there. -/
def Harmless (l : List ι) (s : σ) : Prop :=
  ∀ pre a b post, l = pre ++ a :: b :: post → cancels a b →
    ∀ s₀ s₁, flow step pre s = .next s₀ → step a s₀ = .next s₁ → step b s₁ = .next s₁

variable {cancels step}

/-- Behind a first instruction that falls through, the rest of a harmless list is harmless. -/
lemma Harmless.tail {a : ι} {l : List ι} {s s₁ : σ} (h : Harmless cancels step (a :: l) s)
    (ha : step a s = .next s₁) : Harmless cancels step l s₁ := by
  intro pre x y post e hxy s₂ s₃ hpre hx
  refine h (a :: pre) x y post (by rw [e]; rfl) hxy s₂ s₃ ?_ hx
  rw [flow_cons, ha]
  exact hpre

/-- Deleting the second instruction of a harmless cancelling pair keeps the list harmless. -/
lemma Harmless.delete (same : ∀ a b b', cancels a b → cancels a b' → step b = step b')
    {a b : ι} {l : List ι} {s s₁ : σ} (h : Harmless cancels step (a :: b :: l) s)
    (hab : cancels a b) (ha : step a s = .next s₁) : Harmless cancels step (a :: l) s := by
  have hb : step b s₁ = .next s₁ := h [] a b l rfl hab s s₁ rfl ha
  intro pre x y post e hxy s₂ s₃ hpre hx
  cases pre with
  | nil =>
    obtain ⟨rfl, rfl⟩ := List.cons.inj e
    obtain rfl : s = s₂ := by simpa using hpre
    obtain rfl : s₁ = s₃ := by simpa [ha] using hx
    rw [same _ y b hxy hab]
    exact hb
  | cons p pre =>
    obtain ⟨rfl, rfl⟩ := List.cons.inj e
    refine h (a :: b :: pre) x y post rfl hxy s₂ s₃ ?_ hx
    rw [flow_cons, ha, Flow.bind_next, flow_cons, hb, Flow.bind_next]
    rw [flow_cons, ha, Flow.bind_next] at hpre
    exact hpre

/-- A harmless peephole rewrite preserves the run. -/
theorem flow_squash (same : ∀ a b b', cancels a b → cancels a b' → step b = step b')
    (l : List ι) (s : σ) (h : Harmless cancels step l s) :
    flow step (squash cancels l) s = flow step l s := by
  induction l using squash.induct cancels generalizing s with
  | case1 => simp
  | case2 a => simp
  | case3 a b rest hab ih =>
    rw [squash_cons_cons, if_pos hab]
    cases ha : step a s with
    | stop r =>
      obtain ⟨t, ht⟩ := squash_head cancels a rest
      rw [ht, flow_cons, flow_cons, ha]
      rfl
    | next s₁ =>
      have hb : step b s₁ = .next s₁ := h [] a b rest rfl hab s s₁ rfl ha
      rw [ih s (h.delete same hab ha), flow_cons, flow_cons, ha, Flow.bind_next, Flow.bind_next,
        flow_cons, hb, Flow.bind_next]
  | case4 a b rest hab ih =>
    rw [squash_cons_cons, if_neg hab, flow_cons, flow_cons]
    cases ha : step a s with
    | stop r => rfl
    | next s₁ => exact ih s₁ (h.tail ha)

/-- What `squash` keeps of a list with one more instruction `a`: either `a` itself comes last, or
it has been deleted against the last one kept before it. -/
lemma squash_concat_last (cancels : ι → ι → Bool) (l : List ι) (a : ι) :
    squash cancels (l ++ [a]) = squash cancels l ++ [a] ∨
      ∃ q u, squash cancels l = q ++ [u] ∧ cancels u a ∧
        squash cancels (l ++ [a]) = squash cancels l := by
  rw [squash_concat]
  cases hl : (squash cancels l).getLast? with
  | none =>
    left
    rw [List.getLast?_eq_none_iff] at hl
    simp [hl]
  | some u =>
    obtain ⟨q, hq⟩ := List.getLast?_eq_some_iff.mp hl
    dsimp only
    split
    · exact .inr ⟨q, u, hq, ‹_›, rfl⟩
    · exact .inl rfl

/-- A prefix of a harmless list is harmless. -/
lemma Harmless.initial {p l : List ι} {s : σ} (h : Harmless cancels step l s) (hp : p <+: l) :
    Harmless cancels step p s := by
  obtain ⟨q, rfl⟩ := hp
  rintro pre a b post rfl
  exact h pre a b (post ++ q) (by simp)

/-- If the rewrite preserves the result of every prefix, it is harmless. Deleted instructions must
not end the run (`falls`), and an instruction deleted in two steps must repeat the first of them
(`back`). -/
lemma Harmless.of_prefixes {done : σ → ρ} (inj : Function.Injective done)
    (same : ∀ a b b', cancels a b → cancels a b' → step b = step b')
    (falls : ∀ a b s, cancels a b → ∃ s', step b s = .next s')
    (back : ∀ u a b s s₁, cancels u a → cancels a b → step u s = .next s₁ → step b s₁ = .next s₁)
    (l : List ι) (s : σ)
    (h : ∀ p, p <+: l →
      (flow step (squash cancels p) s).finish done = (flow step p s).finish done) :
    Harmless cancels step l s := by
  induction l using List.reverseRecOn with
  | nil =>
    intro pre a b post e
    simp at e
  | append_singleton l x ih =>
    have hl : Harmless cancels step l s :=
      ih fun p hp => h p (hp.trans (List.prefix_append l [x]))
    intro pre a b post e hab s₀ s₁ hpre ha
    rcases List.eq_nil_or_concat post with rfl | ⟨post', y, rfl⟩
    · -- the pair ends the list: compare the two lists there
      have e' : l ++ [x] = (pre ++ [a]) ++ [b] := by simpa using e
      obtain ⟨rfl, e'⟩ := List.append_inj' e' rfl
      obtain rfl : x = b := by simpa using e'
      have hflow₀ : flow step (squash cancels pre) s = .next s₀ := by
        rw [flow_squash same pre s (hl.initial (List.prefix_append pre [a])), hpre]
      have hflow₁ : flow step (squash cancels (pre ++ [a])) s = .next s₁ := by
        rw [flow_squash same _ s hl, flow_concat, hpre]
        exact ha
      rcases squash_concat_last cancels pre a with hkept | ⟨q, u, hq, hua, hdel⟩
      · -- `a` is kept, so it deletes `x`
        have hdel : squash cancels (pre ++ [a] ++ [x]) = squash cancels (pre ++ [a]) := by
          rw [squash_concat, hkept, List.getLast?_concat]
          simp [hab]
        obtain ⟨s₂, hx⟩ := falls a x s₁ hab
        have := h _ List.prefix_rfl
        rw [hdel, hflow₁, flow_concat, flow_concat, hpre, Flow.bind_next, ha, Flow.bind_next, hx,
          Flow.finish_next, Flow.finish_next] at this
        rw [hx, inj this]
      · -- `a` has been deleted against `u`, after which `x` repeats `u`
        rw [hdel, hflow₀] at hflow₁
        obtain rfl : s₀ = s₁ := by simpa using hflow₁
        rw [hq, flow_concat, Flow.bind_eq_next] at hflow₀
        obtain ⟨s', -, hu⟩ := hflow₀
        exact back u a x s' s₀ hua hab hu
    · have e' : l ++ [x] = (pre ++ a :: b :: post') ++ [y] := by simpa using e
      obtain ⟨rfl, -⟩ := List.append_inj' e' rfl
      exact hl pre a b post' rfl hab s₀ s₁ hpre ha

/-- The rewrite preserves the result of every prefix exactly when it is harmless. -/
theorem squash_finish_iff {done : σ → ρ} (inj : Function.Injective done)
    (same : ∀ a b b', cancels a b → cancels a b' → step b = step b')
    (falls : ∀ a b s, cancels a b → ∃ s', step b s = .next s')
    (back : ∀ u a b s s₁, cancels u a → cancels a b → step u s = .next s₁ → step b s₁ = .next s₁)
    (l : List ι) (s : σ) :
    (∀ p, p <+: l →
      (flow step (squash cancels p) s).finish done = (flow step p s).finish done) ↔
      Harmless cancels step l s :=
  ⟨Harmless.of_prefixes inj same falls back l s,
    fun h p hp => by rw [flow_squash same p s (h.initial hp)]⟩

end

end Machine
