import Mathlib.Tactic.Common

/-!
# Null-terminated chains

Nodes linked by a `next` pointer up to `null`. `Ends next null p l` says that the chain from `p` ends
and passes through `l`; a chain that has been cut into or bent back on itself has no such list.
`walk` is the loop over a chain: it stops at `null`, or earlier when its condition fails. Loops take
fuel, and `Settles` is what they compute once there is enough of it.
-/

namespace Chain

variable {α β σ ρ : Type*}

/-! ## Fuel -/

/-- With enough fuel `f` returns `r`. -/
def Settles (f : Nat → Option ρ) (r : ρ) : Prop :=
  ∃ N, ∀ n, N ≤ n → f n = some r

lemma Settles.unique {f : Nat → Option ρ} {r r' : ρ} (h : Settles f r) (h' : Settles f r') :
    r = r' := by
  obtain ⟨N, h⟩ := h
  obtain ⟨N', h'⟩ := h'
  have := (h (max N N') (Nat.le_max_left ..)).symm.trans (h' (max N N') (Nat.le_max_right ..))
  exact Option.some.inj this

/-- There is enough fuel for both. -/
lemma Settles.both {ρ' : Type*} {f : Nat → Option ρ} {g : Nat → Option ρ'} {r : ρ} {r' : ρ'}
    (h : Settles f r) (h' : Settles g r') : ∃ n, f n = some r ∧ g n = some r' := by
  obtain ⟨N, h⟩ := h
  obtain ⟨N', h'⟩ := h'
  exact ⟨max N N', h _ (Nat.le_max_left ..), h' _ (Nat.le_max_right ..)⟩

lemma Settles.const (r : ρ) : Settles (fun _ => some r) r :=
  ⟨0, fun _ _ => rfl⟩

/-- Computations that need fuel compose. -/
lemma Settles.bind {ρ' : Type*} {f : Nat → Option ρ} {g : Nat → ρ → Option ρ'} {r : ρ} {r' : ρ'}
    (hf : Settles f r) (hg : Settles (fun n => g n r) r') :
    Settles (fun n => (f n).bind (g n)) r' := by
  obtain ⟨N, hf⟩ := hf
  obtain ⟨M, hg⟩ := hg
  refine ⟨max N M, fun n hn => ?_⟩
  simp only [hf n (Nat.le_trans (Nat.le_max_left ..) hn), Option.bind_some]
  exact hg n (Nat.le_trans (Nat.le_max_right ..) hn)

lemma Settles.map {ρ' : Type*} {f : Nat → Option ρ} {r : ρ} (h : Settles f r) (g : ρ → ρ') :
    Settles (fun n => (f n).map g) (g r) := by
  obtain ⟨N, h⟩ := h
  refine ⟨N, fun n hn => ?_⟩
  simp only [h n hn, Option.map_some]

/-- More fuel does not change what `f` returns. -/
def Steady (f : Nat → Option ρ) : Prop :=
  ∀ n k r, f n = some r → f (n + k) = some r

lemma Steady.settles {f : Nat → Option ρ} (h : Steady f) {n : Nat} {r : ρ} (hr : f n = some r) :
    Settles f r := by
  refine ⟨n, fun n' hn => ?_⟩
  obtain ⟨k, rfl⟩ := Nat.exists_eq_add_of_le hn
  exact h n k r hr

lemma Steady.const (r : Option ρ) : Steady fun _ => r :=
  fun _ _ _ h => h

lemma Steady.bind {ρ' : Type*} {f : Nat → Option ρ} {g : Nat → ρ → Option ρ'} (hf : Steady f)
    (hg : ∀ r, Steady fun n => g n r) : Steady fun n => (f n).bind (g n) := by
  intro n k r' h
  obtain ⟨r, hr, hr'⟩ := Option.bind_eq_some_iff.mp h
  exact Option.bind_eq_some_iff.mpr ⟨r, hf n k r hr, hg r n k r' hr'⟩

lemma Steady.map {ρ' : Type*} {f : Nat → Option ρ} (hf : Steady f) (g : ρ → ρ') :
    Steady fun n => (f n).map g := by
  intro n k r' h
  obtain ⟨r, hr, hr'⟩ := Option.map_eq_some_iff.mp h
  exact Option.map_eq_some_iff.mpr ⟨r, hf n k r hr, hr'⟩

lemma Steady.foldlM {f : Nat → σ → β → Option σ} (hf : ∀ s b, Steady fun n => f n s b)
    (l : List β) (s : σ) : Steady fun n => l.foldlM (f n) s := by
  induction l generalizing s with
  | nil => exact .const _
  | cons b l ih => exact (hf s b).bind ih

/-- A loop over a list settles when its body does; `I` relates the items done and the state. -/
lemma Settles.foldlM {f : Nat → σ → β → Option σ} {I : List β → σ → Prop}
    (body : ∀ done b s, I done s → ∃ s', Settles (fun n => f n s b) s' ∧ I (done ++ [b]) s')
    (l : List β) (done : List β) (s : σ) (h : I done s) :
    ∃ s', Settles (fun n => l.foldlM (f n) s) s' ∧ I (done ++ l) s' := by
  induction l generalizing done s with
  | nil => exact ⟨s, .const s, by simpa using h⟩
  | cons b l ih =>
    obtain ⟨s₁, hs₁, h₁⟩ := body done b s h
    obtain ⟨s₂, hs₂, h₂⟩ := ih (done ++ [b]) s₁ h₁
    exact ⟨s₂, hs₁.bind hs₂, by simpa using h₂⟩

/-- Two loops over a list keep a relation that their bodies keep. -/
lemma foldlM_sim {τ : Type*} {R : σ → τ → Prop} {f : σ → β → Option σ} {g : τ → β → Option τ}
    (body : ∀ b s t s', R s t → f s b = some s' → ∃ t', g t b = some t' ∧ R s' t') (l : List β)
    {s s' : σ} {t : τ} (hR : R s t) (h : l.foldlM f s = some s') :
    ∃ t', l.foldlM g t = some t' ∧ R s' t' := by
  induction l generalizing s t with
  | nil => exact ⟨t, rfl, by cases h; exact hR⟩
  | cons b l ih =>
    obtain ⟨s₁, hf, h⟩ := Option.bind_eq_some_iff.mp h
    obtain ⟨t₁, hg, hR₁⟩ := body b s t s₁ hR hf
    obtain ⟨t', ht, hR'⟩ := ih hR₁ h
    exact ⟨t', Option.bind_eq_some_iff.mpr ⟨t₁, hg, ht⟩, hR'⟩

/-- A loop over a list keeps what its body keeps. -/
lemma foldlM_invariant {I : σ → Prop} {f : σ → β → Option σ}
    (body : ∀ b s s', I s → f s b = some s' → I s') (l : List β) {s s' : σ} (hI : I s)
    (h : l.foldlM f s = some s') : I s' := by
  induction l generalizing s with
  | nil =>
    cases h
    exact hI
  | cons b l ih =>
    obtain ⟨s₁, hf, h⟩ := Option.bind_eq_some_iff.mp h
    exact ih (body b s s₁ hI hf) h

/-! ## Chains -/

/-- The chain from a node ends, and the list has its nodes in order. -/
inductive Ends (next : α → α) (null : α) : α → List α → Prop where
  | nil : Ends next null null []
  | cons {p l} :
    p ≠ null →
    Ends next null (next p) l →
    Ends next null p (p :: l)

/-- A node can be reached from another by following the chain. -/
inductive Reach (next : α → α) (null : α) (a : α) : α → Prop where
  | here :
    a ≠ null →
    Reach next null a a
  | step {p} :
    p ≠ null →
    Reach next null a (next p) →
    Reach next null a p

variable {next next' : α → α} {null p a : α} {l l' : List α}

lemma Ends.unique (h : Ends next null p l) (h' : Ends next null p l') : l = l' := by
  induction h generalizing l' with
  | nil =>
    cases h' with
    | nil => rfl
    | cons hne _ => exact absurd rfl hne
  | cons hne _ ih =>
    cases h' with
    | nil => exact absurd rfl hne
    | cons _ h' => rw [ih h']

lemma Ends.ne_null (h : Ends next null p l) (ha : a ∈ l) : a ≠ null := by
  induction h with
  | nil => cases ha
  | cons hne _ ih =>
    rcases List.mem_cons.mp ha with rfl | ha
    · exact hne
    · exact ih ha

lemma Ends.head_mem (h : Ends next null p l) : p ∈ l ∨ p = null := by
  cases h with
  | nil => exact .inr rfl
  | cons => exact .inl (List.mem_cons_self ..)

lemma Ends.next_mem (h : Ends next null p l) (ha : a ∈ l) : next a ∈ l ∨ next a = null := by
  induction h with
  | nil => cases ha
  | cons _ hnext ih =>
    rcases List.mem_cons.mp ha with rfl | ha
    · exact hnext.head_mem.imp_left (List.mem_cons_of_mem _)
    · exact (ih ha).imp_left (List.mem_cons_of_mem _)

/-- On a chain that ends, the nodes that can be reached are those of its list. -/
lemma Ends.reach_iff (h : Ends next null p l) : Reach next null a p ↔ a ∈ l := by
  induction h with
  | nil =>
    refine ⟨fun hr => ?_, nofun⟩
    cases hr with
    | here hne => exact absurd rfl hne
    | step hne _ => exact absurd rfl hne
  | cons hne _ ih =>
    rw [List.mem_cons, ← ih]
    constructor
    · intro hr
      cases hr with
      | here => exact .inl rfl
      | step _ hr => exact .inr hr
    · rintro (rfl | hr)
      · exact .here hne
      · exact .step hne hr

/-- The chain from one of the nodes ends as well, no later. -/
lemma Ends.from_mem (h : Ends next null p l) (ha : a ∈ l) :
    ∃ l', Ends next null a (a :: l') ∧ l'.length < l.length := by
  induction h with
  | nil => cases ha
  | cons hne h ih =>
    rcases List.mem_cons.mp ha with rfl | ha
    · exact ⟨_, .cons hne h, Nat.lt_succ_self _⟩
    · obtain ⟨l', h', hlen⟩ := ih ha
      exact ⟨l', h', Nat.lt_succ_of_lt hlen⟩

/-- A node of a chain that ends does not come back behind itself. -/
lemma Ends.not_reach_next (h : Ends next null p l) (ha : a ∈ l) :
    ¬ Reach next null a (next a) := by
  obtain ⟨l₁, h₁, -⟩ := h.from_mem ha
  intro hr
  cases h₁ with
  | cons _ hnext =>
    obtain ⟨l₂, h₂, hlen⟩ := hnext.from_mem (hnext.reach_iff.mp hr)
    cases h₂ with
    | cons _ hnext' =>
      rw [hnext.unique hnext'] at hlen
      exact absurd hlen (Nat.lt_irrefl _)

/-- A chain that ends goes through no node twice. -/
lemma Ends.nodup (h : Ends next null p l) : l.Nodup := by
  induction h with
  | nil => exact .nil
  | cons hne hnext ih =>
    refine List.nodup_cons.mpr ⟨fun hmem => ?_, ih⟩
    exact (Ends.cons hne hnext).not_reach_next (List.mem_cons_self ..) (hnext.reach_iff.mpr hmem)

/-- Only the links of its own nodes matter to a chain. -/
lemma Ends.congr (h : Ends next null p l) (heq : ∀ a ∈ l, next' a = next a) :
    Ends next' null p l := by
  induction h with
  | nil => exact .nil
  | @cons q l hne _ ih =>
    refine .cons hne ?_
    rw [heq q (List.mem_cons_self ..)]
    exact ih fun a ha => heq a (List.mem_cons_of_mem _ ha)

/-- Changing the link of the node that is looked for does not cut it off. -/
lemma Reach.congr (h : Reach next null a p) (heq : ∀ b, b ≠ a → next' b = next b) :
    Reach next' null a p := by
  induction h with
  | here hne => exact .here hne
  | @step p hne _ ih =>
    by_cases hp : p = a
    · subst hp
      exact .here hne
    · refine .step hne ?_
      rw [heq p hp]
      exact ih

/-! ## Loops over a chain -/

section
variable [DecidableEq α] (null) (cond : σ → α → Bool) (body : α → σ → σ) (next : σ → α → α)

/-- `while (p != null && cond) { body; p = p->next; }`: where the loop stops, and its state. -/
def walk : Nat → α → σ → Option (α × σ)
  | 0, _, _ => none
  | n + 1, p, s =>
    if p ≠ null ∧ cond s p = true then walk n (next (body p s) p) (body p s) else some (p, s)

variable {null}

/-- Over a chain that ends and whose links the body leaves alone, the loop does a first part of the
chain and stops at the rest. -/
lemma walk_settles (keep : ∀ a s, next (body a s) = next s) {p : α} {l : List α} (s : σ)
    (h : Ends (next s) null p l) :
    ∃ done rest, l = done ++ rest ∧ (∀ a ∈ done, ∃ t, cond t a = true) ∧
      (∀ a ∈ rest.head?, cond (done.foldl (fun s a => body a s) s) a = false) ∧
      Settles (fun n => walk null cond body next n p s)
        (rest.head?.getD null, done.foldl (fun s a => body a s) s) := by
  induction l generalizing p s with
  | nil =>
    cases h with
    | nil =>
      refine ⟨[], [], rfl, nofun, nofun, 1, fun n hn => ?_⟩
      obtain ⟨n, rfl⟩ := Nat.exists_eq_add_of_le' hn
      simp [walk]
  | cons a l ih =>
    cases h with
    | cons hne hnext =>
      cases hc : cond s a with
      | false =>
        refine ⟨[], a :: l, rfl, nofun, by simpa using hc, 1, fun n hn => ?_⟩
        obtain ⟨n, rfl⟩ := Nat.exists_eq_add_of_le' hn
        simp [walk, hc]
      | true =>
        have hnext' : Ends (next (body a s)) null (next (body a s) a) l := by
          rw [keep]
          exact hnext
        obtain ⟨done, rest, hl, hdone, hrest, N, hwalk⟩ := ih _ hnext'
        refine ⟨a :: done, rest, by rw [hl, List.cons_append], fun x hx => ?_, hrest, N + 1,
          fun n hn => ?_⟩
        · rcases List.mem_cons.mp hx with rfl | hx
          · exact ⟨s, hc⟩
          · exact hdone x hx
        · obtain ⟨n, rfl⟩ := Nat.exists_eq_add_of_le' (Nat.le_of_add_left_le hn)
          have hstep : walk null cond body next (n + 1) a s =
              walk null cond body next n (next (body a s) a) (body a s) := by
            rw [walk, if_pos ⟨hne, hc⟩]
          exact hstep.trans (hwalk n (by omega))

/-- A loop whose condition does not look at the node does the whole chain, as far as the condition
lets it. -/
lemma walk_settles_foldl (cond : σ → Bool) (keep : ∀ a s, next (body a s) = next s) {p : α}
    {l : List α} (s : σ) (h : Ends (next s) null p l) :
    ∃ q, Settles (fun n => walk null (fun s _ => cond s) body next n p s)
      (q, l.foldl (fun s a => if cond s then body a s else s) s) := by
  induction l generalizing p s with
  | nil =>
    cases h with
    | nil =>
      refine ⟨null, 1, fun n hn => ?_⟩
      obtain ⟨n, rfl⟩ := Nat.exists_eq_add_of_le' hn
      simp [walk]
  | cons a l ih =>
    cases h with
    | cons hne hnext =>
      rw [List.foldl_cons]
      cases hc : cond s with
      | false =>
        have hstop : l.foldl (fun s a => if cond s then body a s else s) s = s := by
          clear ih hnext
          induction l with
          | nil => rfl
          | cons b l ih => rw [List.foldl_cons, hc, if_neg Bool.false_ne_true, ih]
        rw [if_neg Bool.false_ne_true, hstop]
        refine ⟨a, 1, fun n hn => ?_⟩
        obtain ⟨n, rfl⟩ := Nat.exists_eq_add_of_le' hn
        simp [walk, hc]
      | true =>
        have hnext' : Ends (next (body a s)) null (next (body a s) a) l := by
          rw [keep]
          exact hnext
        obtain ⟨q, N, hwalk⟩ := ih _ hnext'
        rw [if_pos rfl]
        refine ⟨q, N + 1, fun n hn => ?_⟩
        obtain ⟨n, rfl⟩ := Nat.exists_eq_add_of_le' (Nat.le_of_add_left_le hn)
        dsimp only
        rw [walk, if_pos ⟨hne, hc⟩]
        exact hwalk n (by omega)

lemma steady_walk (p : α) (s : σ) : Steady fun n => walk null cond body next n p s := by
  intro n k r h
  induction n generalizing p s with
  | zero => cases h
  | succ n ih =>
    change walk null cond body next (n + 1) p s = some r at h
    rw [walk] at h
    change walk null cond body next (n + 1 + k) p s = some r
    rw [Nat.add_right_comm, walk]
    split at h
    · rename_i hgo
      rw [if_pos hgo]
      exact ih _ _ h
    · rename_i hstop
      rw [if_neg hstop]
      exact h

/-- Two loops over the same nodes, with states that stay related, stop at the same node. -/
lemma walk_sim {τ : Type*} {cond' : τ → α → Bool} {body' : α → τ → τ} {next' : τ → α → α}
    {A : α → Prop} {R : σ → τ → Prop}
    (step : ∀ a s t, A a → R s t → cond s a = cond' t a ∧
      (cond s a = true → R (body a s) (body' a t) ∧
        next (body a s) a = next' (body' a t) a ∧
        (A (next (body a s) a) ∨ next (body a s) a = null)))
    {n : Nat} {p q : α} {s s' : σ} {t : τ} (hp : A p ∨ p = null) (hR : R s t)
    (h : walk null cond body next n p s = some (q, s')) :
    (A q ∨ q = null) ∧ ∃ t', walk null cond' body' next' n p t = some (q, t') ∧ R s' t' := by
  induction n generalizing p s t with
  | zero => cases h
  | succ n ih =>
    rw [walk] at h ⊢
    split at h
    · rename_i hgo
      obtain ⟨hcond, hbody⟩ := step p s t (hp.resolve_right hgo.1) hR
      obtain ⟨hR', hnext, hp'⟩ := hbody hgo.2
      rw [if_pos ⟨hgo.1, hcond ▸ hgo.2⟩, ← hnext]
      exact ih hp' hR' h
    · rename_i hstop
      have hstop' : ¬ (p ≠ null ∧ cond' t p = true) := by
        intro hgo
        rw [← (step p s t (hp.resolve_right hgo.1) hR).1] at hgo
        exact hstop hgo
      cases h
      exact ⟨hp, t, if_neg hstop', hR⟩

/-- A loop over the nodes of a set that keeps an invariant. -/
lemma walk_invariant {A : α → Prop} {I : σ → Prop}
    (step : ∀ a s, A a → I s → cond s a = true → I (body a s) ∧
      (A (next (body a s) a) ∨ next (body a s) a = null))
    {n : Nat} {p q : α} {s s' : σ} (hp : A p ∨ p = null) (hI : I s)
    (h : walk null cond body next n p s = some (q, s')) : (A q ∨ q = null) ∧ I s' := by
  have same (a : α) (s t : σ) (ha : A a) (hR : s = t ∧ I s) : cond s a = cond t a ∧
      (cond s a = true → (body a s = body a t ∧ I (body a s)) ∧
        next (body a s) a = next (body a t) a ∧
        (A (next (body a s) a) ∨ next (body a s) a = null)) := by
    obtain ⟨rfl, hI⟩ := hR
    refine ⟨rfl, fun hc => ?_⟩
    obtain ⟨hI', hnext⟩ := step a s ha hI hc
    exact ⟨⟨rfl, hI'⟩, rfl, hnext⟩
  obtain ⟨hq, -, -, -, hI'⟩ := walk_sim cond body next same hp ⟨rfl, hI⟩ h
  exact ⟨hq, hI'⟩

end

end Chain
