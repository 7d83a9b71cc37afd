import Mathlib.Tactic.Common
import Mathlib.Data.List.Induction

/-!
# Runs of a labelled transition system

`Step s a r s'` says that operation `a` done in state `s` answers `r` and leaves `s'`. A `Run`
records one `Event` for each step: the state before it, the operation and the answer. `Run.history`
is the invariant rule, for relations between the events so far and the state. `Run.always_iff` is
for properties that hold of a run exactly when each of its steps meets a condition.
-/

namespace Transition

/-- One step of a run, seen from the state it starts in. -/
structure Event (σ α ρ : Type*) where
  before : σ
  op : α
  answer : ρ

variable {σ α ρ : Type*}

/-- The runs from `s₀`: their events and the state they end in. -/
inductive Run (Step : σ → α → ρ → σ → Prop) (s₀ : σ) : List (Event σ α ρ) → σ → Prop where
  | nil : Run Step s₀ [] s₀
  | snoc {tr s a r s'} :
    Run Step s₀ tr s →
    Step s a r s' →
    Run Step s₀ (tr ++ [⟨s, a, r⟩]) s'

/-- `P` holds in every state a run goes through, the last one included. -/
def Always (P : σ → Prop) (tr : List (Event σ α ρ)) (s : σ) : Prop :=
  (∀ ev ∈ tr, P ev.before) ∧ P s

variable {Step : σ → α → ρ → σ → Prop} {s₀ : σ}

lemma Always.snoc {P : σ → Prop} {tr : List (Event σ α ρ)} {s s' : σ} {a : α} {r : ρ} :
    Always P (tr ++ [⟨s, a, r⟩]) s' ↔ Always P tr s ∧ P s' := by
  constructor
  · rintro ⟨h, hs'⟩
    refine ⟨⟨fun ev hev => h ev (by simp [hev]), h ⟨s, a, r⟩ (by simp)⟩, hs'⟩
  · rintro ⟨⟨h, hs⟩, hs'⟩
    refine ⟨fun ev hev => ?_, hs'⟩
    rcases List.mem_append.mp hev with hev | hev
    · exact h ev hev
    · rw [List.mem_singleton.mp hev]
      exact hs

/-- A relation between the events so far and the state that every step keeps. -/
theorem Run.history {I : List (Event σ α ρ) → σ → Prop} (init : I [] s₀)
    (step : ∀ tr s a r s', I tr s → Step s a r s' → I (tr ++ [⟨s, a, r⟩]) s')
    {tr : List (Event σ α ρ)} {s : σ} (run : Run Step s₀ tr s) : I tr s := by
  induction run with
  | nil => exact init
  | snoc _ st ih => exact step _ _ _ _ _ ih st

/-- A run goes on where another one ends. -/
lemma Run.append {tr tr' : List (Event σ α ρ)} {s s' : σ} (run : Run Step s₀ tr s)
    (run' : Run Step s tr' s') : Run Step s₀ (tr ++ tr') s' := by
  induction run' with
  | nil =>
    rw [List.append_nil]
    exact run
  | snoc _ st ih =>
    rw [← List.append_assoc]
    exact .snoc ih st

/-- A run goes through the states that its events name, by steps. -/
lemma Run.split {tr : List (Event σ α ρ)} {s : σ} (run : Run Step s₀ tr s)
    {pre post : List (Event σ α ρ)} {ev : Event σ α ρ} (h : tr = pre ++ ev :: post) :
    Run Step s₀ pre ev.before ∧ ∃ s', Step ev.before ev.op ev.answer s' := by
  induction run generalizing post with
  | nil => simp at h
  | @snoc tr s a r s' run st ih =>
    cases post using List.reverseRecOn with
    | nil =>
      obtain ⟨rfl, hev⟩ := List.append_inj' h rfl
      cases hev
      exact ⟨run, s', st⟩
    | append_singleton post last =>
      rw [← List.cons_append, ← List.append_assoc] at h
      exact ih (List.append_inj' h rfl).1

/-- A property of the states of a run gives another one if it does so at the end of each part of the
run. -/
lemma Run.always_mono {P Q : σ → Prop} {tr : List (Event σ α ρ)} {s : σ} (run : Run Step s₀ tr s)
    (h : ∀ pre s', pre <+: tr → Run Step s₀ pre s' → P s' → Q s') (hP : Always P tr s) :
    Always Q tr s := by
  refine ⟨fun ev hev => ?_, h tr s List.prefix_rfl run hP.2⟩
  obtain ⟨pre, post, hsplit⟩ := List.append_of_mem hev
  exact h pre ev.before ⟨_, hsplit.symm⟩ (run.split hsplit).1 (hP.1 ev hev)

/-- A property kept by the steps that meet a condition holds at the end of a run of such steps. -/
lemma Run.guarded {I : σ → Prop} {C : Event σ α ρ → Prop} (init : I s₀)
    (keep : ∀ s a r s', I s → Step s a r s' → C ⟨s, a, r⟩ → I s') {tr : List (Event σ α ρ)} {s : σ}
    (run : Run Step s₀ tr s) (h : ∀ ev ∈ tr, C ev) : I s := by
  induction run with
  | nil => exact init
  | snoc _ st ih =>
    exact keep _ _ _ _ (ih fun ev hev => h ev (by simp [hev])) st (h _ (by simp))

lemma forall_mem_snoc {p : Event σ α ρ → Prop} {tr : List (Event σ α ρ)} {ev : Event σ α ρ} :
    (∀ e ∈ tr ++ [ev], p e) ↔ (∀ e ∈ tr, p e) ∧ p ev := by
  simp [or_imp, forall_and]

/-- The events of a trace, each with those before it. -/
lemma forall_split_snoc {p : List (Event σ α ρ) → Event σ α ρ → Prop}
    {tr : List (Event σ α ρ)} {ev : Event σ α ρ} :
    (∀ pre e post, tr ++ [ev] = pre ++ e :: post → p pre e) ↔
      (∀ pre e post, tr = pre ++ e :: post → p pre e) ∧ p tr ev := by
  constructor
  · intro h
    refine ⟨fun pre e post hsplit => h pre e (post ++ [ev]) ?_, h tr ev [] rfl⟩
    rw [hsplit, List.append_assoc, List.cons_append]
  · rintro ⟨hbefore, hlast⟩ pre e post hsplit
    cases post using List.reverseRecOn with
    | nil =>
      obtain ⟨rfl, heq⟩ := List.append_inj' hsplit rfl
      cases heq
      exact hlast
    | append_singleton post e' =>
      rw [← List.cons_append, ← List.append_assoc] at hsplit
      exact hbefore pre e post (List.append_inj' hsplit rfl).1

/-- Steps that meet a condition keep an invariant, which gives `P` of the states and `Q` of the
events. -/
theorem Run.always {I P : σ → Prop} {Q C : Event σ α ρ → Prop} (init : I s₀)
    (keep : ∀ s a r s', I s → Step s a r s' → C ⟨s, a, r⟩ → I s')
    (state : ∀ s, I s → P s)
    (event : ∀ s a r s', I s → Step s a r s' → C ⟨s, a, r⟩ → Q ⟨s, a, r⟩)
    {tr : List (Event σ α ρ)} {s : σ} (run : Run Step s₀ tr s) (h : ∀ ev ∈ tr, C ev) :
    Always P tr s ∧ ∀ ev ∈ tr, Q ev := by
  induction run with
  | nil => exact ⟨⟨nofun, state _ init⟩, nofun⟩
  | @snoc tr s a r s' run st ih =>
    rw [forall_mem_snoc] at h
    obtain ⟨hC, hc⟩ := h
    have hs := run.guarded init keep hC
    obtain ⟨hP, hQ⟩ := ih hC
    exact ⟨Always.snoc.mpr ⟨hP, state _ (keep s a r s' hs st hc)⟩,
      forall_mem_snoc.mpr ⟨hQ, event s a r s' hs st hc⟩⟩

/-- The states of a run satisfy `P` and its events `Q` exactly when every event satisfies `C`: the
condition `C` keeps an invariant that gives `P` and `Q`, and a step outside `C` breaks one of
them. -/
theorem Run.always_iff {I P : σ → Prop} {Q C : Event σ α ρ → Prop} (init : I s₀)
    (keep : ∀ s a r s', I s → Step s a r s' → C ⟨s, a, r⟩ → I s')
    (state : ∀ s, I s → P s)
    (event : ∀ s a r s', I s → Step s a r s' → C ⟨s, a, r⟩ → Q ⟨s, a, r⟩)
    (needed : ∀ s a r s', I s → Step s a r s' → Q ⟨s, a, r⟩ → P s' → C ⟨s, a, r⟩)
    {tr : List (Event σ α ρ)} {s : σ} (run : Run Step s₀ tr s) :
    (Always P tr s ∧ ∀ ev ∈ tr, Q ev) ↔ ∀ ev ∈ tr, C ev := by
  refine ⟨fun h => ?_, run.always init keep state event⟩
  induction run with
  | nil => exact nofun
  | @snoc tr s a r s' run st ih =>
    rw [Always.snoc, forall_mem_snoc] at h
    obtain ⟨⟨hP, hs'⟩, hQ, hq⟩ := h
    have hC := ih ⟨hP, hQ⟩
    exact forall_mem_snoc.mpr ⟨hC, needed s a r s' (run.guarded init keep hC) st hq hs'⟩

/-- A run of one system is a run of another that does the same to what is seen of the states. -/
lemma Run.map {σ' : Type*} {Step' : σ' → α → ρ → σ' → Prop} (f : σ → σ')
    (sim : ∀ s a r s', Step s a r s' → Step' (f s) a r (f s')) {tr : List (Event σ α ρ)} {s : σ}
    (run : Run Step s₀ tr s) :
    Run Step' (f s₀) (tr.map fun ev => ⟨f ev.before, ev.op, ev.answer⟩) (f s) := by
  induction run with
  | nil => exact .nil
  | snoc _ st ih =>
    rw [List.map_append]
    exact .snoc ih (sim _ _ _ _ st)

end Transition
