import Mathlib.Order.Bounds.Basic
import Bemi.Lib.Run

/-!
# Interrupts by priority

An interrupt controller is a pair of sets of vectors, those requested and those in service. `Step` is
what it does: a request, the greatest vector requested going into service, and the end of the
greatest vector in service; in `Lax` a request may also be passed over. The controller does not know
which handler runs; `Nest` keeps the
handlers beside it, the innermost first. `nest_iff` says when the vectors in service are those of the
handlers that run, and when an end of interrupt is that of the innermost: no vector may go into
service while a greater or equal one is there.
-/

namespace Priority
open Transition

inductive Op (α : Type*) where
  | inject (v : α)
  | get
  | eoi
  deriving DecidableEq, Repr

@[ext] structure Sets (α : Type*) where
  requested : Set α
  inService : Set α

variable {α σ : Type*} [LinearOrder α]

/-- An operation, its answer and the sets after it. -/
inductive Step : Sets α → Op α → Option α → Sets α → Prop where
  | inject {s v} : Step s (.inject v) (some v) { s with requested := insert v s.requested }
  | getNone {s} : s.requested = ∅ → Step s .get none s
  | get {s v} :
    IsGreatest s.requested v →
    Step s .get (some v) ⟨s.requested \ {v}, insert v s.inService⟩
  | eoiNone {s} : s.inService = ∅ → Step s .eoi none s
  | eoi {s v} :
    IsGreatest s.inService v →
    Step s .eoi none { s with inService := s.inService \ {v} }

/-- A step, or a request that is passed over. -/
inductive Lax : Sets α → Op α → Option α → Sets α → Prop where
  | step {s op r s'} : Step s op r s' → Lax s op r s'
  | ignored {s v r} : Lax s (.inject v) r s

/-- An end of interrupt takes out `v` and nothing else when `v` is on top. -/
lemma Step.eoi_iff {s s' : Sets α} (st : Step s .eoi none s') (v : α) :
    (v ∈ s.inService ∧ ∀ w, w ∈ s'.inService ↔ w ∈ s.inService ∧ w ≠ v) ↔
      IsGreatest s.inService v := by
  cases st with
  | eoiNone h =>
    rw [h]
    exact ⟨fun hclear => absurd hclear.1 (Set.notMem_empty v),
      fun hmax => absurd hmax.1 (Set.notMem_empty v)⟩
  | @eoi u h =>
    constructor
    · rintro ⟨hv, hclear⟩
      have hu : ¬ (u ∈ s.inService ∧ u ≠ v) := fun hne => ((hclear u).mpr hne).2 rfl
      obtain rfl : u = v := not_not.mp fun hne => hu ⟨h.1, hne⟩
      exact h
    · intro hmax
      obtain rfl := h.unique hmax
      exact ⟨hmax.1, fun w => Iff.rfl⟩

/-- The handlers that run after an operation. -/
def running : Op α → Option α → List α → List α
  | .get, some v, l => v :: l
  | .eoi, _, l => l.tail
  | _, _, l => l

/-- A system with its handlers. -/
inductive Nest (S : σ → Op α → Option α → σ → Prop) :
    σ × List α → Op α → Option α → σ × List α → Prop where
  | mk {s op r s'} (l : List α) :
    S s op r s' →
    Nest S (s, l) op r (s', running op r l)

section
variable (sets : σ → Sets α)

/-- The vectors in service are those of the handlers that run. -/
def Running (x : σ × List α) : Prop :=
  ∀ v, v ∈ (sets x.1).inService ↔ v ∈ x.2

/-- An end of interrupt finds the vector of the innermost handler on top. -/
def EndsInnermost (ev : Event (σ × List α) (Op α) (Option α)) : Prop :=
  ev.op = .eoi → ∀ v l, ev.before.2 = v :: l → IsGreatest (sets ev.before.1).inService v

/-- A vector goes into service above all that are there. -/
def Preempts (ev : Event (σ × List α) (Op α) (Option α)) : Prop :=
  ev.op = .get → ∀ v, IsGreatest (sets ev.before.1).requested v →
    ∀ w ∈ (sets ev.before.1).inService, w < v

omit [LinearOrder α] in
/-- No handler runs when nothing is in service. -/
lemma nil_of_inService_empty {s : Sets α} {l : List α} (hmem : ∀ v, v ∈ s.inService ↔ v ∈ l)
    (h : s.inService = ∅) : l = [] := by
  refine List.eq_nil_iff_forall_not_mem.mpr fun v hv => ?_
  have hin := (hmem v).mpr hv
  rw [h] at hin
  exact hin

variable {sets} {S : σ → Op α → Option α → σ → Prop}
  (sim : ∀ s op r s', S s op r s' → Lax (sets s) op r (sets s'))
include sim

/-- Preemption keeps the handlers nested, in descending order. -/
lemma nest_keep {x x' : σ × List α} {op : Op α} {r : Option α} (st : Nest S x op r x')
    (hrun : Running sets x) (hnest : x.2.Pairwise (· > ·)) (hpre : Preempts sets ⟨x, op, r⟩) :
    Running sets x' ∧ x'.2.Pairwise (· > ·) ∧ EndsInnermost sets ⟨x, op, r⟩ := by
  obtain @⟨s, op, r, s', l, st⟩ := st
  have hstep := sim _ _ _ _ st
  generalize hs : sets s = a at hstep
  generalize hs' : sets s' = a' at hstep
  have hmem : ∀ v, v ∈ a.inService ↔ v ∈ l := fun v => hs ▸ hrun v
  have goal (hmem' : ∀ v, v ∈ a'.inService ↔ v ∈ running op r l) : Running sets (s', running op r l) :=
    fun v => hs' ▸ hmem' v
  obtain hstep | - := hstep
  swap
  · exact ⟨goal hmem, hnest, nofun⟩
  cases hstep with
  | inject => exact ⟨goal hmem, hnest, nofun⟩
  | getNone h => exact ⟨goal hmem, hnest, nofun⟩
  | @get v h =>
    have habove : ∀ w ∈ l, w < v := fun w hw =>
      hpre rfl v (by rw [hs]; exact h) w ((hrun w).mpr hw)
    refine ⟨goal fun w => ?_, List.pairwise_cons.mpr ⟨habove, hnest⟩, nofun⟩
    rw [Set.mem_insert_iff, hmem]
    exact List.mem_cons.symm
  | eoiNone h =>
    obtain rfl := nil_of_inService_empty hmem h
    exact ⟨goal hmem, hnest, fun _ v l hl => nomatch hl⟩
  | @eoi v h =>
    cases l with
    | nil => exact absurd ((hmem v).mp h.1) List.not_mem_nil
    | cons u l =>
      obtain ⟨hbelow, hrest⟩ := List.pairwise_cons.mp hnest
      -- the innermost handler has the greatest vector
      have hu : IsGreatest a.inService u := by
        refine ⟨(hmem u).mpr List.mem_cons_self, fun w hw => ?_⟩
        rcases List.mem_cons.mp ((hmem w).mp hw) with rfl | hw
        · exact le_rfl
        · exact (hbelow w hw).le
      obtain rfl := h.unique hu
      refine ⟨goal fun w => ?_, hrest, fun _ w l' hl => ?_⟩
      · rw [Set.mem_sdiff, hmem, List.mem_cons, Set.mem_singleton_iff]
        constructor
        · rintro ⟨rfl | hw, hne⟩
          · exact absurd rfl hne
          · exact hw
        · exact fun hw => ⟨.inr hw, (hbelow w hw).ne⟩
      · obtain ⟨rfl, -⟩ := List.cons.inj hl
        rw [hs]
        exact hu

/-- Where the vectors in service are those of the handlers, nested handlers were nested before. -/
lemma nest_back {x x' : σ × List α} {op : Op α} {r : Option α} (st : Nest S x op r x')
    (hrun : Running sets x) (hrun' : Running sets x') (hend : EndsInnermost sets ⟨x, op, r⟩)
    (hnest : x'.2.Pairwise (· > ·)) : x.2.Pairwise (· > ·) ∧ Preempts sets ⟨x, op, r⟩ := by
  obtain @⟨s, op, r, s', l, st⟩ := st
  have hstep := sim _ _ _ _ st
  generalize hs : sets s = a at hstep
  generalize hs' : sets s' = a' at hstep
  have hmem : ∀ v, v ∈ a.inService ↔ v ∈ l := fun v => hs ▸ hrun v
  have hmem' : ∀ v, v ∈ a'.inService ↔ v ∈ running op r l := fun v => hs' ▸ hrun' v
  obtain hstep | - := hstep
  swap
  · exact ⟨hnest, nofun⟩
  cases hstep with
  | inject => exact ⟨hnest, nofun⟩
  | getNone h =>
    refine ⟨hnest, fun _ v hv => ?_⟩
    rw [hs, h] at hv
    exact absurd hv.1 (Set.notMem_empty v)
  | @get v h =>
    obtain ⟨habove, hrest⟩ := List.pairwise_cons.mp hnest
    refine ⟨hrest, fun _ u hu w hw => ?_⟩
    rw [hs] at hu
    obtain rfl := h.unique hu
    exact habove w ((hrun w).mp hw)
  | eoiNone h =>
    obtain rfl := nil_of_inService_empty hmem h
    exact ⟨.nil, nofun⟩
  | @eoi v h =>
    refine ⟨?_, nofun⟩
    cases l with
    | nil => exact .nil
    | cons u l =>
      have hu := hend rfl u l rfl
      rw [hs] at hu
      obtain rfl := h.unique hu
      refine List.pairwise_cons.mpr ⟨fun w hw => ?_, hnest⟩
      obtain ⟨hin, hne⟩ := (hmem' w).mpr hw
      exact lt_of_le_of_ne (h.2 hin) hne

/-- In a run whose handlers end nested, every vector went into service above all that were there. -/
lemma preempts_of_nested {x₀ : σ × List α} {tr : List (Event (σ × List α) (Op α) (Option α))}
    {x : σ × List α} (run : Run (Nest S) x₀ tr x) (hstates : Always (Running sets) tr x)
    (hevents : ∀ ev ∈ tr, EndsInnermost sets ev) (hnest : x.2.Pairwise (· > ·)) :
    ∀ ev ∈ tr, Preempts sets ev := by
  induction run with
  | nil => exact nofun
  | snoc run st ih =>
    rw [Always.snoc] at hstates
    rw [forall_mem_snoc] at hevents
    obtain ⟨hbefore, hpre⟩ := nest_back sim st hstates.1.2 hstates.2 hevents.2 hnest
    exact forall_mem_snoc.mpr ⟨ih hstates.1 hevents.1 hbefore, hpre⟩

omit [LinearOrder α] sim in
/-- The handlers can end one after the other. -/
lemma exists_drain (total : ∀ s, ∃ s', S s .eoi none s') {x₀ x : σ × List α}
    {tr : List (Event (σ × List α) (Op α) (Option α))} (run : Run (Nest S) x₀ tr x) :
    ∃ tr' x', (∀ ev ∈ tr', ev.op = .eoi) ∧ Run (Nest S) x₀ (tr ++ tr') x' ∧ x'.2 = [] := by
  obtain ⟨s, l⟩ := x
  induction l generalizing s tr with
  | nil => exact ⟨[], _, nofun, by rwa [List.append_nil], rfl⟩
  | cons v l ih =>
    obtain ⟨s', st⟩ := total s
    obtain ⟨tr', x', heoi, run', hnil⟩ := ih s' (run.snoc (.mk (v :: l) st))
    rw [List.append_assoc] at run'
    exact ⟨_, x', List.forall_mem_cons.mpr ⟨rfl, heoi⟩, run', hnil⟩

/-- The vectors in service are those of the handlers, and every end of interrupt is that of the
innermost, in a run and in all that follows it by ends of interrupt, exactly when each vector goes
into service above all that are there. -/
theorem nest_iff (total : ∀ s, ∃ s', S s .eoi none s') {s₀ : σ} (init : (sets s₀).inService = ∅)
    {tr : List (Event (σ × List α) (Op α) (Option α))} {x : σ × List α}
    (run : Run (Nest S) (s₀, []) tr x) :
    (∀ tr' x', (∀ ev ∈ tr', ev.op = .eoi) → Run (Nest S) (s₀, []) (tr ++ tr') x' →
        Always (Running sets) (tr ++ tr') x' ∧ ∀ ev ∈ tr ++ tr', EndsInnermost sets ev) ↔
      ∀ ev ∈ tr, Preempts sets ev := by
  have hinit : Running sets (s₀, []) := fun v => by simp [init]
  constructor
  · intro h
    -- the run in which every handler has ended
    obtain ⟨tr', x', heoi, run', hnil⟩ := exists_drain total run
    obtain ⟨hstates, hevents⟩ := h tr' x' heoi run'
    have hpre := preempts_of_nested sim run' hstates hevents (hnil ▸ .nil)
    exact fun ev hev => hpre ev (List.mem_append_left _ hev)
  · intro h tr' x' heoi run'
    refine run'.always (I := fun x => Running sets x ∧ x.2.Pairwise (· > ·)) (C := Preempts sets)
      ⟨hinit, .nil⟩ (fun x op r x' hx st hpre => ?_) (fun x hx => hx.1)
      (fun x op r x' hx st hpre => (nest_keep sim st hx.1 hx.2 hpre).2.2) fun ev hev => ?_
    · have hkeep := nest_keep sim st hx.1 hx.2 hpre
      exact ⟨hkeep.1, hkeep.2.1⟩
    · rcases List.mem_append.mp hev with hev | hev
      · exact h ev hev
      · intro hget
        rw [heoi ev hev] at hget
        cases hget

end

end Priority
