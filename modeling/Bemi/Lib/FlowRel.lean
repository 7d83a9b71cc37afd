import Bemi.Lib.Machine

/-!
# Related runs of straight-line machines

Two machines whose states and results are related, running the same list of instructions, each in
its own way. If they keep the relation at every instruction they keep it over the list (`flow_rel`),
and their results are related (`Flow.Rel.finish`). `flow_map` puts a translation of instructions into
this form.
-/

namespace Machine

variable {ι κ σ τ ρ π : Type*}

/-- Both runs go on in related states, or both have stopped with related results. -/
inductive Flow.Rel (R : σ → τ → Prop) (Q : ρ → π → Prop) : Flow σ ρ → Flow τ π → Prop where
  | next {s t} : R s t → Rel R Q (.next s) (.next t)
  | stop {r q} : Q r q → Rel R Q (.stop r) (.stop q)

variable {R : σ → τ → Prop} {Q : ρ → π → Prop}

/-- Related runs go on alike. -/
lemma Flow.Rel.bind {f : Flow σ ρ} {f' : Flow τ π} {k : σ → Flow σ ρ} {k' : τ → Flow τ π}
    (h : Rel R Q f f') (hk : ∀ s t, R s t → Rel R Q (k s) (k' t)) :
    Rel R Q (f.bind k) (f'.bind k') := by
  cases h with
  | next hst => exact hk _ _ hst
  | stop hrq => exact .stop hrq

/-- Runs that are related end alike. -/
lemma Flow.Rel.finish {f : Flow σ ρ} {f' : Flow τ π} (h : Rel R Q f f') (done : σ → ρ)
    (done' : τ → π) (hdone : ∀ s t, R s t → Q (done s) (done' t)) :
    Q (f.finish done) (f'.finish done') := by
  cases h with
  | next hst => exact hdone _ _ hst
  | stop hrq => exact hrq

/-- Running translated instructions. -/
lemma flow_map (step : κ → σ → Flow σ ρ) (f : ι → κ) (l : List ι) (s : σ) :
    flow step (l.map f) s = flow (fun i => step (f i)) l s := by
  induction l generalizing s with
  | nil => rfl
  | cons i l ih =>
    rw [List.map_cons, flow_cons, flow_cons]
    congr 1
    funext s'
    exact ih s'

/-- Machines that keep a relation at each instruction keep it over a list. -/
theorem flow_rel {step : ι → σ → Flow σ ρ} {step' : ι → τ → Flow τ π} {l : List ι}
    (sim : ∀ i ∈ l, ∀ s t, R s t → Flow.Rel R Q (step i s) (step' i t)) {s : σ} {t : τ}
    (h : R s t) : Flow.Rel R Q (flow step l s) (flow step' l t) := by
  induction l generalizing s t with
  | nil => exact .next h
  | cons i l ih =>
    rw [flow_cons, flow_cons]
    refine (sim i (by simp) s t h).bind fun _ _ h' => ?_
    exact ih (fun j hj => sim j (List.mem_cons_of_mem _ hj)) h'

end Machine
