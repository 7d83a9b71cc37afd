import Bemi.Lib.Program

/-!
# Programs over two representations of their state

`Coupled R m m'` says of two programs that from states related by `R` they return or raise the same and
leave related states. The rules follow the structure of the programs.
-/

namespace Coupling
open Program Prog

variable {S S' α β ι : Type}

/-- From related states the programs return or raise the same, and leave related states. -/
def Coupled (R : S → S' → Prop) (m : Prog S α) (m' : Prog S' α) : Prop :=
  ∀ s s', R s s' → (exec m s).1 = (exec m' s').1 ∧ R (exec m s).2 (exec m' s').2

namespace Coupled

variable {R : S → S' → Prop}

lemma pure (a : α) : Coupled R (Pure.pure a) (Pure.pure a) :=
  fun _ _ h => ⟨rfl, h⟩

lemma raise : Coupled R (Prog.raise : Prog S α) Prog.raise :=
  fun _ _ h => ⟨rfl, h⟩

lemma ofOption (o : Option α) : Coupled R (Prog.ofOption o) (Prog.ofOption o) := by
  cases o with
  | none => exact raise
  | some a => exact pure a

lemma read {f : S → α} {f' : S' → α} (hf : ∀ s s', R s s' → f s = f' s') :
    Coupled R (Prog.read f) (Prog.read f') :=
  fun s s' h => ⟨congrArg some (hf s s' h), h⟩

lemma call {f : S → α × S} {f' : S' → α × S'}
    (hf : ∀ s s', R s s' → (f s).1 = (f' s').1 ∧ R (f s).2 (f' s').2) :
    Coupled R (Prog.call f) (Prog.call f') :=
  fun s s' h => ⟨congrArg some (hf s s' h).1, (hf s s' h).2⟩

lemma bind {m : Prog S α} {m' : Prog S' α} {k : α → Prog S β} {k' : α → Prog S' β}
    (hm : Coupled R m m') (hk : ∀ a, Coupled R (k a) (k' a)) : Coupled R (m >>= k) (m' >>= k') := by
  intro s s' h
  have hout := hm s s' h
  rw [exec_bind, exec_bind]
  revert hout
  generalize exec m s = x
  generalize exec m' s' = x'
  obtain ⟨r, s₁⟩ := x
  obtain ⟨r', s₁'⟩ := x'
  rintro ⟨rfl : r = r', hstate⟩
  cases r with
  | none => exact ⟨rfl, hstate⟩
  | some a => exact hk a s₁ s₁' hstate

lemma map {m : Prog S α} {m' : Prog S' α} (f : α → β) (hm : Coupled R m m') :
    Coupled R (f <$> m) (f <$> m') := by
  rw [← bind_pure_comp, ← bind_pure_comp]
  exact hm.bind fun a => pure (f a)

lemma ite {c : Prop} [Decidable c] {m n : Prog S α} {m' n' : Prog S' α} (hm : Coupled R m m')
    (hn : Coupled R n n') : Coupled R (if c then m else n) (if c then m' else n') := by
  split
  · exact hm
  · exact hn

lemma forM {k : ι → Prog S PUnit} {k' : ι → Prog S' PUnit} (hk : ∀ i, Coupled R (k i) (k' i))
    (l : List ι) : Coupled R (l.forM k) (l.forM k') := by
  induction l with
  | nil => exact pure _
  | cons i l ih => exact (hk i).bind fun _ => ih

end Coupled

/-- Whole sequences of programs that are coupled return and raise the same. -/
theorem Coupled.execAll {R : S → S' → Prop} {m : ι → Prog S α} {m' : ι → Prog S' α}
    (hm : ∀ i, Coupled R (m i) (m' i)) (l : List ι) {s : S} {s' : S'} (h : R s s') :
    (execAll s (l.map m)).1 = (execAll s' (l.map m')).1 ∧
      R (execAll s (l.map m)).2 (execAll s' (l.map m')).2 := by
  induction l generalizing s s' with
  | nil => exact ⟨rfl, h⟩
  | cons i l ih =>
    obtain ⟨hout, hstate⟩ := hm i s s' h
    obtain ⟨houts, hstates⟩ := ih hstate
    simp only [List.map_cons, Program.execAll]
    exact ⟨congrArg₂ List.cons hout houts, hstates⟩

end Coupling
