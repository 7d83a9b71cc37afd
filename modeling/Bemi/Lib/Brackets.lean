import Mathlib.Tactic.Common
import Mathlib.Data.List.Induction

/-!
# Matching of opening and closing events

In a sequence of events some open and some close. `pending` are the events still open after a
sequence, the last one first; it is `none` once an event closes with nothing open. A closing event
matches the first event pending before it. A sequence is balanced when nothing stays pending.
-/

namespace Brackets

/-- What an event does to the events that are open. -/
inductive Kind where
  | opens | closes | neutral
  deriving DecidableEq, Repr

variable {ε : Type*} (kind : ε → Kind)

/-- The pending events after one more event. -/
def note (st : List ε) (ev : ε) : Option (List ε) :=
  match kind ev, st with
  | .opens, st => some (ev :: st)
  | .closes, [] => none
  | .closes, _ :: st => some st
  | .neutral, st => some st

def pending (tr : List ε) : Option (List ε) :=
  tr.foldlM (note kind) []

def Balanced (tr : List ε) : Prop := pending kind tr = some []

/-- At most `n` events are ever pending. -/
def Within (n : Nat) (tr : List ε) : Prop :=
  ∀ pre st, pre <+: tr → pending kind pre = some st → st.length ≤ n

variable {kind}

lemma pending_append (tr tr' : List ε) :
    pending kind (tr ++ tr') = (pending kind tr).bind (tr'.foldlM (note kind)) := by
  rw [pending, List.foldlM_append]
  rfl

lemma pending_concat (tr : List ε) (ev : ε) :
    pending kind (tr ++ [ev]) = (pending kind tr).bind (note kind · ev) := by
  rw [pending_append]
  congr 1
  funext st
  rw [List.foldlM_cons]
  cases note kind st ev with
  | none => rfl
  | some st' => rfl

/-- What is pending later was built on what was pending before. -/
lemma pending_of_append {tr tr' : List ε} {st : List ε}
    (h : pending kind (tr ++ tr') = some st) : ∃ st', pending kind tr = some st' := by
  rw [pending_append, Option.bind_eq_some_iff] at h
  obtain ⟨st', hst', -⟩ := h
  exact ⟨st', hst'⟩

lemma Within.of_append {n : Nat} {tr tr' : List ε} (h : Within kind n (tr ++ tr')) :
    Within kind n tr :=
  fun pre st hpre => h pre st (hpre.trans (List.prefix_append tr tr'))

/-- The events that an event finds pending, one case for each kind. -/
lemma note_eq_some {st st' : List ε} {ev : ε} (h : note kind st ev = some st') :
    (kind ev = .opens ∧ st' = ev :: st) ∨ (kind ev = .closes ∧ ∃ m, st = m :: st') ∨
      (kind ev = .neutral ∧ st' = st) := by
  unfold note at h
  split at h
  · next hk => exact .inl ⟨hk, (Option.some.inj h).symm⟩
  · cases h
  · next m rest hk =>
    cases h
    exact .inr (.inl ⟨hk, m, rfl⟩)
  · next hk => exact .inr (.inr ⟨hk, (Option.some.inj h).symm⟩)

/-- No more events are pending than there have been. -/
lemma length_pending_le {tr st : List ε} (h : pending kind tr = some st) :
    st.length ≤ tr.length := by
  induction tr using List.reverseRecOn generalizing st with
  | nil =>
    cases h
    exact Nat.le_refl 0
  | append_singleton tr ev ih =>
    rw [pending_concat, Option.bind_eq_some_iff] at h
    obtain ⟨st', hst', hnote⟩ := h
    have hle := ih hst'
    rw [List.length_append, List.length_singleton]
    obtain ⟨-, rfl⟩ | ⟨-, m, rfl⟩ | ⟨-, rfl⟩ := note_eq_some hnote
    · exact Nat.succ_le_succ hle
    · rw [List.length_cons] at hle
      omega
    · omega

lemma within_of_length {n : Nat} {tr : List ε} (h : tr.length ≤ n) : Within kind n tr :=
  fun _ _ hpre hst =>
    Nat.le_trans (Nat.le_trans (length_pending_le hst) hpre.length_le) h

end Brackets
