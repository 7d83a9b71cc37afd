import Mathlib.Tactic.Common

/-!
# Programs

Programs over a state that may raise an exception, which leaves the state as it is then. `exec` is what
a program returns, or `none` for an exception, with the state afterwards; `execAll` is a sequence of
programs each of which goes on where the one before has ended, whether it has returned or raised.
-/

namespace Program

variable {S α β : Type}

/-- Programs over a state that may raise an exception. -/
abbrev Prog (S α : Type) := OptionT (StateM S) α

namespace Prog

/-- What the program returns, or `none` for an exception, and the state it leaves. -/
def exec (m : Prog S α) (s : S) : Option α × S := m.run.run s

/-- Read something off the state. -/
def read (f : S → α) : Prog S α := f <$> get

/-- An operation that changes the state and returns something. -/
def call (f : S → α × S) : Prog S α := modifyGet f

def raise : Prog S α := failure

/-- The value, or an exception. -/
def ofOption : Option α → Prog S α
  | none => raise
  | some a => pure a

@[simp] lemma exec_pure (a : α) (s : S) : exec (pure a) s = (some a, s) := rfl

@[simp] lemma exec_read (f : S → α) (s : S) : exec (read f) s = (some (f s), s) := rfl

@[simp] lemma exec_call (f : S → α × S) (s : S) : exec (call f) s = (some (f s).1, (f s).2) := rfl

@[simp] lemma exec_raise (s : S) : exec (raise : Prog S α) s = (none, s) := rfl

lemma exec_bind (m : Prog S α) (k : α → Prog S β) (s : S) :
    exec (m >>= k) s = match exec m s with
      | (some a, s₁) => exec (k a) s₁
      | (none, s₁) => (none, s₁) := by
  simp only [exec, OptionT.run_bind, Option.elimM, StateT.run_bind]
  generalize StateT.run (OptionT.run m) s = x
  obtain ⟨r, s₁⟩ : Option α × S := x
  cases r <;> rfl

end Prog

open Prog

/-- One program after another, each from the state in which the one before has ended: what they return
or that they raise an exception, and the last state. -/
def execAll (s : S) : List (Prog S α) → List (Option α) × S
  | [] => ([], s)
  | m :: ms =>
    let (r, s) := exec m s
    let (rs, s) := execAll s ms
    (r :: rs, s)

/-- A loop that ends with the first item for which its body returns something. -/
def firstSome {ι : Type} (body : ι → Prog S (Option α)) : List ι → Prog S (Option α)
  | [] => pure none
  | i :: is => do
    match ← body i with
    | some a => pure (some a)
    | none => firstSome body is

end Program
