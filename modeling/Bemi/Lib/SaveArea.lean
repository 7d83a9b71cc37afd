import Mathlib.Tactic.Common
import Mathlib.Logic.Function.Basic

/-!
# Saving registers around a call

Code that pushes registers, calls a function with a pointer to what it has pushed, and pops them
again. The callee sees the saved words from the last register pushed on, and may change them; the
registers are popped from what it leaves (`exec_saved`).
-/

namespace SaveArea

/-- Registers, the words from the stack pointer on, and whatever else there is. -/
structure Machine (ρ α κ : Type*) where
  regs : ρ → α
  stack : List α
  world : κ

inductive Insn (ρ : Type*) where
  | push (r : ρ)
  | pop (r : ρ)
  | call

/-- What a call leaves: the words from the stack pointer on, the registers and the rest. -/
abbrev Callee (ρ α κ : Type*) := List α → κ → Machine ρ α κ

variable {ρ α κ : Type*} [DecidableEq ρ]

def step (callee : Callee ρ α κ) (m : Machine ρ α κ) : Insn ρ → Machine ρ α κ
  | .push r => { m with stack := m.regs r :: m.stack }
  | .pop r =>
    match m.stack with
    | [] => m
    | w :: ws => { m with regs := Function.update m.regs r w, stack := ws }
  | .call => callee m.stack m.world

def exec (callee : Callee ρ α κ) (code : List (Insn ρ)) (m : Machine ρ α κ) : Machine ρ α κ :=
  code.foldl (step callee) m

/-- Put the words in the registers, one after the other. -/
def assign : List ρ → List α → (ρ → α) → ρ → α
  | r :: rs, w :: ws, regs => assign rs ws (Function.update regs r w)
  | _, _, regs => regs

variable (callee : Callee ρ α κ)

lemma exec_append (code code' : List (Insn ρ)) (m : Machine ρ α κ) :
    exec callee (code ++ code') m = exec callee code' (exec callee code m) :=
  List.foldl_append

lemma exec_push (rs : List ρ) (m : Machine ρ α κ) :
    exec callee (rs.map .push) m = { m with stack := (rs.map m.regs).reverse ++ m.stack } := by
  induction rs generalizing m with
  | nil => rfl
  | cons r rs ih =>
    rw [List.map_cons, exec, List.foldl_cons]
    refine (ih _).trans ?_
    simp [step]

lemma exec_pop (rs : List ρ) (ws st : List α) (hlen : ws.length = rs.length) (m : Machine ρ α κ)
    (hm : m.stack = ws ++ st) :
    exec callee (rs.map .pop) m = { m with regs := assign rs ws m.regs, stack := st } := by
  induction rs generalizing ws m with
  | nil =>
    obtain rfl := List.eq_nil_of_length_eq_zero hlen
    rw [List.nil_append] at hm
    rw [← hm]
    rfl
  | cons r rs ih =>
    cases ws with
    | nil => cases hlen
    | cons w ws =>
      rw [List.map_cons, exec, List.foldl_cons, step, hm]
      exact ih ws (Nat.succ.inj hlen) _ rfl

/-- Save registers, call, and restore them: each gets the word that the callee has left in its
place. -/
theorem exec_saved (rs : List ρ) (m m' : Machine ρ α κ) (ws : List α)
    (hlen : ws.length = rs.length)
    (hcall : callee ((rs.map m.regs).reverse ++ m.stack) m.world = m')
    (hstack : m'.stack = ws ++ m.stack) :
    exec callee (rs.map .push ++ Insn.call :: rs.reverse.map .pop) m =
      { m' with regs := assign rs.reverse ws m'.regs, stack := m.stack } := by
  rw [exec_append, exec_push, ← hcall, exec, List.foldl_cons]
  exact exec_pop callee rs.reverse ws m.stack (by rw [List.length_reverse, hlen]) _
    (by rw [← hstack, ← hcall]; rfl)

end SaveArea
