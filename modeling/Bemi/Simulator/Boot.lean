import Mathlib.Algebra.Order.Field.Rat
import Mathlib.Tactic.Positivity
import Bemi.Lib.Search

/-!
# The partition of the SRAM at boot

Model of the search of `BemiBIOS.boot` of `simulator/bemi_bios_sim.py`, which divides the L1 caches
between thread states, ROB, L0 cache and fixed buffers. The comment over it states the constraint. The
score is computed in floating point, whose operations are a parameter.
-/

namespace Bemi.Simulator
open Search

/-! ## The search -/

/-- The floating-point operations of the score. -/
structure Doubles (F : Type) where
  ofInt : Int → F
  sub : F → F → F
  mul : F → F → F
  div : F → F → F
  exp : F → F
  lt : F → F → Bool

/-- The sizes of the caches of a CPU. -/
structure PentiumCpu where
  iCacheBytes : Nat
  dCacheBytes : Nat

structure Partition (F : Type) where
  t : Int
  rob : Int
  l0Kb : Int
  score : F

def totalL1CacheKb (cpu : PentiumCpu) : Int :=
  cpu.iCacheBytes / 1024 + cpu.dCacheBytes / 1024

def sramBytes (cpu : PentiumCpu) : Int := totalL1CacheKb cpu * 1024

/-- NPP and memory compression buffers. -/
def reservedBytes : Int := 1024 + 512

/-- `range(2, 17, 2)` -/
def threads : List Int := [2, 4, 6, 8, 10, 12, 14, 16]

section
variable {F : Type} (fl : Doubles F)

def score (t rob l0Kb : Int) : F :=
  let robBenefit := fl.sub (fl.ofInt 1) (fl.exp (fl.div (fl.ofInt (-rob)) (fl.ofInt 128)))
  let cacheBenefit := fl.div (fl.ofInt l0Kb) (fl.ofInt 8)
  fl.mul (fl.mul (fl.ofInt t) robBenefit) cacheBenefit

/-- The partition with `t` threads, unless that leaves less than 1 KB for the L0 cache. -/
def candidate (usableSram t : Int) : Option (Partition F) :=
  let rob := t * 32
  let threadStateCost := t * 64
  let robCost := rob * 2
  let remainingBytes := usableSram - threadStateCost - robCost
  let l0Kb := remainingBytes / 1024
  if l0Kb < 1 then none else some ⟨t, rob, l0Kb, score fl t rob l0Kb⟩

def defaults : Partition F := ⟨8, 256, 8, fl.ofInt 0⟩

def bootPartition (cpu : PentiumCpu) : Partition F :=
  let usableSram := sramBytes cpu - reservedBytes
  search (fun p best => fl.lt best.score p.score) (defaults fl)
    (threads.map (candidate fl usableSram))

end

/-! ## The budget -/

/-- What the comment asks of a partition, and the window of 32 entries for each thread. -/
structure Partition.WithinBudget {F : Type} (p : Partition F) (totalBytes : Int) : Prop where
  fits : p.t * 64 + p.rob * 2 + p.l0Kb * 1024 + 1536 ≤ totalBytes
  window : p.rob = 32 * p.t

/-- As long as there is an L0 cache to score, the score is positive. -/
def Doubles.Positive {F : Type} (fl : Doubles F) : Prop :=
  ∀ t ∈ threads, ∀ l0Kb ≥ 1, fl.lt (fl.ofInt 0) (score fl t (t * 32) l0Kb) = true

section
variable {F : Type} {fl : Doubles F} {usableSram t : Int}

lemma candidate_none (h : usableSram < 128 * t + 1024) : candidate fl usableSram t = none := by
  rw [candidate]
  exact if_pos (by omega)

lemma candidate_isSome (h : 128 * t + 1024 ≤ usableSram) :
    ∃ p, candidate fl usableSram t = some p := by
  rw [candidate, if_neg (by omega)]
  exact ⟨_, rfl⟩

/-- What is left for the L0 cache is rounded down. -/
lemma candidate_withinBudget {p : Partition F} {totalBytes : Int}
    (h : candidate fl (totalBytes - reservedBytes) t = some p) : p.WithinBudget totalBytes := by
  rw [candidate] at h
  split at h
  · cases h
  · cases h
    have hreserved : reservedBytes = 1536 := rfl
    constructor
    · dsimp only
      omega
    · exact Int.mul_comm ..

lemma candidate_positive (hpos : fl.Positive) {p : Partition F} (ht : t ∈ threads)
    (h : candidate fl usableSram t = some p) : fl.lt (fl.ofInt 0) p.score = true := by
  rw [candidate] at h
  split at h
  · cases h
  · rename_i hl0
    cases h
    exact hpos t ht _ (Int.not_lt.mp hl0)

end

section
variable {F : Type} (fl : Doubles F) (cpu : PentiumCpu)

/-- With less than 3 KB no number of threads leaves room, and the defaults stay. -/
lemma bootPartition_small (h : sramBytes cpu < 3 * 1024) : bootPartition fl cpu = defaults fl := by
  apply search_infeasible
  intro c hc
  obtain ⟨t, ht, rfl⟩ := List.mem_map.mp hc
  have hmin : ∀ t ∈ threads, 2 ≤ t := by decide
  have hreserved : reservedBytes = 1536 := rfl
  have hdvd : sramBytes cpu = totalL1CacheKb cpu * 1024 := rfl
  apply candidate_none
  have := hmin t ht
  omega

/-- From 3 KB on two threads have room, so the search ends with a candidate. -/
lemma bootPartition_candidate (hpos : fl.Positive) (h : 3 * 1024 ≤ sramBytes cpu) :
    ∃ t ∈ threads, candidate fl (sramBytes cpu - reservedBytes) t =
      some (bootPartition fl cpu) := by
  have hreserved : reservedBytes = 1536 := rfl
  have hmem : some (bootPartition fl cpu) ∈
      threads.map (candidate fl (sramBytes cpu - reservedBytes)) := by
    apply search_feasible
    · intro p hp
      obtain ⟨t, ht, htp⟩ := List.mem_map.mp hp
      exact candidate_positive hpos ht htp
    · obtain ⟨p, hp⟩ : ∃ p, candidate fl (sramBytes cpu - reservedBytes) 2 = some p :=
        candidate_isSome (by omega)
      exact ⟨p, List.mem_map.mpr ⟨2, by decide, hp⟩⟩
  exact List.mem_map.mp hmem

/-- The partition keeps to the budget where the caches together have 3 KB. -/
theorem boot_withinBudget_iff (hpos : fl.Positive) (hi : 1024 ∣ cpu.iCacheBytes)
    (hd : 1024 ∣ cpu.dCacheBytes) :
    (bootPartition fl cpu).WithinBudget (cpu.iCacheBytes + cpu.dCacheBytes) ↔
      3 * 1024 ≤ cpu.iCacheBytes + cpu.dCacheBytes := by
  have hsram : sramBytes cpu = cpu.iCacheBytes + cpu.dCacheBytes := by
    rw [sramBytes, totalL1CacheKb]
    omega
  rw [← hsram]
  constructor
  · intro h
    by_contra hsmall
    have hfits := h.fits
    rw [bootPartition_small fl cpu (by omega)] at hfits
    change (10752 : Int) ≤ _ at hfits
    omega
  · intro h
    obtain ⟨t, _, hp⟩ := bootPartition_candidate fl cpu hpos (by omega)
    exact candidate_withinBudget hp

end

/-! ## Exact arithmetic -/

/-- The exponential by the first terms of its series. -/
def expSeries (x : Rat) : Rat :=
  ((List.range 24).foldl (fun (a : Rat × Rat) k => (a.1 + a.2, a.2 * x / (k + 1))) (0, 1)).1

/-- Rational numbers in place of doubles. -/
def rationals : Doubles Rat where
  ofInt := Int.cast
  sub := (· - ·)
  mul := (· * ·)
  div := (· / ·)
  exp := expSeries
  lt x y := x < y

/-- The benefit of the ROB is positive for each number of threads. -/
lemma robBenefit_pos : ∀ t ∈ threads, (0 : Rat) < (t : Rat) *
    (((1 : Int) : Rat) - expSeries (((-(t * 32) : Int) : Rat) / ((128 : Int) : Rat))) := by
  decide +kernel

lemma rationals_positive : rationals.Positive := by
  intro t ht l0Kb hl0
  have hcache : (0 : Rat) < (l0Kb : Rat) / ((8 : Int) : Rat) := by
    have : (0 : Rat) < l0Kb := Int.cast_pos.mpr (Int.lt_of_lt_of_le Int.zero_lt_one hl0)
    positivity
  have hscore := mul_pos (robBenefit_pos t ht) hcache
  simpa only [rationals, score, decide_eq_true_eq, Int.cast_zero] using hscore

/-- With 8 KB each, sixteen threads and 12 KB of L0 cache. -/
theorem boot_pentium :
    (bootPartition rationals ⟨8192, 8192⟩).WithinBudget (8192 + 8192) :=
  (boot_withinBudget_iff rationals ⟨8192, 8192⟩ rationals_positive (by decide) (by decide)).mpr
    (by decide)

/-- With 1 KB each the defaults ask for more than there is. -/
theorem boot_small :
    ¬ (bootPartition rationals ⟨1024, 1024⟩).WithinBudget (1024 + 1024) := by
  intro h
  have hfits := h.fits
  rw [bootPartition_small rationals ⟨1024, 1024⟩ (by decide)] at hfits
  exact absurd hfits (by decide)

end Bemi.Simulator
