import Bemi.Fusion.MacroOp
import Bemi.Lib.Coupled
import Mathlib.Algebra.GroupWithZero.Nat

/-!
# The fusion module against a table

All of `performance/fusion/macroopfusion.c`: the tables of `MacroOpFusionTryFuse`, which
`MacroOpFusionLookup` searches, those of the v7.1 functions beside them, what `MacroOpFusionDboAnalyze`
makes of the latter, and the rates. `fusion_refines` compares the module with a table in which an
address has the first operation that was recorded for it, and with counts.
-/

namespace Bemi.Fusion
open Filling Lookup Program Prog Coupling

/-! ## The v7.1 functions -/

abbrev maxFusionPairsV71 : Nat := 64

abbrev fusionBufferSizeV71 : Nat := 1024

/-- `(attempts > 0) ? (double)successes / (double)attempts : 0.0`. -/
def fusionRate (successes attempts : UInt64) : Float :=
  if attempts > 0 then successes.toFloat / attempts.toFloat else 0.0

structure V71FusionTracking where
  workloadId : UInt64
  totalInstructions : UInt64
  fusedOps : UInt64
  cacheHits : UInt64
  fusionRate : Float
  dboPatternsDetected : Bool

structure FusionStateV71 where
  gFusionPairsV71 : List FusionPair
  gFusionBufferV71 : List FusedMacroOp
  gFusionAttemptsV71 : UInt64
  gFusionSuccessesV71 : UInt64
  gV71Tracking : V71FusionTracking
  pairs_le : gFusionPairsV71.length ≤ maxFusionPairsV71
  buffer_le : gFusionBufferV71.length ≤ fusionBufferSizeV71

def macroOpFusionV71Init : FusionStateV71 :=
  ⟨[], [], 0, 0, ⟨0, 0, 0, 0, 0.0, false⟩, Nat.zero_le _, Nat.zero_le _⟩

def macroOpFusionV71TryFuse (rip1 : UInt64) (args : FuseArgs) (s : FusionStateV71) :
    FusionStateV71 × EfiStatus :=
  let s := { s with gFusionAttemptsV71 := s.gFusionAttemptsV71 + 1 }
  if ¬ args.fusable then (s, .unsupported)
  else
    ({ s with
       gFusionPairsV71 := push maxFusionPairsV71 s.gFusionPairsV71 (args.pair rip1)
       gFusionBufferV71 := push fusionBufferSizeV71 s.gFusionBufferV71 (args.macroOp rip1)
       gFusionSuccessesV71 := s.gFusionSuccessesV71 + 1
       pairs_le := length_push_le s.pairs_le _
       buffer_le := length_push_le s.buffer_le _ },
      .success)

/-- `for (i = 0; i + 1 < gFusionBufferCountV71 && scanned < InstructionCount; i++, scanned++)`, from
entry `i` on. -/
def detect (pairCount : Nat) (instructionCount : UInt32) :
    List FusedMacroOp → UInt32 → UInt32 → UInt32
  | mop :: next :: rest, scanned, detected =>
    if scanned < instructionCount then
      detect pairCount instructionCount (next :: rest) (scanned + 1)
        (if mop.fused ∧ 0 < pairCount then detected + 1 else detected)
    else detected
  | _, _, detected => detected

def macroOpFusionDboAnalyze (regionStartRip : UInt64) (instructionCount : UInt32)
    (s : FusionStateV71) : FusionStateV71 :=
  let detected := detect s.gFusionPairsV71.length instructionCount s.gFusionBufferV71 0 0
  { s with
    gV71Tracking :=
      { workloadId := regionStartRip
        totalInstructions := instructionCount.toUInt64
        fusedOps := detected.toUInt64
        cacheHits := s.gFusionSuccessesV71
        fusionRate := fusionRate s.gFusionSuccessesV71 s.gFusionAttemptsV71
        dboPatternsDetected := s.gV71Tracking.dboPatternsDetected || decide (0 < detected) } }

/-! ## Calls of the module -/

structure FusionModule where
  base : FusionState
  v71 : FusionStateV71

inductive FusionCall where
  | macroOpFusionInit
  | macroOpFusionV71Init
  | macroOpFusionTryFuse (rip1 : UInt64) (args : FuseArgs)
  | macroOpFusionV71TryFuse (rip1 : UInt64) (args : FuseArgs)
  | macroOpFusionLookup (rip : UInt64)
  | macroOpFusionDboAnalyze (regionStartRip : UInt64) (instructionCount : UInt32)
  | macroOpFusionGetStats

/-- An analysis is answered by what it reports. -/
inductive FusionAnswer where
  | done
  | status (status : EfiStatus)
  | result (result : Option FusedMacroOp)
  | report (tracking : V71FusionTracking)
  | stats (attempts successes : UInt64) (fusionRate : Float) (attemptsV71 successesV71 : UInt64)
      (fusionRateV71 : Float)

def FusionModule.perform (m : FusionModule) : FusionCall → FusionAnswer × FusionModule
  | .macroOpFusionInit => (.done, { m with base := Fusion.macroOpFusionInit })
  | .macroOpFusionV71Init => (.done, { m with v71 := Fusion.macroOpFusionV71Init })
  | .macroOpFusionTryFuse rip1 args =>
    let (base, status) := Fusion.macroOpFusionTryFuse rip1 args m.base
    (.status status, { m with base })
  | .macroOpFusionV71TryFuse rip1 args =>
    let (v71, status) := Fusion.macroOpFusionV71TryFuse rip1 args m.v71
    (.status status, { m with v71 })
  | .macroOpFusionLookup rip =>
    let (result, base) := Fusion.macroOpFusionLookup rip m.base
    (.result result, { m with base })
  | .macroOpFusionDboAnalyze regionStartRip instructionCount =>
    let v71 := Fusion.macroOpFusionDboAnalyze regionStartRip instructionCount m.v71
    (.report v71.gV71Tracking, { m with v71 })
  | .macroOpFusionGetStats =>
    (.stats m.base.gFusionAttempts m.base.gFusionSuccesses
      (fusionRate m.base.gFusionSuccesses m.base.gFusionAttempts) m.v71.gFusionAttemptsV71
      m.v71.gFusionSuccessesV71 (fusionRate m.v71.gFusionSuccessesV71 m.v71.gFusionAttemptsV71), m)

/-! ## The table -/

/-- The first operation recorded for each address, how often each has been looked up since, and how
much room is taken up, also by operations that are not the first ones. -/
structure FusionTable where
  held : UInt64 → Option FuseArgs
  executions : UInt64 → Nat
  used : Nat
  attempts : Nat
  successes : Nat

/-- Of the v7.1 tables nothing is seen but how many operations they hold. -/
structure FusionCounts where
  used : Nat
  attempts : Nat
  successes : Nat
  patternsDetected : Bool

structure FusionIdeal where
  table : FusionTable
  counts : FusionCounts

def FusionTable.empty : FusionTable := ⟨fun _ => none, fun _ => 0, 0, 0, 0⟩

def FusionCounts.empty : FusionCounts := ⟨0, 0, 0, false⟩

def FusionTable.tryFuse (t : FusionTable) (rip1 : UInt64) (args : FuseArgs) :
    FusionTable × EfiStatus :=
  if args.fusable then
    ({ t with
       held := if t.used < fusionBufferSize ∧ t.held rip1 = none then
          Function.update t.held rip1 (some args) else t.held
       used := min (t.used + 1) fusionBufferSize
       attempts := t.attempts + 1
       successes := t.successes + 1 }, .success)
  else ({ t with attempts := t.attempts + 1 }, .unsupported)

/-- The first operation, and how often it has been looked up before. -/
def FusionTable.lookup (t : FusionTable) (rip : UInt64) : Option FusedMacroOp × FusionTable :=
  match t.held rip with
  | some args =>
    (some { args.macroOp rip with executionCount := UInt32.ofNat (t.executions rip) },
      { t with executions := Function.update t.executions rip (t.executions rip + 1) })
  | none => (none, t)

def FusionCounts.tryFuse (c : FusionCounts) (args : FuseArgs) : FusionCounts × EfiStatus :=
  if args.fusable then
    ({ c with
       used := min (c.used + 1) fusionBufferSizeV71
       attempts := c.attempts + 1
       successes := c.successes + 1 }, .success)
  else ({ c with attempts := c.attempts + 1 }, .unsupported)

/-- The rate of a pair of counts. -/
def rateOf (successes attempts : Nat) : Float :=
  fusionRate (UInt64.ofNat successes) (UInt64.ofNat attempts)

/-- An analysis finds as many patterns as it has instructions to look at, whichever they are, but one
fewer than there are operations. -/
def FusionCounts.analyze (c : FusionCounts) (regionStartRip : UInt64) (instructionCount : UInt32) :
    V71FusionTracking × FusionCounts :=
  let found := min (c.used - 1) instructionCount.toNat
  let patternsDetected := c.patternsDetected || decide (0 < found)
  ({ workloadId := regionStartRip
     totalInstructions := instructionCount.toUInt64
     fusedOps := UInt64.ofNat found
     cacheHits := UInt64.ofNat c.successes
     fusionRate := rateOf c.successes c.attempts
     dboPatternsDetected := patternsDetected },
    { c with patternsDetected })

def FusionIdeal.perform (t : FusionIdeal) : FusionCall → FusionAnswer × FusionIdeal
  | .macroOpFusionInit => (.done, { t with table := .empty })
  | .macroOpFusionV71Init => (.done, { t with counts := .empty })
  | .macroOpFusionTryFuse rip1 args =>
    let (table, status) := t.table.tryFuse rip1 args
    (.status status, { t with table })
  | .macroOpFusionV71TryFuse _ args =>
    let (counts, status) := t.counts.tryFuse args
    (.status status, { t with counts })
  | .macroOpFusionLookup rip =>
    let (result, table) := t.table.lookup rip
    (.result result, { t with table })
  | .macroOpFusionDboAnalyze regionStartRip instructionCount =>
    let (tracking, counts) := t.counts.analyze regionStartRip instructionCount
    (.report tracking, { t with counts })
  | .macroOpFusionGetStats =>
    (.stats (UInt64.ofNat t.table.attempts) (UInt64.ofNat t.table.successes)
      (rateOf t.table.successes t.table.attempts) (UInt64.ofNat t.counts.attempts)
      (UInt64.ofNat t.counts.successes) (rateOf t.counts.successes t.counts.attempts), t)

/-! ## The buffer holds the table -/

/-- The entry that a lookup for the address finds. -/
def FusionTable.entry (t : FusionTable) (rip : UInt64) : Option FusedMacroOp :=
  (t.held rip).map fun args =>
    { args.macroOp rip with executionCount := UInt32.ofNat (t.executions rip) }

structure Tabulates (s : FusionState) (t : FusionTable) : Prop where
  find : ∀ rip, s.gFusionBuffer.find? (isFor rip) = t.entry rip
  unheld : ∀ rip, t.held rip = none → t.executions rip = 0
  used : t.used = s.gFusionBuffer.length
  attempts : s.gFusionAttempts = UInt64.ofNat t.attempts
  successes : s.gFusionSuccesses = UInt64.ofNat t.successes

lemma tabulates_init : Tabulates macroOpFusionInit .empty :=
  ⟨fun _ => rfl, fun _ _ => rfl, rfl, rfl, rfl⟩

lemma ofNat_succ (n : Nat) : UInt64.ofNat (n + 1) = UInt64.ofNat n + 1 := UInt64.ofNat_add n 1

variable {s : FusionState} {t : FusionTable} {v : FusionStateV71} {c : FusionCounts}

/-- Recording an operation shows for its address only, and there only if none was recorded before. -/
lemma find?_record (ht : Tabulates s t) (rip1 : UInt64) (args : FuseArgs) (rip : UInt64) :
    (push fusionBufferSize s.gFusionBuffer (args.macroOp rip1)).find? (isFor rip) =
      (t.entry rip).or
        (if t.used < fusionBufferSize ∧ rip1 = rip then some (args.macroOp rip1) else none) := by
  have hfor : isFor rip (args.macroOp rip1) = true ↔ rip1 = rip := by
    rw [isFor, FuseArgs.macroOp, Bool.and_true, decide_eq_true_iff]
  rw [find?_push, ht.find, ht.used]
  simp only [hfor]

/-- Among the operations held the new one is behind the first one for its address. -/
lemma held_tryFuse {args : FuseArgs} (hfusable : args.fusable = true) (rip1 rip : UInt64) :
    (t.tryFuse rip1 args).1.held rip =
      (t.held rip).or (if t.used < fusionBufferSize ∧ rip1 = rip then some args else none) := by
  rw [FusionTable.tryFuse, if_pos hfusable]
  dsimp only
  by_cases hrip : rip1 = rip
  · subst hrip
    cases hheld : t.held rip1 with
    | some first =>
      rw [if_neg fun h => Option.some_ne_none _ h.2, hheld, Option.some_or]
    | none =>
      simp only [and_true]
      split
      · rw [Function.update_self]
        rfl
      · exact hheld
  · rw [if_neg fun h : _ ∧ rip1 = rip => hrip h.2, Option.or_none]
    split
    · rw [Function.update_of_ne (Ne.symm hrip)]
    · rfl

lemma entry_tryFuse (ht : Tabulates s t) {args : FuseArgs} (hfusable : args.fusable = true)
    (rip1 rip : UInt64) : (t.tryFuse rip1 args).1.entry rip =
      (t.entry rip).or
        (if t.used < fusionBufferSize ∧ rip1 = rip then some (args.macroOp rip1) else none) := by
  have hexecutions : (t.tryFuse rip1 args).1.executions = t.executions := by
    rw [FusionTable.tryFuse, if_pos hfusable]
  rw [FusionTable.entry, FusionTable.entry, held_tryFuse hfusable, hexecutions]
  cases hheld : t.held rip with
  | some first => rfl
  | none =>
    rw [ht.unheld rip hheld]
    split
    next hnew =>
      rw [hnew.2]
      rfl
    next => rfl

lemma tryFuse_tabulates (ht : Tabulates s t) (rip1 : UInt64) (args : FuseArgs) :
    (macroOpFusionTryFuse rip1 args s).2 = (t.tryFuse rip1 args).2 ∧
      Tabulates (macroOpFusionTryFuse rip1 args s).1 (t.tryFuse rip1 args).1 := by
  by_cases hfusable : args.fusable = true
  · have hentry := entry_tryFuse ht hfusable rip1
    have hheld := @held_tryFuse t args hfusable rip1
    rw [macroOpFusionTryFuse, if_neg (not_not.mpr hfusable)]
    rw [FusionTable.tryFuse, if_pos hfusable] at hentry hheld ⊢
    refine ⟨rfl, fun rip => ?_, fun rip hrip => ?_, ?_, ?_, ?_⟩
    · rw [find?_record ht, hentry]
    · rw [hheld, Option.or_eq_none_iff] at hrip
      exact ht.unheld rip hrip.1
    · rw [length_push s.buffer_le, ht.used]
    · dsimp only
      rw [ht.attempts, ofNat_succ]
    · dsimp only
      rw [ht.successes, ofNat_succ]
  · rw [macroOpFusionTryFuse, if_pos hfusable, FusionTable.tryFuse, if_neg hfusable]
    refine ⟨rfl, ht.find, ht.unheld, ht.used, ?_, ht.successes⟩
    dsimp only
    rw [ht.attempts, ofNat_succ]

/-- A lookup counts the execution of the entry it finds and changes no other one. -/
lemma lookup_tabulates (ht : Tabulates s t) (rip : UInt64) :
    (macroOpFusionLookup rip s).1 = (t.lookup rip).1 ∧
      Tabulates (macroOpFusionLookup rip s).2 (t.lookup rip).2 := by
  have hfind := ht.find rip
  rw [lookup_fst, hfind, macroOpFusionLookup]
  rw [FusionTable.entry] at hfind ⊢
  rw [FusionTable.lookup]
  cases hheld : t.held rip with
  | none =>
    rw [hheld, Option.map_none, List.find?_eq_map_findFinIdx?_getElem, Option.map_eq_none_iff]
      at hfind
    rw [hfind]
    exact ⟨rfl, ht⟩
  | some args =>
    rw [hheld, Option.map_some] at hfind
    refine ⟨rfl, ?_⟩
    split
    next i hi =>
      have hentry : s.gFusionBuffer.get i =
          { args.macroOp rip with executionCount := UInt32.ofNat (t.executions rip) } :=
        Option.some.inj ((find?_of_findFinIdx? hi).symm.trans hfind)
      have hmop : isFor rip (s.gFusionBuffer.get i) = true :=
        (List.findFinIdx?_eq_some_iff.mp hi).1
      refine ⟨fun rip' => ?_, fun rip' hnone => ?_, ?_, ht.attempts, ht.successes⟩
      · rw [FusionTable.entry]
        dsimp only
        by_cases hrip : rip' = rip
        · subst hrip
          rw [find?_set_self hi (e := (s.gFusionBuffer.get i).executed) hmop, hheld,
            Option.map_some, Function.update_self, hentry, FusedMacroOp.executed, UInt32.ofNat_add]
          rfl
        · have hother : isFor rip' (s.gFusionBuffer.get i) = false := by
            simp only [isFor, Bool.and_eq_true, decide_eq_true_iff] at hmop ⊢
            rw [hmop.1, decide_eq_false (Ne.symm hrip), Bool.false_and]
          rw [find?_set_of_not i.isLt hother (e := (s.gFusionBuffer.get i).executed) hother,
            Function.update_of_ne hrip, ht.find, FusionTable.entry]
      · have hne : rip' ≠ rip := by
          rintro rfl
          rw [hheld] at hnone
          cases hnone
        dsimp only
        rw [Function.update_of_ne hne]
        exact ht.unheld rip' hnone
      · rw [List.length_set]
        exact ht.used
    next hnone =>
      rw [List.find?_eq_map_findFinIdx?_getElem, hnone] at hfind
      cases hfind

/-! ## The v7.1 tables are counted -/

structure Counts (v : FusionStateV71) (c : FusionCounts) : Prop where
  fused : ∀ mop ∈ v.gFusionBufferV71, mop.fused = true
  used : c.used = v.gFusionBufferV71.length
  pairs : v.gFusionPairsV71.length = min c.used maxFusionPairsV71
  attempts : v.gFusionAttemptsV71 = UInt64.ofNat c.attempts
  successes : v.gFusionSuccessesV71 = UInt64.ofNat c.successes
  patterns : v.gV71Tracking.dboPatternsDetected = c.patternsDetected

lemma counts_init : Counts macroOpFusionV71Init .empty :=
  ⟨fun _ h => absurd h List.not_mem_nil, rfl, rfl, rfl, rfl, rfl⟩

lemma v71TryFuse_counts (hc : Counts v c) (rip1 : UInt64) (args : FuseArgs) :
    (macroOpFusionV71TryFuse rip1 args v).2 = (c.tryFuse args).2 ∧
      Counts (macroOpFusionV71TryFuse rip1 args v).1 (c.tryFuse args).1 := by
  by_cases hfusable : args.fusable = true
  · rw [macroOpFusionV71TryFuse, if_neg (not_not.mpr hfusable), FusionCounts.tryFuse,
      if_pos hfusable]
    refine ⟨rfl, fun mop hmop => ?_, ?_, ?_, ?_, ?_, hc.patterns⟩
    · dsimp only [push] at hmop
      split at hmop
      · rcases List.mem_append.mp hmop with hmop | hmop
        · exact hc.fused mop hmop
        · rw [List.mem_singleton.mp hmop]
          rfl
      · exact hc.fused mop hmop
    · rw [length_push v.buffer_le, hc.used]
    · rw [length_push v.pairs_le, hc.pairs]
      simp only [maxFusionPairsV71, fusionBufferSizeV71]
      omega
    · dsimp only
      rw [hc.attempts, ofNat_succ]
    · dsimp only
      rw [hc.successes, ofNat_succ]
  · rw [macroOpFusionV71TryFuse, if_pos hfusable, FusionCounts.tryFuse, if_neg hfusable]
    refine ⟨rfl, hc.fused, hc.used, hc.pairs, ?_, hc.successes, hc.patterns⟩
    dsimp only
    rw [hc.attempts, ofNat_succ]

/-- Over entries that are all fused the scan counts what it looks at: all of them but the last, or as
many as there are instructions. -/
lemma detect_toNat {pairCount : Nat} (hpairs : 0 < pairCount) (instructionCount : UInt32)
    {mops : List FusedMacroOp} (hfused : ∀ mop ∈ mops, mop.fused = true)
    (hlength : mops.length ≤ fusionBufferSizeV71) {scanned detected : UInt32}
    (hscanned : scanned.toNat + mops.length < 2 ^ 32)
    (hdetected : detected.toNat + mops.length < 2 ^ 32) :
    (detect pairCount instructionCount mops scanned detected).toNat =
      detected.toNat + min (mops.length - 1) (instructionCount.toNat - scanned.toNat) := by
  induction mops generalizing scanned detected with
  | nil => simp [detect]
  | cons mop rest ih =>
    cases rest with
    | nil => simp [detect]
    | cons next rest =>
      rw [detect]
      simp only [List.length_cons] at hlength hscanned hdetected ih ⊢
      split
      next hlt =>
        have hs : (scanned + 1).toNat = scanned.toNat + 1 := by
          rw [UInt32.toNat_add, Nat.mod_eq_of_lt (by change scanned.toNat + 1 < _; omega)]
          rfl
        have hd : (detected + 1).toNat = detected.toNat + 1 := by
          rw [UInt32.toNat_add, Nat.mod_eq_of_lt (by change detected.toNat + 1 < _; omega)]
          rfl
        rw [if_pos ⟨hfused mop (List.mem_cons_self ..), hpairs⟩,
          ih (fun m hm => hfused m (List.mem_cons_of_mem _ hm)) (by omega) (by omega) (by omega), hs,
          hd]
        have := UInt32.lt_iff_toNat_lt.mp hlt
        omega
      next hge =>
        have := UInt32.lt_iff_toNat_lt.not.mp hge
        omega

/-- What an analysis detects is one fewer than the operations there are, or the instructions given. -/
lemma detect_counts (hc : Counts v c) (instructionCount : UInt32) :
    (detect v.gFusionPairsV71.length instructionCount v.gFusionBufferV71 0 0).toNat =
      min (c.used - 1) instructionCount.toNat := by
  have hle : v.gFusionBufferV71.length ≤ 1024 := v.buffer_le
  cases hbuffer : v.gFusionBufferV71 with
  | nil =>
    rw [hc.used, hbuffer]
    simp [detect]
  | cons mop rest =>
    rw [← hbuffer]
    have hpos : 0 < v.gFusionPairsV71.length := by
      rw [hc.pairs, hc.used, hbuffer, List.length_cons]
      exact Nat.lt_min.mpr ⟨Nat.succ_pos _, by decide⟩
    rw [detect_toNat hpos instructionCount hc.fused hle (by change 0 + _ < _; omega)
      (by change 0 + _ < _; omega), hc.used]
    simp

lemma dboAnalyze_counts (hc : Counts v c) (regionStartRip : UInt64) (instructionCount : UInt32) :
    (macroOpFusionDboAnalyze regionStartRip instructionCount v).gV71Tracking =
      (c.analyze regionStartRip instructionCount).1 ∧
    Counts (macroOpFusionDboAnalyze regionStartRip instructionCount v)
      (c.analyze regionStartRip instructionCount).2 := by
  have hfound := detect_counts hc instructionCount
  have hops : (detect v.gFusionPairsV71.length instructionCount v.gFusionBufferV71 0 0).toUInt64 =
      UInt64.ofNat (min (c.used - 1) instructionCount.toNat) := by
    rw [← hfound]
    exact UInt64.toNat_inj.mp (by simp)
  have hpatterns : decide (0 < detect v.gFusionPairsV71.length instructionCount
      v.gFusionBufferV71 0 0) = decide (0 < min (c.used - 1) instructionCount.toNat) := by
    rw [← hfound]
    exact decide_eq_decide.mpr UInt32.lt_iff_toNat_lt
  rw [macroOpFusionDboAnalyze, FusionCounts.analyze]
  dsimp only
  rw [hops, hpatterns, hc.successes, hc.attempts, hc.patterns]
  exact ⟨rfl, hc.fused, hc.used, hc.pairs, rfl, rfl, rfl⟩

/-! ## Runs of calls -/

def FusionModule.init : FusionModule := ⟨macroOpFusionInit, macroOpFusionV71Init⟩

def FusionIdeal.init : FusionIdeal := ⟨.empty, .empty⟩

def Refines (m : FusionModule) (t : FusionIdeal) : Prop :=
  Tabulates m.base t.table ∧ Counts m.v71 t.counts

/-- A call is answered as the table answers it. -/
lemma perform_coupled (call : FusionCall) :
    Coupled Refines (Prog.call (·.perform call)) (Prog.call (·.perform call)) := by
  refine .call fun m t ⟨ht, hc⟩ => ?_
  cases call with
  | macroOpFusionInit => exact ⟨rfl, tabulates_init, hc⟩
  | macroOpFusionV71Init => exact ⟨rfl, ht, counts_init⟩
  | macroOpFusionTryFuse rip1 args =>
    obtain ⟨hstatus, htable⟩ := tryFuse_tabulates ht rip1 args
    exact ⟨congrArg _ hstatus, htable, hc⟩
  | macroOpFusionV71TryFuse rip1 args =>
    obtain ⟨hstatus, hcounts⟩ := v71TryFuse_counts hc rip1 args
    exact ⟨congrArg _ hstatus, ht, hcounts⟩
  | macroOpFusionLookup rip =>
    obtain ⟨hresult, htable⟩ := lookup_tabulates ht rip
    exact ⟨congrArg _ hresult, htable, hc⟩
  | macroOpFusionDboAnalyze regionStartRip instructionCount =>
    obtain ⟨htracking, hcounts⟩ := dboAnalyze_counts hc regionStartRip instructionCount
    exact ⟨congrArg _ htracking, ht, hcounts⟩
  | macroOpFusionGetStats =>
    refine ⟨?_, ht, hc⟩
    dsimp only [FusionModule.perform, FusionIdeal.perform]
    rw [ht.attempts, ht.successes, hc.attempts, hc.successes, rateOf, rateOf]

/-- Any run of calls of the module is answered as the table answers it. -/
theorem fusion_refines (calls : List FusionCall) :
    (execAll FusionModule.init (calls.map fun call => Prog.call (·.perform call))).1 =
      (execAll FusionIdeal.init (calls.map fun call => Prog.call (·.perform call))).1 :=
  (Coupled.execAll perform_coupled calls ⟨tabulates_init, counts_init⟩).1

end Bemi.Fusion
