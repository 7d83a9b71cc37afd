import Bemi.Efi
import Bemi.Lib.Filling
import Bemi.Lib.Lookup
import Bemi.Lib.RegisterFile

/-!
# Macro-op fusion

Model of `performance/fusion/macroopfusion.c`: which pairs of instructions are fused, and the pairs and
the fused operations that `MacroOpFusionTryFuse` records. Both arrays are lists of the entries in use.
A call succeeds whether the operation was recorded or not, and `MacroOpFusionLookup` returns the first
one recorded for an address; `lookup_last_iff` says for which runs that is the last one asked for.
-/

namespace Bemi.Fusion
open Filling Lookup RegisterFile Transition

abbrev maxFusionPairs : Nat := 32

abbrev fusionBufferSize : Nat := 512

inductive FusionType where
  | cmpJcc | testJcc | decJcc | addLea | movCmp | none
  deriving DecidableEq, Repr

structure FusionPair where
  rip : UInt64
  opcode1 : UInt8
  opcode2 : UInt8
  opcode3 : UInt8
  length : UInt8
  type : FusionType
  fused : Bool

structure FusedMacroOp where
  rip : UInt64
  targetRip : UInt64
  condition : UInt8
  comparisonType : UInt8
  comparisonValue : UInt64
  executionCount : UInt32
  fused : Bool

structure FusionState where
  gFusionPairs : List FusionPair
  gFusionBuffer : List FusedMacroOp
  gFusionAttempts : UInt64
  gFusionSuccesses : UInt64
  pairs_le : gFusionPairs.length ≤ maxFusionPairs
  buffer_le : gFusionBuffer.length ≤ fusionBufferSize

def macroOpFusionInit : FusionState := ⟨[], [], 0, 0, Nat.zero_le _, Nat.zero_le _⟩

/-! ## Which instructions are fused -/

def isJcc (opcode opcodeExtra : UInt8) : Bool :=
  0x70 ≤ opcode && opcode ≤ 0x7F || opcode = 0x0F && 0x80 ≤ opcodeExtra && opcodeExtra ≤ 0x8F

/-- An opcode that the source takes for a comparison. -/
def isCmp (opcode : UInt8) : Bool :=
  0x38 ≤ opcode && opcode ≤ 0x3D || 0x80 ≤ opcode && opcode ≤ 0x83

def isTest (opcode : UInt8) : Bool :=
  opcode = 0x84 || opcode = 0x85 || opcode = 0xA8 || opcode = 0xA9 || opcode = 0xF6 ||
    opcode = 0xF7

def isDec (opcode : UInt8) : Bool := opcode = 0xFE || opcode = 0xFF

def isAdd (opcode : UInt8) : Bool := opcode ≤ 0x05 || 0x80 ≤ opcode && opcode ≤ 0x83

def isMov (opcode : UInt8) : Bool :=
  0x88 ≤ opcode && opcode ≤ 0x8B || opcode = 0xC6 || opcode = 0xC7

def macroOpFusionIsFusable (opcode1 opcode2 opcode2Extra : UInt8) : Bool :=
  isJcc opcode2 opcode2Extra && (isCmp opcode1 || isTest opcode1 || isDec opcode1) ||
    opcode1 = 0x8D && isAdd opcode2 || isMov opcode1 && isCmp opcode2

def macroOpFusionGetType (opcode1 opcode2 opcode2Extra : UInt8) : FusionType :=
  if isJcc opcode2 opcode2Extra ∧ isCmp opcode1 then .cmpJcc
  else if isJcc opcode2 opcode2Extra ∧ isTest opcode1 then .testJcc
  else if isJcc opcode2 opcode2Extra ∧ isDec opcode1 then .decJcc
  else if opcode1 = 0x8D ∧ isAdd opcode2 then .addLea
  else if isMov opcode1 ∧ isCmp opcode2 then .movCmp
  else .none

/-- A pair that is fused has a type. -/
lemma getType_iff (opcode1 opcode2 opcode2Extra : UInt8) :
    macroOpFusionGetType opcode1 opcode2 opcode2Extra ≠ .none ↔
      macroOpFusionIsFusable opcode1 opcode2 opcode2Extra = true := by
  rw [macroOpFusionGetType, macroOpFusionIsFusable]
  split_ifs <;> simp_all

/-! ## Fusing and looking up -/

/-- The arguments of `MacroOpFusionTryFuse` after `Rip1`. -/
structure FuseArgs where
  opcode1 : UInt8
  length1 : UInt8
  rip2 : UInt64
  opcode2 : UInt8
  opcode2Extra : UInt8
  length2 : UInt8

def FuseArgs.targetRip (args : FuseArgs) : UInt64 := args.rip2 + args.length2.toUInt64

def FuseArgs.fusable (args : FuseArgs) : Bool :=
  macroOpFusionIsFusable args.opcode1 args.opcode2 args.opcode2Extra

def FuseArgs.pair (rip1 : UInt64) (args : FuseArgs) : FusionPair where
  rip := rip1
  opcode1 := args.opcode1
  opcode2 := args.opcode2
  opcode3 := args.opcode2Extra
  length := args.length1 + args.length2
  type := macroOpFusionGetType args.opcode1 args.opcode2 args.opcode2Extra
  fused := true

/-- The entry of the buffer, whose other fields are zero since `MacroOpFusionInit`. -/
def FuseArgs.macroOp (rip1 : UInt64) (args : FuseArgs) : FusedMacroOp where
  rip := rip1
  targetRip := args.targetRip
  condition := 0
  comparisonType := args.opcode1
  comparisonValue := 0
  executionCount := 0
  fused := true

def macroOpFusionTryFuse (rip1 : UInt64) (args : FuseArgs) (s : FusionState) :
    FusionState × EfiStatus :=
  let s := { s with gFusionAttempts := s.gFusionAttempts + 1 }
  if ¬ args.fusable then (s, .unsupported)
  else
    ({ gFusionPairs := push maxFusionPairs s.gFusionPairs (args.pair rip1)
       gFusionBuffer := push fusionBufferSize s.gFusionBuffer (args.macroOp rip1)
       gFusionAttempts := s.gFusionAttempts
       gFusionSuccesses := s.gFusionSuccesses + 1
       pairs_le := length_push_le s.pairs_le _
       buffer_le := length_push_le s.buffer_le _ },
      .success)

/-- The test in `MacroOpFusionLookup`. -/
def isFor (rip : UInt64) (mop : FusedMacroOp) : Bool := mop.rip = rip && mop.fused

def FusedMacroOp.executed (mop : FusedMacroOp) : FusedMacroOp :=
  { mop with executionCount := mop.executionCount + 1 }

/-- The result, if any, and the state with its execution counted. -/
def macroOpFusionLookup (rip : UInt64) (s : FusionState) : Option FusedMacroOp × FusionState :=
  match s.gFusionBuffer.findFinIdx? (isFor rip) with
  | some i =>
    (some (s.gFusionBuffer.get i),
      { s with
        gFusionBuffer := s.gFusionBuffer.set i (s.gFusionBuffer.get i).executed
        buffer_le := Nat.le_trans (Nat.le_of_eq List.length_set) s.buffer_le })
  | none => (none, s)

/-- The lookup for an address gives the target and the first opcode of a call. -/
def Found (s : FusionState) (rip : UInt64) (args : FuseArgs) : Prop :=
  ∃ mop, (macroOpFusionLookup rip s).1 = some mop ∧ mop.targetRip = args.targetRip ∧
    mop.comparisonType = args.opcode1

lemma lookup_fst (rip : UInt64) (s : FusionState) :
    (macroOpFusionLookup rip s).1 = s.gFusionBuffer.find? (isFor rip) := by
  rw [macroOpFusionLookup]
  split
  · rename_i i hi
    exact (find?_of_findFinIdx? hi).symm
  · rename_i hnone
    rw [List.find?_eq_map_findFinIdx?_getElem, hnone, Option.map_none]

/-- Counting an execution leaves what is found for any address. -/
lemma found_lookup (rip : UInt64) (s : FusionState) (rip' : UInt64) (args : FuseArgs) :
    Found (macroOpFusionLookup rip s).2 rip' args ↔ Found s rip' args := by
  rw [Found, Found, lookup_fst, lookup_fst, macroOpFusionLookup]
  split
  · rename_i i hi
    dsimp only
    have hmop : isFor rip (s.gFusionBuffer.get i) = true :=
      (List.findFinIdx?_eq_some_iff.mp hi).1
    by_cases hrip : rip' = rip
    · subst hrip
      rw [find?_set_self hi (e := (s.gFusionBuffer.get i).executed) hmop, find?_of_findFinIdx? hi]
      constructor
      · rintro ⟨mop, hfound, htarget⟩
        cases hfound
        exact ⟨_, rfl, htarget⟩
      · rintro ⟨mop, hfound, htarget⟩
        cases hfound
        exact ⟨_, rfl, htarget⟩
    · have hother : isFor rip' (s.gFusionBuffer.get i) = false := by
        simp only [isFor, Bool.and_eq_true, decide_eq_true_iff] at hmop ⊢
        rw [hmop.1, decide_eq_false (Ne.symm hrip), Bool.false_and]
      rw [find?_set_of_not i.isLt hother (e := (s.gFusionBuffer.get i).executed) hother]
  · rfl

/-! ## Runs of `MacroOpFusionTryFuse` -/

/-- The arguments of a call, `Rip1` first. -/
abbrev FuseCall := UInt64 × FuseArgs

abbrev FuseEvent := Event FusionState FuseCall EfiStatus

def FuseStep (s : FusionState) (call : FuseCall) (status : EfiStatus) (s' : FusionState) : Prop :=
  macroOpFusionTryFuse call.1 call.2 s = (s', status)

def fused (status : EfiStatus) : Bool := status = .success

/-- The calls with a pair of instructions that is fused. -/
def fusableCalls (calls : List FuseCall) : List FuseCall := calls.filter (·.2.fusable)

/-- The first fusable call for an address that was made while the buffer had room. -/
def firstBuffered (calls : List FuseCall) (rip : UInt64) : Option FuseArgs :=
  (((fusableCalls calls).take fusionBufferSize).find? (·.1 = rip)).map (·.2)

def lastFusable (calls : List FuseCall) (rip : UInt64) : Option FuseArgs :=
  ((fusableCalls calls).reverse.find? (·.1 = rip)).map (·.2)

/-- The last fusable call for an address asks for what the first one asked for while there was
room. -/
def LastAsFirst (calls : List FuseCall) (rip : UInt64) : Prop :=
  ∀ last, lastFusable calls rip = some last →
    ∃ first, firstBuffered calls rip = some first ∧ first.targetRip = last.targetRip ∧
      first.opcode1 = last.opcode1

variable {tr : List FuseEvent} {s : FusionState}

/-- What a call returns and what it adds to the buffer. -/
lemma tryFuse_step {call : FuseCall} {status : EfiStatus} {s' : FusionState}
    (step : FuseStep s call status s') :
    fused status = call.2.fusable ∧ s'.gFusionBuffer =
      if call.2.fusable then push fusionBufferSize s.gFusionBuffer (call.2.macroOp call.1)
      else s.gFusionBuffer := by
  rw [FuseStep, macroOpFusionTryFuse] at step
  split at step
  · rename_i hnot
    obtain ⟨rfl, rfl⟩ := Prod.mk.inj step
    rw [if_neg hnot]
    exact ⟨(Bool.eq_false_iff.mpr hnot).symm, rfl⟩
  · rename_i hfusable
    obtain ⟨rfl, rfl⟩ := Prod.mk.inj step
    rw [if_pos (not_not.mp hfusable)]
    exact ⟨(not_not.mp hfusable).symm, rfl⟩

lemma fusableCalls_concat (calls : List FuseCall) (call : FuseCall) :
    fusableCalls (calls ++ [call]) =
      if call.2.fusable then fusableCalls calls ++ [call] else fusableCalls calls := by
  rw [fusableCalls, fusableCalls, List.filter_append, List.filter_singleton]
  cases call.2.fusable with
  | true => rfl
  | false => exact List.append_nil _

lemma lastFusable_concat (calls : List FuseCall) (call : FuseCall) (rip : UInt64) :
    lastFusable (calls ++ [call]) rip =
      if call.1 = rip ∧ call.2.fusable then some call.2 else lastFusable calls rip := by
  rw [lastFusable, fusableCalls_concat, lastFusable]
  by_cases hfusable : call.2.fusable = true
  · rw [if_pos hfusable, List.reverse_append, List.reverse_singleton, List.singleton_append,
      List.find?_cons]
    by_cases hrip : call.1 = rip
    · rw [if_pos ⟨hrip, hfusable⟩, decide_eq_true hrip, Option.map_some]
    · rw [if_neg fun h => hrip h.1, decide_eq_false hrip]
  · rw [if_neg hfusable, if_neg fun h => hfusable h.2]

/-- The buffer holds the first fusable calls, as many as there is room for. -/
lemma gFusionBuffer_run (run : Run FuseStep macroOpFusionInit tr s) : s.gFusionBuffer =
    ((fusableCalls (tr.map (·.op))).map fun call => call.2.macroOp call.1).take
      fusionBufferSize := by
  refine run.history (I := fun tr s => s.gFusionBuffer =
    ((fusableCalls (tr.map (·.op))).map fun call => call.2.macroOp call.1).take
      fusionBufferSize) rfl ?_
  intro tr s call status s' ih step
  rw [(tryFuse_step step).2, List.map_append, List.map_singleton, fusableCalls_concat]
  split
  · rw [ih, push_take, List.map_append, List.map_singleton]
  · exact ih

/-- The last call for an address that succeeded is the last one with a fusable pair. -/
lemma lastWritten_fused (run : Run FuseStep macroOpFusionInit tr s) (rip : UInt64) :
    lastWritten fused tr rip = lastFusable (tr.map (·.op)) rip := by
  refine run.history (I := fun tr _ =>
    lastWritten fused tr rip = lastFusable (tr.map (·.op)) rip) rfl ?_
  intro tr s call status s' ih step
  rw [lastWritten_concat, (tryFuse_step step).1, ih, List.map_append, List.map_singleton,
    lastFusable_concat]

/-- A lookup gives the first call for the address that found room in the buffer. -/
lemma lookup_run (run : Run FuseStep macroOpFusionInit tr s) (rip : UInt64) :
    (macroOpFusionLookup rip s).1 =
      (firstBuffered (tr.map (·.op)) rip).map (FuseArgs.macroOp rip) := by
  have htest : (isFor rip ∘ fun call : FuseCall => call.2.macroOp call.1) =
      fun call => decide (call.1 = rip) := funext fun call => Bool.and_true _
  rw [lookup_fst, gFusionBuffer_run run, ← List.map_take, List.find?_map, htest, firstBuffered,
    Option.map_map]
  cases hfound : ((fusableCalls (tr.map (·.op))).take fusionBufferSize).find? (·.1 = rip) with
  | none => rfl
  | some call =>
    have hrip : call.1 = rip := by simpa using List.find?_some hfound
    rw [Option.map_some, Option.map_some, hrip]
    rfl

lemma found_run (run : Run FuseStep macroOpFusionInit tr s) (rip : UInt64) (args : FuseArgs) :
    Found s rip args ↔ ∃ first, firstBuffered (tr.map (·.op)) rip = some first ∧
      first.targetRip = args.targetRip ∧ first.opcode1 = args.opcode1 := by
  rw [Found, lookup_run run]
  constructor
  · rintro ⟨mop, hmop, htarget, htype⟩
    obtain ⟨first, hfirst, rfl⟩ := Option.map_eq_some_iff.mp hmop
    exact ⟨first, hfirst, htarget, htype⟩
  · rintro ⟨first, hfirst, htarget, htype⟩
    exact ⟨first.macroOp rip, by rw [hfirst, Option.map_some], htarget, htype⟩

/-- After a run the lookup for an address gives the last call for it that succeeded exactly when that
call asks for what the first one asked for, and the first one found room in the buffer. -/
theorem lookup_last_iff (run : Run FuseStep macroOpFusionInit tr s) (rip : UInt64) :
    (∀ last, lastWritten fused tr rip = some last → Found s rip last) ↔
      LastAsFirst (tr.map (·.op)) rip := by
  rw [LastAsFirst, ← lastWritten_fused run]
  exact forall₂_congr fun last _ => found_run run rip last

/-- `cmp` at `0x1000` and the jump behind it. -/
def cmpJcc : FuseArgs := ⟨0x39, 2, 0x1002, 0x74, 0, 2⟩

/-- `test` at the same address and a jump one byte further on. -/
def testJcc : FuseArgs := ⟨0x84, 3, 0x1003, 0x74, 0, 2⟩

def afterCmp : FusionState := (macroOpFusionTryFuse 0x1000 cmpJcc macroOpFusionInit).1

def afterTest : FusionState := (macroOpFusionTryFuse 0x1000 testJcc afterCmp).1

def cmpEvent : FuseEvent := ⟨macroOpFusionInit, (0x1000, cmpJcc), .success⟩

def testEvent : FuseEvent := ⟨afterCmp, (0x1000, testJcc), .success⟩

lemma cmpRun : Run FuseStep macroOpFusionInit [cmpEvent] afterCmp := .snoc .nil rfl

lemma testRun : Run FuseStep macroOpFusionInit [cmpEvent, testEvent] afterTest :=
  .snoc cmpRun rfl

/-- One call and the lookup. -/
theorem lookup_cmp : Found afterCmp 0x1000 cmpJcc := by
  refine (lookup_last_iff cmpRun 0x1000).mpr (fun last hlast => ?_) cmpJcc rfl
  cases hlast
  exact ⟨_, rfl, rfl, rfl⟩

/-- The lookup still gives the comparison and its target after the code at the address was changed and
fused again. -/
theorem lookup_after_test : lastWritten fused [cmpEvent, testEvent] 0x1000 = some testJcc ∧
    Run FuseStep macroOpFusionInit [cmpEvent, testEvent] afterTest ∧
    ¬ Found afterTest 0x1000 testJcc := by
  refine ⟨rfl, testRun, ?_⟩
  rintro ⟨mop, hmop, htarget, -⟩
  cases hmop
  revert htarget
  decide

end Bemi.Fusion
