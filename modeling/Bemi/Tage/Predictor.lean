import Mathlib.Data.List.FinRange
import Mathlib.Logic.Function.Basic
import Bemi.Efi

/-!
# TAGE branch predictor

Model of `performance/tage/tagepredictor.c`: four tables of 4096 tagged directions, each with a
3-bit usefulness counter, and a direct-mapped branch target buffer. Tables are looked up from the
last one down; a new entry goes to the first table that has room for it.
-/

namespace Bemi.Tage

abbrev tageTableCount : Nat := 4
abbrev tageEntriesPerTable : Nat := 4096
abbrev btbEntries : Nat := 8192

abbrev Table := Fin tageTableCount

structure TageEntry where
  tag : UInt64
  useful : BitVec 3
  taken : Bool
  valid : Bool

structure BtbEntry where
  targetRip : UInt64
  targetAddress : UInt64
  tag : UInt64
  valid : Bool

/-- The globals. -/
structure TagePredictor where
  gTageTables : Table → Fin tageEntriesPerTable → TageEntry
  gBtb : Fin btbEntries → BtbEntry
  gTagePredictions : UInt64
  gTageCorrect : UInt64
  gTageMispredictions : UInt64

def tagePredictorInit : TagePredictor where
  gTageTables := fun _ _ => ⟨0, 0, false, false⟩
  gBtb := fun _ => ⟨0, 0, 0, false⟩
  gTagePredictions := 0
  gTageCorrect := 0
  gTageMispredictions := 0

def tageIndex (rip : UInt64) (table : Table) : Fin tageEntriesPerTable :=
  ⟨((rip >>> UInt64.ofNat (table * 4 + 2)) &&& 4095).toNat, Nat.lt_succ_of_le
    (by rw [UInt64.toNat_and]; exact Nat.and_le_right)⟩

def tageTag (rip : UInt64) (table : Table) : UInt64 :=
  (rip >>> UInt64.ofNat (table * 4 + 6)) ^^^ (rip &&& 4095)

/-- `Rip & (BTB_ENTRIES - 1)` -/
def btbIndex (rip : UInt64) : Fin btbEntries :=
  ⟨(rip &&& 8191).toNat, Nat.lt_succ_of_le
    (by rw [UInt64.toNat_and]; exact Nat.and_le_right)⟩

namespace TagePredictor

/-- `&gTageTables[t][TageIndex(Rip, t)]` -/
def entry (p : TagePredictor) (rip : UInt64) (t : Table) : TageEntry :=
  p.gTageTables t (tageIndex rip t)

def setEntry (p : TagePredictor) (rip : UInt64) (t : Table) (e : TageEntry) : TagePredictor :=
  { p with
    gTageTables := Function.update p.gTageTables t
      (Function.update (p.gTageTables t) (tageIndex rip t) e) }

lemma gTageTables_setEntry (p : TagePredictor) (rip : UInt64) (t t' : Table) (e : TageEntry)
    (i : Fin tageEntriesPerTable) : (p.setEntry rip t e).gTageTables t' i =
      if t' = t ∧ i = tageIndex rip t then e else p.gTageTables t' i := by
  rw [setEntry]
  dsimp only
  by_cases ht : t' = t
  · rw [ht, Function.update_self, Function.update_apply]
    simp
  · rw [Function.update_of_ne ht, if_neg fun h => ht h.1]

@[simp] lemma entry_setEntry_self (p : TagePredictor) (rip : UInt64) (t : Table) (e : TageEntry) :
    (p.setEntry rip t e).entry rip t = e :=
  (gTageTables_setEntry ..).trans (if_pos ⟨rfl, rfl⟩)

@[simp] lemma entry_setEntry_of_ne (p : TagePredictor) (rip : UInt64) {t t' : Table} (e : TageEntry)
    (h : t' ≠ t) : (p.setEntry rip t e).entry rip t' = p.entry rip t' :=
  (gTageTables_setEntry ..).trans (if_neg fun heq => h heq.1)

/-- `entry->Valid && entry->Tag == tag` -/
def hits (p : TagePredictor) (rip : UInt64) (t : Table) : Bool :=
  (p.entry rip t).valid && (p.entry rip t).tag == tageTag rip t

/-- The table found by the lookups, from the last one down. -/
def predictingTable (p : TagePredictor) (rip : UInt64) : Option Table :=
  [3, 2, 1, 0].find? (p.hits rip)

/-- `gBtb[btbIdx].Valid && gBtb[btbIdx].TargetRip == Rip` -/
def btbHits (p : TagePredictor) (rip : UInt64) : Bool :=
  (p.gBtb (btbIndex rip)).valid && (p.gBtb (btbIndex rip)).targetRip == rip

def btbTarget (p : TagePredictor) (rip : UInt64) : UInt64 :=
  if p.btbHits rip then (p.gBtb (btbIndex rip)).targetAddress else rip + 4

def writeBtb (p : TagePredictor) (rip target : UInt64) : TagePredictor :=
  { p with
    gBtb := Function.update p.gBtb (btbIndex rip)
      { targetRip := rip, targetAddress := target, tag := rip >>> 12, valid := true } }

end TagePredictor

/-- `target` is what `Target` points to, or `none` for `NULL`. -/
def tagePredict (p : TagePredictor) (rip : UInt64) (target : Option UInt64) :
    Bool × Option UInt64 :=
  match p.predictingTable rip with
  | some t => ((p.entry rip t).taken, target.map fun _ => p.btbTarget rip)
  | none => if p.btbHits rip then (true, target.map fun _ => (p.gBtb (btbIndex rip)).targetAddress)
    else (false, target.map fun _ => rip + 4)

/-- What the outcome of a branch does to the entry that predicted it. -/
def TageEntry.train (e : TageEntry) (taken : Bool) : TageEntry :=
  if e.taken = taken then
    if e.useful < 7 then { e with useful := e.useful + 1 } else e
  else
    if e.useful > 0 then { e with useful := e.useful - 1 } else { e with taken := taken }

namespace TagePredictor

/-- The update of the predicting table. -/
def train (p : TagePredictor) (rip : UInt64) (t : Table) (taken : Bool) : TagePredictor :=
  let entry := p.entry rip t
  let p := p.setEntry rip t (entry.train taken)
  if entry.taken = taken then { p with gTageCorrect := p.gTageCorrect + 1 }
  else { p with gTageMispredictions := p.gTageMispredictions + 1 }

/-- The first table with room for a new entry. -/
def freeTable (p : TagePredictor) (rip : UInt64) : Option Table :=
  [0, 1, 2, 3].find? fun t => !(p.entry rip t).valid || (p.entry rip t).useful == 0

/-- Allocate a new entry, if there is room for one. -/
def allocate (p : TagePredictor) (rip : UInt64) (taken : Bool) : TagePredictor :=
  match p.freeTable rip with
  | some t => p.setEntry rip t { tag := tageTag rip t, valid := true, taken := taken, useful := 0 }
  | none => p

end TagePredictor

def tageUpdate (p : TagePredictor) (rip : UInt64) (taken : Bool) (target : UInt64) :
    TagePredictor :=
  let p := { p with gTagePredictions := p.gTagePredictions + 1 }
  let p := match p.predictingTable rip with
    | some t => p.train rip t taken
    | none => p.allocate rip taken
  p.writeBtb rip target

/-- `KernelBase + i * 16`, the product in 32 bits. -/
def branchRip (kernelBase : UInt64) (i : Nat) : UInt64 :=
  kernelBase + (UInt32.ofNat i * 16).toUInt64

/-- The body of the loop over the branches. -/
def prefillBranch (p : TagePredictor) (branchRip target : UInt64) : TagePredictor :=
  let p := [0, 1, 2, 3].foldl (fun (p : TagePredictor) t => p.setEntry branchRip t
    { tag := tageTag branchRip t, valid := true, taken := target > branchRip, useful := 2 }) p
  p.writeBtb branchRip target

/-- `branchTargets` is the array that `BranchTargets` points to; `KernelSize` is not used. -/
def tagePrefillKernel (p : TagePredictor) (kernelBase : UInt64) (branchTargets : Nat → UInt64)
    (branchCount : UInt32) : TagePredictor :=
  (List.range branchCount.toNat).foldl
    (fun p i => prefillBranch p (branchRip kernelBase i) (branchTargets i)) p

/-! ## Runs -/

inductive Call where
  | update (rip : UInt64) (taken : Bool) (target : UInt64)
  | prefillKernel (kernelBase : UInt64) (branchTargets : Nat → UInt64) (branchCount : UInt32)

def TagePredictor.after (p : TagePredictor) : Call → TagePredictor
  | .update rip taken target => tageUpdate p rip taken target
  | .prefillKernel kernelBase branchTargets branchCount =>
    tagePrefillKernel p kernelBase branchTargets branchCount

/-- The states after `TagePredictorInit` and calls. -/
def reached (calls : List Call) : TagePredictor :=
  calls.foldl TagePredictor.after tagePredictorInit

end Bemi.Tage
