import Bemi.Lib.Bits
import Bemi.Lib.Since
import Bemi.Tage.Learning

/-!
# Predicted targets

The branch target buffer is direct-mapped and keeps whole addresses: a slot holds the last branch
recorded there. So the target of a prediction is the one recorded last for the branch, or the
address behind it if there is none or another branch took the slot since, whatever the tables say.
-/

namespace Bemi.Tage
open History TagePredictor

/-- A branch as an update or the prefilling records it. -/
structure Record where
  rip : UInt64
  target : UInt64

def Call.records : Call → List Record
  | .update rip _ target => [⟨rip, target⟩]
  | .prefillKernel kernelBase branchTargets branchCount =>
    (List.range branchCount.toNat).map fun i => ⟨branchRip kernelBase i, branchTargets i⟩

def records (calls : List Call) : List Record :=
  calls.flatMap Call.records

/-- `target` is the target recorded last for `rip`, and no other branch congruent to it modulo 8192
was recorded since. -/
def LastRecorded (rip target : UInt64) : List Record → Prop :=
  Since (fun r => r.rip = rip ∧ r.target = target) fun r =>
    r.rip.toNat % btbEntries = rip.toNat % btbEntries

abbrev Btb := Fin btbEntries → BtbEntry

def Btb.record (btb : Btb) (r : Record) : Btb :=
  Function.update btb (btbIndex r.rip)
    { targetRip := r.rip, targetAddress := r.target, tag := r.rip >>> 12, valid := true }

/-- The slot of a branch holds a target for it. -/
def Btb.Holds (btb : Btb) (rip target : UInt64) : Prop :=
  (btb (btbIndex rip)).valid = true ∧ (btb (btbIndex rip)).targetRip = rip ∧
    (btb (btbIndex rip)).targetAddress = target

lemma btbIndex_eq_iff {a b : UInt64} :
    btbIndex a = btbIndex b ↔ a.toNat % btbEntries = b.toNat % btbEntries := by
  have hval (a : UInt64) : (btbIndex a).val = a.toNat % btbEntries :=
    Bits.toNat_and_mask (k := 13) a rfl
  rw [Fin.ext_iff, hval, hval]

/-! ## What the calls record -/

lemma train_gBtb (p : TagePredictor) (rip : UInt64) (t : Table) (taken : Bool) :
    (p.train rip t taken).gBtb = p.gBtb := by
  rw [train]
  split <;> rfl

lemma allocate_gBtb (p : TagePredictor) (rip : UInt64) (taken : Bool) :
    (p.allocate rip taken).gBtb = p.gBtb := by
  rw [allocate]
  split <;> rfl

lemma writeBtb_gBtb (p : TagePredictor) (rip target : UInt64) :
    (p.writeBtb rip target).gBtb = Btb.record p.gBtb ⟨rip, target⟩ := rfl

lemma gBtb_update (p : TagePredictor) (rip : UInt64) (taken : Bool) (target : UInt64) :
    (tageUpdate p rip taken target).gBtb = Btb.record p.gBtb ⟨rip, target⟩ := by
  rw [tageUpdate, writeBtb_gBtb]
  split
  · rw [train_gBtb]
  · rw [allocate_gBtb]

lemma gBtb_prefillBranch (p : TagePredictor) (rip target : UInt64) :
    (prefillBranch p rip target).gBtb = Btb.record p.gBtb ⟨rip, target⟩ := rfl

lemma gBtb_after (p : TagePredictor) (call : Call) :
    (p.after call).gBtb = call.records.foldl Btb.record p.gBtb := by
  cases call with
  | update rip taken target => exact gBtb_update p rip taken target
  | prefillKernel kernelBase branchTargets branchCount =>
    rw [Call.records, List.foldl_map]
    exact (List.foldl_hom TagePredictor.gBtb fun p i => gBtb_prefillBranch ..).symm

lemma gBtb_reached (calls : List Call) :
    (reached calls).gBtb = (records calls).foldl Btb.record tagePredictorInit.gBtb := by
  rw [records, List.foldl_flatMap, reached]
  exact (List.foldl_hom TagePredictor.gBtb fun p call => (gBtb_after p call).symm).symm

/-! ## What the slots hold -/

/-- A record is held by its slot, and takes it from the branch that had it. -/
lemma holds_record (btb : Btb) (r : Record) (rip target : UInt64) :
    (btb.record r).Holds rip target ↔ (r.rip = rip ∧ r.target = target) ∨
      btb.Holds rip target ∧ ¬ r.rip.toNat % btbEntries = rip.toNat % btbEntries := by
  rw [← btbIndex_eq_iff, Btb.Holds, Btb.record]
  by_cases hslot : btbIndex r.rip = btbIndex rip
  · rw [← hslot, Function.update_self]
    simp
  · have hne : r.rip ≠ rip := fun heq => hslot (congrArg btbIndex heq)
    rw [Function.update_of_ne (Ne.symm hslot)]
    simp [hne, hslot, Btb.Holds]

lemma holds_iff (calls : List Call) (rip target : UInt64) :
    Btb.Holds (reached calls).gBtb rip target ↔ LastRecorded rip target (records calls) := by
  rw [gBtb_reached]
  refine foldl_iff_since (I := fun _ => True) (R := fun btb : Btb => btb.Holds rip target) trivial ?_
    (fun _ _ _ => trivial) (fun btb r _ => holds_record btb r rip target) _
  exact fun h => Bool.false_ne_true h.1

/-- The target that a prediction reports. -/
lemma predict_target (p : TagePredictor) (rip out : UInt64) :
    (∀ target, Btb.Holds p.gBtb rip target → (tagePredict p rip (some out)).2 = some target) ∧
      ((∀ target, ¬ Btb.Holds p.gBtb rip target) →
        (tagePredict p rip (some out)).2 = some (rip + 4)) := by
  have hreport : (tagePredict p rip (some out)).2 = some (p.btbTarget rip) := by
    rw [tagePredict, btbTarget]
    split
    · rfl
    · split <;> rfl
  rw [hreport, btbTarget, btbHits]
  constructor
  · rintro target ⟨hvalid, hrip, htarget⟩
    rw [hvalid, hrip, htarget]
    simp
  · intro hnone
    rw [if_neg]
    intro hhit
    rw [Bool.and_eq_true, beq_iff_eq] at hhit
    exact hnone _ ⟨hhit.1, hhit.2, rfl⟩

/-- The target of a prediction is the one recorded last for the branch if no other branch congruent
to it modulo 8192 was recorded since, and the address 4 behind the branch in every other case. -/
theorem target_lastRecorded (calls : List Call) (rip out : UInt64) :
    (∀ target, LastRecorded rip target (records calls) →
      (tagePredict (reached calls) rip (some out)).2 = some target) ∧
        ((∀ target, ¬ LastRecorded rip target (records calls)) →
          (tagePredict (reached calls) rip (some out)).2 = some (rip + 4)) := by
  simp only [← holds_iff]
  exact predict_target ..

end Bemi.Tage
