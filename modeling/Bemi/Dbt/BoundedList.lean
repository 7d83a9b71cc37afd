import Bemi.Dbt.Ir

/-!
# The translation block as a bounded list

The operations of `TranslationBlock` in `dbt/ir.rs` once more, on the bare fields: nothing bounds the
count, which is a `u32`, and every access to the array checks its index as Rust does. A call whose index
is not below 256 panics, which is `none`. `TranslationBlock.toRaw` forgets the bound, and the total
operations are what the checked ones compute.
-/

namespace Bemi.Dbt

/-- The fields of the source. -/
structure RawBlock where
  guestIp : UInt64
  guestSize : UInt32
  instructionCount : UInt32
  microOpCount : UInt32
  microOps : Vector MicroOpInst maxMicroOpsPerBlock
  translationValid : Bool

/-! ## Checked accesses -/

/-- `micro_ops[i]` -/
def readAt (ops : Vector MicroOpInst maxMicroOpsPerBlock) (i : Nat) : Option MicroOpInst :=
  if h : i < maxMicroOpsPerBlock then some ops[i] else none

/-- `micro_ops[i] = inst` -/
def writeAt (ops : Vector MicroOpInst maxMicroOpsPerBlock) (i : Nat) (inst : MicroOpInst) :
    Option (Vector MicroOpInst maxMicroOpsPerBlock) :=
  if h : i < maxMicroOpsPerBlock then some (ops.set i inst) else none

namespace RawBlock

def new (guestIp : UInt64) : RawBlock where
  guestIp := guestIp
  guestSize := 0
  instructionCount := 0
  microOpCount := 0
  microOps := Vector.replicate maxMicroOpsPerBlock (MicroOpInst.new .nop .rNone .rNone .rNone 0)
  translationValid := true

def push (self : RawBlock) (inst : MicroOpInst) : Option (RawBlock × Bool) :=
  let idx := self.microOpCount.toNat
  if idx < maxMicroOpsPerBlock then do
    let microOps ← writeAt self.microOps idx inst
    some ({ self with microOps, microOpCount := self.microOpCount + 1 }, true)
  else some (self, false)

def get (self : RawBlock) (index : Nat) : Option (Option MicroOpInst) :=
  if index < self.microOpCount.toNat then do
    let inst ← readAt self.microOps index
    some (some inst)
  else some none

/-- `micro_ops[j] = micro_ops[j + 1]` -/
def shiftOne (ops : Vector MicroOpInst maxMicroOpsPerBlock) (j : Nat) :
    Option (Vector MicroOpInst maxMicroOpsPerBlock) := do
  let next ← readAt ops (j + 1)
  writeAt ops j next

def remove (self : RawBlock) (index : Nat) : Option RawBlock :=
  let count := self.microOpCount.toNat
  if index < count then do
    let microOps ← (List.range' index (count - 1 - index)).foldlM shiftOne self.microOps
    some { self with microOps, microOpCount := self.microOpCount - 1 }
  else some self

/-- The active prefix, `micro_ops[0..micro_op_count]`. -/
def active (self : RawBlock) : List MicroOpInst :=
  self.microOps.toList.take self.microOpCount.toNat

end RawBlock

/-! ## Sequences of calls -/

inductive BlockCall where
  | push (inst : MicroOpInst)
  | remove (index : Nat)

/-- One call, with what `push` answers. -/
def RawBlock.call (self : RawBlock) : BlockCall → Option (RawBlock × Option Bool)
  | .push inst => do
    let (self, fits) ← self.push inst
    some (self, some fits)
  | .remove index => do
    let self ← self.remove index
    some (self, none)

/-- The list of at most 256 micro-ops that a block is meant to be. -/
def listCall (l : List MicroOpInst) : BlockCall → List MicroOpInst × Option Bool
  | .push inst => if l.length < maxMicroOpsPerBlock then (l ++ [inst], some true) else (l, some false)
  | .remove index => (if index < l.length then l.eraseIdx index else l, none)

/-- The calls one after the other, with their answers. -/
def RawBlock.calls (self : RawBlock) : List BlockCall → Option (RawBlock × List (Option Bool))
  | [] => some (self, [])
  | c :: cs => do
    let (self, answer) ← self.call c
    let (self, answers) ← self.calls cs
    some (self, answer :: answers)

def listCalls (l : List MicroOpInst) : List BlockCall → List MicroOpInst × List (Option Bool)
  | [] => (l, [])
  | c :: cs =>
    let (l, answer) := listCall l c
    let (l, answers) := listCalls l cs
    (l, answer :: answers)

/-! ## The checked operations are the total ones -/

def TranslationBlock.toRaw (tb : TranslationBlock) : RawBlock where
  guestIp := tb.guestIp
  guestSize := tb.guestSize
  instructionCount := tb.instructionCount
  microOpCount := UInt32.ofNat tb.microOpCount
  microOps := tb.microOps
  translationValid := tb.translationValid

section
variable (tb : TranslationBlock)

lemma toNat_toRaw_microOpCount : tb.toRaw.microOpCount.toNat = tb.microOpCount := by
  have hle : tb.microOpCount ≤ 256 := tb.count_le
  exact UInt32.toNat_ofNat_of_lt' (show tb.microOpCount < 2 ^ 32 by omega)

@[simp] lemma active_toRaw : tb.toRaw.active = tb.active := by
  rw [RawBlock.active, toNat_toRaw_microOpCount]
  rfl

lemma push_toRaw (inst : MicroOpInst) :
    tb.toRaw.push inst = some ((tb.push inst).1.toRaw, (tb.push inst).2) := by
  rw [RawBlock.push, toNat_toRaw_microOpCount]
  by_cases h : tb.microOpCount < maxMicroOpsPerBlock
  · have hcount : tb.toRaw.microOpCount + 1 = UInt32.ofNat (tb.microOpCount + 1) :=
      (UInt32.ofNat_add _ 1).symm
    simp only [if_pos h, writeAt, dif_pos h, TranslationBlock.push, hcount]
    rfl
  · rw [if_neg h, TranslationBlock.push_full tb inst h]

lemma get_toRaw (k : Nat) : tb.toRaw.get k = some tb.active[k]? := by
  rw [RawBlock.get, toNat_toRaw_microOpCount]
  by_cases h : k < tb.microOpCount
  · have hk : k < maxMicroOpsPerBlock := Nat.lt_of_lt_of_le h tb.count_le
    rw [if_pos h, tb.active_get k h, readAt, dif_pos hk]
    rfl
  · have hlen : tb.active.length ≤ k := by
      rw [TranslationBlock.length_active]
      omega
    rw [if_neg h, List.getElem?_eq_none hlen]

end

/-- The checked loop of `remove` shifts as the total one does, as long as it stays in the array. -/
lemma foldlM_shiftOne (ops : Vector MicroOpInst maxMicroOpsPerBlock) (index k : Nat)
    (h : index + k < maxMicroOpsPerBlock) :
    (List.range' index k).foldlM RawBlock.shiftOne ops =
      some (TranslationBlock.shiftDown ops index k) := by
  induction k with
  | zero => rfl
  | succ k ih =>
    have hread : index + k + 1 < maxMicroOpsPerBlock := h
    have hwrite : index + k < maxMicroOpsPerBlock := by omega
    rw [List.range'_1_concat, List.foldlM_append, ih hwrite]
    simp only [Option.bind_eq_bind, Option.bind_some, List.foldlM_cons, List.foldlM_nil,
      RawBlock.shiftOne, readAt, writeAt, dif_pos hread, dif_pos hwrite,
      TranslationBlock.shiftDown]
    rfl

lemma remove_toRaw (tb : TranslationBlock) (index : Nat) :
    tb.toRaw.remove index = some (tb.remove index).toRaw := by
  rw [RawBlock.remove, toNat_toRaw_microOpCount]
  by_cases h : index < tb.microOpCount
  · have hle := tb.count_le
    have hloop := foldlM_shiftOne tb.microOps index (tb.microOpCount - 1 - index) (by omega)
    have hcount : tb.toRaw.microOpCount - 1 = UInt32.ofNat (tb.microOpCount - 1) :=
      (UInt32.ofNat_sub (Nat.one_le_of_lt h)).symm
    have hops : tb.toRaw.microOps = tb.microOps := rfl
    simp only [if_pos h, hops, hloop, hcount, TranslationBlock.remove]
    rfl
  · rw [if_neg h, TranslationBlock.remove, if_neg h]

/-! ## Refinement -/

/-- One call keeps to the array and does to the active prefix what it does to the list. -/
lemma call_toRaw (tb : TranslationBlock) (c : BlockCall) :
    ∃ tb' : TranslationBlock, tb'.active = (listCall tb.active c).1 ∧
      tb.toRaw.call c = some (tb'.toRaw, (listCall tb.active c).2) := by
  cases c with
  | push inst =>
    refine ⟨(tb.push inst).1, ?_, ?_⟩
    · rw [listCall, TranslationBlock.length_active]
      by_cases h : tb.microOpCount < maxMicroOpsPerBlock
      · rw [if_pos h, tb.active_push inst h]
      · rw [if_neg h, tb.push_full inst h]
    · rw [RawBlock.call, push_toRaw, listCall, TranslationBlock.length_active, TranslationBlock.push]
      split <;> rfl
  | remove index =>
    refine ⟨tb.remove index, ?_, ?_⟩
    · rw [listCall, tb.active_remove]
      split
      · rfl
      · rename_i h
        exact List.eraseIdx_of_length_le (Nat.le_of_not_lt h)
    · rw [RawBlock.call, remove_toRaw]
      rfl

/-- A sequence of calls does. -/
lemma calls_toRaw (tb : TranslationBlock) (cs : List BlockCall) :
    ∃ tb' : TranslationBlock, tb'.active = (listCalls tb.active cs).1 ∧
      tb.toRaw.calls cs = some (tb'.toRaw, (listCalls tb.active cs).2) := by
  induction cs generalizing tb with
  | nil => exact ⟨tb, rfl, rfl⟩
  | cons c cs ih =>
    obtain ⟨tb₁, hactive₁, hcall⟩ := call_toRaw tb c
    obtain ⟨tb₂, hactive₂, hcalls⟩ := ih tb₁
    rw [hactive₁] at hactive₂ hcalls
    refine ⟨tb₂, hactive₂, ?_⟩
    rw [RawBlock.calls, hcall]
    simp only [Option.bind_eq_bind, Option.bind_some, hcalls, listCalls]

/-- A block whose active prefix is the list `l`, of at most 256 micro-ops: it is read as the list, and
calls that the list ignores change nothing at all. -/
structure RawBlock.Represents (b : RawBlock) (l : List MicroOpInst) : Prop where
  active : b.active = l
  bounded : l.length ≤ maxMicroOpsPerBlock
  get : ∀ k, b.get k = some l[k]?
  full : ¬ l.length < maxMicroOpsPerBlock → ∀ inst, b.push inst = some (b, false)
  beyond : ∀ k, ¬ k < l.length → b.remove k = some b

lemma represents_toRaw (tb : TranslationBlock) : tb.toRaw.Represents tb.active where
  active := active_toRaw tb
  bounded := tb.length_active ▸ tb.count_le
  get := get_toRaw tb
  full h inst := by
    rw [TranslationBlock.length_active] at h
    rw [push_toRaw, tb.push_full inst h]
  beyond k h := by
    rw [TranslationBlock.length_active] at h
    rw [remove_toRaw, TranslationBlock.remove, if_neg h]

/-- No sequence of calls from a new block leaves the array, and all the way the block is the bounded
list, with the same answers. -/
theorem calls_refine_list (guestIp : UInt64) (cs : List BlockCall) :
    ∃ b, (RawBlock.new guestIp).calls cs = some (b, (listCalls [] cs).2) ∧
      b.Represents (listCalls [] cs).1 := by
  obtain ⟨tb, hactive, hcalls⟩ := calls_toRaw (TranslationBlock.new guestIp) cs
  rw [TranslationBlock.active_new] at hactive hcalls
  exact ⟨tb.toRaw, hcalls, hactive ▸ represents_toRaw tb⟩

end Bemi.Dbt
