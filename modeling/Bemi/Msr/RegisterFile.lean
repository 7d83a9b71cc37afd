import Bemi.Lib.RegisterFile
import Bemi.Msr.Shadow
import Mathlib.Data.List.Nodup

/-!
# The MSR shadow as a register file

What can be read through `MsrShadowRead` is a register file in the sense of `Bemi.Lib.RegisterFile`: a
write either is denied and changes nothing, or changes the MSR it is for. Whether an entry is
read-only, and whether its writes reach the processor, stays as `MsrShadowInit` has set it; no two
entries are for the same MSR.
-/

namespace Bemi.Msr
open Transition RegisterFile

/-- One call of `MsrShadowWrite`. -/
def WriteStep (s : ShadowedMsrs) (w : UInt32 × UInt64) (status : EfiStatus) (s' : ShadowedMsrs) :
    Prop :=
  msrShadowWrite s w.1 w.2 = (s', status)

abbrev WriteEvent := Event ShadowedMsrs (UInt32 × UInt64) EfiStatus

def succeeds (status : EfiStatus) : Bool := status == .success

def readMsr (s : ShadowedMsrs) (index : UInt32) : UInt64 := (msrShadowRead s index).1

/-- The value in the table, or the processor's if there is no entry. -/
def initialValue (msrs : UInt32 → UInt64) (index : UInt32) : UInt64 :=
  ((entryOf (msrShadowInit msrs).gMsrShadowTable index).map (·.value)).getD (msrs index)

/-! ## One write -/

/-- What a write does. -/
lemma msrShadowWrite_cases (s : ShadowedMsrs) (index : UInt32) (value : UInt64) :
    (∃ entry, entryOf s.gMsrShadowTable index = some entry ∧ entry.isReadOnly = true ∧
        msrShadowWrite s index value = (s, .accessDenied)) ∨
      (∃ entry table, entryOf s.gMsrShadowTable index = some entry ∧ entry.isReadOnly = false ∧
        (∀ j, entryOf table j =
          if j = index then some (entry.setValue value) else entryOf s.gMsrShadowTable j) ∧
        msrShadowWrite s index value =
          (⟨if entry.passthroughOnWrite then Function.update s.msrs index value else s.msrs, table⟩,
            .success)) ∨
      entryOf s.gMsrShadowTable index = none ∧
        msrShadowWrite s index value =
          (⟨Function.update s.msrs index value, s.gMsrShadowTable⟩, .success) := by
  rw [msrShadowWrite]
  split
  case h_1 i hi =>
    have hentry := entryOf_some hi
    dsimp only
    by_cases hro : (s.gMsrShadowTable.get i).isReadOnly = true
    · rw [if_pos hro]
      exact .inl ⟨_, hentry, hro, rfl⟩
    · rw [if_neg hro]
      refine .inr (.inl ⟨_, s.gMsrShadowTable.set i ((s.gMsrShadowTable.get i).setValue value),
        hentry, Bool.not_eq_true _ ▸ hro, fun j => ?_, ?_⟩)
      · rw [entryOf_set hi, hentry, Option.map_some]
      · cases (s.gMsrShadowTable.get i).passthroughOnWrite with
        | true => rfl
        | false => rfl
  case h_2 hi => exact .inr (.inr ⟨entryOf_none hi, rfl⟩)

lemma readMsr_mk (msrs : UInt32 → UInt64) (table : List MsrShadowEntry) (index : UInt32) :
    readMsr ⟨msrs, table⟩ index = ((entryOf table index).map (·.value)).getD (msrs index) :=
  msrShadowRead_eq ⟨msrs, table⟩ index

/-- A read never fails. -/
lemma msrShadowRead_readMsr (s : ShadowedMsrs) (index : UInt32) :
    msrShadowRead s index = (readMsr s index, .success) := by
  rw [readMsr, msrShadowRead]
  split
  · rfl
  · rfl

/-- A write changes the MSR it is for, unless it is denied. -/
lemma writeStep_writes : Writes succeeds readMsr WriteStep := by
  rintro s ⟨index, value⟩ status s' hstep
  rw [WriteStep] at hstep
  dsimp only at hstep ⊢
  rcases msrShadowWrite_cases s index value with
    ⟨entry, -, -, hwrite⟩ | ⟨entry, table, hentry, -, htable, hwrite⟩ | ⟨hentry, hwrite⟩
  · rw [hwrite] at hstep
    cases hstep
    rfl
  · rw [hwrite] at hstep
    cases hstep
    refine (funext fun j => ?_ : readMsr _ = Function.update (readMsr s) index value)
    rw [readMsr_mk, htable]
    by_cases hj : j = index
    · rw [if_pos hj, hj, Function.update_self]
      rfl
    · rw [if_neg hj, Function.update_of_ne hj, readMsr_mk]
      -- the processor's MSR is another one too
      cases entry.passthroughOnWrite with
      | true => rw [if_pos rfl, Function.update_of_ne hj]
      | false => rfl
  · rw [hwrite] at hstep
    cases hstep
    refine (funext fun j => ?_ : readMsr _ = Function.update (readMsr s) index value)
    rw [readMsr_mk]
    by_cases hj : j = index
    · rw [hj, hentry, Function.update_self, Function.update_self]
      rfl
    · rw [Function.update_of_ne hj, Function.update_of_ne hj, readMsr_mk]

/-- Whether an entry is read-only, and whether writes to it reach the processor. -/
def attributes (s : ShadowedMsrs) (index : UInt32) : Option (Bool × Bool) :=
  (entryOf s.gMsrShadowTable index).map fun entry => (entry.isReadOnly, entry.passthroughOnWrite)

lemma attributes_write (s : ShadowedMsrs) (index : UInt32) (value : UInt64) (j : UInt32) :
    attributes (msrShadowWrite s index value).1 j = attributes s j := by
  rcases msrShadowWrite_cases s index value with
    ⟨entry, -, -, hwrite⟩ | ⟨entry, table, hentry, -, htable, hwrite⟩ | ⟨-, hwrite⟩
  · rw [hwrite]
  · rw [hwrite, attributes, attributes, htable]
    split
    · rename_i hj
      rw [hj, hentry]
      rfl
    · rfl
  · rw [hwrite]
    rfl

/-- A write to a read-only entry is denied. -/
lemma msrShadowWrite_readOnly {s : ShadowedMsrs} {index : UInt32} {passthrough : Bool}
    (h : attributes s index = some (true, passthrough)) (value : UInt64) :
    msrShadowWrite s index value = (s, .accessDenied) := by
  rw [attributes] at h
  rcases msrShadowWrite_cases s index value with
    ⟨entry, -, -, hwrite⟩ | ⟨entry, table, hentry, hro, -, -⟩ | ⟨hentry, -⟩
  · exact hwrite
  · rw [hentry, Option.map_some, hro] at h
    cases h
  · rw [hentry] at h
    cases h

/-- A write to an entry without `PassthroughOnWrite` does not reach the processor. -/
lemma msrShadowWrite_kept {s : ShadowedMsrs} {index : UInt32} {isReadOnly : Bool}
    (h : attributes s index = some (isReadOnly, false)) (value : UInt64) :
    (msrShadowWrite s index value).1.msrs = s.msrs := by
  rw [attributes] at h
  rcases msrShadowWrite_cases s index value with
    ⟨entry, -, -, hwrite⟩ | ⟨entry, table, hentry, -, -, hwrite⟩ | ⟨hentry, -⟩
  · rw [hwrite]
  · rw [hentry, Option.map_some, Option.some_inj, Prod.mk.injEq] at h
    rw [hwrite, h.2]
    rfl
  · rw [hentry] at h
    cases h

/-! ## The indices -/

def fixedIndices : List UInt32 :=
  [0x10, 0x3B, 0x1B, 0x174, 0x175, 0x176, 0xC0000081, 0xC0000082, 0xC0000083, 0xC0000084,
    0xC0000100, 0xC0000101, 0xC0000102, 0xC0000080, 0x179, 0x17A, 0x17B, 0x277, 0x2FF, 0xFE]

def mtrrIndices (count : Nat) : List UInt32 :=
  (List.range count).flatMap fun i => [0x200 + UInt32.ofNat i * 2, 0x201 + UInt32.ofNat i * 2]

lemma msrShadowInit_indices (msrs : UInt32 → UInt64) :
    (msrShadowInit msrs).gMsrShadowTable.map (·.index) =
      fixedIndices ++ mtrrIndices (min (msrs 0xFE &&& 0xFF).toNat 10) := by
  rw [msrShadowInit_table, List.map_map, List.map_append, List.map_flatMap]
  rfl

/-- No two entries are for the same MSR. -/
lemma msrShadowInit_nodup (msrs : UInt32 → UInt64) :
    ((msrShadowInit msrs).gMsrShadowTable.map (·.index)).Nodup := by
  have hnodup : ∀ count ≤ 10, (fixedIndices ++ mtrrIndices count).Nodup := by
    decide +kernel
  rw [msrShadowInit_indices]
  exact hnodup _ (Nat.min_le_right _ 10)

/-- So each is the one found for its MSR. -/
lemma entryOf_of_mem {msrs : UInt32 → UInt64} {entry : MsrShadowEntry}
    (h : entry ∈ (msrShadowInit msrs).gMsrShadowTable) :
    entryOf (msrShadowInit msrs).gMsrShadowTable entry.index = some entry := by
  have hmatches : matchesMsr entry.index entry = true :=
    matchesMsr_iff.mpr ⟨rfl, (msrShadowInit_fresh msrs entry h).shadowed⟩
  obtain ⟨found, hfound⟩ := Option.isSome_iff_exists.mp (List.find?_isSome.mpr ⟨entry, h, hmatches⟩)
  have hmem := List.mem_of_find?_eq_some hfound
  have hindex := (matchesMsr_iff.mp (List.find?_some hfound)).1
  rw [entryOf, hfound, List.inj_on_of_nodup_map (msrShadowInit_nodup msrs) hmem h hindex]

/-! ## Runs -/

lemma readMsr_init (msrs : UInt32 → UInt64) (index : UInt32) :
    readMsr (msrShadowInit msrs) index = initialValue msrs index :=
  msrShadowRead_eq (msrShadowInit msrs) index

lemma attributes_run {msrs : UInt32 → UInt64} {tr : List WriteEvent} {s : ShadowedMsrs}
    (run : Run WriteStep (msrShadowInit msrs) tr s) {entry : MsrShadowEntry}
    (h : entry ∈ (msrShadowInit msrs).gMsrShadowTable) :
    attributes s entry.index = some (entry.isReadOnly, entry.passthroughOnWrite) := by
  refine run.history (I := fun _ s => attributes s entry.index =
    some (entry.isReadOnly, entry.passthroughOnWrite)) ?_ ?_
  · rw [attributes, entryOf_of_mem h]
    rfl
  · intro _ s w status s' ih hstep
    have hs' : (msrShadowWrite s w.1 w.2).1 = s' := congrArg Prod.fst hstep
    rw [← hs', attributes_write, ih]

/-- The shadow is a register file with protection. -/
theorem msrShadow_registerFile (msrs : UInt32 → UInt64) :
    ((msrShadowInit msrs).gMsrShadowTable.map (·.index)).Nodup ∧
      ∀ (tr : List WriteEvent) (s : ShadowedMsrs), Run WriteStep (msrShadowInit msrs) tr s →
        (∀ i, msrShadowRead s i =
          ((lastWritten succeeds tr i).getD (initialValue msrs i), .success)) ∧
        (∀ i value j, j ≠ i →
          msrShadowRead (msrShadowWrite s i value).1 j = msrShadowRead s j) ∧
        ∀ entry ∈ (msrShadowInit msrs).gMsrShadowTable, ∀ value,
          (entry.isReadOnly = true →
            msrShadowWrite s entry.index value = (s, .accessDenied)) ∧
          (entry.passthroughOnWrite = false →
            (msrShadowWrite s entry.index value).1.msrs = s.msrs) := by
  refine ⟨msrShadowInit_nodup msrs, fun tr s run => ⟨fun i => ?_, fun i value j hj => ?_, ?_⟩⟩
  · rw [msrShadowRead_readMsr, read_eq writeStep_writes run, readMsr_init]
  · have hother : readMsr (msrShadowWrite s i value).1 j = readMsr s j :=
      read_other writeStep_writes (w := (i, value)) rfl hj
    rw [msrShadowRead_readMsr, msrShadowRead_readMsr, hother]
  · intro entry hentry value
    have hattr := attributes_run run hentry
    constructor
    · intro hro
      rw [hro] at hattr
      exact msrShadowWrite_readOnly hattr value
    · intro hpass
      rw [hpass] at hattr
      exact msrShadowWrite_kept hattr value

/-- The TSC and `MCG_CAP` written, the second in vain. -/
def tscEvents : List WriteEvent :=
  let s₀ := msrShadowInit fun _ => 0
  let s₁ := (msrShadowWrite s₀ 0x10 5).1
  [⟨s₀, (0x10, 5), .success⟩, ⟨s₁, (0x179, 7), .accessDenied⟩]

def tscEnd : ShadowedMsrs :=
  (msrShadowWrite (msrShadowWrite (msrShadowInit fun _ => 0) 0x10 5).1 0x179 7).1

lemma tscRun : Run WriteStep (msrShadowInit fun _ => 0) tscEvents tscEnd := by
  have hdenied : msrShadowWrite (msrShadowWrite (msrShadowInit fun _ => 0) 0x10 5).1 0x179 7 =
      (tscEnd, .accessDenied) := Prod.ext rfl (by decide)
  exact .snoc (.snoc .nil rfl) hdenied

/-- What is read then. -/
theorem msrShadow_registerFile_tsc :
    msrShadowRead tscEnd 0x10 = (5, .success) ∧ msrShadowRead tscEnd 0x179 = (0, .success) := by
  have hreads := ((msrShadow_registerFile fun _ => 0).2 tscEvents tscEnd tscRun).1
  exact ⟨hreads 0x10, hreads 0x179⟩

end Bemi.Msr
