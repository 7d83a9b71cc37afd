import Bemi.Efi
import Bemi.Lib.Lookup
import Mathlib.Logic.Function.Basic

/-!
# MSR shadow

Model of `hwcompat/msr/msrshadow.c`. The table is the list of the entries in use, which are at most
`maxShadowMsrs`; a pointer into it is the position of the entry. The MSRs of the processor are a
store.
-/

namespace Bemi.Msr
open Lookup

abbrev maxShadowMsrs : Nat := 256

structure MsrShadowEntry where
  index : UInt32
  value : UInt64
  isShadowed : Bool
  isReadOnly : Bool
  passthroughOnWrite : Bool
  deriving DecidableEq, Repr

/-- `entry->Value = Value`. -/
def MsrShadowEntry.setValue (entry : MsrShadowEntry) (value : UInt64) : MsrShadowEntry :=
  { entry with value := value }

/-- The processor's MSRs and `gMsrShadowTable`. -/
structure ShadowedMsrs where
  msrs : UInt32 → UInt64
  gMsrShadowTable : List MsrShadowEntry

/-- The test in `FindShadowMsr`. -/
def matchesMsr (index : UInt32) (entry : MsrShadowEntry) : Bool :=
  entry.index == index && entry.isShadowed

def findShadowMsr (table : List MsrShadowEntry) (index : UInt32) : Option (Fin table.length) :=
  table.findFinIdx? (matchesMsr index)

def addShadowMsr (table : List MsrShadowEntry) (index : UInt32) (value : UInt64)
    (isReadOnly passthroughOnWrite : Bool) : List MsrShadowEntry :=
  if table.length < maxShadowMsrs then
    table ++ [⟨index, value, true, isReadOnly, passthroughOnWrite⟩]
  else table

/-- The calls of `AddShadowMsr` before the MTRR pairs, with their arguments. -/
def fixedMsrs (msrs : UInt32 → UInt64) : List (UInt32 × UInt64 × Bool × Bool) :=
  [(0x10, 0, false, false),
    (0x3B, 0, false, true),
    (0x1B, msrs 0x1B, false, true),
    (0x174, msrs 0x174, false, true),
    (0x175, msrs 0x175, false, true),
    (0x176, msrs 0x176, false, true),
    (0xC0000081, msrs 0xC0000081, false, true),
    (0xC0000082, msrs 0xC0000082, false, true),
    (0xC0000083, msrs 0xC0000083, false, true),
    (0xC0000084, msrs 0xC0000084, false, true),
    (0xC0000100, msrs 0xC0000100, false, true),
    (0xC0000101, msrs 0xC0000101, false, true),
    (0xC0000102, msrs 0xC0000102, false, true),
    (0xC0000080, msrs 0xC0000080, false, true),
    (0x179, msrs 0x179, true, false),
    (0x17A, 0, false, true),
    (0x17B, msrs 0x17B, false, true),
    (0x277, msrs 0x277, false, true),
    (0x2FF, msrs 0x2FF, false, true),
    (0xFE, msrs 0xFE, true, false)]

/-- The calls in the loop over the variable-range MTRRs: base and mask. -/
def mtrrMsrs (msrs : UInt32 → UInt64) (i : Nat) : List (UInt32 × UInt64 × Bool × Bool) :=
  let baseMsr := 0x200 + UInt32.ofNat i * 2
  let maskMsr := 0x201 + UInt32.ofNat i * 2
  [(baseMsr, msrs baseMsr, false, true), (maskMsr, msrs maskMsr, false, true)]

def addShadowMsrs (table : List MsrShadowEntry)
    (calls : List (UInt32 × UInt64 × Bool × Bool)) : List MsrShadowEntry :=
  calls.foldl (fun table call => addShadowMsr table call.1 call.2.1 call.2.2.1 call.2.2.2) table

def msrShadowInit (msrs : UInt32 → UInt64) : ShadowedMsrs :=
  let mtrrCount := (msrs 0xFE &&& 0xFF).toNat
  ⟨msrs, addShadowMsrs []
    (fixedMsrs msrs ++ (List.range (min mtrrCount 10)).flatMap (mtrrMsrs msrs))⟩

def msrShadowRead (s : ShadowedMsrs) (index : UInt32) : UInt64 × EfiStatus :=
  match findShadowMsr s.gMsrShadowTable index with
  | some entry => ((s.gMsrShadowTable.get entry).value, .success)
  | none => (s.msrs index, .success)

def msrShadowWrite (s : ShadowedMsrs) (index : UInt32) (value : UInt64) :
    ShadowedMsrs × EfiStatus :=
  match findShadowMsr s.gMsrShadowTable index with
  | some i =>
    let entry := s.gMsrShadowTable.get i
    if entry.isReadOnly then (s, .accessDenied)
    else
      let table := s.gMsrShadowTable.set i (entry.setValue value)
      if entry.passthroughOnWrite then
        (⟨Function.update s.msrs index value, table⟩, .success)
      else (⟨s.msrs, table⟩, .success)
  | none => (⟨Function.update s.msrs index value, s.gMsrShadowTable⟩, .success)

/-! ## Entries -/

/-- The entry of an MSR, if it has one. -/
def entryOf (table : List MsrShadowEntry) (index : UInt32) : Option MsrShadowEntry :=
  table.find? (matchesMsr index)

lemma matchesMsr_iff {index : UInt32} {entry : MsrShadowEntry} :
    matchesMsr index entry = true ↔ entry.index = index ∧ entry.isShadowed = true := by
  simp [matchesMsr]

lemma entryOf_none {table : List MsrShadowEntry} {index : UInt32}
    (h : findShadowMsr table index = none) : entryOf table index = none :=
  List.find?_eq_none.mpr (by simpa [findShadowMsr] using h)

lemma entryOf_some {table : List MsrShadowEntry} {index : UInt32} {i : Fin table.length}
    (h : findShadowMsr table index = some i) : entryOf table index = some (table.get i) :=
  find?_of_findFinIdx? h

/-- An entry is found where it is looked for. -/
lemma matchesMsr_get {table : List MsrShadowEntry} {index : UInt32} {i : Fin table.length}
    (h : findShadowMsr table index = some i) : matchesMsr index (table.get i) = true :=
  (List.findFinIdx?_eq_some_iff.mp h).1

lemma msrShadowRead_eq (s : ShadowedMsrs) (index : UInt32) :
    (msrShadowRead s index).1 =
      ((entryOf s.gMsrShadowTable index).map (·.value)).getD (s.msrs index) := by
  unfold msrShadowRead
  split
  · rw [entryOf_some ‹_›]
    rfl
  · rw [entryOf_none ‹_›]
    rfl

/-- A new value for the entry found. -/
lemma entryOf_set {table : List MsrShadowEntry} {index : UInt32} {i : Fin table.length}
    (h : findShadowMsr table index = some i) (value : UInt64) (j : UInt32) :
    entryOf (table.set i ((table.get i).setValue value)) j =
      if j = index then (entryOf table index).map (·.setValue value) else entryOf table j := by
  have hm := matchesMsr_get h
  split
  · rename_i hj
    subst hj
    rw [entryOf_some h]
    exact find?_set_self h hm
  · rename_i hj
    -- neither the entry nor the one in its place is for `j`
    have other : matchesMsr j (table.get i) = false := by
      have hne : (table.get i).index ≠ j := by
        rw [(matchesMsr_iff.mp hm).1]
        exact Ne.symm hj
      rw [matchesMsr, beq_eq_false_iff_ne.mpr hne, Bool.false_and]
    exact find?_set_of_not i.isLt other other

/-- An entry that is neither read-only nor kept from the processor. -/
def MsrShadowEntry.Through (entry : MsrShadowEntry) : Prop :=
  entry.isReadOnly = false ∧ entry.passthroughOnWrite = true

/-- Writing an MSR whose entry, if it has one, lets the value through. -/
lemma msrShadowWrite_through {s : ShadowedMsrs} {index : UInt32}
    (h : ∀ entry, entryOf s.gMsrShadowTable index = some entry → entry.Through) (value : UInt64) :
    (msrShadowWrite s index value).1.msrs = Function.update s.msrs index value ∧
      ∀ j, entryOf (msrShadowWrite s index value).1.gMsrShadowTable j =
        if j = index then (entryOf s.gMsrShadowTable index).map (·.setValue value)
        else entryOf s.gMsrShadowTable j := by
  unfold msrShadowWrite
  split
  · rename_i i hi
    obtain ⟨hro, hpass⟩ := h _ (entryOf_some hi)
    simp only [hro, hpass, if_true, Bool.false_eq_true, if_false]
    exact ⟨trivial, entryOf_set hi value⟩
  · rename_i hi
    refine ⟨rfl, fun j => ?_⟩
    split
    · rename_i hj
      rw [hj, entryOf_none hi]
      rfl
    · rfl

/-! ## After `MsrShadowInit` -/

/-- The MSRs whose entry keeps writes from the processor: TSC, and the read-only `MCG_CAP` and
`MTRR_CAP`. -/
def withheldMsrs : List UInt32 := [0x10, 0x179, 0xFE]

/-- The MSRs whose entry starts as zero: TSC, `TSC_ADJUST` and `MCG_STATUS`. -/
def zeroedMsrs : List UInt32 := [0x10, 0x3B, 0x17A]

lemma mem_withheldMsrs {index : UInt32} :
    index ∈ withheldMsrs ↔ index = 0x10 ∨ index = 0x179 ∨ index = 0xFE := by
  simp [withheldMsrs]

lemma mem_zeroedMsrs {index : UInt32} :
    index ∈ zeroedMsrs ↔ index = 0x10 ∨ index = 0x3B ∨ index = 0x17A := by
  simp [zeroedMsrs]

/-- An entry as `MsrShadowInit` makes it. -/
structure MsrShadowEntry.Fresh (msrs : UInt32 → UInt64) (entry : MsrShadowEntry) : Prop where
  shadowed : entry.isShadowed = true
  value : entry.value = if entry.index ∈ zeroedMsrs then 0 else msrs entry.index
  through : entry.Through ↔ entry.index ∉ withheldMsrs

/-- The entry that a call of `AddShadowMsr` makes. -/
def entryMade (call : UInt32 × UInt64 × Bool × Bool) : MsrShadowEntry :=
  ⟨call.1, call.2.1, true, call.2.2.1, call.2.2.2⟩

lemma addShadowMsrs_eq (table : List MsrShadowEntry) (calls : List (UInt32 × UInt64 × Bool × Bool))
    (h : table.length + calls.length ≤ maxShadowMsrs) :
    addShadowMsrs table calls = table ++ calls.map entryMade := by
  induction calls generalizing table with
  | nil => simp [addShadowMsrs]
  | cons call calls ih =>
    rw [List.length_cons] at h
    have added : addShadowMsr table call.1 call.2.1 call.2.2.1 call.2.2.2 =
        table ++ [entryMade call] := by
      rw [addShadowMsr, if_pos (by omega)]
      rfl
    rw [addShadowMsrs, List.foldl_cons, added]
    refine (ih _ ?_).trans ?_
    · rw [List.length_append, List.length_singleton]
      omega
    · rw [List.map_cons, List.append_assoc, List.singleton_append]

lemma mtrrMsrs_length (msrs : UInt32 → UInt64) (l : List Nat) :
    (l.flatMap (mtrrMsrs msrs)).length = 2 * l.length := by
  induction l with
  | nil => rfl
  | cons i l ih =>
    rw [List.flatMap_cons, List.length_append, ih, List.length_cons]
    change 2 + _ = _
    omega

lemma fixedMsrs_length (msrs : UInt32 → UInt64) : (fixedMsrs msrs).length = 20 := rfl

/-- There is room for all entries. -/
lemma msrShadowInit_table (msrs : UInt32 → UInt64) :
    (msrShadowInit msrs).gMsrShadowTable = (fixedMsrs msrs ++
      (List.range (min (msrs 0xFE &&& 0xFF).toNat 10)).flatMap (mtrrMsrs msrs)).map entryMade := by
  rw [msrShadowInit, addShadowMsrs_eq, List.nil_append]
  rw [List.length_append, mtrrMsrs_length, List.length_range, List.length_nil, fixedMsrs_length]
  have := Nat.min_le_right (msrs 0xFE &&& 0xFF).toNat 10
  change _ ≤ 256
  omega

lemma fixedMsrs_fresh (msrs : UInt32 → UInt64) :
    ∀ call ∈ fixedMsrs msrs, (entryMade call).Fresh msrs := by
  have key : ∀ call ∈ fixedMsrs msrs, (entryMade call).value =
      (if (entryMade call).index ∈ zeroedMsrs then 0 else msrs (entryMade call).index) ∧
      ((entryMade call).Through ↔ (entryMade call).index ∉ withheldMsrs) := by
    simp [fixedMsrs, entryMade, zeroedMsrs, withheldMsrs, MsrShadowEntry.Through]
  exact fun call hc => ⟨rfl, (key call hc).1, (key call hc).2⟩

/-- An entry for an MSR that is in neither list, with the value it has. -/
lemma fresh_of_plain (msrs : UInt32 → UInt64) {index : UInt32}
    (h : index ∉ zeroedMsrs ∧ index ∉ withheldMsrs) :
    (entryMade (index, msrs index, false, true)).Fresh msrs where
  shadowed := rfl
  value := (if_neg h.1).symm
  through := iff_of_true ⟨rfl, rfl⟩ h.2

lemma mtrrMsrs_fresh (msrs : UInt32 → UInt64) {i : Nat} (h : i < 10) :
    ∀ call ∈ mtrrMsrs msrs i, (entryMade call).Fresh msrs := by
  have plain : ∀ base : Fin 2, ∀ i : Fin 10,
      0x200 + UInt32.ofNat base + UInt32.ofNat i * 2 ∉ zeroedMsrs ∧
        0x200 + UInt32.ofNat base + UInt32.ofNat i * 2 ∉ withheldMsrs := by decide
  intro call hc
  rcases List.mem_pair.mp hc with rfl | rfl
  · exact fresh_of_plain msrs (plain 0 ⟨i, h⟩)
  · exact fresh_of_plain msrs (plain 1 ⟨i, h⟩)

lemma msrShadowInit_fresh (msrs : UInt32 → UInt64) :
    ∀ entry ∈ (msrShadowInit msrs).gMsrShadowTable, entry.Fresh msrs := by
  rw [msrShadowInit_table]
  intro entry he
  obtain ⟨call, hc, rfl⟩ := List.mem_map.mp he
  rcases List.mem_append.mp hc with hc | hc
  · exact fixedMsrs_fresh msrs call hc
  · obtain ⟨i, hi, hc⟩ := List.mem_flatMap.mp hc
    exact mtrrMsrs_fresh msrs (by simp at hi; omega) call hc

/-- What an entry found after `MsrShadowInit` holds. -/
lemma entryOf_init {msrs : UInt32 → UInt64} {index : UInt32} {entry : MsrShadowEntry}
    (h : entryOf (msrShadowInit msrs).gMsrShadowTable index = some entry) :
    entry.value = (if index ∈ zeroedMsrs then 0 else msrs index) ∧
      (entry.Through ↔ index ∉ withheldMsrs) := by
  obtain ⟨-, value, through⟩ := msrShadowInit_fresh msrs entry (List.mem_of_find?_eq_some h)
  obtain ⟨hi, -⟩ := matchesMsr_iff.mp (List.find?_some h)
  rw [hi] at value through
  exact ⟨value, through⟩

/-- The MSRs in the two lists have entries. -/
lemma entryOf_init_isSome (msrs : UInt32 → UInt64) {index : UInt32}
    (h : index ∈ zeroedMsrs ∨ index ∈ withheldMsrs) :
    (entryOf (msrShadowInit msrs).gMsrShadowTable index).isSome = true := by
  have hmem : index ∈ (fixedMsrs msrs).map Prod.fst := by
    rcases h with h | h
    · obtain rfl | rfl | rfl := mem_zeroedMsrs.mp h <;> simp [fixedMsrs]
    · obtain rfl | rfl | rfl := mem_withheldMsrs.mp h <;> simp [fixedMsrs]
  obtain ⟨call, hc, rfl⟩ := List.mem_map.mp hmem
  rw [msrShadowInit_table, entryOf, List.find?_isSome]
  exact ⟨entryMade call, List.mem_map_of_mem (List.mem_append_left _ hc),
    matchesMsr_iff.mpr ⟨rfl, rfl⟩⟩

end Bemi.Msr
