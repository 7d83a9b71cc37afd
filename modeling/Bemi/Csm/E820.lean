import Bemi.Efi
import Bemi.Lib.Ram

/-!
# The E820 map

Model of `CsmEmulateInt15E820` of `legacy/csm/CsmModule.c` on the bytes of memory. One cursor goes over
the descriptors of the UEFI memory map in steps that the firmware chooses, the other over the entries
of 24 bytes that the routine writes. The memory map services are a parameter: the answer to the size
query, the allocation, and the answer to the second call with the memory that it leaves.
-/

namespace Bemi.Csm
open Ram

/-! ## Descriptors and entries -/

abbrev efiLoaderCode : UInt32 := 1
abbrev efiLoaderData : UInt32 := 2
abbrev efiBootServicesCode : UInt32 := 3
abbrev efiBootServicesData : UInt32 := 4
abbrev efiConventionalMemory : UInt32 := 7
abbrev efiACPIReclaimMemory : UInt32 := 9
abbrev efiACPIMemoryNVS : UInt32 := 10

/-- `EFI_MEMORY_DESCRIPTOR`, as far as the routine reads it. -/
structure MemoryDescriptor where
  type : UInt32
  physicalStart : UInt64
  numberOfPages : UInt64
  deriving DecidableEq

/-- The size of the structure; descriptors may be further apart. -/
abbrev sizeOfDescriptor : Nat := 40

def descriptor (mem : Bytes) (a : UInt64) : MemoryDescriptor where
  type := load32 mem (a + 0)
  physicalStart := load64 mem (a + 8)
  numberOfPages := load64 mem (a + 24)

structure E820Entry where
  base : UInt64
  length : UInt64
  e820Type : UInt32
  extended : UInt32
  deriving DecidableEq

def entry (mem : Bytes) (a : UInt64) : E820Entry where
  base := load64 mem (a + 0)
  length := load64 mem (a + 8)
  e820Type := load32 mem (a + 16)
  extended := load32 mem (a + 20)

/-- Translate UEFI memory type to E820 memory type. -/
def e820Type (type : UInt32) : UInt32 :=
  if type = efiConventionalMemory ∨ type = efiLoaderCode ∨ type = efiLoaderData ∨
      type = efiBootServicesCode ∨ type = efiBootServicesData then 1
  else if type = efiACPIReclaimMemory then 3
  else if type = efiACPIMemoryNVS then 4
  else 2

/-! ## The routine -/

/-- What `GetMemoryMap` answers beside the map. -/
structure MapAnswer where
  status : EfiStatus
  mapSize : UInt64
  descriptorSize : UInt64

structure BootServices where
  sizeQuery : MapAnswer
  allocateZeroPool : UInt64 → Bytes → UInt64 × Bytes
  dataQuery : UInt64 → UInt64 → Bytes → MapAnswer × Bytes

/-- The body of the loop. -/
def writeEntry (mem : Bytes) (outPtr mapPtr : UInt64) : Bytes :=
  let mem := store mem (outPtr + 0) 8 (descriptor mem mapPtr).physicalStart.toNat
  let mem := store mem (outPtr + 8) 8 ((descriptor mem mapPtr).numberOfPages * 4096).toNat
  let mem := store mem (outPtr + 16) 4 (e820Type (descriptor mem mapPtr).type).toNat
  store mem (outPtr + 20) 4 1

/-- `for (i = 0; i < count; i++)`, for as many rounds as are left. -/
def writeEntries (descriptorSize : UInt64) : Nat → Bytes → UInt64 → UInt64 → Bytes
  | 0, mem, _, _ => mem
  | n + 1, mem, outPtr, mapPtr =>
    writeEntries descriptorSize n (writeEntry mem outPtr mapPtr) (outPtr + 24)
      (mapPtr + descriptorSize)

structure E820Result where
  status : EfiStatus
  mapCount : UInt32
  mem : Bytes

/-- Populate map buffer. -/
def populate (answer : MapAnswer) (mem : Bytes) (memoryMap e820MapBuffer : UInt64)
    (mapCount : UInt32) : E820Result :=
  let count := (answer.mapSize / answer.descriptorSize).toUInt32
  let count := if count > mapCount then mapCount else count
  let mem := store mem e820MapBuffer (count * 24).toNat 0
  ⟨.success, count, writeEntries answer.descriptorSize count.toNat mem e820MapBuffer memoryMap⟩

def csmEmulateInt15E820 (gBS : BootServices) (mem : Bytes) (e820MapBuffer : UInt64)
    (mapCount : UInt32) : E820Result :=
  let query := gBS.sizeQuery
  if query.status ≠ .bufferTooSmall then ⟨query.status, mapCount, mem⟩
  else
    let (memoryMap, mem) := gBS.allocateZeroPool (query.mapSize + 2 * query.descriptorSize) mem
    if memoryMap = 0 then ⟨.outOfResources, mapCount, mem⟩
    else
      let (answer, mem) := gBS.dataQuery query.mapSize memoryMap mem
      if answer.status.isError then ⟨answer.status, mapCount, mem⟩
      else populate answer mem memoryMap e820MapBuffer mapCount

/-! ## The memory map -/

/-- The descriptors `ds` lie in memory from `memoryMap` on, each `stride` bytes after the one before. -/
def Holds (mem : Bytes) (memoryMap : UInt64) (stride : Nat) (ds : List MemoryDescriptor) : Prop :=
  ∀ i (hi : i < ds.length), descriptor mem (memoryMap + UInt64.ofNat (i * stride)) = ds[i]

/-- What the second call leaves: the map `ds`, apart from the buffer of the caller. -/
structure Delivers (answer : MapAnswer) (mem : Bytes) (memoryMap e820MapBuffer : UInt64)
    (mapCount : UInt32) (ds : List MemoryDescriptor) : Prop where
  stride : sizeOfDescriptor ≤ answer.descriptorSize.toNat
  size : answer.mapSize.toNat = ds.length * answer.descriptorSize.toNat
  holds : Holds mem memoryMap answer.descriptorSize.toNat ds
  apart : ∀ x, Within memoryMap answer.mapSize.toNat x →
    ¬ Within e820MapBuffer (24 * mapCount.toNat) x

/-- The firmware answers the size query, and the second call with the map unless that fails. -/
structure Answers (gBS : BootServices) (mem : Bytes) (e820MapBuffer : UInt64) (mapCount : UInt32)
    (ds : List MemoryDescriptor) : Prop where
  query : gBS.sizeQuery.status = .bufferTooSmall
  data : let size := gBS.sizeQuery.mapSize
    let (memoryMap, mem) := gBS.allocateZeroPool (size + 2 * gBS.sizeQuery.descriptorSize) mem
    let (answer, mem) := gBS.dataQuery size memoryMap mem
    answer.status.isError = false → Delivers answer mem memoryMap e820MapBuffer mapCount ds

/-! ## One entry -/

/-- The entry of a descriptor. -/
def MemoryDescriptor.translate (d : MemoryDescriptor) : E820Entry :=
  ⟨d.physicalStart, d.numberOfPages * 4096, e820Type d.type, 1⟩

lemma descriptor_congr {m m' : Bytes} {a : UInt64}
    (h : ∀ x, Within a sizeOfDescriptor x → m' x = m x) : descriptor m' a = descriptor m a := by
  have field {i : UInt64} {l : Nat} (hi : i.toNat + l ≤ sizeOfDescriptor) :
      number m' (a + i) l = number m (a + i) l :=
    number_congr fun x hx => h x (hx.of_offset hi)
  simp only [descriptor, load64, load32, field (i := 0) (l := 4) (by decide),
    field (i := 8) (l := 8) (by decide), field (i := 24) (l := 8) (by decide)]

lemma entry_congr {m m' : Bytes} {a : UInt64} (h : ∀ x, Within a 24 x → m' x = m x) :
    entry m' a = entry m a := by
  have field {i : UInt64} {l : Nat} (hi : i.toNat + l ≤ 24) :
      number m' (a + i) l = number m (a + i) l :=
    number_congr fun x hx => h x (hx.of_offset hi)
  simp only [entry, load64, load32, field (i := 0) (l := 8) (by decide),
    field (i := 8) (l := 8) (by decide), field (i := 16) (l := 4) (by decide),
    field (i := 20) (l := 4) (by decide)]

lemma store_field_of_not_within (m : Bytes) {a i x : UInt64} {k : Nat} (v : Nat)
    (hi : i.toNat + k ≤ 24) (hx : ¬ Within a 24 x) : store m (a + i) k v x = m x :=
  store_of_not_within m v fun h => hx (h.of_offset hi)

lemma writeEntry_of_not_within (m : Bytes) (mapPtr : UInt64) {outPtr x : UInt64}
    (hx : ¬ Within outPtr 24 x) : writeEntry m outPtr mapPtr x = m x := by
  rw [writeEntry, store_field_of_not_within _ _ (by decide) hx,
    store_field_of_not_within _ _ (by decide) hx, store_field_of_not_within _ _ (by decide) hx,
    store_field_of_not_within _ _ (by decide) hx]

/-- The fields written do not touch the descriptor that they come from. -/
lemma descriptor_store {m : Bytes} {outPtr mapPtr i : UInt64} {k : Nat} (v : Nat)
    (h : ∀ x, Within mapPtr sizeOfDescriptor x → ¬ Within outPtr 24 x) (hi : i.toNat + k ≤ 24) :
    descriptor (store m (outPtr + i) k v) mapPtr = descriptor m mapPtr :=
  descriptor_congr fun x hx => store_field_of_not_within m v hi (h x hx)

lemma entry_writeEntry {m : Bytes} {outPtr mapPtr : UInt64}
    (h : ∀ x, Within mapPtr sizeOfDescriptor x → ¬ Within outPtr 24 x) :
    entry (writeEntry m outPtr mapPtr) outPtr = (descriptor m mapPtr).translate := by
  have hd := fun {m' : Bytes} {i : UInt64} {k : Nat} (v : Nat) (hi : i.toNat + k ≤ 24) =>
    descriptor_store (m := m') v h hi
  simp (disch := decide) only [writeEntry, entry, hd, load64_store_field, load32_store_field,
    load64_store, load32_store, load32_store_nat]
  rfl

/-! ## The loop -/

/-- The entries of the rounds left are written, nothing else. -/
lemma writeEntries_of_not_within {n : Nat} (m : Bytes) (mapPtr stride : UInt64) {outPtr x : UInt64}
    (hx : ¬ Within outPtr (n * 24) x) : writeEntries stride n m outPtr mapPtr x = m x := by
  induction n generalizing m outPtr mapPtr with
  | zero => rfl
  | succ n ih =>
    have hfirst : ¬ Within outPtr 24 x := fun h => hx (Nat.lt_of_lt_of_le h (by omega))
    have hrest : ¬ Within (outPtr + 24) (n * 24) x := fun h => hx h.of_rest
    rw [writeEntries, ih _ _ hrest, writeEntry_of_not_within m mapPtr hfirst]

/-- Each round writes the entry of its descriptor, and the rounds after it leave both cursors' parts
alone. -/
lemma entry_writeEntries {n : Nat} {stride : UInt64} {m : Bytes} {outPtr mapPtr : UInt64}
    (hn : n * 24 < 2 ^ 64) (hstride : sizeOfDescriptor ≤ stride.toNat)
    (apart : ∀ x, Within mapPtr (n * stride.toNat) x → ¬ Within outPtr (n * 24) x) {i : Nat}
    (hi : i < n) :
    entry (writeEntries stride n m outPtr mapPtr) (outPtr + UInt64.ofNat (i * 24)) =
      (descriptor m (mapPtr + UInt64.ofNat (i * stride.toNat))).translate := by
  induction n generalizing m outPtr mapPtr i with
  | zero => exact absurd hi i.not_lt_zero
  | succ n ih =>
    have hfirst {k : Nat} (hk : k < n + 1) {x : UInt64}
        (hx : Within (mapPtr + UInt64.ofNat (k * stride.toNat)) sizeOfDescriptor x) :
        ¬ Within outPtr 24 x :=
      fun hout => apart x (hx.of_record hstride hk) (Nat.lt_of_lt_of_le hout (by omega))
    rw [writeEntries]
    cases i with
    | zero =>
      rw [add_ofNat_zero_mul, add_ofNat_zero_mul]
      have hrest : entry (writeEntries stride n (writeEntry m outPtr mapPtr) (outPtr + 24)
          (mapPtr + stride)) outPtr = entry (writeEntry m outPtr mapPtr) outPtr :=
        entry_congr fun x hx => writeEntries_of_not_within _ _ _ (hx.not_rest hn)
      rw [hrest]
      apply entry_writeEntry
      intro x hx
      apply hfirst n.succ_pos
      rwa [add_ofNat_zero_mul]
    | succ i =>
      have hout : outPtr + UInt64.ofNat ((i + 1) * 24) = outPtr + 24 + UInt64.ofNat (i * 24) :=
        add_ofNat_succ_mul outPtr 24 i
      rw [hout, add_ofNat_succ_mul, ih (by omega) _ (Nat.lt_of_succ_lt_succ hi)]
      · congr 1
        refine descriptor_congr fun x hx => writeEntry_of_not_within m mapPtr (hfirst hi ?_)
        rwa [add_ofNat_succ_mul]
      · exact fun x hx hx' => apart x hx.of_rest hx'.of_rest

/-! ## The map -/

/-- The types of memory that an OS may use. -/
def Usable (type : UInt32) : Prop :=
  type ∈ [efiConventionalMemory, efiLoaderCode, efiLoaderData, efiBootServicesCode,
    efiBootServicesData]

lemma e820Type_eq_one_iff (type : UInt32) : e820Type type = 1 ↔ Usable type := by
  rw [e820Type, Usable]
  simp only [List.mem_cons, List.not_mem_nil, or_false]
  split
  · rename_i h
    exact iff_of_true rfl h
  · rename_i h
    refine iff_of_false ?_ h
    split
    · decide
    · split <;> decide

/-- The entries are those of the descriptors in order, as many as there is room for. -/
structure MapOf (ds : List MemoryDescriptor) (capacity : UInt32) (e820MapBuffer : UInt64)
    (r : E820Result) : Prop where
  count : r.mapCount.toNat = min (ds.length % 2 ^ 32) capacity.toNat
  entries : ∀ i (hi : i < ds.length), i < r.mapCount.toNat →
    entry r.mem (e820MapBuffer + UInt64.ofNat (i * 24)) = ds[i].translate
  usable : ∀ i (hi : i < ds.length), i < r.mapCount.toNat →
    ((entry r.mem (e820MapBuffer + UInt64.ofNat (i * 24))).e820Type = 1 ↔ Usable ds[i].type)

section
variable {answer : MapAnswer} {mem : Bytes} {memoryMap e820MapBuffer : UInt64} {mapCount : UInt32}
  {ds : List MemoryDescriptor} (h : Delivers answer mem memoryMap e820MapBuffer mapCount ds)
include h

lemma Delivers.count :
    (populate answer mem memoryMap e820MapBuffer mapCount).mapCount.toNat =
      min (ds.length % 2 ^ 32) mapCount.toNat := by
  have hcount : (answer.mapSize / answer.descriptorSize).toUInt32.toNat = ds.length % 2 ^ 32 := by
    have hpos : 0 < answer.descriptorSize.toNat := Nat.lt_of_lt_of_le (by decide) h.stride
    rw [UInt64.toNat_toUInt32, UInt64.toNat_div, h.size, Nat.mul_div_cancel _ hpos]
  rw [populate, ← hcount]
  split
  · rename_i hgt
    exact (Nat.min_eq_right (Nat.le_of_lt (UInt32.lt_iff_toNat_lt.mp hgt))).symm
  · rename_i hgt
    exact (Nat.min_eq_left (Nat.le_of_not_lt fun hlt => hgt (UInt32.lt_iff_toNat_lt.mpr hlt))).symm

lemma Delivers.entries {i : Nat} (hi : i < ds.length)
    (hcount : i < (populate answer mem memoryMap e820MapBuffer mapCount).mapCount.toNat) :
    entry (populate answer mem memoryMap e820MapBuffer mapCount).mem
      (e820MapBuffer + UInt64.ofNat (i * 24)) = ds[i].translate := by
  have hmin := h.count
  generalize hr : populate answer mem memoryMap e820MapBuffer mapCount = r at *
  have hmem : r.mem = writeEntries answer.descriptorSize r.mapCount.toNat
      (store mem e820MapBuffer (r.mapCount * 24).toNat 0) e820MapBuffer memoryMap := by
    rw [← hr]
    rfl
  have hcap : r.mapCount.toNat ≤ mapCount.toNat := hmin ▸ Nat.min_le_right ..
  have hlen : r.mapCount.toNat ≤ ds.length :=
    hmin ▸ Nat.le_trans (Nat.min_le_left ..) (Nat.mod_le ..)
  have hlt := mapCount.toNat_lt
  have hapart : ∀ x, Within memoryMap (ds.length * answer.descriptorSize.toNat) x →
      ¬ Within e820MapBuffer (r.mapCount.toNat * 24) x :=
    fun x hx hout => h.apart x (h.size ▸ hx) (Nat.lt_of_lt_of_le hout (by omega))
  have hzeroed : (r.mapCount * 24).toNat ≤ r.mapCount.toNat * 24 := by
    rw [UInt32.toNat_mul]
    exact Nat.mod_le _ _
  rw [hmem, entry_writeEntries (by omega) h.stride _ hcount, ← h.holds i hi]
  · congr 1
    refine descriptor_congr fun x hx => store_of_not_within _ _ fun hout => ?_
    exact hapart x (hx.of_record h.stride hi) (Nat.lt_of_lt_of_le hout hzeroed)
  · intro x hx
    apply hapart x
    exact Nat.lt_of_lt_of_le hx (Nat.mul_le_mul_right _ hlen)

lemma Delivers.mapOf :
    MapOf ds mapCount e820MapBuffer (populate answer mem memoryMap e820MapBuffer mapCount) where
  count := h.count
  entries i hi hcount := h.entries hi hcount
  usable i hi hcount := by
    rw [h.entries hi hcount]
    exact e820Type_eq_one_iff _

end

/-- A call that fails leaves the count as it is, and one that succeeds populates the buffer. -/
lemma csmEmulateInt15E820_cases {gBS : BootServices} {mem : Bytes} {e820MapBuffer : UInt64}
    {mapCount : UInt32} {ds : List MemoryDescriptor}
    (h : Answers gBS mem e820MapBuffer mapCount ds) :
    (csmEmulateInt15E820 gBS mem e820MapBuffer mapCount).status.isError = true ∧
        (csmEmulateInt15E820 gBS mem e820MapBuffer mapCount).mapCount = mapCount ∨
      ∃ answer mem' memoryMap, Delivers answer mem' memoryMap e820MapBuffer mapCount ds ∧
        csmEmulateInt15E820 gBS mem e820MapBuffer mapCount =
          populate answer mem' memoryMap e820MapBuffer mapCount := by
  rw [csmEmulateInt15E820, if_neg (not_not_intro h.query)]
  dsimp only
  split
  · exact .inl ⟨rfl, rfl⟩
  · split
    · rename_i herror
      exact .inl ⟨herror, rfl⟩
    · rename_i herror
      exact .inr ⟨_, _, _, h.data (Bool.not_eq_true _ ▸ herror), rfl⟩

/-- A call that succeeds gives the map, clamped to the capacity. -/
theorem e820_clamped (gBS : BootServices) (mem : Bytes) (e820MapBuffer : UInt64) (mapCount : UInt32)
    (ds : List MemoryDescriptor) (h : Answers gBS mem e820MapBuffer mapCount ds)
    (hs : (csmEmulateInt15E820 gBS mem e820MapBuffer mapCount).status = .success) :
    MapOf ds mapCount e820MapBuffer (csmEmulateInt15E820 gBS mem e820MapBuffer mapCount) := by
  rcases csmEmulateInt15E820_cases h with ⟨herror, _⟩ | ⟨answer, mem', memoryMap, hdata, heq⟩
  · rw [hs] at herror
    cases herror
  · rw [heq]
    exact hdata.mapOf

/-- 512 KiB of conventional memory, then 64 KiB of ACPI tables. -/
def twoDescriptors : List MemoryDescriptor :=
  [⟨efiConventionalMemory, 0, 0x80⟩, ⟨efiACPIReclaimMemory, 0x80000, 0x10⟩]

/-- A firmware that puts them 48 bytes apart at 1 MiB. -/
def firmware : BootServices where
  sizeQuery := ⟨.bufferTooSmall, 96, 48⟩
  allocateZeroPool size mem :=
    (0x100000, fun a => if (a - 0x100000).toNat < size.toNat then 0 else mem a)
  dataQuery _ _ mem :=
    (⟨.success, 96, 48⟩, fun a =>
      if a = 0x100000 then 7
      else if a = 0x100018 then 0x80
      else if a = 0x100030 then 9
      else if a = 0x10003A then 8
      else if a = 0x100048 then 0x10
      else if (a - 0x100000).toNat < 96 then 0
      else mem a)

lemma firmware_answers {mapCount : UInt32} (h : mapCount ≤ 8) :
    Answers firmware (fun _ => 0) 0x90000 mapCount twoDescriptors where
  query := rfl
  data _ :=
    { stride := by decide
      size := rfl
      holds := by
        intro i hi
        match i, hi with
        | 0, _ => rfl
        | 1, _ => rfl
      apart := by
        intro x hx
        have hle := UInt32.le_iff_toNat_le.mp h
        have hcap : 24 * mapCount.toNat ≤ 192 := Nat.mul_le_mul_left 24 hle
        exact hx.not_within (by decide) (Nat.le_trans (Nat.add_le_add_left hcap _) (by decide))
          (.inr (Nat.le_trans (Nat.add_le_add_left hcap _) (by decide))) }

/-- With room for both the map has two entries, and the first one is usable. -/
theorem e820_two :
    MapOf twoDescriptors 8 0x90000 (csmEmulateInt15E820 firmware (fun _ => 0) 0x90000 8) :=
  e820_clamped firmware (fun _ => 0) 0x90000 8 twoDescriptors (firmware_answers (by decide)) rfl

/-- With room for one only the call succeeds and says that there is one. -/
theorem e820_incomplete :
    Answers firmware (fun _ => 0) 0x90000 1 twoDescriptors ∧
      (csmEmulateInt15E820 firmware (fun _ => 0) 0x90000 1).status = .success ∧
      (csmEmulateInt15E820 firmware (fun _ => 0) 0x90000 1).mapCount.toNat ≠
        twoDescriptors.length := by
  refine ⟨firmware_answers (by decide), rfl, ?_⟩
  decide

end Bemi.Csm
