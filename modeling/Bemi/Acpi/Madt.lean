import Bemi.Efi
import Bemi.Lib.Stream
import Mathlib.Data.Fintype.Card

/-!
# MADT

Model of `AcpiInitTables` in `hwcompat/acpi/AcpiTables.c`: the bytes of the table, with the structures
of the ACPI headers (44 bytes for the header of the MADT, 8 for a local APIC and 12 for an I/O APIC).
`madt_wellFormed_iff` has the CPU counts for which the table is well formed.
-/

namespace Bemi.Acpi
open Stream

structure AcpiDescriptionHeader where
  signature : UInt32
  length : UInt32
  revision : UInt8
  checksum : UInt8
  oemId : Vector UInt8 6
  oemTableId : UInt64
  oemRevision : UInt32
  creatorId : UInt32
  creatorRevision : UInt32

structure MadtTableHeader where
  header : AcpiDescriptionHeader
  localApicAddress : UInt32
  flags : UInt32

def AcpiDescriptionHeader.bytes (h : AcpiDescriptionHeader) : List UInt8 :=
  leBytes 4 h.signature.toNat ++ (leBytes 4 h.length.toNat ++ (h.revision :: h.checksum ::
    (h.oemId.toList ++ leBytes 8 h.oemTableId.toNat ++ leBytes 4 h.oemRevision.toNat ++
      leBytes 4 h.creatorId.toNat ++ leBytes 4 h.creatorRevision.toNat)))

def MadtTableHeader.bytes (h : MadtTableHeader) : List UInt8 :=
  h.header.bytes ++ (leBytes 4 h.localApicAddress.toNat ++ leBytes 4 h.flags.toNat)

/-- The structures behind the header. -/
inductive MadtEntry where
  | processorLocalApic (type length acpiProcessorId apicId : UInt8) (flags : UInt32)
  | ioApic (type length ioApicId : UInt8) (ioApicAddress globalSystemInterruptBase : UInt32)

def MadtEntry.bytes : MadtEntry → List UInt8
  | processorLocalApic type length acpiProcessorId apicId flags =>
    type :: length :: acpiProcessorId :: apicId :: leBytes 4 flags.toNat
  | ioApic type length ioApicId ioApicAddress globalSystemInterruptBase =>
    type :: length :: ioApicId :: 0 ::
      (leBytes 4 ioApicAddress.toNat ++ leBytes 4 globalSystemInterruptBase.toNat)

def acpiCalcChecksum (buffer : List UInt8) (size : UInt64) : UInt8 :=
  let sum := (buffer.take size.toNat).foldl (· + ·) 0
  UInt8.ofNat (256 - sum.toNat)

/-! ## The table -/

section
variable (cpuCount : UInt32)

def madtSize : UInt64 := 44 + cpuCount.toUInt64 * 8 + 12

def madtHeader (checksum : UInt8) : MadtTableHeader where
  header :=
    { signature := 0x43495041
      length := (madtSize cpuCount).toUInt32
      revision := 3
      checksum := checksum
      oemId := #v[0x42, 0x45, 0x4D, 0x49, 0x20, 0x20]
      oemTableId := 0x534F4942494D4542
      oemRevision := 1
      creatorId := 0x494D4542
      creatorRevision := 1 }
  localApicAddress := 0xFEE00000
  flags := 1

/-- `i` and `CpuCount` are cut down to bytes. -/
def madtEntries : List MadtEntry :=
  (List.range cpuCount.toNat).map
      (fun i => .processorLocalApic 0 8 (UInt8.ofNat i) (UInt8.ofNat i) 1) ++
    [.ioApic 1 12 cpuCount.toUInt8 0xFEC00000 0]

def madtWith (checksum : UInt8) : List UInt8 :=
  (madtHeader cpuCount checksum).bytes ++ (madtEntries cpuCount).flatMap MadtEntry.bytes

/-- The table that is installed. -/
def madt : List UInt8 :=
  madtWith cpuCount (acpiCalcChecksum (madtWith cpuCount 0) (madtSize cpuCount))

end

/-- What the firmware does in a call of `AcpiInitTables`. -/
structure AcpiFirmware where
  allocated : Bool
  locateProtocol : EfiStatus
  installAcpiTable : EfiStatus
  installConfigurationTable : EfiStatus

/-- The table handed to the firmware, if any, and the status. -/
def acpiInitTables (firmware : AcpiFirmware) (cpuCount : UInt32) : Option (List UInt8) × EfiStatus :=
  if ¬ firmware.allocated then (none, .outOfResources)
  else if ¬ firmware.locateProtocol.isError then (some (madt cpuCount), firmware.installAcpiTable)
  else (some (madt cpuCount), firmware.installConfigurationTable)

/-- Whatever the firmware does with it, the table is `madt`. -/
lemma acpiInitTables_fst (firmware : AcpiFirmware) (cpuCount : UInt32) :
    (acpiInitTables firmware cpuCount).1 =
      if firmware.allocated then some (madt cpuCount) else none := by
  rw [acpiInitTables]
  split_ifs <;> rfl

/-! ## Well-formed tables -/

structure MadtRecord where
  type : UInt8
  body : List UInt8

/-- A record that fits into what is left of the table. -/
def readRecord : Decoder UInt8 MadtRecord := fun _ bytes =>
  match bytes with
  | type :: length :: rest =>
    if 2 ≤ length.toNat ∧ length.toNat ≤ rest.length + 2 then
      some (⟨type, rest.take (length.toNat - 2)⟩, length.toNat)
    else none
  | _ => none

/-- `Header.Length`. -/
def headerLength (table : List UInt8) : Nat := leNumber ((table.drop 4).take 4)

/-- The records from the end of the header to `Header.Length`. -/
def walk (table : List UInt8) : Option (List MadtRecord) :=
  decodeAll readRecord table.length 44 ((table.take (headerLength table)).drop 44)

def localApicIds (records : List MadtRecord) : List UInt8 :=
  (records.filter (·.type = 0)).map (·.body.getD 1 0)

def ioApicIds (records : List MadtRecord) : List UInt8 :=
  (records.filter (·.type = 1)).map (·.body.getD 0 0)

/-- The table is as long as its header says, its bytes add up to zero, and it has one local APIC for
each CPU and one I/O APIC, with different identifiers. -/
structure WellFormed (cpuCount : Nat) (table : List UInt8) : Prop where
  checksum : (table.map UInt8.toNat).sum % 256 = 0
  length : headerLength table = table.length
  records : ∃ records, walk table = some records ∧ (localApicIds records).length = cpuCount ∧
    (ioApicIds records).length = 1 ∧ (localApicIds records ++ ioApicIds records).Nodup

/-! ## Checksum -/

lemma toNat_foldl_add (bytes : List UInt8) (a : UInt8) :
    (bytes.foldl (· + ·) a).toNat = (a.toNat + (bytes.map UInt8.toNat).sum) % 256 := by
  induction bytes generalizing a with
  | nil => exact (Nat.mod_eq_of_lt a.toNat_lt).symm
  | cons b bytes ih =>
    rw [List.foldl_cons, ih, UInt8.toNat_add, List.map_cons, List.sum_cons]
    omega

lemma toNat_acpiCalcChecksum {buffer : List UInt8} {size : UInt64}
    (h : buffer.length = size.toNat) :
    (acpiCalcChecksum buffer size).toNat = (256 - (buffer.map UInt8.toNat).sum % 256) % 256 := by
  rw [acpiCalcChecksum, List.take_of_length_le (Nat.le_of_eq h)]
  rw [UInt8.toNat_ofNat', toNat_foldl_add, UInt8.toNat_zero, Nat.zero_add]

section
variable (cpuCount : UInt32)

/-- The checksum is a byte of its own. -/
lemma sum_madtWith (checksum : UInt8) :
    ((madtWith cpuCount checksum).map UInt8.toNat).sum =
      ((madtWith cpuCount 0).map UInt8.toNat).sum + checksum.toNat := by
  simp only [madtWith, MadtTableHeader.bytes, AcpiDescriptionHeader.bytes, madtHeader,
    List.map_append, List.map_cons, List.sum_append, List.sum_cons, UInt8.toNat_zero]
  omega

lemma length_entries : ((madtEntries cpuCount).flatMap MadtEntry.bytes).length =
    8 * cpuCount.toNat + 12 := by
  rw [madtEntries, List.flatMap_append, List.length_append, List.flatMap_map, List.length_flatMap]
  simp only [MadtEntry.bytes, List.length_cons, length_leBytes, List.map_const', List.sum_replicate_nat,
    List.length_range, List.flatMap_cons, List.flatMap_nil, List.length_append, List.length_nil]
  omega

lemma toNat_madtSize : (madtSize cpuCount).toNat = 44 + (8 * cpuCount.toNat + 12) := by
  have hlt := cpuCount.toNat_lt
  rw [madtSize, UInt64.toNat_add, UInt64.toNat_add, UInt64.toNat_mul, UInt32.toNat_toUInt64]
  change ((44 + cpuCount.toNat * 8 % 2 ^ 64) % 2 ^ 64 + 12) % 2 ^ 64 = _
  omega

lemma length_madtHeader (checksum : UInt8) : (madtHeader cpuCount checksum).bytes.length = 44 :=
  rfl

lemma length_madtWith (checksum : UInt8) :
    (madtWith cpuCount checksum).length = (madtSize cpuCount).toNat := by
  rw [madtWith, List.length_append, length_madtHeader, length_entries, toNat_madtSize]

/-- The bytes of the table add up to zero, whatever the CPU count. -/
lemma checksum_madt : ((madt cpuCount).map UInt8.toNat).sum % 256 = 0 := by
  rw [madt, sum_madtWith, toNat_acpiCalcChecksum (length_madtWith cpuCount 0)]
  omega

end

/-! ## Records -/

/-- The record that an entry is read as. -/
def MadtEntry.record (e : MadtEntry) : MadtRecord := ⟨e.bytes.headD 0, e.bytes.drop 2⟩

lemma readRecord_append {type length : UInt8} {body : List UInt8}
    (h : length.toNat = body.length + 2) (pos : Nat) (rest : List UInt8) :
    readRecord pos (type :: length :: (body ++ rest)) = some (⟨type, body⟩, body.length + 2) := by
  have hfits : 2 ≤ length.toNat ∧ length.toNat ≤ (body ++ rest).length + 2 := by
    rw [h, List.length_append]
    omega
  rw [readRecord, if_pos hfits, h, Nat.add_sub_cancel, List.take_left' rfl]

/-- Every entry is as long as it says. -/
lemma reads_entries (cpuCount : UInt32) (pos : Nat) :
    Reads readRecord MadtEntry.bytes MadtEntry.record pos (madtEntries cpuCount) := by
  apply Reads.of_forall
  intro e he
  rcases List.mem_append.mp he with hlocal | hio
  · obtain ⟨i, -, rfl⟩ := List.mem_map.mp hlocal
    exact ⟨List.cons_ne_nil _ _, fun pos rest => readRecord_append rfl pos rest⟩
  · rw [List.mem_singleton.mp hio]
    exact ⟨List.cons_ne_nil _ _, fun pos rest => readRecord_append rfl pos rest⟩

/-- The identifiers are those of the entries. -/
lemma ids_entries (cpuCount : UInt32) :
    localApicIds ((madtEntries cpuCount).map MadtEntry.record) =
        (List.range cpuCount.toNat).map UInt8.ofNat ∧
      ioApicIds ((madtEntries cpuCount).map MadtEntry.record) = [cpuCount.toUInt8] := by
  constructor
  · simp [localApicIds, madtEntries, MadtEntry.record, MadtEntry.bytes, List.filter_map,
      Function.comp_def]
  · simp [ioApicIds, madtEntries, MadtEntry.record, MadtEntry.bytes, List.filter_map,
      Function.comp_def]

/-- The length in the header has room for a count of this size. -/
lemma headerLength_madt {cpuCount : UInt32} (h : cpuCount.toNat ≤ 255) :
    headerLength (madt cpuCount) = (madt cpuCount).length := by
  rw [headerLength, madt, length_madtWith, madtWith, MadtTableHeader.bytes,
    AcpiDescriptionHeader.bytes]
  simp only [List.append_assoc]
  rw [List.drop_left' (length_leBytes 4 _), List.take_left' (length_leBytes 4 _), leNumber_leBytes]
  change (madtSize cpuCount).toUInt32.toNat % 256 ^ 4 = _
  rw [UInt64.toNat_toUInt32, toNat_madtSize]
  omega

lemma walk_madt {cpuCount : UInt32} (h : cpuCount.toNat ≤ 255) :
    walk (madt cpuCount) = some ((madtEntries cpuCount).map MadtEntry.record) := by
  rw [walk, headerLength_madt h, List.take_length, madt, madtWith, List.drop_left' (length_madtHeader _ _)]
  apply decodeAll_flatMap (reads_entries cpuCount 44)
  rw [List.length_append]
  exact Nat.le_add_left _ _

/-- There are not enough bytes for more CPUs and the I/O APIC. -/
lemma cpuCount_le {cpuCount : Nat} {table : List UInt8} (h : WellFormed cpuCount table) :
    cpuCount ≤ 255 := by
  obtain ⟨records, -, hlocal, hio, hnodup⟩ := h.records
  have hinjective : Function.Injective UInt8.toFin := fun a b => UInt8.toFin_inj.mp
  have hcard := (hnodup.map hinjective).length_le_card
  rw [List.length_map, List.length_append, hlocal, hio, Fintype.card_fin] at hcard
  have hsize : UInt8.size = 256 := rfl
  omega

lemma madt_wellFormed {cpuCount : UInt32} (h : cpuCount.toNat ≤ 255) :
    WellFormed cpuCount.toNat (madt cpuCount) := by
  obtain ⟨hlocal, hio⟩ := ids_entries cpuCount
  refine ⟨checksum_madt cpuCount, headerLength_madt h, _, walk_madt h, ?_, ?_, ?_⟩
  · rw [hlocal, List.length_map, List.length_range]
  · rw [hio, List.length_singleton]
  · have hlast : cpuCount.toUInt8 = UInt8.ofNat cpuCount.toNat := by
      apply UInt8.toNat_inj.mp
      rw [UInt32.toNat_toUInt8, UInt8.toNat_ofNat']
    rw [hlocal, hio, hlast, ← List.map_singleton, ← List.map_append, ← List.range_succ]
    refine List.Nodup.map_on (fun i hi j hj heq => ?_) List.nodup_range
    have hi := List.mem_range.mp hi
    have hj := List.mem_range.mp hj
    have hnat := congrArg UInt8.toNat heq
    rw [UInt8.toNat_ofNat', UInt8.toNat_ofNat'] at hnat
    omega

/-- The table is well formed up to 255 CPUs. -/
theorem madt_wellFormed_iff (cpuCount : UInt32) :
    WellFormed cpuCount.toNat (madt cpuCount) ↔ cpuCount.toNat ≤ 255 :=
  ⟨cpuCount_le, madt_wellFormed⟩

/-- With 256 CPUs the I/O APIC gets the identifier of the first one. -/
theorem not_wellFormed_256 : ¬ WellFormed 256 (madt 256) :=
  fun h => absurd (cpuCount_le h) (by decide)

end Bemi.Acpi
