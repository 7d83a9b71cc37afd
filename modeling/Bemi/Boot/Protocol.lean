import Bemi.Efi
import Bemi.Lib.Ownership

/-!
# Looking for a boot sector

Model of `BootProtocolScanAndLoad` of `legacy/boot/BootProtocol.c`. The block devices of the system are a
parameter, in the order in which `LocateHandleBuffer` lists their handles, and so are the requests that
the pool refuses. A block of memory is known by the number of its request.
-/

namespace Bemi.Boot
open Program Prog Ownership

/-! ## Block devices -/

/-- `EFI_BLOCK_IO_PROTOCOL` of a handle: what `HandleProtocol` answers, the media, and what comes of a
transfer. -/
structure BlockIo where
  handleProtocol : EfiStatus
  logicalPartition : Bool
  mediaId : UInt32
  blockSize : UInt32
  readBlocks : UInt32 → UInt64 → (size : Nat) → EfiStatus × Vector UInt8 size
  writeBlocks : UInt32 → UInt64 → (size : Nat) → EfiStatus

/-- `LocateHandleBuffer`: the buffer of the handles, from the pool. -/
def locateHandleBuffer (devices : List BlockIo) : Prog Pool (EfiStatus × Option ℕ) :=
  if devices = [] then pure (.notFound, none)
  else do
    match ← alloc with
    | none => pure (.outOfResources, none)
    | some handles => pure (.success, some handles)

/-- Sector 0, in a buffer of 4 KB. -/
def BlockIo.sector (d : BlockIo) : EfiStatus × Vector UInt8 4096 := d.readBlocks d.mediaId 0 4096

/-- `*(UINT16 *)((UINT8 *)buffer + 510)`. -/
def signature (buffer : Vector UInt8 4096) : UInt16 :=
  buffer[510].toUInt16 ||| buffer[511].toUInt16 <<< 8

/-! ## The scan -/

/-- The boot sector and the buffer that it is in. -/
structure Image where
  bootBuffer : ℕ
  contents : Vector UInt8 4096

structure ScanResult where
  status : EfiStatus
  image : Option Image

def ScanResult.blocks (r : ScanResult) : List ℕ := (r.image.map Image.bootBuffer).toList

/-- The body of the loop, with the result if the routine returns in it. -/
def scanDevice (handles : ℕ) (blockIo : BlockIo) : Prog Pool (Option ScanResult) :=
  -- skip logical partitions, we want the MBR of a physical disk
  if blockIo.handleProtocol.isError ∨ blockIo.logicalPartition then pure none
  else do
    match ← alloc with
    | none => do
      free handles
      pure (some ⟨.outOfResources, none⟩)
    | some buffer =>
      if ¬ blockIo.sector.1.isError ∧ signature blockIo.sector.2 = 0xAA55 then do
        free handles
        pure (some ⟨.success, some ⟨buffer, blockIo.sector.2⟩⟩)
      else do
        free buffer
        pure none

/-- The flags say whether the pointers for the buffer and for its size are there. -/
def bootProtocolScanAndLoad (bootBuffer bufferSize : Bool) (devices : List BlockIo) :
    Prog Pool ScanResult :=
  if ¬ bootBuffer ∨ ¬ bufferSize then pure ⟨.invalidParameter, none⟩
  else do
    match ← locateHandleBuffer devices with
    | (_, none) => pure ⟨.notFound, none⟩
    | (_, some handles) => do
      match ← firstSome (scanDevice handles) devices with
      | some result => pure result
      | none => do
        free handles
        pure ⟨.notFound, none⟩

/-! ## What the scan owns -/

/-- A physical disk with a boot sector. -/
def BlockIo.Bootable (d : BlockIo) : Prop :=
  d.handleProtocol.isError = false ∧ d.logicalPartition = false ∧ d.sector.1.isError = false ∧
    signature d.sector.2 = 0xAA55

/-- The first disk with a boot sector, and its sector 0. -/
def FirstBootable (devices : List BlockIo) (contents : Vector UInt8 4096) : Prop :=
  ∃ pre d post, devices = pre ++ d :: post ∧ (∀ e ∈ pre, ¬ e.Bootable) ∧ d.Bootable ∧
    contents = d.sector.2

/-- The scan ends with the first boot sector, or with an error; the errors apart from that of a pointer
missing say that there is no boot sector or that the pool has refused one of the scan's requests. -/
def Scanned (pointers : Bool) (devices : List BlockIo) (r : ScanResult) (refused : Prop) : Prop :=
  match r.image with
  | some i => r.status = .success ∧ pointers = true ∧ FirstBootable devices i.contents
  | none =>
    r.status = .invalidParameter ∧ pointers = false ∨ r.status = .outOfResources ∧ refused ∨
      r.status = .notFound ∧ ((∀ d ∈ devices, ¬ d.Bootable) ∨ refused)

lemma locateHandleBuffer_spec (devices : List BlockIo) :
    Spec ∅ (locateHandleBuffer devices) fun r S refused =>
      match r.2 with
      | some handles => S = {handles} ∧ devices ≠ []
      | none => S = ∅ ∧ (devices = [] ∨ refused) := by
  refine Spec.ite (fun h => Spec.pure _ ⟨rfl, .inl h⟩) fun hsome => Spec.alloc.bind ?_
  rintro (_ | handles) S refused ⟨rfl, hrefused⟩
  · exact Spec.pure _ ⟨rfl, .inr (.inl (hrefused rfl))⟩
  · exact Spec.pure _ ⟨rfl, hsome⟩

/-- How a device ends the scan. -/
def EndsScan (d : BlockIo) (r : ScanResult) (kept : Finset ℕ) (refused : Prop) : Prop :=
  match r.image with
  | some i =>
    r.status = .success ∧ d.Bootable ∧ i.contents = d.sector.2 ∧ kept = {i.bootBuffer}
  | none => r.status = .outOfResources ∧ refused ∧ kept = ∅

/-- The body gives back the buffer of a disk without a boot sector, and the handles if it returns. -/
lemma scanDevice_spec (handles : ℕ) (d : BlockIo) :
    Spec {handles} (scanDevice handles d)
      (Round {handles} (¬ d.Bootable) (EndsScan d)) := by
  refine Spec.ite (fun hskip => Spec.pure _ ⟨fun hb => ?_, rfl⟩) fun hdisk => ?_
  · obtain ⟨hprotocol, hpartition, -⟩ := hb
    rw [hprotocol, hpartition] at hskip
    exact hskip.elim nofun nofun
  refine (Spec.alloc_insert {handles}).bind ?_
  rintro (_ | buffer) S refused ⟨hS, hS'⟩
  · rw [hS]
    refine (Spec.free handles).bind ?_
    rintro - S - rfl
    exact Spec.pure _ ⟨rfl, .inl hS', rfl⟩
  · have hne : handles ∉ ({buffer} : Finset ℕ) := by
      rwa [Finset.mem_singleton, eq_comm, ← Finset.mem_singleton]
    rw [hS']
    refine Spec.ite (fun hboot => ?_) fun hboot => ?_
    · -- the handles are given back, the buffer goes to the caller
      rw [Finset.pair_comm]
      refine (Spec.free_insert hne).bind ?_
      rintro - S - rfl
      refine Spec.pure _ ⟨rfl, ?_, rfl, rfl⟩
      simp only [not_or, Bool.not_eq_true] at hdisk hboot
      exact ⟨hdisk.1, hdisk.2, hboot.1, hboot.2⟩
    · refine (Spec.free_insert hS).bind ?_
      rintro - S - rfl
      refine Spec.pure _ ⟨fun hb => hboot ⟨?_, hb.2.2.2⟩, rfl⟩
      rw [hb.2.2.1]
      nofun

lemma scan_spec (bootBuffer bufferSize : Bool) (devices : List BlockIo) :
    Spec ∅ (bootProtocolScanAndLoad bootBuffer bufferSize devices)
      (Owns ScanResult.blocks (Scanned (bootBuffer && bufferSize) devices)) := by
  refine Spec.ite (fun hnull => ?_) fun hpointers => ?_
  · have hmissing : (bootBuffer && bufferSize) = false := by
      simpa only [Bool.not_eq_true, ← Bool.and_eq_false_iff] using hnull
    exact Spec.pure _ (.nil rfl (.inl ⟨rfl, hmissing⟩))
  have hthere : (bootBuffer && bufferSize) = true := by
    simpa only [not_or, not_not, ← Bool.and_eq_true_iff] using hpointers
  refine (locateHandleBuffer_spec devices).bind ?_
  rintro ⟨status, _ | handles⟩ S refused hS
  · obtain ⟨rfl, hnone⟩ := hS
    refine Spec.pure _ (.nil rfl (.inr (.inr ⟨rfl, hnone.imp ?_ .inl⟩)))
    rintro rfl
    nofun
  · obtain ⟨rfl, -⟩ := hS
    refine (Spec.firstSome (scanDevice_spec handles) devices).bind ?_
    rintro (_ | ⟨status, _ | i⟩) S refused' hS
    · obtain ⟨hno, rfl⟩ := hS
      refine (Spec.free handles).bind ?_
      rintro - S - rfl
      exact Spec.pure _ (.nil rfl (.inr (.inr ⟨rfl, .inl hno⟩)))
    · obtain ⟨-, -, -, r, -, -, hr, rfl, hrefused, rfl⟩ := hS
      exact Spec.pure _ (.nil rfl (.inr (.inl ⟨rfl, .inr (.inl (hr hrefused))⟩)))
    · obtain ⟨pre, d, post, r, hsplit, hpre, -, rfl, hboot, hcontents, rfl⟩ := hS
      exact Spec.pure _ ⟨List.nodup_singleton _, rfl, rfl, hthere,
        ⟨pre, d, post, hsplit, hpre, hboot, hcontents⟩⟩

/-- Whatever is allocated already is left alone, and of what the scan allocates nothing is left but the
buffer of a boot sector that it has found, which is that of the first disk with one. -/
theorem bootProtocolScanAndLoad_first {p : Pool} (hp : p.Regular) (bootBuffer bufferSize : Bool)
    (devices : List BlockIo) :
    ∃ r p', exec (bootProtocolScanAndLoad bootBuffer bufferSize devices) p = (some r, p') ∧
      Scanned (bootBuffer && bufferSize) devices r (p.Refused p') ∧
      Disjoint r.blocks.toFinset p.live ∧ p'.live = r.blocks.toFinset ∪ p.live := by
  obtain ⟨r, p', S, hexec, -, hdisj, hlive, -, rfl, hscanned⟩ :=
    scan_spec bootBuffer bufferSize devices p p.live hp (Finset.disjoint_empty_left _)
      (Finset.empty_union _).symm
  exact ⟨r, p', hexec, hscanned, hdisj, hlive⟩

/-- A disk whose sector 0 has the signature. -/
def bootDisk (logicalPartition : Bool) : BlockIo where
  handleProtocol := .success
  logicalPartition := logicalPartition
  mediaId := 1
  blockSize := 512
  readBlocks _ _ _ :=
    (.success, .ofFn fun i => if i.val = 510 then 0x55 else if i.val = 511 then 0xAA else 0)
  writeBlocks _ _ _ := .success

lemma bootable_bootDisk : (bootDisk false).Bootable := by
  refine ⟨rfl, rfl, rfl, ?_⟩
  simp only [signature, BlockIo.sector, bootDisk, Vector.getElem_ofFn]
  rfl

/-- A partition, and the disk that it is on. The pool has refused a request before the scan, which finds
the boot sector all the same. -/
theorem bootProtocolScanAndLoad_partition :
    ∃ r p', exec (bootProtocolScanAndLoad true true [bootDisk true, bootDisk false])
        ⟨fun n => n != 3, 4, {1}⟩ = (some r, p') ∧
      r.status = .success ∧ 1 ∉ r.blocks ∧
      ∃ i, r.image = some i ∧ FirstBootable [bootDisk true, bootDisk false] i.contents := by
  obtain ⟨r, p', hexec, hscanned, hdisj, -⟩ :=
    bootProtocolScanAndLoad_first (p := ⟨fun n => n != 3, 4, {1}⟩) (by simp [Pool.Regular]) true true
      [bootDisk true, bootDisk false]
  have hgranted : ¬ Pool.Refused ⟨fun n => n != 3, 4, {1}⟩ p' := by
    rintro ⟨n, hle, -, hn⟩
    have hthree : n = 3 := by simpa using hn
    exact absurd hle (by rw [hthree]; decide)
  have hnew : 1 ∉ r.blocks := fun h =>
    Finset.disjoint_left.mp hdisj (List.mem_toFinset.mpr h) (Finset.mem_singleton_self 1)
  rw [Scanned] at hscanned
  cases himage : r.image with
  | some i =>
    rw [himage] at hscanned
    exact ⟨r, p', hexec, hscanned.1, hnew, i, himage, hscanned.2.2⟩
  | none =>
    rw [himage] at hscanned
    obtain ⟨-, hnull⟩ | ⟨-, hrefused⟩ | ⟨-, hno | hrefused⟩ := hscanned
    · cases hnull
    · exact absurd hrefused hgranted
    · exact absurd bootable_bootDisk (hno _ (by simp))
    · exact absurd hrefused hgranted

end Bemi.Boot
