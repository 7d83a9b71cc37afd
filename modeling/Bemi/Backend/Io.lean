import Bemi.Backend.CrAccess
import Bemi.Lib.Bits

/-!
# Port I/O exits

`HandleIoExit` of `hypervisor/common/hypervisorbackend.c`. The processor's `IN` and `OUT` are a
parameter: what a port answers, and a log of the accesses. The handler writes to no port but the
serial one, reads four bytes from none (the size is encoded as 3, not as 2), and treats every access
to the serial port as one of a byte. `io_iff` has the exits that are emulated all the same.
-/

namespace Bemi.Backend
open Bemi.Vmx

/-- What the ports answer. -/
structure IoPorts where
  ioRead8 : UInt16 → UInt8
  ioRead16 : UInt16 → UInt16
  ioRead32 : UInt16 → UInt32

inductive IoAccess where
  | ioRead8 (port : UInt16)
  | ioRead16 (port : UInt16)
  | ioRead32 (port : UInt16)
  | ioWrite8 (port : UInt16) (value : UInt8)
  | ioWrite16 (port : UInt16) (value : UInt16)
  | ioWrite32 (port : UInt16) (value : UInt32)
  deriving DecidableEq, Repr

/-- `HandleIoExit`, with the accesses to the ports. -/
def handleIoExit (ports : IoPorts) (info : VmExitInfo) (g : GuestState) :
    GuestState × List IoAccess × EfiStatus :=
  let port := (info.exitQualification >>> 16).toUInt16 &&& 0xFFFF
  let isWrite : Bool := (info.exitQualification &&& 0x08) = 0
  let size := (info.exitQualification &&& 0x07).toUInt8
  let rax := g.gpr .rax
  if port = 0x3F8 then
    if isWrite then (g.advance info, [.ioWrite8 port (rax &&& 0xFF).toUInt8], .success)
    else
      ((g.setGpr .rax (ports.ioRead8 port).toUInt64).advance info, [.ioRead8 port], .success)
  else
    let (g, accesses) :=
      if size = 0 ∧ ¬ isWrite then
        (g.setGpr .rax ((rax &&& ~~~(0xFF : UInt64)) ||| ((ports.ioRead8 port).toUInt64 &&& 0xFF)),
          [IoAccess.ioRead8 port])
      else if size = 1 ∧ ¬ isWrite then
        (g.setGpr .rax
          ((rax &&& ~~~(0xFFFF : UInt64)) ||| ((ports.ioRead16 port).toUInt64 &&& 0xFFFF)),
          [.ioRead16 port])
      else if size = 2 ∧ ¬ isWrite then
        (g.setGpr .rax (ports.ioRead32 port).toUInt64, [.ioRead32 port])
      else (g, [])
    (g.advance info, accesses, .success)

/-! ## What an exit should do -/

inductive IoSize where
  | byte | word | dword
  deriving DecidableEq, Repr

/-- One less than the number of bytes. -/
def IoSize.code : IoSize → UInt64
  | .byte => 0
  | .word => 1
  | .dword => 3

/-- An `IN` or `OUT` between a port and AL, AX or EAX. -/
structure IoInstruction where
  port : UInt16
  isWrite : Bool
  size : IoSize
  deriving DecidableEq, Repr

namespace IoInstruction

/-- The qualification describes the instruction. -/
structure Describes (qualification : UInt64) (i : IoInstruction) : Prop where
  size : qualification &&& 0x07 = i.size.code
  isWrite : qualification &&& 0x08 = if i.isWrite then 0 else 8
  port : (qualification >>> 16).toUInt16 = i.port

def access (i : IoInstruction) (rax : UInt64) : IoAccess :=
  match i.isWrite, i.size with
  | true, .byte => .ioWrite8 i.port rax.toUInt8
  | true, .word => .ioWrite16 i.port rax.toUInt16
  | true, .dword => .ioWrite32 i.port rax.toUInt32
  | false, .byte => .ioRead8 i.port
  | false, .word => .ioRead16 i.port
  | false, .dword => .ioRead32 i.port

/-- RAX afterwards. -/
def result (ports : IoPorts) (i : IoInstruction) (rax : UInt64) : UInt64 :=
  match i.isWrite, i.size with
  | true, _ => rax
  | false, .byte => (rax &&& 0xFFFFFFFFFFFFFF00) ||| (ports.ioRead8 i.port).toUInt64
  | false, .word => (rax &&& 0xFFFFFFFFFFFF0000) ||| (ports.ioRead16 i.port).toUInt64
  | false, .dword => (ports.ioRead32 i.port).toUInt64

/-- One access of the size to the port, and what it answers in RAX. -/
def Emulated (ports : IoPorts) (i : IoInstruction) (g g' : GuestState)
    (accesses : List IoAccess) : Prop :=
  SameButRip (g.setGpr .rax (i.result ports (g.gpr .rax))) g' ∧ accesses = [i.access (g.gpr .rax)]

/-- Bytes to and from the serial port, the latter only where they leave nothing of RAX to keep;
bytes and words from any other. -/
def Handled (i : IoInstruction) (rax : UInt64) : Prop :=
  if i.port = 0x3F8 then i.size = .byte ∧ (i.isWrite ∨ rax &&& 0xFFFFFFFFFFFFFF00 = 0)
  else ¬ i.isWrite ∧ i.size ≠ .dword

end IoInstruction

/-! ## Values -/

lemma toUInt8_and (v : UInt64) : (v &&& 0xFF).toUInt8 = v.toUInt8 := by
  rw [UInt64.toUInt8_and]
  exact UInt8.and_neg_one

/-- A byte in RAX where its low byte was to be replaced. -/
lemma byte_eq_iff (rax : UInt64) (b : UInt8) :
    b.toUInt64 = (rax &&& 0xFFFFFFFFFFFFFF00) ||| b.toUInt64 ↔ rax &&& 0xFFFFFFFFFFFFFF00 = 0 := by
  constructor
  · intro h
    have hhigh : b.toUInt64 &&& 0xFFFFFFFFFFFFFF00 = 0 := by
      rw [← Bits.byte_and, UInt64.and_assoc]
      exact UInt64.and_zero
    calc rax &&& 0xFFFFFFFFFFFFFF00
        = ((rax &&& 0xFFFFFFFFFFFFFF00) ||| b.toUInt64) &&& 0xFFFFFFFFFFFFFF00 := by
          rw [Bits.and_or_right_64, hhigh, UInt64.and_assoc, UInt64.and_self, UInt64.or_zero]
      _ = b.toUInt64 &&& 0xFFFFFFFFFFFFFF00 := by rw [← h]
      _ = 0 := hhigh
  · intro h
    rw [h, UInt64.zero_or]

/-- Only RAX is written to. -/
lemma sameButRip_setGpr (g : GuestState) (r : Gpr) (v w : UInt64) (info : VmExitInfo) :
    SameButRip (g.setGpr r v) ((g.setGpr r w).advance info) ↔ w = v := by
  rw [sameButRip_iff (g.setGpr r v) (g.setGpr r w) ⟨rfl, rfl⟩]
  simp only [crOf_setGpr, implies_true, and_true]
  constructor
  · intro h
    have hr := congrFun h r
    rw [gpr_setGpr_self, gpr_setGpr_self] at hr
    exact hr
  · rintro rfl
    rfl

/-! ## The handler -/

section
variable {i : IoInstruction} {info : VmExitInfo} (h : i.Describes info.exitQualification)
  (ports : IoPorts) (g : GuestState)
include h

lemma isWrite_eq : decide (info.exitQualification &&& 0x08 = 0) = i.isWrite := by
  rw [h.isWrite]
  cases i.isWrite <;> rfl

lemma port_eq : (info.exitQualification >>> 16).toUInt16 &&& 0xFFFF = i.port := by
  rw [h.port]
  exact UInt16.and_neg_one

/-- The serial port. -/
lemma handleIoExit_serial (hport : i.port = 0x3F8) :
    handleIoExit ports info g =
      if i.isWrite then (g.advance info, [.ioWrite8 i.port (g.gpr .rax).toUInt8], .success)
      else ((g.setGpr .rax (ports.ioRead8 i.port).toUInt64).advance info, [.ioRead8 i.port],
        .success) := by
  rw [handleIoExit]
  dsimp only
  rw [isWrite_eq h, port_eq h, if_pos hport, toUInt8_and]

/-- Every other port. -/
lemma handleIoExit_other (hport : i.port ≠ 0x3F8) :
    handleIoExit ports info g =
      if ¬ i.isWrite ∧ i.size ≠ .dword then
        ((g.setGpr .rax (i.result ports (g.gpr .rax))).advance info, [i.access (g.gpr .rax)],
          .success)
      else (g.advance info, [], .success) := by
  rw [handleIoExit]
  dsimp only
  rw [isWrite_eq h, port_eq h, if_neg hport, h.size, Bits.byte_and, Bits.word_and, IoInstruction.result,
    IoInstruction.access]
  cases i.isWrite with
  | true => cases i.size <;> rfl
  | false => cases i.size <;> rfl

/-- The serial port is only accessed by bytes. -/
lemma size_of_emulated (hport : i.port = 0x3F8)
    (hemulated : i.Emulated ports g (handleIoExit ports info g).1 (handleIoExit ports info g).2.1) :
    i.size = .byte := by
  obtain ⟨-, hlog⟩ := hemulated
  rw [handleIoExit_serial h ports g hport, IoInstruction.access] at hlog
  cases hsize : i.size with
  | byte => rfl
  | word =>
    rw [hsize] at hlog
    cases hwrite : i.isWrite <;> simp [hwrite] at hlog
  | dword =>
    rw [hsize] at hlog
    cases hwrite : i.isWrite <;> simp [hwrite] at hlog

/-- The bytes of the serial port. -/
lemma io_serial_iff (hport : i.port = 0x3F8) (hsize : i.size = .byte) :
    i.Emulated ports g (handleIoExit ports info g).1 (handleIoExit ports info g).2.1 ↔
      i.isWrite ∨ g.gpr .rax &&& 0xFFFFFFFFFFFFFF00 = 0 := by
  rw [IoInstruction.Emulated, handleIoExit_serial h ports g hport, IoInstruction.result,
    IoInstruction.access, hsize]
  cases i.isWrite with
  | true =>
    have hkept : SameButRip (g.setGpr .rax (g.gpr .rax)) (g.advance info) := by
      rw [setGpr_self]
      exact ⟨_, rfl⟩
    exact iff_of_true ⟨hkept, rfl⟩ (.inl rfl)
  | false =>
    calc _ ↔ (ports.ioRead8 i.port).toUInt64 =
          (g.gpr .rax &&& 0xFFFFFFFFFFFFFF00) ||| (ports.ioRead8 i.port).toUInt64 :=
        (and_iff_left rfl).trans (sameButRip_setGpr _ _ _ _ _)
      _ ↔ g.gpr .rax &&& 0xFFFFFFFFFFFFFF00 = 0 := byte_eq_iff _ _
      _ ↔ _ := (or_iff_right Bool.false_ne_true).symm

/-- The exits that are emulated. -/
theorem io_iff :
    i.Emulated ports g (handleIoExit ports info g).1 (handleIoExit ports info g).2.1 ↔
      i.Handled (g.gpr .rax) := by
  rw [IoInstruction.Handled]
  split
  case isTrue hport =>
    constructor
    · intro hemulated
      have hsize := size_of_emulated h ports g hport hemulated
      exact ⟨hsize, (io_serial_iff h ports g hport hsize).mp hemulated⟩
    · rintro ⟨hsize, hhandled⟩
      exact (io_serial_iff h ports g hport hsize).mpr hhandled
  case isFalse hport =>
    rw [IoInstruction.Emulated, handleIoExit_other h ports g hport]
    split
    case isTrue hsize =>
      exact iff_of_true ⟨(sameButRip_setGpr _ _ _ _ _).mpr rfl, rfl⟩ hsize
    case isFalse hsize =>
      exact iff_of_false (fun hemulated => List.cons_ne_nil _ _ hemulated.2.symm) hsize

end

/-- An I/O exit of a one-byte instruction. -/
def ioExit (qualification : UInt64) : VmExitInfo := ⟨0x1E, qualification, 0, 0, 1, 0, 0⟩

def examplePorts : IoPorts := ⟨fun _ => 0x1C, fun _ => 0x1C, fun _ => 0x1C⟩

/-- `IN AL, 0x64` is emulated. -/
theorem io_byte_in :
    (⟨0x64, false, .byte⟩ : IoInstruction).Describes (ioExit 0x640008).exitQualification ∧
      (⟨0x64, false, .byte⟩ : IoInstruction).Emulated examplePorts exampleGuest
        (handleIoExit examplePorts (ioExit 0x640008) exampleGuest).1
        (handleIoExit examplePorts (ioExit 0x640008) exampleGuest).2.1 := by
  have h : (⟨0x64, false, .byte⟩ : IoInstruction).Describes (ioExit 0x640008).exitQualification :=
    ⟨by decide, by decide, by decide⟩
  exact ⟨h, (io_iff h examplePorts exampleGuest).mpr ⟨by decide, by decide⟩⟩

/-- `OUT 0x64, AL` is dropped. -/
theorem io_out_dropped :
    (⟨0x64, true, .byte⟩ : IoInstruction).Describes (ioExit 0x640000).exitQualification ∧
      ¬ (⟨0x64, true, .byte⟩ : IoInstruction).Emulated examplePorts exampleGuest
        (handleIoExit examplePorts (ioExit 0x640000) exampleGuest).1
        (handleIoExit examplePorts (ioExit 0x640000) exampleGuest).2.1 := by
  have h : (⟨0x64, true, .byte⟩ : IoInstruction).Describes (ioExit 0x640000).exitQualification :=
    ⟨by decide, by decide, by decide⟩
  refine ⟨h, ?_⟩
  rintro ⟨-, hlog⟩
  rw [handleIoExit_other h examplePorts exampleGuest (by decide), if_neg (by decide)] at hlog
  exact List.cons_ne_nil _ _ hlog.symm

end Bemi.Backend
