import Bemi.Dbt.Executor
import Bemi.Dbt.Translator
import Bemi.Lib.Parts

/-!
# x86 register operands

What the name of a general register stands for on x86: a part of one of the sixteen 64-bit
registers. `map_register` keeps the register and drops the part.
-/

namespace Bemi.Dbt
open Machine Parts

/-- The register and the part of it that an operand names. -/
def IcedRegister.view : IcedRegister → Option (Register × Part)
  | .al => some (.rax, .low8) | .cl => some (.rcx, .low8)
  | .dl => some (.rdx, .low8) | .bl => some (.rbx, .low8)
  | .ah => some (.rax, .high8) | .ch => some (.rcx, .high8)
  | .dh => some (.rdx, .high8) | .bh => some (.rbx, .high8)
  | .spl => some (.rsp, .low8) | .bpl => some (.rbp, .low8)
  | .sil => some (.rsi, .low8) | .dil => some (.rdi, .low8)
  | .r8l => some (.r8, .low8) | .r9l => some (.r9, .low8)
  | .r10l => some (.r10, .low8) | .r11l => some (.r11, .low8)
  | .r12l => some (.r12, .low8) | .r13l => some (.r13, .low8)
  | .r14l => some (.r14, .low8) | .r15l => some (.r15, .low8)
  | .ax => some (.rax, .low16) | .cx => some (.rcx, .low16)
  | .dx => some (.rdx, .low16) | .bx => some (.rbx, .low16)
  | .sp => some (.rsp, .low16) | .bp => some (.rbp, .low16)
  | .si => some (.rsi, .low16) | .di => some (.rdi, .low16)
  | .r8w => some (.r8, .low16) | .r9w => some (.r9, .low16)
  | .r10w => some (.r10, .low16) | .r11w => some (.r11, .low16)
  | .r12w => some (.r12, .low16) | .r13w => some (.r13, .low16)
  | .r14w => some (.r14, .low16) | .r15w => some (.r15, .low16)
  | .eax => some (.rax, .low32) | .ecx => some (.rcx, .low32)
  | .edx => some (.rdx, .low32) | .ebx => some (.rbx, .low32)
  | .esp => some (.rsp, .low32) | .ebp => some (.rbp, .low32)
  | .esi => some (.rsi, .low32) | .edi => some (.rdi, .low32)
  | .r8d => some (.r8, .low32) | .r9d => some (.r9, .low32)
  | .r10d => some (.r10, .low32) | .r11d => some (.r11, .low32)
  | .r12d => some (.r12, .low32) | .r13d => some (.r13, .low32)
  | .r14d => some (.r14, .low32) | .r15d => some (.r15, .low32)
  | .rax => some (.rax, .full) | .rcx => some (.rcx, .full)
  | .rdx => some (.rdx, .full) | .rbx => some (.rbx, .full)
  | .rsp => some (.rsp, .full) | .rbp => some (.rbp, .full)
  | .rsi => some (.rsi, .full) | .rdi => some (.rdi, .full)
  | .r8 => some (.r8, .full) | .r9 => some (.r9, .full)
  | .r10 => some (.r10, .full) | .r11 => some (.r11, .full)
  | .r12 => some (.r12, .full) | .r13 => some (.r13, .full)
  | .r14 => some (.r14, .full) | .r15 => some (.r15, .full)
  | .other _ => none

/-- The sixteen general registers. -/
def Register.isGeneral : Register → Bool
  | .rax | .rcx | .rdx | .rbx | .rsp | .rbp | .rsi | .rdi
  | .r8 | .r9 | .r10 | .r11 | .r12 | .r13 | .r14 | .r15 => true
  | _ => false

lemma view_spec {r : IcedRegister} {reg : Register} {p : Part} (h : r.view = some (reg, p)) :
    mapRegister r = reg ∧ reg.isGeneral = true := by
  cases r <;> cases h <;> exact ⟨rfl, rfl⟩

/-- A register without a view is no general register. -/
lemma mapRegister_of_view_none {r : IcedRegister} (h : r.view = none) :
    mapRegister r = .rNone := by
  cases r <;> first | rfl | cases h

lemma Register.isGeneral_ne {r : Register} (h : r.isGeneral = true) : r ≠ .rNone ∧ r ≠ .rFlags := by
  cases r <;> first | exact ⟨by decide, by decide⟩ | cases h

variable {M : Type*}

/-- The general registers hold what they did, but for `reg`, which holds `v`. -/
def OnlyWrites (e e' : Executor M) (reg : Register) (v : UInt64) : Prop :=
  e'.read reg = v ∧ ∀ r : Register, r.isGeneral = true → r ≠ reg → e'.read r = e.read r

lemma onlyWrites_write (e : Executor M) {reg : Register} (v : UInt64)
    (hreg : reg.isGeneral = true) : OnlyWrites e (e.write reg v) reg v :=
  ⟨RegisterFile.read_write_self _ _ (Register.isGeneral_ne hreg).1,
    fun _ _ hne => RegisterFile.read_write_ne _ _ hne.symm⟩

/-- Flags are not a general register. -/
lemma OnlyWrites.setFlags {e e' : Executor M} {reg : Register} {v : UInt64}
    (h : OnlyWrites e e' reg v) (hreg : reg.isGeneral = true) (flags : BemiWord) :
    OnlyWrites e (e'.setFlags flags) reg v := by
  have keep {r : Register} (hr : r.isGeneral = true) : (e'.setFlags flags).read r = e'.read r :=
    RegisterFile.read_write_ne _ _ (Register.isGeneral_ne hr).2.symm
  exact ⟨(keep hreg).trans h.1, fun r hr hne => (keep hr).trans (h.2 r hr hne)⟩

/-- Changing nothing is writing back what a register holds. -/
lemma onlyWrites_refl (e : Executor M) (reg : Register) : OnlyWrites e e reg (e.read reg) :=
  ⟨rfl, fun _ _ _ => rfl⟩

/-- What has been written decides. -/
lemma OnlyWrites.iff_eq {e e' : Executor M} {reg : Register} {v w : UInt64}
    (h : OnlyWrites e e' reg v) : OnlyWrites e e' reg w ↔ v = w :=
  ⟨fun hw => h.1.symm.trans hw.1, fun heq => heq ▸ h⟩

end Bemi.Dbt
