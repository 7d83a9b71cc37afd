import Bemi.Apic.Timer
import Bemi.Lib.Bits
import Bemi.Svm.Handler

/-!
# Accesses to the APIC page

A nested page fault in the APIC page at `0xFEE00000`. The handler drops the low bits of the address
before it asks for the register, so every access is to register 0, and it takes bit 5 of the address
for the direction. `npf_reached_iff` says when that makes no difference.
-/

namespace Bemi.Svm
open Bemi.Apic Bemi.Vmx

/-! ## Writes that change nothing -/

/-- The register at an offset holds the value, and writing it has no side effect. -/
structure Idle (asmMsb32 : UInt32 → UInt32) (a : Lapic) (offset value : UInt32) : Prop where
  register : apicShadowRead a.toApicShadow offset = value
  lvt : offset = 0x320 → a.gTimerLvt = value
  timer : offset = 0x380 → a.gTimerInitialCount = value ∧ a.gTimerCurrentCount = value ∧
    a.gTimerEnabled = (value > 0 && a.gTimerLvt &&& 0x10000 = 0)
  eoi : offset = 0xB0 → apicShadowEoi asmMsb32 a.toApicShadow = a.toApicShadow

section
variable (asmMsb32 : UInt32 → UInt32) (a : Lapic) {offset : UInt32} (value : UInt32)

lemma isrReg_ge : ∀ i, 0x40 ≤ (isrReg i).val := by decide

/-- The registers in service are not the first ones. -/
lemma eoi_other {r : Fin (lapicRegsSize / 4)} (h : r.val < 0x40) (a : ApicShadow) :
    (apicShadowEoi asmMsb32 a).gLapicRegs r = a.gLapicRegs r := by
  have hne : ∀ i, r ≠ isrReg i := fun i heq => absurd h (Nat.not_lt.mpr (heq ▸ isrReg_ge i))
  rw [apicShadowEoi]
  split
  · rfl
  · exact Function.update_of_ne (hne _) _ _

/-- What a write does to the registers. -/
lemma toApicShadow_write (h : offset.toNat < lapicRegsSize) :
    ∃ r : Fin (lapicRegsSize / 4), r.val = offset.toNat / 4 ∧
      (apicShadowWrite asmMsb32 a offset value).toApicShadow =
        if offset = 0xB0 then apicShadowEoi asmMsb32 ⟨Function.update a.gLapicRegs r value⟩
        else ⟨Function.update a.gLapicRegs r value⟩ := by
  have hlt : offset.toNat / 4 < lapicRegsSize / 4 := by
    change offset.toNat < 0x400 at h
    change _ < 256
    omega
  refine ⟨⟨offset.toNat / 4, hlt⟩, rfl, ?_⟩
  rw [apicShadowWrite, dif_pos h]
  dsimp only
  by_cases hlvt : offset = 0x320
  · subst hlvt
    rfl
  rw [if_neg hlvt]
  by_cases hcount : offset = 0x380
  · subst hcount
    rfl
  rw [if_neg hcount]
  by_cases heoi : offset = 0xB0
  · rw [if_pos heoi, if_pos heoi]
  · rw [if_neg heoi, if_neg heoi]

/-- The registers below those in service hold what they held, but the one written to. -/
lemma gLapicRegs_write (h : offset.toNat < lapicRegsSize) :
    ∃ r : Fin (lapicRegsSize / 4), r.val = offset.toNat / 4 ∧
      ∀ r' : Fin (lapicRegsSize / 4), r'.val < 0x40 ∨ offset ≠ 0xB0 →
        (apicShadowWrite asmMsb32 a offset value).gLapicRegs r' =
          Function.update a.gLapicRegs r value r' := by
  obtain ⟨r, hr, hwrite⟩ := toApicShadow_write asmMsb32 a value h
  refine ⟨r, hr, fun r' hr' => ?_⟩
  rw [hwrite]
  split
  · rename_i heoi
    exact eoi_other asmMsb32 (hr'.resolve_right (not_not_intro heoi)) _
  · rfl

lemma apicShadowRead_eq (a : ApicShadow) {r : Fin (lapicRegsSize / 4)}
    (hr : r.val = offset.toNat / 4) (h : offset.toNat < lapicRegsSize) :
    apicShadowRead a offset = a.gLapicRegs r := by
  rw [apicShadowRead, dif_pos h]
  exact congrArg a.gLapicRegs (Fin.ext hr.symm)

lemma update_of_read (a : Lapic) {r : Fin (lapicRegsSize / 4)} (hr : r.val = offset.toNat / 4)
    (h : offset.toNat < lapicRegsSize) (hread : apicShadowRead a.toApicShadow offset = value) :
    (⟨Function.update a.gLapicRegs r value⟩ : ApicShadow) = a.toApicShadow := by
  rw [apicShadowRead_eq _ hr h] at hread
  rw [← hread, Function.update_eq_self]

/-- The register written to holds the value. -/
lemma read_write (h : offset.toNat < lapicRegsSize) :
    apicShadowRead (apicShadowWrite asmMsb32 a offset value).toApicShadow offset = value := by
  obtain ⟨r, hr, hregs⟩ := gLapicRegs_write asmMsb32 a value h
  rw [apicShadowRead_eq _ hr h, hregs r, Function.update_self]
  by_cases heoi : offset = 0xB0
  · subst heoi
    exact .inl (by rw [hr]; decide)
  · exact .inr heoi

/-- Register 0 holds what it held when another one is written to. -/
lemma read_write_zero (h : offset.toNat < lapicRegsSize) (hne : offset.toNat / 4 ≠ 0) :
    apicShadowRead (apicShadowWrite asmMsb32 a offset value).toApicShadow 0 =
      apicShadowRead a.toApicShadow 0 := by
  obtain ⟨r, hr, hregs⟩ := gLapicRegs_write asmMsb32 a value h
  have hzero : (⟨0, by decide⟩ : Fin (lapicRegsSize / 4)) ≠ r := by
    rintro rfl
    exact hne hr.symm
  exact (hregs _ (.inl (Nat.zero_lt_succ _))).trans (Function.update_of_ne hzero _ _)

/-- A write changes nothing exactly when it is idle. -/
lemma write_eq_self_iff (h : offset.toNat < lapicRegsSize) :
    apicShadowWrite asmMsb32 a offset value = a ↔ Idle asmMsb32 a offset value := by
  constructor
  · intro heq
    have hread : apicShadowRead a.toApicShadow offset = value := by
      rw [← heq]
      exact read_write asmMsb32 a value h
    refine ⟨hread, ?_, ?_, ?_⟩
    · intro hlvt
      rw [← heq, gTimerLvt_write, if_pos hlvt]
    · rintro rfl
      rw [← heq]
      exact ⟨rfl, rfl, rfl⟩
    · intro heoi
      obtain ⟨r, hr, hwrite⟩ := toApicShadow_write asmMsb32 a value h
      rw [heq, if_pos heoi, update_of_read value a hr h hread] at hwrite
      exact hwrite.symm
  · rintro ⟨hread, hlvt, htimer, heoi⟩
    rw [apicShadowRead, dif_pos h] at hread
    rw [apicShadowWrite, dif_pos h]
    dsimp only
    rw [← hread, Function.update_eq_self, hread]
    split
    · rename_i ho
      rw [← hlvt ho]
    split
    · rename_i ho
      obtain ⟨hinitial, hcurrent, henabled⟩ := htimer ho
      rw [← henabled]
      nth_rewrite 1 [← hinitial]
      rw [← hcurrent]
    split
    · rename_i ho
      rw [heoi ho]
    · rfl

end

/-- Register 0 has no side effects. -/
lemma idle_zero_iff (asmMsb32 : UInt32 → UInt32) (a : Lapic) (value : UInt32) :
    Idle asmMsb32 a 0 value ↔ apicShadowRead a.toApicShadow 0 = value :=
  ⟨fun h => h.register, fun h => ⟨h, fun h0 => absurd h0 (by decide),
    fun h0 => absurd h0 (by decide), fun h0 => absurd h0 (by decide)⟩⟩

/-- An offset with bit 5 set is not in register 0. -/
lemma div_ne_zero_of_bit {offset : UInt32} (h : offset &&& 0x20 ≠ 0) : offset.toNat / 4 ≠ 0 := by
  intro hdiv
  refine h (UInt32.toNat_inj.mp ?_)
  have hsmall : ∀ o : Fin 4, o.val &&& 0x20 = 0 := by decide
  rw [UInt32.toNat_and]
  exact hsmall ⟨offset.toNat, by omega⟩

/-- Register 0 is written to instead of another one. -/
lemma write_zero_eq_iff (asmMsb32 : UInt32 → UInt32) (a : Lapic) {offset : UInt32} (value : UInt32)
    (h : offset.toNat < lapicRegsSize) (hbit : offset &&& 0x20 ≠ 0) :
    apicShadowWrite asmMsb32 a 0 value = apicShadowWrite asmMsb32 a offset value ↔
      Idle asmMsb32 a offset value ∧ apicShadowRead a.toApicShadow 0 = value := by
  have hzero : (0 : UInt32).toNat < lapicRegsSize := by decide
  rw [← write_eq_self_iff asmMsb32 a value h, ← idle_zero_iff asmMsb32,
    ← write_eq_self_iff asmMsb32 a value hzero]
  constructor
  · intro heq
    have hread : apicShadowRead a.toApicShadow 0 = value := by
      rw [← read_write_zero asmMsb32 a value h (div_ne_zero_of_bit hbit), ← heq]
      exact read_write asmMsb32 a value hzero
    have hsame : apicShadowWrite asmMsb32 a 0 value = a :=
      (write_eq_self_iff asmMsb32 a value hzero).mpr ((idle_zero_iff asmMsb32 a value).mpr hread)
    exact ⟨heq.symm.trans hsame, hsame⟩
  · rintro ⟨hoffset, hsame⟩
    rw [hoffset, hsame]

/-! ## Accesses -/

/-- Every address of the first registers is in the same page, and its bit 5 that of the offset. -/
lemma address_of_offset {offset : UInt32} (h : offset.toNat < lapicRegsSize) :
    (0xFEE00000 + offset.toUInt64) &&& 0xFFFFFFFFFFFFF000 = 0xFEE00000 ∧
      ((0xFEE00000 + offset.toUInt64) &&& 0x20 ≠ 0 ↔ offset &&& 0x20 ≠ 0) := by
  have haddress : ∀ o : Fin 0x400,
      (0xFEE00000 + (UInt32.ofNat o).toUInt64) &&& 0xFFFFFFFFFFFFF000 = 0xFEE00000 ∧
        ((0xFEE00000 + (UInt32.ofNat o).toUInt64) &&& 0x20 ≠ 0 ↔ UInt32.ofNat o &&& 0x20 ≠ 0) := by
    decide +kernel
  have hoffset := haddress ⟨offset.toNat, h⟩
  rwa [UInt32.ofNat_toNat] at hoffset

/-- An access at the start of the page is one to register 0. -/
lemma apicHandleMmioAccess_page (asmMsb32 : UInt32 → UInt32) (a : Lapic) (isWrite : Bool)
    (value : UInt64) :
    apicHandleMmioAccess asmMsb32 a 0xFEE00000 isWrite value =
      if isWrite then (apicShadowWrite asmMsb32 a 0 value.toUInt32, value, true)
      else (a, (apicShadowRead a.toApicShadow 0).toUInt64, true) := by
  rw [apicHandleMmioAccess, if_neg (by decide)]
  rfl

/-- The handler writes to register 0 or reads it. -/
lemma handleNpf_eq (host : Host) (info : VmExitInfo) (a : Lapic) (g : GuestState) {offset : UInt32}
    (h : offset.toNat < lapicRegsSize)
    (haddress : info.exitQualification = 0xFEE00000 + offset.toUInt64) :
    handleNpf host info a g =
      if offset &&& 0x20 ≠ 0 then
        (apicShadowWrite host.asmMsb32 a 0 (g.gpr .rax).toUInt32,
          { g with guestRip := g.guestRip + 1 })
      else
        (a, { g.setGpr .rax (Bits.setLow (g.gpr .rax) (apicShadowRead a.toApicShadow 0)) with
          guestRip := g.guestRip + 1 }) := by
  obtain ⟨hpage, hbit⟩ := address_of_offset h
  rw [handleNpf, haddress, hpage]
  dsimp only
  rw [if_pos (by decide), apicHandleMmioAccess_page]
  by_cases hwrite : offset &&& 0x20 ≠ 0
  · have hq : (0xFEE00000 + offset.toUInt64) &&& 0x20 ≠ 0 := hbit.mpr hwrite
    rw [if_pos hwrite, decide_eq_true hq, if_pos rfl]
    dsimp only
    rw [if_pos hq]
  · have hq : ¬ (0xFEE00000 + offset.toUInt64) &&& 0x20 ≠ 0 := fun hq => hwrite (hbit.mp hq)
    rw [if_neg hwrite, decide_eq_false hq, if_neg Bool.false_ne_true]
    dsimp only
    rw [if_neg hq, Bits.dword_and, Bits.setLow]
    rfl

lemma dispatch_npf (host : Host) {info : VmExitInfo} (h : info.exitReason = 0x400) (s : SvmState)
    (g : GuestState) :
    dispatch host info s g =
      ({ s with apic := (handleNpf host info s.apic g).1 }, (handleNpf host info s.apic g).2,
        .success) := by
  rw [dispatch, h]
  rfl

/-- An exit for an access to the APIC page at an offset. -/
structure NpfExit (s : SvmState) (offset : UInt32) : Prop where
  exitReason : s.vmcb 0x70 = 0x400
  address : s.vmcb 0x78 = 0xFEE00000 + offset.toUInt64
  offset : offset.toNat < lapicRegsSize

section
variable (host : Host) {s : SvmState} (guestGprBase : List UInt64) {offset : UInt32}

/-- RAX before an exit and after it. -/
def raxOf (guestGprBase : List UInt64) : UInt64 := guestGprBase.getD 0 0

/-- What the handler does with the APIC and RAX. -/
lemma npf_effect (h : NpfExit s offset) :
    (bemiSvmExitHandler host s guestGprBase).1.apic =
        (if offset &&& 0x20 ≠ 0 then
          apicShadowWrite host.asmMsb32 s.apic 0 (raxOf guestGprBase).toUInt32
        else s.apic) ∧
      raxOf (bemiSvmExitHandler host s guestGprBase).2.1 =
        if offset &&& 0x20 ≠ 0 then raxOf guestGprBase
        else Bits.setLow (raxOf guestGprBase) (apicShadowRead s.apic.toApicShadow 0) := by
  have hreason : (readExitInfo s.vmcb (readGuestState s.vmcb guestGprBase)).exitReason = 0x400 :=
    h.exitReason
  rw [bemiSvmExitHandler]
  dsimp only
  rw [dispatch_npf host hreason, handleNpf_eq host _ _ _ h.offset h.address]
  split
  · exact ⟨rfl, rfl⟩
  · exact ⟨rfl, rfl⟩

/-- The access has reached the register at the offset; a write leaves RAX. -/
def Reached (asmMsb32 : UInt32 → UInt32) (isWrite : Bool) (offset : UInt32) (a a' : Lapic)
    (rax rax' : UInt64) : Prop :=
  if isWrite then a' = apicShadowWrite asmMsb32 a offset rax.toUInt32 ∧ rax' = rax
  else a' = a ∧ rax' = Bits.setLow rax (apicShadowRead a.toApicShadow offset)

/-- Nobody notices: a read at an offset with bit 5 clear finds there what register 0 holds, one with
bit 5 set the low half of RAX in both; a write finds what it writes, there and in register 0. -/
def Unnoticed (asmMsb32 : UInt32 → UInt32) (isWrite : Bool) (offset : UInt32) (a : Lapic)
    (rax : UInt64) : Prop :=
  if isWrite then
    Idle asmMsb32 a offset rax.toUInt32 ∧ apicShadowRead a.toApicShadow 0 = rax.toUInt32
  else
    apicShadowRead a.toApicShadow offset = apicShadowRead a.toApicShadow 0 ∧
      (offset &&& 0x20 ≠ 0 → apicShadowRead a.toApicShadow 0 = rax.toUInt32)

/-- An access reaches its register only where that makes no difference. -/
theorem npf_reached_iff (h : NpfExit s offset) (isWrite : Bool) :
    Reached host.asmMsb32 isWrite offset s.apic (bemiSvmExitHandler host s guestGprBase).1.apic
        (raxOf guestGprBase) (raxOf (bemiSvmExitHandler host s guestGprBase).2.1) ↔
      Unnoticed host.asmMsb32 isWrite offset s.apic (raxOf guestGprBase) := by
  obtain ⟨hapic, hrax⟩ := npf_effect host guestGprBase h
  have hzero : (0 : UInt32).toNat < lapicRegsSize := by decide
  rw [hapic, hrax, Reached, Unnoticed]
  by_cases hbit : offset &&& 0x20 ≠ 0
  · rw [if_pos hbit, if_pos hbit, forall_prop_of_true hbit]
    cases isWrite with
    | true =>
      exact (and_iff_left rfl).trans (write_zero_eq_iff host.asmMsb32 s.apic _ h.offset hbit)
    | false =>
      rw [if_neg Bool.false_ne_true, if_neg Bool.false_ne_true,
        write_eq_self_iff host.asmMsb32 s.apic _ hzero, idle_zero_iff, Bits.eq_setLow_iff]
      constructor
      · rintro ⟨hread, hlow⟩
        exact ⟨by rw [← hlow, hread], hread⟩
      · rintro ⟨hread, hlow⟩
        exact ⟨hlow, by rw [hread, hlow]⟩
  · rw [if_neg hbit, if_neg hbit, forall_prop_of_false hbit, and_true]
    cases isWrite with
    | true =>
      -- the write is carried out as a read of register 0
      refine and_congr ?_ (eq_comm.trans (Bits.eq_setLow_iff.trans eq_comm))
      exact eq_comm.trans (write_eq_self_iff host.asmMsb32 s.apic _ h.offset)
    | false =>
      rw [if_neg Bool.false_ne_true, if_neg Bool.false_ne_true, Bits.setLow_eq_iff]
      exact (and_iff_right rfl).trans eq_comm

end

/-- An exit at an offset on a fresh APIC. -/
def npfState (offset : UInt32) : SvmState where
  vmcb := fun field =>
    if field = 0x70 then 0x400 else if field = 0x78 then 0xFEE00000 + offset.toUInt64 else 0
  msrs := fun _ => 0
  apic := apicShadowInit 0

def npfHost : Host := ⟨fun _ _ => ⟨0, 0, 0, 0⟩, fun _ => 0⟩

/-- The task priority is read, which is 0 like register 0. -/
theorem npf_reached_tpr :
    Reached npfHost.asmMsb32 false 0x80 (npfState 0x80).apic
      (bemiSvmExitHandler npfHost (npfState 0x80) [0xDEAD]).1.apic (raxOf [0xDEAD])
      (raxOf (bemiSvmExitHandler npfHost (npfState 0x80) [0xDEAD]).2.1) :=
  (npf_reached_iff npfHost [0xDEAD] ⟨rfl, rfl, by decide⟩ false).mpr ⟨by decide, by decide⟩

/-- The version register is neither read nor written. -/
theorem npf_not_reached_version :
    NpfExit (npfState 0x30) 0x30 ∧
      ∀ isWrite, ¬ Reached npfHost.asmMsb32 isWrite 0x30 (npfState 0x30).apic
        (bemiSvmExitHandler npfHost (npfState 0x30) [0xDEAD]).1.apic (raxOf [0xDEAD])
        (raxOf (bemiSvmExitHandler npfHost (npfState 0x30) [0xDEAD]).2.1) := by
  have h : NpfExit (npfState 0x30) 0x30 := ⟨rfl, rfl, by decide⟩
  obtain ⟨hapic, hrax⟩ := npf_effect npfHost [0xDEAD] h
  refine ⟨h, fun isWrite hreached => ?_⟩
  rw [hapic, hrax, if_pos (by decide), if_pos (by decide)] at hreached
  cases isWrite with
  | true =>
    have hsame := congrArg (fun a : Lapic => apicShadowRead a.toApicShadow 0x30) hreached.1
    revert hsame
    decide
  | false =>
    have hrax' := hreached.2
    revert hrax'
    decide

end Bemi.Svm
