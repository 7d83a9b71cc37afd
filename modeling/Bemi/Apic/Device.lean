import Bemi.Apic.Timer

/-!
# The interrupt hardware as the guest sees it

All of `hwcompat/apic/ApicShadow.c` together: guest accesses to the APIC page, timer ticks, injected
vectors, the next pending interrupt, and the masks of the two PICs. `Device` is what a guest is meant
to find: registers that keep what is written to them, a set of vectors requested and one in service,
a timer and two masks. Every run of the shadow, as long as nobody writes to the registers of IRR and
ISR, is a run of the device with the same answers (`shadow_refines_device`). So a register reads back
what was written to it last, whatever happened in between.
-/

namespace Bemi.Apic
open Transition

/-- All variables of `ApicShadow.c`. -/
structure Shadow extends Lapic where
  gPicMasterMask : UInt8
  gPicSlaveMask : UInt8

def shadowInit (apicId : UInt32) : Shadow where
  toLapic := apicShadowInit apicId
  gPicMasterMask := 0
  gPicSlaveMask := 0

def pic8259Write (s : Shadow) (port : UInt16) (value : UInt8) : Shadow :=
  if port = 0x21 then { s with gPicMasterMask := value }
  else if port = 0xA1 then { s with gPicSlaveMask := value }
  else s

def pic8259Read (s : Shadow) (port : UInt16) : UInt8 :=
  if port = 0x21 then s.gPicMasterMask else if port = 0xA1 then s.gPicSlaveMask else 0

/-! ## Calls -/

inductive DeviceOp where
  | mmio (guestPhysicalAddress : UInt64) (isWrite : Bool) (registerValue : UInt64)
  | timerTick
  | inject (vector : UInt32)
  | getPending
  | picWrite (port : UInt16) (value : UInt8)
  | picRead (port : UInt16)
  deriving DecidableEq, Repr

inductive DeviceAnswer where
  | done
  | access (registerValue : UInt64) (handled : Bool)
  | vector (v : Option Nat)
  | byte (b : UInt8)
  deriving DecidableEq, Repr

def Shadow.call (asmMsb32 : UInt32 → UInt32) (s : Shadow) : DeviceOp → Shadow × DeviceAnswer
  | .mmio guestPhysicalAddress isWrite registerValue =>
    let (a, value, handled) :=
      apicHandleMmioAccess asmMsb32 s.toLapic guestPhysicalAddress isWrite registerValue
    ({ s with toLapic := a }, .access value handled)
  | .timerTick => ({ s with toLapic := apicShadowTimerTick s.toLapic }, .done)
  | .inject vector =>
    let (a, v) := apicShadowInjectInterrupt s.toApicShadow vector
    ({ s with toApicShadow := a }, .vector (some v.toNat))
  | .getPending =>
    let (a, v) := apicGetPendingInterrupt asmMsb32 s.toApicShadow
    ({ s with toApicShadow := a }, .vector (v.map UInt32.toNat))
  | .picWrite port value => (pic8259Write s port value, .done)
  | .picRead port => (s, .byte (pic8259Read s port))

/-- The access is to an offset of the APIC page. -/
def At (guestPhysicalAddress : UInt64) (offset : UInt32) : Prop :=
  guestPhysicalAddress.toNat = 0xFEE00000 + offset.toNat ∧ offset.toNat < 0x1000

/-- Vectors have eight bits, and IRR and ISR are not written to. -/
def Admissible : DeviceOp → Prop
  | .mmio guestPhysicalAddress true _ =>
    ∀ offset r, At guestPhysicalAddress offset → offset.toNat / 4 = r.val → IsOther r
  | .inject vector => vector.toNat < 256
  | _ => True

inductive ShadowStep (asmMsb32 : UInt32 → UInt32) :
    Shadow → DeviceOp → DeviceAnswer → Shadow → Prop where
  | mk {s op} :
    Admissible op →
    ShadowStep asmMsb32 s op (s.call asmMsb32 op).2 (s.call asmMsb32 op).1

/-! ## The device -/

/-- The registers that hold what is written to them. -/
abbrev OtherReg := {r : Fin (lapicRegsSize / 4) // IsOther r}

structure Device where
  reg : OtherReg → UInt32
  vectors : Priority.Sets Nat
  timerEnabled : Bool
  initialCount : UInt32
  currentCount : UInt32
  lvt : UInt32
  masterMask : UInt8
  slaveMask : UInt8

namespace Device

def store (d : Device) (r : OtherReg) (v : UInt32) : Device :=
  { d with reg := fun r' => if r' = r then v else d.reg r' }

/-- The timer after a write of its initial count. -/
def start (d : Device) (v : UInt32) : Device :=
  { d with
    initialCount := v
    currentCount := v
    timerEnabled := v > 0 && d.lvt &&& 0x10000 = 0 }

/-- The timer fires, and starts over or stops. -/
def expire (d : Device) : Device :=
  let v := d.lvt &&& 0xFF
  let periodic := d.lvt &&& 0x20000 ≠ 0
  { d with
    vectors :=
      if v ≥ 16 then { d.vectors with requested := insert v.toNat d.vectors.requested }
      else d.vectors
    currentCount := if periodic then d.initialCount else 0
    timerEnabled := periodic }

/-- The word of a block of 32 vectors. -/
def IsWord (s : Set Nat) (i : Fin 8) (word : UInt32) : Prop :=
  ∀ j < 32, word.toNat.testBit j = true ↔ i * 32 + j ∈ s

/-- What an access, a tick or a call of the hypervisor does. -/
inductive Step : Device → DeviceOp → DeviceAnswer → Device → Prop where
  | outside {d gpa isWrite value} :
    (∀ offset, ¬ At gpa offset) →
    Step d (.mmio gpa isWrite value) (.access value false) d
  | writeBeyond {d gpa offset value} :
    At gpa offset →
    0x400 ≤ offset.toNat →
    Step d (.mmio gpa true value) (.access value true) d
  | readBeyond {d gpa offset value} :
    At gpa offset →
    0x400 ≤ offset.toNat →
    Step d (.mmio gpa false value) (.access 0 true) d
  | write {d gpa offset value} {r : OtherReg} :
    At gpa offset →
    offset.toNat / 4 = r.val.val →
    offset ≠ 0x320 → offset ≠ 0x380 → offset ≠ 0xB0 →
    Step d (.mmio gpa true value) (.access value true) (d.store r value.toUInt32)
  | writeLvt {d gpa value} {r : OtherReg} :
    At gpa 0x320 →
    0x320 / 4 = r.val.val →
    Step d (.mmio gpa true value) (.access value true)
      { d.store r value.toUInt32 with lvt := value.toUInt32 }
  | writeCount {d gpa value} {r : OtherReg} :
    At gpa 0x380 →
    0x380 / 4 = r.val.val →
    Step d (.mmio gpa true value) (.access value true)
      ((d.store r value.toUInt32).start value.toUInt32)
  | writeEoi {d gpa value vectors} {r : OtherReg} :
    At gpa 0xB0 →
    0xB0 / 4 = r.val.val →
    Priority.Step d.vectors .eoi none vectors →
    Step d (.mmio gpa true value) (.access value true)
      { d.store r value.toUInt32 with vectors }
  | read {d gpa offset value} {r : OtherReg} :
    At gpa offset →
    offset.toNat / 4 = r.val.val →
    Step d (.mmio gpa false value) (.access (d.reg r).toUInt64 true) d
  | readRequested {d gpa offset value i word} :
    At gpa offset →
    offset.toNat / 4 = (irrReg i).val →
    IsWord d.vectors.requested i word →
    Step d (.mmio gpa false value) (.access word.toUInt64 true) d
  | readInService {d gpa offset value i word} :
    At gpa offset →
    offset.toNat / 4 = (isrReg i).val →
    IsWord d.vectors.inService i word →
    Step d (.mmio gpa false value) (.access word.toUInt64 true) d
  | tickStopped {d} :
    ¬ (d.timerEnabled = true ∧ 0 < d.currentCount) →
    Step d .timerTick .done d
  | tickCounts {d} :
    d.timerEnabled = true →
    1 < d.currentCount →
    Step d .timerTick .done { d with currentCount := d.currentCount - 1 }
  | tickExpires {d} :
    d.timerEnabled = true →
    d.currentCount = 1 →
    Step d .timerTick .done d.expire
  | inject {d vector} :
    Step d (.inject vector) (.vector (some vector.toNat))
      { d with
        vectors := { d.vectors with requested := insert vector.toNat d.vectors.requested } }
  | getPending {d v vectors} :
    Priority.Step d.vectors .get v vectors →
    Step d .getPending (.vector v) { d with vectors }
  | picWrite {d port value} :
    Step d (.picWrite port value) .done
      { d with
        masterMask := if port = 0x21 then value else d.masterMask
        slaveMask := if port = 0xA1 then value else d.slaveMask }
  | picRead {d port} :
    Step d (.picRead port)
      (.byte (if port = 0x21 then d.masterMask else if port = 0xA1 then d.slaveMask else 0)) d

/-- The device after a reset. -/
def reset (apicId : UInt32) : Device where
  reg r :=
    if r.val.val = 0x20 / 4 then apicId <<< 24
    else if r.val.val = 0x30 / 4 then 0x50014
    else if r.val.val = 0xF0 / 4 then 0xFF
    else 0
  vectors := ⟨∅, ∅⟩
  timerEnabled := false
  initialCount := 0
  currentCount := 0
  lvt := 0x10000
  masterMask := 0
  slaveMask := 0

end Device

/-- The device that the variables stand for. -/
def Shadow.device (s : Shadow) : Device where
  reg r := s.gLapicRegs r.val
  vectors := Bemi.Apic.vectors s.toApicShadow
  timerEnabled := s.gTimerEnabled
  initialCount := s.gTimerInitialCount
  currentCount := s.gTimerCurrentCount
  lvt := s.gTimerLvt
  masterMask := s.gPicMasterMask
  slaveMask := s.gPicSlaveMask

/-! ## Registers -/

/-- Storing to another register leaves IRR and ISR alone. -/
lemma vectors_update (regs : Fin (lapicRegsSize / 4) → UInt32) (r : OtherReg) (v : UInt32) :
    vectors ⟨Function.update regs r.val v⟩ = vectors ⟨regs⟩ := by
  have hirr (i : Fin 8) : irrReg i ≠ r.val := (r.property i).1.symm
  have hisr (i : Fin 8) : isrReg i ≠ r.val := (r.property i).2.symm
  simp only [vectors, irr, isr, vectorSet_update_other hirr, vectorSet_update_other hisr]

lemma reg_update (regs : Fin (lapicRegsSize / 4) → UInt32) (r r' : OtherReg) (v : UInt32) :
    Function.update regs r.val v r'.val = if r' = r then v else regs r'.val := by
  rw [Function.update_apply]
  exact if_congr Subtype.ext_iff.symm rfl rfl

/-- The word of a register of IRR or of ISR. -/
lemma isWord_irr (a : ApicShadow) (i : Fin 8) :
    Device.IsWord (vectors a).requested i (a.gLapicRegs (irrReg i)) ∧
      Device.IsWord (vectors a).inService i (a.gLapicRegs (isrReg i)) := by
  have hdiv (j : ℕ) (hj : j < 32) : (i * 32 + j) / 32 = i.val ∧ (i * 32 + j) % 32 = j := by omega
  refine ⟨fun j hj => ?_, fun j hj => ?_⟩
  · change _ ↔ vectorSet a irrReg (i * 32 + j) = true
    rw [vectorSet_of_div (hdiv j hj).1, (hdiv j hj).2]
  · change _ ↔ vectorSet a isrReg (i * 32 + j) = true
    rw [vectorSet_of_div (hdiv j hj).1, (hdiv j hj).2]

/-- The offset of an access to the page. -/
def pageOffset (guestPhysicalAddress : UInt64) : UInt32 :=
  (guestPhysicalAddress - 0xFEE00000).toUInt32

lemma at_pageOffset {gpa : UInt64} (h : ¬ (gpa < 0xFEE00000 ∨ gpa ≥ 0xFEE01000)) :
    At gpa (pageOffset gpa) := by
  have hlt := gpa.toNat_lt
  simp only [not_or, ge_iff_le, UInt64.le_iff_toNat_le, UInt64.lt_iff_toNat_lt,
    UInt64.reduceToNat] at h
  rw [At, pageOffset, UInt64.toNat_toUInt32, UInt64.toNat_sub]
  simp only [UInt64.reduceToNat]
  omega

lemma not_at {gpa : UInt64} (h : gpa < 0xFEE00000 ∨ gpa ≥ 0xFEE01000) (offset : UInt32) :
    ¬ At gpa offset := by
  simp only [ge_iff_le, UInt64.le_iff_toNat_le, UInt64.lt_iff_toNat_lt, UInt64.reduceToNat] at h
  rw [At]
  omega

/-! ## One call -/

lemma device_store (s : Shadow) (r : OtherReg) (v : UInt32) :
    Shadow.device { s with gLapicRegs := Function.update s.gLapicRegs r.val v } =
      s.device.store r v := by
  have hreg : (fun r' : OtherReg => Function.update s.gLapicRegs r.val v r'.val) =
      fun r' => if r' = r then v else s.gLapicRegs r'.val :=
    funext fun r' => reg_update s.gLapicRegs r r' v
  simp only [Shadow.device, Device.store, vectors_update, hreg]

/-- Calls that keep the other registers change the vectors only. -/
lemma device_vectors (s : Shadow) {a : ApicShadow}
    (h : ∀ r, IsOther r → a.gLapicRegs r = s.gLapicRegs r) :
    Shadow.device { s with toApicShadow := a } = { s.device with vectors := vectors a } := by
  have hreg : (fun r : OtherReg => a.gLapicRegs r.val) = fun r => s.gLapicRegs r.val :=
    funext fun r => h r.val r.property
  simp only [Shadow.device, hreg]

variable {asmMsb32 : UInt32 → UInt32}

lemma device_write (hm : CountsFromTop asmMsb32) (s : Shadow) {gpa : UInt64} (offset : UInt32)
    (value : UInt64) (hat : At gpa offset) (hadm : Admissible (.mmio gpa true value)) :
    Device.Step s.device (.mmio gpa true value) (.access value true)
      (Shadow.device
        { s with toLapic := apicShadowWrite asmMsb32 s.toLapic offset value.toUInt32 }) := by
  by_cases hlt : offset.toNat < lapicRegsSize
  · obtain ⟨r, hr⟩ : ∃ r : OtherReg, offset.toNat / 4 = r.val.val :=
      ⟨⟨⟨offset.toNat / 4, _⟩, hadm offset ⟨offset.toNat / 4, by
        change offset.toNat < 0x400 at hlt
        change _ < 256
        omega⟩ hat rfl⟩, rfl⟩
    have hreg (h : offset.toNat / 4 < lapicRegsSize / 4) :
        (⟨offset.toNat / 4, h⟩ : Fin (lapicRegsSize / 4)) = r.val := Fin.ext hr
    have hstore := device_store s r value.toUInt32
    unfold apicShadowWrite
    rw [dif_pos hlt]
    simp only [hreg]
    by_cases hlvt : offset = 0x320
    · subst hlvt
      have hstep := @Device.Step.writeLvt s.device gpa value r hat hr
      rw [← hstore] at hstep
      exact hstep
    · rw [if_neg hlvt]
      by_cases hcount : offset = 0x380
      · subst hcount
        have hstep := @Device.Step.writeCount s.device gpa value r hat hr
        rw [← hstore] at hstep
        exact hstep
      · rw [if_neg hcount]
        by_cases heoi : offset = 0xB0
        · subst heoi
          let a : ApicShadow := ⟨Function.update s.gLapicRegs r.val value.toUInt32⟩
          obtain ⟨hvectors, hkeep⟩ := vectors_eoi hm a
          rw [vectors_update] at hvectors
          have hstep := @Device.Step.writeEoi s.device gpa value _ r hat hr hvectors
          rw [← hstore, ← device_vectors _ hkeep] at hstep
          exact hstep
        · have hstep := @Device.Step.write s.device gpa offset value r hat hr hlvt hcount heoi
          rw [← hstore] at hstep
          rw [if_neg heoi]
          exact hstep
  · have hwrite : apicShadowWrite asmMsb32 s.toLapic offset value.toUInt32 = s.toLapic :=
      dif_neg hlt
    rw [hwrite]
    exact .writeBeyond hat (Nat.not_lt.mp hlt)

lemma device_read (s : Shadow) {gpa : UInt64} (offset : UInt32) (value : UInt64)
    (hat : At gpa offset) :
    Device.Step s.device (.mmio gpa false value)
      (.access (apicShadowRead s.toApicShadow offset).toUInt64 true) s.device := by
  by_cases hlt : offset.toNat < lapicRegsSize
  · rw [apicShadowRead, dif_pos hlt]
    generalize hr : (⟨offset.toNat / 4, _⟩ : Fin (lapicRegsSize / 4)) = r
    have hval : offset.toNat / 4 = r.val := congrArg Fin.val hr
    by_cases hother : IsOther r
    · exact Device.Step.read (d := s.device) (r := ⟨r, hother⟩) hat hval
    · rw [IsOther, not_forall] at hother
      obtain ⟨i, hi⟩ := hother
      by_cases hirr : r = irrReg i
      · rw [hirr] at hval ⊢
        exact .readRequested hat hval (isWord_irr s.toApicShadow i).1
      · have hisr : r = isrReg i := not_not.mp fun hne => hi ⟨hirr, hne⟩
        rw [hisr] at hval ⊢
        exact .readInService hat hval (isWord_irr s.toApicShadow i).2
  · rw [apicShadowRead, dif_neg hlt]
    exact .readBeyond hat (Nat.not_lt.mp hlt)

lemma device_mmio (hm : CountsFromTop asmMsb32) (s : Shadow) (gpa value : UInt64) (isWrite : Bool)
    (hadm : Admissible (.mmio gpa isWrite value)) :
    Device.Step s.device (.mmio gpa isWrite value) (s.call asmMsb32 (.mmio gpa isWrite value)).2
      (s.call asmMsb32 (.mmio gpa isWrite value)).1.device := by
  rw [Shadow.call]
  by_cases hout : gpa < 0xFEE00000 ∨ gpa ≥ 0xFEE01000
  · rw [apicHandleMmioAccess, if_pos hout]
    exact .outside (not_at hout)
  · have hat := at_pageOffset hout
    rw [apicHandleMmioAccess, if_neg hout]
    cases isWrite with
    | true => exact device_write hm s _ value hat hadm
    | false => exact device_read s _ value hat

/-- The tick that ends the count. -/
lemma device_expire (s : Shadow) (hon : s.gTimerEnabled = true ∧ s.gTimerCurrentCount > 0)
    (hone : s.gTimerCurrentCount - 1 = 0) :
    Shadow.device { s with toLapic := apicShadowTimerTick s.toLapic } = s.device.expire := by
  obtain ⟨-, hvectors, hkeep⟩ := vectors_inject s.toApicShadow (vector_lt s.gTimerLvt)
  have hreg : (fun r : OtherReg =>
      (apicShadowInjectInterrupt s.toApicShadow (s.gTimerLvt &&& 0xFF)).1.gLapicRegs r.val) =
      fun r => s.gLapicRegs r.val := funext fun r => hkeep r.val r.property
  rw [apicShadowTimerTick, if_pos hon]
  simp only [if_pos hone]
  by_cases hvec : s.gTimerLvt &&& 0xFF ≥ 16
  · by_cases hper : s.gTimerLvt &&& 0x20000 = 0
    · simp [Shadow.device, Device.expire, hvec, hper, hvectors, hreg, hone]
    · simp [Shadow.device, Device.expire, hvec, hper, hvectors, hreg, hon.1]
  · by_cases hper : s.gTimerLvt &&& 0x20000 = 0
    · simp [Shadow.device, Device.expire, hvec, hper, hone]
    · simp [Shadow.device, Device.expire, hvec, hper, hon.1]

lemma device_tick (s : Shadow) :
    Device.Step s.device .timerTick .done
      (Shadow.device { s with toLapic := apicShadowTimerTick s.toLapic }) := by
  by_cases hon : s.gTimerEnabled = true ∧ s.gTimerCurrentCount > 0
  · by_cases hone : s.gTimerCurrentCount - 1 = 0
    · have hcount : s.gTimerCurrentCount = 1 := by
        have := UInt32.sub_eq_iff_eq_add.mp hone
        simpa using this
      rw [device_expire s hon hone]
      exact .tickExpires hon.1 hcount
    · have hlt : 1 < s.gTimerCurrentCount := by
        have hpos : 0 < s.gTimerCurrentCount.toNat := UInt32.lt_iff_toNat_lt.mp hon.2
        have hne : s.gTimerCurrentCount.toNat ≠ 1 := by
          intro heq
          have hcount : s.gTimerCurrentCount = 1 := UInt32.toNat_inj.mp heq
          exact hone (by rw [hcount]; rfl)
        exact UInt32.lt_iff_toNat_lt.mpr (show 1 < s.gTimerCurrentCount.toNat by omega)
      have htick : apicShadowTimerTick s.toLapic =
          { s.toLapic with gTimerCurrentCount := s.gTimerCurrentCount - 1 } := by
        rw [apicShadowTimerTick, if_pos hon]
        exact if_neg hone
      rw [htick]
      exact .tickCounts hon.1 hlt
  · have htick : apicShadowTimerTick s.toLapic = s.toLapic := if_neg hon
    rw [htick]
    exact .tickStopped hon

/-- Each call is a step of the device. -/
lemma device_step (hm : CountsFromTop asmMsb32) {s s' : Shadow} {op : DeviceOp} {r : DeviceAnswer}
    (st : ShadowStep asmMsb32 s op r s') : Device.Step s.device op r s'.device := by
  obtain ⟨hadm⟩ := st
  cases op with
  | mmio gpa isWrite value => exact device_mmio hm s gpa value isWrite hadm
  | timerTick => exact device_tick s
  | inject vector =>
    obtain ⟨hanswer, hvectors, hkeep⟩ := vectors_inject s.toApicShadow hadm
    rw [Shadow.call]
    dsimp only
    rw [device_vectors s hkeep, hvectors, hanswer]
    exact .inject
  | getPending =>
    obtain ⟨hstep, hkeep⟩ := vectors_get hm s.toApicShadow
    rw [Shadow.call]
    dsimp only
    rw [device_vectors s hkeep]
    exact .getPending hstep
  | picWrite port value =>
    have hwrite : (pic8259Write s port value).device =
        { s.device with
          masterMask := if port = 0x21 then value else s.device.masterMask
          slaveMask := if port = 0xA1 then value else s.device.slaveMask } := by
      rw [pic8259Write]
      split
      · rename_i hport
        rw [hport]
        rfl
      · split <;> rfl
    rw [Shadow.call, hwrite]
    exact .picWrite
  | picRead port => exact .picRead

/-! ## Reading back -/

/-- What an operation writes to a register, if anything. -/
def DeviceOp.writes (op : DeviceOp) (r : OtherReg) : Option UInt32 :=
  match op with
  | .mmio gpa true value =>
    if gpa.toNat / 4 = 0xFEE00000 / 4 + r.val.val then some value.toUInt32 else none
  | _ => none

abbrev DeviceEvent := Event Shadow DeviceOp DeviceAnswer

/-- What was written to a register last, or its value after a reset. -/
def lastWritten (apicId : UInt32) (tr : List DeviceEvent) (r : OtherReg) : UInt32 :=
  tr.foldl (fun v ev => (ev.op.writes r).getD v) ((Device.reset apicId).reg r)

/-- A write to an offset is one to the register there. -/
lemma writes_at {gpa value : UInt64} {offset : UInt32} {r' : OtherReg} (hat : At gpa offset)
    (hr : offset.toNat / 4 = r'.val.val) (r : OtherReg) :
    DeviceOp.writes (.mmio gpa true value) r = if r = r' then some value.toUInt32 else none := by
  refine if_congr ?_ rfl rfl
  rw [Subtype.ext_iff, Fin.ext_iff, ← hr, hat.1]
  omega

/-- A write beside the registers writes to none. -/
lemma writes_beside {gpa value : UInt64} {r : OtherReg}
    (h : ∀ offset, At gpa offset → 0x400 ≤ offset.toNat) :
    DeviceOp.writes (.mmio gpa true value) r = none := by
  refine if_neg fun heq => ?_
  have hr : r.val.val < 256 := r.val.isLt
  have hlt : gpa.toNat - 0xFEE00000 < 2 ^ 32 := by omega
  have hoffset : (UInt32.ofNat (gpa.toNat - 0xFEE00000)).toNat = gpa.toNat - 0xFEE00000 :=
    UInt32.toNat_ofNat_of_lt hlt
  have hle := h (UInt32.ofNat (gpa.toNat - 0xFEE00000)) ⟨by omega, by omega⟩
  omega

lemma Device.Step.reg {d d' : Device} {op : DeviceOp} {answer : DeviceAnswer}
    (st : Device.Step d op answer d') (r : OtherReg) :
    d'.reg r = (op.writes r).getD (d.reg r) := by
  have hstore {gpa value : UInt64} {offset : UInt32} {r' : OtherReg} (hat : At gpa offset)
      (hr : offset.toNat / 4 = r'.val.val) : (d.store r' value.toUInt32).reg r =
        (DeviceOp.writes (.mmio gpa true value) r).getD (d.reg r) := by
    rw [writes_at hat hr, Device.store]
    dsimp only
    split <;> rfl
  cases st with
  | @outside gpa isWrite value h =>
    cases isWrite with
    | true =>
      rw [writes_beside fun offset hat => absurd hat (h offset)]
      rfl
    | false => rfl
  | writeBeyond hat hle =>
    rw [writes_beside]
    · rfl
    · intro offset' hat'
      have := hat.1.symm.trans hat'.1
      omega
  | write hat hr => exact hstore hat hr
  | writeLvt hat hr => exact hstore hat hr
  | writeCount hat hr => exact hstore hat hr
  | writeEoi hat hr => exact hstore hat hr
  | _ => rfl

/-! ## Runs -/

lemma apicShadowInit_other (apicId : UInt32) (r : OtherReg) :
    (apicShadowInit apicId).gLapicRegs r.val = (Device.reset apicId).reg r := by
  rw [apicShadowInit, Device.reset]
  simp only [Function.update_apply, Fin.ext_iff]
  split_ifs <;> first | omega | rfl

lemma device_init (apicId : UInt32) : (shadowInit apicId).device = Device.reset apicId := by
  have hreg : (fun r : OtherReg => (apicShadowInit apicId).gLapicRegs r.val) =
      (Device.reset apicId).reg := funext (apicShadowInit_other apicId)
  rw [Shadow.device, shadowInit]
  simp only [hreg, vectors_init]
  rfl

/-- Every run of the shadow that does not write to IRR and ISR is a run of the device with the same
answers, and every register holds what was written to it last. -/
theorem shadow_refines_device (hm : CountsFromTop asmMsb32) (apicId : UInt32)
    {tr : List DeviceEvent} {s : Shadow}
    (run : Run (ShadowStep asmMsb32) (shadowInit apicId) tr s) :
    Run Device.Step (Device.reset apicId)
        (tr.map fun ev => ⟨ev.before.device, ev.op, ev.answer⟩) s.device ∧
      ∀ r, s.device.reg r = lastWritten apicId tr r := by
  constructor
  · have h := run.map Shadow.device fun _ _ _ _ st => device_step hm st
    rwa [device_init] at h
  · refine run.history (I := fun tr s => ∀ r, s.device.reg r = lastWritten apicId tr r) ?_ ?_
    · intro r
      rw [device_init]
      rfl
    · intro tr s op answer s' hs st r
      rw [(device_step hm st).reg r, hs r, lastWritten, lastWritten, List.foldl_append]
      rfl

/-- The registers behind IRR. -/
lemma isOther_of_le {r : Fin (lapicRegsSize / 4)} (h : 0xA0 ≤ r.val) : IsOther r := by
  have hblocks : ∀ i : Fin 8, (irrReg i).val < 0xA0 ∧ (isrReg i).val < 0xA0 := by decide
  refine fun i => ⟨?_, ?_⟩
  · rintro rfl
    exact absurd (hblocks i).1 (Nat.not_lt.mpr h)
  · rintro rfl
    exact absurd (hblocks i).2 (Nat.not_lt.mpr h)

/-- The guest sets its timer to 1 with vector 0x30; the tick requests it, and the LVT register reads
back. -/
theorem shadow_refines_device_timer :
    ∃ (tr : List DeviceEvent) (s : Shadow), Run (ShadowStep leadingZeros) (shadowInit 0) tr s ∧
      tr.map Event.answer = [.access 0x30 true, .access 1 true, .done, .vector (some 0x30)] ∧
      ∀ r, s.device.reg r = lastWritten 0 tr r := by
  have hadm (gpa value : UInt64) (h : 0xFEE00280 ≤ gpa.toNat) :
      Admissible (.mmio gpa true value) := by
    intro offset r hat hr
    have hbase := hat.1
    exact isOther_of_le (by omega)
  have hrun := @Run.nil _ _ _ (ShadowStep leadingZeros) (shadowInit 0)
    |>.snoc (.mk (hadm 0xFEE00320 0x30 (by decide)))
    |>.snoc (.mk (hadm 0xFEE00380 1 (by decide)))
    |>.snoc (.mk (show Admissible .timerTick from trivial))
    |>.snoc (.mk (show Admissible .getPending from trivial))
  exact ⟨_, _, hrun, by decide, (shadow_refines_device countsFromTop_leadingZeros 0 hrun).2⟩

end Bemi.Apic
