import Bemi.Apic.Pending
import Bemi.Lib.Run
import Bemi.Vmx.Handler
import Mathlib.Data.List.Basic

/-!
# Interrupts at VM entry

Interrupts are injected into the APIC shadow, and VM exits take them out of it. A vector is owed to
the guest from its injection until a VM entry delivers it. `BemiVmxExitHandler` takes a vector before
it looks at IF, and what it then writes is not valid; `noneLost_iff` says in which runs no interrupt
is lost.
-/

namespace Bemi.Vmx
open Transition Bemi.Apic

/-- The APIC shadow, and the vectors injected and not yet delivered. -/
structure Interrupts where
  apic : ApicShadow
  owed : List Nat

inductive IntrOp where
  | inject (vector : UInt32)
  | exit (vmcs : UInt64 → UInt64) (msrs : UInt32 → UInt64) (guestGprBase : List UInt64)

/-- The valid bit of the VM-entry interruption-information field. -/
def IntrValid (field : UInt64) : Prop := field &&& 0x80000000 ≠ 0

/-- The field has an external interrupt with that vector delivered at VM entry. -/
def Delivers (field : UInt64) (v : Nat) : Prop :=
  IntrValid field ∧ field &&& 0x700 = 0 ∧ (field &&& 0xFF).toNat = v

instance (field : UInt64) : Decidable (IntrValid field) :=
  inferInstanceAs (Decidable (_ ≠ _))

instance (field : UInt64) (v : Nat) : Decidable (Delivers field v) :=
  inferInstanceAs (Decidable (_ ∧ _))

/-- The processor clears the valid bit of the field on every VM exit. -/
def atVmExit (vmcs : UInt64 → UInt64) : UInt64 → UInt64 :=
  bemiVmWrite vmcs 0x4016 (vmcs 0x4016 &&& ~~~(0x80000000 : UInt64))

/-- An exit is answered by the state at the next VM entry. A vector is a number below 256. -/
inductive IntrStep (host : Host) :
    Interrupts → IntrOp → Option VmxState → Interrupts → Prop where
  | inject {s vector} :
    IntrStep host s (.inject vector) none
      { apic := (apicShadowInjectInterrupt s.apic vector).1
        owed := if vector.toNat < 256 then vector.toNat :: s.owed else s.owed }
  | exit {s vmcs msrs guestGprBase t} :
    (bemiVmxExitHandler host ⟨atVmExit vmcs, msrs, s.apic⟩ guestGprBase).1 = t →
    IntrStep host s (.exit vmcs msrs guestGprBase) (some t)
      { apic := t.apic
        owed := s.owed.filter fun v => ¬ Delivers (t.vmcs 0x4016) v }

abbrev IntrEvent := Event Interrupts IntrOp (Option VmxState)

/-- Every vector owed to the guest is requested. -/
def NoneLost (s : Interrupts) : Prop := ∀ v ∈ s.owed, irr s.apic v = true

/-- A vector that has moved from IRR to ISR is delivered; when nothing is injected, both are as they
were. -/
def EntryRight : IntrEvent → Prop
  | ⟨_, _, none⟩ => True
  | ⟨s, _, some t⟩ =>
    (∀ v, irr s.apic v = true → irr t.apic v = false → isr t.apic v = true →
        Delivers (t.vmcs 0x4016) v) ∧
      (¬ IntrValid (t.vmcs 0x4016) → ∀ v, irr t.apic v = irr s.apic v ∧ isr t.apic v = isr s.apic v)

/-- An exit that finds no vector requested. -/
def FindsNothing : IntrEvent → Prop
  | ⟨_, .inject _, _⟩ => True
  | ⟨s, .exit .., _⟩ => ∀ v, irr s.apic v = false

/-! ## One exit -/

lemma not_valid_atVmExit (vmcs : UInt64 → UInt64) : ¬ IntrValid (atVmExit vmcs 0x4016) := by
  rw [IntrValid, atVmExit, bemiVmWrite, Function.update_self, UInt64.and_assoc, not_not]
  exact UInt64.and_zero

/-- What the handler writes to the field. -/
lemma not_valid_vector {v : UInt32} (h : v.toNat < 256) : ¬ IntrValid (v ||| 0x700).toUInt64 := by
  rw [IntrValid, not_not]
  apply UInt64.toNat_inj.mp
  have hlt : (v ||| 0x700).toNat < 2 ^ 11 := by
    rw [UInt32.toNat_or]
    exact Nat.or_lt_two_pow (by omega) (by decide)
  rw [UInt64.toNat_and, UInt32.toNat_toUInt64]
  change _ &&& 2 ^ 31 = 0
  rw [Nat.and_two_pow, Nat.testBit_lt_two_pow (by omega)]
  rfl

lemma vmxWriteGuestState_intr (vmcs : UInt64 → UInt64) (g : GuestState) :
    vmxWriteGuestState vmcs g 0x4016 = vmcs 0x4016 := by
  simp [vmxWriteGuestState, bemiVmWrite]

/-- The handler ends with `deliverPending`, which finds the field as the exit has left it. -/
lemma bemiVmxExitHandler_eq (host : Host) (s : VmxState) (guestGprBase : List UInt64) :
    ∃ s' : VmxState, ∃ g : GuestState,
      (bemiVmxExitHandler host s guestGprBase).1 = deliverPending host s' g ∧
        s'.apic = s.apic ∧ s'.vmcs 0x4016 = s.vmcs 0x4016 := by
  unfold bemiVmxExitHandler
  dsimp only
  generalize dispatch host _ s.msrs _ = d
  exact ⟨_, d.2, rfl, rfl, vmxWriteGuestState_intr s.vmcs d.2⟩

/-- An exit that finds no vector leaves IRR and ISR. -/
lemma exit_nothing {a : ApicShadow} (h : ∀ v, irr a v = false) (host : Host)
    (vmcs : UInt64 → UInt64) (msrs : UInt32 → UInt64) (guestGprBase : List UInt64) :
    (bemiVmxExitHandler host ⟨vmcs, msrs, a⟩ guestGprBase).1.apic = a := by
  obtain ⟨s', g, e, ha, -⟩ := bemiVmxExitHandler_eq host ⟨vmcs, msrs, a⟩ guestGprBase
  rw [e, deliverPending, ha, apicGetPendingInterrupt_none h]

/-- An exit that finds one moves it, and has nothing delivered. -/
lemma exit_some {host : Host} (hm : CountsFromTop host.asmMsb32) {a : ApicShadow}
    (h : ∃ v, irr a v = true) (vmcs : UInt64 → UInt64) (msrs : UInt32 → UInt64)
    (guestGprBase : List UInt64) {t : VmxState}
    (ht : (bemiVmxExitHandler host ⟨atVmExit vmcs, msrs, a⟩ guestGprBase).1 = t) :
    ¬ IntrValid (t.vmcs 0x4016) ∧
      ∃ v, irr a v = true ∧ irr t.apic v = false ∧ isr t.apic v = true := by
  obtain ⟨s', g, e, ha, hf⟩ := bemiVmxExitHandler_eq host ⟨atVmExit vmcs, msrs, a⟩ guestGprBase
  obtain ⟨a', v, taken, hv, before, hirr, hisr⟩ := apicGetPendingInterrupt_some hm h
  rw [e, deliverPending, ha, taken] at ht
  have moved : irr a v.toNat = true ∧ irr a' v.toNat = false ∧ isr a' v.toNat = true := by
    refine ⟨before, ?_, ?_⟩
    · rw [hirr, decide_eq_true rfl, Bool.not_true, Bool.and_false]
    · rw [hisr, decide_eq_true rfl, Bool.or_true]
  subst ht
  dsimp only
  split
  · refine ⟨?_, _, moved⟩
    change ¬ IntrValid (bemiVmWrite s'.vmcs 0x4016 _ 0x4016)
    rw [bemiVmWrite, Function.update_self]
    exact not_valid_vector hv
  · refine ⟨?_, _, moved⟩
    rw [hf]
    exact not_valid_atVmExit vmcs

/-! ## Runs -/

lemma noneLost_step {host : Host} {s s' : Interrupts} {a : IntrOp} {r : Option VmxState}
    (none : NoneLost s) (st : IntrStep host s a r s') (h : FindsNothing ⟨s, a, r⟩) :
    NoneLost s' := by
  cases st with
  | @inject vector =>
    intro v hv
    rw [irr_inject]
    split at hv
    · rename_i hlt
      rcases List.mem_cons.mp hv with rfl | hv
      · rw [decide_eq_true ⟨rfl, hlt⟩, Bool.or_true]
      · rw [none v hv, Bool.true_or]
    · rw [none v hv, Bool.true_or]
  | exit ht =>
    intro v hv
    have hv := none v (List.mem_filter.mp hv).1
    rw [h v] at hv
    cases hv

lemma entryRight_of_findsNothing {host : Host} {s s' : Interrupts} {a : IntrOp}
    {r : Option VmxState} (st : IntrStep host s a r s') (h : FindsNothing ⟨s, a, r⟩) :
    EntryRight ⟨s, a, r⟩ := by
  cases st with
  | inject => trivial
  | exit ht =>
    have same := ht ▸ exit_nothing h host _ _ _
    constructor
    · intro v hv
      rw [h v] at hv
      cases hv
    · intro _ v
      rw [same]
      exact ⟨rfl, rfl⟩

lemma findsNothing_of_entryRight {host : Host} (hm : CountsFromTop host.asmMsb32)
    {s s' : Interrupts} {a : IntrOp} {r : Option VmxState} (st : IntrStep host s a r s')
    (h : EntryRight ⟨s, a, r⟩) : FindsNothing ⟨s, a, r⟩ := by
  cases st with
  | inject => trivial
  | exit ht =>
    by_contra hne
    have some : ∃ v, irr s.apic v = true := by simpa [FindsNothing] using hne
    obtain ⟨invalid, v, before, after, service⟩ := exit_some hm some _ _ _ ht
    exact invalid (h.1 v before after service).1

/-- Every vector injected is requested or delivered, and every VM entry is right, exactly when every
exit finds no vector requested. -/
theorem noneLost_iff (host : Host) (hm : CountsFromTop host.asmMsb32) (a : ApicShadow)
    {tr : List IntrEvent} {s : Interrupts} (run : Run (IntrStep host) ⟨a, []⟩ tr s) :
    (Always NoneLost tr s ∧ ∀ ev ∈ tr, EntryRight ev) ↔ ∀ ev ∈ tr, FindsNothing ev := by
  have init : NoneLost ⟨a, []⟩ := List.forall_mem_nil _
  apply Run.always_iff init ?_ ?_ ?_ ?_ run
  · exact fun s a r s' none st h => noneLost_step none st h
  · exact fun s none => none
  · exact fun s a r s' _ st h => entryRight_of_findsNothing st h
  · exact fun s a r s' _ st h _ => findsNothing_of_entryRight hm st h

/-- A processor without CPUID. -/
def quietHost : Host := ⟨fun _ _ => ⟨0, 0, 0, 0⟩, leadingZeros⟩

lemma countsFromTop_quietHost : CountsFromTop quietHost.asmMsb32 := countsFromTop_leadingZeros

/-- No vector is requested or in service. -/
def quiet : ApicShadow := ⟨fun _ => 0⟩

/-- An exit, and then an interrupt that waits in IRR. -/
theorem noneLost_iff_waiting : ∃ tr s, tr.length = 2 ∧
    Run (IntrStep quietHost) ⟨quiet, []⟩ tr s ∧ Always NoneLost tr s ∧ ∀ ev ∈ tr, EntryRight ev := by
  obtain ⟨t, ht⟩ : ∃ t, (bemiVmxExitHandler quietHost ⟨atVmExit fun _ => 0, fun _ => 0, quiet⟩
    []).1 = t := ⟨_, rfl⟩
  have exited : IntrStep quietHost ⟨quiet, []⟩ (.exit (fun _ => 0) (fun _ => 0) []) _ _ := .exit ht
  have run := Run.snoc (.snoc .nil exited) (.inject : IntrStep quietHost _ (.inject 0x30) _ _)
  have right := (noneLost_iff quietHost countsFromTop_quietHost _ run).mpr (by
    intro ev hev
    rcases List.mem_pair.mp hev with rfl | rfl
    · exact (irr_eq_zero_iff _).mp fun _ => rfl
    · trivial)
  exact ⟨_, _, rfl, run, right⟩

/-- An interrupt is injected, and the guest exits with interrupts enabled. -/
theorem noneLost_not : ¬ ∀ (host : Host) (_ : CountsFromTop host.asmMsb32) (a : ApicShadow)
    (tr : List IntrEvent) (s : Interrupts), Run (IntrStep host) ⟨a, []⟩ tr s →
      Always NoneLost tr s ∧ ∀ ev ∈ tr, EntryRight ev := by
  intro all
  let vmcs : UInt64 → UInt64 := fun field => if field = 0x6820 then 0x202 else 0
  obtain ⟨s, injected, hs⟩ : ∃ s, IntrStep quietHost ⟨quiet, []⟩ (.inject 0x30) none s ∧
    s.apic = (apicShadowInjectInterrupt quiet 0x30).1 := ⟨_, .inject, rfl⟩
  have exited : IntrStep quietHost s (.exit vmcs (fun _ => 0) []) _ _ := .exit rfl
  have run := Run.snoc (.snoc .nil injected) exited
  have right := (all quietHost countsFromTop_quietHost _ _ _ run).2
  have last := right _ (List.mem_append_right _ List.mem_cons_self)
  have pending : irr s.apic 0x30 = false :=
    findsNothing_of_entryRight countsFromTop_quietHost exited last 0x30
  rw [hs, irr_inject] at pending
  exact absurd pending (by simp)

end Bemi.Vmx
