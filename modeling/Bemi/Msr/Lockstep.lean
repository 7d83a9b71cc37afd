import Bemi.Lib.Run
import Bemi.Msr.Exits
import Bemi.Msr.Shadow

/-!
# MSR exits and the MSR shadow

The MSR exits of a guest, carried out by `HandleMsrExit` and, side by side, by `MsrShadowRead` and
`MsrShadowWrite` on the table that `MsrShadowInit` makes. `HandleMsrExit` never looks at the table;
`honoured_iff` says in which runs nobody notices.
-/

namespace Bemi.Msr
open Transition Bemi.Vmx

/-- An RDMSR exit on either vendor. -/
def IsRead (info : VmExitInfo) : Prop :=
  info.exitReason = 0x1F ∨ info.exitReason = 0x7C ∧ info.exitQualification = 0

/-- A WRMSR exit on either vendor. -/
def IsWrite (info : VmExitInfo) : Prop :=
  info.exitReason = 0x20 ∨ info.exitReason = 0x7C ∧ info.exitQualification = 1

/-- The processor under `HandleMsrExit`, the shadowed one beside it, and the MSRs that the guest has
written. -/
structure Lockstep where
  msrs : UInt32 → UInt64
  shadow : ShadowedMsrs
  written : List UInt32

def Lockstep.init (msrs : UInt32 → UInt64) : Lockstep := ⟨msrs, msrShadowInit msrs, []⟩

/-- One exit, answered by the guest state it leaves. The two MSRs that `HandleMsrExit` protects are
not written. -/
inductive Step : Lockstep → VmExitInfo × GuestState → GuestState → Lockstep → Prop where
  | rdmsr {s info g} :
    IsRead info →
    Step s (info, g) (handleMsrExit info s.msrs g).2.1
      { s with msrs := (handleMsrExit info s.msrs g).1 }
  | wrmsr {s info g} :
    IsWrite info →
    ¬ IsProtected (msrOf g) →
    Step s (info, g) (handleMsrExit info s.msrs g).2.1
      { msrs := (handleMsrExit info s.msrs g).1
        shadow := (msrShadowWrite s.shadow (msrOf g) (valueOf g)).1
        written := msrOf g :: s.written }

abbrev ExitEvent := Event Lockstep (VmExitInfo × GuestState) GuestState

/-- The guest reads what the shadow holds, and an MSR whose entry is read-only or kept from the
processor is not written, whatever the processor holds. -/
def Honoured : ExitEvent → Prop
  | ⟨s, (info, g), g'⟩ =>
    (IsRead info → HoldsMsr (g'.gpr .rax) (g'.gpr .rdx) (msrShadowRead s.shadow (msrOf g)).1) ∧
      ∀ i entry, entryOf s.shadow.gMsrShadowTable i = some entry → ¬ entry.Through →
        ∀ msrs, (handleMsrExit info msrs g).1 i = msrs i

/-- The exits at which the table makes no difference. -/
def Unnoticed : ExitEvent → Prop
  | ⟨s, (info, g), _⟩ =>
    (IsWrite info → msrOf g ∉ withheldMsrs) ∧
      (IsRead info →
        (msrOf g ∈ zeroedMsrs → msrOf g ∉ s.written → s.msrs (msrOf g) = 0) ∧
          (info.exitReason = 0x7C → msrOf g ∉ withheldMsrs ∧
            HoldsMsr (g.gpr .rax) (g.gpr .rdx) (s.msrs (msrOf g))))

/-- What the exits that go unnoticed keep. -/
structure Synced (s : Lockstep) : Prop where
  hardware : s.msrs = s.shadow.msrs
  value : ∀ i entry, entryOf s.shadow.gMsrShadowTable i = some entry →
    entry.value = if i ∈ zeroedMsrs ∧ i ∉ s.written then 0 else s.msrs i
  through : ∀ i entry, entryOf s.shadow.gMsrShadowTable i = some entry →
    (entry.Through ↔ i ∉ withheldMsrs)
  found : ∀ i, i ∈ zeroedMsrs ∨ i ∈ withheldMsrs →
    (entryOf s.shadow.gMsrShadowTable i).isSome = true

lemma synced_init (msrs : UInt32 → UInt64) : Synced (.init msrs) where
  hardware := rfl
  value := by
    intro i entry h
    rw [(entryOf_init h).1]
    simp [Lockstep.init]
  through _ _ h := (entryOf_init h).2
  found _ := entryOf_init_isSome msrs

/-- What the guest would read from the shadow. -/
lemma Synced.read {s : Lockstep} (sync : Synced s) (i : UInt32) :
    (msrShadowRead s.shadow i).1 =
      if i ∈ zeroedMsrs ∧ i ∉ s.written then 0 else s.msrs i := by
  rw [msrShadowRead_eq]
  cases h : entryOf s.shadow.gMsrShadowTable i with
  | some entry => exact sync.value i entry h
  | none =>
    rw [Option.map_none, Option.getD_none, ← sync.hardware, if_neg]
    rintro ⟨hz, -⟩
    have := sync.found i (.inl hz)
    rw [h] at this
    cases this

/-- The shadow holds the value of the processor, unless it is zeroed and the processor is not. -/
lemma Synced.read_eq_iff {s : Lockstep} (sync : Synced s) (i : UInt32) :
    (msrShadowRead s.shadow i).1 = s.msrs i ↔
      (i ∈ zeroedMsrs → i ∉ s.written → s.msrs i = 0) := by
  rw [sync.read]
  split
  · rename_i h
    exact ⟨fun e _ _ => e.symm, fun e => (e h.1 h.2).symm⟩
  · rename_i h
    exact ⟨fun _ hz hw => absurd ⟨hz, hw⟩ h, fun _ => rfl⟩

/-! ## One exit -/

lemma not_isRead_of_isWrite {info : VmExitInfo} (hw : IsWrite info) : ¬ IsRead info := by
  rintro hr
  obtain h | ⟨h, q⟩ := hw <;> obtain h' | ⟨h', q'⟩ := hr
  · exact absurd (h'.symm.trans h) (by decide)
  · exact absurd (h'.symm.trans h) (by decide)
  · exact absurd (h'.symm.trans h) (by decide)
  · exact absurd (q'.symm.trans q) (by decide)

/-- Only the reason of RDMSR on VMX is taken for a read. -/
lemma reason_ne_of_isWrite {info : VmExitInfo} (hw : IsWrite info) : info.exitReason ≠ 0x1F := by
  obtain h | ⟨h, -⟩ := hw <;> (rw [h]; decide)

lemma reason_ne_of_svm {info : VmExitInfo} (h : info.exitReason = 0x7C) :
    info.exitReason ≠ 0x1F := by
  rw [h]
  decide

/-- The protected MSRs are not in the lists. -/
lemma not_protected {i : UInt32} (h : i ∈ zeroedMsrs ∨ i ∈ withheldMsrs) : ¬ IsProtected i := by
  unfold IsProtected
  rcases h with h | h
  · obtain rfl | rfl | rfl := mem_zeroedMsrs.mp h <;> decide
  · obtain rfl | rfl | rfl := mem_withheldMsrs.mp h <;> decide

/-- A read that goes unnoticed leaves the processor alone. -/
lemma Unnoticed.rdmsr_msrs {s : Lockstep} {info : VmExitInfo} {g g' : GuestState}
    (h : Unnoticed ⟨s, (info, g), g'⟩) (hr : IsRead info) :
    (handleMsrExit info s.msrs g).1 = s.msrs := by
  obtain hv | ⟨hs, -⟩ := id hr
  · rw [handleMsrExit_read hv]
  · rw [handleMsrExit_write (reason_ne_of_svm hs)]
    exact (wrmsr_eq_self_iff ..).mpr (.inr ((h.2 hr).2 hs).2.edxEax)

lemma synced_step {s s' : Lockstep} {a : VmExitInfo × GuestState} {r : GuestState}
    (sync : Synced s) (st : Step s a r s') (h : Unnoticed ⟨s, a, r⟩) : Synced s' := by
  cases st with
  | rdmsr hr =>
    rw [h.rdmsr_msrs hr]
    exact sync
  | @wrmsr info g hw hp =>
    have through : ∀ entry, entryOf s.shadow.gMsrShadowTable (msrOf g) = some entry →
        entry.Through := fun entry he => (sync.through _ entry he).mpr (h.1 hw)
    obtain ⟨hm, he⟩ := msrShadowWrite_through through (valueOf g)
    rw [handleMsrExit_write (reason_ne_of_isWrite hw)]
    have written := wrmsr_of_not_protected s.msrs hp (valueOf g)
    refine ⟨written.trans (sync.hardware ▸ hm.symm), fun i entry hi => ?_, fun i entry hi => ?_,
      fun i hi => ?_⟩
    · change entryOf (msrShadowWrite s.shadow (msrOf g) (valueOf g)).1.gMsrShadowTable i = _ at hi
      change _ = if i ∈ zeroedMsrs ∧ i ∉ msrOf g :: s.written then 0
        else wrmsr s.msrs (msrOf g) (valueOf g) i
      rw [he] at hi
      rw [written]
      split at hi
      · -- the MSR written
        rename_i hmsr
        obtain ⟨old, -, rfl⟩ := Option.map_eq_some_iff.mp hi
        rw [hmsr, Function.update_self, if_neg fun h => h.2 List.mem_cons_self]
        rfl
      · rename_i hmsr
        rw [sync.value i entry hi, Function.update_of_ne hmsr]
        simp only [List.mem_cons, hmsr, false_or]
    · change entryOf (msrShadowWrite s.shadow (msrOf g) (valueOf g)).1.gMsrShadowTable i = _ at hi
      rw [he] at hi
      split at hi
      · rename_i hmsr
        obtain ⟨old, ho, rfl⟩ := Option.map_eq_some_iff.mp hi
        rw [hmsr]
        exact sync.through _ old ho
      · exact sync.through i entry hi
    · have old := sync.found i hi
      change (entryOf (msrShadowWrite s.shadow (msrOf g) (valueOf g)).1.gMsrShadowTable i).isSome = _
      rw [he]
      split
      · rename_i hmsr
        rwa [Option.isSome_map, ← hmsr]
      · exact old

/-- An exit that goes unnoticed is honoured. -/
lemma Unnoticed.honoured {s : Lockstep} {info : VmExitInfo} {g : GuestState} (sync : Synced s)
    (hi : IsRead info ∨ IsWrite info)
    (h : Unnoticed ⟨s, (info, g), (handleMsrExit info s.msrs g).2.1⟩) :
    Honoured ⟨s, (info, g), (handleMsrExit info s.msrs g).2.1⟩ := by
  constructor
  · intro hr
    rw [(sync.read_eq_iff (msrOf g)).mpr (h.2 hr).1]
    obtain hv | ⟨hs, -⟩ := id hr
    · rw [handleMsrExit_read hv]
      exact ⟨rfl, rfl⟩
    · rw [handleMsrExit_write (reason_ne_of_svm hs)]
      exact ((h.2 hr).2 hs).2
  · intro i entry he hthrough msrs
    have hmem : i ∈ withheldMsrs := by
      by_contra hmem
      exact hthrough ((sync.through i entry he).mpr hmem)
    have other (hreason : info.exitReason ≠ 0x1F) (hmsr : msrOf g ∉ withheldMsrs) :
        (handleMsrExit info msrs g).1 i = msrs i := by
      rw [handleMsrExit_write hreason]
      exact wrmsr_of_ne _ _ fun e => hmsr (e ▸ hmem)
    rcases hi with hr | hw
    · obtain hv | ⟨hs, -⟩ := id hr
      · rw [handleMsrExit_read hv]
      · exact other (reason_ne_of_svm hs) ((h.2 hr).2 hs).1
    · exact other (reason_ne_of_isWrite hw) (h.1 hw)

/-- An exit that writes the processor names no MSR whose entry keeps writes away. -/
lemma Honoured.not_withheld {s : Lockstep} {info : VmExitInfo} {g g' : GuestState}
    (sync : Synced s) (h : Honoured ⟨s, (info, g), g'⟩) (hreason : info.exitReason ≠ 0x1F) :
    msrOf g ∉ withheldMsrs := by
  intro hmem
  obtain ⟨entry, he⟩ := Option.isSome_iff_exists.mp (sync.found _ (.inr hmem))
  have hthrough : ¬ entry.Through := fun ht => (sync.through _ entry he).mp ht hmem
  have untouched := h.2 _ entry he hthrough fun _ => valueOf g + 1
  rw [handleMsrExit_write hreason] at untouched
  change wrmsr _ (msrOf g) (valueOf g) (msrOf g) = _ at untouched
  rw [wrmsr_of_not_protected _ (not_protected (.inr hmem)), Function.update_self] at untouched
  simp at untouched

lemma honoured_unnoticed {s s' : Lockstep} {a : VmExitInfo × GuestState} {r : GuestState}
    (sync : Synced s) (st : Step s a r s') (h : Honoured ⟨s, a, r⟩)
    (same : s'.msrs = s'.shadow.msrs) : Unnoticed ⟨s, a, r⟩ := by
  cases st with
  | wrmsr hw hp =>
    exact ⟨fun _ => h.not_withheld sync (reason_ne_of_isWrite hw),
      fun hr => absurd hr (not_isRead_of_isWrite hw)⟩
  | @rdmsr info g hr =>
    refine ⟨fun hw => absurd hr (not_isRead_of_isWrite hw), fun _ => ?_⟩
    have read := (h.1 hr).edxEax
    obtain hv | ⟨hs, -⟩ := id hr
    · rw [handleMsrExit_read hv] at read
      have value : s.msrs (msrOf g) = (msrShadowRead s.shadow (msrOf g)).1 :=
        (edxEax_halves _).symm.trans read
      refine ⟨(sync.read_eq_iff _).mp value.symm, fun hs => ?_⟩
      exact absurd (hv.symm.trans hs) (by decide)
    · have hreason := reason_ne_of_svm hs
      have holds := h.1 hr
      rw [handleMsrExit_write hreason] at read same holds
      -- what is written back is what the shadow holds
      have value : (msrShadowRead s.shadow (msrOf g)).1 = s.msrs (msrOf g) := by
        rcases (wrmsr_eq_self_iff ..).mp (same.trans sync.hardware.symm) with hp | hv
        · exact (sync.read_eq_iff _).mpr fun hz => absurd hp (not_protected (.inl hz))
        · exact read.symm.trans hv
      refine ⟨(sync.read_eq_iff _).mp value, fun _ => ⟨h.not_withheld sync hreason, ?_⟩⟩
      rw [← value]
      exact holds

/-! ## Runs -/

/-- The processor and the shadowed one stay the same and every exit is honoured, exactly when no
exit names an MSR whose entry makes a difference. -/
theorem honoured_iff (msrs : UInt32 → UInt64) {tr : List ExitEvent} {s : Lockstep}
    (run : Run Step (.init msrs) tr s) :
    (Always (fun s => s.msrs = s.shadow.msrs) tr s ∧ ∀ ev ∈ tr, Honoured ev) ↔
      ∀ ev ∈ tr, Unnoticed ev := by
  apply Run.always_iff (synced_init msrs) ?_ ?_ ?_ ?_ run
  · exact fun s a r s' sync st h => synced_step sync st h
  · exact fun s sync => sync.hardware
  · intro s a r s' sync st h
    cases st with
    | rdmsr hr => exact h.honoured sync (.inl hr)
    | wrmsr hw _ => exact h.honoured sync (.inr hw)
  · exact fun s a r s' sync st h same => honoured_unnoticed sync st h same

/-- An exit on VMX for an MSR, with a value in EDX:EAX. -/
def msrExit (reason : UInt64) (index : UInt32) (value : UInt64) : VmExitInfo × GuestState :=
  (⟨reason, 0, 0, 0, 2, 0, 0⟩,
    ⟨fun | .rax => value &&& 0xFFFFFFFF | .rcx => index.toUInt64 | .rdx => value >>> 32 | _ => 0,
      0, 0, 0, 0, 0, 0⟩)

/-- A guest writes the APIC base and reads it back. -/
theorem honoured_iff_apicBase : ∃ tr s, tr.length = 2 ∧ Run Step (.init fun _ => 0) tr s ∧
    Always (fun s => s.msrs = s.shadow.msrs) tr s ∧ ∀ ev ∈ tr, Honoured ev := by
  have run : Run Step (.init fun _ => 0) _ _ := .snoc (.snoc .nil
    (.wrmsr (.inl rfl) (by rintro (h | h) <;> exact absurd h (by decide)) :
      Step _ (msrExit 0x20 0x1B 7) _ _))
    (.rdmsr (.inl rfl) : Step _ (msrExit 0x1F 0x1B 0) _ _)
  refine ⟨_, _, rfl, run, (honoured_iff _ run).mpr ?_⟩
  intro ev hev
  rcases List.mem_pair.mp hev with rfl | rfl
  · exact ⟨fun _ => by decide,
      fun hr => absurd hr (not_isRead_of_isWrite (.inl rfl))⟩
  · exact ⟨fun _ => by decide, fun _ => ⟨fun h => absurd h (by decide),
      fun h => absurd h (by decide)⟩⟩

/-- TSC is 5 in the processor and 0 in the table. -/
theorem honoured_not : ¬ ∀ (msrs : UInt32 → UInt64) (tr : List ExitEvent) (s : Lockstep),
    Run Step (.init msrs) tr s →
      Always (fun s => s.msrs = s.shadow.msrs) tr s ∧ ∀ ev ∈ tr, Honoured ev := by
  intro all
  have run : Run Step (.init fun i => if i = 0x10 then 5 else 0) _ _ :=
    .snoc .nil (.rdmsr (.inl rfl) : Step _ (msrExit 0x1F 0x10 0) _ _)
  have honoured := (all _ _ _ run).2 _ List.mem_cons_self
  exact absurd (honoured.1 (.inl rfl)).1 (by decide)

end Bemi.Msr
