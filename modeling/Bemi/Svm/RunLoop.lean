import Bemi.Lib.Run
import Bemi.Svm.Npf

/-!
# The run loop

The loop of `SvmRunVcpu` in `hypervisor/svm/svmcore.c`. `VMRUN` loads the guest's RAX from the VMCB and
saves it there, but the exit handler takes it from an array that starts as zeros and that only the
handler writes to, and never looks at the field. `run_rax_iff` has the runs in which the guest goes on
with the RAX that the handler has left.
-/

namespace Bemi.Svm
open Transition Bemi.Apic Bemi.Vmx

/-- `SVM_VMCB_GUEST_RAX`. -/
def vmcbGuestRax (vmcb : UInt64 → UInt64) : UInt64 := vmcb 0x150

/-- What `BemiSvmVmRun` returns, and the state when the guest has exited. -/
structure VmRun where
  result : UInt8
  exit : SvmState

/-- One turn of the loop, or the status it ends with. -/
def svmRunTurn (host : Host) (run : VmRun) (guestGpr : List UInt64) :
    Except EfiStatus (SvmState × List UInt64) :=
  if run.result ≠ 0 then .error .deviceError
  else
    let (s, guestGpr, status) := bemiSvmExitHandler host run.exit guestGpr
    if status.isError then .error status else .ok (s, guestGpr)

/-- The loop between two calls of `BemiSvmVmRun`: the guest may leave any state, and the answer is the
one it goes on with. -/
def LoopStep (host : Host) (loop : SvmState × List UInt64) (run : VmRun)
    (answer loop' : SvmState × List UInt64) : Prop :=
  svmRunTurn host run loop.2 = .ok loop' ∧ answer = loop'

abbrev LoopEvent := Event (SvmState × List UInt64) VmRun (SvmState × List UInt64)

/-- The loop begins with zeros in `guestGpr`. -/
def loopStart (s : SvmState) : SvmState × List UInt64 := (s, List.replicate 15 0)

/-! ## RAX after an exit -/

section
variable (host : Host) (info : VmExitInfo) (g : GuestState)

lemma cpuidAnswer_eax (leaf subleaf : UInt32) :
    (cpuidAnswer host leaf subleaf).eax =
      if leaf = 0 ∧ (host.asmCpuidEx leaf subleaf).eax > 0x1F then 0x1F
      else (host.asmCpuidEx leaf subleaf).eax := by
  rw [cpuidAnswer]
  by_cases h01 : leaf = 1
  · subst h01
    rfl
  rw [if_neg h01]
  split
  · rfl
  · rfl

lemma handleMsrExit_rax (h : info.exitReason ≠ 0x1F) (msrs : UInt32 → UInt64) :
    (handleMsrExit info msrs g).2.1.gpr .rax = g.gpr .rax := by
  rw [handleMsrExit, if_neg h]
  rfl

lemma gprArray_eq_rax_iff {n : Nat} (h : n < 16) : gprArray.getD n .r15 = .rax ↔ n = 0 := by
  have hnumber : ∀ k : Fin 16, gprArray.getD k.val .r15 = .rax ↔ k.val = 0 := by decide
  exact hnumber ⟨n, h⟩

/-- The exit is a move from a control register to RAX. -/
def MovesToRax : Prop :=
  (info.exitQualification >>> 4) &&& 0x03 ≠ 0 ∧ (info.exitQualification >>> 8) &&& 0x0F = 0

/-- The control register of the qualification. -/
def crValue : UInt64 :=
  let crNum := info.exitQualification &&& 0x0F
  if crNum = 0 then g.guestCr0
  else if crNum = 3 then g.guestCr3
  else if crNum = 4 then g.guestCr4
  else 0

lemma handleCrAccess_rax :
    (MovesToRax info → (handleCrAccess info g).1.gpr .rax = crValue info g) ∧
      (¬ MovesToRax info → (handleCrAccess info g).1.gpr .rax = g.gpr .rax) := by
  have hreg : gprArray.getD ((info.exitQualification >>> 8) &&& 0x0F).toNat .r15 = .rax ↔
      (info.exitQualification >>> 8) &&& 0x0F = 0 := by
    have hlt : ((info.exitQualification >>> 8) &&& 0x0F).toNat < 16 := by
      rw [UInt64.toNat_and]
      exact Nat.lt_succ_of_le Nat.and_le_right
    exact (gprArray_eq_rax_iff hlt).trans (UInt64.toNat_inj (b := 0))
  rw [MovesToRax, ← hreg, handleCrAccess]
  dsimp only
  by_cases htype : (info.exitQualification >>> 4) &&& 0x03 = 0
  · rw [if_pos htype]
    refine ⟨fun h => absurd htype h.1, fun _ => ?_⟩
    split_ifs <;> rfl
  · rw [if_neg htype]
    constructor
    · rintro ⟨-, hrax⟩
      rw [hrax]
      exact gpr_setGpr_self g .rax _
    · intro h
      exact Function.update_of_ne (fun heq => h ⟨htype, heq.symm⟩) _ _

/-- The exit is a read of the APIC page. -/
def ReadsApic : Prop :=
  info.exitQualification &&& 0xFFFFFFFFFFFFF000 = 0xFEE00000 ∧
    info.exitQualification &&& 0x20 = 0

/-- No other page is in the range of the APIC. -/
lemma beyond_page {address : UInt64} (h : address &&& 0xFFFFFFFFFFFFF000 ≠ 0xFEE00000) :
    address &&& 0xFFFFFFFFFFFFF000 < 0xFEE00000 ∨ address &&& 0xFFFFFFFFFFFFF000 ≥ 0xFEE01000 := by
  have haligned : (address &&& 0xFFFFFFFFFFFFF000) &&& 0xFFF = 0 := by
    rw [UInt64.and_assoc]
    exact UInt64.and_zero
  generalize address &&& 0xFFFFFFFFFFFFF000 = page at h haligned ⊢
  have hmod : page.toNat % 0x1000 = 0 :=
    (Bits.toNat_and_mask (k := 12) page rfl).symm.trans (congrArg UInt64.toNat haligned)
  have hne : page.toNat ≠ 0xFEE00000 := fun heq => h (UInt64.toNat_inj.mp heq)
  rw [UInt64.lt_iff_toNat_lt, ge_iff_le, UInt64.le_iff_toNat_le]
  change page.toNat < 0xFEE00000 ∨ 0xFEE01000 ≤ page.toNat
  omega

lemma handleNpf_rax (a : Lapic) :
    (ReadsApic info → (handleNpf host info a g).2.gpr .rax =
        Bits.setLow (g.gpr .rax) (apicShadowRead a.toApicShadow 0)) ∧
      (¬ ReadsApic info → (handleNpf host info a g).2.gpr .rax = g.gpr .rax) := by
  rw [ReadsApic, handleNpf]
  dsimp only
  by_cases hpage : info.exitQualification &&& 0xFFFFFFFFFFFFF000 = 0xFEE00000
  · rw [hpage, if_pos (by decide), apicHandleMmioAccess_page]
    by_cases hwrite : info.exitQualification &&& 0x20 ≠ 0
    · rw [decide_eq_true hwrite, if_pos rfl]
      dsimp only
      rw [if_pos hwrite]
      exact ⟨fun h => absurd h.2 hwrite, fun _ => rfl⟩
    · rw [decide_eq_false hwrite, if_neg Bool.false_ne_true]
      dsimp only
      rw [if_neg hwrite, Bits.dword_and]
      exact ⟨fun _ => gpr_setGpr_self g .rax _, fun h => absurd ⟨rfl, not_not.mp hwrite⟩ h⟩
  · refine ⟨fun h => absurd h.1 hpage, fun _ => ?_⟩
    split
    · rw [apicHandleMmioAccess, if_pos (beyond_page hpage)]
    · rfl

/-- The exit codes of accesses to control registers. -/
abbrev IsCrExit (exitReason : UInt64) : Prop :=
  exitReason = 0x00 ∨ exitReason = 0x03 ∨ exitReason = 0x04 ∨ exitReason = 0x10 ∨
    exitReason = 0x13 ∨ exitReason = 0x14

instance decidableMovesToRax : Decidable (MovesToRax info) :=
  inferInstanceAs (Decidable (_ ∧ _))

instance decidableReadsApic : Decidable (ReadsApic info) :=
  inferInstanceAs (Decidable (_ ∧ _))

/-- What the handler leaves in RAX. -/
lemma dispatch_rax (s : SvmState) :
    (dispatch host info s g).2.1.gpr .rax =
      if info.exitReason = 0x72 then
        (cpuidAnswer host (g.gpr .rax).toUInt32 (g.gpr .rcx).toUInt32).eax.toUInt64
      else if IsCrExit info.exitReason ∧ MovesToRax info then crValue info g
      else if info.exitReason = 0x400 ∧ ReadsApic info then
        Bits.setLow (g.gpr .rax) (apicShadowRead s.apic.toApicShadow 0)
      else g.gpr .rax := by
  have hcr := handleCrAccess_rax info g
  have hnpf := handleNpf_rax host info g s.apic
  have hmoves (h : ¬ IsCrExit info.exitReason) :
      ¬ (IsCrExit info.exitReason ∧ MovesToRax info) := fun hboth => h hboth.1
  have hreads (h : info.exitReason ≠ 0x400) :
      ¬ (info.exitReason = 0x400 ∧ ReadsApic info) := fun hboth => h hboth.1
  rw [dispatch]
  dsimp only
  by_cases h72 : info.exitReason = 0x72
  · rw [if_pos h72, if_pos h72]
    rfl
  rw [if_neg h72, if_neg h72]
  by_cases h7C : info.exitReason = 0x7C
  · have hread : info.exitReason ≠ 0x1F := by rw [h7C]; decide
    rw [if_pos h7C, if_neg (hmoves (by rw [h7C]; decide)), if_neg (hreads (by rw [h7C]; decide))]
    exact handleMsrExit_rax info g hread s.msrs
  rw [if_neg h7C]
  by_cases hexit : IsCrExit info.exitReason
  · have h400 : info.exitReason ≠ 0x400 := by
      rcases hexit with h | h | h | h | h | h <;> rw [h] <;> decide
    rw [if_pos hexit, if_neg (hreads h400)]
    split
    · rename_i hboth
      exact hcr.1 hboth.2
    · rename_i hnot
      exact hcr.2 fun h => hnot ⟨hexit, h⟩
  rw [if_neg hexit, if_neg (hmoves hexit)]
  by_cases h7B : info.exitReason = 0x7B
  · rw [if_pos h7B, if_neg (hreads (by rw [h7B]; decide))]
    rfl
  rw [if_neg h7B]
  by_cases h78 : info.exitReason = 0x78
  · rw [if_pos h78, if_neg (hreads (by rw [h78]; decide))]
    rfl
  rw [if_neg h78]
  by_cases h400 : info.exitReason = 0x400
  · rw [if_pos h400]
    split
    · rename_i hboth
      exact hnpf.1 hboth.2
    · rename_i hnot
      exact hnpf.2 fun h => hnot ⟨h400, h⟩
  · rw [if_neg h400, if_neg (hreads h400)]

end

/-! ## One turn -/

section
variable (host : Host) (exit : SvmState) (guestGpr : List UInt64)

/-- The guest state and the exit information that the handler takes. -/
def exitGuest : GuestState := readGuestState exit.vmcb guestGpr

def exitInfo : VmExitInfo := readExitInfo exit.vmcb (exitGuest exit guestGpr)

/-- A CPUID exit is answered for the leaf in the guest's RAX, and the guest goes on with the RAX that
the handler has left. -/
def RaxSeen (after : SvmState × List UInt64) : Prop :=
  (exit.vmcb 0x70 = 0x72 →
    ((exitGuest exit guestGpr).gpr .rax).toUInt32 = (vmcbGuestRax exit.vmcb).toUInt32) ∧
  vmcbGuestRax after.1.vmcb = raxOf after.2

/-- The RAX that the guest has saved is the one it should get: after CPUID the answer for its own leaf,
which the array holds as well, and otherwise a control register or an APIC register that it reads
into RAX, or what the array holds. -/
def Coincides : Prop :=
  let saved := vmcbGuestRax exit.vmcb
  let info := exitInfo exit guestGpr
  if exit.vmcb 0x70 = 0x72 then
    let leaf := saved.toUInt32
    let eax := (host.asmCpuidEx leaf (guestGpr.getD 2 0).toUInt32).eax
    (raxOf guestGpr).toUInt32 = leaf ∧
      saved = (if leaf = 0 ∧ eax > 0x1F then 0x1F else eax).toUInt64
  else if IsCrExit (exit.vmcb 0x70) ∧ MovesToRax info then
    saved = crValue info (exitGuest exit guestGpr)
  else if exit.vmcb 0x70 = 0x400 ∧ ReadsApic info then
    saved = Bits.setLow (raxOf guestGpr) (apicShadowRead exit.apic.toApicShadow 0)
  else saved = raxOf guestGpr

lemma dispatch_vmcb (info : VmExitInfo) (g : GuestState) :
    (dispatch host info exit g).1.vmcb = exit.vmcb := by
  rw [dispatch]
  dsimp only
  split_ifs <;> rfl

/-- The handler keeps off the guest's RAX in the VMCB. -/
lemma vmcbGuestRax_exit :
    vmcbGuestRax (bemiSvmExitHandler host exit guestGpr).1.vmcb = vmcbGuestRax exit.vmcb := by
  let d := dispatch host (exitInfo exit guestGpr) exit (exitGuest exit guestGpr)
  calc vmcbGuestRax (bemiSvmExitHandler host exit guestGpr).1.vmcb
      = writeGuestState d.1.vmcb d.2.1 0x150 := rfl
    _ = d.1.vmcb 0x150 := rfl
    _ = exit.vmcb 0x150 := congrFun (dispatch_vmcb host exit _ _) 0x150

lemma raxOf_exit :
    raxOf (bemiSvmExitHandler host exit guestGpr).2.1 =
      (dispatch host (exitInfo exit guestGpr) exit (exitGuest exit guestGpr)).2.1.gpr .rax := rfl

/-- The guest sees the right RAX exactly when it has saved it. -/
lemma raxSeen_iff :
    RaxSeen exit guestGpr ((bemiSvmExitHandler host exit guestGpr).1,
        (bemiSvmExitHandler host exit guestGpr).2.1) ↔ Coincides host exit guestGpr := by
  have hreason : (exitInfo exit guestGpr).exitReason = exit.vmcb 0x70 := rfl
  have hrax : (exitGuest exit guestGpr).gpr .rax = raxOf guestGpr := rfl
  have hrcx : (exitGuest exit guestGpr).gpr .rcx = guestGpr.getD 2 0 := rfl
  rw [RaxSeen, Coincides, vmcbGuestRax_exit, raxOf_exit, dispatch_rax, hreason, hrax, hrcx]
  dsimp only
  by_cases h72 : exit.vmcb 0x70 = 0x72
  · rw [if_pos h72, if_pos h72, forall_prop_of_true h72]
    refine and_congr_right fun hleaf => ?_
    rw [cpuidAnswer_eax, hleaf]
  · rw [if_neg h72, if_neg h72, forall_prop_of_false h72, true_and]
    split
    · rfl
    split
    · rfl
    · rfl

end

/-- A turn of the loop is an exit handled. -/
lemma loopStep_eq {host : Host} {loop loop' answer : SvmState × List UInt64} {run : VmRun}
    (h : LoopStep host loop run answer loop') :
    answer = ((bemiSvmExitHandler host run.exit loop.2).1,
      (bemiSvmExitHandler host run.exit loop.2).2.1) := by
  obtain ⟨hturn, hanswer⟩ := h
  rw [svmRunTurn] at hturn
  split at hturn
  · cases hturn
  · dsimp only at hturn
    split at hturn
    · cases hturn
    · rw [hanswer]
      exact (Except.ok.inj hturn).symm

/-- In a run of the loop the guest sees the right RAX at every exit exactly when it has saved it at
each. -/
theorem run_rax_iff (host : Host) {s : SvmState} {tr : List LoopEvent}
    {loop : SvmState × List UInt64} (run : Run (LoopStep host) (loopStart s) tr loop) :
    (∀ ev ∈ tr, RaxSeen ev.op.exit ev.before.2 ev.answer) ↔
      ∀ ev ∈ tr, Coincides host ev.op.exit ev.before.2 := by
  refine forall₂_congr fun ev hev => ?_
  obtain ⟨pre, post, hsplit⟩ := List.append_of_mem hev
  obtain ⟨-, loop', hstep⟩ := run.split hsplit
  rw [loopStep_eq hstep]
  exact raxSeen_iff host ev.op.exit ev.before.2

/-- The guest exits for CPUID with a leaf in RAX. -/
def cpuidExit (leaf : UInt64) : VmRun where
  result := 0
  exit :=
    { vmcb := fun field => if field = 0x70 then 0x72 else if field = 0x150 then leaf else 0
      msrs := fun _ => 0
      apic := apicShadowInit 0 }

/-- One turn for it, from the start. -/
def cpuidTurn (leaf : UInt64) : LoopEvent :=
  let start := loopStart (cpuidExit leaf).exit
  let after := bemiSvmExitHandler npfHost (cpuidExit leaf).exit start.2
  ⟨start, cpuidExit leaf, (after.1, after.2.1)⟩

lemma run_cpuidTurn (leaf : UInt64) :
    Run (LoopStep npfHost) (loopStart (cpuidExit leaf).exit) [cpuidTurn leaf]
      (cpuidTurn leaf).answer :=
  .snoc .nil ⟨rfl, rfl⟩

/-- The guest moves CR3 to RAX and has its value there already. -/
def cr3Exit (value : UInt64) : VmRun where
  result := 0
  exit :=
    { vmcb := fun field =>
        if field = 0x70 then 0x03 else if field = 0x78 then 0x13
        else if field = 0x110 ∨ field = 0x150 then value else 0
      msrs := fun _ => 0
      apic := apicShadowInit 0 }

/-- A processor whose CPUID answers with the leaf and the subleaf. -/
def echoHost : Host := ⟨fun leaf subleaf => ⟨leaf, 0, subleaf, 0⟩, fun _ => 0⟩

/-- The guest reads CR3, and then exits for the CPUID leaf of the same number. -/
def leafTurns (value : UInt64) : List LoopEvent :=
  let start := loopStart (cr3Exit value).exit
  let first := bemiSvmExitHandler echoHost (cr3Exit value).exit start.2
  let second := bemiSvmExitHandler echoHost (cpuidExit value).exit first.2.1
  [⟨start, cr3Exit value, (first.1, first.2.1)⟩,
    ⟨(first.1, first.2.1), cpuidExit value, (second.1, second.2.1)⟩]

/-- Leaf 0x40000000, from a guest that has just read it from CR3. -/
theorem run_rax_leaf_held :
    ∃ loop, Run (LoopStep echoHost) (loopStart (cr3Exit 0x40000000).exit)
        (leafTurns 0x40000000) loop ∧
      ∀ ev ∈ leafTurns 0x40000000, vmcbGuestRax ev.op.exit.vmcb = 0x40000000 ∧
        RaxSeen ev.op.exit ev.before.2 ev.answer := by
  have run : Run (LoopStep echoHost) (loopStart (cr3Exit 0x40000000).exit)
      (leafTurns 0x40000000) _ := .snoc (.snoc .nil ⟨rfl, rfl⟩) ⟨rfl, rfl⟩
  have hseen := (run_rax_iff echoHost run).mpr ?_
  · refine ⟨_, run, fun ev hev => ⟨?_, hseen ev hev⟩⟩
    rcases List.mem_cons.mp hev with rfl | hev
    · rfl
    · obtain rfl := List.mem_singleton.mp hev
      rfl
  · intro ev hev
    rcases List.mem_cons.mp hev with rfl | hev
    · rw [Coincides, if_neg (by decide), if_pos ⟨.inr (.inl rfl), by decide, by decide⟩]
      rfl
    · obtain rfl := List.mem_singleton.mp hev
      exact ⟨by decide, by decide⟩

/-- Leaf 1 is answered as leaf 0, and the guest still has 1 in RAX. -/
theorem run_rax_leaf_one :
    Run (LoopStep npfHost) (loopStart (cpuidExit 1).exit) [cpuidTurn 1] (cpuidTurn 1).answer ∧
      ((exitGuest (cpuidTurn 1).op.exit (cpuidTurn 1).before.2).gpr .rax).toUInt32 = 0 ∧
      vmcbGuestRax (cpuidTurn 1).answer.1.vmcb = 1 ∧
      ¬ RaxSeen (cpuidTurn 1).op.exit (cpuidTurn 1).before.2 (cpuidTurn 1).answer := by
  refine ⟨run_cpuidTurn 1, by decide, by decide, fun hseen => ?_⟩
  exact absurd (hseen.1 (by decide)) (by decide)

end Bemi.Svm
