import Bemi.Apic.Vectors

/-!
# End of interrupt and the handlers that run

`ApicGetPendingInterrupt` delivers whatever is requested, also while a greater vector is in service,
and `ApicShadowEoi` ends the greatest vector in service. So the end of interrupt of a handler may be
taken for that of another one.
-/

namespace Bemi.Apic
open Transition

variable {asmMsb32 : UInt32 → UInt32}

/-- Beside the injection of a vector, that of a number from 256 on, for which there is no bit in
IRR. -/
inductive InterruptStep (asmMsb32 : UInt32 → UInt32) :
    ApicShadow → Priority.Op Nat → Option Nat → ApicShadow → Prop where
  | vector {a op r a'} : VectorStep asmMsb32 a op r a' → InterruptStep asmMsb32 a op r a'
  | beyond {a} {vector : UInt32} :
    ¬ vector.toNat < 256 →
    InterruptStep asmMsb32 a (.inject vector.toNat)
      (some (apicShadowInjectInterrupt a vector).2.toNat) (apicShadowInjectInterrupt a vector).1

/-- The register file with the handlers that run, the innermost first. -/
abbrev HandlerStep (asmMsb32 : UInt32 → UInt32) :=
  Priority.Nest (InterruptStep asmMsb32)

/-- The vectors in service are those whose handlers run. -/
def IsrRunning (x : ApicShadow × List Nat) : Prop :=
  ∀ v, isr x.1 v = true ↔ v ∈ x.2

/-- An end of interrupt clears the bit of the innermost handler and no other. -/
def EoiClears (asmMsb32 : UInt32 → UInt32)
    (ev : Event (ApicShadow × List Nat) (Priority.Op Nat) (Option Nat)) : Prop :=
  ev.op = .eoi → ∀ v l, ev.before.2 = v :: l →
    isr ev.before.1 v = true ∧
      ∀ w, isr (apicShadowEoi asmMsb32 ev.before.1) w = true ↔ isr ev.before.1 w = true ∧ w ≠ v

/-- An interrupt is taken only if nothing is requested or the greatest vector requested is above all
in service. -/
def TakesAbove (ev : Event (ApicShadow × List Nat) (Priority.Op Nat) (Option Nat)) : Prop :=
  ev.op = .get → ∀ v, IsGreatest {v | irr ev.before.1 v = true} v →
    ∀ w, isr ev.before.1 w = true → w < v

lemma eoiClears_iff (hm : CountsFromTop asmMsb32)
    (ev : Event (ApicShadow × List Nat) (Priority.Op Nat) (Option Nat)) :
    EoiClears asmMsb32 ev ↔ Priority.EndsInnermost vectors ev := by
  refine forall_congr' fun _ => forall₃_congr fun v l _ => ?_
  exact (vectors_eoi hm ev.before.1).1.eoi_iff v

lemma vectors_inject_beyond (a : ApicShadow) {vector : UInt32} (h : ¬ vector.toNat < 256) :
    vectors (apicShadowInjectInterrupt a vector).1 = vectors a := by
  have hdiv : ¬ vector.toNat / 32 < 8 := by omega
  have hisr (v : Nat) : isr (apicShadowInjectInterrupt a vector).1 v = isr a v :=
    vectorSet_inject_beyond a hdiv (by decide) v
  simp only [vectors, irr_inject_beyond a hdiv, hisr]

/-- A number that is no vector is passed over. -/
lemma interruptStep_sim (hm : CountsFromTop asmMsb32) {a a' : ApicShadow} {op : Priority.Op Nat}
    {r : Option Nat} (st : InterruptStep asmMsb32 a op r a') :
    Priority.Lax (vectors a) op r (vectors a') := by
  cases st with
  | vector st => exact .step (vectorStep_sim hm st).1
  | beyond h =>
    rw [vectors_inject_beyond a h]
    exact .ignored

/-- Through a run, and through the ends of interrupt that may follow it, the vectors in service are
those whose handlers run and each end of interrupt is that of the innermost handler, exactly when no
interrupt is taken while a vector that is as great or greater is in service. -/
theorem eoi_innermost_iff (hm : CountsFromTop asmMsb32) (apicId : UInt32)
    {tr : List (Event (ApicShadow × List Nat) (Priority.Op Nat) (Option Nat))}
    {x : ApicShadow × List Nat}
    (run : Run (HandlerStep asmMsb32) ((apicShadowInit apicId).toApicShadow, []) tr x) :
    (∀ tr' x', (∀ ev ∈ tr', ev.op = .eoi) →
        Run (HandlerStep asmMsb32) ((apicShadowInit apicId).toApicShadow, []) (tr ++ tr') x' →
        Always IsrRunning (tr ++ tr') x' ∧ ∀ ev ∈ tr ++ tr', EoiClears asmMsb32 ev) ↔
      ∀ ev ∈ tr, TakesAbove ev := by
  simp only [eoiClears_iff hm]
  have sim (a : ApicShadow) (op : Priority.Op Nat) (r : Option Nat) (a' : ApicShadow)
      (st : InterruptStep asmMsb32 a op r a') : Priority.Lax (vectors a) op r (vectors a') :=
    interruptStep_sim hm st
  exact Priority.nest_iff sim (fun a => ⟨_, .vector .eoi⟩)
    (congrArg Priority.Sets.inService (vectors_init apicId)) run

/-- One interrupt, taken and ended. -/
theorem eoi_innermost_iff_one :
    ∃ tr x, Run (HandlerStep leadingZeros) ((apicShadowInit 0).toApicShadow, []) tr x ∧
      tr.map Event.answer = [some 33, some 33, none] ∧
      ∀ tr' x', (∀ ev ∈ tr', ev.op = .eoi) →
        Run (HandlerStep leadingZeros) ((apicShadowInit 0).toApicShadow, []) (tr ++ tr') x' →
        Always IsrRunning (tr ++ tr') x' ∧ ∀ ev ∈ tr ++ tr', EoiClears leadingZeros ev := by
  have hrun := @Run.nil _ _ _ (HandlerStep leadingZeros)
      ((apicShadowInit 0).toApicShadow, [])
    |>.snoc (.mk _ (.vector (@VectorStep.inject _ _ 33 (by decide))))
    |>.snoc (.mk _ (.vector .get)) |>.snoc (.mk _ (.vector .eoi))
  refine ⟨_, _, hrun, by decide, (eoi_innermost_iff countsFromTop_leadingZeros 0 hrun).mpr ?_⟩
  simp only [forall_mem_snoc]
  refine ⟨⟨⟨nofun, nofun⟩, fun _ v _ w hw => ?_⟩, nofun⟩
  -- nothing is in service when the interrupt is taken
  have hin : w ∈
      (vectors (apicShadowInjectInterrupt (apicShadowInit 0).toApicShadow 33).1).inService := hw
  rw [(vectors_inject _ (by decide)).2.1, vectors_init] at hin
  exact absurd hin (Set.notMem_empty w)

/-- Vector 33 is taken while 70 is in service, and its end of interrupt clears 70. -/
theorem eoi_innermost_not :
    ¬ ∀ asmMsb32, CountsFromTop asmMsb32 → ∀ apicId tr x,
      Run (HandlerStep asmMsb32) ((apicShadowInit apicId).toApicShadow, []) tr x →
      Always IsrRunning tr x ∧ ∀ ev ∈ tr, EoiClears asmMsb32 ev := by
  intro h
  have hrun := @Run.nil _ _ _ (HandlerStep leadingZeros)
      ((apicShadowInit 0).toApicShadow, [])
    |>.snoc (.mk _ (.vector (@VectorStep.inject _ _ 70 (by decide))))
    |>.snoc (.mk _ (.vector .get))
    |>.snoc (.mk _ (.vector (@VectorStep.inject _ _ 33 (by decide))))
    |>.snoc (.mk _ (.vector .get)) |>.snoc (.mk _ (.vector .eoi))
  have hevents := (h leadingZeros countsFromTop_leadingZeros 0 _ _ hrun).2
  rw [forall_mem_snoc] at hevents
  exact absurd (((hevents.2 rfl 33 [70] (by decide)).2 70).mpr (by decide)) (by decide)

end Bemi.Apic
