import Bemi.Lib.Run
import Bemi.Lib.Slots

/-!
# Interrupt latency

Model of `performance/interrupt/interruptlatency.c`: a table of 256 interrupt events, the handlers, and
the statistics. `AsmReadTsc` is the time stamp that each call is given.

The statistics are meant to account for every interrupt: it is coalesced, pending or delivered. A
trigger that finds the table full is counted and dropped, and a delivery that finds nothing pending
counts as a fast one. `interrupts_conserved_iff` says that nothing else goes wrong.
-/

namespace Bemi.Interrupt
open Transition

abbrev maxInterruptVectors : Nat := 256

def interruptCoalesceWindow : UInt64 := 100

structure InterruptEvent where
  vector : UInt8
  arrivalTime : UInt64
  deliveryTime : UInt64
  pending : Bool
  coalesced : Bool
  deriving DecidableEq

structure InterruptHandler where
  vector : UInt8
  handlerAddress : UInt64
  registered : Bool
  totalLatency : UInt64
  maxLatency : UInt64
  count : UInt64
  deriving DecidableEq

structure Globals where
  gInterruptEvents : Fin maxInterruptVectors → InterruptEvent
  gInterruptHandlers : UInt8 → InterruptHandler
  gMaxObservedLatency : UInt64
  gTotalInterrupts : UInt64
  gPostedInterrupts : UInt64
  gCoalescedInterrupts : UInt64
  gFastPathInterrupts : UInt64

def interruptLatencyInit : Globals where
  gInterruptEvents := fun _ => ⟨0, 0, 0, false, false⟩
  gInterruptHandlers := fun _ => ⟨0, 0, false, 0, 0, 0⟩
  gMaxObservedLatency := 0
  gTotalInterrupts := 0
  gPostedInterrupts := 0
  gCoalescedInterrupts := 0
  gFastPathInterrupts := 0

namespace Globals

/-- The first slot that a trigger of the vector can be coalesced into. -/
def findCoalescing (g : Globals) (vector : UInt8) (arrivalTime : UInt64) :
    Option (Fin maxInterruptVectors) :=
  (List.finRange maxInterruptVectors).find? fun i =>
    (g.gInterruptEvents i).pending && (g.gInterruptEvents i).vector = vector &&
      arrivalTime - (g.gInterruptEvents i).arrivalTime < interruptCoalesceWindow

/-- The first slot with no pending event. -/
def findFree (g : Globals) : Option (Fin maxInterruptVectors) :=
  (List.finRange maxInterruptVectors).find? fun i => !(g.gInterruptEvents i).pending

/-- The first slot with a pending event of the vector. -/
def findPending (g : Globals) (vector : UInt8) : Option (Fin maxInterruptVectors) :=
  (List.finRange maxInterruptVectors).find? fun i =>
    (g.gInterruptEvents i).pending && (g.gInterruptEvents i).vector = vector

end Globals

def interruptTrigger (g : Globals) (vector : UInt8) (arrivalTime : UInt64) : Globals :=
  let g := { g with gTotalInterrupts := g.gTotalInterrupts + 1 }
  match g.findCoalescing vector arrivalTime with
  | some i =>
    { g with
      gInterruptEvents := Function.update g.gInterruptEvents i
        { g.gInterruptEvents i with coalesced := true }
      gCoalescedInterrupts := g.gCoalescedInterrupts + 1 }
  | none =>
    match g.findFree with
    | some i =>
      { g with
        gInterruptEvents := Function.update g.gInterruptEvents i
          { g.gInterruptEvents i with vector, arrivalTime, pending := true, coalesced := false } }
    | none => g

/-- What a delivery does to a handler. -/
def InterruptHandler.account (h : InterruptHandler) (latencyUs : UInt64) : InterruptHandler :=
  if h.registered then
    { h with
      totalLatency := h.totalLatency + latencyUs
      count := h.count + 1
      maxLatency := if latencyUs > h.maxLatency then latencyUs else h.maxLatency }
  else h

def interruptDeliver (g : Globals) (vector : UInt8) (deliveryTime : UInt64) : Globals :=
  let (g, latencyUs) :=
    match g.findPending vector with
    | some i =>
      let event := g.gInterruptEvents i
      let latencyUs := deliveryTime - event.arrivalTime
      ({ g with
        gInterruptEvents := Function.update g.gInterruptEvents i
          { event with deliveryTime, pending := false }
        gMaxObservedLatency :=
          if latencyUs > g.gMaxObservedLatency then latencyUs else g.gMaxObservedLatency
        gInterruptHandlers := Function.update g.gInterruptHandlers vector
          ((g.gInterruptHandlers vector).account latencyUs) }, latencyUs)
    | none => (g, 0)
  if latencyUs < 5 then { g with gFastPathInterrupts := g.gFastPathInterrupts + 1 } else g

/-! ## Runs -/

inductive InterruptCall where
  | trigger (vector : UInt8) (tsc : UInt64)
  | deliver (vector : UInt8) (tsc : UInt64)
  deriving DecidableEq, Repr

def InterruptCall.tsc : InterruptCall → UInt64
  | .trigger _ tsc => tsc
  | .deliver _ tsc => tsc

def Globals.call (g : Globals) : InterruptCall → Globals
  | .trigger vector tsc => interruptTrigger g vector tsc
  | .deliver vector tsc => interruptDeliver g vector tsc

/-- What the deliveries have found: events, those among them with a latency of 5 or more, and
nothing. -/
structure Tally where
  delivered : Nat
  slow : Nat
  empty : Nat
  deriving DecidableEq, Repr

def Tally.after (t : Tally) (g : Globals) : InterruptCall → Tally
  | .trigger .. => t
  | .deliver vector tsc =>
    match g.findPending vector with
    | none => { t with empty := t.empty + 1 }
    | some i =>
      if tsc - (g.gInterruptEvents i).arrivalTime < 5 then { t with delivered := t.delivered + 1 }
      else { t with delivered := t.delivered + 1, slow := t.slow + 1 }

/-- One call, at any time. -/
inductive LatencyStep : Globals × Tally → InterruptCall → Unit → Globals × Tally → Prop where
  | mk (g : Globals) (t : Tally) (op : InterruptCall) :
    LatencyStep (g, t) op () (g.call op, t.after g op)

abbrev LatencyEvent := Event (Globals × Tally) InterruptCall Unit

/-- The number of pending events. -/
def Globals.pendingCount (g : Globals) : Nat :=
  Slots.count InterruptEvent.pending g.gInterruptEvents

/-- Every interrupt triggered is coalesced, pending or delivered. -/
def Conserved (x : Globals × Tally) : Prop :=
  x.1.gTotalInterrupts =
    x.1.gCoalescedInterrupts + UInt64.ofNat x.1.pendingCount + UInt64.ofNat x.2.delivered

/-- No more fast deliveries than deliveries. -/
def FastBounded (x : Globals × Tally) : Prop :=
  x.1.gFastPathInterrupts.toNat ≤ x.2.delivered

/-- A trigger is coalesced or finds a free slot. -/
def TriggerKept (ev : LatencyEvent) : Prop :=
  ∀ vector tsc, ev.op = .trigger vector tsc →
    ev.before.1.findCoalescing vector tsc ≠ none ∨ ev.before.1.findFree ≠ none

/-- The deliveries that found nothing are no more than the slow ones. -/
def EmptyBounded (x : Globals × Tally) : Prop :=
  x.2.empty ≤ x.2.slow

/-! ## One call -/

section
variable (g : Globals)

lemma pendingCount_update {events : Fin maxInterruptVectors → InterruptEvent}
    (i : Fin maxInterruptVectors) (e : InterruptEvent) :
    Slots.count InterruptEvent.pending (Function.update events i e) + (events i).pending.toNat =
      Slots.count InterruptEvent.pending events + e.pending.toNat :=
  Slots.count_update InterruptEvent.pending events i e

/-- A trigger that can be coalesced is. -/
lemma trigger_coalesced {vector : UInt8} {tsc : UInt64} {i : Fin maxInterruptVectors}
    (h : g.findCoalescing vector tsc = some i) : interruptTrigger g vector tsc =
      { g with
        gTotalInterrupts := g.gTotalInterrupts + 1
        gInterruptEvents := Function.update g.gInterruptEvents i
          { g.gInterruptEvents i with coalesced := true }
        gCoalescedInterrupts := g.gCoalescedInterrupts + 1 } := by
  have hfound : Globals.findCoalescing { g with gTotalInterrupts := g.gTotalInterrupts + 1 }
    vector tsc = some i := h
  rw [interruptTrigger, hfound]

/-- Else it becomes pending in the first free slot. -/
lemma trigger_pending {vector : UInt8} {tsc : UInt64} {i : Fin maxInterruptVectors}
    (h : g.findCoalescing vector tsc = none) (hslot : g.findFree = some i) :
    interruptTrigger g vector tsc =
      { g with
        gTotalInterrupts := g.gTotalInterrupts + 1
        gInterruptEvents := Function.update g.gInterruptEvents i
          { g.gInterruptEvents i with
            vector, arrivalTime := tsc, pending := true, coalesced := false } } := by
  have hfound : Globals.findCoalescing { g with gTotalInterrupts := g.gTotalInterrupts + 1 }
    vector tsc = none := h
  have hfree : Globals.findFree { g with gTotalInterrupts := g.gTotalInterrupts + 1 } = some i :=
    hslot
  rw [interruptTrigger, hfound]
  dsimp only
  rw [hfree]

/-- With no free slot it is only counted. -/
lemma trigger_dropped {vector : UInt8} {tsc : UInt64} (h : g.findCoalescing vector tsc = none)
    (hslot : g.findFree = none) : interruptTrigger g vector tsc =
      { g with gTotalInterrupts := g.gTotalInterrupts + 1 } := by
  have hfound : Globals.findCoalescing { g with gTotalInterrupts := g.gTotalInterrupts + 1 }
    vector tsc = none := h
  have hfree : Globals.findFree { g with gTotalInterrupts := g.gTotalInterrupts + 1 } = none :=
    hslot
  rw [interruptTrigger, hfound]
  dsimp only
  rw [hfree]

/-- Filling a free slot makes one more event pending. -/
lemma pendingCount_fill {i : Fin maxInterruptVectors} (hslot : g.findFree = some i)
    {e : InterruptEvent} (he : e.pending = true) :
    Slots.count InterruptEvent.pending (Function.update g.gInterruptEvents i e) =
      g.pendingCount + 1 := by
  have hpending : (g.gInterruptEvents i).pending = false := by
    simpa using List.find?_some hslot
  have hcount := @pendingCount_update g.gInterruptEvents i e
  rwa [hpending, he, Bool.toNat_false, Nat.add_zero, Bool.toNat_true] at hcount

/-- A trigger that is kept is coalesced or becomes pending. -/
lemma trigger_kept {vector : UInt8} {tsc : UInt64}
    (h : g.findCoalescing vector tsc ≠ none ∨ g.findFree ≠ none) :
    (interruptTrigger g vector tsc).gTotalInterrupts = g.gTotalInterrupts + 1 ∧
      ((interruptTrigger g vector tsc).gCoalescedInterrupts = g.gCoalescedInterrupts + 1 ∧
          (interruptTrigger g vector tsc).pendingCount = g.pendingCount ∨
        (interruptTrigger g vector tsc).gCoalescedInterrupts = g.gCoalescedInterrupts ∧
          (interruptTrigger g vector tsc).pendingCount = g.pendingCount + 1) := by
  cases hfound : g.findCoalescing vector tsc with
  | some i =>
    rw [trigger_coalesced g hfound]
    refine ⟨rfl, .inl ⟨rfl, ?_⟩⟩
    have hcount := @pendingCount_update g.gInterruptEvents i
      { g.gInterruptEvents i with coalesced := true }
    dsimp only [Globals.pendingCount] at hcount ⊢
    omega
  | none =>
    cases hslot : g.findFree with
    | some i =>
      rw [trigger_pending g hfound hslot]
      exact ⟨rfl, .inr ⟨rfl, pendingCount_fill g hslot rfl⟩⟩
    | none => exact absurd h (by simp [hfound, hslot])

lemma trigger_fast (vector : UInt8) (tsc : UInt64) :
    (interruptTrigger g vector tsc).gFastPathInterrupts = g.gFastPathInterrupts := by
  rw [interruptTrigger]
  dsimp only
  split
  · rfl
  · split <;> rfl

/-- A delivery with nothing pending counts as a fast one. -/
lemma deliver_empty {vector : UInt8} (h : g.findPending vector = none) (tsc : UInt64) :
    interruptDeliver g vector tsc =
      { g with gFastPathInterrupts := g.gFastPathInterrupts + 1 } := by
  rw [interruptDeliver, h]
  exact if_pos (by decide)

/-- A delivery of a pending event. -/
lemma deliver_some {vector : UInt8} {i : Fin maxInterruptVectors}
    (h : g.findPending vector = some i) (tsc : UInt64) :
    (interruptDeliver g vector tsc).gTotalInterrupts = g.gTotalInterrupts ∧
      (interruptDeliver g vector tsc).gCoalescedInterrupts = g.gCoalescedInterrupts ∧
      (interruptDeliver g vector tsc).pendingCount + 1 = g.pendingCount ∧
      (interruptDeliver g vector tsc).gFastPathInterrupts =
        if tsc - (g.gInterruptEvents i).arrivalTime < 5 then g.gFastPathInterrupts + 1
        else g.gFastPathInterrupts := by
  have hpending : (g.gInterruptEvents i).pending = true := by
    have hi := List.find?_some h
    rw [Bool.and_eq_true] at hi
    exact hi.1
  have hcount := @pendingCount_update g.gInterruptEvents i
    { g.gInterruptEvents i with deliveryTime := tsc, pending := false }
  dsimp only at hcount
  rw [hpending, Bool.toNat_true, Bool.toNat_false] at hcount
  rw [interruptDeliver, h]
  dsimp only [Globals.pendingCount]
  split
  · refine ⟨rfl, rfl, ?_, rfl⟩
    dsimp only
    omega
  · refine ⟨rfl, rfl, ?_, rfl⟩
    dsimp only
    omega

end

/-! ## Conservation -/

/-- A trigger that is kept, and any delivery, keep the balance. -/
lemma conserved_step {x x' : Globals × Tally} {op : InterruptCall} {r : Unit}
    (h : Conserved x) (st : LatencyStep x op r x') (hkept : TriggerKept ⟨x, op, r⟩) :
    Conserved x' := by
  cases st with
  | mk g t op =>
    rw [Conserved] at h ⊢
    dsimp only at h ⊢
    cases op with
    | trigger vector tsc =>
      obtain ⟨htotal, ⟨hcoal, hpend⟩ | ⟨hcoal, hpend⟩⟩ := trigger_kept g (hkept vector tsc rfl)
      · rw [Globals.call, Tally.after, htotal, hcoal, hpend, h]
        grind
      · rw [Globals.call, Tally.after, htotal, hcoal, hpend, h, UInt64.ofNat_add]
        grind
    | deliver vector tsc =>
      cases hfound : g.findPending vector with
      | none =>
        rw [Globals.call, Tally.after, deliver_empty g hfound, hfound]
        exact h
      | some i =>
        obtain ⟨htotal, hcoal, hpend, -⟩ := deliver_some g hfound tsc
        have htally : (t.after g (.deliver vector tsc)).delivered = t.delivered + 1 := by
          rw [Tally.after, hfound]
          dsimp only
          split <;> rfl
        rw [Globals.call, htotal, hcoal, htally, h, ← hpend, UInt64.ofNat_add, UInt64.ofNat_add]
        grind

/-- A trigger after which the balance holds has been kept. -/
lemma triggerKept_step {x x' : Globals × Tally} {op : InterruptCall} {r : Unit}
    (h : Conserved x) (st : LatencyStep x op r x') (h' : Conserved x') :
    TriggerKept ⟨x, op, r⟩ := by
  rintro vector tsc rfl
  cases st with
  | mk g t _ =>
    by_contra hlost
    rw [not_or, not_not, not_not] at hlost
    rw [Conserved] at h h'
    dsimp only at h h'
    rw [Globals.call, Tally.after, trigger_dropped g hlost.1 hlost.2] at h'
    have hone : g.gTotalInterrupts + 1 = g.gTotalInterrupts := h'.trans h.symm
    exact absurd (UInt64.add_eq_left.mp hone) (by decide)

/-! ## Fast deliveries -/

/-- What the count of fast deliveries is. -/
def FastCounted (tr : List LatencyEvent) (x : Globals × Tally) : Prop :=
  x.1.gFastPathInterrupts = UInt64.ofNat (x.2.delivered - x.2.slow + x.2.empty) ∧
    x.2.slow ≤ x.2.delivered ∧ x.2.delivered + x.2.empty ≤ tr.length

lemma fastCounted_step {tr : List LatencyEvent} {x x' : Globals × Tally} {op : InterruptCall}
    {r : Unit} (h : FastCounted tr x) (st : LatencyStep x op r x') :
    FastCounted (tr ++ [⟨x, op, r⟩]) x' := by
  cases st with
  | mk g t op =>
    obtain ⟨hfast, hslow, hlen⟩ := h
    dsimp only at hfast hslow hlen
    have hsnoc : (tr ++ [(⟨(g, t), op, ()⟩ : LatencyEvent)]).length = tr.length + 1 :=
      List.length_append
    have hnext (k : Nat) : UInt64.ofNat k + 1 = UInt64.ofNat (k + 1) := (UInt64.ofNat_add k 1).symm
    cases op with
    | trigger vector tsc =>
      rw [FastCounted, hsnoc]
      exact ⟨(trigger_fast g vector tsc).trans hfast, hslow, Nat.le_succ_of_le hlen⟩
    | deliver vector tsc =>
      rw [FastCounted, hsnoc, Globals.call, Tally.after]
      cases hfound : g.findPending vector with
      | none =>
        rw [deliver_empty g hfound]
        dsimp only
        rw [hfast, hnext]
        exact ⟨congrArg UInt64.ofNat (by omega), hslow, by omega⟩
      | some i =>
        obtain ⟨-, -, -, hcount⟩ := deliver_some g hfound tsc
        rw [hcount]
        dsimp only
        split
        · rw [hfast, hnext]
          exact ⟨congrArg UInt64.ofNat (by dsimp only; omega), Nat.le_succ_of_le hslow,
            by dsimp only; omega⟩
        · exact ⟨hfast.trans (congrArg UInt64.ofNat (by dsimp only; omega)), Nat.succ_le_succ hslow,
            by dsimp only; omega⟩

/-- Where the empty deliveries are no more than the slow ones, the fast ones are no more than all. -/
lemma fastBounded_of_emptyBounded {tr : List LatencyEvent} {x : Globals × Tally}
    (h : FastCounted tr x) (hempty : EmptyBounded x) : FastBounded x := by
  obtain ⟨hfast, hslow, -⟩ := h
  rw [EmptyBounded] at hempty
  rw [FastBounded, hfast, UInt64.toNat_ofNat']
  have hmod := Nat.mod_le (x.2.delivered - x.2.slow + x.2.empty) (2 ^ 64)
  omega

/-- In a run too short for the counter to wrap the converse holds, too. -/
lemma emptyBounded_of_fastBounded {tr : List LatencyEvent} {x : Globals × Tally}
    (h : FastCounted tr x) (hlen : tr.length < 2 ^ 64) (hbound : FastBounded x) :
    EmptyBounded x := by
  obtain ⟨hfast, hslow, hcalls⟩ := h
  rw [FastBounded, hfast, UInt64.toNat_ofNat', Nat.mod_eq_of_lt (by omega)] at hbound
  rw [EmptyBounded]
  omega

/-! ## From initialisation -/

/-- The state after initialisation, with nothing delivered. -/
def latencyStart : Globals × Tally :=
  (interruptLatencyInit, ⟨0, 0, 0⟩)

lemma pendingCount_init : interruptLatencyInit.pendingCount = 0 := by
  rw [Globals.pendingCount, Slots.count]
  exact Finset.sum_eq_zero fun _ _ => rfl

lemma fastCounted_run {tr : List LatencyEvent} {x : Globals × Tally}
    (run : Run LatencyStep latencyStart tr x) : FastCounted tr x :=
  run.history ⟨rfl, Nat.le_refl 0, Nat.le_refl 0⟩ fun _ _ _ _ _ h st => fastCounted_step h st

/-- The balance holds throughout a run exactly when every trigger is kept. -/
lemma conserved_run_iff {tr : List LatencyEvent} {x : Globals × Tally}
    (run : Run LatencyStep latencyStart tr x) :
    Always Conserved tr x ↔ ∀ ev ∈ tr, TriggerKept ev := by
  have hinit : Conserved latencyStart := by
    rw [Conserved, latencyStart]
    dsimp only
    rw [pendingCount_init]
    rfl
  have h := run.always_iff (P := Conserved) (Q := fun _ => True) (C := TriggerKept) hinit
    (fun _ _ _ _ h st hkept => conserved_step h st hkept) (fun _ h => h)
    (fun _ _ _ _ _ _ _ => trivial) fun _ _ _ _ h st _ h' => triggerKept_step h st h'
  exact ⟨fun hall => h.mp ⟨hall, fun _ _ => trivial⟩, fun hkept => (h.mpr hkept).1⟩

/-- Throughout a run every interrupt is accounted for, and the fast deliveries are no more than all,
if every trigger is coalesced or finds a free slot and the deliveries that find nothing are never
more than the slow ones; and, in a run too short for the counters to wrap, only then. -/
theorem interrupts_conserved_iff {tr : List LatencyEvent} {x : Globals × Tally}
    (run : Run LatencyStep latencyStart tr x) :
    ((∀ ev ∈ tr, TriggerKept ev) ∧ Always EmptyBounded tr x →
        Always Conserved tr x ∧ Always FastBounded tr x) ∧
      (tr.length < 2 ^ 64 →
        (Always Conserved tr x ∧ Always FastBounded tr x ↔
          (∀ ev ∈ tr, TriggerKept ev) ∧ Always EmptyBounded tr x)) := by
  have hbound (h : Always EmptyBounded tr x) : Always FastBounded tr x :=
    run.always_mono (fun _ _ _ run' => fastBounded_of_emptyBounded (fastCounted_run run')) h
  refine ⟨fun h => ⟨(conserved_run_iff run).mpr h.1, hbound h.2⟩, fun hlen => ?_⟩
  refine and_congr (conserved_run_iff run) ⟨fun h => ?_, hbound⟩
  exact run.always_mono (fun pre y hpre run' => emptyBounded_of_fastBounded (fastCounted_run run')
    (Nat.lt_of_le_of_lt hpre.length_le hlen)) h

/-- A trigger and its delivery. -/
theorem interrupts_conserved_iff_trigger_deliver :
    ∃ tr x, Run LatencyStep latencyStart tr x ∧ tr.length = 2 ∧
      Always Conserved tr x ∧ Always FastBounded tr x := by
  have hrun := @Run.nil _ _ _ LatencyStep latencyStart
    |>.snoc (.mk _ _ (.trigger 33 1000)) |>.snoc (.mk _ _ (.deliver 33 1002))
  refine ⟨_, _, hrun, rfl, (interrupts_conserved_iff hrun).1 ⟨?_, ?_⟩⟩
  · rw [forall_mem_snoc, forall_mem_snoc]
    refine ⟨⟨nofun, fun _ _ _ => .inr ?_⟩, fun _ _ hop => by cases hop⟩
    exact nofun
  · rw [Always.snoc, Always.snoc]
    refine ⟨⟨⟨nofun, Nat.le_refl 0⟩, Nat.le_refl 0⟩, Nat.le_refl 0⟩

/-! ## A full table -/

/-- Some number of slots hold interrupts of the first vectors, all of them of time 0. -/
def Filled (n : Nat) (g : Globals) : Prop :=
  g.pendingCount = n ∧
    ∀ i, (g.gInterruptEvents i).pending →
      (g.gInterruptEvents i).vector.toNat < n ∧ (g.gInterruptEvents i).arrivalTime = 0

lemma findFree_none_iff (g : Globals) :
    g.findFree = none ↔ g.pendingCount = maxInterruptVectors := by
  have hcard := @Slots.count_eq_card_iff _ _ _ InterruptEvent.pending g.gInterruptEvents
  rw [Fintype.card_fin] at hcard
  rw [Globals.findFree, Slots.find_none_iff, Globals.pendingCount, hcard]
  simp

/-- There is nothing to coalesce with if what is pending is of another vector or too old. -/
lemma findCoalescing_none (g : Globals) {vector : UInt8} {tsc : UInt64}
    (h : ∀ i, (g.gInterruptEvents i).pending → (g.gInterruptEvents i).vector ≠ vector ∨
      ¬ tsc - (g.gInterruptEvents i).arrivalTime < interruptCoalesceWindow) :
    g.findCoalescing vector tsc = none := by
  rw [Globals.findCoalescing, Slots.find_none_iff]
  intro i
  cases hpending : (g.gInterruptEvents i).pending with
  | false => rfl
  | true =>
    rcases h i hpending with hvector | hold
    · rw [decide_eq_false hvector]
      rfl
    · rw [decide_eq_false hold, Bool.and_false]

/-- Another vector takes one slot more. -/
lemma filled_step {g : Globals} {n : Nat} (h : Filled n g) (hn : n < maxInterruptVectors) :
    Filled (n + 1) (interruptTrigger g (UInt8.ofNat n) 0) := by
  obtain ⟨hcount, hevents⟩ := h
  have hcoal : g.findCoalescing (UInt8.ofNat n) 0 = none := by
    refine findCoalescing_none g fun i hpending => .inl fun heq => ?_
    have hlt := (hevents i hpending).1
    rw [heq, UInt8.toNat_ofNat', Nat.mod_eq_of_lt hn] at hlt
    exact Nat.lt_irrefl n hlt
  cases hslot : g.findFree with
  | none => exact absurd ((findFree_none_iff g).mp hslot) (by omega)
  | some i =>
    rw [trigger_pending g hcoal hslot]
    refine ⟨(pendingCount_fill g hslot rfl).trans (by rw [hcount]), fun j hj => ?_⟩
    dsimp only at hj ⊢
    rcases eq_or_ne j i with rfl | hne
    · rw [Function.update_self]
      exact ⟨by rw [UInt8.toNat_ofNat', Nat.mod_eq_of_lt hn]; omega, rfl⟩
    · rw [Function.update_of_ne hne] at hj ⊢
      exact ⟨Nat.lt_succ_of_lt (hevents j hj).1, (hevents j hj).2⟩

/-- The triggers of the first vectors at time 0. -/
lemma run_filled {n : Nat} (hn : n ≤ maxInterruptVectors) :
    ∃ tr g, Run LatencyStep latencyStart tr (g, ⟨0, 0, 0⟩) ∧ Filled n g ∧
      ∀ ev ∈ tr, ev.op.tsc = 0 := by
  induction n with
  | zero =>
    exact ⟨[], interruptLatencyInit, .nil, ⟨pendingCount_init, nofun⟩, nofun⟩
  | succ n ih =>
    obtain ⟨tr, g, run, hfilled, hzero⟩ := ih (by omega)
    exact ⟨_, _, run.snoc (.mk g _ (.trigger (UInt8.ofNat n) 0)), filled_step hfilled (by omega),
      forall_mem_snoc.mpr ⟨hzero, rfl⟩⟩

/-- The interrupt after the 256 first ones is lost; a delivery with nothing pending is a fast
one. -/
theorem interrupts_conserved_not :
    (¬ ∀ tr x, Run LatencyStep latencyStart tr x →
      (tr.map fun ev => ev.op.tsc).Pairwise (· ≤ ·) → Conserved x) ∧
    (¬ ∀ tr x, Run LatencyStep latencyStart tr x →
      (tr.map fun ev => ev.op.tsc).Pairwise (· ≤ ·) → FastBounded x) := by
  constructor
  · intro h
    obtain ⟨tr, g, run, ⟨hcount, hevents⟩, hzero⟩ := run_filled (Nat.le_refl maxInterruptVectors)
    have hcoal : g.findCoalescing 0 100 = none := by
      refine findCoalescing_none g fun i hpending => .inr ?_
      rw [(hevents i hpending).2]
      decide
    have hordered : (tr.map fun ev => ev.op.tsc).Pairwise (· ≤ ·) :=
      List.pairwise_map.mpr (List.pairwise_of_forall_mem_list fun ev hev ev' _ => by
        rw [hzero ev hev]
        exact UInt64.zero_le)
    have hlast : (((tr ++ [⟨(g, ⟨0, 0, 0⟩), .trigger 0 100, ()⟩] : List LatencyEvent).map
        fun ev => ev.op.tsc)).Pairwise (· ≤ ·) := by
      rw [List.map_append, List.pairwise_append]
      refine ⟨hordered, List.pairwise_singleton _ _, fun a ha b hb => ?_⟩
      obtain ⟨ev, hev, rfl⟩ := List.mem_map.mp ha
      rw [hzero ev hev]
      exact UInt64.zero_le
    have st := LatencyStep.mk g ⟨0, 0, 0⟩ (.trigger 0 100)
    have hkept := triggerKept_step (h tr _ run hordered) st (h _ _ (run.snoc st) hlast)
    exact (hkept 0 100 rfl).elim (absurd hcoal) (absurd ((findFree_none_iff g).mpr hcount))
  · intro h
    have st := LatencyStep.mk interruptLatencyInit ⟨0, 0, 0⟩ (.deliver 0 0)
    have hbound := h _ _ (Run.nil.snoc st) (List.pairwise_singleton _ _)
    have hfound : interruptLatencyInit.findPending 0 = none :=
      Slots.find_none_iff.mpr fun _ => rfl
    rw [FastBounded, Globals.call, Tally.after, deliver_empty _ hfound, hfound] at hbound
    exact absurd hbound (by decide)

end Bemi.Interrupt
