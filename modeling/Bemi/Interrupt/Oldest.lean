import Bemi.Interrupt.Latency

/-!
# The order of delivery

A trigger takes the first free slot of the table, and a delivery the first slot with its vector. So
the events of a vector are delivered in the order of their slots. That is the order in which they
arrived unless a trigger takes a slot in front of a pending event of its vector, which it does when
the delivery of another vector has left that slot free. `delivers_oldest_iff` says that nothing else
goes wrong.
-/

namespace Bemi.Interrupt
open Transition

namespace Globals

/-- The slot holds a pending event of the vector. -/
def Waits (g : Globals) (vector : UInt8) (i : Fin maxInterruptVectors) : Prop :=
  (g.gInterruptEvents i).pending = true ∧ (g.gInterruptEvents i).vector = vector

instance decidableWaits (g : Globals) (vector : UInt8) (i : Fin maxInterruptVectors) :
    Decidable (g.Waits vector i) :=
  inferInstanceAs (Decidable (_ ∧ _))

/-- The slot holds the oldest pending event of the vector. -/
structure Oldest (g : Globals) (vector : UInt8) (i : Fin maxInterruptVectors) : Prop where
  waits : g.Waits vector i
  first : ∀ j, g.Waits vector j →
    (g.gInterruptEvents i).arrivalTime ≤ (g.gInterruptEvents j).arrivalTime

/-- A delivery consumes the oldest pending event of the vector and no other, and the latency it
records is the longest wait for the vector. -/
structure DeliversOldest (g : Globals) (vector : UInt8) (tsc : UInt64)
    (i : Fin maxInterruptVectors) : Prop extends g.Oldest vector i where
  consumed : ∀ w j, (interruptDeliver g vector tsc).Waits w j ↔ g.Waits w j ∧ j ≠ i
  recorded : (interruptDeliver g vector tsc).gInterruptHandlers vector =
    (g.gInterruptHandlers vector).account (tsc - (g.gInterruptEvents i).arrivalTime)
  observed : (interruptDeliver g vector tsc).gMaxObservedLatency =
    max g.gMaxObservedLatency (tsc - (g.gInterruptEvents i).arrivalTime)
  longest : ∀ j, g.Waits vector j →
    tsc - (g.gInterruptEvents j).arrivalTime ≤ tsc - (g.gInterruptEvents i).arrivalTime

/-- Some deliveries of a vector. -/
def deliverAll (g : Globals) (vector : UInt8) (tscs : List UInt64) : Globals :=
  tscs.foldl (fun g tsc => interruptDeliver g vector tsc) g

/-- However many events of the vector have been delivered, the next delivery takes the oldest. -/
def OldestFirst (g : Globals) (vector : UInt8) : Prop :=
  ∀ tscs tsc,
    (∀ j, (g.deliverAll vector tscs).Waits vector j →
      ((g.deliverAll vector tscs).gInterruptEvents j).arrivalTime ≤ tsc) →
    (∃ j, (g.deliverAll vector tscs).Waits vector j) →
    ∃ i, (g.deliverAll vector tscs).DeliversOldest vector tsc i

/-- The events of each vector lie in the table in the order in which they arrived. -/
def Sorted (g : Globals) : Prop :=
  ∀ vector i j, g.Waits vector i → g.Waits vector j → i < j →
    (g.gInterruptEvents i).arrivalTime ≤ (g.gInterruptEvents j).arrivalTime

end Globals

/-- A delivery takes the oldest pending event of its vector, if there is one. -/
def DeliveryOldest (ev : LatencyEvent) : Prop :=
  ∀ vector tsc, ev.op = .deliver vector tsc → (∃ j, ev.before.1.Waits vector j) →
    ∃ i, ev.before.1.DeliversOldest vector tsc i

/-- A trigger that takes a slot takes one behind all pending events of its vector. -/
def TriggerBehind (ev : LatencyEvent) : Prop :=
  ∀ vector tsc i, ev.op = .trigger vector tsc → ev.before.1.findCoalescing vector tsc = none →
    ev.before.1.findFree = some i → ∀ j, ev.before.1.Waits vector j → j < i

/-- What is pending arrived before the call. -/
def Later (ev : LatencyEvent) : Prop :=
  ∀ i, (ev.before.1.gInterruptEvents i).pending = true →
    (ev.before.1.gInterruptEvents i).arrivalTime < ev.op.tsc

/-! ## One delivery -/

section
variable {g : Globals} {vector : UInt8} {tsc : UInt64} {i : Fin maxInterruptVectors}

/-- A delivery takes the first slot of its vector. -/
lemma findPending_first (h : g.findPending vector = some i) :
    g.Waits vector i ∧ ∀ j, g.Waits vector j → i ≤ j := by
  obtain ⟨hi, hfirst⟩ := Slots.find_some h
  rw [Bool.and_eq_true, decide_eq_true_eq] at hi
  refine ⟨hi, fun j hj => hfirst j ?_⟩
  rw [Bool.and_eq_true, decide_eq_true_eq]
  exact hj

lemma findPending_exists (h : ∃ j, g.Waits vector j) : ∃ i, g.findPending vector = some i := by
  obtain ⟨j, hpending, hvector⟩ := h
  refine Option.ne_none_iff_exists'.mp fun hnone => ?_
  have hfalse := Slots.find_none_iff.mp hnone j
  rw [hpending, hvector, decide_eq_true rfl] at hfalse
  cases hfalse

lemma deliver_gInterruptEvents (h : g.findPending vector = some i) (tsc : UInt64) :
    (interruptDeliver g vector tsc).gInterruptEvents =
      Function.update g.gInterruptEvents i
        { g.gInterruptEvents i with deliveryTime := tsc, pending := false } := by
  rw [interruptDeliver, h]
  dsimp only
  split <;> rfl

lemma deliver_records (h : g.findPending vector = some i) (tsc : UInt64) :
    (interruptDeliver g vector tsc).gInterruptHandlers vector =
        (g.gInterruptHandlers vector).account (tsc - (g.gInterruptEvents i).arrivalTime) ∧
      (interruptDeliver g vector tsc).gMaxObservedLatency =
        max g.gMaxObservedLatency (tsc - (g.gInterruptEvents i).arrivalTime) := by
  have hmax (a b : UInt64) : (if b > a then b else a) = max a b := by
    change _ = if a ≤ b then b else a
    grind
  rw [interruptDeliver, h]
  dsimp only
  split
  · exact ⟨Function.update_self .., hmax _ _⟩
  · exact ⟨Function.update_self .., hmax _ _⟩

/-- The event delivered no longer waits. The others are left alone. -/
lemma deliver_waits (h : g.findPending vector = some i) (tsc : UInt64) (w : UInt8)
    (j : Fin maxInterruptVectors) :
    ((interruptDeliver g vector tsc).Waits w j ↔ g.Waits w j ∧ j ≠ i) ∧
      ((interruptDeliver g vector tsc).gInterruptEvents j).arrivalTime =
        (g.gInterruptEvents j).arrivalTime := by
  rw [Globals.Waits, deliver_gInterruptEvents h]
  rcases eq_or_ne j i with rfl | hne
  · rw [Function.update_self]
    exact ⟨⟨fun hw => Bool.noConfusion hw.1, fun hw => absurd rfl hw.2⟩, rfl⟩
  · rw [Function.update_of_ne hne]
    exact ⟨(and_iff_left hne).symm, rfl⟩

/-- With nothing pending the table stays. -/
lemma deliver_nothing (h : g.findPending vector = none) (tsc : UInt64) :
    (interruptDeliver g vector tsc).gInterruptEvents = g.gInterruptEvents := by
  rw [deliver_empty g h]

/-- If the first event of the vector is the oldest, it is what a delivery should take. -/
lemma deliversOldest_of_first (h : g.findPending vector = some i) (hold : g.Oldest vector i)
    (hlater : ∀ j, g.Waits vector j → (g.gInterruptEvents j).arrivalTime ≤ tsc) :
    g.DeliversOldest vector tsc i where
  toOldest := hold
  consumed := fun w j => (deliver_waits h tsc w j).1
  recorded := (deliver_records h tsc).1
  observed := (deliver_records h tsc).2
  longest := fun j hj => by
    have hfirst := UInt64.le_iff_toNat_le.mp (hold.first j hj)
    rw [UInt64.le_iff_toNat_le, UInt64.toNat_sub_of_le _ _ (hlater j hj),
      UInt64.toNat_sub_of_le _ _ (hlater i hold.waits)]
    omega

/-- A delivery takes no other. -/
lemma Globals.DeliversOldest.eq_first {k : Fin maxInterruptVectors}
    (hk : g.DeliversOldest vector tsc k) (h : g.findPending vector = some i) : k = i := by
  by_contra hne
  have hwaits := (hk.consumed vector i).mpr ⟨(findPending_first h).1, Ne.symm hne⟩
  exact ((deliver_waits h tsc vector i).1.mp hwaits).2 rfl

/-! ## Deliveries and the order of the slots -/

/-- A delivery adds nothing to what waits, and leaves the times of arrival alone. -/
lemma waits_of_deliver {w : UInt8} {j : Fin maxInterruptVectors}
    (h : (interruptDeliver g vector tsc).Waits w j) :
    g.Waits w j ∧ ((interruptDeliver g vector tsc).gInterruptEvents j).arrivalTime =
      (g.gInterruptEvents j).arrivalTime := by
  cases hfound : g.findPending vector with
  | none =>
    rw [Globals.Waits, deliver_nothing hfound] at h
    rw [deliver_nothing hfound]
    exact ⟨h, rfl⟩
  | some i =>
    obtain ⟨hwaits, harrival⟩ := deliver_waits hfound tsc w j
    exact ⟨(hwaits.mp h).1, harrival⟩

lemma sorted_deliver (h : g.Sorted) (vector : UInt8) (tsc : UInt64) :
    (interruptDeliver g vector tsc).Sorted := by
  intro w i j hi hj hlt
  obtain ⟨hi, hi'⟩ := waits_of_deliver hi
  obtain ⟨hj, hj'⟩ := waits_of_deliver hj
  rw [hi', hj']
  exact h w i j hi hj hlt

/-- In a table in order the first event of the vector is the oldest. -/
lemma Globals.Sorted.deliversOldest (h : g.Sorted) (hwaits : ∃ j, g.Waits vector j)
    (hlater : ∀ j, g.Waits vector j → (g.gInterruptEvents j).arrivalTime ≤ tsc) :
    ∃ i, g.DeliversOldest vector tsc i := by
  obtain ⟨i, hfound⟩ := findPending_exists hwaits
  obtain ⟨hi, hfirst⟩ := findPending_first hfound
  refine ⟨i, deliversOldest_of_first hfound ⟨hi, fun j hj => ?_⟩ hlater⟩
  rcases eq_or_lt_of_le (hfirst j hj) with rfl | hlt
  · exact UInt64.le_refl _
  · exact h vector i j hi hj hlt

/-- So it stays in all deliveries. -/
lemma Globals.Sorted.oldestFirst (h : g.Sorted) (vector : UInt8) : g.OldestFirst vector := by
  intro tscs tsc hlater hwaits
  have hall : (g.deliverAll vector tscs).Sorted := by
    clear hlater hwaits
    induction tscs generalizing g with
    | nil => exact h
    | cons t tscs ih => exact ih (sorted_deliver h vector t)
  exact hall.deliversOldest hwaits hlater

lemma Globals.OldestFirst.deliver (h : g.OldestFirst vector) (tsc : UInt64) :
    (interruptDeliver g vector tsc).OldestFirst vector :=
  fun tscs => h (tsc :: tscs)

/-- If the deliveries take the oldest event each time, the events lie in order: deliver the vector
until the first of two events is the first in the table. -/
lemma Globals.OldestFirst.arrival_le {n : Nat} {j : Fin maxInterruptVectors}
    (h : g.OldestFirst vector) (hn : g.pendingCount = n) (hi : g.Waits vector i)
    (hj : g.Waits vector j) (hlt : i < j) :
    (g.gInterruptEvents i).arrivalTime ≤ (g.gInterruptEvents j).arrivalTime := by
  induction n using Nat.strong_induction_on generalizing g with
  | h n ih =>
    obtain ⟨k, hfound⟩ := findPending_exists ⟨i, hi⟩
    rcases eq_or_lt_of_le ((findPending_first hfound).2 i hi) with rfl | hki
    · have hmax (t : UInt64) : t ≤ 0xFFFFFFFFFFFFFFFF :=
        UInt64.le_iff_toNat_le.mpr (Nat.le_of_lt_succ t.toNat_lt)
      obtain ⟨k', hk'⟩ := h [] 0xFFFFFFFFFFFFFFFF (fun j _ => hmax _) ⟨k, hi⟩
      obtain rfl : k' = k := hk'.eq_first hfound
      exact hk'.first j hj
    · obtain ⟨-, -, hcount, -⟩ := deliver_some g hfound 0
      obtain ⟨hwi, hai⟩ := deliver_waits hfound 0 vector i
      obtain ⟨hwj, haj⟩ := deliver_waits hfound 0 vector j
      rw [← hai, ← haj]
      exact ih _ (by omega) (h.deliver 0) rfl (hwi.mpr ⟨hi, ne_of_gt hki⟩)
        (hwj.mpr ⟨hj, ne_of_gt (lt_trans hki hlt)⟩)

/-- The deliveries take the oldest events when the table is in order. -/
lemma oldestFirst_iff_sorted : (∀ vector, g.OldestFirst vector) ↔ g.Sorted :=
  ⟨fun h _ _ _ hi hj hlt => (h _).arrival_le rfl hi hj hlt, fun h => h.oldestFirst⟩

/-! ## Triggers and the order of the slots -/

/-- Marking an event as coalesced changes neither what waits nor since when. -/
lemma coalesced_same (h : g.findCoalescing vector tsc = some i) (j : Fin maxInterruptVectors) :
    ((interruptTrigger g vector tsc).gInterruptEvents j).pending =
        (g.gInterruptEvents j).pending ∧
      ((interruptTrigger g vector tsc).gInterruptEvents j).vector = (g.gInterruptEvents j).vector ∧
      ((interruptTrigger g vector tsc).gInterruptEvents j).arrivalTime =
        (g.gInterruptEvents j).arrivalTime := by
  rw [trigger_coalesced g h]
  dsimp only
  rcases eq_or_ne j i with rfl | hne
  · rw [Function.update_self]
    exact ⟨rfl, rfl, rfl⟩
  · rw [Function.update_of_ne hne]
    exact ⟨rfl, rfl, rfl⟩

lemma sorted_coalesced (h : g.findCoalescing vector tsc = some i) :
    (interruptTrigger g vector tsc).Sorted ↔ g.Sorted := by
  simp only [Globals.Sorted, Globals.Waits, coalesced_same h]

/-- The slot taken, and the others. -/
lemma pending_slots (hcoal : g.findCoalescing vector tsc = none) (hslot : g.findFree = some i) :
    (interruptTrigger g vector tsc).Waits vector i ∧
      ((interruptTrigger g vector tsc).gInterruptEvents i).arrivalTime = tsc ∧
      ∀ j, j ≠ i → (interruptTrigger g vector tsc).gInterruptEvents j = g.gInterruptEvents j := by
  rw [Globals.Waits, trigger_pending g hcoal hslot]
  dsimp only
  rw [Function.update_self]
  exact ⟨⟨rfl, rfl⟩, rfl, fun j hne => Function.update_of_ne hne ..⟩

/-- A trigger that takes a slot keeps the order when the slot is behind the events of its vector,
and only then. -/
lemma sorted_pending_iff (hcoal : g.findCoalescing vector tsc = none) (hslot : g.findFree = some i)
    (hlater : ∀ j, (g.gInterruptEvents j).pending = true →
      (g.gInterruptEvents j).arrivalTime < tsc) (h : g.Sorted) :
    (interruptTrigger g vector tsc).Sorted ↔ ∀ j, g.Waits vector j → j < i := by
  have hfree : (g.gInterruptEvents i).pending = false := by
    simpa using List.find?_some hslot
  obtain ⟨hself, harrival, hother⟩ := pending_slots hcoal hslot
  constructor
  · intro hsorted j hj
    have hne : j ≠ i := by
      rintro rfl
      exact Bool.false_ne_true (hfree.symm.trans hj.1)
    by_contra hnot
    have hj' : (interruptTrigger g vector tsc).Waits vector j := by
      rw [Globals.Waits, hother j hne]
      exact hj
    have hle := hsorted vector i j hself hj' (lt_of_le_of_ne (not_lt.mp hnot) hne.symm)
    rw [harrival, hother j hne] at hle
    exact UInt64.not_lt.mpr hle (hlater j hj.1)
  · intro hbehind w j k hj hk hlt
    rcases eq_or_ne j i with rfl | hji
    · have hkj : k ≠ j := ne_of_gt hlt
      rw [Globals.Waits, hother k hkj] at hk
      exact absurd (hbehind k ⟨hk.1, hk.2.trans (hj.2.symm.trans hself.2)⟩) (lt_asymm hlt)
    · rw [Globals.Waits, hother j hji] at hj
      rw [hother j hji]
      rcases eq_or_ne k i with rfl | hki
      · rw [harrival]
        exact UInt64.le_of_lt (hlater j hj.1)
      · rw [Globals.Waits, hother k hki] at hk
        rw [hother k hki]
        exact h w j k hj hk hlt

end

/-! ## Along a run -/

/-- What is pending arrived with one of the calls so far. -/
def Dated (tr : List LatencyEvent) (x : Globals × Tally) : Prop :=
  ∀ i, (x.1.gInterruptEvents i).pending = true →
    ∃ ev ∈ tr, (x.1.gInterruptEvents i).arrivalTime = ev.op.tsc

variable {tr : List LatencyEvent} {x x' : Globals × Tally} {op : InterruptCall} {r : Unit}

/-- What is pending after a call arrived with it or was pending before. -/
lemma arrival_step (st : LatencyStep x op r x') {i : Fin maxInterruptVectors}
    (h : (x'.1.gInterruptEvents i).pending = true) :
    (x'.1.gInterruptEvents i).arrivalTime = op.tsc ∨
      (x.1.gInterruptEvents i).pending = true ∧
        (x'.1.gInterruptEvents i).arrivalTime = (x.1.gInterruptEvents i).arrivalTime := by
  cases st with
  | mk g t op =>
    cases op with
    | trigger vector tsc =>
      change ((interruptTrigger g vector tsc).gInterruptEvents i).pending = true at h
      change ((interruptTrigger g vector tsc).gInterruptEvents i).arrivalTime = tsc ∨
        _ ∧ ((interruptTrigger g vector tsc).gInterruptEvents i).arrivalTime = _
      cases hcoal : g.findCoalescing vector tsc with
      | some k =>
        obtain ⟨hpending, -, harrival⟩ := coalesced_same hcoal i
        exact .inr ⟨hpending.symm.trans h, harrival⟩
      | none =>
        cases hslot : g.findFree with
        | some k =>
          obtain ⟨-, harrival, hother⟩ := pending_slots hcoal hslot
          rcases eq_or_ne i k with rfl | hne
          · exact .inl harrival
          · rw [hother i hne] at h ⊢
            exact .inr ⟨h, rfl⟩
        | none =>
          rw [trigger_dropped g hcoal hslot] at h ⊢
          exact .inr ⟨h, rfl⟩
    | deliver vector tsc =>
      obtain ⟨hwaits, harrival⟩ := @waits_of_deliver g vector tsc _ i ⟨h, rfl⟩
      exact .inr ⟨hwaits.1, harrival⟩

lemma dated_run (run : Run LatencyStep latencyStart tr x) : Dated tr x := by
  refine run.history (I := Dated) (fun _ h => Bool.noConfusion h) fun tr x op r x' h st i hi => ?_
  rcases arrival_step st hi with harrival | ⟨hpending, harrival⟩
  · exact ⟨_, List.mem_append_right _ (List.mem_singleton.mpr rfl), harrival⟩
  · obtain ⟨ev, hev, hdate⟩ := h i hpending
    exact ⟨ev, List.mem_append_left _ hev, harrival.trans hdate⟩

/-- With increasing time stamps, all that is pending at a call arrived before it. -/
lemma later_run (run : Run LatencyStep latencyStart tr x)
    (hstamps : (tr.map fun ev => ev.op.tsc).Pairwise (· < ·)) : ∀ ev ∈ tr, Later ev := by
  intro ev hev i hpending
  obtain ⟨pre, post, rfl⟩ := List.append_of_mem hev
  obtain ⟨ev', hev', hdate⟩ := dated_run (run.split rfl).1 i hpending
  rw [List.map_append, List.pairwise_append] at hstamps
  rw [hdate]
  exact hstamps.2.2 _ (List.mem_map_of_mem hev') _ (List.mem_map_of_mem List.mem_cons_self)

lemma sorted_step (h : x.1.Sorted) (st : LatencyStep x op r x') (hlater : Later ⟨x, op, r⟩) :
    x'.1.Sorted ↔ TriggerBehind ⟨x, op, r⟩ := by
  cases st with
  | mk g t op =>
    cases op with
    | trigger vector tsc =>
      change (interruptTrigger g vector tsc).Sorted ↔ _
      cases hcoal : g.findCoalescing vector tsc with
      | some i =>
        refine iff_of_true ((sorted_coalesced hcoal).mpr h) ?_
        rintro _ _ _ ⟨⟩ hnone
        cases hcoal.symm.trans hnone
      | none =>
        cases hslot : g.findFree with
        | some i =>
          rw [sorted_pending_iff hcoal hslot hlater h]
          refine ⟨?_, fun hbehind => hbehind vector tsc i rfl hcoal hslot⟩
          rintro hbehind _ _ k ⟨⟩ - hk
          cases hslot.symm.trans hk
          exact hbehind
        | none =>
          rw [trigger_dropped g hcoal hslot]
          refine iff_of_true h ?_
          rintro _ _ _ ⟨⟩ - hsome
          cases hslot.symm.trans hsome
    | deliver vector tsc =>
      exact iff_of_true (sorted_deliver h vector tsc) fun _ _ _ hop => by cases hop

lemma sorted_init : latencyStart.1.Sorted :=
  fun _ _ _ h => Bool.noConfusion h.1

/-- The table is in order throughout a run exactly when each trigger that takes a slot takes one
behind the events of its vector. -/
lemma sorted_run_iff (run : Run LatencyStep latencyStart tr x)
    (hstamps : (tr.map fun ev => ev.op.tsc).Pairwise (· < ·)) :
    Always (fun x => x.1.Sorted) tr x ↔ ∀ ev ∈ tr, TriggerBehind ev := by
  have hlater := later_run run hstamps
  have h := run.always_iff (I := fun x => x.1.Sorted) (P := fun x => x.1.Sorted) (Q := Later)
    (C := fun ev => Later ev ∧ TriggerBehind ev) sorted_init
    (fun _ _ _ _ h st hc => (sorted_step h st hc.1).mpr hc.2) (fun _ h => h)
    (fun _ _ _ _ _ _ hc => hc.1) fun _ _ _ _ h st hq h' => ⟨hq, (sorted_step h st hq).mp h'⟩
  constructor
  · exact fun hsorted ev hev => (h.mp ⟨hsorted, hlater⟩ ev hev).2
  · exact fun hbehind => (h.mpr fun ev hev => ⟨hlater ev hev, hbehind ev hev⟩).1

/-- In a run with increasing time stamps in which each trigger that takes a slot takes one behind
the pending events of its vector, every delivery takes the oldest pending event of its vector. These
are the runs in which this also holds, in every state, for whatever is delivered from there on. -/
theorem delivers_oldest_iff (run : Run LatencyStep latencyStart tr x)
    (hstamps : (tr.map fun ev => ev.op.tsc).Pairwise (· < ·)) :
    ((∀ ev ∈ tr, TriggerBehind ev) → ∀ ev ∈ tr, DeliveryOldest ev) ∧
      (Always (fun x => ∀ vector, x.1.OldestFirst vector) tr x ↔ ∀ ev ∈ tr, TriggerBehind ev) := by
  have hsorted := sorted_run_iff run hstamps
  constructor
  · rintro hbehind ev hev vector tsc hop hwaits
    have hlater := later_run run hstamps ev hev
    rw [Later, hop] at hlater
    exact ((hsorted.mpr hbehind).1 ev hev).deliversOldest hwaits fun j hj =>
      UInt64.le_of_lt (hlater j hj.1)
  · simp only [oldestFirst_iff_sorted]
    exact hsorted

/-- Two interrupts of a vector, with one of another vector between them. -/
theorem delivers_oldest_iff_interleaved :
    ∃ tr x, Run LatencyStep latencyStart tr x ∧
      tr.map Event.op = [.trigger 1 0, .trigger 2 1, .trigger 1 200, .deliver 1 201] ∧
      ∀ ev ∈ tr, DeliveryOldest ev := by
  have hrun := @Run.nil _ _ _ LatencyStep latencyStart
    |>.snoc (.mk _ _ (.trigger 1 0)) |>.snoc (.mk _ _ (.trigger 2 1))
    |>.snoc (.mk _ _ (.trigger 1 200)) |>.snoc (.mk _ _ (.deliver 1 201))
  refine ⟨_, _, hrun, rfl, (delivers_oldest_iff hrun (by decide)).1 ?_⟩
  simp only [forall_mem_snoc]
  refine ⟨⟨⟨⟨nofun, ?_⟩, ?_⟩, ?_⟩, nofun⟩
  · rintro _ _ i ⟨⟩ - - j hj
    cases hj.1
  · rintro _ _ i ⟨⟩ - hslot
    obtain rfl : i = 1 := Option.some.inj (hslot.symm.trans (by decide))
    decide +kernel
  · rintro _ _ i ⟨⟩ - hslot
    obtain rfl : i = 2 := Option.some.inj (hslot.symm.trans (by decide))
    decide +kernel

/-- The slot left free by another vector is in front of an interrupt that still waits. -/
theorem delivers_oldest_not :
    ¬ ∀ tr x, Run LatencyStep latencyStart tr x →
      (tr.map fun ev => ev.op.tsc).Pairwise (· < ·) → ∀ ev ∈ tr, DeliveryOldest ev := by
  intro h
  have hrun := @Run.nil _ _ _ LatencyStep latencyStart
    |>.snoc (.mk _ _ (.trigger 1 0)) |>.snoc (.mk _ _ (.trigger 2 1))
    |>.snoc (.mk _ _ (.deliver 1 2)) |>.snoc (.mk _ _ (.trigger 2 200))
    |>.snoc (.mk _ _ (.deliver 2 201))
  have hold := h _ _ hrun (by decide) _ (List.mem_append_right _ (List.mem_singleton.mpr rfl))
  obtain ⟨i, hi⟩ := hold 2 201 rfl ⟨1, by decide⟩
  obtain rfl : i = 0 := hi.eq_first (by decide)
  exact absurd (hi.first 1 (by decide)) (by decide)

end Bemi.Interrupt
