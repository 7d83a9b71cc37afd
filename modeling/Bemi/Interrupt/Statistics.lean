import Bemi.Efi
import Bemi.Interrupt.Oldest

/-!
# The statistics of the handlers

The rest of `performance/interrupt/interruptlatency.c`: handlers are registered, posted interrupts are
counted, and a delivery books its latency with the handler of its vector. `ledger` lists what the
deliveries of a run have found. The statistics are those of the ledger (`statistics_ledger`), and the
ledger is an honest one: no more deliveries of a vector that arrived at some time than triggers of
that vector at that time.
-/

namespace Bemi.Interrupt
open Transition

def postedInterruptVector : UInt8 := 0xFE

/-- `InterruptRegisterHandler`; the bound holds for every vector of eight bits. -/
def interruptRegisterHandler (g : Globals) (vector : UInt8) (handlerAddress : UInt64) :
    Globals × EfiStatus :=
  if vector.toNat ≥ maxInterruptVectors then (g, .invalidParameter)
  else
    ({ g with
      gInterruptHandlers := Function.update g.gInterruptHandlers vector
        { g.gInterruptHandlers vector with vector, handlerAddress, registered := true } }, .success)

def interruptUsePosted (g : Globals) (vector : UInt8) : Globals × Bool :=
  if vector = postedInterruptVector then
    ({ g with gPostedInterrupts := g.gPostedInterrupts + 1 }, true)
  else (g, false)

def interruptUseFastPath (vector : UInt8) (currentLatency : UInt64) : Bool :=
  if currentLatency < 1000 then true else vector < 32

/-- The answers of `InterruptGetStats`. -/
structure InterruptStats where
  total : UInt64
  maxLatency : UInt64
  postedCount : UInt64
  coalescedCount : UInt64
  fastPathCount : UInt64
  deriving DecidableEq

def interruptGetStats (g : Globals) : InterruptStats where
  total := g.gTotalInterrupts
  maxLatency := g.gMaxObservedLatency
  postedCount := g.gPostedInterrupts
  coalescedCount := g.gCoalescedInterrupts
  fastPathCount := g.gFastPathInterrupts

/-! ## Runs and their ledgers -/

inductive StatisticsCall where
  | register (vector : UInt8) (handlerAddress : UInt64)
  | trigger (vector : UInt8) (tsc : UInt64)
  | deliver (vector : UInt8) (tsc : UInt64)
  | usePosted (vector : UInt8)
  deriving DecidableEq, Repr

def Globals.after (g : Globals) : StatisticsCall → Globals
  | .register vector handlerAddress => (interruptRegisterHandler g vector handlerAddress).1
  | .trigger vector tsc => interruptTrigger g vector tsc
  | .deliver vector tsc => interruptDeliver g vector tsc
  | .usePosted vector => (interruptUsePosted g vector).1

inductive StatisticsStep : Globals → StatisticsCall → Unit → Globals → Prop where
  | mk (g : Globals) (op : StatisticsCall) : StatisticsStep g op () (g.after op)

abbrev StatisticsEvent := Event Globals StatisticsCall Unit

/-- What a delivery has found; `booked` if its handler was registered. -/
structure Sample where
  vector : UInt8
  arrival : UInt64
  delivery : UInt64
  booked : Bool

def Sample.latency (s : Sample) : UInt64 := s.delivery - s.arrival

def Globals.samples (g : Globals) : StatisticsCall → List Sample
  | .deliver vector tsc =>
    match g.findPending vector with
    | some i =>
      [⟨vector, (g.gInterruptEvents i).arrivalTime, tsc, (g.gInterruptHandlers vector).registered⟩]
    | none => []
  | _ => []

def ledger (tr : List StatisticsEvent) : List Sample :=
  tr.flatMap fun ev => ev.before.samples ev.op

/-- The latencies that the handler of a vector has been booked. -/
def bookedFor (vector : UInt8) (l : List Sample) : List UInt64 :=
  (l.filter fun s => s.booked && s.vector = vector).map Sample.latency

def total (latencies : List UInt64) : ℕ := (latencies.map UInt64.toNat).sum

def longest (latencies : List UInt64) : ℕ := (latencies.map UInt64.toNat).foldl max 0

/-- The statistics of a handler are those of a list of latencies. -/
structure Books (latencies : List UInt64) (h : InterruptHandler) : Prop where
  count : h.count = UInt64.ofNat latencies.length
  totalLatency : h.totalLatency = UInt64.ofNat (total latencies)
  maxLatency : h.maxLatency.toNat = longest latencies

/-- An event of a vector that arrived at some time and still waits. -/
def InterruptEvent.waitsSince (vector : UInt8) (arrival : UInt64) (e : InterruptEvent) : Bool :=
  e.pending && e.vector = vector && e.arrivalTime = arrival

def Sample.arrivedAt (vector : UInt8) (arrival : UInt64) (s : Sample) : Bool :=
  s.vector = vector && s.arrival = arrival

def registers (vector : UInt8) (ev : StatisticsEvent) : Bool :=
  match ev.op with
  | .register v _ => v = vector
  | _ => false

/-- The statistics of a run. -/
structure Accounted (tr : List StatisticsEvent) (g : Globals) : Prop where
  handlers : ∀ v, Books (bookedFor v (ledger tr)) (g.gInterruptHandlers v)
  registered : ∀ v, (g.gInterruptHandlers v).registered = tr.any (registers v)
  observed : g.gMaxObservedLatency.toNat = longest ((ledger tr).map Sample.latency)
  once : ∀ v arrival, (ledger tr).countP (Sample.arrivedAt v arrival) +
      Slots.count (InterruptEvent.waitsSince v arrival) g.gInterruptEvents ≤
    tr.countP fun ev => ev.op = .trigger v arrival
  posted : g.gPostedInterrupts =
    UInt64.ofNat (tr.countP fun ev => ev.op = .usePosted postedInterruptVector)

/-! ## Lists of latencies -/

lemma total_concat (l : List UInt64) (x : UInt64) : total (l ++ [x]) = total l + x.toNat := by
  rw [total, List.map_append, List.sum_append]
  rfl

lemma longest_concat (l : List UInt64) (x : UInt64) :
    longest (l ++ [x]) = max (longest l) x.toNat := by
  rw [longest, List.map_append, List.foldl_append]
  rfl

lemma longest_le_iff {l : List UInt64} {n : ℕ} : longest l ≤ n ↔ ∀ x ∈ l, x.toNat ≤ n := by
  induction l using List.reverseRecOn with
  | nil => exact iff_of_true (Nat.zero_le n) nofun
  | append_singleton l x ih =>
    rw [longest_concat, Nat.max_le, ih]
    constructor
    · intro h y hy
      obtain hy | hy := List.mem_append.mp hy
      · exact h.1 y hy
      · rw [List.mem_singleton.mp hy]
        exact h.2
    · exact fun h => ⟨fun y hy => h y (by simp [hy]), h x (by simp)⟩

lemma toNat_max (a b : UInt64) : (max a b).toNat = max a.toNat b.toNat := by
  change (if a ≤ b then b else a).toNat = _
  simp only [UInt64.le_iff_toNat_le]
  split <;> omega

/-- A part of the latencies has no longer one than all. -/
lemma longest_mono {l l' : List UInt64} (h : ∀ x ∈ l, x ∈ l') : longest l ≤ longest l' :=
  longest_le_iff.mpr fun x hx => longest_le_iff.mp le_rfl x (h x hx)

lemma Books.account {l : List UInt64} {h : InterruptHandler} (hbooks : Books l h) (x : UInt64) :
    Books (if h.registered then l ++ [x] else l) (h.account x) := by
  rw [InterruptHandler.account]
  split
  · refine ⟨?_, ?_, ?_⟩
    · rw [hbooks.count, List.length_append, UInt64.ofNat_add]
      rfl
    · rw [hbooks.totalLatency, total_concat, UInt64.ofNat_add, UInt64.ofNat_toNat]
    · rw [longest_concat, ← hbooks.maxLatency]
      dsimp only
      split
      · rename_i hgt
        exact (Nat.max_eq_right (Nat.le_of_lt (UInt64.lt_iff_toNat_lt.mp hgt))).symm
      · rename_i hle
        exact (Nat.max_eq_left (UInt64.le_iff_toNat_le.mp (UInt64.not_lt.mp hle))).symm
  · exact hbooks

/-! ## One call -/

section
variable (g : Globals)

lemma register_eq (vector : UInt8) (handlerAddress : UInt64) :
    interruptRegisterHandler g vector handlerAddress =
      ({ g with
        gInterruptHandlers := Function.update g.gInterruptHandlers vector
          { g.gInterruptHandlers vector with vector, handlerAddress, registered := true } },
        .success) :=
  if_neg (Nat.not_le.mpr vector.toNat_lt)

/-- A trigger leaves the statistics of the deliveries alone. -/
lemma trigger_frame (vector : UInt8) (tsc : UInt64) :
    (interruptTrigger g vector tsc).gInterruptHandlers = g.gInterruptHandlers ∧
      (interruptTrigger g vector tsc).gMaxObservedLatency = g.gMaxObservedLatency ∧
      (interruptTrigger g vector tsc).gPostedInterrupts = g.gPostedInterrupts := by
  rw [interruptTrigger]
  dsimp only
  split
  · exact ⟨rfl, rfl, rfl⟩
  · split <;> exact ⟨rfl, rfl, rfl⟩

/-- It makes one event wait, at most, of its vector and its time. -/
lemma trigger_waits (vector : UInt8) (tsc : UInt64) (v : UInt8) (arrival : UInt64) :
    Slots.count (InterruptEvent.waitsSince v arrival)
        (interruptTrigger g vector tsc).gInterruptEvents ≤
      Slots.count (InterruptEvent.waitsSince v arrival) g.gInterruptEvents +
        if StatisticsCall.trigger vector tsc = .trigger v arrival then 1 else 0 := by
  cases hfound : g.findCoalescing vector tsc with
  | some i =>
    rw [trigger_coalesced g hfound]
    have hcount := Slots.count_update (InterruptEvent.waitsSince v arrival) g.gInterruptEvents i
      { g.gInterruptEvents i with coalesced := true }
    exact Nat.le_add_right_of_le (Nat.add_right_cancel hcount).le
  | none =>
    cases hslot : g.findFree with
    | some i =>
      rw [trigger_pending g hfound hslot]
      have hcount := Slots.count_update (InterruptEvent.waitsSince v arrival) g.gInterruptEvents i
        ⟨vector, tsc, (g.gInterruptEvents i).deliveryTime, true, false⟩
      have hnew : (InterruptEvent.waitsSince v arrival
            ⟨vector, tsc, (g.gInterruptEvents i).deliveryTime, true, false⟩).toNat =
          if StatisticsCall.trigger vector tsc = .trigger v arrival then 1 else 0 := by
        simp [InterruptEvent.waitsSince, Bool.toNat, ← Bool.decide_and]
      rw [hnew] at hcount
      exact hcount ▸ Nat.le_add_right _ _
    | none =>
      rw [trigger_dropped g hfound hslot]
      exact Nat.le_add_right _ _

variable {g} in
/-- A delivery leaves the other handlers alone. -/
lemma deliver_frame {vector : UInt8} {i : Fin maxInterruptVectors}
    (h : g.findPending vector = some i) (tsc : UInt64) :
    (interruptDeliver g vector tsc).gInterruptHandlers =
        Function.update g.gInterruptHandlers vector
          ((g.gInterruptHandlers vector).account (tsc - (g.gInterruptEvents i).arrivalTime)) ∧
      (interruptDeliver g vector tsc).gPostedInterrupts = g.gPostedInterrupts := by
  rw [interruptDeliver, h]
  dsimp only
  split <;> exact ⟨rfl, rfl⟩

variable {g} in
/-- It takes the event that it has found from those that wait. -/
lemma deliver_waitsSince {vector : UInt8} {i : Fin maxInterruptVectors}
    (h : g.findPending vector = some i) (tsc : UInt64) (v : UInt8) (arrival : UInt64) (b : Bool) :
    Slots.count (InterruptEvent.waitsSince v arrival)
          (interruptDeliver g vector tsc).gInterruptEvents +
        (Sample.arrivedAt v arrival ⟨vector, (g.gInterruptEvents i).arrivalTime, tsc, b⟩).toNat =
      Slots.count (InterruptEvent.waitsSince v arrival) g.gInterruptEvents := by
  obtain ⟨hpending, hvector⟩ := (findPending_first h).1
  have hcount := Slots.count_update (InterruptEvent.waitsSince v arrival) g.gInterruptEvents i
    { g.gInterruptEvents i with deliveryTime := tsc, pending := false }
  have hold : InterruptEvent.waitsSince v arrival (g.gInterruptEvents i) =
      Sample.arrivedAt v arrival ⟨vector, (g.gInterruptEvents i).arrivalTime, tsc, b⟩ := by
    rw [InterruptEvent.waitsSince, hpending, hvector]
    rfl
  have hnew : InterruptEvent.waitsSince v arrival
      { g.gInterruptEvents i with deliveryTime := tsc, pending := false } = false := rfl
  rw [hold, hnew, Bool.toNat_false, Nat.add_zero] at hcount
  rw [deliver_gInterruptEvents h]
  exact hcount

end

/-! ## The ledger -/

lemma ledger_concat (tr : List StatisticsEvent) (g : Globals) (op : StatisticsCall) (r : Unit) :
    ledger (tr ++ [⟨g, op, r⟩]) = ledger tr ++ g.samples op := by
  rw [ledger, List.flatMap_append, List.flatMap_singleton]
  rfl

lemma bookedFor_append (v : UInt8) (l l' : List Sample) :
    bookedFor v (l ++ l') = bookedFor v l ++ bookedFor v l' := by
  rw [bookedFor, List.filter_append, List.map_append]
  rfl

/-- A call that finds nothing adds nothing to the ledger. -/
lemma ledger_concat_nil {tr : List StatisticsEvent} {g : Globals} {op : StatisticsCall} {r : Unit}
    (h : g.samples op = []) : ledger (tr ++ [⟨g, op, r⟩]) = ledger tr := by
  rw [ledger_concat, h, List.append_nil]

lemma countP_concat {p : StatisticsEvent → Bool} {tr : List StatisticsEvent} {ev : StatisticsEvent} :
    (tr ++ [ev]).countP p = tr.countP p + if p ev then 1 else 0 := by
  rw [List.countP_append, List.countP_singleton]

lemma any_concat {p : StatisticsEvent → Bool} {tr : List StatisticsEvent} {ev : StatisticsEvent} :
    (tr ++ [ev]).any p = (tr.any p || p ev) := by
  rw [List.any_append, List.any_cons, List.any_nil, Bool.or_false]

variable {tr : List StatisticsEvent} {g : Globals}

lemma Accounted.register (h : Accounted tr g) (vector : UInt8) (handlerAddress : UInt64) :
    Accounted (tr ++ [⟨g, .register vector handlerAddress, ()⟩])
      (interruptRegisterHandler g vector handlerAddress).1 := by
  rw [register_eq]
  have hledger : ledger (tr ++ [⟨g, .register vector handlerAddress, ()⟩]) = ledger tr :=
    ledger_concat_nil rfl
  refine ⟨fun v => ?_, fun v => ?_, ?_, fun v arrival => ?_, ?_⟩
  · rw [hledger]
    dsimp only
    rcases eq_or_ne v vector with rfl | hne
    · obtain ⟨hcount, htotal, hmax⟩ := h.handlers v
      rw [Function.update_self]
      exact ⟨hcount, htotal, hmax⟩
    · rw [Function.update_of_ne hne]
      exact h.handlers v
  · rw [any_concat, ← h.registered]
    dsimp only
    rcases eq_or_ne v vector with rfl | hne
    · rw [Function.update_self]
      simp [registers]
    · rw [Function.update_of_ne hne]
      simp [registers, hne.symm]
  · rw [hledger]
    exact h.observed
  · rw [hledger, countP_concat]
    exact Nat.le_add_right_of_le (h.once v arrival)
  · rw [countP_concat]
    exact h.posted

lemma Accounted.trigger (h : Accounted tr g) (vector : UInt8) (tsc : UInt64) :
    Accounted (tr ++ [⟨g, .trigger vector tsc, ()⟩]) (interruptTrigger g vector tsc) := by
  obtain ⟨hhandlers, hobserved, hposted⟩ := trigger_frame g vector tsc
  have hledger : ledger (tr ++ [⟨g, .trigger vector tsc, ()⟩]) = ledger tr := ledger_concat_nil rfl
  refine ⟨fun v => ?_, fun v => ?_, ?_, fun v arrival => ?_, ?_⟩
  · rw [hledger, hhandlers]
    exact h.handlers v
  · rw [any_concat, hhandlers, h.registered]
    exact (Bool.or_false _).symm
  · rw [hledger, hobserved]
    exact h.observed
  · rw [hledger, countP_concat]
    have hwaits := trigger_waits g vector tsc v arrival
    have honce := h.once v arrival
    simp only [decide_eq_true_eq]
    omega
  · rw [countP_concat, hposted]
    exact h.posted

lemma Accounted.deliver (h : Accounted tr g) (vector : UInt8) (tsc : UInt64) :
    Accounted (tr ++ [⟨g, .deliver vector tsc, ()⟩]) (interruptDeliver g vector tsc) := by
  cases hfound : g.findPending vector with
  | none =>
    rw [deliver_empty g hfound]
    have hledger : ledger (tr ++ [⟨g, .deliver vector tsc, ()⟩]) = ledger tr :=
      ledger_concat_nil (by rw [Globals.samples, hfound])
    refine ⟨fun v => ?_, fun v => ?_, ?_, fun v arrival => ?_, ?_⟩
    · rw [hledger]
      exact h.handlers v
    · rw [any_concat]
      exact (h.registered v).trans (Bool.or_false _).symm
    · rw [hledger]
      exact h.observed
    · rw [hledger, countP_concat]
      exact Nat.le_add_right_of_le (h.once v arrival)
    · rw [countP_concat]
      exact h.posted
  | some i =>
    obtain ⟨hhandlers, hposted⟩ := deliver_frame hfound tsc
    have hsamples : g.samples (.deliver vector tsc) = [⟨vector, (g.gInterruptEvents i).arrivalTime,
        tsc, (g.gInterruptHandlers vector).registered⟩] := by
      rw [Globals.samples, hfound]
    refine ⟨fun v => ?_, fun v => ?_, ?_, fun v arrival => ?_, ?_⟩
    · rw [ledger_concat, hsamples, bookedFor_append, hhandlers]
      rcases eq_or_ne v vector with rfl | hne
      · have hbooks := (h.handlers v).account (tsc - (g.gInterruptEvents i).arrivalTime)
        rw [Function.update_self]
        cases hreg : (g.gInterruptHandlers v).registered with
        | true =>
          rw [hreg] at hbooks
          simpa [bookedFor, Sample.latency] using hbooks
        | false =>
          rw [hreg] at hbooks
          simpa [bookedFor] using hbooks
      · rw [Function.update_of_ne hne]
        simpa [bookedFor, hne.symm] using h.handlers v
    · rw [any_concat, hhandlers]
      refine Eq.trans ?_ ((h.registered v).trans (Bool.or_false _).symm)
      rcases eq_or_ne v vector with rfl | hne
      · rw [Function.update_self, InterruptHandler.account]
        split <;> rfl
      · rw [Function.update_of_ne hne]
    · rw [ledger_concat, hsamples, List.map_append, (deliver_records hfound tsc).2, toNat_max,
        h.observed]
      exact (longest_concat _ _).symm
    · have hwaits := deliver_waitsSince hfound tsc v arrival (g.gInterruptHandlers vector).registered
      have honce := h.once v arrival
      rw [ledger_concat, hsamples, List.countP_append, List.countP_singleton, countP_concat]
      have hcall : StatisticsCall.deliver vector tsc ≠ .trigger v arrival := nofun
      rw [← Bool.cond_eq_ite, ← Bool.toNat, if_neg (by simp)]
      omega
    · rw [countP_concat, hposted]
      exact h.posted

lemma Accounted.usePosted (h : Accounted tr g) (vector : UInt8) :
    Accounted (tr ++ [⟨g, .usePosted vector, ()⟩]) (interruptUsePosted g vector).1 := by
  have hframe : (interruptUsePosted g vector).1 =
      { g with gPostedInterrupts := (interruptUsePosted g vector).1.gPostedInterrupts } := by
    rw [interruptUsePosted]
    split <;> rfl
  have hledger : ledger (tr ++ [⟨g, .usePosted vector, ()⟩]) = ledger tr := ledger_concat_nil rfl
  rw [hframe]
  refine ⟨fun v => ?_, fun v => ?_, ?_, fun v arrival => ?_, ?_⟩
  · rw [hledger]
    exact h.handlers v
  · rw [any_concat]
    exact (h.registered v).trans (Bool.or_false _).symm
  · rw [hledger]
    exact h.observed
  · rw [hledger, countP_concat]
    exact Nat.le_add_right_of_le (h.once v arrival)
  · rw [countP_concat, UInt64.ofNat_add, ← h.posted, interruptUsePosted]
    by_cases hv : vector = postedInterruptVector
    · simp [hv]
    · simp [hv]

lemma accounted_step {g' : Globals} {op : StatisticsCall} {r : Unit}
    (h : Accounted tr g) (st : StatisticsStep g op r g') :
    Accounted (tr ++ [⟨g, op, r⟩]) g' := by
  cases st with
  | mk =>
    cases op with
    | register vector handlerAddress => exact h.register vector handlerAddress
    | trigger vector tsc => exact h.trigger vector tsc
    | deliver vector tsc => exact h.deliver vector tsc
    | usePosted vector => exact h.usePosted vector

lemma accounted_init : Accounted [] interruptLatencyInit := by
  have hcount (v : UInt8) (arrival : UInt64) :
      Slots.count (InterruptEvent.waitsSince v arrival) interruptLatencyInit.gInterruptEvents = 0 :=
    Finset.sum_eq_zero fun _ _ => rfl
  refine ⟨fun _ => ⟨rfl, rfl, rfl⟩, fun _ => rfl, rfl, fun v arrival => ?_, rfl⟩
  rw [hcount]
  exact Nat.le_refl 0

/-- What the ledger holds has been triggered. -/
lemma Accounted.triggered (h : Accounted tr g) {s : Sample} (hs : s ∈ ledger tr) :
    ∃ ev ∈ tr, ev.op = .trigger s.vector s.arrival := by
  have hself : s.arrivedAt s.vector s.arrival = true := by simp [Sample.arrivedAt]
  have hpos : 0 < (ledger tr).countP (Sample.arrivedAt s.vector s.arrival) :=
    List.countP_pos_iff.mpr ⟨s, hs, hself⟩
  have hcalls := Nat.lt_of_lt_of_le hpos (Nat.le_of_add_right_le (h.once s.vector s.arrival))
  obtain ⟨ev, hev, hop⟩ := List.countP_pos_iff.mp hcalls
  exact ⟨ev, hev, of_decide_eq_true hop⟩

/-- No handler has a longer latency than the longest observed. -/
lemma Accounted.maxLatency_le (h : Accounted tr g) (v : UInt8) :
    (g.gInterruptHandlers v).maxLatency ≤ g.gMaxObservedLatency := by
  rw [UInt64.le_iff_toNat_le, (h.handlers v).maxLatency, h.observed]
  refine longest_mono fun x hx => ?_
  obtain ⟨s, hs, rfl⟩ := List.mem_map.mp hx
  exact List.mem_map_of_mem (List.mem_of_mem_filter hs)

/-- In every run the statistics of each handler are the number, the sum and the maximum of the
latencies that its deliveries have found; what they have found has been triggered, each trigger at
most once; and no handler has a longer latency than the longest one observed. -/
theorem statistics_ledger (run : Run StatisticsStep interruptLatencyInit tr g) :
    Accounted tr g ∧ (∀ s ∈ ledger tr, ∃ ev ∈ tr, ev.op = .trigger s.vector s.arrival) ∧
      ∀ v, (g.gInterruptHandlers v).maxLatency ≤ (interruptGetStats g).maxLatency := by
  have haccount : Accounted tr g := by
    refine run.history accounted_init ?_
    intro tr g op r g' h st
    exact accounted_step h st
  exact ⟨haccount, fun _ hs => haccount.triggered hs, haccount.maxLatency_le⟩

/-- A handler that is registered, triggered and delivered to. -/
theorem statistics_ledger_registered :
    ∃ (tr : List StatisticsEvent) (g : Globals), Run StatisticsStep interruptLatencyInit tr g ∧
      tr.length = 3 ∧ Accounted tr g := by
  have hrun := @Run.nil _ _ _ StatisticsStep interruptLatencyInit
    |>.snoc (.mk _ (.register 33 0x1000)) |>.snoc (.mk _ (.trigger 33 1000))
    |>.snoc (.mk _ (.deliver 33 1002))
  exact ⟨_, _, hrun, rfl, (statistics_ledger hrun).1⟩

end Bemi.Interrupt
