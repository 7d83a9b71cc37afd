import Bemi.Efi
import Bemi.Lib.Binary64

/-!
# Bandwidth governor

Model of `performance/bwgov/bandwidthgovernor.c`: the counters of a window, and the threads that run
while the memory bandwidth in use is above or below its thresholds. A `double` is a `Float`.
`gBwGov` is `none` until the governor has been allocated. `bookkept` has what holds after any calls.
-/

namespace Bemi.BwGov
open Binary64

def bwPeakGbs : Float := 64.0

def bwThrottleThreshold : Float := 0.85

def bwReenableThreshold : Float := 0.60

def bwDescheduleFraction : Float := 0.25

def v71MaxThreads : UInt32 := 84

inductive BwGovernorState where
  | normal | throttled | severe
  deriving DecidableEq, Repr

structure BwGovernor where
  initialized : Bool
  state : BwGovernorState
  maxThreads : UInt32
  activeThreads : UInt32
  transactionsThisWindow : UInt64
  totalTransactions : UInt64
  windowCount : UInt64
  currentBwGbs : Float
  averageBwGbs : Float
  peakBwGbs : Float
  throttleEvents : UInt64
  reenableEvents : UInt64
  dboPrefetchRequests : UInt64
  dboPrefetchHits : UInt64

/-- `allocated` is the outcome of `AllocateZeroPool`. -/
def bwGovernorInit (allocated : Bool) (maxThreads : UInt32) (peakBwGbs : Float) :
    Option BwGovernor × EfiStatus :=
  if ¬ allocated then (none, .outOfResources)
  else
    (some
      { initialized := true
        state := .normal
        maxThreads := maxThreads
        activeThreads := maxThreads
        transactionsThisWindow := 0
        totalTransactions := 0
        windowCount := 0
        currentBwGbs := 0.0
        averageBwGbs := 0.0
        peakBwGbs := if peakBwGbs > 0.0 then peakBwGbs else bwPeakGbs
        throttleEvents := 0
        reenableEvents := 0
        dboPrefetchRequests := 0
        dboPrefetchHits := 0 },
      .success)

def bwGovernorRegisterTransaction (count : UInt32) (g : BwGovernor) : BwGovernor :=
  { g with
    transactionsThisWindow := g.transactionsThisWindow + count.toUInt64
    totalTransactions := g.totalTransactions + count.toUInt64 }

def bwGovernorV71RegisterDboPrefetch (requests hits : UInt32) (g : BwGovernor) : BwGovernor :=
  { g with
    dboPrefetchRequests := g.dboPrefetchRequests + requests.toUInt64
    dboPrefetchHits := g.dboPrefetchHits + hits.toUInt64 }

/-! ## Windows -/

/-- The threads left when a fraction is not scheduled: `(UINT32)(MaxThreads * (1.0 - 0.25))`. -/
def descheduled (maxThreads : UInt32) : UInt32 :=
  (maxThreads.toFloat * (1.0 - bwDescheduleFraction)).toUInt32

/-- Over the throttle threshold. -/
def throttle (g : BwGovernor) : BwGovernor :=
  match g.state with
  | .normal =>
    { g with
      state := .throttled
      activeThreads := descheduled g.maxThreads
      throttleEvents := g.throttleEvents + 1 }
  | .throttled =>
    { g with
      state := .severe
      activeThreads := g.maxThreads / 2
      throttleEvents := g.throttleEvents + 1 }
  | .severe => g

/-- Under the re-enable threshold. -/
def reenable (g : BwGovernor) : BwGovernor :=
  match g.state with
  | .severe =>
    { g with
      state := .throttled
      activeThreads := descheduled g.maxThreads
      reenableEvents := g.reenableEvents + 1 }
  | .throttled =>
    { g with
      state := .normal
      activeThreads := g.maxThreads
      reenableEvents := g.reenableEvents + 1 }
  | .normal => g

/-- The bandwidth of the window that ends. -/
def measure (g : BwGovernor) : BwGovernor :=
  let windowBw := g.transactionsThisWindow.toFloat * 0.15
  { g with
    windowCount := g.windowCount + 1
    currentBwGbs := windowBw
    averageBwGbs := g.averageBwGbs * 0.9 + windowBw * 0.1 }

def govern (g : BwGovernor) : BwGovernor :=
  let utilization := g.currentBwGbs / g.peakBwGbs
  if utilization ≥ bwThrottleThreshold then throttle g
  else if utilization ≤ bwReenableThreshold then reenable g
  else g

def bwGovernorProcessWindow (g : BwGovernor) : BwGovernor :=
  { govern (measure g) with transactionsThisWindow := 0 }

/-! ## Calls -/

inductive Call where
  | registerTransaction (count : UInt32)
  | v71RegisterDboPrefetch (requests hits : UInt32)
  | processWindow

/-- Without a governor a call does nothing. -/
def call (gBwGov : Option BwGovernor) (c : Call) : Option BwGovernor :=
  gBwGov.map fun g =>
    if ¬ g.initialized then g
    else
      match c with
      | .registerTransaction count => bwGovernorRegisterTransaction count g
      | .v71RegisterDboPrefetch requests hits => bwGovernorV71RegisterDboPrefetch requests hits g
      | .processWindow => bwGovernorProcessWindow g

def bwGovernorGetActiveThreads (gBwGov : Option BwGovernor) : UInt32 :=
  match gBwGov with
  | none => v71MaxThreads
  | some g => if ¬ g.initialized then v71MaxThreads else g.activeThreads

def bwGovernorV71GetEffectiveThreads (gBwGov : Option BwGovernor) : UInt32 :=
  match gBwGov with
  | none => v71MaxThreads
  | some g =>
    if ¬ g.initialized then v71MaxThreads
    else if g.state = .normal then g.maxThreads
    else g.activeThreads

/-! ## Bookkeeping -/

/-- The threads that run in a state. -/
def BwGovernorState.threads (maxThreads : Nat) : BwGovernorState → Nat
  | .normal => maxThreads
  | .throttled => 3 * maxThreads / 4
  | .severe => maxThreads / 2

/-- How often a state has been throttled more than it has been re-enabled. -/
def BwGovernorState.level : BwGovernorState → UInt64
  | .normal => 0
  | .throttled => 1
  | .severe => 2

structure Bookkept (n : UInt32) (g : BwGovernor) : Prop where
  initialized : g.initialized = true
  maxThreads : g.maxThreads = n
  activeThreads : g.activeThreads.toNat = g.state.threads n.toNat
  events : g.throttleEvents - g.reenableEvents = g.state.level

/-- The product in `descheduled` is not rounded. -/
lemma descheduled_exactly (maxThreads : UInt32) :
    Exactly (maxThreads.toFloat * (1.0 - bwDescheduleFraction)) (3 * maxThreads.toNat) 2 := by
  have hlt := maxThreads.toNat_lt
  have hquarter : Exactly (1.0 - bwDescheduleFraction) 3 2 := ⟨by decide, by decide, rfl⟩
  have hproduct := (exactly_toFloat maxThreads).mul hquarter (by omega) (by decide)
  rw [Nat.mul_comm] at hproduct
  exact hproduct

lemma descheduled_toNat (maxThreads : UInt32) :
    (descheduled maxThreads).toNat = 3 * maxThreads.toNat / 4 := by
  have hlt := maxThreads.toNat_lt
  exact (descheduled_exactly maxThreads).toUInt32 (by omega)

example : descheduled 84 = 63 := by decide

/-- One throttle event more. -/
lemma events_throttle {t r : UInt64} {d : UInt64} (h : t - r = d) : t + 1 - r = d + 1 := by
  rw [← h]
  grind

/-- One re-enable event more. -/
lemma events_reenable {t r : UInt64} {d : UInt64} (h : t - r = d) : t - (r + 1) = d - 1 := by
  rw [← h]
  grind

lemma Bookkept.throttle {n : UInt32} {g : BwGovernor} (h : Bookkept n g) :
    Bookkept n (throttle g) := by
  have hevents := h.events
  have hmax := h.maxThreads
  rw [BwGov.throttle]
  cases hstate : g.state with
  | normal =>
    rw [hstate] at hevents
    refine ⟨h.initialized, hmax, ?_, events_throttle hevents⟩
    rw [hmax]
    exact descheduled_toNat n
  | throttled =>
    rw [hstate] at hevents
    refine ⟨h.initialized, hmax, ?_, events_throttle hevents⟩
    rw [hmax]
    exact UInt32.toNat_div n 2
  | severe => exact h

lemma Bookkept.reenable {n : UInt32} {g : BwGovernor} (h : Bookkept n g) :
    Bookkept n (reenable g) := by
  have hevents := h.events
  have hmax := h.maxThreads
  rw [BwGov.reenable]
  cases hstate : g.state with
  | severe =>
    rw [hstate] at hevents
    refine ⟨h.initialized, hmax, ?_, events_reenable hevents⟩
    rw [hmax]
    exact descheduled_toNat n
  | throttled =>
    rw [hstate] at hevents
    refine ⟨h.initialized, hmax, ?_, events_reenable hevents⟩
    rw [hmax]
    rfl
  | normal => exact h

/-- What the counters of a window do not matter to. -/
lemma Bookkept.of_same {n : UInt32} {g g' : BwGovernor} (h : Bookkept n g)
    (hinit : g'.initialized = g.initialized) (hmax : g'.maxThreads = g.maxThreads)
    (hactive : g'.activeThreads = g.activeThreads) (hstate : g'.state = g.state)
    (hthrottle : g'.throttleEvents = g.throttleEvents)
    (hreenable : g'.reenableEvents = g.reenableEvents) : Bookkept n g' := by
  refine ⟨hinit.trans h.initialized, hmax.trans h.maxThreads, ?_, ?_⟩
  · rw [hactive, hstate]
    exact h.activeThreads
  · rw [hthrottle, hreenable, hstate]
    exact h.events

/-- Whichever threshold a window is over or under. -/
lemma Bookkept.govern {n : UInt32} {g : BwGovernor} (h : Bookkept n g) :
    Bookkept n (govern g) := by
  rw [BwGov.govern]
  split
  · exact h.throttle
  split
  · exact h.reenable
  · exact h

lemma Bookkept.processWindow {n : UInt32} {g : BwGovernor} (h : Bookkept n g) :
    Bookkept n (bwGovernorProcessWindow g) := by
  have hmeasured : Bookkept n (measure g) := h.of_same rfl rfl rfl rfl rfl rfl
  exact hmeasured.govern.of_same rfl rfl rfl rfl rfl rfl

lemma Bookkept.call {n : UInt32} {g g' : BwGovernor} (h : Bookkept n g) (c : Call)
    (hcall : BwGov.call (some g) c = some g') : Bookkept n g' := by
  have hready : ¬ ¬ g.initialized = true := not_not_intro h.initialized
  rw [BwGov.call, Option.map_some, if_neg hready] at hcall
  obtain rfl := Option.some.inj hcall
  cases c with
  | registerTransaction => exact h.of_same rfl rfl rfl rfl rfl rfl
  | v71RegisterDboPrefetch => exact h.of_same rfl rfl rfl rfl rfl rfl
  | processWindow => exact h.processWindow

lemma bookkept_init (allocated : Bool) (n : UInt32) (peakBwGbs : Float) {g : BwGovernor}
    (h : (bwGovernorInit allocated n peakBwGbs).1 = some g) : Bookkept n g := by
  rw [bwGovernorInit] at h
  split at h
  · cases h
  · cases h
    exact ⟨rfl, rfl, rfl, UInt64.sub_self 0⟩

/-- Calls keep the books of a governor. -/
lemma bookkept_calls {n : UInt32} (calls : List Call) {gBwGov : Option BwGovernor}
    (h : ∀ g, gBwGov = some g → Bookkept n g) :
    ∀ g, calls.foldl call gBwGov = some g → Bookkept n g := by
  induction calls generalizing gBwGov with
  | nil => exact h
  | cons c calls ih =>
    refine ih fun g' hcall => ?_
    cases hgov : gBwGov with
    | none =>
      rw [hgov] at hcall
      cases hcall
    | some g =>
      rw [hgov] at hcall
      exact (h g hgov).call c hcall

/-- Without a governor both getters have the default. -/
lemma getters_agree {n : UInt32} {gBwGov : Option BwGovernor}
    (h : ∀ g, gBwGov = some g → Bookkept n g) :
    bwGovernorV71GetEffectiveThreads gBwGov = bwGovernorGetActiveThreads gBwGov := by
  cases hgov : gBwGov with
  | none => rfl
  | some g =>
    obtain ⟨hinit, hmax, hactive, -⟩ := h g hgov
    rw [bwGovernorV71GetEffectiveThreads, bwGovernorGetActiveThreads]
    rw [if_neg (not_not_intro hinit), if_neg (not_not_intro hinit)]
    split
    · rename_i hnormal
      rw [hnormal] at hactive
      rw [hmax]
      exact UInt32.toNat_inj.mp hactive.symm
    · rfl

/-- Whatever is called after the initialisation, the state, the threads and the events fit together,
the threads left while throttled are computed exactly, and both getters have the same. -/
theorem bwGovernor_bookkept (allocated : Bool) (maxThreads : UInt32) (peakBwGbs : Float)
    (calls : List Call) :
    let gBwGov := calls.foldl call (bwGovernorInit allocated maxThreads peakBwGbs).1
    Exactly (maxThreads.toFloat * (1.0 - bwDescheduleFraction)) (3 * maxThreads.toNat) 2 ∧
      (∀ g, gBwGov = some g → Bookkept maxThreads g) ∧
      bwGovernorV71GetEffectiveThreads gBwGov = bwGovernorGetActiveThreads gBwGov := by
  have h := bookkept_calls calls fun g => bookkept_init allocated maxThreads peakBwGbs
  exact ⟨descheduled_exactly maxThreads, h, getters_agree h⟩

end Bemi.BwGov
