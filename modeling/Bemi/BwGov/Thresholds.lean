import Bemi.BwGov.Governor
import Bemi.Lib.Coupled
import Bemi.Lib.Rounding

/-!
# The governor in whole transactions

`BwGovernorProcessWindow` compares a rounded quotient of a rounded product with rounded thresholds. With
the peak bandwidth of 64 GB/s none of this matters: a window is throttled from 363 transactions on and
re-enabled up to 256. `governor_refines` compares the governor with one that counts in integers.
-/

namespace Bemi.BwGov
open Binary64 Program Prog Coupling

/-! ## The thresholds -/

def transactionGbs : Nat := 5404319552844595

def throttleMantissa : Nat := 7656119366529843

lemma normal_transactionGbs : Normal 0.15 transactionGbs (-55) :=
  ⟨⟨by decide, by decide⟩, by decide, by decide, rfl⟩

lemma normal_throttle : Normal bwThrottleThreshold throttleMantissa (-53) :=
  ⟨⟨by decide, by decide⟩, by decide, by decide, rfl⟩

/-- `0.60` is rounded as `0.15` is. -/
lemma normal_reenable : Normal bwReenableThreshold transactionGbs (-53) :=
  ⟨⟨by decide, by decide⟩, by decide, by decide, rfl⟩

lemma normal_peak : Normal bwPeakGbs (2 ^ 52) (6 - 52) :=
  ⟨⟨by decide, by decide⟩, by decide, by decide, rfl⟩

lemma mantissa_scaled {x : Nat} (hlow : 256 ≤ x) (hhigh : x < 512) : Mantissa (x * 2 ^ 44) := by
  constructor
  · change 256 * 2 ^ 44 ≤ x * 2 ^ 44
    exact Nat.mul_le_mul_right _ hlow
  · change x * 2 ^ 44 < 512 * 2 ^ 44
    exact Nat.mul_lt_mul_of_pos_right hhigh (Nat.two_pow_pos 44)

lemma value_scaled (x : Nat) : value (x * 2 ^ 44) (-44) = x := by
  rw [value_mul_two_pow]
  exact value_zero x

/-- The utilization of a window is on the same side of a number as what it stands for. -/
lemma utilization_bounds {n : UInt64} (hpos : 0 < n.toNat) : ∃ q e,
    Normal (n.toFloat * 0.15 / bwPeakGbs) q (e - 6) ∧ ∀ x, 256 ≤ x → x < 512 →
      (n.toNat ≤ x → ∀ q' e', Mantissa q' → x * value transactionGbs (-55) ≤ value q' e' →
        value q e ≤ value q' e') ∧
      (x ≤ n.toNat → ∀ q' e', Mantissa q' → value q' e' ≤ x * value transactionGbs (-55) →
        value q' e' ≤ value q e) := by
  obtain ⟨m, k, hn, hklow, hkhigh, hconverted⟩ := normal_toFloat hpos
  obtain ⟨q, e, hproduct, hlow, hhigh, hrounded⟩ :=
    hn.mul normal_transactionGbs (by omega) (by omega)
  have hgbs : 0 ≤ value transactionGbs (-55) := mul_nonneg (Nat.cast_nonneg _) (two_zpow_pos _).le
  refine ⟨q, e, hproduct.div_two_pow normal_peak (by omega) (by omega), fun x hx hx' => ⟨?_, ?_⟩⟩
  · intro hle q' e' hq' hbound
    have hconvert := hconverted.ge _ (-44) (mantissa_scaled hx hx')
      (by rw [value_scaled]; exact_mod_cast hle)
    rw [value_scaled] at hconvert
    exact hrounded.ge q' e' hq' ((mul_le_mul_of_nonneg_right hconvert hgbs).trans hbound)
  · intro hge q' e' hq' hbound
    have hconvert := hconverted.le _ (-44) (mantissa_scaled hx hx')
      (by rw [value_scaled]; exact_mod_cast hge)
    rw [value_scaled] at hconvert
    exact hrounded.le q' e' hq' (hbound.trans (mul_le_mul_of_nonneg_right hconvert hgbs))

lemma value_sub_le_iff {q q' : Nat} {e e' k : Int} :
    value q (e - k) ≤ value q' (e' - k) ↔ value q e ≤ value q' e' := by
  have hscale (q : Nat) (e : Int) : value q e = value q (e - k) * 2 ^ k := by
    rw [value, value, mul_assoc, ← zpow_add₀ two_ne_zero, sub_add_cancel]
  rw [hscale q e, hscale q' e', mul_le_mul_iff_left₀ (two_zpow_pos k)]

/-- A window is over the throttle threshold from 363 transactions on. -/
lemma utilization_ge_iff (n : UInt64) :
    n.toFloat * 0.15 / bwPeakGbs ≥ bwThrottleThreshold ↔ 363 ≤ n.toNat := by
  rcases Nat.eq_zero_or_pos n.toNat with hzero | hpos
  · obtain rfl : n = 0 := UInt64.toNat_inj.mp hzero
    exact iff_of_false (by decide) (by decide)
  obtain ⟨q, e, hnormal, hbounds⟩ := utilization_bounds hpos
  have hscale : (-53 : Int) = -47 - 6 := rfl
  have hcompare : n.toFloat * 0.15 / bwPeakGbs ≥ bwThrottleThreshold ↔
      value throttleMantissa (-47) ≤ value q e := by
    rw [ge_iff_le, normal_throttle.le_iff hnormal, hscale, value_sub_le_iff]
  rw [hcompare]
  constructor
  · intro hover
    by_contra hless
    have hbelow := (hbounds 362 (by decide) (by decide)).1 (by omega) (throttleMantissa - 1) (-47)
      ⟨by decide, by decide⟩ (by norm_num [value, transactionGbs, throttleMantissa])
    exact absurd (value_le_iff_mantissa.mp (hover.trans hbelow)) (by decide)
  · intro hmany
    exact (hbounds 363 (by decide) (by decide)).2 hmany throttleMantissa (-47)
      normal_throttle.mantissa (by norm_num [value, transactionGbs, throttleMantissa])

/-- A window is under the re-enable threshold up to 256 transactions. -/
lemma utilization_le_iff (n : UInt64) :
    n.toFloat * 0.15 / bwPeakGbs ≤ bwReenableThreshold ↔ n.toNat ≤ 256 := by
  rcases Nat.eq_zero_or_pos n.toNat with hzero | hpos
  · obtain rfl : n = 0 := UInt64.toNat_inj.mp hzero
    exact iff_of_true (by decide) (by decide)
  obtain ⟨q, e, hnormal, hbounds⟩ := utilization_bounds hpos
  have hscale : (-53 : Int) = -47 - 6 := rfl
  have hcompare : n.toFloat * 0.15 / bwPeakGbs ≤ bwReenableThreshold ↔
      value q e ≤ value transactionGbs (-47) := by
    rw [hnormal.le_iff normal_reenable, hscale, value_sub_le_iff]
  rw [hcompare]
  constructor
  · intro hunder
    by_contra hmore
    have habove := (hbounds 257 (by decide) (by decide)).2 (by omega) (transactionGbs + 1) (-47)
      ⟨by decide, by decide⟩ (by norm_num [value, transactionGbs])
    exact absurd (value_le_iff_mantissa.mp (habove.trans hunder)) (by decide)
  · intro hfew
    exact (hbounds 256 (by decide) (by decide)).1 hfew transactionGbs (-47)
      normal_transactionGbs.mantissa (by norm_num [value, transactionGbs])

lemma govern_eq {g : BwGovernor} (hpeak : g.peakBwGbs = bwPeakGbs) : govern (measure g) =
    if 363 ≤ g.transactionsThisWindow.toNat then throttle (measure g)
    else if g.transactionsThisWindow.toNat ≤ 256 then reenable (measure g)
    else measure g := by
  have hutilization : (measure g).currentBwGbs / (measure g).peakBwGbs =
      g.transactionsThisWindow.toFloat * 0.15 / bwPeakGbs := by
    rw [← hpeak]
    rfl
  rw [govern, hutilization, if_congr (utilization_ge_iff _) rfl (if_congr (utilization_le_iff _) rfl rfl)]

/-! ## Calls of the governor -/

def bwGovernorGetState (gBwGov : Option BwGovernor) : BwGovernorState :=
  match gBwGov with
  | none => .normal
  | some g => g.state

inductive GovernorCall where
  | bwGovernorRegisterTransaction (count : UInt32)
  | bwGovernorV71RegisterDboPrefetch (requests hits : UInt32)
  | bwGovernorProcessWindow
  | bwGovernorGetActiveThreads
  | bwGovernorV71GetEffectiveThreads
  | bwGovernorGetState
  | bwGovernorPrintStats

/-- Of the statistics the numbers that are no floats. -/
inductive GovernorAnswer where
  | done
  | threads (threads : UInt32)
  | state (state : BwGovernorState)
  | stats (totalTransactions windowCount : UInt64) (activeThreads maxThreads : UInt32)
      (state : BwGovernorState) (throttleEvents reenableEvents : UInt64)

def perform (gBwGov : Option BwGovernor) : GovernorCall → GovernorAnswer × Option BwGovernor
  | .bwGovernorRegisterTransaction count => (.done, call gBwGov (.registerTransaction count))
  | .bwGovernorV71RegisterDboPrefetch requests hits =>
    (.done, call gBwGov (.v71RegisterDboPrefetch requests hits))
  | .bwGovernorProcessWindow => (.done, call gBwGov .processWindow)
  | .bwGovernorGetActiveThreads => (.threads (BwGov.bwGovernorGetActiveThreads gBwGov), gBwGov)
  | .bwGovernorV71GetEffectiveThreads =>
    (.threads (BwGov.bwGovernorV71GetEffectiveThreads gBwGov), gBwGov)
  | .bwGovernorGetState => (.state (BwGov.bwGovernorGetState gBwGov), gBwGov)
  | .bwGovernorPrintStats =>
    match gBwGov with
    | none => (.done, gBwGov)
    | some g =>
      (.stats g.totalTransactions g.windowCount g.activeThreads g.maxThreads g.state
        g.throttleEvents g.reenableEvents, gBwGov)

/-! ## A policy in integers -/

/-- The transactions of the window and of all windows, the level, and how often it went up and down. -/
structure ThreadPolicy where
  maxThreads : Nat
  state : BwGovernorState
  window : Nat
  transactions : Nat
  windows : Nat
  raised : Nat
  lowered : Nat

def BwGovernorState.raise : BwGovernorState → BwGovernorState
  | .normal => .throttled
  | .throttled => .severe
  | .severe => .severe

def BwGovernorState.lower : BwGovernorState → BwGovernorState
  | .normal => .normal
  | .throttled => .normal
  | .severe => .throttled

namespace ThreadPolicy

def register (p : ThreadPolicy) (count : UInt32) : ThreadPolicy :=
  { p with window := p.window + count.toNat, transactions := p.transactions + count.toNat }

def raise (p : ThreadPolicy) : ThreadPolicy :=
  { p with state := p.state.raise, raised := p.raised + if p.state = .severe then 0 else 1 }

def lower (p : ThreadPolicy) : ThreadPolicy :=
  { p with state := p.state.lower, lowered := p.lowered + if p.state = .normal then 0 else 1 }

/-- A window of 363 transactions goes a level up, one of 256 a level down. -/
def processWindow (p : ThreadPolicy) : ThreadPolicy :=
  let p' := if 363 ≤ p.window % UInt64.size then p.raise
    else if p.window % UInt64.size ≤ 256 then p.lower
    else p
  { p' with window := 0, windows := p.windows + 1 }

def threads (p : ThreadPolicy) : UInt32 := UInt32.ofNat (p.state.threads p.maxThreads)

end ThreadPolicy

/-- Without memory for a governor nothing is governed. -/
def policyInit (allocated : Bool) (maxThreads : UInt32) : Option ThreadPolicy :=
  if allocated then some ⟨maxThreads.toNat, .normal, 0, 0, 0, 0, 0⟩ else none

def policyPerform (policy : Option ThreadPolicy) :
    GovernorCall → GovernorAnswer × Option ThreadPolicy
  | .bwGovernorRegisterTransaction count => (.done, policy.map (·.register count))
  | .bwGovernorV71RegisterDboPrefetch _ _ => (.done, policy)
  | .bwGovernorProcessWindow => (.done, policy.map (·.processWindow))
  | .bwGovernorGetActiveThreads | .bwGovernorV71GetEffectiveThreads =>
    (.threads (policy.elim v71MaxThreads (·.threads)), policy)
  | .bwGovernorGetState => (.state (policy.elim .normal (·.state)), policy)
  | .bwGovernorPrintStats =>
    match policy with
    | none => (.done, policy)
    | some p =>
      (.stats (UInt64.ofNat p.transactions) (UInt64.ofNat p.windows) p.threads
        (UInt32.ofNat p.maxThreads) p.state (UInt64.ofNat p.raised) (UInt64.ofNat p.lowered), policy)

/-! ## The governor follows the policy -/

structure Follows (g : BwGovernor) (p : ThreadPolicy) : Prop where
  bookkept : Bookkept (UInt32.ofNat p.maxThreads) g
  maxThreads : g.maxThreads.toNat = p.maxThreads
  peak : g.peakBwGbs = bwPeakGbs
  state : g.state = p.state
  window : g.transactionsThisWindow = UInt64.ofNat p.window
  transactions : g.totalTransactions = UInt64.ofNat p.transactions
  windows : g.windowCount = UInt64.ofNat p.windows
  raised : g.throttleEvents = UInt64.ofNat p.raised
  lowered : g.reenableEvents = UInt64.ofNat p.lowered

variable {g : BwGovernor} {p : ThreadPolicy}

lemma Follows.threads (h : Follows g p) : g.activeThreads = p.threads := by
  have hactive := h.bookkept.activeThreads
  rw [← h.maxThreads, UInt32.ofNat_toNat, h.state] at hactive
  rw [ThreadPolicy.threads, ← h.maxThreads, ← hactive, UInt32.ofNat_toNat]

lemma ofNat_add_toUInt64 (n : Nat) (count : UInt32) :
    UInt64.ofNat n + count.toUInt64 = UInt64.ofNat (n + count.toNat) := by
  rw [UInt64.ofNat_add]
  congr 1
  exact UInt64.toNat_inj.mp (by simp)

lemma Follows.register (h : Follows g p) (count : UInt32) :
    Follows (bwGovernorRegisterTransaction count g) (p.register count) where
  bookkept := h.bookkept.of_same rfl rfl rfl rfl rfl rfl
  maxThreads := h.maxThreads
  peak := h.peak
  state := h.state
  window := by
    rw [bwGovernorRegisterTransaction, h.window]
    exact ofNat_add_toUInt64 ..
  transactions := by
    rw [bwGovernorRegisterTransaction, h.transactions]
    exact ofNat_add_toUInt64 ..
  windows := h.windows
  raised := h.raised
  lowered := h.lowered

lemma throttle_eq (g : BwGovernor) : throttle g = { g with
    state := g.state.raise
    activeThreads := (throttle g).activeThreads
    throttleEvents := g.throttleEvents + if g.state = .severe then 0 else 1 } := by
  rw [throttle]
  cases g with
  | mk _ state =>
    cases state with
    | normal => rfl
    | throttled => rfl
    | severe => simp [BwGovernorState.raise]

lemma reenable_eq (g : BwGovernor) : reenable g = { g with
    state := g.state.lower
    activeThreads := (reenable g).activeThreads
    reenableEvents := g.reenableEvents + if g.state = .normal then 0 else 1 } := by
  rw [reenable]
  cases g with
  | mk _ state =>
    cases state with
    | normal => simp [BwGovernorState.lower]
    | throttled => rfl
    | severe => rfl

lemma ofNat_add_ite (n : Nat) (c : Prop) [Decidable c] :
    UInt64.ofNat n + (if c then 0 else 1) = UInt64.ofNat (n + if c then 0 else 1) := by
  rw [UInt64.ofNat_add]
  split <;> rfl

lemma Follows.throttle (h : Follows g p) : Follows (BwGov.throttle g) p.raise := by
  have hbookkept := h.bookkept.throttle
  rw [throttle_eq] at hbookkept ⊢
  refine ⟨hbookkept, h.maxThreads, h.peak, ?_, h.window, h.transactions, h.windows, ?_, h.lowered⟩
  · exact congrArg BwGovernorState.raise h.state
  · dsimp only [ThreadPolicy.raise]
    rw [h.raised, h.state, ofNat_add_ite]

lemma Follows.reenable (h : Follows g p) : Follows (BwGov.reenable g) p.lower := by
  have hbookkept := h.bookkept.reenable
  rw [reenable_eq] at hbookkept ⊢
  refine ⟨hbookkept, h.maxThreads, h.peak, ?_, h.window, h.transactions, h.windows, h.raised, ?_⟩
  · exact congrArg BwGovernorState.lower h.state
  · dsimp only [ThreadPolicy.lower]
    rw [h.lowered, h.state, ofNat_add_ite]

lemma Follows.processWindow (h : Follows g p) :
    Follows (bwGovernorProcessWindow g) p.processWindow := by
  have hmeasured : Follows (measure g) { p with windows := p.windows + 1 } := by
    refine ⟨h.bookkept.of_same rfl rfl rfl rfl rfl rfl, h.maxThreads, h.peak, h.state, h.window,
      h.transactions, ?_, h.raised, h.lowered⟩
    exact (congrArg (· + 1) h.windows).trans (UInt64.ofNat_add ..).symm
  have hwindow : g.transactionsThisWindow.toNat = p.window % UInt64.size := by
    rw [h.window]
    exact UInt64.toNat_ofNat'
  have hempty {g' : BwGovernor} {p' : ThreadPolicy} (h' : Follows g' p') :
      Follows { g' with transactionsThisWindow := 0 } { p' with window := 0 } :=
    ⟨h'.bookkept.of_same rfl rfl rfl rfl rfl rfl, h'.maxThreads, h'.peak, h'.state, rfl,
      h'.transactions, h'.windows, h'.raised, h'.lowered⟩
  rw [bwGovernorProcessWindow, govern_eq h.peak, hwindow, ThreadPolicy.processWindow]
  split_ifs
  · exact hempty hmeasured.throttle
  · exact hempty hmeasured.reenable
  · exact hempty hmeasured

/-! ## Runs of calls -/

lemma follows_init (allocated : Bool) (maxThreads : UInt32) : Option.Rel Follows
    (bwGovernorInit allocated maxThreads bwPeakGbs).1 (policyInit allocated maxThreads) := by
  have hpeak : (if bwPeakGbs > 0.0 then bwPeakGbs else bwPeakGbs) = bwPeakGbs := ite_self _
  cases allocated with
  | false => exact .none
  | true =>
    refine .some ⟨?_, rfl, hpeak, rfl, rfl, rfl, rfl, rfl, rfl⟩
    rw [UInt32.ofNat_toNat]
    exact bookkept_init true maxThreads bwPeakGbs rfl

/-- A call is answered as the policy answers it. -/
lemma perform_coupled (call : GovernorCall) : Coupled (Option.Rel Follows)
    (Prog.call (perform · call)) (Prog.call (policyPerform · call)) := by
  refine .call fun gBwGov policy h => ?_
  cases h with
  | none =>
    cases call with
    | _ => exact ⟨rfl, .none⟩
  | @some g p h =>
    have hready := h.bookkept.initialized
    cases call with
    | bwGovernorRegisterTransaction count =>
      refine ⟨rfl, ?_⟩
      rw [perform, call, Option.map_some, if_neg (not_not_intro hready)]
      exact .some (h.register count)
    | bwGovernorV71RegisterDboPrefetch requests hits =>
      refine ⟨rfl, ?_⟩
      rw [perform, call, Option.map_some, if_neg (not_not_intro hready)]
      exact .some ⟨h.bookkept.of_same rfl rfl rfl rfl rfl rfl, h.maxThreads, h.peak, h.state, h.window,
        h.transactions, h.windows, h.raised, h.lowered⟩
    | bwGovernorProcessWindow =>
      refine ⟨rfl, ?_⟩
      rw [perform, call, Option.map_some, if_neg (not_not_intro hready)]
      exact .some h.processWindow
    | bwGovernorGetActiveThreads =>
      refine ⟨?_, .some h⟩
      rw [perform, bwGovernorGetActiveThreads]
      dsimp only
      rw [if_neg (not_not_intro hready), h.threads]
      rfl
    | bwGovernorV71GetEffectiveThreads =>
      have hagree := @getters_agree (UInt32.ofNat p.maxThreads) (some g)
        fun g' hg => Option.some.inj hg ▸ h.bookkept
      refine ⟨?_, .some h⟩
      rw [perform, hagree, bwGovernorGetActiveThreads]
      dsimp only
      rw [if_neg (not_not_intro hready), h.threads]
      rfl
    | bwGovernorGetState => exact ⟨congrArg GovernorAnswer.state h.state, .some h⟩
    | bwGovernorPrintStats =>
      refine ⟨?_, .some h⟩
      dsimp only [perform, policyPerform]
      rw [h.transactions, h.windows, h.threads, h.state, h.raised, h.lowered, ← h.maxThreads,
        UInt32.ofNat_toNat]

/-- With the peak of 64 GB/s any run of calls is answered as a policy that counts transactions answers
it, whether the governor could be allocated or not. -/
theorem governor_refines (allocated : Bool) (maxThreads : UInt32) (calls : List GovernorCall) :
    (execAll (bwGovernorInit allocated maxThreads bwPeakGbs).1
      (calls.map fun call => Prog.call (perform · call))).1 =
    (execAll (policyInit allocated maxThreads)
      (calls.map fun call => Prog.call (policyPerform · call))).1 :=
  (Coupled.execAll perform_coupled calls (follows_init allocated maxThreads)).1

end Bemi.BwGov
