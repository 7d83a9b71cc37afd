import Bemi.Efi
import Bemi.Lib.Run
import Bemi.Lib.Since
import Bemi.Smm.Smrr
import Mathlib.Data.List.Basic

/-!
# The latency budget of the SMIs

The rest of `hwcompat/smm/smmhandler.c`: an SMI saves its state, restores it when it is done and books
how long it took, in microseconds of a 2.5 GHz clock. `Measured` says of a list of calls which SMIs it
measures. The handler validates exactly if each of them took no more than the budget
(`smm_accounted`).
-/

namespace Bemi.Smm
open Transition History

/-! ## The handler -/

def smmLatencyBudgetUs : UInt64 := 100

/-- `BEMI_SMM_STATE` with the fields that an SMI sets. -/
structure SmmSaved extends SmmState where
  savedTraceCacheEntries : UInt64
  saveTimestamp : UInt64
  restoreTimestamp : UInt64
  deriving DecidableEq

structure SmmModule where
  gSmmState : SmmSaved
  gSmmStats : SmmStatistics
  gSmmActive : Bool
  deriving DecidableEq

/-- The variables before any call. -/
def SmmModule.zero : SmmModule where
  gSmmState := ⟨⟨0, 0, 0, false⟩, 0, 0, 0⟩
  gSmmStats := ⟨0, 0, 0, 0, 0, 0, false⟩
  gSmmActive := false

/-- `SmmHandlerInit`, which leaves `gSmmActive` as it is. -/
def SmmModule.init (m : SmmModule) (traceCacheBase traceCacheSize : UInt64) : SmmModule where
  gSmmState :=
    { toSmmState := (smmHandlerInit traceCacheBase traceCacheSize).1
      savedTraceCacheEntries := 0
      saveTimestamp := 0
      restoreTimestamp := 0 }
  gSmmStats := (smmHandlerInit traceCacheBase traceCacheSize).2
  gSmmActive := m.gSmmActive

def smmHandlerSaveState (m : SmmModule) (tsc : UInt64) : SmmModule where
  gSmmState :=
    { m.gSmmState with
      savedTraceCacheEntries :=
        if m.gSmmState.traceCacheBase ≠ 0 then 1024 else m.gSmmState.savedTraceCacheEntries
      saveTimestamp := tsc }
  gSmmStats := { m.gSmmStats with totalSmiCount := m.gSmmStats.totalSmiCount + 1 }
  gSmmActive := true

def SmmStatistics.account (s : SmmStatistics) (elapsedUs : UInt64) : SmmStatistics :=
  let s := if elapsedUs > s.maxLatencyUs then { s with maxLatencyUs := elapsedUs } else s
  if elapsedUs > smmLatencyBudgetUs then { s with budgetViolations := s.budgetViolations + 1 } else s

/-- `none` is a division by zero. -/
def smmHandlerRestoreState (m : SmmModule) (tsc : UInt64) : Option SmmModule :=
  let ticks := tsc - m.gSmmState.saveTimestamp
  let ticksPerUs := m.gSmmStats.tscFrequency / 1000000
  if ticksPerUs = 0 then none
  else
    some
      { gSmmState := { m.gSmmState with restoreTimestamp := tsc }
        gSmmStats := m.gSmmStats.account (ticks / ticksPerUs)
        gSmmActive := false }

/-- The statuses of `SmmHandlerValidate`. -/
inductive ValidateStatus where
  | success
  | timeout
  deriving DecidableEq, Repr

def smmHandlerValidate (m : SmmModule) : ValidateStatus :=
  if m.gSmmStats.budgetViolations > 0 then .timeout else .success

def smmHandlerRegisterSmramRegion (base size : UInt64) : EfiStatus :=
  if base = 0 ∨ size = 0 then .invalidParameter else .success

def smmHandlerConfigureCpu (_cpuIndex : UInt32) (smBase : UInt64) : EfiStatus :=
  if smBase = 0 then .invalidParameter else .success

inductive SmmCall where
  | init (traceCacheBase traceCacheSize : UInt64)
  | saveState (tsc : UInt64)
  | restoreState (tsc : UInt64)
  | restoreTraceCache
  | validate
  | registerSmramRegion (base size : UInt64)
  | configureCpu (cpuIndex : UInt32) (smBase : UInt64)
  | getStats
  deriving DecidableEq, Repr

inductive SmmAnswer where
  | status (status : EfiStatus)
  | validated (status : ValidateStatus)
  | stats (totalSmiCount maxLatencyUs budgetViolations : UInt64)

def SmmModule.perform (m : SmmModule) : SmmCall → Option (SmmAnswer × SmmModule)
  | .init traceCacheBase traceCacheSize =>
    some (.status .success, m.init traceCacheBase traceCacheSize)
  | .saveState tsc => some (.status .success, smmHandlerSaveState m tsc)
  | .restoreState tsc => (smmHandlerRestoreState m tsc).map fun m => (.status .success, m)
  | .restoreTraceCache => some (.status .success, m)
  | .validate => some (.validated (smmHandlerValidate m), m)
  | .registerSmramRegion base size => some (.status (smmHandlerRegisterSmramRegion base size), m)
  | .configureCpu cpuIndex smBase => some (.status (smmHandlerConfigureCpu cpuIndex smBase), m)
  | .getStats =>
    some (.stats m.gSmmStats.totalSmiCount m.gSmmStats.maxLatencyUs m.gSmmStats.budgetViolations, m)

def SmmStep (m : SmmModule) (call : SmmCall) (answer : SmmAnswer) (m' : SmmModule) : Prop :=
  m.perform call = some (answer, m')

abbrev SmmEvent := Event SmmModule SmmCall SmmAnswer

/-! ## What the calls measure -/

def SmmCall.isInit : SmmCall → Bool
  | .init _ _ => true
  | _ => false

def SmmCall.isSave : SmmCall → Bool
  | .saveState _ => true
  | _ => false

def SmmCall.isRestore : SmmCall → Bool
  | .restoreState _ => true
  | _ => false

/-- The time stamp that a call leaves for a restore; an initialisation clears it. -/
def SmmCall.stamp : SmmCall → Option UInt64
  | .init _ _ => some 0
  | .saveState tsc => some tsc
  | _ => none

/-- The time of the latest save. -/
def savedAt (calls : List SmmCall) : UInt64 := (calls.filterMap SmmCall.stamp).getLast?.getD 0

/-- An SMI that has been saved and restored at these times since the last initialisation. -/
def Measured (calls : List SmmCall) (save restore : UInt64) : Prop :=
  ∃ pre post, calls = pre ++ .restoreState restore :: post ∧ savedAt pre = save ∧
    ∀ call ∈ post, call.isInit = false

/-- How many SMIs have been saved since then. -/
def begun (calls : List SmmCall) : ℕ :=
  (calls.reverse.takeWhile fun call => !call.isInit).countP SmmCall.isSave

/-- The latest SMI has not been restored yet. -/
def InSmi (calls : List SmmCall) : Prop :=
  Since (fun call => call.isSave = true) (fun call => call.isRestore = true) calls

def elapsedUs (save restore : UInt64) : UInt64 := (restore - save) / 2500

/-- The SMIs measured since the last initialisation, and how many have begun. -/
structure Ledger where
  saved : UInt64
  latencies : List UInt64
  smis : ℕ

def Ledger.empty : Ledger := ⟨0, [], 0⟩

def Ledger.book (l : Ledger) : SmmCall → Ledger
  | .init _ _ => .empty
  | .saveState tsc => { l with saved := tsc, smis := l.smis + 1 }
  | .restoreState tsc => { l with latencies := l.latencies ++ [elapsedUs l.saved tsc] }
  | _ => l

def ledger (calls : List SmmCall) : Ledger := calls.foldl .book .empty

lemma ledger_concat (calls : List SmmCall) (call : SmmCall) :
    ledger (calls ++ [call]) = (ledger calls).book call := List.foldl_concat ..

lemma savedAt_concat (calls : List SmmCall) (call : SmmCall) :
    savedAt (calls ++ [call]) = call.stamp.getD (savedAt calls) := by
  rw [savedAt, List.filterMap_append]
  cases hstamp : call.stamp with
  | none =>
    rw [List.filterMap_cons_none hstamp, List.filterMap_nil, List.append_nil]
    rfl
  | some t =>
    rw [List.filterMap_cons_some hstamp, List.filterMap_nil, List.getLast?_concat]
    rfl

lemma inSmi_concat {calls : List SmmCall} {call : SmmCall} :
    InSmi (calls ++ [call]) ↔ call.isSave = true ∨ InSmi calls ∧ ¬ call.isRestore = true :=
  since_concat

lemma not_measured_nil (save restore : UInt64) : ¬ Measured [] save restore := by
  rintro ⟨pre, post, h, -⟩
  simp at h

lemma measured_concat {calls : List SmmCall} {call : SmmCall} {save restore : UInt64} :
    Measured (calls ++ [call]) save restore ↔
      call = .restoreState restore ∧ savedAt calls = save ∨
        call.isInit = false ∧ Measured calls save restore := by
  constructor
  · rintro ⟨pre, post, h, hsaved, hpost⟩
    cases post using List.reverseRecOn with
    | nil =>
      obtain ⟨rfl, hcall⟩ := List.append_inj' h rfl
      exact .inl ⟨List.singleton_inj.mp hcall, hsaved⟩
    | append_singleton post last =>
      rw [← List.cons_append, ← List.append_assoc] at h
      obtain ⟨hcalls, hlast⟩ := List.append_inj' h rfl
      obtain rfl := List.singleton_inj.mp hlast
      exact .inr ⟨hpost call (by simp), pre, post, hcalls, hsaved, fun c hc => hpost c (by simp [hc])⟩
  · rintro (⟨rfl, hsaved⟩ | ⟨hinit, pre, post, rfl, hsaved, hpost⟩)
    · exact ⟨calls, [], rfl, hsaved, nofun⟩
    · refine ⟨pre, post ++ [call], by simp, hsaved, fun c hc => ?_⟩
      rcases List.mem_append.mp hc with hc | hc
      · exact hpost c hc
      · rw [List.mem_singleton.mp hc]
        exact hinit

lemma ledger_saved (calls : List SmmCall) : (ledger calls).saved = savedAt calls := by
  induction calls using List.reverseRecOn with
  | nil => rfl
  | append_singleton calls call ih =>
    rw [ledger_concat, savedAt_concat, ← ih]
    cases call <;> rfl

lemma begun_concat (calls : List SmmCall) (call : SmmCall) :
    begun (calls ++ [call]) =
      if call.isInit then 0 else begun calls + if call.isSave then 1 else 0 := by
  rw [begun, List.reverse_append, List.reverse_singleton, List.singleton_append,
    List.takeWhile_cons]
  cases call.isInit with
  | true => rfl
  | false => exact List.countP_cons

lemma ledger_smis (calls : List SmmCall) : (ledger calls).smis = begun calls := by
  induction calls using List.reverseRecOn with
  | nil => rfl
  | append_singleton calls call ih =>
    rw [ledger_concat, begun_concat, ← ih]
    cases call <;> rfl

lemma latencies_length_le (calls : List SmmCall) :
    (ledger calls).latencies.length ≤ calls.length := by
  induction calls using List.reverseRecOn with
  | nil => exact Nat.le_refl 0
  | append_singleton calls call ih =>
    rw [ledger_concat, List.length_append, List.length_singleton]
    cases call with
    | init => exact Nat.zero_le _
    | restoreState tsc =>
      rw [Ledger.book, List.length_append]
      exact Nat.succ_le_succ ih
    | saveState | restoreTraceCache | validate | registerSmramRegion | configureCpu | getStats =>
      exact Nat.le_succ_of_le ih

/-- The ledger lists what is measured. -/
lemma mem_latencies_iff {calls : List SmmCall} {x : UInt64} :
    x ∈ (ledger calls).latencies ↔
      ∃ save restore, Measured calls save restore ∧ elapsedUs save restore = x := by
  induction calls using List.reverseRecOn with
  | nil =>
    refine iff_of_false nofun ?_
    rintro ⟨save, restore, h, -⟩
    exact not_measured_nil save restore h
  | append_singleton calls call ih =>
    rw [ledger_concat]
    simp only [measured_concat]
    cases call with
    | init =>
      refine iff_of_false nofun ?_
      rintro ⟨_, _, ⟨hcall, -⟩ | ⟨hinit, -⟩, -⟩
      · cases hcall
      · cases hinit
    | restoreState tsc =>
      rw [Ledger.book, List.mem_append, ih, List.mem_singleton, ledger_saved]
      constructor
      · rintro (⟨save, restore, h, hx⟩ | rfl)
        · exact ⟨save, restore, .inr ⟨rfl, h⟩, hx⟩
        · exact ⟨_, tsc, .inl ⟨rfl, rfl⟩, rfl⟩
      · rintro ⟨save, restore, ⟨hcall, rfl⟩ | ⟨-, h⟩, rfl⟩
        · cases hcall
          exact .inr rfl
        · exact .inl ⟨save, restore, h, rfl⟩
    | saveState | restoreTraceCache | validate | registerSmramRegion | configureCpu | getStats =>
      refine ih.trans ?_
      simp [SmmCall.isInit]

/-! ## The handler keeps the ledger -/

/-- The statistics of a list of latencies. -/
structure Books (latencies : List UInt64) (s : SmmStatistics) : Prop where
  le_max : ∀ x ∈ latencies, x ≤ s.maxLatencyUs
  max_mem : s.maxLatencyUs = 0 ∨ s.maxLatencyUs ∈ latencies
  violations : s.budgetViolations =
    UInt64.ofNat (latencies.countP fun x => decide (x > smmLatencyBudgetUs))

lemma account_frame (s : SmmStatistics) (x : UInt64) :
    (s.account x).totalSmiCount = s.totalSmiCount ∧
      (s.account x).tscFrequency = s.tscFrequency := by
  rw [SmmStatistics.account]
  split <;> split <;> exact ⟨rfl, rfl⟩

lemma account_max (s : SmmStatistics) (x : UInt64) :
    (s.account x).maxLatencyUs = if x > s.maxLatencyUs then x else s.maxLatencyUs := by
  rw [SmmStatistics.account]
  split <;> split <;> rfl

lemma account_violations (s : SmmStatistics) (x : UInt64) :
    (s.account x).budgetViolations =
      s.budgetViolations + if x > smmLatencyBudgetUs then 1 else 0 := by
  rw [SmmStatistics.account]
  split <;> split <;> simp

lemma Books.account {latencies : List UInt64} {s : SmmStatistics} (h : Books latencies s)
    (x : UInt64) : Books (latencies ++ [x]) (s.account x) := by
  refine ⟨fun y hy => ?_, ?_, ?_⟩
  · rw [account_max]
    obtain hy | hy := List.mem_append.mp hy
    · have hle := h.le_max y hy
      split
      next hgt => exact UInt64.le_of_lt (UInt64.lt_of_le_of_lt hle hgt)
      next => exact hle
    · rw [List.mem_singleton.mp hy]
      split
      next => exact UInt64.le_refl x
      next hle => exact UInt64.not_lt.mp hle
  · rw [account_max]
    split
    next => exact .inr (List.mem_append_right _ (List.mem_singleton_self x))
    next => exact h.max_mem.imp_right (List.mem_append_left _)
  · rw [account_violations, h.violations, List.countP_append, List.countP_singleton,
      UInt64.ofNat_add]
    by_cases hx : x > smmLatencyBudgetUs
    · rw [if_pos hx, if_pos (decide_eq_true hx)]
      rfl
    · rw [if_neg hx, if_neg (by simpa using hx)]
      rfl

/-- The variables after the calls. -/
structure Keeps (calls : List SmmCall) (m : SmmModule) : Prop where
  saved : m.gSmmState.saveTimestamp = (ledger calls).saved
  smis : m.gSmmStats.totalSmiCount = UInt64.ofNat (ledger calls).smis
  books : Books (ledger calls).latencies m.gSmmStats
  frequency : m.gSmmStats.tscFrequency = if calls.any SmmCall.isInit then 2500000000 else 0
  active : m.gSmmActive = true ↔ InSmi calls

lemma any_concat (calls : List SmmCall) (call : SmmCall) :
    (calls ++ [call]).any SmmCall.isInit = (calls.any SmmCall.isInit || call.isInit) := by
  rw [List.any_append, List.any_cons, List.any_nil, Bool.or_false]

lemma init_stats (traceCacheBase traceCacheSize : UInt64) :
    (smmHandlerInit traceCacheBase traceCacheSize).2.tscFrequency = 2500000000 ∧
      (smmHandlerInit traceCacheBase traceCacheSize).2.maxLatencyUs = 0 ∧
        (smmHandlerInit traceCacheBase traceCacheSize).2.totalSmiCount = 0 ∧
          (smmHandlerInit traceCacheBase traceCacheSize).2.budgetViolations = 0 := by
  rw [smmHandlerInit]
  split <;> exact ⟨rfl, rfl, rfl, rfl⟩

variable {calls : List SmmCall} {m m' : SmmModule} {call : SmmCall} {answer : SmmAnswer}

lemma restoreState_zero (h : m.gSmmStats.tscFrequency = 0) (tsc : UInt64) :
    smmHandlerRestoreState m tsc = none := by
  rw [smmHandlerRestoreState, h]
  rfl

lemma restoreState_eq (h : m.gSmmStats.tscFrequency = 2500000000) (tsc : UInt64) :
    smmHandlerRestoreState m tsc = some
      { gSmmState := { m.gSmmState with restoreTimestamp := tsc }
        gSmmStats := m.gSmmStats.account (elapsedUs m.gSmmState.saveTimestamp tsc)
        gSmmActive := false } := by
  rw [smmHandlerRestoreState, h, elapsedUs]
  exact if_neg (by decide)

lemma keeps_zero : Keeps [] .zero :=
  ⟨rfl, rfl, ⟨nofun, .inl rfl, rfl⟩, rfl, iff_of_false nofun not_since_nil⟩

lemma Keeps.init (h : Keeps calls m) (traceCacheBase traceCacheSize : UInt64) :
    Keeps (calls ++ [.init traceCacheBase traceCacheSize])
      (m.init traceCacheBase traceCacheSize) := by
  obtain ⟨hfrequency, hmax, htotal, hviolations⟩ := init_stats traceCacheBase traceCacheSize
  refine ⟨?_, ?_, ?_, ?_, ?_⟩
  · rw [ledger_concat]
    rfl
  · rw [ledger_concat]
    exact htotal
  · rw [ledger_concat]
    exact ⟨nofun, .inl hmax, hviolations⟩
  · rw [any_concat, SmmCall.isInit, Bool.or_true]
    exact hfrequency
  · rw [inSmi_concat, ← h.active]
    simp [SmmModule.init, SmmCall.isSave, SmmCall.isRestore]

lemma Keeps.saveState (h : Keeps calls m) (tsc : UInt64) :
    Keeps (calls ++ [.saveState tsc]) (smmHandlerSaveState m tsc) := by
  refine ⟨?_, ?_, ?_, ?_, ?_⟩
  · rw [ledger_concat]
    rfl
  · rw [ledger_concat, Ledger.book, UInt64.ofNat_add, ← h.smis]
    rfl
  · rw [ledger_concat]
    exact ⟨h.books.le_max, h.books.max_mem, h.books.violations⟩
  · rw [any_concat, show (SmmCall.saveState tsc).isInit = false from rfl, Bool.or_false]
    exact h.frequency
  · rw [inSmi_concat]
    exact iff_of_true rfl (.inl rfl)

lemma Keeps.restoreState (h : Keeps calls m) {tsc : UInt64}
    (hrestore : smmHandlerRestoreState m tsc = some m') :
    Keeps (calls ++ [.restoreState tsc]) m' := by
  have hfrequency := h.frequency
  split at hfrequency
  next hinit =>
    rw [restoreState_eq hfrequency] at hrestore
    cases hrestore
    obtain ⟨htotal, hclock⟩ :=
      account_frame m.gSmmStats (elapsedUs m.gSmmState.saveTimestamp tsc)
    refine ⟨?_, ?_, ?_, ?_, ?_⟩
    · rw [ledger_concat]
      exact h.saved
    · rw [ledger_concat, htotal]
      exact h.smis
    · rw [ledger_concat, Ledger.book, ← h.saved]
      exact h.books.account _
    · rw [any_concat, hinit, hclock]
      exact hfrequency
    · rw [inSmi_concat]
      simp [SmmCall.isSave, SmmCall.isRestore]
  next =>
    rw [restoreState_zero hfrequency] at hrestore
    cases hrestore

/-- The other calls change nothing. -/
lemma Keeps.other (h : Keeps calls m) (hbook : (ledger calls).book call = ledger calls)
    (hinit : call.isInit = false) (hsave : call.isSave = false) (hrestore : call.isRestore = false) :
    Keeps (calls ++ [call]) m := by
  refine ⟨?_, ?_, ?_, ?_, ?_⟩
  · rw [ledger_concat, hbook]
    exact h.saved
  · rw [ledger_concat, hbook]
    exact h.smis
  · rw [ledger_concat, hbook]
    exact h.books
  · rw [any_concat, hinit, Bool.or_false]
    exact h.frequency
  · rw [inSmi_concat, hsave, hrestore, h.active]
    simp

lemma Keeps.step (h : Keeps calls m) (st : SmmStep m call answer m') :
    Keeps (calls ++ [call]) m' := by
  rw [SmmStep] at st
  cases call with
  | init traceCacheBase traceCacheSize =>
    cases st
    exact h.init traceCacheBase traceCacheSize
  | saveState tsc =>
    cases st
    exact h.saveState tsc
  | restoreState tsc =>
    obtain ⟨m₁, hrestore, heq⟩ := Option.map_eq_some_iff.mp st
    cases heq
    exact h.restoreState hrestore
  | restoreTraceCache | validate | registerSmramRegion | configureCpu | getStats =>
    cases st
    exact h.other rfl rfl rfl rfl

/-! ## Runs -/

/-- What the handler knows of the SMIs since the last initialisation, and which calls it answers. -/
structure Accounted (calls : List SmmCall) (m : SmmModule) : Prop where
  smis : m.gSmmStats.totalSmiCount = UInt64.ofNat (begun calls)
  le_max : ∀ save restore, Measured calls save restore →
    elapsedUs save restore ≤ m.gSmmStats.maxLatencyUs
  max_measured : m.gSmmStats.maxLatencyUs = 0 ∨
    ∃ save restore, Measured calls save restore ∧
      elapsedUs save restore = m.gSmmStats.maxLatencyUs
  validates : calls.length < 2 ^ 64 → (smmHandlerValidate m = .success ↔
    ∀ save restore, Measured calls save restore → restore - save < 252500)
  active : m.gSmmActive = true ↔ InSmi calls
  answers : ∀ call, (m.perform call).isSome = true ↔
    (call.isRestore = true → ∃ c ∈ calls, c.isInit = true)

lemma validate_eq_success : smmHandlerValidate m = .success ↔ m.gSmmStats.budgetViolations = 0 := by
  rw [smmHandlerValidate]
  split
  next hpos => exact iff_of_false nofun (UInt64.pos_iff_ne_zero.mp hpos)
  next hzero => exact iff_of_true rfl (not_not.mp (mt UInt64.pos_iff_ne_zero.mpr hzero))

/-- A whole number of microseconds is over the budget from 101 on. -/
lemma elapsedUs_le_iff (save restore : UInt64) :
    ¬ elapsedUs save restore > smmLatencyBudgetUs ↔ restore - save < 252500 := by
  rw [gt_iff_lt, UInt64.lt_iff_toNat_lt, UInt64.lt_iff_toNat_lt, elapsedUs, UInt64.toNat_div]
  change ¬ 100 < (restore - save).toNat / 2500 ↔ (restore - save).toNat < 252500
  omega

/-- The number of violations cannot wrap to zero in a run that is short enough. -/
lemma Keeps.validates (h : Keeps calls m) (hlength : calls.length < 2 ^ 64) :
    smmHandlerValidate m = .success ↔
      ∀ save restore, Measured calls save restore → restore - save < 252500 := by
  have hcount : (ledger calls).latencies.countP (fun x => decide (x > smmLatencyBudgetUs)) < 2 ^ 64 :=
    Nat.lt_of_le_of_lt (List.countP_le_length.trans (latencies_length_le calls)) hlength
  rw [validate_eq_success, h.books.violations, ← UInt64.toNat_inj,
    UInt64.toNat_ofNat_of_lt' hcount]
  refine List.countP_eq_zero.trans ⟨fun hnone save restore hmeasured => ?_, fun hall x hx => ?_⟩
  · have hx := hnone _ (mem_latencies_iff.mpr ⟨save, restore, hmeasured, rfl⟩)
    exact (elapsedUs_le_iff save restore).mp fun hover => hx (decide_eq_true hover)
  · obtain ⟨save, restore, hmeasured, rfl⟩ := mem_latencies_iff.mp hx
    have hle := (elapsedUs_le_iff save restore).mpr (hall save restore hmeasured)
    exact fun hover => hle (of_decide_eq_true hover)

/-- Only a restore needs the frequency, which an initialisation sets. -/
lemma Keeps.answers (h : Keeps calls m) (call : SmmCall) : (m.perform call).isSome = true ↔
    (call.isRestore = true → ∃ c ∈ calls, c.isInit = true) := by
  cases call with
  | restoreState tsc =>
    have hfrequency := h.frequency
    rw [SmmModule.perform, Option.isSome_map, ← List.any_eq_true]
    split at hfrequency
    next hinit =>
      rw [restoreState_eq hfrequency]
      exact iff_of_true rfl fun _ => hinit
    next hinit =>
      rw [restoreState_zero hfrequency]
      exact iff_of_false nofun fun hsome => hinit (hsome rfl)
  | init | saveState | restoreTraceCache | validate | registerSmramRegion | configureCpu | getStats =>
    exact iff_of_true rfl nofun

lemma Keeps.accounted (h : Keeps calls m) : Accounted calls m where
  smis := ledger_smis calls ▸ h.smis
  le_max save restore hmeasured :=
    h.books.le_max _ (mem_latencies_iff.mpr ⟨save, restore, hmeasured, rfl⟩)
  max_measured := h.books.max_mem.imp_right mem_latencies_iff.mp
  validates := h.validates
  active := h.active
  answers := h.answers

/-- In every run the handler counts the SMIs begun since the last initialisation, and the longest one
measured since is its maximum; it validates if and only if none of them took 101 microseconds; and
the only call that it does not answer is a restore before the first initialisation. -/
theorem smm_accounted {tr : List SmmEvent} (run : Run SmmStep .zero tr m) :
    Accounted (tr.map Event.op) m := by
  refine Keeps.accounted (run.history (I := fun tr m => Keeps (tr.map Event.op) m) keeps_zero ?_)
  intro tr m call answer m' h st
  rw [List.map_append]
  exact h.step st

/-- An SMI of 100 microseconds, and one of 101. -/
theorem smm_accounted_twice : ∃ (tr : List SmmEvent) (m : SmmModule), Run SmmStep .zero tr m ∧
    tr.length = 5 ∧ Accounted (tr.map Event.op) m ∧ m.gSmmStats.maxLatencyUs = 101 ∧
      smmHandlerValidate m = .timeout := by
  have hrun := @Run.nil _ _ _ SmmStep .zero
    |>.snoc (show SmmStep _ (.init 0x7E400000 0x400000) _ _ from rfl)
    |>.snoc (show SmmStep _ (.saveState 1000) _ _ from rfl)
    |>.snoc (show SmmStep _ (.restoreState 251000) _ _ from rfl)
    |>.snoc (show SmmStep _ (.saveState 300000) _ _ from rfl)
    |>.snoc (show SmmStep _ (.restoreState 552500) _ _ from rfl)
  exact ⟨_, _, hrun, rfl, smm_accounted hrun, by decide, by decide⟩

end Bemi.Smm
