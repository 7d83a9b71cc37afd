import Bemi.Lib.Coupled
import Bemi.Tage.Prefill

/-!
# Branches on their own

Branches take entries from each other. Those that do not meet in table 0 or in the branch target
buffer, and are told apart by their tags where they meet elsewhere, do not: after a prefill every
branch is predicted by a counter of its own, whatever the others do, and the statistics are about the
counters. `predictor_refines` compares the predictor with these counters.
-/

namespace Bemi.Tage
open TagePredictor Program Prog Coupling

/-- Two branches that do not take each other's place. -/
structure Apart (a b : UInt64) : Prop where
  index : tageIndex a 0 ≠ tageIndex b 0
  tag : ∀ t, tageIndex a t = tageIndex b t → tageTag a t ≠ tageTag b t
  btb : btbIndex a ≠ btbIndex b

/-! ## Calls of the predictor -/

/-- Calls about some branches. -/
inductive TageCall (branches : List UInt64) where
  | tagePredict (rip : { a // a ∈ branches }) (target : Option UInt64)
  | tageUpdate (rip : { a // a ∈ branches }) (taken : Bool) (target : UInt64)
  | tageGetStats

inductive TageAnswer where
  | prediction (taken : Bool) (target : Option UInt64)
  | done
  | stats (predictions correct mispredictions : UInt64)

variable {branches : List UInt64}

def TagePredictor.perform (p : TagePredictor) : TageCall branches → TageAnswer × TagePredictor
  | .tagePredict rip target =>
    let (taken, target) := Tage.tagePredict p rip target
    (.prediction taken target, p)
  | .tageUpdate rip taken target => (.done, Tage.tageUpdate p rip taken target)
  | .tageGetStats => (.stats p.gTagePredictions p.gTageCorrect p.gTageMispredictions, p)

/-! ## Counters -/

/-- The counter of a branch, and its target. -/
structure Branch where
  taken : Bool
  useful : Nat
  target : UInt64

/-- The counter goes one step towards the outcome, and turns when it cannot go further down. -/
def Branch.train (b : Branch) (taken : Bool) (target : UInt64) : Branch :=
  if b.taken = taken then ⟨taken, min (b.useful + 1) 7, target⟩
  else if 0 < b.useful then ⟨b.taken, b.useful - 1, target⟩
  else ⟨taken, 0, target⟩

/-- The branches that were recorded, and what is counted: an update of a branch that was not recorded
before is neither correct nor a misprediction. -/
structure BranchTable where
  branch : UInt64 → Option Branch
  predictions : Nat
  correct : Nat
  mispredictions : Nat

def BranchTable.empty : BranchTable := ⟨fun _ => none, 0, 0, 0⟩

def BranchTable.predict (b : BranchTable) (rip : UInt64) (target : Option UInt64) :
    Bool × Option UInt64 :=
  match b.branch rip with
  | some r => (r.taken, target.map fun _ => r.target)
  | none => (false, target.map fun _ => rip + 4)

def BranchTable.record (b : BranchTable) (rip : UInt64) (r : Branch) : BranchTable :=
  { b with branch := Function.update b.branch rip (some r) }

def BranchTable.update (b : BranchTable) (rip : UInt64) (taken : Bool) (target : UInt64) :
    BranchTable :=
  let b := { b with predictions := b.predictions + 1 }
  match b.branch rip with
  | some r =>
    let b := b.record rip (r.train taken target)
    if r.taken = taken then { b with correct := b.correct + 1 }
    else { b with mispredictions := b.mispredictions + 1 }
  | none => b.record rip ⟨taken, 0, target⟩

/-- A branch is prefilled as taken if it goes forward, and it takes three outcomes to turn it. -/
def BranchTable.prefill (b : BranchTable) (kernelBase : UInt64) (branchTargets : Nat → UInt64)
    (branchCount : UInt32) : BranchTable :=
  (List.range branchCount.toNat).foldl (fun b i =>
    b.record (branchRip kernelBase i) ⟨forward kernelBase branchTargets i, 2, branchTargets i⟩) b

def BranchTable.perform (b : BranchTable) : TageCall branches → TageAnswer × BranchTable
  | .tagePredict rip target =>
    let (taken, target) := b.predict rip target
    (.prediction taken target, b)
  | .tageUpdate rip taken target => (.done, b.update rip taken target)
  | .tageGetStats =>
    (.stats (UInt64.ofNat b.predictions) (UInt64.ofNat b.correct) (UInt64.ofNat b.mispredictions), b)

/-! ## The entries of one branch -/

/-- The predictor has nothing about the branch, and room for it in table 0. -/
structure Blank (p : TagePredictor) (a : UInt64) : Prop where
  hits : ∀ t, p.hits a t = false
  room : (p.entry a 0).valid = false
  btb : ∀ target, ¬ Btb.Holds p.gBtb a target

def Shows (e : TageEntry) (r : Branch) : Prop := e.taken = r.taken ∧ e.useful.toNat = r.useful

/-- The entry that predicts the branch shows its counter, and the target buffer its target. -/
structure Keeps (p : TagePredictor) (a : UInt64) (r : Branch) : Prop where
  shows : ∃ t, p.predictingTable a = some t ∧ Shows (p.entry a t) r
  btb : Btb.Holds p.gBtb a r.target

/-- As a prefill leaves it: any entry of the branch shows the counter. -/
structure Prefilled (p : TagePredictor) (a : UInt64) (r : Branch) : Prop where
  hits : p.hits a 0 = true
  shows : ∀ t, p.hits a t = true → Shows (p.entry a t) r
  btb : Btb.Holds p.gBtb a r.target

variable {p p' : TagePredictor} {a b : UInt64} {r : Branch} {e : TageEntry} {t : Table}

lemma Prefilled.keeps (h : Prefilled p a r) : Keeps p a r := by
  cases htable : p.predictingTable a with
  | none =>
    rw [predictingTable, List.find?_eq_none] at htable
    exact absurd h.hits (htable 0 (mem_tablesDown 0))
  | some t => exact ⟨⟨t, htable, h.shows t (List.find?_some htable)⟩, h.btb⟩

lemma Blank.predictingTable (h : Blank p a) : p.predictingTable a = none := by
  rw [TagePredictor.predictingTable, List.find?_eq_none]
  intro t _
  rw [h.hits t]
  exact Bool.false_ne_true

lemma holds_iff_btbHits (p : TagePredictor) (a target : UInt64) : Btb.Holds p.gBtb a target ↔
    p.btbHits a = true ∧ (p.gBtb (btbIndex a)).targetAddress = target := by
  rw [Btb.Holds, btbHits, Bool.and_eq_true, beq_iff_eq, and_assoc]

lemma Blank.predict (h : Blank p a) (target : Option UInt64) :
    tagePredict p a target = (false, target.map fun _ => a + 4) := by
  have hmiss : ¬ p.btbHits a = true := fun hhit =>
    h.btb _ ((holds_iff_btbHits p a _).mpr ⟨hhit, rfl⟩)
  rw [tagePredict, h.predictingTable]
  exact if_neg hmiss

lemma Keeps.predict (h : Keeps p a r) (target : Option UInt64) :
    tagePredict p a target = (r.taken, target.map fun _ => r.target) := by
  obtain ⟨t, htable, hshows⟩ := h.shows
  obtain ⟨hhit, htarget⟩ := (holds_iff_btbHits p a _).mp h.btb
  rw [tagePredict, htable, btbTarget, if_pos hhit, htarget, ← hshows.1]

/-! ## Branches apart -/

lemma Apart.symm (h : Apart a b) : Apart b a :=
  ⟨h.index.symm, fun t ht => (h.tag t ht.symm).symm, h.btb.symm⟩

/-- What the tables have about a branch stays as it is. -/
structure Untouched (p p' : TagePredictor) (a : UInt64) : Prop where
  hits : ∀ t, p'.hits a t = p.hits a t
  entry : ∀ t, p.hits a t = true → p'.entry a t = p.entry a t
  room : (p'.entry a 0).valid = (p.entry a 0).valid

lemma Untouched.congr {q : TagePredictor} (h : Untouched p p' a)
    (htables : q.gTageTables = p'.gTageTables) : Untouched p q a := by
  obtain ⟨-, hentry⟩ := predictingTable_congr htables a
  refine ⟨fun t => ?_, fun t ht => ?_, ?_⟩
  · rw [← h.hits, TagePredictor.hits, TagePredictor.hits, hentry]
  · rw [hentry, h.entry t ht]
  · rw [hentry, h.room]

/-- Writing an entry of a branch over its own, or in table 0, leaves the branches apart from it. -/
lemma untouched_setEntry (h : Apart b a) (htag : e.tag = tageTag b t)
    (hown : p.hits b t = true ∨ t = 0) : Untouched p (p.setEntry b t e) a := by
  have hsame (t' : Table) : (p.setEntry b t e).entry a t' = p.entry a t' ∨
      p.hits a t' = false ∧ (p.setEntry b t e).hits a t' = false ∧ t' ≠ 0 := by
    by_cases hslot : t' = t ∧ tageIndex a t' = tageIndex b t
    · obtain ⟨rfl, hindex⟩ := hslot
      have hother := h.tag t' hindex.symm
      have hne : t' ≠ 0 := by
        rintro rfl
        exact h.index hindex.symm
      have hnew : (p.setEntry b t' e).entry a t' = e :=
        (gTageTables_setEntry ..).trans (if_pos ⟨rfl, hindex⟩)
      have hold : p.entry a t' = p.entry b t' := by rw [entry, entry, hindex]
      have hhit := hown.resolve_right hne
      rw [TagePredictor.hits, Bool.and_eq_true, beq_iff_eq] at hhit
      refine .inr ⟨?_, ?_, hne⟩
      · rw [TagePredictor.hits, hold, hhit.2, beq_false_of_ne hother, Bool.and_false]
      · rw [TagePredictor.hits, hnew, htag, beq_false_of_ne hother, Bool.and_false]
    · exact .inl ((gTageTables_setEntry ..).trans (if_neg hslot))
  refine ⟨fun t' => ?_, fun t' ht' => ?_, ?_⟩
  · cases hsame t' with
    | inl heq => rw [TagePredictor.hits, TagePredictor.hits, heq]
    | inr hmiss => rw [hmiss.1, hmiss.2.1]
  · cases hsame t' with
    | inl heq => exact heq
    | inr hmiss =>
      rw [hmiss.1] at ht'
      cases ht'
  · cases hsame 0 with
    | inl heq => rw [heq]
    | inr hmiss => exact absurd rfl hmiss.2.2

/-- What the target buffer holds for a branch, too. -/
lemma holds_record_apart (h : Apart b a) (btb : Btb) (target target' : UInt64) :
    (btb.record ⟨b, target⟩).Holds a target' ↔ btb.Holds a target' := by
  have hne : b ≠ a := fun heq => h.btb (congrArg btbIndex heq)
  have hslot := btbIndex_eq_iff.not.mp h.btb
  rw [holds_record]
  simp only [hne, hslot, false_and, false_or, not_false_eq_true, and_true]

lemma Untouched.blank (h : Untouched p p' a) (hbtb : ∀ target, Btb.Holds p'.gBtb a target ↔
    Btb.Holds p.gBtb a target) (hblank : Blank p a) : Blank p' a where
  hits t := (h.hits t).trans (hblank.hits t)
  room := h.room.trans hblank.room
  btb target := (hbtb target).not.mpr (hblank.btb target)

lemma Untouched.keeps (h : Untouched p p' a) (hbtb : ∀ target, Btb.Holds p'.gBtb a target ↔
    Btb.Holds p.gBtb a target) (hkeeps : Keeps p a r) : Keeps p' a r := by
  obtain ⟨t, htable, hshows⟩ := hkeeps.shows
  have htable' : p'.predictingTable a = some t := by
    rw [predictingTable, funext h.hits]
    exact htable
  refine ⟨⟨t, htable', ?_⟩, (hbtb _).mpr hkeeps.btb⟩
  rw [h.entry t (List.find?_some htable)]
  exact hshows

/-! ## An update -/

/-- An update writes an entry of the branch over its own, or in table 0. -/
lemma untouched_update (h : Apart b a) (hroom : p.predictingTable b = none →
    (p.entry b 0).valid = false) (taken : Bool) (target : UInt64) :
    Untouched p (tageUpdate p b taken target) a := by
  cases htable : p.predictingTable b with
  | some t =>
    have hhit : p.hits b t = true := List.find?_some htable
    have htag := hhit
    rw [TagePredictor.hits, Bool.and_eq_true, beq_iff_eq] at htag
    exact (untouched_setEntry h ((train_tag _ taken).1.trans htag.2) (.inl hhit)).congr
      ((gTageTables_update p b taken target).1 t htable)
  | none =>
    have hfree : p.freeTable b = some 0 := by
      rw [freeTable, List.find?_cons_of_pos (by rw [hroom htable]; rfl)]
    have htables := (gTageTables_update p b taken target).2 htable
    rw [allocate, hfree] at htables
    exact (untouched_setEntry h rfl (.inr rfl)).congr htables

/-- The entry of the branch itself is trained as its counter is. -/
lemma shows_train (h : Shows e r) (taken : Bool) (target : UInt64) :
    Shows (e.train taken) (r.train taken target) := by
  obtain ⟨htaken, huseful⟩ := h
  have hlt := e.useful.isLt
  rw [TageEntry.train, Branch.train, htaken, ← huseful]
  by_cases hsame : r.taken = taken
  · rw [if_pos hsame, if_pos hsame]
    split
    next hless =>
      have hless : e.useful.toNat < 7 := hless
      refine ⟨hsame, ?_⟩
      change (e.useful + 1).toNat = min (e.useful.toNat + 1) 7
      rw [BitVec.toNat_add]
      change (e.useful.toNat + 1) % 8 = _
      omega
    next hfull =>
      have hfull : ¬ e.useful.toNat < 7 := hfull
      refine ⟨htaken.trans hsame, ?_⟩
      change e.useful.toNat = min (e.useful.toNat + 1) 7
      omega
  · rw [if_neg hsame, if_neg hsame]
    by_cases hpos : 0 < e.useful.toNat
    · have hgt : e.useful > 0 := hpos
      rw [if_pos hgt, if_pos hpos]
      refine ⟨rfl, ?_⟩
      change (e.useful - 1).toNat = e.useful.toNat - 1
      bv_omega
    · have hle : ¬ e.useful > 0 := hpos
      rw [if_neg hle, if_neg hpos]
      exact ⟨rfl, Nat.eq_zero_of_not_pos hpos⟩

lemma holds_record_self (btb : Btb) (a target : UInt64) :
    (btb.record ⟨a, target⟩).Holds a target :=
  (holds_record btb ⟨a, target⟩ a target).mpr (.inl ⟨rfl, rfl⟩)

lemma Keeps.update (h : Keeps p a r) (taken : Bool) (target : UInt64) :
    Keeps (tageUpdate p a taken target) a (r.train taken target) := by
  obtain ⟨t, htable, hshows⟩ := h.shows
  obtain ⟨hpredicting, hentry⟩ :=
    predictingTable_congr ((gTageTables_update p a taken target).1 t htable) a
  obtain ⟨htag, hvalid⟩ := train_tag (p.entry a t) taken
  have hhits : p.hits a t = true := List.find?_some htable
  rw [TagePredictor.hits, Bool.and_eq_true, beq_iff_eq] at hhits
  refine ⟨⟨t, ?_, ?_⟩, ?_⟩
  · rw [hpredicting]
    exact predictingTable_setEntry (hvalid.trans hhits.1) (htag.trans hhits.2) (.inl htable)
  · rw [hentry, entry_setEntry_self]
    exact shows_train hshows taken target
  · have htarget : (r.train taken target).target = target := by
      rw [Branch.train]
      split_ifs <;> rfl
    rw [gBtb_update, htarget]
    exact holds_record_self ..

lemma Blank.update (h : Blank p a) (taken : Bool) (target : UInt64) :
    Keeps (tageUpdate p a taken target) a ⟨taken, 0, target⟩ := by
  have hfree : p.freeTable a = some 0 := by
    rw [freeTable, List.find?_cons_of_pos (by rw [h.room]; rfl)]
  have htables := (gTageTables_update p a taken target).2 h.predictingTable
  rw [allocate, hfree] at htables
  obtain ⟨hpredicting, hentry⟩ := predictingTable_congr htables a
  refine ⟨⟨0, ?_, ?_⟩, ?_⟩
  · rw [hpredicting]
    exact predictingTable_setEntry rfl rfl (.inr h.predictingTable)
  · rw [hentry, entry_setEntry_self]
    exact ⟨rfl, rfl⟩
  · rw [gBtb_update]
    exact holds_record_self ..

/-! ## What is counted -/

/-- An update with an entry is counted by whether the entry had predicted the outcome. -/
lemma counters_update (p : TagePredictor) (rip : UInt64) (taken : Bool) (target : UInt64) :
    (tageUpdate p rip taken target).gTagePredictions = p.gTagePredictions + 1 ∧
      (∀ t, p.predictingTable rip = some t → (tageUpdate p rip taken target).gTageCorrect =
          (if (p.entry rip t).taken = taken then p.gTageCorrect + 1 else p.gTageCorrect) ∧
        (tageUpdate p rip taken target).gTageMispredictions = if (p.entry rip t).taken = taken
          then p.gTageMispredictions else p.gTageMispredictions + 1) ∧
      (p.predictingTable rip = none → (tageUpdate p rip taken target).gTageCorrect = p.gTageCorrect ∧
        (tageUpdate p rip taken target).gTageMispredictions = p.gTageMispredictions) := by
  have hsame : predictingTable { p with gTagePredictions := p.gTagePredictions + 1 } rip =
    p.predictingTable rip := rfl
  have hentry : TagePredictor.entry { p with gTagePredictions := p.gTagePredictions + 1 } rip =
    p.entry rip := rfl
  refine ⟨?_, fun t ht => ?_, fun hnone => ?_⟩
  · rw [tageUpdate, writeBtb, hsame]
    cases p.predictingTable rip with
    | some t =>
      dsimp only
      rw [train, hentry]
      split <;> rfl
    | none =>
      dsimp only
      rw [allocate]
      split <;> rfl
  · rw [tageUpdate, writeBtb, hsame, ht]
    dsimp only
    rw [train, hentry]
    split
    · exact ⟨rfl, rfl⟩
    · exact ⟨rfl, rfl⟩
  · rw [tageUpdate, writeBtb, hsame, hnone]
    dsimp only
    rw [allocate]
    split
    · exact ⟨rfl, rfl⟩
    · exact ⟨rfl, rfl⟩

/-! ## All branches -/

/-- The predictor has what the table has about each of the branches, and has counted the same. -/
structure Follows (K : TagePredictor → UInt64 → Branch → Prop) (branches : List UInt64)
    (p : TagePredictor) (b : BranchTable) : Prop where
  blank : ∀ a ∈ branches, b.branch a = none → Blank p a
  recorded : ∀ a ∈ branches, ∀ r, b.branch a = some r → K p a r
  predictions : p.gTagePredictions = UInt64.ofNat b.predictions
  correct : p.gTageCorrect = UInt64.ofNat b.correct
  mispredictions : p.gTageMispredictions = UInt64.ofNat b.mispredictions

def AllApart (branches : List UInt64) : Prop := ∀ a ∈ branches, ∀ b ∈ branches, a ≠ b → Apart a b

variable {T : BranchTable}

lemma follows_init (K : TagePredictor → UInt64 → Branch → Prop) (branches : List UInt64) :
    Follows K branches tagePredictorInit .empty where
  blank a _ _ := ⟨fun _ => rfl, rfl, fun _ h => Bool.false_ne_true h.1⟩
  recorded a _ r h := by cases h
  predictions := rfl
  correct := rfl
  mispredictions := rfl

/-- Recording a branch changes that branch only. -/
lemma Follows.record {K : TagePredictor → UInt64 → Branch → Prop} (h : Follows K branches p T)
    (hapart : AllApart branches) {rip : UInt64} (hrip : rip ∈ branches) {r : Branch} (hself : K p' rip r)
    (hblank : ∀ a, Apart rip a → Blank p a → Blank p' a)
    (hothers : ∀ a r, Apart rip a → K p a r → K p' a r) :
    (∀ a ∈ branches, (T.record rip r).branch a = none → Blank p' a) ∧
      ∀ a ∈ branches, ∀ r', (T.record rip r).branch a = some r' → K p' a r' := by
  refine ⟨fun a ha hnone => ?_, fun a ha r' hsome => ?_⟩
  · rw [BranchTable.record] at hnone
    dsimp only at hnone
    by_cases heq : a = rip
    · rw [heq, Function.update_self] at hnone
      cases hnone
    · rw [Function.update_of_ne heq] at hnone
      exact hblank a (hapart rip hrip a ha (Ne.symm heq)) (h.blank a ha hnone)
  · rw [BranchTable.record] at hsome
    dsimp only at hsome
    by_cases heq : a = rip
    · rw [heq, Function.update_self] at hsome
      cases hsome
      rw [heq]
      exact hself
    · rw [Function.update_of_ne heq] at hsome
      exact hothers a r' (hapart rip hrip a ha (Ne.symm heq)) (h.recorded a ha r' hsome)

/-! ## A prefill -/

lemma prefilled_self (p : TagePredictor) (rip target : UInt64) :
    Prefilled (prefillBranch p rip target) rip ⟨decide (target > rip), 2, target⟩ := by
  have hentry (t : Table) := (entry_prefillBranch p rip target rip t).trans (if_pos rfl)
  refine ⟨?_, fun t _ => ?_, ?_⟩
  · rw [TagePredictor.hits, hentry]
    exact beq_self_eq_true _
  · rw [hentry]
    exact ⟨rfl, rfl⟩
  · rw [gBtb_prefillBranch]
    exact holds_record_self ..

/-- A prefilled branch takes entries of the others, but not those in table 0. -/
lemma hits_prefillBranch_apart (h : Apart b a) (p : TagePredictor) (target : UInt64) (t : Table) :
    ((prefillBranch p b target).hits a t = true → p.hits a t = true ∧
        (prefillBranch p b target).entry a t = p.entry a t) ∧
      (prefillBranch p b target).entry a 0 = p.entry a 0 := by
  refine ⟨fun hhit => ?_, (entry_prefillBranch ..).trans (if_neg h.index)⟩
  by_cases hindex : tageIndex b t = tageIndex a t
  · rw [TagePredictor.hits, entry_prefillBranch, if_pos hindex] at hhit
    exact absurd (beq_iff_eq.mp hhit) (h.tag t hindex)
  · have hentry := (entry_prefillBranch p b target a t).trans (if_neg hindex)
    rw [TagePredictor.hits, hentry] at hhit
    exact ⟨hhit, hentry⟩

lemma Blank.prefill (hblank : Blank p a) (h : Apart b a) (target : UInt64) :
    Blank (prefillBranch p b target) a := by
  refine ⟨fun t => ?_, ?_, fun target' => ?_⟩
  · rw [Bool.eq_false_iff]
    intro hhit
    have hold := ((hits_prefillBranch_apart h p target t).1 hhit).1
    rw [hblank.hits t] at hold
    cases hold
  · rw [(hits_prefillBranch_apart h p target 0).2]
    exact hblank.room
  · rw [gBtb_prefillBranch, holds_record_apart h]
    exact hblank.btb target'

lemma Prefilled.prefill (hpre : Prefilled p a r) (h : Apart b a) (target : UInt64) :
    Prefilled (prefillBranch p b target) a r := by
  refine ⟨?_, fun t hhit => ?_, ?_⟩
  · rw [TagePredictor.hits, (hits_prefillBranch_apart h p target 0).2]
    exact hpre.hits
  · obtain ⟨hold, hentry⟩ := (hits_prefillBranch_apart h p target t).1 hhit
    rw [hentry]
    exact hpre.shows t hold
  · rw [gBtb_prefillBranch, holds_record_apart h]
    exact hpre.btb

lemma follows_prefill (hapart : AllApart branches) {kernelBase : UInt64} {branchCount : UInt32}
    (hkernel : ∀ i < branchCount.toNat, branchRip kernelBase i ∈ branches)
    (branchTargets : Nat → UInt64) : Follows Keeps branches
      (tagePrefillKernel tagePredictorInit kernelBase branchTargets branchCount)
      (BranchTable.empty.prefill kernelBase branchTargets branchCount) := by
  have hrun (is : List Nat) (his : ∀ i ∈ is, branchRip kernelBase i ∈ branches) (p : TagePredictor)
      (T : BranchTable) (h : Follows Prefilled branches p T) : Follows Prefilled branches
        (is.foldl (fun p i => prefillBranch p (branchRip kernelBase i) (branchTargets i)) p)
        (is.foldl (fun T i => T.record (branchRip kernelBase i)
          ⟨forward kernelBase branchTargets i, 2, branchTargets i⟩) T) := by
    induction is generalizing p T with
    | nil => exact h
    | cons i is ih =>
      obtain ⟨hblank, hrecorded⟩ := h.record hapart (his i (List.mem_cons_self ..))
        (prefilled_self p (branchRip kernelBase i) (branchTargets i))
        (fun a ha hb => hb.prefill ha _) (fun a r ha hr => hr.prefill ha _)
      exact ih (fun j hj => his j (List.mem_cons_of_mem _ hj)) _ _
        ⟨hblank, hrecorded, h.predictions, h.correct, h.mispredictions⟩
  have h := hrun (List.range branchCount.toNat) (fun i hi => hkernel i (List.mem_range.mp hi)) _ _
    (follows_init Prefilled branches)
  exact ⟨h.blank, fun a ha r hr => (h.recorded a ha r hr).keeps, h.predictions, h.correct,
    h.mispredictions⟩

/-! ## Runs of calls -/

lemma Follows.update (h : Follows Keeps branches p T) (hapart : AllApart branches) {rip : UInt64}
    (hrip : rip ∈ branches) (taken : Bool) (target : UInt64) :
    Follows Keeps branches (tageUpdate p rip taken target) (T.update rip taken target) := by
  obtain ⟨hpredictions, hhit, hmiss⟩ := counters_update p rip taken target
  have hroom : p.predictingTable rip = none → (p.entry rip 0).valid = false := by
    intro hnone
    cases hbranch : T.branch rip with
    | none => exact (h.blank rip hrip hbranch).room
    | some r =>
      obtain ⟨t, htable, -⟩ := (h.recorded rip hrip r hbranch).shows
      rw [hnone] at htable
      cases htable
  have hbtb (a : UInt64) (ha : Apart rip a) (target' : UInt64) :
      Btb.Holds (tageUpdate p rip taken target).gBtb a target' ↔ Btb.Holds p.gBtb a target' := by
    rw [gBtb_update, holds_record_apart ha]
  have hblank (a : UInt64) (ha : Apart rip a) (hb : Blank p a) :=
    (untouched_update ha hroom taken target).blank (hbtb a ha) hb
  have hothers (a : UInt64) (r : Branch) (ha : Apart rip a) (hr : Keeps p a r) :=
    (untouched_update ha hroom taken target).keeps (hbtb a ha) hr
  have hnext : UInt64.ofNat (T.predictions + 1) = UInt64.ofNat T.predictions + 1 :=
    UInt64.ofNat_add ..
  cases hbranch : T.branch rip with
  | none =>
    have hself := (h.blank rip hrip hbranch).update taken target
    obtain ⟨hb, hr⟩ := h.record hapart hrip hself hblank hothers
    obtain ⟨hcorrect, hmispredictions⟩ := hmiss (h.blank rip hrip hbranch).predictingTable
    rw [BranchTable.update]
    dsimp only
    rw [hbranch]
    exact ⟨hb, hr, by rw [hpredictions, h.predictions]; exact hnext.symm, hcorrect.trans h.correct,
      hmispredictions.trans h.mispredictions⟩
  | some r =>
    have hkeeps := h.recorded rip hrip r hbranch
    obtain ⟨hb, hr⟩ := h.record hapart hrip (hkeeps.update taken target) hblank hothers
    obtain ⟨t, htable, hshows⟩ := hkeeps.shows
    obtain ⟨hcorrect, hmispredictions⟩ := hhit t htable
    rw [hshows.1] at hcorrect hmispredictions
    rw [BranchTable.update]
    dsimp only
    rw [hbranch]
    dsimp only
    by_cases hsame : r.taken = taken
    · rw [if_pos hsame] at hcorrect hmispredictions ⊢
      exact ⟨hb, hr, by rw [hpredictions, h.predictions]; exact hnext.symm,
        by rw [hcorrect, h.correct]; exact (UInt64.ofNat_add ..).symm,
        hmispredictions.trans h.mispredictions⟩
    · rw [if_neg hsame] at hcorrect hmispredictions ⊢
      exact ⟨hb, hr, by rw [hpredictions, h.predictions]; exact hnext.symm,
        hcorrect.trans h.correct,
        by rw [hmispredictions, h.mispredictions]; exact (UInt64.ofNat_add ..).symm⟩

/-- A call is answered as the counters answer it. -/
lemma perform_coupled (hapart : AllApart branches) (call : TageCall branches) :
    Coupled (Follows Keeps branches) (Prog.call (TagePredictor.perform · call))
      (Prog.call (BranchTable.perform · call)) := by
  refine .call fun p T h => ?_
  cases call with
  | tagePredict rip target =>
    refine ⟨?_, h⟩
    dsimp only [TagePredictor.perform, BranchTable.perform]
    rw [BranchTable.predict]
    cases hbranch : T.branch rip with
    | none => rw [(h.blank rip rip.2 hbranch).predict]
    | some r => rw [(h.recorded rip rip.2 r hbranch).predict]
  | tageUpdate rip taken target => exact ⟨rfl, h.update hapart rip.2 taken target⟩
  | tageGetStats =>
    refine ⟨?_, h⟩
    dsimp only [TagePredictor.perform, BranchTable.perform]
    rw [h.predictions, h.correct, h.mispredictions]

/-- After a prefill, any run of calls about branches that do not take each other's place is answered as
by a counter for each branch. -/
theorem predictor_refines (hapart : ∀ a ∈ branches, ∀ b ∈ branches, a ≠ b → Apart a b)
    {kernelBase : UInt64} {branchCount : UInt32}
    (hkernel : ∀ i < branchCount.toNat, branchRip kernelBase i ∈ branches)
    (branchTargets : Nat → UInt64) (calls : List (TageCall branches)) :
    (execAll (tagePrefillKernel tagePredictorInit kernelBase branchTargets branchCount)
      (calls.map fun call => Prog.call (TagePredictor.perform · call))).1 =
    (execAll (BranchTable.empty.prefill kernelBase branchTargets branchCount)
      (calls.map fun call => Prog.call (BranchTable.perform · call))).1 :=
  (Coupled.execAll (perform_coupled hapart) calls
    (follows_prefill hapart hkernel branchTargets)).1

/-- Two kernel branches in one block of table 3, and a branch of a program. -/
def threeBranches : List UInt64 := [0x1000, 0x1010, 0x2404]

lemma threeBranches_apart : ∀ a ∈ threeBranches, ∀ b ∈ threeBranches, a ≠ b → Apart a b := by
  intro a ha b hb
  simp only [threeBranches, List.mem_cons, List.not_mem_nil, or_false] at ha hb
  rcases ha with rfl | rfl | rfl <;> rcases hb with rfl | rfl | rfl
  all_goals first
    | exact fun hne => absurd rfl hne
    | exact fun _ => ⟨by decide, by decide, by decide⟩

def programBranch : { a // a ∈ threeBranches } := ⟨0x2404, by decide⟩

def firstBranch : { a // a ∈ threeBranches } := ⟨0x1000, by decide⟩

/-- The branch of the program is learnt while the first kernel branch is turned. -/
def threeCalls : List (TageCall threeBranches) :=
  [.tageUpdate programBranch true 0x3000, .tageUpdate firstBranch false 0x1004,
    .tagePredict programBranch none, .tageGetStats]

theorem predictor_refines_kernel :
    (execAll (tagePrefillKernel tagePredictorInit 0x1000 (fun _ => 0x2000) 2)
      (threeCalls.map fun call => Prog.call (TagePredictor.perform · call))).1 =
    (execAll (BranchTable.empty.prefill 0x1000 (fun _ => 0x2000) 2)
      (threeCalls.map fun call => Prog.call (BranchTable.perform · call))).1 :=
  predictor_refines threeBranches_apart (by decide) (fun _ => 0x2000) threeCalls

end Bemi.Tage
