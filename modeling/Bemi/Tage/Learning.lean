import Bemi.Lib.Lookup
import Bemi.Tage.Predictor

/-!
# What the predictor learns

Each update with the same outcome takes an entry that predicts the other one a step closer to the
outcome, and the usefulness counter bounds the number of steps by eight. A branch without an entry
gets one if there is room. If all of its entries are held by other branches and useful, they stay
so: `learns_iff`.
-/

namespace Bemi.Tage

/-! ## Entries -/

/-- How many updates with an outcome it takes for the entry to predict it. -/
def TageEntry.resistance (e : TageEntry) (taken : Bool) : Nat :=
  if e.taken = taken then 0 else e.useful.toNat + 1

variable {e : TageEntry} {p : TagePredictor} {rip target : UInt64} {taken : Bool} {t : Table}

lemma resistance_eq_zero : e.resistance taken = 0 ↔ e.taken = taken := by
  rw [TageEntry.resistance]
  split <;> simp [*]

lemma resistance_le (e : TageEntry) (taken : Bool) : e.resistance taken ≤ 8 := by
  have hlt := e.useful.isLt
  rw [TageEntry.resistance]
  split <;> omega

lemma resistance_train (e : TageEntry) (taken : Bool) :
    (e.train taken).resistance taken = e.resistance taken - 1 := by
  rw [TageEntry.train]
  split
  · rename_i hsame
    have hzero := resistance_eq_zero.mpr hsame
    rw [hzero, resistance_eq_zero]
    split <;> exact hsame
  · rename_i hother
    split
    · rename_i huseful
      have hpos : 0 < e.useful.toNat := huseful
      have hdown : (e.useful - 1).toNat = e.useful.toNat - 1 := by bv_omega
      simp only [TageEntry.resistance, if_neg hother, hdown]
      omega
    · rename_i huseful
      have hzero : e.useful.toNat = 0 := Nat.eq_zero_of_not_pos huseful
      simp [TageEntry.resistance, hother, hzero]

lemma train_tag (e : TageEntry) (taken : Bool) :
    (e.train taken).tag = e.tag ∧ (e.train taken).valid = e.valid := by
  rw [TageEntry.train]
  split <;> split <;> exact ⟨rfl, rfl⟩

/-! ## The entries of a branch -/

namespace TagePredictor

/-- The branch has an entry, and so many updates make its prediction right. -/
def Provides (p : TagePredictor) (rip : UInt64) (taken : Bool) (n : Nat) : Prop :=
  ∃ t, p.predictingTable rip = some t ∧ (p.entry rip t).resistance taken ≤ n

/-- The branch has no entry, and no room for one. -/
def Crowded (p : TagePredictor) (rip : UInt64) : Prop :=
  ∀ t, p.hits rip t = false ∧ (p.entry rip t).valid = true ∧ (p.entry rip t).useful ≠ 0

instance decidableCrowded (p : TagePredictor) (rip : UInt64) : Decidable (p.Crowded rip) :=
  inferInstanceAs (Decidable (∀ _, _ ∧ _ ∧ _))

lemma mem_tablesDown (t : Table) : t ∈ ([3, 2, 1, 0] : List Table) := by
  decide +revert

lemma mem_tablesUp (t : Table) : t ∈ ([0, 1, 2, 3] : List Table) := by
  decide +revert

/-- Writing an entry with the tag of the branch makes it the one that predicts the branch, if it was
or there was none. -/
lemma predictingTable_setEntry (hvalid : e.valid = true) (htag : e.tag = tageTag rip t)
    (h : p.predictingTable rip = some t ∨ p.predictingTable rip = none) :
    (p.setEntry rip t e).predictingTable rip = some t := by
  have hhits (t' : Table) : (p.setEntry rip t e).hits rip t' = true ↔
      t' = t ∨ p.hits rip t' = true := by
    by_cases ht : t' = t
    · rw [ht, hits, entry_setEntry_self]
      simp [hvalid, htag]
    · rw [hits, entry_setEntry_of_ne p rip e ht, hits]
      simp [ht]
  exact Lookup.find?_of_pass (mem_tablesDown t) hhits h

lemma writeBtb_gTageTables (p : TagePredictor) (rip target : UInt64) :
    (p.writeBtb rip target).gTageTables = p.gTageTables := rfl

lemma train_gTageTables (p : TagePredictor) (rip : UInt64) (t : Table) (taken : Bool) :
    (p.train rip t taken).gTageTables =
      (p.setEntry rip t ((p.entry rip t).train taken)).gTageTables := by
  rw [train]
  split <;> rfl

/-- What is looked up depends on the tables only. -/
lemma predictingTable_congr {p' : TagePredictor} (h : p'.gTageTables = p.gTageTables)
    (rip : UInt64) : p'.predictingTable rip = p.predictingTable rip ∧
      p'.entry rip = p.entry rip := by
  have hentry : p'.entry rip = p.entry rip := by
    funext t
    rw [entry, entry, h]
  have hhits : p'.hits rip = p.hits rip := by
    funext t
    rw [hits, hits, hentry]
  exact ⟨by rw [predictingTable, predictingTable, hhits], hentry⟩

end TagePredictor

open TagePredictor

/-- The tables after an update of a branch with an entry, and of one without. -/
lemma gTageTables_update (p : TagePredictor) (rip : UInt64) (taken : Bool) (target : UInt64) :
    (∀ t, p.predictingTable rip = some t → (tageUpdate p rip taken target).gTageTables =
        (p.setEntry rip t ((p.entry rip t).train taken)).gTageTables) ∧
      (p.predictingTable rip = none → (tageUpdate p rip taken target).gTageTables =
        (p.allocate rip taken).gTageTables) := by
  have hsame : predictingTable { p with gTagePredictions := p.gTagePredictions + 1 } rip =
    p.predictingTable rip := rfl
  constructor
  · intro t ht
    rw [tageUpdate, writeBtb_gTageTables, hsame, ht]
    exact train_gTageTables { p with gTagePredictions := p.gTagePredictions + 1 } rip t taken
  · intro hnone
    have hfree : freeTable { p with gTagePredictions := p.gTagePredictions + 1 } rip =
      p.freeTable rip := rfl
    rw [tageUpdate, writeBtb_gTageTables, hsame, hnone]
    dsimp only
    rw [allocate, allocate, hfree]
    cases p.freeTable rip <;> rfl

/-- An update takes the entry of a branch a step closer to the outcome. -/
lemma TagePredictor.Provides.update {n : Nat} (h : p.Provides rip taken n) (target : UInt64) :
    (tageUpdate p rip taken target).Provides rip taken (n - 1) := by
  obtain ⟨t, htable, hn⟩ := h
  have htables := (gTageTables_update p rip taken target).1 t htable
  obtain ⟨hpredicting, hentry⟩ := predictingTable_congr htables rip
  obtain ⟨htag, hvalid⟩ := train_tag (p.entry rip t) taken
  have hhits : p.hits rip t = true := List.find?_some htable
  rw [hits, Bool.and_eq_true, beq_iff_eq] at hhits
  refine ⟨t, ?_, ?_⟩
  · rw [hpredicting]
    exact predictingTable_setEntry (hvalid.trans hhits.1) (htag.trans hhits.2) (.inl htable)
  · rw [hentry, entry_setEntry_self, resistance_train]
    omega

/-- A branch for which there is room gets an entry with the outcome. -/
lemma provides_of_room (hnone : p.predictingTable rip = none) {t : Table}
    (hroom : p.freeTable rip = some t) (taken : Bool) (target : UInt64) :
    (tageUpdate p rip taken target).Provides rip taken 0 := by
  have htables := (gTageTables_update p rip taken target).2 hnone
  rw [allocate, hroom] at htables
  obtain ⟨hpredicting, hentry⟩ := predictingTable_congr htables rip
  refine ⟨t, ?_, ?_⟩
  · rw [hpredicting]
    exact predictingTable_setEntry rfl rfl (.inr hnone)
  · rw [hentry, entry_setEntry_self, resistance_eq_zero.mpr rfl]

/-- Updates with one outcome. -/
lemma TagePredictor.Provides.updates {n : Nat} (h : p.Provides rip taken n) (target : UInt64)
    (k : Nat) :
    ((fun p => tageUpdate p rip taken target)^[k] p).Provides rip taken (n - k) := by
  induction k with
  | zero => exact h
  | succ k ih =>
    rw [Function.iterate_succ_apply', ← Nat.sub_sub]
    exact ih.update target

lemma TagePredictor.Provides.predict (h : p.Provides rip taken 0) (out : Option UInt64) :
    (tagePredict p rip out).1 = taken := by
  obtain ⟨t, htable, hzero⟩ := h
  rw [tagePredict, htable]
  exact resistance_eq_zero.mp (Nat.le_zero.mp hzero)

/-! ## Branches without room -/

lemma crowded_iff : p.Crowded rip ↔ p.predictingTable rip = none ∧ p.freeTable rip = none := by
  rw [predictingTable, freeTable, List.find?_eq_none, List.find?_eq_none]
  constructor
  · intro h
    refine ⟨fun t _ => ?_, fun t _ => ?_⟩
    · simp [(h t).1]
    · obtain ⟨-, hvalid, huseful⟩ := h t
      simpa [hvalid] using huseful
  · rintro ⟨hhits, hfree⟩ t
    have hhit := hhits t (mem_tablesDown t)
    have hroom := hfree t (mem_tablesUp t)
    simpa using And.intro hhit hroom

/-- The updates of a branch without room leave its entries to the others. -/
lemma TagePredictor.Crowded.update (h : p.Crowded rip) (taken : Bool) (target : UInt64) :
    (tageUpdate p rip taken target).Crowded rip := by
  obtain ⟨hnone, hfree⟩ := crowded_iff.mp h
  have htables := (gTageTables_update p rip taken target).2 hnone
  rw [allocate, hfree] at htables
  obtain ⟨-, hentry⟩ := predictingTable_congr htables rip
  intro t
  rw [hits, hentry]
  exact h t

/-- Its prediction is that of the branch target buffer: taken. -/
lemma TagePredictor.Crowded.predict (h : p.Crowded rip) (hbtb : p.btbHits rip = true)
    (out : Option UInt64) :
    (tagePredict p rip out).1 = true := by
  rw [tagePredict, (crowded_iff.mp h).1]
  dsimp only
  rw [if_pos hbtb]

lemma btbHits_update (p : TagePredictor) (rip : UInt64) (taken : Bool) (target : UInt64) :
    (tageUpdate p rip taken target).btbHits rip = true := by
  rw [tageUpdate, btbHits, writeBtb]
  simp

lemma TagePredictor.Crowded.updates (h : p.Crowded rip) (taken : Bool) (target : UInt64) (k : Nat) :
    ((fun p => tageUpdate p rip taken target)^[k] p).Crowded rip := by
  induction k with
  | zero => exact h
  | succ k ih =>
    rw [Function.iterate_succ_apply']
    exact ih.update taken target

/-- However often it is updated. -/
lemma TagePredictor.Crowded.predict_updates (h : p.Crowded rip) (taken : Bool) (target : UInt64)
    (k : Nat) (out : Option UInt64) :
    (tagePredict ((fun p => tageUpdate p rip taken target)^[k + 1] p) rip out).1 = true := by
  refine (h.updates taken target (k + 1)).predict ?_ out
  rw [Function.iterate_succ_apply']
  exact btbHits_update ..

/-- After eight updates with an outcome a branch is predicted with that outcome exactly when the
outcome is taken or its four entries are not all held by other branches and useful. -/
theorem learns_iff (calls : List Call) (rip : UInt64) (taken : Bool) (target : UInt64)
    (out : Option UInt64) :
    (tagePredict ((fun p => tageUpdate p rip taken target)^[8] (reached calls)) rip out).1 = taken ↔
      taken = true ∨ ¬ (reached calls).Crowded rip := by
  have hlast (p : TagePredictor) : (fun p => tageUpdate p rip taken target)^[8] p =
      (fun p => tageUpdate p rip taken target)^[7] (tageUpdate p rip taken target) := rfl
  by_cases hcrowded : (reached calls).Crowded rip
  · rw [hcrowded.predict_updates taken target 7 out]
    simp [hcrowded, eq_comm]
  · refine iff_of_true ?_ (.inr hcrowded)
    cases htable : (reached calls).predictingTable rip with
    | some t =>
      have hprovides : (reached calls).Provides rip taken 8 := ⟨t, htable, resistance_le _ _⟩
      exact (hprovides.updates target 8).predict out
    | none =>
      cases hfree : (reached calls).freeTable rip with
      | none => exact absurd (crowded_iff.mpr ⟨htable, hfree⟩) hcrowded
      | some t =>
        rw [hlast]
        exact ((provides_of_room htable hfree taken target).updates target 7).predict out

/-- A kernel branch takes all entries of another one, which is always predicted taken then. -/
theorem learns_not :
    (tagePredict ((fun p => tageUpdate p 0x4001000 false 0x4001004)^[8]
      (reached [.prefillKernel 0x1000 (fun _ => 0x2000) 1])) 0x4001000 none).1 ≠ false := by
  have hcrowded : (reached [.prefillKernel 0x1000 (fun _ => 0x2000) 1]).Crowded 0x4001000 := by
    decide
  rw [hcrowded.predict_updates false 0x4001004 7 none]
  decide

end Bemi.Tage
