import Mathlib.Algebra.GroupWithZero.Nat
import Bemi.Tage.Targets

/-!
# Kernel prefill

The prefilled branches are 16 bytes apart, and a later one can take the entries of an earlier one.
The target buffer keeps the last 512 branches, table 0 the last 1024. Tables 1 and 2 tell those
apart, table 3 does not: it has one entry for the branches of 16 KB and its tag leaves out the
address bits 12 and 13. So `prefill_predicts`: the last prefilled branch in the 16 KB of a branch
gives the direction if it is a multiple of 256 branches further, and the branch itself otherwise.
-/

namespace Bemi.Tage
open History TagePredictor

/-! ## Addresses -/

lemma tageIndex_val (a : UInt64) (t : Table) :
    (tageIndex a t).val = a.toNat / 2 ^ (t.val * 4 + 2) % 4096 := by
  have hshift : (UInt64.ofNat (t.val * 4 + 2)).toNat % 64 = t.val * 4 + 2 := by
    have ht : t.val < 4 := t.isLt
    rw [UInt64.toNat_ofNat']
    omega
  change (a >>> UInt64.ofNat (t.val * 4 + 2) &&& 4095).toNat = _
  rw [Bits.toNat_and_mask (k := 12) _ rfl, UInt64.toNat_shiftRight, hshift,
    Nat.shiftRight_eq_div_pow]
  rfl

/-- Within a block of a table, the tag tells the low 12 bits. -/
lemma tageTag_eq_iff {a b : UInt64} {t : Table}
    (h : a.toNat / 2 ^ (t.val * 4 + 2) = b.toNat / 2 ^ (t.val * 4 + 2)) :
    tageTag a t = tageTag b t ↔ a.toNat % 4096 = b.toNat % 4096 := by
  have hhigh : a >>> UInt64.ofNat (t.val * 4 + 6) = b >>> UInt64.ofNat (t.val * 4 + 6) := by
    have hshift : (UInt64.ofNat (t.val * 4 + 6)).toNat % 64 = t.val * 4 + 2 + 4 := by
      have ht : t.val < 4 := t.isLt
      rw [UInt64.toNat_ofNat']
      omega
    rw [← UInt64.toNat_inj, UInt64.toNat_shiftRight, UInt64.toNat_shiftRight, hshift,
      Nat.shiftRight_eq_div_pow, Nat.shiftRight_eq_div_pow, Nat.pow_add, ← Nat.div_div_eq_div_mul,
      ← Nat.div_div_eq_div_mul, h]
  rw [tageTag, tageTag, hhigh, UInt64.xor_right_inj, ← UInt64.toNat_inj,
    Bits.toNat_and_mask (k := 12) a rfl, Bits.toNat_and_mask (k := 12) b rfl]
  rfl

lemma branchRip_toNat (kernelBase : UInt64) {i : Nat} (hi : 16 * i < 2 ^ 32) :
    (branchRip kernelBase i).toNat = (kernelBase.toNat + 16 * i) % 2 ^ 64 := by
  rw [branchRip, UInt64.toNat_add, UInt32.toNat_toUInt64, UInt32.toNat_mul, UInt32.toNat_ofNat']
  change (_ + i % 2 ^ 32 * 16 % 2 ^ 32) % 2 ^ 64 = _
  omega

lemma table_cases (t : Table) : t.val = 0 ∨ t.val = 1 ∨ t.val = 2 ∨ t.val = 3 := by
  decide +revert

section
variable {a b : UInt64} {d : Nat} (hd : d < 1024) (hb : b.toNat = (a.toNat + 16 * d) % 2 ^ 64)
include hd hb

/-- Of branches that are close an index tells the blocks apart. -/
lemma tageIndex_eq_iff (t : Table) : tageIndex b t = tageIndex a t ↔
    a.toNat / 2 ^ (t.val * 4 + 2) = b.toNat / 2 ^ (t.val * 4 + 2) := by
  have hlt := a.toNat_lt
  rw [Fin.ext_iff, tageIndex_val, tageIndex_val]
  rcases table_cases t with ht | ht | ht | ht <;> simp only [ht] <;> omega

/-- Branches that are close and cannot be told apart: they share table 3, and differ by a multiple
of 4096. -/
lemma alias_iff (t : Table) : tageIndex b t = tageIndex a t ∧ tageTag b t = tageTag a t ↔
    d = 0 ∨ t.val = 3 ∧ 256 ∣ d ∧ a.toNat % 16384 + 16 * d < 16384 := by
  have hlt := a.toNat_lt
  rw [tageIndex_eq_iff hd hb]
  rw [and_congr_right fun hblock => tageTag_eq_iff hblock.symm]
  rcases table_cases t with ht | ht | ht | ht <;> simp only [ht, true_and] <;> omega

end

/-! ## What a prefill leaves -/

/-- Branch `j` is the last prefilled one with the index of branch `i` in a table, and it has its
tag, too. -/
def Decides (kernelBase : UInt64) (n : Nat) (i : Nat) (t : Table) (j : Nat) : Prop :=
  j < n ∧ (tageIndex (branchRip kernelBase j) t = tageIndex (branchRip kernelBase i) t ∧
    tageTag (branchRip kernelBase j) t = tageTag (branchRip kernelBase i) t) ∧
      ∀ k, j < k → k < n →
        tageIndex (branchRip kernelBase k) t ≠ tageIndex (branchRip kernelBase i) t

/-- `target > branchRip` for branch `j`. -/
def forward (kernelBase : UInt64) (branchTargets : Nat → UInt64) (j : Nat) : Bool :=
  branchTargets j > branchRip kernelBase j

lemma entry_prefillBranch (p : TagePredictor) (rip target a : UInt64) (t : Table) :
    (prefillBranch p rip target).entry a t =
      if tageIndex rip t = tageIndex a t then
        { tag := tageTag rip t, valid := true, taken := target > rip, useful := 2 }
      else p.entry a t := by
  simp only [prefillBranch, List.foldl_cons, List.foldl_nil, entry, writeBtb_gTageTables,
    gTageTables_setEntry, eq_comm (a := tageIndex a t)]
  obtain rfl | rfl | rfl | rfl : t = 0 ∨ t = 1 ∨ t = 2 ∨ t = 3 := by decide +revert
  all_goals simp

/-- A branch predicts another one with its tag, and takes its entry from it otherwise. -/
lemma hits_prefillBranch (p : TagePredictor) (rip target a : UInt64) (t : Table) (taken : Bool) :
    (prefillBranch p rip target).hits a t = true ∧
        ((prefillBranch p rip target).entry a t).taken = taken ↔
      ((tageIndex rip t = tageIndex a t ∧ tageTag rip t = tageTag a t) ∧
          decide (target > rip) = taken) ∨
        (p.hits a t = true ∧ (p.entry a t).taken = taken) ∧ ¬ tageIndex rip t = tageIndex a t := by
  rw [hits, hits, entry_prefillBranch]
  by_cases hindex : tageIndex rip t = tageIndex a t
  · simp [hindex]
  · simp [hindex]

variable {kernelBase : UInt64} {branchTargets : Nat → UInt64} {n : UInt32} {i j : Nat} {t : Table}

/-- The entry of a branch after the prefill. -/
lemma hits_prefill (kernelBase : UInt64) (branchTargets : Nat → UInt64) (n : UInt32) (i : Nat)
    (t : Table) (taken : Bool) :
    ((tagePrefillKernel tagePredictorInit kernelBase branchTargets n).hits
          (branchRip kernelBase i) t = true ∧
        ((tagePrefillKernel tagePredictorInit kernelBase branchTargets n).entry
          (branchRip kernelBase i) t).taken = taken) ↔
      ∃ j, Decides kernelBase n.toNat i t j ∧ forward kernelBase branchTargets j = taken := by
  have hfold : tagePrefillKernel tagePredictorInit kernelBase branchTargets n =
      (Call.prefillKernel kernelBase branchTargets n).records.foldl
        (fun p r => prefillBranch p r.rip r.target) tagePredictorInit := by
    rw [Call.records, List.foldl_map]
    rfl
  have hnot : ¬ (tagePredictorInit.hits (branchRip kernelBase i) t = true ∧
      (tagePredictorInit.entry (branchRip kernelBase i) t).taken = taken) :=
    fun h => Bool.false_ne_true h.1
  rw [hfold, foldl_iff_since (I := fun _ => True)
    (R := fun p : TagePredictor => p.hits (branchRip kernelBase i) t = true ∧
      (p.entry (branchRip kernelBase i) t).taken = taken) trivial hnot (fun _ _ _ => trivial)
    fun p r _ => hits_prefillBranch p r.rip r.target (branchRip kernelBase i) t taken,
    Call.records, since_map_range]
  constructor
  · rintro ⟨j, hj, ⟨halias, hforward⟩, hlast⟩
    exact ⟨j, ⟨hj, halias, fun k hk hk' => (hlast k hk hk').2⟩, hforward⟩
  · rintro ⟨j, ⟨hj, halias, hlast⟩, hforward⟩
    exact ⟨j, hj, ⟨halias, hforward⟩,
      fun k hk hk' => ⟨fun hp => hlast k hk hk' hp.1.1, hlast k hk hk'⟩⟩

/-- The last table with an entry for a branch predicts it. -/
lemma predict_hits {p : TagePredictor} {rip : UInt64} (out : Option UInt64) :
    (∃ t, p.hits rip t = true ∧ (∀ t', t < t' → p.hits rip t' = false) ∧
        (tagePredict p rip out).1 = (p.entry rip t).taken) ∨
      (∀ t, p.hits rip t = false) ∧ (tagePredict p rip out).1 = p.btbHits rip := by
  rw [tagePredict]
  cases htable : p.predictingTable rip with
  | some t =>
    have hsorted : ([3, 2, 1, 0] : List Table).Pairwise (· > ·) := by decide
    obtain ⟨hhits, hlast⟩ := Lookup.find?_pairwise (fun _ _ => Nat.lt_asymm) hsorted htable
    exact .inl ⟨t, hhits, fun t' ht' => hlast t' (mem_tablesDown t') ht', rfl⟩
  | none =>
    refine .inr ⟨fun t => ?_, ?_⟩
    · exact eq_false_of_ne_true (List.find?_eq_none.mp htable t (mem_tablesDown t))
    · dsimp only
      split
      · rename_i hbtb
        exact hbtb.symm
      · rename_i hbtb
        exact (eq_false_of_ne_true hbtb).symm

/-- The last table that decides gives the direction of the branch that it knows. -/
lemma predict_forward (kernelBase : UInt64) (branchTargets : Nat → UInt64) (n : UInt32) (i : Nat)
    (out : Option UInt64) :
    (∃ t j, Decides kernelBase n.toNat i t j ∧
        (∀ t', t < t' → ∀ j, ¬ Decides kernelBase n.toNat i t' j) ∧
          (tagePredict (tagePrefillKernel tagePredictorInit kernelBase branchTargets n)
            (branchRip kernelBase i) out).1 = forward kernelBase branchTargets j) ∨
      (∀ t j, ¬ Decides kernelBase n.toNat i t j) ∧
        (tagePredict (tagePrefillKernel tagePredictorInit kernelBase branchTargets n)
          (branchRip kernelBase i) out).1 =
            (tagePrefillKernel tagePredictorInit kernelBase branchTargets n).btbHits
              (branchRip kernelBase i) := by
  have hhits (t : Table) {j : Nat} (h : Decides kernelBase n.toNat i t j) :
      (tagePrefillKernel tagePredictorInit kernelBase branchTargets n).hits
        (branchRip kernelBase i) t = true :=
    ((hits_prefill kernelBase branchTargets n i t _).mpr ⟨j, h, rfl⟩).1
  rcases predict_hits out with ⟨t, ht, hlast, hpredict⟩ | ⟨hnone, hpredict⟩
  · obtain ⟨j, hj, hforward⟩ := (hits_prefill kernelBase branchTargets n i t _).mp ⟨ht, rfl⟩
    refine .inl ⟨t, j, hj, fun t' ht' j' hj' => ?_, hpredict.trans hforward.symm⟩
    exact Bool.false_ne_true ((hlast t' ht').symm.trans (hhits t' hj'))
  · refine .inr ⟨fun t j hj => ?_, hpredict⟩
    exact Bool.false_ne_true ((hnone t).symm.trans (hhits t hj))

/-! ## Branches that are close -/

/-- The last prefilled branch in the 16 KB of branch `i`. -/
def lastInBlock (kernelBase : UInt64) (n i : Nat) : Nat :=
  min (n - 1) (i + (16383 - (branchRip kernelBase i).toNat % 16384) / 16)

/-- The branch that gives branch `i` its direction. -/
def deciding (kernelBase : UInt64) (n i : Nat) : Nat :=
  if 256 ∣ lastInBlock kernelBase n i - i then lastInBlock kernelBase n i else i

lemma Decides.le (h : Decides kernelBase n.toNat i t j) (hi : i < n.toNat) : i ≤ j := by
  by_contra hlt
  exact h.2.2 i (Nat.lt_of_not_le hlt) hi rfl

lemma Decides.unique {j' : Nat} (h : Decides kernelBase n.toNat i t j)
    (h' : Decides kernelBase n.toNat i t j') : j = j' := by
  rcases Nat.lt_trichotomy j j' with hlt | heq | hlt
  · exact absurd h'.2.1.1 (h.2.2 j' hlt h'.1)
  · exact heq
  · exact absurd h.2.1.1 (h'.2.2 j hlt h.1)

section
variable (kernelBase) (hn : n.toNat * 16 < 2 ^ 32) (hi : i < n.toNat)
include hn hi

lemma branchRip_near (hij : i ≤ j) (hj : j < n.toNat) : (branchRip kernelBase j).toNat =
    ((branchRip kernelBase i).toNat + 16 * (j - i)) % 2 ^ 64 := by
  rw [branchRip_toNat kernelBase (by omega), branchRip_toNat kernelBase (by omega)]
  omega

/-- Whether the target buffer still has a branch after the prefill. -/
lemma lastRecorded_prefill (branchTargets : Nat → UInt64) (target : UInt64) :
    LastRecorded (branchRip kernelBase i) target
        (records [.prefillKernel kernelBase branchTargets n]) ↔
      n.toNat ≤ i + 512 ∧ branchTargets i = target := by
  have hrip {j : Nat} (hj : j < n.toNat) :
      branchRip kernelBase j = branchRip kernelBase i ↔ j = i := by
    rw [← UInt64.toNat_inj, branchRip_toNat kernelBase (by omega),
      branchRip_toNat kernelBase (by omega)]
    omega
  have hslot {j : Nat} (hj : j < n.toNat) : (branchRip kernelBase j).toNat % btbEntries =
      (branchRip kernelBase i).toNat % btbEntries ↔ j % 512 = i % 512 := by
    rw [branchRip_toNat kernelBase (by omega), branchRip_toNat kernelBase (by omega)]
    change _ % 8192 = _ % 8192 ↔ _
    omega
  rw [LastRecorded, records, List.flatMap_singleton, Call.records, since_map_range]
  constructor
  · rintro ⟨j, hj, ⟨hji, htarget⟩, hlast⟩
    obtain rfl := (hrip hj).mp hji
    refine ⟨?_, htarget⟩
    by_contra hmany
    exact (hlast (j + 512) (by omega) (by omega)).2 ((hslot (by omega)).mpr (by omega))
  · rintro ⟨hfew, htarget⟩
    refine ⟨i, hi, ⟨rfl, htarget⟩, fun k hk hk' => ⟨fun h => ?_, fun h => ?_⟩⟩
    · have heq := (hrip hk').mp h.1
      omega
    · have heq := (hslot hk').mp h
      omega

variable {kernelBase} (hnear : n.toNat ≤ i + 1024)
include hnear

/-- Table 0 knows the branch itself. -/
lemma decides_zero : Decides kernelBase n.toNat i 0 i := by
  refine ⟨hi, ⟨rfl, rfl⟩, fun k hk hk' hindex => ?_⟩
  have hb := branchRip_near kernelBase hn hi (Nat.le_of_lt hk) hk'
  have hblock := (tageIndex_eq_iff (by omega) hb 0).mp hindex
  change _ / 4 = _ / 4 at hblock
  omega

/-- The tables before the last one know no other branch. -/
lemma Decides.own (h : Decides kernelBase n.toNat i t j) (ht : t.val ≠ 3) : j = i := by
  have hle := h.le hi
  have hlt := h.1
  have hb := branchRip_near kernelBase hn hi hle hlt
  have halias := (alias_iff (by omega) hb t).mp h.2.1
  omega

/-- Table 3 has one entry for the branches of 16 KB. -/
lemma tageIndex_three (hij : i ≤ j) (hj : j < n.toNat) :
    tageIndex (branchRip kernelBase j) 3 = tageIndex (branchRip kernelBase i) 3 ↔
      (branchRip kernelBase i).toNat % 16384 + 16 * (j - i) < 16384 := by
  have hb := branchRip_near kernelBase hn hi hij hj
  have hlt := (branchRip kernelBase i).toNat_lt
  rw [tageIndex_eq_iff (by omega) hb 3]
  change _ / 16384 = _ / 16384 ↔ _
  omega

/-- The last table knows the last branch in the 16 KB, if its tag fits. -/
lemma decides_three : Decides kernelBase n.toNat i 3 j ↔
    j = lastInBlock kernelBase n.toNat i ∧ 256 ∣ j - i := by
  rw [lastInBlock]
  constructor
  · intro h
    have hle := h.le hi
    obtain ⟨hlt, halias, hlast⟩ := h
    have hb := branchRip_near kernelBase hn hi hle hlt
    have hmultiple := (alias_iff (by omega) hb 3).mp halias
    have hblock := (tageIndex_three hn hi hnear hle hlt).mp halias.1
    refine ⟨?_, by omega⟩
    by_contra hne
    refine hlast (j + 1) (Nat.lt_succ_self j) (by omega) ?_
    rw [tageIndex_three hn hi hnear (by omega) (by omega)]
    omega
  · rintro ⟨hj, hmultiple⟩
    have hlt : j < n.toNat := by omega
    have hle : i ≤ j := by omega
    have hb := branchRip_near kernelBase hn hi hle hlt
    refine ⟨hlt, (alias_iff (by omega) hb 3).mpr ?_, fun k hk hk' hindex => ?_⟩
    · have hthree : (3 : Table).val = 3 := rfl
      omega
    · have hblock := (tageIndex_three hn hi hnear (by omega) hk').mp hindex
      omega

end

/-! ## The result -/

lemma prefill_holds (hn : n.toNat * 16 < 2 ^ 32) (hi : i < n.toNat) (kernelBase : UInt64)
    (branchTargets : Nat → UInt64) (target : UInt64) :
    Btb.Holds (tagePrefillKernel tagePredictorInit kernelBase branchTargets n).gBtb
        (branchRip kernelBase i) target ↔ n.toNat ≤ i + 512 ∧ branchTargets i = target :=
  (holds_iff [.prefillKernel kernelBase branchTargets n] (branchRip kernelBase i) target).trans
    (lastRecorded_prefill kernelBase hn hi branchTargets target)

/-- The target reported for a prefilled branch. -/
lemma prefill_target (hn : n.toNat * 16 < 2 ^ 32) (hi : i < n.toNat) (kernelBase : UInt64)
    (branchTargets : Nat → UInt64) (out : UInt64) :
    (tagePredict (tagePrefillKernel tagePredictorInit kernelBase branchTargets n)
        (branchRip kernelBase i) (some out)).2 =
      some (if n.toNat ≤ i + 512 then branchTargets i else branchRip kernelBase i + 4) := by
  obtain ⟨hrecorded, hnone⟩ := predict_target
    (tagePrefillKernel tagePredictorInit kernelBase branchTargets n) (branchRip kernelBase i) out
  have hholds := prefill_holds hn hi kernelBase branchTargets
  split
  · rename_i hfew
    exact hrecorded _ ((hholds _).mpr ⟨hfew, rfl⟩)
  · rename_i hmany
    exact hnone fun target h => hmany ((hholds target).mp h).1

/-- The direction predicted for one of the last 1024 branches. -/
lemma prefill_direction (hn : n.toNat * 16 < 2 ^ 32) (hi : i < n.toNat) (hnear : n.toNat ≤ i + 1024)
    (kernelBase : UInt64) (branchTargets : Nat → UInt64) (out : Option UInt64) :
    (tagePredict (tagePrefillKernel tagePredictorInit kernelBase branchTargets n)
      (branchRip kernelBase i) out).1 =
        forward kernelBase branchTargets (deciding kernelBase n.toNat i) := by
  rcases predict_forward kernelBase branchTargets n i out with
    ⟨t, j, hj, hlast, hpredict⟩ | ⟨hnone, -⟩
  · rw [hpredict, deciding]
    by_cases ht : t.val = 3
    · obtain rfl : t = 3 := Fin.ext ht
      obtain ⟨rfl, hmultiple⟩ := (decides_three hn hi hnear).mp hj
      rw [if_pos hmultiple]
    · have hlt : t < 3 := Nat.lt_of_le_of_ne (Nat.le_of_lt_succ t.isLt) ht
      have hnot : ¬ 256 ∣ lastInBlock kernelBase n.toNat i - i := fun hmultiple =>
        hlast 3 hlt _ ((decides_three hn hi hnear).mpr ⟨rfl, hmultiple⟩)
      rw [if_neg hnot, hj.own hn hi hnear ht]
  · exact absurd (decides_zero hn hi hnear) (hnone 0 i)

/-- After a prefill the target of a branch is its own if it is among the last 512, and the address 4
behind the branch otherwise. The direction of one among the last 1024 is that of the last prefilled
branch in its 16 KB, if that is a multiple of 256 branches further, and its own otherwise. In all,
the last table in which the last branch of the same index has the same tag gives the direction of
that branch, and without such a table the prediction is not taken. -/
theorem prefill_predicts {n : UInt32} (hn : n.toNat * 16 < 2 ^ 32) {i : Nat} (hi : i < n.toNat)
    (kernelBase : UInt64) (branchTargets : Nat → UInt64) (out : UInt64) :
    (tagePredict (tagePrefillKernel tagePredictorInit kernelBase branchTargets n)
        (branchRip kernelBase i) (some out)).2 =
      some (if n.toNat ≤ i + 512 then branchTargets i else branchRip kernelBase i + 4) ∧
    (n.toNat ≤ i + 1024 →
      (tagePredict (tagePrefillKernel tagePredictorInit kernelBase branchTargets n)
        (branchRip kernelBase i) (some out)).1 =
          forward kernelBase branchTargets (deciding kernelBase n.toNat i)) ∧
    (∀ t j, Decides kernelBase n.toNat i t j →
      (∀ t', t < t' → ∀ j, ¬ Decides kernelBase n.toNat i t' j) →
        (tagePredict (tagePrefillKernel tagePredictorInit kernelBase branchTargets n)
          (branchRip kernelBase i) (some out)).1 = forward kernelBase branchTargets j) ∧
    ((∀ t j, ¬ Decides kernelBase n.toNat i t j) →
      (tagePredict (tagePrefillKernel tagePredictorInit kernelBase branchTargets n)
        (branchRip kernelBase i) (some out)).1 = false) := by
  have hforward := predict_forward kernelBase branchTargets n i (some out)
  refine ⟨prefill_target hn hi kernelBase branchTargets out, fun hnear =>
    prefill_direction hn hi hnear kernelBase branchTargets (some out), fun t j hj hlast => ?_,
    fun hnone => ?_⟩
  · rcases hforward with ⟨t', j', hj', hlast', hpredict⟩ | ⟨hnone, -⟩
    · have ht : t = t' := by
        rcases Nat.lt_trichotomy t.val t'.val with hlt | heq | hlt
        · exact absurd hj' (hlast t' hlt j')
        · exact Fin.ext heq
        · exact absurd hj (hlast' t hlt j)
      rw [hpredict, hj'.unique (ht ▸ hj)]
    · exact absurd hj (hnone t j)
  · rcases hforward with ⟨t, j, hj, -⟩ | ⟨-, hpredict⟩
    · exact absurd hj (hnone t j)
    · rw [hpredict]
      refine eq_false_of_ne_true fun hbtb => ?_
      rw [btbHits, Bool.and_eq_true, beq_iff_eq] at hbtb
      have hholds := (prefill_holds hn hi kernelBase branchTargets _).mp ⟨hbtb.1, hbtb.2, rfl⟩
      exact hnone 0 i (decides_zero hn hi (Nat.le_trans hholds.1 (by omega)))

/-- Of two branches the first one goes forward and the second one back. -/
theorem prefill_predicts_two :
    let branchTargets := fun j => if j = 0 then (0x200000 : UInt64) else 0x1000
    let gTage := tagePrefillKernel tagePredictorInit 0x100000 branchTargets 2
    tagePredict gTage (branchRip 0x100000 0) (some 0) = (true, some 0x200000) ∧
      tagePredict gTage (branchRip 0x100000 1) (some 0) = (false, some 0x1000) := by
  intro branchTargets gTage
  have hn : (2 : UInt32).toNat * 16 < 2 ^ 32 := by decide
  obtain ⟨htarget, hdirection, -⟩ :=
    prefill_predicts hn (i := 0) (by decide) 0x100000 branchTargets 0
  obtain ⟨htarget', hdirection', -⟩ :=
    prefill_predicts hn (i := 1) (by decide) 0x100000 branchTargets 0
  exact ⟨Prod.ext (hdirection (by decide)) htarget, Prod.ext (hdirection' (by decide)) htarget'⟩

/-- Of 257 branches the last one gives the first its direction, and of 513 the last one takes its
target. -/
theorem prefill_predicts_not :
    (tagePredict (tagePrefillKernel tagePredictorInit 0x100000
          (fun j => if j = 256 then 0x200000 else 0) 257) (branchRip 0x100000 0) (some 0)).1 ≠
        decide ((0 : UInt64) > branchRip 0x100000 0) ∧
      (tagePredict (tagePrefillKernel tagePredictorInit 0x100000 (fun _ => 0) 513)
          (branchRip 0x100000 0) (some 0)).2 ≠ some 0 := by
  have hn : (257 : UInt32).toNat * 16 < 2 ^ 32 := by decide
  have hn' : (513 : UInt32).toNat * 16 < 2 ^ 32 := by decide
  constructor
  · rw [prefill_direction hn (by decide) (by decide)]
    decide
  · rw [prefill_target hn' (by decide)]
    decide

end Bemi.Tage
