import Mathlib.Data.Finset.Basic
import Mathlib.Data.Finset.Dedup
import Mathlib.Data.Finset.Lattice.Lemmas
import Bemi.Lib.Program

/-!
# Programs that own blocks of memory

A pool grants some of the requests for a block and refuses others; a block is known by the number of
its request. To free a block that is not allocated raises an exception. `Spec P m Q` says of a program
that owns the blocks `P` that it raises none, that it ends with a result and some blocks `S` as `Q`
says, and that the blocks of others are left alone; `Q` is told whether one of the program's requests
was refused. For a program that ends with the blocks that its result names, `Q` is `Owns`;
`Spec.execAll` is about such programs one after another.
-/

namespace Ownership
open Program Prog

structure Pool where
  grants : ℕ → Bool
  requests : ℕ
  live : Finset ℕ

namespace Pool

/-- Blocks that are yet to be asked for are not allocated. -/
def Regular (p : Pool) : Prop := ∀ b ∈ p.live, b < p.requests

def empty (grants : ℕ → Bool) : Pool := ⟨grants, 0, ∅⟩

lemma regular_empty (grants : ℕ → Bool) : (empty grants).Regular :=
  fun b hb => absurd hb (Finset.notMem_empty b)

/-- The pool that a program leaves. -/
structure Later (p p' : Pool) : Prop where
  grants : p'.grants = p.grants
  requests : p.requests ≤ p'.requests
  regular : p'.Regular

lemma Later.trans {p p₁ p₂ : Pool} (h₁ : p.Later p₁) (h₂ : p₁.Later p₂) : p.Later p₂ :=
  ⟨h₂.grants.trans h₁.grants, Nat.le_trans h₁.requests h₂.requests, h₂.regular⟩

/-- One of the requests made in between was refused. -/
def Refused (p p' : Pool) : Prop :=
  ∃ n, p.requests ≤ n ∧ n < p'.requests ∧ p.grants n = false

lemma refused_self (p : Pool) : p.Refused p = False :=
  eq_false fun ⟨_, hle, hlt, _⟩ => Nat.not_lt_of_le hle hlt

lemma refused_trans {p p₁ p₂ : Pool} (h₁ : p.Later p₁) (h₂ : p₁.Later p₂) :
    p.Refused p₂ = (p.Refused p₁ ∨ p₁.Refused p₂) := by
  refine propext ⟨?_, ?_⟩
  · rintro ⟨n, hle, hlt, hrefused⟩
    by_cases hn : n < p₁.requests
    · exact .inl ⟨n, hle, hn, hrefused⟩
    · exact .inr ⟨n, Nat.not_lt.mp hn, hlt, by rw [h₁.grants, hrefused]⟩
  · rintro (⟨n, hle, hlt, hrefused⟩ | ⟨n, hle, hlt, hrefused⟩)
    · exact ⟨n, hle, Nat.lt_of_lt_of_le hlt h₂.requests, hrefused⟩
    · exact ⟨n, Nat.le_trans h₁.requests hle, hlt, by rw [← h₁.grants, hrefused]⟩

end Pool

variable {α β ι : Type}

/-- Ask for a block. -/
def alloc : Prog Pool (Option ℕ) :=
  call fun p =>
    if p.grants p.requests then
      (some p.requests, { p with requests := p.requests + 1, live := insert p.requests p.live })
    else (none, { p with requests := p.requests + 1 })

def free (b : ℕ) : Prog Pool PUnit := do
  let held ← read fun p => decide (b ∈ p.live)
  if held then call fun p => (⟨⟩, { p with live := p.live.erase b })
  else raise

/-- One block after another, up to `n` or to the first request that is refused. -/
def allocUpTo : ℕ → Prog Pool (List ℕ)
  | 0 => pure []
  | n + 1 => do
    match ← alloc with
    | none => pure []
    | some b => do
      let bs ← allocUpTo n
      pure (b :: bs)

/-- `F` stands for the blocks of others. -/
def Spec (P : Finset ℕ) (m : Prog Pool α) (Q : α → Finset ℕ → Prop → Prop) : Prop :=
  ∀ p F, p.Regular → Disjoint P F → p.live = P ∪ F →
    ∃ a p' S, exec m p = (some a, p') ∧ p.Later p' ∧ Disjoint S F ∧ p'.live = S ∪ F ∧
      Q a S (p.Refused p')

/-- What a round of a loop says if it goes on, with the blocks `P`, and if it ends the loop. -/
def Round (P : Finset ℕ) (no : Prop) (yes : β → Finset ℕ → Prop → Prop) :
    Option β → Finset ℕ → Prop → Prop
  | none, S, _ => no ∧ S = P
  | some b, S, refused => yes b S refused

/-- The result names each block that is owned once. -/
def Owns (names : α → List ℕ) (R : α → Prop → Prop) (a : α) (S : Finset ℕ) (refused : Prop) : Prop :=
  (names a).Nodup ∧ S = (names a).toFinset ∧ R a refused

lemma Owns.nil {names : α → List ℕ} {R : α → Prop → Prop} {a : α} {refused : Prop}
    (h : names a = []) (ha : R a refused) : Owns names R a ∅ refused := by
  rw [Owns, h]
  exact ⟨List.nodup_nil, rfl, ha⟩

namespace Spec

variable {P : Finset ℕ} {m : Prog Pool α} {Q R : α → Finset ℕ → Prop → Prop}

lemma pure (a : α) (h : Q a P False) : Spec P (Pure.pure a) Q :=
  fun p _ hp hdisj hlive => ⟨a, p, P, rfl, ⟨rfl, Nat.le_refl _, hp⟩, hdisj, hlive,
    p.refused_self ▸ h⟩

lemma bind {k : α → Prog Pool β} {R : β → Finset ℕ → Prop → Prop} (hm : Spec P m Q)
    (hk : ∀ a S refused, Q a S refused → Spec S (k a) fun b T refused' =>
      R b T (refused ∨ refused')) : Spec P (m >>= k) R := by
  intro p F hp hdisj hlive
  obtain ⟨a, p₁, S, hexec, hp₁, hdisj₁, hlive₁, hq⟩ := hm p F hp hdisj hlive
  obtain ⟨b, p₂, T, hexec₂, hp₂, hdisj₂, hlive₂, hr⟩ :=
    hk a S _ hq p₁ F hp₁.regular hdisj₁ hlive₁
  refine ⟨b, p₂, T, ?_, hp₁.trans hp₂, hdisj₂, hlive₂, Pool.refused_trans hp₁ hp₂ ▸ hr⟩
  rw [exec_bind, hexec]
  exact hexec₂

lemma mono (hm : Spec P m Q) (h : ∀ a S refused, Q a S refused → R a S refused) : Spec P m R := by
  intro p F hp hdisj hlive
  obtain ⟨a, p', S, hexec, hp', hdisj', hlive', hq⟩ := hm p F hp hdisj hlive
  exact ⟨a, p', S, hexec, hp', hdisj', hlive', h a S _ hq⟩

/-- A program leaves alone what it does not own. -/
lemma frame {G : Finset ℕ} (hm : Spec P m Q) (hdisj : Disjoint P G) :
    Spec (P ∪ G) m fun a S refused => ∃ T, Q a T refused ∧ Disjoint T G ∧ S = T ∪ G := by
  intro p F hp hdisjF hlive
  obtain ⟨hPF, hGF⟩ := Finset.disjoint_union_left.mp hdisjF
  obtain ⟨a, p', T, hexec, hp', hdisj', hlive', hq⟩ := hm p (G ∪ F) hp
    (Finset.disjoint_union_right.mpr ⟨hdisj, hPF⟩) (by rw [hlive, Finset.union_assoc])
  obtain ⟨hTG, hTF⟩ := Finset.disjoint_union_right.mp hdisj'
  exact ⟨a, p', T ∪ G, hexec, hp', Finset.disjoint_union_left.mpr ⟨hTF, hGF⟩,
    by rw [hlive', Finset.union_assoc], T, hq, hTG, rfl⟩

lemma ite {c : Prop} [Decidable c] {n : Prog Pool α} (hm : c → Spec P m Q)
    (hn : ¬ c → Spec P n Q) : Spec P (if c then m else n) Q := by
  split
  next h => exact hm h
  next h => exact hn h

/-- A block that is granted is a new one. -/
lemma alloc : Spec ∅ Ownership.alloc fun r S refused =>
    S = r.elim ∅ (fun b => {b}) ∧ (r = none → refused) := by
  intro p F hp _ hlive
  rw [Finset.empty_union] at hlive
  rw [Ownership.alloc, exec_call]
  split
  · refine ⟨_, _, {p.requests}, rfl, ⟨rfl, Nat.le_succ _, fun b hb => ?_⟩, ?_, ?_, rfl, nofun⟩
    · obtain rfl | hb := Finset.mem_insert.mp hb
      · exact Nat.lt_succ_self _
      · exact Nat.lt_succ_of_lt (hp b hb)
    · rw [Finset.disjoint_singleton_left, ← hlive]
      exact fun hmem => Nat.lt_irrefl _ (hp _ hmem)
    · rw [← hlive]
      rfl
  next hrefused =>
    rw [Bool.not_eq_true] at hrefused
    refine ⟨_, _, ∅, rfl, ⟨rfl, Nat.le_succ _, fun b hb => Nat.lt_succ_of_lt (hp b hb)⟩,
      Finset.disjoint_empty_left F, ?_, rfl,
      fun _ => ⟨p.requests, Nat.le_refl _, Nat.lt_succ_self _, hrefused⟩⟩
    rw [Finset.empty_union]
    exact hlive

lemma free (b : ℕ) : Spec {b} (Ownership.free b) fun _ S _ => S = ∅ := by
  intro p F hp hdisj hlive
  have hmem : b ∈ p.live := by
    rw [hlive]
    exact Finset.mem_union_left F (Finset.mem_singleton_self b)
  have hb : b ∉ F := Finset.disjoint_singleton_left.mp hdisj
  refine ⟨⟨⟩, { p with live := p.live.erase b }, ∅, ?_, ⟨rfl, Nat.le_refl _, ?_⟩,
    Finset.disjoint_empty_left F, ?_, rfl⟩
  · rw [Ownership.free, exec_bind, exec_read, decide_eq_true hmem]
    rfl
  · exact fun c hc => hp c (Finset.mem_of_mem_erase hc)
  · rw [Finset.empty_union, hlive, Finset.singleton_union, Finset.erase_insert hb]

/-- A new block beside those that are owned. -/
lemma alloc_insert (P : Finset ℕ) : Spec P Ownership.alloc fun r S refused =>
    match r with
    | none => S = P ∧ refused
    | some b => b ∉ P ∧ S = insert b P := by
  have h := alloc.frame (Finset.disjoint_empty_left P)
  rw [Finset.empty_union] at h
  refine h.mono ?_
  rintro (_ | b) S refused ⟨T, ⟨rfl, hrefused⟩, hdisj, rfl⟩
  · exact ⟨Finset.empty_union P, hrefused rfl⟩
  · exact ⟨Finset.disjoint_singleton_left.mp hdisj, rfl⟩

/-- A block that is given back is owned no longer. -/
lemma free_insert {b : ℕ} (hb : b ∉ P) :
    Spec (insert b P) (Ownership.free b) fun _ S _ => S = P := by
  refine ((free b).frame (Finset.disjoint_singleton_left.mpr hb)).mono ?_
  rintro - S - ⟨T, rfl, -, rfl⟩
  exact Finset.empty_union P

/-- What a program owns in the end beside what is left alone. -/
lemma owns_frame {names : α → List ℕ} {R : α → Prop → Prop} (hm : Spec ∅ m (Owns names R))
    (P : Finset ℕ) :
    Spec P m fun a S refused =>
      (names a).Nodup ∧ (∀ b ∈ names a, b ∉ P) ∧ S = (names a).toFinset ∪ P ∧ R a refused := by
  have h := hm.frame (Finset.disjoint_empty_left P)
  rw [Finset.empty_union] at h
  refine h.mono ?_
  rintro a S refused ⟨T, ⟨hnodup, rfl, hr⟩, hdisj, rfl⟩
  exact ⟨hnodup, fun b hb => Finset.disjoint_left.mp hdisj (List.mem_toFinset.mpr hb), rfl, hr⟩

/-- Up to the first request that is refused. -/
lemma allocUpTo (n : ℕ) : Spec ∅ (Ownership.allocUpTo n) (Owns id fun bs refused =>
    bs.length = n ∨ bs.length < n ∧ refused) := by
  induction n with
  | zero => exact pure [] (.nil rfl (.inl rfl))
  | succ n ih =>
    refine alloc.bind ?_
    rintro (_ | b) S refused ⟨rfl, hrefused⟩
    · exact pure [] (.nil rfl (.inr ⟨n.succ_pos, .inl (hrefused rfl)⟩))
    · refine (ih.owns_frame {b}).bind ?_
      rintro bs S refused' ⟨hnodup, hnew, rfl, hbs⟩
      refine pure (b :: bs) ⟨?_, ?_, hbs.imp (congrArg Nat.succ) fun ⟨hlt, hrefused'⟩ =>
        ⟨Nat.succ_lt_succ hlt, .inr (.inl hrefused')⟩⟩
      · exact List.nodup_cons.mpr ⟨fun hb => hnew b hb (Finset.mem_singleton_self b), hnodup⟩
      · exact (Finset.union_comm _ _).trans (List.toFinset_cons).symm

/-- A loop whose body owns what it did before unless it ends the loop. -/
lemma firstSome {body : ι → Prog Pool (Option β)} {no : ι → Prop}
    {yes : ι → β → Finset ℕ → Prop → Prop}
    (hbody : ∀ i, Spec P (body i) (Round P (no i) (yes i))) (l : List ι) :
    Spec P (Program.firstSome body l) (Round P (∀ i ∈ l, no i) fun b S refused =>
      ∃ pre i post r, l = pre ++ i :: post ∧ (∀ j ∈ pre, no j) ∧ (r → refused) ∧ yes i b S r) := by
  induction l with
  | nil => exact pure none ⟨nofun, rfl⟩
  | cons i l ih =>
    refine (hbody i).bind fun r S refused hr => ?_
    cases r with
    | some b => exact pure (some b) ⟨[], i, l, refused, rfl, nofun, .inl, hr⟩
    | none =>
      obtain ⟨hno, rfl⟩ := hr
      refine ih.mono fun r S refused' hr => ?_
      cases r with
      | none => exact ⟨List.forall_mem_cons.mpr ⟨hno, hr.1⟩, hr.2⟩
      | some b =>
        obtain ⟨pre, j, post, r, rfl, hpre, hr, hyes⟩ := hr
        exact ⟨i :: pre, j, post, r, rfl, List.forall_mem_cons.mpr ⟨hno, hpre⟩,
          fun h => .inr (hr h), hyes⟩

end Spec

/-- Each of the programs one after another has a result that is right for it and for its requests. -/
inductive EachRight (m : ι → Prog Pool α) (R : ι → α → Prop → Prop) :
    Pool → List ι → List α → Prop where
  | nil {p} : EachRight m R p [] []
  | cons {p p' i a is as} : exec (m i) p = (some a, p') → R i a (p.Refused p') →
    EachRight m R p' is as → EachRight m R p (i :: is) (a :: as)

/-- Programs one after another, each of which begins with nothing: what is allocated in the end is what
there was and what the results name, and no block is named twice. -/
theorem Spec.execAll {m : ι → Prog Pool α} {names : α → List ℕ} {R : ι → α → Prop → Prop}
    (hm : ∀ i, Spec ∅ (m i) (Owns names (R i))) (l : List ι) {p : Pool} (hp : p.Regular) :
    ∃ as : List α, (execAll p (l.map m)).1 = as.map some ∧ EachRight m R p l as ∧
      (as.flatMap names).Nodup ∧ Disjoint (as.flatMap names).toFinset p.live ∧
      (execAll p (l.map m)).2.live = (as.flatMap names).toFinset ∪ p.live := by
  induction l generalizing p with
  | nil =>
    exact ⟨[], rfl, .nil, List.nodup_nil, Finset.disjoint_empty_left _, (Finset.empty_union _).symm⟩
  | cons i l ih =>
    obtain ⟨a, p₁, S, hexec, hp₁, hdisj, hlive, hnodup, rfl, hr⟩ := hm i p p.live hp
      (Finset.disjoint_empty_left _) (Finset.empty_union _).symm
    obtain ⟨as, has, hall, hnodups, hdisjs, hlives⟩ := ih hp₁.regular
    rw [hlive, Finset.disjoint_union_right] at hdisjs
    obtain ⟨hnew, hold⟩ := hdisjs
    refine ⟨a :: as, ?_, .cons hexec hr hall, ?_, ?_, ?_⟩
    · simp only [List.map_cons, Program.execAll, hexec, has]
    · rw [List.flatMap_cons, List.nodup_append']
      exact ⟨hnodup, hnodups, List.disjoint_toFinset_iff_disjoint.mp hnew.symm⟩
    · rw [List.flatMap_cons, List.toFinset_append, Finset.disjoint_union_left]
      exact ⟨hdisj, hold⟩
    · simp only [List.map_cons, Program.execAll, hexec, hlives, hlive, List.flatMap_cons,
        List.toFinset_append]
      rw [← Finset.union_assoc, Finset.union_comm (as.flatMap names).toFinset]

end Ownership
