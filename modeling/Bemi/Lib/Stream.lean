import Mathlib.Tactic.Common
import Mathlib.Algebra.GroupWithZero.Nat

/-!
# Streams of variable-length items

A decoder reads one item off the front of a stream of symbols and says how many symbols it took;
what it reads may depend on the position. `decodeAll` reads items to the end of the stream. A stream
put together from chunks that the decoder reads one by one is decoded to the items of the chunks
(`decodeAll_flatMap`). Numbers are laid down in a stream as little-endian bytes (`leBytes`).
-/

namespace Stream

/-- Reads an item at a position: the item and the number of symbols it takes. -/
abbrev Decoder (β ι : Type*) := Nat → List β → Option (ι × Nat)

variable {β ι κ : Type*}

/-- Read items until the stream is empty; `fuel` bounds their number. -/
def decodeAll (decode : Decoder β ι) : Nat → Nat → List β → Option (List ι)
  | _, _, [] => some []
  | 0, _, _ :: _ => none
  | fuel + 1, pos, b :: bs =>
    match decode pos (b :: bs) with
    | none => none
    | some (item, n) => (decodeAll decode fuel (pos + n) ((b :: bs).drop n)).map (item :: ·)

/-- Wherever a chunk stands among the others, the decoder reads its item and just its symbols. -/
def Reads (decode : Decoder β ι) (chunk : κ → List β) (item : κ → ι) : Nat → List κ → Prop
  | _, [] => True
  | pos, k :: ks =>
    (chunk k ≠ [] ∧ ∀ rest, decode pos (chunk k ++ rest) = some (item k, (chunk k).length)) ∧
      Reads decode chunk item (pos + (chunk k).length) ks

/-- Chunks that are read alike wherever they stand. -/
lemma Reads.of_forall {decode : Decoder β ι} {chunk : κ → List β} {item : κ → ι} {ks : List κ}
    (h : ∀ k ∈ ks, chunk k ≠ [] ∧
      ∀ pos rest, decode pos (chunk k ++ rest) = some (item k, (chunk k).length)) (pos : Nat) :
    Reads decode chunk item pos ks := by
  induction ks generalizing pos with
  | nil => exact trivial
  | cons k ks ih =>
    obtain ⟨hne, hread⟩ := h k List.mem_cons_self
    exact ⟨⟨hne, hread pos⟩, ih (fun k hk => h k (List.mem_cons_of_mem _ hk)) _⟩

/-- Decoding takes off one chunk. -/
lemma decodeAll_append {decode : Decoder β ι} {fuel pos : Nat} {bs rest : List β} {i : ι}
    (hne : bs ≠ []) (h : decode pos (bs ++ rest) = some (i, bs.length)) :
    decodeAll decode (fuel + 1) pos (bs ++ rest) =
      (decodeAll decode fuel (pos + bs.length) rest).map (i :: ·) := by
  cases bs with
  | nil => exact absurd rfl hne
  | cons b bs =>
    rw [List.cons_append] at h ⊢
    rw [decodeAll, h]
    simp

/-- A concatenation of chunks is decoded to their items. -/
theorem decodeAll_flatMap {decode : Decoder β ι} {chunk : κ → List β} {item : κ → ι}
    {pos fuel : Nat} {ks : List κ} (h : Reads decode chunk item pos ks)
    (hfuel : (ks.flatMap chunk).length ≤ fuel) :
    decodeAll decode fuel pos (ks.flatMap chunk) = some (ks.map item) := by
  induction ks generalizing pos fuel with
  | nil => cases fuel <;> rfl
  | cons k ks ih =>
    obtain ⟨⟨hne, hk⟩, hks⟩ := h
    have hpos := List.length_pos_iff.mpr hne
    rw [List.flatMap_cons, List.length_append] at hfuel
    cases fuel with
    | zero => omega
    | succ fuel =>
      rw [List.flatMap_cons, decodeAll_append hne (hk _), ih hks (by omega)]
      rfl

/-! ### Little-endian numbers -/

/-- The `n` low bytes of a number, least significant byte first. -/
def leBytes : Nat → Nat → List UInt8
  | 0, _ => []
  | n + 1, v => UInt8.ofNat v :: leBytes n (v / 256)

/-- The number that a list of bytes stands for, least significant byte first. -/
def leNumber : List UInt8 → Nat
  | [] => 0
  | b :: bs => b.toNat + 256 * leNumber bs

@[simp] lemma length_leBytes (n v : Nat) : (leBytes n v).length = n := by
  induction n generalizing v with
  | zero => rfl
  | succ n ih => rw [leBytes, List.length_cons, ih]

lemma leNumber_leBytes (n v : Nat) : leNumber (leBytes n v) = v % 256 ^ n := by
  induction n generalizing v with
  | zero => rw [leBytes, leNumber, Nat.pow_zero, Nat.mod_one]
  | succ n ih =>
    have hlow : (UInt8.ofNat v).toNat = v % 256 := UInt8.toNat_ofNat'
    rw [leBytes, leNumber, ih, hlow, Nat.pow_succ, Nat.mul_comm (256 ^ n), Nat.mod_mul]

/-- The number in the first `n` bytes of a stream that has that many. -/
def leTake (n : Nat) (bs : List UInt8) : Option Nat :=
  if n ≤ bs.length then some (leNumber (bs.take n)) else none

lemma leTake_leBytes {n v : Nat} (h : v < 256 ^ n) (rest : List UInt8) :
    leTake n (leBytes n v ++ rest) = some v := by
  have hlen : n ≤ (leBytes n v ++ rest).length := by simp
  rw [leTake, if_pos hlen, List.take_left' (length_leBytes n v), leNumber_leBytes,
    Nat.mod_eq_of_lt h]

end Stream
