import Bemi.Dbt.Emitted

/-!
# Instructions that do not fit

What a sequence of emitter calls leaves when the buffer runs full. The capacity is checked for each
byte, so an instruction whose first bytes still fit is cut off. Every emitter is a fold of `emit_u8`
over the bytes of its instruction: on a full buffer it does nothing, and anywhere else it writes.
-/

namespace Bemi.Dbt
open Stream CodeBuffer

/-! ## One call -/

lemma foldl_emitU8_full (bs : List UInt8) {buf : CodeBuffer} (h : buf.len = maxCodeSize) :
    bs.foldl CodeBuffer.emitU8 buf = buf := by
  induction bs with
  | nil => rfl
  | cons b bs ih =>
    have hfull : buf.emitU8 b = buf := dif_neg (by omega)
    rw [List.foldl_cons, hfull, ih]

/-- A full buffer is left alone. -/
lemma Call.emit_full (c : Call) {buf : CodeBuffer} (h : buf.len = maxCodeSize) :
    c.emit buf = buf := by
  obtain ⟨bs, hbs, -, -⟩ := c.folds
  exact (hbs buf).trans (foldl_emitU8_full bs h)

lemma Call.content_emit_fits (c : Call) {buf : CodeBuffer}
    (h : buf.len + c.bytes.length ≤ maxCodeSize) :
    (c.emit buf).content = buf.content ++ c.bytes := by
  rw [c.emits.1 buf, List.take_of_length_le]
  rwa [List.length_append, length_content]

/-- Anywhere but on a full buffer a call writes at least one byte. -/
lemma Call.emit_ne (c : Call) {buf : CodeBuffer} (h : buf.len < maxCodeSize) : c.emit buf ≠ buf := by
  intro heq
  have hpos : 0 < c.bytes.length := List.length_pos_of_ne_nil c.emits.2
  have hcontent : (c.emit buf).content = (buf.content ++ c.bytes).take maxCodeSize := c.emits.1 buf
  have hlen := congrArg List.length hcontent
  rw [heq, List.length_take, List.length_append, length_content] at hlen
  omega

/-! ## Runs -/

/-- A call fits the rest of the buffer, or the buffer is full. -/
def FitsOrFull (buf : CodeBuffer) (c : Call) : Prop :=
  buf.len + c.bytes.length ≤ maxCodeSize ∨ buf.len = maxCodeSize

/-- A call that does not fit changes nothing. -/
def AllOrNothing (buf : CodeBuffer) (c : Call) : Prop :=
  maxCodeSize < buf.len + c.bytes.length → c.emit buf = buf

lemma allOrNothing_iff (buf : CodeBuffer) (c : Call) : AllOrNothing buf c ↔ FitsOrFull buf c := by
  have hle := buf.len_le
  constructor
  · intro h
    by_cases hfits : buf.len + c.bytes.length ≤ maxCodeSize
    · exact .inl hfits
    · refine .inr (Nat.le_antisymm hle (Nat.le_of_not_lt fun hlt => c.emit_ne hlt ?_))
      exact h (Nat.lt_of_not_le hfits)
  · intro h hlt
    cases h with
    | inl hfits => exact absurd hfits (Nat.not_le.mpr hlt)
    | inr hfull => exact c.emit_full hfull

lemma emitAll_concat (calls : List Call) (c : Call) :
    emitAll (calls ++ [c]) = c.emit (emitAll calls) := by
  rw [emitAll, emitAll, List.foldl_append]
  rfl

/-- The content of a buffer is the encodings of the first of its calls, of all of them unless it is
full. -/
def Whole (calls : List Call) : Prop :=
  ∃ done, done <+: calls ∧ (emitAll calls).content = done.flatMap Call.bytes ∧
    ((emitAll calls).len < maxCodeSize → done = calls)

lemma whole_concat {calls : List Call} {c : Call} (h : Whole calls)
    (hc : FitsOrFull (emitAll calls) c) : Whole (calls ++ [c]) := by
  obtain ⟨done, hprefix, hcontent, hdone⟩ := h
  have hle := (emitAll calls).len_le
  have hpos : 0 < c.bytes.length := List.length_pos_of_ne_nil c.emits.2
  rw [Whole, emitAll_concat]
  obtain hfull | hroom := Nat.eq_or_lt_of_le hle
  · refine ⟨done, hprefix.trans (List.prefix_append calls [c]), ?_, ?_⟩
    · rw [c.emit_full hfull, hcontent]
    · rw [c.emit_full hfull]
      intro hlt
      omega
  · have hfits : (emitAll calls).len + c.bytes.length ≤ maxCodeSize :=
      hc.resolve_right (Nat.ne_of_lt hroom)
    refine ⟨calls ++ [c], List.prefix_rfl, ?_, fun _ => rfl⟩
    rw [c.content_emit_fits hfits, hcontent, hdone hroom, List.flatMap_append,
      List.flatMap_singleton]

/-- If every call of a run fits or finds a full buffer, no instruction is torn. -/
lemma whole_of_fitsOrFull (calls : List Call)
    (h : ∀ p c, p ++ [c] <+: calls → FitsOrFull (emitAll p) c) : Whole calls := by
  induction calls using List.reverseRecOn with
  | nil => exact ⟨[], List.prefix_rfl, rfl, fun _ => rfl⟩
  | append_singleton calls c ih =>
    apply whole_concat
    · exact ih fun p d hp => h p d (hp.trans (List.prefix_append calls [c]))
    · exact h calls c List.prefix_rfl

/-- In a run of emitter calls every call that does not fit leaves the buffer alone and the content
stays a concatenation of complete encodings, if and only if every call finds room for its whole
encoding or a full buffer. -/
theorem emitAll_whole_iff (calls : List Call) :
    ((∀ p c, p ++ [c] <+: calls → AllOrNothing (emitAll p) c) ∧
        ∀ p, p <+: calls → ∃ done, done <+: p ∧ (emitAll p).content = done.flatMap Call.bytes) ↔
      ∀ p c, p ++ [c] <+: calls → FitsOrFull (emitAll p) c := by
  constructor
  · intro h p c hp
    exact (allOrNothing_iff _ c).mp (h.1 p c hp)
  · intro h
    refine ⟨fun p c hp => (allOrNothing_iff _ c).mpr (h p c hp), fun p hp => ?_⟩
    obtain ⟨done, hprefix, hcontent, -⟩ :=
      whole_of_fitsOrFull p fun q c hq => h q c (hq.trans hp)
    exact ⟨done, hprefix, hcontent⟩

lemma len_nops {n : ℕ} (h : n ≤ maxCodeSize) : (emitAll (List.replicate n .nop)).len = n := by
  have hnop : Call.nop.bytes = [0x90] := (Folds.emitU8 0x90).emits.content_new (by decide)
  have hbytes : (List.replicate n Call.nop).flatMap Call.bytes = List.replicate n 0x90 := by
    rw [List.flatMap_replicate, hnop, List.flatten_replicate_singleton]
  rw [← length_content, content_emitAll, hbytes, List.length_replicate]
  rwa [hbytes, List.length_replicate]

/-- After 4095 NOPs the first byte of a MOV still fits. -/
theorem emitAll_whole_not : ¬ ∀ calls : List Call,
    (∀ p c, p ++ [c] <+: calls → AllOrNothing (emitAll p) c) ∧
      ∀ p, p <+: calls → ∃ done, done <+: p ∧ (emitAll p).content = done.flatMap Call.bytes := by
  intro h
  have hlen : (emitAll (List.replicate 4095 .nop)).len = 4095 := len_nops (by decide)
  have hmov : (Call.movRI .rax 0).bytes.length = 10 :=
    congrArg List.length ((Folds.emitMovRI .rax 0).emits.content_new (by decide))
  have hnothing := (h (List.replicate 4095 .nop ++ [.movRI .rax 0])).1 _ _ List.prefix_rfl
  have hlt : (emitAll (List.replicate 4095 .nop)).len < maxCodeSize := by
    rw [hlen]
    decide
  apply Call.emit_ne _ hlt
  apply hnothing
  rw [hlen, hmov]
  decide

end Bemi.Dbt
