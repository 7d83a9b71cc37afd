import Bemi.Apic.Vectors

/-!
# The LVT timer

Register writes and timer ticks. The timer is started by a write of the initial count, which is where
the mask bit of the LVT register is looked at; a tick does not look at it again. So the mask holds
back the timer unless it is set while the timer runs.
-/

namespace Bemi.Apic
open Transition

inductive TimerOp where
  | write (offset value : UInt32)
  | tick
  deriving DecidableEq, Repr

inductive TimerStep (asmMsb32 : UInt32 → UInt32) : Lapic → TimerOp → Unit → Lapic → Prop where
  | write {a} (offset value : UInt32) :
    TimerStep asmMsb32 a (.write offset value) () (apicShadowWrite asmMsb32 a offset value)
  | tick {a} :
    TimerStep asmMsb32 a .tick () (apicShadowTimerTick a)

abbrev TimerEvent := Event Lapic TimerOp Unit

/-- The LVT timer register, as last written. It starts masked. -/
def lastLvt (tr : List TimerEvent) : UInt32 :=
  tr.foldl (fun lvt ev =>
    match ev.op with
    | .write offset value => if offset = 0x320 then value else lvt
    | .tick => lvt) 0x10000

/-- The mask bit of the LVT timer register. -/
def Masked (lvt : UInt32) : Prop := lvt &&& 0x10000 ≠ 0

instance (lvt : UInt32) : Decidable (Masked lvt) :=
  inferInstanceAs (Decidable (_ ≠ _))

/-- No tick under the mask adds a vector to IRR. -/
def MaskedSilent (tr : List TimerEvent) : Prop :=
  ∀ pre ev post, tr = pre ++ ev :: post → ev.op = .tick → Masked (lastLvt pre) →
    ∀ v, irr (apicShadowTimerTick ev.before).toApicShadow v = true →
      irr ev.before.toApicShadow v = true

/-- The mask is not set, together with a vector that can be injected, while the timer runs. -/
def MasksStopped (ev : TimerEvent) : Prop :=
  ∀ value, ev.op = .write 0x320 value → Masked value → value &&& 0xFF ≥ 16 →
    ev.before.gTimerEnabled = false

/-! ## Register writes and ticks -/

variable (asmMsb32 : UInt32 → UInt32)

lemma gTimerLvt_write (a : Lapic) (offset value : UInt32) :
    (apicShadowWrite asmMsb32 a offset value).gTimerLvt =
      if offset = 0x320 then value else a.gTimerLvt := by
  unfold apicShadowWrite
  by_cases hlt : offset.toNat < lapicRegsSize
  · rw [dif_pos hlt]
    dsimp only
    split_ifs <;> rfl
  · rw [dif_neg hlt, if_neg]
    rintro rfl
    exact hlt (by decide)

/-- Only a write of the initial count touches the variables of the timer. -/
lemma timer_write (a : Lapic) {offset : UInt32} (value : UInt32) (h : offset ≠ 0x380) :
    let b := apicShadowWrite asmMsb32 a offset value
    b.gTimerEnabled = a.gTimerEnabled ∧ b.gTimerCurrentCount = a.gTimerCurrentCount ∧
      b.gTimerInitialCount = a.gTimerInitialCount := by
  unfold apicShadowWrite
  by_cases hlt : offset.toNat < lapicRegsSize
  · rw [dif_pos hlt]
    dsimp only
    rw [if_neg h]
    split_ifs <;> exact ⟨rfl, rfl, rfl⟩
  · rw [dif_neg hlt]
    exact ⟨rfl, rfl, rfl⟩

lemma timer_start (a : Lapic) (value : UInt32) :
    let b := apicShadowWrite asmMsb32 a 0x380 value
    (b.gTimerEnabled = true ↔ value > 0 ∧ ¬ Masked a.gTimerLvt) ∧ b.gTimerCurrentCount = value ∧
      b.gTimerInitialCount = value := by
  refine ⟨?_, rfl, rfl⟩
  change (decide (value > 0) && decide (a.gTimerLvt &&& 0x10000 = 0)) = true ↔ _
  rw [Bool.and_eq_true, decide_eq_true_eq, decide_eq_true_eq, Masked, ne_eq, not_not]

/-- What a tick does: nothing, count down, or expire. -/
lemma tick_cases (a : Lapic) :
    ¬ (a.gTimerEnabled = true ∧ 0 < a.gTimerCurrentCount) ∧ apicShadowTimerTick a = a ∨
      (a.gTimerEnabled = true ∧ 0 < a.gTimerCurrentCount ∧ a.gTimerCurrentCount - 1 ≠ 0) ∧
        apicShadowTimerTick a = { a with gTimerCurrentCount := a.gTimerCurrentCount - 1 } ∨
      (a.gTimerEnabled = true ∧ 0 < a.gTimerCurrentCount ∧ a.gTimerCurrentCount - 1 = 0) ∧
        (apicShadowTimerTick a).toApicShadow =
          (if a.gTimerLvt &&& 0xFF ≥ 16 then
            (apicShadowInjectInterrupt a.toApicShadow (a.gTimerLvt &&& 0xFF)).1
          else a.toApicShadow) ∧
        (apicShadowTimerTick a).gTimerLvt = a.gTimerLvt ∧
        (apicShadowTimerTick a).gTimerInitialCount = a.gTimerInitialCount ∧
        ((apicShadowTimerTick a).gTimerEnabled = true →
          (apicShadowTimerTick a).gTimerCurrentCount = a.gTimerInitialCount) := by
  unfold apicShadowTimerTick
  split
  · rename_i hon
    dsimp only
    split
    · rename_i hzero
      refine .inr (.inr ⟨⟨hon.1, hon.2, hzero⟩, ?_⟩)
      split_ifs
      · exact ⟨rfl, rfl, rfl, fun _ => rfl⟩
      · exact ⟨rfl, rfl, rfl, nofun⟩
      · exact ⟨rfl, rfl, rfl, fun _ => rfl⟩
      · exact ⟨rfl, rfl, rfl, nofun⟩
    · rename_i hzero
      exact .inr (.inl ⟨⟨hon.1, hon.2, hzero⟩, rfl⟩)
  · rename_i hoff
    exact .inl ⟨hoff, rfl⟩

lemma gTimerLvt_tick (a : Lapic) : (apicShadowTimerTick a).gTimerLvt = a.gTimerLvt := by
  obtain ⟨-, h⟩ | ⟨-, h⟩ | ⟨-, -, h, -⟩ := tick_cases a
  · rw [h]
  · rw [h]
  · exact h

/-- A tick adds at most the vector of the LVT register, and only if the timer runs. -/
lemma irr_tick {a : Lapic} {v : Nat}
    (h : irr (apicShadowTimerTick a).toApicShadow v = true) :
    irr a.toApicShadow v = true ∨ a.gTimerEnabled = true ∧ a.gTimerLvt &&& 0xFF ≥ 16 := by
  obtain ⟨-, htick⟩ | ⟨-, htick⟩ | ⟨⟨hon, -, -⟩, htick, -⟩ := tick_cases a
  · rw [htick] at h
    exact .inl h
  · rw [htick] at h
    exact .inl h
  · rw [htick] at h
    split at h
    · rename_i hvec
      exact .inr ⟨hon, hvec⟩
    · exact .inl h

/-! ## Along a run -/

/-- A timer that runs has something to count. -/
def Counting (a : Lapic) : Prop :=
  a.gTimerEnabled = true → 0 < a.gTimerCurrentCount ∧ 0 < a.gTimerInitialCount

/-- A timer that runs is not masked, or has no vector that can be injected. -/
def Muted (a : Lapic) : Prop :=
  a.gTimerEnabled = true → Masked a.gTimerLvt → ¬ a.gTimerLvt &&& 0xFF ≥ 16

lemma init_stopped (apicId : UInt32) : ¬ (apicShadowInit apicId).gTimerEnabled = true :=
  Bool.false_ne_true

variable {asmMsb32} {a a' : Lapic} {op : TimerOp} {r : Unit}

lemma counting_step (st : TimerStep asmMsb32 a op r a') (h : Counting a) : Counting a' := by
  cases st with
  | write offset value =>
    by_cases hcount : offset = 0x380
    · subst hcount
      obtain ⟨hon, hcur, hinit⟩ := timer_start asmMsb32 a value
      intro hrun
      rw [hcur, hinit]
      exact ⟨(hon.mp hrun).1, (hon.mp hrun).1⟩
    · obtain ⟨hon, hcur, hinit⟩ := timer_write asmMsb32 a value hcount
      rw [Counting, hon, hcur, hinit]
      exact h
  | tick =>
    obtain ⟨-, htick⟩ | ⟨⟨hon, -, hne⟩, htick⟩ | ⟨⟨hon, -⟩, -, -, hinit, hreload⟩ := tick_cases a
    · rwa [htick]
    · rw [htick]
      exact fun _ => ⟨UInt32.pos_iff_ne_zero.mpr hne, (h hon).2⟩
    · intro hrun
      rw [hreload hrun, hinit]
      exact ⟨(h hon).2, (h hon).2⟩

lemma muted_step (st : TimerStep asmMsb32 a op r a') (h : Muted a)
    (hstop : MasksStopped ⟨a, op, r⟩) : Muted a' := by
  cases st with
  | write offset value =>
    by_cases hcount : offset = 0x380
    · subst hcount
      intro hrun hmask
      rw [gTimerLvt_write, if_neg (by decide)] at hmask
      exact absurd hmask ((timer_start asmMsb32 a value).1.mp hrun).2
    · intro hrun hmask hvec
      rw [(timer_write asmMsb32 a value hcount).1] at hrun
      rw [gTimerLvt_write] at hmask hvec
      by_cases hlvt : offset = 0x320
      · subst hlvt
        rw [if_pos rfl] at hmask hvec
        rw [hstop value rfl hmask hvec] at hrun
        cases hrun
      · rw [if_neg hlvt] at hmask hvec
        exact h hrun hmask hvec
  | tick =>
    intro hrun
    rw [gTimerLvt_tick]
    obtain ⟨-, htick⟩ | ⟨⟨hon, -⟩, -⟩ | ⟨⟨hon, -⟩, -⟩ := tick_cases a
    · rw [htick] at hrun
      exact h hrun
    · exact h hon
    · exact h hon

/-- The register as last written is the one the timer uses. -/
lemma lastLvt_run {apicId : UInt32} {tr : List TimerEvent}
    (run : Run (TimerStep asmMsb32) (apicShadowInit apicId) tr a) :
    lastLvt tr = a.gTimerLvt ∧ Counting a := by
  refine run.history (I := fun tr a => lastLvt tr = a.gTimerLvt ∧ Counting a)
    ⟨rfl, fun hon => absurd hon (init_stopped apicId)⟩ ?_
  rintro tr s op r s' ⟨hlvt, hcount⟩ st
  refine ⟨?_, counting_step st hcount⟩
  rw [lastLvt, List.foldl_append]
  change (match op with
    | .write offset value => if offset = 0x320 then value else lastLvt tr
    | .tick => lastLvt tr) = _
  rw [hlvt]
  cases st with
  | write offset value => exact (gTimerLvt_write asmMsb32 s offset value).symm
  | tick => exact (gTimerLvt_tick s).symm

/-- Runs in which the mask is set on a stopped timer only are silent under the mask. -/
lemma maskedSilent_of_stopped {apicId : UInt32} {tr : List TimerEvent}
    (run : Run (TimerStep asmMsb32) (apicShadowInit apicId) tr a)
    (h : ∀ ev ∈ tr, MasksStopped ev) : MaskedSilent tr := by
  intro pre ev post hsplit _ hmask v hv
  obtain ⟨hrun, -⟩ := run.split hsplit
  have hmuted : Muted ev.before := hrun.guarded (C := MasksStopped)
    (fun hon => absurd hon (init_stopped apicId)) (fun _ _ _ _ hs st hc => muted_step st hs hc)
    fun e he => h e (by simp [hsplit, he])
  rw [(lastLvt_run hrun).1] at hmask
  obtain hv | ⟨hon, hvec⟩ := irr_tick hv
  · exact hv
  · exact absurd hvec (hmuted hon hmask)

/-! ## Masking a timer that runs -/

/-- A register of IRR can be cleared by a write that leaves the timer alone. -/
lemma write_clears {v : Nat} (hv : v < 256) :
    ∃ offset : UInt32, offset ≠ 0x320 ∧ offset ≠ 0x380 ∧
      ∀ a, irr (apicShadowWrite asmMsb32 a offset 0).toApicShadow v = false := by
  obtain ⟨i, hi⟩ : ∃ i : Fin 8, v / 32 = i := ⟨⟨v / 32, by omega⟩, rfl⟩
  have hoffset : ∀ i : Fin 8, (UInt32.ofNat (0x200 + i * 16)).toNat = 0x200 + i * 16 := by decide
  have hne {k : UInt32} (hk : k.toNat < 0x200 ∨ 0x300 ≤ k.toNat) :
      UInt32.ofNat (0x200 + i * 16) ≠ k := by
    rintro rfl
    rw [hoffset] at hk
    omega
  refine ⟨UInt32.ofNat (0x200 + i * 16), hne (by decide), hne (by decide), fun a => ?_⟩
  have hlt : (UInt32.ofNat (0x200 + i * 16)).toNat < lapicRegsSize := by
    rw [hoffset]
    change _ < 0x400
    omega
  have hreg : ∀ h, (⟨(UInt32.ofNat (0x200 + i * 16)).toNat / 4, h⟩ : Fin (lapicRegsSize / 4)) =
      irrReg i := fun _ => Fin.ext (congrArg (· / 4) (hoffset i))
  unfold apicShadowWrite
  rw [dif_pos hlt]
  dsimp only
  rw [if_neg (hne (by decide)), if_neg (hne (by decide)), if_neg (hne (by decide)), hreg, irr,
    vectorSet_update irrReg_injective, if_pos hi]
  exact Nat.zero_testBit _

/-- A timer that runs counts down to one. -/
lemma count_down {s₀ : Lapic} {tr : List TimerEvent} (run : Run (TimerStep asmMsb32) s₀ tr a)
    (hon : a.gTimerEnabled = true) {n : Nat} (hcount : a.gTimerCurrentCount.toNat = n + 1) :
    ∃ tr' b, (∀ ev ∈ tr', ev.op = .tick) ∧ Run (TimerStep asmMsb32) s₀ (tr ++ tr') b ∧
      b.gTimerEnabled = true ∧ b.gTimerCurrentCount = 1 ∧ b.gTimerLvt = a.gTimerLvt ∧
      b.toApicShadow = a.toApicShadow := by
  induction n generalizing a tr with
  | zero =>
    refine ⟨[], a, nofun, by rwa [List.append_nil], hon, ?_, rfl, rfl⟩
    exact UInt32.toNat_inj.mp hcount
  | succ n ih =>
    have hsub : (a.gTimerCurrentCount - 1).toNat = n + 1 := by
      rw [UInt32.toNat_sub]
      simp only [UInt32.reduceToNat]
      have := a.gTimerCurrentCount.toNat_lt
      omega
    have hne : a.gTimerCurrentCount - 1 ≠ 0 := fun h => by
      rw [h] at hsub
      cases hsub
    have hpos : 0 < a.gTimerCurrentCount :=
      UInt32.lt_iff_toNat_lt.mpr (hcount ▸ Nat.succ_pos _)
    obtain ⟨hoff, -⟩ | ⟨-, htick⟩ | ⟨⟨-, -, hzero⟩, -⟩ := tick_cases a
    · exact absurd ⟨hon, hpos⟩ hoff
    · have run₁ := run.snoc .tick
      rw [htick] at run₁
      obtain ⟨tr', b, hticks, run', hb⟩ := ih run₁ hon hsub
      rw [List.append_assoc] at run'
      exact ⟨_, b, List.forall_mem_cons.mpr ⟨rfl, hticks⟩, run', hb⟩
    · exact absurd hzero hne

lemma vector_lt (lvt : UInt32) : (lvt &&& 0xFF).toNat < 256 := by
  rw [UInt32.toNat_and]
  exact Nat.lt_of_le_of_lt Nat.and_le_right (by decide)

/-- The last tick of the count injects the vector. -/
lemma irr_expire (hon : a.gTimerEnabled = true) (hcount : a.gTimerCurrentCount = 1)
    (hvec : a.gTimerLvt &&& 0xFF ≥ 16) :
    irr (apicShadowTimerTick a).toApicShadow (a.gTimerLvt &&& 0xFF).toNat = true := by
  obtain ⟨hoff, -⟩ | ⟨⟨-, -, hne⟩, -⟩ | ⟨-, htick, -⟩ := tick_cases a
  · exact absurd ⟨hon, hcount ▸ by decide⟩ hoff
  · rw [hcount] at hne
    exact absurd rfl hne
  · rw [htick, if_pos hvec, irr_inject, decide_eq_true ⟨rfl, vector_lt _⟩, Bool.or_true]

/-- A masked timer that runs can fire: clear the vector from IRR and let it count down. -/
lemma masked_fires {apicId : UInt32} {tr : List TimerEvent}
    (run : Run (TimerStep asmMsb32) (apicShadowInit apicId) tr a) (hon : a.gTimerEnabled = true)
    (hmask : Masked a.gTimerLvt) (hvec : a.gTimerLvt &&& 0xFF ≥ 16) :
    ∃ tr' b, (∀ ev ∈ tr', ∀ value, ev.op ≠ .write 0x320 value) ∧
      Run (TimerStep asmMsb32) (apicShadowInit apicId) (tr ++ tr') b ∧
      ¬ MaskedSilent (tr ++ tr') := by
  obtain ⟨offset, hlvt, hinit, hclear⟩ :=
    @write_clears asmMsb32 _ (vector_lt a.gTimerLvt)
  have run₁ := run.snoc (.write offset 0)
  have hclear := hclear a
  have hlvt₁ := gTimerLvt_write asmMsb32 a offset 0
  rw [if_neg hlvt] at hlvt₁
  obtain ⟨hon₁, hcount₁, -⟩ := timer_write asmMsb32 a 0 hinit
  have hpos := UInt32.lt_iff_toNat_lt.mp ((lastLvt_run run).2 hon).1
  obtain ⟨n, hn⟩ := Nat.exists_eq_add_of_lt hpos
  obtain ⟨tr', b, hticks, run', hon', hcount', hlvt', hregs⟩ :=
    count_down run₁ (hon₁.trans hon) (n := n) (by rw [hcount₁, hn]; simp)
  rw [hlvt₁] at hlvt'
  rw [List.append_assoc] at run'
  have hlast := (lastLvt_run run').1
  have hfinal := run'.snoc .tick
  rw [List.append_assoc] at hfinal
  refine ⟨_, _, ?_, hfinal, fun hsilent => ?_⟩
  · rw [List.forall_mem_append, List.forall_mem_append]
    refine ⟨⟨List.forall_mem_singleton.mpr fun value hop => ?_, fun ev hev value hop => ?_⟩,
      List.forall_mem_singleton.mpr nofun⟩
    · exact hlvt (TimerOp.write.inj hop).1
    · rw [hticks ev hev] at hop
      cases hop
  · rw [← List.append_assoc] at hsilent
    have hadded := hsilent _ _ [] rfl rfl (by rwa [hlast, hlvt']) _
      (irr_expire hon' hcount' (hlvt'.symm ▸ hvec))
    rw [hregs, hlvt'] at hadded
    exact absurd hadded (Bool.eq_false_iff.mp hclear)

/-- In a run, and in whatever follows a part of it without a further write to the LVT register, no
tick under the mask adds a vector to IRR, exactly when the mask is only set while the timer is
stopped. -/
theorem masked_silent_iff (apicId : UInt32) {tr : List TimerEvent}
    (run : Run (TimerStep asmMsb32) (apicShadowInit apicId) tr a) :
    (∀ pre, pre <+: tr → ∀ tr' b, (∀ ev ∈ tr', ∀ value, ev.op ≠ .write 0x320 value) →
        Run (TimerStep asmMsb32) (apicShadowInit apicId) (pre ++ tr') b →
        MaskedSilent (pre ++ tr')) ↔
      ∀ ev ∈ tr, MasksStopped ev := by
  constructor
  · rintro h ⟨s, op, r⟩ hev value rfl hmask hvec
    obtain ⟨pre, post, hsplit⟩ := List.append_of_mem hev
    obtain ⟨hrun, s', st⟩ := run.split hsplit
    by_contra hoff
    have hon : s.gTimerEnabled = true := Bool.eq_true_of_not_eq_false hoff
    have hlvt := gTimerLvt_write asmMsb32 s 0x320 value
    rw [if_pos rfl] at hlvt
    have hne : (0x320 : UInt32) ≠ 0x380 := by decide
    rw [← (timer_write asmMsb32 s value hne).1] at hon
    rw [← hlvt] at hmask hvec
    obtain ⟨tr', b, hfree, run', hfires⟩ :=
      masked_fires (hrun.snoc (.write 0x320 value)) hon hmask hvec
    have hprefix : pre ++ [⟨s, .write 0x320 value, r⟩] <+: tr :=
      ⟨post, by rw [hsplit, List.append_assoc, List.singleton_append]⟩
    exact hfires (h _ hprefix tr' b hfree run')
  · rintro h pre ⟨post, rfl⟩ tr' b hfree run'
    refine maskedSilent_of_stopped run' fun ev hev => ?_
    rcases List.mem_append.mp hev with hev | hev
    · exact h ev (List.mem_append_left _ hev)
    · exact fun value hop => absurd hop (hfree ev hev value)

/-- The usual order: the LVT register, the initial count, then ticks. -/
theorem masked_silent_iff_started :
    ∃ tr a, Run (TimerStep leadingZeros) (apicShadowInit 0) tr a ∧
      tr.map Event.op = [.write 0x320 0x30, .write 0x380 1, .tick, .write 0x320 0x10030, .tick] ∧
      ∀ pre, pre <+: tr → ∀ tr' b, (∀ ev ∈ tr', ∀ value, ev.op ≠ .write 0x320 value) →
        Run (TimerStep leadingZeros) (apicShadowInit 0) (pre ++ tr') b →
        MaskedSilent (pre ++ tr') := by
  have hrun := @Run.nil _ _ _ (TimerStep leadingZeros) (apicShadowInit 0)
    |>.snoc (.write 0x320 0x30) |>.snoc (.write 0x380 1) |>.snoc .tick
    |>.snoc (.write 0x320 0x10030) |>.snoc .tick
  refine ⟨_, _, hrun, rfl, (masked_silent_iff 0 hrun).mpr ?_⟩
  simp only [forall_mem_snoc]
  refine ⟨⟨⟨⟨⟨nofun, ?_⟩, nofun⟩, nofun⟩, ?_⟩, nofun⟩
  · rintro value ⟨⟩ hmask
    exact absurd hmask (by decide)
  · exact fun value _ _ _ => rfl

/-- A timer started unmasked, then masked, still fires. -/
theorem masked_silent_not :
    ¬ ∀ asmMsb32 apicId tr a, Run (TimerStep asmMsb32) (apicShadowInit apicId) tr a →
      MaskedSilent tr := by
  intro h
  have hrun := @Run.nil _ _ _ (TimerStep leadingZeros) (apicShadowInit 0)
    |>.snoc (.write 0x320 0x30) |>.snoc (.write 0x380 1) |>.snoc (.write 0x320 0x10030)
    |>.snoc .tick
  have hsilent := h leadingZeros 0 _ _ hrun _ _ [] rfl rfl (by decide) 0x30 (by decide)
  exact absurd hsilent (by decide)

end Bemi.Apic
