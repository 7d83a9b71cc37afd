import Bemi.Apic.Timer
import Bemi.Lib.Countdown

/-!
# The timer on schedule

The timer counts the ticks since the initial count was written. It is `Countdown` with that count as
its period; without the periodic bit it stops when nothing is left for the first time. The ticks are
those of `Registers`, with a log of the interrupts that they inject.
-/

namespace Bemi.Apic

/-- `apicShadowTimerTick`, and the vectors with which it calls `apicShadowInjectInterrupt`. -/
def timerTickCalls (a : Lapic) : Lapic × List UInt32 :=
  if a.gTimerEnabled ∧ a.gTimerCurrentCount > 0 then
    let a := { a with gTimerCurrentCount := a.gTimerCurrentCount - 1 }
    if a.gTimerCurrentCount = 0 then
      let vector := a.gTimerLvt &&& 0xFF
      let (a, calls) :=
        if vector ≥ 16 then
          ({ a with toApicShadow := (apicShadowInjectInterrupt a.toApicShadow vector).1 }, [vector])
        else (a, [])
      -- periodic or one-shot
      if a.gTimerLvt &&& 0x20000 ≠ 0 then
        ({ a with gTimerCurrentCount := a.gTimerInitialCount }, calls)
      else ({ a with gTimerEnabled := false }, calls)
    else (a, [])
  else (a, [])

/-- Some ticks. A call is logged with the number of its tick, the first one being `1`. -/
def timerTicks : Nat → Lapic → Lapic × List (Nat × UInt32)
  | 0, a => (a, [])
  | k + 1, a =>
    let (a, log) := timerTicks k a
    let (a, calls) := timerTickCalls a
    (a, log ++ calls.map fun vector => (k + 1, vector))

/-- The periodic bit of the LVT timer register. -/
def Periodic (lvt : UInt32) : Prop := lvt &&& 0x20000 ≠ 0

instance decidablePeriodic (lvt : UInt32) : Decidable (Periodic lvt) :=
  inferInstanceAs (Decidable (_ ≠ _))

/-- The ticks at which the timer is due, of the first `k`. -/
def due (lvt count : UInt32) (k : Nat) : List Nat :=
  if Periodic lvt then Countdown.fires count.toNat k else (Countdown.fires count.toNat k).take 1

/-- The state of a timer that was started `k` ticks ago. -/
structure OnSchedule (lvt count : UInt32) (k : Nat) (a : Lapic) : Prop where
  register : a.gTimerLvt = lvt
  initial : a.gTimerInitialCount = count
  running : Periodic lvt ∨ k < count.toNat →
    a.gTimerEnabled = true ∧ a.gTimerCurrentCount.toNat = Countdown.left count.toNat k
  stopped : ¬ Periodic lvt → count.toNat ≤ k → a.gTimerEnabled = false

/-! ## The log -/

/-- The log changes nothing. -/
lemma timerTickCalls_fst (a : Lapic) : (timerTickCalls a).1 = apicShadowTimerTick a := by
  unfold timerTickCalls apicShadowTimerTick
  dsimp only
  split_ifs <;> rfl

lemma timerTicks_fst (k : Nat) (a : Lapic) :
    (timerTicks k a).1 = apicShadowTimerTick^[k] a := by
  induction k with
  | zero => rfl
  | succ k ih =>
    rw [Function.iterate_succ_apply', ← ih]
    exact timerTickCalls_fst _

variable {a : Lapic}

/-- A timer that is stopped stays so. -/
lemma timerTickCalls_stopped (h : a.gTimerEnabled = false) : timerTickCalls a = (a, []) := by
  rw [timerTickCalls, if_neg]
  rw [h]
  exact fun hon => Bool.false_ne_true hon.1

/-- With more than one left a tick only counts. -/
lemma timerTickCalls_counts (hon : a.gTimerEnabled = true) (h : 1 < a.gTimerCurrentCount.toNat) :
    timerTickCalls a = ({ a with gTimerCurrentCount := a.gTimerCurrentCount - 1 }, []) ∧
      (a.gTimerCurrentCount - 1).toNat = a.gTimerCurrentCount.toNat - 1 := by
  have hsub : (a.gTimerCurrentCount - 1).toNat = a.gTimerCurrentCount.toNat - 1 :=
    UInt32.toNat_sub_of_le _ _ (UInt32.le_iff_toNat_le.mpr (Nat.le_of_lt h))
  have hpos : a.gTimerCurrentCount > 0 :=
    UInt32.lt_iff_toNat_lt.mpr (Nat.lt_trans Nat.zero_lt_one h)
  have hne : a.gTimerCurrentCount - 1 ≠ 0 := by
    intro hzero
    rw [hzero] at hsub
    change 0 = _ at hsub
    omega
  refine ⟨?_, hsub⟩
  rw [timerTickCalls, if_pos ⟨hon, hpos⟩]
  exact if_neg hne

/-- With one left it injects, and starts again or stops. -/
lemma timerTickCalls_expires (hon : a.gTimerEnabled = true) (h : a.gTimerCurrentCount.toNat = 1)
    (hvec : a.gTimerLvt &&& 0xFF ≥ 16) :
    (timerTickCalls a).2 = [a.gTimerLvt &&& 0xFF] ∧
      (timerTickCalls a).1.gTimerLvt = a.gTimerLvt ∧
      (timerTickCalls a).1.gTimerInitialCount = a.gTimerInitialCount ∧
      (Periodic a.gTimerLvt → (timerTickCalls a).1.gTimerEnabled = true ∧
        (timerTickCalls a).1.gTimerCurrentCount = a.gTimerInitialCount) ∧
      (¬ Periodic a.gTimerLvt → (timerTickCalls a).1.gTimerEnabled = false) := by
  have hcount : a.gTimerCurrentCount = 1 := UInt32.toNat_inj.mp h
  rw [timerTickCalls, if_pos ⟨hon, hcount ▸ by decide⟩]
  dsimp only
  rw [if_pos (by rw [hcount]; rfl), if_pos hvec]
  dsimp only
  by_cases hperiodic : Periodic a.gTimerLvt
  · have hbit : a.gTimerLvt &&& 0x20000 ≠ 0 := hperiodic
    rw [if_pos hbit]
    exact ⟨rfl, rfl, rfl, fun _ => ⟨hon, rfl⟩, absurd hperiodic⟩
  · have hbit : ¬ a.gTimerLvt &&& 0x20000 ≠ 0 := hperiodic
    rw [if_neg hbit]
    exact ⟨rfl, rfl, rfl, fun h => absurd h hperiodic, fun _ => rfl⟩

/-! ## The schedule -/

variable {lvt count : UInt32} {k : Nat}

lemma due_of_not_dvd (h : ¬ count.toNat ∣ k + 1) : due lvt count (k + 1) = due lvt count k := by
  rw [due, due, Countdown.fires_of_not_dvd h]

/-- A timer that has not stopped is due when its period divides the number of the tick. -/
lemma due_of_dvd (hrun : Periodic lvt ∨ k < count.toNat) (h : count.toNat ∣ k + 1) :
    due lvt count (k + 1) = due lvt count k ++ [k + 1] := by
  rw [due, due, Countdown.fires_of_dvd h]
  split
  · rfl
  · rename_i hshot
    rw [Countdown.fires_of_lt (hrun.resolve_left hshot)]
    rfl

/-- A timer that has stopped is not due again. -/
lemma due_of_stopped (hcount : 0 < count.toNat) (hshot : ¬ Periodic lvt) (h : count.toNat ≤ k) :
    due lvt count (k + 1) = due lvt count k := by
  have hone : 1 ≤ k / count.toNat := Nat.div_pos h hcount
  have hone' : 1 ≤ (k + 1) / count.toNat := Nat.div_pos (Nat.le_succ_of_le h) hcount
  rw [due, due, if_neg hshot, if_neg hshot, Countdown.take_fires, Countdown.take_fires,
    Nat.min_eq_left hone, Nat.min_eq_left hone']

/-- One tick keeps the timer on schedule: it injects the vector if it is due. -/
lemma onSchedule_tick (hcount : 0 < count.toNat) (hvec : lvt &&& 0xFF ≥ 16)
    (h : OnSchedule lvt count k a) :
    OnSchedule lvt count (k + 1) (timerTickCalls a).1 ∧
      (due lvt count (k + 1)).map (·, lvt &&& 0xFF) =
        (due lvt count k).map (·, lvt &&& 0xFF) ++
          (timerTickCalls a).2.map fun vector => (k + 1, vector) := by
  by_cases hrun : Periodic lvt ∨ k < count.toNat
  · obtain ⟨hon, hleft⟩ := h.running hrun
    by_cases hdvd : count.toNat ∣ k + 1
    · -- nothing is left
      obtain ⟨hone, hagain⟩ := Countdown.left_of_dvd hcount hdvd
      obtain ⟨hcalls, hregister, hinitial, hperiodic, hshot⟩ :=
        timerTickCalls_expires hon (hleft.trans hone) (h.register ▸ hvec)
      rw [h.register] at hcalls hregister hperiodic hshot
      rw [h.initial] at hinitial hperiodic
      refine ⟨⟨hregister, hinitial, fun hrun' => ?_, fun hnot _ => hshot hnot⟩, ?_⟩
      · rcases hrun' with hyes | hlt
        · exact ⟨(hperiodic hyes).1, (congrArg _ (hperiodic hyes).2).trans hagain.symm⟩
        · exact absurd (Nat.le_of_dvd (Nat.succ_pos k) hdvd) (Nat.not_le.mpr hlt)
      · rw [due_of_dvd hrun hdvd, hcalls, List.map_append]
        rfl
    · -- one less is left
      obtain ⟨hmore, hnext⟩ := Countdown.left_of_not_dvd hcount hdvd
      obtain ⟨htick, hsub⟩ := timerTickCalls_counts hon (hleft ▸ hmore)
      rw [htick, due_of_not_dvd hdvd]
      refine ⟨⟨h.register, h.initial, fun _ => ⟨hon, ?_⟩, fun hshot hle => ?_⟩,
        (List.append_nil _).symm⟩
      · exact hsub.trans (by rw [hleft, hnext])
      · have hlt := hrun.resolve_left hshot
        exact absurd (dvd_of_eq (Nat.le_antisymm hle hlt)) hdvd
  · -- it has stopped
    obtain ⟨hshot, hnot⟩ := not_or.mp hrun
    have hle := Nat.not_lt.mp hnot
    rw [timerTickCalls_stopped (h.stopped hshot hle), due_of_stopped hcount hshot hle]
    refine ⟨⟨h.register, h.initial, fun hrun' => ?_, fun _ _ => h.stopped hshot hle⟩,
      (List.append_nil _).symm⟩
    exact absurd (hrun'.resolve_left hshot) (Nat.not_lt.mpr (Nat.le_succ_of_le hle))

/-- Writing the LVT timer register without the mask, then the initial count, starts the timer. -/
lemma onSchedule_start (asmMsb32 : UInt32 → UInt32) (a : Lapic) (hmask : ¬ Masked lvt)
    (hcount : count > 0) :
    OnSchedule lvt count 0
      (apicShadowWrite asmMsb32 (apicShadowWrite asmMsb32 a 0x320 lvt) 0x380 count) := by
  obtain ⟨hon, hcur, hinit⟩ := timer_start asmMsb32 (apicShadowWrite asmMsb32 a 0x320 lvt) count
  refine ⟨rfl, hinit, fun _ => ⟨hon.mpr ⟨hcount, hmask⟩, ?_⟩, fun _ hle => ?_⟩
  · rw [hcur, Countdown.left_zero]
  · exact absurd (UInt32.lt_iff_toNat_lt.mp hcount) (Nat.not_lt.mpr hle)

/-- All that is due has been injected, and nothing else. -/
lemma onSchedule_ticks (hcount : 0 < count.toNat) (hvec : lvt &&& 0xFF ≥ 16)
    (h : OnSchedule lvt count 0 a) (k : Nat) :
    OnSchedule lvt count k (timerTicks k a).1 ∧
      (timerTicks k a).2 = (due lvt count k).map (·, lvt &&& 0xFF) := by
  induction k with
  | zero =>
    refine ⟨h, ?_⟩
    rw [due, Countdown.fires_of_lt hcount, List.take_nil, ite_self]
    rfl
  | succ k ih =>
    obtain ⟨hon, hlog⟩ := ih
    obtain ⟨hon', hdue⟩ := onSchedule_tick hcount hvec hon
    exact ⟨hon', (congrArg (· ++ _) hlog).trans hdue.symm⟩

/-- After a write of the LVT timer register with the mask bit clear and a vector from 16 on, and a
write of an initial count, `k` ticks inject the vector once for each time the count fits into `k`,
or once at most without the periodic bit, at the multiples of the count. -/
theorem timer_on_schedule (asmMsb32 : UInt32 → UInt32) (a : Lapic) {lvt count v : UInt32}
    (hmask : ¬ Masked lvt) (hv : lvt &&& 0xFF = v) (hvec : v ≥ 16) (hcount : count > 0) (k : Nat) :
    let log := (timerTicks k
      (apicShadowWrite asmMsb32 (apicShadowWrite asmMsb32 a 0x320 lvt) 0x380 count)).2
    let times := if Periodic lvt then k / count.toNat else min 1 (k / count.toNat)
    log.map Prod.snd = List.replicate times v ∧
      log.map Prod.fst = (List.range times).map fun i => (i + 1) * count.toNat := by
  subst hv
  dsimp only
  have hpos := UInt32.lt_iff_toNat_lt.mp hcount
  obtain ⟨-, hlog⟩ := onSchedule_ticks hpos hvec (onSchedule_start asmMsb32 a hmask hcount) k
  have hdue : due lvt count k =
      (List.range (if Periodic lvt then k / count.toNat else min 1 (k / count.toNat))).map
        fun i => (i + 1) * count.toNat := by
    rw [due, Countdown.take_fires]
    split <;> rfl
  rw [hlog, hdue]
  constructor
  · simp only [List.map_map, Function.comp_def, List.map_const', List.length_range]
  · rw [List.map_map]
    exact List.map_id _

/-- Seven ticks of a periodic timer with a count of 3. -/
theorem timer_on_schedule_periodic :
    (timerTicks 7 (apicShadowWrite leadingZeros
      (apicShadowWrite leadingZeros (apicShadowInit 0) 0x320 0x20030) 0x380 3)).2.map Prod.snd =
        [0x30, 0x30] :=
  (timer_on_schedule leadingZeros (apicShadowInit 0) (by decide) rfl (by decide) (by decide) 7).1

end Bemi.Apic
