import Bemi.Simulator.Pentium

/-!
# What the Pentium simulator charges

The processor that the simulator stands for, without caches and without a program: an instruction costs
what its decoding, its execution and its fetch cost, divided among the threads, and each of these is
read off the histories and the profile. `pentium_ideal` says that the simulator computes just that, the
divisions by zero that end a call included.
-/

namespace Bemi.Simulator.Pentium
open Program Prog Coupling

variable {F : Type} (fl : Numbers F) (draws : Nat → F)

/-! ## The bill of an instruction -/

abbrev IdealCpu (F : Type) := PentiumCpu Histories F

/-- A memory access that misses; a profile hides some of it. -/
def memoryLatency (c : Core F) : Option F :=
  if c.hypervisorActive then fl.div (fl.ofInt 40) c.virtMlp else some (fl.ofInt 40)

/-- What executing an instruction costs, if anything, or `none` for a division by zero, with the
histories and the number of random draws then. -/
structure Charge (F : Type) where
  costs : Option (List F)
  histories : Histories
  drawn : Nat

/-- The profile has an L0 cache. -/
def hasL0 (c : Core F) : Bool := c.hypervisorActive && fl.lt (fl.ofInt 0) c.virtL0HitRate

/-- The L0 cache answers at random; what it does not answer goes to the data cache, where a miss costs two
more cycles under a profile, for the compression. -/
def chargeMemory (c : Core F) (h : Histories) (addr : Int) : Charge F :=
  if hasL0 fl c && fl.lt (draws c.drawn) c.virtL0HitRate then
    ⟨some [fl.ofInt 1], h, c.drawn + 1⟩
  else
    { costs :=
        if hit h.data addr then some [fl.ofInt 1]
        else (memoryLatency fl c).map fun latency =>
          [if c.hypervisorActive then fl.add latency (fl.float 2) else latency]
      histories := { h with data := addr :: h.data }
      drawn := c.drawn + (hasL0 fl c).toNat }

/-- Under a profile a branch is predicted at random, else as the last one of its entry went. -/
def chargeBranch (c : Core F) (h : Histories) (pc : Int) (taken : Bool) : Charge F :=
  if c.hypervisorActive then
    let right := fl.lt (draws c.drawn) c.virtBranchHitRateNpp
    ⟨some [if right then fl.half else c.virtBranchPenalty], { h with neural := right :: h.neural },
      c.drawn + 1⟩
  else
    ⟨some [if predicted h.branches pc == taken then fl.half else fl.ofInt 12],
      { h with branches := (pc, taken) :: h.branches }, c.drawn⟩

/-- Two reads of memory, one after the other. -/
def pageWalkCost (c : Core F) : Option F :=
  (memoryLatency fl c).bind fun latency =>
    if c.hypervisorActive then fl.div (fl.mul (fl.ofInt 2) latency) c.virtFusionBonus
    else some (fl.mul (fl.ofInt 2) latency)

def charge (c : Core F) (h : Histories) (instr : Instruction) : Charge F :=
  match instr.type.getD .arith with
  | .arith =>
    ⟨(if c.hypervisorActive then fl.div fl.half c.virtFusionBonus else some fl.half).map ([·]), h,
      c.drawn⟩
  | .memRead | .memWrite => chargeMemory fl draws c h (instr.addr.getD 0)
  | .branch => chargeBranch fl draws c h (instr.pc.getD 0) (instr.taken.getD false)
  | .contextSwitch => ⟨some [fl.ofInt 150], h, c.drawn⟩
  | .syscall =>
    ⟨some [if c.hypervisorActive then c.virtSyscallCost else fl.ofInt 32], h, c.drawn⟩
  | .pageWalk => ⟨(pageWalkCost fl c).map ([·]), h, c.drawn⟩
  | .other => ⟨some [], h, c.drawn⟩

/-- What fetching an instruction costs. -/
def fetchCosts (c : Core F) (h : Histories) (pc : Int) : Option (List F) :=
  if hit h.fetches pc then some [] else (memoryLatency fl c).map ([·])

/-- The sum of the costs, divided among the threads. -/
def bill (c : Core F) (threads : Int) (execution fetch : List F) : Option F :=
  let decode := if c.hypervisorActive then c.virtDecodeLatency else fl.ofInt 4
  fl.div ((decode :: execution ++ fetch).foldl fl.add (fl.ofInt 0)) (fl.ofInt threads)

/-! ## The ideal processor -/

/-- An instruction that ends in a division by zero is not charged, and not fetched if it ends before. -/
def idealCharge (threads : Int) (instr : Instruction) (cpu : IdealCpu F) :
    Option Unit × IdealCpu F :=
  let ch := charge fl draws cpu.toCore cpu.devices instr
  let executed := { cpu with drawn := ch.drawn, devices := ch.histories }
  match ch.costs with
  | none => (none, executed)
  | some execution =>
    let pc := instr.pc.getD 0
    let fetched :=
      { executed with devices := { ch.histories with fetches := pc :: ch.histories.fetches } }
    match (fetchCosts fl cpu.toCore ch.histories pc).bind
        (bill fl cpu.toCore threads execution) with
    | none => (none, fetched)
    | some cycles => (some ⟨⟩, { fetched with cycles := fl.add cpu.cycles cycles })

/-- Every instruction is counted. -/
def idealInstruction (threads : Int) (instr : Instruction) (cpu : IdealCpu F) :
    Option Unit × IdealCpu F :=
  idealCharge fl draws threads instr { cpu with instructions := cpu.instructions + 1 }

/-- The instructions up to the first division by zero. -/
def idealBlock (threads : Int) : List Instruction → IdealCpu F → Option Unit × IdealCpu F
  | [], cpu => (some ⟨⟩, cpu)
  | instr :: stream, cpu =>
    match idealInstruction fl draws threads instr cpu with
    | (some _, cpu) => idealBlock threads stream cpu
    | (none, cpu) => (none, cpu)

/-- A profile is taken over as it is. An interrupt is charged, and then raises an exception. -/
def idealCall (cpu : IdealCpu F) : Call F → Option Unit × IdealCpu F
  | .resetStats => (some ⟨⟩, { cpu with cycles := fl.ofInt 0, instructions := 0, devices := .new })
  | .applyVirtualizationProfile profile => exec (applyVirtualizationProfile fl profile) cpu
  | .executeCycles cycleCount =>
    (some ⟨⟩, { cpu with cycles := fl.add cpu.cycles (fl.ofInt cycleCount) })
  | .executeInstructionBlock stream parallelThreads =>
    let threads := if cpu.hypervisorActive then
      (parallelThreads.map (min cpu.virtThreads)).getD cpu.virtThreads else 1
    idealBlock fl draws threads stream cpu
  | .triggerInterrupt .syscall =>
    let cost := if cpu.hypervisorActive then cpu.virtSyscallCost else fl.ofInt 32
    (none, { cpu with cycles := fl.add cpu.cycles cost })
  | .triggerInterrupt .hardware =>
    let cost := if cpu.hypervisorActive then cpu.virtHwIntCost else fl.ofInt 112
    (none, { cpu with cycles := fl.add cpu.cycles cost })
  | .triggerInterrupt .other => (some ⟨⟩, cpu)

/-- Which calls return, and the processor after them. -/
def idealRun (cpu : IdealCpu F) : List (Call F) → List (Option Unit) × IdealCpu F
  | [] => ([], cpu)
  | call :: calls =>
    let (r, cpu) := idealCall fl draws cpu call
    let (rs, cpu) := idealRun cpu calls
    (r :: rs, cpu)

/-! ## The simulator charges what the ideal processor does -/

@[simp] lemma exec_core {D : Type} (cpu : PentiumCpu D F) : exec core cpu = (some cpu.toCore, cpu) :=
  rfl

@[simp] lemma exec_addCycles {D : Type} (x : F) (cpu : PentiumCpu D F) :
    exec (addCycles fl x) cpu = (some ⟨⟩, { cpu with cycles := fl.add cpu.cycles x }) := rfl

@[simp] lemma exec_random {D : Type} (cpu : PentiumCpu D F) :
    exec (random draws) cpu = (some (draws cpu.drawn), { cpu with drawn := cpu.drawn + 1 }) := rfl

@[simp] lemma exec_onDevices {D α : Type} (f : D → α × D) (cpu : PentiumCpu D F) :
    exec (onDevices f) cpu = (some (f cpu.devices).1, { cpu with devices := (f cpu.devices).2 }) :=
  rfl

@[simp] lemma exec_divide {D : Type} (a b : F) (cpu : PentiumCpu D F) :
    exec (divide fl a b) cpu = (fl.div a b, cpu) := by
  rw [divide]
  cases fl.div a b with
  | none => rfl
  | some x => rfl

lemma exec_map {S α β : Type} (f : α → β) (m : Prog S α) (s : S) :
    exec (f <$> m) s = ((exec m s).1.map f, (exec m s).2) := by
  rw [map_eq_pure_bind, exec_bind]
  obtain ⟨r, s'⟩ := exec m s
  cases r with
  | none => rfl
  | some a => rfl

/-- What a program adds to the cycles of an instruction, with the histories and the draws it leaves. -/
def Charges (m : Sim Histories F (Option F)) (cpu : IdealCpu F) (ch : Charge F) : Prop :=
  (exec m cpu).1.map Option.toList = ch.costs ∧
    (exec m cpu).2 = { cpu with drawn := ch.drawn, devices := ch.histories }

/-- A program that always adds something. -/
lemma charges_some {m : Sim Histories F F} {cpu : IdealCpu F} {cost : Option F} {h : Histories}
    {drawn : Nat} (hm : exec m cpu = (cost, { cpu with drawn := drawn, devices := h })) :
    Charges (some <$> m) cpu ⟨cost.map ([·]), h, drawn⟩ := by
  rw [Charges, exec_map, hm]
  refine ⟨?_, rfl⟩
  cases cost with
  | none => rfl
  | some x => rfl

/-- The latency, and what the simulator goes on to do with it. -/
lemma exec_divide_bind {D : Type} (a b : F) (k : F → Sim D F F) (cpu : PentiumCpu D F) :
    exec (divide fl a b >>= k) cpu =
      match fl.div a b with
      | some x => exec (k x) cpu
      | none => (none, cpu) := by
  rw [exec_bind, exec_divide]
  cases fl.div a b with
  | none => rfl
  | some x => rfl

lemma exec_executeArith (cpu : IdealCpu F) : exec (executeArith fl cpu.toCore) cpu =
    (if cpu.hypervisorActive then fl.div fl.half cpu.virtFusionBonus else some fl.half, cpu) := by
  rw [executeArith]
  cases cpu.hypervisorActive with
  | false => rfl
  | true => exact exec_divide fl _ _ cpu

lemma exec_executePageWalk (cpu : IdealCpu F) :
    exec (executePageWalk fl cpu.toCore) cpu = (pageWalkCost fl cpu.toCore, cpu) := by
  rw [executePageWalk, pageWalkCost, memoryLatency]
  cases hactive : cpu.hypervisorActive with
  | false => rfl
  | true =>
    simp only [if_true, exec_divide_bind, baseMemLatency]
    cases fl.div (fl.ofInt 40) cpu.virtMlp with
    | none => rfl
    | some latency => exact exec_divide fl _ _ cpu

lemma exec_l0Hit (cpu : IdealCpu F) : exec (l0Hit fl draws cpu.toCore) cpu =
    (some (hasL0 fl cpu.toCore && fl.lt (draws cpu.drawn) cpu.virtL0HitRate),
      { cpu with drawn := cpu.drawn + (hasL0 fl cpu.toCore).toNat }) := by
  rw [l0Hit, hasL0]
  split
  next h =>
    have hyes : (cpu.hypervisorActive && fl.lt (fl.ofInt 0) cpu.virtL0HitRate) = true := by
      rw [h.1, h.2]
      rfl
    rw [hyes]
    rfl
  next h =>
    have hno : (cpu.hypervisorActive && fl.lt (fl.ofInt 0) cpu.virtL0HitRate) = false := by
      simpa using h
    rw [hno]
    rfl

lemma charges_executeMemory (cpu : IdealCpu F) (addr : Int) :
    Charges (some <$> executeMemory fl histories draws cpu.toCore addr) cpu
      (chargeMemory fl draws cpu.toCore cpu.devices addr) := by
  rw [Charges, exec_map, executeMemory, exec_bind, exec_l0Hit, chargeMemory]
  dsimp only
  cases hl0 : hasL0 fl cpu.toCore && fl.lt (draws cpu.drawn) cpu.virtL0HitRate with
  | true =>
    rw [(Bool.and_eq_true_iff.mp hl0).1]
    exact ⟨rfl, rfl⟩
  | false =>
    rw [if_neg Bool.false_ne_true, if_neg Bool.false_ne_true, exec_bind, exec_onDevices]
    dsimp only [histories]
    by_cases hhit : hit cpu.devices.data addr = true
    · rw [if_pos hhit, if_pos hhit]
      exact ⟨rfl, rfl⟩
    rw [if_neg hhit, if_neg hhit, memoryLatency]
    by_cases hactive : cpu.hypervisorActive = true
    · rw [if_pos hactive, if_pos hactive, exec_divide_bind, baseMemLatency]
      cases fl.div (fl.ofInt 40) cpu.virtMlp with
      | none => exact ⟨rfl, rfl⟩
      | some latency =>
        refine ⟨?_, rfl⟩
        rw [Option.map_some, if_pos hactive]
        rfl
    · rw [if_neg hactive, if_neg hactive, Option.map_some, if_neg hactive]
      exact ⟨rfl, rfl⟩

lemma charges_executeBranch (cpu : IdealCpu F) (pc : Int) (taken : Bool) :
    Charges (some <$> executeBranch fl histories draws cpu.toCore pc taken) cpu
      (chargeBranch fl draws cpu.toCore cpu.devices pc taken) := by
  by_cases hactive : cpu.hypervisorActive = true
  · rw [chargeBranch, if_pos hactive, Charges, exec_map, executeBranch, isPredicted, if_pos hactive,
      exec_bind, exec_bind, exec_random]
    dsimp only
    rw [exec_onDevices]
    dsimp only
    by_cases hright : fl.lt (draws cpu.drawn) cpu.virtBranchHitRateNpp = true
    · rw [if_pos hright, if_pos hright]
      exact ⟨rfl, rfl⟩
    · rw [if_neg hright, if_neg hright, if_pos hactive]
      exact ⟨rfl, rfl⟩
  · rw [chargeBranch, if_neg hactive, Charges, exec_map, executeBranch, isPredicted, if_neg hactive,
      exec_bind, exec_onDevices]
    dsimp only [histories]
    by_cases hright : (predicted cpu.devices.branches pc == taken) = true
    · rw [if_pos hright, if_pos hright]
      exact ⟨rfl, rfl⟩
    · rw [if_neg hright, if_neg hright, if_neg hactive]
      exact ⟨rfl, rfl⟩

/-- An instruction adds what its execution is charged. -/
lemma charges_executeType (cpu : IdealCpu F) (instr : Instruction) :
    Charges (executeType fl histories draws cpu.toCore instr) cpu
      (charge fl draws cpu.toCore cpu.devices instr) := by
  rw [executeType, charge]
  cases instr.type.getD .arith with
  | arith => exact charges_some (exec_executeArith fl cpu)
  | memRead | memWrite => exact charges_executeMemory fl draws cpu _
  | branch => exact charges_executeBranch fl draws cpu _ _
  | contextSwitch | syscall | other => exact ⟨rfl, rfl⟩
  | pageWalk => exact charges_some (exec_executePageWalk fl cpu)

lemma exec_fetchInstruction (cpu : IdealCpu F) (c : Core F) (pc : Int) :
    (exec (fetchInstruction fl histories c pc) cpu).1.map Option.toList =
        fetchCosts fl c cpu.devices pc ∧
      (exec (fetchInstruction fl histories c pc) cpu).2 =
        { cpu with devices := { cpu.devices with fetches := pc :: cpu.devices.fetches } } := by
  rw [fetchInstruction, exec_bind, exec_onDevices, fetchCosts, memoryLatency]
  dsimp only [histories]
  cases hit cpu.devices.fetches pc with
  | true => exact ⟨rfl, rfl⟩
  | false =>
    cases c.hypervisorActive with
    | false => exact ⟨rfl, rfl⟩
    | true =>
      simp only [Bool.false_eq_true, if_false, if_true, exec_map, exec_divide, baseMemLatency]
      cases fl.div (fl.ofInt 40) c.virtMlp with
      | none => exact ⟨rfl, trivial⟩
      | some latency => exact ⟨rfl, trivial⟩

/-- Adding what there may be. -/
lemma foldl_toList (x : F) (o : Option F) : o.toList.foldl fl.add x = (o.map (fl.add x)).getD x := by
  cases o with
  | none => rfl
  | some y => rfl

/-- The simulator adds up what the bill adds up. -/
lemma bill_eq (c : Core F) (threads : Int) (execution fetched : Option F) :
    bill fl c threads execution.toList fetched.toList =
      let instCycles := fl.add (fl.ofInt 0) (decodeLatency fl c)
      let instCycles := (execution.map (fl.add instCycles)).getD instCycles
      fl.div ((fetched.map (fl.add instCycles)).getD instCycles) (fl.ofInt threads) := by
  rw [bill, List.cons_append, List.foldl_cons, List.foldl_append, foldl_toList, foldl_toList,
    decodeLatency]

lemma exec_executeInstruction (threads : Int) (instr : Instruction) (cpu : IdealCpu F) :
    exec (executeInstruction fl histories draws threads instr) cpu =
      idealInstruction fl draws threads instr cpu := by
  rw [executeInstruction, exec_bind, exec_call, idealInstruction]
  dsimp only
  generalize { cpu with instructions := cpu.instructions + 1 } = cpu
  obtain ⟨hcosts, hcpu⟩ := charges_executeType fl draws cpu instr
  rw [exec_bind, exec_core, idealCharge, ← hcosts]
  dsimp only
  rw [exec_bind]
  generalize exec (executeType fl histories draws cpu.toCore instr) cpu = executed at hcpu ⊢
  obtain ⟨r, executed⟩ := executed
  dsimp only at hcpu
  subst hcpu
  cases r with
  | none => rfl
  | some execution =>
    dsimp only [Option.map_some]
    generalize (charge fl draws cpu.toCore cpu.devices instr).drawn = drawn
    generalize (charge fl draws cpu.toCore cpu.devices instr).histories = h
    obtain ⟨hfetch, hcpu⟩ := exec_fetchInstruction fl { cpu with drawn := drawn, devices := h }
      cpu.toCore (instr.pc.getD 0)
    rw [exec_bind, ← hfetch]
    generalize exec (fetchInstruction fl histories cpu.toCore (instr.pc.getD 0))
      { cpu with drawn := drawn, devices := h } = fetched at hcpu ⊢
    obtain ⟨r, fetched⟩ := fetched
    dsimp only at hcpu
    subst hcpu
    cases r with
    | none => rfl
    | some fetched =>
      dsimp only [Option.map_some, Option.bind_some]
      rw [bill_eq, exec_bind, exec_divide]
      cases fl.div _ (fl.ofInt threads) with
      | none => rfl
      | some cycles => rfl

lemma exec_forM (threads : Int) (stream : List Instruction) (cpu : IdealCpu F) :
    exec (stream.forM (executeInstruction fl histories draws threads)) cpu =
      idealBlock fl draws threads stream cpu := by
  induction stream generalizing cpu with
  | nil => rfl
  | cons instr stream ih =>
    change exec (executeInstruction fl histories draws threads instr >>= fun _ => stream.forM _) cpu = _
    rw [exec_bind, exec_executeInstruction, idealBlock]
    obtain ⟨r, cpu'⟩ := idealInstruction fl draws threads instr cpu
    cases r with
    | none => rfl
    | some _ => exact ih cpu'

/-- Any call on the histories does what the ideal processor does. -/
lemma exec_perform (cpu : IdealCpu F) (call : Call F) :
    exec (perform fl histories draws call) cpu = idealCall fl draws cpu call := by
  cases call with
  | resetStats | executeCycles _ | applyVirtualizationProfile _ => rfl
  | executeInstructionBlock stream parallelThreads =>
    rw [perform, executeInstructionBlock, exec_bind, exec_core]
    exact exec_forM fl draws _ stream cpu
  | triggerInterrupt vectorType =>
    cases vectorType with
    | syscall | hardware | other => rfl

lemma execAll_perform (calls : List (Call F)) (cpu : IdealCpu F) :
    execAll cpu (calls.map (perform fl histories draws)) = idealRun fl draws cpu calls := by
  induction calls generalizing cpu with
  | nil => rfl
  | cons call calls ih =>
    rw [List.map_cons, execAll, exec_perform, idealRun]
    obtain ⟨r, cpu'⟩ := idealCall fl draws cpu call
    dsimp only
    rw [ih]

/-- Whatever is called on a new `PentiumCPU`, whatever its numbers and random draws are: the same calls
raise an exception as on the ideal processor, the cycles and the instructions are those of its bills,
and the caches and the BTB have hit and missed as its histories say. -/
theorem pentium_ideal (calls : List (Call F)) :
    (run fl hardware draws .new calls).1 = (idealRun fl draws (newCpu fl .new) calls).1 ∧
      Matches (run fl hardware draws .new calls).2 (idealRun fl draws (newCpu fl .new) calls).2 := by
  rw [← execAll_perform]
  exact Coupled.execAll (coupled_perform fl draws) calls ⟨rfl, remembers_new⟩

end Bemi.Simulator.Pentium
