import Mathlib.Algebra.GroupWithZero.Nat
import Mathlib.Logic.Function.Basic
import Bemi.Lib.Coupled

/-!
# The Pentium simulator

Model of `simulator/pentium_cpu.py`: the cost of each instruction of a stream on the stock processor and
under a virtualization profile, with direct-mapped caches and a branch target buffer. The arithmetic
on Python numbers and `random.random()` are parameters. A division by zero or a missing attribute
raises an exception, and leaves what has been done until then.

The simulator runs on its caches as it does on histories (`coupled_perform`): there an access hits if
the last access to its set was to its line, and a branch is predicted as it went the last time.
-/

namespace Bemi.Simulator.Pentium
open Program Coupling

/-! ## Caches -/

/-- `DirectMappedCache`, with the number of its lines and their size. -/
structure DirectMappedCache (numLines lineSize : Nat) where
  lines : Fin numLines → Option Int
  hits : Nat
  misses : Nat

section
variable {numLines lineSize : Nat} [NeZero numLines]

/-- The set of an address. -/
def index (numLines lineSize : Nat) [NeZero numLines] (address : Int) : Fin numLines :=
  ⟨(address / lineSize % numLines).toNat, by
    have hpos : (0 : Int) < numLines := Int.natCast_pos.mpr (Nat.pos_of_neZero numLines)
    have hlt := Int.emod_lt_of_pos (address / lineSize) hpos
    have hle := Int.emod_nonneg (address / lineSize) (Int.ne_of_gt hpos)
    omega⟩

def tag (numLines lineSize : Nat) (address : Int) : Int := address / lineSize / numLines

def DirectMappedCache.new : DirectMappedCache numLines lineSize := ⟨fun _ => none, 0, 0⟩

def DirectMappedCache.access (c : DirectMappedCache numLines lineSize) (address : Int) :
    Bool × DirectMappedCache numLines lineSize :=
  if c.lines (index numLines lineSize address) = some (tag numLines lineSize address) then
    (true, { c with hits := c.hits + 1 })
  else
    (false,
      { c with
        lines := Function.update c.lines (index numLines lineSize address)
          (some (tag numLines lineSize address))
        misses := c.misses + 1 })

end

/-- `BranchTargetBuffer` -/
structure BranchTargetBuffer (entries : Nat) where
  table : Fin entries → Bool
  hits : Nat
  misses : Nat

section
variable {entries : Nat} [NeZero entries]

/-- `(pc >> 2) % self.entries` -/
def btbIndex (entries : Nat) [NeZero entries] (pc : Int) : Fin entries := index entries 4 pc

def BranchTargetBuffer.new : BranchTargetBuffer entries := ⟨fun _ => false, 0, 0⟩

def BranchTargetBuffer.predictAndUpdate (b : BranchTargetBuffer entries) (pc : Int)
    (actualTaken : Bool) : Bool × BranchTargetBuffer entries :=
  if b.table (btbIndex entries pc) = actualTaken then (true, { b with hits := b.hits + 1 })
  else
    (false,
      { b with
        table := Function.update b.table (btbIndex entries pc) actualTaken
        misses := b.misses + 1 })

/-- The counters, when the neural predictor answers. -/
def BranchTargetBuffer.count (b : BranchTargetBuffer entries) (hit : Bool) :
    BranchTargetBuffer entries :=
  if hit then { b with hits := b.hits + 1 } else { b with misses := b.misses + 1 }

end

/-! ## The processor -/

/-- Arithmetic on Python numbers. -/
structure Numbers (F : Type) where
  ofInt : Int → F
  half : F
  float : Int → F
  add : F → F → F
  mul : F → F → F
  div : F → F → Option F
  lt : F → F → Bool

/-- What the processor does with its caches and its branch target buffer. -/
structure Devices (D : Type) where
  reset : D → D
  fetch : D → Int → Bool × D
  data : D → Int → Bool × D
  predictAndUpdate : D → Int → Bool → Bool × D
  count : D → Bool → D

/-- `PentiumCPU` but for its caches and its branch target buffer, with the number of calls of
`random.random()`. -/
structure Core (F : Type) where
  cycles : F
  instructions : Nat
  hypervisorActive : Bool
  virtThreads : Int
  virtDecodeLatency : F
  virtL0HitRate : F
  virtMlp : F
  virtFusionBonus : F
  virtBranchPenalty : F
  virtBranchHitRateNpp : F
  virtSyscallCost : F
  virtHwIntCost : F
  drawn : Nat

structure PentiumCpu (D F : Type) extends Core F where
  devices : D

/-- `profile.get(..)` of the keys that execution depends on. -/
structure Profile (F : Type) where
  threads : Option Int
  decodeLatency : Option F
  l0HitRate : Option F
  mlp : Option F
  fusionBonus : Option F
  branchPenalty : Option F
  branchHitRateNpp : Option F
  syscallCost : Option F
  hwIntCost : Option F

/-- `other` is any other string. -/
inductive InstructionType where
  | arith | memRead | memWrite | branch | contextSwitch | syscall | pageWalk | other
  deriving DecidableEq, Repr

/-- An instruction of a stream; keys may be absent. -/
structure Instruction where
  pc : Option Int
  type : Option InstructionType
  addr : Option Int
  taken : Option Bool

inductive VectorType where
  | syscall | hardware | other
  deriving DecidableEq, Repr

section
variable {D F : Type} (fl : Numbers F) (dev : Devices D) (draws : Nat → F)

abbrev Sim (D F : Type) := Prog (PentiumCpu D F)

def core : Sim D F (Core F) := Prog.read PentiumCpu.toCore

def onDevices {α : Type} (f : D → α × D) : Sim D F α :=
  Prog.call fun cpu =>
    let (a, devices) := f cpu.devices
    (a, { cpu with devices := devices })

/-- `random.random()` -/
def random : Sim D F F :=
  Prog.call fun cpu => (draws cpu.drawn, { cpu with drawn := cpu.drawn + 1 })

/-- Division, which raises an exception by zero. -/
def divide (a b : F) : Sim D F F := Prog.ofOption (fl.div a b)

def addCycles (c : F) : Sim D F PUnit :=
  Prog.call fun cpu => (⟨⟩, { cpu with cycles := fl.add cpu.cycles c })

def baseMemLatency : F := fl.ofInt 40

def decodeLatency (c : Core F) : F :=
  if c.hypervisorActive then c.virtDecodeLatency else fl.ofInt 4

def executeArith (c : Core F) : Sim D F F :=
  if ¬ c.hypervisorActive then pure fl.half else divide fl fl.half c.virtFusionBonus

/-- The L0 cache is asked only if the profile gives it a hit rate. -/
def l0Hit (c : Core F) : Sim D F Bool :=
  if c.hypervisorActive ∧ fl.lt (fl.ofInt 0) c.virtL0HitRate then do
    let r ← random draws
    pure (fl.lt r c.virtL0HitRate)
  else pure false

def executeMemory (c : Core F) (addr : Int) : Sim D F F := do
  let isHit ← l0Hit fl draws c
  if isHit then pure (fl.ofInt 1)
  else
    let isHit ← onDevices (dev.data · addr)
    if isHit then pure (fl.ofInt 1)
    else if c.hypervisorActive then
      let latency ← divide fl (baseMemLatency fl) c.virtMlp
      pure (fl.add latency (fl.float 2))
    else pure (baseMemLatency fl)

def isPredicted (c : Core F) (pc : Int) (taken : Bool) : Sim D F Bool :=
  if c.hypervisorActive then do
    let r ← random draws
    onDevices fun d => (fl.lt r c.virtBranchHitRateNpp, dev.count d (fl.lt r c.virtBranchHitRateNpp))
  else onDevices (dev.predictAndUpdate · pc taken)

def executeBranch (c : Core F) (pc : Int) (taken : Bool) : Sim D F F := do
  let isPredicted ← isPredicted fl dev draws c pc taken
  if isPredicted then pure fl.half
  else pure (if c.hypervisorActive then c.virtBranchPenalty else fl.ofInt 12)

def syscallCost (c : Core F) : F := if c.hypervisorActive then c.virtSyscallCost else fl.ofInt 32

def executePageWalk (c : Core F) : Sim D F F :=
  if c.hypervisorActive then do
    let latency ← divide fl (baseMemLatency fl) c.virtMlp
    divide fl (fl.mul (fl.ofInt 2) latency) c.virtFusionBonus
  else pure (fl.mul (fl.ofInt 2) (baseMemLatency fl))

/-- What the type of an instruction adds, if anything. -/
def executeType (c : Core F) (instr : Instruction) : Sim D F (Option F) :=
  match instr.type.getD .arith with
  | .arith => some <$> executeArith fl c
  | .memRead | .memWrite => some <$> executeMemory fl dev draws c (instr.addr.getD 0)
  | .branch => some <$> executeBranch fl dev draws c (instr.pc.getD 0) (instr.taken.getD false)
  | .contextSwitch => pure (some (fl.ofInt 150))
  | .syscall => pure (some (syscallCost fl c))
  | .pageWalk => some <$> executePageWalk fl c
  | .other => pure none

/-- What fetching the instruction itself adds, if it misses. -/
def fetchInstruction (c : Core F) (pc : Int) : Sim D F (Option F) := do
  let iHit ← onDevices (dev.fetch · pc)
  if iHit then pure none
  else if c.hypervisorActive then some <$> divide fl (baseMemLatency fl) c.virtMlp
  else pure (some (baseMemLatency fl))

/-- The body of the loop of `execute_instruction_block`. -/
def executeInstruction (activeThreads : Int) (instr : Instruction) : Sim D F PUnit := do
  Prog.call fun cpu => (⟨⟩, { cpu with instructions := cpu.instructions + 1 })
  let c ← core
  let instCycles := fl.add (fl.ofInt 0) (decodeLatency fl c)
  let execution ← executeType fl dev draws c instr
  let instCycles := (execution.map (fl.add instCycles)).getD instCycles
  let fetched ← fetchInstruction fl dev c (instr.pc.getD 0)
  let instCycles := (fetched.map (fl.add instCycles)).getD instCycles
  let scaled ← divide fl instCycles (fl.ofInt activeThreads)
  addCycles fl scaled

def activeThreads (c : Core F) (parallelThreads : Option Int) : Int :=
  if c.hypervisorActive then (parallelThreads.map (min c.virtThreads)).getD c.virtThreads else 1

def executeInstructionBlock (stream : List Instruction) (parallelThreads : Option Int) :
    Sim D F PUnit := do
  let c ← core
  stream.forM (executeInstruction fl dev draws (activeThreads c parallelThreads))

def resetStats : Sim D F PUnit :=
  Prog.call fun cpu =>
    (⟨⟩, { cpu with cycles := fl.ofInt 0, instructions := 0, devices := dev.reset cpu.devices })

def applyVirtualizationProfile (profile : Option (Profile F)) : Sim D F PUnit :=
  Prog.call fun cpu =>
    match profile with
    | none => (⟨⟩, { cpu with hypervisorActive := false })
    | some profile =>
      (⟨⟩, { cpu with
        hypervisorActive := true
        virtThreads := profile.threads.getD 1
        virtDecodeLatency := profile.decodeLatency.getD (fl.float 4)
        virtL0HitRate := profile.l0HitRate.getD (fl.float 0)
        virtMlp := profile.mlp.getD (fl.float 1)
        virtFusionBonus := profile.fusionBonus.getD (fl.float 1)
        virtBranchPenalty := profile.branchPenalty.getD (fl.ofInt 12)
        virtBranchHitRateNpp := profile.branchHitRateNpp.getD (fl.float 0)
        virtSyscallCost := profile.syscallCost.getD (fl.ofInt 32)
        virtHwIntCost := profile.hwIntCost.getD (fl.ofInt 112) })

/-- The counters `syscalls` and `hw_interrupts` do not exist: adding to them raises an exception. -/
def triggerInterrupt (vectorType : VectorType) : Sim D F PUnit := do
  let c ← core
  match vectorType with
  | .syscall =>
    addCycles fl (syscallCost fl c)
    Prog.raise
  | .hardware =>
    addCycles fl (if c.hypervisorActive then c.virtHwIntCost else fl.ofInt 112)
    Prog.raise
  | .other => pure ⟨⟩

/-- The methods of `PentiumCPU` that change it. -/
inductive Call (F : Type) where
  | resetStats
  | applyVirtualizationProfile (profile : Option (Profile F))
  | executeCycles (cycleCount : Int)
  | executeInstructionBlock (stream : List Instruction) (parallelThreads : Option Int)
  | triggerInterrupt (vectorType : VectorType)

def perform : Call F → Sim D F PUnit
  | .resetStats => resetStats fl dev
  | .applyVirtualizationProfile profile => applyVirtualizationProfile fl profile
  | .executeCycles cycleCount => addCycles fl (fl.ofInt cycleCount)
  | .executeInstructionBlock stream parallelThreads =>
    executeInstructionBlock fl dev draws stream parallelThreads
  | .triggerInterrupt vectorType => triggerInterrupt fl vectorType

/-- `PentiumCPU()` -/
def newCpu (devices : D) : PentiumCpu D F where
  cycles := fl.ofInt 0
  instructions := 0
  hypervisorActive := false
  virtThreads := 1
  virtDecodeLatency := fl.float 4
  virtL0HitRate := fl.float 0
  virtMlp := fl.float 1
  virtFusionBonus := fl.float 1
  virtBranchPenalty := fl.ofInt 12
  virtBranchHitRateNpp := fl.float 0
  virtSyscallCost := fl.ofInt 32
  virtHwIntCost := fl.ofInt 112
  drawn := 0
  devices := devices

/-- Which calls return, and the processor after them. -/
def run (devices : D) (calls : List (Call F)) : List (Option PUnit) × PentiumCpu D F :=
  execAll (newCpu fl devices) (calls.map (perform fl dev draws))

end

/-! ## The hardware and the histories -/

/-- The size of a cache of 8 KB with lines of 64 bytes, in lines. -/
abbrev l1Lines : Nat := 8 * 1024 / 64

structure Hardware where
  iCache : DirectMappedCache l1Lines 64
  dCache : DirectMappedCache l1Lines 64
  btb : BranchTargetBuffer 256

def Hardware.new : Hardware := ⟨.new, .new, .new⟩

def hardware : Devices Hardware where
  reset _ := .new
  fetch hw address :=
    let (isHit, iCache) := hw.iCache.access address
    (isHit, { hw with iCache := iCache })
  data hw address :=
    let (isHit, dCache) := hw.dCache.access address
    (isHit, { hw with dCache := dCache })
  predictAndUpdate hw pc actualTaken :=
    let (isHit, btb) := hw.btb.predictAndUpdate pc actualTaken
    (isHit, { hw with btb := btb })
  count hw hit := { hw with btb := hw.btb.count hit }

/-- What has happened since the last reset, the latest first: the addresses of fetches and of data
accesses, the branches with the way they went, and the answers of the neural predictor. -/
structure Histories where
  fetches : List Int
  data : List Int
  branches : List (Int × Bool)
  neural : List Bool

def Histories.new : Histories := ⟨[], [], [], []⟩

/-- The last access to the set of an address was to its line. -/
def hit (h : List Int) (address : Int) : Bool :=
  (h.find? fun a => index l1Lines 64 a = index l1Lines 64 address).any fun a => a / 64 = address / 64

/-- How many accesses of a history have hit. -/
def hits : List Int → Nat
  | [] => 0
  | a :: h => hits h + (hit h a).toNat

/-- A branch is predicted as the last one of its entry went, the first one as not taken. -/
def predicted (h : List (Int × Bool)) (pc : Int) : Bool :=
  ((h.find? fun b => btbIndex 256 b.1 = btbIndex 256 pc).map Prod.snd).getD false

/-- How many branches of a history were predicted as they went. -/
def predictions : List (Int × Bool) → Nat
  | [] => 0
  | b :: h => predictions h + (predicted h b.1 == b.2).toNat

def histories : Devices Histories where
  reset _ := .new
  fetch h address := (hit h.fetches address, { h with fetches := address :: h.fetches })
  data h address := (hit h.data address, { h with data := address :: h.data })
  predictAndUpdate h pc actualTaken :=
    (predicted h.branches pc == actualTaken, { h with branches := (pc, actualTaken) :: h.branches })
  count h answer := { h with neural := answer :: h.neural }

/-! ## The hardware remembers what matters of the histories -/

/-- A line holds the tag of the last access to its set. -/
structure DirectMappedCache.Remembers (c : DirectMappedCache l1Lines 64) (h : List Int) : Prop where
  lines : ∀ i, c.lines i = (h.find? fun a => index l1Lines 64 a = i).map (tag l1Lines 64)
  hits : c.hits = Pentium.hits h
  misses : c.hits + c.misses = h.length

structure BranchTargetBuffer.Remembers (b : BranchTargetBuffer 256) (h : List (Int × Bool))
    (neural : List Bool) : Prop where
  table : ∀ i, b.table i = ((h.find? fun x => btbIndex 256 x.1 = i).map Prod.snd).getD false
  hits : b.hits = predictions h + neural.count true
  misses : b.hits + b.misses = h.length + neural.length

structure Hardware.Remembers (hw : Hardware) (h : Histories) : Prop where
  iCache : hw.iCache.Remembers h.fetches
  dCache : hw.dCache.Remembers h.data
  btb : hw.btb.Remembers h.branches h.neural

lemma remembers_new : Hardware.new.Remembers .new :=
  ⟨⟨fun _ => rfl, rfl, rfl⟩, ⟨fun _ => rfl, rfl, rfl⟩, ⟨fun _ => rfl, rfl, rfl⟩⟩

/-- A set and a tag determine a line. -/
lemma tag_eq_iff {a b : Int} (h : index l1Lines 64 a = index l1Lines 64 b) :
    tag l1Lines 64 a = tag l1Lines 64 b ↔ a / 64 = b / 64 := by
  have hset : (a / 64 % 128).toNat = (b / 64 % 128).toNat := congrArg Fin.val h
  change a / 64 / 128 = b / 64 / 128 ↔ _
  omega

/-- An access to a cache that remembers a history hits when it does on the history. -/
lemma DirectMappedCache.Remembers.access {c : DirectMappedCache l1Lines 64} {h : List Int}
    (hc : c.Remembers h) (address : Int) :
    (c.access address).1 = hit h address ∧ (c.access address).2.Remembers (address :: h) := by
  have hhit : c.lines (index l1Lines 64 address) = some (tag l1Lines 64 address) ↔
      hit h address = true := by
    rw [hc.lines, hit]
    cases hlast : h.find? fun a => index l1Lines 64 a = index l1Lines 64 address with
    | none => simp
    | some a =>
      have hset : index l1Lines 64 a = index l1Lines 64 address := by
        simpa using List.find?_some hlast
      simpa using tag_eq_iff hset
  have hlines (i : Fin l1Lines) : Function.update c.lines (index l1Lines 64 address)
      (some (tag l1Lines 64 address)) i =
        ((address :: h).find? fun a => index l1Lines 64 a = i).map (tag l1Lines 64) := by
    by_cases hi : index l1Lines 64 address = i
    · subst hi
      rw [Function.update_self, List.find?_cons_of_pos (by simp)]
      rfl
    · rw [Function.update_of_ne (Ne.symm hi), List.find?_cons_of_neg (by simpa using hi), hc.lines]
  have hmisses := hc.misses
  rw [DirectMappedCache.access]
  split
  next heq =>
    have htrue := hhit.mp heq
    refine ⟨htrue.symm, fun i => ?_, ?_, ?_⟩
    · rw [← hlines, ← heq, Function.update_eq_self]
    · rw [Pentium.hits, htrue, ← hc.hits]
      rfl
    · rw [List.length_cons]
      dsimp only
      omega
  next hne =>
    have hfalse : hit h address = false := by
      rw [← Bool.not_eq_true, ← hhit]
      exact hne
    refine ⟨hfalse.symm, hlines, ?_, ?_⟩
    · rw [Pentium.hits, hfalse, ← hc.hits]
      rfl
    · rw [List.length_cons]
      dsimp only
      omega

/-- A branch is predicted as it is on the history. -/
lemma BranchTargetBuffer.Remembers.predictAndUpdate {b : BranchTargetBuffer 256}
    {h : List (Int × Bool)} {neural : List Bool} (hb : b.Remembers h neural) (pc : Int)
    (actualTaken : Bool) :
    (b.predictAndUpdate pc actualTaken).1 = (predicted h pc == actualTaken) ∧
      (b.predictAndUpdate pc actualTaken).2.Remembers ((pc, actualTaken) :: h) neural := by
  have hpredicted : b.table (btbIndex 256 pc) = predicted h pc := hb.table _
  have htable (i : Fin 256) : Function.update b.table (btbIndex 256 pc) actualTaken i =
      ((((pc, actualTaken) :: h).find? fun x => btbIndex 256 x.1 = i).map Prod.snd).getD false := by
    by_cases hi : btbIndex 256 pc = i
    · subst hi
      rw [Function.update_self, List.find?_cons_of_pos (by simp)]
      rfl
    · rw [Function.update_of_ne (Ne.symm hi), List.find?_cons_of_neg (by simpa using hi), hb.table]
  have hhits := hb.hits
  have hmisses := hb.misses
  rw [BranchTargetBuffer.predictAndUpdate, hpredicted]
  split
  next heq =>
    rw [← heq, beq_self_eq_true]
    refine ⟨rfl, fun i => ?_, ?_, ?_⟩
    · rw [heq, ← htable, ← heq, ← hpredicted, Function.update_eq_self]
    · rw [predictions, beq_self_eq_true]
      dsimp only [Bool.toNat_true]
      omega
    · rw [List.length_cons]
      dsimp only
      omega
  next hne =>
    have hbeq : (predicted h pc == actualTaken) = false := by simpa using hne
    rw [hbeq]
    refine ⟨rfl, htable, ?_, ?_⟩
    · rw [predictions, hbeq]
      exact hhits
    · rw [List.length_cons]
      dsimp only
      omega

lemma BranchTargetBuffer.Remembers.count {b : BranchTargetBuffer 256} {h : List (Int × Bool)}
    {neural : List Bool} (hb : b.Remembers h neural) (answer : Bool) :
    (b.count answer).Remembers h (answer :: neural) := by
  have hhits := hb.hits
  have hmisses := hb.misses
  cases answer with
  | true =>
    refine ⟨hb.table, ?_, ?_⟩
    · rw [List.count_cons_self]
      exact congrArg Nat.succ hhits
    · rw [List.length_cons]
      change b.hits + 1 + b.misses = _
      omega
  | false =>
    refine ⟨hb.table, ?_, ?_⟩
    · rw [List.count_cons_of_ne (by decide)]
      exact hhits
    · rw [List.length_cons]
      change b.hits + (b.misses + 1) = _
      omega

/-! ## The simulator on the histories -/

section
variable {F : Type} (fl : Numbers F) (draws : Nat → F)

/-- The processors differ in their devices only, and these match. -/
def Matches (cpu : PentiumCpu Hardware F) (ideal : PentiumCpu Histories F) : Prop :=
  cpu.toCore = ideal.toCore ∧ cpu.devices.Remembers ideal.devices

/-- A step that changes only what the processors have in common. -/
lemma coupled_common {α : Type} {f : PentiumCpu Hardware F → α × PentiumCpu Hardware F}
    {f' : PentiumCpu Histories F → α × PentiumCpu Histories F} (g : Core F → α × Core F)
    (hf : ∀ cpu, ((f cpu).1, (f cpu).2.toCore) = g cpu.toCore ∧ (f cpu).2.devices = cpu.devices)
    (hf' : ∀ cpu, ((f' cpu).1, (f' cpu).2.toCore) = g cpu.toCore ∧
      (f' cpu).2.devices = cpu.devices) : Coupled (Matches (F := F)) (Prog.call f) (Prog.call f') := by
  refine .call fun cpu ideal ⟨hcore, hdevices⟩ => ?_
  obtain ⟨hboth, hkeeps⟩ := hf cpu
  obtain ⟨hboth', hkeeps'⟩ := hf' ideal
  rw [hcore, ← hboth'] at hboth
  obtain ⟨hout, hcommon⟩ := Prod.mk.inj hboth
  refine ⟨hout, hcommon, ?_⟩
  rw [hkeeps, hkeeps']
  exact hdevices

lemma coupled_core : Coupled (Matches (F := F)) core core :=
  .read fun _ _ h => h.1

lemma coupled_random : Coupled (Matches (F := F)) (random draws) (random draws) :=
  coupled_common (fun c => (draws c.drawn, { c with drawn := c.drawn + 1 }))
    (fun _ => ⟨rfl, rfl⟩) fun _ => ⟨rfl, rfl⟩

lemma coupled_addCycles (c : F) : Coupled (Matches (F := F)) (addCycles fl c) (addCycles fl c) :=
  coupled_common (fun core => (⟨⟩, { core with cycles := fl.add core.cycles c }))
    (fun _ => ⟨rfl, rfl⟩) fun _ => ⟨rfl, rfl⟩

lemma coupled_onDevices {α : Type} {f : Hardware → α × Hardware} {f' : Histories → α × Histories}
    (hf : ∀ hw h, hw.Remembers h → (f hw).1 = (f' h).1 ∧ (f hw).2.Remembers (f' h).2) :
    Coupled (Matches (F := F)) (onDevices f) (onDevices f') :=
  .call fun _ _ ⟨hcore, hdevices⟩ =>
    have h := hf _ _ hdevices
    ⟨h.1, hcore, h.2⟩

lemma coupled_fetch (address : Int) : Coupled (Matches (F := F)) (onDevices (hardware.fetch · address))
    (onDevices (histories.fetch · address)) :=
  coupled_onDevices fun _ _ hr =>
    have ha := hr.iCache.access address
    ⟨ha.1, ha.2, hr.dCache, hr.btb⟩

lemma coupled_data (address : Int) : Coupled (Matches (F := F)) (onDevices (hardware.data · address))
    (onDevices (histories.data · address)) :=
  coupled_onDevices fun _ _ hr =>
    have ha := hr.dCache.access address
    ⟨ha.1, hr.iCache, ha.2, hr.btb⟩

lemma coupled_divide (a b : F) : Coupled (Matches (F := F)) (divide fl a b) (divide fl a b) :=
  .ofOption _

lemma coupled_executeArith (c : Core F) :
    Coupled (Matches (F := F)) (executeArith fl c) (executeArith fl c) :=
  .ite (.pure _) (coupled_divide fl _ _)

lemma coupled_executeMemory (c : Core F) (addr : Int) :
    Coupled (Matches (F := F)) (executeMemory fl hardware draws c addr)
      (executeMemory fl histories draws c addr) := by
  have hl0 : Coupled (Matches (F := F)) (l0Hit fl draws c) (l0Hit fl draws c) :=
    .ite ((coupled_random draws).bind fun _ => .pure _) (.pure _)
  refine hl0.bind fun isHit => .ite (.pure _) ?_
  refine (coupled_data addr).bind fun isHit => .ite (.pure _) (.ite ?_ (.pure _))
  exact (coupled_divide fl _ _).bind fun _ => .pure _

lemma coupled_executeBranch (c : Core F) (pc : Int) (taken : Bool) :
    Coupled (Matches (F := F)) (executeBranch fl hardware draws c pc taken)
      (executeBranch fl histories draws c pc taken) := by
  have hneural (r : F) : Coupled (Matches (F := F))
      (onDevices fun d => (fl.lt r c.virtBranchHitRateNpp,
        hardware.count d (fl.lt r c.virtBranchHitRateNpp)))
      (onDevices fun d => (fl.lt r c.virtBranchHitRateNpp,
        histories.count d (fl.lt r c.virtBranchHitRateNpp))) :=
    coupled_onDevices fun _ _ hr => ⟨rfl, hr.iCache, hr.dCache, hr.btb.count _⟩
  have htable : Coupled (Matches (F := F))
      (onDevices (hardware.predictAndUpdate · pc taken))
      (onDevices (histories.predictAndUpdate · pc taken)) :=
    coupled_onDevices fun _ _ hr =>
      have hb := hr.btb.predictAndUpdate pc taken
      ⟨hb.1, hr.iCache, hr.dCache, hb.2⟩
  have hpredicted : Coupled (Matches (F := F)) (isPredicted fl hardware draws c pc taken)
      (isPredicted fl histories draws c pc taken) :=
    .ite ((coupled_random draws).bind hneural) htable
  exact hpredicted.bind fun _ => .ite (.pure _) (.pure _)

lemma coupled_executePageWalk (c : Core F) :
    Coupled (Matches (F := F)) (executePageWalk fl c) (executePageWalk fl c) :=
  .ite ((coupled_divide fl _ _).bind fun _ => coupled_divide fl _ _) (.pure _)

lemma coupled_executeType (c : Core F) (instr : Instruction) :
    Coupled (Matches (F := F)) (executeType fl hardware draws c instr)
      (executeType fl histories draws c instr) := by
  rw [executeType, executeType]
  cases instr.type.getD .arith with
  | arith => exact .map _ (coupled_executeArith fl c)
  | memRead | memWrite => exact .map _ (coupled_executeMemory fl draws c _)
  | branch => exact .map _ (coupled_executeBranch fl draws c _ _)
  | contextSwitch | syscall | other => exact .pure _
  | pageWalk => exact .map _ (coupled_executePageWalk fl c)

lemma coupled_executeInstruction (activeThreads : Int) (instr : Instruction) :
    Coupled (Matches (F := F)) (executeInstruction fl hardware draws activeThreads instr)
      (executeInstruction fl histories draws activeThreads instr) := by
  have hcount : Coupled (Matches (F := F))
      (Prog.call fun cpu => (PUnit.unit, { cpu with instructions := cpu.instructions + 1 }))
      (Prog.call fun cpu => (PUnit.unit, { cpu with instructions := cpu.instructions + 1 })) :=
    coupled_common (fun c => (⟨⟩, { c with instructions := c.instructions + 1 }))
      (fun _ => ⟨rfl, rfl⟩) fun _ => ⟨rfl, rfl⟩
  have hfetched (c : Core F) (pc : Int) : Coupled (Matches (F := F))
      (fetchInstruction fl hardware c pc) (fetchInstruction fl histories c pc) :=
    (coupled_fetch pc).bind fun _ =>
      .ite (.pure _) (.ite (.map some (coupled_divide fl _ _)) (.pure _))
  refine hcount.bind fun _ => coupled_core.bind fun c => ?_
  refine (coupled_executeType fl draws c instr).bind fun _ => ?_
  refine (hfetched c _).bind fun _ => ?_
  exact (coupled_divide fl _ _).bind fun _ => coupled_addCycles fl _

lemma coupled_perform (call : Call F) : Coupled (Matches (F := F)) (perform fl hardware draws call)
    (perform fl histories draws call) := by
  cases call with
  | resetStats =>
    refine .call fun cpu ideal h => ⟨rfl, ?_, remembers_new⟩
    simp only [h.1]
  | applyVirtualizationProfile profile =>
    refine .call fun cpu ideal ⟨hcore, hdevices⟩ => ?_
    cases profile with
    | none => exact ⟨rfl, by simp only [hcore], hdevices⟩
    | some profile => exact ⟨rfl, by simp only [hcore], hdevices⟩
  | executeCycles cycleCount => exact coupled_addCycles fl _
  | executeInstructionBlock stream parallelThreads =>
    exact coupled_core.bind fun c => .forM (coupled_executeInstruction fl draws _) stream
  | triggerInterrupt vectorType =>
    refine coupled_core.bind fun c => ?_
    cases vectorType with
    | syscall | hardware => exact (coupled_addCycles fl _).bind fun _ => .raise
    | other => exact .pure _

end

end Bemi.Simulator.Pentium
