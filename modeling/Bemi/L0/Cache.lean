import Mathlib.Data.List.FinRange
import Mathlib.Logic.Function.Basic
import Bemi.Efi

/-!
# L0 micro-cache

Model of `performance/l0cache/l0microcache.c`: up to 84 private direct-mapped caches of 16 lines of
64 bytes. `L0CacheRead` and `L0CacheWrite` fill a missing line with zeroes; they copy nothing when the
access does not fit the line. A buffer passed as `Data` is a function from offsets to bytes, `none`
for `NULL`.
-/

namespace Bemi.L0

abbrev l0CacheLines : Nat := 16
abbrev l0LineSize : Nat := 64
abbrev l0MaxUnits : Nat := 84

/-- The bytes behind a pointer. -/
abbrev Buffer := Nat → UInt8

/-- `CopyMem` to offset `at` of a buffer. -/
def copyMem (dst : Buffer) (at_ : Nat) (src : Buffer) (size : Nat) : Buffer :=
  fun i => if at_ ≤ i ∧ i < at_ + size then src (i - at_) else dst i

structure L0CacheLine where
  tag : UInt64
  valid : Bool
  dirty : Bool
  data : Buffer

structure L0MicroCache where
  lines : Fin l0CacheLines → L0CacheLine
  totalAccesses : UInt64
  hits : UInt64
  misses : UInt64
  writeThrough : UInt64
  initialized : Bool

/-- The globals; `gL0ActiveUnits` never exceeds the length of the array. -/
structure L0Globals where
  gL0Caches : Fin l0MaxUnits → Option L0MicroCache
  gL0ActiveUnits : UInt32
  active_le : gL0ActiveUnits.toNat ≤ l0MaxUnits

def l0CacheIndex (physAddr : UInt64) : Fin l0CacheLines :=
  ⟨((physAddr >>> 6) &&& 15).toNat, Nat.lt_succ_of_le
    (by rw [UInt64.toNat_and]; exact Nat.and_le_right)⟩

def l0CacheTag (physAddr : UInt64) : UInt64 :=
  physAddr >>> 10

/-- `PhysAddr & (L0_LINE_SIZE - 1)`. -/
def lineOffset (physAddr : UInt64) : Nat :=
  (physAddr &&& 63).toNat

/-! ## Initialisation -/

def zeroLine : L0CacheLine := ⟨0, false, false, fun _ => 0⟩

def freshCache : L0MicroCache := ⟨fun _ => zeroLine, 0, 0, 0, 0, true⟩

/-- The allocating loop, for the units in `us`; the flag tells whether it ran to its end. -/
def initUnits (pool : Nat → Bool) :
    List (Fin l0MaxUnits) → (Fin l0MaxUnits → Option L0MicroCache) →
      (Fin l0MaxUnits → Option L0MicroCache) × Bool
  | [], caches => (caches, true)
  | u :: us, caches =>
    if pool u.val then initUnits pool us (Function.update caches u (some freshCache))
    else (Function.update caches u none, false)

/-- `pool` tells which calls of `AllocateZeroPool` succeed. -/
def l0CacheInit (pool : Nat → Bool) (activeUnits : UInt32) : L0Globals × EfiStatus :=
  let activeUnits := if activeUnits.toNat > l0MaxUnits then 84 else activeUnits
  have active_le : activeUnits.toNat ≤ l0MaxUnits := by
    dsimp only [activeUnits]
    split
    · decide
    · omega
  let units := (List.finRange l0MaxUnits).take activeUnits.toNat
  match initUnits pool units (fun _ => none) with
  | (caches, true) => (⟨caches, activeUnits, active_le⟩, .success)
  | (caches, false) => (⟨caches, activeUnits, active_le⟩, .outOfResources)

/-! ## Accesses -/

/-- Whether the line for an address holds it. -/
def L0MicroCache.hit (c : L0MicroCache) (physAddr : UInt64) : Bool :=
  (c.lines (l0CacheIndex physAddr)).valid &&
    decide ((c.lines (l0CacheIndex physAddr)).tag = l0CacheTag physAddr)

/-- `Size <= L0_LINE_SIZE - offset`. -/
def fitsLine (physAddr size : UInt64) : Bool :=
  size.toNat ≤ l0LineSize - lineOffset physAddr

/-- The line that a miss leaves. -/
def filledLine (physAddr : UInt64) : L0CacheLine :=
  ⟨l0CacheTag physAddr, true, false, fun _ => 0⟩

/-- Copy into the caller's buffer, if there is one and the access fits the line. -/
def copyOut (line : L0CacheLine) (physAddr : UInt64) (data : Option Buffer) (size : UInt64) :
    Option Buffer :=
  data.map fun buf =>
    if fitsLine physAddr size then
      copyMem buf 0 (fun i => line.data (lineOffset physAddr + i)) size.toNat
    else buf

/-- Copy from the caller's buffer into the line, if there is one and the access fits the line. -/
def copyIn (line : L0CacheLine) (physAddr : UInt64) (data : Option Buffer) (size : UInt64) :
    L0CacheLine :=
  match data with
  | some buf =>
    if fitsLine physAddr size then
      { line with data := copyMem line.data (lineOffset physAddr) buf size.toNat }
    else line
  | none => line

/-- `L0CacheRead` on one cache: the cache, the status and the caller's buffer after it. -/
def L0MicroCache.read (c : L0MicroCache) (physAddr : UInt64) (data : Option Buffer)
    (size : UInt64) : L0MicroCache × EfiStatus × Option Buffer :=
  let c := { c with totalAccesses := c.totalAccesses + 1 }
  let index := l0CacheIndex physAddr
  if c.hit physAddr then
    ({ c with hits := c.hits + 1 }, .success, copyOut (c.lines index) physAddr data size)
  else
    let line := filledLine physAddr
    ({ c with misses := c.misses + 1, lines := Function.update c.lines index line },
      .warnStatusNotFound, copyOut line physAddr data size)

/-- `L0CacheWrite` on one cache. -/
def L0MicroCache.write (c : L0MicroCache) (physAddr : UInt64) (data : Option Buffer)
    (size : UInt64) : L0MicroCache :=
  let c := { c with
    totalAccesses := c.totalAccesses + 1
    writeThrough := c.writeThrough + 1 }
  let index := l0CacheIndex physAddr
  let line := if c.hit physAddr then c.lines index else filledLine physAddr
  { c with lines := Function.update c.lines index (copyIn line physAddr data size) }

/-- `L0CacheInvalidate` on one cache. -/
def L0MicroCache.invalidate (c : L0MicroCache) (physAddr : UInt64) : L0MicroCache :=
  let index := l0CacheIndex physAddr
  if c.hit physAddr then
    { c with lines := Function.update c.lines index { c.lines index with valid := false } }
  else c

/-- The cache of a unit that is active and initialised, with its place in the array. -/
def L0Globals.ready (g : L0Globals) (unitId : UInt32) : Option (Fin l0MaxUnits × L0MicroCache) :=
  if h : unitId < g.gL0ActiveUnits then
    let u : Fin l0MaxUnits := ⟨unitId.toNat, Nat.lt_of_lt_of_le h g.active_le⟩
    match g.gL0Caches u with
    | some c => if c.initialized then some (u, c) else none
    | none => none
  else none

def l0CacheRead (g : L0Globals) (unitId : UInt32) (physAddr : UInt64) (data : Option Buffer)
    (size : UInt64) : L0Globals × EfiStatus × Option Buffer :=
  match g.ready unitId with
  | none => (g, .notReady, data)
  | some (u, c) =>
    let (c, status, data) := c.read physAddr data size
    ({ g with gL0Caches := Function.update g.gL0Caches u (some c) }, status, data)

def l0CacheWrite (g : L0Globals) (unitId : UInt32) (physAddr : UInt64) (data : Option Buffer)
    (size : UInt64) : L0Globals × EfiStatus :=
  match g.ready unitId with
  | none => (g, .notReady)
  | some (u, c) =>
    ({ g with gL0Caches := Function.update g.gL0Caches u (some (c.write physAddr data size)) },
      .success)

/-- The loop over the active units. -/
def l0CacheInvalidate (g : L0Globals) (physAddr : UInt64) : L0Globals :=
  { g with
    gL0Caches := fun u =>
      (g.gL0Caches u).map fun c =>
        if u.val < g.gL0ActiveUnits.toNat && c.initialized then c.invalidate physAddr else c }

end Bemi.L0
