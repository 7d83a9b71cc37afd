import Bemi.Lib.Ram
import Bemi.TCache.TraceCache

/-!
# The trace cache in memory

`performance/tcache/tracecache.c` once more, on the bytes of memory: the header, the entries of the
arena and the bucket table are where the code puts them, and nothing keeps them apart. What the code
reads is the `view` of the bytes as a `TraceCache`; what it writes are single fields.
-/

namespace Bemi.TCache
open Chain Ram

/-- The globals and the memory. -/
structure TraceMemory where
  mem : Bytes
  gTraceCache : UInt64
  gTraceBuckets : UInt64

namespace TraceMemory

/-! ## What is read -/

section
variable (m : TraceMemory)

/-- `*gTraceCache` -/
def header : TraceCacheHeader where
  baseAddress := load64 m.mem (m.gTraceCache + 0)
  size := load64 m.mem (m.gTraceCache + 8)
  nextAlloc := load64 m.mem (m.gTraceCache + 16)
  entryCount := load32 m.mem (m.gTraceCache + 24)
  hashBuckets := load32 m.mem (m.gTraceCache + 28)
  lruCounter := load64 m.mem (m.gTraceCache + 32)
  initialized := loadBool m.mem (m.gTraceCache + 40)
  lruScanDepth := load32 m.mem (m.gTraceCache + 44)
  targetHitRate := load32 m.mem (m.gTraceCache + 48)

/-- `&gTraceBuckets[b]` -/
def bucketAddress (b : Bucket) : UInt64 :=
  m.gTraceBuckets + UInt64.ofNat (8 * b)

def bucket (b : Bucket) : UInt64 :=
  load64 m.mem (m.bucketAddress b)

/-- The entry at an address. -/
def entry (a : UInt64) : TraceCacheEntry where
  rip := load64 m.mem (a + 0)
  context := load64 m.mem (a + 8)
  translatedAddr := load64 m.mem (a + 16)
  microOpCount := load32 m.mem (a + 24)
  instructionCount := load32 m.mem (a + 28)
  executionCount := load32 m.mem (a + 32)
  pinCount := load32 m.mem (a + 36)
  dboOptimizationHint := load32 m.mem (a + 40)
  lruCounter := load32 m.mem (a + 44)
  valid := loadBool m.mem (a + 48)
  next := load64 m.mem (a + 56)

def view : TraceCache where
  gTraceCache := m.gTraceCache
  header := m.header
  gTraceBuckets := m.gTraceBuckets
  buckets := m.bucket
  heap := m.entry

/-! ## What is written -/

def store (a : UInt64) (size v : Nat) : TraceMemory :=
  { m with mem := Ram.store m.mem a size v }

def zeroMem (a : UInt64) (size : Nat) : TraceMemory :=
  m.store a size 0

/-- `entry->LruCounter = gTraceCache->LruCounter++`. -/
def stampLru (p : UInt64) : TraceMemory :=
  let c := m.header.lruCounter
  let m := m.store (m.gTraceCache + 32) 8 (c + 1).toNat
  m.store (p + 44) 4 c.toUInt32.toNat

end

/-- The header that `TraceCacheInit` writes. -/
def initHeader (mem : Bytes) (baseAddress size : UInt64) : TraceMemory :=
  let m : TraceMemory := ⟨mem, baseAddress, 0⟩
  let m := m.zeroMem baseAddress 56
  let m := m.store (baseAddress + 0) 8 (baseAddress + headerSize).toNat
  let m := m.store (baseAddress + 8) 8 (size - headerSize).toNat
  let m := m.store (baseAddress + 16) 8 m.header.baseAddress.toNat
  let m := m.store (baseAddress + 28) 4 traceCacheHashBuckets
  let m := m.store (baseAddress + 32) 8 0
  let m := m.store (baseAddress + 44) 4 traceCacheLruScan.toNat
  let m := m.store (baseAddress + 48) 4 75
  m.store (baseAddress + 40) 1 1

lemma initHeader_gTraceCache (mem : Bytes) (baseAddress size : UInt64) :
    (initHeader mem baseAddress size).gTraceCache = baseAddress := rfl

lemma initHeader_header (mem : Bytes) (baseAddress size : UInt64) :
    (initHeader mem baseAddress size).header =
      { baseAddress := baseAddress + headerSize
        size := size - headerSize
        nextAlloc := baseAddress + headerSize
        entryCount := 0
        hashBuckets := 65536
        lruCounter := 0
        initialized := true
        lruScanDepth := traceCacheLruScan
        targetHitRate := 75 } := by
  have hzero : load32 (Ram.store mem baseAddress 56 0) (baseAddress + 24) = 0 := by
    rw [load32, number_zero fun x hx => store_zero mem (hx.of_offset (by decide))]
    rfl
  simp (disch := decide) only [initHeader, zeroMem, header, store, load64_store, load64_store_nat,
    load32_store_nat, loadBool_store, load64_store_field, load32_store_field,
    loadBool_store_field, hzero]
  rfl

-- from here on the header is known by what is read from it
attribute [irreducible] initHeader

def traceCacheInit (mem : Bytes) (baseAddress size : UInt64) : TraceMemory × EfiStatus :=
  let size := initSize baseAddress size
  let m := initHeader mem baseAddress size
  let m := { m with gTraceBuckets := baseAddress + size - bucketSize }
  let m := m.zeroMem m.gTraceBuckets bucketSize.toNat
  (m, .success)

/-- What a lookup does to the entry that it finds. -/
def hit (m : TraceMemory) (p : UInt64) : TraceMemory :=
  let m := m.store (p + 32) 4 ((m.entry p).executionCount + 1).toNat
  let m := m.stampLru p
  if (m.entry p).executionCount > 100 then
    m.store (p + 40) 4 ((m.entry p).dboOptimizationHint ||| traceCacheDboFusionEnable).toNat
  else m

def traceCacheLookup (fuel : Nat) (m : TraceMemory) (rip context : UInt64) :
    Option (TraceMemory × UInt64) :=
  if m.view.ready then
    (m.view.find fuel rip context).map fun p => if p = 0 then (m, 0) else (m.hit p, p)
  else some (m, 0)

/-- What becomes of the victim of a scan. -/
def evict (m : TraceMemory) (victim : UInt64) : TraceMemory :=
  if victim ≠ 0 then
    let m := m.store (victim + 48) 1 0
    m.store (m.gTraceCache + 24) 4 (m.header.entryCount - 1).toNat
  else m

def traceCacheEvictLru (fuel : Nat) (m : TraceMemory) : Option TraceMemory :=
  ((scanOrder m.view.startBucket).foldlM (m.view.scan fuel) ⟨0xFFFFFFFFFFFFFFFF, 0, 0⟩).map
    fun acc => m.evict acc.victim

/-- The fields of a new entry from `Rip` to `DboOptimizationHint`. -/
def fill (m : TraceMemory) (newEntry rip context : UInt64) : TraceMemory :=
  let m := m.store (newEntry + 0) 8 rip.toNat
  let m := m.store (newEntry + 8) 8 context.toNat
  let m := m.store (newEntry + 16) 8 0
  let m := m.store (newEntry + 24) 4 0
  let m := m.store (newEntry + 28) 4 0
  let m := m.store (newEntry + 32) 4 1
  let m := m.store (newEntry + 36) 4 0
  m.store (newEntry + 40) 4 0

/-- Put an entry at the head of a bucket, and count it. -/
def link (m : TraceMemory) (newEntry : UInt64) (b : Bucket) : TraceMemory :=
  let m := m.store (newEntry + 56) 8 (m.bucket b).toNat
  let m := m.store (m.bucketAddress b) 8 newEntry.toNat
  m.store (m.gTraceCache + 24) 4 (m.header.entryCount + 1).toNat

/-- Allocate a new entry and put it at the head of its bucket. -/
def create (m : TraceMemory) (rip context : UInt64) : TraceMemory × UInt64 :=
  let m :=
    if m.header.nextAlloc + entrySize > m.header.baseAddress + m.header.size then
      m.store (m.gTraceCache + 16) 8 m.header.baseAddress.toNat
    else m
  let newEntry := m.header.nextAlloc
  let m := m.store (m.gTraceCache + 16) 8 (newEntry + entrySize).toNat
  let m := m.fill newEntry rip context
  let m := m.stampLru newEntry
  let m := m.store (newEntry + 48) 1 1
  (m.link newEntry (traceCacheHash rip context), newEntry)

def traceCacheInsert (fuel : Nat) (m : TraceMemory) (rip context : UInt64) :
    Option (TraceMemory × UInt64) :=
  if m.view.ready then
    (m.view.find fuel rip context).bind fun p =>
      if p = 0 then
        (if m.header.entryCount ≥ traceCacheMaxEntries then traceCacheEvictLru fuel m
          else some m).map fun m => m.create rip context
      else some (m.stampLru p, p)
  else some (m, 0)

def traceCachePinEntry (fuel : Nat) (m : TraceMemory) (rip context : UInt64) :
    Option TraceMemory :=
  (traceCacheLookup fuel m rip context).map fun (m, p) =>
    if p ≠ 0 then m.store (p + 36) 4 ((m.entry p).pinCount + 1).toNat else m

def traceCacheUnpinEntry (fuel : Nat) (m : TraceMemory) (rip context : UInt64) :
    Option TraceMemory :=
  (traceCacheLookup fuel m rip context).map fun (m, p) =>
    if p ≠ 0 ∧ (m.entry p).pinCount > 0 then
      m.store (p + 36) 4 ((m.entry p).pinCount - 1).toNat
    else m

/-- The body of the walks of `TraceCacheInvalidate`. -/
def invalidateEntry (rip : UInt64) (entry : UInt64) (m : TraceMemory) : TraceMemory :=
  if (m.entry entry).valid && (m.entry entry).rip == rip then m.store (entry + 48) 1 0 else m

def invalidateBucket (fuel : Nat) (rip : UInt64) (m : TraceMemory) (b : Bucket) :
    Option TraceMemory :=
  (walk 0 (fun _ _ => true) (invalidateEntry rip) (fun m entry => (m.entry entry).next) fuel
    (m.bucket b) m).map Prod.snd

def traceCacheInvalidate (fuel : Nat) (m : TraceMemory) (rip : UInt64) : Option TraceMemory :=
  if m.gTraceCache ≠ 0 then allBuckets.foldlM (invalidateBucket fuel rip) m else some m

/-- One call, with the pointer that it returns if it returns one. -/
def perform (fuel : Nat) (m : TraceMemory) : Op → Option (TraceMemory × Option UInt64)
  | .insert rip context => (traceCacheInsert fuel m rip context).map fun (m, p) => (m, some p)
  | .lookup rip context => (traceCacheLookup fuel m rip context).map fun (m, p) => (m, some p)
  | .pinEntry rip context => (traceCachePinEntry fuel m rip context).map fun m => (m, none)
  | .unpinEntry rip context => (traceCacheUnpinEntry fuel m rip context).map fun m => (m, none)
  | .invalidate rip => (traceCacheInvalidate fuel m rip).map fun m => (m, none)

/-- A call that returns. -/
def Step (m : TraceMemory) (op : Op) (answer : Option UInt64) (m' : TraceMemory) : Prop :=
  Settles (fun n => perform n m op) (m', answer)

end TraceMemory

end Bemi.TCache
