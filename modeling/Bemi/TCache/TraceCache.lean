import Mathlib.Algebra.GroupWithZero.Nat
import Mathlib.Data.List.FinRange
import Mathlib.Logic.Function.Basic
import Bemi.Efi
import Bemi.Lib.Chain

/-!
# Trace cache

Model of `performance/tcache/tracecache.c`: a hash table of translated traces. Entries come from a
bump allocator over an arena that starts again at the base when it is full; each of the 65536
buckets heads a chain linked by `Next`. The heap gives the entry at each address; the header and the
bucket table lie outside it. Pointers are addresses, `NULL` is 0.

The loops take fuel, one amount for each chain they walk.
-/

namespace Bemi.TCache
open Chain

abbrev traceCacheDefaultSize : UInt64 := 0x400000
abbrev traceCacheHashBuckets : Nat := 65536
abbrev traceCacheMaxEntries : UInt32 := 131072
abbrev traceCacheLruScan : UInt32 := 64
abbrev traceCacheDboFusionEnable : UInt32 := 1

/-- `sizeof(TRACE_CACHE_HEADER)` -/
abbrev headerSize : UInt64 := 56

/-- `sizeof(TRACE_CACHE_ENTRY)` -/
abbrev entrySize : UInt64 := 64

/-- `sizeof(TRACE_CACHE_ENTRY *) * TRACE_CACHE_HASH_BUCKETS` -/
abbrev bucketSize : UInt64 := 524288

abbrev Bucket := Fin traceCacheHashBuckets

def allBuckets : List Bucket := List.finRange traceCacheHashBuckets

structure TraceCacheEntry where
  rip : UInt64
  context : UInt64
  translatedAddr : UInt64
  microOpCount : UInt32
  instructionCount : UInt32
  executionCount : UInt32
  pinCount : UInt32
  dboOptimizationHint : UInt32
  lruCounter : UInt32
  valid : Bool
  next : UInt64
  deriving Inhabited

structure TraceCacheHeader where
  baseAddress : UInt64
  size : UInt64
  nextAlloc : UInt64
  entryCount : UInt32
  hashBuckets : UInt32
  lruCounter : UInt64
  initialized : Bool
  lruScanDepth : UInt32
  targetHitRate : UInt32

abbrev Heap := UInt64 → TraceCacheEntry

/-- The globals and what they point to. -/
structure TraceCache where
  gTraceCache : UInt64
  header : TraceCacheHeader
  gTraceBuckets : UInt64
  buckets : Bucket → UInt64
  heap : Heap

/-- The size `TraceCacheInit` goes on with. -/
def initSize (baseAddress size : UInt64) : UInt64 :=
  if baseAddress = 0 ∨ size < 4096 then traceCacheDefaultSize else size

/-- The bucket table at the end of the region begins behind the header. In a smaller region clearing
the table clears the header too. -/
def TableBehindHeader (baseAddress size : UInt64) : Prop :=
  headerSize.toNat + bucketSize.toNat ≤ (initSize baseAddress size).toNat

instance (baseAddress size : UInt64) : Decidable (TableBehindHeader baseAddress size) :=
  inferInstanceAs (Decidable (_ ≤ _))

/-- `heap` is what the memory of the arena held before. The header is kept, as it is when the table
lies behind it. -/
def traceCacheInit (heap : Heap) (baseAddress size : UInt64) : TraceCache × EfiStatus :=
  let size := initSize baseAddress size
  ({ gTraceCache := baseAddress
     header :=
       { baseAddress := baseAddress + headerSize
         size := size - headerSize
         nextAlloc := baseAddress + headerSize
         entryCount := 0
         hashBuckets := 65536
         lruCounter := 0
         initialized := true
         lruScanDepth := traceCacheLruScan
         targetHitRate := 75 }
     gTraceBuckets := baseAddress + size - bucketSize
     buckets := fun _ => 0
     heap := heap }, .success)

def traceCacheHash (rip context : UInt64) : Bucket :=
  let hash := rip ^^^ (context <<< 7)
  let hash := hash ^^^ (hash >>> 32)
  let hash := hash ^^^ (hash >>> 16)
  ⟨(hash &&& 65535).toNat, Nat.lt_succ_of_le (by rw [UInt64.toNat_and]; exact Nat.and_le_right)⟩

/-- `!gTraceCache || !gTraceCache->Initialized`, negated. -/
def TraceCache.ready (s : TraceCache) : Bool :=
  s.gTraceCache ≠ 0 && s.header.initialized

/-- The test of the chain walks of `TraceCacheLookup` and `TraceCacheInsert`. -/
def TraceCacheEntry.isFor (e : TraceCacheEntry) (rip context : UInt64) : Bool :=
  e.rip == rip && e.context == context && e.valid

/-- The walk along the chain of a key: its entry, or `NULL`. -/
def TraceCache.find (fuel : Nat) (s : TraceCache) (rip context : UInt64) : Option UInt64 :=
  (walk 0 (fun _ entry => !(s.heap entry).isFor rip context) (fun _ u => u)
    (fun _ entry => (s.heap entry).next) fuel (s.buckets (traceCacheHash rip context)) ()).map
      Prod.fst

def TraceCache.setEntry (s : TraceCache) (p : UInt64) (e : TraceCacheEntry) : TraceCache :=
  { s with heap := Function.update s.heap p e }

/-- `entry->LruCounter = gTraceCache->LruCounter++`. -/
def TraceCache.stampLru (s : TraceCache) (p : UInt64) : TraceCache :=
  { s.setEntry p { s.heap p with lruCounter := s.header.lruCounter.toUInt32 } with
    header := { s.header with lruCounter := s.header.lruCounter + 1 } }

/-- Count an execution; a trace that is hot gets a hint. -/
def TraceCacheEntry.executed (e : TraceCacheEntry) : TraceCacheEntry :=
  let e := { e with executionCount := e.executionCount + 1 }
  if e.executionCount > 100 then
    { e with dboOptimizationHint := e.dboOptimizationHint ||| traceCacheDboFusionEnable }
  else e

def traceCacheLookup (fuel : Nat) (s : TraceCache) (rip context : UInt64) :
    Option (TraceCache × UInt64) :=
  if s.ready then
    (s.find fuel rip context).map fun p =>
      if p = 0 then (s, 0) else ((s.setEntry p (s.heap p).executed).stampLru p, p)
  else some (s, 0)

/-! ## Eviction -/

structure Scan where
  minLRU : UInt64
  victim : UInt64
  scanned : UInt32

/-- The body of the scanning loop. -/
def Scan.entry (heap : Heap) (entry : UInt64) (acc : Scan) : Scan :=
  if (heap entry).valid && (heap entry).pinCount == 0 then
    if (heap entry).lruCounter.toUInt64 < acc.minLRU then
      ⟨(heap entry).lruCounter.toUInt64, entry, acc.scanned + 1⟩
    else { acc with scanned := acc.scanned + 1 }
  else acc

/-- The buckets in the order in which they are scanned. -/
def scanOrder (startBucket : Bucket) : List Bucket :=
  allBuckets.map fun i => startBucket + i

def TraceCache.scan (fuel : Nat) (s : TraceCache) (acc : Scan) (bucket : Bucket) : Option Scan :=
  if acc.scanned < s.header.lruScanDepth then
    (walk 0 (fun acc _ => acc.scanned < s.header.lruScanDepth) (Scan.entry s.heap)
      (fun _ entry => (s.heap entry).next) fuel (s.buckets bucket) acc).map Prod.snd
  else some acc

/-- `gTraceCache->LruCounter & (TRACE_CACHE_HASH_BUCKETS - 1)`. -/
def TraceCache.startBucket (s : TraceCache) : Bucket :=
  ⟨s.header.lruCounter.toNat % 65536, Nat.mod_lt _ (by decide)⟩

/-- What becomes of the victim of a scan. -/
def TraceCache.evict (s : TraceCache) (victim : UInt64) : TraceCache :=
  if victim ≠ 0 then
    { s.setEntry victim { s.heap victim with valid := false } with
      header := { s.header with entryCount := s.header.entryCount - 1 } }
  else s

def traceCacheEvictLru (fuel : Nat) (s : TraceCache) : Option TraceCache :=
  ((scanOrder s.startBucket).foldlM (s.scan fuel) ⟨0xFFFFFFFFFFFFFFFF, 0, 0⟩).map fun acc =>
    s.evict acc.victim

/-! ## Insertion -/

/-- Where the next entry goes: at `NextAlloc`, or at the base when it would not fit there. -/
def TraceCacheHeader.alloc (h : TraceCacheHeader) : UInt64 :=
  if h.nextAlloc + entrySize > h.baseAddress + h.size then h.baseAddress else h.nextAlloc

/-- What a new entry is filled with. -/
def TraceCache.newEntry (s : TraceCache) (rip context : UInt64) : TraceCacheEntry where
  rip := rip
  context := context
  translatedAddr := 0
  microOpCount := 0
  instructionCount := 0
  executionCount := 1
  pinCount := 0
  dboOptimizationHint := 0
  lruCounter := s.header.lruCounter.toUInt32
  valid := true
  next := s.buckets (traceCacheHash rip context)

/-- Allocate a new entry and put it at the head of its bucket. -/
def TraceCache.create (s : TraceCache) (rip context : UInt64) : TraceCache :=
  let newEntry := s.header.alloc
  { s.setEntry newEntry (s.newEntry rip context) with
    header :=
      { s.header with
        nextAlloc := newEntry + entrySize
        lruCounter := s.header.lruCounter + 1
        entryCount := s.header.entryCount + 1 }
    buckets := Function.update s.buckets (traceCacheHash rip context) newEntry }

def traceCacheInsert (fuel : Nat) (s : TraceCache) (rip context : UInt64) :
    Option (TraceCache × UInt64) :=
  if s.ready then
    (s.find fuel rip context).bind fun p =>
      if p = 0 then
        (if s.header.entryCount ≥ traceCacheMaxEntries then traceCacheEvictLru fuel s
          else some s).map fun s => (s.create rip context, s.header.alloc)
      else some (s.stampLru p, p)
  else some (s, 0)

/-! ## Pinning and invalidation -/

def traceCachePinEntry (fuel : Nat) (s : TraceCache) (rip context : UInt64) : Option TraceCache :=
  (traceCacheLookup fuel s rip context).map fun (s, p) =>
    if p ≠ 0 then s.setEntry p { s.heap p with pinCount := (s.heap p).pinCount + 1 } else s

def traceCacheUnpinEntry (fuel : Nat) (s : TraceCache) (rip context : UInt64) :
    Option TraceCache :=
  (traceCacheLookup fuel s rip context).map fun (s, p) =>
    if p ≠ 0 ∧ (s.heap p).pinCount > 0 then
      s.setEntry p { s.heap p with pinCount := (s.heap p).pinCount - 1 }
    else s

/-- The body of the walks of `TraceCacheInvalidate`. -/
def invalidateEntry (rip : UInt64) (entry : UInt64) (heap : Heap) : Heap :=
  if (heap entry).valid && (heap entry).rip == rip then
    Function.update heap entry { heap entry with valid := false }
  else heap

def invalidateBucket (fuel : Nat) (s : TraceCache) (rip : UInt64) (heap : Heap) (b : Bucket) :
    Option Heap :=
  (walk 0 (fun _ _ => true) (invalidateEntry rip) (fun heap entry => (heap entry).next) fuel
    (s.buckets b) heap).map Prod.snd

def traceCacheInvalidate (fuel : Nat) (s : TraceCache) (rip : UInt64) : Option TraceCache :=
  if s.gTraceCache ≠ 0 then
    (allBuckets.foldlM (invalidateBucket fuel s rip) s.heap).map fun heap =>
      { s with heap := heap }
  else some s

/-! ## Runs -/

inductive Op where
  | insert (rip context : UInt64)
  | lookup (rip context : UInt64)
  | pinEntry (rip context : UInt64)
  | unpinEntry (rip context : UInt64)
  | invalidate (rip : UInt64)
  deriving DecidableEq

/-- One call, with the pointer that it returns if it returns one. -/
def perform (fuel : Nat) (s : TraceCache) : Op → Option (TraceCache × Option UInt64)
  | .insert rip context => (traceCacheInsert fuel s rip context).map fun (s, p) => (s, some p)
  | .lookup rip context => (traceCacheLookup fuel s rip context).map fun (s, p) => (s, some p)
  | .pinEntry rip context => (traceCachePinEntry fuel s rip context).map fun s => (s, none)
  | .unpinEntry rip context => (traceCacheUnpinEntry fuel s rip context).map fun s => (s, none)
  | .invalidate rip => (traceCacheInvalidate fuel s rip).map fun s => (s, none)

/-- A call that returns. -/
def Step (s : TraceCache) (op : Op) (answer : Option UInt64) (s' : TraceCache) : Prop :=
  Settles (fun n => perform n s op) (s', answer)

end Bemi.TCache
