/-
This file models the cache of chunks of `storage.c` and the reads that go through it.

The cache is a list of entries with its statistics and a clock; the entry that is
evicted is the one used least frequently, and among those the one used least recently.
A read takes the mutex of the storage twice. The first section looks up the chunk,
and returns a cached copy if there is one. Otherwise the file is read without the
mutex, and the second section stores the bytes. `ChunkRead` says where a read is between
these sections. Memory is never short.
-/

import Mathlib.Data.List.Perm.Basic
import SuperPeerNet.Storage.Operations

namespace SuperPeerNet

/-! ### The cache -/

/-- `CacheEntry`. -/
structure CacheEntry where
  id : ObjectID
  index : UInt64
  chunk : StoredChunk
  data : List UInt8
  size : UInt64
  frequency : UInt64
  lastAccess : UInt64

/-- What an entry is searched by. -/
def CacheEntry.key (entry : CacheEntry) : ObjectID × UInt64 := (entry.id, entry.index)

/-- `StorageCacheStats`, with a `size_t` of 64 bits. -/
structure StorageCacheStats where
  capacityBytes : UInt64
  usedBytes : UInt64
  entries : UInt64
  hits : UInt64
  misses : UInt64
  evictions : UInt64

/-- The fields `cache`, `cache_stats` and `cache_clock` of `struct Storage`. -/
structure Cache where
  list : List CacheEntry
  stats : StorageCacheStats
  clock : UInt64

/-- `STORAGE_DEFAULT_CACHE_BYTES`. -/
def storageDefaultCacheBytes : UInt64 := 16 * 1024 * 1024

/-- The cache of a new storage. -/
def Cache.initial : Cache := ⟨[], ⟨storageDefaultCacheBytes, 0, 0, 0, 0, 0⟩, 0⟩

/-- `cache_increment`, and the same step of the clock. -/
def cacheIncrement (value : UInt64) : UInt64 :=
  if value < 0xffffffffffffffff then value + 1 else value

/-- `cache_find_locked`. -/
def cacheFind (cache : Cache) (id : ObjectID) (index : UInt64) : Option CacheEntry :=
  KeyedList.lookup CacheEntry.key cache.list (id, index)

/-- An entry that is used at the given time. -/
def CacheEntry.touch (now : UInt64) (entry : CacheEntry) : CacheEntry :=
  { entry with lastAccess := now, frequency := cacheIncrement entry.frequency }

/-- `cache_touch_locked`, on the entry that is found. -/
def cacheTouch (cache : Cache) (id : ObjectID) (index : UInt64) : Cache :=
  let now := cacheIncrement cache.clock
  { cache with
    clock := now
    list := KeyedList.modify CacheEntry.key (CacheEntry.touch now) (id, index) cache.list }

/-- The comparison of the loop of `cache_evict_one_locked`. -/
def CacheEntry.precedes (entry victim : CacheEntry) : Bool :=
  entry.frequency < victim.frequency ||
    (entry.frequency = victim.frequency && entry.lastAccess < victim.lastAccess)

/-- One turn of that loop: the victim so far, with its place in the list. -/
def victimTurn (victim : Option (CacheEntry × Nat)) (entry : CacheEntry × Nat) :
    Option (CacheEntry × Nat) :=
  match victim with
  | none => some entry
  | some best => if entry.1.precedes best.1 then some entry else victim

/-- The entry that the loop chooses. -/
def victimOf (list : List CacheEntry) : Option (CacheEntry × Nat) :=
  list.zipIdx.foldl victimTurn none

/-- `cache_evict_one_locked`, which fails when there is no entry. -/
def cacheEvictOne (cache : Cache) : Option Cache :=
  match victimOf cache.list with
  | none => none
  | some (victim, place) => some { cache with
      list := cache.list.eraseIdx place
      stats := { cache.stats with
        usedBytes := cache.stats.usedBytes - victim.size
        entries := cache.stats.entries - 1
        evictions := cacheIncrement cache.stats.evictions } }

/-- Evict entries while more than the given number of bytes is used, and say whether this has
succeeded. Every turn removes an entry, so more turns than there are entries are not needed. -/
def cacheEvictTo (limit : UInt64) : Nat → Cache → Cache × Bool
  | 0, cache => (cache, false)
  | turns + 1, cache =>
    if cache.stats.usedBytes > limit then
      match cacheEvictOne cache with
      | none => (cache, false)
      | some next => cacheEvictTo limit turns next
    else (cache, true)

/-- `cache_evict_to_capacity_locked`. -/
def cacheEvictToCapacity (cache : Cache) : Cache :=
  (cacheEvictTo cache.stats.capacityBytes (cache.list.length + 1) cache).1

/-- Put an entry at the head of the list. -/
def Cache.insert (cache : Cache) (id : ObjectID) (chunk : StoredChunk) (data : List UInt8) :
    Cache :=
  let now := cacheIncrement cache.clock
  { list := ⟨id, chunk.index, chunk, data, chunk.compressedSize.toUInt64, 1, now⟩ :: cache.list
    stats := { cache.stats with
      usedBytes := cache.stats.usedBytes + chunk.compressedSize.toUInt64
      entries := cache.stats.entries + 1 }
    clock := now }

/-- `cache_store_locked`. -/
def cacheStore (cache : Cache) (id : ObjectID) (chunk : StoredChunk) (data : List UInt8) : Cache :=
  let size := chunk.compressedSize.toUInt64
  if cache.stats.capacityBytes = 0 ∨ size > cache.stats.capacityBytes ∨
      (cacheFind cache id chunk.index).isSome then cache
  else match cacheEvictTo (cache.stats.capacityBytes - size) (cache.list.length + 1) cache with
    | (evicted, false) => evicted
    | (evicted, true) => evicted.insert id chunk data

/-- `storage_set_cache_capacity`. -/
def storageSetCacheCapacity (cache : Cache) (capacityBytes : UInt64) : Cache :=
  cacheEvictToCapacity { cache with stats := { cache.stats with capacityBytes := capacityBytes } }

/-! ### Reads -/

/-- Where a call of `storage_read_chunk` is. -/
inductive ChunkRead where
  /-- The chunk is not cached, and its file has not been read. -/
  | opening (id : ObjectID) (index : UInt64) (record : StoredChunk)
  /-- The file has been read, and the bytes have not been stored in the cache. -/
  | storing (id : ObjectID) (index : UInt64) (record : StoredChunk) (data : List UInt8)
  /-- The call has returned. -/
  | answered (answer : Except Errno TransferChunk)
  deriving DecidableEq

/-- A hit, on the entry that is found. -/
def Cache.hit (cache : Cache) (id : ObjectID) (index : UInt64) : Cache :=
  let touched := cacheTouch cache id index
  { touched with stats := { touched.stats with hits := cacheIncrement touched.stats.hits } }

/-- A miss. -/
def Cache.miss (cache : Cache) : Cache :=
  { cache with stats := { cache.stats with misses := cacheIncrement cache.stats.misses } }

/-- The first section of `storage_read_chunk`. -/
def readSection (storage : Storage) (cache : Cache) (id : ObjectID) (index : UInt64) :
    Cache × ChunkRead :=
  match publishedChunk storage id index with
  | .error code => (cache, .answered (.error code))
  | .ok record =>
    match cacheFind cache id index with
    | some cached => (cache.hit id index, .answered (.ok (cached.chunk.filled id cached.data)))
    | none => (cache.miss, .opening id index record)

/-- The access to the file, without the mutex. -/
def readFile (disk : Disk) : ChunkRead → ChunkRead
  | .opening id index record =>
    match readAll (disk.chunks .objects id index) record.compressedSize.toNat with
    | .error code => .answered (.error code)
    | .ok data => .storing id index record data
  | reading => reading

/-- The second section of `storage_read_chunk`. -/
def storeSection (cache : Cache) : ChunkRead → Cache × ChunkRead
  | .storing id _ record data =>
    (cacheStore cache id record data, .answered (.ok (record.filled id data)))
  | reading => (cache, reading)

/-- `storage_read_chunk`, when nothing comes between its sections. -/
def storageReadChunk (storage : Storage) (cache : Cache) (disk : Disk) (id : ObjectID)
    (index : UInt64) : Cache × ChunkRead :=
  let looked := readSection storage cache id index
  storeSection looked.1 (readFile disk looked.2)

/-! ### What the operations do to the list -/

/-- The loop chooses one of the entries, unless there is none. -/
theorem victimTurn_foldl (inside : CacheEntry × Nat → Prop) {entries : List (CacheEntry × Nat)}
    (all : ∀ entry ∈ entries, inside entry) {victim : Option (CacheEntry × Nat)}
    (known : ∀ best, victim = some best → inside best) :
    (∀ best, entries.foldl victimTurn victim = some best → inside best) ∧
      (entries.foldl victimTurn victim = none → victim = none ∧ entries = []) := by
  induction entries generalizing victim with
  | nil => exact ⟨known, fun none => ⟨none, rfl⟩⟩
  | cons entry rest inductionHypothesis =>
    obtain ⟨here, later⟩ := List.forall_mem_cons.mp all
    have turned : ∃ best, victimTurn victim entry = some best ∧ inside best := by
      unfold victimTurn
      cases victim with
      | none => exact ⟨entry, rfl, here⟩
      | some best =>
        simp only
        split
        · exact ⟨entry, rfl, here⟩
        · exact ⟨best, rfl, known best rfl⟩
    obtain ⟨best, isBest, holds⟩ := turned
    rw [List.foldl_cons, isBest]
    have knownBest : ∀ other, some best = some other → inside other := by
      intro other same
      cases same
      exact holds
    obtain ⟨found, missing⟩ := inductionHypothesis later knownBest
    refine ⟨found, fun none => ?_⟩
    cases (missing none).1

/-- The victim is in its place, and there is one unless the list is empty. -/
theorem victimOf_spec (list : List CacheEntry) :
    (∀ victim place, victimOf list = some (victim, place) → list[place]? = some victim) ∧
      (victimOf list = none → list = []) := by
  let inPlace : CacheEntry × Nat → Prop := fun entry => list[entry.2]? = some entry.1
  have all : ∀ entry ∈ list.zipIdx, inPlace entry :=
    fun entry member => List.mem_zipIdx_iff_getElem?.mp member
  have known : ∀ best, none = some best → inPlace best := fun _ wrong => by cases wrong
  obtain ⟨found, missing⟩ := victimTurn_foldl inPlace all known
  refine ⟨fun victim place chosen => found (victim, place) chosen, fun none => ?_⟩
  simpa using (missing none).2

/-- An eviction fails only on an empty list. -/
theorem cacheEvictOne_none {cache : Cache} (failed : cacheEvictOne cache = none) :
    cache.list = [] := by
  unfold cacheEvictOne at failed
  split at failed
  · rename_i missing
    exact (victimOf_spec cache.list).2 missing
  · cases failed

/-- An eviction removes one entry, with its size. -/
theorem cacheEvictOne_some {cache next : Cache} (evicted : cacheEvictOne cache = some next) :
    ∃ victim rest, cache.list.Perm (victim :: rest) ∧ rest.Sublist cache.list ∧
      next = { cache with
        list := rest
        stats := { cache.stats with
          usedBytes := cache.stats.usedBytes - victim.size
          entries := cache.stats.entries - 1
          evictions := cacheIncrement cache.stats.evictions } } := by
  unfold cacheEvictOne at evicted
  split at evicted
  · cases evicted
  · rename_i victim place chosen
    cases evicted
    obtain ⟨inside, there⟩ :=
      List.getElem?_eq_some_iff.mp ((victimOf_spec cache.list).1 victim place chosen)
    refine ⟨victim, cache.list.eraseIdx place, ?_, List.eraseIdx_sublist _ _, rfl⟩
    rw [← there]
    exact (List.getElem_cons_eraseIdx_perm inside).symm

/-- What every eviction keeps, a sequence of evictions keeps. -/
theorem cacheEvictTo_keeps {property : Cache → Prop} {limit : UInt64}
    (step : ∀ cache next, property cache → cacheEvictOne cache = some next → property next)
    (turns : Nat) {cache : Cache} (before : property cache) :
    property (cacheEvictTo limit turns cache).1 := by
  induction turns generalizing cache with
  | zero => exact before
  | succ turns inductionHypothesis =>
    rw [cacheEvictTo]
    split
    · cases evicted : cacheEvictOne cache with
      | none => exact before
      | some next => exact inductionHypothesis (step cache next before evicted)
    · exact before

theorem cacheEvictTo_sublist (limit : UInt64) (turns : Nat) (cache : Cache) :
    (cacheEvictTo limit turns cache).1.list.Sublist cache.list := by
  have step : ∀ before next, before.list.Sublist cache.list → cacheEvictOne before = some next →
      next.list.Sublist cache.list := by
    intro before next earlier evicted
    obtain ⟨victim, rest, -, sublist, rfl⟩ := cacheEvictOne_some evicted
    exact sublist.trans earlier
  exact cacheEvictTo_keeps step turns (List.Sublist.refl _)

theorem storageSetCacheCapacity_sublist (cache : Cache) (capacityBytes : UInt64) :
    (storageSetCacheCapacity cache capacityBytes).list.Sublist cache.list :=
  cacheEvictTo_sublist _ _ { cache with
    stats := { cache.stats with capacityBytes := capacityBytes } }

/-- A store only evicts, or it inserts the chunk after some evictions. -/
theorem cacheStore_cases (cache : Cache) (id : ObjectID) (chunk : StoredChunk)
    (data : List UInt8) :
    (cacheStore cache id chunk data).list.Sublist cache.list ∨
    ∃ evicted : Cache, evicted.list.Sublist cache.list ∧
      cacheStore cache id chunk data = evicted.insert id chunk data := by
  unfold cacheStore
  simp only
  split
  · exact Or.inl (List.Sublist.refl _)
  · generalize done : cacheEvictTo _ _ cache = result
    have sublist : result.1.list.Sublist cache.list := done ▸ cacheEvictTo_sublist _ _ cache
    obtain ⟨evicted, succeeded⟩ := result
    cases succeeded with
    | false => exact Or.inl sublist
    | true => exact Or.inr ⟨evicted, sublist, rfl⟩

end SuperPeerNet
