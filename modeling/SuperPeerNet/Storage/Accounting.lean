/-
This file proves that the statistics of the cache are true.

The counters are machine words that are updated one by one, and the counters of hits,
misses and evictions stay at their last value when they are full. Every eviction
subtracts the size of an entry of the list and every insertion adds one, so nothing
underflows and the loops that evict always end with enough room. The tally of a
schedule counts from outside the reads of existing chunks and the insertions.
-/

import SuperPeerNet.Storage.Readers

namespace SuperPeerNet

/-! ### Counters -/

/-- A counter that is full. -/
def counterMax : Nat := 2 ^ 64 - 1

theorem cacheIncrement_toNat (value : UInt64) :
    (cacheIncrement value).toNat = if value.toNat < counterMax then value.toNat + 1
      else counterMax := by
  have bound := value.toNat_lt
  have last : (0xffffffffffffffff : UInt64).toNat = counterMax := rfl
  unfold cacheIncrement
  split
  · rename_i small
    rw [UInt64.lt_iff_toNat_lt, last] at small
    rw [if_pos small, UInt64.toNat_add, show (1 : UInt64).toNat = 1 from rfl, Nat.mod_eq_of_lt]
    unfold counterMax at small
    omega
  · rename_i full
    rw [UInt64.lt_iff_toNat_lt, last] at full
    rw [if_neg full]
    unfold counterMax at full ⊢
    omega

/-- The entries of a cache and those that have been evicted add up to a number, until the counter
of evictions is full. -/
def Cache.Balanced (insertions : Nat) (cache : Cache) : Prop :=
  cache.stats.evictions.toNat = counterMax ∨
    cache.stats.evictions.toNat + cache.list.length = insertions

/-- The hits and the misses add up to a number, until one of the counters is full. -/
def StorageCacheStats.Balanced (reads : Nat) (stats : StorageCacheStats) : Prop :=
  stats.hits.toNat = counterMax ∨ stats.misses.toNat = counterMax ∨
    stats.hits.toNat + stats.misses.toNat = reads

/-- The statistics describe the list of entries. -/
structure Cache.Counted (cache : Cache) : Prop where
  used : cache.stats.usedBytes.toNat = (cache.list.map fun entry => entry.size.toNat).sum
  entries : cache.stats.entries.toNat = cache.list.length
  distinct : KeyedList.Distinct CacheEntry.key cache.list
  frequent : ∀ entry ∈ cache.list, 1 ≤ entry.frequency.toNat
  sized : ∀ entry ∈ cache.list, 1 ≤ entry.size.toNat

/-- The invariant of a cache. -/
structure Cache.Accounted (cache : Cache) : Prop extends cache.Counted where
  within : cache.stats.usedBytes ≤ cache.stats.capacityBytes

/-! ### Evictions -/

/-- What evictions do to a cache. -/
structure Evicts (before after : Cache) : Prop where
  sublist : after.list.Sublist before.list
  counted : before.Counted → after.Counted
  balanced : ∀ insertions, before.Balanced insertions → after.Balanced insertions
  capacity : after.stats.capacityBytes = before.stats.capacityBytes
  hits : after.stats.hits = before.stats.hits
  misses : after.stats.misses = before.stats.misses

namespace Evicts

theorem refl (cache : Cache) : Evicts cache cache :=
  ⟨List.Sublist.refl _, id, fun _ => id, rfl, rfl, rfl⟩

theorem trans {first second third : Cache} (before : Evicts first second)
    (after : Evicts second third) : Evicts first third :=
  ⟨after.sublist.trans before.sublist, fun counted => after.counted (before.counted counted),
    fun insertions balanced => after.balanced insertions (before.balanced insertions balanced),
    after.capacity.trans before.capacity, after.hits.trans before.hits,
    after.misses.trans before.misses⟩

/-- One eviction. -/
theorem one {cache next : Cache} (evicted : cacheEvictOne cache = some next) :
    Evicts cache next := by
  obtain ⟨victim, rest, perm, sublist, rfl⟩ := cacheEvictOne_some evicted
  have length : cache.list.length = rest.length + 1 := perm.length_eq
  refine ⟨sublist, fun counted => ?_, fun insertions balanced => ?_, rfl, rfl, rfl⟩
  · have total := (perm.map fun entry => entry.size.toNat).sum_nat
    rw [List.map_cons, List.sum_cons, ← counted.used] at total
    have count := counted.entries
    rw [length] at count
    refine ⟨?_, ?_, counted.distinct.sublist sublist,
      fun entry member => counted.frequent entry (sublist.subset member),
      fun entry member => counted.sized entry (sublist.subset member)⟩
    · have large : victim.size ≤ cache.stats.usedBytes := UInt64.le_iff_toNat_le.mpr (by omega)
      show (cache.stats.usedBytes - victim.size).toNat =
        (rest.map fun entry => entry.size.toNat).sum
      rw [UInt64.toNat_sub_of_le _ _ large]
      omega
    · have positive : 1 ≤ cache.stats.entries := UInt64.le_iff_toNat_le.mpr (by
        rw [count]
        exact Nat.le_add_left 1 rest.length)
      show (cache.stats.entries - 1).toNat = rest.length
      rw [UInt64.toNat_sub_of_le _ _ positive, count]
      rfl
  · unfold Cache.Balanced at balanced ⊢
    simp only [cacheIncrement_toNat]
    split
    · rename_i notFull
      rcases balanced with full | sum
      · omega
      · right
        omega
    · exact Or.inl rfl

theorem evictTo (limit : UInt64) (turns : Nat) (cache : Cache) :
    Evicts cache (cacheEvictTo limit turns cache).1 :=
  cacheEvictTo_keeps (fun _ _ before evicted => before.trans (one evicted)) turns (refl cache)

end Evicts

/-- With a turn more than there are entries, the loop ends because there is enough room. -/
theorem cacheEvictTo_room {cache : Cache} (counted : cache.Counted) (limit : UInt64) {turns : Nat}
    (enough : cache.list.length < turns) :
    ∃ evicted, cacheEvictTo limit turns cache = (evicted, true) ∧
      evicted.stats.usedBytes ≤ limit := by
  induction turns generalizing cache with
  | zero => omega
  | succ turns inductionHypothesis =>
    rw [cacheEvictTo]
    split
    · rename_i full
      cases evicted : cacheEvictOne cache with
      | none =>
        -- An empty list uses no bytes.
        have used := counted.used
        rw [cacheEvictOne_none evicted] at used
        rw [gt_iff_lt, UInt64.lt_iff_toNat_lt, used] at full
        cases full
      | some next =>
        refine inductionHypothesis ((Evicts.one evicted).counted counted) ?_
        obtain ⟨victim, rest, perm, -, rfl⟩ := cacheEvictOne_some evicted
        have length : cache.list.length = rest.length + 1 := perm.length_eq
        show rest.length < turns
        omega
    · rename_i room
      exact ⟨cache, rfl, UInt64.not_lt.mp room⟩

/-! ### Operations -/

/-- A change of the capacity. -/
theorem Cache.Accounted.setCapacity {cache : Cache} (accounted : cache.Accounted)
    (capacityBytes : UInt64) :
    (storageSetCacheCapacity cache capacityBytes).Accounted ∧
      Evicts { cache with stats := { cache.stats with capacityBytes := capacityBytes } }
        (storageSetCacheCapacity cache capacityBytes) := by
  let resized : Cache := { cache with stats := { cache.stats with capacityBytes := capacityBytes } }
  have counted : resized.Counted := ⟨accounted.used, accounted.entries, accounted.distinct,
    accounted.frequent, accounted.sized⟩
  obtain ⟨evicted, done, room⟩ := cacheEvictTo_room counted capacityBytes
    (Nat.lt_succ_self resized.list.length)
  have evicts : Evicts resized evicted := by
    have all := Evicts.evictTo capacityBytes (resized.list.length + 1) resized
    rw [done] at all
    exact all
  have result : storageSetCacheCapacity cache capacityBytes = evicted := congrArg Prod.fst done
  rw [result]
  refine ⟨⟨evicts.counted counted, ?_⟩, evicts⟩
  rw [evicts.capacity]
  exact room

/-- An insertion into a cache with enough room. -/
theorem Cache.Counted.insert {cache : Cache} (counted : cache.Counted) {id : ObjectID}
    {chunk : StoredChunk} (data : List UInt8) (nonempty : chunk.compressedSize ≠ 0)
    (fits : chunk.compressedSize.toUInt64 ≤ cache.stats.capacityBytes)
    (room : cache.stats.usedBytes ≤
      cache.stats.capacityBytes - chunk.compressedSize.toUInt64)
    (fresh : cacheFind cache id chunk.index = none) :
    (cache.insert id chunk data).Accounted := by
  have size : chunk.compressedSize.toUInt64.toNat = chunk.compressedSize.toNat :=
    UInt32.toNat_toUInt64 _
  have positive : 1 ≤ chunk.compressedSize.toNat :=
    Nat.one_le_iff_ne_zero.mpr fun zero => nonempty (UInt32.toNat_inj.mp zero)
  have bound := cache.stats.capacityBytes.toNat_lt
  rw [UInt64.le_iff_toNat_le, UInt64.toNat_sub_of_le _ _ fits, size] at room
  rw [UInt64.le_iff_toNat_le, size] at fits
  have used : (cache.stats.usedBytes + chunk.compressedSize.toUInt64).toNat =
      cache.stats.usedBytes.toNat + chunk.compressedSize.toNat := by
    rw [UInt64.toNat_add, size, Nat.mod_eq_of_lt (by omega)]
  -- Every entry has at least one byte, so the number of entries is a machine word.
  have few : cache.list.length ≤ cache.stats.usedBytes.toNat := by
    have sizes : ∀ size ∈ cache.list.map (fun entry => entry.size.toNat), 1 ≤ size := by
      intro size member
      obtain ⟨entry, inside, rfl⟩ := List.mem_map.mp member
      exact counted.sized entry inside
    have length := List.length_le_sum_of_one_le _ sizes
    rw [List.length_map, ← counted.used] at length
    exact length
  refine ⟨⟨?_, ?_, ?_, ?_, ?_⟩, ?_⟩
  · show (cache.stats.usedBytes + chunk.compressedSize.toUInt64).toNat =
      chunk.compressedSize.toUInt64.toNat + (cache.list.map fun entry => entry.size.toNat).sum
    rw [used, size, ← counted.used, Nat.add_comm]
  · show (cache.stats.entries + 1).toNat = cache.list.length + 1
    rw [UInt64.toNat_add, counted.entries, show (1 : UInt64).toNat = 1 from rfl,
      Nat.mod_eq_of_lt (by omega)]
  · refine List.pairwise_cons.mpr ⟨fun entry member same => ?_, counted.distinct⟩
    exact KeyedList.lookup_eq_none.mp fresh entry member same.symm
  · intro entry member
    rcases List.mem_cons.mp member with rfl | old
    · exact le_rfl
    · exact counted.frequent entry old
  · intro entry member
    rcases List.mem_cons.mp member with rfl | old
    · exact size.symm ▸ positive
    · exact counted.sized entry old
  · show cache.stats.usedBytes + chunk.compressedSize.toUInt64 ≤ cache.stats.capacityBytes
    rw [UInt64.le_iff_toNat_le, used]
    omega

/-- A store leaves the cache as it is, or it inserts the chunk after some evictions. -/
theorem Cache.Accounted.store {cache : Cache} (accounted : cache.Accounted) (id : ObjectID)
    {chunk : StoredChunk} (data : List UInt8) (nonempty : chunk.compressedSize ≠ 0) :
    cacheStore cache id chunk data = cache ∨
    ∃ evicted : Cache, Evicts cache evicted ∧ cacheFind cache id chunk.index = none ∧
      cacheStore cache id chunk data = evicted.insert id chunk data ∧
      (evicted.insert id chunk data).Accounted := by
  unfold cacheStore
  simp only
  split
  · exact Or.inl rfl
  · rename_i checked
    rw [not_or, not_or, Bool.not_eq_true, Option.isSome_eq_false_iff, Option.isNone_iff_eq_none,
      gt_iff_lt, UInt64.not_lt] at checked
    obtain ⟨-, fits, fresh⟩ := checked
    obtain ⟨evicted, done, room⟩ := cacheEvictTo_room accounted.toCounted
      (cache.stats.capacityBytes - chunk.compressedSize.toUInt64)
      (Nat.lt_succ_self cache.list.length)
    have evicts : Evicts cache evicted := by
      have all := Evicts.evictTo (cache.stats.capacityBytes - chunk.compressedSize.toUInt64)
        (cache.list.length + 1) cache
      rw [done] at all
      exact all
    have absent : cacheFind evicted id chunk.index = none :=
      KeyedList.lookup_eq_none.mpr fun entry member =>
        KeyedList.lookup_eq_none.mp fresh entry (evicts.sublist.subset member)
    rw [done]
    refine Or.inr ⟨evicted, evicts, fresh, rfl, ?_⟩
    refine (evicts.counted accounted.toCounted).insert data nonempty ?_ ?_ absent
    · rw [evicts.capacity]
      exact fits
    · rw [evicts.capacity]
      exact room

theorem Cache.length_hit (cache : Cache) (id : ObjectID) (index : UInt64) :
    (cache.hit id index).list.length = cache.list.length :=
  KeyedList.length_modify cache.list

/-- A hit. -/
theorem Cache.Accounted.hit {cache : Cache} (accounted : cache.Accounted) (id : ObjectID)
    (index : UInt64) : (cache.hit id index).Accounted := by
  let touch := CacheEntry.touch (cacheIncrement cache.clock)
  have sameSize : ∀ entry, entry.key = (id, index) → (touch entry).size.toNat = entry.size.toNat :=
    fun _ _ => rfl
  have sameKey : ∀ entry, (touch entry).key = entry.key := fun _ => rfl
  have sizes : (cache.hit id index).list.map (fun entry => entry.size.toNat) =
      cache.list.map fun entry => entry.size.toNat :=
    KeyedList.map_modify _ sameSize cache.list
  refine ⟨⟨?_, ?_, KeyedList.distinct_modify sameKey accounted.distinct, ?_, ?_⟩,
    accounted.within⟩
  · rw [sizes]
    exact accounted.used
  · rw [cache.length_hit id index]
    exact accounted.entries
  · intro entry member
    rcases KeyedList.mem_modify member with old | ⟨old, -, rfl⟩
    · exact accounted.frequent entry old
    · show 1 ≤ (cacheIncrement old.frequency).toNat
      rw [cacheIncrement_toNat]
      split
      · exact Nat.le_add_left 1 _
      · decide
  · intro entry member
    rcases KeyedList.mem_modify member with old | ⟨old, found, rfl⟩
    · exact accounted.sized entry old
    · exact accounted.sized old (KeyedList.lookup_mem found)

theorem Cache.Accounted.miss {cache : Cache} (accounted : cache.Accounted) :
    cache.miss.Accounted :=
  ⟨⟨accounted.used, accounted.entries, accounted.distinct, accounted.frequent, accounted.sized⟩,
    accounted.within⟩

/-- A counter that counts one more read. -/
theorem StorageCacheStats.Balanced.hit {stats : StorageCacheStats} {reads : Nat}
    (balanced : stats.Balanced reads) :
    StorageCacheStats.Balanced (reads + 1) { stats with hits := cacheIncrement stats.hits } := by
  unfold Balanced at balanced ⊢
  simp only [cacheIncrement_toNat]
  split
  · omega
  · exact Or.inl rfl

@[inherit_doc StorageCacheStats.Balanced.hit]
theorem StorageCacheStats.Balanced.miss {stats : StorageCacheStats} {reads : Nat}
    (balanced : stats.Balanced reads) :
    StorageCacheStats.Balanced (reads + 1)
      { stats with misses := cacheIncrement stats.misses } := by
  unfold Balanced at balanced ⊢
  simp only [cacheIncrement_toNat]
  split
  · omega
  · exact Or.inr (Or.inl rfl)

/-! ### Audits -/

/-- The statistics of a cache that has served a number of reads and made a number of insertions. -/
structure Cache.Audited (reads insertions : Nat) (cache : Cache) : Prop where
  accounted : cache.Accounted
  reads : cache.stats.Balanced reads
  insertions : cache.Balanced insertions

namespace Cache.Audited

variable {reads insertions : Nat} {cache : Cache}

theorem initial : Cache.initial.Audited 0 0 where
  accounted := ⟨⟨rfl, rfl, List.Pairwise.nil, (fun _ absent => by cases absent),
    (fun _ absent => by cases absent)⟩, UInt64.zero_le⟩
  reads := Or.inr (Or.inr rfl)
  insertions := Or.inr rfl

/-- A change of the capacity counts nothing. -/
theorem setCapacity (audited : cache.Audited reads insertions) (capacityBytes : UInt64) :
    (storageSetCacheCapacity cache capacityBytes).Audited reads insertions := by
  obtain ⟨accounted, evicts⟩ := audited.accounted.setCapacity capacityBytes
  refine ⟨accounted, ?_, evicts.balanced _ audited.insertions⟩
  unfold StorageCacheStats.Balanced
  rw [evicts.hits, evicts.misses]
  exact audited.reads

/-- The first section of a read counts a hit or a miss for an existing chunk. -/
theorem readSection (audited : cache.Audited reads insertions) (storage : Storage)
    (id : ObjectID) (index : UInt64) :
    (readSection storage cache id index).1.Audited
      (reads + if (publishedChunk storage id index).isOk then 1 else 0) insertions := by
  unfold SuperPeerNet.readSection
  cases publishedChunk storage id index with
  | error code => exact audited
  | ok record =>
    simp only
    cases cacheFind cache id index with
    | none =>
      exact ⟨audited.accounted.miss, audited.reads.miss, audited.insertions⟩
    | some cached =>
      refine ⟨audited.accounted.hit id index, audited.reads.hit, ?_⟩
      unfold Cache.Balanced
      rw [cache.length_hit id index]
      exact audited.insertions

/-- A store inserts a chunk that is in the cache afterwards and has not been before. -/
theorem store (audited : cache.Audited reads insertions) (id : ObjectID) {chunk : StoredChunk}
    (data : List UInt8) (nonempty : chunk.compressedSize ≠ 0) :
    (cacheStore cache id chunk data).Audited reads
      (insertions + if (cacheFind cache id chunk.index).isNone ∧
        (cacheFind (cacheStore cache id chunk data) id chunk.index).isSome then 1 else 0) := by
  rcases audited.accounted.store id data nonempty with same | ⟨evicted, evicts, fresh, same, after⟩
  · rw [same, if_neg]
    · exact audited
    · rintro ⟨missing, there⟩
      rw [Option.isNone_iff_eq_none.mp missing] at there
      cases there
  · have there : cacheFind (evicted.insert id chunk data) id chunk.index =
        some ⟨id, chunk.index, chunk, data, chunk.compressedSize.toUInt64, 1,
          cacheIncrement evicted.clock⟩ := by
      rw [cacheFind, Cache.insert, KeyedList.lookup, List.find?_cons_of_pos]
      exact decide_eq_true rfl
    rw [same, fresh, there, if_pos ⟨rfl, rfl⟩]
    refine ⟨after, ?_, ?_⟩
    · show StorageCacheStats.Balanced reads _
      unfold StorageCacheStats.Balanced
      simp only [Cache.insert, evicts.hits, evicts.misses]
      exact audited.reads
    · have balanced := evicts.balanced insertions audited.insertions
      unfold Cache.Balanced at balanced ⊢
      simp only [Cache.insert, List.length_cons]
      omega

end Cache.Audited

/-! ### Tallies -/

/-- A machine with the number of reads of existing chunks and of insertions so far. -/
structure Tally where
  machine : Machine
  reads : Nat
  insertions : Nat

/-- The reads of existing chunks that an action begins. -/
def MachineAction.asks (machine : Machine) : MachineAction → Nat
  | .look ticket id index =>
    if (machine.reads ticket).isNone ∧ (publishedChunk machine.session.1 id index).isOk then 1
    else 0
  | _ => 0

/-- The insertions of an action: a store inserts a chunk that is in the cache afterwards and has not
been before. -/
def MachineAction.inserts (machine : Machine) : MachineAction → Nat
  | .store ticket =>
    match machine.reads ticket, machine.cache with
    | some (.storing id _ record data), some cache =>
      if (cacheFind cache id record.index).isNone ∧
        (cacheFind (cacheStore cache id record data) id record.index).isSome then 1 else 0
    | _, _ => 0
  | _ => 0

section Accounting

variable [Sha256] [Lz4]

namespace Tally

/-- A new process. -/
def start (session : Session) : Tally := ⟨.withCache session, 0, 0⟩

/-- Take an action. -/
def step (tally : Tally) (action : MachineAction) : Tally where
  machine := tally.machine.step action
  reads := tally.reads + action.asks tally.machine
  insertions := tally.insertions + action.inserts tally.machine

/-- Follow a schedule. -/
def run (tally : Tally) (actions : List MachineAction) : Tally := actions.foldl step tally

/-- The invariant of tallies. -/
structure Audited (tally : Tally) : Prop where
  truthful : tally.machine.Truthful
  cache : ∃ cache, tally.machine.cache = some cache ∧
    cache.Audited tally.reads tally.insertions

/-- The cache after an action is audited. -/
theorem Audited.cache_step {tally : Tally} (audited : tally.Audited) (action : MachineAction) :
    ∃ cache, (tally.machine.step action).cache = some cache ∧
      cache.Audited (tally.reads + action.asks tally.machine)
        (tally.insertions + action.inserts tally.machine) := by
  obtain ⟨truthful, cache, held, isAudited⟩ := audited
  cases action with
  | call request => exact ⟨cache, held, isAudited⟩
  | setCapacity capacityBytes =>
    refine ⟨storageSetCacheCapacity cache capacityBytes, ?_, isAudited.setCapacity capacityBytes⟩
    rw [Machine.step, held]
    rfl
  | look ticket id index =>
    rw [Machine.step, MachineAction.asks]
    cases found : tally.machine.reads ticket with
    | some reading => exact ⟨cache, held, isAudited⟩
    | none =>
      refine ⟨(readSection tally.machine.session.1 cache id index).1, ?_, ?_⟩
      · simp only [Machine.look, held]
        rfl
      · simpa [MachineAction.inserts] using isAudited.readSection tally.machine.session.1 id index
  | fetch ticket =>
    rw [Machine.step]
    cases found : tally.machine.reads ticket with
    | none => exact ⟨cache, held, isAudited⟩
    | some reading => exact ⟨cache, held, isAudited⟩
  | store ticket =>
    rw [Machine.step, MachineAction.inserts]
    cases found : tally.machine.reads ticket with
    | none => exact ⟨cache, held, isAudited⟩
    | some reading =>
      have current := truthful.current ticket reading found
      refine ⟨(storeSection cache reading).1, ?_, ?_⟩
      · simp only [Machine.store, held]
        rfl
      · rw [held]
        cases reading with
        | opening id index record => exact isAudited
        | answered answer => exact isAudited
        | storing id index record data =>
          exact isAudited.store id data (truthful.settled.record current.1).2

/-- A schedule keeps the invariant. -/
theorem Audited.run {tally : Tally} (audited : tally.Audited) {actions : List MachineAction}
    (admits : ∀ action ∈ actions, action.Admits) : (tally.run actions).Audited := by
  induction actions generalizing tally with
  | nil => exact audited
  | cons action rest inductionHypothesis =>
    obtain ⟨first, later⟩ := List.forall_mem_cons.mp admits
    exact inductionHypothesis
      ⟨(audited.truthful.step first).1, audited.cache_step action⟩ later

end Tally

/-- Whatever the schedule, the statistics of the cache are true. -/
theorem cache_accounts {owner : NodeID} {pid : Nat} {session : Session}
    (reached : Transition.Reaches sessionStep StorageAction.Admissible
      (⟨owner, pid, []⟩, Disk.empty) session)
    {actions : List MachineAction} (admits : ∀ action ∈ actions, action.Admits) :
    ∃ cache, ((Tally.start session).run actions).machine.cache = some cache ∧
      cache.stats.usedBytes.toNat = (cache.list.map fun entry => entry.size.toNat).sum ∧
      cache.stats.entries.toNat = cache.list.length ∧
      cache.stats.usedBytes ≤ cache.stats.capacityBytes ∧
      cache.list.Pairwise (fun first second =>
        (first.id, first.index) ≠ (second.id, second.index)) ∧
      (∀ entry ∈ cache.list, 1 ≤ entry.frequency.toNat) ∧
      (cache.stats.hits.toNat < 2 ^ 64 - 1 → cache.stats.misses.toNat < 2 ^ 64 - 1 →
        cache.stats.hits.toNat + cache.stats.misses.toNat =
          ((Tally.start session).run actions).reads) ∧
      (cache.stats.evictions.toNat < 2 ^ 64 - 1 →
        cache.stats.evictions.toNat + cache.stats.entries.toNat =
          ((Tally.start session).run actions).insertions) := by
  have settled := settled_of_reaches (settled_empty owner pid) reached
  have started : (Tally.start session).Audited :=
    ⟨truthful_withCache settled, Cache.initial, rfl, Cache.Audited.initial⟩
  obtain ⟨-, cache, held, audited⟩ := started.run admits
  have accounted := audited.accounted
  refine ⟨cache, held, accounted.used, accounted.entries, accounted.within, accounted.distinct,
    accounted.frequent, fun hits misses => ?_, fun evictions => ?_⟩
  · rcases audited.reads with full | full | sum
    · exact absurd full (Nat.ne_of_lt hits)
    · exact absurd full (Nat.ne_of_lt misses)
    · exact sum
  · rcases audited.insertions with full | sum
    · exact absurd full (Nat.ne_of_lt evictions)
    · rw [accounted.entries]
      exact sum

end Accounting

/-- After two reads of the letter there is one entry, of two bytes, one hit and one miss. -/
theorem cache_accounts_letter :
    letI := Sha256.reference
    letI := Lz4.reference
    ∃ cache, ((Tally.start letterPublished).run letterReads).machine.cache = some cache ∧
      cache.stats.usedBytes.toNat = (cache.list.map fun entry => entry.size.toNat).sum ∧
      cache.stats.hits.toNat + cache.stats.misses.toNat = 2 ∧
      cache.stats.evictions.toNat + cache.stats.entries.toNat = 1 := by
  let sha256 := Sha256.reference
  let lz4 := Lz4.reference
  obtain ⟨counters, reads, insertions⟩ :
      ((Tally.start letterPublished).run letterReads).machine.cache.all (fun cache =>
        cache.stats.hits = 1 && cache.stats.misses = 1 && cache.stats.evictions = 0) = true ∧
      ((Tally.start letterPublished).run letterReads).reads = 2 ∧
      ((Tally.start letterPublished).run letterReads).insertions = 1 := by decide +kernel
  obtain ⟨cache, held, used, -, -, -, -, sum, balance⟩ :=
    cache_accounts letterPublished_reached letterReads_admits
  rw [held] at counters
  simp only [Option.all_some, Bool.and_eq_true, decide_eq_true_eq] at counters
  obtain ⟨⟨hits, misses⟩, evictions⟩ := counters
  rw [reads, hits, misses] at sum
  rw [insertions, evictions] at balance
  refine ⟨cache, held, used, ?_, ?_⟩
  · rw [hits, misses]
    exact sum (by decide) (by decide)
  · rw [evictions]
    exact balance (by decide)

end SuperPeerNet
