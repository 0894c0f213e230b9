/-
This file proves that the cache of `storage.c` evicts what is used least frequently.

The entries of a cache are residents of a reference store with unbounded counters. The loop of
`cache_evict_one_locked` searches a list for the least of two compared keys and unlinks what it
found, and the reference removes the resident of the least rank; the machine words do not overflow
before there have been as many accesses as they can count. So a read and a change of the capacity do
to the cache what they do to the reference, over every sequence of them, with any calls in between.
-/

import SuperPeerNet.Library.Eviction
import SuperPeerNet.Storage.Accounting

namespace SuperPeerNet

/-! ### The cache as a reference store -/

/-- What an entry is to the reference. -/
def CacheEntry.resident (entry : CacheEntry) :
    Lfu.Resident (ObjectID × UInt64) (StoredChunk × List UInt8) where
  key := entry.key
  content := (entry.chunk, entry.data)
  size := entry.size.toNat
  count := entry.frequency.toNat
  latest := entry.lastAccess.toNat

/-- What a cache is to the reference. -/
def Cache.lfu (cache : Cache) : Lfu.Store (ObjectID × UInt64) (StoredChunk × List UInt8) where
  capacity := cache.stats.capacityBytes.toNat
  residents := cache.list.map CacheEntry.resident
  now := cache.clock.toNat

theorem CacheEntry.precedes_iff (entry victim : CacheEntry) :
    entry.precedes victim = true ↔ entry.resident.rank < victim.resident.rank := by
  rw [Lfu.Resident.rank_lt, CacheEntry.precedes, Bool.or_eq_true, Bool.and_eq_true,
    decide_eq_true_iff, decide_eq_true_iff, decide_eq_true_iff, UInt64.lt_iff_toNat_lt,
    UInt64.lt_iff_toNat_lt, ← UInt64.toNat_inj]
  rfl

/-- The loop finds the entry of the least rank. -/
theorem victimOf_argmin (list : List CacheEntry) :
    (victimOf list).map (fun victim => victim.1.resident) =
      (list.map CacheEntry.resident).argmin Lfu.Resident.rank := by
  induction list using List.reverseRecOn with
  | nil => rfl
  | append_singleton list entry inductionHypothesis =>
    have last : victimOf (list ++ [entry]) =
        victimTurn (victimOf list) (entry, list.length) := by
      simp [victimOf, List.zipIdx_append]
    rw [last, List.map_append, List.map_singleton, List.argmin_concat, ← inductionHypothesis]
    cases victimOf list with
    | none => rfl
    | some best =>
      rw [victimTurn, Option.map_some]
      simp only [CacheEntry.precedes_iff]
      split <;> rfl

/-- An eviction is one of the reference. -/
theorem Cache.lfu_evictOne {cache next : Cache} (counted : cache.Counted)
    (evicted : cacheEvictOne cache = some next) :
    next.lfu = { cache.lfu with residents := Lfu.evict cache.lfu.residents } := by
  unfold cacheEvictOne at evicted
  split at evicted
  · cases evicted
  · rename_i victim place chosen
    cases evicted
    have least := victimOf_argmin cache.list
    rw [chosen, Option.map_some] at least
    have there := (victimOf_spec cache.list).1 victim place chosen
    have erased : (cache.list.eraseIdx place).map CacheEntry.resident =
        Lfu.evict (cache.list.map CacheEntry.resident) := by
      rw [Lfu.evict, ← least, KeyedList.eraseIdx_eq_eraseP counted.distinct there]
      dsimp only
      rw [List.eraseP_map]
      rfl
    rw [Cache.lfu, erased]
    rfl

/-- The bytes in use are those that the residents take. -/
theorem Cache.Counted.used_lfu {cache : Cache} (counted : cache.Counted) :
    Lfu.used cache.lfu.residents = cache.stats.usedBytes.toNat := by
  rw [counted.used, Lfu.used, Cache.lfu, List.map_map]
  rfl

/-- The loops that evict do as many turns as the reference. -/
theorem Cache.lfu_evictTo {cache : Cache} (counted : cache.Counted) (limit : UInt64)
    (turns : Nat) :
    (cacheEvictTo limit turns cache).1.lfu =
      { cache.lfu with residents := Lfu.shrink limit.toNat turns cache.lfu.residents } := by
  induction turns generalizing cache with
  | zero => rfl
  | succ turns inductionHypothesis =>
    rw [cacheEvictTo, Lfu.shrink, counted.used_lfu]
    by_cases full : cache.stats.usedBytes > limit
    · rw [if_pos full, if_pos (UInt64.lt_iff_toNat_lt.mp full)]
      cases evicted : cacheEvictOne cache with
      | none =>
        -- An empty list uses no bytes.
        have used := counted.used
        rw [cacheEvictOne_none evicted] at used
        rw [gt_iff_lt, UInt64.lt_iff_toNat_lt, used] at full
        cases full
      | some next =>
        rw [inductionHypothesis ((Evicts.one evicted).counted counted),
          Cache.lfu_evictOne counted evicted]
    · rw [if_neg full, if_neg fun more => full (UInt64.lt_iff_toNat_lt.mpr more)]

/-- With a turn more than there are entries, the residents stay that the reference keeps. -/
theorem Cache.lfu_evictTo_length {cache : Cache} (counted : cache.Counted) (limit : UInt64) :
    (cacheEvictTo limit (cache.list.length + 1) cache).1.lfu =
      { cache.lfu with residents := Lfu.keep limit.toNat cache.lfu.residents } := by
  have enough : cache.lfu.residents.length ≤ cache.list.length + 1 := by
    rw [Cache.lfu, List.length_map]
    exact Nat.le_succ _
  rw [Cache.lfu_evictTo counted, Lfu.shrink_eq_keep enough]

/-! ### Operations -/

/-- A change of the capacity is one of the reference. -/
theorem Cache.lfu_setCapacity {cache : Cache} (accounted : cache.Accounted)
    (capacityBytes : UInt64) :
    (storageSetCacheCapacity cache capacityBytes).lfu =
      cache.lfu.resize capacityBytes.toNat := by
  let resized : Cache := { cache with stats := { cache.stats with capacityBytes := capacityBytes } }
  have counted : resized.Counted := ⟨accounted.used, accounted.entries, accounted.distinct,
    accounted.frequent, accounted.sized⟩
  exact Cache.lfu_evictTo_length counted capacityBytes

/-- A counter that is not full counts. -/
theorem cacheIncrement_of_lt {value : UInt64} (room : value.toNat < counterMax) :
    (cacheIncrement value).toNat = value.toNat + 1 := by
  rw [cacheIncrement_toNat, if_pos room]

/-- A search finds a resident if it finds an entry. -/
theorem Cache.lfu_lookup (cache : Cache) (id : ObjectID) (index : UInt64) :
    KeyedList.lookup Lfu.Resident.key cache.lfu.residents (id, index) =
      (cacheFind cache id index).map CacheEntry.resident := by
  unfold cacheFind KeyedList.lookup Cache.lfu
  rw [List.find?_map]
  rfl

/-- A hit is an access of the reference, as long as nothing overflows. -/
theorem Cache.lfu_hit {cache : Cache} (sound : cache.lfu.Sound)
    (young : cache.clock.toNat < counterMax) (id : ObjectID) (index : UInt64) :
    (cache.hit id index).lfu = cache.lfu.access (id, index) := by
  have now := cacheIncrement_of_lt young
  have touched : ∀ entry ∈ cache.list,
      (CacheEntry.touch (cacheIncrement cache.clock) entry).resident =
        entry.resident.access (cache.clock.toNat + 1) := by
    intro entry member
    have few : entry.frequency.toNat ≤ cache.clock.toNat :=
      sound.few entry.resident (List.mem_map_of_mem member)
    have count := cacheIncrement_of_lt (Nat.lt_of_le_of_lt few young)
    rw [CacheEntry.resident, CacheEntry.resident, Lfu.Resident.access, CacheEntry.touch, now, count]
    rfl
  have sameKey : ∀ entry : CacheEntry, entry.resident.key = entry.key := fun _ => rfl
  show Lfu.Store.mk cache.stats.capacityBytes.toNat
    ((KeyedList.modify CacheEntry.key (CacheEntry.touch (cacheIncrement cache.clock)) (id, index)
      cache.list).map CacheEntry.resident) (cacheIncrement cache.clock).toNat = _
  rw [KeyedList.map_modify_image sameKey touched, now]
  rfl

/-- A store is an insertion of the reference, as long as nothing overflows. -/
theorem Cache.lfu_store {cache : Cache} (accounted : cache.Accounted)
    (young : cache.clock.toNat < counterMax) {id : ObjectID} {chunk : StoredChunk}
    (fresh : cacheFind cache id chunk.index = none) (nonempty : chunk.compressedSize ≠ 0)
    (data : List UInt8) :
    (cacheStore cache id chunk data).lfu =
      cache.lfu.insert (id, chunk.index) (chunk, data) chunk.compressedSize.toNat := by
  have size : chunk.compressedSize.toUInt64.toNat = chunk.compressedSize.toNat :=
    UInt32.toNat_toUInt64 _
  have positive : chunk.compressedSize.toNat ≠ 0 :=
    fun zero => nonempty (UInt32.toNat_inj.mp zero)
  unfold cacheStore Lfu.Store.insert
  dsimp only
  by_cases large : chunk.compressedSize.toUInt64 > cache.stats.capacityBytes
  · rw [if_pos (Or.inr (Or.inl large))]
    rw [gt_iff_lt, UInt64.lt_iff_toNat_lt, size] at large
    exact (if_pos large).symm
  · have fits := UInt64.not_lt.mp large
    have enough : ¬chunk.compressedSize.toNat > cache.lfu.capacity := by
      rw [UInt64.le_iff_toNat_le, size] at fits
      exact Nat.not_lt.mpr fits
    have some : cache.stats.capacityBytes ≠ 0 := by
      intro zero
      rw [zero, UInt64.le_iff_toNat_le, size] at fits
      exact positive (Nat.le_zero.mp fits)
    rw [if_neg enough, fresh, if_neg (by simp [large, some])]
    have limit : (cache.stats.capacityBytes - chunk.compressedSize.toUInt64).toNat =
        cache.lfu.capacity - chunk.compressedSize.toNat := by
      rw [UInt64.toNat_sub_of_le _ _ fits, size]
      rfl
    have kept := Cache.lfu_evictTo_length accounted.toCounted
      (cache.stats.capacityBytes - chunk.compressedSize.toUInt64)
    obtain ⟨evicted, done, -⟩ := cacheEvictTo_room accounted.toCounted
      (cache.stats.capacityBytes - chunk.compressedSize.toUInt64)
      (Nat.lt_succ_self cache.list.length)
    rw [done, limit] at kept
    rw [done]
    dsimp only at kept ⊢
    have clock : evicted.clock.toNat = cache.clock.toNat := congrArg Lfu.Store.now kept
    have now := cacheIncrement_of_lt (clock.symm ▸ young)
    have inserted : (evicted.insert id chunk data).lfu = { evicted.lfu with
        residents := ⟨(id, chunk.index), (chunk, data), chunk.compressedSize.toUInt64.toNat, 1,
          (cacheIncrement evicted.clock).toNat⟩ :: evicted.lfu.residents
        now := (cacheIncrement evicted.clock).toNat } := rfl
    rw [inserted, kept, now, clock, size]
    rfl

/-! ### Sequences of reads -/

/-- What happens to a cache, one after the other: reads, changes of the capacity and, in between,
uploads and commits. -/
inductive CacheAction where
  | read (id : ObjectID) (index : UInt64)
  | setCapacity (capacityBytes : UInt64)
  | call (request : StorageCall)

/-- The calls are those that a peer can cause. -/
def CacheAction.Admits : CacheAction → Prop
  | .call request => request.Admits
  | _ => True

/-- The actions that concern the cache. -/
def CacheAction.concernsCache : CacheAction → Bool
  | .call _ => false
  | _ => true

/-- What a read of a published chunk finds in its file. -/
def fetchedContent (disk : Disk) (id : ObjectID) (index : UInt64) (record : StoredChunk) :
    Option ((StoredChunk × List UInt8) × Nat) :=
  match readAll (disk.chunks .objects id index) record.compressedSize.toNat with
  | .error _ => none
  | .ok data => some ((record, data), record.compressedSize.toNat)

/-- A read of the reference, which is one of its store if the chunk is published. -/
def referenceRead (session : Session)
    (store : Lfu.Store (ObjectID × UInt64) (StoredChunk × List UInt8)) (id : ObjectID)
    (index : UInt64) : Lfu.Store (ObjectID × UInt64) (StoredChunk × List UInt8) :=
  match publishedChunk session.1 id index with
  | .error _ => store
  | .ok record => store.read (id, index) (fetchedContent session.2 id index record)

/-- A sequential read is one of the reference, as long as nothing overflows. -/
theorem Cache.lfu_read [Sha256] [Lz4] {session : Session} (settled : Session.Settled session)
    {cache : Cache} (accounted : cache.Accounted) (sound : cache.lfu.Sound)
    (young : cache.clock.toNat < counterMax) (id : ObjectID) (index : UInt64) :
    (storageReadChunk session.1 cache session.2 id index).1.lfu =
      referenceRead session cache.lfu id index := by
  unfold storageReadChunk readSection referenceRead
  cases known : publishedChunk session.1 id index with
  | error code => rfl
  | ok record =>
    obtain ⟨number, nonempty⟩ := settled.record known
    dsimp only
    unfold Lfu.Store.read
    rw [Cache.lfu_lookup]
    cases found : cacheFind cache id index with
    | some cached => exact Cache.lfu_hit sound young id index
    | none =>
      dsimp only [readFile]
      rw [fetchedContent]
      cases readAll (session.2.chunks .objects id index) record.compressedSize.toNat with
      | error code => rfl
      | ok data =>
        have fresh : cacheFind cache.miss id record.index = none := by
          rw [number]
          exact found
        have stored := Cache.lfu_store accounted.miss young fresh nonempty data
        rw [number] at stored
        exact stored

theorem referenceRead_sound {session : Session}
    {store : Lfu.Store (ObjectID × UInt64) (StoredChunk × List UInt8)} (sound : store.Sound)
    (id : ObjectID) (index : UInt64) : (referenceRead session store id index).Sound := by
  unfold referenceRead
  split
  · exact sound
  · exact sound.read _ _

theorem referenceRead_now (session : Session)
    (store : Lfu.Store (ObjectID × UInt64) (StoredChunk × List UInt8)) (id : ObjectID)
    (index : UInt64) : (referenceRead session store id index).now ≤ store.now + 1 := by
  unfold referenceRead
  split
  · exact Nat.le_succ _
  · exact store.now_read _ _

/-- A sequential read keeps the statistics true. -/
theorem Cache.Accounted.read [Sha256] [Lz4] {session : Session} (settled : Session.Settled session)
    {cache : Cache} (accounted : cache.Accounted) (id : ObjectID) (index : UInt64) :
    (storageReadChunk session.1 cache session.2 id index).1.Accounted := by
  unfold storageReadChunk readSection
  cases known : publishedChunk session.1 id index with
  | error code => exact accounted
  | ok record =>
    dsimp only
    cases cacheFind cache id index with
    | some cached => exact accounted.hit id index
    | none =>
      dsimp only [readFile]
      cases readAll (session.2.chunks .objects id index) record.compressedSize.toNat with
      | error code => exact accounted.miss
      | ok data =>
        show (cacheStore cache.miss id record data).Accounted
        rcases accounted.miss.store id data (settled.record known).2 with
          same | ⟨evicted, -, -, same, inserted⟩
        · rw [same]
          exact accounted.miss
        · rw [same]
          exact inserted

section Policy

variable [Sha256] [Lz4]

/-- An action on a session with its cache. -/
def cacheStep (state : Session × Cache) : CacheAction → Session × Cache
  | .read id index => (state.1, (storageReadChunk state.1.1 state.2 state.1.2 id index).1)
  | .setCapacity capacityBytes => (state.1, storageSetCacheCapacity state.2 capacityBytes)
  | .call request => (((request.plan state.1).run state.1.2).1, state.2)

/-- The same action on a session with the reference. -/
def referenceStep (state : Session × Lfu.Store (ObjectID × UInt64) (StoredChunk × List UInt8)) :
    CacheAction → Session × Lfu.Store (ObjectID × UInt64) (StoredChunk × List UInt8)
  | .read id index => (state.1, referenceRead state.1 state.2 id index)
  | .setCapacity capacityBytes => (state.1, state.2.resize capacityBytes.toNat)
  | .call request => (((request.plan state.1).run state.1.2).1, state.2)

/-- A session with a cache that refines the reference, after at most a number of accesses. -/
structure CacheRefines (accesses : Nat) (state : Session × Cache) : Prop where
  settled : Session.Settled state.1
  accounted : state.2.Accounted
  sound : state.2.lfu.Sound
  young : state.2.clock.toNat ≤ accesses

/-- Every action does to the cache what it does to the reference. -/
theorem CacheRefines.step {accesses : Nat} {state : Session × Cache}
    (refines : CacheRefines accesses state) {action : CacheAction} (admits : action.Admits)
    (young : accesses < counterMax) :
    CacheRefines (accesses + if action.concernsCache then 1 else 0) (cacheStep state action) ∧
      ((cacheStep state action).1, (cacheStep state action).2.lfu) =
        referenceStep (state.1, state.2.lfu) action := by
  obtain ⟨settled, accounted, sound, past⟩ := refines
  cases action with
  | read id index =>
    have read := Cache.lfu_read settled accounted sound (Nat.lt_of_le_of_lt past young) id index
    refine ⟨⟨settled, accounted.read settled id index, ?_, ?_⟩, Prod.ext rfl read⟩
    · show (storageReadChunk state.1.1 state.2 state.1.2 id index).1.lfu.Sound
      rw [read]
      exact referenceRead_sound sound id index
    · show (storageReadChunk state.1.1 state.2 state.1.2 id index).1.lfu.now ≤ accesses + 1
      rw [read]
      exact (referenceRead_now state.1 state.2.lfu id index).trans (Nat.succ_le_succ past)
  | setCapacity capacityBytes =>
    have resized := Cache.lfu_setCapacity accounted capacityBytes
    refine ⟨⟨settled, (accounted.setCapacity capacityBytes).1, ?_, ?_⟩, Prod.ext rfl resized⟩
    · exact resized ▸ sound.resize capacityBytes.toNat
    · have clock : (storageSetCacheCapacity state.2 capacityBytes).clock.toNat =
          state.2.clock.toNat := congrArg Lfu.Store.now resized
      show (storageSetCacheCapacity state.2 capacityBytes).clock.toNat ≤ accesses + 1
      omega
  | call request =>
    exact ⟨⟨(settled.call admits).1, accounted, sound, past⟩, rfl⟩

/-- A sequence of actions does to the cache what it does to the reference. -/
theorem CacheRefines.run {accesses : Nat} {state : Session × Cache}
    (refines : CacheRefines accesses state) {actions : List CacheAction}
    (admits : ∀ action ∈ actions, action.Admits)
    (short : accesses + actions.countP CacheAction.concernsCache < counterMax) :
    ((actions.foldl cacheStep state).1, (actions.foldl cacheStep state).2.lfu) =
        actions.foldl referenceStep (state.1, state.2.lfu) ∧
      (actions.foldl cacheStep state).2.lfu.Sound := by
  induction actions generalizing accesses state with
  | nil => exact ⟨rfl, refines.sound⟩
  | cons action rest inductionHypothesis =>
    obtain ⟨first, later⟩ := List.forall_mem_cons.mp admits
    rw [List.countP_cons] at short
    obtain ⟨next, same⟩ := refines.step first (by omega)
    rw [List.foldl_cons, List.foldl_cons, ← same]
    exact inductionHypothesis next later (by omega)

/-- For every sequence of fewer than `2 ^ 64 - 1` reads and changes of the capacity, the cache is
after each step that of the reference, whose residents all differ in rank. -/
theorem cache_least_frequently_used {owner : NodeID} {pid : Nat} {session : Session}
    (reached : Transition.Reaches sessionStep StorageAction.Admissible
      (⟨owner, pid, []⟩, Disk.empty) session)
    {actions : List CacheAction} (admits : ∀ action ∈ actions, action.Admits)
    (short : actions.countP CacheAction.concernsCache < 2 ^ 64 - 1) (steps : Nat) :
    ((actions.take steps).foldl cacheStep (session, Cache.initial)).2.lfu =
        ((actions.take steps).foldl referenceStep
          (session, Lfu.Store.empty storageDefaultCacheBytes.toNat)).2 ∧
      ∀ first ∈ ((actions.take steps).foldl cacheStep (session, Cache.initial)).2.lfu.residents,
      ∀ second ∈ ((actions.take steps).foldl cacheStep (session, Cache.initial)).2.lfu.residents,
        first.rank = second.rank → first = second := by
  have started : CacheRefines 0 (session, Cache.initial) :=
    ⟨settled_of_reaches (settled_empty owner pid) reached, Cache.Audited.initial.accounted,
      Lfu.Store.sound_empty _, Nat.le_refl 0⟩
  have fewer : (actions.take steps).countP CacheAction.concernsCache ≤
      actions.countP CacheAction.concernsCache := (List.take_sublist steps actions).countP_le
  have bound : 0 + (actions.take steps).countP CacheAction.concernsCache < counterMax := by
    unfold counterMax
    omega
  obtain ⟨same, sound⟩ :=
    started.run (fun action member => admits action (List.mem_of_mem_take member)) bound
  exact ⟨congrArg Prod.snd same, fun _ inFirst _ inSecond => sound.rank_injective inFirst inSecond⟩

end Policy

/-- Two reads of the letter, a change of the capacity to one byte, and another read. -/
def letterTouches : List CacheAction :=
  [.read letterDocument.id 0, .read letterDocument.id 0, .setCapacity 1, .read letterDocument.id 0]

/-- The letter has two accesses, it is evicted when the capacity is smaller, and then it is not
inserted any more. -/
theorem cache_least_frequently_used_letter :
    letI := Sha256.reference
    letI := Lz4.reference
    ((letterTouches.take 2).foldl cacheStep (letterPublished, Cache.initial)).2.lfu.residents.map
        (fun resident => (resident.key, resident.count, resident.latest)) =
          [((letterDocument.id, 0), 2, 2)] ∧
      ((letterTouches.take 4).foldl cacheStep (letterPublished, Cache.initial)).2.lfu.residents.map
        (fun resident => (resident.key, resident.count, resident.latest)) = [] := by
  let sha256 := Sha256.reference
  let lz4 := Lz4.reference
  have admits : ∀ action ∈ letterTouches, action.Admits := by
    intro action member
    simp only [letterTouches, List.mem_cons, List.not_mem_nil, or_false] at member
    rcases member with rfl | rfl | rfl | rfl <;> trivial
  have same := cache_least_frequently_used letterPublished_reached admits (by decide)
  rw [(same 2).1, (same 4).1]
  decide +kernel

end SuperPeerNet
