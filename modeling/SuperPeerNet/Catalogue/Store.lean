/-
This file models the other operations of `metadata.c` on the hash table of documents: registering,
finding and removing documents, the peers that have a chunk, and the search by name.

The table is kept well formed: every entry is in the chain of its bucket, no two entries of a
chain have the same id, and no entry lists a peer twice for a chunk. Each operation is described
by the lookups after it.
-/

import SuperPeerNet.Catalogue.Metadata

namespace SuperPeerNet

/-! ### Operations -/

namespace MetadataStore

/-- The store with other availabilities in the entry of an id. -/
def withAvailable (store : MetadataStore) (id : ObjectID)
    (change : List Availability → List Availability) : MetadataStore where
  buckets index :=
    if index = bucket id then
      KeyedList.modify key (fun entry => { entry with available := change entry.available }) id
        (store.buckets index)
    else store.buckets index

/-- The store without the entry of an id. -/
def remove (store : MetadataStore) (id : ObjectID) : MetadataStore where
  buckets index :=
    if index = bucket id then (store.buckets index).eraseP fun entry => key entry = id
    else store.buckets index

/-- All entries, bucket after bucket. -/
def entries (store : MetadataStore) : List MetadataEntry :=
  (List.range bucketCount).flatMap store.buckets

end MetadataStore

/-- `metadata_register_document`. -/
def metadataRegisterDocument (store : MetadataStore) (id : ObjectID) (name : List UInt8)
    (fileSize : UInt64) : MetadataStore × Except Errno Unit :=
  if name = [] ∨ name.length ≥ metadataNameSize then (store, .error .einval)
  else if (chunkCountOf fileSize).toNat > 2 ^ 32 - 1 then (store, .error .eoverflow)
  else match store.find id with
    | some entry =>
      if entry.document.size ≠ fileSize then (store, .error .eexist) else (store, .ok ())
    | none =>
      (store.put ⟨⟨id, name, fileSize, (chunkCountOf fileSize).toUInt32, none, 1, 0⟩, [], none⟩,
        .ok ())

/-- `metadata_find_document`. -/
def metadataFindDocument (store : MetadataStore) (id : ObjectID) : Except Errno FileMetadata :=
  match store.find id with
  | none => .error .enoent
  | some entry => .ok entry.document

/-- `metadata_remove_document`. -/
def metadataRemoveDocument (store : MetadataStore) (id : ObjectID) :
    MetadataStore × Except Errno Unit :=
  match store.find id with
  | none => (store, .error .enoent)
  | some _ => (store.remove id, .ok ())

/-- `change_chunk`. -/
def changeChunk (store : MetadataStore) (id : ObjectID) (index : UInt64) (peer : NodeID)
    (remove : Bool) : MetadataStore × Except Errno Unit :=
  match store.find id with
  | none => (store, .error .enoent)
  | some entry =>
    if index ≥ entry.document.chunkCount.toUInt64 then (store, .error .einval)
    else if remove then
      if ⟨index, peer⟩ ∈ entry.available then
        (store.withAvailable id (·.erase ⟨index, peer⟩), .ok ())
      else (store, .error .enoent)
    else if ⟨index, peer⟩ ∈ entry.available then (store, .ok ())
    else (store.withAvailable id (· ++ [⟨index, peer⟩]), .ok ())

/-- `metadata_register_chunk`. -/
def metadataRegisterChunk (store : MetadataStore) (id : ObjectID) (index : UInt64)
    (peer : NodeID) : MetadataStore × Except Errno Unit := changeChunk store id index peer false

/-- `metadata_unregister_chunk`. -/
def metadataUnregisterChunk (store : MetadataStore) (id : ObjectID) (index : UInt64)
    (peer : NodeID) : MetadataStore × Except Errno Unit := changeChunk store id index peer true

/-- `metadata_chunk_peers`. -/
def metadataChunkPeers (store : MetadataStore) (id : ObjectID) (index : UInt64) :
    Except Errno (List NodeID) :=
  match store.find id with
  | none => .error .enoent
  | some entry =>
    if index ≥ entry.document.chunkCount.toUInt64 then .error .einval
    else .ok ((entry.available.filter fun item => item.index = index).map Availability.peer)

/-- The loop of `metadata_find_name`, with the id that has been found so far. -/
def findNameLoop (name : List UInt8) : Option ObjectID → List MetadataEntry → Except Errno ObjectID
  | none, [] => .error .enoent
  | some id, [] => .ok id
  | found, entry :: rest =>
    if entry.document.filename = name then
      if found.isSome then .error .enotuniq
      else findNameLoop name (some (MetadataStore.key entry)) rest
    else findNameLoop name found rest

/-- `metadata_find_name`. -/
def metadataFindName (store : MetadataStore) (name : List UInt8) : Except Errno ObjectID :=
  findNameLoop name none store.entries

/-- `metadata_chunk_descriptor`. -/
def metadataChunkDescriptor (store : MetadataStore) (id : ObjectID) (index : UInt64) :
    Except Errno MetadataChunk :=
  match store.find id with
  | none => .error .enoent
  | some entry => match entry.chunks with
    | none => .error .enoent
    | some chunks =>
      if index < entry.document.chunkCount.toUInt64 then
        match chunks[index.toNat]? with
        | none => .error .enoent
        | some chunk => .ok chunk
      else .error .enoent

/-- What `metadata_remove_peer` does to an entry. -/
def MetadataEntry.withoutPeer (peer : NodeID) (entry : MetadataEntry) : MetadataEntry :=
  { entry with available := entry.available.filter fun item => item.peer ≠ peer }

/-- `metadata_remove_peer`. -/
def metadataRemovePeer (store : MetadataStore) (peer : NodeID) : MetadataStore where
  buckets index :=
    if index < bucketCount then (store.buckets index).map (MetadataEntry.withoutPeer peer)
    else store.buckets index

/-! ### Well-formed tables -/

/-- An entry that lists no availability twice and none for a chunk that does not exist, and that
has all descriptors or none. -/
structure MetadataEntry.Sound (entry : MetadataEntry) : Prop where
  once : entry.available.Nodup
  inside : ∀ item ∈ entry.available, item.index.toNat < entry.document.chunkCount.toNat
  complete : ∀ chunks ∈ entry.chunks, chunks.length = entry.document.chunkCount.toNat

theorem MetadataEntry.Sound.withoutPeer {entry : MetadataEntry} (sound : entry.Sound)
    (peer : NodeID) : (entry.withoutPeer peer).Sound where
  once := sound.once.filter _
  inside item member := sound.inside item (List.mem_of_mem_filter member)
  complete := sound.complete

/-- A table whose entries are in their places. -/
structure MetadataStore.WellFormed (store : MetadataStore) : Prop where
  placed : ∀ index, ∀ entry ∈ store.buckets index,
    MetadataStore.bucket (MetadataStore.key entry) = index
  distinct : ∀ index, KeyedList.Distinct MetadataStore.key (store.buckets index)
  sound : ∀ index, ∀ entry ∈ store.buckets index, entry.Sound

namespace MetadataStore

variable {store : MetadataStore} {entry : MetadataEntry} {id : ObjectID}

theorem bucket_lt (id : ObjectID) : bucket id < bucketCount := by
  have bounded : ∀ (bytes : List UInt8) (value : Nat), value < bucketCount →
      bytes.foldl (fun value byte => (value * 33 + byte.toNat) % bucketCount) value < bucketCount := by
    intro bytes
    induction bytes with
    | nil => exact fun _ small => small
    | cons byte rest inductionHypothesis =>
      exact fun _ _ => inductionHypothesis _ (Nat.mod_lt _ (by decide))
  exact bounded id.toList 0 (by decide)

theorem find_eq_some (wellFormed : store.WellFormed) :
    store.find id = some entry ↔ entry ∈ store.buckets (bucket id) ∧ key entry = id :=
  KeyedList.lookup_eq_some_iff (wellFormed.distinct (bucket id))

theorem find_of_mem (wellFormed : store.WellFormed) {index : Nat}
    (member : entry ∈ store.buckets index) : store.find (key entry) = some entry := by
  refine (find_eq_some wellFormed).mpr ⟨?_, rfl⟩
  rw [wellFormed.placed index entry member]
  exact member

theorem mem_entries (wellFormed : store.WellFormed) :
    entry ∈ store.entries ↔ store.find (key entry) = some entry := by
  unfold entries
  rw [List.mem_flatMap]
  constructor
  · rintro ⟨index, -, member⟩
    exact find_of_mem wellFormed member
  · intro found
    exact ⟨bucket (key entry), List.mem_range.mpr (bucket_lt _), KeyedList.lookup_mem found⟩

theorem WellFormed.find_sound (wellFormed : store.WellFormed) (found : store.find id = some entry) :
    entry.Sound := wellFormed.sound _ entry (KeyedList.lookup_mem found)

theorem WellFormed.empty : empty.WellFormed :=
  ⟨fun _ => nofun, fun _ => List.Pairwise.nil, fun _ => nofun⟩

/-- A change of one chain keeps a table well formed if it keeps the chain so. -/
theorem WellFormed.of_chain {next : MetadataStore} (wellFormed : store.WellFormed) (place : Nat)
    (others : ∀ index, index ≠ place → next.buckets index = store.buckets index)
    (distinct : KeyedList.Distinct key (next.buckets place))
    (members : ∀ entry ∈ next.buckets place, bucket (key entry) = place ∧ entry.Sound) :
    next.WellFormed where
  placed index entry member := by
    by_cases here : index = place
    · subst here
      exact (members entry member).1
    · rw [others index here] at member
      exact wellFormed.placed index entry member
  distinct index := by
    by_cases here : index = place
    · subst here
      exact distinct
    · rw [others index here]
      exact wellFormed.distinct index
  sound index entry member := by
    by_cases here : index = place
    · subst here
      exact (members entry member).2
    · rw [others index here] at member
      exact wellFormed.sound index entry member

theorem WellFormed.put (wellFormed : store.WellFormed) (sound : entry.Sound) :
    (store.put entry).WellFormed := by
  refine wellFormed.of_chain (bucket (key entry)) (fun index apart => if_neg apart) ?_ ?_
  · show KeyedList.Distinct key (if _ then _ else _)
    rw [if_pos rfl]
    cases found : store.find (key entry) with
    | none => exact KeyedList.distinct_append_singleton (wellFormed.distinct _) found
    | some old =>
      -- the entry that is replaced has the same id
      have keys : (KeyedList.modify key (fun _ => entry) (key entry)
          (store.buckets (bucket (key entry)))).map key =
          (store.buckets (bucket (key entry))).map key :=
        KeyedList.map_modify key (fun row same => same.symm) _
      refine KeyedList.distinct_iff_nodup.mpr ?_
      rw [keys]
      exact KeyedList.distinct_iff_nodup.mp (wellFormed.distinct _)
  · intro other member
    change other ∈ (if _ then _ else _) at member
    rw [if_pos rfl] at member
    have before : ∀ row ∈ store.buckets (bucket (key entry)),
        bucket (key row) = bucket (key entry) ∧ row.Sound :=
      fun row inside => ⟨wellFormed.placed _ row inside, wellFormed.sound _ row inside⟩
    split at member
    · rcases KeyedList.mem_modify member with old | ⟨_, _, rfl⟩
      · exact before other old
      · exact ⟨rfl, sound⟩
    · rcases List.mem_append.mp member with old | new
      · exact before other old
      · rw [List.mem_singleton.mp new]
        exact ⟨rfl, sound⟩

theorem key_withAvailable (change : List Availability → List Availability) (entry : MetadataEntry) :
    key { entry with available := change entry.available } = key entry := rfl

theorem key_withoutPeer (peer : NodeID) (entry : MetadataEntry) :
    key (entry.withoutPeer peer) = key entry := rfl

theorem find_withAvailable (store : MetadataStore) (id : ObjectID)
    (change : List Availability → List Availability) (other : ObjectID) :
    (store.withAvailable id change).find other =
      if other = id then (store.find id).map fun entry =>
        { entry with available := change entry.available }
      else store.find other := by
  show KeyedList.lookup key (if bucket other = bucket id then _ else _) other = _
  by_cases chain : bucket other = bucket id
  · rw [if_pos chain, KeyedList.lookup_modify fun row same =>
      (key_withAvailable change row).trans same]
    by_cases same : other = id
    · rw [if_pos same, if_pos same, same]
      rfl
    · rw [if_neg same, if_neg same]
      rfl
  · rw [if_neg chain, if_neg fun same => chain (congrArg bucket same)]
    rfl

theorem WellFormed.withAvailable (wellFormed : store.WellFormed)
    {change : List Availability → List Availability}
    (sound : ∀ entry, store.find id = some entry →
      ({ entry with available := change entry.available } : MetadataEntry).Sound) :
    (store.withAvailable id change).WellFormed := by
  refine wellFormed.of_chain (bucket id) (fun index apart => if_neg apart) ?_ ?_
  · show KeyedList.Distinct key (if _ then _ else _)
    rw [if_pos rfl]
    exact KeyedList.distinct_modify (key_withAvailable change) (wellFormed.distinct _)
  · intro other member
    change other ∈ (if _ then _ else _) at member
    rw [if_pos rfl] at member
    rcases KeyedList.mem_modify member with old | ⟨row, found, rfl⟩
    · exact ⟨wellFormed.placed _ other old, wellFormed.sound _ other old⟩
    · exact ⟨wellFormed.placed _ row (KeyedList.lookup_mem found), sound row found⟩

theorem find_remove (wellFormed : store.WellFormed) (id other : ObjectID) :
    (store.remove id).find other = if other = id then none else store.find other := by
  show KeyedList.lookup key (if bucket other = bucket id then _ else _) other = _
  by_cases chain : bucket other = bucket id
  · rw [if_pos chain]
    by_cases same : other = id
    · rw [if_pos same, same]
      exact KeyedList.lookup_eraseP_self (wellFormed.distinct _) id
    · rw [if_neg same]
      exact KeyedList.lookup_eraseP_of_ne same _
  · rw [if_neg chain, if_neg fun same => chain (congrArg bucket same)]
    rfl

theorem WellFormed.remove (wellFormed : store.WellFormed) (id : ObjectID) :
    (store.remove id).WellFormed := by
  have sublist : ∀ index, ((store.remove id).buckets index).Sublist (store.buckets index) := by
    intro index
    show (if _ then _ else _ : List MetadataEntry).Sublist _
    split
    · exact List.eraseP_sublist
    · exact List.Sublist.refl _
  exact ⟨fun index entry member => wellFormed.placed index entry ((sublist index).subset member),
    fun index => (wellFormed.distinct index).sublist (sublist index),
    fun index entry member => wellFormed.sound index entry ((sublist index).subset member)⟩

theorem find_removePeer (store : MetadataStore) (peer : NodeID) (id : ObjectID) :
    (metadataRemovePeer store peer).find id =
      (store.find id).map (MetadataEntry.withoutPeer peer) := by
  show KeyedList.lookup key (if bucket id < bucketCount then _ else _) id = _
  rw [if_pos (bucket_lt id)]
  exact KeyedList.lookup_map (key_withoutPeer peer) _ id

theorem WellFormed.removePeer (wellFormed : store.WellFormed) (peer : NodeID) :
    (metadataRemovePeer store peer).WellFormed := by
  have rows : ∀ index, ∃ change : MetadataEntry → MetadataEntry,
      (metadataRemovePeer store peer).buckets index = (store.buckets index).map change ∧
      (∀ entry, key (change entry) = key entry) ∧ ∀ entry, entry.Sound → (change entry).Sound := by
    intro index
    by_cases inside : index < bucketCount
    · exact ⟨_, if_pos inside, key_withoutPeer peer, fun _ sound => sound.withoutPeer peer⟩
    · exact ⟨fun entry => entry, (if_neg inside).trans (List.map_id' _).symm, fun _ => rfl,
        fun _ sound => sound⟩
  refine ⟨fun index entry member => ?_, fun index => ?_, fun index entry member => ?_⟩
  · obtain ⟨change, same, keeps, -⟩ := rows index
    rw [same] at member
    obtain ⟨old, before, rfl⟩ := List.mem_map.mp member
    rw [keeps]
    exact wellFormed.placed index old before
  · obtain ⟨change, same, keeps, -⟩ := rows index
    rw [same]
    exact List.pairwise_map.mpr ((wellFormed.distinct index).imp fun apart => by rwa [keeps, keeps])
  · obtain ⟨change, same, -, sound⟩ := rows index
    rw [same] at member
    obtain ⟨old, before, rfl⟩ := List.mem_map.mp member
    exact sound old (wellFormed.sound index old before)

end MetadataStore

end SuperPeerNet
