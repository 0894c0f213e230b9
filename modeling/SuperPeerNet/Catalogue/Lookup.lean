/-
This file models `directory_lookup` of `directory.c`, which joins the store of documents with the
table of members, and proves that it finds what is there and nothing else.

A lookup selects a document by id or by name, and for every chunk it copies the descriptor and the
endpoints of the owners that can serve it. It stops at the first chunk that nobody can serve, and a
lookup that fails leaves the result empty. What a lookup is for is stated on the map that the store
stands for, where the owners of a chunk are a set.
-/

import SuperPeerNet.Catalogue.Payloads
import SuperPeerNet.Catalogue.Refinement
import SuperPeerNet.Gossip.Detector

namespace SuperPeerNet

/-! ### The code -/

/-- The test of `directory_lookup` for an owner, with the endpoint that it fills in. -/
def liveEndpoint (table : SuperPeer) (owner : NodeID) : Option TransferEndpoint :=
  match table.findMember owner with
  | .error _ => none
  | .ok member =>
    if member.localRegistration ∧ member.state.belowFailed then
      some ⟨owner, member.node.config.ip, member.node.config.port⟩
    else none

/-- The body of the loop of `directory_lookup` over the chunks. -/
def locateChunk (store : MetadataStore) (table : SuperPeer) (id : ObjectID) (index : UInt64) :
    Except Errno TransferChunkLocations :=
  match metadataChunkDescriptor store id index with
  | .error code => .error code
  | .ok descriptor => match metadataChunkPeers store id index with
    | .error code => .error code
    | .ok owners =>
      let endpoints := owners.filterMap (liveEndpoint table)
      if endpoints.length = 0 then .error .enodata else .ok ⟨descriptor, endpoints⟩

/-- The loop of `directory_lookup` over as many chunks, from an index on. -/
def locateChunks (store : MetadataStore) (table : SuperPeer) (id : ObjectID) :
    (count index : Nat) → Except Errno (List TransferChunkLocations)
  | 0, _ => .ok []
  | count + 1, index =>
    match locateChunk store table id (UInt64.ofNat index) with
    | .error code => .error code
    | .ok locations => match locateChunks store table id count (index + 1) with
      | .error code => .error code
      | .ok rest => .ok (locations :: rest)

/-- A result as `memset` and `transfer_lookup_result_free` leave it. -/
def TransferLookupResult.blank : TransferLookupResult :=
  ⟨⟨Octets.fill objectIdSize 0, [], 0, 0, 0⟩, []⟩

/-- The document of a result. -/
def foundDocument (document : FileMetadata) : TransferDocument :=
  ⟨document.objectId, document.filename, document.size, document.chunkCount.toUInt64,
    compressionLz4⟩

/-- The selection of `directory_lookup`. -/
def selectDocument (store : MetadataStore) (type : TransferSelectorType) (id : ObjectID)
    (name : List UInt8) : Except Errno ObjectID :=
  match type with
  | .objectId => .ok id
  | .name => metadataFindName store name

/-- `directory_lookup`, with what it leaves in its result. -/
def directoryLookup (store : MetadataStore) (table : SuperPeer) (type : TransferSelectorType)
    (id : ObjectID) (name : List UInt8) : TransferLookupResult × Except Errno Unit :=
  match selectDocument store type id name with
  | .error code => (.blank, .error code)
  | .ok selected => match metadataFindDocument store selected with
    | .error code => (.blank, .error code)
    | .ok document => match locateChunks store table selected document.chunkCount.toNat 0 with
      | .error code => (.blank, .error code)
      | .ok chunks => (⟨foundDocument document, chunks⟩, .ok ())

/-! ### Stores of published documents -/

/-- What changes a store whose documents come from the directory. -/
inductive DirectoryCall where
  | announce (document : TransferDocument) (chunks : List MetadataChunk) (owner : NodeID)
  | removeDocument (id : ObjectID)
  | registerChunk (id : ObjectID) (index : UInt64) (peer : NodeID)
  | unregisterChunk (id : ObjectID) (index : UInt64) (peer : NodeID)
  | removePeer (peer : NodeID)

namespace DirectoryCall

/-- The array of an announcement has the descriptors that its document counts. -/
def Complete : DirectoryCall → Prop
  | .announce document chunks _ => chunks.length = document.chunkCount.toNat
  | _ => True

/-- The store after a call, whether it succeeds or not. -/
def apply (store : MetadataStore) : DirectoryCall → MetadataStore
  | .announce document chunks owner => (directoryAnnounce store document chunks owner).1
  | .removeDocument id => (metadataRemoveDocument store id).1
  | .registerChunk id index peer => (metadataRegisterChunk store id index peer).1
  | .unregisterChunk id index peer => (metadataUnregisterChunk store id index peer).1
  | .removePeer peer => metadataRemovePeer store peer

end DirectoryCall

/-- The store after a sequence of calls. -/
def MetadataStore.after (calls : List DirectoryCall) : MetadataStore :=
  calls.foldl DirectoryCall.apply .empty

/-- What an announcement establishes for a document. -/
structure Holding.Published (known : Holding) : Prop where
  described : known.chunks.isSome
  counted : known.document.chunkCount.toNat = chunksOf known.document.size
  named : known.document.filename ≠ []
  short : known.document.filename.length < metadataNameSize

/-- Every known document has been announced. -/
structure MetadataStore.Published (store : MetadataStore) : Prop where
  wellFormed : store.WellFormed
  published : ∀ id known, store.catalogue id = some known → known.Published

namespace MetadataStore

variable {store : MetadataStore}

theorem Published.empty : MetadataStore.empty.Published :=
  ⟨WellFormed.empty, fun _ _ absent => (nomatch absent)⟩

/-- A store that has written a published document. -/
theorem Published.write {next : MetadataStore} (published : store.Published)
    (wellFormed : next.WellFormed) {id : ObjectID} {known : Option Holding}
    (written : next.catalogue = store.catalogue.write id known)
    (isPublished : ∀ holding, known = some holding → holding.Published) : next.Published := by
  refine ⟨wellFormed, fun other holding found => ?_⟩
  rw [written, Catalogue.write, Function.update_apply] at found
  split at found
  · exact isPublished holding found
  · exact published.published other holding found

theorem Published.announce (published : store.Published) {document : FileMetadata}
    {chunks : List MetadataChunk} (owner : NodeID)
    (complete : chunks.length = document.chunkCount.toNat) :
    (metadataAnnounce store document chunks owner).1.Published := by
  obtain ⟨wellFormed, catalogue, -⟩ :=
    announce_refines published.wellFormed document chunks owner complete
  unfold Catalogue.announce at catalogue
  have same : ∀ {next : MetadataStore}, next.WellFormed → next.catalogue = store.catalogue →
      next.Published := fun sound equal =>
    ⟨sound, fun id known found => published.published id known (equal ▸ found)⟩
  split at catalogue
  · rename_i valid
    split at catalogue
    · refine published.write wellFormed catalogue fun holding isHolding => ?_
      cases isHolding
      exact ⟨rfl, valid.counted, valid.named, valid.short⟩
    · rename_i known found
      split at catalogue
      · refine published.write wellFormed catalogue fun holding isHolding => ?_
        cases isHolding
        have before := published.published _ known found
        unfold Holding.merge
        rw [before.described, if_pos rfl]
        exact ⟨rfl, before.counted, before.named, before.short⟩
      · exact same wellFormed catalogue
  · exact same wellFormed catalogue

/-- A call that changes the availabilities of one document, or nothing. -/
theorem Published.of_refines (published : store.Published)
    {outcome : MetadataStore × Except Errno Unit} {expected : Catalogue × Except Errno Unit}
    (refines : Refines outcome expected)
    (changes : ∀ id known, expected.1 id = some known → ∃ old, store.catalogue id = some old ∧
      known.document = old.document ∧ known.chunks = old.chunks) : outcome.1.Published := by
  refine ⟨refines.wellFormed, fun id known found => ?_⟩
  rw [refines.catalogue] at found
  obtain ⟨old, before, document, chunks⟩ := changes id known found
  obtain ⟨described, counted, named, short⟩ := published.published id old before
  exact ⟨chunks ▸ described, document ▸ counted, document ▸ named, document ▸ short⟩

/-- Writing a document with other availabilities. -/
theorem written_available {catalogue : Catalogue} {id other : ObjectID} {old known : Holding}
    (before : catalogue id = some old) {available : Set (UInt64 × NodeID)}
    (found : catalogue.write id (some { old with available := available }) other = some known) :
    ∃ old, catalogue other = some old ∧ known.document = old.document ∧
      known.chunks = old.chunks := by
  rw [Catalogue.write, Function.update_apply] at found
  split at found
  · rename_i same
    cases found
    exact ⟨old, same ▸ before, rfl, rfl⟩
  · exact ⟨known, found, rfl, rfl⟩

theorem Published.apply (published : store.Published) {call : DirectoryCall}
    (complete : call.Complete) : (call.apply store).Published := by
  have untouched : ∀ id known, store.catalogue id = some known → ∃ old,
      store.catalogue id = some old ∧ known.document = old.document ∧ known.chunks = old.chunks :=
    fun _ known found => ⟨known, found, rfl, rfl⟩
  cases call with
  | announce document chunks owner =>
    rw [DirectoryCall.apply]
    unfold directoryAnnounce
    split
    · exact published
    · split
      · exact published
      · split
        · exact published
        · rename_i small
          refine published.announce owner ?_
          rw [complete]
          show _ = document.chunkCount.toUInt32.toNat
          rw [UInt64.toNat_toUInt32, Nat.mod_eq_of_lt (by omega)]
  | removeDocument id =>
    refine published.of_refines (removeDocument_refines published.wellFormed id) ?_
    intro other known found
    unfold Catalogue.removeDocument at found
    split at found
    · exact untouched other known found
    · change Function.update store.catalogue id none other = some known at found
      rw [Function.update_apply] at found
      split at found
      · cases found
      · exact untouched other known found
  | registerChunk id index peer =>
    refine published.of_refines (registerChunk_refines published.wellFormed id index peer) ?_
    intro other known found
    unfold Catalogue.registerChunk at found
    split at found
    · exact untouched other known found
    · rename_i old before
      split at found
      · exact written_available before found
      · exact untouched other known found
  | unregisterChunk id index peer =>
    refine published.of_refines (unregisterChunk_refines published.wellFormed id index peer) ?_
    intro other known found
    unfold Catalogue.unregisterChunk at found
    split at found
    · exact untouched other known found
    · rename_i old before
      split at found
      · split at found
        · exact written_available before found
        · exact untouched other known found
      · exact untouched other known found
  | removePeer peer =>
    refine ⟨published.wellFormed.removePeer peer, fun id known found => ?_⟩
    rw [DirectoryCall.apply, catalogue_removePeer] at found
    obtain ⟨old, before, rfl⟩ := Option.map_eq_some_iff.mp found
    obtain ⟨described, counted, named, short⟩ := published.published id old before
    exact ⟨described, counted, named, short⟩

/-- The store after calls of the directory. -/
theorem published_after {calls : List DirectoryCall} (complete : ∀ call ∈ calls, call.Complete) :
    (after calls).Published := by
  unfold after
  induction calls using List.reverseRecOn with
  | nil => exact .empty
  | append_singleton calls call inductionHypothesis =>
    rw [List.foldl_append]
    exact (inductionHypothesis fun other member => complete other (List.mem_append_left _ member)
      ).apply (complete call (List.mem_append_right _ (List.mem_singleton_self call)))

end MetadataStore

/-! ### What a lookup finds -/

/-- A document that a selector names: the one with the id, or one with the name. -/
def Selects (catalogue : Catalogue) (type : TransferSelectorType) (id : ObjectID)
    (name : List UInt8) (selected : ObjectID) : Prop :=
  match type with
  | .objectId => selected = id ∧ ∃ known, catalogue selected = some known ∧ known.chunks.isSome
  | .name => ∃ known, catalogue selected = some known ∧ known.chunks.isSome ∧
      known.document.filename = name

/-- A selector names exactly one document. -/
def SelectsOnly (catalogue : Catalogue) (type : TransferSelectorType) (id : ObjectID)
    (name : List UInt8) (selected : ObjectID) : Prop :=
  Selects catalogue type id name selected ∧
    ∀ other, Selects catalogue type id name other → other = selected

/-- A member record from which an owner can serve chunks. -/
def Serves (table : SuperPeer) (owner : NodeID) (member : MemberRecord) : Prop :=
  table.find owner = some member ∧ member.localRegistration = true ∧
    (member.state = .alive ∨ member.state = .suspect)

/-- The owners of a chunk that can serve it, with their records. -/
def Holding.Server (known : Holding) (table : SuperPeer) (index : UInt64) (owner : NodeID)
    (member : MemberRecord) : Prop :=
  (index, owner) ∈ known.available ∧ Serves table owner member

/-- Every chunk can be served. -/
def Holding.Served (known : Holding) (table : SuperPeer) : Prop :=
  ∀ index : UInt64, index.toNat < known.document.chunkCount.toNat →
    ∃ owner member, known.Server table index owner member

/-- What the locations of a chunk have to be: its descriptor, and the endpoint of everyone who can
serve it, once. -/
structure Holding.Located (known : Holding) (table : SuperPeer) (index : Nat)
    (locations : TransferChunkLocations) : Prop where
  descriptor : ∀ chunks ∈ known.chunks, chunks[index]? = some locations.descriptor
  peers : ∀ endpoint, endpoint ∈ locations.peers ↔ ∃ owner member,
    known.Server table (UInt64.ofNat index) owner member ∧
      endpoint = ⟨owner, member.node.config.ip, member.node.config.port⟩
  once : (locations.peers.map TransferEndpoint.nodeId).Nodup

/-- What the result of a lookup has to be. -/
structure Holding.Listed (known : Holding) (table : SuperPeer) (result : TransferLookupResult) :
    Prop where
  document : result.document = foundDocument known.document
  count : result.chunks.length = known.document.chunkCount.toNat
  chunks : ∀ index locations, result.chunks[index]? = some locations →
    known.Located table index locations

theorem liveEndpoint_eq_some {table : SuperPeer} {owner : NodeID} {endpoint : TransferEndpoint} :
    liveEndpoint table owner = some endpoint ↔ ∃ member, Serves table owner member ∧
      endpoint = ⟨owner, member.node.config.ip, member.node.config.port⟩ := by
  unfold liveEndpoint SuperPeer.findMember Serves
  cases table.find owner with
  | none => simp
  | some member =>
    cases state : member.state <;>
      simp [state, SuperPeerMemberState.belowFailed, eq_comm (a := endpoint)]

/-- The peers of a chunk are read without repetition. -/
theorem nodup_chunkPeers {entry : MetadataEntry} (sound : entry.Sound) (index : UInt64) :
    ((entry.available.filter fun item => item.index = index).map Availability.peer).Nodup := by
  refine List.Nodup.map_on ?_ (sound.once.filter _)
  intro first inFirst second inSecond same
  have firstIndex : first.index = index := by simpa using (List.mem_filter.mp inFirst).2
  have secondIndex : second.index = index := by simpa using (List.mem_filter.mp inSecond).2
  cases first
  cases second
  simp only at firstIndex secondIndex same
  rw [firstIndex, secondIndex, same]

/-- The endpoints of different owners are different. -/
theorem nodup_liveEndpoints (table : SuperPeer) {owners : List NodeID} (once : owners.Nodup) :
    ((owners.filterMap (liveEndpoint table)).map TransferEndpoint.nodeId).Nodup := by
  have ids : ((owners.filterMap (liveEndpoint table)).map TransferEndpoint.nodeId).Sublist
      owners := by
    induction owners with
    | nil => exact List.Sublist.refl _
    | cons owner rest inductionHypothesis =>
      have later := inductionHypothesis (List.nodup_cons.mp once).2
      cases live : liveEndpoint table owner with
      | none =>
        rw [List.filterMap_cons_none live]
        exact later.cons owner
      | some endpoint =>
        obtain ⟨member, -, rfl⟩ := liveEndpoint_eq_some.mp live
        rw [List.filterMap_cons_some live]
        exact later.cons_cons owner
  exact once.sublist ids

/-- The body of the loop for a chunk of a published document. -/
theorem locateChunk_eq {store : MetadataStore} (published : store.Published) (table : SuperPeer)
    {id : ObjectID} {known : Holding} (found : store.catalogue id = some known) {index : Nat}
    (inside : index < known.document.chunkCount.toNat) :
    ((∃ owner member, known.Server table (UInt64.ofNat index) owner member) ∧
      ∃ locations, locateChunk store table id (UInt64.ofNat index) = .ok locations ∧
        known.Located table index locations) ∨
    ((∀ owner member, ¬ known.Server table (UInt64.ofNat index) owner member) ∧
      locateChunk store table id (UInt64.ofNat index) = .error .enodata) := by
  obtain ⟨entry, there, rfl⟩ := Option.map_eq_some_iff.mp found
  have sound := published.wellFormed.find_sound there
  obtain ⟨descriptors, isDescriptors⟩ :=
    Option.isSome_iff_exists.mp (published.published id _ found).described
  change entry.chunks = some descriptors at isDescriptors
  change index < entry.document.chunkCount.toNat at inside
  have word : (UInt64.ofNat index).toNat = index := by
    have small := entry.document.chunkCount.toNat_lt
    rw [UInt64.toNat_ofNat', Nat.mod_eq_of_lt (by omega)]
  have number : UInt64.ofNat index < entry.document.chunkCount.toUInt64 := by
    rw [UInt64.lt_iff_toNat_lt, word, UInt32.toNat_toUInt64]
    exact inside
  have within : index < descriptors.length :=
    (sound.complete descriptors isDescriptors).symm ▸ inside
  have descriptor : metadataChunkDescriptor store id (UInt64.ofNat index) =
      .ok descriptors[index] := by
    rw [metadataChunkDescriptor, there]
    dsimp only
    rw [isDescriptors]
    dsimp only
    rw [if_pos number, word, List.getElem?_eq_getElem within]
  have owners : metadataChunkPeers store id (UInt64.ofNat index) =
      .ok ((entry.available.filter fun item => item.index = UInt64.ofNat index).map
        Availability.peer) := by
    rw [metadataChunkPeers, there]
    dsimp only
    rw [if_neg (UInt64.not_le.mpr number)]
  have once := nodup_chunkPeers sound (UInt64.ofNat index)
  have mem : ∀ owner, owner ∈ (entry.available.filter fun item =>
      item.index = UInt64.ofNat index).map Availability.peer ↔
      (UInt64.ofNat index, owner) ∈ entry.holding.available := by
    intro owner
    simp only [List.mem_map, List.mem_filter, decide_eq_true_eq]
    constructor
    · rintro ⟨item, ⟨available, number⟩, rfl⟩
      rw [← number]
      exact available
    · intro available
      exact ⟨⟨_, owner⟩, ⟨available, rfl⟩, rfl⟩
  rw [locateChunk, descriptor, owners]
  generalize (entry.available.filter fun item =>
    item.index = UInt64.ofNat index).map Availability.peer = list at once mem
  have endpoints : ∀ endpoint, endpoint ∈ list.filterMap (liveEndpoint table) ↔
      ∃ owner member, entry.holding.Server table (UInt64.ofNat index) owner member ∧
        endpoint = ⟨owner, member.node.config.ip, member.node.config.port⟩ := by
    intro endpoint
    simp only [List.mem_filterMap, liveEndpoint_eq_some, mem, Holding.Server]
    constructor
    · rintro ⟨owner, available, member, serves, isEndpoint⟩
      exact ⟨owner, member, ⟨available, serves⟩, isEndpoint⟩
    · rintro ⟨owner, member, ⟨available, serves⟩, isEndpoint⟩
      exact ⟨owner, available, member, serves, isEndpoint⟩
  dsimp only
  split
  · rename_i none
    refine Or.inr ⟨fun owner member server => ?_, rfl⟩
    have listed := (endpoints _).mpr ⟨owner, member, server, rfl⟩
    rw [List.length_eq_zero_iff.mp none] at listed
    cases listed
  · rename_i some
    obtain ⟨endpoint, listed⟩ := List.exists_mem_of_length_pos (Nat.pos_of_ne_zero some)
    obtain ⟨owner, member, server, -⟩ := (endpoints endpoint).mp listed
    refine Or.inl ⟨⟨owner, member, server⟩, _, rfl, ?_, endpoints, nodup_liveEndpoints table once⟩
    intro chunks isChunks
    change entry.chunks = _ at isChunks
    rw [isDescriptors] at isChunks
    cases isChunks
    exact List.getElem?_eq_getElem within

/-- The loop over the chunks of a published document. -/
theorem locateChunks_eq {store : MetadataStore} (published : store.Published) (table : SuperPeer)
    {id : ObjectID} {known : Holding} (found : store.catalogue id = some known) {count index : Nat}
    (inside : index + count ≤ known.document.chunkCount.toNat) :
    ((∀ position, index ≤ position → position < index + count →
        ∃ owner member, known.Server table (UInt64.ofNat position) owner member) ∧
      ∃ list, locateChunks store table id count index = .ok list ∧ list.length = count ∧
        ∀ position locations, list[position]? = some locations →
          known.Located table (index + position) locations) ∨
    ((∃ position, index ≤ position ∧ position < index + count ∧
        ∀ owner member, ¬ known.Server table (UInt64.ofNat position) owner member) ∧
      locateChunks store table id count index = .error .enodata) := by
  induction count generalizing index with
  | zero =>
    refine Or.inl ⟨fun position after before => ?_, [], rfl, rfl, nofun⟩
    omega
  | succ count inductionHypothesis =>
    rw [locateChunks]
    rcases locateChunk_eq published table found (show index < _ by omega) with
      ⟨served, locations, here, located⟩ | ⟨nobody, here⟩
    · rw [here]
      dsimp only
      rcases inductionHypothesis (show index + 1 + count ≤ _ by omega) with
        ⟨others, list, later, length, listed⟩ | ⟨⟨position, after, before, nobody⟩, later⟩
      · rw [later]
        refine Or.inl ⟨fun position after before => ?_, _, rfl, congrArg Nat.succ length, ?_⟩
        · rcases Nat.eq_or_lt_of_le after with rfl | more
          · exact served
          · exact others position more (by omega)
        · intro position other isOther
          cases position with
          | zero =>
            cases isOther
            exact located
          | succ position =>
            rw [← Nat.add_assoc, Nat.add_right_comm]
            exact listed position other isOther
      · rw [later]
        exact Or.inr ⟨⟨position, by omega, by omega, nobody⟩, rfl⟩
    · rw [here]
      exact Or.inr ⟨⟨index, Nat.le_refl _, by omega, nobody⟩, rfl⟩

/-- The search by name finds a document exactly if it is the only one. -/
theorem Catalogue.findName_eq_ok {catalogue : Catalogue} {name : List UInt8} {id : ObjectID} :
    catalogue.findName name = .ok id ↔
      catalogue.Carries name id ∧ ∀ other, catalogue.Carries name other → other = id := by
  unfold Catalogue.findName
  constructor
  · intro done
    split at done
    · cases done
    · rename_i alone
      split at done
      · rename_i carried
        cases done
        refine ⟨carried.choose_spec, fun other carries => ?_⟩
        by_contra apart
        exact alone ⟨other, carried.choose, apart, carries, carried.choose_spec⟩
      · cases done
  · rintro ⟨carries, only⟩
    have carried : ∃ other, catalogue.Carries name other := ⟨id, carries⟩
    rw [if_neg, dif_pos carried, only _ carried.choose_spec]
    rintro ⟨first, second, apart, isFirst, isSecond⟩
    exact apart ((only first isFirst).trans (only second isSecond).symm)

section Selection

variable {store : MetadataStore} {type : TransferSelectorType} {id : ObjectID} {name : List UInt8}

/-- In a published store every document with a name is one that the selector may name. -/
theorem carries_iff_selects (published : store.Published) (selected : ObjectID) :
    store.catalogue.Carries name selected ↔ Selects store.catalogue .name id name selected := by
  constructor
  · rintro ⟨known, found, named⟩
    exact ⟨known, found, (published.published _ known found).described, named⟩
  · rintro ⟨known, found, -, named⟩
    exact ⟨known, found, named⟩

/-- The selection gives the only document that is named. -/
theorem selectDocument_of_only (published : store.Published) {selected : ObjectID}
    (only : SelectsOnly store.catalogue type id name selected) :
    selectDocument store type id name = .ok selected ∧
      ∃ known, store.catalogue selected = some known := by
  cases type with
  | objectId =>
    obtain ⟨⟨same, known, found, -⟩, -⟩ := only
    exact ⟨congrArg Except.ok same.symm, known, found⟩
  | name =>
    obtain ⟨known, found, -⟩ := only.1
    refine ⟨?_, known, found⟩
    rw [selectDocument, findName_refines published.wellFormed, Catalogue.findName_eq_ok]
    exact ⟨(carries_iff_selects published selected).mpr only.1, fun other carries =>
      only.2 other ((carries_iff_selects published other).mp carries)⟩

/-- Without such a document the lookup fails at once. -/
theorem directoryLookup_of_none (published : store.Published) (table : SuperPeer)
    (nothing : ∀ selected, ¬ SelectsOnly store.catalogue type id name selected) :
    ∃ code, directoryLookup store table type id name = (.blank, .error code) := by
  unfold directoryLookup
  cases type with
  | objectId =>
    rw [selectDocument]
    dsimp only
    rw [findDocument_refines, Catalogue.findDocument]
    cases found : store.catalogue id with
    | none => exact ⟨_, rfl⟩
    | some known =>
      have described := (published.published id known found).described
      exact absurd ⟨⟨rfl, known, found, described⟩, fun other selects => selects.1⟩ (nothing id)
  | name =>
    rw [selectDocument, findName_refines published.wellFormed]
    cases selection : store.catalogue.findName name with
    | error code => exact ⟨_, rfl⟩
    | ok selected =>
      obtain ⟨carries, unique⟩ := Catalogue.findName_eq_ok.mp selection
      exact absurd ⟨(carries_iff_selects published selected).mp carries, fun other selects =>
        unique other ((carries_iff_selects published other).mpr selects)⟩ (nothing selected)

end Selection

/-- When a lookup succeeds, what its result is then, and what it is otherwise. -/
theorem MetadataStore.Published.lookup {store : MetadataStore} (published : store.Published)
    (table : SuperPeer) (type : TransferSelectorType) (id : ObjectID) (name : List UInt8) :
    let catalogue := store.catalogue
    let lookup := directoryLookup store table type id name
    (lookup.2 = .ok () ↔ ∃ selected known, SelectsOnly catalogue type id name selected ∧
      catalogue selected = some known ∧ known.Served table) ∧
    (lookup.2 = .ok () → ∀ selected known, SelectsOnly catalogue type id name selected →
      catalogue selected = some known → known.Listed table lookup.1) ∧
    (lookup.2 ≠ .ok () → lookup.1.chunks = []) := by
  intro catalogue lookup
  by_cases selectable : ∃ selected, SelectsOnly catalogue type id name selected
  · obtain ⟨selected, only⟩ := selectable
    obtain ⟨selection, known, found⟩ := selectDocument_of_only published only
    have document : metadataFindDocument store selected = .ok known.document := by
      rw [findDocument_refines, Catalogue.findDocument, found]
    have unique : ∀ other holding, SelectsOnly catalogue type id name other →
        catalogue other = some holding → holding = known := by
      intro other holding isOnly isHolding
      rw [only.2 other isOnly.1] at isHolding
      exact Option.some.inj (isHolding.symm.trans found)
    have unfolded : lookup = match locateChunks store table selected
        known.document.chunkCount.toNat 0 with
        | .error code => (.blank, .error code)
        | .ok chunks => (⟨foundDocument known.document, chunks⟩, .ok ()) := by
      show directoryLookup store table type id name = _
      rw [directoryLookup, selection]
      dsimp only
      rw [document]
    rcases locateChunks_eq published table found (Nat.zero_add _).le with
      ⟨served, list, located, length, listed⟩ | ⟨⟨position, -, inside, nobody⟩, failed⟩
    · rw [unfolded, located]
      refine ⟨⟨fun _ => ⟨selected, known, only, found, fun index inside => ?_⟩, fun _ => rfl⟩,
        fun _ other holding isOnly isHolding => ?_, fun failed => absurd rfl failed⟩
      · have server := served index.toNat (Nat.zero_le _) (by rwa [Nat.zero_add])
        rwa [UInt64.ofNat_toNat] at server
      · rw [unique other holding isOnly isHolding]
        refine ⟨rfl, length, fun index locations isLocations => ?_⟩
        have isLocated := listed index locations isLocations
        rwa [Nat.zero_add] at isLocated
    · rw [unfolded, failed]
      refine ⟨⟨nofun, ?_⟩, nofun, fun _ => rfl⟩
      rintro ⟨other, holding, isOnly, isHolding, served⟩
      rw [unique other holding isOnly isHolding] at served
      have small := known.document.chunkCount.toNat_lt
      rw [Nat.zero_add] at inside
      obtain ⟨owner, member, server⟩ := served (UInt64.ofNat position) (by
        rw [UInt64.toNat_ofNat', Nat.mod_eq_of_lt (by omega)]
        exact inside)
      exact absurd server (nobody owner member)
  · have nothing := not_exists.mp selectable
    obtain ⟨code, failed⟩ := directoryLookup_of_none published table nothing
    have unfolded : lookup = (.blank, .error code) := failed
    rw [unfolded]
    exact ⟨⟨nofun, fun ⟨selected, _, only, _⟩ => absurd only (nothing selected)⟩, nofun,
      fun _ => rfl⟩

/-- For every store of published documents, every table of members and every selector, the lookup
succeeds exactly if the selector names one document only and every chunk of it can be served. Then
the result lists for every chunk its descriptor and the endpoints of everyone who can serve it, once
each. Otherwise the result has no chunks. -/
theorem directory_lookup_exact {calls : List DirectoryCall}
    (complete : ∀ call ∈ calls, call.Complete) (table : SuperPeer) (type : TransferSelectorType)
    (id : ObjectID) (name : List UInt8) :
    let catalogue := (MetadataStore.after calls).catalogue
    let lookup := directoryLookup (.after calls) table type id name
    (lookup.2 = .ok () ↔ ∃ selected known, SelectsOnly catalogue type id name selected ∧
      catalogue selected = some known ∧ known.Served table) ∧
    (lookup.2 = .ok () → ∀ selected known, SelectsOnly catalogue type id name selected →
      catalogue selected = some known → known.Listed table lookup.1) ∧
    (lookup.2 ≠ .ok () → lookup.1.chunks = []) :=
  (MetadataStore.published_after complete).lookup table type id name

/-- A document of one chunk that the second neighbour announces. -/
def noteAnnouncement : DirectoryCall :=
  .announce ⟨Octets.read objectIdSize [9], [97, 46, 112, 100, 102], 1, 1, compressionLz4⟩
    [oneByteChunk] (neighbour 2).id

/-- The second neighbour can serve the chunk, so the document is the one that its name selects. -/
theorem directory_lookup_exact_note :
    let catalogue := (MetadataStore.after [noteAnnouncement]).catalogue
    ∃ selected known, SelectsOnly catalogue .name (Octets.fill _ 0) [97, 46, 112, 100, 102] selected ∧
      catalogue selected = some known ∧ known.Served (SuperPeer.fresh (neighbour 2) 0 0) := by
  have complete : ∀ call ∈ [noteAnnouncement], call.Complete := by
    intro call member
    rw [List.mem_singleton.mp member]
    rfl
  have found : (directoryLookup (.after [noteAnnouncement]) (SuperPeer.fresh (neighbour 2) 0 0)
      .name (Octets.fill _ 0) [97, 46, 112, 100, 102]).2 = .ok () := by decide +kernel
  exact (directory_lookup_exact complete _ _ _ _).1.mp found

end SuperPeerNet
