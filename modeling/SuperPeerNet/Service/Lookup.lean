/-
This file models how a super peer answers an `M_LOOKUP` message, `answer_lookup` of `superpeer.c`,
and says for which documents the answer is the lookup result.

An announcement lists 56 bytes for every chunk, and the reply to a lookup at least 94, so a document
may be announced whose lookup result does not fit a message. The encoder refuses such a result, and
the reply is an error.
-/

import SuperPeerNet.Catalogue.Lookup
import SuperPeerNet.Catalogue.RoundTrip
import SuperPeerNet.Storage.Cache

namespace SuperPeerNet

/-! ### The handler -/

/-- The part of `answer_lookup` that can fail: the lookup result with its payload. -/
def lookupReply (store : MetadataStore) (table : SuperPeer) (payload : List UInt8) :
    Except Errno (TransferLookupResult × List UInt8) :=
  match transferDecodeLookupRequest payload with
  | .error code => .error code
  | .ok (type, id, name) => match directoryLookup store table type id name with
    | (_, .error code) => .error code
    | (result, .ok _) => match transferEncodeLookupResult result with
      | .error code => .error code
      | .ok reply => .ok (result, reply)

/-- The read of the first chunk by which `answer_lookup` warms the cache. -/
def warmCache (storage : Storage) (cache : Cache) (disk : Disk) (document : TransferDocument) :
    Cache :=
  if document.chunkCount > 0 ∧ (storageFind storage (.objectId document.id)).isOk then
    (storageReadChunk storage cache disk document.id 0).1
  else cache

/-- `answer_lookup`. -/
def answerLookup (localNode : NodeID) (store : MetadataStore) (table : SuperPeer)
    (storage : Storage) (cache : Cache) (disk : Disk) (request : Message) : Cache × Message :=
  match lookupReply store table request.payload with
  | .error code => (cache, sendReply localNode request (.error code))
  | .ok (result, reply) => (warmCache storage cache disk result.document,
      sendReply localNode request (.ok (.downloadRep, reply)))

/-! ### Announced payloads -/

/-- Announce what a payload is decoded to, for an owner. -/
def announcePayload (store : MetadataStore) (announcement : List UInt8 × NodeID) : MetadataStore :=
  match transferDecodeAnnouncement announcement.1 with
  | .error _ => store
  | .ok (document, chunks) => (directoryAnnounce store document chunks announcement.2).1

/-- The store after a sequence of announcements. -/
def MetadataStore.announcing (announcements : List (List UInt8 × NodeID)) : MetadataStore :=
  announcements.foldl announcePayload .empty

/-- An announcement that passes the checks of the directory gets to the store. -/
theorem announcePayload_of_checked {announcement : List UInt8 × NodeID}
    {document : TransferDocument} {chunks : List MetadataChunk}
    (decoded : transferDecodeAnnouncement announcement.1 = .ok (document, chunks))
    (compression : document.compression = compressionLz4) (pdf : endsInPdf document.name = true)
    (countable : document.chunkCount.toNat ≤ 2 ^ 32 - 1) (store : MetadataStore) :
    announcePayload store announcement =
      (metadataAnnounce store (announcedDocument document announcement.2) chunks
        announcement.2).1 := by
  rw [announcePayload, decoded]
  dsimp only
  rw [directoryAnnounce, if_neg (not_not.mpr compression), if_neg (by rw [pdf]; decide),
    if_neg (not_lt.mpr countable)]

theorem published_announcing (announcements : List (List UInt8 × NodeID)) :
    (MetadataStore.announcing announcements).Published := by
  unfold MetadataStore.announcing
  induction announcements using List.reverseRecOn with
  | nil => exact .empty
  | append_singleton announcements announcement inductionHypothesis =>
    rw [List.foldl_append, List.foldl_cons, List.foldl_nil]
    unfold announcePayload
    cases decoded : transferDecodeAnnouncement announcement.1 with
    | error code => exact inductionHypothesis
    | ok read =>
      obtain ⟨-, complete, -⟩ := transferDecodeAnnouncement_ok decoded
      exact MetadataStore.Published.apply inductionHypothesis
        (show (DirectoryCall.announce read.1 read.2 announcement.2).Complete from complete)

/-! ### Results that fit a message -/

/-- The number of bytes of the payload of a lookup result. -/
def replySize (result : TransferLookupResult) : Nat :=
  52 + result.document.name.length + (result.chunks.map fun chunk =>
    58 + (chunk.peers.map fun endpoint => 35 + endpoint.ip.length).sum).sum

/-- The addresses of a result are as the encoder wants them. -/
def Addressed (result : TransferLookupResult) : Prop :=
  ∀ chunk ∈ result.chunks, ∀ endpoint ∈ chunk.peers,
    endpoint.ip ≠ [] ∧ endpoint.ip.length < nodeAddressSize

/-- A result that fits a message. -/
structure FitsMessage (result : TransferLookupResult) : Prop where
  few : ∀ chunk ∈ result.chunks, chunk.peers.length ≤ 65535
  small : replySize result ≤ maxPayloadSize

theorem replySize_eq (result : TransferLookupResult) :
    replySize result = lookupResultSize result := by
  unfold replySize lookupResultSize
  rw [List.length_flatMap]
  simp only [length_locationsBytes]
  rfl

/-- Every chunk that somebody serves takes 93 bytes and more. -/
theorem replySize_ge {result : TransferLookupResult}
    (served : ∀ chunk ∈ result.chunks, chunk.peers ≠ []) :
    result.chunks.length * 93 ≤ replySize result := by
  have long : ∀ size ∈ result.chunks.map (fun chunk =>
      58 + (chunk.peers.map fun endpoint => 35 + endpoint.ip.length).sum), 93 ≤ size := by
    intro size member
    obtain ⟨chunk, inside, rfl⟩ := List.mem_map.mp member
    obtain ⟨endpoint, rest, peers⟩ := List.exists_cons_of_ne_nil (served chunk inside)
    rw [peers, List.map_cons, List.sum_cons]
    omega
  have total := List.card_nsmul_le_sum _ 93 long
  rw [List.length_map, Nat.nsmul_eq_mul] at total
  exact total.trans (Nat.le_add_left _ _)

/-- The result of a lookup is encoded exactly if it fits. -/
theorem encodes_iff {store : MetadataStore} (published : store.Published) {table : SuperPeer}
    {type : TransferSelectorType} {id : ObjectID} {name : List UInt8}
    (found : (directoryLookup store table type id name).2 = .ok ()) :
    (∃ payload, transferEncodeLookupResult (directoryLookup store table type id name).1 =
      .ok payload) ↔ Addressed (directoryLookup store table type id name).1 ∧
        FitsMessage (directoryLookup store table type id name).1 := by
  obtain ⟨succeeds, lists, -⟩ := published.lookup table type id name
  obtain ⟨selected, known, only, isKnown, -⟩ := succeeds.mp found
  obtain ⟨document, count, -⟩ := lists found selected known only isKnown
  have announced := published.published selected known isKnown
  generalize (directoryLookup store table type id name).1 = result at document count
  have complete : result.chunks.length = result.document.chunkCount.toNat := by
    rw [count, document]
    exact (UInt32.toNat_toUInt64 _).symm
  have decoded : result.document.Decoded := by
    rw [document]
    refine ⟨announced.named, announced.short, rfl, UInt64.toNat_inj.mp ?_⟩
    rw [chunkCountOf_toNat]
    exact (UInt32.toNat_toUInt64 _).trans announced.counted
  simp only [transferEncodeLookupResult_eq_ok complete, ← replySize_eq]
  constructor
  · rintro ⟨-, -, sendable, small, -⟩
    refine ⟨fun chunk member endpoint listed => ?_,
      ⟨fun chunk member => Nat.le_of_lt_succ (sendable chunk member).few, small⟩⟩
    exact ⟨(sendable chunk member).nonempty endpoint listed,
      (sendable chunk member).short endpoint listed⟩
  · rintro ⟨addressed, few, small⟩
    exact ⟨_, decoded, fun chunk member => ⟨Nat.lt_succ_of_le (few chunk member),
      fun endpoint listed => (addressed chunk member endpoint listed).1,
      fun endpoint listed => (addressed chunk member endpoint listed).2⟩, small, rfl⟩

/-! ### Addresses of members -/

section Members

variable [Inet] [Sha256]

/-- The addresses of nodes that have passed `node_validate` are those that the encoder wants. -/
theorem address_of_nodeValidate {node : Node} (valid : nodeValidate node = .ok ()) :
    node.config.ip ≠ [] ∧ node.config.ip.length < nodeAddressSize := by
  have computed := nodeComputeId_of_nodeValidate valid
  unfold nodeComputeId nodeConfigValidate at computed
  split at computed
  · cases computed
  · rename_i configured
    split at configured
    · cases configured
    · rename_i checked
      rw [not_or, ge_iff_le, not_le] at checked
      refine ⟨fun empty => ?_, checked.2⟩
      rw [normalizeIp, if_pos empty] at configured
      cases configured

/-- Every member has passed `node_validate`. -/
def SuperPeer.Validated (table : SuperPeer) : Prop :=
  ∀ member ∈ table.members, nodeValidate member.node = .ok ()

theorem SuperPeer.Validated.fresh {node : Node} (valid : nodeValidate node = .ok ())
    (now wall : Int) : (SuperPeer.fresh node now wall).Validated := by
  intro member inside
  rw [List.mem_singleton.mp inside]
  exact valid

/-- What a call writes has passed the check. -/
theorem Rewrites.validated {table : SuperPeer} {call : MembershipCall}
    {member written : MemberRecord} (rewrites : Rewrites table call member written)
    (valid : nodeValidate member.node = .ok ()) : nodeValidate written.node = .ok () := by
  cases rewrites with
  | idle => exact valid
  | @register node home incarnation now wall _ checked =>
    obtain ⟨_, same⟩ := registered_eq table.localNode.id member node home incarnation now wall
    rw [same]
    exact checked
  | @heartbeat incoming now wall =>
    obtain ⟨_, _, same⟩ := beaten_eq table.localNode.id member incoming now wall
    rw [same]
    exact valid
  | merge checked => exact checked
  | @probe id incarnation sequence now success =>
    obtain ⟨_, _, same⟩ := probed_eq member incarnation sequence now success
    rw [same]
    exact valid
  | @tick now limits =>
    obtain ⟨_, _, _, same⟩ := tickMember_eq table.localNode.id limits now member
    rw [same]
    exact valid
  | unregister => exact valid

/-- Every call keeps the members validated. -/
theorem SuperPeer.Validated.calls {table : SuperPeer} (validated : table.Validated)
    (calls : List MembershipCall) : (table.calls calls).Validated := by
  unfold SuperPeer.calls
  induction calls generalizing table with
  | nil => exact validated
  | cons call rest inductionHypothesis =>
    refine inductionHypothesis ?_
    obtain ⟨-, kept, rewritten, members⟩ := changed_call table call
    have before : ∀ member ∈ kept, nodeValidate member.node = .ok () := by
      intro member inside
      obtain ⟨old, among, rewrites⟩ := KeyedList.exists_related rewritten inside
      exact rewrites.validated (validated old among)
    intro member inside
    rcases members with same | ⟨new, same, enters, -, -⟩
    · exact before member (same ▸ inside)
    · rw [same] at inside
      rcases List.mem_append.mp inside with old | last
      · exact before member old
      · rw [List.mem_singleton.mp last]
        cases enters with
        | @register node home incarnation now wall checked =>
          obtain ⟨_, fields⟩ := registered_eq table.localNode.id (setMember node now wall) node
            home incarnation now wall
          rw [fields]
          exact checked
        | merge checked => exact checked

/-- Endpoints are those of members, so they are addressed if the members have been validated. -/
theorem addressed_of_validated {store : MetadataStore} (published : store.Published)
    {table : SuperPeer} (validated : table.Validated) {type : TransferSelectorType} {id : ObjectID}
    {name : List UInt8} (found : (directoryLookup store table type id name).2 = .ok ()) :
    Addressed (directoryLookup store table type id name).1 := by
  obtain ⟨succeeds, lists, -⟩ := published.lookup table type id name
  obtain ⟨selected, known, only, isKnown, -⟩ := succeeds.mp found
  have listed := lists found selected known only isKnown
  intro chunk member endpoint among
  obtain ⟨index, isChunk⟩ := List.mem_iff_getElem?.mp member
  obtain ⟨owner, record, ⟨-, there, -⟩, rfl⟩ :=
    ((listed.chunks index chunk isChunk).peers endpoint).mp among
  exact address_of_nodeValidate (validated record (KeyedList.lookup_mem there))

end Members

/-! ### Answers -/

/-- What `answer_lookup` replies when a document has been found. -/
theorem answerLookup_of_found {store : MetadataStore} {table : SuperPeer} (storage : Storage)
    (cache : Cache) (disk : Disk) (localNode : NodeID) {request : Message}
    {type : TransferSelectorType} {id : ObjectID} {name : List UInt8}
    (decoded : transferDecodeLookupRequest request.payload = .ok (type, id, name))
    (found : (directoryLookup store table type id name).2 = .ok ()) :
    (answerLookup localNode store table storage cache disk request).2 =
      sendReply localNode request
        ((transferEncodeLookupResult (directoryLookup store table type id name).1).map
          (.downloadRep, ·)) := by
  have looked : directoryLookup store table type id name =
      ((directoryLookup store table type id name).1, .ok ()) := Prod.ext rfl found
  unfold answerLookup lookupReply
  rw [decoded]
  dsimp only
  rw [looked]
  dsimp only
  cases transferEncodeLookupResult (directoryLookup store table type id name).1 <;> rfl

/-- Whenever the directory finds a document, its result is encoded and sent exactly if the addresses
are in order, which they are for validated members, and the result fits a message. Otherwise the
reply is an error. -/
theorem lookup_answered_exactly [Inet] [Sha256] (announcements : List (List UInt8 × NodeID))
    (table : SuperPeer) (storage : Storage) (cache : Cache) (disk : Disk) (localNode : NodeID)
    (request : Message)
    {type : TransferSelectorType} {id : ObjectID} {name : List UInt8}
    (decoded : transferDecodeLookupRequest request.payload = .ok (type, id, name))
    (found : (directoryLookup (.announcing announcements) table type id name).2 = .ok ()) :
    let result := (directoryLookup (.announcing announcements) table type id name).1
    let reply := (answerLookup localNode (.announcing announcements) table storage cache disk
      request).2
    ((∃ payload, transferEncodeLookupResult result = .ok payload) ↔
      Addressed result ∧ FitsMessage result) ∧
    (reply.messageType = .downloadRep ↔ Addressed result ∧ FitsMessage result) ∧
    (¬(Addressed result ∧ FitsMessage result) → reply.messageType = .error) ∧
    (table.Validated → Addressed result) := by
  intro result reply
  have published := published_announcing announcements
  have encodes := encodes_iff published found
  have replied : reply = sendReply localNode request
      ((transferEncodeLookupResult result).map (.downloadRep, ·)) :=
    answerLookup_of_found storage cache disk localNode decoded found
  refine ⟨encodes, ?_, fun unfit => ?_,
    fun validated => addressed_of_validated published validated found⟩
  · rw [← encodes, replied]
    cases transferEncodeLookupResult result with
    | error code => exact ⟨nofun, fun ⟨_, wrong⟩ => (nomatch wrong)⟩
    | ok payload => exact ⟨fun _ => ⟨payload, rfl⟩, fun _ => rfl⟩
  · rw [← encodes] at unfit
    rw [replied]
    cases encoded : transferEncodeLookupResult result with
    | error code => rfl
    | ok payload => exact absurd ⟨payload, encoded⟩ unfit

/-- A request for the document with an id. -/
def lookupRequest (id : ObjectID) : Message where
  messageType := .lookup
  sourceNode := (neighbour 3).id
  destinationNode := (neighbour 2).id
  transactionId := Octets.fill transactionIdSize 0
  payload := TransferSelectorType.objectId.number ::
    (wirePutU16 (UInt16.ofNat objectIdSize) ++ id.toList)

/-- The document of `noteAnnouncement`, as its owner announces it. -/
def notePayload : List UInt8 × NodeID :=
  (announcementBytes
    ⟨Octets.read objectIdSize [9], [97, 46, 112, 100, 102], 1, 1, compressionLz4⟩
    [oneByteChunk], (neighbour 2).id)

/-- A storage without documents. -/
def bareStorage : Storage := ⟨(neighbour 2).id, 1, []⟩

/-- A document of one chunk is sent, and so its lookup result fits. -/
theorem lookup_answered_exactly_note :
    let result := (directoryLookup (.announcing [notePayload]) (SuperPeer.fresh (neighbour 2) 0 0)
      .objectId (Octets.read objectIdSize [9]) []).1
    Addressed result ∧ FitsMessage result := by
  have decoded : transferDecodeLookupRequest
      (lookupRequest (Octets.read objectIdSize [9])).payload =
        .ok (.objectId, Octets.read objectIdSize [9], []) := by decide +kernel
  have found : (directoryLookup (.announcing [notePayload]) (SuperPeer.fresh (neighbour 2) 0 0)
      .objectId (Octets.read objectIdSize [9]) []).2 = .ok () := by decide +kernel
  have sent : (answerLookup (neighbour 2).id (.announcing [notePayload])
      (SuperPeer.fresh (neighbour 2) 0 0) bareStorage Cache.initial Disk.empty
      (lookupRequest (Octets.read objectIdSize [9]))).2.messageType = .downloadRep := by
    decide +kernel
  exact (@lookup_answered_exactly Inet.reference Sha256.reference [notePayload] _ bareStorage
    Cache.initial Disk.empty (neighbour 2).id _ _ _ _ decoded found).2.1.mp sent

/-! ### A document that is announced and not found -/

/-- A document of sixty thousand chunks. -/
def atlasDocument : TransferDocument :=
  ⟨Octets.read objectIdSize [7], [97, 46, 112, 100, 102], 251658240000, 60000, compressionLz4⟩

/-- Its descriptors. -/
def atlasChunks : List MetadataChunk :=
  (List.range 60000).map fun index =>
    ⟨UInt64.ofNat index, UInt64.ofNat (index * 4194304), 4194304, 1, Octets.fill objectIdSize 0⟩

/-- Its announcement by the second neighbour. -/
def atlasPayload : List UInt8 × NodeID :=
  (announcementBytes atlasDocument atlasChunks, (neighbour 2).id)

theorem length_atlasChunks : atlasChunks.length = 60000 := by
  rw [atlasChunks, List.length_map, List.length_range]

theorem length_atlasPayload : atlasPayload.1.length = 3360057 := by
  show (announcementBytes atlasDocument atlasChunks).length = _
  rw [announcementBytes, List.length_append, length_documentHeader,
    length_flatMap_encodeDescriptor, length_atlasChunks]
  rfl

theorem decoded_atlasPayload :
    transferDecodeAnnouncement atlasPayload.1 = .ok (atlasDocument, atlasChunks) := by
  refine transferDecodeAnnouncement_announcementBytes ?_ ⟨⟨?_, ?_, rfl, ?_⟩, ?_, ?_⟩ ?_
  · exact length_atlasChunks
  all_goals decide

theorem count_atlas :
    (announcedDocument atlasDocument (neighbour 2).id).chunkCount.toNat = 60000 := rfl

/-- The announcement is one of a file of its size. -/
theorem valid_atlas :
    ValidAnnouncement (announcedDocument atlasDocument (neighbour 2).id) atlasChunks := by
  have size : (251658240000 : UInt64).toNat = 60000 * 4194304 := rfl
  refine ⟨by rw [count_atlas]; decide, ?_, List.cons_ne_nil _ _, by decide,
    fun index inside => ?_⟩
  · rw [count_atlas, chunksOf]
    show _ = ((251658240000 : UInt64).toNat + 4194303) / 4194304
    rw [size]
  · rw [count_atlas] at inside
    have found : atlasChunks[index]? = some ⟨UInt64.ofNat index, UInt64.ofNat (index * 4194304),
        4194304, 1, Octets.fill objectIdSize 0⟩ := by
      rw [atlasChunks, List.getElem?_map, List.getElem?_range inside]
      rfl
    have nonempty : (1 : UInt32) ≠ 0 := by decide
    refine ⟨_, found, ?_, ?_, ?_, nonempty, fun _ known => by cases known⟩
    · rw [UInt64.toNat_ofNat', Nat.mod_eq_of_lt (by omega)]
    · rw [UInt64.toNat_ofNat', Nat.mod_eq_of_lt (by omega)]
    · show 4194304 = min 4194304 ((251658240000 : UInt64).toNat - index * 4194304)
      rw [size]
      omega

/-- The store after the announcement. -/
theorem catalogue_atlas :
    (MetadataStore.announcing [atlasPayload]).catalogue atlasDocument.id =
      some (Holding.announced (announcedDocument atlasDocument (neighbour 2).id) atlasChunks
        (neighbour 2).id) := by
  have complete : atlasChunks.length =
      (announcedDocument atlasDocument (neighbour 2).id).chunkCount.toNat :=
    length_atlasChunks.trans count_atlas.symm
  have announced : MetadataStore.announcing [atlasPayload] = (metadataAnnounce .empty
      (announcedDocument atlasDocument (neighbour 2).id) atlasChunks (neighbour 2).id).1 := by
    have owner : atlasPayload.2 = (neighbour 2).id := rfl
    rw [MetadataStore.announcing, List.foldl_cons, List.foldl_nil,
      announcePayload_of_checked decoded_atlasPayload rfl (by decide) (by decide), owner]
  have absent : MetadataStore.empty.catalogue
      (announcedDocument atlasDocument (neighbour 2).id).objectId = none := rfl
  obtain ⟨-, catalogue, -⟩ := announce_refines MetadataStore.WellFormed.empty
    (announcedDocument atlasDocument (neighbour 2).id) atlasChunks (neighbour 2).id complete
  rw [announced, catalogue, Catalogue.announce, if_pos valid_atlas, absent]
  dsimp only
  exact Function.update_self _ _ _

/-- The second neighbour serves its own domain. -/
theorem secondServes : Serves (SuperPeer.fresh (neighbour 2) 0 0) (neighbour 2).id
    (setMember (neighbour 2) 0 0) :=
  ⟨(KeyedList.lookup_singleton _ _).trans (if_pos rfl), rfl, Or.inl rfl⟩

/-- Every chunk can be served, so the document is found. -/
theorem found_atlas :
    (directoryLookup (.announcing [atlasPayload]) (SuperPeer.fresh (neighbour 2) 0 0) .objectId
      atlasDocument.id []).2 = .ok () :=
  ((published_announcing [atlasPayload]).lookup _ _ _ _).1.mpr
    ⟨atlasDocument.id, _, ⟨⟨rfl, _, catalogue_atlas, rfl⟩, fun _ selects => selects.1⟩,
      catalogue_atlas, fun _ inside => ⟨_, _, ⟨inside, rfl⟩, secondServes⟩⟩

/-- The result does not fit a message. -/
theorem unfit_atlas :
    ¬FitsMessage (directoryLookup (.announcing [atlasPayload]) (SuperPeer.fresh (neighbour 2) 0 0)
      .objectId atlasDocument.id []).1 := by
  intro fits
  have listed := ((published_announcing [atlasPayload]).lookup _ _ _ _).2.1 found_atlas
    atlasDocument.id _ ⟨⟨rfl, _, catalogue_atlas, rfl⟩, fun _ selects => selects.1⟩
    catalogue_atlas
  have small := fits.small
  generalize (directoryLookup (.announcing [atlasPayload]) (SuperPeer.fresh (neighbour 2) 0 0)
    .objectId atlasDocument.id []).1 = result at listed small
  have count : result.chunks.length = 60000 := listed.count.trans count_atlas
  have located : ∀ chunk ∈ result.chunks, chunk.peers ≠ [] := by
    intro chunk member none
    obtain ⟨index, isChunk⟩ := List.mem_iff_getElem?.mp member
    have inside : index < 60000 := count ▸ (List.getElem?_eq_some_iff.mp isChunk).1
    have number : (UInt64.ofNat index).toNat <
        (announcedDocument atlasDocument (neighbour 2).id).chunkCount.toNat := by
      rw [count_atlas, UInt64.toNat_ofNat', Nat.mod_eq_of_lt (by omega)]
      exact inside
    have isPeer := ((listed.chunks index chunk isChunk).peers _).mpr
      ⟨_, _, ⟨⟨number, rfl⟩, secondServes⟩, rfl⟩
    rw [none] at isPeer
    cases isPeer
  have large := replySize_ge located
  rw [count] at large
  exact absurd (large.trans small) (by decide)

/-- A document whose announcement fits a message is found, and its lookup result is refused. -/
theorem not_every_found_document_is_sent :
    atlasPayload.1.length ≤ maxPayloadSize ∧
      transferDecodeAnnouncement atlasPayload.1 = .ok (atlasDocument, atlasChunks) ∧
      (directoryLookup (.announcing [atlasPayload]) (SuperPeer.fresh (neighbour 2) 0 0) .objectId
        atlasDocument.id []).2 = .ok () ∧
      (¬∃ payload, transferEncodeLookupResult (directoryLookup (.announcing [atlasPayload])
        (SuperPeer.fresh (neighbour 2) 0 0) .objectId atlasDocument.id []).1 = .ok payload) ∧
      (answerLookup (neighbour 2).id (.announcing [atlasPayload])
        (SuperPeer.fresh (neighbour 2) 0 0) bareStorage Cache.initial Disk.empty
        (lookupRequest atlasDocument.id)).2.messageType = .error := by
  have refused : ¬∃ payload, transferEncodeLookupResult (directoryLookup
      (.announcing [atlasPayload]) (SuperPeer.fresh (neighbour 2) 0 0) .objectId atlasDocument.id
        []).1 = .ok payload := by
    rw [encodes_iff (published_announcing [atlasPayload]) found_atlas]
    exact fun ⟨_, fits⟩ => unfit_atlas fits
  have decoded : transferDecodeLookupRequest (lookupRequest atlasDocument.id).payload =
      .ok (.objectId, atlasDocument.id, []) := by decide +kernel
  refine ⟨by rw [length_atlasPayload]; decide, decoded_atlasPayload, found_atlas, refused, ?_⟩
  rw [answerLookup_of_found bareStorage Cache.initial Disk.empty _ decoded found_atlas]
  cases encoded : transferEncodeLookupResult (directoryLookup (.announcing [atlasPayload])
    (SuperPeer.fresh (neighbour 2) 0 0) .objectId atlasDocument.id []).1 with
  | error code => rfl
  | ok payload => exact absurd ⟨payload, encoded⟩ refused

end SuperPeerNet
