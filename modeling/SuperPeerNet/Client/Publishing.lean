/-
This file proves that an upload that nothing hinders publishes exactly the file.

Nothing hinders it when its calls are answered, the super peer acknowledges the announcement,
no thread fails, and whoever else sends chunks under the same id sends those of the same
content. Its workers may send the chunks in any order, the peer may serve others at any time,
and it may already have received a part of the document. The upload then never fails: where
it returns, it returns the digests of the pieces, and the peer has published the content.
-/

import SuperPeerNet.Client.Completion
import SuperPeerNet.Client.Uploaded
import SuperPeerNet.Peer.Gathering

namespace SuperPeerNet

open Pieces

section Publishing

variable [Inet] [Sha256] [Process] [Lz4]

/-! ### Calls that are answered -/

omit [Inet] [Sha256] [Process] [Lz4] in
/-- A call returns the response that matches its request. -/
theorem rpcCallWithTransaction_eq_ok {serve : Message → Option Message}
    {request response : Message} (small : request.payload.length ≤ maxPayloadSize)
    (sent : serve request = some response)
    (transaction : response.transactionId = request.transactionId)
    (destination : response.destinationNode = request.sourceNode)
    (source : response.sourceNode = request.destinationNode) :
    rpcCallWithTransaction serve request = .ok response := by
  unfold rpcCallWithTransaction
  rw [if_neg (Nat.not_lt.mpr small), sent]
  exact if_neg (by simp only [transaction, destination, source, ne_eq, not_true, or_self,
    not_false_eq_true])

omit [Inet] [Process] in
/-- `handle_store` does not change who the peer is. -/
theorem id_storeStatus (service : PeerService) (surroundings : PeerSurroundings)
    (payload : List UInt8) : (storeStatus service surroundings payload).1.id = service.id := by
  rw [session_storeStatus]
  rfl

/-- A `STORE` that the peer accepts is acknowledged, if the call is answered. -/
theorem PeerService.call_store {service : PeerService} {surroundings : PeerSurroundings}
    {client : NodeID} (named : client ≠ zeroNodeId) {payload : List UInt8}
    (small : payload.length ≤ maxPayloadSize)
    (accepted : (storeStatus service surroundings payload).2 = .ok ())
    (transaction : TransactionId) :
    ∃ reply, (service.call rpcCallWithTransaction (.answered surroundings)
        (storeRequest client service.id transaction payload)).1 =
          (storeStatus service surroundings payload).1 ∧
      requestExpect (service.call rpcCallWithTransaction (.answered surroundings)
        (storeRequest client service.id transaction payload)).2 .ack = .ok reply := by
  generalize isRequest : storeRequest client service.id transaction payload = request
  have carries : request.payload = payload := isRequest ▸ rfl
  have served : serveConnection service surroundings request =
      handleStore service surroundings request := by
    subst isRequest
    unfold serveConnection
    rw [if_neg fun refused => refused.2.elim named fun other => other rfl]
    rfl
  have sent : (handleStore service surroundings request).2 =
      some (sendReply (storeStatus service surroundings payload).1.id request
        (.ok (.ack, []))) := by
    unfold handleStore sendResponse answer
    rw [carries]
    dsimp only
    rw [accepted]
    exact if_neg (Nat.not_lt_zero maxPayloadSize)
  have answered : rpcCallWithTransaction
      (fun request => (serveConnection service surroundings request).2) request =
        .ok (sendReply (storeStatus service surroundings payload).1.id request (.ok (.ack, []))) :=
    rpcCallWithTransaction_eq_ok (carries ▸ small) (by rw [served]; exact sent) rfl rfl
      ((id_storeStatus service surroundings payload).trans (isRequest ▸ rfl))
  refine ⟨sendReply (storeStatus service surroundings payload).1.id request (.ok (.ack, [])), ?_⟩
  unfold PeerService.call
  rw [carries, if_neg (Nat.not_lt.mpr small)]
  dsimp only
  rw [answered, served]
  refine ⟨?_, rfl⟩
  unfold handleStore
  rw [carries]

/-! ### The payloads of an upload -/

omit [Inet] [Process] in
/-- The branch of `handle_store` for a begin. -/
theorem storeStatus_begin (service : PeerService) (surroundings : PeerSurroundings)
    {document : TransferDocument} (recordable : document.Recordable) :
    storeStatus service surroundings (documentHeader document transferStoreBegin) =
      ((service.withSession
        ((storageBegin service.session.1 surroundings.now document).run service.session.2).1),
      ((storageBegin service.session.1 surroundings.now document).run service.session.2).2) := by
  have operation : (documentHeader document transferStoreBegin).getD 0 0 = transferStoreBegin := rfl
  have some : documentHeader document transferStoreBegin ≠ [] := List.cons_ne_nil _ _
  unfold storeStatus
  rw [if_neg some, operation]
  dsimp only
  rw [if_pos rfl, transferDecodeDocument_documentHeader recordable]

omit [Inet] [Sha256] [Process] [Lz4] in
/-- What `handle_store` decodes from the payload of a chunk. -/
theorem decodeStoreChunk_chunkBytes {chunk : CarriedChunk}
    (sendable : chunk.toTransferChunk.Sendable) :
    decodeStoreChunk (chunkBytes chunk.toTransferChunk transferStoreChunk) = .ok chunk := by
  have decodes := sendable.decodes transferStoreChunk
  unfold decodeStoreChunk
  split
  · rename_i code decoded
    rw [decodes] at decoded
    cases decoded
  · rename_i other decoded
    have same := decodes.symm.trans decoded
    cases same
    rfl

omit [Inet] [Process] in
/-- The branch of `handle_store` for a chunk. -/
theorem storeStatus_chunk (service : PeerService) (surroundings : PeerSurroundings)
    {chunk : CarriedChunk} (sendable : chunk.toTransferChunk.Sendable) :
    storeStatus service surroundings (chunkBytes chunk.toTransferChunk transferStoreChunk) =
      ((service.withSession ((storagePutChunk service.session.1 chunk).run service.session.2).1),
      ((storagePutChunk service.session.1 chunk).run service.session.2).2) := by
  have operation : (chunkBytes chunk.toTransferChunk transferStoreChunk).getD 0 0 =
      transferStoreChunk := rfl
  have some : chunkBytes chunk.toTransferChunk transferStoreChunk ≠ [] := List.cons_ne_nil _ _
  unfold storeStatus
  rw [if_neg some, operation]
  dsimp only
  rw [if_neg (by decide), if_pos rfl, decodeStoreChunk_chunkBytes sendable]

omit [Inet] [Sha256] [Process] [Lz4] in
theorem storeCall_begin (surroundings : PeerSurroundings) {document : TransferDocument}
    (recordable : document.Recordable) :
    storeCall surroundings (documentHeader document transferStoreBegin) =
      some (.begin surroundings.now document) := by
  have operation : (documentHeader document transferStoreBegin).getD 0 0 = transferStoreBegin := rfl
  have some : documentHeader document transferStoreBegin ≠ [] := List.cons_ne_nil _ _
  unfold storeCall
  rw [if_neg some, operation]
  dsimp only
  rw [if_pos rfl, transferDecodeDocument_documentHeader recordable]
  rfl

omit [Inet] [Sha256] [Process] [Lz4] in
theorem storeCall_chunk (surroundings : PeerSurroundings) {chunk : CarriedChunk}
    (sendable : chunk.toTransferChunk.Sendable) :
    storeCall surroundings (chunkBytes chunk.toTransferChunk transferStoreChunk) =
      some (.put chunk) := by
  have operation : (chunkBytes chunk.toTransferChunk transferStoreChunk).getD 0 0 =
      transferStoreChunk := rfl
  have some : chunkBytes chunk.toTransferChunk transferStoreChunk ≠ [] := List.cons_ne_nil _ _
  unfold storeCall
  rw [if_neg some, operation]
  dsimp only
  rw [if_neg (by decide), if_pos rfl, decodeStoreChunk_chunkBytes sendable]
  rfl

omit [Inet] [Sha256] [Process] [Lz4] in
theorem storeCall_commit (surroundings : PeerSurroundings) (id : ObjectID) :
    storeCall surroundings (transferEncodeObjectOperation transferStoreCommit id) =
      some (.commit id) := by
  have operation : (transferEncodeObjectOperation transferStoreCommit id).getD 0 0 =
      transferStoreCommit := rfl
  have some : transferEncodeObjectOperation transferStoreCommit id ≠ [] := List.cons_ne_nil _ _
  unfold storeCall
  rw [if_neg some, operation]
  dsimp only
  rw [if_neg (by decide), if_neg (by decide), if_pos rfl, transferDecodeObjectOperation_bytes]
  rfl

/-! ### The chunks of an offer -/

variable [BoundedLz4] {offer : Offer}

omit [Inet] [Process] [BoundedLz4] in
/-- What `upload_worker` sends for an index is a chunk of the offer. -/
theorem Offer.sends {index : UInt64} (inside : index < offer.document.chunkCount) :
    ∃ chunk : CarriedChunk, chunk.toTransferChunk = uploadedChunk offer.document index
        (piece offer.content chunkSize index.toNat) (offer.block index) ∧
      chunk.Belongs offer ∧ (offer.block index).length ≤ 0xffffffff := by
  have begins := Offer.inside.mp inside
  have decompresses := offer.decompresses index begins
  obtain ⟨bound, bounded, within⟩ := offer.bounded index begins
  have small : (offer.block index).length ≤ intMax := by
    by_contra large
    unfold compressionLz4Decompress at decompresses
    rw [if_pos (Or.inr (Or.inl (Nat.lt_of_not_le large)))] at decompresses
    cases decompresses
  unfold intMax at small
  have size : (UInt32.ofNat (offer.block index).length).toNat = (offer.block index).length :=
    UInt32.toNat_ofNat_of_lt' (by simp only [UInt32.size]; omega)
  have rawSize : (expectedSize offer.document.fileSize index).toNat =
      (piece offer.content chunkSize index.toNat).length := by
    rw [length_piece, ← offer.describes.fileSize]
    exact expectedSize_toNat (by rwa [offer.describes.fileSize])
  refine ⟨⟨uploadedChunk offer.document index (piece offer.content chunkSize index.toNat)
    (offer.block index), size.symm⟩, rfl, ⟨?_, rfl⟩, by omega⟩
  refine ⟨offer.describes.id, begins, rfl, rawSize, rfl, ⟨bound, ?_, ?_⟩, ?_⟩
  · show compressionLz4Bound (expectedSize offer.document.fileSize index).toNat = _
    rw [rawSize, bounded]
  · exact size.le.trans within
  · show compressionLz4Decompress _ (expectedSize offer.document.fileSize index).toNat = _
    rw [rawSize]
    exact decompresses

/-- What a worker meets that sends a chunk of the offer: it reads the piece, it makes the block of
the offer, and its call is answered. -/
structure SendConditions.Fine (offer : Offer) (index : UInt64) (conditions : SendConditions) :
    Prop where
  read : conditions.read = .ok (piece offer.content chunkSize index.toNat)
  compressed : conditions.compressed = .ok (offer.block index)
  answered : ∃ surroundings, conditions.fate = .answered surroundings

/-- What the workers need: the peer gathers the offer, and knows its document. -/
structure PeerService.Ready (service : PeerService) (offer : Offer) (id : NodeID) : Prop where
  takes : service.Takes offer
  isId : service.id = id
  known : (service.session.1.find offer.document.id).isSome

/-- The world of the workers. -/
structure UploadReady (offer : Offer) (id : NodeID)
    (world : List (Octets objectIdSize) × PeerService) : Prop where
  service : world.2.Ready offer id
  sized : world.1.length = offer.document.chunkCount.toNat

/-- What the workers achieve for an index: the peer has the chunk, and its digest is noted. -/
structure UploadAchieved (offer : Offer) (index : UInt64)
    (world : List (Octets objectIdSize) × PeerService) : Prop where
  has : world.2.session.Has offer.document.id index
  hash : world.1[index.toNat]? =
    some (contentSha256 (piece offer.content chunkSize index.toNat))

omit [Inet] [Process] [BoundedLz4] in
/-- A peer that has served a message of the offer goes on to gather it, and loses nothing. -/
theorem PeerService.Takes.stored {service : PeerService} (takes : service.Takes offer)
    (surroundings : PeerSurroundings) {payload : List UInt8} {request : StorageCall}
    (asked : storeCall surroundings payload = some request) (offered : request.Offered offer) :
    (storeStatus service surroundings payload).1.Takes offer ∧
      Keeps (service.session.1.find offer.document.id)
        ((storeStatus service surroundings payload).1.session.1.find offer.document.id) := by
  have served := served_storeStatus service surroundings payload
  have session : (storeStatus service surroundings payload).1.session =
      ((request.plan service.session).run service.session.2).1 := by
    rw [session_storeStatus, asked]
    rfl
  refine ⟨⟨takes.sound.served served, ?_⟩, takes.sound.keeps_served served offer.document.id⟩
  rw [session]
  exact takes.gathers.call (admits_storeCall asked) offered

omit [Sha256] [Lz4] [BoundedLz4] [Inet] [Process] in
/-- A document that is known stays known where nothing is lost. -/
theorem known_of_keeps {before after : Option StoredDocument} (known : before.isSome)
    (keeps : Keeps before after) : after.isSome := by
  obtain ⟨stored, found⟩ := Option.isSome_iff_exists.mp known
  obtain ⟨later, foundLater, -⟩ := keeps stored found
  rw [foundLater]
  rfl

omit [Inet] [Process] [Lz4] [BoundedLz4] in
/-- A chunk that is read, compressed, sent and acknowledged is noted. -/
theorem uploadChunk_eq_ok {document : TransferDocument} {index : UInt64}
    {conditions : UploadConditions} {raw compressed payload : List UInt8} {reply : Message}
    (read : conditions.read = .ok raw) (isCompressed : conditions.compressed = .ok compressed)
    (small : compressed.length ≤ 0xffffffff)
    (encodes : transferEncodeChunk (uploadedChunk document index raw compressed)
      transferStoreChunk = .ok payload)
    (acknowledged : requestExpect conditions.response .ack = .ok reply)
    (hashes : List (Octets objectIdSize)) : uploadChunk document index conditions hashes =
      (hashes.set index.toNat (contentSha256 raw), .ok compressed.length) := by
  unfold uploadChunk
  rw [read, isCompressed]
  dsimp only
  rw [if_neg (Nat.not_lt.mpr small), encodes]
  dsimp only
  rw [acknowledged]
  dsimp only [uploadedChunk]

/-- Sending a chunk of the offer achieves what it is for. -/
theorem sendTask_achieves {client id : NodeID} (named : client ≠ zeroNodeId) :
    (sendTask client id offer.document).Achieves (SendConditions.Fine offer)
      (UploadReady offer id) (UploadAchieved offer) := by
  intro index conditions world inside fine ready
  obtain ⟨chunk, isChunk, belongs, small⟩ := Offer.sends inside
  obtain ⟨surroundings, isAnswered⟩ := fine.answered
  have sendable := belongs.correct.sendable
  have isIndex : chunk.index = index := congrArg TransferChunk.index isChunk
  have encodes := sendable.encodes transferStoreChunk
  generalize isPayload : chunkBytes chunk.toTransferChunk transferStoreChunk = payload at encodes
  have fits : payload.length ≤ maxPayloadSize := by
    rw [← isPayload, length_chunkBytes sendable.carried]
    exact sendable.fits
  have accepted := ready.service.takes.gathers.accepted ready.service.takes.sound.settled belongs
    ready.service.known
  have status := storeStatus_chunk world.2 surroundings sendable
  have asked := storeCall_chunk surroundings sendable
  rw [isPayload] at status asked
  have offered : (StorageCall.put chunk).Offered offer := fun _ _ => belongs
  obtain ⟨takes, keeps⟩ := ready.service.takes.stored surroundings asked offered
  have stays : (storeStatus world.2 surroundings payload).1.Ready offer id :=
    ⟨takes, (id_storeStatus world.2 surroundings payload).trans ready.service.isId,
      known_of_keeps ready.service.known keeps⟩
  obtain ⟨reply, after, acknowledged⟩ := PeerService.call_store named fits
    ((congrArg Prod.snd status).trans accepted.1) conditions.transaction
  have carries : chunkPayload offer.document index conditions = some payload := by
    unfold chunkPayload
    rw [fine.read, fine.compressed]
    dsimp only
    rw [if_neg (Nat.not_lt.mpr small), ← isChunk, encodes]
    rfl
  have sent : sendChunk client id offer.document index conditions world.2 =
      world.2.call rpcCallWithTransaction (.answered surroundings)
        (storeRequest client world.2.id conditions.transaction payload) := by
    unfold sendChunk
    rw [carries, isAnswered, ready.service.isId]
  have noted : uploadChunk offer.document index ⟨conditions.read, conditions.compressed,
      (sendChunk client id offer.document index conditions world.2).2⟩ world.1 =
        (world.1.set index.toNat (contentSha256 (piece offer.content chunkSize index.toNat)),
          .ok (offer.block index).length) := by
    rw [sent]
    exact uploadChunk_eq_ok fine.read fine.compressed small (isChunk ▸ encodes) acknowledged world.1
  have noting : index.toNat < world.1.length := by
    rw [ready.sized]
    exact UInt64.lt_iff_toNat_lt.mp inside
  have has : (storeStatus world.2 surroundings payload).1.session.Has offer.document.id index := by
    rw [status, ← isIndex]
    exact accepted.2
  refine ⟨(world.1.set index.toNat (contentSha256 (piece offer.content chunkSize index.toNat)),
    (storeStatus world.2 surroundings payload).1), (offer.block index).length, ?_,
    ⟨stays, List.length_set.trans ready.sized⟩, ⟨has, List.getElem?_set_self noting⟩,
    fun other _ achieved => ⟨achieved.has.mono keeps, ?_⟩⟩
  · unfold sendTask
    dsimp only
    rw [noted, sent, after]
  · -- The digest of another chunk is in another place.
    by_cases same : index = other
    · rw [← same]
      exact List.getElem?_set_self noting
    · rw [List.getElem?_set_ne fun equal => same (UInt64.toNat_inj.mp equal)]
      exact achieved.hash

/-! ### The calls around the workers -/

omit [BoundedLz4] in
/-- The peer answers a `PING` with its identity. -/
theorem PeerService.call_discover {service : PeerService} (peer : service.id ≠ zeroNodeId)
    (client : NodeID) (transaction : TransactionId) (surroundings : PeerSurroundings) :
    (service.call rpcCallAnyone (.answered surroundings) (discoverRequest client transaction)).1 =
        service ∧
      discoverPeer (service.call rpcCallAnyone (.answered surroundings)
        (discoverRequest client transaction)).2 = .ok service.id := by
  have small : ¬(discoverRequest client transaction).payload.length > maxPayloadSize :=
    Nat.not_lt.mpr (show pingPayload.length ≤ maxPayloadSize by decide)
  have short : ¬pongPayload.length > maxPayloadSize := by decide
  generalize isReply : sendReply service.id (discoverRequest client transaction)
    (.ok (.pong, pongPayload)) = reply
  have sent : sendResponse service (discoverRequest client transaction)
      (.ok (.pong, pongPayload)) = some reply := by
    unfold sendResponse answer
    dsimp only
    rw [← isReply]
    exact if_neg short
  have served : serveConnection service surroundings (discoverRequest client transaction) =
      (service, some reply) := by
    unfold serveConnection
    rw [if_neg]
    · show (service, sendResponse service (discoverRequest client transaction)
        (if pingPayload = pingPayload then .ok (.pong, pongPayload) else .error .enotsup)) = _
      rw [if_pos rfl, sent]
    · rintro ⟨store | download, -⟩
      · exact absurd (show MessageType.ping = .store from store) (by decide)
      · exact absurd (show MessageType.ping = .downloadReq from download) (by decide)
  have answered : rpcCallAnyone (fun request => (serveConnection service surroundings request).2)
      (discoverRequest client transaction) = .ok reply := by
    unfold rpcCallAnyone
    rw [if_neg small]
    dsimp only
    rw [served, ← isReply]
    exact if_neg (not_or.mpr ⟨not_not.mpr rfl, not_not.mpr rfl⟩)
  unfold PeerService.call
  rw [if_neg small]
  dsimp only
  rw [answered, served]
  refine ⟨rfl, ?_⟩
  rw [← isReply]
  exact if_neg peer

omit [BoundedLz4] in
/-- The begin of an offer is acknowledged, and afterwards the peer is ready for the chunks. -/
theorem beginCall_accepted {setting : UploadSetting}
    (isDocument : setting.document = offer.document) (named : setting.client ≠ zeroNodeId)
    {service : PeerService} (takes : service.Takes offer) (transaction : TransactionId)
    (surroundings : PeerSurroundings) :
    ∃ reply, (beginCall setting service service.id transaction (.answered surroundings)).2 =
        .ok reply ∧
      (beginCall setting service service.id transaction (.answered surroundings)).1.Ready offer
        service.id := by
  have decoded := offer.recordable.toDecoded
  have encodes : transferEncodeDocument setting.document transferStoreBegin =
      .ok (documentHeader offer.document transferStoreBegin) := by
    rw [isDocument]
    exact transferEncodeDocument_eq_ok.mpr ⟨decoded, rfl⟩
  have fits : (documentHeader offer.document transferStoreBegin).length ≤ maxPayloadSize := by
    have short := decoded.short
    rw [length_documentHeader]
    unfold metadataNameSize at short
    unfold maxPayloadSize
    omega
  have status := storeStatus_begin service surroundings offer.recordable
  have begun := takes.gathers.begun surroundings.now
  have asked := storeCall_begin surroundings offer.recordable
  have offered : (StorageCall.begin surroundings.now offer.document).Offered offer := fun _ => rfl
  obtain ⟨stays, -⟩ := takes.stored surroundings asked offered
  obtain ⟨planned, completed⟩ := Call.answer_of_run begun
  have accepted : ((StorageCall.begin surroundings.now offer.document).plan
      service.session).answer = .ok () := planned
  have honoured := StorageCall.honoured_of_answer accepted
  obtain ⟨reply, after, acknowledged⟩ := PeerService.call_store named fits
    ((congrArg Prod.snd status).trans begun) transaction
  unfold beginCall
  rw [encodes]
  dsimp only
  refine ⟨reply, acknowledged, ?_⟩
  rw [after]
  refine ⟨stays, id_storeStatus service surroundings _, ?_⟩
  rw [status]
  show (((storageBegin service.session.1 surroundings.now offer.document).run
    service.session.2).1.1.find offer.document.id).isSome
  rw [completed]
  exact honoured

/-- The super peer acknowledges every announcement. -/
def PeerSurroundings.Acknowledges (surroundings : PeerSurroundings) : Prop :=
  ∀ request, ∃ response, surroundings.superpeer request = some response ∧
    response.messageType = .ack ∧ response.transactionId = request.transactionId ∧
    response.destinationNode = request.sourceNode ∧
    response.sourceNode = request.destinationNode

omit [Inet] [Process] [BoundedLz4] in
/-- A published document of the right size is announced. -/
theorem announceDocument_ok {service : PeerService} (sound : service.Sound)
    {surroundings : PeerSurroundings} (acknowledges : surroundings.Acknowledges)
    {stored : StoredDocument} (found : service.session.1.find stored.id = some stored)
    (finished : stored.state = .finished)
    (fits : 52 + metadataNameSize + stored.document.chunkCount.toNat * descriptorSize ≤
      maxPayloadSize) :
    announceDocument service surroundings stored.document = .ok () := by
  obtain ⟨contents, shelved⟩ := sound.settled.shelved found finished
  have decoded := shelved.sound.recordable.toDecoded
  have short := decoded.short
  have announceable : stored.document.Announceable := ⟨decoded, by omega⟩
  have lists : storageDescriptors service.session.1 stored.document.id =
      .ok (stored.chunks.mapIdx fun index record => ⟨UInt64.ofNat index, record.offset,
        record.rawSize, record.compressedSize, record.hash⟩) := by
    have found : service.session.1.find stored.document.id = some stored := found
    unfold storageDescriptors
    rw [found]
    exact if_neg (not_not.mpr finished)
  generalize isChunks : (stored.chunks.mapIdx fun index record => (⟨UInt64.ofNat index,
    record.offset, record.rawSize, record.compressedSize, record.hash⟩ : MetadataChunk)) = chunks
    at lists
  have complete : chunks.length = stored.document.chunkCount.toNat := by
    rw [← isChunks, List.length_mapIdx, stored.sized]
  have encodes := (transferEncodeAnnouncement_eq_ok complete).mpr ⟨announceable, rfl⟩
  have small : (announcementBytes stored.document chunks).length ≤ maxPayloadSize := by
    rw [announcementBytes, List.length_append, length_documentHeader,
      length_flatMap_encodeDescriptor, complete]
    exact announceable.fits
  unfold announceDocument
  rw [lists]
  dsimp only
  rw [encodes]
  dsimp only
  obtain ⟨response, sent, isAck, transaction, destination, source⟩ := acknowledges
    ⟨.store, service.id, service.superpeerId, surroundings.transaction,
      announcementBytes stored.document chunks⟩
  rw [rpcCallWithTransaction_eq_ok small sent transaction destination source]
  exact if_pos isAck

omit [BoundedLz4] in
/-- When every chunk of the offer is there, its commit is acknowledged, and the peer has published
the content. -/
theorem commitCall_accepted {setting : UploadSetting}
    (isDocument : setting.document = offer.document) (named : setting.client ≠ zeroNodeId)
    (fits : 52 + metadataNameSize + offer.document.chunkCount.toNat * descriptorSize ≤
      maxPayloadSize) {service : PeerService} (takes : service.Takes offer)
    (all : ∀ index, index < offer.document.chunkCount →
      service.session.Has offer.document.id index) (transaction : TransactionId)
    {surroundings : PeerSurroundings} (acknowledges : surroundings.Acknowledges) :
    ∃ reply, (commitCall setting service service.id transaction (.answered surroundings)).2 =
        .ok reply ∧
      (commitCall setting service service.id transaction (.answered surroundings)).1.Takes offer ∧
      (commitCall setting service service.id transaction (.answered surroundings)).1.session.Keeps
        offer.content := by
  obtain ⟨stored, answered, chunkCount, found, keeps⟩ := takes.gathers.finished all
  have asked := storeCall_commit surroundings offer.document.id
  obtain ⟨stays, -⟩ := takes.stored surroundings asked trivial
  have status := storeStatus_commit service surroundings offer.document.id
  rw [answered] at status
  have small : (transferEncodeObjectOperation transferStoreCommit
      offer.document.id).length ≤ maxPayloadSize := by
    rw [transferEncodeObjectOperation, List.length_cons, Octets.length_toList]
    decide
  generalize ((storageCommit service.session.1 service.session.2 offer.document.id).run
    service.session.2).1 = session at status found keeps
  have sound : (service.withSession session).Sound := by
    have sound := stays.sound
    rwa [status] at sound
  have finished : (service.withSession session).session.1.find (stored.withState .finished).id =
      some (stored.withState .finished) := by
    rw [Storage.find_id found]
    exact found
  have announced : announceDocument (service.withSession session) surroundings
      (stored.withState .finished).document = .ok () :=
    announceDocument_ok sound acknowledges finished rfl (by rwa [← chunkCount] at fits)
  obtain ⟨reply, after, acknowledged⟩ := PeerService.call_store named small
    ((congrArg Prod.snd status).trans announced) transaction
  unfold commitCall
  rw [isDocument]
  dsimp only
  refine ⟨reply, acknowledged, ?_, ?_⟩
  · rw [after]
    exact stays
  · rw [after, status]
    exact keeps

/-! ### Runs -/

/-- What an upload relies on: the document is the one of the offer, its announcement fits a message,
and the number of workers is one that `execute_workers` takes. -/
structure UploadSetting.Relies (setting : UploadSetting) (offer : Offer) : Prop where
  isDocument : setting.document = offer.document
  named : setting.client ≠ zeroNodeId
  staffed : setting.workers ≠ 0
  few : setting.workers ≤ maxConfiguredWorkers
  fits : 52 + metadataNameSize + offer.document.chunkCount.toNat * descriptorSize ≤ maxPayloadSize

/-- The actions of an upload that nothing hinders. -/
def UploadAction.Smooth (offer : Offer) (upload : Upload) : UploadAction → Prop
  | .peer action => action.Offers offer
  | .discover _ fate | .begin _ fate => ∃ surroundings, fate = .answered surroundings
  | .pool action => ∀ destination pool, upload = .transferring destination pool →
    ChunkTask.Smooth (SendConditions.Fine offer) pool action
  | .settle => True
  | .commit _ fate => ∃ surroundings, fate = .answered surroundings ∧ surroundings.Acknowledges

/-- The digests of the pieces of an offer. -/
def Offer.digests (offer : Offer) : List (Octets objectIdSize) :=
  (List.range offer.document.chunkCount.toNat).map fun index =>
    contentSha256 (piece offer.content chunkSize index)

/-- The invariant of an upload that nothing hinders. -/
def Upload.Delivering (setting : UploadSetting) (offer : Offer) (id : NodeID) : Upload → Prop
  | .created service => service.Takes offer ∧ service.id = id
  | .discovered service destination =>
    service.Takes offer ∧ service.id = id ∧ destination = id
  | .transferring destination pool => destination = id ∧
    pool.Thriving (sendTask setting.client id offer.document) (UploadReady offer id)
      (UploadAchieved offer)
  | .verifying service destination hashes =>
    service.Takes offer ∧ service.id = id ∧ destination = id ∧ hashes = offer.digests ∧
      ∀ index, index < offer.document.chunkCount → service.session.Has offer.document.id index
  | .returned service outcome => service.Takes offer ∧ outcome = .ok offer.digests ∧
    service.session.Keeps offer.content

omit [Inet] [Process] [BoundedLz4] in
/-- The digests that the workers have noted. -/
theorem digests_of_achieved {world : List (Octets objectIdSize) × PeerService}
    (sized : world.1.length = offer.document.chunkCount.toNat)
    (achieved : ∀ index, index < offer.document.chunkCount → UploadAchieved offer index world) :
    world.1 = offer.digests := by
  refine List.ext_getElem? fun position => ?_
  unfold Offer.digests
  by_cases inside : position < offer.document.chunkCount.toNat
  · have bound := offer.document.chunkCount.toNat_lt
    have same : (UInt64.ofNat position).toNat = position :=
      UInt64.toNat_ofNat_of_lt' (Nat.lt_trans inside bound)
    have noted := (achieved (UInt64.ofNat position)
      (UInt64.lt_iff_toNat_lt.mpr (same.symm ▸ inside))).hash
    rw [same] at noted
    rw [noted, List.getElem?_map, List.getElem?_range inside]
    rfl
  · rw [List.getElem?_eq_none (by omega), List.getElem?_eq_none (by
      rw [List.length_map, List.length_range]
      omega)]

omit [BoundedLz4] in
/-- What the peer does besides keeps the invariant. -/
theorem Upload.Delivering.peer {setting : UploadSetting} {id : NodeID} {upload : Upload}
    (delivering : upload.Delivering setting offer id) {action : PeerAction}
    (offers : action.Offers offer) {service : PeerService}
    (taken : peerStep upload.service action = some service) :
    (upload.withService service).Delivering setting offer id := by
  have isId := PeerService.id_of_step taken
  have admissible : action.Admissible upload.service := by
    cases action with
    | crash => cases offers
    | _ => trivial
  cases upload with
  | created old =>
    obtain ⟨takes, same⟩ := delivering
    exact ⟨takes.step offers taken, isId.trans same⟩
  | discovered old destination =>
    obtain ⟨takes, same, isDestination⟩ := delivering
    exact ⟨takes.step offers taken, isId.trans same, isDestination⟩
  | transferring destination pool =>
    obtain ⟨isDestination, thriving⟩ := delivering
    have ready := thriving.kept
    have keeps := ready.service.takes.keeps offers taken offer.document.id
    refine ⟨isDestination, thriving.disturb ⟨⟨ready.service.takes.step offers taken,
      isId.trans ready.service.isId, known_of_keeps ready.service.known keeps⟩, ready.sized⟩
        fun index _ achieved => ⟨achieved.has.mono keeps, achieved.hash⟩⟩
  | verifying old destination hashes =>
    obtain ⟨takes, same, isDestination, isHashes, all⟩ := delivering
    have keeps := takes.keeps offers taken offer.document.id
    exact ⟨takes.step offers taken, isId.trans same, isDestination, isHashes,
      fun index inside => (all index inside).mono keeps⟩
  | returned old outcome =>
    obtain ⟨takes, succeeded, kept⟩ := delivering
    have reached : Transition.Reaches peerStep PeerAction.Admissible old service :=
      Transition.Reaches.refl.tail action admissible taken
    exact ⟨takes.step offers taken, succeeded,
      kept.reaches takes.sound.settled (session_of_reaches reached)⟩

/-- A step keeps the invariant. -/
theorem Upload.Delivering.step {setting : UploadSetting} (relies : setting.Relies offer)
    {id : NodeID} (peer : id ≠ zeroNodeId) {upload next : Upload}
    (delivering : upload.Delivering setting offer id) {action : UploadAction}
    (smooth : action.Smooth offer upload) (stepped : uploadStep setting upload action = some next) :
    next.Delivering setting offer id := by
  unfold uploadStep at stepped
  cases action with
  | peer action =>
    obtain ⟨service, taken, rfl⟩ := Option.map_eq_some_iff.mp stepped
    exact delivering.peer smooth taken
  | discover transaction fate =>
    obtain ⟨surroundings, rfl⟩ := smooth
    dsimp only at stepped
    split at stepped
    · rename_i service
      obtain ⟨takes, rfl⟩ := delivering
      obtain ⟨same, discovered⟩ := service.call_discover peer setting.client transaction
        surroundings
      rw [same, discovered] at stepped
      cases stepped
      exact ⟨takes, rfl, rfl⟩
    · cases stepped
  | begin transaction fate =>
    obtain ⟨surroundings, rfl⟩ := smooth
    dsimp only at stepped
    split at stepped
    · rename_i service destination
      obtain ⟨takes, rfl, rfl⟩ := delivering
      obtain ⟨reply, accepted, ready⟩ := beginCall_accepted relies.isDocument relies.named takes
        transaction surroundings
      rw [accepted] at stepped
      cases stepped
      refine ⟨rfl, thriving_start relies.staffed relies.few ⟨ready, ?_⟩⟩
      rw [List.length_replicate, relies.isDocument]
    · cases stepped
  | pool action =>
    dsimp only at stepped
    split at stepped
    · rename_i destination pool
      obtain ⟨later, taken, rfl⟩ := Option.map_eq_some_iff.mp stepped
      obtain ⟨rfl, thriving⟩ := delivering
      rw [relies.isDocument] at taken
      exact ⟨rfl, thriving.step (sendTask_achieves relies.named) (smooth _ pool rfl) taken⟩
    · cases stepped
  | settle =>
    dsimp only at stepped
    split at stepped
    · rename_i destination pool
      obtain ⟨rfl, thriving⟩ := delivering
      split at stepped
      · rename_i isReturned
        cases stepped
        obtain ⟨-, ready, achieved⟩ := thriving.returned isReturned
        exact ⟨ready.service.takes, ready.service.isId, rfl,
          digests_of_achieved ready.sized achieved, fun index inside => (achieved index inside).has⟩
      · -- Nothing has failed, so the pool does not return an error.
        rename_i error isReturned
        obtain ⟨wrong, -⟩ := thriving.returned isReturned
        cases wrong
      · cases stepped
    · cases stepped
  | commit transaction fate =>
    obtain ⟨surroundings, rfl, acknowledges⟩ := smooth
    dsimp only at stepped
    split at stepped
    · rename_i service destination hashes
      obtain ⟨takes, rfl, rfl, rfl, all⟩ := delivering
      obtain ⟨reply, accepted, after, keeps⟩ := commitCall_accepted relies.isDocument relies.named
        relies.fits takes all transaction acknowledges
      rw [accepted] at stepped
      cases stepped
      exact ⟨after, rfl, keeps⟩
    · cases stepped

/-! ### How long it takes -/

/-- The actions of the client. -/
def UploadAction.isClient : UploadAction → Bool
  | .peer _ => false
  | _ => true

/-- The actions that the client has before it. -/
def Upload.effort (setting : UploadSetting) : Upload → Nat
  | .created _ => 3 * (setting.document.chunkCount.toNat + setting.workers) + 5
  | .discovered .. => 3 * (setting.document.chunkCount.toNat + setting.workers) + 4
  | .transferring destination pool =>
    (sendTask setting.client destination setting.document).effort pool + 2
  | .verifying .. => 1
  | .returned .. => 0

omit [BoundedLz4] in
/-- An action of the client takes from what it has before it, and nothing adds to that. -/
theorem Upload.effort_step {setting : UploadSetting} {upload next : Upload} {action : UploadAction}
    (stepped : uploadStep setting upload action = some next) :
    next.effort setting + action.isClient.toNat ≤ upload.effort setting := by
  unfold uploadStep at stepped
  cases action with
  | peer action =>
    obtain ⟨service, -, rfl⟩ := Option.map_eq_some_iff.mp stepped
    cases upload <;> exact Nat.le_refl _
  | discover transaction fate =>
    dsimp only at stepped
    split at stepped
    · split at stepped <;> cases stepped <;> simp only [effort, UploadAction.isClient,
        Bool.toNat_true] <;> omega
    · cases stepped
  | begin transaction fate =>
    dsimp only at stepped
    split at stepped
    · rename_i service destination
      split at stepped
      · cases stepped
        simp only [effort, UploadAction.isClient, Bool.toNat_true]
        omega
      · cases stepped
        have start := (sendTask setting.client destination setting.document).effort_start
          setting.workers (List.replicate setting.document.chunkCount.toNat
            (Octets.fill objectIdSize 0),
              (beginCall setting service destination transaction fate).1)
        simp only [effort, UploadAction.isClient, Bool.toNat_true, uploadPool]
        exact Nat.add_le_add_right start 3
    · cases stepped
  | pool action =>
    dsimp only at stepped
    split at stepped
    · rename_i destination pool
      obtain ⟨later, taken, rfl⟩ := Option.map_eq_some_iff.mp stepped
      have smaller := ChunkTask.effort_lt _ pool action later taken
      simp only [effort, UploadAction.isClient, Bool.toNat_true]
      omega
    · cases stepped
  | settle =>
    dsimp only at stepped
    split at stepped
    · split at stepped <;> cases stepped <;> simp only [effort, UploadAction.isClient,
        Bool.toNat_true] <;> omega
    · cases stepped
  | commit transaction fate =>
    dsimp only at stepped
    split at stepped
    · split at stepped <;> cases stepped <;> exact Nat.le_refl _
    · cases stepped

omit [BoundedLz4] in
/-- In any run the client takes no more actions than it has before it. -/
theorem countP_run_le {setting : UploadSetting} {actions : List UploadAction}
    {upload final : Upload}
    (done : Transition.run (uploadStep setting) upload actions = some final) :
    actions.countP UploadAction.isClient + final.effort setting ≤ upload.effort setting := by
  induction actions generalizing upload with
  | nil =>
    cases done
    exact Nat.le_of_eq (Nat.zero_add _)
  | cons action rest inductionHypothesis =>
    obtain ⟨next, stepped, later⟩ := Option.bind_eq_some_iff.mp done
    have here := Upload.effort_step stepped
    have after := inductionHypothesis later
    rw [List.countP_cons]
    cases isClient : action.isClient with
    | true =>
      rw [isClient, Bool.toNat_true] at here
      rw [if_pos rfl]
      omega
    | false =>
      rw [isClient, Bool.toNat_false] at here
      rw [if_neg Bool.false_ne_true]
      omega

/-- The conditions under which nothing hinders a chunk. -/
def SendConditions.fine (offer : Offer) (index : UInt64) : SendConditions :=
  ⟨.ok (piece offer.content chunkSize index.toNat), .ok (offer.block index),
    Octets.fill transactionIdSize 0, .answered letterSurroundings⟩

omit [Inet] [Sha256] [Process] [Lz4] [BoundedLz4] in
theorem acknowledges_letter : letterSurroundings.Acknowledges :=
  fun _ => ⟨_, rfl, rfl, rfl, rfl, rfl⟩

omit [BoundedLz4] in
/-- As long as the upload has not returned, the client can go on with nothing hindering it. -/
theorem Upload.Delivering.proceeds {setting : UploadSetting} {id : NodeID} {upload : Upload}
    (delivering : upload.Delivering setting offer id)
    (waiting : ∀ service outcome, upload ≠ .returned service outcome) :
    ∃ action : UploadAction, action.isClient = true ∧ action.Smooth offer upload ∧
      (uploadStep setting upload action).isSome := by
  let transaction : TransactionId := Octets.fill transactionIdSize 0
  unfold uploadStep
  cases upload with
  | created service =>
    refine ⟨.discover transaction (.answered letterSurroundings), rfl, ⟨_, rfl⟩, ?_⟩
    dsimp only
    split <;> rfl
  | discovered service destination =>
    refine ⟨.begin transaction (.answered letterSurroundings), rfl, ⟨_, rfl⟩, ?_⟩
    dsimp only
    split <;> rfl
  | transferring destination pool =>
    obtain ⟨rfl, thriving⟩ := delivering
    by_cases ended : ∃ status, pool.caller = .returned status
    · obtain ⟨status, isReturned⟩ := ended
      refine ⟨.settle, rfl, trivial, ?_⟩
      dsimp only
      rw [isReturned]
      cases status <;> rfl
    · -- The pool goes on, and a worker may meet conditions that are fine for its chunk.
      have creating : pool.Creating := by
        intro left isCreating
        have attended := thriving.attended
        unfold Pool.Attended at attended
        rw [isCreating] at attended
        exact attended
      have goes : ∀ action : PoolAction SendConditions,
          ChunkTask.Smooth (SendConditions.Fine offer) pool action →
          ((sendTask setting.client destination setting.document).pool pool action).isSome →
          ∃ action : UploadAction, action.isClient = true ∧
            action.Smooth offer (.transferring destination pool) ∧
            (uploadStep setting (.transferring destination pool) action).isSome := by
        intro action smooth enabled
        refine ⟨.pool action, rfl, fun _ other same => ?_, ?_⟩
        · cases same
          exact smooth
        · unfold uploadStep
          dsimp only
          rw [Option.isSome_map]
          exact enabled
      rcases (sendTask setting.client destination setting.document).proceeds creating
        (fun status same => ended ⟨status, same⟩) with
        create | join | leave | ⟨position, worker, there, busy, turns⟩
      · exact goes (.create none) rfl create
      · exact goes (.join none) rfl join
      · exact goes .leave trivial leave
      · obtain ⟨conditions, fine⟩ : ∃ conditions, ∀ index, worker = .transferring index →
            SendConditions.Fine offer index conditions := by
          cases worker with
          | transferring index =>
            refine ⟨.fine offer index, fun other same => ?_⟩
            cases same
            exact ⟨rfl, rfl, _, rfl⟩
          | _ => exact ⟨.fine offer 0, fun other same => by cases same⟩
        refine goes (.turn position conditions) (fun index same => fine index ?_)
          (turns conditions)
        exact Option.some.inj (there.symm.trans same)
  | verifying service destination hashes =>
    refine ⟨.commit transaction (.answered letterSurroundings), rfl, ⟨_, rfl, acknowledges_letter⟩, ?_⟩
    dsimp only
    split <;> rfl
  | returned service outcome => exact absurd rfl (waiting service outcome)

/-! ### Delivery -/

/-- What is asked of an upload that nothing hinders. The client takes at most a number of actions
that is known beforehand, and it is never stuck. When it returns, it returns the digests of the
pieces, and the peer has published exactly the content and serves it from then on, in every
state that it reaches. -/
structure UploadSetting.Delivers (setting : UploadSetting) (offer : Offer) (start : PeerService) :
    Prop where
  bounded : ∀ actions upload,
    Transition.run (uploadStep setting) (.created start) actions = some upload →
    actions.countP UploadAction.isClient ≤
      3 * (offer.document.chunkCount.toNat + setting.workers) + 5
  proceeds : ∀ upload,
    Transition.Reaches (uploadStep setting) (UploadAction.Smooth offer) (.created start) upload →
    (∀ service outcome, upload ≠ .returned service outcome) →
    ∃ action : UploadAction, action.isClient = true ∧ action.Smooth offer upload ∧
      (uploadStep setting upload action).isSome
  returns : ∀ service outcome,
    Transition.Reaches (uploadStep setting) (UploadAction.Smooth offer) (.created start)
      (.returned service outcome) →
    outcome = .ok offer.digests ∧ service.session.Keeps offer.content ∧
      ∀ later, Transition.Reaches peerStep PeerAction.Admissible service later →
        later.Serves offer.content

/-- An upload that nothing hinders succeeds, in whatever order its workers send the chunks and
whatever the peer does besides. Before the upload the peer has started on an empty tree, and
whoever has sent it chunks under the id of the content has sent those of the content. -/
theorem upload_delivers {setting : UploadSetting} (relies : setting.Relies offer)
    {first start : PeerService} (fresh : first.Fresh)
    (before : Transition.Reaches peerStep (fun _ action => action.Offers offer) first start)
    (peer : start.id ≠ zeroNodeId) : setting.Delivers offer start := by
  have takes := takes_of_reaches fresh before
  have delivering : ∀ upload,
      Transition.Reaches (uploadStep setting) (UploadAction.Smooth offer) (.created start) upload →
      upload.Delivering setting offer start.id := by
    intro upload reached
    have initial : (Upload.created start).Delivering setting offer start.id := ⟨takes, rfl⟩
    exact reached.invariant initial fun _ _ _ before smooth stepped =>
      before.step relies peer smooth stepped
  constructor
  · intro actions upload done
    have counted := countP_run_le done
    rw [← relies.isDocument]
    exact (Nat.le_add_right ..).trans counted
  · intro upload reached waiting
    exact (delivering upload reached).proceeds waiting
  · intro service outcome reached
    obtain ⟨after, succeeded, keeps⟩ := delivering _ reached
    refine ⟨succeeded, keeps, fun later onward => ?_⟩
    exact (sound_of_reaches after.sound onward).serves
      (keeps.reaches after.sound.settled (session_of_reaches onward))

end Publishing

/-! ### The letter -/

/-- The letter has one piece. -/
theorem index_letter {index : UInt64} (inside : index.toNat * chunkSize < [(65 : UInt8)].length) :
    index.toNat = 0 := by
  unfold chunkSize at inside
  rw [List.length_singleton] at inside
  omega

/-- The letter, with the block of its chunk. -/
def letterOffer :
    letI := Sha256.reference
    letI := Lz4.reference
    Offer :=
  letI := Sha256.reference
  letI := Lz4.reference
  { content := [65]
    document := letterDocument
    block := fun _ => letterChunk.data
    describes := ⟨rfl, rfl, rfl, rfl, rfl⟩
    recordable := admitted_letterDocument.recordable
    nonempty := List.cons_ne_nil _ _
    bounded := by
      intro index inside
      rw [index_letter inside]
      exact ⟨17, by decide, by decide⟩
    decompresses := by
      intro index inside
      rw [index_letter inside]
      decide +kernel }

/-- Nothing hinders the upload of the letter to an empty peer. -/
theorem upload_delivers_letter :
    letI := Inet.reference
    letI := Sha256.reference
    letI := Process.first
    letI := Lz4.reference
    letterSetting.Delivers letterOffer letterService := by
  let inet := Inet.reference
  let sha256 := Sha256.reference
  let process := Process.first
  let lz4 := Lz4.reference
  have fresh : letterService.Fresh := ⟨⟨_, _, rfl⟩, rfl⟩
  have relies : letterSetting.Relies letterOffer :=
    ⟨rfl, by decide, by decide, by decide, by decide⟩
  exact upload_delivers relies fresh .refl (by decide)

end SuperPeerNet
