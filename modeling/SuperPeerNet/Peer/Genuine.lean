/-
This file proves that a peer sends only genuine chunks, and every chunk that it has
published to whoever asks for it.

A message makes one call of the storage, one read, or neither, so the invariants of the
storage and of its cache hold in every run of a peer, whatever it is sent and whenever
it crashes. What a published document has passed when it was published then says what
is in a reply: the piece of a content of the digest that the client has asked for.
-/

import SuperPeerNet.Peer.Serving
import SuperPeerNet.Storage.Retry

namespace SuperPeerNet

open Pieces

/-! ### What the code relies on -/

/-- LZ4 bounds the size of a block as it documents it, for every size that it supports. -/
class BoundedLz4 [Lz4] : Prop where
  bound : ∀ size, size ≤ 0x7e000000 → Lz4.compressBound size = size + size / 255 + 16

instance : @BoundedLz4 Lz4.reference :=
  letI := Lz4.reference
  ⟨fun _ supported => if_neg (Nat.not_lt.mpr supported)⟩

/-! ### What serving a message does -/

section Served

variable [Inet] [Sha256] [Process] [Lz4]

/-- What serving a message can do to a peer. -/
inductive PeerService.Served (service : PeerService) : PeerService → Prop
  | beat (heartbeat : Heartbeat) : Served service { service with heartbeat := heartbeat }
  | called {request : StorageCall} (admits : request.Admits) :
      Served service
        (service.withSession ((request.plan service.session).run service.session.2).1)
  | read (id : ObjectID) (index : UInt64) :
      Served service { service with
        cache := (storageReadChunk service.session.1 service.cache service.session.2 id index).1 }

omit [Inet] [Process] in
/-- A call leaves the same memory and tree, whatever becomes of its answer. -/
theorem run_commit_plan (session : Session) (id : ObjectID) :
    (((StorageCall.commit id).plan session).run session.2).1 =
      ((storageCommit session.1 session.2 id).run session.2).1 := by
  unfold StorageCall.plan Call.run
  dsimp only
  split <;> rfl

omit [Inet] [Process] in
theorem served_storeStatus (service : PeerService) (surroundings : PeerSurroundings)
    (payload : List UInt8) : service.Served (storeStatus service surroundings payload).1 := by
  have quiet : service.Served service := .beat service.heartbeat
  unfold storeStatus
  split
  · exact quiet
  · dsimp only
    split
    · cases decoded : transferDecodeDocument payload transferStoreBegin with
      | error code => exact quiet
      | ok document =>
        exact .called (show (StorageCall.begin surroundings.now document).Admits from
          ⟨payload, decoded⟩)
    · split
      · cases decodeStoreChunk payload with
        | error code => exact quiet
        | ok chunk => exact .called (show (StorageCall.put chunk).Admits from trivial)
      · split
        · cases transferDecodeObjectOperation payload transferStoreCommit with
          | error code => exact quiet
          | ok id =>
            have committed : service.Served (service.withSession
                ((storageCommit service.session.1 service.session.2 id).run
                  service.session.2).1) := by
              rw [← run_commit_plan]
              exact .called (show (StorageCall.commit id).Admits from trivial)
            dsimp only
            split <;> exact committed
        · exact quiet

/-- Serving a message does one of these things. -/
theorem served_serveConnection (service : PeerService) (surroundings : PeerSurroundings)
    (message : Message) : service.Served (serveConnection service surroundings message).1 := by
  have quiet : service.Served service := .beat service.heartbeat
  unfold serveConnection
  split
  · exact quiet
  · split
    · exact .beat _
    · exact served_storeStatus service surroundings message.payload
    · unfold handleDownload
      cases transferDecodeChunkRequest message.payload with
      | error code => exact quiet
      | ok request => exact .read request.1 request.2
    · exact quiet
    · exact quiet

/-! ### Runs of a peer -/

/-- What happens to a peer: it serves a message, its cache is given another capacity, or its process
crashes within a call and another one starts on the tree that is left, with the same identity. -/
inductive PeerAction where
  | serve (surroundings : PeerSurroundings) (message : Message)
  | setCapacity (capacityBytes : UInt64)
  | crash (request : StorageCall) (taken pid : Nat) (objects pending : List ObjectID)
      (heartbeat : Heartbeat)

/-- The step function of a peer. -/
def peerStep (service : PeerService) : PeerAction → Option PeerService
  | .serve surroundings message => some (serveConnection service surroundings message).1
  | .setCapacity capacityBytes =>
    some { service with cache := storageSetCacheCapacity service.cache capacityBytes }
  | .crash request taken pid objects pending heartbeat =>
    (sessionStep service.session (.crash request taken service.id pid objects pending)).map
      fun session => { service with session := session, cache := .initial, heartbeat := heartbeat }

/-- A process crashes within a call that it can make, and the next one sees the whole tree. A
message may be any message. -/
def PeerAction.Admissible (service : PeerService) : PeerAction → Prop
  | .serve .. => True
  | .setCapacity _ => True
  | .crash request taken pid objects pending _ =>
    (StorageAction.crash request taken service.id pid objects pending).Admissible service.session

/-- The invariant of a peer. -/
structure PeerService.Sound (service : PeerService) : Prop where
  settled : Session.Settled service.session
  faithful : ∀ entry ∈ service.cache.list, entry.Faithful service.session

/-- A peer on an empty tree. -/
structure PeerService.Fresh (service : PeerService) : Prop where
  session : ∃ owner pid, service.session = (⟨owner, pid, []⟩, Disk.empty)
  cache : service.cache = .initial

omit [Inet] [Process] in
theorem PeerService.Fresh.sound {service : PeerService} (fresh : service.Fresh) :
    service.Sound := by
  obtain ⟨owner, pid, isSession⟩ := fresh.session
  refine ⟨isSession ▸ settled_empty owner pid, fun entry member => ?_⟩
  rw [fresh.cache] at member
  cases member

omit [Inet] [Process] in
/-- The sections of a read, one after the other, keep the cache faithful. -/
theorem storageReadChunk_faithful {service : PeerService} (sound : service.Sound) (id : ObjectID)
    (index : UInt64) :
    ∀ entry ∈ (storageReadChunk service.session.1 service.cache service.session.2 id index).1.list,
      entry.Faithful service.session :=
  storeSection_faithful sound.settled (readSection_faithful sound.faithful id index)
    (readFile_current (readSection_current id index))

omit [Inet] [Process] in
theorem PeerService.Sound.served {service next : PeerService} (sound : service.Sound)
    (served : service.Served next) : next.Sound := by
  cases served with
  | beat heartbeat => exact ⟨sound.settled, sound.faithful⟩
  | called admits =>
    exact ⟨(sound.settled.call admits).1, fun entry member =>
      (sound.faithful entry member).call sound.settled admits⟩
  | read id index => exact ⟨sound.settled, storageReadChunk_faithful sound id index⟩

/-- Every action keeps the invariant. -/
theorem PeerService.Sound.step {service next : PeerService} (sound : service.Sound)
    {action : PeerAction} (admissible : action.Admissible service)
    (stepped : peerStep service action = some next) : next.Sound := by
  cases action with
  | serve surroundings message =>
    cases stepped
    exact sound.served (served_serveConnection service surroundings message)
  | setCapacity capacityBytes =>
    cases stepped
    exact ⟨sound.settled, fun entry member => sound.faithful entry
      ((storageSetCacheCapacity_sublist service.cache capacityBytes).subset member)⟩
  | crash request taken pid objects pending heartbeat =>
    obtain ⟨session, crashed, rfl⟩ := Option.map_eq_some_iff.mp stepped
    refine ⟨(sound.settled.step admissible crashed).1, fun entry member => ?_⟩
    cases member

theorem sound_of_reaches {start service : PeerService} (initial : start.Sound)
    (reached : Transition.Reaches peerStep PeerAction.Admissible start service) :
    service.Sound :=
  reached.invariant initial fun _ _ _ before admissible stepped => before.step admissible stepped

end Served

/-! ### What is published -/

section Contents

variable [Sha256] [Lz4]

/-- A published document keeps a content. -/
theorem Session.Settled.keeps {session : Session} (settled : Session.Settled session)
    {id : ObjectID} {stored : StoredDocument} (found : session.1.find id = some stored)
    (finished : stored.state = .finished) :
    ∃ content, contentSha256 content = id ∧ session.Keeps content := by
  obtain ⟨contents, shelved⟩ := settled.shelved found finished
  obtain ⟨content, verified⟩ := shelved.verified
  obtain ⟨-, -, -, -, digest⟩ := verifyDocument_ok verified
  have isId : contentSha256 content = id := digest.trans (Storage.find_id found)
  refine ⟨content, isId, stored, isId ▸ found, finished, ?_⟩
  rw [Disk.chunks_of_contents shelved.place]
  exact verified

/-- A run keeps what is published. -/
theorem Session.Keeps.reaches {session later : Session} {content : List UInt8}
    (keeps : session.Keeps content) (settled : Session.Settled session)
    (reached : Transition.Reaches sessionStep StorageAction.Admissible session later) :
    later.Keeps content := by
  obtain ⟨stored, found, finished, verified⟩ := keeps
  obtain ⟨foundLater, same⟩ := published_of_reaches settled found finished reached
  refine ⟨stored, foundLater, finished, ?_⟩
  rw [← Storage.find_id found] at same
  have files : later.2.chunks .objects stored.id = session.2.chunks .objects stored.id := by
    funext index
    rw [Disk.chunks, Disk.chunks, Disk.file, Disk.file, same]
  rw [files]
  exact verified

/-- A verification has compared each decompressed chunk with its digest. -/
theorem verifyChunks_digests {files : UInt64 → Option (List UInt8)} {chunks : List StoredChunk}
    {start : Nat} {content : List UInt8} (done : verifyChunks files chunks start = .ok content)
    {position : Nat} {record : StoredChunk} (there : chunks[position]? = some record) :
    ∃ data raw, readAll (files (UInt64.ofNat (start + position))) record.compressedSize.toNat =
        .ok data ∧ chunkContent data record.rawSize record.hash = .ok raw := by
  induction chunks generalizing start position content with
  | nil => cases there
  | cons first rest inductionHypothesis =>
    rw [verifyChunks] at done
    split at done
    · cases done
    · obtain ⟨data, read, afterRead⟩ := bind_eq_ok.mp done
      obtain ⟨raw, checked, afterCheck⟩ := bind_eq_ok.mp afterRead
      obtain ⟨more, verified, -⟩ := bind_eq_ok.mp afterCheck
      cases position with
      | zero =>
        cases there
        exact ⟨data, raw, read, checked⟩
      | succ position =>
        have later := inductionHypothesis verified there
        rw [Nat.add_assoc, Nat.add_comm 1] at later
        exact later

/-- The chunks of a document that has been verified as a whole are the pieces of its content. -/
theorem verified_pieces {files : UInt64 → Option (List UInt8)} {stored : StoredDocument}
    {content : List UInt8} (sound : stored.Sound)
    (complete : ∀ record ∈ stored.chunks, record.present = true)
    (verified : verifyDocument files stored = .ok content) :
    stored.document.fileSize.toNat = content.length ∧
      ∀ (index : UInt64), index < stored.document.chunkCount →
        ∃ data, readAll (files index) (stored.chunk index.toNat).compressedSize.toNat = .ok data ∧
          chunkContent data (stored.chunk index.toNat).rawSize (stored.chunk index.toNat).hash =
            .ok (piece content chunkSize index.toNat) := by
  obtain ⟨lists, decompresses, rfl, sums, -⟩ := verifyDocument_ok verified
  have size : stored.document.fileSize.toNat = lists.flatten.length := by
    rw [decompresses.flatten_length, totalSize_eq sound complete sums]
  have fits : ∀ (position : Nat) (record : StoredChunk), stored.chunks[position]? = some record →
      record.Fits stored.document (UInt64.ofNat position) := by
    intro position record there
    refine (sound.records position record there).resolve_left ?_
    rintro rfl
    cases complete _ (List.mem_of_getElem? there)
  -- Every list has the size of its place.
  have each : ∀ (position : Nat) (list : List UInt8), lists[position]? = some list →
      list ≠ [] ∧ (position * chunkSize < lists.flatten.length →
        list.length = min chunkSize (lists.flatten.length - position * chunkSize)) := by
    intro position list listed
    obtain ⟨inside, -⟩ := List.getElem?_eq_some_iff.mp listed
    rw [decompresses.length] at inside
    have there := List.getElem?_eq_getElem inside
    obtain ⟨same, -⟩ := toNat_ofNat_position there
    obtain ⟨data, piece, -, decompressed, again⟩ := decompresses.piece position _ there
    cases listed.symm.trans again
    obtain ⟨-, positive, filled⟩ := compressionLz4Decompress_ok decompressed
    refine ⟨fun empty => positive (by rw [← filled, empty]; rfl), fun within => ?_⟩
    rw [filled, (fits position _ there).rawSize, expectedSize_toNat (by rw [same, size]; exact within),
      same, size]
  obtain ⟨-, pieces⟩ := @eq_pieces UInt8 chunkSize lists lists.flatten rfl
    (fun list member => by
      obtain ⟨position, listed⟩ := List.getElem?_of_mem member
      exact (each position list listed).1)
    fun position list listed => (each position list listed).2
  refine ⟨size, fun index inside => ?_⟩
  have there := StoredDocument.getElem?_of_inside (UInt64.lt_iff_toNat_lt.mp inside)
  obtain ⟨seen, verifiedChunks, -⟩ := bind_eq_ok.mp verified
  obtain ⟨data, raw, read, checked⟩ := verifyChunks_digests verifiedChunks there
  obtain ⟨again, list, readAgain, decompressed, listed⟩ := decompresses.piece _ _ there
  cases read.symm.trans readAgain
  cases (chunkContent_ok checked).symm.trans decompressed
  rw [Nat.zero_add, UInt64.ofNat_toNat] at read
  rw [← pieces _ _ listed]
  exact ⟨data, read, checked⟩

omit [Sha256] [Lz4] in
/-- A file is read to the size that is asked for. -/
theorem readAll_length {file : Option (List UInt8)} {size : Nat} {data : List UInt8}
    (read : readAll file size = .ok data) : data.length = size := by
  unfold readAll at read
  split at read
  · cases read
  · split at read
    · cases read
    · rename_i enough
      cases read
      rw [List.length_take, Nat.min_eq_left (Nat.not_lt.mp enough)]

theorem chunkContent_digest {data raw : List UInt8} {rawSize : UInt32}
    {hash : Octets objectIdSize} (done : chunkContent data rawSize hash = .ok raw) :
    hash = contentSha256 raw := by
  unfold chunkContent at done
  split at done
  · cases done
  · split at done
    · cases done
    · rename_i same
      cases done
      exact (not_not.mp same).symm

omit [Sha256] in
theorem withinBound_eq_true {rawSize compressedSize : UInt32}
    (within : withinBound rawSize compressedSize = true) :
    ∃ bound, compressionLz4Bound rawSize.toNat = .ok bound ∧ compressedSize.toNat ≤ bound := by
  unfold withinBound at within
  split at within
  · cases within
  · rename_i bound isBound
    rw [Bool.and_eq_true] at within
    exact ⟨bound, isBound, of_decide_eq_true within.2⟩

/-- A record that fits its place, with the compressed bytes of the piece, makes a correct chunk. -/
theorem StoredChunk.Fits.correct {record : StoredChunk} {document : TransferDocument}
    {index : UInt64} (fits : record.Fits document index) {content data : List UInt8}
    {file : Option (List UInt8)} (inside : index.toNat * chunkSize < content.length)
    (read : readAll file record.compressedSize.toNat = .ok data)
    (checked : chunkContent data record.rawSize record.hash =
      .ok (piece content chunkSize index.toNat)) :
    ∃ chunk : CarriedChunk, chunk.Correct content ∧ chunk.index = index ∧
      chunk.toTransferChunk = record.filled (contentSha256 content) data := by
  obtain ⟨-, rfl, offset, -, bound⟩ := fits
  have decompressed := chunkContent_ok checked
  obtain ⟨-, -, filled⟩ := compressionLz4Decompress_ok decompressed
  refine ⟨⟨record.filled (contentSha256 content) data, readAll_length read⟩, ?_, rfl, rfl⟩
  constructor
  · rfl
  · exact inside
  · exact offset
  · exact filled.symm
  · exact chunkContent_digest checked
  · exact withinBound_eq_true bound
  · exact decompressed

/-- Every chunk of a kept content can be read, and it is correct. -/
theorem Session.Keeps.readChunk {session : Session} {content : List UInt8}
    (keeps : session.Keeps content) (settled : Session.Settled session) {index : UInt64}
    (inside : index.toNat * chunkSize < content.length) :
    ∃ chunk : CarriedChunk, chunk.Correct content ∧ chunk.index = index ∧
      SuperPeerNet.readChunk session.1 session.2 (contentSha256 content) index =
        .ok chunk.toTransferChunk := by
  obtain ⟨stored, found, finished, verified⟩ := keeps
  obtain ⟨contents, shelved⟩ := settled.shelved found finished
  obtain ⟨size, pieces⟩ := verified_pieces shelved.sound shelved.complete verified
  have within : index < stored.document.chunkCount := by
    rw [shelved.sound.recordable.count, UInt64.lt_iff_toNat_lt, lt_chunkCountOf, size]
    exact inside
  obtain ⟨data, read, checked⟩ := pieces index within
  have known : publishedChunk session.1 (contentSha256 content) index =
      .ok (stored.chunk index.toNat) := by
    simp only [publishedChunk, found]
    rw [if_neg]
    rw [not_or, not_not, ge_iff_le, UInt64.not_le]
    exact ⟨finished, within⟩
  have there := StoredDocument.getElem?_of_inside (UInt64.lt_iff_toNat_lt.mp within)
  have fits : (stored.chunk index.toNat).Fits stored.document index := by
    have either := shelved.sound.records _ _ there
    rw [UInt64.ofNat_toNat] at either
    refine either.resolve_left fun blank => ?_
    have present := shelved.complete _ (List.mem_of_getElem? there)
    rw [blank] at present
    cases present
  obtain ⟨chunk, correct, isIndex, isChunk⟩ := fits.correct inside read checked
  refine ⟨chunk, correct, isIndex, ?_⟩
  rw [SuperPeerNet.readChunk, known, isChunk]
  dsimp only
  rw [fetchChunk, ← Storage.find_id found, read]

/-- A chunk of a published document that can be read is inside its content. -/
theorem Session.Keeps.inside {session : Session} {content : List UInt8}
    (keeps : session.Keeps content) (settled : Session.Settled session) {index : UInt64}
    {record : StoredChunk}
    (known : publishedChunk session.1 (contentSha256 content) index = .ok record) :
    index.toNat * chunkSize < content.length := by
  obtain ⟨stored, found, finished, verified⟩ := keeps
  obtain ⟨other, foundAgain, -, within, -⟩ := publishedChunk_ok known
  cases found.symm.trans foundAgain
  obtain ⟨contents, shelved⟩ := settled.shelved found finished
  obtain ⟨size, -⟩ := verified_pieces shelved.sound shelved.complete verified
  rw [shelved.sound.recordable.count, UInt64.lt_iff_toNat_lt, lt_chunkCountOf, size] at within
  exact within

/-! ### Correct chunks in messages -/

variable [BoundedLz4]

/-- What a chunk has to be to go through a message. -/
structure TransferChunk.Sendable (chunk : TransferChunk) : Prop where
  carried : chunk.data.length = chunk.compressedSize.toNat
  rawSize : chunk.rawSize ≠ 0
  small : chunk.rawSize.toUInt64 ≤ metadataChunkSize
  compressedSize : chunk.compressedSize ≠ 0
  fits : chunkFixedSize + chunk.compressedSize.toNat ≤ maxPayloadSize

/-- A correct chunk can be sent. -/
theorem CarriedChunk.Correct.sendable {chunk : CarriedChunk} {content : List UInt8}
    (correct : chunk.Correct content) : chunk.toTransferChunk.Sendable := by
  have length := correct.rawSize
  have inside := correct.inside
  rw [length_piece] at length
  have positive : 0 < chunkSize := by decide
  obtain ⟨nonempty, -, -⟩ := compressionLz4Decompress_ok correct.decompresses
  have bound : chunk.compressedSize.toNat ≤ chunkSize + chunkSize / 255 + 16 := by
    obtain ⟨bound, bounded, within⟩ := correct.bounded
    have supported : chunk.rawSize.toNat ≤ 0x7e000000 := by
      unfold chunkSize at length
      omega
    unfold compressionLz4Bound at bounded
    split at bounded
    · cases bounded
    · rw [BoundedLz4.bound _ supported] at bounded
      split at bounded
      · cases bounded
      · cases bounded
        have smaller : chunk.rawSize.toNat / 255 ≤ chunkSize / 255 :=
          Nat.div_le_div_right (by omega)
        omega
  refine ⟨chunk.carried, fun zero => ?_, ?_, fun zero => ?_, ?_⟩
  · rw [zero] at length
    have none : (0 : UInt32).toNat = 0 := rfl
    omega
  · rw [UInt64.le_iff_toNat_le, UInt32.toNat_toUInt64, toNat_metadataChunkSize]
    omega
  · rw [chunk.carried, zero] at nonempty
    exact nonempty rfl
  · unfold chunkFixedSize maxPayloadSize
    unfold chunkSize at bound
    omega

omit [Sha256] [Lz4] [BoundedLz4] in
theorem TransferChunk.Sendable.encodes {chunk : TransferChunk} (sendable : chunk.Sendable)
    (operation : UInt8) :
    transferEncodeChunk chunk operation = .ok (chunkBytes chunk operation) := by
  have fits := sendable.fits
  have size : (UInt32.ofNat chunkFixedSize + chunk.compressedSize).toNat =
      chunkFixedSize + chunk.compressedSize.toNat :=
    chunkSize_toNat (by unfold maxPayloadSize at fits; omega)
  unfold transferEncodeChunk
  rw [if_neg (not_or.mpr ⟨sendable.rawSize, sendable.compressedSize⟩)]
  dsimp only
  rw [size, if_neg (by unfold maxPayloadSize at *; omega), List.take_of_length_le]
  rw [length_chunkBytes sendable.carried]

omit [Sha256] [Lz4] [BoundedLz4] in
theorem TransferChunk.Sendable.decodes {chunk : TransferChunk} (sendable : chunk.Sendable)
    (operation : UInt8) :
    transferDecodeChunk (chunkBytes chunk operation) operation = .ok chunk :=
  transferDecodeChunk_chunkBytes sendable.carried sendable.rawSize sendable.small
    sendable.compressedSize

end Contents

/-! ### Replies -/

section Replies

variable [Inet] [Sha256] [Process] [Lz4]

omit [Inet] [Process] in
/-- A read through the cache has the outcome of a read without one. -/
theorem PeerService.Sound.outcome {service : PeerService} (sound : service.Sound) (id : ObjectID)
    (index : UInt64) :
    (storageReadChunk service.session.1 service.cache service.session.2 id index).2.outcome
      service.session.2 = readChunk service.session.1 service.session.2 id index := by
  rw [storageReadChunk, outcome_storeSection, outcome_readFile,
    outcome_readSection sound.faithful]

omit [Inet] [Sha256] [Process] [Lz4] in
/-- A reply of this kind has been made for an outcome of this kind. -/
theorem sendResponse_download {service : PeerService} {request reply : Message}
    {outcome : Except Errno (MessageType × List UInt8)}
    (sent : sendResponse service request outcome = some reply)
    (download : reply.messageType = .downloadRep) :
    outcome = .ok (.downloadRep, reply.payload) := by
  obtain ⟨rfl, -⟩ := answer_eq_some sent
  cases outcome with
  | error code => cases download
  | ok answered =>
    obtain ⟨kind, payload⟩ := answered
    change kind = .downloadRep at download
    subst download
    rfl

omit [Lz4] in
/-- A packet of the membership is not answered with a chunk. -/
theorem heartbeatHandle_kind {heartbeat : Heartbeat} {request : Message} {clocks : Clocks}
    {kind : MessageType} {payload : List UInt8}
    (handled : (heartbeatHandle heartbeat request clocks).2 = .ok (kind, payload)) :
    kind ≠ .downloadRep := by
  unfold heartbeatHandle at handled
  split at handled
  · cases handled
  · dsimp only at handled
    split at handled
    · cases handled
    · split at handled
      · cases handled
      · split at handled
        · cases handled
        · cases handled
          split <;> exact fun wrong => by cases wrong

omit [Inet] [Process] in
/-- A chunk is sent in reply to a request for it only, when it has been read. -/
theorem handleDownload_sent {service : PeerService} (sound : service.Sound)
    {message reply : Message} (sent : (handleDownload service message).2 = some reply)
    (download : reply.messageType = .downloadRep) :
    ∃ id index chunk, transferDecodeChunkRequest message.payload = .ok (id, index) ∧
      readChunk service.session.1 service.session.2 id index = .ok chunk ∧
      transferEncodeChunk chunk transferDownloadChunk = .ok reply.payload := by
  unfold handleDownload at sent
  cases decoded : transferDecodeChunkRequest message.payload with
  | error code =>
    rw [decoded] at sent
    dsimp only at sent
    cases sendResponse_download sent download
  | ok request =>
    obtain ⟨id, index⟩ := request
    rw [decoded] at sent
    have outcome := sendResponse_download sent download
    rw [sound.outcome] at outcome
    cases read : readChunk service.session.1 service.session.2 id index with
    | error code =>
      rw [read] at outcome
      cases outcome
    | ok chunk =>
      rw [read, downloadPayload] at outcome
      refine ⟨id, index, chunk, rfl, read, ?_⟩
      cases encoded : transferEncodeChunk chunk transferDownloadChunk with
      | error code =>
        rw [encoded] at outcome
        cases outcome
      | ok payload =>
        rw [encoded] at outcome
        cases outcome
        rfl

/-- The only replies with chunks are those of `handle_download`. -/
theorem serveConnection_sent {service : PeerService} {surroundings : PeerSurroundings}
    {message reply : Message} (sent : (serveConnection service surroundings message).2 = some reply)
    (download : reply.messageType = .downloadRep) :
    (handleDownload service message).2 = some reply := by
  unfold serveConnection at sent
  split at sent
  · dsimp only at sent
    cases sendResponse_download sent download
  · split at sent
    · exact absurd rfl (heartbeatHandle_kind (sendResponse_download sent download))
    · have outcome := sendResponse_download sent download
      cases status : (storeStatus service surroundings message.payload).2 with
      | error code =>
        rw [status] at outcome
        cases outcome
      | ok done =>
        rw [status] at outcome
        cases outcome
    · exact sent
    · have outcome := sendResponse_download sent download
      split at outcome <;> cases outcome
    · dsimp only at sent
      cases sendResponse_download sent download

/-- A request for a chunk of a kept content is answered with the chunk. -/
theorem serveConnection_download [BoundedLz4] {service : PeerService} (sound : service.Sound)
    {content : List UInt8} (keeps : service.session.Keeps content) {index : UInt64}
    (inside : index.toNat * chunkSize < content.length) (surroundings : PeerSurroundings)
    {message : Message} (kind : message.messageType = .downloadReq)
    (named : message.sourceNode ≠ zeroNodeId) (meant : message.destinationNode = service.id)
    (asked : transferDecodeChunkRequest message.payload = .ok (contentSha256 content, index)) :
    ∃ chunk : CarriedChunk, chunk.Correct content ∧ chunk.index = index ∧
      (serveConnection service surroundings message).2 = some (sendReply service.id message
        (.ok (.downloadRep, chunkBytes chunk.toTransferChunk transferDownloadChunk))) := by
  obtain ⟨chunk, correct, isIndex, read⟩ := keeps.readChunk sound.settled inside
  have sendable := correct.sendable
  refine ⟨chunk, correct, isIndex, ?_⟩
  unfold serveConnection
  rw [if_neg (fun refused => refused.2.elim named (fun other => other meant)), kind]
  unfold handleDownload
  rw [asked]
  dsimp only
  rw [sound.outcome, read, downloadPayload, sendable.encodes]
  unfold sendResponse answer
  refine if_neg (Nat.not_lt.mpr ?_)
  show (chunkBytes chunk.toTransferChunk transferDownloadChunk).length ≤ maxPayloadSize
  rw [length_chunkBytes sendable.carried]
  exact sendable.fits

/-! ### Exactly what is published -/

/-- A peer answers the requests for a content with its chunks: no reply carries anything else, and
every request that names its source and this peer is answered. -/
structure PeerService.Serves (service : PeerService) (content : List UInt8) : Prop where
  only : ∀ surroundings message index reply,
    transferDecodeChunkRequest message.payload = .ok (contentSha256 content, index) →
    (serveConnection service surroundings message).2 = some reply →
    reply.messageType = .downloadRep →
    ∃ chunk : CarriedChunk, chunk.Correct content ∧ chunk.index = index ∧
      reply.payload = chunkBytes chunk.toTransferChunk transferDownloadChunk
  always : ∀ surroundings message (index : UInt64),
    index.toNat * chunkSize < content.length → message.messageType = .downloadReq →
    message.sourceNode ≠ zeroNodeId → message.destinationNode = service.id →
    transferDecodeChunkRequest message.payload = .ok (contentSha256 content, index) →
    ∃ reply, (serveConnection service surroundings message).2 = some reply ∧
      reply.messageType = .downloadRep

/-- A peer with a kept content serves it. -/
theorem PeerService.Sound.serves [BoundedLz4] {service : PeerService} (sound : service.Sound)
    {content : List UInt8} (keeps : service.session.Keeps content) : service.Serves content := by
  constructor
  · intro surroundings message index reply asked sent download
    obtain ⟨id, other, chunk, askedAgain, read, encoded⟩ :=
      handleDownload_sent sound (serveConnection_sent sent download) download
    cases asked.symm.trans askedAgain
    have inside : index.toNat * chunkSize < content.length := by
      cases known : publishedChunk service.session.1 (contentSha256 content) index with
      | error code =>
        rw [readChunk, known] at read
        cases read
      | ok record => exact keeps.inside sound.settled known
    obtain ⟨carried, correct, isIndex, readAgain⟩ := keeps.readChunk sound.settled inside
    cases read.symm.trans readAgain
    rw [correct.sendable.encodes] at encoded
    exact ⟨carried, correct, isIndex, (Except.ok.inj encoded).symm⟩
  · intro surroundings message index inside kind named meant asked
    obtain ⟨chunk, -, -, sent⟩ :=
      serveConnection_download sound keeps inside surroundings kind named meant asked
    exact ⟨_, sent, rfl⟩

/-- The storage of a peer takes the actions of a storage. -/
theorem session_of_reaches {start service : PeerService}
    (reached : Transition.Reaches peerStep PeerAction.Admissible start service) :
    Transition.Reaches sessionStep StorageAction.Admissible start.session service.session := by
  induction reached with
  | refl => exact .refl
  | @tail before after _ action admissible stepped inductionHypothesis =>
    cases action with
    | serve surroundings message =>
      cases stepped
      have served := served_serveConnection before surroundings message
      generalize (serveConnection before surroundings message).1 = next at served ⊢
      cases served with
      | beat heartbeat => exact inductionHypothesis
      | @called request admits =>
        exact inductionHypothesis.tail (.call request) ⟨trivial, admits⟩ rfl
      | read id index => exact inductionHypothesis
    | setCapacity capacityBytes =>
      cases stepped
      exact inductionHypothesis
    | crash request taken pid objects pending heartbeat =>
      obtain ⟨session, crashed, rfl⟩ := Option.map_eq_some_iff.mp stepped
      exact inductionHypothesis.tail _ admissible crashed

/-- A peer keeps its identity. -/
theorem PeerService.id_of_step {service next : PeerService}
    {action : PeerAction} (stepped : peerStep service action = some next) :
    next.id = service.id := by
  cases action with
  | serve surroundings message =>
    cases stepped
    have served := served_serveConnection service surroundings message
    generalize (serveConnection service surroundings message).1 = next at served
    cases served <;> rfl
  | setCapacity capacityBytes =>
    cases stepped
    rfl
  | crash request taken pid objects pending heartbeat =>
    obtain ⟨session, -, rfl⟩ := Option.map_eq_some_iff.mp stepped
    rfl

theorem id_of_reaches {start service : PeerService}
    (reached : Transition.Reaches peerStep PeerAction.Admissible start service) :
    service.id = start.id := by
  induction reached with
  | refl => rfl
  | tail _ _ _ stepped inductionHypothesis =>
    exact (PeerService.id_of_step stepped).trans inductionHypothesis

/-- In every run of a peer, whatever it is sent and whenever it crashes, either no request for an id
is answered with a chunk, or there is a content of this digest whose chunks, and nothing else, the
peer serves from then on, in every state that it reaches. -/
theorem serves_from_then_on [BoundedLz4] {start service : PeerService} (fresh : start.Fresh)
    (reached : Transition.Reaches peerStep PeerAction.Admissible start service) (id : ObjectID) :
    (∀ surroundings message index reply,
      transferDecodeChunkRequest message.payload = .ok (id, index) →
      (serveConnection service surroundings message).2 = some reply →
      reply.messageType ≠ .downloadRep) ∨
    ∃ content, contentSha256 content = id ∧
      ∀ later, Transition.Reaches peerStep PeerAction.Admissible service later →
        later.Serves content := by
  have sound := sound_of_reaches fresh.sound reached
  by_cases published : ∃ stored, service.session.1.find id = some stored ∧
      stored.state = .finished
  · right
    obtain ⟨stored, found, finished⟩ := published
    obtain ⟨content, isId, keeps⟩ := sound.settled.keeps found finished
    refine ⟨content, isId, fun later after => ?_⟩
    exact (sound_of_reaches sound after).serves
      (keeps.reaches sound.settled (session_of_reaches after))
  · left
    intro surroundings message index reply asked sent download
    obtain ⟨other, position, chunk, askedAgain, read, -⟩ :=
      handleDownload_sent sound (serveConnection_sent sent download) download
    cases asked.symm.trans askedAgain
    cases known : publishedChunk service.session.1 id index with
    | error code =>
      rw [readChunk, known] at read
      cases read
    | ok record =>
      obtain ⟨stored, found, finished, -⟩ := publishedChunk_ok known
      exact published ⟨stored, found, finished⟩

end Replies

/-! ### The letter -/

/-- A peer on an empty tree. -/
def letterService [Inet] [Sha256] [Process] : PeerService where
  id := letterSession.1.owner
  superpeerId := Octets.fill nodeIdSize 9
  session := letterSession
  cache := .initial
  heartbeat := firstStart 1

/-- The super peer acknowledges every announcement. -/
def letterSurroundings : PeerSurroundings where
  now := 0
  clocks := ⟨fun _ => 0, fun _ => 0⟩
  superpeer := fun request => some (sendReply request.destinationNode request (.ok (.ack, [])))
  transaction := Octets.fill transactionIdSize 0

/-- A message to this peer. -/
def letterMessage (messageType : MessageType) (payload : List UInt8) : Message where
  messageType := messageType
  sourceNode := Octets.fill nodeIdSize 5
  destinationNode := letterSession.1.owner
  transactionId := Octets.fill transactionIdSize 1
  payload := payload

/-- The messages of an upload of the letter. -/
def letterUpload : List Message :=
  [letterMessage .store (documentHeader letterDocument transferStoreBegin),
    letterMessage .store (chunkBytes letterChunk.toTransferChunk transferStoreChunk),
    letterMessage .store (transferEncodeObjectOperation transferStoreCommit letterDocument.id)]

/-- Serve some messages. -/
def PeerService.serveAll [Inet] [Sha256] [Process] [Lz4] (service : PeerService)
    (messages : List Message) : PeerService :=
  messages.foldl (fun service message => (serveConnection service letterSurroundings message).1)
    service

theorem PeerService.serveAll_reached [Inet] [Sha256] [Process] [Lz4] {start service : PeerService}
    (reached : Transition.Reaches peerStep PeerAction.Admissible start service)
    (messages : List Message) :
    Transition.Reaches peerStep PeerAction.Admissible start (service.serveAll messages) := by
  induction messages generalizing service with
  | nil => exact reached
  | cons message rest inductionHypothesis =>
    exact inductionHypothesis (reached.tail (.serve letterSurroundings message) trivial rfl)

/-- The letter is uploaded, and a request for its chunk is answered; from then on the peer serves
the letter. -/
theorem serves_from_then_on_letter :
    letI := Inet.reference
    letI := Sha256.reference
    letI := Process.first
    letI := Lz4.reference
    ∃ content, contentSha256 content = letterDocument.id ∧
      ∀ later, Transition.Reaches peerStep PeerAction.Admissible
          (letterService.serveAll letterUpload) later →
        later.Serves content := by
  let inet := Inet.reference
  let sha256 := Sha256.reference
  let process := Process.first
  let lz4 := Lz4.reference
  have fresh : letterService.Fresh := ⟨⟨_, _, rfl⟩, rfl⟩
  refine (serves_from_then_on fresh (PeerService.serveAll_reached .refl letterUpload)
    letterDocument.id).resolve_left fun unanswered => ?_
  have answered : (serveConnection (letterService.serveAll letterUpload) letterSurroundings
      (letterMessage .downloadReq (transferEncodeChunkRequest letterDocument.id 0))).2.map
        Message.messageType = some .downloadRep := by
    decide +kernel
  obtain ⟨reply, sent, download⟩ := Option.map_eq_some_iff.mp answered
  exact unanswered _ _ 0 reply (transferDecodeChunkRequest_bytes _ _) sent download

end SuperPeerNet
