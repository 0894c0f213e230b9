/-
This file proves that a storage gathers a content when everybody who sends chunks under its id
sends those of the content.

The begins, the puts of chunks and the commits of the content are then accepted, in whatever
order they come and however often, and whatever is done to other documents in between. The
commit of a complete document publishes exactly the content. A chunk that somebody else has
sent is present for everybody, if the compressors agree on the size of its block: a chunk
that is present is compared with its record only.
-/

import SuperPeerNet.Peer.Genuine

namespace SuperPeerNet

open Pieces

section Gathering

variable [Sha256] [Lz4]

/-! ### Offers -/

/-- A content that is uploaded: its document, and the compressed blocks of its chunks. -/
structure Offer where
  content : List UInt8
  document : TransferDocument
  block : UInt64 → List UInt8
  describes : document.Describes content
  recordable : document.Recordable
  nonempty : content ≠ []
  bounded : ∀ index : UInt64, index.toNat * chunkSize < content.length →
    ∃ bound, compressionLz4Bound (piece content chunkSize index.toNat).length = .ok bound ∧
      (block index).length ≤ bound
  decompresses : ∀ index : UInt64, index.toNat * chunkSize < content.length →
    compressionLz4Decompress (block index) (piece content chunkSize index.toNat).length =
      .ok (piece content chunkSize index.toNat)

variable {offer : Offer}

/-- The indices of the chunks of an offer are those of the pieces. -/
theorem Offer.inside {index : UInt64} : index < offer.document.chunkCount ↔
    index.toNat * chunkSize < offer.content.length := by
  rw [offer.describes.chunkCount, UInt64.lt_iff_toNat_lt, lt_chunkCountOf,
    offer.describes.fileSize]

/-- An offer has a first chunk. -/
theorem Offer.first (offer : Offer) : 0 < offer.document.chunkCount := by
  refine Offer.inside.mpr ?_
  rw [show (0 : UInt64).toNat = 0 from rfl, Nat.zero_mul]
  exact List.length_pos_iff.mpr offer.nonempty

/-- A chunk of an offer: a correct chunk of its content, with a block of the right size. -/
structure CarriedChunk.Belongs (chunk : CarriedChunk) (offer : Offer) : Prop where
  correct : chunk.Correct offer.content
  size : chunk.data.length = (offer.block chunk.index).length

/-- The record of a chunk of an offer. -/
structure StoredChunk.Belongs (record : StoredChunk) (offer : Offer) (index : UInt64) : Prop where
  rawSize : record.rawSize.toNat = (piece offer.content chunkSize index.toNat).length
  compressedSize : record.compressedSize.toNat = (offer.block index).length
  hash : record.hash = contentSha256 (piece offer.content chunkSize index.toNat)

theorem CarriedChunk.Belongs.id {chunk : CarriedChunk} (belongs : chunk.Belongs offer) :
    chunk.id = offer.document.id :=
  belongs.correct.id.trans offer.describes.id.symm

theorem CarriedChunk.Belongs.record {chunk : CarriedChunk} (belongs : chunk.Belongs offer) :
    chunk.record.Belongs offer chunk.index :=
  ⟨belongs.correct.rawSize, chunk.carried.symm.trans belongs.size, belongs.correct.hash⟩

/-- A chunk of an offer is the same as the one that is present. -/
theorem CarriedChunk.Belongs.matches {chunk : CarriedChunk} (belongs : chunk.Belongs offer)
    {record : StoredChunk} (present : record.present = true)
    (recorded : record.Belongs offer chunk.index) : chunk.matches record := by
  have ours := belongs.record
  refine ⟨present, ?_, ?_, ?_⟩
  · exact UInt32.toNat_inj.mp (recorded.rawSize.trans ours.rawSize.symm)
  · exact UInt32.toNat_inj.mp (recorded.compressedSize.trans ours.compressedSize.symm)
  · exact recorded.hash.trans ours.hash.symm

/-- The verdict on a chunk depends on the sizes of the document only. -/
theorem CarriedChunk.fault_congr (chunk : CarriedChunk) {first second : TransferDocument}
    (fileSize : first.fileSize = second.fileSize)
    (chunkCount : first.chunkCount = second.chunkCount) :
    chunk.fault first = chunk.fault second := by
  unfold CarriedChunk.fault
  rw [fileSize, chunkCount]

/-! ### What a storage has gathered -/

/-- What a storage holds of the document of an offer comes from the offer. -/
structure StoredDocument.Gathers (stored : StoredDocument) (session : Session) (offer : Offer) :
    Prop where
  fileSize : stored.document.fileSize = offer.document.fileSize
  chunkCount : stored.document.chunkCount = offer.document.chunkCount
  records : ∀ index : UInt64, (stored.chunk index.toNat).present = true →
    (stored.chunk index.toNat).Belongs offer index
  pending : stored.state ≠ .finished → Compatible session offer.document offer.content
  published : stored.state = .finished → session.Keeps offer.content

/-- A storage gathers an offer. -/
structure Session.Gathers (session : Session) (offer : Offer) : Prop where
  upheld : Upheld session
  known : ∀ stored, session.1.find offer.document.id = some stored →
    stored.Gathers session offer

/-- Nothing is gathered yet where the document is unknown. -/
theorem Session.gathers_of_unknown {session : Session} (upheld : Upheld session)
    (unknown : session.1.find offer.document.id = none) : session.Gathers offer := by
  refine ⟨upheld, fun stored found => ?_⟩
  rw [unknown] at found
  cases found

/-- What is done to other documents does not matter. -/
theorem Session.Gathers.frame {session after : Session} (gathers : session.Gathers offer)
    (upheld : Upheld after) (find : after.1.find offer.document.id =
      session.1.find offer.document.id)
    (disk : ∀ area, after.2 area offer.document.id = session.2 area offer.document.id) :
    after.Gathers offer := by
  have files : ∀ area, after.2.chunks area offer.document.id =
      session.2.chunks area offer.document.id := by
    intro area
    funext index
    rw [Disk.chunks, Disk.chunks, Disk.file, Disk.file, disk]
  refine ⟨upheld, fun stored found => ?_⟩
  rw [find] at found
  have before := gathers.known stored found
  refine ⟨before.fileSize, before.chunkCount, before.records, fun unfinished => ?_,
    fun finished => ?_⟩
  · have compatible := before.pending unfinished
    refine ⟨compatible.nonempty, fun other again => ?_, fun other again index present => ?_⟩
    · exact compatible.began other (find ▸ again)
    · rw [files]
      exact compatible.chunks other (find ▸ again) index present
  · obtain ⟨kept, foundKept, isFinished, verified⟩ := before.published finished
    have isId := Storage.find_id foundKept
    rw [← offer.describes.id] at foundKept isId
    refine ⟨kept, ?_, isFinished, ?_⟩
    · rw [← offer.describes.id, find]
      exact foundKept
    · rw [isId] at verified ⊢
      rw [files]
      exact verified

/-! ### Begins -/

/-- A begin under the id of an offer has to be one of its size. -/
theorem Session.Gathers.begin {session : Session} (gathers : session.Gathers offer) (now : UInt64)
    {document : TransferDocument} (recordable : document.Recordable)
    (offered : document.id = offer.document.id → document.fileSize = offer.document.fileSize) :
    Session.Gathers ((storageBegin session.1 now document).run session.2).1 offer := by
  have upheld := upheld_begin gathers.upheld now document
  rcases run_storageBegin_cases session now document with ⟨same, -⟩ | ⟨directory, creates, same⟩
  · rw [same]
    exact gathers
  · rw [same] at upheld ⊢
    by_cases isId : document.id = offer.document.id
    · refine ⟨upheld, fun stored found => ?_⟩
      rw [find_created, if_pos isId] at found
      cases found
      have fileSize := offered isId
      have chunkCount : document.chunkCount = offer.document.chunkCount := by
        rw [recordable.count, offer.describes.chunkCount, fileSize]
      have blank := blank_of_begun session.1 now document
      refine ⟨fileSize, chunkCount, fun index present => ?_, fun _ => ?_, fun finished => ?_⟩
      · rw [blank] at present
        cases present
      · refine ⟨offer.nonempty, fun other found => ?_, fun other found index present => ?_⟩
        · rw [find_created, if_pos isId] at found
          cases found
          exact ⟨fileSize, chunkCount⟩
        · rw [find_created, if_pos isId] at found
          cases found
          rw [blank] at present
          cases present
      · cases finished
    · refine gathers.frame upheld ?_ fun area => ?_
      · rw [find_created, if_neg isId]
      · exact Disk.set_other_id _ _ _ (Ne.symm isId) _

/-- After a begin of the offer its document is known, and the begin is accepted. -/
theorem Session.Gathers.begun {session : Session} (gathers : session.Gathers offer)
    (now : UInt64) : ((storageBegin session.1 now offer.document).run session.2).2 = .ok () := by
  have accepted : ¬(contentPdfName offer.document.name = false ∨
      offer.document.compression ≠ compressionLz4 ∨ offer.document.chunkCount = 0 ∨
      offer.document.chunkCount.toNat > maxStoredChunks) := by
    have first := offer.first
    have few := chunkCountOf_mul_le offer.document.fileSize
    rw [← offer.describes.chunkCount, toNat_metadataChunkSize] at few
    rintro (name | compression | empty | many)
    · rw [offer.describes.name] at name
      cases name
    · exact compression offer.describes.compression
    · rw [empty] at first
      exact absurd first UInt64.not_lt_zero
    · unfold chunkSize at few
      unfold maxStoredChunks at many
      omega
  unfold storageBegin
  rw [if_neg accepted]
  cases found : session.1.find offer.document.id with
  | some stored =>
    have known := gathers.known stored found
    dsimp only
    rw [if_pos ⟨known.fileSize, known.chunkCount⟩]
    rfl
  | none =>
    dsimp only
    rw [Call.run]
    dsimp only
    rw [execute_cons (DiskStep.apply_makeDirectory ..), execute_writeManifest]

/-! ### Puts -/

/-- A put under the id of an offer has to be one of its chunks, or one that is refused. -/
theorem Session.Gathers.put {session : Session} (gathers : session.Gathers offer)
    {chunk : CarriedChunk} (offered : chunk.id = offer.document.id →
      chunk.fault offer.document = none → chunk.Belongs offer) :
    Session.Gathers ((storagePutChunk session.1 chunk).run session.2).1 offer := by
  have upheld := upheld_put gathers.upheld chunk
  by_cases isId : chunk.id = offer.document.id
  · have cases := put_received session chunk
    have compatible := @compatible_put _ _ session offer.document offer.content chunk isId
    generalize ((storagePutChunk session.1 chunk).run session.2).1 = after at *
    rcases cases with ⟨rfl, -⟩ | ⟨stored, received⟩
    · exact gathers
    · have before := gathers.known stored (isId ▸ received.found)
      obtain ⟨faultless, unfinished, -⟩ := judge_eq_fresh received.fresh
      rw [chunk.fault_congr before.fileSize before.chunkCount] at faultless
      have belongs := offered isId faultless
      refine ⟨upheld, fun later found => ?_⟩
      cases (isId ▸ received.known : after.1.find offer.document.id = _).symm.trans found
      refine ⟨before.fileSize, before.chunkCount, fun index present => ?_, fun _ => ?_,
        fun finished => by cases finished⟩
      · rw [received.chunk] at present ⊢
        split
        · rename_i same
          rw [same]
          exact belongs.record
        · rename_i different
          rw [if_neg different] at present
          exact before.records index present
      · exact (compatible belongs.correct).mpr (before.pending unfinished)
  · rcases put_received session chunk with ⟨same, -⟩ | ⟨stored, received⟩
    · rw [same]
      exact gathers
    · obtain ⟨find, disk⟩ := received.others _ (Ne.symm isId)
      exact gathers.frame upheld find disk

/-- A chunk of a document is there. -/
def Session.Has (session : Session) (id : ObjectID) (index : UInt64) : Prop :=
  ∃ stored, session.1.find id = some stored ∧ (stored.chunk index.toNat).present = true

omit [Sha256] [Lz4] in
/-- A chunk stays where nothing is lost. -/
theorem Session.Has.mono {session after : Session} {id : ObjectID} {index : UInt64}
    (has : session.Has id index) (keeps : SuperPeerNet.Keeps (session.1.find id)
      (after.1.find id)) : after.Has id index := by
  obtain ⟨stored, found, present⟩ := has
  obtain ⟨later, known, -, -, kept⟩ := keeps stored found
  refine ⟨later, known, ?_⟩
  rw [StoredDocument.chunk_of_getElem?
    (kept _ _ (StoredDocument.getElem?_of_present present) present)]
  exact present

/-- Every chunk of a published document is there. -/
theorem Session.Settled.present {session : Session} (settled : Session.Settled session)
    {id : ObjectID} {stored : StoredDocument} (found : session.1.find id = some stored)
    (finished : stored.state = .finished) {index : UInt64}
    (inside : index < stored.document.chunkCount) :
    (stored.chunk index.toNat).present = true := by
  obtain ⟨contents, shelved⟩ := settled.shelved found finished
  have there := StoredDocument.getElem?_of_inside (UInt64.lt_iff_toNat_lt.mp inside)
  exact shelved.complete _ (List.mem_of_getElem? there)

/-- A chunk of an offer whose document is known is accepted, and it is there afterwards. -/
theorem Session.Gathers.accepted {session : Session} (gathers : session.Gathers offer)
    (settled : Session.Settled session) {chunk : CarriedChunk} (belongs : chunk.Belongs offer)
    (known : (session.1.find offer.document.id).isSome) :
    ((storagePutChunk session.1 chunk).run session.2).2 = .ok () ∧
      Session.Has ((storagePutChunk session.1 chunk).run session.2).1 offer.document.id
        chunk.index := by
  obtain ⟨stored, found⟩ := Option.isSome_iff_exists.mp known
  have before := gathers.known stored found
  rw [← belongs.id] at found
  have faultless := belongs.correct.faultless offer.describes ⟨before.fileSize, before.chunkCount⟩
  have inside := (CarriedChunk.fault_eq_none faultless).2.1
  rw [storagePutChunk_eq found]
  by_cases present : (stored.chunk chunk.index.toNat).present = true
  · have judged : stored.judge chunk = .repeated := by
      unfold StoredDocument.judge
      rw [faultless]
      dsimp only
      rw [if_pos (Or.inr present),
        if_pos (belongs.matches present (before.records chunk.index present))]
    rw [judged, ← belongs.id]
    exact ⟨rfl, stored, found, present⟩
  · have unfinished : stored.state ≠ .finished := fun finished =>
      present (settled.present found finished inside)
    have judged : stored.judge chunk = .fresh := by
      unfold StoredDocument.judge
      rw [faultless]
      dsimp only
      rw [if_neg (not_or.mpr ⟨unfinished, present⟩)]
    have isId := Storage.find_id found
    obtain ⟨directory, place⟩ := (gathers.upheld.waits _ stored found unfinished).directory
    rw [← isId] at place
    rw [judged]
    dsimp only
    rw [Call.run_of_execute (execute_receiveSteps place _ chunk), ← belongs.id]
    have received : (session.1.update (stored.receive chunk)).find chunk.id =
        some (stored.receive chunk) :=
      (Storage.find_update found (show (stored.receive chunk).id = _ from isId) _).trans
        (if_pos rfl)
    refine ⟨rfl, stored.receive chunk, received, ?_⟩
    rw [UInt64.lt_iff_toNat_lt, ← stored.sized] at inside
    rw [chunk_receive stored inside, if_pos rfl]
    rfl

/-! ### Commits -/

omit [Sha256] [Lz4] in
/-- A document that changes its state. -/
theorem find_withState {storage : Storage} {id : ObjectID} {stored : StoredDocument}
    (found : storage.find id = some stored) (state : TransferState) :
    (storage.update (stored.withState state)).find id = some (stored.withState state) := by
  have isId : stored.id = id := Storage.find_id found
  exact (Storage.find_update found (show (stored.withState state).id = id from isId) id).trans
    (if_pos rfl)

omit [Sha256] [Lz4] in
theorem find_withState_other {storage : Storage} {id other : ObjectID} {stored : StoredDocument}
    (found : storage.find id = some stored) (state : TransferState) (different : other ≠ id) :
    (storage.update (stored.withState state)).find other = storage.find other := by
  have isId : stored.id = id := Storage.find_id found
  exact (Storage.find_update found (show (stored.withState state).id = id from isId) other).trans
    (if_neg different)

omit [Sha256] [Lz4] in
/-- A document whose chunks are there is complete. -/
theorem StoredDocument.complete_of_present {stored : StoredDocument}
    (present : ∀ index, index < stored.document.chunkCount →
      (stored.chunk index.toNat).present = true) :
    ∀ record ∈ stored.chunks, record.present = true := by
  intro record member
  obtain ⟨position, there⟩ := List.getElem?_of_mem member
  obtain ⟨same, inside⟩ := toNat_ofNat_position there
  have found := present (UInt64.ofNat position) (by rwa [UInt64.lt_iff_toNat_lt, same])
  rw [same, StoredDocument.chunk_of_getElem? there] at found
  exact found

/-- The commit of a complete document that has been gathered publishes the content. -/
theorem Session.Gathers.publishes {session : Session} (gathers : session.Gathers offer)
    {stored : StoredDocument} (found : session.1.find offer.document.id = some stored)
    (unfinished : stored.state ≠ .finished)
    (complete : ∀ record ∈ stored.chunks, record.present = true) :
    Publishes session.1 session.2 offer.document.id stored offer.content := by
  have before := gathers.known stored found
  refine ⟨found, unfinished, complete, ?_⟩
  refine verifyDocument_of_compatible gathers.upheld offer.describes (before.pending unfinished)
    found unfinished fun index inside => ?_
  rw [← before.chunkCount] at inside
  have there := StoredDocument.getElem?_of_inside (UInt64.lt_iff_toNat_lt.mp inside)
  exact complete _ (List.mem_of_getElem? there)

/-- What a commit that publishes the content of an offer answers and leaves. -/
theorem Session.Gathers.committed {session : Session} (gathers : session.Gathers offer)
    {stored : StoredDocument}
    (publishes : Publishes session.1 session.2 offer.document.id stored offer.content) :
    ∃ disk, (storageCommit session.1 session.2 offer.document.id).run session.2 =
        ((session.1.update (stored.withState .finished), disk), .ok stored.document) ∧
      Session.Keeps (session.1.update (stored.withState .finished), disk) offer.content := by
  obtain ⟨found, unfinished, complete, verified⟩ := publishes
  have isId := Storage.find_id found
  have waits := gathers.upheld.waits _ stored found unfinished
  rw [← isId] at waits verified
  obtain ⟨after, taken, -, files⟩ := execute_publish waits session.1.pid
  have noneMissing : ¬stored.chunks.any (fun record => !record.present) = true := by
    intro missing
    obtain ⟨record, member, absent⟩ := List.any_eq_true.mp missing
    rw [complete record member] at absent
    cases absent
  refine ⟨after, ?_, ?_⟩
  · unfold storageCommit
    rw [found]
    dsimp only
    rw [if_neg unfinished, if_neg noneMissing, ← isId, verified]
    exact Call.run_of_execute taken
  · refine ⟨stored.withState .finished, ?_, rfl, ?_⟩
    · rw [← offer.describes.id]
      exact find_withState found .finished
    · show verifyDocument (after.chunks .objects stored.id) _ = _
      rw [files]
      exact verified

/-- A commit of any document keeps what has been gathered. -/
theorem Session.Gathers.commit {session : Session} (gathers : session.Gathers offer)
    (id : ObjectID) :
    Session.Gathers ((storageCommit session.1 session.2 id).run session.2).1 offer := by
  have committed := committed_run gathers.upheld id
  have upheld := committed.upheld gathers.upheld
  by_cases isId : id = offer.document.id
  · subst isId
    rcases storageCommit_cases session.1 session.2 offer.document.id with
      ⟨answer, same, -⟩ | ⟨stored, code, found, unfinished, same⟩ |
      ⟨stored, published, publishes, -⟩
    · rw [same]
      exact gathers
    · have before := gathers.known stored found
      have find := find_withState found .verifying
      rw [same] at upheld ⊢
      refine ⟨upheld, fun later known => ?_⟩
      cases find.symm.trans known
      have compatible := before.pending unfinished
      refine ⟨before.fileSize, before.chunkCount, before.records, fun _ => ?_,
        fun finished => by cases finished⟩
      refine ⟨compatible.nonempty, fun other again => ?_, fun other again => ?_⟩
      · cases find.symm.trans again
        exact compatible.began stored found
      · cases find.symm.trans again
        exact compatible.chunks stored found
    · have ours := gathers.publishes publishes.found publishes.unfinished publishes.complete
      have before := gathers.known stored publishes.found
      obtain ⟨disk, run, keeps⟩ := gathers.committed ours
      rw [run] at upheld ⊢
      refine ⟨upheld, fun later known => ?_⟩
      have find := find_withState publishes.found .finished
      cases find.symm.trans known
      exact ⟨before.fileSize, before.chunkCount, before.records,
        fun unfinished => absurd rfl unfinished, fun _ => keeps⟩
  · generalize ((storageCommit session.1 session.2 id).run session.2).1 = after at *
    cases committed with
    | kept => exact gathers
    | @rejected stored found unfinished =>
      exact gathers.frame upheld (find_withState_other found .verifying (Ne.symm isId)) fun _ => rfl
    | @published stored content disk publishes others moved =>
      exact gathers.frame upheld (find_withState_other publishes.found .finished (Ne.symm isId))
        fun area => others _ (Ne.symm isId) area

/-- When every chunk of an offer is there, its commit is answered with a document of its size, and
the content is published. -/
theorem Session.Gathers.finished {session : Session} (gathers : session.Gathers offer)
    (all : ∀ index, index < offer.document.chunkCount → session.Has offer.document.id index) :
    ∃ stored : StoredDocument,
      ((storageCommit session.1 session.2 offer.document.id).run session.2).2 =
        .ok stored.document ∧
      stored.document.chunkCount = offer.document.chunkCount ∧
      ((storageCommit session.1 session.2 offer.document.id).run session.2).1.1.find
        offer.document.id = some (stored.withState .finished) ∧
      Session.Keeps ((storageCommit session.1 session.2 offer.document.id).run session.2).1
        offer.content := by
  obtain ⟨stored, found, -⟩ := all 0 offer.first
  have before := gathers.known stored found
  by_cases finished : stored.state = .finished
  · refine ⟨stored, ?_⟩
    unfold storageCommit
    rw [found]
    dsimp only
    rw [if_pos finished, Call.run_reply]
    refine ⟨rfl, before.chunkCount, ?_, before.published finished⟩
    rw [found]
    exact congrArg some (by rw [← finished]; rfl)
  · have present : ∀ index, index < stored.document.chunkCount →
        (stored.chunk index.toNat).present = true := by
      intro index inside
      rw [before.chunkCount] at inside
      obtain ⟨other, again, present⟩ := all index inside
      cases found.symm.trans again
      exact present
    have complete := StoredDocument.complete_of_present present
    obtain ⟨disk, run, keeps⟩ := gathers.committed (gathers.publishes found finished complete)
    rw [run]
    exact ⟨stored, rfl, before.chunkCount, find_withState found .finished, keeps⟩

end Gathering

/-! ### What messages ask of the storage -/

section Messages

variable [Inet] [Sha256] [Process] [Lz4]

omit [Inet] [Sha256] [Process] [Lz4] in
/-- The call of the storage that the payload of a `STORE` asks for. -/
def storeCall (surroundings : PeerSurroundings) (payload : List UInt8) : Option StorageCall :=
  if payload = [] then none
  else
    let operation := payload.getD 0 0
    if operation = transferStoreBegin then
      (transferDecodeDocument payload transferStoreBegin).toOption.map fun document =>
        .begin surroundings.now document
    else if operation = transferStoreChunk then
      (decodeStoreChunk payload).toOption.map fun chunk => .put chunk
    else if operation = transferStoreCommit then
      (transferDecodeObjectOperation payload transferStoreCommit).toOption.map fun id => .commit id
    else none

/-- A session after a call, if there is one. -/
def Session.after (session : Session) : Option StorageCall → Session
  | none => session
  | some request => ((request.plan session).run session.2).1

omit [Inet] [Process] in
/-- `handle_store` makes the call that the payload asks for. -/
theorem session_storeStatus (service : PeerService) (surroundings : PeerSurroundings)
    (payload : List UInt8) : (storeStatus service surroundings payload).1 =
      service.withSession (service.session.after (storeCall surroundings payload)) := by
  unfold storeStatus storeCall
  split
  · rfl
  · dsimp only
    split
    · cases transferDecodeDocument payload transferStoreBegin <;> rfl
    · split
      · cases decodeStoreChunk payload <;> rfl
      · split
        · cases transferDecodeObjectOperation payload transferStoreCommit with
          | error code => rfl
          | ok id =>
            show _ = service.withSession
              (((StorageCall.commit id).plan service.session).run service.session.2).1
            rw [run_commit_plan]
            dsimp only
            split <;> rfl
        · rfl

omit [Inet] [Sha256] [Process] [Lz4] in
/-- What is asked for can be asked for by a message. -/
theorem admits_storeCall {surroundings : PeerSurroundings} {payload : List UInt8}
    {request : StorageCall} (asked : storeCall surroundings payload = some request) :
    request.Admits := by
  unfold storeCall at asked
  split at asked
  · cases asked
  · dsimp only at asked
    split at asked
    · obtain ⟨document, decoded, rfl⟩ := Option.map_eq_some_iff.mp asked
      refine ⟨payload, ?_⟩
      cases done : transferDecodeDocument payload transferStoreBegin with
      | error code =>
        rw [done] at decoded
        cases decoded
      | ok other =>
        rw [done] at decoded
        cases decoded
        rfl
    · split at asked
      · obtain ⟨chunk, -, rfl⟩ := Option.map_eq_some_iff.mp asked
        trivial
      · split at asked
        · obtain ⟨id, -, rfl⟩ := Option.map_eq_some_iff.mp asked
          trivial
        · cases asked

/-- A call under the id of an offer is one of the offer, or one that is refused. -/
def StorageCall.Offered (offer : Offer) : StorageCall → Prop
  | .begin _ document =>
    document.id = offer.document.id → document.fileSize = offer.document.fileSize
  | .put chunk => chunk.id = offer.document.id → chunk.fault offer.document = none →
    chunk.Belongs offer
  | .commit _ => True

omit [Inet] [Process] in
theorem Session.Gathers.call {offer : Offer} {session : Session} (gathers : session.Gathers offer)
    {request : StorageCall} (admits : request.Admits) (offered : request.Offered offer) :
    Session.Gathers ((request.plan session).run session.2).1 offer := by
  cases request with
  | begin now document => exact gathers.begin now (Admitted.recordable admits) offered
  | put chunk => exact gathers.put offered
  | commit id =>
    rw [run_commit_plan]
    exact gathers.commit id

/-- Whoever sends chunks under the id of an offer sends those of the offer. -/
def PeerAction.Offers (offer : Offer) : PeerAction → Prop
  | .serve surroundings message => message.messageType = .store →
    ∀ request, storeCall surroundings message.payload = some request → request.Offered offer
  | .setCapacity _ => True
  | .crash .. => False

/-- A peer that gathers an offer. -/
structure PeerService.Takes (service : PeerService) (offer : Offer) : Prop where
  sound : service.Sound
  gathers : service.session.Gathers offer

/-- What serving a message does to the session. -/
theorem session_serveConnection (service : PeerService) (surroundings : PeerSurroundings)
    (message : Message) :
    (serveConnection service surroundings message).1.session = service.session ∨
      message.messageType = .store ∧
        (serveConnection service surroundings message).1.session =
          service.session.after (storeCall surroundings message.payload) := by
  unfold serveConnection
  split
  · exact Or.inl rfl
  · split
    · exact Or.inl rfl
    · rename_i kind
      refine Or.inr ⟨kind, ?_⟩
      unfold handleStore
      dsimp only
      rw [session_storeStatus]
      rfl
    · unfold handleDownload
      cases transferDecodeChunkRequest message.payload <;> exact Or.inl rfl
    · exact Or.inl rfl
    · exact Or.inl rfl

/-- A peer that gathers an offer goes on to do so. -/
theorem PeerService.Takes.step {offer : Offer} {service next : PeerService}
    (takes : service.Takes offer) {action : PeerAction} (offers : action.Offers offer)
    (stepped : peerStep service action = some next) : next.Takes offer := by
  cases action with
  | serve surroundings message =>
    cases stepped
    refine ⟨takes.sound.served (served_serveConnection service surroundings message), ?_⟩
    rcases session_serveConnection service surroundings message with same | ⟨kind, same⟩
    · rw [same]
      exact takes.gathers
    · rw [same]
      cases asked : storeCall surroundings message.payload with
      | none => exact takes.gathers
      | some request =>
        exact takes.gathers.call (admits_storeCall asked) (offers kind request asked)
  | setCapacity capacityBytes =>
    cases stepped
    have admissible : (PeerAction.setCapacity capacityBytes).Admissible service := trivial
    exact ⟨takes.sound.step admissible rfl, takes.gathers⟩
  | crash => cases offers

omit [Inet] [Process] in
/-- Serving a message loses nothing. -/
theorem PeerService.Sound.keeps_served {service next : PeerService} (sound : service.Sound)
    (served : service.Served next) (id : ObjectID) :
    Keeps (service.session.1.find id) (next.session.1.find id) := by
  cases served with
  | beat heartbeat => exact Keeps.refl _
  | called admits =>
    obtain ⟨acted, acts⟩ := acts_plan sound.settled (admits.recordable service.session)
    obtain ⟨-, completed, -, keeps⟩ := acts.run sound.settled
    exact completed ▸ keeps id
  | read => exact Keeps.refl _

/-- Nor does anything else that a peer does without a crash. -/
theorem PeerService.Takes.keeps {offer : Offer} {service next : PeerService}
    (takes : service.Takes offer) {action : PeerAction} (offers : action.Offers offer)
    (stepped : peerStep service action = some next) (id : ObjectID) :
    Keeps (service.session.1.find id) (next.session.1.find id) := by
  cases action with
  | serve surroundings message =>
    cases stepped
    exact takes.sound.keeps_served (served_serveConnection service surroundings message) id
  | setCapacity capacityBytes =>
    cases stepped
    exact Keeps.refl _
  | crash => cases offers

omit [Inet] [Process] in
/-- A peer on an empty tree gathers whatever is offered. -/
theorem PeerService.Fresh.takes {service : PeerService} (fresh : service.Fresh) (offer : Offer) :
    service.Takes offer := by
  obtain ⟨owner, pid, isSession⟩ := fresh.session
  have upheld : Upheld service.session := by
    rw [isSession]
    exact ⟨fun _ _ => rfl, fun _ _ wrong => by cases wrong⟩
  refine ⟨fresh.sound, Session.gathers_of_unknown upheld ?_⟩
  rw [isSession]
  rfl

/-- It goes on to do so as long as whoever sends chunks under the id of the offer sends those of
the offer. -/
theorem takes_of_reaches {offer : Offer} {first service : PeerService} (fresh : first.Fresh)
    (reached : Transition.Reaches peerStep (fun _ action => action.Offers offer) first service) :
    service.Takes offer := by
  induction reached with
  | refl => exact fresh.takes offer
  | tail _ action offers stepped inductionHypothesis =>
    exact inductionHypothesis.step offers stepped

end Messages

end SuperPeerNet
