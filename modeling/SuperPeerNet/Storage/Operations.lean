/-
This file models the calls of `storage.h` that upload, publish, expose and reload
documents; the cache of chunks has a file of its own.

A call that changes something is given by its durable steps, its answer, and the
memory of the process when all the steps have succeeded and when one of them has
failed. The checks of a call and the steps it takes are decided under the mutex of the
storage or of the document and the documents of a process are never removed, so a call
is one action on the memory and the tree. File operations fail only for what the tree
itself makes impossible.
-/

import SuperPeerNet.Library.KeyedList
import SuperPeerNet.Storage.Manifest

namespace SuperPeerNet

/-! ### Storages and calls -/

/-- The documents of `struct Storage`, with its owner and the id of its process. -/
structure Storage where
  owner : NodeID
  pid : Nat
  documents : List StoredDocument

namespace Storage

/-- `find_document`. -/
def find (storage : Storage) (id : ObjectID) : Option StoredDocument :=
  KeyedList.lookup StoredDocument.id storage.documents id

/-- Put a document at the head of the list. -/
def insert (storage : Storage) (stored : StoredDocument) : Storage :=
  { storage with documents := stored :: storage.documents }

/-- Change a document in its place. -/
def update (storage : Storage) (stored : StoredDocument) : Storage :=
  { storage with
    documents := KeyedList.modify StoredDocument.id (fun _ => stored) stored.id storage.documents }

theorem find_id {storage : Storage} {id : ObjectID} {stored : StoredDocument}
    (found : storage.find id = some stored) : stored.id = id :=
  KeyedList.lookup_key found

theorem find_insert (storage : Storage) (stored : StoredDocument) (id : ObjectID) :
    (storage.insert stored).find id = if stored.id = id then some stored else storage.find id := by
  rw [find, insert, KeyedList.lookup, List.find?_cons]
  split
  · rename_i same
    rw [if_pos (of_decide_eq_true same)]
  · rename_i different
    rw [if_neg (of_decide_eq_false different)]
    rfl

theorem find_update {storage : Storage} {id : ObjectID} {old stored : StoredDocument}
    (found : storage.find id = some old) (same : stored.id = id) (other : ObjectID) :
    (storage.update stored).find other =
      if other = id then some stored else storage.find other := by
  subst same
  rw [find, update, KeyedList.lookup_modify fun _ _ => rfl]
  split
  · rename_i isId
    rw [isId, show KeyedList.lookup StoredDocument.id storage.documents stored.id = some old
      from found]
    rfl
  · rfl

theorem update_self {storage : Storage} {stored : StoredDocument}
    (found : storage.find stored.id = some stored) : storage.update stored = storage := by
  rw [update, KeyedList.modify_self found]

theorem update_update (storage : Storage) {first second : StoredDocument}
    (same : first.id = second.id) :
    (storage.update first).update second = storage.update second := by
  rw [update, update, update, same, KeyedList.modify_modify same]

end Storage

/-- A call on a storage: its durable steps, its answer and the memory after all of them, and the
memory when one of them has failed. -/
structure Call (Answer : Type) where
  steps : List DiskStep
  answer : Except Errno Answer
  completed : Storage
  abandoned : Storage

namespace Call

variable {Answer : Type}

/-- A call that only answers. -/
def reply (storage : Storage) (answer : Except Errno Answer) : Call Answer :=
  ⟨[], answer, storage, storage⟩

/-- Run a call to its end. -/
def run (call : Call Answer) (disk : Disk) : (Storage × Disk) × Except Errno Answer :=
  match execute call.steps disk with
  | (disk, .ok _) => ((call.completed, disk), call.answer)
  | (disk, .error code) => ((call.abandoned, disk), .error code)

@[simp] theorem run_reply (storage : Storage) (answer : Except Errno Answer) (disk : Disk) :
    (reply storage answer).run disk = ((storage, disk), answer) := rfl

theorem run_of_execute {call : Call Answer} {disk next : Disk}
    (taken : execute call.steps disk = (next, .ok ())) :
    call.run disk = ((call.completed, next), call.answer) := by
  rw [run, taken]

theorem run_disk (call : Call Answer) (disk : Disk) :
    (call.run disk).1.2 = (execute call.steps disk).1 := by
  unfold run
  split
  · rename_i taken
    rw [taken]
  · rename_i failed
    rw [failed]

/-- A call ends with one of its two memories. -/
theorem run_keeps {property : Storage → Prop} {call : Call Answer} {disk : Disk}
    (completed : property call.completed) (abandoned : property call.abandoned) :
    property (call.run disk).1.1 := by
  unfold run
  split
  · exact completed
  · exact abandoned

end Call

/-! ### Uploading -/

/-- A `TransferChunk` as it is handed over: its data have the size that it says. -/
structure CarriedChunk extends TransferChunk where
  carried : data.length = compressedSize.toNat

/-- The record of a document that begins. -/
def beginDocument (storage : Storage) (now : UInt64) (document : TransferDocument) :
    StoredDocument where
  document := document
  owner := storage.owner
  uploadedAt := now
  state := .created
  chunks := List.replicate document.chunkCount.toNat .blank
  sized := List.length_replicate

/-- `storage_begin`, at the given time. -/
def storageBegin (storage : Storage) (now : UInt64) (document : TransferDocument) : Call Unit :=
  if contentPdfName document.name = false ∨ document.compression ≠ compressionLz4 ∨
      document.chunkCount = 0 ∨ document.chunkCount.toNat > maxStoredChunks then
    .reply storage (.error .einval)
  else match storage.find document.id with
    | some stored =>
      if stored.document.fileSize = document.fileSize ∧
          stored.document.chunkCount = document.chunkCount then .reply storage (.ok ())
      else .reply storage (.error .eexist)
    | none =>
      let stored := beginDocument storage now document
      { steps := .makeDirectory .pending document.id :: writeManifest storage.pid stored .pending
        answer := .ok ()
        completed := storage.insert stored
        abandoned := storage }

/-- The record that a chunk leaves in the table. -/
def CarriedChunk.record (chunk : CarriedChunk) : StoredChunk :=
  ⟨chunk.index, chunk.offset, chunk.rawSize, chunk.compressedSize, chunk.hash, true⟩

/-- The comparison of a repeated chunk with the record of the first. -/
def CarriedChunk.matches (chunk : CarriedChunk) (record : StoredChunk) : Prop :=
  record.present = true ∧ record.rawSize = chunk.rawSize ∧
    record.compressedSize = chunk.compressedSize ∧ record.hash = chunk.hash

instance (chunk : CarriedChunk) (record : StoredChunk) : Decidable (chunk.matches record) :=
  inferInstanceAs (Decidable (_ ∧ _))

/-- A document with a chunk that has arrived. -/
def StoredDocument.receive (stored : StoredDocument) (chunk : CarriedChunk) : StoredDocument :=
  (stored.setChunk chunk.index.toNat chunk.record).withState .transferring

/-- The durable steps that receive a chunk. -/
def receiveSteps (pid : Nat) (stored : StoredDocument) (chunk : CarriedChunk) : List DiskStep :=
  [.write .pending stored.id (.chunkTemporary chunk.index pid) chunk.data,
    .rename .pending stored.id (.chunkTemporary chunk.index pid) (.chunk chunk.index)] ++
    writeManifest pid (stored.receive chunk) .pending

section Content

variable [Sha256] [Lz4]

/-- The checks of `storage_put_chunk` on the chunk itself. -/
def CarriedChunk.intact (chunk : CarriedChunk) : Bool :=
  match compressionLz4Bound chunk.rawSize.toNat with
  | .error _ => false
  | .ok bound => chunk.compressedSize.toNat ≤ bound &&
    (chunkContent chunk.data chunk.rawSize chunk.hash).isOk

/-- `storage_put_chunk`. A chunk of a published document and one that is present are only
compared with their records. -/
def storagePutChunk (storage : Storage) (chunk : CarriedChunk) : Call Unit :=
  if chunk.intact = false then .reply storage (.error .ebadmsg)
  else match storage.find chunk.id with
    | none => .reply storage (.error .enoent)
    | some stored =>
      if chunk.index ≥ stored.document.chunkCount ∨
          chunk.index > 0xffffffffffffffff / metadataChunkSize then
        .reply storage (.error .einval)
      else if chunk.offset ≠ chunk.index * metadataChunkSize ∨
          chunk.rawSize ≠ expectedSize stored.document.fileSize chunk.index then
        .reply storage (.error .einval)
      else
        let record := stored.chunk chunk.index.toNat
        if stored.state = .finished ∨ record.present = true then
          .reply storage (if chunk.matches record then .ok () else .error .eexist)
        else
          { steps := receiveSteps storage.pid stored chunk
            answer := .ok ()
            completed := storage.update (stored.receive chunk)
            abandoned := storage }

/-- `storage_commit`. The final manifest is written in `pending` before the directory is
published. -/
def storageCommit (storage : Storage) (disk : Disk) (id : ObjectID) : Call TransferDocument :=
  match storage.find id with
  | none => .reply storage (.error .enoent)
  | some stored =>
    if stored.state = .finished then .reply storage (.ok stored.document)
    else if stored.chunks.any (fun record => !record.present) then
      .reply storage (.error .enodata)
    else
      let verifying := stored.withState .verifying
      match verifyDocument (disk.chunks .pending id) verifying with
      | .error code => .reply (storage.update verifying) (.error code)
      | .ok _ =>
        { steps := writeManifest storage.pid verifying .pending ++ [.publish id]
          answer := .ok stored.document
          completed := storage.update (stored.withState .finished)
          abandoned := storage.update verifying }

/-! ### What a call can do -/

/-- A begin that creates a document. -/
structure Creates (storage : Storage) (document : TransferDocument) : Prop where
  name : contentPdfName document.name = true
  compression : document.compression = compressionLz4
  nonempty : document.chunkCount ≠ 0
  few : document.chunkCount.toNat ≤ maxStoredChunks
  unknown : storage.find document.id = none

omit [Sha256] [Lz4] in
/-- A begin only answers, or it creates a document. -/
theorem storageBegin_cases (storage : Storage) (now : UInt64) (document : TransferDocument) :
    (∃ answer, storageBegin storage now document = .reply storage answer ∧
      (answer = .ok () → (storage.find document.id).isSome)) ∨
    Creates storage document ∧ storageBegin storage now document =
      { steps := .makeDirectory .pending document.id ::
          writeManifest storage.pid (beginDocument storage now document) .pending
        answer := .ok ()
        completed := storage.insert (beginDocument storage now document)
        abandoned := storage } := by
  unfold storageBegin
  split
  · exact Or.inl ⟨_, rfl, fun wrong => by cases wrong⟩
  · rename_i checked
    simp only [not_or, not_not, not_lt, Bool.not_eq_false] at checked
    obtain ⟨name, compression, nonempty, few⟩ := checked
    cases found : storage.find document.id with
    | some stored =>
      left
      simp only
      split
      · exact ⟨_, rfl, fun _ => rfl⟩
      · exact ⟨_, rfl, fun wrong => by cases wrong⟩
    | none => exact Or.inr ⟨⟨name, compression, nonempty, few, found⟩, rfl⟩

/-- A put that receives a chunk of a document. -/
structure Receives (storage : Storage) (chunk : CarriedChunk) (stored : StoredDocument) :
    Prop where
  intact : chunk.intact = true
  found : storage.find chunk.id = some stored
  inside : chunk.index < stored.document.chunkCount
  offset : chunk.offset = chunk.index * metadataChunkSize
  rawSize : chunk.rawSize = expectedSize stored.document.fileSize chunk.index
  unfinished : stored.state ≠ .finished
  absent : (stored.chunk chunk.index.toNat).present = false

/-- A put only answers, or it receives a chunk. -/
theorem storagePutChunk_cases (storage : Storage) (chunk : CarriedChunk) :
    (∃ answer, storagePutChunk storage chunk = .reply storage answer ∧ (answer = .ok () →
      ∃ stored, storage.find chunk.id = some stored ∧ chunk.index < stored.document.chunkCount ∧
        chunk.matches (stored.chunk chunk.index.toNat))) ∨
    ∃ stored, Receives storage chunk stored ∧ storagePutChunk storage chunk =
      { steps := receiveSteps storage.pid stored chunk
        answer := .ok ()
        completed := storage.update (stored.receive chunk)
        abandoned := storage } := by
  unfold storagePutChunk
  split
  · exact Or.inl ⟨_, rfl, fun wrong => by cases wrong⟩
  · rename_i intact
    cases found : storage.find chunk.id with
    | none => exact Or.inl ⟨_, rfl, fun wrong => by cases wrong⟩
    | some stored =>
      simp only
      split
      · exact Or.inl ⟨_, rfl, fun wrong => by cases wrong⟩
      · rename_i inside
        rw [not_or, ge_iff_le, UInt64.not_le] at inside
        split
        · exact Or.inl ⟨_, rfl, fun wrong => by cases wrong⟩
        · rename_i placed
          rw [not_or, not_not, not_not] at placed
          split
          · refine Or.inl ⟨_, rfl, fun accepted => ⟨stored, rfl, inside.1, ?_⟩⟩
            split at accepted
            · assumption
            · cases accepted
          · rename_i fresh
            rw [not_or, Bool.not_eq_true] at fresh
            exact Or.inr ⟨stored, ⟨Bool.eq_true_of_not_eq_false intact, found, inside.1, placed.1,
              placed.2, fresh.1, fresh.2⟩, rfl⟩

/-- A commit that publishes a document. -/
structure Publishes (storage : Storage) (disk : Disk) (id : ObjectID) (stored : StoredDocument)
    (content : List UInt8) : Prop where
  found : storage.find id = some stored
  unfinished : stored.state ≠ .finished
  complete : ∀ record ∈ stored.chunks, record.present = true
  verified : verifyDocument (disk.chunks .pending id) (stored.withState .verifying) = .ok content

/-- A commit only answers, or it leaves a document that does not verify in the state `VERIFYING`,
or it publishes a document. -/
theorem storageCommit_cases (storage : Storage) (disk : Disk) (id : ObjectID) :
    (∃ answer, storageCommit storage disk id = .reply storage answer ∧ ∀ document,
      answer = .ok document → ∃ stored, storage.find id = some stored ∧ stored.state = .finished) ∨
    (∃ stored code, storage.find id = some stored ∧ stored.state ≠ .finished ∧
      storageCommit storage disk id =
        .reply (storage.update (stored.withState .verifying)) (.error code)) ∨
    ∃ stored content, Publishes storage disk id stored content ∧ storageCommit storage disk id =
      { steps := writeManifest storage.pid (stored.withState .verifying) .pending ++ [.publish id]
        answer := .ok stored.document
        completed := storage.update (stored.withState .finished)
        abandoned := storage.update (stored.withState .verifying) } := by
  unfold storageCommit
  cases found : storage.find id with
  | none => exact Or.inl ⟨_, rfl, fun _ wrong => by cases wrong⟩
  | some stored =>
    simp only
    split
    · rename_i finished
      exact Or.inl ⟨_, rfl, fun _ _ => ⟨stored, rfl, finished⟩⟩
    · rename_i unfinished
      split
      · exact Or.inl ⟨_, rfl, fun _ wrong => by cases wrong⟩
      · rename_i complete
        right
        cases verified : verifyDocument (disk.chunks .pending id) (stored.withState .verifying) with
        | error code => exact Or.inl ⟨stored, code, rfl, unfinished, rfl⟩
        | ok content =>
          refine Or.inr ⟨stored, content, ⟨found, unfinished, ?_, verified⟩, rfl⟩
          intro record member
          by_contra absent
          refine complete (List.any_eq_true.mpr ⟨record, member, ?_⟩)
          rw [Bool.eq_false_of_not_eq_true absent]
          rfl

end Content

/-! ### Exposing documents -/

/-- `TransferSelectorType` with its operand. -/
inductive TransferSelector where
  | objectId (id : ObjectID)
  | name (name : List UInt8)

/-- Whether a document is selected. -/
def TransferSelector.selects (selector : TransferSelector) (stored : StoredDocument) : Bool :=
  match selector with
  | .objectId wanted => stored.id = wanted
  | .name wanted => stored.document.name = wanted

/-- One turn of the loop of `storage_find`. -/
def findTurn (selector : TransferSelector) (found : Option StoredDocument)
    (current : StoredDocument) : Except Errno (Option StoredDocument) :=
  if selector.selects current = true ∧ current.state = .finished then
    match found with
    | some earlier => if earlier.id ≠ current.id then .error .enotuniq else .ok (some current)
    | none => .ok (some current)
  else .ok found

/-- `storage_find`. -/
def storageFind (storage : Storage) (selector : TransferSelector) : Except Errno TransferDocument :=
  match storage.documents.foldlM (findTurn selector) none with
  | .error code => .error code
  | .ok none => .error .enoent
  | .ok (some found) => .ok found.document

/-- `storage_list`. -/
def storageList (storage : Storage) : List TransferDocument :=
  (storage.documents.filter fun stored => stored.state = .finished).map StoredDocument.document

/-- `storage_descriptors`. -/
def storageDescriptors (storage : Storage) (id : ObjectID) : Except Errno (List MetadataChunk) :=
  match storage.find id with
  | none => .error .enoent
  | some stored =>
    if stored.state ≠ .finished then .error .enodata
    else .ok (stored.chunks.mapIdx fun index record =>
      ⟨UInt64.ofNat index, record.offset, record.rawSize, record.compressedSize, record.hash⟩)

/-- The first section of `storage_read_chunk`: the record of a chunk of a published document. -/
def publishedChunk (storage : Storage) (id : ObjectID) (index : UInt64) :
    Except Errno StoredChunk :=
  match storage.find id with
  | none => .error .enoent
  | some stored =>
    if stored.state ≠ .finished ∨ index ≥ stored.document.chunkCount then .error .enoent
    else .ok (stored.chunk index.toNat)

/-- The chunk that a record and its bytes make. -/
def StoredChunk.filled (record : StoredChunk) (id : ObjectID) (data : List UInt8) :
    TransferChunk where
  id := id
  index := record.index
  offset := record.offset
  rawSize := record.rawSize
  compressedSize := record.compressedSize
  hash := record.hash
  data := data

/-- The file access of `storage_read_chunk`: the chunk that a record describes. -/
def fetchChunk (disk : Disk) (id : ObjectID) (index : UInt64) (record : StoredChunk) :
    Except Errno TransferChunk :=
  match readAll (disk.chunks .objects id index) record.compressedSize.toNat with
  | .error code => .error code
  | .ok data => .ok (record.filled id data)

/-- `storage_read_chunk` without a cache. -/
def readChunk (storage : Storage) (disk : Disk) (id : ObjectID) (index : UInt64) :
    Except Errno TransferChunk :=
  match publishedChunk storage id index with
  | .error code => .error code
  | .ok record => fetchChunk disk id index record

/-! ### Reloading -/

section Reload

variable [Sha256] [Lz4]

/-- One entry of the loop of `load_documents`. A manifest that cannot be read, that is in a
directory of another name or whose document is known already is skipped, and a published manifest
that says `VERIFYING` is written again. -/
def loadEntry (area : Area) (state : Storage × Disk) (id : ObjectID) :
    Except Errno (Storage × Disk) :=
  match readManifest state.2 area id with
  | .error _ => .ok state
  | .ok stored =>
    if stored.id ≠ id ∨ (state.1.find stored.id).isSome then .ok state
    else if area = .objects then
      let finished := stored.withState .finished
      if stored.state = .verifying then
        match execute (writeManifest state.1.pid finished .objects) state.2 with
        | (_, .error code) => .error code
        | (disk, .ok _) => .ok (state.1.insert finished, disk)
      else .ok (state.1.insert finished, state.2)
    else .ok (state.1.insert stored, state.2)

/-- `load_documents`, over the entries of a directory in the order of `readdir`. -/
def loadDocuments (area : Area) (entries : List ObjectID) (state : Storage × Disk) :
    Except Errno (Storage × Disk) :=
  entries.foldlM (loadEntry area) state

/-- `storage_create`, over the entries of `objects` and of `pending`. -/
def storageCreate (owner : NodeID) (pid : Nat) (disk : Disk) (objects pending : List ObjectID) :
    Except Errno (Storage × Disk) := do
  let published ← loadDocuments .objects objects (⟨owner, pid, []⟩, disk)
  loadDocuments .pending pending published

end Reload

end SuperPeerNet
