/-
This file proves that a manifest gives back the document it was written from.

The format is taken apart along the reader: each field reads back what was written
for it, the checks of the reader hold of the fields of a sound document, and the table
is read back record by record. A sound document is what uploads make: a document that
can be recorded, with a table of blank records and of records that fit their chunks.
-/

import SuperPeerNet.Storage.Session

namespace SuperPeerNet

open Reading

/-! ### The fields of a manifest -/

theorem reads_u64 (value : UInt64) : Reads readU64 (wirePutU64 value) value := by
  have taken : Reads (take Errno.ebadmsg 8) (wirePutU64 value) (wirePutU64 value) :=
    Reads.take (length_wirePutU64 value)
  have read := taken.map wireGetU64
  have written := wireGetU64_wirePutU64 value []
  rw [List.append_nil] at written
  rw [written] at read
  exact read

theorem reads_u32 (value : UInt32) : Reads readU32 (wirePutU32 value) value := by
  have taken : Reads (take Errno.ebadmsg 4) (wirePutU32 value) (wirePutU32 value) :=
    Reads.take (length_wirePutU32 value)
  have read := taken.map wireGetU32
  have written := wireGetU32_wirePutU32 value []
  rw [List.append_nil] at written
  rw [written] at read
  exact read

theorem reads_u16 (value : UInt16) : Reads readU16 (wirePutU16 value) value := by
  have taken : Reads (take Errno.ebadmsg 2) (wirePutU16 value) (wirePutU16 value) :=
    Reads.take (length_wirePutU16 value)
  have read := taken.map wireGetU16
  have written := wireGetU16_wirePutU16 value []
  rw [List.append_nil] at written
  rw [written] at read
  exact read

theorem reads_u8 (value : UInt8) : Reads readU8 [value] value := by
  have taken : Reads (take Errno.ebadmsg 1) [value] [value] := Reads.take rfl
  exact taken.map fun bytes => bytes.getD 0 0

theorem reads_octets {size : Nat} (octets : Octets size) :
    Reads (readOctets size) octets.toList octets := by
  have taken : Reads (take Errno.ebadmsg size) octets.toList octets.toList :=
    Reads.take octets.length_toList
  have read := taken.map (Octets.read size)
  rw [Octets.read_toList] at read
  exact read

/-- A document that can be recorded is read back. -/
theorem reads_document {document : TransferDocument} (recordable : document.Recordable)
    (few : document.chunkCount.toNat ≤ maxStoredChunks) :
    Reads readDocument (documentBytes document) document := by
  have short : document.name.length < 2 ^ 16 :=
    lt_trans recordable.short (by decide)
  have nameSize : (UInt16.ofNat document.name.length).toNat = document.name.length := by
    rw [UInt16.toNat_ofNat']
    exact Nat.mod_eq_of_lt short
  have nonempty : UInt16.ofNat document.name.length ≠ 0 := by
    intro zero
    rw [zero] at nameSize
    exact recordable.nonempty (List.length_eq_zero_iff.mp nameSize.symm)
  have name : Reads (take Errno.ebadmsg (UInt16.ofNat document.name.length).toNat)
      document.name document.name := Reads.take nameSize.symm
  unfold readDocument documentBytes
  refine Reads.bind (Reads.take rfl) (Reads.ensured rfl ?_)
  refine Reads.bind (reads_u32 _) (Reads.ensured rfl ?_)
  refine Reads.bind (reads_octets _) (Reads.bind (reads_u64 _) (Reads.bind (reads_u64 _) ?_))
  refine Reads.ensured ⟨recordable.count, few⟩ ?_
  refine Reads.bind (reads_u8 _) (Reads.ensured recordable.compression ?_)
  refine Reads.bind (reads_u16 _) (Reads.ensured ⟨nonempty, ?_⟩ ?_)
  · rw [nameSize]
    exact recordable.short
  · refine Reads.last name ?_
    exact Reads.ensured ⟨recordable.terminated, recordable.plain⟩ (Reads.pure _)

theorem reads_state {area : Area} {state : TransferState} (accepted : stateAccepted area state) :
    Reads (readState area) [state.number] state := by
  refine Reads.last (reads_u8 state.number) ?_
  rw [TransferState.ofByte_number]
  exact Reads.ensured accepted (Reads.pure state)

/-! ### Sound documents -/

section Sound

variable [Lz4]

/-- The record of a present chunk fits its place in the document. -/
structure StoredChunk.Fits (record : StoredChunk) (document : TransferDocument) (index : UInt64) :
    Prop where
  present : record.present = true
  number : record.index = index
  offset : record.offset = index * metadataChunkSize
  rawSize : record.rawSize = expectedSize document.fileSize index
  bound : withinBound record.rawSize record.compressedSize = true

/-- A document as uploads make it. -/
structure StoredDocument.Sound (stored : StoredDocument) : Prop where
  recordable : stored.document.Recordable
  few : stored.document.chunkCount.toNat ≤ maxStoredChunks
  records : ∀ (position : Nat) (record : StoredChunk), stored.chunks[position]? = some record →
    record = .blank ∨ record.Fits stored.document (UInt64.ofNat position)

theorem StoredDocument.Sound.withState {stored : StoredDocument} (sound : stored.Sound)
    (state : TransferState) : (stored.withState state).Sound :=
  ⟨sound.recordable, sound.few, sound.records⟩

/-- The files that the table of a document speaks of have the recorded sizes. -/
def StoredDocument.Backed (stored : StoredDocument) (files : UInt64 → Option (List UInt8)) : Prop :=
  ∀ (position : Nat) (record : StoredChunk), stored.chunks[position]? = some record →
    record.present = true →
    (files (UInt64.ofNat position)).map List.length = some record.compressedSize.toNat

/-- A record that fits its place, or is blank, is read back. -/
theorem reads_record {file : Option (List UInt8)} {area : Area} {document : TransferDocument}
    {index : UInt64} {record : StoredChunk} (shape : record = .blank ∨ record.Fits document index)
    (published : area = .objects → record.present = true)
    (backed : record.present = true →
      file.map List.length = some record.compressedSize.toNat) :
    Reads (readRecord file area document index) (recordBytes record) record := by
  unfold readRecord recordBytes
  refine Reads.bind (reads_u64 _) (Reads.bind (reads_u64 _) (Reads.bind (reads_u32 _)
    (Reads.bind (reads_u32 _) (Reads.bind (reads_octets _) (Reads.last (reads_u8 _) ?_)))))
  rcases shape with rfl | fits
  · refine Reads.ensured ⟨UInt8.zero_le, ?_⟩ (Reads.ensured ?_ (Reads.pure _))
    · rintro ⟨isObjects, -⟩
      cases published isObjects
    · exact ⟨rfl, rfl, rfl, rfl⟩
  · obtain ⟨number, offset, rawSize, compressedSize, hash, present⟩ := record
    obtain rfl : present = true := fits.present
    refine Reads.ensured ⟨UInt8.le_refl 1, ?_⟩ (Reads.ensured ?_ (Reads.pure _))
    · rintro ⟨-, zero⟩
      cases zero
    · exact ⟨fits.number, fits.offset, fits.rawSize, fits.bound, backed rfl⟩

/-- The manifest of a sound document is read back, where the area accepts its state. -/
theorem reads_stored {stored : StoredDocument} (sound : stored.Sound) {disk : Disk} {area : Area}
    (backed : stored.Backed (disk.chunks area stored.id))
    (accepted : stateAccepted area (writtenState stored.state))
    (published : area = .objects → ∀ record ∈ stored.chunks, record.present = true) :
    Reads (readStored disk area) (manifestBytes stored)
      (stored.withState (writtenState stored.state)) := by
  unfold readStored manifestBytes
  refine Reads.bind (reads_document sound.recordable sound.few) ?_
  refine Reads.bind (reads_octets _) (Reads.bind (reads_u64 _) ?_)
  refine Reads.bind (reads_state accepted) (Reads.last (Reads.table stored.sized ?_) (Reads.pure _))
  intro position record found
  rw [Nat.zero_add]
  exact reads_record (sound.records position record found)
    (fun isObjects => published isObjects record (List.mem_of_getElem? found))
    (backed position record found)

/-- The header of a manifest that says `FINISHED` is not accepted in `pending`. -/
theorem readStored_torn {stored : StoredDocument} (sound : stored.Sound) (disk : Disk)
    (torn : writtenState stored.state = .finished) :
    readStored disk .pending (manifestBytes stored) = .error .ebadmsg := by
  unfold readStored manifestBytes
  rw [(reads_document sound.recordable sound.few).run_bind, (reads_octets _).run_bind,
    (reads_u64 _).run_bind, torn]
  rfl

end Sound

/-! ### Reading a manifest -/

section ReadManifest

variable [Sha256] [Lz4] {stored : StoredDocument} {disk : Disk}

/-- The manifest of a document that is not published. -/
theorem readManifest_pending (sound : stored.Sound)
    (manifest : disk.file .pending stored.id .manifest = some (manifestBytes stored))
    (backed : stored.Backed (disk.chunks .pending stored.id))
    (unfinished : writtenState stored.state ≠ .finished) :
    readManifest disk .pending stored.id =
      .ok (stored.withState (writtenState stored.state)) := by
  have read := reads_stored sound backed (decide_eq_true unfinished)
    (fun wrong => by cases wrong) []
  rw [List.append_nil] at read
  unfold readManifest
  rw [manifest]
  simp only [read]
  rfl

/-- The manifest of a published document. -/
theorem readManifest_objects (sound : stored.Sound)
    (manifest : disk.file .objects stored.id .manifest = some (manifestBytes stored))
    (backed : stored.Backed (disk.chunks .objects stored.id))
    (finished : writtenState stored.state = .finished)
    (complete : ∀ record ∈ stored.chunks, record.present = true) {content : List UInt8}
    (verified : verifyDocument (disk.chunks .objects stored.id) stored = .ok content) :
    readManifest disk .objects stored.id = .ok (stored.withState .finished) := by
  have accepted : stateAccepted .objects (writtenState stored.state) = true := by
    rw [finished]
    rfl
  have read := reads_stored sound backed accepted (fun _ => complete) []
  rw [List.append_nil, finished] at read
  have same : verifyDocument (disk.chunks .objects (stored.withState .finished).id)
      (stored.withState .finished) = .ok content := verified
  unfold readManifest
  rw [manifest]
  simp only [read, same]
  rfl

/-- A manifest that says `FINISHED` in `pending` is lost. -/
theorem readManifest_torn (sound : stored.Sound)
    (manifest : disk.file .pending stored.id .manifest = some (manifestBytes stored))
    (torn : writtenState stored.state = .finished) :
    readManifest disk .pending stored.id = .error .ebadmsg := by
  unfold readManifest
  rw [manifest]
  simp only [readStored_torn sound disk torn]

end ReadManifest

/-! ### Writing a manifest -/

/-- The directory of a document after its manifest has been written. -/
def Directory.written (directory : Directory) (pid : Nat) (stored : StoredDocument) : Directory :=
  (directory.set (.manifestTemporary pid) none).set .manifest (some (manifestBytes stored))

/-- Writing a manifest makes the directory if it is not there, and succeeds. -/
theorem execute_writeManifest (pid : Nat) (stored : StoredDocument) (area : Area) (disk : Disk) :
    execute (writeManifest pid stored area) disk =
      (disk.set area stored.id
        (some (((disk area stored.id).getD .empty).written pid stored)), .ok ()) := by
  rw [writeManifest, execute_cons (DiskStep.apply_makeDirectory disk area stored.id),
    execute_replace (Disk.set_same ..), Disk.set_set]
  rfl

/-! ### Uploads keep documents sound -/

section Uploads

variable [Sha256] [Lz4]

omit [Sha256] in
theorem sound_beginDocument {document : TransferDocument} (recordable : document.Recordable)
    {storage : Storage} (creates : Creates storage document) (now : UInt64) :
    (beginDocument storage now document).Sound := by
  refine ⟨recordable, creates.few, fun position record found => Or.inl ?_⟩
  exact List.eq_of_mem_replicate (List.mem_of_getElem? found)

theorem withinBound_of_intact {chunk : CarriedChunk} (intact : chunk.intact = true) :
    withinBound chunk.rawSize chunk.compressedSize = true := by
  unfold CarriedChunk.intact at intact
  unfold withinBound
  cases bounded : compressionLz4Bound chunk.rawSize.toNat with
  | error code =>
    rw [bounded] at intact
    cases intact
  | ok bound =>
    rw [bounded] at intact
    simp only [Bool.and_eq_true, decide_eq_true_eq] at intact ⊢
    refine ⟨fun zero => ?_, intact.1⟩
    have decompressed := intact.2
    unfold chunkContent at decompressed
    cases raw : compressionLz4Decompress chunk.data chunk.rawSize.toNat with
    | error code =>
      rw [raw] at decompressed
      cases decompressed
    | ok output =>
      refine (compressionLz4Decompress_ok raw).1 ?_
      rw [chunk.carried, zero]
      rfl

theorem StoredDocument.Sound.receive {stored : StoredDocument} (sound : stored.Sound)
    {storage : Storage} {chunk : CarriedChunk} (receives : Receives storage chunk stored) :
    (stored.receive chunk).Sound := by
  refine ⟨sound.recordable, sound.few, fun position record found => ?_⟩
  have table : (stored.receive chunk).chunks = stored.chunks.set chunk.index.toNat chunk.record :=
    rfl
  rw [table, List.getElem?_set] at found
  split at found
  · rename_i same
    right
    split at found
    · cases found
      have index : UInt64.ofNat position = chunk.index := by
        rw [← same, UInt64.ofNat_toNat]
      rw [index]
      exact ⟨rfl, rfl, receives.offset, receives.rawSize, withinBound_of_intact receives.intact⟩
    · cases found
  · exact sound.records position record found

/-- The calls of an upload, up to its commit. -/
def StorageAction.Uploads (_ : Session) : StorageAction → Prop
  | .call (.begin _ document) => Admitted document
  | .call (.put _) => True
  | .call (.commit _) => False
  | .crash .. => False

/-- A document that is sound and in one of the states of an upload. -/
def StoredDocument.Uploading (stored : StoredDocument) : Prop :=
  stored.Sound ∧ (stored.state = .created ∨ stored.state = .transferring)

/-- Every document of a storage is uploading. -/
def Storage.Uploading (storage : Storage) : Prop :=
  ∀ stored ∈ storage.documents, stored.Uploading

/-- The calls of an upload leave documents that are sound and in one of its states. -/
theorem uploading_sessionStep {session next : Session} {action : StorageAction}
    (uploads : action.Uploads session) (stepped : sessionStep session action = some next)
    (earlier : session.1.Uploading) : next.1.Uploading := by
  cases action with
  | crash => cases uploads
  | call request =>
    cases stepped
    cases request with
    | commit => cases uploads
    | begin now document =>
      rcases storageBegin_cases session.1 now document with ⟨answer, same, -⟩ | ⟨creates, same⟩
      · rw [StorageCall.plan, same]
        exact earlier
      · rw [StorageCall.plan, same]
        refine Call.run_keeps ?_ earlier
        intro stored member
        rcases List.mem_cons.mp member with rfl | old
        · exact ⟨sound_beginDocument uploads.recordable creates now, Or.inl rfl⟩
        · exact earlier stored old
    | put chunk =>
      rcases storagePutChunk_cases session.1 chunk with ⟨answer, same, -⟩ | ⟨stored, receives, same⟩
      · rw [StorageCall.plan, same]
        exact earlier
      · rw [StorageCall.plan, same]
        refine Call.run_keeps ?_ earlier
        intro other member
        rcases KeyedList.mem_modify member with old | ⟨-, -, rfl⟩
        · exact earlier other old
        · have sound := (earlier stored (KeyedList.lookup_mem receives.found)).1
          exact ⟨sound.receive receives, Or.inr rfl⟩

/-- A run of uploads from an empty storage. -/
theorem uploading_of_reaches {owner : NodeID} {pid : Nat} {session : Session}
    (reached : Transition.Reaches sessionStep StorageAction.Uploads (⟨owner, pid, []⟩, Disk.empty)
      session) : session.1.Uploading := by
  induction reached with
  | refl =>
    intro stored absent
    cases absent
  | tail _ _ uploads stepped inductionHypothesis =>
    exact uploading_sessionStep uploads stepped inductionHypothesis

omit [Sha256] [Lz4] in
/-- A written manifest leaves the chunk files as they were. -/
theorem chunks_written (disk : Disk) (area : Area) (id : ObjectID) (pid : Nat)
    (stored : StoredDocument) :
    (disk.set area id (some (((disk area id).getD .empty).written pid stored))).chunks area id =
      disk.chunks area id := by
  rw [Disk.chunks_of_directory (Disk.set_same ..)]
  funext index
  show ((disk area id).getD .empty) (.chunk index) = _
  cases place : disk area id with
  | none =>
    rw [Disk.chunks, Disk.file, place]
    rfl
  | some directory =>
    rw [Disk.chunks_of_directory place]
    rfl

/-- Every document that begins and puts have made is read back from the manifest that is written
for it in `pending`, when its chunk files have the recorded sizes. -/
theorem readManifest_writeManifest {owner : NodeID} {pid : Nat} {session : Session}
    (reached : Transition.Reaches sessionStep StorageAction.Uploads (⟨owner, pid, []⟩, Disk.empty)
      session)
    {stored : StoredDocument} (member : stored ∈ session.1.documents) {disk : Disk}
    (backed : stored.Backed (disk.chunks .pending stored.id)) :
    ∃ written, execute (writeManifest session.1.pid stored .pending) disk = (written, .ok ()) ∧
      readManifest written .pending stored.id = .ok stored := by
  obtain ⟨sound, states⟩ := uploading_of_reaches reached stored member
  have written : writtenState stored.state = stored.state := by
    rcases states with state | state <;> rw [state] <;> rfl
  have unfinished : writtenState stored.state ≠ .finished := by
    rcases states with state | state <;> rw [state] <;> decide
  refine ⟨_, execute_writeManifest _ stored .pending disk, ?_⟩
  rw [readManifest_pending sound ?_ ?_ unfinished, written]
  · rfl
  · rw [Disk.file, Disk.set_same]
    rfl
  · rw [chunks_written]
    exact backed

end Uploads

/-- The letter document after its chunk has arrived. -/
theorem readManifest_writeManifest_letter :
    letI := Sha256.reference; letI := Lz4.reference
    ∃ (session : Session) (stored : StoredDocument) (written : Disk),
      stored ∈ session.1.documents ∧ stored.chunks = [letterChunk.record] ∧
      execute (writeManifest session.1.pid stored .pending) session.2 = (written, .ok ()) ∧
      readManifest written .pending stored.id = .ok stored := by
  let sha := Sha256.reference
  let lz4 := Lz4.reference
  obtain ⟨session, reached, documents, file⟩ : ∃ session : Session,
      Transition.Reaches sessionStep StorageAction.Uploads letterSession session ∧
      session.1.documents.map (fun stored => (stored.id, stored.chunks)) =
        [(letterDocument.id, [letterChunk.record])] ∧
      session.2.chunks .pending letterDocument.id 0 = some letterChunk.data := by
    refine ⟨_, .tail (.tail .refl (.call (.begin 0 letterDocument)) admitted_letterDocument rfl)
      (.call (.put letterChunk)) trivial rfl, ?_, ?_⟩
    · decide +kernel
    · decide +kernel
  obtain ⟨stored, member, same⟩ := List.mem_map.mp (documents ▸ List.mem_singleton_self _)
  obtain ⟨sameId, sameChunks⟩ := Prod.mk.inj same
  have backed : stored.Backed (session.2.chunks .pending stored.id) := by
    intro position record found present
    rw [sameChunks] at found
    rw [sameId]
    cases position with
    | zero =>
      cases found
      rw [show UInt64.ofNat 0 = 0 from rfl, file]
      rfl
    | succ position => cases found
  obtain ⟨written, done, read⟩ := readManifest_writeManifest reached member backed
  exact ⟨session, stored, written, member, sameChunks, done, read⟩

end SuperPeerNet
