/-
This file models the records of `storage.c` and its manifest: the stored documents,
`write_manifest`, `verify_document` and `read_manifest`.

A stored document carries a table with one record for each of its chunks, as the
array that the source allocates. The manifest of a document is its header, with a name
of variable length, followed by the table. The reader checks each field as it reads
it, and it compares every present chunk with the file on the disk.
-/

import SuperPeerNet.Library.Reading
import SuperPeerNet.Catalogue.Transfer
import SuperPeerNet.Content
import SuperPeerNet.Storage.Disk

namespace SuperPeerNet

open Reading

/-! ### Records -/

/-- `TransferState`. -/
inductive TransferState where
  | created | queued | started | transferring | verifying | finished | replicated
  deriving DecidableEq

/-- The number of a state. -/
def TransferState.number : TransferState → UInt8
  | .created => 0
  | .queued => 1
  | .started => 2
  | .transferring => 3
  | .verifying => 4
  | .finished => 5
  | .replicated => 6

/-- The state with a number. -/
def TransferState.ofByte (byte : UInt8) : Option TransferState :=
  match byte.toNat with
  | 0 => some .created
  | 1 => some .queued
  | 2 => some .started
  | 3 => some .transferring
  | 4 => some .verifying
  | 5 => some .finished
  | 6 => some .replicated
  | _ => none

@[simp] theorem TransferState.ofByte_number (state : TransferState) :
    ofByte state.number = some state := by
  cases state <;> rfl

/-- `StoredChunk`. -/
structure StoredChunk where
  index : UInt64
  offset : UInt64
  rawSize : UInt32
  compressedSize : UInt32
  hash : Octets objectIdSize
  present : Bool
  deriving DecidableEq

/-- A record as `calloc` leaves it. -/
def StoredChunk.blank : StoredChunk := ⟨0, 0, 0, 0, Octets.fill objectIdSize 0, false⟩

/-- `StoredDocument`, with as many records as the document has chunks. -/
@[ext] structure StoredDocument where
  document : TransferDocument
  owner : NodeID
  uploadedAt : UInt64
  state : TransferState
  chunks : List StoredChunk
  sized : chunks.length = document.chunkCount.toNat

namespace StoredDocument

/-- The id of a document. -/
def id (stored : StoredDocument) : ObjectID := stored.document.id

/-- Change the state of a document. -/
def withState (stored : StoredDocument) (state : TransferState) : StoredDocument :=
  { stored with state := state }

/-- Write a record. -/
def setChunk (stored : StoredDocument) (index : Nat) (record : StoredChunk) : StoredDocument :=
  { stored with
    chunks := stored.chunks.set index record
    sized := by rw [List.length_set, stored.sized] }

/-- A record of the table. -/
def chunk (stored : StoredDocument) (index : Nat) : StoredChunk :=
  stored.chunks.getD index .blank

theorem chunk_of_getElem? {stored : StoredDocument} {position : Nat} {record : StoredChunk}
    (found : stored.chunks[position]? = some record) : stored.chunk position = record := by
  rw [chunk, List.getD_eq_getElem?_getD, found]
  rfl

theorem getElem?_of_inside {stored : StoredDocument} {position : Nat}
    (inside : position < stored.document.chunkCount.toNat) :
    stored.chunks[position]? = some (stored.chunk position) := by
  rw [← stored.sized] at inside
  have found := List.getElem?_eq_getElem inside
  rw [chunk_of_getElem? found, found]

theorem getElem?_of_present {stored : StoredDocument} {position : Nat}
    (present : (stored.chunk position).present = true) :
    stored.chunks[position]? = some (stored.chunk position) := by
  rw [chunk, List.getD_eq_getElem?_getD] at present ⊢
  cases found : stored.chunks[position]? with
  | none =>
    rw [found] at present
    cases present
  | some record => rfl

end StoredDocument

/-- `SIZE_MAX / sizeof(StoredChunk)`. -/
def maxStoredChunks : Nat := 2 ^ 58 - 1

/-- The size that a chunk of a file has to have. The subtraction is that of the machine words, and
the result is truncated to the width of a size. -/
def expectedSize (fileSize index : UInt64) : UInt32 :=
  let remaining := fileSize - index * metadataChunkSize
  (if remaining > metadataChunkSize then metadataChunkSize else remaining).toUInt32

/-! ### Writing a manifest -/

/-- `MANIFEST_MAGIC`. -/
def manifestMagic : List UInt8 := [80, 50, 80, 68, 79, 67, 50, 0]

/-- `MANIFEST_VERSION`. -/
def manifestVersion : UInt32 := 1

/-- The state that a manifest gives a document: `VERIFYING` is written as `FINISHED`. -/
def writtenState (state : TransferState) : TransferState :=
  if state = .verifying then .finished else state

/-- One record of the table. -/
def recordBytes (record : StoredChunk) : List UInt8 :=
  wirePutU64 record.index ++ (wirePutU64 record.offset ++ (wirePutU32 record.rawSize ++
    (wirePutU32 record.compressedSize ++ (record.hash.toList ++
      [if record.present then 1 else 0]))))

/-- The document in the header of a manifest. -/
def documentBytes (document : TransferDocument) : List UInt8 :=
  manifestMagic ++ (wirePutU32 manifestVersion ++ (document.id.toList ++
    (wirePutU64 document.fileSize ++ (wirePutU64 document.chunkCount ++ ([document.compression] ++
      (wirePutU16 (UInt16.ofNat document.name.length) ++ document.name))))))

/-- The bytes that `write_manifest` writes. -/
def manifestBytes (stored : StoredDocument) : List UInt8 :=
  documentBytes stored.document ++ (stored.owner.toList ++ (wirePutU64 stored.uploadedAt ++
    ([(writtenState stored.state).number] ++ stored.chunks.flatMap recordBytes)))

/-- The durable steps of `write_manifest`. -/
def writeManifest (pid : Nat) (stored : StoredDocument) (area : Area) : List DiskStep :=
  [.makeDirectory area stored.id, .write area stored.id (.manifestTemporary pid)
    (manifestBytes stored), .rename area stored.id (.manifestTemporary pid) .manifest]

/-! ### Verifying a document -/

section Verify

variable [Sha256] [Lz4]

/-- The contents of a chunk: the decompressed data, if they have the recorded digest. -/
def chunkContent (data : List UInt8) (rawSize : UInt32) (hash : Octets objectIdSize) :
    Except Errno (List UInt8) :=
  match compressionLz4Decompress data rawSize.toNat with
  | .error _ => .error .ebadmsg
  | .ok raw => if contentSha256 raw ≠ hash then .error .ebadmsg else .ok raw

/-- Open a file, if it is there, and read the given number of bytes from it. -/
def readAll (file : Option (List UInt8)) (size : Nat) : Except Errno (List UInt8) :=
  match file with
  | none => .error .enoent
  | some bytes => if bytes.length < size then .error .ebadmsg else .ok (bytes.take size)

/-- The loop of `verify_document`: the contents of the chunks from an index on. -/
def verifyChunks (files : UInt64 → Option (List UInt8)) :
    List StoredChunk → Nat → Except Errno (List UInt8)
  | [], _ => .ok []
  | record :: rest, index => do
    if record.present = false then throw .enodata
    let data ← readAll (files (UInt64.ofNat index)) record.compressedSize.toNat
    let raw ← chunkContent data record.rawSize record.hash
    let more ← verifyChunks files rest (index + 1)
    pure (raw ++ more)

/-- The sum of the recorded sizes, in machine words. -/
def actualSize (chunks : List StoredChunk) : UInt64 :=
  chunks.foldl (fun total record => total + record.rawSize.toUInt64) 0

/-- `verify_document`, over the chunk files of the document: its contents, if they have its size
and digest. -/
def verifyDocument (files : UInt64 → Option (List UInt8)) (stored : StoredDocument) :
    Except Errno (List UInt8) := do
  let content ← verifyChunks files stored.chunks 0
  if actualSize stored.chunks ≠ stored.document.fileSize ∨ Sha256.digest content ≠ stored.id then
    throw .ebadmsg
  pure content

/-! ### Reading a manifest -/

/-- Read an integer. -/
def readU64 : Reader UInt8 Errno UInt64 := wireGetU64 <$> take .ebadmsg 8

@[inherit_doc readU64]
def readU32 : Reader UInt8 Errno UInt32 := wireGetU32 <$> take .ebadmsg 4

@[inherit_doc readU64]
def readU16 : Reader UInt8 Errno UInt16 := wireGetU16 <$> take .ebadmsg 2

@[inherit_doc readU64]
def readU8 : Reader UInt8 Errno UInt8 := (fun bytes => bytes.getD 0 0) <$> take .ebadmsg 1

/-- Read an identifier. -/
def readOctets (size : Nat) : Reader UInt8 Errno (Octets size) :=
  Octets.read size <$> take .ebadmsg size

/-- The compressed size is positive and within the bound of LZ4 for the raw size. -/
def withinBound (rawSize compressedSize : UInt32) : Bool :=
  match compressionLz4Bound rawSize.toNat with
  | .error _ => false
  | .ok bound => compressedSize ≠ 0 && compressedSize.toNat ≤ bound

/-- What `read_manifest` requires of the record of a present chunk. -/
def presentAccepted (file : Option (List UInt8)) (document : TransferDocument) (index : UInt64)
    (record : StoredChunk) : Prop :=
  record.index = index ∧ record.offset = index * metadataChunkSize ∧
    record.rawSize = expectedSize document.fileSize index ∧
    withinBound record.rawSize record.compressedSize ∧
    file.map List.length = some record.compressedSize.toNat

instance (file : Option (List UInt8)) (document : TransferDocument) (index : UInt64)
    (record : StoredChunk) : Decidable (presentAccepted file document index record) :=
  inferInstanceAs (Decidable (_ ∧ _))

/-- What `read_manifest` requires of the record of an absent chunk. -/
def absentAccepted (record : StoredChunk) : Prop :=
  record.index = 0 ∧ record.offset = 0 ∧ record.rawSize = 0 ∧ record.compressedSize = 0

instance (record : StoredChunk) : Decidable (absentAccepted record) :=
  inferInstanceAs (Decidable (_ ∧ _))

/-- One record of the table of `read_manifest`. -/
def readRecord (file : Option (List UInt8)) (area : Area) (document : TransferDocument)
    (index : UInt64) : Reader UInt8 Errno StoredChunk := do
  let number ← readU64
  let offset ← readU64
  let rawSize ← readU32
  let compressedSize ← readU32
  let hash ← readOctets objectIdSize
  let flag ← readU8
  ensure .ebadmsg (flag ≤ 1 ∧ ¬ (area = .objects ∧ flag = 0))
  let record : StoredChunk := ⟨number, offset, rawSize, compressedSize, hash, flag ≠ 0⟩
  ensure .ebadmsg (if record.present then presentAccepted file document index record
    else absentAccepted record)
  pure record

/-- The states that a manifest may give in an area. -/
def stateAccepted (area : Area) (state : TransferState) : Bool :=
  match area with
  | .objects => state = .finished || state = .verifying
  | .pending => state ≠ .finished

/-- The document of a manifest. -/
def readDocument : Reader UInt8 Errno TransferDocument := do
  let magic ← take .ebadmsg 8
  ensure .ebadmsg (magic = manifestMagic)
  let version ← readU32
  ensure .ebadmsg (version = manifestVersion)
  let id ← readOctets objectIdSize
  let fileSize ← readU64
  let chunkCount ← readU64
  ensure .ebadmsg (chunkCount = chunkCountOf fileSize ∧ chunkCount.toNat ≤ maxStoredChunks)
  let compression ← readU8
  ensure .ebadmsg (compression = compressionLz4)
  let nameSize ← readU16
  ensure .ebadmsg (nameSize ≠ 0 ∧ nameSize.toNat < metadataNameSize)
  let name ← take .ebadmsg nameSize.toNat
  ensure .ebadmsg (0 ∉ name ∧ 47 ∉ name)
  pure ⟨id, name, fileSize, chunkCount, compression⟩

/-- The state of a manifest. -/
def readState (area : Area) : Reader UInt8 Errno TransferState := do
  let byte ← readU8
  match TransferState.ofByte byte with
  | none => fun _ => .error .ebadmsg
  | some state =>
    ensure .ebadmsg (stateAccepted area state)
    pure state

/-- The whole manifest up to its last byte. -/
def readStored (disk : Disk) (area : Area) : Reader UInt8 Errno StoredDocument := do
  let document ← readDocument
  let owner ← readOctets nodeIdSize
  let uploadedAt ← readU64
  let state ← readState area
  let chunks ← table (fun index => readRecord (disk.chunks area document.id (UInt64.ofNat index))
    area document (UInt64.ofNat index)) document.chunkCount.toNat 0
  pure ⟨document, owner, uploadedAt, state, chunks.1, chunks.2⟩

/-- `read_manifest`, for the manifest in the directory of the given id. -/
def readManifest (disk : Disk) (area : Area) (id : ObjectID) : Except Errno StoredDocument :=
  match disk.file area id .manifest with
  | none => .error .enoent
  | some bytes =>
    match readStored disk area bytes with
    | .error code => .error code
    | .ok (stored, trailing) =>
      if trailing ≠ [] then .error .ebadmsg
      else if area = .objects then
        match verifyDocument (disk.chunks .objects stored.id) stored with
        | .error code => .error code
        | .ok _ => .ok stored
      else .ok stored

end Verify

end SuperPeerNet
