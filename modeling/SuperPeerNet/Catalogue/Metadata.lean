/-
This file models how `metadata.c` and `directory.c` publish a document, and
`apply_c4_entry`, the callback through which committed operations reach them.

The store is a hash table: an entry is in the chain of its bucket, and a published
entry takes the place of the one it replaces. What a caller sees of it is the lookup,
so the effect of an announcement is stated on lookups.
-/

import SuperPeerNet.Library.KeyedList
import SuperPeerNet.Catalogue.Transfer
import SuperPeerNet.Cluster.Base
import SuperPeerNet.Content

namespace SuperPeerNet

/-! ### The store -/

/-- `FileMetadata`. -/
structure FileMetadata where
  objectId : ObjectID
  filename : List UInt8
  size : UInt64
  chunkCount : UInt32
  chunkHashes : Option (List (Octets objectIdSize))
  version : UInt32
  owner : UInt32
  deriving DecidableEq

/-- `Availability`: a peer has a chunk. -/
structure Availability where
  index : UInt64
  peer : NodeID
  deriving DecidableEq

/-- `Entry` of `metadata.c`. A document that was only registered has no descriptors. -/
structure MetadataEntry where
  document : FileMetadata
  available : List Availability
  chunks : Option (List MetadataChunk)
  deriving DecidableEq

/-- `BUCKET_COUNT`. -/
def bucketCount : Nat := 257

/-- `MetadataStore`: the chains of the buckets. -/
structure MetadataStore where
  buckets : Nat → List MetadataEntry

namespace MetadataStore

/-- `bucket`. -/
def bucket (id : ObjectID) : Nat :=
  id.toList.foldl (fun value byte => (value * 33 + byte.toNat) % bucketCount) 0

/-- `metadata_create`. -/
def empty : MetadataStore := ⟨fun _ => []⟩

/-- The id under which a chain is searched. -/
def key (entry : MetadataEntry) : ObjectID := entry.document.objectId

/-- `find_entry`. -/
def find (store : MetadataStore) (id : ObjectID) : Option MetadataEntry :=
  KeyedList.lookup key (store.buckets (bucket id)) id

/-- The store with an entry in the place of the one that has its id, or at the end of the chain
if there is none. -/
def put (store : MetadataStore) (entry : MetadataEntry) : MetadataStore where
  buckets index :=
    if index = bucket (key entry) then
      match store.find (key entry) with
      | some _ => KeyedList.modify key (fun _ => entry) (key entry) (store.buckets index)
      | none => store.buckets index ++ [entry]
    else store.buckets index

end MetadataStore

/-! ### Announcing -/

/-- The test that `metadata_announce` makes of the descriptor at a position. -/
def chunkFits (document : FileMetadata) (chunk : MetadataChunk) (position : Nat) : Bool :=
  let offset := UInt64.ofNat position * metadataChunkSize
  let remaining := document.size - offset
  let size := if remaining > metadataChunkSize then metadataChunkSize else remaining
  chunk.index = UInt64.ofNat position && chunk.offset = offset &&
    chunk.rawSize.toUInt64 = size && chunk.compressedSize ≠ 0 &&
    match document.chunkHashes with
    | none => true
    | some hashes => hashes[position]? = some chunk.hash

/-- The descriptors fit the document from a position on. -/
def chunksFitFrom (document : FileMetadata) : Nat → List MetadataChunk → Bool
  | _, [] => true
  | position, chunk :: rest =>
    chunkFits document chunk position && chunksFitFrom document (position + 1) rest

/-- The test of an announcement against the descriptors that are already published. -/
def sameContent (old new : MetadataChunk) : Bool :=
  old.rawSize = new.rawSize && old.hash = new.hash

/-- The new descriptors have the content of those that are published, as far as any are. -/
def sameContents (old : Option (List MetadataChunk)) (chunks : List MetadataChunk) : Bool :=
  match old with
  | none => true
  | some published => (published.zip chunks).all fun pair => sameContent pair.1 pair.2

/-- The entry that an announcement publishes when there is none yet. The availabilities are
pushed one by one, so the last chunk comes first. -/
def announcedEntry (document : FileMetadata) (chunks : List MetadataChunk) (owner : NodeID) :
    MetadataEntry where
  document := { document with
    chunkHashes := some (chunks.map MetadataChunk.hash)
    version := 1 }
  available := ((List.range chunks.length).map fun position =>
    ⟨UInt64.ofNat position, owner⟩).reverse
  chunks := some chunks

/-- The entry that an announcement puts in the place of a published one: other peers keep their
availabilities, and the document keeps its first name. -/
def mergedEntry (old candidate : MetadataEntry) (owner : NodeID) : MetadataEntry where
  document := { (if old.chunks.isSome then old.document
      else { candidate.document with filename := old.document.filename }) with
    chunkHashes := candidate.document.chunkHashes }
  available := (old.available.filter fun item => item.peer ≠ owner).reverse ++ candidate.available
  chunks := candidate.chunks

/-- `metadata_announce`. Only the first `chunk_count` descriptors are read. -/
def metadataAnnounce (store : MetadataStore) (document : FileMetadata)
    (descriptors : List MetadataChunk) (owner : NodeID) : MetadataStore × Except Errno Unit :=
  let chunks := descriptors.take document.chunkCount.toNat
  if document.chunkCount = 0 ∨ document.chunkCount.toUInt64 ≠ chunkCountOf document.size ∨
      document.filename = [] ∨ document.filename.length ≥ metadataNameSize then
    (store, .error .einval)
  else if chunksFitFrom document 0 chunks = false then (store, .error .einval)
  else
    let candidate := announcedEntry document chunks owner
    match store.find document.objectId with
    | none => (store.put candidate, .ok ())
    | some old =>
      if old.document.size ≠ document.size ∨ old.document.chunkCount ≠ document.chunkCount then
        (store, .error .eexist)
      else if sameContents old.chunks chunks = false then (store, .error .eexist)
      else (store.put (mergedEntry old candidate owner), .ok ())

/-- The test of `directory_announce` for a name that ends in `.pdf`, in any case. -/
def endsInPdf (name : List UInt8) : Bool :=
  4 ≤ name.length && (name.drop (name.length - 4)).map toLower = [46, 112, 100, 102]

/-- The document that `directory_announce` hands to the store. -/
def announcedDocument (document : TransferDocument) (owner : NodeID) : FileMetadata where
  objectId := document.id
  filename := document.name
  size := document.fileSize
  chunkCount := document.chunkCount.toUInt32
  chunkHashes := none
  version := 1
  owner := wireGetU32 owner.toList

/-- `directory_announce`. -/
def directoryAnnounce (store : MetadataStore) (document : TransferDocument)
    (chunks : List MetadataChunk) (owner : NodeID) : MetadataStore × Except Errno Unit :=
  if document.compression ≠ compressionLz4 then (store, .error .einval)
  else if endsInPdf document.name = false then (store, .error .einval)
  else if document.chunkCount.toNat > 2 ^ 32 - 1 then (store, .error .eoverflow)
  else metadataAnnounce store (announcedDocument document owner) chunks owner

/-- `apply_c4_entry`, over the store of the directory. -/
def applyC4Entry : C4ApplyEntry MetadataStore := fun store entry =>
  if entry.payload.length ≤ nodeIdSize then (store, .error .ebadmsg)
  else match transferDecodeAnnouncement (entry.payload.drop nodeIdSize) with
    | .error code => (store, .error code)
    | .ok (document, chunks) =>
      directoryAnnounce store document chunks (Octets.read nodeIdSize entry.payload)

/-! ### Lookups after a change -/

namespace MetadataStore

@[simp] theorem find_empty (id : ObjectID) : empty.find id = none := rfl

/-- An entry that has been put is found under its id, and every other lookup is as it was. -/
theorem find_put (store : MetadataStore) (entry : MetadataEntry) (id : ObjectID) :
    (store.put entry).find id = if id = key entry then some entry else store.find id := by
  show KeyedList.lookup key (if bucket id = bucket (key entry) then _ else _) id = _
  by_cases chain : bucket id = bucket (key entry)
  · rw [if_pos chain]
    cases found : store.find (key entry) with
    | none =>
      unfold find at found ⊢
      simp only [KeyedList.lookup_append, KeyedList.lookup_singleton]
      by_cases same : id = key entry
      · rw [same, found, if_pos rfl]
        simp
      · rw [if_neg same, if_neg fun equal => same equal.symm, Option.or_none]
    | some old =>
      unfold find at found ⊢
      simp only
      rw [KeyedList.lookup_modify fun _ _ => rfl]
      by_cases same : id = key entry
      · rw [same, found, if_pos rfl]
        simp
      · rw [if_neg same, if_neg same]
  · rw [if_neg chain, if_neg fun same => chain (congrArg bucket same)]
    rfl

end MetadataStore

end SuperPeerNet
