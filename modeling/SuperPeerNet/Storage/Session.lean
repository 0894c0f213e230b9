/-
This file puts the calls of the storage together into a system: one process works on a
tree, and it may crash between two durable steps of any call.

A crash loses the memory of the process and keeps the tree as the steps taken so far
have left it. The next process loads that tree with `storage_create`, which sees the
subdirectories in the order of `readdir`: any list of their names is possible.
-/

import SuperPeerNet.Library.Transition
import SuperPeerNet.Storage.Operations

namespace SuperPeerNet

/-- The memory of a process and the tree below its root. -/
abbrev Session := Storage × Disk

/-- A call with its arguments. -/
inductive StorageCall where
  | begin (now : UInt64) (document : TransferDocument)
  | put (chunk : CarriedChunk)
  | commit (id : ObjectID)

/-- What can happen to a session. -/
inductive StorageAction where
  /-- A call runs to its end. -/
  | call (request : StorageCall)
  /-- The process crashes when it has taken a number of the steps of a call, and another one loads
  the tree that is left, with the given entries of `objects` and `pending`. -/
  | crash (request : StorageCall) (taken : Nat) (owner : NodeID) (pid : Nat)
      (objects pending : List ObjectID)

/-- The entries of a directory, as `readdir` returns them. -/
def Listed (disk : Disk) (area : Area) (entries : List ObjectID) : Prop :=
  ∀ id, id ∈ entries ↔ (disk area id).isSome = true

section Session

variable [Sha256] [Lz4]

/-- What a call does in a session. -/
def StorageCall.plan (request : StorageCall) (session : Session) : Call Unit :=
  match request with
  | .begin now document => storageBegin session.1 now document
  | .put chunk => storagePutChunk session.1 chunk
  | .commit id =>
    let call := storageCommit session.1 session.2 id
    { call with answer := call.answer.map fun _ => () }

/-- The tree that a crash leaves. -/
def surviving (session : Session) (request : StorageCall) (taken : Nat) : Disk :=
  (execute ((request.plan session).steps.take taken) session.2).1

/-- The step function of the system. -/
def sessionStep (session : Session) : StorageAction → Option Session
  | .call request => some ((request.plan session).run session.2).1
  | .crash request taken owner pid objects pending =>
    (storageCreate owner pid (surviving session request taken) objects pending).toOption

/-- The new process sees the whole tree. -/
def StorageAction.Seen (session : Session) : StorageAction → Prop
  | .call _ => True
  | .crash request taken _ _ objects pending =>
    Listed (surviving session request taken) .objects objects ∧
      Listed (surviving session request taken) .pending pending

theorem StorageAction.seen_crash {session : Session} {request : StorageCall} {taken : Nat}
    (owner : NodeID) (pid : Nat) {objects pending : List ObjectID}
    (objectsListed : Listed (surviving session request taken) .objects objects)
    (pendingListed : Listed (surviving session request taken) .pending pending) :
    (StorageAction.crash request taken owner pid objects pending).Seen session :=
  ⟨objectsListed, pendingListed⟩

end Session

/-- A document that `transfer_decode_document` admits to an upload. -/
def Admitted (document : TransferDocument) : Prop :=
  ∃ payload, transferDecodeDocument payload transferStoreBegin = .ok document

theorem Admitted.recordable {document : TransferDocument} (admitted : Admitted document) :
    document.Recordable := by
  obtain ⟨payload, decoded⟩ := admitted
  exact transferDecodeDocument_recordable decoded

/-! ### A document of one letter -/

/-- The file `a.pdf` that holds the letter `A`. -/
def letterDocument : TransferDocument where
  id := Sha256.reference.digest [65]
  name := [97, 46, 112, 100, 102]
  fileSize := 1
  chunkCount := 1
  compression := compressionLz4

/-- Its one chunk. -/
def letterChunk : CarriedChunk where
  id := Sha256.reference.digest [65]
  index := 0
  offset := 0
  rawSize := 1
  compressedSize := 2
  hash := Sha256.reference.digest [65]
  data := [16, 65]
  carried := rfl

/-- A new process on an empty tree. -/
def letterSession : Session := (⟨Octets.fill nodeIdSize 7, 1, []⟩, Disk.empty)

theorem admitted_letterDocument : Admitted letterDocument :=
  ⟨[transferStoreBegin] ++ letterDocument.id.toList ++ wirePutU64 1 ++ wirePutU64 1 ++
    [compressionLz4] ++ wirePutU16 5 ++ letterDocument.name, by decide +kernel⟩

end SuperPeerNet
