/-
This file models how a super peer handles an `M_STORE` message: `handle_client_store`,
`handle_announcement` and `process_announcement` of `superpeer.c`.

An announcement ends in a call of `c4_cluster_submit` at the coordinator. A super peer
that is not the coordinator wraps it into an `M_STORE` message of its own. The two
functions are followed up to the call they end in, which is their outcome here:
submitting is a task of the cluster, and the wrapped message is handled at the
coordinator by the same functions. The storage of uploaded chunks is a parameter.
-/

import SuperPeerNet.Catalogue.Transfer
import SuperPeerNet.Cluster.Acknowledged

namespace SuperPeerNet

/-! ### The handlers -/

/-- The functions of `storage.c` that the upload operations call. -/
structure StorageApi (Storage : Type) where
  storageBegin : Storage → TransferDocument → Storage × Except Errno Unit
  storagePutChunk : Storage → TransferChunk → Storage × Except Errno Unit
  storageCommit : Storage → ObjectID → Storage × Except Errno TransferDocument
  storageDescriptors : Storage → ObjectID → Storage × Except Errno (List MetadataChunk)

/-- How the handling of an `M_STORE` message ends: with a call of `c4_cluster_submit`, with the
announcement sent on to the coordinator, or with a result that is known at once. -/
inductive StoreOutcome where
  | submit (id : TransactionId) (owner : NodeID) (payload : List UInt8)
  | forward (message : Message)
  | returned (result : Except Errno Unit)
  deriving DecidableEq

/-- What a super peer puts in front of an announcement that it sends on. -/
def forwardPayload (owner : NodeID) (id : TransactionId) (payload : List UInt8) : List UInt8 :=
  owner.toList ++ id.toList ++ payload

/-- The coordinator that an announcement is sent on to. -/
def forwardDestination {Context : Type} (cluster : C4Cluster Context) :
    Except Errno SuperPeerMember :=
  if cluster.leader = zeroNodeId then .error .ehostunreach
  else match superpeerFindMember cluster.members cluster.leader with
    | .error _ => .error .ehostunreach
    | .ok destination =>
      if destination.role ≠ .superPeer ∨ destination.state.belowFailed = false then
        .error .ehostunreach
      else .ok destination

/-- `process_announcement`. The transaction id of the forwarded message is the one that
`rpc_call` generates; the id of the announcement travels in the payload. -/
def processAnnouncement {Context : Type} (generated : TransactionId) (cluster : C4Cluster Context)
    (owner : NodeID) (payload : List UInt8) (id : TransactionId) : StoreOutcome :=
  if c4ClusterIsLeader cluster then .submit id owner payload
  else match forwardDestination cluster with
    | .error code => .returned (.error code)
    | .ok _ =>
      if payload.length > maxPayloadSize - nodeIdSize - transactionIdSize then
        .returned (.error .emsgsize)
      else .forward
        { messageType := .store
          sourceNode := cluster.localId
          destinationNode := cluster.leader
          transactionId := generated
          payload := forwardPayload owner id payload }

/-- What `handle_announcement` takes a message for: the owner and the transaction id of an
announcement, and the announcement itself. A super peer has put the first two in front. -/
def announcementOf (members : List SuperPeerMember) (message : Message) :
    Except Errno (NodeID × TransactionId × List UInt8) :=
  match superpeerFindMember members message.sourceNode with
  | .error _ => .error .eacces
  | .ok source =>
    if source.role = .superPeer then
      if message.payload.length ≤ nodeIdSize + transactionIdSize then .error .ebadmsg
      else .ok (Octets.read nodeIdSize message.payload,
        Octets.read transactionIdSize (message.payload.drop nodeIdSize),
        message.payload.drop (nodeIdSize + transactionIdSize))
    else if superpeerIsRegistered members message.sourceNode = false then .error .eacces
    else .ok (message.sourceNode, message.transactionId, message.payload)

/-- `handle_announcement`. -/
def handleAnnouncement {Context : Type} (generated : TransactionId) (cluster : C4Cluster Context)
    (message : Message) : StoreOutcome :=
  match announcementOf cluster.members message with
  | .error code => .returned (.error code)
  | .ok (owner, id, announcement) =>
    if announcement = [] ∨ announcement.getD 0 0 ≠ transferStoreAnnounce then
      .returned (.error .ebadmsg)
    else processAnnouncement generated cluster owner announcement id

/-- The `TRANSFER_STORE_COMMIT` branch of `handle_client_store`: the super peer announces an
upload that is complete, as its own. -/
def handleStoreCommit {Context Storage : Type} (api : StorageApi Storage)
    (generated : TransactionId) (storage : Storage) (cluster : C4Cluster Context)
    (message : Message) : Storage × StoreOutcome :=
  match transferDecodeObjectOperation message.payload transferStoreCommit with
  | .error code => (storage, .returned (.error code))
  | .ok id => match api.storageCommit storage id with
    | (committed, .error code) => (committed, .returned (.error code))
    | (committed, .ok document) => match api.storageDescriptors committed id with
      | (described, .error code) => (described, .returned (.error code))
      | (described, .ok chunks) => match transferEncodeAnnouncement document chunks with
        | .error code => (described, .returned (.error code))
        | .ok announcement => (described,
            processAnnouncement generated cluster cluster.localId announcement
              message.transactionId)

/-- `handle_client_store`. -/
def handleClientStore {Context Storage : Type} (api : StorageApi Storage)
    (generated : TransactionId) (storage : Storage) (cluster : C4Cluster Context)
    (message : Message) : Storage × StoreOutcome :=
  if message.payload = [] then (storage, .returned (.error .ebadmsg))
  else
    let operation := message.payload.getD 0 0
    if operation = transferStoreAnnounce then
      (storage, handleAnnouncement generated cluster message)
    else if operation = transferStoreBegin then
      match transferDecodeDocument message.payload transferStoreBegin with
      | .error code => (storage, .returned (.error code))
      | .ok document =>
        ((api.storageBegin storage document).1, .returned (api.storageBegin storage document).2)
    else if operation = transferStoreChunk then
      match transferDecodeChunk message.payload transferStoreChunk with
      | .error code => (storage, .returned (.error code))
      | .ok chunk =>
        ((api.storagePutChunk storage chunk).1, .returned (api.storagePutChunk storage chunk).2)
    else if operation = transferStoreCommit then
      handleStoreCommit api generated storage cluster message
    else (storage, .returned (.error .enotsup))

section Forwarding

variable {Context Storage : Type} {api : StorageApi Storage} {generated fresh id : TransactionId}
  {storage : Storage} {sender coordinator : C4Cluster Context} {owner : NodeID}
  {payload : List UInt8} {message : Message}

/-! ### Wrapping and unwrapping -/

/-- What a super peer that is not the coordinator sends. -/
theorem processAnnouncement_forward
    (forwarded : processAnnouncement generated sender owner payload id = .forward message) :
    message.payload = forwardPayload owner id payload := by
  unfold processAnnouncement at forwarded
  split at forwarded
  · cases forwarded
  · split at forwarded
    · cases forwarded
    · split at forwarded
      · cases forwarded
      · cases forwarded
        rfl

/-- The wrapping is undone for a message of a super peer. -/
theorem announcementOf_forwardPayload {members : List SuperPeerMember} {member : SuperPeerMember}
    (found : superpeerFindMember members message.sourceNode = .ok member)
    (role : member.role = .superPeer) (nonempty : payload ≠ [])
    (wrapped : message.payload = forwardPayload owner id payload) :
    announcementOf members message = .ok (owner, id, payload) := by
  have ownerLength : owner.toList.length = nodeIdSize := length_nodeID owner
  have idLength : id.toList.length = transactionIdSize := length_transactionId id
  have frontLength : (owner.toList ++ id.toList).length = nodeIdSize + transactionIdSize := by
    rw [List.length_append, ownerLength, idLength]
  have long : ¬ message.payload.length ≤ nodeIdSize + transactionIdSize := by
    rw [wrapped, forwardPayload, List.length_append, frontLength]
    have positive := List.length_pos_of_ne_nil nonempty
    omega
  have readOwner : Octets.read nodeIdSize message.payload = owner := by
    rw [wrapped, forwardPayload, List.append_assoc, Octets.read_append]
  have readId : Octets.read transactionIdSize (message.payload.drop nodeIdSize) = id := by
    rw [wrapped, forwardPayload, List.append_assoc, List.drop_left' ownerLength,
      Octets.read_append]
  have readPayload : message.payload.drop (nodeIdSize + transactionIdSize) = payload := by
    rw [wrapped, forwardPayload, List.drop_left' frontLength]
  unfold announcementOf
  rw [found]
  simp only
  rw [if_pos role, if_neg long, readOwner, readId, readPayload]

/-! ### The dispatch -/

/-- The test for an empty payload and the test of its first byte, in one. -/
theorem first_eq_iff {bytes : List UInt8} {byte : UInt8} :
    bytes ≠ [] ∧ bytes.getD 0 0 = byte ↔ bytes.head? = some byte := by
  cases bytes <;> simp

/-- The first byte decides whether a message is an announcement. -/
theorem handleClientStore_announce
    (announces : message.payload.head? = some transferStoreAnnounce) :
    handleClientStore api generated storage coordinator message =
      (storage, handleAnnouncement generated coordinator message) := by
  obtain ⟨nonempty, first⟩ := first_eq_iff.mpr announces
  unfold handleClientStore
  simp only
  rw [if_neg nonempty, if_pos first]

/-- The coordinator submits what it has unwrapped. -/
theorem handleAnnouncement_submit (leads : c4ClusterIsLeader coordinator = true)
    (unwrapped : announcementOf coordinator.members message = .ok (owner, id, payload))
    (announces : payload.head? = some transferStoreAnnounce) :
    handleAnnouncement generated coordinator message = .submit id owner payload := by
  obtain ⟨nonempty, first⟩ := first_eq_iff.mpr announces
  unfold handleAnnouncement
  rw [unwrapped]
  simp only
  rw [if_neg (not_or.mpr ⟨nonempty, not_not.mpr first⟩), processAnnouncement, if_pos leads]

/-- No upload operation other than a commit reaches the cluster, and a commit is shorter than
any wrapped announcement. -/
theorem not_submit_of_first (other : message.payload.head? ≠ some transferStoreAnnounce)
    (long : 1 + objectIdSize < message.payload.length) :
    (handleClientStore api generated storage coordinator message).2 ≠
      .submit id owner payload := by
  unfold handleClientStore
  split
  · nofun
  · rename_i nonempty
    simp only
    rw [if_neg fun first => other (first_eq_iff.mp ⟨nonempty, first⟩)]
    split
    · split <;> nofun
    · split
      · split <;> nofun
      · split
        · unfold handleStoreCommit transferDecodeObjectOperation
          rw [if_pos (Or.inl (by omega))]
          nofun
        · nofun

/-- At the coordinator, an announcement that came from a registered peer itself is submitted. -/
theorem handleClientStore_direct (leads : c4ClusterIsLeader coordinator = true)
    {member : SuperPeerMember}
    (found : superpeerFindMember coordinator.members message.sourceNode = .ok member)
    (role : member.role = .peer)
    (registered : superpeerIsRegistered coordinator.members message.sourceNode = true)
    (announces : message.payload.head? = some transferStoreAnnounce) :
    (handleClientStore api generated storage coordinator message).2 =
      .submit message.transactionId message.sourceNode message.payload := by
  have unwrapped : announcementOf coordinator.members message =
      .ok (message.sourceNode, message.transactionId, message.payload) := by
    unfold announcementOf
    rw [found]
    simp [role, registered]
  rw [handleClientStore_announce announces]
  exact handleAnnouncement_submit leads unwrapped announces

/-- A forwarded announcement is submitted at the coordinator, with its owner, its transaction id
and its bytes, exactly when the id of its owner begins with the byte of the announce
operation: the dispatch reads that byte before anything is unwrapped. -/
theorem forwarded_submitted_iff (announces : payload.head? = some transferStoreAnnounce)
    (forwarded : processAnnouncement generated sender owner payload id = .forward message)
    (leads : c4ClusterIsLeader coordinator = true) {member : SuperPeerMember}
    (found : superpeerFindMember coordinator.members message.sourceNode = .ok member)
    (role : member.role = .superPeer) :
    (handleClientStore api fresh storage coordinator message).2 = .submit id owner payload ↔
      owner.toList.head? = some transferStoreAnnounce := by
  have wrapped := processAnnouncement_forward forwarded
  have nonempty := (first_eq_iff.mpr announces).1
  have first : message.payload.head? = owner.toList.head? := by
    have someByte : owner.toList ≠ [] := List.ne_nil_of_length_pos (by simp)
    rw [wrapped, forwardPayload, List.append_assoc, List.head?_append_of_ne_nil _ someByte]
  have long : 1 + objectIdSize < message.payload.length := by
    rw [wrapped, forwardPayload, List.length_append, List.length_append, length_nodeID,
      length_transactionId]
    unfold objectIdSize
    omega
  rw [← first]
  constructor
  · intro submitted
    by_contra other
    exact not_submit_of_first other long submitted
  · intro begins
    rw [handleClientStore_announce begins]
    exact handleAnnouncement_submit leads
      (announcementOf_forwardPayload found role nonempty wrapped) announces

end Forwarding

/-- A storage in which nothing has been begun and nothing can be. -/
def emptyStorage : StorageApi Unit where
  storageBegin storage _ := (storage, .error .eio)
  storagePutChunk storage _ := (storage, .error .enoent)
  storageCommit storage _ := (storage, .error .enoent)
  storageDescriptors storage _ := (storage, .error .enoent)

/-- The second of two super peers sends an announcement on to the first. -/
def forwardedMessage (owner : NodeID) (id : TransactionId) (payload : List UInt8) : Message :=
  requestOf 2 1 .store (transactionOf 7) (forwardPayload owner id payload)

/-- An owner whose id begins with the byte of the operation. -/
theorem forwarded_submitted_five :
    let cluster := (startOf [nodeOf 1, nodeOf 2] (nodeOf 1)).cluster
    let message := forwardedMessage (nodeOf 5) (transactionOf 1) [5]
    processAnnouncement (transactionOf 7) (cluster (nodeOf 2)) (nodeOf 5) [5] (transactionOf 1) =
        .forward message ∧
      (handleClientStore emptyStorage (transactionOf 8) () (cluster (nodeOf 1)) message).2 =
        .submit (transactionOf 1) (nodeOf 5) [5] := by
  have forwarded : processAnnouncement (transactionOf 7)
      ((startOf [nodeOf 1, nodeOf 2] (nodeOf 1)).cluster (nodeOf 2)) (nodeOf 5) [5]
      (transactionOf 1) = .forward (forwardedMessage (nodeOf 5) (transactionOf 1) [5]) := by
    decide +kernel
  refine ⟨forwarded, (forwarded_submitted_iff rfl forwarded (by decide)
    (show superpeerFindMember _ _ = .ok ⟨nodeOf 2, .superPeer, .alive, false⟩ by decide +kernel)
    rfl).mpr (by decide)⟩

/-- The announcement of an owner whose id begins with another byte is refused. -/
theorem not_forwarded_submitted :
    ¬ ∀ (generated fresh id : TransactionId) (sender coordinator : C4Cluster Applied)
      (owner : NodeID) (payload : List UInt8) (message : Message) (member : SuperPeerMember),
      payload.head? = some transferStoreAnnounce →
      processAnnouncement generated sender owner payload id = .forward message →
      c4ClusterIsLeader coordinator = true →
      superpeerFindMember coordinator.members message.sourceNode = .ok member →
      member.role = .superPeer → member.state.belowFailed = true →
      (handleClientStore emptyStorage fresh () coordinator message).2 =
        .submit id owner payload := by
  intro transparent
  let cluster := (startOf [nodeOf 1, nodeOf 2] (nodeOf 1)).cluster
  have refused : (handleClientStore emptyStorage (transactionOf 8) () (cluster (nodeOf 1))
      (forwardedMessage (nodeOf 9) (transactionOf 1) [5])).2 = .returned (.error .enotsup) := by
    decide +kernel
  have submitted := transparent (transactionOf 7) (transactionOf 8) (transactionOf 1)
    (cluster (nodeOf 2)) (cluster (nodeOf 1)) (nodeOf 9) [5]
    (forwardedMessage (nodeOf 9) (transactionOf 1) [5]) ⟨nodeOf 2, .superPeer, .alive, false⟩
    rfl (by decide +kernel) (by decide) (by decide +kernel) rfl rfl
  cases refused.symm.trans submitted

end SuperPeerNet
