/-
This file models `file_client_upload`, with the peer that it uploads to.

The document comes from the checks of the file. The client then asks the peer for its
identity, begins the document, lets its workers send the chunks, and commits the document.
A call may fail before the peer has served it, or after that. Between two steps of the
client the peer may serve others, and its process may crash.
-/

import SuperPeerNet.Client.Download
import SuperPeerNet.Peer.Serving
import SuperPeerNet.Peer.Genuine

namespace SuperPeerNet

/-! ### The document of a file -/

/-- `content_basename`. -/
def contentBasename (path : PathName) : Option (List UInt8) :=
  let name := (path.reverse.takeWhile fun byte => byte ≠ 47).reverse
  if name.length = 0 ∨ name.length ≥ metadataNameSize then none else some name

/-- The checks at the beginning of `file_client_upload`, for the bytes of the file or the failure of
the calls that open and read it. A file that is empty leaves `errno` as it is. -/
def uploadedDocument [Sha256] (path : PathName) (file : Except Errno (List UInt8)) :
    Except (Option Errno) TransferDocument :=
  if contentPdfName path = false then .error (some .einval)
  else match file with
    | .error code => .error (some code)
    | .ok content =>
      if content.length ≥ 2 ^ 64 then .error (some .eoverflow)
      else match contentBasename path with
        | none => .error (some .einval)
        | some name =>
          let fileSize := UInt64.ofNat content.length
          if fileSize = 0 then .error none
          else if (chunkCountOf fileSize).toNat > (2 ^ 64 - 1) / objectIdSize then
            .error (some .eoverflow)
          else .ok ⟨contentSha256 content, name, fileSize, chunkCountOf fileSize, compressionLz4⟩

/-! ### Calls to a peer -/

/-- What becomes of a call. -/
inductive CallFate where
  /-- The peer does not get the request. -/
  | lost (code : Errno)
  /-- The peer serves the request, and the client does not get the reply. -/
  | unanswered (surroundings : PeerSurroundings) (code : Errno)
  /-- The peer serves the request, and the client gets what it sends. -/
  | answered (surroundings : PeerSurroundings)

/-- `rpc_call_with_transaction` without a destination: the source of the response is not compared
with anything. -/
def rpcCallAnyone (serve : Message → Option Message) (request : Message) :
    Except Errno Message :=
  if request.payload.length > maxPayloadSize then .error .einval
  else match serve request with
    | none => .error .ebadmsg
    | some response =>
      if response.transactionId ≠ request.transactionId ∨
          response.destinationNode ≠ request.sourceNode then .error .ebadmsg
      else .ok response

section Upload

variable [Inet] [Sha256] [Process] [Lz4]

/-- A call to a peer: the peer after it, and its outcome. A request that is too large is not
sent. -/
def PeerService.call (service : PeerService)
    (rpc : (Message → Option Message) → Message → Except Errno Message) (fate : CallFate)
    (request : Message) : PeerService × Except Errno Message :=
  if request.payload.length > maxPayloadSize then (service, .error .einval)
  else match fate with
    | .lost code => (service, .error code)
    | .unanswered surroundings code =>
      ((serveConnection service surroundings request).1, .error code)
    | .answered surroundings => ((serveConnection service surroundings request).1,
        rpc (fun request => (serveConnection service surroundings request).2) request)

/-- The request of `discover_peer`. Its destination is zero. -/
def discoverRequest (client : NodeID) (transaction : TransactionId) : Message where
  messageType := .ping
  sourceNode := client
  destinationNode := zeroNodeId
  transactionId := transaction
  payload := pingPayload

/-- What `discover_peer` makes of the response. -/
def discoverPeer (response : Except Errno Message) : Except Errno NodeID :=
  match requestExpect response .pong with
  | .error code => .error code
  | .ok reply => if reply.sourceNode = zeroNodeId then .error .ebadmsg else .ok reply.sourceNode

/-- The requests of `file_client_upload` and of `upload_worker`. -/
def storeRequest (client destination : NodeID) (transaction : TransactionId)
    (payload : List UInt8) : Message where
  messageType := .store
  sourceNode := client
  destinationNode := destination
  transactionId := transaction
  payload := payload

/-! ### Sending a chunk -/

/-- What sending a chunk meets: the bytes that are read, the block that is made of them, and the
call. -/
structure SendConditions where
  read : Except Errno (List UInt8)
  compressed : Except Errno (List UInt8)
  transaction : TransactionId
  fate : CallFate

/-- The payload that `upload_worker` sends, if it comes to that. -/
def chunkPayload (document : TransferDocument) (index : UInt64) (conditions : SendConditions) :
    Option (List UInt8) :=
  match conditions.read, conditions.compressed with
  | .ok raw, .ok compressed =>
    if compressed.length > 0xffffffff then none
    else (transferEncodeChunk (uploadedChunk document index raw compressed)
      transferStoreChunk).toOption
  | _, _ => none

/-- The call of `upload_worker` for a chunk. Where it does not come to the call, nothing looks at
its outcome. -/
def sendChunk (client destination : NodeID) (document : TransferDocument) (index : UInt64)
    (conditions : SendConditions) (service : PeerService) : PeerService × Except Errno Message :=
  match chunkPayload document index conditions with
  | none => (service, .error .eio)
  | some payload => service.call rpcCallWithTransaction conditions.fate
      (storeRequest client destination conditions.transaction payload)

/-- The chunks of an upload, with the peer that they are sent to. -/
def sendTask (client destination : NodeID) (document : TransferDocument) :
    ChunkTask SendConditions (List (Octets objectIdSize) × PeerService) where
  chunkCount := document.chunkCount
  chunk index conditions world :=
    let called := sendChunk client destination document index conditions world.2
    let sent := uploadChunk document index ⟨conditions.read, conditions.compressed, called.2⟩
      world.1
    ((sent.1, called.1), sent.2)

/-! ### The upload -/

/-- What an upload works with: the identity of the client, the document, and the number of
workers. -/
structure UploadSetting where
  client : NodeID
  document : TransferDocument
  workers : Nat

/-- Where `file_client_upload` is, and the peer. It returns the digests of the chunks, which it
prints. -/
inductive Upload where
  | created (service : PeerService)
  | discovered (service : PeerService) (destination : NodeID)
  | transferring (destination : NodeID) (pool : Pool (List (Octets objectIdSize) × PeerService))
  | verifying (service : PeerService) (destination : NodeID) (hashes : List (Octets objectIdSize))
  | returned (service : PeerService)
      (outcome : Except (Option Errno) (List (Octets objectIdSize)))

/-- The peer. -/
def Upload.service : Upload → PeerService
  | .created service | .discovered service _ | .verifying service _ _ | .returned service _ =>
    service
  | .transferring _ pool => pool.work.world.2

/-- The pool, when the peer has changed. -/
def Pool.withService (pool : Pool (List (Octets objectIdSize) × PeerService))
    (service : PeerService) : Pool (List (Octets objectIdSize) × PeerService) :=
  { pool with work := { pool.work with world := (pool.work.world.1, service) } }

/-- The upload, when the peer has changed. -/
def Upload.withService (service : PeerService) : Upload → Upload
  | .created _ => .created service
  | .discovered _ destination => .discovered service destination
  | .transferring destination pool => .transferring destination (pool.withService service)
  | .verifying _ destination hashes => .verifying service destination hashes
  | .returned _ outcome => .returned service outcome

/-- An action of an upload: the client goes on, or the peer does something else. -/
inductive UploadAction where
  | peer (action : PeerAction)
  | discover (transaction : TransactionId) (fate : CallFate)
  | begin (transaction : TransactionId) (fate : CallFate)
  | pool (action : PoolAction SendConditions)
  /-- The caller of the workers goes on when they are done. -/
  | settle
  | commit (transaction : TransactionId) (fate : CallFate)

/-- The payload of the begin is encoded, sent and acknowledged. -/
def beginCall (setting : UploadSetting) (service : PeerService) (destination : NodeID)
    (transaction : TransactionId) (fate : CallFate) : PeerService × Except Errno Message :=
  match transferEncodeDocument setting.document transferStoreBegin with
  | .error code => (service, .error code)
  | .ok payload =>
    let called := service.call rpcCallWithTransaction fate
      (storeRequest setting.client destination transaction payload)
    (called.1, requestExpect called.2 .ack)

/-- The payload of the commit is sent and acknowledged. -/
def commitCall (setting : UploadSetting) (service : PeerService) (destination : NodeID)
    (transaction : TransactionId) (fate : CallFate) : PeerService × Except Errno Message :=
  let called := service.call rpcCallWithTransaction fate
    (storeRequest setting.client destination transaction
      (transferEncodeObjectOperation transferStoreCommit setting.document.id))
  (called.1, requestExpect called.2 .ack)

/-- The pool at the start of `execute_upload_workers`: the digests are zero. -/
def uploadPool (setting : UploadSetting) (service : PeerService) :
    Pool (List (Octets objectIdSize) × PeerService) :=
  .start setting.workers (List.replicate setting.document.chunkCount.toNat
    (Octets.fill objectIdSize 0), service)

/-- The step function of an upload: `file_client_upload` from its first call on. -/
def uploadStep (setting : UploadSetting) (upload : Upload) : UploadAction → Option Upload
  | .peer action => (peerStep upload.service action).map fun service => upload.withService service
  | .discover transaction fate =>
    match upload with
    | .created service =>
      let called := service.call rpcCallAnyone fate (discoverRequest setting.client transaction)
      match discoverPeer called.2 with
      | .error code => some (.returned called.1 (.error (some code)))
      | .ok destination => some (.discovered called.1 destination)
    | _ => none
  | .begin transaction fate =>
    match upload with
    | .discovered service destination =>
      let called := beginCall setting service destination transaction fate
      match called.2 with
      | .error code => some (.returned called.1 (.error (some code)))
      | .ok _ => some (.transferring destination (uploadPool setting called.1))
    | _ => none
  | .pool action =>
    match upload with
    | .transferring destination pool =>
      ((sendTask setting.client destination setting.document).pool pool action).map fun pool =>
        .transferring destination pool
    | _ => none
  | .settle =>
    match upload with
    | .transferring destination pool =>
      match pool.caller with
      | .returned (.ok _) => some (.verifying pool.work.world.2 destination pool.work.world.1)
      | .returned (.error error) => some (.returned pool.work.world.2 (.error error))
      | _ => none
    | _ => none
  | .commit transaction fate =>
    match upload with
    | .verifying service destination hashes =>
      let called := commitCall setting service destination transaction fate
      match called.2 with
      | .error code => some (.returned called.1 (.error (some code)))
      | .ok _ => some (.returned called.1 (.ok hashes))
    | _ => none

end Upload

end SuperPeerNet
