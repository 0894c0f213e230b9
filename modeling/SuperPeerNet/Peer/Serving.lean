/-
This file models how a peer serves one connection: `serve_connection` of `peer.c` with
`handle_store`, `handle_download` and `announce_document`.

A message is handled to its end before the next one. The threads of the server may
interleave, but the sections of a store act under the mutex of the storage, and a read
has the outcome that it has when nothing comes between its sections. What a message
meets outside of the process, the time and the answers of the super peer, is an argument.
-/

import SuperPeerNet.Catalogue.RoundTrip
import SuperPeerNet.Cluster.Base
import SuperPeerNet.Gossip.Heartbeat
import SuperPeerNet.Storage.Readers

namespace SuperPeerNet

/-! ### The service -/

/-- The fields of `PeerService` that a connection uses, with the tree of the storage. -/
structure PeerService where
  id : NodeID
  superpeerId : NodeID
  session : Session
  cache : Cache
  heartbeat : Heartbeat

/-- What the handling of a message meets outside. -/
structure PeerSurroundings where
  /-- The time that `storage_begin` reads. -/
  now : UInt64
  /-- The clocks that `heartbeat_handle` reads. -/
  clocks : Clocks
  /-- What the super peer answers. -/
  superpeer : Message → Option Message
  /-- The transaction id that `rpc_call` generates. -/
  transaction : TransactionId

/-- `send_response`: a message that is too large is not sent. -/
def sendResponse (service : PeerService) (request : Message)
    (outcome : Except Errno (MessageType × List UInt8)) : Option Message :=
  answer service.id request outcome

/-- `announce_document`. -/
def announceDocument (service : PeerService) (surroundings : PeerSurroundings)
    (document : TransferDocument) : Except Errno Unit :=
  match storageDescriptors service.session.1 document.id with
  | .error code => .error code
  | .ok chunks => match transferEncodeAnnouncement document chunks with
    | .error code => .error code
    | .ok payload =>
      match rpcCallWithTransaction surroundings.superpeer
        ⟨.store, service.id, service.superpeerId, surroundings.transaction, payload⟩ with
      | .error code => .error code
      | .ok response =>
        if response.messageType = .ack then .ok () else .error (remoteErrorDecode response.payload)

/-! ### Uploads -/

/-- The data of a decoded chunk have the size that it says. -/
theorem transferDecodeChunk_carried {payload : List UInt8} {operation : UInt8}
    {chunk : TransferChunk} (decoded : transferDecodeChunk payload operation = .ok chunk) :
    chunk.data.length = chunk.compressedSize.toNat := by
  unfold transferDecodeChunk at decoded
  split at decoded
  · cases decoded
  · dsimp only at decoded
    split at decoded
    · cases decoded
    · rename_i checked
      simp only [not_or, not_not] at checked
      cases decoded
      show (payload.drop chunkFixedSize).length = _
      rw [List.length_drop, ← checked.2.2.2, Nat.add_sub_cancel_left]

/-- The chunk that `handle_store` hands over to the storage. -/
def decodeStoreChunk (payload : List UInt8) : Except Errno CarriedChunk :=
  match decoded : transferDecodeChunk payload transferStoreChunk with
  | .error code => .error code
  | .ok chunk => .ok ⟨chunk, transferDecodeChunk_carried decoded⟩

/-- The service after a call of the storage. -/
def PeerService.withSession (service : PeerService) (session : Session) : PeerService :=
  { service with session := session }

section Serving

variable [Sha256] [Lz4]

/-- The branches of `handle_store`, up to its `status`. -/
def storeStatus (service : PeerService) (surroundings : PeerSurroundings) (payload : List UInt8) :
    PeerService × Except Errno Unit :=
  if payload = [] then (service, .error .ebadmsg)
  else
    let operation := payload.getD 0 0
    if operation = transferStoreBegin then
      match transferDecodeDocument payload transferStoreBegin with
      | .error code => (service, .error code)
      | .ok document =>
        let called := (storageBegin service.session.1 surroundings.now document).run
          service.session.2
        (service.withSession called.1, called.2)
    else if operation = transferStoreChunk then
      match decodeStoreChunk payload with
      | .error code => (service, .error code)
      | .ok chunk =>
        let called := (storagePutChunk service.session.1 chunk).run service.session.2
        (service.withSession called.1, called.2)
    else if operation = transferStoreCommit then
      match transferDecodeObjectOperation payload transferStoreCommit with
      | .error code => (service, .error code)
      | .ok id =>
        let called := (storageCommit service.session.1 service.session.2 id).run service.session.2
        match called.2 with
        | .error code => (service.withSession called.1, .error code)
        | .ok document => (service.withSession called.1,
            announceDocument (service.withSession called.1) surroundings document)
    else (service, .error .enotsup)

/-- `handle_store`. -/
def handleStore (service : PeerService) (surroundings : PeerSurroundings) (message : Message) :
    PeerService × Option Message :=
  let stored := storeStatus service surroundings message.payload
  (stored.1, sendResponse stored.1 message (stored.2.map fun _ => (.ack, [])))

end Serving

/-! ### Downloads -/

/-- The payload of the reply of `handle_download`, for the outcome of the read. -/
def downloadPayload (read : Except Errno TransferChunk) : Except Errno (List UInt8) :=
  match read with
  | .error code => .error code
  | .ok chunk => transferEncodeChunk chunk transferDownloadChunk

/-- `handle_download`. -/
def handleDownload (service : PeerService) (message : Message) : PeerService × Option Message :=
  match transferDecodeChunkRequest message.payload with
  | .error code => (service, sendResponse service message (.error code))
  | .ok (id, index) =>
    let read := storageReadChunk service.session.1 service.cache service.session.2 id index
    ({ service with cache := read.1 }, sendResponse service message
      ((downloadPayload (read.2.outcome service.session.2)).map fun payload =>
        (.downloadRep, payload)))

/-! ### Connections -/

/-- The payload of a `PING`. -/
def pingPayload : List UInt8 := [80, 73, 78, 71]

/-- The payload of a `PONG`. -/
def pongPayload : List UInt8 := [80, 79, 78, 71]

section Connections

variable [Inet] [Sha256] [Process] [Lz4]

/-- `serve_connection`, for a message that `protocol_receive_message` has accepted. A transfer has
to name its source, and this peer as its destination. -/
def serveConnection (service : PeerService) (surroundings : PeerSurroundings)
    (message : Message) : PeerService × Option Message :=
  if (message.messageType = .store ∨ message.messageType = .downloadReq) ∧
      (message.sourceNode = zeroNodeId ∨ message.destinationNode ≠ service.id) then
    (service, sendResponse service message (.error .eacces))
  else match message.messageType with
    | .heartbeat =>
      let handled := heartbeatHandle service.heartbeat message surroundings.clocks
      ({ service with heartbeat := handled.1 }, sendResponse service message handled.2)
    | .store => handleStore service surroundings message
    | .downloadReq => handleDownload service message
    | .ping => (service, sendResponse service message
        (if message.payload = pingPayload then .ok (.pong, pongPayload) else .error .enotsup))
    | _ => (service, sendResponse service message (.error .enotsup))

end Connections

end SuperPeerNet
