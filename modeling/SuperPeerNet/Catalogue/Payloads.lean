/-
This file models the rest of `transfer_protocol.c`: the payloads of chunks, lookups and requests.

A lookup result is a document and, for each chunk, its descriptor and the peers that have it. Its
size is added up before anything is written. The sums of the source are made in words of 64 bits
and cannot wrap there, except for the size of a chunk, which is added up in 32 bits.
-/

import SuperPeerNet.Catalogue.Transfer
import SuperPeerNet.Library.Reading
import SuperPeerNet.Node

namespace SuperPeerNet

open Reading

/-! ### Locations -/

/-- `TransferEndpoint`. -/
structure TransferEndpoint where
  nodeId : NodeID
  ip : List UInt8
  port : UInt16
  deriving DecidableEq

/-- `TransferChunkLocations`. -/
structure TransferChunkLocations where
  descriptor : MetadataChunk
  peers : List TransferEndpoint
  deriving DecidableEq

/-- `TransferLookupResult`. -/
structure TransferLookupResult where
  document : TransferDocument
  chunks : List TransferChunkLocations
  deriving DecidableEq

/-- `TransferSelectorType`. -/
inductive TransferSelectorType where
  | objectId | name
  deriving DecidableEq

namespace TransferSelectorType

/-- The value of the enumeration. -/
def number : TransferSelectorType → UInt8
  | .objectId => 1
  | .name => 2

end TransferSelectorType

/-- `TRANSFER_DOWNLOAD_CHUNK`. -/
def transferDownloadChunk : UInt8 := 2

/-- `TRANSFER_DOWNLOAD_METADATA`. -/
def transferDownloadMetadata : UInt8 := 3

/-- `ENDPOINT_FIXED_SIZE`. -/
def endpointFixedSize : Nat := 35

/-! ### Encoding -/

/-- `document_wire_size`. -/
def documentWireSize (document : TransferDocument) : Nat :=
  1 + documentFixedSize + min document.name.length metadataNameSize

/-- `transfer_encode_document`. -/
def transferEncodeDocument (document : TransferDocument) (operation : UInt8) :
    Except Errno (List UInt8) :=
  let size := documentWireSize document
  if size > maxPayloadSize ∨ size > 2 ^ 32 - 1 then .error .eoverflow
  else encodeDocumentAt document operation size

/-- The bytes of a chunk. -/
def chunkBytes (chunk : TransferChunk) (operation : UInt8) : List UInt8 :=
  operation :: (chunk.id.toList ++ (wirePutU64 chunk.index ++ (wirePutU64 chunk.offset ++
    (wirePutU32 chunk.rawSize ++ (wirePutU32 chunk.compressedSize ++ (chunk.hash.toList ++
      chunk.data.take chunk.compressedSize.toNat))))))

/-- `transfer_encode_chunk`. The operands of the sum are words of 32 bits, so it is a sum of such
words. The output is what the buffer of that size holds of the bytes that are written. -/
def transferEncodeChunk (chunk : TransferChunk) (operation : UInt8) : Except Errno (List UInt8) :=
  if chunk.rawSize = 0 ∨ chunk.compressedSize = 0 then .error .einval
  else
    let size : UInt32 := UInt32.ofNat chunkFixedSize + chunk.compressedSize
    if size.toNat > maxPayloadSize ∨ size.toNat > 2 ^ 32 - 1 then .error .eoverflow
    else .ok ((chunkBytes chunk operation).take size.toNat)

/-- `transfer_encode_object_operation`. -/
def transferEncodeObjectOperation (operation : UInt8) (id : ObjectID) : List UInt8 :=
  operation :: id.toList

/-- The value of a hexadecimal digit. -/
def hexDigit (digit : UInt8) : Option UInt8 :=
  if 48 ≤ digit ∧ digit ≤ 57 then some (digit - 48)
  else if 97 ≤ digit ∧ digit ≤ 102 then some (digit - 97 + 10)
  else if 65 ≤ digit ∧ digit ≤ 70 then some (digit - 65 + 10)
  else none

/-- The loop of `object_id_from_hex`: each pair of digits is a byte. -/
def bytesFromHex : List UInt8 → Option (List UInt8)
  | [] => some []
  | [_] => none
  | high :: low :: rest => do
    let first ← hexDigit high
    let second ← hexDigit low
    let bytes ← bytesFromHex rest
    pure ((first <<< 4 ||| second) :: bytes)

/-- `object_id_from_hex`. -/
def objectIdFromHex (text : List UInt8) : Option ObjectID :=
  if text.length ≠ objectIdSize * 2 then none
  else (bytesFromHex text).map (Octets.read objectIdSize)

/-- `transfer_encode_lookup_request`. -/
def transferEncodeLookupRequest (selector : List UInt8) : Except Errno (List UInt8) :=
  match objectIdFromHex selector with
  | some id => .ok (TransferSelectorType.objectId.number ::
      (wirePutU16 (UInt16.ofNat objectIdSize) ++ id.toList))
  | none =>
    if selector.length = 0 ∨ selector.length ≥ metadataNameSize then .error .einval
    else .ok (TransferSelectorType.name.number ::
      (wirePutU16 (UInt16.ofNat selector.length) ++ selector))

/-- The first loop of `transfer_encode_lookup_result` over the peers of a chunk: their size is added
to a size. -/
def endpointsSize (size : Nat) : List TransferEndpoint → Except Errno Nat
  | [] => .ok size
  | endpoint :: rest =>
    if endpoint.ip.length = 0 ∨ endpoint.ip.length ≥ nodeAddressSize then .error .einval
    else endpointsSize (size + (endpointFixedSize + endpoint.ip.length)) rest

/-- The first loop of `transfer_encode_lookup_result` over the chunks. -/
def locationsSize (size : Nat) : List TransferChunkLocations → Except Errno Nat
  | [] => .ok size
  | chunk :: rest =>
    if chunk.peers.length > 2 ^ 16 - 1 then .error .eoverflow
    else match endpointsSize (size + (2 + descriptorSize)) chunk.peers with
      | .error code => .error code
      | .ok size => locationsSize size rest

/-- The bytes of an endpoint. -/
def endpointBytes (endpoint : TransferEndpoint) : List UInt8 :=
  endpoint.nodeId.toList ++ (UInt8.ofNat endpoint.ip.length :: (endpoint.ip ++
    wirePutU16 endpoint.port))

/-- The bytes of the locations of a chunk. -/
def locationsBytes (chunk : TransferChunkLocations) : List UInt8 :=
  encodeDescriptor chunk.descriptor ++ (wirePutU16 (UInt16.ofNat chunk.peers.length) ++
    chunk.peers.flatMap endpointBytes)

/-- `transfer_encode_lookup_result`. The array of chunks has as many as the document counts. -/
def transferEncodeLookupResult (result : TransferLookupResult) : Except Errno (List UInt8) :=
  let chunks := result.chunks.take result.document.chunkCount.toNat
  match locationsSize (documentWireSize result.document) chunks with
  | .error code => .error code
  | .ok size =>
    if size > maxPayloadSize ∨ size > 2 ^ 32 - 1 then .error .eoverflow
    else match encodeDocumentAt result.document transferDownloadMetadata size with
      | .error code => .error code
      | .ok header => .ok (header ++ chunks.flatMap locationsBytes)

/-- `transfer_encode_chunk_request`. -/
def transferEncodeChunkRequest (id : ObjectID) (index : UInt64) : List UInt8 :=
  transferDownloadChunk :: (id.toList ++ wirePutU64 index)

/-! ### Decoding -/

/-- `transfer_decode_lookup_request`: the type of the selector, the id and the name, of which one is
left empty. -/
def transferDecodeLookupRequest (payload : List UInt8) :
    Except Errno (TransferSelectorType × ObjectID × List UInt8) :=
  if payload.length < 3 then .error .ebadmsg
  else
    let length := (wireGetU16 (payload.drop 1)).toNat
    let operation := payload.getD 0 0
    let name := (payload.drop 3).take length
    if (operation ≠ TransferSelectorType.objectId.number ∧
        operation ≠ TransferSelectorType.name.number) ∨ 3 + length ≠ payload.length then
      .error .ebadmsg
    else if operation = TransferSelectorType.objectId.number then
      if length ≠ objectIdSize then .error .ebadmsg
      else .ok (.objectId, Octets.read objectIdSize (payload.drop 3), [])
    else if length = 0 ∨ length ≥ metadataNameSize ∨ 0 ∈ name ∨ 47 ∈ name then .error .ebadmsg
    else .ok (.name, Octets.fill objectIdSize 0, name)

/-- One turn of the loop of `transfer_decode_lookup_result` over the peers of a chunk. An address is
a C string, so it ends before its first zero. -/
def readEndpoint (_ : Nat) : Reader UInt8 Errno TransferEndpoint := do
  require .ebadmsg endpointFixedSize
  let id ← take .ebadmsg nodeIdSize
  let size ← take .ebadmsg 1
  let ipSize := (size.getD 0 0).toNat
  ensure .ebadmsg ¬(ipSize = 0 ∨ ipSize ≥ nodeAddressSize)
  require .ebadmsg (ipSize + 2)
  let ip ← take .ebadmsg ipSize
  let port ← take .ebadmsg 2
  ensure .ebadmsg (wireGetU16 port ≠ 0)
  pure ⟨Octets.read nodeIdSize id, ip.takeWhile (· ≠ 0), wireGetU16 port⟩

/-- One turn of the loop of `transfer_decode_lookup_result` over the chunks. -/
def readLocations (index : Nat) : Reader UInt8 Errno TransferChunkLocations := do
  require .ebadmsg (descriptorSize + 2)
  let descriptor ← decodeDescriptor <$> take .ebadmsg descriptorSize
  ensure .ebadmsg (descriptor.index = UInt64.ofNat index)
  let count ← wireGetU16 <$> take .ebadmsg 2
  let peers ← table readEndpoint count.toNat 0
  pure ⟨descriptor, peers.1⟩

/-- `transfer_decode_lookup_result`. The count of a document fits its file size, so an array of that
many chunks is never too large for a word. -/
def transferDecodeLookupResult (payload : List UInt8) : Except Errno TransferLookupResult :=
  match decodeDocumentAt payload transferDownloadMetadata with
  | .error code => .error code
  | .ok (document, used) =>
    if document.chunkCount.toNat > (payload.length - used) / (descriptorSize + 2) then
      .error .ebadmsg
    else match table readLocations document.chunkCount.toNat 0 (payload.drop used) with
      | .error code => .error code
      | .ok (chunks, rest) =>
        if rest ≠ [] then .error .ebadmsg else .ok ⟨document, chunks.1⟩

/-- `transfer_decode_chunk_request`. -/
def transferDecodeChunkRequest (payload : List UInt8) : Except Errno (ObjectID × UInt64) :=
  if payload.length ≠ 1 + objectIdSize + 8 ∨ payload.getD 0 0 ≠ transferDownloadChunk then
    .error .ebadmsg
  else .ok (Octets.read objectIdSize (payload.drop 1), wireGetU64 (payload.drop 33))

end SuperPeerNet
