/-
This file models the part of `transfer_protocol.c` that uploads and announcements use:
the documents, chunks and descriptors of `transfer_types.h` and their payloads.

A name is the bytes of a C string, without its terminator. Decoders check the whole
size of a payload before they read from it, so the readers below never run past its
end.
-/

import SuperPeerNet.Protocol

namespace SuperPeerNet

/-! ### Documents and descriptors -/

/-- `METADATA_NAME_SIZE`. -/
def metadataNameSize : Nat := 256

/-- `METADATA_CHUNK_SIZE`, 4 MiB. -/
def metadataChunkSize : UInt64 := 4194304

/-- `COMPRESSION_LZ4`. -/
def compressionLz4 : UInt8 := 1

/-- `TransferDocument`. -/
structure TransferDocument where
  id : ObjectID
  name : List UInt8
  fileSize : UInt64
  chunkCount : UInt64
  compression : UInt8
  deriving DecidableEq

/-- `MetadataChunk`: the descriptor of a chunk. -/
structure MetadataChunk where
  index : UInt64
  offset : UInt64
  rawSize : UInt32
  compressedSize : UInt32
  hash : Octets objectIdSize
  deriving DecidableEq

/-- `TransferChunk`. -/
structure TransferChunk where
  id : ObjectID
  index : UInt64
  offset : UInt64
  rawSize : UInt32
  compressedSize : UInt32
  hash : Octets objectIdSize
  data : List UInt8
  deriving DecidableEq

/-- The number of chunks that a file of the given size has. -/
def chunkCountOf (fileSize : UInt64) : UInt64 :=
  fileSize / metadataChunkSize + (if fileSize % metadataChunkSize ≠ 0 then 1 else 0)

/-- `TRANSFER_STORE_BEGIN`. -/
def transferStoreBegin : UInt8 := 1

/-- `TRANSFER_STORE_CHUNK`. -/
def transferStoreChunk : UInt8 := 2

/-- `TRANSFER_STORE_COMMIT`. -/
def transferStoreCommit : UInt8 := 3

/-- `TRANSFER_STORE_ANNOUNCE`. -/
def transferStoreAnnounce : UInt8 := 5

/-- `DOCUMENT_FIXED_SIZE`. -/
def documentFixedSize : Nat := 51

/-- `CHUNK_FIXED_SIZE`. -/
def chunkFixedSize : Nat := 89

/-- `DESCRIPTOR_SIZE`. -/
def descriptorSize : Nat := 56

/-! ### Encoding -/

/-- `encode_document_at`. -/
def encodeDocumentAt (document : TransferDocument) (operation : UInt8) (capacity : Nat) :
    Except Errno (List UInt8) :=
  let nameSize := document.name.length
  if nameSize = 0 ∨ nameSize ≥ metadataNameSize ∨ document.compression ≠ compressionLz4 ∨
      document.chunkCount ≠ chunkCountOf document.fileSize ∨
      capacity < 1 + documentFixedSize + nameSize then .error .einval
  else .ok (operation :: document.id.toList ++ wirePutU64 document.fileSize ++
    wirePutU64 document.chunkCount ++ [document.compression] ++
    wirePutU16 (UInt16.ofNat nameSize) ++ document.name)

/-- `encode_descriptor`. -/
def encodeDescriptor (chunk : MetadataChunk) : List UInt8 :=
  wirePutU64 chunk.index ++ wirePutU64 chunk.offset ++ wirePutU32 chunk.rawSize ++
    wirePutU32 chunk.compressedSize ++ chunk.hash.toList

/-- `transfer_encode_announcement`. -/
def transferEncodeAnnouncement (document : TransferDocument) (chunks : List MetadataChunk) :
    Except Errno (List UInt8) :=
  let base := 1 + documentFixedSize + min document.name.length metadataNameSize
  if base > maxPayloadSize ∨
      document.chunkCount.toNat > (maxPayloadSize - base) / descriptorSize then .error .emsgsize
  else
    let total := base + document.chunkCount.toNat * descriptorSize
    match encodeDocumentAt document transferStoreAnnounce total with
    | .error code => .error code
    | .ok header => .ok (header ++ (chunks.take document.chunkCount.toNat).flatMap encodeDescriptor)

/-! ### Decoding -/

/-- `decode_document_at`: the document and the number of bytes that it takes. -/
def decodeDocumentAt (payload : List UInt8) (expectedOperation : UInt8) :
    Except Errno (TransferDocument × Nat) :=
  if payload.length < 1 + documentFixedSize ∨ payload.getD 0 0 ≠ expectedOperation then
    .error .ebadmsg
  else
    let fileSize := wireGetU64 (payload.drop 33)
    let chunkCount := wireGetU64 (payload.drop 41)
    let compression := payload.getD 49 0
    let nameSize := (wireGetU16 (payload.drop 50)).toNat
    let name := (payload.drop 52).take nameSize
    if nameSize = 0 ∨ nameSize ≥ metadataNameSize ∨ 52 + nameSize > payload.length ∨
        0 ∈ name ∨ 47 ∈ name ∨ compression ≠ compressionLz4 ∨
        chunkCount ≠ chunkCountOf fileSize then .error .ebadmsg
    else .ok (⟨Octets.read objectIdSize (payload.drop 1), name, fileSize, chunkCount, compression⟩,
      52 + nameSize)

/-- `transfer_decode_document`. -/
def transferDecodeDocument (payload : List UInt8) (expectedOperation : UInt8) :
    Except Errno TransferDocument :=
  match decodeDocumentAt payload expectedOperation with
  | .error _ => .error .ebadmsg
  | .ok (document, used) => if used ≠ payload.length then .error .ebadmsg else .ok document

/-- `transfer_decode_chunk`. -/
def transferDecodeChunk (payload : List UInt8) (expectedOperation : UInt8) :
    Except Errno TransferChunk :=
  if payload.length < chunkFixedSize ∨ payload.getD 0 0 ≠ expectedOperation then .error .ebadmsg
  else
    let rawSize := wireGetU32 (payload.drop 49)
    let compressedSize := wireGetU32 (payload.drop 53)
    if rawSize = 0 ∨ rawSize.toUInt64 > metadataChunkSize ∨ compressedSize = 0 ∨
        chunkFixedSize + compressedSize.toNat ≠ payload.length then .error .ebadmsg
    else .ok
      { id := Octets.read objectIdSize (payload.drop 1)
        index := wireGetU64 (payload.drop 33)
        offset := wireGetU64 (payload.drop 41)
        rawSize := rawSize
        compressedSize := compressedSize
        hash := Octets.read objectIdSize (payload.drop 57)
        data := payload.drop chunkFixedSize }

/-- `transfer_decode_object_operation`. -/
def transferDecodeObjectOperation (payload : List UInt8) (expectedOperation : UInt8) :
    Except Errno ObjectID :=
  if payload.length ≠ 1 + objectIdSize ∨ payload.getD 0 0 ≠ expectedOperation then .error .ebadmsg
  else .ok (Octets.read objectIdSize (payload.drop 1))

/-- `decode_descriptor`. -/
def decodeDescriptor (input : List UInt8) : MetadataChunk where
  index := wireGetU64 input
  offset := wireGetU64 (input.drop 8)
  rawSize := wireGetU32 (input.drop 16)
  compressedSize := wireGetU32 (input.drop 20)
  hash := Octets.read objectIdSize (input.drop 24)

/-- `transfer_decode_announcement`. The product of the count and the size of a descriptor cannot
overflow once the count has been compared with the quotient. -/
def transferDecodeAnnouncement (payload : List UInt8) :
    Except Errno (TransferDocument × List MetadataChunk) :=
  match decodeDocumentAt payload transferStoreAnnounce with
  | .error code => .error code
  | .ok (document, used) =>
    let count := document.chunkCount.toNat
    let remaining := payload.length - used
    if count = 0 ∨ count > remaining / descriptorSize ∨ remaining ≠ count * descriptorSize then
      .error .ebadmsg
    else .ok (document, (List.range count).map fun index =>
      decodeDescriptor (payload.drop (used + index * descriptorSize)))

/-! ### What a decoder has checked -/

/-- What `decode_document_at` has checked of a document. -/
structure TransferDocument.Decoded (document : TransferDocument) : Prop where
  nonempty : document.name ≠ []
  short : document.name.length < metadataNameSize
  compression : document.compression = compressionLz4
  count : document.chunkCount = chunkCountOf document.fileSize

/-- What `decode_document_at` has checked, with the bytes that a name may not contain. -/
structure TransferDocument.Recordable (document : TransferDocument) : Prop
    extends document.Decoded where
  terminated : 0 ∉ document.name
  plain : 47 ∉ document.name

theorem decodeDocumentAt_recordable {payload : List UInt8} {operation : UInt8}
    {document : TransferDocument} {used : Nat}
    (decoded : decodeDocumentAt payload operation = .ok (document, used)) :
    document.Recordable := by
  unfold decodeDocumentAt at decoded
  split at decoded
  · cases decoded
  · simp only at decoded
    split at decoded
    · cases decoded
    · rename_i checked
      cases decoded
      simp only [not_or, not_not, not_le, not_lt] at checked
      obtain ⟨nonzero, short, inside, terminated, plain, compression, count⟩ := checked
      have length : ((payload.drop 52).take (wireGetU16 (payload.drop 50)).toNat).length =
          (wireGetU16 (payload.drop 50)).toNat := by
        rw [List.length_take, List.length_drop]
        omega
      refine ⟨⟨?_, ?_, compression, count⟩, terminated, plain⟩
      · intro empty
        rw [show (payload.drop 52).take (wireGetU16 (payload.drop 50)).toNat = [] from empty]
          at length
        exact nonzero length.symm
      · show ((payload.drop 52).take (wireGetU16 (payload.drop 50)).toNat).length < _
        rw [length]
        exact short

theorem decodeDocumentAt_ok {payload : List UInt8} {operation : UInt8}
    {document : TransferDocument} {used : Nat}
    (decoded : decodeDocumentAt payload operation = .ok (document, used)) : document.Decoded :=
  (decodeDocumentAt_recordable decoded).toDecoded

theorem transferDecodeDocument_recordable {payload : List UInt8} {operation : UInt8}
    {document : TransferDocument}
    (decoded : transferDecodeDocument payload operation = .ok document) :
    document.Recordable := by
  unfold transferDecodeDocument at decoded
  cases header : decodeDocumentAt payload operation with
  | error code =>
    rw [header] at decoded
    cases decoded
  | ok read =>
    rw [header] at decoded
    simp only at decoded
    split at decoded
    · cases decoded
    · cases decoded
      exact decodeDocumentAt_recordable header

/-- A decoded announcement has as many descriptors as its document has chunks, and at least one. -/
theorem transferDecodeAnnouncement_ok {payload : List UInt8} {document : TransferDocument}
    {chunks : List MetadataChunk}
    (decoded : transferDecodeAnnouncement payload = .ok (document, chunks)) :
    document.Decoded ∧ chunks.length = document.chunkCount.toNat ∧
      document.chunkCount.toNat ≠ 0 := by
  unfold transferDecodeAnnouncement at decoded
  split at decoded
  · cases decoded
  · rename_i found used header
    simp only at decoded
    split at decoded
    · cases decoded
    · rename_i checked
      cases decoded
      rw [not_or] at checked
      exact ⟨decodeDocumentAt_ok header, by simp, checked.1⟩

end SuperPeerNet
