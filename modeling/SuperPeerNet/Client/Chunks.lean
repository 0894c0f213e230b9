/-
This file models what the workers of `file_client.c` do with one chunk: the body of
`upload_worker` between its mutex sections, and `download_one`.

What comes from outside is an argument: the bytes that are read, their compressed form,
the responses of the peers and the failures of the calls. The output file is the list of
its bytes; a chunk of a download writes its own part of the file only.
-/

import SuperPeerNet.Catalogue.Payloads
import SuperPeerNet.Storage.Manifest

namespace SuperPeerNet

/-! ### Requests -/

/-- `request_expect`, for the outcome of `rpc_call`. -/
def requestExpect (response : Except Errno Message) (expected : MessageType) :
    Except Errno Message :=
  match response with
  | .error code => .error code
  | .ok message =>
    if message.messageType = expected then .ok message
    else if message.messageType = .error then .error (remoteErrorDecode message.payload)
    else .error .ebadmsg

/-! ### Uploading a chunk -/

/-- What an upload of a chunk meets. -/
structure UploadConditions where
  /-- The bytes that `pread_all` reads, or the failure of the allocation or of the reading. -/
  read : Except Errno (List UInt8)
  /-- The block that `compression_lz4_compress` makes of them. -/
  compressed : Except Errno (List UInt8)
  /-- The outcome of `rpc_call`. -/
  response : Except Errno Message

/-- The chunk that `upload_worker` sends. -/
def uploadedChunk [Sha256] (document : TransferDocument) (index : UInt64)
    (raw compressed : List UInt8) : TransferChunk where
  id := document.id
  index := index
  offset := index * metadataChunkSize
  rawSize := expectedSize document.fileSize index
  compressedSize := UInt32.ofNat compressed.length
  hash := contentSha256 raw
  data := compressed

/-- The body of `upload_worker` for an index: the digests of the chunks after it, and the compressed
size, or the `errno` of the call that has failed. A block that is too large leaves `errno` as it
is. -/
def uploadChunk [Sha256] (document : TransferDocument) (index : UInt64)
    (conditions : UploadConditions) (hashes : List (Octets objectIdSize)) :
    List (Octets objectIdSize) × Except (Option Errno) Nat :=
  match conditions.read with
  | .error code => (hashes, .error (some code))
  | .ok raw =>
    match conditions.compressed with
    | .error code => (hashes, .error (some code))
    | .ok compressed =>
      if compressed.length > 0xffffffff then (hashes, .error none)
      else
        let chunk := uploadedChunk document index raw compressed
        let hashes := hashes.set index.toNat chunk.hash
        match transferEncodeChunk chunk transferStoreChunk with
        | .error code => (hashes, .error (some code))
        | .ok _ =>
          match requestExpect conditions.response .ack with
          | .error code => (hashes, .error (some code))
          | .ok _ => (hashes, .ok compressed.length)

/-! ### Downloading a chunk -/

/-- What an attempt to download a chunk from a peer meets. -/
structure DownloadConditions where
  /-- The outcome of `rpc_call`. -/
  response : Except Errno Message
  /-- The number of bytes after which `pwrite_all` fails, if it fails. -/
  broken : Option Nat

/-- Write bytes into a file at an offset. A gap reads as zeros. -/
def writeAt (file : List UInt8) (offset : Nat) (bytes : List UInt8) : List UInt8 :=
  file.take offset ++ List.replicate (offset - file.length) 0 ++ bytes ++
    file.drop (offset + bytes.length)

/-- `pwrite_all`. -/
def pwriteAll (file : List UInt8) (bytes : List UInt8) (offset : UInt64) (broken : Option Nat) :
    List UInt8 × Except Errno Unit :=
  if offset.toNat > 2 ^ 63 - 1 then (file, .error .eoverflow)
  else match broken with
    | none => (writeAt file offset.toNat bytes, .ok ())
    | some count => (writeAt file offset.toNat (bytes.take count), .error .eio)

section Download

variable [Sha256] [Lz4]

/-- The checks of `download_one` on a response: the chunk and its contents. -/
def downloadedChunk (lookup : TransferLookupResult) (index : UInt64)
    (hash : Octets objectIdSize) (response : Except Errno Message) :
    Except Errno (TransferChunk × List UInt8) := do
  let message ← requestExpect response .downloadRep
  let chunk ← transferDecodeChunk message.payload transferDownloadChunk
  if chunk.id ≠ lookup.document.id ∨ chunk.index ≠ index ∨
      chunk.offset ≠ index * metadataChunkSize ∨
      chunk.rawSize ≠ expectedSize lookup.document.fileSize index then throw .ebadmsg
  let raw ← compressionLz4Decompress chunk.data chunk.rawSize.toNat
  if contentSha256 raw ≠ chunk.hash ∨ contentSha256 raw ≠ hash then throw .ebadmsg
  pure (chunk, raw)

/-- What the checks of `download_one` say of a message, the chunk in it and its bytes. -/
structure DownloadChecked (lookup : TransferLookupResult) (index : UInt64)
    (hash : Octets objectIdSize) (message : Message) (chunk : TransferChunk) (raw : List UInt8) :
    Prop where
  kind : message.messageType = .downloadRep
  decoded : transferDecodeChunk message.payload transferDownloadChunk = .ok chunk
  isId : chunk.id = lookup.document.id
  isIndex : chunk.index = index
  offset : chunk.offset = index * metadataChunkSize
  rawSize : chunk.rawSize = expectedSize lookup.document.fileSize index
  decompressed : compressionLz4Decompress chunk.data chunk.rawSize.toNat = .ok raw
  declared : contentSha256 raw = chunk.hash
  digest : contentSha256 raw = hash

omit [Sha256] [Lz4] in
/-- A response is taken if it is a message of the expected type. -/
theorem requestExpect_eq_ok {response : Except Errno Message} {expected : MessageType}
    {message : Message} : requestExpect response expected = .ok message ↔
      response = .ok message ∧ message.messageType = expected := by
  unfold requestExpect
  constructor
  · intro taken
    cases response with
    | error code => cases taken
    | ok sent =>
      dsimp only at taken
      split at taken
      · rename_i kind
        cases taken
        exact ⟨rfl, kind⟩
      · split at taken <;> cases taken
  · rintro ⟨rfl, kind⟩
    exact if_pos kind

/-- `download_one` takes exactly what passes its checks. -/
theorem downloadedChunk_eq_ok {lookup : TransferLookupResult} {index : UInt64}
    {hash : Octets objectIdSize} {response : Except Errno Message} {chunk : TransferChunk}
    {raw : List UInt8} : downloadedChunk lookup index hash response = .ok (chunk, raw) ↔
      ∃ message, response = .ok message ∧
        DownloadChecked lookup index hash message chunk raw := by
  constructor
  · intro taken
    obtain ⟨message, expected, rest⟩ := bind_eq_ok.mp taken
    obtain ⟨received, kind⟩ := requestExpect_eq_ok.mp expected
    obtain ⟨found, decoded, checked⟩ := bind_eq_ok.mp rest
    split at checked
    · cases checked
    · rename_i fits
      rw [not_or, not_or, not_or, not_not, not_not, not_not, not_not] at fits
      obtain ⟨content, decompressed, compared⟩ := bind_eq_ok.mp checked
      split at compared
      · cases compared
      · rename_i digests
        cases compared
        rw [not_or, not_not, not_not] at digests
        exact ⟨message, received, kind, decoded, fits.1, fits.2.1, fits.2.2.1, fits.2.2.2,
          decompressed, digests.1, digests.2⟩
  · rintro ⟨message, rfl, checked⟩
    refine bind_eq_ok.mpr ⟨message, requestExpect_eq_ok.mpr ⟨rfl, checked.kind⟩, ?_⟩
    refine bind_eq_ok.mpr ⟨chunk, checked.decoded, ?_⟩
    rw [if_neg]
    · refine bind_eq_ok.mpr ⟨raw, checked.decompressed, ?_⟩
      rw [if_neg]
      · rfl
      · rintro (wrong | wrong)
        · exact wrong checked.declared
        · exact wrong checked.digest
    · rintro (wrong | wrong | wrong | wrong)
      · exact wrong checked.isId
      · exact wrong checked.isIndex
      · exact wrong checked.offset
      · exact wrong checked.rawSize

/-- The loop of `download_one` over the peers that have the chunk, with what each attempt meets: the
output file after it, and the compressed size. -/
def downloadAttempts (lookup : TransferLookupResult) (index : UInt64)
    (hash : Octets objectIdSize) (conditions : Nat → DownloadConditions) :
    List TransferEndpoint → Nat → List UInt8 → List UInt8 × Except (Option Errno) Nat
  | [], _, file => (file, .error (some .eremoteio))
  | _ :: rest, attempt, file =>
    match downloadedChunk lookup index hash (conditions attempt).response with
    | .error _ => downloadAttempts lookup index hash conditions rest (attempt + 1) file
    | .ok (chunk, raw) =>
      match pwriteAll file raw chunk.offset (conditions attempt).broken with
      | (file, .ok _) => (file, .ok chunk.compressedSize.toNat)
      | (file, .error _) =>
        downloadAttempts lookup index hash conditions rest (attempt + 1) file

/-- `download_one`. -/
def downloadOne (lookup : TransferLookupResult) (index : UInt64)
    (conditions : Nat → DownloadConditions) (file : List UInt8) :
    List UInt8 × Except (Option Errno) Nat :=
  match lookup.chunks[index.toNat]? with
  | none => (file, .error (some .eremoteio))
  | some locations =>
    downloadAttempts lookup index locations.descriptor.hash conditions locations.peers 0 file

end Download

end SuperPeerNet
