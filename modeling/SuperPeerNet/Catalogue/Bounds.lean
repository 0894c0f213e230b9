/-
This file models the decoders of `transfer_protocol.c` with their accesses to memory.

Every read of the payload and every write to a name, to an address or to an allocated array is
checked against its bounds, and sums of sizes are those of words of 64 bits. For payloads that a
message can carry the checks never fail, and the decoders compute what the decoders over lists do.
-/

import SuperPeerNet.Library.Bounded
import SuperPeerNet.Catalogue.RoundTrip

namespace SuperPeerNet

open Bounded Reading

/-! ### Decoders over memory -/

/-- A value of type `size_t`. -/
def sizeWord (value : Nat) : Nat := value % 2 ^ 64

/-- `decode_document_at`. -/
def loadDocumentAt (payload : List UInt8) (expectedOperation : UInt8) :
    Access Errno (TransferDocument × Nat) := do
  reject .ebadmsg (payload.length < 1 + documentFixedSize)
  let operation ← load payload 0 1
  reject .ebadmsg (operation.getD 0 0 ≠ expectedOperation)
  let id ← load payload 1 objectIdSize
  let fileSize ← wireGetU64 <$> load payload 33 8
  let chunkCount ← wireGetU64 <$> load payload 41 8
  let compression ← load payload 49 1
  let nameSize ← wireGetU16 <$> load payload 50 2
  reject .ebadmsg (nameSize.toNat = 0 ∨ nameSize.toNat ≥ metadataNameSize ∨
    sizeWord (52 + nameSize.toNat) > payload.length)
  -- both searches read the name
  let name ← load payload 52 nameSize.toNat
  reject .ebadmsg (0 ∈ name ∨ 47 ∈ name ∨ compression.getD 0 0 ≠ compressionLz4 ∨
    chunkCount ≠ chunkCountOf fileSize)
  fit metadataNameSize 0 nameSize.toNat
  fit metadataNameSize nameSize.toNat 1
  pure (⟨Octets.read objectIdSize id, name, fileSize, chunkCount, compression.getD 0 0⟩,
    sizeWord (52 + nameSize.toNat))

/-- `transfer_decode_document`. -/
def loadDocument (payload : List UInt8) (expectedOperation : UInt8) :
    Access Errno TransferDocument := do
  let (document, used) ← loadDocumentAt payload expectedOperation
  reject .ebadmsg (used ≠ payload.length)
  pure document

/-- `transfer_decode_chunk`. The data stay in the payload: what the pointer is given for has to lie
inside. -/
def loadChunk (payload : List UInt8) (expectedOperation : UInt8) : Access Errno TransferChunk := do
  reject .ebadmsg (payload.length < chunkFixedSize)
  let operation ← load payload 0 1
  reject .ebadmsg (operation.getD 0 0 ≠ expectedOperation)
  let id ← load payload 1 objectIdSize
  let index ← wireGetU64 <$> load payload 33 8
  let offset ← wireGetU64 <$> load payload 41 8
  let rawSize ← wireGetU32 <$> load payload 49 4
  let compressedSize ← wireGetU32 <$> load payload 53 4
  let hash ← load payload 57 objectIdSize
  reject .ebadmsg (rawSize = 0 ∨ rawSize.toUInt64 > metadataChunkSize ∨ compressedSize = 0 ∨
    sizeWord (chunkFixedSize + compressedSize.toNat) ≠ payload.length)
  let data ← load payload chunkFixedSize compressedSize.toNat
  pure ⟨Octets.read objectIdSize id, index, offset, rawSize, compressedSize,
    Octets.read objectIdSize hash, data⟩

/-- `decode_descriptor`, at an offset of the payload. -/
def loadDescriptor (payload : List UInt8) (offset : Nat) : Access Errno MetadataChunk := do
  let index ← wireGetU64 <$> load payload offset 8
  let position ← wireGetU64 <$> load payload (sizeWord (offset + 8)) 8
  let rawSize ← wireGetU32 <$> load payload (sizeWord (offset + 16)) 4
  let compressedSize ← wireGetU32 <$> load payload (sizeWord (offset + 20)) 4
  let hash ← load payload (sizeWord (offset + 24)) objectIdSize
  pure ⟨index, position, rawSize, compressedSize, Octets.read objectIdSize hash⟩

/-- A descriptor as `calloc` leaves it. -/
def MetadataChunk.blank : MetadataChunk := ⟨0, 0, 0, 0, Octets.fill objectIdSize 0⟩

/-- One turn of the loop of `transfer_decode_announcement`. -/
def loadListed (payload : List UInt8) (used index : Nat) (_ : Unit) :
    Access Errno (MetadataChunk × Unit) := do
  let chunk ← loadDescriptor payload (sizeWord (used + sizeWord (index * descriptorSize)))
  pure (chunk, ())

/-- `transfer_decode_announcement`. -/
def loadAnnouncement (payload : List UInt8) :
    Access Errno (TransferDocument × List MetadataChunk) := do
  let (document, used) ← loadDocumentAt payload transferStoreAnnounce
  let count := document.chunkCount.toNat
  reject .ebadmsg (count = 0 ∨ count > (payload.length - used) / descriptorSize ∨
    payload.length - used ≠ sizeWord (count * descriptorSize))
  let (list, _) ← fill (loadListed payload used) count 0 () (List.replicate count .blank)
  pure (document, list)

/-- `transfer_decode_lookup_request`. -/
def loadLookupRequest (payload : List UInt8) :
    Access Errno (TransferSelectorType × ObjectID × List UInt8) := do
  reject .ebadmsg (payload.length < 3)
  let length ← (fun bytes => (wireGetU16 bytes).toNat) <$> load payload 1 2
  let operation ← (fun bytes => bytes.getD 0 0) <$> load payload 0 1
  reject .ebadmsg ((operation ≠ TransferSelectorType.objectId.number ∧
    operation ≠ TransferSelectorType.name.number) ∨ sizeWord (3 + length) ≠ payload.length)
  if operation = TransferSelectorType.objectId.number then
    reject .ebadmsg (length ≠ objectIdSize)
    let id ← load payload 3 objectIdSize
    pure (.objectId, Octets.read objectIdSize id, [])
  else
    reject .ebadmsg (length = 0 ∨ length ≥ metadataNameSize)
    let name ← load payload 3 length
    reject .ebadmsg (0 ∈ name ∨ 47 ∈ name)
    fit metadataNameSize 0 length
    pure (.name, Octets.fill objectIdSize 0, name)

/-- `transfer_decode_chunk_request`. -/
def loadChunkRequest (payload : List UInt8) : Access Errno (ObjectID × UInt64) := do
  reject .ebadmsg (payload.length ≠ 1 + objectIdSize + 8)
  let operation ← load payload 0 1
  reject .ebadmsg (operation.getD 0 0 ≠ transferDownloadChunk)
  let id ← load payload 1 objectIdSize
  let index ← wireGetU64 <$> load payload 33 8
  pure (Octets.read objectIdSize id, index)

/-- The inner loop of `transfer_decode_lookup_result`, for one peer. -/
def loadEndpoint (payload : List UInt8) (_ offset : Nat) :
    Access Errno (TransferEndpoint × Nat) := do
  reject .ebadmsg (sizeWord (offset + endpointFixedSize) > payload.length)
  let id ← load payload offset nodeIdSize
  let size ← load payload (sizeWord (offset + 32)) 1
  let ipSize := (size.getD 0 0).toNat
  reject .ebadmsg (ipSize = 0 ∨ ipSize ≥ nodeAddressSize ∨
    sizeWord (offset + 33 + ipSize + 2) > payload.length)
  let ip ← load payload (sizeWord (offset + 33)) ipSize
  fit nodeAddressSize 0 ipSize
  fit nodeAddressSize ipSize 1
  let port ← wireGetU16 <$> load payload (sizeWord (offset + 33 + ipSize)) 2
  reject .ebadmsg (port = 0)
  pure (⟨Octets.read nodeIdSize id, ip.takeWhile (· ≠ 0), port⟩, sizeWord (offset + 35 + ipSize))

/-- An endpoint as `calloc` leaves it. -/
def TransferEndpoint.blank : TransferEndpoint := ⟨Octets.fill nodeIdSize 0, [], 0⟩

/-- The outer loop of `transfer_decode_lookup_result`, for one chunk. -/
def loadLocations (payload : List UInt8) (index offset : Nat) :
    Access Errno (TransferChunkLocations × Nat) := do
  reject .ebadmsg (sizeWord (offset + descriptorSize + 2) > payload.length)
  let descriptor ← loadDescriptor payload offset
  reject .ebadmsg (descriptor.index ≠ UInt64.ofNat index)
  let count ← wireGetU16 <$> load payload (sizeWord (offset + descriptorSize)) 2
  let (peers, next) ← fill (loadEndpoint payload) count.toNat 0
    (sizeWord (offset + descriptorSize + 2)) (List.replicate count.toNat .blank)
  pure (⟨descriptor, peers⟩, next)

/-- Locations as `calloc` leaves them. -/
def TransferChunkLocations.blank : TransferChunkLocations := ⟨.blank, []⟩

/-- `transfer_decode_lookup_result`. -/
def loadLookupResult (payload : List UInt8) : Access Errno TransferLookupResult := do
  let (document, used) ← loadDocumentAt payload transferDownloadMetadata
  let count := document.chunkCount.toNat
  reject .ebadmsg (count > (payload.length - used) / (descriptorSize + 2))
  let (chunks, next) ← fill (loadLocations payload) count 0 used (List.replicate count .blank)
  reject .ebadmsg (next ≠ payload.length)
  pure ⟨document, chunks⟩

/-! ### Nothing is read outside -/

section Inside

variable {payload : List UInt8}

theorem sizeWord_of_small {value : Nat} (small : value < 2 ^ 64) : sizeWord value = value :=
  Nat.mod_eq_of_lt small

theorem loadDocumentAt_eq (payload : List UInt8) (operation : UInt8) :
    loadDocumentAt payload operation = lift (decodeDocumentAt payload operation) := by
  unfold loadDocumentAt decodeDocumentAt
  by_cases short : payload.length < 1 + documentFixedSize
  · simp only [short, reject_bind, if_true, true_or, lift_error]
  · have reads : ∀ offset count, offset + count ≤ 52 →
        (load payload offset count : Access Errno _) = .ok ((payload.drop offset).take count) := by
      intro offset count inside
      refine load_of_inside ?_
      rw [documentFixedSize] at short
      omega
    have nameSize := (wireGetU16 (payload.drop 50)).toNat_lt
    have sum : sizeWord (52 + (wireGetU16 (payload.drop 50)).toNat) =
        52 + (wireGetU16 (payload.drop 50)).toNat := sizeWord_of_small (by omega)
    simp only [short, reject_bind, if_false, false_or, reads 0 1 (by omega),
      reads 1 objectIdSize (by decide), reads 33 8 (by omega), reads 41 8 (by omega),
      reads 49 1 (by omega), reads 50 2 (by omega), ok_bind, ok_map, List.drop_zero,
      getD_take_one, getD_drop_zero, wireGetU64_take, wireGetU16_take, Octets.read_take, sum]
    split
    · rfl
    · split
      · rename_i outside
        rw [if_pos (outside.imp_right fun rest => rest.imp_right Or.inl)]
        rfl
      · rename_i inside
        rw [not_or, not_or, gt_iff_lt, not_lt, ge_iff_le, not_le] at inside
        rw [load_of_inside inside.2.2, ok_bind]
        split
        · rename_i refused
          rw [if_pos (Or.inr (Or.inr (Or.inr refused)))]
          rfl
        · rename_i accepted
          rw [fit_of_inside (by omega), ok_bind, fit_of_inside (by omega), ok_bind, if_neg]
          · rfl
          · rw [not_or, not_or, not_or]
            exact ⟨inside.1, not_le.mpr inside.2.1, not_lt.mpr inside.2.2, accepted⟩

/-- The header of a document is refused for one reason only. -/
theorem decodeDocumentAt_error {operation : UInt8} {code : Errno}
    (refused : decodeDocumentAt payload operation = .error code) : code = .ebadmsg := by
  unfold decodeDocumentAt at refused
  dsimp only at refused
  split at refused
  · cases refused
    rfl
  · split at refused
    · cases refused
      rfl
    · cases refused

theorem loadDocument_eq (payload : List UInt8) (operation : UInt8) :
    loadDocument payload operation = lift (transferDecodeDocument payload operation) := by
  unfold loadDocument transferDecodeDocument
  rw [loadDocumentAt_eq]
  cases header : decodeDocumentAt payload operation with
  | error code =>
    rw [decodeDocumentAt_error header]
    rfl
  | ok read =>
    simp only [lift_ok, ok_bind, reject_bind]
    split <;> rfl

theorem loadChunk_eq (payload : List UInt8) (operation : UInt8) :
    loadChunk payload operation = lift (transferDecodeChunk payload operation) := by
  unfold loadChunk transferDecodeChunk
  by_cases short : payload.length < chunkFixedSize
  · simp only [short, reject_bind, if_true, true_or, lift_error]
  · have reads : ∀ offset count, offset + count ≤ 89 →
        (load payload offset count : Access Errno _) = .ok ((payload.drop offset).take count) := by
      intro offset count inside
      refine load_of_inside ?_
      rw [chunkFixedSize] at short
      omega
    have size := (wireGetU32 (payload.drop 53)).toNat_lt
    have sum : sizeWord (chunkFixedSize + (wireGetU32 (payload.drop 53)).toNat) =
        chunkFixedSize + (wireGetU32 (payload.drop 53)).toNat :=
      sizeWord_of_small (by rw [chunkFixedSize]; omega)
    simp only [short, reject_bind, if_false, false_or, reads 0 1 (by omega),
      reads 1 objectIdSize (by decide), reads 33 8 (by omega), reads 41 8 (by omega),
      reads 49 4 (by omega), reads 53 4 (by omega), reads 57 objectIdSize (by decide), ok_bind,
      ok_map, List.drop_zero, getD_take_one, wireGetU64_take, wireGetU32_take, Octets.read_take, sum]
    split
    · rfl
    · split
      · rfl
      · rename_i accepted
        simp only [not_or, not_not] at accepted
        have whole : (payload.drop chunkFixedSize).length = (wireGetU32 (payload.drop 53)).toNat := by
          rw [List.length_drop, ← accepted.2.2.2, Nat.add_sub_cancel_left]
        rw [load_of_inside accepted.2.2.2.le, ok_bind, ← whole, List.take_length]
        rfl

theorem loadChunkRequest_eq (payload : List UInt8) :
    loadChunkRequest payload = lift (transferDecodeChunkRequest payload) := by
  unfold loadChunkRequest transferDecodeChunkRequest
  by_cases size : payload.length = 1 + objectIdSize + 8
  · have reads : ∀ offset count, offset + count ≤ 41 →
        (load payload offset count : Access Errno _) = .ok ((payload.drop offset).take count) := by
      intro offset count inside
      refine load_of_inside ?_
      rw [size, objectIdSize]
      exact inside
    simp only [size, ne_eq, not_true_eq_false, reject_bind, if_false, false_or,
      reads 0 1 (by omega), reads 1 objectIdSize (by decide), reads 33 8 (by omega), ok_bind,
      ok_map, List.drop_zero, getD_take_one, wireGetU64_take, Octets.read_take]
    split <;> rfl
  · simp only [size, ne_eq, not_false_eq_true, reject_bind, if_true, true_or, lift_error]

theorem loadLookupRequest_eq (payload : List UInt8) :
    loadLookupRequest payload = lift (transferDecodeLookupRequest payload) := by
  unfold loadLookupRequest transferDecodeLookupRequest
  by_cases short : payload.length < 3
  · simp only [short, reject_bind, if_true, lift_error]
  · have reads : ∀ offset count, offset + count ≤ 3 →
        (load payload offset count : Access Errno _) = .ok ((payload.drop offset).take count) :=
      fun offset count inside => load_of_inside (by omega)
    have length := (wireGetU16 (payload.drop 1)).toNat_lt
    have sum : sizeWord (3 + (wireGetU16 (payload.drop 1)).toNat) =
        3 + (wireGetU16 (payload.drop 1)).toNat := sizeWord_of_small (by omega)
    simp only [short, reject_bind, if_false, reads 1 2 (by omega), reads 0 1 (by omega), ok_bind,
      ok_map, List.drop_zero, getD_take_one, wireGetU16_take, sum]
    split
    · rfl
    · rename_i framed
      rw [not_or, not_not] at framed
      split
      · split
        · rfl
        · rename_i isId
          rw [not_not] at isId
          rw [load_of_inside (by omega), ok_bind, Octets.read_take]
          rfl
      · split
        · rename_i outside
          rw [if_pos (outside.imp_right Or.inl)]
          rfl
        · rename_i inside
          rw [not_or, ge_iff_le, not_le] at inside
          rw [load_of_inside framed.2.le, ok_bind]
          split
          · rename_i refused
            rw [if_pos (Or.inr (Or.inr refused))]
            rfl
          · rename_i accepted
            rw [fit_of_inside (by omega), ok_bind, if_neg]
            · rfl
            · rw [not_or, not_or]
              exact ⟨inside.1, not_le.mpr inside.2, accepted⟩

theorem loadDescriptor_eq (small : payload.length ≤ maxPayloadSize) {offset : Nat}
    (inside : offset + descriptorSize ≤ payload.length) :
    loadDescriptor payload offset = .ok (decodeDescriptor (payload.drop offset)) := by
  rw [descriptorSize] at inside
  have bound : maxPayloadSize < 2 ^ 63 := by decide
  have words : ∀ more ≤ 56, sizeWord (offset + more) = offset + more :=
    fun more _ => sizeWord_of_small (by omega)
  have reads : ∀ before count, before + count ≤ 56 →
      (load payload (offset + before) count : Access Errno _) =
        .ok (((payload.drop offset).drop before).take count) := by
    intro before count within
    rw [List.drop_drop]
    exact load_of_inside (by omega)
  unfold loadDescriptor decodeDescriptor
  rw [words 8 (by omega), words 16 (by omega), words 20 (by omega), words 24 (by omega),
    show load payload offset 8 = load payload (offset + 0) 8 from rfl, reads 0 8 (by omega),
    reads 8 8 (by omega), reads 16 4 (by omega), reads 20 4 (by omega),
    reads 24 objectIdSize (by decide)]
  simp only [ok_bind, ok_map, List.drop_zero, wireGetU64_take, wireGetU32_take, Octets.read_take]
  rfl

theorem loadAnnouncement_eq (small : payload.length ≤ maxPayloadSize) :
    loadAnnouncement payload = lift (transferDecodeAnnouncement payload) := by
  unfold loadAnnouncement transferDecodeAnnouncement
  rw [loadDocumentAt_eq]
  cases header : decodeDocumentAt payload transferStoreAnnounce with
  | error code => rfl
  | ok read =>
    obtain ⟨document, used⟩ := read
    have bound : maxPayloadSize < 2 ^ 62 := by decide
    obtain ⟨-, inside, -⟩ := documentHeader_of_decoded header
    simp only [lift_ok, ok_bind, reject_bind]
    by_cases counted : document.chunkCount.toNat = 0 ∨
        document.chunkCount.toNat > (payload.length - used) / descriptorSize
    · rw [if_pos (by rcases counted with none | many <;> simp [*]),
        if_pos (by rcases counted with none | many <;> simp [*])]
      rfl
    · rw [not_or, gt_iff_lt, not_lt, Nat.le_div_iff_mul_le (by decide)] at counted
      have product : sizeWord (document.chunkCount.toNat * descriptorSize) =
          document.chunkCount.toNat * descriptorSize := sizeWord_of_small (by omega)
      rw [product]
      split
      · rfl
      · rename_i exact
        rw [not_or, not_or, not_not] at exact
        have each : ∀ position, 0 ≤ position → position < 0 + document.chunkCount.toNat →
            loadListed payload used position () =
              .ok (decodeDescriptor (payload.drop (used + position * descriptorSize)), ()) := by
          intro position _ before
          have within : (position + 1) * descriptorSize ≤
              document.chunkCount.toNat * descriptorSize :=
            Nat.mul_le_mul_right _ (by omega)
          rw [Nat.succ_mul] at within
          unfold loadListed
          rw [sizeWord_of_small (by omega : position * descriptorSize < 2 ^ 64),
            sizeWord_of_small (by omega), loadDescriptor_eq small (by omega), ok_bind]
          rfl
        have size : (List.replicate document.chunkCount.toNat MetadataChunk.blank).length =
            document.chunkCount.toNat := List.length_replicate
        have filled := fill_eq_map _ size List.length_nil each
        rw [List.nil_append] at filled
        rw [filled, List.range_eq_range']
        rfl

/-! ### Lookup results -/

/-- The reader of an endpoint, test after test. -/
theorem readEndpoint_eq (index : Nat) (input : List UInt8) :
    readEndpoint index input =
      if input.length < endpointFixedSize then .error .ebadmsg
      else
        let ipSize := (input.getD 32 0).toNat
        if ipSize = 0 ∨ ipSize ≥ nodeAddressSize ∨ input.length < 33 + ipSize + 2 then
          .error .ebadmsg
        else if wireGetU16 (input.drop (33 + ipSize)) = 0 then .error .ebadmsg
        else .ok (⟨Octets.read nodeIdSize input,
          ((input.drop 33).take ipSize).takeWhile (· ≠ 0), wireGetU16 (input.drop (33 + ipSize))⟩,
          input.drop (35 + ipSize)) := by
  unfold readEndpoint
  rw [require_bind]
  split
  · rfl
  · rename_i enough
    rw [endpointFixedSize] at enough
    rw [take_bind, if_neg (by rw [nodeIdSize]; omega), take_bind,
      if_neg (by rw [List.length_drop, nodeIdSize]; omega)]
    have sizeByte : input.getD nodeIdSize 0 = input.getD 32 0 := rfl
    have next : nodeIdSize + 1 = 33 := rfl
    simp only [getD_take_one, getD_drop_zero, ensure_bind, require_bind, take_bind, List.drop_drop,
      List.length_drop, wireGetU16_take, Octets.read_take, sizeByte, next]
    generalize (input.getD 32 0).toNat = ipSize
    by_cases sized : ipSize = 0 ∨ ipSize ≥ nodeAddressSize
    · rw [if_neg (not_not.mpr sized), if_pos (sized.imp_right Or.inl)]
    · rw [if_pos sized]
      by_cases long : input.length - 33 < ipSize + 2
      · rw [if_pos long, if_pos (Or.inr (Or.inr (by omega)))]
      · have accepted : ¬(ipSize = 0 ∨ ipSize ≥ nodeAddressSize ∨
            input.length < 33 + ipSize + 2) := by omega
        rw [if_neg long, if_neg (by omega), if_neg (by omega), if_neg accepted,
          show 33 + ipSize + 2 = 35 + ipSize by omega]
        by_cases port : wireGetU16 (input.drop (33 + ipSize)) = 0
        · rw [if_neg (not_not.mpr port), if_pos port]
        · rw [if_pos port, if_neg port]
          rfl

/-- The cursor over endpoints, test after test. -/
theorem loadEndpoint_eq (small : payload.length ≤ maxPayloadSize) (index : Nat) {offset : Nat}
    (inside : offset ≤ payload.length) :
    loadEndpoint payload index offset =
      if (payload.drop offset).length < endpointFixedSize then refuse .ebadmsg
      else
        let ipSize := ((payload.drop offset).getD 32 0).toNat
        if ipSize = 0 ∨ ipSize ≥ nodeAddressSize ∨ (payload.drop offset).length < 33 + ipSize + 2
          then refuse .ebadmsg
        else if wireGetU16 ((payload.drop offset).drop (33 + ipSize)) = 0 then refuse .ebadmsg
        else .ok (⟨Octets.read nodeIdSize (payload.drop offset),
          (((payload.drop offset).drop 33).take ipSize).takeWhile (· ≠ 0),
          wireGetU16 ((payload.drop offset).drop (33 + ipSize))⟩, offset + (35 + ipSize)) := by
  have bound : maxPayloadSize < 2 ^ 62 := by decide
  have word : ∀ more ≤ 1000, sizeWord (offset + more) = offset + more :=
    fun more _ => sizeWord_of_small (by omega)
  have size : (payload.drop offset).length = payload.length - offset := List.length_drop
  have loads : ∀ before count, offset + before + count ≤ payload.length →
      (load payload (offset + before) count : Access Errno _) =
        .ok (((payload.drop offset).drop before).take count) := by
    intro before count within
    rw [List.drop_drop]
    exact load_of_inside within
  unfold loadEndpoint
  rw [word endpointFixedSize (by decide), word 32 (by omega), word 33 (by omega), reject_bind]
  by_cases short : (payload.drop offset).length < endpointFixedSize
  · rw [if_pos short, if_pos (by rw [endpointFixedSize] at short ⊢; omega)]
  · rw [if_neg short, if_neg (by rw [endpointFixedSize] at short ⊢; omega)]
    rw [endpointFixedSize] at short
    rw [show load payload offset nodeIdSize = load payload (offset + 0) nodeIdSize from rfl,
      loads 0 nodeIdSize (by rw [nodeIdSize]; omega), ok_bind, loads 32 1 (by omega), ok_bind,
      getD_take_one, getD_drop_zero, List.drop_zero, Octets.read_take]
    have byte := ((payload.drop offset).getD 32 0).toNat_lt
    generalize ((payload.drop offset).getD 32 0).toNat = ipSize at byte ⊢
    dsimp only
    rw [show offset + 33 + ipSize + 2 = offset + (35 + ipSize) by omega,
      show offset + 35 + ipSize = offset + (35 + ipSize) by omega,
      show offset + 33 + ipSize = offset + (33 + ipSize) by omega, word _ (by omega),
      word _ (by omega), reject_bind]
    by_cases refused : ipSize = 0 ∨ ipSize ≥ nodeAddressSize ∨
        (payload.drop offset).length < 33 + ipSize + 2
    · rw [if_pos refused, if_pos (by omega)]
    · rw [if_neg refused, if_neg (by omega)]
      rw [not_or, not_or, not_lt, ge_iff_le, not_le] at refused
      rw [loads 33 ipSize (by omega), ok_bind, fit_of_inside (by omega), ok_bind,
        fit_of_inside (by omega), ok_bind, loads _ 2 (by omega), ok_map, ok_bind,
        wireGetU16_take, reject_bind]
      rfl

theorem loadEndpoint_mirrors (small : payload.length ≤ maxPayloadSize) (index : Nat) :
    Mirrors payload (loadEndpoint payload index) (readEndpoint index) := by
  intro offset inside
  rw [readEndpoint_eq, loadEndpoint_eq small index inside]
  have size : (payload.drop offset).length = payload.length - offset := List.length_drop
  by_cases short : (payload.drop offset).length < endpointFixedSize
  · simp only [short, if_true]
    rfl
  · simp only [short, if_false]
    by_cases refused : ((payload.drop offset).getD 32 0).toNat = 0 ∨
        ((payload.drop offset).getD 32 0).toNat ≥ nodeAddressSize ∨
        (payload.drop offset).length < 33 + ((payload.drop offset).getD 32 0).toNat + 2
    · simp only [refused, if_true]
      rfl
    · simp only [refused, if_false]
      by_cases port : wireGetU16 ((payload.drop offset).drop
          (33 + ((payload.drop offset).getD 32 0).toNat)) = 0
      · simp only [port, if_true]
        rfl
      · simp only [port, if_false]
        exact ⟨_, by omega, List.drop_drop, rfl⟩

theorem loadLocations_mirrors (small : payload.length ≤ maxPayloadSize) (index : Nat) :
    Mirrors payload (loadLocations payload index) (readLocations index) := by
  intro offset inside
  have bound : maxPayloadSize < 2 ^ 62 := by decide
  have size : (payload.drop offset).length = payload.length - offset := List.length_drop
  have word : ∀ more ≤ 1000, sizeWord (offset + more) = offset + more :=
    fun more _ => sizeWord_of_small (by omega)
  have total : offset + descriptorSize + 2 = offset + (descriptorSize + 2) := Nat.add_assoc ..
  unfold readLocations loadLocations
  rw [require_bind, total, word _ (by decide), word _ (by decide), reject_bind]
  by_cases short : (payload.drop offset).length < descriptorSize + 2
  · rw [if_pos short]
    show (if _ then _ else _) = _
    rw [if_pos (by omega)]
    rfl
  · have fits : ¬offset + (descriptorSize + 2) > payload.length := by omega
    simp only [short, fits, if_false]
    rw [map_take_bind, if_neg (by omega), ensure_bind]
    rw [decodeDescriptor_take (by omega), loadDescriptor_eq small (by omega)]
    by_cases placed : (decodeDescriptor (payload.drop offset)).index = UInt64.ofNat index
    · rw [if_pos placed, map_take_bind, if_neg (by rw [List.length_drop]; omega), List.drop_drop,
        List.drop_drop, wireGetU16_take, bind_apply]
      simp only [ok_bind, reject_bind, placed, ne_eq, not_true_eq_false, if_false]
      rw [load_of_inside (by omega), ok_map, ok_bind, wireGetU16_take]
      have peers := fill_blank (loadEndpoint_mirrors small)
        (wireGetU16 (payload.drop (offset + descriptorSize))).toNat TransferEndpoint.blank
        (show offset + (descriptorSize + 2) ≤ payload.length by omega)
      rw [← total] at peers ⊢
      cases read : table readEndpoint (wireGetU16 (payload.drop (offset + descriptorSize))).toNat 0
          (payload.drop (offset + descriptorSize + 2)) with
      | error code =>
        rw [read] at peers
        dsimp only at peers
        rw [peers]
        rfl
      | ok pair =>
        rw [read] at peers
        obtain ⟨next, within, rest, filled⟩ := peers
        rw [filled]
        exact ⟨next, within, rest, rfl⟩
    · rw [if_neg placed, ok_bind, reject_bind, if_pos placed]
      rfl

theorem loadLookupResult_eq (small : payload.length ≤ maxPayloadSize) :
    loadLookupResult payload = lift (transferDecodeLookupResult payload) := by
  unfold loadLookupResult transferDecodeLookupResult
  rw [loadDocumentAt_eq]
  cases header : decodeDocumentAt payload transferDownloadMetadata with
  | error code => rfl
  | ok read =>
    obtain ⟨document, used⟩ := read
    obtain ⟨-, inside, -⟩ := documentHeader_of_decoded header
    simp only [lift_ok, ok_bind, reject_bind]
    by_cases many : document.chunkCount.toNat > (payload.length - used) / (descriptorSize + 2)
    · rw [if_pos many, if_pos many]
      rfl
    · rw [if_neg many, if_neg many]
      have chunks := fill_blank (loadLocations_mirrors small) document.chunkCount.toNat
        TransferChunkLocations.blank inside
      cases read : table readLocations document.chunkCount.toNat 0 (payload.drop used) with
      | error code =>
        rw [read] at chunks
        dsimp only at chunks
        rw [chunks]
        rfl
      | ok pair =>
        rw [read] at chunks
        obtain ⟨next, within, rest, filled⟩ := chunks
        have ended : next ≠ payload.length ↔ pair.2 ≠ [] := by
          rw [rest, ne_eq, ne_eq, List.drop_eq_nil_iff]
          omega
        rw [filled, ok_bind]
        simp only [ended]
        split <;> rfl

end Inside

/-! ### Accepted payloads are the only ones -/

/-- A payload that is accepted as a document is the payload of that document. -/
theorem transferEncodeDocument_of_decoded {payload : List UInt8} {operation : UInt8}
    {document : TransferDocument}
    (decoded : transferDecodeDocument payload operation = .ok document) :
    transferEncodeDocument document operation = .ok payload := by
  unfold transferDecodeDocument at decoded
  cases header : decodeDocumentAt payload operation with
  | error code =>
    rw [header] at decoded
    cases decoded
  | ok read =>
    obtain ⟨found, used⟩ := read
    rw [header] at decoded
    dsimp only at decoded
    split at decoded
    · cases decoded
    · rename_i whole
      cases decoded
      obtain ⟨-, -, bytes⟩ := documentHeader_of_decoded header
      rw [not_not.mp whole, List.drop_length, List.append_nil] at bytes
      exact transferEncodeDocument_eq_ok.mpr ⟨decodeDocumentAt_ok header, bytes⟩

/-- A payload that is accepted as an announcement is the payload of that announcement. -/
theorem transferEncodeAnnouncement_of_decoded {payload : List UInt8}
    (small : payload.length ≤ maxPayloadSize) {document : TransferDocument}
    {chunks : List MetadataChunk}
    (decoded : transferDecodeAnnouncement payload = .ok (document, chunks)) :
    transferEncodeAnnouncement document chunks = .ok payload := by
  obtain ⟨header, complete, -⟩ := transferDecodeAnnouncement_ok decoded
  unfold transferDecodeAnnouncement at decoded
  split at decoded
  · cases decoded
  · rename_i found used read
    dsimp only at decoded
    split at decoded
    · cases decoded
    · rename_i sized
      simp only [not_or, not_not] at sized
      obtain ⟨-, -, size⟩ := sized
      rw [Except.ok.injEq, Prod.mk.injEq] at decoded
      obtain ⟨rfl, rfl⟩ := decoded
      obtain ⟨rfl, inside, bytes⟩ := documentHeader_of_decoded read
      rw [transferEncodeAnnouncement_eq_ok complete]
      refine ⟨⟨header, by omega⟩, ?_⟩
      rw [announcementBytes, descriptors_written_back size]
      exact bytes

/-- A payload that is accepted as a chunk is the payload of that chunk. -/
theorem transferEncodeChunk_of_decoded {payload : List UInt8}
    (small : payload.length ≤ maxPayloadSize) {operation : UInt8} {chunk : TransferChunk}
    (decoded : transferDecodeChunk payload operation = .ok chunk) :
    transferEncodeChunk chunk operation = .ok payload := by
  obtain ⟨bytes, raw, compressed, size⟩ := chunkBytes_of_decoded decoded
  have bound : maxPayloadSize < 2 ^ 32 := by decide
  have sum := chunkSize_toNat (show chunkFixedSize + chunk.compressedSize.toNat < 2 ^ 32 by omega)
  unfold transferEncodeChunk
  rw [if_neg (by rw [not_or]; exact ⟨raw, compressed⟩)]
  dsimp only
  rw [sum, size, if_neg (by omega), bytes, List.take_length]

/-- For every payload that a message can carry, the decoders stay inside of the payload, of the
fields and of their arrays. The payloads of documents, chunks and announcements that they accept
are those that the encoders write. -/
theorem transfer_decoders_safe_and_canonical {payload : List UInt8}
    (small : payload.length ≤ maxPayloadSize) :
    (∀ operation, Inside (loadDocument payload operation)) ∧
    (∀ operation, Inside (loadChunk payload operation)) ∧
    Inside (loadAnnouncement payload) ∧
    Inside (loadLookupRequest payload) ∧
    Inside (loadChunkRequest payload) ∧
    Inside (loadLookupResult payload) ∧
    (∀ operation document, loadDocument payload operation = .ok document →
      transferEncodeDocument document operation = .ok payload) ∧
    (∀ operation chunk, loadChunk payload operation = .ok chunk →
      transferEncodeChunk chunk operation = .ok payload) ∧
    ∀ document chunks, loadAnnouncement payload = .ok (document, chunks) →
      transferEncodeAnnouncement document chunks = .ok payload := by
  have accepted : ∀ {Value : Type} {result : Except Errno Value} {value : Value},
      lift result = .ok value → result = .ok value := by
    intro Value result value lifted
    cases result with
    | error code => cases lifted
    | ok read =>
      cases lifted
      rfl
  refine ⟨fun operation => ?_, fun operation => ?_, ?_, ?_, ?_, ?_,
    fun operation document decoded => ?_, fun operation chunk decoded => ?_,
    fun document chunks decoded => ?_⟩
  · rw [loadDocument_eq]
    exact inside_lift _
  · rw [loadChunk_eq]
    exact inside_lift _
  · rw [loadAnnouncement_eq small]
    exact inside_lift _
  · rw [loadLookupRequest_eq]
    exact inside_lift _
  · rw [loadChunkRequest_eq]
    exact inside_lift _
  · rw [loadLookupResult_eq small]
    exact inside_lift _
  · rw [loadDocument_eq] at decoded
    exact transferEncodeDocument_of_decoded (accepted decoded)
  · rw [loadChunk_eq] at decoded
    exact transferEncodeChunk_of_decoded small (accepted decoded)
  · rw [loadAnnouncement_eq small] at decoded
    exact transferEncodeAnnouncement_of_decoded small (accepted decoded)

/-- The payload of a document is accepted, inside of its bounds. -/
theorem transfer_decoders_safe_and_canonical_shared :
    let payload := documentHeader sharedDocument.document transferStoreBegin
    Inside (loadDocument payload transferStoreBegin) ∧
      Inside (loadLookupResult payload) ∧
      loadDocument payload transferStoreBegin = .ok sharedDocument.document ∧
      transferEncodeDocument sharedDocument.document transferStoreBegin = .ok payload := by
  intro payload
  obtain ⟨small, decoded⟩ : payload.length ≤ maxPayloadSize ∧
      transferDecodeDocument payload transferStoreBegin = .ok sharedDocument.document := by
    decide +kernel
  have loaded : loadDocument payload transferStoreBegin = .ok sharedDocument.document := by
    rw [loadDocument_eq, decoded]
    rfl
  obtain ⟨document, -, -, -, -, lookup, canonical, -⟩ :=
    transfer_decoders_safe_and_canonical small
  exact ⟨document _, lookup, loaded, canonical _ _ loaded⟩

end SuperPeerNet
