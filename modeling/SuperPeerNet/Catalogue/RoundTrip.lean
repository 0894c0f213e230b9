/-
This file says for which values a payload gives back what has been written into it.

The decoders accept what the encoders write, field by field. There are two exceptions. The size of a
chunk is added up in 32 bits, so that a chunk of almost 4 GiB gets a buffer that is too small. And
an announcement may have a name with a slash, which decoders refuse.
-/

import Mathlib.Algebra.Order.BigOperators.Group.List
import Mathlib.Data.List.TakeWhile
import SuperPeerNet.Catalogue.Payloads

namespace SuperPeerNet

open Reading

/-! ### Documents -/

/-- The bytes of a document. -/
def documentHeader (document : TransferDocument) (operation : UInt8) : List UInt8 :=
  operation :: (document.id.toList ++ (wirePutU64 document.fileSize ++
    (wirePutU64 document.chunkCount ++ ([document.compression] ++
      (wirePutU16 (UInt16.ofNat document.name.length) ++ document.name)))))

@[simp] theorem length_documentHeader (document : TransferDocument) (operation : UInt8) :
    (documentHeader document operation).length = 52 + document.name.length := by
  have id : document.id.toList.length = 32 := Octets.length_toList _
  simp only [documentHeader, List.length_cons, List.length_append, id, length_wirePutU64,
    length_wirePutU16, List.length_nil]
  omega

/-- What the encoder checks of a document is what the decoder checks, but for the bytes of the
name. -/
theorem encodeDocumentAt_eq_ok {document : TransferDocument} {operation : UInt8} {capacity : Nat}
    {payload : List UInt8} :
    encodeDocumentAt document operation capacity = .ok payload ↔
      document.Decoded ∧ 52 + document.name.length ≤ capacity ∧
        payload = documentHeader document operation := by
  have bytes : operation :: document.id.toList ++ wirePutU64 document.fileSize ++
      wirePutU64 document.chunkCount ++ [document.compression] ++
      wirePutU16 (UInt16.ofNat document.name.length) ++ document.name =
      documentHeader document operation := by
    simp only [documentHeader, List.append_assoc, List.cons_append]
  unfold encodeDocumentAt
  simp only [bytes, documentFixedSize]
  constructor
  · intro done
    split at done
    · cases done
    · rename_i checked
      simp only [not_or, not_not, not_le, not_lt] at checked
      obtain ⟨nonempty, short, compression, count, room⟩ := checked
      cases done
      exact ⟨⟨fun none => nonempty (congrArg List.length none), short, compression, count⟩,
        by omega, rfl⟩
  · rintro ⟨decoded, room, rfl⟩
    have nonempty : document.name.length ≠ 0 := fun none =>
      decoded.nonempty (List.length_eq_zero_iff.mp none)
    have short := decoded.short
    rw [if_neg]
    simp only [not_or, not_not, not_le, not_lt]
    exact ⟨nonempty, short, decoded.compression, decoded.count, by omega⟩

/-- A document is read back from its bytes, whatever follows them. -/
theorem decodeDocumentAt_documentHeader {document : TransferDocument}
    (recordable : document.Recordable) (operation : UInt8) (rest : List UInt8) :
    decodeDocumentAt (documentHeader document operation ++ rest) operation =
      .ok (document, 52 + document.name.length) := by
  have shape : documentHeader document operation ++ rest = [operation] ++ (document.id.toList ++
      (wirePutU64 document.fileSize ++ (wirePutU64 document.chunkCount ++
        ([document.compression] ++ (wirePutU16 (UInt16.ofNat document.name.length) ++
          (document.name ++ rest)))))) := by
    simp only [documentHeader, List.append_assoc, List.cons_append, List.nil_append]
  have size : (documentHeader document operation ++ rest).length =
      52 + document.name.length + rest.length := by
    rw [List.length_append, length_documentHeader]
  have first : (documentHeader document operation ++ rest).getD 0 0 = operation := rfl
  generalize documentHeader document operation ++ rest = payload at *
  have id : payload.drop 1 = document.id.toList ++ _ :=
    drop_append_drop payload (show payload.drop 0 = _ from shape) List.length_singleton
  have fileSize : payload.drop 33 = wirePutU64 document.fileSize ++ _ :=
    drop_append_drop payload id (Octets.length_toList _)
  have count : payload.drop 41 = wirePutU64 document.chunkCount ++ _ :=
    drop_append_drop payload fileSize (length_wirePutU64 _)
  have compression : payload.drop 49 = document.compression :: _ :=
    drop_append_drop payload count (length_wirePutU64 _)
  have nameSize : payload.drop 50 = wirePutU16 (UInt16.ofNat document.name.length) ++ _ :=
    drop_append_drop payload (show payload.drop 49 = [document.compression] ++ _ from compression)
      List.length_singleton
  have name : payload.drop 52 = document.name ++ rest :=
    drop_append_drop payload nameSize (length_wirePutU16 _)
  have short := recordable.short
  have length : (UInt16.ofNat document.name.length).toNat = document.name.length := by
    rw [UInt16.toNat_ofNat']
    exact Nat.mod_eq_of_lt (short.trans (by decide))
  have nonempty : document.name.length ≠ 0 := fun none =>
    recordable.nonempty (List.length_eq_zero_iff.mp none)
  unfold decodeDocumentAt
  rw [if_neg (by rw [size, first, documentFixedSize, not_or, not_not]; exact ⟨by omega, rfl⟩)]
  simp only [id, fileSize, count, getD_of_drop compression, nameSize, name, wireGetU64_wirePutU64,
    wireGetU16_wirePutU16, length, List.take_left, Octets.read_append]
  rw [if_neg]
  simp only [not_or, not_not, size]
  exact ⟨nonempty, not_le.mpr short, by omega, recordable.terminated, recordable.plain,
    recordable.compression, recordable.count⟩

/-- What has been read as a document is the bytes of the document. -/
theorem documentHeader_of_decoded {payload : List UInt8} {operation : UInt8}
    {document : TransferDocument} {used : Nat}
    (decoded : decodeDocumentAt payload operation = .ok (document, used)) :
    used = 52 + document.name.length ∧ used ≤ payload.length ∧
      payload = documentHeader document operation ++ payload.drop used := by
  unfold decodeDocumentAt at decoded
  split at decoded
  · cases decoded
  · rename_i header
    simp only [documentFixedSize, not_or, not_lt, not_not] at header
    obtain ⟨enough, first⟩ := header
    simp only at decoded
    split at decoded
    · cases decoded
    · rename_i checked
      simp only [not_or, not_not, not_le, not_lt] at checked
      obtain ⟨-, -, inside, -⟩ := checked
      cases decoded
      have length : ((payload.drop 52).take (wireGetU16 (payload.drop 50)).toNat).length =
          (wireGetU16 (payload.drop 50)).toNat := by
        rw [List.length_take, List.length_drop]
        omega
      refine ⟨by rw [length], inside, ?_⟩
      have room : ∀ before size, before + size ≤ 52 → size ≤ (payload.drop before).length := by
        intro before size small
        rw [List.length_drop]
        omega
      have operationByte : payload = [operation] ++ payload.drop 1 := by
        cases payload with
        | nil => simp at enough
        | cons byte rest => rw [show operation = byte from first.symm]; rfl
      have compression : (payload.drop 49).take 1 = [payload.getD 49 0] := by
        have inside : 49 < payload.length := by omega
        rw [List.drop_eq_getElem_cons inside, List.getD_eq_getElem?_getD,
          List.getElem?_eq_getElem inside]
        rfl
      have id : (Octets.read objectIdSize (payload.drop 1)).toList = (payload.drop 1).take 32 :=
        Octets.toList_read (room 1 32 (by omega))
      unfold documentHeader
      dsimp only
      rw [length, UInt16.ofNat_toNat, wirePutU16_wireGetU16 (room 50 2 (by omega)),
        wirePutU64_wireGetU64 (room 33 8 (by omega)), wirePutU64_wireGetU64 (room 41 8 (by omega)),
        id, ← compression]
      simp only [List.cons_append, List.append_assoc]
      rw [← drop_eq_take_append 52, ← drop_eq_take_append 50 2, ← drop_eq_take_append 49 1,
        ← drop_eq_take_append 41 8, ← drop_eq_take_append 33 8, ← drop_eq_take_append 1 32]
      exact operationByte

theorem transferEncodeDocument_eq_ok {document : TransferDocument} {operation : UInt8}
    {payload : List UInt8} :
    transferEncodeDocument document operation = .ok payload ↔
      document.Decoded ∧ payload = documentHeader document operation := by
  unfold transferEncodeDocument documentWireSize
  dsimp only
  have cut : min document.name.length metadataNameSize ≤ 256 := Nat.min_le_right ..
  rw [if_neg (by rw [maxPayloadSize, documentFixedSize]; omega), encodeDocumentAt_eq_ok]
  constructor
  · rintro ⟨decoded, -, bytes⟩
    exact ⟨decoded, bytes⟩
  · rintro ⟨decoded, bytes⟩
    refine ⟨decoded, ?_, bytes⟩
    rw [Nat.min_eq_left decoded.short.le, documentFixedSize]

theorem transferDecodeDocument_documentHeader {document : TransferDocument} {operation : UInt8}
    (recordable : document.Recordable) :
    transferDecodeDocument (documentHeader document operation) operation = .ok document := by
  have decoded := decodeDocumentAt_documentHeader recordable operation []
  rw [List.append_nil] at decoded
  unfold transferDecodeDocument
  rw [decoded]
  simp

/-! ### Chunks -/

theorem length_chunkBytes {chunk : TransferChunk}
    (whole : chunk.data.length = chunk.compressedSize.toNat) (operation : UInt8) :
    (chunkBytes chunk operation).length = chunkFixedSize + chunk.compressedSize.toNat := by
  have id : chunk.id.toList.length = 32 := Octets.length_toList _
  have hash : chunk.hash.toList.length = 32 := Octets.length_toList _
  simp only [chunkBytes, List.length_cons, List.length_append, List.length_take, id, hash,
    length_wirePutU64, length_wirePutU32, whole, chunkFixedSize]
  omega

/-- The sum of the sizes, as long as it fits a word of 32 bits. -/
theorem chunkSize_toNat {chunk : TransferChunk}
    (fits : chunkFixedSize + chunk.compressedSize.toNat < 2 ^ 32) :
    (UInt32.ofNat chunkFixedSize + chunk.compressedSize).toNat =
      chunkFixedSize + chunk.compressedSize.toNat := by
  rw [UInt32.toNat_add, show (UInt32.ofNat chunkFixedSize).toNat = chunkFixedSize from rfl]
  exact Nat.mod_eq_of_lt fits

theorem transferDecodeChunk_chunkBytes {chunk : TransferChunk} {operation : UInt8}
    (whole : chunk.data.length = chunk.compressedSize.toNat) (some : chunk.rawSize ≠ 0)
    (small : chunk.rawSize.toUInt64 ≤ metadataChunkSize) (full : chunk.compressedSize ≠ 0) :
    transferDecodeChunk (chunkBytes chunk operation) operation = .ok chunk := by
  have size := length_chunkBytes whole operation
  have data : chunk.data.take chunk.compressedSize.toNat = chunk.data :=
    List.take_of_length_le whole.le
  have shape : chunkBytes chunk operation = [operation] ++ (chunk.id.toList ++
      (wirePutU64 chunk.index ++ (wirePutU64 chunk.offset ++ (wirePutU32 chunk.rawSize ++
        (wirePutU32 chunk.compressedSize ++ (chunk.hash.toList ++ chunk.data)))))) := by
    rw [chunkBytes, data]
    rfl
  have first : (chunkBytes chunk operation).getD 0 0 = operation := rfl
  generalize chunkBytes chunk operation = payload at *
  have id : payload.drop 1 = chunk.id.toList ++ _ :=
    drop_append_drop payload (show payload.drop 0 = _ from shape) List.length_singleton
  have index : payload.drop 33 = wirePutU64 chunk.index ++ _ :=
    drop_append_drop payload id (Octets.length_toList _)
  have offset : payload.drop 41 = wirePutU64 chunk.offset ++ _ :=
    drop_append_drop payload index (length_wirePutU64 _)
  have rawSize : payload.drop 49 = wirePutU32 chunk.rawSize ++ _ :=
    drop_append_drop payload offset (length_wirePutU64 _)
  have compressedSize : payload.drop 53 = wirePutU32 chunk.compressedSize ++ _ :=
    drop_append_drop payload rawSize (length_wirePutU32 _)
  have hash : payload.drop 57 = chunk.hash.toList ++ _ :=
    drop_append_drop payload compressedSize (length_wirePutU32 _)
  have content : payload.drop chunkFixedSize = chunk.data :=
    drop_append_drop payload hash (Octets.length_toList _)
  unfold transferDecodeChunk
  rw [if_neg (by rw [size, first, not_or, not_not]; exact ⟨by omega, rfl⟩)]
  simp only [id, index, offset, rawSize, compressedSize, hash, content, wireGetU64_wirePutU64,
    wireGetU32_wirePutU32, Octets.read_append]
  rw [if_neg]
  simp only [not_or, not_not]
  exact ⟨some, UInt64.not_lt.mpr small, full, size.symm⟩

/-- What has been read as a chunk is the bytes of the chunk. -/
theorem chunkBytes_of_decoded {payload : List UInt8} {operation : UInt8} {chunk : TransferChunk}
    (decoded : transferDecodeChunk payload operation = .ok chunk) :
    chunkBytes chunk operation = payload ∧ chunk.rawSize ≠ 0 ∧ chunk.compressedSize ≠ 0 ∧
      chunkFixedSize + chunk.compressedSize.toNat = payload.length := by
  unfold transferDecodeChunk at decoded
  split at decoded
  · cases decoded
  · rename_i header
    rw [not_or, not_not, chunkFixedSize, not_lt] at header
    obtain ⟨enough, first⟩ := header
    dsimp only at decoded
    split at decoded
    · cases decoded
    · rename_i checked
      simp only [not_or, not_not] at checked
      obtain ⟨raw, -, compressed, size⟩ := checked
      cases decoded
      refine ⟨?_, raw, compressed, size⟩
      have room : ∀ before size, before + size ≤ 89 → size ≤ (payload.drop before).length := by
        intro before size small
        rw [List.length_drop]
        omega
      have operationByte : payload = [operation] ++ payload.drop 1 := by
        cases payload with
        | nil => simp at enough
        | cons byte rest => rw [show operation = byte from first.symm]; rfl
      have id : (Octets.read objectIdSize (payload.drop 1)).toList = (payload.drop 1).take 32 :=
        Octets.toList_read (room 1 32 (by omega))
      have hash : (Octets.read objectIdSize (payload.drop 57)).toList = (payload.drop 57).take 32 :=
        Octets.toList_read (room 57 32 (by omega))
      have data : (payload.drop 89).take (wireGetU32 (payload.drop 53)).toNat = payload.drop 89 := by
        refine List.take_of_length_le ?_
        rw [List.length_drop, ← size, chunkFixedSize, Nat.add_sub_cancel_left]
      unfold chunkBytes
      dsimp only
      rw [id, hash, chunkFixedSize, data, wirePutU64_wireGetU64 (room 33 8 (by omega)),
        wirePutU64_wireGetU64 (room 41 8 (by omega)), wirePutU32_wireGetU32 (room 49 4 (by omega)),
        wirePutU32_wireGetU32 (room 53 4 (by omega)), ← drop_eq_take_append 57 32,
        ← drop_eq_take_append 53 4, ← drop_eq_take_append 49 4, ← drop_eq_take_append 41 8,
        ← drop_eq_take_append 33 8, ← drop_eq_take_append 1 32]
      exact operationByte.symm

/-! ### Announcements -/

@[simp] theorem length_encodeDescriptor (chunk : MetadataChunk) :
    (encodeDescriptor chunk).length = descriptorSize := by
  have hash : chunk.hash.toList.length = 32 := Octets.length_toList _
  simp only [encodeDescriptor, List.length_append, length_wirePutU64, length_wirePutU32, hash,
    descriptorSize]

/-- A descriptor is read back from its bytes, whatever follows them. -/
theorem decodeDescriptor_encodeDescriptor (chunk : MetadataChunk) (rest : List UInt8) :
    decodeDescriptor (encodeDescriptor chunk ++ rest) = chunk := by
  have shape : encodeDescriptor chunk ++ rest = wirePutU64 chunk.index ++
      (wirePutU64 chunk.offset ++ (wirePutU32 chunk.rawSize ++
        (wirePutU32 chunk.compressedSize ++ (chunk.hash.toList ++ rest)))) := by
    simp only [encodeDescriptor, List.append_assoc]
  generalize encodeDescriptor chunk ++ rest = input at *
  have offset : input.drop 8 = wirePutU64 chunk.offset ++ _ :=
    drop_append_drop input (show input.drop 0 = _ from shape) (length_wirePutU64 _)
  have rawSize : input.drop 16 = wirePutU32 chunk.rawSize ++ _ :=
    drop_append_drop input offset (length_wirePutU64 _)
  have compressedSize : input.drop 20 = wirePutU32 chunk.compressedSize ++ _ :=
    drop_append_drop input rawSize (length_wirePutU32 _)
  have hash : input.drop 24 = chunk.hash.toList ++ _ :=
    drop_append_drop input compressedSize (length_wirePutU32 _)
  unfold decodeDescriptor
  rw [offset, rawSize, compressedSize, hash, shape]
  simp only [wireGetU64_wirePutU64, wireGetU32_wirePutU32, Octets.read_append]

/-- What has been read as a descriptor is the bytes of the descriptor. -/
theorem encodeDescriptor_decodeDescriptor {input : List UInt8}
    (enough : descriptorSize ≤ input.length) :
    encodeDescriptor (decodeDescriptor input) = input.take descriptorSize := by
  have room : ∀ before size, before + size ≤ 56 → size ≤ (input.drop before).length := by
    intro before size small
    rw [descriptorSize] at enough
    rw [List.length_drop]
    omega
  have hash : (Octets.read objectIdSize (input.drop 24)).toList = (input.drop 24).take 32 :=
    Octets.toList_read (room 24 32 (by omega))
  have index := wirePutU64_wireGetU64 (room 0 8 (by omega))
  rw [List.drop_zero] at index
  unfold encodeDescriptor decodeDescriptor
  dsimp only
  rw [hash, index, wirePutU64_wireGetU64 (room 8 8 (by omega)),
    wirePutU32_wireGetU32 (room 16 4 (by omega)), wirePutU32_wireGetU32 (room 20 4 (by omega)),
    descriptorSize]
  simp only [← List.take_add]

theorem decodeDescriptor_take {input : List UInt8} (enough : descriptorSize ≤ input.length) :
    decodeDescriptor (input.take descriptorSize) = decodeDescriptor input := by
  have read := decodeDescriptor_encodeDescriptor (decodeDescriptor input) []
  rwa [List.append_nil, encodeDescriptor_decodeDescriptor enough] at read

theorem length_flatMap_encodeDescriptor (chunks : List MetadataChunk) :
    (chunks.flatMap encodeDescriptor).length = chunks.length * descriptorSize := by
  induction chunks with
  | nil => rfl
  | cons chunk rest inductionHypothesis =>
    rw [List.flatMap_cons, List.length_append, length_encodeDescriptor, inductionHypothesis,
      List.length_cons, Nat.succ_mul, Nat.add_comm]

/-- The descriptors are read back from their bytes. -/
theorem descriptors_round_trip {payload : List UInt8} {used : Nat} {chunks : List MetadataChunk}
    (there : payload.drop used = chunks.flatMap encodeDescriptor) :
    ((List.range chunks.length).map fun index =>
      decodeDescriptor (payload.drop (used + index * descriptorSize))) = chunks := by
  induction chunks generalizing used with
  | nil => rfl
  | cons chunk rest inductionHypothesis =>
    rw [List.flatMap_cons] at there
    have later := inductionHypothesis (drop_append_drop payload there (length_encodeDescriptor chunk))
    rw [List.length_cons, List.range_succ_eq_map, List.map_cons, List.map_map, Nat.zero_mul,
      Nat.add_zero, there, decodeDescriptor_encodeDescriptor]
    refine congrArg (chunk :: ·) (Eq.trans ?_ later)
    refine List.map_congr_left fun index _ => ?_
    rw [Function.comp_apply, Nat.succ_mul, Nat.add_comm (index * descriptorSize), ← Nat.add_assoc]

/-- What has been read as descriptors is the bytes of the descriptors. -/
theorem descriptors_written_back {payload : List UInt8} {used count : Nat}
    (size : payload.length - used = count * descriptorSize) :
    ((List.range count).map fun index =>
      decodeDescriptor (payload.drop (used + index * descriptorSize))).flatMap encodeDescriptor =
      payload.drop used := by
  induction count generalizing used with
  | zero =>
    rw [Nat.zero_mul] at size
    exact (List.drop_eq_nil_of_le (Nat.le_of_sub_eq_zero size)).symm
  | succ count inductionHypothesis =>
    rw [Nat.succ_mul] at size
    have later := inductionHypothesis (show payload.length - (used + descriptorSize) =
      count * descriptorSize by omega)
    rw [List.range_succ_eq_map, List.map_cons, List.map_map, List.flatMap_cons, Nat.zero_mul,
      Nat.add_zero, encodeDescriptor_decodeDescriptor (by rw [List.length_drop]; omega)]
    refine Eq.trans (congrArg _ (Eq.trans ?_ later)) (drop_eq_take_append used descriptorSize).symm
    refine congrArg (List.flatMap encodeDescriptor) (List.map_congr_left fun index _ => ?_)
    rw [Function.comp_apply, Nat.succ_mul, Nat.add_comm (index * descriptorSize), ← Nat.add_assoc]

/-- The checks of `transfer_encode_announcement`. -/
structure TransferDocument.Announceable (document : TransferDocument) : Prop
    extends document.Decoded where
  fits : 52 + document.name.length + document.chunkCount.toNat * descriptorSize ≤ maxPayloadSize

/-- The bytes of an announcement. -/
def announcementBytes (document : TransferDocument) (chunks : List MetadataChunk) : List UInt8 :=
  documentHeader document transferStoreAnnounce ++ chunks.flatMap encodeDescriptor

theorem transferEncodeAnnouncement_eq_ok {document : TransferDocument}
    {chunks : List MetadataChunk} (complete : chunks.length = document.chunkCount.toNat)
    {payload : List UInt8} :
    transferEncodeAnnouncement document chunks = .ok payload ↔
      document.Announceable ∧ payload = announcementBytes document chunks := by
  have all : chunks.take document.chunkCount.toNat = chunks := List.take_of_length_le complete.le
  unfold transferEncodeAnnouncement
  dsimp only
  rw [all]
  constructor
  · intro done
    split at done
    · cases done
    · rename_i room
      split at done
      · cases done
      · rename_i header encoded
        obtain ⟨decoded, -, rfl⟩ := encodeDocumentAt_eq_ok.mp encoded
        cases done
        refine ⟨⟨decoded, ?_⟩, rfl⟩
        rw [Nat.min_eq_left decoded.short.le, documentFixedSize, descriptorSize, not_or, not_lt,
          not_lt, Nat.le_div_iff_mul_le (by decide)] at room
        rw [descriptorSize]
        omega
  · rintro ⟨announceable, rfl⟩
    have short := announceable.short
    have fits := announceable.fits
    rw [descriptorSize] at fits
    rw [Nat.min_eq_left short.le, documentFixedSize, descriptorSize,
      if_neg (by rw [not_or, not_lt, not_lt, Nat.le_div_iff_mul_le (by decide)]; omega),
      encodeDocumentAt_eq_ok.mpr ⟨announceable.toDecoded, by omega, rfl⟩]
    rfl

theorem transferDecodeAnnouncement_announcementBytes {document : TransferDocument}
    {chunks : List MetadataChunk} (complete : chunks.length = document.chunkCount.toNat)
    (recordable : document.Recordable) (some : document.chunkCount ≠ 0) :
    transferDecodeAnnouncement (announcementBytes document chunks) = .ok (document, chunks) := by
  have decoded := decodeDocumentAt_documentHeader recordable transferStoreAnnounce
    (chunks.flatMap encodeDescriptor)
  have there : (announcementBytes document chunks).drop (52 + document.name.length) =
      chunks.flatMap encodeDescriptor := List.drop_left' (length_documentHeader ..)
  have size : (announcementBytes document chunks).length - (52 + document.name.length) =
      document.chunkCount.toNat * descriptorSize := by
    rw [announcementBytes, List.length_append, length_documentHeader,
      length_flatMap_encodeDescriptor, complete, Nat.add_sub_cancel_left]
  have nonzero : document.chunkCount.toNat ≠ 0 := fun none => some (UInt64.toNat_inj.mp none)
  have list := descriptors_round_trip there
  rw [complete] at list
  unfold transferDecodeAnnouncement
  rw [show decodeDocumentAt (announcementBytes document chunks) _ = _ from decoded]
  dsimp only
  rw [size, Nat.mul_div_cancel _ (by decide), list, if_neg]
  rintro (none | more | other)
  · exact nonzero none
  · exact Nat.lt_irrefl _ more
  · exact other rfl

/-! ### Lookup results -/

/-- An endpoint that a lookup result can carry. -/
structure TransferEndpoint.Usable (endpoint : TransferEndpoint) : Prop where
  nonempty : endpoint.ip ≠ []
  short : endpoint.ip.length < nodeAddressSize
  terminated : 0 ∉ endpoint.ip
  port : endpoint.port ≠ 0

theorem length_endpointBytes (endpoint : TransferEndpoint) :
    (endpointBytes endpoint).length = endpointFixedSize + endpoint.ip.length := by
  have id : endpoint.nodeId.toList.length = 32 := Octets.length_toList _
  simp only [endpointBytes, List.length_append, List.length_cons, id, length_wirePutU16,
    endpointFixedSize]
  omega

theorem reads_endpoint {endpoint : TransferEndpoint} (usable : endpoint.Usable) (index : Nat) :
    Reads (readEndpoint index) (endpointBytes endpoint) endpoint := by
  have short := usable.short
  have id : endpoint.nodeId.toList.length = nodeIdSize := Octets.length_toList _
  have size : ([UInt8.ofNat endpoint.ip.length].getD 0 0).toNat = endpoint.ip.length := by
    rw [List.getD_cons_zero, UInt8.toNat_ofNat']
    exact Nat.mod_eq_of_lt (short.trans (by decide))
  have nonempty : endpoint.ip.length ≠ 0 := fun none =>
    usable.nonempty (List.length_eq_zero_iff.mp none)
  have wholeIp : endpoint.ip.takeWhile (· ≠ 0) = endpoint.ip := by
    refine List.takeWhile_eq_self_iff.mpr fun byte member => ?_
    simpa using fun zero : byte = 0 => usable.terminated (zero ▸ member)
  have port : wireGetU16 (wirePutU16 endpoint.port) = endpoint.port := by
    simpa using wireGetU16_wirePutU16 endpoint.port []
  unfold readEndpoint
  refine Reads.required (by rw [length_endpointBytes]; omega) ?_
  refine (Reads.take id).bind ?_
  rw [← List.singleton_append]
  refine (Reads.take List.length_singleton).bind ?_
  rw [size]
  refine Reads.ensured (by rw [not_or]; exact ⟨nonempty, not_le.mpr short⟩) ?_
  refine Reads.required (by rw [List.length_append, length_wirePutU16]) ?_
  refine (Reads.take rfl).bind ?_
  refine (Reads.take (length_wirePutU16 _)).last ?_
  rw [port, Octets.read_toList, wholeIp]
  exact Reads.ensured usable.port (Reads.pure endpoint)

/-- Locations that a lookup result can carry at a position. -/
structure TransferChunkLocations.Usable (chunk : TransferChunkLocations) (index : Nat) : Prop where
  placed : chunk.descriptor.index = UInt64.ofNat index
  few : chunk.peers.length < 2 ^ 16
  peers : ∀ endpoint ∈ chunk.peers, endpoint.Usable

theorem reads_locations {chunk : TransferChunkLocations} {index : Nat}
    (usable : chunk.Usable index) :
    Reads (readLocations index) (locationsBytes chunk) chunk := by
  have descriptor : decodeDescriptor (encodeDescriptor chunk.descriptor) = chunk.descriptor := by
    simpa using decodeDescriptor_encodeDescriptor chunk.descriptor []
  have count : (wireGetU16 (wirePutU16 (UInt16.ofNat chunk.peers.length))).toNat =
      chunk.peers.length := by
    have read := wireGetU16_wirePutU16 (UInt16.ofNat chunk.peers.length) []
    rw [List.append_nil] at read
    rw [read, UInt16.toNat_ofNat']
    exact Nat.mod_eq_of_lt usable.few
  have each : Reads (table readEndpoint chunk.peers.length 0) (chunk.peers.flatMap endpointBytes)
      ⟨chunk.peers, rfl⟩ :=
    Reads.table rfl fun position endpoint found =>
      reads_endpoint (usable.peers endpoint (List.mem_of_getElem? found)) _
  unfold readLocations
  refine Reads.required ?_ ?_
  · rw [locationsBytes, List.length_append, List.length_append, length_encodeDescriptor,
      length_wirePutU16]
    omega
  refine (Reads.map decodeDescriptor (Reads.take (length_encodeDescriptor _))).bind ?_
  rw [descriptor]
  refine Reads.ensured usable.placed ?_
  refine (Reads.map wireGetU16 (Reads.take (length_wirePutU16 _))).bind ?_
  rw [count]
  exact each.last (Reads.pure chunk)

theorem length_locationsBytes (chunk : TransferChunkLocations) :
    (locationsBytes chunk).length = descriptorSize + 2 +
      (chunk.peers.map fun endpoint => endpointFixedSize + endpoint.ip.length).sum := by
  have peers : (chunk.peers.flatMap endpointBytes).length =
      (chunk.peers.map fun endpoint => endpointFixedSize + endpoint.ip.length).sum := by
    rw [List.length_flatMap]
    exact congrArg List.sum (List.map_congr_left fun endpoint _ => length_endpointBytes endpoint)
  rw [locationsBytes, List.length_append, List.length_append, length_encodeDescriptor,
    length_wirePutU16, peers, Nat.add_assoc]

/-- The checks that the encoder of a lookup result makes of the locations of a chunk. -/
structure TransferChunkLocations.Sendable (chunk : TransferChunkLocations) : Prop where
  few : chunk.peers.length < 2 ^ 16
  nonempty : ∀ endpoint ∈ chunk.peers, endpoint.ip ≠ []
  short : ∀ endpoint ∈ chunk.peers, endpoint.ip.length < nodeAddressSize

/-- The number of bytes of a lookup result. -/
def lookupResultSize (result : TransferLookupResult) : Nat :=
  52 + result.document.name.length + (result.chunks.flatMap locationsBytes).length

theorem endpointsSize_eq_ok {size total : Nat} {peers : List TransferEndpoint} :
    endpointsSize size peers = .ok total ↔
      ((∀ endpoint ∈ peers, endpoint.ip ≠ []) ∧
        ∀ endpoint ∈ peers, endpoint.ip.length < nodeAddressSize) ∧
      total = size + (peers.map fun endpoint => endpointFixedSize + endpoint.ip.length).sum := by
  induction peers generalizing size with
  | nil => simp [endpointsSize, eq_comm]
  | cons endpoint rest inductionHypothesis =>
    rw [endpointsSize, List.map_cons, List.sum_cons]
    simp only [List.forall_mem_cons]
    split
    · rename_i refused
      constructor
      · exact nofun
      · rintro ⟨⟨⟨nonempty, -⟩, short, -⟩, -⟩
        rcases refused with none | long
        · exact absurd (List.length_eq_zero_iff.mp none) nonempty
        · exact absurd short (not_lt.mpr long)
    · rename_i accepted
      rw [not_or, ge_iff_le, not_le] at accepted
      rw [inductionHypothesis]
      constructor
      · rintro ⟨⟨nonempty, short⟩, same⟩
        exact ⟨⟨⟨fun none => accepted.1 (congrArg List.length none), nonempty⟩, accepted.2, short⟩,
          by omega⟩
      · rintro ⟨⟨⟨-, nonempty⟩, -, short⟩, same⟩
        exact ⟨⟨nonempty, short⟩, by omega⟩

theorem locationsSize_eq_ok {size total : Nat} {chunks : List TransferChunkLocations} :
    locationsSize size chunks = .ok total ↔
      (∀ chunk ∈ chunks, chunk.Sendable) ∧
      total = size + (chunks.flatMap locationsBytes).length := by
  induction chunks generalizing size with
  | nil => simp [locationsSize, eq_comm]
  | cons chunk rest inductionHypothesis =>
    rw [locationsSize, List.flatMap_cons, List.length_append, length_locationsBytes]
    simp only [List.forall_mem_cons]
    split
    · rename_i many
      exact ⟨nofun, fun ⟨⟨sendable, _⟩, _⟩ => absurd sendable.few (by omega)⟩
    · rename_i few
      cases sized : endpointsSize (size + (2 + descriptorSize)) chunk.peers with
      | error code =>
        refine ⟨nofun, fun ⟨⟨sendable, _⟩, _⟩ => ?_⟩
        rw [endpointsSize_eq_ok.mpr ⟨⟨sendable.nonempty, sendable.short⟩, rfl⟩] at sized
        cases sized
      | ok next =>
        obtain ⟨⟨nonempty, short⟩, rfl⟩ := endpointsSize_eq_ok.mp sized
        dsimp only
        rw [inductionHypothesis]
        constructor
        · rintro ⟨others, same⟩
          exact ⟨⟨⟨by omega, nonempty, short⟩, others⟩, by omega⟩
        · rintro ⟨⟨-, others⟩, same⟩
          exact ⟨others, by omega⟩

/-- A lookup result is encoded exactly if its fields pass the checks and it fits a payload. -/
theorem transferEncodeLookupResult_eq_ok {result : TransferLookupResult}
    (complete : result.chunks.length = result.document.chunkCount.toNat) {payload : List UInt8} :
    transferEncodeLookupResult result = .ok payload ↔
      result.document.Decoded ∧ (∀ chunk ∈ result.chunks, chunk.Sendable) ∧
      lookupResultSize result ≤ maxPayloadSize ∧
      payload = documentHeader result.document transferDownloadMetadata ++
        result.chunks.flatMap locationsBytes := by
  have all : result.chunks.take result.document.chunkCount.toNat = result.chunks :=
    List.take_of_length_le complete.le
  have bound : maxPayloadSize < 2 ^ 32 := by decide
  unfold transferEncodeLookupResult lookupResultSize documentWireSize
  dsimp only
  rw [all]
  constructor
  · intro done
    split at done
    · cases done
    · rename_i size sized
      obtain ⟨sendable, rfl⟩ := locationsSize_eq_ok.mp sized
      split at done
      · cases done
      · rename_i room
        split at done
        · cases done
        · rename_i header encoded
          obtain ⟨decoded, -, rfl⟩ := encodeDocumentAt_eq_ok.mp encoded
          cases done
          rw [Nat.min_eq_left decoded.short.le, documentFixedSize] at room
          exact ⟨decoded, sendable, by omega, rfl⟩
  · rintro ⟨decoded, sendable, fits, rfl⟩
    rw [locationsSize_eq_ok.mpr ⟨sendable, rfl⟩]
    dsimp only
    rw [Nat.min_eq_left decoded.short.le, documentFixedSize, if_neg (by omega),
      encodeDocumentAt_eq_ok.mpr ⟨decoded, by omega, rfl⟩]

theorem transferDecodeLookupResult_bytes {result : TransferLookupResult}
    (complete : result.chunks.length = result.document.chunkCount.toNat)
    (recordable : result.document.Recordable)
    (usable : ∀ (index : Nat) (chunk : TransferChunkLocations),
      result.chunks[index]? = some chunk → chunk.Usable index) :
    transferDecodeLookupResult (documentHeader result.document transferDownloadMetadata ++
      result.chunks.flatMap locationsBytes) = .ok result := by
  have decoded := decodeDocumentAt_documentHeader recordable transferDownloadMetadata
    (result.chunks.flatMap locationsBytes)
  have each : Reads (table readLocations result.document.chunkCount.toNat 0)
      (result.chunks.flatMap locationsBytes) ⟨result.chunks, complete⟩ :=
    Reads.table complete fun index chunk found => by
      rw [Nat.zero_add]
      exact reads_locations (usable index chunk found)
  have read := each []
  rw [List.append_nil] at read
  have enough : result.document.chunkCount.toNat * (descriptorSize + 2) ≤
      (result.chunks.flatMap locationsBytes).length := by
    rw [← complete, List.length_flatMap]
    refine le_trans (le_of_eq ?_) (List.card_nsmul_le_sum _ (descriptorSize + 2) ?_)
    · rw [List.length_map, Nat.nsmul_eq_mul]
    · intro size member
      obtain ⟨chunk, -, rfl⟩ := List.mem_map.mp member
      rw [length_locationsBytes]
      omega
  unfold transferDecodeLookupResult
  rw [decoded]
  dsimp only
  rw [List.drop_left' (length_documentHeader ..), read, List.length_append, length_documentHeader,
    Nat.add_sub_cancel_left, if_neg]
  · rfl
  · rw [gt_iff_lt, not_lt, Nat.le_div_iff_mul_le (by decide)]
    exact enough

/-! ### Requests -/

theorem transferDecodeChunkRequest_bytes (id : ObjectID) (index : UInt64) :
    transferDecodeChunkRequest (transferEncodeChunkRequest id index) = .ok (id, index) := by
  have idSize : id.toList.length = 32 := Octets.length_toList _
  have size : (transferEncodeChunkRequest id index).length = 41 := by
    rw [transferEncodeChunkRequest, List.length_cons, List.length_append, idSize,
      length_wirePutU64]
  have first : (transferEncodeChunkRequest id index).getD 0 0 = transferDownloadChunk := rfl
  have shape : (transferEncodeChunkRequest id index).drop 1 = id.toList ++ wirePutU64 index := rfl
  have last : (transferEncodeChunkRequest id index).drop 33 = wirePutU64 index :=
    drop_append_drop _ shape idSize
  have read := wireGetU64_wirePutU64 index []
  rw [List.append_nil] at read
  unfold transferDecodeChunkRequest
  rw [size, first, if_neg (by rw [not_or, not_not, not_not]; exact ⟨rfl, rfl⟩), shape, last, read,
    Octets.read_append]

/-- A selector that is an id is read back as the id, and another one as a name. -/
def SelectorReturned (selector payload : List UInt8) : Prop :=
  match objectIdFromHex selector with
  | some id => transferDecodeLookupRequest payload = .ok (.objectId, id, [])
  | none => transferDecodeLookupRequest payload =
      .ok (.name, Octets.fill objectIdSize 0, selector)

theorem lookupRequest_returned {selector payload : List UInt8} (terminated : 0 ∉ selector)
    (plain : objectIdFromHex selector = none → 47 ∉ selector)
    (encoded : transferEncodeLookupRequest selector = .ok payload) :
    SelectorReturned selector payload := by
  have general : ∀ (operation : UInt8) (size : Nat) (value : List UInt8), size < 2 ^ 16 →
      value.length = size →
      let bytes := operation :: (wirePutU16 (UInt16.ofNat size) ++ value)
      bytes.length = 3 + size ∧ bytes.getD 0 0 = operation ∧
        (wireGetU16 (bytes.drop 1)).toNat = size ∧ bytes.drop 3 = value := by
    intro operation size value small length
    refine ⟨?_, rfl, ?_, rfl⟩
    · rw [List.length_cons, List.length_append, length_wirePutU16, length]
      omega
    · rw [List.drop_succ_cons, List.drop_zero, wireGetU16_wirePutU16, UInt16.toNat_ofNat']
      exact Nat.mod_eq_of_lt small
  unfold transferEncodeLookupRequest at encoded
  unfold SelectorReturned
  cases isId : objectIdFromHex selector with
  | some id =>
    rw [isId] at encoded
    cases encoded
    obtain ⟨length, first, size, rest⟩ := general TransferSelectorType.objectId.number objectIdSize
      id.toList (by decide) (Octets.length_toList id)
    dsimp only
    unfold transferDecodeLookupRequest
    simp only [length, first, size, rest, Octets.read_toList]
    simp
  | none =>
    rw [isId] at encoded
    dsimp only at encoded ⊢
    split at encoded
    · cases encoded
    · rename_i usable
      rw [not_or, ge_iff_le, not_le] at usable
      cases encoded
      obtain ⟨length, first, size, rest⟩ := general TransferSelectorType.name.number
        selector.length selector (usable.2.trans (by decide)) rfl
      unfold transferDecodeLookupRequest
      simp only [length, first, size, rest, List.take_length]
      have other : TransferSelectorType.name.number ≠ TransferSelectorType.objectId.number := by
        decide
      simp [other, usable.1, usable.2, terminated, plain isId]

/-! ### All payloads -/

/-- A value with a payload of its own. -/
inductive TransferValue where
  | document (document : TransferDocument) (operation : UInt8)
  | chunk (chunk : TransferChunk) (operation : UInt8)
  | announcement (document : TransferDocument) (chunks : List MetadataChunk)
  | lookupResult (result : TransferLookupResult)
  | lookupRequest (selector : List UInt8)
  | chunkRequest (id : ObjectID) (index : UInt64)

/-- The payload that the encoder of a value writes. -/
def TransferValue.encode : TransferValue → Except Errno (List UInt8)
  | .document file operation => transferEncodeDocument file operation
  | .chunk piece operation => transferEncodeChunk piece operation
  | .announcement file chunks => transferEncodeAnnouncement file chunks
  | .lookupResult result => transferEncodeLookupResult result
  | .lookupRequest selector => transferEncodeLookupRequest selector
  | .chunkRequest id index => .ok (transferEncodeChunkRequest id index)

/-- The decoder reads the value from a payload. -/
def TransferValue.Returned (payload : List UInt8) : TransferValue → Prop
  | .document file operation => transferDecodeDocument payload operation = .ok file
  | .chunk piece operation => transferDecodeChunk payload operation = .ok piece
  | .announcement file chunks =>
    transferDecodeAnnouncement payload = .ok (file, chunks)
  | .lookupResult result => transferDecodeLookupResult payload = .ok result
  | .lookupRequest selector => SelectorReturned selector payload
  | .chunkRequest id index => transferDecodeChunkRequest payload = .ok (id, index)

/-- Strings end at their first zero, and arrays are as long as their counts say. -/
def TransferValue.WellFormed : TransferValue → Prop
  | .document file _ => 0 ∉ file.name
  | .chunk piece _ => piece.data.length = piece.compressedSize.toNat
  | .announcement file chunks =>
    0 ∉ file.name ∧ chunks.length = file.chunkCount.toNat
  | .lookupResult result => 0 ∉ result.document.name ∧
    result.chunks.length = result.document.chunkCount.toNat ∧
    ∀ located ∈ result.chunks, ∀ endpoint ∈ located.peers, 0 ∉ endpoint.ip
  | .lookupRequest selector => 0 ∉ selector
  | .chunkRequest _ _ => True

/-- What decoders demand and encoders do not look at. -/
def TransferValue.Acceptable : TransferValue → Prop
  | .document file _ => 47 ∉ file.name
  | .chunk piece _ => piece.rawSize.toUInt64 ≤ metadataChunkSize
  | .announcement file _ => file.chunkCount ≠ 0
  | .lookupResult result => 47 ∉ result.document.name ∧
    ∀ (index : Nat) (located : TransferChunkLocations), result.chunks[index]? = some located →
      located.descriptor.index = UInt64.ofNat index ∧
      ∀ endpoint ∈ located.peers, endpoint.port ≠ 0
  | .lookupRequest selector => objectIdFromHex selector = none → 47 ∉ selector
  | .chunkRequest _ _ => True

/-- Not a chunk whose size does not fit a word of 32 bits, and not an announcement of a name with a
slash. -/
def TransferValue.Exchangeable : TransferValue → Prop
  | .chunk piece _ => piece.rawSize = 0 ∨ chunkFixedSize + piece.compressedSize.toNat < 2 ^ 32
  | .announcement file _ => file.Announceable → 47 ∉ file.name
  | _ => True

/-- The buffer of a chunk whose size has wrapped is too small even for its fixed fields. -/
theorem transferEncodeChunk_of_wrapped {chunk : TransferChunk} (operation : UInt8)
    (raw : chunk.rawSize ≠ 0) (wraps : 2 ^ 32 ≤ chunkFixedSize + chunk.compressedSize.toNat) :
    ∃ payload, transferEncodeChunk chunk operation = .ok payload ∧
      transferDecodeChunk payload operation = .error .ebadmsg := by
  have small := chunk.compressedSize.toNat_lt
  have size : (UInt32.ofNat chunkFixedSize + chunk.compressedSize).toNat =
      chunkFixedSize + chunk.compressedSize.toNat - 2 ^ 32 := by
    rw [UInt32.toNat_add, show (UInt32.ofNat chunkFixedSize).toNat = chunkFixedSize from rfl]
    rw [chunkFixedSize] at wraps ⊢
    omega
  have some : chunk.compressedSize ≠ 0 := by
    intro zero
    rw [zero] at wraps
    exact absurd wraps (by decide)
  refine ⟨(chunkBytes chunk operation).take
    (UInt32.ofNat chunkFixedSize + chunk.compressedSize).toNat, ?_, ?_⟩
  · unfold transferEncodeChunk
    rw [if_neg (by rw [not_or]; exact ⟨raw, some⟩)]
    dsimp only
    rw [if_neg]
    rw [size, maxPayloadSize, chunkFixedSize]
    omega
  · unfold transferDecodeChunk
    rw [if_pos]
    left
    rw [List.length_take, size]
    refine lt_of_le_of_lt (Nat.min_le_left ..) ?_
    rw [chunkFixedSize]
    omega

/-- For every value that an encoder accepts, decoding gives back the same value, except for the
chunks whose size wraps and the announcements of a name with a slash. -/
theorem transfer_round_trip_iff {value : TransferValue} (wellFormed : value.WellFormed)
    (acceptable : value.Acceptable) :
    (∀ payload, value.encode = .ok payload → value.Returned payload) ↔ value.Exchangeable := by
  cases value with
  | document document operation =>
    refine iff_of_true (fun payload encoded => ?_) trivial
    obtain ⟨decoded, rfl⟩ := transferEncodeDocument_eq_ok.mp encoded
    exact transferDecodeDocument_documentHeader ⟨decoded, wellFormed, acceptable⟩
  | chunk chunk operation =>
    constructor
    · intro returned
      by_contra wraps
      rw [TransferValue.Exchangeable, not_or, not_lt] at wraps
      obtain ⟨payload, encoded, refused⟩ := transferEncodeChunk_of_wrapped operation wraps.1 wraps.2
      have read : transferDecodeChunk payload operation = .ok chunk := returned payload encoded
      rw [refused] at read
      cases read
    · intro fits payload encoded
      unfold TransferValue.encode transferEncodeChunk at encoded
      dsimp only at encoded
      split at encoded
      · cases encoded
      · rename_i some
        rw [not_or] at some
        split at encoded
        · cases encoded
        · cases encoded
          have size := chunkSize_toNat (fits.resolve_left some.1)
          have whole : (chunkBytes chunk operation).take
              (UInt32.ofNat chunkFixedSize + chunk.compressedSize).toNat =
              chunkBytes chunk operation := by
            rw [size, ← length_chunkBytes wellFormed operation, List.take_length]
          rw [whole]
          exact transferDecodeChunk_chunkBytes wellFormed some.1 acceptable some.2
  | announcement document chunks =>
    obtain ⟨terminated, complete⟩ := wellFormed
    constructor
    · intro returned announceable
      have encoded := (transferEncodeAnnouncement_eq_ok complete).mpr ⟨announceable, rfl⟩
      have read : transferDecodeAnnouncement _ = .ok (document, chunks) := returned _ encoded
      unfold transferDecodeAnnouncement at read
      split at read
      · cases read
      · rename_i found used header
        dsimp only at read
        split at read
        · cases read
        · have same : found = document := congrArg Prod.fst (Except.ok.inj read)
          exact same ▸ (decodeDocumentAt_recordable header).plain
    · intro plain payload encoded
      obtain ⟨announceable, rfl⟩ := (transferEncodeAnnouncement_eq_ok complete).mp encoded
      exact transferDecodeAnnouncement_announcementBytes complete
        ⟨announceable.toDecoded, terminated, plain announceable⟩ acceptable
  | lookupResult result =>
    obtain ⟨terminated, complete, addresses⟩ := wellFormed
    obtain ⟨plain, placed⟩ := acceptable
    refine iff_of_true (fun payload encoded => ?_) trivial
    obtain ⟨decoded, sendable, -, rfl⟩ := (transferEncodeLookupResult_eq_ok complete).mp encoded
    refine transferDecodeLookupResult_bytes complete ⟨decoded, terminated, plain⟩
      fun index chunk found => ?_
    have member := List.mem_of_getElem? found
    obtain ⟨own, ports⟩ := placed index chunk found
    have checked := sendable chunk member
    exact ⟨own, checked.few, fun endpoint inside => ⟨checked.nonempty endpoint inside,
      checked.short endpoint inside, addresses chunk member endpoint inside,
      ports endpoint inside⟩⟩
  | lookupRequest selector =>
    exact iff_of_true (fun payload encoded => lookupRequest_returned wellFormed acceptable encoded)
      trivial
  | chunkRequest id index =>
    refine iff_of_true (fun payload encoded => ?_) trivial
    cases encoded
    exact transferDecodeChunkRequest_bytes id index

/-- A document of one chunk that two peers have. -/
def sharedDocument : TransferLookupResult where
  document := ⟨Octets.fill _ 5, [97, 46, 112, 100, 102], 1, 1, compressionLz4⟩
  chunks := [⟨⟨0, 0, 1, 2, Octets.fill _ 7⟩,
    [⟨Octets.fill _ 1, [49, 46, 49], 80⟩, ⟨Octets.fill _ 2, [58, 58, 49], 81⟩]⟩]

/-- The payload of a shared document gives the document back. -/
theorem transfer_round_trip_shared :
    ∃ payload, (TransferValue.lookupResult sharedDocument).encode = .ok payload ∧
      TransferValue.Returned payload (.lookupResult sharedDocument) := by
  have encoded := (transferEncodeLookupResult_eq_ok (show sharedDocument.chunks.length =
    sharedDocument.document.chunkCount.toNat from rfl)).mpr ⟨⟨by decide, by decide, rfl, by decide⟩,
      (by
        intro chunk member
        rw [List.mem_singleton.mp member]
        exact ⟨by decide, by decide, by decide⟩), by decide +kernel, rfl⟩
  have wellFormed : (TransferValue.lookupResult sharedDocument).WellFormed :=
    ⟨by decide, rfl, by decide⟩
  have acceptable : (TransferValue.lookupResult sharedDocument).Acceptable := by
    refine ⟨by decide, fun index located found => ?_⟩
    cases index with
    | zero =>
      cases found
      exact ⟨rfl, by decide⟩
    | succ index => cases found
  exact ⟨_, encoded, (transfer_round_trip_iff wellFormed acceptable).mpr trivial _ encoded⟩

/-- The first size that wraps. -/
def wrappedChunk : TransferChunk where
  id := Octets.fill _ 1
  index := 0
  offset := 0
  rawSize := 1
  compressedSize := 4294967207
  hash := Octets.fill _ 1
  data := List.replicate 4294967207 0

/-- The encoder accepts the chunk with a size of zero, and the decoder refuses what it has
written. -/
theorem transfer_round_trip_wrapped :
    (TransferValue.chunk wrappedChunk transferStoreChunk).WellFormed ∧
      (TransferValue.chunk wrappedChunk transferStoreChunk).Acceptable ∧
      (TransferValue.chunk wrappedChunk transferStoreChunk).encode = .ok [] ∧
      ¬TransferValue.Returned [] (.chunk wrappedChunk transferStoreChunk) := by
  refine ⟨?_, show (1 : UInt32).toUInt64 ≤ metadataChunkSize by decide, rfl, ?_⟩
  · show (List.replicate 4294967207 (0 : UInt8)).length = _
    rw [List.length_replicate]
    rfl
  · intro returned
    have refused : transferDecodeChunk [] transferStoreChunk = .error .ebadmsg := rfl
    have read : transferDecodeChunk [] transferStoreChunk = .ok wrappedChunk := returned
    rw [refused] at read
    cases read

end SuperPeerNet
