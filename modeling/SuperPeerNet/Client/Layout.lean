/-
This file shows that the five places that lay out the chunks of a file agree.

`upload_worker`, `storage_put_chunk`, `read_manifest`, `download_one` and `metadata_announce` each
compute where a chunk begins and how large it is, in unsigned words of 64 bits and with casts to 32
bits. For the indices of the chunks of a file the words are the exact numbers: no product leaves
the words, no difference is below zero and no cast loses a bit. The chunks then lie side by side and
cover the file, whatever its size.
-/

import SuperPeerNet.Catalogue.Metadata
import SuperPeerNet.Client.Chunks
import SuperPeerNet.Storage.Order
import SuperPeerNet.Storage.Retry

namespace SuperPeerNet

/-! ### The five places -/

/-- Where a chunk lies, in the words of a function. -/
structure ChunkLayout where
  offset : UInt64
  remaining : UInt64
  /-- The size before it is stored. -/
  wide : UInt64
  /-- The size that the function goes on with. A cast to 32 bits is a truncation here. -/
  size : UInt64
  deriving DecidableEq

/-- The layout of `upload_worker`: `raw_size` is a `size_t`, and the chunk gets it as 32 bits. -/
def uploadWorkerLayout (fileSize index : UInt64) : ChunkLayout :=
  let offset := index * metadataChunkSize
  let remaining := fileSize - offset
  let rawSize := if remaining > metadataChunkSize then metadataChunkSize else remaining
  ⟨offset, remaining, rawSize, rawSize.toUInt32.toUInt64⟩

/-- The layout of `storage_put_chunk`: `expected_offset`, `remaining` and `expected_size`. -/
def storagePutChunkLayout (fileSize index : UInt64) : ChunkLayout :=
  let expectedOffset := index * metadataChunkSize
  let remaining := fileSize - expectedOffset
  let expected := if remaining > metadataChunkSize then metadataChunkSize else remaining
  ⟨expectedOffset, remaining, expected, expected.toUInt32.toUInt64⟩

/-- The layout of `read_manifest`, which has no variable for the offset. -/
def readManifestLayout (fileSize index : UInt64) : ChunkLayout :=
  let remaining := fileSize - index * metadataChunkSize
  let expected := if remaining > metadataChunkSize then metadataChunkSize else remaining
  ⟨index * metadataChunkSize, remaining, expected, expected.toUInt32.toUInt64⟩

/-- The layout of `download_one`. -/
def downloadOneLayout (fileSize index : UInt64) : ChunkLayout :=
  let expectedOffset := index * metadataChunkSize
  let remaining := fileSize - expectedOffset
  let expected := if remaining > metadataChunkSize then metadataChunkSize else remaining
  ⟨expectedOffset, remaining, expected, expected.toUInt32.toUInt64⟩

/-- The layout of `metadata_announce`, which compares sizes without a cast. -/
def metadataAnnounceLayout (size index : UInt64) : ChunkLayout :=
  let offset := index * metadataChunkSize
  let remaining := size - offset
  let expected := if remaining > metadataChunkSize then metadataChunkSize else remaining
  ⟨offset, remaining, expected, expected⟩

/-! ### What the functions do with their layouts -/

/-- The chunk of an upload has the layout of `upload_worker`. -/
theorem uploadedChunk_layout [Sha256] (document : TransferDocument) (index : UInt64)
    (raw compressed : List UInt8) :
    (uploadedChunk document index raw compressed).offset =
        (uploadWorkerLayout document.fileSize index).offset ∧
      (uploadedChunk document index raw compressed).rawSize.toUInt64 =
        (uploadWorkerLayout document.fileSize index).size := ⟨rfl, rfl⟩

/-- A chunk without a fault has the layout of `storage_put_chunk`. -/
theorem CarriedChunk.layout_of_faultless [Sha256] [Lz4] {chunk : CarriedChunk}
    {document : TransferDocument} (faultless : chunk.fault document = none) :
    chunk.offset = (storagePutChunkLayout document.fileSize chunk.index).offset ∧
      chunk.rawSize.toUInt64 = (storagePutChunkLayout document.fileSize chunk.index).size := by
  obtain ⟨-, -, offset, size⟩ := CarriedChunk.fault_eq_none faultless
  rw [size]
  exact ⟨offset, rfl⟩

/-- A record that `read_manifest` accepts has its layout. -/
theorem presentAccepted_layout [Lz4] {file : Option (List UInt8)} {document : TransferDocument}
    {index : UInt64} {record : StoredChunk}
    (accepted : presentAccepted file document index record) :
    record.offset = (readManifestLayout document.fileSize index).offset ∧
      record.rawSize.toUInt64 = (readManifestLayout document.fileSize index).size := by
  obtain ⟨-, offset, size, -⟩ := accepted
  rw [size]
  exact ⟨offset, rfl⟩

/-- A chunk that `download_one` takes has its layout. -/
theorem downloadedChunk_layout [Sha256] [Lz4] {lookup : TransferLookupResult} {index : UInt64}
    {hash : Octets objectIdSize} {response : Except Errno Message} {chunk : TransferChunk}
    {raw : List UInt8} (taken : downloadedChunk lookup index hash response = .ok (chunk, raw)) :
    chunk.offset = (downloadOneLayout lookup.document.fileSize index).offset ∧
      chunk.rawSize.toUInt64 = (downloadOneLayout lookup.document.fileSize index).size := by
  obtain ⟨message, -, checked⟩ := downloadedChunk_eq_ok.mp taken
  rw [checked.rawSize]
  exact ⟨checked.offset, rfl⟩

/-- A descriptor that `metadata_announce` accepts has its layout. -/
theorem chunkFits_layout {document : FileMetadata} {chunk : MetadataChunk} {position : Nat}
    (fits : chunkFits document chunk position = true) :
    chunk.offset = (metadataAnnounceLayout document.size (UInt64.ofNat position)).offset ∧
      chunk.rawSize.toUInt64 =
        (metadataAnnounceLayout document.size (UInt64.ofNat position)).size := by
  unfold chunkFits at fits
  simp only [Bool.and_eq_true, decide_eq_true_eq] at fits
  exact ⟨fits.1.1.1.2, fits.1.1.2⟩

/-! ### The words are the numbers -/

/-- The words of a layout are the exact numbers. -/
structure ChunkLayout.Exact (layout : ChunkLayout) (fileSize index : Nat) : Prop where
  inside : index * chunkSize < fileSize
  offset : layout.offset.toNat = index * chunkSize
  remaining : layout.remaining.toNat = fileSize - index * chunkSize
  wide : layout.wide.toNat = min chunkSize (fileSize - index * chunkSize)
  size : layout.size.toNat = min chunkSize (fileSize - index * chunkSize)

variable {fileSize index : UInt64}

/-- Without the cast, for an index of a chunk. -/
theorem metadataAnnounceLayout_exact (inside : index < chunkCountOf fileSize) :
    (metadataAnnounceLayout fileSize index).Exact fileSize.toNat index.toNat := by
  have within := (lt_chunkCountOf fileSize index.toNat).mp (UInt64.lt_iff_toNat_lt.mp inside)
  have remaining := toNat_remaining within
  have size : (if fileSize - index * metadataChunkSize > metadataChunkSize then metadataChunkSize
      else fileSize - index * metadataChunkSize).toNat =
      min chunkSize (fileSize.toNat - index.toNat * chunkSize) := by
    simp only [gt_iff_lt, UInt64.lt_iff_toNat_lt, remaining, toNat_metadataChunkSize]
    split
    · rename_i full
      rw [toNat_metadataChunkSize, Nat.min_eq_left (Nat.le_of_lt full)]
    · rename_i last
      rw [remaining, Nat.min_eq_right (Nat.le_of_not_lt last)]
  exact ⟨within, toNat_offset within, remaining, size, size⟩

/-- The size of a chunk fits into 32 bits, so the casts lose nothing. -/
theorem uploadWorkerLayout_eq (inside : index < chunkCountOf fileSize) :
    uploadWorkerLayout fileSize index = metadataAnnounceLayout fileSize index := by
  have exact := metadataAnnounceLayout_exact inside
  have narrow : (metadataAnnounceLayout fileSize index).wide.toUInt32.toUInt64 =
      (metadataAnnounceLayout fileSize index).wide := by
    refine UInt64.toNat_inj.mp ?_
    rw [UInt32.toNat_toUInt64, UInt64.toNat_toUInt32]
    refine Nat.mod_eq_of_lt ?_
    rw [exact.wide]
    exact (Nat.min_le_left _ _).trans_lt (by decide)
  exact congrArg (ChunkLayout.mk _ _ _) narrow

/-- The layouts that the five places compute for a chunk. -/
def chunkLayouts (fileSize index : UInt64) : List ChunkLayout :=
  [uploadWorkerLayout fileSize index, storagePutChunkLayout fileSize index,
    readManifestLayout fileSize index, downloadOneLayout fileSize index,
    metadataAnnounceLayout fileSize index]

/-- For an index of a chunk, the five places compute one layout. -/
theorem mem_chunkLayouts (inside : index < chunkCountOf fileSize) {layout : ChunkLayout}
    (place : layout ∈ chunkLayouts fileSize index) :
    layout = metadataAnnounceLayout fileSize index := by
  have same := uploadWorkerLayout_eq inside
  simp only [chunkLayouts, List.mem_cons, List.not_mem_nil, or_false] at place
  rcases place with rfl | rfl | rfl | rfl | rfl
  · exact same
  · exact same
  · exact same
  · exact same
  · rfl

/-- The number of chunks, as a number. -/
theorem chunkCountOf_exact (fileSize : UInt64) :
    (chunkCountOf fileSize).toNat =
      fileSize.toNat / chunkSize + if fileSize.toNat % chunkSize ≠ 0 then 1 else 0 := by
  refine le_antisymm (Nat.le_of_not_lt fun more => ?_) (Nat.le_of_not_lt fun fewer => ?_)
  · have within := (lt_chunkCountOf fileSize _).mp more
    unfold chunkSize at within
    split at within <;> omega
  · have beyond := mt (lt_chunkCountOf fileSize _).mpr (Nat.lt_irrefl _)
    unfold chunkSize at beyond fewer
    split at fewer <;> omega

/-- The bytes that a chunk covers, in numbers. -/
theorem covers_iff {byte : Nat} (within : byte < fileSize.toNat) (index : UInt64) :
    (index < chunkCountOf fileSize ∧ (uploadWorkerLayout fileSize index).offset.toNat ≤ byte ∧
        byte < (uploadWorkerLayout fileSize index).offset.toNat +
          (uploadWorkerLayout fileSize index).size.toNat) ↔
      index.toNat * chunkSize ≤ byte ∧ byte < index.toNat * chunkSize +
        min chunkSize (fileSize.toNat - index.toNat * chunkSize) := by
  constructor
  · rintro ⟨inside, covered⟩
    have exact := metadataAnnounceLayout_exact inside
    rw [uploadWorkerLayout_eq inside, exact.offset, exact.size] at covered
    exact covered
  · intro covered
    have inside : index < chunkCountOf fileSize :=
      UInt64.lt_iff_toNat_lt.mpr ((lt_chunkCountOf _ _).mpr (covered.1.trans_lt within))
    have exact := metadataAnnounceLayout_exact inside
    rw [uploadWorkerLayout_eq inside, exact.offset, exact.size]
    exact ⟨inside, covered⟩

/-- For every size of a file and every index of a chunk, the five places compute the same words,
which are the exact numbers. The chunks are not empty, no chunk is larger than the size of a chunk,
and every byte of the file is in the chunk at one index. With fewer than `2 ^ 32` chunks the number
of chunks fits into the field of `FileMetadata`. -/
theorem chunk_layouts_agree {fileSize : UInt64} (positive : 0 < fileSize) :
    ((chunkCountOf fileSize).toNat =
        fileSize.toNat / chunkSize + (if fileSize.toNat % chunkSize ≠ 0 then 1 else 0) ∧
      0 < chunkCountOf fileSize ∧
      ((chunkCountOf fileSize).toNat < 2 ^ 32 →
        (chunkCountOf fileSize).toUInt32.toUInt64 = chunkCountOf fileSize)) ∧
    (∀ index < chunkCountOf fileSize,
      (∀ layout ∈ chunkLayouts fileSize index, layout = uploadWorkerLayout fileSize index ∧
        layout.Exact fileSize.toNat index.toNat) ∧
      1 ≤ (uploadWorkerLayout fileSize index).size ∧
      (uploadWorkerLayout fileSize index).size ≤ metadataChunkSize ∧
      (uploadWorkerLayout fileSize index).offset.toNat +
        (uploadWorkerLayout fileSize index).size.toNat ≤ fileSize.toNat) ∧
    ∀ byte < fileSize.toNat, ∃! index : UInt64, index < chunkCountOf fileSize ∧
      (uploadWorkerLayout fileSize index).offset.toNat ≤ byte ∧
      byte < (uploadWorkerLayout fileSize index).offset.toNat +
        (uploadWorkerLayout fileSize index).size.toNat := by
  refine ⟨⟨chunkCountOf_exact fileSize, ?_, fun few => ?_⟩, fun index inside => ?_,
    fun byte within => ?_⟩
  · rw [UInt64.lt_iff_toNat_lt] at positive ⊢
    exact (lt_chunkCountOf fileSize 0).mpr (by rwa [Nat.zero_mul])
  · refine UInt64.toNat_inj.mp ?_
    rw [UInt32.toNat_toUInt64, UInt64.toNat_toUInt32]
    exact Nat.mod_eq_of_lt few
  · have exact := metadataAnnounceLayout_exact inside
    have within := exact.inside
    have size := exact.size
    have offset := exact.offset
    rw [uploadWorkerLayout_eq inside, UInt64.le_iff_toNat_le, UInt64.le_iff_toNat_le,
      toNat_metadataChunkSize, size, offset, show (1 : UInt64).toNat = 1 from rfl]
    refine ⟨fun layout place => ?_, ?_, Nat.min_le_left _ _, by omega⟩
    · rw [mem_chunkLayouts inside place]
      exact ⟨rfl, exact⟩
    · unfold chunkSize at *
      omega
  · have whole : 0 < chunkSize := by decide
    obtain ⟨position, ⟨start, stop⟩, only⟩ := Pieces.existsUnique_piece whole within
    have word : (UInt64.ofNat position).toNat = position := by
      have small := fileSize.toNat_lt
      rw [UInt64.toNat_ofNat']
      refine Nat.mod_eq_of_lt ?_
      unfold chunkSize at start
      omega
    refine ⟨UInt64.ofNat position, (covers_iff within _).mpr ?_, fun other covered => ?_⟩
    · rw [word]
      exact ⟨start, stop⟩
    · refine UInt64.toNat_inj.mp ?_
      rw [word]
      exact only _ ((covers_iff within other).mp covered)

/-- The last byte of the largest file is in the last chunk, which is one byte short. -/
theorem chunk_layouts_agree_largest :
    (chunkCountOf 0xffffffffffffffff).toNat = 4398046511104 ∧
      ∃! index : UInt64, index < chunkCountOf 0xffffffffffffffff ∧
        (uploadWorkerLayout 0xffffffffffffffff index).offset.toNat ≤ 18446744073709551614 ∧
        18446744073709551614 < (uploadWorkerLayout 0xffffffffffffffff index).offset.toNat +
          (uploadWorkerLayout 0xffffffffffffffff index).size.toNat := by
  have largest := @chunk_layouts_agree 0xffffffffffffffff (by decide)
  exact ⟨largest.1.1, largest.2.2 _ (by decide)⟩

end SuperPeerNet
