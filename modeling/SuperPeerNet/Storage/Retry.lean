/-
This file settles when a correct upload goes through after other uploads of its id.

The storage never forgets a document that has begun or a chunk that is present: a begin
of another size and a chunk of another content are refused. A chunk is checked against
the digest that it declares and not against the document, so a rejected upload may
leave chunks that no commit accepts. A correct upload goes through if and only if what
the earlier calls have left agrees with its content; the only other documents that its
commit may publish have another content of the same digest.
-/

import SuperPeerNet.Library.Pieces
import SuperPeerNet.Storage.Published
import SuperPeerNet.Storage.Upheld

namespace SuperPeerNet

open Pieces

/-! ### Sizes -/

/-- `METADATA_CHUNK_SIZE` as a number. -/
def chunkSize : Nat := 4194304

theorem toNat_metadataChunkSize : metadataChunkSize.toNat = chunkSize := rfl

/-- The indices of the chunks of a file are those whose chunks begin inside it. -/
theorem lt_chunkCountOf (fileSize : UInt64) (index : Nat) :
    index < (chunkCountOf fileSize).toNat ↔ index * chunkSize < fileSize.toNat := by
  have small := fileSize.toNat_lt
  have remainder : fileSize % metadataChunkSize ≠ 0 ↔ fileSize.toNat % chunkSize ≠ 0 := by
    rw [Ne, ← UInt64.toNat_inj, UInt64.toNat_mod, toNat_metadataChunkSize]
    rfl
  unfold chunkCountOf
  rw [UInt64.toNat_add, UInt64.toNat_div, toNat_metadataChunkSize]
  split
  · rename_i partly
    rw [remainder] at partly
    rw [show (1 : UInt64).toNat = 1 from rfl]
    unfold chunkSize at *
    omega
  · rename_i whole
    rw [remainder, not_not] at whole
    rw [show (0 : UInt64).toNat = 0 from rfl]
    unfold chunkSize at *
    omega

/-- The offset of a chunk that begins inside the file does not leave the words. -/
theorem toNat_offset {fileSize index : UInt64}
    (inside : index.toNat * chunkSize < fileSize.toNat) :
    (index * metadataChunkSize).toNat = index.toNat * chunkSize := by
  have small := fileSize.toNat_lt
  rw [UInt64.toNat_mul, toNat_metadataChunkSize]
  exact Nat.mod_eq_of_lt (by omega)

/-- Nor is the rest of the file from there on below zero. -/
theorem toNat_remaining {fileSize index : UInt64}
    (inside : index.toNat * chunkSize < fileSize.toNat) :
    (fileSize - index * metadataChunkSize).toNat =
      fileSize.toNat - index.toNat * chunkSize := by
  have offset := toNat_offset inside
  rw [UInt64.toNat_sub_of_le _ _ (UInt64.le_iff_toNat_le.mpr (by omega)), offset]

/-- The expected size of a chunk that begins inside the file is that of the piece. -/
theorem expectedSize_toNat {fileSize index : UInt64}
    (inside : index.toNat * chunkSize < fileSize.toNat) :
    (expectedSize fileSize index).toNat =
      min chunkSize (fileSize.toNat - index.toNat * chunkSize) := by
  have remaining := toNat_remaining inside
  unfold expectedSize
  simp only [gt_iff_lt, UInt64.lt_iff_toNat_lt, remaining, toNat_metadataChunkSize]
  split
  · rename_i full
    rw [Nat.min_eq_left (Nat.le_of_lt full)]
    rfl
  · rename_i last
    rw [UInt64.toNat_toUInt32, remaining, Nat.min_eq_right (Nat.le_of_not_lt last)]
    refine Nat.mod_eq_of_lt ?_
    unfold chunkSize at last ⊢
    omega

/-! ### Contents and uploads -/

section Contents

variable [Sha256] [Lz4]

/-- A document that speaks of a content, as its owner begins it. -/
structure TransferDocument.Describes (document : TransferDocument) (content : List UInt8) :
    Prop where
  id : document.id = contentSha256 content
  name : contentPdfName document.name = true
  fileSize : document.fileSize.toNat = content.length
  chunkCount : document.chunkCount = chunkCountOf document.fileSize
  compression : document.compression = compressionLz4

/-- A correct chunk of a content: compressed bytes of one of its pieces, under the digest of the
piece. -/
structure CarriedChunk.Correct (chunk : CarriedChunk) (content : List UInt8) : Prop where
  id : chunk.id = contentSha256 content
  inside : chunk.index.toNat * chunkSize < content.length
  offset : chunk.offset = chunk.index * metadataChunkSize
  rawSize : chunk.rawSize.toNat = (piece content chunkSize chunk.index.toNat).length
  hash : chunk.hash = contentSha256 (piece content chunkSize chunk.index.toNat)
  bounded : ∃ bound, compressionLz4Bound chunk.rawSize.toNat = .ok bound ∧
    chunk.compressedSize.toNat ≤ bound
  decompresses : compressionLz4Decompress chunk.data chunk.rawSize.toNat =
    .ok (piece content chunkSize chunk.index.toNat)

/-- Begin a document, put chunks and commit the document, whatever the answers are. -/
def upload (session : Session) (now : UInt64) (document : TransferDocument)
    (chunks : List CarriedChunk) : Session :=
  let begun := ((storageBegin session.1 now document).run session.2).1
  let filled := (putAll begun chunks).1
  ((storageCommit filled.1 filled.2 document.id).run filled.2).1

omit [Sha256] [Lz4] in
/-- The document with an id is `FINISHED`. -/
def Storage.Finished (storage : Storage) (id : ObjectID) : Prop :=
  ∃ stored, storage.find id = some stored ∧ stored.state = .finished

/-- A document is published whose chunks decompress to a content of its digest. -/
def Session.Keeps (session : Session) (content : List UInt8) : Prop :=
  ∃ stored, session.1.find (contentSha256 content) = some stored ∧ stored.state = .finished ∧
    verifyDocument (session.2.chunks .objects stored.id) stored = .ok content

/-- What a storage holds of a document agrees with a content: the document has its size, and the
files of the chunks that are present decompress to its pieces. An empty content has no chunks, and
no upload. -/
structure Compatible (session : Session) (document : TransferDocument) (content : List UInt8) :
    Prop where
  nonempty : content ≠ []
  began : ∀ stored, session.1.find document.id = some stored →
    stored.document.fileSize = document.fileSize ∧
      stored.document.chunkCount = document.chunkCount
  chunks : ∀ stored, session.1.find document.id = some stored → ∀ index : UInt64,
    (stored.chunk index.toNat).present = true →
    ∃ data, readAll (session.2.chunks .pending document.id index)
        (stored.chunk index.toNat).compressedSize.toNat = .ok data ∧
      compressionLz4Decompress data (stored.chunk index.toNat).rawSize.toNat =
        .ok (piece content chunkSize index.toNat)

end Contents

/-! ### What correct calls keep -/

section Correct

variable [Sha256] [Lz4] {session : Session} {document : TransferDocument} {content : List UInt8}

/-- A correct chunk passes every check of a document of the right size. -/
theorem CarriedChunk.Correct.faultless {chunk : CarriedChunk} (correct : chunk.Correct content)
    (describes : document.Describes content) {known : TransferDocument}
    (sizes : known.fileSize = document.fileSize ∧ known.chunkCount = document.chunkCount) :
    chunk.fault known = none := by
  have small := document.fileSize.toNat_lt
  have inside := correct.inside
  rw [← describes.fileSize] at inside
  have intact : chunk.intact = true := by
    obtain ⟨bound, bounded, within⟩ := correct.bounded
    simp only [CarriedChunk.intact, bounded, chunkContent, correct.decompresses, correct.hash, ne_eq,
      not_true_eq_false, if_false, Bool.and_eq_true, decide_eq_true_eq]
    exact ⟨within, rfl⟩
  have index : chunk.index < known.chunkCount := by
    rw [sizes.2, describes.chunkCount, UInt64.lt_iff_toNat_lt, lt_chunkCountOf]
    exact inside
  have noOverflow : ¬chunk.index > 0xffffffffffffffff / metadataChunkSize := by
    rw [gt_iff_lt, UInt64.lt_iff_toNat_lt]
    show ¬4398046511103 < chunk.index.toNat
    unfold chunkSize at inside
    omega
  have rawSize : chunk.rawSize = expectedSize known.fileSize chunk.index := by
    rw [← UInt32.toNat_inj, correct.rawSize, length_piece, sizes.1, expectedSize_toNat inside,
      describes.fileSize]
  unfold CarriedChunk.fault
  rw [intact, if_neg (by decide), if_neg, if_neg]
  · rintro (wrong | wrong)
    · exact wrong correct.offset
    · exact wrong rawSize
  · rintro (wrong | wrong)
    · exact absurd index (UInt64.not_lt.mpr wrong)
    · exact noOverflow wrong

omit [Sha256] in
/-- A begin of the document changes nothing about the agreement with its content. -/
theorem compatible_begin (now : UInt64) :
    Compatible ((storageBegin session.1 now document).run session.2).1 document content ↔
      Compatible session document content := by
  rcases run_storageBegin_cases session now document with
    ⟨same, -⟩ | ⟨directory, creates, same⟩
  · rw [same]
  · have unknown := creates.unknown
    have begun : ∀ stored, (session.1.insert (beginDocument session.1 now document)).find
        document.id = some stored → stored = beginDocument session.1 now document := by
      intro stored found
      rw [find_created, if_pos rfl] at found
      exact (Option.some.inj found).symm
    rw [same]
    constructor
    · refine fun compatible => ⟨compatible.nonempty, fun stored found => ?_, fun stored found => ?_⟩
      · rw [unknown] at found
        cases found
      · rw [unknown] at found
        cases found
    · refine fun compatible =>
        ⟨compatible.nonempty, fun stored found => ?_, fun stored found index present => ?_⟩
      · rw [begun stored found]
        exact ⟨rfl, rfl⟩
      · rw [begun stored found, blank_of_begun] at present
        cases present

/-- A put of a correct chunk changes nothing about the agreement with its content. -/
theorem compatible_put {chunk : CarriedChunk} (isId : chunk.id = document.id)
    (correct : chunk.Correct content) :
    Compatible ((storagePutChunk session.1 chunk).run session.2).1 document content ↔
      Compatible session document content := by
  rcases put_received session chunk with ⟨same, -⟩ | ⟨stored, received⟩
  · rw [same]
  · generalize ((storagePutChunk session.1 chunk).run session.2).1 = after at received
    have found := isId ▸ received.found
    have known := isId ▸ received.known
    have files := isId ▸ received.files
    constructor
    · refine fun compatible => ⟨compatible.nonempty, fun other again => ?_,
        fun other again index present => ?_⟩
      · cases found.symm.trans again
        exact compatible.began (stored.receive chunk) known
      · cases found.symm.trans again
        -- The received chunk was absent, so another one is meant.
        have different : index ≠ chunk.index := by
          rintro rfl
          rw [(judge_eq_fresh received.fresh).2.2] at present
          cases present
        have record := received.chunk index
        rw [if_neg different] at record
        have there := compatible.chunks _ known index (by rw [record]; exact present)
        rw [files, if_neg different, record] at there
        exact there
    · refine fun compatible => ⟨compatible.nonempty, fun other again => ?_,
        fun other again index present => ?_⟩
      · cases known.symm.trans again
        exact compatible.began stored found
      · cases known.symm.trans again
        have record := received.chunk index
        rw [files, record]
        by_cases same : index = chunk.index
        · rw [if_pos same, if_pos same, same]
          exact ⟨chunk.data, chunk.read, correct.decompresses⟩
        · rw [if_neg same, if_neg same]
          rw [record, if_neg same] at present
          exact compatible.chunks stored found index present

/-- A put of a correct chunk keeps the chunks that are present, and after it the chunk is
present if the document agrees with the content. -/
theorem put_correct (upheld : Upheld session) (describes : document.Describes content)
    {chunk : CarriedChunk} (correct : chunk.Correct content) {stored : StoredDocument}
    (found : session.1.find chunk.id = some stored) (unfinished : stored.state ≠ .finished) :
    ∃ later, ((storagePutChunk session.1 chunk).run session.2).1.1.find chunk.id = some later ∧
      later.state ≠ .finished ∧
      (∀ index : UInt64, (stored.chunk index.toNat).present = true →
        (later.chunk index.toNat).present = true) ∧
      (Compatible session document content →
        (later.chunk chunk.index.toNat).present = true) := by
  have isId : chunk.id = document.id := correct.id.trans describes.id.symm
  have waits := upheld.waits _ stored found unfinished
  rcases put_received session chunk with ⟨same, stale⟩ | ⟨other, received⟩
  · rw [same]
    refine ⟨stored, found, unfinished, fun _ => id, fun compatible => ?_⟩
    have faultless := correct.faultless describes (compatible.began stored (isId ▸ found))
    by_contra absent
    have fresh : stored.judge chunk = .fresh := by
      simp only [StoredDocument.judge, faultless, unfinished, absent, false_or, if_false]
    obtain ⟨directory, place⟩ := waits.directory
    rw [stale stored found fresh] at place
    cases place
  · cases found.symm.trans received.found
    refine ⟨_, received.known, (fun wrong => by cases wrong), fun index present => ?_, fun _ => ?_⟩
    · rw [received.chunk]
      split
      · rfl
      · exact present
    · rw [received.chunk, if_pos rfl]
      rfl

/-- What correct chunks leave of a document that is not published. -/
structure Filled (session after : Session) (document : TransferDocument) (content : List UInt8)
    (stored later : StoredDocument) (arrived : List UInt64) : Prop where
  upheld : Upheld after
  compatible : Compatible after document content ↔ Compatible session document content
  found : after.1.find document.id = some later
  unfinished : later.state ≠ .finished
  present : Compatible session document content → ∀ index : UInt64,
    (stored.chunk index.toNat).present = true ∨ index ∈ arrived →
    (later.chunk index.toNat).present = true

theorem putAll_correct (upheld : Upheld session) (describes : document.Describes content)
    {chunks : List CarriedChunk} (correct : ∀ chunk ∈ chunks, chunk.Correct content)
    {stored : StoredDocument} (found : session.1.find document.id = some stored)
    (unfinished : stored.state ≠ .finished) :
    ∃ later, Filled session (putAll session chunks).1 document content stored later
      (chunks.map fun chunk => chunk.index) := by
  induction chunks generalizing session stored with
  | nil =>
    refine ⟨stored, upheld, Iff.rfl, found, unfinished, fun _ index either => ?_⟩
    exact either.resolve_right List.not_mem_nil
  | cons chunk rest inductionHypothesis =>
    have isCorrect := correct chunk List.mem_cons_self
    have isId : chunk.id = document.id := isCorrect.id.trans describes.id.symm
    obtain ⟨next, known, open', kept, arrives⟩ := put_correct upheld describes isCorrect
      (isId ▸ found) unfinished
    have same : Compatible _ document content ↔ Compatible session document content :=
      compatible_put isId isCorrect
    obtain ⟨later, filled⟩ := inductionHypothesis (upheld_put upheld chunk)
      (fun other member => correct other (List.mem_cons_of_mem _ member)) (isId ▸ known) open'
    refine ⟨later, filled.upheld, filled.compatible.trans same, filled.found, filled.unfinished,
      fun compatible index either => ?_⟩
    refine filled.present (same.mpr compatible) index ?_
    rcases either with present | arrived
    · exact Or.inl (kept index present)
    · rcases List.mem_cons.mp arrived with rfl | later
      · exact Or.inl (arrives compatible)
      · exact Or.inr later

/-! ### Commits of a content -/

/-- A verification of present chunks concatenates what they decompress to. -/
theorem verifyChunks_of_pieces {files : UInt64 → Option (List UInt8)} (pieces : Nat → List UInt8)
    {chunks : List StoredChunk} {start : Nat}
    (each : ∀ (position : Nat) (record : StoredChunk), chunks[position]? = some record →
      record.present = true ∧ ∃ data, readAll (files (UInt64.ofNat (start + position)))
          record.compressedSize.toNat = .ok data ∧
        chunkContent data record.rawSize record.hash = .ok (pieces (start + position))) :
    verifyChunks files chunks start =
      .ok ((List.range' start chunks.length).map pieces).flatten := by
  induction chunks generalizing start with
  | nil => rfl
  | cons record rest inductionHypothesis =>
    obtain ⟨present, data, read, contents⟩ := each 0 record rfl
    have more := @inductionHypothesis (start + 1) fun position other found => by
      have shifted := each (position + 1) other found
      rw [show start + (position + 1) = start + 1 + position by omega] at shifted
      exact shifted
    rw [Nat.add_zero] at read contents
    rw [verifyChunks, if_neg (by rw [present]; decide)]
    rw [List.length_cons, List.range'_succ, List.map_cons, List.flatten_cons]
    exact bind_eq_ok.mpr ⟨data, read, bind_eq_ok.mpr ⟨_, contents, bind_eq_ok.mpr ⟨_, more, rfl⟩⟩⟩

omit [Sha256] [Lz4] in
/-- An index of the table, as the index of a chunk. -/
theorem toNat_ofNat_position {stored : StoredDocument} {position : Nat} {record : StoredChunk}
    (found : stored.chunks[position]? = some record) :
    (UInt64.ofNat position).toNat = position ∧ position < stored.document.chunkCount.toNat := by
  obtain ⟨inside, -⟩ := List.getElem?_eq_some_iff.mp found
  rw [stored.sized] at inside
  exact ⟨UInt64.toNat_ofNat_of_lt' (inside.trans stored.document.chunkCount.toNat_lt), inside⟩

/-- A complete document that agrees with a content verifies. -/
theorem verifyDocument_of_compatible (upheld : Upheld session)
    (describes : document.Describes content) (compatible : Compatible session document content)
    {stored : StoredDocument} (found : session.1.find document.id = some stored)
    (unfinished : stored.state ≠ .finished)
    (complete : ∀ index, index < document.chunkCount →
      (stored.chunk index.toNat).present = true) :
    verifyDocument (session.2.chunks .pending document.id) (stored.withState .verifying) =
      .ok content := by
  obtain ⟨fileSize, chunkCount⟩ := compatible.began stored found
  have waits := upheld.waits _ stored found unfinished
  have verified : verifyChunks (session.2.chunks .pending document.id) stored.chunks 0 =
      .ok content := by
    rw [verifyChunks_of_pieces (piece content chunkSize), ← List.range_eq_range', flatten_pieces,
      List.take_of_length_le]
    · have outside := (lt_chunkCountOf document.fileSize stored.chunks.length).not
      rw [describes.fileSize] at outside
      rw [stored.sized, chunkCount, describes.chunkCount] at outside ⊢
      exact Nat.le_of_not_lt (outside.mp (Nat.lt_irrefl _))
    · intro position record there
      obtain ⟨same, inside⟩ := toNat_ofNat_position there
      have isRecord := StoredDocument.chunk_of_getElem? there
      have present := complete (UInt64.ofNat position) (by
        rw [UInt64.lt_iff_toNat_lt, same, ← chunkCount]
        exact inside)
      obtain ⟨data, raw, read, checked⟩ := (waits.holds _ present).contents
      obtain ⟨again, readAgain, decompressed⟩ := compatible.chunks stored found _ present
      cases read.symm.trans readAgain
      cases (chunkContent_ok checked).symm.trans decompressed
      rw [same, isRecord] at present read checked
      rw [Nat.zero_add]
      exact ⟨present, data, read, checked⟩
  have size : actualSize stored.chunks = document.fileSize := by
    obtain ⟨pieces, decompresses, made⟩ := verifyChunks_ok verified
    rw [← UInt64.toNat_inj, actualSize_toNat, ← decompresses.flatten_length, ← made,
      ← describes.fileSize]
    exact Nat.mod_eq_of_lt document.fileSize.toNat_lt
  have checked : ¬(actualSize (stored.withState .verifying).chunks ≠
      (stored.withState .verifying).document.fileSize ∨
      Sha256.digest content ≠ (stored.withState .verifying).id) := by
    rw [not_or, not_not, not_not]
    exact ⟨size.trans fileSize.symm, describes.id.symm.trans (Storage.find_id found).symm⟩
  unfold verifyDocument
  rw [show (stored.withState .verifying).chunks = stored.chunks from rfl, verified]
  exact if_neg checked

/-- The commit of a complete document that agrees with a content publishes it. -/
theorem finished_commit (upheld : Upheld session) (describes : document.Describes content)
    (compatible : Compatible session document content)
    {stored : StoredDocument} (found : session.1.find document.id = some stored)
    (unfinished : stored.state ≠ .finished)
    (complete : ∀ index, index < document.chunkCount →
      (stored.chunk index.toNat).present = true) :
    ((storageCommit session.1 session.2 document.id).run session.2).1.1.Finished document.id := by
  have verified := verifyDocument_of_compatible upheld describes compatible found unfinished
    complete
  have isId := Storage.find_id found
  have noneMissing : ¬stored.chunks.any (fun record => !record.present) = true := by
    intro missing
    obtain ⟨record, member, absent⟩ := List.any_eq_true.mp missing
    obtain ⟨position, there⟩ := List.getElem?_of_mem member
    obtain ⟨same, inside⟩ := toNat_ofNat_position there
    have present := complete (UInt64.ofNat position) (by
      rw [UInt64.lt_iff_toNat_lt, same, ← (compatible.began stored found).2]
      exact inside)
    rw [same, StoredDocument.chunk_of_getElem? there] at present
    rw [present] at absent
    cases absent
  rw [← isId] at verified found ⊢
  obtain ⟨after, taken, -⟩ := execute_publish
    (upheld.waits _ stored found unfinished) session.1.pid
  refine ⟨stored.withState .finished, ?_, rfl⟩
  unfold storageCommit
  simp only [found, unfinished, noneMissing, if_false, verified]
  rw [Call.run_of_execute taken]
  exact (Storage.find_update found (by rfl) _).trans (if_pos rfl)

/-- A document that a commit publishes agrees with the content that has been verified. -/
theorem compatible_of_publishes (upheld : Upheld session)
    (describes : document.Describes content) {stored : StoredDocument}
    (publishes : Publishes session.1 session.2 document.id stored content) :
    Compatible session document content := by
  have found := publishes.found
  have waits := upheld.waits _ stored found publishes.unfinished
  obtain ⟨lists, decompresses, made, sums, -⟩ := verifyDocument_ok publishes.verified
  have length : lists.length = stored.chunks.length := decompresses.length
  have total : content.length = totalSize stored.chunks := by
    rw [made]
    exact decompresses.flatten_length
  have small : content.length < 2 ^ 64 := describes.fileSize ▸ document.fileSize.toNat_lt
  have fileSize : stored.document.fileSize.toNat = content.length := by
    rw [← show actualSize stored.chunks = stored.document.fileSize from sums, actualSize_toNat,
      ← total, Nat.mod_eq_of_lt small]
  -- Every chunk has the size of its place, so the lists are the pieces of the content.
  have each : ∀ (position : Nat) (record : StoredChunk), stored.chunks[position]? = some record →
      ∃ data list, readAll (session.2.chunks .pending document.id (UInt64.ofNat position))
          record.compressedSize.toNat = .ok data ∧
        compressionLz4Decompress data record.rawSize.toNat = .ok list ∧
        lists[position]? = some list ∧ list.length ≠ 0 ∧
        list.length = (expectedSize stored.document.fileSize (UInt64.ofNat position)).toNat := by
    intro position record there
    obtain ⟨same, -⟩ := toNat_ofNat_position there
    obtain ⟨data, list, read, decompressed, listed⟩ := decompresses.piece position record there
    have size := (waits.holds (UInt64.ofNat position) (by
      rw [same, StoredDocument.chunk_of_getElem? there]
      exact publishes.complete record (List.mem_of_getElem? there))).rawSize
    rw [same, StoredDocument.chunk_of_getElem? there] at size
    obtain ⟨-, positive, filled⟩ := compressionLz4Decompress_ok decompressed
    rw [Nat.zero_add] at read
    exact ⟨data, list, read, decompressed, listed, filled ▸ positive, by rw [filled, size]⟩
  have recorded : ∀ (position : Nat) (list : List UInt8), lists[position]? = some list →
      ∃ record, stored.chunks[position]? = some record := by
    intro position list listed
    obtain ⟨inside, -⟩ := List.getElem?_eq_some_iff.mp listed
    rw [length] at inside
    exact ⟨_, List.getElem?_eq_getElem inside⟩
  obtain ⟨counts, pieces⟩ := @eq_pieces UInt8 chunkSize lists content made.symm
    (fun list member => by
      obtain ⟨position, listed⟩ := List.getElem?_of_mem member
      obtain ⟨record, there⟩ := recorded position list listed
      obtain ⟨-, other, -, -, again, nonempty, -⟩ := each position record there
      cases listed.symm.trans again
      exact fun wrong => nonempty (by rw [wrong]; rfl))
    (fun position list listed inside => by
      obtain ⟨record, there⟩ := recorded position list listed
      obtain ⟨-, other, -, -, again, -, size⟩ := each position record there
      obtain ⟨same, -⟩ := toNat_ofNat_position there
      cases listed.symm.trans again
      rw [size, expectedSize_toNat (by rw [same, fileSize]; exact inside), same, fileSize])
  have sameSize : stored.document.fileSize = document.fileSize := by
    rw [← UInt64.toNat_inj, fileSize, describes.fileSize]
  refine ⟨?_, fun other again => ?_, fun other again index present => ?_⟩
  · rintro rfl
    have none : ¬0 < lists.length := fun some => absurd ((counts 0).mp some) (by simp)
    refine waits.nonempty (UInt64.toNat_inj.mp ?_)
    rw [← stored.sized, ← length]
    exact Nat.eq_zero_of_not_pos none
  · cases found.symm.trans again
    refine ⟨sameSize, UInt64.toNat_inj.mp (eq_of_forall_lt_iff fun index => ?_)⟩
    rw [describes.chunkCount, lt_chunkCountOf, describes.fileSize, ← counts, length, stored.sized]
  · cases found.symm.trans again
    have there := StoredDocument.getElem?_of_present present
    obtain ⟨data, list, read, decompressed, listed, -⟩ := each _ _ there
    rw [UInt64.ofNat_toNat] at read
    rw [← pieces _ list listed]
    exact ⟨data, read, decompressed⟩

/-! ### Uploads -/

omit [Lz4] in
/-- After a begin, the document of a content is known, unless the content is empty. -/
theorem known_begin (describes : document.Describes content) (nonempty : content ≠ [])
    (now : UInt64) :
    ∃ stored, ((storageBegin session.1 now document).run session.2).1.1.find document.id =
      some stored := by
  rcases run_storageBegin_cases session now document with
    ⟨same, refused⟩ | ⟨directory, creates, same⟩
  · rw [same]
    cases found : session.1.find document.id with
    | some stored => exact ⟨stored, rfl⟩
    | none =>
      have positive : 0 < document.fileSize.toNat := by
        rw [describes.fileSize]
        exact List.length_pos_iff.mpr nonempty
      have few := chunkCountOf_mul_le document.fileSize
      rw [← describes.chunkCount, toNat_metadataChunkSize] at few
      refine absurd ⟨describes.name, describes.compression, fun empty => ?_, ?_, found⟩ refused
      · have first := (lt_chunkCountOf document.fileSize 0).mpr (by rwa [Nat.zero_mul])
        rw [← describes.chunkCount, empty] at first
        cases first
      · unfold chunkSize at few
        unfold maxStoredChunks
        omega
  · rw [same]
    exact ⟨_, (find_created _).trans (if_pos rfl)⟩

omit [Sha256] [Lz4] in
/-- A begin does not finish a document. -/
theorem unfinished_begin (unfinished : ¬session.1.Finished document.id) (now : UInt64)
    {stored : StoredDocument}
    (known : ((storageBegin session.1 now document).run session.2).1.1.find document.id =
      some stored) : stored.state ≠ .finished := by
  rcases run_storageBegin_cases session now document with ⟨same, -⟩ | ⟨directory, creates, same⟩
  · rw [same] at known
    exact fun finished => unfinished ⟨stored, known, finished⟩
  · rw [same] at known
    cases ((find_created _).trans (if_pos rfl)).symm.trans known
    exact fun wrong => by cases wrong

/-- A document that is finished by a commit has been published with a content of its digest, which
the chunks in `objects` hold afterwards. -/
theorem publishes_of_finished (upheld : Upheld session) {id : ObjectID} {stored : StoredDocument}
    (found : session.1.find id = some stored) (unfinished : stored.state ≠ .finished)
    (finished : ((storageCommit session.1 session.2 id).run session.2).1.1.Finished id) :
    ∃ published, Publishes session.1 session.2 id stored published ∧
      Session.Keeps ((storageCommit session.1 session.2 id).run session.2).1 published := by
  have committed := committed_run upheld id
  generalize ((storageCommit session.1 session.2 id).run session.2).1 = after at *
  obtain ⟨later, known, isFinished⟩ := finished
  cases committed with
  | kept =>
    cases found.symm.trans known
    exact absurd isFinished unfinished
  | @rejected other foundAgain =>
    have find : ∀ wanted, (session.1.update (other.withState .verifying)).find wanted =
        if wanted = id then some (other.withState .verifying) else session.1.find wanted :=
      Storage.find_update foundAgain (show other.id = id from Storage.find_id foundAgain)
    cases ((find id).trans (if_pos rfl)).symm.trans known
    cases isFinished
  | @published other published disk publishes others moved =>
    cases found.symm.trans publishes.found
    obtain ⟨-, -, -, -, digest⟩ := verifyDocument_ok publishes.verified
    have isId : stored.id = id := Storage.find_id found
    have find := Storage.find_update found (show (stored.withState .finished).id = id from isId) id
    rw [if_pos rfl] at find
    refine ⟨published, publishes, stored.withState .finished, ?_, rfl, ?_⟩
    · rw [show contentSha256 published = id from digest.trans isId]
      exact find
    · show verifyDocument (disk.chunks .objects stored.id) _ = _
      rw [isId, moved]
      exact publishes.verified

end Correct

/-- After any calls that have not finished it, a document is finished by a correct upload if what
the calls have left agrees with its content. If it does not agree, then the upload can finish the
document only by publishing another content with the same digest. -/
theorem upload_finishes [Sha256] [Lz4] {owner : NodeID} {pid : Nat} {session : Session}
    (reached : Transition.Reaches sessionStep StorageAction.Calls (⟨owner, pid, []⟩, Disk.empty)
      session)
    {document : TransferDocument} {content : List UInt8} (describes : document.Describes content)
    {chunks : List CarriedChunk} (correct : ∀ chunk ∈ chunks, chunk.Correct content)
    (all : ∀ index, index < document.chunkCount → ∃ chunk ∈ chunks, chunk.index = index)
    (unfinished : ¬session.1.Finished document.id) (now : UInt64) :
    (Compatible session document content →
      (upload session now document chunks).1.Finished document.id) ∧
    ((upload session now document chunks).1.Finished document.id →
      Compatible session document content ∨
        ∃ other, other ≠ content ∧ contentSha256 other = contentSha256 content ∧
          (upload session now document chunks).Keeps other) := by
  have upheld := upheld_begin (upheld_of_reaches reached) now document
  have same : Compatible _ document content ↔ Compatible session document content :=
    compatible_begin now
  have known := fun nonempty => @known_begin _ session document content describes nonempty now
  have begun := @unfinished_begin session document unfinished now
  unfold upload
  dsimp only
  generalize ((storageBegin session.1 now document).run session.2).1 = begunSession at *
  constructor
  · intro compatible
    obtain ⟨stored, found⟩ := known compatible.nonempty
    obtain ⟨later, filled⟩ := putAll_correct upheld describes correct found (begun found)
    have agrees := same.mpr compatible
    refine finished_commit filled.upheld describes (filled.compatible.mpr agrees) filled.found
      filled.unfinished fun index inside => filled.present agrees index (Or.inr ?_)
    obtain ⟨chunk, member, isIndex⟩ := all index inside
    exact List.mem_map.mpr ⟨chunk, member, isIndex⟩
  · intro finished
    cases found : begunSession.1.find document.id with
    | none =>
      rw [putAll_unknown found fun chunk member => (correct chunk member).id.trans
        describes.id.symm] at finished
      obtain ⟨later, again, -⟩ := finished
      unfold storageCommit at again
      rw [found] at again
      cases found.symm.trans again
    | some stored =>
      obtain ⟨later, filled⟩ := putAll_correct upheld describes correct found (begun found)
      obtain ⟨published, publishes, keeps⟩ :=
        publishes_of_finished filled.upheld filled.found filled.unfinished finished
      by_cases isContent : published = content
      · subst isContent
        exact Or.inl (same.mp (filled.compatible.mp
          (compatible_of_publishes filled.upheld describes publishes)))
      · refine Or.inr ⟨published, isContent, ?_, keeps⟩
        obtain ⟨-, -, -, -, digest⟩ := verifyDocument_ok publishes.verified
        exact digest.trans ((Storage.find_id filled.found).trans describes.id)

/-! ### The document of one letter -/

theorem describes_letterDocument :
    letI := Sha256.reference
    letterDocument.Describes [65] :=
  letI := Sha256.reference
  ⟨rfl, by decide, rfl, by decide, rfl⟩

theorem correct_letterChunk :
    letI := Sha256.reference; letI := Lz4.reference
    letterChunk.Correct [65] :=
  letI := Sha256.reference
  letI := Lz4.reference
  ⟨rfl, by decide, by decide, by decide, by decide +kernel, ⟨17, by decide, by decide⟩,
    by decide +kernel⟩

/-- A chunk of another letter in the place of the letter chunk. -/
def strayChunk : CarriedChunk where
  id := Sha256.reference.digest [65]
  index := 0
  offset := 0
  rawSize := 1
  compressedSize := 2
  hash := Sha256.reference.digest [66]
  data := [16, 66]
  carried := rfl

theorem Storage.not_finished {storage : Storage} {id : ObjectID}
    (unfinished : (storage.find id).map StoredDocument.state ≠ some .finished) :
    ¬storage.Finished id := by
  rintro ⟨stored, found, finished⟩
  rw [found, Option.map_some, finished] at unfinished
  exact unfinished rfl

theorem letterChunk_only (index : UInt64) (inside : index < letterDocument.chunkCount) :
    ∃ chunk ∈ [letterChunk], chunk.index = index := by
  have first : index.toNat < 1 := UInt64.lt_iff_toNat_lt.mp inside
  exact ⟨letterChunk, List.mem_singleton_self _, UInt64.toNat_inj.mp (by
    rw [Nat.lt_one_iff.mp first]
    rfl)⟩

/-- The letter document goes through after a begin. -/
theorem upload_finishes_letter :
    letI := Sha256.reference; letI := Lz4.reference
    let begun := ((storageBegin letterSession.1 0 letterDocument).run letterSession.2).1
    (upload begun 0 letterDocument [letterChunk]).1.Finished letterDocument.id := by
  let sha := Sha256.reference
  let lz4 := Lz4.reference
  intro begun
  refine (upload_finishes (.tail .refl (.call (.begin 0 letterDocument)) trivial rfl)
    describes_letterDocument (fun chunk member => ?_) letterChunk_only
    (Storage.not_finished (by decide +kernel)) 0).1 ((compatible_begin 0).mpr ?_)
  · rw [List.mem_singleton.mp member]
    exact correct_letterChunk
  · exact ⟨by decide, fun _ wrong => (nomatch wrong), fun _ wrong => (nomatch wrong)⟩

/-- After the stray chunk and a commit that rejects it, the correct upload of the letter document
does not finish it: its chunk is refused, and its commit fails. -/
theorem rejected_upload_blocks :
    letI := Sha256.reference; letI := Lz4.reference
    ∃ session, Transition.Reaches sessionStep StorageAction.Calls letterSession session ∧
      letterDocument.Describes [65] ∧ letterChunk.Correct [65] ∧ letterDocument.chunkCount = 1 ∧
      ¬session.1.Finished letterDocument.id ∧
      ¬(upload session 0 letterDocument [letterChunk]).1.Finished letterDocument.id := by
  let sha := Sha256.reference
  let lz4 := Lz4.reference
  refine ⟨_, .tail (.tail (.tail .refl (.call (.begin 0 letterDocument)) trivial rfl)
    (.call (.put strayChunk)) trivial rfl) (.call (.commit letterDocument.id)) trivial rfl,
    describes_letterDocument, correct_letterChunk, rfl, Storage.not_finished ?_,
    Storage.not_finished ?_⟩
  · decide +kernel
  · decide +kernel

end SuperPeerNet
