/-
This file proves that published content is what its name says.

The slot of a published document records that `verify_document` has accepted its
files. From this follows that the decompressed chunks have the size and the digest of
the document. The calls and the crashes of any run work on the slots of other
documents, so neither the records nor the files of a published document ever change,
and what `storage_find`, `storage_list`, `storage_read_chunk` and
`storage_descriptors` expose are published documents.
-/

import Mathlib.Algebra.Order.BigOperators.Group.List
import SuperPeerNet.Storage.Cache
import SuperPeerNet.Storage.Steps

namespace SuperPeerNet

/-! ### The sizes of chunks -/

theorem expectedSize_le (fileSize index : UInt64) :
    (expectedSize fileSize index).toNat ≤ metadataChunkSize.toNat := by
  unfold expectedSize
  simp only
  split
  · decide
  · rename_i small
    rw [gt_iff_lt, UInt64.not_lt, UInt64.le_iff_toNat_le] at small
    rw [UInt64.toNat_toUInt32]
    exact (Nat.mod_le _ _).trans small

/-- The chunks of a file have at most as many bytes as there are words. -/
theorem chunkCountOf_mul_le (fileSize : UInt64) :
    (chunkCountOf fileSize).toNat * metadataChunkSize.toNat ≤ 2 ^ 64 := by
  have size : metadataChunkSize.toNat = 4194304 := rfl
  have small := fileSize.toNat_lt
  unfold chunkCountOf
  split
  · rw [UInt64.toNat_add, UInt64.toNat_div, size, show (1 : UInt64).toNat = 1 from rfl]
    omega
  · rw [UInt64.toNat_add, UInt64.toNat_div, size, show (0 : UInt64).toNat = 0 from rfl]
    omega

/-- The sum of the recorded sizes, as a number. -/
def totalSize (chunks : List StoredChunk) : Nat :=
  (chunks.map fun record => record.rawSize.toNat).sum

theorem actualSize_toNat (chunks : List StoredChunk) :
    (actualSize chunks).toNat = totalSize chunks % 2 ^ 64 := by
  have general : ∀ start : UInt64,
      (chunks.foldl (fun total record => total + record.rawSize.toUInt64) start).toNat =
        (start.toNat + totalSize chunks) % 2 ^ 64 := by
    induction chunks with
    | nil =>
      intro start
      rw [List.foldl_nil, totalSize, List.map_nil, List.sum_nil, Nat.add_zero]
      exact (Nat.mod_eq_of_lt start.toNat_lt).symm
    | cons record rest inductionHypothesis =>
      intro start
      rw [List.foldl_cons, inductionHypothesis, totalSize, totalSize, List.map_cons, List.sum_cons,
        UInt64.toNat_add, UInt32.toNat_toUInt64]
      omega
  rw [actualSize, general]
  simp

section Published

variable [Sha256] [Lz4]

/-! ### What a verification has seen -/

/-- The decompressed chunks of a document, in the order of their indices. -/
structure Decompresses (files : UInt64 → Option (List UInt8)) (chunks : List StoredChunk)
    (start : Nat) (pieces : List (List UInt8)) : Prop where
  length : pieces.length = chunks.length
  piece : ∀ (position : Nat) (record : StoredChunk), chunks[position]? = some record →
    ∃ data piece, readAll (files (UInt64.ofNat (start + position))) record.compressedSize.toNat =
        .ok data ∧
      compressionLz4Decompress data record.rawSize.toNat = .ok piece ∧
      pieces[position]? = some piece

theorem chunkContent_ok {data raw : List UInt8} {rawSize : UInt32} {hash : Octets objectIdSize}
    (done : chunkContent data rawSize hash = .ok raw) :
    compressionLz4Decompress data rawSize.toNat = .ok raw := by
  unfold chunkContent at done
  split at done
  · cases done
  · rename_i output decompressed
    split at done
    · cases done
    · cases done
      exact decompressed

/-- A verification concatenates the decompressed chunks. -/
theorem verifyChunks_ok {files : UInt64 → Option (List UInt8)} {chunks : List StoredChunk}
    {start : Nat} {content : List UInt8} (done : verifyChunks files chunks start = .ok content) :
    ∃ pieces, Decompresses files chunks start pieces ∧ content = pieces.flatten := by
  induction chunks generalizing start content with
  | nil =>
    cases done
    exact ⟨[], ⟨rfl, fun _ _ absent => by cases absent⟩, rfl⟩
  | cons record rest inductionHypothesis =>
    rw [verifyChunks] at done
    split at done
    · cases done
    · obtain ⟨data, read, afterRead⟩ := bind_eq_ok.mp done
      obtain ⟨raw, checked, afterCheck⟩ := bind_eq_ok.mp afterRead
      obtain ⟨more, verified, ended⟩ := bind_eq_ok.mp afterCheck
      cases ended
      obtain ⟨pieces, decompresses, rfl⟩ := inductionHypothesis verified
      refine ⟨raw :: pieces, ⟨congrArg Nat.succ decompresses.length, ?_⟩, rfl⟩
      intro position other found
      cases position with
      | zero =>
        cases found
        exact ⟨data, raw, read, chunkContent_ok checked, rfl⟩
      | succ position =>
        obtain ⟨later, piece, isRead, isPiece, there⟩ := decompresses.piece position other found
        refine ⟨later, piece, ?_, isPiece, there⟩
        rw [Nat.add_assoc, Nat.add_comm 1] at isRead
        exact isRead

/-- The contents of a verified document are its decompressed chunks, and they have its digest. -/
theorem verifyDocument_ok {files : UInt64 → Option (List UInt8)} {stored : StoredDocument}
    {content : List UInt8} (done : verifyDocument files stored = .ok content) :
    ∃ pieces, Decompresses files stored.chunks 0 pieces ∧ content = pieces.flatten ∧
      actualSize stored.chunks = stored.document.fileSize ∧ Sha256.digest content = stored.id := by
  obtain ⟨seen, verified, ended⟩ := bind_eq_ok.mp done
  split at ended
  · cases ended
  · rename_i checked
    rw [not_or, not_not, not_not] at checked
    cases ended
    obtain ⟨pieces, decompresses, isContent⟩ := verifyChunks_ok verified
    exact ⟨pieces, decompresses, isContent, checked⟩

omit [Sha256] in
/-- Decompressed chunks have the recorded sizes. -/
theorem Decompresses.flatten_length {files : UInt64 → Option (List UInt8)}
    {chunks : List StoredChunk} {start : Nat} {pieces : List (List UInt8)}
    (decompresses : Decompresses files chunks start pieces) :
    pieces.flatten.length = totalSize chunks := by
  have lengths : pieces.map List.length = chunks.map fun record => record.rawSize.toNat := by
    refine List.ext_getElem? fun position => ?_
    rw [List.getElem?_map, List.getElem?_map]
    cases found : chunks[position]? with
    | none =>
      rw [List.getElem?_eq_none_iff, ← decompresses.length, ← List.getElem?_eq_none_iff] at found
      rw [found]
      rfl
    | some record =>
      obtain ⟨data, piece, -, isPiece, there⟩ := decompresses.piece position record found
      rw [there, Option.map_some, Option.map_some, (compressionLz4Decompress_ok isPiece).2.2]
  rw [List.length_flatten, lengths, totalSize]

omit [Sha256] in
theorem totalSize_le {stored : StoredDocument} (sound : stored.Sound)
    (complete : ∀ record ∈ stored.chunks, record.present = true) :
    totalSize stored.chunks ≤ 2 ^ 64 := by
  have each : ∀ size ∈ stored.chunks.map (fun record => record.rawSize.toNat),
      size ≤ metadataChunkSize.toNat := by
    intro size member
    obtain ⟨record, inside, rfl⟩ := List.mem_map.mp member
    obtain ⟨position, found⟩ := List.getElem?_of_mem inside
    rcases sound.records position record found with rfl | fits
    · cases complete _ inside
    · rw [fits.rawSize]
      exact expectedSize_le _ _
  have bound := List.sum_le_card_nsmul _ _ each
  rw [List.length_map, stored.sized, sound.recordable.count] at bound
  exact bound.trans (chunkCountOf_mul_le _)

omit [Sha256] in
/-- The sizes of a complete document add up to the size of the file. -/
theorem totalSize_eq {stored : StoredDocument} (sound : stored.Sound)
    (complete : ∀ record ∈ stored.chunks, record.present = true)
    (sums : actualSize stored.chunks = stored.document.fileSize) :
    totalSize stored.chunks = stored.document.fileSize.toNat := by
  have modulo := actualSize_toNat stored.chunks
  rw [sums] at modulo
  rcases Nat.lt_or_eq_of_le (totalSize_le sound complete) with small | full
  · rw [modulo, Nat.mod_eq_of_lt small]
  · -- A sum of `2 ^ 64` is zero in machine words, and a file of size zero has no chunks.
    rw [full, Nat.mod_self] at modulo
    have zero : stored.document.fileSize = 0 := UInt64.toNat_inj.mp modulo
    have none : stored.chunks = [] := by
      rw [← List.length_eq_zero_iff, stored.sized, sound.recordable.count, zero]
      decide
    rw [none] at full
    cases full

/-! ### Genuine documents -/

/-- All chunks of a document are present, and decompressed and concatenated in the order of their
indices they have its size and its digest. -/
structure Genuine (disk : Disk) (stored : StoredDocument) : Prop where
  complete : ∀ record ∈ stored.chunks, record.present = true
  contents : ∃ pieces : List (List UInt8),
    pieces.length = stored.document.chunkCount.toNat ∧
    (∀ (position : Nat) (piece : List UInt8), pieces[position]? = some piece →
      ∃ record data, stored.chunks[position]? = some record ∧
        disk.chunks .objects stored.id (UInt64.ofNat position) = some data ∧
        compressionLz4Decompress data record.rawSize.toNat = .ok piece) ∧
    pieces.flatten.length = stored.document.fileSize.toNat ∧
    Sha256.digest pieces.flatten = stored.id

omit [Sha256] [Lz4] in
/-- A file of the recorded size is read whole. -/
theorem readAll_ok {file : Option (List UInt8)} {size : Nat} {data : List UInt8}
    (read : readAll file size = .ok data) (sized : file.map List.length = some size) :
    file = some data := by
  unfold readAll at read
  cases file with
  | none => cases read
  | some bytes =>
    simp only at read
    split at read
    · cases read
    · cases read
      rw [List.take_of_length_le]
      exact le_of_eq (Option.some.inj sized)

/-- The slot of a published document. -/
structure Shelved (disk : Disk) (stored : StoredDocument) (contents : Contents) : Prop where
  place : disk.contents .objects stored.id = some contents
  sound : stored.Sound
  backed : stored.Backed contents.files
  complete : ∀ record ∈ stored.chunks, record.present = true
  verified : ∃ content, verifyDocument contents.files stored = .ok content

theorem Session.Settled.shelved {session : Session} (settled : Session.Settled session)
    {id : ObjectID} {stored : StoredDocument} (found : session.1.find id = some stored)
    (finished : stored.state = .finished) : ∃ contents, Shelved session.2 stored contents := by
  have slot := settled.slots id
  rw [found] at slot
  generalize pendingHeld : session.2.contents .pending id = pending at slot
  generalize objectsHeld : session.2.contents .objects id = objects at slot
  cases slot with
  | opened _ _ unfinished => exact absurd finished unfinished
  | published isId sound _ _ backed complete verified =>
    subst isId
    exact ⟨_, objectsHeld, sound, backed, complete, _, verified⟩

/-- The document of a published slot is genuine. -/
theorem Session.Settled.genuine {session : Session} (settled : Session.Settled session)
    {id : ObjectID} {stored : StoredDocument} (found : session.1.find id = some stored)
    (finished : stored.state = .finished) : Genuine session.2 stored := by
  obtain ⟨contents, shelved⟩ := settled.shelved found finished
  obtain ⟨content, verified⟩ := shelved.verified
  obtain ⟨pieces, decompresses, rfl, sums, digest⟩ := verifyDocument_ok verified
  refine ⟨shelved.complete, pieces, decompresses.length.trans stored.sized, ?_, ?_, digest⟩
  · intro position piece there
    have inside := (List.getElem?_eq_some_iff.mp there).1
    rw [decompresses.length, stored.sized] at inside
    have known := StoredDocument.getElem?_of_inside inside
    obtain ⟨data, other, read, isPiece, isThere⟩ := decompresses.piece position _ known
    rw [there] at isThere
    cases isThere
    rw [Nat.zero_add] at read
    have present := shelved.complete _ (List.mem_of_getElem? known)
    refine ⟨_, data, known, ?_, isPiece⟩
    rw [Disk.chunks_of_contents shelved.place]
    exact readAll_ok read (shelved.backed position _ known present)
  · rw [decompresses.flatten_length, totalSize_eq shelved.sound shelved.complete sums]

/-! ### What is exposed -/

/-- A call shows a document, with its record where it returns one. The cache may hold anything. -/
inductive Exposes (session : Session) : ObjectID → Option TransferDocument → Prop
  | find {selector : TransferSelector} {document : TransferDocument}
      (found : storageFind session.1 selector = .ok document) :
      Exposes session document.id (some document)
  | list {document : TransferDocument} (member : document ∈ storageList session.1) :
      Exposes session document.id (some document)
  | readChunk {cache : Cache} {id : ObjectID} {index : UInt64} {chunk : TransferChunk}
      (read : (storageReadChunk session.1 cache session.2 id index).2 = .answered (.ok chunk)) :
      Exposes session id none
  | descriptors {id : ObjectID} {chunks : List MetadataChunk}
      (given : storageDescriptors session.1 id = .ok chunks) : Exposes session id none

omit [Sha256] [Lz4] in
/-- The loop of `storage_find` stops at a published document of the list. -/
theorem findTurn_foldlM {selector : TransferSelector} {inside : StoredDocument → Prop}
    {documents : List StoredDocument} (all : ∀ stored ∈ documents, inside stored)
    {start : Option StoredDocument}
    (known : ∀ stored, start = some stored → inside stored ∧ stored.state = .finished)
    {result : StoredDocument}
    (done : documents.foldlM (findTurn selector) start = .ok (some result)) :
    inside result ∧ result.state = .finished := by
  induction documents generalizing start with
  | nil =>
    cases done
    exact known result rfl
  | cons current rest inductionHypothesis =>
    obtain ⟨here, later⟩ := List.forall_mem_cons.mp all
    rw [List.foldlM_cons] at done
    obtain ⟨middle, turned, after⟩ := bind_eq_ok.mp done
    refine inductionHypothesis later (fun stored isMiddle => ?_) after
    subst isMiddle
    unfold findTurn at turned
    split at turned
    · rename_i selected
      cases start with
      | none =>
        cases turned
        exact ⟨here, selected.2⟩
      | some earlier =>
        simp only at turned
        split at turned
        · cases turned
        · cases turned
          exact ⟨here, selected.2⟩
    · cases turned
      exact known stored rfl

omit [Sha256] [Lz4] in
/-- A read passes its first checks for a chunk of a published document. -/
theorem publishedChunk_ok {storage : Storage} {id : ObjectID} {index : UInt64}
    {record : StoredChunk} (done : publishedChunk storage id index = .ok record) :
    ∃ stored, storage.find id = some stored ∧ stored.state = .finished ∧
      index < stored.document.chunkCount ∧ stored.chunk index.toNat = record := by
  unfold publishedChunk at done
  split at done
  · cases done
  · rename_i stored found
    split at done
    · cases done
    · rename_i checked
      rw [not_or, not_not, ge_iff_le, UInt64.not_le] at checked
      cases done
      exact ⟨stored, found, checked.1, checked.2, rfl⟩

/-- What is exposed is a published document. -/
theorem Exposes.published {session : Session} (settled : Session.Settled session) {id : ObjectID}
    {shown : Option TransferDocument} (exposes : Exposes session id shown) :
    ∃ stored, session.1.find id = some stored ∧ stored.state = .finished ∧
      ∀ document, shown = some document → stored.document = document := by
  have known : ∀ stored ∈ session.1.documents, session.1.find stored.id = some stored :=
    fun stored member => (KeyedList.lookup_eq_some_iff settled.distinct).mpr ⟨member, rfl⟩
  cases exposes with
  | @find selector document found =>
    unfold storageFind at found
    split at found
    · cases found
    · cases found
    · rename_i result done
      cases found
      obtain ⟨isKnown, finished⟩ := findTurn_foldlM known (fun _ wrong => by cases wrong) done
      exact ⟨result, isKnown, finished, fun _ same => Option.some.inj same⟩
  | @list document member =>
    obtain ⟨stored, inside, rfl⟩ := List.mem_map.mp member
    obtain ⟨isStored, finished⟩ := List.mem_filter.mp inside
    exact ⟨stored, known stored isStored, of_decide_eq_true finished,
      fun _ same => Option.some.inj same⟩
  | @readChunk cache _ index chunk read =>
    cases looked : publishedChunk session.1 id index with
    | error code =>
      rw [storageReadChunk, readSection, looked] at read
      cases read
    | ok record =>
      obtain ⟨stored, found, finished, -⟩ := publishedChunk_ok looked
      exact ⟨stored, found, finished, fun _ wrong => by cases wrong⟩
  | @descriptors _ chunks given =>
    unfold storageDescriptors at given
    split at given
    · cases given
    · rename_i stored found
      split at given
      · cases given
      · rename_i finished
        exact ⟨stored, found, not_not.mp finished, fun _ wrong => by cases wrong⟩

/-! ### Published documents do not change -/

/-- No call works on the directory of a published document. -/
theorem plan_untouched {session : Session} (settled : Session.Settled session) {id : ObjectID}
    {stored : StoredDocument} (found : session.1.find id = some stored)
    (finished : stored.state = .finished) {request : StorageCall}
    (recordable : request.Recordable session) :
    ∀ step ∈ (request.plan session).steps, id ≠ step.id := by
  rintro step member rfl
  cases request with
  | begin now document =>
    rw [(acts_begin settled now recordable).about step member] at found
    rw [StorageCall.plan] at member
    rcases storageBegin_cases session.1 now document with ⟨answer, same, -⟩ | ⟨creates, -⟩
    · rw [same] at member
      cases member
    · rw [creates.unknown] at found
      cases found
  | put chunk =>
    rw [(acts_put settled chunk).about step member] at found
    rw [StorageCall.plan] at member
    rcases storagePutChunk_cases session.1 chunk with ⟨answer, same, -⟩ | ⟨other, receives, -⟩
    · rw [same] at member
      cases member
    · rw [receives.found] at found
      cases found
      exact receives.unfinished finished
  | commit acted =>
    rw [(acts_commit settled acted).about step member] at found
    rw [StorageCall.plan] at member
    rcases storageCommit_cases session.1 session.2 acted with
      ⟨answer, same, -⟩ | ⟨other, code, -, -, same⟩ | ⟨other, content, publishes, -⟩
    · rw [same] at member
      cases member
    · rw [same] at member
      cases member
    · rw [publishes.found] at found
      cases found
      exact publishes.unfinished finished

/-- The call of an action. -/
def StorageAction.request : StorageAction → StorageCall
  | .call request => request
  | .crash request .. => request

omit [Sha256] [Lz4] in
/-- The documents that begin are those that a peer can send. -/
def StorageCall.Admits : StorageCall → Prop
  | .begin _ document => Admitted document
  | .put _ => True
  | .commit _ => True

omit [Sha256] [Lz4] in
theorem StorageCall.Admits.recordable {request : StorageCall} (admits : request.Admits)
    (session : Session) : request.Recordable session := by
  cases request with
  | begin now document => exact fun _ => Admitted.recordable admits
  | put chunk => trivial
  | commit id => trivial

/-- A step of calls with admitted documents and of reloads that see the whole tree. -/
def StorageAction.Admissible (session : Session) (action : StorageAction) : Prop :=
  action.Seen session ∧ action.request.Admits

/-- Every step keeps the invariant, and a published document with its directory. -/
theorem Session.Settled.step {session next : Session} (settled : Session.Settled session)
    {action : StorageAction} (admissible : action.Admissible session)
    (stepped : sessionStep session action = some next) :
    Session.Settled next ∧ ∀ id stored, session.1.find id = some stored →
      stored.state = .finished → next.1.find id = some stored ∧
        next.2 .objects id = session.2 .objects id := by
  cases action with
  | call request =>
    cases stepped
    have recordable : request.Recordable session := admissible.2.recordable session
    obtain ⟨acted, acts⟩ := acts_plan settled recordable
    obtain ⟨-, completed, settledNext, keeps⟩ := acts.run settled
    refine ⟨settledNext, fun id stored found finished => ?_⟩
    obtain ⟨later, foundLater, -, same, -⟩ := keeps id stored found
    rw [completed, foundLater, same finished, Call.run_disk,
      execute_other (plan_untouched settled found finished recordable)]
    exact ⟨rfl, rfl⟩
  | crash request taken owner pid objects pending =>
    have recordable : request.Recordable session := admissible.2.recordable session
    obtain ⟨sane, -⟩ := surviving_sane settled recordable taken
    obtain ⟨storage, created, settledNext, finds⟩ :=
      storageCreate_sane sane owner pid admissible.1.1 admissible.1.2
    rw [sessionStep, created] at stepped
    cases stepped
    refine ⟨settledNext, fun id stored found finished => ?_⟩
    have same : ∀ area, surviving session request taken area id = session.2 area id :=
      fun area => execute_other (fun step member => plan_untouched settled found finished
        recordable step (List.mem_of_mem_take member)) area session.2
    have slot := settled.slots id
    rw [found, Disk.contents, ← same, Disk.contents, ← same] at slot
    refine ⟨?_, same .objects⟩
    rw [finds]
    have resembles := (Slot.load slot).resembles
    generalize recovered (surviving session request taken) id = given at resembles ⊢
    cases resembles with
    | same => rfl
    | reset before => exact absurd finished before

/-- Every reachable session keeps the invariant. -/
theorem settled_of_reaches {start session : Session} (initial : Session.Settled start)
    (reached : Transition.Reaches sessionStep StorageAction.Admissible start session) :
    Session.Settled session :=
  reached.invariant initial
    fun _ _ _ before admissible stepped => (before.step admissible stepped).1

/-- A run keeps a published document with its directory. -/
theorem published_of_reaches {start session : Session} (initial : Session.Settled start)
    {id : ObjectID} {stored : StoredDocument} (found : start.1.find id = some stored)
    (finished : stored.state = .finished)
    (reached : Transition.Reaches sessionStep StorageAction.Admissible start session) :
    session.1.find id = some stored ∧ session.2 .objects id = start.2 .objects id := by
  induction reached with
  | refl => exact ⟨found, rfl⟩
  | tail before action admissible stepped inductionHypothesis =>
    obtain ⟨known, same⟩ := inductionHypothesis
    obtain ⟨later, unchanged⟩ := ((settled_of_reaches initial before).step admissible stepped).2 id
      stored known finished
    exact ⟨later, unchanged.trans same⟩

/-- Whatever calls and reloads have led to a session, a document that it exposes is genuine, and its
records and files never change afterwards. -/
theorem exposed_genuine {owner : NodeID} {pid : Nat} {session : Session}
    (reached : Transition.Reaches sessionStep StorageAction.Admissible
      (⟨owner, pid, []⟩, Disk.empty) session)
    {id : ObjectID} {shown : Option TransferDocument} (exposes : Exposes session id shown) :
    ∃ stored, session.1.find id = some stored ∧
      (∀ document, shown = some document → stored.document = document) ∧
      Genuine session.2 stored ∧
      ∀ later, Transition.Reaches sessionStep StorageAction.Admissible session later →
        later.1.find id = some stored ∧ later.2 .objects id = session.2 .objects id := by
  have settled := settled_of_reaches (settled_empty owner pid) reached
  obtain ⟨stored, found, finished, isShown⟩ := exposes.published settled
  exact ⟨stored, found, isShown, settled.genuine found finished,
    fun later after => published_of_reaches settled found finished after⟩

end Published

/-- The session after the upload and the commit of the letter. -/
def letterPublished [Sha256] [Lz4] : Session :=
  let begun := (((StorageCall.begin 0 letterDocument).plan letterSession).run letterSession.2).1
  let uploaded := (((StorageCall.put letterChunk).plan begun).run begun.2).1
  (((StorageCall.commit letterDocument.id).plan uploaded).run uploaded.2).1

theorem letterPublished_reached [Sha256] [Lz4] :
    Transition.Reaches sessionStep StorageAction.Admissible letterSession letterPublished :=
  .tail (.tail (.tail .refl (.call (.begin 0 letterDocument)) ⟨trivial, admitted_letterDocument⟩
    rfl) (.call (.put letterChunk)) ⟨trivial, trivial⟩ rfl) (.call (.commit letterDocument.id))
    ⟨trivial, trivial⟩ rfl

/-- The letter, after its commit. -/
theorem exposed_genuine_letter :
    letI := Sha256.reference
    letI := Lz4.reference
    ∃ stored : StoredDocument,
      storageFind letterPublished.1 (.name letterDocument.name) = .ok letterDocument ∧
      letterPublished.1.find letterDocument.id = some stored ∧ stored.document = letterDocument ∧
      Genuine letterPublished.2 stored := by
  let sha256 := Sha256.reference
  let lz4 := Lz4.reference
  have found : storageFind letterPublished.1 (.name letterDocument.name) = .ok letterDocument := by
    decide +kernel
  obtain ⟨stored, known, isShown, genuine, -⟩ :=
    exposed_genuine letterPublished_reached (Exposes.find found)
  exact ⟨stored, found, known, isShown letterDocument rfl, genuine⟩

end SuperPeerNet
