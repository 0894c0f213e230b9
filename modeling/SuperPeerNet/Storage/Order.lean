/-
This file proves that the order of an upload does not matter.

Puts of one document work on its record and on its directory only. There, a chunk that
passes the checks leaves a record that is determined by its index and its data, so
consistent chunks of one index leave the same record and chunks of different indices
write different places; the manifest is written from the whole table each time. Puts
therefore commute and a repeated put changes nothing, and the rules about such actions
give the theorem.
-/

import SuperPeerNet.Library.Folding
import SuperPeerNet.Storage.RoundTrip

namespace SuperPeerNet

section Order

variable [Sha256] [Lz4]

/-! ### The verdict on a chunk -/

/-- The first check on a chunk that fails. -/
def CarriedChunk.fault (chunk : CarriedChunk) (document : TransferDocument) : Option Errno :=
  if chunk.intact = false then some .ebadmsg
  else if chunk.index ≥ document.chunkCount ∨
      chunk.index > 0xffffffffffffffff / metadataChunkSize then some .einval
  else if chunk.offset ≠ chunk.index * metadataChunkSize ∨
      chunk.rawSize ≠ expectedSize document.fileSize chunk.index then some .einval
  else none

/-- The verdict of a put on a chunk of a document. -/
inductive Verdict where
  | refused (code : Errno)
  | repeated
  | fresh

/-- The verdict of a put on a chunk of a document. -/
def StoredDocument.judge (stored : StoredDocument) (chunk : CarriedChunk) : Verdict :=
  match chunk.fault stored.document with
  | some code => .refused code
  | none =>
    if stored.state = .finished ∨ (stored.chunk chunk.index.toNat).present = true then
      if chunk.matches (stored.chunk chunk.index.toNat) then .repeated else .refused .eexist
    else .fresh

/-- What a chunk without a fault has passed. -/
theorem CarriedChunk.fault_eq_none {chunk : CarriedChunk} {document : TransferDocument}
    (faultless : chunk.fault document = none) :
    chunk.intact = true ∧ chunk.index < document.chunkCount ∧
      chunk.offset = chunk.index * metadataChunkSize ∧
      chunk.rawSize = expectedSize document.fileSize chunk.index := by
  unfold fault at faultless
  split at faultless
  · cases faultless
  · rename_i intact
    split at faultless
    · cases faultless
    · rename_i inside
      rw [not_or, ge_iff_le, UInt64.not_le] at inside
      split at faultless
      · cases faultless
      · rename_i placed
        rw [not_or, not_not, not_not] at placed
        exact ⟨Bool.eq_true_of_not_eq_false intact, inside.1, placed⟩

/-- The digest of a chunk that is intact is the digest of its contents. -/
theorem hash_of_intact {chunk : CarriedChunk} (intact : chunk.intact = true) :
    ∃ raw, compressionLz4Decompress chunk.data chunk.rawSize.toNat = .ok raw ∧
      chunk.hash = contentSha256 raw := by
  unfold CarriedChunk.intact at intact
  split at intact
  · cases intact
  · have content := (Bool.and_eq_true_iff.mp intact).2
    unfold chunkContent at content
    cases raw : compressionLz4Decompress chunk.data chunk.rawSize.toNat with
    | error code =>
      rw [raw] at content
      cases content
    | ok output =>
      rw [raw] at content
      simp only at content
      split at content
      · cases content
      · rename_i digest
        exact ⟨output, rfl, (not_not.mp digest).symm⟩

/-- The record of a chunk without a fault is determined by the index and the data. -/
theorem record_eq_of_data {first second : CarriedChunk} {document : TransferDocument}
    (firstFault : first.fault document = none) (secondFault : second.fault document = none)
    (index : first.index = second.index) (data : first.data = second.data) :
    first.record = second.record := by
  obtain ⟨firstIntact, -, firstOffset, firstSize⟩ := CarriedChunk.fault_eq_none firstFault
  obtain ⟨secondIntact, -, secondOffset, secondSize⟩ := CarriedChunk.fault_eq_none secondFault
  have rawSize : first.rawSize = second.rawSize := by rw [firstSize, secondSize, index]
  have compressedSize : first.compressedSize = second.compressedSize := by
    refine UInt32.toNat_inj.mp ?_
    rw [← first.carried, ← second.carried, data]
  have hash : first.hash = second.hash := by
    obtain ⟨firstRaw, firstContent, firstHash⟩ := hash_of_intact firstIntact
    obtain ⟨secondRaw, secondContent, secondHash⟩ := hash_of_intact secondIntact
    rw [data, rawSize, secondContent] at firstContent
    cases firstContent
    rw [firstHash, secondHash]
  unfold CarriedChunk.record
  rw [index, firstOffset, secondOffset, index, rawSize, compressedSize, hash]

/-! ### Puts of one document -/

/-- What puts of one document work on: its record, and its directory in `pending`. -/
@[ext] structure Shelf where
  stored : StoredDocument
  directory : Option Directory

/-- A directory with the file of a received chunk and the new manifest. -/
def Directory.receive (directory : Directory) (pid : Nat) (received : StoredDocument)
    (chunk : CarriedChunk) : Directory :=
  ((directory.set (.chunkTemporary chunk.index pid) none).set (.chunk chunk.index)
    (some chunk.data)).written pid received

/-- A put, on the shelf of its document. -/
def Shelf.put (pid : Nat) (shelf : Shelf) (chunk : CarriedChunk) : Shelf × Except Errno Unit :=
  match shelf.stored.judge chunk with
  | .refused code => (shelf, .error code)
  | .repeated => (shelf, .ok ())
  | .fresh =>
    match shelf.directory with
    | none => (shelf, .error .enoent)
    | some directory =>
      let received := shelf.stored.receive chunk
      (⟨received, some (directory.receive pid received chunk)⟩, .ok ())

/-- The shelf of a document in a session. -/
def shelfOf (session : Session) (stored : StoredDocument) : Shelf :=
  ⟨stored, session.2 .pending stored.id⟩

/-- Write a shelf back into a session. -/
def Shelf.place (shelf : Shelf) (session : Session) : Session :=
  (session.1.update shelf.stored, session.2.set .pending shelf.stored.id shelf.directory)

omit [Sha256] [Lz4] in
theorem place_shelfOf {session : Session} {stored : StoredDocument}
    (found : session.1.find stored.id = some stored) :
    (shelfOf session stored).place session = session := by
  rw [Shelf.place, shelfOf, Storage.update_self found, Disk.set_self rfl]

omit [Sha256] [Lz4] in
/-- The steps of a put that receives a chunk. -/
theorem execute_receiveSteps {disk : Disk} {stored : StoredDocument} {directory : Directory}
    (place : disk .pending stored.id = some directory) (pid : Nat) (chunk : CarriedChunk) :
    execute (receiveSteps pid stored chunk) disk =
      (disk.set .pending stored.id
        (some (directory.receive pid (stored.receive chunk) chunk)), .ok ()) := by
  rw [receiveSteps, List.cons_append, List.cons_append, execute_replace place, List.nil_append,
    execute_writeManifest, show (stored.receive chunk).id = stored.id from rfl, Disk.set_same,
    Disk.set_set]
  rfl

/-- A put of a known document goes by the verdict on its chunk. -/
theorem storagePutChunk_eq {storage : Storage} {stored : StoredDocument} {chunk : CarriedChunk}
    (found : storage.find chunk.id = some stored) :
    storagePutChunk storage chunk =
      match stored.judge chunk with
      | .refused code => .reply storage (.error code)
      | .repeated => .reply storage (.ok ())
      | .fresh =>
        { steps := receiveSteps storage.pid stored chunk
          answer := .ok ()
          completed := storage.update (stored.receive chunk)
          abandoned := storage } := by
  unfold storagePutChunk StoredDocument.judge CarriedChunk.fault
  rw [found]
  by_cases intact : chunk.intact = false
  · simp only [if_pos intact]
  · simp only [if_neg intact]
    by_cases inside : chunk.index ≥ stored.document.chunkCount ∨
        chunk.index > 0xffffffffffffffff / metadataChunkSize
    · simp only [if_pos inside]
    · simp only [if_neg inside]
      by_cases placed : chunk.offset ≠ chunk.index * metadataChunkSize ∨
          chunk.rawSize ≠ expectedSize stored.document.fileSize chunk.index
      · simp only [if_pos placed]
      · simp only [if_neg placed]
        by_cases there : stored.state = .finished ∨
            (stored.chunk chunk.index.toNat).present = true
        · simp only [if_pos there]
          by_cases same : chunk.matches (stored.chunk chunk.index.toNat)
          · simp only [if_pos same]
          · simp only [if_neg same]
        · simp only [if_neg there]

/-- A put in a session is a put on the shelf of its document. -/
theorem run_storagePutChunk {session : Session} {stored : StoredDocument} {chunk : CarriedChunk}
    (found : session.1.find chunk.id = some stored) :
    (storagePutChunk session.1 chunk).run session.2 =
      (((shelfOf session stored).put session.1.pid chunk).1.place session,
        ((shelfOf session stored).put session.1.pid chunk).2) := by
  have self : session.1.find stored.id = some stored := by rw [Storage.find_id found, found]
  have kept : (shelfOf session stored).place session = session := place_shelfOf self
  rw [storagePutChunk_eq found, Shelf.put, show (shelfOf session stored).stored = stored from rfl]
  cases stored.judge chunk with
  | refused code =>
    simp only [Call.run_reply]
    rw [kept]
  | repeated =>
    simp only [Call.run_reply]
    rw [kept]
  | fresh =>
    simp only
    cases place : session.2 .pending stored.id with
    | none =>
      simp only [show (shelfOf session stored).directory = none from place]
      rw [kept]
      simp only [Call.run, receiveSteps, List.cons_append, execute, DiskStep.apply, place]
    | some directory =>
      simp only [show (shelfOf session stored).directory = some directory from place]
      rw [Call.run_of_execute (execute_receiveSteps place _ chunk)]
      rfl

/-! ### Puts commute -/

omit [Sha256] [Lz4] in
theorem chunk_receive (stored : StoredDocument) {chunk : CarriedChunk}
    (inside : chunk.index.toNat < stored.chunks.length) (index : UInt64) :
    (stored.receive chunk).chunk index.toNat =
      if index = chunk.index then chunk.record else stored.chunk index.toNat := by
  show (stored.chunks.set chunk.index.toNat chunk.record).getD index.toNat .blank = _
  split
  · rename_i same
    rw [same, List.getD_eq_getElem?_getD, List.getElem?_set_self inside]
    rfl
  · rename_i different
    have apart : chunk.index.toNat ≠ index.toNat :=
      fun equal => different (UInt64.toNat_inj.mp equal.symm)
    rw [List.getD_eq_getElem?_getD, List.getElem?_set_ne apart, ← List.getD_eq_getElem?_getD]
    rfl

/-- What a fresh chunk has passed. -/
theorem judge_eq_fresh {stored : StoredDocument} {chunk : CarriedChunk}
    (fresh : stored.judge chunk = .fresh) :
    chunk.fault stored.document = none ∧ stored.state ≠ .finished ∧
      (stored.chunk chunk.index.toNat).present = false := by
  unfold StoredDocument.judge at fresh
  cases fault : chunk.fault stored.document with
  | some code =>
    simp only [fault] at fresh
    cases fresh
  | none =>
    simp only [fault] at fresh
    split at fresh
    · split at fresh
      · cases fresh
      · cases fresh
    · rename_i open'
      rw [not_or, Bool.not_eq_true] at open'
      exact ⟨rfl, open'⟩

/-- After a chunk has been received, a consistent chunk is judged as before, except that one that
was fresh and has the same index is a repetition. -/
theorem judge_receive {stored : StoredDocument} {received chunk : CarriedChunk}
    (fresh : stored.judge received = .fresh)
    (consistent : received.index = chunk.index → received.data = chunk.data) :
    (received.index = chunk.index ∧ received.record = chunk.record ∧
      stored.judge chunk = .fresh ∧ (stored.receive received).judge chunk = .repeated) ∨
    ((stored.receive received).judge chunk = stored.judge chunk ∧
      (stored.judge chunk = .fresh → received.index ≠ chunk.index)) := by
  obtain ⟨faultless, unfinished, absent⟩ := judge_eq_fresh fresh
  have inside : received.index.toNat < stored.chunks.length := by
    rw [stored.sized]
    exact UInt64.lt_iff_toNat_lt.mp (CarriedChunk.fault_eq_none faultless).2.1
  have states : (stored.receive received).state ≠ .finished := by
    intro wrong
    cases wrong
  have document : (stored.receive received).document = stored.document := rfl
  unfold StoredDocument.judge
  rw [document]
  cases fault : chunk.fault stored.document with
  | some code => exact Or.inr ⟨rfl, fun wrong => by cases wrong⟩
  | none =>
    simp only
    by_cases same : received.index = chunk.index
    · left
      have record : received.record = chunk.record :=
        record_eq_of_data faultless fault same (consistent same)
      have there : (stored.receive received).chunk chunk.index.toNat = chunk.record := by
        rw [chunk_receive stored inside, if_pos same.symm, record]
      rw [same] at absent
      refine ⟨same, record, ?_, ?_⟩
      · rw [if_neg]
        rintro (finished | present)
        · exact unfinished finished
        · rw [absent] at present
          cases present
      · rw [there, if_pos (show _ ∨ chunk.record.present = true from Or.inr rfl),
          if_pos (show chunk.matches chunk.record from ⟨rfl, rfl, rfl, rfl⟩)]
    · right
      have there : (stored.receive received).chunk chunk.index.toNat =
          stored.chunk chunk.index.toNat := by
        rw [chunk_receive stored inside, if_neg fun equal => same equal.symm]
      refine ⟨?_, fun _ => same⟩
      simp only [there, states, unfinished, false_or]

/-- A put, as a step on shelves. -/
def Shelf.step (pid : Nat) (shelf : Shelf) (chunk : CarriedChunk) : Shelf :=
  (shelf.put pid chunk).1

/-- A put that is not fresh changes nothing, nor does one without a directory. -/
theorem step_eq_self {shelf : Shelf} {chunk : CarriedChunk}
    (stale : shelf.stored.judge chunk ≠ .fresh ∨ shelf.directory = none) (pid : Nat) :
    shelf.step pid chunk = shelf := by
  unfold Shelf.step Shelf.put
  cases judged : shelf.stored.judge chunk with
  | refused code => rfl
  | repeated => rfl
  | fresh =>
    have place := stale.resolve_left fun different => different judged
    simp only [place]

/-- A fresh put receives its chunk. -/
theorem step_eq_receive {shelf : Shelf} {chunk : CarriedChunk}
    (fresh : shelf.stored.judge chunk = .fresh) {directory : Directory}
    (place : shelf.directory = some directory) (pid : Nat) :
    shelf.step pid chunk = ⟨shelf.stored.receive chunk,
      some (directory.receive pid (shelf.stored.receive chunk) chunk)⟩ := by
  unfold Shelf.step Shelf.put
  simp only [fresh, place]

/-- A put changes nothing, or it receives its chunk. -/
theorem put_cases (pid : Nat) (shelf : Shelf) (chunk : CarriedChunk) :
    shelf.step pid chunk = shelf ∨ ∃ directory, shelf.directory = some directory ∧
      shelf.stored.judge chunk = .fresh ∧ shelf.step pid chunk =
        ⟨shelf.stored.receive chunk,
          some (directory.receive pid (shelf.stored.receive chunk) chunk)⟩ := by
  by_cases fresh : shelf.stored.judge chunk = .fresh
  · cases place : shelf.directory with
    | none => exact Or.inl (step_eq_self (Or.inr place) pid)
    | some directory => exact Or.inr ⟨directory, rfl, fresh, step_eq_receive fresh place pid⟩
  · exact Or.inl (step_eq_self (Or.inl fresh) pid)

/-- The answer to a put is not changed by a consistent put before it. -/
theorem put_answer_stable (pid : Nat) (shelf : Shelf) {earlier chunk : CarriedChunk}
    (consistent : earlier.index = chunk.index → earlier.data = chunk.data) :
    ((shelf.step pid earlier).put pid chunk).2 = (shelf.put pid chunk).2 := by
  rcases put_cases pid shelf earlier with same | ⟨directory, place, fresh, changed⟩
  · rw [same]
  · rw [changed]
    unfold Shelf.put
    rcases judge_receive fresh consistent with ⟨-, -, before, after⟩ | ⟨kept, -⟩
    · simp only [after, before, place]
    · simp only [kept, place]
      cases shelf.stored.judge chunk <;> rfl

/-- A repeated put changes nothing. -/
theorem step_absorb (pid : Nat) (chunk : CarriedChunk) (shelf : Shelf) :
    (shelf.step pid chunk).step pid chunk = shelf.step pid chunk := by
  rcases put_cases pid shelf chunk with same | ⟨directory, place, fresh, changed⟩
  · rw [same, same]
  · rw [changed]
    unfold Shelf.step Shelf.put
    rcases judge_receive fresh (fun _ => rfl) with ⟨-, -, -, after⟩ | ⟨-, wrong⟩
    · simp only [after]
    · exact absurd rfl (wrong fresh)

omit [Sha256] [Lz4] in
/-- Chunks of different indices are received in any order. -/
theorem receive_comm (stored : StoredDocument) {first second : CarriedChunk}
    (different : first.index ≠ second.index) :
    (stored.receive first).receive second = (stored.receive second).receive first := by
  have apart : first.index.toNat ≠ second.index.toNat :=
    fun equal => different (UInt64.toNat_inj.mp equal)
  refine StoredDocument.ext rfl rfl rfl rfl ?_
  show (stored.chunks.set first.index.toNat first.record).set second.index.toNat second.record =
    (stored.chunks.set second.index.toNat second.record).set first.index.toNat first.record
  exact List.set_comm _ _ apart

omit [Sha256] [Lz4] in
/-- The files of chunks of different indices are written in any order. -/
theorem directory_receive_comm (directory : Directory) (pid : Nat) (stored : StoredDocument)
    {first second : CarriedChunk} (different : first.index ≠ second.index)
    (firstReceived secondReceived : StoredDocument) :
    (directory.receive pid firstReceived first).receive pid stored second =
      (directory.receive pid secondReceived second).receive pid stored first := by
  funext name
  simp only [Directory.receive, Directory.written, Directory.set_apply]
  cases name with
  | manifest => simp only [if_true]
  | manifestTemporary other => simp only [reduceCtorEq, if_false]
  | chunk index =>
    by_cases isFirst : index = first.index
    · subst isFirst
      simp [different]
    · simp [isFirst]
  | chunkTemporary index other =>
    simp only [reduceCtorEq, if_false]
    split
    · split <;> rfl
    · rfl

/-- A put that is not fresh is not fresh after a consistent put either. -/
theorem step_step_of_stale (pid : Nat) {shelf : Shelf} {first second : CarriedChunk}
    (consistent : first.index = second.index → first.data = second.data)
    (stale : shelf.stored.judge second ≠ .fresh) :
    (shelf.step pid first).step pid second = shelf.step pid first := by
  rcases put_cases pid shelf first with same | ⟨directory, -, fresh, changed⟩
  · rw [same]
    exact step_eq_self (Or.inl stale) pid
  · rw [changed]
    refine step_eq_self (Or.inl fun nowFresh => ?_) pid
    rcases judge_receive fresh consistent with ⟨-, -, before, -⟩ | ⟨kept, -⟩
    · exact stale before
    · exact stale (kept.symm.trans nowFresh)

/-- Consistent puts commute. -/
theorem step_comm (pid : Nat) {first second : CarriedChunk}
    (consistent : first.index = second.index → first.data = second.data) (shelf : Shelf) :
    (shelf.step pid first).step pid second = (shelf.step pid second).step pid first := by
  have reversed : second.index = first.index → second.data = first.data :=
    fun same => (consistent same.symm).symm
  by_cases firstFresh : shelf.stored.judge first = .fresh
  · by_cases secondFresh : shelf.stored.judge second = .fresh
    · cases place : shelf.directory with
      | none =>
        have still : ∀ chunk, shelf.step pid chunk = shelf :=
          fun chunk => step_eq_self (Or.inr place) pid
        rw [still, still, still]
      | some directory =>
        rw [step_eq_receive firstFresh place, step_eq_receive secondFresh place]
        rcases judge_receive firstFresh consistent with ⟨same, record, -, after⟩ | ⟨kept, apart⟩
        · -- The two chunks are one, and the second is a repetition.
          rcases judge_receive secondFresh reversed with ⟨-, -, -, before⟩ | ⟨-, different⟩
          · rw [step_eq_self (Or.inl fun wrong => by rw [after] at wrong; cases wrong),
              step_eq_self (Or.inl fun wrong => by rw [before] at wrong; cases wrong)]
            have received : shelf.stored.receive first = shelf.stored.receive second := by
              rw [StoredDocument.receive, StoredDocument.receive, same, record]
            rw [received, Directory.receive, Directory.receive, same, consistent same]
          · exact absurd same.symm (different firstFresh)
        · have different := apart secondFresh
          rcases judge_receive secondFresh reversed with ⟨same, -⟩ | ⟨keptSecond, -⟩
          · exact absurd same.symm different
          · rw [step_eq_receive (kept.trans secondFresh) rfl,
              step_eq_receive (keptSecond.trans firstFresh) rfl]
            simp only [receive_comm shelf.stored different]
            rw [directory_receive_comm directory pid _ different]
    · rw [step_step_of_stale pid consistent secondFresh, step_eq_self (Or.inl secondFresh)]
  · rw [step_step_of_stale pid reversed firstFresh, step_eq_self (Or.inl firstFresh)]

/-! ### Sequences of puts -/

/-- Put chunks one after the other: the session after them, and their answers. -/
def putAll (session : Session) : List CarriedChunk → Session × List (Except Errno Unit)
  | [] => (session, [])
  | chunk :: rest =>
    let outcome := (storagePutChunk session.1 chunk).run session.2
    let later := putAll outcome.1 rest
    (later.1, outcome.2 :: later.2)

/-- The answer to a put in a session. -/
def putAnswer (session : Session) (chunk : CarriedChunk) : Except Errno Unit :=
  ((storagePutChunk session.1 chunk).run session.2).2

/-- Without the document, every put is refused and nothing changes. -/
theorem putAll_unknown {session : Session} {id : ObjectID} (unknown : session.1.find id = none)
    {chunks : List CarriedChunk} (addressed : ∀ chunk ∈ chunks, chunk.id = id) :
    putAll session chunks = (session, chunks.map (putAnswer session)) := by
  induction chunks with
  | nil => rfl
  | cons chunk rest inductionHypothesis =>
    have refused : (storagePutChunk session.1 chunk).run session.2 =
        (session, putAnswer session chunk) := by
      unfold putAnswer storagePutChunk
      rw [addressed chunk List.mem_cons_self, unknown]
      split <;> rfl
    rw [putAll, refused]
    simp only [List.map_cons]
    rw [inductionHypothesis fun other member => addressed other (List.mem_cons_of_mem _ member)]

theorem id_step (pid : Nat) (shelf : Shelf) (chunk : CarriedChunk) :
    (shelf.step pid chunk).stored.id = shelf.stored.id := by
  rcases put_cases pid shelf chunk with same | ⟨directory, -, -, changed⟩
  · rw [same]
  · rw [changed]
    rfl

/-- Puts of one document, on its shelf. -/
theorem putAll_shelf {session : Session} {id : ObjectID} {shelf : Shelf}
    (isId : shelf.stored.id = id)
    {original : StoredDocument} (found : session.1.find id = some original)
    {chunks : List CarriedChunk} (addressed : ∀ chunk ∈ chunks, chunk.id = id)
    (consistent : ∀ first ∈ chunks, ∀ second ∈ chunks,
      first.index = second.index → first.data = second.data) :
    putAll (shelf.place session) chunks =
      ((chunks.foldl (Shelf.step session.1.pid) shelf).place session,
        chunks.map fun chunk => (shelf.put session.1.pid chunk).2) := by
  induction chunks generalizing shelf with
  | nil => rfl
  | cons chunk rest inductionHypothesis =>
    have placed : (shelf.place session).1.find chunk.id = some shelf.stored := by
      rw [Shelf.place, Storage.find_update found isId, if_pos (addressed chunk List.mem_cons_self)]
    have same : shelfOf (shelf.place session) shelf.stored = shelf :=
      Shelf.ext rfl (Disk.set_same ..)
    have stepId := id_step session.1.pid shelf chunk
    have replaced : (shelf.step session.1.pid chunk).place (shelf.place session) =
        (shelf.step session.1.pid chunk).place session := by
      simp only [Shelf.place, stepId, Disk.set_set, Storage.update_update _ stepId.symm]
    have stable : (rest.map fun other =>
        ((shelf.step session.1.pid chunk).put session.1.pid other).2) =
        rest.map fun other => (shelf.put session.1.pid other).2 := by
      refine List.map_congr_left fun other member => ?_
      exact put_answer_stable _ shelf (consistent chunk List.mem_cons_self other
        (List.mem_cons_of_mem _ member))
    have outcome := run_storagePutChunk placed
    rw [same, show (shelf.place session).1.pid = session.1.pid from rfl] at outcome
    rw [putAll, outcome]
    simp only [List.map_cons, List.foldl_cons]
    rw [show (shelf.put session.1.pid chunk).1 = shelf.step session.1.pid chunk from rfl, replaced,
      inductionHypothesis (stepId.trans isId)
        (fun other member => addressed other (List.mem_cons_of_mem _ member))
        (fun first firstMember second secondMember => consistent first
          (List.mem_cons_of_mem _ firstMember) second (List.mem_cons_of_mem _ secondMember)),
      stable]

/-- Consistent puts of one document, in any order and with any repetitions: every put is answered
as in the session before them, and the documents, the files and the manifest after them are the
same, so a following commit is too. -/
theorem putAll_order_independent (session : Session) (id : ObjectID)
    (first second : List CarriedChunk) (same : ∀ chunk, chunk ∈ first ↔ chunk ∈ second)
    (addressed : ∀ chunk ∈ first, chunk.id = id)
    (consistent : ∀ chunk ∈ first, ∀ other ∈ first,
      chunk.index = other.index → chunk.data = other.data) :
    (putAll session first).2 = first.map (putAnswer session) ∧
      (putAll session second).2 = second.map (putAnswer session) ∧
      (putAll session first).1 = (putAll session second).1 ∧
      (storageCommit (putAll session first).1.1 (putAll session first).1.2 id).run
          (putAll session first).1.2 =
        (storageCommit (putAll session second).1.1 (putAll session second).1.2 id).run
          (putAll session second).1.2 := by
  have addressedSecond : ∀ chunk ∈ second, chunk.id = id :=
    fun chunk member => addressed chunk ((same chunk).mpr member)
  suffices outcomes : (putAll session first).2 = first.map (putAnswer session) ∧
      (putAll session second).2 = second.map (putAnswer session) ∧
      (putAll session first).1 = (putAll session second).1 by
    obtain ⟨firstAnswers, secondAnswers, state⟩ := outcomes
    exact ⟨firstAnswers, secondAnswers, state, by rw [state]⟩
  cases found : session.1.find id with
  | none =>
    rw [putAll_unknown found addressed, putAll_unknown found addressedSecond]
    exact ⟨rfl, rfl, rfl⟩
  | some stored =>
    have isId := Storage.find_id found
    have start : (shelfOf session stored).place session = session :=
      place_shelfOf (by rw [isId, found])
    have answers : ∀ chunk ∈ first, ((shelfOf session stored).put session.1.pid chunk).2 =
        putAnswer session chunk := by
      intro chunk member
      rw [putAnswer, run_storagePutChunk (show session.1.find chunk.id = some stored by
        rw [addressed chunk member, found])]
    have run : ∀ chunks : List CarriedChunk, (∀ chunk ∈ chunks, chunk ∈ first) →
        putAll session chunks =
          ((chunks.foldl (Shelf.step session.1.pid) (shelfOf session stored)).place session,
            chunks.map (putAnswer session)) := by
      intro chunks inside
      have placed := putAll_shelf (show (shelfOf session stored).stored.id = id from isId) found
        (fun chunk member => addressed chunk (inside chunk member))
        fun chunk member other otherMember =>
          consistent chunk (inside chunk member) other (inside other otherMember)
      rw [start] at placed
      rw [placed, List.map_congr_left fun chunk member => answers chunk (inside chunk member)]
    have ends := Folding.foldl_eq_of_same_members
      (fun chunk other member otherMember => step_comm session.1.pid
        (consistent chunk member other otherMember))
      (fun chunk _ => step_absorb session.1.pid chunk) same (shelfOf session stored)
    rw [run first fun _ member => member, run second fun chunk => (same chunk).mpr, ends]
    exact ⟨rfl, rfl, rfl⟩

end Order

/-- The letter chunk and a copy of it with a wrong digest, after the document has begun. -/
theorem putAll_order_independent_letter :
    letI := Sha256.reference; letI := Lz4.reference
    let session := ((storageBegin letterSession.1 0 letterDocument).run letterSession.2).1
    let wrong := { letterChunk with hash := Octets.fill objectIdSize 0 }
    (putAll session [letterChunk, wrong]).2 = [.ok (), .error .ebadmsg] ∧
      (putAll session [wrong, letterChunk, letterChunk]).2 =
        [.error .ebadmsg, .ok (), .ok ()] ∧
      (putAll session [letterChunk, wrong]).1 =
        (putAll session [wrong, letterChunk, letterChunk]).1 := by
  let sha := Sha256.reference
  let lz4 := Lz4.reference
  intro session wrong
  have letter : putAnswer session letterChunk = .ok () := by decide +kernel
  have refused : putAnswer session wrong = .error .ebadmsg := by decide +kernel
  obtain ⟨first, second, same, -⟩ := putAll_order_independent session letterDocument.id
    [letterChunk, wrong] [wrong, letterChunk, letterChunk]
    (fun chunk => by
      simp only [List.mem_cons, List.not_mem_nil, or_false]
      exact ⟨fun either => either.elim (fun isLetter => Or.inr (Or.inl isLetter)) Or.inl,
        fun any => any.elim Or.inr fun either => Or.inl (either.elim id id)⟩)
    (fun chunk member => by
      simp only [List.mem_cons, List.not_mem_nil, or_false] at member
      rcases member with rfl | rfl <;> rfl)
    (fun chunk member other otherMember _ => by
      simp only [List.mem_cons, List.not_mem_nil, or_false] at member otherMember
      rcases member with rfl | rfl <;> rcases otherMember with rfl | rfl <;> rfl)
  rw [first, second, same]
  simp only [List.map_cons, List.map_nil, letter, refused]
  exact ⟨trivial, trivial, trivial⟩

end SuperPeerNet
