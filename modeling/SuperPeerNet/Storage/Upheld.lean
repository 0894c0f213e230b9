/-
This file proves what calls without crashes leave of the documents that are not
published.

Such a document has its directory in `pending` and none in `objects`, and the file of
each chunk that is present passes the check that a commit makes of the chunk. Begins,
puts and commits each change one document or none, and a commit can take all its steps.
-/

import SuperPeerNet.Storage.Order

namespace SuperPeerNet

/-! ### What calls leave of a document -/

section Upheld

variable [Sha256] [Lz4]

/-- A chunk has the size of its place, and its file decompresses to a piece of the recorded
digest. -/
structure StoredDocument.Holds (stored : StoredDocument) (files : UInt64 → Option (List UInt8))
    (index : UInt64) : Prop where
  rawSize : (stored.chunk index.toNat).rawSize = expectedSize stored.document.fileSize index
  contents : ∃ data raw, readAll (files index)
      (stored.chunk index.toNat).compressedSize.toNat = .ok data ∧
    chunkContent data (stored.chunk index.toNat).rawSize (stored.chunk index.toNat).hash = .ok raw

/-- A document that is not published has its directory in `pending`, with the files of the chunks
that are present. -/
structure StoredDocument.Waits (stored : StoredDocument) (id : ObjectID) (disk : Disk) :
    Prop where
  directory : ∃ directory, disk .pending id = some directory
  unpublished : disk .objects id = none
  nonempty : stored.document.chunkCount ≠ 0
  holds : ∀ index : UInt64, (stored.chunk index.toNat).present = true →
    stored.Holds (disk.chunks .pending id) index

theorem StoredDocument.Waits.withState {stored : StoredDocument} {id : ObjectID} {disk : Disk}
    (waits : stored.Waits id disk) (state : TransferState) :
    (stored.withState state).Waits id disk :=
  ⟨waits.directory, waits.unpublished, waits.nonempty, fun index present =>
    ⟨(waits.holds index present).rawSize, (waits.holds index present).contents⟩⟩

theorem StoredDocument.Waits.congr {stored : StoredDocument} {id : ObjectID} {disk after : Disk}
    (waits : stored.Waits id disk) (same : ∀ area, after area id = disk area id) :
    stored.Waits id after := by
  have files : after.chunks .pending id = disk.chunks .pending id := by
    funext index
    rw [Disk.chunks, Disk.chunks, Disk.file, Disk.file, same]
  refine ⟨?_, ?_, waits.nonempty, ?_⟩
  · rw [same]
    exact waits.directory
  · rw [same]
    exact waits.unpublished
  · rw [files]
    exact waits.holds

/-- The invariant of calls without crashes. -/
structure Upheld (session : Session) : Prop where
  unknown : ∀ id, session.1.find id = none → session.2 .objects id = none
  waits : ∀ id stored, session.1.find id = some stored → stored.state ≠ .finished →
    stored.Waits id session.2

/-- The invariant is kept by a change of one document, if it holds of this document. -/
theorem Upheld.change {session : Session} (upheld : Upheld session) {id : ObjectID}
    {storage : Storage} {disk : Disk} {stored : StoredDocument}
    (others : ∀ other, other ≠ id → storage.find other = session.1.find other ∧
      ∀ area, disk area other = session.2 area other)
    (found : storage.find id = some stored)
    (waits : stored.state ≠ .finished → stored.Waits id disk) : Upheld (storage, disk) := by
  constructor
  · intro other unknown
    have different : other ≠ id := by
      rintro rfl
      rw [found] at unknown
      cases unknown
    obtain ⟨sameFind, sameDisk⟩ := others other different
    rw [sameFind] at unknown
    exact (sameDisk .objects).trans (upheld.unknown other unknown)
  · intro other known foundOther unfinished
    by_cases same : other = id
    · subst same
      rw [found] at foundOther
      cases foundOther
      exact waits unfinished
    · obtain ⟨sameFind, sameDisk⟩ := others other same
      rw [sameFind] at foundOther
      exact (upheld.waits other known foundOther unfinished).congr sameDisk

/-! ### Begins -/

omit [Sha256] [Lz4] in
/-- A begin changes nothing, or it makes a document without chunks and its directory. -/
theorem run_storageBegin_cases (session : Session) (now : UInt64) (document : TransferDocument) :
    ((storageBegin session.1 now document).run session.2).1 = session ∧
        ¬Creates session.1 document ∨
      ∃ directory, Creates session.1 document ∧
        ((storageBegin session.1 now document).run session.2).1 =
          (session.1.insert (beginDocument session.1 now document),
            session.2.set .pending document.id (some directory)) := by
  by_cases creates : Creates session.1 document
  · right
    have accepted : ¬(contentPdfName document.name = false ∨
        document.compression ≠ compressionLz4 ∨ document.chunkCount = 0 ∨
        document.chunkCount.toNat > maxStoredChunks) := by
      rintro (name | compression | empty | many)
      · rw [creates.name] at name
        cases name
      · exact compression creates.compression
      · exact creates.nonempty empty
      · exact Nat.not_lt.mpr creates.few many
    obtain ⟨directory, made⟩ : ∃ directory, execute (.makeDirectory .pending document.id ::
        writeManifest session.1.pid (beginDocument session.1 now document) .pending) session.2 =
        (session.2.set .pending document.id (some directory), .ok ()) := by
      rw [execute_cons (DiskStep.apply_makeDirectory ..), execute_writeManifest,
        show (beginDocument session.1 now document).id = document.id from rfl, Disk.set_set]
      exact ⟨_, rfl⟩
    unfold storageBegin
    rw [if_neg accepted, creates.unknown, Call.run_of_execute made]
    exact ⟨directory, creates, rfl⟩
  · refine Or.inl ⟨?_, creates⟩
    rcases storageBegin_cases session.1 now document with ⟨answer, same, -⟩ | ⟨wrong, -⟩
    · rw [same, Call.run_reply]
    · exact absurd wrong creates

omit [Sha256] [Lz4] in
theorem find_created {session : Session} {now : UInt64} {document : TransferDocument}
    (other : ObjectID) :
    (session.1.insert (beginDocument session.1 now document)).find other =
      if document.id = other then some (beginDocument session.1 now document)
      else session.1.find other :=
  Storage.find_insert _ _ _

omit [Sha256] [Lz4] in
theorem blank_of_begun (storage : Storage) (now : UInt64) (document : TransferDocument)
    (position : Nat) : (beginDocument storage now document).chunk position = .blank := by
  show (List.replicate document.chunkCount.toNat StoredChunk.blank).getD position .blank = _
  rw [List.getD_eq_getElem?_getD, List.getElem?_replicate]
  split <;> rfl

theorem upheld_begin {session : Session} (upheld : Upheld session) (now : UInt64)
    (document : TransferDocument) :
    Upheld ((storageBegin session.1 now document).run session.2).1 := by
  rcases run_storageBegin_cases session now document with
    ⟨same, -⟩ | ⟨directory, creates, same⟩
  · rw [same]
    exact upheld
  · rw [same]
    refine upheld.change (fun other different => ⟨?_, fun area => ?_⟩)
      ((find_created _).trans (if_pos rfl)) fun _ => ⟨⟨directory, Disk.set_same ..⟩, ?_,
        creates.nonempty, fun index present => ?_⟩
    · rw [find_created, if_neg fun isId => different isId.symm]
    · exact Disk.set_other_id _ _ _ different _
    · rw [Disk.set_other_area _ _ (by decide)]
      exact upheld.unknown document.id creates.unknown
    · rw [blank_of_begun] at present
      cases present

/-! ### Puts -/

/-- A put changes nothing, or it receives a chunk of a known document. It receives each chunk that
is fresh, if the directory is there. -/
theorem run_storagePutChunk_cases (session : Session) (chunk : CarriedChunk) :
    ((storagePutChunk session.1 chunk).run session.2).1 = session ∧
        (∀ stored, session.1.find chunk.id = some stored → stored.judge chunk = .fresh →
          session.2 .pending chunk.id = none) ∨
      ∃ stored directory, session.1.find chunk.id = some stored ∧
        session.2 .pending chunk.id = some directory ∧ stored.judge chunk = .fresh ∧
        ((storagePutChunk session.1 chunk).run session.2).1 =
          (session.1.update (stored.receive chunk), session.2.set .pending chunk.id
            (some (directory.receive session.1.pid (stored.receive chunk) chunk))) := by
  cases found : session.1.find chunk.id with
  | none =>
    refine Or.inl ⟨?_, fun _ wrong => by cases wrong⟩
    unfold storagePutChunk
    rw [found]
    split <;> rfl
  | some stored =>
    have isId := Storage.find_id found
    have unchanged : ∀ shelf : Shelf, shelf = shelfOf session stored →
        shelf.place session = session := by
      rintro shelf rfl
      exact place_shelfOf (by rw [isId, found])
    rw [run_storagePutChunk found]
    by_cases fresh : stored.judge chunk = .fresh
    · cases place : session.2 .pending chunk.id with
      | none =>
        have missing : session.2 .pending stored.id = none := by rw [isId, place]
        exact Or.inl ⟨unchanged _ (step_eq_self (Or.inr missing) _), fun _ _ _ => rfl⟩
      | some directory =>
        have there : session.2 .pending stored.id = some directory := by rw [isId, place]
        refine Or.inr ⟨stored, directory, rfl, rfl, fresh, ?_⟩
        refine (congrArg (Shelf.place · session) (step_eq_receive fresh there _)).trans ?_
        rw [← isId]
        rfl
    · refine Or.inl ⟨unchanged _ (step_eq_self (Or.inl fresh) _), fun other again => ?_⟩
      cases again
      exact fun wrong => absurd wrong fresh

/-- What a put that receives a chunk leaves in the memory and in the tree. -/
structure Received (session after : Session) (chunk : CarriedChunk) (stored : StoredDocument) :
    Prop where
  found : session.1.find chunk.id = some stored
  fresh : stored.judge chunk = .fresh
  known : after.1.find chunk.id = some (stored.receive chunk)
  others : ∀ other, other ≠ chunk.id → after.1.find other = session.1.find other ∧
    ∀ area, after.2 area other = session.2 area other
  directory : ∃ directory, after.2 .pending chunk.id = some directory
  objects : after.2 .objects chunk.id = session.2 .objects chunk.id
  files : ∀ index, after.2.chunks .pending chunk.id index =
    if index = chunk.index then some chunk.data else session.2.chunks .pending chunk.id index

theorem put_received (session : Session) (chunk : CarriedChunk) :
    ((storagePutChunk session.1 chunk).run session.2).1 = session ∧
        (∀ stored, session.1.find chunk.id = some stored → stored.judge chunk = .fresh →
          session.2 .pending chunk.id = none) ∨
      ∃ stored, Received session ((storagePutChunk session.1 chunk).run session.2).1 chunk
        stored := by
  rcases run_storagePutChunk_cases session chunk with
    unchanged | ⟨stored, directory, found, place, fresh, same⟩
  · exact Or.inl unchanged
  · right
    have isId := Storage.find_id found
    have find : ∀ other, (session.1.update (stored.receive chunk)).find other =
        if other = chunk.id then some (stored.receive chunk) else session.1.find other :=
      Storage.find_update found isId
    rw [same]
    refine ⟨stored, found, fresh, (find _).trans (if_pos rfl),
      fun other different => ⟨(find _).trans (if_neg different),
        fun area => Disk.set_other_id _ _ _ different _⟩,
      ⟨_, Disk.set_same ..⟩, ?_, fun index => ?_⟩
    · exact Disk.set_other_area session.2 chunk.id (show Area.objects ≠ .pending by decide)
        (some (directory.receive session.1.pid (stored.receive chunk) chunk))
    rw [Disk.chunks_of_directory (Disk.set_same ..), Disk.chunks_of_directory place]
    simp only [Directory.receive, Directory.written, Directory.set_apply, reduceCtorEq, if_false,
      FileName.chunk.injEq]

/-- A chunk that is intact passes the check of a verification. -/
theorem chunkContent_of_intact {chunk : CarriedChunk} (intact : chunk.intact = true) :
    ∃ raw, chunkContent chunk.data chunk.rawSize chunk.hash = .ok raw := by
  unfold CarriedChunk.intact at intact
  split at intact
  · cases intact
  · have passed := (Bool.and_eq_true_iff.mp intact).2
    cases content : chunkContent chunk.data chunk.rawSize chunk.hash with
    | error code =>
      rw [content] at passed
      cases passed
    | ok raw => exact ⟨raw, rfl⟩

omit [Sha256] [Lz4] in
/-- The file of a received chunk is read whole. -/
theorem CarriedChunk.read (chunk : CarriedChunk) :
    readAll (some chunk.data) chunk.compressedSize.toNat = .ok chunk.data := by
  rw [← chunk.carried]
  simp only [readAll, Nat.lt_irrefl, if_false, List.take_length]

/-- The record of a chunk after a put that receives another one, or this one. -/
theorem Received.chunk {session after : Session} {chunk : CarriedChunk} {stored : StoredDocument}
    (received : Received session after chunk stored) (index : UInt64) :
    (stored.receive chunk).chunk index.toNat =
      if index = chunk.index then chunk.record else stored.chunk index.toNat := by
  refine chunk_receive stored ?_ index
  rw [stored.sized]
  exact UInt64.lt_iff_toNat_lt.mp
    (CarriedChunk.fault_eq_none (judge_eq_fresh received.fresh).1).2.1

theorem upheld_put {session : Session} (upheld : Upheld session) (chunk : CarriedChunk) :
    Upheld ((storagePutChunk session.1 chunk).run session.2).1 := by
  rcases put_received session chunk with ⟨same, -⟩ | ⟨stored, received⟩
  · rw [same]
    exact upheld
  · obtain ⟨faultless, unfinished, -⟩ := judge_eq_fresh received.fresh
    obtain ⟨intact, -, -, rawSize⟩ := CarriedChunk.fault_eq_none faultless
    have waits := upheld.waits chunk.id stored received.found unfinished
    refine upheld.change received.others received.known fun _ => ⟨received.directory,
      received.objects.trans waits.unpublished, waits.nonempty, fun index present => ?_⟩
    have record := received.chunk index
    have file := received.files index
    by_cases same : index = chunk.index
    · rw [if_pos same] at record file
      obtain ⟨raw, content⟩ := chunkContent_of_intact intact
      refine ⟨?_, chunk.data, raw, ?_, ?_⟩
      · rw [record, same]
        exact rawSize
      · rw [record, file]
        exact chunk.read
      · rw [record]
        exact content
    · rw [if_neg same] at record file
      rw [record] at present
      obtain ⟨size, contents⟩ := waits.holds index present
      refine ⟨?_, ?_⟩
      · rw [record]
        exact size
      · rw [record, file]
        exact contents

/-! ### Commits -/

/-- A commit leaves a document that does not verify, or publishes one that does. -/
inductive Committed (session : Session) (id : ObjectID) : Session → Prop
  | kept : Committed session id session
  | rejected {stored : StoredDocument} (found : session.1.find id = some stored)
      (unfinished : stored.state ≠ .finished) :
      Committed session id (session.1.update (stored.withState .verifying), session.2)
  | published {stored : StoredDocument} {content : List UInt8} {disk : Disk}
      (publishes : Publishes session.1 session.2 id stored content)
      (others : ∀ other, other ≠ id → ∀ area, disk area other = session.2 area other)
      (moved : disk.chunks .objects id = session.2.chunks .pending id) :
      Committed session id (session.1.update (stored.withState .finished), disk)

/-- The steps of a commit that publishes a document can all be taken, and they move its chunks to
`objects`. -/
theorem execute_publish {stored : StoredDocument} {disk : Disk}
    (waits : stored.Waits stored.id disk) (pid : Nat) :
    ∃ after, execute (writeManifest pid (stored.withState .verifying) .pending ++
        [.publish stored.id]) disk = (after, .ok ()) ∧
      (∀ other, other ≠ stored.id → ∀ area, after area other = disk area other) ∧
      after.chunks .objects stored.id = disk.chunks .pending stored.id := by
  obtain ⟨directory, place⟩ := waits.directory
  have free : ∀ later, (disk.set .pending stored.id later) .objects stored.id = none := by
    intro later
    rw [Disk.set_other_area _ _ (by decide)]
    exact waits.unpublished
  rw [execute_append (execute_writeManifest ..),
    show (stored.withState .verifying).id = stored.id from rfl,
    execute_cons (DiskStep.apply_publish (Disk.set_same ..) (free _)), place]
  refine ⟨_, rfl, fun other different area => ?_, ?_⟩
  · rw [Disk.set_other_id _ _ _ different, Disk.set_other_id _ _ _ different,
      Disk.set_other_id _ _ _ different]
  · rw [Disk.chunks_of_directory (Disk.set_same ..), Disk.chunks_of_directory place]
    rfl

theorem committed_run {session : Session} (upheld : Upheld session) (id : ObjectID) :
    Committed session id ((storageCommit session.1 session.2 id).run session.2).1 := by
  rcases storageCommit_cases session.1 session.2 id with
    ⟨answer, same, -⟩ | ⟨stored, code, found, unfinished, same⟩ | ⟨stored, content, publishes, same⟩
  · rw [same]
    exact .kept
  · rw [same]
    exact .rejected found unfinished
  · obtain rfl := Storage.find_id publishes.found
    have waits := upheld.waits _ stored publishes.found publishes.unfinished
    obtain ⟨after, taken, others, moved⟩ := execute_publish waits session.1.pid
    rw [same, Call.run_of_execute taken]
    exact .published publishes others moved

theorem Committed.upheld {session after : Session} {id : ObjectID} (upheld : Upheld session)
    (committed : Committed session id after) : Upheld after := by
  cases committed with
  | kept => exact upheld
  | @rejected stored found unfinished =>
    have find : ∀ other, (session.1.update (stored.withState .verifying)).find other =
        if other = id then some (stored.withState .verifying) else session.1.find other :=
      Storage.find_update found (show stored.id = id from Storage.find_id found)
    have waits := upheld.waits id stored found unfinished
    exact upheld.change (fun other different => ⟨(find _).trans (if_neg different), fun _ => rfl⟩)
      ((find _).trans (if_pos rfl)) fun _ => waits.withState .verifying
  | @published stored content disk publishes others moved =>
    have find : ∀ other, (session.1.update (stored.withState .finished)).find other =
        if other = id then some (stored.withState .finished) else session.1.find other :=
      Storage.find_update publishes.found
        (show stored.id = id from Storage.find_id publishes.found)
    exact upheld.change
      (fun other different => ⟨(find _).trans (if_neg different), others other different⟩)
      ((find _).trans (if_pos rfl)) fun wrong => absurd rfl wrong

/-! ### Runs of calls -/

omit [Sha256] [Lz4] in
/-- The actions of runs without crashes. -/
def StorageAction.Calls (_ : Session) : StorageAction → Prop
  | .call _ => True
  | .crash .. => False

theorem plan_commit (session : Session) (id : ObjectID) :
    (((StorageCall.commit id).plan session).run session.2).1 =
      ((storageCommit session.1 session.2 id).run session.2).1 := by
  simp only [StorageCall.plan, Call.run]
  cases execute (storageCommit session.1 session.2 id).steps session.2 with
  | mk disk outcome => cases outcome <;> rfl

theorem upheld_of_reaches {owner : NodeID} {pid : Nat} {session : Session}
    (reached : Transition.Reaches sessionStep StorageAction.Calls (⟨owner, pid, []⟩, Disk.empty)
      session) : Upheld session := by
  refine reached.invariant ⟨fun _ _ => rfl, fun _ _ wrong => by cases wrong⟩ ?_
  intro session action next upheld calls stepped
  cases action with
  | crash => cases calls
  | call request =>
    cases stepped
    cases request with
    | begin now document => exact upheld_begin upheld now document
    | put chunk => exact upheld_put upheld chunk
    | commit id =>
      rw [plan_commit]
      exact (committed_run upheld id).upheld upheld

end Upheld

end SuperPeerNet
