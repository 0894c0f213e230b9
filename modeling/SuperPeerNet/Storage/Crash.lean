/-
This file proves which uploads survive a crash.

A history is a session with the calls that have been answered with success since the
tree was empty. A begin that has been acknowledged promises that the document is
found, a put that its chunk is present, and a commit that the document is published.
Calls and crashes keep every promise, except a crash between the two renames of a
commit: the manifest that says `FINISHED` is in `pending` then, where the loader does
not accept it.
-/

import SuperPeerNet.Storage.Steps

namespace SuperPeerNet

/-- A session and the calls that have been acknowledged, the newest first. -/
structure History where
  session : Session
  acknowledged : List StorageCall

/-- A new process on an empty tree. -/
def History.start (owner : NodeID) (pid : Nat) : History := ⟨(⟨owner, pid, []⟩, Disk.empty), []⟩

/-- Every document whose begin is acknowledged is there, and it is published or has every chunk
whose put is acknowledged. -/
def Covers (storage : Storage) (acknowledged : List StorageCall) : Prop :=
  ∀ now document, .begin now document ∈ acknowledged →
    ∃ stored, storage.find document.id = some stored ∧ (stored.state = .finished ∨
      ∀ chunk, .put chunk ∈ acknowledged → chunk.id = document.id →
        (stored.chunk chunk.index.toNat).present = true)

section Crash

variable [Sha256] [Lz4]

/-- The call that an action acknowledges. -/
def StorageAction.acknowledges (session : Session) : StorageAction → List StorageCall
  | .call request => if ((request.plan session).run session.2).2.isOk then [request] else []
  | .crash .. => []

/-- The step function of histories. -/
def historyStep (history : History) (action : StorageAction) : Option History :=
  (sessionStep history.session action).map fun session =>
    ⟨session, action.acknowledges history.session ++ history.acknowledged⟩

/-- The history after a call that has succeeded. -/
def History.acknowledge (history : History) (request : StorageCall) : History where
  session := ((request.plan history.session).run history.session.2).1
  acknowledged := request :: history.acknowledged

theorem historyStep_call {history : History} {request : StorageCall}
    (answered : ((request.plan history.session).run history.session.2).2.isOk = true) :
    historyStep history (.call request) = some (history.acknowledge request) := by
  rw [historyStep, StorageAction.acknowledges, if_pos answered]
  rfl

/-- The documents that are created can be recorded, and no crash falls between the two renames of a
commit. -/
def StorageAction.Careful (session : Session) : StorageAction → Prop
  | .call request => request.Recordable session
  | .crash request taken .. => request.Recordable session ∧ Whole session request taken

/-! ### The promise of a call -/

/-- What an acknowledged call promises. -/
def StorageCall.Honoured (storage : Storage) : StorageCall → Prop
  | .begin _ document => (storage.find document.id).isSome
  | .put chunk => ∃ stored, storage.find chunk.id = some stored ∧
    chunk.matches (stored.chunk chunk.index.toNat)
  | .commit id => ∃ stored, storage.find id = some stored ∧ stored.state = .finished

omit [Sha256] [Lz4] in
/-- Documents that lose nothing keep every promise. -/
theorem StorageCall.Honoured.mono {before after : Storage} {request : StorageCall}
    (honoured : request.Honoured before) (keeps : ∀ id, Keeps (before.find id) (after.find id)) :
    request.Honoured after := by
  cases request with
  | begin now document =>
    obtain ⟨stored, found⟩ := Option.isSome_iff_exists.mp honoured
    obtain ⟨later, foundLater, -⟩ := keeps document.id stored found
    exact Option.isSome_iff_exists.mpr ⟨later, foundLater⟩
  | put chunk =>
    obtain ⟨stored, found, same⟩ := honoured
    obtain ⟨later, foundLater, -, -, kept⟩ := keeps chunk.id stored found
    refine ⟨later, foundLater, ?_⟩
    rw [StoredDocument.chunk_of_getElem?
      (kept _ _ (StoredDocument.getElem?_of_present same.1) same.1)]
    exact same
  | commit id =>
    obtain ⟨stored, found, finished⟩ := honoured
    obtain ⟨later, foundLater, -, same, -⟩ := keeps id stored found
    exact ⟨later, foundLater, same finished ▸ finished⟩

omit [Sha256] [Lz4] in
theorem StoredDocument.chunk_receive {stored : StoredDocument} {chunk : CarriedChunk}
    (inside : chunk.index < stored.document.chunkCount) :
    (stored.receive chunk).chunk chunk.index.toNat = chunk.record := by
  refine chunk_of_getElem? ?_
  show (stored.chunks.set chunk.index.toNat chunk.record)[chunk.index.toNat]? = _
  rw [List.getElem?_set_self]
  rw [stored.sized]
  exact UInt64.lt_iff_toNat_lt.mp inside

/-- A call that succeeds keeps its promise. -/
theorem StorageCall.honoured_of_answer {session : Session} {request : StorageCall}
    (answered : (request.plan session).answer = .ok ()) :
    request.Honoured (request.plan session).completed := by
  cases request with
  | begin now document =>
    rw [plan] at answered ⊢
    rcases storageBegin_cases session.1 now document with ⟨answer, same, found⟩ | ⟨creates, same⟩
    · rw [same] at answered ⊢
      exact found answered
    · rw [same]
      show ((session.1.insert (beginDocument session.1 now document)).find document.id).isSome
      rw [Storage.find_insert, if_pos (show (beginDocument session.1 now document).id =
        document.id from rfl)]
      rfl
  | put chunk =>
    rw [plan] at answered ⊢
    rcases storagePutChunk_cases session.1 chunk with
      ⟨answer, same, found⟩ | ⟨stored, receives, same⟩
    · rw [same] at answered ⊢
      obtain ⟨stored, known, -, matching⟩ := found answered
      exact ⟨stored, known, matching⟩
    · rw [same]
      have isId : stored.id = chunk.id := Storage.find_id receives.found
      have received : (stored.receive chunk).id = chunk.id := isId
      refine ⟨stored.receive chunk,
        (Storage.find_update receives.found received chunk.id).trans (if_pos rfl), ?_⟩
      rw [StoredDocument.chunk_receive receives.inside]
      exact ⟨rfl, rfl, rfl, rfl⟩
  | commit id =>
    rw [plan] at answered ⊢
    rcases storageCommit_cases session.1 session.2 id with
      ⟨answer, same, found⟩ | ⟨stored, code, -, -, same⟩ | ⟨stored, content, publishes, same⟩
    · rw [same] at answered ⊢
      cases answer with
      | error code => cases answered
      | ok document => exact found document rfl
    · rw [same] at answered
      cases answered
    · rw [same]
      have isId : stored.id = id := Storage.find_id publishes.found
      have published : (stored.withState .finished).id = id := isId
      exact ⟨stored.withState .finished,
        (Storage.find_update publishes.found published id).trans (if_pos rfl), rfl⟩

/-! ### Histories -/

/-- The invariant of histories. -/
structure History.Kept (history : History) : Prop where
  settled : Session.Settled history.session
  honoured : ∀ request ∈ history.acknowledged, request.Honoured history.session.1

omit [Sha256] [Lz4] in
/-- Promises that are kept cover the acknowledged uploads. -/
theorem covers_of_honoured {storage : Storage} {acknowledged : List StorageCall}
    (honoured : ∀ request ∈ acknowledged, request.Honoured storage) :
    Covers storage acknowledged := by
  intro now document begun
  obtain ⟨stored, found⟩ := Option.isSome_iff_exists.mp (honoured _ begun)
  refine ⟨stored, found, Or.inr fun chunk put isDocument => ?_⟩
  obtain ⟨other, known, same⟩ := honoured _ put
  rw [isDocument, found] at known
  cases known
  exact same.1

theorem History.kept_start (owner : NodeID) (pid : Nat) : (History.start owner pid).Kept where
  settled := settled_empty owner pid
  honoured _ member := by cases member

/-- A crash that does not fall between the two renames of a commit loses no promise. -/
theorem History.Kept.crash {history : History} (kept : history.Kept) {request : StorageCall}
    {taken pid : Nat} {owner : NodeID} {objects pending : List ObjectID}
    (seen : (StorageAction.crash request taken owner pid objects pending).Seen history.session)
    (careful :
      (StorageAction.crash request taken owner pid objects pending).Careful history.session) :
    ∃ storage, storageCreate owner pid (surviving history.session request taken) objects pending =
        .ok (storage, surviving history.session request taken) ∧
      History.Kept ⟨(storage, surviving history.session request taken), history.acknowledged⟩ := by
  obtain ⟨sane, keeps⟩ := surviving_sane kept.settled careful.1 taken
  obtain ⟨storage, created, settled, finds⟩ := storageCreate_sane sane owner pid seen.1 seen.2
  refine ⟨storage, created, settled, fun earlier member =>
    (kept.honoured earlier member).mono fun id => ?_⟩
  rw [finds]
  exact keeps careful.2 id

/-- Every careful action keeps the invariant. -/
theorem History.Kept.step {history next : History} {action : StorageAction} (kept : history.Kept)
    (seen : action.Seen history.session) (careful : action.Careful history.session)
    (stepped : historyStep history action = some next) : next.Kept := by
  obtain ⟨session, moved, rfl⟩ := Option.map_eq_some_iff.mp stepped
  cases action with
  | call request =>
    cases moved
    obtain ⟨id, acts⟩ := acts_plan kept.settled careful
    obtain ⟨answered, completed, settled, keeps⟩ := acts.run kept.settled
    refine ⟨settled, fun earlier member => ?_⟩
    simp only [completed]
    rcases List.mem_append.mp member with new | old
    · simp only [StorageAction.acknowledges, answered] at new
      split at new
      · rename_i isOk
        cases List.mem_singleton.mp new
        refine StorageCall.honoured_of_answer ?_
        cases answer : (request.plan history.session).answer with
        | error code =>
          rw [answer] at isOk
          cases isOk
        | ok _ => rfl
      · cases new
    · exact (kept.honoured earlier old).mono keeps
  | crash request taken owner pid objects pending =>
    obtain ⟨storage, created, after⟩ := kept.crash seen careful
    rw [sessionStep, created] at moved
    cases moved
    exact after

/-- However a tree has been written by calls and crashes, the next crash loses nothing that has
been acknowledged, unless it falls between the two renames of a commit. -/
theorem acknowledged_uploads_survive {owner : NodeID} {pid : Nat} {history : History}
    (reached : Transition.Reaches historyStep
      (fun history action => action.Seen history.session ∧ action.Careful history.session)
      (History.start owner pid) history)
    (request : StorageCall) (taken : Nat) (newOwner : NodeID) (newPid : Nat)
    (objects pending : List ObjectID)
    (seen : (StorageAction.crash request taken newOwner newPid objects pending).Seen
      history.session)
    (careful : (StorageAction.crash request taken newOwner newPid objects pending).Careful
      history.session) :
    ∃ storage disk, storageCreate newOwner newPid (surviving history.session request taken) objects
        pending = .ok (storage, disk) ∧ Covers storage history.acknowledged := by
  have kept : history.Kept := reached.invariant (History.kept_start owner pid)
    fun _ _ _ before allowed stepped => before.step allowed.1 allowed.2 stepped
  obtain ⟨storage, created, after⟩ := kept.crash seen careful
  exact ⟨storage, _, created, covers_of_honoured after.honoured⟩

/-! ### The upload of a letter -/

omit [Sha256] [Lz4] in
/-- The tree has no directory of another document. -/
def Disk.Only (disk : Disk) (id : ObjectID) : Prop :=
  ∀ area other, other ≠ id → disk area other = none

omit [Sha256] [Lz4] in
theorem Disk.Only.execute {disk : Disk} {id : ObjectID} (only : disk.Only id)
    {steps : List DiskStep} (about : ∀ step ∈ steps, step.id = id) :
    (execute steps disk).1.Only id := by
  intro area other different
  have untouched : ∀ step ∈ steps, other ≠ step.id := by
    intro step member
    rw [about step member]
    exact different
  rw [execute_other untouched]
  exact only area other different

theorem Disk.Only.surviving {session : Session} {id : ObjectID} (only : session.2.Only id)
    {request : StorageCall} (about : ∀ step ∈ (request.plan session).steps, step.id = id)
    (taken : Nat) : (surviving session request taken).Only id :=
  only.execute fun step member => about step (List.mem_of_mem_take member)

theorem Disk.Only.acknowledge {history : History} {id : ObjectID}
    (only : history.session.2.Only id) {request : StorageCall}
    (about : ∀ step ∈ (request.plan history.session).steps, step.id = id) :
    (history.acknowledge request).session.2.Only id := by
  rw [History.acknowledge, Call.run_disk]
  exact only.execute about

omit [Sha256] [Lz4] in
theorem Disk.Only.listed {disk : Disk} {id : ObjectID} (only : disk.Only id) {area : Area}
    (there : (disk area id).isSome = true) : Listed disk area [id] := by
  intro other
  rw [List.mem_singleton]
  constructor
  · rintro rfl
    exact there
  · intro found
    by_contra different
    rw [only area other different] at found
    cases found

omit [Sha256] [Lz4] in
theorem Disk.Only.unlisted {disk : Disk} {id : ObjectID} (only : disk.Only id) {area : Area}
    (missing : (disk area id).isSome = false) : Listed disk area [] := by
  intro other
  constructor
  · intro member
    cases member
  · intro found
    by_cases same : other = id
    · subst same
      rw [missing] at found
      cases found
    · rw [only area other same] at found
      cases found

omit [Sha256] [Lz4] in
/-- A new process on an empty tree. -/
def letterStart : History := .start letterSession.1.owner 1

/-- The history of the begin of the letter. -/
def letterBegun : History := letterStart.acknowledge (.begin 0 letterDocument)

/-- The history of the upload of the letter, up to its commit. -/
def letterHistory : History := letterBegun.acknowledge (.put letterChunk)

end Crash

/-- The upload of the letter is careful, and the tree has no other document. -/
theorem letterHistory_reached {allowed : History → StorageAction → Prop} :
    letI := Sha256.reference
    letI := Lz4.reference
    (∀ history action, action.Seen history.session → action.Careful history.session →
      allowed history action) →
    Transition.Reaches historyStep allowed letterStart letterHistory ∧
      letterHistory.session.2.Only letterDocument.id := by
  let sha256 := Sha256.reference
  let lz4 := Lz4.reference
  intro permits
  obtain ⟨beginAbout, putAbout, beginAnswered, putAnswered⟩ :
      (∀ step ∈ ((StorageCall.begin 0 letterDocument).plan letterStart.session).steps,
        step.id = letterDocument.id) ∧
      (∀ step ∈ ((StorageCall.put letterChunk).plan letterBegun.session).steps,
        step.id = letterDocument.id) ∧
      (((StorageCall.begin 0 letterDocument).plan letterStart.session).run
        letterStart.session.2).2.isOk = true ∧
      (((StorageCall.put letterChunk).plan letterBegun.session).run
        letterBegun.session.2).2.isOk = true := by decide +kernel
  have empty : letterStart.session.2.Only letterDocument.id := fun _ _ _ => rfl
  have careful : (StorageAction.call (.begin 0 letterDocument)).Careful letterStart.session :=
    fun _ => admitted_letterDocument.recordable
  have first := permits letterStart (.call (.begin 0 letterDocument)) trivial careful
  have second := permits letterBegun (.call (.put letterChunk)) trivial trivial
  have begunOnly : letterBegun.session.2.Only letterDocument.id := by
    rw [letterBegun]
    exact empty.acknowledge beginAbout
  refine ⟨.tail (.tail .refl _ first (historyStep_call beginAnswered)) _ second
    (historyStep_call putAnswered), ?_⟩
  rw [letterHistory]
  exact begunOnly.acknowledge putAbout

/-- The letter survives a crash before the first rename of its commit. -/
theorem acknowledged_uploads_survive_letter :
    letI := Sha256.reference
    letI := Lz4.reference
    Transition.Reaches historyStep
        (fun history action => action.Seen history.session ∧ action.Careful history.session)
        letterStart letterHistory ∧
      ∃ storage disk, storageCreate letterSession.1.owner 2
          (surviving letterHistory.session (.commit letterDocument.id) 2) []
          [letterDocument.id] = .ok (storage, disk) ∧
        Covers storage letterHistory.acknowledged := by
  let sha256 := Sha256.reference
  let lz4 := Lz4.reference
  obtain ⟨reached, only⟩ := letterHistory_reached fun _ _ seen careful => And.intro seen careful
  obtain ⟨about, objects, pending, left⟩ :
      (∀ step ∈ ((StorageCall.commit letterDocument.id).plan letterHistory.session).steps,
        step.id = letterDocument.id) ∧
      (surviving letterHistory.session (.commit letterDocument.id) 2 .objects
        letterDocument.id).isSome = false ∧
      (surviving letterHistory.session (.commit letterDocument.id) 2 .pending
        letterDocument.id).isSome = true ∧
      (((StorageCall.commit letterDocument.id).plan letterHistory.session).steps.drop
        2).length = 2 := by decide +kernel
  have tree := only.surviving about 2
  have seen := StorageAction.seen_crash letterSession.1.owner 2 (tree.unlisted objects)
    (tree.listed pending)
  have whole : Whole letterHistory.session (.commit letterDocument.id) 2 := by
    intro id wrong
    rw [wrong] at left
    cases left
  exact ⟨reached, acknowledged_uploads_survive reached (.commit letterDocument.id) 2 _ 2 [] _ seen
    ⟨trivial, whole⟩⟩

/-- The letter is lost when the process crashes between the two renames of its commit: the next
process has no documents. -/
theorem commit_loses_upload :
    letI := Sha256.reference
    letI := Lz4.reference
    ¬ ∀ (owner : NodeID) (pid : Nat) (history : History),
      Transition.Reaches historyStep (fun history action => action.Seen history.session)
        (History.start owner pid) history →
      ∀ (request : StorageCall) (taken : Nat) (newOwner : NodeID) (newPid : Nat)
        (objects pending : List ObjectID),
        (StorageAction.crash request taken newOwner newPid objects pending).Seen history.session →
        ∃ storage disk, storageCreate newOwner newPid (surviving history.session request taken)
            objects pending = .ok (storage, disk) ∧ Covers storage history.acknowledged := by
  let sha256 := Sha256.reference
  let lz4 := Lz4.reference
  intro survive
  obtain ⟨reached, only⟩ := letterHistory_reached fun _ _ seen _ => seen
  obtain ⟨about, objects, pending, lost⟩ :
      (∀ step ∈ ((StorageCall.commit letterDocument.id).plan letterHistory.session).steps,
        step.id = letterDocument.id) ∧
      (surviving letterHistory.session (.commit letterDocument.id) 3 .objects
        letterDocument.id).isSome = false ∧
      (surviving letterHistory.session (.commit letterDocument.id) 3 .pending
        letterDocument.id).isSome = true ∧
      (storageCreate letterSession.1.owner 2
        (surviving letterHistory.session (.commit letterDocument.id) 3) []
        [letterDocument.id]).toOption.all (fun loaded =>
          (loaded.1.find letterDocument.id).isNone) = true := by decide +kernel
  have tree := only.surviving about 3
  have seen := StorageAction.seen_crash letterSession.1.owner 2 (tree.unlisted objects)
    (tree.listed pending)
  obtain ⟨storage, disk, created, covers⟩ := survive _ _ _ reached _ _ _ _ _ _ seen
  obtain ⟨stored, found, -⟩ := covers 0 letterDocument (.tail _ (.head _))
  rw [created] at lost
  simp only [Except.toOption, Option.all_some, found, Option.isNone_some] at lost
  cases lost

end SuperPeerNet
