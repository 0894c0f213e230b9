/-
This file states the invariant of the storage, document by document, and proves that
loading a tree gives back the documents that the invariant finds in it.

For every id there is a slot: what the memory of the process knows of the document and
what its two directories hold. A slot is vacant, open, published, or torn. The last is
the state between the two renames of a commit, where the manifest in `pending` already
says `FINISHED`: the loader refuses such a manifest, and the document is lost.
-/

import SuperPeerNet.Storage.RoundTrip

namespace SuperPeerNet

/-! ### The contents of a directory -/

/-- The lasting files of a directory. -/
@[ext] structure Contents where
  manifest : Option (List UInt8)
  files : UInt64 → Option (List UInt8)

/-- The lasting files of a directory. -/
def Directory.contents (directory : Directory) : Contents where
  manifest := directory .manifest
  files index := directory (.chunk index)

/-- The lasting files of a document in an area. -/
def Disk.contents (disk : Disk) (area : Area) (id : ObjectID) : Option Contents :=
  (disk area id).map Directory.contents

theorem Disk.manifest_of_contents {disk : Disk} {area : Area} {id : ObjectID} {contents : Contents}
    (held : disk.contents area id = some contents) :
    disk.file area id .manifest = contents.manifest := by
  obtain ⟨directory, place, rfl⟩ := Option.map_eq_some_iff.mp held
  rw [Disk.file, place]
  rfl

theorem Disk.chunks_of_contents {disk : Disk} {area : Area} {id : ObjectID} {contents : Contents}
    (held : disk.contents area id = some contents) : disk.chunks area id = contents.files := by
  obtain ⟨directory, place, rfl⟩ := Option.map_eq_some_iff.mp held
  exact Disk.chunks_of_directory place

theorem Disk.manifest_of_missing {disk : Disk} {area : Area} {id : ObjectID}
    (missing : disk.contents area id = none) : disk.file area id .manifest = none := by
  rw [Disk.file, Option.map_eq_none_iff.mp missing]
  rfl

section Slots

variable [Sha256] [Lz4]

/-! ### Slots -/

/-- What the memory knows of a document and what its directories in `pending` and in `objects`
hold. -/
inductive Slot (id : ObjectID) : Option StoredDocument → Option Contents → Option Contents → Prop
  /-- There is no manifest. -/
  | vacant {pending : Option Contents}
      (bare : ∀ contents, pending = some contents → contents.manifest = none) :
      Slot id none pending none
  /-- The manifest of a document that was about to be published. -/
  | torn {stored : StoredDocument} {contents : Contents} (isId : stored.id = id)
      (sound : stored.Sound) (manifest : contents.manifest = some (manifestBytes stored))
      (written : writtenState stored.state = .finished) :
      Slot id none (some contents) none
  /-- A document that is being uploaded. The state in its manifest may be an older one. -/
  | opened {stored : StoredDocument} {contents : Contents} {state : TransferState}
      (isId : stored.id = id) (sound : stored.Sound) (unfinished : stored.state ≠ .finished)
      (manifest : contents.manifest = some (manifestBytes (stored.withState state)))
      (lasting : state = .created ∨ state = .transferring)
      (backed : stored.Backed contents.files) :
      Slot id (some stored) (some contents) none
  /-- A document that has been published. -/
  | published {stored : StoredDocument} {contents : Contents} {content : List UInt8}
      (isId : stored.id = id) (sound : stored.Sound) (finished : stored.state = .finished)
      (manifest : contents.manifest = some (manifestBytes stored))
      (backed : stored.Backed contents.files)
      (complete : ∀ record ∈ stored.chunks, record.present = true)
      (verified : verifyDocument contents.files stored = .ok content) :
      Slot id (some stored) none (some contents)

/-- The directories of a tree hold what slots can hold. -/
def Disk.Sane (disk : Disk) : Prop :=
  ∀ id, ∃ memory, Slot id memory (disk.contents .pending id) (disk.contents .objects id)

/-- The invariant of a session. -/
structure Session.Settled (session : Session) : Prop where
  distinct : KeyedList.Distinct StoredDocument.id session.1.documents
  slots : ∀ id, Slot id (session.1.find id) (session.2.contents .pending id)
    (session.2.contents .objects id)

/-- A tree without documents keeps the invariant. -/
theorem settled_empty (owner : NodeID) (pid : Nat) :
    Session.Settled (⟨owner, pid, []⟩, Disk.empty) :=
  ⟨List.Pairwise.nil, fun _ => .vacant fun _ wrong => by cases wrong⟩

/-! ### Loading a slot -/

/-- The document that a directory gives back. -/
def readable (disk : Disk) (area : Area) (id : ObjectID) : Option StoredDocument :=
  (readManifest disk area id).toOption

/-- The document that a tree gives back. -/
def recovered (disk : Disk) (id : ObjectID) : Option StoredDocument :=
  (readable disk .objects id).or (readable disk .pending id)

theorem readable_of_bare {disk : Disk} {area : Area} {id : ObjectID}
    (bare : disk.file area id .manifest = none) : readable disk area id = none := by
  rw [readable, readManifest, bare]
  rfl

/-- The same document, in a state that is published if and only if the other is. -/
inductive Resembles : Option StoredDocument → Option StoredDocument → Prop
  | absent : Resembles none none
  | same (stored : StoredDocument) : Resembles (some stored) (some stored)
  | reset {stored : StoredDocument} {state : TransferState} (before : stored.state ≠ .finished)
      (after : state ≠ .finished) : Resembles (some stored) (some (stored.withState state))

theorem readable_of_missing {disk : Disk} {area : Area} {id : ObjectID}
    (missing : disk.contents area id = none) : readable disk area id = none :=
  readable_of_bare (Disk.manifest_of_missing missing)

/-- A document that is being uploaded is given back by `pending`. -/
theorem readable_pending {disk : Disk} {stored : StoredDocument} {contents : Contents}
    (held : disk.contents .pending stored.id = some contents) (sound : stored.Sound)
    (manifest : contents.manifest = some (manifestBytes stored))
    (lasting : stored.state = .created ∨ stored.state = .transferring)
    (backed : stored.Backed contents.files) :
    readable disk .pending stored.id = some stored := by
  have same : writtenState stored.state = stored.state := by
    rcases lasting with state | state <;> rw [state] <;> rfl
  have unfinished : writtenState stored.state ≠ .finished := by
    rcases lasting with state | state <;> rw [state] <;> decide
  have read := readManifest_pending sound ((Disk.manifest_of_contents held).trans manifest)
    (by rw [Disk.chunks_of_contents held]; exact backed) unfinished
  rw [readable, read, same]
  rfl

/-- A published document is given back by `objects`. -/
theorem readable_objects {disk : Disk} {stored : StoredDocument} {contents : Contents}
    (held : disk.contents .objects stored.id = some contents) (sound : stored.Sound)
    (finished : stored.state = .finished)
    (manifest : contents.manifest = some (manifestBytes stored))
    (backed : stored.Backed contents.files)
    (complete : ∀ record ∈ stored.chunks, record.present = true) {content : List UInt8}
    (verified : verifyDocument contents.files stored = .ok content) :
    readable disk .objects stored.id = some stored := by
  have written : writtenState stored.state = .finished := by
    rw [finished]
    rfl
  have files := Disk.chunks_of_contents held
  rw [← files] at verified backed
  have read := readManifest_objects sound ((Disk.manifest_of_contents held).trans manifest) backed
    written complete verified
  rw [readable, read, ← finished]
  rfl

/-- What a tree gives back for a slot, and from which of the two directories. -/
structure Loaded (id : ObjectID) (memory : Option StoredDocument) (disk : Disk) : Prop where
  slot : Slot id (recovered disk id) (disk.contents .pending id) (disk.contents .objects id)
  resembles : Resembles memory (recovered disk id)
  fromObjects : ∀ stored, readable disk .objects id = some stored →
    stored.id = id ∧ stored.state = .finished
  fromPending : ∀ stored, readable disk .pending id = some stored → stored.id = id

/-- A slot without a readable manifest gives back nothing. -/
theorem Loaded.of_unreadable {disk : Disk} {id : ObjectID}
    (slot : Slot id none (disk.contents .pending id) (disk.contents .objects id))
    (objects : readable disk .objects id = none) (pending : readable disk .pending id = none) :
    Loaded id none disk := by
  have nothing : recovered disk id = none := by
    rw [recovered, objects, pending]
    rfl
  refine ⟨nothing ▸ slot, nothing ▸ .absent, fun stored wrong => ?_, fun stored wrong => ?_⟩
  · rw [objects] at wrong
    cases wrong
  · rw [pending] at wrong
    cases wrong

/-- A slot gives back the document in its memory. -/
theorem Slot.load {disk : Disk} {id : ObjectID} {memory : Option StoredDocument}
    (slot : Slot id memory (disk.contents .pending id) (disk.contents .objects id)) :
    Loaded id memory disk := by
  have kept := slot
  generalize pendingHeld : disk.contents .pending id = pending at slot
  generalize objectsHeld : disk.contents .objects id = objects at slot
  cases slot with
  | vacant bare =>
    refine Loaded.of_unreadable kept (readable_of_missing objectsHeld) ?_
    cases pendingHeld' : disk.contents .pending id with
    | none => exact readable_of_missing pendingHeld'
    | some contents =>
      refine readable_of_bare ?_
      rw [Disk.manifest_of_contents pendingHeld']
      exact bare contents (pendingHeld.symm.trans pendingHeld')
  | torn isId sound manifest written =>
    subst isId
    refine Loaded.of_unreadable kept (readable_of_missing objectsHeld) ?_
    rw [readable, readManifest_torn sound
      ((Disk.manifest_of_contents pendingHeld).trans manifest) written]
    rfl
  | @opened stored contents state isId sound unfinished manifest lasting backed =>
    subst isId
    have objects : readable disk .objects stored.id = none := readable_of_missing objectsHeld
    have held : disk.contents .pending (stored.withState state).id = some contents := pendingHeld
    have pending : readable disk .pending (stored.withState state).id =
        some (stored.withState state) :=
      readable_pending held (sound.withState state) manifest lasting backed
    change readable disk .pending stored.id = _ at pending
    have given : recovered disk stored.id = some (stored.withState state) := by
      rw [recovered, objects, pending]
      rfl
    have after : state ≠ .finished := by
      rcases lasting with rfl | rfl <;> decide
    refine ⟨?_, ?_, ?_, ?_⟩
    · rw [given, pendingHeld, objectsHeld]
      exact .opened rfl (sound.withState state) after manifest lasting backed
    · rw [given]
      exact .reset unfinished after
    · intro other wrong
      rw [objects] at wrong
      cases wrong
    · intro other found
      rw [pending] at found
      cases found
      rfl
  | @published stored contents content isId sound finished manifest backed complete verified =>
    subst isId
    have objects : readable disk .objects stored.id = some stored :=
      readable_objects objectsHeld sound finished manifest backed complete verified
    have given : recovered disk stored.id = some stored := by
      rw [recovered, objects]
      rfl
    refine ⟨?_, ?_, ?_, ?_⟩
    · rw [given]
      exact kept
    · rw [given]
      exact .same stored
    · intro other found
      rw [objects] at found
      cases found
      exact ⟨rfl, finished⟩
    · intro other wrong
      rw [readable_of_missing pendingHeld] at wrong
      cases wrong

/-! ### Loading a tree -/

/-- One entry of a sane tree: its document is inserted, unless it is known already, and the tree
is left as it is. -/
theorem loadEntry_sane {disk : Disk} (sane : disk.Sane) (area : Area) (storage : Storage)
    (id : ObjectID) :
    loadEntry area (storage, disk) id =
      match readable disk area id with
      | none => .ok (storage, disk)
      | some stored =>
        if (storage.find id).isSome then .ok (storage, disk)
        else .ok (storage.insert stored, disk) := by
  obtain ⟨memory, slot⟩ := sane id
  have loaded := slot.load
  unfold loadEntry readable
  cases read : readManifest disk area id with
  | error code => rfl
  | ok stored =>
    have given : readable disk area id = some stored := by
      rw [readable, read]
      rfl
    simp only [Except.toOption]
    cases area with
    | objects =>
      obtain ⟨isId, finished⟩ := loaded.fromObjects stored given
      have self : stored.withState .finished = stored := by
        rw [← finished]
        rfl
      rw [isId, self]
      simp only [ne_eq, not_true_eq_false, false_or, if_true, finished, reduceCtorEq, if_false]
    | pending =>
      have isId := loaded.fromPending stored given
      rw [isId]
      simp only [ne_eq, not_true_eq_false, false_or, reduceCtorEq, if_false]

theorem readable_id {disk : Disk} (sane : disk.Sane) {area : Area} {id : ObjectID}
    {stored : StoredDocument} (given : readable disk area id = some stored) : stored.id = id := by
  obtain ⟨memory, slot⟩ := sane id
  cases area with
  | objects => exact (slot.load.fromObjects stored given).1
  | pending => exact slot.load.fromPending stored given

/-- The entries of a directory of a sane tree: every readable document that is not known yet is
inserted. -/
theorem loadDocuments_sane {disk : Disk} (sane : disk.Sane) (area : Area) (entries : List ObjectID)
    (storage : Storage) :
    ∃ loaded, loadDocuments area entries (storage, disk) = .ok (loaded, disk) ∧
      (KeyedList.Distinct StoredDocument.id storage.documents →
        KeyedList.Distinct StoredDocument.id loaded.documents) ∧
      ∀ id, loaded.find id =
        (storage.find id).or (if id ∈ entries then readable disk area id else none) := by
  induction entries generalizing storage with
  | nil => exact ⟨storage, rfl, id, fun id => by simp⟩
  | cons entry rest inductionHypothesis =>
    have first : loadDocuments area (entry :: rest) (storage, disk) =
        loadEntry area (storage, disk) entry >>= loadDocuments area rest := rfl
    rw [first, loadEntry_sane sane]
    cases given : readable disk area entry with
    | none =>
      obtain ⟨loaded, done, distinct, finds⟩ := inductionHypothesis storage
      refine ⟨loaded, done, distinct, fun id => ?_⟩
      rw [finds]
      by_cases same : id = entry
      · simp [same, given]
      · simp [same]
    | some stored =>
      have isEntry := readable_id sane given
      simp only
      split
      · rename_i known
        obtain ⟨loaded, done, distinct, finds⟩ := inductionHypothesis storage
        refine ⟨loaded, done, distinct, fun id => ?_⟩
        rw [finds]
        by_cases same : id = entry
        · obtain ⟨old, found⟩ := Option.isSome_iff_exists.mp known
          rw [same, found]
          rfl
        · simp [same]
      · rename_i unknown
        rw [Bool.not_eq_true, Option.isSome_eq_false_iff, Option.isNone_iff_eq_none] at unknown
        obtain ⟨loaded, done, distinct, finds⟩ := inductionHypothesis (storage.insert stored)
        refine ⟨loaded, done, fun earlier => distinct (List.pairwise_cons.mpr ⟨?_, earlier⟩), ?_⟩
        · intro other member same
          refine KeyedList.lookup_eq_none.mp unknown other member ?_
          rw [← same, isEntry]
        · intro id
          rw [finds, Storage.find_insert, isEntry]
          by_cases same : id = entry
          · simp [same, unknown, given]
          · simp [same, Ne.symm same]

theorem readable_of_unlisted {disk : Disk} {area : Area} {entries : List ObjectID}
    (listed : Listed disk area entries) (id : ObjectID) :
    (if id ∈ entries then readable disk area id else none) = readable disk area id := by
  split
  · rfl
  · rename_i unlisted
    refine (readable_of_missing ?_).symm
    rw [Disk.contents, Option.map_eq_none_iff]
    exact Option.not_isSome_iff_eq_none.mp fun there => unlisted ((listed id).mpr there)

/-- A sane tree loads, it is left as it is, and the documents are those that it gives back. -/
theorem storageCreate_sane {disk : Disk} (sane : disk.Sane) (owner : NodeID) (pid : Nat)
    {objects pending : List ObjectID} (objectsListed : Listed disk .objects objects)
    (pendingListed : Listed disk .pending pending) :
    ∃ storage, storageCreate owner pid disk objects pending = .ok (storage, disk) ∧
      Session.Settled (storage, disk) ∧ ∀ id, storage.find id = recovered disk id := by
  obtain ⟨first, firstDone, firstDistinct, firstFinds⟩ :=
    loadDocuments_sane sane .objects objects ⟨owner, pid, []⟩
  obtain ⟨storage, done, distinct, finds⟩ := loadDocuments_sane sane .pending pending first
  have given : ∀ id, storage.find id = recovered disk id := by
    intro id
    rw [finds, firstFinds, readable_of_unlisted objectsListed, readable_of_unlisted pendingListed]
    rfl
  refine ⟨storage, ?_, ⟨distinct (firstDistinct List.Pairwise.nil), fun id => ?_⟩, given⟩
  · rw [storageCreate, firstDone]
    exact done
  · obtain ⟨memory, slot⟩ := sane id
    rw [given]
    exact slot.load.slot

end Slots

end SuperPeerNet
