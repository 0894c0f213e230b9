/-
This file proves what a call does to the slot of its document after any number of its
durable steps.

A begin makes a directory and writes the first manifest, a put writes a chunk file and
then the manifest that speaks of it, and a commit writes the last manifest and then
publishes the directory. After every prefix of these steps the slot is one of those
that the invariant allows, and the document in it has not lost a chunk, with one
exception: between the two renames of a commit the slot is torn.
-/

import SuperPeerNet.Storage.Slots

namespace SuperPeerNet

/-! ### Contents after a prefix of the steps -/

theorem Disk.contents_set (disk : Disk) (area : Area) (id : ObjectID) (directory : Directory) :
    (disk.set area id (some directory)).contents area id = some directory.contents := by
  rw [Disk.contents, Disk.set_same]
  rfl

theorem Disk.contents_set_other_area (disk : Disk) {area otherArea : Area} (id : ObjectID)
    (different : otherArea ≠ area) (directory : Option Directory) :
    (disk.set area id directory).contents otherArea id = disk.contents otherArea id := by
  rw [Disk.contents, Disk.contents, Disk.set_other_area _ _ different]

/-- A prefix of the steps that write a manifest leaves the contents as they were, or with the new
manifest. -/
theorem execute_take_writeManifest {disk : Disk} {area : Area} {stored : StoredDocument}
    {directory : Directory} (place : disk area stored.id = some directory) (pid taken : Nat) :
    ∃ later, (execute ((writeManifest pid stored area).take taken) disk).1 =
        disk.set area stored.id (some later) ∧
      later.contents = if taken < 3 then directory.contents
        else { directory.contents with manifest := some (manifestBytes stored) } := by
  match taken with
  | 0 => exact ⟨directory, (Disk.set_self place).symm, rfl⟩
  | 1 =>
    refine ⟨directory, ?_, rfl⟩
    rw [writeManifest, List.take_succ_cons, List.take_zero,
      execute_cons (DiskStep.apply_makeDirectory disk area stored.id), place]
    rfl
  | 2 =>
    refine ⟨directory.set (.manifestTemporary pid) (some (manifestBytes stored)), ?_, rfl⟩
    rw [writeManifest, List.take_succ_cons, List.take_succ_cons, List.take_zero,
      execute_cons (DiskStep.apply_makeDirectory disk area stored.id), place,
      execute_cons (DiskStep.apply_write (Disk.set_same ..) _ _), Disk.set_set]
    rfl
  | taken + 3 =>
    refine ⟨directory.written pid stored, ?_, rfl⟩
    rw [List.take_of_length_le (by simp [writeManifest]), execute_writeManifest, place]
    rfl

/-- The contents after a prefix of the steps that write a manifest in `pending`. -/
theorem contents_take_writeManifest {disk : Disk} {stored : StoredDocument} {directory : Directory}
    (place : disk .pending stored.id = some directory) (pid taken : Nat) :
    (execute ((writeManifest pid stored .pending).take taken) disk).1.contents .pending stored.id =
        some (if taken < 3 then directory.contents
          else { directory.contents with manifest := some (manifestBytes stored) }) ∧
      (execute ((writeManifest pid stored .pending).take taken) disk).1.contents .objects
        stored.id = disk.contents .objects stored.id := by
  obtain ⟨later, after, contents⟩ := execute_take_writeManifest place pid taken
  rw [after, Disk.contents_set, contents]
  exact ⟨rfl, Disk.contents_set_other_area _ _ (by decide) _⟩

/-! ### Documents that lose nothing -/

/-- A document that is known stays known, with the chunks that it has, and a published document
stays as it is. -/
def Keeps (old new : Option StoredDocument) : Prop :=
  ∀ stored, old = some stored → ∃ later, new = some later ∧ later.document = stored.document ∧
    (stored.state = .finished → later = stored) ∧
    ∀ (position : Nat) (record : StoredChunk), stored.chunks[position]? = some record →
      record.present = true → later.chunks[position]? = some record

namespace Keeps

theorem refl (memory : Option StoredDocument) : Keeps memory memory :=
  fun stored known => ⟨stored, known, rfl, fun _ => rfl, fun _ _ found _ => found⟩

theorem of_none (new : Option StoredDocument) : Keeps none new := fun _ wrong => by cases wrong

theorem trans {first second third : Option StoredDocument} (before : Keeps first second)
    (after : Keeps second third) : Keeps first third := by
  intro stored known
  obtain ⟨middle, middleKnown, sameDocument, sameFinished, kept⟩ := before stored known
  obtain ⟨later, laterKnown, document, finished, still⟩ := after middle middleKnown
  refine ⟨later, laterKnown, document.trans sameDocument, fun isFinished => ?_,
    fun position record found present => still position record (kept position record found present)
      present⟩
  have same := sameFinished isFinished
  rw [finished (same ▸ isFinished), same]

/-- A document that is not published may change its state. -/
theorem withState {stored : StoredDocument} (unfinished : stored.state ≠ .finished)
    (state : TransferState) : Keeps (some stored) (some (stored.withState state)) := by
  intro old known
  cases known
  exact ⟨_, rfl, rfl, fun wrong => absurd wrong unfinished, fun _ _ found _ => found⟩

theorem of_resembles {old new : Option StoredDocument} (resembles : Resembles old new) :
    Keeps old new := by
  cases resembles with
  | absent => exact refl none
  | same stored => exact refl _
  | reset before after => exact withState before _

/-- A document may receive a chunk that it does not have. -/
theorem receive {stored : StoredDocument} {chunk : CarriedChunk}
    (unfinished : stored.state ≠ .finished)
    (absent : (stored.chunk chunk.index.toNat).present = false) :
    Keeps (some stored) (some (stored.receive chunk)) := by
  intro old known
  cases known
  refine ⟨_, rfl, rfl, fun wrong => absurd wrong unfinished,
    fun position record found present => ?_⟩
  show (stored.chunks.set chunk.index.toNat chunk.record)[position]? = some record
  rw [List.getElem?_set_ne, found]
  rintro rfl
  rw [StoredDocument.chunk_of_getElem? found, present] at absent
  cases absent

end Keeps

section Steps

variable [Sha256] [Lz4]

/-! ### Slots after a step -/

/-- The contents of a directory that has been made. -/
def Contents.made (contents : Option Contents) : Contents := contents.getD ⟨none, fun _ => none⟩

/-- Making a directory leaves a slot without a document as it is. -/
theorem Slot.made {id : ObjectID} {pending : Option Contents} (slot : Slot id none pending none) :
    Slot id none (some (Contents.made pending)) none := by
  cases slot with
  | vacant bare =>
    refine .vacant fun contents same => ?_
    cases same
    cases pending with
    | none => rfl
    | some held => exact bare held rfl
  | torn isId sound manifest written => exact .torn isId sound manifest written

/-- The first manifest opens a slot. -/
theorem Slot.begun {storage : Storage} {document : TransferDocument}
    (recordable : document.Recordable)
    (creates : Creates storage document) (now : UInt64) (files : UInt64 → Option (List UInt8)) :
    Slot document.id (some (beginDocument storage now document))
      (some ⟨some (manifestBytes (beginDocument storage now document)), files⟩) none := by
  have manifest : some (manifestBytes (beginDocument storage now document)) =
      some (manifestBytes ((beginDocument storage now document).withState .created)) := rfl
  refine .opened rfl (sound_beginDocument recordable creates now) (fun wrong => by cases wrong)
    manifest (Or.inl rfl) fun position record found present => ?_
  have blank : record = .blank := List.eq_of_mem_replicate (List.mem_of_getElem? found)
  rw [blank] at present
  cases present

/-- The contents with the file of a chunk. -/
def Contents.withFile (contents : Contents) (index : UInt64) (data : List UInt8) : Contents :=
  { contents with files := fun other => if other = index then some data else contents.files other }

omit [Sha256] [Lz4] in
/-- A file that the table does not speak of yet changes no slot. -/
theorem backed_withFile {stored : StoredDocument} {contents : Contents}
    (backed : stored.Backed contents.files) {index : UInt64}
    (absent : (stored.chunk index.toNat).present = false) (data : List UInt8) :
    stored.Backed (contents.withFile index data).files := by
  intro position record found present
  have different : UInt64.ofNat position ≠ index := by
    rintro rfl
    have small : position < 2 ^ 64 := by
      have inside := (List.getElem?_eq_some_iff.mp found).1
      rw [stored.sized] at inside
      exact lt_trans inside stored.document.chunkCount.toNat_lt
    rw [UInt64.toNat_ofNat', Nat.mod_eq_of_lt small, StoredDocument.chunk_of_getElem? found,
      present] at absent
    cases absent
  show ((if UInt64.ofNat position = index then some data
    else contents.files (UInt64.ofNat position)) : Option (List UInt8)).map List.length = _
  rw [if_neg different]
  exact backed position record found present

omit [Sha256] [Lz4] in
/-- The file of a received chunk has the recorded size. -/
theorem backed_receive {stored : StoredDocument} {contents : Contents}
    (backed : stored.Backed contents.files) {chunk : CarriedChunk}
    (absent : (stored.chunk chunk.index.toNat).present = false) :
    (stored.receive chunk).Backed (contents.withFile chunk.index chunk.data).files := by
  intro position record found present
  change (stored.chunks.set chunk.index.toNat chunk.record)[position]? = some record at found
  rw [List.getElem?_set] at found
  split at found
  · rename_i same
    split at found
    · cases found
      show ((if UInt64.ofNat position = chunk.index then some chunk.data
        else contents.files (UInt64.ofNat position)) : Option (List UInt8)).map List.length = _
      rw [if_pos (by rw [← same, UInt64.ofNat_toNat]), Option.map_some, chunk.carried]
      rfl
    · cases found
  · exact backed_withFile backed absent chunk.data position record found present

/-! ### Calls on slots -/

/-- What a call does to the slot of its document. -/
structure Acts (session : Session) (call : Call Unit) (id : ObjectID) : Prop where
  about : ∀ step ∈ call.steps, step.id = id
  succeeds : (execute call.steps session.2).2 = .ok ()
  distinct : KeyedList.Distinct StoredDocument.id call.completed.documents
  others : ∀ other, other ≠ id → call.completed.find other = session.1.find other
  slots : ∀ taken, ∃ memory,
    Slot id memory ((execute (call.steps.take taken) session.2).1.contents .pending id)
      ((execute (call.steps.take taken) session.2).1.contents .objects id) ∧
    (call.steps.drop taken ≠ [.publish id] → Keeps (session.1.find id) memory) ∧
    (call.steps.length ≤ taken → memory = call.completed.find id)

/-- A call without steps. -/
theorem Acts.of_reply {session : Session} (settled : Session.Settled session) (id : ObjectID)
    (answer : Except Errno Unit) : Acts session (.reply session.1 answer) id where
  about _ member := by cases member
  succeeds := rfl
  distinct := settled.distinct
  others _ _ := rfl
  slots taken := by
    refine ⟨session.1.find id, ?_, fun _ => Keeps.refl _, fun _ => rfl⟩
    rw [Call.reply, List.take_nil]
    exact settled.slots id

theorem Slot.objects_of_unknown {id : ObjectID} {pending objects : Option Contents}
    (slot : Slot id none pending objects) : objects = none := by
  cases slot with
  | vacant => rfl
  | torn => rfl

/-- The slot of a begin after a prefix of the steps that write its manifest. -/
theorem slot_take_begin {disk : Disk} {storage : Storage} {document : TransferDocument}
    {directory : Directory} (place : disk .pending document.id = some directory)
    (bare : Slot document.id none (some directory.contents) (disk.contents .objects document.id))
    (recordable : document.Recordable) (creates : Creates storage document) (now : UInt64)
    (pid taken : Nat) :
    Slot document.id (if taken < 3 then none else some (beginDocument storage now document))
      ((execute ((writeManifest pid (beginDocument storage now document) .pending).take taken)
        disk).1.contents .pending document.id)
      ((execute ((writeManifest pid (beginDocument storage now document) .pending).take taken)
        disk).1.contents .objects document.id) := by
  have placed : disk .pending (beginDocument storage now document).id = some directory := place
  obtain ⟨pendingAfter, objectsAfter⟩ := contents_take_writeManifest placed pid taken
  change _ = disk.contents .objects document.id at objectsAfter
  rw [bare.objects_of_unknown] at objectsAfter bare
  rw [show document.id = (beginDocument storage now document).id from rfl, pendingAfter,
    objectsAfter]
  split
  · exact bare
  · exact Slot.begun recordable creates now _

/-- A begin. -/
theorem acts_begin {session : Session} (settled : Session.Settled session) (now : UInt64)
    {document : TransferDocument}
    (recordable : Creates session.1 document → document.Recordable) :
    Acts session (storageBegin session.1 now document) document.id := by
  rcases storageBegin_cases session.1 now document with ⟨answer, same, -⟩ | ⟨creates, same⟩
  · rw [same]
    exact Acts.of_reply settled _ answer
  · rw [same]
    have slot := settled.slots document.id
    rw [creates.unknown] at slot
    have objects := slot.objects_of_unknown
    rw [objects] at slot
    have made := DiskStep.apply_makeDirectory session.2 .pending document.id
    refine ⟨?_, ?_, ?_, ?_, fun taken => ?_⟩
    · intro step member
      simp only [writeManifest, List.mem_cons, List.not_mem_nil, or_false] at member
      rcases member with rfl | rfl | rfl | rfl <;> rfl
    · rw [execute_cons made, execute_writeManifest]
    · refine List.pairwise_cons.mpr ⟨fun other member equal => ?_, settled.distinct⟩
      exact KeyedList.lookup_eq_none.mp creates.unknown other member equal.symm
    · intro other different
      rw [Storage.find_insert, if_neg fun equal => different equal.symm]
    · cases taken with
      | zero =>
        refine ⟨none, ?_, fun _ => ?_, fun short => by cases short⟩
        · rw [List.take_zero, execute, objects]
          exact slot
        · rw [creates.unknown]
          exact Keeps.of_none _
      | succ taken =>
        have bare : ((session.2 .pending document.id).getD .empty).contents =
            Contents.made (session.2.contents .pending document.id) := by
          rw [Disk.contents, Contents.made]
          cases session.2 .pending document.id <;> rfl
        have after := slot_take_begin (Disk.set_same session.2 .pending document.id
          (some ((session.2 .pending document.id).getD .empty)))
          (by rw [Disk.contents_set_other_area _ _ (by decide), objects, bare]; exact slot.made)
          (recordable creates) creates now session.1.pid taken
        refine ⟨if taken < 3 then none else some (beginDocument session.1 now document), ?_,
          fun _ => ?_, fun long => ?_⟩
        · rw [List.take_succ_cons, execute_cons made]
          exact after
        · rw [creates.unknown]
          exact Keeps.of_none _
        · simp only [writeManifest, List.length_cons, List.length_nil] at long
          rw [if_neg (by omega), Storage.find_insert,
            if_pos (show (beginDocument session.1 now document).id = document.id from rfl)]

/-- The slot of a document that is being uploaded. -/
structure Opened (disk : Disk) (stored : StoredDocument) (directory : Directory)
    (state : TransferState) : Prop where
  place : disk .pending stored.id = some directory
  free : disk.contents .objects stored.id = none
  sound : stored.Sound
  unfinished : stored.state ≠ .finished
  manifest : directory.contents.manifest = some (manifestBytes (stored.withState state))
  lasting : state = .created ∨ state = .transferring
  backed : stored.Backed directory.contents.files

theorem Session.Settled.opened {session : Session} (settled : Session.Settled session)
    {id : ObjectID} {stored : StoredDocument} (found : session.1.find id = some stored)
    (unfinished : stored.state ≠ .finished) :
    ∃ directory state, Opened session.2 stored directory state := by
  have slot := settled.slots id
  rw [found] at slot
  generalize pendingHeld : session.2.contents .pending id = pending at slot
  generalize objectsHeld : session.2.contents .objects id = objects at slot
  cases slot with
  | @opened _ contents state isId sound _ manifest lasting backed =>
    subst isId
    obtain ⟨directory, place, rfl⟩ := Option.map_eq_some_iff.mp pendingHeld
    exact ⟨directory, state, place, objectsHeld, sound, unfinished, manifest, lasting, backed⟩
  | published _ _ finished => exact absurd finished unfinished

theorem Opened.slot {disk : Disk} {stored : StoredDocument} {directory : Directory}
    {state : TransferState} (opened : Opened disk stored directory state) :
    Slot stored.id (some stored) (disk.contents .pending stored.id)
      (disk.contents .objects stored.id) := by
  rw [opened.free, Disk.contents, opened.place]
  exact .opened rfl opened.sound opened.unfinished opened.manifest opened.lasting opened.backed

/-- The slot of a put after a prefix of the steps that write its manifest. -/
theorem slot_take_put {disk : Disk} {storage : Storage} {stored : StoredDocument}
    {directory : Directory} {state : TransferState} {chunk : CarriedChunk}
    (opened : Opened disk stored directory state) (receives : Receives storage chunk stored)
    (filed : (stored.receive chunk).Backed directory.contents.files) (pid taken : Nat) :
    Slot stored.id (some (if taken < 3 then stored else stored.receive chunk))
      ((execute ((writeManifest pid (stored.receive chunk) .pending).take taken)
        disk).1.contents .pending stored.id)
      ((execute ((writeManifest pid (stored.receive chunk) .pending).take taken)
        disk).1.contents .objects stored.id) := by
  have placed : disk .pending (stored.receive chunk).id = some directory := opened.place
  obtain ⟨pendingAfter, objectsAfter⟩ := contents_take_writeManifest placed pid taken
  change _ = disk.contents .objects stored.id at objectsAfter
  rw [opened.free] at objectsAfter
  rw [show stored.id = (stored.receive chunk).id from rfl, pendingAfter, objectsAfter]
  split
  · exact .opened rfl opened.sound opened.unfinished opened.manifest opened.lasting opened.backed
  · have manifest : some (manifestBytes (stored.receive chunk)) =
        some (manifestBytes ((stored.receive chunk).withState .transferring)) := rfl
    exact .opened rfl (opened.sound.receive receives) (fun wrong => by cases wrong) manifest
      (Or.inr rfl) filed

omit [Sha256] in
/-- A temporary file changes nothing. -/
theorem Opened.withTemporary {disk : Disk} {stored : StoredDocument} {directory : Directory}
    {state : TransferState} (opened : Opened disk stored directory state) {later : Directory}
    (contents : later.contents = directory.contents) :
    Opened (disk.set .pending stored.id (some later)) stored later state := by
  refine ⟨Disk.set_same .., ?_, opened.sound, opened.unfinished, ?_, opened.lasting, ?_⟩
  · rw [Disk.contents_set_other_area _ _ (by decide), opened.free]
  · rw [contents]
    exact opened.manifest
  · rw [contents]
    exact opened.backed

omit [Sha256] in
/-- The directory of a document with the file of a chunk that its table does not speak of yet. -/
theorem Opened.withFile {disk : Disk} {stored : StoredDocument} {directory : Directory}
    {state : TransferState} (opened : Opened disk stored directory state) {chunk : CarriedChunk}
    (absent : (stored.chunk chunk.index.toNat).present = false) {later : Directory}
    (contents : later.contents = directory.contents.withFile chunk.index chunk.data) :
    Opened (disk.set .pending stored.id (some later)) stored later state ∧
      (stored.receive chunk).Backed later.contents.files := by
  refine ⟨⟨Disk.set_same .., ?_, opened.sound, opened.unfinished, ?_, opened.lasting, ?_⟩, ?_⟩
  · rw [Disk.contents_set_other_area _ _ (by decide), opened.free]
  · rw [contents]
    exact opened.manifest
  · rw [contents]
    exact backed_withFile opened.backed absent chunk.data
  · rw [contents]
    exact backed_receive opened.backed absent

omit [Sha256] [Lz4] in
theorem distinct_update {storage : Storage} {stored : StoredDocument}
    (distinct : KeyedList.Distinct StoredDocument.id storage.documents) :
    KeyedList.Distinct StoredDocument.id (storage.update stored).documents := by
  have keys : (storage.update stored).documents.map StoredDocument.id =
      storage.documents.map StoredDocument.id :=
    KeyedList.map_modify StoredDocument.id (fun _ same => same.symm) storage.documents
  unfold KeyedList.Distinct at distinct ⊢
  rw [← List.pairwise_map] at distinct ⊢
  rw [keys]
  exact distinct

omit [Sha256] [Lz4] in
theorem contents_withFile (directory : Directory) (index : UInt64) (pid : Nat)
    (data : List UInt8) :
    ((directory.set (.chunkTemporary index pid) none).set (.chunk index) (some data)).contents =
      directory.contents.withFile index data := by
  refine Contents.ext rfl (funext fun other => ?_)
  simp only [Directory.contents, Contents.withFile, Directory.set_apply, FileName.chunk.injEq,
    reduceCtorEq, if_false]

/-- The slot of a put after a prefix of its steps: the chunk is there when all of them have been
taken. -/
theorem slot_take_receive {disk : Disk} {storage : Storage} {stored : StoredDocument}
    {directory : Directory} {state : TransferState} {chunk : CarriedChunk}
    (opened : Opened disk stored directory state) (receives : Receives storage chunk stored)
    (pid taken : Nat) :
    Slot stored.id (some (if taken < 5 then stored else stored.receive chunk))
      ((execute ((receiveSteps pid stored chunk).take taken) disk).1.contents .pending stored.id)
      ((execute ((receiveSteps pid stored chunk).take taken) disk).1.contents .objects
        stored.id) := by
  cases taken with
  | zero => exact opened.slot
  | succ taken =>
    cases taken with
    | zero =>
      simp only [receiveSteps, List.cons_append, List.take_succ_cons, List.take_zero]
      rw [execute_cons (DiskStep.apply_write opened.place _ _)]
      have temporary : (directory.set (.chunkTemporary chunk.index pid)
          (some chunk.data)).contents = directory.contents := rfl
      exact (opened.withTemporary temporary).slot
    | succ taken =>
      obtain ⟨filled, filed⟩ := opened.withFile receives.absent
        (contents_withFile directory chunk.index pid chunk.data)
      have after := slot_take_put filled receives filed pid taken
      simp only [receiveSteps, List.cons_append, List.nil_append, List.take_succ_cons]
      rw [execute_replace opened.place]
      simp only [Nat.add_lt_add_iff_right (k := 2) (m := 3)]
      exact after

/-- A put. -/
theorem acts_put {session : Session} (settled : Session.Settled session) (chunk : CarriedChunk) :
    Acts session (storagePutChunk session.1 chunk) chunk.id := by
  rcases storagePutChunk_cases session.1 chunk with ⟨answer, same, -⟩ | ⟨stored, receives, same⟩
  · rw [same]
    exact Acts.of_reply settled _ answer
  · rw [same]
    obtain ⟨directory, state, opened⟩ := settled.opened receives.found receives.unfinished
    have isId := Storage.find_id receives.found
    rw [← isId]
    have found := receives.found
    rw [← isId] at found
    have receivedId : (stored.receive chunk).id = stored.id := rfl
    refine ⟨?_, ?_, distinct_update settled.distinct, ?_, fun taken => ?_⟩
    · intro step member
      simp only [receiveSteps, writeManifest, List.cons_append, List.nil_append, List.mem_cons,
        List.not_mem_nil, or_false] at member
      rcases member with rfl | rfl | rfl | rfl | rfl <;> rfl
    · rw [receiveSteps, List.cons_append, List.cons_append, execute_replace opened.place,
        List.nil_append, execute_writeManifest]
    · intro other different
      exact (Storage.find_update found receivedId other).trans (if_neg different)
    · refine ⟨some (if taken < 5 then stored else stored.receive chunk),
        slot_take_receive opened receives session.1.pid taken, fun _ => ?_, fun long => ?_⟩
      · rw [found]
        split
        · exact Keeps.refl _
        · exact Keeps.receive receives.unfinished receives.absent
      · have all : 5 ≤ taken := long
        rw [if_neg (Nat.not_lt.mpr all)]
        exact ((Storage.find_update found receivedId stored.id).trans (if_pos rfl)).symm

/-- The slot of a commit after a prefix of the steps that write its manifest. -/
theorem slot_take_commit {disk : Disk} {stored : StoredDocument} {directory : Directory}
    {state : TransferState} (opened : Opened disk stored directory state) (pid taken : Nat) :
    Slot stored.id (if taken < 3 then some stored else none)
      ((execute ((writeManifest pid (stored.withState .verifying) .pending).take taken)
        disk).1.contents .pending stored.id)
      ((execute ((writeManifest pid (stored.withState .verifying) .pending).take taken)
        disk).1.contents .objects stored.id) := by
  have placed : disk .pending (stored.withState .verifying).id = some directory := opened.place
  obtain ⟨pendingAfter, objectsAfter⟩ := contents_take_writeManifest placed pid taken
  change _ = disk.contents .objects stored.id at objectsAfter
  rw [opened.free] at objectsAfter
  rw [show stored.id = (stored.withState .verifying).id from rfl, pendingAfter, objectsAfter]
  split
  · exact .opened rfl opened.sound opened.unfinished opened.manifest opened.lasting opened.backed
  · exact .torn rfl (opened.sound.withState .verifying) rfl rfl

/-- The slot of a commit after all its steps. -/
theorem slot_published {session : Session} {id : ObjectID} {stored : StoredDocument}
    {content : List UInt8} (publishes : Publishes session.1 session.2 id stored content)
    {directory : Directory} {state : TransferState}
    (opened : Opened session.2 stored directory state) (pid : Nat) :
    ∃ next, execute (writeManifest pid (stored.withState .verifying) .pending ++
        [.publish stored.id]) session.2 = (next, .ok ()) ∧
      Slot stored.id (some (stored.withState .finished)) (next.contents .pending stored.id)
        (next.contents .objects stored.id) := by
  have isId := Storage.find_id publishes.found
  have written := execute_writeManifest pid (stored.withState .verifying) .pending session.2
  rw [show (stored.withState .verifying).id = stored.id from rfl, opened.place, Option.getD_some]
    at written
  have free : (session.2.set .pending stored.id
      (some (directory.written pid (stored.withState .verifying)))) .objects stored.id = none := by
    rw [Disk.set_other_area _ _ (by decide)]
    exact Option.map_eq_none_iff.mp opened.free
  have published := DiskStep.apply_publish (Disk.set_same session.2 .pending stored.id
    (some (directory.written pid (stored.withState .verifying)))) free
  have verified : verifyDocument directory.contents.files (stored.withState .finished) =
      .ok content := by
    have original := publishes.verified
    rw [← isId, Disk.chunks_of_directory opened.place] at original
    exact original
  refine ⟨_, (execute_append written _).trans (execute_cons published []), ?_⟩
  rw [Disk.contents_set, Disk.contents_set_other_area _ _ (by decide), Disk.contents,
    Disk.set_same]
  exact .published rfl (opened.sound.withState .finished) rfl rfl opened.backed
    publishes.complete verified

/-- A commit. -/
theorem acts_commit {session : Session} (settled : Session.Settled session) (id : ObjectID) :
    Acts session ((StorageCall.commit id).plan session) id := by
  rcases storageCommit_cases session.1 session.2 id with
    ⟨answer, same, -⟩ | ⟨stored, code, found, unfinished, same⟩ |
    ⟨stored, content, publishes, same⟩
  · rw [StorageCall.plan, same]
    exact Acts.of_reply settled _ _
  · rw [StorageCall.plan, same]
    obtain ⟨directory, state, opened⟩ := settled.opened found unfinished
    have isId := Storage.find_id found
    subst isId
    have verifyingId : (stored.withState .verifying).id = stored.id := rfl
    refine ⟨?_, rfl, distinct_update settled.distinct, ?_, fun taken => ?_⟩
    · intro step member
      cases member
    · intro other different
      exact (Storage.find_update found verifyingId other).trans (if_neg different)
    · refine ⟨some (stored.withState .verifying), ?_, fun _ => ?_, fun _ => ?_⟩
      · simp only [Call.reply, List.take_nil, execute]
        rw [opened.free, Disk.contents, opened.place]
        exact .opened rfl (opened.sound.withState .verifying) (fun wrong => by cases wrong)
          opened.manifest opened.lasting opened.backed
      · rw [found]
        exact Keeps.withState unfinished _
      · exact ((Storage.find_update found verifyingId stored.id).trans (if_pos rfl)).symm
  · rw [StorageCall.plan, same]
    obtain ⟨directory, state, opened⟩ := settled.opened publishes.found publishes.unfinished
    have found := publishes.found
    have isId := Storage.find_id found
    subst isId
    obtain ⟨next, done, slot⟩ := slot_published publishes opened session.1.pid
    have finishedId : (stored.withState .finished).id = stored.id := rfl
    refine ⟨?_, by rw [done], distinct_update settled.distinct, ?_, fun taken => ?_⟩
    · intro step member
      simp only [writeManifest, List.cons_append, List.nil_append, List.mem_cons,
        List.not_mem_nil, or_false] at member
      rcases member with rfl | rfl | rfl | rfl <;> rfl
    · intro other different
      exact (Storage.find_update found finishedId other).trans (if_neg different)
    · by_cases early : taken ≤ 3
      · have length : taken ≤ (writeManifest session.1.pid (stored.withState .verifying)
            .pending).length := early
        refine ⟨if taken < 3 then some stored else none, ?_, fun whole => ?_, fun long => ?_⟩
        · simp only [List.take_append_of_le_length length]
          exact slot_take_commit opened session.1.pid taken
        · rw [found]
          split
          · exact Keeps.refl _
          · have three : taken = 3 := by omega
            subst three
            exact absurd rfl whole
        · simp only [writeManifest, List.cons_append, List.nil_append, List.length_cons,
            List.length_nil] at long
          omega
      · refine ⟨some (stored.withState .finished), ?_, fun _ => ?_, fun _ => ?_⟩
        · rw [List.take_of_length_le (by simp [writeManifest]; omega), done]
          exact slot
        · rw [found]
          exact Keeps.withState publishes.unfinished _
        · exact ((Storage.find_update found finishedId stored.id).trans (if_pos rfl)).symm

/-! ### Calls and crashes in a session -/

/-- A document that the call creates can be recorded. -/
def StorageCall.Recordable (session : Session) : StorageCall → Prop
  | .begin _ document => Creates session.1 document → document.Recordable
  | .put _ => True
  | .commit _ => True

/-- Every call acts on the slot of one document. -/
theorem acts_plan {session : Session} (settled : Session.Settled session) {request : StorageCall}
    (recordable : request.Recordable session) : ∃ id, Acts session (request.plan session) id := by
  cases request with
  | begin now document => exact ⟨_, acts_begin settled now recordable⟩
  | put chunk => exact ⟨_, acts_put settled chunk⟩
  | commit id => exact ⟨_, acts_commit settled id⟩

omit [Sha256] [Lz4] in
theorem contents_execute_other {steps : List DiskStep} {id other : ObjectID}
    (about : ∀ step ∈ steps, step.id = id) (different : other ≠ id) (area : Area) (disk : Disk) :
    (execute steps disk).1.contents area other = disk.contents area other := by
  have untouched : ∀ step ∈ steps, other ≠ step.id := by
    intro step member
    rw [about step member]
    exact different
  rw [Disk.contents, Disk.contents, execute_other untouched]

/-- A call runs to its end, keeps the invariant and loses nothing. -/
theorem Acts.run {session : Session} (settled : Session.Settled session) {call : Call Unit}
    {id : ObjectID} (acts : Acts session call id) :
    (call.run session.2).2 = call.answer ∧ (call.run session.2).1.1 = call.completed ∧
      Session.Settled (call.run session.2).1 ∧
      ∀ other, Keeps (session.1.find other) (call.completed.find other) := by
  have taken : execute call.steps session.2 = ((execute call.steps session.2).1, .ok ()) :=
    Prod.ext rfl acts.succeeds
  obtain ⟨memory, slot, keeps, same⟩ := acts.slots call.steps.length
  rw [List.take_length, same le_rfl] at slot
  rw [Call.run_of_execute taken]
  refine ⟨rfl, rfl, ⟨acts.distinct, fun other => ?_⟩, fun other => ?_⟩
  · by_cases isId : other = id
    · subst isId
      exact slot
    · simp only [contents_execute_other acts.about isId, acts.others other isId]
      exact settled.slots other
  · by_cases isId : other = id
    · subst isId
      rw [← same le_rfl]
      refine keeps ?_
      rw [List.drop_length]
      exact (List.cons_ne_nil _ _).symm
    · rw [acts.others other isId]
      exact Keeps.refl _

/-- A crash does not fall between the two renames of a commit. -/
def Whole (session : Session) (request : StorageCall) (taken : Nat) : Prop :=
  ∀ id, (request.plan session).steps.drop taken ≠ [.publish id]

/-- The tree that a crash leaves is sane, and what it gives back has lost nothing, unless the crash
falls between the two renames of a commit. -/
theorem surviving_sane {session : Session} (settled : Session.Settled session)
    {request : StorageCall} (recordable : request.Recordable session) (taken : Nat) :
    (surviving session request taken).Sane ∧ (Whole session request taken →
      ∀ id, Keeps (session.1.find id) (recovered (surviving session request taken) id)) := by
  obtain ⟨acted, acts⟩ := acts_plan settled recordable
  have about : ∀ step ∈ (request.plan session).steps.take taken, step.id = acted :=
    fun step member => acts.about step (List.mem_of_mem_take member)
  obtain ⟨memory, slot, keeps, -⟩ := acts.slots taken
  have others : ∀ other, other ≠ acted → Slot other (session.1.find other)
      ((surviving session request taken).contents .pending other)
      ((surviving session request taken).contents .objects other) := by
    intro other different
    rw [surviving, contents_execute_other about different, contents_execute_other about different]
    exact settled.slots other
  constructor
  · intro other
    by_cases isActed : other = acted
    · subst isActed
      exact ⟨memory, slot⟩
    · exact ⟨_, others other isActed⟩
  · intro whole other
    by_cases isActed : other = acted
    · subst isActed
      exact (keeps (whole other)).trans (Keeps.of_resembles (Slot.load slot).resembles)
    · exact Keeps.of_resembles (others other isActed).load.resembles

end Steps

end SuperPeerNet
