/-
This file proves that the cache is transparent, for any number of reads that run at the
same time.

A machine holds a session, a cache or none, and the calls of `storage_read_chunk`
under way, each under a ticket of its own. It is scheduled from outside: an action is
one section of one read, a change of the capacity, or an upload or commit. The latter
are single actions: what they do between two sections concerns documents that no read
can see yet. An action that is not possible does nothing, so every sequence of actions
is a schedule, and the machine with a cache and the machine without one can be given
the same schedule.

Both machines agree on the outcome of every read, the answer that it gives when it is
run to its end. The cache holds only copies of published chunks, and published chunks
never change.
-/

import SuperPeerNet.Storage.Published

namespace SuperPeerNet

/-! ### The machine -/

/-- A storage with the reads that are under way. -/
structure Machine where
  session : Session
  cache : Option Cache
  reads : Nat → Option ChunkRead

/-- What a schedule consists of. -/
inductive MachineAction where
  | call (request : StorageCall)
  | setCapacity (capacityBytes : UInt64)
  /-- The first section of a new read. -/
  | look (ticket : Nat) (id : ObjectID) (index : UInt64)
  /-- The access to the file. -/
  | fetch (ticket : Nat)
  /-- The second section. -/
  | store (ticket : Nat)

/-- The first section of `storage_read_chunk` when there is no cache. -/
def plainSection (storage : Storage) (id : ObjectID) (index : UInt64) : ChunkRead :=
  match publishedChunk storage id index with
  | .error code => .answered (.error code)
  | .ok record => .opening id index record

/-- The end of `storage_read_chunk` when there is no cache. -/
def plainEnd : ChunkRead → ChunkRead
  | .storing id _ record data => .answered (.ok (record.filled id data))
  | reading => reading

namespace Machine

/-- A machine with the default cache. -/
def withCache (session : Session) : Machine := ⟨session, some .initial, fun _ => none⟩

/-- A machine without a cache. -/
def withoutCache (session : Session) : Machine := ⟨session, none, fun _ => none⟩

/-- Write the state of a read. -/
def setRead (machine : Machine) (ticket : Nat) (reading : ChunkRead) : Machine :=
  { machine with
    reads := fun other => if other = ticket then some reading else machine.reads other }

/-- The first section of a read. -/
def look (machine : Machine) (ticket : Nat) (id : ObjectID) (index : UInt64) : Machine :=
  match machine.cache with
  | none => machine.setRead ticket (plainSection machine.session.1 id index)
  | some cache =>
    let looked := readSection machine.session.1 cache id index
    { machine with cache := some looked.1 }.setRead ticket looked.2

/-- The second section of a read. -/
def store (machine : Machine) (ticket : Nat) (reading : ChunkRead) : Machine :=
  match machine.cache with
  | none => machine.setRead ticket (plainEnd reading)
  | some cache =>
    let stored := storeSection cache reading
    { machine with cache := some stored.1 }.setRead ticket stored.2

/-- Take an action. -/
def step [Sha256] [Lz4] (machine : Machine) : MachineAction → Machine
  | .call request =>
    { machine with session := ((request.plan machine.session).run machine.session.2).1 }
  | .setCapacity capacityBytes =>
    { machine with cache := machine.cache.map (storageSetCacheCapacity · capacityBytes) }
  | .look ticket id index =>
    match machine.reads ticket with
    | some _ => machine
    | none => machine.look ticket id index
  | .fetch ticket =>
    match machine.reads ticket with
    | none => machine
    | some reading => machine.setRead ticket (readFile machine.session.2 reading)
  | .store ticket =>
    match machine.reads ticket with
    | none => machine
    | some reading => machine.store ticket reading

/-- Follow a schedule. -/
def run [Sha256] [Lz4] (machine : Machine) (actions : List MachineAction) : Machine :=
  actions.foldl step machine

end Machine

/-- The answer that a read gives when it is run to its end. -/
def ChunkRead.outcome (disk : Disk) : ChunkRead → Except Errno TransferChunk
  | .opening id index record => fetchChunk disk id index record
  | .storing id _ record data => .ok (record.filled id data)
  | .answered answer => answer

/-! ### The storage as its readers see it -/

/-- A session with the answers of the reads that have begun, each of them decided at once. -/
@[ext] structure Ledger where
  session : Session
  answers : Nat → Option (Except Errno TransferChunk)

/-- Write down an answer. -/
def Ledger.write (ledger : Ledger) (ticket : Nat) (answer : Except Errno TransferChunk) : Ledger :=
  { ledger with
    answers := fun other => if other = ticket then some answer else ledger.answers other }

theorem Ledger.write_self {ledger : Ledger} {ticket : Nat} {answer : Except Errno TransferChunk}
    (known : ledger.answers ticket = some answer) : ledger.write ticket answer = ledger := by
  refine Ledger.ext rfl (funext fun other => ?_)
  show (if other = ticket then some answer else ledger.answers other) = ledger.answers other
  split
  · rename_i isTicket
    rw [isTicket, known]
  · rfl

/-- An action, as the readers see it: only the calls and the first sections do something. -/
def Ledger.step [Sha256] [Lz4] (ledger : Ledger) : MachineAction → Ledger
  | .call request =>
    { ledger with session := ((request.plan ledger.session).run ledger.session.2).1 }
  | .look ticket id index =>
    match ledger.answers ticket with
    | some _ => ledger
    | none => ledger.write ticket (readChunk ledger.session.1 ledger.session.2 id index)
  | .setCapacity _ => ledger
  | .fetch _ => ledger
  | .store _ => ledger

/-- The outcomes of the reads of a machine. -/
def Machine.ledger (machine : Machine) : Ledger where
  session := machine.session
  answers ticket := (machine.reads ticket).map (ChunkRead.outcome machine.session.2)

theorem Machine.ledger_answers (machine : Machine) (ticket : Nat) :
    machine.ledger.answers ticket =
      (machine.reads ticket).map (ChunkRead.outcome machine.session.2) := rfl

/-! ### Sections keep the outcome -/

theorem outcome_readFile (disk : Disk) (reading : ChunkRead) :
    (readFile disk reading).outcome disk = reading.outcome disk := by
  cases reading with
  | opening id index record =>
    rw [readFile, ChunkRead.outcome, fetchChunk]
    cases readAll (disk.chunks .objects id index) record.compressedSize.toNat with
    | error code => rfl
    | ok data => rfl
  | storing id index record data => rfl
  | answered answer => rfl

theorem outcome_storeSection (disk : Disk) (cache : Cache) (reading : ChunkRead) :
    (storeSection cache reading).2.outcome disk = reading.outcome disk := by
  cases reading <;> rfl

theorem outcome_plainEnd (disk : Disk) (reading : ChunkRead) :
    (plainEnd reading).outcome disk = reading.outcome disk := by
  cases reading <;> rfl

theorem outcome_plainSection (storage : Storage) (disk : Disk) (id : ObjectID) (index : UInt64) :
    (plainSection storage id index).outcome disk = readChunk storage disk id index := by
  unfold plainSection readChunk
  cases publishedChunk storage id index <;> rfl

/-- The sections after the first give the outcome. -/
theorem storeSection_readFile (disk : Disk) (cache : Cache) (reading : ChunkRead) :
    (storeSection cache (readFile disk reading)).2 = .answered (reading.outcome disk) := by
  cases reading with
  | opening id index record =>
    rw [readFile, ChunkRead.outcome, fetchChunk]
    cases readAll (disk.chunks .objects id index) record.compressedSize.toNat with
    | error code => rfl
    | ok data => rfl
  | storing id index record data => rfl
  | answered answer => rfl

@[inherit_doc storeSection_readFile]
theorem plainEnd_readFile (disk : Disk) (reading : ChunkRead) :
    plainEnd (readFile disk reading) = .answered (reading.outcome disk) := by
  rw [← storeSection_readFile disk .initial reading]
  cases readFile disk reading <;> rfl

/-! ### Copies of published chunks -/

/-- An entry of the cache is a copy of a published chunk. -/
def CacheEntry.Faithful (session : Session) (entry : CacheEntry) : Prop :=
  publishedChunk session.1 entry.id entry.index = .ok entry.chunk ∧
    readAll (session.2.chunks .objects entry.id entry.index) entry.chunk.compressedSize.toNat =
      .ok entry.data

/-- What a read carries from one section to the next is true. -/
def ChunkRead.Current (session : Session) : ChunkRead → Prop
  | .opening id index record => publishedChunk session.1 id index = .ok record
  | .storing id index record data => publishedChunk session.1 id index = .ok record ∧
    readAll (session.2.chunks .objects id index) record.compressedSize.toNat = .ok data
  | .answered _ => True

/-- A copy gives the answer of a read without a cache. -/
theorem CacheEntry.Faithful.readChunk {session : Session} {entry : CacheEntry}
    (faithful : entry.Faithful session) :
    SuperPeerNet.readChunk session.1 session.2 entry.id entry.index =
      .ok (entry.chunk.filled entry.id entry.data) := by
  rw [SuperPeerNet.readChunk, faithful.1]
  simp only
  rw [fetchChunk, faithful.2]

/-! ### Sections keep what is known -/

/-- Faithfulness does not depend on how often and when an entry has been used. -/
theorem CacheEntry.Faithful.touch {session : Session} {entry : CacheEntry}
    (faithful : entry.Faithful session) (now : UInt64) : (entry.touch now).Faithful session :=
  faithful

theorem readSection_faithful {session : Session} {cache : Cache}
    (faithful : ∀ entry ∈ cache.list, entry.Faithful session) (id : ObjectID) (index : UInt64) :
    ∀ entry ∈ (readSection session.1 cache id index).1.list, entry.Faithful session := by
  unfold readSection
  cases publishedChunk session.1 id index with
  | error code => exact faithful
  | ok record =>
    simp only
    cases cacheFind cache id index with
    | none => exact faithful
    | some cached =>
      intro entry member
      rcases KeyedList.mem_modify member with old | ⟨old, found, rfl⟩
      · exact faithful entry old
      · exact (faithful old (KeyedList.lookup_mem found)).touch _

theorem readSection_current {session : Session} {cache : Cache} (id : ObjectID) (index : UInt64) :
    (readSection session.1 cache id index).2.Current session := by
  unfold readSection
  cases looked : publishedChunk session.1 id index with
  | error code => trivial
  | ok record =>
    simp only
    cases cacheFind cache id index with
    | none => exact looked
    | some cached => trivial

theorem plainSection_current {session : Session} (id : ObjectID) (index : UInt64) :
    (plainSection session.1 id index).Current session := by
  unfold plainSection
  cases looked : publishedChunk session.1 id index with
  | error code => trivial
  | ok record => exact looked

theorem readFile_current {session : Session} {reading : ChunkRead}
    (current : reading.Current session) : (readFile session.2 reading).Current session := by
  cases reading with
  | opening id index record =>
    rw [readFile]
    cases read : readAll (session.2.chunks .objects id index) record.compressedSize.toNat with
    | error code => trivial
    | ok data => exact ⟨current, read⟩
  | storing id index record data => exact current
  | answered answer => trivial

theorem storeSection_current {session : Session} {cache : Cache} {reading : ChunkRead}
    (current : reading.Current session) :
    (storeSection cache reading).2.Current session := by
  cases reading with
  | opening id index record => exact current
  | storing id index record data => trivial
  | answered answer => trivial

theorem plainEnd_current {session : Session} {reading : ChunkRead}
    (current : reading.Current session) : (plainEnd reading).Current session := by
  cases reading with
  | opening id index record => exact current
  | storing id index record data => trivial
  | answered answer => trivial

/-- The answer of a hit is that of a read without a cache. -/
theorem outcome_readSection {session : Session} {cache : Cache}
    (faithful : ∀ entry ∈ cache.list, entry.Faithful session) (id : ObjectID) (index : UInt64) :
    (readSection session.1 cache id index).2.outcome session.2 =
      readChunk session.1 session.2 id index := by
  unfold readSection
  cases looked : publishedChunk session.1 id index with
  | error code =>
    rw [readChunk, looked]
    rfl
  | ok record =>
    simp only
    cases found : cacheFind cache id index with
    | none =>
      rw [readChunk, looked]
      rfl
    | some cached =>
      have copy := (faithful cached (KeyedList.lookup_mem found)).readChunk
      have isKey : cached.key = (id, index) := KeyedList.lookup_key found
      obtain ⟨isId, isIndex⟩ := Prod.mk.inj isKey
      rw [isId, isIndex] at copy
      exact copy.symm

section Readers

variable [Sha256] [Lz4]

/-! ### Calls keep what is known -/

/-- The invariant of machines. -/
structure Machine.Truthful (machine : Machine) : Prop where
  settled : Session.Settled machine.session
  faithful : ∀ cache, machine.cache = some cache →
    ∀ entry ∈ cache.list, entry.Faithful machine.session
  current : ∀ ticket reading, machine.reads ticket = some reading →
    reading.Current machine.session

/-- The record of a published chunk carries its index and a positive size. -/
theorem Session.Settled.record {session : Session} (settled : Session.Settled session)
    {id : ObjectID} {index : UInt64} {record : StoredChunk}
    (known : publishedChunk session.1 id index = .ok record) :
    record.index = index ∧ record.compressedSize ≠ 0 := by
  obtain ⟨stored, found, finished, inside, rfl⟩ := publishedChunk_ok known
  have there : stored.chunks[index.toNat]? = some (stored.chunk index.toNat) :=
    StoredDocument.getElem?_of_inside (UInt64.lt_iff_toNat_lt.mp inside)
  obtain ⟨contents, shelved⟩ := settled.shelved found finished
  have present := shelved.complete _ (List.mem_of_getElem? there)
  rcases shelved.sound.records _ _ there with blank | fits
  · rw [blank] at present
    cases present
  · refine ⟨?_, fun zero => ?_⟩
    · rw [fits.number, UInt64.ofNat_toNat]
    · have bound := fits.bound
      rw [zero, withinBound] at bound
      split at bound
      · cases bound
      · cases bound

/-- A call keeps what is known of a published chunk. -/
theorem Session.Settled.call {session : Session} (settled : Session.Settled session)
    {request : StorageCall} (admits : request.Admits) :
    Session.Settled ((request.plan session).run session.2).1 ∧
      ∀ id index record, publishedChunk session.1 id index = .ok record →
        publishedChunk ((request.plan session).run session.2).1.1 id index = .ok record ∧
        ((request.plan session).run session.2).1.2.chunks .objects id =
          session.2.chunks .objects id := by
  have stepped : sessionStep session (.call request) =
      some ((request.plan session).run session.2).1 := rfl
  have admissible : (StorageAction.call request).Admissible session := ⟨trivial, admits⟩
  obtain ⟨settledNext, kept⟩ := settled.step admissible stepped
  refine ⟨settledNext, fun id index record known => ?_⟩
  obtain ⟨stored, found, finished, inside, rfl⟩ := publishedChunk_ok known
  obtain ⟨foundNext, same⟩ := kept id stored found finished
  constructor
  · rw [publishedChunk, foundNext]
    simp only
    rw [if_neg]
    rw [not_or, not_not, ge_iff_le, UInt64.not_le]
    exact ⟨finished, inside⟩
  · funext other
    rw [Disk.chunks, Disk.file, same]
    rfl

/-- What the second section stores is a copy of a published chunk. -/
theorem storeSection_faithful {session : Session} (settled : Session.Settled session)
    {cache : Cache} (faithful : ∀ entry ∈ cache.list, entry.Faithful session) {reading : ChunkRead}
    (current : reading.Current session) :
    ∀ entry ∈ (storeSection cache reading).1.list, entry.Faithful session := by
  cases reading with
  | opening id index record => exact faithful
  | answered answer => exact faithful
  | storing id index record data =>
    rw [storeSection]
    intro entry member
    rcases cacheStore_cases cache id record data with sublist | ⟨evicted, sublist, inserted⟩
    · exact faithful entry (sublist.subset member)
    · rw [inserted] at member
      rcases List.mem_cons.mp member with rfl | old
      · -- The entry is stored under the index in its record.
        have index := (settled.record current.1).1
        show publishedChunk session.1 id record.index = .ok record ∧
          readAll (session.2.chunks .objects id record.index) record.compressedSize.toNat = .ok data
        rw [index]
        exact current
      · exact faithful entry (sublist.subset old)

/-- A call keeps what a read carries, and its outcome. -/
theorem ChunkRead.Current.call {session : Session} {reading : ChunkRead}
    (current : reading.Current session) (settled : Session.Settled session)
    {request : StorageCall} (admits : request.Admits) :
    reading.Current ((request.plan session).run session.2).1 ∧
      reading.outcome ((request.plan session).run session.2).1.2 = reading.outcome session.2 := by
  obtain ⟨-, kept⟩ := settled.call admits
  cases reading with
  | opening id index record =>
    obtain ⟨known, same⟩ := kept id index record current
    refine ⟨known, ?_⟩
    rw [ChunkRead.outcome, ChunkRead.outcome, fetchChunk, fetchChunk, same]
  | storing id index record data =>
    obtain ⟨known, same⟩ := kept id index record current.1
    refine ⟨⟨known, ?_⟩, rfl⟩
    rw [same]
    exact current.2
  | answered answer => exact ⟨trivial, rfl⟩

theorem CacheEntry.Faithful.call {session : Session} {entry : CacheEntry}
    (faithful : entry.Faithful session) (settled : Session.Settled session)
    {request : StorageCall} (admits : request.Admits) :
    entry.Faithful ((request.plan session).run session.2).1 := by
  obtain ⟨known, same⟩ := (settled.call admits).2 _ _ _ faithful.1
  refine ⟨known, ?_⟩
  rw [same]
  exact faithful.2

/-! ### Machines refine the ledger -/

namespace Machine

omit [Sha256] [Lz4] in
theorem ledger_setRead (machine : Machine) (ticket : Nat) (reading : ChunkRead) :
    (machine.setRead ticket reading).ledger =
      machine.ledger.write ticket (reading.outcome machine.session.2) := by
  refine Ledger.ext rfl (funext fun other => ?_)
  show (if other = ticket then some reading else machine.reads other).map
      (ChunkRead.outcome machine.session.2) =
    if other = ticket then some (reading.outcome machine.session.2)
    else (machine.reads other).map (ChunkRead.outcome machine.session.2)
  split <;> rfl

omit [Sha256] [Lz4] in
/-- A read that moves on and keeps its outcome changes nothing that readers see. -/
theorem ledger_setRead_of_outcome {machine : Machine} {ticket : Nat} {old reading : ChunkRead}
    (found : machine.reads ticket = some old)
    (same : reading.outcome machine.session.2 = old.outcome machine.session.2) :
    (machine.setRead ticket reading).ledger = machine.ledger := by
  rw [ledger_setRead, same]
  refine Ledger.write_self ?_
  rw [ledger_answers, found]
  rfl

theorem Truthful.setRead {machine : Machine} (truthful : machine.Truthful) {reading : ChunkRead}
    (current : reading.Current machine.session) (ticket : Nat) :
    (machine.setRead ticket reading).Truthful := by
  refine ⟨truthful.settled, truthful.faithful, fun other held found => ?_⟩
  change (if other = ticket then some reading else machine.reads other) = some held at found
  split at found
  · cases found
    exact current
  · exact truthful.current other held found

theorem Truthful.withCache {machine : Machine} (truthful : machine.Truthful) {cache : Cache}
    (faithful : ∀ entry ∈ cache.list, entry.Faithful machine.session) :
    Truthful { machine with cache := some cache } := by
  refine ⟨truthful.settled, fun other same => ?_, truthful.current⟩
  cases same
  exact faithful

/-- The first section of a read decides its answer. -/
theorem Truthful.look {machine : Machine} (truthful : machine.Truthful) (ticket : Nat)
    (id : ObjectID) (index : UInt64) :
    (machine.look ticket id index).Truthful ∧
      (machine.look ticket id index).ledger = machine.ledger.write ticket
        (readChunk machine.session.1 machine.session.2 id index) := by
  unfold Machine.look
  cases held : machine.cache with
  | none =>
    simp only
    refine ⟨truthful.setRead (plainSection_current id index) ticket, ?_⟩
    rw [ledger_setRead, outcome_plainSection]
  | some cache =>
    simp only
    have faithful := truthful.faithful cache held
    refine ⟨(truthful.withCache (readSection_faithful faithful id index)).setRead
      (readSection_current id index) ticket, ?_⟩
    rw [ledger_setRead, outcome_readSection faithful]
    rfl

/-- The second section of a read keeps its outcome. -/
theorem Truthful.store {machine : Machine} (truthful : machine.Truthful) {ticket : Nat}
    {reading : ChunkRead} (found : machine.reads ticket = some reading) :
    (machine.store ticket reading).Truthful ∧
      (machine.store ticket reading).ledger = machine.ledger := by
  have current := truthful.current ticket reading found
  unfold Machine.store
  cases held : machine.cache with
  | none =>
    simp only
    exact ⟨truthful.setRead (plainEnd_current current) ticket,
      ledger_setRead_of_outcome found (outcome_plainEnd _ reading)⟩
  | some cache =>
    simp only
    have faithful := storeSection_faithful truthful.settled (truthful.faithful cache held) current
    refine ⟨(truthful.withCache faithful).setRead (storeSection_current current) ticket, ?_⟩
    let stored : Machine := { machine with cache := some (storeSection cache reading).1 }
    have held : stored.reads ticket = some reading := found
    exact ledger_setRead_of_outcome held (outcome_storeSection _ cache reading)

end Machine

/-- The calls of a schedule are those that a peer can cause. -/
def MachineAction.Admits : MachineAction → Prop
  | .call request => request.Admits
  | .setCapacity _ => True
  | .look .. => True
  | .fetch _ => True
  | .store _ => True

/-- Every action keeps the invariant, and does what the readers see. -/
theorem Machine.Truthful.step {machine : Machine} (truthful : machine.Truthful)
    {action : MachineAction} (admits : action.Admits) :
    (machine.step action).Truthful ∧
      (machine.step action).ledger = machine.ledger.step action := by
  cases action with
  | call request =>
    constructor
    · exact ⟨(truthful.settled.call admits).1,
        fun cache held entry member =>
          (truthful.faithful cache held entry member).call truthful.settled admits,
        fun ticket reading found =>
          ((truthful.current ticket reading found).call truthful.settled admits).1⟩
    · refine Ledger.ext rfl (funext fun ticket => ?_)
      show (machine.reads ticket).map _ = (machine.reads ticket).map _
      cases found : machine.reads ticket with
      | none => rfl
      | some reading =>
        exact congrArg some
          ((truthful.current ticket reading found).call truthful.settled admits).2
  | setCapacity capacityBytes =>
    refine ⟨⟨truthful.settled, fun cache held => ?_, truthful.current⟩, rfl⟩
    obtain ⟨old, isOld, rfl⟩ := Option.map_eq_some_iff.mp held
    intro entry member
    exact truthful.faithful old isOld entry
      ((storageSetCacheCapacity_sublist old capacityBytes).subset member)
  | look ticket id index =>
    have decided := truthful.look ticket id index
    rw [Machine.step, Ledger.step]
    cases found : machine.reads ticket with
    | none =>
      have unanswered : machine.ledger.answers ticket = none := by
        rw [Machine.ledger_answers, found]
        rfl
      rw [unanswered]
      exact decided
    | some reading =>
      have answered : machine.ledger.answers ticket =
          some (reading.outcome machine.session.2) := by
        rw [Machine.ledger_answers, found]
        rfl
      rw [answered]
      exact ⟨truthful, rfl⟩
  | fetch ticket =>
    rw [Machine.step, Ledger.step]
    cases found : machine.reads ticket with
    | none => exact ⟨truthful, rfl⟩
    | some reading =>
      exact ⟨truthful.setRead (readFile_current (truthful.current ticket reading found)) ticket,
        Machine.ledger_setRead_of_outcome found (outcome_readFile _ reading)⟩
  | store ticket =>
    rw [Machine.step, Ledger.step]
    cases found : machine.reads ticket with
    | none => exact ⟨truthful, rfl⟩
    | some reading => exact truthful.store found

/-- A machine follows a schedule as the readers see it. -/
theorem Machine.Truthful.run {machine : Machine} (truthful : machine.Truthful)
    {actions : List MachineAction} (admits : ∀ action ∈ actions, action.Admits) :
    (machine.run actions).Truthful ∧
      (machine.run actions).ledger = actions.foldl Ledger.step machine.ledger := by
  induction actions generalizing machine with
  | nil => exact ⟨truthful, rfl⟩
  | cons action rest inductionHypothesis =>
    obtain ⟨first, later⟩ := List.forall_mem_cons.mp admits
    obtain ⟨next, stepped⟩ := truthful.step first
    obtain ⟨final, followed⟩ := inductionHypothesis next later
    refine ⟨final, ?_⟩
    rw [List.foldl_cons, ← stepped]
    exact followed

/-! ### The cache is transparent -/

theorem Machine.run_append (machine : Machine) (first second : List MachineAction) :
    machine.run (first ++ second) = (machine.run first).run second :=
  List.foldl_append

/-- A read that is run to its end gives its outcome. -/
theorem Machine.run_to_end (machine : Machine) (ticket : Nat) :
    (machine.run [.fetch ticket, .store ticket]).reads ticket =
      (machine.ledger.answers ticket).map .answered := by
  rw [ledger_answers]
  show (step (step machine (.fetch ticket)) (.store ticket)).reads ticket = _
  cases found : machine.reads ticket with
  | none =>
    have idle : step machine (.fetch ticket) = machine := by rw [step, found]
    rw [idle, step, found]
    exact found
  | some reading =>
    have fetched : step machine (.fetch ticket) =
        machine.setRead ticket (readFile machine.session.2 reading) := by rw [step, found]
    have held : (machine.setRead ticket (readFile machine.session.2 reading)).reads ticket =
        some (readFile machine.session.2 reading) := if_pos rfl
    rw [fetched, step, held]
    simp only [Option.map_some]
    unfold store
    cases (machine.setRead ticket (readFile machine.session.2 reading)).cache with
    | none =>
      rw [← plainEnd_readFile]
      exact if_pos rfl
    | some cache =>
      rw [← storeSection_readFile machine.session.2 cache]
      exact if_pos rfl

theorem truthful_withCache {session : Session} (settled : Session.Settled session) :
    (Machine.withCache session).Truthful := by
  refine ⟨settled, fun cache held => ?_, fun _ _ wrong => by cases wrong⟩
  cases held
  intro entry absent
  cases absent

theorem truthful_withoutCache {session : Session} (settled : Session.Settled session) :
    (Machine.withoutCache session).Truthful :=
  ⟨settled, (fun _ wrong => by cases wrong), (fun _ _ wrong => by cases wrong)⟩

/-- Whatever the schedule, every read of the machine with a cache gives the answer that it gives
under the same schedule without a cache, and the other way round. -/
theorem cache_transparent {owner : NodeID} {pid : Nat} {session : Session}
    (reached : Transition.Reaches sessionStep StorageAction.Admissible
      (⟨owner, pid, []⟩, Disk.empty) session)
    {actions : List MachineAction} (admits : ∀ action ∈ actions, action.Admits) :
    ((Machine.withCache session).run actions).session =
        ((Machine.withoutCache session).run actions).session ∧
      ∀ (ticket : Nat) (answer : Except Errno TransferChunk),
        (((Machine.withCache session).run actions).reads ticket = some (.answered answer) →
          ((Machine.withoutCache session).run (actions ++ [.fetch ticket, .store ticket])).reads
            ticket = some (.answered answer)) ∧
        (((Machine.withoutCache session).run actions).reads ticket = some (.answered answer) →
          ((Machine.withCache session).run (actions ++ [.fetch ticket, .store ticket])).reads
            ticket = some (.answered answer)) := by
  have settled := settled_of_reaches (settled_empty owner pid) reached
  have same : ((Machine.withCache session).run actions).ledger =
      ((Machine.withoutCache session).run actions).ledger :=
    ((truthful_withCache settled).run admits).2.trans
      ((truthful_withoutCache settled).run admits).2.symm
  refine ⟨congrArg Ledger.session same, fun ticket answer => ⟨fun answered => ?_,
    fun answered => ?_⟩⟩
  · rw [Machine.run_append, Machine.run_to_end, ← same, Machine.ledger_answers, answered]
    rfl
  · rw [Machine.run_append, Machine.run_to_end, same, Machine.ledger_answers, answered]
    rfl

end Readers

/-- The schedule of two reads of the letter: the second one is a hit, unless there is no cache. -/
def letterReads : List MachineAction :=
  [.look 0 letterDocument.id 0, .fetch 0, .store 0, .look 1 letterDocument.id 0]

theorem letterReads_admits : ∀ action ∈ letterReads, action.Admits := by
  intro action member
  simp only [letterReads, List.mem_cons, List.not_mem_nil, or_false] at member
  rcases member with rfl | rfl | rfl | rfl <;> trivial

/-- The letter is read twice, with a cache and without one. -/
theorem cache_transparent_letter :
    letI := Sha256.reference
    letI := Lz4.reference
    ((Machine.withCache letterPublished).run letterReads).reads 1 =
        some (.answered (.ok letterChunk.toTransferChunk)) ∧
      ((Machine.withoutCache letterPublished).run letterReads).reads 1 =
        some (.opening letterDocument.id 0 letterChunk.record) ∧
      ((Machine.withoutCache letterPublished).run (letterReads ++ [.fetch 1, .store 1])).reads 1 =
        some (.answered (.ok letterChunk.toTransferChunk)) := by
  let sha256 := Sha256.reference
  let lz4 := Lz4.reference
  obtain ⟨hit, missed⟩ : ((Machine.withCache letterPublished).run letterReads).reads 1 =
        some (.answered (.ok letterChunk.toTransferChunk)) ∧
      ((Machine.withoutCache letterPublished).run letterReads).reads 1 =
        some (.opening letterDocument.id 0 letterChunk.record) := by decide +kernel
  have transparent := cache_transparent letterPublished_reached letterReads_admits
  exact ⟨hit, missed, (transparent.2 1 _).1 hit⟩

end SuperPeerNet
