/-
This file proves the representation invariant of a log over everything that writes one:
the five calls on an open log and `c4_log_open` on any two files that it accepts.

The journal of a file may list its `PREPARE` records in an order that no live log
writes, so the pending indices of an opened log need not ascend. What the loader does
enforce is that a pending row either carries a committed entry or lies beyond the end
of the log, and that two pending rows never share an index. The 64-bit arithmetic of
the expected index is again the delicate point: a pending row at the largest index
makes it wrap, which a journal of representable size cannot reach.
-/

import Mathlib.Data.List.Pairwise
import SuperPeerNet.Log.Restart

namespace SuperPeerNet

section Representation

variable [Zlib]

/-! ### The property -/

namespace C4Log

/-- The representation invariant as the calls on a log promise it. -/
structure Represented (log : C4Log) : Prop where
  numbered : ∀ position entry, log.entries[position]? = some entry →
    entry.index.toNat = position + 1 ∧ entry.version.toNat = position + 1
  distinct : log.entries.Pairwise fun first second => first.transactionId ≠ second.transactionId
  intact : ∀ entry ∈ log.entries,
    entry.checksum = c4LogEntryChecksum entry ∧ entry.payload.length ≤ maxPayloadSize
  pendingVersion : ∀ row ∈ log.transactions, row.state = .prepared →
    row.entry.version = row.entry.index
  pendingDistinct : log.transactions.Pairwise fun first second =>
    first.state = .prepared → second.state = .prepared → first.entry.index ≠ second.entry.index

/-- A call on an open log. -/
inductive Operation where
  | call (call : LogCall)
  | append (id : TransactionId) (version : UInt64) (payload : List UInt8)

/-- The log after a call, whatever the call returns. -/
def act (log : C4Log) : Operation → C4Log
  | .call call => log.perform call
  | .append id version payload => (c4LogAppend log id version payload).1

/-- The logs that calls lead to from any two files that `c4_log_open` accepts. The size of a file
is a signed 64-bit number. -/
inductive Reachable : C4Log → Prop
  | opened (file journal : List UInt8) (representable : journal.length < 2 ^ 63) {log : C4Log}
      (done : c4LogOpen file journal = .ok log) : Reachable log
  | acted {log : C4Log} (reachable : Reachable log) (operation : Operation) :
      Reachable (log.act operation)

/-! ### The invariant behind it -/

/-- Two pending rows never share an index. -/
def Separate (rows : List C4Transaction) : Prop :=
  rows.Pairwise fun first second =>
    first.Pending → second.Pending → first.entry.index ≠ second.entry.index

/-- What every table satisfies. -/
structure Orderly (rows : List C4Transaction) : Prop where
  versions : ∀ row ∈ rows, row.Pending → row.entry.version = row.entry.index
  separate : Separate rows
  capped : Capped rows

/-- A log of which only the entries are known. -/
def holding (entries : List C4LogEntry) : C4Log := ⟨entries, [], [], []⟩

/-- One record of the scan of `c4_log_open`. -/
def scanEntry (log : C4Log) (entry : C4LogEntry) : Except Errno C4Log :=
  appendLocked log entry false

/-- A file that the scan of `c4_log_open` reads as the given entries. It may hold a record twice:
the second one is accepted without a change. -/
def Loads (file : List UInt8) (entries : List C4LogEntry) : Prop :=
  ∃ records : List C4LogEntry, file = fileOf records ∧
    (∀ entry ∈ records, entry.payload.length ≤ maxPayloadSize) ∧
    records.foldlM scanEntry (holding []) = .ok (holding entries)

/-- What every open log satisfies. -/
structure Consistent (log : C4Log) : Prop where
  entries : ValidEntries log.entries
  table : Orderly log.transactions
  loads : Loads log.file log.entries

theorem Consistent.represented {log : C4Log} (consistent : log.Consistent) :
    log.Represented where
  numbered := by
    intro position entry found
    have numbered := consistent.entries.numbered position entry found
    have version := consistent.entries.version entry (List.mem_of_getElem? found)
    exact ⟨numbered, by rw [version]; exact numbered⟩
  distinct := consistent.entries.distinct
  intact := by
    intro entry member
    obtain ⟨-, -, small, checksum⟩ := consistent.entries.sound entry member
    exact ⟨checksum, small⟩
  pendingVersion := consistent.table.versions
  pendingDistinct := consistent.table.separate

/-! ### Every change of an open log keeps it -/

theorem Loads.append {log : C4Log} {file : List UInt8} (loads : Loads file log.entries)
    {entry : C4LogEntry} (fits : log.Extends entry)
    (absent : findEntry log entry.transactionId = none) :
    Loads (file ++ c4LogRecord entry) (log.entries ++ [entry]) := by
  obtain ⟨records, rfl, small, read⟩ := loads
  refine ⟨records ++ [entry], ?_, ?_, ?_⟩
  · rw [fileOf, fileOf, List.flatMap_append, List.flatMap_singleton]
  · intro other member
    rcases List.mem_append.mp member with old | new
    · exact small other old
    · rw [List.mem_singleton.mp new]
      exact fits.1.2.2.1
  · have appended : scanEntry (holding log.entries) entry =
        .ok (holding (log.entries ++ [entry])) :=
      appendLocked_of_extends (show (holding log.entries).Extends entry from fits.congr rfl) absent
        false
    rw [List.foldlM_append, read]
    change (scanEntry (holding log.entries) entry).bind pure = _
    rw [appended]
    rfl

omit [Zlib] in
/-- A pending row may be added at an index that no pending row has, when none of them is at the
largest index. -/
theorem Orderly.push {rows : List C4Transaction} (table : Orderly rows) {row : C4Transaction}
    (version : row.entry.version = row.entry.index)
    (fresh : ∀ other ∈ rows, other.Pending → other.entry.index ≠ row.entry.index)
    (below : ∀ other ∈ rows, other.Pending → other.entry.index + 1 ≠ 0) :
    Orderly (rows ++ [row]) where
  versions := by
    intro other member pending
    rcases List.mem_append.mp member with old | new
    · exact table.versions other old pending
    · rw [List.mem_singleton.mp new]
      exact version
  separate := by
    refine List.pairwise_append.mpr ⟨table.separate, List.pairwise_singleton _ _, ?_⟩
    intro first member second isNew pending _
    rw [List.mem_singleton.mp isNew]
    exact fresh first member pending
  capped := by
    refine List.pairwise_append.mpr ⟨table.capped, List.pairwise_singleton _ _, ?_⟩
    exact fun first member _ _ pending _ => below first member pending

omit [Zlib] in
theorem Orderly.pushSettled {rows : List C4Transaction} (table : Orderly rows)
    {row : C4Transaction} (settled : ¬ row.Pending) : Orderly (rows ++ [row]) where
  versions := by
    intro other member pending
    rcases List.mem_append.mp member with old | new
    · exact table.versions other old pending
    · rw [List.mem_singleton.mp new] at pending
      exact absurd pending settled
  separate := by
    refine List.pairwise_append.mpr ⟨table.separate, List.pairwise_singleton _ _, ?_⟩
    intro first _ second isNew _ pending
    rw [List.mem_singleton.mp isNew] at pending
    exact absurd pending settled
  capped := by
    refine List.pairwise_append.mpr ⟨table.capped, List.pairwise_singleton _ _, ?_⟩
    intro first _ second isNew _ pending
    rw [List.mem_singleton.mp isNew] at pending
    exact absurd pending settled

omit [Zlib] in
theorem Orderly.settle {rows : List C4Transaction} (table : Orderly rows) (id : TransactionId)
    {state : C4TransactionState} (settled : state ≠ .prepared) :
    Orderly
      (KeyedList.modify C4Transaction.id (fun row => { row with state := state }) id rows) := by
  have notPending : ∀ row : C4Transaction,
      ¬ ({ row with state := state } : C4Transaction).Pending :=
    fun _ pending => settled pending
  refine ⟨?_, ?_, ?_⟩
  · intro row member pending
    rcases KeyedList.mem_modify member with old | ⟨old, -, rfl⟩
    · exact table.versions row old pending
    · exact absurd pending (notPending old)
  · refine KeyedList.pairwise_modify ?_ ?_ table.separate
    · exact fun first _ _ _ _ pending => absurd pending (notPending first)
    · exact fun _ _ second _ _ _ pending => absurd pending (notPending second)
  · refine KeyedList.pairwise_modify ?_ ?_ table.capped
    · exact fun first _ _ _ _ pending => absurd pending (notPending first)
    · exact fun _ _ second _ _ _ pending => absurd pending (notPending second)

omit [Zlib] in
/-- A row may be added at the index that the log expects. -/
theorem Orderly.pushExpected {log : C4Log} (table : Orderly log.transactions)
    {entry : C4LogEntry} {state : C4TransactionState} (version : entry.version = entry.index)
    (expects : log.Expects entry.index) : Orderly (log.transactions ++ [⟨entry, state⟩]) := by
  have below : ∀ row ∈ log.transactions, row.Pending →
      row.entry.index.toNat < entry.index.toNat := fun row member pending =>
    UInt64.lt_iff_toNat_lt.mp (expects.afterPending row member pending)
  refine table.push version (fun row member pending same => ?_)
    (fun row member pending wrapped => ?_)
  · have before := below row member pending
    rw [same] at before
    exact lt_irrefl _ before
  · have before := below row member pending
    have bound := entry.index.toNat_lt
    have value := congrArg UInt64.toNat wrapped
    rw [UInt64.toNat_add, UInt64.toNat_one, UInt64.toNat_zero] at value
    omega

theorem Change.consistent {log next : C4Log} (change : Change log next)
    (consistent : log.Consistent) : next.Consistent := by
  obtain ⟨entries, table, loads⟩ := consistent
  cases change with
  | append entry fits absent =>
    exact ⟨entries.append fits absent, table, loads.append fits absent⟩
  | prepare entry sound small absent expected =>
    obtain ⟨version, expects⟩ :=
      expectedNext_bounds entries table.versions table.capped sound.1 expected
    exact ⟨entries, table.pushExpected version expects, loads⟩
  | commit row id found pending => exact ⟨entries, table.settle id (by decide), loads⟩
  | abort row id found pending => exact ⟨entries, table.settle id (by decide), loads⟩
  | abortUnknown id absent =>
    exact ⟨entries, table.pushSettled (tombstone_not_pending id), loads⟩

theorem changes_c4LogAppend (log : C4Log) (id : TransactionId) (version : UInt64)
    (payload : List UInt8) : Changes log (c4LogAppend log id version payload).1 := by
  unfold c4LogAppend
  split
  · cases findEntry log id with
    | some old =>
      simp only
      split <;> exact .refl
    | none =>
      simp only
      split
      · rename_i appended
        exact changes_append appended
      · exact .refl
  · exact .refl

theorem changes_act (log : C4Log) (operation : Operation) : Changes log (log.act operation) := by
  cases operation with
  | call call => exact changes_perform log call
  | append id version payload => exact changes_c4LogAppend log id version payload

/-! ### The scan of the log file -/

/-- The scan appends what a call would append, without writing it to the file. -/
theorem scanEntry_eq (log : C4Log) (entry : C4LogEntry) :
    scanEntry log entry =
      (appendLocked log entry true).map fun next => { next with file := log.file } := by
  unfold scanEntry appendLocked
  by_cases sound : entry.Sound
  · rw [if_neg (not_not.mpr sound), if_neg (not_not.mpr sound)]
    cases findEntry log entry.transactionId with
    | some old =>
      simp only
      split <;> rfl
    | none =>
      simp only
      split
      · rfl
      · split <;> rfl
  · rw [if_pos sound, if_pos sound]
    rfl

/-- A scanned record changes nothing but the entries, and keeps them valid. -/
theorem scanEntry_ok {log next : C4Log} {entry : C4LogEntry} (done : scanEntry log entry = .ok next)
    (valid : ValidEntries log.entries) :
    ValidEntries next.entries ∧ next = { log with entries := next.entries } := by
  have outcome := appendLocked_outcome log entry
  rw [scanEntry_eq] at done
  generalize appendLocked log entry true = result at outcome done
  cases outcome with
  | refused code => cases done
  | repeated sound found =>
    cases done
    exact ⟨valid, rfl⟩
  | appended fits absent =>
    cases done
    exact ⟨valid.append fits absent, rfl⟩

theorem foldlM_scanEntry_ok {records : List C4LogEntry} {log next : C4Log}
    (done : records.foldlM scanEntry log = .ok next) (valid : ValidEntries log.entries) :
    ValidEntries next.entries ∧ next = { log with entries := next.entries } := by
  induction records generalizing log with
  | nil =>
    cases done
    exact ⟨valid, rfl⟩
  | cons entry rest inductionHypothesis =>
    rw [List.foldlM_cons] at done
    obtain ⟨middle, first, later⟩ := bind_eq_ok.mp done
    obtain ⟨middleValid, middleEq⟩ := scanEntry_ok first valid
    obtain ⟨nextValid, nextEq⟩ := inductionHypothesis later middleValid
    exact ⟨nextValid, by rw [nextEq, middleEq]⟩

/-- What the scan has read of a file is a sequence of records, each of them appended. -/
theorem loadEntries_records (file : List UInt8) (log : C4Log) (offset : Nat) {next : C4Log} :
    loadEntries file log offset = .ok next → offset ≤ file.length →
      ∃ records : List C4LogEntry, next.file = file.take offset ++ fileOf records ∧
        (∀ entry ∈ records, entry.payload.length ≤ maxPayloadSize) ∧
        records.foldlM scanEntry log = .ok { next with file := log.file } := by
  have stopped : ∀ (log next : C4Log) (offset : Nat),
      (.ok { log with file := file.take offset } : Except Errno C4Log) = .ok next →
      ∃ records : List C4LogEntry, next.file = file.take offset ++ fileOf records ∧
        (∀ entry ∈ records, entry.payload.length ≤ maxPayloadSize) ∧
        records.foldlM scanEntry log = .ok { next with file := log.file } := by
    intro log next offset done
    cases done
    refine ⟨[], by simp [fileOf], ?_, rfl⟩
    intro entry member
    cases member
  fun_induction loadEntries file log offset with
  | case1 log offset inside record short => exact fun done _ => stopped log next offset done
  | case2 => exact fun done => by cases done
  | case3 log offset inside record long magic payloadSize fits payload torn =>
    exact fun done _ => stopped log next offset done
  | case4 => exact fun done => by cases done
  | case5 log offset inside record long magic payloadSize fits payload whole entry middle appended
      inductionHypothesis =>
    intro done _
    have recordLength : record.length = file.length - offset := List.length_drop
    have size : payload.length = payloadSize := by
      refine le_antisymm (List.length_take_le _ _) ?_
      omega
    have available : payloadSize ≤ record.length - c4LogHeaderSize := by
      rw [← size]
      exact (List.length_take_le' _ _).trans (by rw [List.length_drop])
    obtain ⟨records, fileEq, small, read⟩ := inductionHypothesis done (by omega)
    have header := c4LogHeader_c4LogEntryRead entry.payloadBound (by omega) (not_not.mp magic) size
    have written : (file.drop offset).take (c4LogHeaderSize + payloadSize) = c4LogRecord entry := by
      show record.take (c4LogHeaderSize + payloadSize) = _
      rw [c4LogRecord, List.take_add]
      exact congrArg (· ++ payload) header.symm
    have unchanged : middle.file = log.file := by
      have scanned := scanEntry_eq log entry
      rw [scanEntry, appended] at scanned
      cases persisted : appendLocked log entry true with
      | error code =>
        rw [persisted] at scanned
        cases scanned
      | ok next =>
        rw [persisted] at scanned
        cases scanned
        rfl
    refine ⟨entry :: records, ?_, ?_, ?_⟩
    · rw [fileEq, List.take_add, written, List.append_assoc]
      rfl
    · intro other member
      rcases List.mem_cons.mp member with rfl | inRest
      · show payload.length ≤ _
        rw [size]
        exact fits
      · exact small other inRest
    · rw [List.foldlM_cons]
      change (scanEntry log entry).bind _ = _
      rw [scanEntry, appended]
      show records.foldlM scanEntry middle = _
      rw [read, unchanged]
  | case6 => exact fun done => by cases done
  | case7 log offset outside =>
    intro done inside
    have whole : file.take offset = file := List.take_of_length_le (by omega)
    refine stopped log next offset ?_
    rw [whole]
    exact done

/-- A file of whole records is scanned record by record. -/
theorem loadEntries_fileOf_records (past : List UInt8) (records : List C4LogEntry)
    (small : ∀ entry ∈ records, entry.payload.length ≤ maxPayloadSize) (log : C4Log) :
    loadEntries (past ++ fileOf records) log past.length =
      (records.foldlM scanEntry log).map fun next =>
        { next with file := past ++ fileOf records } := by
  induction records generalizing past log with
  | nil =>
    rw [loadEntries, if_neg (by simp [fileOf])]
    rfl
  | cons entry rest inductionHypothesis =>
    have split : fileOf (entry :: rest) = c4LogRecord entry ++ fileOf rest := rfl
    have restSmall := fun other member => small other (List.mem_cons_of_mem _ member)
    rw [split, loadEntries_record past (fileOf rest) entry (small entry List.mem_cons_self) log,
      List.foldlM_cons]
    change (scanEntry log entry).bind _ = ((scanEntry log entry).bind _).map _
    cases scanEntry log entry with
    | error code => rfl
    | ok next =>
      rw [← List.append_assoc]
      exact inductionHypothesis (past ++ c4LogRecord entry) restSmall next

/-- What the scan makes of any file it accepts. -/
theorem loadEntries_loads {file : List UInt8} {loaded : C4Log}
    (done : loadEntries file fresh 0 = .ok loaded) :
    ValidEntries loaded.entries ∧ Loads loaded.file loaded.entries ∧ loaded.transactions = [] := by
  obtain ⟨records, fileEq, small, read⟩ := loadEntries_records file fresh 0 done (Nat.zero_le _)
  obtain ⟨valid, shape⟩ := foldlM_scanEntry_ok read valid_fresh.entries
  have table : loaded.transactions = [] := congrArg C4Log.transactions shape
  rw [List.take_zero, List.nil_append] at fileEq
  refine ⟨valid, ⟨records, fileEq, small, ?_⟩, table⟩
  show records.foldlM scanEntry fresh = _
  rw [read, shape]
  rfl

/-- A file that reads as some entries is loaded as them. -/
theorem loadEntries_of_loads {file : List UInt8} {entries : List C4LogEntry}
    (loads : Loads file entries) :
    loadEntries file fresh 0 = .ok { holding entries with file := file } := by
  obtain ⟨records, rfl, small, read⟩ := loads
  have scanned := loadEntries_fileOf_records [] records small fresh
  rw [List.nil_append, show records.foldlM scanEntry fresh = _ from read] at scanned
  exact scanned

/-! ### The replay of the journal -/

/-- What every accepted record keeps holds at the end of a replay, at an offset that the journal
still covers. -/
theorem loadJournal_keep {property : Nat → C4Log → Prop}
    (journal : List UInt8)
    (step : ∀ offset log type payload next, property offset log →
      replayRecord log type payload = .ok next →
      ∀ later, offset < later → later ≤ journal.length → property later next)
    (log : C4Log) (offset : Nat) {next : C4Log} :
    loadJournal journal log offset = .ok next → offset ≤ journal.length → property offset log →
      ∃ final ≤ journal.length, property final next := by
  fun_induction loadJournal journal log offset with
  | case1 => exact fun done => by cases done
  | case2 => exact fun done => by cases done
  | case3 => exact fun done => by cases done
  | case4 => exact fun done => by cases done
  | case5 log offset inside record framed type payloadSize fits payload checksum middle replayed
      inductionHypothesis =>
    intro done _ holds
    rw [not_or, not_lt, not_lt] at fits
    refine inductionHypothesis done (by omega)
      (step offset log _ _ _ holds replayed _ ?_ (by omega))
    unfold c4TxnHeaderSize
    omega
  | case6 log offset outside =>
    intro done inside holds
    cases done
    exact ⟨offset, inside, holds⟩

/-- How an accepted record can end. -/
inductive ReplayOutcome (log : C4Log) : C4Log → Prop
  | recommitted (entry : C4LogEntry) (absent : findTransaction log entry.transactionId = none)
      (found : findEntry log entry.transactionId = some entry) :
      ReplayOutcome log (pushTransaction log ⟨entry, .prepared⟩)
  | prepared (entry : C4LogEntry) (index : entry.index ≠ 0)
      (absent : findTransaction log entry.transactionId = none)
      (expected : expectedNext log = (entry.index, entry.version)) :
      ReplayOutcome log (pushTransaction log ⟨entry, .prepared⟩)
  | repeated (row : C4Transaction) (id : TransactionId) (found : findTransaction log id = some row)
      (pending : row.Pending) (committed : findEntry log id = some row.entry) :
      ReplayOutcome log (setTransactionState log id .committed)
  | committed (row : C4Transaction) (id : TransactionId) (found : findTransaction log id = some row)
      (pending : row.Pending) (fits : log.Extends row.entry)
      (absent : findEntry log row.entry.transactionId = none) :
      ReplayOutcome log ((setTransactionState log id .committed).withEntry row.entry)
  | aborted (id : TransactionId) : ReplayOutcome log (setTransactionState log id .aborted)
  | tombstone (id : TransactionId) (absent : findTransaction log id = none) :
      ReplayOutcome log (pushTransaction log (tombstone id))
  | unchanged : ReplayOutcome log log

theorem replayDecision_outcome {log next : C4Log} {type : UInt8} {id : TransactionId}
    (done : replayDecision log type id = .ok next) : ReplayOutcome log next := by
  unfold replayDecision at done
  cases found : findTransaction log id with
  | none =>
    rw [found] at done
    simp only at done
    split at done
    · cases done
      exact .tombstone id found
    · cases done
  | some row =>
    rw [found] at done
    simp only at done
    split at done
    · rename_i pending
      split at done
      · have outcome := appendLocked_outcome (setTransactionState log id .committed) row.entry
        rw [done] at outcome
        cases outcome with
        | repeated sound committed =>
          refine .repeated row id found pending ?_
          rw [← findTransaction_id found]
          exact committed
        | appended fits absent => exact .committed row id found pending fits absent
      · cases done
        exact .aborted id
    · split at done
      · cases done
        exact .unchanged
      · cases done

theorem replayRecord_outcome {log next : C4Log} {type : UInt8} {payload : List UInt8}
    (done : replayRecord log type payload = .ok next) : ReplayOutcome log next := by
  unfold replayRecord at done
  split at done
  · cases decoded : c4LogEntryDecode payload with
    | error code =>
      rw [decoded] at done
      cases done
    | ok entry =>
      rw [decoded] at done
      obtain ⟨absent, placed, rfl⟩ := replayPrepare_ok.mp done
      rcases placed with committed | ⟨-, expected⟩
      · exact .recommitted entry absent committed
      · exact .prepared entry (c4LogEntryDecode_ok decoded).1 absent expected
  · split at done
    · exact replayDecision_outcome done
    · cases done

/-- What a replay keeps. A pending row carries a committed
entry or lies beyond the end of the log, and at most one index further than the part of the
journal that has been read. -/
structure Replaying (offset : Nat) (log : C4Log) : Prop where
  entries : ValidEntries log.entries
  rows : KeyedList.Distinct C4Transaction.id log.transactions
  table : Orderly log.transactions
  placed : ∀ row ∈ log.transactions, row.Pending →
    findEntry log row.id = some row.entry ∨ log.entries.length < row.entry.index.toNat
  below : ∀ row ∈ log.transactions, row.Pending →
    row.entry.index.toNat ≤ entryCapacity + offset
  loads : Loads log.file log.entries

theorem Replaying.later {offset later : Nat} {log : C4Log}
    (replaying : Replaying offset log) (after : offset ≤ later) :
    Replaying later log :=
  { replaying with
    below := fun row member pending => (replaying.below row member pending).trans (by omega) }

/-- In a valid log an index within the log belongs to one entry. -/
theorem ValidEntries.eq_of_index {entries : List C4LogEntry} (valid : ValidEntries entries)
    {first second : C4LogEntry} (firstMember : first ∈ entries) (secondMember : second ∈ entries)
    (same : first.index = second.index) : first = second := by
  obtain ⟨position, firstFound⟩ := List.mem_iff_getElem?.mp firstMember
  obtain ⟨other, secondFound⟩ := List.mem_iff_getElem?.mp secondMember
  have firstIndex := valid.numbered position first firstFound
  have secondIndex := valid.numbered other second secondFound
  rw [same, secondIndex] at firstIndex
  have positions : other = position := by omega
  rw [positions, firstFound] at secondFound
  exact Option.some.inj secondFound

theorem ValidEntries.index_le {entries : List C4LogEntry} (valid : ValidEntries entries)
    {entry : C4LogEntry} (member : entry ∈ entries) : entry.index.toNat ≤ entries.length := by
  obtain ⟨position, found⟩ := List.mem_iff_getElem?.mp member
  obtain ⟨inside, -⟩ := List.getElem?_eq_some_iff.mp found
  rw [valid.numbered position entry found]
  exact inside

/-- A `PREPARE` record of a committed entry. No pending row has its index: such a row would carry
the same entry, and the table does not know the transaction yet. -/
theorem Replaying.recommitted {offset : Nat} {log : C4Log}
    (replaying : Replaying offset log) (room : entryCapacity + offset + 1 < 2 ^ 64)
    {entry : C4LogEntry} (absent : findTransaction log entry.transactionId = none)
    (found : findEntry log entry.transactionId = some entry) :
    Replaying offset (pushTransaction log ⟨entry, .prepared⟩) := by
  have member := KeyedList.lookup_mem found
  have inside := replaying.entries.index_le member
  have bound := replaying.entries.bounded
  refine ⟨replaying.entries,
    KeyedList.distinct_append_singleton replaying.rows absent, ?_, ?_, ?_, replaying.loads⟩
  · refine replaying.table.push (replaying.entries.version entry member) ?_ ?_
    · intro other otherMember pending same
      change other.entry.index = entry.index at same
      rcases replaying.placed other otherMember pending with committed | beyond
      · have equal := replaying.entries.eq_of_index (KeyedList.lookup_mem committed) member same
        refine KeyedList.lookup_eq_none.mp absent other otherMember ?_
        show other.entry.transactionId = _
        rw [equal]
      · rw [same] at beyond
        omega
    · intro other otherMember pending wrapped
      have below := replaying.below other otherMember pending
      have value := congrArg UInt64.toNat wrapped
      rw [UInt64.toNat_add, UInt64.toNat_one, UInt64.toNat_zero] at value
      omega
  · intro row rowMember pending
    rcases List.mem_append.mp rowMember with old | new
    · exact replaying.placed row old pending
    · rw [List.mem_singleton.mp new]
      exact Or.inl found
  · intro row rowMember pending
    rcases List.mem_append.mp rowMember with old | new
    · exact replaying.below row old pending
    · rw [List.mem_singleton.mp new]
      show entry.index.toNat ≤ _
      omega

/-- A `PREPARE` record at the expected index, which lies beyond the end of the log. -/
theorem Replaying.prepared {offset : Nat} {log : C4Log}
    (replaying : Replaying offset log) {entry : C4LogEntry} (index : entry.index ≠ 0)
    (absent : findTransaction log entry.transactionId = none)
    (expected : expectedNext log = (entry.index, entry.version)) :
    Replaying (offset + 1) (pushTransaction log ⟨entry, .prepared⟩) := by
  obtain ⟨version, expects⟩ := expectedNext_bounds replaying.entries replaying.table.versions
    replaying.table.capped index expected
  have bound := replaying.entries.bounded
  refine ⟨replaying.entries,
    KeyedList.distinct_append_singleton replaying.rows absent,
    replaying.table.pushExpected version expects, ?_, ?_, replaying.loads⟩
  · intro row rowMember pending
    rcases List.mem_append.mp rowMember with old | new
    · exact replaying.placed row old pending
    · rw [List.mem_singleton.mp new]
      exact Or.inr expects.afterLog
  · intro row rowMember pending
    rcases List.mem_append.mp rowMember with old | new
    · exact (replaying.below row old pending).trans (by omega)
    · rw [List.mem_singleton.mp new]
      show entry.index.toNat ≤ _
      rcases expects.tight with atEnd | ⟨other, otherMember, otherPending, value⟩
      · omega
      · have below := replaying.below other otherMember otherPending
        omega

theorem Replaying.settled {offset : Nat} {log : C4Log}
    (replaying : Replaying offset log) (id : TransactionId) {state : C4TransactionState}
    (settled : state ≠ .prepared) : Replaying offset (setTransactionState log id state) := by
  have old : ∀ row ∈ (setTransactionState log id state).transactions, row.Pending →
      row ∈ log.transactions := by
    intro row member pending
    rcases KeyedList.mem_modify member with old | ⟨old, -, same⟩
    · exact old
    · rw [same] at pending
      exact absurd pending settled
  have rows :
      KeyedList.Distinct C4Transaction.id (setTransactionState log id state).transactions := by
    refine KeyedList.distinct_modify ?_ replaying.rows
    exact fun _ => rfl
  exact ⟨replaying.entries, rows, replaying.table.settle id settled,
    fun row member pending => replaying.placed row (old row member pending) pending,
    fun row member pending => replaying.below row (old row member pending) pending,
    replaying.loads⟩

theorem Replaying.tombstone {offset : Nat} {log : C4Log}
    (replaying : Replaying offset log) {id : TransactionId}
    (absent : findTransaction log id = none) :
    Replaying offset (pushTransaction log (tombstone id)) := by
  have old : ∀ row ∈ (pushTransaction log (SuperPeerNet.tombstone id)).transactions, row.Pending →
      row ∈ log.transactions := by
    intro row member pending
    rcases List.mem_append.mp member with old | new
    · exact old
    · rw [List.mem_singleton.mp new] at pending
      exact absurd pending (tombstone_not_pending id)
  exact ⟨replaying.entries,
    KeyedList.distinct_append_singleton replaying.rows absent,
    replaying.table.pushSettled (tombstone_not_pending id),
    fun row member pending => replaying.placed row (old row member pending) pending,
    fun row member pending => replaying.below row (old row member pending) pending,
    replaying.loads⟩

/-- A row that is still pending after a decision has another index than the decided row had. -/
theorem Replaying.index_ne {offset : Nat} {log : C4Log}
    (replaying : Replaying offset log) {row other : C4Transaction} {id : TransactionId}
    (found : findTransaction log id = some row) (pending : row.Pending)
    (member : other ∈ (setTransactionState log id .committed).transactions)
    (otherPending : other.Pending) : other.entry.index ≠ row.entry.index := by
  have distinct := (replaying.settled id
    (show C4TransactionState.committed ≠ .prepared by decide)).rows
  have decidedRow : findTransaction (setTransactionState log id .committed) id =
      some { row with state := .committed } := by
    have keeps : ∀ row : C4Transaction, row.id = id →
        ({ row with state := .committed } : C4Transaction).id = id := fun _ same => same
    have lookup := KeyedList.lookup_modify keeps log.transactions id
    rw [if_pos rfl, show KeyedList.lookup C4Transaction.id log.transactions id = some row from
      found] at lookup
    exact lookup
  have notDecided : other.id ≠ id := by
    intro same
    have lookup := (KeyedList.lookup_eq_some_iff distinct).mpr ⟨member, same⟩
    cases decidedRow.symm.trans lookup
    cases otherPending
  have old : other ∈ log.transactions := by
    rcases KeyedList.mem_modify member with old | ⟨old, -, same⟩
    · exact old
    · rw [same] at otherPending
      cases otherPending
  have apart : other ≠ row := by
    rintro rfl
    exact notDecided (findTransaction_id found)
  have symmetric : Std.Symm fun first second : C4Transaction =>
      first.Pending → second.Pending → first.entry.index ≠ second.entry.index :=
    ⟨fun _ _ separate secondPending firstPending => (separate firstPending secondPending).symm⟩
  exact replaying.table.separate.forall old (KeyedList.lookup_mem found) apart otherPending pending

/-- A `COMMIT` record that appends its entry. The other pending rows beyond the end of the log are
at larger indices, since none of them shares the index of the decided row. -/
theorem Replaying.committed {offset : Nat} {log : C4Log}
    (replaying : Replaying offset log) {row : C4Transaction} {id : TransactionId}
    (found : findTransaction log id = some row) (pending : row.Pending)
    (fits : log.Extends row.entry) (absent : findEntry log row.entry.transactionId = none) :
    Replaying offset ((setTransactionState log id .committed).withEntry row.entry) := by
  have settled := replaying.settled id (show C4TransactionState.committed ≠ .prepared by decide)
  have index : row.entry.index.toNat = log.entries.length + 1 := by
    rw [fits.2.1, toNat_nextIndex replaying.entries]
  refine ⟨replaying.entries.append fits absent,
    settled.rows, settled.table, ?_, settled.below, replaying.loads.append fits absent⟩
  intro other member otherPending
  rcases settled.placed other member otherPending with committed | beyond
  · refine Or.inl ?_
    rw [findEntry_withEntry, committed]
    rfl
  · refine Or.inr ?_
    change log.entries.length < _ at beyond
    rw [withEntry_entries, List.length_append, List.length_singleton]
    change log.entries.length + 1 < _
    have different := replaying.index_ne found pending member otherPending
    have values : other.entry.index.toNat ≠ row.entry.index.toNat :=
      fun same => different (UInt64.toNat_inj.mp same)
    omega

theorem Replaying.step {offset later : Nat} {log next : C4Log}
    (replaying : Replaying offset log) (outcome : ReplayOutcome log next)
    (after : offset < later) (room : entryCapacity + offset + 1 < 2 ^ 64) :
    Replaying later next := by
  suffices next' : Replaying (offset + 1) next from next'.later after
  cases outcome with
  | recommitted entry absent found =>
    exact (replaying.recommitted room absent found).later (Nat.le_succ _)
  | prepared entry index absent expected => exact replaying.prepared index absent expected
  | repeated row id found pending committed =>
    exact (replaying.settled id (by decide)).later (Nat.le_succ _)
  | committed row id found pending fits absent =>
    exact (replaying.committed found pending fits absent).later (Nat.le_succ _)
  | aborted id => exact (replaying.settled id (by decide)).later (Nat.le_succ _)
  | tombstone id absent => exact (replaying.tombstone absent).later (Nat.le_succ _)
  | unchanged => exact replaying.later (Nat.le_succ _)

/-! ### Opening a log -/

theorem replaying_start {loaded : C4Log} (entries : ValidEntries loaded.entries)
    (loads : Loads loaded.file loaded.entries) (empty : loaded.transactions = []) :
    Replaying 0 loaded := by
  refine ⟨entries, ?_, ⟨?_, ?_, ?_⟩, ?_, ?_, loads⟩ <;> rw [empty]
  · exact List.Pairwise.nil
  · exact fun row member => absurd member List.not_mem_nil
  · exact List.Pairwise.nil
  · exact List.Pairwise.nil
  · exact fun row member => absurd member List.not_mem_nil
  · exact fun row member => absurd member List.not_mem_nil

/-- The replay of a journal of representable size leaves a consistent log. -/
theorem loadJournal_consistent {journal : List UInt8} (representable : journal.length < 2 ^ 63)
    {loaded log : C4Log} (entries : ValidEntries loaded.entries)
    (loads : Loads loaded.file loaded.entries) (empty : loaded.transactions = [])
    (done : loadJournal journal loaded 0 = .ok log) : log.Consistent := by
  have step : ∀ offset log type payload next, Replaying offset log →
      replayRecord log type payload = .ok next →
      ∀ later, offset < later → later ≤ journal.length → Replaying later next := by
    intro offset log type payload next replaying accepted later after inside
    refine replaying.step (replayRecord_outcome accepted) after ?_
    unfold entryCapacity
    omega
  obtain ⟨final, -, replaying⟩ := loadJournal_keep journal step loaded 0 done (Nat.zero_le _)
    (replaying_start entries loads empty)
  exact ⟨replaying.entries, replaying.table, replaying.loads⟩

theorem ReplayOutcome.extends_entries {log next : C4Log} (outcome : ReplayOutcome log next) :
    log.entries <+: next.entries := by
  cases outcome with
  | recommitted entry absent found => exact List.prefix_refl _
  | prepared entry index absent expected => exact List.prefix_refl _
  | repeated row id found pending committed => exact List.prefix_refl _
  | committed row id found pending fits absent => exact List.prefix_append _ _
  | aborted id => exact List.prefix_refl _
  | tombstone id absent => exact List.prefix_refl _
  | unchanged => exact List.prefix_refl _

theorem loadJournal_extends_entries {journal : List UInt8} {loaded log : C4Log}
    (done : loadJournal journal loaded 0 = .ok log) : loaded.entries <+: log.entries := by
  have step : ∀ (offset : Nat) log type payload next, loaded.entries <+: log.entries →
      replayRecord log type payload = .ok next →
      ∀ later, offset < later → later ≤ journal.length → loaded.entries <+: next.entries := by
    intro offset log type payload next grown accepted later after inside
    exact grown.trans (replayRecord_outcome accepted).extends_entries
  obtain ⟨final, -, grown⟩ := loadJournal_keep journal step loaded 0 done (Nat.zero_le _)
    (List.prefix_refl _)
  exact grown

theorem consistent_of_c4LogOpen {file journal : List UInt8} {log : C4Log}
    (representable : journal.length < 2 ^ 63) (done : c4LogOpen file journal = .ok log) :
    log.Consistent := by
  unfold c4LogOpen at done
  cases scanned : loadEntries file fresh 0 with
  | error code =>
    rw [scanned] at done
    cases done
  | ok loaded =>
    rw [scanned] at done
    obtain ⟨entries, loads, empty⟩ := loadEntries_loads scanned
    let started : C4Log := { loaded with journal := journal }
    have replayed : loadJournal journal started 0 = .ok log := done
    exact loadJournal_consistent representable (show ValidEntries started.entries from entries)
      loads empty replayed

/-- Opening the two files of a log again keeps its entries. -/
theorem Consistent.reopen {log reopened : C4Log} (consistent : log.Consistent)
    (done : c4LogOpen log.file log.journal = .ok reopened) : log.entries <+: reopened.entries := by
  rw [c4LogOpen, loadEntries_of_loads consistent.loads] at done
  let started : C4Log := { holding log.entries with file := log.file, journal := log.journal }
  have replayed : loadJournal log.journal started 0 = .ok reopened := done
  have grown : started.entries <+: reopened.entries := loadJournal_extends_entries replayed
  exact grown

/-! ### The invariant of every reachable log -/

/-- Two new files open as the fresh log. -/
theorem reachable_fresh : Reachable fresh := by
  have opened : c4LogOpen [] [] = .ok fresh := by
    rw [c4LogOpen, loadEntries, if_neg (by simp)]
    simp only
    rw [loadJournal, if_neg (by simp)]
    rfl
  exact .opened [] [] (by decide) opened

theorem Reachable.consistent {log : C4Log} (reachable : Reachable log) : log.Consistent := by
  induction reachable with
  | opened file journal representable done => exact consistent_of_c4LogOpen representable done
  | acted reachable operation inductionHypothesis =>
    exact (changes_act _ operation).keep (fun _ _ change => change.consistent) inductionHypothesis

/-- Every log that calls and openings lead to satisfies the representation invariant, and the
next call or opening leaves its entries as a prefix of the new ones. -/
theorem representation_of_reachable {log : C4Log} (reachable : Reachable log) :
    log.Represented ∧ (∀ operation, log.entries <+: (log.act operation).entries) ∧
      ∀ reopened, c4LogOpen log.file log.journal = .ok reopened →
        log.entries <+: reopened.entries :=
  ⟨reachable.consistent.represented, fun operation => (changes_act log operation).extends_entries,
    fun _ done => reachable.consistent.reopen done⟩

end C4Log

end Representation

/-- Two transactions are prepared on a new log, the first is committed, and an entry is appended
past the second. -/
theorem C4Log.representation_overtaken :
    letI := Zlib.reference
    let first : TransactionId := Octets.fill transactionIdSize 1
    let second : TransactionId := Octets.fill transactionIdSize 2
    let third : TransactionId := Octets.fill transactionIdSize 3
    let log := (((C4Log.fresh.act (.call (.prepare
      (C4LogEntry.build 1 1 first [] length_nil_lt)))).act (.call (.prepare
        (C4LogEntry.build 2 2 second [] length_nil_lt)))).act (.call (.commit first))).act
          (.append third 2 [5])
    log.entries.length = 2 ∧ c4LogTransactionState log second = .prepared ∧ log.Represented := by
  let zlib := Zlib.reference
  refine ⟨by decide +kernel, by decide +kernel, (C4Log.representation_of_reachable ?_).1⟩
  exact (((C4Log.reachable_fresh.acted _).acted _).acted _).acted _

end SuperPeerNet
