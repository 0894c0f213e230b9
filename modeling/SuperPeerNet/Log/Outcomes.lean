/-
This file says once what each call on an open log can do.

A call either leaves the log alone or makes one or two of five changes: append a
committed entry, add a prepared transaction, record a commit decision, record an
abort decision, add an abort tombstone. The outcome of every call is stated as an
inductive with one constructor for each way the call can end, so that an invariant
is proved per change and a protocol argument splits on outcomes, and neither
unfolds the code again.
-/

import SuperPeerNet.Log.Operations

namespace SuperPeerNet

variable [Zlib]

/-! ### The five changes -/

namespace C4Log

/-- The log after a new committed entry. -/
def withEntry (log : C4Log) (entry : C4LogEntry) : C4Log :=
  { log with entries := log.entries ++ [entry], file := log.file ++ c4LogRecord entry }

/-- The log after a new prepared transaction. -/
def withPrepared (log : C4Log) (entry : C4LogEntry) : C4Log :=
  { log with
    transactions := log.transactions ++ [⟨entry, .prepared⟩]
    journal := log.journal ++ journalBytes c4TxnPrepare (c4LogRecord entry) }

/-- The log after a decision on a pending transaction, under the record type that the
decision has in the journal. -/
def withDecision (log : C4Log) (id : TransactionId) (type : UInt8) (state : C4TransactionState) :
    C4Log :=
  setTransactionState { log with journal := log.journal ++ journalBytes type id.toList } id state

/-- The log after an abort of an unknown transaction. -/
def withTombstone (log : C4Log) (id : TransactionId) : C4Log :=
  { log with
    transactions := log.transactions ++ [tombstone id]
    journal := log.journal ++ journalBytes c4TxnAbort id.toList }

/-- The log after the commit decision on a row of its table. -/
def decided (log : C4Log) (row : C4Transaction) (id : TransactionId) : C4Log :=
  if row.state = .prepared then log.withDecision id c4TxnCommit .committed else log

omit [Zlib] in
@[simp] theorem withEntry_entries (log : C4Log) (entry : C4LogEntry) :
    (log.withEntry entry).entries = log.entries ++ [entry] := rfl

omit [Zlib] in
@[simp] theorem withEntry_transactions (log : C4Log) (entry : C4LogEntry) :
    (log.withEntry entry).transactions = log.transactions := rfl

@[simp] theorem withPrepared_entries (log : C4Log) (entry : C4LogEntry) :
    (log.withPrepared entry).entries = log.entries := rfl

@[simp] theorem withPrepared_transactions (log : C4Log) (entry : C4LogEntry) :
    (log.withPrepared entry).transactions = log.transactions ++ [⟨entry, .prepared⟩] := rfl

@[simp] theorem withDecision_entries (log : C4Log) (id : TransactionId) (type : UInt8)
    (state : C4TransactionState) : (log.withDecision id type state).entries = log.entries := rfl

@[simp] theorem withDecision_transactions (log : C4Log) (id : TransactionId) (type : UInt8)
    (state : C4TransactionState) :
    (log.withDecision id type state).transactions =
      KeyedList.modify C4Transaction.id (fun row => { row with state := state }) id
        log.transactions := rfl

@[simp] theorem withTombstone_entries (log : C4Log) (id : TransactionId) :
    (log.withTombstone id).entries = log.entries := rfl

@[simp] theorem withTombstone_transactions (log : C4Log) (id : TransactionId) :
    (log.withTombstone id).transactions = log.transactions ++ [tombstone id] := rfl

@[simp] theorem decided_entries (log : C4Log) (row : C4Transaction) (id : TransactionId) :
    (log.decided row id).entries = log.entries := by
  unfold decided
  split <;> rfl

/-- The entry is one that `append_locked` would add, were its transaction id new. -/
def Extends (log : C4Log) (entry : C4LogEntry) : Prop :=
  entry.Sound ∧ entry.index = nextIndex log ∧ entry.version = nextVersion log ∧
    log.entries.length < entryCapacity

/-- One change of an open log, with everything the code has checked before making it. -/
inductive Change (log : C4Log) : C4Log → Prop
  | append (entry : C4LogEntry) (fits : log.Extends entry)
      (absent : findEntry log entry.transactionId = none) : Change log (log.withEntry entry)
  | prepare (entry : C4LogEntry) (sound : entry.Sound)
      (small : entry.payload.length ≤ maxPayloadSize - c4LogHeaderSize)
      (absent : findTransaction log entry.transactionId = none)
      (expected : expectedNext log = (entry.index, entry.version)) :
      Change log (log.withPrepared entry)
  | commit (row : C4Transaction) (id : TransactionId) (found : findTransaction log id = some row)
      (pending : row.state = .prepared) : Change log (log.withDecision id c4TxnCommit .committed)
  | abort (row : C4Transaction) (id : TransactionId) (found : findTransaction log id = some row)
      (pending : row.state = .prepared) : Change log (log.withDecision id c4TxnAbort .aborted)
  | abortUnknown (id : TransactionId) (absent : findTransaction log id = none) :
      Change log (log.withTombstone id)

end C4Log

/-! ### Looking up after a change -/

section Lookup

variable (log : C4Log)

omit [Zlib] in
theorem findTransaction_id {log : C4Log} {id : TransactionId} {row : C4Transaction}
    (found : findTransaction log id = some row) : row.entry.transactionId = id := by
  have key : row.id = id := KeyedList.lookup_key found
  exact key

omit [Zlib] in
theorem findEntry_id {log : C4Log} {id : TransactionId} {entry : C4LogEntry}
    (found : findEntry log id = some entry) : entry.transactionId = id :=
  KeyedList.lookup_key found

omit [Zlib] in
@[simp] theorem findTransaction_withEntry (entry : C4LogEntry) (id : TransactionId) :
    findTransaction (log.withEntry entry) id = findTransaction log id := rfl

omit [Zlib] in
theorem findEntry_withEntry (entry : C4LogEntry) (id : TransactionId) :
    findEntry (log.withEntry entry) id =
      (findEntry log id).or (if entry.transactionId = id then some entry else none) := by
  rw [findEntry, C4Log.withEntry_entries, KeyedList.lookup_append, KeyedList.lookup_singleton]
  rfl

@[simp] theorem findEntry_withPrepared (entry : C4LogEntry) (id : TransactionId) :
    findEntry (log.withPrepared entry) id = findEntry log id := rfl

theorem findTransaction_withPrepared (entry : C4LogEntry) (id : TransactionId) :
    findTransaction (log.withPrepared entry) id =
      (findTransaction log id).or
        (if entry.transactionId = id then some ⟨entry, .prepared⟩ else none) := by
  rw [findTransaction, C4Log.withPrepared_transactions, KeyedList.lookup_append,
    KeyedList.lookup_singleton]
  rfl

@[simp] theorem findEntry_withDecision (id other : TransactionId) (type : UInt8)
    (state : C4TransactionState) :
    findEntry (log.withDecision id type state) other = findEntry log other := rfl

theorem findTransaction_withDecision (id other : TransactionId) (type : UInt8)
    (state : C4TransactionState) :
    findTransaction (log.withDecision id type state) other =
      if other = id then (findTransaction log other).map fun row => { row with state := state }
      else findTransaction log other := by
  have keeps : ∀ row : C4Transaction, row.id = id →
      ({ row with state := state } : C4Transaction).id = id := fun _ same => same
  exact KeyedList.lookup_modify keeps log.transactions other

@[simp] theorem findEntry_withTombstone (id other : TransactionId) :
    findEntry (log.withTombstone id) other = findEntry log other := rfl

theorem findTransaction_withTombstone (id other : TransactionId) :
    findTransaction (log.withTombstone id) other =
      (findTransaction log other).or (if id = other then some (tombstone id) else none) := by
  rw [findTransaction, C4Log.withTombstone_transactions, KeyedList.lookup_append,
    KeyedList.lookup_singleton]
  rfl

@[simp] theorem findEntry_decided (row : C4Transaction) (id other : TransactionId) :
    findEntry (log.decided row id) other = findEntry log other := by
  rw [findEntry, C4Log.decided_entries]
  rfl

end Lookup

/-! ### The state of a transaction after a change -/

section State

variable {log : C4Log} {id : TransactionId}

omit [Zlib] in
theorem c4LogTransactionState_of_found {row : C4Transaction}
    (found : findTransaction log id = some row) : c4LogTransactionState log id = row.state := by
  rw [c4LogTransactionState, found]

omit [Zlib] in
theorem c4LogTransactionState_of_absent (absent : findTransaction log id = none) :
    c4LogTransactionState log id = .unknown := by
  rw [c4LogTransactionState, absent]

omit [Zlib] in
@[simp] theorem c4LogTransactionState_withEntry (entry : C4LogEntry) (id : TransactionId) :
    c4LogTransactionState (log.withEntry entry) id = c4LogTransactionState log id := rfl

theorem c4LogTransactionState_withPrepared {entry : C4LogEntry}
    (absent : findTransaction log entry.transactionId = none) (id : TransactionId) :
    c4LogTransactionState (log.withPrepared entry) id =
      if id = entry.transactionId then .prepared else c4LogTransactionState log id := by
  rw [c4LogTransactionState, findTransaction_withPrepared]
  split_ifs with found same other
  · rw [same, absent]
    rfl
  · exact absurd found.symm same
  · exact absurd other.symm found
  · rw [Option.or_none]
    rfl

theorem c4LogTransactionState_withDecision {row : C4Transaction}
    (found : findTransaction log id = some row) (type : UInt8) (state : C4TransactionState)
    (other : TransactionId) :
    c4LogTransactionState (log.withDecision id type state) other =
      if other = id then state else c4LogTransactionState log other := by
  rw [c4LogTransactionState, findTransaction_withDecision]
  split_ifs with same
  · rw [same, found]
    rfl
  · rfl

theorem c4LogTransactionState_withTombstone (absent : findTransaction log id = none)
    (other : TransactionId) :
    c4LogTransactionState (log.withTombstone id) other =
      if other = id then .aborted else c4LogTransactionState log other := by
  rw [c4LogTransactionState, findTransaction_withTombstone]
  split_ifs with found same different
  · rw [same, absent]
    rfl
  · exact absurd found.symm same
  · exact absurd different.symm found
  · rw [Option.or_none]
    rfl

theorem c4LogTransactionState_decided {row : C4Transaction}
    (found : findTransaction log id = some row) (other : TransactionId) :
    c4LogTransactionState (log.decided row id) other =
      if other = id ∧ row.state = .prepared then .committed
      else c4LogTransactionState log other := by
  unfold C4Log.decided
  split_ifs with pending both both
  · rw [c4LogTransactionState_withDecision found, if_pos both.1]
  · rw [c4LogTransactionState_withDecision found, if_neg fun same => both ⟨same, pending⟩]
  · exact absurd both.2 pending
  · rfl

end State

/-! ### Appending -/

/-- How `append_locked` with `persist` set can end. -/
inductive AppendOutcome (log : C4Log) (entry : C4LogEntry) : Except Errno C4Log → Prop
  | refused (code : Errno) : AppendOutcome log entry (.error code)
  | repeated (sound : entry.Sound) (found : findEntry log entry.transactionId = some entry) :
      AppendOutcome log entry (.ok log)
  | appended (fits : log.Extends entry) (absent : findEntry log entry.transactionId = none) :
      AppendOutcome log entry (.ok (log.withEntry entry))

theorem appendLocked_outcome (log : C4Log) (entry : C4LogEntry) :
    AppendOutcome log entry (appendLocked log entry true) := by
  unfold appendLocked
  split
  · exact .refused _
  · rename_i sound
    split
    · rename_i old found
      split
      · rename_i same
        rw [sameEntry_iff] at same
        exact .repeated (not_not.mp sound) (same ▸ found)
      · exact .refused _
    · rename_i absent
      split
      · exact .refused _
      · rename_i next
        rw [not_or, not_not, not_not] at next
        split
        · exact .refused _
        · rename_i room
          exact .appended ⟨not_not.mp sound, next.1, next.2, by omega⟩ absent

/-- An entry that extends the log is appended, in memory and, with `persist`, in the file. -/
theorem appendLocked_of_extends {log : C4Log} {entry : C4LogEntry} (fits : log.Extends entry)
    (absent : findEntry log entry.transactionId = none) (persist : Bool) :
    appendLocked log entry persist = .ok { log with
      entries := log.entries ++ [entry]
      file := if persist then log.file ++ c4LogRecord entry else log.file } := by
  obtain ⟨sound, index, version, room⟩ := fits
  unfold appendLocked
  rw [if_neg (not_not.mpr sound), absent]
  simp only
  rw [if_neg (by simp [index, version]), if_neg (by omega)]

theorem appendLocked_withEntry {log : C4Log} {entry : C4LogEntry} (fits : log.Extends entry)
    (absent : findEntry log entry.transactionId = none) :
    appendLocked log entry true = .ok (log.withEntry entry) :=
  appendLocked_of_extends fits absent true

/-- An entry that the log already has is accepted without a change. -/
theorem appendLocked_of_found {log : C4Log} {entry : C4LogEntry} (sound : entry.Sound)
    (found : findEntry log entry.transactionId = some entry) (persist : Bool) :
    appendLocked log entry persist = .ok log := by
  unfold appendLocked
  rw [if_neg (not_not.mpr sound), found]
  simp

/-! ### Two-phase commit -/

/-- How `c4_log_prepare` can end. -/
inductive PrepareOutcome (log : C4Log) (entry : C4LogEntry) : C4Log × Except Errno Unit → Prop
  | refused (code : Errno) : PrepareOutcome log entry (log, .error code)
  | repeated (row : C4Transaction) (found : findTransaction log entry.transactionId = some row)
      (same : row.entry = entry) (live : row.state ≠ .aborted) :
      PrepareOutcome log entry (log, .ok ())
  | accepted (sound : entry.Sound)
      (small : entry.payload.length ≤ maxPayloadSize - c4LogHeaderSize)
      (absent : findTransaction log entry.transactionId = none)
      (expected : expectedNext log = (entry.index, entry.version)) :
      PrepareOutcome log entry (log.withPrepared entry, .ok ())

theorem journalRecord_of_le {log : C4Log} {type : UInt8} {payload : List UInt8}
    (small : payload.length ≤ maxPayloadSize) :
    journalRecord log type payload =
      .ok { log with journal := log.journal ++ journalBytes type payload } := by
  rw [journalRecord, if_neg (by omega)]

theorem journalRecord_id (log : C4Log) (type : UInt8) (id : TransactionId) :
    journalRecord log type id.toList =
      .ok { log with journal := log.journal ++ journalBytes type id.toList } :=
  journalRecord_of_le (by rw [length_transactionId]; decide)

omit [Zlib] in
/-- An entry that `c4_log_prepare` journals fits in a journal record. -/
theorem length_c4LogRecord_le {entry : C4LogEntry}
    (small : entry.payload.length ≤ maxPayloadSize - c4LogHeaderSize) :
    (c4LogRecord entry).length ≤ maxPayloadSize := by
  rw [c4LogRecord, List.length_append, length_c4LogHeader]
  unfold maxPayloadSize c4LogHeaderSize at *
  omega

/-- A new transaction at the expected place is accepted: the decode after the journal write
cannot fail, because it reads what the encoder has just written. -/
theorem c4LogPrepare_of_expected {log : C4Log} {entry : C4LogEntry} (sound : entry.Sound)
    (small : entry.payload.length ≤ maxPayloadSize - c4LogHeaderSize)
    (absent : findTransaction log entry.transactionId = none)
    (expected : expectedNext log = (entry.index, entry.version)) :
    c4LogPrepare log entry = (log.withPrepared entry, .ok ()) := by
  obtain ⟨index, version, -, checksum⟩ := sound
  have encoded : c4LogEntryEncode entry = .ok (c4LogRecord entry) :=
    c4LogEntryEncode_ok.mpr ⟨checksum, small, rfl⟩
  unfold c4LogPrepare
  rw [if_neg (by simp [index, version, checksum]), absent]
  simp only [expected, ne_eq, not_true_eq_false, or_self, if_false, encoded]
  rw [journalRecord_of_le (length_c4LogRecord_le small),
    c4LogEntryDecode_encode index version encoded]
  rfl

theorem c4LogPrepare_outcome (log : C4Log) (entry : C4LogEntry) :
    PrepareOutcome log entry (c4LogPrepare log entry) := by
  by_cases invalid : entry.index = 0 ∨ entry.version = 0 ∨
      entry.checksum ≠ c4LogEntryChecksum entry
  · rw [c4LogPrepare, if_pos invalid]
    exact .refused _
  cases found : findTransaction log entry.transactionId with
  | some existing =>
    rw [c4LogPrepare, if_neg invalid, found]
    simp only
    split
    · rename_i accepted
      exact .repeated existing found ((sameEntry_iff _ _).mp accepted.1) accepted.2
    · exact .refused _
  | none =>
    by_cases misplaced : entry.index ≠ (expectedNext log).1 ∨
        entry.version ≠ (expectedNext log).2
    · rw [c4LogPrepare, if_neg invalid, found]
      simp only [if_pos misplaced]
      exact .refused _
    simp only [not_or, not_not] at invalid misplaced
    by_cases small : entry.payload.length ≤ maxPayloadSize - c4LogHeaderSize
    · have sound : entry.Sound := ⟨invalid.1, invalid.2.1, by omega, invalid.2.2⟩
      have expected : expectedNext log = (entry.index, entry.version) :=
        Prod.ext misplaced.1.symm misplaced.2.symm
      rw [c4LogPrepare_of_expected sound small found expected]
      exact .accepted sound small found expected
    · have tooLong : c4LogEntryEncode entry = .error .emsgsize := by
        rw [c4LogEntryEncode, if_neg (not_not.mpr invalid.2.2), if_pos (by omega)]
      rw [c4LogPrepare, if_neg (by simp [invalid]), found]
      simp only [misplaced, ne_eq, not_true_eq_false, or_self, if_false, tooLong]
      exact .refused _

theorem decideCommit_eq (log : C4Log) (row : C4Transaction) (id : TransactionId) :
    decideCommit log row id = .ok (log.decided row id) := by
  unfold decideCommit C4Log.decided
  split
  · rw [journalRecord_id]
    rfl
  · rfl

/-- How `c4_log_commit` can end. A transaction that the table does not have, or has aborted,
changes nothing; any other is decided, and then appended or not. -/
inductive CommitOutcome (log : C4Log) (id : TransactionId) :
    C4Log × Except Errno C4LogEntry → Prop
  | refused (dead : ∀ row, findTransaction log id = some row → row.state = .aborted) :
      CommitOutcome log id (log, .error .enoent)
  | stuck (row : C4Transaction) (code : Errno) (found : findTransaction log id = some row)
      (live : row.state ≠ .aborted) (failed : appendLocked (log.decided row id) row.entry true =
        .error code) : CommitOutcome log id (log.decided row id, .error code)
  | done (row : C4Transaction) (next : C4Log) (found : findTransaction log id = some row)
      (live : row.state ≠ .aborted)
      (appended : appendLocked (log.decided row id) row.entry true = .ok next) :
      CommitOutcome log id (next, .ok row.entry)

theorem c4LogCommit_outcome (log : C4Log) (id : TransactionId) :
    CommitOutcome log id (c4LogCommit log id) := by
  unfold c4LogCommit
  split
  · rename_i absent
    exact .refused (fun row found => by rw [absent] at found; cases found)
  · rename_i row found
    split
    · rename_i dead
      exact .refused (fun other same => by rw [found] at same; cases same; exact dead)
    · rename_i live
      rw [decideCommit_eq]
      simp only
      split
      · rename_i failed
        exact .stuck row _ found live failed
      · rename_i appended
        exact .done row _ found live appended

/-- How `c4_log_abort` can end. -/
inductive AbortOutcome (log : C4Log) (id : TransactionId) : C4Log × Except Errno Unit → Prop
  | repeated (row : C4Transaction) (found : findTransaction log id = some row)
      (dead : row.state = .aborted) : AbortOutcome log id (log, .ok ())
  | refused (row : C4Transaction) (found : findTransaction log id = some row)
      (live : row.state ≠ .aborted) (settled : row.state ≠ .prepared) :
      AbortOutcome log id (log, .error .ealready)
  | aborted (row : C4Transaction) (found : findTransaction log id = some row)
      (pending : row.state = .prepared) :
      AbortOutcome log id (log.withDecision id c4TxnAbort .aborted, .ok ())
  | unknown (absent : findTransaction log id = none) :
      AbortOutcome log id (log.withTombstone id, .ok ())

theorem c4LogAbort_outcome (log : C4Log) (id : TransactionId) :
    AbortOutcome log id (c4LogAbort log id) := by
  unfold c4LogAbort
  split
  · rename_i row found
    split
    · rename_i dead
      exact .repeated row found dead
    · rename_i live
      split
      · rename_i settled
        exact .refused row found live settled
      · rename_i pending
        rw [journalRecord_id]
        exact .aborted row found (not_not.mp pending)
  · rename_i absent
    rw [journalRecord_id]
    exact .unknown absent

end SuperPeerNet
