/-
This file models the operations of `c4_log.c` on an open log: the committed
entries and the `C4LG` file that mirrors them, the transaction table and the
`.txn` journal that mirrors it, and the calls through which the cluster changes
them. Every call runs under the mutex of the log, so a call is one step.

File operations and allocations succeed here. The two files are the byte strings
that the calls have written so far, which is what a later `c4_log_open` reads.
-/

import SuperPeerNet.Library.KeyedList
import SuperPeerNet.Log.Entry

namespace SuperPeerNet

/-! ### The open log -/

/-- `C4TransactionState`. -/
inductive C4TransactionState where
  | unknown | prepared | committed | aborted
  deriving DecidableEq, Repr

/-- `C4Transaction`: one row of the transaction table. -/
structure C4Transaction where
  entry : C4LogEntry
  state : C4TransactionState
  deriving DecidableEq

/-- The key of the transaction table. -/
def C4Transaction.id (transaction : C4Transaction) : TransactionId :=
  transaction.entry.transactionId

/-- `struct C4Log`, with the contents of its two files. -/
structure C4Log where
  entries : List C4LogEntry
  transactions : List C4Transaction
  file : List UInt8
  journal : List UInt8
  deriving DecidableEq

/-- What `c4_log_open` returns when both files are new. -/
def C4Log.fresh : C4Log := ⟨[], [], [], []⟩

/-- `find_transaction`. -/
def findTransaction (log : C4Log) (id : TransactionId) : Option C4Transaction :=
  KeyedList.lookup C4Transaction.id log.transactions id

/-- The committed entry with a transaction id, as the loops over `log->entries` find it. -/
def findEntry (log : C4Log) (id : TransactionId) : Option C4LogEntry :=
  KeyedList.lookup C4LogEntry.transactionId log.entries id

/-- The index that extends the committed log. -/
def nextIndex (log : C4Log) : UInt64 := UInt64.ofNat log.entries.length + 1

/-- The version that extends the committed log. -/
def nextVersion (log : C4Log) : UInt64 :=
  match log.entries.getLast? with
  | none => 1
  | some last => last.version + 1

/-! ### The two files -/

/-- The record of an entry in the `C4LG` file. -/
def c4LogRecord (entry : C4LogEntry) : List UInt8 :=
  c4LogHeader entry entry.checksum ++ entry.payload

/-- `C4_TXN_MAGIC`, the letters `C5TJ`. -/
def c4TxnMagic : List UInt8 := [0x43, 0x35, 0x54, 0x4a]

/-- `C4_TXN_HEADER_SIZE`. -/
def c4TxnHeaderSize : Nat := 16

/-- `C4_TXN_PREPARE`. -/
def c4TxnPrepare : UInt8 := 1

/-- `C4_TXN_COMMIT`. -/
def c4TxnCommit : UInt8 := 2

/-- `C4_TXN_ABORT`. -/
def c4TxnAbort : UInt8 := 3

/-- The checksum of a journal record: its type, its size and its payload. -/
def journalChecksum [Zlib] (type : UInt8) (payload : List UInt8) : UInt32 :=
  protocolCalculateCrc32 ([type] ++ wirePutU32 (UInt32.ofNat payload.length) ++ payload)

/-- The bytes of a journal record. -/
def journalBytes [Zlib] (type : UInt8) (payload : List UInt8) : List UInt8 :=
  c4TxnMagic ++ ([type, 0, 0, 0] ++ (wirePutU32 (UInt32.ofNat payload.length) ++
    (wirePutU32 (journalChecksum type payload) ++ payload)))

/-- `journal_record`. -/
def journalRecord [Zlib] (log : C4Log) (type : UInt8) (payload : List UInt8) :
    Except Errno C4Log :=
  if payload.length > maxPayloadSize then .error .emsgsize
  else .ok { log with journal := log.journal ++ journalBytes type payload }

/-! ### Appending to the committed log -/

/-- The checks that `append_locked` makes before it looks at the log. -/
def C4LogEntry.Sound [Zlib] (entry : C4LogEntry) : Prop :=
  entry.index ≠ 0 ∧ entry.version ≠ 0 ∧ entry.payload.length ≤ maxPayloadSize ∧
    entry.checksum = c4LogEntryChecksum entry

instance [Zlib] (entry : C4LogEntry) : Decidable entry.Sound :=
  inferInstanceAs (Decidable (_ ∧ _ ∧ _ ∧ _))

theorem C4LogEntry.build_sound [Zlib] {index version : UInt64} (id : TransactionId)
    {payload : List UInt8} (bound : payload.length < 2 ^ 32) (indexed : index ≠ 0)
    (versioned : version ≠ 0) (small : payload.length ≤ maxPayloadSize) :
    (C4LogEntry.build index version id payload bound).Sound :=
  ⟨indexed, versioned, small, C4LogEntry.sealed_checksum _⟩

/-- The number of entries at which `reserve_entry` stops growing the array: capacities double
from 16 while 48-byte slots still fit into `SIZE_MAX` bytes. -/
def entryCapacity : Nat := 2 ^ 58

/-- `append_locked`. A log that has outgrown its array is refused here before the file is
touched; every smaller log is grown, since allocations succeed. -/
def appendLocked [Zlib] (log : C4Log) (entry : C4LogEntry) (persist : Bool) :
    Except Errno C4Log :=
  if ¬ entry.Sound then .error .ebadmsg
  else match findEntry log entry.transactionId with
    | some old => if sameEntry old entry then .ok log else .error .eexist
    | none =>
      if entry.index ≠ nextIndex log ∨ entry.version ≠ nextVersion log then .error .erange
      else if log.entries.length ≥ entryCapacity then .error .eoverflow
      else .ok { log with
        entries := log.entries ++ [entry]
        file := if persist then log.file ++ c4LogRecord entry else log.file }

/-- `c4_log_append_entry`. -/
def c4LogAppendEntry [Zlib] (log : C4Log) (entry : C4LogEntry) : C4Log × Except Errno Unit :=
  match appendLocked log entry true with
  | .ok next => (next, .ok ())
  | .error code => (log, .error code)

/-- `c4_log_append`: the index is filled in, and a transaction that the log already has is compared
in its version and its payload. -/
def c4LogAppend [Zlib] (log : C4Log) (id : TransactionId) (version : UInt64)
    (payload : List UInt8) : C4Log × Except Errno Unit :=
  if fits : payload.length ≤ maxPayloadSize then
    match findEntry log id with
    | some old =>
      if old.version = version ∧ old.payload = payload then (log, .ok ()) else (log, .error .eexist)
    | none =>
      let entry := C4LogEntry.build (nextIndex log) version id payload
        (length_lt_of_le_maxPayloadSize fits)
      match appendLocked log entry true with
      | .ok next => (next, .ok ())
      | .error code => (log, .error code)
  else (log, .error .einval)

/-! ### Two-phase commit -/

/-- One turn of the loop that moves the expected index past the pending transactions. -/
def raiseExpected (expected : UInt64 × UInt64) (transaction : C4Transaction) : UInt64 × UInt64 :=
  if transaction.state = .prepared ∧ transaction.entry.index ≥ expected.1 then
    (transaction.entry.index + 1, transaction.entry.version + 1)
  else expected

/-- The index and version that `c4_log_prepare` and `load_journal` expect of a new
transaction: the first ones after the committed log and after every pending transaction. -/
def expectedNext (log : C4Log) : UInt64 × UInt64 :=
  log.transactions.foldl raiseExpected (nextIndex log, nextVersion log)

/-- `c4_log_prepare`. -/
def c4LogPrepare [Zlib] (log : C4Log) (entry : C4LogEntry) : C4Log × Except Errno Unit :=
  if entry.index = 0 ∨ entry.version = 0 ∨ entry.checksum ≠ c4LogEntryChecksum entry then
    (log, .error .einval)
  else match findTransaction log entry.transactionId with
    | some existing =>
      if sameEntry existing.entry entry ∧ existing.state ≠ .aborted then (log, .ok ())
      else (log, .error .eexist)
    | none =>
      if entry.index ≠ (expectedNext log).1 ∨ entry.version ≠ (expectedNext log).2 then
        (log, .error .erange)
      else match c4LogEntryEncode entry with
        | .error code => (log, .error code)
        | .ok encoded => match journalRecord log c4TxnPrepare encoded with
          | .error code => (log, .error code)
          | .ok journaled => match c4LogEntryDecode encoded with
            | .error code => (journaled, .error code)
            | .ok decoded =>
              ({ journaled with transactions := journaled.transactions ++ [⟨decoded, .prepared⟩] },
                .ok ())

/-- Write a new state into the row of a transaction. -/
def setTransactionState (log : C4Log) (id : TransactionId) (state : C4TransactionState) : C4Log :=
  { log with
    transactions := KeyedList.modify C4Transaction.id (fun row => { row with state := state }) id
      log.transactions }

/-- The first half of `c4_log_commit`: a pending transaction is decided in the journal and in
the table, a decided one is left as it is. -/
def decideCommit [Zlib] (log : C4Log) (transaction : C4Transaction) (id : TransactionId) :
    Except Errno C4Log :=
  if transaction.state = .prepared then
    match journalRecord log c4TxnCommit id.toList with
    | .error code => .error code
    | .ok journaled => .ok (setTransactionState journaled id .committed)
  else .ok log

/-- `c4_log_commit`. The state becomes `COMMITTED` as soon as the journal has the decision,
before the entry is appended: a failing append leaves it so. -/
def c4LogCommit [Zlib] (log : C4Log) (id : TransactionId) : C4Log × Except Errno C4LogEntry :=
  match findTransaction log id with
  | none => (log, .error .enoent)
  | some transaction =>
    if transaction.state = .aborted then (log, .error .enoent)
    else match decideCommit log transaction id with
      | .error code => (log, .error code)
      | .ok decided => match appendLocked decided transaction.entry true with
        | .error code => (decided, .error code)
        | .ok appended => (appended, .ok transaction.entry)

theorem length_nil_lt : ([] : List UInt8).length < 2 ^ 32 := by decide

/-- The all-zero entry of an abort tombstone. -/
def tombstone (id : TransactionId) : C4Transaction where
  entry :=
    { index := 0
      version := 0
      transactionId := id
      payload := []
      checksum := 0
      payloadBound := length_nil_lt }
  state := .aborted

/-- `c4_log_abort`. An unknown transaction gets a tombstone. -/
def c4LogAbort [Zlib] (log : C4Log) (id : TransactionId) : C4Log × Except Errno Unit :=
  match findTransaction log id with
  | some transaction =>
    if transaction.state = .aborted then (log, .ok ())
    else if transaction.state ≠ .prepared then (log, .error .ealready)
    else match journalRecord log c4TxnAbort id.toList with
      | .error code => (log, .error code)
      | .ok journaled => (setTransactionState journaled id .aborted, .ok ())
  | none => match journalRecord log c4TxnAbort id.toList with
    | .error code => (log, .error code)
    | .ok journaled =>
      ({ journaled with transactions := journaled.transactions ++ [tombstone id] }, .ok ())

/-! ### Reading -/

/-- `c4_log_get`. -/
def c4LogGet (log : C4Log) (index : UInt64) : Except Errno C4LogEntry :=
  if index = 0 then .error .einval
  else match log.entries[index.toNat - 1]? with
    | none => .error .enoent
    | some entry => .ok entry

/-- `c4_log_get_transaction`. -/
def c4LogGetTransaction (log : C4Log) (id : TransactionId) : Except Errno C4LogEntry :=
  match findEntry log id with
  | none => .error .enoent
  | some entry => .ok entry

/-- `c4_log_last_index`. -/
def c4LogLastIndex (log : C4Log) : UInt64 := UInt64.ofNat log.entries.length

/-- `c4_log_last_version`. -/
def c4LogLastVersion (log : C4Log) : UInt64 :=
  match log.entries.getLast? with
  | none => 0
  | some last => last.version

/-- `c4_log_transaction_state`. -/
def c4LogTransactionState (log : C4Log) (id : TransactionId) : C4TransactionState :=
  match findTransaction log id with
  | none => .unknown
  | some transaction => transaction.state

end SuperPeerNet
