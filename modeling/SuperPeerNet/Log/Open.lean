/-
This file models `c4_log_open`: the scan of the `C4LG` file, which rebuilds the
committed entries and drops a torn last record, and the replay of the `.txn`
journal, which rebuilds the transaction table on top of the complete log.

The scans walk over byte strings by offset, as the code does. The section at the
end shows that on a file made of whole records the two scans are folds over those
records, which is the form in which the restart is studied.
-/

import SuperPeerNet.Log.Invariant

namespace SuperPeerNet

variable [Zlib]

/-! ### The scan of the log file -/

/-- The loop of `c4_log_open` over the `C4LG` file. A record that the end of the file cuts
off is truncated away. -/
def loadEntries (file : List UInt8) (log : C4Log) (offset : Nat) : Except Errno C4Log :=
  if offset < file.length then
    let record := file.drop offset
    if record.length < c4LogHeaderSize then .ok { log with file := file.take offset }
    else if record.take 4 ≠ c4LogMagic then .error .ebadmsg
    else
      let payloadSize := (wireGetU32 (record.drop 36)).toNat
      if fits : payloadSize ≤ maxPayloadSize then
        let payload := (record.drop c4LogHeaderSize).take payloadSize
        if payload.length < payloadSize then .ok { log with file := file.take offset }
        else
          let entry := c4LogEntryRead record payload (length_lt_of_le_maxPayloadSize
            ((List.length_take_le _ _).trans fits))
          match appendLocked log entry false with
          | .error code => .error code
          | .ok next => loadEntries file next (offset + (c4LogHeaderSize + payloadSize))
      else .error .ebadmsg
  else .ok { log with file := file }
termination_by file.length - offset
decreasing_by
  unfold c4LogHeaderSize
  omega

/-! ### The replay of the journal -/

/-- The row that a replayed `PREPARE` or `ABORT` record adds. -/
def pushTransaction (log : C4Log) (row : C4Transaction) : C4Log :=
  { log with transactions := log.transactions ++ [row] }

/-- The `C4_TXN_PREPARE` branch of `load_journal`, after the entry has been decoded. An entry
that is already committed is taken as it is; any other has to be at the expected place. -/
def replayPrepare (log : C4Log) (entry : C4LogEntry) : Except Errno C4Log :=
  if findTransaction log entry.transactionId ≠ none then .error .ebadmsg
  else match c4LogGetTransaction log entry.transactionId with
    | .ok committed =>
      if sameEntry committed entry then .ok (pushTransaction log ⟨entry, .prepared⟩)
      else .error .ebadmsg
    | .error _ =>
      if entry.index ≠ (expectedNext log).1 ∨ entry.version ≠ (expectedNext log).2 then
        .error .ebadmsg
      else .ok (pushTransaction log ⟨entry, .prepared⟩)

/-- The `C4_TXN_COMMIT` and `C4_TXN_ABORT` branch of `load_journal`. -/
def replayDecision (log : C4Log) (type : UInt8) (id : TransactionId) : Except Errno C4Log :=
  match findTransaction log id with
  | none =>
    if type = c4TxnAbort then .ok (pushTransaction log (tombstone id)) else .error .ebadmsg
  | some row =>
    if row.state = .prepared then
      if type = c4TxnCommit then
        appendLocked (setTransactionState log id .committed) row.entry true
      else .ok (setTransactionState log id .aborted)
    else if type = c4TxnAbort ∧ row.state = .aborted then .ok log
    else .error .ebadmsg

/-- The body of the loop of `load_journal`, once the checksum of the record has matched. -/
def replayRecord (log : C4Log) (type : UInt8) (payload : List UInt8) : Except Errno C4Log :=
  if type = c4TxnPrepare then
    match c4LogEntryDecode payload with
    | .error _ => .error .ebadmsg
    | .ok entry => replayPrepare log entry
  else if (type = c4TxnCommit ∨ type = c4TxnAbort) ∧ payload.length = transactionIdSize then
    replayDecision log type (Octets.read transactionIdSize payload)
  else .error .ebadmsg

/-- `load_journal`. -/
def loadJournal (journal : List UInt8) (log : C4Log) (offset : Nat) : Except Errno C4Log :=
  if offset < journal.length then
    let record := journal.drop offset
    if record.length < c4TxnHeaderSize ∨ record.take 4 ≠ c4TxnMagic then .error .ebadmsg
    else
      let type := (record.drop 4).headD 0
      let payloadSize := (wireGetU32 (record.drop 8)).toNat
      if payloadSize > maxPayloadSize ∨
          offset + c4TxnHeaderSize + payloadSize > journal.length then .error .ebadmsg
      else
        let payload := (record.drop c4TxnHeaderSize).take payloadSize
        if journalChecksum type payload ≠ wireGetU32 (record.drop 12) then .error .ebadmsg
        else match replayRecord log type payload with
          | .error code => .error code
          | .ok next => loadJournal journal next (offset + (c4TxnHeaderSize + payloadSize))
  else .ok log
termination_by journal.length - offset
decreasing_by
  unfold c4TxnHeaderSize
  omega

/-- `c4_log_open`, on the contents of the two files. -/
def c4LogOpen (file journal : List UInt8) : Except Errno C4Log :=
  match loadEntries file C4Log.fresh 0 with
  | .error code => .error code
  | .ok loaded => loadJournal journal { loaded with journal := journal } 0

/-! ### Files of whole records -/

omit [Zlib] in
/-- The file of a list of entries. -/
def fileOf (entries : List C4LogEntry) : List UInt8 := entries.flatMap c4LogRecord

/-- A journal record before it is written. -/
inductive JournalRecord where
  | prepare (entry : C4LogEntry)
  | commit (id : TransactionId)
  | abort (id : TransactionId)

namespace JournalRecord

/-- The type byte of a record. -/
def type : JournalRecord → UInt8
  | prepare _ => c4TxnPrepare
  | commit _ => c4TxnCommit
  | abort _ => c4TxnAbort

/-- The payload of a record. -/
def payload : JournalRecord → List UInt8
  | prepare entry => c4LogRecord entry
  | commit id => id.toList
  | abort id => id.toList

/-- The bytes of a record. -/
def bytes (record : JournalRecord) : List UInt8 := journalBytes record.type record.payload

/-- What the journal of a live log holds: the entries it has checked. -/
def Written : JournalRecord → Prop
  | prepare entry => entry.Sound ∧ entry.payload.length ≤ maxPayloadSize - c4LogHeaderSize
  | commit _ => True
  | abort _ => True

/-- What the replay does with a record. -/
def replay (log : C4Log) : JournalRecord → Except Errno C4Log
  | prepare entry => replayPrepare log entry
  | commit id => replayDecision log c4TxnCommit id
  | abort id => replayDecision log c4TxnAbort id

theorem length_payload_le {record : JournalRecord} (written : record.Written) :
    record.payload.length ≤ maxPayloadSize := by
  cases record with
  | prepare entry => exact length_c4LogRecord_le written.2
  | commit id =>
    show id.toList.length ≤ _
    rw [length_transactionId]
    decide
  | abort id =>
    show id.toList.length ≤ _
    rw [length_transactionId]
    decide

theorem replayRecord_eq_replay {record : JournalRecord} (written : record.Written)
    (log : C4Log) : replayRecord log record.type record.payload = record.replay log := by
  cases record with
  | prepare entry =>
    obtain ⟨⟨index, version, -, checksum⟩, small⟩ := written
    have decoded : c4LogEntryDecode (c4LogRecord entry) = .ok entry :=
      c4LogEntryDecode_encode index version (c4LogEntryEncode_ok.mpr ⟨checksum, small, rfl⟩)
    show replayRecord log c4TxnPrepare (c4LogRecord entry) = _
    rw [replayRecord, if_pos rfl, decoded]
    rfl
  | commit id =>
    show replayRecord log c4TxnCommit id.toList = _
    rw [replayRecord, if_neg (by decide), if_pos ⟨Or.inl rfl, length_transactionId id⟩,
      Octets.read_toList]
    rfl
  | abort id =>
    show replayRecord log c4TxnAbort id.toList = _
    rw [replayRecord, if_neg (by decide), if_pos ⟨Or.inr rfl, length_transactionId id⟩,
      Octets.read_toList]
    rfl

end JournalRecord

/-- The journal of a list of records. -/
def journalOf (records : List JournalRecord) : List UInt8 := records.flatMap JournalRecord.bytes

section ReadBack

variable (type : UInt8) (payload rest : List UInt8)

@[simp] theorem length_journalBytes :
    (journalBytes type payload).length = c4TxnHeaderSize + payload.length := by
  simp [journalBytes, c4TxnMagic, c4TxnHeaderSize]
  omega

theorem take_journalBytes : (journalBytes type payload ++ rest).take 4 = c4TxnMagic := by
  rw [journalBytes, List.append_assoc, List.take_left' (by rfl)]

theorem drop_journalBytes_type : ((journalBytes type payload ++ rest).drop 4).headD 0 = type := by
  rw [journalBytes, List.append_assoc, List.drop_left' (by rfl)]
  rfl

theorem drop_journalBytes_size : wireGetU32 ((journalBytes type payload ++ rest).drop 8) =
    UInt32.ofNat payload.length := by
  have split : journalBytes type payload ++ rest = (c4TxnMagic ++ [type, 0, 0, 0]) ++
      (wirePutU32 (UInt32.ofNat payload.length) ++
        (wirePutU32 (journalChecksum type payload) ++ payload ++ rest)) := by
    simp only [journalBytes, List.append_assoc]
  rw [split, List.drop_left' (by simp [c4TxnMagic]), wireGetU32_wirePutU32]

theorem drop_journalBytes_checksum : wireGetU32 ((journalBytes type payload ++ rest).drop 12) =
    journalChecksum type payload := by
  have split : journalBytes type payload ++ rest = (c4TxnMagic ++ [type, 0, 0, 0] ++
      wirePutU32 (UInt32.ofNat payload.length)) ++
        (wirePutU32 (journalChecksum type payload) ++ (payload ++ rest)) := by
    simp only [journalBytes, List.append_assoc]
  rw [split, List.drop_left' (by simp [c4TxnMagic]), wireGetU32_wirePutU32]

theorem drop_journalBytes_payload :
    (journalBytes type payload ++ rest).drop c4TxnHeaderSize = payload ++ rest := by
  have split : journalBytes type payload ++ rest = (c4TxnMagic ++ [type, 0, 0, 0] ++
      wirePutU32 (UInt32.ofNat payload.length) ++ wirePutU32 (journalChecksum type payload)) ++
        (payload ++ rest) := by
    simp only [journalBytes, List.append_assoc]
  rw [split, List.drop_left' (by simp [c4TxnMagic, c4TxnHeaderSize])]

end ReadBack

/-- One turn of `load_journal` over a whole record. -/
theorem loadJournal_record (past rest : List UInt8) {record : JournalRecord}
    (written : record.Written) (log : C4Log) :
    loadJournal (past ++ (record.bytes ++ rest)) log past.length =
      (record.replay log).bind fun next =>
        loadJournal ((past ++ record.bytes) ++ rest) next (past ++ record.bytes).length := by
  have small := JournalRecord.length_payload_le written
  have size : (UInt32.ofNat record.payload.length).toNat = record.payload.length := by
    rw [UInt32.toNat_ofNat', Nat.mod_eq_of_lt (length_lt_of_le_maxPayloadSize small)]
  have bytes : record.bytes = journalBytes record.type record.payload := rfl
  have length : record.bytes.length = c4TxnHeaderSize + record.payload.length := by
    rw [bytes, length_journalBytes]
  rw [loadJournal, if_pos (by simp [length, c4TxnHeaderSize])]
  simp only [List.drop_left, bytes, take_journalBytes, drop_journalBytes_type,
    drop_journalBytes_size, drop_journalBytes_checksum, drop_journalBytes_payload, size,
    List.take_left, JournalRecord.replayRecord_eq_replay written, ne_eq, not_true_eq_false,
    or_false, if_false]
  rw [if_neg (by rw [List.length_append, length_journalBytes]; omega),
    if_neg (by simp only [List.length_append, length_journalBytes]; omega)]
  cases record.replay log with
  | error code => rfl
  | ok next =>
    simp only [Except.bind, List.append_assoc, List.length_append, length_journalBytes]

/-- `load_journal` goes over whole records to whatever follows them. -/
theorem loadJournal_append {records : List JournalRecord}
    (written : ∀ record ∈ records, record.Written) (past tail : List UInt8) (log : C4Log) :
    loadJournal (past ++ (journalOf records ++ tail)) log past.length =
      (records.foldlM JournalRecord.replay log).bind fun next =>
        loadJournal ((past ++ journalOf records) ++ tail) next
          (past ++ journalOf records).length := by
  induction records generalizing past log with
  | nil =>
    have nothing : journalOf [] = [] := rfl
    rw [nothing, List.append_nil, List.nil_append]
    rfl
  | cons record rest inductionHypothesis =>
    have split : journalOf (record :: rest) = record.bytes ++ journalOf rest := rfl
    rw [split, List.append_assoc, loadJournal_record past _ (written record List.mem_cons_self),
      List.foldlM_cons]
    show _ = ((record.replay log).bind fun next => rest.foldlM JournalRecord.replay next).bind _
    cases record.replay log with
    | error code => rfl
    | ok next =>
      show loadJournal (past ++ record.bytes ++ (journalOf rest ++ tail)) next _ =
        (rest.foldlM JournalRecord.replay next).bind _
      rw [inductionHypothesis
        (fun other member => written other (List.mem_cons_of_mem _ member)) _ _]
      simp only [List.append_assoc]

/-- `load_journal` on whole records is a fold over them. -/
theorem loadJournal_journalOf {records : List JournalRecord}
    (written : ∀ record ∈ records, record.Written) (past : List UInt8) (log : C4Log) :
    loadJournal (past ++ journalOf records) log past.length =
      records.foldlM JournalRecord.replay log := by
  have replayed := loadJournal_append written past [] log
  rw [List.append_nil, List.append_nil] at replayed
  rw [replayed]
  cases records.foldlM JournalRecord.replay log with
  | error code => rfl
  | ok next =>
    show loadJournal (past ++ journalOf records) next (past ++ journalOf records).length = .ok next
    rw [loadJournal, if_neg (lt_irrefl _)]

/-- One turn of the scan of the log file over a whole record. -/
theorem loadEntries_record (past rest : List UInt8) (entry : C4LogEntry)
    (small : entry.payload.length ≤ maxPayloadSize) (log : C4Log) :
    loadEntries (past ++ (c4LogRecord entry ++ rest)) log past.length =
      (appendLocked log entry false).bind fun next =>
        loadEntries ((past ++ c4LogRecord entry) ++ rest) next
          (past ++ c4LogRecord entry).length := by
  have record : c4LogRecord entry ++ rest =
      c4LogHeader entry entry.checksum ++ (entry.payload ++ rest) := by
    rw [c4LogRecord, List.append_assoc]
  have length : (c4LogRecord entry).length = c4LogHeaderSize + entry.payload.length := by
    rw [c4LogRecord, List.length_append, length_c4LogHeader]
    rfl
  rw [loadEntries, if_pos (by simp [length, c4LogHeaderSize])]
  simp only [List.drop_left, record, take_c4LogHeader, drop_c4LogHeader_payloadSize,
    drop_c4LogHeader_payload, C4LogEntry.toNat_payloadSize, dif_pos small, List.take_left,
    c4LogEntryRead_c4LogHeader, ne_eq, not_true_eq_false, if_false, lt_irrefl]
  rw [if_neg (by rw [List.length_append, length_c4LogHeader]; simp [c4LogHeaderSize])]
  cases appendLocked log entry false with
  | error code => rfl
  | ok next =>
    simp only [Except.bind, List.append_assoc, List.length_append, length, ← record]

end SuperPeerNet
