/-
This file follows a restart after a crash that left the last record of a file incomplete.

The two files of a log have separate loaders. The scan of the `C4LG` file drops an incomplete last
record and cuts the file back to the records before it. The replay of the journal has no such
branch: it takes an incomplete record for a corrupted one and refuses the log.
-/

import SuperPeerNet.Log.Restart
import SuperPeerNet.Log.Representation

namespace SuperPeerNet

section Torn

variable [Zlib]

namespace C4Log

/-! ### The end of the log file -/

/-- The scan cuts an incomplete record off. -/
theorem loadEntries_torn (past : List UInt8) {entry : C4LogEntry}
    (small : entry.payload.length ≤ maxPayloadSize) {cut : Nat}
    (short : cut < (c4LogRecord entry).length) (log : C4Log) :
    loadEntries (past ++ (c4LogRecord entry).take cut) log past.length =
      .ok { log with file := past } := by
  have size : (c4LogRecord entry).length = c4LogHeaderSize + entry.payload.length := by
    rw [c4LogRecord, List.length_append, length_c4LogHeader]
    rfl
  have length : ((c4LogRecord entry).take cut).length = cut := by
    rw [List.length_take]
    omega
  by_cases nothing : cut = 0
  · rw [nothing, List.take_zero, List.append_nil, loadEntries, if_neg (lt_irrefl _)]
  rw [loadEntries, if_pos (by rw [List.length_append, length]; omega)]
  simp only [List.drop_left, List.take_left]
  by_cases inHeader : cut < c4LogHeaderSize
  · rw [if_pos (by rwa [length])]
  · have split : (c4LogRecord entry).take cut =
        c4LogHeader entry entry.checksum ++ entry.payload.take (cut - c4LogHeaderSize) := by
      rw [c4LogRecord, List.take_append, length_c4LogHeader,
        List.take_of_length_le (by
          rw [length_c4LogHeader]
          unfold c4LogHeaderSize at inHeader
          omega)]
      rfl
    rw [if_neg (by rwa [length])]
    simp only [split, take_c4LogHeader, drop_c4LogHeader_payloadSize, drop_c4LogHeader_payload,
      C4LogEntry.toNat_payloadSize, ne_eq, not_true_eq_false, if_false, dif_pos small]
    rw [if_pos]
    simp only [List.length_take]
    omega

/-! ### Whole records within the first bytes -/

/-- The entries whose records lie within the first `count` bytes of the file. -/
def entriesWithin (count : Nat) : List C4LogEntry → List C4LogEntry
  | [] => []
  | entry :: rest =>
    if (c4LogRecord entry).length ≤ count then
      entry :: entriesWithin (count - (c4LogRecord entry).length) rest
    else []

/-- The kept entries are those at the front whose records lie within the first bytes. -/
structure RecordsWithin (entries : List C4LogEntry) (count : Nat) (kept : List C4LogEntry) :
    Prop where
  isPrefix : kept <+: entries
  whole : ∀ position, position < kept.length ↔
    position < entries.length ∧ (fileOf (entries.take (position + 1))).length ≤ count

omit [Zlib] in
theorem recordsWithin_entriesWithin (entries : List C4LogEntry) (count : Nat) :
    RecordsWithin entries count (entriesWithin count entries) := by
  induction entries generalizing count with
  | nil => exact ⟨List.nil_prefix, fun position => by simp [entriesWithin]⟩
  | cons entry rest inductionHypothesis =>
    have size : ∀ position, (fileOf ((entry :: rest).take (position + 1))).length =
        (c4LogRecord entry).length + (fileOf (rest.take position)).length := by
      intro position
      show (c4LogRecord entry ++ fileOf (rest.take position)).length = _
      rw [List.length_append]
    rw [entriesWithin]
    by_cases fits : (c4LogRecord entry).length ≤ count
    · obtain ⟨isPrefix, whole⟩ := inductionHypothesis (count - (c4LogRecord entry).length)
      rw [if_pos fits]
      refine ⟨(List.prefix_cons_inj entry).mpr isPrefix, fun position => ?_⟩
      rw [size]
      cases position with
      | zero => simpa [fileOf] using fits
      | succ position =>
        have inner := whole position
        simp only [List.length_cons, Nat.add_lt_add_iff_right] at inner ⊢
        rw [inner]
        omega
    · rw [if_neg fits]
      refine ⟨List.nil_prefix, fun position => ?_⟩
      rw [size]
      simp only [List.length_nil, Nat.not_lt_zero, false_iff, not_and]
      omega

omit [Zlib] in
/-- The first bytes of the file are the whole records and a part of the next one. -/
theorem take_fileOf (entries : List C4LogEntry) (count : Nat) :
    ∃ rest, entries = entriesWithin count entries ++ rest ∧
      ((fileOf entries).take count = fileOf (entriesWithin count entries) ∨
        ∃ entry ∈ entries, ∃ cut < (c4LogRecord entry).length,
          (fileOf entries).take count =
            fileOf (entriesWithin count entries) ++ (c4LogRecord entry).take cut) := by
  induction entries generalizing count with
  | nil => exact ⟨[], rfl, Or.inl List.take_nil⟩
  | cons entry rest inductionHypothesis =>
    have file : fileOf (entry :: rest) = c4LogRecord entry ++ fileOf rest := rfl
    rw [entriesWithin]
    by_cases fits : (c4LogRecord entry).length ≤ count
    · obtain ⟨left, split, whole⟩ := inductionHypothesis (count - (c4LogRecord entry).length)
      rw [if_pos fits]
      refine ⟨left, by rw [List.cons_append, ← split], ?_⟩
      have front : (fileOf (entry :: rest)).take count = c4LogRecord entry ++
          (fileOf rest).take (count - (c4LogRecord entry).length) := by
        rw [file, List.take_append, List.take_of_length_le fits]
      have kept : fileOf (entry :: entriesWithin (count - (c4LogRecord entry).length) rest) =
          c4LogRecord entry ++
            fileOf (entriesWithin (count - (c4LogRecord entry).length) rest) := rfl
      rw [front, kept]
      rcases whole with all | ⟨torn, member, cut, short, partly⟩
      · exact Or.inl (by rw [all])
      · refine Or.inr ⟨torn, List.mem_cons_of_mem _ member, cut, short, ?_⟩
        rw [partly, List.append_assoc]
    · rw [if_neg fits]
      refine ⟨entry :: rest, rfl, Or.inr ⟨entry, List.mem_cons_self, count, by omega, ?_⟩⟩
      rw [file, List.take_append_of_le_length (by omega)]
      rfl

/-! ### Reopening a file that was cut -/

/-- A call that appends to the log without a transaction. -/
inductive Appending where
  | entry (entry : C4LogEntry)
  | payload (id : TransactionId) (version : UInt64) (payload : List UInt8)

/-- The log after an appending call, whatever the call returns. -/
def appending (log : C4Log) : Appending → C4Log
  | .entry entry => (c4LogAppendEntry log entry).1
  | .payload id version payload => (c4LogAppend log id version payload).1

/-- The log after appending calls on a new file. -/
def appended (calls : List Appending) : C4Log := calls.foldl appending fresh

theorem changes_appended (calls : List Appending) : Changes fresh (appended calls) := by
  unfold appended
  generalize fresh = log
  induction calls generalizing log with
  | nil => exact .refl
  | cons call rest inductionHypothesis =>
    have first : Changes log (log.appending call) := by
      cases call with
      | entry entry => exact changes_c4LogAppendEntry log entry
      | payload id version payload => exact changes_c4LogAppend log id version payload
    exact first.trans (inductionHypothesis (log.appending call))

/-- With an empty journal, whole records open as their entries. -/
theorem c4LogOpen_fileOf {entries : List C4LogEntry} (valid : ValidEntries entries) :
    c4LogOpen (fileOf entries) [] = .ok ⟨entries, [], fileOf entries, []⟩ := by
  have scanned : loadEntries (fileOf entries) fresh 0 = .ok ⟨entries, [], fileOf entries, []⟩ :=
    loadEntries_fileOf [] entries fresh rfl valid
  rw [c4LogOpen, scanned]
  dsimp only
  rw [loadJournal, if_neg (by simp)]

/-- With an empty journal, whole records and a part of another one open as the whole records. -/
theorem c4LogOpen_torn {entries : List C4LogEntry} (valid : ValidEntries entries)
    {entry : C4LogEntry} (small : entry.payload.length ≤ maxPayloadSize) {cut : Nat}
    (short : cut < (c4LogRecord entry).length) :
    c4LogOpen (fileOf entries ++ (c4LogRecord entry).take cut) [] =
      .ok ⟨entries, [], fileOf entries, []⟩ := by
  have scanned : loadEntries (fileOf entries ++ (c4LogRecord entry).take cut) fresh 0 =
      .ok ⟨entries, [], fileOf entries, []⟩ := by
    have whole := loadEntries_append [] entries ((c4LogRecord entry).take cut) fresh rfl valid
    have start : fileOf [] ++ (fileOf entries ++ (c4LogRecord entry).take cut) =
        fileOf entries ++ (c4LogRecord entry).take cut := rfl
    rw [start] at whole
    exact whole.trans (loadEntries_torn (fileOf entries) small short _)
  rw [c4LogOpen, scanned]
  dsimp only
  rw [loadJournal, if_neg (by simp)]

/-- However many bytes of a file of appended entries are left, opening it recovers the entries
whose records lie within them and cuts the file back to these records, so that opening it again
gives the same log. -/
theorem torn_tail_recovered (calls : List Appending) (count : Nat) :
    ∃ kept, RecordsWithin (appended calls).entries count kept ∧
      c4LogOpen ((appended calls).file.take count) [] = .ok ⟨kept, [], fileOf kept, []⟩ ∧
      c4LogOpen (fileOf kept) [] = .ok ⟨kept, [], fileOf kept, []⟩ := by
  have changes := changes_appended calls
  have valid := (changes.valid valid_fresh).entries
  obtain ⟨records, journaled⟩ := journaled_of_changes changes
  rw [journaled.file]
  obtain ⟨rest, split, whole⟩ := take_fileOf (appended calls).entries count
  have validKept := valid.of_prefix ⟨rest, split.symm⟩
  refine ⟨_, recordsWithin_entriesWithin _ count, ?_, c4LogOpen_fileOf validKept⟩
  rcases whole with all | ⟨entry, member, cut, short, partly⟩
  · rw [all]
    exact c4LogOpen_fileOf validKept
  · rw [partly]
    exact c4LogOpen_torn validKept (valid.sound entry member).2.2.1 short

/-! ### The end of the journal -/

/-- The replay refuses an incomplete record. -/
theorem loadJournal_torn (past : List UInt8) {record : JournalRecord} (written : record.Written)
    {cut : Nat} (some : 0 < cut) (short : cut < record.bytes.length) (log : C4Log) :
    loadJournal (past ++ record.bytes.take cut) log past.length = .error .ebadmsg := by
  have small := JournalRecord.length_payload_le written
  have size : (UInt32.ofNat record.payload.length).toNat = record.payload.length := by
    rw [UInt32.toNat_ofNat', Nat.mod_eq_of_lt (length_lt_of_le_maxPayloadSize small)]
  have bytes : record.bytes = journalBytes record.type record.payload := rfl
  have whole : record.bytes.length = c4TxnHeaderSize + record.payload.length := by
    rw [bytes, length_journalBytes]
  have length : (record.bytes.take cut).length = cut := by
    rw [List.length_take]
    omega
  rw [loadJournal, if_pos (by rw [List.length_append, length]; omega)]
  simp only [List.drop_left]
  by_cases inHeader : cut < c4TxnHeaderSize
  · rw [if_pos (Or.inl (by rwa [length]))]
  · -- The header is whole, and the size in it says that the payload is not.
    have magic : (record.bytes.take cut).take 4 = c4TxnMagic := by
      have first := take_journalBytes record.type record.payload []
      rw [List.append_nil, ← bytes] at first
      unfold c4TxnHeaderSize at inHeader
      rw [List.take_take, min_eq_left (by omega), first]
    have announced : (wireGetU32 ((record.bytes.take cut).drop 8)).toNat =
        record.payload.length := by
      have field := drop_journalBytes_size record.type record.payload []
      rw [List.append_nil, ← bytes] at field
      unfold c4TxnHeaderSize at inHeader
      rw [← wireGetU32_take, List.drop_take, List.take_take, min_eq_left (by omega),
        wireGetU32_take, field, size]
    have missing : past.length + c4TxnHeaderSize + record.payload.length >
        (past ++ record.bytes.take cut).length := by
      rw [List.length_append, length]
      omega
    rw [if_neg (not_or.mpr ⟨by rwa [length], not_not.mpr magic⟩), announced,
      if_pos (Or.inr missing)]

/-- At most one record has been written to the journal. -/
def WritesRecord (log next : C4Log) : Prop :=
  next.journal = log.journal ∨
    ∃ record : JournalRecord, record.Written ∧ next.journal = log.journal ++ record.bytes

theorem writesRecord_c4LogPrepare (log : C4Log) (entry : C4LogEntry) :
    log.WritesRecord (c4LogPrepare log entry).1 := by
  have outcome := c4LogPrepare_outcome log entry
  generalize c4LogPrepare log entry = result at outcome ⊢
  cases outcome with
  | refused code => exact Or.inl rfl
  | repeated row found same live => exact Or.inl rfl
  | accepted sound small absent expected =>
    exact Or.inr ⟨.prepare entry, ⟨sound, small⟩, rfl⟩

theorem writesRecord_decided (log : C4Log) (row : C4Transaction) (id : TransactionId) :
    log.WritesRecord (log.decided row id) := by
  unfold decided
  split
  · exact Or.inr ⟨.commit id, trivial, rfl⟩
  · exact Or.inl rfl

theorem journal_appendLocked {log next : C4Log} {entry : C4LogEntry}
    (appended : appendLocked log entry true = .ok next) : next.journal = log.journal := by
  have outcome := appendLocked_outcome log entry
  rw [appended] at outcome
  cases outcome <;> rfl

theorem writesRecord_c4LogCommit (log : C4Log) (id : TransactionId) :
    log.WritesRecord (c4LogCommit log id).1 := by
  have outcome := c4LogCommit_outcome log id
  generalize c4LogCommit log id = result at outcome ⊢
  cases outcome with
  | refused dead => exact Or.inl rfl
  | stuck row code found live failed => exact writesRecord_decided log row id
  | done row next found live appended =>
    have written := writesRecord_decided log row id
    unfold WritesRecord at written ⊢
    rw [journal_appendLocked appended]
    exact written

theorem writesRecord_c4LogAbort (log : C4Log) (id : TransactionId) :
    log.WritesRecord (c4LogAbort log id).1 := by
  have outcome := c4LogAbort_outcome log id
  generalize c4LogAbort log id = result at outcome ⊢
  cases outcome with
  | repeated row found dead => exact Or.inl rfl
  | refused row found live settled => exact Or.inl rfl
  | aborted row found pending => exact Or.inr ⟨.abort id, trivial, rfl⟩
  | unknown absent => exact Or.inr ⟨.abort id, trivial, rfl⟩

/-- A call writes at most one record to the journal. -/
theorem writesRecord_perform (log : C4Log) (call : LogCall) :
    log.WritesRecord (log.perform call) := by
  cases call with
  | prepare entry => exact writesRecord_c4LogPrepare log entry
  | commit id => exact writesRecord_c4LogCommit log id
  | abort id => exact writesRecord_c4LogAbort log id
  | appendEntry entry =>
    show log.WritesRecord (c4LogAppendEntry log entry).1
    rw [c4LogAppendEntry]
    cases appended : appendLocked log entry true with
    | error code => exact Or.inl rfl
    | ok next => exact Or.inl (journal_appendLocked appended)

/-- If the files open without the first bytes of a record, then they open with them, and as the
same log. -/
def ToleratesTorn (log : C4Log) (torn : List UInt8) : Prop :=
  ∀ opened, c4LogOpen log.file log.journal = .ok opened →
    ∃ reopened, c4LogOpen log.file (log.journal ++ torn) = .ok reopened ∧
      reopened.entries = opened.entries ∧ reopened.transactions = opened.transactions

/-- The same log with other bytes as its journal. -/
def withJournal (log : C4Log) (journal : List UInt8) : C4Log := { log with journal := journal }

theorem appendLocked_withJournal (log : C4Log) (entry : C4LogEntry) (persist : Bool)
    (journal : List UInt8) : appendLocked (log.withJournal journal) entry persist =
      (appendLocked log entry persist).map (withJournal · journal) := by
  unfold appendLocked
  by_cases sound : entry.Sound
  · rw [if_neg (not_not.mpr sound), if_neg (not_not.mpr sound)]
    rw [show findEntry (log.withJournal journal) entry.transactionId =
      findEntry log entry.transactionId from rfl]
    cases findEntry log entry.transactionId with
    | some old =>
      dsimp only
      split <;> rfl
    | none =>
      dsimp only
      change (if entry.index ≠ nextIndex log ∨ entry.version ≠ nextVersion log then _ else
        if log.entries.length ≥ entryCapacity then _ else _) = _
      split
      · rfl
      · split <;> rfl
  · rw [if_pos sound, if_pos sound]
    rfl

omit [Zlib] in
theorem replayPrepare_withJournal (log : C4Log) (entry : C4LogEntry) (journal : List UInt8) :
    replayPrepare (log.withJournal journal) entry =
      (replayPrepare log entry).map (withJournal · journal) := by
  unfold replayPrepare
  rw [show findTransaction (log.withJournal journal) entry.transactionId =
      findTransaction log entry.transactionId from rfl,
    show c4LogGetTransaction (log.withJournal journal) entry.transactionId =
      c4LogGetTransaction log entry.transactionId from rfl,
    show expectedNext (log.withJournal journal) = expectedNext log from rfl]
  split
  · rfl
  · cases c4LogGetTransaction log entry.transactionId with
    | ok committed =>
      dsimp only
      split <;> rfl
    | error code =>
      dsimp only
      split <;> rfl

theorem replayDecision_withJournal (log : C4Log) (type : UInt8) (id : TransactionId)
    (journal : List UInt8) : replayDecision (log.withJournal journal) type id =
      (replayDecision log type id).map (withJournal · journal) := by
  unfold replayDecision
  rw [show findTransaction (log.withJournal journal) id = findTransaction log id from rfl]
  cases findTransaction log id with
  | none =>
    dsimp only
    split <;> rfl
  | some row =>
    dsimp only
    split
    · split
      · exact appendLocked_withJournal (setTransactionState log id .committed) row.entry true journal
      · rfl
    · split <;> rfl

/-- The replay of the journal does not look at the bytes of the journal. -/
theorem replay_withJournal (log : C4Log) (record : JournalRecord) (journal : List UInt8) :
    record.replay (log.withJournal journal) =
      (record.replay log).map (withJournal · journal) := by
  cases record with
  | prepare entry => exact replayPrepare_withJournal log entry journal
  | commit id => exact replayDecision_withJournal log c4TxnCommit id journal
  | abort id => exact replayDecision_withJournal log c4TxnAbort id journal

theorem foldlM_replay_withJournal (log : C4Log) (records : List JournalRecord)
    (journal : List UInt8) : records.foldlM JournalRecord.replay (log.withJournal journal) =
      (records.foldlM JournalRecord.replay log).map (withJournal · journal) := by
  induction records generalizing log with
  | nil => rfl
  | cons record rest inductionHypothesis =>
    rw [List.foldlM_cons, List.foldlM_cons, replay_withJournal]
    cases record.replay log with
    | error code => rfl
    | ok next => exact inductionHypothesis next

/-- Files that open are refused with a part of a record at the end of the journal. -/
theorem c4LogOpen_tornJournal {log next opened : C4Log} (changes : Changes fresh log)
    (writes : log.WritesRecord next) {record : List UInt8}
    (written : next.journal = log.journal ++ record)
    (opens : c4LogOpen log.file log.journal = .ok opened) {count : Nat} (some : 0 < count)
    (short : count < record.length) :
    c4LogOpen log.file (log.journal ++ record.take count) = .error .ebadmsg := by
  have valid := changes.valid valid_fresh
  obtain ⟨records, journaled⟩ := journaled_of_changes changes
  obtain ⟨whole, isWritten, rfl⟩ : ∃ whole : JournalRecord, whole.Written ∧ record = whole.bytes := by
    rcases writes with nothing | ⟨whole, isWritten, appended⟩
    · rw [nothing] at written
      rw [List.self_eq_append_right.mp written] at short
      cases short
    · exact ⟨whole, isWritten, List.append_cancel_left (written.symm.trans appended)⟩
  have loaded := loadEntries_fileOf [] log.entries fresh rfl valid.entries
  change loadEntries (fileOf log.entries) fresh 0 = _ at loaded
  rw [c4LogOpen, journaled.file, loaded, journaled.journal] at opens
  rw [c4LogOpen, journaled.file, loaded, journaled.journal]
  have replayed : records.foldlM JournalRecord.replay
      ⟨log.entries, [], fileOf log.entries, journalOf records⟩ = .ok opened := by
    rw [← opens]
    exact (loadJournal_journalOf journaled.written [] _).symm
  -- The replay of the whole records goes as without the part, and then meets the part.
  have again := foldlM_replay_withJournal
    ⟨log.entries, [], fileOf log.entries, journalOf records⟩ records
    (journalOf records ++ whole.bytes.take count)
  rw [replayed] at again
  have scanned := loadJournal_append journaled.written [] (whole.bytes.take count)
    (withJournal ⟨log.entries, [], fileOf log.entries, journalOf records⟩
      (journalOf records ++ whole.bytes.take count))
  rw [again, List.nil_append, List.nil_append] at scanned
  exact scanned.trans (loadJournal_torn _ isWritten some short _)

/-- If the files of a history open, then with the first bytes of the record that the next call
writes to the journal they open as the same log exactly when there is no such byte. Otherwise the
journal is refused as truncated. -/
theorem torn_journal_iff (calls : List LogCall) (call : LogCall) {record : List UInt8}
    (writes : ((history calls).perform call).journal = (history calls).journal ++ record)
    {count : Nat} (short : count < record.length) {opened : C4Log}
    (opens : c4LogOpen (history calls).file (history calls).journal = .ok opened) :
    ((history calls).ToleratesTorn (record.take count) ↔ count = 0) ∧
      (0 < count → c4LogOpen (history calls).file ((history calls).journal ++ record.take count) =
        .error .ebadmsg) := by
  have refused : 0 < count → c4LogOpen (history calls).file
      ((history calls).journal ++ record.take count) = .error .ebadmsg := fun some =>
    c4LogOpen_tornJournal (changes_history calls) (writesRecord_perform (history calls) call) writes
      opens some short
  refine ⟨⟨fun tolerates => ?_, fun nothing => ?_⟩, refused⟩
  · by_contra torn
    obtain ⟨reopened, again, -⟩ := tolerates opened opens
    rw [refused (Nat.pos_of_ne_zero torn)] at again
    cases again
  · intro other done
    rw [nothing, List.take_zero, List.append_nil]
    exact ⟨other, done, rfl, rfl⟩

end C4Log

end Torn

/-- A transaction at the start of a new log. -/
def firstPrepare [Zlib] : LogCall :=
  .prepare (C4LogEntry.build 1 1 (Octets.fill transactionIdSize 1) [] length_nil_lt)

/-- All that the journal holds after it is its record, which has more than one byte. -/
theorem firstPrepare_written :
    letI := Zlib.reference
    ((C4Log.history []).perform firstPrepare).journal =
        (C4Log.history []).journal ++ ((C4Log.history []).perform firstPrepare).journal ∧
      1 < ((C4Log.history []).perform firstPrepare).journal.length :=
  ⟨(List.nil_append _).symm, by decide +kernel⟩

/-- A new log whose first `PREPARE` record has reached the journal with one byte: without that
byte the files open, with it they do not. -/
theorem not_toleratesTorn_firstByte :
    letI := Zlib.reference
    ∃ record, ((C4Log.history []).perform firstPrepare).journal =
        (C4Log.history []).journal ++ record ∧ 1 < record.length ∧
      ¬ (C4Log.history []).ToleratesTorn (record.take 1) := by
  let zlib := Zlib.reference
  obtain ⟨written, longer⟩ := firstPrepare_written
  refine ⟨_, written, longer, fun tolerates => ?_⟩
  have opens := C4Log.c4LogOpen_fileOf C4Log.valid_fresh.entries
  have refused := C4Log.c4LogOpen_tornJournal (C4Log.changes_history [])
    (C4Log.writesRecord_perform _ firstPrepare) written opens Nat.one_pos longer
  obtain ⟨reopened, done, -⟩ := tolerates _ opens
  rw [refused] at done
  cases done

/-- Without any byte of it the files open as before, and with one byte they are refused. -/
theorem toleratesTorn_nothing :
    letI := Zlib.reference
    (C4Log.history []).ToleratesTorn
        (((C4Log.history []).perform firstPrepare).journal.take 0) ∧
      c4LogOpen (C4Log.history []).file ((C4Log.history []).journal ++
        ((C4Log.history []).perform firstPrepare).journal.take 1) = .error .ebadmsg := by
  let zlib := Zlib.reference
  obtain ⟨written, longer⟩ := firstPrepare_written
  have opens := C4Log.c4LogOpen_fileOf C4Log.valid_fresh.entries
  have nonempty := Nat.lt_of_succ_lt longer
  exact ⟨(C4Log.torn_journal_iff [] firstPrepare written nonempty opens).1.mpr rfl,
    (C4Log.torn_journal_iff [] firstPrepare written longer opens).2 Nat.one_pos⟩

end SuperPeerNet
