/-
This file shows that the journal alone rebuilds a log that only two-phase commit has
changed. Without the `C4LG` file the replay starts from an empty log, so every
`PREPARE` record is checked against the very log it was written for, and every
`COMMIT` record appends the entry that the live call appended. The simulation needs
two facts about the live log: every committed entry has a row in the table, and every
row that is decided to commit has its entry in the log. The second one is where the
hypothesis enters: it fails after a commit whose append was refused.
-/

import Mathlib.Data.List.Induction
import SuperPeerNet.Log.Restart

namespace SuperPeerNet

section Replay

variable [Zlib]

/-- The calls of two-phase commit. -/
def LogCall.TwoPhase : LogCall → Prop
  | .prepare _ => True
  | .commit _ => True
  | .abort _ => True
  | .appendEntry _ => False

namespace C4Log

/-- In a sequence of calls on a fresh log, every commit of a prepared transaction returned 0. -/
def CommitsSucceed (calls : List LogCall) : Prop :=
  ∀ past id later, calls = past ++ .commit id :: later →
    c4LogTransactionState (history past) id = .prepared →
    ∃ entry, (c4LogCommit (history past) id).2 = .ok entry

/-- Opening the journal of a log without its `C4LG` file gives back its entries and the state of
every transaction. -/
def RebuiltByJournal (log : C4Log) : Prop :=
  ∃ reopened, c4LogOpen [] log.journal = .ok reopened ∧ reopened.entries = log.entries ∧
    ∀ id, c4LogTransactionState reopened id = c4LogTransactionState log id

/-! ### The simulation -/

/-- A log and the records of its journal, replayed from an empty log. -/
structure Mirrored (log : C4Log) (records : List JournalRecord) : Prop where
  journal : log.journal = journalOf records
  written : ∀ record ∈ records, record.Written
  replay : ∀ base : C4Log, base.entries = [] → base.transactions = [] →
    ∃ reached, records.foldlM JournalRecord.replay base = .ok reached ∧
      reached.entries = log.entries ∧ reached.transactions = log.transactions
  /-- Every committed entry has a row. -/
  rows : ∀ id, findTransaction log id = none → findEntry log id = none
  /-- Every transaction that is decided to commit is committed. -/
  decided : ∀ id row, findTransaction log id = some row → row.state = .committed →
    findEntry log id = some row.entry

theorem mirrored_fresh : Mirrored fresh [] where
  journal := rfl
  written := by
    intro record member
    cases member
  replay := fun base entries transactions => ⟨base, rfl, entries, transactions⟩
  rows := fun _ _ => rfl
  decided := by
    intro id row found
    cases found

/-- A change that writes one record, given what the replay does with the record on a log with
the same entries and the same table. -/
theorem Mirrored.replay_push {log next : C4Log} {records : List JournalRecord}
    (mirrored : log.Mirrored records) {record : JournalRecord}
    (step : ∀ reached : C4Log, reached.entries = log.entries →
      reached.transactions = log.transactions →
      ∃ after, record.replay reached = .ok after ∧ after.entries = next.entries ∧
        after.transactions = next.transactions) (base : C4Log) (entries : base.entries = [])
    (transactions : base.transactions = []) :
    ∃ reached, (records ++ [record]).foldlM JournalRecord.replay base = .ok reached ∧
      reached.entries = next.entries ∧ reached.transactions = next.transactions := by
  obtain ⟨reached, first, sameEntries, sameTable⟩ := mirrored.replay base entries transactions
  obtain ⟨after, second, nextEntries, nextTable⟩ := step reached sameEntries sameTable
  refine ⟨after, ?_, nextEntries, nextTable⟩
  rw [foldlM_replay_append, bind_eq_ok]
  exact ⟨reached, first, second⟩

theorem Mirrored.written_push {log : C4Log} {records : List JournalRecord}
    (mirrored : log.Mirrored records) {record : JournalRecord} (written : record.Written) :
    ∀ other ∈ records ++ [record], other.Written := by
  intro other member
  rcases List.mem_append.mp member with old | new
  · exact mirrored.written other old
  · rw [List.mem_singleton.mp new]
    exact written

theorem Mirrored.journal_push {log : C4Log} {records : List JournalRecord}
    (mirrored : log.Mirrored records) (record : JournalRecord) :
    log.journal ++ record.bytes = journalOf (records ++ [record]) := by
  rw [mirrored.journal, journalOf, journalOf, List.flatMap_append, List.flatMap_singleton]

omit [Zlib] in
/-- What a log expects depends on its entries and its table only. -/
theorem expectedNext_congr {log other : C4Log} (entries : other.entries = log.entries)
    (transactions : other.transactions = log.transactions) :
    SuperPeerNet.expectedNext other = SuperPeerNet.expectedNext log := by
  unfold SuperPeerNet.expectedNext nextIndex nextVersion
  rw [entries, transactions]

theorem Mirrored.prepare {log : C4Log} {records : List JournalRecord}
    (mirrored : log.Mirrored records) {entry : C4LogEntry} (sound : entry.Sound)
    (small : entry.payload.length ≤ maxPayloadSize - c4LogHeaderSize)
    (absent : findTransaction log entry.transactionId = none)
    (expected : SuperPeerNet.expectedNext log = (entry.index, entry.version)) :
    (log.withPrepared entry).Mirrored (records ++ [.prepare entry]) where
  journal := mirrored.journal_push (.prepare entry)
  written := mirrored.written_push ⟨sound, small⟩
  replay := by
    refine mirrored.replay_push fun reached entries transactions => ?_
    refine ⟨_, replayPrepare_ok.mpr ⟨?_, Or.inr ⟨?_, ?_⟩, rfl⟩, entries, ?_⟩
    · rw [findTransaction_rebase transactions]
      exact absent
    · rw [findEntry_congr entries]
      exact mirrored.rows _ absent
    · rw [expectedNext_congr entries transactions]
      exact expected
    · show reached.transactions ++ _ = _
      rw [transactions]
      rfl
  rows := by
    intro id missing
    rw [findTransaction_withPrepared, Option.or_eq_none_iff] at missing
    exact mirrored.rows id missing.1
  decided := by
    intro id row found committed
    rw [findTransaction_withPrepared, Option.or_eq_some_iff] at found
    rcases found with old | ⟨-, new⟩
    · exact mirrored.decided id row old committed
    · split at new
      · cases new
        cases committed
      · cases new

/-- The replay of a commit decision does what the live call did: it decides the row and appends
its entry, or finds it appended. -/
theorem replay_commit {log next reached : C4Log} {row : C4Transaction} {id : TransactionId}
    (found : findTransaction log id = some row) (pending : row.Pending)
    (appended : appendLocked (log.withDecision id c4TxnCommit .committed) row.entry true = .ok next)
    (entries : reached.entries = log.entries)
    (transactions : reached.transactions = log.transactions) :
    ∃ after, JournalRecord.replay reached (.commit id) = .ok after ∧ after.entries = next.entries ∧
      after.transactions = next.transactions := by
  have foundReached := (findTransaction_rebase transactions id).trans found
  have table : (setTransactionState reached id .committed).transactions =
      (log.withDecision id c4TxnCommit .committed).transactions := by
    rw [setTransactionState, transactions]
    rfl
  show ∃ after, replayDecision reached c4TxnCommit id = .ok after ∧ _
  rw [replayDecision_commit foundReached pending]
  have outcome := appendLocked_outcome (log.withDecision id c4TxnCommit .committed) row.entry
  rw [appended] at outcome
  cases outcome with
  | repeated sound committed =>
    refine ⟨_, appendLocked_of_found sound ?_ true, entries, table⟩
    exact (findEntry_congr (show (setTransactionState reached id .committed).entries = _ from
      entries) _).trans committed
  | appended fits absent =>
    refine ⟨_, appendLocked_withEntry (fits.congr entries) ?_, ?_, table⟩
    · exact (findEntry_congr (show (setTransactionState reached id .committed).entries = _ from
        entries) _).trans absent
    · rw [withEntry_entries, withEntry_entries]
      exact congrArg (· ++ [row.entry]) entries

theorem Mirrored.commit {log next : C4Log} {records : List JournalRecord}
    (mirrored : log.Mirrored records) {row : C4Transaction} {id : TransactionId}
    (found : findTransaction log id = some row) (pending : row.Pending)
    (appended : appendLocked (log.withDecision id c4TxnCommit .committed) row.entry true =
      .ok next) : next.Mirrored (records ++ [.commit id]) := by
  have key := findTransaction_id found
  have replayed := mirrored.replay_push fun reached entries transactions =>
    replay_commit found pending appended entries transactions
  have outcome := appendLocked_outcome (log.withDecision id c4TxnCommit .committed) row.entry
  rw [appended] at outcome
  have undecided : ∀ other, findTransaction (log.withDecision id c4TxnCommit .committed) other =
      none → findEntry log other = none ∧ other ≠ id := by
    intro other missing
    rw [findTransaction_withDecision] at missing
    split at missing
    · rename_i same
      rw [same, found] at missing
      cases missing
    · rename_i different
      exact ⟨mirrored.rows other missing, different⟩
  have others : ∀ other otherRow, findTransaction (log.withDecision id c4TxnCommit .committed)
      other = some otherRow → otherRow.state = .committed → other ≠ id →
      findEntry log other = some otherRow.entry := by
    intro other otherRow foundOther committed different
    rw [findTransaction_withDecision, if_neg different] at foundOther
    exact mirrored.decided other otherRow foundOther committed
  have entry : ∀ otherRow, findTransaction (log.withDecision id c4TxnCommit .committed) id =
      some otherRow → otherRow.entry = row.entry := by
    intro otherRow foundOther
    rw [findTransaction_withDecision, if_pos rfl, found] at foundOther
    cases foundOther
    rfl
  cases outcome with
  | repeated sound committed =>
    refine ⟨mirrored.journal_push (.commit id), mirrored.written_push trivial, replayed,
      fun other missing => (undecided other missing).1, fun other otherRow foundOther state => ?_⟩
    by_cases same : other = id
    · rw [same] at foundOther ⊢
      rw [entry otherRow foundOther, ← key]
      exact committed
    · exact others other otherRow foundOther state same
  | appended fits absent =>
    refine ⟨mirrored.journal_push (.commit id), mirrored.written_push trivial, replayed, ?_, ?_⟩
    · intro other missing
      obtain ⟨notCommitted, different⟩ := undecided other missing
      rw [findEntry_withEntry, key, if_neg different.symm]
      rw [findEntry_withDecision, notCommitted]
      rfl
    · intro other otherRow foundOther state
      rw [findEntry_withEntry, key]
      by_cases same : other = id
      · rw [same] at foundOther ⊢
        rw [key] at absent
        rw [absent, if_pos rfl, entry otherRow foundOther]
        rfl
      · rw [findEntry_withDecision, others other otherRow foundOther state same]
        rfl

theorem Mirrored.abort {log : C4Log} {records : List JournalRecord}
    (mirrored : log.Mirrored records) {row : C4Transaction} {id : TransactionId}
    (found : findTransaction log id = some row) (pending : row.Pending) :
    (log.withDecision id c4TxnAbort .aborted).Mirrored (records ++ [.abort id]) where
  journal := mirrored.journal_push (.abort id)
  written := mirrored.written_push trivial
  replay := by
    refine mirrored.replay_push fun reached entries transactions => ?_
    refine ⟨_, replayDecision_abort ((findTransaction_rebase transactions id).trans found) pending,
      entries, ?_⟩
    rw [setTransactionState, transactions]
    rfl
  rows := by
    intro other missing
    rw [findTransaction_withDecision] at missing
    split at missing
    · exact mirrored.rows other (Option.map_eq_none_iff.mp missing)
    · exact mirrored.rows other missing
  decided := by
    intro other otherRow foundOther committed
    rw [findTransaction_withDecision] at foundOther
    split at foundOther
    · obtain ⟨old, -, rfl⟩ := Option.map_eq_some_iff.mp foundOther
      cases committed
    · exact mirrored.decided other otherRow foundOther committed

theorem Mirrored.abortUnknown {log : C4Log} {records : List JournalRecord}
    (mirrored : log.Mirrored records) {id : TransactionId}
    (absent : findTransaction log id = none) :
    (log.withTombstone id).Mirrored (records ++ [.abort id]) where
  journal := mirrored.journal_push (.abort id)
  written := mirrored.written_push trivial
  replay := by
    refine mirrored.replay_push fun reached entries transactions => ?_
    refine ⟨_, replayDecision_abortUnknown ((findTransaction_rebase transactions id).trans absent),
      entries, ?_⟩
    show reached.transactions ++ _ = _
    rw [transactions]
    rfl
  rows := by
    intro other missing
    rw [findTransaction_withTombstone, Option.or_eq_none_iff] at missing
    exact mirrored.rows other missing.1
  decided := by
    intro other row found committed
    rw [findTransaction_withTombstone, Option.or_eq_some_iff] at found
    rcases found with old | ⟨-, new⟩
    · exact mirrored.decided other row old committed
    · split at new
      · cases new
        cases committed
      · cases new

/-! ### Every call keeps the simulation -/

theorem Mirrored.c4LogPrepare {log : C4Log} {records : List JournalRecord}
    (mirrored : log.Mirrored records) (entry : C4LogEntry) :
    ∃ records, (SuperPeerNet.c4LogPrepare log entry).1.Mirrored records := by
  have outcome := c4LogPrepare_outcome log entry
  generalize SuperPeerNet.c4LogPrepare log entry = result at outcome
  cases outcome with
  | refused code => exact ⟨records, mirrored⟩
  | repeated row found same live => exact ⟨records, mirrored⟩
  | accepted sound small absent expected =>
    exact ⟨_, mirrored.prepare sound small absent expected⟩

/-- A commit that returned 0 keeps the simulation, and so does one that found nothing prepared. A
repeated commit writes no record and finds its entry in the log. -/
theorem Mirrored.c4LogCommit {log : C4Log} {records : List JournalRecord}
    (mirrored : log.Mirrored records) (valid : log.Valid) (id : TransactionId)
    (succeeds : c4LogTransactionState log id = .prepared →
      ∃ entry, (SuperPeerNet.c4LogCommit log id).2 = .ok entry) :
    ∃ records, (SuperPeerNet.c4LogCommit log id).1.Mirrored records := by
  have outcome := c4LogCommit_outcome log id
  generalize SuperPeerNet.c4LogCommit log id = result at outcome succeeds
  have repeated : ∀ row, findTransaction log id = some row → row.state ≠ .aborted →
      ¬ row.Pending → appendLocked (log.decided row id) row.entry true = .ok log := by
    intro row found live settled
    have checked := valid.checked (KeyedList.lookup_mem found) live
    have committed : row.state = .committed := by
      cases state : row.state with
      | unknown => exact absurd state checked.known
      | prepared => exact absurd state settled
      | committed => rfl
      | aborted => exact absurd state live
    rw [C4Log.decided, if_neg (show ¬ row.state = .prepared from settled)]
    refine appendLocked_of_found checked.sound ?_ true
    rw [findTransaction_id found]
    exact mirrored.decided id row found committed
  cases outcome with
  | refused dead => exact ⟨records, mirrored⟩
  | stuck row code found live failed =>
    by_cases pending : row.Pending
    · obtain ⟨entry, done⟩ := succeeds ((c4LogTransactionState_of_found found).trans pending)
      cases done
    · rw [repeated row found live pending] at failed
      cases failed
  | done row next found live appended =>
    by_cases pending : row.Pending
    · rw [C4Log.decided, if_pos (show row.state = .prepared from pending)] at appended
      exact ⟨_, mirrored.commit found pending appended⟩
    · rw [repeated row found live pending] at appended
      cases appended
      exact ⟨records, mirrored⟩

theorem Mirrored.c4LogAbort {log : C4Log} {records : List JournalRecord}
    (mirrored : log.Mirrored records) (id : TransactionId) :
    ∃ records, (SuperPeerNet.c4LogAbort log id).1.Mirrored records := by
  have outcome := c4LogAbort_outcome log id
  generalize SuperPeerNet.c4LogAbort log id = result at outcome
  cases outcome with
  | repeated row found dead => exact ⟨records, mirrored⟩
  | refused row found live settled => exact ⟨records, mirrored⟩
  | aborted row found pending => exact ⟨_, mirrored.abort found pending⟩
  | unknown absent => exact ⟨_, mirrored.abortUnknown absent⟩

theorem mirrored_history (calls : List LogCall) (twoPhase : ∀ call ∈ calls, call.TwoPhase)
    (succeed : CommitsSucceed calls) : ∃ records, (history calls).Mirrored records := by
  induction calls using List.reverseRecOn with
  | nil => exact ⟨[], mirrored_fresh⟩
  | append_singleton past call inductionHypothesis =>
    have earlier : CommitsSucceed past := by
      intro front id later split
      refine succeed front id (later ++ [call]) ?_
      rw [split, List.append_assoc]
      rfl
    obtain ⟨records, mirrored⟩ := inductionHypothesis
      (fun other member => twoPhase other (List.mem_append_left _ member)) earlier
    rw [history_append]
    have admitted := twoPhase call (by simp)
    cases call with
    | prepare entry => exact mirrored.c4LogPrepare entry
    | commit id => exact mirrored.c4LogCommit (valid_history past) id (succeed past id [] rfl)
    | abort id => exact mirrored.c4LogAbort id
    | appendEntry entry => exact admitted.elim

/-! ### The journal alone -/

theorem Mirrored.rebuiltByJournal {log : C4Log} {records : List JournalRecord}
    (mirrored : log.Mirrored records) : log.RebuiltByJournal := by
  let base : C4Log := { fresh with journal := log.journal }
  have loaded : loadEntries [] fresh 0 = .ok fresh := by
    rw [loadEntries, if_neg (by simp)]
    rfl
  have replayed := loadJournal_journalOf mirrored.written [] base
  rw [List.nil_append, List.length_nil, ← mirrored.journal] at replayed
  obtain ⟨reached, done, entries, transactions⟩ := mirrored.replay base rfl rfl
  refine ⟨reached, ?_, entries, fun id => ?_⟩
  · rw [c4LogOpen, loaded]
    exact replayed.trans done
  · rw [c4LogTransactionState, findTransaction_rebase transactions]
    rfl

/-- After any calls of two-phase commit on a fresh log in which every commit of a prepared
transaction returned 0, the journal alone rebuilds the log. -/
theorem journal_rebuilds (calls : List LogCall) (twoPhase : ∀ call ∈ calls, call.TwoPhase)
    (succeed : CommitsSucceed calls) : (history calls).RebuiltByJournal := by
  obtain ⟨records, mirrored⟩ := mirrored_history calls twoPhase succeed
  exact mirrored.rebuiltByJournal

end C4Log

end Replay

/-- A prepared transaction is committed, and an unknown one is aborted. -/
def commitAndTombstone [Zlib] : List LogCall :=
  let first : TransactionId := Octets.fill transactionIdSize 1
  [.prepare (C4LogEntry.build 1 1 first [] length_nil_lt), .commit first,
    .abort (Octets.fill transactionIdSize 2)]

/-- The journal of this history holds three records and rebuilds its log. -/
theorem journal_rebuilds_commitAndTombstone :
    letI := Zlib.reference
    (C4Log.history commitAndTombstone).entries.length = 1 ∧
      (C4Log.history commitAndTombstone).RebuiltByJournal := by
  let zlib := Zlib.reference
  refine ⟨by decide +kernel, C4Log.journal_rebuilds commitAndTombstone ?_ ?_⟩
  · intro call member
    simp only [commitAndTombstone, List.mem_cons, List.not_mem_nil, or_false] at member
    rcases member with rfl | rfl | rfl <;> trivial
  · intro past id later split
    rcases past with _ | ⟨first, _ | ⟨second, _ | ⟨third, rest⟩⟩⟩
    · cases split
    · cases split
      exact fun _ => ⟨C4LogEntry.build 1 1 (Octets.fill transactionIdSize 1) [] length_nil_lt,
        by decide +kernel⟩
    · cases split
    · have length := congrArg List.length split
      simp [commitAndTombstone] at length

end SuperPeerNet
