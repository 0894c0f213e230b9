/-
This file settles when a restart restores the log.

`c4_log_open` loads the whole `C4LG` file before it replays the journal, so every
`PREPARE` record is checked against a longer log than the one it was written for.
The table of a live log is rebuilt record by record exactly when each prepared entry
is either the committed entry of its transaction or lies beyond the end of the log,
and no decided commit is missing from the log. The proof follows the changes of the
live log and generalises the log that the replay starts from: any valid extension of
the entries that are committed so far.
-/

import SuperPeerNet.Log.Open

namespace SuperPeerNet

section Restart

variable [Zlib]

/-! ### The property and its condition -/

namespace C4Log

/-- Closing a log and opening its two files gives back its entries and the state of every
transaction. -/
def Restores (log : C4Log) : Prop :=
  ∃ reopened, c4LogOpen log.file log.journal = .ok reopened ∧
    reopened.entries = log.entries ∧
    ∀ id, c4LogTransactionState reopened id = c4LogTransactionState log id

/-- A row that the replay accepts on top of committed entries: its entry is committed, or its
transaction is not, is not decided to be, and was prepared beyond the end of the log. -/
def RowReplayable (entries : List C4LogEntry) (row : C4Transaction) : Prop :=
  KeyedList.lookup C4LogEntry.transactionId entries row.id = some row.entry ∨
    KeyedList.lookup C4LogEntry.transactionId entries row.id = none ∧
      entries.length < row.entry.index.toNat ∧ row.state ≠ .committed

/-- Every transaction of a log is an abort tombstone or replayable on the given entries. -/
def ReplayableOn (log : C4Log) (entries : List C4LogEntry) : Prop :=
  ∀ id row, findTransaction log id = some row → row ≠ tombstone id → RowReplayable entries row

/-- Every transaction of a log is an abort tombstone or replayable on the log's own entries. -/
def Replayable (log : C4Log) : Prop := log.ReplayableOn log.entries

/-! ### Tables that grow by one row or change in one row -/

omit [Zlib] in
theorem replayableOn_push {log next : C4Log} (row : C4Transaction) {entries : List C4LogEntry}
    (absent : findTransaction log row.id = none)
    (pushed : next.transactions = log.transactions ++ [row]) :
    next.ReplayableOn entries ↔
      log.ReplayableOn entries ∧ (row ≠ tombstone row.id → RowReplayable entries row) := by
  have found : ∀ id, findTransaction next id =
      (findTransaction log id).or (if row.id = id then some row else none) := by
    intro id
    rw [findTransaction, pushed, KeyedList.lookup_append, KeyedList.lookup_singleton]
    rfl
  constructor
  · intro all
    refine ⟨fun id other inLog => all id other ?_, all row.id row ?_⟩
    · rw [found, inLog]
      rfl
    · rw [found, absent, if_pos rfl]
      rfl
  · rintro ⟨old, new⟩ id other inNext
    rw [found, Option.or_eq_some_iff] at inNext
    rcases inNext with inLog | ⟨-, isNew⟩
    · exact old id other inLog
    · split at isNew
      · rename_i same
        cases isNew
        rw [← same]
        exact new
      · cases isNew

/-- The transactions other than one are replayable. -/
def OthersReplayable (log : C4Log) (id : TransactionId) (entries : List C4LogEntry) : Prop :=
  ∀ other row, other ≠ id → findTransaction log other = some row → row ≠ tombstone other →
    RowReplayable entries row

omit [Zlib] in
theorem replayableOn_split {log : C4Log} {row : C4Transaction} {id : TransactionId}
    {entries : List C4LogEntry} (found : findTransaction log id = some row)
    (prepared : row ≠ tombstone id) :
    log.ReplayableOn entries ↔ log.OthersReplayable id entries ∧ RowReplayable entries row := by
  constructor
  · intro all
    exact ⟨fun other row' _ inLog => all other row' inLog, all id row found prepared⟩
  · rintro ⟨others, this⟩ other row' inLog
    by_cases same : other = id
    · subst same
      cases found.symm.trans inLog
      exact fun _ => this
    · exact others other row' same inLog

/-- A decision changes nothing but the state of the decided row. -/
theorem replayableOn_decision {log : C4Log} (valid : log.Valid) {row : C4Transaction}
    {id : TransactionId} (found : findTransaction log id = some row) (pending : row.Pending)
    (entries : List C4LogEntry) (type : UInt8) (state : C4TransactionState) :
    (log.withDecision id type state).ReplayableOn entries ↔
      log.OthersReplayable id entries ∧ RowReplayable entries { row with state := state } := by
  have index : row.entry.index ≠ 0 :=
    (valid.checked (KeyedList.lookup_mem found) (by rw [pending]; decide)).sound.1
  have decidedRow : findTransaction (log.withDecision id type state) id =
      some { row with state := state } := by
    rw [findTransaction_withDecision, if_pos rfl, found]
    rfl
  have prepared : ({ row with state := state } : C4Transaction) ≠ tombstone id := by
    intro same
    exact index (congrArg (fun row => row.entry.index) same)
  rw [replayableOn_split decidedRow prepared]
  refine and_congr_left fun _ => forall_congr' fun other => forall_congr' fun row' =>
    forall_congr' fun different => ?_
  rw [findTransaction_withDecision, if_neg different]

/-! ### What the replay of one record needs -/

/-- An index that a log expects is where the loop over the table ends. -/
theorem expectedNext_of_expects {log : C4Log} (valid : log.Valid) {index : UInt64}
    (expects : log.Expects index) : SuperPeerNet.expectedNext log = (index, index) := by
  have start : (nextIndex log).toNat ≤ index.toNat := by
    rw [toNat_nextIndex valid.entries]
    exact expects.afterLog
  have tight : index = nextIndex log ∨ ∃ row ∈ log.transactions, row.Pending ∧
      index.toNat = row.entry.index.toNat + 1 := by
    rcases expects.tight with atEnd | pending
    · exact Or.inl (UInt64.toNat_inj.mp (by rw [atEnd, toNat_nextIndex valid.entries]))
    · exact Or.inr pending
  have versions := valid.pendingVersion
  have below := expects.afterPending
  unfold SuperPeerNet.expectedNext
  rw [nextVersion_eq_nextIndex valid.entries]
  generalize nextIndex log = first at start tight
  generalize log.transactions = rows at tight versions below
  induction rows generalizing first with
  | nil =>
    rcases tight with same | ⟨row, member, -⟩
    · rw [same]
      rfl
    · cases member
  | cons row rest inductionHypothesis =>
    have restVersions := fun other member => versions other (List.mem_cons_of_mem _ member)
    have restBelow := fun other member => below other (List.mem_cons_of_mem _ member)
    rw [List.foldl_cons]
    by_cases raises : row.state = .prepared ∧ row.entry.index ≥ first
    · have rowBelow := UInt64.lt_iff_toNat_lt.mp (below row List.mem_cons_self raises.1)
      have bound := index.toNat_lt
      have successor : (row.entry.index + 1).toNat = row.entry.index.toNat + 1 := by
        rw [UInt64.toNat_add, UInt64.toNat_one]
        omega
      rw [raiseExpected, if_pos raises, versions row List.mem_cons_self raises.1]
      refine inductionHypothesis (row.entry.index + 1) (by omega) ?_ restVersions restBelow
      rcases tight with same | ⟨other, member, pending, value⟩
      · have above := UInt64.le_iff_toNat_le.mp raises.2
        rw [same] at rowBelow
        omega
      · rcases List.mem_cons.mp member with rfl | inRest
        · exact Or.inl (UInt64.toNat_inj.mp (by omega))
        · exact Or.inr ⟨other, inRest, pending, value⟩
    · rw [raiseExpected, if_neg raises]
      refine inductionHypothesis first start ?_ restVersions restBelow
      rcases tight with same | ⟨other, member, pending, value⟩
      · exact Or.inl same
      · rcases List.mem_cons.mp member with rfl | inRest
        · -- The pending index is below the start, so its successor is the start itself.
          have notAbove : other.entry.index.toNat < first.toNat := by
            by_contra above
            exact raises ⟨pending, UInt64.le_iff_toNat_le.mpr (by omega)⟩
          exact Or.inl (UInt64.toNat_inj.mp (by omega))
        · exact Or.inr ⟨other, inRest, pending, value⟩

omit [Zlib] in
theorem replayPrepare_ok {log next : C4Log} {entry : C4LogEntry} :
    replayPrepare log entry = .ok next ↔
      findTransaction log entry.transactionId = none ∧
        (findEntry log entry.transactionId = some entry ∨
          findEntry log entry.transactionId = none ∧
            SuperPeerNet.expectedNext log = (entry.index, entry.version)) ∧
        next = pushTransaction log ⟨entry, .prepared⟩ := by
  unfold replayPrepare c4LogGetTransaction
  by_cases absent : findTransaction log entry.transactionId = none
  · rw [if_neg (not_not.mpr absent)]
    cases found : findEntry log entry.transactionId with
    | some committed =>
      simp only [sameEntry_iff, absent, true_and, Option.some.injEq, reduceCtorEq, false_and,
        or_false]
      split
      · rename_i same
        simp only [same, Except.ok.injEq, true_and]
        exact eq_comm
      · rename_i different
        simp [different]
    | none =>
      simp only [absent, true_and, reduceCtorEq, false_or]
      split
      · rename_i misplaced
        constructor
        · intro accepted
          cases accepted
        · rintro ⟨same, -⟩
          rw [same] at misplaced
          simp at misplaced
      · rename_i placed
        rw [not_or, not_not, not_not] at placed
        simp only [Except.ok.injEq]
        exact ⟨fun same => ⟨Prod.ext placed.1.symm placed.2.symm, same.symm⟩,
          fun same => same.2.symm⟩
  · rw [if_pos absent]
    constructor
    · intro accepted
      cases accepted
    · rintro ⟨missing, -⟩
      exact absurd missing absent

theorem replayDecision_commit {log : C4Log} {id : TransactionId} {row : C4Transaction}
    (found : findTransaction log id = some row) (pending : row.Pending) :
    replayDecision log c4TxnCommit id =
      appendLocked (setTransactionState log id .committed) row.entry true := by
  have prepared : row.state = .prepared := pending
  simp [replayDecision, found, prepared]

theorem replayDecision_abort {log : C4Log} {id : TransactionId} {row : C4Transaction}
    (found : findTransaction log id = some row) (pending : row.Pending) :
    replayDecision log c4TxnAbort id = .ok (setTransactionState log id .aborted) := by
  have prepared : row.state = .prepared := pending
  have different : c4TxnAbort ≠ c4TxnCommit := by decide
  simp [replayDecision, found, prepared, different]

theorem replayDecision_abortUnknown {log : C4Log} {id : TransactionId}
    (absent : findTransaction log id = none) :
    replayDecision log c4TxnAbort id = .ok (pushTransaction log (tombstone id)) := by
  simp [replayDecision, absent]

/-! ### The journal of a live log -/

/-- What the replay of the journal does on a log that holds an extension of the entries
committed so far: it rebuilds the table whenever it succeeds, and it succeeds without a new
entry exactly when the table is replayable there. -/
structure Rebuilds (log : C4Log) (records : List JournalRecord) (base : C4Log) : Prop where
  table : ∀ next, records.foldlM JournalRecord.replay base = .ok next →
    base.entries <+: next.entries ∧ next.transactions = log.transactions
  succeeds : (∃ next, records.foldlM JournalRecord.replay base = .ok next ∧
    next.entries = base.entries) ↔ log.ReplayableOn base.entries

/-- The two files of a live log, and what a replay makes of its journal. -/
structure Journaled (log : C4Log) (records : List JournalRecord) : Prop where
  file : log.file = fileOf log.entries
  journal : log.journal = journalOf records
  written : ∀ record ∈ records, record.Written
  replay : ∀ base : C4Log, base.transactions = [] → ValidEntries base.entries →
    log.entries <+: base.entries → log.Rebuilds records base

theorem journaled_fresh : Journaled fresh [] where
  file := rfl
  journal := rfl
  written := nofun
  replay := by
    intro base empty _ _
    refine ⟨?_, ?_⟩
    · rintro next done
      cases done
      exact ⟨List.prefix_refl _, empty⟩
    · refine ⟨fun _ id row found => ?_, fun _ => ⟨base, rfl, rfl⟩⟩
      cases found

theorem foldlM_replay_append (records : List JournalRecord) (record : JournalRecord)
    (base : C4Log) : (records ++ [record]).foldlM JournalRecord.replay base =
      (records.foldlM JournalRecord.replay base).bind record.replay := by
  rw [List.foldlM_append]
  simp only [List.foldlM_cons, List.foldlM_nil, bind_pure]
  rfl

/-- A change that writes a record, given what the replay does with the record on every log
that it can have reached by then. -/
theorem Journaled.push {log next : C4Log} {records : List JournalRecord}
    (journaled : log.Journaled records) {record : JournalRecord} (written : record.Written)
    (file : next.file = log.file) (entries : next.entries = log.entries)
    (journal : next.journal = log.journal ++ record.bytes)
    (table : ∀ reached after : C4Log, reached.transactions = log.transactions →
      record.replay reached = .ok after →
      reached.entries <+: after.entries ∧ after.transactions = next.transactions)
    (succeeds : ∀ reached : C4Log, reached.transactions = log.transactions →
      ValidEntries reached.entries → log.entries <+: reached.entries →
      (next.ReplayableOn reached.entries ↔ log.ReplayableOn reached.entries ∧
        ∃ after, record.replay reached = .ok after ∧ after.entries = reached.entries)) :
    next.Journaled (records ++ [record]) := by
  refine ⟨?_, ?_, ?_, ?_⟩
  · rw [file, entries, journaled.file]
  · rw [journal, journaled.journal, journalOf, journalOf, List.flatMap_append,
      List.flatMap_singleton]
  · intro other member
    rcases List.mem_append.mp member with old | new
    · exact journaled.written other old
    · rw [List.mem_singleton.mp new]
      exact written
  intro base empty valid extended
  rw [entries] at extended
  have before := journaled.replay base empty valid extended
  refine ⟨?_, ?_, ?_⟩
  · intro after done
    rw [foldlM_replay_append, bind_eq_ok] at done
    obtain ⟨reached, first, second⟩ := done
    obtain ⟨grown, same⟩ := before.table reached first
    obtain ⟨grownAgain, sameAgain⟩ := table reached after same second
    exact ⟨grown.trans grownAgain, sameAgain⟩
  · rintro ⟨after, done, unchanged⟩
    rw [foldlM_replay_append, bind_eq_ok] at done
    obtain ⟨reached, first, second⟩ := done
    obtain ⟨grown, same⟩ := before.table reached first
    obtain ⟨grownAgain, -⟩ := table reached after same second
    -- Entries are never removed, so an unchanged end means that no record has appended one.
    have reachedEntries : reached.entries = base.entries :=
      (unchanged ▸ grownAgain).eq_of_length_le grown.length_le
    rw [← reachedEntries]
    refine (succeeds reached same (reachedEntries ▸ valid) (reachedEntries ▸ extended)).mpr ?_
    rw [reachedEntries]
    exact ⟨before.succeeds.mp ⟨reached, first, reachedEntries⟩, after, second, unchanged⟩
  · intro replayable
    have prior : log.ReplayableOn base.entries :=
      ((succeeds { base with transactions := log.transactions } rfl valid extended).mp
        replayable).1
    obtain ⟨reached, first, reachedEntries⟩ := before.succeeds.mpr prior
    obtain ⟨-, same⟩ := before.table reached first
    obtain ⟨-, after, second, unchanged⟩ := (succeeds reached same (reachedEntries ▸ valid)
      (reachedEntries ▸ extended)).mp (reachedEntries ▸ replayable)
    refine ⟨after, ?_, unchanged.trans reachedEntries⟩
    rw [foldlM_replay_append, bind_eq_ok]
    exact ⟨reached, first, second⟩

/-! ### One case for each change -/

theorem Valid.rebase {log reached : C4Log} (valid : log.Valid)
    (same : reached.transactions = log.transactions) (entries : ValidEntries reached.entries) :
    reached.Valid := by
  refine ⟨entries, ?_, ?_, ?_⟩ <;> rw [same]
  · exact valid.distinct
  · exact valid.rows
  · exact valid.ascending

omit [Zlib] in
theorem findTransaction_rebase {log reached : C4Log}
    (same : reached.transactions = log.transactions) (id : TransactionId) :
    findTransaction reached id = findTransaction log id := by
  rw [findTransaction, same]
  rfl

theorem Journaled.append {log : C4Log} {records : List JournalRecord}
    (journaled : log.Journaled records) (entry : C4LogEntry) :
    (log.withEntry entry).Journaled records where
  file := by
    show log.file ++ c4LogRecord entry = fileOf (log.entries ++ [entry])
    rw [journaled.file, fileOf, fileOf, List.flatMap_append, List.flatMap_singleton]
  journal := journaled.journal
  written := journaled.written
  replay := by
    intro base empty valid extended
    have before := journaled.replay base empty valid ((List.prefix_append _ _).trans extended)
    exact ⟨before.table, before.succeeds⟩

/-- A later log expects a prepared index exactly when it has not grown up to that index. -/
theorem expectedNext_rebase {log reached : C4Log} (valid : log.Valid)
    (same : reached.transactions = log.transactions) (reachedValid : ValidEntries reached.entries)
    (extended : log.entries <+: reached.entries) {entry : C4LogEntry} (index : entry.index ≠ 0)
    (expected : SuperPeerNet.expectedNext log = (entry.index, entry.version)) :
    SuperPeerNet.expectedNext reached = (entry.index, entry.version) ↔
      reached.entries.length < entry.index.toNat := by
  have rebased := valid.rebase same reachedValid
  constructor
  · intro expectedReached
    exact (rebased.expectedNext index expectedReached).2.afterLog
  · intro beyond
    obtain ⟨version, expects⟩ := valid.expectedNext index expected
    have longer := extended.length_le
    rw [version]
    refine expectedNext_of_expects rebased ⟨beyond, by rw [same]; exact expects.afterPending, ?_⟩
    rcases expects.tight with atEnd | pending
    · exact Or.inl (by omega)
    · exact Or.inr (by rw [same]; exact pending)

theorem Journaled.prepare {log : C4Log} {records : List JournalRecord}
    (journaled : log.Journaled records) (valid : log.Valid) {entry : C4LogEntry}
    (sound : entry.Sound) (small : entry.payload.length ≤ maxPayloadSize - c4LogHeaderSize)
    (absent : findTransaction log entry.transactionId = none)
    (expected : SuperPeerNet.expectedNext log = (entry.index, entry.version)) :
    (log.withPrepared entry).Journaled (records ++ [.prepare entry]) := by
  refine journaled.push ⟨sound, small⟩ rfl rfl rfl ?_ ?_
  · intro reached after same done
    obtain ⟨-, -, rfl⟩ := replayPrepare_ok.mp done
    refine ⟨List.prefix_refl _, ?_⟩
    show reached.transactions ++ _ = _
    rw [same]
    rfl
  · intro reached same reachedValid extended
    rw [replayableOn_push ⟨entry, .prepared⟩ absent rfl]
    refine and_congr_right fun _ => ?_
    have rebased := expectedNext_rebase valid same reachedValid extended sound.1 expected
    constructor
    · intro replayable
      refine ⟨_, replayPrepare_ok.mpr ⟨?_, ?_, rfl⟩, rfl⟩
      · rw [findTransaction_rebase same]
        exact absent
      · rcases replayable (fun same => by cases congrArg C4Transaction.state same) with
          committed | ⟨notCommitted, beyond, -⟩
        · exact Or.inl committed
        · exact Or.inr ⟨notCommitted, rebased.mpr beyond⟩
    · rintro ⟨after, done, -⟩ -
      obtain ⟨-, placed, -⟩ := replayPrepare_ok.mp done
      rcases placed with committed | ⟨notCommitted, placed⟩
      · exact Or.inl committed
      · exact Or.inr ⟨notCommitted, rebased.mp placed, nofun⟩

theorem Journaled.commit {log : C4Log} {records : List JournalRecord}
    (journaled : log.Journaled records) (valid : log.Valid) {row : C4Transaction}
    {id : TransactionId} (found : findTransaction log id = some row) (pending : row.Pending) :
    (log.withDecision id c4TxnCommit .committed).Journaled (records ++ [.commit id]) := by
  have key : row.id = id := findTransaction_id found
  have checked := valid.checked (KeyedList.lookup_mem found) (by rw [pending]; decide)
  have prepared : row ≠ tombstone id := by
    rintro rfl
    exact tombstone_not_pending id pending
  refine journaled.push trivial rfl rfl rfl ?_ ?_
  · intro reached after same done
    have foundReached := (findTransaction_rebase same id).trans found
    change replayDecision reached c4TxnCommit id = .ok after at done
    rw [replayDecision_commit foundReached pending] at done
    have outcome := appendLocked_outcome (setTransactionState reached id .committed) row.entry
    rw [done] at outcome
    have table : (setTransactionState reached id .committed).transactions =
        (log.withDecision id c4TxnCommit .committed).transactions := by
      rw [setTransactionState, same]
      rfl
    cases outcome with
    | repeated => exact ⟨List.prefix_refl _, table⟩
    | appended => exact ⟨List.prefix_append _ _, table⟩
  · intro reached same reachedValid extended
    have foundReached := (findTransaction_rebase same id).trans found
    rw [replayableOn_decision valid found pending, replayableOn_split found prepared, and_assoc]
    refine and_congr_right fun _ => ?_
    change _ ↔ _ ∧ ∃ after, replayDecision reached c4TxnCommit id = .ok after ∧ _
    rw [replayDecision_commit foundReached pending]
    constructor
    · rintro (committed | ⟨-, -, notDecided⟩)
      · refine ⟨Or.inl committed, _, appendLocked_of_found checked.sound ?_ true, rfl⟩
        rw [findTransaction_id found, ← key]
        exact committed
      · exact absurd rfl notDecided
    · rintro ⟨-, after, done, unchanged⟩
      have outcome := appendLocked_outcome (setTransactionState reached id .committed) row.entry
      rw [done] at outcome
      cases outcome with
      | repeated sound committed => exact Or.inl committed
      | appended fits absent =>
        have longer := congrArg List.length unchanged
        rw [withEntry_entries, List.length_append] at longer
        simp [setTransactionState] at longer

theorem Journaled.abort {log : C4Log} {records : List JournalRecord}
    (journaled : log.Journaled records) (valid : log.Valid) {row : C4Transaction}
    {id : TransactionId} (found : findTransaction log id = some row) (pending : row.Pending) :
    (log.withDecision id c4TxnAbort .aborted).Journaled (records ++ [.abort id]) := by
  have prepared : row ≠ tombstone id := by
    rintro rfl
    exact tombstone_not_pending id pending
  have replayed : ∀ reached : C4Log, reached.transactions = log.transactions →
      JournalRecord.replay reached (.abort id) = .ok (setTransactionState reached id .aborted) :=
    fun reached same => replayDecision_abort ((findTransaction_rebase same id).trans found) pending
  refine journaled.push trivial rfl rfl rfl ?_ ?_
  · intro reached after same done
    rw [replayed reached same] at done
    cases done
    refine ⟨List.prefix_refl _, ?_⟩
    rw [setTransactionState, same]
    rfl
  · intro reached same reachedValid extended
    rw [replayableOn_decision valid found pending, replayableOn_split found prepared,
      replayed reached same]
    have undecided : row.state ≠ .committed := by
      rw [pending]
      decide
    constructor
    · rintro ⟨others, replayable⟩
      refine ⟨⟨others, ?_⟩, _, rfl, rfl⟩
      rcases replayable with committed | ⟨notCommitted, beyond, -⟩
      · exact Or.inl committed
      · exact Or.inr ⟨notCommitted, beyond, undecided⟩
    · rintro ⟨⟨others, replayable⟩, -⟩
      refine ⟨others, ?_⟩
      rcases replayable with committed | ⟨notCommitted, beyond, -⟩
      · exact Or.inl committed
      · exact Or.inr ⟨notCommitted, beyond, nofun⟩

theorem Journaled.abortUnknown {log : C4Log} {records : List JournalRecord}
    (journaled : log.Journaled records) {id : TransactionId}
    (absent : findTransaction log id = none) :
    (log.withTombstone id).Journaled (records ++ [.abort id]) := by
  have replayed : ∀ reached : C4Log, reached.transactions = log.transactions →
      JournalRecord.replay reached (.abort id) = .ok (pushTransaction reached (tombstone id)) :=
    fun reached same => replayDecision_abortUnknown ((findTransaction_rebase same id).trans absent)
  refine journaled.push trivial rfl rfl rfl ?_ ?_
  · intro reached after same done
    rw [replayed reached same] at done
    cases done
    refine ⟨List.prefix_refl _, ?_⟩
    show reached.transactions ++ _ = _
    rw [same]
    rfl
  · intro reached same reachedValid extended
    rw [replayableOn_push (tombstone id) absent rfl, replayed reached same]
    exact and_congr_right fun _ => ⟨fun _ => ⟨_, rfl, rfl⟩, fun _ different => absurd rfl different⟩

theorem Change.journaled {log next : C4Log} (change : Change log next) (valid : log.Valid)
    {records : List JournalRecord} (journaled : log.Journaled records) :
    ∃ records, next.Journaled records := by
  cases change with
  | append entry fits absent => exact ⟨_, journaled.append entry⟩
  | prepare entry sound small absent expected =>
    exact ⟨_, journaled.prepare valid sound small absent expected⟩
  | commit row id found pending => exact ⟨_, journaled.commit valid found pending⟩
  | abort row id found pending => exact ⟨_, journaled.abort valid found pending⟩
  | abortUnknown id absent => exact ⟨_, journaled.abortUnknown absent⟩

theorem journaled_of_changes {log : C4Log} (changes : Changes fresh log) :
    ∃ records, log.Journaled records := by
  induction changes with
  | refl => exact ⟨[], journaled_fresh⟩
  | tail before change inductionHypothesis =>
    obtain ⟨records, journaled⟩ := inductionHypothesis
    exact change.journaled (Changes.valid before valid_fresh) journaled

/-! ### The restart -/

/-- The scan goes over whole records of a valid log to whatever follows them. -/
theorem loadEntries_append (front rest : List C4LogEntry) (tail : List UInt8) (log : C4Log)
    (entries : log.entries = front) (valid : ValidEntries (front ++ rest)) :
    loadEntries (fileOf front ++ (fileOf rest ++ tail)) log (fileOf front).length =
      loadEntries (fileOf (front ++ rest) ++ tail) { log with entries := front ++ rest }
        (fileOf (front ++ rest)).length := by
  induction rest generalizing front log with
  | nil =>
    subst entries
    have nothing : fileOf [] ++ tail = tail := rfl
    rw [nothing, List.append_nil]
  | cons entry rest inductionHypothesis =>
    subst entries
    obtain ⟨fits, absent⟩ := valid.next
    have split : fileOf (entry :: rest) = c4LogRecord entry ++ fileOf rest := rfl
    have joined : fileOf log.entries ++ c4LogRecord entry = fileOf (log.entries ++ [entry]) := by
      rw [fileOf, fileOf, List.flatMap_append, List.flatMap_singleton]
    have shifted : log.entries ++ entry :: rest = (log.entries ++ [entry]) ++ rest := by simp
    rw [split, List.append_assoc, loadEntries_record _ _ entry fits.1.2.2.1,
      appendLocked_of_extends fits absent, joined]
    simp only [Except.bind]
    rw [shifted] at valid ⊢
    exact inductionHypothesis (log.entries ++ [entry]) _ rfl valid

/-- The scan of the log file gives back valid entries. -/
theorem loadEntries_fileOf (front rest : List C4LogEntry) (log : C4Log)
    (entries : log.entries = front) (valid : ValidEntries (front ++ rest)) :
    loadEntries (fileOf front ++ fileOf rest) log (fileOf front).length =
      .ok { log with entries := front ++ rest, file := fileOf (front ++ rest) } := by
  have scanned := loadEntries_append front rest [] log entries valid
  rw [List.append_nil, List.append_nil] at scanned
  rw [scanned, loadEntries, if_neg (lt_irrefl _)]

theorem c4LogOpen_of_journaled {log : C4Log} {records : List JournalRecord} (valid : log.Valid)
    (journaled : log.Journaled records) :
    c4LogOpen log.file log.journal =
      records.foldlM JournalRecord.replay { log with transactions := [] } := by
  have loaded := loadEntries_fileOf [] log.entries fresh rfl valid.entries
  have replayed := loadJournal_journalOf journaled.written [] { log with transactions := [] }
  rw [List.nil_append] at loaded replayed
  change loadEntries (fileOf log.entries) fresh 0 = _ at loaded
  rw [← journaled.file] at loaded
  rw [c4LogOpen, loaded]
  rw [← replayed, journaled.journal]
  rfl

/-- A log that changes have led to is restored by a restart exactly when it is replayable. -/
theorem restores_of_changes {log : C4Log} (changes : Changes fresh log) :
    log.Restores ↔ log.Replayable := by
  obtain ⟨records, journaled⟩ := journaled_of_changes changes
  have valid := changes.valid valid_fresh
  obtain ⟨table, succeeds⟩ := journaled.replay { log with transactions := [] } rfl valid.entries
    (List.prefix_refl _)
  rw [Replayable, ← succeeds, Restores, c4LogOpen_of_journaled valid journaled]
  constructor
  · rintro ⟨reopened, done, entries, -⟩
    exact ⟨reopened, done, entries⟩
  · rintro ⟨reopened, done, entries⟩
    refine ⟨reopened, done, entries, fun id => ?_⟩
    rw [c4LogTransactionState, findTransaction_rebase (table reopened done).2]
    rfl

/-- After any calls on a fresh log, a restart restores it exactly when every prepared
transaction is in the log with its prepared entry, or is undecided or aborted, not in the log
and prepared beyond its end. -/
theorem restores_iff_replayable (calls : List LogCall) :
    (history calls).Restores ↔ (history calls).Replayable :=
  restores_of_changes (changes_history calls)

end C4Log

end Restart

/-- A transaction is aborted at index one, and another one is prepared and committed there. -/
def reusedIndex [Zlib] : List LogCall :=
  let first : TransactionId := Octets.fill transactionIdSize 1
  let second : TransactionId := Octets.fill transactionIdSize 2
  [.prepare (C4LogEntry.build 1 1 first [] length_nil_lt), .abort first,
    .prepare (C4LogEntry.build 1 1 second [] length_nil_lt), .commit second]

/-- The restart refuses the first `PREPARE` record: it expects an index of two by then. -/
theorem not_restores_reusedIndex :
    ¬ ∀ calls, @C4Log.Restores Zlib.reference (@C4Log.history Zlib.reference calls) := by
  let zlib := Zlib.reference
  intro restores
  have replayable := (C4Log.restores_of_changes (C4Log.changes_history reusedIndex)).mp
    (restores reusedIndex)
  let id : TransactionId := Octets.fill transactionIdSize 1
  let row : C4Transaction := ⟨C4LogEntry.build 1 1 id [] length_nil_lt, .aborted⟩
  have found : findTransaction (C4Log.history reusedIndex) id = some row := by decide +kernel
  have prepared : row ≠ tombstone id := by decide +kernel
  rcases replayable id row found prepared with committed | ⟨-, beyond, -⟩
  · exact absurd committed (by decide +kernel)
  · exact absurd beyond (by decide +kernel)

end SuperPeerNet
