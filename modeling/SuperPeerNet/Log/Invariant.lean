/-
This file proves the representation invariant of an open log.

The committed entries are numbered from one, with versions equal to indices and
distinct transaction ids. A row of the transaction table is either an abort
tombstone or carries an entry that `c4_log_prepare` has checked, and the indices of
the pending rows ascend in table order. The last clause is what keeps the 64-bit
arithmetic of the expected index honest: were the largest index already pending,
the expected index would wrap to zero, and nothing can be prepared at zero.
-/

import Mathlib.Logic.Relation
import SuperPeerNet.Log.Outcomes

namespace SuperPeerNet

variable [Zlib]

/-! ### The invariant -/

/-- A transaction that waits for its decision. -/
def C4Transaction.Pending (row : C4Transaction) : Prop := row.state = .prepared

instance (row : C4Transaction) : Decidable row.Pending :=
  inferInstanceAs (Decidable (row.state = .prepared))

/-- What `c4_log_prepare` has checked of the entry in a row. -/
structure C4Transaction.Checked (row : C4Transaction) : Prop where
  sound : row.entry.Sound
  small : row.entry.payload.length ≤ maxPayloadSize - c4LogHeaderSize
  version : row.entry.version = row.entry.index
  known : row.state ≠ .unknown

namespace C4Log

/-- The committed part of the invariant, on the list of entries alone. -/
structure ValidEntries (entries : List C4LogEntry) : Prop where
  numbered : ∀ position entry, entries[position]? = some entry →
    entry.index.toNat = position + 1
  version : ∀ entry ∈ entries, entry.version = entry.index
  sound : ∀ entry ∈ entries, entry.Sound
  distinct : KeyedList.Distinct C4LogEntry.transactionId entries
  bounded : entries.length ≤ entryCapacity

/-- The pending rows of a table, in table order, have ascending indices. -/
def Ascending (rows : List C4Transaction) : Prop :=
  rows.Pairwise fun first second =>
    first.Pending → second.Pending → first.entry.index < second.entry.index

/-- The representation invariant. -/
structure Valid (log : C4Log) : Prop where
  entries : ValidEntries log.entries
  distinct : KeyedList.Distinct C4Transaction.id log.transactions
  rows : ∀ row ∈ log.transactions, row = tombstone row.id ∨ row.Checked
  ascending : Ascending log.transactions

theorem valid_fresh : Valid fresh where
  entries := ⟨nofun, nofun, nofun, List.Pairwise.nil, by decide⟩
  distinct := List.Pairwise.nil
  rows := nofun
  ascending := List.Pairwise.nil

theorem Valid.checked {log : C4Log} (valid : log.Valid) {row : C4Transaction}
    (member : row ∈ log.transactions) (live : row.state ≠ .aborted) : row.Checked := by
  rcases valid.rows row member with dead | checked
  · rw [dead] at live
    exact absurd rfl live
  · exact checked

/-! ### The next index -/

theorem toNat_nextIndex {log : C4Log} (valid : ValidEntries log.entries) :
    (nextIndex log).toNat = log.entries.length + 1 := by
  have bound := valid.bounded
  unfold entryCapacity at bound
  rw [nextIndex, UInt64.toNat_add, UInt64.toNat_ofNat', UInt64.toNat_one]
  omega

theorem nextVersion_eq_nextIndex {log : C4Log} (valid : ValidEntries log.entries) :
    nextVersion log = nextIndex log := by
  rcases List.eq_nil_or_concat log.entries with empty | ⟨front, last, split⟩
  · simp [nextVersion, nextIndex, empty]
  · rw [List.concat_eq_append] at split
    have lastMember : last ∈ log.entries := by rw [split]; simp
    have numbered := valid.numbered front.length last (by rw [split]; simp)
    have lastVersion := valid.version last lastMember
    have getLast : log.entries.getLast? = some last := by rw [split]; simp
    rw [nextVersion, getLast]
    simp only
    rw [lastVersion, nextIndex]
    congr 1
    refine UInt64.toNat_inj.mp ?_
    have bound := valid.bounded
    unfold entryCapacity at bound
    rw [numbered, UInt64.toNat_ofNat', Nat.mod_eq_of_lt (by omega), split, List.length_append,
      List.length_singleton]

/-! ### The expected index -/

omit [Zlib] in
theorem toNat_add_one_of_ne_zero {index : UInt64} (nonzero : index + 1 ≠ 0) :
    (index + 1).toNat = index.toNat + 1 := by
  by_contra wrapped
  refine nonzero (UInt64.toNat_inj.mp ?_)
  have bound := index.toNat_lt
  rw [UInt64.toNat_add, UInt64.toNat_one] at wrapped ⊢
  rw [UInt64.toNat_zero]
  omega

/-- Only the last pending row of a table may be at the largest index. -/
def Capped (rows : List C4Transaction) : Prop :=
  rows.Pairwise fun first second => first.Pending → second.Pending → first.entry.index + 1 ≠ 0

omit [Zlib] in
theorem Ascending.capped {rows : List C4Transaction} (ascending : Ascending rows) :
    Capped rows := by
  refine ascending.imp fun {_ second} below firstPending secondPending wrapped => ?_
  have later := UInt64.lt_iff_toNat_lt.mp (below firstPending secondPending)
  have value := congrArg UInt64.toNat wrapped
  rw [UInt64.toNat_add, UInt64.toNat_one, UInt64.toNat_zero] at value
  have bound := second.entry.index.toNat_lt
  omega

omit [Zlib] in
/-- What the loop over the table makes of a starting pair whose components agree. Unless the
expected index wraps to zero, it lies above the start and above every pending index, and it
is the start or the successor of a pending index. -/
theorem foldl_raiseExpected {rows : List C4Transaction} (capped : Capped rows)
    (versions : ∀ row ∈ rows, row.Pending → row.entry.version = row.entry.index)
    (start : UInt64) :
    (rows.foldl raiseExpected (start, start)).2 = (rows.foldl raiseExpected (start, start)).1 ∧
      ((rows.foldl raiseExpected (start, start)).1 ≠ 0 →
        start ≤ (rows.foldl raiseExpected (start, start)).1 ∧
        (∀ row ∈ rows, row.Pending →
          row.entry.index < (rows.foldl raiseExpected (start, start)).1) ∧
        ((rows.foldl raiseExpected (start, start)).1 = start ∨
          ∃ row ∈ rows, row.Pending ∧
            (rows.foldl raiseExpected (start, start)).1.toNat = row.entry.index.toNat + 1)) := by
  induction rows generalizing start with
  | nil => exact ⟨rfl, fun _ => ⟨UInt64.le_refl _, nofun, Or.inl rfl⟩⟩
  | cons row rest inductionHypothesis =>
    obtain ⟨beforeRest, restCapped⟩ := List.pairwise_cons.mp capped
    have restVersions := fun other member => versions other (List.mem_cons_of_mem _ member)
    rw [List.foldl_cons]
    by_cases raises : row.state = .prepared ∧ row.entry.index ≥ start
    · have raised : raiseExpected (start, start) row =
          (row.entry.index + 1, row.entry.index + 1) := by
        rw [raiseExpected, if_pos raises, versions row List.mem_cons_self raises.1]
      rw [raised]
      obtain ⟨same, bounds⟩ :=
        inductionHypothesis restCapped restVersions (row.entry.index + 1)
      refine ⟨same, fun nonzero => ?_⟩
      obtain ⟨lower, upper, origin⟩ := bounds nonzero
      have successor : (row.entry.index + 1).toNat = row.entry.index.toNat + 1 := by
        refine toNat_add_one_of_ne_zero fun zero => ?_
        -- The index of `row` is the largest one, so no later row is pending and the fold is zero.
        rcases origin with start' | ⟨other, member, pending, -⟩
        · exact nonzero (start'.trans zero)
        · exact beforeRest other member raises.1 pending zero
      have lower' := UInt64.le_iff_toNat_le.mp lower
      refine ⟨UInt64.le_iff_toNat_le.mpr ?_, ?_, ?_⟩
      · have start' := UInt64.le_iff_toNat_le.mp raises.2
        omega
      · intro other member pending
        rcases List.mem_cons.mp member with rfl | inRest
        · exact UInt64.lt_iff_toNat_lt.mpr (by omega)
        · exact upper other inRest pending
      · refine Or.inr ?_
        rcases origin with start' | ⟨other, member, pending, value⟩
        · exact ⟨row, List.mem_cons_self, raises.1, by rw [start', successor]⟩
        · exact ⟨other, List.mem_cons_of_mem _ member, pending, value⟩
    · have kept : raiseExpected (start, start) row = (start, start) := by
        rw [raiseExpected, if_neg raises]
      rw [kept]
      obtain ⟨same, bounds⟩ := inductionHypothesis restCapped restVersions start
      refine ⟨same, fun nonzero => ?_⟩
      obtain ⟨lower, upper, origin⟩ := bounds nonzero
      refine ⟨lower, ?_, ?_⟩
      · intro other member pending
        rcases List.mem_cons.mp member with rfl | inRest
        · have below : other.entry.index < start := by
            refine UInt64.lt_iff_toNat_lt.mpr ?_
            by_contra notBelow
            exact raises ⟨pending, UInt64.le_iff_toNat_le.mpr (by omega)⟩
          exact UInt64.lt_of_lt_of_le below lower
        · exact upper other inRest pending
      · rcases origin with start' | ⟨other, member, pending, value⟩
        · exact Or.inl start'
        · exact Or.inr ⟨other, List.mem_cons_of_mem _ member, pending, value⟩

theorem Valid.pendingVersion {log : C4Log} (valid : log.Valid) :
    ∀ row ∈ log.transactions, row.Pending → row.entry.version = row.entry.index := by
  intro row member pending
  refine (valid.checked member ?_).version
  rw [pending]
  exact nofun

/-- What a valid log expects of a new transaction. -/
structure Expects (log : C4Log) (index : UInt64) : Prop where
  afterLog : log.entries.length < index.toNat
  afterPending : ∀ row ∈ log.transactions, row.Pending → row.entry.index < index
  tight : index.toNat = log.entries.length + 1 ∨
    ∃ row ∈ log.transactions, row.Pending ∧ index.toNat = row.entry.index.toNat + 1

/-- What the code expects of a new transaction, for any table with matching versions that cannot
make the expected index wrap. -/
theorem expectedNext_bounds {log : C4Log} (entries : ValidEntries log.entries)
    (versions : ∀ row ∈ log.transactions, row.Pending → row.entry.version = row.entry.index)
    (capped : Capped log.transactions) {index version : UInt64} (nonzero : index ≠ 0)
    (expected : expectedNext log = (index, version)) : version = index ∧ log.Expects index := by
  have fold := foldl_raiseExpected capped versions (nextIndex log)
  unfold expectedNext at expected
  rw [nextVersion_eq_nextIndex entries] at expected
  rw [expected] at fold
  simp only at fold
  obtain ⟨same, bounds⟩ := fold
  obtain ⟨lower, upper, origin⟩ := bounds nonzero
  have lower' := UInt64.le_iff_toNat_le.mp lower
  rw [toNat_nextIndex entries] at lower'
  refine ⟨same, ⟨lower', upper, ?_⟩⟩
  rcases origin with start | pending
  · exact Or.inl (by rw [start, toNat_nextIndex entries])
  · exact Or.inr pending

theorem Valid.expectedNext {log : C4Log} (valid : log.Valid) {index version : UInt64}
    (nonzero : index ≠ 0) (expected : expectedNext log = (index, version)) :
    version = index ∧ log.Expects index :=
  expectedNext_bounds valid.entries valid.pendingVersion valid.ascending.capped nonzero expected

/-! ### Every change keeps the invariant -/

/-- Whether an entry extends a log depends on the entries of the log only. -/
theorem Extends.congr {log other : C4Log} {entry : C4LogEntry} (fits : log.Extends entry)
    (entries : other.entries = log.entries) : other.Extends entry := by
  unfold Extends nextIndex nextVersion at fits ⊢
  rw [entries]
  exact fits

omit [Zlib] in
theorem findEntry_congr {log other : C4Log} (entries : other.entries = log.entries)
    (id : TransactionId) : SuperPeerNet.findEntry other id = SuperPeerNet.findEntry log id := by
  unfold SuperPeerNet.findEntry
  rw [entries]

omit [Zlib] in
theorem tombstone_not_pending (id : TransactionId) : ¬ (tombstone id).Pending := nofun

/-- The rows of a log after a decision: the decided row, and every other row as it was. -/
theorem mem_withDecision {log : C4Log} {id : TransactionId} {type : UInt8}
    {state : C4TransactionState} {row : C4Transaction}
    (member : row ∈ (log.withDecision id type state).transactions) :
    row ∈ log.transactions ∨
      ∃ old, findTransaction log id = some old ∧ row = { old with state := state } :=
  KeyedList.mem_modify member

theorem ValidEntries.append {log : C4Log} (valid : ValidEntries log.entries) {entry : C4LogEntry}
    (fits : log.Extends entry) (absent : findEntry log entry.transactionId = none) :
    ValidEntries (log.entries ++ [entry]) where
  numbered := by
    intro position other found
    rw [List.getElem?_append] at found
    split at found
    · exact valid.numbered position other found
    · rename_i after
      rw [List.getElem?_singleton] at found
      split at found
      · cases found
        rw [fits.2.1, toNat_nextIndex valid]
        omega
      · cases found
  version := by
    intro other member
    rcases List.mem_append.mp member with old | new
    · exact valid.version other old
    · rw [List.mem_singleton.mp new, fits.2.2.1, fits.2.1, nextVersion_eq_nextIndex valid]
  sound := by
    intro other member
    rcases List.mem_append.mp member with old | new
    · exact valid.sound other old
    · rw [List.mem_singleton.mp new]
      exact fits.1
  distinct := KeyedList.distinct_append_singleton valid.distinct absent
  bounded := by
    rw [List.length_append, List.length_singleton]
    exact fits.2.2.2

/-- A prefix of a valid list of entries is valid. -/
theorem ValidEntries.of_prefix {front entries : List C4LogEntry} (valid : ValidEntries entries)
    (earlier : front <+: entries) : ValidEntries front := by
  obtain ⟨rest, rfl⟩ := earlier
  refine ⟨fun position entry found => ?_, fun entry member => ?_, fun entry member => ?_, ?_, ?_⟩
  · obtain ⟨inside, -⟩ := List.getElem?_eq_some_iff.mp found
    exact valid.numbered position entry ((List.getElem?_append_left inside).trans found)
  · exact valid.version entry (List.mem_append_left _ member)
  · exact valid.sound entry (List.mem_append_left _ member)
  · exact (List.pairwise_append.mp valid.distinct).1
  · have bound := valid.bounded
    rw [List.length_append] at bound
    omega

/-- The entry after a prefix of a valid list extends the log that holds the prefix. -/
theorem ValidEntries.next {log : C4Log} {entry : C4LogEntry} {rest : List C4LogEntry}
    (valid : ValidEntries (log.entries ++ entry :: rest)) :
    log.Extends entry ∧ findEntry log entry.transactionId = none := by
  have front := valid.of_prefix (List.prefix_append log.entries _)
  have member : entry ∈ log.entries ++ entry :: rest := by simp
  have index : entry.index = nextIndex log := by
    refine UInt64.toNat_inj.mp ?_
    rw [toNat_nextIndex front]
    exact valid.numbered log.entries.length entry (by simp)
  refine ⟨⟨valid.sound entry member, index, ?_, ?_⟩, ?_⟩
  · rw [valid.version entry member, index, nextVersion_eq_nextIndex front]
  · have bound := valid.bounded
    rw [List.length_append, List.length_cons] at bound
    omega
  · refine KeyedList.lookup_eq_none.mpr fun old oldMember => ?_
    exact (List.pairwise_append.mp valid.distinct).2.2 old oldMember entry List.mem_cons_self

theorem Valid.prepare {log : C4Log} (valid : log.Valid) {entry : C4LogEntry}
    (sound : entry.Sound) (small : entry.payload.length ≤ maxPayloadSize - c4LogHeaderSize)
    (absent : findTransaction log entry.transactionId = none)
    (expected : SuperPeerNet.expectedNext log = (entry.index, entry.version)) :
    (log.withPrepared entry).Valid := by
  obtain ⟨version, expects⟩ := valid.expectedNext sound.1 expected
  refine ⟨valid.entries, KeyedList.distinct_append_singleton valid.distinct absent, ?_, ?_⟩
  · intro row member
    rcases List.mem_append.mp member with old | new
    · exact valid.rows row old
    · rw [List.mem_singleton.mp new]
      exact Or.inr ⟨sound, small, version, nofun⟩
  · refine List.pairwise_append.mpr ⟨valid.ascending, List.pairwise_singleton _ _, ?_⟩
    intro first member second isNew pending _
    rw [List.mem_singleton.mp isNew]
    exact expects.afterPending first member pending

theorem Valid.decision {log : C4Log} (valid : log.Valid) {row : C4Transaction}
    {id : TransactionId} (found : findTransaction log id = some row) (pending : row.Pending)
    {state : C4TransactionState} (settled : state ≠ .prepared) (known : state ≠ .unknown)
    (type : UInt8) : (log.withDecision id type state).Valid := by
  refine ⟨valid.entries, ?_, ?_, ?_⟩
  · refine KeyedList.distinct_modify ?_ valid.distinct
    exact fun _ => rfl
  · intro other member
    rcases mem_withDecision member with old | ⟨old, foundOld, rfl⟩
    · exact valid.rows other old
    · have same : old = row := Option.some.inj (foundOld.symm.trans found)
      subst same
      have checked := valid.checked (KeyedList.lookup_mem found) (by rw [pending]; exact nofun)
      exact Or.inr ⟨checked.sound, checked.small, checked.version, known⟩
  · refine KeyedList.pairwise_modify ?_ ?_ valid.ascending
    · intro first _ second _ _ firstPending
      exact absurd firstPending settled
    · intro first _ second _ _ _ secondPending
      exact absurd secondPending settled

theorem Valid.abortUnknown {log : C4Log} (valid : log.Valid) {id : TransactionId}
    (absent : findTransaction log id = none) : (log.withTombstone id).Valid := by
  refine ⟨valid.entries, KeyedList.distinct_append_singleton valid.distinct absent, ?_, ?_⟩
  · intro row member
    rcases List.mem_append.mp member with old | new
    · exact valid.rows row old
    · rw [List.mem_singleton.mp new]
      exact Or.inl rfl
  · refine List.pairwise_append.mpr ⟨valid.ascending, List.pairwise_singleton _ _, ?_⟩
    intro first _ second isNew _ pending
    rw [List.mem_singleton.mp isNew] at pending
    exact absurd pending (tombstone_not_pending id)

theorem Change.valid {log next : C4Log} (change : Change log next) (valid : log.Valid) :
    next.Valid := by
  cases change with
  | append entry fits absent =>
    exact ⟨valid.entries.append fits absent, valid.distinct, valid.rows, valid.ascending⟩
  | prepare entry sound small absent expected => exact valid.prepare sound small absent expected
  | commit row id found pending => exact valid.decision found pending (by decide) (by decide) _
  | abort row id found pending => exact valid.decision found pending (by decide) (by decide) _
  | abortUnknown id absent => exact valid.abortUnknown absent

end C4Log

/-! ### Histories of calls -/

/-- A call that may change an open log. -/
inductive LogCall where
  | prepare (entry : C4LogEntry)
  | commit (id : TransactionId)
  | abort (id : TransactionId)
  | appendEntry (entry : C4LogEntry)

namespace C4Log

/-- The log after a call, whatever the call returns. -/
def perform (log : C4Log) : LogCall → C4Log
  | .prepare entry => (c4LogPrepare log entry).1
  | .commit id => (c4LogCommit log id).1
  | .abort id => (c4LogAbort log id).1
  | .appendEntry entry => (c4LogAppendEntry log entry).1

/-- The log after a sequence of calls on a fresh one. -/
def history (calls : List LogCall) : C4Log := calls.foldl perform fresh

/-- The changes that a log goes through. -/
abbrev Changes : C4Log → C4Log → Prop := Relation.ReflTransGen Change

theorem changes_decided (log : C4Log) {row : C4Transaction} {id : TransactionId}
    (found : findTransaction log id = some row) : Changes log (log.decided row id) := by
  unfold decided
  split
  · rename_i pending
    exact .single (.commit row id found pending)
  · exact .refl

theorem changes_append {log next : C4Log} {entry : C4LogEntry}
    (appended : appendLocked log entry true = .ok next) : Changes log next := by
  have outcome := appendLocked_outcome log entry
  rw [appended] at outcome
  cases outcome with
  | repeated => exact .refl
  | appended fits absent => exact .single (.append entry fits absent)

theorem changes_c4LogPrepare (log : C4Log) (entry : C4LogEntry) :
    Changes log (c4LogPrepare log entry).1 := by
  have outcome := c4LogPrepare_outcome log entry
  generalize c4LogPrepare log entry = result at outcome ⊢
  cases outcome with
  | refused code => exact .refl
  | repeated row found same live => exact .refl
  | accepted sound small absent expected =>
    exact .single (.prepare entry sound small absent expected)

theorem changes_c4LogCommit (log : C4Log) (id : TransactionId) :
    Changes log (c4LogCommit log id).1 := by
  have outcome := c4LogCommit_outcome log id
  generalize c4LogCommit log id = result at outcome ⊢
  cases outcome with
  | refused dead => exact .refl
  | stuck row code found live failed => exact changes_decided log found
  | done row next found live appended =>
    exact (changes_decided log found).trans (changes_append appended)

theorem changes_c4LogAbort (log : C4Log) (id : TransactionId) :
    Changes log (c4LogAbort log id).1 := by
  have outcome := c4LogAbort_outcome log id
  generalize c4LogAbort log id = result at outcome ⊢
  cases outcome with
  | repeated row found dead => exact .refl
  | refused row found live settled => exact .refl
  | aborted row found pending => exact .single (.abort row id found pending)
  | unknown absent => exact .single (.abortUnknown id absent)

theorem changes_c4LogAppendEntry (log : C4Log) (entry : C4LogEntry) :
    Changes log (c4LogAppendEntry log entry).1 := by
  unfold c4LogAppendEntry
  split
  · rename_i appended
    exact changes_append appended
  · exact .refl

theorem changes_perform (log : C4Log) (call : LogCall) : Changes log (log.perform call) := by
  cases call with
  | prepare entry => exact changes_c4LogPrepare log entry
  | commit id => exact changes_c4LogCommit log id
  | abort id => exact changes_c4LogAbort log id
  | appendEntry entry => exact changes_c4LogAppendEntry log entry

/-- What every change keeps, a sequence of changes keeps. -/
theorem Changes.keep {property : C4Log → Prop}
    (step : ∀ log next, Change log next → property log → property next) {log next : C4Log}
    (changes : Changes log next) (start : property log) : property next := by
  induction changes with
  | refl => exact start
  | tail _ change inductionHypothesis => exact step _ _ change inductionHypothesis

theorem changes_foldl_perform (log : C4Log) (calls : List LogCall) :
    Changes log (calls.foldl perform log) := by
  induction calls generalizing log with
  | nil => exact .refl
  | cons call rest inductionHypothesis =>
    exact (changes_perform log call).trans (inductionHypothesis _)

theorem changes_history (calls : List LogCall) : Changes fresh (history calls) :=
  changes_foldl_perform fresh calls

theorem history_append (past later : List LogCall) :
    history (past ++ later) = later.foldl perform (history past) := by
  rw [history, List.foldl_append]
  rfl

theorem Changes.valid {log next : C4Log} (changes : Changes log next) (valid : log.Valid) :
    next.Valid :=
  changes.keep (fun _ _ change => change.valid) valid

/-! ### What changes leave in place -/

theorem Change.extends_entries {log next : C4Log} (change : Change log next) :
    log.entries <+: next.entries := by
  cases change with
  | append entry fits absent => exact List.prefix_append _ _
  | prepare entry sound small absent expected => exact List.prefix_refl _
  | commit row id found pending => exact List.prefix_refl _
  | abort row id found pending => exact List.prefix_refl _
  | abortUnknown id absent => exact List.prefix_refl _

theorem Changes.extends_entries {log next : C4Log} (changes : Changes log next) :
    log.entries <+: next.entries := by
  induction changes with
  | refl => exact List.prefix_refl _
  | tail _ change inductionHypothesis => exact inductionHypothesis.trans change.extends_entries

theorem Changes.findEntry {log next : C4Log} (changes : Changes log next) {id : TransactionId}
    {entry : C4LogEntry} (found : findEntry log id = some entry) :
    SuperPeerNet.findEntry next id = some entry := by
  obtain ⟨rest, split⟩ := changes.extends_entries
  unfold SuperPeerNet.findEntry at found ⊢
  rw [← split, KeyedList.lookup_append, found]
  rfl

theorem Change.row {log next : C4Log} (change : Change log next) {id : TransactionId}
    {row : C4Transaction} (found : findTransaction log id = some row) :
    ∃ later, findTransaction next id = some later ∧ later.entry = row.entry := by
  cases change with
  | append entry fits absent => exact ⟨row, found, rfl⟩
  | prepare entry sound small absent expected =>
    exact ⟨row, by rw [findTransaction_withPrepared, found]; rfl, rfl⟩
  | commit other decided foundDecided pending =>
    rw [findTransaction_withDecision, found]
    split
    · exact ⟨_, rfl, rfl⟩
    · exact ⟨_, rfl, rfl⟩
  | abort other decided foundDecided pending =>
    rw [findTransaction_withDecision, found]
    split
    · exact ⟨_, rfl, rfl⟩
    · exact ⟨_, rfl, rfl⟩
  | abortUnknown other absent =>
    exact ⟨row, by rw [findTransaction_withTombstone, found]; rfl, rfl⟩

/-- A row keeps its entry for good. -/
theorem Changes.row {log next : C4Log} (changes : Changes log next) {id : TransactionId}
    {row : C4Transaction} (found : findTransaction log id = some row) :
    ∃ later, findTransaction next id = some later ∧ later.entry = row.entry := by
  induction changes with
  | refl => exact ⟨row, found, rfl⟩
  | tail _ change inductionHypothesis =>
    obtain ⟨middle, foundMiddle, same⟩ := inductionHypothesis
    obtain ⟨later, foundLater, sameAgain⟩ := change.row foundMiddle
    exact ⟨later, foundLater, sameAgain.trans same⟩

theorem valid_history (calls : List LogCall) : (history calls).Valid :=
  (changes_history calls).valid valid_fresh

end C4Log

end SuperPeerNet
