/-
This file settles when `c4_log_commit` is all or nothing.

The commit journals its decision and writes it into the transaction table before the entry is
appended. The append still compares the place of the entry with the end of the committed log, and
with several transactions pending only one of them is at that place. A commit of any other pending
transaction fails and leaves it decided all the same. The theorem below names the commits that are
safe, in terms of the state they find, and follows them along whole histories.
-/

import SuperPeerNet.Log.Visibility

namespace SuperPeerNet

section Commitments

variable [Zlib]

namespace C4Log

/-- Either the commit succeeds, the transaction is committed and its entry is in the log, or it
fails and the log and its journal are as before. -/
def AllOrNothing (log : C4Log) (id : TransactionId) : Prop :=
  (∃ entry, (c4LogCommit log id).2 = .ok entry ∧
      c4LogTransactionState (c4LogCommit log id).1 id = .committed ∧
      findEntry (c4LogCommit log id).1 id = some entry) ∨
    (∃ code, (c4LogCommit log id).2 = .error code ∧ (c4LogCommit log id).1 = log)

/-- A pending transaction whose entry the log already has, or has the place for. -/
def Committable (log : C4Log) (id : TransactionId) : Prop :=
  ∀ row, findTransaction log id = some row → row.state = .prepared →
    findEntry log id = some row.entry ∨ findEntry log id = none ∧ log.Extends row.entry

/-- Every committed transaction has its entry in the log. -/
def CommittedPresent (log : C4Log) : Prop :=
  ∀ id row, findTransaction log id = some row → row.state = .committed →
    findEntry log id = some row.entry

/-! ### One commit -/

theorem extends_decided {log : C4Log} {row : C4Transaction} {id : TransactionId}
    {entry : C4LogEntry} : (log.decided row id).Extends entry ↔ log.Extends entry := by
  have entries := decided_entries log row id
  exact ⟨fun fits => fits.congr entries.symm, fun fits => fits.congr entries⟩

/-- What a commit needs is what the append of the decided entry needs. -/
theorem appendLocked_decided {log : C4Log} {row : C4Transaction} {id : TransactionId}
    (sound : row.entry.Sound) (found : findTransaction log id = some row) :
    (∃ next, appendLocked (log.decided row id) row.entry true = .ok next) ↔
      (findEntry log id = some row.entry ∨ findEntry log id = none ∧ log.Extends row.entry) := by
  have key : row.entry.transactionId = id := findTransaction_id found
  constructor
  · rintro ⟨next, done⟩
    have outcome := appendLocked_outcome (log.decided row id) row.entry
    rw [done] at outcome
    cases outcome with
    | repeated _ present =>
      rw [findEntry_decided, key] at present
      exact Or.inl present
    | appended fits absent =>
      rw [findEntry_decided, key] at absent
      exact Or.inr ⟨absent, extends_decided.mp fits⟩
  · rintro (present | ⟨absent, fits⟩)
    · exact ⟨_, appendLocked_of_found sound (by rw [findEntry_decided, key, present]) true⟩
    · exact ⟨_, appendLocked_withEntry (extends_decided.mpr fits)
        (by rw [findEntry_decided, key, absent])⟩

/-- The decision on a pending transaction leaves its record in the journal. -/
theorem decided_ne_of_pending {log : C4Log} {row : C4Transaction} {id : TransactionId}
    (pending : row.state = .prepared) : log.decided row id ≠ log := by
  intro same
  have journal : log.journal ++ journalBytes c4TxnCommit id.toList = log.journal := by
    have grown := congrArg C4Log.journal same
    rwa [decided, if_pos pending] at grown
  have nothing : journalBytes c4TxnCommit id.toList = [] := List.append_right_eq_self.mp journal
  cases nothing

/-- After a commit that succeeds, the transaction is committed and its entry is in the log. -/
theorem committed_of_done {log next : C4Log} (valid : log.Valid) {row : C4Transaction}
    {id : TransactionId} (found : findTransaction log id = some row) (live : row.state ≠ .aborted)
    (appended : appendLocked (log.decided row id) row.entry true = .ok next) :
    c4LogTransactionState next id = .committed ∧ findEntry next id = some row.entry := by
  have key : row.entry.transactionId = id := findTransaction_id found
  have known := (valid.checked (KeyedList.lookup_mem found) live).known
  have state : c4LogTransactionState (log.decided row id) id = .committed := by
    rw [c4LogTransactionState_decided found]
    split
    · rfl
    · rename_i other
      rw [c4LogTransactionState_of_found found] at *
      cases state : row.state <;> simp_all
  have outcome := appendLocked_outcome (log.decided row id) row.entry
  rw [appended] at outcome
  cases outcome with
  | repeated sound present =>
    rw [key] at present
    exact ⟨state, present⟩
  | appended fits absent =>
    rw [key] at absent
    refine ⟨?_, ?_⟩
    · rw [c4LogTransactionState_withEntry]
      exact state
    · rw [findEntry_withEntry, absent, if_pos key]
      rfl

/-- A commit is all or nothing exactly when the log has the entry or the place for it. -/
theorem Valid.allOrNothing_iff {log : C4Log} (valid : log.Valid) (id : TransactionId) :
    log.AllOrNothing id ↔ log.Committable id := by
  have outcome := c4LogCommit_outcome log id
  unfold AllOrNothing
  generalize c4LogCommit log id = result at outcome ⊢
  cases outcome with
  | refused dead =>
    refine ⟨fun _ row found pending => ?_, fun _ => Or.inr ⟨_, rfl, rfl⟩⟩
    rw [dead row found] at pending
    cases pending
  | stuck row code found live failed =>
    have sound := (valid.checked (KeyedList.lookup_mem found) live).sound
    by_cases pending : row.state = .prepared
    · constructor
      · rintro (⟨entry, done, -⟩ | ⟨_, -, same⟩)
        · cases done
        · exact absurd same (decided_ne_of_pending pending)
      · intro committable
        obtain ⟨next, done⟩ := (appendLocked_decided sound found).mpr
          (committable row found pending)
        rw [failed] at done
        cases done
    · refine ⟨fun _ other same pendingOther => ?_, fun _ => Or.inr ⟨_, rfl, if_neg pending⟩⟩
      rw [found] at same
      exact absurd (Option.some.inj same ▸ pendingOther) pending
  | done row next found live appended =>
    have sound := (valid.checked (KeyedList.lookup_mem found) live).sound
    refine ⟨fun _ other same _ => ?_, fun _ => Or.inl ⟨_, rfl, ?_⟩⟩
    · rw [found] at same
      obtain rfl := Option.some.inj same
      exact (appendLocked_decided sound found).mp ⟨next, appended⟩
    · exact committed_of_done valid found live appended

/-! ### Whole histories -/

omit [Zlib] in
theorem committedPresent_fresh : CommittedPresent fresh := nofun

/-- An entry that is in the log stays there. -/
theorem CommittedPresent.grow {log next : C4Log} (present : log.CommittedPresent)
    (rows : ∀ id row, findTransaction next id = some row → row.state = .committed →
      findTransaction log id = some row)
    (changes : Changes log next) : next.CommittedPresent := by
  intro id row found committed
  exact changes.findEntry (present id row (rows id row found committed) committed)

theorem CommittedPresent.prepare {log : C4Log} (present : log.CommittedPresent)
    (entry : C4LogEntry) : (c4LogPrepare log entry).1.CommittedPresent := by
  refine present.grow ?_ (changes_c4LogPrepare log entry)
  intro id row found committed
  have outcome := c4LogPrepare_outcome log entry
  generalize c4LogPrepare log entry = result at outcome found
  cases outcome with
  | refused code => exact found
  | repeated other same live => exact found
  | accepted sound small absent expected =>
    rw [findTransaction_withPrepared, Option.or_eq_some_iff] at found
    rcases found with old | ⟨-, new⟩
    · exact old
    · split at new
      · cases new
        cases committed
      · cases new

theorem CommittedPresent.abort {log : C4Log} (present : log.CommittedPresent)
    (id : TransactionId) : (c4LogAbort log id).1.CommittedPresent := by
  refine present.grow ?_ (changes_c4LogAbort log id)
  intro other row found committed
  have outcome := c4LogAbort_outcome log id
  generalize c4LogAbort log id = result at outcome found
  cases outcome with
  | repeated => exact found
  | refused => exact found
  | aborted old known pending =>
    rw [findTransaction_withDecision] at found
    split at found
    · obtain ⟨before, -, rfl⟩ := Option.map_eq_some_iff.mp found
      cases committed
    · exact found
  | unknown absent =>
    rw [findTransaction_withTombstone, Option.or_eq_some_iff] at found
    rcases found with old | ⟨-, new⟩
    · exact old
    · split at new
      · cases new
        cases committed
      · cases new

theorem CommittedPresent.appendEntry {log : C4Log} (present : log.CommittedPresent)
    (entry : C4LogEntry) : (c4LogAppendEntry log entry).1.CommittedPresent := by
  refine present.grow ?_ (changes_c4LogAppendEntry log entry)
  intro id row found committed
  have outcome := appendLocked_outcome log entry
  rw [c4LogAppendEntry] at found
  generalize appendLocked log entry true = result at outcome found
  cases outcome <;> exact found

theorem findTransaction_decided {log : C4Log} {row : C4Transaction} {id other : TransactionId}
    (different : other ≠ id) :
    findTransaction (log.decided row id) other = findTransaction log other := by
  unfold decided
  split
  · rw [findTransaction_withDecision, if_neg different]
  · rfl

/-- A commit that is all or nothing keeps the entry of every committed transaction in the log. -/
theorem CommittedPresent.commit {log : C4Log} (present : log.CommittedPresent) (valid : log.Valid)
    {id : TransactionId} (committable : log.Committable id) :
    (c4LogCommit log id).1.CommittedPresent := by
  have whole := (valid.allOrNothing_iff id).mpr committable
  have changes := changes_c4LogCommit log id
  have outcome := c4LogCommit_outcome log id
  unfold AllOrNothing at whole
  generalize c4LogCommit log id = result at whole changes outcome ⊢
  rcases whole with ⟨entry, done, -, inLog⟩ | ⟨-, -, same⟩
  · cases outcome with
    | refused dead => cases done
    | stuck row code found live failed => cases done
    | done row next found live appended =>
      obtain rfl := Except.ok.inj done
      intro other later foundLater committed
      by_cases self : other = id
      · subst self
        obtain ⟨kept, foundKept, same⟩ := changes.row found
        rw [foundKept] at foundLater
        obtain rfl := Option.some.inj foundLater
        rw [same]
        exact inLog
      · have before : findTransaction log other = some later := by
          rw [← @findTransaction_decided _ log row id other self]
          have outcome := appendLocked_outcome (log.decided row id) row.entry
          rw [appended] at outcome
          cases outcome <;> exact foundLater
        exact changes.findEntry (present other later before committed)
  · rw [same]
    exact present

/-- A commit that is not all or nothing leaves a committed transaction without its entry. -/
theorem Valid.committable_of_present {log : C4Log} (valid : log.Valid) {id : TransactionId}
    (after : (c4LogCommit log id).1.CommittedPresent) : log.Committable id := by
  intro row found pending
  have live : row.state ≠ .aborted := by
    rw [pending]
    exact nofun
  have sound := (valid.checked (KeyedList.lookup_mem found) live).sound
  refine (appendLocked_decided sound found).mp ?_
  by_contra failed
  have outcome := c4LogCommit_outcome log id
  generalize c4LogCommit log id = result at after outcome
  cases outcome with
  | refused dead => exact live (dead row found)
  | stuck other code foundOther _ refused =>
    rw [found] at foundOther
    obtain rfl := Option.some.inj foundOther
    have decided : findTransaction (log.decided row id) id =
        some { row with state := .committed } := by
      rw [C4Log.decided, if_pos pending, findTransaction_withDecision, if_pos rfl, found]
      rfl
    have missing := after id _ decided rfl
    rw [findEntry_decided] at missing
    exact failed ((appendLocked_decided sound found).mpr (Or.inl missing))
  | done other next foundOther _ appended =>
    rw [found] at foundOther
    obtain rfl := Option.some.inj foundOther
    exact failed ⟨next, appended⟩

theorem committedPresent_history {calls : List LogCall}
    (safe : ∀ past id, past ++ [.commit id] <+: calls → (history past).Committable id) :
    (history calls).CommittedPresent := by
  induction calls using List.reverseRecOn with
  | nil => exact committedPresent_fresh
  | append_singleton past call inductionHypothesis =>
    have present := inductionHypothesis fun earlier id before =>
      safe earlier id (before.trans (List.prefix_append _ _))
    rw [history_append]
    cases call with
    | prepare entry => exact present.prepare entry
    | commit id => exact present.commit (valid_history past) (safe past id (List.prefix_refl _))
    | abort id => exact present.abort id
    | appendEntry entry => exact present.appendEntry entry

/-- In every state that calls lead to, a commit is all or nothing exactly when the log has the
entry of a pending transaction or the place for it. Along a history, no transaction is committed
without its entry in the log at any moment exactly when every commit is of this kind. -/
theorem commit_all_or_nothing (calls : List LogCall) :
    (∀ id, (history calls).AllOrNothing id ↔ (history calls).Committable id) ∧
      ((∀ past, past <+: calls → (history past).CommittedPresent) ↔
        ∀ past id, past ++ [.commit id] <+: calls → (history past).Committable id) := by
  refine ⟨(valid_history calls).allOrNothing_iff, fun present past id before => ?_,
    fun safe past before => ?_⟩
  · refine (valid_history past).committable_of_present ?_
    have after := present _ before
    rw [history_append] at after
    exact after
  · exact committedPresent_history fun earlier id prior => safe earlier id (prior.trans before)

end C4Log

end Commitments

/-- Two transactions are prepared, and the second one is to be committed first. -/
def overtakingCommit [Zlib] : List LogCall :=
  [.prepare (C4LogEntry.build 1 1 (Octets.fill transactionIdSize 1) [] length_nil_lt),
    .prepare (C4LogEntry.build 2 2 (Octets.fill transactionIdSize 2) [] length_nil_lt)]

/-- The commit fails, and it leaves the second transaction committed without an entry. -/
theorem not_allOrNothing_overtaking :
    ¬ ∀ calls id, @C4Log.AllOrNothing Zlib.reference (@C4Log.history Zlib.reference calls) id := by
  let zlib := Zlib.reference
  intro whole
  have failed : (c4LogCommit (C4Log.history overtakingCommit) (Octets.fill _ 2)).2 =
      .error .erange := by
    decide +kernel
  have decided : c4LogTransactionState
      (c4LogCommit (C4Log.history overtakingCommit) (Octets.fill _ 2)).1 (Octets.fill _ 2) =
        .committed := by
    decide +kernel
  have pending : c4LogTransactionState (C4Log.history overtakingCommit) (Octets.fill _ 2) =
      .prepared := by
    decide +kernel
  rcases whole overtakingCommit (Octets.fill _ 2) with ⟨entry, done, -⟩ | ⟨-, -, same⟩
  · rw [failed] at done
    cases done
  · rw [same, pending] at decided
    cases decided

end SuperPeerNet
