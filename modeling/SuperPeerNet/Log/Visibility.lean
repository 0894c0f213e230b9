/-
This file settles when aborted work stays out of the committed log.

The transaction table decides a transaction once: a state of `COMMITTED` or
`ABORTED` survives every later call. The committed log has a second writer,
`c4_log_append_entry`, which does not consult the table, and `c4_log_abort` does not
consult the log. So an id can be aborted and committed at once, and the theorem
below names the two calls, in terms of the state they find, that bring this about.
-/

import Mathlib.Data.List.Induction
import SuperPeerNet.Log.Invariant

namespace SuperPeerNet

section Histories

variable [Zlib]

namespace C4Log

/-- No aborted transaction is in the committed log. -/
def AbortedHidden (log : C4Log) : Prop :=
  ∀ id, c4LogTransactionState log id = .aborted → findEntry log id = none

/-- Every transaction that is decided before is decided the same way after. -/
def Settled (before after : C4Log) : Prop :=
  ∀ id, c4LogTransactionState before id = .committed ∨
      c4LogTransactionState before id = .aborted →
    c4LogTransactionState after id = c4LogTransactionState before id

/-- A call that respects the table: it does not append an aborted transaction, and it does
not abort a transaction that reached the committed log without a decision. -/
def Respects (log : C4Log) : LogCall → Prop
  | .appendEntry entry =>
    log.Extends entry → c4LogTransactionState log entry.transactionId ≠ .aborted
  | .abort id => findEntry log id ≠ none → c4LogTransactionState log id = .committed
  | .prepare _ => True
  | .commit _ => True

/-! ### Decisions are final -/

omit [Zlib] in
theorem Settled.refl (log : C4Log) : log.Settled log := fun _ _ => rfl

omit [Zlib] in
theorem Settled.trans {first second third : C4Log} (early : first.Settled second)
    (late : second.Settled third) : first.Settled third := by
  intro id decided
  have same := early id decided
  rw [← same] at decided ⊢
  exact late id decided

theorem Change.settled {log next : C4Log} (change : Change log next) : log.Settled next := by
  intro id decided
  cases change with
  | append entry fits absent => rfl
  | prepare entry sound small absent expected =>
    rw [c4LogTransactionState_withPrepared absent, if_neg]
    rintro rfl
    rw [c4LogTransactionState_of_absent absent] at decided
    simp at decided
  | commit row other found pending =>
    rw [c4LogTransactionState_withDecision found, if_neg]
    rintro rfl
    rw [c4LogTransactionState_of_found found, pending] at decided
    simp at decided
  | abort row other found pending =>
    rw [c4LogTransactionState_withDecision found, if_neg]
    rintro rfl
    rw [c4LogTransactionState_of_found found, pending] at decided
    simp at decided
  | abortUnknown other absent =>
    rw [c4LogTransactionState_withTombstone absent, if_neg]
    rintro rfl
    rw [c4LogTransactionState_of_absent absent] at decided
    simp at decided

theorem Changes.settled {log next : C4Log} (changes : Changes log next) : log.Settled next := by
  induction changes with
  | refl => exact Settled.refl log
  | tail _ change inductionHypothesis => exact inductionHypothesis.trans change.settled

theorem settled_history {past later : List LogCall} (earlier : past <+: later) :
    (history past).Settled (history later) := by
  obtain ⟨rest, rfl⟩ := earlier
  rw [history_append]
  exact (changes_foldl_perform _ rest).settled

/-! ### A respectful call keeps aborted work hidden -/

theorem AbortedHidden.decided {log : C4Log} (hidden : log.AbortedHidden) {row : C4Transaction}
    {id : TransactionId} (found : findTransaction log id = some row) :
    (log.decided row id).AbortedHidden := by
  intro other dead
  rw [findEntry_decided]
  rw [c4LogTransactionState_decided found] at dead
  split at dead
  · cases dead
  · exact hidden other dead

/-- Appending an entry whose transaction is not aborted keeps aborted work hidden. -/
theorem AbortedHidden.append {log next : C4Log} (hidden : log.AbortedHidden)
    {entry : C4LogEntry} (appended : appendLocked log entry true = .ok next)
    (live : log.Extends entry → c4LogTransactionState log entry.transactionId ≠ .aborted) :
    next.AbortedHidden := by
  have outcome := appendLocked_outcome log entry
  rw [appended] at outcome
  cases outcome with
  | repeated => exact hidden
  | appended fits absent =>
    intro other dead
    rw [c4LogTransactionState_withEntry] at dead
    rw [findEntry_withEntry, hidden other dead, if_neg]
    · rfl
    · rintro rfl
      exact live fits dead

theorem AbortedHidden.prepare {log : C4Log} (hidden : log.AbortedHidden) (entry : C4LogEntry) :
    (c4LogPrepare log entry).1.AbortedHidden := by
  have outcome := c4LogPrepare_outcome log entry
  generalize c4LogPrepare log entry = result at outcome ⊢
  cases outcome with
  | refused code => exact hidden
  | repeated row found same live => exact hidden
  | accepted sound small absent expected =>
    intro other dead
    rw [c4LogTransactionState_withPrepared absent] at dead
    split at dead
    · cases dead
    · exact hidden other dead

theorem AbortedHidden.commit {log : C4Log} (hidden : log.AbortedHidden) (id : TransactionId) :
    (c4LogCommit log id).1.AbortedHidden := by
  have outcome := c4LogCommit_outcome log id
  generalize c4LogCommit log id = result at outcome ⊢
  cases outcome with
  | refused dead => exact hidden
  | stuck row code found live failed => exact hidden.decided found
  | done row next found live appended =>
    refine (hidden.decided found).append appended fun _ => ?_
    rw [findTransaction_id found, c4LogTransactionState_decided found]
    split
    · decide
    · rw [c4LogTransactionState_of_found found]
      exact live

theorem AbortedHidden.abort {log : C4Log} (hidden : log.AbortedHidden) {id : TransactionId}
    (respects : findEntry log id ≠ none → c4LogTransactionState log id = .committed) :
    (c4LogAbort log id).1.AbortedHidden := by
  have outcome := c4LogAbort_outcome log id
  generalize c4LogAbort log id = result at outcome ⊢
  cases outcome with
  | repeated row found dead => exact hidden
  | refused row found live settled => exact hidden
  | aborted row found pending =>
    intro other dead
    rw [findEntry_withDecision]
    rw [c4LogTransactionState_withDecision found] at dead
    split at dead
    · rename_i same
      by_contra present
      have committed := respects (same ▸ present)
      rw [c4LogTransactionState_of_found found, pending] at committed
      cases committed
    · exact hidden other dead
  | unknown absent =>
    intro other dead
    rw [findEntry_withTombstone]
    rw [c4LogTransactionState_withTombstone absent] at dead
    split at dead
    · rename_i same
      by_contra present
      have committed := respects (same ▸ present)
      rw [c4LogTransactionState_of_absent absent] at committed
      cases committed
    · exact hidden other dead

theorem AbortedHidden.perform {log : C4Log} (hidden : log.AbortedHidden) {call : LogCall}
    (respects : log.Respects call) : (log.perform call).AbortedHidden := by
  cases call with
  | prepare entry => exact hidden.prepare entry
  | commit id => exact hidden.commit id
  | abort id => exact hidden.abort respects
  | appendEntry entry =>
    show (c4LogAppendEntry log entry).1.AbortedHidden
    unfold c4LogAppendEntry
    split
    · rename_i appended
      exact hidden.append appended respects
    · exact hidden

/-! ### A disrespectful call exposes it -/

/-- Only a respectful call leads from hidden to hidden: an append of an aborted transaction
makes it visible, and so does an abort of a transaction that is already in the log. -/
theorem respects_of_hidden {log : C4Log} (valid : log.Valid) (hidden : log.AbortedHidden)
    {call : LogCall} (after : (log.perform call).AbortedHidden) : log.Respects call := by
  cases call with
  | prepare entry => trivial
  | commit id => trivial
  | appendEntry entry =>
    intro fits dead
    have absent := hidden _ dead
    have performed : log.perform (.appendEntry entry) = log.withEntry entry := by
      show (c4LogAppendEntry log entry).1 = _
      rw [c4LogAppendEntry, appendLocked_withEntry fits absent]
    rw [performed] at after
    have gone := after entry.transactionId dead
    rw [findEntry_withEntry, absent, if_pos rfl] at gone
    cases gone
  | abort id =>
    intro present
    by_contra undecided
    have dead : c4LogTransactionState (c4LogAbort log id).1 id = .aborted := by
      have outcome := c4LogAbort_outcome log id
      generalize c4LogAbort log id = result at outcome ⊢
      cases outcome with
      | repeated row found dead => rw [c4LogTransactionState_of_found found, dead]
      | refused row found live settled =>
        have known := (valid.checked (KeyedList.lookup_mem found) live).known
        rw [c4LogTransactionState_of_found found] at undecided
        cases state : row.state <;> simp_all
      | aborted row found pending =>
        rw [c4LogTransactionState_withDecision found, if_pos rfl]
      | unknown absent => rw [c4LogTransactionState_withTombstone absent, if_pos rfl]
    have kept : findEntry (c4LogAbort log id).1 id = findEntry log id := by
      have outcome := c4LogAbort_outcome log id
      generalize c4LogAbort log id = result at outcome ⊢
      cases outcome <;> rfl
    exact present (kept ▸ after id dead)

/-! ### Whole histories -/

omit [Zlib] in
theorem abortedHidden_fresh : AbortedHidden fresh := nofun

theorem abortedHidden_history {calls : List LogCall}
    (respects : ∀ past call, past ++ [call] <+: calls → (history past).Respects call) :
    (history calls).AbortedHidden := by
  induction calls using List.reverseRecOn with
  | nil => exact abortedHidden_fresh
  | append_singleton past call inductionHypothesis =>
    rw [history_append]
    refine (inductionHypothesis ?_).perform (respects past call (List.prefix_refl _))
    exact fun earlier other before => respects earlier other (before.trans (List.prefix_append _ _))

/-- Along a history, aborted work is out of the committed log at every moment and decisions
are final. -/
structure KeepsDecisions (calls : List LogCall) : Prop where
  hidden : ∀ past, past <+: calls → (history past).AbortedHidden
  settled : ∀ past later, past <+: later → later <+: calls →
    (history past).Settled (history later)

/-- A history keeps decisions exactly when every call respects the table in the state that
the call finds. -/
theorem keepsDecisions_iff_respects (calls : List LogCall) :
    KeepsDecisions calls ↔
      ∀ past call, past ++ [call] <+: calls → (history past).Respects call := by
  constructor
  · intro keeps past call before
    refine respects_of_hidden (valid_history past)
      (keeps.hidden past ((List.prefix_append _ _).trans before)) ?_
    have after := keeps.hidden (past ++ [call]) before
    rw [history_append] at after
    exact after
  · intro respects
    refine ⟨fun past before => ?_, fun past later earlier _ => settled_history earlier⟩
    exact abortedHidden_history fun earlier call prior =>
      respects earlier call (prior.trans before)

end C4Log

end Histories

/-- An abort that arrives before the state transfer of the same transaction. -/
def abortThenTransfer [Zlib] : List LogCall :=
  let id : TransactionId := Octets.fill transactionIdSize 7
  [.abort id, .appendEntry (C4LogEntry.build 1 1 id [] length_nil_lt)]

/-- After the transfer the transaction is aborted in the table and committed in the log. -/
theorem not_keepsDecisions_abortThenTransfer :
    ¬ ∀ calls, @C4Log.KeepsDecisions Zlib.reference calls := by
  let zlib := Zlib.reference
  intro keeps
  have hidden := (keeps abortThenTransfer).hidden _ (List.prefix_refl _)
  have dead : c4LogTransactionState (C4Log.history abortThenTransfer)
      (Octets.fill transactionIdSize 7) = .aborted := by decide +kernel
  have present : findEntry (C4Log.history abortThenTransfer)
      (Octets.fill transactionIdSize 7) ≠ none := by decide +kernel
  exact present (hidden _ dead)

end SuperPeerNet
