/-
This file proves that the committed logs of any two super peers agree wherever both
have an entry, across all changes of coordinators.

The argument is about two decided transactions with one index. All super peers have
prepared both, so the table of either coordinator has both rows. A row is accepted at
the index of an earlier one only if the earlier one is not pending and not in the log.
So, at the coordinator of the transaction that was decided first, the row of the other
one comes earlier and had its decision already. But its own coordinator still has it
pending when it is decided second.
-/

import Mathlib.Data.List.Pairwise
import SuperPeerNet.Cluster.Concordance

namespace SuperPeerNet

variable [Zlib]

section Steps

variable {peers : List NodeID} {system next : System} {action : Action}
  (concordant : Concordant peers system) (vouched : Vouched system)

include concordant vouched

/-! ### One decided transaction for each index -/

/-- A transaction that its coordinator still has pending is pending wherever it is prepared. -/
theorem Concordant.pending_of_pending {coordinator node : NodeID} {entry : C4LogEntry}
    (submitted : system.Submitted coordinator entry.transactionId)
    (pending : system.state coordinator entry.transactionId = .prepared)
    (has : system.HasRow node entry) : system.state node entry.transactionId = .prepared := by
  obtain ⟨row, found, same, isState⟩ := System.state_of_hasRow has
  cases state : system.state node entry.transactionId with
  | prepared => rfl
  | unknown =>
    have live : row.state ≠ .aborted := by
      rw [← isState, state]
      nofun
    have known := ((vouched.valid node).checked (KeyedList.lookup_mem found) live).known
    exact absurd (isState.symm.trans state) known
  | aborted =>
    obtain ⟨other, submittedOther, aborted⟩ := concordant.aborted node _ state
    obtain rfl := concordant.coordinator_unique submitted submittedOther
    rw [pending] at aborted
    cases aborted
  | committed =>
    rcases concordant.committed node _ state with own | ⟨other, submittedOther, inLog⟩
    · obtain rfl := concordant.coordinator_unique submitted own
      rw [pending] at state
      cases state
    · obtain rfl := concordant.coordinator_unique submitted submittedOther
      have committed := concordant.state_of_inLog submitted inLog
      rw [pending] at committed
      cases committed

/-- No decided transaction has the index of one that its execution is about to commit. -/
theorem Concordant.no_clash {node decider : NodeID} {task : SubmitTask}
    {entry decided : C4LogEntry} (runs : system.Runs action node task)
    (phase : task.phase = .commit) (same : task.transactionId = entry.transactionId)
    (has : system.HasRow node entry)
    (submitted : system.Submitted decider decided.transactionId)
    (holds : system.Holds decider decided) (index : entry.index = decided.index) :
    entry.transactionId = decided.transactionId := by
  by_contra different
  have peer := concordant.peer_of_submitted submitted
  have own : system.Submitted node entry.transactionId := same ▸ System.Submitted.of_runs runs
  have pending : system.state node entry.transactionId = .prepared := by
    obtain ⟨place, generated, outcome, errno, -, found⟩ := runs
    rw [← same]
    exact concordant.ownState place node task .prepared found (by rw [phase]; rfl)
  have hasThere := concordant.prepared_everywhere vouched runs phase same has decider peer
  have decidedThere := (concordant.decided decider decided submitted holds).2 decider peer
  obtain ⟨row, found, rowEntry, rowState⟩ := System.state_of_hasRow hasThere
  obtain ⟨decidedRow, decidedFound, decidedEntry, -⟩ := System.state_of_hasRow decidedThere
  have distinct : row ≠ decidedRow := by
    rintro rfl
    exact different (by rw [← rowEntry, decidedEntry])
  have ordered : (system.log decider).transactions.Pairwise fun first second =>
      Superseded system decider first second ∨ Superseded system decider second first :=
    (concordant.order decider).imp Or.inl
  have symmetric : Std.Symm fun first second =>
      Superseded system decider first second ∨ Superseded system decider second first :=
    ⟨fun _ _ => Or.symm⟩
  rcases ordered.forall (KeyedList.lookup_mem found) (KeyedList.lookup_mem decidedFound)
    distinct with earlier | later
  · -- The pending row comes first at the other coordinator, where it is pending too.
    have settled := (earlier (by rw [rowEntry, decidedEntry, index])).1
    rw [← rowState] at settled
    exact settled (concordant.pending_of_pending vouched own pending hasThere)
  · -- The decided row comes first, which a node does not accept of its own decided row.
    have lost := (later (by rw [rowEntry, decidedEntry, index])).2
    have key : decidedRow.id = decided.transactionId :=
      congrArg C4LogEntry.transactionId decidedEntry
    rw [key] at lost
    exact lost ⟨submitted, decided, holds⟩

variable (step : SystemStep system action next) (permitted : SubmitsFresh peers system action)

include step permitted

theorem Concordant.single_step {first second : NodeID} {entry other : C4LogEntry}
    (submitted : next.Submitted first entry.transactionId) (holds : next.Holds first entry)
    (submittedOther : next.Submitted second other.transactionId)
    (holdsOther : next.Holds second other) (index : entry.index = other.index) :
    entry.transactionId = other.transactionId := by
  rcases concordant.newly_decided vouched step permitted submitted holds with
    ⟨known, held⟩ | ⟨task, runs, phase, same, has, -⟩
  · rcases concordant.newly_decided vouched step permitted submittedOther holdsOther with
      ⟨knownOther, heldOther⟩ | ⟨task, runs, phase, same, has, -⟩
    · exact concordant.single first second entry other known held knownOther heldOther index
    · exact (concordant.no_clash vouched runs phase same has known held index.symm).symm
  · rcases concordant.newly_decided vouched step permitted submittedOther holdsOther with
      ⟨knownOther, heldOther⟩ | ⟨otherTask, otherRuns, -, sameOther, -, -⟩
    · exact concordant.no_clash vouched runs phase same has knownOther heldOther index
    · -- One action is a step of one task.
      obtain ⟨place, generated, outcome, errno, rfl, found⟩ := runs
      obtain ⟨otherPlace, otherGenerated, otherOutcome, otherErrno, isRun, foundOther⟩ := otherRuns
      cases isRun
      cases found.symm.trans foundOther
      exact same.symm.trans sameOther

/-! ### The order of rows with one index -/

/-- A row that is settled, and that the node has not both submitted and committed, stays so. -/
theorem Concordant.superseded_step {node : NodeID} {row : C4Transaction}
    (member : row ∈ (system.log node).transactions) (settled : row.state ≠ .prepared)
    (lost : ¬ (system.Submitted node row.id ∧ system.InLog node row.id)) :
    ¬ (next.Submitted node row.id ∧ next.InLog node row.id) := by
  rintro ⟨submitted, entry, found⟩
  have key : entry.transactionId = row.id := findEntry_id found
  rcases concordant.newly_decided vouched step permitted (key ▸ submitted)
      (System.holds_of_found found) with ⟨known, held⟩ | ⟨task, runs, phase, same, -⟩
  · exact lost ⟨key ▸ known, entry, key ▸ held⟩
  · obtain ⟨place, generated, outcome, errno, -, foundTask⟩ := runs
    have pending := concordant.ownState place node task .prepared foundTask (by rw [phase]; rfl)
    have lookup : findTransaction (system.log node) row.id = some row :=
      (KeyedList.lookup_eq_some_iff (vouched.valid node).distinct).mpr ⟨member, rfl⟩
    rw [same, key, System.state, c4LogTransactionState_of_found lookup] at pending
    exact settled pending

omit step permitted in
/-- A node accepts a row at the index of an earlier one only if that one is superseded. -/
theorem Concordant.superseded_new {node : NodeID} {row : C4Transaction} {entry : C4LogEntry}
    (member : row ∈ (system.log node).transactions) (sound : entry.Sound)
    (expected : expectedNext (system.log node) = (entry.index, entry.version))
    (index : row.entry.index = entry.index) :
    row.state ≠ .prepared ∧ ¬ (system.Submitted node row.id ∧ system.InLog node row.id) := by
  obtain ⟨-, expects⟩ := (vouched.valid node).expectedNext sound.1 expected
  refine ⟨fun pending => ?_, ?_⟩
  · have below := expects.afterPending row member pending
    rw [index] at below
    exact UInt64.lt_irrefl _ below
  · rintro ⟨submitted, held, found⟩
    have key : held.transactionId = row.id := findEntry_id found
    have peer := concordant.peer_of_submitted submitted
    obtain ⟨heldRow, foundHeld, sameHeld⟩ := (concordant.decided node held (key ▸ submitted)
      (System.holds_of_found found)).2 node peer
    have lookup : findTransaction (system.log node) row.id = some row :=
      (KeyedList.lookup_eq_some_iff (vouched.valid node).distinct).mpr ⟨member, rfl⟩
    rw [key, lookup] at foundHeld
    cases foundHeld
    -- The committed entry has the index, so the log reaches that far and expects more.
    obtain ⟨position, atPosition⟩ := List.getElem?_of_mem (KeyedList.lookup_mem found)
    have number := (vouched.valid node).entries.numbered position held atPosition
    have inside := (List.getElem?_eq_some_iff.mp atPosition).1
    have after := expects.afterLog
    rw [← sameHeld, index] at number
    omega

omit step permitted in
/-- A tombstone has the index zero, which only other tombstones have. -/
theorem Concordant.superseded_tombstone {node : NodeID} {row : C4Transaction}
    (member : row ∈ (system.log node).transactions) (index : row.entry.index = 0) :
    row.state ≠ .prepared ∧ ¬ (system.Submitted node row.id ∧ system.InLog node row.id) := by
  rcases (vouched.valid node).rows row member with dead | checked
  · have aborted : row.state = .aborted := by
      rw [dead]
      rfl
    refine ⟨by rw [aborted]; nofun, ?_⟩
    rintro ⟨submitted, inLog⟩
    have lookup : findTransaction (system.log node) row.id = some row :=
      (KeyedList.lookup_eq_some_iff (vouched.valid node).distinct).mpr ⟨member, rfl⟩
    have committed := concordant.state_of_inLog submitted inLog
    rw [System.state, c4LogTransactionState_of_found lookup, aborted] at committed
    cases committed
  · exact absurd index checked.sound.1

theorem Concordant.order_step (node : NodeID) :
    (next.log node).transactions.Pairwise (Superseded next node) := by
  have old : (system.log node).transactions.Pairwise (Superseded next node) := by
    refine (concordant.order node).imp_of_mem ?_
    intro first second inTable _ superseded index
    obtain ⟨settled, lost⟩ := superseded index
    exact ⟨settled, concordant.superseded_step vouched step permitted inTable settled lost⟩
  have decided : ∀ (id : TransactionId) (state : C4TransactionState), state ≠ .prepared →
      (KeyedList.modify C4Transaction.id (fun row => { row with state := state }) id
        (system.log node).transactions).Pairwise (Superseded next node) := by
    intro id state settled
    refine KeyedList.pairwise_modify ?_ ?_ old
    · exact fun _ _ _ _ superseded index => ⟨settled, (superseded index).2⟩
    · exact fun _ _ _ _ superseded index => superseded index
  have table := (causes_of_step vouched step node).table
  generalize (next.log node).transactions = rows at table
  cases table with
  | same => exact old
  | prepared entry sound absent expected cause =>
    refine List.pairwise_append.mpr ⟨old, List.pairwise_singleton _ _, ?_⟩
    intro row inTable new isNew index
    rw [List.mem_singleton.mp isNew] at index
    obtain ⟨settled, lost⟩ := concordant.superseded_new vouched inTable sound expected index
    exact ⟨settled, concordant.superseded_step vouched step permitted inTable settled lost⟩
  | committed row id found pending cause => exact decided id .committed nofun
  | aborted row id found pending cause => exact decided id .aborted nofun
  | tombstone id absent cause =>
    refine List.pairwise_append.mpr ⟨old, List.pairwise_singleton _ _, ?_⟩
    intro row inTable new isNew index
    rw [List.mem_singleton.mp isNew] at index
    obtain ⟨settled, lost⟩ := concordant.superseded_tombstone vouched inTable index
    exact ⟨settled, concordant.superseded_step vouched step permitted inTable settled lost⟩

end Steps

/-- Every step keeps the invariant. -/
theorem Concordant.step {peers : List NodeID} {system next : System} {action : Action}
    (concordant : Concordant peers system) (vouched : Vouched system)
    (step : SystemStep system action next) (permitted : SubmitsFresh peers system action) :
    Concordant peers next where
  unique _ _ _ _ _ _ found foundOther same :=
    concordant.unique_step step permitted found foundOther same
  captured _ _ _ found := concordant.captured_step step permitted found
  ownState _ _ _ _ found own := concordant.ownState_step vouched step permitted found own
  requests _ _ _ decision sent := concordant.requests_step vouched step decision sent
  aborts _ _ sent := concordant.aborts_step vouched step sent
  rows _ _ _ found live := concordant.rows_step vouched step found live
  committed _ _ isState := concordant.committed_step vouched step isState
  aborted _ _ isState := concordant.aborted_step vouched step isState
  entries _ _ member := concordant.entries_step vouched step member
  decided _ _ submitted holds := concordant.decided_step vouched step permitted submitted holds
  order := concordant.order_step vouched step permitted
  single _ _ _ _ submitted holds submittedOther holdsOther index :=
    concordant.single_step vouched step permitted submitted holds submittedOther holdsOther index

omit [Zlib] in
theorem concordant_initial {peers : List NodeID} {system : System} (initial : system.Initial) :
    Concordant peers system where
  unique first second firstNode secondNode task other found := by
    rw [initial.tasks] at found
    cases found
  captured index node task found := by
    rw [initial.tasks] at found
    cases found
  ownState index node task state found := by
    rw [initial.tasks] at found
    cases found
  requests := by
    rintro messageType source id - ⟨request, member, -⟩
    rw [initial.network] at member
    cases member
  aborts := by
    rintro source id ⟨request, member, -⟩
    rw [initial.network] at member
    cases member
  rows node id row found := by
    rw [System.log, initial.log] at found
    cases found
  committed node id isState := by
    rw [System.state, System.log, initial.log] at isState
    cases isState
  aborted node id isState := by
    rw [System.state, System.log, initial.log] at isState
    cases isState
  entries node entry member := by
    rw [System.log, initial.log] at member
    cases member
  decided coordinator entry submitted holds := by
    rw [System.Holds, System.log, initial.log] at holds
    cases holds
  order node := by
    rw [System.log, initial.log]
    exact List.Pairwise.nil
  single first second entry other submitted holds := by
    rw [System.Holds, System.log, initial.log] at holds
    cases holds

/-! ### Agreement -/

omit [Zlib] in
/-- Two logs that are equal wherever both have an entry are prefix-comparable. -/
theorem prefix_comparable {first second : List C4LogEntry}
    (agree : ∀ (position : Nat) (entry other : C4LogEntry), first[position]? = some entry →
      second[position]? = some other → entry = other) :
    first <+: second ∨ second <+: first := by
  rcases Nat.le_total first.length second.length with shorter | longer
  · refine Or.inl (List.prefix_iff_getElem?.mpr fun position inside => ?_)
    have found := List.getElem?_eq_getElem (Nat.lt_of_lt_of_le inside shorter)
    rw [found, agree position _ _ (List.getElem?_eq_getElem inside) found]
  · refine Or.inr (List.prefix_iff_getElem?.mpr fun position inside => ?_)
    have found := List.getElem?_eq_getElem (Nat.lt_of_lt_of_le inside longer)
    rw [found, agree position _ _ found (List.getElem?_eq_getElem inside)]

/-- The entries of two logs at one position are the same. -/
theorem Concordant.same_position {peers : List NodeID} {system : System}
    (concordant : Concordant peers system) (vouched : Vouched system) {first second : NodeID}
    {position : Nat} {entry other : C4LogEntry}
    (found : (system.log first).entries[position]? = some entry)
    (foundOther : (system.log second).entries[position]? = some other) : entry = other := by
  have number := (vouched.valid first).entries.numbered position entry found
  have numberOther := (vouched.valid second).entries.numbered position other foundOther
  have index : entry.index = other.index := UInt64.toNat_inj.mp (number.trans numberOther.symm)
  obtain ⟨coordinator, submitted, holds⟩ :=
    concordant.entries first entry (List.mem_of_getElem? found)
  obtain ⟨otherCoordinator, submittedOther, holdsOther⟩ :=
    concordant.entries second other (List.mem_of_getElem? foundOther)
  have same := concordant.single _ _ entry other submitted holds submittedOther holdsOther index
  obtain rfl := concordant.coordinator_unique submitted (same ▸ submittedOther)
  unfold System.Holds at holds holdsOther
  rw [same, holdsOther] at holds
  exact (Option.some.inj holds).symm

/-- Any super peer may coordinate at any time, several at once. As long as each transaction id is
submitted once and each submission captures all the other super peers, the committed logs of any
two nodes are at all times prefix-comparable. -/
theorem log_agreement {start system : System} {peers : List NodeID} (initial : start.Initial)
    (reached : Transition.Reaches System.step (SubmitsFresh peers) start system)
    (first second : NodeID) :
    (system.log first).entries <+: (system.log second).entries ∨
      (system.log second).entries <+: (system.log first).entries := by
  obtain ⟨vouched, concordant⟩ : Vouched system ∧ Concordant peers system :=
    invariant_of_vouched initial (concordant_initial initial)
      (fun _ _ _ vouched concordant permitted step => concordant.step vouched step permitted)
      reached
  exact prefix_comparable fun _ _ _ found foundOther =>
    concordant.same_position vouched found foundOther

/-- The first super peer replicates an operation. Then the second one coordinates another one,
and commits it before the first one hears of the decision. -/
def successiveRun (id other : TransactionId) : List Action :=
  replicatedRun id ++
    [.setLeader (nodeOf 1) (nodeOf 2), .setLeader (nodeOf 2) (nodeOf 2),
      .submit (nodeOf 2) other (nodeOf 9) [5], runTask 1, runTask 1, runTask 1, runTask 1] ++
    acknowledgedCall 1 (requestOf 2 1 .prepare other (c4LogRecord (entryOf 2 other))) ++
    [runTask 1, runTask 1]

omit [Zlib] in
/-- The second super peer is one entry ahead of the first one. -/
theorem log_agreement_successive :
    letI := Zlib.reference
    ∃ system, Transition.Reaches System.step (SubmitsFresh [nodeOf 1, nodeOf 2])
        (startOf [nodeOf 1, nodeOf 2] (nodeOf 1)) system ∧
      ((system.log (nodeOf 1)).entries = [entryOf 1 (transactionOf 1)] ∧
        (system.log (nodeOf 2)).entries =
          [entryOf 1 (transactionOf 1), entryOf 2 (transactionOf 2)]) ∧
      ((system.log (nodeOf 1)).entries <+: (system.log (nodeOf 2)).entries ∨
        (system.log (nodeOf 2)).entries <+: (system.log (nodeOf 1)).entries) := by
  let zlib := Zlib.reference
  obtain ⟨system, reached, logs⟩ := Transition.Reaches.of_check
    (show (Transition.run (Transition.guarded System.step (SubmitsFresh [nodeOf 1, nodeOf 2]))
        (startOf [nodeOf 1, nodeOf 2] (nodeOf 1))
        (successiveRun (transactionOf 1) (transactionOf 2))).any
      (fun final => (final.log (nodeOf 1)).entries = [entryOf 1 (transactionOf 1)] ∧
        (final.log (nodeOf 2)).entries =
          [entryOf 1 (transactionOf 1), entryOf 2 (transactionOf 2)]) = true by decide +kernel)
  exact ⟨system, reached, logs,
    log_agreement (initial_startOf _ _) reached (nodeOf 1) (nodeOf 2)⟩

end SuperPeerNet
