/-
This file says what is behind every change of a log in a run.

A row is added, committed or aborted either by a task of the node itself or because of
a request, and an entry is appended either by a commit or because another node has it.
The agreement results split on these causes and need no other fact about a step than
how it moves the tasks and the messages.
-/

import SuperPeerNet.Log.Visibility
import SuperPeerNet.Cluster.Acknowledged

namespace SuperPeerNet

variable [Zlib]

/-! ### States of transactions -/

namespace System

/-- The state of a transaction at a node. -/
def state (system : System) (node : NodeID) (id : TransactionId) : C4TransactionState :=
  c4LogTransactionState (system.log node) id

/-- A request of a type, for a transaction, has been sent by a node. -/
def Sent (system : System) (messageType : MessageType) (source : NodeID) (id : TransactionId) :
    Prop :=
  ∃ request, .request request ∈ system.network ∧ request.messageType = messageType ∧
    request.sourceNode = source ∧ request.transactionId = id

/-- The action is a step of the task, which submits an operation at the node. -/
def Runs (system : System) (action : Action) (node : NodeID) (task : SubmitTask) : Prop :=
  ∃ index generated outcome errno, action = .run index generated outcome errno ∧
    system.tasks[index]? = some ⟨node, .submit task⟩

theorem Grows.settled {before after : System} (grows : before.Grows after) {node : NodeID}
    {id : TransactionId} {state : C4TransactionState}
    (final : state = .committed ∨ state = .aborted) (isState : before.state node id = state) :
    after.state node id = state := by
  have same := (grows node).log.settled id (by
    rw [← System.log, ← System.state, isState]
    exact final)
  exact same.trans isState

omit [Zlib] in
theorem state_of_hasRow {system : System} {node : NodeID} {entry : C4LogEntry}
    (has : system.HasRow node entry) :
    ∃ row, findTransaction (system.log node) entry.transactionId = some row ∧ row.entry = entry ∧
      system.state node entry.transactionId = row.state := by
  obtain ⟨row, found, same⟩ := has
  exact ⟨row, found, same, c4LogTransactionState_of_found found⟩

omit [Zlib] in
theorem holds_of_found {system : System} {node : NodeID} {id : TransactionId} {entry : C4LogEntry}
    (found : findEntry (system.log node) id = some entry) : system.Holds node entry := by
  unfold Holds
  rw [findEntry_id found]
  exact found

end System

/-! ### The causes -/

/-- Why a transaction is prepared at a node. -/
inductive PrepareCause (system : System) (action : Action) (node : NodeID)
    (entry : C4LogEntry) : Prop
  | own (task : SubmitTask) (runs : system.Runs action node task)
      (phase : task.phase = .prepare entry)
  | requested (source : NodeID) (sent : system.Sent .prepare source entry.transactionId)
      (row : system.HasRow source entry)

/-- Why a transaction is committed at a node. -/
inductive CommitCause (system : System) (action : Action) (node : NodeID)
    (id : TransactionId) : Prop
  | own (task : SubmitTask) (runs : system.Runs action node task) (phase : task.phase = .commit)
      (same : task.transactionId = id)
  | requested (source : NodeID) (sent : system.Sent .commit source id)
      (inLog : system.InLog source id)

/-- Why a transaction is aborted at a node. -/
inductive AbortCause (system : System) (action : Action) (node : NodeID)
    (id : TransactionId) : Prop
  | own (task : SubmitTask) (runs : system.Runs action node task) (phase : task.phase = .abort)
      (same : task.transactionId = id)
  | requested (source : NodeID) (sent : system.Sent .abort source id)

/-- How the transaction table of a node comes out of a step. -/
inductive TableCause (system : System) (action : Action) (node : NodeID) :
    List C4Transaction → Prop
  | same : TableCause system action node (system.log node).transactions
  | prepared (entry : C4LogEntry) (sound : entry.Sound)
      (absent : findTransaction (system.log node) entry.transactionId = none)
      (expected : expectedNext (system.log node) = (entry.index, entry.version))
      (cause : PrepareCause system action node entry) :
      TableCause system action node ((system.log node).withPrepared entry).transactions
  | committed (row : C4Transaction) (id : TransactionId)
      (found : findTransaction (system.log node) id = some row) (pending : row.state = .prepared)
      (cause : CommitCause system action node id) :
      TableCause system action node
        ((system.log node).withDecision id c4TxnCommit .committed).transactions
  | aborted (row : C4Transaction) (id : TransactionId)
      (found : findTransaction (system.log node) id = some row) (pending : row.state = .prepared)
      (cause : AbortCause system action node id) :
      TableCause system action node
        ((system.log node).withDecision id c4TxnAbort .aborted).transactions
  | tombstone (id : TransactionId) (absent : findTransaction (system.log node) id = none)
      (cause : AbortCause system action node id) :
      TableCause system action node ((system.log node).withTombstone id).transactions

/-- How the committed log of a node comes out of a step. -/
inductive EntriesCause (system : System) (action : Action) (node : NodeID) (next : C4Log) : Prop
  | same (entries : next.entries = (system.log node).entries)
  | committed (row : C4Transaction)
      (found : findTransaction (system.log node) row.entry.transactionId = some row)
      (live : row.state ≠ .aborted) (fits : (system.log node).Extends row.entry)
      (absent : findEntry (system.log node) row.entry.transactionId = none)
      (state : c4LogTransactionState next row.entry.transactionId = .committed)
      (cause : CommitCause system action node row.entry.transactionId)
      (entries : next.entries = (system.log node).entries ++ [row.entry])
  | transferred (source : NodeID) (entry : C4LogEntry) (holds : system.Holds source entry)
      (fits : (system.log node).Extends entry)
      (absent : findEntry (system.log node) entry.transactionId = none)
      (entries : next.entries = (system.log node).entries ++ [entry])

/-- What is behind the state of the log of a node after a step. -/
structure Causes (system : System) (action : Action) (node : NodeID) (next : C4Log) : Prop where
  table : TableCause system action node next.transactions
  entries : EntriesCause system action node next

section LogCalls

variable {system : System} {action : Action} {node : NodeID}

theorem causes_same : Causes system action node (system.log node) :=
  ⟨.same, .same rfl⟩

theorem causes_prepare {entry : C4LogEntry} (cause : PrepareCause system action node entry) :
    Causes system action node (c4LogPrepare (system.log node) entry).1 := by
  have outcome := c4LogPrepare_outcome (system.log node) entry
  generalize c4LogPrepare (system.log node) entry = result at outcome ⊢
  cases outcome with
  | refused code => exact causes_same
  | repeated row found same live => exact causes_same
  | accepted sound small absent expected =>
    exact ⟨.prepared entry sound absent expected cause, .same rfl⟩

theorem causes_abort {id : TransactionId} (cause : AbortCause system action node id) :
    Causes system action node (c4LogAbort (system.log node) id).1 := by
  have outcome := c4LogAbort_outcome (system.log node) id
  generalize c4LogAbort (system.log node) id = result at outcome ⊢
  cases outcome with
  | repeated row found dead => exact causes_same
  | refused row found live settled => exact causes_same
  | aborted row found pending => exact ⟨.aborted row id found pending cause, .same rfl⟩
  | unknown absent => exact ⟨.tombstone id absent cause, .same rfl⟩

theorem causes_append {source : NodeID} {entry : C4LogEntry} (holds : system.Holds source entry) :
    Causes system action node (c4LogAppendEntry (system.log node) entry).1 := by
  have outcome := appendLocked_outcome (system.log node) entry
  unfold c4LogAppendEntry
  generalize appendLocked (system.log node) entry true = result at outcome ⊢
  cases outcome with
  | refused code => exact causes_same
  | repeated sound found => exact causes_same
  | appended fits absent => exact ⟨.same, .transferred source entry holds fits absent rfl⟩

/-- The commit decision on a row that is not aborted. -/
theorem table_decided (valid : (system.log node).Valid) {row : C4Transaction} {id : TransactionId}
    (found : findTransaction (system.log node) id = some row) (live : row.state ≠ .aborted)
    (cause : CommitCause system action node id) :
    TableCause system action node ((system.log node).decided row id).transactions ∧
      c4LogTransactionState ((system.log node).decided row id) id = .committed := by
  rw [c4LogTransactionState_decided found]
  unfold C4Log.decided
  by_cases pending : row.state = .prepared
  · rw [if_pos pending, if_pos ⟨rfl, pending⟩]
    exact ⟨.committed row id found pending cause, rfl⟩
  · rw [if_neg pending, if_neg fun both => pending both.2, c4LogTransactionState_of_found found]
    refine ⟨.same, ?_⟩
    have known := (valid.checked (KeyedList.lookup_mem found) live).known
    cases state : row.state with
    | unknown => exact absurd state known
    | prepared => exact absurd state pending
    | committed => rfl
    | aborted => exact absurd state live

theorem causes_commit (valid : (system.log node).Valid) {id : TransactionId}
    (cause : CommitCause system action node id) :
    Causes system action node (c4LogCommit (system.log node) id).1 := by
  have outcome := c4LogCommit_outcome (system.log node) id
  generalize c4LogCommit (system.log node) id = result at outcome ⊢
  cases outcome with
  | refused dead => exact causes_same
  | stuck row code found live failed =>
    exact ⟨(table_decided valid found live cause).1, .same (C4Log.decided_entries _ _ _)⟩
  | done row next found live appended =>
    obtain ⟨table, state⟩ := table_decided valid found live cause
    have key := findTransaction_id found
    have outcome := appendLocked_outcome ((system.log node).decided row id) row.entry
    rw [appended] at outcome
    cases outcome with
    | repeated sound present => exact ⟨table, .same (C4Log.decided_entries _ _ _)⟩
    | appended fits absent =>
      rw [← key] at found state cause
      refine ⟨table, .committed row found live ?_ ?_ ?_ cause ?_⟩
      · obtain ⟨sound, index, version, room⟩ := fits
        unfold nextIndex nextVersion at *
        rw [C4Log.decided_entries] at index version room
        exact ⟨sound, index, version, room⟩
      · rw [findEntry_decided] at absent
        exact absent
      · rw [key] at state ⊢
        exact state
      · rw [C4Log.withEntry_entries, C4Log.decided_entries]

end LogCalls

/-! ### What is behind a step -/

theorem log_commitAndApply (apply : C4ApplyEntry Applied) (cluster : C4Cluster Applied)
    (id : TransactionId) :
    (commitAndApply apply cluster id).1.log = (c4LogCommit cluster.log id).1 := by
  unfold commitAndApply
  split <;> simp_all

theorem log_appendAndApply (apply : C4ApplyEntry Applied) (cluster : C4Cluster Applied)
    (entry : C4LogEntry) :
    (appendAndApply apply cluster entry).1.log = (c4LogAppendEntry cluster.log entry).1 := by
  unfold appendAndApply c4LogAppendEntry
  cases appendLocked cluster.log entry true <;> rfl

section Steps

variable {system : System} (vouched : Vouched system)

include vouched

theorem causes_of_jobStep {index : Nat} {generated : TransactionId}
    {outcome : Except Errno Unit} {errno : Errno} {node : NodeID} {cluster : C4Cluster Applied}
    {job next : Job} {sent : Option Message} (found : system.tasks[index]? = some ⟨node, job⟩)
    (step : JobStep (recordApply outcome) errno generated (system.cluster node) job cluster next
      sent) : Causes system (.run index generated outcome errno) node cluster.log := by
  have jobOk := vouched.tasks _ (List.mem_of_getElem? found)
  cases step with
  | @submit task after phase sent step =>
    have runs : system.Runs (.run index generated outcome errno) node task :=
      ⟨index, generated, outcome, errno, rfl, found⟩
    cases step with
    | known => exact causes_same
    | conflict => exact causes_same
    | unknown => exact causes_same
    | readIndex => exact causes_same
    | readVersion => exact causes_same
    | prepared entry wire phase => exact causes_prepare (.own task runs phase)
    | unprepared entry code phase => exact causes_prepare (.own task runs phase)
    | finish => exact causes_same
    | send => exact causes_same
    | committed phase accepted =>
      rw [log_commitAndApply]
      exact causes_commit (vouched.valid node) (.own task runs phase rfl)
    | uncommitted code phase =>
      rw [log_commitAndApply]
      exact causes_commit (vouched.valid node) (.own task runs phase rfl)
    | aborted phase => exact causes_abort (.own task runs phase rfl)
  | @recover task after phase sent step =>
    have recoverOk : RecoverOk system task.member task.phase := jobOk
    cases step with
    | read => exact causes_same
    | send => exact causes_same
    | appended entry rest phase =>
      rw [phase] at recoverOk
      rw [log_appendAndApply]
      exact causes_append (recoverOk entry List.mem_cons_self)
    | failed entry rest code phase =>
      rw [phase] at recoverOk
      rw [log_appendAndApply]
      exact causes_append (recoverOk entry List.mem_cons_self)
  | broadcast phase step => exact causes_same

theorem causes_of_handle {request : Message} (sent : .request request ∈ system.network)
    (outcome : Except Errno Unit) (errno : Errno) :
    Causes system (.deliver request outcome errno) request.destinationNode
      (c4ClusterHandle errno (recordApply outcome) (fun cluster _ => (cluster, .ok ()))
        (system.cluster request.destinationNode) request).1.log := by
  have requestOk : RequestOk system request := vouched.packets _ sent
  have handled := c4ClusterHandle_outcome errno (recordApply outcome)
    (system.cluster request.destinationNode) request
  generalize c4ClusterHandle errno (recordApply outcome) _ _ request = result at handled ⊢
  cases handled with
  | refused code => exact causes_same
  | election after result type identity log applied =>
    rw [show after.log = system.log request.destinationNode from log]
    exact causes_same
  | served type => exact causes_same
  | prepare entry type decoded id =>
    obtain ⟨other, decodedOther, -, row⟩ := requestOk.prepare type
    cases decoded.symm.trans decodedOther
    exact causes_prepare (.requested _ ⟨request, sent, type, rfl, id.symm⟩ row)
  | commit type =>
    rw [log_commitAndApply]
    exact causes_commit (vouched.valid _)
      (.requested _ ⟨request, sent, type, rfl, rfl⟩ (requestOk.commit type))
  | abort type => exact causes_abort (.requested _ ⟨request, sent, type, rfl, rfl⟩)
  | transfer entry type decoded =>
    obtain ⟨other, decodedOther, holds⟩ := requestOk.transfer type
    cases decoded.symm.trans decodedOther
    rw [log_appendAndApply]
    exact causes_append holds

/-- The log of every node after a step. -/
theorem causes_of_step {action : Action} {next : System} (step : SystemStep system action next)
    (node : NodeID) : Causes system action node (next.log node) := by
  have moved : ∀ (target : NodeID) (cluster : C4Cluster Applied),
      next.cluster = (system.withCluster target cluster).cluster →
      Causes system action target cluster.log → Causes system action node (next.log node) := by
    intro target cluster put causes
    rw [System.log, put]
    by_cases same : node = target
    · rw [same, System.cluster_withCluster_self]
      exact causes
    · rw [System.cluster_withCluster_of_ne _ _ _ same]
      exact causes_same
  cases step with
  | configured action target cluster quiet identity log applied =>
    refine moved target cluster rfl ?_
    rw [log]
    exact causes_same
  | began => exact causes_same
  | ended => exact causes_same
  | ran index generated outcome errno task cluster job sent found step =>
    exact moved task.node cluster rfl (causes_of_jobStep vouched found step)
  | handled request outcome errno sent =>
    exact moved request.destinationNode _ rfl (causes_of_handle vouched sent outcome errno)

end Steps

/-! ### Rows and entries after a step -/

/-- Where a row of a transaction comes from. -/
inductive RowCause (system : System) (action : Action) (node : NodeID) (id : TransactionId) :
    C4Transaction → Prop
  | kept (row : C4Transaction) (found : findTransaction (system.log node) id = some row) :
      RowCause system action node id row
  | prepared (entry : C4LogEntry) (key : entry.transactionId = id) (sound : entry.Sound)
      (absent : findTransaction (system.log node) id = none)
      (expected : expectedNext (system.log node) = (entry.index, entry.version))
      (cause : PrepareCause system action node entry) :
      RowCause system action node id ⟨entry, .prepared⟩
  | committed (row : C4Transaction) (found : findTransaction (system.log node) id = some row)
      (pending : row.state = .prepared) (cause : CommitCause system action node id) :
      RowCause system action node id { row with state := .committed }
  | aborted (row : C4Transaction) (dead : row.state = .aborted)
      (undecided : system.state node id = .prepared ∨ system.state node id = .unknown)
      (entry : row.entry.index = 0 ∨
        ∃ before, findTransaction (system.log node) id = some before ∧ before.entry = row.entry)
      (cause : AbortCause system action node id) : RowCause system action node id row

theorem Causes.row {system : System} {action : Action} {node : NodeID} {next : C4Log}
    (causes : Causes system action node next) {id : TransactionId} {row : C4Transaction}
    (found : findTransaction next id = some row) : RowCause system action node id row := by
  obtain ⟨table, -⟩ := causes
  unfold findTransaction at found
  generalize next.transactions = rows at table found
  cases table with
  | same => exact .kept row found
  | prepared entry sound absent expected cause =>
    have lookup : findTransaction ((system.log node).withPrepared entry) id = some row := found
    rw [findTransaction_withPrepared] at lookup
    rcases Option.or_eq_some_iff.mp lookup with old | ⟨missing, new⟩
    · exact .kept row old
    · split at new
      · rename_i key
        cases new
        exact .prepared entry key sound missing expected cause
      · cases new
  | committed before other foundBefore pending cause =>
    have lookup : findTransaction ((system.log node).withDecision other c4TxnCommit .committed) id =
      some row := found
    rw [findTransaction_withDecision] at lookup
    split at lookup
    · rename_i same
      subst same
      rw [foundBefore] at lookup
      cases lookup
      exact .committed before foundBefore pending cause
    · exact .kept row lookup
  | aborted before other foundBefore pending cause =>
    have lookup : findTransaction ((system.log node).withDecision other c4TxnAbort .aborted) id =
      some row := found
    rw [findTransaction_withDecision] at lookup
    split at lookup
    · rename_i same
      subst same
      rw [foundBefore] at lookup
      cases lookup
      refine .aborted _ rfl (Or.inl ?_) (Or.inr ⟨before, foundBefore, rfl⟩) cause
      exact (c4LogTransactionState_of_found foundBefore).trans pending
    · exact .kept row lookup
  | tombstone other absent cause =>
    have lookup : findTransaction ((system.log node).withTombstone other) id = some row := found
    rw [findTransaction_withTombstone] at lookup
    rcases Option.or_eq_some_iff.mp lookup with old | ⟨missing, new⟩
    · exact .kept row old
    · split at new
      · rename_i key
        subst key
        cases new
        exact .aborted _ rfl (Or.inr (c4LogTransactionState_of_absent missing)) (Or.inl rfl) cause
      · cases new

/-! ### Tasks and requests -/

/-- How an execution of `c4_cluster_submit` comes out of a step. -/
inductive TaskCause (system : System) (action : Action) (next : System) (index : Nat)
    (node : NodeID) (task : SubmitTask) : Prop
  | kept (found : system.tasks[index]? = some ⟨node, .submit task⟩)
      (still : ∀ generated outcome errno, action ≠ .run index generated outcome errno)
  | began (owner : NodeID) (payload : List UInt8)
      (isSubmit : action = .submit node task.transactionId owner payload)
      (accepted : c4ClusterSubmit (system.cluster node) task.transactionId owner payload = .ok task)
      (last : index = system.tasks.length) (put : next.cluster = system.cluster)
  | ran (before : SubmitTask) (generated : TransactionId) (outcome : Except Errno Unit)
      (errno : Errno) (cluster : C4Cluster Applied) (phase : SubmitPhase) (sent : Option Message)
      (isRun : action = .run index generated outcome errno)
      (found : system.tasks[index]? = some ⟨node, .submit before⟩)
      (step : SubmitStep (recordApply outcome) errno (system.cluster node) before cluster phase
        sent)
      (put : next.log node = cluster.log) (same : task = { before with phase := phase })
  | received (before : SubmitTask) (round : SubmitRound) (request : Message)
      (oldRemaining remaining : List NodeID) (oldOk ok : Bool)
      (oldAcknowledgements acknowledgements : Nat) (quiet : action.Quiet)
      (found : system.tasks[index]? = some ⟨node, .submit before⟩)
      (awaits : before.phase = .await round request oldRemaining oldOk oldAcknowledgements)
      (same : task = { before with phase := .call round remaining ok acknowledgements })

/-- Where a request that has been sent comes from. -/
inductive RequestCause (system : System) (action : Action) (request : Message) : Prop
  | kept (sent : .request request ∈ system.network)
  | sent (task : SubmitTask) (round : SubmitRound) (remaining : List NodeID) (ok : Bool)
      (acknowledgements : Nat) (runs : system.Runs action request.sourceNode task)
      (phase : task.phase = .call round remaining ok acknowledgements)
      (type : request.messageType = round.messageType)
      (id : request.transactionId = task.transactionId)
  | transfer (type : request.messageType = .istRequest ∨ request.messageType = .stateTransfer)

section TaskCauses

variable {system next : System} {action : Action}

omit [Zlib] in
/-- The tasks after one of them has got into a new state, by their places. -/
theorem getElem_withJob {index place : Nat} {node : NodeID} {job : Job} {task : Task}
    (found : (system.withJob index node job).tasks[place]? = some task) :
    (place = index ∧ task = ⟨node, job⟩) ∨ (place ≠ index ∧ system.tasks[place]? = some task) := by
  have lookup : (system.tasks.set index ⟨node, job⟩)[place]? = some task := found
  rw [List.getElem?_set] at lookup
  split at lookup
  · rename_i same
    split at lookup
    · cases lookup
      exact Or.inl ⟨same.symm, rfl⟩
    · cases lookup
  · rename_i different
    exact Or.inr ⟨fun same => different same.symm, lookup⟩

theorem taskCause_of_step (step : SystemStep system action next) {index : Nat} {node : NodeID}
    {task : SubmitTask} (found : next.tasks[index]? = some ⟨node, .submit task⟩) :
    TaskCause system action next index node task := by
  cases step with
  | configured action target cluster quiet identity log applied =>
    exact .kept found (quiet index)
  | handled request outcome errno sent => exact .kept found nofun
  | began action target job begins =>
    have lookup : (system.tasks ++ [⟨target, job⟩])[index]? = some ⟨node, .submit task⟩ := found
    rcases Nat.lt_or_ge index system.tasks.length with old | new
    · rw [List.getElem?_append_left old] at lookup
      exact .kept lookup (by cases begins <;> nofun)
    · rw [List.getElem?_append_right new, List.getElem?_singleton] at lookup
      split at lookup
      · rename_i last
        cases lookup
        cases begins with
        | submit node id owner payload accepted =>
          obtain rfl := (begun_of_c4ClusterSubmit accepted).id
          exact .began owner payload rfl accepted (by omega) rfl
      · cases lookup
  | ended action place errno current job response quiet foundCurrent ends received =>
    rcases getElem_withJob found with ⟨rfl, same⟩ | ⟨-, old⟩
    · cases same
      cases isJob : current.job with
      | submit before =>
        rw [isJob] at received
        obtain ⟨phase, taken, same⟩ := Option.map_eq_some_iff.mp received
        cases same
        obtain ⟨round, request, remaining, ok, acknowledgements, awaits, rfl⟩ :=
          awaits_of_receive taken
        refine .received before round request remaining remaining ok _ acknowledgements _ quiet ?_
          awaits rfl
        rw [foundCurrent, ← isJob]
      | recover before =>
        rw [isJob] at received
        obtain ⟨phase, taken, same⟩ := Option.map_eq_some_iff.mp received
        cases same
      | broadcast before =>
        rw [isJob] at received
        obtain ⟨phase, taken, same⟩ := Option.map_eq_some_iff.mp received
        cases same
    · exact .kept old (quiet index)
  | ran place generated outcome errno current cluster job sent foundCurrent step =>
    rcases getElem_withJob found with ⟨rfl, same⟩ | ⟨different, old⟩
    · obtain ⟨target, currentJob⟩ := current
      cases same
      cases step with
      | @submit before after phase sent step =>
        refine .ran before generated outcome errno cluster phase sent rfl foundCurrent step ?_ rfl
        simp [System.log]
    · refine .kept old fun _ _ _ same => ?_
      cases same
      exact different rfl

theorem requestCause_of_step (vouched : Vouched system) (step : SystemStep system action next)
    {request : Message} (member : .request request ∈ next.network) :
    RequestCause system action request := by
  cases step with
  | configured => exact .kept member
  | began => exact .kept member
  | ended => exact .kept member
  | handled handledRequest outcome errno sent =>
    rcases List.mem_append.mp member with old | new
    · exact .kept old
    · obtain ⟨reply, -, same⟩ := List.mem_map.mp new
      cases same
  | ran index generated outcome errno current cluster job sent found step =>
    rcases List.mem_append.mp member with old | new
    · exact .kept old
    · obtain ⟨message, isSent, same⟩ := List.mem_map.mp new
      cases same
      have isSome := Option.mem_toList.mp isSent
      obtain ⟨node, currentJob⟩ := current
      subst isSome
      cases step with
      | @submit task after phase sent step =>
        cases step with
        | send round destination remaining ok acknowledgements phase =>
          refine .sent task round (destination :: remaining) ok acknowledgements ?_ phase rfl rfl
          refine ⟨index, generated, outcome, errno, rfl, ?_⟩
          rw [found]
          show some (Task.mk node _) = some (Task.mk (system.cluster node).localId _)
          rw [vouched.identity]
      | recover step =>
        cases step with
        | send other index version type source destination =>
          exact .transfer (Or.inl type)
      | broadcast phase step =>
        cases step with
        | send other index entry type source lookup encoded =>
          exact .transfer (Or.inr type)

end TaskCauses

end SuperPeerNet
