/-
This file follows transactions through runs in which any super peer may coordinate at
any time, several at once, as long as every transaction id is submitted once and every
execution of `c4_cluster_submit` captures all the other super peers.

A transaction then has one coordinator and one execution, and its state at the
coordinator changes only by a step of that execution. Whatever is prepared, committed or
aborted elsewhere goes back to the coordinator. A transaction is decided when it is in
the log of its coordinator; it gets there only by the commit of its own execution, after
all super peers have prepared it.
-/

import SuperPeerNet.Cluster.Decision

namespace SuperPeerNet

variable [Zlib]

/-! ### The condition on the run -/

/-- The transaction that a task submits. -/
def Task.submits : Task → Option TransactionId
  | ⟨_, .submit task⟩ => some task.transactionId
  | ⟨_, .recover _⟩ | ⟨_, .broadcast _⟩ => none

/-- An operation is submitted at one of the super peers, under an id that has not been submitted
before, while all the other super peers are captured. -/
def SubmitsFresh (peers : List NodeID) (system : System) : Action → Prop
  | .submit node id _ _ => node ∈ peers ∧ (∀ task ∈ system.tasks, task.submits ≠ some id) ∧
      ∀ peer ∈ peers, peer = node ∨ peer ∈ c4AliveSuperpeers (system.cluster node)
  | _ => True

omit [Zlib] in
instance (peers : List NodeID) (system : System) :
    (action : Action) → Decidable (SubmitsFresh peers system action)
  | .submit node id _ _ => inferInstanceAs (Decidable (node ∈ peers ∧
      (∀ task ∈ system.tasks, task.submits ≠ some id) ∧
      ∀ peer ∈ peers, peer = node ∨ peer ∈ c4AliveSuperpeers (system.cluster node)))
  | .setLeader _ _ | .setMembers _ _ | .recover _ _ | .broadcast _ | .run _ _ _ _
  | .reply _ _ _ | .fail _ _ _ | .deliver _ _ _ => .isTrue trivial

/-! ### Coordinators -/

/-- The node has submitted the transaction. -/
def System.Submitted (system : System) (node : NodeID) (id : TransactionId) : Prop :=
  ∃ (index : Nat) (task : SubmitTask), system.tasks[index]? = some ⟨node, .submit task⟩ ∧
    task.transactionId = id

section Submitted

variable {system next : System} {action : Action}

omit [Zlib] in
theorem System.Submitted.of_runs {node : NodeID} {task : SubmitTask}
    (runs : system.Runs action node task) : system.Submitted node task.transactionId := by
  obtain ⟨index, generated, outcome, errno, -, found⟩ := runs
  exact ⟨index, task, found, rfl⟩

/-- The entry that a task prepares has the id of the task. -/
theorem prepare_id (vouched : Vouched system) {node : NodeID} {task : SubmitTask}
    {entry : C4LogEntry} (runs : system.Runs action node task)
    (phase : task.phase = .prepare entry) : entry.transactionId = task.transactionId := by
  obtain ⟨index, generated, outcome, errno, -, found⟩ := runs
  have phaseOk := (vouched.tasks _ (List.mem_of_getElem? found)).2
  rw [phase] at phaseOk
  exact phaseOk

/-- A submission is never forgotten. -/
theorem System.Submitted.mono (step : SystemStep system action next) {node : NodeID}
    {id : TransactionId} (submitted : system.Submitted node id) : next.Submitted node id := by
  obtain ⟨index, task, found, same⟩ := submitted
  have inside : index < system.tasks.length := (List.getElem?_eq_some_iff.mp found).1
  cases step with
  | configured => exact ⟨index, task, found, same⟩
  | handled => exact ⟨index, task, found, same⟩
  | began action target job begins =>
    exact ⟨index, task, (List.getElem?_append_left inside).trans found, same⟩
  | ended action place errno current job response quiet foundCurrent ends received =>
    by_cases here : place = index
    · subst here
      cases foundCurrent.symm.trans found
      obtain ⟨phase, taken, rfl⟩ := Option.map_eq_some_iff.mp received
      exact ⟨place, { task with phase := phase }, List.getElem?_set_self inside, same⟩
    · exact ⟨index, task, (List.getElem?_set_ne here).trans found, same⟩
  | ran place generated outcome errno current cluster job sent foundCurrent step =>
    by_cases here : place = index
    · subst here
      cases foundCurrent.symm.trans found
      cases step with
      | @submit task after phase sent step =>
        exact ⟨place, { task with phase := phase }, List.getElem?_set_self inside, same⟩
    · exact ⟨index, task, (List.getElem?_set_ne here).trans found, same⟩

/-- Where an execution of `c4_cluster_submit` comes from: it is an earlier one, or a new one. -/
theorem task_origin (step : SystemStep system action next) {index : Nat} {node : NodeID}
    {task : SubmitTask} (found : next.tasks[index]? = some ⟨node, .submit task⟩) :
    (∃ before : SubmitTask, system.tasks[index]? = some ⟨node, .submit before⟩ ∧
      before.transactionId = task.transactionId ∧ before.participants = task.participants) ∨
    (index = system.tasks.length ∧ task.participants = c4AliveSuperpeers (system.cluster node) ∧
      ∃ owner payload, action = .submit node task.transactionId owner payload) := by
  cases taskCause_of_step step found with
  | kept old still => exact Or.inl ⟨task, old, rfl, rfl⟩
  | began owner payload isSubmit accepted last put =>
    exact Or.inr ⟨last, (begun_of_c4ClusterSubmit accepted).participants, owner, payload,
      isSubmit⟩
  | ran before generated outcome errno cluster phase sent isRun old step put same =>
    subst same
    exact Or.inl ⟨before, old, rfl, rfl⟩
  | received before round request oldRemaining remaining oldOk ok oldAcknowledgements
      acknowledgements quiet old awaits same =>
    subst same
    exact Or.inl ⟨before, old, rfl, rfl⟩

omit [Zlib] in
/-- An id that is new has not been submitted anywhere. -/
theorem not_submitted_of_fresh {peers : List NodeID} {node other : NodeID} {id : TransactionId}
    {owner : NodeID} {payload : List UInt8}
    (permitted : SubmitsFresh peers system (.submit node id owner payload)) :
    ¬ system.Submitted other id := by
  rintro ⟨index, task, found, rfl⟩
  exact permitted.2.1 _ (List.mem_of_getElem? found) rfl

/-- A transaction that has been submitted somewhere gets no new coordinator. -/
theorem System.Submitted.before {peers : List NodeID} (permitted : SubmitsFresh peers system action)
    (step : SystemStep system action next) {node other : NodeID} {id : TransactionId}
    (submitted : next.Submitted node id) (known : system.Submitted other id) :
    system.Submitted node id := by
  obtain ⟨index, task, found, rfl⟩ := submitted
  rcases task_origin step found with ⟨before, old, same, -⟩ | ⟨-, -, owner, payload, isSubmit⟩
  · exact ⟨index, before, old, same⟩
  · subst isSubmit
    exact absurd known (not_submitted_of_fresh permitted)

end Submitted

/-! ### The invariant -/

/-- The state that a transaction has at its coordinator while its execution is in a phase, where
the phase determines it. -/
def SubmitPhase.ownState : SubmitPhase → Option C4TransactionState
  | .lookup | .readIndex | .readVersion _ | .prepare _ => some .unknown
  | .call (.prepare _) _ _ _ | .await (.prepare _) _ _ _ _ | .commit | .abort => some .prepared
  | .call .abort _ _ _ | .await .abort _ _ _ _ => some .aborted
  | .call .commit _ _ _ | .await .commit _ _ _ _ | .call .resend _ _ _
  | .await .resend _ _ _ _ | .returned _ => none

/-- What a later row says about an earlier one with the same index: it is no longer pending, and
it is not one that the node has submitted and committed. -/
def Superseded (system : System) (node : NodeID) (first second : C4Transaction) : Prop :=
  first.entry.index = second.entry.index → first.state ≠ .prepared ∧
    ¬ (system.Submitted node first.id ∧ system.InLog node first.id)

/-- The invariant of a run with fresh transaction ids and complete sets of participants. -/
structure Concordant (peers : List NodeID) (system : System) : Prop where
  unique : ∀ (first second : Nat) (firstNode secondNode : NodeID) (task other : SubmitTask),
    system.tasks[first]? = some ⟨firstNode, .submit task⟩ →
    system.tasks[second]? = some ⟨secondNode, .submit other⟩ →
    task.transactionId = other.transactionId → first = second
  captured : ∀ (index : Nat) (node : NodeID) (task : SubmitTask),
    system.tasks[index]? = some ⟨node, .submit task⟩ →
      node ∈ peers ∧ ∀ peer ∈ peers, peer = node ∨ peer ∈ task.participants
  ownState : ∀ (index : Nat) (node : NodeID) (task : SubmitTask) (state : C4TransactionState),
    system.tasks[index]? = some ⟨node, .submit task⟩ → task.phase.ownState = some state →
      system.state node task.transactionId = state
  requests : ∀ messageType source id, messageType.IsDecision →
    system.Sent messageType source id → system.Submitted source id
  aborts : ∀ source id, system.Sent .abort source id → system.state source id = .aborted
  rows : ∀ node id row, findTransaction (system.log node) id = some row → row.state ≠ .aborted →
    ∃ coordinator, system.Submitted coordinator id ∧ system.HasRow coordinator row.entry
  committed : ∀ node id, system.state node id = .committed → system.Submitted node id ∨
    ∃ coordinator, system.Submitted coordinator id ∧ system.InLog coordinator id
  aborted : ∀ node id, system.state node id = .aborted →
    ∃ coordinator, system.Submitted coordinator id ∧ system.state coordinator id = .aborted
  entries : ∀ node, ∀ entry ∈ (system.log node).entries,
    ∃ coordinator, system.Submitted coordinator entry.transactionId ∧
      system.Holds coordinator entry
  decided : ∀ coordinator entry, system.Submitted coordinator entry.transactionId →
    system.Holds coordinator entry →
      system.state coordinator entry.transactionId = .committed ∧
      ∀ peer ∈ peers, system.HasRow peer entry
  order : ∀ node, (system.log node).transactions.Pairwise (Superseded system node)
  single : ∀ first second entry other, system.Submitted first entry.transactionId →
    system.Holds first entry → system.Submitted second other.transactionId →
    system.Holds second other → entry.index = other.index →
      entry.transactionId = other.transactionId

section Facts

variable {peers : List NodeID} {system : System} (concordant : Concordant peers system)

include concordant

omit [Zlib] in
/-- A transaction has one coordinator. -/
theorem Concordant.coordinator_unique {first second : NodeID} {id : TransactionId}
    (one : system.Submitted first id) (two : system.Submitted second id) : first = second := by
  obtain ⟨firstIndex, task, found, rfl⟩ := one
  obtain ⟨secondIndex, other, foundOther, same⟩ := two
  obtain rfl := concordant.unique _ _ _ _ _ _ found foundOther same.symm
  cases found.symm.trans foundOther
  rfl

omit [Zlib] in
theorem Concordant.peer_of_submitted {node : NodeID} {id : TransactionId}
    (submitted : system.Submitted node id) : node ∈ peers := by
  obtain ⟨index, task, found, -⟩ := submitted
  exact (concordant.captured index node task found).1

omit [Zlib] in
/-- A transaction that is in the log of its coordinator is committed there. -/
theorem Concordant.state_of_inLog {node : NodeID} {id : TransactionId}
    (submitted : system.Submitted node id) (inLog : system.InLog node id) :
    system.state node id = .committed := by
  obtain ⟨entry, found⟩ := inLog
  obtain rfl := findEntry_id found
  exact (concordant.decided node entry submitted found).1

end Facts

/-! ### A coordinator alone moves its transaction -/

section Steps

variable {peers : List NodeID} {system next : System} {action : Action}
  (concordant : Concordant peers system) (vouched : Vouched system)
  (step : SystemStep system action next)

include concordant

omit [Zlib] in
/-- A step of a task that submits the transaction is a step of the only such task. -/
theorem Concordant.runs_same {index : Nat} {node other : NodeID} {task running : SubmitTask}
    (found : system.tasks[index]? = some ⟨node, .submit task⟩)
    (runs : system.Runs action other running)
    (same : running.transactionId = task.transactionId) :
    ∃ generated outcome errno, action = .run index generated outcome errno := by
  obtain ⟨place, generated, outcome, errno, isRun, foundRunning⟩ := runs
  obtain rfl := concordant.unique _ _ _ _ _ _ foundRunning found same
  exact ⟨generated, outcome, errno, isRun⟩

include vouched step

/-- The state of a transaction at its coordinator changes only by a step of its execution. -/
theorem Concordant.state_stable {index : Nat} {node : NodeID} {task : SubmitTask}
    (found : system.tasks[index]? = some ⟨node, .submit task⟩)
    (still : ∀ generated outcome errno, action ≠ .run index generated outcome errno) :
    next.state node task.transactionId = system.state node task.transactionId := by
  have submitted : system.Submitted node task.transactionId := ⟨index, task, found, rfl⟩
  have notOwn : ∀ {running : SubmitTask}, system.Runs action node running →
      running.transactionId ≠ task.transactionId := by
    intro running runs same
    obtain ⟨generated, outcome, errno, isRun⟩ := concordant.runs_same found runs same
    exact still generated outcome errno isRun
  cases after : findTransaction (next.log node) task.transactionId with
  | none =>
    cases before : findTransaction (system.log node) task.transactionId with
    | none =>
      rw [System.state, System.state, c4LogTransactionState_of_absent after,
        c4LogTransactionState_of_absent before]
    | some row =>
      obtain ⟨later, foundLater, -⟩ := (System.grows_of_step step node).log.row before
      cases after.symm.trans foundLater
  | some row =>
    cases (causes_of_step vouched step node).row after with
    | kept row old =>
      rw [System.state, System.state, c4LogTransactionState_of_found after,
        c4LogTransactionState_of_found old]
    | prepared entry key sound absent expected cause =>
      cases cause with
      | own running runs phase =>
        exact absurd ((prepare_id vouched runs phase).symm.trans key) (notOwn runs)
      | requested source sent row =>
        obtain rfl := concordant.coordinator_unique
          (concordant.requests _ _ _ (Or.inl rfl) sent) (key ▸ submitted)
        obtain ⟨present, foundPresent, -⟩ := row
        rw [key, absent] at foundPresent
        cases foundPresent
    | committed row old pending cause =>
      cases cause with
      | own running runs phase same => exact absurd same (notOwn runs)
      | requested source sent inLog =>
        obtain rfl := concordant.coordinator_unique
          (concordant.requests _ _ _ (Or.inr (Or.inl rfl)) sent) submitted
        have state := concordant.state_of_inLog submitted inLog
        rw [System.state, c4LogTransactionState_of_found old, pending] at state
        cases state
    | aborted row dead undecided entry cause =>
      cases cause with
      | own running runs phase same => exact absurd same (notOwn runs)
      | requested source sent =>
        obtain rfl := concordant.coordinator_unique
          (concordant.requests _ _ _ (Or.inr (Or.inr rfl)) sent) submitted
        rw [concordant.aborts _ _ sent] at undecided
        rcases undecided with undecided | undecided <;> cases undecided

omit vouched in
theorem Concordant.unique_step (permitted : SubmitsFresh peers system action) {first second : Nat}
    {firstNode secondNode : NodeID} {task other : SubmitTask}
    (found : next.tasks[first]? = some ⟨firstNode, .submit task⟩)
    (foundOther : next.tasks[second]? = some ⟨secondNode, .submit other⟩)
    (same : task.transactionId = other.transactionId) : first = second := by
  rcases task_origin step found with ⟨before, old, id, -⟩ | ⟨last, -, owner, payload, isSubmit⟩
  · rcases task_origin step foundOther with
      ⟨otherBefore, otherOld, otherId, -⟩ | ⟨otherLast, -, owner, payload, isSubmit⟩
    · exact concordant.unique _ _ _ _ _ _ old otherOld (by rw [id, otherId, same])
    · subst isSubmit
      exact absurd ⟨first, before, old, by rw [id, same]⟩ (not_submitted_of_fresh permitted)
  · rcases task_origin step foundOther with
      ⟨otherBefore, otherOld, otherId, -⟩ | ⟨otherLast, -, otherOwner, otherPayload, -⟩
    · subst isSubmit
      exact absurd ⟨second, otherBefore, otherOld, by rw [otherId, same]⟩
        (not_submitted_of_fresh permitted)
    · rw [last, otherLast]

omit vouched in
theorem Concordant.captured_step (permitted : SubmitsFresh peers system action) {index : Nat}
    {node : NodeID} {task : SubmitTask}
    (found : next.tasks[index]? = some ⟨node, .submit task⟩) :
    node ∈ peers ∧ ∀ peer ∈ peers, peer = node ∨ peer ∈ task.participants := by
  rcases task_origin step found with
    ⟨before, old, -, participants⟩ | ⟨-, participants, owner, payload, isSubmit⟩
  · rw [← participants]
    exact concordant.captured index node before old
  · subst isSubmit
    rw [participants]
    exact ⟨permitted.1, permitted.2.2⟩

omit [Zlib] vouched step in
/-- A transaction that nobody has submitted is unknown everywhere. -/
theorem Concordant.unknown_of_fresh {id : TransactionId}
    (fresh : ∀ node, ¬ system.Submitted node id) (node : NodeID) :
    system.state node id = .unknown := by
  cases state : system.state node id with
  | unknown => rfl
  | prepared =>
    obtain ⟨row, found, isState⟩ := row_of_state state nofun
    obtain ⟨coordinator, submitted, -⟩ := concordant.rows node id row found (by rw [isState]; nofun)
    exact absurd submitted (fresh coordinator)
  | committed =>
    rcases concordant.committed node id state with submitted | ⟨coordinator, submitted, -⟩
    · exact absurd submitted (fresh node)
    · exact absurd submitted (fresh coordinator)
  | aborted =>
    obtain ⟨coordinator, submitted, -⟩ := concordant.aborted node id state
    exact absurd submitted (fresh coordinator)

theorem Concordant.ownState_step (permitted : SubmitsFresh peers system action) {index : Nat}
    {node : NodeID} {task : SubmitTask} {state : C4TransactionState}
    (found : next.tasks[index]? = some ⟨node, .submit task⟩)
    (own : task.phase.ownState = some state) :
    next.state node task.transactionId = state := by
  cases taskCause_of_step step found with
  | kept old still =>
    rw [concordant.state_stable vouched step old still]
    exact concordant.ownState index node task state old own
  | began owner payload isSubmit accepted last put =>
    rw [(begun_of_c4ClusterSubmit accepted).phase] at own
    cases own
    subst isSubmit
    have unknown := concordant.unknown_of_fresh (fun _ => not_submitted_of_fresh permitted) node
    rw [System.state, System.log, put]
    exact unknown
  | received before round request oldRemaining remaining oldOk ok oldAcknowledgements
      acknowledgements quiet old awaits same =>
    subst same
    rw [concordant.state_stable vouched step old (quiet index)]
    refine concordant.ownState index node before state old ?_
    rw [awaits]
    cases round <;> exact own
  | ran before generated outcome errno cluster phase sent isRun old step put same =>
    subst same
    have before_own := concordant.ownState index node before
    have unmoved : cluster = system.cluster node →
        before.phase.ownState = some state → next.state node before.transactionId = state := by
      intro quiet sameState
      rw [System.state, put, quiet]
      exact before_own state old sameState
    cases step with
    | known => cases own
    | conflict => cases own
    | unknown phase absent => exact unmoved rfl (by rw [phase]; exact own)
    | readIndex phase => exact unmoved rfl (by rw [phase]; exact own)
    | readVersion version phase => exact unmoved rfl (by rw [phase]; exact own)
    | prepared entry wire phase accepted encoded =>
      cases own
      have key := prepare_id vouched ⟨index, generated, outcome, errno, isRun, old⟩ phase
      have unknown := before_own .unknown old (by rw [phase]; rfl)
      rw [System.state, put]
      rw [← key] at unknown ⊢
      exact c4LogPrepare_prepares (vouched.valid node) unknown accepted
    | unprepared => cases own
    | finish round ok acknowledgements phase =>
      refine unmoved rfl ?_
      rw [phase]
      cases round with
      | prepare wire =>
        have after : SubmitPhase.ownState (if _ then .abort else .commit) = some state := own
        split at after <;> exact after
      | commit => cases own
      | abort => cases own
      | resend => cases own
    | send round destination remaining ok acknowledgements phase =>
      refine unmoved rfl ?_
      rw [phase]
      cases round <;> exact own
    | committed => cases own
    | uncommitted => cases own
    | aborted phase =>
      cases own
      rw [System.state, put]
      have pending := before_own .prepared old (by rw [phase]; rfl)
      have undecided : system.state node before.transactionId ≠ .committed := by
        rw [pending]
        decide
      exact c4LogAbort_aborts (vouched.valid node) undecided

/-! ### Messages and rows -/

theorem Concordant.requests_step {messageType : MessageType} {source : NodeID}
    {id : TransactionId} (decision : messageType.IsDecision)
    (sent : next.Sent messageType source id) : next.Submitted source id := by
  obtain ⟨request, member, type, rfl, rfl⟩ := sent
  cases requestCause_of_step vouched step member with
  | kept sent =>
    exact (concordant.requests _ _ _ decision ⟨request, sent, type, rfl, rfl⟩).mono step
  | sent task round remaining ok acknowledgements runs phase roundType isId =>
    rw [isId]
    exact (System.Submitted.of_runs runs).mono step
  | transfer other =>
    rw [type] at other
    rcases other with rfl | rfl <;> simp [MessageType.IsDecision] at decision

theorem Concordant.aborts_step {source : NodeID} {id : TransactionId}
    (sent : next.Sent .abort source id) : next.state source id = .aborted := by
  have grows := System.grows_of_step step
  obtain ⟨request, member, type, rfl, rfl⟩ := sent
  cases requestCause_of_step vouched step member with
  | kept sent =>
    exact grows.settled (Or.inr rfl) (concordant.aborts _ _ ⟨request, sent, type, rfl, rfl⟩)
  | sent task round remaining ok acknowledgements runs phase roundType isId =>
    obtain ⟨index, generated, outcome, errno, -, found⟩ := runs
    rw [isId]
    refine grows.settled (Or.inr rfl) (concordant.ownState index _ task .aborted found ?_)
    rw [phase]
    rw [type] at roundType
    cases round with
    | abort => rfl
    | prepare wire => cases roundType
    | commit => cases roundType
    | resend => cases roundType
  | transfer other =>
    rw [type] at other
    rcases other with other | other <;> cases other

theorem Concordant.rows_step {node : NodeID} {id : TransactionId} {row : C4Transaction}
    (found : findTransaction (next.log node) id = some row) (live : row.state ≠ .aborted) :
    ∃ coordinator, next.Submitted coordinator id ∧ next.HasRow coordinator row.entry := by
  have grows := System.grows_of_step step
  have old : ∀ before : C4Transaction, findTransaction (system.log node) id = some before →
      before.state ≠ .aborted →
      ∃ coordinator, next.Submitted coordinator id ∧ next.HasRow coordinator before.entry := by
    intro before foundBefore liveBefore
    obtain ⟨coordinator, submitted, has⟩ := concordant.rows node id before foundBefore liveBefore
    exact ⟨coordinator, submitted.mono step, has.mono grows⟩
  cases (causes_of_step vouched step node).row found with
  | kept row foundRow => exact old row foundRow live
  | prepared entry key sound absent expected cause =>
    cases cause with
    | own task runs phase =>
      have submitted := System.Submitted.of_runs runs
      rw [← prepare_id vouched runs phase, key] at submitted
      exact ⟨node, submitted.mono step, _, key ▸ found, rfl⟩
    | requested source sent has =>
      have submitted := concordant.requests _ _ _ (Or.inl rfl) sent
      exact ⟨source, key ▸ submitted.mono step, has.mono grows⟩
  | committed row foundRow pending cause => exact old row foundRow (by rw [pending]; nofun)
  | aborted row dead undecided entry cause => exact absurd dead live

theorem Concordant.committed_step {node : NodeID} {id : TransactionId}
    (isState : next.state node id = .committed) : next.Submitted node id ∨
      ∃ coordinator, next.Submitted coordinator id ∧ next.InLog coordinator id := by
  have grows := System.grows_of_step step
  obtain ⟨row, found, rowState⟩ := row_of_state isState nofun
  cases (causes_of_step vouched step node).row found with
  | kept row old =>
    have before := (c4LogTransactionState_of_found old).trans rowState
    rcases concordant.committed node id before with submitted | ⟨coordinator, submitted, inLog⟩
    · exact Or.inl (submitted.mono step)
    · exact Or.inr ⟨coordinator, submitted.mono step, inLog.mono grows⟩
  | prepared entry key sound absent expected cause => cases rowState
  | committed row old pending cause =>
    cases cause with
    | own task runs phase same => exact Or.inl (same ▸ (System.Submitted.of_runs runs).mono step)
    | requested source sent inLog =>
      have submitted := concordant.requests _ _ _ (Or.inr (Or.inl rfl)) sent
      exact Or.inr ⟨source, submitted.mono step, inLog.mono grows⟩
  | aborted row dead undecided entry cause =>
    rw [dead] at rowState
    cases rowState

theorem Concordant.aborted_step {node : NodeID} {id : TransactionId}
    (isState : next.state node id = .aborted) :
    ∃ coordinator, next.Submitted coordinator id ∧ next.state coordinator id = .aborted := by
  have grows := System.grows_of_step step
  obtain ⟨row, found, rowState⟩ := row_of_state isState nofun
  cases (causes_of_step vouched step node).row found with
  | kept row old =>
    have before := (c4LogTransactionState_of_found old).trans rowState
    obtain ⟨coordinator, submitted, state⟩ := concordant.aborted node id before
    exact ⟨coordinator, submitted.mono step, grows.settled (Or.inr rfl) state⟩
  | prepared entry key sound absent expected cause => cases rowState
  | committed row old pending cause => cases rowState
  | aborted row dead undecided entry cause =>
    cases cause with
    | own task runs phase same =>
      exact ⟨node, same ▸ (System.Submitted.of_runs runs).mono step, isState⟩
    | requested source sent =>
      have submitted := concordant.requests _ _ _ (Or.inr (Or.inr rfl)) sent
      exact ⟨source, submitted.mono step,
        grows.settled (Or.inr rfl) (concordant.aborts source id sent)⟩

/-! ### Decided transactions -/

omit [Zlib] vouched step in
/-- The row of a decided transaction, at its coordinator, has the entry in the log. -/
theorem Concordant.holds_of_inLog {node : NodeID} {entry : C4LogEntry}
    (submitted : system.Submitted node entry.transactionId) (has : system.HasRow node entry)
    (inLog : system.InLog node entry.transactionId) : system.Holds node entry := by
  obtain ⟨other, found⟩ := inLog
  have key := findEntry_id found
  have peer := concordant.peer_of_submitted submitted
  obtain ⟨row, foundRow, same⟩ := has
  obtain ⟨otherRow, foundOther, sameOther⟩ :=
    (concordant.decided node other (key ▸ submitted) (System.holds_of_found found)).2 node peer
  rw [key, foundRow] at foundOther
  cases foundOther
  rw [← sameOther, same] at found
  exact found

theorem Concordant.entries_step {node : NodeID} {entry : C4LogEntry}
    (member : entry ∈ (next.log node).entries) :
    ∃ coordinator, next.Submitted coordinator entry.transactionId ∧
      next.Holds coordinator entry := by
  have grows := System.grows_of_step step
  have old : ∀ holder, entry ∈ (system.log holder).entries →
      ∃ coordinator, next.Submitted coordinator entry.transactionId ∧
        next.Holds coordinator entry := by
    intro holder inLog
    obtain ⟨coordinator, submitted, holds⟩ := concordant.entries holder entry inLog
    exact ⟨coordinator, submitted.mono step, holds.mono grows⟩
  have inNext := member
  cases (causes_of_step vouched step node).entries with
  | same unchanged => exact old node (unchanged ▸ member)
  | committed row found live fits absent state cause appended =>
    rw [appended] at member
    rcases List.mem_append.mp member with before | new
    · exact old node before
    · obtain rfl := List.mem_singleton.mp new
      cases cause with
      | own task runs phase same =>
        exact ⟨node, same ▸ (System.Submitted.of_runs runs).mono step,
          holds_of_mem (vouched.step step) inNext⟩
      | requested source sent inLog =>
        have submitted := concordant.requests _ _ _ (Or.inr (Or.inl rfl)) sent
        obtain ⟨coordinator, submittedToo, has⟩ := concordant.rows node _ row found live
        obtain rfl := concordant.coordinator_unique submitted submittedToo
        exact ⟨source, submitted.mono step,
          (concordant.holds_of_inLog submitted has inLog).mono grows⟩
  | transferred source other holds fits absent appended =>
    rw [appended] at member
    rcases List.mem_append.mp member with before | new
    · exact old node before
    · obtain rfl := List.mem_singleton.mp new
      exact old source (KeyedList.lookup_mem holds)

/-- A transaction becomes decided only when its own execution commits it. -/
theorem Concordant.newly_decided (permitted : SubmitsFresh peers system action) {node : NodeID}
    {entry : C4LogEntry} (submitted : next.Submitted node entry.transactionId)
    (holds : next.Holds node entry) :
    (system.Submitted node entry.transactionId ∧ system.Holds node entry) ∨
    ∃ task, system.Runs action node task ∧ task.phase = .commit ∧
      task.transactionId = entry.transactionId ∧ system.HasRow node entry ∧
      next.state node entry.transactionId = .committed := by
  have member : entry ∈ (next.log node).entries := KeyedList.lookup_mem holds
  have old : entry ∈ (system.log node).entries →
      system.Submitted node entry.transactionId ∧ system.Holds node entry := by
    intro before
    obtain ⟨coordinator, known, -⟩ := concordant.entries node entry before
    exact ⟨submitted.before permitted step known, holds_of_mem vouched before⟩
  cases (causes_of_step vouched step node).entries with
  | same unchanged => exact Or.inl (old (unchanged ▸ member))
  | committed row found live fits absent state cause appended =>
    rw [appended] at member
    rcases List.mem_append.mp member with before | new
    · exact Or.inl (old before)
    · obtain rfl := List.mem_singleton.mp new
      cases cause with
      | own task runs phase same => exact Or.inr ⟨task, runs, phase, same, ⟨row, found, rfl⟩, state⟩
      | requested source sent inLog =>
        have known := concordant.requests _ _ _ (Or.inr (Or.inl rfl)) sent
        obtain rfl := concordant.coordinator_unique known
          (submitted.before permitted step known)
        obtain ⟨present, foundPresent⟩ := inLog
        cases absent.symm.trans foundPresent
  | transferred source other transferred fits absent appended =>
    rw [appended] at member
    rcases List.mem_append.mp member with before | new
    · exact Or.inl (old before)
    · obtain rfl := List.mem_singleton.mp new
      obtain ⟨coordinator, known, held⟩ :=
        concordant.entries source entry (KeyedList.lookup_mem transferred)
      obtain rfl := concordant.coordinator_unique known (submitted.before permitted step known)
      cases absent.symm.trans held

omit step in
/-- When a transaction is about to be committed by its execution, every super peer has prepared
its entry. -/
theorem Concordant.prepared_everywhere {node : NodeID} {task : SubmitTask}
    (runs : system.Runs action node task) (phase : task.phase = .commit) {entry : C4LogEntry}
    (same : task.transactionId = entry.transactionId) (has : system.HasRow node entry) :
    ∀ peer ∈ peers, system.HasRow peer entry := by
  obtain ⟨index, generated, outcome, errno, -, found⟩ := runs
  have phaseOk := (vouched.tasks _ (List.mem_of_getElem? found)).2
  rw [phase] at phaseOk
  obtain ⟨voted, key, ⟨row, foundRow, sameRow⟩, all⟩ := phaseOk
  obtain ⟨ownRow, foundOwn, sameOwn⟩ := has
  rw [key, same, foundOwn] at foundRow
  cases foundRow
  obtain rfl := sameRow.symm.trans sameOwn
  intro peer member
  rcases (concordant.captured index node task found).2 peer member with rfl | participant
  · exact ⟨row, foundOwn, sameOwn⟩
  · exact all peer participant

theorem Concordant.decided_step (permitted : SubmitsFresh peers system action) {node : NodeID}
    {entry : C4LogEntry} (submitted : next.Submitted node entry.transactionId)
    (holds : next.Holds node entry) :
    next.state node entry.transactionId = .committed ∧
      ∀ peer ∈ peers, next.HasRow peer entry := by
  have grows := System.grows_of_step step
  rcases concordant.newly_decided vouched step permitted submitted holds with
    ⟨known, held⟩ | ⟨task, runs, phase, same, has, state⟩
  · obtain ⟨state, all⟩ := concordant.decided node entry known held
    exact ⟨grows.settled (Or.inl rfl) state, fun peer member => (all peer member).mono grows⟩
  · have all := concordant.prepared_everywhere vouched runs phase same has
    exact ⟨state, fun peer member => (all peer member).mono grows⟩

end Steps

end SuperPeerNet
