/-
This file is about the decisions of two-phase commit in runs with one coordinator.

`c4_cluster_submit` aborts without looking at the result of the local `c4_log_abort`. A
second execution for the same transaction can so tell the participants to abort what
the first one has committed. As long as no execution gets to its abort while the
transaction is committed at the coordinator, the coordinator knows every decision: what
is committed or aborted anywhere is committed or aborted there, and no transaction is
ever both.
-/

import SuperPeerNet.Cluster.StableCoordinator

namespace SuperPeerNet

variable [Zlib]

/-! ### The condition -/

/-- An execution of `c4_cluster_submit` that has got to its abort has its transaction not
committed at its node. -/
def UndecidedAtAbort (system : System) : Option Task → Prop
  | some ⟨node, .submit task⟩ =>
    task.phase = .abort → system.state node task.transactionId ≠ .committed
  | some ⟨_, .recover _⟩ | some ⟨_, .broadcast _⟩ | none => True

omit [Zlib] in
instance (system : System) : (task : Option Task) → Decidable (UndecidedAtAbort system task)
  | some ⟨node, .submit task⟩ => inferInstanceAs (Decidable (task.phase = .abort →
      system.state node task.transactionId ≠ .committed))
  | some ⟨_, .recover _⟩ | some ⟨_, .broadcast _⟩ | none => .isTrue trivial

/-- A step of a task does not abort a transaction that is committed. -/
def AbortsUndecided (system : System) : Action → Prop
  | .run index _ _ _ => UndecidedAtAbort system system.tasks[index]?
  | _ => True

omit [Zlib] in
instance (system : System) : (action : Action) → Decidable (AbortsUndecided system action)
  | .run index _ _ _ => inferInstanceAs (Decidable (UndecidedAtAbort system system.tasks[index]?))
  | .submit _ _ _ _ | .setLeader _ _ | .setMembers _ _ | .recover _ _ | .broadcast _
  | .reply _ _ _ | .fail _ _ _ | .deliver _ _ _ => .isTrue trivial

/-- Operations are submitted at the coordinator, and none is aborted that is committed there. -/
def DecidesOnce (coordinator : NodeID) (system : System) (action : Action) : Prop :=
  SubmitsAt coordinator system action ∧ AbortsUndecided system action

omit [Zlib] in
instance (coordinator : NodeID) (system : System) (action : Action) :
    Decidable (DecidesOnce coordinator system action) :=
  inferInstanceAs (Decidable (_ ∧ _))

/-- No transaction is committed at one node and aborted at another. -/
def System.Agrees (system : System) : Prop :=
  ∀ first second id, ¬ (system.state first id = .committed ∧ system.state second id = .aborted)

/-! ### The coordinator knows every decision -/

/-- The round of calls that an execution is in. -/
def SubmitPhase.round : SubmitPhase → Option SubmitRound
  | .call round _ _ _ | .await round _ _ _ _ => some round
  | _ => none

/-- The invariant of a run in which no committed transaction is aborted. -/
structure Known (coordinator : NodeID) (system : System) : Prop where
  led : Led coordinator system
  committed : ∀ node id, system.state node id = .committed →
    system.state coordinator id = .committed
  aborted : ∀ node id, system.state node id = .aborted → system.state coordinator id = .aborted
  entries : ∀ node id, system.InLog node id → system.state coordinator id = .committed
  requests : ∀ source id, system.Sent .abort source id → system.state coordinator id = .aborted
  tasks : ∀ (index : Nat) (node : NodeID) (task : SubmitTask),
    system.tasks[index]? = some ⟨node, .submit task⟩ → task.phase.round = some .abort →
      system.state coordinator task.transactionId = .aborted

omit [Zlib] in
theorem row_of_state {log : C4Log} {id : TransactionId} {state : C4TransactionState}
    (isState : c4LogTransactionState log id = state) (known : state ≠ .unknown) :
    ∃ row, findTransaction log id = some row ∧ row.state = state := by
  unfold c4LogTransactionState at isState
  split at isState
  · exact absurd isState.symm known
  · rename_i row found
    exact ⟨row, found, isState⟩

/-- An unknown transaction that is prepared successfully is prepared. -/
theorem c4LogPrepare_prepares {log : C4Log} (valid : log.Valid) {entry : C4LogEntry}
    (unknown : c4LogTransactionState log entry.transactionId = .unknown)
    (accepted : (c4LogPrepare log entry).2 = .ok ()) :
    c4LogTransactionState (c4LogPrepare log entry).1 entry.transactionId = .prepared := by
  have outcome := c4LogPrepare_outcome log entry
  generalize c4LogPrepare log entry = result at outcome accepted ⊢
  cases outcome with
  | refused code => cases accepted
  | repeated row found same live =>
    rw [c4LogTransactionState_of_found found] at unknown
    exact absurd unknown (valid.checked (KeyedList.lookup_mem found) live).known
  | accepted sound small absent expected =>
    rw [c4LogTransactionState_withPrepared absent, if_pos rfl]

/-- An abort of a transaction that is not committed leaves it aborted. -/
theorem c4LogAbort_aborts {log : C4Log} (valid : log.Valid) {id : TransactionId}
    (undecided : c4LogTransactionState log id ≠ .committed) :
    c4LogTransactionState (c4LogAbort log id).1 id = .aborted := by
  have outcome := c4LogAbort_outcome log id
  generalize c4LogAbort log id = result at outcome ⊢
  cases outcome with
  | repeated row found dead => exact (c4LogTransactionState_of_found found).trans dead
  | refused row found live settled =>
    rw [c4LogTransactionState_of_found found] at undecided
    have known := (valid.checked (KeyedList.lookup_mem found) live).known
    cases state : row.state with
    | unknown => exact absurd state known
    | prepared => exact absurd state settled
    | committed => exact absurd state undecided
    | aborted => exact absurd state live
  | aborted row found pending => rw [c4LogTransactionState_withDecision found, if_pos rfl]
  | unknown absent => rw [c4LogTransactionState_withTombstone absent, if_pos rfl]

section Known

variable {coordinator : NodeID} {system next : System} {action : Action}

omit [Zlib] in
theorem known_initial (initial : system.Initial) : Known coordinator system where
  led := led_initial initial
  committed node id isState := by
    rw [System.state, System.log, initial.log] at isState
    cases isState
  aborted node id isState := by
    rw [System.state, System.log, initial.log] at isState
    cases isState
  entries := by
    rintro node id ⟨entry, found⟩
    rw [System.log, initial.log] at found
    cases found
  requests := by
    rintro source id ⟨request, member, -⟩
    rw [initial.network] at member
    cases member
  tasks index node task found := by
    rw [initial.tasks] at found
    cases found

/-- A row that a step commits or aborts shows the decision of the coordinator. -/
theorem Known.row_step (known : Known coordinator system) (vouched : Vouched system)
    (step : SystemStep system action next) {node : NodeID} {id : TransactionId}
    {state : C4TransactionState} (final : state = .committed ∨ state = .aborted)
    (isState : next.state node id = state) : next.state coordinator id = state := by
  have grows := System.grows_of_step step
  have notUnknown : state ≠ .unknown := by
    rcases final with rfl | rfl <;> nofun
  obtain ⟨row, found, rowState⟩ := row_of_state isState notUnknown
  cases (causes_of_step vouched step node).row found with
  | kept row old =>
    have before : system.state node id = state :=
      (c4LogTransactionState_of_found old).trans rowState
    refine grows.settled final ?_
    rcases final with rfl | rfl
    · exact known.committed node id before
    · exact known.aborted node id before
  | prepared entry key sound absent expected cause =>
    rcases final with rfl | rfl <;> cases rowState
  | committed row old pending cause =>
    cases rowState
    cases cause with
    | own task runs phase same =>
      obtain rfl := known.led.runs runs
      exact isState
    | requested source sent inLog => exact grows.settled final (known.entries source id inLog)
  | aborted row dead undecided entry cause =>
    rw [dead] at rowState
    subst rowState
    cases cause with
    | own task runs phase same =>
      obtain rfl := known.led.runs runs
      exact isState
    | requested source sent => exact grows.settled final (known.requests source id sent)

theorem Known.entries_step (known : Known coordinator system) (vouched : Vouched system)
    (step : SystemStep system action next) {node : NodeID} {id : TransactionId}
    (inLog : next.InLog node id) : next.state coordinator id = .committed := by
  have grows := System.grows_of_step step
  have old : ∀ holder, system.InLog holder id → next.state coordinator id = .committed :=
    fun holder holds => grows.settled (Or.inl rfl) (known.entries holder id holds)
  obtain ⟨entry, found⟩ := inLog
  have key := findEntry_id found
  have member : entry ∈ (next.log node).entries := KeyedList.lookup_mem found
  have kept : entry ∈ (system.log node).entries → next.state coordinator id = .committed := by
    intro before
    exact old node ⟨entry, key ▸ holds_of_mem vouched before⟩
  cases (causes_of_step vouched step node).entries with
  | same unchanged => exact kept (unchanged ▸ member)
  | committed row foundRow live fits absent state cause appended =>
    rw [appended] at member
    rcases List.mem_append.mp member with before | new
    · exact kept before
    · rw [← key, List.mem_singleton.mp new]
      cases cause with
      | own task runs phase same =>
        obtain rfl := known.led.runs runs
        exact state
      | requested source sent inLog =>
        exact grows.settled (Or.inl rfl) (known.entries source _ inLog)
  | transferred source other holds fits absent appended =>
    rw [appended] at member
    rcases List.mem_append.mp member with before | new
    · exact kept before
    · cases List.mem_singleton.mp new
      exact old source ⟨entry, key ▸ holds⟩

theorem Known.tasks_step (known : Known coordinator system) (vouched : Vouched system)
    (permitted : AbortsUndecided system action) (step : SystemStep system action next)
    {index : Nat} {node : NodeID} {task : SubmitTask}
    (found : next.tasks[index]? = some ⟨node, .submit task⟩)
    (aborts : task.phase.round = some .abort) :
    next.state coordinator task.transactionId = .aborted := by
  have grows := System.grows_of_step step
  cases taskCause_of_step step found with
  | kept old still => exact grows.settled (Or.inr rfl) (known.tasks index node task old aborts)
  | began owner payload isSubmit accepted last put =>
    rw [(begun_of_c4ClusterSubmit accepted).phase] at aborts
    cases aborts
  | received before round request oldRemaining remaining oldOk ok oldAcknowledgements
      acknowledgements quiet old awaits same =>
    subst same
    refine grows.settled (Or.inr rfl) (known.tasks index node before old ?_)
    rw [awaits]
    exact aborts
  | ran before generated outcome errno cluster phase sent isRun old step put same =>
    subst same
    obtain rfl := known.led.tasks index node before old
    cases step with
    | known => cases aborts
    | conflict => cases aborts
    | unknown => cases aborts
    | readIndex => cases aborts
    | readVersion => cases aborts
    | prepared => cases aborts
    | unprepared => cases aborts
    | finish round ok acknowledgements phase =>
      cases round with
      | prepare wire =>
        have after : SubmitPhase.round (if _ then .abort else .commit) = some .abort := aborts
        split at after <;> cases after
      | commit => cases aborts
      | abort => cases aborts
      | resend => cases aborts
    | send round destination remaining ok acknowledgements phase =>
      refine grows.settled (Or.inr rfl) (known.tasks index _ before old ?_)
      rw [phase]
      exact aborts
    | committed => cases aborts
    | uncommitted => cases aborts
    | aborted phase =>
      -- Only here the condition on the run is needed: the local abort takes effect.
      have undecided : system.state node before.transactionId ≠ .committed := by
        subst isRun
        have aborting : UndecidedAtAbort system system.tasks[index]? := permitted
        rw [old] at aborting
        exact aborting phase
      rw [System.state, put]
      exact c4LogAbort_aborts (vouched.valid _) undecided

theorem Known.step (known : Known coordinator system) (vouched : Vouched system)
    (permitted : DecidesOnce coordinator system action) (step : SystemStep system action next) :
    Known coordinator next where
  led := known.led.step vouched permitted.1 step
  committed _ _ isState := known.row_step vouched step (Or.inl rfl) isState
  aborted _ _ isState := known.row_step vouched step (Or.inr rfl) isState
  entries _ _ inLog := known.entries_step vouched step inLog
  requests := by
    rintro source id ⟨request, member, type, rfl, rfl⟩
    have grows := System.grows_of_step step
    cases requestCause_of_step vouched step member with
    | kept sent =>
      exact grows.settled (Or.inr rfl) (known.requests _ _ ⟨request, sent, type, rfl, rfl⟩)
    | sent task round remaining ok acknowledgements runs phase roundType isId =>
      obtain ⟨index, generated, outcome, errno, -, found⟩ := runs
      rw [isId]
      refine grows.settled (Or.inr rfl) (known.tasks index _ task found ?_)
      rw [phase]
      rw [type] at roundType
      cases round with
      | abort => rfl
      | prepare wire => cases roundType
      | commit => cases roundType
      | resend => cases roundType
    | transfer other =>
      rw [type] at other
      rcases other with other | other <;> cases other
  tasks _ _ _ found aborts := known.tasks_step vouched permitted.2 step found aborts

end Known

omit [Zlib] in
theorem Known.agrees {coordinator : NodeID} {system : System} (known : Known coordinator system) :
    system.Agrees := by
  rintro first second id ⟨isCommitted, isAborted⟩
  have committed := known.committed first id isCommitted
  rw [known.aborted second id isAborted] at committed
  cases committed

/-- With one coordinator, as long as no execution of `c4_cluster_submit` gets to its abort while
the transaction is committed at the coordinator, no transaction is ever committed at one super
peer and aborted at another. -/
theorem decision_agreement {start system : System} {coordinator : NodeID}
    (initial : start.Initial)
    (reached : Transition.Reaches System.step (DecidesOnce coordinator) start system) :
    system.Agrees := by
  have known : Known coordinator system :=
    (invariant_of_vouched initial (known_initial initial)
      (fun _ _ _ vouched known permitted step => known.step vouched permitted step) reached).2
  exact known.agrees

/-! ### Two runs -/

/-- An operation whose only vote is lost is aborted at both super peers. -/
def lostVoteRun (id : TransactionId) : List Action :=
  [.submit (nodeOf 1) id (nodeOf 9) [5], runTask 0, runTask 0, runTask 0, runTask 0, runTask 0,
    .deliver (requestOf 1 2 .prepare id (c4LogRecord (entryOf 1 id))) (.ok ()) .eio,
    .fail 0 .ehostunreach .eio, runTask 0, runTask 0, runTask 0,
    .deliver (requestOf 1 2 .abort id []) (.ok ()) .eio]

omit [Zlib] in
/-- A lost vote alone leaves both super peers with the same decision. -/
theorem decision_agreement_lostVote :
    letI := Zlib.reference
    ∃ system, Transition.Reaches System.step (DecidesOnce (nodeOf 1))
        (startOf [nodeOf 1, nodeOf 2] (nodeOf 1)) system ∧
      (system.state (nodeOf 1) (transactionOf 1) = .aborted ∧
        system.state (nodeOf 2) (transactionOf 1) = .aborted) ∧ system.Agrees := by
  let zlib := Zlib.reference
  obtain ⟨system, reached, states⟩ := Transition.Reaches.of_check
    (show (Transition.run (Transition.guarded System.step (DecidesOnce (nodeOf 1)))
        (startOf [nodeOf 1, nodeOf 2] (nodeOf 1)) (lostVoteRun (transactionOf 1))).any
      (fun final => final.state (nodeOf 1) (transactionOf 1) = .aborted ∧
        final.state (nodeOf 2) (transactionOf 1) = .aborted) = true by decide +kernel)
  exact ⟨system, reached, states, decision_agreement (initial_startOf _ _) reached⟩

/-- Two executions submit the same operation. The first one commits it; the second one, whose
vote is lost, then tells the participant to abort it. -/
def twiceSubmittedRun (id : TransactionId) : List Action :=
  [.submit (nodeOf 1) id (nodeOf 9) [5], .submit (nodeOf 1) id (nodeOf 9) [5],
    runTask 0, runTask 0, runTask 0, runTask 0, runTask 1, runTask 1, runTask 1, runTask 1] ++
    acknowledgedCall 0 (requestOf 1 2 .prepare id (c4LogRecord (entryOf 1 id))) ++
    [runTask 1, .fail 1 .ehostunreach .eio, runTask 0, runTask 0, runTask 1, runTask 1, runTask 1,
      .deliver (requestOf 1 2 .abort id []) (.ok ()) .eio]

omit [Zlib] in
/-- The transaction of the two executions is committed at the coordinator and aborted at the
participant. -/
theorem not_agrees_twiceSubmitted :
    letI := Zlib.reference
    ¬ ∀ system, Transition.Reaches System.step (SubmitsAt (nodeOf 1))
        (startOf [nodeOf 1, nodeOf 2] (nodeOf 1)) system → system.Agrees := by
  let zlib := Zlib.reference
  obtain ⟨system, reached, states⟩ := Transition.Reaches.of_check
    (show (Transition.run (Transition.guarded System.step (SubmitsAt (nodeOf 1)))
        (startOf [nodeOf 1, nodeOf 2] (nodeOf 1)) (twiceSubmittedRun (transactionOf 1))).any
      (fun final => final.state (nodeOf 1) (transactionOf 1) = .committed ∧
        final.state (nodeOf 2) (transactionOf 1) = .aborted) = true by decide +kernel)
  exact fun agree => agree system reached (nodeOf 1) (nodeOf 2) (transactionOf 1) states

end SuperPeerNet
