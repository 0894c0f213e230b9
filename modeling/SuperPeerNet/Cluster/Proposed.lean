/-
This file follows the operations that can still get into a committed log.

An operation is proposed while the execution that submits it has not prepared it yet,
and from then on as long as some node has a row or an entry for it. Nothing but a
submission makes an operation proposed: preparations, commits and transfers only carry
on what is proposed already.
-/

import SuperPeerNet.Cluster.Causes

namespace SuperPeerNet

variable [Zlib]

/-! ### Proposed operations -/

/-- The phases of `c4_cluster_submit` up to its own `PREPARE`. -/
def SubmitPhase.BeforePrepare : SubmitPhase → Prop
  | .lookup | .readIndex | .readVersion _ | .prepare _ => True
  | .call _ _ _ _ | .await _ _ _ _ _ | .commit | .abort | .returned _ => False

/-- An operation is in a log, has been prepared, or is on its way to be prepared. The entry of
an abort tombstone has the index zero and no operation. -/
inductive Proposed (system : System) (operation : List UInt8) : Prop
  | committed (node : NodeID) (entry : C4LogEntry) (member : entry ∈ (system.log node).entries)
      (same : entry.payload = operation)
  | prepared (node : NodeID) (id : TransactionId) (row : C4Transaction)
      (found : findTransaction (system.log node) id = some row) (real : row.entry.index ≠ 0)
      (same : row.entry.payload = operation)
  | submitted (index : Nat) (node : NodeID) (task : SubmitTask)
      (found : system.tasks[index]? = some ⟨node, .submit task⟩)
      (early : task.phase.BeforePrepare) (same : task.operation = operation)

/-- An execution that is about to prepare an entry has put its operation into it. -/
def PreparesOwn (system : System) : Prop :=
  ∀ (index : Nat) (node : NodeID) (task : SubmitTask) (entry : C4LogEntry),
    system.tasks[index]? = some ⟨node, .submit task⟩ → task.phase = .prepare entry →
      entry.payload = task.operation

/-- The action is an accepted submission of the operation. -/
def System.Submits (system : System) (action : Action) (operation : List UInt8) : Prop :=
  ∃ node id owner payload task, action = .submit node id owner payload ∧
    c4ClusterSubmit (system.cluster node) id owner payload = .ok task ∧
    operation = c4Operation owner payload

omit [Zlib] in
theorem not_proposed_initial {system : System} (initial : system.Initial)
    (operation : List UInt8) : ¬ Proposed system operation := by
  rintro (⟨node, entry, member, -⟩ | ⟨node, id, row, found, -, -⟩ |
    ⟨index, node, task, found, -, -⟩)
  · rw [System.log, initial.log] at member
    cases member
  · rw [System.log, initial.log] at found
    cases found
  · rw [initial.tasks] at found
    cases found

omit [Zlib] in
theorem preparesOwn_initial {system : System} (initial : system.Initial) :
    PreparesOwn system := by
  intro index node task entry found
  rw [initial.tasks] at found
  cases found

/-! ### What a step proposes -/

omit [Zlib] in
theorem not_beforePrepare_afterRound (task : SubmitTask) (errno : Errno) (round : SubmitRound)
    (ok : Bool) (acknowledgements : Nat) :
    ¬ (task.afterRound errno round ok acknowledgements).BeforePrepare := by
  cases round with
  | prepare wire =>
    simp only [SubmitTask.afterRound]
    split <;> exact id
  | commit => exact id
  | abort => exact id
  | resend => exact id

section Steps

variable {system next : System} {action : Action}

/-- An execution that has not prepared its operation yet had not done so before its last step,
and what it is about to prepare has its operation. -/
theorem beforePrepare_of_submitStep {apply : C4ApplyEntry Applied} {errno : Errno}
    {cluster after : C4Cluster Applied} {task : SubmitTask} {phase : SubmitPhase}
    {sent : Option Message} (step : SubmitStep apply errno cluster task after phase sent)
    (early : phase.BeforePrepare) :
    task.phase.BeforePrepare ∧
      ∀ entry, phase = .prepare entry → entry.payload = task.operation := by
  cases step with
  | unknown current => exact ⟨by rw [current]; trivial, nofun⟩
  | readIndex current => exact ⟨by rw [current]; trivial, nofun⟩
  | readVersion index current =>
    refine ⟨by rw [current]; trivial, fun entry same => ?_⟩
    cases same
    rfl
  | finish round ok acknowledgements current =>
    exact absurd early (not_beforePrepare_afterRound task errno round ok acknowledgements)
  | known => exact absurd early id
  | conflict => exact absurd early id
  | prepared => exact absurd early id
  | unprepared => exact absurd early id
  | send => exact absurd early id
  | committed => exact absurd early id
  | uncommitted => exact absurd early id
  | aborted => exact absurd early id

theorem PreparesOwn.step (own : PreparesOwn system) (step : SystemStep system action next) :
    PreparesOwn next := by
  intro index node task entry found current
  cases taskCause_of_step step found with
  | kept old => exact own index node task entry old current
  | began owner payload isSubmit accepted =>
    rw [(begun_of_c4ClusterSubmit accepted).phase] at current
    cases current
  | ran before generated outcome errno cluster phase sent isRun old taken put same =>
    subst same
    have isPhase : phase = .prepare entry := current
    have early : phase.BeforePrepare := by
      rw [isPhase]
      trivial
    exact (beforePrepare_of_submitStep taken early).2 entry isPhase
  | received before round request oldRemaining remaining oldOk ok oldAcknowledgements
      acknowledgements quiet old awaits same =>
    subst same
    cases current

/-- An entry comes from a row of the node or from the log of another node. -/
theorem proposed_of_entry (vouched : Vouched system) (step : SystemStep system action next)
    {node : NodeID} {entry : C4LogEntry} (member : entry ∈ (next.log node).entries) :
    Proposed system entry.payload := by
  cases (causes_of_step vouched step node).entries with
  | same entries =>
    rw [entries] at member
    exact .committed node entry member rfl
  | committed row found live fits absent state cause entries =>
    rw [entries, List.mem_append, List.mem_singleton] at member
    rcases member with old | rfl
    · exact .committed node entry old rfl
    · exact .prepared node _ row found fits.1.1 rfl
  | transferred source moved holds fits absent entries =>
    rw [entries, List.mem_append, List.mem_singleton] at member
    rcases member with old | rfl
    · exact .committed node entry old rfl
    · exact .committed source entry (KeyedList.lookup_mem holds) rfl

/-- A row comes from an execution of `c4_cluster_submit` at the node or from a row of another
node. -/
theorem proposed_of_row (vouched : Vouched system) (own : PreparesOwn system)
    (step : SystemStep system action next) {node : NodeID} {id : TransactionId}
    {row : C4Transaction} (found : findTransaction (next.log node) id = some row)
    (real : row.entry.index ≠ 0) : Proposed system row.entry.payload := by
  cases (causes_of_step vouched step node).row found with
  | kept row old => exact .prepared node id row old real rfl
  | prepared entry key sound absent expected cause =>
    cases cause with
    | own task runs phase =>
      obtain ⟨index, generated, outcome, errno, -, inTasks⟩ := runs
      refine .submitted index node task inTasks ?_ (own index node task entry inTasks phase).symm
      rw [phase]
      trivial
    | requested source sent has =>
      obtain ⟨row, inTable, rfl⟩ := has
      exact .prepared source _ row inTable real rfl
  | committed row old pending cause => exact .prepared node id row old real rfl
  | aborted row dead undecided entry cause =>
    rcases entry with zero | ⟨before, old, isEntry⟩
    · exact absurd zero real
    · rw [← isEntry] at real ⊢
      exact .prepared node id before old real rfl

/-- What is proposed after a step has been proposed before, or is being submitted. -/
theorem proposed_of_step (vouched : Vouched system) (own : PreparesOwn system)
    (step : SystemStep system action next) {operation : List UInt8}
    (proposed : Proposed next operation) :
    Proposed system operation ∨ system.Submits action operation := by
  cases proposed with
  | committed node entry member same => exact Or.inl (same ▸ proposed_of_entry vouched step member)
  | prepared node id row found real same =>
    exact Or.inl (same ▸ proposed_of_row vouched own step found real)
  | submitted index node task found early same =>
    cases taskCause_of_step step found with
    | kept old => exact Or.inl (.submitted index node task old early same)
    | began owner payload isSubmit accepted =>
      refine Or.inr ⟨node, _, owner, payload, task, isSubmit, accepted, ?_⟩
      rw [← same, (begun_of_c4ClusterSubmit accepted).operation]
    | ran before generated outcome errno cluster phase sent isRun old taken put isTask =>
      subst isTask
      exact Or.inl (.submitted index node before old
        (beforePrepare_of_submitStep taken early).1 same)
    | received before round request oldRemaining remaining oldOk ok oldAcknowledgements
        acknowledgements quiet old awaits isTask =>
      subst isTask
      exact absurd early id

end Steps

end SuperPeerNet
