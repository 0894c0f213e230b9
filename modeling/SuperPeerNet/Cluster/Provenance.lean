/-
This file proves what every message and every task of a run vouches for, whatever
the run.

A `PREPARE` shows that its sender has prepared the entry it carries, a `COMMIT` that
its sender has the transaction in its log, a transferred entry that its sender has
it. An acknowledged `PREPARE` shows that the receiver has prepared the entry, an
acknowledged `COMMIT` that the receiver has committed and applied it. These facts are
about rows and entries that no later step removes, so they stay true once they are.
A task collects them round by round; when `c4_cluster_submit` returns success, they
cover every participant.
-/

import SuperPeerNet.Cluster.Paging
import SuperPeerNet.Cluster.Transitions

namespace SuperPeerNet

variable [Zlib]

/-! ### Nodes only grow -/

/-- What no step takes away from a node. -/
structure C4Cluster.Grows (before after : C4Cluster Applied) : Prop where
  identity : after.localId = before.localId
  log : C4Log.Changes before.log after.log
  applied : before.context <+: after.context

theorem C4Cluster.Grows.refl (cluster : C4Cluster Applied) : cluster.Grows cluster :=
  ⟨rfl, .refl, List.prefix_refl _⟩

omit [Zlib] in
theorem recordApply_grows (outcome : Except Errno Unit) (applied : Applied)
    (entry : C4LogEntry) : applied <+: (recordApply outcome applied entry).1 := by
  cases outcome with
  | error code => exact List.prefix_refl _
  | ok done => exact List.prefix_append _ _

theorem c4ApplyNewEntry_grows (outcome : Except Errno Unit) {cluster : C4Cluster Applied}
    {log : C4Log} (changes : C4Log.Changes cluster.log log) (entry : C4LogEntry) :
    cluster.Grows (c4ApplyNewEntry (recordApply outcome) { cluster with log := log } entry).1 :=
  ⟨rfl, changes, recordApply_grows outcome cluster.context entry⟩

theorem appendAndApply_grows (outcome : Except Errno Unit) (cluster : C4Cluster Applied)
    (entry : C4LogEntry) :
    cluster.Grows (appendAndApply (recordApply outcome) cluster entry).1 := by
  have changes := C4Log.changes_c4LogAppendEntry cluster.log entry
  unfold appendAndApply
  split
  · exact C4Cluster.Grows.refl cluster
  · rename_i log appended
    rw [appended] at changes
    exact c4ApplyNewEntry_grows outcome changes entry

theorem commitAndApply_grows (outcome : Except Errno Unit) (cluster : C4Cluster Applied)
    (id : TransactionId) :
    cluster.Grows (commitAndApply (recordApply outcome) cluster id).1 := by
  have changes := C4Log.changes_c4LogCommit cluster.log id
  unfold commitAndApply
  split
  · rename_i log code committed
    rw [committed] at changes
    exact ⟨rfl, changes, List.prefix_refl _⟩
  · rename_i log entry committed
    rw [committed] at changes
    exact c4ApplyNewEntry_grows outcome changes entry

theorem grows_of_log {cluster : C4Cluster Applied} {log : C4Log}
    (changes : C4Log.Changes cluster.log log) : cluster.Grows { cluster with log := log } :=
  ⟨rfl, changes, List.prefix_refl _⟩

theorem jobStep_grows {outcome : Except Errno Unit} {errno : Errno} {generated : TransactionId}
    {cluster after : C4Cluster Applied} {job next : Job} {sent : Option Message}
    (step : JobStep (recordApply outcome) errno generated cluster job after next sent) :
    cluster.Grows after := by
  cases step with
  | submit step =>
    cases step with
    | known => exact C4Cluster.Grows.refl _
    | conflict => exact C4Cluster.Grows.refl _
    | unknown => exact C4Cluster.Grows.refl _
    | readIndex => exact C4Cluster.Grows.refl _
    | readVersion => exact C4Cluster.Grows.refl _
    | prepared entry => exact grows_of_log (C4Log.changes_c4LogPrepare _ _)
    | unprepared entry => exact grows_of_log (C4Log.changes_c4LogPrepare _ _)
    | finish => exact C4Cluster.Grows.refl _
    | send => exact C4Cluster.Grows.refl _
    | committed => exact commitAndApply_grows outcome _ _
    | uncommitted => exact commitAndApply_grows outcome _ _
    | aborted => exact grows_of_log (C4Log.changes_c4LogAbort _ _)
  | recover step =>
    cases step with
    | read => exact C4Cluster.Grows.refl _
    | send => exact C4Cluster.Grows.refl _
    | appended => exact appendAndApply_grows outcome _ _
    | failed => exact appendAndApply_grows outcome _ _
  | broadcast phase step => exact C4Cluster.Grows.refl _

theorem c4ClusterHandle_grows (errno : Errno) (outcome : Except Errno Unit)
    (cluster : C4Cluster Applied) (request : Message) :
    cluster.Grows (c4ClusterHandle errno (recordApply outcome) (fun cluster _ => (cluster, .ok ()))
      cluster request).1 := by
  have handled := c4ClusterHandle_outcome errno (recordApply outcome) cluster request
  generalize c4ClusterHandle errno (recordApply outcome) _ cluster request = result at handled ⊢
  cases handled with
  | refused code => exact C4Cluster.Grows.refl _
  | election after result type identity log applied =>
    exact ⟨identity, log ▸ .refl, applied ▸ List.prefix_refl _⟩
  | served type => exact C4Cluster.Grows.refl _
  | prepare entry type decoded id => exact grows_of_log (C4Log.changes_c4LogPrepare _ _)
  | commit type => exact commitAndApply_grows outcome _ _
  | abort type => exact grows_of_log (C4Log.changes_c4LogAbort _ _)
  | transfer entry type decoded => exact appendAndApply_grows outcome _ _

namespace System

/-- Every node grows. -/
def Grows (before after : System) : Prop :=
  ∀ node, (before.cluster node).Grows (after.cluster node)

theorem grows_withCluster {system : System} {node : NodeID} {cluster : C4Cluster Applied}
    (grows : (system.cluster node).Grows cluster) :
    system.Grows (system.withCluster node cluster) := by
  intro other
  by_cases same : other = node
  · subst same
    rw [cluster_withCluster_self]
    exact grows
  · rw [cluster_withCluster_of_ne _ _ _ same]
    exact C4Cluster.Grows.refl _

theorem grows_of_step {system next : System} {action : Action}
    (step : SystemStep system action next) : system.Grows next := by
  cases step with
  | configured action node cluster quiet identity log applied =>
    exact grows_withCluster ⟨identity, log ▸ .refl, applied ▸ List.prefix_refl _⟩
  | began action node job begins => exact fun other => C4Cluster.Grows.refl _
  | ran index generated outcome errno task cluster job sent found step =>
    exact grows_withCluster (jobStep_grows step)
  | ended => exact fun other => C4Cluster.Grows.refl _
  | handled request outcome errno sent =>
    exact grows_withCluster (c4ClusterHandle_grows errno outcome _ request)

/-! ### Facts that stay true -/

/-- The node has prepared the entry, whatever has become of the transaction since. -/
def HasRow (system : System) (node : NodeID) (entry : C4LogEntry) : Prop :=
  ∃ row, findTransaction (system.log node) entry.transactionId = some row ∧ row.entry = entry

/-- The node has the entry in its committed log. -/
def Holds (system : System) (node : NodeID) (entry : C4LogEntry) : Prop :=
  findEntry (system.log node) entry.transactionId = some entry

/-- The node has the transaction in its committed log. -/
def InLog (system : System) (node : NodeID) (id : TransactionId) : Prop :=
  ∃ entry, findEntry (system.log node) id = some entry

/-- The node has the transaction in its committed log and has applied it. -/
def Replicated (system : System) (node : NodeID) (id : TransactionId) : Prop :=
  system.InLog node id ∧ ∃ entry ∈ (system.cluster node).context, entry.transactionId = id

section Mono

variable {before after : System} (grows : before.Grows after) {node : NodeID}

include grows

theorem HasRow.mono {entry : C4LogEntry} (has : before.HasRow node entry) :
    after.HasRow node entry := by
  obtain ⟨row, found, same⟩ := has
  obtain ⟨later, foundLater, sameLater⟩ := (grows node).log.row found
  exact ⟨later, foundLater, sameLater.trans same⟩

theorem Holds.mono {entry : C4LogEntry} (holds : before.Holds node entry) :
    after.Holds node entry :=
  (grows node).log.findEntry holds

theorem InLog.mono {id : TransactionId} (inLog : before.InLog node id) : after.InLog node id := by
  obtain ⟨entry, found⟩ := inLog
  exact ⟨entry, (grows node).log.findEntry found⟩

theorem Replicated.mono {id : TransactionId} (replicated : before.Replicated node id) :
    after.Replicated node id := by
  obtain ⟨inLog, entry, member, same⟩ := replicated
  exact ⟨inLog.mono grows, entry, (grows node).applied.subset member, same⟩

end Mono

end System

/-! ### What the calls on the log establish -/

/-- An accepted prepare leaves a row with the entry, which is sound. -/
theorem c4LogPrepare_accepted {log : C4Log} (valid : log.Valid) {entry : C4LogEntry}
    (accepted : (c4LogPrepare log entry).2 = .ok ()) :
    entry.Sound ∧ ∃ row, findTransaction (c4LogPrepare log entry).1 entry.transactionId = some row ∧
      row.entry = entry ∧ row.state ≠ .aborted := by
  have outcome := c4LogPrepare_outcome log entry
  generalize c4LogPrepare log entry = result at outcome accepted ⊢
  cases outcome with
  | refused code => cases accepted
  | repeated row found same live =>
    have sound := (valid.checked (KeyedList.lookup_mem found) live).sound
    exact ⟨same ▸ sound, row, found, same, live⟩
  | accepted sound small absent expected =>
    refine ⟨sound, ⟨entry, .prepared⟩, ?_, rfl, nofun⟩
    rw [findTransaction_withPrepared, absent, if_pos rfl]
    rfl

/-- An accepted append leaves the entry in the log. -/
theorem appendLocked_accepted {log next : C4Log} {entry : C4LogEntry}
    (accepted : appendLocked log entry true = .ok next) :
    findEntry next entry.transactionId = some entry := by
  have outcome := appendLocked_outcome log entry
  rw [accepted] at outcome
  cases outcome with
  | repeated sound found => exact found
  | appended fits absent =>
    rw [findEntry_withEntry, absent, if_pos rfl]
    rfl

/-- An accepted commit leaves the entry of the row in the log. -/
theorem c4LogCommit_accepted {log next : C4Log} {id : TransactionId} {entry : C4LogEntry}
    (accepted : c4LogCommit log id = (next, .ok entry)) :
    findEntry next id = some entry ∧ entry.transactionId = id := by
  have outcome := c4LogCommit_outcome log id
  rw [accepted] at outcome
  cases outcome with
  | done row next found live appended =>
    have key := findTransaction_id found
    have inLog := appendLocked_accepted appended
    rw [key] at inLog
    exact ⟨inLog, key⟩

/-- A commit that has been applied leaves the transaction in the log and in the record of the
callback. -/
theorem commitAndApply_accepted {outcome : Except Errno Unit} {cluster : C4Cluster Applied}
    {id : TransactionId}
    (accepted : (commitAndApply (recordApply outcome) cluster id).2 = .ok ()) :
    (∃ entry, findEntry (commitAndApply (recordApply outcome) cluster id).1.log id = some entry) ∧
      ∃ entry ∈ (commitAndApply (recordApply outcome) cluster id).1.context,
        entry.transactionId = id := by
  unfold commitAndApply at accepted ⊢
  split at accepted
  · cases accepted
  · rename_i log entry committed
    obtain ⟨inLog, key⟩ := c4LogCommit_accepted committed
    cases outcome with
    | error code => cases accepted
    | ok done =>
      refine ⟨⟨entry, inLog⟩, entry, ?_, key⟩
      exact List.mem_append_right _ (List.mem_singleton_self _)

/-! ### What messages and tasks vouch for -/

/-- What a request shows about its sender. -/
structure RequestOk (system : System) (request : Message) : Prop where
  prepare : request.messageType = .prepare →
    ∃ entry, c4LogEntryDecode request.payload = .ok entry ∧
      entry.transactionId = request.transactionId ∧ system.HasRow request.sourceNode entry
  commit : request.messageType = .commit →
    system.InLog request.sourceNode request.transactionId
  transfer : request.messageType = .stateTransfer →
    ∃ entry, c4LogEntryDecode request.payload = .ok entry ∧ system.Holds request.sourceNode entry

/-- What a reply shows about its sender. -/
structure ResponseOk (system : System) (request reply : Message) : Prop where
  prepare : request.messageType = .prepare → reply.messageType = .ack →
    ∃ entry, c4LogEntryDecode request.payload = .ok entry ∧
      system.HasRow request.destinationNode entry
  commit : request.messageType = .commit → reply.messageType = .ack →
    system.Replicated request.destinationNode request.transactionId
  page : request.messageType = .istRequest → ∀ log index version entries,
    istReceive log index version reply = .ok entries →
      ∀ entry ∈ entries, system.Holds request.destinationNode entry

/-- What a packet shows. -/
def PacketOk (system : System) : Packet → Prop
  | .request request => RequestOk system request
  | .response request reply => ResponseOk system request reply

/-- A round of calls that has got to the participants before `remaining`: while all calls have
been acknowledged, these participants are all good. A round counts from `base` on. -/
def Progress (good : NodeID → Prop) (base : Nat) (participants remaining : List NodeID)
    (ok : Bool) (acknowledgements : Nat) : Prop :=
  ∃ done, participants = done ++ remaining ∧ (ok = true → ∀ node ∈ done, good node) ∧
    acknowledgements ≤ base + done.length ∧
    (acknowledgements = base + done.length → ok = true)

/-- What a round of calls has established. -/
def RoundOk (system : System) (node : NodeID) (task : SubmitTask) (remaining : List NodeID)
    (ok : Bool) (acknowledgements : Nat) : SubmitRound → Prop
  | .prepare wire => ∃ entry, c4LogEntryDecode wire = .ok entry ∧
      entry.transactionId = task.transactionId ∧ system.HasRow node entry ∧
      Progress (fun participant => system.HasRow participant entry) 0 task.participants remaining
        ok acknowledgements
  | .commit => system.InLog node task.transactionId ∧
      Progress (fun participant => system.Replicated participant task.transactionId) 0
        task.participants remaining ok acknowledgements
  | .resend => system.InLog node task.transactionId ∧
      Progress (fun participant => system.Replicated participant task.transactionId) 1
        task.participants remaining ok acknowledgements
  | .abort => True

/-- What `c4_cluster_submit` has established when it gets to a phase. -/
def PhaseOk (system : System) (node : NodeID) (task : SubmitTask) : SubmitPhase → Prop
  | .prepare entry => entry.transactionId = task.transactionId
  | .call round remaining ok acknowledgements =>
    RoundOk system node task remaining ok acknowledgements round
  | .await round request remaining ok acknowledgements =>
    ∃ destination, request = task.request node round destination ∧
      RoundOk system node task (destination :: remaining) ok acknowledgements round
  | .commit => ∃ entry, entry.transactionId = task.transactionId ∧ system.HasRow node entry ∧
      ∀ participant ∈ task.participants, system.HasRow participant entry
  | .abort => ∃ entry, entry.transactionId = task.transactionId ∧ system.HasRow node entry
  | .returned (.ok ()) => system.InLog node task.transactionId ∧
      ∀ participant ∈ task.participants, system.Replicated participant task.transactionId
  | _ => True

/-- What `c4_recover_from_member` has established when it gets to a phase. -/
def RecoverOk (system : System) (member : NodeID) : RecoverPhase → Prop
  | .await request _ _ => request.messageType = .istRequest ∧ request.destinationNode = member
  | .append entry rest => ∀ other ∈ entry :: rest, system.Holds member other
  | _ => True

/-- What a job has established. -/
def JobOk (system : System) (node : NodeID) : Job → Prop
  | .submit task => task.expectedReplicas = task.participants.length + 1 ∧
      PhaseOk system node task task.phase
  | .recover task => RecoverOk system task.member task.phase
  | .broadcast _ => True

/-- The invariant of every run. -/
structure Vouched (system : System) : Prop where
  identity : ∀ node, (system.cluster node).localId = node
  valid : ∀ node, (system.log node).Valid
  packets : ∀ packet ∈ system.network, PacketOk system packet
  tasks : ∀ task ∈ system.tasks, JobOk system task.node task.job

/-! ### Vouching is for good -/

omit [Zlib] in
theorem Progress.imp {good better : NodeID → Prop} (implies : ∀ node, good node → better node)
    {base : Nat} {participants remaining : List NodeID} {ok : Bool} {acknowledgements : Nat}
    (progress : Progress good base participants remaining ok acknowledgements) :
    Progress better base participants remaining ok acknowledgements := by
  obtain ⟨done, split, all, bound, full⟩ := progress
  exact ⟨done, split, fun isOk node member => implies node (all isOk node member), bound, full⟩

section Mono

variable {before after : System} (grows : before.Grows after)

include grows

theorem PacketOk.mono {packet : Packet} (fine : PacketOk before packet) :
    PacketOk after packet := by
  cases packet with
  | request request =>
    obtain ⟨prepare, commit, transfer⟩ := fine
    refine ⟨fun type => ?_, fun type => (commit type).mono grows, fun type => ?_⟩
    · obtain ⟨entry, decoded, id, row⟩ := prepare type
      exact ⟨entry, decoded, id, row.mono grows⟩
    · obtain ⟨entry, decoded, holds⟩ := transfer type
      exact ⟨entry, decoded, holds.mono grows⟩
  | response request reply =>
    obtain ⟨prepare, commit, page⟩ := fine
    refine ⟨fun type ack => ?_, fun type ack => (commit type ack).mono grows,
      fun type log index version entries received entry member =>
        (page type log index version entries received entry member).mono grows⟩
    obtain ⟨entry, decoded, row⟩ := prepare type ack
    exact ⟨entry, decoded, row.mono grows⟩

theorem RoundOk.mono {node : NodeID} {task : SubmitTask} {remaining : List NodeID} {ok : Bool}
    {acknowledgements : Nat} {round : SubmitRound}
    (fine : RoundOk before node task remaining ok acknowledgements round) :
    RoundOk after node task remaining ok acknowledgements round := by
  cases round with
  | prepare wire =>
    obtain ⟨entry, decoded, id, row, progress⟩ := fine
    exact ⟨entry, decoded, id, row.mono grows, progress.imp fun _ has => has.mono grows⟩
  | commit => exact ⟨fine.1.mono grows, fine.2.imp fun _ has => has.mono grows⟩
  | resend => exact ⟨fine.1.mono grows, fine.2.imp fun _ has => has.mono grows⟩
  | abort => trivial

theorem PhaseOk.mono {node : NodeID} {task : SubmitTask} {phase : SubmitPhase}
    (fine : PhaseOk before node task phase) : PhaseOk after node task phase := by
  cases phase with
  | lookup => trivial
  | readIndex => trivial
  | readVersion index => trivial
  | prepare entry => exact fine
  | call round remaining ok acknowledgements => exact RoundOk.mono grows fine
  | await round request remaining ok acknowledgements =>
    obtain ⟨destination, same, roundOk⟩ := fine
    exact ⟨destination, same, RoundOk.mono grows roundOk⟩
  | commit =>
    obtain ⟨entry, id, row, all⟩ := fine
    exact ⟨entry, id, row.mono grows, fun node member => (all node member).mono grows⟩
  | abort =>
    obtain ⟨entry, id, row⟩ := fine
    exact ⟨entry, id, row.mono grows⟩
  | returned result =>
    cases result with
    | error code => trivial
    | ok done => exact ⟨fine.1.mono grows, fun node member => (fine.2 node member).mono grows⟩

theorem JobOk.mono {node : NodeID} {job : Job} (fine : JobOk before node job) :
    JobOk after node job := by
  cases job with
  | submit task => exact ⟨fine.1, PhaseOk.mono grows fine.2⟩
  | recover task =>
    obtain ⟨member, phase⟩ := task
    cases phase with
    | append entry rest => exact fun other inPage => (fine other inPage).mono grows
    | await request index version => exact fine
    | readIndex => trivial
    | readVersion index => trivial
    | call index version => trivial
    | returned result => trivial
  | broadcast task => trivial

end Mono

/-! ### The steps of a task keep what it has established -/

section TaskSteps

variable {system next : System} {node : NodeID} {cluster : C4Cluster Applied}

omit [Zlib] in
theorem progress_start (good : NodeID → Prop) (base : Nat) (participants : List NodeID) :
    Progress good base participants participants true base :=
  ⟨[], rfl, fun _ => nofun, Nat.le_refl _, fun _ => rfl⟩

omit [Zlib] in
theorem Progress.finish {good : NodeID → Prop} {base : Nat} {participants : List NodeID}
    {ok : Bool} {acknowledgements : Nat}
    (progress : Progress good base participants [] ok acknowledgements) :
    (ok = true → ∀ participant ∈ participants, good participant) ∧
      (acknowledgements = base + participants.length → ok = true) := by
  obtain ⟨done, split, all, -, full⟩ := progress
  rw [List.append_nil] at split
  subst split
  exact ⟨all, full⟩

omit [Zlib] in
theorem Progress.receive {good : NodeID → Prop} {base : Nat}
    {participants remaining : List NodeID} {destination : NodeID} {ok : Bool}
    {acknowledgements : Nat}
    (progress : Progress good base participants (destination :: remaining) ok acknowledgements)
    {acknowledged : Bool} (vouches : acknowledged = true → good destination) :
    Progress good base participants remaining (ok && acknowledged)
      (if acknowledged then acknowledgements + 1 else acknowledgements) := by
  obtain ⟨done, split, all, bound, full⟩ := progress
  refine ⟨done ++ [destination], by simp [split], ?_, ?_, ?_⟩
  · intro both participant member
    rw [Bool.and_eq_true] at both
    rcases List.mem_append.mp member with old | new
    · exact all both.1 participant old
    · rw [List.mem_singleton.mp new]
      exact vouches both.2
  · rw [List.length_append, List.length_singleton]
    split <;> omega
  · rw [List.length_append, List.length_singleton]
    intro count
    cases acknowledged with
    | true =>
      simp only [if_true] at count
      rw [full (by omega)]
      rfl
    | false =>
      simp only [Bool.false_eq_true, if_false] at count
      omega

/-- The state after a step that puts a node into a new state. -/
structure Moves (system next : System) (node : NodeID) (cluster : C4Cluster Applied) : Prop where
  grows : system.Grows next
  log : next.log node = cluster.log
  applied : (next.cluster node).context = cluster.context

theorem submitStep_ok (vouched : Vouched system) {outcome : Except Errno Unit} {errno : Errno}
    {task : SubmitTask} {phase : SubmitPhase} {sent : Option Message}
    (fine : JobOk system node (.submit task))
    (step : SubmitStep (recordApply outcome) errno (system.cluster node) task cluster phase sent)
    (moves : Moves system next node cluster) :
    PhaseOk next node task phase ∧ ∀ request, sent = some request → RequestOk next request := by
  obtain ⟨expected, phaseOk⟩ := fine
  have current := PhaseOk.mono moves.grows phaseOk
  cases step with
  | known entry phase found same =>
    exact ⟨⟨⟨entry, (moves.grows node).log.findEntry found⟩, progress_start _ 1 _⟩, nofun⟩
  | conflict => exact ⟨trivial, nofun⟩
  | unknown => exact ⟨trivial, nofun⟩
  | readIndex => exact ⟨trivial, nofun⟩
  | readVersion => exact ⟨rfl, nofun⟩
  | prepared entry wire phase accepted encoded =>
    rw [phase] at current
    obtain ⟨sound, row, found, same, -⟩ := c4LogPrepare_accepted (vouched.valid node) accepted
    have decoded := c4LogEntryDecode_encode sound.1 sound.2.1 encoded
    refine ⟨⟨entry, decoded, current, ⟨row, ?_, same⟩, progress_start _ 0 _⟩, nofun⟩
    rw [moves.log]
    exact found
  | unprepared => exact ⟨trivial, nofun⟩
  | finish round ok acknowledgements phase =>
    rw [phase] at current
    refine ⟨?_, nofun⟩
    cases round with
    | prepare wire =>
      obtain ⟨entry, -, id, row, progress⟩ := current
      show PhaseOk next node task (if _ then _ else _)
      split
      · exact ⟨entry, id, row⟩
      · rename_i accepted
        simp only [not_or, Bool.not_eq_false] at accepted
        exact ⟨entry, id, row, progress.finish.1 accepted.1⟩
    | commit =>
      show PhaseOk next node task (.returned (if _ then _ else _))
      split
      · rename_i isOk
        exact ⟨current.1, current.2.finish.1 isOk⟩
      · trivial
    | abort => trivial
    | resend =>
      show PhaseOk next node task (.returned (if _ then _ else _))
      split
      · trivial
      · rename_i full
        obtain ⟨all, isOk⟩ := current.2.finish
        refine ⟨current.1, all (isOk ?_)⟩
        rw [not_not.mp full, expected]
        omega
  | send round destination remaining ok acknowledgements phase =>
    rw [phase] at current
    rw [vouched.identity]
    refine ⟨⟨destination, rfl, current⟩, ?_⟩
    rintro request ⟨⟩
    cases round with
    | prepare wire =>
      obtain ⟨entry, decoded, id, row, -⟩ := current
      exact ⟨fun _ => ⟨entry, decoded, id, row⟩, nofun, nofun⟩
    | commit => exact ⟨nofun, fun _ => current.1, nofun⟩
    | abort => exact ⟨nofun, nofun, nofun⟩
    | resend => exact ⟨nofun, fun _ => current.1, nofun⟩
  | committed phase accepted =>
    obtain ⟨⟨entry, found⟩, -⟩ := commitAndApply_accepted accepted
    refine ⟨⟨⟨entry, ?_⟩, progress_start _ 0 _⟩, nofun⟩
    rw [moves.log]
    exact found
  | uncommitted => exact ⟨trivial, nofun⟩
  | aborted => exact ⟨trivial, nofun⟩

theorem recoverStep_ok {outcome : Except Errno Unit} {generated : TransactionId}
    {task : RecoverTask} {phase : RecoverPhase} {sent : Option Message}
    (fine : RecoverOk system task.member task.phase)
    (step : RecoverStep (recordApply outcome) generated (system.cluster node) task cluster phase
      sent) (grows : system.Grows next) :
    RecoverOk next task.member phase ∧ ∀ request, sent = some request → RequestOk next request := by
  cases step with
  | read phase quiet silent =>
    refine ⟨?_, nofun⟩
    cases phase with
    | append entry rest => exact absurd rfl (quiet entry rest)
    | await request index version => exact absurd rfl (silent request index version)
    | readIndex => trivial
    | readVersion index => trivial
    | call index version => trivial
    | returned result => trivial
  | send request index version type source destination =>
    refine ⟨⟨type, destination⟩, ?_⟩
    rintro other ⟨⟩
    refine ⟨fun isPrepare => ?_, fun isCommit => ?_, fun isTransfer => ?_⟩
    · rw [type] at isPrepare
      cases isPrepare
    · rw [type] at isCommit
      cases isCommit
    · rw [type] at isTransfer
      cases isTransfer
  | appended entry rest phase =>
    rw [phase] at fine
    refine ⟨?_, nofun⟩
    cases rest with
    | nil => trivial
    | cons second rest =>
      exact fun other member => (fine other (List.mem_cons_of_mem _ member)).mono grows
  | failed => exact ⟨trivial, nofun⟩

theorem holds_of_mem (vouched : Vouched system) {entry : C4LogEntry}
    (member : entry ∈ (system.log node).entries) : system.Holds node entry :=
  (KeyedList.lookup_eq_some_iff (vouched.valid node).entries.distinct).mpr ⟨member, rfl⟩

theorem broadcastStep_ok (vouched : Vouched system) {sent : Option Message}
    (step : BroadcastStep (system.cluster node) sent) {request : Message}
    (isSent : sent = some request) : RequestOk system request := by
  cases step with
  | quiet => cases isSent
  | send request index entry type source found encoded =>
    cases isSent
    have member : entry ∈ (system.log node).entries := by
      unfold c4LogGet at found
      split at found
      · cases found
      · split at found
        · cases found
        · rename_i lookup
          cases found
          exact List.mem_of_getElem? lookup
    have sound := (vouched.valid node).entries.sound entry member
    refine ⟨fun isPrepare => ?_, fun isCommit => ?_, fun _ => ⟨entry, ?_, ?_⟩⟩
    · rw [type] at isPrepare
      cases isPrepare
    · rw [type] at isCommit
      cases isCommit
    · exact c4LogEntryDecode_encode sound.1 sound.2.1 encoded
    · rw [source, vouched.identity]
      exact holds_of_mem vouched member

omit [Zlib] in
theorem good_of_acknowledged {good : Prop} {response : Except Errno Message}
    (implies : ∀ reply, response = .ok reply → reply.messageType = .ack → good)
    (isAck : SubmitTask.acknowledged response = true) : good := by
  cases response with
  | error code => cases isAck
  | ok reply => exact implies reply rfl (of_decide_eq_true isAck)

/-- The end of a remote call keeps what `c4_cluster_submit` has established: an `M_ACK` is
counted only if the packet that carries it vouches for the participant. -/
theorem submitReceive_ok (vouched : Vouched system) {task : SubmitTask} {phase : SubmitPhase}
    {response : Except Errno Message} (fine : PhaseOk system node task task.phase)
    (ends : CallEnds system (.submit task) response)
    (received : task.receive response = some phase) : PhaseOk system node task phase := by
  obtain ⟨round, request, remaining, ok, acknowledgements, current, rfl⟩ :=
    awaits_of_receive received
  rw [current] at fine
  obtain ⟨destination, same, roundOk⟩ := fine
  show RoundOk system node task remaining _ _ round
  have vouches : ∀ reply, response = .ok reply →
      ResponseOk system (task.request node round destination) reply := by
    intro reply isOk
    cases ends with
    | failed code => cases isOk
    | replied awaitedRequest otherReply awaited sent =>
      cases isOk
      simp only [Job.awaited, current, Option.some.injEq] at awaited
      rw [← same, awaited]
      exact vouched.packets _ sent
  cases round with
  | prepare wire =>
    obtain ⟨entry, decoded, id, row, progress⟩ := roundOk
    refine ⟨entry, decoded, id, row, progress.receive (good_of_acknowledged ?_)⟩
    intro reply isOk isAck
    obtain ⟨other, decodedOther, rowOther⟩ := (vouches reply isOk).prepare rfl isAck
    cases decoded.symm.trans decodedOther
    exact rowOther
  | commit =>
    refine ⟨roundOk.1, roundOk.2.receive (good_of_acknowledged ?_)⟩
    exact fun reply isOk isAck => (vouches reply isOk).commit rfl isAck
  | resend =>
    refine ⟨roundOk.1, roundOk.2.receive (good_of_acknowledged ?_)⟩
    exact fun reply isOk isAck => (vouches reply isOk).commit rfl isAck
  | abort => trivial

/-- The entries of a page that `c4_recover_from_member` accepts are in the log of the member. -/
theorem recoverReceive_ok (vouched : Vouched system) {log : C4Log} {task : RecoverTask}
    {phase : RecoverPhase} {response : Except Errno Message}
    (fine : RecoverOk system task.member task.phase)
    (ends : CallEnds system (.recover task) response)
    (received : task.receive log response = some phase) : RecoverOk system task.member phase := by
  unfold RecoverTask.receive at received
  split at received
  · rename_i request index version current
    rw [current] at fine
    cases ends with
    | failed code =>
      cases received
      trivial
    | replied awaitedRequest reply awaited sent =>
      simp only [Job.awaited, current, Option.some.injEq] at awaited
      subst awaited
      simp only at received
      split at received
      · cases received
        trivial
      · rename_i entries accepted
        cases received
        have page := (vouched.packets _ sent).page fine.1 _ _ _ entries accepted
        rw [fine.2] at page
        cases entries with
        | nil => trivial
        | cons entry rest => exact page
  · cases received

/-- The end of a remote call keeps what a task has established. -/
theorem receive_ok (vouched : Vouched system) {errno : Errno} {job after : Job}
    {response : Except Errno Message} (fine : JobOk system node job)
    (ends : CallEnds system job response)
    (received : job.receive errno (system.log node) response = some after) :
    JobOk system node after := by
  cases job with
  | submit task =>
    obtain ⟨phase, taken, rfl⟩ := Option.map_eq_some_iff.mp received
    have kept : PhaseOk system node task phase := submitReceive_ok vouched fine.2 ends taken
    refine ⟨fine.1, ?_⟩
    cases phase <;> exact kept
  | recover task =>
    obtain ⟨phase, taken, rfl⟩ := Option.map_eq_some_iff.mp received
    have kept : RecoverOk system task.member phase := recoverReceive_ok vouched fine ends taken
    exact kept
  | broadcast task =>
    obtain ⟨phase, taken, rfl⟩ := Option.map_eq_some_iff.mp received
    trivial

end TaskSteps

end SuperPeerNet
