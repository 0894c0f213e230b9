/-
This file models the functions of `c4_cluster.c` that make remote calls as tasks
which can be interrupted: `c4_cluster_submit`, `c4_recover_from_member` and
`c4_broadcast_log`. None of them holds a lock while it runs, so a task stops before
each call on the log and before and after each remote call, and the calls of other
tasks and of the message handlers can come in between.

A task in a phase other than `await` takes its next step by itself. A task that
awaits the reply to a request goes on when the reply arrives or the call fails.
-/

import SuperPeerNet.Cluster.Handle

namespace SuperPeerNet

variable [Zlib] {Context : Type}

/-! ### Submitting an operation -/

/-- The rounds of remote calls of `c4_cluster_submit`: the votes, the decision either way, and
the commits that a retransmission repeats. -/
inductive SubmitRound where
  | prepare (wire : List UInt8)
  | commit
  | abort
  | resend
  deriving DecidableEq

/-- The message type of a round. -/
def SubmitRound.messageType : SubmitRound → MessageType
  | .prepare _ => .prepare
  | .commit | .resend => .commit
  | .abort => .abort

/-- The payload of a round. -/
def SubmitRound.payload : SubmitRound → List UInt8
  | .prepare wire => wire
  | .commit | .abort | .resend => []

/-- Where `c4_cluster_submit` is. In a round, `ok` is `prepare_ok` and `acknowledgements`
counts the acknowledged calls and, in a retransmission, the local node. -/
inductive SubmitPhase where
  | lookup
  | readIndex
  | readVersion (index : UInt64)
  | prepare (entry : C4LogEntry)
  | call (round : SubmitRound) (remaining : List NodeID) (ok : Bool) (acknowledgements : Nat)
  | await (round : SubmitRound) (request : Message) (remaining : List NodeID) (ok : Bool)
      (acknowledgements : Nat)
  | commit
  | abort
  | returned (result : Except Errno Unit)
  deriving DecidableEq

/-- One execution of `c4_cluster_submit`, past its first checks: its arguments, the live super
peers that it captured, and its phase. -/
@[ext] structure SubmitTask where
  transactionId : TransactionId
  operation : List UInt8
  operationBound : operation.length < 2 ^ 32
  participants : List NodeID
  expectedReplicas : Nat
  phase : SubmitPhase

instance : DecidableEq SubmitTask := fun _ _ => decidable_of_iff _ SubmitTask.ext_iff.symm

/-- The operation that is replicated: the owner, followed by the announcement. -/
def c4Operation (owner : NodeID) (payload : List UInt8) : List UInt8 := owner.toList ++ payload

/-- The checks of `c4_cluster_submit` before its first call on the log. -/
def c4ClusterSubmit (cluster : C4Cluster Context) (id : TransactionId) (owner : NodeID)
    (payload : List UInt8) : Except Errno SubmitTask :=
  if valid : payload ≠ [] ∧ payload.length ≤ maxPayloadSize - nodeIdSize then
    if ¬ c4ClusterIsLeader cluster then .error .ehostunreach
    else .ok
      { transactionId := id
        operation := c4Operation owner payload
        operationBound := by
          have small := valid.2
          rw [c4Operation, List.length_append, length_nodeID]
          unfold maxPayloadSize nodeIdSize at small
          omega
        participants := c4AliveSuperpeers cluster
        expectedReplicas := c4CountLiveSuperpeers cluster
        phase := .lookup }
  else .error .einval

/-- What an accepted submission starts with. -/
structure SubmitTask.Begun (task : SubmitTask) (cluster : C4Cluster Context) (id : TransactionId)
    (owner : NodeID) (payload : List UInt8) : Prop where
  id : task.transactionId = id
  operation : task.operation = c4Operation owner payload
  participants : task.participants = c4AliveSuperpeers cluster
  replicas : task.expectedReplicas = task.participants.length + 1
  phase : task.phase = .lookup

omit [Zlib] in
theorem begun_of_c4ClusterSubmit {cluster : C4Cluster Context} {id : TransactionId}
    {owner : NodeID} {payload : List UInt8} {task : SubmitTask}
    (accepted : c4ClusterSubmit cluster id owner payload = .ok task) :
    task.Begun cluster id owner payload := by
  unfold c4ClusterSubmit at accepted
  split at accepted
  · split at accepted
    · cases accepted
    · cases accepted
      refine ⟨rfl, rfl, rfl, ?_, rfl⟩
      simp [c4CountLiveSuperpeers, c4AliveSuperpeers, Nat.add_comm]
  · cases accepted

namespace SubmitTask

/-- Where a round of calls leads to. -/
def afterRound (task : SubmitTask) (errno : Errno) (round : SubmitRound) (ok : Bool)
    (acknowledgements : Nat) : SubmitPhase :=
  match round with
  | .prepare _ =>
    if ok = false ∨ task.participants.length + 1 ≠ task.expectedReplicas then .abort else .commit
  | .commit => .returned (if ok then .ok () else .error .ehostunreach)
  | .abort => .returned (.error errno)
  | .resend =>
    .returned (if acknowledgements ≠ task.expectedReplicas then .error .ehostunreach else .ok ())

/-- The request of a round to a participant. -/
def request (task : SubmitTask) (source : NodeID) (round : SubmitRound) (destination : NodeID) :
    Message where
  messageType := round.messageType
  sourceNode := source
  destinationNode := destination
  transactionId := task.transactionId
  payload := round.payload

/-- The next step of a task that does not await a reply: the new state of the node, the new
phase, and the request it sends, if any. -/
def step (apply : C4ApplyEntry Context) (errno : Errno) (cluster : C4Cluster Context)
    (task : SubmitTask) : Option (C4Cluster Context × SubmitPhase × Option Message) :=
  match task.phase with
  | .lookup => match c4LogGetTransaction cluster.log task.transactionId with
    | .ok entry =>
      if entry.payload = task.operation then
        some (cluster, .call .resend task.participants true 1, none)
      else some (cluster, .returned (.error .eexist), none)
    | .error code =>
      if code ≠ .enoent then some (cluster, .returned (.error code), none)
      else some (cluster, .readIndex, none)
  | .readIndex => some (cluster, .readVersion (c4LogLastIndex cluster.log + 1), none)
  | .readVersion index =>
    some (cluster, .prepare (C4LogEntry.build index (c4LogLastVersion cluster.log + 1)
      task.transactionId task.operation task.operationBound), none)
  | .prepare entry => match c4LogPrepare cluster.log entry with
    | (log, .error code) => some ({ cluster with log := log }, .returned (.error code), none)
    | (log, .ok ()) => match c4LogEntryEncode entry with
      | .error code => some ({ cluster with log := log }, .returned (.error code), none)
      | .ok wire =>
        some ({ cluster with log := log }, .call (.prepare wire) task.participants true 0, none)
  | .call round [] ok acknowledgements =>
    some (cluster, task.afterRound errno round ok acknowledgements, none)
  | .call round (destination :: remaining) ok acknowledgements =>
    let request := task.request cluster.localId round destination
    some (cluster, .await round request remaining ok acknowledgements, some request)
  | .commit => match commitAndApply apply cluster task.transactionId with
    | (after, .error code) => some (after, .returned (.error code), none)
    | (after, .ok ()) => some (after, .call .commit task.participants true 0, none)
  | .abort =>
    some ({ cluster with log := (c4LogAbort cluster.log task.transactionId).1 },
      .call .abort task.participants true 0, none)
  | .await _ _ _ _ _ => none
  | .returned _ => none

/-- Whether a remote call has been answered with an `M_ACK`. -/
def acknowledged : Except Errno Message → Bool
  | .ok reply => decide (reply.messageType = .ack)
  | .error _ => false

/-- What a task makes of the end of its remote call: only an `M_ACK` counts. -/
def receive (task : SubmitTask) (response : Except Errno Message) : Option SubmitPhase :=
  match task.phase with
  | .await round _ remaining ok acknowledgements =>
    some (.call round remaining (ok && acknowledged response)
      (if acknowledged response then acknowledgements + 1 else acknowledgements))
  | _ => none

end SubmitTask

/-! ### Recovering from a member -/

/-- Where `c4_recover_from_member` is. -/
inductive RecoverPhase where
  | readIndex
  | readVersion (index : UInt64)
  | call (index version : UInt64)
  | await (request : Message) (index version : UInt64)
  | append (entry : C4LogEntry) (rest : List C4LogEntry)
  | returned (result : Except Errno Unit)
  deriving DecidableEq

/-- One execution of `c4_recover_from_member`. -/
structure RecoverTask where
  member : NodeID
  phase : RecoverPhase
  deriving DecidableEq

namespace RecoverTask

/-- The phase in which a page is appended. A page without entries ends the recovery. -/
def afterPage : List C4LogEntry → RecoverPhase
  | [] => .returned (.ok ())
  | entry :: rest => .append entry rest

/-- The phase after an entry has been appended and applied. -/
def afterEntry (entry : C4LogEntry) : List C4LogEntry → RecoverPhase
  | [] => .call entry.index entry.version
  | next :: rest => .append next rest

/-- The next step of a recovery that does not await a reply. -/
def step (apply : C4ApplyEntry Context) (generated : TransactionId) (cluster : C4Cluster Context)
    (task : RecoverTask) : Option (C4Cluster Context × RecoverPhase × Option Message) :=
  match task.phase with
  | .readIndex => some (cluster, .readVersion (c4LogLastIndex cluster.log), none)
  | .readVersion index => some (cluster, .call index (c4LogLastVersion cluster.log), none)
  | .call index version =>
    let request : Message :=
      { messageType := .istRequest
        sourceNode := cluster.localId
        destinationNode := task.member
        transactionId := generated
        payload := istCursor index version }
    some (cluster, .await request index version, some request)
  | .append entry rest => match appendAndApply apply cluster entry with
    | (after, .error code) => some (after, .returned (.error code), none)
    | (after, .ok ()) => some (after, afterEntry entry rest, none)
  | .await _ _ _ => none
  | .returned _ => none

/-- What a recovery makes of the end of its remote call. The page is validated against the log
at this moment; the source looks up the transactions one by one, and a page that it accepts
had none of them in the log at the start either. -/
def receive (log : C4Log) (task : RecoverTask) (response : Except Errno Message) :
    Option RecoverPhase :=
  match task.phase with
  | .await _ index version => match response with
    | .error code => some (.returned (.error code))
    | .ok reply => match istReceive log index version reply with
      | .error code => some (.returned (.error code))
      | .ok entries => some (afterPage entries)
  | _ => none

end RecoverTask

/-! ### Broadcasting the log -/

/-- Where `c4_broadcast_log` is: the members still to serve and the next index for the first
of them. -/
inductive BroadcastPhase where
  | call (members : List NodeID) (index : UInt64)
  | await (request : Message) (members : List NodeID) (index : UInt64)
  | returned (result : Except Errno Unit)
  deriving DecidableEq

/-- One execution of `c4_broadcast_log`, with the last index that it read. -/
structure BroadcastTask where
  lastIndex : UInt64
  phase : BroadcastPhase
  deriving DecidableEq

namespace BroadcastTask

/-- The next step of a broadcast that does not await a reply. -/
def step (generated : TransactionId) (cluster : C4Cluster Context) (task : BroadcastTask) :
    Option (BroadcastPhase × Option Message) :=
  match task.phase with
  | .call [] _ => some (.returned (.ok ()), none)
  | .call (destination :: members) index =>
    if index > task.lastIndex then some (.call members 1, none)
    else match c4LogGet cluster.log index with
      | .error code => some (.returned (.error code), none)
      | .ok entry => match c4LogEntryEncode entry with
        | .error code => some (.returned (.error code), none)
        | .ok wire =>
          let request : Message :=
            { messageType := .stateTransfer
              sourceNode := cluster.localId
              destinationNode := destination
              transactionId := generated
              payload := wire }
          some (.await request (destination :: members) index, some request)
  | .await _ _ _ => none
  | .returned _ => none

/-- What a broadcast makes of the end of its remote call. -/
def receive (errno : Errno) (task : BroadcastTask) (response : Except Errno Message) :
    Option BroadcastPhase :=
  match task.phase with
  | .await _ members index => match response with
    | .error code => some (.returned (.error code))
    | .ok reply =>
      if reply.messageType = .ack then some (.call members (index + 1))
      else some (.returned (.error errno))
  | _ => none

end BroadcastTask

end SuperPeerNet
