/-
This file models the election of a coordinator: `c4_cluster_tick`, `c4_become_coordinator` and
`c4_broadcast_coordinator`, with the two branches of `c4_cluster_handle` that answer them.

A tick holds the lock of the cluster for a few short sections only. In between it asks every live
super peer with a greater id, and if none of them answers, it recovers from the others, proclaims
the node and tells them. The tick is a task that stops before each section and before and after
each remote call, and a proclamation that a node has accepted stays under way until the recovery
that it starts has ended. So the steps of any number of ticks and handlers interleave, requests
are handled late, several times or never, and replies get lost. Tables of members and logs change
at any time, nodes restart at any time, and how a recovery ends is chosen by the step that ends it.
-/

import SuperPeerNet.Chord.State
import SuperPeerNet.Cluster.Create
import SuperPeerNet.Cluster.System

namespace SuperPeerNet

variable {Context : Type}

/-! ### The order of the ids -/

theorem memcmp_eq_lt {left right : List UInt8} (length : left.length = right.length) :
    memcmp left right = .lt ↔ left < right := by
  induction left generalizing right with
  | nil =>
    rw [List.length_eq_zero_iff.mp length.symm]
    exact iff_of_false (by rintro ⟨⟩) (List.lt_irrefl _)
  | cons head rest inductionHypothesis =>
    cases right with
    | nil => cases length
    | cons other others =>
      rw [memcmp, List.cons_lt_cons_iff, ← inductionHypothesis (Nat.succ.inj length)]
      by_cases less : head < other
      · rw [if_pos less]
        exact iff_of_true rfl (Or.inl less)
      · rw [if_neg less]
        by_cases greater : other < head
        · rw [if_pos greater]
          refine iff_of_false (by rintro ⟨⟩) ?_
          rintro (wrong | ⟨same, -⟩)
          · exact less wrong
          · exact UInt8.ne_of_lt greater same.symm
        · rw [if_neg greater]
          have same : head = other :=
            UInt8.le_antisymm (UInt8.not_lt.mp greater) (UInt8.not_lt.mp less)
          exact ⟨fun rest => Or.inr ⟨same, rest⟩, fun either => (either.resolve_left less).2⟩

/-- An id is below another one if its position on the ring is. -/
theorem nodeIdBelow_iff {left right : NodeID} :
    nodeIdBelow left right = true ↔ position left < position right := by
  have length : left.toList.length = right.toList.length :=
    (Octets.length_toList left).trans (Octets.length_toList right).symm
  rw [nodeIdBelow, decide_eq_true_iff, ← memcmp_eq_lt length]
  show nodeIdCompare left right = .lt ↔ _
  rw [nodeIdCompare_eq, Nat.compare_eq_lt]

theorem nodeIdBelow_eq_false {left right : NodeID} :
    nodeIdBelow left right = false ↔ position right ≤ position left := by
  rw [← Bool.not_eq_true, nodeIdBelow_iff, not_lt]

theorem nodeIdBelow_self (id : NodeID) : nodeIdBelow id id = false :=
  nodeIdBelow_eq_false.mpr le_rfl

/-! ### The sections under the lock -/

/-- `C4_ELECTION_RETRY_MS`. -/
def c4ElectionRetryMs : Int := 1500

/-- The condition under which the tick asks a member: a live super peer with a greater id. -/
def isHigherSuperpeer (cluster : C4Cluster Context) (member : SuperPeerMember) : Bool :=
  member.role = .superPeer && member.state.belowFailed && nodeIdBelow cluster.localId member.id

/-- Whether the leader is another node that the table does not list as alive. -/
def leaderLost (cluster : C4Cluster Context) : Bool :=
  cluster.leader ≠ zeroNodeId && cluster.leader ≠ cluster.localId &&
    match superpeerFindMember cluster.members cluster.leader with
    | .error _ => true
    | .ok member => !member.state.belowFailed

/-- The tick drops a leader that has been lost. -/
def dropLostLeader (cluster : C4Cluster Context) : C4Cluster Context :=
  if leaderLost cluster then { cluster with leader := zeroNodeId, electionRequested := true }
  else cluster

/-- A coordinator that sees a live super peer with a greater id requests an election. -/
def yieldToHigher (members : List SuperPeerMember) (cluster : C4Cluster Context) :
    C4Cluster Context :=
  if cluster.leader = cluster.localId ∧ members.any (isHigherSuperpeer cluster) then
    { cluster with electionRequested := true }
  else cluster

/-- An election that has waited for too long is requested again. -/
def retryElection (now : Int) (cluster : C4Cluster Context) : C4Cluster Context :=
  if cluster.electionWaiting ∧ now - cluster.electionStartedMs ≥ c4ElectionRetryMs then
    { cluster with electionWaiting := false, electionRequested := true }
  else cluster

/-- The first section of `c4_cluster_tick`, with the snapshot of the members that was taken before
it. Afterwards `election_requested` says whether there is an election. -/
def tickChecks (now : Int) (members : List SuperPeerMember) (cluster : C4Cluster Context) :
    C4Cluster Context :=
  retryElection now (yieldToHigher members (dropLostLeader cluster))

theorem dropLostLeader_kept (cluster : C4Cluster Context) :
    (dropLostLeader cluster).localId = cluster.localId ∧
      (dropLostLeader cluster).term = cluster.term ∧
      ((dropLostLeader cluster).leader = cluster.leader ∨
        (dropLostLeader cluster).leader = zeroNodeId) := by
  unfold dropLostLeader
  split
  · exact ⟨rfl, rfl, Or.inr rfl⟩
  · exact ⟨rfl, rfl, Or.inl rfl⟩

theorem yieldToHigher_kept (members : List SuperPeerMember) (cluster : C4Cluster Context) :
    (yieldToHigher members cluster).localId = cluster.localId ∧
      (yieldToHigher members cluster).term = cluster.term ∧
      (yieldToHigher members cluster).leader = cluster.leader := by
  unfold yieldToHigher
  split
  · exact ⟨rfl, rfl, rfl⟩
  · exact ⟨rfl, rfl, rfl⟩

theorem retryElection_kept (now : Int) (cluster : C4Cluster Context) :
    (retryElection now cluster).localId = cluster.localId ∧
      (retryElection now cluster).term = cluster.term ∧
      (retryElection now cluster).leader = cluster.leader := by
  unfold retryElection
  split
  · exact ⟨rfl, rfl, rfl⟩
  · exact ⟨rfl, rfl, rfl⟩

theorem tickChecks_kept (now : Int) (members : List SuperPeerMember)
    (cluster : C4Cluster Context) :
    (tickChecks now members cluster).localId = cluster.localId ∧
      (tickChecks now members cluster).term = cluster.term ∧
      ((tickChecks now members cluster).leader = cluster.leader ∨
        (tickChecks now members cluster).leader = zeroNodeId) := by
  obtain ⟨dropId, dropTerm, dropLeader⟩ := dropLostLeader_kept cluster
  obtain ⟨yieldId, yieldTerm, yieldLeader⟩ := yieldToHigher_kept members (dropLostLeader cluster)
  obtain ⟨retryId, retryTerm, retryLeader⟩ :=
    retryElection_kept now (yieldToHigher members (dropLostLeader cluster))
  refine ⟨retryId.trans (yieldId.trans dropId), retryTerm.trans (yieldTerm.trans dropTerm), ?_⟩
  rw [tickChecks, retryLeader, yieldLeader]
  exact dropLeader

/-- The section after a node with a greater id has answered. -/
def awaitHigher (now : Int) (cluster : C4Cluster Context) : C4Cluster Context :=
  { cluster with electionWaiting := true, electionRequested := false, electionStartedMs := now }

/-- The section after a recovery has found that the logs diverge. -/
def suspendElection (now : Int) (cluster : C4Cluster Context) : C4Cluster Context :=
  { cluster with electionRequested := true, electionWaiting := true, electionStartedMs := now }

/-- The section in which `c4_become_coordinator` makes the node the leader. -/
def proclaim (cluster : C4Cluster Context) : C4Cluster Context :=
  { cluster with
    term := cluster.term + 1
    leader := cluster.localId
    electionWaiting := false
    electionRequested := false }

/-- The `M_COORDINATOR` branch up to its recovery. -/
def acceptCoordinator (errno : Errno) (cluster : C4Cluster Context) (request : Message) :
    Except Errno (C4Cluster Context × SuperPeerMember) :=
  if request.payload.length ≠ 16 then .error errno
  else match c4MemberIsLiveSuperpeer cluster request.sourceNode with
    | .error code => .error code
    | .ok member =>
      if wireGetU64 request.payload < cluster.term ∨
          nodeIdBelow request.sourceNode cluster.localId then .error .estale
      else .ok ({ cluster with
        term := wireGetU64 request.payload
        leader := request.sourceNode
        electionRequested := false
        electionWaiting := false }, member)

/-- The `M_COORDINATOR` branch after its recovery. -/
def finishCoordinator (cluster : C4Cluster Context) (request : Message)
    (outcome : Except Errno Unit) : C4Cluster Context :=
  match outcome with
  | .ok () => cluster
  | .error _ =>
    if cluster.leader = request.sourceNode then { cluster with leader := zeroNodeId } else cluster

/-- The two halves are the whole branch. -/
theorem handleCoordinator_eq (errno : Errno)
    (recover : C4Cluster Context → SuperPeerMember → C4Cluster Context × Except Errno Unit)
    (cluster : C4Cluster Context) (request : Message) :
    handleCoordinator errno recover cluster request =
      match acceptCoordinator errno cluster request with
      | .error code => (cluster, .error code)
      | .ok (accepted, member) =>
        (finishCoordinator (recover accepted member).1 request (recover accepted member).2,
          (recover accepted member).2.map fun _ => (.ack, [])) := by
  unfold handleCoordinator acceptCoordinator
  by_cases size : request.payload.length ≠ 16
  · rw [if_pos size, if_pos size]
  rw [if_neg size, if_neg size]
  cases c4MemberIsLiveSuperpeer cluster request.sourceNode with
  | error code => rfl
  | ok member =>
    dsimp only
    split
    · rfl
    · dsimp only
      split
      · rename_i recovered
        rw [recovered]
        rfl
      · rename_i recovered
        rw [recovered]
        rfl

/-! ### The tick -/

/-- Where `c4_cluster_tick` is. `higher` is `higher_responded`. -/
inductive TickPhase where
  | checks
  | ask (remaining : List NodeID) (higher : Bool)
  | awaitAnswer (request : Message) (remaining : List NodeID) (higher : Bool)
  | recover (remaining : List NodeID)
  | suspend
  | proclaim
  | announce (term : UInt64)
  | tell (payload : List UInt8) (remaining : List NodeID)
  | awaitTold (request : Message) (payload : List UInt8) (remaining : List NodeID)
  | returned
  deriving DecidableEq

/-- One execution of `c4_cluster_tick`: the time that it read, its snapshot of the members, and its
phase. -/
structure TickTask where
  now : Int
  members : List SuperPeerMember
  phase : TickPhase
  deriving DecidableEq

/-- The payload of `M_ELECTION`. -/
def electionPayload (cluster : C4Cluster Context) : List UInt8 :=
  wirePutU64 cluster.term ++ (wirePutU64 (c4LogLastIndex cluster.log) ++
    wirePutU64 (c4LogLastVersion cluster.log))

/-- The payload of `M_COORDINATOR`. -/
def coordinatorPayload (term : UInt64) (log : C4Log) : List UInt8 :=
  wirePutU64 term ++ wirePutU64 (c4LogLastIndex log)

theorem wireGetU64_coordinatorPayload (term : UInt64) (log : C4Log) :
    wireGetU64 (coordinatorPayload term log) = term := wireGetU64_wirePutU64 _ _

/-- A request of the election, with a transaction id of its own. -/
def electionRequest (generated : TransactionId) (source destination : NodeID)
    (messageType : MessageType) (payload : List UInt8) : Message where
  messageType := messageType
  sourceNode := source
  destinationNode := destination
  transactionId := generated
  payload := payload

/-- The errors of a recovery with which `c4_become_coordinator` gives up. -/
def logsDiverge : Except Errno Unit → Bool
  | .error .ebadmsg | .error .eexist | .error .erange => true
  | _ => false

namespace TickTask

/-- The members of the snapshot that the tick asks. -/
def higherMembers (cluster : C4Cluster Context) (task : TickTask) : List NodeID :=
  (task.members.filter (isHigherSuperpeer cluster)).map SuperPeerMember.id

/-- The members of the snapshot from which a coordinator recovers and which it tells. -/
def liveMembers (cluster : C4Cluster Context) (task : TickTask) : List NodeID :=
  (task.members.filter (isLiveSuperpeer cluster)).map SuperPeerMember.id

/-- The next step of a tick that does not await a reply: the state of the node, the new phase, and
the request it sends, if any. The argument `now` is the time that a suspended election reads, and
`outcome` is how a recovery ends. -/
def step (generated : TransactionId) (now : Int) (outcome : Except Errno Unit)
    (cluster : C4Cluster Context) (task : TickTask) :
    Option (C4Cluster Context × TickPhase × Option Message) :=
  match task.phase with
  | .checks =>
    let checked := tickChecks task.now task.members cluster
    some (checked, if checked.electionRequested then .ask (task.higherMembers cluster) false
      else .returned, none)
  | .ask [] higher =>
    if higher then some (awaitHigher task.now cluster, .returned, none)
    else some (cluster, .recover (task.liveMembers cluster), none)
  | .ask (member :: remaining) higher =>
    let request := electionRequest generated cluster.localId member .election
      (electionPayload cluster)
    some (cluster, .awaitAnswer request remaining higher, some request)
  | .recover [] => some (cluster, .proclaim, none)
  | .recover (_ :: remaining) =>
    some (cluster, if logsDiverge outcome then .suspend else .recover remaining, none)
  | .suspend => some (suspendElection now cluster, .returned, none)
  | .proclaim =>
    some (SuperPeerNet.proclaim cluster, .announce (SuperPeerNet.proclaim cluster).term, none)
  | .announce term =>
    some (cluster, .tell (coordinatorPayload term cluster.log) (task.liveMembers cluster), none)
  | .tell _ [] => some (cluster, .returned, none)
  | .tell payload (member :: remaining) =>
    let request := electionRequest generated cluster.localId member .coordinator payload
    some (cluster, .awaitTold request payload remaining, some request)
  | .awaitAnswer _ _ _ | .awaitTold _ _ _ | .returned => none

/-- The request whose reply a tick awaits. -/
def awaited (task : TickTask) : Option Message :=
  match task.phase with
  | .awaitAnswer request _ _ | .awaitTold request _ _ => some request
  | _ => none

/-- What a tick makes of the end of its remote call. Only an `M_OK` counts as an answer, and what
the members say to a proclamation does not matter. -/
def receive (task : TickTask) (response : Except Errno Message) : Option TickPhase :=
  match task.phase with
  | .awaitAnswer _ remaining higher =>
    some (.ask remaining (higher || match response with
      | .ok reply => decide (reply.messageType = .ok)
      | .error _ => false))
  | .awaitTold _ payload remaining => some (.tell payload remaining)
  | _ => none

end TickTask

/-! ### The super peers of a run -/

/-- The super peers of a run: their states, the ticks under way with the node each of them runs on,
the accepted proclamations whose recoveries are under way, what has been sent, and which node has
proclaimed itself in which term. -/
structure Electorate (Context : Type) where
  cluster : NodeID → C4Cluster Context
  ticks : List (NodeID × TickTask)
  accepting : List Message
  network : List Packet
  proclaimed : List (NodeID × UInt64)

/-- A cluster that has just been created from a log that was opened. -/
def C4Cluster.created (localId : NodeID) (members : List SuperPeerMember) (log : C4Log)
    (context : Context) : C4Cluster Context where
  localId := localId
  members := members
  log := log
  context := context
  leader := zeroNodeId
  term := 0
  electionRequested := true
  electionWaiting := false
  electionStartedMs := 0

/-- What `c4_cluster_create` returns is such a cluster. -/
theorem exists_created_of_c4ClusterCreate [Zlib] {localId : NodeID}
    {members : List SuperPeerMember} {apply : C4ApplyEntry Context} {context : Context}
    {file journal : List UInt8} {cluster : C4Cluster Context}
    (made : c4ClusterCreate localId members apply context file journal = .ok cluster) :
    ∃ log applied, cluster = .created localId members log applied := by
  unfold c4ClusterCreate at made
  cases opened : c4LogOpen file journal with
  | error code =>
    rw [opened] at made
    cases made
  | ok log =>
    rw [opened] at made
    dsimp only at made
    split at made
    · cases made
    · cases made
      exact ⟨_, _, rfl⟩

/-- Every node has just been created, and nothing has been sent. -/
structure Electorate.Initial (electorate : Electorate Context) : Prop where
  created : ∀ node, ∃ members log context,
    electorate.cluster node = .created node members log context
  ticks : electorate.ticks = []
  accepting : electorate.accepting = []
  network : electorate.network = []
  proclaimed : electorate.proclaimed = []

/-- What can happen in one step. -/
inductive ElectionAction (Context : Type) where
  /-- The table of members of a node changes. -/
  | members (node : NodeID) (members : List SuperPeerMember)
  /-- The log of a node changes, and what has been applied of it. -/
  | progress (node : NodeID) (log : C4Log) (context : Context)
  | restart (node : NodeID) (members : List SuperPeerMember) (log : C4Log) (context : Context)
  | tick (node : NodeID) (now : Int)
  | run (index : Nat) (generated : TransactionId) (now : Int) (outcome : Except Errno Unit)
  | reply (index : Nat) (reply : Message)
  | fail (index : Nat) (code : Errno)
  | deliver (request : Message) (errno : Errno)
  | finish (index : Nat) (outcome : Except Errno Unit)

namespace Electorate

/-- Put a node into a new state. -/
def withCluster (electorate : Electorate Context) (node : NodeID) (cluster : C4Cluster Context) :
    Electorate Context :=
  { electorate with cluster := Function.update electorate.cluster node cluster }

/-- Put a tick into a new phase. -/
def withPhase (electorate : Electorate Context) (index : Nat) (node : NodeID) (task : TickTask)
    (phase : TickPhase) : Electorate Context :=
  { electorate with ticks := electorate.ticks.set index (node, { task with phase := phase }) }

/-- Send a reply. -/
def withReply (electorate : Electorate Context) (request : Message)
    (outcome : Except Errno (MessageType × List UInt8)) : Electorate Context :=
  { electorate with network := electorate.network ++
      ((answer request.destinationNode request outcome).toList.map (.response request)) }

/-- What the next step of a tick does to the electorate. -/
def afterStep (electorate : Electorate Context) (index : Nat) (node : NodeID) (task : TickTask)
    (result : C4Cluster Context × TickPhase × Option Message) : Electorate Context where
  cluster := Function.update electorate.cluster node result.1
  ticks := electorate.ticks.set index (node, { task with phase := result.2.1 })
  accepting := electorate.accepting
  network := electorate.network ++ result.2.2.toList.map .request
  proclaimed := electorate.proclaimed ++
    if task.phase = .proclaim then [(node, result.1.term)] else []

/-- The state that an action leads to, if it can be taken. -/
def step (electorate : Electorate Context) : ElectionAction Context → Option (Electorate Context)
  | .members node members =>
    some (electorate.withCluster node { electorate.cluster node with members := members })
  | .progress node log context =>
    some (electorate.withCluster node
      { electorate.cluster node with log := log, context := context })
  | .restart node members log context =>
    some { electorate.withCluster node (.created node members log context) with
      ticks := electorate.ticks.filter fun task => task.1 ≠ node
      accepting := electorate.accepting.filter fun request => request.destinationNode ≠ node }
  | .tick node now =>
    some { electorate with
      ticks := electorate.ticks ++ [(node, ⟨now, (electorate.cluster node).members, .checks⟩)] }
  | .run index generated now outcome => do
    let (node, task) ← electorate.ticks[index]?
    let result ← task.step generated now outcome (electorate.cluster node)
    some (electorate.afterStep index node task result)
  | .reply index reply => do
    let (node, task) ← electorate.ticks[index]?
    let request ← task.awaited
    if .response request reply ∈ electorate.network then
      let phase ← task.receive (rpcCallWithTransaction (fun _ => some reply) request)
      some (electorate.withPhase index node task phase)
    else none
  | .fail index code => do
    let (node, task) ← electorate.ticks[index]?
    let phase ← task.receive (.error code)
    some (electorate.withPhase index node task phase)
  | .deliver request errno =>
    if .request request ∈ electorate.network then
      let cluster := electorate.cluster request.destinationNode
      if request.messageType = .election then
        let handled := handleElection errno cluster request
        some ((electorate.withCluster request.destinationNode handled.1).withReply request handled.2)
      else match acceptCoordinator errno cluster request with
        | .error code => some (electorate.withReply request (.error code))
        | .ok (accepted, _) =>
          some { electorate.withCluster request.destinationNode accepted with
            accepting := electorate.accepting ++ [request] }
    else none
  | .finish index outcome => do
    let request ← electorate.accepting[index]?
    let finished := finishCoordinator (electorate.cluster request.destinationNode) request outcome
    some ({ electorate.withCluster request.destinationNode finished with
      accepting := electorate.accepting.eraseIdx index }.withReply request
        (outcome.map fun _ => (.ack, [])))

/-- Anything may happen. -/
def anything (_ : Electorate Context) (_ : ElectionAction Context) : Prop := True

instance (electorate : Electorate Context) (action : ElectionAction Context) :
    Decidable (anything electorate action) := inferInstanceAs (Decidable True)

end Electorate

end SuperPeerNet
