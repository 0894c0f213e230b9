/-
This file puts the super peers of a run together: the state of every node, the tasks
that are under way, and the messages that have been sent.

A request stays in the network for good, so it can be handled late, out of order,
several times or never, and so can a reply reach a task late or not at all. A reply
is kept with the request it answers: `rpc_call_with_transaction` reads it from the
connection on which it has sent the request. Elections and the failure detector are
not followed: any node may take any node for its leader at any time, and its table of
members may change at any time. The recovery that accepting a coordinator starts is a
task of its own, which any node may begin at any time, so the handler leaves it out.

The callback of a node records what it has applied. Whether a call of it succeeds is
chosen by the action that makes it, so that every callback is covered.
-/

import Mathlib.Logic.Function.Basic
import SuperPeerNet.Library.Transition
import SuperPeerNet.Cluster.Tasks

namespace SuperPeerNet

variable [Zlib]

/-! ### States -/

/-- The entries that a node has applied. -/
abbrev Applied := List C4LogEntry

/-- A callback with a given outcome that records the entries it accepts. -/
def recordApply (outcome : Except Errno Unit) : C4ApplyEntry Applied := fun applied entry =>
  match outcome with
  | .ok () => (applied ++ [entry], .ok ())
  | .error code => (applied, .error code)

/-- What a task executes. -/
inductive Job where
  | submit (task : SubmitTask)
  | recover (task : RecoverTask)
  | broadcast (task : BroadcastTask)
  deriving DecidableEq

/-- A task and the node it runs on. -/
structure Task where
  node : NodeID
  job : Job
  deriving DecidableEq

/-- A message that has been sent: a request, or the reply to one. -/
inductive Packet where
  | request (message : Message)
  | response (request reply : Message)
  deriving DecidableEq

/-- The super peers of a run. -/
structure System where
  cluster : NodeID → C4Cluster Applied
  tasks : List Task
  network : List Packet

/-- The log of a node. -/
def System.log (system : System) (node : NodeID) : C4Log := (system.cluster node).log

/-- Nothing has happened yet: the logs are empty and nothing is under way. Leaders and tables
of members may be anything. -/
structure System.Initial (system : System) : Prop where
  identity : ∀ node, (system.cluster node).localId = node
  log : ∀ node, (system.cluster node).log = C4Log.fresh
  applied : ∀ node, (system.cluster node).context = []
  tasks : system.tasks = []
  network : system.network = []

/-! ### Actions -/

/-- What can happen in one step. -/
inductive Action where
  | setLeader (node leader : NodeID)
  | setMembers (node : NodeID) (members : List SuperPeerMember)
  | submit (node : NodeID) (id : TransactionId) (owner : NodeID) (payload : List UInt8)
  | recover (node member : NodeID)
  | broadcast (node : NodeID)
  | run (task : Nat) (generated : TransactionId) (outcome : Except Errno Unit) (errno : Errno)
  | reply (task : Nat) (reply : Message) (errno : Errno)
  | fail (task : Nat) (code errno : Errno)
  | deliver (request : Message) (outcome : Except Errno Unit) (errno : Errno)

/-- The next step of a job. -/
def Job.step (apply : C4ApplyEntry Applied) (errno : Errno) (generated : TransactionId)
    (cluster : C4Cluster Applied) :
    Job → Option (C4Cluster Applied × Job × Option Message)
  | .submit task => (task.step apply errno cluster).map fun result =>
    (result.1, .submit { task with phase := result.2.1 }, result.2.2)
  | .recover task => (task.step apply generated cluster).map fun result =>
    (result.1, .recover { task with phase := result.2.1 }, result.2.2)
  | .broadcast task => (task.step generated cluster).map fun result =>
    (cluster, .broadcast { task with phase := result.1 }, result.2)

/-- The request whose reply a job awaits. -/
def Job.awaited : Job → Option Message
  | .submit task => match task.phase with
    | .await _ request _ _ _ => some request
    | _ => none
  | .recover task => match task.phase with
    | .await request _ _ => some request
    | _ => none
  | .broadcast task => match task.phase with
    | .await request _ _ => some request
    | _ => none

/-- A job after the end of its remote call. -/
def Job.receive (errno : Errno) (log : C4Log) (response : Except Errno Message) :
    Job → Option Job
  | .submit task => (task.receive response).map fun phase => .submit { task with phase := phase }
  | .recover task =>
    (task.receive log response).map fun phase => .recover { task with phase := phase }
  | .broadcast task =>
    (task.receive errno response).map fun phase => .broadcast { task with phase := phase }

namespace System

/-- Put a node into a new state. -/
def withCluster (system : System) (node : NodeID) (cluster : C4Cluster Applied) : System :=
  { system with cluster := Function.update system.cluster node cluster }

/-- Begin a task. -/
def withTask (system : System) (node : NodeID) (job : Job) : System :=
  { system with tasks := system.tasks ++ [⟨node, job⟩] }

/-- Put a task into a new state. -/
def withJob (system : System) (index : Nat) (node : NodeID) (job : Job) : System :=
  { system with tasks := system.tasks.set index ⟨node, job⟩ }

/-- Send packets. -/
def withPackets (system : System) (packets : List Packet) : System :=
  { system with network := system.network ++ packets }

section Parts

omit [Zlib]

variable (system : System) (index : Nat) (node : NodeID) (job : Job) (packets : List Packet)
  (cluster : C4Cluster Applied)

@[simp] theorem cluster_withTask : (system.withTask node job).cluster = system.cluster := rfl

@[simp] theorem cluster_withJob : (system.withJob index node job).cluster = system.cluster := rfl

@[simp] theorem cluster_withPackets : (system.withPackets packets).cluster = system.cluster := rfl

@[simp] theorem cluster_withCluster_self :
    (system.withCluster node cluster).cluster node = cluster := by
  simp [withCluster]

theorem cluster_withCluster_of_ne {other : NodeID} (different : other ≠ node) :
    (system.withCluster node cluster).cluster other = system.cluster other := by
  simp [withCluster, different]

end Parts

/-- The state that an action leads to, if it can be taken. -/
def step (system : System) : Action → Option System
  | .setLeader node leader =>
    some (system.withCluster node { system.cluster node with leader := leader })
  | .setMembers node members =>
    some (system.withCluster node { system.cluster node with members := members })
  | .submit node id owner payload =>
    match c4ClusterSubmit (system.cluster node) id owner payload with
    | .error _ => none
    | .ok task => some (system.withTask node (.submit task))
  | .recover node member => some (system.withTask node (.recover ⟨member, .readIndex⟩))
  | .broadcast node =>
    some (system.withTask node (.broadcast ⟨c4LogLastIndex (system.log node),
      .call (c4AliveSuperpeers (system.cluster node)) 1⟩))
  | .run index generated outcome errno => do
    let task ← system.tasks[index]?
    let (cluster, job, sent) ←
      task.job.step (recordApply outcome) errno generated (system.cluster task.node)
    some (((system.withCluster task.node cluster).withJob index task.node job).withPackets
      (sent.toList.map .request))
  | .reply index reply errno => do
    let task ← system.tasks[index]?
    let request ← task.job.awaited
    if .response request reply ∈ system.network then
      let job ← task.job.receive errno (system.log task.node)
        (rpcCallWithTransaction (fun _ => some reply) request)
      some (system.withJob index task.node job)
    else none
  | .fail index code errno => do
    let task ← system.tasks[index]?
    let job ← task.job.receive errno (system.log task.node) (.error code)
    some (system.withJob index task.node job)
  | .deliver request outcome errno =>
    if .request request ∈ system.network then
      let node := request.destinationNode
      let handled := c4ClusterHandle errno (recordApply outcome)
        (fun cluster _ => (cluster, .ok ())) (system.cluster node) request
      some ((system.withCluster node handled.1).withPackets
        ((answer node request handled.2).toList.map (.response request)))
    else none

end System

end SuperPeerNet
