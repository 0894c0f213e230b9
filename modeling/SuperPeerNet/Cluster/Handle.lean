/-
This file models `c4_cluster_handle`, the function that answers every message
between super peers about the replicated log. Each branch is a definition of its
own; the function checks the destination and dispatches on the message type.

A branch that returns `-1` without setting `errno` replies with whatever the thread
had there before, which is the argument `errno`.
-/

import SuperPeerNet.Cluster.Ist

namespace SuperPeerNet

variable [Zlib] {Context : Type}

/-- What a handler leaves behind and what it answers. -/
abbrev Handled (Context : Type) := C4Cluster Context × Except Errno (MessageType × List UInt8)

/-- `memcmp(left, right) < 0`. -/
def nodeIdBelow (left right : NodeID) : Bool := left.toList < right.toList

/-- The `M_ELECTION` branch. -/
def handleElection (errno : Errno) (cluster : C4Cluster Context) (request : Message) :
    Handled Context :=
  if request.payload.length ≠ 24 then (cluster, .error errno)
  else match c4MemberIsLiveSuperpeer cluster request.sourceNode with
    | .error code => (cluster, .error code)
    | .ok _ =>
      if nodeIdBelow request.sourceNode cluster.localId then
        ({ cluster with electionRequested := true }, .ok (.ok, []))
      else (cluster, .ok (.ok, []))

/-- The `M_COORDINATOR` branch. A recovery that fails withdraws the acceptance, unless another
leader has been accepted meanwhile. -/
def handleCoordinator (errno : Errno)
    (recover : C4Cluster Context → SuperPeerMember → C4Cluster Context × Except Errno Unit)
    (cluster : C4Cluster Context) (request : Message) : Handled Context :=
  if request.payload.length ≠ 16 then (cluster, .error errno)
  else match c4MemberIsLiveSuperpeer cluster request.sourceNode with
    | .error code => (cluster, .error code)
    | .ok member =>
      let term := wireGetU64 request.payload
      if term < cluster.term ∨ nodeIdBelow request.sourceNode cluster.localId then
        (cluster, .error .estale)
      else
        let accepted := { cluster with
          term := term
          leader := request.sourceNode
          electionRequested := false
          electionWaiting := false }
        match recover accepted member with
        | (after, .ok ()) => (after, .ok (.ack, []))
        | (after, .error code) =>
          (if after.leader = request.sourceNode then { after with leader := zeroNodeId } else after,
            .error code)

/-- The `M_SNAPSHOT` branch. -/
def handleSnapshot (errno : Errno) (cluster : C4Cluster Context) (request : Message) :
    Except Errno (MessageType × List UInt8) :=
  if request.payload.length ≠ 8 then .error errno
  else match c4MemberIsLiveSuperpeer cluster request.sourceNode with
    | .error code => .error code
    | .ok _ => match c4LogGet cluster.log (wireGetU64 request.payload) with
      | .ok entry => (c4LogEntryEncode entry).map fun encoded => (.ack, encoded)
      | .error .enoent => .ok (.ack, [])
      | .error code => .error code

/-- The `M_STATE_TRANSFER` branch. -/
def handleStateTransfer (apply : C4ApplyEntry Context) (cluster : C4Cluster Context)
    (request : Message) : Handled Context :=
  if cluster.leader = zeroNodeId ∨ cluster.leader ≠ request.sourceNode then
    (cluster, .error .eacces)
  else match c4MemberIsLiveSuperpeer cluster request.sourceNode with
    | .error code => (cluster, .error code)
    | .ok _ => match c4LogEntryDecode request.payload with
      | .error code => (cluster, .error code)
      | .ok entry => match appendAndApply apply cluster entry with
        | (after, .error code) => (after, .error code)
        | (after, .ok ()) => (after, .ok (.ack, []))

/-- The `M_PREPARE` branch. A foreign transaction id leaves `errno` as it was. -/
def handlePrepare (errno : Errno) (cluster : C4Cluster Context) (request : Message) :
    Handled Context :=
  match c4SourceIsActiveLeader cluster request.sourceNode with
  | .error code => (cluster, .error code)
  | .ok () => match c4LogEntryDecode request.payload with
    | .error code => (cluster, .error code)
    | .ok entry =>
      if entry.transactionId ≠ request.transactionId then (cluster, .error errno)
      else match c4LogPrepare cluster.log entry with
        | (log, .error code) => ({ cluster with log := log }, .error code)
        | (log, .ok ()) => ({ cluster with log := log }, .ok (.ack, []))

/-- The `M_ABORT` branch. -/
def handleAbort (errno : Errno) (cluster : C4Cluster Context) (request : Message) :
    Handled Context :=
  if request.payload ≠ [] then (cluster, .error errno)
  else match c4SourceIsActiveLeader cluster request.sourceNode with
    | .error code => (cluster, .error code)
    | .ok () => match c4LogAbort cluster.log request.transactionId with
      | (log, .error code) => ({ cluster with log := log }, .error code)
      | (log, .ok ()) => ({ cluster with log := log }, .ok (.ack, []))

/-- `c4_log_commit` followed by `c4_apply_new_entry`, as the `M_COMMIT` branch and
`c4_cluster_submit` call them. -/
def commitAndApply (apply : C4ApplyEntry Context) (cluster : C4Cluster Context)
    (id : TransactionId) : C4Cluster Context × Except Errno Unit :=
  match c4LogCommit cluster.log id with
  | (log, .error code) => ({ cluster with log := log }, .error code)
  | (log, .ok entry) => c4ApplyNewEntry apply { cluster with log := log } entry

/-- The `M_COMMIT` branch. -/
def handleCommit (errno : Errno) (apply : C4ApplyEntry Context) (cluster : C4Cluster Context)
    (request : Message) : Handled Context :=
  if request.payload ≠ [] then (cluster, .error errno)
  else match c4SourceIsActiveLeader cluster request.sourceNode with
    | .error code => (cluster, .error code)
    | .ok () => match commitAndApply apply cluster request.transactionId with
      | (after, .error code) => (after, .error code)
      | (after, .ok ()) => (after, .ok (.ack, []))

/-- `c4_cluster_handle`. -/
def c4ClusterHandle (errno : Errno) (apply : C4ApplyEntry Context)
    (recover : C4Cluster Context → SuperPeerMember → C4Cluster Context × Except Errno Unit)
    (cluster : C4Cluster Context) (request : Message) : Handled Context :=
  if request.destinationNode ≠ cluster.localId then (cluster, .error .ehostunreach)
  else match request.messageType with
    | .election => handleElection errno cluster request
    | .coordinator => handleCoordinator errno recover cluster request
    | .istRequest => (cluster, handleIstRequest errno cluster request)
    | .snapshot => (cluster, handleSnapshot errno cluster request)
    | .stateTransfer => handleStateTransfer apply cluster request
    | .prepare => handlePrepare errno cluster request
    | .commit => handleCommit errno apply cluster request
    | .abort => handleAbort errno cluster request
    | _ => (cluster, .error .enotsup)

end SuperPeerNet
