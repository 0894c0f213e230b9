/-
This file models `struct C4Cluster` and the small functions of `c4_cluster.c` that
its handlers share: who counts as a live super peer, who is accepted as the
leader, how a committed entry reaches the application, and how a request is
answered over the network.

The application is the callback `apply` with its context. It is a parameter, as it
is in the source; a callback that is `NULL` is one that always succeeds.
-/

import SuperPeerNet.Membership
import SuperPeerNet.Log.Invariant

namespace SuperPeerNet

/-! ### The cluster of one super peer -/

/-- `C4ApplyEntry`: the callback changes its context and succeeds or fails. -/
abbrev C4ApplyEntry (Context : Type) := Context → C4LogEntry → Context × Except Errno Unit

/-- `struct C4Cluster`. The callback itself is an argument of the functions that call it. -/
structure C4Cluster (Context : Type) where
  localId : NodeID
  members : List SuperPeerMember
  log : C4Log
  context : Context
  leader : NodeID
  term : UInt64
  electionRequested : Bool
  electionWaiting : Bool
  electionStartedMs : Int
  deriving DecidableEq

/-- The all-zero id, which stands for no leader. -/
def zeroNodeId : NodeID := Octets.fill nodeIdSize 0

variable {Context : Type}

/-- The condition under which the loops over the members do not skip one: a super peer below
`FAILED` other than the local node. -/
def isLiveSuperpeer (cluster : C4Cluster Context) (member : SuperPeerMember) : Bool :=
  member.role = .superPeer && member.state.belowFailed && member.id != cluster.localId

/-- `membership_snapshot`, restricted to the members that the loops do not skip. -/
def c4AliveSuperpeers (cluster : C4Cluster Context) : List NodeID :=
  (cluster.members.filter (isLiveSuperpeer cluster)).map SuperPeerMember.id

/-- `c4_count_live_superpeers`, the local node included. -/
def c4CountLiveSuperpeers (cluster : C4Cluster Context) : Nat :=
  1 + (cluster.members.filter (isLiveSuperpeer cluster)).length

/-- `c4_member_is_live_superpeer`. -/
def c4MemberIsLiveSuperpeer (cluster : C4Cluster Context) (id : NodeID) :
    Except Errno SuperPeerMember :=
  match superpeerFindMember cluster.members id with
  | .error _ => .error .eacces
  | .ok member =>
    if member.role ≠ .superPeer ∨ member.state.belowFailed = false then .error .eacces
    else .ok member

/-- `c4_source_is_active_leader`. -/
def c4SourceIsActiveLeader (cluster : C4Cluster Context) (source : NodeID) : Except Errno Unit :=
  if cluster.leader = zeroNodeId ∨ cluster.leader ≠ source then .error .eacces
  else (c4MemberIsLiveSuperpeer cluster source).map fun _ => ()

/-- `c4_cluster_is_leader`. -/
def c4ClusterIsLeader (cluster : C4Cluster Context) : Bool := cluster.leader = cluster.localId

/-- `c4_apply_new_entry`. -/
def c4ApplyNewEntry (apply : C4ApplyEntry Context) (cluster : C4Cluster Context)
    (entry : C4LogEntry) : C4Cluster Context × Except Errno Unit :=
  ({ cluster with context := (apply cluster.context entry).1 }, (apply cluster.context entry).2)

@[simp] theorem c4ApplyNewEntry_log (apply : C4ApplyEntry Context) (cluster : C4Cluster Context)
    (entry : C4LogEntry) : (c4ApplyNewEntry apply cluster entry).1.log = cluster.log := rfl

/-- Every entry is accepted by the callback in the context that the entries before it have
built. -/
def Applies (apply : C4ApplyEntry Context) : Context → List C4LogEntry → Prop
  | _, [] => True
  | context, entry :: rest =>
    (apply context entry).2 = .ok () ∧ Applies apply (apply context entry).1 rest

/-- A committed entry is appended and then applied; a failing append is not applied. -/
def appendAndApply [Zlib] (apply : C4ApplyEntry Context) (cluster : C4Cluster Context)
    (entry : C4LogEntry) : C4Cluster Context × Except Errno Unit :=
  match c4LogAppendEntry cluster.log entry with
  | (_, .error code) => (cluster, .error code)
  | (log, .ok ()) => c4ApplyNewEntry apply { cluster with log := log } entry

/-! ### Remote calls -/

/-- The reply of a super peer to a request, as the receiver gets it. `protocol_send_message`
refuses a reply that is too large, and the connection is closed without one. -/
def answer (localNode : NodeID) (request : Message)
    (outcome : Except Errno (MessageType × List UInt8)) : Option Message :=
  let reply := sendReply localNode request outcome
  if reply.payload.length > maxPayloadSize then none else some reply

theorem answer_eq_some {node : NodeID} {request reply : Message}
    {outcome : Except Errno (MessageType × List UInt8)}
    (answered : answer node request outcome = some reply) :
    reply = sendReply node request outcome ∧ reply.payload.length ≤ maxPayloadSize := by
  unfold answer at answered
  simp only at answered
  split at answered
  · cases answered
  · rename_i small
    cases answered
    exact ⟨rfl, not_lt.mp small⟩

/-- `rpc_call_with_transaction` over a connection on which `serve` answers. -/
def rpcCallWithTransaction (serve : Message → Option Message) (request : Message) :
    Except Errno Message :=
  if request.payload.length > maxPayloadSize then .error .einval
  else match serve request with
    | none => .error .ebadmsg
    | some response =>
      if response.transactionId ≠ request.transactionId ∨
          response.destinationNode ≠ request.sourceNode ∨
          response.sourceNode ≠ request.destinationNode then .error .ebadmsg
      else .ok response

end SuperPeerNet
