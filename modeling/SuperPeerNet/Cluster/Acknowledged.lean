/-
This file proves that every run keeps what its messages and tasks vouch for, and with
it what the success of `c4_cluster_submit` means: the transaction is in the log of the
coordinator and of every captured participant, and each participant has applied it.
-/

import SuperPeerNet.Cluster.Provenance

namespace SuperPeerNet

variable [Zlib]

/-! ### Replies -/

theorem handleIstRequest_ok {errno : Errno} {cluster : C4Cluster Applied} {request : Message}
    {messageType : MessageType} {payload : List UInt8}
    (served : handleIstRequest errno cluster request = .ok (messageType, payload)) :
    ∃ skipped items count, istFill (cluster.log.entries.drop skipped) [] 0 = .ok (items, count) ∧
      payload = wirePutU32 (UInt32.ofNat count) ++ items := by
  unfold handleIstRequest at served
  split at served
  · cases served
  · split at served
    · cases served
    · simp only at served
      split at served
      · cases served
      · split at served
        · cases served
        · split at served
          · cases served
          · split at served
            · cases served
            · rename_i items count filled
              cases served
              exact ⟨_, items, count, filled, rfl⟩

omit [Zlib] in
/-- Only a handler that succeeds answers with an `M_ACK`. -/
theorem ok_of_acknowledge {node : NodeID} {request reply : Message} {result : Except Errno Unit}
    (answered : answer node request (acknowledge result) = some reply)
    (isAck : reply.messageType = .ack) : result = .ok () := by
  obtain ⟨rfl, -⟩ := answer_eq_some answered
  cases result with
  | error code => cases isAck
  | ok done => rfl

omit [Zlib] in
theorem not_ack_of_refused {node : NodeID} {request reply : Message} {code : Errno}
    (answered : answer node request (.error code) = some reply) : reply.messageType = .error := by
  obtain ⟨rfl, -⟩ := answer_eq_some answered
  rfl

theorem not_received_of_error {log : C4Log} {index version : UInt64} {reply : Message}
    {entries : List C4LogEntry} (isError : reply.messageType = .error) :
    istReceive log index version reply ≠ .ok entries := by
  simp [istReceive, isError]

/-- What a receiver takes from a page is in the log of the member that served it. -/
theorem mem_of_served {errno : Errno} {cluster : C4Cluster Applied} (valid : cluster.log.Valid)
    {node : NodeID} {request reply : Message}
    (answered : answer node request (handleIstRequest errno cluster request) = some reply)
    {log : C4Log} {index version : UInt64} {entries : List C4LogEntry}
    (received : istReceive log index version reply = .ok entries) :
    ∀ entry ∈ entries, entry ∈ cluster.log.entries := by
  cases served : handleIstRequest errno cluster request with
  | error code =>
    rw [served] at answered
    exact absurd received (not_received_of_error (not_ack_of_refused answered))
  | ok result =>
    obtain ⟨messageType, payload⟩ := result
    obtain ⟨skipped, items, count, filled, bytes⟩ := handleIstRequest_ok served
    rw [served] at answered
    obtain ⟨same, small⟩ := answer_eq_some answered
    have payloadEq : reply.payload = wirePutU32 (UInt32.ofNat count) ++ items := by
      rw [same, ← bytes]
      rfl
    have sound : ∀ entry ∈ cluster.log.entries.drop skipped, entry.Sound :=
      fun entry member => valid.entries.sound entry (List.mem_of_mem_drop member)
    have outcome := @istFill_outcome _ _ [] 0 sound (show 4 + [].length ≤ maxPayloadSize by decide)
      (fun _ => rfl)
    rw [filled] at outcome
    rw [payloadEq, List.length_append, length_wirePutU32] at small
    generalize result : Except.ok (items, count) = page at outcome
    cases outcome with
    | refused code unfit => cases result
    | overrun items total large unfit =>
      cases result
      omega
    | page taken left split size smallTaken progress remaining =>
      cases result
      simp only [List.nil_append, Nat.zero_add] at payloadEq size
      have subset : ∀ entry ∈ taken, entry ∈ cluster.log.entries.drop skipped := by
        intro entry member
        rw [split]
        exact List.mem_append_left _ member
      have same := istReceive_ok (fun entry member => sound entry (subset entry member)) smallTaken
        size payloadEq received
      rw [same]
      exact fun entry member => List.mem_of_mem_drop (subset entry member)

/-- A reply vouches for what its sender has done. -/
theorem handle_ok {system next : System} (vouched : Vouched system) {node : NodeID}
    {errno : Errno} {outcome : Except Errno Unit} {request reply : Message}
    {result : Handled Applied}
    (handled : HandleOutcome errno (recordApply outcome) (system.cluster node) request result)
    (destination : request.destinationNode = node)
    (answered : answer node request result.2 = some reply)
    (moves : Moves system next node result.1) : ResponseOk next request reply := by
  subst destination
  cases handled with
  | refused code =>
    have isError := not_ack_of_refused answered
    refine ⟨fun _ isAck => ?_, fun _ isAck => ?_, fun _ log index version entries received => ?_⟩
    · rw [isError] at isAck
      cases isAck
    · rw [isError] at isAck
      cases isAck
    · exact absurd received (not_received_of_error isError)
  | election after result type identity log applied =>
    exact ⟨fun same => absurd same type.1, fun same => absurd same type.2.1,
      fun same => absurd same type.2.2⟩
  | served type =>
    refine ⟨fun same => ?_, fun same => ?_, fun _ log index version entries received => ?_⟩
    · rw [type] at same
      cases same
    · rw [type] at same
      cases same
    · intro entry member
      have inLog := mem_of_served (vouched.valid _) answered received entry member
      exact (holds_of_mem vouched inLog).mono moves.grows
  | prepare entry type decoded id =>
    refine ⟨fun _ isAck => ⟨entry, decoded, ?_⟩, fun same => ?_, fun same => ?_⟩
    · obtain ⟨-, row, found, same, -⟩ :=
        c4LogPrepare_accepted (vouched.valid _) (ok_of_acknowledge answered isAck)
      refine ⟨row, ?_, same⟩
      rw [moves.log]
      exact found
    · rw [type] at same
      cases same
    · rw [type] at same
      cases same
  | commit type =>
    refine ⟨fun same => ?_, fun _ isAck => ?_, fun same => ?_⟩
    · rw [type] at same
      cases same
    · obtain ⟨inLog, applied⟩ := commitAndApply_accepted (ok_of_acknowledge answered isAck)
      rw [← moves.log] at inLog
      rw [← moves.applied] at applied
      exact ⟨inLog, applied⟩
    · rw [type] at same
      cases same
  | abort type =>
    refine ⟨fun same => ?_, fun same => ?_, fun same => ?_⟩ <;>
      · rw [type] at same
        cases same
  | transfer entry type decoded =>
    refine ⟨fun same => ?_, fun same => ?_, fun same => ?_⟩ <;>
      · rw [type] at same
        cases same

/-! ### Every run is vouched for -/

theorem moves_of_grows {system next : System} {node : NodeID} {cluster : C4Cluster Applied}
    (grows : system.Grows next) (put : next.cluster node = cluster) :
    Moves system next node cluster :=
  ⟨grows, congrArg C4Cluster.log put, congrArg C4Cluster.context put⟩

/-- A task that begins has established nothing. -/
theorem begins_ok (system : System) {cluster : C4Cluster Applied} {action : Action}
    {node : NodeID} {job : Job} (begins : Begins cluster action node job) :
    JobOk system node job := by
  cases begins with
  | submit node id owner payload accepted =>
    have begun := begun_of_c4ClusterSubmit accepted
    refine ⟨begun.replicas, ?_⟩
    rw [begun.phase]
    trivial
  | recover node member => trivial
  | broadcast node lastIndex members => trivial

/-- What a task that takes a step has established afterwards, and what it sends vouches for. -/
theorem jobStep_ok {system next : System} (vouched : Vouched system) {node : NodeID}
    {outcome : Except Errno Unit} {errno : Errno} {generated : TransactionId}
    {cluster : C4Cluster Applied} {job after : Job} {sent : Option Message}
    (fine : JobOk system node job)
    (step : JobStep (recordApply outcome) errno generated (system.cluster node) job cluster after
      sent) (moves : Moves system next node cluster) :
    JobOk next node after ∧ ∀ request, sent = some request → RequestOk next request := by
  cases step with
  | submit step =>
    obtain ⟨phaseOk, requests⟩ := submitStep_ok vouched fine step moves
    exact ⟨⟨fine.1, phaseOk⟩, requests⟩
  | @recover task after phase sent step =>
    have recoverOk : RecoverOk system task.member task.phase := fine
    obtain ⟨after, requests⟩ := recoverStep_ok recoverOk step moves.grows
    exact ⟨after, requests⟩
  | broadcast phase step =>
    refine ⟨trivial, fun request isSent => ?_⟩
    have requestOk : PacketOk system (.request request) := broadcastStep_ok vouched step isSent
    exact requestOk.mono moves.grows

omit [Zlib] in
/-- The tasks after one of them has got into a new state. -/
theorem mem_withJob {system : System} {index : Nat} {node : NodeID} {job : Job} {task : Task}
    (member : task ∈ (system.withJob index node job).tasks) :
    task ∈ system.tasks ∨ task = ⟨node, job⟩ :=
  List.mem_or_eq_of_mem_set member

theorem Vouched.step {system next : System} {action : Action} (vouched : Vouched system)
    (step : SystemStep system action next) : Vouched next := by
  have grows := System.grows_of_step step
  have oldTask : ∀ task ∈ system.tasks, JobOk next task.node task.job :=
    fun task member => (vouched.tasks task member).mono grows
  have oldPacket : ∀ packet ∈ system.network, PacketOk next packet :=
    fun packet member => (vouched.packets packet member).mono grows
  refine ⟨fun node => (grows node).identity.trans (vouched.identity node),
    fun node => (grows node).log.valid (vouched.valid node), ?_, ?_⟩
  · intro packet member
    cases step with
    | configured action node cluster quiet identity log applied => exact oldPacket packet member
    | began action node job begins => exact oldPacket packet member
    | ended action index errno task job response quiet found ends received =>
      exact oldPacket packet member
    | ran index generated outcome errno task cluster job sent found step =>
      rcases List.mem_append.mp member with old | new
      · exact oldPacket packet old
      · obtain ⟨request, isSent, rfl⟩ := List.mem_map.mp new
        have taskOk := vouched.tasks task (List.mem_of_getElem? found)
        have moves : Moves system _ task.node cluster :=
          moves_of_grows grows (by simp)
        exact (jobStep_ok vouched taskOk step moves).2 request (Option.mem_toList.mp isSent)
    | handled request outcome errno sent =>
      rcases List.mem_append.mp member with old | new
      · exact oldPacket packet old
      · obtain ⟨reply, isReply, rfl⟩ := List.mem_map.mp new
        exact handle_ok vouched (c4ClusterHandle_outcome errno _ _ request) rfl
          (Option.mem_toList.mp isReply) (moves_of_grows grows (by simp))
  · intro task member
    cases step with
    | configured action node cluster quiet identity log applied => exact oldTask task member
    | handled request outcome errno sent => exact oldTask task member
    | began action node job begins =>
      rcases List.mem_append.mp member with old | new
      · exact oldTask task old
      · rw [List.mem_singleton.mp new]
        exact begins_ok _ begins
    | ended action index errno current job response quiet found ends received =>
      rcases mem_withJob member with old | rfl
      · exact oldTask task old
      · have taskOk := vouched.tasks current (List.mem_of_getElem? found)
        exact (receive_ok vouched taskOk ends received).mono grows
    | ran index generated outcome errno current cluster job sent found step =>
      rcases mem_withJob member with old | rfl
      · exact oldTask task old
      · have taskOk := vouched.tasks current (List.mem_of_getElem? found)
        have moves : Moves system _ current.node cluster :=
          moves_of_grows grows (by simp)
        exact (jobStep_ok vouched taskOk step moves).1

theorem vouched_initial {system : System} (initial : system.Initial) : Vouched system where
  identity := initial.identity
  valid node := by
    rw [System.log, initial.log]
    exact C4Log.valid_fresh
  packets packet member := by
    rw [initial.network] at member
    cases member
  tasks task member := by
    rw [initial.tasks] at member
    cases member

/-- What the allowed steps of a run keep, with all that is vouched for at hand. -/
theorem invariant_of_vouched {allowed : System → Action → Prop} {start system : System}
    {property : System → Prop} (initial : start.Initial) (initially : property start)
    (keep : ∀ system action next, Vouched system → property system → allowed system action →
      SystemStep system action next → property next)
    (reached : Transition.Reaches System.step allowed start system) :
    Vouched system ∧ property system := by
  refine @Transition.Reaches.invariant _ _ System.step allowed start
    (fun state => Vouched state ∧ property state) ⟨vouched_initial initial, initially⟩ ?_
    system reached
  rintro state action next ⟨vouched, holds⟩ permitted stepped
  have step := systemStep_of_step stepped
  exact ⟨vouched.step step, keep state action next vouched holds permitted step⟩

/-- In whatever run, when `c4_cluster_submit` has returned success, the transaction is in the
committed logs of the coordinator and of every captured participant, and every participant has
applied it. -/
theorem acknowledged_replicated {start system : System} (initial : start.Initial)
    (reached : Transition.Reaches System.step (fun _ _ => True) start system)
    {node : NodeID} {task : SubmitTask} (member : ⟨node, .submit task⟩ ∈ system.tasks)
    (succeeded : task.phase = .returned (.ok ())) :
    system.InLog node task.transactionId ∧
      ∀ participant ∈ task.participants, system.Replicated participant task.transactionId := by
  have vouched := (invariant_of_vouched initial trivial (fun _ _ _ _ _ _ _ => trivial) reached).1
  obtain ⟨-, phaseOk⟩ := vouched.tasks _ member
  rw [succeeded] at phaseOk
  exact phaseOk

/-! ### A run of two super peers -/

/-- A node id of one repeated byte. -/
def nodeOf (byte : UInt8) : NodeID := Octets.fill nodeIdSize byte

/-- A transaction id of one repeated byte. -/
def transactionOf (byte : UInt8) : TransactionId := Octets.fill transactionIdSize byte

/-- Super peers that have just started, all with the same table of members and the same leader. -/
def startOf (members : List NodeID) (leader : NodeID) : System where
  cluster node :=
    { localId := node
      members := members.map fun id => ⟨id, .superPeer, .alive, false⟩
      log := C4Log.fresh
      context := []
      leader := leader
      term := 0
      electionRequested := false
      electionWaiting := false
      electionStartedMs := 0 }
  tasks := []
  network := []

omit [Zlib] in
theorem initial_startOf (members : List NodeID) (leader : NodeID) :
    (startOf members leader).Initial :=
  ⟨fun _ => rfl, fun _ => rfl, fun _ => rfl, rfl, rfl⟩

/-- A task that takes a step without a failure. -/
def runTask (index : Nat) : Action := .run index (transactionOf 0) (.ok ()) .eio

/-- A request that is handled and acknowledged. -/
def acknowledgedCall (index : Nat) (request : Message) : List Action :=
  [runTask index, .deliver request (.ok ()) .eio,
    .reply index (sendReply request.destinationNode request (.ok (.ack, []))) .eio]

/-- The request of one super peer to another one. -/
def requestOf (source destination : UInt8) (messageType : MessageType) (id : TransactionId)
    (payload : List UInt8) : Message where
  messageType := messageType
  sourceNode := nodeOf source
  destinationNode := nodeOf destination
  transactionId := id
  payload := payload

/-- The entry of an operation at an index. -/
def entryOf (index : UInt64) (id : TransactionId) : C4LogEntry :=
  C4LogEntry.build index index id (c4Operation (nodeOf 9) [5]) (by decide)

/-- One operation is submitted at the first of two super peers and replicated to the second. -/
def replicatedRun (id : TransactionId) : List Action :=
  [.submit (nodeOf 1) id (nodeOf 9) [5], runTask 0, runTask 0, runTask 0, runTask 0] ++
    acknowledgedCall 0 (requestOf 1 2 .prepare id (c4LogRecord (entryOf 1 id))) ++
    [runTask 0, runTask 0] ++ acknowledgedCall 0 (requestOf 1 2 .commit id []) ++ [runTask 0]

/-- The task at the end of the run. -/
def replicatedTask (id : TransactionId) : SubmitTask where
  transactionId := id
  operation := c4Operation (nodeOf 9) [5]
  operationBound := by decide
  participants := [nodeOf 2]
  expectedReplicas := 2
  phase := .returned (.ok ())

omit [Zlib] in
/-- The second super peer has what the first one reports as replicated. -/
theorem acknowledged_replicated_pair :
    letI := Zlib.reference
    ∃ system, Transition.Reaches System.step (fun _ _ => True) (startOf [nodeOf 1, nodeOf 2]
        (nodeOf 1)) system ∧
      ⟨nodeOf 1, .submit (replicatedTask (transactionOf 1))⟩ ∈ system.tasks ∧
      system.InLog (nodeOf 1) (transactionOf 1) ∧
      ∀ participant ∈ [nodeOf 2], system.Replicated participant (transactionOf 1) := by
  let zlib := Zlib.reference
  obtain ⟨system, reached, member⟩ := Transition.Reaches.of_check
    (show (Transition.run (Transition.guarded System.step fun _ _ => True)
        (startOf [nodeOf 1, nodeOf 2] (nodeOf 1)) (replicatedRun (transactionOf 1))).any
      (fun final => (⟨nodeOf 1, .submit (replicatedTask (transactionOf 1))⟩ : Task) ∈ final.tasks)
        = true by decide +kernel)
  exact ⟨system, reached, member, acknowledged_replicated (initial_startOf _ _) reached member rfl⟩

end SuperPeerNet
