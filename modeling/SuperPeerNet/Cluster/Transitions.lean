/-
This file says once what a step of the system can do.

The steps of each kind of task are listed as an inductive with one constructor for
each way the source goes on, and a step of the system is one of five kinds: a node is
reconfigured, a task begins, a task takes a step, a remote call of a task ends, or a
request is handled. The invariants of the cluster are proved by cases on these, and
never unfold the code of a task again.
-/

import SuperPeerNet.Cluster.System

namespace SuperPeerNet

variable [Zlib]

/-! ### The steps of a task -/

/-- How `c4_cluster_submit` goes on from a phase in which it does not await a reply. -/
inductive SubmitStep (apply : C4ApplyEntry Applied) (errno : Errno)
    (cluster : C4Cluster Applied) (task : SubmitTask) :
    C4Cluster Applied → SubmitPhase → Option Message → Prop
  | known (entry : C4LogEntry) (phase : task.phase = .lookup)
      (found : findEntry cluster.log task.transactionId = some entry)
      (same : entry.payload = task.operation) :
      SubmitStep apply errno cluster task cluster (.call .resend task.participants true 1) none
  | conflict (phase : task.phase = .lookup) :
      SubmitStep apply errno cluster task cluster (.returned (.error .eexist)) none
  | unknown (phase : task.phase = .lookup)
      (absent : findEntry cluster.log task.transactionId = none) :
      SubmitStep apply errno cluster task cluster .readIndex none
  | readIndex (phase : task.phase = .readIndex) :
      SubmitStep apply errno cluster task cluster
        (.readVersion (c4LogLastIndex cluster.log + 1)) none
  | readVersion (index : UInt64) (phase : task.phase = .readVersion index) :
      SubmitStep apply errno cluster task cluster
        (.prepare (C4LogEntry.build index (c4LogLastVersion cluster.log + 1)
          task.transactionId task.operation task.operationBound)) none
  | prepared (entry : C4LogEntry) (wire : List UInt8) (phase : task.phase = .prepare entry)
      (accepted : (c4LogPrepare cluster.log entry).2 = .ok ())
      (encoded : c4LogEntryEncode entry = .ok wire) :
      SubmitStep apply errno cluster task
        { cluster with log := (c4LogPrepare cluster.log entry).1 }
        (.call (.prepare wire) task.participants true 0) none
  | unprepared (entry : C4LogEntry) (code : Errno) (phase : task.phase = .prepare entry) :
      SubmitStep apply errno cluster task
        { cluster with log := (c4LogPrepare cluster.log entry).1 } (.returned (.error code)) none
  | finish (round : SubmitRound) (ok : Bool) (acknowledgements : Nat)
      (phase : task.phase = .call round [] ok acknowledgements) :
      SubmitStep apply errno cluster task cluster
        (task.afterRound errno round ok acknowledgements) none
  | send (round : SubmitRound) (destination : NodeID) (remaining : List NodeID) (ok : Bool)
      (acknowledgements : Nat)
      (phase : task.phase = .call round (destination :: remaining) ok acknowledgements) :
      SubmitStep apply errno cluster task cluster
        (.await round (task.request cluster.localId round destination) remaining ok
          acknowledgements) (some (task.request cluster.localId round destination))
  | committed (phase : task.phase = .commit)
      (accepted : (commitAndApply apply cluster task.transactionId).2 = .ok ()) :
      SubmitStep apply errno cluster task (commitAndApply apply cluster task.transactionId).1
        (.call .commit task.participants true 0) none
  | uncommitted (code : Errno) (phase : task.phase = .commit) :
      SubmitStep apply errno cluster task (commitAndApply apply cluster task.transactionId).1
        (.returned (.error code)) none
  | aborted (phase : task.phase = .abort) :
      SubmitStep apply errno cluster task
        { cluster with log := (c4LogAbort cluster.log task.transactionId).1 }
        (.call .abort task.participants true 0) none

theorem submitStep_of_step {apply : C4ApplyEntry Applied} {errno : Errno}
    {cluster after : C4Cluster Applied} {task : SubmitTask} {phase : SubmitPhase}
    {sent : Option Message} (stepped : task.step apply errno cluster = some (after, phase, sent)) :
    SubmitStep apply errno cluster task after phase sent := by
  unfold SubmitTask.step at stepped
  cases current : task.phase with
  | lookup =>
    simp only [current, c4LogGetTransaction] at stepped
    cases found : findEntry cluster.log task.transactionId with
    | none =>
      simp only [found, ne_eq, not_true_eq_false, if_false, Option.some.injEq,
        Prod.mk.injEq] at stepped
      obtain ⟨rfl, rfl, rfl⟩ := stepped
      exact .unknown current found
    | some entry =>
      simp only [found] at stepped
      split at stepped
      · rename_i same
        cases stepped
        exact .known entry current found same
      · cases stepped
        exact .conflict current
  | readIndex =>
    simp only [current] at stepped
    cases stepped
    exact .readIndex current
  | readVersion index =>
    simp only [current] at stepped
    cases stepped
    exact .readVersion index current
  | prepare entry =>
    simp only [current] at stepped
    cases prepared : c4LogPrepare cluster.log entry with
    | mk log result =>
      have logEq : log = (c4LogPrepare cluster.log entry).1 := by rw [prepared]
      rw [prepared] at stepped
      cases result with
      | error code =>
        cases stepped
        rw [logEq]
        exact .unprepared entry code current
      | ok done =>
        simp only at stepped
        split at stepped
        · cases stepped
          rw [logEq]
          exact .unprepared entry _ current
        · rename_i wire encoded
          cases stepped
          rw [logEq]
          exact .prepared entry wire current (by rw [prepared]) encoded
  | call round remaining ok acknowledgements =>
    cases remaining with
    | nil =>
      simp only [current] at stepped
      cases stepped
      exact .finish round ok acknowledgements current
    | cons destination remaining =>
      simp only [current] at stepped
      cases stepped
      exact .send round destination remaining ok acknowledgements current
  | await round request remaining ok acknowledgements =>
    simp only [current] at stepped
    cases stepped
  | commit =>
    simp only [current] at stepped
    cases committed : commitAndApply apply cluster task.transactionId with
    | mk next result =>
      have nextEq : next = (commitAndApply apply cluster task.transactionId).1 := by rw [committed]
      rw [committed] at stepped
      cases result with
      | error code =>
        cases stepped
        rw [nextEq]
        exact .uncommitted code current
      | ok done =>
        cases stepped
        rw [nextEq]
        exact .committed current (by rw [committed])
  | abort =>
    simp only [current] at stepped
    cases stepped
    exact .aborted current
  | returned result =>
    simp only [current] at stepped
    cases stepped

omit [Zlib] in
/-- Only a task that awaits a reply can receive one, and it goes on with its round. -/
theorem awaits_of_receive {task : SubmitTask} {response : Except Errno Message}
    {phase : SubmitPhase} (received : task.receive response = some phase) :
    ∃ round request remaining ok acknowledgements,
      task.phase = .await round request remaining ok acknowledgements ∧
        phase = .call round remaining (ok && SubmitTask.acknowledged response)
          (if SubmitTask.acknowledged response then acknowledgements + 1
            else acknowledgements) := by
  unfold SubmitTask.receive at received
  split at received
  · rename_i round request remaining ok acknowledgements current
    cases received
    exact ⟨round, request, remaining, ok, acknowledgements, current, rfl⟩
  · cases received

/-- How `c4_recover_from_member` goes on from a phase in which it does not await a reply. -/
inductive RecoverStep (apply : C4ApplyEntry Applied) (generated : TransactionId)
    (cluster : C4Cluster Applied) (task : RecoverTask) :
    C4Cluster Applied → RecoverPhase → Option Message → Prop
  | read (phase : RecoverPhase) (quiet : ∀ entry rest, phase ≠ .append entry rest)
      (silent : ∀ request index version, phase ≠ .await request index version) :
      RecoverStep apply generated cluster task cluster phase none
  | send (request : Message) (index version : UInt64) (type : request.messageType = .istRequest)
      (source : request.sourceNode = cluster.localId)
      (destination : request.destinationNode = task.member) :
      RecoverStep apply generated cluster task cluster (.await request index version)
        (some request)
  | appended (entry : C4LogEntry) (rest : List C4LogEntry)
      (phase : task.phase = .append entry rest) :
      RecoverStep apply generated cluster task (appendAndApply apply cluster entry).1
        (RecoverTask.afterEntry entry rest) none
  | failed (entry : C4LogEntry) (rest : List C4LogEntry) (code : Errno)
      (phase : task.phase = .append entry rest) :
      RecoverStep apply generated cluster task (appendAndApply apply cluster entry).1
        (.returned (.error code)) none

theorem recoverStep_of_step {apply : C4ApplyEntry Applied} {generated : TransactionId}
    {cluster after : C4Cluster Applied} {task : RecoverTask} {phase : RecoverPhase}
    {sent : Option Message}
    (stepped : task.step apply generated cluster = some (after, phase, sent)) :
    RecoverStep apply generated cluster task after phase sent := by
  unfold RecoverTask.step at stepped
  cases current : task.phase with
  | readIndex =>
    simp only [current] at stepped
    cases stepped
    exact .read _ nofun nofun
  | readVersion index =>
    simp only [current] at stepped
    cases stepped
    exact .read _ nofun nofun
  | call index version =>
    simp only [current] at stepped
    cases stepped
    exact .send _ index version rfl rfl rfl
  | await request index version =>
    simp only [current] at stepped
    cases stepped
  | append entry rest =>
    simp only [current] at stepped
    cases appended : appendAndApply apply cluster entry with
    | mk next result =>
      have nextEq : next = (appendAndApply apply cluster entry).1 := by rw [appended]
      rw [appended] at stepped
      cases result with
      | error code =>
        cases stepped
        rw [nextEq]
        exact .failed entry rest code current
      | ok done =>
        cases stepped
        rw [nextEq]
        exact .appended entry rest current
  | returned result =>
    simp only [current] at stepped
    cases stepped

/-- How `c4_broadcast_log` goes on from a phase in which it does not await a reply. -/
inductive BroadcastStep (cluster : C4Cluster Applied) : Option Message → Prop
  | quiet : BroadcastStep cluster none
  | send (request : Message) (index : UInt64) (entry : C4LogEntry)
      (type : request.messageType = .stateTransfer)
      (source : request.sourceNode = cluster.localId)
      (found : c4LogGet cluster.log index = .ok entry)
      (encoded : c4LogEntryEncode entry = .ok request.payload) :
      BroadcastStep cluster (some request)

theorem broadcastStep_of_step {generated : TransactionId} {cluster : C4Cluster Applied}
    {task : BroadcastTask} {phase : BroadcastPhase} {sent : Option Message}
    (stepped : task.step generated cluster = some (phase, sent)) : BroadcastStep cluster sent := by
  unfold BroadcastTask.step at stepped
  split at stepped
  · cases stepped
    exact .quiet
  · split at stepped
    · cases stepped
      exact .quiet
    · split at stepped
      · cases stepped
        exact .quiet
      · rename_i entry found
        split at stepped
        · cases stepped
          exact .quiet
        · rename_i wire encoded
          cases stepped
          exact .send _ _ entry rfl rfl found encoded
  · cases stepped
  · cases stepped

/-- The step of a task of any kind: the node, the job and the request sent. -/
inductive JobStep (apply : C4ApplyEntry Applied) (errno : Errno) (generated : TransactionId)
    (cluster : C4Cluster Applied) : Job → C4Cluster Applied → Job → Option Message → Prop
  | submit {task : SubmitTask} {after : C4Cluster Applied} {phase : SubmitPhase}
      {sent : Option Message} (step : SubmitStep apply errno cluster task after phase sent) :
      JobStep apply errno generated cluster (.submit task) after
        (.submit { task with phase := phase }) sent
  | recover {task : RecoverTask} {after : C4Cluster Applied} {phase : RecoverPhase}
      {sent : Option Message} (step : RecoverStep apply generated cluster task after phase sent) :
      JobStep apply errno generated cluster (.recover task) after
        (.recover { task with phase := phase }) sent
  | broadcast {task : BroadcastTask} (phase : BroadcastPhase) {sent : Option Message}
      (step : BroadcastStep cluster sent) :
      JobStep apply errno generated cluster (.broadcast task) cluster
        (.broadcast { task with phase := phase }) sent

theorem jobStep_of_step {apply : C4ApplyEntry Applied} {errno : Errno}
    {generated : TransactionId} {cluster after : C4Cluster Applied} {job next : Job}
    {sent : Option Message}
    (stepped : job.step apply errno generated cluster = some (after, next, sent)) :
    JobStep apply errno generated cluster job after next sent := by
  cases job with
  | submit task =>
    obtain ⟨⟨cluster', phase, sent'⟩, taken, same⟩ := Option.map_eq_some_iff.mp stepped
    cases same
    exact .submit (submitStep_of_step taken)
  | recover task =>
    obtain ⟨⟨cluster', phase, sent'⟩, taken, same⟩ := Option.map_eq_some_iff.mp stepped
    cases same
    exact .recover (recoverStep_of_step taken)
  | broadcast task =>
    obtain ⟨⟨phase, sent'⟩, taken, same⟩ := Option.map_eq_some_iff.mp stepped
    cases same
    exact .broadcast phase (broadcastStep_of_step taken)

/-! ### Handling a request -/

/-- The answer to a call on the log that succeeds without a result. -/
def acknowledge (result : Except Errno Unit) : Except Errno (MessageType × List UInt8) :=
  result.map fun _ => (.ack, [])

/-- How `c4_cluster_handle` can end, with respect to the log and the callback. -/
inductive HandleOutcome (errno : Errno) (apply : C4ApplyEntry Applied)
    (cluster : C4Cluster Applied) (request : Message) : Handled Applied → Prop
  | refused (code : Errno) : HandleOutcome errno apply cluster request (cluster, .error code)
  | election (after : C4Cluster Applied) (result : Except Errno (MessageType × List UInt8))
      (type : request.messageType ≠ .prepare ∧ request.messageType ≠ .commit ∧
        request.messageType ≠ .istRequest)
      (identity : after.localId = cluster.localId) (log : after.log = cluster.log)
      (applied : after.context = cluster.context) :
      HandleOutcome errno apply cluster request (after, result)
  | served (type : request.messageType = .istRequest) :
      HandleOutcome errno apply cluster request (cluster, handleIstRequest errno cluster request)
  | prepare (entry : C4LogEntry) (type : request.messageType = .prepare)
      (decoded : c4LogEntryDecode request.payload = .ok entry)
      (id : entry.transactionId = request.transactionId) :
      HandleOutcome errno apply cluster request
        ({ cluster with log := (c4LogPrepare cluster.log entry).1 },
          acknowledge (c4LogPrepare cluster.log entry).2)
  | commit (type : request.messageType = .commit) :
      HandleOutcome errno apply cluster request
        ((commitAndApply apply cluster request.transactionId).1,
          acknowledge (commitAndApply apply cluster request.transactionId).2)
  | abort (type : request.messageType = .abort) :
      HandleOutcome errno apply cluster request
        ({ cluster with log := (c4LogAbort cluster.log request.transactionId).1 },
          acknowledge (c4LogAbort cluster.log request.transactionId).2)
  | transfer (entry : C4LogEntry) (type : request.messageType = .stateTransfer)
      (decoded : c4LogEntryDecode request.payload = .ok entry) :
      HandleOutcome errno apply cluster request
        ((appendAndApply apply cluster entry).1,
          acknowledge (appendAndApply apply cluster entry).2)

section HandleOutcome

variable {errno : Errno} {apply : C4ApplyEntry Applied} {cluster : C4Cluster Applied}
  {request : Message}

theorem handlePrepare_outcome (type : request.messageType = .prepare) :
    HandleOutcome errno apply cluster request (handlePrepare errno cluster request) := by
  unfold handlePrepare
  split
  · exact .refused _
  · split
    · exact .refused _
    · rename_i entry decoded
      split
      · exact .refused _
      · rename_i id
        have outcome : HandleOutcome errno apply cluster request
            ({ cluster with log := (c4LogPrepare cluster.log entry).1 },
              acknowledge (c4LogPrepare cluster.log entry).2) :=
          .prepare entry type decoded (not_not.mp id)
        cases prepared : c4LogPrepare cluster.log entry with
        | mk log result =>
          rw [prepared] at outcome
          cases result <;> exact outcome

theorem handleCommit_outcome (type : request.messageType = .commit) :
    HandleOutcome errno apply cluster request (handleCommit errno apply cluster request) := by
  unfold handleCommit
  split
  · exact .refused _
  · split
    · exact .refused _
    · have outcome : HandleOutcome errno apply cluster request
          ((commitAndApply apply cluster request.transactionId).1,
            acknowledge (commitAndApply apply cluster request.transactionId).2) := .commit type
      cases committed : commitAndApply apply cluster request.transactionId with
      | mk after result =>
        rw [committed] at outcome
        cases result <;> exact outcome

theorem handleAbort_outcome (type : request.messageType = .abort) :
    HandleOutcome errno apply cluster request (handleAbort errno cluster request) := by
  unfold handleAbort
  split
  · exact .refused _
  · split
    · exact .refused _
    · have outcome : HandleOutcome errno apply cluster request
          ({ cluster with log := (c4LogAbort cluster.log request.transactionId).1 },
            acknowledge (c4LogAbort cluster.log request.transactionId).2) := .abort type
      cases aborted : c4LogAbort cluster.log request.transactionId with
      | mk log result =>
        rw [aborted] at outcome
        cases result <;> exact outcome

theorem handleStateTransfer_outcome (type : request.messageType = .stateTransfer) :
    HandleOutcome errno apply cluster request (handleStateTransfer apply cluster request) := by
  unfold handleStateTransfer
  split
  · exact .refused _
  · split
    · exact .refused _
    · split
      · exact .refused _
      · rename_i entry decoded
        have outcome : HandleOutcome errno apply cluster request
            ((appendAndApply apply cluster entry).1,
              acknowledge (appendAndApply apply cluster entry).2) := .transfer entry type decoded
        cases appended : appendAndApply apply cluster entry with
        | mk after result =>
          rw [appended] at outcome
          cases result <;> exact outcome

omit [Zlib] in
theorem handleElection_keeps (errno : Errno) (cluster : C4Cluster Applied) (request : Message) :
    (handleElection errno cluster request).1.localId = cluster.localId ∧
      (handleElection errno cluster request).1.log = cluster.log ∧
      (handleElection errno cluster request).1.context = cluster.context := by
  unfold handleElection
  split
  · exact ⟨rfl, rfl, rfl⟩
  · split
    · exact ⟨rfl, rfl, rfl⟩
    · split <;> exact ⟨rfl, rfl, rfl⟩

omit [Zlib] in
theorem handleCoordinator_keeps (errno : Errno) (cluster : C4Cluster Applied)
    (request : Message) :
    (handleCoordinator errno (fun cluster _ => (cluster, .ok ())) cluster request).1.localId =
        cluster.localId ∧
      (handleCoordinator errno (fun cluster _ => (cluster, .ok ())) cluster request).1.log =
        cluster.log ∧
      (handleCoordinator errno (fun cluster _ => (cluster, .ok ())) cluster request).1.context =
        cluster.context := by
  unfold handleCoordinator
  split
  · exact ⟨rfl, rfl, rfl⟩
  · split
    · exact ⟨rfl, rfl, rfl⟩
    · simp only
      split <;> exact ⟨rfl, rfl, rfl⟩

theorem c4ClusterHandle_outcome (errno : Errno) (apply : C4ApplyEntry Applied)
    (cluster : C4Cluster Applied) (request : Message) :
    HandleOutcome errno apply cluster request
      (c4ClusterHandle errno apply (fun cluster _ => (cluster, .ok ())) cluster request) := by
  unfold c4ClusterHandle
  split
  · exact .refused _
  · split
    · rename_i type
      obtain ⟨identity, log, applied⟩ := handleElection_keeps errno cluster request
      exact .election _ _ (by simp [type]) identity log applied
    · rename_i type
      obtain ⟨identity, log, applied⟩ := handleCoordinator_keeps errno cluster request
      exact .election _ _ (by simp [type]) identity log applied
    · rename_i type
      exact .served type
    · rename_i type
      exact .election _ _ (by simp [type]) rfl rfl rfl
    · rename_i type
      exact handleStateTransfer_outcome type
    · rename_i type
      exact handlePrepare_outcome type
    · rename_i type
      exact handleCommit_outcome type
    · rename_i type
      exact handleAbort_outcome type
    · exact .refused _

end HandleOutcome

/-! ### The steps of the system -/

/-- How a task begins. -/
inductive Begins (cluster : C4Cluster Applied) : Action → NodeID → Job → Prop
  | submit (node : NodeID) (id : TransactionId) (owner : NodeID) (payload : List UInt8)
      {task : SubmitTask} (accepted : c4ClusterSubmit cluster id owner payload = .ok task) :
      Begins cluster (.submit node id owner payload) node (.submit task)
  | recover (node member : NodeID) :
      Begins cluster (.recover node member) node (.recover ⟨member, .readIndex⟩)
  | broadcast (node : NodeID) (lastIndex : UInt64) (members : List NodeID) :
      Begins cluster (.broadcast node) node (.broadcast ⟨lastIndex, .call members 1⟩)

/-- How a remote call ends: it fails, or a reply to the request arrives. -/
inductive CallEnds (system : System) (job : Job) : Except Errno Message → Prop
  | failed (code : Errno) : CallEnds system job (.error code)
  | replied (request reply : Message) (awaited : job.awaited = some request)
      (sent : .response request reply ∈ system.network) : CallEnds system job (.ok reply)

/-- The action is not a step of a task. -/
def Action.Quiet (action : Action) : Prop :=
  ∀ index generated outcome errno, action ≠ .run index generated outcome errno

/-- The five kinds of steps. -/
inductive SystemStep (system : System) : Action → System → Prop
  | configured (action : Action) (node : NodeID) (cluster : C4Cluster Applied)
      (quiet : action.Quiet)
      (identity : cluster.localId = (system.cluster node).localId)
      (log : cluster.log = (system.cluster node).log)
      (applied : cluster.context = (system.cluster node).context) :
      SystemStep system action (system.withCluster node cluster)
  | began (action : Action) (node : NodeID) (job : Job)
      (begins : Begins (system.cluster node) action node job) :
      SystemStep system action (system.withTask node job)
  | ran (index : Nat) (generated : TransactionId) (outcome : Except Errno Unit) (errno : Errno)
      (task : Task) (cluster : C4Cluster Applied) (job : Job) (sent : Option Message)
      (found : system.tasks[index]? = some task)
      (step : JobStep (recordApply outcome) errno generated (system.cluster task.node) task.job
        cluster job sent) :
      SystemStep system (.run index generated outcome errno)
        (((system.withCluster task.node cluster).withJob index task.node job).withPackets
          (sent.toList.map .request))
  | ended (action : Action) (index : Nat) (errno : Errno) (task : Task) (job : Job)
      (response : Except Errno Message) (quiet : action.Quiet)
      (found : system.tasks[index]? = some task) (ends : CallEnds system task.job response)
      (received : task.job.receive errno (system.log task.node) response = some job) :
      SystemStep system action (system.withJob index task.node job)
  | handled (request : Message) (outcome : Except Errno Unit) (errno : Errno)
      (sent : .request request ∈ system.network) :
      SystemStep system (.deliver request outcome errno)
        ((system.withCluster request.destinationNode
          (c4ClusterHandle errno (recordApply outcome) (fun cluster _ => (cluster, .ok ()))
            (system.cluster request.destinationNode) request).1).withPackets
          ((answer request.destinationNode request
            (c4ClusterHandle errno (recordApply outcome) (fun cluster _ => (cluster, .ok ()))
              (system.cluster request.destinationNode) request).2).toList.map
            (.response request)))

omit [Zlib] in
/-- The call that delivers a reply either accepts it or fails. -/
theorem rpcCallWithTransaction_reply (request reply : Message) :
    rpcCallWithTransaction (fun _ => some reply) request = .ok reply ∨
      ∃ code, rpcCallWithTransaction (fun _ => some reply) request = .error code := by
  unfold rpcCallWithTransaction
  split
  · exact Or.inr ⟨_, rfl⟩
  · simp only
    split
    · exact Or.inr ⟨_, rfl⟩
    · exact Or.inl rfl

theorem systemStep_of_step {system next : System} {action : Action}
    (stepped : system.step action = some next) : SystemStep system action next := by
  cases action with
  | setLeader node leader =>
    cases stepped
    exact .configured _ node _ nofun rfl rfl rfl
  | setMembers node members =>
    cases stepped
    exact .configured _ node _ nofun rfl rfl rfl
  | submit node id owner payload =>
    simp only [System.step] at stepped
    split at stepped
    · cases stepped
    · rename_i task accepted
      cases stepped
      exact .began _ node _ (.submit node id owner payload accepted)
  | recover node member =>
    cases stepped
    exact .began _ node _ (.recover node member)
  | broadcast node =>
    cases stepped
    exact .began _ node _ (.broadcast node _ _)
  | run index generated outcome errno =>
    obtain ⟨task, found, rest⟩ := Option.bind_eq_some_iff.mp stepped
    obtain ⟨⟨cluster, job, sent⟩, taken, same⟩ := Option.bind_eq_some_iff.mp rest
    cases same
    exact .ran index generated outcome errno task cluster job sent found (jobStep_of_step taken)
  | reply index reply errno =>
    obtain ⟨task, found, rest⟩ := Option.bind_eq_some_iff.mp stepped
    obtain ⟨request, awaited, rest⟩ := Option.bind_eq_some_iff.mp rest
    split at rest
    · rename_i sent
      obtain ⟨job, received, same⟩ := Option.bind_eq_some_iff.mp rest
      cases same
      rcases rpcCallWithTransaction_reply request reply with accepted | ⟨code, failed⟩
      · rw [accepted] at received
        exact .ended _ index errno task job _ nofun found (.replied request reply awaited sent)
          received
      · rw [failed] at received
        exact .ended _ index errno task job _ nofun found (.failed code) received
    · cases rest
  | fail index code errno =>
    obtain ⟨task, found, rest⟩ := Option.bind_eq_some_iff.mp stepped
    obtain ⟨job, received, same⟩ := Option.bind_eq_some_iff.mp rest
    cases same
    exact .ended _ index errno task job _ nofun found (.failed code) received
  | deliver request outcome errno =>
    simp only [System.step] at stepped
    split at stepped
    · rename_i sent
      cases stepped
      exact .handled request outcome errno sent
    · cases stepped

end SuperPeerNet
