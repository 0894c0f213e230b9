/-
This file proves what `c4_broadcast_log` has achieved when it returns success: every super peer it
has addressed has all entries of the log that the coordinator had at its start, in the same order.

Meanwhile the other tasks and handlers of the run go on, and messages are lost, late or repeated.
-/

import SuperPeerNet.Cluster.Acknowledged

namespace SuperPeerNet

variable [Zlib]

namespace System

/-! ### Acknowledged transfers -/

/-- A node that has acknowledged a transferred entry has it. -/
def Transferred (system : System) : Prop :=
  ∀ request reply, .response request reply ∈ system.network →
    request.messageType = .stateTransfer → reply.messageType = .ack →
      ∃ entry, c4LogEntryDecode request.payload = .ok entry ∧
        system.Holds request.destinationNode entry

theorem appendAndApply_accepted {outcome : Except Errno Unit} {cluster : C4Cluster Applied}
    {entry : C4LogEntry}
    (accepted : (appendAndApply (recordApply outcome) cluster entry).2 = .ok ()) :
    findEntry (appendAndApply (recordApply outcome) cluster entry).1.log entry.transactionId =
      some entry := by
  unfold appendAndApply c4LogAppendEntry at accepted ⊢
  cases appended : appendLocked cluster.log entry true with
  | error code =>
    rw [appended] at accepted
    cases accepted
  | ok next => exact appendLocked_accepted appended

/-- A transfer is refused, or its entry is appended and applied. -/
theorem handleStateTransfer_cases (apply : C4ApplyEntry Applied) (cluster : C4Cluster Applied)
    (request : Message) :
    (∃ code, (handleStateTransfer apply cluster request).2 = .error code) ∨
      ∃ entry, c4LogEntryDecode request.payload = .ok entry ∧
        (handleStateTransfer apply cluster request).1 = (appendAndApply apply cluster entry).1 ∧
        (appendAndApply apply cluster entry).2 = .ok () := by
  unfold handleStateTransfer
  split
  · exact Or.inl ⟨_, rfl⟩
  · split
    · exact Or.inl ⟨_, rfl⟩
    · split
      · exact Or.inl ⟨_, rfl⟩
      · rename_i entry decoded
        cases appended : appendAndApply apply cluster entry with
        | mk after result =>
          cases result with
          | error code => exact Or.inl ⟨code, rfl⟩
          | ok done => exact Or.inr ⟨entry, decoded, by rw [appended], by rw [appended]⟩

/-- A transfer that is acknowledged leaves its entry in the log. -/
theorem c4ClusterHandle_transferred {errno : Errno} {outcome : Except Errno Unit}
    {cluster : C4Cluster Applied} {request reply : Message} {node : NodeID}
    (here : request.destinationNode = cluster.localId)
    (kind : request.messageType = .stateTransfer)
    (answered : answer node request (c4ClusterHandle errno (recordApply outcome)
      (fun cluster _ => (cluster, .ok ())) cluster request).2 = some reply)
    (isAck : reply.messageType = .ack) :
    ∃ entry, c4LogEntryDecode request.payload = .ok entry ∧
      findEntry (c4ClusterHandle errno (recordApply outcome)
        (fun cluster _ => (cluster, .ok ())) cluster request).1.log entry.transactionId =
          some entry := by
  have whole : c4ClusterHandle errno (recordApply outcome) (fun cluster _ => (cluster, .ok ()))
      cluster request = handleStateTransfer (recordApply outcome) cluster request := by
    unfold c4ClusterHandle
    rw [if_neg (not_not.mpr here), kind]
  rw [whole] at answered ⊢
  rcases handleStateTransfer_cases (recordApply outcome) cluster request with
    ⟨code, refused⟩ | ⟨entry, decoded, after, accepted⟩
  · rw [refused] at answered
    rw [not_ack_of_refused answered] at isAck
    cases isAck
  · rw [after]
    exact ⟨entry, decoded, appendAndApply_accepted accepted⟩

theorem Transferred.step {system next : System} {action : Action} (vouched : Vouched system)
    (transferred : system.Transferred) (step : SystemStep system action next) :
    next.Transferred := by
  have grows := System.grows_of_step step
  intro request reply sent kind isAck
  have old : .response request reply ∈ system.network → ∃ entry,
      c4LogEntryDecode request.payload = .ok entry ∧
        next.Holds request.destinationNode entry := by
    intro before
    obtain ⟨entry, decoded, holds⟩ := transferred request reply before kind isAck
    exact ⟨entry, decoded, holds.mono grows⟩
  cases step with
  | configured action node cluster quiet identity log applied => exact old sent
  | began action node job begins => exact old sent
  | ended action index errno task job response quiet found ends received => exact old sent
  | ran index generated outcome errno task cluster job issued found step =>
    rcases List.mem_append.mp sent with before | new
    · exact old before
    · obtain ⟨other, -, isRequest⟩ := List.mem_map.mp new
      cases isRequest
  | handled handled outcome errno isSent =>
    rcases List.mem_append.mp sent with before | new
    · exact old before
    · obtain ⟨answered, isReply, same⟩ := List.mem_map.mp new
      cases same
      obtain ⟨entry, decoded, found⟩ := c4ClusterHandle_transferred
        (vouched.identity _).symm kind (Option.mem_toList.mp isReply) isAck
      refine ⟨entry, decoded, ?_⟩
      rw [Holds, System.log, cluster_withPackets, cluster_withCluster_self]
      exact found

/-! ### The steps of one task -/

/-- What a step does to a task that is under way. -/
inductive TaskStep (system next : System) (index : Nat) (task : Task) : Prop
  | kept (found : next.tasks[index]? = some task)
  | ran (generated : TransactionId) (outcome : Except Errno Unit) (errno : Errno)
      {cluster : C4Cluster Applied} {job : Job} {sent : Option Message}
      (taken : task.job.step (recordApply outcome) errno generated (system.cluster task.node) =
        some (cluster, job, sent))
      (found : next.tasks[index]? = some ⟨task.node, job⟩)
  | ended (errno : Errno) {response : Except Errno Message} {job : Job}
      (ends : CallEnds system task.job response)
      (received : task.job.receive errno (system.log task.node) response = some job)
      (found : next.tasks[index]? = some ⟨task.node, job⟩)

theorem taskStep_of_step {system next : System} {action : Action} {index : Nat} {task : Task}
    (stepped : system.step action = some next) (found : system.tasks[index]? = some task) :
    TaskStep system next index task := by
  have inside := (List.getElem?_eq_some_iff.mp found).1
  have appended : ∀ more, (system.tasks ++ more)[index]? = some task := by
    intro more
    rw [List.getElem?_append_left inside]
    exact found
  have other : ∀ {place : Nat} {changed : Task}, place ≠ index →
      (system.tasks.set place changed)[index]? = some task := by
    intro place changed apart
    rw [List.getElem?_set_ne apart]
    exact found
  have changed : ∀ {changed : Task}, (system.tasks.set index changed)[index]? = some changed :=
    List.getElem?_set_self inside
  cases action with
  | setLeader node leader | setMembers node members =>
    cases stepped
    exact .kept found
  | submit node id owner payload =>
    rw [System.step] at stepped
    split at stepped
    · cases stepped
    · cases stepped
      exact .kept (appended _)
  | recover node member | broadcast node =>
    cases stepped
    exact .kept (appended _)
  | run place generated outcome errno =>
    obtain ⟨current, isCurrent, rest⟩ := Option.bind_eq_some_iff.mp stepped
    obtain ⟨⟨cluster, job, sent⟩, taken, done⟩ := Option.bind_eq_some_iff.mp rest
    cases done
    by_cases same : place = index
    · subst same
      obtain rfl := Option.some.inj (isCurrent.symm.trans found)
      exact .ran generated outcome errno taken changed
    · exact .kept (other same)
  | reply place reply errno =>
    obtain ⟨current, isCurrent, rest⟩ := Option.bind_eq_some_iff.mp stepped
    obtain ⟨request, awaited, rest⟩ := Option.bind_eq_some_iff.mp rest
    split at rest
    · rename_i sent
      obtain ⟨job, received, done⟩ := Option.bind_eq_some_iff.mp rest
      cases done
      by_cases same : place = index
      · subst same
        obtain rfl := Option.some.inj (isCurrent.symm.trans found)
        rcases rpcCallWithTransaction_reply request reply with accepted | ⟨code, failed⟩
        · rw [accepted] at received
          exact .ended errno (.replied request reply awaited sent) received changed
        · rw [failed] at received
          exact .ended errno (.failed code) received changed
      · exact .kept (other same)
    · cases rest
  | fail place code errno =>
    obtain ⟨current, isCurrent, rest⟩ := Option.bind_eq_some_iff.mp stepped
    obtain ⟨job, received, done⟩ := Option.bind_eq_some_iff.mp rest
    cases done
    by_cases same : place = index
    · subst same
      obtain rfl := Option.some.inj (isCurrent.symm.trans found)
      exact .ended errno (.failed code) received changed
    · exact .kept (other same)
  | deliver request outcome errno =>
    rw [System.step] at stepped
    split at stepped
    · cases stepped
      exact .kept found
    · cases stepped

/-! ### What a broadcast has achieved -/

/-- A node has the first entries of a log. -/
def HasFirst (system : System) (node : NodeID) (entries : List C4LogEntry) (count : Nat) : Prop :=
  ∀ position entry, position < count → entries[position]? = some entry → system.Holds node entry

/-- What a broadcast of a log to some members has achieved when it gets to a phase. -/
def BroadcastOk (system : System) (entries : List C4LogEntry) (members : List NodeID) :
    BroadcastPhase → Prop
  | .call remaining index => ∃ done, members = done ++ remaining ∧
      (∀ member ∈ done, system.HasFirst member entries entries.length) ∧
      ∀ member ∈ remaining.head?, system.HasFirst member entries (index.toNat - 1)
  | .await request remaining index => ∃ done, members = done ++ remaining ∧
      (∀ member ∈ done, system.HasFirst member entries entries.length) ∧
      request.messageType = .stateTransfer ∧
      ∀ member ∈ remaining.head?, system.HasFirst member entries (index.toNat - 1) ∧
        request.destinationNode = member ∧ index ≠ 0 ∧
          ∃ entry, entries[index.toNat - 1]? = some entry ∧
            c4LogEntryDecode request.payload = .ok entry
  | .returned (.ok ()) => ∀ member ∈ members, system.HasFirst member entries entries.length
  | .returned (.error _) => True

section Phases

variable {system next : System} {node : NodeID} {entries : List C4LogEntry}
  {members : List NodeID} {lastIndex : UInt64} {phase after : BroadcastPhase}

theorem HasFirst.mono {count : Nat} (grows : system.Grows next)
    (has : system.HasFirst node entries count) : next.HasFirst node entries count :=
  fun position entry before found => (has position entry before found).mono grows

theorem BroadcastOk.mono (grows : system.Grows next)
    (fine : system.BroadcastOk entries members phase) : next.BroadcastOk entries members phase := by
  cases phase with
  | call remaining index =>
    obtain ⟨done, split, all, first⟩ := fine
    exact ⟨done, split, fun member isDone => (all member isDone).mono grows,
      fun member isFirst => (first member isFirst).mono grows⟩
  | await request remaining index =>
    obtain ⟨done, split, all, kind, first⟩ := fine
    exact ⟨done, split, fun member isDone => (all member isDone).mono grows, kind,
      fun member isFirst => ⟨(first member isFirst).1.mono grows, (first member isFirst).2⟩⟩
  | returned result =>
    cases result with
    | error code => trivial
    | ok done => exact fun member isMember => (fine member isMember).mono grows

omit [Zlib] in
/-- One entry more. -/
theorem HasFirst.succ {count : Nat} {entry : C4LogEntry}
    (has : system.HasFirst node entries count) (found : entries[count]? = some entry)
    (holds : system.Holds node entry) : system.HasFirst node entries (count + 1) := by
  intro position other before isOther
  rcases Nat.lt_succ_iff_lt_or_eq.mp before with earlier | same
  · exact has position other earlier isOther
  · rw [same, found] at isOther
    cases isOther
    exact holds

omit [Zlib] in
theorem c4LogGet_of_prefix {log : C4Log} {index : UInt64} {entry : C4LogEntry}
    (longer : entries <+: log.entries) (within : index.toNat ≤ entries.length)
    (got : c4LogGet log index = .ok entry) :
    index ≠ 0 ∧ entries[index.toNat - 1]? = some entry ∧ entry ∈ log.entries := by
  unfold c4LogGet at got
  split at got
  · cases got
  · rename_i positive
    split at got
    · cases got
    · rename_i found
      cases got
      refine ⟨positive, ?_, List.mem_of_getElem? found⟩
      have room : index.toNat - 1 < entries.length := by
        have : index.toNat ≠ 0 := fun zero => positive (UInt64.toNat_inj.mp zero)
        omega
      obtain ⟨rest, whole⟩ := longer
      rw [← whole, List.getElem?_append_left room] at found
      exact found

/-- A broadcast takes a step. -/
theorem BroadcastOk.run (vouched : Vouched system) {generated : TransactionId}
    {sent : Option Message} (fine : system.BroadcastOk entries members phase)
    (longer : entries <+: (system.log node).entries)
    (last : lastIndex.toNat = entries.length)
    (taken : BroadcastTask.step generated (system.cluster node) ⟨lastIndex, phase⟩ =
      some (after, sent)) : system.BroadcastOk entries members after := by
  cases phase with
  | call remaining index =>
    obtain ⟨done, split, all, first⟩ := fine
    cases remaining with
    | nil =>
      cases taken
      rw [List.append_nil] at split
      exact fun member isMember => all member (split ▸ isMember)
    | cons destination rest =>
      have has : system.HasFirst destination entries (index.toNat - 1) := first destination rfl
      rw [BroadcastTask.step] at taken
      dsimp only at taken
      split at taken
      · rename_i past
        cases taken
        refine ⟨done ++ [destination], by rw [split, List.append_assoc, List.singleton_append], ?_,
          fun _ _ _ _ before => absurd before (Nat.not_lt_zero _)⟩
        intro member isDone
        rcases List.mem_append.mp isDone with old | new
        · exact all member old
        · rw [List.mem_singleton.mp new]
          intro position entry before
          refine has position entry ?_
          have beyond := UInt64.lt_iff_toNat_lt.mp past
          omega
      · rename_i within
        have bound : index.toNat ≤ entries.length := by
          rw [← last]
          exact UInt64.le_iff_toNat_le.mp (UInt64.not_lt.mp within)
        split at taken
        · cases taken
          trivial
        · rename_i entry got
          obtain ⟨positive, found, inLog⟩ := c4LogGet_of_prefix longer bound got
          split at taken
          · cases taken
            trivial
          · rename_i wire encoded
            cases taken
            have sound := (vouched.valid node).entries.sound entry inLog
            refine ⟨done, split, all, rfl, fun member isFirst => ?_⟩
            obtain rfl := Option.some.inj isFirst
            exact ⟨has, rfl, positive, entry, found,
              c4LogEntryDecode_encode sound.1 sound.2.1 encoded⟩
  | await request remaining index => cases taken
  | returned result => cases taken

/-- The remote call of a broadcast ends. -/
theorem BroadcastOk.receive (transferred : system.Transferred) {errno : Errno}
    {response : Except Errno Message} (fine : system.BroadcastOk entries members phase)
    (ends : CallEnds system (.broadcast ⟨lastIndex, phase⟩) response)
    (received : BroadcastTask.receive errno ⟨lastIndex, phase⟩ response = some after) :
    system.BroadcastOk entries members after := by
  cases phase with
  | call remaining index => cases received
  | returned result => cases received
  | await request remaining index =>
    obtain ⟨done, split, all, kind, first⟩ := fine
    cases ends with
    | failed code =>
      cases received
      trivial
    | replied awaited reply isAwaited sent =>
      cases isAwaited
      rw [BroadcastTask.receive] at received
      dsimp only at received
      split at received
      · rename_i isAck
        cases received
        refine ⟨done, split, all, fun member isFirst => ?_⟩
        obtain ⟨has, destination, positive, entry, found, decoded⟩ := first member isFirst
        obtain ⟨other, decodedOther, holds⟩ := transferred request reply sent kind isAck
        rw [decoded] at decodedOther
        cases decodedOther
        rw [destination] at holds
        have next := has.succ found holds
        have nonzero : index.toNat ≠ 0 := fun zero => positive (UInt64.toNat_inj.mp zero)
        intro position other before
        refine next position other ?_
        have wrapped : (index + 1).toNat ≤ index.toNat + 1 := by
          rw [UInt64.toNat_add]
          exact Nat.mod_le _ _
        omega
      · cases received
        trivial

end Phases

/-- A run on which a broadcast of a log goes on. -/
structure Broadcasts (index : Nat) (node : NodeID) (lastIndex : UInt64)
    (entries : List C4LogEntry) (members : List NodeID) (system : System) : Prop where
  vouched : Vouched system
  transferred : system.Transferred
  longer : entries <+: (system.log node).entries
  task : ∃ phase, system.tasks[index]? = some ⟨node, .broadcast ⟨lastIndex, phase⟩⟩ ∧
    system.BroadcastOk entries members phase

theorem Broadcasts.step {index : Nat} {node : NodeID} {lastIndex : UInt64}
    {entries : List C4LogEntry} {members : List NodeID} {system next : System} {action : Action}
    (broadcasts : Broadcasts index node lastIndex entries members system)
    (last : lastIndex.toNat = entries.length) (stepped : system.step action = some next) :
    Broadcasts index node lastIndex entries members next := by
  have step := systemStep_of_step stepped
  have grows := System.grows_of_step step
  obtain ⟨phase, found, fine⟩ := broadcasts.task
  refine ⟨broadcasts.vouched.step step, broadcasts.transferred.step broadcasts.vouched step,
    broadcasts.longer.trans (grows node).log.extends_entries, ?_⟩
  cases taskStep_of_step stepped found with
  | kept found => exact ⟨phase, found, fine.mono grows⟩
  | ran generated outcome errno taken found =>
    obtain ⟨⟨after, sent⟩, advanced, same⟩ := Option.map_eq_some_iff.mp taken
    cases same
    exact ⟨after, found, (fine.run broadcasts.vouched broadcasts.longer last advanced).mono grows⟩
  | ended errno ends received found =>
    obtain ⟨after, advanced, same⟩ := Option.map_eq_some_iff.mp received
    cases same
    exact ⟨after, found, (fine.receive broadcasts.transferred ends advanced).mono grows⟩

/-- A log that has all entries of another one has them in the same places. -/
theorem prefix_of_holds {system : System} {node : NodeID} {entries : List C4LogEntry}
    (valid : C4Log.ValidEntries entries) (validOther : (system.log node).Valid)
    (has : system.HasFirst node entries entries.length) :
    entries <+: (system.log node).entries := by
  rw [List.prefix_iff_getElem?]
  intro position inside
  have holds := has position _ inside (List.getElem?_eq_getElem inside)
  obtain ⟨place, found⟩ := List.getElem?_of_mem (KeyedList.lookup_mem holds)
  have number := valid.numbered position _ (List.getElem?_eq_getElem inside)
  rw [validOther.entries.numbered place _ found] at number
  rw [← found]
  congr 1
  omega

/-- **A completed broadcast has replicated the log.** When `c4_broadcast_log` returns success, the
log of every super peer that it has addressed begins with the log that the coordinator had when the
broadcast began. -/
theorem broadcast_replicated {start earlier began system : System} (initial : start.Initial)
    (reached : Transition.Reaches step (fun _ _ => True) start earlier) {node : NodeID}
    (begins : earlier.step (.broadcast node) = some began)
    (continued : Transition.Reaches step (fun _ _ => True) began system) {task : BroadcastTask}
    (found : system.tasks[earlier.tasks.length]? = some ⟨node, .broadcast task⟩)
    (succeeded : task.phase = .returned (.ok ())) :
    ∀ member ∈ c4AliveSuperpeers (earlier.cluster node),
      (earlier.log node).entries <+: (system.log member).entries := by
  obtain ⟨vouched, transferred⟩ := invariant_of_vouched initial
    (show start.Transferred from fun request reply sent => by rw [initial.network] at sent; cases sent)
    (fun _ _ _ vouched transferred _ step => transferred.step vouched step) reached
  have last : (c4LogLastIndex (earlier.log node)).toNat = (earlier.log node).entries.length := by
    rw [c4LogLastIndex, UInt64.toNat_ofNat']
    exact Nat.mod_eq_of_lt (lt_of_le_of_lt (vouched.valid node).entries.bounded (by decide))
  have begun : Broadcasts earlier.tasks.length node (c4LogLastIndex (earlier.log node))
      (earlier.log node).entries (c4AliveSuperpeers (earlier.cluster node)) began := by
    have step := systemStep_of_step begins
    cases begins
    exact ⟨vouched.step step, transferred.step vouched step, List.prefix_refl _, _,
      List.getElem?_concat_length, [], rfl, fun _ none => absurd none List.not_mem_nil,
      fun _ _ _ _ before => absurd before (Nat.not_lt_zero _)⟩
  have broadcasts := continued.invariant begun
    fun _ _ _ broadcasts _ stepped => broadcasts.step last stepped
  obtain ⟨phase, isTask, fine⟩ := broadcasts.task
  rw [isTask] at found
  cases found
  cases succeeded
  intro member isMember
  exact prefix_of_holds (vouched.valid node).entries (broadcasts.vouched.valid member)
    (fine member isMember)

/-- The first of two super peers broadcasts the entry that it has. -/
def broadcastRun (id : TransactionId) : List Action :=
  acknowledgedCall 1 (requestOf 1 2 .stateTransfer (transactionOf 0) (c4LogRecord (entryOf 1 id))) ++
    [runTask 1, runTask 1]

omit [Zlib] in
/-- The log of the second super peer begins with the log of the first one. -/
theorem broadcast_replicated_pair :
    letI := Zlib.reference
    ∃ earlier system : System, (earlier.log (nodeOf 1)).entries = [entryOf 1 (transactionOf 1)] ∧
      c4AliveSuperpeers (earlier.cluster (nodeOf 1)) = [nodeOf 2] ∧
      (earlier.log (nodeOf 1)).entries <+: (system.log (nodeOf 2)).entries := by
  let zlib := Zlib.reference
  have computed : (Transition.run (Transition.guarded System.step fun _ _ => True)
      (startOf [nodeOf 1, nodeOf 2] (nodeOf 1)) (replicatedRun (transactionOf 1))).any
      (fun earlier => (earlier.step (.broadcast (nodeOf 1))).any fun began =>
        (Transition.run (Transition.guarded System.step fun _ _ => True) began
          (broadcastRun (transactionOf 1))).any fun final =>
            (earlier.log (nodeOf 1)).entries = [entryOf 1 (transactionOf 1)] ∧
            c4AliveSuperpeers (earlier.cluster (nodeOf 1)) = [nodeOf 2] ∧
            final.tasks[earlier.tasks.length]? =
              some ⟨nodeOf 1, .broadcast ⟨1, .returned (.ok ())⟩⟩) = true := by
    decide +kernel
  obtain ⟨earlier, first, computed⟩ := (Option.any_eq_true _ _).mp computed
  obtain ⟨began, begins, computed⟩ := (Option.any_eq_true _ _).mp computed
  obtain ⟨system, second, computed⟩ := (Option.any_eq_true _ _).mp computed
  obtain ⟨log, members, found⟩ := of_decide_eq_true computed
  have reached : Transition.Reaches System.step (fun _ _ => True)
      (startOf [nodeOf 1, nodeOf 2] (nodeOf 1)) earlier :=
    Transition.Reaches.refl.of_run (fun _ _ permitted => permitted) first
  have continued : Transition.Reaches System.step (fun _ _ => True) began system :=
    Transition.Reaches.refl.of_run (fun _ _ permitted => permitted) second
  refine ⟨earlier, system, log, members, ?_⟩
  refine broadcast_replicated (initial_startOf _ _) reached begins continued found rfl (nodeOf 2) ?_
  rw [members]
  exact List.mem_singleton_self _

end System

end SuperPeerNet
