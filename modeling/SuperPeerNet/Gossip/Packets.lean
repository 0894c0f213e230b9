/-
This file follows the gossip of a super peer from the messages that write its table to the
packets that it sends: the handlers of `JOIN` and `LEAVE` of `superpeer.c`, those of
heartbeats and gossip, the clock of the detector, and what a receiver makes of the result.

A receiver drops a packet as a whole if one record in it is not well formed. For a Peer this
includes that its home reports it. Every path into the table keeps that, but a change of state
makes the local node the reporter, and three steps change the state of Peers that are at home
elsewhere: their departure, their first heartbeat after a suspicion, and the clock, for those
that a rumour has turned from super peers into Peers.
-/

import SuperPeerNet.Library.Transition
import SuperPeerNet.Gossip.Heartbeat
import SuperPeerNet.Rpc

namespace SuperPeerNet

/-! ### The handlers -/

section Handlers

variable [Inet] [Sha256] [Process]

/-- `heartbeat_register`. -/
def heartbeatRegister (heartbeat : Heartbeat) (node : Node) (incarnation : UInt64)
    (clocks : Clocks) : Heartbeat × Except Errno Unit :=
  let registration := membershipRegister heartbeat.members node heartbeat.localNode.id incarnation
    (clocks.monotonic 0) (clocks.wall 0)
  match registration.2 with
  | .error code => ({ heartbeat with members := registration.1 }, .error code)
  | .ok _ => heartbeatCheckpoint { heartbeat with members := registration.1 }

/-- The incarnation in a `JOIN`, zero if there is none. -/
def joinIncarnation (payload : List UInt8) : UInt64 :=
  if payload.length = joinPayloadWireSize + 9 ∧ payload.getD joinPayloadWireSize 0 = 1 then
    wireGetU64 (payload.drop (joinPayloadWireSize + 1))
  else 0

/-- `register_join`. A payload of another size is refused without an error code of its own. -/
def registerJoin (heartbeat : Heartbeat) (request : Message) (clocks : Clocks) :
    Heartbeat × Except Errno Unit :=
  let incarnation := joinIncarnation request.payload
  if request.destinationNode ≠ Octets.fill nodeIdSize 0 ∧
      request.destinationNode ≠ heartbeat.localNode.id then (heartbeat, .error .ehostunreach)
  else if request.payload.length ≠ joinPayloadWireSize ∧
      (request.payload.length ≠ joinPayloadWireSize + 9 ∨ incarnation = 0) then
    (heartbeat, .error .einval)
  else match rpcDecodeJoinPayload (request.payload.take joinPayloadWireSize) with
    | .error code => (heartbeat, .error code)
    | .ok config => match nodeInit config with
      | .error code => (heartbeat, .error code)
      | .ok node =>
        if node.id ≠ request.sourceNode then (heartbeat, .error .einval)
        else if node.id = heartbeat.localNode.id then (heartbeat, .error .eexist)
        else heartbeatRegister heartbeat node incarnation clocks

/-- The test of `M_LEAVE`: without a payload the node is unknown or has no incarnation, and
otherwise the payload names its incarnation. -/
def leaveValid (heartbeat : Heartbeat) (request : Message) : Bool :=
  match heartbeat.members.findMember request.sourceNode with
  | .error _ => request.payload = []
  | .ok leaving =>
    if request.payload = [] then leaving.incarnation = 0
    else request.payload.length = 9 ∧ request.payload.getD 0 0 = 1 ∧
      wireGetU64 (request.payload.drop 1) = leaving.incarnation ∧
      request.destinationNode = heartbeat.localNode.id

/-- The branch of `handle_client` for `M_LEAVE`. -/
def handleLeave (heartbeat : Heartbeat) (request : Message) : Heartbeat × Except Errno Unit :=
  if leaveValid heartbeat request then
    if request.sourceNode = Octets.fill nodeIdSize 0 then (heartbeat, .ok ())
    else
      let departure := superpeerUnregisterNode heartbeat.members request.sourceNode
      match departure.2 with
      | .error _ => ({ heartbeat with members := departure.1 }, .ok ())
      | .ok _ => ((heartbeatCheckpoint { heartbeat with members := departure.1 }).1, .ok ())
  else (heartbeat, .error .estale)

/-- `evaluate`, up to the notification of failures. -/
def evaluate (heartbeat : Heartbeat) (now : Int) : Heartbeat :=
  let ticked := membershipTick heartbeat.members now heartbeat.limits
  match ticked.2 with
  | .error _ => { heartbeat with members := ticked.1 }
  | .ok _ => (heartbeatCheckpoint { heartbeat with members := ticked.1 }).1

/-- What happens to a running super peer. -/
inductive GossiperEvent where
  | join (request : Message) (clocks : Clocks)
  | leave (request : Message)
  | handle (request : Message) (clocks : Clocks)
  | tick (now : Int)
  | probe (id : NodeID) (incarnation sequence : UInt64) (now : Int) (success : Bool)
  | emit (gossip : Bool)

/-- A running super peer after an event. -/
def Heartbeat.step (heartbeat : Heartbeat) : GossiperEvent → Option Heartbeat
  | .join request clocks => some (registerJoin heartbeat request clocks).1
  | .leave request => some (handleLeave heartbeat request).1
  | .handle request clocks => some (heartbeatHandle heartbeat request clocks).1
  | .tick now => some (evaluate heartbeat now)
  | .probe id incarnation sequence now success => some { heartbeat with
      members := membershipProbe heartbeat.members id incarnation sequence now success }
  | .emit gossip => some (encodePacket heartbeat gossip).1

end Handlers

/-! ### Peers that are at home elsewhere -/

/-- A record of a Peer of the domain of another super peer. -/
def MemberRecord.foreign (localId : NodeID) (member : MemberRecord) : Prop :=
  member.node.role = .peer ∧ member.home ≠ localId

/-- The detector is about to move a member. -/
def dueAt (limits : Limits) (now : Int) (member : MemberRecord) : Prop :=
  member.localRegistration ∧
    ((member.state = .alive ∧ now - member.observedMs ≥ limits.suspectMs) ∨
      (member.state = .suspect ∧ now - member.observedMs ≥ limits.failedMs ∧
        member.failedProbes ≥ 2) ∨
      (member.state = .failed ∧ now - member.observedMs ≥ limits.removedMs))

/-- A member whom the detector is not about to move stays as it is. -/
theorem tickMember_of_not_due {limits : Limits} {now : Int} {member : MemberRecord}
    (localId : NodeID) (idle : ¬ dueAt limits now member) :
    (tickMember localId limits now member).1 = member := by
  unfold tickMember
  split
  · rfl
  · rename_i watched
    have flagged : member.localRegistration = true := by
      by_contra unflagged
      exact watched (Or.inr unflagged)
    simp only [dueAt, flagged, true_and, not_or] at idle
    obtain ⟨notSuspected, notFailed, notRemoved⟩ := idle
    simp only [stepIf, notSuspected, notFailed, notRemoved, decide_false, if_false,
      Bool.false_eq_true]

section Reports

variable [Inet] [Sha256] [Process]

/-- A record that every receiver accepts: its node was built from a configuration, and a Peer is
reported by its home. -/
structure Reportable (member : MemberRecord) : Prop where
  built : BuiltNode member.node
  reported : member.node.role = .peer → member.home = member.reporter

/-- The calls that make no false reports: what enters the table was built and is at home with the
local node or its reporter, and the state of a Peer from elsewhere does not change. -/
def TellsTruth (table : SuperPeer) : MembershipCall → Prop
  | .register node home _ _ _ =>
    BuiltNode node ∧ (node.role = .peer → home = table.localNode.id)
  | .heartbeat incoming _ _ => ∀ member, table.find incoming.id = some member →
      member.foreign table.localNode.id → member.state = .alive ∨ heartbeatStale member incoming
  | .merge incoming _ => BuiltNode incoming.node
  | .probe .. => True
  | .tick now limits => ∀ member ∈ table.members, member.foreign table.localNode.id →
      ¬ dueAt limits now member
  | .unregister id => ∀ member, table.find id = some member →
      ¬ member.foreign table.localNode.id

omit [Inet] [Sha256] [Process] in
/-- A Peer that is not from elsewhere is at home with the local node. -/
theorem home_of_not_foreign {localId : NodeID} {member : MemberRecord}
    (near : ¬ member.foreign localId) (isPeer : member.node.role = .peer) :
    member.home = localId :=
  not_ne_iff.mp fun away => near ⟨isPeer, away⟩

omit [Inet] [Sha256] [Process] in
/-- A transition makes the local node the reporter, or it changes nothing. -/
theorem reporter_transition (localId : NodeID) (member : MemberRecord)
    (state : SuperPeerMemberState) :
    (transition localId member state).reporter =
      if member.state = state then member.reporter else localId := by
  unfold transition
  split
  · rfl
  · rfl

omit [Inet] [Sha256] [Process] in
/-- The detector makes the local node the reporter, or it changes nothing. -/
theorem reporter_tickMember (localId : NodeID) (limits : Limits) (now : Int)
    (member : MemberRecord) :
    (tickMember localId limits now member).1.reporter = member.reporter ∨
      (tickMember localId limits now member).1.reporter = localId := by
  have step : ∀ due member state, (stepIf due localId member state).1.reporter = member.reporter ∨
      (stepIf due localId member state).1.reporter = localId := by
    intro due member state
    unfold stepIf
    split
    · rw [reporter_transition]
      split
      · exact Or.inl rfl
      · exact Or.inr rfl
    · exact Or.inl rfl
  have chain : ∀ {first second third : NodeID}, second = first ∨ second = localId →
      third = second ∨ third = localId → third = first ∨ third = localId := by
    rintro first second third before (rfl | rfl)
    · exact before
    · exact Or.inr rfl
  unfold tickMember
  split
  · exact Or.inl rfl
  · exact chain (chain (step _ _ _) (step _ _ _)) (step _ _ _)

/-- What a truthful call writes stays reportable. -/
theorem Reportable.rewrites {table : SuperPeer} {call : MembershipCall}
    {member written : MemberRecord} (reportable : Reportable member)
    (inside : member ∈ table.members) (truth : TellsTruth table call)
    (rewrites : Rewrites table call member written) : Reportable written := by
  cases rewrites with
  | idle => exact reportable
  | @register node home incarnation now wall _ valid same current =>
    obtain ⟨_, fields⟩ := registered_eq table.localNode.id member node home incarnation now wall
    rw [fields]
    exact ⟨truth.1, fun isPeer => truth.2 isPeer⟩
  | @heartbeat incoming now wall _ same alive begun current found =>
    refine ⟨?_, ?_⟩
    · obtain ⟨_, _, fields⟩ := beaten_eq table.localNode.id member incoming now wall
      rw [fields]
      exact reportable.built
    · have nodeEq : (beaten table.localNode.id member incoming now wall).node = member.node := by
        obtain ⟨_, _, fields⟩ := beaten_eq table.localNode.id member incoming now wall
        rw [fields]
      have homeEq : (beaten table.localNode.id member incoming now wall).home = member.home := by
        obtain ⟨_, _, fields⟩ := beaten_eq table.localNode.id member incoming now wall
        rw [fields]
      have reporterEq : (beaten table.localNode.id member incoming now wall).reporter =
          if member.state = .alive then member.reporter else table.localNode.id :=
        reporter_transition ..
      intro isPeer
      rw [nodeEq] at isPeer
      rw [homeEq, reporterEq]
      split
      · exact reportable.reported isPeer
      · rename_i changed
        refine home_of_not_foreign (fun away => ?_) isPeer
        rcases truth member found away with still | stale
        · exact changed still
        · exact current stale
  | @merge incoming now _ valid same remote reported later admitted elsewhere =>
    exact ⟨truth, reported⟩
  | @probe id incarnation sequence now success _ same =>
    obtain ⟨_, _, fields⟩ := probed_eq member incarnation sequence now success
    rw [fields]
    exact ⟨reportable.built, reportable.reported⟩
  | @tick now limits ordered =>
    by_cases away : member.foreign table.localNode.id
    · rw [tickMember_of_not_due _ (truth member inside away)]
      exact reportable
    · have reporter := reporter_tickMember table.localNode.id limits now member
      obtain ⟨_, newReporter, _, fields⟩ := tickMember_eq table.localNode.id limits now member
      rw [fields] at reporter ⊢
      refine ⟨reportable.built, fun isPeer => ?_⟩
      have own : member.home = table.localNode.id := home_of_not_foreign away isPeer
      have kept := reportable.reported isPeer
      show member.home = newReporter
      rcases reporter with same | same
      · exact kept.trans same.symm
      · exact own.trans same.symm
  | @unregister id _ same remote found =>
    exact ⟨reportable.built, fun isPeer => home_of_not_foreign (truth member found) isPeer⟩

/-- A truthful call leaves every record reportable. -/
theorem reportable_call {table : SuperPeer} {call : MembershipCall}
    (reportable : ∀ member ∈ table.members, Reportable member) (truth : TellsTruth table call) :
    ∀ member ∈ (table.call call).members, Reportable member := by
  intro member inside
  obtain ⟨kept, pairs, outcome⟩ := (changed_call table call).members
  have keptReportable : ∀ written ∈ kept, Reportable written := by
    intro written held
    obtain ⟨old, oldInside, rewrites⟩ := KeyedList.exists_related pairs held
    exact (reportable old oldInside).rewrites oldInside truth rewrites
  rcases outcome with same | ⟨new, same, enters, -⟩
  · rw [same] at inside
    exact keptReportable member inside
  · rw [same] at inside
    rcases List.mem_append.mp inside with held | isNew
    · exact keptReportable member held
    · rw [List.mem_singleton.mp isNew]
      cases enters with
      | @register node home incarnation now wall valid =>
        obtain ⟨_, fields⟩ := registered_eq table.localNode.id (setMember node now wall) node home
          incarnation now wall
        rw [fields]
        exact ⟨truth.1, fun isPeer => truth.2 isPeer⟩
      | merge valid remote reported => exact ⟨truth, reported⟩

/-! ### A super peer that makes no false reports -/

/-- What holds of a super peer whose packets every receiver accepts. -/
structure Truthful (heartbeat : Heartbeat) : Prop where
  own : heartbeat.members.localNode.id = heartbeat.localNode.id
  built : BuiltNode heartbeat.localNode
  role : heartbeat.localNode.role = .superPeer
  home : heartbeat.home = heartbeat.localNode.id
  begun : heartbeat.incarnation ≠ 0
  reportable : ∀ member ∈ heartbeat.members.members, Reportable member

/-- The events that do not change the state of a Peer from elsewhere: no such Peer leaves here, is
heard from after a suspicion in a message that is handled, or is moved by the clock. -/
def KeepsReports (heartbeat : Heartbeat) : GossiperEvent → Prop
  | .leave request => leaveValid heartbeat request →
      ∀ member, heartbeat.members.find request.sourceNode = some member →
        ¬ member.foreign heartbeat.localNode.id
  | .handle request _ => request.destinationNode = heartbeat.localNode.id →
      request.messageType = .heartbeat ∨ request.messageType = .gossip → ∀ sender batch member,
      decodePacket heartbeat.localNode.id request.payload request.sourceNode
        (request.messageType = .gossip) = .ok (sender, batch) →
      heartbeat.members.findMember request.sourceNode = .ok member →
      member.foreign heartbeat.localNode.id → member.state = .alive ∨ heartbeatStale member sender
  | .tick now => ∀ member ∈ heartbeat.members.members, member.foreign heartbeat.localNode.id →
      ¬ dueAt heartbeat.limits now member
  | .join .. | .probe .. | .emit .. => True

/-- One truthful call. -/
theorem Truthful.call {heartbeat : Heartbeat} (truthful : Truthful heartbeat)
    {call : MembershipCall} (truth : TellsTruth heartbeat.members call) :
    Truthful { heartbeat with members := heartbeat.members.call call } where
  own := by
    show (heartbeat.members.call call).localNode.id = _
    rw [(changed_call heartbeat.members call).localNode]
    exact truthful.own
  built := truthful.built
  role := truthful.role
  home := truthful.home
  begun := truthful.begun
  reportable := reportable_call truthful.reportable truth

/-- Truthful calls, one after the other. -/
theorem Truthful.calls {heartbeat : Heartbeat} (truthful : Truthful heartbeat)
    {calls : List MembershipCall}
    (truth : ∀ call ∈ calls, ∀ table : SuperPeer, TellsTruth table call) :
    Truthful { heartbeat with members := heartbeat.members.calls calls } := by
  induction calls generalizing heartbeat with
  | nil => exact truthful
  | cons call rest inductionHypothesis =>
    exact inductionHypothesis (truthful.call (truth call List.mem_cons_self _))
      fun other inside => truth other (List.mem_cons_of_mem _ inside)

/-- Files and cursors do not matter. -/
theorem Truthful.of_eq {heartbeat after : Heartbeat} (truthful : Truthful heartbeat)
    (localNode : after.localNode = heartbeat.localNode) (members : after.members = heartbeat.members)
    (home : after.home = heartbeat.home) (begun : after.incarnation ≠ 0) : Truthful after where
  own := by rw [members, localNode]; exact truthful.own
  built := by rw [localNode]; exact truthful.built
  role := by rw [localNode]; exact truthful.role
  home := by rw [home, localNode]; exact truthful.home
  begun := begun
  reportable := by rw [members]; exact truthful.reportable

theorem Truthful.checkpoint {heartbeat : Heartbeat} (truthful : Truthful heartbeat) :
    Truthful (heartbeatCheckpoint heartbeat).1 := by
  obtain ⟨directory, same⟩ := heartbeatCheckpoint_eq heartbeat
  rw [same]
  exact truthful.of_eq rfl rfl rfl truthful.begun

/-! ### The events -/

theorem Truthful.register {heartbeat : Heartbeat} (truthful : Truthful heartbeat) {node : Node}
    (built : BuiltNode node) (incarnation : UInt64) (clocks : Clocks) :
    Truthful (heartbeatRegister heartbeat node incarnation clocks).1 := by
  have truth : TellsTruth heartbeat.members (.register node heartbeat.localNode.id incarnation
      (clocks.monotonic 0) (clocks.wall 0)) :=
    ⟨built, fun _ => truthful.own.symm⟩
  have registered := truthful.call truth
  unfold heartbeatRegister
  simp only
  split
  · exact registered
  · exact registered.checkpoint

theorem Truthful.join {heartbeat : Heartbeat} (truthful : Truthful heartbeat) (request : Message)
    (clocks : Clocks) : Truthful (registerJoin heartbeat request clocks).1 := by
  unfold registerJoin
  simp only
  split
  · exact truthful
  · split
    · exact truthful
    · split
      · exact truthful
      · rename_i config decoded
        split
        · exact truthful
        · rename_i node initialised
          split
          · exact truthful
          · split
            · exact truthful
            · refine truthful.register ?_ _ clocks
              unfold rpcDecodeJoinPayload at decoded
              split at decoded
              · cases decoded
              · split at decoded
                · cases decoded
                · exact ⟨_, _, _, config, node, decoded, initialised, rfl⟩

theorem Truthful.leave {heartbeat : Heartbeat} (truthful : Truthful heartbeat) {request : Message}
    (near : leaveValid heartbeat request → ∀ member,
      heartbeat.members.find request.sourceNode = some member →
        ¬ member.foreign heartbeat.localNode.id) :
    Truthful (handleLeave heartbeat request).1 := by
  unfold handleLeave
  split
  · rename_i valid
    split
    · exact truthful
    · have truth : TellsTruth heartbeat.members (.unregister request.sourceNode) := by
        intro member found
        rw [truthful.own]
        exact near valid member found
      have departed := truthful.call truth
      simp only
      split
      · exact departed
      · exact departed.checkpoint
  · exact truthful

theorem Truthful.tick {heartbeat : Heartbeat} (truthful : Truthful heartbeat) {now : Int}
    (idle : ∀ member ∈ heartbeat.members.members, member.foreign heartbeat.localNode.id →
      ¬ dueAt heartbeat.limits now member) :
    Truthful (evaluate heartbeat now) := by
  have truth : TellsTruth heartbeat.members (.tick now heartbeat.limits) := by
    intro member inside away
    rw [truthful.own] at away
    exact idle member inside away
  have ticked := truthful.call truth
  unfold evaluate
  simp only
  split
  · exact ticked
  · exact ticked.checkpoint

/-- The heartbeat of a super peer says nothing about Peers. -/
theorem tellsTruth_heartbeat_of_super {sender : MemberRecord}
    (isSuper : sender.node.role = .superPeer) (now wall : Int) (table : SuperPeer) :
    TellsTruth table (.heartbeat sender now wall) := by
  intro member found away
  refine Or.inr (Or.inl ?_)
  rw [isSuper, away.1]
  decide

theorem Truthful.packet {heartbeat : Heartbeat} (truthful : Truthful heartbeat)
    {payload : List UInt8} {source : NodeID} {gossip : Bool} (clocks : Clocks)
    (near : ∀ sender batch member,
      decodePacket heartbeat.localNode.id payload source gossip = .ok (sender, batch) →
      heartbeat.members.findMember source = .ok member →
      member.foreign heartbeat.localNode.id →
        member.state = .alive ∨ heartbeatStale member sender) :
    Truthful (applyPacket heartbeat payload source gossip clocks).1 := by
  obtain ⟨calls, incarnation, sequence, reconnect, directory, same, begun, made⟩ :=
    applyPacket_calls heartbeat payload source gossip clocks
  rw [same]
  suffices told : Truthful { heartbeat with members := heartbeat.members.calls calls } from
    told.of_eq rfl rfl rfl (begun truthful.begun)
  rcases made with none | ⟨sender, batch, evidence, rumours, rfl, read, shown, told⟩
  · rw [none]
    exact truthful
  · have accepted := accepted_of_decodePacket read
    obtain ⟨senderInput, senderDecoded⟩ := accepted.decoded
    have senderBuilt : BuiltNode sender.node := (gossipDecodeRecord_eq_ok senderDecoded).1
    obtain ⟨discovery, discovered, shown⟩ := shown
    have discoveryTrue : ∀ call ∈ discovery, ∀ table, TellsTruth table call := by
      intro call inside table
      obtain ⟨isSuper, now, wall, rfl⟩ := discovered call inside
      refine ⟨senderBuilt, fun isPeer => ?_⟩
      rw [isSuper] at isPeer
      cases isPeer
    have rumoursTrue : ∀ call ∈ rumours, ∀ table, TellsTruth table call := by
      intro call inside table
      obtain ⟨record, now, rfl, ⟨input, decoded⟩, _, _⟩ := told call inside
      exact (gossipDecodeRecord_eq_ok decoded).1
    have evidenceTrue : Truthful { heartbeat with members := heartbeat.members.calls evidence } := by
      rcases shown with rfl | ⟨now, wall, rfl, known⟩
      · exact truthful.calls discoveryTrue
      · have truth : TellsTruth (heartbeat.members.calls discovery) (.heartbeat sender now wall) := by
          by_cases isSuper : sender.node.role = .superPeer
          · exact tellsTruth_heartbeat_of_super isSuper now wall _
          · -- A Peer is not discovered, so its heartbeat meets the table as it was.
            have nothing : discovery = [] := List.eq_nil_iff_forall_not_mem.mpr
              fun call inside => isSuper (discovered call inside).1
            obtain ⟨member, found⟩ := known.resolve_left isSuper
            rw [nothing]
            intro other held away
            rw [accepted.sent.1] at held
            cases (find_of_findMember found).symm.trans held
            refine near sender batch member read found ?_
            rw [← truthful.own]
            exact away
        rw [calls_append]
        exact (truthful.calls discoveryTrue).call truth
    rw [calls_append]
    exact evidenceTrue.calls rumoursTrue

/-- A counted heartbeat tells of the local node. -/
theorem Truthful.count {heartbeat : Heartbeat} (truthful : Truthful heartbeat) :
    ∃ next, countHeartbeat heartbeat = (next, .ok (selfRecord next)) ∧ Truthful next ∧
      next.localNode = heartbeat.localNode ∧ next.sequence = heartbeat.sequence + 1 := by
  refine ⟨(countHeartbeat heartbeat).1, ?_, ⟨?_, truthful.built, truthful.role, truthful.home,
    truthful.begun, ?_⟩, rfl, rfl⟩
  · unfold countHeartbeat membershipLocal
    simp only [if_neg (not_not.mpr truthful.own)]
    rfl
  · unfold countHeartbeat membershipLocal
    simp only [if_neg (not_not.mpr truthful.own)]
  · unfold countHeartbeat membershipLocal
    simp only [if_neg (not_not.mpr truthful.own)]
    intro member inside
    cases members : heartbeat.members.members with
    | nil =>
      rw [members] at inside
      cases inside
    | cons first rest =>
      rw [members] at inside
      rcases List.mem_cons.mp inside with rfl | inRest
      · exact ⟨truthful.built, fun _ => rfl⟩
      · refine truthful.reportable member ?_
        rw [members]
        exact List.mem_cons_of_mem _ inRest

/-- The record that a node sends about itself, if its epochs are not exhausted. -/
theorem Truthful.record {heartbeat : Heartbeat} (truthful : Truthful heartbeat) :
    Truthful (localRecord heartbeat).1 ∧
    (heartbeat.sequence ≠ maxUInt64 → ∃ self, (localRecord heartbeat).2 = .ok self) ∧
    ∀ self, (localRecord heartbeat).2 = .ok self →
      self = selfRecord (localRecord heartbeat).1 ∧
      (localRecord heartbeat).1.localNode = heartbeat.localNode ∧
      (localRecord heartbeat).1.sequence ≠ 0 := by
  unfold localRecord
  by_cases exhausted : heartbeat.sequence = maxUInt64
  · rw [if_pos exhausted]
    obtain ⟨_, _, _, same⟩ := advanceEpoch_eq heartbeat
    have advanced : Truthful (advanceEpoch heartbeat).1 :=
      truthful.of_eq (by rw [same]) (by rw [same]) (by rw [same])
        (incarnation_advanceEpoch truthful.begun)
    have kept : (advanceEpoch heartbeat).1.localNode = heartbeat.localNode := by rw [same]
    split
    · rename_i stopped code outcome
      rw [outcome] at advanced
      exact ⟨advanced, fun early => absurd exhausted early, nofun⟩
    · rename_i next done outcome
      rw [outcome] at advanced kept
      obtain ⟨counted, told, stillTruthful, sameNode, sequence⟩ := advanced.count
      rw [told]
      refine ⟨stillTruthful, fun _ => ⟨_, rfl⟩, fun self built => ?_⟩
      cases built
      refine ⟨rfl, sameNode.trans kept, ?_⟩
      rw [sequence, (advanceEpoch_eq_ok outcome).2.1]
      decide
  · rw [if_neg exhausted]
    obtain ⟨counted, told, stillTruthful, sameNode, sequence⟩ := truthful.count
    rw [told]
    refine ⟨stillTruthful, fun _ => ⟨_, rfl⟩, fun self built => ?_⟩
    cases built
    refine ⟨rfl, sameNode, ?_⟩
    rw [sequence]
    exact succ_ne_zero_of_ne_max exhausted

/-- The bytes of a gossip packet. -/
def gossipBytes (self : MemberRecord) (batch : List MemberRecord) : List UInt8 :=
  1 :: (memberBytes self ++
    (wirePutU16 (UInt16.ofNat batch.length) ++ batch.flatMap memberBytes))

omit [Inet] [Sha256] [Process] in
/-- Every place of the batch is filled. -/
theorem length_gossipBatch (heartbeat : Heartbeat) :
    (gossipBatch heartbeat).length = batchSize heartbeat := by
  unfold gossipBatch
  rw [List.length_filterMap_eq_countP, List.countP_eq_length.mpr, List.length_range]
  intro position inside
  have some : 0 < (tellable heartbeat).length :=
    Nat.lt_of_lt_of_le (Nat.zero_lt_of_lt (List.mem_range.mp inside)) (Nat.min_le_left _ _)
  rw [List.getElem?_eq_getElem (Nat.mod_lt _ some)]
  rfl

omit [Inet] [Sha256] [Process] in
theorem mem_tellable_of_mem_gossipBatch {heartbeat : Heartbeat} {member : MemberRecord}
    (inside : member ∈ gossipBatch heartbeat) : member ∈ tellable heartbeat := by
  obtain ⟨position, -, found⟩ := List.mem_filterMap.mp inside
  exact List.mem_of_getElem? found

theorem Truthful.emit {heartbeat : Heartbeat} (truthful : Truthful heartbeat) (gossip : Bool) :
    Truthful (encodePacket heartbeat gossip).1 := by
  have recorded := truthful.record.1
  unfold encodePacket
  split
  · rename_i stopped code outcome
    rw [outcome] at recorded
    exact recorded
  · rename_i next self outcome
    rw [outcome] at recorded
    split
    · simp only
      split
      · exact recorded.of_eq rfl rfl rfl recorded.begun
      · exact recorded.of_eq rfl rfl rfl recorded.begun
      · exact recorded.of_eq rfl rfl rfl recorded.begun
    · split
      · exact recorded
      · exact recorded

/-- The members that a truthful super peer tells of are accepted everywhere. -/
theorem Truthful.told {heartbeat : Heartbeat} (truthful : Truthful heartbeat)
    {member : MemberRecord} (inside : member ∈ gossipBatch heartbeat) :
    Reportable member ∧ member.incarnation ≠ 0 := by
  obtain ⟨held, begun⟩ := List.mem_filter.mp (mem_tellable_of_mem_gossipBatch inside)
  refine ⟨truthful.reportable member held, ?_⟩
  rintro zero
  rw [zero] at begun
  cases begun

/-- A truthful super peer whose sequence is not exhausted builds a packet. Every gossip packet
consists of the record of the super peer and of a batch of its members. -/
theorem Truthful.gossip [NormalizingInet] {heartbeat : Heartbeat}
    (truthful : Truthful heartbeat) :
    (heartbeat.sequence ≠ maxUInt64 → ∃ payload, (encodePacket heartbeat true).2 = .ok payload) ∧
    ∀ payload, (encodePacket heartbeat true).2 = .ok payload →
      ∃ next, Truthful next ∧ next.sequence ≠ 0 ∧ next.localNode = heartbeat.localNode ∧
        payload = gossipBytes (selfRecord next) (gossipBatch next) := by
  obtain ⟨recorded, named, told⟩ := truthful.record
  unfold encodePacket
  split
  · rename_i stopped code outcome
    rw [outcome] at named
    refine ⟨fun early => ?_, nofun⟩
    obtain ⟨self, wrong⟩ := named early
    cases wrong
  · rename_i next self outcome
    rw [outcome] at recorded told
    simp only at recorded told
    obtain ⟨rfl, sameNode, begun⟩ := told self rfl
    have own : gossipEncodeRecord (selfRecord next) = .ok (memberOctets (selfRecord next)) :=
      gossipEncodeRecord_of_valid recorded.built.normal.2.2
    have batch : (gossipBatch next).mapM gossipEncodeRecord =
        .ok ((gossipBatch next).map memberOctets) :=
      mapM_gossipEncodeRecord fun member inside => (recorded.told inside).1.built.normal.2.2
    have joined : ((gossipBatch next).map memberOctets).flatMap Octets.toList =
        (gossipBatch next).flatMap memberBytes := by
      rw [List.flatMap_map]
      rfl
    simp only [if_true, own, batch]
    refine ⟨fun _ => ⟨_, rfl⟩, fun payload built => ?_⟩
    cases built
    refine ⟨next, recorded, begun, sameNode, ?_⟩
    rw [gossipBytes, length_gossipBatch, joined, toList_memberOctets]

/-! ### What a receiver makes of a packet -/

/-- A batch of reportable records is decoded. -/
theorem decodeBatch_flatMap [NormalizingInet] {batch : List MemberRecord}
    (told : ∀ member ∈ batch, Reportable member ∧ member.incarnation ≠ 0) :
    decodeBatch batch.length (batch.flatMap memberBytes) = .ok (batch.map decodedForm) := by
  induction batch with
  | nil => rfl
  | cons member rest inductionHypothesis =>
    obtain ⟨reportable, begun⟩ := told member List.mem_cons_self
    have first : Octets.read membershipWireSize (memberBytes member ++ rest.flatMap memberBytes) =
        memberOctets member :=
      Octets.read_append (memberOctets member) _
    have accepted : ¬ ((decodedForm member).incarnation = 0 ∨
        ((decodedForm member).node.role = .peer ∧
          (decodedForm member).home ≠ (decodedForm member).reporter)) := by
      rintro (zero | ⟨isPeer, different⟩)
      · exact begun zero
      · exact different (reportable.reported isPeer)
    rw [List.flatMap_cons, List.length_cons, decodeBatch, first,
      (Storable.of_built reportable.built).decodes, List.drop_left' (length_memberBytes member)]
    simp only [if_neg accepted, inductionHypothesis fun other inRest =>
      told other (List.mem_cons_of_mem _ inRest), List.map_cons]

/-- A packet of a truthful super peer passes all checks of another node. -/
theorem Truthful.accepted [NormalizingInet] {heartbeat : Heartbeat} (truthful : Truthful heartbeat)
    (begun : heartbeat.sequence ≠ 0) {receiver : NodeID}
    (other : receiver ≠ heartbeat.localNode.id) :
    decodePacket receiver (gossipBytes (selfRecord heartbeat) (gossipBatch heartbeat))
      heartbeat.localNode.id true =
        .ok (decodedForm (selfRecord heartbeat), (gossipBatch heartbeat).map decodedForm) := by
  have size : (gossipBatch heartbeat).length ≤ gossipBatchMax := by
    rw [length_gossipBatch]
    exact Nat.min_le_right _ _
  have length : (gossipBytes (selfRecord heartbeat) (gossipBatch heartbeat)).length =
      packetSize true (gossipBatch heartbeat).length := by
    simp only [gossipBytes, List.length_cons, List.length_append, length_memberBytes,
      length_wirePutU16, length_flatMap_memberBytes, packetSize, heartbeatWireSize, if_true]
    rw [Nat.mul_comm, membershipWireSize]
    omega
  have first : (gossipBytes (selfRecord heartbeat) (gossipBatch heartbeat)).drop 1 =
      memberBytes (selfRecord heartbeat) ++ (wirePutU16 (UInt16.ofNat
        (gossipBatch heartbeat).length) ++ (gossipBatch heartbeat).flatMap memberBytes) := rfl
  have second := drop_append_drop _ first (length_memberBytes _)
  have third := drop_append_drop _ second (length_wirePutU16 _)
  have count : packetCount (gossipBytes (selfRecord heartbeat) (gossipBatch heartbeat)) true =
      (gossipBatch heartbeat).length := by
    rw [packetCount, if_pos rfl, show heartbeatWireSize = 1 + membershipWireSize from rfl, second,
      wireGetU16_wirePutU16]
    exact UInt16.toNat_ofNat_of_lt' (Nat.lt_of_le_of_lt size (by decide))
  have long : heartbeatWireSize + 2 ≤
      (gossipBytes (selfRecord heartbeat) (gossipBatch heartbeat)).length := by
    rw [length, packetSize, if_pos rfl]
    omega
  have own : Octets.read membershipWireSize
      (memberBytes (selfRecord heartbeat) ++ (wirePutU16 (UInt16.ofNat
        (gossipBatch heartbeat).length) ++ (gossipBatch heartbeat).flatMap memberBytes)) =
      memberOctets (selfRecord heartbeat) :=
    Octets.read_append (memberOctets (selfRecord heartbeat)) _
  have self : Storable (selfRecord heartbeat) := .of_built truthful.built
  have admitted : ¬ senderRefused receiver heartbeat.localNode.id true
      (decodedForm (selfRecord heartbeat)) := by
    rintro (different | dead | zero | zero | same | ⟨-, notSuper⟩)
    · exact different rfl
    · exact dead rfl
    · exact truthful.begun zero
    · exact begun zero
    · exact other same.symm
    · exact notSuper truthful.role
  have atHome : ¬ ((decodedForm (selfRecord heartbeat)).node.role = .superPeer ∧
      (decodedForm (selfRecord heartbeat)).home ≠ heartbeat.localNode.id) :=
    fun wrong => wrong.2 truthful.home
  have batch := decodeBatch_flatMap fun member inside =>
    truthful.told (show member ∈ gossipBatch heartbeat from inside)
  have headed : ¬ ((gossipBytes (selfRecord heartbeat) (gossipBatch heartbeat)).length <
      heartbeatWireSize ∨
      (gossipBytes (selfRecord heartbeat) (gossipBatch heartbeat)).getD 0 0 ≠ 1) := by
    rintro (short | version)
    · omega
    · exact version rfl
  rw [decodePacket, if_neg headed, if_neg (by omega), count, if_neg, first, own, self.decodes]
  · simp only [if_neg admitted, if_neg atHome]
    rw [show heartbeatWireSize + 2 = 1 + membershipWireSize + 2 from rfl, third, batch]
  · rintro (many | wrong)
    · omega
    · exact wrong length

/-- The files of a node that can be read and written. -/
structure SoundFiles (heartbeat : Heartbeat) : Prop where
  faultless : heartbeat.directory.faults = []
  readable : ∃ disk, diskEpoch heartbeat.directory.epoch = .ok disk

omit [Inet] [Sha256] [Process] in
theorem SoundFiles.advance {heartbeat : Heartbeat} (sound : SoundFiles heartbeat) :
    SoundFiles (advanceEpoch heartbeat).1 ∧ (advanceEpoch heartbeat).2 ≠ .error .ebadmsg := by
  obtain ⟨disk, read⟩ := sound.readable
  rcases advanceEpoch_of_disk sound.faultless read with ⟨-, same⟩ | ⟨-, same⟩
  · rw [same]
    exact ⟨sound, nofun⟩
  · rw [same]
    exact ⟨⟨sound.faultless, _, diskEpoch_wirePutU64 _⟩, nofun⟩

omit [Process] in
theorem gossipEncodeRecord_error {member : MemberRecord} {code : Errno}
    (failed : gossipEncodeRecord member = .error code) : code = .einval := by
  unfold gossipEncodeRecord at failed
  split at failed
  · cases failed
    rfl
  · cases failed

omit [Process] in
theorem mapM_gossipEncodeRecord_error {members : List MemberRecord} {code : Errno}
    (failed : members.mapM gossipEncodeRecord = .error code) : code = .einval := by
  induction members with
  | nil => cases failed
  | cons member rest inductionHypothesis =>
    rw [List.mapM_cons] at failed
    cases first : gossipEncodeRecord member with
    | error other =>
      rw [first] at failed
      cases failed
      exact gossipEncodeRecord_error first
    | ok octets =>
      cases later : rest.mapM gossipEncodeRecord with
      | error other =>
        rw [first, later] at failed
        cases failed
        exact inductionHypothesis later
      | ok records =>
        rw [first, later] at failed
        cases failed

omit [Process] in
theorem SoundFiles.checkpoint {heartbeat : Heartbeat} (sound : SoundFiles heartbeat) :
    (heartbeatCheckpoint heartbeat).2 ≠ .error .ebadmsg := by
  have noFault : heartbeat.directory.fault = none := by
    rw [MembershipDirectory.fault, sound.faultless]
    rfl
  unfold heartbeatCheckpoint
  simp only [noFault]
  split
  · rename_i code failed
    intro wrong
    cases wrong
    unfold membershipSave at failed
    split at failed
    · cases failed
    · split at failed
      · rename_i inner encoding
        cases failed
        cases mapM_gossipEncodeRecord_error encoding
      · cases failed
  · intro wrong
    cases wrong

omit [Process] in
/-- A rumour that was accepted is not refused for its format. -/
theorem SoundFiles.rumour {heartbeat : Heartbeat} (sound : SoundFiles heartbeat) (now : Int)
    (rumour : MemberRecord) :
    SoundFiles (applyRumour heartbeat now rumour).1 ∧
      (applyRumour heartbeat now rumour).2 ≠ .error .ebadmsg := by
  unfold applyRumour
  split
  · have taken : SoundFiles { heartbeat with incarnation := rumour.incarnation } :=
      ⟨sound.faultless, sound.readable⟩
    exact taken.advance
  · refine ⟨⟨sound.faultless, sound.readable⟩, ?_⟩
    unfold membershipMerge
    grind

omit [Process] in
theorem SoundFiles.batch {heartbeat : Heartbeat} (sound : SoundFiles heartbeat) (clocks : Clocks)
    (reading : Nat) (batch : List MemberRecord) :
    SoundFiles (applyBatch clocks reading heartbeat batch).1 ∧
      (applyBatch clocks reading heartbeat batch).2 ≠ .error .ebadmsg := by
  induction batch generalizing reading heartbeat with
  | nil => exact ⟨sound, nofun⟩
  | cons rumour rest inductionHypothesis =>
    obtain ⟨kept, fine⟩ := sound.rumour (clocks.monotonic reading) rumour
    rw [applyBatch]
    split
    · rename_i stopped code outcome
      rw [outcome] at kept fine
      exact ⟨kept, fine⟩
    · rename_i next done outcome
      rw [outcome] at kept
      exact inductionHypothesis kept (reading + 1)

omit [Process] in
theorem admitSender_error (heartbeat : Heartbeat) (sender : MemberRecord) (source : NodeID)
    (clocks : Clocks) : (admitSender heartbeat sender source clocks).2 ≠ .error .ebadmsg := by
  unfold admitSender discoverSender membershipHeartbeat
  grind

/-- A packet that has passed the checks is not answered with `EBADMSG`. -/
theorem SoundFiles.packet {heartbeat : Heartbeat} (sound : SoundFiles heartbeat)
    {payload : List UInt8} {source : NodeID} {gossip : Bool} (clocks : Clocks)
    {sender : MemberRecord} {batch : List MemberRecord}
    (read : decodePacket heartbeat.localNode.id payload source gossip = .ok (sender, batch)) :
    (applyPacket heartbeat payload source gossip clocks).2 ≠ .error .ebadmsg := by
  have known := admitSender_error heartbeat sender source clocks
  obtain ⟨_, _, -, same⟩ := admitSender_calls heartbeat sender source clocks
  have kept : SoundFiles (admitSender heartbeat sender source clocks).1 := by
    rw [same]
    exact ⟨sound.faultless, sound.readable⟩
  unfold applyPacket
  rw [read]
  simp only
  split
  · rename_i admitted code outcome
    rw [outcome] at known
    exact known
  · rename_i admitted done outcome
    rw [outcome] at kept
    obtain ⟨stillSound, fine⟩ := SoundFiles.batch kept clocks 2 batch
    split
    · rename_i last code applied
      rw [applied] at fine
      exact fine
    · rename_i last done applied
      rw [applied] at stillSound
      exact stillSound.checkpoint

/-! ### Runs -/

/-- One event that changes no Peer from elsewhere. -/
theorem Truthful.step {heartbeat next : Heartbeat} {event : GossiperEvent}
    (truthful : Truthful heartbeat) (keeps : KeepsReports heartbeat event)
    (stepped : heartbeat.step event = some next) : Truthful next := by
  cases event with
  | join request clocks =>
    cases stepped
    exact truthful.join request clocks
  | leave request =>
    cases stepped
    exact truthful.leave keeps
  | handle request clocks =>
    cases stepped
    unfold heartbeatHandle
    split
    · exact truthful
    · rename_i taken
      rw [not_or, not_not, not_and_or, not_not, not_not] at taken
      have applied := truthful.packet clocks (keeps taken.1 taken.2)
      simp only
      split
      · exact truthful
      · split
        · rename_i stopped code outcome
          rw [outcome] at applied
          exact applied
        · rename_i received done outcome
          rw [outcome] at applied
          have emitted := applied.emit (decide (request.messageType = .gossip))
          split
          · rename_i stopped code sent
            rw [sent] at emitted
            exact emitted
          · rename_i last payload sent
            rw [sent] at emitted
            exact emitted
  | tick now =>
    cases stepped
    exact truthful.tick keeps
  | probe id incarnation sequence now success =>
    cases stepped
    have truth : TellsTruth heartbeat.members (.probe id incarnation sequence now success) := trivial
    exact truthful.call truth
  | emit gossip =>
    cases stepped
    exact truthful.emit gossip

/-- A super peer that is started on a table of its own, for the first time. -/
theorem Truthful.started {localNode : Node} (built : BuiltNode localNode)
    (role : localNode.role = .superPeer) {start wall later : Int} {limits : Limits}
    {directory : MembershipDirectory} (fresh : directory.ledger = none) {first : Heartbeat}
    (started : heartbeatCreate localNode (SuperPeer.fresh localNode start wall) limits directory
      later = (first, .ok ())) : Truthful first := by
  unfold heartbeatCreate at started
  split at started
  · cases started
  · rename_i next done outcome
    obtain ⟨begun, -, ledger⟩ := advanceEpoch_eq_ok outcome
    obtain ⟨incarnation, sequence, files, same⟩ :=
      advanceEpoch_eq (.blank localNode (SuperPeer.fresh localNode start wall) limits directory)
    rw [outcome] at same
    simp only at same
    have loads : membershipLoad next.members next.directory.ledger later =
        (SuperPeer.fresh localNode start wall, .ok ()) := by
      rw [ledger, same]
      show membershipLoad _ directory.ledger later = _
      rw [fresh]
      rfl
    have named : (SuperPeer.fresh localNode start wall).localNode.id = localNode.id := rfl
    simp only [loads, membershipLocal, named, ne_eq, not_true_eq_false, if_false] at started
    cases started
    rw [same] at begun
    rw [same]
    refine ⟨rfl, built, role, rfl, begun, ?_⟩
    intro member inside
    rw [List.mem_singleton.mp (show member ∈ [_] from inside)]
    exact ⟨built, fun _ => rfl⟩

/-- In every run of joins, departures, heartbeats, gossip, ticks and probes in which no event
changes the state of a Peer that is at home elsewhere, the super peer builds gossip packets as
long as its epochs last. Each of them passes all checks of every other node, so it is not answered
with `EBADMSG` where the files of the receiver are in order. -/
theorem emitted_gossip_is_well_formed [NormalizingInet] {ip : List UInt8} {port : UInt16}
    {uuid : Octets nodeUuidSize} {config : NodeConfig}
    (configured : nodeConfigInitWithUuid ip port uuid = .ok config) {start wall later : Int}
    {table : SuperPeer} (creation : superpeerCreate config start wall = .ok table)
    {limits : Limits} {directory : MembershipDirectory} (fresh : directory.ledger = none)
    {first : Heartbeat}
    (started : heartbeatCreate table.localNode table limits directory later = (first, .ok ()))
    {heartbeat : Heartbeat}
    (reached : Transition.Reaches Heartbeat.step KeepsReports first heartbeat) :
    (heartbeat.sequence ≠ maxUInt64 → ∃ payload, (encodePacket heartbeat true).2 = .ok payload) ∧
    ∀ payload, (encodePacket heartbeat true).2 = .ok payload →
      (∀ receiver ≠ heartbeat.localNode.id, ∃ sender batch,
        decodePacket receiver payload heartbeat.localNode.id true = .ok (sender, batch)) ∧
      ∀ receiver : Heartbeat, receiver.localNode.id ≠ heartbeat.localNode.id →
        SoundFiles receiver → ∀ clocks,
        (applyPacket receiver payload heartbeat.localNode.id true clocks).2 ≠ .error .ebadmsg := by
  have begins : Truthful first := by
    unfold superpeerCreate at creation
    split at creation
    · cases creation
    · rename_i node initialised
      cases creation
      exact .started ⟨ip, port, uuid, config, node, configured, initialised, rfl⟩ rfl fresh started
  have truthful : Truthful heartbeat :=
    @Transition.Reaches.invariant _ _ Heartbeat.step _ _ Truthful begins
      (fun _ _ _ truthful keeps stepped => truthful.step keeps stepped) _ reached
  obtain ⟨builds, built⟩ := truthful.gossip
  refine ⟨builds, fun payload sent => ?_⟩
  obtain ⟨next, nextTruthful, begun, sameNode, rfl⟩ := built payload sent
  rw [← sameNode]
  refine ⟨fun receiver other => ⟨_, _, nextTruthful.accepted begun other⟩, ?_⟩
  intro receiver other sound clocks
  exact sound.packet clocks (nextTruthful.accepted begun other)

end Reports

/-- A message of the third neighbour to the first one. -/
def thirdNeighbourSends (messageType : MessageType) (payload : List UInt8) : Message where
  messageType := messageType
  sourceNode := (neighbour 3).id
  destinationNode := (neighbour 1).id
  transactionId := Octets.fill transactionIdSize 0
  payload := payload

/-- The request of the third neighbour to join the first one, in its first incarnation. -/
def joinRequest : Message :=
  thirdNeighbourSends .join (joinBytes (neighbour 3).config ++ (1 :: wirePutU64 1))

/-- The packet after a Peer has joined is accepted by the second neighbour. -/
theorem emitted_gossip_is_well_formed_after_join :
    letI := Inet.reference; letI := Sha256.reference; letI := Process.first
    (registerJoin (firstStart 1) joinRequest ⟨fun _ => 0, fun _ => 0⟩).2 = .ok () ∧
    ∃ payload, (encodePacket
        (registerJoin (firstStart 1) joinRequest ⟨fun _ => 0, fun _ => 0⟩).1 true).2 =
          .ok payload ∧
      ∃ sender batch, decodePacket (neighbour 2).id payload (neighbour 1).id true =
        .ok (sender, batch) := by
  let inet := Inet.reference
  let sha := Sha256.reference
  let process := Process.first
  have lawful : LawfulInet := Inet.reference_lawful
  obtain ⟨configured, creation, started, joined, sequence, same, other⟩ :
      nodeConfigInitWithUuid (neighbour 1).config.ip 1 (Octets.read nodeUuidSize []) =
        .ok (neighbour 1).config ∧
      superpeerCreate (neighbour 1).config 0 0 = .ok (SuperPeer.fresh (neighbour 1) 0 0) ∧
      heartbeatCreate (neighbour 1) (SuperPeer.fresh (neighbour 1) 0 0) ⟨15000, 20000, 30000⟩
        ⟨none, none, []⟩ 0 = (firstStart 1, .ok ()) ∧
      (registerJoin (firstStart 1) joinRequest ⟨fun _ => 0, fun _ => 0⟩).2 = .ok () ∧
      (registerJoin (firstStart 1) joinRequest ⟨fun _ => 0, fun _ => 0⟩).1.sequence ≠ maxUInt64 ∧
      (registerJoin (firstStart 1) joinRequest ⟨fun _ => 0, fun _ => 0⟩).1.localNode.id =
        (neighbour 1).id ∧
      (neighbour 2).id ≠ (neighbour 1).id := by
    decide +kernel
  have reached : Transition.Reaches Heartbeat.step KeepsReports (firstStart 1)
      (registerJoin (firstStart 1) joinRequest ⟨fun _ => 0, fun _ => 0⟩).1 :=
    .tail .refl (.join joinRequest ⟨fun _ => 0, fun _ => 0⟩) trivial (by rw [Heartbeat.step])
  obtain ⟨builds, accepted⟩ :=
    emitted_gossip_is_well_formed configured creation rfl started reached
  obtain ⟨payload, sent⟩ := builds sequence
  refine ⟨joined, payload, sent, ?_⟩
  rw [← same] at other ⊢
  exact (accepted payload sent).1 (neighbour 2).id other

/-- A packet of the second neighbour that tells of the third one, a Peer of its domain. -/
def foreignPeerPacket : List UInt8 :=
  let record := { setMember (neighbour 2) 0 0 with
    home := (neighbour 2).id, reporter := (neighbour 2).id, incarnation := 1, sequence := 1 }
  gossipBytes record [{ record with node := { neighbour 3 with role := .peer } }]

/-- The gossip that brings the packet to the first neighbour. -/
def foreignPeerGossip : Message where
  messageType := .gossip
  sourceNode := (neighbour 2).id
  destinationNode := (neighbour 1).id
  transactionId := Octets.fill transactionIdSize 0
  payload := foreignPeerPacket

/-- The third neighbour leaves through the first one, which is not its home. The next packet of
the first neighbour is refused for its format. -/
theorem emitted_gossip_is_refused_after_foreign_leave :
    letI := Inet.reference; letI := Sha256.reference; letI := Process.first
    ∃ heartbeat payload, Transition.Reaches Heartbeat.step (fun _ _ => True) (firstStart 1)
        heartbeat ∧
      (encodePacket heartbeat true).2 = .ok payload ∧
      decodePacket (neighbour 4).id payload (neighbour 1).id true = .error .ebadmsg := by
  let inet := Inet.reference
  let sha := Sha256.reference
  let process := Process.first
  have computed : (Transition.run (Transition.guarded Heartbeat.step fun _ _ => True)
      (firstStart 1) [.handle foreignPeerGossip ⟨fun _ => 0, fun _ => 0⟩,
        .leave (thirdNeighbourSends .leave (1 :: wirePutU64 1))]).any (fun heartbeat =>
      (encodePacket heartbeat true).2.toOption.any fun payload =>
        decodePacket (neighbour 4).id payload (neighbour 1).id true = .error .ebadmsg) = true := by
    decide +kernel
  obtain ⟨heartbeat, done, refused⟩ := (Option.any_eq_true _ _).mp computed
  have reached : Transition.Reaches Heartbeat.step (fun _ _ => True) (firstStart 1) heartbeat :=
    Transition.Reaches.refl.of_run (fun _ _ permitted => permitted) done
  cases sent : (encodePacket heartbeat true).2 with
  | error code =>
    rw [sent] at refused
    cases refused
  | ok payload =>
    rw [sent] at refused
    refine ⟨heartbeat, payload, reached, sent, ?_⟩
    simpa only [Except.toOption, Option.any_some, decide_eq_true_eq] using refused

end SuperPeerNet
