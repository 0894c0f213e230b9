/-
This file follows `c4_cluster_tick` from its start to its end when no message is lost and nothing
else happens meanwhile. Every request is handled at once, and the recoveries end in any way.

Such a tick is a run of the interleaved system. Where the tables of members agree on who is alive
and the recoveries succeed, it does one of three things: nothing, it alerts the nodes above its own,
or, on the highest node, it makes everyone follow who is not in a later term.
-/

import SuperPeerNet.Cluster.Election
import SuperPeerNet.Library.KeyedList

namespace SuperPeerNet

variable {Context : Type}

/-! ### A tick without interruption -/

/-- Whether an answer to `M_ELECTION` is an `M_OK`. -/
def answeredOk : Except Errno (MessageType × List UInt8) → Bool
  | .ok (messageType, _) => decide (messageType = .ok)
  | .error _ => false

/-- A member is asked: it handles the request at once, and its answer is read. -/
def askMember (request : NodeID → Message) (state : (NodeID → C4Cluster Context) × Bool)
    (member : NodeID) : (NodeID → C4Cluster Context) × Bool :=
  let handled := handleElection .eio (state.1 member) (request member)
  (Function.update state.1 member handled.1, state.2 || answeredOk handled.2)

/-- What a member makes of a proclamation, when its recovery ends with the given outcome. -/
def acceptOrRefuse (cluster : C4Cluster Context) (request : Message) (outcome : Except Errno Unit) :
    C4Cluster Context :=
  match acceptCoordinator .eio cluster request with
  | .error _ => cluster
  | .ok (accepted, _) => finishCoordinator accepted request outcome

/-- A member is told. -/
def tellMember (request : NodeID → Message) (outcome : NodeID → Except Errno Unit)
    (cluster : NodeID → C4Cluster Context) (member : NodeID) : NodeID → C4Cluster Context :=
  Function.update cluster member
    (acceptOrRefuse (cluster member) (request member) (outcome member))

/-- How the recoveries of a tick end: those of its node from the members, with the time that a
suspended election reads, and those of the members that accept its proclamation. What they append
to the logs plays no part in the election, and is left out. -/
structure Recoveries where
  own : NodeID → Except Errno Unit
  suspendedMs : Int
  accepting : NodeID → Except Errno Unit

/-- No recovery of the node finds that the logs diverge, and those of the members succeed. -/
structure Recoveries.Succeed (recoveries : Recoveries) : Prop where
  own : ∀ member, logsDiverge (recoveries.own member) = false
  accepting : ∀ member, recoveries.accepting member = .ok ()

/-- `c4_cluster_tick` from its start to its end. -/
def wholeTick (generated : TransactionId) (recoveries : Recoveries) (now : Int) (node : NodeID)
    (cluster : NodeID → C4Cluster Context) : NodeID → C4Cluster Context :=
  let task : TickTask := ⟨now, (cluster node).members, .checks⟩
  let checked := tickChecks now task.members (cluster node)
  let begun := Function.update cluster node checked
  if checked.electionRequested then
    let asked := (task.higherMembers (cluster node)).foldl (askMember fun member =>
      electionRequest generated node member .election (electionPayload checked)) (begun, false)
    if asked.2 then Function.update asked.1 node (awaitHigher now (asked.1 node))
    else if (task.liveMembers (asked.1 node)).any fun member => logsDiverge (recoveries.own member)
    then Function.update asked.1 node (suspendElection recoveries.suspendedMs (asked.1 node))
    else
      let own := proclaim (asked.1 node)
      (task.liveMembers own).foldl (tellMember (fun member =>
        electionRequest generated node member .coordinator (coordinatorPayload own.term own.log))
        recoveries.accepting) (Function.update asked.1 node own)
  else begun

/-- A node in which an election has been requested. -/
def C4Cluster.alerted (cluster : C4Cluster Context) : C4Cluster Context :=
  { cluster with electionRequested := true }

/-- A node that has accepted a leader. -/
def C4Cluster.following (cluster : C4Cluster Context) (term : UInt64) (leader : NodeID) :
    C4Cluster Context :=
  { cluster with
    term := term
    leader := leader
    electionRequested := false
    electionWaiting := false }

/-! ### Who is alive -/

/-- The live super peers of a table, other than the node itself, are the given ones. -/
structure Lists (ids : List NodeID) (node : NodeID) (members : List SuperPeerMember) : Prop where
  distinct : (members.map SuperPeerMember.id).Nodup
  live : ∀ id ≠ node, id ∈ ids ↔
    ∃ member ∈ members, member.id = id ∧ member.role = .superPeer ∧ member.state.belowFailed = true

/-- The given nodes list each other as the live super peers, and one of them is above all others. -/
structure Assembled (ids : List NodeID) (top : NodeID) (cluster : NodeID → C4Cluster Context) :
    Prop where
  identified : ∀ node, (cluster node).localId = node
  lists : ∀ node ∈ ids, Lists ids node (cluster node).members
  named : zeroNodeId ∉ ids
  present : top ∈ ids
  highest : ∀ id ∈ ids, position id ≤ position top

namespace Lists

variable {ids : List NodeID} {node id : NodeID} {members : List SuperPeerMember}
  {cluster : C4Cluster Context}

theorem find (lists : Lists ids node members) (other : id ≠ node) (member : id ∈ ids) :
    ∃ found, findMember members id = some found ∧ found.role = .superPeer ∧
      found.state.belowFailed = true := by
  obtain ⟨row, inTable, rfl, role, live⟩ := (lists.live id other).mp member
  exact ⟨row, (KeyedList.lookup_eq_some_iff
    (KeyedList.distinct_iff_nodup.mpr lists.distinct)).mpr ⟨inTable, rfl⟩, role, live⟩

theorem superpeerFindMember (lists : Lists ids node members) (other : id ≠ node)
    (member : id ∈ ids) :
    ∃ found, SuperPeerNet.superpeerFindMember members id = .ok found ∧ found.role = .superPeer ∧
      found.state.belowFailed = true := by
  obtain ⟨found, isFound, role, live⟩ := lists.find other member
  refine ⟨found, ?_, role, live⟩
  rw [SuperPeerNet.superpeerFindMember, isFound]
  refine if_neg fun removed => ?_
  rw [removed] at live
  cases live

theorem c4MemberIsLiveSuperpeer (lists : Lists ids node cluster.members) (other : id ≠ node)
    (member : id ∈ ids) :
    ∃ found, SuperPeerNet.c4MemberIsLiveSuperpeer cluster id = .ok found := by
  obtain ⟨found, isFound, role, live⟩ := lists.superpeerFindMember other member
  refine ⟨found, ?_⟩
  rw [SuperPeerNet.c4MemberIsLiveSuperpeer, isFound]
  refine if_neg ?_
  rw [role, live]
  rintro (wrong | wrong)
  · exact wrong rfl
  · cases wrong

theorem not_leaderLost (lists : Lists ids node cluster.members) (own : cluster.localId = node)
    (member : cluster.leader ∈ ids) : leaderLost cluster = false := by
  rw [leaderLost]
  by_cases same : cluster.leader = cluster.localId
  · rw [decide_eq_false (not_not.mpr same), Bool.and_false, Bool.false_and]
  · obtain ⟨found, isFound, -, live⟩ := lists.superpeerFindMember (own ▸ same) member
    rw [isFound]
    dsimp only
    rw [live, Bool.not_true, Bool.and_false]

theorem mem_higherMembers (lists : Lists ids node members) (now : Int) (phase : TickPhase)
    (own : cluster.localId = node) :
    id ∈ TickTask.higherMembers cluster ⟨now, members, phase⟩ ↔
      id ∈ ids ∧ nodeIdBelow node id = true := by
  unfold TickTask.higherMembers isHigherSuperpeer
  rw [own]
  simp only [List.mem_map, List.mem_filter, Bool.and_eq_true, decide_eq_true_eq]
  constructor
  · rintro ⟨member, ⟨inTable, ⟨role, live⟩, below⟩, rfl⟩
    have other : member.id ≠ node := by
      intro same
      rw [same, nodeIdBelow_self] at below
      cases below
    exact ⟨(lists.live _ other).mpr ⟨member, inTable, rfl, role, live⟩, below⟩
  · rintro ⟨member, below⟩
    have other : id ≠ node := by
      intro same
      rw [same, nodeIdBelow_self] at below
      cases below
    obtain ⟨row, inTable, rfl, role, live⟩ := (lists.live id other).mp member
    exact ⟨row, ⟨inTable, ⟨role, live⟩, below⟩, rfl⟩

theorem mem_liveMembers (lists : Lists ids node members) (now : Int) (phase : TickPhase)
    (own : cluster.localId = node) :
    id ∈ TickTask.liveMembers cluster ⟨now, members, phase⟩ ↔ id ∈ ids ∧ id ≠ node := by
  unfold TickTask.liveMembers isLiveSuperpeer
  rw [own]
  simp only [List.mem_map, List.mem_filter, Bool.and_eq_true, decide_eq_true_eq, bne_iff_ne]
  constructor
  · rintro ⟨member, ⟨inTable, ⟨role, live⟩, other⟩, rfl⟩
    exact ⟨(lists.live _ other).mpr ⟨member, inTable, rfl, role, live⟩, other⟩
  · rintro ⟨member, other⟩
    obtain ⟨row, inTable, rfl, role, live⟩ := (lists.live id other).mp member
    exact ⟨row, ⟨inTable, ⟨role, live⟩, other⟩, rfl⟩

theorem nodup_filter (lists : Lists ids node members) (keep : SuperPeerMember → Bool) :
    ((members.filter keep).map SuperPeerMember.id).Nodup :=
  lists.distinct.sublist (List.filter_sublist.map _)

end Lists

/-! ### What the members make of it -/

/-- Distinct members are updated one after the other. -/
theorem foldl_update {Value : Type} (change : NodeID → Value → Value) (ids : List NodeID)
    (distinct : ids.Nodup) (start : NodeID → Value) (other : NodeID) :
    ids.foldl (fun state id => Function.update state id (change id (state id))) start other =
      if other ∈ ids then change other (start other) else start other := by
  induction ids generalizing start with
  | nil => rfl
  | cons id rest inductionHypothesis =>
    obtain ⟨fresh, distinctRest⟩ := List.nodup_cons.mp distinct
    rw [List.foldl_cons, inductionHypothesis distinctRest]
    by_cases same : other = id
    · subst same
      rw [if_neg fresh, Function.update_self, if_pos List.mem_cons_self]
    · rw [Function.update_of_ne same]
      refine if_congr ?_ rfl rfl
      rw [List.mem_cons]
      exact (or_iff_right same).symm

theorem foldl_askMember (request : NodeID → Message) (ids : List NodeID)
    (state : (NodeID → C4Cluster Context) × Bool) :
    (ids.foldl (askMember request) state).1 =
      ids.foldl (fun cluster id => Function.update cluster id
        (handleElection .eio (cluster id) (request id)).1) state.1 := by
  induction ids generalizing state with
  | nil => rfl
  | cons id rest inductionHypothesis =>
    rw [List.foldl_cons, List.foldl_cons, inductionHypothesis]
    rfl

/-- A member that has answered is enough. -/
theorem foldl_askMember_answered (request : NodeID → Message) (ids : List NodeID)
    (distinct : ids.Nodup) (state : (NodeID → C4Cluster Context) × Bool) :
    (ids.foldl (askMember request) state).2 = (state.2 ||
      ids.any fun id => answeredOk (handleElection .eio (state.1 id) (request id)).2) := by
  induction ids generalizing state with
  | nil => exact (Bool.or_false _).symm
  | cons id rest inductionHypothesis =>
    obtain ⟨fresh, distinctRest⟩ := List.nodup_cons.mp distinct
    rw [List.foldl_cons, inductionHypothesis distinctRest, List.any_cons, ← Bool.or_assoc]
    refine congrArg _ ?_
    rw [Bool.eq_iff_iff, List.any_eq_true, List.any_eq_true]
    refine exists_congr fun other => and_congr_right fun inRest => ?_
    show answeredOk (handleElection .eio (Function.update state.1 id _ other) _).2 = true ↔ _
    rw [Function.update_of_ne (ne_of_mem_of_not_mem inRest fresh)]

theorem handleElection_live {errno : Errno} {cluster : C4Cluster Context} {request : Message}
    {found : SuperPeerMember} (size : request.payload.length = 24)
    (live : c4MemberIsLiveSuperpeer cluster request.sourceNode = .ok found)
    (below : nodeIdBelow request.sourceNode cluster.localId = true) :
    handleElection errno cluster request =
      (cluster.alerted, .ok (.ok, [])) := by
  unfold handleElection
  rw [if_neg (not_not.mpr size), live]
  exact if_pos below

theorem acceptOrRefuse_live {cluster : C4Cluster Context} {request : Message}
    {found : SuperPeerMember} (size : request.payload.length = 16)
    (live : c4MemberIsLiveSuperpeer cluster request.sourceNode = .ok found)
    (above : nodeIdBelow request.sourceNode cluster.localId = false) :
    acceptOrRefuse cluster request (.ok ()) =
      if wireGetU64 request.payload < cluster.term then cluster
      else cluster.following (wireGetU64 request.payload) request.sourceNode := by
  unfold acceptOrRefuse acceptCoordinator
  rw [if_neg (not_not.mpr size), live, above]
  dsimp only
  by_cases later : wireGetU64 request.payload < cluster.term
  · rw [if_pos (Or.inl later), if_pos later]
  · rw [if_neg (not_or.mpr ⟨later, Bool.false_ne_true⟩), if_neg later]
    rfl

section Requests

variable {ids : List NodeID} {source member : NodeID} {cluster : C4Cluster Context}

/-- A member above the node requests an election, and answers. -/
theorem handleElection_asked (own : cluster.localId = member)
    (lists : Lists ids member cluster.members) (present : source ∈ ids)
    (below : nodeIdBelow source member = true) (generated : TransactionId)
    (asking : C4Cluster Context) :
    handleElection .eio cluster
        (electionRequest generated source member .election (electionPayload asking)) =
      (cluster.alerted, .ok (.ok, [])) := by
  have other : source ≠ member := by
    intro same
    rw [same, nodeIdBelow_self] at below
    cases below
  obtain ⟨found, live⟩ := lists.c4MemberIsLiveSuperpeer other present
  exact handleElection_live rfl live (own.symm ▸ below)

/-- A member that is not above the node accepts its proclamation unless its own term is later. Its
recovery succeeds. -/
theorem acceptOrRefuse_told (own : cluster.localId = member)
    (lists : Lists ids member cluster.members) (present : source ∈ ids) (other : source ≠ member)
    (above : nodeIdBelow source member = false) (generated : TransactionId) (term : UInt64)
    (log : C4Log) :
    acceptOrRefuse cluster (electionRequest generated source member .coordinator
        (coordinatorPayload term log)) (.ok ()) =
      if term < cluster.term then cluster else cluster.following term source := by
  obtain ⟨found, live⟩ := lists.c4MemberIsLiveSuperpeer other present
  rw [acceptOrRefuse_live rfl live (own.symm ▸ above)]
  show (if wireGetU64 (coordinatorPayload term log) < cluster.term then cluster
    else cluster.following (wireGetU64 (coordinatorPayload term log)) source) = _
  rw [wireGetU64_coordinatorPayload]

end Requests

/-! ### What a whole tick does -/

/-- What a tick can do to the nodes. -/
inductive Ticked (ids : List NodeID) (top : NodeID) (now : Int) (node : NodeID)
    (before after : NodeID → C4Cluster Context) : Prop
  | quiet (calm : (tickChecks now (before node).members (before node)).electionRequested = false)
      (same : after = before)
  | alerted (below : node ≠ top)
      (requested : (tickChecks now (before node).members (before node)).electionRequested = true)
      (own : after node =
        awaitHigher now (tickChecks now (before node).members (before node)))
      (others : ∀ other ≠ node, after other =
        if other ∈ ids ∧ nodeIdBelow node other = true then (before other).alerted
        else before other)
  | proclaimed (highest : node = top)
      (requested : (tickChecks now (before node).members (before node)).electionRequested = true)
      (own : after node = proclaim (tickChecks now (before node).members (before node)))
      (others : ∀ other ∈ ids, other ≠ node → after other =
        if (before node).term + 1 < (before other).term then before other
        else (before other).following ((before node).term + 1) node)
      (beyond : ∀ other ∉ ids, after other = before other)

/-- A check that requests no election changes nothing. -/
theorem tickChecks_calm {now : Int} {members : List SuperPeerMember}
    {cluster : C4Cluster Context}
    (calm : (tickChecks now members cluster).electionRequested = false) :
    tickChecks now members cluster = cluster := by
  unfold tickChecks at calm ⊢
  have retried : retryElection now (yieldToHigher members (dropLostLeader cluster)) =
      yieldToHigher members (dropLostLeader cluster) := by
    unfold retryElection at calm ⊢
    split at calm
    · cases calm
    · rename_i early
      rw [if_neg early]
  rw [retried] at calm ⊢
  have yielded : yieldToHigher members (dropLostLeader cluster) = dropLostLeader cluster := by
    unfold yieldToHigher at calm ⊢
    split at calm
    · cases calm
    · rename_i stays
      rw [if_neg stays]
  rw [yielded] at calm ⊢
  unfold dropLostLeader at calm ⊢
  split at calm
  · cases calm
  · rename_i kept
    rw [if_neg kept]

theorem Assembled.nodeIdBelow_top {ids : List NodeID} {top node : NodeID}
    {cluster : NodeID → C4Cluster Context} (assembled : Assembled ids top cluster)
    (member : node ∈ ids) (below : node ≠ top) : nodeIdBelow node top = true :=
  nodeIdBelow_iff.mpr (lt_of_le_of_ne (assembled.highest node member)
    fun same => below (position_injective same))

/-- The checks keep the table, and what they do not write. -/
theorem tickChecks_members (now : Int) (members : List SuperPeerMember)
    (cluster : C4Cluster Context) :
    (tickChecks now members cluster).members = cluster.members := by
  have dropped : (dropLostLeader cluster).members = cluster.members := by
    unfold dropLostLeader
    split <;> rfl
  have yielded : (yieldToHigher members (dropLostLeader cluster)).members =
      (dropLostLeader cluster).members := by
    unfold yieldToHigher
    split <;> rfl
  rw [← dropped, ← yielded]
  unfold tickChecks retryElection
  split <;> rfl

section WholeTick

variable {ids : List NodeID} {top node : NodeID} {now : Int} {generated : TransactionId}
  {recoveries : Recoveries} {cluster : NodeID → C4Cluster Context}

/-- The requests of the tick alert the members above the node, and say whether there are any. -/
theorem foldl_askMember_higher (assembled : Assembled ids top cluster) (member : node ∈ ids)
    {higher : List NodeID} (distinct : higher.Nodup)
    (isHigher : ∀ id, id ∈ higher ↔ id ∈ ids ∧ nodeIdBelow node id = true)
    (checked asking : C4Cluster Context)
    {asked : (NodeID → C4Cluster Context) × Bool}
    (done : asked = higher.foldl (askMember fun member =>
      electionRequest generated node member .election (electionPayload asking))
        (Function.update cluster node checked, false)) :
    asked.1 node = checked ∧ asked.2 = decide (node ≠ top) ∧
      ∀ other ≠ node, asked.1 other =
        if other ∈ ids ∧ nodeIdBelow node other = true then (cluster other).alerted
        else cluster other := by
  subst done
  have handled : ∀ id ∈ ids, nodeIdBelow node id = true → handleElection .eio (cluster id)
      (electionRequest generated node id .election (electionPayload asking)) =
        ((cluster id).alerted, .ok (.ok, [])) := fun id present below =>
    handleElection_asked (assembled.identified id) (assembled.lists id present) member below _ _
  have states : ∀ other, (higher.foldl (askMember fun member =>
      electionRequest generated node member .election (electionPayload asking))
        (Function.update cluster node checked, false)).1 other =
      if other ∈ higher then (handleElection .eio (Function.update cluster node checked other)
        (electionRequest generated node other .election (electionPayload asking))).1
      else Function.update cluster node checked other := by
    intro other
    rw [foldl_askMember]
    exact foldl_update (fun id value => (handleElection .eio value _).1) _ distinct _ other
  refine ⟨?_, ?_, fun other apart => ?_⟩
  · have notSelf : node ∉ higher := by
      rw [isHigher, nodeIdBelow_self]
      exact fun wrong => Bool.false_ne_true wrong.2
    rw [states, if_neg notSelf, Function.update_self]
  · rw [foldl_askMember_answered _ _ distinct, Bool.false_or, Bool.eq_iff_iff, List.any_eq_true,
      decide_eq_true_iff]
    constructor
    · rintro ⟨id, inHigher, -⟩ highest
      obtain ⟨present, below⟩ := (isHigher id).mp inHigher
      rw [highest, nodeIdBelow_iff] at below
      exact not_lt.mpr (assembled.highest id present) below
    · intro apart
      have below := assembled.nodeIdBelow_top member apart
      refine ⟨top, (isHigher top).mpr ⟨assembled.present, below⟩, ?_⟩
      show answeredOk (handleElection .eio (Function.update cluster node checked top) _).2 = true
      rw [Function.update_of_ne (Ne.symm apart), handled top assembled.present below]
      rfl
  · rw [states, Function.update_of_ne apart]
    by_cases above : other ∈ ids ∧ nodeIdBelow node other = true
    · rw [if_pos ((isHigher other).mpr above), if_pos above, handled other above.1 above.2]
    · rw [if_neg (mt (isHigher other).mp above), if_neg above]

/-- The proclamation of the highest node is accepted by everyone who is not in a later term, if their
recoveries succeed. -/
theorem foldl_tellMember_live (assembled : Assembled ids top cluster) (member : node ∈ ids)
    (highest : node = top) {live : List NodeID} (distinct : live.Nodup)
    (isLive : ∀ id, id ∈ live ↔ id ∈ ids ∧ id ≠ node) {start : NodeID → C4Cluster Context}
    (same : ∀ other ≠ node, start other = cluster other) (term : UInt64) (log : C4Log)
    {outcome : NodeID → Except Errno Unit} (succeeds : ∀ member, outcome member = .ok ())
    {told : NodeID → C4Cluster Context} (done : told = live.foldl (tellMember (fun member =>
      electionRequest generated node member .coordinator (coordinatorPayload term log)) outcome)
        start) :
    told node = start node ∧
      (∀ other ∈ ids, other ≠ node → told other =
        if term < (cluster other).term then cluster other
        else (cluster other).following term node) ∧
      ∀ other ∉ ids, other ≠ node → told other = cluster other := by
  subst done
  have states : ∀ other, live.foldl (tellMember (fun member =>
      electionRequest generated node member .coordinator (coordinatorPayload term log)) outcome)
        start other =
      if other ∈ live then acceptOrRefuse (start other) (electionRequest generated node other
        .coordinator (coordinatorPayload term log)) (outcome other)
      else start other := fun other =>
    foldl_update (fun id value => acceptOrRefuse value (electionRequest generated node id
      .coordinator (coordinatorPayload term log)) (outcome id)) _ distinct _ other
  refine ⟨?_, fun other present apart => ?_, fun other absent apart => ?_⟩
  · rw [states, if_neg fun wrong => ((isLive node).mp wrong).2 rfl]
  · have above : nodeIdBelow node other = false := by
      rw [highest, nodeIdBelow_eq_false]
      exact assembled.highest other present
    rw [states, if_pos ((isLive other).mpr ⟨present, apart⟩), same other apart, succeeds]
    exact acceptOrRefuse_told (assembled.identified other) (assembled.lists other present) member
      (Ne.symm apart) above _ _ _
  · rw [states, if_neg fun wrong => absent ((isLive other).mp wrong).1, same other apart]

/-- A tick that requests no election changes nothing. -/
theorem wholeTick_calm
    (calm : (tickChecks now (cluster node).members (cluster node)).electionRequested = false) :
    wholeTick generated recoveries now node cluster = cluster := by
  unfold wholeTick
  dsimp only
  rw [calm, tickChecks_calm calm]
  exact Function.update_eq_self node cluster

/-- A whole tick of a node among the assembled ones, with recoveries that succeed. -/
theorem wholeTick_ticked (succeed : recoveries.Succeed) (assembled : Assembled ids top cluster)
    (member : node ∈ ids) :
    Ticked ids top now node cluster (wholeTick generated recoveries now node cluster) := by
  have lists := assembled.lists node member
  have own := assembled.identified node
  cases requested :
      (tickChecks now (cluster node).members (cluster node)).electionRequested with
  | false => exact .quiet requested (wholeTick_calm requested)
  | true =>
    obtain ⟨checkedOwn, checkedTerm, -⟩ :=
      tickChecks_kept now (cluster node).members (cluster node)
    generalize isChecked : tickChecks now (cluster node).members (cluster node) = checked at *
    generalize isAsked : (TickTask.higherMembers (cluster node)
      ⟨now, (cluster node).members, .checks⟩).foldl (askMember fun member =>
        electionRequest generated node member .election (electionPayload checked))
        (Function.update cluster node checked, false) = asked
    obtain ⟨ownAsked, answered, others⟩ := foldl_askMember_higher assembled member
      (lists.nodup_filter _) (fun id => lists.mem_higherMembers now .checks own) checked checked
      isAsked.symm
    have agree : ((TickTask.liveMembers (asked.1 node) ⟨now, (cluster node).members, .checks⟩).any
        fun member => logsDiverge (recoveries.own member)) = false :=
      List.any_eq_false.mpr fun id _ => by simp only [succeed.own id, Bool.false_eq_true,
        not_false_eq_true]
    have whole : wholeTick generated recoveries now node cluster =
        if asked.2 then Function.update asked.1 node (awaitHigher now (asked.1 node))
        else (TickTask.liveMembers (proclaim (asked.1 node))
          ⟨now, (cluster node).members, .checks⟩).foldl (tellMember (fun member =>
            electionRequest generated node member .coordinator (coordinatorPayload
              (proclaim (asked.1 node)).term (proclaim (asked.1 node)).log)) recoveries.accepting)
          (Function.update asked.1 node (proclaim (asked.1 node))) := by
      unfold wholeTick
      dsimp only
      rw [isChecked, requested, if_pos rfl, isAsked, agree, if_neg Bool.false_ne_true]
    rw [ownAsked, answered] at whole
    by_cases highest : node = top
    · rw [decide_eq_false (not_not.mpr highest), if_neg Bool.false_ne_true] at whole
      have same : ∀ other ≠ node, Function.update asked.1 node (proclaim checked) other =
          cluster other := by
        intro other apart
        rw [Function.update_of_ne apart, others other apart, if_neg]
        rintro ⟨present, below⟩
        rw [highest, nodeIdBelow_iff] at below
        exact not_lt.mpr (assembled.highest other present) below
      have proclaimedOwn : (proclaim checked).localId = node := checkedOwn.trans own
      obtain ⟨ownTold, told, beyond⟩ := foldl_tellMember_live assembled member highest
        (lists.nodup_filter _) (fun id => lists.mem_liveMembers now .checks proclaimedOwn) same _ _
        succeed.accepting whole
      have term : (proclaim checked).term = (cluster node).term + 1 := by
        show checked.term + 1 = _
        rw [checkedTerm]
      rw [term] at told
      refine .proclaimed highest (isChecked ▸ requested) ?_ told fun other absent => ?_
      · rw [ownTold, Function.update_self, isChecked]
      · exact beyond other absent (ne_of_mem_of_not_mem member absent).symm
    · rw [decide_eq_true highest, if_pos rfl] at whole
      refine .alerted highest (isChecked ▸ requested) ?_ fun other apart => ?_
      · rw [whole, Function.update_self, isChecked]
      · rw [whole, Function.update_of_ne apart]
        exact others other apart

end WholeTick

/-! ### Such a tick is a run -/

namespace Electorate

/-- A run that leads from a state to one in which a tick is in a certain phase. -/
structure Drives (index : Nat) (node : NodeID) (start : Electorate Context) (task : TickTask)
    (cluster : NodeID → C4Cluster Context) (next : Electorate Context) : Prop where
  reached : Transition.Reaches step anything start next
  cluster : next.cluster = cluster
  found : next.ticks[index]? = some (node, task)

variable {index : Nat} {node : NodeID} {start : Electorate Context} {task : TickTask}
  {cluster : NodeID → C4Cluster Context} {electorate : Electorate Context}

theorem getElem?_set_of_found {ticks : List (NodeID × TickTask)} {entry : NodeID × TickTask}
    (found : ticks[index]? = some entry) (changed : NodeID × TickTask) :
    (ticks.set index changed)[index]? = some changed :=
  List.getElem?_set_self (List.getElem?_eq_some_iff.mp found).1

/-- A step of a tick. -/
theorem Drives.run (drives : Drives index node start task cluster electorate)
    (generated : TransactionId) (now : Int) (outcome : Except Errno Unit)
    {after : C4Cluster Context} {phase : TickPhase} {sent : Option Message}
    (taken : task.step generated now outcome (cluster node) = some (after, phase, sent)) :
    ∃ next, Drives index node start { task with phase := phase }
        (Function.update cluster node after) next ∧
      ∀ request ∈ sent, .request request ∈ next.network := by
  refine ⟨electorate.afterStep index node task (after, phase, sent),
    ⟨drives.reached.tail (.run index generated now outcome) trivial ?_, ?_, ?_⟩, ?_⟩
  · show (electorate.ticks[index]?.bind fun entry => _) = _
    rw [drives.found, Option.bind_some, drives.cluster]
    show ((task.step generated now outcome (cluster node)).bind fun result => _) = _
    rw [taken]
    rfl
  · show Function.update electorate.cluster node after = _
    rw [drives.cluster]
  · exact getElem?_set_of_found drives.found _
  · intro request isSent
    refine List.mem_append_right _ (List.mem_map.mpr ⟨request, ?_, rfl⟩)
    exact Option.mem_toList.mpr isSent

/-- A remote call of a tick that gets no answer. -/
theorem Drives.fail (drives : Drives index node start task cluster electorate) (code : Errno)
    {phase : TickPhase} (received : task.receive (.error code) = some phase) :
    ∃ next, Drives index node start { task with phase := phase } cluster next := by
  refine ⟨electorate.withPhase index node task phase,
    ⟨drives.reached.tail (.fail index code) trivial ?_, drives.cluster, ?_⟩⟩
  · show (electorate.ticks[index]?.bind fun entry => _) = _
    rw [drives.found, Option.bind_some]
    show ((task.receive (.error code)).bind fun phase => _) = _
    rw [received]
    rfl
  · exact getElem?_set_of_found drives.found _

theorem handleElection_answer (errno : Errno) (handling : C4Cluster Context) (request : Message) :
    (handleElection errno handling request).2 = .ok (.ok, []) ∨
      ∃ code, (handleElection errno handling request).2 = .error code := by
  unfold handleElection
  split
  · exact Or.inr ⟨_, rfl⟩
  · split
    · exact Or.inr ⟨_, rfl⟩
    · split <;> exact Or.inl rfl

/-- A short answer reaches the tick that awaits it. -/
theorem Drives.reply (drives : Drives index node start task cluster electorate)
    {request : Message} (awaits : task.awaited = some request)
    (small : request.payload.length ≤ maxPayloadSize)
    (answered : .response request (sendReply request.destinationNode request (.ok (.ok, []))) ∈
      electorate.network) {phase : TickPhase}
    (received : task.receive
      (.ok (sendReply request.destinationNode request (.ok (.ok, [])))) = some phase) :
    ∃ next, Drives index node start { task with phase := phase } cluster next := by
  refine ⟨electorate.withPhase index node task phase,
    ⟨drives.reached.tail (.reply index (sendReply request.destinationNode request
      (.ok (.ok, [])))) trivial ?_, drives.cluster, ?_⟩⟩
  · have call : rpcCallWithTransaction
        (fun _ => some (sendReply request.destinationNode request (.ok (.ok, [])))) request =
        .ok (sendReply request.destinationNode request (.ok (.ok, []))) := by
      unfold rpcCallWithTransaction
      rw [if_neg (not_lt.mpr small)]
      refine if_neg ?_
      rintro (wrong | wrong | wrong)
      · exact wrong rfl
      · exact wrong rfl
      · exact wrong rfl
    show (electorate.ticks[index]?.bind fun entry => _) = _
    rw [drives.found, Option.bind_some]
    show (task.awaited.bind fun request => _) = _
    rw [awaits, Option.bind_some, if_pos answered, call, received]
    rfl
  · exact getElem?_set_of_found drives.found _

/-- A member is asked, and its answer reaches the tick. -/
theorem Drives.ask {now : Int} {members : List SuperPeerMember} {member : NodeID}
    {remaining : List NodeID} {higher : Bool}
    (drives : Drives index node start ⟨now, members, .ask (member :: remaining) higher⟩ cluster
      electorate) (own : (cluster node).localId = node) (generated : TransactionId) :
    ∃ next, Drives index node start ⟨now, members, .ask remaining
        (askMember (fun member => electionRequest generated node member .election
          (electionPayload (cluster node))) (cluster, higher) member).2⟩
      (askMember (fun member => electionRequest generated node member .election
        (electionPayload (cluster node))) (cluster, higher) member).1 next := by
  generalize isRequest : electionRequest generated node member .election
    (electionPayload (cluster node)) = request
  have destination : request.destinationNode = member := isRequest ▸ rfl
  have source : request.sourceNode = node := isRequest ▸ rfl
  have kind : request.messageType = .election := isRequest ▸ rfl
  -- the request is sent
  obtain ⟨asking, drives, sent⟩ := drives.run generated 0 (.ok ())
    (show TickTask.step generated 0 (.ok ()) (cluster node) _ = some (cluster node,
        .awaitAnswer request remaining higher, some request) by
      rw [← isRequest]
      show some (_, TickPhase.awaitAnswer (electionRequest generated (cluster node).localId member
        .election (electionPayload (cluster node))) remaining higher, _) = _
      rw [own])
  rw [Function.update_eq_self] at drives
  have inNetwork := sent request rfl
  -- it is handled
  generalize isHandled : handleElection .eio (cluster member) request = handled
  have whole : askMember (fun member => electionRequest generated node member .election
      (electionPayload (cluster node))) (cluster, higher) member =
      (Function.update cluster member handled.1, higher || answeredOk handled.2) := by
    unfold askMember
    dsimp only
    rw [isRequest, isHandled]
  rw [whole]
  have delivered : Drives index node start ⟨now, members, .awaitAnswer request remaining higher⟩
      (Function.update cluster member handled.1)
      ((asking.withCluster member handled.1).withReply request handled.2) := by
    refine ⟨drives.reached.tail (.deliver request .eio) trivial ?_, ?_, drives.found⟩
    · rw [step, if_pos inNetwork]
      dsimp only
      rw [if_pos kind, destination, drives.cluster, isHandled]
    · show Function.update asking.cluster member handled.1 = _
      rw [drives.cluster]
  rcases handleElection_answer .eio (cluster member) request with answered | ⟨code, refused⟩
  · rw [isHandled] at answered
    rw [answered] at delivered ⊢
    have small : request.payload.length ≤ maxPayloadSize := by
      rw [← isRequest]
      show 24 ≤ maxPayloadSize
      decide
    exact delivered.reply rfl small (List.mem_append_right _ (List.mem_singleton_self _)) rfl
  · rw [isHandled] at refused
    rw [refused] at delivered ⊢
    exact delivered.fail .eio rfl

/-- All members are asked one after the other. -/
theorem Drives.askAll {now : Int} {members : List SuperPeerMember} {remaining : List NodeID}
    {higher : Bool} {asking : C4Cluster Context}
    (drives : Drives index node start ⟨now, members, .ask remaining higher⟩ cluster electorate)
    (isAsking : cluster node = asking) (own : asking.localId = node) (others : node ∉ remaining)
    (generated : TransactionId) :
    ∃ next, Drives index node start ⟨now, members, .ask [] (remaining.foldl (askMember fun member =>
        electionRequest generated node member .election (electionPayload asking))
          (cluster, higher)).2⟩
      (remaining.foldl (askMember fun member =>
        electionRequest generated node member .election (electionPayload asking))
          (cluster, higher)).1 next := by
  induction remaining generalizing cluster electorate higher with
  | nil => exact ⟨electorate, drives⟩
  | cons member rest inductionHypothesis =>
    obtain ⟨apart, othersRest⟩ := not_or.mp (mt List.mem_cons.mpr others)
    obtain ⟨next, drives⟩ := drives.ask (isAsking ▸ own) generated
    rw [isAsking] at drives
    refine inductionHypothesis drives ?_ othersRest
    exact (Function.update_of_ne apart _ _).trans isAsking

/-- The recoveries go on until one finds that the logs diverge. -/
theorem Drives.recoverAll {now : Int} {members : List SuperPeerMember} {remaining : List NodeID}
    (drives : Drives index node start ⟨now, members, .recover remaining⟩ cluster electorate)
    (generated : TransactionId) (outcome : NodeID → Except Errno Unit) {phase : TickPhase}
    (ends : (if remaining.any fun member => logsDiverge (outcome member) then .suspend
      else .proclaim) = phase) :
    ∃ next, Drives index node start ⟨now, members, phase⟩ cluster next := by
  subst ends
  induction remaining generalizing electorate with
  | nil =>
    obtain ⟨next, drives, -⟩ := drives.run generated 0 (.ok ()) rfl
    rw [Function.update_eq_self] at drives
    exact ⟨next, drives⟩
  | cons member rest inductionHypothesis =>
    obtain ⟨next, drives, -⟩ := drives.run generated 0 (outcome member) rfl
    rw [Function.update_eq_self] at drives
    rw [List.any_cons]
    cases diverges : logsDiverge (outcome member) with
    | true =>
      rw [diverges, if_pos rfl] at drives
      exact ⟨next, drives⟩
    | false =>
      rw [diverges, if_neg Bool.false_ne_true] at drives
      exact inductionHypothesis drives

/-- A member is told, and its recovery ends. -/
theorem Drives.tell {now : Int} {members : List SuperPeerMember} {payload : List UInt8}
    {member : NodeID} {remaining : List NodeID}
    (drives : Drives index node start ⟨now, members, .tell payload (member :: remaining)⟩ cluster
      electorate) (own : (cluster node).localId = node) (generated : TransactionId)
    (outcome : NodeID → Except Errno Unit) :
    ∃ next, Drives index node start ⟨now, members, .tell payload remaining⟩
      (tellMember (fun member => electionRequest generated node member .coordinator payload) outcome
        cluster member) next := by
  generalize isRequest : electionRequest generated node member .coordinator payload = request
  have destination : request.destinationNode = member := isRequest ▸ rfl
  have kind : request.messageType ≠ .election := by
    rw [← isRequest]
    rintro ⟨⟩
  obtain ⟨telling, drives, sent⟩ := drives.run generated 0 (.ok ())
    (show TickTask.step generated 0 (.ok ()) (cluster node) _ = some (cluster node,
        .awaitTold request payload remaining, some request) by
      rw [← isRequest]
      show some (_, TickPhase.awaitTold (electionRequest generated (cluster node).localId member
        .coordinator payload) payload remaining, _) = _
      rw [own])
  rw [Function.update_eq_self] at drives
  have inNetwork := sent request rfl
  have whole : tellMember (fun member => electionRequest generated node member .coordinator payload)
      outcome cluster member =
      Function.update cluster member (acceptOrRefuse (cluster member) request (outcome member)) := by
    rw [← isRequest]
    rfl
  rw [whole]
  unfold acceptOrRefuse
  cases accepts : acceptCoordinator .eio (cluster member) request with
  | error code =>
    dsimp only
    rw [Function.update_eq_self]
    have refused : Drives index node start ⟨now, members, .awaitTold request payload remaining⟩
        cluster (telling.withReply request (.error code)) := by
      refine ⟨drives.reached.tail (.deliver request .eio) trivial ?_, drives.cluster,
        drives.found⟩
      rw [step, if_pos inNetwork]
      dsimp only
      rw [if_neg kind, destination, drives.cluster, accepts]
    exact refused.fail .eio rfl
  | ok result =>
    dsimp only
    -- the acceptance is the last one under way, and its recovery ends at once
    generalize isAccepting : ({ telling.withCluster member result.1 with
      accepting := telling.accepting ++ [request] } : Electorate Context) = accepting
    have delivered : step telling (.deliver request .eio) = some accepting := by
      rw [step, if_pos inNetwork]
      dsimp only
      rw [if_neg kind, destination, drives.cluster, accepts]
      exact congrArg some isAccepting
    have clusters : accepting.cluster = Function.update cluster member result.1 := by
      rw [← isAccepting]
      show Function.update telling.cluster member result.1 = _
      rw [drives.cluster]
    have last : accepting.accepting[telling.accepting.length]? = some request := by
      rw [← isAccepting]
      exact List.getElem?_concat_length
    generalize isFinished : finishCoordinator result.1 request (outcome member) = finished
    have recovered : Drives index node start ⟨now, members, .awaitTold request payload remaining⟩
        (Function.update cluster member finished)
        (({ accepting.withCluster member finished with
          accepting := accepting.accepting.eraseIdx telling.accepting.length }
            : Electorate Context).withReply request ((outcome member).map fun _ => (.ack, []))) := by
      refine ⟨(drives.reached.tail _ trivial delivered).tail
        (.finish telling.accepting.length (outcome member)) trivial ?_, ?_, ?_⟩
      · rw [step, last, Option.bind_eq_bind, Option.bind_some, destination]
        dsimp only
        rw [clusters, Function.update_self, isFinished]
      · show Function.update accepting.cluster member finished = _
        rw [clusters, Function.update_idem]
      · rw [← drives.found, ← isAccepting]
        rfl
    exact recovered.fail .eio rfl

/-- All members are told one after the other. -/
theorem Drives.tellAll {now : Int} {members : List SuperPeerMember} {payload : List UInt8}
    {remaining : List NodeID}
    (drives : Drives index node start ⟨now, members, .tell payload remaining⟩ cluster electorate)
    (own : (cluster node).localId = node) (others : node ∉ remaining) (generated : TransactionId)
    (outcome : NodeID → Except Errno Unit) :
    ∃ next, Drives index node start ⟨now, members, .tell payload []⟩
      (remaining.foldl (tellMember (fun member =>
        electionRequest generated node member .coordinator payload) outcome) cluster) next := by
  induction remaining generalizing cluster electorate with
  | nil => exact ⟨electorate, drives⟩
  | cons member rest inductionHypothesis =>
    obtain ⟨apart, othersRest⟩ := not_or.mp (mt List.mem_cons.mpr others)
    obtain ⟨next, drives⟩ := drives.tell own generated outcome
    refine inductionHypothesis drives ?_ othersRest
    exact (congrArg C4Cluster.localId (Function.update_of_ne apart _ _)).trans own

/-- Asking the others leaves the node itself as it is. -/
theorem foldl_askMember_other (request : NodeID → Message) {ids : List NodeID}
    (others : node ∉ ids) (state : (NodeID → C4Cluster Context) × Bool) :
    (ids.foldl (askMember request) state).1 node = state.1 node := by
  induction ids generalizing state with
  | nil => rfl
  | cons id rest inductionHypothesis =>
    obtain ⟨apart, othersRest⟩ := not_or.mp (mt List.mem_cons.mpr others)
    rw [List.foldl_cons, inductionHypothesis othersRest]
    exact Function.update_of_ne apart _ _

theorem not_mem_higherMembers {cluster : C4Cluster Context} (own : cluster.localId = node)
    (task : TickTask) : node ∉ task.higherMembers cluster := by
  intro wrong
  obtain ⟨member, kept, same⟩ := List.mem_map.mp wrong
  have higher := (List.mem_filter.mp kept).2
  rw [isHigherSuperpeer, own, same, nodeIdBelow_self, Bool.and_false] at higher
  cases higher

theorem not_mem_liveMembers {cluster : C4Cluster Context} (own : cluster.localId = node)
    (task : TickTask) : node ∉ task.liveMembers cluster := by
  intro wrong
  obtain ⟨member, kept, same⟩ := List.mem_map.mp wrong
  have live := (List.mem_filter.mp kept).2
  rw [isLiveSuperpeer, own, same, bne_self_eq_false, Bool.and_false] at live
  cases live

/-- **A whole tick is a run.** What an uninterrupted tick computes, the interleaved system reaches
when each request is handled and answered at once and the recoveries end as given. -/
theorem wholeTick_reached (own : ∀ node, (start.cluster node).localId = node)
    (generated : TransactionId) (recoveries : Recoveries) (now : Int) (node : NodeID) :
    ∃ next, Transition.Reaches step anything start next ∧
      next.cluster = wholeTick generated recoveries now node start.cluster := by
  have begun : Drives start.ticks.length node start
      ⟨now, (start.cluster node).members, .checks⟩ start.cluster
      { start with ticks := start.ticks ++
          [(node, ⟨now, (start.cluster node).members, .checks⟩)] } :=
    ⟨.tail .refl (.tick node now) trivial rfl, rfl, List.getElem?_concat_length⟩
  obtain ⟨checking, checked, -⟩ := begun.run generated now (.ok ()) rfl
  obtain ⟨checkedOwn, -, -⟩ := tickChecks_kept now (start.cluster node).members (start.cluster node)
  unfold wholeTick
  dsimp only
  generalize tickChecks now (start.cluster node).members (start.cluster node) = state
    at checked checkedOwn ⊢
  rw [own] at checkedOwn
  by_cases requested : state.electionRequested = true
  · rw [if_pos requested] at checked ⊢
    obtain ⟨asking, asked⟩ := checked.askAll (Function.update_self _ _ _) checkedOwn
      (not_mem_higherMembers (own node) _) generated
    have kept := foldl_askMember_other (fun member => electionRequest generated node member .election
      (electionPayload state)) (not_mem_higherMembers (own node)
        ⟨now, (start.cluster node).members, .checks⟩) (Function.update start.cluster node state, false)
    generalize (TickTask.higherMembers (start.cluster node)
      ⟨now, (start.cluster node).members, .checks⟩).foldl (askMember fun member =>
        electionRequest generated node member .election (electionPayload state))
        (Function.update start.cluster node state, false) = result at asked kept ⊢
    have kept : result.1 node = state := kept.trans (Function.update_self _ _ _)
    by_cases higher : result.2 = true
    · rw [if_pos higher]
      obtain ⟨next, done, -⟩ := asked.run generated now (.ok ())
        (show TickTask.step generated now (.ok ()) (result.1 node) _ = some
            (awaitHigher now (result.1 node), .returned, none) from if_pos higher)
      exact ⟨next, done.reached, done.cluster⟩
    · rw [if_neg higher]
      obtain ⟨recovering, asked, -⟩ := asked.run generated now (.ok ())
        (show TickTask.step generated now (.ok ()) (result.1 node) _ = some
            (result.1 node, _, none) from if_neg higher)
      rw [Function.update_eq_self] at asked
      by_cases diverge : ((TickTask.liveMembers (result.1 node)
          ⟨now, (start.cluster node).members, .checks⟩).any fun member =>
            logsDiverge (recoveries.own member)) = true
      · rw [if_pos diverge]
        obtain ⟨suspending, ready⟩ := asked.recoverAll generated recoveries.own (if_pos diverge)
        obtain ⟨next, done, -⟩ := ready.run generated recoveries.suspendedMs (.ok ()) rfl
        exact ⟨next, done.reached, done.cluster⟩
      rw [if_neg diverge]
      obtain ⟨recovered, ready⟩ := asked.recoverAll generated recoveries.own (if_neg diverge)
      obtain ⟨proclaiming, proclaimed, -⟩ := ready.run generated now (.ok ()) rfl
      obtain ⟨announcing, announced, -⟩ := proclaimed.run generated now (.ok ()) rfl
      rw [Function.update_eq_self, Function.update_self] at announced
      have proclaimedOwn : (proclaim (result.1 node)).localId = node :=
        (congrArg C4Cluster.localId kept).trans checkedOwn
      have announcedOwn : (Function.update result.1 node (proclaim (result.1 node)) node).localId =
          node := by
        rw [Function.update_self]
        exact proclaimedOwn
      obtain ⟨next, told⟩ := announced.tellAll announcedOwn
        (not_mem_liveMembers proclaimedOwn _) generated recoveries.accepting
      exact ⟨next, told.reached, told.cluster⟩
  · rw [if_neg requested] at checked ⊢
    exact ⟨checking, checked.reached, checked.cluster⟩

end Electorate

end SuperPeerNet
