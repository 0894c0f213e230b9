/-
This file shows what holds of the leaders that the super peers name, over every interleaving of
ticks and handlers, and whatever is lost, late or repeated.

A node only names a leader that has proclaimed itself, in exactly the term that the node is in, and
that is not below the node. While no node restarts and no term wraps around, terms only rise, so
that no node is in a later term than the leader it names.
-/

import SuperPeerNet.Cluster.Acknowledged
import SuperPeerNet.Cluster.Ticks

namespace SuperPeerNet

variable {Context : Type}

/-! ### What one step does to the leader of a node -/

/-- The action lets a tick of the node proclaim it. -/
def Electorate.Proclaims (electorate : Electorate Context) (action : ElectionAction Context)
    (node : NodeID) : Prop :=
  ∃ index generated now outcome task, action = .run index generated now outcome ∧
    electorate.ticks[index]? = some (node, task) ∧ task.phase = .proclaim

/-- What a step can do to the leader and the term of a node. -/
inductive LeaderChange (electorate next : Electorate Context) (action : ElectionAction Context)
    (node : NodeID) (before after : C4Cluster Context) : Prop
  | kept (leader : after.leader = before.leader ∨ after.leader = zeroNodeId)
      (term : after.term = before.term)
  | restarted (members : List SuperPeerMember) (log : C4Log) (context : Context)
      (isRestart : action = .restart node members log context)
      (leader : after.leader = zeroNodeId) (term : after.term = 0)
  | proclaimed (proclaims : electorate.Proclaims action node)
      (leader : after.leader = before.localId) (term : after.term = before.term + 1)
      (told : next.proclaimed = electorate.proclaimed ++ [(node, after.term)])
  | accepted (request : Message) (sent : .request request ∈ electorate.network)
      (kind : request.messageType ≠ .election) (leader : after.leader = request.sourceNode)
      (term : after.term = wireGetU64 request.payload) (current : before.term ≤ after.term)
      (above : nodeIdBelow request.sourceNode before.localId = false)

theorem LeaderChange.refl (electorate next : Electorate Context)
    (action : ElectionAction Context) (node : NodeID) (cluster : C4Cluster Context) :
    LeaderChange electorate next action node cluster cluster :=
  .kept (Or.inl rfl) rfl

/-- What a step of a tick does to its node. -/
theorem TickTask.step_cluster {generated : TransactionId} {now : Int}
    {outcome : Except Errno Unit} {cluster after : C4Cluster Context} {task : TickTask}
    {phase : TickPhase} {sent : Option Message}
    (stepped : task.step generated now outcome cluster = some (after, phase, sent)) :
    after.localId = cluster.localId ∧
      ((task.phase = .proclaim ∧ after.leader = cluster.localId ∧ after.term = cluster.term + 1) ∨
        (task.phase ≠ .proclaim ∧ (after.leader = cluster.leader ∨ after.leader = zeroNodeId) ∧
          after.term = cluster.term)) := by
  unfold TickTask.step at stepped
  cases place : task.phase with
  | checks =>
    rw [place] at stepped
    cases stepped
    obtain ⟨localId, term, leader⟩ := tickChecks_kept task.now task.members cluster
    exact ⟨localId, Or.inr ⟨by rintro ⟨⟩, leader, term⟩⟩
  | ask remaining higher =>
    rw [place] at stepped
    cases remaining with
    | nil =>
      dsimp only at stepped
      split at stepped <;> cases stepped <;> exact ⟨rfl, Or.inr ⟨by rintro ⟨⟩, Or.inl rfl, rfl⟩⟩
    | cons member remaining =>
      cases stepped
      exact ⟨rfl, Or.inr ⟨by rintro ⟨⟩, Or.inl rfl, rfl⟩⟩
  | recover remaining =>
    rw [place] at stepped
    cases remaining <;> cases stepped <;> exact ⟨rfl, Or.inr ⟨by rintro ⟨⟩, Or.inl rfl, rfl⟩⟩
  | suspend =>
    rw [place] at stepped
    cases stepped
    exact ⟨rfl, Or.inr ⟨by rintro ⟨⟩, Or.inl rfl, rfl⟩⟩
  | proclaim =>
    rw [place] at stepped
    cases stepped
    exact ⟨rfl, Or.inl ⟨rfl, rfl, rfl⟩⟩
  | announce term =>
    rw [place] at stepped
    cases stepped
    exact ⟨rfl, Or.inr ⟨by rintro ⟨⟩, Or.inl rfl, rfl⟩⟩
  | tell payload remaining =>
    rw [place] at stepped
    cases remaining <;> cases stepped <;> exact ⟨rfl, Or.inr ⟨by rintro ⟨⟩, Or.inl rfl, rfl⟩⟩
  | awaitAnswer request remaining higher | awaitTold request payload remaining | returned =>
    rw [place] at stepped
    cases stepped

/-! ### What a proclamation says -/

/-- What a tick is about to tell has been proclaimed by its node. -/
def TickPhase.Tells (proclaimed : List (NodeID × UInt64)) (node : NodeID) : TickPhase → Prop
  | .announce term => (node, term) ∈ proclaimed
  | .tell payload _ | .awaitTold _ payload _ => (node, wireGetU64 payload) ∈ proclaimed
  | _ => True

theorem TickPhase.Tells.mono {proclaimed more : List (NodeID × UInt64)} {node : NodeID}
    {phase : TickPhase} (tells : phase.Tells proclaimed node)
    (within : ∀ entry ∈ proclaimed, entry ∈ more) : phase.Tells more node := by
  cases phase with
  | announce term => exact within _ tells
  | tell payload remaining => exact within _ tells
  | awaitTold request payload remaining => exact within _ tells
  | checks | ask | awaitAnswer | recover | suspend | proclaim | returned => trivial

/-- A tick goes on to tell what its node has proclaimed, and it sends nothing else. -/
theorem TickTask.step_tells {generated : TransactionId} {now : Int}
    {outcome : Except Errno Unit} {cluster after : C4Cluster Context} {task : TickTask}
    {phase : TickPhase} {sent : Option Message} {proclaimed : List (NodeID × UInt64)}
    (tells : task.phase.Tells proclaimed cluster.localId)
    (stepped : task.step generated now outcome cluster = some (after, phase, sent))
    (told : task.phase = .proclaim → (cluster.localId, after.term) ∈ proclaimed) :
    phase.Tells proclaimed cluster.localId ∧
      ∀ request ∈ sent, request.messageType ≠ .election →
        (request.sourceNode, wireGetU64 request.payload) ∈ proclaimed := by
  unfold TickTask.step at stepped
  cases place : task.phase with
  | checks =>
    rw [place] at stepped
    cases stepped
    refine ⟨?_, fun _ none => by cases none⟩
    split <;> trivial
  | ask remaining higher =>
    rw [place] at stepped
    cases remaining with
    | nil =>
      dsimp only at stepped
      split at stepped <;> cases stepped <;> exact ⟨trivial, fun _ none => by cases none⟩
    | cons member remaining =>
      cases stepped
      refine ⟨trivial, fun request asked other => ?_⟩
      cases asked
      exact absurd rfl other
  | recover remaining =>
    rw [place] at stepped
    cases remaining with
    | nil =>
      cases stepped
      exact ⟨trivial, fun _ none => by cases none⟩
    | cons member remaining =>
      cases stepped
      refine ⟨?_, fun _ none => by cases none⟩
      split <;> trivial
  | suspend =>
    rw [place] at stepped
    cases stepped
    exact ⟨trivial, fun _ none => by cases none⟩
  | proclaim =>
    rw [place] at stepped
    cases stepped
    exact ⟨told place, fun _ none => by cases none⟩
  | announce term =>
    rw [place] at stepped tells
    cases stepped
    refine ⟨?_, fun _ none => by cases none⟩
    show (cluster.localId, wireGetU64 (coordinatorPayload term cluster.log)) ∈ proclaimed
    rw [wireGetU64_coordinatorPayload]
    exact tells
  | tell payload remaining =>
    rw [place] at stepped tells
    cases remaining with
    | nil =>
      cases stepped
      exact ⟨trivial, fun _ none => by cases none⟩
    | cons member remaining =>
      cases stepped
      refine ⟨tells, fun request asked _ => ?_⟩
      cases asked
      exact tells
  | awaitAnswer request remaining higher | awaitTold request payload remaining | returned =>
    rw [place] at stepped
    cases stepped

/-! ### What one step does to every node -/

theorem handleElection_kept (errno : Errno) (cluster : C4Cluster Context) (request : Message) :
    (handleElection errno cluster request).1.localId = cluster.localId ∧
      (handleElection errno cluster request).1.leader = cluster.leader ∧
      (handleElection errno cluster request).1.term = cluster.term := by
  unfold handleElection
  split
  · exact ⟨rfl, rfl, rfl⟩
  · split
    · exact ⟨rfl, rfl, rfl⟩
    · split <;> exact ⟨rfl, rfl, rfl⟩

/-- A proclamation is only accepted in a term that is not over, and from a node that is not below
the one that accepts it. -/
theorem acceptCoordinator_ok {errno : Errno} {cluster after : C4Cluster Context}
    {request : Message} {member : SuperPeerMember}
    (accepted : acceptCoordinator errno cluster request = .ok (after, member)) :
    after.localId = cluster.localId ∧ after.leader = request.sourceNode ∧
      after.term = wireGetU64 request.payload ∧ cluster.term ≤ after.term ∧
      nodeIdBelow request.sourceNode cluster.localId = false := by
  unfold acceptCoordinator at accepted
  split at accepted
  · cases accepted
  · split at accepted
    · cases accepted
    · split at accepted
      · cases accepted
      · rename_i current
        cases accepted
        rw [not_or, Bool.not_eq_true] at current
        exact ⟨rfl, rfl, rfl, UInt64.not_lt.mp current.1, current.2⟩

theorem finishCoordinator_kept (cluster : C4Cluster Context) (request : Message)
    (outcome : Except Errno Unit) :
    (finishCoordinator cluster request outcome).localId = cluster.localId ∧
      (finishCoordinator cluster request outcome).term = cluster.term ∧
      ((finishCoordinator cluster request outcome).leader = cluster.leader ∨
        (finishCoordinator cluster request outcome).leader = zeroNodeId) := by
  cases outcome with
  | ok done => exact ⟨rfl, rfl, Or.inl rfl⟩
  | error code =>
    unfold finishCoordinator
    dsimp only
    split
    · exact ⟨rfl, rfl, Or.inr rfl⟩
    · exact ⟨rfl, rfl, Or.inl rfl⟩

namespace Electorate

/-- Every node has its own id. -/
def Identified (electorate : Electorate Context) : Prop :=
  ∀ node, (electorate.cluster node).localId = node

/-- A step that writes the state of one node changes no other leader. -/
theorem changes_of_update {electorate next : Electorate Context}
    {action : ElectionAction Context} {home : NodeID} {after : C4Cluster Context}
    (identified : electorate.Identified)
    (clusters : next.cluster = Function.update electorate.cluster home after)
    (localId : after.localId = (electorate.cluster home).localId)
    (change : LeaderChange electorate next action home (electorate.cluster home) after) :
    next.Identified ∧ ∀ node,
      LeaderChange electorate next action node (electorate.cluster node) (next.cluster node) := by
  rw [Identified, clusters]
  refine ⟨fun node => ?_, fun node => ?_⟩
  · by_cases same : node = home
    · subst same
      rw [Function.update_self, localId, identified]
    · rw [Function.update_of_ne same, identified]
  · by_cases same : node = home
    · subst same
      rw [Function.update_self]
      exact change
    · rw [Function.update_of_ne same]
      exact .refl _ _ _ _ _

theorem changes_of_same {electorate next : Electorate Context}
    {action : ElectionAction Context} (identified : electorate.Identified)
    (clusters : next.cluster = electorate.cluster) :
    next.Identified ∧ ∀ node,
      LeaderChange electorate next action node (electorate.cluster node) (next.cluster node) := by
  rw [Identified, clusters]
  exact ⟨identified, fun node => .refl _ _ _ _ _⟩

/-- What a step does to the leaders and the terms of the nodes. -/
theorem step_changes {electorate next : Electorate Context} {action : ElectionAction Context}
    (identified : electorate.Identified) (stepped : electorate.step action = some next) :
    next.Identified ∧ ∀ node,
      LeaderChange electorate next action node (electorate.cluster node) (next.cluster node) := by
  cases action with
  | members node members =>
    cases stepped
    exact changes_of_update identified rfl rfl (.kept (Or.inl rfl) rfl)
  | progress node log context =>
    cases stepped
    exact changes_of_update identified rfl rfl (.kept (Or.inl rfl) rfl)
  | restart node members log context =>
    cases stepped
    exact changes_of_update identified rfl (identified node).symm
      (.restarted members log context rfl rfl rfl)
  | tick node now =>
    cases stepped
    exact changes_of_same identified rfl
  | run index generated now outcome =>
    obtain ⟨⟨node, task⟩, found, rest⟩ := Option.bind_eq_some_iff.mp stepped
    obtain ⟨⟨after, phase, sent⟩, taken, done⟩ := Option.bind_eq_some_iff.mp rest
    cases done
    obtain ⟨localId, ⟨place, leader, term⟩ | ⟨-, leader, term⟩⟩ := TickTask.step_cluster taken
    · refine changes_of_update identified rfl localId (.proclaimed
        ⟨index, generated, now, outcome, task, rfl, found, place⟩ leader term ?_)
      show electorate.proclaimed ++ (if task.phase = .proclaim then [(node, after.term)] else []) =
        electorate.proclaimed ++ [(node, after.term)]
      rw [if_pos place]
    · exact changes_of_update identified rfl localId (.kept leader term)
  | reply index reply =>
    obtain ⟨⟨node, task⟩, found, rest⟩ := Option.bind_eq_some_iff.mp stepped
    obtain ⟨request, awaits, rest⟩ := Option.bind_eq_some_iff.mp rest
    split at rest
    · obtain ⟨phase, -, done⟩ := Option.bind_eq_some_iff.mp rest
      cases done
      exact changes_of_same identified rfl
    · cases rest
  | fail index code =>
    obtain ⟨⟨node, task⟩, found, rest⟩ := Option.bind_eq_some_iff.mp stepped
    obtain ⟨phase, -, done⟩ := Option.bind_eq_some_iff.mp rest
    cases done
    exact changes_of_same identified rfl
  | deliver request errno =>
    rw [step] at stepped
    split at stepped
    · rename_i sent
      dsimp only at stepped
      split at stepped
      · cases stepped
        obtain ⟨localId, leader, term⟩ := handleElection_kept errno
          (electorate.cluster request.destinationNode) request
        exact changes_of_update identified rfl localId (.kept (Or.inl leader) term)
      · rename_i kind
        split at stepped
        · cases stepped
          exact changes_of_same identified rfl
        · rename_i after member accepted
          cases stepped
          obtain ⟨localId, leader, term, current, above⟩ := acceptCoordinator_ok accepted
          exact changes_of_update identified rfl localId
            (.accepted request sent kind leader term current above)
    · cases stepped
  | finish index outcome =>
    obtain ⟨request, found, done⟩ := Option.bind_eq_some_iff.mp stepped
    cases done
    obtain ⟨localId, term, leader⟩ := finishCoordinator_kept
      (electorate.cluster request.destinationNode) request outcome
    exact changes_of_update identified rfl localId (.kept leader term)

/-! ### Leaders are proclaimed -/

/-- Leaders, requests and ticks name what has been proclaimed. -/
structure Sound (electorate : Electorate Context) : Prop where
  identified : electorate.Identified
  leaders : ∀ node, (electorate.cluster node).leader = zeroNodeId ∨
    ((electorate.cluster node).leader, (electorate.cluster node).term) ∈ electorate.proclaimed ∧
      nodeIdBelow (electorate.cluster node).leader node = false
  requests : ∀ request, .request request ∈ electorate.network →
    request.messageType ≠ .election →
      (request.sourceNode, wireGetU64 request.payload) ∈ electorate.proclaimed
  ticks : ∀ entry ∈ electorate.ticks, entry.2.phase.Tells electorate.proclaimed entry.1

theorem Initial.sound {electorate : Electorate Context} (initial : electorate.Initial) :
    electorate.Sound where
  identified node := by
    obtain ⟨members, log, context, created⟩ := initial.created node
    rw [created]
    rfl
  leaders node := by
    obtain ⟨members, log, context, created⟩ := initial.created node
    rw [created]
    exact Or.inl rfl
  requests request sent := by
    rw [initial.network] at sent
    cases sent
  ticks entry begun := by
    rw [initial.ticks] at begun
    cases begun

/-- A reply that is sent adds no request. -/
theorem request_of_withReply {electorate : Electorate Context} {request handled : Message}
    {outcome : Except Errno (MessageType × List UInt8)}
    (sent : .request request ∈ (electorate.withReply handled outcome).network) :
    .request request ∈ electorate.network := by
  rcases List.mem_append.mp sent with old | new
  · exact old
  · obtain ⟨reply, -, isReply⟩ := List.mem_map.mp new
    cases isReply

/-- A tick that is put into a phase that tells the truth leaves only such ticks. -/
theorem tells_of_set {electorate : Electorate Context} {proclaimed : List (NodeID × UInt64)}
    {index : Nat} {node : NodeID} {task : TickTask} {phase : TickPhase}
    (ticks : ∀ entry ∈ electorate.ticks, entry.2.phase.Tells proclaimed entry.1)
    (tells : phase.Tells proclaimed node) :
    ∀ entry ∈ electorate.ticks.set index (node, { task with phase := phase }),
      entry.2.phase.Tells proclaimed entry.1 := by
  intro entry begun
  rcases List.mem_or_eq_of_mem_set begun with old | new
  · exact ticks entry old
  · rw [new]
    exact tells

theorem TickTask.receive_tells {proclaimed : List (NodeID × UInt64)} {node : NodeID}
    {task : TickTask} {response : Except Errno Message} {phase : TickPhase}
    (tells : task.phase.Tells proclaimed node) (received : task.receive response = some phase) :
    phase.Tells proclaimed node := by
  unfold TickTask.receive at received
  split at received
  · cases received
    trivial
  · rename_i place
    rw [place] at tells
    cases received
    exact tells
  · cases received

/-- What has been proclaimed stays so, and whatever a step tells has been proclaimed. -/
theorem step_tells {electorate next : Electorate Context} {action : ElectionAction Context}
    (sound : electorate.Sound) (stepped : electorate.step action = some next) :
    (∀ entry ∈ electorate.proclaimed, entry ∈ next.proclaimed) ∧
      (∀ request, .request request ∈ next.network → request.messageType ≠ .election →
        (request.sourceNode, wireGetU64 request.payload) ∈ next.proclaimed) ∧
      ∀ entry ∈ next.ticks, entry.2.phase.Tells next.proclaimed entry.1 := by
  cases action with
  | members node members | progress node log context =>
    cases stepped
    exact ⟨fun _ old => old, sound.requests, sound.ticks⟩
  | restart node members log context =>
    cases stepped
    exact ⟨fun _ old => old, sound.requests,
      fun entry begun => sound.ticks entry (List.mem_filter.mp begun).1⟩
  | tick node now =>
    cases stepped
    refine ⟨fun _ old => old, sound.requests, fun entry begun => ?_⟩
    rcases List.mem_append.mp begun with old | new
    · exact sound.ticks entry old
    · rw [List.mem_singleton.mp new]
      trivial
  | run index generated now outcome =>
    obtain ⟨⟨node, task⟩, found, rest⟩ := Option.bind_eq_some_iff.mp stepped
    obtain ⟨⟨after, phase, sent⟩, taken, done⟩ := Option.bind_eq_some_iff.mp rest
    cases done
    have own := sound.identified node
    have within : ∀ entry ∈ electorate.proclaimed, entry ∈ electorate.proclaimed ++
        if task.phase = .proclaim then [(node, after.term)] else [] :=
      fun entry old => List.mem_append_left _ old
    have tells := (sound.ticks _ (List.mem_of_getElem? found)).mono within
    have told : task.phase = .proclaim → ((electorate.cluster node).localId, after.term) ∈
        electorate.proclaimed ++ if task.phase = .proclaim then [(node, after.term)] else [] := by
      intro place
      rw [if_pos place, own]
      exact List.mem_append_right _ (List.mem_singleton_self _)
    obtain ⟨phaseTells, sentTold⟩ := TickTask.step_tells (own.symm ▸ tells) taken told
    rw [own] at phaseTells
    refine ⟨within, fun request asked other => ?_, ?_⟩
    · rcases List.mem_append.mp asked with old | new
      · exact within _ (sound.requests request old other)
      · obtain ⟨one, isSent, same⟩ := List.mem_map.mp new
        cases same
        exact sentTold request (Option.mem_toList.mp isSent) other
    · exact tells_of_set (fun entry begun => (sound.ticks entry begun).mono within) phaseTells
  | reply index reply =>
    obtain ⟨⟨node, task⟩, found, rest⟩ := Option.bind_eq_some_iff.mp stepped
    obtain ⟨request, awaits, rest⟩ := Option.bind_eq_some_iff.mp rest
    split at rest
    · obtain ⟨phase, received, done⟩ := Option.bind_eq_some_iff.mp rest
      cases done
      exact ⟨fun _ old => old, sound.requests, tells_of_set sound.ticks
        (TickTask.receive_tells (sound.ticks _ (List.mem_of_getElem? found)) received)⟩
    · cases rest
  | fail index code =>
    obtain ⟨⟨node, task⟩, found, rest⟩ := Option.bind_eq_some_iff.mp stepped
    obtain ⟨phase, received, done⟩ := Option.bind_eq_some_iff.mp rest
    cases done
    exact ⟨fun _ old => old, sound.requests, tells_of_set sound.ticks
      (TickTask.receive_tells (sound.ticks _ (List.mem_of_getElem? found)) received)⟩
  | deliver request errno =>
    rw [step] at stepped
    split at stepped
    · dsimp only at stepped
      split at stepped
      · cases stepped
        exact ⟨fun _ old => old, fun other sent => sound.requests other (request_of_withReply sent),
          sound.ticks⟩
      · split at stepped
        · cases stepped
          exact ⟨fun _ old => old,
            fun other sent => sound.requests other (request_of_withReply sent), sound.ticks⟩
        · cases stepped
          exact ⟨fun _ old => old, sound.requests, sound.ticks⟩
    · cases stepped
  | finish index outcome =>
    obtain ⟨request, found, done⟩ := Option.bind_eq_some_iff.mp stepped
    cases done
    exact ⟨fun _ old => old, fun other sent => sound.requests other (request_of_withReply sent),
      sound.ticks⟩

theorem Sound.step {electorate next : Electorate Context} {action : ElectionAction Context}
    (sound : electorate.Sound) (stepped : electorate.step action = some next) : next.Sound := by
  obtain ⟨identified, changes⟩ := step_changes sound.identified stepped
  obtain ⟨within, requests, ticks⟩ := step_tells sound stepped
  refine ⟨identified, fun node => ?_, requests, ticks⟩
  cases changes node with
  | kept leader term =>
    rcases leader with leader | leader
    · rw [leader, term]
      exact (sound.leaders node).imp_right fun named => ⟨within _ named.1, named.2⟩
    · exact Or.inl leader
  | restarted members log context isRestart leader => exact Or.inl leader
  | proclaimed proclaims leader term told =>
    rw [leader, sound.identified, told]
    exact Or.inr ⟨List.mem_append_right _ (List.mem_singleton_self _), nodeIdBelow_self node⟩
  | accepted request sent kind leader term current above =>
    rw [sound.identified] at above
    rw [leader, term]
    exact Or.inr ⟨within _ (sound.requests request sent kind), above⟩

/-- **A leader has proclaimed itself.** Whatever is lost, late or repeated, whichever nodes restart
and however the ticks of the nodes interleave, the leader that a node names has proclaimed itself
in exactly the term that the node is in, and its id is not below that of the node. -/
theorem leader_proclaimed {start electorate : Electorate Context} (initial : start.Initial)
    (reached : Transition.Reaches step anything start electorate) (node : NodeID)
    (named : (electorate.cluster node).leader ≠ zeroNodeId) :
    ((electorate.cluster node).leader, (electorate.cluster node).term) ∈ electorate.proclaimed ∧
      nodeIdBelow (electorate.cluster node).leader node = false := by
  have sound : electorate.Sound := reached.invariant initial.sound
    fun _ _ _ sound _ stepped => sound.step stepped
  exact (sound.leaders node).resolve_left named

/-! ### The election of two super peers -/

/-- Super peers that have just been created with the same table of members. -/
def electorateOf (members : List NodeID) : Electorate Unit where
  cluster node := .created node (members.map fun id => ⟨id, .superPeer, .alive, false⟩)
    C4Log.fresh ()
  ticks := []
  accepting := []
  network := []
  proclaimed := []

theorem initial_electorateOf (members : List NodeID) : (electorateOf members).Initial :=
  ⟨fun _ => ⟨_, _, _, rfl⟩, rfl, rfl, rfl, rfl⟩

/-- A tick takes a step at the time 0, and a recovery succeeds. -/
def runTick (index : Nat) : ElectionAction Unit := .run index (transactionOf 0) 0 (.ok ())

/-- The second of two super peers proclaims itself, and the first one accepts it. -/
def electionRun : List (ElectionAction Unit) :=
  [.tick (nodeOf 2) 0, runTick 0, runTick 0, runTick 0, runTick 0, runTick 0, runTick 0, runTick 0,
    .deliver (requestOf 2 1 .coordinator (transactionOf 0) (coordinatorPayload 1 C4Log.fresh)) .eio]

/-- The first super peer names the second one, which has proclaimed itself in the term 1. -/
theorem leader_proclaimed_pair :
    ∃ electorate, Transition.Reaches step anything (electorateOf [nodeOf 1, nodeOf 2]) electorate ∧
      (electorate.cluster (nodeOf 1)).leader = nodeOf 2 ∧
      ((electorate.cluster (nodeOf 1)).leader, (electorate.cluster (nodeOf 1)).term) ∈
        electorate.proclaimed ∧
      nodeIdBelow (electorate.cluster (nodeOf 1)).leader (nodeOf 1) = false := by
  obtain ⟨electorate, reached, leader⟩ := Transition.Reaches.of_check
    (show (Transition.run (Transition.guarded step anything) (electorateOf [nodeOf 1, nodeOf 2])
        electionRun).any (fun final => (final.cluster (nodeOf 1)).leader = nodeOf 2) = true
      by decide +kernel)
  have named : (electorate.cluster (nodeOf 1)).leader ≠ zeroNodeId := by
    rw [leader]
    decide
  exact ⟨electorate, reached, leader,
    leader_proclaimed (initial_electorateOf _) reached (nodeOf 1) named⟩

/-! ### Terms only rise -/

/-- The actions of a run in which no node restarts and no term wraps around. -/
def Lasting (electorate : Electorate Context) : ElectionAction Context → Prop
  | .restart _ _ _ _ => False
  | .run index _ _ _ => ∀ entry ∈ electorate.ticks[index]?, entry.2.phase = .proclaim →
      (electorate.cluster entry.1).term.toNat + 1 < 2 ^ 64
  | _ => True

instance (electorate : Electorate Context) (action : ElectionAction Context) :
    Decidable (electorate.Lasting action) :=
  match action with
  | .restart _ _ _ _ => inferInstanceAs (Decidable False)
  | .run index _ _ _ => inferInstanceAs (Decidable (∀ entry ∈ electorate.ticks[index]?,
      entry.2.phase = .proclaim → (electorate.cluster entry.1).term.toNat + 1 < 2 ^ 64))
  | .members _ _ | .progress _ _ _ | .tick _ _ | .reply _ _ | .fail _ _ | .deliver _ _
  | .finish _ _ => inferInstanceAs (Decidable True)

theorem Lasting.term_lt {electorate : Electorate Context} {action : ElectionAction Context}
    {node : NodeID} (lasting : electorate.Lasting action)
    (proclaims : electorate.Proclaims action node) :
    (electorate.cluster node).term < (electorate.cluster node).term + 1 := by
  obtain ⟨index, generated, now, outcome, task, rfl, found, place⟩ := proclaims
  have room := lasting (node, task) found place
  rw [UInt64.lt_iff_toNat_lt, UInt64.toNat_add]
  exact (Nat.lt_succ_self _).trans_eq (Nat.mod_eq_of_lt room).symm

theorem Lasting.term_le {electorate next : Electorate Context} {action : ElectionAction Context}
    (identified : electorate.Identified) (lasting : electorate.Lasting action)
    (stepped : electorate.step action = some next) (node : NodeID) :
    (electorate.cluster node).term ≤ (next.cluster node).term := by
  cases (step_changes identified stepped).2 node with
  | kept leader term =>
    rw [term]
    exact UInt64.le_refl _
  | restarted members log context isRestart leader term =>
    subst isRestart
    cases lasting
  | proclaimed proclaims leader term told =>
    rw [term]
    exact UInt64.le_of_lt (lasting.term_lt proclaims)
  | accepted request sent kind leader term current above => exact current

/-- A step proclaims nothing, or one node in its next term. -/
theorem step_proclaimed {electorate next : Electorate Context} {action : ElectionAction Context}
    (stepped : electorate.step action = some next) :
    next.proclaimed = electorate.proclaimed ∨
      ∃ node, electorate.Proclaims action node ∧
        (next.cluster node).term = (electorate.cluster node).term + 1 ∧
        next.proclaimed = electorate.proclaimed ++ [(node, (next.cluster node).term)] := by
  cases action with
  | members node members | progress node log context | restart node members log context
  | tick node now =>
    cases stepped
    exact Or.inl rfl
  | run index generated now outcome =>
    obtain ⟨⟨node, task⟩, found, rest⟩ := Option.bind_eq_some_iff.mp stepped
    obtain ⟨⟨after, phase, sent⟩, taken, done⟩ := Option.bind_eq_some_iff.mp rest
    cases done
    by_cases place : task.phase = .proclaim
    · refine Or.inr ⟨node, ⟨index, generated, now, outcome, task, rfl, found, place⟩, ?_⟩
      show (Function.update electorate.cluster node after node).term = _ ∧
        electorate.proclaimed ++ (if task.phase = .proclaim then [(node, after.term)] else []) =
          electorate.proclaimed ++ [(node, (Function.update electorate.cluster node after node).term)]
      rw [Function.update_self, if_pos place]
      obtain ⟨-, ⟨-, -, term⟩ | ⟨other, -⟩⟩ := TickTask.step_cluster taken
      · exact ⟨term, rfl⟩
      · exact absurd place other
    · refine Or.inl ?_
      show electorate.proclaimed ++ (if task.phase = .proclaim then [(node, after.term)] else []) = _
      rw [if_neg place, List.append_nil]
  | reply index reply =>
    obtain ⟨entry, found, rest⟩ := Option.bind_eq_some_iff.mp stepped
    obtain ⟨request, awaits, rest⟩ := Option.bind_eq_some_iff.mp rest
    split at rest
    · obtain ⟨phase, received, done⟩ := Option.bind_eq_some_iff.mp rest
      cases done
      exact Or.inl rfl
    · cases rest
  | fail index code =>
    obtain ⟨entry, found, rest⟩ := Option.bind_eq_some_iff.mp stepped
    obtain ⟨phase, received, done⟩ := Option.bind_eq_some_iff.mp rest
    cases done
    exact Or.inl rfl
  | deliver request errno =>
    rw [step] at stepped
    split at stepped
    · dsimp only at stepped
      split at stepped
      · cases stepped
        exact Or.inl rfl
      · split at stepped <;> cases stepped <;> exact Or.inl rfl
    · cases stepped
  | finish index outcome =>
    obtain ⟨request, found, done⟩ := Option.bind_eq_some_iff.mp stepped
    cases done
    exact Or.inl rfl

/-- The terms in which a node has proclaimed itself, in order. -/
def termsOf (electorate : Electorate Context) (node : NodeID) : List UInt64 :=
  (electorate.proclaimed.filter fun entry => entry.1 = node).map Prod.snd

/-- No proclamation is ahead of the node that has made it, and each was in a later term than those
before it. -/
structure Ordered (electorate : Electorate Context) : Prop where
  sound : electorate.Sound
  bounded : ∀ entry ∈ electorate.proclaimed, entry.2 ≤ (electorate.cluster entry.1).term
  rising : ∀ node, (electorate.termsOf node).Pairwise (· < ·)

theorem Initial.ordered {electorate : Electorate Context} (initial : electorate.Initial) :
    electorate.Ordered where
  sound := initial.sound
  bounded entry told := by
    rw [initial.proclaimed] at told
    cases told
  rising node := by
    rw [termsOf, initial.proclaimed]
    exact List.Pairwise.nil

theorem mem_termsOf {electorate : Electorate Context} {node : NodeID} {term : UInt64}
    (told : term ∈ electorate.termsOf node) : (node, term) ∈ electorate.proclaimed := by
  obtain ⟨entry, isOwn, rfl⟩ := List.mem_map.mp told
  obtain ⟨told, own⟩ := List.mem_filter.mp isOwn
  rw [← of_decide_eq_true own]
  exact told

theorem Ordered.step {electorate next : Electorate Context} {action : ElectionAction Context}
    (ordered : electorate.Ordered) (lasting : electorate.Lasting action)
    (stepped : electorate.step action = some next) : next.Ordered := by
  have rises := lasting.term_le ordered.sound.identified stepped
  have bounded : ∀ entry ∈ electorate.proclaimed, entry.2 ≤ (next.cluster entry.1).term :=
    fun entry told => UInt64.le_trans (ordered.bounded entry told) (rises entry.1)
  rcases step_proclaimed stepped with same | ⟨node, proclaims, term, more⟩
  · refine ⟨ordered.sound.step stepped, ?_, fun node => ?_⟩
    · rw [same]
      exact bounded
    · rw [termsOf, same]
      exact ordered.rising node
  · refine ⟨ordered.sound.step stepped, fun entry told => ?_, fun other => ?_⟩
    · rw [more] at told
      rcases List.mem_append.mp told with old | new
      · exact bounded entry old
      · rw [List.mem_singleton.mp new]
        exact UInt64.le_refl _
    · rw [termsOf, more, List.filter_append, List.map_append]
      by_cases own : node = other
      · subst own
        rw [List.filter_singleton, decide_eq_true rfl]
        refine List.pairwise_append.mpr ⟨ordered.rising node, List.pairwise_singleton _ _, ?_⟩
        intro old told new isNew
        rw [List.mem_singleton.mp isNew]
        show old < (next.cluster node).term
        rw [term]
        exact UInt64.lt_of_le_of_lt (ordered.bounded _ (mem_termsOf told))
          (lasting.term_lt proclaims)
      · rw [List.filter_singleton, decide_eq_false own]
        show List.Pairwise (· < ·) (_ ++ [])
        rw [List.append_nil]
        exact ordered.rising other

/-- **A leader is never behind.** While no node restarts and no term wraps around, no node is in a
later term than the leader it names, and no node proclaims itself twice in one term. -/
theorem term_le_term_leader {start electorate : Electorate Context} (initial : start.Initial)
    (reached : Transition.Reaches step Lasting start electorate) :
    (∀ node, (electorate.cluster node).leader ≠ zeroNodeId →
        (electorate.cluster node).term ≤
          (electorate.cluster (electorate.cluster node).leader).term) ∧
      ∀ node, (electorate.termsOf node).Pairwise (· < ·) := by
  have ordered : electorate.Ordered := reached.invariant initial.ordered
    fun _ _ _ ordered lasting stepped => ordered.step lasting stepped
  refine ⟨fun node named => ?_, ordered.rising⟩
  exact ordered.bounded _ ((ordered.sound.leaders node).resolve_left named).1

/-- The first super peer is in the term of the second one, which it names. -/
theorem term_le_term_leader_pair :
    ∃ electorate, Transition.Reaches step Lasting (electorateOf [nodeOf 1, nodeOf 2]) electorate ∧
      (electorate.cluster (nodeOf 1)).leader = nodeOf 2 ∧
      (electorate.cluster (nodeOf 1)).term ≤ (electorate.cluster (nodeOf 2)).term ∧
      (electorate.termsOf (nodeOf 2)).Pairwise (· < ·) := by
  obtain ⟨electorate, reached, leader⟩ := Transition.Reaches.of_check
    (show (Transition.run (Transition.guarded step Lasting) (electorateOf [nodeOf 1, nodeOf 2])
        electionRun).any (fun final => (final.cluster (nodeOf 1)).leader = nodeOf 2) = true
      by decide +kernel)
  obtain ⟨behind, rising⟩ := term_le_term_leader (initial_electorateOf _) reached
  have named : (electorate.cluster (nodeOf 1)).leader ≠ zeroNodeId := by
    rw [leader]
    decide
  exact ⟨electorate, reached, leader, leader ▸ behind (nodeOf 1) named, rising (nodeOf 2)⟩

end Electorate

end SuperPeerNet
