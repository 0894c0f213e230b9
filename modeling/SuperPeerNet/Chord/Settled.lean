/-
This file is about a settled ring: all its nodes have joined, every successor is the very next
node, and the fingers and predecessors are any nodes. Lookups and maintenance run in any order,
and calls fail at any moment.

Every node is an anchor here, so what the pointers satisfy says that successors are exact, and
what lookups find fits only if it is the owner. A predecessor only comes closer, so the true one
stays.
-/

import SuperPeerNet.Library.Transition
import SuperPeerNet.Chord.Conduct

namespace SuperPeerNet

open Dialogue (SafeNetwork)

/-- The states of the nodes of a ring and their tasks. The world is the set of those that have
joined. -/
abbrev ChordNetwork :=
  Dialogue.Network Chord NodeID Message (Except Errno Message) ChordResult ChordTask (Set NodeID)

/-- What can happen in the network of a ring. -/
abbrev ChordAction := Dialogue.Action NodeID (Except Errno Message) ChordTask

section Settled

variable [Inet] [Sha256] [Process]

/-- The steps of the network of a ring. -/
abbrev chordStep : ChordNetwork → ChordAction → Option ChordNetwork :=
  Dialogue.Network.step chordSystem

/-! ### Rings without joins -/

omit [Process] in
/-- A ring whose successors are correct and whose other pointers are any nodes of the ring. -/
structure SettledRing (configs : NodeID → NodeConfig) (ring : Set NodeID)
    (network : ChordNetwork) : Prop where
  world : network.world = ring
  idle : network.threads = []
  quiet : network.delayed = []
  usable : ∀ site ∈ ring, UsablePeer (descriptorOf configs site)
  own : ∀ site ∈ ring, (network.locals site).localPeer = descriptorOf configs site
  successor : ∀ site ∈ ring, ∃ id, FirstFrom ring (chordIdAddPower site firstFinger) id ∧
    (network.locals site).successor = descriptorOf configs id
  fingers : ∀ site ∈ ring, ∀ index, ∃ id ∈ ring,
    (network.locals site).fingers index = descriptorOf configs id
  predecessor : ∀ site ∈ ring, ∀ peer ∈ (network.locals site).predecessor,
    ∃ id ∈ ring, id ≠ site ∧ peer = descriptorOf configs id
  available : ∀ site ∈ ring, (network.locals site).unavailable = []

omit [Inet] [Sha256] [Process] in
/-- Nodes of the ring start lookups and maintenance, and calls fail with an error. -/
def SettledAction (ring : Set NodeID) (_ : ChordNetwork) : ChordAction → Prop
  | .start home task => home ∈ ring ∧ ∀ bootstrap, task ≠ .join bootstrap
  | .fail _ answer => CallFails answer
  | _ => True

omit [Inet] [Sha256] [Process] in
/-- The node right before another one. -/
def TruePredecessor (ring : Set NodeID) (site id : NodeID) : Prop :=
  id ∈ ring ∧ id ≠ site ∧ ∀ other ∈ ring, other ≠ site → clockwise id site ≤ clockwise other site

/-- What a settled ring keeps. -/
structure StaysSettled (configs : NodeID → NodeConfig) (ring : Set NodeID)
    (network : ChordNetwork) : Prop where
  safe : SafeNetwork chordSystem (chordLogic configs ring ring) CallFails network
  world : network.world = ring
  tasks : ∀ thread ∈ network.threads, ∀ bootstrap, thread.task ≠ .join bootstrap

variable {configs : NodeID → NodeConfig} {ring : Set NodeID} {network next : ChordNetwork}
  {site : NodeID}

theorem SettledRing.stays (settled : SettledRing configs ring network) :
    StaysSettled configs ring network where
  world := settled.world
  tasks thread inside := by
    rw [settled.idle] at inside
    cases inside
  safe := by
    have member : ∀ id ∈ ring, Member configs ring (descriptorOf configs id) :=
      fun id inside => ⟨inside, rfl, settled.usable id inside⟩
    refine ⟨fun site => ?_, ?_, ?_⟩
    · rw [settled.world]
      refine ⟨fun inside => ?_, fun inside outside => absurd inside outside⟩
      obtain ⟨first, exact, pointed⟩ := settled.successor site inside
      have own := settled.own site inside
      refine ⟨by rw [own]; rfl, by rw [own]; exact member site inside, ?_, ?_, ?_, ?_,
        settled.available site inside⟩
      · rw [pointed]
        exact member first exact.1
      · rw [pointed]
        exact fits_next_iff.mp exact.2
      · intro index
        obtain ⟨id, inRing, held⟩ := settled.fingers site inside index
        rw [held]
        exact member id inRing
      · intro peer known
        obtain ⟨id, inRing, apart, rfl⟩ := settled.predecessor site inside peer known
        exact ⟨member id inRing, apart⟩
    · rw [settled.idle]
      exact nofun
    · rw [settled.quiet]
      exact nofun

/-! ### Steps and runs -/

/-- A step of a settled ring. -/
theorem StaysSettled.step [NormalizingInet] (stays : StaysSettled configs ring network)
    {action : ChordAction} (permitted : SettledAction ring network action)
    (stepped : chordStep network action = some next) :
    StaysSettled configs ring next ∧ ∀ site ∈ ring,
      next.locals site = network.locals site ∨
        Advances ring site (network.locals site) (next.locals site) := by
  -- without joins the ring does not grow
  have unextended : ∀ thread ∈ network.threads, ∀ result,
      chordExtend network.world thread.home thread.task result = network.world := by
    intro thread inside result
    have noJoin := stays.tasks thread inside
    cases task : thread.task with
    | join bootstrap => exact absurd task (noJoin bootstrap)
    | find key => rfl
    | maintain index => rfl
  have allowed : Dialogue.Allowed chordSystem (chordLogic configs ring ring) CallFails network
      action := by
    cases action with
    | start home task =>
      refine ⟨⟨by rw [stays.world], by rw [stays.world], ?_⟩, safe_program task⟩
      cases task with
      | join bootstrap => exact absurd rfl (permitted.2 bootstrap)
      | find key => exact stays.world ▸ permitted.1
      | maintain index => exact stays.world ▸ permitted.1
    | proceed index =>
      intro thread final found _
      have kept := unextended thread (List.mem_of_getElem? found)
      rw [show chordSystem.extend network.world thread.home thread.task
        (final (network.locals thread.home)).2 = network.world from kept _]
      exact Dialogue.Grows.refl _ _ _
    | fail index failure => exact permitted
    | deliver index => trivial
  obtain ⟨safe, moves⟩ := stays.safe.step chordSystem_sound allowed stepped
  refine ⟨⟨safe, ?_, ?_⟩, fun site inside => (moves site).imp_right fun moved =>
    moved (stays.world ▸ inside)⟩
  · rcases Dialogue.Network.step_cases stepped with
      ⟨home, task, -, same, -⟩ | ⟨index, thread, phase, found, -, -, same | ⟨final, -, grown⟩⟩ |
      ⟨same, -⟩
    · exact same.trans stays.world
    · exact same.trans stays.world
    · rw [grown]
      exact (unextended thread (List.mem_of_getElem? found) _).trans stays.world
    · exact same.trans stays.world
  · rcases Dialogue.Network.step_cases stepped with
      ⟨home, task, rfl, -, threads⟩ | ⟨index, thread, phase, found, -, threads, -⟩ | ⟨-, threads⟩
    · rw [threads]
      intro thread inside
      rcases List.mem_append.mp inside with before | new
      · exact stays.tasks thread before
      · rw [List.mem_singleton.mp new]
        exact permitted.2
    · rw [threads]
      intro other inside
      rcases List.mem_or_eq_of_mem_set inside with before | rfl
      · exact stays.tasks other before
      · exact stays.tasks thread (List.mem_of_getElem? found)
    · rw [threads]
      exact stays.tasks

/-- A run of a settled ring: fingers that change become correct, and predecessors come closer. -/
theorem StaysSettled.run [NormalizingInet] (stays : StaysSettled configs ring network)
    {late : ChordNetwork}
    (reached : Transition.Reaches chordStep (SettledAction ring) network late) :
    StaysSettled configs ring late ∧ ∀ site ∈ ring,
      (∀ index, (late.locals site).fingers index = (network.locals site).fingers index ∨
        Fits ring (chordIdAddPower site index) ((late.locals site).fingers index)) ∧
      ∀ old ∈ (network.locals site).predecessor, ∃ closest ∈ (late.locals site).predecessor,
        clockwise closest.id site ≤ clockwise old.id site := by
  induction reached with
  | refl => exact ⟨stays, fun site _ => ⟨fun _ => Or.inl rfl, fun old known =>
      ⟨old, known, Nat.le_refl _⟩⟩⟩
  | @tail state next _ action permitted stepped inductionHypothesis =>
    obtain ⟨still, before⟩ := inductionHypothesis
    obtain ⟨after, moves⟩ := still.step permitted stepped
    refine ⟨after, fun site inside => ?_⟩
    obtain ⟨fingers, closer⟩ := before site inside
    rcases moves site inside with same | advanced
    · rw [same]
      exact ⟨fingers, closer⟩
    · constructor
      · intro index
        rcases advanced.fingers index with same | fits
        · rw [same]
          exact fingers index
        · exact Or.inr fits
      · intro old known
        obtain ⟨closest, held, near⟩ := closer old known
        rcases advanced.predecessor with same | ⟨closer, written, nearer⟩
        · exact ⟨closest, same ▸ held, near⟩
        · exact ⟨closer, written, Nat.le_trans (Nat.le_of_lt (nearer closest held)) near⟩

/-! ### What a settled ring gives -/

theorem StaysSettled.pointers (stays : StaysSettled configs ring network) (inside : site ∈ ring) :
    Pointers configs ring ring site (network.locals site) := by
  have held := (stays.safe.sites site).1
  rw [stays.world] at held
  exact held inside

theorem StaysSettled.successor (stays : StaysSettled configs ring network) (inside : site ∈ ring) :
    FirstFrom ring (chordIdAddPower site firstFinger) (network.locals site).successor.id :=
  ⟨(stays.pointers inside).successor.inside, fits_next_iff.mpr (stays.pointers inside).ahead⟩

/-- The predecessor of a node that has been told of the true one. -/
theorem StaysSettled.exact (stays : StaysSettled configs ring network) (inside : site ∈ ring)
    {closest : ChordPeer} (known : closest ∈ (network.locals site).predecessor) {id : NodeID}
    (before : TruePredecessor ring site id)
    (near : clockwise closest.id site ≤ clockwise id site) :
    (network.locals site).predecessor = some (descriptorOf configs id) := by
  obtain ⟨member, apart⟩ := (stays.pointers inside).predecessor closest known
  have far := before.2.2 closest.id member.inside apart
  have same : closest.id = id := position_injective
    (Circle.gap_right_cancel (position_lt _) (position_lt _) (Nat.le_antisymm near far))
  rw [Option.mem_def.mp known, (member_iff.mp member).2.1, same]

/-- What a lookup that succeeds has found. -/
theorem StaysSettled.find (stays : StaysSettled configs ring network)
    {thread : Dialogue.Thread Chord NodeID Message (Except Errno Message) ChordResult ChordTask}
    (inside : thread ∈ network.threads) {key : NodeID} (task : thread.task = .find key)
    {found : Option ChordPeer} (done : thread.phase = .finished (.ok found)) :
    ∃ id, found = some (descriptorOf configs id) ∧ FirstFrom ring key id := by
  have safe := stays.safe.threads thread inside
  rw [task, done, stays.world] at safe
  obtain ⟨peer, rfl, member, fits⟩ := safe
  exact ⟨peer.id, congrArg some (member_iff.mp member).2.1, member.inside, fits⟩

/-- A node handles the notification by its true predecessor, and the pointer is exact from then
on. -/
theorem StaysSettled.notified [NormalizingInet] (stays : StaysSettled configs ring network)
    (inside : site ∈ ring) {id : NodeID} (before : TruePredecessor ring site id)
    {action : ChordAction} {request : Message} (handles : network.Handles action site request)
    (kind : request.messageType = .chordNotify) (source : request.sourceNode = id)
    (permitted : SettledAction ring network action)
    (stepped : chordStep network action = some next) {late : ChordNetwork}
    (reached : Transition.Reaches chordStep (SettledAction ring) next late) :
    (late.locals site).predecessor = some (descriptorOf configs id) := by
  obtain ⟨still, -⟩ := stays.step permitted stepped
  obtain ⟨after, moved⟩ := still.run reached
  obtain ⟨-, payload⟩ := stays.safe.asked handles
  obtain ⟨peer, member, own, bytes⟩ := payload kind
  have told : peer.id = id := own.symm.trans source
  have written := handles.locals stepped
  rw [stays.world] at member
  rw [show (chordSystem.handle (network.locals site) request).1 =
      (chordNotify (network.locals site) peer).1 from congrArg Prod.fst
        (chordNetworkHandle_notify member.usable (network.locals site) kind own bytes)] at written
  obtain ⟨closest, known, near⟩ := (stays.pointers inside).notified member (told ▸ before.2.1)
  obtain ⟨last, held, nearer⟩ := (moved site inside).2 closest (written ▸ known)
  exact after.exact inside held before (told ▸ Nat.le_trans nearer near)

/-- A settled ring gives right answers. In every state that lookups, maintenance and failing calls
lead to, successors are correct, and so is what a lookup has found. From there on fingers that are
written are correct, predecessors only come closer, and a node that handles the notification by
its true predecessor points to it for ever. -/
theorem settled_ring_answers_right [NormalizingInet] {start : ChordNetwork}
    (settled : SettledRing configs ring start)
    (reached : Transition.Reaches chordStep (SettledAction ring) start network) :
    (∀ site ∈ ring, ∃ id, FirstFrom ring (chordIdAddPower site firstFinger) id ∧
      (network.locals site).successor = descriptorOf configs id) ∧
    (∀ thread ∈ network.threads, ∀ key found, thread.task = .find key →
      thread.phase = .finished (.ok found) →
      ∃ id, found = some (descriptorOf configs id) ∧ FirstFrom ring key id) ∧
    (∀ late, Transition.Reaches chordStep (SettledAction ring) network late → ∀ site ∈ ring,
      (∀ index, (late.locals site).fingers index = (network.locals site).fingers index ∨
        ∃ id, FirstFrom ring (chordIdAddPower site index) id ∧
          (late.locals site).fingers index = descriptorOf configs id) ∧
      ∀ old ∈ (network.locals site).predecessor, ∃ closest ∈ (late.locals site).predecessor,
        clockwise closest.id site ≤ clockwise old.id site) ∧
    ∀ site ∈ ring, ∀ id, TruePredecessor ring site id → ∀ action request notified,
      network.Handles action site request → request.messageType = .chordNotify →
      request.sourceNode = id → SettledAction ring network action →
      chordStep network action = some notified → ∀ late,
      Transition.Reaches chordStep (SettledAction ring) notified late →
      (late.locals site).predecessor = some (descriptorOf configs id) := by
  obtain ⟨stays, -⟩ := settled.stays.run reached
  refine ⟨?_, ?_, ?_, ?_⟩
  · intro site inside
    exact ⟨_, stays.successor inside, (member_iff.mp (stays.pointers inside).successor).2.1⟩
  · intro thread inside key found task done
    exact stays.find inside task done
  · intro late later site inside
    obtain ⟨after, moved⟩ := stays.run later
    refine ⟨fun index => ?_, (moved site inside).2⟩
    have member := (after.pointers inside).fingers index
    exact ((moved site inside).1 index).imp_right fun fits =>
      ⟨_, ⟨member.inside, fits⟩, (member_iff.mp member).2.1⟩
  · intro site inside id before action request notified handles kind source permitted stepped late
      later
    exact stays.notified inside before handles kind source permitted stepped later

end Settled

/-- The two nodes, before they have started a task. -/
def pairNetwork : ChordNetwork := ⟨pairRing, pairChord, [], []⟩

theorem pairNetwork_settled :
    letI := Inet.reference; letI := Sha256.reference
    SettledRing pairConfigs pairRing pairNetwork := by
  let inet := Inet.reference
  let sha := Sha256.reference
  exact {
    world := rfl
    idle := rfl
    quiet := rfl
    usable := pairRing_usable
    own := fun _ _ => rfl
    successor := fun _ _ => ⟨_, pairOwner_first _, rfl⟩
    fingers := fun _ _ _ => ⟨_, (pairOwner_first _).1, rfl⟩
    predecessor := fun _ _ _ known => by cases known
    available := fun _ _ => rfl }

/-- Actions with which the first thread proceeds. -/
def proceedsFirst : ChordAction → Bool
  | .proceed index => index == 0
  | _ => false

theorem eq_of_proceedsFirst {action : ChordAction} (first : proceedsFirst action = true) :
    action = .proceed 0 := by
  cases action with
  | proceed index => rw [eq_of_beq first]
  | start home task => cases first
  | fail index failure => cases first
  | deliver index => cases first

/-- The only thread of the network has ended, and its task has succeeded. -/
def ChordNetwork.succeeded (task : ChordTask) (network : ChordNetwork) : Bool :=
  match network.threads with
  | [⟨_, ended, .finished (.ok _)⟩] => ended = task
  | _ => false

theorem ChordNetwork.exists_of_succeeded {task : ChordTask} {network : ChordNetwork}
    (ended : network.succeeded task = true) :
    ∃ thread ∈ network.threads, thread.task = task ∧
      ∃ found, thread.phase = .finished (.ok found) := by
  unfold ChordNetwork.succeeded at ended
  split at ended
  · rename_i home task found threads
    rw [threads]
    exact ⟨_, List.mem_singleton_self _, of_decide_eq_true ended, found, rfl⟩
  · cases ended

/-- The first of the two nodes looks up the second one and finds it. -/
theorem settled_ring_answers_right_pair :
    letI := Inet.reference; letI := Sha256.reference; letI := Process.first
    ∃ network, Transition.Reaches chordStep (SettledAction pairRing) pairNetwork network ∧
      (∃ thread ∈ network.threads, thread.task = .find (neighbour 2).id ∧
        ∃ found, thread.phase = .finished (.ok found)) ∧
      ∀ thread ∈ network.threads, ∀ key found, thread.task = .find key →
        thread.phase = .finished (.ok found) →
        ∃ id, found = some (descriptorOf pairConfigs id) ∧ FirstFrom pairRing key id := by
  let inet := Inet.reference
  let sha := Sha256.reference
  let process := Process.first
  have lawful : NormalizingInet := Inet.reference_lawful.toNormalizingInet
  let begun : ChordNetwork := { pairNetwork with
    threads := [⟨(neighbour 1).id, .find (neighbour 2).id,
      .running (ChordTask.find (neighbour 2).id).program⟩] }
  have computed : (Transition.run (Transition.guarded chordStep fun _ action =>
      proceedsFirst action = true) begun (List.replicate 5 (.proceed 0))).any
        (ChordNetwork.succeeded (.find (neighbour 2).id)) = true := by
    decide +kernel
  obtain ⟨network, ran, checked⟩ := (Option.any_eq_true _ _).mp computed
  have started : SettledAction pairRing pairNetwork
      (.start (neighbour 1).id (.find (neighbour 2).id)) :=
    ⟨Or.inl rfl, fun _ same => by cases same⟩
  have reached : Transition.Reaches chordStep (SettledAction pairRing) pairNetwork network :=
    (Transition.Reaches.refl.tail _ started rfl).of_run (fun _ _ guard => by
      rw [eq_of_proceedsFirst guard]
      trivial) ran
  exact ⟨network, reached, ChordNetwork.exists_of_succeeded checked,
    (settled_ring_answers_right pairNetwork_settled reached).2.1⟩

end SuperPeerNet
