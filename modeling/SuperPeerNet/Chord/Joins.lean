/-
This file is about a ring that grows: it begins as one node, and others join it through nodes that
have joined before, while those maintain their pointers. Each node does one thing at a time.

The first node is the anchor. No successor passes it by, so following successors comes closer to
it with each step: there is one cycle, it goes through the first node and once round the circle,
and every node leads to it. A node that is just joining may miss nodes that have joined at the
same time, and stays outside the cycle until maintenance finds them.
-/

import SuperPeerNet.Chord.Settled

namespace SuperPeerNet

open Dialogue (SafeNetwork)

section Joins

variable [Inet] [Sha256] [Process]

/-! ### Rings with joins -/

omit [Process] in
/-- One node that makes a ring of its own, and nodes that may join it: all of them have just
called `chord_create`. -/
structure LoneNode (nodes : NodeID → Node) (population : Set NodeID) (root : NodeID)
    (network : ChordNetwork) : Prop where
  world : network.world = {root}
  rooted : root ∈ population
  idle : network.threads = []
  quiet : network.delayed = []
  identified : ∀ id ∈ population, (nodes id).id = id
  usable : ∀ id ∈ population, UsableConfig (nodes id).config id
  created : ∀ id ∈ population, network.locals id = chordCreate (nodes id)

omit [Inet] [Sha256] [Process] in
/-- New nodes join through nodes of the ring, nodes of the ring look up and maintain, each one
task at a time. -/
def JoinAction (population : Set NodeID) (network : ChordNetwork) : ChordAction → Prop
  | .start home task => (∀ thread ∈ network.threads, thread.phase.Active → thread.home ≠ home) ∧
    match task with
    | .join bootstrap => home ∈ population ∧ home ∉ network.world ∧ bootstrap ∈ network.world
    | _ => home ∈ network.world
  | .fail _ answer => CallFails answer
  | _ => True

/-- What a ring keeps while nodes join it. -/
structure StaysRooted (configs : NodeID → NodeConfig) (population : Set NodeID) (root : NodeID)
    (network : ChordNetwork) : Prop where
  safe : SafeNetwork chordSystem (chordLogic configs {root} population) CallFails network
  rooted : root ∈ network.world
  inside : network.world ⊆ population
  exclusive : network.Exclusive

variable {nodes : NodeID → Node} {configs : NodeID → NodeConfig} {population : Set NodeID}
  {root : NodeID} {network next : ChordNetwork}

theorem LoneNode.stays (lone : LoneNode nodes population root network) :
    StaysRooted (fun id => (nodes id).config) population root network where
  rooted := by
    rw [lone.world]
    rfl
  inside := by
    rw [lone.world]
    exact Set.singleton_subset_iff.mpr lone.rooted
  exclusive first _ one _ found := by
    rw [lone.idle] at found
    cases found
  safe := by
    have local_ : ∀ id ∈ population,
        (network.locals id).localPeer = descriptorOf (fun id => (nodes id).config) id := by
      intro id inside
      rw [lone.created id inside, chordCreate, lone.identified id inside]
      rfl
    refine ⟨fun site => ⟨fun inside => ?_, fun inside _ => ?_⟩, ?_, ?_⟩
    · rw [lone.world] at inside ⊢
      cases inside
      have own := local_ root lone.rooted
      have created := lone.created root lone.rooted
      have member : Member (fun id => (nodes id).config) {root} (network.locals root).localPeer := by
        rw [own]
        exact ⟨rfl, rfl, lone.usable root lone.rooted⟩
      refine ⟨by rw [own]; rfl, member, ?_, ?_, ?_, ?_, ?_⟩
      · rw [created] at member ⊢
        exact member
      · intro anchor only
        cases only
        rw [around_self]
        exact around_le _ _
      · intro index
        rw [created] at member ⊢
        exact member
      · rw [created]
        exact nofun
      · rw [created]
        rfl
    · have own := local_ site inside
      have created := lone.created site inside
      refine ⟨by rw [own]; rfl, by rw [own]; rfl, ?_, ?_, ?_, ?_⟩
      · rw [own]
        exact lone.usable site inside
      · intro index
        rw [created]
        rfl
      · rw [created]
        rfl
      · rw [created]
        rfl
    · rw [lone.idle]
      exact nofun
    · rw [lone.quiet]
      exact nofun

/-! ### Steps and runs -/

/-- The ring grows by a node at which nothing else is under way. -/
theorem chordLogic_grows {anchors ring : Set NodeID} {site : NodeID} (inside : site ∈ population)
    {others : List (Dialogue.Thread Chord NodeID Message (Except Errno Message) ChordResult
      ChordTask)}
    (alone : ∀ thread ∈ others, thread.phase.Active → thread.home ≠ site) :
    Dialogue.Grows chordSystem (chordLogic configs anchors population) CallFails site ring
      (insert site ring) others where
  grown := Set.subset_insert site ring
  sites other chord apart held := by
    refine ⟨fun joined => ?_, fun present absent => held.2 present fun before =>
      absent (Set.mem_insert_of_mem site before)⟩
    exact (held.1 ((Set.mem_insert_iff.mp joined).resolve_left apart)).mono
      (Set.subset_insert site ring)
  threads thread listed safe := by
    refine safe.mono (Set.subset_insert site ring) (fun active live => ?_) fun result returned => ?_
    · obtain ⟨anchored, bounded, still⟩ := live
      refine ⟨anchored.trans (Set.subset_insert site ring), Set.insert_subset inside bounded, ?_⟩
      have apart := alone thread listed active
      cases task : thread.task with
      | join bootstrap =>
        rw [task] at still
        exact ⟨still.1, fun joined => still.2.1 ((Set.mem_insert_iff.mp joined).resolve_left apart),
          Set.mem_insert_of_mem site still.2.2⟩
      | find key =>
        rw [task] at still
        exact Set.mem_insert_of_mem site still
      | maintain index =>
        rw [task] at still
        exact Set.mem_insert_of_mem site still
    · cases task : thread.task with
      | join bootstrap => trivial
      | maintain index => trivial
      | find key =>
        cases result with
        | error code => trivial
        | ok found =>
          rw [task] at returned
          obtain ⟨peer, named, member, fits⟩ := returned
          exact ⟨peer, named, member.mono (Set.subset_insert site ring), fits⟩

/-- A step of a ring that nodes join. -/
theorem StaysRooted.step [NormalizingInet] (stays : StaysRooted configs population root network)
    {action : ChordAction} (permitted : JoinAction population network action)
    (stepped : chordStep network action = some next) :
    StaysRooted configs population root next := by
  have anchored : {root} ⊆ network.world := Set.singleton_subset_iff.mpr stays.rooted
  -- the ring grows by at most the node whose task ends, which is in the population
  have extends_ : ∀ thread ∈ network.threads, thread.phase.Active → ∀ result,
      chordExtend network.world thread.home thread.task result = network.world ∨
      chordExtend network.world thread.home thread.task result =
        insert thread.home network.world ∧ thread.home ∈ population := by
    intro thread listed active result
    have safe := stays.safe.threads thread listed
    have live : (chordLogic configs {root} population).live network.world thread.home
        thread.task := by
      cases phase : thread.phase with
      | running rest =>
        rw [phase] at safe
        exact safe.1
      | answered answer rest =>
        rw [phase] at safe
        exact safe.1
      | finished result =>
        rw [phase] at active
        cases active
    have inPopulation := live_population live
    cases task : thread.task with
    | find key => exact Or.inl rfl
    | maintain index => exact Or.inl rfl
    | join bootstrap =>
      cases result with
      | error code => exact Or.inl rfl
      | ok found => exact Or.inr ⟨rfl, inPopulation⟩
  have allowed : Dialogue.Allowed chordSystem (chordLogic configs {root} population) CallFails
      network action := by
    cases action with
    | start home task =>
      refine ⟨⟨anchored, stays.inside, ?_⟩, safe_program task⟩
      cases task with
      | join bootstrap => exact permitted.2
      | find key => exact permitted.2
      | maintain index => exact permitted.2
    | proceed index =>
      intro thread final found running
      have active : thread.phase.Active := by
        rw [running]
        trivial
      have listed := List.mem_of_getElem? found
      rcases extends_ thread listed active (final (network.locals thread.home)).2 with
        same | ⟨grown, inPopulation⟩
      · rw [show chordSystem.extend network.world thread.home thread.task
          (final (network.locals thread.home)).2 = network.world from same]
        exact Dialogue.Grows.refl _ _ _
      · rw [show chordSystem.extend network.world thread.home thread.task
          (final (network.locals thread.home)).2 = insert thread.home network.world from grown]
        refine chordLogic_grows inPopulation fun other among otherActive same => ?_
        obtain ⟨place, apart, isOther⟩ := List.mem_eraseIdx_iff_getElem?.mp among
        exact apart (stays.exclusive place index other thread isOther found otherActive active same)
    | fail index failure => exact permitted
    | deliver index => trivial
  have grows : network.world ⊆ next.world ∧ next.world ⊆ population := by
    rcases Dialogue.Network.step_cases stepped with
      ⟨home, task, -, same, -⟩ | ⟨index, thread, phase, found, active, -, same | ⟨final, -, grown⟩⟩ |
      ⟨same, -⟩
    · rw [same]
      exact ⟨le_rfl, stays.inside⟩
    · rw [same]
      exact ⟨le_rfl, stays.inside⟩
    · rw [grown]
      rcases extends_ thread (List.mem_of_getElem? found) active
        (final (network.locals thread.home)).2 with kept | ⟨larger, inPopulation⟩
      · rw [show chordSystem.extend network.world thread.home thread.task
          (final (network.locals thread.home)).2 = network.world from kept]
        exact ⟨le_rfl, stays.inside⟩
      · rw [show chordSystem.extend network.world thread.home thread.task
          (final (network.locals thread.home)).2 = insert thread.home network.world from larger]
        exact ⟨Set.subset_insert _ _, Set.insert_subset inPopulation stays.inside⟩
    · rw [same]
      exact ⟨le_rfl, stays.inside⟩
  have exclusive : next.Exclusive := by
    refine stays.exclusive.step (fun home task started => ?_) stepped
    subst started
    exact permitted.1
  exact ⟨(stays.safe.step chordSystem_sound allowed stepped).1, grows.1 stays.rooted, grows.2,
    exclusive⟩

theorem StaysRooted.run [NormalizingInet] (stays : StaysRooted configs population root network)
    {late : ChordNetwork}
    (reached : Transition.Reaches chordStep (JoinAction population) network late) :
    StaysRooted configs population root late :=
  reached.invariant stays fun _ _ _ still permitted stepped => still.step permitted stepped

/-! ### The ring -/

theorem StaysRooted.pointers (stays : StaysRooted configs population root network) {site : NodeID}
    (inside : site ∈ network.world) :
    Pointers configs {root} network.world site (network.locals site) :=
  (stays.safe.sites site).1 inside

/-- The successors of the nodes of a ring lead to its first node. -/
theorem StaysRooted.leads (stays : StaysRooted configs population root network) :
    Circle.Leads position (fun id => (network.locals id).successor.id) root ringSize
      (· ∈ network.world) where
  bounded id _ := position_lt id
  injective _ _ _ _ same := position_injective same
  closed _ inside := (stays.pointers inside).successor.inside
  rooted := stays.rooted
  moves site inside apart same := by
    have ahead := (stays.pointers inside).ahead root rfl
    rw [show (network.locals site).successor.id = site from same, around_self,
      around_of_ne apart] at ahead
    exact absurd ahead (Nat.not_le_of_lt (Circle.gap_lt (position_lt _) (position_lt _)))
  within site inside apart := by
    have ahead := (stays.pointers inside).ahead root rfl
    rw [around_of_ne apart] at ahead
    exact Nat.le_trans (Circle.gap_le_arc (position_lt _) (position_lt _)) ahead

/-- However joins and maintenance interleave, the successors of the nodes that have joined make
one cycle, which goes once round the circle in order, and every such node leads to it. -/
theorem joins_keep_one_ring [NormalizingInet] {start : ChordNetwork}
    (lone : LoneNode nodes population root start)
    (reached : Transition.Reaches chordStep (JoinAction population) start network) :
    (∀ id ∈ network.world, (network.locals id).successor.id ∈ network.world) ∧
    ∃ first rest, Circle.OneCycle position (fun id => (network.locals id).successor.id) ringSize
      (· ∈ network.world) first rest := by
  have stays := lone.stays.run reached
  exact ⟨fun _ inside => (stays.pointers inside).successor.inside, root, stays.leads.oneCycle⟩

end Joins

/-- The first of two nodes has a ring of its own, and the second one has not joined it. -/
def loneNetwork : ChordNetwork where
  world := {(neighbour 1).id}
  locals id := chordCreate ⟨id, pairConfigs id, 1, .superPeer⟩
  threads := []
  delayed := []

/-- The second node joins the first one. -/
theorem joins_keep_one_ring_pair :
    letI := Inet.reference; letI := Sha256.reference; letI := Process.first
    ∃ network, Transition.Reaches chordStep (JoinAction pairRing) loneNetwork network ∧
      (∃ thread ∈ network.threads, thread.task = .join (neighbour 1).id ∧
        ∃ found, thread.phase = .finished (.ok found)) ∧
      ∃ first rest, Circle.OneCycle position (fun id => (network.locals id).successor.id) ringSize
        (· ∈ network.world) first rest := by
  let inet := Inet.reference
  let sha := Sha256.reference
  let process := Process.first
  have lawful : NormalizingInet := Inet.reference_lawful.toNormalizingInet
  let begun : ChordNetwork := { loneNetwork with
    threads := [⟨(neighbour 2).id, .join (neighbour 1).id,
      .running (ChordTask.join (neighbour 1).id).program⟩] }
  obtain ⟨apart, computed⟩ : (neighbour 2).id ≠ (neighbour 1).id ∧
      (Transition.run (Transition.guarded chordStep fun _ action =>
        proceedsFirst action = true) begun (List.replicate 8 (.proceed 0))).any
          (ChordNetwork.succeeded (.join (neighbour 1).id)) = true := by
    decide +kernel
  obtain ⟨network, ran, checked⟩ := (Option.any_eq_true _ _).mp computed
  have started : JoinAction pairRing loneNetwork
      (.start (neighbour 2).id (.join (neighbour 1).id)) :=
    ⟨fun _ inside => absurd inside List.not_mem_nil, Or.inr rfl, apart, rfl⟩
  have reached : Transition.Reaches chordStep (JoinAction pairRing) loneNetwork network :=
    (Transition.Reaches.refl.tail _ started rfl).of_run (fun _ _ guard => by
      rw [eq_of_proceedsFirst guard]
      trivial) ran
  have lone : LoneNode (fun id => ⟨id, pairConfigs id, 1, .superPeer⟩) pairRing (neighbour 1).id
      loneNetwork := {
    world := rfl
    rooted := Or.inl rfl
    idle := rfl
    quiet := rfl
    identified := fun _ _ => rfl
    usable := pairRing_usable
    created := fun _ _ => rfl }
  exact ⟨network, reached, ChordNetwork.exists_of_succeeded checked,
    (joins_keep_one_ring lone reached).2⟩

end SuperPeerNet
