/-
This file compares what a super peer answers about registrations before and after a restart.

The ledger does not store the flag `local_registration`. A registration and a load derive it
from the role and the home of the node, while a merge derives it from the role alone when the
node is new and keeps it, whatever the new role and home, when the node is known. The answers
agree exactly when the flags of the living members are the derived ones, and they do as long
as no merge writes a record of the other kind.
-/

import SuperPeerNet.Gossip.Tombstones
import SuperPeerNet.Library.Transition

namespace SuperPeerNet

/-! ### The answer in terms of one record -/

theorem findMember_map (members : List MemberRecord) (id : NodeID) :
    findMember (members.map MemberRecord.member) id =
      (KeyedList.lookup MemberRecord.id members id).map MemberRecord.member := by
  rw [findMember, List.find?_map]
  rfl

/-- `superpeer_is_registered` reads the flag and the state of one record. -/
theorem isRegistered_eq (table : SuperPeer) (id : NodeID) :
    table.isRegistered id =
      (table.find id).any fun member => member.localRegistration && member.state.belowFailed := by
  rw [SuperPeer.isRegistered, superpeerIsRegistered, findMember_map, SuperPeer.find]
  cases KeyedList.lookup MemberRecord.id table.members id with
  | none => rfl
  | some member => rfl

/-- The flag that a registration and a load derive. -/
def MemberRecord.derivedRegistration (localId : NodeID) (member : MemberRecord) : Bool :=
  answersFor localId member.node member.home

section Registration

variable [Inet] [Sha256]

/-- The calls after which the flag of a record that they write is the derived one: a merge that
writes a record neither enters a Peer of the domain of this super peer, nor replaces a record by
one for which the derived flag is another. -/
def KeepsRegistration (table : SuperPeer) : MembershipCall → Prop
  | .merge incoming _ => nodeValidate incoming.node = .ok () →
    incoming.id ≠ table.localNode.id →
    (incoming.node.role = .peer → incoming.home = incoming.reporter) →
    (table.find incoming.id = none → table.members.length < maxMembers →
      ¬ (incoming.node.role = .peer ∧ incoming.home = table.localNode.id)) ∧
    ∀ member, table.find incoming.id = some member → newer incoming member →
      ¬ tombstoneRefuses member incoming → ¬ homedHere table member →
      incoming.derivedRegistration table.localNode.id =
        member.derivedRegistration table.localNode.id
  | _ => True

/-- The flags of all members but the local one are the derived ones. -/
def Derived (table : SuperPeer) : Prop :=
  ∀ member ∈ table.members, member.id ≠ table.localNode.id →
    member.localRegistration = member.derivedRegistration table.localNode.id

theorem Rewrites.derived {table : SuperPeer} {call : MembershipCall} {member written : MemberRecord}
    (rewrites : Rewrites table call member written) (keeps : KeepsRegistration table call)
    (found : table.find member.id = some member)
    (held : member.localRegistration = member.derivedRegistration table.localNode.id) :
    written.localRegistration = written.derivedRegistration table.localNode.id := by
  cases rewrites with
  | idle => exact held
  | @register node home incarnation now wall =>
    obtain ⟨_, fields⟩ := registered_eq table.localNode.id member node home incarnation now wall
    rw [fields]
    rfl
  | @heartbeat incoming now wall =>
    obtain ⟨_, _, fields⟩ := beaten_eq table.localNode.id member incoming now wall
    rw [fields]
    exact held
  | @merge incoming now _ valid same remote reported later admitted elsewhere =>
    rw [same] at found
    have written := (keeps valid remote reported).2 member found later admitted elsewhere
    exact held.trans written.symm
  | @probe id incarnation sequence now success =>
    obtain ⟨_, _, fields⟩ := probed_eq member incarnation sequence now success
    rw [fields]
    exact held
  | @tick now limits =>
    obtain ⟨_, _, _, fields⟩ := tickMember_eq table.localNode.id limits now member
    rw [fields]
    exact held
  | unregister => exact held

theorem Enters.derived {table : SuperPeer} {call : MembershipCall} {new : MemberRecord}
    (enters : Enters table call new) (keeps : KeepsRegistration table call)
    (absent : table.find new.id = none) (room : table.members.length < maxMembers) :
    new.localRegistration = new.derivedRegistration table.localNode.id := by
  cases enters with
  | @register node home incarnation now wall =>
    obtain ⟨_, fields⟩ := registered_eq table.localNode.id (setMember node now wall) node home
      incarnation now wall
    rw [fields]
    rfl
  | @merge incoming now valid remote reported =>
    have elsewhere := (keeps valid remote reported).1 absent room
    refine decide_eq_decide.mpr ⟨Or.inl, ?_⟩
    rintro (superPeer | here)
    · exact superPeer
    · cases role : incoming.node.role with
      | peer => exact absurd ⟨role, here⟩ elsewhere
      | superPeer => rfl

/-- A call that keeps registrations keeps all flags derived. -/
theorem Derived.call {table : SuperPeer} (wellFormed : WellFormed table) (derived : Derived table)
    {call : MembershipCall} (keeps : KeepsRegistration table call) : Derived (table.call call) := by
  have changed := changed_call table call
  obtain ⟨kept, pairs, outcome⟩ := changed.members
  have distinct := KeyedList.distinct_iff_nodup.mpr wellFormed.distinct
  have keptDerived : ∀ written ∈ kept, written.id ≠ table.localNode.id →
      written.localRegistration = written.derivedRegistration table.localNode.id := by
    intro written inside remote
    obtain ⟨member, among, rewrites⟩ := KeyedList.exists_related pairs inside
    rw [rewrites.id_eq] at remote
    exact rewrites.derived keeps ((KeyedList.lookup_eq_some_iff distinct).mpr ⟨among, rfl⟩)
      (derived member among remote)
  intro member inside remote
  rw [changed.localNode] at remote ⊢
  rcases outcome with same | ⟨new, same, enters, absent, room⟩
  · rw [same] at inside
    exact keptDerived member inside remote
  · rw [same, List.mem_append, List.mem_singleton] at inside
    rcases inside with old | rfl
    · exact keptDerived member old remote
    · exact enters.derived keeps absent room

/-- The call as a step of a transition system. -/
def SuperPeer.callStep (table : SuperPeer) (call : MembershipCall) : Option SuperPeer :=
  some (table.call call)

theorem WellFormed.reached {allowed : SuperPeer → MembershipCall → Prop} {created table : SuperPeer}
    (wellFormed : WellFormed created)
    (reached : Transition.Reaches SuperPeer.callStep allowed created table) :
    WellFormed table ∧ table.localNode = created.localNode := by
  refine @Transition.Reaches.invariant _ _ SuperPeer.callStep _ _
    (fun table => WellFormed table ∧ table.localNode = created.localNode) ⟨wellFormed, rfl⟩ ?_ _
    reached
  rintro table call next ⟨held, same⟩ _ stepped
  cases stepped
  have changed := changed_call table call
  exact ⟨held.changed changed, changed.localNode.trans same⟩

/-! ### Before and after a restart -/

variable [Process]

/-- The answers agree exactly when the living members have the derived flag. -/
theorem isRegistered_restarted_iff [LawfulInet] {table : SuperPeer} (wellFormed : WellFormed table)
    (now wall later : Int) :
    (∀ id ≠ table.localNode.id,
      (table.restarted now wall later).isRegistered id = table.isRegistered id) ↔
    ∀ member ∈ table.members, member.id ≠ table.localNode.id → member.state.belowFailed →
      member.localRegistration = member.derivedRegistration table.localNode.id := by
  have distinct := KeyedList.distinct_iff_nodup.mpr wellFormed.distinct
  have answer : ∀ id ≠ table.localNode.id, (table.restarted now wall later).isRegistered id =
      (table.find id).any fun member =>
        member.derivedRegistration table.localNode.id && member.state.belowFailed := by
    intro id remote
    rw [isRegistered_eq, wellFormed.find_restarted now wall later remote]
    cases table.find id with
    | none => rfl
    | some member => rfl
  constructor
  · intro same member inside remote alive
    have found : table.find member.id = some member :=
      (KeyedList.lookup_eq_some_iff distinct).mpr ⟨inside, rfl⟩
    have equal := same member.id remote
    rw [answer member.id remote, isRegistered_eq, found] at equal
    simpa [alive] using equal.symm
  · intro derived id remote
    rw [answer id remote, isRegistered_eq]
    cases found : table.find id with
    | none => rfl
    | some member =>
      have inside := KeyedList.lookup_mem found
      rw [show id = member.id from (KeyedList.lookup_key found).symm] at remote
      cases alive : member.state.belowFailed with
      | false => simp [alive]
      | true => simp [derived member inside remote alive]

theorem Derived.reached {config : NodeConfig} {now wall : Int} {created table : SuperPeer}
    (creation : superpeerCreate config now wall = .ok created)
    (reached : Transition.Reaches SuperPeer.callStep KeepsRegistration created table) :
    Derived table := by
  have alone : Derived created := by
    unfold superpeerCreate at creation
    split at creation
    · cases creation
    · cases creation
      intro member inside remote
      rw [List.mem_singleton.mp inside] at remote
      exact absurd rfl remote
  have kept : WellFormed table ∧ Derived table := by
    refine @Transition.Reaches.invariant _ _ SuperPeer.callStep _ _
      (fun table => WellFormed table ∧ Derived table) ⟨WellFormed.created creation, alone⟩ ?_ _
      reached
    rintro table call next ⟨held, flags⟩ keeps stepped
    cases stepped
    exact ⟨held.changed (changed_call table call), flags.call held keeps⟩
  exact kept.2

/-- Every table that calls can produce is saved and loaded again. The super peer then gives its
old answers about other nodes exactly when the flags of the living members are the derived ones,
and it gives them after every run whose merges write no record of the other kind. -/
theorem registration_survives_restart [LawfulInet] {config : NodeConfig} {start startWall : Int}
    {created : SuperPeer} (creation : superpeerCreate config start startWall = .ok created) :
    (∀ table, Transition.Reaches SuperPeer.callStep (fun _ _ => True) created table →
      ∀ now wall later, ∃ file after, membershipSave table = .ok file ∧
        membershipLoad (SuperPeer.fresh created.localNode now wall) (some file) later =
          (after, .ok ()) ∧
        ((∀ id ≠ created.localNode.id, after.isRegistered id = table.isRegistered id) ↔
          ∀ member ∈ table.members, member.id ≠ created.localNode.id →
            member.state.belowFailed →
            member.localRegistration = member.derivedRegistration created.localNode.id)) ∧
    ∀ table, Transition.Reaches SuperPeer.callStep KeepsRegistration created table →
      ∀ now wall later, ∃ file after, membershipSave table = .ok file ∧
        membershipLoad (SuperPeer.fresh created.localNode now wall) (some file) later =
          (after, .ok ()) ∧
        ∀ id ≠ created.localNode.id, after.isRegistered id = table.isRegistered id := by
  have initial := WellFormed.created creation
  constructor
  · intro table reached now wall later
    obtain ⟨wellFormed, same⟩ := initial.reached reached
    obtain ⟨saved, loaded⟩ := wellFormed.restartable.restarts now wall later
    rw [← same]
    exact ⟨_, _, saved, loaded, isRegistered_restarted_iff wellFormed now wall later⟩
  · intro table reached now wall later
    obtain ⟨wellFormed, same⟩ := initial.reached reached
    obtain ⟨saved, loaded⟩ := wellFormed.restartable.restarts now wall later
    have derived := Derived.reached creation reached
    rw [← same]
    refine ⟨_, _, saved, loaded, (isRegistered_restarted_iff wellFormed now wall later).mpr ?_⟩
    intro member inside remote _
    exact derived member inside remote

/-- A restart is a save and a load. -/
theorem after_restart_of_load {table after : SuperPeer} {localNode : Node} {now wall later : Int}
    {file : List UInt8} (saved : membershipSave table = .ok file)
    (same : table.localNode = localNode)
    (loads : membershipLoad (SuperPeer.fresh localNode now wall) (some file) later =
      (after, .ok ())) : table.after (.restart now wall later) = after := by
  rw [SuperPeer.after, saved, same]
  simp only [loads]

end Registration

/-- A neighbour that registers is known by the same answer after a restart. -/
theorem registration_survives_restart_neighbour :
    letI := Inet.reference; letI := Sha256.reference; letI := Process.first
    ∃ file after, membershipSave ((SuperPeer.fresh (neighbour 1) 0 0).call
        (.register (neighbour 2) (neighbour 2).id 1 0 0)) = .ok file ∧
      membershipLoad (SuperPeer.fresh (neighbour 1) 0 0) (some file) 0 = (after, .ok ()) ∧
      ∀ id ≠ (neighbour 1).id, after.isRegistered id =
        ((SuperPeer.fresh (neighbour 1) 0 0).call
          (.register (neighbour 2) (neighbour 2).id 1 0 0)).isRegistered id := by
  let inet := Inet.reference
  let sha := Sha256.reference
  let process := Process.first
  have lawful : LawfulInet := Inet.reference_lawful
  have creation : superpeerCreate (neighbour 1).config 0 0 =
      .ok (SuperPeer.fresh (neighbour 1) 0 0) := by
    decide +kernel
  have reached : Transition.Reaches SuperPeer.callStep KeepsRegistration
      (SuperPeer.fresh (neighbour 1) 0 0) ((SuperPeer.fresh (neighbour 1) 0 0).call
        (.register (neighbour 2) (neighbour 2).id 1 0 0)) :=
    .tail .refl (.register (neighbour 2) (neighbour 2).id 1 0 0) trivial
      (by rw [SuperPeer.callStep])
  exact (registration_survives_restart creation).2 _ reached 0 0 0

/-- A rumour that a Peer belongs to the domain of the super peer at the first port. -/
def claimedPeer : MemberRecord where
  node := { neighbour 2 with role := .peer }
  state := .alive
  lastSeen := 0
  home := (neighbour 1).id
  reporter := (neighbour 1).id
  incarnation := 1
  sequence := 1
  version := 1
  observedMs := 0
  probeMs := 0
  failedProbes := 0
  localRegistration := false

/-- A Peer that is known from a rumour is not registered before a restart, and it is registered
afterwards. -/
theorem registration_changes_at_restart :
    letI := Inet.reference; letI := Sha256.reference; letI := Process.first
    ¬ ∀ (config : NodeConfig) (start startWall : Int) (created table : SuperPeer),
      superpeerCreate config start startWall = .ok created →
      Transition.Reaches SuperPeer.callStep (fun _ _ => True) created table →
      ∀ now wall later, ∃ file after, membershipSave table = .ok file ∧
        membershipLoad (SuperPeer.fresh created.localNode now wall) (some file) later =
          (after, .ok ()) ∧
        ∀ id ≠ created.localNode.id, after.isRegistered id = table.isRegistered id := by
  let inet := Inet.reference
  let sha := Sha256.reference
  let process := Process.first
  obtain ⟨creation, apart, before, restarted⟩ :
      superpeerCreate (neighbour 1).config 0 0 = .ok (SuperPeer.fresh (neighbour 1) 0 0) ∧
      (neighbour 2).id ≠ (neighbour 1).id ∧
      ((SuperPeer.fresh (neighbour 1) 0 0).call (.merge claimedPeer 0)).isRegistered
        (neighbour 2).id = false ∧
      (((SuperPeer.fresh (neighbour 1) 0 0).call (.merge claimedPeer 0)).after
        (.restart 0 0 0)).isRegistered (neighbour 2).id = true := by
    decide +kernel
  intro survives
  have merged : Transition.Reaches SuperPeer.callStep (fun _ _ => True)
      (SuperPeer.fresh (neighbour 1) 0 0)
      ((SuperPeer.fresh (neighbour 1) 0 0).call (.merge claimedPeer 0)) :=
    .tail .refl (.merge claimedPeer 0) trivial (by rw [SuperPeer.callStep])
  obtain ⟨file, after, saved, loaded, same⟩ := survives (neighbour 1).config 0 0 _ _ creation merged
    0 0 0
  have now : ((SuperPeer.fresh (neighbour 1) 0 0).call (.merge claimedPeer 0)).after
      (.restart 0 0 0) = after := by
    exact after_restart_of_load saved (changed_call _ _).localNode loaded
  have equal := same (neighbour 2).id apart
  rw [← now, restarted, before] at equal
  cases equal

end SuperPeerNet
