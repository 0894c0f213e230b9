/-
This file models the operations of `membership.c` that write the table of members:
registration, heartbeats, probes, the clock of the failure detector and the logical
departure of a node. The merge of rumours stands in a file of its own.

Every operation is first described on one record. A call changes at most the records that
it concerns, in place, and it appends at most one record, so the rules at the end of the
file say what a table holds after any call in terms of what it held before.
-/

import SuperPeerNet.Gossip.Merge

namespace SuperPeerNet

/-! ### Changes of one record -/

/-- The line that `transition` prints. -/
structure TransitionLine where
  id : NodeID
  before : SuperPeerMemberState
  after : SuperPeerMemberState
  role : NodeRole
  incarnation : UInt64
  deriving DecidableEq

/-- `transition`, which makes the local node the reporter of the new state. -/
def transition (localId : NodeID) (member : MemberRecord) (state : SuperPeerMemberState) :
    MemberRecord :=
  if member.state = state then member
  else { member with state := state, reporter := localId, version := member.version + 1 }

/-- What `transition` prints. -/
def transitionLine (member : MemberRecord) (state : SuperPeerMemberState) : List TransitionLine :=
  if member.state = state then []
  else [⟨member.id, member.state, state, member.node.role, member.incarnation⟩]

/-- `set_member`, at the given readings of the monotonic and of the wall clock. -/
def setMember (node : Node) (now wall : Int) : MemberRecord where
  node := node
  state := .alive
  lastSeen := wall
  home := Octets.fill nodeIdSize 0
  reporter := Octets.fill nodeIdSize 0
  incarnation := 0
  sequence := 0
  version := 0
  observedMs := now
  probeMs := 0
  failedProbes := 0
  localRegistration := true

/-- The staleness test of `membership_register`. -/
def registrationStale (member : MemberRecord) (incarnation : UInt64) : Prop :=
  incarnation < member.incarnation ∨
    (member.state.belowFailed = false ∧ incarnation ≤ member.incarnation)

instance (member : MemberRecord) (incarnation : UInt64) :
    Decidable (registrationStale member incarnation) := inferInstanceAs (Decidable (_ ∨ _))

/-- Members that the local node answers for: the super peers and the Peers of its own domain. -/
def answersFor (localId : NodeID) (node : Node) (home : NodeID) : Prop :=
  node.role = .superPeer ∨ home = localId

instance (localId : NodeID) (node : Node) (home : NodeID) :
    Decidable (answersFor localId node home) := inferInstanceAs (Decidable (_ ∨ _))

/-- What `membership_register` writes. A new incarnation starts a new count of heartbeats. -/
def registered (localId : NodeID) (member : MemberRecord) (node : Node) (home : NodeID)
    (incarnation : UInt64) (now wall : Int) : MemberRecord :=
  let sequence := if incarnation = member.incarnation then member.sequence else 0
  let written := { member with
    node := node, home := home, incarnation := incarnation, sequence := sequence }
  { transition localId written .alive with
    reporter := localId
    observedMs := now
    lastSeen := wall
    failedProbes := 0
    localRegistration := answersFor localId node home }

/-- The staleness test of `membership_heartbeat`. -/
def heartbeatStale (member incoming : MemberRecord) : Prop :=
  incoming.node.role ≠ member.node.role ∨ incoming.home ≠ member.home ∨
    incoming.incarnation < member.incarnation ∨
    (incoming.incarnation = member.incarnation ∧
      (incoming.sequence ≤ member.sequence ∨ member.state.belowFailed = false))

instance (member incoming : MemberRecord) : Decidable (heartbeatStale member incoming) :=
  inferInstanceAs (Decidable (_ ∨ _))

/-- What `membership_heartbeat` writes. -/
def beaten (localId : NodeID) (member incoming : MemberRecord) (now wall : Int) : MemberRecord :=
  let written := { member with
    incarnation := incoming.incarnation, sequence := incoming.sequence }
  { transition localId written .alive with
    observedMs := now
    lastSeen := wall
    failedProbes := 0 }

/-- The probes that `membership_probe` counts: they are about the epoch of the record, made
during a suspicion, and a second apart. -/
def probeCounts (member : MemberRecord) (incarnation sequence : UInt64) (now : Int) : Prop :=
  member.incarnation = incarnation ∧ member.sequence = sequence ∧ member.state = .suspect ∧
    now - member.probeMs ≥ 1000

instance (member : MemberRecord) (incarnation sequence : UInt64) (now : Int) :
    Decidable (probeCounts member incarnation sequence now) := inferInstanceAs (Decidable (_ ∧ _))

/-- What `membership_probe` writes. -/
def probed (member : MemberRecord) (incarnation sequence : UInt64) (now : Int) (success : Bool) :
    MemberRecord :=
  if probeCounts member incarnation sequence now then
    { member with
      probeMs := now
      failedProbes :=
        if success then 0
        else if member.failedProbes < 2 then member.failedProbes + 1 else member.failedProbes }
  else member

/-- The three limits of `membership_tick`, in milliseconds. -/
structure Limits where
  suspectMs : Nat
  failedMs : Nat
  removedMs : Nat
  deriving DecidableEq

/-- The order that `membership_tick` demands of its limits. -/
def Limits.ordered (limits : Limits) : Prop :=
  limits.suspectMs ≠ 0 ∧ limits.suspectMs < limits.failedMs ∧ limits.failedMs < limits.removedMs

instance (limits : Limits) : Decidable limits.ordered := inferInstanceAs (Decidable (_ ∧ _))

/-- One conditional transition of the detector. -/
def stepIf (due : Bool) (localId : NodeID) (member : MemberRecord) (state : SuperPeerMemberState) :
    MemberRecord × List TransitionLine :=
  if due then (transition localId member state, transitionLine member state) else (member, [])

/-- The body of the loop of `membership_tick`, with the lines that it prints. -/
def tickMember (localId : NodeID) (limits : Limits) (now : Int) (member : MemberRecord) :
    MemberRecord × List TransitionLine :=
  if member.id = localId ∨ ¬ member.localRegistration then (member, [])
  else
    let age := now - member.observedMs
    let suspected := stepIf (member.state = .alive ∧ age ≥ limits.suspectMs) localId member .suspect
    let failed := stepIf (suspected.1.state = .suspect ∧ age ≥ limits.failedMs ∧
      suspected.1.failedProbes ≥ 2) localId suspected.1 .failed
    let removed := stepIf (failed.1.state = .failed ∧ age ≥ limits.removedMs) localId failed.1
      .removed
    (removed.1, suspected.2 ++ failed.2 ++ removed.2)

/-- What `superpeer_unregister_node` writes. -/
def unregistered (localId : NodeID) (member : MemberRecord) : MemberRecord :=
  { member with state := .removed, reporter := localId, version := member.version + 1 }

/-! ### The operations on the table -/

/-- The two successes of `SuperPeerRegistrationResult`. -/
inductive SuperPeerRegistration where
  | updated | added
  deriving DecidableEq, Repr

section Operations

variable [Inet] [Sha256]

/-- A table that holds its local node alone. -/
def SuperPeer.fresh (localNode : Node) (now wall : Int) : SuperPeer :=
  ⟨localNode, [setMember localNode now wall]⟩

/-- `superpeer_create`: the local node is the first member, as a super peer. -/
def superpeerCreate [Process] (config : NodeConfig) (now wall : Int) : Except Errno SuperPeer :=
  match nodeInit config with
  | .error code => .error code
  | .ok node => .ok (SuperPeer.fresh { node with role := .superPeer } now wall)

/-- `membership_register`. -/
def membershipRegister (table : SuperPeer) (node : Node) (home : NodeID) (incarnation : UInt64)
    (now wall : Int) : SuperPeer × Except Errno SuperPeerRegistration :=
  match nodeValidate node with
  | .error _ => (table, .error .einval)
  | .ok _ => match table.find node.id with
    | some member =>
      if registrationStale member incarnation then (table, .error .estale)
      else
        (table.overwrite node.id
          (registered table.localNode.id member node home incarnation now wall), .ok .updated)
    | none =>
      if table.members.length ≥ maxMembers then (table, .error .enospc)
      else
        ({ table with members := table.members ++ [registered table.localNode.id
            (setMember node now wall) node home incarnation now wall] }, .ok .added)

/-- `membership_heartbeat`. -/
def membershipHeartbeat (table : SuperPeer) (incoming : MemberRecord) (now wall : Int) :
    SuperPeer × Except Errno Unit :=
  match nodeValidate incoming.node with
  | .error _ => (table, .error .einval)
  | .ok _ =>
    if incoming.state ≠ .alive ∨ incoming.incarnation = 0 then (table, .error .einval)
    else match table.find incoming.id with
      | none => (table, .error .enoent)
      | some member =>
        if heartbeatStale member incoming then (table, .error .estale)
        else
          (table.overwrite incoming.id (beaten table.localNode.id member incoming now wall), .ok ())

/-- `membership_probe`. -/
def membershipProbe (table : SuperPeer) (id : NodeID) (incarnation sequence : UInt64) (now : Int)
    (success : Bool) : SuperPeer :=
  match table.find id with
  | none => table
  | some member => table.overwrite id (probed member incarnation sequence now success)

/-- `membership_tick`, with the lines that it prints. -/
def membershipTick (table : SuperPeer) (now : Int) (limits : Limits) :
    SuperPeer × Except Errno (List TransitionLine) :=
  if limits.ordered then
    ({ table with members := table.members.map fun member =>
        (tickMember table.localNode.id limits now member).1 },
      .ok (table.members.flatMap fun member => (tickMember table.localNode.id limits now member).2))
  else (table, .error .einval)

/-- `superpeer_unregister_node`. -/
def superpeerUnregisterNode (table : SuperPeer) (id : NodeID) : SuperPeer × Except Errno Unit :=
  if id = table.localNode.id then (table, .error .eperm)
  else match table.find id with
    | none => (table, .error .enoent)
    | some member => (table.overwrite id (unregistered table.localNode.id member), .ok ())

/-- `membership_local`. -/
def membershipLocal (table : SuperPeer) (node : Node) (incarnation sequence : UInt64) :
    SuperPeer × Except Errno Unit :=
  if table.localNode.id ≠ node.id then (table, .error .einval)
  else
    ({ localNode := node
       members := table.members.modifyHead fun member => { member with
        node := node
        home := node.id
        reporter := node.id
        incarnation := incarnation
        sequence := sequence
        state := .alive } }, .ok ())

/-- `superpeer_find_member`, which does not find tombstones. -/
def SuperPeer.findMember (table : SuperPeer) (id : NodeID) : Except Errno MemberRecord :=
  match table.find id with
  | none => .error .enoent
  | some member => if member.state = .removed then .error .enoent else .ok member

omit [Inet] [Sha256] in
theorem find_of_findMember {table : SuperPeer} {id : NodeID} {member : MemberRecord}
    (found : table.findMember id = .ok member) : table.find id = some member := by
  unfold SuperPeer.findMember at found
  split at found
  · cases found
  · split at found
    · cases found
    · cases found
      assumption

/-- The fields of a record that the other handlers read. -/
def MemberRecord.member (record : MemberRecord) : SuperPeerMember where
  id := record.id
  role := record.node.role
  state := record.state
  localRegistration := record.localRegistration

/-- `superpeer_is_registered` on the whole table. -/
def SuperPeer.isRegistered (table : SuperPeer) (id : NodeID) : Bool :=
  superpeerIsRegistered (table.members.map MemberRecord.member) id

/-! ### Calls -/

/-- A call of one of the operations that write the table. -/
inductive MembershipCall where
  | register (node : Node) (home : NodeID) (incarnation : UInt64) (now wall : Int)
  | heartbeat (incoming : MemberRecord) (now wall : Int)
  | merge (incoming : MemberRecord) (now : Int)
  | probe (id : NodeID) (incarnation sequence : UInt64) (now : Int) (success : Bool)
  | tick (now : Int) (limits : Limits)
  | unregister (id : NodeID)
  deriving DecidableEq

/-- The table after a call. -/
def SuperPeer.call (table : SuperPeer) : MembershipCall → SuperPeer
  | .register node home incarnation now wall =>
    (membershipRegister table node home incarnation now wall).1
  | .heartbeat incoming now wall => (membershipHeartbeat table incoming now wall).1
  | .merge incoming now => (membershipMerge table now incoming).1
  | .probe id incarnation sequence now success =>
    membershipProbe table id incarnation sequence now success
  | .tick now limits => (membershipTick table now limits).1
  | .unregister id => (superpeerUnregisterNode table id).1

/-- The table after a sequence of calls. -/
def SuperPeer.calls (table : SuperPeer) (calls : List MembershipCall) : SuperPeer :=
  calls.foldl SuperPeer.call table

theorem calls_append (table : SuperPeer) (first second : List MembershipCall) :
    table.calls (first ++ second) = (table.calls first).calls second :=
  List.foldl_append

/-- What a call makes of a record that the table holds. -/
inductive Rewrites (table : SuperPeer) : MembershipCall → MemberRecord → MemberRecord → Prop
  | idle (call : MembershipCall) (member : MemberRecord) : Rewrites table call member member
  | register {node : Node} {home : NodeID} {incarnation : UInt64} {now wall : Int}
      {member : MemberRecord} (valid : nodeValidate node = .ok ()) (same : member.id = node.id)
      (current : ¬ registrationStale member incarnation) :
      Rewrites table (.register node home incarnation now wall) member
        (registered table.localNode.id member node home incarnation now wall)
  | heartbeat {incoming : MemberRecord} {now wall : Int} {member : MemberRecord}
      (same : member.id = incoming.id) (alive : incoming.state = .alive)
      (begun : incoming.incarnation ≠ 0) (current : ¬ heartbeatStale member incoming)
      (found : table.find incoming.id = some member) :
      Rewrites table (.heartbeat incoming now wall) member
        (beaten table.localNode.id member incoming now wall)
  | merge {incoming : MemberRecord} {now : Int} {member : MemberRecord}
      (valid : nodeValidate incoming.node = .ok ()) (same : member.id = incoming.id)
      (remote : incoming.id ≠ table.localNode.id)
      (reported : incoming.node.role = .peer → incoming.home = incoming.reporter)
      (later : newer incoming member) (admitted : ¬ tombstoneRefuses member incoming)
      (elsewhere : ¬ homedHere table member) :
      Rewrites table (.merge incoming now) member (replaced member incoming)
  | probe {id : NodeID} {incarnation sequence : UInt64} {now : Int} {success : Bool}
      {member : MemberRecord} (same : member.id = id) :
      Rewrites table (.probe id incarnation sequence now success) member
        (probed member incarnation sequence now success)
  | tick {now : Int} {limits : Limits} (ordered : limits.ordered) (member : MemberRecord) :
      Rewrites table (.tick now limits) member (tickMember table.localNode.id limits now member).1
  | unregister {id : NodeID} {member : MemberRecord} (same : member.id = id)
      (remote : id ≠ table.localNode.id) (found : table.find id = some member) :
      Rewrites table (.unregister id) member (unregistered table.localNode.id member)

/-- What a call appends to the table. -/
inductive Enters (table : SuperPeer) : MembershipCall → MemberRecord → Prop
  | register {node : Node} {home : NodeID} {incarnation : UInt64} {now wall : Int}
      (valid : nodeValidate node = .ok ()) :
      Enters table (.register node home incarnation now wall)
        (registered table.localNode.id (setMember node now wall) node home incarnation now wall)
  | merge {incoming : MemberRecord} {now : Int} (valid : nodeValidate incoming.node = .ok ())
      (remote : incoming.id ≠ table.localNode.id)
      (reported : incoming.node.role = .peer → incoming.home = incoming.reporter) :
      Enters table (.merge incoming now) (entered now incoming)

end Operations

/-! ### What a call does to the table -/

/-- A transition writes the state, the reporter and the version only. -/
theorem transition_eq (localId : NodeID) (member : MemberRecord) (state : SuperPeerMemberState) :
    ∃ reporter version, transition localId member state =
      { member with state := state, reporter := reporter, version := version } := by
  unfold transition
  split
  · rename_i same
    exact ⟨member.reporter, member.version, by rw [← same]⟩
  · exact ⟨_, _, rfl⟩

/-- A step of the detector writes the state, the reporter and the version only. -/
theorem stepIf_eq (due : Bool) (localId : NodeID) (member : MemberRecord)
    (target : SuperPeerMemberState) :
    ∃ state reporter version, (stepIf due localId member target).1 =
      { member with state := state, reporter := reporter, version := version } := by
  unfold stepIf
  split
  · exact ⟨target, transition_eq localId member target⟩
  · exact ⟨_, _, _, rfl⟩

/-- The detector writes the state, the reporter and the version of a member only. -/
theorem tickMember_eq (localId : NodeID) (limits : Limits) (now : Int) (member : MemberRecord) :
    ∃ state reporter version, (tickMember localId limits now member).1 =
      { member with state := state, reporter := reporter, version := version } := by
  unfold tickMember
  split
  · exact ⟨_, _, _, rfl⟩
  · simp only
    obtain ⟨_, _, _, third⟩ := stepIf_eq _ localId _ .removed
    obtain ⟨_, _, _, second⟩ := stepIf_eq _ localId _ .failed
    obtain ⟨_, _, _, first⟩ := stepIf_eq _ localId member .suspect
    rw [third, second, first]
    exact ⟨_, _, _, rfl⟩

theorem id_tickMember (localId : NodeID) (limits : Limits) (now : Int) (member : MemberRecord) :
    (tickMember localId limits now member).1.id = member.id := by
  obtain ⟨_, _, _, same⟩ := tickMember_eq localId limits now member
  rw [same]
  rfl

/-- What a registration writes, field by field. -/
theorem registered_eq (localId : NodeID) (member : MemberRecord) (node : Node) (home : NodeID)
    (incarnation : UInt64) (now wall : Int) :
    ∃ version, registered localId member node home incarnation now wall =
      { member with
        node := node
        state := .alive
        lastSeen := wall
        home := home
        reporter := localId
        incarnation := incarnation
        sequence := if incarnation = member.incarnation then member.sequence else 0
        version := version
        observedMs := now
        failedProbes := 0
        localRegistration := answersFor localId node home } := by
  unfold registered
  simp only
  obtain ⟨_, version, same⟩ := transition_eq localId { member with
    node := node, home := home, incarnation := incarnation,
    sequence := if incarnation = member.incarnation then member.sequence else 0 } .alive
  rw [same]
  exact ⟨version, rfl⟩

/-- What a heartbeat writes, field by field. -/
theorem beaten_eq (localId : NodeID) (member incoming : MemberRecord) (now wall : Int) :
    ∃ reporter version, beaten localId member incoming now wall =
      { member with
        state := .alive
        lastSeen := wall
        reporter := reporter
        incarnation := incoming.incarnation
        sequence := incoming.sequence
        version := version
        observedMs := now
        failedProbes := 0 } := by
  unfold beaten
  simp only
  obtain ⟨reporter, version, same⟩ := transition_eq localId { member with
    incarnation := incoming.incarnation, sequence := incoming.sequence } .alive
  rw [same]
  exact ⟨reporter, version, rfl⟩

theorem id_registered (localId : NodeID) (member : MemberRecord) (node : Node) (home : NodeID)
    (incarnation : UInt64) (now wall : Int) :
    (registered localId member node home incarnation now wall).id = node.id := by
  obtain ⟨_, same⟩ := registered_eq localId member node home incarnation now wall
  rw [same]
  rfl

theorem id_beaten (localId : NodeID) (member incoming : MemberRecord) (now wall : Int) :
    (beaten localId member incoming now wall).id = member.id := by
  obtain ⟨_, _, same⟩ := beaten_eq localId member incoming now wall
  rw [same]
  rfl

/-- A probe writes the time and the count of probes only. -/
theorem probed_eq (member : MemberRecord) (incarnation sequence : UInt64) (now : Int)
    (success : Bool) :
    ∃ probeMs failedProbes, probed member incarnation sequence now success =
      { member with probeMs := probeMs, failedProbes := failedProbes } := by
  unfold probed
  split
  · exact ⟨_, _, rfl⟩
  · exact ⟨_, _, rfl⟩

theorem id_probed (member : MemberRecord) (incarnation sequence : UInt64) (now : Int)
    (success : Bool) : (probed member incarnation sequence now success).id = member.id := by
  obtain ⟨_, _, same⟩ := probed_eq member incarnation sequence now success
  rw [same]
  rfl

section Calls

variable [Inet] [Sha256] {table : SuperPeer}

theorem Rewrites.id_eq {call : MembershipCall} {member written : MemberRecord}
    (rewrites : Rewrites table call member written) : written.id = member.id := by
  cases rewrites with
  | idle => rfl
  | register _ same _ => rw [id_registered, same]
  | heartbeat => exact id_beaten ..
  | merge _ same => exact same.symm
  | probe => exact id_probed ..
  | tick => exact id_tickMember ..
  | unregister => rfl

/-- What a call makes of the members: every record is rewritten in its place, and at most one is
appended. -/
structure Changed (table : SuperPeer) (call : MembershipCall) (after : SuperPeer) : Prop where
  localNode : after.localNode = table.localNode
  members : ∃ kept, List.Forall₂ (Rewrites table call) table.members kept ∧
    (after.members = kept ∨ ∃ new, after.members = kept ++ [new] ∧ Enters table call new ∧
      table.find new.id = none ∧ table.members.length < maxMembers)

theorem Changed.refl (table : SuperPeer) (call : MembershipCall) : Changed table call table where
  localNode := rfl
  members := ⟨table.members, List.forall₂_same.mpr fun member _ => .idle call member, Or.inl rfl⟩

theorem Changed.of_overwrite {call : MembershipCall} {id : NodeID} {member written : MemberRecord}
    (found : table.find id = some member) (rewrites : Rewrites table call member written) :
    Changed table call (table.overwrite id written) where
  localNode := rfl
  members := ⟨_, KeyedList.forall₂_modify (fun member => .idle call member) found rewrites,
    Or.inl rfl⟩

theorem Changed.of_append {call : MembershipCall} {new : MemberRecord}
    (enters : Enters table call new) (absent : table.find new.id = none)
    (room : table.members.length < maxMembers) :
    Changed table call { table with members := table.members ++ [new] } where
  localNode := rfl
  members := ⟨table.members, List.forall₂_same.mpr fun member _ => .idle call member,
    Or.inr ⟨new, rfl, enters, absent, room⟩⟩

theorem changed_register (table : SuperPeer) (node : Node) (home : NodeID) (incarnation : UInt64)
    (now wall : Int) :
    Changed table (.register node home incarnation now wall)
      (membershipRegister table node home incarnation now wall).1 := by
  unfold membershipRegister
  cases valid : nodeValidate node with
  | error code => exact .refl _ _
  | ok _ =>
    cases found : table.find node.id with
    | none =>
      simp only
      split
      · exact .refl _ _
      · rename_i room
        exact .of_append (.register valid) (by rw [id_registered]; exact found)
          (Nat.lt_of_not_le room)
    | some member =>
      simp only
      split
      · exact .refl _ _
      · rename_i current
        exact .of_overwrite found (.register valid (KeyedList.lookup_key found) current)

theorem changed_heartbeat (table : SuperPeer) (incoming : MemberRecord) (now wall : Int) :
    Changed table (.heartbeat incoming now wall)
      (membershipHeartbeat table incoming now wall).1 := by
  unfold membershipHeartbeat
  cases nodeValidate incoming.node with
  | error code => exact .refl _ _
  | ok _ =>
    simp only
    split
    · exact .refl _ _
    · rename_i direct
      rw [not_or, not_ne_iff] at direct
      cases found : table.find incoming.id with
      | none => exact .refl _ _
      | some member =>
        simp only
        split
        · exact .refl _ _
        · rename_i current
          exact .of_overwrite found
            (.heartbeat (KeyedList.lookup_key found) direct.1 direct.2 current found)

theorem changed_merge (table : SuperPeer) (incoming : MemberRecord) (now : Int) :
    Changed table (.merge incoming now) (membershipMerge table now incoming).1 := by
  unfold membershipMerge
  cases valid : nodeValidate incoming.node with
  | error code => exact .refl _ _
  | ok _ =>
    simp only
    split
    · exact .refl _ _
    · rename_i remote
      split
      · exact .refl _ _
      · rename_i reporters
        have reported : incoming.node.role = .peer → incoming.home = incoming.reporter :=
          fun isPeer => not_ne_iff.mp fun different => reporters ⟨isPeer, different⟩
        cases found : table.find incoming.id with
        | none =>
          simp only
          split
          · exact .refl _ _
          · rename_i room
            exact .of_append (.merge valid remote reported) found (Nat.lt_of_not_le room)
        | some member =>
          simp only
          split
          · rename_i taken
            obtain ⟨later, admitted, elsewhere⟩ := taken
            exact .of_overwrite found (.merge valid (KeyedList.lookup_key found) remote reported
              later admitted elsewhere)
          · exact .refl _ _

theorem changed_probe (table : SuperPeer) (id : NodeID) (incarnation sequence : UInt64) (now : Int)
    (success : Bool) :
    Changed table (.probe id incarnation sequence now success)
      (membershipProbe table id incarnation sequence now success) := by
  unfold membershipProbe
  cases found : table.find id with
  | none => exact .refl _ _
  | some member => exact .of_overwrite found (.probe (KeyedList.lookup_key found))

theorem changed_tick (table : SuperPeer) (now : Int) (limits : Limits) :
    Changed table (.tick now limits) (membershipTick table now limits).1 := by
  unfold membershipTick
  split
  · rename_i ordered
    refine ⟨rfl, _, ?_, Or.inl rfl⟩
    rw [List.forall₂_map_right_iff]
    exact List.forall₂_same.mpr fun member _ => .tick ordered member
  · exact .refl _ _

theorem changed_unregister (table : SuperPeer) (id : NodeID) :
    Changed table (.unregister id) (superpeerUnregisterNode table id).1 := by
  unfold superpeerUnregisterNode
  split
  · exact .refl _ _
  · rename_i remote
    cases found : table.find id with
    | none => exact .refl _ _
    | some member => exact .of_overwrite found (.unregister (KeyedList.lookup_key found) remote found)

/-- Every call rewrites the records in their places and appends at most one. -/
theorem changed_call (table : SuperPeer) (call : MembershipCall) :
    Changed table call (table.call call) := by
  cases call with
  | register => exact changed_register ..
  | heartbeat => exact changed_heartbeat ..
  | merge => exact changed_merge ..
  | probe => exact changed_probe ..
  | tick => exact changed_tick ..
  | unregister => exact changed_unregister ..

theorem localNode_calls (table : SuperPeer) (calls : List MembershipCall) :
    (table.calls calls).localNode = table.localNode := by
  induction calls generalizing table with
  | nil => rfl
  | cons call rest inductionHypothesis =>
    exact (inductionHypothesis (table.call call)).trans (changed_call table call).localNode

/-- A member that the table holds is found again, rewritten. -/
theorem Changed.find_some {call : MembershipCall} {after : SuperPeer}
    (changed : Changed table call after) {id : NodeID} {member : MemberRecord}
    (found : table.find id = some member) :
    ∃ written, after.find id = some written ∧ Rewrites table call member written := by
  obtain ⟨kept, pairs, outcome⟩ := changed.members
  have related := KeyedList.rel_lookup (fun _ _ rewrites => rewrites.id_eq) pairs id
  rw [show KeyedList.lookup MemberRecord.id table.members id = some member from found] at related
  cases place : KeyedList.lookup MemberRecord.id kept id with
  | none =>
    rw [place] at related
    cases related
  | some written =>
    rw [place] at related
    cases related with
    | some rewrites =>
      refine ⟨written, ?_, rewrites⟩
      unfold SuperPeer.find
      rcases outcome with same | ⟨new, same, -⟩
      · rw [same, place]
      · rw [same, KeyedList.lookup_append, place]
        rfl

/-- A member that the table does not hold is still absent, or it has entered the table. -/
theorem Changed.find_none {call : MembershipCall} {after : SuperPeer}
    (changed : Changed table call after) {id : NodeID} (absent : table.find id = none) :
    after.find id = none ∨
      ∃ new, after.find id = some new ∧ new.id = id ∧ Enters table call new := by
  obtain ⟨kept, pairs, outcome⟩ := changed.members
  have related := KeyedList.rel_lookup (fun _ _ rewrites => rewrites.id_eq) pairs id
  rw [show KeyedList.lookup MemberRecord.id table.members id = none from absent] at related
  cases place : KeyedList.lookup MemberRecord.id kept id with
  | some written =>
    rw [place] at related
    cases related
  | none =>
    unfold SuperPeer.find
    rcases outcome with same | ⟨new, same, enters, -⟩
    · rw [same, place]
      exact Or.inl rfl
    · rw [same, KeyedList.lookup_append, place, Option.none_or, KeyedList.lookup_singleton]
      split
      · rename_i isNew
        exact Or.inr ⟨new, rfl, isNew, enters⟩
      · exact Or.inl rfl

/-- Every record stays in its place. -/
theorem Changed.at_position {call : MembershipCall} {after : SuperPeer}
    (changed : Changed table call after) {position : Nat} {member : MemberRecord}
    (held : table.members[position]? = some member) :
    ∃ written, after.members[position]? = some written ∧ Rewrites table call member written := by
  obtain ⟨kept, pairs, outcome⟩ := changed.members
  obtain ⟨written, place, rewrites⟩ := KeyedList.getElem?_related pairs held
  refine ⟨written, ?_, rewrites⟩
  rcases outcome with same | ⟨new, same, -⟩
  · rw [same, place]
  · rw [same, List.getElem?_append_left (List.getElem?_eq_some_iff.mp place).1, place]

/-- A record beyond the old ones has entered the table. -/
theorem Changed.beyond {call : MembershipCall} {after : SuperPeer}
    (changed : Changed table call after) {position : Nat} {new : MemberRecord}
    (outside : table.members.length ≤ position) (held : after.members[position]? = some new) :
    Enters table call new := by
  obtain ⟨kept, pairs, outcome⟩ := changed.members
  have length := pairs.length_eq
  rcases outcome with same | ⟨appended, same, enters, -⟩
  · rw [same, List.getElem?_eq_none (by omega)] at held
    cases held
  · rw [same, List.getElem?_append_right (by omega)] at held
    rw [List.mem_singleton.mp (List.mem_of_getElem? held)]
    exact enters

/-- The ids of the members, in the order of the table. -/
def SuperPeer.ids (table : SuperPeer) : List NodeID := table.members.map MemberRecord.id

theorem Changed.ids_eq {call : MembershipCall} {after : SuperPeer}
    (changed : Changed table call after) :
    after.ids = table.ids ∨ ∃ id, table.find id = none ∧ table.members.length < maxMembers ∧
      after.ids = table.ids ++ [id] := by
  obtain ⟨kept, pairs, outcome⟩ := changed.members
  have keys : kept.map MemberRecord.id = table.ids :=
    KeyedList.map_key_of_forall₂ (fun _ _ rewrites => rewrites.id_eq) pairs
  unfold SuperPeer.ids at keys ⊢
  rcases outcome with same | ⟨new, same, -, absent, room⟩
  · exact Or.inl (by rw [same, keys])
  · exact Or.inr ⟨new.id, absent, room, by rw [same, List.map_append, keys]; rfl⟩

end Calls

end SuperPeerNet
