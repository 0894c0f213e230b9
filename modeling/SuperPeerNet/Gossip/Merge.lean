/-
This file models the records that super peers gossip and the table they are merged
into: `gossip_decode_record` and `membership_merge`.

The merge keeps the greater of two records in the order of incarnation, sequence,
severity of the state, version and reporter, and it lets a `REMOVED` record stand
against every record of the same or an older incarnation. Seen from one node the table
is therefore a register with refusals, and the rules about such registers say when the
order of the records matters.
-/

import Mathlib.Data.Finset.Card
import Mathlib.Data.Finset.Max
import Mathlib.Data.Prod.Lex
import SuperPeerNet.Library.KeyedList
import SuperPeerNet.Library.Register
import SuperPeerNet.Node

namespace SuperPeerNet

/-! ### Records -/

/-- `SuperPeerMember` with all its fields, as gossip and the table of members hold it. -/
structure MemberRecord where
  node : Node
  state : SuperPeerMemberState
  lastSeen : Int
  home : NodeID
  reporter : NodeID
  incarnation : UInt64
  sequence : UInt64
  version : UInt64
  observedMs : Int
  probeMs : Int
  failedProbes : Nat
  localRegistration : Bool
  deriving DecidableEq

/-- The number of a state. -/
def SuperPeerMemberState.number : SuperPeerMemberState → Nat
  | .alive => 0
  | .suspect => 1
  | .failed => 2
  | .removed => 3

/-- The state with a number. -/
def SuperPeerMemberState.ofByte (byte : UInt8) : Option SuperPeerMemberState :=
  match byte.toNat with
  | 0 => some .alive
  | 1 => some .suspect
  | 2 => some .failed
  | 3 => some .removed
  | _ => none

/-- The role with a number. -/
def NodeRole.ofByte (byte : UInt8) : Option NodeRole :=
  match byte.toNat with
  | 0 => some .peer
  | 1 => some .superPeer
  | _ => none

/-- `MEMBERSHIP_WIRE_SIZE`. -/
def membershipWireSize : Nat := 186

/-- The textual address of a record: the field has to be terminated and padded with zero bytes. -/
def gossipAddress (field : List UInt8) : Option (List UInt8) :=
  let ip := field.takeWhile (· ≠ 0)
  if ip.length = field.length ∨ (field.drop ip.length).any (· ≠ 0) then none else some ip

section Merge

variable [Inet] [Sha256] [Process]

/-- `gossip_decode_record`. -/
def gossipDecodeRecord (input : Octets membershipWireSize) : Except Errno MemberRecord :=
  let bytes := input.toList
  match gossipAddress ((bytes.drop 32).take nodeAddressSize), NodeRole.ofByte (bytes.getD 96 0),
      SuperPeerMemberState.ofByte (bytes.getD 153 0) with
  | some ip, some role, some state =>
    match nodeConfigInitWithUuid ip (wireGetU16 (bytes.drop 78))
        (Octets.read nodeUuidSize (bytes.drop 80)) with
    | .error _ => .error .ebadmsg
    | .ok config => match nodeInit config with
      | .error _ => .error .ebadmsg
      | .ok node =>
        if node.id ≠ Octets.read nodeIdSize bytes then .error .ebadmsg
        else .ok
          { node := { node with role := role }
            state := state
            lastSeen := 0
            home := Octets.read nodeIdSize (bytes.drop 97)
            reporter := Octets.read nodeIdSize (bytes.drop 154)
            incarnation := wireGetU64 (bytes.drop 129)
            sequence := wireGetU64 (bytes.drop 137)
            version := wireGetU64 (bytes.drop 145)
            observedMs := 0
            probeMs := 0
            failedProbes := 0
            localRegistration := false }
  | _, _, _ => .error .ebadmsg

/-- What a decoded record is: its node is rebuilt from a configuration, and the clocks and the
counters are zero. -/
theorem gossipDecodeRecord_eq_ok {input : Octets membershipWireSize} {record : MemberRecord}
    (decoded : gossipDecodeRecord input = .ok record) :
    (∃ ip port uuid config node, nodeConfigInitWithUuid ip port uuid = .ok config ∧
      nodeInit config = .ok node ∧ record.node = { node with role := record.node.role }) ∧
    record.lastSeen = 0 ∧ record.failedProbes = 0 := by
  unfold gossipDecodeRecord at decoded
  simp only at decoded
  split at decoded
  · rename_i ip role state _ _ _
    cases configured : nodeConfigInitWithUuid ip (wireGetU16 (input.toList.drop 78))
        (Octets.read nodeUuidSize (input.toList.drop 80)) with
    | error code =>
      rw [configured] at decoded
      cases decoded
    | ok config =>
      rw [configured] at decoded
      cases initialised : nodeInit config with
      | error code =>
        simp only [initialised] at decoded
        cases decoded
      | ok node =>
        simp only [initialised] at decoded
        split at decoded
        · cases decoded
        · cases decoded
          exact ⟨⟨_, _, _, config, node, configured, initialised, rfl⟩, rfl, rfl⟩
  · cases decoded

/-- A decoded record is about a node that passes the check of the merge. -/
theorem nodeValidate_of_gossipDecodeRecord {input : Octets membershipWireSize}
    {record : MemberRecord} (decoded : gossipDecodeRecord input = .ok record) :
    nodeValidate record.node = .ok () := by
  obtain ⟨⟨_, _, _, _, _, _, initialised, same⟩, -⟩ := gossipDecodeRecord_eq_ok decoded
  rw [same]
  exact nodeValidate_of_nodeInit initialised _

/-! ### The table of members -/

/-- `struct SuperPeer`. -/
structure SuperPeer where
  localNode : Node
  members : List MemberRecord
  deriving DecidableEq

/-- The limit of `grow_members_locked`. -/
def maxMembers : Nat := 65536

/-- The node that a record is about. -/
def MemberRecord.id (record : MemberRecord) : NodeID := record.node.id

/-- `find_member_index_locked`. -/
def SuperPeer.find (table : SuperPeer) (id : NodeID) : Option MemberRecord :=
  KeyedList.lookup MemberRecord.id table.members id

/-- The first value of `newer` in `membership_merge`. -/
def newer (incoming old : MemberRecord) : Prop :=
  incoming.incarnation > old.incarnation ∨ (incoming.incarnation = old.incarnation ∧
    (incoming.sequence > old.sequence ∨ (incoming.sequence = old.sequence ∧
      (incoming.state.number > old.state.number ∨ (incoming.state = old.state ∧
        (incoming.version > old.version ∨ (incoming.version = old.version ∧
          nodeIdCompare incoming.reporter old.reporter = .gt)))))))

instance (incoming old : MemberRecord) : Decidable (newer incoming old) :=
  inferInstanceAs (Decidable (_ ∨ _))

/-- A tombstone stands against every record that is not of a later incarnation. -/
def tombstoneRefuses (old incoming : MemberRecord) : Prop :=
  old.state = .removed ∧ incoming.incarnation ≤ old.incarnation

instance : DecidableRel tombstoneRefuses := fun old incoming =>
  inferInstanceAs (Decidable (old.state = .removed ∧ incoming.incarnation ≤ old.incarnation))

/-- A Peer of the domain of this super peer. -/
def homedHere (table : SuperPeer) (record : MemberRecord) : Prop :=
  record.node.role = .peer ∧ record.home = table.localNode.id

instance (table : SuperPeer) (record : MemberRecord) : Decidable (homedHere table record) :=
  inferInstanceAs (Decidable (_ ∧ _))

/-- The record that replaces an older one. An `ALIVE` by rumour after a suspicion does not prove
a recovery, so the time of the last direct contact is reset. -/
def replaced (old incoming : MemberRecord) : MemberRecord :=
  { incoming with
    observedMs := old.observedMs
    lastSeen := if incoming.incarnation = old.incarnation ∧
        (old.state = .alive ∨ incoming.state ≠ .alive) then old.lastSeen else 0
    localRegistration := old.localRegistration }

/-- Write a record into the place of a node. -/
def SuperPeer.overwrite (table : SuperPeer) (id : NodeID) (record : MemberRecord) : SuperPeer :=
  { table with
    members := KeyedList.modify MemberRecord.id (fun _ => record) id table.members }

omit [Inet] [Sha256] [Process] in
theorem find_overwrite {table : SuperPeer} {id : NodeID} {record : MemberRecord}
    (same : record.id = id) (other : NodeID) :
    (table.overwrite id record).find other =
      if other = id then (table.find other).map fun _ => record else table.find other := by
  have keeps : ∀ row : MemberRecord, row.id = id → ((fun _ => record) row : MemberRecord).id = id :=
    fun _ _ => same
  exact KeyedList.lookup_modify keeps table.members other

/-- A record that enters the table. -/
def entered (now : Int) (incoming : MemberRecord) : MemberRecord :=
  { incoming with
    observedMs := now
    localRegistration := incoming.node.role = .superPeer }

/-- `membership_merge`, at the given reading of the monotonic clock. -/
def membershipMerge (table : SuperPeer) (now : Int) (incoming : MemberRecord) :
    SuperPeer × Except Errno Unit :=
  match nodeValidate incoming.node with
  | .error _ => (table, .error .einval)
  | .ok _ =>
    if incoming.id = table.localNode.id then (table, .ok ())
    else if incoming.node.role = .peer ∧ incoming.home ≠ incoming.reporter then
      (table, .error .eacces)
    else match table.find incoming.id with
      | none =>
        if table.members.length ≥ maxMembers then (table, .error .enospc)
        else ({ table with members := table.members ++ [entered now incoming] }, .ok ())
      | some old =>
        if newer incoming old ∧ ¬ tombstoneRefuses old incoming ∧ ¬ homedHere table old then
          (table.overwrite incoming.id (replaced old incoming), .ok ())
        else (table, .ok ())

/-- The table after records have been merged in the order of their arrival. -/
def mergeAll (table : SuperPeer) (arrivals : List (Int × MemberRecord)) : SuperPeer :=
  arrivals.foldl (fun table arrival => (membershipMerge table arrival.1 arrival.2).1) table

end Merge

/-! ### What the merge compares -/

/-- The part of a record that the merge compares. -/
@[ext] structure MemberView where
  incarnation : UInt64
  sequence : UInt64
  state : SuperPeerMemberState
  version : UInt64
  reporter : NodeID

/-- The part of a record that the merge compares. -/
def MemberRecord.view (record : MemberRecord) : MemberView where
  incarnation := record.incarnation
  sequence := record.sequence
  state := record.state
  version := record.version
  reporter := record.reporter

/-- What a table says about a node. -/
def SuperPeer.view (table : SuperPeer) (id : NodeID) : Option MemberView :=
  (table.find id).map MemberRecord.view

namespace MemberView

/-- The rank of a record: incarnation, sequence, severity, version and reporter. -/
def rank (view : MemberView) : ℕ ×ₗ ℕ ×ₗ ℕ ×ₗ ℕ ×ₗ ℕ :=
  toLex (view.incarnation.toNat, toLex (view.sequence.toNat, toLex (view.state.number,
    toLex (view.version.toNat, BigEndian.value view.reporter.toList))))

/-- `tombstoneRefuses`, on what the merge compares. -/
def refuses (old incoming : MemberView) : Prop :=
  old.state = .removed ∧ incoming.incarnation ≤ old.incarnation

instance : DecidableRel refuses := fun old incoming =>
  inferInstanceAs (Decidable (old.state = .removed ∧ incoming.incarnation ≤ old.incarnation))

theorem incarnation_le_of_rank_le {first second : MemberView}
    (below : first.rank ≤ second.rank) : first.incarnation ≤ second.incarnation := by
  rw [rank, rank, Prod.Lex.toLex_le_toLex] at below
  refine UInt64.le_iff_toNat_le.mpr ?_
  rcases below with less | ⟨same, -⟩
  · exact Nat.le_of_lt less
  · exact Nat.le_of_eq same

theorem number_injective {first second : SuperPeerMemberState}
    (same : first.number = second.number) : first = second := by
  cases first <;> cases second <;> first | rfl | cases same

/-- The rank says everything that the merge compares. -/
theorem rank_injective {first second : MemberView} (same : first.rank = second.rank) :
    first = second := by
  simp only [rank, EmbeddingLike.apply_eq_iff_eq, Prod.mk.injEq] at same
  obtain ⟨incarnation, sequence, state, version, reporter⟩ := same
  refine MemberView.ext (UInt64.toNat_inj.mp incarnation) (UInt64.toNat_inj.mp sequence)
    (number_injective state) (UInt64.toNat_inj.mp version) (Octets.toList_injective ?_)
  have firstDigits := BigEndian.digits_value first.reporter.toList
  have secondDigits := BigEndian.digits_value second.reporter.toList
  rw [length_nodeID] at firstDigits secondDigits
  rw [← firstDigits, reporter, secondDigits]

end MemberView

/-- The five-level comparison of the source is the order of the ranks. -/
theorem newer_iff (incoming old : MemberRecord) :
    newer incoming old ↔ old.view.rank < incoming.view.rank := by
  have states : incoming.state = old.state ↔ old.state.number = incoming.state.number :=
    ⟨fun same => by rw [same], fun same => MemberView.number_injective same.symm⟩
  have reporters : nodeIdCompare incoming.reporter old.reporter = .gt ↔
      BigEndian.value old.reporter.toList < BigEndian.value incoming.reporter.toList := by
    refine memcmp_eq_gt ?_
    rw [length_nodeID, length_nodeID]
  have words : ∀ first second : UInt64, first = second ↔ second.toNat = first.toNat :=
    fun first second => ⟨fun same => by rw [same], fun same => UInt64.toNat_inj.mp same.symm⟩
  simp only [newer, MemberView.rank, MemberRecord.view, Prod.Lex.toLex_lt_toLex, gt_iff_lt,
    UInt64.lt_iff_toNat_lt, states, reporters, words]

end SuperPeerNet
