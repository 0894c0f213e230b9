/-
This file settles what a table of members never loses: the identity of its members, the
order of their epochs and the tombstones of those that have left.

All of it is shown for one call at a time. Each call rewrites the records in their places,
and each way of rewriting a record raises its pair of incarnation and sequence or keeps it,
and brings a removed member back only with a later incarnation. A restart goes through the
ledger, which carries exactly the fields that the argument needs.
-/

import SuperPeerNet.Gossip.Ledger

namespace SuperPeerNet

/-! ### Epochs -/

/-- The pair of incarnation and sequence, in its lexicographic order. -/
def MemberRecord.epoch (member : MemberRecord) : ℕ ×ₗ ℕ :=
  toLex (member.incarnation.toNat, member.sequence.toNat)

theorem MemberRecord.epoch_eq {first second : MemberRecord}
    (incarnation : second.incarnation = first.incarnation)
    (sequence : second.sequence = first.sequence) : second.epoch = first.epoch := by
  rw [epoch, epoch, incarnation, sequence]

theorem MemberRecord.epoch_lt_of_incarnation {first second : MemberRecord}
    (later : first.incarnation < second.incarnation) : first.epoch < second.epoch :=
  Prod.Lex.toLex_lt_toLex.mpr (Or.inl (UInt64.lt_iff_toNat_lt.mp later))

theorem MemberRecord.epoch_le_of_sequence {first second : MemberRecord}
    (same : first.incarnation = second.incarnation) (later : first.sequence ≤ second.sequence) :
    first.epoch ≤ second.epoch :=
  Prod.Lex.toLex_le_toLex.mpr (Or.inr ⟨congrArg UInt64.toNat same, UInt64.le_iff_toNat_le.mp later⟩)

/-- A call that is about a member brings an incarnation of it. -/
def MembershipCall.Carries (id : NodeID) (incarnation : UInt64) : MembershipCall → Prop
  | .register node _ carried _ _ => node.id = id ∧ carried = incarnation
  | .heartbeat incoming _ _ => incoming.id = id ∧ incoming.incarnation = incarnation
  | .merge incoming _ => incoming.id = id ∧ incoming.incarnation = incarnation
  | .probe .. | .tick .. | .unregister .. => False

section Rewriting

variable [Inet] [Sha256] {table : SuperPeer} {call : MembershipCall} {member written : MemberRecord}

/-- No call takes the epoch of a member back. -/
theorem Rewrites.epoch_le (rewrites : Rewrites table call member written) :
    member.epoch ≤ written.epoch := by
  cases rewrites with
  | idle => exact le_refl _
  | @register node home incarnation now wall _ valid same current =>
    obtain ⟨_, fields⟩ := registered_eq table.localNode.id member node home incarnation now wall
    rw [fields]
    have notBefore : ¬ incarnation < member.incarnation := fun before => current (Or.inl before)
    rcases UInt64.lt_or_eq_of_le (UInt64.not_lt.mp notBefore) with later | equal
    · exact le_of_lt (MemberRecord.epoch_lt_of_incarnation later)
    · refine MemberRecord.epoch_le_of_sequence equal ?_
      rw [if_pos equal.symm]
      exact UInt64.le_refl _
  | @heartbeat incoming now wall _ same alive begun current =>
    obtain ⟨_, _, fields⟩ := beaten_eq table.localNode.id member incoming now wall
    rw [fields]
    have notBefore : ¬ incoming.incarnation < member.incarnation := fun before =>
      current (Or.inr (Or.inr (Or.inl before)))
    rcases UInt64.lt_or_eq_of_le (UInt64.not_lt.mp notBefore) with later | equal
    · exact le_of_lt (MemberRecord.epoch_lt_of_incarnation later)
    · refine MemberRecord.epoch_le_of_sequence equal
        (UInt64.le_of_lt (UInt64.not_le.mp fun before => ?_))
      exact current (Or.inr (Or.inr (Or.inr ⟨equal.symm, Or.inl before⟩)))
  | @merge incoming now _ valid same remote reported later admitted elsewhere =>
    rcases later with incarnation | ⟨equal, sequence | ⟨sameSequence, -⟩⟩
    · exact le_of_lt (MemberRecord.epoch_lt_of_incarnation incarnation)
    · exact MemberRecord.epoch_le_of_sequence equal.symm (UInt64.le_of_lt sequence)
    · exact le_of_eq (MemberRecord.epoch_eq equal sameSequence).symm
  | @probe id incarnation sequence now success _ same =>
    obtain ⟨_, _, fields⟩ := probed_eq member incarnation sequence now success
    rw [fields]
    exact le_of_eq rfl
  | @tick now limits ordered =>
    obtain ⟨_, _, _, fields⟩ := tickMember_eq table.localNode.id limits now member
    rw [fields]
    exact le_of_eq rfl
  | unregister => exact le_of_eq rfl

omit [Inet] [Sha256] in
/-- The detector leaves tombstones alone. -/
theorem tickMember_removed (localId : NodeID) (limits : Limits) (now : Int)
    (removed : member.state = .removed) :
    (tickMember localId limits now member).1 = member := by
  unfold tickMember
  split
  · rfl
  · simp [stepIf, removed]

/-- A tombstone is left with a later incarnation only. -/
theorem Rewrites.carries_later (rewrites : Rewrites table call member written)
    (removed : member.state = .removed) (returned : written.state ≠ .removed) :
    ∃ incarnation, call.Carries member.id incarnation ∧ member.incarnation < incarnation := by
  cases rewrites with
  | idle => exact absurd removed returned
  | @register node home incarnation now wall _ valid same current =>
    refine ⟨incarnation, ⟨same.symm, rfl⟩, UInt64.not_le.mp fun before => ?_⟩
    exact current (Or.inr ⟨by rw [removed]; rfl, before⟩)
  | @heartbeat incoming now wall _ same alive begun current =>
    refine ⟨incoming.incarnation, ⟨same.symm, rfl⟩, UInt64.not_le.mp fun notLater => ?_⟩
    rcases UInt64.lt_or_eq_of_le notLater with before | equal
    · exact current (Or.inr (Or.inr (Or.inl before)))
    · exact current (Or.inr (Or.inr (Or.inr ⟨equal, Or.inr (by rw [removed]; rfl)⟩)))
  | @merge incoming now _ valid same remote reported later admitted elsewhere =>
    refine ⟨incoming.incarnation, ⟨same.symm, rfl⟩, UInt64.not_le.mp fun notLater => ?_⟩
    exact admitted ⟨removed, notLater⟩
  | @probe id incarnation sequence now success _ same =>
    obtain ⟨_, _, fields⟩ := probed_eq member incarnation sequence now success
    rw [fields] at returned
    exact absurd removed returned
  | @tick now limits ordered =>
    rw [tickMember_removed _ _ _ removed] at returned
    exact absurd removed returned
  | unregister => exact absurd rfl returned

/-- The nodes of a table stay valid. -/
theorem Rewrites.valid (rewrites : Rewrites table call member written)
    (held : nodeValidate member.node = .ok ()) : nodeValidate written.node = .ok () := by
  cases rewrites with
  | idle => exact held
  | @register node home incarnation now wall _ valid same current =>
    obtain ⟨_, fields⟩ := registered_eq table.localNode.id member node home incarnation now wall
    rw [fields]
    exact valid
  | @heartbeat incoming now wall =>
    obtain ⟨_, _, fields⟩ := beaten_eq table.localNode.id member incoming now wall
    rw [fields]
    exact held
  | merge valid => exact valid
  | @probe id incarnation sequence now success =>
    obtain ⟨_, _, fields⟩ := probed_eq member incarnation sequence now success
    rw [fields]
    exact held
  | @tick now limits =>
    obtain ⟨_, _, _, fields⟩ := tickMember_eq table.localNode.id limits now member
    rw [fields]
    exact held
  | unregister => exact held

theorem Enters.valid {new : MemberRecord} (enters : Enters table call new) :
    nodeValidate new.node = .ok () := by
  cases enters with
  | @register node home incarnation now wall valid =>
    obtain ⟨_, fields⟩ := registered_eq table.localNode.id (setMember node now wall) node home
      incarnation now wall
    rw [fields]
    exact valid
  | merge valid => exact valid

end Rewriting

/-! ### The invariant of a table -/

section Runs

variable [Inet] [Sha256]

/-- What every table keeps: its members are valid nodes under distinct ids, at most as many as
the table may hold, and the local node stands first. -/
structure WellFormed (table : SuperPeer) : Prop where
  localNode : nodeValidate table.localNode = .ok ()
  distinct : table.ids.Nodup
  localFirst : table.ids.head? = some table.localNode.id
  size : table.members.length ≤ maxMembers
  valid : ∀ member ∈ table.members, nodeValidate member.node = .ok ()

theorem WellFormed.created [Process] {config : NodeConfig} {now wall : Int} {table : SuperPeer}
    (created : superpeerCreate config now wall = .ok table) : WellFormed table := by
  unfold superpeerCreate at created
  cases initialised : nodeInit config with
  | error code =>
    rw [initialised] at created
    cases created
  | ok node =>
    rw [initialised] at created
    cases created
    have valid := nodeValidate_of_nodeInit initialised .superPeer
    refine ⟨valid, List.nodup_singleton _, rfl, Nat.le_add_left 1 65535, ?_⟩
    intro member inside
    rw [List.mem_singleton.mp inside]
    exact valid

theorem WellFormed.changed {table after : SuperPeer} {call : MembershipCall}
    (wellFormed : WellFormed table) (changed : Changed table call after) : WellFormed after := by
  have lengths : ∀ table : SuperPeer, table.ids.length = table.members.length :=
    fun _ => List.length_map _
  have size := wellFormed.size
  have ids := changed.ids_eq
  refine ⟨changed.localNode ▸ wellFormed.localNode, ?_, ?_, ?_, ?_⟩
  · rcases ids with same | ⟨id, absent, -, more⟩
    · rw [same]
      exact wellFormed.distinct
    · rw [more]
      refine List.nodup_append.mpr ⟨wellFormed.distinct, List.nodup_singleton _, ?_⟩
      intro old known new isNew same
      obtain ⟨member, inside, rfl⟩ := List.mem_map.mp known
      rw [List.mem_singleton.mp isNew] at same
      exact KeyedList.lookup_eq_none.mp absent member inside same
  · rw [changed.localNode, ← wellFormed.localFirst]
    rcases ids with same | ⟨id, -, -, more⟩
    · rw [same]
    · rw [more]
      cases known : table.ids with
      | nil =>
        have first := wellFormed.localFirst
        rw [known] at first
        cases first
      | cons head rest => rfl
  · rcases ids with same | ⟨id, -, room, more⟩
    · rw [← lengths, same, lengths]
      exact size
    · rw [← lengths, more, List.length_append, lengths, List.length_singleton]
      exact room
  · obtain ⟨kept, pairs, outcome⟩ := changed.members
    have keptValid : ∀ written ∈ kept, nodeValidate written.node = .ok () := by
      intro written inside
      obtain ⟨member, among, rewrites⟩ := KeyedList.exists_related pairs inside
      exact rewrites.valid (wellFormed.valid member among)
    intro member inside
    rcases outcome with same | ⟨new, same, enters, -⟩
    · rw [same] at inside
      exact keptValid member inside
    · rw [same, List.mem_append, List.mem_singleton] at inside
      rcases inside with old | rfl
      · exact keptValid member old
      · exact enters.valid

/-- A well-formed table can be saved and loaded again. -/
theorem WellFormed.restartable [Process] [LawfulInet] {table : SuperPeer}
    (wellFormed : WellFormed table) : Restartable table :=
  ⟨wellFormed.distinct, wellFormed.localFirst, wellFormed.size, fun member inside =>
    .of_valid (wellFormed.valid member inside)⟩

/-! ### Runs with restarts -/

/-- What happens to a table: a call, or a restart that saves the table and loads it into a fresh
one. -/
inductive MembershipEvent where
  | call (call : MembershipCall)
  | restart (now wall later : Int)
  deriving DecidableEq

/-- An event that brings an incarnation of a member. -/
def MembershipEvent.Carries (id : NodeID) (incarnation : UInt64) : MembershipEvent → Prop
  | .call made => made.Carries id incarnation
  | .restart .. => False

variable [Process]

/-- The table after an event. -/
def SuperPeer.after (table : SuperPeer) : MembershipEvent → SuperPeer
  | .call call => table.call call
  | .restart now wall later =>
    let fresh := SuperPeer.fresh table.localNode now wall
    match membershipSave table with
    | .error _ => fresh
    | .ok file => (membershipLoad fresh (some file) later).1

theorem WellFormed.after_restart [LawfulInet] {table : SuperPeer} (wellFormed : WellFormed table)
    (now wall later : Int) :
    table.after (.restart now wall later) = table.restarted now wall later := by
  obtain ⟨saved, loaded⟩ := wellFormed.restartable.restarts now wall later
  rw [SuperPeer.after, saved]
  simp only [loaded]

omit [Sha256] in
theorem ids_restarted {table : SuperPeer} (now wall later : Int)
    (localFirst : table.ids.head? = some table.localNode.id) :
    (table.restarted now wall later).ids = table.ids := by
  unfold SuperPeer.ids at localFirst ⊢
  cases members : table.members with
  | nil =>
    rw [members] at localFirst
    cases localFirst
  | cons first others =>
    rw [members, List.map_cons, List.head?_cons, Option.some_inj] at localFirst
    rw [SuperPeer.restarted, members, List.map_cons, List.tail_cons, List.map_map, List.map_cons,
      localFirst]
    rfl

/-- What a restart keeps of a member that is not the local node. -/
theorem WellFormed.find_restarted [LawfulInet] {table : SuperPeer} (wellFormed : WellFormed table)
    (now wall later : Int) {id : NodeID} (remote : id ≠ table.localNode.id) :
    (table.restarted now wall later).find id =
      (table.find id).map (reloaded table.localNode.id later) := by
  obtain ⟨first, others, members, isLocal, -⟩ := wellFormed.restartable.members_eq
  have skips : ∀ {head : MemberRecord} (rest : List MemberRecord), head.id = table.localNode.id →
      KeyedList.lookup MemberRecord.id (head :: rest) id =
        KeyedList.lookup MemberRecord.id rest id := by
    intro head rest headLocal
    rw [KeyedList.lookup, List.find?_cons_of_neg]
    · rfl
    · rw [decide_eq_true_eq, headLocal]
      exact remote.symm
  have fields : ∀ member, (reloaded table.localNode.id later member).id = member.id :=
    fun _ => rfl
  rw [SuperPeer.find, SuperPeer.find, SuperPeer.restarted, members, skips _ isLocal,
    skips _ (by rfl), List.tail_cons]
  exact KeyedList.lookup_map fields others id

theorem WellFormed.restarted [LawfulInet] {table : SuperPeer} (wellFormed : WellFormed table)
    (now wall later : Int) : WellFormed (table.restarted now wall later) := by
  obtain ⟨first, others, members, isLocal, -⟩ := wellFormed.restartable.members_eq
  have size := wellFormed.size
  have ids := ids_restarted now wall later wellFormed.localFirst
  refine ⟨wellFormed.localNode, ids ▸ wellFormed.distinct, ?_, ?_, ?_⟩
  · rw [ids]
    exact wellFormed.localFirst
  · rw [SuperPeer.restarted, members, List.length_cons, List.tail_cons, List.length_map]
    rw [members, List.length_cons] at size
    exact size
  · intro member inside
    rw [SuperPeer.restarted, List.mem_cons] at inside
    rcases inside with rfl | among
    · exact wellFormed.localNode
    · obtain ⟨old, known, rfl⟩ := List.mem_map.mp among
      have decoded := nodeValidate_of_gossipDecodeRecord
        (wellFormed.restartable.storable old (List.mem_of_mem_tail known)).decodes
      exact decoded

/-- Every event keeps a table well formed, under its local node. -/
theorem WellFormed.after [LawfulInet] {table : SuperPeer} (wellFormed : WellFormed table)
    (event : MembershipEvent) :
    WellFormed (table.after event) ∧ (table.after event).localNode = table.localNode := by
  cases event with
  | call made =>
    exact ⟨wellFormed.changed (changed_call table made), (changed_call table made).localNode⟩
  | restart now wall later =>
    rw [wellFormed.after_restart]
    exact ⟨wellFormed.restarted now wall later, rfl⟩

/-- One event takes no epoch of another node back, and brings no removed node back without a
later incarnation. -/
theorem WellFormed.member_after [LawfulInet] {table : SuperPeer} (wellFormed : WellFormed table)
    (event : MembershipEvent) {id : NodeID} (remote : id ≠ table.localNode.id)
    {member : MemberRecord} (found : table.find id = some member) :
    ∃ written, (table.after event).find id = some written ∧ member.epoch ≤ written.epoch ∧
      (member.state = .removed → written.state ≠ .removed →
        ∃ incarnation, event.Carries id incarnation ∧ member.incarnation < incarnation) := by
  cases event with
  | call made =>
    obtain ⟨written, later, rewrites⟩ := (changed_call table made).find_some found
    refine ⟨written, later, rewrites.epoch_le, fun removed returned => ?_⟩
    obtain ⟨incarnation, carried, greater⟩ := rewrites.carries_later removed returned
    rw [show member.id = id from KeyedList.lookup_key found] at carried
    exact ⟨incarnation, carried, greater⟩
  | restart now wall later =>
    rw [wellFormed.after_restart, wellFormed.find_restarted now wall later remote, found]
    exact ⟨_, rfl, le_of_eq rfl, fun removed returned => absurd removed returned⟩

/-- The invariant of a run. -/
theorem WellFormed.run [LawfulInet] {table : SuperPeer} (wellFormed : WellFormed table)
    (events : List MembershipEvent) :
    WellFormed (events.foldl SuperPeer.after table) ∧
      (events.foldl SuperPeer.after table).localNode = table.localNode := by
  induction events generalizing table with
  | nil => exact ⟨wellFormed, rfl⟩
  | cons event rest inductionHypothesis =>
    obtain ⟨next, same⟩ := wellFormed.after event
    obtain ⟨final, kept⟩ := inductionHypothesis next
    exact ⟨final, kept.trans same⟩

/-- A run takes no epoch of another node back. -/
theorem WellFormed.epoch_le_run [LawfulInet] {table : SuperPeer} (wellFormed : WellFormed table)
    (events : List MembershipEvent) {id : NodeID} (remote : id ≠ table.localNode.id)
    {member : MemberRecord} (found : table.find id = some member) :
    ∃ written, (events.foldl SuperPeer.after table).find id = some written ∧
      member.epoch ≤ written.epoch := by
  induction events generalizing table member with
  | nil => exact ⟨member, found, le_refl _⟩
  | cons event rest inductionHypothesis =>
    obtain ⟨next, same⟩ := wellFormed.after event
    obtain ⟨written, held, later, -⟩ := wellFormed.member_after event remote found
    obtain ⟨final, kept, more⟩ := inductionHypothesis next (same ▸ remote) held
    exact ⟨final, kept, le_trans later more⟩

/-- Whatever calls and restarts a table goes through, its members keep distinct ids with the local
node in front, the epoch of another node never goes back, and a removed node comes back only
through a call that carries a later incarnation. -/
theorem tombstones_hold [LawfulInet] {config : NodeConfig} {now wall : Int} {created : SuperPeer}
    (creation : superpeerCreate config now wall = .ok created) (earlier : List MembershipEvent) :
    let table := earlier.foldl SuperPeer.after created
    table.localNode = created.localNode ∧ table.ids.Nodup ∧
      table.members.head?.map MemberRecord.id = some created.localNode.id ∧
      (∀ later : List MembershipEvent,
        ∀ id ≠ created.localNode.id, ∀ member, table.find id = some member →
          ∃ written, (later.foldl SuperPeer.after table).find id = some written ∧
            member.epoch ≤ written.epoch) ∧
      ∀ event : MembershipEvent,
        ∀ id ≠ created.localNode.id, ∀ member, table.find id = some member →
          member.state = .removed →
          ∀ written, (table.after event).find id = some written → written.state ≠ .removed →
            ∃ incarnation, event.Carries id incarnation ∧ member.incarnation < incarnation := by
  intro table
  obtain ⟨wellFormed, same⟩ := (WellFormed.created creation).run earlier
  refine ⟨same, wellFormed.distinct, ?_, ?_, ?_⟩
  · rw [← same, ← wellFormed.localFirst, SuperPeer.ids, List.head?_map]
  · intro later id remote member found
    exact wellFormed.epoch_le_run later (same ▸ remote) found
  · intro event id remote member found removed written after returned
    obtain ⟨other, held, -, carried⟩ := wellFormed.member_after event (same ▸ remote) found
    rw [held] at after
    cases after
    exact carried removed returned

end Runs

/-- A neighbour registers and leaves, and the super peer restarts. -/
def departure : List MembershipEvent :=
  [.call (.register (neighbour 2) (neighbour 2).id 1 0 0), .call (.unregister (neighbour 2).id),
    .restart 5 5 5]

/-- The neighbour does not come back in its old incarnation. -/
theorem tombstones_hold_departure :
    letI := Inet.reference; letI := Sha256.reference; letI := Process.first
    ∃ member, (departure.foldl SuperPeer.after (SuperPeer.fresh (neighbour 1) 0 0)).find
        (neighbour 2).id = some member ∧ member.state = .removed ∧
      ∀ written, ((departure.foldl SuperPeer.after (SuperPeer.fresh (neighbour 1) 0 0)).after
        (.call (.register (neighbour 2) (neighbour 2).id 1 9 9))).find (neighbour 2).id =
          some written → written.state = .removed := by
  let inet := Inet.reference
  let sha := Sha256.reference
  let process := Process.first
  have lawful : LawfulInet := Inet.reference_lawful
  obtain ⟨creation, apart, left⟩ :
      superpeerCreate (neighbour 1).config 0 0 = .ok (SuperPeer.fresh (neighbour 1) 0 0) ∧
      (neighbour 2).id ≠ (neighbour 1).id ∧
      ((departure.foldl SuperPeer.after (SuperPeer.fresh (neighbour 1) 0 0)).find
        (neighbour 2).id).map (fun member => (member.state, member.incarnation)) =
          some (.removed, 1) := by
    decide +kernel
  obtain ⟨member, found, fields⟩ := Option.map_eq_some_iff.mp left
  obtain ⟨removed, first⟩ := Prod.mk.inj fields
  refine ⟨member, found, removed, fun written after => ?_⟩
  by_contra returned
  obtain ⟨-, -, -, -, leaves⟩ := tombstones_hold creation departure
  obtain ⟨incarnation, ⟨-, carried⟩, later⟩ := leaves _ _ apart member found removed written after
    returned
  rw [first, ← carried] at later
  exact absurd later (by decide)

end SuperPeerNet
