/-
This file shows that rumours are not evidence: whatever bytes a packet holds, and wherever its
processing ends, what it does to the table about nodes other than its sender stays within the
bounds of hearsay.

The bounds are a relation between two tables that compares them place by place. It is kept by
each of the calls that a packet makes, it composes, and so it holds for a whole packet.
-/

import SuperPeerNet.Gossip.Heartbeat

namespace SuperPeerNet

/-! ### The bounds of hearsay -/

/-- What a packet may do to a record: nothing to the local node and to the Peers of its domain,
and nothing to the clock of any node that did not send it. -/
structure Hearsay (localId source : NodeID) (old new : MemberRecord) : Prop where
  id_eq : new.id = old.id
  ownRecord : old.id = localId → new = old
  ownPeer : old.node.role = .peer → old.home = localId → old.id ≠ source → new = old
  clocks : old.id ≠ source → new.observedMs = old.observedMs ∧
    new.localRegistration = old.localRegistration ∧
    (new.lastSeen = old.lastSeen ∨ new.lastSeen = 0)

/-- What a packet may do to a table: its records stay in their places, and those that it adds
about others have never been seen. -/
structure Spread (localId source : NodeID) (before after : List MemberRecord) : Prop where
  held : ∀ (position : Nat) old, before[position]? = some old →
    ∃ new, after[position]? = some new ∧ Hearsay localId source old new
  added : ∀ (position : Nat) new, before.length ≤ position → after[position]? = some new →
    new.id ≠ source → new.lastSeen = 0

section Hearsay

variable {localId source : NodeID}

theorem Hearsay.refl (record : MemberRecord) : Hearsay localId source record record :=
  ⟨rfl, fun _ => rfl, fun _ _ _ => rfl, fun _ => ⟨rfl, rfl, Or.inl rfl⟩⟩

theorem Hearsay.trans {first second third : MemberRecord}
    (before : Hearsay localId source first second) (after : Hearsay localId source second third) :
    Hearsay localId source first third := by
  refine ⟨after.id_eq.trans before.id_eq, ?_, ?_, ?_⟩
  · intro own
    have same := before.ownRecord own
    rw [same] at after
    exact after.ownRecord own
  · intro isPeer here other
    have same := before.ownPeer isPeer here other
    rw [same] at after
    exact after.ownPeer isPeer here other
  · intro other
    obtain ⟨observed, registration, seen⟩ := before.clocks other
    obtain ⟨observedLater, registrationLater, seenLater⟩ :=
      after.clocks (by rw [before.id_eq]; exact other)
    refine ⟨observedLater.trans observed, registrationLater.trans registration, ?_⟩
    rcases seenLater with same | zero
    · rw [same]
      exact seen
    · exact Or.inr zero

theorem Spread.refl (records : List MemberRecord) : Spread localId source records records where
  held _ old found := ⟨old, found, .refl old⟩
  added position new outside found := by
    rw [List.getElem?_eq_none outside] at found
    cases found

theorem Spread.trans {first second third : List MemberRecord}
    (before : Spread localId source first second) (after : Spread localId source second third) :
    Spread localId source first third where
  held position old found := by
    obtain ⟨middle, between, earlier⟩ := before.held position old found
    obtain ⟨new, place, later⟩ := after.held position middle between
    exact ⟨new, place, earlier.trans later⟩
  added position new outside found other := by
    by_cases inside : position < second.length
    · have between : second[position]? = some second[position] := List.getElem?_eq_getElem inside
      obtain ⟨later, place, hearsay⟩ := after.held position _ between
      cases place.symm.trans found
      have sameOther : second[position].id ≠ source := by
        rw [← hearsay.id_eq]
        exact other
      have unseen := before.added position _ outside between sameOther
      rcases (hearsay.clocks sameOther).2.2 with same | zero
      · exact same.trans unseen
      · exact zero
    · exact after.added position new (Nat.le_of_not_lt inside) found other

end Hearsay

/-! ### Calls -/

section Calls

variable [Inet] [Sha256] {table after : SuperPeer} {source : NodeID}

/-- A call stays within the bounds if it is about the sender, or if it merges a record that was
never seen. -/
theorem Changed.spread {call : MembershipCall} (changed : Changed table call after)
    (hears : ∀ member written, Rewrites table call member written →
      Hearsay table.localNode.id source member written)
    (enters : ∀ new, Enters table call new → new.id ≠ source → new.lastSeen = 0) :
    Spread table.localNode.id source table.members after.members where
  held position member found := by
    obtain ⟨written, place, rewrites⟩ := changed.at_position found
    exact ⟨written, place, hears member written rewrites⟩
  added position new outside found other := enters new (changed.beyond outside found) other

omit [Inet] [Sha256] in
/-- What is direct evidence about the sender says nothing about others. -/
theorem Hearsay.of_sender {member written : MemberRecord} (same : member.id = source)
    (kept : written.id = member.id) (remote : source ≠ table.localNode.id) :
    Hearsay table.localNode.id source member written :=
  ⟨kept, fun own => absurd (same.symm.trans own) remote, fun _ _ other => absurd same other,
    fun other => absurd same other⟩

theorem spread_register {node : Node} (sender : node.id = source)
    (remote : source ≠ table.localNode.id) (home : NodeID) (incarnation : UInt64)
    (now wall : Int) :
    Spread table.localNode.id source table.members
      (membershipRegister table node home incarnation now wall).1.members := by
  refine (changed_register table node home incarnation now wall).spread ?_ ?_
  · intro member written rewrites
    have kept := rewrites.id_eq
    cases rewrites with
    | idle => exact .refl _
    | register _ same _ => exact .of_sender (same.trans sender) kept remote
  · intro new enters other
    cases enters with
    | register => exact absurd ((id_registered ..).trans sender) other

theorem spread_heartbeat {incoming : MemberRecord} (sender : incoming.id = source)
    (remote : source ≠ table.localNode.id) (now wall : Int) :
    Spread table.localNode.id source table.members
      (membershipHeartbeat table incoming now wall).1.members := by
  refine (changed_heartbeat table incoming now wall).spread ?_ ?_
  · intro member written rewrites
    have kept := rewrites.id_eq
    cases rewrites with
    | idle => exact .refl _
    | heartbeat same _ _ _ => exact .of_sender (same.trans sender) kept remote
  · intro new enters other
    cases enters

theorem spread_merge {incoming : MemberRecord} (unseen : incoming.lastSeen = 0) (now : Int) :
    Spread table.localNode.id source table.members
      (membershipMerge table now incoming).1.members := by
  refine (changed_merge table incoming now).spread ?_ ?_
  · intro member written rewrites
    have kept := rewrites.id_eq
    cases rewrites with
    | idle => exact .refl _
    | merge valid same remote reported later admitted elsewhere =>
      refine ⟨kept, fun own => absurd (same.symm.trans own) remote,
        fun isPeer here _ => absurd ⟨isPeer, here⟩ elsewhere, fun _ => ⟨rfl, rfl, ?_⟩⟩
      unfold replaced
      split
      · exact Or.inl rfl
      · exact Or.inr rfl
  · intro new enters other
    cases enters with
    | merge => exact unseen

end Calls

/-! ### Packets -/

section Packets

variable [Inet] [Sha256] [Process] {source : NodeID}

omit [Process] in
/-- Calls that each stay within the bounds stay within them together. -/
theorem spread_calls {table : SuperPeer} {calls : List MembershipCall}
    (each : ∀ call ∈ calls, ∀ other : SuperPeer, other.localNode = table.localNode →
      Spread table.localNode.id source other.members (other.call call).members) :
    Spread table.localNode.id source table.members (table.calls calls).members := by
  induction calls using List.reverseRecOn with
  | nil => exact .refl _
  | append_singleton calls call inductionHypothesis =>
    rw [calls_append]
    exact (inductionHypothesis fun other inside => each other (List.mem_append_left _ inside)).trans
      (each call (List.mem_append_right _ (List.mem_singleton_self call)) (table.calls calls)
        (localNode_calls table calls))

/-- Whatever bytes a packet consists of and whatever becomes of it, every record stays the record of
its node, the local record and the records of the Peers of the domain stay as they are unless they
are the sender's, every other record that is not the sender's keeps its clock and its registration,
with the time of the last direct contact kept or reset, and the records that the packet adds about
others have never been seen. -/
theorem rumours_are_not_evidence (heartbeat : Heartbeat)
    (own : heartbeat.members.localNode.id = heartbeat.localNode.id) (payload : List UInt8)
    (source : NodeID) (clocks : Clocks) :
    let before := heartbeat.members.members
    let after := (applyPacket heartbeat payload source true clocks).1.members.members
    (∀ (position : Nat) old, before[position]? = some old → ∃ new, after[position]? = some new ∧
      new.id = old.id ∧ (old.id = heartbeat.localNode.id → new = old) ∧
      (old.node.role = .peer → old.home = heartbeat.localNode.id → old.id ≠ source → new = old) ∧
      (old.id ≠ source → new.observedMs = old.observedMs ∧
        new.localRegistration = old.localRegistration ∧
        (new.lastSeen = old.lastSeen ∨ new.lastSeen = 0))) ∧
    ∀ (position : Nat) new, before.length ≤ position → after[position]? = some new →
      new.id ≠ source → new.lastSeen = 0 := by
  intro before after
  have spread : Spread heartbeat.localNode.id source before after := by
    obtain ⟨calls, _, _, _, _, same, -, made⟩ :=
      applyPacket_calls heartbeat payload source true clocks
    have table : after = (heartbeat.members.calls calls).members := by
      show (applyPacket heartbeat payload source true clocks).1.members.members = _
      rw [same]
    rw [table, ← own]
    refine spread_calls fun call inside other sameLocal => ?_
    rw [← sameLocal]
    rcases made with none | ⟨sender, batch, evidence, rumours, rfl, read, shown, told⟩
    · rw [none] at inside
      cases inside
    · obtain ⟨sent, remote⟩ := (accepted_of_decodePacket read).sent
      rw [← own, ← sameLocal] at remote
      rcases List.mem_append.mp inside with first | later
      · have registers : ∀ {discovery}, DiscoveryCalls sender discovery → call ∈ discovery →
            Spread other.localNode.id source other.members (other.call call).members := by
          intro discovery discovered among
          obtain ⟨_, now, wall, rfl⟩ := discovered call among
          exact spread_register sent remote sender.home sender.incarnation now wall
        obtain ⟨discovery, discovered, same | ⟨now, wall, same, _⟩⟩ := shown
        · rw [same] at first
          exact registers discovered first
        · rw [same] at first
          rcases List.mem_append.mp first with registering | beating
          · exact registers discovered registering
          · rw [List.mem_singleton.mp beating]
            exact spread_heartbeat sent remote now wall
      · obtain ⟨record, now, rfl, ⟨input, decoded⟩, _, _⟩ := told call later
        exact spread_merge (gossipDecodeRecord_eq_ok decoded).2.1 now
  constructor
  · intro position old found
    obtain ⟨new, place, hearsay⟩ := spread.held position old found
    exact ⟨new, place, hearsay.id_eq, hearsay.ownRecord, hearsay.ownPeer, hearsay.clocks⟩
  · exact spread.added

end Packets

/-- The first packet of a neighbour, received by another one. -/
theorem rumours_are_not_evidence_first_packet :
    letI := Inet.reference; letI := Sha256.reference; letI := Process.first
    ∃ payload, (encodePacket (firstStart 2) true).2 = .ok payload ∧
      (applyPacket (firstStart 1) payload (neighbour 2).id true ⟨fun _ => 0, fun _ => 0⟩).2 = .ok () ∧
      ∀ (position : Nat) new, (firstStart 1).members.members.length ≤ position →
        (applyPacket (firstStart 1) payload (neighbour 2).id true
          ⟨fun _ => 0, fun _ => 0⟩).1.members.members[position]? = some new →
        new.id ≠ (neighbour 2).id → new.lastSeen = 0 := by
  let inet := Inet.reference
  let sha := Sha256.reference
  let process := Process.first
  obtain ⟨own, accepted⟩ :
      (firstStart 1).members.localNode.id = (firstStart 1).localNode.id ∧
      ((encodePacket (firstStart 2) true).2.toOption.any fun payload =>
        decide ((applyPacket (firstStart 1) payload (neighbour 2).id true
          ⟨fun _ => 0, fun _ => 0⟩).2 = .ok ())) = true := by
    decide +kernel
  cases sent : (encodePacket (firstStart 2) true).2 with
  | error code =>
    rw [sent] at accepted
    cases accepted
  | ok payload =>
    rw [sent] at accepted
    exact ⟨payload, rfl, of_decide_eq_true accepted,
      (rumours_are_not_evidence (firstStart 1) own payload (neighbour 2).id _).2⟩

end SuperPeerNet
