/-
This file says what the pointers of a ring satisfy while nodes join it and maintain it, and shows
that the operations of a node keep it.

All of it is stated for a set of anchors, nodes of the ring that no successor passes by: a lookup
may find any node that comes before them. If the first node of the ring is the only anchor, this
is what nodes that join at the same time can rely on. If every node is an anchor, a successor is
the very next node, and a lookup finds the owner of the key.
-/

import SuperPeerNet.Chord.Network
import Mathlib.Data.Set.Insert
import Mathlib.Order.CompletePartialOrder

namespace SuperPeerNet

/-! ### Distances between nodes -/

theorem clockwise_self (id : NodeID) : clockwise id id = 0 := Circle.gap_self _ _

theorem around_self (id : NodeID) : around id id = ringSize := Circle.arc_self _ _

theorem around_of_ne {first second : NodeID} (apart : first ≠ second) :
    around first second = clockwise first second :=
  Circle.arc_of_ne fun same => apart (position_injective same)

theorem around_le (first second : NodeID) : around first second ≤ ringSize :=
  Circle.arc_le (position_lt first) (position_lt second)

/-- The next node after a node is the first one at or after the start of its first finger. -/
theorem around_eq (first second : NodeID) :
    around first second = clockwise (chordIdAddPower first firstFinger) second + 1 := by
  have moved := position_chordIdAddPower first firstFinger
  rw [clockwise, moved]
  exact Circle.arc_eq_gap_next (position_lt first) (position_lt second)

/-- The first node of a ring, clockwise, at or after a key. -/
def FirstFrom (ring : Set NodeID) (key id : NodeID) : Prop :=
  id ∈ ring ∧ ∀ other ∈ ring, clockwise key id ≤ clockwise key other

/-- The descriptor that a node gives of itself. -/
def descriptorOf (configs : NodeID → NodeConfig) (id : NodeID) : ChordPeer := ⟨id, configs id⟩

@[simp] theorem descriptorOf_id (configs : NodeID → NodeConfig) (id : NodeID) :
    (descriptorOf configs id).id = id := rfl

section Pointers

variable [Inet] [Sha256] (configs : NodeID → NodeConfig) (anchors : Set NodeID)

/-! ### What the pointers satisfy -/

/-- The descriptor of a node of the ring, as the node itself gives it. -/
structure Member (ring : Set NodeID) (peer : ChordPeer) : Prop where
  inside : peer.id ∈ ring
  own : peer.config = configs peer.id
  usable : UsablePeer peer

omit [Inet] [Sha256] in
/-- A node that comes before every anchor, from a key on. -/
def Fits (key : NodeID) (found : ChordPeer) : Prop :=
  ∀ anchor ∈ anchors, clockwise key found.id ≤ clockwise key anchor

/-- The pointers of a node of the ring. -/
structure Pointers (ring : Set NodeID) (site : NodeID) (chord : Chord) : Prop where
  here : chord.localPeer.id = site
  self : Member configs ring chord.localPeer
  successor : Member configs ring chord.successor
  ahead : ∀ anchor ∈ anchors, around site chord.successor.id ≤ around site anchor
  fingers : ∀ index, Member configs ring (chord.fingers index)
  predecessor : ∀ peer ∈ chord.predecessor, Member configs ring peer ∧ peer.id ≠ site
  available : chord.unavailable = []

/-- The pointers of a node that has not joined a ring yet. -/
structure Fresh (site : NodeID) (chord : Chord) : Prop where
  here : chord.localPeer.id = site
  own : chord.localPeer.config = configs site
  usable : UsablePeer chord.localPeer
  fingers : ∀ index, chord.fingers index = chord.localPeer
  predecessor : chord.predecessor = none
  available : chord.unavailable = []

omit [Inet] [Sha256] in
/-- How the pointers of a node of the ring change. -/
structure Advances (site : NodeID) (before after : Chord) : Prop where
  fingers : ∀ index, after.fingers index = before.fingers index ∨
    Fits anchors (chordIdAddPower site index) (after.fingers index)
  predecessor : after.predecessor = before.predecessor ∨
    ∃ closer, after.predecessor = some closer ∧
      ∀ old ∈ before.predecessor, clockwise closer.id site < clockwise old.id site

variable {configs anchors} {ring later : Set NodeID} {site : NodeID} {chord : Chord}
  {peer : ChordPeer}

theorem member_iff : Member configs ring peer ↔
    peer.id ∈ ring ∧ peer = descriptorOf configs peer.id ∧ UsablePeer peer :=
  ⟨fun member => ⟨member.inside, by rw [descriptorOf, ← member.own], member.usable⟩,
    fun ⟨inside, own, usable⟩ => ⟨inside, congrArg ChordPeer.config own, usable⟩⟩

theorem Member.mono (member : Member configs ring peer) (grown : ring ⊆ later) :
    Member configs later peer :=
  ⟨grown member.inside, member.own, member.usable⟩

theorem Pointers.mono (pointers : Pointers configs anchors ring site chord)
    (grown : ring ⊆ later) : Pointers configs anchors later site chord where
  here := pointers.here
  self := pointers.self.mono grown
  successor := pointers.successor.mono grown
  ahead := pointers.ahead
  fingers index := (pointers.fingers index).mono grown
  predecessor peer held :=
    ⟨(pointers.predecessor peer held).1.mono grown, (pointers.predecessor peer held).2⟩
  available := pointers.available

omit [Inet] [Sha256] in
theorem Advances.refl (site : NodeID) (chord : Chord) : Advances anchors site chord chord :=
  ⟨fun _ => Or.inl rfl, Or.inl rfl⟩

omit [Inet] [Sha256] in
/-- The successor that a node looks up is one that it may have. -/
theorem fits_next_iff {found : ChordPeer} :
    Fits anchors (chordIdAddPower site firstFinger) found ↔
      ∀ anchor ∈ anchors, around site found.id ≤ around site anchor := by
  constructor
  · intro fits anchor inside
    have ordered := fits anchor inside
    rw [around_eq, around_eq]
    omega
  · intro ahead anchor inside
    have ordered := ahead anchor inside
    rw [around_eq, around_eq] at ordered
    omega

/-! ### Routing -/

omit [Inet] [Sha256] in
theorem closestFinger_eq_some {key : NodeID} {count : Nat} {inside : count ≤ chordFingerCount}
    {finger : ChordPeer} (found : chord.closestFinger key count inside = some finger) :
    ∃ index, finger = chord.fingers index := by
  induction count with
  | zero => cases found
  | succ count inductionHypothesis =>
    rw [Chord.closestFinger] at found
    split at found
    · cases found
      exact ⟨_, rfl⟩
    · exact inductionHypothesis found

omit [Inet] [Sha256] in
/-- The owner that a node names is one that fits. -/
theorem chordRoute_fits (here : chord.localPeer.id = site)
    (ahead : ∀ anchor ∈ anchors, around site chord.successor.id ≤ around site anchor)
    (key : NodeID) (complete : (chordRoute chord key).2 = true) :
    Fits anchors key (chordRoute chord key).1 := by
  revert complete
  unfold chordRoute
  split
  · rename_i own
    intro _ anchor _
    rw [own, clockwise_self]
    exact Nat.zero_le _
  · split
    · rename_i owned
      intro _ anchor inside
      have within : around site key ≤ around site chord.successor.id := by
        rw [here] at owned
        rcases owned with alone | between
        · rw [alone, around_self]
          exact around_le site key
        · exact (chordIntervalOpenClosed_iff _ _ _).mp between
      exact Circle.gap_le_gap_of_arc_le (position_lt _) (position_lt _) (position_lt _)
        (position_lt _) within (ahead anchor inside)
    · exact nofun

omit [Inet] [Sha256] in
/-- A node only routes to nodes that it points to. -/
theorem chordRoute_among (chord : Chord) (key : NodeID) :
    (chordRoute chord key).1 = chord.localPeer ∨ (chordRoute chord key).1 = chord.successor ∨
      ∃ index, (chordRoute chord key).1 = chord.fingers index := by
  unfold chordRoute
  split
  · exact Or.inl rfl
  · split
    · exact Or.inr (Or.inl rfl)
    · cases found : chord.closestFinger key chordFingerCount le_rfl with
      | none => exact Or.inr (Or.inl rfl)
      | some finger => exact Or.inr (Or.inr (closestFinger_eq_some found))

/-- A node routes to nodes of the ring, and the owner that it names is one that fits. -/
theorem Pointers.route (pointers : Pointers configs anchors ring site chord) (key : NodeID) :
    Member configs ring (chordRoute chord key).1 ∧
      ((chordRoute chord key).2 = true → Fits anchors key (chordRoute chord key).1) := by
  refine ⟨?_, chordRoute_fits pointers.here pointers.ahead key⟩
  rcases chordRoute_among chord key with own | following | ⟨index, finger⟩
  · rw [own]
    exact pointers.self
  · rw [following]
    exact pointers.successor
  · rw [finger]
    exact pointers.fingers index

/-! ### Writing -/

/-- A node of the ring is not refused. -/
theorem accepting_of_member (available : chord.unavailable = [])
    (member : Member configs ring peer) (accepted : Chord) :
    chord.accepting peer accepted = (accepted, .ok ()) := by
  rw [Chord.accepting, validPeer_of_usable member.usable, available]
  rfl

/-- A finger becomes another node of the ring. -/
theorem Pointers.withFinger (pointers : Pointers configs anchors ring site chord)
    (member : Member configs ring peer) {index : Fin chordFingerCount}
    (fits : Fits anchors (chordIdAddPower site index) peer) :
    Pointers configs anchors ring site
        { chord with fingers := Function.update chord.fingers index peer } ∧
      Advances anchors site chord
        { chord with fingers := Function.update chord.fingers index peer } := by
  refine ⟨{ pointers with fingers := fun other => ?_ }, fun other => ?_, Or.inl rfl⟩
  · by_cases same : other = index
    · simp only [same, Function.update_self]
      exact member
    · simp only [Function.update_of_ne same]
      exact pointers.fingers other
  · by_cases same : other = index
    · simp only [same, Function.update_self]
      exact Or.inr fits
    · exact Or.inl (Function.update_of_ne same peer chord.fingers)

/-- A node of the ring gets a successor that it may have. -/
theorem Pointers.withSuccessor (pointers : Pointers configs anchors ring site chord)
    (member : Member configs ring peer)
    (ahead : ∀ anchor ∈ anchors, around site peer.id ≤ around site anchor) :
    Pointers configs anchors ring site (chord.withSuccessor peer) ∧
      Advances anchors site chord (chord.withSuccessor peer) := by
  obtain ⟨written, fingers, -⟩ := pointers.withFinger member (fits_next_iff.mpr ahead)
  exact ⟨{ written with successor := member, ahead := ahead }, fingers, Or.inl rfl⟩

/-- A node of the ring writes a finger that it has looked up. -/
theorem Pointers.setFinger (pointers : Pointers configs anchors ring site chord)
    (member : Member configs ring peer) {index : Fin chordFingerCount}
    (fits : Fits anchors (chordIdAddPower site index) peer) :
    Pointers configs anchors ring site (chordSetFinger chord index peer).1 ∧
      Advances anchors site chord (chordSetFinger chord index peer).1 := by
  rw [chordSetFinger, chordSetSuccessor, accepting_of_member pointers.available member,
    accepting_of_member pointers.available member]
  split
  · rename_i zero
    have first : index = firstFinger := Fin.ext zero
    rw [first] at fits
    exact pointers.withSuccessor member (fits_next_iff.mp fits)
  · exact pointers.withFinger member fits

/-- A node of the ring considers the predecessor of its successor. -/
theorem Pointers.considerPredecessor (pointers : Pointers configs anchors ring site chord)
    (member : Member configs ring peer) :
    Pointers configs anchors ring site (chordConsiderPredecessor chord peer).1 ∧
      Advances anchors site chord (chordConsiderPredecessor chord peer).1 := by
  rw [chordConsiderPredecessor, accepting_of_member pointers.available member]
  split
  · rename_i closer
    obtain ⟨apart, alone | between⟩ := closer
    · refine pointers.withSuccessor member fun anchor inside => ?_
      have ahead := pointers.ahead anchor inside
      rw [alone, pointers.here, around_self] at ahead
      exact Nat.le_trans (around_le site peer.id) ahead
    · rw [pointers.here] at between
      exact pointers.withSuccessor member fun anchor inside => Nat.le_trans
        (Nat.le_of_lt ((chordIntervalOpenOpen_iff _ _ _).mp between))
        (pointers.ahead anchor inside)
  · exact ⟨pointers, Advances.refl site chord⟩

/-- A node of the ring is told of a node before it. -/
theorem Pointers.notify (pointers : Pointers configs anchors ring site chord)
    (member : Member configs ring peer) :
    Pointers configs anchors ring site (chordNotify chord peer).1 ∧
      Advances anchors site chord (chordNotify chord peer).1 := by
  rw [chordNotify, accepting_of_member pointers.available member]
  split
  · rename_i closer
    obtain ⟨apart, between⟩ := closer
    rw [pointers.here] at apart between
    refine ⟨{ pointers with predecessor := ?_ }, fun _ => Or.inl rfl, Or.inr ⟨peer, rfl, ?_⟩⟩
    · intro written held
      cases held
      exact ⟨member, apart⟩
    · intro old held
      rw [Option.mem_def.mp held] at between
      exact Circle.gap_lt_gap_of_arc_lt (position_lt _) (position_lt _)
        (fun same => (pointers.predecessor old held).2 (position_injective same))
        ((chordIntervalOpenOpen_iff _ _ _).mp between)
  · exact ⟨pointers, Advances.refl site chord⟩

/-- After a node has been told of another one, its predecessor is not further away than that. -/
theorem Pointers.notified (pointers : Pointers configs anchors ring site chord)
    (member : Member configs ring peer) (apart : peer.id ≠ site) :
    ∃ closest ∈ (chordNotify chord peer).1.predecessor,
      clockwise closest.id site ≤ clockwise peer.id site := by
  rw [chordNotify, accepting_of_member pointers.available member]
  split
  · exact ⟨peer, rfl, Nat.le_refl _⟩
  · rename_i further
    rw [pointers.here] at further
    cases known : chord.predecessor with
    | none => exact absurd ⟨apart, by rw [known]; rfl⟩ further
    | some old =>
      refine ⟨old, rfl, ?_⟩
      have misses : ¬ chordIntervalOpenOpen old.id site peer.id := fun between =>
        further ⟨apart, by rw [known]; exact between⟩
      exact Circle.gap_le_gap_of_not_arc_lt (position_lt _) (position_lt _)
        (fun same => apart (position_injective same))
        fun passes => misses ((chordIntervalOpenOpen_iff _ _ _).mpr passes)

/-- A node joins the ring with a successor that it has looked up. -/
theorem Fresh.join (fresh : Fresh configs site chord) (absent : site ∉ ring)
    (anchored : anchors ⊆ ring) (member : Member configs ring peer)
    (fits : Fits anchors site peer) :
    Pointers configs anchors (insert site ring) site (chord.withSuccessor peer) := by
  have grown : ring ⊆ insert site ring := Set.subset_insert site ring
  have self : Member configs (insert site ring) chord.localPeer :=
    ⟨Set.mem_insert_iff.mpr (Or.inl fresh.here), by rw [fresh.own, fresh.here], fresh.usable⟩
  refine ⟨fresh.here, self, member.mono grown, ?_, ?_, ?_, fresh.available⟩
  · intro anchor inside
    have fromPeer : site ≠ peer.id := fun same => absent (same ▸ member.inside)
    have fromAnchor : site ≠ anchor := fun same => absent (same ▸ anchored inside)
    have near : around site peer.id ≤ around site anchor := by
      rw [around_of_ne fromPeer, around_of_ne fromAnchor]
      exact fits anchor inside
    exact near
  · intro index
    by_cases first : index = firstFinger
    · rw [first, withSuccessor_first]
      exact member.mono grown
    · rw [withSuccessor_of_ne _ _ first, fresh.fingers]
      exact self
  · intro other held
    exact absurd (fresh.predecessor ▸ held) (Option.not_mem_none other)

end Pointers

/-! ### A ring of two nodes -/

/-- The identities of a ring of two nodes. -/
def pairRing : Set NodeID := {(neighbour 1).id, (neighbour 2).id}

/-- The configurations of the two nodes. -/
def pairConfigs (id : NodeID) : NodeConfig :=
  if id = (neighbour 1).id then (neighbour 1).config else (neighbour 2).config

/-- The node of the two that comes first from a key on. -/
def pairOwner (key : NodeID) : NodeID :=
  if clockwise key (neighbour 1).id ≤ clockwise key (neighbour 2).id then (neighbour 1).id
  else (neighbour 2).id

/-- The pointers of a node of the two: all of them are correct, and it knows no predecessor. -/
def pairChord (site : NodeID) : Chord where
  localPeer := descriptorOf pairConfigs site
  successor := descriptorOf pairConfigs (pairOwner (chordIdAddPower site firstFinger))
  predecessor := none
  fingers index := descriptorOf pairConfigs (pairOwner (chordIdAddPower site index))
  unavailable := []

theorem pairOwner_first (key : NodeID) : FirstFrom pairRing key (pairOwner key) := by
  unfold pairOwner
  split
  · rename_i near
    refine ⟨Or.inl rfl, ?_⟩
    rintro other (rfl | rfl)
    · exact Nat.le_refl _
    · exact near
  · rename_i far
    refine ⟨Or.inr rfl, ?_⟩
    rintro other (rfl | rfl)
    · exact Nat.le_of_lt (Nat.lt_of_not_le far)
    · exact Nat.le_refl _

theorem pairRing_usable :
    letI := Inet.reference; letI := Sha256.reference
    ∀ site ∈ pairRing, UsablePeer (descriptorOf pairConfigs site) := by
  let inet := Inet.reference
  let sha := Sha256.reference
  obtain ⟨apart, firstBuilt, firstComputed, secondBuilt, secondComputed⟩ :
      (neighbour 2).id ≠ (neighbour 1).id ∧
      nodeConfigInitWithUuid (neighbour 1).config.ip 1 (Octets.read nodeUuidSize []) =
        .ok (neighbour 1).config ∧
      nodeComputeId (neighbour 1).config = .ok (neighbour 1).id ∧
      nodeConfigInitWithUuid (neighbour 2).config.ip 2 (Octets.read nodeUuidSize []) =
        .ok (neighbour 2).config ∧
      nodeComputeId (neighbour 2).config = .ok (neighbour 2).id := by
    decide +kernel
  rintro site (rfl | rfl)
  · have own : pairConfigs (neighbour 1).id = (neighbour 1).config := if_pos rfl
    rw [descriptorOf, own]
    exact ⟨⟨_, _, _, firstBuilt⟩, firstComputed⟩
  · have own : pairConfigs (neighbour 2).id = (neighbour 2).config := if_neg apart
    rw [descriptorOf, own]
    exact ⟨⟨_, _, _, secondBuilt⟩, secondComputed⟩

end SuperPeerNet
