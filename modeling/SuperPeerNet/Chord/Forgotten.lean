/-
This file shows that a node that has been forgotten stays out of the ring of a node: whatever
operations are called in whatever order, none of them brings its identity back before it is
allowed again. A reply that was under way when the node was forgotten arrives as one more
operation.

All operations that write a pointer look the identity up among the unavailable ones, and the local
identity is never one of them. So the pointers and the unavailable identities stay apart, and the
first finger is always the successor.
-/

import SuperPeerNet.Chord.Pointers

namespace SuperPeerNet

section Forgotten

variable [Inet] [Sha256]

/-! ### Operations -/

/-- The operations on the pointers of a node, with their arguments. -/
inductive ChordOperation where
  | setSuccessor (peer : ChordPeer)
  | notify (peer : ChordPeer)
  | considerPredecessor (candidate : ChordPeer)
  | setFinger (index : Nat) (peer : ChordPeer)
  | forget (id : NodeID)
  | allow (id : NodeID)
  | repair (alive : List ChordPeer)

/-- What an operation does. An index that is too large is refused. -/
def ChordOperation.apply (chord : Chord) : ChordOperation → Chord × Except Errno Unit
  | .setSuccessor peer => chordSetSuccessor chord peer
  | .notify peer => chordNotify chord peer
  | .considerPredecessor candidate => chordConsiderPredecessor chord candidate
  | .setFinger index peer => if inside : index < chordFingerCount then
      chordSetFinger chord ⟨index, inside⟩ peer else (chord, .error .einval)
  | .forget id => chordForget chord id
  | .allow id => (chordAllow chord id, .ok ())
  | .repair alive => chordRepair chord alive

omit [Inet] [Sha256] in
/-- The identities that have been forgotten successfully and not been allowed since. -/
def ChordOperation.forgotten (before : Set NodeID) (operation : ChordOperation)
    (result : Except Errno Unit) : Set NodeID :=
  match operation, result with
  | .forget id, .ok _ => insert id before
  | .allow id, _ => before \ {id}
  | _, _ => before

/-- The pointers and the forgotten identities after a sequence of operations. -/
def chordOperations (chord : Chord) (forgotten : Set NodeID) :
    List ChordOperation → Chord × Set NodeID
  | [] => (chord, forgotten)
  | operation :: rest => chordOperations (operation.apply chord).1
      (operation.forgotten forgotten (operation.apply chord).2) rest

/-! ### What the operations keep -/

omit [Inet] [Sha256] in
/-- The pointers of a node and the identities that it does not accept. -/
structure KeepsOut (chord : Chord) (forgotten : Set NodeID) : Prop where
  first : chord.fingers firstFinger = chord.successor
  self : chord.localPeer.id ∉ chord.unavailable
  successor : chord.successor.id ∉ chord.unavailable
  predecessor : ∀ peer ∈ chord.predecessor, peer.id ∉ chord.unavailable
  fingers : ∀ index, (chord.fingers index).id ∉ chord.unavailable
  refused : ∀ id ∈ forgotten, id ∈ chord.unavailable

variable {chord : Chord} {forgotten : Set NodeID} {peer : ChordPeer}

omit [Inet] [Sha256] in
theorem KeepsOut.withSuccessor (keeps : KeepsOut chord forgotten)
    (accepted : peer.id ∉ chord.unavailable) : KeepsOut (chord.withSuccessor peer) forgotten where
  first := withSuccessor_first chord peer
  self := keeps.self
  successor := accepted
  predecessor := keeps.predecessor
  fingers index := by
    by_cases first : index = firstFinger
    · rw [first, withSuccessor_first]
      exact accepted
    · rw [withSuccessor_of_ne _ _ first]
      exact keeps.fingers index
  refused := keeps.refused

/-- An operation that checks its argument keeps what it keeps for an argument that is accepted. -/
theorem KeepsOut.accepting (keeps : KeepsOut chord forgotten) {accepted : Chord}
    (written : peer.id ∉ chord.unavailable → KeepsOut accepted forgotten) :
    KeepsOut (chord.accepting peer accepted).1 forgotten := by
  unfold Chord.accepting
  split
  · exact keeps
  · split
    · exact keeps
    · rename_i available
      exact written available

theorem KeepsOut.setFinger (keeps : KeepsOut chord forgotten) (index : Fin chordFingerCount)
    (peer : ChordPeer) : KeepsOut (chordSetFinger chord index peer).1 forgotten := by
  unfold chordSetFinger
  split
  · exact keeps.accepting keeps.withSuccessor
  · rename_i later
    have apart : firstFinger ≠ index := fun same => later (Fin.ext_iff.mp same).symm
    refine keeps.accepting fun available => { keeps with first := ?_, fingers := fun other => ?_ }
    · exact (Function.update_of_ne apart peer chord.fingers).trans keeps.first
    · by_cases same : other = index
      · simp only [same, Function.update_self]
        exact available
      · simp only [Function.update_of_ne same]
        exact keeps.fingers other

omit [Inet] [Sha256] in
theorem KeepsOut.forget (keeps : KeepsOut chord forgotten) (id : NodeID) :
    KeepsOut (chordForget chord id).1
      ((ChordOperation.forget id).forgotten forgotten (chordForget chord id).2) := by
  unfold chordForget
  split
  · exact keeps
  · rename_i other
    have mem_iff : ∀ candidate, candidate ∈ (if id ∈ chord.unavailable then chord.unavailable
        else id :: chord.unavailable) ↔ candidate = id ∨ candidate ∈ chord.unavailable := by
      intro candidate
      split
      · rename_i known
        exact ⟨Or.inr, fun either => either.elim (fun same => same ▸ known) fun before => before⟩
      · exact List.mem_cons
    have outside : ∀ candidate, candidate ≠ id → candidate ∉ chord.unavailable →
        candidate ∉ (if id ∈ chord.unavailable then chord.unavailable
          else id :: chord.unavailable) := by
      intro candidate apart accepted inside
      exact ((mem_iff candidate).mp inside).elim apart accepted
    have self := outside _ (Ne.symm other) keeps.self
    refine ⟨?_, self, ?_, ?_, ?_, ?_⟩
    · simp only [keeps.first]
    · by_cases same : chord.successor.id = id
      · simp only [if_pos same]
        exact self
      · simp only [if_neg same]
        exact outside _ same keeps.successor
    · intro peer held
      obtain ⟨known, apart⟩ := Option.mem_filter_iff.mp held
      exact outside _ (of_decide_eq_true apart) (keeps.predecessor peer known)
    · intro index
      by_cases same : (chord.fingers index).id = id
      · simp only [if_pos same]
        exact self
      · simp only [if_neg same]
        exact outside _ same (keeps.fingers index)
    · intro candidate inside
      refine (mem_iff candidate).mpr ?_
      exact (Set.mem_insert_iff.mp inside).imp_right (keeps.refused candidate)

omit [Inet] [Sha256] in
theorem KeepsOut.allow (keeps : KeepsOut chord forgotten) (id : NodeID) :
    KeepsOut (chordAllow chord id) (forgotten \ {id}) where
  first := keeps.first
  self inside := keeps.self (List.mem_of_mem_erase inside)
  successor inside := keeps.successor (List.mem_of_mem_erase inside)
  predecessor peer held inside := keeps.predecessor peer held (List.mem_of_mem_erase inside)
  fingers index inside := keeps.fingers index (List.mem_of_mem_erase inside)
  refused candidate inside :=
    (List.mem_erase_of_ne inside.2).mpr (keeps.refused candidate inside.1)

omit [Inet] [Sha256] in
/-- The candidate of a repair is available. -/
theorem repairStep_available {selected : Option ChordPeer}
    (before : ∀ best ∈ selected, best.id ∉ chord.unavailable) :
    ∀ best ∈ chord.repairStep selected peer, best.id ∉ chord.unavailable := by
  unfold Chord.repairStep
  split
  · exact before
  · rename_i usable
    have available : peer.id ∉ chord.unavailable := fun inside => usable (Or.inr inside)
    intro best chosen
    split at chosen
    · cases chosen
      exact available
    · dsimp only at chosen
      split at chosen
      · cases chosen
        exact available
      · cases chosen
        exact before _ rfl

theorem KeepsOut.repair (keeps : KeepsOut chord forgotten) (alive : List ChordPeer) :
    KeepsOut (chordRepair chord alive).1 forgotten := by
  have selects : ∀ selected : Option ChordPeer,
      (∀ best ∈ selected, best.id ∉ chord.unavailable) →
      ∀ best ∈ alive.foldl chord.repairStep selected, best.id ∉ chord.unavailable := by
    induction alive with
    | nil => exact fun _ before => before
    | cons peer rest inductionHypothesis =>
      exact fun selected before => inductionHypothesis _ (repairStep_available before)
  unfold chordRepair
  split
  · exact keeps
  · refine keeps.withSuccessor ?_
    cases chosen : alive.foldl chord.repairStep none with
    | none => exact keeps.self
    | some best => exact selects none nofun best chosen

/-- Every operation keeps forgotten nodes out. -/
theorem KeepsOut.apply (keeps : KeepsOut chord forgotten) (operation : ChordOperation) :
    KeepsOut (operation.apply chord).1
      (operation.forgotten forgotten (operation.apply chord).2) := by
  cases operation with
  | setSuccessor peer => exact keeps.accepting keeps.withSuccessor
  | notify peer =>
    refine keeps.accepting fun available => ?_
    split
    · refine { keeps with predecessor := fun written held => ?_ }
      cases held
      exact available
    · exact keeps
  | considerPredecessor candidate =>
    refine keeps.accepting fun available => ?_
    split
    · exact keeps.withSuccessor available
    · exact keeps
  | setFinger index peer =>
    by_cases inside : index < chordFingerCount
    · simp only [ChordOperation.apply, dif_pos inside]
      exact keeps.setFinger ⟨index, inside⟩ peer
    · simp only [ChordOperation.apply, dif_neg inside]
      exact keeps
  | forget id => exact keeps.forget id
  | allow id => exact keeps.allow id
  | repair alive => exact keeps.repair alive

theorem KeepsOut.run (keeps : KeepsOut chord forgotten) (operations : List ChordOperation) :
    KeepsOut (chordOperations chord forgotten operations).1
      (chordOperations chord forgotten operations).2 := by
  induction operations generalizing chord forgotten with
  | nil => exact keeps
  | cons operation rest inductionHypothesis => exact inductionHypothesis (keeps.apply operation)

/-- Forgotten nodes stay out of the ring: after any operations on the pointers of a new node, the
first finger is the successor, and no identity that is forgotten is pointed to or routed to. -/
theorem forgotten_nodes_stay_out (node : Node) (operations : List ChordOperation) :
    let after := chordOperations (chordCreate node) ∅ operations
    after.1.fingers firstFinger = after.1.successor ∧
    ∀ id ∈ after.2, after.1.successor.id ≠ id ∧ (∀ peer ∈ after.1.predecessor, peer.id ≠ id) ∧
      (∀ index, (after.1.fingers index).id ≠ id) ∧ ∀ key, (chordRoute after.1 key).1.id ≠ id := by
  have created : KeepsOut (chordCreate node) ∅ :=
    ⟨rfl, List.not_mem_nil, List.not_mem_nil, nofun, fun _ => List.not_mem_nil, nofun⟩
  have keeps := created.run operations
  refine ⟨keeps.first, fun id inside => ?_⟩
  have refused := keeps.refused id inside
  refine ⟨fun same => keeps.successor (same ▸ refused),
    fun peer held same => keeps.predecessor peer held (same ▸ refused),
    fun index same => keeps.fingers index (same ▸ refused), fun key same => ?_⟩
  rcases chordRoute_among (chordOperations (chordCreate node) ∅ operations).1 key with
    own | following | ⟨index, finger⟩
  · exact keeps.self (own ▸ same ▸ refused)
  · exact keeps.successor (following ▸ same ▸ refused)
  · exact keeps.fingers index (finger ▸ same ▸ refused)

end Forgotten

end SuperPeerNet
