/-
This file models `chord.c`: the pointers of one node into the ring, the arithmetic of the ring
and the operations that read and write the pointers. Every operation holds the mutex of the
node, so each is one atomic step.

Identities are compared as byte strings and added byte by byte. The second half reads them as
positions on a circle of `2 ^ 256`, where the intervals of the code are comparisons of arcs.
-/

import SuperPeerNet.Library.Circle
import SuperPeerNet.Node

namespace SuperPeerNet

/-! ### The arithmetic of the ring -/

/-- `CHORD_FINGER_COUNT`. -/
def chordFingerCount : Nat := 256

/-- The loop of `chord_id_add_power`, from a byte on. -/
def addCarry : (index carry : Nat) → List UInt8 → List UInt8
  | 0, carry, bytes => bytes.set 0 (UInt8.ofNat ((bytes.getD 0 0).toNat + carry))
  | index + 1, carry, bytes =>
    let sum := (bytes.getD (index + 1) 0).toNat + carry
    let written := bytes.set (index + 1) (UInt8.ofNat sum)
    if sum >>> 8 = 0 then written else addCarry index (sum >>> 8) written

theorem length_addCarry (index carry : Nat) (bytes : List UInt8) :
    (addCarry index carry bytes).length = bytes.length := by
  induction index generalizing carry bytes with
  | zero => exact List.length_set
  | succ index inductionHypothesis =>
    rw [addCarry]
    split
    · exact List.length_set
    · rw [inductionHypothesis, List.length_set]

/-- `chord_id_add_power`. -/
def chordIdAddPower (base : NodeID) (bit : Fin chordFingerCount) : NodeID :=
  ⟨addCarry (31 - bit.val / 8) (1 <<< (bit.val % 8)) base.toList, by
    rw [length_addCarry]
    exact Octets.length_toList base⟩

/-- `chord_interval_open_closed`. -/
def chordIntervalOpenClosed (start stop value : NodeID) : Bool :=
  match nodeIdCompare start stop with
  | .eq => true
  | .lt => nodeIdCompare start value = .lt ∧ nodeIdCompare value stop ≠ .gt
  | .gt => nodeIdCompare start value = .lt ∨ nodeIdCompare value stop ≠ .gt

/-- `chord_interval_open_open`. -/
def chordIntervalOpenOpen (start stop value : NodeID) : Bool :=
  match nodeIdCompare start stop with
  | .eq => start ≠ value
  | .lt => nodeIdCompare start value = .lt ∧ nodeIdCompare value stop = .lt
  | .gt => nodeIdCompare start value = .lt ∨ nodeIdCompare value stop = .lt

/-! ### The pointers of a node -/

/-- `ChordPeer`. -/
structure ChordPeer where
  id : NodeID
  config : NodeConfig
  deriving DecidableEq

/-- `struct Chord`. The predecessor is there when `has_predecessor` is set. -/
structure Chord where
  localPeer : ChordPeer
  successor : ChordPeer
  predecessor : Option ChordPeer
  fingers : Fin chordFingerCount → ChordPeer
  unavailable : List NodeID

/-- `chord_create`: the successor and all fingers point to the node itself. -/
def chordCreate (node : Node) : Chord where
  localPeer := ⟨node.id, node.config⟩
  successor := ⟨node.id, node.config⟩
  predecessor := none
  fingers _ := ⟨node.id, node.config⟩
  unavailable := []

/-- The index of the finger that is the successor. -/
def firstFinger : Fin chordFingerCount := ⟨0, by decide⟩

/-- Write the successor and the first finger, which belong together. -/
def Chord.withSuccessor (chord : Chord) (peer : ChordPeer) : Chord :=
  { chord with successor := peer, fingers := Function.update chord.fingers firstFinger peer }

theorem withSuccessor_first (chord : Chord) (peer : ChordPeer) :
    (chord.withSuccessor peer).fingers firstFinger = peer := by
  unfold Chord.withSuccessor
  exact Function.update_self firstFinger peer chord.fingers

theorem withSuccessor_of_ne (chord : Chord) (peer : ChordPeer) {index : Fin chordFingerCount}
    (apart : index ≠ firstFinger) :
    (chord.withSuccessor peer).fingers index = chord.fingers index := by
  unfold Chord.withSuccessor
  exact Function.update_of_ne apart peer chord.fingers

section Operations

variable [Inet] [Sha256]

/-- `valid_peer`. -/
def validPeer (peer : ChordPeer) : Bool := nodeComputeId peer.config = .ok peer.id

/-- The checks that all operations on the pointers begin with, and what they do afterwards. -/
def Chord.accepting (chord : Chord) (peer : ChordPeer) (accepted : Chord) :
    Chord × Except Errno Unit :=
  if validPeer peer = false then (chord, .error .einval)
  else if peer.id ∈ chord.unavailable then (chord, .error .ehostunreach)
  else (accepted, .ok ())

/-- `chord_set_successor`. -/
def chordSetSuccessor (chord : Chord) (peer : ChordPeer) : Chord × Except Errno Unit :=
  chord.accepting peer (chord.withSuccessor peer)

/-- `chord_notify`. -/
def chordNotify (chord : Chord) (peer : ChordPeer) : Chord × Except Errno Unit :=
  chord.accepting peer
    (if peer.id ≠ chord.localPeer.id ∧ (chord.predecessor.all fun predecessor =>
        chordIntervalOpenOpen predecessor.id chord.localPeer.id peer.id) then
      { chord with predecessor := some peer }
    else chord)

/-- `chord_consider_predecessor`. -/
def chordConsiderPredecessor (chord : Chord) (candidate : ChordPeer) :
    Chord × Except Errno Unit :=
  chord.accepting candidate
    (if candidate.id ≠ chord.localPeer.id ∧ (chord.successor.id = chord.localPeer.id ∨
        chordIntervalOpenOpen chord.localPeer.id chord.successor.id candidate.id) then
      chord.withSuccessor candidate
    else chord)

/-- `chord_set_finger`. The first finger is the successor. -/
def chordSetFinger (chord : Chord) (index : Fin chordFingerCount) (peer : ChordPeer) :
    Chord × Except Errno Unit :=
  if index.val = 0 then chordSetSuccessor chord peer
  else chord.accepting peer { chord with fingers := Function.update chord.fingers index peer }

/-- A finger that lies strictly between the node and the key. -/
def Chord.precedes (chord : Chord) (key : NodeID) (finger : ChordPeer) : Prop :=
  finger.id ≠ chord.localPeer.id ∧ chordIntervalOpenOpen chord.localPeer.id key finger.id

instance (chord : Chord) (key : NodeID) (finger : ChordPeer) :
    Decidable (chord.precedes key finger) := inferInstanceAs (Decidable (_ ∧ _))

/-- The loop of `chord_route` over the fingers, from the last one downwards. -/
def Chord.closestFinger (chord : Chord) (key : NodeID) :
    (count : Nat) → count ≤ chordFingerCount → Option ChordPeer
  | 0, _ => none
  | index + 1, inside =>
    if chord.precedes key (chord.fingers ⟨index, inside⟩) then some (chord.fingers ⟨index, inside⟩)
    else chord.closestFinger key index (Nat.le_of_lt inside)

/-- `chord_route`: the owner of the key, or the closest known node before it. -/
def chordRoute (chord : Chord) (key : NodeID) : ChordPeer × Bool :=
  if key = chord.localPeer.id then (chord.localPeer, true)
  else if chord.successor.id = chord.localPeer.id ∨
      chordIntervalOpenClosed chord.localPeer.id chord.successor.id key then
    (chord.successor, true)
  else ((chord.closestFinger key chordFingerCount le_rfl).getD chord.successor, false)

/-- `chord_forget`: the id becomes unavailable, and no pointer to it is left. -/
def chordForget (chord : Chord) (id : NodeID) : Chord × Except Errno Unit :=
  if id = chord.localPeer.id then (chord, .error .eperm)
  else
    ({ chord with
        unavailable := if id ∈ chord.unavailable then chord.unavailable else id :: chord.unavailable
        predecessor := chord.predecessor.filter fun peer => peer.id ≠ id
        successor := if chord.successor.id = id then chord.localPeer else chord.successor
        fingers := fun index =>
          if (chord.fingers index).id = id then chord.localPeer else chord.fingers index }, .ok ())

/-- `chord_allow`. -/
def chordAllow (chord : Chord) (id : NodeID) : Chord :=
  { chord with unavailable := chord.unavailable.erase id }

/-- The body of the loop of `chord_repair`: the candidate so far, if there is one. -/
def Chord.repairStep (chord : Chord) (selected : Option ChordPeer) (peer : ChordPeer) :
    Option ChordPeer :=
  if peer.id = chord.localPeer.id ∨ peer.id ∈ chord.unavailable then selected
  else match selected with
    | none => some peer
    | some best =>
      let isAfter := nodeIdCompare peer.id chord.localPeer.id = .gt
      let bestAfter := nodeIdCompare best.id chord.localPeer.id = .gt
      if (isAfter ∧ ¬ bestAfter) ∨
          ((isAfter ↔ bestAfter) ∧ nodeIdCompare peer.id best.id = .lt) then some peer
      else some best

/-- `chord_repair`. -/
def chordRepair (chord : Chord) (alive : List ChordPeer) : Chord × Except Errno Unit :=
  if alive.all validPeer = false then (chord, .error .einval)
  else
    (chord.withSuccessor ((alive.foldl chord.repairStep none).getD chord.localPeer), .ok ())

end Operations

/-! ### Positions on the circle -/

/-- The number of positions. -/
def ringSize : Nat := 2 ^ 256

/-- The position of a node or a key. -/
def position (id : NodeID) : Nat := BigEndian.value id.toList

/-- The clockwise way from one identity to another. -/
def clockwise (first second : NodeID) : Nat :=
  Circle.gap ringSize (position first) (position second)

/-- The clockwise way from one identity to another that takes at least one step. -/
def around (first second : NodeID) : Nat :=
  Circle.arc ringSize (position first) (position second)

theorem position_lt (id : NodeID) : position id < ringSize := by
  have bound := BigEndian.value_lt id.toList
  rw [Octets.length_toList] at bound
  exact Nat.lt_of_lt_of_eq bound (by decide)

theorem position_injective {first second : NodeID} (same : position first = position second) :
    first = second := by
  refine Octets.toList_injective ?_
  have left := BigEndian.digits_value first.toList
  have right := BigEndian.digits_value second.toList
  rw [Octets.length_toList] at left right
  rw [← left, ← right]
  exact congrArg _ same

theorem memcmp_swap (left right : List UInt8) (length : left.length = right.length) :
    memcmp right left = (memcmp left right).swap := by
  induction left generalizing right with
  | nil =>
    rw [List.length_eq_zero_iff.mp length.symm]
    rfl
  | cons head rest inductionHypothesis =>
    cases right with
    | nil => cases length
    | cons other others =>
      rw [memcmp, memcmp, inductionHypothesis others (Nat.succ.inj length)]
      by_cases less : head < other
      · rw [if_pos less, if_neg (UInt8.lt_asymm less), if_pos less]
        rfl
      · rw [if_neg less, if_neg less]
        split
        · rfl
        · rfl

/-- Identities are compared as their positions. -/
theorem nodeIdCompare_eq (left right : NodeID) :
    nodeIdCompare left right = compare (position left) (position right) := by
  have length : left.toList.length = right.toList.length :=
    (Octets.length_toList left).trans (Octets.length_toList right).symm
  have greater := memcmp_eq_gt length
  have less := memcmp_eq_gt length.symm
  rw [memcmp_swap _ _ length] at less
  unfold nodeIdCompare position
  rcases Nat.lt_trichotomy (BigEndian.value left.toList) (BigEndian.value right.toList) with
    below | same | above
  · rw [Nat.compare_eq_lt.mpr below]
    cases outcome : memcmp left.toList right.toList with
    | lt => rfl
    | eq | gt =>
      have wrong := less.mpr below
      rw [outcome] at wrong
      cases wrong
  · rw [Nat.compare_eq_eq.mpr same]
    cases outcome : memcmp left.toList right.toList with
    | eq => rfl
    | gt => exact absurd (greater.mp outcome) (by omega)
    | lt => exact absurd (less.mp (by rw [outcome]; rfl)) (by omega)
  · rw [Nat.compare_eq_gt.mpr above]
    exact greater.mpr above

/-- The half-open interval as a comparison of arcs. -/
theorem chordIntervalOpenClosed_iff (start stop value : NodeID) :
    chordIntervalOpenClosed start stop value ↔ around start value ≤ around start stop := by
  have inStart := position_lt start
  have inStop := position_lt stop
  have inValue := position_lt value
  unfold chordIntervalOpenClosed around Circle.arc Circle.gap
  simp only [nodeIdCompare_eq]
  rcases Nat.lt_trichotomy (position start) (position stop) with below | same | above
  · rw [Nat.compare_eq_lt.mpr below]
    simp only [decide_eq_true_eq, ne_eq, Nat.compare_eq_lt, Nat.compare_eq_gt]
    split_ifs <;> omega
  · rw [Nat.compare_eq_eq.mpr same]
    simp only [true_iff]
    split_ifs <;> omega
  · rw [Nat.compare_eq_gt.mpr above]
    simp only [decide_eq_true_eq, ne_eq, Nat.compare_eq_lt, Nat.compare_eq_gt]
    split_ifs <;> omega

/-- The open interval as a comparison of arcs. -/
theorem chordIntervalOpenOpen_iff (start stop value : NodeID) :
    chordIntervalOpenOpen start stop value ↔ around start value < around start stop := by
  have inStart := position_lt start
  have inStop := position_lt stop
  have inValue := position_lt value
  unfold chordIntervalOpenOpen around Circle.arc Circle.gap
  simp only [nodeIdCompare_eq]
  rcases Nat.lt_trichotomy (position start) (position stop) with below | same | above
  · rw [Nat.compare_eq_lt.mpr below]
    simp only [decide_eq_true_eq, Nat.compare_eq_lt]
    split_ifs <;> omega
  · rw [Nat.compare_eq_eq.mpr same]
    have apart : start ≠ value ↔ position start ≠ position value :=
      not_congr ⟨congrArg position, position_injective⟩
    simp only [decide_eq_true_eq, apart]
    split_ifs <;> omega
  · rw [Nat.compare_eq_gt.mpr above]
    simp only [decide_eq_true_eq, Nat.compare_eq_lt]
    split_ifs <;> omega

/-! ### Adding a power of two -/

theorem value_set {bytes : List UInt8} {index : Nat} (inside : index < bytes.length)
    (byte : UInt8) :
    BigEndian.value (bytes.set index byte) +
        (bytes.getD index 0).toNat * 256 ^ (bytes.length - 1 - index) =
      BigEndian.value bytes + byte.toNat * 256 ^ (bytes.length - 1 - index) := by
  induction bytes generalizing index with
  | nil => cases inside
  | cons head rest inductionHypothesis =>
    cases index with
    | zero =>
      rw [List.set_cons_zero, BigEndian.value_cons, BigEndian.value_cons, List.getD_cons_zero,
        List.length_cons, Nat.add_sub_cancel, Nat.sub_zero]
      ring
    | succ index =>
      have step := inductionHypothesis (Nat.lt_of_succ_lt_succ inside)
      have exponent : (head :: rest).length - 1 - (index + 1) = rest.length - 1 - index := by
        rw [List.length_cons]
        omega
      rw [List.set_cons_succ, BigEndian.value_cons, BigEndian.value_cons, List.getD_cons_succ,
        exponent, List.length_set, Nat.add_assoc, step]
      ring

/-- Writing a byte of a sum leaves the rest of the sum for the next byte. -/
theorem value_set_carry {bytes : List UInt8} {index : Nat} (inside : index < bytes.length)
    (carry : Nat) :
    BigEndian.value bytes + carry * 256 ^ (bytes.length - 1 - index) =
      BigEndian.value
        (bytes.set index (UInt8.ofNat ((bytes.getD index 0).toNat + carry))) +
      (((bytes.getD index 0).toNat + carry) >>> 8) * 256 ^ (bytes.length - 1 - index + 1) := by
  have written := value_set inside (UInt8.ofNat ((bytes.getD index 0).toNat + carry))
  rw [UInt8.toNat_ofNat', show (2 : Nat) ^ 8 = 256 from rfl] at written
  have parts := congrArg (· * 256 ^ (bytes.length - 1 - index))
    (Nat.div_add_mod ((bytes.getD index 0).toNat + carry) 256)
  simp only [Nat.add_mul] at parts
  have rest : ((bytes.getD index 0).toNat + carry) >>> 8 =
      ((bytes.getD index 0).toNat + carry) / 256 := Nat.shiftRight_eq_div_pow _ 8
  rw [rest, pow_succ 256 (bytes.length - 1 - index)]
  linarith

/-- Adding with carry adds the carry at its place, up to the bytes that there are. -/
theorem value_addCarry {bytes : List UInt8} {index : Nat} (inside : index < bytes.length)
    (carry : Nat) :
    BigEndian.value (addCarry index carry bytes) =
      (BigEndian.value bytes + carry * 256 ^ (bytes.length - 1 - index)) % 256 ^ bytes.length := by
  induction index generalizing carry bytes with
  | zero =>
    have bound := BigEndian.value_lt
      (bytes.set 0 (UInt8.ofNat ((bytes.getD 0 0).toNat + carry)))
    rw [List.length_set] at bound
    have exponent : bytes.length - 1 - 0 + 1 = bytes.length := by omega
    rw [addCarry, value_set_carry inside, exponent, Nat.add_mul_mod_self_right,
      Nat.mod_eq_of_lt bound]
  | succ index inductionHypothesis =>
    have exponent : bytes.length - 1 - (index + 1) + 1 = bytes.length - 1 - index := by omega
    rw [value_set_carry inside, exponent, addCarry]
    split
    · rename_i done
      have bound := BigEndian.value_lt
        (bytes.set (index + 1) (UInt8.ofNat ((bytes.getD (index + 1) 0).toNat + carry)))
      rw [List.length_set] at bound
      simp only [done, Nat.zero_mul, Nat.add_zero]
      rw [Nat.mod_eq_of_lt bound]
    · rw [inductionHypothesis (by rw [List.length_set]; omega), List.length_set]

/-- `chord_id_add_power` adds on the circle. -/
theorem position_chordIdAddPower (base : NodeID) (bit : Fin chordFingerCount) :
    position (chordIdAddPower base bit) = (position base + 2 ^ bit.val) % ringSize := by
  have length : base.toList.length = 32 := Octets.length_toList base
  have small : bit.val < 256 := bit.isLt
  have place : 32 - 1 - (31 - bit.val / 8) = bit.val / 8 := by omega
  have power : 1 <<< (bit.val % 8) * 256 ^ (bit.val / 8) = 2 ^ bit.val := by
    rw [Nat.shiftLeft_eq, Nat.one_mul, show (256 : Nat) = 2 ^ 8 from rfl, ← pow_mul, ← pow_add,
      Nat.mod_add_div]
  have added := @value_addCarry base.toList (31 - bit.val / 8) (by omega) (1 <<< (bit.val % 8))
  rw [length, place, power, show (256 : Nat) ^ 32 = ringSize from rfl] at added
  exact added

/-! ### The ring in numbers -/

/-- A way around takes one step more than the remainder of what lies between. -/
theorem around_eq_emod (start value : NodeID) :
    (around start value : Int) =
      ((position value : Int) - position start - 1) % 2 ^ 256 + 1 := by
  have inStart := position_lt start
  have inValue := position_lt value
  unfold ringSize at inStart inValue
  unfold around Circle.arc Circle.gap ringSize
  split_ifs <;> omega

/-- `chord_id_add_power`, the two intervals and `node_id_compare` are arithmetic on the numbers that
the identities stand for. -/
theorem ring_arithmetic_exact :
    (∀ id : NodeID, position id < 2 ^ 256) ∧ Function.Injective position ∧
    (∀ (base : NodeID) (bit : Fin chordFingerCount),
      position (chordIdAddPower base bit) = (position base + 2 ^ bit.val) % 2 ^ 256) ∧
    (∀ start stop value : NodeID, chordIntervalOpenClosed start stop value ↔
      ((position value : Int) - position start - 1) % 2 ^ 256 ≤
        ((position stop : Int) - position start - 1) % 2 ^ 256) ∧
    (∀ start stop value : NodeID, chordIntervalOpenOpen start stop value ↔
      ((position value : Int) - position start - 1) % 2 ^ 256 <
        ((position stop : Int) - position start - 1) % 2 ^ 256) ∧
    ∀ left right : NodeID, nodeIdCompare left right = compare (position left) (position right) := by
  refine ⟨position_lt, fun _ _ => position_injective, position_chordIdAddPower,
    fun start stop value => ?_, fun start stop value => ?_, nodeIdCompare_eq⟩
  · have ways := around_eq_emod start value
    have whole := around_eq_emod start stop
    rw [chordIntervalOpenClosed_iff]
    omega
  · have ways := around_eq_emod start value
    have whole := around_eq_emod start stop
    rw [chordIntervalOpenOpen_iff]
    omega

end SuperPeerNet
