/-
This file settles which successor `chord_repair` picks.

The loop compares identities as numbers, with a flag for the side of the local node that they lie
on. That comparison is one of clockwise distances from the local node, so the loop finds the first
candidate at the smallest distance. Two candidates at the same distance have the same identity; they
need not have the same configuration, since an identity is computed from the binary address and an
address may have several spellings.
-/

import Mathlib.Data.List.Induction
import SuperPeerNet.Chord.State

namespace SuperPeerNet

section Repair

variable {chord : Chord}

/-- A candidate that the loop does not skip. -/
def Chord.Eligible (chord : Chord) (peer : ChordPeer) : Prop :=
  peer.id ≠ chord.localPeer.id ∧ peer.id ∉ chord.unavailable

instance (chord : Chord) (peer : ChordPeer) : Decidable (chord.Eligible peer) :=
  inferInstanceAs (Decidable (_ ∧ _))

/-- The clockwise distance of a candidate from the local node. -/
def Chord.distance (chord : Chord) (peer : ChordPeer) : Nat :=
  clockwise chord.localPeer.id peer.id

/-- The distance is the difference of the identities, modulo `2 ^ 256`. -/
theorem distance_eq (chord : Chord) (peer : ChordPeer) :
    (chord.distance peer : Int) =
      ((position peer.id : Int) - position chord.localPeer.id) % 2 ^ 256 := by
  have inLocal := position_lt chord.localPeer.id
  have inPeer := position_lt peer.id
  unfold Chord.distance clockwise Circle.gap ringSize at *
  split_ifs <;> omega

/-- Candidates at the same distance have the same identity. -/
theorem id_of_distance {first second : ChordPeer}
    (same : chord.distance first = chord.distance second) : first.id = second.id :=
  position_injective (Circle.gap_left_cancel (position_lt _) (position_lt _) (position_lt _) same)

/-! ### The loop finds the smallest distance -/

/-- The comparison of the loop is one of distances. -/
theorem precedes_iff {peer best : ChordPeer} (peerApart : peer.id ≠ chord.localPeer.id)
    (bestApart : best.id ≠ chord.localPeer.id) :
    ((nodeIdCompare peer.id chord.localPeer.id = .gt ∧
          ¬ nodeIdCompare best.id chord.localPeer.id = .gt) ∨
        ((nodeIdCompare peer.id chord.localPeer.id = .gt ↔
            nodeIdCompare best.id chord.localPeer.id = .gt) ∧
          nodeIdCompare peer.id best.id = .lt)) ↔
      chord.distance peer < chord.distance best := by
  have inLocal := position_lt chord.localPeer.id
  have inPeer := position_lt peer.id
  have inBest := position_lt best.id
  have peerPlace : position peer.id ≠ position chord.localPeer.id :=
    fun same => peerApart (position_injective same)
  have bestPlace : position best.id ≠ position chord.localPeer.id :=
    fun same => bestApart (position_injective same)
  simp only [nodeIdCompare_eq, Nat.compare_eq_gt, Nat.compare_eq_lt]
  unfold Chord.distance clockwise Circle.gap
  split_ifs <;> omega

/-- Whether a candidate is skipped depends on its identity. -/
theorem Chord.Eligible.of_id {first second : ChordPeer} (eligible : chord.Eligible first)
    (same : second.id = first.id) : chord.Eligible second := by
  unfold Chord.Eligible at eligible ⊢
  rw [same]
  exact eligible

/-- The first candidate at the smallest distance from the local node. -/
structure Nearest (chord : Chord) (alive : List ChordPeer) (peer : ChordPeer) : Prop where
  eligible : chord.Eligible peer
  closest : ∀ other ∈ alive, chord.Eligible other → chord.distance peer ≤ chord.distance other
  first : ∃ before after, alive = before ++ peer :: after ∧ ∀ other ∈ before, other.id ≠ peer.id

/-- A candidate that is closer than all before it. -/
theorem nearest_concat {alive : List ChordPeer} {peer : ChordPeer} (eligible : chord.Eligible peer)
    (closer : ∀ other ∈ alive, chord.Eligible other → chord.distance peer < chord.distance other) :
    Nearest chord (alive ++ [peer]) peer where
  eligible := eligible
  closest := by
    intro other member otherEligible
    rcases List.mem_append.mp member with old | new
    · exact (closer other old otherEligible).le
    · rw [List.mem_singleton.mp new]
  first := by
    refine ⟨alive, [], rfl, fun other member same => ?_⟩
    have nearer := closer other member (eligible.of_id same)
    unfold Chord.distance at nearer
    rw [same] at nearer
    exact lt_irrefl _ nearer

/-- A candidate that is not closer than the nearest one so far, or is skipped. -/
theorem Nearest.concat {alive : List ChordPeer} {best peer : ChordPeer}
    (nearest : Nearest chord alive best)
    (further : chord.Eligible peer → chord.distance best ≤ chord.distance peer) :
    Nearest chord (alive ++ [peer]) best where
  eligible := nearest.eligible
  closest := by
    intro other member eligible
    rcases List.mem_append.mp member with old | new
    · exact nearest.closest other old eligible
    · obtain rfl := List.mem_singleton.mp new
      exact further eligible
  first := by
    obtain ⟨before, after, rfl, first⟩ := nearest.first
    exact ⟨before, after ++ [peer], by simp, first⟩

theorem repairStep_of_skipped {peer : ChordPeer} (skipped : ¬ chord.Eligible peer)
    (selected : Option ChordPeer) : chord.repairStep selected peer = selected := by
  unfold Chord.Eligible at skipped
  rw [not_and_or, not_not, not_not] at skipped
  exact if_pos skipped

theorem repairStep_none {peer : ChordPeer} (eligible : chord.Eligible peer) :
    chord.repairStep none peer = some peer :=
  if_neg (not_or.mpr eligible)

theorem repairStep_some {best peer : ChordPeer} (eligible : chord.Eligible peer)
    (bestEligible : chord.Eligible best) :
    chord.repairStep (some best) peer =
      if chord.distance peer < chord.distance best then some peer else some best := by
  unfold Chord.repairStep
  rw [if_neg (not_or.mpr eligible)]
  exact if_congr (precedes_iff eligible.1 bestEligible.1) rfl rfl

/-- What the loop has selected after some candidates. The induction goes over them from the last one,
which the loop has looked at last. -/
theorem nearest_foldl (chord : Chord) (alive : List ChordPeer) :
    match alive.foldl chord.repairStep none with
    | none => ∀ other ∈ alive, ¬ chord.Eligible other
    | some best => Nearest chord alive best := by
  induction alive using List.reverseRecOn with
  | nil => exact nofun
  | append_singleton alive peer inductionHypothesis =>
    rw [List.foldl_concat]
    generalize alive.foldl chord.repairStep none = selected at inductionHypothesis
    cases selected with
    | none =>
      by_cases eligible : chord.Eligible peer
      · rw [repairStep_none eligible]
        exact nearest_concat eligible fun other member otherEligible =>
          absurd otherEligible (inductionHypothesis other member)
      · rw [repairStep_of_skipped eligible]
        intro other member
        rcases List.mem_append.mp member with old | new
        · exact inductionHypothesis other old
        · rw [List.mem_singleton.mp new]
          exact eligible
    | some best =>
      have nearest : Nearest chord alive best := inductionHypothesis
      by_cases eligible : chord.Eligible peer
      · rw [repairStep_some eligible nearest.eligible]
        by_cases closer : chord.distance peer < chord.distance best
        · rw [if_pos closer]
          exact nearest_concat eligible fun other member otherEligible =>
            closer.trans_le (nearest.closest other member otherEligible)
        · rw [if_neg closer]
          exact nearest.concat fun _ => not_lt.mp closer
      · rw [repairStep_of_skipped eligible]
        exact nearest.concat fun wrong => absurd wrong eligible

/-! ### The successor after a repair -/

/-- The successor that a list of candidates calls for: the first candidate that minimises
`(id - local) mod 2^256`, or the local node if every candidate is skipped. -/
inductive TrueSuccessor (chord : Chord) (alive : List ChordPeer) : ChordPeer → Prop
  | candidate (before after : List ChordPeer) (peer : ChordPeer)
      (split : alive = before ++ peer :: after) (eligible : chord.Eligible peer)
      (closest : ∀ other ∈ alive, chord.Eligible other →
        ((position peer.id : Int) - position chord.localPeer.id) % 2 ^ 256 ≤
          ((position other.id : Int) - position chord.localPeer.id) % 2 ^ 256)
      (first : ∀ other ∈ before, other.id ≠ peer.id) : TrueSuccessor chord alive peer
  | alone (skipped : ∀ other ∈ alive, ¬ chord.Eligible other) :
      TrueSuccessor chord alive chord.localPeer

theorem trueSuccessor_foldl (chord : Chord) (alive : List ChordPeer) :
    TrueSuccessor chord alive ((alive.foldl chord.repairStep none).getD chord.localPeer) := by
  have selected := nearest_foldl chord alive
  cases found : alive.foldl chord.repairStep none with
  | none =>
    rw [found] at selected
    exact .alone selected
  | some best =>
    rw [found] at selected
    have nearest : Nearest chord alive best := selected
    obtain ⟨before, after, split, first⟩ := nearest.first
    refine .candidate before after best split nearest.eligible (fun other member eligible => ?_) first
    rw [← distance_eq, ← distance_eq]
    exact Int.ofNat_le.mpr (nearest.closest other member eligible)

/-- The identity of the successor does not depend on the order of the candidates. -/
theorem TrueSuccessor.id_of_perm {alive others : List ChordPeer} {first second : ChordPeer}
    (picked : TrueSuccessor chord alive first) (other : TrueSuccessor chord others second)
    (permuted : alive.Perm others) : first.id = second.id := by
  have here : ∀ {before after : List ChordPeer} {peer : ChordPeer},
      peer ∈ before ++ peer :: after := by simp
  cases picked with
  | candidate before after peer split eligible closest =>
    subst split
    cases other with
    | candidate otherBefore otherAfter otherPeer otherSplit otherEligible otherClosest =>
      subst otherSplit
      have le := closest second (permuted.mem_iff.mpr here) otherEligible
      have ge := otherClosest first (permuted.mem_iff.mp here) eligible
      rw [← distance_eq, ← distance_eq] at le ge
      have same : chord.distance first = chord.distance second :=
        Nat.le_antisymm (Int.ofNat_le.mp le) (Int.ofNat_le.mp ge)
      exact id_of_distance same
    | alone skipped => exact absurd eligible (skipped first (permuted.mem_iff.mp here))
  | alone skipped =>
    cases other with
    | candidate otherBefore otherAfter otherPeer otherSplit otherEligible =>
      subst otherSplit
      exact absurd otherEligible (skipped second (permuted.mem_iff.mpr here))
    | alone => rfl

/-- If all candidates with the identity of the successor are one record, then the order of the
candidates makes no difference. -/
theorem TrueSuccessor.eq_of_perm {alive others : List ChordPeer} {first second : ChordPeer}
    (picked : TrueSuccessor chord alive first) (other : TrueSuccessor chord others second)
    (permuted : alive.Perm others)
    (unique : ∀ twin ∈ alive, twin.id = first.id → twin = first) : second = first := by
  have same := picked.id_of_perm other permuted
  cases other with
  | candidate before after peer split =>
    subst split
    exact unique second (permuted.mem_iff.mpr (by simp)) same.symm
  | alone skipped =>
    cases picked with
    | candidate before after peer split eligible =>
      exact absurd same eligible.1
    | alone => rfl

variable [Inet] [Sha256]

/-- `chord_repair` sets the successor and the first finger to the true successor among valid
candidates. In another order they give a successor with the same identity, and the same result if
all candidates with that identity are one record. -/
theorem chord_repair_picks (chord : Chord) {alive : List ChordPeer}
    (valid : alive.all validPeer = true) :
    (chordRepair chord alive).2 = .ok () ∧
      TrueSuccessor chord alive (chordRepair chord alive).1.successor ∧
      (chordRepair chord alive).1.fingers firstFinger = (chordRepair chord alive).1.successor ∧
      ∀ others, alive.Perm others →
        (chordRepair chord others).1.successor.id = (chordRepair chord alive).1.successor.id ∧
          ((∀ twin ∈ alive, twin.id = (chordRepair chord alive).1.successor.id →
              twin = (chordRepair chord alive).1.successor) →
            chordRepair chord others = chordRepair chord alive) := by
  have repaired : ∀ list : List ChordPeer, list.all validPeer = true → chordRepair chord list =
      (chord.withSuccessor ((list.foldl chord.repairStep none).getD chord.localPeer), .ok ()) := by
    intro list validList
    rw [chordRepair, if_neg (by rw [validList]; decide)]
  have picked := trueSuccessor_foldl chord alive
  rw [repaired alive valid]
  refine ⟨rfl, picked, withSuccessor_first chord _, fun others permuted => ?_⟩
  have pickedOther := trueSuccessor_foldl chord others
  rw [repaired others (by rw [← permuted.all_eq, valid])]
  refine ⟨(picked.id_of_perm pickedOther permuted).symm, fun unique => ?_⟩
  rw [picked.eq_of_perm pickedOther permuted unique]

end Repair

/-- The IPv6 loopback address in two spellings, `::1` and `0:0:0:0:0:0:0:1`. -/
def loopbackSpellings : List (List UInt8) :=
  [[58, 58, 49], [48, 58, 48, 58, 48, 58, 48, 58, 48, 58, 48, 58, 48, 58, 49]]

/-- The address functions at these spellings, as they are documented. -/
@[reducible] def Inet.loopback : Inet where
  pton4 _ := none
  ntop4 _ := []
  pton6 ip := if ip ∈ loopbackSpellings then some (List.replicate 15 0 ++ [1]) else none
  ntop6 _ := [58, 58, 49]

/-- A node at the loopback address, with a port and a spelling of the address. -/
def loopbackPeer [Sha256] (port : UInt16) (spelling : List UInt8) : ChordPeer where
  id := Sha256.digest (List.replicate 15 0 ++ [1] ++ wirePutU16 port ++
    (Octets.fill nodeUuidSize 0).toList)
  config := ⟨spelling, port, Octets.fill nodeUuidSize 0⟩

/-- A node at the loopback address that knows no other node. -/
def loopbackChord [Sha256] : Chord :=
  chordCreate ⟨(loopbackPeer 4001 [58, 58, 49]).id, (loopbackPeer 4001 [58, 58, 49]).config, 1, .peer⟩

/-- A repair from one candidate given twice. -/
theorem chord_repair_one_candidate :
    letI := Inet.loopback; letI := Sha256.reference
    TrueSuccessor loopbackChord [loopbackPeer 4002 [58, 58, 49], loopbackPeer 4002 [58, 58, 49]]
      (chordRepair loopbackChord
        [loopbackPeer 4002 [58, 58, 49], loopbackPeer 4002 [58, 58, 49]]).1.successor := by
  exact (@chord_repair_picks Inet.loopback Sha256.reference _ _ (by decide +kernel)).2.1

/-- One candidate in two spellings of its address: the successor is spelled as in the first of the
two records. -/
theorem not_chord_repair_order_free :
    letI := Inet.loopback; letI := Sha256.reference
    ∃ alive others : List ChordPeer, alive.all validPeer = true ∧ alive.Perm others ∧
      (chordRepair loopbackChord alive).1.successor ≠
        (chordRepair loopbackChord others).1.successor := by
  let inet := Inet.loopback
  let sha256 := Sha256.reference
  refine ⟨loopbackSpellings.map (loopbackPeer 4002),
    (loopbackSpellings.map (loopbackPeer 4002)).reverse, by decide +kernel,
    (List.reverse_perm _).symm, by decide +kernel⟩

end SuperPeerNet
