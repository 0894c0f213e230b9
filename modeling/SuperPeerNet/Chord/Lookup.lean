/-
This file shows that lookups in a correct ring end in time. In such a ring every successor and
every finger is the first node from the place on that it stands for.

The measure is the way to the last node before the key. A node that is not the last one itself
routes to its finger at the largest power of two that does not pass it, so each hop takes more
than half of the way, and a way of `2 ^ 256 - 2` steps, the longest that there is, takes at most
`255` hops. The last node names the owner in one more call, which is why neither the loop of
`find_from` nor that of the client ever runs out of hops.
-/

import SuperPeerNet.Chord.Pointers
import Mathlib.Data.Nat.Log
import Mathlib.Order.WellFounded

namespace SuperPeerNet

/-! ### Correct rings -/

/-- Follow the routes to a key for a number of calls: the nodes that are visited and the owner
that the last of them names. -/
def routeFrom (chords : NodeID → Chord) (key : NodeID) : Nat → NodeID →
    List NodeID × Option ChordPeer
  | 0, _ => ([], none)
  | calls + 1, site =>
    let hop := chordRoute (chords site) key
    if hop.2 then ([site], some hop.1)
    else
      let later := routeFrom chords key calls hop.1.id
      (site :: later.1, later.2)

/-- The last node of a ring that lies before a key. -/
def LastBefore (ring : Set NodeID) (key last : NodeID) : Prop :=
  last ∈ ring ∧ ∀ other ∈ ring, around last key ≤ around other key

theorem exists_lastBefore {ring : Set NodeID} {start : NodeID} (inRing : start ∈ ring)
    (key : NodeID) : ∃ last, LastBefore ring key last := by
  obtain ⟨last, inside, least⟩ :=
    (measure fun id => around id key).wf.has_min ring ⟨start, inRing⟩
  exact ⟨last, inside, fun other member => Nat.le_of_not_lt (least other member)⟩

section Lookup

variable [Inet] [Sha256]

/-- A ring whose successors and fingers are correct. -/
structure CorrectRing (configs : NodeID → NodeConfig) (ring : Set NodeID)
    (chords : NodeID → Chord) : Prop where
  usable : ∀ site ∈ ring, UsablePeer (descriptorOf configs site)
  own : ∀ site ∈ ring, (chords site).localPeer = descriptorOf configs site
  successor : ∀ site ∈ ring, ∃ id, FirstFrom ring (chordIdAddPower site firstFinger) id ∧
    (chords site).successor = descriptorOf configs id
  fingers : ∀ site ∈ ring, ∀ index, ∃ id, FirstFrom ring (chordIdAddPower site index) id ∧
    (chords site).fingers index = descriptorOf configs id

variable {configs : NodeID → NodeConfig} {ring : Set NodeID} {chords : NodeID → Chord}
  {site key last : NodeID}

/-- A correct ring routes to its nodes. -/
theorem CorrectRing.routed (correct : CorrectRing configs ring chords) (inRing : site ∈ ring)
    (key : NodeID) : ∃ id ∈ ring, (chordRoute (chords site) key).1 = descriptorOf configs id := by
  rcases chordRoute_among (chords site) key with own | following | ⟨index, finger⟩
  · exact ⟨site, inRing, own.trans (correct.own site inRing)⟩
  · obtain ⟨id, first, pointed⟩ := correct.successor site inRing
    exact ⟨id, first.1, following.trans pointed⟩
  · obtain ⟨id, first, pointed⟩ := correct.fingers site inRing index
    exact ⟨id, first.1, finger.trans pointed⟩

/-- The owner that a node of a correct ring names is the right one. -/
theorem CorrectRing.owner (correct : CorrectRing configs ring chords) (inRing : site ∈ ring)
    (complete : (chordRoute (chords site) key).2 = true) :
    ∃ id, (chordRoute (chords site) key).1 = descriptorOf configs id ∧ FirstFrom ring key id := by
  obtain ⟨id, inside, named⟩ := correct.routed inRing key
  have here : (chords site).localPeer.id = site := by
    rw [correct.own site inRing]
    rfl
  obtain ⟨next, first, pointed⟩ := correct.successor site inRing
  have ahead : ∀ anchor ∈ ring, around site (chords site).successor.id ≤ around site anchor := by
    rw [pointed]
    exact fits_next_iff.mp first.2
  have fits := chordRoute_fits here ahead key complete
  rw [named] at fits
  exact ⟨id, named, inside, fits⟩

/-! ### One hop -/

omit [Inet] [Sha256] in
/-- The finger to which a node routes: it precedes the key, and the fingers above it do not. -/
theorem closestFinger_eq {chord : Chord} {index : Fin chordFingerCount}
    (precedes : chord.precedes key (chord.fingers index))
    (above : ∀ other, index < other → ¬ chord.precedes key (chord.fingers other))
    {count : Nat} (inside : count ≤ chordFingerCount) (below : index.val < count) :
    chord.closestFinger key count inside = some (chord.fingers index) := by
  induction count with
  | zero => cases below
  | succ count inductionHypothesis =>
    rw [Chord.closestFinger]
    by_cases same : index.val = count
    · subst same
      rw [if_pos precedes]
    · rw [if_neg (above ⟨count, inside⟩ (by rw [Fin.lt_def]; dsimp only; omega))]
      exact inductionHypothesis (Nat.le_of_lt inside) (by omega)

omit [Inet] [Sha256] in
/-- What a node knows that cannot name the owner. -/
theorem chordRoute_going {chord : Chord} (going : (chordRoute chord key).2 = false) :
    key ≠ chord.localPeer.id ∧ chord.successor.id ≠ chord.localPeer.id ∧
      ¬ chordIntervalOpenClosed chord.localPeer.id chord.successor.id key ∧
      (chordRoute chord key).1 =
        (chord.closestFinger key chordFingerCount le_rfl).getD chord.successor := by
  unfold chordRoute at going ⊢
  split at going
  · cases going
  · rename_i apart
    split at going
    · cases going
    · rename_i unowned
      rw [if_neg apart, if_neg unowned]
      exact ⟨apart, fun alone => unowned (Or.inl alone),
        fun between => unowned (Or.inr between), rfl⟩

/-- A hop: the way to the last node before the key loses the largest power of two in it. -/
theorem CorrectRing.hop (correct : CorrectRing configs ring chords) (inRing : site ∈ ring)
    (latest : LastBefore ring key last) (going : (chordRoute (chords site) key).2 = false) :
    clockwise site last < clockwise site key ∧
    ∃ id ∈ ring, (chordRoute (chords site) key).1 = descriptorOf configs id ∧
    ∃ bit, clockwise site last < 2 ^ (bit + 1) ∧
      clockwise id last + 2 ^ bit ≤ clockwise site last := by
  obtain ⟨inLast, nearest⟩ := latest
  obtain ⟨keyApart, succApart, unowned, routes⟩ := chordRoute_going going
  have here : (chords site).localPeer.id = site := by
    rw [correct.own site inRing]
    rfl
  obtain ⟨next, first, pointed⟩ := correct.successor site inRing
  rw [here] at keyApart succApart unowned
  rw [pointed] at succApart unowned
  have fromSite : position site ≠ position key := fun same => keyApart (position_injective same).symm
  have passes : around site next < around site key :=
    Nat.lt_of_not_le fun within => unowned ((chordIntervalOpenClosed_iff _ _ _).mpr within)
  -- the last node is another one, since the successor comes after this one
  have lastApart : last ≠ site := by
    rintro rfl
    exact absurd (nearest next first.1) (Nat.not_le_of_lt
      (Circle.arc_lt_arc (position_lt _) (position_lt _) (position_lt _) fromSite passes))
  have ahead : around site last < around site key :=
    Circle.arc_lt_of_arc_le (position_lt _) (position_lt _) fromSite
      (fun same => lastApart (position_injective same)) (nearest site inRing)
  have way : around site last = clockwise site last := around_of_ne lastApart.symm
  have positive : clockwise site last ≠ 0 := fun zero => lastApart
    (position_injective ((Circle.gap_eq_zero_iff (position_lt _)).mp zero)).symm
  have short : clockwise site last < ringSize := Circle.gap_lt (position_lt _) (position_lt _)
  refine ⟨by rwa [way, around_of_ne (Ne.symm keyApart)] at ahead, ?_⟩
  have power := Nat.pow_log_le_self 2 positive
  have bound := Nat.lt_pow_succ_log_self Nat.one_lt_two (clockwise site last)
  have inside : Nat.log 2 (clockwise site last) < chordFingerCount :=
    (Nat.pow_lt_pow_iff_right Nat.one_lt_two).mp (Nat.lt_of_le_of_lt power short)
  -- the start of a finger lies as far ahead as its power of two
  have start : ∀ index : Fin chordFingerCount,
      clockwise site (chordIdAddPower site index) = 2 ^ index.val := by
    intro index
    rw [clockwise, position_chordIdAddPower]
    exact Circle.gap_add_mod (position_lt _) (Nat.pow_lt_pow_right Nat.one_lt_two index.isLt)
  obtain ⟨id, chosen, finger⟩ := correct.fingers site inRing ⟨_, inside⟩
  obtain ⟨beyond, parts⟩ := Circle.gap_add_of_first (position_lt site) (position_lt id)
    (position_lt last) (position_lt _) (le_of_eq_of_le (start ⟨_, inside⟩) power)
    (chosen.2 last inLast)
  have reaches : 2 ^ Nat.log 2 (clockwise site last) ≤ clockwise site id :=
    le_of_eq_of_le (start ⟨_, inside⟩).symm beyond
  have total : clockwise site id + clockwise id last = clockwise site last := parts
  have idApart : id ≠ site := by
    rintro rfl
    rw [clockwise_self] at reaches
    exact absurd reaches (Nat.not_le_of_lt (Nat.two_pow_pos _))
  have precedes : (chords site).precedes key ((chords site).fingers ⟨_, inside⟩) := by
    rw [finger, Chord.precedes, here, chordIntervalOpenOpen_iff]
    have near : around site id ≤ around site last := by
      rw [around_of_ne idApart.symm, way]
      omega
    exact ⟨idApart, Nat.lt_of_le_of_lt near ahead⟩
  have above : ∀ other, (⟨_, inside⟩ : Fin chordFingerCount) < other →
      ¬ (chords site).precedes key ((chords site).fingers other) := by
    intro other larger before
    obtain ⟨far, first, pointed⟩ := correct.fingers site inRing other
    rw [pointed, Chord.precedes, here, chordIntervalOpenOpen_iff] at before
    have near : clockwise site far ≤ clockwise site last :=
      Circle.gap_le_of_last (position_lt _) (position_lt _) (position_lt _) (position_lt _)
        before.2 fromSite (nearest far first.1) ahead
    have away := Circle.gap_le_of_first (position_lt site) (position_lt _)
      (fun same => before.1 (position_injective same)) (first.2 site inRing)
    have power : 2 ^ other.val ≤ clockwise site far :=
      le_of_eq_of_le (start other).symm away
    have larger : 2 ^ (Nat.log 2 (clockwise site last) + 1) ≤ 2 ^ other.val :=
      Nat.pow_le_pow_right Nat.two_pos larger
    omega
  refine ⟨id, chosen.1, ?_, _, bound, by omega⟩
  rw [routes, closestFinger_eq precedes above le_rfl inside, finger]
  rfl

/-! ### The whole route -/

/-- A route to the owner: nodes of the ring, each closer to the last node before the key. -/
structure RouteTo (ring : Set NodeID) (last : NodeID) (path : List NodeID) (first : NodeID) :
    Prop where
  inside : ∀ id ∈ path, id ∈ ring ∧ clockwise id last ≤ clockwise first last
  closer : path.Pairwise fun earlier later => clockwise later last < clockwise earlier last

/-- A way that is short enough for a number of hops is followed to the owner. -/
theorem CorrectRing.routeFrom (correct : CorrectRing configs ring chords)
    (latest : LastBefore ring key last) (hops : Nat) (inRing : site ∈ ring)
    (short : (chordRoute (chords site) key).2 = false → clockwise site last + 2 ≤ 2 ^ (hops + 1)) :
    ∃ path owner, SuperPeerNet.routeFrom chords key (hops + 1) site =
        (path, some (descriptorOf configs owner)) ∧ FirstFrom ring key owner ∧
      path.length ≤ hops + 1 ∧ RouteTo ring last path site := by
  induction hops generalizing site with
  | zero =>
    cases complete : (chordRoute (chords site) key).2 with
    | false =>
      -- a way of no steps is not shortened by a hop
      obtain ⟨-, id, -, -, bit, -, shorter⟩ := correct.hop inRing latest complete
      have positive := Nat.two_pow_pos bit
      have none := short complete
      omega
    | true =>
      obtain ⟨owner, named, first⟩ := correct.owner inRing complete
      refine ⟨[site], owner, ?_, first, Nat.le_refl _, ?_, List.pairwise_singleton _ _⟩
      · rw [SuperPeerNet.routeFrom]
        simp only [complete, if_true, named]
      · intro id only
        rw [List.mem_singleton.mp only]
        exact ⟨inRing, Nat.le_refl _⟩
  | succ hops inductionHypothesis =>
    cases complete : (chordRoute (chords site) key).2 with
    | true =>
      obtain ⟨owner, named, first⟩ := correct.owner inRing complete
      refine ⟨[site], owner, ?_, first, by simp, ?_, List.pairwise_singleton _ _⟩
      · rw [SuperPeerNet.routeFrom]
        simp only [complete, if_true, named]
      · intro id only
        rw [List.mem_singleton.mp only]
        exact ⟨inRing, Nat.le_refl _⟩
    | false =>
      obtain ⟨-, id, inside, named, bit, bound, shorter⟩ := correct.hop inRing latest complete
      have whole := short complete
      have positive := Nat.two_pow_pos bit
      have half : clockwise id last + 2 ≤ 2 ^ (hops + 1) := by
        by_cases top : bit = hops + 1
        · rw [top] at shorter
          rw [pow_succ 2 (hops + 1)] at whole
          omega
        · have small : bit < hops + 1 := by
            have exponent : bit < hops + 2 :=
              (Nat.pow_lt_pow_iff_right Nat.one_lt_two).mp (show 2 ^ bit < 2 ^ (hops + 1 + 1) by omega)
            omega
          have power : 2 ^ (bit + 1) ≤ 2 ^ (hops + 1) := Nat.pow_le_pow_right Nat.two_pos small
          rw [pow_succ] at bound power
          omega
      obtain ⟨path, owner, routed, first, length, members, closer⟩ :=
        inductionHypothesis inside fun _ => half
      refine ⟨site :: path, owner, ?_, first, Nat.succ_le_succ length, ?_, ?_⟩
      · rw [SuperPeerNet.routeFrom]
        simp only [complete, Bool.false_eq_true, if_false, named]
        rw [show (descriptorOf configs id).id = id from rfl, routed]
      · intro other among
        rcases List.mem_cons.mp among with rfl | later
        · exact ⟨inRing, Nat.le_refl _⟩
        · obtain ⟨member, near⟩ := members other later
          exact ⟨member, by omega⟩
      · refine List.pairwise_cons.mpr ⟨fun other later => ?_, closer⟩
        have near := (members other later).2
        omega

/-! ### The loops -/

omit [Inet] [Sha256] in
/-- A route that names an owner begins where it starts. -/
theorem mem_routeFrom {calls : Nat} {path : List NodeID} {owner : ChordPeer}
    (routed : SuperPeerNet.routeFrom chords key calls site = (path, some owner)) : site ∈ path := by
  cases calls with
  | zero => cases routed
  | succ calls =>
    rw [SuperPeerNet.routeFrom] at routed
    dsimp only at routed
    split at routed
    · cases routed
      exact List.mem_singleton_self site
    · rw [← (Prod.mk.inj routed).1]
      exact List.mem_cons_self

variable [Process]

/-- What a node of a correct ring answers when it is asked for a route. -/
theorem CorrectRing.serves_route (correct : CorrectRing configs ring chords) (inRing : site ∈ ring)
    {id : NodeID} (inside : id ∈ ring)
    (named : (chordRoute (chords site) key).1 = descriptorOf configs id)
    (source destination : Option NodeID) :
    chordServe (chords site) (rpcRequest source destination .chordRoute key.toList) = (chords site,
      .ok (sendReply site (rpcRequest source destination .chordRoute key.toList)
        (.ok (.chordRoute, (if (chordRoute (chords site) key).2 then 1 else 0) ::
          joinBytes (descriptorOf configs id).config)))) := by
  have length : key.toList.length = nodeIdSize := Octets.length_toList key
  have read : Octets.read nodeIdSize key.toList = key := Octets.read_toList key
  have here : (chords site).localPeer.id = site := by
    rw [correct.own site inRing]
    rfl
  have encoded := encodePeer_of_usable (correct.usable id inside)
  simp only [chordServe, chordNetworkHandle, rpcRequest, length, read, if_true, named, encoded, here]
  rfl

/-- What a node of a correct ring answers when it is asked for itself. -/
theorem CorrectRing.serves_info (correct : CorrectRing configs ring chords) (inRing : site ∈ ring)
    (source destination : Option NodeID) :
    chordServe (chords site) (rpcRequest source destination .chordInfo []) = (chords site,
      .ok (sendReply site (rpcRequest source destination .chordInfo [])
        (.ok (.chordInfo, joinBytes (descriptorOf configs site).config)))) := by
  have encoded := encodePeer_of_usable (correct.usable site inRing)
  simp only [chordServe, chordNetworkHandle, rpcRequest, List.length_nil, if_true,
    correct.own site inRing, encoded]
  rfl

variable {Result : Type} {home : NodeID} {path : List NodeID} {owner : ChordPeer}

/-- The loop of `find_from` follows the route to the owner. -/
theorem CorrectRing.run_findFrom [NormalizingInet] (correct : CorrectRing configs ring chords)
    {localPeer : ChordPeer} (own : localPeer.id = home)
    (next : Except Errno ChordPeer → ChordDialogue Result) {calls hops : Nat}
    {visited : List NodeID} (inRing : site ∈ ring)
    (routed : SuperPeerNet.routeFrom chords key calls site = (path, some owner))
    (enough : calls ≤ hops) (distinct : path.Nodup) (fresh : ∀ id ∈ path, id ∉ visited) :
    Dialogue.run chordServe home chords
        (findFrom localPeer key next hops visited (descriptorOf configs site)) =
      Dialogue.run chordServe home chords (next (.ok owner)) := by
  induction calls generalizing hops visited site path with
  | zero => cases routed
  | succ calls inductionHypothesis =>
    obtain ⟨hops, rfl⟩ : ∃ fewer, hops = fewer + 1 := ⟨hops - 1, by omega⟩
    have unvisited : (descriptorOf configs site).id ∉ visited := fresh site (mem_routeFrom routed)
    obtain ⟨id, inside, named⟩ := correct.routed inRing key
    have follow : Dialogue.run chordServe home chords
        (followRoute localPeer (descriptorOf configs site)
          (findFrom localPeer key next hops (visited ++ [site])) next
          (chordRoute (chords site) key)) =
        Dialogue.run chordServe home chords (next (.ok owner)) := by
      rw [SuperPeerNet.routeFrom] at routed
      dsimp only at routed
      unfold followRoute
      split at routed
      · rename_i complete
        have isOwner : (chordRoute (chords site) key).1 = owner :=
          Option.some.inj (congrArg Prod.snd routed)
        rw [if_pos complete, isOwner]
        split
        · -- the owner confirms that it is there
          rw [← isOwner, named, callPeer, descriptorOf_id,
            run_rpcCall home (fun _ same => (Option.some.inj same).symm)
              (correct.serves_info inside _ _)]
          have confirmed : confirms (sendReply id (rpcRequest (some localPeer.id)
              (some id) .chordInfo [])
              (.ok (.chordInfo, joinBytes (descriptorOf configs id).config)))
              (descriptorOf configs id) = true := by
            simp [confirms, sendReply, decodePeer_of_usable (correct.usable id inside)]
          simp only [confirmed, if_true]
        · rfl
      · rename_i going
        obtain ⟨later, rest⟩ := Prod.mk.inj routed
        have onwards : SuperPeerNet.routeFrom chords key calls id =
            ((SuperPeerNet.routeFrom chords key calls id).1, some owner) := by
          rw [named] at rest
          exact Prod.ext rfl rest
        rw [named] at later
        have apart : id ≠ site := by
          rintro rfl
          rw [← later] at distinct
          exact (List.nodup_cons.mp distinct).1 (mem_routeFrom onwards)
        rw [if_neg going, named, if_neg (show ¬ (descriptorOf configs id).id =
          (descriptorOf configs site).id from apart)]
        refine inductionHypothesis inside onwards (by omega) ?_ fun other among => ?_
        · rw [← later] at distinct
          exact (List.nodup_cons.mp distinct).2
        · have inPath : other ∈ path := later ▸ List.mem_cons_of_mem site among
          intro seen
          rcases List.mem_append.mp seen with before | now
          · exact fresh other inPath before
          · rw [← later, List.nodup_cons] at distinct
            exact distinct.1 (List.mem_singleton.mp now ▸ among)
    show Dialogue.run chordServe home chords
      (if (descriptorOf configs site).id ∈ visited then next (.error .eloop) else _) = _
    rw [if_neg unvisited]
    by_cases atHome : site = home
    · rw [if_pos (show (descriptorOf configs site).id = localPeer.id from atHome.trans own.symm),
        Dialogue.run_read, ← atHome]
      rw [← atHome] at follow
      exact follow
    · rw [if_neg (show ¬ (descriptorOf configs site).id = localPeer.id from
          fun same => atHome (same.trans own)), callPeer, descriptorOf_id,
        run_rpcCall home (fun _ same => (Option.some.inj same).symm)
          (correct.serves_route inRing inside named _ _)]
      simp only [routeAnswer_sendReply (correct.usable id inside)]
      rw [← named]
      exact follow

/-- The loop of the client follows the route to the owner. -/
theorem CorrectRing.run_lookupFrom [NormalizingInet] (correct : CorrectRing configs ring chords)
    (home : NodeID) {calls hops : Nat} {visited : List NodeID} (inRing : site ∈ ring)
    (routed : SuperPeerNet.routeFrom chords key calls site = (path, some owner))
    (enough : calls ≤ hops) (distinct : path.Nodup) (fresh : ∀ id ∈ path, id ∉ visited) :
    Dialogue.run chordServe home chords (lookupFrom key hops visited site) =
      (chords, .ok (visited.length + path.length, owner)) := by
  induction calls generalizing hops visited site path with
  | zero => cases routed
  | succ calls inductionHypothesis =>
    obtain ⟨hops, rfl⟩ : ∃ fewer, hops = fewer + 1 := ⟨hops - 1, by omega⟩
    have unvisited : site ∉ visited := fresh site (mem_routeFrom routed)
    obtain ⟨id, inside, named⟩ := correct.routed inRing key
    have decoded := decodePeer_of_usable (correct.usable id inside)
    have length : (joinBytes (descriptorOf configs id).config).length + 1 = chordRouteWireSize := by
      rw [length_joinBytes, chordRouteWireSize, Nat.add_comm]
    show Dialogue.run chordServe home chords
      (rpcCall site none none .chordRoute key.toList _) = _
    rw [run_rpcCall home (fun _ none => by cases none)
      (correct.serves_route inRing inside named _ _)]
    rw [SuperPeerNet.routeFrom] at routed
    dsimp only at routed
    cases complete : (chordRoute (chords site) key).2 with
    | true =>
      rw [complete, if_pos rfl, named] at routed
      cases routed
      have small : ¬ (1 : UInt8) > 1 := by decide
      have set : (1 : UInt8) ≠ 0 := by decide
      simp only [sendReply, ne_eq, not_true_eq_false, if_false, if_true, List.getD_cons_zero,
        List.drop_one, List.tail_cons, List.length_cons, length, decoded, unvisited, or_self, small,
        set, not_false_eq_true, Dialogue.run, Function.update_eq_self, List.length_nil]
    | false =>
      rw [complete, if_neg Bool.false_ne_true, named] at routed
      obtain ⟨later, rest⟩ := Prod.mk.inj routed
      have onwards : SuperPeerNet.routeFrom chords key calls id =
          ((SuperPeerNet.routeFrom chords key calls id).1, some owner) := Prod.ext rfl rest
      subst later
      obtain ⟨apart, distinct⟩ := List.nodup_cons.mp distinct
      have unseen : ∀ other ∈ (SuperPeerNet.routeFrom chords key calls id).1,
          other ∉ visited ++ [site] := by
        intro other among seen
        rcases List.mem_append.mp seen with before | now
        · exact fresh other (List.mem_cons_of_mem site among) before
        · exact apart (List.mem_singleton.mp now ▸ among)
      have again := inductionHypothesis inside onwards (Nat.le_of_succ_le_succ enough) distinct
        unseen
      have small : ¬ (0 : UInt8) > 1 := by decide
      simp only [sendReply, ne_eq, not_true_eq_false, Bool.false_eq_true, if_false,
        List.getD_cons_zero, List.drop_one, List.tail_cons, List.length_cons, length, decoded,
        unvisited, or_self, small]
      rw [descriptorOf_id, again, List.length_append, List.length_singleton]
      rw [Nat.add_assoc, Nat.add_comm 1]

/-- Lookups in a correct ring end in time: from every node and for every key, the routes visit no
node twice and name the owner within as many calls as there are fingers, and neither the loop of
`find_from` at any node nor that of the client gives up. -/
theorem lookups_end_in_time [NormalizingInet] (correct : CorrectRing configs ring chords)
    {start : NodeID} (inRing : start ∈ ring) (key : NodeID) :
    ∃ path owner, SuperPeerNet.routeFrom chords key chordFingerCount start =
        (path, some (descriptorOf configs owner)) ∧ FirstFrom ring key owner ∧
      path.Nodup ∧ path.length ≤ chordFingerCount ∧
      (∀ localPeer : ChordPeer, Dialogue.run chordServe localPeer.id chords
        (findFrom localPeer key (fun found => .done fun chord => (chord, found))
          (chordFingerCount + 1) [] (descriptorOf configs start)) =
        (chords, .ok (descriptorOf configs owner))) ∧
      ∀ home, Dialogue.run chordServe home chords (lookupCommand start key) =
        (chords, .ok (path.length, descriptorOf configs owner)) := by
  obtain ⟨last, latest⟩ := exists_lastBefore inRing key
  obtain ⟨path, owner, routed, first, length, inside, closer⟩ :=
    correct.routeFrom latest 255 inRing fun going => by
      have ahead := (correct.hop inRing latest going).1
      have bound : clockwise start key < ringSize :=
        Circle.gap_lt (position_lt start) (position_lt key)
      have size : ringSize = 2 ^ (255 + 1) := rfl
      omega
  have distinct : path.Nodup := closer.imp fun nearer same => by
    rw [same] at nearer
    exact Nat.lt_irrefl _ nearer
  have fresh : ∀ id ∈ path, id ∉ ([] : List NodeID) := fun _ _ => List.not_mem_nil
  refine ⟨path, owner, routed, first, distinct, length, fun localPeer => ?_, fun home => ?_⟩
  · have found := correct.run_findFrom (rfl : localPeer.id = localPeer.id)
      (fun found => .done fun chord => (chord, found)) inRing routed (Nat.le_succ _) distinct fresh
    rw [Dialogue.run, Function.update_eq_self] at found
    exact found
  · have found := correct.run_lookupFrom home inRing routed le_rfl distinct fresh
    rw [List.length_nil, Nat.zero_add] at found
    exact found

end Lookup

/-- A node of a ring of two finds the owner of the position of the other one. -/
theorem lookups_end_in_time_pair :
    letI := Inet.reference; letI := Sha256.reference; letI := Process.first
    ∃ path owner, routeFrom pairChord (neighbour 2).id chordFingerCount (neighbour 1).id =
        (path, some (descriptorOf pairConfigs owner)) ∧ FirstFrom pairRing (neighbour 2).id owner ∧
      ∀ home, Dialogue.run chordServe home pairChord
          (lookupCommand (neighbour 1).id (neighbour 2).id) =
        (pairChord, .ok (path.length, descriptorOf pairConfigs owner)) := by
  let inet := Inet.reference
  let sha := Sha256.reference
  let process := Process.first
  have lawful : NormalizingInet := Inet.reference_lawful.toNormalizingInet
  have correct : CorrectRing pairConfigs pairRing pairChord := {
    usable := pairRing_usable
    own := fun _ _ => rfl
    successor := fun _ _ => ⟨_, pairOwner_first _, rfl⟩
    fingers := fun _ _ _ => ⟨_, pairOwner_first _, rfl⟩ }
  obtain ⟨path, owner, routed, first, -, -, -, client⟩ :=
    lookups_end_in_time correct (Or.inl rfl) (neighbour 2).id
  exact ⟨path, owner, routed, first, client⟩

end SuperPeerNet
