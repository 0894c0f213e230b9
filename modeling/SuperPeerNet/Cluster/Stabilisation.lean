/-
This file proves when an election ends with everyone following the highest live super peer.

The tables of members agree on who is alive, and no message is lost from now on. A node is restless
if a later tick of it requests an election by itself. As long as some node is restless and the
recoveries succeed, every two rounds of ticks raise the term of the highest node, until no term is
later and everyone follows it. If no node is restless, nothing ever changes again: a node that has
missed a proclamation follows a live node that is not the leader, one whose recovery from the leader
has failed follows nobody, and no tick corrects it.
-/

import SuperPeerNet.Cluster.Leaders
import SuperPeerNet.Library.Leads

namespace SuperPeerNet

variable {Context : Type}

/-! ### Restless and united -/

/-- A node that requests an election by itself, at once or when its timer has run out. -/
def Restless (top node : NodeID) (cluster : C4Cluster Context) : Prop :=
  cluster.electionRequested = true ∨ cluster.electionWaiting = true ∨ leaderLost cluster = true ∨
    cluster.leader = node ∧ node ≠ top

instance (top node : NodeID) (cluster : C4Cluster Context) :
    Decidable (Restless top node cluster) :=
  inferInstanceAs (Decidable (_ ∨ _ ∨ _ ∨ _ ∧ _))

/-- The nodes all follow the highest one, and no election is under way. -/
def United (ids : List NodeID) (top : NodeID) (cluster : NodeID → C4Cluster Context) : Prop :=
  ∀ node ∈ ids, (cluster node).leader = top ∧ (cluster node).electionRequested = false ∧
    (cluster node).electionWaiting = false

/-- What holds of assembled nodes from one tick to the next. Only a node that an election has
reached is without a leader, and no node is in a later term than a live leader it names. -/
structure Steady (ids : List NodeID) (top : NodeID) (since : Int)
    (cluster : NodeID → C4Cluster Context) : Prop where
  assembled : Assembled ids top cluster
  known : ∀ node ∈ ids, (cluster node).leader = zeroNodeId ∨ (cluster node).leader ∈ ids ∨
    leaderLost (cluster node) = true
  above : ∀ node ∈ ids, (cluster node).leader ∈ ids →
    position node ≤ position (cluster node).leader
  backed : ∀ node ∈ ids, (cluster node).leader ∈ ids →
    (cluster node).term ≤ (cluster (cluster node).leader).term
  awake : ∀ node ∈ ids, (cluster node).leader = zeroNodeId →
    (cluster node).electionRequested = true ∨ (cluster node).electionWaiting = true
  timers : ∀ node ∈ ids, (cluster node).electionWaiting = true →
    (cluster node).electionStartedMs ≤ since

/-! ### When a tick requests an election -/

theorem dropLostLeader_of_kept {cluster : C4Cluster Context} (kept : leaderLost cluster = false) :
    dropLostLeader cluster = cluster := by
  rw [dropLostLeader, if_neg]
  rw [kept]
  exact Bool.false_ne_true

theorem dropLostLeader_requested {cluster : C4Cluster Context} (lost : leaderLost cluster = true) :
    (dropLostLeader cluster).electionRequested = true := by
  rw [dropLostLeader, if_pos lost]

theorem yieldToHigher_requested (members : List SuperPeerMember) (cluster : C4Cluster Context) :
    (yieldToHigher members cluster).electionRequested = true ↔
      cluster.electionRequested = true ∨
        cluster.leader = cluster.localId ∧ members.any (isHigherSuperpeer cluster) = true := by
  unfold yieldToHigher
  split
  · rename_i leads
    exact iff_of_true rfl (Or.inr leads)
  · rename_i follows
    exact (or_iff_left follows).symm

theorem retryElection_requested (now : Int) (cluster : C4Cluster Context) :
    (retryElection now cluster).electionRequested = true ↔
      cluster.electionRequested = true ∨ cluster.electionWaiting = true ∧
        now - cluster.electionStartedMs ≥ c4ElectionRetryMs := by
  unfold retryElection
  split
  · rename_i late
    exact iff_of_true rfl (Or.inr late)
  · rename_i early
    exact (or_iff_left early).symm

theorem yieldToHigher_timer (members : List SuperPeerMember) (cluster : C4Cluster Context) :
    (yieldToHigher members cluster).electionWaiting = cluster.electionWaiting ∧
      (yieldToHigher members cluster).electionStartedMs = cluster.electionStartedMs := by
  unfold yieldToHigher
  split <;> exact ⟨rfl, rfl⟩

theorem tickChecks_requested (now : Int) (members : List SuperPeerMember)
    (cluster : C4Cluster Context) :
    (tickChecks now members cluster).electionRequested = true ↔
      cluster.electionRequested = true ∨ leaderLost cluster = true ∨
        (cluster.leader = cluster.localId ∧ members.any (isHigherSuperpeer cluster) = true) ∨
        cluster.electionWaiting = true ∧
          now - cluster.electionStartedMs ≥ c4ElectionRetryMs := by
  rw [tickChecks, retryElection_requested, yieldToHigher_requested]
  cases lost : leaderLost cluster with
  | true =>
    exact iff_of_true (Or.inl (Or.inl (dropLostLeader_requested lost))) (Or.inr (Or.inl rfl))
  | false =>
    obtain ⟨waiting, started⟩ := yieldToHigher_timer members cluster
    rw [dropLostLeader_of_kept lost, waiting, started, or_assoc]
    exact or_congr_right (or_iff_right Bool.false_ne_true).symm

section Ticks

variable {ids : List NodeID} {top node : NodeID} {since later now : Int} {greatest reached : Nat}
  {before after cluster : NodeID → C4Cluster Context}

theorem Assembled.any_higher (assembled : Assembled ids top cluster) (member : node ∈ ids)
    (now : Int) :
    (cluster node).members.any (isHigherSuperpeer (cluster node)) = true ↔ node ≠ top := by
  have higher : (cluster node).members.any (isHigherSuperpeer (cluster node)) = true ↔
      ∃ id, id ∈ TickTask.higherMembers (cluster node) ⟨now, (cluster node).members, .checks⟩ := by
    unfold TickTask.higherMembers
    simp only [List.any_eq_true, List.mem_map, List.mem_filter]
    constructor
    · rintro ⟨row, inTable, isHigher⟩
      exact ⟨_, row, ⟨inTable, isHigher⟩, rfl⟩
    · rintro ⟨_, row, ⟨inTable, isHigher⟩, -⟩
      exact ⟨row, inTable, isHigher⟩
  rw [higher]
  simp only [(assembled.lists node member).mem_higherMembers now .checks
    (assembled.identified node)]
  constructor
  · rintro ⟨id, present, below⟩ highest
    rw [highest, nodeIdBelow_iff] at below
    exact not_lt.mpr (assembled.highest id present) below
  · intro apart
    exact ⟨top, assembled.present, assembled.nodeIdBelow_top member apart⟩

/-- What makes the tick of an assembled node request an election. -/
theorem Assembled.requested_iff (assembled : Assembled ids top cluster) (member : node ∈ ids)
    (now : Int) :
    (tickChecks now (cluster node).members (cluster node)).electionRequested = true ↔
      (cluster node).electionRequested = true ∨ leaderLost (cluster node) = true ∨
        ((cluster node).leader = node ∧ node ≠ top) ∨
        (cluster node).electionWaiting = true ∧
          now - (cluster node).electionStartedMs ≥ c4ElectionRetryMs := by
  rw [tickChecks_requested, assembled.identified, assembled.any_higher member now]

/-- A node that is not restless requests nothing. -/
theorem Assembled.calm (assembled : Assembled ids top cluster) (member : node ∈ ids)
    (calm : ¬Restless top node (cluster node)) (now : Int) :
    (tickChecks now (cluster node).members (cluster node)).electionRequested = false := by
  rw [← Bool.not_eq_true, assembled.requested_iff member now]
  rintro (requested | lost | leads | ⟨waiting, -⟩)
  · exact calm (Or.inl requested)
  · exact calm (Or.inr (Or.inr (Or.inl lost)))
  · exact calm (Or.inr (Or.inr (Or.inr leads)))
  · exact calm (Or.inr (Or.inl waiting))

theorem Ticked.of_calm (ticked : Ticked ids top now node before after)
    (calm : (tickChecks now (before node).members (before node)).electionRequested = false) :
    after = before := by
  cases ticked with
  | quiet _ same => exact same
  | alerted _ requested => exact absurd requested (by rw [calm]; exact Bool.false_ne_true)
  | proclaimed _ requested => exact absurd requested (by rw [calm]; exact Bool.false_ne_true)

/-- United nodes are not restless. -/
theorem United.calm (united : United ids top cluster) (assembled : Assembled ids top cluster)
    (member : node ∈ ids) : ¬Restless top node (cluster node) := by
  obtain ⟨leader, requested, waiting⟩ := united node member
  have kept : leaderLost (cluster node) = false :=
    (assembled.lists node member).not_leaderLost (assembled.identified node)
      (leader ▸ assembled.present)
  rintro (wrong | wrong | wrong | ⟨isSelf, apart⟩)
  · rw [requested] at wrong
    cases wrong
  · rw [waiting] at wrong
    cases wrong
  · rw [kept] at wrong
    cases wrong
  · exact apart (isSelf.symm.trans leader)

/-! ### What a tick does to each node -/

/-- What a tick does to the leader, the term and the election of one of the nodes, when it leaves
the highest one in the given term. -/
inductive Turn (top : NodeID) (reign : UInt64) (before after : C4Cluster Context) : Prop
  | kept (leader : after.leader = before.leader) (term : after.term = before.term)
      (stirred : before.electionRequested = true ∨ before.electionWaiting = true →
        after.electionRequested = true ∨ after.electionWaiting = true)
  | dropped (leader : after.leader = zeroNodeId) (term : after.term = before.term)
      (stirred : after.electionRequested = true ∨ after.electionWaiting = true)
  | led (leader : after.leader = top) (term : after.term = reign) (rises : before.term ≤ after.term)

theorem Turn.term_le {reign : UInt64} {before after : C4Cluster Context}
    (turn : Turn top reign before after) : before.term ≤ after.term := by
  cases turn with
  | kept leader term stirred =>
    rw [term]
    exact UInt64.le_refl _
  | dropped leader term stirred =>
    rw [term]
    exact UInt64.le_refl _
  | led leader term rises => exact rises

theorem awaitHigher_turn {reign : UInt64} {checked : C4Cluster Context}
    {before : C4Cluster Context} (leader : checked.leader = before.leader ∨
      checked.leader = zeroNodeId) (term : checked.term = before.term) :
    Turn top reign before (awaitHigher now checked) := by
  rcases leader with leader | leader
  · exact .kept leader term fun _ => Or.inr rfl
  · exact .dropped leader term (Or.inr rfl)

theorem term_lt_succ {term : UInt64} (room : term.toNat + 1 < 2 ^ 64) : term < term + 1 := by
  rw [UInt64.lt_iff_toNat_lt, UInt64.toNat_add]
  exact (Nat.lt_succ_self _).trans_eq (Nat.mod_eq_of_lt room).symm

theorem Ticked.turn (ticked : Ticked ids top now node before after)
    (assembled : Assembled ids top before) (member : node ∈ ids)
    (room : (before top).term.toNat + 1 < 2 ^ 64) {other : NodeID} (present : other ∈ ids) :
    Turn top (after top).term (before other) (after other) := by
  obtain ⟨-, term, leader⟩ := tickChecks_kept now (before node).members (before node)
  cases ticked with
  | quiet calm same =>
    rw [same]
    exact .kept rfl rfl id
  | alerted below requested own others =>
    by_cases same : other = node
    · rw [same, own]
      exact awaitHigher_turn leader term
    · rw [others other same]
      split
      · exact .kept rfl rfl fun _ => Or.inl rfl
      · exact .kept rfl rfl id
  | proclaimed highest requested own others beyond =>
    subst highest
    have reign : (after node).term = (before node).term + 1 := by
      rw [own]
      show (tickChecks now (before node).members (before node)).term + 1 = _
      rw [term]
    by_cases same : other = node
    · subst same
      refine .led ?_ rfl ?_
      · rw [own]
        exact (tickChecks_kept now _ _).1.trans (assembled.identified other)
      · rw [reign]
        exact UInt64.le_of_lt (term_lt_succ room)
    · rw [others other present same]
      split
      · exact .kept rfl rfl id
      · rename_i current
        refine .led rfl reign.symm ?_
        exact UInt64.not_lt.mp current

/-- A tick writes no id and no table. -/
theorem Ticked.kept (ticked : Ticked ids top now node before after) (other : NodeID) :
    (after other).localId = (before other).localId ∧
      (after other).members = (before other).members := by
  obtain ⟨localId, -, -⟩ := tickChecks_kept now (before node).members (before node)
  have members := tickChecks_members now (before node).members (before node)
  cases ticked with
  | quiet calm same =>
    rw [same]
    exact ⟨rfl, rfl⟩
  | alerted below requested own others =>
    by_cases same : other = node
    · rw [same, own]
      exact ⟨localId, members⟩
    · rw [others other same]
      split <;> exact ⟨rfl, rfl⟩
  | proclaimed highest requested own others beyond =>
    by_cases same : other = node
    · rw [same, own]
      exact ⟨localId, members⟩
    · by_cases present : other ∈ ids
      · rw [others other present same]
        split <;> exact ⟨rfl, rfl⟩
      · rw [beyond other present]
        exact ⟨rfl, rfl⟩

theorem Ticked.assembled (ticked : Ticked ids top now node before after)
    (assembled : Assembled ids top before) : Assembled ids top after where
  identified other := (ticked.kept other).1.trans (assembled.identified other)
  lists other present := (ticked.kept other).2.symm ▸ assembled.lists other present
  named := assembled.named
  present := assembled.present
  highest := assembled.highest

theorem leaderLost_congr {first second : C4Cluster Context} (leader : first.leader = second.leader)
    (localId : first.localId = second.localId) (members : first.members = second.members) :
    leaderLost first = leaderLost second := by
  unfold leaderLost
  rw [leader, localId, members]

/-- A node that waits after a tick has waited before, or it is the node of the tick. -/
theorem Ticked.timer (ticked : Ticked ids top now node before after) {other : NodeID}
    (present : other ∈ ids) (waits : (after other).electionWaiting = true) :
    (after other).electionStartedMs = now ∨
      (before other).electionWaiting = true ∧
        (after other).electionStartedMs = (before other).electionStartedMs := by
  cases ticked with
  | quiet calm same =>
    rw [same] at waits ⊢
    exact Or.inr ⟨waits, rfl⟩
  | alerted below requested own others =>
    by_cases same : other = node
    · rw [same, own]
      exact Or.inl rfl
    · rw [others other same] at waits ⊢
      split at waits
      · rename_i alerted
        rw [if_pos alerted]
        exact Or.inr ⟨waits, rfl⟩
      · rename_i unasked
        rw [if_neg unasked]
        exact Or.inr ⟨waits, rfl⟩
  | proclaimed highest requested own others beyond =>
    by_cases same : other = node
    · rw [same, own] at waits
      cases waits
    · rw [others other present same] at waits ⊢
      split at waits
      · rename_i later
        rw [if_pos later]
        exact Or.inr ⟨waits, rfl⟩
      · cases waits

theorem Steady.tick (steady : Steady ids top since before)
    (ticked : Ticked ids top now node before after) (member : node ∈ ids)
    (room : (before top).term.toNat + 1 < 2 ^ 64) (onward : since ≤ later)
    (inTime : now ≤ later) : Steady ids top later after := by
  have assembled := steady.assembled
  have turn : ∀ other ∈ ids, Turn top (after top).term (before other) (after other) :=
    fun other present => ticked.turn assembled member room present
  refine ⟨ticked.assembled assembled, fun other present => ?_, fun other present live => ?_,
    fun other present live => ?_, fun other present blank => ?_, fun other present waits => ?_⟩
  · cases turn other present with
    | kept leader term stirred =>
      rw [leaderLost_congr leader (ticked.kept other).1 (ticked.kept other).2, leader]
      exact steady.known other present
    | dropped leader term stirred => exact Or.inl leader
    | led leader term rises => exact Or.inr (Or.inl (leader ▸ assembled.present))
  · cases turn other present with
    | kept leader term stirred =>
      rw [leader] at live ⊢
      exact steady.above other present live
    | dropped leader term stirred => exact absurd (leader ▸ live) assembled.named
    | led leader term rises =>
      rw [leader]
      exact assembled.highest other present
  · cases turn other present with
    | kept leader term stirred =>
      rw [leader] at live ⊢
      rw [term]
      exact UInt64.le_trans (steady.backed other present live) (turn _ live).term_le
    | dropped leader term stirred => exact absurd (leader ▸ live) assembled.named
    | led leader term rises =>
      rw [leader, term]
      exact UInt64.le_refl _
  · cases turn other present with
    | kept leader term stirred => exact stirred (steady.awake other present (leader ▸ blank))
    | dropped leader term stirred => exact stirred
    | led leader term rises =>
      exact absurd (blank ▸ leader ▸ assembled.present) assembled.named
  · rcases ticked.timer present waits with started | ⟨waited, started⟩
    · rw [started]
      exact inTime
    · rw [started]
      exact le_trans (steady.timers other present waited) onward

/-! ### Either united or restless -/

/-- When only nodes in a later term than the highest one do not follow it, they are restless, or
there are none: the leaders of a calm one rise up to a node that follows the highest one, and the
terms with them. -/
theorem Steady.united_or_restless (steady : Steady ids top since cluster)
    (others : ∀ node ∈ ids, ((cluster node).leader = top ∧
      (cluster node).electionRequested = false ∧ (cluster node).electionWaiting = false) ∨
        (cluster top).term < (cluster node).term) :
    United ids top cluster ∨ ∃ node ∈ ids, Restless top node (cluster node) := by
  by_cases restless : ∃ node ∈ ids, Restless top node (cluster node)
  · exact Or.inr restless
  refine Or.inl ?_
  -- by induction on how far a node is below the highest one
  have climb : ∀ distance, ∀ node ∈ ids, position top - position node ≤ distance →
      (cluster node).leader = top ∧ (cluster node).electionRequested = false ∧
        (cluster node).electionWaiting = false := by
    intro distance
    induction distance with
    | zero =>
      intro node member near
      refine (others node member).resolve_right fun later => ?_
      have same : node = top :=
        position_injective (le_antisymm (steady.assembled.highest node member) (by omega))
      rw [same] at later
      exact UInt64.lt_irrefl _ later
    | succ distance inductionHypothesis =>
      intro node member near
      refine (others node member).resolve_right fun later => ?_
      have calm : ¬Restless top node (cluster node) := fun wrong => restless ⟨node, member, wrong⟩
      rcases steady.known node member with blank | live | lost
      · exact calm ((steady.awake node member blank).imp id fun waiting => Or.inl waiting)
      · have higher := steady.above node member live
        have apart : (cluster node).leader ≠ node := by
          intro isSelf
          refine calm (Or.inr (Or.inr (Or.inr ⟨isSelf, ?_⟩)))
          rintro rfl
          exact UInt64.lt_irrefl _ later
        have strictly : position node < position (cluster node).leader :=
          lt_of_le_of_ne higher fun same => apart (position_injective same).symm
        have bound := steady.assembled.highest _ live
        obtain ⟨follows, -, -⟩ := inductionHypothesis _ live (by omega)
        have leaderBacked := steady.backed _ live (follows.symm ▸ steady.assembled.present)
        rw [follows] at leaderBacked
        exact UInt64.not_lt.mpr (UInt64.le_trans (steady.backed node member live) leaderBacked)
          later
      · exact calm (Or.inr (Or.inr (Or.inl lost)))
  exact fun node member => climb _ node member le_rfl

/-- The nodes on the way to be united: no term is past the bound, and some node is restless. -/
structure Underway (ids : List NodeID) (top : NodeID) (since : Int) (greatest : Nat)
    (cluster : NodeID → C4Cluster Context) : Prop where
  steady : Steady ids top since cluster
  outcome : United ids top cluster ∨
    (∀ node ∈ ids, (cluster node).term.toNat ≤ greatest) ∧
      ∃ node ∈ ids, Restless top node (cluster node)

theorem Ticked.of_united (ticked : Ticked ids top now node before after)
    (united : United ids top before) (assembled : Assembled ids top before)
    (member : node ∈ ids) : after = before :=
  ticked.of_calm (assembled.calm member (united.calm assembled member) now)

theorem Steady.mono (steady : Steady ids top since cluster) (onward : since ≤ later) :
    Steady ids top later cluster :=
  ⟨steady.assembled, steady.known, steady.above, steady.backed, steady.awake,
    fun node member waits => le_trans (steady.timers node member waits) onward⟩

/-- What a proclamation of the highest node leads to. -/
theorem Ticked.united_or_restless (ticked : Ticked ids top now node before after)
    (steady : Steady ids top later after) (term : (after top).term = (before top).term + 1)
    (highest : node = top)
    (own : after node = proclaim (tickChecks now (before node).members (before node)))
    (others : ∀ other ∈ ids, other ≠ node → after other =
      if (before node).term + 1 < (before other).term then before other
      else (before other).following ((before node).term + 1) node)
    (bounded : ∀ node ∈ ids, (before node).term.toNat ≤ greatest) (room : greatest + 1 < 2 ^ 64) :
    United ids top after ∨ (∀ node ∈ ids, (after node).term.toNat ≤ greatest) ∧
      ∃ node ∈ ids, Restless top node (after node) := by
  subst highest
  have assembled := steady.assembled
  have present := assembled.present
  have topBound := bounded node present
  have reign : ((before node).term + 1).toNat = (before node).term.toNat + 1 := by
    rw [UInt64.toNat_add]
    exact Nat.mod_eq_of_lt (lt_of_le_of_lt (Nat.succ_le_succ topBound) room)
  have ownId : (before node).localId = node :=
    (ticked.kept node).1.symm.trans (assembled.identified node)
  have ownState : (after node).leader = node ∧ (after node).electionRequested = false ∧
      (after node).electionWaiting = false := by
    rw [own]
    exact ⟨(tickChecks_kept now _ _).1.trans ownId, rfl, rfl⟩
  have either : ∀ other ∈ ids, ((after other).leader = node ∧
      (after other).electionRequested = false ∧ (after other).electionWaiting = false) ∨
        (after node).term < (after other).term := by
    intro other isOther
    by_cases same : other = node
    · rw [same]
      exact Or.inl ownState
    · rw [term, others other isOther same]
      split
      · rename_i refused
        exact Or.inr refused
      · exact Or.inl ⟨rfl, rfl, rfl⟩
  rcases steady.united_or_restless either with united | restless
  · exact Or.inl united
  by_cases last : (before node).term.toNat = greatest
  · -- nobody can be in a later term than the one after the greatest
    refine Or.inl fun other isOther => (either other isOther).resolve_right fun wrong => ?_
    rw [term, UInt64.lt_iff_toNat_lt, reign] at wrong
    by_cases same : other = node
    · rw [same, term, reign] at wrong
      exact absurd wrong (lt_irrefl _)
    · have bound := bounded other isOther
      rw [others other isOther same] at wrong
      split at wrong
      · omega
      · change _ < ((before node).term + 1).toNat at wrong
        omega
  · refine Or.inr ⟨fun other isOther => ?_, restless⟩
    by_cases same : other = node
    · rw [same, term, reign]
      omega
    · rw [others other isOther same]
      split
      · exact bounded other isOther
      · show ((before node).term + 1).toNat ≤ greatest
        omega

theorem Underway.tick (underway : Underway ids top since greatest before)
    (ticked : Ticked ids top now node before after) (member : node ∈ ids)
    (room : greatest + 1 < 2 ^ 64) (onward : since ≤ later) (inTime : now ≤ later) :
    Underway ids top later greatest after := by
  have assembled := underway.steady.assembled
  rcases underway.outcome with united | ⟨bounded, restless⟩
  · rw [ticked.of_united united assembled member]
    exact ⟨underway.steady.mono onward, Or.inl united⟩
  have topRoom : (before top).term.toNat + 1 < 2 ^ 64 :=
    lt_of_le_of_lt (Nat.succ_le_succ (bounded top assembled.present)) room
  have steady := underway.steady.tick ticked member topRoom onward inTime
  refine ⟨steady, ?_⟩
  obtain ⟨-, term, leader⟩ := tickChecks_kept now (before node).members (before node)
  cases ticked with
  | quiet calm same =>
    rw [same]
    exact Or.inr ⟨bounded, restless⟩
  | alerted below requested own others =>
    refine Or.inr ⟨fun other present => ?_, node, member, ?_⟩
    · by_cases same : other = node
      · rw [same, own]
        show (tickChecks now (before node).members (before node)).term.toNat ≤ greatest
        rw [term]
        exact bounded node member
      · rw [others other same]
        split <;> exact bounded other present
    · rw [own]
      exact Or.inr (Or.inl rfl)
  | proclaimed highest requested own others beyond =>
    refine Ticked.united_or_restless (.proclaimed highest requested own others beyond) steady ?_
      highest own others bounded room
    rw [← highest, own]
    show (tickChecks now (before node).members (before node)).term + 1 = _
    rw [term]

/-! ### What every two rounds bring about -/

/-- The nodes are united, or the highest one has gone past a term. -/
def Raised (ids : List NodeID) (top : NodeID) (term : Nat)
    (cluster : NodeID → C4Cluster Context) : Prop :=
  United ids top cluster ∨ term < (cluster top).term.toNat

/-- Or an election has been requested in the highest node. -/
def Called (ids : List NodeID) (top : NodeID) (term : Nat)
    (cluster : NodeID → C4Cluster Context) : Prop :=
  Raised ids top term cluster ∨
    term ≤ (cluster top).term.toNat ∧ (cluster top).electionRequested = true

/-- A node that requests an election at its next tick. -/
def Ready (top node : NodeID) (since : Int) (cluster : C4Cluster Context) : Prop :=
  cluster.electionRequested = true ∨
    (cluster.electionWaiting = true ∧ cluster.electionStartedMs ≤ since) ∨
    leaderLost cluster = true ∨ cluster.leader = node ∧ node ≠ top

theorem Restless.ready (restless : Restless top node (cluster node))
    (steady : Steady ids top since cluster) (member : node ∈ ids) :
    Ready top node since (cluster node) := by
  rcases restless with requested | waiting | rest
  · exact Or.inl requested
  · exact Or.inr (Or.inl ⟨waiting, steady.timers node member waiting⟩)
  · exact Or.inr (Or.inr rest)

/-- The tick of a node that is ready requests an election. -/
theorem Ready.requested (ready : Ready top node since (before node))
    (assembled : Assembled ids top before) (member : node ∈ ids)
    (late : since + c4ElectionRetryMs ≤ now) :
    (tickChecks now (before node).members (before node)).electionRequested = true := by
  rw [assembled.requested_iff member now]
  rcases ready with requested | ⟨waiting, started⟩ | lost | leads
  · exact Or.inl requested
  · exact Or.inr (Or.inr (Or.inr ⟨waiting, by omega⟩))
  · exact Or.inr (Or.inl lost)
  · exact Or.inr (Or.inr (Or.inl leads))

section Progress

variable (underway : Underway ids top since greatest before)
  (ticked : Ticked ids top now node before after) (member : node ∈ ids)
  (room : greatest + 1 < 2 ^ 64)

include underway ticked member room

theorem Raised.tick {term : Nat} (raised : Raised ids top term before) :
    Raised ids top term after := by
  have assembled := underway.steady.assembled
  rcases underway.outcome with united | ⟨bounded, -⟩
  · rw [ticked.of_united united assembled member]
    exact Or.inl united
  · rcases raised with united | past
    · rw [ticked.of_united united assembled member]
      exact Or.inl united
    · have topRoom : (before top).term.toNat + 1 < 2 ^ 64 :=
        lt_of_le_of_lt (Nat.succ_le_succ (bounded top assembled.present)) room
      exact Or.inr (lt_of_lt_of_le past (UInt64.le_iff_toNat_le.mp
        (ticked.turn assembled member topRoom assembled.present).term_le))

/-- A proclamation goes past every term that the node has reached. -/
theorem Ticked.raised {term : Nat} (reached : term ≤ (before top).term.toNat)
    (highest : node = top)
    (own : after node = proclaim (tickChecks now (before node).members (before node))) :
    Raised ids top term after := by
  have assembled := underway.steady.assembled
  rcases underway.outcome with united | ⟨bounded, -⟩
  · rw [ticked.of_united united assembled member]
    exact Or.inl united
  · have topRoom : (before top).term.toNat + 1 < 2 ^ 64 :=
      lt_of_le_of_lt (Nat.succ_le_succ (bounded top assembled.present)) room
    refine Or.inr (lt_of_le_of_lt reached ?_)
    rw [← highest, own, ← UInt64.lt_iff_toNat_lt]
    show _ < (tickChecks now (before node).members (before node)).term + 1
    rw [(tickChecks_kept now _ _).2.1]
    exact term_lt_succ (highest ▸ topRoom)

theorem Called.tick {term : Nat} (called : Called ids top term before) :
    Called ids top term after := by
  rcases called with raised | ⟨reached, requested⟩
  · exact Or.inl (raised.tick underway ticked member room)
  · have step := ticked
    cases ticked with
    | quiet calm same =>
      rw [same]
      exact Or.inr ⟨reached, requested⟩
    | alerted below asks own others =>
      rw [Called, others top (Ne.symm below)]
      split
      · exact Or.inr ⟨reached, rfl⟩
      · exact Or.inr ⟨reached, requested⟩
    | proclaimed highest asks own others beyond =>
      exact Or.inl (step.raised underway member room reached highest own)

/-- The tick of a node that is ready reaches the highest node. -/
theorem Ready.called {term : Nat} (reached : term ≤ (before top).term.toNat) {ago : Int}
    (ready : Ready top node ago (before node)) (late : ago + c4ElectionRetryMs ≤ now) :
    Called ids top term after := by
  have assembled := underway.steady.assembled
  have requests := ready.requested assembled member late
  have step := ticked
  cases ticked with
  | quiet calm same => exact absurd requests (by rw [calm]; exact Bool.false_ne_true)
  | alerted below asks own others =>
    rw [Called, others top (Ne.symm below),
      if_pos ⟨assembled.present, assembled.nodeIdBelow_top member below⟩]
    exact Or.inr ⟨reached, rfl⟩
  | proclaimed highest asks own others beyond =>
    exact Or.inl (step.raised underway member room reached highest own)

/-- The tick of another node leaves a node ready, or goes past the term. -/
theorem Ready.tick {term : Nat} (reached : term ≤ (before top).term.toNat) {ago : Int}
    {other : NodeID} (apart : other ≠ node)
    (ready : Ready top other ago (before other)) :
    (Ready top other ago (after other) ∧ term ≤ (after top).term.toNat) ∨
      Raised ids top term after := by
  have step := ticked
  cases ticked with
  | quiet calm same =>
    rw [same]
    exact Or.inl ⟨ready, reached⟩
  | alerted below asks own others =>
    have topTerm : (after top).term = (before top).term := by
      rw [others top (Ne.symm below)]
      split <;> rfl
    refine Or.inl ⟨?_, topTerm ▸ reached⟩
    rw [others other apart]
    split
    · exact Or.inl rfl
    · exact ready
  | proclaimed highest asks own others beyond =>
    exact Or.inr (step.raised underway member room reached highest own)

end Progress

end Ticks

/-! ### Rounds -/

/-- A tick that is not interrupted, with its time, its transaction ids and the ends of its
recoveries. -/
structure FullTick where
  node : NodeID
  now : Int
  generated : TransactionId
  recoveries : Recoveries

/-- One uninterrupted tick. -/
def afterTick (cluster : NodeID → C4Cluster Context) (tick : FullTick) : NodeID → C4Cluster Context :=
  wholeTick tick.generated tick.recoveries tick.now tick.node cluster

/-- One tick after the other. -/
def runTicks (cluster : NodeID → C4Cluster Context) (ticks : List FullTick) :
    NodeID → C4Cluster Context :=
  ticks.foldl afterTick cluster

/-- One round after the other. -/
def runRounds (cluster : NodeID → C4Cluster Context) (rounds : List (List FullTick)) :
    NodeID → C4Cluster Context :=
  rounds.foldl runTicks cluster

/-- In a round every node ticks at least once, and late enough for a timer that was started before
the round to run out. -/
structure IsRound (ids : List NodeID) (since later : Int) (ticks : List FullTick) : Prop where
  timely : ∀ tick ∈ ticks, tick.node ∈ ids ∧ since + c4ElectionRetryMs ≤ tick.now ∧
    tick.now ≤ later
  complete : ∀ node ∈ ids, ∃ tick ∈ ticks, tick.node = node

/-- Rounds that follow each other. -/
def Rounds (ids : List NodeID) : Int → List (List FullTick) → Prop
  | _, [] => True
  | since, ticks :: rest => ∃ later, IsRound ids since later ticks ∧ Rounds ids later rest

section Rounds

variable {ids : List NodeID} {top : NodeID} {since later : Int} {greatest term : Nat}
  {cluster : NodeID → C4Cluster Context} {ticks : List FullTick}

theorem IsRound.onward (round : IsRound ids since later ticks) {node : NodeID}
    (member : node ∈ ids) : since ≤ later := by
  obtain ⟨tick, inRound, -⟩ := round.complete node member
  obtain ⟨-, late, inTime⟩ := round.timely tick inRound
  unfold c4ElectionRetryMs at late
  omega

section Round

variable (round : IsRound ids since later ticks)
  (recovers : ∀ tick ∈ ticks, tick.recoveries.Succeed) (room : greatest + 1 < 2 ^ 64)

include round recovers room

/-- Every tick of a round keeps the nodes on their way. -/
theorem IsRound.tick {state : NodeID → C4Cluster Context}
    (underway : Underway ids top later greatest state) {tick : FullTick} (inRound : tick ∈ ticks) :
    Underway ids top later greatest (afterTick state tick) ∧
      Ticked ids top tick.now tick.node state (afterTick state tick) := by
  obtain ⟨member, -, inTime⟩ := round.timely tick inRound
  have ticked : Ticked ids top tick.now tick.node state (afterTick state tick) :=
    wholeTick_ticked (recovers tick inRound) underway.steady.assembled member
  exact ⟨underway.tick ticked member room le_rfl inTime, ticked⟩

/-- A round in which some node is restless reaches the highest node. -/
theorem IsRound.called (underway : Underway ids top later greatest cluster)
    {node : NodeID} (member : node ∈ ids) (ready : Ready top node since (cluster node))
    (reached : term ≤ (cluster top).term.toNat) :
    Underway ids top later greatest (runTicks cluster ticks) ∧
      Called ids top term (runTicks cluster ticks) := by
  refine Leads.foldl_ensures
    (fun state => Underway ids top later greatest state ∧
      Ready top node since (state node) ∧ term ≤ (state top).term.toNat)
    (fun state => Underway ids top later greatest state ∧ Called ids top term state)
    (fun tick : FullTick => tick.node = node) ?_ ?_ ?_ ⟨underway, ready, reached⟩
    (round.complete node member)
  · rintro state tick inRound ⟨underway, ready, reached⟩
    obtain ⟨next, ticked⟩ := round.tick recovers room underway inRound
    by_cases own : node = tick.node
    · subst own
      exact Or.inr ⟨next, ready.called underway ticked member room reached
        (round.timely tick inRound).2.1⟩
    · rcases ready.tick underway ticked (round.timely tick inRound).1 room reached own with
        still | raised
      · exact Or.inl ⟨next, still⟩
      · exact Or.inr ⟨next, Or.inl raised⟩
  · rintro state tick inRound rfl ⟨underway, ready, reached⟩
    obtain ⟨next, ticked⟩ := round.tick recovers room underway inRound
    exact ⟨next, ready.called underway ticked member room reached (round.timely tick inRound).2.1⟩
  · rintro state tick inRound ⟨underway, called⟩
    obtain ⟨next, ticked⟩ := round.tick recovers room underway inRound
    exact ⟨next, called.tick underway ticked (round.timely tick inRound).1 room⟩

/-- A round that begins with a request in the highest node goes past its term. -/
theorem IsRound.raised (underway : Underway ids top later greatest cluster)
    (called : Called ids top term cluster) :
    Underway ids top later greatest (runTicks cluster ticks) ∧
      Raised ids top term (runTicks cluster ticks) := by
  refine Leads.foldl_ensures
    (fun state => Underway ids top later greatest state ∧ Called ids top term state)
    (fun state => Underway ids top later greatest state ∧ Raised ids top term state)
    (fun tick : FullTick => tick.node = top) ?_ ?_ ?_ ⟨underway, called⟩
    (round.complete top underway.steady.assembled.present)
  · rintro state tick inRound ⟨underway, called⟩
    obtain ⟨next, ticked⟩ := round.tick recovers room underway inRound
    exact Or.inl ⟨next, called.tick underway ticked (round.timely tick inRound).1 room⟩
  · rintro state tick inRound highest ⟨underway, called⟩
    obtain ⟨next, ticked⟩ := round.tick recovers room underway inRound
    have member := (round.timely tick inRound).1
    refine ⟨next, ?_⟩
    rcases called with raised | ⟨reached, requested⟩
    · exact raised.tick underway ticked member room
    · -- the tick of the highest node proclaims it
      have step := ticked
      have assembled := underway.steady.assembled
      cases ticked with
      | quiet calm same =>
        rw [← Bool.not_eq_true, assembled.requested_iff member] at calm
        exact absurd (Or.inl (highest ▸ requested)) calm
      | alerted below => exact absurd highest below
      | proclaimed isTop asks own others beyond =>
        exact step.raised underway member room reached isTop own
  · rintro state tick inRound ⟨underway, raised⟩
    obtain ⟨next, ticked⟩ := round.tick recovers room underway inRound
    exact ⟨next, raised.tick underway ticked (round.timely tick inRound).1 room⟩

end Round

/-- Where no node is restless, rounds change nothing, however recoveries would end. -/
theorem runRounds_calm (assembled : Assembled ids top cluster)
    (calm : ∀ node ∈ ids, ¬Restless top node (cluster node)) {rounds : List (List FullTick)}
    (spaced : Rounds ids since rounds) : runRounds cluster rounds = cluster := by
  induction rounds generalizing since with
  | nil => rfl
  | cons ticks rest inductionHypothesis =>
    obtain ⟨later, round, spacedRest⟩ := spaced
    have same : runTicks cluster ticks = cluster := by
      refine Leads.foldl_kept (fun state => state = cluster) ?_ rfl
      rintro state tick inRound rfl
      have member := (round.timely tick inRound).1
      exact wholeTick_calm (assembled.calm member (calm tick.node member) _)
    show runRounds (runTicks cluster ticks) rest = cluster
    rw [same]
    exact inductionHypothesis spacedRest

theorem Underway.united {count : Nat} {rounds : List (List FullTick)}
    (underway : Underway ids top since greatest cluster) (room : greatest + 1 < 2 ^ 64)
    (spaced : Rounds ids since rounds)
    (recovers : ∀ ticks ∈ rounds, ∀ tick ∈ ticks, tick.recoveries.Succeed)
    (near : greatest + 1 - (cluster top).term.toNat ≤ count)
    (enough : 2 * count ≤ rounds.length) : United ids top (runRounds cluster rounds) := by
  have assembled := underway.steady.assembled
  induction count generalizing since cluster rounds with
  | zero =>
    rcases underway.outcome with united | ⟨bounded, -⟩
    · rw [runRounds_calm assembled (fun node member => united.calm assembled member) spaced]
      exact united
    · have bound := bounded top assembled.present
      omega
  | succ count inductionHypothesis =>
    rcases underway.outcome with united | ⟨bounded, node, member, restless⟩
    · rw [runRounds_calm assembled (fun node member => united.calm assembled member) spaced]
      exact united
    · cases rounds with
      | nil => cases enough
      | cons first others =>
        cases others with
        | nil =>
          rw [List.length_singleton] at enough
          omega
        | cons second rest =>
          obtain ⟨middle, firstRound, next, secondRound, spacedRest⟩ := spaced
          have ready := restless.ready underway.steady member
          have onFirst : Underway ids top middle greatest cluster :=
            ⟨underway.steady.mono (firstRound.onward member), underway.outcome⟩
          obtain ⟨recoversFirst, recoversOthers⟩ := List.forall_mem_cons.mp recovers
          obtain ⟨recoversSecond, recoversRest⟩ := List.forall_mem_cons.mp recoversOthers
          obtain ⟨afterFirst, called⟩ :=
            firstRound.called recoversFirst room onFirst member ready le_rfl
          have onSecond : Underway ids top next greatest (runTicks cluster first) :=
            ⟨afterFirst.steady.mono (secondRound.onward member), afterFirst.outcome⟩
          obtain ⟨afterSecond, raised⟩ := secondRound.raised recoversSecond room onSecond called
          have stillAssembled := afterSecond.steady.assembled
          show United ids top (runRounds (runTicks (runTicks cluster first) second) rest)
          rcases raised with united | past
          · rw [runRounds_calm stillAssembled
              (fun node member => united.calm stillAssembled member) spacedRest]
            exact united
          · simp only [List.length_cons] at enough
            exact inductionHypothesis afterSecond spacedRest recoversRest (by omega) (by omega)
              stillAssembled

/-- After enough rounds whose recoveries succeed the nodes are united, exactly if they have been
before or some node has been restless. -/
theorem Steady.united_iff {rounds : List (List FullTick)} (steady : Steady ids top since cluster)
    (bounded : ∀ node ∈ ids, (cluster node).term.toNat ≤ greatest) (room : greatest + 1 < 2 ^ 64)
    (spaced : Rounds ids since rounds)
    (recovers : ∀ ticks ∈ rounds, ∀ tick ∈ ticks, tick.recoveries.Succeed)
    (enough : 2 * (greatest + 1 - (cluster top).term.toNat) ≤ rounds.length) :
    United ids top (runRounds cluster rounds) ↔
      United ids top cluster ∨ ∃ node ∈ ids, Restless top node (cluster node) := by
  constructor
  · intro united
    by_cases restless : ∃ node ∈ ids, Restless top node (cluster node)
    · exact Or.inr restless
    · rw [runRounds_calm steady.assembled (fun node member wrong => restless ⟨node, member, wrong⟩)
        spaced] at united
      exact Or.inl united
  · intro either
    have underway : Underway ids top since greatest cluster :=
      ⟨steady, either.imp_right fun restless => ⟨bounded, restless⟩⟩
    exact underway.united room spaced recovers le_rfl enough

end Rounds

/-- A member that accepts a proclamation and whose recovery fails is left without a leader, and it is
not restless. -/
theorem acceptOrRefuse_failed {top : NodeID} {cluster : C4Cluster Context} {request : Message}
    {accepted : C4Cluster Context × SuperPeerMember} {code : Errno}
    (named : cluster.localId ≠ zeroNodeId)
    (accepts : acceptCoordinator .eio cluster request = .ok accepted) :
    (acceptOrRefuse cluster request (.error code)).leader = zeroNodeId ∧
      ¬Restless top cluster.localId (acceptOrRefuse cluster request (.error code)) := by
  have whole : acceptOrRefuse cluster request (.error code) =
      finishCoordinator accepted.1 request (.error code) := by
    unfold acceptOrRefuse
    rw [accepts]
  rw [whole]
  unfold acceptCoordinator at accepts
  split at accepts
  · cases accepts
  · split at accepts
    · cases accepts
    · split at accepts
      · cases accepts
      · cases accepts
        unfold finishCoordinator
        dsimp only
        rw [if_pos rfl]
        refine ⟨rfl, ?_⟩
        rintro (requested | waiting | lost | ⟨isSelf, -⟩)
        · cases requested
        · cases waiting
        · simp [leaderLost] at lost
        · exact named isSelf.symm

/-! ### From the runs of the interleaved system -/

namespace Electorate

variable {ids : List NodeID} {top : NodeID} {since : Int} {electorate : Electorate Context}

/-- What every run ensures of the leaders and the terms, as a tick needs it. -/
theorem Ordered.steady (ordered : electorate.Ordered)
    (assembled : Assembled ids top electorate.cluster)
    (known : ∀ node ∈ ids, (electorate.cluster node).leader ∉ ids →
      (electorate.cluster node).leader ≠ zeroNodeId →
        leaderLost (electorate.cluster node) = true)
    (awake : ∀ node ∈ ids, (electorate.cluster node).leader = zeroNodeId →
      (electorate.cluster node).electionRequested = true ∨
        (electorate.cluster node).electionWaiting = true)
    (timers : ∀ node ∈ ids, (electorate.cluster node).electionWaiting = true →
      (electorate.cluster node).electionStartedMs ≤ since) :
    Steady ids top since electorate.cluster := by
  have named : ∀ node, (electorate.cluster node).leader ∈ ids →
      (electorate.cluster node).leader ≠ zeroNodeId :=
    fun node live blank => assembled.named (blank ▸ live)
  refine ⟨assembled, fun node member => ?_, fun node member live => ?_, fun node member live => ?_,
    awake, timers⟩
  · by_cases blank : (electorate.cluster node).leader = zeroNodeId
    · exact Or.inl blank
    · by_cases live : (electorate.cluster node).leader ∈ ids
      · exact Or.inr (Or.inl live)
      · exact Or.inr (Or.inr (known node member live blank))
  · exact nodeIdBelow_eq_false.mp
      ((ordered.sound.leaders node).resolve_left (named node live)).2
  · exact ordered.bounded _ ((ordered.sound.leaders node).resolve_left (named node live)).1

theorem runTicks_reached (identified : electorate.Identified) (ticks : List FullTick) :
    ∃ next, Transition.Reaches step anything electorate next ∧ next.Identified ∧
      next.cluster = runTicks electorate.cluster ticks := by
  induction ticks generalizing electorate with
  | nil => exact ⟨electorate, .refl, identified, rfl⟩
  | cons tick rest inductionHypothesis =>
    obtain ⟨middle, reached, first⟩ :=
      wholeTick_reached identified tick.generated tick.recoveries tick.now tick.node
    have middleIdentified : middle.Identified := reached.invariant identified
      fun _ _ _ identified _ stepped => (step_changes identified stepped).1
    obtain ⟨next, reachedNext, nextIdentified, others⟩ := inductionHypothesis middleIdentified
    refine ⟨next, reached.trans reachedNext, nextIdentified, ?_⟩
    rw [others, first]
    rfl

/-- Rounds of whole ticks are a run, however their recoveries end. -/
theorem runRounds_reached (identified : electorate.Identified) (rounds : List (List FullTick)) :
    ∃ next, Transition.Reaches step anything electorate next ∧
      next.cluster = runRounds electorate.cluster rounds := by
  induction rounds generalizing electorate with
  | nil => exact ⟨electorate, .refl, rfl⟩
  | cons ticks rest inductionHypothesis =>
    obtain ⟨middle, reached, middleIdentified, first⟩ := runTicks_reached identified ticks
    obtain ⟨next, reachedNext, others⟩ := inductionHypothesis middleIdentified
    refine ⟨next, reached.trans reachedNext, ?_⟩
    rw [others, first]
    rfl

/-- **Elections end.** Wherever a run without restarts has led to: once the tables agree on who is
alive, every node without a leader is in an election, and no message is lost, enough rounds of ticks
are a run. If their recoveries succeed, it makes everyone follow the highest live super peer, exactly
if everyone has followed it before or some node has been restless. If no node is restless, the
rounds change nothing. -/
theorem united_iff_restless {start : Electorate Context} (initial : start.Initial)
    (reached : Transition.Reaches step Lasting start electorate)
    (assembled : Assembled ids top electorate.cluster)
    (known : ∀ node ∈ ids, (electorate.cluster node).leader ∉ ids →
      (electorate.cluster node).leader ≠ zeroNodeId →
        leaderLost (electorate.cluster node) = true)
    (awake : ∀ node ∈ ids, (electorate.cluster node).leader = zeroNodeId →
      (electorate.cluster node).electionRequested = true ∨
        (electorate.cluster node).electionWaiting = true)
    (timers : ∀ node ∈ ids, (electorate.cluster node).electionWaiting = true →
      (electorate.cluster node).electionStartedMs ≤ since)
    {greatest : Nat} (bounded : ∀ node ∈ ids, (electorate.cluster node).term.toNat ≤ greatest)
    (room : greatest + 1 < 2 ^ 64) {rounds : List (List FullTick)}
    (spaced : Rounds ids since rounds)
    (enough : 2 * (greatest + 1 - (electorate.cluster top).term.toNat) ≤ rounds.length) :
    (∃ next, Transition.Reaches step anything electorate next ∧
        next.cluster = runRounds electorate.cluster rounds) ∧
      ((∀ ticks ∈ rounds, ∀ tick ∈ ticks, tick.recoveries.Succeed) →
        (United ids top (runRounds electorate.cluster rounds) ↔
          United ids top electorate.cluster ∨
            ∃ node ∈ ids, Restless top node (electorate.cluster node))) ∧
      ((∀ node ∈ ids, ¬Restless top node (electorate.cluster node)) →
        runRounds electorate.cluster rounds = electorate.cluster) := by
  have ordered : electorate.Ordered := reached.invariant initial.ordered
    fun _ _ _ ordered lasting stepped => ordered.step lasting stepped
  have steady := ordered.steady assembled known awake timers
  exact ⟨runRounds_reached ordered.sound.identified rounds,
    fun recovers => steady.united_iff bounded room spaced recovers enough,
    fun calm => runRounds_calm assembled calm spaced⟩

theorem lists_electorateOf {members : List NodeID} (distinct : members.Nodup) (node : NodeID) :
    Lists members node (members.map fun id => ⟨id, .superPeer, .alive, false⟩) where
  distinct := by
    rw [List.map_map]
    show (members.map id).Nodup
    rw [List.map_id]
    exact distinct
  live id _ := by
    constructor
    · intro member
      exact ⟨_, List.mem_map_of_mem member, rfl, rfl, rfl⟩
    · rintro ⟨row, inTable, rfl, -⟩
      obtain ⟨id, member, rfl⟩ := List.mem_map.mp inTable
      exact member

/-- A tick of a node of one repeated byte, with recoveries that succeed. -/
def tickOf (byte : UInt8) (now : Int) : FullTick :=
  ⟨nodeOf byte, now, transactionOf 0, ⟨fun _ => .ok (), 0, fun _ => .ok ()⟩⟩

theorem succeed_tickOf (byte : UInt8) (now : Int) : (tickOf byte now).recoveries.Succeed :=
  ⟨fun _ => rfl, fun _ => rfl⟩

/-- Two new super peers follow the second one after two rounds. -/
theorem united_iff_restless_pair :
    United [nodeOf 1, nodeOf 2] (nodeOf 2)
      (runRounds (electorateOf [nodeOf 1, nodeOf 2]).cluster
        [[tickOf 1 1500, tickOf 2 1500], [tickOf 2 3000, tickOf 1 3001]]) := by
  have assembled : Assembled [nodeOf 1, nodeOf 2] (nodeOf 2)
      (electorateOf [nodeOf 1, nodeOf 2]).cluster :=
    ⟨fun _ => rfl, fun node _ => lists_electorateOf (by decide) node, by decide, by decide,
      by decide⟩
  have spaced : Rounds [nodeOf 1, nodeOf 2] 0
      [[tickOf 1 1500, tickOf 2 1500], [tickOf 2 3000, tickOf 1 3001]] :=
    ⟨1500, ⟨by decide, by decide⟩, 3001, ⟨by decide, by decide⟩, trivial⟩
  obtain ⟨-, united, -⟩ := united_iff_restless (initial_electorateOf _) .refl assembled
    (fun _ _ _ named => absurd rfl named) (fun _ _ _ => Or.inl rfl)
    (fun _ _ waits => Bool.noConfusion waits) (fun _ _ => le_rfl) (by decide) spaced (by decide)
  have recovers : ∀ ticks ∈ [[tickOf 1 1500, tickOf 2 1500], [tickOf 2 3000, tickOf 1 3001]],
      ∀ tick ∈ ticks, tick.recoveries.Succeed := by
    simp only [List.forall_mem_cons, List.not_mem_nil, false_implies, implies_true, and_true]
    exact ⟨⟨succeed_tickOf .., succeed_tickOf ..⟩, succeed_tickOf .., succeed_tickOf ..⟩
  exact (united recovers).mpr (Or.inr ⟨nodeOf 1, List.mem_cons_self, Or.inl rfl⟩)

/-- The second of three super peers proclaims itself without an answer of the third one, and then
the proclamation of the third one reaches the second one only. -/
def missedRun : List (ElectionAction Unit) :=
  [.tick (nodeOf 2) 0, runTick 0, runTick 0, .fail 0 .eio] ++ List.replicate 7 (runTick 0) ++
    [.deliver (requestOf 2 1 .coordinator (transactionOf 0) (coordinatorPayload 1 C4Log.fresh)) .eio,
      .finish 0 (.ok ()), .fail 0 .eio, runTick 0, .fail 0 .eio, runTick 0] ++
    [.tick (nodeOf 3) 0] ++ List.replicate 8 (runTick 1) ++ [.fail 1 .eio, runTick 1,
      .deliver (requestOf 3 2 .coordinator (transactionOf 0) (coordinatorPayload 1 C4Log.fresh)) .eio,
      .finish 0 (.ok ()), .fail 1 .eio, runTick 1]

/-- A super peer that has missed the proclamation of the leader follows another one for good. -/
theorem missed_proclamation :
    ∃ electorate, Transition.Reaches step Lasting
        (electorateOf [nodeOf 1, nodeOf 2, nodeOf 3]) electorate ∧
      (electorate.cluster (nodeOf 1)).leader = nodeOf 2 ∧
      (electorate.cluster (nodeOf 2)).leader = nodeOf 3 ∧
      ∀ since rounds, Rounds [nodeOf 1, nodeOf 2, nodeOf 3] since rounds →
        runRounds electorate.cluster rounds = electorate.cluster := by
  obtain ⟨electorate, reached, first, second, kept⟩ := Transition.Reaches.of_check
    (show (Transition.run (Transition.guarded step Lasting)
        (electorateOf [nodeOf 1, nodeOf 2, nodeOf 3]) missedRun).any (fun final =>
          (final.cluster (nodeOf 1)).leader = nodeOf 2 ∧
          (final.cluster (nodeOf 2)).leader = nodeOf 3 ∧
          ∀ node ∈ [nodeOf 1, nodeOf 2, nodeOf 3],
            (final.cluster node).members = [nodeOf 1, nodeOf 2, nodeOf 3].map
              (fun id => ⟨id, .superPeer, .alive, false⟩) ∧
            ¬Restless (nodeOf 3) node (final.cluster node)) = true
      by decide +kernel)
  have identified : electorate.Identified := reached.invariant (initial_electorateOf _).sound.identified
    fun _ _ _ identified _ stepped => (step_changes identified stepped).1
  refine ⟨electorate, reached, first, second, fun since rounds spaced => ?_⟩
  refine runRounds_calm ⟨identified, fun node member => ?_, by decide, by decide, by decide⟩
    (fun node member => (kept node member).2) spaced
  rw [(kept node member).1]
  exact lists_electorateOf (by decide) node

/-- The second of two new super peers proclaims itself, and the recovery of the first one from it
fails. -/
def failedTick : FullTick :=
  ⟨nodeOf 2, 0, transactionOf 0, ⟨fun _ => .ok (), 0, fun _ => .error .eio⟩⟩

/-- A super peer whose recovery from the new leader has failed is without a leader for good. -/
theorem failed_recovery {since : Int} {rounds : List (List FullTick)}
    (spaced : Rounds [nodeOf 1, nodeOf 2] since rounds) :
    (runRounds (runTicks (electorateOf [nodeOf 1, nodeOf 2]).cluster [failedTick]) rounds
      (nodeOf 1)).leader = zeroNodeId := by
  obtain ⟨next, -, identified, isNext⟩ :=
    runTicks_reached (initial_electorateOf [nodeOf 1, nodeOf 2]).sound.identified [failedTick]
  have kept : ∀ node ∈ [nodeOf 1, nodeOf 2],
      (runTicks (electorateOf [nodeOf 1, nodeOf 2]).cluster [failedTick] node).members =
          [nodeOf 1, nodeOf 2].map (fun id => ⟨id, .superPeer, .alive, false⟩) ∧
        ¬Restless (nodeOf 2) node
          (runTicks (electorateOf [nodeOf 1, nodeOf 2]).cluster [failedTick] node) := by
    decide +kernel
  have assembled : Assembled [nodeOf 1, nodeOf 2] (nodeOf 2)
      (runTicks (electorateOf [nodeOf 1, nodeOf 2]).cluster [failedTick]) := by
    refine ⟨fun node => isNext ▸ identified node, fun node member => ?_, by decide, by decide,
      by decide⟩
    rw [(kept node member).1]
    exact lists_electorateOf (by decide) node
  rw [runRounds_calm assembled (fun node member => (kept node member).2) spaced]
  decide +kernel

end Electorate

end SuperPeerNet
