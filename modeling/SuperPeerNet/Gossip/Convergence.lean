/-
This file settles when the order of gossip matters.

Merging a record changes what the table says about one node, and it does so as an offer
to a register. Records about different nodes are therefore independent as long as the
table has room for all of them, and for one node the rules about registers apply: the
outcome depends on the set of records only, unless a tombstone of the latest incarnation
meets a record above it.
-/

import SuperPeerNet.Gossip.Detector

namespace SuperPeerNet

/-! ### The records and the conditions -/

section Convergence

variable [Inet] [Sha256] [Process]

/-- The nodes that records are about. -/
def nodesOf (records : List MemberRecord) : Finset NodeID :=
  (records.map MemberRecord.id).toFinset

/-- A record that `gossip_decode_record` has accepted, about a node that is neither this super
peer nor one of its own Peers; a Peer is reported by its home. -/
structure Foreign (table : SuperPeer) (record : MemberRecord) : Prop where
  decoded : ∃ input, gossipDecodeRecord input = .ok record
  remote : record.id ≠ table.localNode.id
  reported : record.node.role = .peer → record.home = record.reporter
  elsewhere : ¬ homedHere table record
  known : ∀ old, table.find record.id = some old → ¬ homedHere table old

/-- The table has room for every node that the records are about. -/
def HasRoom (table : SuperPeer) (records : List MemberRecord) : Prop :=
  table.members.length + (nodesOf records \ nodesOf table.members).card ≤ maxMembers

/-- The records about one node. -/
def about (id : NodeID) (records : List MemberRecord) : List MemberRecord :=
  records.filter fun record => record.id = id

/-- No tombstone makes the order of the records about a node matter: the record that the table
holds is a tombstone that refuses all of them, or every tombstone among the records that would
replace the held record and is of the latest incarnation is the greatest of the records. -/
def Settled (held : Option MemberRecord) (records : List MemberRecord) : Prop :=
  (∃ old, held = some old ∧ ∀ record ∈ records, tombstoneRefuses old record) ∨
    ∀ record ∈ records, record.state = .removed → (∀ old, held = some old → newer record old) →
      (∀ other ∈ records, other.incarnation ≤ record.incarnation) →
      ∀ other ∈ records, ¬ newer other record

/-! ### One merge is one offer -/

/-- What a merge does to the table, once its checks have passed. -/
theorem membershipMerge_foreign {table : SuperPeer} {record : MemberRecord}
    (foreign : Foreign table record) (now : Int) :
    (membershipMerge table now record).1 =
      match table.find record.id with
      | none =>
        if table.members.length ≥ maxMembers then table
        else { table with members := table.members ++ [entered now record] }
      | some old =>
        if newer record old ∧ ¬ tombstoneRefuses old record then
          table.overwrite record.id (replaced old record)
        else table := by
  obtain ⟨input, decoded⟩ := foreign.decoded
  have reported : ¬ (record.node.role = .peer ∧ record.home ≠ record.reporter) :=
    fun wrong => wrong.2 (foreign.reported wrong.1)
  rw [membershipMerge, nodeValidate_of_gossipDecodeRecord decoded]
  simp only [if_neg foreign.remote, if_neg reported]
  cases found : table.find record.id with
  | none =>
    simp only
    split <;> rfl
  | some old =>
    simp only [foreign.known old found, not_false_eq_true, and_true]
    split <;> rfl

/-- What a table says about a node after one merge. -/
theorem view_membershipMerge {table : SuperPeer} {record : MemberRecord}
    (foreign : Foreign table record)
    (room : table.find record.id = none → table.members.length < maxMembers) (now : Int)
    (id : NodeID) :
    (membershipMerge table now record).1.view id =
      if record.id = id then
        Register.offer MemberView.rank MemberView.refuses (table.view id) record.view
      else table.view id := by
  rw [membershipMerge_foreign foreign]
  cases found : table.find record.id with
  | none =>
    simp only
    rw [if_neg (not_le.mpr (room found))]
    have lookup : ({ table with members := table.members ++ [entered now record] } :
        SuperPeer).find id = (table.find id).or (if record.id = id then some (entered now record)
          else none) := by
      rw [SuperPeer.find, KeyedList.lookup_append, KeyedList.lookup_singleton]
      rfl
    rw [SuperPeer.view, lookup]
    split
    · rename_i same
      subst same
      rw [SuperPeer.view, found]
      rfl
    · rw [Option.or_none]
      rfl
  | some old =>
    simp only
    split
    · rename_i taken
      rw [SuperPeer.view, find_overwrite (show (replaced old record).id = record.id from rfl)]
      split
      · rename_i same
        subst same
        have offered : Register.offer MemberView.rank MemberView.refuses (some old.view)
            record.view = some record.view :=
          if_pos ⟨(newer_iff record old).mp taken.1, taken.2⟩
        rw [if_pos rfl, SuperPeer.view, found]
        exact offered.symm
      · rename_i different
        rw [if_neg fun same => different same.symm]
        rfl
    · rename_i kept
      split
      · rename_i same
        subst same
        have offered : Register.offer MemberView.rank MemberView.refuses (some old.view)
            record.view = some old.view :=
          if_neg fun taken => kept ⟨(newer_iff record old).mpr taken.1, taken.2⟩
        rw [SuperPeer.view, found]
        exact offered.symm
      · rfl

/-! ### Sequences of merges -/

/-- What a merge adds to the table, or changes in it, comes from the merged record. -/
theorem find_membershipMerge {table : SuperPeer} {record found : MemberRecord}
    (foreign : Foreign table record) {now : Int} {id : NodeID}
    (later : (membershipMerge table now record).1.find id = some found) :
    table.find id = some found ∨
      found.node.role = record.node.role ∧ found.home = record.home := by
  rw [membershipMerge_foreign foreign] at later
  cases held : table.find record.id with
  | none =>
    simp only [held] at later
    split at later
    · exact Or.inl later
    · rw [SuperPeer.find, KeyedList.lookup_append, KeyedList.lookup_singleton,
        Option.or_eq_some_iff] at later
      rcases later with old | ⟨-, new⟩
      · exact Or.inl old
      · split at new
        · cases new
          exact Or.inr ⟨rfl, rfl⟩
        · cases new
  | some old =>
    simp only [held] at later
    split at later
    · rw [find_overwrite (show (replaced old record).id = record.id from rfl)] at later
      split at later
      · obtain ⟨-, -, rfl⟩ := Option.map_eq_some_iff.mp later
        exact Or.inr ⟨rfl, rfl⟩
      · exact Or.inl later
    · exact Or.inl later

theorem localNode_membershipMerge {table : SuperPeer} {record : MemberRecord}
    (foreign : Foreign table record) (now : Int) :
    (membershipMerge table now record).1.localNode = table.localNode := by
  rw [membershipMerge_foreign foreign]
  split
  · split <;> rfl
  · split <;> rfl

theorem Foreign.kept {table : SuperPeer} {record other : MemberRecord}
    (foreign : Foreign table record) (merged : Foreign table other) (now : Int) :
    Foreign (membershipMerge table now other).1 record := by
  have same := localNode_membershipMerge merged now
  refine ⟨foreign.decoded, by rw [same]; exact foreign.remote, foreign.reported, ?_, ?_⟩
  · unfold homedHere
    rw [same]
    exact foreign.elsewhere
  · intro old found
    unfold homedHere
    rw [same]
    rcases find_membershipMerge merged found with earlier | ⟨role, home⟩
    · exact foreign.known old earlier
    · rw [role, home]
      exact merged.elsewhere

omit [Inet] [Sha256] [Process] in
theorem mem_nodesOf {records : List MemberRecord} {id : NodeID} :
    id ∈ nodesOf records ↔ ∃ record ∈ records, record.id = id := by
  simp [nodesOf]

omit [Inet] [Sha256] [Process] in
theorem HasRoom.of_length {table : SuperPeer} {records : List MemberRecord}
    (room : table.members.length + records.length ≤ maxMembers) : HasRoom table records := by
  have fewer := Finset.card_le_card
    (Finset.sdiff_subset (s := nodesOf records) (t := nodesOf table.members))
  have nodes := List.toFinset_card_le (records.map MemberRecord.id)
  rw [List.length_map] at nodes
  exact le_trans (Nat.add_le_add_left (le_trans fewer nodes) _) room

omit [Inet] [Sha256] [Process] in
/-- A table with room for records has room for the next one of them. -/
theorem HasRoom.next {table : SuperPeer} {records : List MemberRecord}
    (room : HasRoom table records) {record : MemberRecord} (member : record ∈ records)
    (absent : table.find record.id = none) : table.members.length < maxMembers := by
  have missing : record.id ∈ nodesOf records \ nodesOf table.members := by
    refine Finset.mem_sdiff.mpr ⟨mem_nodesOf.mpr ⟨record, member, rfl⟩, fun present => ?_⟩
    obtain ⟨other, otherMember, same⟩ := mem_nodesOf.mp present
    exact KeyedList.lookup_eq_none.mp absent other otherMember same
  have positive := Finset.card_pos.mpr ⟨_, missing⟩
  unfold HasRoom at room
  omega

theorem HasRoom.kept {table : SuperPeer} {records : List MemberRecord}
    (room : HasRoom table records) {record : MemberRecord} (member : record ∈ records)
    (foreign : Foreign table record) (now : Int) :
    HasRoom (membershipMerge table now record).1 records := by
  rw [membershipMerge_foreign foreign]
  cases found : table.find record.id with
  | none =>
    simp only
    have space := room.next member found
    rw [if_neg (not_le.mpr space)]
    have missing : record.id ∈ nodesOf records \ nodesOf table.members := by
      refine Finset.mem_sdiff.mpr ⟨mem_nodesOf.mpr ⟨record, member, rfl⟩, fun present => ?_⟩
      obtain ⟨other, otherMember, same⟩ := mem_nodesOf.mp present
      exact KeyedList.lookup_eq_none.mp found other otherMember same
    have fewer : nodesOf records \ nodesOf (table.members ++ [entered now record]) =
        (nodesOf records \ nodesOf table.members).erase record.id := by
      ext id
      simp only [Finset.mem_sdiff, Finset.mem_erase, mem_nodesOf, List.mem_append,
        List.mem_singleton, or_and_right, exists_or, exists_eq_left, not_or]
      have same : (entered now record).id = record.id := rfl
      rw [same]
      constructor
      · rintro ⟨known, notOld, notNew⟩
        exact ⟨fun equal => notNew equal.symm, known, notOld⟩
      · rintro ⟨notNew, known, notOld⟩
        exact ⟨known, notOld, fun equal => notNew equal.symm⟩
    unfold HasRoom at room ⊢
    simp only
    rw [fewer, Finset.card_erase_of_mem missing, List.length_append, List.length_singleton]
    have positive := Finset.card_pos.mpr ⟨_, missing⟩
    omega
  | some old =>
    simp only
    split
    · have keys : (table.overwrite record.id (replaced old record)).members.map MemberRecord.id =
          table.members.map MemberRecord.id := by
        refine KeyedList.map_modify _ ?_ table.members
        exact fun row same => same.symm
      have sameNodes : nodesOf (table.overwrite record.id (replaced old record)).members =
          nodesOf table.members := congrArg List.toFinset keys
      have sameLength := congrArg List.length keys
      rw [List.length_map, List.length_map] at sameLength
      unfold HasRoom at room ⊢
      rw [sameNodes, sameLength]
      exact room
    · exact room

/-- What a table says about a node after a sequence of merges: the offers of the records about
that node, in their order. -/
theorem view_mergeAll {records : List MemberRecord} (arrivals : List (Int × MemberRecord))
    (members : ∀ arrival ∈ arrivals, arrival.2 ∈ records) (table : SuperPeer)
    (foreign : ∀ record ∈ records, Foreign table record) (room : HasRoom table records)
    (id : NodeID) :
    (mergeAll table arrivals).view id =
      ((about id (arrivals.map Prod.snd)).map MemberRecord.view).foldl
        (Register.offer MemberView.rank MemberView.refuses) (table.view id) := by
  induction arrivals generalizing table with
  | nil => rfl
  | cons arrival rest inductionHypothesis =>
    have member := members arrival List.mem_cons_self
    have merged := foreign arrival.2 member
    have step : mergeAll table (arrival :: rest) =
        mergeAll (membershipMerge table arrival.1 arrival.2).1 rest := rfl
    rw [step, inductionHypothesis
      (fun other otherMember => members other (List.mem_cons_of_mem _ otherMember)) _
      (fun record recordMember => (foreign record recordMember).kept merged _)
      (room.kept member merged _), view_membershipMerge merged (room.next member)]
    rw [about, about, List.map_cons, List.filter_cons]
    split
    · rename_i same
      rw [if_pos (decide_eq_true same), List.map_cons, List.foldl_cons]
    · rename_i different
      rw [if_neg (by simpa using different)]

end Convergence

/-! ### When the order does not matter -/

/-- The greatest rank among the records about a node and the record that the table holds. -/
structure Greatest (held : Option MemberRecord) (records : List MemberRecord)
    (best : MemberRecord) : Prop where
  member : held = some best ∨ best ∈ records
  heldBelow : ∀ old, held = some old → old.view.rank ≤ best.view.rank
  below : ∀ record ∈ records, record.view.rank ≤ best.view.rank

theorem exists_greatest (held : Option MemberRecord) {records : List MemberRecord}
    (nonempty : records ≠ []) : ∃ best, Greatest held records best := by
  have member : ∀ record, record ∈ (held.toList ++ records).toFinset ↔
      held = some record ∨ record ∈ records := by
    intro record
    rw [List.mem_toFinset, List.mem_append, Option.mem_toList]
  obtain ⟨first, firstMember⟩ := List.exists_mem_of_ne_nil records nonempty
  obtain ⟨best, bestMember, greatest⟩ := Finset.exists_max_image
    (held.toList ++ records).toFinset (fun record => record.view.rank)
    ⟨first, (member first).mpr (Or.inr firstMember)⟩
  exact ⟨best, (member best).mp bestMember,
    fun old same => greatest old ((member old).mpr (Or.inl same)),
    fun record inside => greatest record ((member record).mpr (Or.inr inside))⟩

/-- A record that the register can hold does not refuse the greatest record, unless it is as great
itself. -/
theorem rank_eq_of_refuses {held : Option MemberRecord} {records : List MemberRecord}
    (settled : Settled held records) {old : MemberRecord}
    (free : ¬ ∃ old, held = some old ∧ ∀ record ∈ records, tombstoneRefuses old record)
    {best : MemberRecord} (greatest : Greatest held records best)
    (holdable : held = some old ∨ old ∈ records ∧ ∀ first, held = some first → newer old first)
    (refuses : MemberView.refuses old.view best.view) : old.view.rank = best.view.rank := by
  have latest : ∀ record ∈ records, record.incarnation ≤ old.incarnation := fun record member =>
    UInt64.le_trans (MemberView.incarnation_le_of_rank_le (greatest.below record member)) refuses.2
  rcases holdable with first | ⟨member, above⟩
  · exact absurd ⟨old, first, fun record inside => ⟨refuses.1, latest record inside⟩⟩ free
  · have onlyGreatest := settled.resolve_left free old member refuses.1 above latest
    refine le_antisymm (greatest.below old member) ?_
    rcases greatest.member with isHeld | inRecords
    · exact le_of_lt ((newer_iff old best).mp (above best isHeld))
    · refine not_lt.mp fun less => onlyGreatest best inRecords ?_
      exact (newer_iff best old).mpr less

theorem rank_of_settled {held : Option MemberRecord} {records others : List MemberRecord}
    (same : ∀ record, record ∈ records ↔ record ∈ others) (settled : Settled held records)
    (free : ¬ ∃ old, held = some old ∧ ∀ record ∈ records, tombstoneRefuses old record)
    {best : MemberRecord} (greatest : Greatest held records best) :
    ((others.map MemberRecord.view).foldl (Register.offer MemberView.rank MemberView.refuses)
      (held.map MemberRecord.view)).map MemberView.rank = some best.view.rank := by
  refine Register.foldl_offer_key ?_ ?_ ?_ ?_
  · intro view isHeld
    obtain ⟨old, found, rfl⟩ := Option.map_eq_some_iff.mp isHeld
    exact greatest.heldBelow old found
  · intro view member
    obtain ⟨record, inside, rfl⟩ := List.mem_map.mp member
    exact greatest.below record ((same record).mpr inside)
  · rcases greatest.member with isHeld | inRecords
    · exact Or.inl ⟨best.view, by rw [isHeld]; rfl, rfl⟩
    · exact Or.inr ⟨best.view, List.mem_map_of_mem ((same best).mp inRecords), rfl⟩
  · intro view holdable value member isBest refuses
    rw [MemberView.rank_injective isBest] at refuses
    rcases holdable with isHeld | ⟨inOthers, above⟩
    · obtain ⟨old, found, rfl⟩ := Option.map_eq_some_iff.mp isHeld
      exact rank_eq_of_refuses settled free greatest (Or.inl found) refuses
    · obtain ⟨record, inside, rfl⟩ := List.mem_map.mp inOthers
      refine rank_eq_of_refuses settled free greatest (Or.inr ⟨(same record).mpr inside, ?_⟩)
        refuses
      intro first isHeld
      exact (newer_iff record first).mpr (above first.view (by rw [isHeld]; rfl))

/-- The register of a node ends with the same view for any two sequences of the same records, when
no tombstone makes their order matter. -/
theorem foldl_offer_eq_of_settled {held : Option MemberRecord} {records others : List MemberRecord}
    (same : ∀ record, record ∈ records ↔ record ∈ others) (settled : Settled held records) :
    (records.map MemberRecord.view).foldl (Register.offer MemberView.rank MemberView.refuses)
        (held.map MemberRecord.view) =
      (others.map MemberRecord.view).foldl (Register.offer MemberView.rank MemberView.refuses)
        (held.map MemberRecord.view) := by
  by_cases refused : ∃ old, held = some old ∧ ∀ record ∈ records, tombstoneRefuses old record
  · obtain ⟨old, rfl, all⟩ := refused
    have stays : ∀ list : List MemberRecord, (∀ record ∈ list, record ∈ records) →
        (list.map MemberRecord.view).foldl (Register.offer MemberView.rank MemberView.refuses)
          (some old.view) = some old.view := by
      intro list inside
      refine Register.foldl_offer_of_refused fun view member => ?_
      obtain ⟨record, inList, rfl⟩ := List.mem_map.mp member
      exact all record (inside record inList)
    exact (stays records fun _ inside => inside).trans
      (stays others fun record inside => (same record).mpr inside).symm
  by_cases empty : records = []
  · have othersEmpty : others = [] := by
      refine List.eq_nil_iff_forall_not_mem.mpr fun record inside => ?_
      rw [empty] at same
      exact List.not_mem_nil ((same record).mpr inside)
    rw [empty, othersEmpty]
  · obtain ⟨best, greatest⟩ := exists_greatest held empty
    refine Option.map_injective (fun _ _ => MemberView.rank_injective) ?_
    rw [rank_of_settled (fun _ => Iff.rfl) settled refused greatest,
      rank_of_settled same settled refused greatest]

section OrderIndependence

variable [Inet] [Sha256] [Process]

/-- Merging foreign records in any order and with any repetitions leaves the same incarnation,
sequence, state, version and reporter for every node, when the table has room for all the nodes
and no tombstone makes the order matter. -/
theorem mergeAll_order_independent (table : SuperPeer) (arrivals others : List (Int × MemberRecord))
    (same : ∀ record, record ∈ arrivals.map Prod.snd ↔ record ∈ others.map Prod.snd)
    (foreign : ∀ record ∈ arrivals.map Prod.snd, Foreign table record)
    (room : HasRoom table (arrivals.map Prod.snd))
    (settled : ∀ id, Settled (table.find id) (about id (arrivals.map Prod.snd))) (id : NodeID) :
    (mergeAll table arrivals).view id = (mergeAll table others).view id := by
  have sameAbout : ∀ record, record ∈ about id (arrivals.map Prod.snd) ↔
      record ∈ about id (others.map Prod.snd) := by
    intro record
    rw [about, about, List.mem_filter, List.mem_filter, same]
  rw [view_mergeAll arrivals (fun arrival member => List.mem_map_of_mem member) table foreign room,
    view_mergeAll others (fun arrival member => (same _).mpr (List.mem_map_of_mem member)) table
      foreign room]
  exact foldl_offer_eq_of_settled sameAbout (settled id)

end OrderIndependence

/-! ### Where the order matters -/

/-- The table of a super peer that has just been created. -/
def lonely : SuperPeer := SuperPeer.fresh (neighbour 1) 0 0

/-- A record of the first incarnation of a super peer, reported by itself. -/
def rumour (port : UInt8) (state : SuperPeerMemberState) (sequence : UInt8) : MemberRecord where
  node := neighbour port
  state := state
  lastSeen := 0
  home := (neighbour port).id
  reporter := (neighbour port).id
  incarnation := 1
  sequence := sequence.toUInt64
  version := 1
  observedMs := 0
  probeMs := 0
  failedProbes := 0
  localRegistration := false

/-- Its bytes on the wire. -/
def rumourBytes (port : UInt8) (state : SuperPeerMemberState) (sequence : UInt8) :
    Octets membershipWireSize :=
  let node := neighbour port
  Octets.read membershipWireSize (node.id.toList ++ node.config.ip ++ List.replicate 37 0 ++
    [0, port] ++ List.replicate 16 0 ++ [1] ++ node.id.toList ++ wirePutU64 1 ++
    wirePutU64 sequence.toUInt64 ++ wirePutU64 1 ++ [UInt8.ofNat state.number] ++ node.id.toList)

/-- That table with a number of further records, about nodes whose ids begin with a zero byte. -/
def crowded (count : Nat) : SuperPeer where
  localNode := neighbour 1
  members := setMember (neighbour 1) 0 0 :: (List.range count).map fun number =>
    { rumour 2 .alive 1 with
      node := { neighbour 2 with id := Octets.read nodeIdSize (0 :: BigEndian.digits 2 number) } }

theorem length_crowded (count : Nat) : (crowded count).members.length = count + 1 := by
  rw [crowded, List.length_cons, List.length_map, List.length_range]

theorem find_lonely {id : NodeID} (remote : id ≠ (neighbour 1).id) : lonely.find id = none := by
  refine KeyedList.lookup_eq_none.mpr fun row member same => remote ?_
  rw [← same, List.mem_singleton.mp member]
  rfl

theorem find_crowded (count : Nat) {id : NodeID} (remote : id ≠ (neighbour 1).id)
    (begins : id.toList.head? ≠ some 0) : (crowded count).find id = none := by
  refine KeyedList.lookup_eq_none.mpr fun row member same => ?_
  rcases List.mem_cons.mp member with rfl | further
  · exact remote same.symm
  · obtain ⟨number, -, rfl⟩ := List.mem_map.mp further
    refine begins ?_
    rw [← same]
    rfl

/-- The ids of the neighbours differ, and those that are no local node do not begin with a zero
byte. -/
theorem neighbours_apart :
    (neighbour 2).id ≠ (neighbour 1).id ∧ (neighbour 3).id ≠ (neighbour 1).id ∧
      (neighbour 2).id ≠ (neighbour 3).id ∧ (neighbour 2).id.toList.head? ≠ some 0 ∧
      (neighbour 3).id.toList.head? ≠ some 0 := by
  decide +kernel

/-- The ports, states and sequences of the rumours below. -/
def rumours : List (UInt8 × SuperPeerMemberState × UInt8) :=
  [(2, .alive, 5), (2, .removed, 3), (2, .removed, 7), (3, .alive, 5)]

theorem rumours_decoded :
    letI := Inet.reference; letI := Sha256.reference; letI := Process.first
    ∀ told ∈ rumours, gossipDecodeRecord (rumourBytes told.1 told.2.1 told.2.2) =
      .ok (rumour told.1 told.2.1 told.2.2) := by
  decide +kernel

theorem foreign_rumour {table : SuperPeer} {port : UInt8} {state : SuperPeerMemberState}
    {sequence : UInt8} (told : (port, state, sequence) ∈ rumours)
    (remote : (neighbour port).id ≠ table.localNode.id)
    (absent : table.find (neighbour port).id = none) :
    letI := Inet.reference; letI := Sha256.reference; letI := Process.first
    Foreign table (rumour port state sequence) := by
  let inet := Inet.reference
  let sha := Sha256.reference
  let process := Process.first
  have decoded : gossipDecodeRecord (rumourBytes port state sequence) =
      .ok (rumour port state sequence) := rumours_decoded (port, state, sequence) told
  refine ⟨⟨_, decoded⟩, remote, ?_, ?_, ?_⟩
  · intro peer
    cases peer
  · rintro ⟨peer, -⟩
    cases peer
  · intro old found
    rw [show (rumour port state sequence).id = (neighbour port).id from rfl, absent] at found
    cases found

/-- In a table with room for one more node, the first of two new nodes keeps the second out. -/
theorem mergeAll_crowded {count : Nat} {first second : MemberRecord}
    (almost : count + 2 = maxMembers) (different : first.id ≠ second.id)
    (firstBegins : first.id.toList.head? ≠ some 0) (secondBegins : second.id.toList.head? ≠ some 0)
    (merged : letI := Inet.reference; letI := Sha256.reference; letI := Process.first
      Foreign (crowded count) first ∧ Foreign (crowded count) second) :
    letI := Inet.reference; letI := Sha256.reference; letI := Process.first
    mergeAll (crowded count) [(0, first), (0, second)] =
      { crowded count with members := (crowded count).members ++ [entered 0 first] } := by
  let inet := Inet.reference
  let sha := Sha256.reference
  let process := Process.first
  have after : (membershipMerge (crowded count) 0 first).1 =
      { crowded count with members := (crowded count).members ++ [entered 0 first] } := by
    rw [membershipMerge_foreign merged.1, find_crowded count merged.1.remote firstBegins]
    simp only
    rw [if_neg (by rw [length_crowded]; omega)]
  have absent : ({ crowded count with members := (crowded count).members ++ [entered 0 first] } :
      SuperPeer).find second.id = none := by
    rw [SuperPeer.find, KeyedList.lookup_append, KeyedList.lookup_singleton,
      show (entered 0 first).id = first.id from rfl, if_neg different, Option.or_none]
    exact find_crowded count merged.2.remote secondBegins
  have full : (crowded count).members.length + 1 ≥ maxMembers := by
    rw [length_crowded, almost]
  show (membershipMerge (membershipMerge (crowded count) 0 first).1 0 second).1 = _
  rw [membershipMerge_foreign (merged.2.kept merged.1 0), after, absent]
  simp only
  rw [if_pos (by rw [List.length_append, List.length_singleton]; exact full)]

/-- The two ways in which the order of the records matters. A tombstone that arrives before a
later sequence of the same incarnation stands against it, and one that arrives after it is out of
date, also in a table with room; and a table that is almost full takes the first of two new nodes,
also when no record is a tombstone. -/
theorem mergeAll_depends_on_order :
    letI := Inet.reference; letI := Sha256.reference; letI := Process.first
    (¬ ∀ (table : SuperPeer) (arrivals others : List (Int × MemberRecord)),
      (∀ record, record ∈ arrivals.map Prod.snd ↔ record ∈ others.map Prod.snd) →
      (∀ record ∈ arrivals.map Prod.snd, Foreign table record) →
      HasRoom table (arrivals.map Prod.snd) →
      ∀ id, (mergeAll table arrivals).view id = (mergeAll table others).view id) ∧
    ¬ ∀ (table : SuperPeer) (arrivals others : List (Int × MemberRecord)),
      (∀ record, record ∈ arrivals.map Prod.snd ↔ record ∈ others.map Prod.snd) →
      (∀ record ∈ arrivals.map Prod.snd, Foreign table record) →
      (∀ record ∈ arrivals.map Prod.snd, record.state ≠ .removed) →
      ∀ id, (mergeAll table arrivals).view id = (mergeAll table others).view id := by
  let inet := Inet.reference
  let sha := Sha256.reference
  let process := Process.first
  have pair : ∀ {first second record : MemberRecord},
      record ∈ ([(0, first), (0, second)] : List (Int × MemberRecord)).map Prod.snd ↔
        record = first ∨ record = second := by
    intro first second record
    simp
  have swapped : ∀ {first second record : MemberRecord},
      record ∈ ([(0, first), (0, second)] : List (Int × MemberRecord)).map Prod.snd ↔
        record ∈ ([(0, second), (0, first)] : List (Int × MemberRecord)).map Prod.snd := by
    intro first second record
    rw [pair, pair]
    exact or_comm
  obtain ⟨secondRemote, thirdRemote, different, secondBegins, thirdBegins⟩ := neighbours_apart
  constructor
  · intro independent
    have alive : Foreign lonely (rumour 2 .alive 5) :=
      foreign_rumour (by decide) secondRemote (find_lonely secondRemote)
    have removed : Foreign lonely (rumour 2 .removed 3) :=
      foreign_rumour (by decide) secondRemote (find_lonely secondRemote)
    have equal := independent lonely [(0, rumour 2 .alive 5), (0, rumour 2 .removed 3)]
      [(0, rumour 2 .removed 3), (0, rumour 2 .alive 5)] (fun record => swapped)
      (fun record member => (pair.mp member).elim (fun same => same ▸ alive)
        fun same => same ▸ removed)
      (HasRoom.of_length (Nat.le_add_left 3 65533)) (neighbour 2).id
    have states := congrArg (Option.map MemberView.state) equal
    revert states
    decide +kernel
  · intro independent
    obtain ⟨count, almost⟩ : ∃ count, count + 2 = maxMembers := ⟨65534, rfl⟩
    have different : (rumour 2 .alive 5).id ≠ (rumour 3 .alive 5).id := different
    have second : Foreign (crowded count) (rumour 2 .alive 5) :=
      foreign_rumour (by decide) secondRemote (find_crowded count secondRemote secondBegins)
    have third : Foreign (crowded count) (rumour 3 .alive 5) :=
      foreign_rumour (by decide) thirdRemote (find_crowded count thirdRemote thirdBegins)
    have equal := independent (crowded count) [(0, rumour 2 .alive 5), (0, rumour 3 .alive 5)]
      [(0, rumour 3 .alive 5), (0, rumour 2 .alive 5)] (fun record => swapped)
      (fun record member => (pair.mp member).elim (fun same => same ▸ second)
        fun same => same ▸ third)
      (fun record member => (pair.mp member).elim (fun same => by rw [same]; decide)
        fun same => by rw [same]; decide) (rumour 3 .alive 5).id
    have out := mergeAll_crowded almost different secondBegins thirdBegins ⟨second, third⟩
    have inside := mergeAll_crowded almost different.symm thirdBegins secondBegins ⟨third, second⟩
    rw [out, inside, SuperPeer.view, SuperPeer.view, SuperPeer.find, SuperPeer.find,
      KeyedList.lookup_append, KeyedList.lookup_append, KeyedList.lookup_singleton,
      KeyedList.lookup_singleton] at equal
    rw [show KeyedList.lookup MemberRecord.id (crowded count).members (rumour 3 .alive 5).id = none
      from find_crowded count thirdRemote thirdBegins,
      show (entered 0 (rumour 2 .alive 5)).id = (rumour 2 .alive 5).id from rfl,
      show (entered 0 (rumour 3 .alive 5)).id = (rumour 3 .alive 5).id from rfl,
      if_neg different, if_pos rfl] at equal
    cases equal

/-- A tombstone with the latest sequence ends the same way before and after the other record. -/
theorem mergeAll_order_independent_rumours :
    letI := Inet.reference; letI := Sha256.reference; letI := Process.first
    (mergeAll lonely [(0, rumour 2 .alive 5), (1, rumour 2 .removed 7)]).view (neighbour 2).id =
      (mergeAll lonely [(0, rumour 2 .removed 7), (1, rumour 2 .alive 5),
        (2, rumour 2 .removed 7)]).view (neighbour 2).id := by
  let inet := Inet.reference
  let sha := Sha256.reference
  let process := Process.first
  have remote : (neighbour 2).id ≠ (neighbour 1).id := neighbours_apart.1
  have absent : lonely.find (neighbour 2).id = none := find_lonely remote
  have alive : Foreign lonely (rumour 2 .alive 5) := foreign_rumour (by decide) remote absent
  have removed : Foreign lonely (rumour 2 .removed 7) := foreign_rumour (by decide) remote absent
  have member : ∀ {record : MemberRecord},
      record ∈ ([(0, rumour 2 .alive 5), (1, rumour 2 .removed 7)] :
        List (Int × MemberRecord)).map Prod.snd →
        record = rumour 2 .alive 5 ∨ record = rumour 2 .removed 7 := by
    intro record inside
    simpa using inside
  refine mergeAll_order_independent lonely _ _ ?_ ?_ ?_ ?_ _
  · intro record
    simp only [List.map_cons, List.map_nil, List.mem_cons, List.not_mem_nil, or_false]
    exact ⟨fun either => either.elim (fun first => Or.inr (Or.inl first)) Or.inl,
      fun any => any.elim Or.inr id⟩
  · intro record inside
    rcases member inside with rfl | rfl
    · exact alive
    · exact removed
  · refine HasRoom.of_length ?_
    unfold maxMembers
    exact Nat.le_add_left 3 65533
  · intro id
    refine Or.inr fun record inside isRemoved _ _ other otherInside => ?_
    rcases member (List.mem_filter.mp inside).1 with rfl | rfl
    · cases isRemoved
    · rcases member (List.mem_filter.mp otherInside).1 with rfl | rfl
      · decide +kernel
      · decide +kernel

end SuperPeerNet
