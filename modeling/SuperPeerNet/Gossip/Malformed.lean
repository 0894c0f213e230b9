/-
This file proves that a malformed control packet changes nothing.

The checks of `apply_packet` are modelled here with their accesses to memory: every read of the
packet is checked against its end, and every write to the batch against the size of the array. The
form that a packet has to have is stated on its own, record by record, and the checks accept exactly
the packets of this form, for every byte string. All of them come before the first update.
-/

import SuperPeerNet.Library.Bounded
import SuperPeerNet.Gossip.Packets

namespace SuperPeerNet

open Bounded

section Malformed

variable [Inet] [Sha256] [Process]

/-! ### The form of a packet -/

/-- The record at an offset of a packet. -/
def recordAt (payload : List UInt8) (offset : Nat) : Except Errno MemberRecord :=
  gossipDecodeRecord (Octets.read membershipWireSize (payload.drop offset))

/-- The offset of a record of the batch. -/
def batchOffset (position : Nat) : Nat :=
  heartbeatWireSize + 2 + position * membershipWireSize

/-- What the sender of a packet has to be. -/
structure WellFormedSender (localId source : NodeID) (gossip : Bool) (sender : MemberRecord) :
    Prop where
  isSource : sender.id = source
  remote : sender.id ≠ localId
  alive : sender.state = .alive
  incarnation : sender.incarnation ≠ 0
  sequence : sender.sequence ≠ 0
  home : sender.node.role = .superPeer → sender.home = sender.id
  gossips : gossip → sender.node.role ≠ .peer

/-- What a record of the batch has to be. -/
structure WellFormedRumour (rumour : MemberRecord) : Prop where
  incarnation : rumour.incarnation ≠ 0
  home : rumour.node.role = .peer → rumour.home = rumour.reporter

/-- What a packet has to be. -/
structure WellFormedPacket (localId source : NodeID) (gossip : Bool) (payload : List UInt8) :
    Prop where
  version : payload.getD 0 0 = 1
  count : packetCount payload gossip ≤ gossipBatchMax
  size : payload.length = packetSize gossip (packetCount payload gossip)
  sender : ∃ sender, recordAt payload 1 = .ok sender ∧
    WellFormedSender localId source gossip sender
  batch : ∀ position < packetCount payload gossip, ∃ rumour,
    recordAt payload (batchOffset position) = .ok rumour ∧ WellFormedRumour rumour

/-- A packet is accepted if its sender and its batch are. -/
theorem decodeBatch_eq_ok_iff (count : Nat) (bytes : List UInt8) :
    (∃ batch, decodeBatch count bytes = .ok batch) ↔ ∀ position < count, ∃ rumour,
      recordAt bytes (position * membershipWireSize) = .ok rumour ∧ WellFormedRumour rumour := by
  induction count generalizing bytes with
  | zero => exact ⟨fun _ _ impossible => absurd impossible (Nat.not_lt_zero _), fun _ => ⟨[], rfl⟩⟩
  | succ count inductionHypothesis =>
    have next : ∀ position, recordAt (bytes.drop membershipWireSize)
        (position * membershipWireSize) = recordAt bytes ((position + 1) * membershipWireSize) := by
      intro position
      rw [recordAt, recordAt, List.drop_drop, Nat.succ_mul, Nat.add_comm]
    rw [Nat.forall_lt_succ_left, Nat.zero_mul]
    simp only [← next]
    rw [← inductionHypothesis, decodeBatch, recordAt, List.drop_zero]
    cases decoded : gossipDecodeRecord (Octets.read membershipWireSize bytes) with
    | error code =>
      constructor
      · rintro ⟨_, wrong⟩
        cases wrong
      · rintro ⟨⟨_, wrong, _⟩, _⟩
        cases wrong
    | ok record =>
      dsimp only
      split
      · rename_i refused
        constructor
        · rintro ⟨_, wrong⟩
          cases wrong
        · rintro ⟨⟨rumour, same, well⟩, _⟩
          cases same
          rcases refused with zero | ⟨isPeer, different⟩
          · exact absurd zero well.incarnation
          · exact absurd (well.home isPeer) different
      · rename_i accepted
        obtain ⟨begun, reported⟩ := not_or.mp accepted
        have well : WellFormedRumour record := ⟨begun, fun isPeer => not_ne_iff.mp fun different =>
          reported ⟨isPeer, different⟩⟩
        cases decodeBatch count (bytes.drop membershipWireSize) with
        | error code =>
          constructor
          · rintro ⟨_, wrong⟩
            cases wrong
          · rintro ⟨_, _, wrong⟩
            cases wrong
        | ok records => exact ⟨fun _ => ⟨⟨record, rfl, well⟩, records, rfl⟩, fun _ => ⟨_, rfl⟩⟩

omit [Inet] [Sha256] [Process] in
/-- The checks of the sender are those of its form. -/
theorem wellFormedSender_iff {localId source : NodeID} {gossip : Bool} {sender : MemberRecord} :
    WellFormedSender localId source gossip sender ↔
      ¬ senderRefused localId source gossip sender ∧
        ¬ (sender.node.role = .superPeer ∧ sender.home ≠ source) := by
  simp only [senderRefused, not_or, not_and, not_not]
  constructor
  · rintro ⟨isSource, remote, alive, incarnation, sequence, home, gossips⟩
    refine ⟨⟨isSource.symm, alive, incarnation, sequence, isSource ▸ remote, fun sent => ?_⟩,
      fun isSuper => (home isSuper).trans isSource⟩
    cases role : sender.node.role with
    | peer => exact absurd role (gossips sent)
    | superPeer => rfl
  · rintro ⟨⟨isSource, alive, incarnation, sequence, remote, gossips⟩, home⟩
    refine ⟨isSource.symm, isSource ▸ remote, alive, incarnation, sequence,
      fun isSuper => (home isSuper).trans isSource, fun sent isPeer => ?_⟩
    rw [gossips sent] at isPeer
    cases isPeer

/-- The checks accept exactly the packets of the right form. -/
theorem decodePacket_eq_ok_iff (localId source : NodeID) (gossip : Bool) (payload : List UInt8) :
    (∃ read, decodePacket localId payload source gossip = .ok read) ↔
      WellFormedPacket localId source gossip payload := by
  have offsets : ∀ position, recordAt (payload.drop (heartbeatWireSize + 2))
      (position * membershipWireSize) = recordAt payload (batchOffset position) := by
    intro position
    rw [recordAt, recordAt, List.drop_drop, batchOffset]
  have batch := decodeBatch_eq_ok_iff (packetCount payload gossip)
    (payload.drop (heartbeatWireSize + 2))
  simp only [offsets] at batch
  constructor
  · rintro ⟨read, accepted⟩
    unfold decodePacket at accepted
    split at accepted
    · cases accepted
    · rename_i started
      rw [not_or, not_not] at started
      split at accepted
      · cases accepted
      · split at accepted
        · cases accepted
        · rename_i sized
          rw [not_or, gt_iff_lt, not_lt, not_not] at sized
          split at accepted
          · cases accepted
          · rename_i sender decoded
            split at accepted
            · cases accepted
            · rename_i admitted
              split at accepted
              · cases accepted
              · rename_i owned
                split at accepted
                · cases accepted
                · rename_i records later
                  exact ⟨started.2, sized.1, sized.2,
                    ⟨sender, decoded, wellFormedSender_iff.mpr ⟨admitted, owned⟩⟩,
                    batch.mp ⟨records, later⟩⟩
  · rintro ⟨version, count, size, ⟨sender, decoded, isSender⟩, rumours⟩
    obtain ⟨records, later⟩ := batch.mpr rumours
    obtain ⟨admitted, owned⟩ := wellFormedSender_iff.mp isSender
    have long : ¬ payload.length < heartbeatWireSize := by
      rw [size, packetSize]
      omega
    have counted : ¬ (gossip = true ∧ payload.length < heartbeatWireSize + 2) := by
      rintro ⟨sent, short⟩
      rw [size, packetSize, if_pos sent] at short
      omega
    rw [recordAt] at decoded
    refine ⟨(sender, records), ?_⟩
    unfold decodePacket
    rw [if_neg (not_or.mpr ⟨long, not_not.mpr version⟩), if_neg counted,
      if_neg (not_or.mpr ⟨not_lt.mpr count, not_not.mpr size⟩), decoded]
    dsimp only
    rw [if_neg admitted, if_neg owned, later]

/-! ### The checks over memory -/

/-- `gossip_decode_record`, at an offset of the packet. -/
def loadRecord (payload : List UInt8) (offset : Nat) : Access Errno MemberRecord := do
  let field ← load payload (offset + 32) nodeAddressSize
  let role ← load payload (offset + 96) 1
  let state ← load payload (offset + 153) 1
  match gossipAddress field, NodeRole.ofByte (role.getD 0 0),
      SuperPeerMemberState.ofByte (state.getD 0 0) with
  | some ip, some role, some state =>
    let port ← wireGetU16 <$> load payload (offset + 78) 2
    let uuid ← load payload (offset + 80) nodeUuidSize
    match nodeConfigInitWithUuid ip port (Octets.read nodeUuidSize uuid) with
    | .error _ => refuse .ebadmsg
    | .ok config => match nodeInit config with
      | .error _ => refuse .ebadmsg
      | .ok node =>
        let id ← load payload (offset + 0) nodeIdSize
        reject .ebadmsg (node.id ≠ Octets.read nodeIdSize id)
        let home ← load payload (offset + 97) nodeIdSize
        let incarnation ← wireGetU64 <$> load payload (offset + 129) 8
        let sequence ← wireGetU64 <$> load payload (offset + 137) 8
        let version ← wireGetU64 <$> load payload (offset + 145) 8
        let reporter ← load payload (offset + 154) nodeIdSize
        pure
          { node := { node with role := role }
            state := state
            lastSeen := 0
            home := Octets.read nodeIdSize home
            reporter := Octets.read nodeIdSize reporter
            incarnation := incarnation
            sequence := sequence
            version := version
            observedMs := 0
            probeMs := 0
            failedProbes := 0
            localRegistration := false }
  | _, _, _ => refuse .ebadmsg

/-- The loop of `apply_packet` that decodes the batch into an array. -/
def loadBatch (payload : List UInt8) : (count position : Nat) → Access Errno (List MemberRecord)
  | 0, _ => .ok []
  | count + 1, position => do
    fit gossipBatchMax position 1
    let record ← recode .ebadmsg (loadRecord payload (batchOffset position))
    reject .ebadmsg
      (record.incarnation = 0 ∨ (record.node.role = .peer ∧ record.home ≠ record.reporter))
    let records ← loadBatch payload count (position + 1)
    pure (record :: records)

/-- The number of records that a packet announces, which is read if the packet has one. -/
def loadCount (payload : List UInt8) (gossip : Bool) : Access Errno Nat :=
  if gossip then do
    reject .ebadmsg (payload.length < heartbeatWireSize + 2)
    (fun bytes => (wireGetU16 bytes).toNat) <$> load payload heartbeatWireSize 2
  else pure 0

/-- The checks of `apply_packet`. -/
def loadPacket (localId : NodeID) (payload : List UInt8) (source : NodeID) (gossip : Bool) :
    Access Errno (MemberRecord × List MemberRecord) := do
  reject .ebadmsg (payload.length < heartbeatWireSize)
  let version ← load payload 0 1
  reject .ebadmsg (version.getD 0 0 ≠ 1)
  let count ← loadCount payload gossip
  reject .ebadmsg (count > gossipBatchMax ∨ payload.length ≠ packetSize gossip count)
  let sender ← recode .eacces (loadRecord payload 1)
  reject .eacces (senderRefused localId source gossip sender)
  reject .eacces (sender.node.role = .superPeer ∧ sender.home ≠ source)
  let batch ← loadBatch payload count 0
  pure (sender, batch)

/-- `apply_packet`, with its reads of the packet. What follows the checks does not read it. -/
def loadAndApplyPacket (heartbeat : Heartbeat) (payload : List UInt8) (source : NodeID)
    (gossip : Bool) (clocks : Clocks) : Heartbeat × Access Errno Unit :=
  match loadPacket heartbeat.localNode.id payload source gossip with
  | .error stop => (heartbeat, .error stop)
  | .ok (sender, batch) => match admitSender heartbeat sender source clocks with
    | (heartbeat, .error code) => (heartbeat, refuse code)
    | (heartbeat, .ok _) => match applyBatch clocks 2 heartbeat batch with
      | (heartbeat, .error code) => (heartbeat, refuse code)
      | (heartbeat, .ok _) =>
        ((heartbeatCheckpoint heartbeat).1, lift (heartbeatCheckpoint heartbeat).2)

/-! ### Nothing is read outside -/

theorem loadRecord_eq {payload : List UInt8} {offset : Nat}
    (inside : offset + membershipWireSize ≤ payload.length) :
    loadRecord payload offset = lift (recordAt payload offset) := by
  have enough : membershipWireSize ≤ (payload.drop offset).length := by
    rw [List.length_drop]
    omega
  have reads : ∀ before count, before + count ≤ membershipWireSize →
      (load payload (offset + before) count : Access Errno _) =
        .ok ((((payload.drop offset).take membershipWireSize).drop before).take count) := by
    intro before count within
    rw [load_of_inside (by omega), List.drop_take, List.take_take, List.drop_drop,
      Nat.min_eq_left (by omega)]
  unfold loadRecord recordAt gossipDecodeRecord
  rw [Octets.toList_read enough]
  simp only [reads 32 nodeAddressSize (by decide), reads 96 1 (by decide), reads 153 1 (by decide),
    reads 78 2 (by decide), reads 80 nodeUuidSize (by decide), reads 0 nodeIdSize (by decide),
    reads 97 nodeIdSize (by decide), reads 129 8 (by decide), reads 137 8 (by decide),
    reads 145 8 (by decide), reads 154 nodeIdSize (by decide), ok_bind, ok_map, getD_take_one,
    getD_drop_zero, wireGetU16_take, wireGetU64_take, Octets.read_take, reject_bind, List.drop_zero]
  generalize gossipAddress _ = address
  generalize NodeRole.ofByte _ = ofRole
  generalize SuperPeerMemberState.ofByte _ = ofState
  cases address with
  | none => rfl
  | some ip => cases ofRole with
    | none => rfl
    | some role => cases ofState with
      | none => rfl
      | some state =>
        dsimp only
        cases nodeConfigInitWithUuid ip _ _ with
        | error code => rfl
        | ok config =>
          dsimp only
          cases nodeInit config with
          | error code => rfl
          | ok node =>
            dsimp only
            split <;> rfl

theorem loadBatch_eq {payload : List UInt8} {count position : Nat}
    (inside : batchOffset (position + count) ≤ payload.length)
    (few : position + count ≤ gossipBatchMax) :
    loadBatch payload count position =
      lift (decodeBatch count (payload.drop (batchOffset position))) := by
  induction count generalizing position with
  | zero => rfl
  | succ count inductionHypothesis =>
    have next : batchOffset (position + 1) = batchOffset position + membershipWireSize := by
      rw [batchOffset, batchOffset, Nat.succ_mul]
      omega
    have within : batchOffset position + membershipWireSize ≤ payload.length := by
      have upTo : (position + 1) * membershipWireSize ≤ (position + (count + 1)) * membershipWireSize :=
        Nat.mul_le_mul_right _ (by omega)
      rw [← next]
      rw [batchOffset] at inside ⊢
      omega
    rw [loadBatch, decodeBatch, fit_of_inside (by omega), ok_bind, loadRecord_eq within,
      List.drop_drop, ← next, recordAt]
    cases gossipDecodeRecord (Octets.read membershipWireSize
      (payload.drop (batchOffset position))) with
    | error code => rfl
    | ok record =>
      show (reject Errno.ebadmsg _ >>= _) = _
      rw [reject_bind, inductionHypothesis (by rwa [Nat.add_right_comm]) (by omega)]
      dsimp only
      split
      · rfl
      · cases decodeBatch count (payload.drop (batchOffset (position + 1))) <;> rfl

theorem loadPacket_eq (localId : NodeID) (payload : List UInt8) (source : NodeID)
    (gossip : Bool) :
    loadPacket localId payload source gossip =
      lift (decodePacket localId payload source gossip) := by
  unfold loadPacket decodePacket
  by_cases short : payload.length < heartbeatWireSize
  · rw [if_pos (Or.inl short), reject_bind, if_pos short]
    rfl
  · have first : (load payload 0 1 : Access Errno _) = .ok (payload.take 1) :=
      load_of_inside (by rw [heartbeatWireSize] at short; omega)
    rw [reject_bind, if_neg short, first, ok_bind, reject_bind, getD_take_one]
    by_cases other : payload.getD 0 0 ≠ 1
    · rw [if_pos other, if_pos (Or.inr other)]
      rfl
    · rw [if_neg other, if_neg (not_or.mpr ⟨short, other⟩)]
      by_cases unannounced : gossip = true ∧ payload.length < heartbeatWireSize + 2
      · rw [if_pos unannounced, loadCount, if_pos unannounced.1, reject_bind,
          if_pos unannounced.2]
        rfl
      · rw [if_neg unannounced]
        have counted : loadCount payload gossip = .ok (packetCount payload gossip) := by
          unfold loadCount packetCount
          split
          · rename_i sent
            have long : heartbeatWireSize + 2 ≤ payload.length :=
              not_lt.mp fun shorter => unannounced ⟨sent, shorter⟩
            rw [reject_bind, if_neg (not_lt.mpr long), load_of_inside long, ok_map,
              wireGetU16_take]
          · rfl
        rw [counted, ok_bind, reject_bind]
        split
        · rfl
        · rename_i sized
          rw [not_or, gt_iff_lt, not_lt, not_not] at sized
          have sender : loadRecord payload 1 = lift (recordAt payload 1) :=
            loadRecord_eq (by rw [heartbeatWireSize] at short; rw [membershipWireSize]; omega)
          have batch : loadBatch payload (packetCount payload gossip) 0 =
              lift (decodeBatch (packetCount payload gossip)
                (payload.drop (heartbeatWireSize + 2))) := by
            cases gossip with
            | false => rfl
            | true =>
              have inside : batchOffset (0 + packetCount payload true) ≤ payload.length := by
                rw [sized.2, packetSize, if_pos rfl, batchOffset, Nat.zero_add, Nat.add_assoc]
              have loaded := loadBatch_eq inside ((Nat.zero_add _).trans_le sized.1)
              rw [batchOffset, Nat.zero_mul] at loaded
              exact loaded
          rw [sender, batch, recordAt]
          cases gossipDecodeRecord (Octets.read membershipWireSize (payload.drop 1)) with
          | error code => rfl
          | ok sender =>
            show (reject Errno.eacces _ >>= _) = _
            rw [reject_bind]
            dsimp only
            split
            · rfl
            · rw [reject_bind]
              split
              · rfl
              · cases decodeBatch (packetCount payload gossip) _ <;> rfl

/-- With its reads of the packet, `apply_packet` is the same, and it never reads outside. -/
theorem loadAndApplyPacket_eq (heartbeat : Heartbeat) (payload : List UInt8) (source : NodeID)
    (gossip : Bool) (clocks : Clocks) :
    loadAndApplyPacket heartbeat payload source gossip clocks =
      ((applyPacket heartbeat payload source gossip clocks).1,
        lift (applyPacket heartbeat payload source gossip clocks).2) := by
  unfold loadAndApplyPacket applyPacket
  rw [loadPacket_eq]
  cases decodePacket heartbeat.localNode.id payload source gossip with
  | error code => rfl
  | ok read =>
    dsimp only [lift_ok]
    cases admitSender heartbeat read.1 source clocks with
    | mk admitted result => cases result with
      | error code => rfl
      | ok done =>
        dsimp only
        cases applyBatch clocks 2 admitted read.2 with
        | mk merged result => cases result <;> rfl

/-- A packet that does not have the right form is refused. Nothing has been read outside of it, and
nothing has changed. -/
theorem malformed_packet_changes_nothing (heartbeat : Heartbeat) (payload : List UInt8)
    (source : NodeID) (gossip : Bool) (clocks : Clocks)
    (malformed : ¬ WellFormedPacket heartbeat.localNode.id source gossip payload) :
    ∃ code, applyPacket heartbeat payload source gossip clocks = (heartbeat, .error code) ∧
      loadAndApplyPacket heartbeat payload source gossip clocks =
        (heartbeat, .error (.refused code)) := by
  rw [loadAndApplyPacket_eq]
  unfold applyPacket
  rw [← decodePacket_eq_ok_iff] at malformed
  cases decoded : decodePacket heartbeat.localNode.id payload source gossip with
  | error code => exact ⟨code, rfl, rfl⟩
  | ok read => exact absurd ⟨read, decoded⟩ malformed

end Malformed

/-- A packet of the second neighbour with two records. The first is well formed, and the other one
has no incarnation. -/
def halfFormedPacket : List UInt8 :=
  let record := { setMember (neighbour 2) 0 0 with
    home := (neighbour 2).id, reporter := (neighbour 2).id, incarnation := 1, sequence := 1 }
  gossipBytes record [{ record with node := neighbour 3 },
    { record with node := neighbour 4, incarnation := 0 }]

/-- The record behind the first one is enough for the packet to be refused. -/
theorem malformed_packet_changes_nothing_half_formed :
    letI := Inet.reference; letI := Sha256.reference; letI := Process.first
    ∃ code, applyPacket (firstStart 1) halfFormedPacket (neighbour 2).id true
        ⟨fun _ => 0, fun _ => 0⟩ = (firstStart 1, .error code) ∧
      loadAndApplyPacket (firstStart 1) halfFormedPacket (neighbour 2).id true
        ⟨fun _ => 0, fun _ => 0⟩ = (firstStart 1, .error (.refused code)) := by
  let inet := Inet.reference
  let sha := Sha256.reference
  let process := Process.first
  have behind : 1 < packetCount halfFormedPacket true ∧
      ((recordAt halfFormedPacket (batchOffset 1)).toOption.all fun rumour =>
        rumour.incarnation = 0) = true := by decide +kernel
  refine malformed_packet_changes_nothing (firstStart 1) halfFormedPacket (neighbour 2).id true
    ⟨fun _ => 0, fun _ => 0⟩ fun well => ?_
  obtain ⟨rumour, decoded, form⟩ := well.batch 1 behind.1
  have zero := behind.2
  rw [decoded] at zero
  exact form.incarnation (of_decide_eq_true zero)

end SuperPeerNet
