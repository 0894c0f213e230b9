/-
This file models `heartbeat.c`: the epoch of the local node, the packets in which it tells
of itself and of its members, and what a received packet does. The threads that send packets
on a schedule are left to the callers; the gate under which every function here runs makes
each of them one step.

The files of the membership directory are part of the state. Both are replaced by writing a
temporary file and renaming it, so an operation on them succeeds, or fails without a trace,
or fails after the new file is in place.
-/

import SuperPeerNet.Gossip.Ledger

namespace SuperPeerNet

/-! ### The files -/

/-- How replacing a file fails: before the new file is in its place, or afterwards. -/
inductive FileFault where
  | unpublished (code : Errno)
  | published (code : Errno)
  deriving DecidableEq

/-- The membership directory: the files `node.incarnation` and `membership.bin`, and what the
coming file operations will run into. -/
structure MembershipDirectory where
  epoch : Option (List UInt8)
  ledger : Option (List UInt8)
  faults : List (Option FileFault)
  deriving DecidableEq

/-- The fault of the next operation. -/
def MembershipDirectory.fault (directory : MembershipDirectory) : Option FileFault :=
  directory.faults.headD none

/-- The directory after the next operation has run into its fault. -/
def MembershipDirectory.next (directory : MembershipDirectory) : MembershipDirectory :=
  { directory with faults := directory.faults.tail }

/-- The greatest 64-bit number, `UINT64_MAX`. -/
def maxUInt64 : UInt64 := 0xffffffffffffffff

/-! ### The state -/

/-- The fields of `struct Heartbeat` that outlive one call, with the files they stand beside. -/
structure Heartbeat where
  localNode : Node
  members : SuperPeer
  incarnation : UInt64
  sequence : UInt64
  home : NodeID
  needsReconnect : Bool
  cursor : Nat
  limits : Limits
  directory : MembershipDirectory
  deriving DecidableEq

/-- The epoch that the file holds, if it can be read. -/
def diskEpoch (file : Option (List UInt8)) : Except Errno UInt64 :=
  match file with
  | none => .ok 0
  | some bytes => if bytes.length ≠ 8 then .error .ebadmsg else .ok (wireGetU64 bytes)

/-- The epoch that is followed by the next one: the greater of those in the file and in
memory. -/
def latestEpoch (disk own : UInt64) : UInt64 := if disk > own then disk else own

/-- `advance_epoch`. -/
def advanceEpoch (heartbeat : Heartbeat) : Heartbeat × Except Errno Unit :=
  let fault := heartbeat.directory.fault
  let directory := heartbeat.directory.next
  match fault with
  | some (.unpublished code) => ({ heartbeat with directory := directory }, .error code)
  | _ => match diskEpoch directory.epoch with
    | .error code => ({ heartbeat with directory := directory }, .error code)
    | .ok disk =>
      let old := latestEpoch disk heartbeat.incarnation
      if old = maxUInt64 then ({ heartbeat with directory := directory }, .error .eoverflow)
      else
        let written := { directory with epoch := some (wirePutU64 (old + 1)) }
        match fault with
        | some (.published code) => ({ heartbeat with directory := written }, .error code)
        | _ =>
          ({ heartbeat with incarnation := old + 1, sequence := 0, directory := written }, .ok ())

/-- `HEARTBEAT_WIRE_SIZE`. -/
def heartbeatWireSize : Nat := 187

/-- `GOSSIP_BATCH_MAX`. -/
def gossipBatchMax : Nat := 64

section Packets

variable [Inet] [Sha256]

/-- `heartbeat_checkpoint`. -/
def heartbeatCheckpoint (heartbeat : Heartbeat) : Heartbeat × Except Errno Unit :=
  match membershipSave heartbeat.members with
  | .error code => (heartbeat, .error code)
  | .ok file =>
    let fault := heartbeat.directory.fault
    let directory := heartbeat.directory.next
    match fault with
    | some (.unpublished code) => ({ heartbeat with directory := directory }, .error code)
    | some (.published code) =>
      ({ heartbeat with directory := { directory with ledger := some file } }, .error code)
    | none => ({ heartbeat with directory := { directory with ledger := some file } }, .ok ())

/-! ### Sending -/

/-- The record that a node sends about itself. -/
def selfRecord (heartbeat : Heartbeat) : MemberRecord where
  node := heartbeat.localNode
  state := .alive
  lastSeen := 0
  home := heartbeat.home
  reporter := heartbeat.home
  incarnation := heartbeat.incarnation
  sequence := heartbeat.sequence
  version := 0
  observedMs := 0
  probeMs := 0
  failedProbes := 0
  localRegistration := false

/-- The part of `local_record` that counts the heartbeat. -/
def countHeartbeat (heartbeat : Heartbeat) : Heartbeat × Except Errno MemberRecord :=
  let counted := { heartbeat with sequence := heartbeat.sequence + 1 }
  let named :=
    membershipLocal counted.members counted.localNode counted.incarnation counted.sequence
  ({ counted with members := named.1 }, named.2.map fun _ => selfRecord counted)

/-- `local_record`: an exhausted sequence begins a new epoch. -/
def localRecord (heartbeat : Heartbeat) : Heartbeat × Except Errno MemberRecord :=
  if heartbeat.sequence = maxUInt64 then
    match advanceEpoch heartbeat with
    | (heartbeat, .error code) => (heartbeat, .error code)
    | (heartbeat, .ok _) => countHeartbeat heartbeat
  else countHeartbeat heartbeat

/-- The members that a gossip packet may tell of. -/
def tellable (heartbeat : Heartbeat) : List MemberRecord :=
  heartbeat.members.members.filter fun member => member.incarnation > 0

/-- How many members a gossip packet tells of. -/
def batchSize (heartbeat : Heartbeat) : Nat := min (tellable heartbeat).length gossipBatchMax

/-- The batch of a gossip packet: the next members from the cursor on. -/
def gossipBatch (heartbeat : Heartbeat) : List MemberRecord :=
  let members := tellable heartbeat
  (List.range (batchSize heartbeat)).filterMap fun position =>
    members[(heartbeat.cursor + position) % members.length]?

/-- `encode_packet`. -/
def encodePacket (heartbeat : Heartbeat) (gossip : Bool) : Heartbeat × Except Errno (List UInt8) :=
  match localRecord heartbeat with
  | (heartbeat, .error code) => (heartbeat, .error code)
  | (heartbeat, .ok self) =>
    if gossip then
      let size := batchSize heartbeat
      let count := (tellable heartbeat).length
      let moved := { heartbeat with
        cursor := if count ≠ 0 then (heartbeat.cursor + size) % count else heartbeat.cursor }
      match gossipEncodeRecord self, (gossipBatch heartbeat).mapM gossipEncodeRecord with
      | .error code, _ => (moved, .error code)
      | .ok _, .error code => (moved, .error code)
      | .ok own, .ok records =>
        (moved, .ok (1 :: (own.toList ++ (wirePutU16 (UInt16.ofNat size) ++
          records.flatMap Octets.toList))))
    else match gossipEncodeRecord self with
      | .error code => (heartbeat, .error code)
      | .ok own => (heartbeat, .ok (1 :: own.toList))

/-! ### Receiving -/

/-- The readings of the clocks during one call, in their order. -/
structure Clocks where
  monotonic : Nat → Int
  wall : Nat → Int

variable [Process]

/-- The loop of `apply_packet` that decodes the batch. -/
def decodeBatch : Nat → List UInt8 → Except Errno (List MemberRecord)
  | 0, _ => .ok []
  | count + 1, bytes =>
    match gossipDecodeRecord (Octets.read membershipWireSize bytes) with
    | .error _ => .error .ebadmsg
    | .ok record =>
      if record.incarnation = 0 ∨ (record.node.role = .peer ∧ record.home ≠ record.reporter) then
        .error .ebadmsg
      else match decodeBatch count (bytes.drop membershipWireSize) with
        | .error code => .error code
        | .ok records => .ok (record :: records)

/-- A sender that `apply_packet` does not accept. -/
def senderRefused (localId source : NodeID) (gossip : Bool) (sender : MemberRecord) : Prop :=
  source ≠ sender.id ∨ sender.state ≠ .alive ∨ sender.incarnation = 0 ∨ sender.sequence = 0 ∨
    source = localId ∨ (gossip ∧ sender.node.role ≠ .superPeer)

instance (localId source : NodeID) (gossip : Bool) (sender : MemberRecord) :
    Decidable (senderRefused localId source gossip sender) := inferInstanceAs (Decidable (_ ∨ _))

/-- The number of records that a packet announces. -/
def packetCount (payload : List UInt8) (gossip : Bool) : Nat :=
  if gossip then (wireGetU16 (payload.drop heartbeatWireSize)).toNat else 0

/-- The size of a packet with as many records. -/
def packetSize (gossip : Bool) (count : Nat) : Nat :=
  heartbeatWireSize + if gossip then 2 + count * membershipWireSize else 0

/-- The checks of `apply_packet` that come before any update: the whole batch is decoded first. -/
def decodePacket (localId : NodeID) (payload : List UInt8) (source : NodeID) (gossip : Bool) :
    Except Errno (MemberRecord × List MemberRecord) :=
  if payload.length < heartbeatWireSize ∨ payload.getD 0 0 ≠ 1 then .error .ebadmsg
  else if gossip ∧ payload.length < heartbeatWireSize + 2 then .error .ebadmsg
  else if packetCount payload gossip > gossipBatchMax ∨
      payload.length ≠ packetSize gossip (packetCount payload gossip) then .error .ebadmsg
  else match gossipDecodeRecord (Octets.read membershipWireSize (payload.drop 1)) with
    | .error _ => .error .eacces
    | .ok sender =>
      if senderRefused localId source gossip sender then .error .eacces
      else if sender.node.role = .superPeer ∧ sender.home ≠ source then .error .eacces
      else match decodeBatch (packetCount payload gossip) (payload.drop (heartbeatWireSize + 2)) with
        | .error code => .error code
        | .ok batch => .ok (sender, batch)

/-- Whether a Peer has to join its super peer again. -/
def reconnects (heartbeat : Heartbeat) (sender : MemberRecord) (source : NodeID) : Bool :=
  heartbeat.localNode.role = .peer && sender.node.role = .superPeer && source = heartbeat.home &&
    match heartbeat.members.findMember source with
    | .error _ => true
    | .ok known => sender.incarnation > known.incarnation

/-- A tombstone stands against the sender. -/
def senderBuried (table : SuperPeer) (sender : MemberRecord) (source : NodeID) : Bool :=
  table.members.any fun member =>
    member.id = source ∧ sender.incarnation ≤ member.incarnation ∧ member.state.belowFailed = false

/-- The part of `apply_packet` that discovers its sender. Super peers are discovered by their
packets; Peers enter by `JOIN` only. -/
def discoverSender (table : SuperPeer) (sender : MemberRecord) (source : NodeID)
    (clocks : Clocks) : SuperPeer × Except Errno Unit :=
  match table.findMember source with
  | .ok _ => (table, .ok ())
  | .error _ =>
    if sender.node.role ≠ .superPeer then (table, .error .enoent)
    else if senderBuried table sender source then (table, .error .estale)
    else
      let registration := membershipRegister table sender.node sender.home sender.incarnation
        (clocks.monotonic 0) (clocks.wall 0)
      (registration.1, match registration.2 with | .error _ => .error .estale | .ok _ => .ok ())

/-- The update of `apply_packet` for its sender, which is direct evidence. -/
def admitSender (heartbeat : Heartbeat) (sender : MemberRecord) (source : NodeID)
    (clocks : Clocks) : Heartbeat × Except Errno Unit :=
  let noted := { heartbeat with
    needsReconnect := heartbeat.needsReconnect || reconnects heartbeat sender source }
  match discoverSender heartbeat.members sender source clocks with
  | (members, .error code) => ({ noted with members := members }, .error code)
  | (members, .ok _) =>
    let beat := membershipHeartbeat members sender (clocks.monotonic 1) (clocks.wall 1)
    ({ noted with members := beat.1 }, beat.2)

/-- A rumour that the local node refutes by a new epoch. -/
def refutes (heartbeat : Heartbeat) (rumour : MemberRecord) : Prop :=
  rumour.id = heartbeat.localNode.id ∧ rumour.state ≠ .alive ∧
    rumour.incarnation ≥ heartbeat.incarnation

instance (heartbeat : Heartbeat) (rumour : MemberRecord) : Decidable (refutes heartbeat rumour) :=
  inferInstanceAs (Decidable (_ ∧ _))

/-- The body of the loop of `apply_packet` over the batch. The incarnation of a refuted rumour is
taken over before the epoch is advanced. -/
def applyRumour (heartbeat : Heartbeat) (now : Int) (rumour : MemberRecord) :
    Heartbeat × Except Errno Unit :=
  if refutes heartbeat rumour then
    advanceEpoch { heartbeat with incarnation := rumour.incarnation }
  else
    let merged := membershipMerge heartbeat.members now rumour
    ({ heartbeat with members := merged.1 }, merged.2)

/-- The loop of `apply_packet` over the batch, from a reading of the clock on. -/
def applyBatch (clocks : Clocks) : Nat → Heartbeat → List MemberRecord →
    Heartbeat × Except Errno Unit
  | _, heartbeat, [] => (heartbeat, .ok ())
  | reading, heartbeat, rumour :: rest =>
    match applyRumour heartbeat (clocks.monotonic reading) rumour with
    | (heartbeat, .error code) => (heartbeat, .error code)
    | (heartbeat, .ok _) => applyBatch clocks (reading + 1) heartbeat rest

/-- `apply_packet`. -/
def applyPacket (heartbeat : Heartbeat) (payload : List UInt8) (source : NodeID) (gossip : Bool)
    (clocks : Clocks) : Heartbeat × Except Errno Unit :=
  match decodePacket heartbeat.localNode.id payload source gossip with
  | .error code => (heartbeat, .error code)
  | .ok (sender, batch) => match admitSender heartbeat sender source clocks with
    | (heartbeat, .error code) => (heartbeat, .error code)
    | (heartbeat, .ok _) => match applyBatch clocks 2 heartbeat batch with
      | (heartbeat, .error code) => (heartbeat, .error code)
      | (heartbeat, .ok _) => heartbeatCheckpoint heartbeat

/-- `heartbeat_handle`. -/
def heartbeatHandle (heartbeat : Heartbeat) (request : Message) (clocks : Clocks) :
    Heartbeat × Except Errno (MessageType × List UInt8) :=
  if request.destinationNode ≠ heartbeat.localNode.id ∨
      (request.messageType ≠ .heartbeat ∧ request.messageType ≠ .gossip) then
    (heartbeat, .error .eacces)
  else
    let gossip : Bool := request.messageType = .gossip
    if gossip ∧ heartbeat.localNode.role ≠ .superPeer then (heartbeat, .error .enotsup)
    else match applyPacket heartbeat request.payload request.sourceNode gossip clocks with
      | (heartbeat, .error code) => (heartbeat, .error code)
      | (heartbeat, .ok _) => match encodePacket heartbeat gossip with
        | (heartbeat, .error code) => (heartbeat, .error code)
        | (heartbeat, .ok payload) =>
          (heartbeat, .ok (if gossip then .gossip else .heartbeat, payload))

/-! ### Starting -/

/-- The state that `heartbeat_create` begins with. -/
def Heartbeat.blank (localNode : Node) (members : SuperPeer) (limits : Limits)
    (directory : MembershipDirectory) : Heartbeat :=
  ⟨localNode, members, 0, 0, localNode.id, false, 0, limits, directory⟩

/-- `heartbeat_create` on a table and a directory, with checked settings. -/
def heartbeatCreate (localNode : Node) (members : SuperPeer) (limits : Limits)
    (directory : MembershipDirectory) (now : Int) : Heartbeat × Except Errno Unit :=
  match advanceEpoch (.blank localNode members limits directory) with
  | (heartbeat, .error code) => (heartbeat, .error code)
  | (heartbeat, .ok _) =>
    match membershipLoad heartbeat.members heartbeat.directory.ledger now with
    | (loaded, .error code) => ({ heartbeat with members := loaded }, .error code)
    | (loaded, .ok _) =>
      let named := membershipLocal loaded localNode heartbeat.incarnation 0
      ({ heartbeat with members := named.1 }, named.2)

/-- A neighbour that has been started for the first time. -/
def firstStart (port : UInt8) : Heartbeat :=
  (heartbeatCreate (neighbour port) (SuperPeer.fresh (neighbour port) 0 0) ⟨15000, 20000, 30000⟩
    ⟨none, none, []⟩ 0).1

/-! ### What a packet does to the table -/

omit [Inet] [Sha256] [Process] in
theorem toNat_succ_of_ne_max {value : UInt64} (small : value ≠ maxUInt64) :
    (value + 1).toNat = value.toNat + 1 := by
  have bound : value.toNat ≠ maxUInt64.toNat := fun same => small (UInt64.toNat_inj.mp same)
  have limit := value.toNat_lt
  rw [show maxUInt64.toNat = 2 ^ 64 - 1 from rfl] at bound
  rw [UInt64.toNat_add, show (1 : UInt64).toNat = 1 from rfl]
  omega

omit [Inet] [Sha256] [Process] in
theorem succ_ne_zero_of_ne_max {value : UInt64} (small : value ≠ maxUInt64) : value + 1 ≠ 0 := by
  intro zero
  have next := toNat_succ_of_ne_max small
  rw [zero] at next
  cases next

omit [Inet] [Sha256] [Process] in
/-- Advancing the epoch touches the epoch and its file only. -/
theorem advanceEpoch_eq (heartbeat : Heartbeat) :
    ∃ incarnation sequence directory, (advanceEpoch heartbeat).1 = { heartbeat with
      incarnation := incarnation, sequence := sequence, directory := directory } := by
  unfold advanceEpoch
  simp only
  split
  · exact ⟨_, _, _, rfl⟩
  · split
    · exact ⟨_, _, _, rfl⟩
    · split
      · exact ⟨_, _, _, rfl⟩
      · split
        · exact ⟨_, _, _, rfl⟩
        · exact ⟨_, _, _, rfl⟩

omit [Inet] [Sha256] [Process] in
/-- The epoch of a node that has begun does not return to zero. -/
theorem incarnation_advanceEpoch {heartbeat : Heartbeat} (begun : heartbeat.incarnation ≠ 0) :
    (advanceEpoch heartbeat).1.incarnation ≠ 0 := by
  unfold advanceEpoch
  simp only
  split
  · exact begun
  · split
    · exact begun
    · split
      · exact begun
      · rename_i notLast
        split
        · exact begun
        · exact succ_ne_zero_of_ne_max notLast

omit [Inet] [Sha256] [Process] in
/-- A new epoch has an incarnation and begins a new count of heartbeats. -/
theorem advanceEpoch_eq_ok {heartbeat next : Heartbeat}
    (advanced : advanceEpoch heartbeat = (next, .ok ())) :
    next.incarnation ≠ 0 ∧ next.sequence = 0 ∧
      next.directory.ledger = heartbeat.directory.ledger := by
  unfold advanceEpoch at advanced
  simp only at advanced
  split at advanced
  · cases advanced
  · split at advanced
    · cases advanced
    · split at advanced
      · cases advanced
      · rename_i notLast
        split at advanced
        · cases advanced
        · cases advanced
          exact ⟨succ_ne_zero_of_ne_max notLast, rfl, rfl⟩

omit [Inet] [Sha256] [Process] in
theorem diskEpoch_wirePutU64 (incarnation : UInt64) :
    diskEpoch (some (wirePutU64 incarnation)) = .ok incarnation := by
  have read := wireGetU64_wirePutU64 incarnation []
  rw [List.append_nil] at read
  rw [diskEpoch]
  simp only [length_wirePutU64, ne_eq, not_true_eq_false, if_false, read]

omit [Inet] [Sha256] [Process] in
/-- Advancing the epoch over a readable file: there is no later epoch, or it is written and
taken. -/
theorem advanceEpoch_of_disk {heartbeat : Heartbeat} {disk : UInt64}
    (faultless : heartbeat.directory.faults = [])
    (read : diskEpoch heartbeat.directory.epoch = .ok disk) :
    (latestEpoch disk heartbeat.incarnation = maxUInt64 ∧
      advanceEpoch heartbeat = (heartbeat, .error .eoverflow)) ∨
    latestEpoch disk heartbeat.incarnation ≠ maxUInt64 ∧
      advanceEpoch heartbeat =
        ({ heartbeat with
            incarnation := latestEpoch disk heartbeat.incarnation + 1
            sequence := 0
            directory := { heartbeat.directory with
              epoch := some (wirePutU64 (latestEpoch disk heartbeat.incarnation + 1)) } },
          .ok ()) := by
  have still : heartbeat.directory.next = heartbeat.directory := by
    rw [MembershipDirectory.next, faultless, List.tail_nil, ← faultless]
  have noFault : heartbeat.directory.fault = none := by
    rw [MembershipDirectory.fault, faultless]
    rfl
  unfold advanceEpoch
  simp only [still, noFault, read]
  by_cases last : latestEpoch disk heartbeat.incarnation = maxUInt64
  · exact Or.inl ⟨last, if_pos last⟩
  · exact Or.inr ⟨last, if_neg last⟩

omit [Process] in
/-- A checkpoint touches the files only. -/
theorem heartbeatCheckpoint_eq (heartbeat : Heartbeat) :
    ∃ directory, (heartbeatCheckpoint heartbeat).1 = { heartbeat with directory := directory } := by
  unfold heartbeatCheckpoint
  split
  · exact ⟨_, rfl⟩
  · simp only
    split <;> exact ⟨_, rfl⟩

/-- A record that has passed the checks of a batch. -/
structure Rumour (record : MemberRecord) : Prop where
  decoded : ∃ input, gossipDecodeRecord input = .ok record
  begun : record.incarnation ≠ 0
  reported : record.node.role = .peer → record.home = record.reporter

theorem rumour_of_decodeBatch {count : Nat} {bytes : List UInt8} {batch : List MemberRecord}
    (read : decodeBatch count bytes = .ok batch) : ∀ record ∈ batch, Rumour record := by
  induction count generalizing bytes batch with
  | zero =>
    cases read
    intro record inside
    cases inside
  | succ count inductionHypothesis =>
    rw [decodeBatch] at read
    cases decoded : gossipDecodeRecord (Octets.read membershipWireSize bytes) with
    | error code =>
      rw [decoded] at read
      cases read
    | ok record =>
      simp only [decoded] at read
      split at read
      · cases read
      · rename_i accepted
        obtain ⟨begun, reported⟩ := not_or.mp accepted
        split at read
        · cases read
        · rename_i records later
          cases read
          intro other inside
          rcases List.mem_cons.mp inside with rfl | inRest
          · exact ⟨⟨_, decoded⟩, begun, fun isPeer => not_ne_iff.mp fun different =>
              reported ⟨isPeer, different⟩⟩
          · exact inductionHypothesis later other inRest

/-- What the checks of a packet establish. -/
structure Accepted (localId source : NodeID) (gossip : Bool) (sender : MemberRecord)
    (batch : List MemberRecord) : Prop where
  decoded : ∃ input, gossipDecodeRecord input = .ok sender
  admitted : ¬ senderRefused localId source gossip sender
  owned : sender.node.role = .superPeer → sender.home = source
  batch : ∀ record ∈ batch, Rumour record

/-- The sender of an accepted packet is the node at the other end, and not the local one. -/
theorem Accepted.sent {localId source : NodeID} {gossip : Bool} {sender : MemberRecord}
    {batch : List MemberRecord} (accepted : Accepted localId source gossip sender batch) :
    sender.id = source ∧ source ≠ localId := by
  obtain ⟨same, _, _, _, remote, _⟩ :
      ¬ source ≠ sender.id ∧ ¬ sender.state ≠ .alive ∧ ¬ sender.incarnation = 0 ∧
        ¬ sender.sequence = 0 ∧ ¬ source = localId ∧
        ¬ (gossip ∧ sender.node.role ≠ .superPeer) := by
    simpa only [senderRefused, not_or] using accepted.admitted
  exact ⟨(not_ne_iff.mp same).symm, remote⟩

theorem accepted_of_decodePacket {localId source : NodeID} {payload : List UInt8} {gossip : Bool}
    {sender : MemberRecord} {batch : List MemberRecord}
    (read : decodePacket localId payload source gossip = .ok (sender, batch)) :
    Accepted localId source gossip sender batch := by
  unfold decodePacket at read
  split at read
  · cases read
  · split at read
    · cases read
    · split at read
      · cases read
      · split at read
        · cases read
        · rename_i record decoded
          split at read
          · cases read
          · rename_i known
            split at read
            · cases read
            · rename_i owned
              split at read
              · cases read
              · rename_i records later
                cases read
                exact ⟨⟨_, decoded⟩, known, fun isSuper => not_ne_iff.mp fun different =>
                  owned ⟨isSuper, different⟩, rumour_of_decodeBatch later⟩

/-- The calls that discover the sender of a packet: a super peer may be registered. -/
def DiscoveryCalls (sender : MemberRecord) (calls : List MembershipCall) : Prop :=
  ∀ call ∈ calls, sender.node.role = .superPeer ∧ ∃ now wall,
    call = .register sender.node sender.home sender.incarnation now wall

/-- The calls that the evidence of a packet makes: a super peer may be registered, and then the
heartbeat of the sender is recorded, of a Peer only if it is known. -/
def EvidenceCalls (table : SuperPeer) (source : NodeID) (sender : MemberRecord)
    (calls : List MembershipCall) : Prop :=
  ∃ discovery, DiscoveryCalls sender discovery ∧
    (calls = discovery ∨ ∃ now wall, calls = discovery ++ [.heartbeat sender now wall] ∧
      (sender.node.role = .superPeer ∨ ∃ known, table.findMember source = .ok known))

omit [Process] in
theorem discoverSender_calls (table : SuperPeer) (sender : MemberRecord) (source : NodeID)
    (clocks : Clocks) :
    ∃ calls, DiscoveryCalls sender calls ∧
      (discoverSender table sender source clocks).1 = table.calls calls ∧
      ((discoverSender table sender source clocks).2 = .ok () →
        sender.node.role = .superPeer ∨ ∃ known, table.findMember source = .ok known) := by
  have nothing : DiscoveryCalls sender [] := by
    intro call inside
    cases inside
  unfold discoverSender
  cases table.findMember source with
  | ok known => exact ⟨[], nothing, rfl, fun _ => Or.inr ⟨known, rfl⟩⟩
  | error code =>
    simp only
    split
    · exact ⟨[], nothing, rfl, nofun⟩
    · rename_i isSuper
      split
      · exact ⟨[], nothing, rfl, nofun⟩
      · refine ⟨[.register sender.node sender.home sender.incarnation (clocks.monotonic 0)
          (clocks.wall 0)], ?_, rfl, fun _ => Or.inl (not_ne_iff.mp isSuper)⟩
        intro call inside
        rw [List.mem_singleton.mp inside]
        exact ⟨not_ne_iff.mp isSuper, _, _, rfl⟩

omit [Process] in
theorem admitSender_calls (heartbeat : Heartbeat) (sender : MemberRecord) (source : NodeID)
    (clocks : Clocks) :
    ∃ calls reconnect, EvidenceCalls heartbeat.members source sender calls ∧
      (admitSender heartbeat sender source clocks).1 = { heartbeat with
        members := heartbeat.members.calls calls, needsReconnect := reconnect } := by
  obtain ⟨discovery, made, discovered, known⟩ :=
    discoverSender_calls heartbeat.members sender source clocks
  unfold admitSender
  simp only
  split
  · rename_i members code outcome
    rw [outcome] at discovered
    refine ⟨discovery, heartbeat.needsReconnect || reconnects heartbeat sender source,
      ⟨discovery, made, Or.inl rfl⟩, ?_⟩
    rw [← discovered]
  · rename_i members done outcome
    rw [outcome] at discovered known
    refine ⟨discovery ++ [.heartbeat sender (clocks.monotonic 1) (clocks.wall 1)],
      heartbeat.needsReconnect || reconnects heartbeat sender source,
      ⟨discovery, made, Or.inr ⟨_, _, rfl, known rfl⟩⟩, ?_⟩
    rw [calls_append, ← discovered]
    rfl

/-- The calls that the batch of a packet makes. -/
def RumourCalls (calls : List MembershipCall) : Prop :=
  ∀ call ∈ calls, ∃ record now, call = .merge record now ∧ Rumour record

theorem applyBatch_calls (clocks : Clocks) {batch : List MemberRecord}
    (rumours : ∀ record ∈ batch, Rumour record) (reading : Nat) (heartbeat : Heartbeat) :
    ∃ calls incarnation sequence directory, RumourCalls calls ∧
      (heartbeat.incarnation ≠ 0 → incarnation ≠ 0) ∧
      (applyBatch clocks reading heartbeat batch).1 = { heartbeat with
        members := heartbeat.members.calls calls, incarnation := incarnation,
        sequence := sequence, directory := directory } := by
  induction batch generalizing reading heartbeat with
  | nil => exact ⟨[], _, _, _, fun _ inside => (by cases inside), id, rfl⟩
  | cons rumour rest inductionHypothesis =>
    have first : ∃ calls incarnation sequence directory, RumourCalls calls ∧
        (heartbeat.incarnation ≠ 0 → incarnation ≠ 0) ∧
        (applyRumour heartbeat (clocks.monotonic reading) rumour).1 = { heartbeat with
          members := heartbeat.members.calls calls, incarnation := incarnation,
          sequence := sequence, directory := directory } := by
      unfold applyRumour
      split
      · obtain ⟨incarnation, sequence, directory, same⟩ :=
          advanceEpoch_eq { heartbeat with incarnation := rumour.incarnation }
        have taken : incarnation ≠ 0 := by
          have kept := @incarnation_advanceEpoch
            { heartbeat with incarnation := rumour.incarnation }
            (rumours rumour List.mem_cons_self).begun
          rw [same] at kept
          exact kept
        exact ⟨[], incarnation, sequence, directory, fun _ inside => (by cases inside),
          fun _ => taken, same⟩
      · refine ⟨[.merge rumour (clocks.monotonic reading)], _, _, _, ?_, id, rfl⟩
        intro call inside
        rw [List.mem_singleton.mp inside]
        exact ⟨rumour, _, rfl, rumours rumour List.mem_cons_self⟩
    obtain ⟨calls, incarnation, sequence, directory, made, begins, same⟩ := first
    rw [applyBatch]
    split
    · rename_i stopped code outcome
      rw [outcome] at same
      exact ⟨calls, incarnation, sequence, directory, made, begins, same⟩
    · rename_i next done outcome
      rw [outcome] at same
      simp only at same
      obtain ⟨more, lastIncarnation, lastSequence, lastDirectory, moreMade, stillBegun, last⟩ :=
        inductionHypothesis (fun record inside => rumours record (List.mem_cons_of_mem _ inside))
          (reading + 1) next
      refine ⟨calls ++ more, lastIncarnation, lastSequence, lastDirectory, ?_, ?_, ?_⟩
      · intro call inside
        rcases List.mem_append.mp inside with earlier | later
        · exact made call earlier
        · exact moreMade call later
      · intro begun
        refine stillBegun ?_
        rw [same]
        exact begins begun
      · rw [last, calls_append, same]

/-- What a packet does to the table: nothing if its checks fail, and otherwise the calls of its
evidence, followed by merges of its rumours. -/
theorem applyPacket_calls (heartbeat : Heartbeat) (payload : List UInt8) (source : NodeID)
    (gossip : Bool) (clocks : Clocks) :
    ∃ calls incarnation sequence reconnect directory,
      (applyPacket heartbeat payload source gossip clocks).1 = { heartbeat with
        members := heartbeat.members.calls calls, incarnation := incarnation,
        sequence := sequence, needsReconnect := reconnect, directory := directory } ∧
      (heartbeat.incarnation ≠ 0 → incarnation ≠ 0) ∧
      (calls = [] ∨ ∃ sender batch evidence rumours, calls = evidence ++ rumours ∧
        decodePacket heartbeat.localNode.id payload source gossip = .ok (sender, batch) ∧
        EvidenceCalls heartbeat.members source sender evidence ∧ RumourCalls rumours) := by
  unfold applyPacket
  cases read : decodePacket heartbeat.localNode.id payload source gossip with
  | error code => exact ⟨[], _, _, _, _, rfl, id, Or.inl rfl⟩
  | ok packet =>
    obtain ⟨sender, batch⟩ := packet
    obtain ⟨evidence, reconnect, made, admitted⟩ :=
      admitSender_calls heartbeat sender source clocks
    simp only
    split
    · rename_i next code outcome
      rw [outcome] at admitted
      exact ⟨evidence, _, _, _, _, admitted, id, Or.inr ⟨sender, batch, evidence, [], by simp, rfl, made,
        fun _ inside => (by cases inside)⟩⟩
    · rename_i next done outcome
      rw [outcome] at admitted
      simp only at admitted
      obtain ⟨rumours, incarnation, sequence, directory, told, begins, applied⟩ :=
        applyBatch_calls clocks (accepted_of_decodePacket read).batch 2 next
      have whole : (applyBatch clocks 2 next batch).1 = { heartbeat with
          members := heartbeat.members.calls (evidence ++ rumours), incarnation := incarnation,
          sequence := sequence, needsReconnect := reconnect, directory := directory } := by
        rw [applied, admitted, calls_append]
      have stillBegun : heartbeat.incarnation ≠ 0 → incarnation ≠ 0 := by
        intro begun
        refine begins ?_
        rw [admitted]
        exact begun
      split
      · rename_i last code outcome
        rw [outcome] at whole
        exact ⟨_, _, _, _, _, whole, stillBegun,
          Or.inr ⟨sender, batch, evidence, rumours, rfl, rfl, made, told⟩⟩
      · rename_i last done outcome
        rw [outcome] at whole
        obtain ⟨saved, checkpoint⟩ := heartbeatCheckpoint_eq last
        simp only at whole
        rw [checkpoint, whole]
        exact ⟨_, _, _, _, _, rfl, stillBegun,
          Or.inr ⟨sender, batch, evidence, rumours, rfl, rfl, made, told⟩⟩

end Packets

end SuperPeerNet
