/-
This file settles how far a node can trust its own epochs. The epoch lives in memory and in a
file; packets, explicit advances, exhausted sequences and restarts all raise it, and what the
node sends about itself is a pair of incarnation and sequence.

As long as memory and file agree, every pair that is sent is greater than all pairs before it,
restarts included. One branch breaks the agreement: the incarnation of a refuted rumour is
taken over before the epoch is advanced, and the greatest incarnation has no successor. Memory
then runs ahead of the file, and the next start goes back to the file.
-/

import Mathlib.Data.Prod.Lex
import SuperPeerNet.Library.Transition
import SuperPeerNet.Gossip.Heartbeat

namespace SuperPeerNet

/-! ### The node and what it sends -/

/-- A node between two events: it runs, or only its files are there. -/
inductive NodeLife where
  | running (heartbeat : Heartbeat)
  | stopped (directory : MembershipDirectory)

/-- The files of a node outlive it. -/
def NodeLife.directory : NodeLife → MembershipDirectory
  | .running heartbeat => heartbeat.directory
  | .stopped directory => directory

/-- A node with the pairs of incarnation and sequence that it has sent about itself, in their
order. -/
structure Speaker where
  life : NodeLife
  sent : List (UInt64 × UInt64)

/-- What happens to a node. A restart may be given any table and any settings. -/
inductive SpeakerEvent where
  | receive (payload : List UInt8) (source : NodeID) (gossip : Bool) (clocks : Clocks)
  | emit (gossip : Bool)
  | advance
  | restart (members : SuperPeer) (limits : Limits) (now : Int)

/-- The pair of incarnation and sequence in the first record of a packet. -/
def sentPair (payload : List UInt8) : UInt64 × UInt64 :=
  (wireGetU64 (payload.drop 130), wireGetU64 (payload.drop 138))

section Speaker

variable [Inet] [Sha256] [Process]

/-- A node after an attempt to start it. -/
def lifeOfStart : Heartbeat × Except Errno Unit → NodeLife
  | (heartbeat, .ok _) => .running heartbeat
  | (heartbeat, .error _) => .stopped heartbeat.directory

/-- The speaker after an event. -/
def Speaker.step (localNode : Node) (speaker : Speaker) : SpeakerEvent → Option Speaker
  | .receive payload source gossip clocks => match speaker.life with
    | .running heartbeat => some { speaker with
        life := .running (applyPacket heartbeat payload source gossip clocks).1 }
    | .stopped _ => none
  | .emit gossip => match speaker.life with
    | .running heartbeat => match encodePacket heartbeat gossip with
      | (heartbeat, .ok payload) =>
        some ⟨.running heartbeat, speaker.sent ++ [sentPair payload]⟩
      | (heartbeat, .error _) => some ⟨.running heartbeat, speaker.sent⟩
    | .stopped _ => none
  | .advance => match speaker.life with
    | .running heartbeat => some { speaker with life := .running (advanceEpoch heartbeat).1 }
    | .stopped _ => none
  | .restart members limits now => some { speaker with
      life := lifeOfStart
        (heartbeatCreate localNode members limits speaker.life.directory now) }

/-- A rumour that the node refutes although no later incarnation exists. -/
def Poisons (heartbeat : Heartbeat) (rumour : MemberRecord) : Prop :=
  refutes heartbeat rumour ∧ rumour.incarnation = maxUInt64 ∧ heartbeat.incarnation ≠ maxUInt64

/-- The loop over the batch of a packet never comes to a rumour that poisons the node. -/
def Digestible (heartbeat : Heartbeat) (payload : List UInt8) (source : NodeID) (gossip : Bool)
    (clocks : Clocks) : Prop :=
  ∀ sender batch admitted,
    decodePacket heartbeat.localNode.id payload source gossip = .ok (sender, batch) →
    admitSender heartbeat sender source clocks = (admitted, .ok ()) →
    ∀ earlier rumour later reached, batch = earlier ++ rumour :: later →
      applyBatch clocks 2 admitted earlier = (reached, .ok ()) → ¬ Poisons reached rumour

/-- The events that leave memory and file in agreement. -/
def KeepsAgreement (speaker : Speaker) : SpeakerEvent → Prop
  | .receive payload source gossip clocks => ∀ heartbeat, speaker.life = .running heartbeat →
      Digestible heartbeat payload source gossip clocks
  | _ => True

/-- The events that no other node takes part in. -/
def SpeakerEvent.local : SpeakerEvent → Bool
  | .receive .. => false
  | _ => true

theorem keepsAgreement_of_local {speaker : Speaker} {event : SpeakerEvent}
    (inside : event.local = true) : KeepsAgreement speaker event := by
  cases event with
  | receive => cases inside
  | emit | advance | restart => trivial

/-! ### Memory and file in agreement -/

/-- The epoch of a pair, in the lexicographic order. -/
def pairEpoch (pair : UInt64 × UInt64) : ℕ ×ₗ ℕ := toLex (pair.1.toNat, pair.2.toNat)

/-- The epoch of the local node. -/
def Heartbeat.epoch (heartbeat : Heartbeat) : ℕ ×ₗ ℕ :=
  pairEpoch (heartbeat.incarnation, heartbeat.sequence)

/-- The file holds the incarnation of the local node, and file operations succeed. -/
structure Agrees (heartbeat : Heartbeat) : Prop where
  faultless : heartbeat.directory.faults = []
  written : heartbeat.directory.epoch = some (wirePutU64 heartbeat.incarnation)

omit [Inet] [Sha256] [Process] in
/-- A node that takes over an incarnation from which it can advance agrees with its file
afterwards, in a later epoch. -/
theorem Agrees.advance_from {heartbeat : Heartbeat} (agrees : Agrees heartbeat)
    {incarnation : UInt64} (notBefore : heartbeat.incarnation ≤ incarnation)
    (usable : incarnation = maxUInt64 → heartbeat.incarnation = maxUInt64) :
    Agrees (advanceEpoch { heartbeat with incarnation := incarnation }).1 ∧
    heartbeat.epoch ≤ (advanceEpoch { heartbeat with incarnation := incarnation }).1.epoch ∧
    ((advanceEpoch { heartbeat with incarnation := incarnation }).2 = .ok () →
      heartbeat.epoch < (advanceEpoch { heartbeat with incarnation := incarnation }).1.epoch) := by
  have latest : latestEpoch heartbeat.incarnation incarnation = incarnation :=
    if_neg (UInt64.not_lt.mpr notBefore)
  have read : diskEpoch heartbeat.directory.epoch = .ok heartbeat.incarnation := by
    rw [agrees.written, diskEpoch_wirePutU64]
  rcases @advanceEpoch_of_disk { heartbeat with incarnation := incarnation } heartbeat.incarnation
      agrees.faultless read with ⟨last, same⟩ | ⟨notLast, same⟩
  · -- The epochs are exhausted: the node was there already, and nothing changes.
    rw [latest] at last
    have still : { heartbeat with incarnation := incarnation } = heartbeat := by
      rw [last, ← usable last]
    rw [same, still]
    exact ⟨agrees, le_refl _, nofun⟩
  · rw [latest] at notLast same
    have later : heartbeat.epoch < pairEpoch (incarnation + 1, 0) := by
      refine Prod.Lex.toLex_lt_toLex.mpr (Or.inl ?_)
      show heartbeat.incarnation.toNat < (incarnation + 1).toNat
      rw [toNat_succ_of_ne_max notLast]
      exact Nat.lt_succ_of_le (UInt64.le_iff_toNat_le.mp notBefore)
    rw [same]
    exact ⟨⟨agrees.faultless, rfl⟩, le_of_lt later, fun _ => later⟩

omit [Inet] [Sha256] [Process] in
/-- The epoch and the agreement do not depend on the other fields. -/
theorem Agrees.of_eq {heartbeat after : Heartbeat} (agrees : Agrees heartbeat)
    (incarnation : after.incarnation = heartbeat.incarnation)
    (sequence : after.sequence = heartbeat.sequence)
    (file : after.directory.epoch = heartbeat.directory.epoch)
    (faults : after.directory.faults = heartbeat.directory.faults) :
    Agrees after ∧ heartbeat.epoch ≤ after.epoch := by
  refine ⟨⟨faults.trans agrees.faultless, ?_⟩, ?_⟩
  · rw [file, incarnation, agrees.written]
  · rw [Heartbeat.epoch, Heartbeat.epoch, incarnation, sequence]

omit [Process] in
theorem Agrees.checkpoint {heartbeat : Heartbeat} (agrees : Agrees heartbeat) :
    Agrees (heartbeatCheckpoint heartbeat).1 ∧
      heartbeat.epoch ≤ (heartbeatCheckpoint heartbeat).1.epoch := by
  have noFaults : heartbeat.directory.next.faults = heartbeat.directory.faults := by
    rw [MembershipDirectory.next, agrees.faultless, List.tail_nil]
  unfold heartbeatCheckpoint
  split
  · exact ⟨agrees, le_refl _⟩
  · simp only
    split
    · exact agrees.of_eq rfl rfl rfl noFaults
    · exact agrees.of_eq rfl rfl rfl noFaults
    · exact agrees.of_eq rfl rfl rfl noFaults

/-! ### Receiving -/

omit [Process] in
theorem Agrees.rumour {heartbeat : Heartbeat} (agrees : Agrees heartbeat) (now : Int)
    {rumour : MemberRecord} (harmless : ¬ Poisons heartbeat rumour) :
    Agrees (applyRumour heartbeat now rumour).1 ∧
      heartbeat.epoch ≤ (applyRumour heartbeat now rumour).1.epoch := by
  unfold applyRumour
  split
  · rename_i refuted
    have usable : rumour.incarnation = maxUInt64 → heartbeat.incarnation = maxUInt64 := by
      intro last
      by_contra before
      exact harmless ⟨refuted, last, before⟩
    obtain ⟨kept, notBefore, -⟩ := agrees.advance_from refuted.2.2 usable
    exact ⟨kept, notBefore⟩
  · exact agrees.of_eq rfl rfl rfl rfl

omit [Process] in
theorem Agrees.batch {heartbeat : Heartbeat} (agrees : Agrees heartbeat) (clocks : Clocks)
    (reading : Nat) {batch : List MemberRecord}
    (harmless : ∀ earlier rumour later reached, batch = earlier ++ rumour :: later →
      applyBatch clocks reading heartbeat earlier = (reached, .ok ()) → ¬ Poisons reached rumour) :
    Agrees (applyBatch clocks reading heartbeat batch).1 ∧
      heartbeat.epoch ≤ (applyBatch clocks reading heartbeat batch).1.epoch := by
  induction batch generalizing reading heartbeat with
  | nil => exact ⟨agrees, le_refl _⟩
  | cons rumour rest inductionHypothesis =>
    obtain ⟨kept, notBefore⟩ := agrees.rumour (clocks.monotonic reading)
      (harmless [] rumour rest heartbeat rfl rfl)
    rw [applyBatch]
    split
    · rename_i stopped code outcome
      rw [outcome] at kept notBefore
      exact ⟨kept, notBefore⟩
    · rename_i next done outcome
      rw [outcome] at kept notBefore
      obtain ⟨last, later⟩ := inductionHypothesis kept (reading + 1) (by
        intro earlier other after reached split applied
        refine harmless (rumour :: earlier) other after reached (by rw [split]; rfl) ?_
        rw [applyBatch, outcome]
        exact applied)
      exact ⟨last, le_trans notBefore later⟩

theorem Agrees.packet {heartbeat : Heartbeat} (agrees : Agrees heartbeat) {payload : List UInt8}
    {source : NodeID} {gossip : Bool} {clocks : Clocks}
    (digestible : Digestible heartbeat payload source gossip clocks) :
    Agrees (applyPacket heartbeat payload source gossip clocks).1 ∧
      heartbeat.epoch ≤ (applyPacket heartbeat payload source gossip clocks).1.epoch := by
  unfold applyPacket
  cases read : decodePacket heartbeat.localNode.id payload source gossip with
  | error code => exact ⟨agrees, le_refl _⟩
  | ok packet =>
    obtain ⟨sender, batch⟩ := packet
    obtain ⟨_, _, -, same⟩ := admitSender_calls heartbeat sender source clocks
    have admittedAgrees : Agrees (admitSender heartbeat sender source clocks).1 ∧
        heartbeat.epoch ≤ (admitSender heartbeat sender source clocks).1.epoch := by
      rw [same]
      exact agrees.of_eq rfl rfl rfl rfl
    simp only
    split
    · rename_i admitted code outcome
      rw [outcome] at admittedAgrees
      exact admittedAgrees
    · rename_i admitted done outcome
      rw [outcome] at admittedAgrees
      obtain ⟨kept, notBefore⟩ := admittedAgrees
      obtain ⟨applied, later⟩ := kept.batch clocks 2
        (fun earlier rumour rest reached => digestible sender batch admitted read outcome
          earlier rumour rest reached)
      split
      · rename_i stopped code outcome
        rw [outcome] at applied later
        exact ⟨applied, le_trans notBefore later⟩
      · rename_i last done outcome
        rw [outcome] at applied later
        obtain ⟨saved, reached⟩ := applied.checkpoint
        exact ⟨saved, le_trans notBefore (le_trans later reached)⟩

/-! ### Sending -/

omit [Inet] [Sha256] [Process] in
/-- A counted heartbeat is later than all before it. -/
theorem Agrees.count {heartbeat : Heartbeat} (agrees : Agrees heartbeat)
    (notLast : heartbeat.sequence ≠ maxUInt64) :
    Agrees (countHeartbeat heartbeat).1 ∧
    heartbeat.epoch < (countHeartbeat heartbeat).1.epoch ∧
    ∀ self, (countHeartbeat heartbeat).2 = .ok self →
      (self.incarnation, self.sequence) =
        ((countHeartbeat heartbeat).1.incarnation, (countHeartbeat heartbeat).1.sequence) := by
  refine ⟨⟨agrees.faultless, agrees.written⟩, ?_, ?_⟩
  · refine Prod.Lex.toLex_lt_toLex.mpr (Or.inr ⟨rfl, ?_⟩)
    show heartbeat.sequence.toNat < (heartbeat.sequence + 1).toNat
    rw [toNat_succ_of_ne_max notLast]
    exact Nat.lt_succ_self _
  · intro self counted
    unfold countHeartbeat at counted
    simp only at counted
    cases named : (membershipLocal heartbeat.members heartbeat.localNode heartbeat.incarnation
        (heartbeat.sequence + 1)).2 with
    | error code =>
      rw [named] at counted
      cases counted
    | ok _ =>
      rw [named] at counted
      cases counted
      rfl

omit [Inet] [Sha256] [Process] in
/-- The record that a node sends about itself is later than all before it. -/
theorem Agrees.record {heartbeat : Heartbeat} (agrees : Agrees heartbeat) :
    Agrees (localRecord heartbeat).1 ∧
    heartbeat.epoch ≤ (localRecord heartbeat).1.epoch ∧
    ∀ self, (localRecord heartbeat).2 = .ok self →
      heartbeat.epoch < (localRecord heartbeat).1.epoch ∧
      (self.incarnation, self.sequence) =
        ((localRecord heartbeat).1.incarnation, (localRecord heartbeat).1.sequence) := by
  unfold localRecord
  by_cases exhausted : heartbeat.sequence = maxUInt64
  · rw [if_pos exhausted]
    obtain ⟨kept, notBefore, -⟩ := agrees.advance_from (UInt64.le_refl _) id
    split
    · rename_i stopped code outcome
      rw [outcome] at kept notBefore
      exact ⟨kept, notBefore, nofun⟩
    · rename_i next done outcome
      rw [outcome] at kept notBefore
      have begun : next.sequence ≠ maxUInt64 := by
        rw [(advanceEpoch_eq_ok outcome).2.1]
        decide
      obtain ⟨counted, later, named⟩ := kept.count begun
      exact ⟨counted, le_trans notBefore (le_of_lt later),
        fun self told => ⟨lt_of_le_of_lt notBefore later, named self told⟩⟩
  · rw [if_neg exhausted]
    obtain ⟨counted, later, named⟩ := agrees.count exhausted
    exact ⟨counted, le_of_lt later, fun self told => ⟨later, named self told⟩⟩

omit [Inet] [Sha256] [Process] in
/-- The first record of a packet carries its pair. -/
theorem sentPair_cons (self : MemberRecord) (rest : List UInt8) :
    sentPair (1 :: (memberBytes self ++ rest)) = (self.incarnation, self.sequence) := by
  have reach : ∀ position ≤ membershipWireSize,
      (1 :: (memberBytes self ++ rest)).drop (position + 1) =
        (memberBytes self).drop position ++ rest := by
    intro position inside
    rw [List.drop_succ_cons, List.drop_append_of_le_length]
    rw [length_memberBytes]
    exact inside
  have enough : ∀ position, position + 8 ≤ membershipWireSize →
      8 ≤ ((memberBytes self).drop position).length := by
    intro position inside
    rw [List.length_drop, length_memberBytes]
    omega
  obtain ⟨-, -, -, -, -, -, incarnation, sequence, -⟩ := memberBytes_fields self
  rw [sentPair, reach 129 (by decide), reach 137 (by decide),
    wireGetU64_append (enough 129 (by decide)), wireGetU64_append (enough 137 (by decide)),
    incarnation, sequence]

omit [Process] in
/-- A packet that is sent carries a pair that is later than all before it. -/
theorem Agrees.emit {heartbeat : Heartbeat} (agrees : Agrees heartbeat) (gossip : Bool) :
    Agrees (encodePacket heartbeat gossip).1 ∧
    heartbeat.epoch ≤ (encodePacket heartbeat gossip).1.epoch ∧
    ∀ payload, (encodePacket heartbeat gossip).2 = .ok payload →
      heartbeat.epoch < (encodePacket heartbeat gossip).1.epoch ∧
      pairEpoch (sentPair payload) = (encodePacket heartbeat gossip).1.epoch := by
  obtain ⟨kept, notBefore, told⟩ := agrees.record
  unfold encodePacket
  split
  · rename_i stopped code outcome
    rw [outcome] at kept notBefore
    exact ⟨kept, notBefore, nofun⟩
  · rename_i next self outcome
    rw [outcome] at kept notBefore told
    obtain ⟨later, named⟩ := told self rfl
    have carried : ∀ rest, pairEpoch (sentPair (1 :: (memberBytes self ++ rest))) = next.epoch := by
      intro rest
      rw [sentPair_cons, named]
      rfl
    split
    · simp only
      split
      · exact ⟨⟨kept.faultless, kept.written⟩, notBefore, nofun⟩
      · exact ⟨⟨kept.faultless, kept.written⟩, notBefore, nofun⟩
      · rename_i own records encoded _
        refine ⟨⟨kept.faultless, kept.written⟩, notBefore, ?_⟩
        intro payload built
        cases built
        rw [eq_memberOctets encoded]
        exact ⟨later, carried _⟩
    · split
      · exact ⟨kept, notBefore, nofun⟩
      · rename_i own encoded
        refine ⟨kept, notBefore, ?_⟩
        intro payload built
        cases built
        rw [eq_memberOctets encoded, ← List.append_nil (Octets.toList _)]
        exact ⟨later, carried []⟩

/-! ### Starting -/

omit [Inet] [Sha256] [Process] in
/-- A file that cannot be read keeps the epoch where it is. -/
theorem advanceEpoch_of_unreadable {heartbeat : Heartbeat} {code : Errno}
    (faultless : heartbeat.directory.faults = [])
    (unread : diskEpoch heartbeat.directory.epoch = .error code) :
    advanceEpoch heartbeat = (heartbeat, .error code) := by
  have still : heartbeat.directory.next = heartbeat.directory := by
    rw [MembershipDirectory.next, faultless, List.tail_nil, ← faultless]
  have noFault : heartbeat.directory.fault = none := by
    rw [MembershipDirectory.fault, faultless]
    rfl
  unfold advanceEpoch
  simp only [still, noFault, unread]

/-- An attempt to start a node: the file keeps its epoch or holds the next one, and a node that
runs afterwards agrees with it in an epoch of its own. -/
theorem heartbeatCreate_epoch (localNode : Node) (members : SuperPeer) (limits : Limits)
    {directory : MembershipDirectory} (now : Int) (faultless : directory.faults = []) :
    (∃ heartbeat code, heartbeatCreate localNode members limits directory now =
        (heartbeat, .error code) ∧ heartbeat.directory = directory) ∨
    ∃ heartbeat outcome disk, heartbeatCreate localNode members limits directory now =
        (heartbeat, outcome) ∧ Agrees heartbeat ∧ diskEpoch directory.epoch = .ok disk ∧
      disk.toNat < heartbeat.incarnation.toNat := by
  unfold heartbeatCreate
  cases read : diskEpoch directory.epoch with
  | error code =>
    have same : advanceEpoch (.blank localNode members limits directory) =
        (.blank localNode members limits directory, .error code) :=
      advanceEpoch_of_unreadable faultless read
    rw [same]
    exact Or.inl ⟨_, _, rfl, rfl⟩
  | ok disk =>
    have latest : latestEpoch disk 0 = disk := by
      rw [latestEpoch]
      split
      · rfl
      · rename_i none
        exact (UInt64.le_antisymm (UInt64.not_lt.mp none) (UInt64.zero_le ..)).symm
    rcases @advanceEpoch_of_disk (.blank localNode members limits directory) disk faultless read
      with ⟨-, same⟩ | ⟨notLast, same⟩
    · rw [same]
      exact Or.inl ⟨_, _, rfl, rfl⟩
    · rw [show (Heartbeat.blank localNode members limits directory).incarnation = 0 from rfl,
        latest] at notLast same
      have next : disk.toNat < (disk + 1).toNat := by
        rw [toNat_succ_of_ne_max notLast]
        exact Nat.lt_succ_self _
      rw [same]
      simp only
      split
      · exact Or.inr ⟨_, _, disk, rfl, ⟨faultless, rfl⟩, rfl, next⟩
      · exact Or.inr ⟨_, _, disk, rfl, ⟨faultless, rfl⟩, rfl, next⟩

/-! ### Runs -/

/-- Every pair that was sent is behind the file and, while the node runs, not after its epoch. -/
structure Consistent (speaker : Speaker) : Prop where
  faultless : speaker.life.directory.faults = []
  behind : ∀ pair ∈ speaker.sent, ∃ disk, diskEpoch speaker.life.directory.epoch = .ok disk ∧
    pair.1.toNat ≤ disk.toNat
  bounded : ∀ heartbeat, speaker.life = .running heartbeat → Agrees heartbeat ∧
    ∀ pair ∈ speaker.sent, pairEpoch pair ≤ heartbeat.epoch
  ordered : speaker.sent.Pairwise fun first second => pairEpoch first < pairEpoch second

omit [Inet] [Sha256] [Process] in
theorem Consistent.of_agrees {heartbeat : Heartbeat} {sent : List (UInt64 × UInt64)}
    (agrees : Agrees heartbeat) (bounded : ∀ pair ∈ sent, pairEpoch pair ≤ heartbeat.epoch)
    (ordered : sent.Pairwise fun first second => pairEpoch first < pairEpoch second) :
    Consistent ⟨.running heartbeat, sent⟩ where
  faultless := agrees.faultless
  behind pair inside := by
    refine ⟨heartbeat.incarnation, ?_, ?_⟩
    · show diskEpoch heartbeat.directory.epoch = _
      rw [agrees.written, diskEpoch_wirePutU64]
    · rcases Prod.Lex.toLex_le_toLex.mp (bounded pair inside) with before | ⟨same, -⟩
      · exact le_of_lt before
      · exact le_of_eq same
  bounded other same := by
    cases same
    exact ⟨agrees, bounded⟩
  ordered := ordered

theorem Consistent.restart {speaker : Speaker} (consistent : Consistent speaker)
    (localNode : Node) (members : SuperPeer) (limits : Limits) (now : Int) :
    Consistent ⟨lifeOfStart (heartbeatCreate localNode members limits speaker.life.directory now),
      speaker.sent⟩ := by
  rcases heartbeatCreate_epoch localNode members limits now consistent.faultless with
    ⟨heartbeat, code, same, still⟩ | ⟨heartbeat, outcome, disk, same, agrees, read, next⟩
  · rw [same, lifeOfStart, still]
    exact ⟨consistent.faultless, consistent.behind, nofun, consistent.ordered⟩
  · have started : Consistent ⟨.running heartbeat, speaker.sent⟩ := by
      refine .of_agrees agrees (fun pair inside => ?_) consistent.ordered
      obtain ⟨known, readAgain, before⟩ := consistent.behind pair inside
      cases read.symm.trans readAgain
      exact Prod.Lex.toLex_le_toLex.mpr (Or.inl (Nat.lt_of_le_of_lt before next))
    rw [same]
    cases outcome with
    | ok _ => exact started
    | error code => exact ⟨started.faultless, started.behind, nofun, started.ordered⟩

/-- One event after which memory and file agree. -/
theorem Consistent.step {localNode : Node} {speaker next : Speaker} {event : SpeakerEvent}
    (consistent : Consistent speaker) (keeps : KeepsAgreement speaker event)
    (stepped : speaker.step localNode event = some next) : Consistent next := by
  obtain ⟨life, sent⟩ := speaker
  cases event with
  | restart members limits now =>
    cases stepped
    exact consistent.restart localNode members limits now
  | receive payload source gossip clocks =>
    cases life with
    | stopped directory => cases stepped
    | running heartbeat =>
      cases stepped
      obtain ⟨agrees, bounded⟩ := consistent.bounded heartbeat rfl
      obtain ⟨kept, notBefore⟩ := agrees.packet (keeps heartbeat rfl)
      exact .of_agrees kept (fun pair inside => le_trans (bounded pair inside) notBefore)
        consistent.ordered
  | advance =>
    cases life with
    | stopped directory => cases stepped
    | running heartbeat =>
      cases stepped
      obtain ⟨agrees, bounded⟩ := consistent.bounded heartbeat rfl
      obtain ⟨kept, notBefore, -⟩ := agrees.advance_from (UInt64.le_refl _) id
      exact .of_agrees kept (fun pair inside => le_trans (bounded pair inside) notBefore)
        consistent.ordered
  | emit gossip =>
    cases life with
    | stopped directory => cases stepped
    | running heartbeat =>
      obtain ⟨agrees, bounded⟩ := consistent.bounded heartbeat rfl
      obtain ⟨kept, notBefore, told⟩ := agrees.emit gossip
      simp only [Speaker.step] at stepped
      split at stepped
      · rename_i after payload outcome
        cases stepped
        rw [outcome] at kept notBefore told
        obtain ⟨later, carried⟩ := told payload rfl
        refine .of_agrees kept ?_ ?_
        · intro pair inside
          rcases List.mem_append.mp inside with earlier | new
          · exact le_trans (bounded pair earlier) notBefore
          · rw [List.mem_singleton.mp new]
            exact le_of_eq carried
        · refine List.pairwise_append.mpr ⟨consistent.ordered, List.pairwise_singleton _ _, ?_⟩
          intro pair earlier new inside
          rw [List.mem_singleton.mp inside, carried]
          exact lt_of_le_of_lt (bounded pair earlier) later
      · rename_i after code outcome
        cases stepped
        rw [outcome] at kept notBefore
        exact .of_agrees kept (fun pair inside => le_trans (bounded pair inside) notBefore)
          consistent.ordered

/-- In every run of packets, emissions, advances and restarts over the files of one directory,
in which no packet makes the node refute the greatest incarnation from a smaller one, the pairs
of incarnation and sequence that the node sends about itself increase strictly. -/
theorem own_epochs_never_go_back (localNode : Node) {directory : MembershipDirectory}
    (faultless : directory.faults = []) {speaker : Speaker}
    (reached : Transition.Reaches (Speaker.step localNode) KeepsAgreement
      ⟨.stopped directory, []⟩ speaker) :
    speaker.sent.Pairwise fun first second => pairEpoch first < pairEpoch second := by
  have start : Consistent ⟨.stopped directory, []⟩ :=
    ⟨faultless, nofun, nofun, List.Pairwise.nil⟩
  exact (@Transition.Reaches.invariant _ _ (Speaker.step localNode) _ _ Consistent start
    (fun _ _ _ consistent keeps stepped => consistent.step keeps stepped) _ reached).ordered

end Speaker

/-- The files of a node that was never started. -/
def emptyDirectory : MembershipDirectory := ⟨none, none, []⟩

/-- The start of a neighbour on a table of its own. -/
def startNeighbour (port : UInt8) : SpeakerEvent :=
  .restart (SuperPeer.fresh (neighbour port) 0 0) ⟨15000, 20000, 30000⟩ 0

/-- A neighbour that is started, speaks, is started again and speaks again. -/
theorem own_epochs_never_go_back_two_starts :
    letI := Inet.reference; letI := Sha256.reference; letI := Process.first
    ∃ speaker, Transition.Reaches (Speaker.step (neighbour 1)) KeepsAgreement
        ⟨.stopped emptyDirectory, []⟩ speaker ∧
      speaker.sent = [(1, 1), (2, 1)] ∧
      speaker.sent.Pairwise fun first second => pairEpoch first < pairEpoch second := by
  let inet := Inet.reference
  let sha := Sha256.reference
  let process := Process.first
  have computed : (Transition.run (Transition.guarded (Speaker.step (neighbour 1))
      fun _ event => event.local = true) ⟨.stopped emptyDirectory, []⟩
      [startNeighbour 1, .emit true, startNeighbour 1, .emit false]).any
        (fun final => final.sent = [(1, 1), (2, 1)]) = true := by
    decide +kernel
  obtain ⟨final, done, sent⟩ := (Option.any_eq_true _ _).mp computed
  have reached : Transition.Reaches (Speaker.step (neighbour 1)) KeepsAgreement
      ⟨.stopped emptyDirectory, []⟩ final :=
    Transition.Reaches.refl.of_run (fun _ _ inside => keepsAgreement_of_local inside) done
  exact ⟨final, reached, of_decide_eq_true sent,
    own_epochs_never_go_back (neighbour 1) rfl reached⟩

/-- A packet of the second neighbour that spreads the rumour that the first one has left, in the
greatest incarnation. -/
def poisonedPacket : List UInt8 :=
  let record := setMember (neighbour 2) 0 0
  let sender := { record with
    home := (neighbour 2).id, reporter := (neighbour 2).id, incarnation := 1, sequence := 1 }
  let rumour := { setMember (neighbour 1) 0 0 with
    state := .removed, home := (neighbour 1).id, reporter := (neighbour 2).id,
    incarnation := maxUInt64 }
  1 :: (memberBytes sender ++ (wirePutU16 1 ++ memberBytes rumour))

/-- After the poisoned packet the node speaks in the greatest incarnation, which its file does not
hold, and goes back with the next start. -/
theorem own_epoch_goes_back :
    letI := Inet.reference; letI := Sha256.reference; letI := Process.first
    ∃ speaker, Transition.Reaches (Speaker.step (neighbour 1)) (fun _ _ => True)
        ⟨.stopped emptyDirectory, []⟩ speaker ∧
      speaker.sent = [(1, 1), (maxUInt64, 2), (2, 1)] ∧
      ¬ speaker.sent.Pairwise fun first second => pairEpoch first < pairEpoch second := by
  let inet := Inet.reference
  let sha := Sha256.reference
  let process := Process.first
  have computed : (Transition.run (Transition.guarded (Speaker.step (neighbour 1))
      fun _ _ => True) ⟨.stopped emptyDirectory, []⟩
      [startNeighbour 1, .emit true,
        .receive poisonedPacket (neighbour 2).id true ⟨fun _ => 0, fun _ => 0⟩, .emit true,
        startNeighbour 1, .emit true]).any
        (fun final => final.sent = [(1, 1), (maxUInt64, 2), (2, 1)]) = true := by
    decide +kernel
  obtain ⟨final, reached, sent⟩ := Transition.Reaches.of_check computed
  refine ⟨final, reached, sent, ?_⟩
  rw [sent]
  intro ordered
  have back := (List.pairwise_cons.mp (List.pairwise_cons.mp ordered).2).1 (2, 1)
    (List.mem_singleton_self _)
  exact absurd back (by decide)

end SuperPeerNet
