/-
This file models the two forms in which a record of a member leaves its process: the wire
form of gossip and the ledger that `membership_save` and `membership_load` keep on disk.

The decoder of a record does not copy the node. It rebuilds the configuration from the
textual address, the port and the UUID, and it derives the identity again, so a round
trip rests on the normal form of the address. The ledger adds a count and an end check,
which is why no other length of the file is accepted.
-/

import SuperPeerNet.Gossip.Detector

namespace SuperPeerNet

/-! ### Records -/

/-- The number of a role. -/
def NodeRole.number : NodeRole → Nat
  | .peer => 0
  | .superPeer => 1

@[simp] theorem NodeRole.ofByte_number (role : NodeRole) :
    NodeRole.ofByte (UInt8.ofNat role.number) = some role := by
  cases role <;> rfl

@[simp] theorem SuperPeerMemberState.ofByte_number (state : SuperPeerMemberState) :
    SuperPeerMemberState.ofByte (UInt8.ofNat state.number) = some state := by
  cases state <;> rfl

/-- The bytes of `gossip_encode_record`. The address fills its whole buffer. -/
def memberBytes (member : MemberRecord) : List UInt8 :=
  member.node.id.toList ++
    ((Octets.read nodeAddressSize member.node.config.ip).toList ++
      (wirePutU16 member.node.config.port ++
        (member.node.config.uuid.toList ++
          ([UInt8.ofNat member.node.role.number] ++
            (member.home.toList ++
              (wirePutU64 member.incarnation ++
                (wirePutU64 member.sequence ++
                  (wirePutU64 member.version ++
                    ([UInt8.ofNat member.state.number] ++ member.reporter.toList)))))))))

theorem length_memberBytes (member : MemberRecord) :
    (memberBytes member).length = membershipWireSize := by
  simp only [memberBytes, List.length_append, Octets.length_toList, length_wirePutU16,
    length_wirePutU64, List.length_singleton]
  rfl

/-- The bytes of a record as a record of the wire. -/
def memberOctets (member : MemberRecord) : Octets membershipWireSize :=
  ⟨memberBytes member, length_memberBytes member⟩

theorem toList_memberOctets (member : MemberRecord) :
    (memberOctets member).toList = memberBytes member := rfl

section Record

variable [Inet] [Sha256]

/-- `gossip_encode_record`. -/
def gossipEncodeRecord (member : MemberRecord) : Except Errno (Octets membershipWireSize) :=
  match nodeValidate member.node with
  | .error _ => .error .einval
  | .ok _ => .ok (memberOctets member)

theorem gossipEncodeRecord_of_valid {member : MemberRecord}
    (valid : nodeValidate member.node = .ok ()) :
    gossipEncodeRecord member = .ok (memberOctets member) := by
  rw [gossipEncodeRecord, valid]

theorem eq_memberOctets {member : MemberRecord} {encoded : Octets membershipWireSize}
    (done : gossipEncodeRecord member = .ok encoded) : encoded = memberOctets member := by
  unfold gossipEncodeRecord at done
  split at done
  · cases done
  · cases done
    rfl

end Record

/-! ### The fields of the wire form -/

/-- Where the decoder finds the fields of an encoded record. -/
theorem memberBytes_fields (member : MemberRecord) :
    Octets.read nodeIdSize (memberBytes member) = member.node.id ∧
    ((memberBytes member).drop 32).take nodeAddressSize =
      (Octets.read nodeAddressSize member.node.config.ip).toList ∧
    wireGetU16 ((memberBytes member).drop 78) = member.node.config.port ∧
    Octets.read nodeUuidSize ((memberBytes member).drop 80) = member.node.config.uuid ∧
    (memberBytes member).getD 96 0 = UInt8.ofNat member.node.role.number ∧
    Octets.read nodeIdSize ((memberBytes member).drop 97) = member.home ∧
    wireGetU64 ((memberBytes member).drop 129) = member.incarnation ∧
    wireGetU64 ((memberBytes member).drop 137) = member.sequence ∧
    wireGetU64 ((memberBytes member).drop 145) = member.version ∧
    (memberBytes member).getD 153 0 = UInt8.ofNat member.state.number ∧
    Octets.read nodeIdSize ((memberBytes member).drop 154) = member.reporter := by
  have ip := drop_append_drop (memberBytes member) List.drop_zero
    (Octets.length_toList member.node.id)
  have port := drop_append_drop _ ip (Octets.length_toList _)
  have uuid := drop_append_drop _ port (length_wirePutU16 _)
  have role := drop_append_drop _ uuid (Octets.length_toList _)
  have home := drop_append_drop _ role List.length_singleton
  have incarnation := drop_append_drop _ home (Octets.length_toList _)
  have sequence := drop_append_drop _ incarnation (length_wirePutU64 _)
  have version := drop_append_drop _ sequence (length_wirePutU64 _)
  have state := drop_append_drop _ version (length_wirePutU64 _)
  have reporter := drop_append_drop _ state List.length_singleton
  simp only [nodeIdSize, nodeAddressSize, nodeUuidSize, Nat.zero_add, Nat.reduceAdd,
    List.singleton_append] at *
  refine ⟨Octets.read_append _ _, ?_, ?_, ?_, getD_of_drop role, ?_, ?_, ?_, ?_,
    getD_of_drop state, ?_⟩
  · rw [ip]
    exact List.take_left' (Octets.length_toList _)
  · rw [port, wireGetU16_wirePutU16]
  · rw [uuid]
    exact Octets.read_append _ _
  · rw [home]
    exact Octets.read_append _ _
  · rw [incarnation, wireGetU64_wirePutU64]
  · rw [sequence, wireGetU64_wirePutU64]
  · rw [version, wireGetU64_wirePutU64]
  · rw [reporter]
    exact Octets.read_toList _

/-- A terminated text is found in its buffer. -/
theorem gossipAddress_read {ip : List UInt8} (text : 0 ∉ ip) (short : ip.length < nodeAddressSize) :
    gossipAddress (Octets.read nodeAddressSize ip).toList = some ip := by
  have buffer : (Octets.read nodeAddressSize ip).toList =
      ip ++ List.replicate (nodeAddressSize - ip.length) 0 := by
    show (ip ++ List.replicate nodeAddressSize 0).take nodeAddressSize = _
    rw [List.take_append, List.take_of_length_le (Nat.le_of_lt short), List.take_replicate,
      Nat.min_eq_left (Nat.sub_le _ _)]
  have padding : 0 < nodeAddressSize - ip.length := Nat.sub_pos_of_lt short
  obtain ⟨more, count⟩ := Nat.exists_eq_add_of_lt padding
  have letters : ∀ byte ∈ ip, (byte ≠ 0) = true := by
    intro byte member
    simp only [ne_eq, eq_iff_iff, iff_true]
    rintro rfl
    exact text member
  have taken : (ip ++ List.replicate (nodeAddressSize - ip.length) 0).takeWhile (· ≠ 0) = ip := by
    rw [List.takeWhile_append_of_pos (by simpa using letters), count]
    simp [List.replicate_succ]
  unfold gossipAddress
  rw [buffer, taken]
  have terminated : ¬ (ip.length = (ip ++ List.replicate (nodeAddressSize - ip.length) 0).length ∨
      ((ip ++ List.replicate (nodeAddressSize - ip.length) (0 : UInt8)).drop ip.length).any
        (· ≠ 0) = true) := by
    rw [List.length_append, List.length_replicate, List.drop_left]
    rintro (full | dirty)
    · omega
    · simp at dirty
  exact if_neg terminated

/-! ### Decoding what was encoded -/

section Codec

variable [Inet] [Sha256] [Process]

/-- A configuration with its address in normal form. -/
def normalConfig (config : NodeConfig) : NodeConfig :=
  match normalizeIp config.ip with
  | .error _ => config
  | .ok normalized => { config with ip := normalized }

/-- What the decoder makes of an encoded record: the node is rebuilt in the process of the
reader, and the clocks and counters of the writer are not carried. -/
def decodedForm (member : MemberRecord) : MemberRecord where
  node := ⟨member.node.id, normalConfig member.node.config, Process.pid, member.node.role⟩
  state := member.state
  lastSeen := 0
  home := member.home
  reporter := member.reporter
  incarnation := member.incarnation
  sequence := member.sequence
  version := member.version
  observedMs := 0
  probeMs := 0
  failedProbes := 0
  localRegistration := false

/-- A record that is encoded, and whose bytes decode to the same member. -/
structure Storable (member : MemberRecord) : Prop where
  valid : nodeValidate member.node = .ok ()
  decodes : gossipDecodeRecord (memberOctets member) =
    .ok (decodedForm member)

/-- A valid node whose normal configuration derives the same identity can be stored. -/
theorem Storable.of_normal {member : MemberRecord} (valid : nodeValidate member.node = .ok ())
    (text : 0 ∉ member.node.config.ip)
    (same : nodeComputeId (normalConfig member.node.config) = .ok member.node.id) :
    Storable member := by
  refine ⟨valid, ?_⟩
  obtain ⟨port, short, ⟨normalized, normal⟩, -⟩ :=
    nodeComputeId_eq_ok.mp (nodeComputeId_of_nodeValidate valid)
  have configured : nodeConfigInitWithUuid member.node.config.ip member.node.config.port
      member.node.config.uuid = .ok (normalConfig member.node.config) := by
    rw [nodeConfigInitWithUuid, if_neg port, normalConfig, normal]
  have initialised : nodeInit (normalConfig member.node.config) =
      .ok ⟨member.node.id, normalConfig member.node.config, Process.pid, .peer⟩ := by
    rw [nodeInit, same]
  obtain ⟨id, ip, portField, uuid, role, home, incarnation, sequence, version, state, reporter⟩ :=
    memberBytes_fields member
  rw [gossipDecodeRecord, toList_memberOctets, ip, gossipAddress_read text short, role,
    NodeRole.ofByte_number, state, SuperPeerMemberState.ofByte_number]
  simp only [portField, uuid, home, incarnation, sequence, version, reporter, id,
    configured, initialised, ne_eq, not_true_eq_false, if_false]
  rfl

/-- A node that `node_config_init_with_uuid` and `node_init` have built, under any role. -/
def BuiltNode (node : Node) : Prop :=
  ∃ ip port uuid config built, nodeConfigInitWithUuid ip port uuid = .ok config ∧
    nodeInit config = .ok built ∧ node = { built with role := node.role }

/-- The configuration of a built node is in normal form. -/
theorem BuiltNode.normal [NormalizingInet] {node : Node} (built : BuiltNode node) :
    normalConfig node.config = node.config ∧ 0 ∉ node.config.ip ∧ nodeValidate node = .ok () := by
  obtain ⟨ip, port, uuid, config, made, configured, initialised, same⟩ := built
  have valid : nodeValidate node = .ok () := by
    rw [same]
    exact nodeValidate_of_nodeInit initialised _
  have configEq : node.config = config := by
    unfold nodeInit at initialised
    cases computed : nodeComputeId config with
    | error code =>
      rw [computed] at initialised
      cases initialised
    | ok id =>
      rw [computed] at initialised
      cases initialised
      rw [same]
  have normal : ∃ source, normalizeIp source = .ok config.ip := by
    unfold nodeConfigInitWithUuid at configured
    split at configured
    · cases configured
    · cases written : normalizeIp ip with
      | error code =>
        rw [written] at configured
        cases configured
      | ok normalized =>
        rw [written] at configured
        cases configured
        exact ⟨ip, written⟩
  obtain ⟨source, written⟩ := normal
  have fixed := NormalizingInet.idempotent written
  rw [configEq, normalConfig, fixed]
  exact ⟨rfl, NormalizingInet.text fixed, valid⟩

theorem Storable.of_built [NormalizingInet] {member : MemberRecord}
    (built : BuiltNode member.node) : Storable member := by
  obtain ⟨normal, text, valid⟩ := built.normal
  refine .of_normal valid text ?_
  rw [normal]
  exact nodeComputeId_of_nodeValidate valid

theorem Storable.of_valid [LawfulInet] {member : MemberRecord}
    (valid : nodeValidate member.node = .ok ()) : Storable member := by
  obtain ⟨port, -, ⟨normalized, normal⟩, address, read, digest⟩ :=
    nodeComputeId_eq_ok.mp (nodeComputeId_of_nodeValidate valid)
  refine .of_normal valid (NormalizingInet.text normal) (nodeComputeId_eq_ok.mpr ?_)
  have config : normalConfig member.node.config = { member.node.config with ip := normalized } := by
    rw [normalConfig, normal]
  rw [config]
  refine ⟨port, LawfulInet.size normal, ⟨normalized, NormalizingInet.idempotent normal⟩, address,
    ?_, digest⟩
  rw [LawfulInet.address normal]
  exact read

/-! ### The ledger -/

/-- The first eight bytes of a ledger, `PDMEMB1` and a zero. -/
def ledgerMagic : List UInt8 := [80, 68, 77, 69, 77, 66, 49, 0]

/-- The bytes that `membership_save` publishes. -/
def membershipSave (table : SuperPeer) : Except Errno (List UInt8) :=
  if table.members.length > maxMembers then .error .eoverflow
  else match table.members.mapM gossipEncodeRecord with
    | .error code => .error code
    | .ok records =>
      .ok (ledgerMagic ++ (wirePutU32 (UInt32.ofNat table.members.length) ++
        records.flatMap Octets.toList))

/-- The loop of `membership_load` that reads and decodes the records. -/
def readRecords : Nat → List UInt8 → Except Errno (List MemberRecord × List UInt8)
  | 0, bytes => .ok ([], bytes)
  | count + 1, bytes =>
    if bytes.length < membershipWireSize then .error .ebadmsg
    else match gossipDecodeRecord (Octets.read membershipWireSize bytes) with
      | .error code => .error code
      | .ok record => match readRecords count (bytes.drop membershipWireSize) with
        | .error code => .error code
        | .ok (records, rest) => .ok (record :: records, rest)

/-- A record as `membership_load` enters it. -/
def loaded (localId : NodeID) (now : Int) (record : MemberRecord) : MemberRecord :=
  { record with
    localRegistration := answersFor localId record.node record.home
    observedMs := now }

/-- The loop of `membership_load` that enters the records. -/
def loadRecords (now : Int) : SuperPeer → List MemberRecord → SuperPeer × Except Errno Unit
  | table, [] => (table, .ok ())
  | table, record :: records =>
    if record.id = table.localNode.id then loadRecords now table records
    else if table.members.length ≥ maxMembers then (table, .error .enospc)
    else loadRecords now
      { table with members := table.members ++ [loaded table.localNode.id now record] } records

/-- `membership_load`, from the bytes of the ledger if there is one. -/
def membershipLoad (table : SuperPeer) (file : Option (List UInt8)) (now : Int) :
    SuperPeer × Except Errno Unit :=
  match file with
  | none => (table, .ok ())
  | some bytes =>
    let count := (wireGetU32 (bytes.drop 8)).toNat
    if bytes.length < 12 ∨ bytes.take 8 ≠ ledgerMagic ∨ count > maxMembers then
      (table, .error .ebadmsg)
    else match readRecords count (bytes.drop 12) with
      | .error code => (table, .error code)
      | .ok (records, rest) =>
        if rest ≠ [] then (table, .error .ebadmsg) else loadRecords now table records

/-! ### The ledger of a table -/

/-- The ledger of a table whose members can be encoded. -/
def ledgerBytes (members : List MemberRecord) : List UInt8 :=
  ledgerMagic ++ (wirePutU32 (UInt32.ofNat members.length) ++ members.flatMap memberBytes)

omit [Process] in
theorem mapM_gossipEncodeRecord {members : List MemberRecord}
    (valid : ∀ member ∈ members, nodeValidate member.node = .ok ()) :
    members.mapM gossipEncodeRecord =
      .ok (members.map memberOctets) := by
  induction members with
  | nil => rfl
  | cons member rest inductionHypothesis =>
    rw [List.mapM_cons, gossipEncodeRecord_of_valid (valid member List.mem_cons_self),
      inductionHypothesis fun other inRest => valid other (List.mem_cons_of_mem _ inRest)]
    rfl

omit [Process] in
theorem membershipSave_of_valid {table : SuperPeer} (size : table.members.length ≤ maxMembers)
    (valid : ∀ member ∈ table.members, nodeValidate member.node = .ok ()) :
    membershipSave table = .ok (ledgerBytes table.members) := by
  have joined : (table.members.map memberOctets).flatMap Octets.toList =
      table.members.flatMap memberBytes := by
    rw [List.flatMap_map]
    rfl
  rw [membershipSave, if_neg (Nat.not_lt.mpr size), mapM_gossipEncodeRecord valid, ledgerBytes,
    ← joined]

omit [Inet] [Sha256] [Process] in
theorem length_flatMap_memberBytes (members : List MemberRecord) :
    (members.flatMap memberBytes).length = membershipWireSize * members.length := by
  induction members with
  | nil => rfl
  | cons member rest inductionHypothesis =>
    rw [List.flatMap_cons, List.length_append, length_memberBytes, inductionHypothesis,
      List.length_cons]
    ring

theorem readRecords_flatMap {members : List MemberRecord}
    (storable : ∀ member ∈ members, Storable member) :
    readRecords members.length (members.flatMap memberBytes) =
      .ok (members.map decodedForm, []) := by
  induction members with
  | nil => rfl
  | cons member rest inductionHypothesis =>
    have first : Octets.read membershipWireSize
        (memberBytes member ++ rest.flatMap memberBytes) =
          memberOctets member :=
      Octets.read_append (memberOctets member) _
    have enough : ¬ (memberBytes member ++ rest.flatMap memberBytes).length <
        membershipWireSize := by
      rw [List.length_append, length_memberBytes]
      omega
    rw [List.flatMap_cons, List.length_cons, readRecords, if_neg enough, first,
      (storable member List.mem_cons_self).decodes, List.drop_left' (length_memberBytes member)]
    simp only [inductionHypothesis fun other inRest => storable other
      (List.mem_cons_of_mem _ inRest), List.map_cons]

/-- Records that are read take exactly their bytes. -/
theorem length_of_readRecords {count : Nat} {bytes rest : List UInt8}
    {records : List MemberRecord} (read : readRecords count bytes = .ok (records, rest)) :
    bytes.length = membershipWireSize * count + rest.length := by
  induction count generalizing bytes records with
  | zero =>
    cases read
    rw [Nat.mul_zero, Nat.zero_add]
  | succ count inductionHypothesis =>
    rw [readRecords] at read
    split at read
    · cases read
    · rename_i enough
      split at read
      · cases read
      · split at read
        · cases read
        · rename_i records others later
          cases read
          have shorter := inductionHypothesis later
          rw [List.length_drop] at shorter
          rw [Nat.mul_succ]
          omega

omit [Inet] [Sha256] [Process] in
/-- What the loop enters: all records but those of the local node, at the end of the table. -/
theorem loadRecords_eq {now : Int} {records : List MemberRecord} {table : SuperPeer}
    (room : table.members.length +
      (records.filter fun record => record.id ≠ table.localNode.id).length ≤ maxMembers) :
    loadRecords now table records =
      ({ table with members := table.members ++ (records.filter fun record =>
          record.id ≠ table.localNode.id).map (loaded table.localNode.id now) }, .ok ()) := by
  induction records generalizing table with
  | nil => simp [loadRecords]
  | cons record rest inductionHypothesis =>
    by_cases isLocal : record.id = table.localNode.id
    · rw [List.filter_cons_of_neg (by simpa using isLocal)] at room ⊢
      rw [loadRecords, if_pos isLocal]
      exact inductionHypothesis room
    · rw [List.filter_cons_of_pos (by simpa using isLocal)] at room ⊢
      rw [List.length_cons] at room
      have roomLater : (table.members ++ [loaded table.localNode.id now record]).length +
          (rest.filter fun record => record.id ≠ table.localNode.id).length ≤ maxMembers := by
        rw [List.length_append, List.length_singleton]
        omega
      have later := @inductionHypothesis { table with members :=
        table.members ++ [loaded table.localNode.id now record] } roomLater
      rw [loadRecords, if_neg isLocal, if_neg (by omega), later, List.map_cons, List.append_assoc]
      rfl

omit [Inet] [Sha256] [Process] in
/-- The header of a ledger. -/
theorem ledgerBytes_header {members : List MemberRecord} (size : members.length ≤ maxMembers)
    (extra : List UInt8) :
    (ledgerBytes members ++ extra).take 8 = ledgerMagic ∧
      (wireGetU32 ((ledgerBytes members ++ extra).drop 8)).toNat = members.length ∧
      (ledgerBytes members ++ extra).drop 12 = members.flatMap memberBytes ++ extra ∧
      (ledgerBytes members ++ extra).length =
        12 + (membershipWireSize * members.length + extra.length) := by
  have shape : ledgerBytes members ++ extra = ledgerMagic ++
      (wirePutU32 (UInt32.ofNat members.length) ++ (members.flatMap memberBytes ++ extra)) := by
    simp only [ledgerBytes, List.append_assoc]
  have small : members.length < 2 ^ 32 := lt_of_le_of_lt size (by decide)
  rw [shape]
  refine ⟨rfl, ?_, rfl, ?_⟩
  · show (wireGetU32 (wirePutU32 (UInt32.ofNat members.length) ++
      (members.flatMap memberBytes ++ extra))).toNat = members.length
    rw [wireGetU32_wirePutU32, UInt32.toNat_ofNat', Nat.mod_eq_of_lt small]
  · rw [List.length_append, List.length_append, List.length_append, length_wirePutU32,
      length_flatMap_memberBytes]
    show 8 + (4 + (membershipWireSize * members.length + extra.length)) = _
    omega

/-- A file that is not of the length that its count announces is rejected, and nothing is
entered. -/
theorem membershipLoad_of_length {table : SuperPeer} {bytes : List UInt8} (now : Int)
    (wrong : bytes.length < 12 ∨
      bytes.length ≠ 12 + membershipWireSize * (wireGetU32 (bytes.drop 8)).toNat) :
    ∃ code, membershipLoad table (some bytes) now = (table, .error code) := by
  unfold membershipLoad
  simp only
  split
  · exact ⟨_, rfl⟩
  · rename_i header
    rw [not_or] at header
    split
    · exact ⟨_, rfl⟩
    · rename_i records rest read
      have taken := length_of_readRecords read
      rw [List.length_drop] at taken
      have unread : rest ≠ [] := by
        rintro rfl
        rw [List.length_nil, Nat.add_zero] at taken
        omega
      rw [if_pos unread]
      exact ⟨_, rfl⟩

/-! ### Restarts -/

/-- A member after a restart. -/
def reloaded (localId : NodeID) (now : Int) (member : MemberRecord) : MemberRecord :=
  loaded localId now (decodedForm member)

/-- A table after a restart: a fresh table that was created at `now` and loaded at `later`. -/
def SuperPeer.restarted (table : SuperPeer) (now wall later : Int) : SuperPeer where
  localNode := table.localNode
  members := setMember table.localNode now wall ::
    table.members.tail.map (reloaded table.localNode.id later)

/-- A table whose ledger can be loaded again. -/
structure Restartable (table : SuperPeer) : Prop where
  distinct : table.ids.Nodup
  localFirst : table.ids.head? = some table.localNode.id
  size : table.members.length ≤ maxMembers
  storable : ∀ member ∈ table.members, Storable member

/-- The local node comes first in a ledger, and no other record is about it. -/
theorem Restartable.members_eq {table : SuperPeer} (restartable : Restartable table) :
    ∃ first others, table.members = first :: others ∧ first.id = table.localNode.id ∧
      ∀ member ∈ others, member.id ≠ table.localNode.id := by
  have localFirst := restartable.localFirst
  have distinct := restartable.distinct
  unfold SuperPeer.ids at localFirst distinct
  cases members : table.members with
  | nil =>
    rw [members] at localFirst
    cases localFirst
  | cons first others =>
    rw [members] at localFirst distinct
    rw [List.map_cons, List.head?_cons, Option.some_inj] at localFirst
    rw [List.map_cons, List.nodup_cons] at distinct
    refine ⟨first, others, rfl, localFirst, fun member inside same => distinct.1 ?_⟩
    rw [localFirst, ← same]
    exact List.mem_map_of_mem inside

/-- A restart keeps the members in their places. -/
theorem Restartable.restarts {table : SuperPeer} (restartable : Restartable table)
    (now wall later : Int) :
    membershipSave table = .ok (ledgerBytes table.members) ∧
      membershipLoad (SuperPeer.fresh table.localNode now wall)
        (some (ledgerBytes table.members)) later = (table.restarted now wall later, .ok ()) := by
  have size := restartable.size
  refine ⟨membershipSave_of_valid size fun member inside =>
    (restartable.storable member inside).valid, ?_⟩
  obtain ⟨magic, count, body, length⟩ := ledgerBytes_header size []
  rw [List.append_nil] at magic count body length
  rw [List.append_nil] at body
  have accepted : ¬ ((ledgerBytes table.members).length < 12 ∨
      (ledgerBytes table.members).take 8 ≠ ledgerMagic ∨
      (wireGetU32 ((ledgerBytes table.members).drop 8)).toNat > maxMembers) := by
    rw [magic, count]
    rintro (short | different | many)
    · omega
    · exact different rfl
    · exact absurd size (Nat.not_le.mpr many)
  rw [membershipLoad, if_neg accepted, count, body, readRecords_flatMap restartable.storable]
  show loadRecords later (SuperPeer.fresh table.localNode now wall)
    (table.members.map decodedForm) = _
  obtain ⟨first, others, members, isLocal, remote⟩ := restartable.members_eq
  have kept : ((table.members.map decodedForm).filter fun record =>
      record.id ≠ table.localNode.id) = others.map decodedForm := by
    rw [members, List.map_cons, List.filter_cons_of_neg
      (by rw [decide_eq_true_eq]; exact not_not.mpr isLocal)]
    refine List.filter_eq_self.mpr fun record inside => ?_
    obtain ⟨member, among, rfl⟩ := List.mem_map.mp inside
    exact decide_eq_true (remote member among)
  have room : (SuperPeer.fresh table.localNode now wall).members.length +
      ((table.members.map decodedForm).filter fun record =>
        record.id ≠ (SuperPeer.fresh table.localNode now wall).localNode.id).length ≤
          maxMembers := by
    show 1 + ((table.members.map decodedForm).filter fun record =>
      record.id ≠ table.localNode.id).length ≤ maxMembers
    rw [kept, List.length_map]
    rw [members, List.length_cons] at size
    omega
  rw [loadRecords_eq room]
  show (({ localNode := table.localNode, members := [setMember table.localNode now wall] ++
    ((table.members.map decodedForm).filter fun record =>
      record.id ≠ table.localNode.id).map (loaded table.localNode.id later) } : SuperPeer),
    Except.ok ()) = _
  rw [kept, List.map_map, SuperPeer.restarted, members]
  rfl

/-- Every proper part of a ledger, and every continuation of it, is rejected. -/
theorem membershipLoad_other_length {members : List MemberRecord}
    (size : members.length ≤ maxMembers) (target : SuperPeer) (later : Int) :
    (∀ bytes, bytes <+: ledgerBytes members → bytes ≠ ledgerBytes members →
      ∃ code, membershipLoad target (some bytes) later = (target, .error code)) ∧
    ∀ extra, extra ≠ [] →
      ∃ code, membershipLoad target (some (ledgerBytes members ++ extra)) later =
        (target, .error code) := by
  constructor
  · rintro bytes ⟨missing, joined⟩ proper
    refine membershipLoad_of_length later ?_
    by_cases short : bytes.length < 12
    · exact Or.inl short
    · obtain ⟨-, count, -, length⟩ := ledgerBytes_header size []
      rw [List.append_nil] at count length
      have lost : missing ≠ [] := by
        rintro rfl
        rw [List.append_nil] at joined
        exact proper joined
      have positive := List.length_pos_iff.mpr lost
      -- The count stands in the part that is left.
      have same : wireGetU32 (bytes.drop 8) = wireGetU32 ((ledgerBytes members).drop 8) := by
        have header : ∀ position < 4, ((ledgerBytes members).drop 8).getD position 0 =
            (bytes.drop 8).getD position 0 := by
          intro position below
          rw [← joined, List.getD_eq_getElem?_getD, List.getD_eq_getElem?_getD, List.getElem?_drop,
            List.getElem?_drop, List.getElem?_append_left (by omega)]
        unfold wireGetU32
        rw [header 0 (by decide), header 1 (by decide), header 2 (by decide), header 3 (by decide)]
      refine Or.inr ?_
      rw [same, count]
      rw [← joined, List.length_append, List.length_nil] at length
      omega
  · intro extra more
    obtain ⟨-, count, -, length⟩ := ledgerBytes_header size extra
    have positive := List.length_pos_iff.mpr more
    refine membershipLoad_of_length later (Or.inr ?_)
    rw [count, length]
    omega

/-! ### Round trips -/

/-- The fields of a record that the wire form carries. -/
structure WireFields where
  id : NodeID
  ip : List UInt8
  port : UInt16
  uuid : Octets nodeUuidSize
  role : NodeRole
  home : NodeID
  incarnation : UInt64
  sequence : UInt64
  version : UInt64
  state : SuperPeerMemberState
  reporter : NodeID
  deriving DecidableEq

/-- The fields of a record that the wire form carries. -/
def MemberRecord.wireFields (member : MemberRecord) : WireFields where
  id := member.node.id
  ip := member.node.config.ip
  port := member.node.config.port
  uuid := member.node.config.uuid
  role := member.node.role
  home := member.home
  incarnation := member.incarnation
  sequence := member.sequence
  version := member.version
  state := member.state
  reporter := member.reporter

theorem wireFields_decodedForm [NormalizingInet] {member : MemberRecord}
    (built : BuiltNode member.node) : (decodedForm member).wireFields = member.wireFields := by
  obtain ⟨normal, -⟩ := built.normal
  simp only [MemberRecord.wireFields, decodedForm, normal]

/-- Records and ledgers of built nodes come back as they were written, and a ledger is accepted
at its own length only. -/
theorem records_and_ledger_round_trip [NormalizingInet] :
    (∀ member : MemberRecord, BuiltNode member.node → ∃ bytes decoded,
      gossipEncodeRecord member = .ok bytes ∧ gossipDecodeRecord bytes = .ok decoded ∧
        decoded.wireFields = member.wireFields) ∧
    ∀ table : SuperPeer, (∀ member ∈ table.members, BuiltNode member.node) →
      table.members.length ≤ maxMembers → table.ids.Nodup →
      table.ids.head? = some table.localNode.id →
      ∃ file, membershipSave table = .ok file ∧
        (∀ now wall later, ∃ after,
          membershipLoad (SuperPeer.fresh table.localNode now wall) (some file) later =
            (after, .ok ()) ∧
          after.localNode = table.localNode ∧
          after.members.head? = some (setMember table.localNode now wall) ∧
          after.members.tail.map MemberRecord.wireFields =
            table.members.tail.map MemberRecord.wireFields) ∧
        ∀ target later,
          (∀ bytes, bytes <+: file → bytes ≠ file →
            ∃ code, membershipLoad target (some bytes) later = (target, .error code)) ∧
          ∀ extra, extra ≠ [] →
            ∃ code, membershipLoad target (some (file ++ extra)) later =
              (target, .error code) := by
  constructor
  · intro member built
    have storable := Storable.of_built built
    exact ⟨memberOctets member, decodedForm member, gossipEncodeRecord_of_valid storable.valid,
      storable.decodes, wireFields_decodedForm built⟩
  · intro table built size distinct localFirst
    have restartable : Restartable table := ⟨distinct, localFirst, size, fun member inside =>
      .of_built (built member inside)⟩
    refine ⟨ledgerBytes table.members, (restartable.restarts 0 0 0).1, ?_, fun target later =>
      membershipLoad_other_length size target later⟩
    intro now wall later
    refine ⟨table.restarted now wall later, (restartable.restarts now wall later).2, rfl, rfl, ?_⟩
    rw [SuperPeer.restarted, List.tail_cons, List.map_map]
    refine List.map_congr_left fun member inside => ?_
    exact wireFields_decodedForm (built member (List.mem_of_mem_tail inside))

end Codec

/-- A neighbour is built by the code. -/
theorem builtNode_neighbour {port : UInt8} (usable : port ≠ 0) :
    letI := Inet.reference; letI := Sha256.reference; letI := Process.first
    BuiltNode (neighbour port) := by
  let inet := Inet.reference
  let sha := Sha256.reference
  let process := Process.first
  have listens : port.toUInt16 ≠ 0 := by
    intro zero
    refine usable (UInt8.toNat_inj.mp ?_)
    have same := congrArg UInt16.toNat zero
    rwa [UInt8.toNat_toUInt16] at same
  have read : Inet.pton4 (neighbour port).config.ip = some [127, 0, 0, 1] := by
    show Inet.reference.pton4 [49, 50, 55, 46, 48, 46, 48, 46, 49] = _
    decide +kernel
  have written : Inet.ntop4 [127, 0, 0, 1] = (neighbour port).config.ip := by
    show Inet.reference.ntop4 [127, 0, 0, 1] = [49, 50, 55, 46, 48, 46, 48, 46, 49]
    decide +kernel
  have normal : normalizeIp (neighbour port).config.ip = .ok (neighbour port).config.ip := by
    rw [normalizeIp, if_neg (by exact List.cons_ne_nil _ _), read]
    exact congrArg Except.ok written
  have computed : nodeComputeId (neighbour port).config = .ok (neighbour port).id := by
    refine nodeComputeId_eq_ok.mpr ⟨listens, ?_, ⟨_, normal⟩, [127, 0, 0, 1], ?_, ?_⟩
    · show 9 < 46
      decide
    · rw [read]
      rfl
    · show Sha256.digest ([127, 0, 0, 1] ++ wirePutU16 port.toUInt16 ++ _) = _
      rw [wirePutU16_toUInt16]
      rfl
  refine ⟨(neighbour port).config.ip, port.toUInt16, Octets.read nodeUuidSize [],
    (neighbour port).config, { neighbour port with role := .peer }, ?_, ?_, rfl⟩
  · rw [nodeConfigInitWithUuid, if_neg listens, normal]
    rfl
  · rw [nodeInit, computed]
    rfl

/-- The ledger of a table that holds its local node and a neighbour. -/
theorem records_and_ledger_round_trip_neighbours :
    letI := Inet.reference; letI := Sha256.reference; letI := Process.first
    ∃ file after, membershipSave
        ⟨neighbour 1, [setMember (neighbour 1) 0 0, setMember (neighbour 2) 0 0]⟩ = .ok file ∧
      membershipLoad (SuperPeer.fresh (neighbour 1) 0 0) (some file) 0 = (after, .ok ()) ∧
      after.members.tail.map MemberRecord.wireFields =
        [(setMember (neighbour 2) 0 0).wireFields] := by
  let inet := Inet.reference
  let sha := Sha256.reference
  let process := Process.first
  have lawful : LawfulInet := Inet.reference_lawful
  have apart : (neighbour 2).id ≠ (neighbour 1).id := by decide +kernel
  have ledger := records_and_ledger_round_trip.2
    ⟨neighbour 1, [setMember (neighbour 1) 0 0, setMember (neighbour 2) 0 0]⟩
  obtain ⟨file, saved, loads, -⟩ := ledger
    (by
      intro member inside
      rcases List.mem_pair.mp inside with rfl | rfl
      · exact builtNode_neighbour (by decide)
      · exact builtNode_neighbour (by decide))
    (by decide) (List.nodup_cons.mpr ⟨fun same => apart.symm (List.mem_singleton.mp same),
      List.nodup_singleton _⟩) rfl
  obtain ⟨after, accepted, -, -, restored⟩ := loads 0 0 0
  exact ⟨file, after, saved, accepted, restored⟩

end SuperPeerNet
