/-
This file proves that a download gets its file as soon as each chunk has one peer to rely on.

The lookup may name any peers for a chunk. What those that are not relied on answer is
arbitrary, as long as nobody finds other bytes with the digest of a piece. The workers of
the download and the peers take their actions in any order, and a peer may serve others,
take uploads and crash in between. A peer that is relied on has published the content, and
calls to it do not fail.
-/

import SuperPeerNet.Client.Completion
import SuperPeerNet.Client.Download
import SuperPeerNet.Client.Layout
import SuperPeerNet.Peer.Genuine

namespace SuperPeerNet

open Pieces

/-! ### One chunk -/

/-- Inside of a file nothing is padded. -/
theorem writeAt_eq_overwrite {file bytes : List UInt8} {offset : Nat}
    (inside : offset ≤ file.length) : writeAt file offset bytes = overwrite file offset bytes := by
  rw [writeAt, overwrite, Nat.sub_eq_zero_of_le inside, List.replicate_zero, List.append_nil]

/-- A part of the piece, written in its place. -/
theorem pwriteAll_part {content file : List UInt8} {index offset : UInt64}
    (small : content.length ≤ 2 ^ 63 - 1) (length : file.length = content.length)
    (inside : index.toNat * chunkSize < content.length)
    (isOffset : offset.toNat = index.toNat * chunkSize) (broken : Option Nat) :
    ∃ count, pwriteAll file (piece content chunkSize index.toNat) offset broken =
        (overwrite file (index.toNat * chunkSize)
          ((piece content chunkSize index.toNat).take count),
        if broken.isSome then .error .eio else .ok ()) ∧
      (broken = none → (piece content chunkSize index.toNat).length ≤ count) := by
  have writable : ¬offset.toNat > 2 ^ 63 - 1 := by omega
  unfold pwriteAll
  rw [if_neg writable, isOffset]
  cases broken with
  | none =>
    refine ⟨(piece content chunkSize index.toNat).length, ?_, fun _ => Nat.le_refl _⟩
    rw [List.take_length]
    exact congrArg (Prod.mk · _) (writeAt_eq_overwrite (by omega))
  | some count =>
    refine ⟨count, ?_, fun none => by cases none⟩
    exact congrArg (Prod.mk · _) (writeAt_eq_overwrite (by omega))

/-- What a failed write leaves of the other chunks. -/
theorem overwrite_part {content file : List UInt8} {index : Nat} (count : Nat)
    (length : file.length = content.length) (inside : index * chunkSize < content.length) :
    (overwrite file (index * chunkSize) ((piece content chunkSize index).take count)).length =
        content.length ∧
      ∀ other, other ≠ index → piece (overwrite file (index * chunkSize)
        ((piece content chunkSize index).take count)) chunkSize other =
          piece file chunkSize other := by
  have size := length_piece content chunkSize index
  have part : ((piece content chunkSize index).take count).length ≤
      (piece content chunkSize index).length := List.length_take_le' count _
  refine ⟨(length_overwrite (by omega)).trans length, fun other different => ?_⟩
  exact piece_overwrite_other different (by omega) (by omega)

section Chunks

variable [Sha256] [Lz4]

/-- A lookup result that speaks of a content: its size and the number of its chunks. -/
structure TransferLookupResult.Describes (lookup : TransferLookupResult) (content : List UInt8) :
    Prop where
  id : lookup.document.id = contentSha256 content
  fileSize : lookup.document.fileSize.toNat = content.length
  chunkCount : lookup.document.chunkCount = chunkCountOf lookup.document.fileSize
  small : content.length ≤ 2 ^ 63 - 1
  digests : ∀ (index : UInt64) locations, lookup.chunks[index.toNat]? = some locations →
    locations.descriptor.hash = contentSha256 (piece content chunkSize index.toNat)

omit [Lz4] in
/-- The indices of a download are those of the pieces. -/
theorem TransferLookupResult.Describes.inside {lookup : TransferLookupResult}
    {content : List UInt8} (describes : lookup.Describes content) {index : UInt64} :
    index < lookup.document.chunkCount ↔ index.toNat * chunkSize < content.length := by
  rw [describes.chunkCount, UInt64.lt_iff_toNat_lt, lt_chunkCountOf, describes.fileSize]

/-- What a chunk of a download has to meet: whatever is accepted is the piece, and one of its peers
sends it, to a file that can be written. -/
structure ChunkMeets (lookup : TransferLookupResult) (content : List UInt8) (index : UInt64)
    (conditions : Nat → DownloadConditions) : Prop where
  only : ∀ locations attempt chunk raw, lookup.chunks[index.toNat]? = some locations →
    downloadedChunk lookup index locations.descriptor.hash (conditions attempt).response =
      .ok (chunk, raw) → raw = piece content chunkSize index.toNat
  served : ∃ locations attempt accepted, lookup.chunks[index.toNat]? = some locations ∧
    attempt < locations.peers.length ∧
    downloadedChunk lookup index locations.descriptor.hash (conditions attempt).response =
      .ok accepted ∧ (conditions attempt).broken = none

/-- The file after the attempts for a chunk: the chunk is there, and the others are left. -/
structure ChunkWritten (content : List UInt8) (index : Nat) (file after : List UInt8) : Prop where
  length : after.length = content.length
  here : piece after chunkSize index = piece content chunkSize index
  others : ∀ other, other ≠ index → piece after chunkSize other = piece file chunkSize other

/-- The bytes of the chunk that a message carries. -/
def Message.Carries (message : Message) (raw : List UInt8) : Prop :=
  ∃ chunk, transferDecodeChunk message.payload transferDownloadChunk = .ok chunk ∧
    compressionLz4Decompress chunk.data chunk.rawSize.toNat = .ok raw

omit [Sha256] in
/-- A message carries the bytes of one chunk. -/
theorem Message.Carries.unique {message : Message} {raw other : List UInt8}
    (carries : message.Carries raw) (again : message.Carries other) : raw = other := by
  obtain ⟨chunk, decoded, decompressed⟩ := carries
  obtain ⟨found, same, also⟩ := again
  obtain rfl := Except.ok.inj (decoded.symm.trans same)
  exact Except.ok.inj (decompressed.symm.trans also)

/-- The loop over the peers of a chunk, from an attempt on. -/
theorem downloadAttempts_delivers {lookup : TransferLookupResult} {content : List UInt8}
    (describes : lookup.Describes content) {index : UInt64}
    (inside : index.toNat * chunkSize < content.length) {hash : Octets objectIdSize}
    {conditions : Nat → DownloadConditions}
    (only : ∀ attempt chunk raw,
      downloadedChunk lookup index hash (conditions attempt).response = .ok (chunk, raw) →
      raw = piece content chunkSize index.toNat)
    {peers : List TransferEndpoint} {attempt place : Nat} (among : place < peers.length)
    {accepted : TransferChunk × List UInt8}
    (served : downloadedChunk lookup index hash (conditions (attempt + place)).response =
      .ok accepted)
    (whole : (conditions (attempt + place)).broken = none) {file : List UInt8}
    (length : file.length = content.length) :
    ∃ after size, downloadAttempts lookup index hash conditions peers attempt file =
      (after, .ok size) ∧ ChunkWritten content index.toNat file after := by
  induction peers generalizing attempt place file with
  | nil => exact absurd among (Nat.not_lt_zero _)
  | cons peer rest inductionHypothesis =>
    -- After an attempt that has not succeeded, the peer that sends the chunk is still to come.
    have later : ∀ next : List UInt8, next.length = content.length → place ≠ 0 →
        ∃ after size, downloadAttempts lookup index hash conditions rest (attempt + 1) next =
          (after, .ok size) ∧ ChunkWritten content index.toNat next after := by
      intro next nextLength notHere
      obtain ⟨place, rfl⟩ := Nat.exists_eq_succ_of_ne_zero notHere
      rw [Nat.add_succ, ← Nat.succ_add] at served whole
      exact inductionHypothesis (Nat.lt_of_succ_lt_succ among) served whole nextLength
    rw [downloadAttempts]
    cases sent : downloadedChunk lookup index hash (conditions attempt).response with
    | error code =>
      refine later file length fun here => ?_
      rw [here, Nat.add_zero, sent] at served
      cases served
    | ok taken =>
      obtain ⟨chunk, raw⟩ := taken
      obtain rfl := only attempt chunk raw sent
      have isOffset : chunk.offset.toNat = index.toNat * chunkSize := by
        have within : index.toNat * chunkSize < lookup.document.fileSize.toNat := by
          rw [describes.fileSize]
          exact inside
        rw [(downloadedChunk_layout sent).1]
        exact toNat_offset within
      obtain ⟨count, written, full⟩ := pwriteAll_part describes.small length inside isOffset
        (conditions attempt).broken
      obtain ⟨partLength, partOthers⟩ := overwrite_part count length inside
      dsimp only
      rw [written]
      cases isBroken : (conditions attempt).broken with
      | none =>
        refine ⟨_, _, rfl, partLength, ?_, partOthers⟩
        rw [List.take_of_length_le (full isBroken)]
        refine piece_overwrite_self (by omega) ?_
        rw [length_piece, length]
      | some broken =>
        obtain ⟨after, size, done, afterLength, here, others⟩ := later _ partLength fun here => by
          rw [here, Nat.add_zero, isBroken] at whole
          cases whole
        exact ⟨after, size, done, afterLength, here, fun other different =>
          (others other different).trans (partOthers other different)⟩

/-- A chunk that meets what it has to meet is written, and the others are left. -/
theorem downloadOne_delivers {lookup : TransferLookupResult} {content : List UInt8}
    (describes : lookup.Describes content) {index : UInt64}
    (inside : index < lookup.document.chunkCount) {conditions : Nat → DownloadConditions}
    (meets : ChunkMeets lookup content index conditions) {file : List UInt8}
    (length : file.length = content.length) :
    ∃ after size, downloadOne lookup index conditions file = (after, .ok size) ∧
      ChunkWritten content index.toNat file after := by
  obtain ⟨locations, attempt, accepted, there, among, served, whole⟩ := meets.served
  unfold downloadOne
  rw [there]
  rw [← Nat.zero_add attempt] at served whole
  exact downloadAttempts_delivers describes (describes.inside.mp inside)
    (fun attempt chunk raw => meets.only locations attempt chunk raw there) among served whole
    length

/-- The chunks of a download achieve the pieces of the content. -/
theorem downloadTask_achieves {lookup : TransferLookupResult} {content : List UInt8}
    (describes : lookup.Describes content) :
    (downloadTask lookup).Achieves (ChunkMeets lookup content)
      (fun file => file.length = content.length)
      (fun index file => piece file chunkSize index.toNat =
        piece content chunkSize index.toNat) := by
  intro index conditions file inside meets length
  obtain ⟨after, size, done, written⟩ := downloadOne_delivers describes inside meets length
  refine ⟨after, size, done, written.length, written.here, fun other _ same => ?_⟩
  by_cases isIndex : other = index
  · rw [isIndex]
    exact written.here
  · exact (written.others _ fun equal => isIndex (UInt64.toNat_inj.mp equal)).trans same

omit [Lz4] in
/-- A file with all pieces of the content is the content. -/
theorem eq_content {lookup : TransferLookupResult} {content file : List UInt8}
    (describes : lookup.Describes content) (length : file.length = content.length)
    (all : ∀ index < lookup.document.chunkCount,
      piece file chunkSize index.toNat = piece content chunkSize index.toNat) :
    file = content := by
  have positive : 0 < chunkSize := by decide
  refine eq_of_pieces positive length fun index inside => ?_
  have bound := lookup.document.fileSize.toNat_lt
  rw [describes.fileSize] at bound
  have word : (UInt64.ofNat index).toNat = index := by
    refine UInt64.toNat_ofNat_of_lt' ((Nat.le_mul_of_pos_right index positive).trans_lt ?_)
    exact inside.trans bound
  have same := all (UInt64.ofNat index) (describes.inside.mpr (by rw [word]; exact inside))
  rw [word] at same
  exact same

end Chunks

/-! ### The pool and the peers -/

/-- A download with the peers that its lookup may name. -/
structure Swarm where
  pool : Pool (List UInt8)
  peers : TransferEndpoint → PeerService

/-- The pool takes an action, or a peer does. What serving a chunk does to the cache of a peer is an
action of this peer. -/
inductive SwarmAction where
  | pool (action : PoolAction (Nat → DownloadConditions))
  | peer (endpoint : TransferEndpoint) (action : PeerAction)

section Swarm

variable [Inet] [Sha256] [Process] [Lz4]

/-- The step function of a swarm. -/
def swarmStep (lookup : TransferLookupResult) (swarm : Swarm) : SwarmAction → Option Swarm
  | .pool action => (executeDownloadWorkers lookup swarm.pool action).map fun pool =>
    { swarm with pool := pool }
  | .peer endpoint action => (peerStep (swarm.peers endpoint) action).map fun service =>
    { swarm with peers := fun other => if other = endpoint then service else swarm.peers other }

/-- What a download relies on: its content, its own identity and some peers. -/
structure Reliance where
  content : List UInt8
  client : NodeID
  reliable : TransferEndpoint → Prop

/-- The request of `download_one`. -/
def chunkRequest (client : NodeID) (endpoint : TransferEndpoint) (transaction : TransactionId)
    (id : ObjectID) (index : UInt64) : Message where
  messageType := .downloadReq
  sourceNode := client
  destinationNode := endpoint.nodeId
  transactionId := transaction
  payload := transferEncodeChunkRequest id index

/-- A request has been sent to a peer in its present state, and nothing fails at the client. -/
def Answered (client : NodeID) (endpoint : TransferEndpoint) (service : PeerService)
    (id : ObjectID) (index : UInt64) (conditions : DownloadConditions) : Prop :=
  conditions.broken = none ∧ ∃ transaction surroundings, conditions.response =
    rpcCallWithTransaction (fun request => (serveConnection service surroundings request).2)
      (chunkRequest client endpoint transaction id index)

/-- What a chunk meets in a swarm: the peers that are relied on answer, and no message that the
client receives carries other bytes than the piece with the digest that the lookup names. -/
structure ChunkExchanged (lookup : TransferLookupResult) (reliance : Reliance) (swarm : Swarm)
    (index : UInt64) (conditions : Nat → DownloadConditions) : Prop where
  answered : ∀ locations (attempt : Nat) endpoint, lookup.chunks[index.toNat]? = some locations →
    locations.peers[attempt]? = some endpoint → reliance.reliable endpoint →
    Answered reliance.client endpoint (swarm.peers endpoint) lookup.document.id index
      (conditions attempt)
  collisionless : ∀ locations attempt message raw, lookup.chunks[index.toNat]? = some locations →
    (conditions attempt).response = .ok message → message.Carries raw →
    contentSha256 raw = locations.descriptor.hash →
    raw = piece reliance.content chunkSize index.toNat

/-- Threads do not fail, chunks meet the peers, and peers do what they can do. -/
def SwarmAction.Allowed (lookup : TransferLookupResult) (reliance : Reliance) (swarm : Swarm) :
    SwarmAction → Prop
  | .pool action => ChunkTask.Smooth (ChunkExchanged lookup reliance swarm) swarm.pool action
  | .peer endpoint action => action.Admissible (swarm.peers endpoint)

/-- A peer that is relied on has published the content. -/
structure Reliance.Held (reliance : Reliance) (endpoint : TransferEndpoint)
    (service : PeerService) : Prop where
  id : service.id = endpoint.nodeId
  sound : service.Sound
  keeps : service.session.Keeps reliance.content

/-- A download can start: the lookup speaks of the content and names for each chunk a peer to rely
on. -/
structure Reliance.Covers (reliance : Reliance) (lookup : TransferLookupResult) : Prop where
  describes : lookup.Describes reliance.content
  named : reliance.client ≠ zeroNodeId
  covered : ∀ index < lookup.document.chunkCount, ∃ locations endpoint,
    lookup.chunks[index.toNat]? = some locations ∧ endpoint ∈ locations.peers ∧
      reliance.reliable endpoint

/-- The invariant of a swarm. -/
structure Swarm.Delivering (lookup : TransferLookupResult) (reliance : Reliance) (swarm : Swarm) :
    Prop where
  thriving : swarm.pool.Thriving (downloadTask lookup)
    (fun file => file.length = reliance.content.length)
    (fun index file => piece file chunkSize index.toNat =
      piece reliance.content chunkSize index.toNat)
  held : ∀ endpoint, reliance.reliable endpoint → reliance.Held endpoint (swarm.peers endpoint)

/-- A peer keeps what it has published. -/
theorem Reliance.Held.step {reliance : Reliance} {endpoint : TransferEndpoint}
    {service next : PeerService} (held : reliance.Held endpoint service) {action : PeerAction}
    (admissible : action.Admissible service) (stepped : peerStep service action = some next) :
    reliance.Held endpoint next := by
  refine ⟨(PeerService.id_of_step stepped).trans held.id, held.sound.step admissible stepped, ?_⟩
  exact held.keeps.reaches held.sound.settled
    (session_of_reaches (.tail .refl action admissible stepped))

/-- The answer of a peer that holds the content passes the checks of the client. -/
theorem Reliance.Held.accepted [BoundedLz4] {reliance : Reliance} {endpoint : TransferEndpoint}
    {service : PeerService} (held : reliance.Held endpoint service)
    {lookup : TransferLookupResult} (describes : lookup.Describes reliance.content)
    (named : reliance.client ≠ zeroNodeId) {index : UInt64}
    (inside : index < lookup.document.chunkCount) {hash : Octets objectIdSize}
    (digest : hash = contentSha256 (piece reliance.content chunkSize index.toNat))
    {conditions : DownloadConditions} (answered : Answered reliance.client endpoint service
      lookup.document.id index conditions) :
    ∃ accepted, downloadedChunk lookup index hash conditions.response = .ok accepted := by
  obtain ⟨-, transaction, surroundings, isResponse⟩ := answered
  have within := describes.inside.mp inside
  generalize isRequest : chunkRequest reliance.client endpoint transaction lookup.document.id index
    = request at isResponse
  have asked : transferDecodeChunkRequest request.payload =
      .ok (contentSha256 reliance.content, index) := by
    rw [← isRequest, ← describes.id]
    exact transferDecodeChunkRequest_bytes _ _
  obtain ⟨chunk, correct, isIndex, sent⟩ := serveConnection_download held.sound held.keeps within
    surroundings (by rw [← isRequest]; rfl) (by rw [← isRequest]; exact named)
    (by rw [← isRequest]; exact held.id.symm) asked
  have short : ¬request.payload.length > maxPayloadSize := by
    rw [← isRequest]
    have idSize : lookup.document.id.toList.length = 32 := Octets.length_toList _
    simp only [chunkRequest, transferEncodeChunkRequest, List.length_cons, List.length_append,
      idSize, length_wirePutU64, maxPayloadSize]
    omega
  have received : conditions.response = .ok (sendReply service.id request
      (.ok (.downloadRep, chunkBytes chunk.toTransferChunk transferDownloadChunk))) := by
    rw [isResponse, rpcCallWithTransaction, if_neg short, sent]
    refine if_neg ?_
    rintro (wrong | wrong | wrong)
    · exact wrong rfl
    · exact wrong rfl
    · refine wrong ?_
      rw [← isRequest]
      exact held.id
  have size : chunk.rawSize = expectedSize lookup.document.fileSize index := by
    rw [← UInt32.toNat_inj, correct.rawSize, length_piece, isIndex,
      expectedSize_toNat (by rw [describes.fileSize]; exact within), describes.fileSize]
  have decompressed := correct.decompresses
  have isHash := correct.hash
  have offset := correct.offset
  rw [isIndex] at decompressed isHash offset
  refine ⟨(chunk.toTransferChunk, piece reliance.content chunkSize index.toNat), ?_⟩
  rw [received]
  exact downloadedChunk_eq_ok.mpr ⟨_, rfl, rfl, correct.sendable.decodes _,
    correct.id.trans describes.id.symm, isIndex, offset, size, decompressed, isHash.symm,
    digest.symm⟩

/-- A chunk that is exchanged with the peers meets what it has to meet. -/
theorem ChunkExchanged.meets [BoundedLz4] {lookup : TransferLookupResult} {reliance : Reliance}
    (covers : reliance.Covers lookup) {swarm : Swarm} (held : ∀ endpoint,
      reliance.reliable endpoint → reliance.Held endpoint (swarm.peers endpoint))
    {index : UInt64} {conditions : Nat → DownloadConditions}
    (inside : index < lookup.document.chunkCount)
    (exchanged : ChunkExchanged lookup reliance swarm index conditions) :
    ChunkMeets lookup reliance.content index conditions := by
  refine ⟨fun locations attempt chunk raw there taken => ?_, ?_⟩
  · obtain ⟨message, received, checked⟩ := downloadedChunk_eq_ok.mp taken
    exact exchanged.collisionless locations attempt message raw there received
      ⟨chunk, checked.decoded, checked.decompressed⟩ checked.digest
  obtain ⟨locations, endpoint, there, among, reliable⟩ := covers.covered index inside
  obtain ⟨attempt, placed⟩ := List.getElem?_of_mem among
  have answered := exchanged.answered locations attempt endpoint there placed reliable
  obtain ⟨accepted, passes⟩ := (held endpoint reliable).accepted covers.describes covers.named inside
    (covers.describes.digests index locations there) answered
  exact ⟨locations, attempt, accepted, there, (List.getElem?_eq_some_iff.mp placed).1, passes,
    answered.1⟩

/-- Every action keeps the invariant. -/
theorem Swarm.Delivering.step [BoundedLz4] {lookup : TransferLookupResult} {reliance : Reliance}
    (covers : reliance.Covers lookup) {swarm next : Swarm}
    (delivering : swarm.Delivering lookup reliance) {action : SwarmAction}
    (allowed : action.Allowed lookup reliance swarm)
    (stepped : swarmStep lookup swarm action = some next) : next.Delivering lookup reliance := by
  cases action with
  | pool action =>
    obtain ⟨pool, taken, rfl⟩ := Option.map_eq_some_iff.mp stepped
    have better : ∀ index conditions, index < lookup.document.chunkCount →
        ChunkExchanged lookup reliance swarm index conditions →
        ChunkMeets lookup reliance.content index conditions :=
      fun _ _ inside exchanged => exchanged.meets covers delivering.held inside
    have achieves := (downloadTask_achieves covers.describes).of_finer better
    exact ⟨delivering.thriving.step achieves allowed taken, delivering.held⟩
  | peer endpoint action =>
    obtain ⟨service, taken, rfl⟩ := Option.map_eq_some_iff.mp stepped
    refine ⟨delivering.thriving, fun other reliable => ?_⟩
    show reliance.Held other (if other = endpoint then service else swarm.peers other)
    split
    · rename_i same
      subst same
      exact (delivering.held other reliable).step allowed taken
    · exact delivering.held other reliable

/-- A swarm at the start of a download with the given number of workers. -/
def Swarm.start (lookup : TransferLookupResult) (count : Nat)
    (peers : TransferEndpoint → PeerService) : Swarm :=
  ⟨.start count (List.replicate lookup.document.fileSize.toNat 0), peers⟩

/-- The pool of a swarm takes the actions of a pool. -/
theorem pool_of_reaches {lookup : TransferLookupResult} {reliance : Reliance}
    {start swarm : Swarm} (reached : Transition.Reaches (swarmStep lookup)
      (SwarmAction.Allowed lookup reliance) start swarm) :
    Transition.Reaches (executeDownloadWorkers lookup) (fun _ _ => True) start.pool swarm.pool := by
  induction reached with
  | refl => exact .refl
  | tail _ action _ stepped inductionHypothesis =>
    cases action with
    | pool action =>
      obtain ⟨pool, taken, rfl⟩ := Option.map_eq_some_iff.mp stepped
      exact inductionHypothesis.tail action trivial taken
    | peer endpoint action =>
      obtain ⟨service, -, rfl⟩ := Option.map_eq_some_iff.mp stepped
      exact inductionHypothesis

/-- When the caller of the workers returns, it has succeeded, and the file is the content. -/
theorem swarm_delivers [BoundedLz4] {lookup : TransferLookupResult} {reliance : Reliance}
    (covers : reliance.Covers lookup) {count : Nat} (some : count ≠ 0)
    (few : count ≤ maxConfiguredWorkers) {peers : TransferEndpoint → PeerService}
    (held : ∀ endpoint, reliance.reliable endpoint → reliance.Held endpoint (peers endpoint))
    {swarm : Swarm} (reached : Transition.Reaches (swarmStep lookup)
      (SwarmAction.Allowed lookup reliance) (.start lookup count peers) swarm)
    {status : Except (Option Errno) Unit} (returned : swarm.pool.caller = .returned status) :
    status = .ok () ∧ swarm.pool.work.world = reliance.content := by
  have initial : (Swarm.start lookup count peers).Delivering lookup reliance := by
    refine ⟨thriving_start some few ?_, held⟩
    rw [List.length_replicate, covers.describes.fileSize]
  have delivering : swarm.Delivering lookup reliance :=
    reached.invariant initial fun _ _ _ before allowed stepped =>
      before.step covers allowed stepped
  obtain ⟨succeeded, length, all⟩ := delivering.thriving.returned returned
  exact ⟨succeeded, eq_content covers.describes length all⟩

/-! ### The whole download -/

omit [Inet] [Sha256] [Process] [Lz4] in
/-- The number of workers is one that `execute_workers` takes. -/
theorem transferWorkerCount_bounds (cpuCount : Int) (configured : Option Nat)
    (chunkCount : UInt64) : transferWorkerCount cpuCount configured chunkCount ≠ 0 ∧
      transferWorkerCount cpuCount configured chunkCount ≤ maxConfiguredWorkers := by
  have limited : ∀ wanted : Nat, wanted ≤ maxConfiguredWorkers →
      (if min wanted chunkCount.toNat = 0 then 1 else min wanted chunkCount.toNat) ≠ 0 ∧
        (if min wanted chunkCount.toNat = 0 then 1 else min wanted chunkCount.toNat) ≤
          maxConfiguredWorkers := by
    intro wanted most
    split
    · exact ⟨Nat.one_ne_zero, by decide⟩
    · rename_i some
      exact ⟨some, (Nat.min_le_left _ _).trans most⟩
  have default : min (if cpuCount > 0 then cpuCount.toNat else 1) 8 ≤ maxConfiguredWorkers :=
    (Nat.min_le_right _ _).trans (by decide)
  unfold transferWorkerCount
  cases configured with
  | none => exact limited _ default
  | some value =>
    refine limited _ ?_
    dsimp only
    split
    · rename_i accepted
      exact accepted.2
    · exact default

/-- A download in which no local call fails, with a destination that is not there, whose workers
have run in a swarm. -/
structure DownloadEnvironment.Unhindered (environment : DownloadEnvironment)
    (destination : Option PathName) (files : Files) (result : TransferLookupResult)
    (target : PathName) (reliance : Reliance) : Prop where
  known : environment.lookup = .ok result
  named : downloadTarget environment.directory destination result.document.name = some target
  nonempty : target ≠ []
  absent : files target = none
  free : files (partPath target) = none
  healthy : ∀ call, environment.fails call = false
  covers : reliance.Covers result
  swarmed : ∃ peers swarm,
    (∀ endpoint, reliance.reliable endpoint → reliance.Held endpoint (peers endpoint)) ∧
    Transition.Reaches (swarmStep result) (SwarmAction.Allowed result reliance)
      (.start result (transferWorkerCount environment.cpuCount environment.configured
        result.document.chunkCount) peers) swarm ∧
    (environment.run result known).pool = swarm.pool

/-- If each chunk has one peer to rely on and no local call fails, then the download returns zero
and leaves the content at its destination, whatever the other peers do, short of sending other
bytes with the digest of a piece, and in whatever order the workers and the peers take their
actions. -/
theorem download_delivers [BoundedLz4] {environment : DownloadEnvironment}
    {destination : Option PathName} {files : Files} {result : TransferLookupResult}
    {target : PathName} {reliance : Reliance}
    (unhindered : environment.Unhindered destination files result target reliance) :
    environment.fileClientDownload destination files =
      (files.set target (some reliance.content), true) := by
  have healthy := unhindered.healthy
  have known := unhindered.known
  have describes := unhindered.covers.describes
  obtain ⟨peers, swarm, held, reached, samePool⟩ := unhindered.swarmed
  obtain ⟨some, few⟩ := transferWorkerCount_bounds environment.cpuCount environment.configured
    result.document.chunkCount
  have returned := (environment.run result known).returned
  rw [samePool] at returned
  obtain ⟨succeeded, isContent⟩ := swarm_delivers unhindered.covers some few held reached returned
  rw [← samePool] at isContent
  have reaches : environment.ReachesLink destination files result target :=
    { known := known
      named := unhindered.named
      nonempty := unhindered.nonempty
      absent := unhindered.absent
      allocated := healthy _
      opened := healthy _
      free := unhindered.free
      size := by rw [describes.fileSize]; exact describes.small
      truncated := healthy _
      initialized := healthy _
      transferred := succeeded
      synced := healthy _
      hashed := healthy _
      length := by rw [isContent, describes.fileSize]
      digest := by rw [isContent, describes.id]
      linked := healthy _ }
  rw [DownloadEnvironment.fileClientDownload_of_reaches (healthy _) reaches, isContent]
  refine congrArg (Prod.mk _) (decide_eq_true ?_)
  rintro (failed | failed | failed) <;> rw [healthy] at failed <;> cases failed

end Swarm

/-! ### The letter -/

/-- The peer that has the letter. -/
def letterEndpoint : TransferEndpoint := ⟨letterSession.1.owner, [50], 2⟩

/-- The letter, with a peer before that one. -/
def letterLookup : TransferLookupResult where
  document := letterDocument
  chunks := [⟨⟨0, 0, 1, 2, letterChunk.hash⟩,
    [⟨Octets.fill nodeIdSize 3, [49], 1⟩, letterEndpoint]⟩]

/-- The second peer is relied on. -/
def letterReliance : Reliance where
  content := [65]
  client := Octets.fill nodeIdSize 5
  reliable endpoint := endpoint.nodeId = letterEndpoint.nodeId

section Letter

variable [Inet] [Sha256] [Process] [Lz4]

/-- Every peer has taken the upload of the letter. -/
def letterPeers (_ : TransferEndpoint) : PeerService := letterService.serveAll letterUpload

/-- The first peer cannot be reached, and the second one answers. -/
def letterConditions : Nat → DownloadConditions
  | 0 => ⟨.error .ehostunreach, none⟩
  | _ + 1 => ⟨rpcCallWithTransaction
      (fun request => (serveConnection (letterPeers letterEndpoint) letterSurroundings request).2)
      (chunkRequest letterReliance.client letterEndpoint (Octets.fill transactionIdSize 1)
        letterDocument.id 0), none⟩

theorem letterConditions_succ (attempt : Nat) :
    (letterConditions (attempt + 1)).response = rpcCallWithTransaction
      (fun request => (serveConnection (letterPeers letterEndpoint) letterSurroundings request).2)
      (chunkRequest letterReliance.client letterEndpoint (Octets.fill transactionIdSize 1)
        letterDocument.id 0) := rfl

/-- One worker downloads the letter. -/
def letterActions : List SwarmAction :=
  [.pool (.create none), .pool (.turn 0 letterConditions), .pool (.turn 0 letterConditions),
    .pool (.turn 0 letterConditions), .pool (.turn 0 letterConditions), .pool (.join none),
    .pool .leave]

/-- The swarm after that. -/
def letterSwarm : Option Swarm :=
  Transition.run (swarmStep letterLookup) (.start letterLookup 1 letterPeers) letterActions

end Letter

theorem covers_letter :
    letI := Sha256.reference
    letterReliance.Covers letterLookup := by
  let sha256 := Sha256.reference
  refine ⟨⟨rfl, rfl, by decide, by decide, fun index locations there => ?_⟩, by decide,
    fun index inside => ?_⟩
  · have first : index.toNat = 0 := by
      have inside := (List.getElem?_eq_some_iff.mp there).1
      exact Nat.lt_one_iff.mp inside
    rw [first] at there ⊢
    cases there
    decide +kernel
  · have first : index.toNat < 1 := UInt64.lt_iff_toNat_lt.mp inside
    rw [Nat.lt_one_iff.mp first]
    exact ⟨_, letterEndpoint, rfl, by decide, rfl⟩

theorem held_letter :
    letI := Inet.reference
    letI := Sha256.reference
    letI := Process.first
    letI := Lz4.reference
    ∀ endpoint, letterReliance.reliable endpoint →
      letterReliance.Held endpoint (letterPeers endpoint) := by
  let inet := Inet.reference
  let sha256 := Sha256.reference
  let process := Process.first
  let lz4 := Lz4.reference
  intro endpoint reliable
  have fresh : letterService.Fresh := ⟨⟨_, _, rfl⟩, rfl⟩
  have reached : Transition.Reaches peerStep PeerAction.Admissible letterService
      (letterService.serveAll letterUpload) := PeerService.serveAll_reached .refl letterUpload
  have isId : (letterService.serveAll letterUpload).id = letterService.id := id_of_reaches reached
  have keeps : (letterService.serveAll letterUpload).session.Keeps [65] := by
    have kept : ((letterService.serveAll letterUpload).session.1.find (contentSha256 [65])).any
        (fun stored => stored.state = .finished ∧
          verifyDocument ((letterService.serveAll letterUpload).session.2.chunks .objects stored.id)
            stored = .ok [65]) = true := by
      decide +kernel
    obtain ⟨stored, found, holds⟩ := (Option.any_eq_true _ _).mp kept
    obtain ⟨finished, verified⟩ := of_decide_eq_true holds
    exact ⟨stored, found, finished, verified⟩
  unfold letterPeers
  refine ⟨?_, sound_of_reaches fresh.sound reached, keeps⟩
  rw [isId]
  exact reliable.symm

theorem exchanged_letter :
    letI := Inet.reference
    letI := Sha256.reference
    letI := Process.first
    letI := Lz4.reference
    ∀ (swarm : Swarm) (index : UInt64), swarm.peers = letterPeers →
      ChunkExchanged letterLookup letterReliance swarm index letterConditions := by
  let inet := Inet.reference
  let sha256 := Sha256.reference
  let process := Process.first
  let lz4 := Lz4.reference
  intro swarm index isPeers
  have first : ∀ locations, letterLookup.chunks[index.toNat]? = some locations →
      index = 0 ∧ locations = ⟨⟨0, 0, 1, 2, letterChunk.hash⟩,
        [⟨Octets.fill nodeIdSize 3, [49], 1⟩, letterEndpoint]⟩ := by
    intro locations there
    have inside := (List.getElem?_eq_some_iff.mp there).1
    have zero : index.toNat = 0 := Nat.lt_one_iff.mp inside
    rw [zero] at there
    cases there
    exact ⟨UInt64.toNat_inj.mp zero, rfl⟩
  constructor
  · intro locations attempt endpoint there placed reliable
    obtain ⟨rfl, rfl⟩ := first locations there
    cases attempt with
    | zero =>
      cases placed
      cases reliable
    | succ attempt =>
      cases attempt with
      | zero =>
        cases placed
        rw [isPeers]
        exact ⟨rfl, _, letterSurroundings, letterConditions_succ 0⟩
      | succ attempt => cases placed
  · intro locations attempt message raw there received carries _
    obtain ⟨rfl, rfl⟩ := first locations there
    have sent : downloadedChunk letterLookup 0 letterChunk.hash (letterConditions 1).response =
        .ok (letterChunk.toTransferChunk, [65]) := by
      decide +kernel
    obtain ⟨other, response, letter⟩ := downloadedChunk_eq_ok.mp sent
    cases attempt with
    | zero => cases received
    | succ attempt =>
      rw [letterConditions_succ, ← letterConditions_succ 0, response] at received
      cases received
      exact carries.unique ⟨_, letter.decoded, letter.decompressed⟩

/-- The steps of the workers and of the caller leave the peers as they are. -/
theorem reached_of_pool_run [Inet] [Sha256] [Process] [Lz4] {lookup : TransferLookupResult}
    {reliance : Reliance} {workers : Nat} {peers : TransferEndpoint → PeerService}
    {actions : List SwarmAction} {final : Swarm}
    (permits : ∀ action ∈ actions, ∃ taken, action = .pool taken ∧
      ∀ state : Swarm, state.peers = peers → action.Allowed lookup reliance state)
    (done : Transition.run (swarmStep lookup) (.start lookup workers peers) actions = some final) :
    Transition.Reaches (swarmStep lookup) (SwarmAction.Allowed lookup reliance)
      (.start lookup workers peers) final := by
  refine Transition.Reaches.of_run_within (fun swarm => swarm.peers = peers) ?_ rfl .refl done
  intro action member state isPeers
  obtain ⟨taken, rfl, allowed⟩ := permits action member
  refine ⟨allowed state isPeers, fun next stepped => ?_⟩
  obtain ⟨pool, -, rfl⟩ := Option.map_eq_some_iff.mp stepped
  exact isPeers

/-- The worker and the caller come to their ends. -/
theorem letterSwarm_reached :
    letI := Inet.reference
    letI := Sha256.reference
    letI := Process.first
    letI := Lz4.reference
    ∃ swarm, Transition.Reaches (swarmStep letterLookup)
        (SwarmAction.Allowed letterLookup letterReliance) (.start letterLookup 1 letterPeers) swarm ∧
      swarm.pool.caller = .returned (.ok ()) := by
  let inet := Inet.reference
  let sha256 := Sha256.reference
  let process := Process.first
  let lz4 := Lz4.reference
  have succeeded : letterSwarm.any (fun swarm => swarm.pool.caller.succeeded) = true := by
    decide +kernel
  obtain ⟨swarm, done, returned⟩ := (Option.any_eq_true _ _).mp succeeded
  unfold letterSwarm at done
  refine ⟨swarm, reached_of_pool_run (fun action member => ?_) done,
    Caller.returned_of_succeeded returned⟩
  simp only [letterActions, List.mem_cons, List.not_mem_nil, or_false] at member
  rcases member with rfl | rfl | rfl | rfl | rfl | rfl | rfl
  · exact ⟨_, rfl, fun _ _ => rfl⟩
  · exact ⟨_, rfl, fun state isPeers index _ => exchanged_letter state index isPeers⟩
  · exact ⟨_, rfl, fun state isPeers index _ => exchanged_letter state index isPeers⟩
  · exact ⟨_, rfl, fun state isPeers index _ => exchanged_letter state index isPeers⟩
  · exact ⟨_, rfl, fun state isPeers index _ => exchanged_letter state index isPeers⟩
  · exact ⟨_, rfl, fun _ _ => rfl⟩
  · exact ⟨_, rfl, fun _ _ => trivial⟩

/-- The letter is downloaded from the second peer. -/
theorem download_delivers_letter :
    letI := Inet.reference
    letI := Sha256.reference
    letI := Process.first
    letI := Lz4.reference
    ∃ environment : DownloadEnvironment, environment.directory = [46] ∧
      environment.lookup = .ok letterLookup ∧
      environment.fileClientDownload none (fun _ => none) =
        (Files.set (fun _ => none) ([46, 47] ++ letterDocument.name) (some [65]), true) := by
  let inet := Inet.reference
  let sha256 := Sha256.reference
  let process := Process.first
  let lz4 := Lz4.reference
  obtain ⟨swarm, reached, returned⟩ := letterSwarm_reached
  let run : DownloadRun letterLookup 1 := ⟨swarm.pool, .ok (), pool_of_reaches reached, returned⟩
  let environment : DownloadEnvironment :=
    { directory := [46]
      lookup := .ok letterLookup
      cpuCount := 1
      configured := none
      run := fun _ same => (Except.ok.inj same) ▸ run
      fails := fun _ => false }
  have unhindered : environment.Unhindered none (fun _ => none) letterLookup
      ([46, 47] ++ letterDocument.name) letterReliance :=
    ⟨rfl, rfl, by simp, rfl, rfl, fun _ => rfl, covers_letter,
      ⟨letterPeers, swarm, held_letter, reached, rfl⟩⟩
  exact ⟨environment, rfl, rfl, download_delivers unhindered⟩

end SuperPeerNet
