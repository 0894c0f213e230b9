/-
This file proves what the success of an upload means.

An upload that returns zero has published a content of the digest of the file, whatever has
failed on the way, whatever else the peer has been sent, and although its process may have
crashed: the commit is acknowledged only when the storage has verified and published the
document. From then on the peer serves this content.
-/

import SuperPeerNet.Client.Upload
import SuperPeerNet.Storage.Crash

namespace SuperPeerNet

/-! ### The document of a file -/

/-- A byte of a list, counted from its end. -/
theorem getD_from_end {bytes : List UInt8} {back : Nat} (inside : back < bytes.length) :
    bytes.getD (bytes.length - (back + 1)) 0 = bytes.reverse.getD back 0 := by
  rw [List.getD_eq_getElem?_getD, List.getD_eq_getElem?_getD, List.getElem?_reverse inside,
    Nat.sub_sub, Nat.add_comm 1]

/-- The name of a PDF file, read from its end. -/
theorem contentPdfName_iff {path : List UInt8} : contentPdfName path = true ↔
    ∃ f d p rest, path.reverse = f :: d :: p :: 46 :: rest ∧ toLower p = 112 ∧ toLower d = 100 ∧
      toLower f = 102 := by
  unfold contentPdfName
  simp only [Bool.and_eq_true, decide_eq_true_eq, beq_iff_eq]
  constructor
  · rintro ⟨⟨⟨⟨long, dot⟩, isP⟩, isD⟩, isF⟩
    rw [getD_from_end (by omega)] at dot isP isD isF
    have length := path.length_reverse
    generalize path.reverse = bytes at *
    rcases bytes with _ | ⟨f, _ | ⟨d, _ | ⟨p, _ | ⟨separator, rest⟩⟩⟩⟩
    · exact absurd length (by simp only [List.length_nil]; omega)
    · exact absurd length (by simp only [List.length_cons, List.length_nil]; omega)
    · exact absurd length (by simp only [List.length_cons, List.length_nil]; omega)
    · exact absurd length (by simp only [List.length_cons, List.length_nil]; omega)
    · obtain rfl : separator = 46 := dot
      exact ⟨f, d, p, rest, rfl, isP, isD, isF⟩
  · rintro ⟨f, d, p, rest, isEnd, isP, isD, isF⟩
    have length := path.length_reverse
    rw [isEnd] at length
    simp only [List.length_cons] at length
    rw [getD_from_end (by omega), getD_from_end (by omega), getD_from_end (by omega),
      getD_from_end (by omega), isEnd]
    exact ⟨⟨⟨⟨by omega, rfl⟩, isP⟩, isD⟩, isF⟩

/-- A separator is not a letter. -/
theorem ne_slash_of_toLower {byte letter : UInt8} (same : toLower byte = letter)
    (other : letter ≠ 47) : byte ≠ 47 := by
  rintro rfl
  exact other same.symm

/-- The base name of a PDF file is the name of a PDF file. -/
theorem contentPdfName_basename {path name : List UInt8} (pdf : contentPdfName path = true)
    (isName : contentBasename path = some name) : contentPdfName name = true := by
  obtain ⟨f, d, p, rest, isEnd, isP, isD, isF⟩ := contentPdfName_iff.mp pdf
  have letterF := ne_slash_of_toLower isF (by decide)
  have letterD := ne_slash_of_toLower isD (by decide)
  have letterP := ne_slash_of_toLower isP (by decide)
  unfold contentBasename at isName
  dsimp only at isName
  split at isName
  · cases isName
  · cases isName
    refine contentPdfName_iff.mpr ⟨f, d, p, rest.takeWhile fun byte => byte ≠ 47, ?_, isP, isD, isF⟩
    rw [List.reverse_reverse, isEnd]
    simp [letterF, letterD, letterP]

/-- The document of a file describes its bytes. -/
theorem describes_uploadedDocument [Sha256] {path : PathName} {content : List UInt8}
    {document : TransferDocument} (made : uploadedDocument path (.ok content) = .ok document) :
    document.Describes content := by
  unfold uploadedDocument at made
  split at made
  · cases made
  · rename_i pdf
    rw [Bool.not_eq_false] at pdf
    dsimp only at made
    split at made
    · cases made
    · rename_i small
      cases isName : contentBasename path with
      | none =>
        rw [isName] at made
        cases made
      | some name =>
        rw [isName] at made
        dsimp only at made
        split at made
        · cases made
        · split at made
          · cases made
          · cases made
            refine ⟨rfl, contentPdfName_basename pdf isName, ?_, rfl, rfl⟩
            exact UInt64.toNat_ofNat_of_lt' (Nat.lt_of_not_le small)

/-! ### Calls -/

section Uploaded

variable [Inet] [Sha256] [Process] [Lz4]

/-- A call does to the peer what serving a message can do. -/
theorem PeerService.served_call (service : PeerService)
    (rpc : (Message → Option Message) → Message → Except Errno Message) (fate : CallFate)
    (request : Message) : service.Served (service.call rpc fate request).1 := by
  have quiet : service.Served service := .beat service.heartbeat
  unfold PeerService.call
  split
  · exact quiet
  · cases fate with
    | lost code => exact quiet
    | unanswered surroundings code => exact served_serveConnection service surroundings request
    | answered surroundings => exact served_serveConnection service surroundings request

omit [Inet] [Sha256] [Process] [Lz4] in
theorem requestExpect_ok {response : Except Errno Message} {expected : MessageType}
    {message : Message} (done : requestExpect response expected = .ok message) :
    response = .ok message ∧ message.messageType = expected := by
  unfold requestExpect at done
  split at done
  · cases done
  · split at done
    · rename_i kind
      cases done
      exact ⟨rfl, kind⟩
    · split at done <;> cases done

omit [Inet] [Sha256] [Process] [Lz4] in
/-- What a call returns has been sent. -/
theorem rpcCallWithTransaction_ok {serve : Message → Option Message} {request response : Message}
    (done : rpcCallWithTransaction serve request = .ok response) :
    serve request = some response := by
  unfold rpcCallWithTransaction at done
  split at done
  · cases done
  · split at done
    · cases done
    · rename_i sent
      split at done
      · cases done
      · cases done
        exact sent

/-- A `STORE` is refused, or `handle_store` decides on it. -/
theorem serveConnection_store (service : PeerService) (surroundings : PeerSurroundings)
    {message : Message} (kind : message.messageType = .store) :
    serveConnection service surroundings message =
        (service, sendResponse service message (.error .eacces)) ∨
      serveConnection service surroundings message =
        handleStore service surroundings message := by
  unfold serveConnection
  split
  · exact Or.inl rfl
  · right
    rw [kind]

omit [Inet] [Sha256] [Process] [Lz4] in
/-- An acknowledgement has been sent for an outcome without an error. -/
theorem sendResponse_ack {service : PeerService} {request reply : Message}
    {outcome : Except Errno (MessageType × List UInt8)}
    (sent : sendResponse service request outcome = some reply)
    (kind : reply.messageType = .ack) : ∃ answered, outcome = .ok answered := by
  obtain ⟨rfl, -⟩ := answer_eq_some sent
  cases outcome with
  | error code => cases kind
  | ok answered => exact ⟨answered, rfl⟩

/-- What is acknowledged has been accepted. -/
theorem PeerService.call_acknowledged {service : PeerService} {fate : CallFate}
    {client destination : NodeID} {transaction : TransactionId} {payload : List UInt8}
    {reply : Message}
    (acknowledged : requestExpect (service.call rpcCallWithTransaction fate
      (storeRequest client destination transaction payload)).2 .ack = .ok reply) :
    ∃ surroundings, (service.call rpcCallWithTransaction fate
        (storeRequest client destination transaction payload)).1 =
          (storeStatus service surroundings payload).1 ∧
      (storeStatus service surroundings payload).2 = .ok () := by
  obtain ⟨response, kind⟩ := requestExpect_ok acknowledged
  unfold PeerService.call at response ⊢
  split at response
  · cases response
  · rename_i small
    rw [if_neg small]
    cases fate with
    | lost code => cases response
    | unanswered surroundings code => cases response
    | answered surroundings =>
      dsimp only at response ⊢
      have sent := rpcCallWithTransaction_ok response
      refine ⟨surroundings, ?_⟩
      have isStore : (storeRequest client destination transaction payload).messageType = .store :=
        rfl
      rcases serveConnection_store service surroundings isStore with refused | handled
      · rw [refused] at sent
        dsimp only at sent
        obtain ⟨answered, wrong⟩ := sendResponse_ack sent kind
        cases wrong
      · rw [handled] at sent ⊢
        refine ⟨rfl, ?_⟩
        obtain ⟨answered, accepted⟩ := sendResponse_ack sent kind
        change (storeStatus service surroundings payload).2.map _ = _ at accepted
        cases status : (storeStatus service surroundings payload).2 with
        | error code =>
          rw [status] at accepted
          cases accepted
        | ok done => rfl

/-! ### Commits -/

omit [Inet] [Sha256] [Process] [Lz4] in
theorem transferDecodeObjectOperation_bytes (operation : UInt8) (id : ObjectID) :
    transferDecodeObjectOperation (transferEncodeObjectOperation operation id) operation =
      .ok id := by
  have size : (transferEncodeObjectOperation operation id).length = 1 + objectIdSize := by
    rw [transferEncodeObjectOperation, List.length_cons, Octets.length_toList, Nat.add_comm]
  have first : (transferEncodeObjectOperation operation id).getD 0 0 = operation := rfl
  have rest : (transferEncodeObjectOperation operation id).drop 1 = id.toList := rfl
  unfold transferDecodeObjectOperation
  rw [size, first, if_neg (by rw [not_or, not_not, not_not]; exact ⟨rfl, rfl⟩), rest,
    Octets.read_toList]

omit [Inet] [Process] in
/-- The branch of `handle_store` for a commit. -/
theorem storeStatus_commit (service : PeerService) (surroundings : PeerSurroundings)
    (id : ObjectID) :
    storeStatus service surroundings (transferEncodeObjectOperation transferStoreCommit id) =
      ((service.withSession
        ((storageCommit service.session.1 service.session.2 id).run service.session.2).1),
      ((storageCommit service.session.1 service.session.2 id).run service.session.2).2.bind
        (announceDocument (service.withSession
          ((storageCommit service.session.1 service.session.2 id).run service.session.2).1)
            surroundings)) := by
  have operation : (transferEncodeObjectOperation transferStoreCommit id).getD 0 0 =
      transferStoreCommit := rfl
  have some : transferEncodeObjectOperation transferStoreCommit id ≠ [] := List.cons_ne_nil _ _
  unfold storeStatus
  rw [if_neg some, operation]
  dsimp only
  rw [if_neg (by decide), if_neg (by decide), if_pos rfl, transferDecodeObjectOperation_bytes]
  dsimp only
  cases ((storageCommit service.session.1 service.session.2 id).run service.session.2).2 <;> rfl

omit [Inet] [Sha256] [Process] [Lz4] in
/-- A call that succeeds has taken all its steps. -/
theorem Call.answer_of_run {Answer : Type} {call : Call Answer} {disk : Disk} {answer : Answer}
    (answered : (call.run disk).2 = .ok answer) :
    call.answer = .ok answer ∧ (call.run disk).1.1 = call.completed := by
  unfold Call.run at *
  split at answered
  · exact ⟨answered, rfl⟩
  · cases answered

omit [Inet] [Process] in
/-- A commit that is answered with a document has published it. -/
theorem PeerService.Sound.committed {service : PeerService} (sound : service.Sound)
    {id : ObjectID} {document : TransferDocument}
    (answered : ((storageCommit service.session.1 service.session.2 id).run
      service.session.2).2 = .ok document) :
    ∃ content, contentSha256 content = id ∧
      Session.Keeps ((storageCommit service.session.1 service.session.2 id).run service.session.2).1
        content := by
  obtain ⟨planned, completed⟩ := Call.answer_of_run answered
  have accepted : ((StorageCall.commit id).plan service.session).answer = .ok () := by
    show (storageCommit service.session.1 service.session.2 id).answer.map _ = _
    rw [planned]
    rfl
  obtain ⟨stored, found, finished⟩ := StorageCall.honoured_of_answer accepted
  have admits : (StorageCall.commit id).Admits := trivial
  have settled := (sound.settled.call admits).1
  rw [run_commit_plan] at settled
  refine settled.keeps ?_ finished
  rw [completed]
  exact found

/-! ### Runs -/

omit [Inet] [Sha256] [Process] [Lz4] in
theorem world_fail {World : Type} (work : Work World) (error : Option Errno) :
    (work.fail error).world = work.world := by
  unfold Work.fail
  split <;> rfl

omit [Inet] [Sha256] [Process] [Lz4] in
/-- What a pool does to its world is what its chunks do. -/
theorem ChunkTask.worker_world {Conditions World : Type} {task : ChunkTask Conditions World}
    {work after : Work World} {conditions : Conditions} {worker later : Worker}
    (turn : task.worker work conditions worker = some (after, later)) :
    after.world = work.world ∨
      ∃ index, after.world = (task.chunk index conditions work.world).1 := by
  unfold ChunkTask.worker at turn
  cases worker with
  | ready =>
    dsimp only at turn
    split at turn <;> cases turn <;> exact Or.inl rfl
  | started index =>
    cases turn
    exact Or.inl rfl
  | transferring index =>
    refine Or.inr ⟨index, ?_⟩
    dsimp only at turn
    split at turn
    · rename_i world size outcome
      cases turn
      rw [outcome]
    · rename_i world error outcome
      cases turn
      rw [outcome]
      exact world_fail _ error
  | exited => cases turn

omit [Inet] [Sha256] [Process] [Lz4] in
theorem ChunkTask.pool_world {Conditions World : Type} {task : ChunkTask Conditions World}
    {pool next : Pool World} {action : PoolAction Conditions}
    (stepped : task.pool pool action = some next) : next.work.world = pool.work.world ∨
      ∃ index conditions,
        next.work.world = (task.chunk index conditions pool.work.world).1 := by
  unfold ChunkTask.pool at stepped
  cases action with
  | create error =>
    dsimp only at stepped
    split at stepped
    · split at stepped
      · cases stepped
        exact Or.inl (world_fail _ _)
      · cases stepped
        exact Or.inl rfl
    · cases stepped
  | join error =>
    dsimp only at stepped
    split at stepped
    · split at stepped
      · split at stepped
        · cases stepped
          exact Or.inl (world_fail _ _)
        · split at stepped
          · cases stepped
            exact Or.inl rfl
          · cases stepped
      · cases stepped
    · cases stepped
  | leave =>
    dsimp only at stepped
    split at stepped
    · split at stepped
      · cases stepped
      · cases stepped
        exact Or.inl rfl
    · cases stepped
  | turn position conditions =>
    dsimp only at stepped
    split at stepped
    · cases stepped
    · obtain ⟨⟨after, later⟩, turn, rfl⟩ := Option.map_eq_some_iff.mp stepped
      rcases ChunkTask.worker_world turn with same | ⟨index, changed⟩
      · exact Or.inl same
      · exact Or.inr ⟨index, conditions, changed⟩

/-- The peer takes its own actions at any time. The actions of the client can do whatever their
arguments say. -/
def UploadAction.Admissible (upload : Upload) : UploadAction → Prop
  | .peer action => action.Admissible upload.service
  | _ => True

/-- What has been published when the upload has returned zero. -/
def Upload.Published (id : ObjectID) : Upload → Prop
  | .returned service (.ok _) =>
    ∃ content, contentSha256 content = id ∧ service.session.Keeps content
  | _ => True

/-- The invariant of uploads. -/
structure Upload.Sound (id : ObjectID) (upload : Upload) : Prop where
  service : upload.service.Sound
  published : upload.Published id

omit [Inet] [Sha256] [Process] [Lz4] in
theorem Upload.service_withService (upload : Upload) (service : PeerService) :
    (upload.withService service).service = service := by
  cases upload <;> rfl

/-- A chunk does to the peer what serving a message can do. -/
theorem served_sendChunk (client destination : NodeID) (document : TransferDocument)
    (index : UInt64) (conditions : SendConditions) (service : PeerService) :
    service.Served (sendChunk client destination document index conditions service).1 := by
  unfold sendChunk
  split
  · exact .beat service.heartbeat
  · exact service.served_call ..

/-- So does the begin. -/
theorem served_beginCall (setting : UploadSetting) (service : PeerService) (destination : NodeID)
    (transaction : TransactionId) (fate : CallFate) :
    service.Served (beginCall setting service destination transaction fate).1 := by
  unfold beginCall
  split
  · exact .beat service.heartbeat
  · exact service.served_call ..

/-- A commit that is acknowledged has published a content. -/
theorem commitCall_published {setting : UploadSetting} {service : PeerService}
    (sound : service.Sound) {destination : NodeID} {transaction : TransactionId} {fate : CallFate}
    {reply : Message}
    (acknowledged : (commitCall setting service destination transaction fate).2 = .ok reply) :
    ∃ content, contentSha256 content = setting.document.id ∧
      (commitCall setting service destination transaction fate).1.session.Keeps content := by
  unfold commitCall at acknowledged ⊢
  dsimp only at acknowledged ⊢
  obtain ⟨surroundings, after, accepted⟩ := PeerService.call_acknowledged acknowledged
  rw [storeStatus_commit] at after accepted
  rw [after]
  cases answered : ((storageCommit service.session.1 service.session.2 setting.document.id).run
      service.session.2).2 with
  | error code =>
    rw [answered] at accepted
    cases accepted
  | ok document => exact sound.committed answered

/-- A step keeps the invariant. -/
theorem Upload.Sound.step {setting : UploadSetting} {upload next : Upload}
    (sound : upload.Sound setting.document.id) {action : UploadAction}
    (admissible : action.Admissible upload)
    (stepped : uploadStep setting upload action = some next) :
    next.Sound setting.document.id := by
  cases action with
  | peer action =>
    obtain ⟨service, taken, rfl⟩ := Option.map_eq_some_iff.mp stepped
    have after := sound.service.step admissible taken
    have reached : Transition.Reaches peerStep PeerAction.Admissible upload.service service :=
      Transition.Reaches.refl.tail action admissible taken
    refine ⟨by rwa [upload.service_withService], ?_⟩
    have published := sound.published
    have before := sound.service.settled
    cases upload with
    | returned old outcome =>
      -- What has been published stays published, also through a crash.
      cases outcome with
      | error error => trivial
      | ok hashes =>
        obtain ⟨content, isId, keeps⟩ := published
        exact ⟨content, isId, keeps.reaches before (session_of_reaches reached)⟩
    | _ => trivial
  | discover transaction fate =>
    unfold uploadStep at stepped
    dsimp only at stepped
    split at stepped
    · rename_i service
      have after := sound.service.served (service.served_call rpcCallAnyone fate
        (discoverRequest setting.client transaction))
      split at stepped <;> cases stepped <;> exact ⟨after, trivial⟩
    · cases stepped
  | begin transaction fate =>
    unfold uploadStep at stepped
    dsimp only at stepped
    split at stepped
    · rename_i service destination
      have after := sound.service.served
        (served_beginCall setting service destination transaction fate)
      split at stepped <;> cases stepped <;> exact ⟨after, trivial⟩
    · cases stepped
  | pool action =>
    unfold uploadStep at stepped
    dsimp only at stepped
    split at stepped
    · rename_i destination pool
      obtain ⟨later, taken, rfl⟩ := Option.map_eq_some_iff.mp stepped
      refine ⟨?_, trivial⟩
      show later.work.world.2.Sound
      rcases ChunkTask.pool_world taken with same | ⟨index, conditions, changed⟩
      · rw [same]
        exact sound.service
      · rw [changed]
        exact sound.service.served (served_sendChunk ..)
    · cases stepped
  | settle =>
    unfold uploadStep at stepped
    dsimp only at stepped
    split at stepped
    · split at stepped
      · cases stepped
        exact ⟨sound.service, trivial⟩
      · cases stepped
        exact ⟨sound.service, trivial⟩
      · cases stepped
    · cases stepped
  | commit transaction fate =>
    unfold uploadStep at stepped
    dsimp only at stepped
    split at stepped
    · rename_i service destination hashes
      have after := sound.service.served (service.served_call rpcCallWithTransaction fate
        (storeRequest setting.client destination transaction
          (transferEncodeObjectOperation transferStoreCommit setting.document.id)))
      split at stepped
      · cases stepped
        exact ⟨after, trivial⟩
      · rename_i reply acknowledged
        cases stepped
        exact ⟨after, commitCall_published sound.service acknowledged⟩
    · cases stepped

/-- When an upload of a file returns zero, in any run of the client and of a peer that has started
on an empty tree, then there is a content of the digest of the file whose chunks, and nothing
else, the peer serves from then on, in every state that it reaches. -/
theorem upload_acknowledged [BoundedLz4] {setting : UploadSetting} {path : PathName}
    {file : List UInt8} (made : uploadedDocument path (.ok file) = .ok setting.document)
    {start service : PeerService} (fresh : start.Fresh) {hashes : List (Octets objectIdSize)}
    (reached : Transition.Reaches (uploadStep setting) UploadAction.Admissible (.created start)
      (.returned service (.ok hashes))) :
    ∃ content, contentSha256 content = contentSha256 file ∧
      ∀ later, Transition.Reaches peerStep PeerAction.Admissible service later →
        later.Serves content := by
  have initial : (Upload.created start).Sound setting.document.id := ⟨fresh.sound, trivial⟩
  have sound := reached.invariant initial fun _ _ _ before admissible stepped =>
    before.step admissible stepped
  obtain ⟨content, isId, keeps⟩ := sound.published
  refine ⟨content, isId.trans (describes_uploadedDocument made).id, fun later after => ?_⟩
  exact (sound_of_reaches sound.service after).serves
    (keeps.reaches sound.service.settled (session_of_reaches after))

end Uploaded

/-! ### The letter -/

/-- Whether the upload has returned zero. -/
def Upload.succeeded : Upload → Bool
  | .returned _ (.ok _) => true
  | _ => false

theorem Upload.returned_of_succeeded {upload : Upload} (succeeded : upload.succeeded = true) :
    ∃ service hashes, upload = .returned service (.ok hashes) := by
  unfold Upload.succeeded at succeeded
  split at succeeded
  · exact ⟨_, _, rfl⟩
  · cases succeeded

/-- One worker uploads the letter. -/
def letterSetting : UploadSetting := ⟨Octets.fill nodeIdSize 5, letterDocument, 1⟩

/-- Every call is answered. -/
def letterFate : CallFate := .answered letterSurroundings

/-- What sending the one chunk meets. -/
def letterSend : SendConditions :=
  ⟨.ok [65], .ok letterChunk.data, Octets.fill transactionIdSize 3, letterFate⟩

/-- The steps of the client. -/
def letterSteps : List UploadAction :=
  [.discover (Octets.fill transactionIdSize 1) letterFate,
    .begin (Octets.fill transactionIdSize 2) letterFate, .pool (.create none),
    .pool (.turn 0 letterSend), .pool (.turn 0 letterSend), .pool (.turn 0 letterSend),
    .pool (.turn 0 letterSend), .pool (.join none), .pool .leave, .settle,
    .commit (Octets.fill transactionIdSize 4) letterFate]

/-- No step of the client needs a permission. -/
theorem admissible_letterSteps [Inet] [Sha256] [Process] [Lz4] {action : UploadAction}
    (member : action ∈ letterSteps) (upload : Upload) : action.Admissible upload := by
  simp only [letterSteps, List.mem_cons, List.not_mem_nil, or_false] at member
  rcases member with rfl | rfl | rfl | rfl | rfl | rfl | rfl | rfl | rfl | rfl | rfl <;> trivial

/-- The letter is uploaded, and from then on the peer serves it. -/
theorem upload_acknowledged_letter :
    letI := Inet.reference
    letI := Sha256.reference
    letI := Process.first
    letI := Lz4.reference
    ∃ service hashes, Transition.Reaches (uploadStep letterSetting) UploadAction.Admissible
        (.created letterService) (.returned service (.ok hashes)) ∧
      ∃ content, contentSha256 content = contentSha256 [65] ∧
        ∀ later, Transition.Reaches peerStep PeerAction.Admissible service later →
          later.Serves content := by
  let inet := Inet.reference
  let sha256 := Sha256.reference
  let process := Process.first
  let lz4 := Lz4.reference
  have fresh : letterService.Fresh := ⟨⟨_, _, rfl⟩, rfl⟩
  have made : uploadedDocument letterDocument.name (.ok [65]) = .ok letterSetting.document := by
    decide +kernel
  have succeeded : (Transition.run (uploadStep letterSetting) (.created letterService)
      letterSteps).any Upload.succeeded = true := by
    decide +kernel
  obtain ⟨upload, done, returned⟩ := (Option.any_eq_true _ _).mp succeeded
  obtain ⟨service, hashes, rfl⟩ := Upload.returned_of_succeeded returned
  have reached : Transition.Reaches (uploadStep letterSetting) UploadAction.Admissible
      (.created letterService) (.returned service (.ok hashes)) :=
    Transition.Reaches.of_run_within (fun _ => True)
      (fun action member upload _ => ⟨admissible_letterSteps member upload, fun _ _ => trivial⟩)
      trivial .refl done
  exact ⟨service, hashes, reached, upload_acknowledged made fresh reached⟩

end SuperPeerNet
