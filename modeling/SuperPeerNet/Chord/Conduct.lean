/-
This file shows that the nodes of a ring behave: whatever they ask and answer each other, and
whatever they write, respects what the pointers of the ring satisfy.

The ring grows when a node has joined it. The logic says what holds of the nodes of the ring and
of those that have not joined yet, and which answers a node of the ring gives; the code of a task
is followed from call to call, and at each of them the ring may have grown.
-/

import SuperPeerNet.Chord.Pointers

namespace SuperPeerNet

open Dialogue (Safe)

section Conduct

variable [Inet] [Sha256] [Process]

/-! ### The system and its logic -/

omit [Inet] [Sha256] [Process] in
/-- A node is in the ring when it has joined successfully. -/
def chordExtend (ring : Set NodeID) (site : NodeID) (task : ChordTask) (result : ChordResult) :
    Set NodeID :=
  match task, result with
  | .join _, .ok _ => insert site ring
  | _, _ => ring

/-- The nodes of the ring and their tasks. -/
def chordSystem : Dialogue.System Chord NodeID Message (Except Errno Message) ChordResult ChordTask
    (Set NodeID) where
  handle := chordServe
  program := ChordTask.program
  extend := chordExtend

variable (configs : NodeID → NodeConfig) (anchors population : Set NodeID)

/-- What a node of the ring answers to a request. -/
inductive Answers (ring : Set NodeID) (request : Message) :
    Except Errno (MessageType × List UInt8) → Prop
  | refused (code : Errno) : Answers ring request (.error code)
  | info {peer : ChordPeer} (member : Member configs ring peer) :
      Answers ring request (.ok (.chordInfo, joinBytes peer.config))
  | route {peer : ChordPeer} {complete : Bool} (member : Member configs ring peer)
      (fits : complete = true → Fits anchors (Octets.read nodeIdSize request.payload) peer) :
      Answers ring request (.ok (.chordRoute, (if complete then 1 else 0) :: joinBytes peer.config))
  | alone : Answers ring request (.ok (.chordPredecessor, []))
  | predecessor {peer : ChordPeer} (member : Member configs ring peer) :
      Answers ring request (.ok (.chordPredecessor, joinBytes peer.config))
  | finger {peer : ChordPeer} (member : Member configs ring peer) :
      Answers ring request (.ok (.chordFinger, joinBytes peer.config))
  | notified : Answers ring request (.ok (.ack, []))

/-- What a caller may get back: a failure, or what a node of the ring has sent. -/
def Replied (ring : Set NodeID) (site : NodeID) (request : Message) :
    Except Errno Message → Prop
  | .error _ => True
  | .ok response => ∃ outcome, response = sendReply site request outcome ∧
      Answers configs anchors ring request outcome

/-- What a lookup may find. -/
def Found (ring : Set NodeID) (key : NodeID) : Except Errno ChordPeer → Prop
  | .error _ => True
  | .ok peer => Member configs ring peer ∧ Fits anchors key peer

/-- How the nodes of a ring behave. -/
def chordLogic : Dialogue.Logic Chord NodeID Message (Except Errno Message) ChordResult ChordTask
    (Set NodeID) where
  holds ring site chord := (site ∈ ring → Pointers configs anchors ring site chord) ∧
    (site ∈ population → site ∉ ring → Fresh configs site chord)
  moves ring site before after := site ∈ ring → Advances anchors site before after
  asks ring site request := site ∈ ring ∧ (request.messageType = .chordNotify →
    ∃ peer, Member configs ring peer ∧ request.sourceNode = peer.id ∧
      request.payload = joinBytes peer.config)
  admits := Replied configs anchors
  live ring site task := anchors ⊆ ring ∧ ring ⊆ population ∧ match task with
    | .join bootstrap => site ∈ population ∧ site ∉ ring ∧ bootstrap ∈ ring
    | _ => site ∈ ring
  returns ring _ task result := match task, result with
    | .find key, .ok found => ∃ peer, found = some peer ∧ Member configs ring peer ∧
        Fits anchors key peer
    | _, _ => True

/-- The calls that fail. -/
def CallFails (answer : Except Errno Message) : Prop := ∃ code, answer = .error code

variable {configs anchors population} {ring later : Set NodeID} {home site : NodeID}
  {chord : Chord} {task : ChordTask}

/-! ### Serving -/

theorem Pointers.handle [NormalizingInet] (pointers : Pointers configs anchors ring site chord)
    {request : Message} (asked : (chordLogic configs anchors population).asks ring site request) :
    Pointers configs anchors ring site (chordNetworkHandle chord request).1 ∧
      Advances anchors site chord (chordNetworkHandle chord request).1 ∧
      Answers configs anchors ring request (chordNetworkHandle chord request).2 := by
  have still : Advances anchors site chord chord := Advances.refl site chord
  by_cases kind : request.messageType = .chordNotify
  · obtain ⟨peer, member, source, payload⟩ := asked.2 kind
    obtain ⟨kept, advanced⟩ := pointers.notify member
    have accepted : (chordNotify chord peer).2 = .ok () := by
      rw [chordNotify, accepting_of_member pointers.available member]
    rw [chordNetworkHandle_notify member.usable chord kind source payload, accepted]
    exact ⟨kept, advanced, .notified⟩
  unfold chordNetworkHandle
  simp only
  split
  · split
    · rw [encodePeer_of_usable pointers.self.usable]
      exact ⟨pointers, still, .info pointers.self⟩
    · exact ⟨pointers, still, .refused _⟩
  · split
    · obtain ⟨member, fits⟩ := pointers.route (Octets.read nodeIdSize request.payload)
      rw [encodePeer_of_usable member.usable]
      exact ⟨pointers, still, .route member fits⟩
    · exact ⟨pointers, still, .refused _⟩
  · split
    · split
      · exact ⟨pointers, still, .alone⟩
      · rename_i peer known
        have member := (pointers.predecessor peer known).1
        rw [encodePeer_of_usable member.usable]
        exact ⟨pointers, still, .predecessor member⟩
    · exact ⟨pointers, still, .refused _⟩
  · rename_i notify
    exact absurd notify kind
  · split
    · have member := pointers.fingers ⟨(request.payload.getD 0 0).toNat,
        (request.payload.getD 0 0).toNat_lt⟩
      rw [encodePeer_of_usable member.usable]
      exact ⟨pointers, still, .finger member⟩
    · exact ⟨pointers, still, .refused _⟩
  · exact ⟨pointers, still, .refused _⟩

/-- The nodes of the ring respect the logic when they serve. -/
theorem chordSystem_sound [NormalizingInet] :
    Dialogue.Sound chordSystem (chordLogic configs anchors population) CallFails where
  handles := by
    intro ring site chord request held asked
    have pointers := held.1 asked.1
    obtain ⟨kept, advanced, answers⟩ := pointers.handle asked
    refine ⟨fun _ => advanced, ⟨fun _ => kept, fun _ outside => absurd asked.1 outside⟩, _, ?_,
      answers⟩
    simp only [pointers.here]
  failing := by
    rintro ring site request _ ⟨code, rfl⟩
    trivial
  lasting := by
    intro ring later site request grown asked
    refine ⟨grown asked.1, fun kind => ?_⟩
    obtain ⟨peer, member, named⟩ := asked.2 kind
    exact ⟨peer, member.mono grown, named⟩

/-! ### Reading answers -/

section Reading

variable {request response : Message}

omit [Process] in
/-- What `rpc_call` refuses is a failure. -/
theorem Replied.check {source destination : Option NodeID} {checked : Message}
    {answer : Except Errno Message} (replied : Replied configs anchors ring site request answer) :
    Replied configs anchors ring site request (rpcCheck source destination checked answer) := by
  unfold rpcCheck
  split
  · trivial
  · split
    · trivial
    · split
      · trivial
      · exact replied

theorem Replied.route [NormalizingInet]
    (replied : Replied configs anchors ring site request (.ok response))
    {hop : ChordPeer × Bool} (read : routeAnswer response = some hop) :
    Member configs ring hop.1 ∧
      (hop.2 = true → Fits anchors (Octets.read nodeIdSize request.payload) hop.1) := by
  obtain ⟨outcome, rfl, answers⟩ := replied
  cases answers with
  | @route peer complete member fits =>
    rw [routeAnswer_sendReply member.usable] at read
    cases read
    exact ⟨member, fits⟩
  | _ => exact absurd read (by simp [routeAnswer, sendReply])

theorem Replied.info [NormalizingInet]
    (replied : Replied configs anchors ring site request (.ok response))
    (kind : response.messageType = .chordInfo) {peer : ChordPeer}
    (read : decodePeer response.payload = .ok peer) : Member configs ring peer := by
  obtain ⟨outcome, rfl, answers⟩ := replied
  cases answers with
  | @info other member =>
    simp only [sendReply, decodePeer_of_usable member.usable] at read
    cases read
    exact member
  | _ => cases kind

theorem Replied.predecessor [NormalizingInet]
    (replied : Replied configs anchors ring site request (.ok response))
    (kind : response.messageType = .chordPredecessor) (known : response.payload ≠ [])
    {peer : ChordPeer} (read : decodePeer response.payload = .ok peer) :
    Member configs ring peer := by
  obtain ⟨outcome, rfl, answers⟩ := replied
  cases answers with
  | @predecessor other member =>
    simp only [sendReply, decodePeer_of_usable member.usable] at read
    cases read
    exact member
  | alone => exact absurd rfl known
  | _ => cases kind

end Reading

/-! ### Calling -/

omit [Process] in
theorem live_population (live : (chordLogic configs anchors population).live ring home task) :
    home ∈ population := by
  obtain ⟨-, inside, still⟩ := live
  cases task with
  | join bootstrap => exact still.1
  | find key => exact inside still
  | maintain index => exact inside still

variable (configs anchors population) in
/-- The code of a task that respects the logic from a ring on. -/
abbrev SafeTask (home : NodeID) (task : ChordTask) (ring : Set NodeID)
    (dialogue : ChordDialogue ChordResult) : Prop :=
  Safe chordSystem (chordLogic configs anchors population) home task ring dialogue

variable {localPeer : ChordPeer} {key : NodeID}

/-- A step that only reads the pointers. -/
theorem safe_read {next : Chord → ChordDialogue ChordResult}
    (goesOn : ∀ later, ring ⊆ later →
      (chordLogic configs anchors population).live later home task → ∀ chord,
      (chordLogic configs anchors population).holds later home chord →
      SafeTask configs anchors population home task later (next chord)) :
    SafeTask configs anchors population home task ring (.act id next) :=
  fun later grown live chord held =>
    ⟨fun _ => Advances.refl home chord, held, goesOn later grown live chord held⟩

/-- A call. -/
theorem safe_rpcCall {source destination : Option NodeID} {kind : MessageType}
    {payload : List UInt8} {next : Except Errno Message → ChordDialogue ChordResult}
    (asked : ∀ later, ring ⊆ later →
      (chordLogic configs anchors population).live later home task →
      (chordLogic configs anchors population).asks later site
        (rpcRequest source destination kind payload))
    (goesOn : ∀ later, ring ⊆ later → ∀ answer,
      Replied configs anchors later site (rpcRequest source destination kind payload) answer →
      SafeTask configs anchors population home task later (next answer)) :
    SafeTask configs anchors population home task ring
      (rpcCall site source destination kind payload next) :=
  fun later grown live =>
    ⟨asked later grown live, fun _ replied => goesOn later grown _ replied.check⟩

/-- A call of a node of the ring that does not write. -/
theorem safe_callPeer {target : ChordPeer} (member : Member configs ring target)
    {kind : MessageType} (reads : kind ≠ .chordNotify) {payload : List UInt8}
    {next : Except Errno Message → ChordDialogue ChordResult}
    (goesOn : ∀ later, ring ⊆ later → ∀ answer,
      Replied configs anchors later target.id
        (rpcRequest (some localPeer.id) (some target.id) kind payload) answer →
      SafeTask configs anchors population home task later (next answer)) :
    SafeTask configs anchors population home task ring
      (callPeer localPeer target kind payload next) :=
  safe_rpcCall (fun _ grown _ => ⟨grown member.inside, fun notify => absurd notify reads⟩) goesOn

/-- The search for another hop among the fingers of a node. -/
theorem safe_alternativeFinger (own : localPeer.id = home) {visited : List NodeID}
    {next : Option ChordPeer → ChordDialogue ChordResult}
    (goesOn : ∀ later, ring ⊆ later → ∀ found, (∀ finger ∈ found, Member configs later finger) →
      SafeTask configs anchors population home task later (next found))
    (count : Nat) (inside : count ≤ chordFingerCount) :
    SafeTask configs anchors population home task ring
      (alternativeFinger localPeer visited next count inside) := by
  induction count generalizing ring with
  | zero => exact goesOn ring le_rfl none nofun
  | succ index inductionHypothesis =>
    refine safe_read fun later grown live chord held => ?_
    have again := inductionHypothesis
      (fun last after => goesOn last (grown.trans after)) (Nat.le_of_lt inside)
    dsimp only
    split
    · exact again
    · rename_i usable
      refine goesOn later grown _ fun finger named => ?_
      cases named
      by_cases joined : home ∈ later
      · exact (held.1 joined).fingers _
      · -- the fingers of a node outside the ring are the node itself
        have fresh := held.2 (live_population live) joined
        exact absurd (Or.inl (by rw [fresh.fingers, fresh.here, own])) usable

/-- What `find_from` does with a route. -/
theorem safe_followRoute {current : ChordPeer} {hop : ChordPeer × Bool}
    {again : ChordPeer → ChordDialogue ChordResult}
    {next : Except Errno ChordPeer → ChordDialogue ChordResult}
    (member : Member configs ring hop.1) (fits : hop.2 = true → Fits anchors key hop.1)
    (goesBack : ∀ later, ring ⊆ later → ∀ peer, Member configs later peer →
      SafeTask configs anchors population home task later (again peer))
    (goesOn : ∀ later, ring ⊆ later → ∀ found, Found configs anchors later key found →
      SafeTask configs anchors population home task later (next found)) :
    SafeTask configs anchors population home task ring
      (followRoute localPeer current again next hop) := by
  unfold followRoute
  split
  · rename_i complete
    split
    · refine safe_callPeer member (by decide) fun later grown answer replied => ?_
      split
      · exact goesBack later grown _ (member.mono grown)
      · split
        · exact goesOn later grown _ ⟨member.mono grown, fits complete⟩
        · exact goesOn later grown _ trivial
    · exact goesOn ring le_rfl _ ⟨member, fits complete⟩
  · split
    · exact goesOn ring le_rfl _ trivial
    · exact goesBack ring le_rfl _ member

/-- A lookup only visits nodes of the ring, and it finds a node that fits. -/
theorem safe_findFrom [NormalizingInet] (own : localPeer.id = home)
    {next : Except Errno ChordPeer → ChordDialogue ChordResult}
    (goesOn : ∀ later, ring ⊆ later → ∀ found, Found configs anchors later key found →
      SafeTask configs anchors population home task later (next found))
    (hops : Nat) (visited : List NodeID) {current : ChordPeer}
    (member : Member configs ring current) :
    SafeTask configs anchors population home task ring
      (findFrom localPeer key next hops visited current) := by
  induction hops generalizing ring visited current with
  | zero => exact goesOn ring le_rfl _ trivial
  | succ hops inductionHypothesis =>
    have goesBack : ∀ later, ring ⊆ later → ∀ peer, Member configs later peer →
        SafeTask configs anchors population home task later
          (findFrom localPeer key next hops (visited ++ [current.id]) peer) :=
      fun later grown peer inside =>
        inductionHypothesis (fun last after => goesOn last (grown.trans after)) _ inside
    show SafeTask configs anchors population home task ring
      (if current.id ∈ visited then next (.error .eloop) else _)
    split
    · exact goesOn ring le_rfl _ trivial
    · split
      · rename_i atHome
        refine safe_read fun later grown live chord held => ?_
        have joined : home ∈ later := by
          rw [← own, ← atHome]
          exact grown member.inside
        obtain ⟨hop, fits⟩ := (held.1 joined).route key
        exact safe_followRoute hop fits
          (fun last after => goesBack last (grown.trans after))
          fun last after => goesOn last (grown.trans after)
      · refine safe_callPeer member (by decide) fun later grown answer replied => ?_
        split
        · refine safe_alternativeFinger own (fun last after found fingers => ?_) _ _
          split
          · exact goesOn last (grown.trans after) _ trivial
          · rename_i finger
            exact goesBack last (grown.trans after) finger (fingers finger rfl)
        · split
          · exact goesOn later grown _ trivial
          · rename_i hop read
            obtain ⟨inside, fits⟩ := replied.route read
            have asked : Octets.read nodeIdSize (rpcRequest (some localPeer.id) (some current.id)
                .chordRoute key.toList).payload = key := Octets.read_toList key
            rw [asked] at fits
            exact safe_followRoute inside fits
              (fun last after => goesBack last (grown.trans after))
              fun last after => goesOn last (grown.trans after)

/-- A lookup that begins at its own node. -/
theorem safe_chordNetworkFind [NormalizingInet]
    (joined : ∀ later, ring ⊆ later →
      (chordLogic configs anchors population).live later home task → home ∈ later)
    {next : Except Errno ChordPeer → ChordDialogue ChordResult}
    (goesOn : ∀ later, ring ⊆ later → ∀ found, Found configs anchors later key found →
      SafeTask configs anchors population home task later (next found)) :
    SafeTask configs anchors population home task ring (chordNetworkFind key next) := by
  refine safe_read fun later grown live chord held => ?_
  have pointers := held.1 (joined later grown live)
  exact safe_findFrom pointers.here (fun last after => goesOn last (grown.trans after)) _ _
    pointers.self

/-! ### Tasks -/

/-- A task that ends without a result or outside a lookup. -/
theorem safe_finish {result : ChordResult}
    (stays : ∀ later, ring ⊆ later → chordExtend later home task result = later)
    (returned : ∀ later, ring ⊆ later →
      (chordLogic configs anchors population).returns later home task result) :
    SafeTask configs anchors population home task ring (finish result) := by
  intro later grown live chord held
  refine ⟨fun _ => Advances.refl home chord, ?_⟩
  have kept : chordSystem.extend later home task result = later := stays later grown
  simp only [kept]
  exact ⟨held, returned later grown⟩

/-- A task that fails. -/
theorem safe_finish_error (code : Errno) :
    SafeTask configs anchors population home task ring (finish (.error code)) := by
  refine safe_finish (fun later _ => ?_) fun later _ => ?_
  · cases task with
    | _ => rfl
  · cases task with
    | _ => trivial

/-- `chord_network_find` as a task. -/
theorem safe_find [NormalizingInet] (key : NodeID) :
    SafeTask configs anchors population home (.find key) ring (ChordTask.find key).program := by
  refine safe_chordNetworkFind (fun later _ live => live.2.2) fun later grown found fits => ?_
  cases found with
  | error code => exact safe_finish_error code
  | ok peer =>
    exact safe_finish (fun _ _ => rfl) fun last after => ⟨peer, rfl, fits.1.mono after, fits.2⟩

/-- `chord_network_join` as a task. -/
theorem safe_join [NormalizingInet] (bootstrap : NodeID) :
    SafeTask configs anchors population home (.join bootstrap) ring
      (ChordTask.join bootstrap).program := by
  refine safe_read fun later grown live chord held => ?_
  obtain ⟨-, -, inPopulation, outside, -⟩ := live
  have here := (held.2 inPopulation outside).here
  refine safe_rpcCall (fun _ _ live => ⟨live.2.2.2.2, fun notify => by cases notify⟩)
    fun ring₁ grown₁ answer replied => ?_
  split
  · exact safe_finish_error _
  · split
    · exact safe_finish_error _
    · rename_i first named
      obtain ⟨kind, decoded⟩ := bootstrapOf_eq_some named
      have member := replied.info kind decoded
      split
      · exact safe_finish_error _
      · refine safe_findFrom here (fun ring₂ grown₂ found fits => ?_) _ _ member
        cases found with
        | error code => exact safe_finish_error code
        | ok successor =>
          intro ring₃ grown₃ live₃ state holds
          obtain ⟨anchored, -, inside, absent, -⟩ := live₃
          have fresh := holds.2 inside absent
          have inRing := fits.1.mono grown₃
          have written : chordSetSuccessor state successor =
              (state.withSuccessor successor, .ok ()) :=
            accepting_of_member fresh.available inRing _
          have near := fits.2
          rw [here] at near
          have pointers := fresh.join absent anchored inRing near
          simp only [written]
          exact ⟨fun wrong => absurd wrong absent,
            ⟨fun _ => pointers, fun _ missing => absurd (Set.mem_insert _ _) missing⟩, trivial⟩

/-- A step of maintenance that writes the pointers. -/
theorem safe_write {index : Fin chordFingerCount} {update : Chord → Chord}
    {rest : ChordDialogue ChordResult}
    (writes : ∀ later, ring ⊆ later → ∀ chord, Pointers configs anchors later home chord →
      Pointers configs anchors later home (update chord) ∧ Advances anchors home chord (update chord))
    (goesOn : ∀ later, ring ⊆ later →
      SafeTask configs anchors population home (.maintain index) later rest) :
    SafeTask configs anchors population home (.maintain index) ring (.act update fun _ => rest) := by
  intro later grown live chord held
  have joined : home ∈ later := live.2.2
  obtain ⟨kept, advanced⟩ := writes later grown chord (held.1 joined)
  exact ⟨fun _ => advanced, ⟨fun _ => kept, fun _ outside => absurd joined outside⟩,
    goesOn later grown⟩

/-- The end of `chord_network_maintain`. -/
theorem safe_refreshFinger [NormalizingInet] (index : Fin chordFingerCount)
    (own : localPeer.id = home) :
    SafeTask configs anchors population home (.maintain index) ring
      (refreshFinger index localPeer) := by
  refine safe_chordNetworkFind (fun _ _ live => live.2.2) fun later grown found fits => ?_
  cases found with
  | error code => exact safe_finish_error code
  | ok peer =>
    intro last after live chord held
    have joined : home ∈ last := live.2.2
    have near := fits.2
    rw [own] at near
    obtain ⟨kept, advanced⟩ := (held.1 joined).setFinger (fits.1.mono after) near
    exact ⟨fun _ => advanced, ⟨fun _ => kept, fun _ outside => absurd joined outside⟩, trivial⟩

/-- The notification in `chord_network_maintain`. -/
theorem safe_notifySuccessor [NormalizingInet] (index : Fin chordFingerCount)
    (own : localPeer.id = home) (self : Member configs ring localPeer) :
    SafeTask configs anchors population home (.maintain index) ring
      (notifySuccessor index localPeer) := by
  refine safe_read fun later grown live chord held => ?_
  have successor := (held.1 live.2.2).successor
  rw [encodePeer_of_usable self.usable]
  refine safe_rpcCall (fun last after _ => ⟨after successor.inside, fun _ =>
    ⟨localPeer, self.mono (grown.trans after), rfl, rfl⟩⟩) fun last after answer replied => ?_
  split
  · exact safe_finish_error _
  · split
    · exact safe_refreshFinger index own
    · exact safe_finish_error _

/-- `chord_network_maintain` as a task. -/
theorem safe_maintain [NormalizingInet] (index : Fin chordFingerCount) :
    SafeTask configs anchors population home (.maintain index) ring
      (ChordTask.maintain index).program := by
  refine safe_read fun later grown live chord held => ?_
  have pointers := held.1 live.2.2
  dsimp only
  split
  · refine safe_callPeer pointers.successor (by decide) fun ring₁ grown₁ answer replied => ?_
    split
    · exact safe_finish_error _
    · split
      · exact safe_finish_error _
      · rename_i shaped
        split
        · exact safe_notifySuccessor index pointers.here (pointers.self.mono grown₁)
        · rename_i known
          split
          · exact safe_finish_error _
          · rename_i candidate decoded
            have kind := not_not.mp fun other => shaped (Or.inl other)
            have member := replied.predecessor kind known decoded
            exact safe_write
              (fun last after _ kept => kept.considerPredecessor (member.mono after))
              fun last after => safe_notifySuccessor index pointers.here
                (pointers.self.mono (grown₁.trans after))
  · refine safe_read fun ring₁ grown₁ live₁ state holds => ?_
    split
    · exact safe_refreshFinger index pointers.here
    · rename_i candidate known
      have member := ((holds.1 live₁.2.2).predecessor candidate known).1
      exact safe_write
        (fun last after _ kept => kept.considerPredecessor (member.mono after))
        fun last after => safe_refreshFinger index pointers.here

/-- Every task is safe. -/
theorem safe_program [NormalizingInet] (task : ChordTask) :
    SafeTask configs anchors population home task ring task.program := by
  cases task with
  | find key => exact safe_find key
  | join bootstrap => exact safe_join bootstrap
  | maintain index => exact safe_maintain index

end Conduct

end SuperPeerNet
