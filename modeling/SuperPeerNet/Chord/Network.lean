/-
This file models `chord_network.c` and the client of the ring in `peer.c`: what a node answers
to the messages of the ring, and the code that sends them. Lookups, joins and maintenance are
dialogues: they act on the pointers of their own node under its mutex and call other nodes
without it.

A call names the node that it is meant for, which stands for the process that listens on the
address of that node. The identifier of a transaction is echoed by every node, so its value
does not matter, and zero stands for it.
-/

import SuperPeerNet.Library.Dialogue
import SuperPeerNet.Chord.State
import SuperPeerNet.Rpc

namespace SuperPeerNet

section Network

variable [Inet] [Sha256] [Process]

/-! ### Descriptors -/

/-- `CHORD_ROUTE_WIRE_SIZE`. -/
def chordRouteWireSize : Nat := 1 + joinPayloadWireSize

/-- `decode_peer`. -/
def decodePeer (payload : List UInt8) : Except Errno ChordPeer :=
  match rpcDecodeJoinPayload payload with
  | .error code => .error code
  | .ok config => match nodeInit config with
    | .error code => .error code
    | .ok node => .ok ⟨node.id, config⟩

omit [Process] in
/-- `encode_peer`. -/
def encodePeer (peer : ChordPeer) : Except Errno (List UInt8) := rpcEncodeJoinPayload peer.config

/-! ### Serving -/

/-- `chord_network_handle`. -/
def chordNetworkHandle (chord : Chord) (request : Message) :
    Chord × Except Errno (MessageType × List UInt8) :=
  let size := request.payload.length
  match request.messageType with
  | .chordInfo =>
    if size = 0 then (chord, (encodePeer chord.localPeer).map (.chordInfo, ·))
    else (chord, .error .einval)
  | .chordRoute =>
    if size = nodeIdSize then
      let route := chordRoute chord (Octets.read nodeIdSize request.payload)
      (chord, (encodePeer route.1).map fun bytes =>
        (.chordRoute, (if route.2 then 1 else 0) :: bytes))
    else (chord, .error .einval)
  | .chordPredecessor =>
    if size = 0 then match chord.predecessor with
      | none => (chord, .ok (.chordPredecessor, []))
      | some peer => (chord, (encodePeer peer).map (.chordPredecessor, ·))
    else (chord, .error .einval)
  | .chordNotify =>
    if size = joinPayloadWireSize then match decodePeer request.payload with
      | .error _ => (chord, .error .eacces)
      | .ok peer =>
        if peer.id ≠ request.sourceNode then (chord, .error .eacces)
        else
          let notified := chordNotify chord peer
          (notified.1, match notified.2 with
            | .error _ => .error .eacces
            | .ok _ => .ok (.ack, []))
    else (chord, .error .einval)
  | .chordFinger =>
    if size = 1 then
      (chord, (encodePeer (chord.fingers ⟨(request.payload.getD 0 0).toNat,
        (request.payload.getD 0 0).toNat_lt⟩)).map (.chordFinger, ·))
    else (chord, .error .einval)
  | _ => (chord, .error .einval)

/-- The branch of `handle_client` for the messages of the ring. -/
def chordServe (chord : Chord) (request : Message) : Chord × Except Errno Message :=
  let handled := chordNetworkHandle chord request
  (handled.1, .ok (sendReply chord.localPeer.id request handled.2))

/-! ### Calling -/

/-- The code of a node of the ring. -/
abbrev ChordDialogue (Result : Type) :=
  Dialogue Chord NodeID Message (Except Errno Message) Result

variable {Result : Type}

omit [Inet] [Sha256] [Process] in
/-- The request of `rpc_call`. An unnamed source or destination is zero. -/
def rpcRequest (source destination : Option NodeID) (messageType : MessageType)
    (payload : List UInt8) : Message where
  messageType := messageType
  sourceNode := source.getD (Octets.fill nodeIdSize 0)
  destinationNode := destination.getD (Octets.fill nodeIdSize 0)
  transactionId := Octets.fill transactionIdSize 0
  payload := payload

/-- The checks of `rpc_call` on what comes back. -/
def rpcCheck (source destination : Option NodeID) (request : Message)
    (answer : Except Errno Message) : Except Errno Message :=
  match answer with
  | .error code => .error code
  | .ok response =>
    if response.transactionId ≠ request.transactionId then .error .ebadmsg
    else if (source.any (response.destinationNode ≠ ·)) ∨
        (destination.any (response.sourceNode ≠ ·)) then .error .ebadmsg
    else .ok response

/-- `rpc_call`, to the process that listens as `site`. -/
def rpcCall (site : NodeID) (source destination : Option NodeID) (messageType : MessageType)
    (payload : List UInt8) (next : Except Errno Message → ChordDialogue Result) :
    ChordDialogue Result :=
  let request := rpcRequest source destination messageType payload
  .call site request fun answer => next (rpcCheck source destination request answer)

/-- `call_peer`. -/
def callPeer (localPeer target : ChordPeer) (messageType : MessageType) (payload : List UInt8)
    (next : Except Errno Message → ChordDialogue Result) : ChordDialogue Result :=
  rpcCall target.id (some localPeer.id) (some target.id) messageType payload next

/-! ### Lookups -/

/-- The loop of `find_from` that looks for another hop among the fingers. -/
def alternativeFinger (localPeer : ChordPeer) (visited : List NodeID)
    (next : Option ChordPeer → ChordDialogue Result) :
    (count : Nat) → count ≤ chordFingerCount → ChordDialogue Result
  | 0, _ => next none
  | index + 1, inside => .act id fun chord =>
    let finger := chord.fingers ⟨index, inside⟩
    if finger.id = localPeer.id ∨ finger.id ∈ visited then
      alternativeFinger localPeer visited next index (Nat.le_of_lt inside)
    else next (some finger)

/-- What an answer to `M_CHORD_ROUTE` says. -/
def routeAnswer (response : Message) : Option (ChordPeer × Bool) :=
  if response.messageType ≠ .chordRoute ∨ response.payload.length ≠ chordRouteWireSize ∨
      response.payload.getD 0 0 > 1 then none
  else match decodePeer (response.payload.drop 1) with
    | .error _ => none
    | .ok peer => some (peer, response.payload.getD 0 0 ≠ 0)

/-- An answer to `M_CHORD_INFO` that confirms a node. -/
def confirms (response : Message) (peer : ChordPeer) : Bool :=
  decide (response.messageType = .chordInfo) &&
    match decodePeer response.payload with
    | .error _ => false
    | .ok confirmed => decide (confirmed.id = peer.id)

/-- The end of the loop of `find_from`: the owner has to answer too, and the lookup goes on
`again` from another node otherwise. -/
def followRoute (localPeer current : ChordPeer) (again : ChordPeer → ChordDialogue Result)
    (next : Except Errno ChordPeer → ChordDialogue Result) (hop : ChordPeer × Bool) :
    ChordDialogue Result :=
  if hop.2 then
    if hop.1.id ≠ localPeer.id then callPeer localPeer hop.1 .chordInfo [] fun check =>
      match check with
      | .error _ => again hop.1
      | .ok response => if confirms response hop.1 then next (.ok hop.1) else next (.error .ebadmsg)
    else next (.ok hop.1)
  else if hop.1.id = current.id then next (.error .eloop)
  else again hop.1

/-- The loop of `find_from`, with the hops that are left and the nodes visited so far. -/
def findFrom (localPeer : ChordPeer) (key : NodeID)
    (next : Except Errno ChordPeer → ChordDialogue Result) :
    Nat → List NodeID → ChordPeer → ChordDialogue Result
  | 0, _, _ => next (.error .eloop)
  | hops + 1, visited, current =>
    if current.id ∈ visited then next (.error .eloop)
    else
      let again := findFrom localPeer key next hops (visited ++ [current.id])
      if current.id = localPeer.id then .act id fun chord =>
        followRoute localPeer current again next (chordRoute chord key)
      else callPeer localPeer current .chordRoute key.toList fun answer =>
        match answer with
        | .error _ =>
          alternativeFinger localPeer (visited ++ [current.id])
            (fun found => match found with
              | none => next (.error .ehostunreach)
              | some finger => again finger) chordFingerCount le_rfl
        | .ok response => match routeAnswer response with
          | none => next (.error .ebadmsg)
          | some hop => followRoute localPeer current again next hop

/-- `chord_network_find`. -/
def chordNetworkFind (key : NodeID) (next : Except Errno ChordPeer → ChordDialogue Result) :
    ChordDialogue Result :=
  .act id fun chord => findFrom chord.localPeer key next (chordFingerCount + 1) [] chord.localPeer

/-! ### Joining and maintenance -/

/-- What the tasks of a node result in: a lookup finds a node. -/
abbrev ChordResult := Except Errno (Option ChordPeer)

/-- The end of a task that writes nothing. -/
def finish (result : ChordResult) : ChordDialogue ChordResult := .done fun chord => (chord, result)

/-- The end of a task whose last action is an operation on the pointers. -/
def finishWith (operation : Chord → Chord × Except Errno Unit) : ChordDialogue ChordResult :=
  .done fun chord => ((operation chord).1, (operation chord).2.map fun _ => none)

/-- The node that an answer to the first message of `chord_network_join` names. -/
def bootstrapOf (response : Message) : Option ChordPeer :=
  if response.messageType ≠ .chordInfo ∨ response.payload.length ≠ joinPayloadWireSize then none
  else match decodePeer response.payload with
    | .error _ => none
    | .ok bootstrap => if bootstrap.id = response.sourceNode then some bootstrap else none

/-- `chord_network_join`, through the process that listens as `site`. -/
def chordNetworkJoin (site : NodeID) : ChordDialogue ChordResult :=
  .act id fun chord =>
    let localPeer := chord.localPeer
    rpcCall site (some localPeer.id) none .chordInfo [] fun answer => match answer with
    | .error code => finish (.error code)
    | .ok response => match bootstrapOf response with
      | none => finish (.error .ebadmsg)
      | some bootstrap =>
        if localPeer.id = bootstrap.id then finish (.error .eexist)
        else findFrom localPeer localPeer.id
          (fun found => match found with
            | .error code => finish (.error code)
            | .ok successor => finishWith (chordSetSuccessor · successor))
          (chordFingerCount + 1) [] bootstrap

/-- The end of `chord_network_maintain`, which looks up one finger. -/
def refreshFinger (index : Fin chordFingerCount) (localPeer : ChordPeer) :
    ChordDialogue ChordResult :=
  chordNetworkFind (chordIdAddPower localPeer.id index) fun found => match found with
    | .error code => finish (.error code)
    | .ok peer => finishWith (chordSetFinger · index peer)

/-- The part of `chord_network_maintain` that tells the successor of the node. -/
def notifySuccessor (index : Fin chordFingerCount) (localPeer : ChordPeer) :
    ChordDialogue ChordResult :=
  .act id fun chord => match encodePeer localPeer with
    | .error code => finish (.error code)
    | .ok payload => callPeer localPeer chord.successor .chordNotify payload fun answer =>
      match answer with
      | .error code => finish (.error code)
      | .ok response =>
        if response.messageType = .ack ∧ response.payload = [] then refreshFinger index localPeer
        else finish (.error .ebadmsg)

/-- `chord_network_maintain`. -/
def chordNetworkMaintain (index : Fin chordFingerCount) : ChordDialogue ChordResult :=
  .act id fun chord =>
    let localPeer := chord.localPeer
    if chord.successor.id ≠ localPeer.id then
      callPeer localPeer chord.successor .chordPredecessor [] fun answer => match answer with
      | .error code => finish (.error code)
      | .ok response =>
        if response.messageType ≠ .chordPredecessor ∨ (response.payload ≠ [] ∧
            response.payload.length ≠ joinPayloadWireSize) then finish (.error .ebadmsg)
        else if response.payload = [] then notifySuccessor index localPeer
        else match decodePeer response.payload with
          | .error code => finish (.error code)
          | .ok candidate => .act (fun chord => (chordConsiderPredecessor chord candidate).1)
              fun _ => notifySuccessor index localPeer
    else .act id fun chord => match chord.predecessor with
      | none => refreshFinger index localPeer
      | some candidate => .act (fun chord => (chordConsiderPredecessor chord candidate).1)
          fun _ => refreshFinger index localPeer

/-- The tasks of a node. -/
inductive ChordTask where
  | find (key : NodeID)
  | join (site : NodeID)
  | maintain (index : Fin chordFingerCount)
  deriving DecidableEq

/-- The code of a task. -/
def ChordTask.program : ChordTask → ChordDialogue ChordResult
  | .find key => chordNetworkFind key fun found => finish (found.map some)
  | .join site => chordNetworkJoin site
  | .maintain index => chordNetworkMaintain index

/-! ### The client -/

/-- The loop of `lookup_command`, with the hops that are left. A success gives the number of hops
and the owner. -/
def lookupFrom (key : NodeID) : Nat → List NodeID → NodeID →
    ChordDialogue (Except Errno (Nat × ChordPeer))
  | 0, _, _ => .done fun chord => (chord, .error .eloop)
  | hops + 1, visited, site =>
    rpcCall site none none .chordRoute key.toList fun answer => match answer with
    | .error code => .done fun chord => (chord, .error code)
    | .ok response =>
      if response.messageType ≠ .chordRoute then .done fun chord => (chord, .error .eremoteio)
      else if response.payload.length ≠ chordRouteWireSize ∨ response.payload.getD 0 0 > 1 then
        .done fun chord => (chord, .error .ebadmsg)
      else if response.sourceNode ∈ visited then .done fun chord => (chord, .error .eloop)
      else match decodePeer (response.payload.drop 1) with
        | .error code => .done fun chord => (chord, .error code)
        | .ok owner =>
          if response.payload.getD 0 0 ≠ 0 then
            .done fun chord => (chord, .ok (visited.length + 1, owner))
          else lookupFrom key hops (visited ++ [response.sourceNode]) owner.id

/-- `lookup_command`, for a key that has been read. -/
def lookupCommand (site key : NodeID) : ChordDialogue (Except Errno (Nat × ChordPeer)) :=
  lookupFrom key chordFingerCount [] site

/-! ### What is encoded and decoded -/

/-- The descriptor of a node from which its identity is derived again. -/
def UsablePeer (peer : ChordPeer) : Prop := UsableConfig peer.config peer.id

variable {peer : ChordPeer}

omit [Process] in
theorem encodePeer_of_usable (usable : UsablePeer peer) :
    encodePeer peer = .ok (joinBytes peer.config) := usable.encodes

theorem decodePeer_of_usable [NormalizingInet] (usable : UsablePeer peer) :
    decodePeer (joinBytes peer.config) = .ok peer := by
  have initialised : nodeInit peer.config = .ok ⟨peer.id, peer.config, Process.pid, .peer⟩ := by
    rw [nodeInit, usable.computed]
  rw [decodePeer, usable.decodes]
  simp only [initialised]

omit [Inet] [Sha256] [Process] in
/-- The reply of the node that was meant passes the checks of `rpc_call`. -/
theorem rpcCheck_sendReply (source destination : Option NodeID) {site : NodeID}
    (meant : ∀ id ∈ destination, id = site) (messageType : MessageType) (payload : List UInt8)
    (outcome : Except Errno (MessageType × List UInt8)) :
    rpcCheck source destination (rpcRequest source destination messageType payload)
        (.ok (sendReply site (rpcRequest source destination messageType payload) outcome)) =
      .ok (sendReply site (rpcRequest source destination messageType payload) outcome) := by
  simp only [rpcCheck]
  split
  · rename_i differs
    exact absurd rfl differs
  · split
    · rename_i wrong
      rcases wrong with wrong | wrong
      · obtain ⟨id, rfl, differs⟩ := (Option.any_eq_true _ _).mp wrong
        exact absurd rfl (of_decide_eq_true differs)
      · obtain ⟨id, rfl, differs⟩ := (Option.any_eq_true _ _).mp wrong
        exact absurd (meant id rfl).symm (of_decide_eq_true differs)
    · rfl

/-- A call that is answered by the node that was meant, without a change. -/
theorem run_rpcCall (home : NodeID) {chords : NodeID → Chord} {site : NodeID}
    {source destination : Option NodeID} (meant : ∀ id ∈ destination, id = site)
    {messageType : MessageType} {payload : List UInt8}
    {outcome : Except Errno (MessageType × List UInt8)}
    (served : chordServe (chords site) (rpcRequest source destination messageType payload) =
      (chords site, .ok (sendReply site (rpcRequest source destination messageType payload) outcome)))
    (next : Except Errno Message → ChordDialogue Result) :
    Dialogue.run chordServe home chords (rpcCall site source destination messageType payload next) =
      Dialogue.run chordServe home chords
        (next (.ok (sendReply site (rpcRequest source destination messageType payload) outcome))) := by
  rw [rpcCall, Dialogue.run_call home served, rpcCheck_sendReply _ _ meant]

/-- The notification of a node by itself. -/
theorem chordNetworkHandle_notify [NormalizingInet] (usable : UsablePeer peer) (chord : Chord)
    {request : Message} (kind : request.messageType = .chordNotify)
    (source : request.sourceNode = peer.id) (payload : request.payload = joinBytes peer.config) :
    chordNetworkHandle chord request = ((chordNotify chord peer).1,
      match (chordNotify chord peer).2 with
      | .error _ => .error .eacces
      | .ok _ => .ok (.ack, [])) := by
  obtain ⟨messageType, sourceNode, destinationNode, transactionId, bytes⟩ := request
  dsimp only at kind source payload
  subst kind source payload
  simp only [chordNetworkHandle, length_joinBytes, if_true, decodePeer_of_usable usable, ne_eq,
    not_true_eq_false, if_false]

theorem bootstrapOf_eq_some {response : Message} (named : bootstrapOf response = some peer) :
    response.messageType = .chordInfo ∧ decodePeer response.payload = .ok peer := by
  unfold bootstrapOf at named
  split at named
  · cases named
  · rename_i shaped
    split at named
    · cases named
    · rename_i decoded
      split at named
      · cases named
        exact ⟨not_not.mp fun other => shaped (Or.inl other), decoded⟩
      · cases named

/-- The route that a node sends is read as it was written. -/
theorem routeAnswer_sendReply [NormalizingInet] (usable : UsablePeer peer) (site : NodeID)
    (request : Message) (complete : Bool) :
    routeAnswer (sendReply site request
      (.ok (.chordRoute, (if complete then 1 else 0) :: joinBytes peer.config))) =
        some (peer, complete) := by
  have length := length_joinBytes peer.config
  have decoded := decodePeer_of_usable usable
  cases complete with
  | true => simp [routeAnswer, sendReply, chordRouteWireSize, length, decoded, Nat.add_comm]
  | false => simp [routeAnswer, sendReply, chordRouteWireSize, length, decoded, Nat.add_comm]

omit [Process] in
theorem validPeer_of_usable (usable : UsablePeer peer) : validPeer peer = true :=
  decide_eq_true usable.computed

end Network

end SuperPeerNet
