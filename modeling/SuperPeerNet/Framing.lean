/-
This file models the framing of messages in `protocol.c`: the 98-byte header, the checksum over
the header and the body, and the two functions that put a message on a stream and take one off.

The stream is the list of bytes that the peer has sent and the receiver has not read yet, up to
the end of the stream: `network_recv_exact` returns what is left of it when less than the asked
size remains. A body is delimited by nothing but the size in its header, so the round trip of a
list of messages is the round trip of one message in front of any rest.
-/

import SuperPeerNet.Protocol
import SuperPeerNet.Library.Framing

namespace SuperPeerNet

/-! ### The header -/

/-- `HEADER_WIRE_SIZE`. -/
def headerWireSize : Nat := 98

/-- `PROTOCOL_VERSION`. -/
def protocolVersion : UInt8 := 1

/-- The number of a message type on the wire. -/
def MessageType.code : MessageType → UInt8
  | join => 0
  | ack => 1
  | error => 2
  | ping => 3
  | pong => 4
  | leave => 5
  | lookup => 6
  | store => 7
  | downloadReq => 8
  | downloadRep => 9
  | prepare => 10
  | commit => 11
  | abort => 12
  | heartbeat => 13
  | gossip => 14
  | election => 15
  | ok => 16
  | coordinator => 17
  | snapshot => 18
  | stateTransfer => 19
  | chordInfo => 20
  | chordRoute => 21
  | chordPredecessor => 22
  | chordNotify => 23
  | chordFinger => 24
  | istRequest => 25
  | istBatch => 26

/-- The cases of the switch in `protocol_validate_header`. -/
def validatedTypes : List MessageType :=
  [.join, .ack, .error, .ping, .pong, .leave, .lookup, .store, .downloadReq, .downloadRep,
    .prepare, .commit, .abort, .heartbeat, .gossip, .election, .ok, .coordinator, .snapshot,
    .stateTransfer, .chordInfo, .chordRoute, .chordPredecessor, .chordNotify, .chordFinger,
    .istRequest, .istBatch]

/-- `Header`. -/
structure Header where
  protocolVersion : UInt8
  messageType : UInt8
  sourceNode : NodeID
  destinationNode : NodeID
  transactionId : TransactionId
  timestamp : UInt64
  payloadSize : UInt32
  checksum : UInt32
  deriving DecidableEq

/-- `Protocol_Result`. -/
inductive ProtocolResult where
  | error | ok | closed
  deriving DecidableEq, Repr

/-- `protocol_validate_header`. -/
def protocolValidateHeader (header : Header) : ProtocolResult :=
  if header.protocolVersion ≠ protocolVersion then .error
  else if header.messageType ∉ validatedTypes.map MessageType.code then .error
  else if header.payloadSize.toNat > maxPayloadSize then .error
  else .ok

/-- The bytes that `protocol_serialize_header` writes. -/
def headerBytes (header : Header) : List UInt8 :=
  [header.protocolVersion, header.messageType] ++ (header.sourceNode.toList ++
    (header.destinationNode.toList ++ (header.transactionId.toList ++
      (wirePutU64 header.timestamp ++
        (wirePutU32 header.payloadSize ++ wirePutU32 header.checksum)))))

/-- `protocol_serialize_header`, into a buffer of `HEADER_WIRE_SIZE` bytes. -/
def protocolSerializeHeader (header : Header) : Option (List UInt8) :=
  if protocolValidateHeader header = .error then none else some (headerBytes header)

/-- `protocol_deserialize_header`. -/
def protocolDeserializeHeader (buffer : List UInt8) : Option Header :=
  if buffer.length < headerWireSize then none
  else some
    { protocolVersion := buffer.getD 0 0
      messageType := buffer.getD 1 0
      sourceNode := Octets.read nodeIdSize (buffer.drop 2)
      destinationNode := Octets.read nodeIdSize (buffer.drop 34)
      transactionId := Octets.read transactionIdSize (buffer.drop 66)
      timestamp := wireGetU64 (buffer.drop 82)
      payloadSize := wireGetU32 (buffer.drop 90)
      checksum := wireGetU32 (buffer.drop 94) }

theorem length_headerBytes (header : Header) : (headerBytes header).length = headerWireSize := by
  simp only [headerBytes, List.length_append, length_nodeID, length_transactionId,
    length_wirePutU64, length_wirePutU32, List.length_cons, List.length_nil]
  rfl

/-- A header is read back from the bytes that were written for it. -/
theorem protocolDeserializeHeader_headerBytes (header : Header) :
    protocolDeserializeHeader (headerBytes header) = some header := by
  have source : (headerBytes header).drop 2 = header.sourceNode.toList ++
      (header.destinationNode.toList ++ (header.transactionId.toList ++
        (wirePutU64 header.timestamp ++
          (wirePutU32 header.payloadSize ++ wirePutU32 header.checksum)))) := rfl
  have destination := drop_append_drop _ source (length_nodeID _)
  have transaction := drop_append_drop _ destination (length_nodeID _)
  have timestamp := drop_append_drop _ transaction (length_transactionId _)
  have size := drop_append_drop _ timestamp (length_wirePutU64 _)
  have checksum := drop_append_drop _ size (length_wirePutU32 _)
  have checksumRead : wireGetU32 (wirePutU32 header.checksum) = header.checksum := by
    have read := wireGetU32_wirePutU32 header.checksum []
    rwa [List.append_nil] at read
  have enough : ¬ (headerBytes header).length < headerWireSize := by
    rw [length_headerBytes]
    exact lt_irrefl _
  have version : (headerBytes header).getD 0 0 = header.protocolVersion := rfl
  have type : (headerBytes header).getD 1 0 = header.messageType := rfl
  rw [protocolDeserializeHeader, if_neg enough, version, type, source, destination, transaction,
    timestamp, size, checksum, Octets.read_append, Octets.read_append, Octets.read_append,
    wireGetU64_wirePutU64, wireGetU32_wirePutU32, checksumRead]

theorem protocolValidateHeader_eq_ok {header : Header}
    (valid : protocolValidateHeader header ≠ .error) : protocolValidateHeader header = .ok := by
  unfold protocolValidateHeader at valid ⊢
  split_ifs at valid ⊢ <;> first | rfl | exact absurd rfl valid

/-! ### Messages on a stream -/

/-- `Message`, with its payload pointer: it is null, or it points at the bytes that the header
announces and perhaps at more. -/
structure FramedMessage where
  header : Header
  payload : Option (List UInt8)
  readable : ∀ bytes, payload = some bytes → header.payloadSize.toNat ≤ bytes.length
  deriving DecidableEq

/-- The bytes that the header announces. -/
def FramedMessage.body (message : FramedMessage) : List UInt8 :=
  (message.payload.getD []).take message.header.payloadSize.toNat

section Stream

variable [Zlib]

/-- `protocol_message_crc32`. -/
def protocolMessageCrc32 (header : Header) (payload : Option (List UInt8)) : UInt32 :=
  match protocolSerializeHeader { header with checksum := 0 } with
  | none => 0
  | some serialized =>
    if header.payloadSize > 0 then
      crc32Update (crc32Update 0 serialized)
        ((payload.getD []).take header.payloadSize.toNat)
    else crc32Update 0 serialized

/-- `protocol_send_message`: the bytes that it writes, when the stream takes them all. -/
def protocolSendMessage (message : FramedMessage) : Option (List UInt8) :=
  if protocolValidateHeader message.header = .error ∨
      (message.header.payloadSize > 0 ∧ message.payload = none) then none
  else
    let wireHeader := { message.header with checksum := 0 }
    let sealedHeader :=
      { wireHeader with checksum := protocolMessageCrc32 wireHeader message.payload }
    match protocolSerializeHeader sealedHeader with
    | none => none
    | some serialized =>
      if sealedHeader.payloadSize > 0 then some (serialized ++ message.body) else some serialized

/-- The bytes that a list of messages leaves on the stream. -/
def protocolSendMessages : List FramedMessage → Option (List UInt8)
  | [] => some []
  | message :: messages => do
    let bytes ← protocolSendMessage message
    let more ← protocolSendMessages messages
    return bytes ++ more

/-- The end of `protocol_receive_message`, once the body has been read. -/
def deliverMessage (received : FramedMessage) (message : FramedMessage) :
    ProtocolResult × FramedMessage :=
  if received.header.checksum ≠ protocolMessageCrc32 received.header received.payload then
    (.error, message)
  else (.ok, received)

/-- The second half of `protocol_receive_message`, after the header has been validated: the body
is read from the rest of the stream. -/
def receiveBody (header : Header) (stream : List UInt8) (message : FramedMessage) :
    (ProtocolResult × FramedMessage) × List UInt8 :=
  if header.payloadSize > 0 then
    let rest := stream.drop header.payloadSize.toNat
    if complete : (stream.take header.payloadSize.toNat).length = header.payloadSize.toNat then
      (deliverMessage ⟨header, some (stream.take header.payloadSize.toNat), fun _ same =>
        Option.some.inj same ▸ complete.ge⟩ message, rest)
    else ((.error, message), rest)
  else (deliverMessage ⟨header, none, nofun⟩ message, stream)

/-- `protocol_receive_message`: the result, the message object and the rest of the stream. -/
def protocolReceiveMessage (stream : List UInt8) (message : FramedMessage) :
    (ProtocolResult × FramedMessage) × List UInt8 :=
  let serialized := stream.take headerWireSize
  let rest := stream.drop headerWireSize
  if serialized.length = 0 then ((.closed, message), rest)
  else if serialized.length ≠ headerWireSize then ((.error, message), rest)
  else match protocolDeserializeHeader serialized with
    | none => ((.error, message), rest)
    | some header =>
      if protocolValidateHeader header = .error then ((.error, message), rest)
      else receiveBody header rest message

/-- Calls of `protocol_receive_message` one after another, each with its message object. -/
def protocolReceiveMessages (objects : List FramedMessage) (stream : List UInt8) :
    List (ProtocolResult × FramedMessage) :=
  Framing.receiveEach protocolReceiveMessage objects stream

/-! ### One message -/

omit [Zlib] in
/-- A message of which the payload pointer is not null where a body is announced. -/
theorem FramedMessage.length_body {message : FramedMessage}
    (present : message.header.payloadSize > 0 → message.payload ≠ none) :
    message.body.length = message.header.payloadSize.toNat := by
  rw [body, List.length_take]
  cases pointer : message.payload with
  | none =>
    have empty : ¬ message.header.payloadSize > 0 := fun announced => present announced pointer
    have zero : ¬ 0 < message.header.payloadSize.toNat := empty
    omega
  | some bytes => exact Nat.min_eq_left (message.readable bytes pointer)

/-- What the receiver of a message gets: the header with its checksum filled in, and exactly the
bytes that the header announces. -/
def FramedMessage.delivered (message : FramedMessage) : FramedMessage where
  header := { message.header with
    checksum := protocolMessageCrc32 message.header message.payload }
  payload :=
    if message.header.payloadSize > 0 then
      message.payload.map fun bytes => bytes.take message.header.payloadSize.toNat
    else none
  readable := by
    intro bytes found
    split at found
    · obtain ⟨whole, pointer, rfl⟩ := Option.map_eq_some_iff.mp found
      rw [List.length_take]
      exact le_min le_rfl (message.readable whole pointer)
    · cases found

/-- What `protocol_send_message` asks of a message. -/
def FramedMessage.Accepted (message : FramedMessage) : Prop :=
  protocolValidateHeader message.header = .ok ∧
    (message.header.payloadSize > 0 → message.payload ≠ none)

/-- The bytes of a message on the stream. -/
def FramedMessage.bytes (message : FramedMessage) : List UInt8 :=
  headerBytes message.delivered.header ++ message.body

/-- The checksum is computed with its own field at zero, so both ends compute the same one. -/
theorem protocolMessageCrc32_checksum (header : Header) (checksum : UInt32)
    (payload : Option (List UInt8)) :
    protocolMessageCrc32 { header with checksum := checksum } payload =
      protocolMessageCrc32 header payload := rfl

/-- Only the announced bytes go into the checksum. -/
theorem protocolMessageCrc32_take (header : Header) (payload : Option (List UInt8)) :
    protocolMessageCrc32 header (if header.payloadSize > 0 then
        payload.map fun bytes => bytes.take header.payloadSize.toNat
      else none) = protocolMessageCrc32 header payload := by
  unfold protocolMessageCrc32
  by_cases announced : header.payloadSize > 0
  · cases payload with
    | none => simp only [announced, if_true, Option.map_none]
    | some bytes =>
      simp only [announced, if_true, Option.map_some, Option.getD_some, List.take_take, min_self]
  · simp only [announced, if_false]

/-- The checksum that the receiver computes over what it has read is the one it has read. -/
theorem protocolMessageCrc32_delivered (message : FramedMessage) :
    protocolMessageCrc32 message.delivered.header message.delivered.payload =
      message.delivered.header.checksum :=
  protocolMessageCrc32_take message.header message.payload

/-- `protocol_send_message` writes the header and the body of every message that it accepts. -/
theorem protocolSendMessage_eq_some {message : FramedMessage} {written : List UInt8} :
    protocolSendMessage message = some written ↔
      message.Accepted ∧ written = message.bytes := by
  by_cases valid : protocolValidateHeader message.header = .error
  · have refused : ¬ message.Accepted := fun accepted => by
      rw [accepted.1] at valid
      cases valid
    rw [protocolSendMessage, if_pos (Or.inl valid)]
    exact ⟨nofun, fun accepted => absurd accepted.1 refused⟩
  · by_cases missing : message.header.payloadSize > 0 ∧ message.payload = none
    · rw [protocolSendMessage, if_pos (Or.inr missing)]
      exact ⟨nofun, fun accepted => absurd missing.2 (accepted.1.2 missing.1)⟩
    · have accepted : message.Accepted :=
        ⟨protocolValidateHeader_eq_ok valid, fun announced pointer => missing ⟨announced, pointer⟩⟩
      have serialized : protocolSerializeHeader message.delivered.header =
          some (headerBytes message.delivered.header) := if_neg valid
      have sends : protocolSendMessage message = some message.bytes := by
        rw [protocolSendMessage, if_neg (not_or.mpr ⟨valid, missing⟩)]
        show (match protocolSerializeHeader message.delivered.header with
          | none => none
          | some serialized =>
            if message.header.payloadSize > 0 then some (serialized ++ message.body)
            else some serialized) = _
        rw [serialized]
        dsimp only
        split
        · rfl
        · rename_i empty
          have zero : ¬ 0 < message.header.payloadSize.toNat := empty
          have none : message.body = [] := by
            rw [FramedMessage.body, Nat.eq_zero_of_not_pos zero, List.take_zero]
          rw [FramedMessage.bytes, none, List.append_nil]
      rw [sends, Option.some.injEq]
      exact ⟨fun same => ⟨accepted, same.symm⟩, fun same => same.2.symm⟩

/-- Behind a whole header the body is read. -/
theorem protocolReceiveMessage_header {message : FramedMessage} (accepted : message.Accepted)
    (rest : List UInt8) (object : FramedMessage) :
    protocolReceiveMessage (headerBytes message.delivered.header ++ rest) object =
      receiveBody message.delivered.header rest object := by
  have size : (headerBytes message.delivered.header).length = headerWireSize := length_headerBytes _
  have valid : protocolValidateHeader message.delivered.header = .ok := accepted.1
  unfold protocolReceiveMessage
  dsimp only
  rw [List.take_left' size, List.drop_left' size, size, if_neg (by decide),
    if_neg (not_not.mpr rfl), protocolDeserializeHeader_headerBytes]
  dsimp only
  rw [valid, if_neg nofun]

/-- What has been read whole is delivered. -/
theorem deliverMessage_delivered {message : FramedMessage} {payload : Option (List UInt8)}
    (same : payload = message.delivered.payload)
    (readable : ∀ bytes, payload = some bytes →
      message.delivered.header.payloadSize.toNat ≤ bytes.length) (object : FramedMessage) :
    deliverMessage ⟨message.delivered.header, payload, readable⟩ object =
      (.ok, message.delivered) := by
  subst same
  exact if_neg (not_not.mpr (protocolMessageCrc32_delivered message).symm)

/-- A whole body is taken from the front of the stream. -/
theorem receiveBody_body {message : FramedMessage} (accepted : message.Accepted)
    (rest : List UInt8) (object : FramedMessage) :
    receiveBody message.delivered.header (message.body ++ rest) object =
      ((.ok, message.delivered), rest) := by
  have size : message.body.length = message.delivered.header.payloadSize.toNat :=
    FramedMessage.length_body accepted.2
  unfold receiveBody
  by_cases announced : message.delivered.header.payloadSize > 0
  · have taken : (message.body ++ rest).take message.delivered.header.payloadSize.toNat =
        message.body := List.take_left' size
    have payload : message.delivered.payload = some message.body := by
      cases pointer : message.payload with
      | none => exact absurd pointer (accepted.2 announced)
      | some bytes =>
        have kept : message.delivered.payload =
            message.payload.map fun bytes => bytes.take message.header.payloadSize.toNat :=
          if_pos announced
        rw [kept, FramedMessage.body, pointer]
        rfl
    rw [if_pos announced, dif_pos (by rw [taken, size]), List.drop_left' size]
    congr 1
    refine deliverMessage_delivered ?_ _ object
    rw [taken, payload]
  · have empty : message.body = [] :=
      List.length_eq_zero_iff.mp (size.trans (Nat.eq_zero_of_not_pos announced))
    have payload : message.delivered.payload = none := if_neg announced
    rw [if_neg announced, empty, List.nil_append]
    congr 1
    exact deliverMessage_delivered payload.symm _ object

/-- A body of which the end is missing is refused. -/
theorem receiveBody_cutOff {header : Header} {stream : List UInt8}
    (short : stream.length < header.payloadSize.toNat) (object : FramedMessage) :
    (receiveBody header stream object).1 = (.error, object) := by
  have announced : header.payloadSize > 0 := Nat.lt_of_le_of_lt (Nat.zero_le _) short
  have incomplete : (stream.take header.payloadSize.toNat).length ≠ header.payloadSize.toNat := by
    rw [List.length_take]
    omega
  rw [receiveBody, if_pos announced, dif_neg incomplete]

/-- `protocol_receive_message` takes a whole message from the front of a stream, and nothing of
what follows it. -/
theorem protocolReceiveMessage_bytes {message : FramedMessage} (accepted : message.Accepted)
    (rest : List UInt8) (object : FramedMessage) :
    protocolReceiveMessage (message.bytes ++ rest) object =
      ((.ok, message.delivered), rest) := by
  rw [FramedMessage.bytes, List.append_assoc, protocolReceiveMessage_header accepted,
    receiveBody_body accepted]

/-- A stream that ends within a header is refused. -/
theorem protocolReceiveMessage_short {stream : List UInt8} (some : 0 < stream.length)
    (short : stream.length < headerWireSize) (object : FramedMessage) :
    (protocolReceiveMessage stream object).1 = (.error, object) := by
  have all : stream.take headerWireSize = stream := List.take_of_length_le short.le
  unfold protocolReceiveMessage
  dsimp only
  rw [all, if_neg (Nat.ne_of_gt some), if_pos short.ne]

/-- A message of which the end is missing is refused, and the message object stays as it was. -/
theorem protocolReceiveMessage_cutOff {message : FramedMessage} (accepted : message.Accepted)
    {kept : Nat} (inside : 0 < kept) (short : kept < message.bytes.length)
    (object : FramedMessage) :
    (protocolReceiveMessage (message.bytes.take kept) object).1 = (.error, object) := by
  have size : (headerBytes message.delivered.header).length = headerWireSize := length_headerBytes _
  have bodySize : message.body.length = message.delivered.header.payloadSize.toNat :=
    FramedMessage.length_body accepted.2
  rw [FramedMessage.bytes, List.length_append, size] at short
  by_cases early : kept < headerWireSize
  · have length : (message.bytes.take kept).length = kept := by
      rw [List.length_take, FramedMessage.bytes, List.length_append]
      omega
    exact protocolReceiveMessage_short (by rwa [length]) (by rwa [length]) object
  · have split : message.bytes.take kept = headerBytes message.delivered.header ++
        message.body.take (kept - headerWireSize) := by
      rw [FramedMessage.bytes, List.take_append, size, List.take_of_length_le (by omega)]
    rw [split, protocolReceiveMessage_header accepted]
    refine receiveBody_cutOff ?_ object
    rw [List.length_take]
    omega

/-! ### A stream of messages -/

/-- `protocol_receive_message` tells the messages of a stream apart. -/
theorem protocolReceiveMessage_delimits :
    Framing.Delimits protocolReceiveMessage FramedMessage.Accepted FramedMessage.bytes
      FramedMessage.delivered .ok .closed .error where
  whole := fun _ accepted rest object => protocolReceiveMessage_bytes accepted rest object
  ended := fun _ => rfl
  cutOff := fun _ accepted _ inside short object =>
    protocolReceiveMessage_cutOff accepted inside short object

/-- The stream of a list of accepted messages. -/
theorem protocolSendMessages_eq_some {messages : List FramedMessage} {stream : List UInt8} :
    protocolSendMessages messages = some stream ↔
      (∀ message ∈ messages, message.Accepted) ∧
        stream = messages.flatMap FramedMessage.bytes := by
  induction messages generalizing stream with
  | nil => simp [protocolSendMessages, eq_comm]
  | cons message messages inductionHypothesis =>
    simp only [protocolSendMessages, Option.bind_eq_bind, Option.bind_eq_some_iff,
      Option.pure_def, Option.some.injEq, protocolSendMessage_eq_some, inductionHypothesis,
      List.forall_mem_cons, List.flatMap_cons]
    constructor
    · rintro ⟨_, ⟨accepted, rfl⟩, _, ⟨others, rfl⟩, rfl⟩
      exact ⟨⟨accepted, others⟩, rfl⟩
    · rintro ⟨⟨accepted, others⟩, rfl⟩
      exact ⟨_, ⟨accepted, rfl⟩, _, ⟨others, rfl⟩, rfl⟩

/-- Messages that were accepted one after another are received in order, with their checksums
filled in, and then the end of the stream is reported. On a stream that was cut within a message
the messages before it are received, and then an error that leaves the message object as it
was. -/
theorem message_framing_round_trip {messages : List FramedMessage} {stream : List UInt8}
    (sent : protocolSendMessages messages = some stream) :
    (∀ objects last, objects.length = messages.length →
      protocolReceiveMessages (objects ++ [last]) stream =
        messages.map (fun message => (.ok, message.delivered)) ++ [(.closed, last)]) ∧
    ∀ before message after start bytes, messages = before ++ message :: after →
      protocolSendMessages before = some start → protocolSendMessage message = some bytes →
      ∀ cut, start.length < cut → cut < start.length + bytes.length →
      ∀ objects last, objects.length = before.length →
        protocolReceiveMessages (objects ++ [last]) (stream.take cut) =
          before.map (fun message => (.ok, message.delivered)) ++ [(.error, last)] := by
  obtain ⟨accepted, rfl⟩ := protocolSendMessages_eq_some.mp sent
  constructor
  · intro objects last count
    exact protocolReceiveMessage_delimits.receiveEach_all accepted count last
  · rintro before message after start bytes rfl sentBefore sentMessage cut above below objects last
      count
    obtain ⟨-, rfl⟩ := protocolSendMessages_eq_some.mp sentBefore
    obtain ⟨-, rfl⟩ := protocolSendMessage_eq_some.mp sentMessage
    have offset : cut = (before.flatMap FramedMessage.bytes).length +
        (cut - (before.flatMap FramedMessage.bytes).length) := by omega
    rw [offset]
    exact protocolReceiveMessage_delimits.receiveEach_cutOff accepted count last (by omega)
      (by omega)

end Stream

/-- A ping from a node of sevens, with a body. -/
def pingMessage : FramedMessage where
  header :=
    { protocolVersion := 1
      messageType := MessageType.ping.code
      sourceNode := Octets.fill _ 7
      destinationNode := Octets.fill _ 9
      transactionId := Octets.fill _ 3
      timestamp := 5
      payloadSize := 4
      checksum := 0 }
  payload := some [80, 73, 78, 71]
  readable := fun _ same => Option.some.inj same ▸ le_rfl

/-- An acknowledgement without a body. -/
def ackMessage : FramedMessage where
  header := { pingMessage.header with messageType := MessageType.ack.code, payloadSize := 0 }
  payload := none
  readable := nofun

/-- The ping and the acknowledgement on one stream, whole and cut within the acknowledgement. -/
theorem message_framing_round_trip_pair :
    letI := Zlib.reference
    (∃ stream, protocolSendMessages [pingMessage, ackMessage] = some stream ∧
      protocolReceiveMessages [ackMessage, ackMessage, pingMessage] stream =
        [(.ok, pingMessage.delivered), (.ok, ackMessage.delivered), (.closed, pingMessage)] ∧
      protocolReceiveMessages [ackMessage, pingMessage] (stream.take 150) =
        [(.ok, pingMessage.delivered), (.error, pingMessage)]) := by
  let _ := Zlib.reference
  have sent : protocolSendMessages [pingMessage, ackMessage] =
      some ((protocolSendMessages [pingMessage, ackMessage]).getD []) := by decide +kernel
  have sentPing : protocolSendMessages [pingMessage] =
      some ((protocolSendMessages [pingMessage]).getD []) := by decide +kernel
  have sentAck : protocolSendMessage ackMessage =
      some ((protocolSendMessage ackMessage).getD []) := by decide +kernel
  obtain ⟨whole, cut⟩ := message_framing_round_trip sent
  exact ⟨_, sent, whole [ackMessage, ackMessage] pingMessage rfl,
    cut [pingMessage] ackMessage [] _ _ rfl sentPing sentAck 150 (by decide +kernel)
      (by decide +kernel) [ackMessage] pingMessage rfl⟩

end SuperPeerNet
