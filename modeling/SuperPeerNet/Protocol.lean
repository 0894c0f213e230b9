/-
This file fixes the vocabulary that the modules of the repository share: the
identifiers and size limits of `common.h` and `protocol.h`, the message as the
handlers see it once framing has been checked, the error codes, and the two-byte
wire form of an error code from `remote_error.h`.

zlib is the one library these modules call. Its `crc32` is a parameter of the
development: nothing below assumes more than that it is a function of its
starting value and its bytes.
-/

import SuperPeerNet.Wire

namespace SuperPeerNet

/-! ### Identifiers and limits -/

/-- `NODE_ID_SIZE`. -/
def nodeIdSize : Nat := 32

/-- `TRANSACTION_ID_SIZE`. -/
def transactionIdSize : Nat := 16

/-- `OBJECT_ID_SIZE`. -/
def objectIdSize : Nat := 32

/-- `MAX_PAYLOAD_SIZE`, 5 MiB. -/
def maxPayloadSize : Nat := 5 * 1024 * 1024

/-- The 32-byte identity of a node. -/
abbrev NodeID := Octets nodeIdSize

/-- The 16-byte identity of a transaction. -/
abbrev TransactionId := Octets transactionIdSize

/-- The 32-byte identity of a stored document. -/
abbrev ObjectID := Octets objectIdSize

@[simp] theorem length_nodeID (id : NodeID) : id.toList.length = 32 := id.2

@[simp] theorem length_transactionId (id : TransactionId) : id.toList.length = 16 := id.2

/-! ### Error codes -/

/-- The `errno` values that the modelled functions set. -/
inductive Errno where
  | eacces | ealready | ebadmsg | eexist | ehostunreach | einval | eio | eloop | emsgsize | enodata
  | enoent | enospc | enotempty | enotsup | enotuniq | eoverflow | eperm | erange | eremoteio
  | estale
  deriving DecidableEq, Repr

/-- A sequence of two computations succeeds when both of them do. -/
theorem bind_eq_ok {Value Result : Type} {first : Except Errno Value}
    {second : Value → Except Errno Result} {result : Result} : first.bind second = .ok result ↔
      ∃ middle, first = .ok middle ∧ second middle = .ok result := by
  cases first with
  | error code => simp [Except.bind]
  | ok middle => simp [Except.bind]

/-- `remote_error_encode`: the second byte is independent of the numbering of the system. -/
def remoteErrorEncode (error : Errno) : List UInt8 :=
  let code : UInt8 := match error with
    | .enoent => 1
    | .enotuniq => 2
    | .eexist => 3
    | .ebadmsg | .einval => 4
    | .enotsup => 5
    | .eacces => 6
    | .enodata => 7
    | .emsgsize | .eoverflow => 8
    | _ => 9
  [1, code]

/-- `remote_error_decode`. -/
def remoteErrorDecode (data : List UInt8) : Errno :=
  if data.length ≠ 2 ∨ data.getD 0 0 ≠ 1 then .eremoteio
  else match (data.getD 1 0).toNat with
    | 1 => .enoent
    | 2 => .enotuniq
    | 3 => .eexist
    | 4 => .ebadmsg
    | 5 => .enotsup
    | 6 => .eacces
    | 7 => .enodata
    | 8 => .emsgsize
    | _ => .eio

/-! ### Messages -/

/-- `Message_Type`. -/
inductive MessageType where
  | join | ack | error | ping | pong | leave | lookup | store | downloadReq | downloadRep
  | prepare | commit | abort | heartbeat | gossip | election | ok | coordinator | snapshot
  | stateTransfer | chordInfo | chordRoute | chordPredecessor | chordNotify | chordFinger
  | istRequest | istBatch
  deriving DecidableEq, Repr

/-- A message after `protocol_receive_message` has checked its framing. The payload size is
the length of the payload. -/
structure Message where
  messageType : MessageType
  sourceNode : NodeID
  destinationNode : NodeID
  transactionId : TransactionId
  payload : List UInt8
  deriving DecidableEq

/-- `send_reply`: a reply keeps the transaction id and turns the endpoints around; an error
reply carries the encoded error. -/
def sendReply (localNode : NodeID) (request : Message)
    (outcome : Except Errno (MessageType × List UInt8)) : Message :=
  { messageType := match outcome with | .ok (messageType, _) => messageType | .error _ => .error
    sourceNode := localNode
    destinationNode := request.sourceNode
    transactionId := request.transactionId
    payload := match outcome with
      | .ok (_, payload) => payload
      | .error code => remoteErrorEncode code }

/-! ### Checksums -/

/-- The part of zlib that the repository calls. -/
class Zlib where
  /-- `crc32(crc, data, size)`. -/
  crc32 : UInt32 → List UInt8 → UInt32

/-- The loop of `crc32_update`, with the remaining size as its bound: zlib is fed blocks of
at most `UINT_MAX` bytes. -/
def crc32UpdateLoop [Zlib] : Nat → UInt32 → List UInt8 → UInt32
  | 0, result, _ => result
  | size + 1, result, data =>
    if data.isEmpty then result
    else crc32UpdateLoop size (Zlib.crc32 result (data.take 0xffffffff)) (data.drop 0xffffffff)

/-- `crc32_update`. -/
def crc32Update [Zlib] (crc : UInt32) (data : List UInt8) : UInt32 :=
  crc32UpdateLoop data.length crc data

/-- `protocol_calculate_crc32`. -/
def protocolCalculateCrc32 [Zlib] (data : List UInt8) : UInt32 := crc32Update 0 data

/-- The eight shifts by which CRC-32 absorbs one byte, over the reflected polynomial. -/
def crc32Shift : Nat → UInt32 → UInt32
  | 0, register => register
  | count + 1, register =>
    if register &&& 1 = 1 then crc32Shift count ((register >>> 1) ^^^ 0xedb88320)
    else crc32Shift count (register >>> 1)

/-- CRC-32 as zlib documents it, for use at concrete inputs. -/
@[reducible] def Zlib.reference : Zlib where
  crc32 crc data :=
    (data.foldl (fun register byte => crc32Shift 8 (register ^^^ byte.toUInt32))
      (crc ^^^ 0xffffffff)) ^^^ 0xffffffff

/-- The published check value of CRC-32: the checksum of the nine digits. -/
example : Zlib.reference.crc32 0 [49, 50, 51, 52, 53, 54, 55, 56, 57] = 0xcbf43926 := by
  decide +kernel

end SuperPeerNet
