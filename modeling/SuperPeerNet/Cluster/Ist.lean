/-
This file models the incremental state transfer of `c4_cluster.c`: the
`M_IST_REQUEST` branch of `c4_cluster_handle`, which fills one page with committed
entries, and `c4_recover_from_member`, which asks for pages until one comes back
empty.

The page is a buffer of `MAX_PAYLOAD_SIZE` bytes. The space left in it is computed
in 32-bit arithmetic, and within the last three bytes of the buffer that
computation wraps around. The model keeps the wrapped value and lets the page grow
past the buffer, which is undefined behaviour in C; the reply is then too large to be
sent, so no recovery succeeds through such a page.
-/

import SuperPeerNet.Cluster.Base

namespace SuperPeerNet

variable [Zlib] {Context : Type}

/-! ### Serving a page -/

/-- `MAX_PAYLOAD_SIZE - cursor - 4U`, in unsigned 32-bit arithmetic. -/
def istRoom (cursor : Nat) : Nat :=
  (((maxPayloadSize : Int) - cursor - 4) % 2 ^ 32).toNat

/-- One entry in a page: its encoded size and its encoding. -/
def istItem (encoded : List UInt8) : List UInt8 :=
  wirePutU32 (UInt32.ofNat encoded.length) ++ encoded

/-- The loop that fills a page. The items follow the four bytes of the count. -/
def istFill : List C4LogEntry → List UInt8 → Nat → Except Errno (List UInt8 × Nat)
  | [], items, count => .ok (items, count)
  | entry :: rest, items, count =>
    match c4LogEntryEncode entry with
    | .error code => .error code
    | .ok encoded =>
      if encoded.length > istRoom (4 + items.length) then
        if count = 0 then .error .emsgsize else .ok (items, count)
      else istFill rest (items ++ istItem encoded) (count + 1)

/-- The `M_IST_REQUEST` branch of `c4_cluster_handle`. A request of the wrong size leaves
`errno` as it was. -/
def handleIstRequest (errno : Errno) (cluster : C4Cluster Context) (request : Message) :
    Except Errno (MessageType × List UInt8) :=
  if request.payload.length ≠ 16 then .error errno
  else match c4MemberIsLiveSuperpeer cluster request.sourceNode with
    | .error code => .error code
    | .ok _ =>
      let requestedIndex := wireGetU64 request.payload
      let requestedVersion := wireGetU64 (request.payload.drop 8)
      let lastIndex := c4LogLastIndex cluster.log
      if requestedIndex > lastIndex then .error .enoent
      else if requestedIndex = 0 ∧ requestedVersion ≠ 0 then .error .erange
      else
        let checked : Except Errno Unit :=
          if requestedIndex > 0 then
            match c4LogGet cluster.log requestedIndex with
            | .error code => .error code
            | .ok previous =>
              if previous.version ≠ requestedVersion then .error .erange else .ok ()
          else .ok ()
        match checked with
        | .error code => .error code
        | .ok () => match istFill (cluster.log.entries.drop requestedIndex.toNat) [] 0 with
          | .error code => .error code
          | .ok (items, count) => .ok (.istBatch, wirePutU32 (UInt32.ofNat count) ++ items)

/-! ### Receiving a page -/

/-- The payload of a request: the cursor of the receiver. -/
def istCursor (index version : UInt64) : List UInt8 := wirePutU64 index ++ wirePutU64 version

/-- The loop that validates the items of a page against the cursor, the log and the items
before. The open-addressed table of the ids seen so far is a list of them here: only
membership is asked of it. -/
def istItems (log : C4Log) (payload : List UInt8) :
    Nat → Nat → UInt64 → UInt64 → List TransactionId → Except Errno (List C4LogEntry)
  | 0, cursor, _, _, _ => if cursor ≠ payload.length then .error .ebadmsg else .ok []
  | count + 1, cursor, index, version, seen =>
    if cursor > payload.length - 4 then .error .ebadmsg
    else
      let encodedSize := (wireGetU32 (payload.drop cursor)).toNat
      if encodedSize > payload.length - (cursor + 4) then .error .ebadmsg
      else match c4LogEntryDecode ((payload.drop (cursor + 4)).take encodedSize) with
        | .error _ => .error .ebadmsg
        | .ok entry =>
          if entry.index ≠ index + 1 ∨ entry.version ≠ version + 1 then .error .ebadmsg
          else match c4LogGetTransaction log entry.transactionId with
            | .ok _ => .error .eexist
            | .error code =>
              if code ≠ .enoent then .error code
              else if entry.transactionId ∈ seen then .error .eexist
              else match istItems log payload count (cursor + 4 + encodedSize) entry.index
                  entry.version (entry.transactionId :: seen) with
                | .error failure => .error failure
                | .ok entries => .ok (entry :: entries)

/-- What `c4_recover_from_member` accepts of a response: the entries of a valid page, none if
the page is the empty one that ends the transfer. -/
def istReceive (log : C4Log) (index version : UInt64) (response : Message) :
    Except Errno (List C4LogEntry) :=
  if response.messageType ≠ .istBatch ∨ response.payload.length < 4 then
    if response.messageType = .error then .error (remoteErrorDecode response.payload)
    else .error .ebadmsg
  else
    let count := (wireGetU32 response.payload).toNat
    if count = 0 then
      if response.payload.length ≠ 4 then .error .ebadmsg else .ok []
    else if count > (response.payload.length - 4) / 48 then .error .ebadmsg
    else istItems log response.payload count 4 index version []

/-- The loop that appends and applies the entries of a page. -/
def istAppend (apply : C4ApplyEntry Context) :
    C4Cluster Context → List C4LogEntry → C4Cluster Context × Except Errno Unit
  | cluster, [] => (cluster, .ok ())
  | cluster, entry :: rest =>
    match appendAndApply apply cluster entry with
    | (after, .error code) => (after, .error code)
    | (after, .ok ()) => istAppend apply after rest

/-- The loop of `c4_recover_from_member`, with a bound on the number of requests. There is no
result when the bound is reached. -/
def recoverLoop (rpc : List UInt8 → Except Errno Message) (apply : C4ApplyEntry Context) :
    Nat → C4Cluster Context → UInt64 → UInt64 → Option (C4Cluster Context × Except Errno Unit)
  | 0, _, _, _ => none
  | requests + 1, cluster, index, version =>
    match rpc (istCursor index version) with
    | .error code => some (cluster, .error code)
    | .ok response => match istReceive cluster.log index version response with
      | .error code => some (cluster, .error code)
      | .ok entries => match entries.getLast? with
        | none => some (cluster, .ok ())
        | some last => match istAppend apply cluster entries with
          | (after, .error code) => some (after, .error code)
          | (after, .ok ()) => recoverLoop rpc apply requests after last.index last.version

/-- `c4_recover_from_member`, where `rpc` sends an `M_IST_REQUEST` to the member. -/
def c4RecoverFromMember (rpc : List UInt8 → Except Errno Message)
    (apply : C4ApplyEntry Context) (requests : Nat) (cluster : C4Cluster Context) :
    Option (C4Cluster Context × Except Errno Unit) :=
  recoverLoop rpc apply requests cluster (c4LogLastIndex cluster.log) (c4LogLastVersion cluster.log)

end SuperPeerNet
