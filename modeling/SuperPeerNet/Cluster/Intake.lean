/-
This file models how `c4_recover_from_member` takes in one page, down to its accesses to memory.

The page is an arbitrary byte string. Every read of it is checked against its end, the cursor is a
word of 32 bits, and the transaction ids of the page are kept in an open-addressed table. For pages
that a message can carry no read is outside, no walk over the table fails to end, and the validation
is the one over lists. What follows of the log is that a page is taken as a whole or not at all.
-/

import SuperPeerNet.Library.Bounded
import SuperPeerNet.Library.Probing
import SuperPeerNet.Log.Representation
import SuperPeerNet.Cluster.Recovery

namespace SuperPeerNet

open Bounded

section Intake

variable [Zlib] {Context : Type}

/-! ### The table of transaction ids -/

omit [Zlib] in
/-- `c4_transaction_hash`. -/
def c4TransactionHash (id : TransactionId) : UInt64 :=
  id.toList.foldl (fun hash byte => (hash ^^^ byte.toUInt64) * 1099511628211) 1469598103934665603

omit [Zlib] in
/-- The loop that doubles `seen_capacity`, of at most as many turns as `size_t` has bits. -/
def doubled (target : Nat) : Nat → Nat → Nat
  | 0, capacity => capacity
  | turns + 1, capacity => if capacity < target then doubled target turns (capacity * 2) else capacity

omit [Zlib] in
/-- `seen_capacity` for a number of entries. -/
def seenCapacity (count : Nat) : Nat := doubled (count * 2) 64 1

omit [Zlib] in
/-- `(seen_index + 1U) & (seen_capacity - 1U)`. -/
def seenNext (capacity position : Nat) : Nat := (position + 1) &&& (capacity - 1)

omit [Zlib] in
/-- The first `seen_index` of a transaction id. -/
def seenHome (capacity : Nat) (id : TransactionId) : Nat :=
  (c4TransactionHash id).toNat &&& (capacity - 1)

omit [Zlib] in
/-- The loop over the table, and the entry of the id where it ends. A walk that does not end would
read outside of every bound. -/
def seenAdd (seen : List (Option TransactionId)) (id : TransactionId) :
    Access Errno (List (Option TransactionId)) :=
  match Probing.walk (seenNext seen.length) seen id seen.length (seenHome seen.length id) with
  | none => .error .outside
  | some .stored => refuse .eexist
  | some (.free position) => put seen position (some id)

/-! ### The validation of a page -/

/-- `c4_log_entry_decode`, at an offset of the payload. The header is read as a whole. -/
def loadLogEntry (payload : List UInt8) (offset size : Nat) : Access Errno C4LogEntry := do
  reject .einval (size < c4LogHeaderSize)
  let header ← load payload offset c4LogHeaderSize
  reject .einval (header.take 4 ≠ c4LogMagic)
  let payloadSize := (wireGetU32 (header.drop 36)).toNat
  if fits : payloadSize ≤ maxPayloadSize ∧ size = c4LogHeaderSize + payloadSize then
    let data ← load payload (offset + c4LogHeaderSize) payloadSize
    let entry := c4LogEntryRead header (data.take payloadSize)
      (length_lt_of_le_maxPayloadSize ((List.length_take_le _ _).trans fits.1))
    reject .ebadmsg (entry.index = 0 ∨ entry.version = 0 ∨
      entry.checksum ≠ c4LogEntryChecksum entry)
    pure entry
  else refuse .emsgsize

/-- A failure of `c4_log_entry_decode`, as the caller reports it. -/
def asBadMessage : Access Errno C4LogEntry → Access Errno C4LogEntry
  | .error (.refused _) => refuse .ebadmsg
  | result => result

/-- The loop of `c4_recover_from_member` that validates the items of a page. -/
def loadIstItems (log : C4Log) (payload : List UInt8) :
    Nat → UInt32 → UInt64 → UInt64 → List (Option TransactionId) → Access Errno (List C4LogEntry)
  | 0, cursor, _, _, _ => do
    reject .ebadmsg (cursor ≠ UInt32.ofNat payload.length)
    pure []
  | count + 1, cursor, index, version, seen => do
    let payloadSize := UInt32.ofNat payload.length
    reject .ebadmsg (cursor > payloadSize - 4)
    let encodedSize ← wireGetU32 <$> load payload cursor.toNat 4
    let start := cursor + 4
    reject .ebadmsg (encodedSize > payloadSize - start)
    let entry ← asBadMessage (loadLogEntry payload start.toNat encodedSize.toNat)
    reject .ebadmsg (entry.index ≠ index + 1 ∨ entry.version ≠ version + 1)
    match c4LogGetTransaction log entry.transactionId with
    | .ok _ => refuse .eexist
    | .error code => do
      reject code (code ≠ .enoent)
      let seen ← seenAdd seen entry.transactionId
      let entries ← loadIstItems log payload count (start + encodedSize) entry.index entry.version
        seen
      pure (entry :: entries)

/-- What `c4_recover_from_member` accepts of a response, over memory. -/
def loadIstBatch (log : C4Log) (index version : UInt64) (response : Message) :
    Access Errno (List C4LogEntry) :=
  let payloadSize := UInt32.ofNat response.payload.length
  if response.messageType ≠ .istBatch ∨ payloadSize < 4 then
    if response.messageType = .error then refuse (remoteErrorDecode response.payload)
    else refuse .ebadmsg
  else do
    let count ← wireGetU32 <$> load response.payload 0 4
    if count = 0 then do
      reject .ebadmsg (payloadSize ≠ 4)
      pure []
    else do
      reject .ebadmsg (count > (payloadSize - 4) / 48)
      loadIstItems log response.payload count.toNat 4 index version
        (List.replicate (seenCapacity count.toNat) none)

/-- One turn of the loop of `c4_recover_from_member`, after a response: the cursor of the next
request, or none if the transfer is complete. -/
def istTurn (apply : C4ApplyEntry Context) (cluster : C4Cluster Context) (index version : UInt64)
    (response : Message) : C4Cluster Context × Access Errno (Option (UInt64 × UInt64)) :=
  match loadIstBatch cluster.log index version response with
  | .error stop => (cluster, .error stop)
  | .ok entries => match entries.getLast? with
    | none => (cluster, .ok none)
    | some last => match istAppend apply cluster entries with
      | (after, .error code) => (after, refuse code)
      | (after, .ok ()) => (after, .ok (some (last.index, last.version)))

/-- The loop of `c4_recover_from_member` over memory, with a bound on the number of requests. -/
def recoverTurns (rpc : List UInt8 → Except Errno Message) (apply : C4ApplyEntry Context) :
    Nat → C4Cluster Context → UInt64 → UInt64 → Option (C4Cluster Context × Access Errno Unit)
  | 0, _, _, _ => none
  | requests + 1, cluster, index, version =>
    match rpc (istCursor index version) with
    | .error code => some (cluster, refuse code)
    | .ok response => match istTurn apply cluster index version response with
      | (after, .error stop) => some (after, .error stop)
      | (after, .ok none) => some (after, .ok ())
      | (after, .ok (some cursor)) => recoverTurns rpc apply requests after cursor.1 cursor.2

/-! ### The table holds the ids of the page so far -/

section Table

omit [Zlib]

theorem doubled_spec {target turns exponent : Nat} (enough : target ≤ 2 ^ (exponent + turns)) :
    (∃ larger, doubled target turns (2 ^ exponent) = 2 ^ larger) ∧
      target ≤ doubled target turns (2 ^ exponent) := by
  induction turns generalizing exponent with
  | zero => exact ⟨⟨exponent, rfl⟩, enough⟩
  | succ turns inductionHypothesis =>
    rw [doubled, ← pow_succ]
    split
    · refine inductionHypothesis ?_
      rw [Nat.add_right_comm]
      exact enough
    · rename_i reached
      exact ⟨⟨exponent, rfl⟩, not_lt.mp reached⟩

/-- The capacity is a power of two that leaves half of the table free. -/
theorem seenCapacity_spec {count : Nat} (small : count < 2 ^ 32) :
    (∃ exponent, seenCapacity count = 2 ^ exponent) ∧ count * 2 ≤ seenCapacity count := by
  have enough : count * 2 ≤ 2 ^ (0 + 64) := by omega
  exact doubled_spec enough

/-- The loop over the table for an id and any hash function, with a bound on its turns. -/
def seenProbe (hash : TransactionId → UInt64) (seen : List (Option TransactionId))
    (id : TransactionId) (turns : Nat) : Option Probing.Landing :=
  Probing.walk (seenNext seen.length) seen id turns ((hash id).toNat &&& (seen.length - 1))

/-- In a table that is not full, one round of the loop finds the id or the slot where it belongs. -/
theorem seenProbe_found {hash : TransactionId → UInt64} {slots : List (Option TransactionId)}
    {ids : List TransactionId} (holds : Probing.Holds (fun id => (hash id).toNat) slots ids)
    (power : ∃ exponent, slots.length = 2 ^ exponent) (room : ids.length < slots.length)
    (id : TransactionId) :
    Probing.Found (fun id => (hash id).toNat) slots ids id
      (seenProbe hash slots id slots.length) := by
  obtain ⟨exponent, power⟩ := power
  have start : (hash id).toNat &&& (slots.length - 1) = (hash id).toNat % slots.length := by
    rw [power, Nat.and_two_pow_sub_one_eq_mod]
  have following : ∀ position < slots.length,
      seenNext slots.length position = (position + 1) % slots.length := by
    intro position _
    rw [seenNext, power, Nat.and_two_pow_sub_one_eq_mod]
  rw [seenProbe, start]
  exact Probing.walk_found holds room following id

/-- A table of the ids in a list. -/
structure Seen (slots : List (Option TransactionId)) (ids : List TransactionId) : Prop where
  holds : Probing.Holds (fun id => (c4TransactionHash id).toNat) slots ids
  power : ∃ exponent, slots.length = 2 ^ exponent

/-- The table refuses an id that it holds and takes any other, while it is not full. -/
theorem Seen.add {slots : List (Option TransactionId)} {ids : List TransactionId}
    (seen : Seen slots ids) (room : ids.length < slots.length) (id : TransactionId) :
    (id ∈ ids ∧ seenAdd slots id = refuse .eexist) ∨
      (id ∉ ids ∧ ∃ next, seenAdd slots id = .ok next ∧ next.length = slots.length ∧
        Seen next (id :: ids)) := by
  have found := seenProbe_found seen.holds seen.power room id
  unfold seenProbe at found
  unfold seenAdd seenHome
  generalize Probing.walk (seenNext slots.length) slots id slots.length
    ((c4TransactionHash id).toNat &&& (slots.length - 1)) = landing at found
  cases found with
  | stored member => exact Or.inl ⟨member, rfl⟩
  | free new position inside holds =>
    refine Or.inr ⟨new, _, put_of_inside inside (some id), List.length_set, holds, ?_⟩
    rw [List.length_set]
    exact seen.power

theorem seen_blank {count : Nat} (small : count < 2 ^ 32) :
    Seen (List.replicate (seenCapacity count) none) [] where
  holds := Probing.holds_blank _ _
  power := by
    rw [List.length_replicate]
    exact (seenCapacity_spec small).1

end Table

/-! ### Nothing is read outside -/

/-- The decoding of an entry that lies inside of the payload. -/
theorem loadLogEntry_eq {payload : List UInt8} {offset size : Nat}
    (inside : offset + size ≤ payload.length) :
    loadLogEntry payload offset size =
      lift (c4LogEntryDecode ((payload.drop offset).take size)) := by
  generalize window : (payload.drop offset).take size = bytes
  have length : bytes.length = size := by
    rw [← window, List.length_take, List.length_drop]
    omega
  unfold loadLogEntry c4LogEntryDecode
  by_cases short : size < c4LogHeaderSize
  · rw [if_pos (Or.inl (length ▸ short))]
    simp only [short, reject_bind, if_true, lift_error]
  have header : (payload.drop offset).take c4LogHeaderSize = bytes.take c4LogHeaderSize := by
    rw [← window, List.take_take, min_eq_left (not_lt.mp short)]
  have field : ∀ start count, start + count ≤ c4LogHeaderSize →
      ((bytes.take c4LogHeaderSize).drop start).take count = (bytes.drop start).take count := by
    intro start count fits
    rw [List.drop_take, List.take_take, min_eq_left (by omega)]
  have magic : (bytes.take c4LogHeaderSize).take 4 = bytes.take 4 := by
    rw [List.take_take, min_eq_left (by decide)]
  have word32 : ∀ start, start + 4 ≤ c4LogHeaderSize →
      wireGetU32 ((bytes.take c4LogHeaderSize).drop start) = wireGetU32 (bytes.drop start) := by
    intro start fits
    rw [← wireGetU32_take, field start 4 fits, wireGetU32_take]
  have word64 : ∀ start, start + 8 ≤ c4LogHeaderSize →
      wireGetU64 ((bytes.take c4LogHeaderSize).drop start) = wireGetU64 (bytes.drop start) := by
    intro start fits
    rw [← wireGetU64_take, field start 8 fits, wireGetU64_take]
  rw [load_of_inside (by omega), header]
  simp only [short, reject_bind, if_false, ok_bind, magic, length, false_or,
    word32 36 (by decide)]
  by_cases foreign : bytes.take 4 ≠ c4LogMagic
  · rw [if_pos foreign, if_pos foreign]
    rfl
  rw [if_neg foreign, if_neg foreign]
  by_cases fits : (wireGetU32 (bytes.drop 36)).toNat ≤ maxPayloadSize ∧
      size = c4LogHeaderSize + (wireGetU32 (bytes.drop 36)).toNat
  · rw [dif_pos fits, dif_pos fits, load_of_inside (by omega), ok_bind]
    have data : bytes.drop c4LogHeaderSize = (payload.drop (offset + c4LogHeaderSize)).take
        (wireGetU32 (bytes.drop 36)).toNat := by
      calc bytes.drop c4LogHeaderSize
          = ((payload.drop offset).take size).drop c4LogHeaderSize := by rw [window]
        _ = (payload.drop (offset + c4LogHeaderSize)).take (size - c4LogHeaderSize) := by
          rw [List.drop_take, List.drop_drop]
        _ = _ := by rw [fits.2, Nat.add_sub_cancel_left]
    have read : ∀ (data : List UInt8) (bound : data.length < 2 ^ 32),
        c4LogEntryRead (bytes.take c4LogHeaderSize) data bound = c4LogEntryRead bytes data bound := by
      intro data bound
      unfold c4LogEntryRead
      rw [word64 4 (by decide), word64 12 (by decide), word32 40 (by decide), ← Octets.read_take,
        field 20 transactionIdSize (by decide), Octets.read_take]
    simp only [read, data, List.take_take, min_self]
    split <;> rfl
  · rw [dif_neg fits, dif_neg fits]
    rfl

omit [Zlib] in
/-- The failures of the decoding are all one to the caller. -/
theorem asBadMessage_lift (decoded : Except Errno C4LogEntry) :
    asBadMessage (lift decoded) = match decoded with
      | .error _ => refuse .ebadmsg
      | .ok entry => .ok entry := by
  cases decoded <;> rfl

/-- The validation over memory is the one over lists. The induction is on the number of items left;
the table holds the ids of the items before and has room for the others. -/
theorem loadIstItems_eq (log : C4Log) {payload : List UInt8} (large : 4 ≤ payload.length)
    (small : payload.length < 2 ^ 32) {count : Nat} {cursor : UInt32}
    (inside : cursor.toNat ≤ payload.length) (index version : UInt64)
    {slots : List (Option TransactionId)} {ids : List TransactionId} (seen : Seen slots ids)
    (room : ids.length + count ≤ slots.length) :
    loadIstItems log payload count cursor index version slots =
      lift (istItems log payload count cursor.toNat index version ids) := by
  have size : (UInt32.ofNat payload.length).toNat = payload.length := by
    rw [UInt32.toNat_ofNat', Nat.mod_eq_of_lt small]
  induction count generalizing cursor index version slots ids with
  | zero =>
    rw [loadIstItems, istItems, reject_bind]
    have atEnd : cursor = UInt32.ofNat payload.length ↔ cursor.toNat = payload.length := by
      rw [← UInt32.toNat_inj, size]
    by_cases ended : cursor.toNat = payload.length
    · rw [if_neg (not_not.mpr (atEnd.mpr ended)), if_neg (not_not.mpr ended)]
      rfl
    · rw [if_pos fun same => ended (atEnd.mp same), if_pos ended]
      rfl
  | succ count inductionHypothesis =>
    have last : (UInt32.ofNat payload.length - 4).toNat = payload.length - 4 := by
      rw [UInt32.toNat_sub_of_le _ _ (UInt32.le_iff_toNat_le.mpr (size.symm ▸ large)), size]
      rfl
    rw [loadIstItems, istItems]
    dsimp only
    rw [reject_bind]
    by_cases past : cursor.toNat > payload.length - 4
    · rw [if_pos past, if_pos (UInt32.lt_iff_toNat_lt.mpr (last.symm ▸ past))]
      rfl
    rw [if_neg past, if_neg fun later => past (last ▸ UInt32.lt_iff_toNat_lt.mp later)]
    have start : (cursor + 4).toNat = cursor.toNat + 4 := by
      rw [UInt32.toNat_add]
      exact Nat.mod_eq_of_lt (by show cursor.toNat + 4 < 2 ^ 32; omega)
    have left : (UInt32.ofNat payload.length - (cursor + 4)).toNat =
        payload.length - (cursor.toNat + 4) := by
      rw [UInt32.toNat_sub_of_le, size, start]
      rw [UInt32.le_iff_toNat_le, size, start]
      omega
    rw [load_of_inside (by omega), ok_map, ok_bind, wireGetU32_take, reject_bind]
    generalize wireGetU32 (payload.drop cursor.toNat) = encodedSize
    by_cases cut : encodedSize.toNat > payload.length - (cursor.toNat + 4)
    · rw [if_pos cut, if_pos (UInt32.lt_iff_toNat_lt.mpr (left.symm ▸ cut))]
      rfl
    rw [if_neg cut, if_neg fun longer => cut (left ▸ UInt32.lt_iff_toNat_lt.mp longer), start,
      loadLogEntry_eq (by omega), asBadMessage_lift]
    cases c4LogEntryDecode ((payload.drop (cursor.toNat + 4)).take encodedSize.toNat) with
    | error code => rfl
    | ok entry =>
      dsimp only
      rw [ok_bind, reject_bind]
      by_cases misplaced : entry.index ≠ index + 1 ∨ entry.version ≠ version + 1
      · rw [if_pos misplaced, if_pos misplaced]
        rfl
      rw [if_neg misplaced, if_neg misplaced]
      cases c4LogGetTransaction log entry.transactionId with
      | ok old => rfl
      | error code =>
        dsimp only
        rw [reject_bind]
        by_cases failed : code ≠ .enoent
        · rw [if_pos failed, if_pos failed]
          rfl
        rw [if_neg failed, if_neg failed]
        rcases seen.add (by omega) entry.transactionId with
          ⟨old, refused⟩ | ⟨new, next, added, same, more⟩
        · rw [refused, if_pos old]
          rfl
        · have moved : (cursor + 4 + encodedSize).toNat =
              cursor.toNat + 4 + encodedSize.toNat := by
            rw [UInt32.toNat_add, start]
            exact Nat.mod_eq_of_lt (by omega)
          rw [added, if_neg new, ok_bind,
            inductionHypothesis (by rw [moved]; omega) entry.index entry.version more (by
              rw [same, List.length_cons]
              omega), moved]
          cases istItems log payload count (cursor.toNat + 4 + encodedSize.toNat) entry.index
            entry.version (entry.transactionId :: ids) <;> rfl

/-- What the receiver accepts of a response that a message can carry. -/
theorem loadIstBatch_eq (log : C4Log) (index version : UInt64) {response : Message}
    (small : response.payload.length ≤ maxPayloadSize) :
    loadIstBatch log index version response = lift (istReceive log index version response) := by
  have short : response.payload.length < 2 ^ 32 := length_lt_of_le_maxPayloadSize small
  have size : (UInt32.ofNat response.payload.length).toNat = response.payload.length := by
    rw [UInt32.toNat_ofNat', Nat.mod_eq_of_lt short]
  have header : UInt32.ofNat response.payload.length < 4 ↔ response.payload.length < 4 := by
    rw [UInt32.lt_iff_toNat_lt, size]
    rfl
  unfold loadIstBatch istReceive
  dsimp only
  by_cases other : response.messageType ≠ .istBatch ∨ response.payload.length < 4
  · rw [if_pos other, if_pos (other.imp_right header.mpr)]
    split <;> rfl
  rw [if_neg other, if_neg fun same => other (same.imp_right header.mp)]
  rw [not_or, not_lt] at other
  rw [load_of_inside (by omega), ok_map, ok_bind, List.drop_zero, wireGetU32_take]
  generalize wireGetU32 response.payload = count
  by_cases empty : count = 0
  · have zero : count.toNat = 0 := congrArg UInt32.toNat empty
    rw [if_pos empty, if_pos zero, reject_bind]
    by_cases four : response.payload.length = 4
    · rw [four]
      rfl
    · rw [if_pos fun same => four (size.symm.trans (congrArg UInt32.toNat same)), if_pos four]
      rfl
  have positive : ¬ count.toNat = 0 := fun zero => empty (UInt32.toNat_inj.mp zero)
  rw [if_neg empty, if_neg positive, reject_bind]
  have bound : ((UInt32.ofNat response.payload.length - 4) / 48).toNat =
      (response.payload.length - 4) / 48 := by
    rw [UInt32.toNat_div, UInt32.toNat_sub_of_le _ _
      (UInt32.le_iff_toNat_le.mpr (size.symm ▸ other.2)), size]
    rfl
  by_cases more : count.toNat > (response.payload.length - 4) / 48
  · rw [if_pos more, if_pos (UInt32.lt_iff_toNat_lt.mpr (bound.symm ▸ more))]
    rfl
  rw [if_neg more, if_neg fun less => more (bound ▸ UInt32.lt_iff_toNat_lt.mp less)]
  have inside : (4 : UInt32).toNat ≤ response.payload.length := other.2
  refine loadIstItems_eq log other.2 short inside index version (seen_blank count.toNat_lt) ?_
  have half := (seenCapacity_spec count.toNat_lt).2
  rw [List.length_replicate, List.length_nil]
  omega

/-- Over memory, the transfer is the one over lists: messages carry no larger payloads. -/
theorem recoverTurns_eq {rpc : List UInt8 → Except Errno Message}
    (small : ∀ request response, rpc request = .ok response →
      response.payload.length ≤ maxPayloadSize)
    (apply : C4ApplyEntry Context) (requests : Nat) (cluster : C4Cluster Context)
    (index version : UInt64) :
    recoverTurns rpc apply requests cluster index version =
      (recoverLoop rpc apply requests cluster index version).map fun result =>
        (result.1, lift result.2) := by
  induction requests generalizing cluster index version with
  | zero => rfl
  | succ requests inductionHypothesis =>
    rw [recoverTurns, recoverLoop]
    cases reply : rpc (istCursor index version) with
    | error code => rfl
    | ok response =>
      dsimp only
      rw [istTurn, loadIstBatch_eq _ _ _ (small _ response reply)]
      cases istReceive cluster.log index version response with
      | error code => rfl
      | ok entries =>
        rw [lift_ok]
        dsimp only
        cases entries.getLast? with
        | none => rfl
        | some last =>
          dsimp only
          generalize istAppend apply cluster entries = appended
          obtain ⟨after, outcome⟩ := appended
          cases outcome with
          | error code => rfl
          | ok => exact inductionHypothesis after last.index last.version

/-! ### What a page is -/

/-- The bytes of a page. -/
def istPage (entries : List C4LogEntry) : List UInt8 :=
  wirePutU32 (UInt32.ofNat entries.length) ++ itemsOf entries

/-- Entries that go on where a log ends: consecutive, with their right checksums, and with
transaction ids that are new and pairwise distinct. -/
structure Continues (log : C4Log) (entries : List C4LogEntry) : Prop where
  numbered : ∀ position entry, entries[position]? = some entry →
    entry.index.toNat = (c4LogLastIndex log).toNat + position + 1 ∧
      entry.version.toNat = (c4LogLastVersion log).toNat + position + 1
  checksum : ∀ entry ∈ entries, entry.checksum = c4LogEntryChecksum entry
  new : NewTo log entries
  distinct : KeyedList.Distinct C4LogEntry.transactionId entries

/-- What the validation accepts, from a cursor on. -/
structure EntriesAccepted (log : C4Log) (rest : List UInt8) (count : Nat) (index : UInt64)
    (seen : List TransactionId) (entries : List C4LogEntry) : Prop where
  bytes : rest = itemsOf entries
  count : entries.length = count
  follows : Follows index entries
  new : NewTo log entries
  distinct : KeyedList.Distinct C4LogEntry.transactionId entries
  unseen : ∀ entry ∈ entries, entry.transactionId ∉ seen

theorem istItems_accepted {log : C4Log} {payload : List UInt8} {count cursor : Nat}
    {index : UInt64} {seen : List TransactionId} {entries : List C4LogEntry}
    (large : 4 ≤ payload.length)
    (accepted : istItems log payload count cursor index index seen = .ok entries) :
    EntriesAccepted log (payload.drop cursor) count index seen entries := by
  induction count generalizing cursor index seen entries with
  | zero =>
    rw [istItems] at accepted
    by_cases ended : cursor = payload.length
    · rw [if_neg (not_not.mpr ended)] at accepted
      cases accepted
      exact ⟨by rw [ended, List.drop_length]; rfl, rfl, trivial,
        fun _ inside => absurd inside List.not_mem_nil, List.Pairwise.nil,
        fun _ inside => absurd inside List.not_mem_nil⟩
    · rw [if_pos ended] at accepted
      cases accepted
  | succ count inductionHypothesis =>
    rw [istItems] at accepted
    by_cases past : cursor > payload.length - 4
    · rw [if_pos past] at accepted
      cases accepted
    rw [if_neg past] at accepted
    dsimp only at accepted
    by_cases cut : (wireGetU32 (payload.drop cursor)).toNat > payload.length - (cursor + 4)
    · rw [if_pos cut] at accepted
      cases accepted
    rw [if_neg cut] at accepted
    cases decoded : c4LogEntryDecode ((payload.drop (cursor + 4)).take
        (wireGetU32 (payload.drop cursor)).toNat) with
    | error code =>
      rw [decoded] at accepted
      cases accepted
    | ok entry =>
      rw [decoded] at accepted
      dsimp only at accepted
      by_cases misplaced : entry.index ≠ index + 1 ∨ entry.version ≠ index + 1
      · rw [if_pos misplaced] at accepted
        cases accepted
      rw [if_neg misplaced] at accepted
      rw [not_or, not_not, not_not] at misplaced
      cases found : findEntry log entry.transactionId with
      | some old =>
        rw [c4LogGetTransaction, found] at accepted
        cases accepted
      | none =>
        rw [c4LogGetTransaction, found] at accepted
        dsimp only at accepted
        rw [if_neg (not_not.mpr rfl)] at accepted
        by_cases repeated : entry.transactionId ∈ seen
        · rw [if_pos repeated] at accepted
          cases accepted
        rw [if_neg repeated, misplaced.2, ← misplaced.1] at accepted
        cases later : istItems log payload count
            (cursor + 4 + (wireGetU32 (payload.drop cursor)).toNat) entry.index entry.index
            (entry.transactionId :: seen) with
        | error failure =>
          rw [later] at accepted
          cases accepted
        | ok others =>
          rw [later] at accepted
          cases accepted
          have rest := inductionHypothesis later
          obtain ⟨index0, version0, checksum, small, size⟩ := c4LogEntryDecode_ok decoded
          have record : (payload.drop (cursor + 4)).take
              (wireGetU32 (payload.drop cursor)).toNat = c4LogRecord entry :=
            eq_of_c4LogEntryDecode decoded
          refine ⟨?_, by rw [List.length_cons, rest.count],
            ⟨misplaced.1, misplaced.2.trans misplaced.1.symm, ⟨index0, version0, small, checksum⟩,
              rest.follows⟩, newTo_cons.mpr ⟨found, rest.new⟩, ?_, ?_⟩
          · have length : (c4LogRecord entry).length = (wireGetU32 (payload.drop cursor)).toNat := by
              rw [← record, List.length_take, List.length_drop]
              omega
            have width : UInt32.ofNat (c4LogRecord entry).length =
                wireGetU32 (payload.drop cursor) := by
              rw [length, UInt32.ofNat_toNat]
            have enough : 4 ≤ (payload.drop cursor).length := by
              rw [List.length_drop]
              omega
            show payload.drop cursor = istItem (c4LogRecord entry) ++ itemsOf others
            rw [istItem, width, wirePutU32_wireGetU32 enough, List.append_assoc, ← rest.bytes,
              ← record, ← drop_eq_take_append, ← drop_eq_take_append]
          · refine List.pairwise_cons.mpr ⟨fun other member same => ?_, rest.distinct⟩
            exact rest.unseen other member (same ▸ List.mem_cons_self)
          · intro other member inSeen
            rcases List.mem_cons.mp member with rfl | inOthers
            · exact repeated inSeen
            · exact rest.unseen other inOthers (List.mem_cons_of_mem _ inSeen)

/-- The receiver accepts pages only, of entries that follow its cursor and repeat nothing. -/
theorem istReceive_accepted {log : C4Log} {response : Message} {index : UInt64}
    {entries : List C4LogEntry} (accepted : istReceive log index index response = .ok entries) :
    response.payload = istPage entries ∧ Follows index entries ∧ NewTo log entries ∧
      KeyedList.Distinct C4LogEntry.transactionId entries := by
  unfold istReceive at accepted
  by_cases other : response.messageType ≠ .istBatch ∨ response.payload.length < 4
  · rw [if_pos other] at accepted
    split at accepted <;> cases accepted
  rw [if_neg other] at accepted
  rw [not_or, not_lt] at other
  have split := @drop_eq_take_append response.payload 0 4
  have count := wirePutU32_wireGetU32 other.2
  rw [List.drop_zero, ← count, Nat.zero_add] at split
  have page : ∀ entries : List C4LogEntry, entries.length = (wireGetU32 response.payload).toNat →
      response.payload.drop 4 = itemsOf entries → response.payload = istPage entries := by
    intro entries length items
    rw [istPage, length, UInt32.ofNat_toNat, ← items, ← split]
  dsimp only at accepted
  by_cases empty : (wireGetU32 response.payload).toNat = 0
  · rw [if_pos empty] at accepted
    by_cases four : response.payload.length = 4
    · rw [if_neg (not_not.mpr four)] at accepted
      cases accepted
      refine ⟨page [] empty.symm ?_, trivial, nofun, List.Pairwise.nil⟩
      rw [← four, List.drop_length]
      rfl
    · rw [if_pos four] at accepted
      cases accepted
  rw [if_neg empty] at accepted
  by_cases many : (wireGetU32 response.payload).toNat > (response.payload.length - 4) / 48
  · rw [if_pos many] at accepted
    cases accepted
  rw [if_neg many] at accepted
  have items := istItems_accepted other.2 accepted
  exact ⟨page entries items.count items.bytes, items.follows, items.new, items.distinct⟩

/-! ### Pages that a log takes -/

omit [Zlib] in
theorem length_fileOf (records : List C4LogEntry) :
    44 * records.length ≤ (fileOf records).length := by
  induction records with
  | nil => exact Nat.zero_le _
  | cons entry rest inductionHypothesis =>
    have split : fileOf (entry :: rest) = c4LogRecord entry ++ fileOf rest := rfl
    rw [split, List.length_append, length_c4LogRecord, List.length_cons]
    omega

theorem length_of_scan {records : List C4LogEntry} {log next : C4Log}
    (done : records.foldlM C4Log.scanEntry log = .ok next) :
    next.entries.length ≤ log.entries.length + records.length := by
  induction records generalizing log with
  | nil =>
    cases done
    exact Nat.le_refl _
  | cons entry rest inductionHypothesis =>
    rw [List.foldlM_cons] at done
    obtain ⟨middle, first, later⟩ := bind_eq_ok.mp done
    have step : middle.entries.length ≤ log.entries.length + 1 := by
      have outcome := appendLocked_outcome log entry
      rw [C4Log.scanEntry_eq] at first
      generalize appendLocked log entry true = result at outcome first
      cases outcome with
      | refused code => cases first
      | repeated sound found =>
        cases first
        exact Nat.le_succ _
      | appended fits absent =>
        cases first
        rw [C4Log.withEntry_entries, List.length_append, List.length_singleton]
    have rest := inductionHypothesis later
    rw [List.length_cons]
    omega

/-- A file has at least the bytes of the entries that it loads as. -/
theorem C4Log.Loads.length_le {file : List UInt8} {entries : List C4LogEntry}
    (loads : C4Log.Loads file entries) : 44 * entries.length ≤ file.length := by
  obtain ⟨records, rfl, -, scanned⟩ := loads
  have few := length_of_scan scanned
  have bytes := length_fileOf records
  change entries.length ≤ 0 + records.length at few
  omega

omit [Zlib] in
theorem length_itemsOf (entries : List C4LogEntry) :
    48 * entries.length ≤ (itemsOf entries).length := by
  induction entries with
  | nil => exact Nat.zero_le _
  | cons entry rest inductionHypothesis =>
    have split : itemsOf (entry :: rest) = istItem (c4LogRecord entry) ++ itemsOf rest := rfl
    rw [split, List.length_append, length_istItem, length_c4LogRecord, List.length_cons]
    omega

/-- Entries that follow the end of a valid log extend it validly, as long as the array of the log
can hold them. -/
theorem validEntries_of_follows {front rest : List C4LogEntry} {index : UInt64}
    (valid : C4Log.ValidEntries front) (atEnd : index.toNat = front.length)
    (follows : Follows index rest)
    (new : ∀ entry ∈ rest, KeyedList.lookup C4LogEntry.transactionId front entry.transactionId = none)
    (distinct : KeyedList.Distinct C4LogEntry.transactionId rest)
    (room : front.length + rest.length ≤ entryCapacity) : C4Log.ValidEntries (front ++ rest) := by
  induction rest generalizing front index with
  | nil =>
    rw [List.append_nil]
    exact valid
  | cons entry rest inductionHypothesis =>
    obtain ⟨next, version, sound, later⟩ := follows
    obtain ⟨apart, restDistinct⟩ := List.pairwise_cons.mp distinct
    rw [List.length_cons] at room
    have number : entry.index.toNat = front.length + 1 := by
      rw [next, UInt64.toNat_add, atEnd]
      unfold entryCapacity at room
      exact Nat.mod_eq_of_lt (by show front.length + 1 < 2 ^ 64; omega)
    have index : entry.index = nextIndex (C4Log.holding front) := by
      refine UInt64.toNat_inj.mp ?_
      rw [@C4Log.toNat_nextIndex _ (C4Log.holding front) valid]
      exact number
    have fits : (C4Log.holding front).Extends entry :=
      ⟨sound, index, by rw [version, index, C4Log.nextVersion_eq_nextIndex valid], by
        show front.length < _
        omega⟩
    have extended : C4Log.ValidEntries (front ++ [entry]) :=
      @C4Log.ValidEntries.append _ (C4Log.holding front) valid _ fits (new entry List.mem_cons_self)
    have whole := inductionHypothesis extended (by rw [number, List.length_append]; rfl) later ?_
      restDistinct (by rw [List.length_append, List.length_singleton]; omega)
    · rw [List.append_assoc] at whole
      exact whole
    · intro other member
      rw [KeyedList.lookup_append, new other (List.mem_cons_of_mem _ member), Option.none_or,
        KeyedList.lookup_singleton, if_neg (apart other member)]

/-- The log with a page appended. -/
def C4Log.withPage (log : C4Log) (entries : List C4LogEntry) : C4Log :=
  { log with entries := log.entries ++ entries, file := log.file ++ fileOf entries }

omit [Zlib] in
theorem C4Log.withPage_nil (log : C4Log) : log.withPage [] = log := by
  simp [withPage, fileOf]

omit [Zlib] in
theorem C4Log.withPage_cons (log : C4Log) (entry : C4LogEntry) (rest : List C4LogEntry) :
    log.withPage (entry :: rest) = (log.withEntry entry).withPage rest := by
  simp [withPage, withEntry, fileOf]

/-- An entry whose transaction is new is appended, if the call succeeds. -/
theorem log_of_appendAndApply {apply : C4ApplyEntry Context} {cluster after : C4Cluster Context}
    {entry : C4LogEntry} (absent : findEntry cluster.log entry.transactionId = none)
    (done : appendAndApply apply cluster entry = (after, .ok ())) :
    after.log = cluster.log.withEntry entry := by
  have outcome := appendLocked_outcome cluster.log entry
  rw [appendAndApply, c4LogAppendEntry] at done
  generalize appendLocked cluster.log entry true = result at outcome done
  cases outcome with
  | refused code => cases done
  | repeated sound found =>
    rw [absent] at found
    cases found
  | appended fits _ =>
    have same := congrArg Prod.fst done
    rw [show after = _ from same.symm]
    rfl

/-- A page whose transactions are new is appended as a whole, if the loop succeeds. -/
theorem log_of_istAppend {apply : C4ApplyEntry Context} {cluster after : C4Cluster Context}
    {page : List C4LogEntry} (new : NewTo cluster.log page)
    (distinct : KeyedList.Distinct C4LogEntry.transactionId page)
    (done : istAppend apply cluster page = (after, .ok ())) :
    after.log = cluster.log.withPage page := by
  induction page generalizing cluster with
  | nil =>
    cases done
    rw [C4Log.withPage_nil]
  | cons entry rest inductionHypothesis =>
    obtain ⟨apart, restDistinct⟩ := List.pairwise_cons.mp distinct
    obtain ⟨absent, restNew⟩ := newTo_cons.mp new
    rw [istAppend] at done
    cases first : appendAndApply apply cluster entry with
    | mk middle result =>
      cases result with
      | error code =>
        rw [first] at done
        cases done
      | ok =>
        rw [first] at done
        have grown := log_of_appendAndApply absent first
        have later : NewTo middle.log rest := by
          intro other member
          rw [grown, findEntry, C4Log.withEntry_entries, KeyedList.lookup_append,
            KeyedList.lookup_singleton, if_neg (apart other member), Option.or_none]
          exact restNew other member
        rw [inductionHypothesis later restDistinct done, grown, C4Log.withPage_cons]

/-- A page that extends the log validly is appended as a whole, if the callback accepts its
entries. -/
theorem istAppend_of_accepts {apply : C4ApplyEntry Context}
    (accepts : ∀ context entry, (apply context entry).2 = .ok ()) {cluster : C4Cluster Context}
    {page : List C4LogEntry} (valid : C4Log.ValidEntries (cluster.log.entries ++ page)) :
    istAppend apply cluster page =
      ({ cluster with
          log := cluster.log.withPage page
          context := contextAfter apply cluster.context page }, .ok ()) := by
  induction page generalizing cluster with
  | nil =>
    rw [C4Log.withPage_nil]
    rfl
  | cons entry rest inductionHypothesis =>
    obtain ⟨fits, absent⟩ := valid.next
    have restValid : C4Log.ValidEntries ((cluster.log.withEntry entry).entries ++ rest) := by
      rw [C4Log.withEntry_entries, List.append_assoc]
      exact valid
    have later := @inductionHypothesis { cluster with
      log := cluster.log.withEntry entry
      context := (apply cluster.context entry).1 } restValid
    rw [istAppend, appendAndApply_of_extends apply fits absent, accepts]
    dsimp only
    rw [later, C4Log.withPage_cons]
    rfl

theorem reachable_istAppend (apply : C4ApplyEntry Context) {cluster : C4Cluster Context}
    (reachable : cluster.log.Reachable) (page : List C4LogEntry) :
    (istAppend apply cluster page).1.log.Reachable := by
  induction page generalizing cluster with
  | nil => exact reachable
  | cons entry rest inductionHypothesis =>
    have step : (appendAndApply apply cluster entry).1.log.Reachable := by
      have acted := reachable.acted (.call (.appendEntry entry))
      change (c4LogAppendEntry cluster.log entry).1.Reachable at acted
      rw [appendAndApply]
      generalize c4LogAppendEntry cluster.log entry = result at acted
      obtain ⟨log, outcome⟩ := result
      cases outcome with
      | error code => exact reachable
      | ok => exact acted
    rw [istAppend]
    generalize appendAndApply apply cluster entry = result at step
    obtain ⟨middle, outcome⟩ := result
    cases outcome with
    | error code => exact step
    | ok => exact inductionHypothesis step

/-! ### A page is taken as a whole or not at all -/

/-- How `c4_recover_from_member` can end with a page: it refuses the page and leaves everything as
it was, or the page is one of entries that go on where the log ends, and it appends them. -/
inductive IntakeOutcome (apply : C4ApplyEntry Context) (cluster : C4Cluster Context)
    (payload : List UInt8) : C4Cluster Context × Access Errno (Option (UInt64 × UInt64)) → Prop
  | rejected (code : Errno)
      (unfit : ∀ entries, payload = istPage entries → ¬ Continues cluster.log entries) :
      IntakeOutcome apply cluster payload (cluster, refuse code)
  | applied (entries : List C4LogEntry) (page : payload = istPage entries)
      (count : (wireGetU32 payload).toNat = entries.length)
      (continues : Continues cluster.log entries) :
      IntakeOutcome apply cluster payload
        ({ cluster with
            log := cluster.log.withPage entries
            context := contextAfter apply cluster.context entries },
          .ok (entries.getLast?.map fun last => (last.index, last.version)))

/-- The states of the loop of `c4_recover_from_member` at a request, with the cursor, whatever the
member has answered before. -/
inductive AtRequest (apply : C4ApplyEntry Context) (start : C4Cluster Context) :
    C4Cluster Context → UInt64 → UInt64 → Prop
  | first : AtRequest apply start start (c4LogLastIndex start.log) (c4LogLastVersion start.log)
  | next {cluster after : C4Cluster Context} {index version nextIndex nextVersion : UInt64}
      (earlier : AtRequest apply start cluster index version) (response : Message)
      (small : response.payload.length ≤ maxPayloadSize)
      (turn : istTurn apply cluster index version response =
        (after, .ok (some (nextIndex, nextVersion)))) :
      AtRequest apply start after nextIndex nextVersion

/-- The cursor is at the end of the log. -/
theorem AtRequest.cursor {apply : C4ApplyEntry Context} {start cluster : C4Cluster Context}
    {index version : UInt64} (atRequest : AtRequest apply start cluster index version)
    (reachable : start.log.Reachable) :
    cluster.log.Reachable ∧ index = c4LogLastIndex cluster.log ∧
      version = c4LogLastVersion cluster.log := by
  induction atRequest with
  | first => exact ⟨reachable, rfl, rfl⟩
  | @next cluster after index version nextIndex nextVersion earlier response small turn
      inductionHypothesis =>
    obtain ⟨before, rfl, rfl⟩ := inductionHypothesis
    obtain ⟨same, atEnd⟩ := cursor_of_valid before.consistent.entries
    rw [istTurn, same, loadIstBatch_eq _ _ _ small] at turn
    cases received : istReceive cluster.log (c4LogLastIndex cluster.log)
        (c4LogLastIndex cluster.log) response with
    | error code =>
      rw [received] at turn
      cases turn
    | ok entries =>
      rw [received, lift_ok] at turn
      dsimp only at turn
      cases found : entries.getLast? with
      | none =>
        rw [found] at turn
        cases turn
      | some last =>
        rw [found] at turn
        dsimp only at turn
        have appended := reachable_istAppend apply before entries
        cases outcome : istAppend apply cluster entries with
        | mk middle result =>
          cases result with
          | error code =>
            rw [outcome] at turn
            cases turn
          | ok =>
            rw [outcome] at turn appended
            cases turn
            obtain ⟨-, -, new, distinct⟩ := istReceive_accepted received
            have grown := log_of_istAppend new distinct outcome
            have valid := appended.consistent.entries
            obtain ⟨sameAfter, endAfter⟩ := cursor_of_valid valid
            dsimp only at valid
            rw [grown] at valid
            obtain ⟨lastVersion, lastIndex⟩ := index_of_getLast valid found
            have index : last.index = c4LogLastIndex after.log := by
              refine UInt64.toNat_inj.mp ?_
              rw [lastIndex, endAfter, grown]
              rfl
            exact ⟨appended, index, by rw [lastVersion, index, sameAfter]⟩

omit [Zlib] in
theorem length_item_le {entries : List C4LogEntry} {entry : C4LogEntry} (member : entry ∈ entries) :
    48 + entry.payload.length ≤ (itemsOf entries).length := by
  induction entries with
  | nil => cases member
  | cons first rest inductionHypothesis =>
    have split : itemsOf (first :: rest) = istItem (c4LogRecord first) ++ itemsOf rest := rfl
    rw [split, List.length_append, length_istItem, length_c4LogRecord]
    rcases List.mem_cons.mp member with rfl | inRest
    · omega
    · have later := inductionHypothesis inRest
      omega

omit [Zlib] in
/-- The entries of a page that a message can carry are small, and the page is not the last one that
the file of the log has room for. -/
theorem istPage_small {entries : List C4LogEntry} {payload : List UInt8}
    (page : payload = istPage entries) (small : payload.length ≤ maxPayloadSize) :
    4 + (itemsOf entries).length ≤ maxPayloadSize ∧
      (∀ entry ∈ entries, entry.payload.length ≤ maxPayloadSize - 52) ∧
      48 * entries.length ≤ payload.length := by
  have length : payload.length = 4 + (itemsOf entries).length := by
    rw [page, istPage, List.length_append, length_wirePutU32]
  have items := length_itemsOf entries
  rw [length] at small ⊢
  refine ⟨small, fun entry member => ?_, by omega⟩
  have item := length_item_le member
  unfold maxPayloadSize at small ⊢
  omega

/-- Entries that continue a valid log extend it validly. -/
theorem Continues.valid {cluster : C4Cluster Context} {entries : List C4LogEntry}
    (continues : Continues cluster.log entries) (valid : C4Log.ValidEntries cluster.log.entries)
    (small : ∀ entry ∈ entries, entry.payload.length ≤ maxPayloadSize)
    (room : cluster.log.entries.length + entries.length ≤ entryCapacity) :
    C4Log.ValidEntries (cluster.log.entries ++ entries) := by
  obtain ⟨same, atEnd⟩ := cursor_of_valid valid
  have placed : ∀ entry ∈ entries, entry.version = entry.index ∧ entry.index ≠ 0 := by
    intro entry member
    obtain ⟨position, found⟩ := List.mem_iff_getElem?.mp member
    obtain ⟨index, version⟩ := continues.numbered position entry found
    refine ⟨UInt64.toNat_inj.mp (by rw [index, version, same]), ?_⟩
    rintro zero
    rw [zero] at index
    exact absurd index (by simp)
  refine ⟨?_, ?_, ?_, ?_, by rw [List.length_append]; exact room⟩
  · intro position entry found
    rw [List.getElem?_append] at found
    by_cases old : position < cluster.log.entries.length
    · rw [if_pos old] at found
      exact valid.numbered position entry found
    · rw [if_neg old] at found
      rw [(continues.numbered _ entry found).1, atEnd]
      omega
  · intro entry member
    rcases List.mem_append.mp member with old | new
    · exact valid.version entry old
    · exact (placed entry new).1
  · intro entry member
    rcases List.mem_append.mp member with old | new
    · exact valid.sound entry old
    · obtain ⟨version, nonzero⟩ := placed entry new
      exact ⟨nonzero, by rw [version]; exact nonzero, small entry new, continues.checksum entry new⟩
  · refine List.pairwise_append.mpr ⟨valid.distinct, continues.distinct, ?_⟩
    intro old inOld entry inRest
    exact KeyedList.lookup_eq_none.mp (continues.new entry inRest) old inOld

/-- Entries that extend a valid log validly continue it. -/
theorem continues_of_valid {cluster : C4Cluster Context} {entries : List C4LogEntry}
    (valid : C4Log.ValidEntries (cluster.log.entries ++ entries)) :
    Continues cluster.log entries := by
  obtain ⟨same, atEnd⟩ := cursor_of_valid (valid.of_prefix (List.prefix_append _ _))
  obtain ⟨-, distinct, apart⟩ := List.pairwise_append.mp valid.distinct
  refine ⟨fun position entry found => ?_, fun entry member => ?_, fun entry member => ?_, distinct⟩
  · have placed : (cluster.log.entries ++ entries)[cluster.log.entries.length + position]? =
        some entry := by
      rw [List.getElem?_append_right (Nat.le_add_right _ _), Nat.add_sub_cancel_left]
      exact found
    have index := valid.numbered _ entry placed
    rw [valid.version entry (List.mem_of_getElem? placed), same, atEnd, index]
    exact ⟨rfl, rfl⟩
  · exact (valid.sound entry (List.mem_append_right _ member)).2.2.2
  · exact KeyedList.lookup_eq_none.mpr fun old inOld => apart old inOld entry member

/-- In every transfer to an open log, an `M_IST_BATCH` payload is read inside of its bounds, and
either it is rejected and changes nothing, which happens only if it is not a page of entries that
continue the log, or all of its entries are appended. The file of the log is a file, of a size that
`off_t` can name. -/
theorem ist_batch_all_or_nothing {apply : C4ApplyEntry Context}
    (accepts : ∀ context entry, (apply context entry).2 = .ok ()) {start : C4Cluster Context}
    (reachable : start.log.Reachable) {cluster : C4Cluster Context} {index version : UInt64}
    (atRequest : AtRequest apply start cluster index version) {response : Message}
    (batch : response.messageType = .istBatch)
    (small : response.payload.length ≤ maxPayloadSize)
    (room : cluster.log.file.length + response.payload.length < 2 ^ 63) :
    IntakeOutcome apply cluster response.payload
      (istTurn apply cluster index version response) := by
  obtain ⟨opened, rfl, rfl⟩ := atRequest.cursor reachable
  have valid := opened.consistent.entries
  have loaded := opened.consistent.loads.length_le
  obtain ⟨same, atEnd⟩ := cursor_of_valid valid
  have capacity : ∀ entries : List C4LogEntry, 48 * entries.length ≤ response.payload.length →
      cluster.log.entries.length + entries.length ≤ entryCapacity := by
    intro entries few
    unfold entryCapacity
    omega
  rw [istTurn, same, loadIstBatch_eq _ _ _ small]
  cases received : istReceive cluster.log (c4LogLastIndex cluster.log)
      (c4LogLastIndex cluster.log) response with
  | error code =>
    rw [lift_error]
    refine .rejected code fun entries page continues => ?_
    obtain ⟨size, payloads, few⟩ := istPage_small page small
    have extended := continues.valid valid (fun entry member => (payloads entry member).trans
      (Nat.sub_le _ _)) (capacity entries few)
    rw [istReceive_page cluster.log response (follows_of_valid extended atEnd) payloads
      continues.distinct size batch page, if_pos continues.new] at received
    cases received
  | ok entries =>
    obtain ⟨page, follows, new, distinct⟩ := istReceive_accepted received
    obtain ⟨size, -, few⟩ := istPage_small page small
    have extended := validEntries_of_follows valid atEnd follows new distinct (capacity entries few)
    have outcome : IntakeOutcome apply cluster response.payload _ :=
      .applied entries page (count_of_page size page).1 (continues_of_valid extended)
    rw [lift_ok]
    dsimp only
    cases found : entries.getLast? with
    | none =>
      obtain rfl := List.getLast?_eq_none_iff.mp found
      rw [C4Log.withPage_nil] at outcome
      exact outcome
    | some last =>
      rw [found] at outcome
      rw [istAppend_of_accepts accepts extended]
      exact outcome

end Intake

/-- The response with a page of one entry. -/
def oneEntryPage [Zlib] : Message where
  messageType := .istBatch
  sourceNode := Octets.fill nodeIdSize 2
  destinationNode := Octets.fill nodeIdSize 1
  transactionId := Octets.fill transactionIdSize 0
  payload := istPage (oneEntryLog 2).entries

/-- A page of one entry for a new log. -/
theorem ist_batch_one_entry :
    letI := Zlib.reference
    IntakeOutcome acceptAll (pairCluster 1 2 C4Log.fresh) oneEntryPage.payload
      (istTurn acceptAll (pairCluster 1 2 C4Log.fresh) (c4LogLastIndex C4Log.fresh)
        (c4LogLastVersion C4Log.fresh) oneEntryPage) := by
  let zlib := Zlib.reference
  exact ist_batch_all_or_nothing (fun _ _ => rfl) C4Log.reachable_fresh .first rfl
    (by decide +kernel) (by decide +kernel)

end SuperPeerNet
