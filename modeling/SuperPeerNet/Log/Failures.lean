/-
This file models `c4_log_append_entry` and `c4_log_prepare` under failures of the system: a write
that stops short, an `fsync` that fails and an allocation that is refused. `lseek` and `ftruncate`
succeed.

Both calls write a record first and take the file back to its old size if the write fails. What
comes after a complete write is not taken back: the array or the table may not grow, and the copy
of the entry may not be allocated. An allocation matters before the write as well, since
`c4_log_entry_checksum` answers with zero when it has no memory, which is the right answer for an
entry whose checksum field holds zero and the wrong number.
-/

import SuperPeerNet.Log.Open

namespace SuperPeerNet

variable [Zlib]

/-! ### The outcomes of the system -/

/-- What the system does to the writes of a record: after how many bytes the write of the header
or of the payload fails, if it does, and whether `fsync` fails. -/
structure WriteFaults where
  header : Option Nat
  payload : Option Nat
  sync : Bool
  deriving DecidableEq

/-- What the system does to an append: whether the allocation of `c4_log_entry_checksum`, the
growth of the array or the copy of the payload is refused, and what happens to the writes. -/
structure AppendFaults where
  checksum : Bool
  write : WriteFaults
  grow : Bool
  copy : Bool
  deriving DecidableEq

/-- What the system does to a prepare, in the order of the calls. -/
structure PrepareFaults where
  checksum : Bool
  encodeChecksum : Bool
  encode : Bool
  grow : Bool
  checked : Bool
  write : WriteFaults
  decode : Bool
  decodeChecksum : Bool
  deriving DecidableEq

/-- An open log with the capacities of its array and of its table. -/
structure AllocatedLog where
  log : C4Log
  capacity : Nat
  transactionCapacity : Nat
  deriving DecidableEq

/-- A new log, for which nothing has been allocated. -/
def AllocatedLog.fresh : AllocatedLog := ⟨C4Log.fresh, 0, 0⟩

/-! ### Writing a record -/

omit [Zlib] in
/-- `write_all`: the file, and whether every byte has been written. -/
def writeAll (file bytes : List UInt8) : Option Nat → List UInt8 × Bool
  | none => (file ++ bytes, true)
  | some written => (file ++ bytes.take written, false)

omit [Zlib] in
/-- The writes of `append_locked` and of `journal_record`, with the `ftruncate` that takes them
back. -/
def writeRecord (file header payload : List UInt8) (faults : WriteFaults) : List UInt8 × Bool :=
  let afterHeader := writeAll file header faults.header
  let afterPayload :=
    if afterHeader.2 = true ∧ payload.length > 0 then
      writeAll afterHeader.1 payload faults.payload
    else afterHeader
  if afterPayload.2 = true ∧ faults.sync = false then (afterPayload.1, true)
  else (afterPayload.1.take file.length, false)

/-- `c4_log_entry_checksum`, whose allocation may be refused. -/
def checksumUnder (refused : Bool) (entry : C4LogEntry) : UInt32 :=
  if refused then 0 else c4LogEntryChecksum entry

/-! ### Appending -/

/-- `sizeof(C4LogSlot)`. -/
def c4LogSlotSize : Nat := 48

/-- `sizeof(C4Transaction)`. -/
def c4TransactionSize : Nat := 56

omit [Zlib] in
/-- `reserve_entry` and `reserve_transaction`: the capacity afterwards, if there is room for one
more element of a size. -/
def reserveSlot (size count capacity : Nat) (refused : Bool) : Option Nat :=
  if count = capacity then
    let grown := if capacity = 0 then 16 else capacity * 2
    if grown > (2 ^ 64 - 1) / size then none
    else if refused then none
    else some grown
  else some capacity

omit [Zlib] in
/-- `append_memory`. -/
def appendMemory (state : AllocatedLog) (entry : C4LogEntry) (faults : AppendFaults) :
    AllocatedLog × Bool :=
  match reserveSlot c4LogSlotSize state.log.entries.length state.capacity faults.grow with
  | none => (state, false)
  | some capacity =>
    let reserved := { state with capacity := capacity }
    if entry.payload.length > 0 ∧ faults.copy = true then (reserved, false)
    else ({ reserved with log :=
      { reserved.log with entries := reserved.log.entries ++ [entry] } }, true)

/-- `c4_log_append_entry`: the log, and whether the call returns 0. -/
def appendEntryUnder (state : AllocatedLog) (entry : C4LogEntry) (faults : AppendFaults) :
    AllocatedLog × Bool :=
  if entry.index = 0 ∨ entry.version = 0 ∨ entry.payload.length > maxPayloadSize ∨
      entry.checksum ≠ checksumUnder faults.checksum entry then (state, false)
  else match findEntry state.log entry.transactionId with
    | some old => (state, sameEntry old entry)
    | none =>
      if entry.index ≠ nextIndex state.log ∨ entry.version ≠ nextVersion state.log then
        (state, false)
      else
        let written := writeRecord state.log.file (c4LogHeader entry entry.checksum) entry.payload
          faults.write
        let stored := { state with log := { state.log with file := written.1 } }
        if written.2 = true then appendMemory stored entry faults else (stored, false)

/-! ### Preparing -/

/-- `c4_log_entry_encode`. -/
def entryEncodeUnder (entry : C4LogEntry) (faults : PrepareFaults) : Option (List UInt8) :=
  if entry.checksum ≠ checksumUnder faults.encodeChecksum entry then none
  else if entry.payload.length > maxPayloadSize - c4LogHeaderSize then none
  else if faults.encode then none
  else some (c4LogHeader entry entry.checksum ++ entry.payload)

/-- `c4_log_entry_decode`. -/
def entryDecodeUnder (bytes : List UInt8) (faults : PrepareFaults) : Option C4LogEntry :=
  if bytes.length < c4LogHeaderSize ∨ bytes.take 4 ≠ c4LogMagic then none
  else
    let payloadSize := wireGetU32 (bytes.drop 36)
    if fits : payloadSize.toNat ≤ maxPayloadSize ∧
        bytes.length = c4LogHeaderSize + payloadSize.toNat then
      let entry := c4LogEntryRead bytes (bytes.drop c4LogHeaderSize) (length_payload_lt fits)
      if payloadSize.toNat > 0 ∧ faults.decode = true then none
      else if entry.index = 0 ∨ entry.version = 0 ∨
          entry.checksum ≠ checksumUnder faults.decodeChecksum entry then none
      else some entry
    else none

/-- The header of a journal record. -/
def journalHeader (type : UInt8) (payload : List UInt8) : List UInt8 :=
  c4TxnMagic ++ ([type, 0, 0, 0] ++ (wirePutU32 (UInt32.ofNat payload.length) ++
    wirePutU32 (journalChecksum type payload)))

/-- `journal_record`: the journal, and whether the record has been written. -/
def journalRecordUnder (journal : List UInt8) (type : UInt8) (payload : List UInt8)
    (faults : PrepareFaults) : List UInt8 × Bool :=
  if payload.length > maxPayloadSize then (journal, false)
  else if faults.checked then (journal, false)
  else writeRecord journal (journalHeader type payload) payload faults.write

/-- `c4_log_prepare`: the log, and whether the call returns 0. -/
def prepareUnder (state : AllocatedLog) (entry : C4LogEntry) (faults : PrepareFaults) :
    AllocatedLog × Bool :=
  if entry.index = 0 ∨ entry.version = 0 ∨ entry.checksum ≠ checksumUnder faults.checksum entry then
    (state, false)
  else match findTransaction state.log entry.transactionId with
    | some existing => (state, sameEntry existing.entry entry && existing.state != .aborted)
    | none =>
      if entry.index ≠ (expectedNext state.log).1 ∨ entry.version ≠ (expectedNext state.log).2 then
        (state, false)
      else match entryEncodeUnder entry faults with
        | none => (state, false)
        | some encoded =>
          match reserveSlot c4TransactionSize state.log.transactions.length
              state.transactionCapacity faults.grow with
          | none => (state, false)
          | some capacity =>
            let written := journalRecordUnder state.log.journal c4TxnPrepare encoded faults
            let journaled := { state with
              transactionCapacity := capacity
              log := { state.log with journal := written.1 } }
            if written.2 = true then
              match entryDecodeUnder encoded faults with
              | none => (journaled, false)
              | some decoded =>
                ({ journaled with log := { journaled.log with
                  transactions := journaled.log.transactions ++ [⟨decoded, .prepared⟩] } }, true)
            else (journaled, false)

/-! ### What the files say -/

/-- What a record of the journal says about the table. -/
def tableRecord (rows : List C4Transaction) (type : UInt8) (payload : List UInt8) :
    Option (List C4Transaction) :=
  if type = c4TxnPrepare then
    match c4LogEntryDecode payload with
    | .error _ => none
    | .ok entry => some (rows ++ [⟨entry, .prepared⟩])
  else if payload.length = transactionIdSize then
    let id : TransactionId := Octets.read transactionIdSize payload
    if type = c4TxnCommit then
      some (KeyedList.modify C4Transaction.id (fun row => { row with state := .committed }) id rows)
    else if type = c4TxnAbort then
      if KeyedList.lookup C4Transaction.id rows id = none then some (rows ++ [tombstone id])
      else some
        (KeyedList.modify C4Transaction.id (fun row => { row with state := .aborted }) id rows)
    else none
  else none

/-- The decoding of the journal: its records, each with its checksum verified, are applied to an
empty table. -/
def decodeTable (journal : List UInt8) (rows : List C4Transaction) (offset : Nat) :
    Option (List C4Transaction) :=
  if offset < journal.length then
    let record := journal.drop offset
    if record.length < c4TxnHeaderSize ∨ record.take 4 ≠ c4TxnMagic then none
    else
      let type := (record.drop 4).headD 0
      let payloadSize := (wireGetU32 (record.drop 8)).toNat
      if payloadSize > maxPayloadSize ∨
          offset + c4TxnHeaderSize + payloadSize > journal.length then none
      else
        let payload := (record.drop c4TxnHeaderSize).take payloadSize
        if journalChecksum type payload ≠ wireGetU32 (record.drop 12) then none
        else match tableRecord rows type payload with
          | none => none
          | some next => decodeTable journal next (offset + (c4TxnHeaderSize + payloadSize))
  else some rows
termination_by journal.length - offset
decreasing_by
  unfold c4TxnHeaderSize
  omega

/-- The committed log in memory is the decoding of the `C4LG` file, and the table in memory is the
decoding of the journal. -/
structure InStep (log : C4Log) : Prop where
  entries : ∃ loaded, loadEntries log.file C4Log.fresh 0 = .ok loaded ∧
    loaded.entries = log.entries
  table : decodeTable log.journal [] 0 = some log.transactions

/-! ### The record as a whole -/

omit [Zlib] in
/-- The writes of a record with this payload succeed, and so does `fsync`. -/
def WriteFaults.Complete (faults : WriteFaults) (payload : List UInt8) : Prop :=
  faults.header = none ∧ (payload.length > 0 → faults.payload = none) ∧ faults.sync = false

instance (faults : WriteFaults) (payload : List UInt8) : Decidable (faults.Complete payload) :=
  inferInstanceAs (Decidable (_ ∧ _ ∧ _))

omit [Zlib] in
theorem writeAll_extends (file bytes : List UInt8) (fault : Option Nat) :
    ∃ more, (writeAll file bytes fault).1 = file ++ more := by
  cases fault with
  | none => exact ⟨bytes, rfl⟩
  | some written => exact ⟨bytes.take written, rfl⟩

omit [Zlib] in
theorem writeAll_complete (file bytes : List UInt8) (fault : Option Nat) :
    (writeAll file bytes fault).2 = true ↔ fault = none := by
  cases fault <;> simp [writeAll]

omit [Zlib] in
/-- The end of the writes, after which the file is taken back if something has failed. -/
theorem writeRecord_end {file whole : List UInt8} {faults : WriteFaults}
    {written : List UInt8 × Bool} (extension : ∃ more, written.1 = file ++ more)
    (complete : written.2 = true → written.1 = whole) :
    (if written.2 = true ∧ faults.sync = false then (written.1, true)
      else (written.1.take file.length, false)) =
      if written.2 = true ∧ faults.sync = false then (whole, true) else (file, false) := by
  split
  · rename_i done
    rw [complete done.1]
  · obtain ⟨more, extended⟩ := extension
    rw [extended, List.take_left]

omit [Zlib] in
/-- A record is written as a whole or not at all. -/
theorem writeRecord_eq (file header payload : List UInt8) (faults : WriteFaults) :
    writeRecord file header payload faults =
      if faults.Complete payload then (file ++ (header ++ payload), true) else (file, false) := by
  unfold writeRecord
  dsimp only
  by_cases body : (writeAll file header faults.header).2 = true ∧ payload.length > 0
  · have headerDone : writeAll file header faults.header = (file ++ header, true) := by
      rw [(writeAll_complete file header _).mp body.1]
      rfl
    have headerWritten : faults.header = none := (writeAll_complete file header _).mp body.1
    rw [if_pos body, headerDone, writeRecord_end]
    · refine if_congr ?_ rfl rfl
      rw [writeAll_complete, WriteFaults.Complete]
      exact ⟨fun all => ⟨headerWritten, fun _ => all.1, all.2⟩, fun all => ⟨all.2.1 body.2, all.2.2⟩⟩
    · obtain ⟨more, extended⟩ := writeAll_extends (file ++ header) payload faults.payload
      exact ⟨header ++ more, by rw [extended, List.append_assoc]⟩
    · intro done
      rw [(writeAll_complete _ payload _).mp done, writeAll, List.append_assoc]
  · rw [if_neg body, writeRecord_end (writeAll_extends file header faults.header)]
    · refine if_congr ?_ rfl rfl
      rw [writeAll_complete] at body ⊢
      rw [WriteFaults.Complete]
      exact ⟨fun all => ⟨all.1, fun some => absurd ⟨all.1, some⟩ body, all.2⟩,
        fun all => ⟨all.1, all.2.2⟩⟩
    · intro done
      have empty : payload = [] := by
        refine List.length_eq_zero_iff.mp (Nat.eq_zero_of_not_pos fun some => body ⟨done, some⟩)
      rw [(writeAll_complete _ header _).mp done, writeAll, empty, List.append_nil]

theorem journalBytes_eq (type : UInt8) (payload : List UInt8) :
    journalBytes type payload = journalHeader type payload ++ payload := by
  simp only [journalBytes, journalHeader, List.append_assoc]

/-- A failed allocation can only make the checksum zero. -/
theorem entryDecodeUnder_c4LogRecord {entry : C4LogEntry}
    (small : entry.payload.length ≤ maxPayloadSize) (faults : PrepareFaults) :
    entryDecodeUnder (c4LogRecord entry) faults =
      if entry.payload.length > 0 ∧ faults.decode = true then none
      else if entry.index = 0 ∨ entry.version = 0 ∨
          entry.checksum ≠ checksumUnder faults.decodeChecksum entry then none
      else some entry := by
  have length : (c4LogRecord entry).length = c4LogHeaderSize + entry.payload.length := by
    rw [c4LogRecord, List.length_append, length_c4LogHeader]
    rfl
  have magic : (c4LogRecord entry).take 4 = c4LogMagic := take_c4LogHeader entry _ _
  have size : (wireGetU32 ((c4LogRecord entry).drop 36)).toNat = entry.payload.length := by
    rw [c4LogRecord, drop_c4LogHeader_payloadSize, C4LogEntry.toNat_payloadSize]
  have payload : (c4LogRecord entry).drop c4LogHeaderSize = entry.payload :=
    drop_c4LogHeader_payload entry _ _
  have read : c4LogEntryRead (c4LogRecord entry) entry.payload entry.payloadBound = entry :=
    c4LogEntryRead_c4LogHeader entry _ entry.payloadBound
  unfold entryDecodeUnder
  rw [if_neg (by rw [magic, length]; simp)]
  simp only [size, payload, read]
  rw [dif_pos ⟨small, length⟩]

end SuperPeerNet
