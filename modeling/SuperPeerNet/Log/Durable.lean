/-
This file settles when the memory of a log and its two files stay in step under failures of the
system.

A call that stops before its record is complete leaves everything as it was, since the file is
taken back to its old size. Once the record is complete, the two sides agree only if memory
follows: every later allocation has to be granted, and the entry has to carry its right checksum,
which a refused allocation may have made look right. The run invariant says what the files hold:
whole records, of the entries and of the prepared transactions in memory.
-/

import Mathlib.Data.List.Induction
import SuperPeerNet.Log.Failures
import SuperPeerNet.Log.Representation

namespace SuperPeerNet

section Durable

variable [Zlib]

/-! ### The decoding and the replay -/

/-- A record that the replay accepts says the same about the table. -/
theorem tableRecord_of_replayRecord {log next : C4Log} {type : UInt8} {payload : List UInt8}
    (done : replayRecord log type payload = .ok next) :
    tableRecord log.transactions type payload = some next.transactions := by
  unfold replayRecord at done
  unfold tableRecord
  by_cases prepares : type = c4TxnPrepare
  · rw [if_pos prepares] at done ⊢
    cases decoded : c4LogEntryDecode payload with
    | error code =>
      rw [decoded] at done
      cases done
    | ok entry =>
      rw [decoded] at done
      obtain ⟨-, -, rfl⟩ := C4Log.replayPrepare_ok.mp done
      rfl
  rw [if_neg prepares] at done ⊢
  by_cases decides : (type = c4TxnCommit ∨ type = c4TxnAbort) ∧ payload.length = transactionIdSize
  swap
  · rw [if_neg decides] at done
    cases done
  rw [if_pos decides] at done
  rw [if_pos decides.2]
  dsimp only
  generalize (Octets.read transactionIdSize payload : TransactionId) = id at done
  unfold replayDecision at done
  cases found : findTransaction log id with
  | none =>
    rw [found] at done
    dsimp only at done
    by_cases aborts : type = c4TxnAbort
    · rw [if_pos aborts] at done
      cases done
      rw [if_neg (by rw [aborts]; decide), if_pos aborts]
      exact if_pos found
    · rw [if_neg aborts] at done
      cases done
  | some row =>
    rw [found] at done
    dsimp only at done
    have present : ¬ KeyedList.lookup C4Transaction.id log.transactions id = none := by
      change ¬ findTransaction log id = none
      rw [found]
      exact nofun
    by_cases pending : row.state = .prepared
    · rw [if_pos pending] at done
      by_cases commits : type = c4TxnCommit
      · rw [if_pos commits] at done ⊢
        have outcome := appendLocked_outcome (setTransactionState log id .committed) row.entry
        rw [done] at outcome
        cases outcome <;> rfl
      · rw [if_neg commits] at done ⊢
        cases done
        rw [if_pos (decides.1.resolve_left commits), if_neg present]
        rfl
    · rw [if_neg pending] at done
      by_cases dead : type = c4TxnAbort ∧ row.state = .aborted
      · rw [if_pos dead] at done
        cases done
        rw [if_neg (by rw [dead.1]; decide), if_pos dead.1, if_neg present]
        refine congrArg some (KeyedList.modify_fixed found ?_)
        rw [← dead.2]
      · rw [if_neg dead] at done
        cases done

/-- A journal that the replay accepts decodes to the table that it leaves. -/
theorem decodeTable_of_loadJournal {journal : List UInt8} {log next : C4Log} {offset : Nat}
    (done : loadJournal journal log offset = .ok next) :
    decodeTable journal log.transactions offset = some next.transactions := by
  fun_induction loadJournal journal log offset with
  | case1 => cases done
  | case2 => cases done
  | case3 => cases done
  | case4 => cases done
  | case5 log offset inside record whole type payloadSize fits payload checksum after replayed
      inductionHypothesis =>
    rw [decodeTable, if_pos inside]
    dsimp only
    rw [if_neg whole, if_neg fits, if_neg checksum, tableRecord_of_replayRecord replayed]
    exact inductionHypothesis done
  | case6 log offset ended =>
    cases done
    rw [decodeTable, if_neg ended]

/-! ### The decoding of a journal of whole records -/

/-- One turn of the decoding over a whole record. -/
theorem decodeTable_record (past rest : List UInt8) (type : UInt8) {payload : List UInt8}
    (small : payload.length ≤ maxPayloadSize) (rows : List C4Transaction) :
    decodeTable (past ++ (journalBytes type payload ++ rest)) rows past.length =
      (tableRecord rows type payload).bind fun next =>
        decodeTable ((past ++ journalBytes type payload) ++ rest) next
          (past ++ journalBytes type payload).length := by
  have size : (UInt32.ofNat payload.length).toNat = payload.length := by
    rw [UInt32.toNat_ofNat', Nat.mod_eq_of_lt (length_lt_of_le_maxPayloadSize small)]
  have length : (journalBytes type payload).length = c4TxnHeaderSize + payload.length :=
    length_journalBytes type payload
  rw [decodeTable, if_pos (by simp [c4TxnHeaderSize])]
  simp only [List.drop_left, take_journalBytes, drop_journalBytes_type, drop_journalBytes_size,
    drop_journalBytes_checksum, drop_journalBytes_payload, size, List.take_left, ne_eq,
    not_true_eq_false, or_false, if_false]
  rw [if_neg (by rw [List.length_append, length]; omega),
    if_neg (by simp only [List.length_append, length]; omega)]
  cases tableRecord rows type payload with
  | none => rfl
  | some next =>
    simp only [Option.bind, List.append_assoc, List.length_append, length]

/-- The journal of prepared entries. -/
def preparesOf (entries : List C4LogEntry) : List UInt8 :=
  entries.flatMap fun entry => journalBytes c4TxnPrepare (c4LogRecord entry)

/-- The rows of prepared entries. -/
def preparedRows (entries : List C4LogEntry) : List C4Transaction :=
  entries.map fun entry => ⟨entry, .prepared⟩

/-- An entry that `c4_log_prepare` accepts and that decodes. -/
def Preparable (entry : C4LogEntry) : Prop :=
  entry.Sound ∧ entry.payload.length ≤ maxPayloadSize - c4LogHeaderSize

theorem tableRecord_prepare {rows : List C4Transaction} {entry : C4LogEntry}
    (preparable : Preparable entry) :
    tableRecord rows c4TxnPrepare (c4LogRecord entry) = some (rows ++ [⟨entry, .prepared⟩]) := by
  obtain ⟨⟨index, version, -, checksum⟩, small⟩ := preparable
  have decoded : c4LogEntryDecode (c4LogRecord entry) = .ok entry :=
    c4LogEntryDecode_encode index version (c4LogEntryEncode_ok.mpr ⟨checksum, small, rfl⟩)
  rw [tableRecord, if_pos rfl, decoded]

/-- The decoding goes over the records of prepared entries to whatever follows them. -/
theorem decodeTable_append {entries : List C4LogEntry}
    (preparable : ∀ entry ∈ entries, Preparable entry) (past tail : List UInt8)
    (rows : List C4Transaction) :
    decodeTable (past ++ (preparesOf entries ++ tail)) rows past.length =
      decodeTable ((past ++ preparesOf entries) ++ tail) (rows ++ preparedRows entries)
        (past ++ preparesOf entries).length := by
  induction entries generalizing past rows with
  | nil =>
    have nothing : preparesOf [] = [] := rfl
    have noRows : preparedRows [] = [] := rfl
    rw [nothing, noRows, List.append_nil, List.append_nil, List.nil_append]
  | cons entry rest inductionHypothesis =>
    have split : preparesOf (entry :: rest) =
        journalBytes c4TxnPrepare (c4LogRecord entry) ++ preparesOf rest := rfl
    have rowsSplit : preparedRows (entry :: rest) = ⟨entry, .prepared⟩ :: preparedRows rest := rfl
    have first := preparable entry List.mem_cons_self
    rw [split, rowsSplit, List.append_assoc,
      decodeTable_record past _ _ (length_c4LogRecord_le first.2), tableRecord_prepare first]
    show decodeTable _ (rows ++ [⟨entry, .prepared⟩]) _ = _
    rw [inductionHypothesis fun other member => preparable other (List.mem_cons_of_mem _ member)]
    simp only [List.append_assoc, List.singleton_append]

/-- The decoding of the records of prepared entries, and of one more record. -/
theorem decodeTable_preparesOf {entries : List C4LogEntry}
    (preparable : ∀ entry ∈ entries, Preparable entry) :
    decodeTable (preparesOf entries) [] 0 = some (preparedRows entries) := by
  have decoded := decodeTable_append preparable [] [] []
  rw [List.nil_append, List.append_nil, List.nil_append, List.append_nil, List.nil_append]
    at decoded
  change decodeTable (preparesOf entries) [] 0 = _ at decoded
  rw [decoded, decodeTable, if_neg (lt_irrefl _)]

theorem decodeTable_push {entries : List C4LogEntry}
    (preparable : ∀ entry ∈ entries, Preparable entry) {payload : List UInt8}
    (small : payload.length ≤ maxPayloadSize) :
    decodeTable (preparesOf entries ++ journalBytes c4TxnPrepare payload) [] 0 =
      tableRecord (preparedRows entries) c4TxnPrepare payload := by
  have decoded := decodeTable_append preparable [] (journalBytes c4TxnPrepare payload) []
  rw [List.nil_append, List.nil_append, List.nil_append] at decoded
  change decodeTable (preparesOf entries ++ journalBytes c4TxnPrepare payload) [] 0 = _ at decoded
  have last := decodeTable_record (preparesOf entries) [] c4TxnPrepare small (preparedRows entries)
  rw [List.append_nil, List.append_nil] at last
  rw [decoded, last]
  cases tableRecord (preparedRows entries) c4TxnPrepare payload with
  | none => rfl
  | some next =>
    show decodeTable _ next _ = some next
    rw [decodeTable, if_neg (lt_irrefl _)]

/-! ### The calls -/

/-- A call with what the system does to it. -/
inductive FaultyCall where
  | appendEntry (entry : C4LogEntry) (faults : AppendFaults)
  | prepare (entry : C4LogEntry) (faults : PrepareFaults)

/-- The log after a call, and whether the call returns 0. -/
def performUnder (state : AllocatedLog) : FaultyCall → AllocatedLog × Bool
  | .appendEntry entry faults => appendEntryUnder state entry faults
  | .prepare entry faults => prepareUnder state entry faults

/-- The log after calls on a new one. -/
def historyUnder (calls : List FaultyCall) : AllocatedLog :=
  calls.foldl (fun state call => (performUnder state call).1) .fresh

/-- `c4_log_append_entry` gets to the end of a complete record. -/
structure AppendReaches (state : AllocatedLog) (entry : C4LogEntry) (faults : AppendFaults) :
    Prop where
  index : entry.index = nextIndex state.log
  version : entry.version = nextVersion state.log
  nonzero : entry.index ≠ 0 ∧ entry.version ≠ 0
  small : entry.payload.length ≤ maxPayloadSize
  checksum : entry.checksum = checksumUnder faults.checksum entry
  absent : findEntry state.log entry.transactionId = none
  written : faults.write.Complete entry.payload

/-- The array has room for the entry, and its copy is allocated. -/
structure MemoryFollows (state : AllocatedLog) (entry : C4LogEntry) (faults : AppendFaults) :
    Prop where
  room : reserveSlot c4LogSlotSize state.log.entries.length state.capacity faults.grow ≠ none
  copied : ¬ (entry.payload.length > 0 ∧ faults.copy = true)

/-- `c4_log_prepare` gets to the end of a complete record. -/
structure PrepareReaches (state : AllocatedLog) (entry : C4LogEntry) (faults : PrepareFaults) :
    Prop where
  expected : expectedNext state.log = (entry.index, entry.version)
  nonzero : entry.index ≠ 0 ∧ entry.version ≠ 0
  small : entry.payload.length ≤ maxPayloadSize - c4LogHeaderSize
  checksum : entry.checksum = checksumUnder faults.checksum entry ∧
    entry.checksum = checksumUnder faults.encodeChecksum entry
  absent : findTransaction state.log entry.transactionId = none
  allocated : faults.encode = false ∧ faults.checked = false ∧
    reserveSlot c4TransactionSize state.log.transactions.length state.transactionCapacity
      faults.grow ≠ none
  written : faults.write.Complete (c4LogRecord entry)

/-- The entry decodes from its own record. -/
structure DecodeFollows (entry : C4LogEntry) (faults : PrepareFaults) : Prop where
  copied : ¬ (entry.payload.length > 0 ∧ faults.decode = true)
  checksum : entry.checksum = checksumUnder faults.decodeChecksum entry

/-- A call that cannot bring memory and files out of step: if it completes its record, then the
entry carries its right checksum and every later allocation is granted. -/
def Harmless (state : AllocatedLog) : FaultyCall → Prop
  | .appendEntry entry faults => AppendReaches state entry faults →
      entry.checksum = c4LogEntryChecksum entry ∧ MemoryFollows state entry faults
  | .prepare entry faults => PrepareReaches state entry faults →
      entry.checksum = c4LogEntryChecksum entry ∧ DecodeFollows entry faults

/-! ### What a call does -/

/-- How `c4_log_append_entry` can end. -/
inductive AppendUnder (state : AllocatedLog) (entry : C4LogEntry) (faults : AppendFaults) :
    AllocatedLog × Bool → Prop
  | unchanged (stops : ¬ AppendReaches state entry faults) (result : Bool) :
      AppendUnder state entry faults (state, result)
  | stored (reaches : AppendReaches state entry faults)
      (lags : ¬ MemoryFollows state entry faults) (next : AllocatedLog)
      (log : next.log = { state.log with file := state.log.file ++ c4LogRecord entry }) :
      AppendUnder state entry faults (next, false)
  | appended (reaches : AppendReaches state entry faults)
      (follows : MemoryFollows state entry faults) (capacity : Nat)
      (reserved : reserveSlot c4LogSlotSize state.log.entries.length state.capacity faults.grow =
        some capacity) :
      AppendUnder state entry faults
        ({ state with log := state.log.withEntry entry, capacity := capacity }, true)

theorem appendEntryUnder_outcome (state : AllocatedLog) (entry : C4LogEntry)
    (faults : AppendFaults) :
    AppendUnder state entry faults (appendEntryUnder state entry faults) := by
  unfold appendEntryUnder
  by_cases invalid : entry.index = 0 ∨ entry.version = 0 ∨ entry.payload.length > maxPayloadSize ∨
      entry.checksum ≠ checksumUnder faults.checksum entry
  · rw [if_pos invalid]
    refine .unchanged (fun reaches => ?_) false
    rcases invalid with index | version | large | checksum
    · exact reaches.nonzero.1 index
    · exact reaches.nonzero.2 version
    · exact absurd reaches.small (not_le.mpr large)
    · exact checksum reaches.checksum
  rw [if_neg invalid]
  simp only [not_or, not_not, not_lt] at invalid
  obtain ⟨index, version, small, checksum⟩ := invalid
  cases found : findEntry state.log entry.transactionId with
  | some old =>
    refine .unchanged (fun reaches => ?_) _
    rw [reaches.absent] at found
    cases found
  | none =>
    dsimp only
    by_cases misplaced : entry.index ≠ nextIndex state.log ∨ entry.version ≠ nextVersion state.log
    · rw [if_pos misplaced]
      refine .unchanged (fun reaches => ?_) false
      exact misplaced.elim (fun wrong => wrong reaches.index) fun wrong => wrong reaches.version
    rw [if_neg misplaced, writeRecord_eq]
    simp only [not_or, not_not] at misplaced
    by_cases written : faults.write.Complete entry.payload
    · have reaches : AppendReaches state entry faults :=
        ⟨misplaced.1, misplaced.2, ⟨index, version⟩, small, checksum, found, written⟩
      simp only [written, if_true]
      unfold appendMemory
      dsimp only
      cases reserved : reserveSlot c4LogSlotSize state.log.entries.length state.capacity
          faults.grow with
      | none => exact .stored reaches (fun follows => follows.room reserved) _ rfl
      | some capacity =>
        dsimp only
        by_cases refused : entry.payload.length > 0 ∧ faults.copy = true
        · rw [if_pos refused]
          exact .stored reaches (fun follows => follows.copied refused) _ rfl
        · rw [if_neg refused]
          exact .appended reaches ⟨by rw [reserved]; exact nofun, refused⟩ capacity reserved
    · simp only [written, if_false]
      exact .unchanged (fun reaches => written reaches.written) false

theorem entryEncodeUnder_eq (entry : C4LogEntry) (faults : PrepareFaults) :
    entryEncodeUnder entry faults =
      if entry.checksum = checksumUnder faults.encodeChecksum entry ∧
          entry.payload.length ≤ maxPayloadSize - c4LogHeaderSize ∧ faults.encode = false then
        some (c4LogRecord entry)
      else none := by
  unfold entryEncodeUnder
  by_cases checksum : entry.checksum = checksumUnder faults.encodeChecksum entry
  · by_cases small : entry.payload.length ≤ maxPayloadSize - c4LogHeaderSize
    · rw [if_neg (not_not.mpr checksum), if_neg (not_lt.mpr small)]
      cases encode : faults.encode with
      | false =>
        rw [if_neg Bool.false_ne_true, if_pos ⟨checksum, small, rfl⟩]
        rfl
      | true => rw [if_pos rfl, if_neg fun all => nomatch all.2.2]
    · rw [if_neg (not_not.mpr checksum), if_pos (not_le.mp small), if_neg fun all => small all.2.1]
  · rw [if_pos checksum, if_neg fun all => checksum all.1]

theorem journalRecordUnder_eq (journal : List UInt8) (type : UInt8) {payload : List UInt8}
    (small : payload.length ≤ maxPayloadSize) (faults : PrepareFaults) :
    journalRecordUnder journal type payload faults =
      if faults.checked = false ∧ faults.write.Complete payload then
        (journal ++ journalBytes type payload, true)
      else (journal, false) := by
  unfold journalRecordUnder
  rw [if_neg (not_lt.mpr small), writeRecord_eq, journalBytes_eq]
  cases faults.checked with
  | false => simp only [Bool.false_eq_true, if_false, true_and]
  | true => rw [if_pos rfl, if_neg fun all => nomatch all.1]

/-- How `c4_log_prepare` can end. -/
inductive PrepareUnder (state : AllocatedLog) (entry : C4LogEntry) (faults : PrepareFaults) :
    AllocatedLog × Bool → Prop
  | unchanged (stops : ¬ PrepareReaches state entry faults) (capacity : Nat)
      (reserved : capacity = state.transactionCapacity ∨
        reserveSlot c4TransactionSize state.log.transactions.length state.transactionCapacity
          faults.grow = some capacity) (result : Bool) :
      PrepareUnder state entry faults ({ state with transactionCapacity := capacity }, result)
  | stored (reaches : PrepareReaches state entry faults) (lags : ¬ DecodeFollows entry faults)
      (next : AllocatedLog)
      (log : next.log = { state.log with
        journal := state.log.journal ++ journalBytes c4TxnPrepare (c4LogRecord entry) }) :
      PrepareUnder state entry faults (next, false)
  | prepared (reaches : PrepareReaches state entry faults) (follows : DecodeFollows entry faults)
      (capacity : Nat)
      (reserved : reserveSlot c4TransactionSize state.log.transactions.length
        state.transactionCapacity faults.grow = some capacity) :
      PrepareUnder state entry faults
        ({ state with log := state.log.withPrepared entry, transactionCapacity := capacity }, true)

theorem prepareUnder_outcome (state : AllocatedLog) (entry : C4LogEntry)
    (faults : PrepareFaults) :
    PrepareUnder state entry faults (prepareUnder state entry faults) := by
  have same : ({ state with transactionCapacity := state.transactionCapacity } : AllocatedLog) =
      state := rfl
  have stays : ∀ result, ¬ PrepareReaches state entry faults →
      PrepareUnder state entry faults (state, result) := by
    intro result stops
    have unchanged := PrepareUnder.unchanged stops state.transactionCapacity (Or.inl rfl) result
    rwa [same] at unchanged
  unfold prepareUnder
  by_cases invalid : entry.index = 0 ∨ entry.version = 0 ∨
      entry.checksum ≠ checksumUnder faults.checksum entry
  · rw [if_pos invalid]
    refine stays false fun reaches => ?_
    rcases invalid with index | version | checksum
    · exact reaches.nonzero.1 index
    · exact reaches.nonzero.2 version
    · exact checksum reaches.checksum.1
  rw [if_neg invalid]
  simp only [not_or, not_not] at invalid
  obtain ⟨index, version, checksum⟩ := invalid
  cases found : findTransaction state.log entry.transactionId with
  | some existing =>
    refine stays _ fun reaches => ?_
    rw [reaches.absent] at found
    cases found
  | none =>
    dsimp only
    by_cases misplaced : entry.index ≠ (expectedNext state.log).1 ∨
        entry.version ≠ (expectedNext state.log).2
    · rw [if_pos misplaced]
      refine stays false fun reaches => ?_
      rw [reaches.expected] at misplaced
      exact misplaced.elim (fun wrong => wrong rfl) fun wrong => wrong rfl
    rw [if_neg misplaced]
    simp only [not_or, not_not] at misplaced
    have expected : expectedNext state.log = (entry.index, entry.version) :=
      Prod.ext misplaced.1.symm misplaced.2.symm
    rw [entryEncodeUnder_eq]
    by_cases encodes : entry.checksum = checksumUnder faults.encodeChecksum entry ∧
        entry.payload.length ≤ maxPayloadSize - c4LogHeaderSize ∧ faults.encode = false
    · rw [if_pos encodes]
      obtain ⟨encodeChecksum, small, encode⟩ := encodes
      dsimp only
      cases reserved : reserveSlot c4TransactionSize state.log.transactions.length
          state.transactionCapacity faults.grow with
      | none => exact stays false fun reaches => reaches.allocated.2.2 reserved
      | some capacity =>
        dsimp only
        rw [journalRecordUnder_eq _ _ (length_c4LogRecord_le small)]
        by_cases written : faults.checked = false ∧ faults.write.Complete (c4LogRecord entry)
        · have reaches : PrepareReaches state entry faults :=
            ⟨expected, ⟨index, version⟩, small, ⟨checksum, encodeChecksum⟩, found,
              ⟨encode, written.1, by rw [reserved]; exact nofun⟩, written.2⟩
          simp only [written, and_self, if_true]
          rw [entryDecodeUnder_c4LogRecord (small.trans (Nat.sub_le _ _))]
          by_cases refused : entry.payload.length > 0 ∧ faults.decode = true
          · rw [if_pos refused]
            exact .stored reaches (fun follows => follows.copied refused) _ rfl
          rw [if_neg refused]
          by_cases decodes : entry.checksum = checksumUnder faults.decodeChecksum entry
          · rw [if_neg (by simp [index, version, decodes])]
            exact .prepared reaches ⟨refused, decodes⟩ capacity reserved
          · rw [if_pos (Or.inr (Or.inr decodes))]
            exact .stored reaches (fun follows => decodes follows.checksum) _ rfl
        · simp only [written, if_false]
          exact .unchanged (fun reaches => written ⟨reaches.allocated.2.1, reaches.written⟩) capacity
            (Or.inr reserved) false
    · rw [if_neg encodes]
      exact stays false fun reaches =>
        encodes ⟨reaches.checksum.2, reaches.small, reaches.allocated.1⟩

/-! ### Room for one more -/

omit [Zlib] in
/-- The capacities of the array: none, or a power of two that `reserve_entry` still allows. -/
def ArrayCapacity (capacity : Nat) : Prop := capacity = 0 ∨ ∃ power ≤ 58, capacity = 2 ^ power

omit [Zlib] in
/-- A growth of the array stays below the limit of `reserve_entry` and makes room. -/
theorem reserveSlot_room {count capacity next : Nat} {refused : Bool}
    (power : ArrayCapacity capacity) (inside : count ≤ capacity)
    (reserved : reserveSlot c4LogSlotSize count capacity refused = some next) :
    ArrayCapacity next ∧ count < next := by
  unfold reserveSlot at reserved
  by_cases full : count = capacity
  · rw [if_pos full] at reserved
    dsimp only at reserved
    have granted : ∀ grown, (if grown > (2 ^ 64 - 1) / c4LogSlotSize then none
        else if refused = true then none else some grown) = some next →
        grown ≤ (2 ^ 64 - 1) / c4LogSlotSize ∧ grown = next := by
      intro grown given
      by_cases large : grown > (2 ^ 64 - 1) / c4LogSlotSize
      · rw [if_pos large] at given
        cases given
      · cases refused with
        | true =>
          rw [if_neg large, if_pos rfl] at given
          cases given
        | false =>
          rw [if_neg large, if_neg Bool.false_ne_true] at given
          exact ⟨not_lt.mp large, Option.some.inj given⟩
    obtain ⟨allowed, rfl⟩ := granted _ reserved
    rw [full]
    rcases power with rfl | ⟨exponent, small, rfl⟩
    · exact ⟨Or.inr ⟨4, by decide, rfl⟩, by decide⟩
    · rw [if_neg (Nat.two_pow_pos exponent).ne', ← pow_succ] at allowed ⊢
      have below : exponent + 1 < 59 := by
        refine (Nat.pow_lt_pow_iff_right (by decide : 1 < 2)).mp ?_
        exact allowed.trans_lt (by decide)
      exact ⟨Or.inr ⟨exponent + 1, by omega, rfl⟩,
        Nat.pow_lt_pow_right (by decide) (Nat.lt_succ_self exponent)⟩
  · rw [if_neg full] at reserved
    obtain rfl := Option.some.inj reserved
    exact ⟨power, by omega⟩

omit [Zlib] in
theorem ArrayCapacity.le {capacity : Nat} (power : ArrayCapacity capacity) :
    capacity ≤ entryCapacity := by
  rcases power with rfl | ⟨exponent, small, rfl⟩
  · exact Nat.zero_le _
  · exact Nat.pow_le_pow_right (by decide) small

/-! ### The run invariant -/

/-- The files hold whole records of what is in memory, and the array has room for its entries. -/
structure Tracks (state : AllocatedLog) : Prop where
  entries : C4Log.ValidEntries state.log.entries
  file : state.log.file = fileOf state.log.entries
  inside : state.log.entries.length ≤ state.capacity
  capacity : ArrayCapacity state.capacity
  table : ∃ prepared : List C4LogEntry, (∀ entry ∈ prepared, Preparable entry) ∧
    state.log.journal = preparesOf prepared ∧ state.log.transactions = preparedRows prepared

theorem tracks_fresh : Tracks .fresh where
  entries := C4Log.valid_fresh.entries
  file := rfl
  inside := le_rfl
  capacity := Or.inl rfl
  table := ⟨[], nofun, rfl, rfl⟩

theorem Tracks.inStep {state : AllocatedLog} (tracks : Tracks state) : InStep state.log where
  entries := by
    have scanned := C4Log.loadEntries_fileOf [] state.log.entries C4Log.fresh rfl tracks.entries
    change loadEntries (fileOf state.log.entries) C4Log.fresh 0 = _ at scanned
    rw [tracks.file]
    exact ⟨_, scanned, rfl⟩
  table := by
    obtain ⟨prepared, preparable, journal, transactions⟩ := tracks.table
    rw [journal, transactions]
    exact decodeTable_preparesOf preparable

/-! ### A harmless call keeps the invariant -/

theorem AppendReaches.extends {state : AllocatedLog} {entry : C4LogEntry} {faults : AppendFaults}
    (reaches : AppendReaches state entry faults)
    (checksum : entry.checksum = c4LogEntryChecksum entry)
    (room : state.log.entries.length < entryCapacity) : state.log.Extends entry :=
  ⟨⟨reaches.nonzero.1, reaches.nonzero.2, reaches.small, checksum⟩, reaches.index, reaches.version,
    room⟩

theorem Tracks.appendEntry {state : AllocatedLog} (tracks : Tracks state) {entry : C4LogEntry}
    {faults : AppendFaults} (harmless : Harmless state (.appendEntry entry faults)) :
    Tracks (appendEntryUnder state entry faults).1 ∧
      ((appendEntryUnder state entry faults).2 = false →
        (appendEntryUnder state entry faults).1.log = state.log) := by
  have outcome := appendEntryUnder_outcome state entry faults
  generalize appendEntryUnder state entry faults = result at outcome ⊢
  cases outcome with
  | unchanged stops result => exact ⟨tracks, fun _ => rfl⟩
  | stored reaches lags next log => exact absurd (harmless reaches).2 lags
  | appended reaches follows capacity reserved =>
    obtain ⟨power, room⟩ := reserveSlot_room tracks.capacity tracks.inside reserved
    have fits := reaches.extends (harmless reaches).1 (room.trans_le power.le)
    refine ⟨⟨tracks.entries.append fits reaches.absent, ?_, ?_, power, tracks.table⟩, nofun⟩
    · show state.log.file ++ c4LogRecord entry = fileOf (state.log.entries ++ [entry])
      rw [tracks.file, fileOf, fileOf, List.flatMap_append, List.flatMap_singleton]
    · show (state.log.entries ++ [entry]).length ≤ capacity
      rw [List.length_append, List.length_singleton]
      exact room

theorem Tracks.prepare {state : AllocatedLog} (tracks : Tracks state) {entry : C4LogEntry}
    {faults : PrepareFaults} (harmless : Harmless state (.prepare entry faults)) :
    Tracks (prepareUnder state entry faults).1 ∧
      ((prepareUnder state entry faults).2 = false →
        (prepareUnder state entry faults).1.log = state.log) := by
  have outcome := prepareUnder_outcome state entry faults
  generalize prepareUnder state entry faults = result at outcome ⊢
  cases outcome with
  | unchanged stops capacity reserved result =>
    exact ⟨⟨tracks.entries, tracks.file, tracks.inside, tracks.capacity, tracks.table⟩, fun _ => rfl⟩
  | stored reaches lags next log => exact absurd (harmless reaches).2 lags
  | prepared reaches follows capacity reserved =>
    obtain ⟨prepared, preparable, journal, transactions⟩ := tracks.table
    have small := reaches.small
    have sound : Preparable entry :=
      ⟨⟨reaches.nonzero.1, reaches.nonzero.2, small.trans (Nat.sub_le _ _), (harmless reaches).1⟩,
        small⟩
    refine ⟨⟨tracks.entries, tracks.file, tracks.inside, tracks.capacity, prepared ++ [entry], ?_, ?_,
      ?_⟩, nofun⟩
    · intro other member
      rcases List.mem_append.mp member with old | new
      · exact preparable other old
      · rw [List.mem_singleton.mp new]
        exact sound
    · show state.log.journal ++ _ = _
      rw [journal, preparesOf, preparesOf, List.flatMap_append, List.flatMap_singleton]
    · show state.log.transactions ++ _ = _
      rw [transactions, preparedRows, preparedRows, List.map_append]
      rfl

theorem Tracks.perform {state : AllocatedLog} (tracks : Tracks state) {call : FaultyCall}
    (harmless : Harmless state call) :
    Tracks (performUnder state call).1 ∧
      ((performUnder state call).2 = false → (performUnder state call).1.log = state.log) := by
  cases call with
  | appendEntry entry faults => exact tracks.appendEntry harmless
  | prepare entry faults => exact tracks.prepare harmless

/-! ### Any other call brings the two sides out of step -/

/-- What the scan makes of one more record. -/
theorem loadEntries_push {entries : List C4LogEntry} (valid : C4Log.ValidEntries entries)
    {entry : C4LogEntry} (small : entry.payload.length ≤ maxPayloadSize) {loaded : C4Log}
    (absent : findEntry (C4Log.holding entries) entry.transactionId = none)
    (done : loadEntries (fileOf entries ++ c4LogRecord entry) C4Log.fresh 0 = .ok loaded) :
    entry.Sound ∧ loaded.entries = entries ++ [entry] := by
  have scanned := C4Log.loadEntries_append [] entries (c4LogRecord entry) C4Log.fresh rfl valid
  change loadEntries (fileOf entries ++ c4LogRecord entry) C4Log.fresh 0 = _ at scanned
  have last := loadEntries_record (fileOf entries) [] entry small
    ⟨entries, [], [], []⟩
  rw [List.append_nil, List.append_nil] at last
  obtain ⟨middle, appended, rest⟩ := bind_eq_ok.mp (last.symm.trans (scanned.symm.trans done))
  rw [loadEntries, if_neg (lt_irrefl _)] at rest
  have read : C4Log.scanEntry (C4Log.holding entries) entry = .ok middle := appended
  rw [C4Log.scanEntry_eq] at read
  have outcome := appendLocked_outcome (C4Log.holding entries) entry
  generalize appendLocked (C4Log.holding entries) entry true = result at outcome read
  cases outcome with
  | refused code => cases read
  | repeated sound found =>
    rw [absent] at found
    cases found
  | appended fits _ =>
    cases read
    cases rest
    exact ⟨fits.1, rfl⟩

theorem Tracks.harmless_append {state : AllocatedLog} (tracks : Tracks state) {entry : C4LogEntry}
    {faults : AppendFaults} (after : InStep (appendEntryUnder state entry faults).1.log) :
    Harmless state (.appendEntry entry faults) := by
  intro reaches
  have outcome := appendEntryUnder_outcome state entry faults
  generalize appendEntryUnder state entry faults = result at outcome after
  have absent : findEntry (C4Log.holding state.log.entries) entry.transactionId = none :=
    reaches.absent
  obtain ⟨loaded, done, same⟩ := after.entries
  cases outcome with
  | unchanged stops result => exact absurd reaches stops
  | stored _ lags next log =>
    rw [log] at done same
    rw [tracks.file] at done
    obtain ⟨-, grown⟩ := loadEntries_push tracks.entries reaches.small absent done
    rw [grown] at same
    exact absurd (congrArg List.length same) (by simp)
  | appended _ follows capacity reserved =>
    change loadEntries (state.log.file ++ c4LogRecord entry) C4Log.fresh 0 = _ at done
    rw [tracks.file] at done
    exact ⟨(loadEntries_push tracks.entries reaches.small absent done).1.2.2.2, follows⟩

theorem tableRecord_prepare_some {rows next : List C4Transaction} {payload : List UInt8}
    (done : tableRecord rows c4TxnPrepare payload = some next) :
    ∃ entry, c4LogEntryDecode payload = .ok entry ∧ next = rows ++ [⟨entry, .prepared⟩] := by
  rw [tableRecord, if_pos rfl] at done
  cases decoded : c4LogEntryDecode payload with
  | error code =>
    rw [decoded] at done
    cases done
  | ok entry =>
    rw [decoded] at done
    exact ⟨entry, rfl, (Option.some.inj done).symm⟩

theorem Tracks.harmless_prepare {state : AllocatedLog} (tracks : Tracks state) {entry : C4LogEntry}
    {faults : PrepareFaults} (after : InStep (prepareUnder state entry faults).1.log) :
    Harmless state (.prepare entry faults) := by
  intro reaches
  have outcome := prepareUnder_outcome state entry faults
  generalize prepareUnder state entry faults = result at outcome after
  obtain ⟨prepared, preparable, journal, transactions⟩ := tracks.table
  have pushed := decodeTable_push preparable (length_c4LogRecord_le reaches.small)
  have table := after.table
  cases outcome with
  | unchanged stops capacity reserved result => exact absurd reaches stops
  | stored _ lags next log =>
    rw [log] at table
    dsimp only at table
    rw [journal, transactions, pushed] at table
    obtain ⟨_, -, longer⟩ := tableRecord_prepare_some table
    exact absurd (congrArg List.length longer) (by simp)
  | prepared _ follows capacity reserved =>
    change decodeTable (state.log.journal ++ _) [] 0 = some (state.log.transactions ++ _) at table
    rw [journal, transactions, pushed] at table
    obtain ⟨decoded, read, same⟩ := tableRecord_prepare_some table
    have row := List.append_cancel_left same
    cases row
    exact ⟨(c4LogEntryDecode_ok read).2.2.1, follows⟩

theorem Tracks.harmless {state : AllocatedLog} (tracks : Tracks state) {call : FaultyCall}
    (after : InStep (performUnder state call).1.log) : Harmless state call := by
  cases call with
  | appendEntry entry faults => exact tracks.harmless_append after
  | prepare entry faults => exact tracks.harmless_prepare after

/-! ### Whole histories -/

theorem historyUnder_concat (past : List FaultyCall) (call : FaultyCall) :
    historyUnder (past ++ [call]) = (performUnder (historyUnder past) call).1 :=
  List.foldl_concat ..

/-- After every call the memory is what the files say, and a call that fails has changed neither
side. -/
structure InStepThroughout (calls : List FaultyCall) : Prop where
  inStep : ∀ past, past <+: calls → InStep (historyUnder past).log
  unchanged : ∀ past call, past ++ [call] <+: calls →
    (performUnder (historyUnder past) call).2 = false →
      (historyUnder (past ++ [call])).log = (historyUnder past).log

/-- Harmless calls keep the run invariant. -/
theorem tracks_historyUnder {calls : List FaultyCall}
    (harmless : ∀ past call, past ++ [call] <+: calls → Harmless (historyUnder past) call)
    {past : List FaultyCall} (isPrefix : past <+: calls) : Tracks (historyUnder past) := by
  induction past using List.reverseRecOn with
  | nil => exact tracks_fresh
  | append_singleton past call inductionHypothesis =>
    have before := inductionHypothesis ((List.prefix_append past [call]).trans isPrefix)
    rw [historyUnder_concat]
    exact (before.perform (harmless past call isPrefix)).1

/-- Histories that have been in step so far were of harmless calls. -/
theorem tracks_of_inStep {calls : List FaultyCall}
    (inStep : ∀ past, past <+: calls → InStep (historyUnder past).log) {past : List FaultyCall}
    (isPrefix : past <+: calls) : Tracks (historyUnder past) := by
  induction past using List.reverseRecOn with
  | nil => exact tracks_fresh
  | append_singleton past call inductionHypothesis =>
    have before := inductionHypothesis ((List.prefix_append past [call]).trans isPrefix)
    have after := inStep _ isPrefix
    rw [historyUnder_concat] at after ⊢
    exact (before.perform (before.harmless after)).1

theorem InStepThroughout.harmless {calls past : List FaultyCall} {call : FaultyCall}
    (throughout : InStepThroughout calls) (isPrefix : past ++ [call] <+: calls) :
    Harmless (historyUnder past) call := by
  have before := tracks_of_inStep throughout.inStep
    ((List.prefix_append past [call]).trans isPrefix)
  have after := throughout.inStep _ isPrefix
  rw [historyUnder_concat] at after
  exact before.harmless after

/-- For every history of calls and every schedule of failures, memory and files are in step after
every call, and failed calls change nothing, exactly when every call that completes its record
carries its right checksum and is granted every later allocation. -/
theorem failed_calls_stay_in_step (calls : List FaultyCall) :
    InStepThroughout calls ↔
      ∀ past call, past ++ [call] <+: calls → Harmless (historyUnder past) call := by
  constructor
  · intro throughout past call isPrefix
    exact throughout.harmless isPrefix
  · intro harmless
    refine ⟨fun past isPrefix => (tracks_historyUnder harmless isPrefix).inStep, ?_⟩
    intro past call isPrefix failed
    have before := tracks_historyUnder harmless ((List.prefix_append past [call]).trans isPrefix)
    rw [historyUnder_concat]
    exact (before.perform (harmless past call isPrefix)).2 failed

end Durable

/-- The first entry of a log. -/
def firstEntry [Zlib] : C4LogEntry :=
  C4LogEntry.build 1 1 (Octets.fill transactionIdSize 1) [] length_nil_lt

/-- The array of a new log does not grow, after the record of its first entry has been written. -/
theorem not_inStepThroughout_refusedGrowth :
    letI := Zlib.reference
    ¬ InStepThroughout [.appendEntry firstEntry ⟨false, ⟨none, none, false⟩, true, false⟩] := by
  let zlib := Zlib.reference
  intro throughout
  have harmless := throughout.harmless (show [] ++ [_] <+: _ from List.prefix_rfl)
  have reaches :
      AppendReaches (historyUnder []) firstEntry ⟨false, ⟨none, none, false⟩, true, false⟩ :=
    ⟨by decide +kernel, by decide +kernel, by decide +kernel, by decide +kernel,
      by decide +kernel, rfl, by decide +kernel⟩
  exact (harmless reaches).2.room (by decide)

end SuperPeerNet
