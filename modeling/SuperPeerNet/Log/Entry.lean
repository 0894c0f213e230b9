/-
This file models the log entry of `c4_log.c` and its wire form: the 44-byte
`C4LG` header, the checksum over header and payload, and the encoder and decoder
that `M_PREPARE`, `M_STATE_TRANSFER`, the incremental transfer and both log files
share.

The header fields can be read back out of any byte string that starts with a record,
which is what the log files need. The last section is the codec: an entry that the
encoder accepts is what the decoder returns, and bytes that the decoder accepts are
those that the encoder writes.
-/

import SuperPeerNet.Protocol

namespace SuperPeerNet

/-! ### The entry and its checksum -/

/-- `C4LogEntry`. The payload size is the length of the payload, a 32-bit number. -/
structure C4LogEntry where
  index : UInt64
  version : UInt64
  transactionId : TransactionId
  payload : List UInt8
  checksum : UInt32
  payloadBound : payload.length < 2 ^ 32
  deriving DecidableEq

/-- The `payload_size` field. -/
def C4LogEntry.payloadSize (entry : C4LogEntry) : UInt32 := UInt32.ofNat entry.payload.length

@[simp] theorem C4LogEntry.toNat_payloadSize (entry : C4LogEntry) :
    entry.payloadSize.toNat = entry.payload.length := by
  rw [payloadSize, UInt32.toNat_ofNat', Nat.mod_eq_of_lt entry.payloadBound]

/-- `C4_LOG_HEADER_SIZE`. -/
def c4LogHeaderSize : Nat := 44

/-- `C4_LOG_MAGIC`, the letters `C4LG`. -/
def c4LogMagic : List UInt8 := [0x43, 0x34, 0x4c, 0x47]

/-- The 44 header bytes of a record, with the checksum field given separately: the checksum
itself is computed over a header in which that field is zero. -/
def c4LogHeader (entry : C4LogEntry) (checksum : UInt32) : List UInt8 :=
  c4LogMagic ++ (wirePutU64 entry.index ++ (wirePutU64 entry.version ++
    (entry.transactionId.toList ++ (wirePutU32 entry.payloadSize ++ wirePutU32 checksum))))

@[simp] theorem length_c4LogHeader (entry : C4LogEntry) (checksum : UInt32) :
    (c4LogHeader entry checksum).length = 44 := by
  simp [c4LogHeader, c4LogMagic]

/-- `c4_log_entry_checksum`. An oversized payload has checksum zero. -/
def c4LogEntryChecksum [Zlib] (entry : C4LogEntry) : UInt32 :=
  if entry.payload.length > maxPayloadSize then 0
  else protocolCalculateCrc32 (c4LogHeader entry 0 ++ entry.payload)

/-- An entry with its checksum filled in, as `c4_cluster_submit` builds it. -/
def C4LogEntry.sealed [Zlib] (entry : C4LogEntry) : C4LogEntry :=
  { entry with checksum := c4LogEntryChecksum entry }

theorem C4LogEntry.sealed_checksum [Zlib] (entry : C4LogEntry) :
    entry.sealed.checksum = c4LogEntryChecksum entry.sealed := rfl

/-- The entry that `c4_cluster_submit` fills in for an operation. -/
def C4LogEntry.build [Zlib] (index version : UInt64) (id : TransactionId) (payload : List UInt8)
    (bound : payload.length < 2 ^ 32) : C4LogEntry :=
  C4LogEntry.sealed
    { index := index
      version := version
      transactionId := id
      payload := payload
      checksum := 0
      payloadBound := bound }

/-- `same_entry`. -/
def sameEntry (left right : C4LogEntry) : Bool :=
  left.index == right.index && left.version == right.version &&
    left.checksum == right.checksum && left.payloadSize == right.payloadSize &&
    left.transactionId == right.transactionId && left.payload == right.payload

/-- `same_entry` compares every field. -/
@[simp] theorem sameEntry_iff (left right : C4LogEntry) :
    sameEntry left right = true ↔ left = right := by
  constructor
  · intro same
    simp only [sameEntry, Bool.and_eq_true, beq_iff_eq] at same
    obtain ⟨⟨⟨⟨⟨index, version⟩, checksum⟩, _⟩, transactionId⟩, payload⟩ := same
    cases left
    cases right
    simp_all
  · rintro rfl
    simp [sameEntry]

/-! ### Encoder and decoder -/

/-- `c4_log_entry_encode`. -/
def c4LogEntryEncode [Zlib] (entry : C4LogEntry) : Except Errno (List UInt8) :=
  if entry.checksum ≠ c4LogEntryChecksum entry then .error .einval
  else if entry.payload.length > maxPayloadSize - c4LogHeaderSize then .error .emsgsize
  else .ok (c4LogHeader entry entry.checksum ++ entry.payload)

/-- The entry that a header and the bytes after it describe. -/
def c4LogEntryRead (header payload : List UInt8) (bound : payload.length < 2 ^ 32) :
    C4LogEntry where
  index := wireGetU64 (header.drop 4)
  version := wireGetU64 (header.drop 12)
  transactionId := Octets.read transactionIdSize (header.drop 20)
  payload := payload
  checksum := wireGetU32 (header.drop 40)
  payloadBound := bound

theorem length_lt_of_le_maxPayloadSize {bytes : List UInt8}
    (small : bytes.length ≤ maxPayloadSize) :
    bytes.length < 2 ^ 32 := by
  unfold maxPayloadSize at small
  omega

/-- What follows the header of a record of the right size fits the field of its length. -/
theorem length_payload_lt {bytes : List UInt8}
    (fits : (wireGetU32 (bytes.drop 36)).toNat ≤ maxPayloadSize ∧
      bytes.length = c4LogHeaderSize + (wireGetU32 (bytes.drop 36)).toNat) :
    (bytes.drop c4LogHeaderSize).length < 2 ^ 32 := by
  refine length_lt_of_le_maxPayloadSize ?_
  rw [List.length_drop, fits.2]
  omega

/-- `c4_log_entry_decode`. -/
def c4LogEntryDecode [Zlib] (bytes : List UInt8) : Except Errno C4LogEntry :=
  if bytes.length < c4LogHeaderSize ∨ bytes.take 4 ≠ c4LogMagic then .error .einval
  else
    let payloadSize := wireGetU32 (bytes.drop 36)
    if fits : payloadSize.toNat ≤ maxPayloadSize ∧
        bytes.length = c4LogHeaderSize + payloadSize.toNat then
      let entry := c4LogEntryRead bytes (bytes.drop c4LogHeaderSize) (length_payload_lt fits)
      if entry.index = 0 ∨ entry.version = 0 ∨ entry.checksum ≠ c4LogEntryChecksum entry then
        .error .ebadmsg
      else .ok entry
    else .error .emsgsize

/-! ### Reading a record back -/

section ReadBack

variable (entry : C4LogEntry) (checksum : UInt32) (rest : List UInt8)

theorem take_c4LogHeader : (c4LogHeader entry checksum ++ rest).take 4 = c4LogMagic := by
  rw [c4LogHeader, List.append_assoc, List.take_left' (by rfl)]

theorem drop_c4LogHeader_index :
    wireGetU64 ((c4LogHeader entry checksum ++ rest).drop 4) = entry.index := by
  rw [c4LogHeader, List.append_assoc, List.drop_left' (by rfl), List.append_assoc]
  exact wireGetU64_wirePutU64 _ _

theorem drop_c4LogHeader_version :
    wireGetU64 ((c4LogHeader entry checksum ++ rest).drop 12) = entry.version := by
  have split : c4LogHeader entry checksum ++ rest = (c4LogMagic ++ wirePutU64 entry.index) ++
      (wirePutU64 entry.version ++ (entry.transactionId.toList ++
        (wirePutU32 entry.payloadSize ++ wirePutU32 checksum) ++ rest)) := by
    simp only [c4LogHeader, List.append_assoc]
  rw [split, List.drop_left' (by simp [c4LogMagic]), wireGetU64_wirePutU64]

theorem drop_c4LogHeader_transactionId :
    Octets.read transactionIdSize ((c4LogHeader entry checksum ++ rest).drop 20) =
      entry.transactionId := by
  have split : c4LogHeader entry checksum ++ rest =
      (c4LogMagic ++ wirePutU64 entry.index ++ wirePutU64 entry.version) ++
        (entry.transactionId.toList ++
          (wirePutU32 entry.payloadSize ++ wirePutU32 checksum ++ rest)) := by
    simp only [c4LogHeader, List.append_assoc]
  rw [split, List.drop_left' (by simp [c4LogMagic]), Octets.read_append]

theorem drop_c4LogHeader_payloadSize :
    wireGetU32 ((c4LogHeader entry checksum ++ rest).drop 36) = entry.payloadSize := by
  have split : c4LogHeader entry checksum ++ rest =
      (c4LogMagic ++ wirePutU64 entry.index ++ wirePutU64 entry.version ++
        entry.transactionId.toList) ++
        (wirePutU32 entry.payloadSize ++ (wirePutU32 checksum ++ rest)) := by
    simp only [c4LogHeader, List.append_assoc]
  rw [split, List.drop_left' (by simp [c4LogMagic]), wireGetU32_wirePutU32]

theorem drop_c4LogHeader_checksum :
    wireGetU32 ((c4LogHeader entry checksum ++ rest).drop 40) = checksum := by
  have split : c4LogHeader entry checksum ++ rest =
      (c4LogMagic ++ wirePutU64 entry.index ++ wirePutU64 entry.version ++
        entry.transactionId.toList ++ wirePutU32 entry.payloadSize) ++
        (wirePutU32 checksum ++ rest) := by
    simp only [c4LogHeader, List.append_assoc]
  rw [split, List.drop_left' (by simp [c4LogMagic]), wireGetU32_wirePutU32]

theorem drop_c4LogHeader_payload :
    (c4LogHeader entry checksum ++ rest).drop c4LogHeaderSize = rest :=
  List.drop_left' (length_c4LogHeader entry checksum)

/-- A header and the payload it announces are read back as the entry they came from. -/
theorem c4LogEntryRead_c4LogHeader (bound : entry.payload.length < 2 ^ 32) :
    c4LogEntryRead (c4LogHeader entry entry.checksum ++ rest) entry.payload bound = entry := by
  cases entry
  simp only [c4LogEntryRead, drop_c4LogHeader_index, drop_c4LogHeader_version,
    drop_c4LogHeader_transactionId, drop_c4LogHeader_checksum]

end ReadBack

/-- Writing the header of an entry that was read from a record gives back the first 44 bytes
of the record. -/
theorem c4LogHeader_c4LogEntryRead {record payload : List UInt8} (bound : payload.length < 2 ^ 32)
    (long : c4LogHeaderSize ≤ record.length) (magic : record.take 4 = c4LogMagic)
    (size : payload.length = (wireGetU32 (record.drop 36)).toNat) :
    c4LogHeader (c4LogEntryRead record payload bound)
        (c4LogEntryRead record payload bound).checksum = record.take c4LogHeaderSize := by
  unfold c4LogHeaderSize at long ⊢
  have payloadSize : (c4LogEntryRead record payload bound).payloadSize =
      wireGetU32 (record.drop 36) := by
    rw [C4LogEntry.payloadSize]
    refine UInt32.toNat_inj.mp ?_
    rw [UInt32.toNat_ofNat', Nat.mod_eq_of_lt (c4LogEntryRead record payload bound).payloadBound]
    exact size
  have split : record.take 44 = record.take 4 ++ ((record.drop 4).take 8 ++
      ((record.drop 12).take 8 ++ ((record.drop 20).take transactionIdSize ++
        ((record.drop 36).take 4 ++ (record.drop 40).take 4)))) := by
    rw [show 44 = 4 + (8 + (8 + (transactionIdSize + (4 + 4)))) from rfl]
    simp only [List.take_add, List.drop_drop]
    rfl
  rw [c4LogHeader, payloadSize, split, magic]
  simp only [c4LogEntryRead]
  rw [wirePutU64_wireGetU64 (by rw [List.length_drop]; omega),
    wirePutU64_wireGetU64 (by rw [List.length_drop]; omega),
    wirePutU32_wireGetU32 (by rw [List.length_drop]; omega),
    wirePutU32_wireGetU32 (by rw [List.length_drop]; omega),
    Octets.toList_read (by rw [List.length_drop]; unfold transactionIdSize; omega)]

/-- What the encoder accepts, and what it writes. -/
theorem c4LogEntryEncode_ok [Zlib] {entry : C4LogEntry} {bytes : List UInt8} :
    c4LogEntryEncode entry = .ok bytes ↔
      entry.checksum = c4LogEntryChecksum entry ∧
        entry.payload.length ≤ maxPayloadSize - c4LogHeaderSize ∧
        bytes = c4LogHeader entry entry.checksum ++ entry.payload := by
  unfold c4LogEntryEncode
  split
  · rename_i bad
    exact ⟨nofun, fun accepted => absurd accepted.1 bad⟩
  · rename_i good
    split
    · rename_i large
      exact ⟨nofun, fun accepted => absurd accepted.2.1 (by omega)⟩
    · rename_i small
      simp only [Except.ok.injEq]
      exact ⟨fun same => ⟨not_not.mp good, by omega, same.symm⟩, fun accepted => accepted.2.2.symm⟩

/-- Every entry with non-zero index and version that the encoder accepts is what the decoder
returns. -/
theorem c4LogEntryDecode_encode [Zlib] {entry : C4LogEntry} {bytes : List UInt8}
    (indexed : entry.index ≠ 0) (versioned : entry.version ≠ 0)
    (encoded : c4LogEntryEncode entry = .ok bytes) : c4LogEntryDecode bytes = .ok entry := by
  obtain ⟨checksum, size, rfl⟩ := c4LogEntryEncode_ok.mp encoded
  unfold c4LogEntryDecode
  rw [if_neg (by
    rw [take_c4LogHeader, List.length_append, length_c4LogHeader]
    simp [c4LogHeaderSize])]
  have payloadSize := drop_c4LogHeader_payloadSize entry entry.checksum entry.payload
  have fits : entry.payloadSize.toNat ≤ maxPayloadSize ∧
      (c4LogHeader entry entry.checksum ++ entry.payload).length =
        c4LogHeaderSize + entry.payloadSize.toNat := by
    rw [C4LogEntry.toNat_payloadSize, List.length_append, length_c4LogHeader]
    exact ⟨by omega, rfl⟩
  simp only [payloadSize, dif_pos fits, drop_c4LogHeader_payload, c4LogEntryRead_c4LogHeader]
  rw [if_neg (by simp [indexed, versioned, checksum])]

/-- What a decoded entry satisfies. -/
theorem c4LogEntryDecode_ok [Zlib] {bytes : List UInt8} {entry : C4LogEntry}
    (decoded : c4LogEntryDecode bytes = .ok entry) :
    entry.index ≠ 0 ∧ entry.version ≠ 0 ∧ entry.checksum = c4LogEntryChecksum entry ∧
      entry.payload.length ≤ maxPayloadSize ∧
      bytes.length = c4LogHeaderSize + entry.payload.length := by
  unfold c4LogEntryDecode at decoded
  split at decoded
  · cases decoded
  · simp only at decoded
    split at decoded
    · rename_i fits
      split at decoded
      · cases decoded
      · rename_i sound
        simp only [Except.ok.injEq] at decoded
        subst decoded
        simp only [not_or, not_not] at sound
        have size : (c4LogEntryRead bytes (bytes.drop c4LogHeaderSize) (by
            refine length_lt_of_le_maxPayloadSize ?_
            rw [List.length_drop, fits.2]
            omega)).payload.length = (wireGetU32 (bytes.drop 36)).toNat := by
          show (bytes.drop c4LogHeaderSize).length = _
          rw [List.length_drop, fits.2]
          omega
        refine ⟨sound.1, sound.2.1, sound.2.2, ?_, ?_⟩
        · rw [size]; exact fits.1
        · rw [size]; exact fits.2
    · cases decoded

/-- The bytes of a decoded entry are its header and its payload. -/
theorem eq_of_c4LogEntryDecode [Zlib] {bytes : List UInt8} {entry : C4LogEntry}
    (decoded : c4LogEntryDecode bytes = .ok entry) :
    bytes = c4LogHeader entry entry.checksum ++ entry.payload := by
  unfold c4LogEntryDecode at decoded
  split at decoded
  · cases decoded
  · rename_i framed
    rw [not_or, not_lt, not_not] at framed
    simp only at decoded
    split at decoded
    · rename_i fits
      split at decoded
      · cases decoded
      · cases decoded
        rw [c4LogHeader_c4LogEntryRead _ framed.1 framed.2 (by
          rw [List.length_drop, fits.2]
          omega)]
        exact (List.take_append_drop _ _).symm
    · cases decoded

/-! ### The codec -/

/-- The encoder and the decoder are inverse to each other: on every entry with non-zero index
and version, a payload that leaves room for the header and a matching checksum, and on every
byte string within the limit of a payload that the decoder accepts. -/
theorem c4LogEntry_codec [Zlib] :
    (∀ entry : C4LogEntry, entry.index ≠ 0 → entry.version ≠ 0 →
      entry.payload.length ≤ maxPayloadSize - c4LogHeaderSize →
      entry.checksum = c4LogEntryChecksum entry →
      ∃ bytes, c4LogEntryEncode entry = .ok bytes ∧ c4LogEntryDecode bytes = .ok entry) ∧
    (∀ (bytes : List UInt8) (entry : C4LogEntry), bytes.length ≤ maxPayloadSize →
      c4LogEntryDecode bytes = .ok entry → c4LogEntryEncode entry = .ok bytes) := by
  constructor
  · intro entry indexed versioned small checksum
    have encoded := c4LogEntryEncode_ok.mpr ⟨checksum, small, rfl⟩
    exact ⟨_, encoded, c4LogEntryDecode_encode indexed versioned encoded⟩
  · intro bytes entry short decoded
    obtain ⟨-, -, checksum, -, size⟩ := c4LogEntryDecode_ok decoded
    refine c4LogEntryEncode_ok.mpr ⟨checksum, ?_, eq_of_c4LogEntryDecode decoded⟩
    omega

/-- An entry of three bytes, through the codec and back. -/
theorem c4LogEntry_codec_three_bytes :
    letI := Zlib.reference
    let entry := C4LogEntry.build 1 1 (Octets.fill transactionIdSize 7) [1, 2, 3] (by decide)
    ∃ bytes, c4LogEntryEncode entry = .ok bytes ∧ c4LogEntryDecode bytes = .ok entry ∧
      c4LogEntryEncode entry = .ok bytes := by
  let zlib := Zlib.reference
  let entry := C4LogEntry.build 1 1 (Octets.fill transactionIdSize 7) [1, 2, 3] (by decide)
  obtain ⟨bytes, encoded, decoded⟩ := c4LogEntry_codec.1 entry (by decide) (by decide) (by decide)
    (C4LogEntry.sealed_checksum _)
  have size : bytes.length = 47 := by
    rw [(c4LogEntryEncode_ok.mp encoded).2.2, List.length_append, length_c4LogHeader]
    rfl
  exact ⟨bytes, encoded, decoded, c4LogEntry_codec.2 bytes entry (by rw [size]; decide) decoded⟩

end SuperPeerNet
