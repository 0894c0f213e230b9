/-
This file follows the buffer of one page of the incremental state transfer.

The `M_IST_REQUEST` branch of `c4_cluster_handle` writes the items of a page into a buffer of
`MAX_PAYLOAD_SIZE` bytes, which it models here with every write checked against the end of the
buffer. What it leaves in the page is the longest run of entries after the cursor that fits, and
it stays inside of the buffer, unless that run ends within the last three bytes: there the room
left wraps around, and the next entry is written past the end.
-/

import SuperPeerNet.Cluster.Recovery
import SuperPeerNet.Log.Representation
import SuperPeerNet.Library.Bounded

namespace SuperPeerNet

open Bounded

section Batches

variable [Zlib] {Context : Type}

/-! ### The branch with its buffer -/

/-- The entries after the cursor of a request, if the branch admits the request. -/
def istMissing (errno : Errno) (cluster : C4Cluster Context) (request : Message) :
    Except Errno (List C4LogEntry) :=
  if request.payload.length ≠ 16 then .error errno
  else match c4MemberIsLiveSuperpeer cluster request.sourceNode with
    | .error code => .error code
    | .ok _ =>
      let requestedIndex := wireGetU64 request.payload
      let requestedVersion := wireGetU64 (request.payload.drop 8)
      if requestedIndex > c4LogLastIndex cluster.log then .error .enoent
      else if requestedIndex = 0 ∧ requestedVersion ≠ 0 then .error .erange
      else if requestedIndex > 0 then
        match c4LogGet cluster.log requestedIndex with
        | .error code => .error code
        | .ok previous =>
          if previous.version ≠ requestedVersion then .error .erange
          else .ok (cluster.log.entries.drop requestedIndex.toNat)
      else .ok (cluster.log.entries.drop requestedIndex.toNat)

/-- The loop that fills the page, with its two writes at the cursor. -/
def istStore : List C4LogEntry → List UInt8 → Nat → Access Errno (List UInt8 × Nat)
  | [], items, count => .ok (items, count)
  | entry :: rest, items, count => do
    let encoded ← lift (c4LogEntryEncode entry)
    let cursor := 4 + items.length
    if encoded.length > istRoom cursor then
      if count = 0 then refuse .emsgsize else .ok (items, count)
    else
      fit maxPayloadSize cursor 4
      fit maxPayloadSize (cursor + 4) encoded.length
      istStore rest (items ++ istItem encoded) (count + 1)

/-- The `M_IST_REQUEST` branch with its buffer: the count is written last, at the front. -/
def istServe (errno : Errno) (cluster : C4Cluster Context) (request : Message) :
    Access Errno (MessageType × List UInt8) := do
  let missing ← lift (istMissing errno cluster request)
  let (items, count) ← istStore missing [] 0
  fit maxPayloadSize 0 4
  return (.istBatch, wirePutU32 (UInt32.ofNat count) ++ items)

/-- The branch makes its checks, and then it fills a page. -/
theorem handleIstRequest_eq (errno : Errno) (cluster : C4Cluster Context) (request : Message) :
    handleIstRequest errno cluster request =
      (istMissing errno cluster request).bind fun missing =>
        (istFill missing [] 0).map fun page =>
          (.istBatch, wirePutU32 (UInt32.ofNat page.2) ++ page.1) := by
  unfold handleIstRequest istMissing
  by_cases size : request.payload.length ≠ 16
  · rw [if_pos size, if_pos size]
    rfl
  rw [if_neg size, if_neg size]
  cases c4MemberIsLiveSuperpeer cluster request.sourceNode with
  | error code => rfl
  | ok member =>
    dsimp only
    by_cases ahead : wireGetU64 request.payload > c4LogLastIndex cluster.log
    · rw [if_pos ahead, if_pos ahead]
      rfl
    rw [if_neg ahead, if_neg ahead]
    by_cases origin : wireGetU64 request.payload = 0 ∧ wireGetU64 (request.payload.drop 8) ≠ 0
    · rw [if_pos origin, if_pos origin]
      rfl
    rw [if_neg origin, if_neg origin]
    generalize cluster.log.entries.drop (wireGetU64 request.payload).toNat = missing
    by_cases positive : wireGetU64 request.payload > 0
    · rw [if_pos positive, if_pos positive]
      cases c4LogGet cluster.log (wireGetU64 request.payload) with
      | error code => rfl
      | ok previous =>
        dsimp only
        by_cases other : previous.version ≠ wireGetU64 (request.payload.drop 8)
        · rw [if_pos other, if_pos other]
          rfl
        · rw [if_neg other, if_neg other]
          show _ = (istFill missing [] 0).map _
          cases istFill missing [] 0 <;> rfl
    · rw [if_neg positive, if_neg positive]
      show _ = (istFill missing [] 0).map _
      cases istFill missing [] 0 <;> rfl

/-- One turn of the loop. -/
theorem istStore_cons {entry : C4LogEntry} {encoded : List UInt8}
    (encodes : c4LogEntryEncode entry = .ok encoded) (rest : List C4LogEntry)
    (items : List UInt8) (count : Nat) :
    istStore (entry :: rest) items count =
      if encoded.length > istRoom (4 + items.length) then
        if count = 0 then refuse .emsgsize else .ok (items, count)
      else if 4 + items.length + 4 + encoded.length ≤ maxPayloadSize then
        istStore rest (items ++ istItem encoded) (count + 1)
      else .error .outside := by
  rw [istStore, encodes, lift_ok, ok_bind]
  dsimp only
  by_cases full : encoded.length > istRoom (4 + items.length)
  · rw [if_pos full, if_pos full]
  · rw [if_neg full, if_neg full, fit, fit]
    by_cases size : 4 + items.length + 4 ≤ maxPayloadSize
    · rw [if_pos size, ok_bind]
      split <;> rfl
    · have past : ¬ 4 + items.length + 4 + encoded.length ≤ maxPayloadSize := by omega
      simp only [size, past, if_false]
      rfl

/-- As long as it stays inside of its buffer, the loop fills the page. -/
theorem istStore_eq_lift (entries : List C4LogEntry) (items : List UInt8) (count : Nat)
    (inside : Inside (istStore entries items count)) :
    istStore entries items count = lift (istFill entries items count) := by
  induction entries generalizing items count with
  | nil => rfl
  | cons entry rest inductionHypothesis =>
    cases encodes : c4LogEntryEncode entry with
    | error code =>
      rw [istStore, istFill, encodes]
      rfl
    | ok encoded =>
      rw [istStore_cons encodes] at inside ⊢
      rw [istFill, encodes]
      dsimp only
      by_cases full : encoded.length > istRoom (4 + items.length)
      · rw [if_pos full, if_pos full]
        split <;> rfl
      · rw [if_neg full] at inside ⊢
        rw [if_neg full]
        by_cases fits : 4 + items.length + 4 + encoded.length ≤ maxPayloadSize
        · rw [if_pos fits] at inside ⊢
          exact inductionHypothesis _ _ inside
        · rw [if_neg fits] at inside
          exact absurd rfl inside

/-- What the branch makes of the page. -/
theorem istServe_eq {errno : Errno} {cluster : C4Cluster Context} {request : Message}
    {missing : List C4LogEntry} (admitted : istMissing errno cluster request = .ok missing) :
    istServe errno cluster request = (istStore missing [] 0).map fun page =>
      (.istBatch, wirePutU32 (UInt32.ofNat page.2) ++ page.1) := by
  rw [istServe, admitted, lift_ok, ok_bind]
  cases istStore missing [] 0 <;> rfl

/-- As long as it stays inside of its buffer, the branch answers as it does without one. -/
theorem istServe_eq_lift {errno : Errno} {cluster : C4Cluster Context} {request : Message}
    (inside : Inside (istServe errno cluster request)) :
    istServe errno cluster request = lift (handleIstRequest errno cluster request) := by
  rw [handleIstRequest_eq]
  cases admitted : istMissing errno cluster request with
  | error code =>
    rw [istServe, admitted]
    rfl
  | ok missing =>
    rw [istServe_eq admitted] at inside ⊢
    have inBuffer : Inside (istStore missing [] 0) := by
      intro outside
      rw [outside] at inside
      exact inside rfl
    rw [istStore_eq_lift missing [] 0 inBuffer]
    show _ = lift ((istFill missing [] 0).map _)
    cases istFill missing [] 0 <;> rfl

/-! ### The longest run -/

/-- The bytes of a page that holds some entries. -/
def pageSize (run : List C4LogEntry) : Nat := 4 + (itemsOf run).length

/-- The run of entries at the front that fits into a page of which `used` bytes are taken. -/
def fittingRun : Nat → List C4LogEntry → List C4LogEntry
  | _, [] => []
  | used, entry :: rest =>
    if used + istItemSize entry ≤ maxPayloadSize then
      entry :: fittingRun (used + istItemSize entry) rest
    else []

/-- The longest run of consecutive entries from the front that fits into a page. -/
structure LongestRun (missing run : List C4LogEntry) : Prop where
  isPrefix : run <+: missing
  fits : pageSize run ≤ maxPayloadSize
  longest : ∀ other, other <+: missing → pageSize other ≤ maxPayloadSize → other <+: run

omit [Zlib] in
theorem length_itemsOf_cons (entry : C4LogEntry) (rest : List C4LogEntry) :
    (itemsOf (entry :: rest)).length = istItemSize entry + (itemsOf rest).length := by
  show (istItem (c4LogRecord entry) ++ itemsOf rest).length = _
  rw [List.length_append, length_istItem, length_c4LogRecord, istItemSize]
  omega

omit [Zlib] in
theorem fittingRun_prefix (used : Nat) (missing : List C4LogEntry) :
    fittingRun used missing <+: missing := by
  induction missing generalizing used with
  | nil => exact List.nil_prefix
  | cons entry rest inductionHypothesis =>
    rw [fittingRun]
    split
    · exact (List.prefix_cons_inj entry).mpr (inductionHypothesis _)
    · exact List.nil_prefix

omit [Zlib] in
theorem fittingRun_fits {used : Nat} (inside : used ≤ maxPayloadSize)
    (missing : List C4LogEntry) :
    used + (itemsOf (fittingRun used missing)).length ≤ maxPayloadSize := by
  induction missing generalizing used with
  | nil => exact inside
  | cons entry rest inductionHypothesis =>
    rw [fittingRun]
    split
    · rename_i fits
      have later := inductionHypothesis fits
      rw [length_itemsOf_cons]
      omega
    · exact inside

omit [Zlib] in
theorem fittingRun_longest {used : Nat} {missing other : List C4LogEntry}
    (earlier : other <+: missing) (fits : used + (itemsOf other).length ≤ maxPayloadSize) :
    other <+: fittingRun used missing := by
  induction missing generalizing used other with
  | nil => exact earlier
  | cons entry rest inductionHypothesis =>
    cases other with
    | nil => exact List.nil_prefix
    | cons first others =>
      obtain ⟨rfl, later⟩ := List.cons_prefix_cons.mp earlier
      rw [length_itemsOf_cons] at fits
      rw [fittingRun, if_pos (by omega)]
      exact List.cons_prefix_cons.mpr ⟨rfl, inductionHypothesis later (by omega)⟩

omit [Zlib] in
theorem longestRun_fittingRun (missing : List C4LogEntry) :
    LongestRun missing (fittingRun 4 missing) where
  isPrefix := fittingRun_prefix 4 missing
  fits := fittingRun_fits (by decide) missing
  longest := fun _ earlier fits => fittingRun_longest earlier fits

omit [Zlib] in
theorem LongestRun.unique {missing run other : List C4LogEntry} (first : LongestRun missing run)
    (second : LongestRun missing other) : run = other :=
  (second.longest run first.isPrefix first.fits).eq_of_length_le
    (first.longest other second.isPrefix second.fits).length_le

/-! ### What the loop does -/

/-- What the loop makes of the entry after the run that fits, with `used` bytes in the page and
`count` entries in it: an entry that has no encoding is refused, and within the last three bytes
of the buffer an entry is written past its end. -/
def stopAt (entry : C4LogEntry) (used : Nat) (page : List UInt8 × Nat) :
    Access Errno (List UInt8 × Nat) :=
  if entry.payload.length > maxPayloadSize - c4LogHeaderSize then refuse .emsgsize
  else if maxPayloadSize - 4 < used then .error .outside
  else if page.2 = 0 then refuse .emsgsize
  else .ok page

/-- The loop takes the run that fits, and then it stops at the next entry. -/
theorem istStore_fittingRun {missing : List C4LogEntry} (sound : ∀ entry ∈ missing, entry.Sound)
    (items : List UInt8) (count : Nat) (inside : 4 + items.length ≤ maxPayloadSize) :
    istStore missing items count =
      let run := fittingRun (4 + items.length) missing
      let page := (items ++ itemsOf run, count + run.length)
      match missing.drop run.length with
      | [] => .ok page
      | entry :: _ => stopAt entry (4 + page.1.length) page := by
  induction missing generalizing items count with
  | nil =>
    show (Except.ok (items, count) : Access Errno _) = .ok (items ++ [], count + 0)
    rw [List.append_nil, Nat.add_zero]
  | cons entry rest inductionHypothesis =>
    have restSound := fun other member => sound other (List.mem_cons_of_mem _ member)
    have encode := c4LogEntryEncode_of_sound (sound entry List.mem_cons_self)
    by_cases fits : 4 + items.length + istItemSize entry ≤ maxPayloadSize
    · -- The entry goes into the page, and the run goes on behind it.
      have size : istItemSize entry = 48 + entry.payload.length := rfl
      have grown : (items ++ istItem (c4LogRecord entry)).length =
          items.length + istItemSize entry := by
        rw [List.length_append, length_istItem, length_c4LogRecord, size]
        omega
      have clear : 4 + items.length ≤ maxPayloadSize - 4 := by omega
      have later := inductionHypothesis restSound (items ++ istItem (c4LogRecord entry))
        (count + 1) (by rw [grown]; omega)
      rw [if_neg (by unfold c4LogHeaderSize; omega)] at encode
      rw [istStore_cons encode, length_c4LogRecord, istRoom_of_le clear, if_neg (by omega),
        if_pos (by omega), later, fittingRun, if_pos fits]
      simp only [grown, ← Nat.add_assoc, List.length_cons, List.drop_succ_cons]
      have items_eq : ∀ run, items ++ istItem (c4LogRecord entry) ++ itemsOf run =
          items ++ itemsOf (entry :: run) := fun run => (itemsOf_cons items entry run).symm
      simp only [items_eq, Nat.add_right_comm count 1]
    · -- The entry does not fit, so the run ends here.
      have size : istItemSize entry = 48 + entry.payload.length := rfl
      have unchanged : items ++ itemsOf [] = items := List.append_nil items
      rw [fittingRun, if_neg fits]
      simp only [List.length_nil, List.drop_zero, Nat.add_zero, unchanged]
      unfold stopAt
      by_cases large : entry.payload.length > maxPayloadSize - c4LogHeaderSize
      · rw [if_pos large] at encode
        rw [istStore, encode, if_pos large]
        rfl
      rw [if_neg large] at encode
      rw [if_neg large, istStore_cons encode, length_c4LogRecord]
      by_cases past : maxPayloadSize - 4 < 4 + items.length
      · -- The room left has wrapped around, so the entry is written.
        have room := istRoom_of_overrun past inside
        have wide : 44 ≤ maxPayloadSize := by decide
        rw [if_pos past, if_neg (by unfold c4LogHeaderSize at large; omega), if_neg (by omega)]
      · rw [if_neg past, istRoom_of_le (by omega), if_pos (by omega)]

/-! ### The bounds of a page -/

/-- No run of entries from the front ends within the last three bytes of the page while an entry
follows it that can be encoded. -/
def PageClear (missing : List C4LogEntry) : Prop :=
  ∀ run entry rest, missing = run ++ entry :: rest →
    entry.payload.length ≤ maxPayloadSize - c4LogHeaderSize →
      ¬ (maxPayloadSize - 4 < pageSize run ∧ pageSize run ≤ maxPayloadSize)

/-- The reply with a page. -/
def batchOf (run : List C4LogEntry) : MessageType × List UInt8 :=
  (.istBatch, wirePutU32 (UInt32.ofNat run.length) ++ itemsOf run)

/-- The branch writes nothing outside of its buffer, and a page that it replies with has the size
of a payload and holds exactly the longest run that fits. -/
structure BatchWithin (missing : List C4LogEntry)
    (outcome : Access Errno (MessageType × List UInt8)) : Prop where
  inside : Inside outcome
  batch : ∀ messageType payload, outcome = .ok (messageType, payload) →
    payload.length ≤ maxPayloadSize ∧
      ∃ run, LongestRun missing run ∧ (messageType, payload) = batchOf run

omit [Zlib] in
/-- A run that ends within the last three bytes of a page is the longest one that fits: no entry
takes fewer bytes. -/
theorem longestRun_of_nearEnd {missing run : List C4LogEntry} {entry : C4LogEntry}
    {rest : List C4LogEntry} (split : missing = run ++ entry :: rest)
    (near : maxPayloadSize - 4 < pageSize run) (fits : pageSize run ≤ maxPayloadSize) :
    LongestRun missing run where
  isPrefix := ⟨entry :: rest, split.symm⟩
  fits := fits
  longest := by
    intro other earlier otherFits
    refine List.prefix_of_prefix_length_le earlier ⟨entry :: rest, split.symm⟩ ?_
    by_contra longer
    obtain ⟨more, rfl⟩ := List.prefix_of_prefix_length_le ⟨entry :: rest, split.symm⟩ earlier
      (by omega)
    cases more with
    | nil => simp at longer
    | cons first more =>
      have size : pageSize (run ++ first :: more) =
          pageSize run + (istItemSize first + (itemsOf more).length) := by
        rw [pageSize, pageSize, itemsOf, List.flatMap_append, List.length_append, Nat.add_assoc]
        exact congrArg (4 + ((itemsOf run).length + ·)) (length_itemsOf_cons first more)
      unfold istItemSize at size
      omega

omit [Zlib] in
theorem length_batchOf (run : List C4LogEntry) : (batchOf run).2.length = pageSize run := by
  rw [batchOf, List.length_append, length_wirePutU32, pageSize]

section Branch

variable {errno : Errno} {cluster : C4Cluster Context} {request : Message}
  {missing run : List C4LogEntry}

omit [Zlib] in
/-- What a request asks for is the end of the log. -/
theorem istMissing_eq_drop (admitted : istMissing errno cluster request = .ok missing) :
    missing = cluster.log.entries.drop (wireGetU64 request.payload).toNat := by
  unfold istMissing at admitted
  dsimp only at admitted
  split at admitted
  · cases admitted
  · split at admitted
    · cases admitted
    · split at admitted
      · cases admitted
      · split at admitted
        · cases admitted
        · split at admitted
          · split at admitted
            · cases admitted
            · split at admitted
              · cases admitted
              · exact (Except.ok.inj admitted).symm
          · exact (Except.ok.inj admitted).symm

/-- If every missing entry fits, the branch replies with all of them. -/
theorem istServe_all (admitted : istMissing errno cluster request = .ok missing)
    (sound : ∀ entry ∈ missing, entry.Sound) (longest : LongestRun missing missing) :
    istServe errno cluster request = .ok (batchOf missing) := by
  have filled := istStore_fittingRun sound [] 0 (by decide)
  have same : fittingRun 4 missing = missing := (longestRun_fittingRun missing).unique longest
  have start : 4 + ([] : List UInt8).length = 4 := rfl
  rw [start, same] at filled
  dsimp only at filled
  rw [List.nil_append, Nat.zero_add, List.drop_length] at filled
  rw [istServe_eq admitted, filled]
  rfl

/-- Otherwise it depends on the entry after the longest run. -/
theorem istServe_next (admitted : istMissing errno cluster request = .ok missing)
    (sound : ∀ entry ∈ missing, entry.Sound) (longest : LongestRun missing run)
    {entry : C4LogEntry} {rest : List C4LogEntry} (split : missing = run ++ entry :: rest) :
    istServe errno cluster request =
      (stopAt entry (pageSize run) (itemsOf run, run.length)).map fun page =>
        (.istBatch, wirePutU32 (UInt32.ofNat page.2) ++ page.1) := by
  have filled := istStore_fittingRun sound [] 0 (by decide)
  have same : fittingRun 4 missing = run := (longestRun_fittingRun missing).unique longest
  have start : 4 + ([] : List UInt8).length = 4 := rfl
  rw [start, same] at filled
  dsimp only at filled
  rw [List.nil_append, Nat.zero_add, split, List.drop_left] at filled
  rw [istServe_eq admitted, split, filled]
  rfl

/-- Where the page is clear, the branch refuses a request if not even one entry fits or if the
entry after the run has no encoding, and otherwise it replies with the run. -/
theorem istServe_next_of_clear (admitted : istMissing errno cluster request = .ok missing)
    (sound : ∀ entry ∈ missing, entry.Sound) (longest : LongestRun missing run)
    (clear : PageClear missing) {entry : C4LogEntry} {rest : List C4LogEntry}
    (split : missing = run ++ entry :: rest) :
    istServe errno cluster request =
      if run = [] ∨ entry.payload.length > maxPayloadSize - c4LogHeaderSize then refuse .emsgsize
      else .ok (batchOf run) := by
  rw [istServe_next admitted sound longest split, stopAt]
  by_cases large : entry.payload.length > maxPayloadSize - c4LogHeaderSize
  · rw [if_pos large, if_pos (Or.inr large)]
    rfl
  · have room : ¬ maxPayloadSize - 4 < pageSize run := fun near =>
      clear run entry rest split (not_lt.mp large) ⟨near, longest.fits⟩
    rw [if_neg large, if_neg room]
    by_cases none : run = []
    · rw [if_pos (Or.inl none), if_pos (by rw [none]; rfl)]
      rfl
    · rw [if_neg (not_or.mpr ⟨none, large⟩), if_neg (mt List.length_eq_zero_iff.mp none)]
      rfl

/-- Where the page is not clear, the branch writes outside of its buffer. -/
theorem istServe_of_nearEnd (admitted : istMissing errno cluster request = .ok missing)
    (sound : ∀ entry ∈ missing, entry.Sound) {entry : C4LogEntry} {rest : List C4LogEntry}
    (split : missing = run ++ entry :: rest)
    (small : entry.payload.length ≤ maxPayloadSize - c4LogHeaderSize)
    (near : maxPayloadSize - 4 < pageSize run) (fits : pageSize run ≤ maxPayloadSize) :
    istServe errno cluster request = .error .outside := by
  rw [istServe_next admitted sound (longestRun_of_nearEnd split near fits) split, stopAt,
    if_neg (not_lt.mpr small), if_pos near]
  rfl

/-- For every log that can be reached and every cursor that is admitted, the branch keeps to its
buffer and to the longest run exactly when the page is clear. Then it replies with the longest
run, unless that run is empty although entries are missing, or the entry after it is too large to
be encoded; these it refuses. -/
theorem ist_batch_bounds (reachable : cluster.log.Reachable)
    (admitted : istMissing errno cluster request = .ok missing) :
    (BatchWithin missing (istServe errno cluster request) ↔ PageClear missing) ∧
      (PageClear missing → ∀ run, LongestRun missing run →
        (missing = run → istServe errno cluster request = .ok (batchOf run)) ∧
        ∀ entry rest, missing = run ++ entry :: rest → istServe errno cluster request =
          if run = [] ∨ entry.payload.length > maxPayloadSize - c4LogHeaderSize then
            refuse .emsgsize
          else .ok (batchOf run)) := by
  have sound : ∀ entry ∈ missing, entry.Sound := by
    intro entry member
    rw [istMissing_eq_drop admitted] at member
    exact reachable.consistent.entries.sound entry (List.mem_of_mem_drop member)
  have answers : PageClear missing → ∀ run, LongestRun missing run →
      (missing = run → istServe errno cluster request = .ok (batchOf run)) ∧
      ∀ entry rest, missing = run ++ entry :: rest → istServe errno cluster request =
        if run = [] ∨ entry.payload.length > maxPayloadSize - c4LogHeaderSize then
          refuse .emsgsize
        else .ok (batchOf run) := by
    intro clear run longest
    constructor
    · rintro rfl
      exact istServe_all admitted sound longest
    · intro entry rest split
      exact istServe_next_of_clear admitted sound longest clear split
  refine ⟨⟨fun within run entry rest split small near => ?_, fun clear => ?_⟩, answers⟩
  · exact within.inside (istServe_of_nearEnd admitted sound split small near.1 near.2)
  · have longest := longestRun_fittingRun missing
    have replies : istServe errno cluster request = refuse .emsgsize ∨
        istServe errno cluster request = .ok (batchOf (fittingRun 4 missing)) := by
      obtain ⟨all, next⟩ := answers clear _ longest
      obtain ⟨left, split⟩ := longest.isPrefix
      cases left with
      | nil =>
        rw [List.append_nil] at split
        exact Or.inr (all split.symm)
      | cons entry rest =>
        rw [next entry rest split.symm]
        split_ifs
        · exact Or.inl rfl
        · exact Or.inr rfl
    constructor
    · rcases replies with refused | replied
      · rw [refused]
        exact nofun
      · rw [replied]
        exact nofun
    · intro messageType payload replied
      rcases replies with refused | done
      · rw [refused] at replied
        cases replied
      · rw [done] at replied
        have same := Except.ok.inj replied
        refine ⟨?_, _, longest, same.symm⟩
        have size := length_batchOf (fittingRun 4 missing)
        rw [same] at size
        exact size.trans_le longest.fits

end Branch

/-! ### Two pages -/

omit [Zlib] in
theorem log_pairCluster (own other : UInt8) (log : C4Log) :
    (pairCluster own other log).log = log := rfl

/-- A request at the origin, from the first of two super peers to the second. -/
def originRequest : Message where
  messageType := .istRequest
  sourceNode := Octets.fill nodeIdSize 1
  destinationNode := Octets.fill nodeIdSize 2
  transactionId := Octets.fill transactionIdSize 0
  payload := istCursor 0 0

omit [Zlib] in
/-- At the origin every entry is missing. -/
theorem istMissing_originRequest (log : C4Log) :
    istMissing .eio (pairCluster 2 1 log) originRequest = .ok log.entries := by
  have index : wireGetU64 originRequest.payload = 0 := by decide
  have version : wireGetU64 (originRequest.payload.drop 8) = 0 := by decide
  have live : c4MemberIsLiveSuperpeer (pairCluster 2 1 log) originRequest.sourceNode =
      .ok ⟨Octets.fill nodeIdSize 1, .superPeer, .alive, false⟩ := rfl
  unfold istMissing
  rw [if_neg (by decide), live]
  dsimp only
  rw [index, version, if_neg (UInt64.not_lt.mpr (UInt64.zero_le)), if_neg (by simp),
    if_neg (by decide)]
  rfl

/-- The first of two entries, with a payload of zeros. -/
def zerosEntry (size : Nat) (bound : size < 2 ^ 32) : C4LogEntry :=
  C4LogEntry.build 1 1 (Octets.fill transactionIdSize 1) (List.replicate size 0)
    (by rwa [List.length_replicate])

/-- The second of two entries. -/
def shortEntry : C4LogEntry :=
  C4LogEntry.build 2 2 (Octets.fill transactionIdSize 2) [7] (by decide)

/-- A new log after two entries have been appended. -/
def twoEntryLog (size : Nat) (bound : size < 2 ^ 32) : C4Log :=
  (C4Log.fresh.act (.call (.appendEntry (zerosEntry size bound)))).act
    (.call (.appendEntry shortEntry))

theorem reachable_twoEntryLog (size : Nat) (bound : size < 2 ^ 32) :
    (twoEntryLog size bound).Reachable :=
  (C4Log.reachable_fresh.acted _).acted _

theorem entries_twoEntryLog {size : Nat} (small : size ≤ maxPayloadSize) (bound : size < 2 ^ 32) :
    (twoEntryLog size bound).entries = [zerosEntry size bound, shortEntry] := by
  have first : C4Log.fresh.Extends (zerosEntry size bound) := by
    refine ⟨C4LogEntry.build_sound _ _ (by decide) (by decide) ?_, rfl, rfl, by decide⟩
    rwa [List.length_replicate]
  have appendedFirst : C4Log.fresh.act (.call (.appendEntry (zerosEntry size bound))) =
      C4Log.fresh.withEntry (zerosEntry size bound) := by
    show (c4LogAppendEntry _ _).1 = _
    rw [c4LogAppendEntry, appendLocked_withEntry first rfl]
  have second : (C4Log.fresh.withEntry (zerosEntry size bound)).Extends shortEntry :=
    ⟨C4LogEntry.build_sound _ _ (by decide) (by decide) (by decide), rfl, rfl,
      by rw [C4Log.withEntry_entries]; show 1 < 2 ^ 58; norm_num⟩
  have absent : findEntry (C4Log.fresh.withEntry (zerosEntry size bound))
      shortEntry.transactionId = none := by
    rw [findEntry_withEntry]
    show (none : Option C4LogEntry).or (if _ then _ else _) = _
    rw [if_neg]
    · rfl
    · show Octets.fill transactionIdSize 1 ≠ Octets.fill transactionIdSize 2
      decide
  rw [twoEntryLog, appendedFirst]
  show (c4LogAppendEntry _ _).1.entries = _
  rw [c4LogAppendEntry, appendLocked_withEntry second absent]
  rfl

omit [Zlib] in
/-- A page with room for everything is clear. -/
theorem pageClear_of_small {missing : List C4LogEntry}
    (small : pageSize missing ≤ maxPayloadSize - 4) : PageClear missing := by
  rintro run entry rest rfl - ⟨near, -⟩
  unfold pageSize at small near
  rw [itemsOf, List.flatMap_append, List.length_append] at small
  unfold itemsOf at near
  omega

/-- The size of a page with the entry of zeros. -/
theorem pageSize_zerosEntry (size : Nat) (bound : size < 2 ^ 32) :
    pageSize [zerosEntry size bound] = 52 + size := by
  have length : (zerosEntry size bound).payload.length = size := List.length_replicate
  rw [pageSize, length_itemsOf_cons, istItemSize, length]
  show 4 + (48 + size + 0) = _
  omega

end Batches

/-- A page of two small entries. -/
theorem ist_batch_bounds_small :
    letI := Zlib.reference
    BatchWithin (twoEntryLog 3 (by decide)).entries
      (istServe .eio (pairCluster 2 1 (twoEntryLog 3 (by decide))) originRequest) := by
  let zlib := Zlib.reference
  have reachable : (pairCluster 2 1 (twoEntryLog 3 (by decide))).log.Reachable := by
    rw [log_pairCluster]
    exact reachable_twoEntryLog 3 (by decide)
  have admitted := istMissing_originRequest (twoEntryLog 3 (by decide))
  refine (ist_batch_bounds reachable admitted).1.mpr (pageClear_of_small ?_)
  rw [entries_twoEntryLog (by unfold maxPayloadSize; omega)]
  show 4 + (itemsOf [_, _]).length ≤ _
  rw [length_itemsOf_cons, length_itemsOf_cons]
  show 4 + (48 + 3 + (48 + 1 + 0)) ≤ _
  unfold maxPayloadSize
  omega

/-- An entry of `MAX_PAYLOAD_SIZE - 52` zeros fills its page to the last byte, and the next entry
is written behind it. -/
theorem not_batchWithin_full_page :
    letI := Zlib.reference
    (twoEntryLog (maxPayloadSize - 52) (by decide)).Reachable ∧
      istMissing .eio (pairCluster 2 1 (twoEntryLog (maxPayloadSize - 52) (by decide)))
        originRequest = .ok (twoEntryLog (maxPayloadSize - 52) (by decide)).entries ∧
      ¬ BatchWithin (twoEntryLog (maxPayloadSize - 52) (by decide)).entries
        (istServe .eio (pairCluster 2 1 (twoEntryLog (maxPayloadSize - 52) (by decide)))
          originRequest) := by
  let zlib := Zlib.reference
  have admitted := istMissing_originRequest (twoEntryLog (maxPayloadSize - 52) (by decide))
  refine ⟨reachable_twoEntryLog _ _, admitted, fun within => within.inside ?_⟩
  have entries := entries_twoEntryLog (Nat.sub_le maxPayloadSize 52) (by decide)
  have size := pageSize_zerosEntry (maxPayloadSize - 52) (by decide)
  have full : pageSize [zerosEntry (maxPayloadSize - 52) (by decide)] = maxPayloadSize := by
    rw [size]
    decide
  refine istServe_of_nearEnd admitted ?_ entries (by decide) (by rw [full]; decide) full.le
  intro entry member
  exact (reachable_twoEntryLog _ _).consistent.entries.sound entry member

end SuperPeerNet
