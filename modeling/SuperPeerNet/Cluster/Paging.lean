/-
This file follows one page of the incremental state transfer from the member that
fills it to the receiver that validates it.

The member takes entries from the front of what the receiver is missing, until the
next one does not fit. The paging condition at the start of the file says of a list
of entries when all of it gets through: every entry fits into a page of its own, and
no page comes so close to the end of its buffer that the room left wraps around. The
receiver accepts a page that goes on where its cursor stands, unless the page repeats
a transaction that it has.
-/

import SuperPeerNet.Cluster.Handle

namespace SuperPeerNet

section Paging

variable [Zlib]

/-! ### The paging condition -/

/-- The bytes that an entry takes in a page: its size, its header and its payload. -/
def istItemSize (entry : C4LogEntry) : Nat := 48 + entry.payload.length

/-- With `used` bytes taken in the current page, no page that is followed by another entry is
filled to within fewer than four bytes of the buffer's end. Pages are filled greedily and
begin with the four bytes of the count. -/
def PagesClear : Nat → List C4LogEntry → Prop
  | _, [] => True
  | used, entry :: rest =>
    used ≤ maxPayloadSize - 4 ∧
      PagesClear (if used + istItemSize entry ≤ maxPayloadSize then used + istItemSize entry
        else 4 + istItemSize entry) rest

/-- Every entry fits into a page of its own, and no page overruns its buffer. -/
def FitsFrom (used : Nat) (entries : List C4LogEntry) : Prop :=
  (∀ entry ∈ entries, entry.payload.length ≤ maxPayloadSize - 52) ∧ PagesClear used entries

/-- The entries can be transferred from the start of a page on. -/
def Transferable (entries : List C4LogEntry) : Prop := FitsFrom 4 entries

/-! ### What a page holds -/

/-- The bytes of some entries in a page. -/
def itemsOf (entries : List C4LogEntry) : List UInt8 :=
  entries.flatMap fun entry => istItem (c4LogRecord entry)

omit [Zlib] in
@[simp] theorem length_istItem (encoded : List UInt8) :
    (istItem encoded).length = 4 + encoded.length := by
  simp [istItem]

omit [Zlib] in
theorem length_c4LogRecord (entry : C4LogEntry) :
    (c4LogRecord entry).length = 44 + entry.payload.length := by
  simp [c4LogRecord]

omit [Zlib] in
theorem istRoom_of_le {cursor : Nat} (inside : cursor ≤ maxPayloadSize - 4) :
    istRoom cursor = maxPayloadSize - cursor - 4 := by
  unfold istRoom maxPayloadSize at *
  omega

omit [Zlib] in
/-- Within the last three bytes of the buffer the room left wraps around. -/
theorem istRoom_of_overrun {cursor : Nat} (past : maxPayloadSize - 4 < cursor)
    (inside : cursor ≤ maxPayloadSize) : maxPayloadSize ≤ istRoom cursor := by
  unfold istRoom maxPayloadSize at *
  omega

theorem c4LogEntryEncode_of_sound {entry : C4LogEntry} (sound : entry.Sound) :
    c4LogEntryEncode entry =
      if entry.payload.length > maxPayloadSize - c4LogHeaderSize then .error .emsgsize
      else .ok (c4LogRecord entry) := by
  rw [c4LogEntryEncode, if_neg (not_not.mpr sound.2.2.2)]
  rfl

/-- The loop never removes what is in the page. -/
theorem istFill_grows {rest : List C4LogEntry} {items filled : List UInt8} {count total : Nat}
    (done : istFill rest items count = .ok (filled, total)) : items.length ≤ filled.length := by
  induction rest generalizing items count with
  | nil =>
    cases done
    exact le_refl _
  | cons entry rest inductionHypothesis =>
    rw [istFill] at done
    split at done
    · cases done
    · split at done
      · split at done
        · cases done
        · cases done
          exact le_refl _
      · have grown := inductionHypothesis done
        rw [List.length_append] at grown
        omega

/-- How the loop that fills a page can end: with a page of entries from the front, or with
none because an entry does not fit, or with a page that is larger than the buffer. -/
inductive FillOutcome (rest : List C4LogEntry) (items : List UInt8) (count : Nat) :
    Except Errno (List UInt8 × Nat) → Prop
  | page (taken left : List C4LogEntry) (split : rest = taken ++ left)
      (size : 4 + (items ++ itemsOf taken).length ≤ maxPayloadSize)
      (small : ∀ entry ∈ taken, entry.payload.length ≤ maxPayloadSize - 52)
      (progress : count + taken.length = 0 → rest = [])
      (remaining : FitsFrom (4 + items.length) rest ↔ FitsFrom 4 left) :
      FillOutcome rest items count (.ok (items ++ itemsOf taken, count + taken.length))
  | refused (code : Errno) (unfit : ¬ FitsFrom (4 + items.length) rest) :
      FillOutcome rest items count (.error code)
  | overrun (filled : List UInt8) (total : Nat) (large : maxPayloadSize < 4 + filled.length)
      (unfit : ¬ FitsFrom (4 + items.length) rest) :
      FillOutcome rest items count (.ok (filled, total))

omit [Zlib] in
theorem fitsFrom_cons {used : Nat} {entry : C4LogEntry} (rest : List C4LogEntry)
    (inside : used ≤ maxPayloadSize - 4) (fits : used + istItemSize entry ≤ maxPayloadSize)
    (small : entry.payload.length ≤ maxPayloadSize - 52) :
    FitsFrom used (entry :: rest) ↔ FitsFrom (used + istItemSize entry) rest := by
  unfold FitsFrom
  rw [PagesClear, if_pos fits, List.forall_mem_cons]
  exact ⟨fun all => ⟨all.1.2, all.2.2⟩, fun all => ⟨⟨small, all.1⟩, inside, all.2⟩⟩

omit [Zlib] in
/-- An entry that does not fit into the rest of a page starts the next one. -/
theorem fitsFrom_newPage {used : Nat} {entry : C4LogEntry} {rest : List C4LogEntry}
    (inside : used ≤ maxPayloadSize - 4) (full : ¬ used + istItemSize entry ≤ maxPayloadSize) :
    FitsFrom used (entry :: rest) ↔ FitsFrom 4 (entry :: rest) := by
  unfold FitsFrom
  refine and_congr_right fun _ => ?_
  rw [PagesClear, PagesClear, if_neg full, ite_self]
  exact and_congr_left fun _ => ⟨fun _ => by decide, fun _ => inside⟩

omit [Zlib] in
/-- A page that takes nothing more is as it was. -/
theorem fillOutcome_stop {rest : List C4LogEntry} {items : List UInt8} {count : Nat}
    (inside : 4 + items.length ≤ maxPayloadSize) (progress : count = 0 → rest = [])
    (remaining : FitsFrom (4 + items.length) rest ↔ FitsFrom 4 rest) :
    FillOutcome rest items count (.ok (items, count)) := by
  have same : items ++ itemsOf [] = items := by simp [itemsOf]
  have page : FillOutcome rest items count (.ok (items ++ itemsOf [], count + 0)) :=
    .page [] rest rfl (by rw [same]; exact inside) (List.forall_mem_nil _) progress remaining
  rw [same] at page
  exact page

omit [Zlib] in
/-- A page that takes one more entry goes on with the rest. -/
theorem fillOutcome_cons {entry : C4LogEntry} {rest : List C4LogEntry} {items : List UInt8}
    {count : Nat} {result : Except Errno (List UInt8 × Nat)}
    (inside : 4 + items.length ≤ maxPayloadSize - 4)
    (fits : 4 + items.length + istItemSize entry ≤ maxPayloadSize)
    (outcome : FillOutcome rest (items ++ istItem (c4LogRecord entry)) (count + 1) result) :
    FillOutcome (entry :: rest) items count result := by
  have small : entry.payload.length ≤ maxPayloadSize - 52 := by
    unfold istItemSize maxPayloadSize at *
    omega
  have used : 4 + (items ++ istItem (c4LogRecord entry)).length =
      4 + items.length + istItemSize entry := by
    rw [List.length_append, length_istItem, length_c4LogRecord]
    unfold istItemSize
    omega
  have step := fitsFrom_cons rest inside fits small
  rw [← used] at step
  cases outcome with
  | page taken left split size smallTaken progress remaining =>
    have joined : items ++ istItem (c4LogRecord entry) ++ itemsOf taken =
        items ++ itemsOf (entry :: taken) := by
      simp [itemsOf]
    have counted : count + 1 + taken.length = count + (entry :: taken).length := by
      rw [List.length_cons]
      omega
    rw [joined, counted]
    refine .page (entry :: taken) left (by rw [split]; rfl) (joined ▸ size) ?_ ?_ ?_
    · intro other member
      rcases List.mem_cons.mp member with rfl | inTaken
      · exact small
      · exact smallTaken other inTaken
    · intro zero
      rw [List.length_cons] at zero
      omega
    · rw [step]
      exact remaining
  | refused code unfit => exact .refused code (by rw [step]; exact unfit)
  | overrun filled total large unfit =>
    exact .overrun filled total large (by rw [step]; exact unfit)

theorem istFill_outcome {rest : List C4LogEntry} {items : List UInt8} {count : Nat}
    (sound : ∀ entry ∈ rest, entry.Sound) (inside : 4 + items.length ≤ maxPayloadSize)
    (empty : count = 0 → items = []) : FillOutcome rest items count (istFill rest items count) := by
  induction rest generalizing items count with
  | nil =>
    rw [istFill]
    exact fillOutcome_stop inside (fun _ => rfl)
      (iff_of_true ⟨List.forall_mem_nil _, trivial⟩ ⟨List.forall_mem_nil _, trivial⟩)
  | cons entry rest inductionHypothesis =>
    have restSound := fun other member => sound other (List.mem_cons_of_mem _ member)
    rw [istFill, c4LogEntryEncode_of_sound (sound entry List.mem_cons_self)]
    by_cases large : entry.payload.length > maxPayloadSize - c4LogHeaderSize
    · rw [if_pos large]
      refine .refused _ fun fits => ?_
      have small := fits.1 entry List.mem_cons_self
      unfold maxPayloadSize c4LogHeaderSize at *
      omega
    rw [if_neg large]
    simp only [length_c4LogRecord]
    by_cases past : maxPayloadSize - 4 < 4 + items.length
    · -- The room left has wrapped around, so the entry is written past the end of the buffer.
      have unfit : ¬ FitsFrom (4 + items.length) (entry :: rest) := by
        rintro ⟨-, clear, -⟩
        omega
      have room := istRoom_of_overrun past inside
      rw [if_neg (by unfold maxPayloadSize c4LogHeaderSize at *; omega)]
      cases done : istFill rest (items ++ istItem (c4LogRecord entry)) (count + 1) with
      | error code => exact .refused code unfit
      | ok result =>
        refine .overrun result.1 result.2 ?_ unfit
        have grown := istFill_grows done
        rw [List.length_append, length_istItem, length_c4LogRecord] at grown
        unfold maxPayloadSize at *
        omega
    rw [not_lt] at past
    rw [istRoom_of_le past]
    by_cases fits : 4 + items.length + istItemSize entry ≤ maxPayloadSize
    · rw [if_neg (by unfold istItemSize maxPayloadSize at *; omega)]
      refine fillOutcome_cons past fits (inductionHypothesis restSound ?_ (fun zero => by omega))
      rw [List.length_append, length_istItem, length_c4LogRecord]
      unfold istItemSize at fits
      omega
    · rw [if_pos (by unfold istItemSize maxPayloadSize at *; omega)]
      split
      · rename_i zero
        refine .refused _ fun all => ?_
        have small := all.1 entry List.mem_cons_self
        rw [empty zero] at fits
        unfold istItemSize maxPayloadSize at *
        simp at fits
        omega
      · rename_i nonzero
        exact fillOutcome_stop inside (fun zero => absurd zero nonzero) (fitsFrom_newPage past fits)

/-! ### What the receiver makes of a page -/

/-- Sound entries that follow an index, with versions equal to indices. -/
def Follows : UInt64 → List C4LogEntry → Prop
  | _, [] => True
  | index, entry :: rest =>
    entry.index = index + 1 ∧ entry.version = entry.index ∧ entry.Sound ∧ Follows entry.index rest

/-- The end of a valid log follows its beginning. -/
theorem follows_of_valid {front rest : List C4LogEntry} {index : UInt64}
    (valid : C4Log.ValidEntries (front ++ rest)) (atEnd : index.toNat = front.length) :
    Follows index rest := by
  induction rest generalizing front index with
  | nil => trivial
  | cons entry rest inductionHypothesis =>
    have member : entry ∈ front ++ entry :: rest := by simp
    have number := valid.numbered front.length entry (by simp)
    have bound := valid.bounded
    rw [List.length_append, List.length_cons] at bound
    unfold entryCapacity at bound
    refine ⟨UInt64.toNat_inj.mp ?_, valid.version entry member, valid.sound entry member, ?_⟩
    · rw [number, UInt64.toNat_add, UInt64.toNat_one, atEnd]
      omega
    · refine @inductionHypothesis (front ++ [entry]) entry.index ?_ ?_
      · rw [List.append_assoc]
        exact valid
      · rw [number, List.length_append]
        rfl

/-- None of the entries repeats a transaction of the log. -/
def NewTo (log : C4Log) (entries : List C4LogEntry) : Prop :=
  ∀ entry ∈ entries, findEntry log entry.transactionId = none

instance (log : C4Log) (entries : List C4LogEntry) : Decidable (NewTo log entries) :=
  inferInstanceAs (Decidable (∀ entry ∈ entries, findEntry log entry.transactionId = none))

omit [Zlib] in
theorem newTo_cons {log : C4Log} {entry : C4LogEntry} {rest : List C4LogEntry} :
    NewTo log (entry :: rest) ↔ findEntry log entry.transactionId = none ∧ NewTo log rest := by
  unfold NewTo
  rw [List.forall_mem_cons]

omit [Zlib] in
theorem drop_itemsOf (front : List UInt8) (entry : C4LogEntry) (rest : List C4LogEntry) :
    (front ++ itemsOf (entry :: rest)).drop (front.length + 4) =
      c4LogRecord entry ++ itemsOf rest := by
  have split : front ++ itemsOf (entry :: rest) =
      (front ++ wirePutU32 (UInt32.ofNat (c4LogRecord entry).length)) ++
        (c4LogRecord entry ++ itemsOf rest) := by
    simp [itemsOf, istItem]
  rw [split, List.drop_left' (by simp)]

/-- What the validation reads at an entry of a page. -/
structure ReadsEntry (payload : List UInt8) (cursor : Nat) (entry : C4LogEntry) (width : Nat) :
    Prop where
  inside : ¬ cursor > payload.length - 4
  size : (wireGetU32 (payload.drop cursor)).toNat = width
  whole : ¬ width > payload.length - (cursor + 4)
  decoded : c4LogEntryDecode ((payload.drop (cursor + 4)).take width) = .ok entry

theorem readsEntry_itemsOf (front : List UInt8) {entry : C4LogEntry} (rest : List C4LogEntry)
    (sound : entry.Sound) (small : entry.payload.length ≤ maxPayloadSize - 52) :
    ReadsEntry (front ++ itemsOf (entry :: rest)) front.length entry
      (c4LogRecord entry).length := by
  have record := length_c4LogRecord entry
  have bound : (c4LogRecord entry).length < 2 ^ 32 := by
    unfold maxPayloadSize at small
    omega
  have length : (front ++ itemsOf (entry :: rest)).length =
      front.length + 4 + (c4LogRecord entry).length + (itemsOf rest).length := by
    show (front ++ (istItem (c4LogRecord entry) ++ itemsOf rest)).length = _
    rw [List.length_append, List.length_append, length_istItem]
    omega
  refine ⟨by omega, ?_, by omega, ?_⟩
  · rw [List.drop_left]
    show (wireGetU32 ((wirePutU32 _ ++ c4LogRecord entry) ++ itemsOf rest)).toNat = _
    rw [List.append_assoc, wireGetU32_wirePutU32, UInt32.toNat_ofNat', Nat.mod_eq_of_lt bound]
  · rw [drop_itemsOf, List.take_left]
    refine c4LogEntryDecode_encode sound.1 sound.2.1 ?_
    refine c4LogEntryEncode_ok.mpr ⟨sound.2.2.2, ?_, rfl⟩
    unfold maxPayloadSize c4LogHeaderSize at *
    omega

omit [Zlib] in
/-- The page from the second entry on, with the first one among the bytes before. -/
theorem itemsOf_cons (front : List UInt8) (entry : C4LogEntry) (rest : List C4LogEntry) :
    front ++ itemsOf (entry :: rest) = (front ++ istItem (c4LogRecord entry)) ++ itemsOf rest := by
  simp [itemsOf]

omit [Zlib] in
theorem length_front_istItem (front : List UInt8) (entry : C4LogEntry) :
    front.length + 4 + (c4LogRecord entry).length =
      (front ++ istItem (c4LogRecord entry)).length := by
  rw [List.length_append, length_istItem]
  omega

/-- One turn of the validation, over an entry that follows the cursor. -/
theorem istItems_cons (log : C4Log) (front : List UInt8) {entry : C4LogEntry}
    {rest : List C4LogEntry} {index : UInt64} {seen : List TransactionId} {count : Nat}
    (next : entry.index = index + 1) (version : entry.version = entry.index)
    (sound : entry.Sound) (small : entry.payload.length ≤ maxPayloadSize - 52)
    (unseen : entry.transactionId ∉ seen) :
    istItems log (front ++ itemsOf (entry :: rest)) (count + 1) front.length index index seen =
      if findEntry log entry.transactionId = none then
        (istItems log ((front ++ istItem (c4LogRecord entry)) ++ itemsOf rest) count
          (front ++ istItem (c4LogRecord entry)).length entry.index entry.index
          (entry.transactionId :: seen)).map fun entries => entry :: entries
      else .error .eexist := by
  have reads := readsEntry_itemsOf front rest sound small
  rw [istItems, if_neg reads.inside]
  simp only [reads.size]
  rw [if_neg reads.whole, reads.decoded]
  simp only
  rw [if_neg (by rw [version, next]; simp), c4LogGetTransaction]
  cases found : findEntry log entry.transactionId with
  | some old => simp
  | none =>
    simp only [ne_eq, not_true_eq_false, if_false, if_true, if_neg unseen]
    rw [length_front_istItem, version, ← itemsOf_cons]
    cases istItems log (front ++ itemsOf (entry :: rest)) count
      (front ++ istItem (c4LogRecord entry)).length entry.index entry.index
      (entry.transactionId :: seen) <;> rfl

theorem istItems_page (log : C4Log) (front : List UInt8) {page : List C4LogEntry}
    {index : UInt64} {seen : List TransactionId} (follows : Follows index page)
    (small : ∀ entry ∈ page, entry.payload.length ≤ maxPayloadSize - 52)
    (distinct : KeyedList.Distinct C4LogEntry.transactionId page)
    (unseen : ∀ entry ∈ page, entry.transactionId ∉ seen) :
    istItems log (front ++ itemsOf page) page.length front.length index index seen =
      if NewTo log page then .ok page
      else .error .eexist := by
  induction page generalizing front index seen with
  | nil =>
    have whole : front ++ itemsOf [] = front := by simp [itemsOf]
    rw [whole, List.length_nil, istItems, if_neg (by simp), if_pos nofun]
  | cons entry rest inductionHypothesis =>
    obtain ⟨next, version, sound, restFollows⟩ := follows
    obtain ⟨headDistinct, restDistinct⟩ := List.pairwise_cons.mp distinct
    have restUnseen : ∀ other ∈ rest, other.transactionId ∉ entry.transactionId :: seen := by
      intro other member inSeen
      rcases List.mem_cons.mp inSeen with same | old
      · exact headDistinct other member same.symm
      · exact unseen other (List.mem_cons_of_mem _ member) old
    rw [List.length_cons, istItems_cons log front next version sound
      (small entry List.mem_cons_self) (unseen entry List.mem_cons_self),
      inductionHypothesis _ restFollows
        (fun other member => small other (List.mem_cons_of_mem _ member)) restDistinct restUnseen]
    by_cases absent : findEntry log entry.transactionId = none
    · by_cases restAbsent : NewTo log rest
      · rw [if_pos absent, if_pos restAbsent, if_pos (newTo_cons.mpr ⟨absent, restAbsent⟩)]
        rfl
      · rw [if_pos absent, if_neg restAbsent, if_neg fun all => restAbsent (newTo_cons.mp all).2]
        rfl
    · rw [if_neg absent, if_neg fun all => absent (newTo_cons.mp all).1]

/-- Whatever the cursor, the validation of a page returns the entries of the page or fails. -/
theorem istItems_ok {log : C4Log} {front : List UInt8} {page entries : List C4LogEntry}
    {index version : UInt64} {seen : List TransactionId}
    (sound : ∀ entry ∈ page, entry.Sound)
    (small : ∀ entry ∈ page, entry.payload.length ≤ maxPayloadSize - 52)
    (accepted : istItems log (front ++ itemsOf page) page.length front.length index version seen =
      .ok entries) : entries = page := by
  induction page generalizing front index version seen entries with
  | nil =>
    rw [List.length_nil, istItems] at accepted
    split at accepted
    · cases accepted
    · cases accepted
      rfl
  | cons entry rest inductionHypothesis =>
    have reads := readsEntry_itemsOf front rest (sound entry List.mem_cons_self)
      (small entry List.mem_cons_self)
    rw [List.length_cons, istItems, if_neg reads.inside] at accepted
    simp only [reads.size] at accepted
    rw [if_neg reads.whole, reads.decoded] at accepted
    simp only at accepted
    split at accepted
    · cases accepted
    · split at accepted
      · cases accepted
      · split at accepted
        · cases accepted
        · split at accepted
          · cases accepted
          · rw [length_front_istItem, itemsOf_cons] at accepted
            split at accepted
            · cases accepted
            · rename_i later done
              cases accepted
              rw [inductionHypothesis
                (fun other member => sound other (List.mem_cons_of_mem _ member))
                (fun other member => small other (List.mem_cons_of_mem _ member)) done]

omit [Zlib] in
/-- The count of a page is read back. -/
theorem count_of_page {page : List C4LogEntry} {payload : List UInt8}
    (size : 4 + (itemsOf page).length ≤ maxPayloadSize)
    (bytes : payload = wirePutU32 (UInt32.ofNat page.length) ++ itemsOf page) :
    (wireGetU32 payload).toNat = page.length ∧ page.length ≤ (payload.length - 4) / 48 := by
  have items : 48 * page.length ≤ (itemsOf page).length := by
    clear size bytes
    induction page with
    | nil => exact Nat.zero_le _
    | cons entry rest inductionHypothesis =>
      have split : itemsOf (entry :: rest) = istItem (c4LogRecord entry) ++ itemsOf rest := rfl
      rw [split, List.length_append, length_istItem, length_c4LogRecord, List.length_cons]
      omega
  have length : payload.length = 4 + (itemsOf page).length := by
    rw [bytes, List.length_append, length_wirePutU32]
  refine ⟨?_, by omega⟩
  rw [bytes, wireGetU32_wirePutU32, UInt32.toNat_ofNat', Nat.mod_eq_of_lt]
  unfold maxPayloadSize at size
  omega

/-- Whatever the cursor, the receiver of a page takes the entries of the page or fails. -/
theorem istReceive_ok {log : C4Log} {response : Message} {page entries : List C4LogEntry}
    {index version : UInt64} (sound : ∀ entry ∈ page, entry.Sound)
    (small : ∀ entry ∈ page, entry.payload.length ≤ maxPayloadSize - 52)
    (size : 4 + (itemsOf page).length ≤ maxPayloadSize)
    (payload : response.payload = wirePutU32 (UInt32.ofNat page.length) ++ itemsOf page)
    (accepted : istReceive log index version response = .ok entries) : entries = page := by
  obtain ⟨count, -⟩ := count_of_page size payload
  unfold istReceive at accepted
  split at accepted
  · split at accepted <;> cases accepted
  · simp only [count] at accepted
    split at accepted
    · rename_i empty
      split at accepted
      · cases accepted
      · cases accepted
        exact (List.length_eq_zero_iff.mp empty).symm
    · split at accepted
      · cases accepted
      · rw [payload] at accepted
        have front : 4 = (wirePutU32 (UInt32.ofNat page.length)).length := by
          rw [length_wirePutU32]
        rw [front] at accepted
        exact istItems_ok sound small accepted

/-- A page of entries that follow the cursor is accepted exactly when none of them repeats a
transaction of the log. -/
theorem istReceive_page (log : C4Log) (response : Message) {page : List C4LogEntry}
    {index : UInt64} (follows : Follows index page)
    (small : ∀ entry ∈ page, entry.payload.length ≤ maxPayloadSize - 52)
    (distinct : KeyedList.Distinct C4LogEntry.transactionId page)
    (size : 4 + (itemsOf page).length ≤ maxPayloadSize)
    (batch : response.messageType = .istBatch)
    (payload : response.payload = wirePutU32 (UInt32.ofNat page.length) ++ itemsOf page) :
    istReceive log index index response =
      if NewTo log page then .ok page
      else .error .eexist := by
  obtain ⟨count, enough⟩ := count_of_page size payload
  have length : response.payload.length = 4 + (itemsOf page).length := by
    rw [payload, List.length_append, length_wirePutU32]
  rw [istReceive, if_neg (by rw [batch, length]; simp)]
  simp only [count]
  cases page with
  | nil =>
    rw [if_pos (show NewTo log [] from nofun)]
    simp [length, itemsOf]
  | cons entry rest =>
    rw [if_neg (by simp), if_neg (by omega)]
    have page := istItems_page log (wirePutU32 (UInt32.ofNat (entry :: rest).length)) follows
      small distinct (fun _ _ => List.not_mem_nil)
    rw [length_wirePutU32, ← payload] at page
    exact page

end Paging

end SuperPeerNet
