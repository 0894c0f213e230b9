/-
This file settles what a recovery achieves when nothing else touches the two logs.

The cursor of a receiver names only the length of its log, because a version always
equals its index. So a recovery that succeeds appends the tail of the member's log to
whatever the receiver has: the result is the member's log exactly when the receiver
started from a prefix of it. It succeeds exactly when the tail can be paged, repeats
no transaction of the receiver, and is applied.
-/

import SuperPeerNet.Cluster.Paging

namespace SuperPeerNet

section Recovery

variable [Zlib] {Context : Type}

/-! ### Appending a page -/

/-- The context after a list of entries. -/
def contextAfter (apply : C4ApplyEntry Context) (context : Context) (entries : List C4LogEntry) :
    Context :=
  entries.foldl (fun context entry => (apply context entry).1) context

omit [Zlib] in
theorem applies_append (apply : C4ApplyEntry Context) (context : Context)
    (first second : List C4LogEntry) : Applies apply context (first ++ second) ↔
      Applies apply context first ∧ Applies apply (contextAfter apply context first) second := by
  induction first generalizing context with
  | nil => exact ⟨fun all => ⟨trivial, all⟩, fun all => all.2⟩
  | cons entry rest inductionHypothesis =>
    rw [List.cons_append, Applies, Applies, inductionHypothesis, and_assoc]
    rfl

theorem appendAndApply_of_extends (apply : C4ApplyEntry Context) {cluster : C4Cluster Context}
    {entry : C4LogEntry} (fits : cluster.log.Extends entry)
    (absent : findEntry cluster.log entry.transactionId = none) :
    appendAndApply apply cluster entry =
      ({ cluster with
          log := cluster.log.withEntry entry
          context := (apply cluster.context entry).1 }, (apply cluster.context entry).2) := by
  rw [appendAndApply, c4LogAppendEntry, appendLocked_withEntry fits absent]
  rfl

/-- Entries that extend the log validly are all appended, if the callback accepts them. -/
theorem istAppend_of_valid (apply : C4ApplyEntry Context) {cluster : C4Cluster Context}
    {page : List C4LogEntry} (valid : C4Log.ValidEntries (cluster.log.entries ++ page)) :
    (Applies apply cluster.context page →
      ∃ log, log.entries = cluster.log.entries ++ page ∧
        istAppend apply cluster page =
          ({ cluster with log := log, context := contextAfter apply cluster.context page },
            .ok ())) ∧
    (¬ Applies apply cluster.context page →
      ∃ after code, istAppend apply cluster page = (after, .error code)) := by
  induction page generalizing cluster with
  | nil => exact ⟨fun _ => ⟨cluster.log, by simp, rfl⟩, fun refuses => absurd trivial refuses⟩
  | cons entry rest inductionHypothesis =>
    obtain ⟨fits, absent⟩ := valid.next
    rw [istAppend, appendAndApply_of_extends apply fits absent]
    cases result : (apply cluster.context entry).2 with
    | error code =>
      refine ⟨fun applies => ?_, fun _ => ⟨_, code, rfl⟩⟩
      rw [Applies, result] at applies
      cases applies.1
    | ok done =>
      have restValid : C4Log.ValidEntries ((cluster.log.withEntry entry).entries ++ rest) := by
        rw [C4Log.withEntry_entries, List.append_assoc]
        exact valid
      obtain ⟨succeeds, fails⟩ := @inductionHypothesis { cluster with
        log := cluster.log.withEntry entry
        context := (apply cluster.context entry).1 } restValid
      refine ⟨fun applies => ?_,
        fun refuses => fails fun restApplies => refuses ⟨result, restApplies⟩⟩
      obtain ⟨log, entries, appended⟩ := succeeds applies.2
      refine ⟨log, ?_, appended⟩
      rw [entries, C4Log.withEntry_entries, List.append_assoc]
      rfl

/-! ### The exchange with a member -/

section Exchange

variable (errno : Errno) (apply : C4ApplyEntry Context)
  (recover : C4Cluster Context → SuperPeerMember → C4Cluster Context × Except Errno Unit)
  (member : C4Cluster Context) (source : NodeID) (generated : List UInt8 → TransactionId)

/-- The request of a recovery. Its transaction id is generated; any choice will do. -/
def istRequest (payload : List UInt8) : Message where
  messageType := .istRequest
  sourceNode := source
  destinationNode := member.localId
  transactionId := generated payload
  payload := payload

/-- The remote call of a recovery: the member answers every request from its own state, which
nothing else changes meanwhile. -/
def istRpc (payload : List UInt8) : Except Errno Message :=
  rpcCallWithTransaction
    (fun request => answer member.localId request (c4ClusterHandle errno apply recover member
      request).2)
    (istRequest member source generated payload)

variable {member source} {front rest : List C4LogEntry} {index : UInt64}

omit [Zlib] in
@[simp] theorem length_istCursor (index version : UInt64) :
    (istCursor index version).length = 16 := by
  simp [istCursor]

/-- A member serves a cursor at which its log has entries to send, or ends. -/
theorem handleIstRequest_cursor {record : SuperPeerMember}
    (live : c4MemberIsLiveSuperpeer member source = .ok record)
    (entries : member.log.entries = front ++ rest)
    (valid : C4Log.ValidEntries member.log.entries) (atEnd : index.toNat = front.length) :
    handleIstRequest errno member (istRequest member source generated (istCursor index index)) =
      (istFill rest [] 0).map fun page =>
        (.istBatch, wirePutU32 (UInt32.ofNat page.2) ++ page.1) := by
  have bound := valid.bounded
  rw [entries, List.length_append] at bound
  unfold entryCapacity at bound
  have requestedIndex : wireGetU64 (istCursor index index) = index := by
    rw [istCursor, wireGetU64_wirePutU64]
  have requestedVersion : wireGetU64 ((istCursor index index).drop 8) = index := by
    have tail : (istCursor index index).drop 8 = wirePutU64 index ++ [] := by
      rw [istCursor, List.drop_left' (by simp), List.append_nil]
    rw [tail, wireGetU64_wirePutU64]
  have lastIndex : (c4LogLastIndex member.log).toNat = front.length + rest.length := by
    rw [c4LogLastIndex, entries, List.length_append, UInt64.toNat_ofNat', Nat.mod_eq_of_lt]
    omega
  have remaining : member.log.entries.drop index.toNat = rest := by
    rw [entries, atEnd, List.drop_left]
  unfold handleIstRequest istRequest
  simp only [length_istCursor, ne_eq, not_true_eq_false, if_false, live, requestedIndex,
    requestedVersion, remaining]
  rw [if_neg (by rw [gt_iff_lt, UInt64.lt_iff_toNat_lt]; omega), if_neg (by simp)]
  by_cases start : index > 0
  · have positive := UInt64.lt_iff_toNat_lt.mp start
    rw [UInt64.toNat_zero] at positive
    have inside : index.toNat - 1 < member.log.entries.length := by
      rw [entries, List.length_append]
      omega
    obtain ⟨previous, found⟩ : ∃ previous, member.log.entries[index.toNat - 1]? = some previous :=
      ⟨member.log.entries[index.toNat - 1], List.getElem?_eq_getElem inside⟩
    have number := valid.numbered _ _ found
    have version := valid.version previous (List.mem_of_getElem? found)
    have same : previous.version = index := by
      rw [version]
      exact UInt64.toNat_inj.mp (by omega)
    have got : c4LogGet member.log index = .ok previous := by
      rw [c4LogGet, if_neg (by rintro rfl; simp at positive), found]
    rw [if_pos start, got]
    simp only [same, not_true_eq_false, if_false]
    cases istFill rest [] 0 <;> rfl
  · rw [if_neg start]
    simp only
    cases istFill rest [] 0 <;> rfl

/-- The reply to a cursor is what the handler answers, unless it is too large to be sent. -/
theorem istRpc_eq (index version : UInt64) :
    istRpc errno apply recover member source generated (istCursor index version) =
      match answer member.localId (istRequest member source generated (istCursor index version))
        (handleIstRequest errno member
          (istRequest member source generated (istCursor index version))) with
      | none => .error .ebadmsg
      | some reply => .ok reply := by
  have handled : (c4ClusterHandle errno apply recover member
      (istRequest member source generated (istCursor index version))).2 =
        handleIstRequest errno member
          (istRequest member source generated (istCursor index version)) := by
    rw [c4ClusterHandle, if_neg (by simp [istRequest])]
    rfl
  have short : ¬ (istRequest member source generated (istCursor index version)).payload.length >
      maxPayloadSize := by
    simp [istRequest, maxPayloadSize]
  rw [istRpc, rpcCallWithTransaction, if_neg short, handled]
  generalize handleIstRequest errno member _ = outcome
  cases present : answer member.localId
      (istRequest member source generated (istCursor index version)) outcome with
  | none => rfl
  | some reply =>
    obtain ⟨same, -⟩ := answer_eq_some present
    simp only
    rw [if_neg (by rw [same]; simp [sendReply, istRequest])]

/-- The reply to a cursor: an error, a page, or nothing if the page has overrun its buffer. -/
theorem istRpc_cursor {record : SuperPeerMember}
    (live : c4MemberIsLiveSuperpeer member source = .ok record)
    (entries : member.log.entries = front ++ rest)
    (valid : C4Log.ValidEntries member.log.entries) (atEnd : index.toNat = front.length) :
    istRpc errno apply recover member source generated (istCursor index index) =
      match istFill rest [] 0 with
      | .error code => .ok (sendReply member.localId
          (istRequest member source generated (istCursor index index)) (.error code))
      | .ok (items, count) =>
        if maxPayloadSize < 4 + items.length then .error .ebadmsg
        else .ok (sendReply member.localId
          (istRequest member source generated (istCursor index index))
            (.ok (.istBatch, wirePutU32 (UInt32.ofNat count) ++ items))) := by
  rw [istRpc_eq, handleIstRequest_cursor errno generated live entries valid atEnd]
  cases istFill rest [] 0 with
  | error code =>
    have size : ¬ (remoteErrorEncode code).length > maxPayloadSize := by
      simp [remoteErrorEncode, maxPayloadSize]
    simp [Except.map, answer, sendReply, size]
  | ok page =>
    by_cases large : maxPayloadSize < 4 + page.1.length
    · simp [Except.map, answer, sendReply, large]
    · simp [Except.map, answer, sendReply, large]

/-- What a recovery needs of the entries that the member has beyond the receiver's log. -/
structure Acceptable (cluster : C4Cluster Context) (rest : List C4LogEntry) : Prop where
  transferable : Transferable rest
  new : NewTo cluster.log rest
  applies : Applies apply cluster.context rest

omit [Zlib] in
theorem acceptable_nil (cluster : C4Cluster Context) : Acceptable apply cluster [] where
  transferable := ⟨List.forall_mem_nil _, trivial⟩
  new := List.forall_mem_nil _
  applies := trivial

/-- New entries from the end of one valid log extend another one of the same length. -/
theorem validEntries_join {cluster : C4Cluster Context}
    (own : C4Log.ValidEntries cluster.log.entries) (valid : C4Log.ValidEntries (front ++ rest))
    (length : front.length = cluster.log.entries.length)
    (new : NewTo cluster.log rest) : C4Log.ValidEntries (cluster.log.entries ++ rest) where
  numbered := by
    intro position entry found
    rw [List.getElem?_append] at found
    split at found
    · exact own.numbered position entry found
    · refine valid.numbered position entry ?_
      rw [List.getElem?_append, if_neg (by omega), length]
      exact found
  version := by
    intro entry member
    rcases List.mem_append.mp member with old | fromRest
    · exact own.version entry old
    · exact valid.version entry (List.mem_append_right _ fromRest)
  sound := by
    intro entry member
    rcases List.mem_append.mp member with old | fromRest
    · exact own.sound entry old
    · exact valid.sound entry (List.mem_append_right _ fromRest)
  distinct := by
    refine List.pairwise_append.mpr ⟨own.distinct, (List.pairwise_append.mp valid.distinct).2.1, ?_⟩
    intro old inOld entry inRest
    exact KeyedList.lookup_eq_none.mp (new entry inRest) old inOld
  bounded := by
    have bound := valid.bounded
    rw [List.length_append] at bound ⊢
    omega

omit [Zlib] in
theorem newTo_append {log next : C4Log} {page left : List C4LogEntry}
    (distinct : KeyedList.Distinct C4LogEntry.transactionId (page ++ left))
    (entries : next.entries = log.entries ++ page) :
    NewTo log (page ++ left) ↔ NewTo log page ∧ NewTo next left := by
  have apart := (List.pairwise_append.mp distinct).2.2
  have later : ∀ entry ∈ left, findEntry next entry.transactionId = none ↔
      findEntry log entry.transactionId = none := by
    intro entry member
    have absent : KeyedList.lookup C4LogEntry.transactionId page entry.transactionId = none :=
      KeyedList.lookup_eq_none.mpr fun other inPage => apart other inPage entry member
    rw [findEntry, entries, KeyedList.lookup_append, absent, Option.or_none]
    rfl
  unfold NewTo
  constructor
  · intro all
    exact ⟨fun entry member => all entry (List.mem_append_left _ member),
      fun entry member => (later entry member).mpr (all entry (List.mem_append_right _ member))⟩
  · rintro ⟨inPage, inLeft⟩ entry member
    rcases List.mem_append.mp member with fromPage | fromLeft
    · exact inPage entry fromPage
    · exact (later entry fromLeft).mp (inLeft entry fromLeft)

/-- The last entry of a page is where the cursor moves to. -/
theorem index_of_getLast {taken : List C4LogEntry} {last : C4LogEntry}
    (valid : C4Log.ValidEntries (front ++ taken)) (found : taken.getLast? = some last) :
    last.version = last.index ∧ last.index.toNat = (front ++ taken).length := by
  have nonempty : taken ≠ [] := by
    rintro rfl
    cases found
  have member : last ∈ front ++ taken := List.mem_append_right _ (List.mem_of_getLast? found)
  have positive := List.length_pos_of_ne_nil nonempty
  have position : (front ++ taken)[(front ++ taken).length - 1]? = some last := by
    rw [← List.getLast?_eq_getElem?, List.getLast?_append_of_ne_nil _ nonempty, found]
  refine ⟨valid.version last member, ?_⟩
  rw [valid.numbered _ _ position, List.length_append]
  omega

/-- A page that is acceptable takes the receiver to the end of the page, with the rest of the
transfer still to judge; one that is not ends the recovery with an error. -/
theorem istAppend_page {cluster : C4Cluster Context} {taken left : List C4LogEntry}
    (own : C4Log.ValidEntries cluster.log.entries)
    (valid : C4Log.ValidEntries (front ++ (taken ++ left)))
    (length : front.length = cluster.log.entries.length) (new : NewTo cluster.log taken)
    (remaining : Transferable (taken ++ left) ↔ Transferable left) :
    (∃ after code, istAppend apply cluster taken = (after, .error code) ∧
        ¬ Acceptable apply cluster (taken ++ left)) ∨
      ∃ after, istAppend apply cluster taken = (after, .ok ()) ∧
        after.log.entries = cluster.log.entries ++ taken ∧
        C4Log.ValidEntries after.log.entries ∧
        (Acceptable apply cluster (taken ++ left) ↔ Acceptable apply after left) := by
  have earlier : front ++ taken <+: front ++ (taken ++ left) :=
    (List.prefix_append_right_inj _).mpr (List.prefix_append _ _)
  have extended := validEntries_join own (valid.of_prefix earlier) length new
  have distinct := (List.pairwise_append.mp valid.distinct).2.1
  obtain ⟨succeeds, fails⟩ := istAppend_of_valid apply extended
  by_cases applies : Applies apply cluster.context taken
  · obtain ⟨log, logEntries, appended⟩ := succeeds applies
    refine Or.inr ⟨_, appended, logEntries, logEntries ▸ extended, ?_⟩
    have split := newTo_append distinct logEntries
    have applied := applies_append apply cluster.context taken left
    constructor
    · intro acceptable
      exact ⟨remaining.mp acceptable.transferable, (split.mp acceptable.new).2,
        (applied.mp acceptable.applies).2⟩
    · intro acceptable
      exact ⟨remaining.mpr acceptable.transferable, split.mpr ⟨new, acceptable.new⟩,
        applied.mpr ⟨applies, acceptable.applies⟩⟩
  · obtain ⟨after, code, failed⟩ := fails applies
    refine Or.inl ⟨after, code, failed, fun acceptable => applies ?_⟩
    exact ((applies_append apply cluster.context taken left).mp acceptable.applies).1

/-- Against a member whose log goes on with `rest` where the receiver's log ends, the loop
ends, succeeds exactly when `rest` is acceptable, and then has appended all of it. The
induction is on the number of requests; each page moves entries from `rest` to both fronts. -/
theorem recoverLoop_outcome {record : SuperPeerMember}
    (live : c4MemberIsLiveSuperpeer member source = .ok record)
    (valid : C4Log.ValidEntries member.log.entries) (requests : Nat)
    (cluster : C4Cluster Context) (front rest : List C4LogEntry) (index : UInt64)
    (own : C4Log.ValidEntries cluster.log.entries)
    (entries : member.log.entries = front ++ rest)
    (length : front.length = cluster.log.entries.length) (atEnd : index.toNat = front.length) :
    (∀ after, recoverLoop (istRpc errno apply recover member source generated) apply requests
        cluster index index = some (after, .ok ()) →
      Acceptable apply cluster rest ∧ after.log.entries = cluster.log.entries ++ rest) ∧
    (rest.length < requests → ∃ after result,
      recoverLoop (istRpc errno apply recover member source generated) apply requests
        cluster index index = some (after, result) ∧
      (Acceptable apply cluster rest → result = .ok ())) := by
  induction requests generalizing cluster front rest index with
  | zero =>
    constructor
    · intro after done
      cases done
    · intro enough
      cases enough
  | succ requests inductionHypothesis =>
    have joined : C4Log.ValidEntries (front ++ rest) := entries ▸ valid
    have sound : ∀ entry ∈ rest, entry.Sound :=
      fun entry inRest => joined.sound entry (List.mem_append_right _ inRest)
    have outcome : FillOutcome rest [] 0 (istFill rest [] 0) :=
      istFill_outcome sound (by decide) (fun _ => rfl)
    rw [recoverLoop, istRpc_cursor errno apply recover generated live entries valid atEnd]
    have failure : ∀ (last : C4Cluster Context) (code : Errno) (after : C4Cluster Context),
        some (last, Except.error code) = some (after, Except.ok ()) →
          Acceptable apply cluster rest ∧ after.log.entries = cluster.log.entries ++ rest := by
      intro last code after same
      cases same
    generalize istFill rest [] 0 = filled at outcome ⊢
    cases outcome with
    | refused code unfit =>
      simp only [istReceive, sendReply, ne_eq, reduceCtorEq, not_false_eq_true, true_or, if_true]
      exact ⟨failure _ _,
        fun _ => ⟨_, _, rfl, fun acceptable => absurd acceptable.transferable unfit⟩⟩
    | overrun items total large unfit =>
      simp only [if_pos large]
      exact ⟨failure _ _,
        fun _ => ⟨_, _, rfl, fun acceptable => absurd acceptable.transferable unfit⟩⟩
    | page taken left split size small progress remaining =>
      simp only [List.nil_append, Nat.zero_add] at size progress remaining ⊢
      rw [if_neg (by omega)]
      subst split
      have earlier : front ++ taken <+: front ++ (taken ++ left) :=
        (List.prefix_append_right_inj _).mpr (List.prefix_append _ _)
      have takenValid := joined.of_prefix earlier
      have received := istReceive_page cluster.log (sendReply member.localId
          (istRequest member source generated (istCursor index index))
          (.ok (.istBatch, wirePutU32 (UInt32.ofNat taken.length) ++ itemsOf taken)))
        (follows_of_valid takenValid atEnd) small
        (List.pairwise_append.mp takenValid.distinct).2.1 size rfl rfl
      simp only [received]
      by_cases new : NewTo cluster.log taken
      · rw [if_pos new]
        simp only
        cases found : taken.getLast? with
        | none =>
          have empty : taken = [] := List.getLast?_eq_none_iff.mp found
          subst empty
          have done : left = [] := progress rfl
          subst done
          refine ⟨?_, fun _ => ⟨cluster, .ok (), rfl, fun _ => rfl⟩⟩
          rintro after ⟨⟩
          exact ⟨acceptable_nil apply cluster, by simp⟩
        | some last =>
          obtain ⟨lastVersion, lastIndex⟩ := index_of_getLast takenValid found
          simp only [lastVersion]
          rcases istAppend_page apply own joined length new remaining with
            ⟨after, code, failed, refused⟩ | ⟨after, appended, afterEntries, afterValid, same⟩
          · rw [failed]
            exact ⟨failure _ _, fun _ => ⟨_, _, rfl, fun acceptable => absurd acceptable refused⟩⟩
          · rw [appended]
            have moved : (front ++ taken).length = after.log.entries.length := by
              rw [afterEntries, List.length_append, List.length_append, length]
            obtain ⟨sound, complete⟩ := inductionHypothesis after (front ++ taken) left last.index
              afterValid (by rw [entries, List.append_assoc]) moved lastIndex
            constructor
            · intro final done
              obtain ⟨acceptable, finalEntries⟩ := sound final done
              refine ⟨same.mpr acceptable, ?_⟩
              rw [finalEntries, afterEntries, List.append_assoc]
            · intro enough
              have positive := List.length_pos_of_ne_nil (List.ne_nil_of_mem
                (List.mem_of_getLast? found))
              rw [List.length_append] at enough
              obtain ⟨final, result, done, succeeds⟩ := complete (by omega)
              exact ⟨final, result, done, fun acceptable => succeeds (same.mp acceptable)⟩
      · rw [if_neg new]
        refine ⟨failure _ _, fun _ => ⟨_, _, rfl, fun acceptable => absurd ?_ new⟩⟩
        exact fun entry inTaken => acceptable.new entry (List.mem_append_left _ inTaken)

/-! ### Soundness and completeness of a recovery -/

variable {cluster : C4Cluster Context} {record : SuperPeerMember}

/-- The cursor of a valid log: its length, twice. -/
theorem cursor_of_valid (own : C4Log.ValidEntries cluster.log.entries) :
    c4LogLastVersion cluster.log = c4LogLastIndex cluster.log ∧
      (c4LogLastIndex cluster.log).toNat = cluster.log.entries.length := by
  have bound := own.bounded
  unfold entryCapacity at bound
  have index : (c4LogLastIndex cluster.log).toNat = cluster.log.entries.length := by
    rw [c4LogLastIndex, UInt64.toNat_ofNat', Nat.mod_eq_of_lt (by omega)]
  refine ⟨?_, index⟩
  rw [c4LogLastVersion]
  cases found : cluster.log.entries.getLast? with
  | none =>
    have empty : cluster.log.entries = [] := List.getLast?_eq_none_iff.mp found
    rw [c4LogLastIndex, empty]
    rfl
  | some last =>
    obtain ⟨version, value⟩ := @index_of_getLast _ [] cluster.log.entries last own found
    simp only [version]
    refine UInt64.toNat_inj.mp ?_
    rw [value, index]
    rfl

/-- A recovery from a member whose log is at least as long as the receiver's. -/
theorem c4RecoverFromMember_outcome
    (live : c4MemberIsLiveSuperpeer member cluster.localId = .ok record)
    (own : C4Log.ValidEntries cluster.log.entries)
    (valid : C4Log.ValidEntries member.log.entries)
    (longer : cluster.log.entries.length ≤ member.log.entries.length) (requests : Nat) :
    (∀ after, c4RecoverFromMember (istRpc errno apply recover member cluster.localId generated)
        apply requests cluster = some (after, .ok ()) →
      Acceptable apply cluster (member.log.entries.drop cluster.log.entries.length) ∧
        after.log.entries =
          cluster.log.entries ++ member.log.entries.drop cluster.log.entries.length) ∧
    (member.log.entries.length - cluster.log.entries.length < requests → ∃ after result,
      c4RecoverFromMember (istRpc errno apply recover member cluster.localId generated)
        apply requests cluster = some (after, result) ∧
      (Acceptable apply cluster (member.log.entries.drop cluster.log.entries.length) →
        result = .ok ())) := by
  obtain ⟨version, index⟩ := cursor_of_valid own
  have length : (member.log.entries.take cluster.log.entries.length).length =
      cluster.log.entries.length := by
    rw [List.length_take, Nat.min_eq_left longer]
  have outcome := recoverLoop_outcome errno apply recover generated live valid requests cluster
    _ _ (c4LogLastIndex cluster.log) own (List.take_append_drop _ _).symm length
    (by rw [index, length])
  rw [c4RecoverFromMember, version]
  rw [List.length_drop] at outcome
  exact outcome

/-- A member with a shorter log refuses the cursor. -/
theorem c4RecoverFromMember_of_shorter
    (live : c4MemberIsLiveSuperpeer member cluster.localId = .ok record)
    (own : C4Log.ValidEntries cluster.log.entries)
    (shorter : member.log.entries.length < cluster.log.entries.length) (requests : Nat) :
    c4RecoverFromMember (istRpc errno apply recover member cluster.localId generated) apply
      (requests + 1) cluster = some (cluster, .error .enoent) := by
  obtain ⟨version, index⟩ := cursor_of_valid own
  have bound := own.bounded
  unfold entryCapacity at bound
  have lastIndex : (c4LogLastIndex member.log).toNat = member.log.entries.length := by
    rw [c4LogLastIndex, UInt64.toNat_ofNat', Nat.mod_eq_of_lt (by omega)]
  have beyond : c4LogLastIndex cluster.log > c4LogLastIndex member.log :=
    UInt64.lt_iff_toNat_lt.mpr (by omega)
  have requested : ∀ last : UInt64, wireGetU64 (istCursor last last) = last :=
    fun last => wireGetU64_wirePutU64 _ _
  have handled : handleIstRequest errno member (istRequest member cluster.localId generated
      (istCursor (c4LogLastIndex cluster.log) (c4LogLastIndex cluster.log))) =
        .error .enoent := by
    unfold handleIstRequest istRequest
    simp only [length_istCursor, ne_eq, not_true_eq_false, if_false, live, requested, if_pos beyond]
  rw [c4RecoverFromMember, version, recoverLoop, istRpc_eq, handled]
  rfl

/-- What is asked of a recovery: success means equal logs, and logs that differ at a common
index make it fail. -/
structure RecoverySound (rpc : List UInt8 → Except Errno Message) (cluster : C4Cluster Context)
    (entries : List C4LogEntry) : Prop where
  equal : ∀ requests after, c4RecoverFromMember rpc apply requests cluster =
    some (after, .ok ()) → after.log.entries = entries
  diverging : (∃ (position : Nat) (first second : C4LogEntry),
      cluster.log.entries[position]? = some first ∧ entries[position]? = some second ∧
        first ≠ second) →
    ∃ requests after code, c4RecoverFromMember rpc apply requests cluster =
      some (after, .error code)

omit [Zlib] in
theorem append_drop_eq_iff {entries remote : List C4LogEntry} :
    entries ++ remote.drop entries.length = remote ↔ entries <+: remote := by
  constructor
  · intro same
    rw [← same]
    exact List.prefix_append _ _
  · rintro ⟨rest, rfl⟩
    rw [List.drop_left]

/-- A recovery that is bound to fail ends with an error. -/
theorem recoverySound_of_failure
    (live : c4MemberIsLiveSuperpeer member cluster.localId = .ok record)
    (own : C4Log.ValidEntries cluster.log.entries)
    (valid : C4Log.ValidEntries member.log.entries)
    (failure : member.log.entries.length < cluster.log.entries.length ∨
      ¬ Acceptable apply cluster (member.log.entries.drop cluster.log.entries.length)) :
    RecoverySound apply (istRpc errno apply recover member cluster.localId generated) cluster
      member.log.entries := by
  rcases Nat.lt_or_ge member.log.entries.length cluster.log.entries.length with shorter | longer
  · have refused := c4RecoverFromMember_of_shorter errno apply recover generated live own shorter
    refine ⟨fun requests after done => ?_, fun _ => ⟨1, _, _, refused 0⟩⟩
    cases requests with
    | zero => cases done
    | succ requests =>
      rw [refused requests] at done
      cases done
  · have unacceptable := failure.resolve_left (by omega)
    have outcome := c4RecoverFromMember_outcome errno apply recover generated live own valid longer
    refine ⟨fun requests after done => absurd ((outcome requests).1 after done).1 unacceptable,
      fun _ => ?_⟩
    obtain ⟨after, result, done, -⟩ :=
      (outcome (member.log.entries.length - cluster.log.entries.length + 1)).2 (by omega)
    cases result with
    | error code => exact ⟨_, after, code, done⟩
    | ok _ => exact absurd ((outcome _).1 after done).1 unacceptable

/-- A recovery is sound exactly when the receiver's log is a prefix of the member's, or the
recovery is bound to fail: the receiver has more entries than the member, or the entries
beyond its own cannot be paged, repeat one of its transactions or are refused by the callback. -/
theorem recoverySound_iff
    (live : c4MemberIsLiveSuperpeer member cluster.localId = .ok record)
    (own : C4Log.ValidEntries cluster.log.entries)
    (valid : C4Log.ValidEntries member.log.entries) :
    RecoverySound apply (istRpc errno apply recover member cluster.localId generated) cluster
        member.log.entries ↔
      cluster.log.entries <+: member.log.entries ∨
        member.log.entries.length < cluster.log.entries.length ∨
        ¬ Transferable (member.log.entries.drop cluster.log.entries.length) ∨
        ¬ NewTo cluster.log (member.log.entries.drop cluster.log.entries.length) ∨
        ¬ Applies apply cluster.context
          (member.log.entries.drop cluster.log.entries.length) := by
  constructor
  · intro sound
    by_contra none
    simp only [not_or, not_not, not_lt] at none
    obtain ⟨notPrefix, longer, transferable, new, applies⟩ := none
    obtain ⟨appends, ends⟩ := c4RecoverFromMember_outcome errno apply recover generated live own
      valid longer (member.log.entries.length - cluster.log.entries.length + 1)
    obtain ⟨after, result, done, succeeds⟩ := ends (by omega)
    rw [succeeds ⟨transferable, new, applies⟩] at done
    have same := (appends after done).2.symm.trans (sound.equal _ after done)
    exact notPrefix (append_drop_eq_iff.mp same)
  · rintro (earlier | shorter | unfit | repeated | refused)
    · have outcome := c4RecoverFromMember_outcome errno apply recover generated live own valid
        earlier.length_le
      refine ⟨fun requests after done => ?_, ?_⟩
      · rw [((outcome requests).1 after done).2]
        exact append_drop_eq_iff.mpr earlier
      · rintro ⟨position, first, second, inCluster, inMember, different⟩
        obtain ⟨inside, -⟩ := List.getElem?_eq_some_iff.mp inCluster
        rw [← append_drop_eq_iff.mpr earlier, List.getElem?_append_left inside, inCluster]
          at inMember
        exact absurd (Option.some.inj inMember) different
    · exact recoverySound_of_failure errno apply recover generated live own valid (Or.inl shorter)
    · exact recoverySound_of_failure errno apply recover generated live own valid
        (Or.inr fun acceptable => unfit acceptable.transferable)
    · exact recoverySound_of_failure errno apply recover generated live own valid
        (Or.inr fun acceptable => repeated acceptable.new)
    · exact recoverySound_of_failure errno apply recover generated live own valid
        (Or.inr fun acceptable => refused acceptable.applies)

omit [Zlib] in
theorem applies_of_accepts (accepts : ∀ context entry, (apply context entry).2 = .ok ())
    (context : Context) (entries : List C4LogEntry) : Applies apply context entries := by
  induction entries generalizing context with
  | nil => trivial
  | cons entry rest inductionHypothesis => exact ⟨accepts context entry, inductionHypothesis _⟩

/-- The entries that a prefix of a valid log lacks are new to it. -/
theorem newTo_of_prefix (valid : C4Log.ValidEntries member.log.entries)
    (earlier : cluster.log.entries <+: member.log.entries) :
    NewTo cluster.log (member.log.entries.drop cluster.log.entries.length) := by
  intro entry inRest
  refine KeyedList.lookup_eq_none.mpr fun old inOld => ?_
  have distinct := valid.distinct
  rw [← append_drop_eq_iff.mpr earlier] at distinct
  exact (List.pairwise_append.mp distinct).2.2 old inOld entry inRest

/-- From a prefix of the member's log a recovery succeeds exactly when the missing entries can
be paged. -/
theorem recover_ok_iff_transferable
    (live : c4MemberIsLiveSuperpeer member cluster.localId = .ok record)
    (valid : C4Log.ValidEntries member.log.entries)
    (earlier : cluster.log.entries <+: member.log.entries)
    (accepts : ∀ context entry, (apply context entry).2 = .ok ()) :
    (∃ requests after,
      c4RecoverFromMember (istRpc errno apply recover member cluster.localId generated) apply
        requests cluster = some (after, .ok ()) ∧ after.log.entries = member.log.entries) ↔
      Transferable (member.log.entries.drop cluster.log.entries.length) := by
  have outcome := c4RecoverFromMember_outcome errno apply recover generated live
    (valid.of_prefix earlier) valid earlier.length_le
  constructor
  · rintro ⟨requests, after, done, -⟩
    exact ((outcome requests).1 after done).1.transferable
  · intro transferable
    obtain ⟨appends, ends⟩ :=
      outcome (member.log.entries.length - cluster.log.entries.length + 1)
    obtain ⟨after, result, done, succeeds⟩ := ends (by omega)
    rw [succeeds ⟨transferable, newTo_of_prefix valid earlier,
      applies_of_accepts apply accepts _ _⟩] at done
    refine ⟨_, after, done, ?_⟩
    rw [(appends after done).2]
    exact append_drop_eq_iff.mpr earlier

end Exchange

end Recovery

/-! ### Concrete recoveries -/

/-- The callback that accepts everything, as with `apply == NULL`. -/
def acceptAll : C4ApplyEntry Unit := fun _ _ => ((), .ok ())

/-- A super peer with a log that knows one other super peer. -/
def pairCluster (own other : UInt8) (log : C4Log) : C4Cluster Unit where
  localId := Octets.fill nodeIdSize own
  members := [⟨Octets.fill nodeIdSize other, .superPeer, .alive, false⟩]
  log := log
  context := ()
  leader := zeroNodeId
  term := 0
  electionRequested := false
  electionWaiting := false
  electionStartedMs := 0

/-- The recovery of the first of two super peers from the second, with every transaction id
of a request zero and no recovery inside the handler. -/
def pairRpc [Zlib] (first second : C4Log) : List UInt8 → Except Errno Message :=
  istRpc .eio acceptAll (fun cluster _ => (cluster, .ok ())) (pairCluster 2 1 second)
    (pairCluster 1 2 first).localId (fun _ => Octets.fill transactionIdSize 0)

/-- A log with one committed entry. -/
def oneEntryLog [Zlib] (byte : UInt8) : C4Log :=
  C4Log.history [.appendEntry
    (C4LogEntry.build 1 1 (Octets.fill transactionIdSize byte) [byte] (by simp))]

/-- Two logs that differ in their only entry: the cursor (1, 1) is the end of either, so the
recovery reports success and leaves them different. -/
theorem not_recoverySound_diverging :
    letI := Zlib.reference
    C4Log.ValidEntries (oneEntryLog 1).entries ∧ C4Log.ValidEntries (oneEntryLog 2).entries ∧
      ¬ RecoverySound acceptAll (pairRpc (oneEntryLog 1) (oneEntryLog 2))
        (pairCluster 1 2 (oneEntryLog 1)) (oneEntryLog 2).entries := by
  let zlib := Zlib.reference
  refine ⟨(C4Log.valid_history _).entries, (C4Log.valid_history _).entries, fun sound => ?_⟩
  have synchronised : c4RecoverFromMember (pairRpc (oneEntryLog 1) (oneEntryLog 2)) acceptAll 1
      (pairCluster 1 2 (oneEntryLog 1)) = some (pairCluster 1 2 (oneEntryLog 1), .ok ()) := by
    decide +kernel
  exact absurd (sound.equal 1 _ synchronised) (by decide +kernel)

/-- A recovery of an empty log from a log with one entry is sound. -/
theorem recoverySound_oneEntry :
    letI := Zlib.reference
    RecoverySound acceptAll (pairRpc C4Log.fresh (oneEntryLog 2)) (pairCluster 1 2 C4Log.fresh)
      (oneEntryLog 2).entries := by
  let zlib := Zlib.reference
  exact (recoverySound_iff .eio acceptAll (fun cluster _ => (cluster, .ok ()))
    (fun _ => Octets.fill transactionIdSize 0)
    (show c4MemberIsLiveSuperpeer (pairCluster 2 1 (oneEntryLog 2))
      (pairCluster 1 2 C4Log.fresh).localId = .ok _ from rfl)
    C4Log.valid_fresh.entries (C4Log.valid_history _).entries).mpr (Or.inl (List.nil_prefix))

/-- A recovery of an empty log from a log with one small entry reaches that log. -/
theorem recover_oneEntry :
    letI := Zlib.reference
    ∃ requests after, c4RecoverFromMember (pairRpc C4Log.fresh (oneEntryLog 2)) acceptAll requests
      (pairCluster 1 2 C4Log.fresh) = some (after, .ok ()) ∧
        after.log.entries = (oneEntryLog 2).entries := by
  let zlib := Zlib.reference
  refine (recover_ok_iff_transferable .eio acceptAll (fun cluster _ => (cluster, .ok ()))
    (fun _ => Octets.fill transactionIdSize 0)
    (show c4MemberIsLiveSuperpeer (pairCluster 2 1 (oneEntryLog 2))
      (pairCluster 1 2 C4Log.fresh).localId = .ok _ from rfl)
    (C4Log.valid_history _).entries List.nil_prefix (fun _ _ => rfl)).mpr ?_
  have entries : (oneEntryLog 2).entries = [C4LogEntry.build 1 1 (Octets.fill transactionIdSize 2)
      [2] (by simp)] := by
    decide +kernel
  show Transferable (oneEntryLog 2).entries
  rw [entries]
  refine ⟨?_, by decide, trivial⟩
  intro entry member
  rw [List.mem_singleton.mp member]
  decide

/-- One transaction, prepared and committed on a fresh log. -/
theorem entries_prepare_commit [Zlib] {entry : C4LogEntry} (sound : entry.Sound)
    (small : entry.payload.length ≤ maxPayloadSize - c4LogHeaderSize) (index : entry.index = 1)
    (version : entry.version = 1) :
    (C4Log.history [.prepare entry, .commit entry.transactionId]).entries = [entry] := by
  have prepared : c4LogPrepare C4Log.fresh entry = (C4Log.fresh.withPrepared entry, .ok ()) :=
    c4LogPrepare_of_expected sound small rfl (by rw [index, version]; rfl)
  have found : findTransaction (C4Log.fresh.withPrepared entry) entry.transactionId =
      some ⟨entry, .prepared⟩ := by
    rw [findTransaction_withPrepared, if_pos rfl]
    rfl
  have fits : ((C4Log.fresh.withPrepared entry).withDecision entry.transactionId c4TxnCommit
      .committed).Extends entry :=
    ⟨sound, index, version, Nat.two_pow_pos 58⟩
  have appended := appendLocked_withEntry fits rfl
  show (c4LogCommit (c4LogPrepare C4Log.fresh entry).1 entry.transactionId).1.entries = [entry]
  rw [prepared, c4LogCommit, found]
  simp only [reduceCtorEq, if_false, decideCommit_eq]
  rw [C4Log.decided, if_pos rfl, appended]
  rfl

/-- An entry that fills a page by itself and more cannot be transferred to a follower with an
empty log. -/
theorem not_recover_of_large [Zlib] {log : C4Log} {entry : C4LogEntry}
    (valid : C4Log.ValidEntries log.entries) (member : entry ∈ log.entries)
    (large : maxPayloadSize - 52 < entry.payload.length) :
    ¬ ∃ requests after, c4RecoverFromMember (pairRpc C4Log.fresh log) acceptAll requests
      (pairCluster 1 2 C4Log.fresh) = some (after, .ok ()) ∧ after.log.entries = log.entries := by
  rintro ⟨requests, after, done, -⟩
  have outcome := (c4RecoverFromMember_outcome .eio acceptAll (fun cluster _ => (cluster, .ok ()))
    (fun _ => Octets.fill transactionIdSize 0)
    (show c4MemberIsLiveSuperpeer (pairCluster 2 1 log) (pairCluster 1 2 C4Log.fresh).localId =
      .ok _ from rfl) C4Log.valid_fresh.entries valid (Nat.zero_le _) requests).1 after done
  have fits := outcome.1.transferable.1 entry member
  omega

/-- The payload of the largest entry that `c4_log_prepare` accepts. -/
def largestPayload : List UInt8 := List.replicate (maxPayloadSize - c4LogHeaderSize) 0

theorem length_largestPayload : largestPayload.length = maxPayloadSize - c4LogHeaderSize :=
  List.length_replicate

/-- The largest entry that `c4_log_prepare` accepts. -/
def largestEntry [Zlib] : C4LogEntry :=
  C4LogEntry.build 1 1 (Octets.fill transactionIdSize 1) largestPayload (by
    rw [length_largestPayload]
    decide)

/-- The log after the largest entry has been prepared and committed. -/
def largestLog [Zlib] : C4Log :=
  C4Log.history [.prepare largestEntry, .commit largestEntry.transactionId]

theorem entries_largestLog [Zlib] : largestLog.entries = [largestEntry] := by
  have length : largestEntry.payload.length = maxPayloadSize - c4LogHeaderSize :=
    length_largestPayload
  refine entries_prepare_commit ?_ (Nat.le_of_eq length) rfl rfl
  refine C4LogEntry.build_sound _ _ (by decide) (by decide) ?_
  rw [length_largestPayload]
  decide

/-- The largest entry that can be prepared and committed cannot be transferred to a follower
with an empty log: its encoding leaves no room for the framing of a page. -/
theorem not_recover_largestLog :
    letI := Zlib.reference
    largestLog.entries = [largestEntry] ∧
      ¬ ∃ requests after, c4RecoverFromMember (pairRpc C4Log.fresh largestLog) acceptAll requests
        (pairCluster 1 2 C4Log.fresh) = some (after, .ok ()) ∧
          after.log.entries = largestLog.entries := by
  let zlib := Zlib.reference
  refine ⟨entries_largestLog, not_recover_of_large (C4Log.valid_history _).entries
    (entries_largestLog ▸ List.mem_singleton_self _) ?_⟩
  have length : largestEntry.payload.length = maxPayloadSize - c4LogHeaderSize :=
    length_largestPayload
  rw [length]
  decide

end SuperPeerNet
