/-
This file is about runs in which one super peer does all the submitting: whatever
happens to the messages, every committed log is a prefix of that of the coordinator.

Every live row, at whatever node, repeats a row of the coordinator, and the log of the
coordinator takes its entries from its own rows. So a commit at a follower appends the
very entry that the coordinator has under that transaction, and it fits only where the
coordinator has it.
-/

import SuperPeerNet.Cluster.Causes

namespace SuperPeerNet

variable [Zlib]

/-! ### One super peer submits -/

/-- Operations are submitted at the coordinator only. -/
def SubmitsAt (coordinator : NodeID) (_ : System) : Action → Prop
  | .submit node _ _ _ => node = coordinator
  | _ => True

omit [Zlib] in
instance (coordinator : NodeID) (system : System) :
    (action : Action) → Decidable (SubmitsAt coordinator system action)
  | .submit node _ _ _ => inferInstanceAs (Decidable (node = coordinator))
  | .setLeader _ _ | .setMembers _ _ | .recover _ _ | .broadcast _ | .run _ _ _ _
  | .reply _ _ _ | .fail _ _ _ | .deliver _ _ _ => .isTrue trivial

/-- The messages of two-phase commit. -/
def MessageType.IsDecision (messageType : MessageType) : Prop :=
  messageType = .prepare ∨ messageType = .commit ∨ messageType = .abort

/-- Every execution of `c4_cluster_submit` and every message of two-phase commit is one of the
coordinator. -/
structure Led (coordinator : NodeID) (system : System) : Prop where
  tasks : ∀ (index : Nat) (node : NodeID) (task : SubmitTask),
    system.tasks[index]? = some ⟨node, .submit task⟩ → node = coordinator
  requests : ∀ messageType source id, messageType.IsDecision →
    system.Sent messageType source id → source = coordinator

section Led

variable {coordinator : NodeID} {system next : System} {action : Action}

omit [Zlib] in
theorem led_initial (initial : system.Initial) : Led coordinator system where
  tasks index node task found := by
    rw [initial.tasks] at found
    cases found
  requests := by
    rintro messageType source id - ⟨request, member, -⟩
    rw [initial.network] at member
    cases member

omit [Zlib] in
theorem Led.runs (led : Led coordinator system) {node : NodeID} {task : SubmitTask}
    (runs : system.Runs action node task) : node = coordinator := by
  obtain ⟨index, generated, outcome, errno, -, found⟩ := runs
  exact led.tasks index node task found

theorem Led.step (led : Led coordinator system) (vouched : Vouched system)
    (permitted : SubmitsAt coordinator system action) (step : SystemStep system action next) :
    Led coordinator next where
  tasks index node task found := by
    cases taskCause_of_step step found with
    | kept old still => exact led.tasks index node task old
    | began owner payload isSubmit accepted last put =>
      subst isSubmit
      exact permitted
    | ran before generated outcome errno cluster phase sent isRun old step put same =>
      exact led.tasks index node before old
    | received before round request oldRemaining remaining oldOk ok oldAcknowledgements
        acknowledgements quiet old awaits same =>
      exact led.tasks index node before old
  requests := by
    rintro messageType source id decision ⟨request, member, type, rfl, same⟩
    cases requestCause_of_step vouched step member with
    | kept sent => exact led.requests messageType _ id decision ⟨request, sent, type, rfl, same⟩
    | sent task round remaining ok acknowledgements runs phase roundType isId =>
      exact led.runs runs
    | transfer other =>
      rw [type] at other
      rcases other with rfl | rfl <;> simp [MessageType.IsDecision] at decision

end Led

/-! ### Followers -/

/-- An entry that a log has, and that extends a shorter copy of the log, is its next entry. -/
theorem prefix_append_of_mem {log : C4Log} {all : List C4LogEntry} {entry : C4LogEntry}
    (valid : C4Log.ValidEntries all) (earlier : log.entries <+: all) (fits : log.Extends entry)
    (member : entry ∈ all) : log.entries ++ [entry] <+: all := by
  obtain ⟨rest, rfl⟩ := earlier
  have front := valid.of_prefix (List.prefix_append log.entries rest)
  obtain ⟨position, found⟩ := List.getElem?_of_mem member
  have number := valid.numbered position entry found
  rw [fits.2.1, C4Log.toNat_nextIndex front] at number
  have atEnd : position = log.entries.length := by omega
  rw [atEnd, List.getElem?_append_right (Nat.le_refl _), Nat.sub_self] at found
  cases rest with
  | nil => cases found
  | cons head rest =>
    cases found
    exact ⟨rest, by simp⟩

/-- The invariant of a run with one coordinator. -/
structure Followed (coordinator : NodeID) (system : System) : Prop where
  led : Led coordinator system
  rows : ∀ node id row, findTransaction (system.log node) id = some row → row.state ≠ .aborted →
    system.HasRow coordinator row.entry
  entries : ∀ entry ∈ (system.log coordinator).entries, system.HasRow coordinator entry
  follows : ∀ node, (system.log node).entries <+: (system.log coordinator).entries

section Followed

variable {coordinator : NodeID} {system next : System} {action : Action}

omit [Zlib] in
theorem followed_initial (initial : system.Initial) : Followed coordinator system where
  led := led_initial initial
  rows node id row found := by
    rw [System.log, initial.log] at found
    cases found
  entries entry member := by
    rw [System.log, initial.log] at member
    cases member
  follows node := by
    rw [System.log, initial.log]
    exact List.nil_prefix

omit [Zlib] in
/-- The only entry of a transaction is the one in the row of the coordinator. -/
theorem Followed.same_entry (followed : Followed coordinator system) {entry : C4LogEntry}
    (row : system.HasRow coordinator entry)
    (inLog : system.InLog coordinator entry.transactionId) :
    entry ∈ (system.log coordinator).entries := by
  obtain ⟨other, found⟩ := inLog
  have member : other ∈ (system.log coordinator).entries := KeyedList.lookup_mem found
  obtain ⟨otherRow, foundOther, sameOther⟩ := followed.entries other member
  obtain ⟨ownRow, foundOwn, sameOwn⟩ := row
  rw [findEntry_id found, foundOwn] at foundOther
  cases foundOther
  rw [← sameOwn, sameOther]
  exact member

/-- A row that is not aborted repeats a row of the coordinator after a step, too. -/
theorem Followed.rows_step (followed : Followed coordinator system)
    (vouched : Vouched system) (step : SystemStep system action next) {node : NodeID}
    {id : TransactionId} {row : C4Transaction}
    (found : findTransaction (next.log node) id = some row) (live : row.state ≠ .aborted) :
    next.HasRow coordinator row.entry := by
  have grows := System.grows_of_step step
  cases (causes_of_step vouched step node).row found with
  | kept row old => exact (followed.rows node id row old live).mono grows
  | prepared entry key sound absent expected cause =>
    cases cause with
    | own task runs phase =>
      obtain rfl := followed.led.runs runs
      exact ⟨_, key ▸ found, rfl⟩
    | requested source sent row =>
      obtain rfl := followed.led.requests _ _ _ (Or.inl rfl) sent
      exact row.mono grows
  | committed row old pending cause =>
    refine (followed.rows node id row old ?_).mono grows
    rw [pending]
    exact nofun
  | aborted row dead undecided entry cause => exact absurd dead live

/-- What is appended to the log of a node is in the log of the coordinator, or it is committed
by the coordinator itself. -/
theorem Followed.entries_step (followed : Followed coordinator system) (vouched : Vouched system)
    (step : SystemStep system action next) (node : NodeID) :
    (next.log node).entries <+: (system.log coordinator).entries ∨
      node = coordinator ∧ ∃ entry, system.HasRow coordinator entry ∧
        (next.log coordinator).entries = (system.log coordinator).entries ++ [entry] := by
  have extended : ∀ {entry : C4LogEntry}, (system.log node).Extends entry →
      entry ∈ (system.log coordinator).entries →
      (next.log node).entries = (system.log node).entries ++ [entry] →
      (next.log node).entries <+: (system.log coordinator).entries := by
    intro entry fits member appended
    rw [appended]
    exact prefix_append_of_mem (vouched.valid coordinator).entries (followed.follows node) fits
      member
  cases (causes_of_step vouched step node).entries with
  | same unchanged =>
    rw [unchanged]
    exact Or.inl (followed.follows node)
  | committed row found live fits absent state cause appended =>
    have coordinatorRow := followed.rows node _ row found live
    cases cause with
    | own task runs phase same =>
      obtain rfl := followed.led.runs runs
      exact Or.inr ⟨rfl, row.entry, coordinatorRow, appended⟩
    | requested source sent inLog =>
      obtain rfl := followed.led.requests _ _ _ (Or.inr (Or.inl rfl)) sent
      exact Or.inl (extended fits (followed.same_entry coordinatorRow inLog) appended)
  | transferred source entry holds fits absent appended =>
    have member : entry ∈ (system.log source).entries := KeyedList.lookup_mem holds
    exact Or.inl (extended fits ((followed.follows source).subset member) appended)

theorem Followed.step (followed : Followed coordinator system) (vouched : Vouched system)
    (permitted : SubmitsAt coordinator system action) (step : SystemStep system action next) :
    Followed coordinator next where
  led := followed.led.step vouched permitted step
  rows _ _ _ found live := followed.rows_step vouched step found live
  entries entry member := by
    have grows := System.grows_of_step step
    rcases followed.entries_step vouched step coordinator with shorter | ⟨-, new, row, appended⟩
    · exact (followed.entries entry (shorter.subset member)).mono grows
    · rw [appended] at member
      rcases List.mem_append.mp member with old | isNew
      · exact (followed.entries entry old).mono grows
      · rw [List.mem_singleton.mp isNew]
        exact row.mono grows
  follows node := by
    have longer := (System.grows_of_step step coordinator).log.extends_entries
    rcases followed.entries_step vouched step node with shorter | ⟨rfl, -⟩
    · exact shorter.trans longer
    · exact List.prefix_refl _

end Followed

/-- When operations are submitted at one super peer only, every committed log is at all times a
prefix of the committed log of that super peer. -/
theorem followers_of_stable_coordinator {start system : System} {coordinator : NodeID}
    (initial : start.Initial)
    (reached : Transition.Reaches System.step (SubmitsAt coordinator) start system)
    (follower : NodeID) :
    (system.log follower).entries <+: (system.log coordinator).entries := by
  have followed : Followed coordinator system :=
    (invariant_of_vouched initial (followed_initial initial)
      (fun _ _ _ vouched followed permitted step => followed.step vouched permitted step)
      reached).2
  exact followed.follows follower

omit [Zlib] in
/-- The log of the follower after an operation has been replicated to it. -/
theorem followers_of_stable_coordinator_pair :
    letI := Zlib.reference
    ∃ system, Transition.Reaches System.step (SubmitsAt (nodeOf 1))
        (startOf [nodeOf 1, nodeOf 2] (nodeOf 1)) system ∧
      (system.log (nodeOf 2)).entries = [entryOf 1 (transactionOf 1)] ∧
      (system.log (nodeOf 2)).entries <+: (system.log (nodeOf 1)).entries := by
  let zlib := Zlib.reference
  obtain ⟨system, reached, entries⟩ := Transition.Reaches.of_check
    (show (Transition.run (Transition.guarded System.step (SubmitsAt (nodeOf 1)))
        (startOf [nodeOf 1, nodeOf 2] (nodeOf 1)) (replicatedRun (transactionOf 1))).any
      (fun final => (final.log (nodeOf 2)).entries = [entryOf 1 (transactionOf 1)])
        = true by decide +kernel)
  exact ⟨system, reached, entries,
    followers_of_stable_coordinator (initial_startOf _ _) reached (nodeOf 2)⟩

end SuperPeerNet
