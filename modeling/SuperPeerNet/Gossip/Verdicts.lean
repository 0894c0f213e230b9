/-
This file shows that no member is declared `FAILED` without confirmation.

The verdict of the detector reads a counter, so the argument is about the history of that
counter: every call that changes the state, the incarnation or the sequence of a record by
evidence or by rumour starts the count again, and the count is raised only by unsuccessful
probes of a suspected member that are a second apart. What the counter stands for is a
predicate on the sequence of calls, and it is carried along every run.
-/

import SuperPeerNet.Gossip.Tombstones

namespace SuperPeerNet

/-! ### What a tick prints -/

theorem mem_stepIf {due : Bool} {localId : NodeID} {member : MemberRecord}
    {state : SuperPeerMemberState} {line : TransitionLine}
    (printed : line ∈ (stepIf due localId member state).2) :
    due = true ∧ line.id = member.id ∧ line.before = member.state ∧ line.after = state := by
  unfold stepIf transitionLine at printed
  split at printed
  · rename_i isDue
    split at printed
    · cases printed
    · rw [List.mem_singleton.mp printed]
      exact ⟨isDue, rfl, rfl, rfl⟩
  · cases printed

/-- What the lines of a tick say about a member. -/
theorem mem_tickMember {localId : NodeID} {limits : Limits} {now : Int} {member : MemberRecord}
    {line : TransitionLine} (printed : line ∈ (tickMember localId limits now member).2) :
    line.id = member.id ∧ member.id ≠ localId ∧ line.after ≠ .alive ∧
      (line.after = .failed → line.before = .suspect ∧ member.failedProbes ≥ 2 ∧
        now - member.observedMs ≥ limits.failedMs) ∧
      (line.after = .removed → line.before = .failed ∧
        now - member.observedMs ≥ limits.removedMs) := by
  unfold tickMember at printed
  split at printed
  · cases printed
  · rename_i watched
    have remote : member.id ≠ localId := fun same => watched (Or.inl same)
    simp only [List.mem_append] at printed
    obtain ⟨_, _, _, first⟩ := stepIf_eq (member.state = .alive ∧
      now - member.observedMs ≥ limits.suspectMs) localId member .suspect
    rcases printed with (suspected | failed) | removed
    · obtain ⟨-, same, -, after⟩ := mem_stepIf suspected
      rw [after]
      exact ⟨same, remote, by decide, fun wrong => (by cases wrong), fun wrong => (by cases wrong)⟩
    · obtain ⟨due, same, before, after⟩ := mem_stepIf failed
      obtain ⟨state, age, probes⟩ := of_decide_eq_true due
      rw [state] at before
      rw [first] at same probes
      rw [after]
      exact ⟨same, remote, by decide, fun _ => ⟨before, probes, age⟩, fun wrong => (by cases wrong)⟩
    · obtain ⟨due, same, before, after⟩ := mem_stepIf removed
      obtain ⟨state, age⟩ := of_decide_eq_true due
      obtain ⟨_, _, _, second⟩ := stepIf_eq _ localId _ .failed
      rw [state] at before
      rw [second, first] at same
      rw [after]
      exact ⟨same, remote, by decide, fun wrong => (by cases wrong), fun _ => ⟨before, age⟩⟩

/-- A step of the detector that changes the state prints the new one. -/
theorem stepIf_printed {due : Bool} {localId : NodeID} {member : MemberRecord}
    {state : SuperPeerMemberState}
    (moved : (stepIf due localId member state).1.state ≠ member.state) :
    (stepIf due localId member state).1.state = state ∧
      ∃ line ∈ (stepIf due localId member state).2, line.id = member.id ∧ line.after = state := by
  unfold stepIf transition transitionLine at moved ⊢
  split at moved
  · split at moved
    · exact absurd rfl moved
    · rename_i isDue different
      rw [if_pos isDue, if_neg different, if_neg different]
      exact ⟨rfl, _, List.mem_singleton_self _, rfl, rfl⟩
  · exact absurd rfl moved

/-- Every change of state is printed. -/
theorem tickMember_printed {localId : NodeID} {limits : Limits} {now : Int} {member : MemberRecord}
    (moved : (tickMember localId limits now member).1.state ≠ member.state) :
    ∃ line ∈ (tickMember localId limits now member).2, line.id = member.id ∧
      line.after = (tickMember localId limits now member).1.state := by
  unfold tickMember at moved ⊢
  split at moved
  · exact absurd rfl moved
  · rename_i watched
    rw [if_neg watched]
    simp only [List.mem_append] at moved ⊢
    -- The last of the three steps that moved the member printed its final state.
    generalize firstEq : stepIf (member.state = .alive ∧
      now - member.observedMs ≥ limits.suspectMs) localId member .suspect = suspected at moved ⊢
    generalize secondEq : stepIf (suspected.1.state = .suspect ∧
      now - member.observedMs ≥ limits.failedMs ∧ suspected.1.failedProbes ≥ 2) localId
        suspected.1 .failed = failed at moved ⊢
    generalize thirdEq : stepIf (failed.1.state = .failed ∧
      now - member.observedMs ≥ limits.removedMs) localId failed.1 .removed = removed at moved ⊢
    have firstId : suspected.1.id = member.id := by
      obtain ⟨_, _, _, same⟩ := stepIf_eq (member.state = .alive ∧
        now - member.observedMs ≥ limits.suspectMs) localId member .suspect
      rw [← firstEq, same]
      rfl
    have secondId : failed.1.id = suspected.1.id := by
      obtain ⟨_, _, _, same⟩ := stepIf_eq (suspected.1.state = .suspect ∧
        now - member.observedMs ≥ limits.failedMs ∧ suspected.1.failedProbes ≥ 2) localId
          suspected.1 .failed
      rw [← secondEq, same]
      rfl
    by_cases third : removed.1.state = failed.1.state
    · by_cases second : failed.1.state = suspected.1.state
      · rw [third, second, ← firstEq] at moved
        obtain ⟨state, line, printed, same, after⟩ := stepIf_printed moved
        rw [firstEq] at state printed
        exact ⟨line, Or.inl (Or.inl printed), same, by rw [after, third, second, state]⟩
      · rw [← secondEq] at second
        obtain ⟨state, line, printed, same, after⟩ := stepIf_printed second
        rw [secondEq] at state printed
        exact ⟨line, Or.inl (Or.inr printed), same.trans firstId, by rw [after, third, state]⟩
    · rw [← thirdEq] at third
      obtain ⟨state, line, printed, same, after⟩ := stepIf_printed third
      rw [thirdEq] at state printed
      exact ⟨line, Or.inr printed, (same.trans secondId).trans firstId, by rw [after, state]⟩

theorem tickMember_alive {localId : NodeID} {limits : Limits} {now : Int} {member : MemberRecord}
    (alive : (tickMember localId limits now member).1.state = .alive) : member.state = .alive := by
  by_contra before
  have moved : (tickMember localId limits now member).1.state ≠ member.state :=
    fun same => before (same ▸ alive)
  obtain ⟨line, printed, -, after⟩ := tickMember_printed moved
  exact (mem_tickMember printed).2.2.1 (after.trans alive)

/-! ### Histories of probes -/

/-- The calls by which evidence or a rumour changes a record. -/
def MembershipCall.Evidence : MembershipCall → Prop
  | .register .. | .heartbeat .. | .merge .. => True
  | .probe .. | .tick .. | .unregister .. => False

/-- A merge of a record that came from the wire; every other call. -/
def MembershipCall.FromGossip [Inet] [Sha256] [Process] : MembershipCall → Prop
  | .merge incoming _ => ∃ input, gossipDecodeRecord input = .ok incoming
  | _ => True

section History

variable [Inet] [Sha256]

/-- The table suspects a member, in an epoch. -/
def Suspects (table : SuperPeer) (id : NodeID) (incarnation sequence : UInt64) : Prop :=
  ∃ member, table.find id = some member ∧ member.state = .suspect ∧
    member.incarnation = incarnation ∧ member.sequence = sequence

/-- No heartbeat, registration or merge among the calls changes the record of a node. -/
def Undisturbed (id : NodeID) : SuperPeer → List MembershipCall → Prop
  | _, [] => True
  | table, call :: rest =>
    (call.Evidence → (table.call call).find id = table.find id) ∧
      Undisturbed id (table.call call) rest

/-- An unsuccessful probe of a suspected member, after which its record was left alone. -/
def ProbedOnce (created : SuperPeer) (calls : List MembershipCall) (id : NodeID)
    (incarnation sequence : UInt64) (first : Int) : Prop :=
  ∃ earlier rest, calls = earlier ++ .probe id incarnation sequence first false :: rest ∧
    Suspects (created.calls earlier) id incarnation sequence ∧
    Undisturbed id (created.calls (earlier ++ [.probe id incarnation sequence first false])) rest

/-- Two unsuccessful probes of a suspected member, a second apart, and since the first of them
its record was left alone. -/
def ProbedTwice (created : SuperPeer) (calls : List MembershipCall) (id : NodeID)
    (incarnation sequence : UInt64) : Prop :=
  ∃ earlier middle rest first second,
    calls = earlier ++ .probe id incarnation sequence first false ::
      (middle ++ .probe id incarnation sequence second false :: rest) ∧
    second - first ≥ 1000 ∧
    Suspects (created.calls earlier) id incarnation sequence ∧
    Suspects (created.calls (earlier ++ .probe id incarnation sequence first false :: middle)) id
      incarnation sequence ∧
    Undisturbed id (created.calls (earlier ++ [.probe id incarnation sequence first false]))
      (middle ++ .probe id incarnation sequence second false :: rest)

theorem Undisturbed.append {id : NodeID} {table : SuperPeer} {first second : List MembershipCall}
    (before : Undisturbed id table first) (after : Undisturbed id (table.calls first) second) :
    Undisturbed id table (first ++ second) := by
  induction first generalizing table with
  | nil => exact after
  | cons call rest inductionHypothesis =>
    exact ⟨before.1, inductionHypothesis before.2 after⟩

variable {created : SuperPeer} {calls : List MembershipCall} {call : MembershipCall} {id : NodeID}
  {incarnation sequence : UInt64} {time : Int}

/-- A history goes on with a call that does not disturb the record. -/
theorem ProbedOnce.snoc (history : ProbedOnce created calls id incarnation sequence time)
    (quiet : call.Evidence →
      ((created.calls calls).call call).find id = (created.calls calls).find id) :
    ProbedOnce created (calls ++ [call]) id incarnation sequence time := by
  obtain ⟨earlier, rest, rfl, suspected, undisturbed⟩ := history
  refine ⟨earlier, rest ++ [call], by simp, suspected, undisturbed.append ⟨?_, trivial⟩⟩
  rw [← calls_append, List.append_assoc, List.singleton_append]
  exact quiet

theorem ProbedTwice.snoc (history : ProbedTwice created calls id incarnation sequence)
    (quiet : call.Evidence →
      ((created.calls calls).call call).find id = (created.calls calls).find id) :
    ProbedTwice created (calls ++ [call]) id incarnation sequence := by
  obtain ⟨earlier, middle, rest, first, second, rfl, apart, suspected, again, undisturbed⟩ := history
  refine ⟨earlier, middle, rest ++ [call], first, second, by simp, apart, suspected, again, ?_⟩
  have last : Undisturbed id ((created.calls
      (earlier ++ [.probe id incarnation sequence first false])).calls
        (middle ++ .probe id incarnation sequence second false :: rest)) [call] := by
    refine ⟨?_, trivial⟩
    rw [← calls_append, List.append_assoc, List.singleton_append]
    exact quiet
  simpa using undisturbed.append last

/-- The first unsuccessful probe begins a history. -/
theorem ProbedOnce.begin
    (suspected : Suspects (created.calls calls) id incarnation sequence) :
    ProbedOnce created (calls ++ [.probe id incarnation sequence time false]) id incarnation
      sequence time :=
  ⟨calls, [], rfl, suspected, trivial⟩

/-- The second one confirms it. -/
theorem ProbedOnce.confirm {now : Int}
    (history : ProbedOnce created calls id incarnation sequence time)
    (suspected : Suspects (created.calls calls) id incarnation sequence)
    (apart : now - time ≥ 1000) :
    ProbedTwice created (calls ++ [.probe id incarnation sequence now false]) id incarnation
      sequence := by
  obtain ⟨earlier, rest, rfl, before, undisturbed⟩ := history
  refine ⟨earlier, rest, [], time, now, by simp, apart, before, suspected,
    undisturbed.append ⟨?_, trivial⟩⟩
  intro evidence
  cases evidence

/-! ### What the counter stands for -/

/-- What the counter of failed probes of a member stands for. -/
structure Counted (created : SuperPeer) (calls : List MembershipCall) (id : NodeID)
    (member : MemberRecord) : Prop where
  alive : member.state = .alive → member.failedProbes = 0
  history : member.failedProbes = 0 ∨
    (member.failedProbes = 1 ∧
      ProbedOnce created calls id member.incarnation member.sequence member.probeMs) ∨
    (member.failedProbes = 2 ∧ ProbedTwice created calls id member.incarnation member.sequence)

theorem Counted.of_zero {member : MemberRecord} (zero : member.failedProbes = 0) :
    Counted created calls id member :=
  ⟨fun _ => zero, Or.inl zero⟩

/-- A record that keeps its epoch and its probes keeps its history. -/
theorem Counted.snoc {member written : MemberRecord} (counted : Counted created calls id member)
    (alive : written.state = .alive → member.state = .alive)
    (probes : written.failedProbes = member.failedProbes)
    (probeMs : written.probeMs = member.probeMs)
    (sameIncarnation : written.incarnation = member.incarnation)
    (sameSequence : written.sequence = member.sequence)
    (quiet : call.Evidence →
      ((created.calls calls).call call).find id = (created.calls calls).find id) :
    Counted created (calls ++ [call]) id written := by
  refine ⟨fun now => probes.trans (counted.alive (alive now)), ?_⟩
  rw [probes, probeMs, sameIncarnation, sameSequence]
  rcases counted.history with zero | ⟨one, once⟩ | ⟨two, twice⟩
  · exact Or.inl zero
  · exact Or.inr (Or.inl ⟨one, once.snoc quiet⟩)
  · exact Or.inr (Or.inr ⟨two, twice.snoc quiet⟩)

/-- A probe keeps the counter true. -/
theorem Counted.probed {member : MemberRecord} (counted : Counted created calls id member)
    (found : (created.calls calls).find id = some member) (now : Int) (success : Bool) :
    Counted created (calls ++ [.probe id incarnation sequence now success]) id
      (probed member incarnation sequence now success) := by
  have quiet : (MembershipCall.probe id incarnation sequence now success).Evidence →
      ((created.calls calls).call (.probe id incarnation sequence now success)).find id =
        (created.calls calls).find id := fun evidence => by cases evidence
  unfold SuperPeerNet.probed
  by_cases counts : probeCounts member incarnation sequence now
  · rw [if_pos counts]
    obtain ⟨rfl, rfl, suspect, apart⟩ := counts
    have suspected : Suspects (created.calls calls) id member.incarnation member.sequence :=
      ⟨member, found, suspect, rfl, rfl⟩
    have notAlive : member.state ≠ .alive := by
      rw [suspect]
      decide
    cases success with
    | true => exact .of_zero rfl
    | false =>
      refine ⟨fun alive => absurd alive notAlive, ?_⟩
      rcases counted.history with zero | ⟨one, once⟩ | ⟨two, twice⟩
      · refine Or.inr (Or.inl ⟨?_, .begin suspected⟩)
        simp [zero]
      · refine Or.inr (Or.inr ⟨?_, once.confirm suspected apart⟩)
        simp [one]
      · refine Or.inr (Or.inr ⟨?_, twice.snoc quiet⟩)
        simp [two]
  · rw [if_neg counts]
    exact counted.snoc (fun alive => alive) rfl rfl rfl rfl quiet

/-- Every call keeps the counters of the members true. -/
theorem Counted.rewritten [Process] {member written : MemberRecord}
    (counted : Counted created calls id member)
    (found : (created.calls calls).find id = some member)
    (later : ((created.calls calls).call call).find id = some written)
    (rewrites : Rewrites (created.calls calls) call member written) (gossip : call.FromGossip) :
    Counted created (calls ++ [call]) id written := by
  have isMember : member.id = id := KeyedList.lookup_key found
  cases rewrites with
  | idle =>
    exact counted.snoc (fun alive => alive) rfl rfl rfl rfl fun _ => later.trans found.symm
  | @register node home incarnation now wall =>
    obtain ⟨_, fields⟩ := registered_eq (created.calls calls).localNode.id member node home
      incarnation now wall
    rw [fields]
    exact .of_zero rfl
  | @heartbeat incoming now wall =>
    obtain ⟨_, _, fields⟩ := beaten_eq (created.calls calls).localNode.id member incoming now wall
    rw [fields]
    exact .of_zero rfl
  | @merge incoming now =>
    obtain ⟨input, decoded⟩ := gossip
    have none : incoming.failedProbes = 0 := (gossipDecodeRecord_eq_ok decoded).2.2
    exact .of_zero none
  | @probe probedId incarnation sequence now success _ same =>
    obtain rfl : probedId = id := same.symm.trans isMember
    exact counted.probed found now success
  | @tick now limits =>
    have alive := @tickMember_alive (created.calls calls).localNode.id limits now member
    obtain ⟨state, _, _, fields⟩ :=
      tickMember_eq (created.calls calls).localNode.id limits now member
    rw [fields] at alive ⊢
    exact counted.snoc alive rfl rfl rfl rfl fun evidence => by cases evidence
  | unregister =>
    refine counted.snoc (fun alive => ?_) rfl rfl rfl rfl fun evidence => by cases evidence
    cases alive

theorem Enters.failedProbes [Process] {table : SuperPeer} {new : MemberRecord}
    (enters : Enters table call new) (gossip : call.FromGossip) : new.failedProbes = 0 := by
  cases enters with
  | @register node home incarnation now wall =>
    obtain ⟨_, fields⟩ := registered_eq table.localNode.id (setMember node now wall) node home
      incarnation now wall
    rw [fields]
  | @merge incoming now =>
    obtain ⟨input, decoded⟩ := gossip
    exact (gossipDecodeRecord_eq_ok decoded).2.2

/-- The counters of the members are true along every sequence of calls. -/
theorem counted_of_calls [Process] {config : NodeConfig} {now wall : Int}
    (creation : superpeerCreate config now wall = .ok created) (calls : List MembershipCall)
    (gossip : ∀ call ∈ calls, call.FromGossip) {id : NodeID} {member : MemberRecord}
    (found : (created.calls calls).find id = some member) : Counted created calls id member := by
  induction calls using List.reverseRecOn generalizing member with
  | nil =>
    unfold superpeerCreate at creation
    split at creation
    · cases creation
    · cases creation
      have alone := KeyedList.lookup_mem found
      rw [List.mem_singleton.mp alone]
      exact .of_zero rfl
  | append_singleton calls call inductionHypothesis =>
    have earlier := fun other inside => gossip other (List.mem_append_left _ inside)
    have now := gossip call (List.mem_append_right _ (List.mem_singleton_self call))
    rw [calls_append] at found
    have changed := changed_call (created.calls calls) call
    cases before : (created.calls calls).find id with
    | none =>
      rcases changed.find_none before with absent | ⟨new, entered, -, enters⟩
      · cases absent.symm.trans found
      · cases entered.symm.trans found
        exact .of_zero (enters.failedProbes now)
    | some old =>
      obtain ⟨written, later, rewrites⟩ := changed.find_some before
      cases later.symm.trans found
      exact (inductionHypothesis earlier before).rewritten before found rewrites now

theorem WellFormed.after_calls {table : SuperPeer} (wellFormed : WellFormed table)
    (calls : List MembershipCall) :
    WellFormed (table.calls calls) ∧ (table.calls calls).localNode = table.localNode := by
  induction calls generalizing table with
  | nil => exact ⟨wellFormed, rfl⟩
  | cons call rest inductionHypothesis =>
    have changed := changed_call table call
    obtain ⟨held, same⟩ := inductionHypothesis (wellFormed.changed changed)
    exact ⟨held, same.trans changed.localNode⟩

/-- After any sequence of calls, with the merged records coming from the wire, an `ALIVE` member
has no failed probes. A tick then prints every change of state; it declares a member `FAILED` only
if two unsuccessful probes a second apart were made while it was suspected in its current epoch,
with its record left alone since the first of them and its silence at least the limit; it declares
a member `REMOVED` only from `FAILED` at the limit; and it leaves the local node alone. -/
theorem no_failure_without_confirmation [Process] {config : NodeConfig} {start wall : Int}
    (creation : superpeerCreate config start wall = .ok created) (calls : List MembershipCall)
    (gossip : ∀ call ∈ calls, call.FromGossip) :
    (∀ member ∈ (created.calls calls).members, member.state = .alive → member.failedProbes = 0) ∧
    ∀ (now : Int) (limits : Limits) (after : SuperPeer) (lines : List TransitionLine),
      membershipTick (created.calls calls) now limits = (after, .ok lines) →
      after.localNode = created.localNode ∧
      after.find created.localNode.id = (created.calls calls).find created.localNode.id ∧
      (∀ id member written, (created.calls calls).find id = some member →
        after.find id = some written → written.state ≠ member.state →
        ∃ line ∈ lines, line.id = id ∧ line.after = written.state) ∧
      ∀ line ∈ lines, line.id ≠ created.localNode.id ∧
        ∃ member, (created.calls calls).find line.id = some member ∧
          (line.after = .failed →
            now - member.observedMs ≥ limits.failedMs ∧
            ProbedTwice created calls line.id member.incarnation member.sequence) ∧
          (line.after = .removed →
            line.before = .failed ∧ now - member.observedMs ≥ limits.removedMs) := by
  obtain ⟨wellFormed, sameLocal⟩ := (WellFormed.created creation).after_calls calls
  have distinct := KeyedList.distinct_iff_nodup.mpr wellFormed.distinct
  have counted := @counted_of_calls _ _ created _ _ _ _ creation calls gossip
  constructor
  · intro member inside alive
    exact (counted ((KeyedList.lookup_eq_some_iff distinct).mpr ⟨inside, rfl⟩)).alive alive
  · intro now limits after lines ticked
    unfold membershipTick at ticked
    split at ticked
    · cases ticked
      have lookups : ∀ id, (⟨(created.calls calls).localNode, (created.calls calls).members.map
          fun member => (tickMember (created.calls calls).localNode.id limits now member).1⟩ :
          SuperPeer).find id = ((created.calls calls).find id).map fun member =>
            (tickMember (created.calls calls).localNode.id limits now member).1 :=
        fun id => KeyedList.lookup_map (id_tickMember _ limits now) _ id
      refine ⟨sameLocal, ?_, ?_, ?_⟩
      · rw [lookups, ← sameLocal]
        cases found : (created.calls calls).find (created.calls calls).localNode.id with
        | none => rfl
        | some member =>
          have isLocal := KeyedList.lookup_key found
          rw [Option.map_some, tickMember, if_pos (Or.inl isLocal)]
      · intro id member written found rewritten moved
        rw [lookups, found] at rewritten
        cases rewritten
        obtain ⟨line, printed, same, last⟩ := tickMember_printed moved
        exact ⟨line, List.mem_flatMap.mpr ⟨member, KeyedList.lookup_mem found, printed⟩,
          same.trans (KeyedList.lookup_key found), last⟩
      · intro line printed
        obtain ⟨member, inside, own⟩ := List.mem_flatMap.mp printed
        obtain ⟨same, remote, -, failed, removed⟩ := mem_tickMember own
        have found : (created.calls calls).find line.id = some member :=
          (KeyedList.lookup_eq_some_iff distinct).mpr ⟨inside, same.symm⟩
        rw [← same, sameLocal] at remote
        refine ⟨remote, member, found, fun verdict => ?_, removed⟩
        obtain ⟨-, probes, silent⟩ := failed verdict
        refine ⟨silent, ?_⟩
        rcases (counted found).history with zero | ⟨one, -⟩ | ⟨-, twice⟩
        · omega
        · omega
        · exact twice
    · cases ticked

end History

/-- A neighbour registers and falls silent, and two probes of it fail. -/
def silence : List MembershipCall :=
  [.register (neighbour 2) (neighbour 2).id 1 0 0, .tick 15000 ⟨15000, 20000, 30000⟩,
    .probe (neighbour 2).id 1 0 16000 false, .probe (neighbour 2).id 1 0 17000 false]

/-- The verdict on the silent neighbour. -/
def silenceVerdict : TransitionLine := ⟨(neighbour 2).id, .suspect, .failed, .superPeer, 1⟩

/-- The verdict is printed, and it rests on the two probes. -/
theorem no_failure_without_confirmation_silence :
    letI := Inet.reference; letI := Sha256.reference; letI := Process.first
    ∃ after incarnation sequence,
      membershipTick ((SuperPeer.fresh (neighbour 1) 0 0).calls silence) 25000
        ⟨15000, 20000, 30000⟩ = (after, .ok [silenceVerdict]) ∧
      ProbedTwice (SuperPeer.fresh (neighbour 1) 0 0) silence silenceVerdict.id incarnation
        sequence := by
  let inet := Inet.reference
  let sha := Sha256.reference
  let process := Process.first
  obtain ⟨creation, printed⟩ :
      superpeerCreate (neighbour 1).config 0 0 = .ok (SuperPeer.fresh (neighbour 1) 0 0) ∧
      (membershipTick ((SuperPeer.fresh (neighbour 1) 0 0).calls silence) 25000
        ⟨15000, 20000, 30000⟩).2 = .ok [silenceVerdict] := by
    decide +kernel
  have gossip : ∀ call ∈ silence, call.FromGossip := by
    intro call inside
    simp only [silence, List.mem_cons, List.not_mem_nil, or_false] at inside
    rcases inside with rfl | rfl | rfl | rfl
    · trivial
    · trivial
    · trivial
    · trivial
  generalize outcome : membershipTick ((SuperPeer.fresh (neighbour 1) 0 0).calls silence) 25000
    ⟨15000, 20000, 30000⟩ = result at printed ⊢
  have ticked := outcome.trans (Prod.ext rfl printed : result = (result.1, .ok [silenceVerdict]))
  obtain ⟨-, -, -, lines⟩ := (no_failure_without_confirmation creation silence gossip).2 25000
    ⟨15000, 20000, 30000⟩ result.1 [silenceVerdict] ticked
  obtain ⟨-, member, -, failed, -⟩ := lines silenceVerdict (List.mem_singleton_self _)
  exact ⟨result.1, member.incarnation, member.sequence, Prod.ext rfl printed, (failed rfl).2⟩

end SuperPeerNet
