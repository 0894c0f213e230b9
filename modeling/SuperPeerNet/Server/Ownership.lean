/-
This file shows that every connection of the server has one owner at a time.

Seen from outside, connections are numbered items that are handed on: from `concurrent_server_run`
to the queue, from there to a worker, and each of them may close a connection that it has. The state
of the server stands for who has which connection, and every section takes it to a state that stands
for what is handed on in it. What holds of items that are handed on then holds of the connections,
in spite of descriptors that are given out again.
-/

import SuperPeerNet.Library.Custody
import SuperPeerNet.Server.Sections

namespace SuperPeerNet

open Custody

/-! ### Who has which connection -/

/-- The descriptor that `concurrent_server_run` has. -/
def RunPhase.held : RunPhase → Option Nat
  | .accepted descriptor => some descriptor
  | _ => none

/-- The descriptor that a worker has. -/
def ServerWorker.held : ServerWorker → Option Nat
  | .handling descriptor => some descriptor
  | _ => none

/-- The descriptors that the threads have and those in the queue. -/
def Serving.held (serving : Serving) : List Nat :=
  serving.run.held.toList ++
    (serving.server.queue.contents ++ serving.workers.filterMap ServerWorker.held)

/-- The connection that a descriptor refers to. -/
def connectionOf (descriptors : Nat → Option Referent) (descriptor : Nat) : Nat :=
  match descriptors descriptor with
  | some (.connection number) => number
  | _ => 0

/-- An event of items that are handed on, as one of connections. -/
def ServerEvent.of : Event ServerCaller → ServerEvent
  | .taken number => .accepted number
  | .given position number => .given position (some (.connection number))
  | .touched caller number => .shutdown caller (some (.connection number))
  | .served position number => .closed (.worker position) (some (.connection number))
  | .dropped caller number => .closed caller (some (.connection number))

/-- The state stands for connections that are handed on: the descriptors that somebody has are
different and refer to connections. -/
structure Represents (serving : Serving) (holding : Holding ServerCaller) : Prop where
  refers : ∀ descriptor ∈ serving.held, serving.descriptors descriptor =
    some (.connection (connectionOf serving.descriptors descriptor))
  distinct : serving.held.Nodup
  intake : holding.intake = serving.run.held.map (connectionOf serving.descriptors)
  queue : holding.queue = serving.server.queue.contents.map (connectionOf serving.descriptors)
  workers : holding.workers = serving.workers.map fun worker =>
    worker.held.map (connectionOf serving.descriptors)
  active : serving.server.active = serving.workers.map ServerWorker.held
  history : serving.history = holding.history.map ServerEvent.of
  quiet : serving.run = .returned → serving.server.queue.contents = []

theorem represents_start (workers : Nat) :
    Represents (.start workers) ⟨none, [], List.replicate workers none, []⟩ := by
  have nobody : (Serving.start workers).held = [] := by
    show ((List.replicate workers ServerWorker.idle).filterMap ServerWorker.held) = []
    simp [ServerWorker.held]
  constructor
  · rw [nobody]
    exact nofun
  · rw [nobody]
    exact List.nodup_nil
  · rfl
  · rfl
  · show _ = (List.replicate workers ServerWorker.idle).map _
    rw [List.map_replicate]
    rfl
  · show _ = (List.replicate workers ServerWorker.idle).map _
    rw [List.map_replicate]
    rfl
  · rfl
  · exact nofun

namespace Represents

variable {serving : Serving} {holding : Holding ServerCaller} {descriptor position : Nat}

/-- A descriptor that nobody has may come to refer to something else. -/
theorem reuse (represents : Represents serving holding) (free : descriptor ∉ serving.held)
    (target : Option Referent) :
    Represents { serving with
      descriptors := Function.update serving.descriptors descriptor target } holding := by
  have same : ∀ other ∈ serving.held,
      Function.update serving.descriptors descriptor target other = serving.descriptors other :=
    fun other has => Function.update_of_ne (ne_of_mem_of_not_mem has free) _ _
  have number : ∀ other ∈ serving.held,
      connectionOf (Function.update serving.descriptors descriptor target) other =
        connectionOf serving.descriptors other := by
    intro other has
    unfold connectionOf
    rw [same other has]
  constructor
  · intro other has
    show Function.update serving.descriptors descriptor target other = _
    rw [same other has, number other has]
    exact represents.refers other has
  · exact represents.distinct
  · rw [represents.intake]
    refine (Option.map_congr fun other has => number other ?_).symm
    exact List.mem_append_left _ (Option.mem_toList.mpr has)
  · rw [represents.queue]
    refine (List.map_congr_left fun other has => number other ?_).symm
    exact List.mem_append_right _ (List.mem_append_left _ has)
  · rw [represents.workers]
    refine (List.map_congr_left fun worker member => ?_).symm
    refine Option.map_congr fun other has => number other ?_
    refine List.mem_append_right _ (List.mem_append_right _ ?_)
    exact List.mem_filterMap.mpr ⟨worker, member, has⟩
  · exact represents.active
  · exact represents.history
  · exact represents.quiet

/-- What is left when some descriptors are given up. -/
theorem leave (represents : Represents serving holding) {gone after : List Nat}
    (parts : (gone ++ after).Perm serving.held) :
    (∀ other ∈ after, serving.descriptors other =
        some (.connection (connectionOf serving.descriptors other))) ∧
      after.Nodup ∧ ∀ other ∈ gone, other ∉ after := by
  have distinct := List.nodup_append.mp (parts.nodup_iff.mpr represents.distinct)
  refine ⟨fun other has => represents.refers other (parts.subset (List.mem_append_right _ has)),
    distinct.2.1, fun other left has => distinct.2.2 other left other has rfl⟩

/-- A descriptor that is not in use is nobody's. -/
theorem not_held (represents : Represents serving holding)
    (other : ∀ number, serving.descriptors descriptor ≠ some (.connection number)) :
    descriptor ∉ serving.held := fun has => other _ (represents.refers descriptor has)

theorem count_accepted (represents : Represents serving holding) :
    (serving.history.filterMap ServerEvent.accepts).length = number holding.history := by
  rw [represents.history, List.filterMap_map, number]
  refine congrArg List.length (List.filterMap_congr fun event _ => ?_)
  cases event <;> rfl

/-- A connection is accepted. -/
theorem accept (represents : Represents serving holding) (phase : serving.run = .accepting)
    (free : serving.descriptors descriptor = none) :
    ∃ next, Step holding next ∧
      Represents { serving.accept descriptor with run := .accepted descriptor } next := by
  have nobody : descriptor ∉ serving.held := represents.not_held fun _ => by
    rw [free]
    exact nofun
  have updated := represents.reuse nobody (some (.connection (number holding.history)))
  have empty : holding.intake = none := by
    rw [represents.intake, phase]
    rfl
  have refers : connectionOf (Function.update serving.descriptors descriptor
      (some (.connection (number holding.history)))) descriptor = number holding.history := by
    unfold connectionOf
    rw [Function.update_self]
  have same : serving.held = serving.server.queue.contents ++
      serving.workers.filterMap ServerWorker.held := by
    unfold Serving.held
    rw [phase]
    rfl
  refine ⟨_, .take empty, ?_⟩
  rw [Serving.accept, represents.count_accepted]
  constructor
  · intro other has
    rcases List.mem_cons.mp has with rfl | old
    · dsimp only
      rw [refers, Function.update_self]
    · exact updated.refers other (same ▸ old)
  · exact List.nodup_cons.mpr ⟨same ▸ nobody, same ▸ represents.distinct⟩
  · exact congrArg some refers.symm
  · exact updated.queue
  · exact updated.workers
  · exact represents.active
  · dsimp only
    rw [represents.history, List.map_append]
    rfl
  · exact nofun

/-- The connection that has been accepted is put into the queue. -/
theorem enqueue (represents : Represents serving holding)
    (phase : serving.run = .accepted descriptor) (room : serving.server.queue.count < serverQueue)
    {next : RunPhase} (empty : next.held = none) (going : next ≠ .returned) :
    ∃ after, Step holding after ∧
      Represents { serving with
        server := { serving.server with queue := serving.server.queue.push descriptor room }
        run := next } after := by
  have intake : holding.intake = some (connectionOf serving.descriptors descriptor) := by
    rw [represents.intake, phase]
    rfl
  have moved : (([] : List Nat) ++ (next.held.toList ++
      ((serving.server.queue.push descriptor room).contents ++
        serving.workers.filterMap ServerWorker.held))).Perm serving.held := by
    unfold Serving.held
    rw [empty, phase, Ring.Buffer.contents_push, List.append_assoc]
    exact List.perm_middle
  obtain ⟨refers, distinct, -⟩ := represents.leave moved
  refine ⟨_, .enqueue intake, refers, distinct, ?_, ?_, represents.workers, represents.active,
    represents.history, fun returned => absurd returned going⟩
  · dsimp only
    rw [empty]
    rfl
  · dsimp only
    rw [represents.queue, Ring.Buffer.contents_push, List.map_append]
    rfl

/-- The connection that has been accepted is closed. -/
theorem refuse (represents : Represents serving holding)
    (phase : serving.run = .accepted descriptor) {next : RunPhase} (empty : next.held = none)
    (going : next ≠ .returned) :
    ∃ after, Step holding after ∧
      Represents { serving.close .run descriptor with run := next } after := by
  have intake : holding.intake = some (connectionOf serving.descriptors descriptor) := by
    rw [represents.intake, phase]
    rfl
  have moved : ([descriptor] ++ (next.held.toList ++
      (serving.server.queue.contents ++ serving.workers.filterMap ServerWorker.held))).Perm
      serving.held := by
    unfold Serving.held
    rw [empty, phase]
    exact List.Perm.refl _
  obtain ⟨refers, distinct, gone⟩ := represents.leave moved
  have target := represents.refers descriptor (moved.subset List.mem_cons_self)
  have left : Represents { serving with
      run := next
      history := serving.history ++ [.closed .run (serving.descriptors descriptor)] }
      { holding with
        intake := none
        history := holding.history ++
          [.dropped .run (connectionOf serving.descriptors descriptor)] } := by
    refine ⟨refers, distinct, ?_, represents.queue, represents.workers, represents.active, ?_,
      fun returned => absurd returned going⟩
    · dsimp only
      rw [empty]
      rfl
    · dsimp only
      rw [represents.history, List.map_append, target]
      rfl
  exact ⟨_, .refuse ServerCaller.run intake, left.reuse (gone descriptor List.mem_cons_self) none⟩

/-- The first connection of the queue is closed. -/
theorem closeFront (represents : Represents serving holding)
    (filled : serving.server.queue.count ≠ 0) :
    ∃ after, Step holding after ∧ Represents (serving.closeFront filled) after := by
  have contents := serving.server.queue.contents_pop filled
  have queue := represents.queue
  rw [contents] at queue
  have moved : ([serving.server.queue.front] ++ (serving.run.held.toList ++
      ((serving.server.queue.pop filled).contents ++
        serving.workers.filterMap ServerWorker.held))).Perm serving.held := by
    unfold Serving.held
    rw [contents, List.singleton_append, List.cons_append]
    exact List.perm_middle.symm
  obtain ⟨refers, distinct, gone⟩ := represents.leave moved
  have target := represents.refers _ (moved.subset List.mem_cons_self)
  have left : Represents { serving with
      server := { serving.server with queue := serving.server.queue.pop filled }
      history := serving.history ++
        [.closed .stop (serving.descriptors serving.server.queue.front)] }
      { holding with
        queue := (serving.server.queue.pop filled).contents.map (connectionOf serving.descriptors)
        history := holding.history ++
          [.dropped .stop (connectionOf serving.descriptors serving.server.queue.front)] } := by
    refine ⟨refers, distinct, represents.intake, rfl, represents.workers, represents.active, ?_,
      fun returned => ?_⟩
    · dsimp only
      rw [represents.history, List.map_append, target]
      rfl
    · have nothing := represents.quiet returned
      rw [contents] at nothing
      cases nothing
  exact ⟨_, .drop ServerCaller.stop queue, left.reuse (gone _ List.mem_cons_self) none⟩

/-- A connection that a worker has is shut down. -/
theorem shutdown (represents : Represents serving holding) (caller : ServerCaller)
    (has : serving.workers[position]? = some (.handling descriptor)) :
    ∃ after, Step holding after ∧ after.workers = holding.workers ∧
      Represents (serving.shutdown caller descriptor) after := by
  have worker : holding.workers[position]? =
      some (some (connectionOf serving.descriptors descriptor)) := by
    rw [represents.workers, List.getElem?_map, has]
    rfl
  have held : descriptor ∈ serving.held := by
    refine List.mem_append_right _ (List.mem_append_right _ ?_)
    exact List.mem_filterMap.mpr ⟨_, List.mem_of_getElem? has, rfl⟩
  refine ⟨_, .touch caller worker, rfl, represents.refers, represents.distinct, represents.intake,
    represents.queue, represents.workers, represents.active, ?_, represents.quiet⟩
  show serving.history ++ [.shutdown caller (serving.descriptors descriptor)] = _
  rw [represents.history, List.map_append, represents.refers descriptor held]
  rfl

/-- A worker is given the first connection of the queue. -/
theorem give (represents : Represents serving holding)
    (idle : serving.workers[position]? = some .idle) (filled : serving.server.queue.count ≠ 0) :
    ∃ after, Step holding after ∧
      Represents { serving with
        server := { serving.server with
          queue := serving.server.queue.pop filled
          active := serving.server.active.set position (some serving.server.queue.front) }
        workers := serving.workers.set position (.handling serving.server.queue.front)
        history := serving.history ++
          [.given position (serving.descriptors serving.server.queue.front)] } after := by
  have contents := serving.server.queue.contents_pop filled
  have queue := represents.queue
  rw [contents] at queue
  have free : holding.workers[position]? = some none := by
    rw [represents.workers, List.getElem?_map, idle]
    rfl
  have taken : ((serving.workers.set position (.handling serving.server.queue.front)).filterMap
      ServerWorker.held).Perm
      (serving.server.queue.front :: serving.workers.filterMap ServerWorker.held) :=
    Tickets.perm_set ServerWorker.held idle (.handling serving.server.queue.front)
  have moved : (([] : List Nat) ++ (serving.run.held.toList ++
      ((serving.server.queue.pop filled).contents ++
        (serving.workers.set position (.handling serving.server.queue.front)).filterMap
          ServerWorker.held))).Perm serving.held := by
    unfold Serving.held
    rw [contents, List.nil_append, List.cons_append]
    exact ((taken.append_left _).trans List.perm_middle).append_left _
  obtain ⟨refers, distinct, -⟩ := represents.leave moved
  have target := represents.refers serving.server.queue.front (by
    unfold Serving.held
    rw [contents]
    exact List.mem_append_right _ (List.mem_append_left _ List.mem_cons_self))
  refine ⟨_, .give queue free, refers, distinct, represents.intake, rfl, ?_, ?_, ?_,
    fun returned => ?_⟩
  · dsimp only
    rw [represents.workers, List.map_set]
    rfl
  · dsimp only
    rw [represents.active, List.map_set]
    rfl
  · dsimp only
    rw [represents.history, List.map_append, target]
    rfl
  · have nothing := represents.quiet returned
    rw [contents] at nothing
    cases nothing

/-- A worker closes the connection that it has. -/
theorem serve (represents : Represents serving holding)
    (has : serving.workers[position]? = some (.handling descriptor)) :
    ∃ after, Step holding after ∧
      Represents (({ serving with
        server := { serving.server with active := serving.server.active.set position none }
        workers := serving.workers.set position .idle } : Serving).close (.worker position)
          descriptor) after := by
  have worker : holding.workers[position]? =
      some (some (connectionOf serving.descriptors descriptor)) := by
    rw [represents.workers, List.getElem?_map, has]
    rfl
  have given : (descriptor :: (serving.workers.set position .idle).filterMap
      ServerWorker.held).Perm (serving.workers.filterMap ServerWorker.held) :=
    Tickets.perm_set ServerWorker.held has .idle
  have moved : ([descriptor] ++ (serving.run.held.toList ++ (serving.server.queue.contents ++
      (serving.workers.set position .idle).filterMap ServerWorker.held))).Perm serving.held := by
    unfold Serving.held
    rw [List.singleton_append]
    refine List.perm_middle.symm.trans (List.Perm.append_left _ ?_)
    exact List.perm_middle.symm.trans (given.append_left _)
  obtain ⟨refers, distinct, gone⟩ := represents.leave moved
  have target := represents.refers _ (moved.subset List.mem_cons_self)
  have left : Represents { serving with
      server := { serving.server with active := serving.server.active.set position none }
      workers := serving.workers.set position .idle
      history := serving.history ++
        [.closed (.worker position) (serving.descriptors descriptor)] }
      { holding with
        workers := holding.workers.set position none
        history := holding.history ++
          [.served position (connectionOf serving.descriptors descriptor)] } := by
    refine ⟨refers, distinct, represents.intake, represents.queue, ?_, ?_, ?_, represents.quiet⟩
    · dsimp only
      rw [represents.workers, List.map_set]
      rfl
    · dsimp only
      rw [represents.active, List.map_set]
      rfl
    · dsimp only
      rw [represents.history, List.map_append, target]
      rfl
  exact ⟨_, .serve worker, left.reuse (gone _ List.mem_cons_self) none⟩

/-! ### Every action hands connections on -/

/-- The place of `concurrent_server_run` may change while it has no connection. -/
theorem rephase (represents : Represents serving holding) {phase : RunPhase}
    (same : phase.held = serving.run.held)
    (quiet : phase = .returned → serving.server.queue.contents = []) :
    Represents { serving with run := phase } holding := by
  have held : ({ serving with run := phase } : Serving).held = serving.held := by
    unfold Serving.held
    rw [same]
  refine ⟨?_, ?_, ?_, represents.queue, represents.workers, represents.active, represents.history,
    quiet⟩
  · rw [held]
    exact represents.refers
  · rw [held]
    exact represents.distinct
  · dsimp only
    rw [same]
    exact represents.intake

/-- A worker that has no connection may end. -/
theorem endWorker (represents : Represents serving holding)
    (idle : serving.workers[position]? = some .idle) :
    Represents { serving with workers := serving.workers.set position .ended } holding := by
  have same : ∀ {Value : Type} (value : ServerWorker → Value), value .ended = value .idle →
      (serving.workers.set position .ended).map value = serving.workers.map value := by
    intro Value value equal
    obtain ⟨inside, found⟩ := List.getElem?_eq_some_iff.mp idle
    rw [List.map_set, equal, ← found, ← List.map_set, List.set_getElem_self]
  have whole : ∀ workers : List ServerWorker,
      workers.filterMap ServerWorker.held = (workers.map ServerWorker.held).filterMap id :=
    fun workers => by
      rw [List.filterMap_map]
      rfl
  have held : ({ serving with workers := serving.workers.set position .ended } : Serving).held =
      serving.held := by
    unfold Serving.held
    rw [whole, whole, same ServerWorker.held rfl]
  refine ⟨?_, ?_, represents.intake, represents.queue, ?_, ?_, represents.history,
    represents.quiet⟩
  · rw [held]
    exact represents.refers
  · rw [held]
    exact represents.distinct
  · rw [represents.workers]
    exact (same _ rfl).symm
  · rw [represents.active]
    exact (same _ rfl).symm

/-- The connections that workers have are shut down. -/
theorem shutdownActive (represents : Represents serving holding) {slots : List (Option Nat)}
    (active : slots ⊆ serving.server.active) :
    ∃ after, Relation.ReflTransGen Step holding after ∧
      Represents (serving.shutdownActive slots) after ∧
      (serving.shutdownActive slots).run = serving.run := by
  induction slots generalizing serving holding with
  | nil => exact ⟨holding, .refl, represents, rfl⟩
  | cons slot rest inductionHypothesis =>
    obtain ⟨now, later⟩ := List.cons_subset.mp active
    cases slot with
    | none => exact inductionHypothesis represents later
    | some descriptor =>
      rw [represents.active] at now
      obtain ⟨worker, member, has⟩ := List.mem_map.mp now
      obtain ⟨position, found⟩ := List.mem_iff_getElem?.mp member
      cases worker with
      | idle | ended => cases has
      | handling other =>
        cases has
        obtain ⟨middle, first, -, touched⟩ := represents.shutdown .stop found
        obtain ⟨after, steps, last, same⟩ := inductionHypothesis touched later
        exact ⟨after, .head first steps, last, same⟩

/-- The connections in the queue are closed, and none is left. -/
theorem closeQueued (represents : Represents serving holding) {turns : Nat}
    (enough : serving.server.queue.count ≤ turns) :
    ∃ after, Relation.ReflTransGen Step holding after ∧
      Represents (Serving.closeQueued turns serving) after ∧
      (Serving.closeQueued turns serving).server.queue.contents = [] ∧
      (Serving.closeQueued turns serving).run = serving.run := by
  induction turns generalizing serving holding with
  | zero =>
    exact ⟨holding, .refl, represents, Ring.Buffer.contents_eq_nil (Nat.le_zero.mp enough), rfl⟩
  | succ turns inductionHypothesis =>
    rw [Serving.closeQueued]
    split
    · rename_i filled
      obtain ⟨middle, first, closed⟩ := represents.closeFront filled
      have fewer : (serving.closeFront filled).server.queue.count ≤ turns := by
        show serving.server.queue.count - 1 ≤ turns
        omega
      obtain ⟨after, steps, last, nothing, same⟩ := inductionHypothesis closed fewer
      exact ⟨after, .head first steps, last, nothing, same⟩
    · rename_i empty
      exact ⟨holding, .refl, represents, Ring.Buffer.contents_eq_nil (not_not.mp empty), rfl⟩

/-- `concurrent_server_stop` leaves nothing in the queue. -/
theorem stop (represents : Represents serving holding) :
    ∃ after, Relation.ReflTransGen Step holding after ∧
      Represents serving.concurrentServerStop after ∧
      serving.concurrentServerStop.server.queue.contents = [] ∧
      serving.concurrentServerStop.run = serving.run := by
  have stopping : Represents
      { serving with server := { serving.server with stopping := true } } holding :=
    ⟨represents.refers, represents.distinct, represents.intake, represents.queue,
      represents.workers, represents.active, represents.history, represents.quiet⟩
  obtain ⟨middle, first, touched, same⟩ := stopping.shutdownActive (List.Subset.refl _)
  obtain ⟨after, second, closed, nothing, unchanged⟩ := touched.closeQueued (Nat.le_refl _)
  exact ⟨after, first.trans second, closed, nothing, unchanged.trans same⟩

/-- The section of `concurrent_server_run` closes the connection or puts it into the queue. -/
theorem enter (represents : Represents serving holding)
    (phase : serving.run = .accepted descriptor) :
    ∃ after, Step holding after ∧ Represents (serving.enter descriptor) after := by
  have empty : (if serving.server.stopping then RunPhase.leaving else .accepting).held = none := by
    split <;> rfl
  have going : (if serving.server.stopping then RunPhase.leaving else .accepting) ≠ .returned := by
    split <;> exact nofun
  unfold Serving.enter
  dsimp only
  split
  · exact represents.refuse phase empty going
  · exact represents.enqueue phase _ empty going

/-- A section of a worker. -/
theorem turn (represents : Represents serving holding) {next : Serving}
    (stepped : serving.workerRun position = some next) :
    ∃ after, Relation.ReflTransGen Step holding after ∧ Represents next after := by
  unfold Serving.workerRun at stepped
  split at stepped
  · rename_i idle
    split at stepped
    · cases stepped
      exact ⟨holding, .refl, represents.endWorker idle⟩
    · split at stepped
      · rename_i filled
        cases stepped
        obtain ⟨after, step, given⟩ := represents.give idle filled
        exact ⟨after, .single step, given⟩
      · cases stepped
  · rename_i has
    cases stepped
    obtain ⟨middle, first, -, touched⟩ := represents.shutdown (.worker position) has
    obtain ⟨after, second, served⟩ := touched.serve has
    exact ⟨after, .head first (.single second), served⟩
  · cases stepped
  · cases stepped

/-- Every action hands connections on. -/
theorem step (represents : Represents serving holding) {action : ServerAction} {next : Serving}
    (stepped : serverStep serving action = some next) :
    ∃ after, Relation.ReflTransGen Step holding after ∧ Represents next after := by
  cases action with
  | accept result =>
    unfold serverStep at stepped
    dsimp only at stepped
    cases phase : serving.run with
    | accepting =>
      rw [phase] at stepped
      cases result with
      | client descriptor =>
        dsimp only at stepped
        split at stepped
        · rename_i free
          cases stepped
          obtain ⟨after, step, accepted⟩ := represents.accept phase free
          exact ⟨after, .single step, accepted⟩
        · cases stepped
      | interrupted =>
        cases stepped
        exact ⟨holding, .refl, represents⟩
      | failed =>
        cases stepped
        exact ⟨holding, .refl, represents.rephase (by rw [phase]; rfl) nofun⟩
    | accepted descriptor | leaving | returned =>
      rw [phase] at stepped
      cases stepped
  | enter =>
    rw [serverStep] at stepped
    split at stepped
    · rename_i phase
      cases stepped
      obtain ⟨after, step, entered⟩ := represents.enter phase
      exact ⟨after, .single step, entered⟩
    · cases stepped
  | finish =>
    rw [serverStep] at stepped
    split at stepped
    · rename_i phase
      cases stepped
      obtain ⟨after, steps, stopped, nothing, same⟩ := represents.stop
      exact ⟨after, steps, stopped.rephase (by rw [same, phase]; rfl) fun _ => nothing⟩
    · cases stepped
  | stop =>
    cases stepped
    obtain ⟨after, steps, stopped, -, -⟩ := represents.stop
    exact ⟨after, steps, stopped⟩
  | turn position => exact represents.turn stepped
  | opens descriptor =>
    rw [serverStep] at stepped
    split at stepped
    · rename_i free
      cases stepped
      refine ⟨holding, .refl, represents.reuse (represents.not_held fun _ => ?_) _⟩
      rw [free]
      exact nofun
    · cases stepped
  | closes descriptor =>
    rw [serverStep] at stepped
    split at stepped
    · rename_i own
      cases stepped
      refine ⟨holding, .refl, represents.reuse (represents.not_held fun _ => ?_) _⟩
      rw [own]
      exact nofun
    · cases stepped

end Represents

/-- Every state that is reached stands for connections that are handed on. -/
theorem represents_of_reaches {workers : Nat} {serving : Serving}
    (reached : Transition.Reaches serverStep (fun _ _ => True) (.start workers) serving) :
    ∃ holding, Represents serving holding ∧ Kept holding := by
  have initial : ∃ holding, Represents (.start workers) holding ∧ Kept holding :=
    ⟨_, represents_start workers, .initial workers⟩
  refine @Transition.Reaches.invariant _ _ _ _ _
    (fun serving => ∃ holding, Represents serving holding ∧ Kept holding) initial ?_ _ reached
  rintro serving action next ⟨holding, represents, kept⟩ - stepped
  obtain ⟨after, steps, reaches⟩ := represents.step stepped
  exact ⟨after, reaches, kept.steps steps⟩

/-! ### One owner at a time -/

theorem filterMap_of {select : ServerEvent → Option Nat} {item : Event ServerCaller → Option Nat}
    (same : ∀ event, select (.of event) = item event) (events : List (Event ServerCaller)) :
    (events.map ServerEvent.of).filterMap select = events.filterMap item := by
  rw [List.filterMap_map]
  exact List.filterMap_congr fun event _ => same event

theorem filterMap_accepts (events : List (Event ServerCaller)) :
    (events.map ServerEvent.of).filterMap ServerEvent.accepts = events.filterMap Event.takes :=
  filterMap_of (fun event => by cases event <;> rfl) events

theorem filterMap_gives (events : List (Event ServerCaller)) :
    (events.map ServerEvent.of).filterMap ServerEvent.gives = events.filterMap Event.gives :=
  filterMap_of (fun event => by cases event <;> rfl) events

theorem filterMap_closes (events : List (Event ServerCaller)) :
    (events.map ServerEvent.of).filterMap ServerEvent.closes = events.filterMap Event.releases :=
  filterMap_of (fun event => by cases event <;> rfl) events

/-- What has happened to the connections of a server. -/
structure OwnedOnce (serving : Serving) : Prop where
  /-- The queue is never longer than its array. -/
  queued : serving.server.queue.count ≤ serverQueue
  /-- Every `close` hits a connection that has been accepted. -/
  closesConnection : ∀ caller target, .closed caller target ∈ serving.history →
    ∃ number ∈ serving.history.filterMap ServerEvent.accepts, target = some (.connection number)
  closedOnce : (serving.history.filterMap ServerEvent.closes).Nodup
  /-- What a worker is given is a connection. -/
  givesConnection : ∀ position target, .given position target ∈ serving.history →
    ∃ number, target = some (.connection number)
  givenOnce : (serving.history.filterMap ServerEvent.gives).Nodup
  /-- A connection that `concurrent_server_run` or `concurrent_server_stop` has closed is never
  given to a worker. -/
  notGiven : ∀ caller number, caller = .run ∨ caller = .stop →
    .closed caller (some (.connection number)) ∈ serving.history →
      number ∉ serving.history.filterMap ServerEvent.gives
  inOrder : (serving.history.filterMap ServerEvent.gives).Sublist
    (serving.history.filterMap ServerEvent.accepts)
  /-- Every `shutdown` hits a connection that is not yet closed. -/
  shutdownOpen : ∀ before caller target after,
    serving.history = before ++ .shutdown caller target :: after →
      ∃ number ∈ before.filterMap ServerEvent.accepts, target = some (.connection number) ∧
        number ∉ before.filterMap ServerEvent.closes
  /-- In the end nothing is left open. -/
  allClosed : serving.run = .returned → (∀ worker ∈ serving.workers, worker = .ended) →
    ∀ number ∈ serving.history.filterMap ServerEvent.accepts,
      number ∈ serving.history.filterMap ServerEvent.closes

/-- When `concurrent_server_run` has returned and the workers have ended, nobody has a
connection. -/
theorem Represents.nobody {serving : Serving} {holding : Holding ServerCaller}
    (represents : Represents serving holding) (returned : serving.run = .returned)
    (ended : ∀ worker ∈ serving.workers, worker = .ended) : holding.held = [] := by
  have intake : holding.intake = none := by
    rw [represents.intake, returned]
    rfl
  have queue : holding.queue = [] := by
    rw [represents.queue, represents.quiet returned]
    rfl
  have workers : holding.workers.filterMap id = [] := by
    rw [represents.workers, List.filterMap_map]
    refine List.filterMap_eq_nil_iff.mpr fun worker member => ?_
    rw [ended worker member]
    rfl
  unfold Holding.held
  rw [intake, queue, workers]
  rfl

/-- For any number of workers and calls of `concurrent_server_stop` and any order of the actions,
every connection has one owner at a time. -/
theorem connections_owned_once {workers : Nat} {serving : Serving}
    (reached : Transition.Reaches serverStep (fun _ _ => True) (.start workers) serving) :
    OwnedOnce serving := by
  obtain ⟨holding, represents, kept⟩ := represents_of_reaches reached
  have history := represents.history
  have accepts := filterMap_accepts holding.history
  have gives := filterMap_gives holding.history
  have closes := filterMap_closes holding.history
  rw [← history] at accepts gives closes
  constructor
  · exact serving.server.queue.fits
  · intro caller target happened
    rw [history] at happened
    obtain ⟨event, member, same⟩ := List.mem_map.mp happened
    have released : ∀ number, event.releases = some number →
        number ∈ serving.history.filterMap ServerEvent.accepts := by
      intro number item
      rw [accepts]
      exact kept.taken_of_released (List.mem_filterMap.mpr ⟨event, member, item⟩)
    cases event with
    | taken | given | touched => cases same
    | served position number =>
      cases same
      exact ⟨number, released number rfl, rfl⟩
    | dropped agent number =>
      cases same
      exact ⟨number, released number rfl, rfl⟩
  · rw [closes]
    exact kept.released_once
  · intro position target happened
    rw [history] at happened
    obtain ⟨event, member, same⟩ := List.mem_map.mp happened
    cases event with
    | taken | touched | served | dropped => cases same
    | given position number =>
      cases same
      exact ⟨number, rfl⟩
  · rw [gives]
    exact kept.given_once
  · intro caller number server happened
    rw [history] at happened
    obtain ⟨event, member, same⟩ := List.mem_map.mp happened
    rw [gives]
    cases event with
    | taken | given | touched => cases same
    | served position item =>
      cases same
      rcases server with wrong | wrong <;> cases wrong
    | dropped agent item =>
      cases same
      exact kept.not_given (List.mem_filterMap.mpr ⟨_, member, rfl⟩)
  · rw [accepts, gives]
    exact kept.given_in_order
  · intro before caller target after parts
    rw [history] at parts
    obtain ⟨earlier, others, whole, isBefore, isAfter⟩ := List.map_eq_append_iff.mp parts
    obtain ⟨event, later, rfl, same, -⟩ := List.map_eq_cons_iff.mp isAfter
    cases event with
    | taken | given | served | dropped => cases same
    | touched agent number =>
      cases same
      obtain ⟨taken, unclosed⟩ := kept.unreleased earlier caller number later whole
      subst isBefore
      rw [filterMap_accepts, filterMap_closes]
      exact ⟨number, taken, rfl, unclosed⟩
  · intro returned ended
    rw [accepts, closes]
    exact kept.all_released (represents.nobody returned ended)

/-- One worker, two connections and a stop: the worker closes the first connection after it has been
shut down, and the second one is closed in the queue. -/
theorem connections_owned_once_pair :
    ∃ serving : Serving, serving.run = .returned ∧ serving.workers = [.ended] ∧
      serving.history.filterMap ServerEvent.accepts = [0, 1] ∧ OwnedOnce serving := by
  obtain ⟨serving, reached, returned, ended, accepted⟩ := @Transition.Reaches.of_check _ _
    serverStep (fun _ _ => True) (.start 1) _
    [.accept (.client 5), .enter, .turn 0, .accept (.client 6), .enter, .stop, .turn 0, .turn 0,
      .opens 5, .accept .failed, .finish]
    (fun serving => serving.run = .returned ∧ serving.workers = [.ended] ∧
      serving.history.filterMap ServerEvent.accepts = [0, 1]) _ (by decide)
  exact ⟨serving, returned, ended, accepted, connections_owned_once reached⟩

end SuperPeerNet
