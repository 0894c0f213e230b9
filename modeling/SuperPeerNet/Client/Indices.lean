/-
This file proves that the workers of a transfer process each chunk exactly once.

An index is a ticket of the shared counter: it is handed out under the mutex, it is held
by one worker, and it ends as done or as lost. A lost index and a failed thread are
recorded as a failure before anyone can see them, and a worker that sees a recorded
failure leaves its loop. If the caller returns without an error, then no failure has been
recorded and all threads have ended, so nothing is held and nothing is lost.
-/

import Mathlib.Data.List.Count
import Mathlib.Data.List.Nodup
import SuperPeerNet.Client.Workers
import SuperPeerNet.Library.Tickets
import SuperPeerNet.Library.Transition

namespace SuperPeerNet

open Tickets

/-! ### What is seen of a pool -/

/-- What happens in a pool. -/
inductive PoolEvent where
  /-- A worker takes an index. -/
  | took (worker : Nat) (index : UInt64)
  /-- A worker has processed a chunk successfully. -/
  | processed (worker : Nat) (index : UInt64)
  /-- The chunk of a worker has failed, and the worker has recorded it. -/
  | lost (worker : Nat) (index : UInt64)
  /-- A worker has seen a recorded failure. -/
  | saw (worker : Nat)
  /-- The caller has recorded a failure of `pthread_create` or `pthread_join`. -/
  | recorded
  deriving DecidableEq

namespace PoolEvent

/-- The index that is taken. -/
def taken : PoolEvent → Option UInt64
  | took _ index => some index
  | _ => none

/-- The index whose chunk has been processed. -/
def done : PoolEvent → Option UInt64
  | processed _ index => some index
  | _ => none

/-- The index whose chunk has failed. -/
def missed : PoolEvent → Option UInt64
  | lost _ index => some index
  | _ => none

/-- A failure is recorded, or seen. -/
def isFailure : PoolEvent → Bool
  | lost .. | saw _ | recorded => true
  | _ => false

end PoolEvent

/-- A pool with what has happened in it, the latest event first. -/
structure WatchedPool (World : Type) where
  pool : Pool World
  events : List PoolEvent

section Watched

variable {Conditions World : Type}

/-- What happens when a worker takes its turn. -/
def ChunkTask.turnEvents (task : ChunkTask Conditions World) (work : Work World) (position : Nat)
    (conditions : Conditions) : Worker → List PoolEvent
  | .ready =>
    if work.failed ∨ work.nextIndex ≥ task.chunkCount then
      if work.failed then [.saw position] else []
    else [.took position work.nextIndex]
  | .transferring index =>
    match (task.chunk index conditions work.world).2 with
    | .ok _ => [.processed position index]
    | .error _ => [.lost position index]
  | _ => []

/-- What happens with an action. -/
def ChunkTask.events (task : ChunkTask Conditions World) (pool : Pool World) :
    PoolAction Conditions → List PoolEvent
  | .create error | .join error => if error.isSome then [.recorded] else []
  | .leave => []
  | .turn position conditions =>
    match pool.workers[position]? with
    | none => []
    | some worker => task.turnEvents pool.work position conditions worker

/-- A step function of the pools of a task, on pools that are watched. -/
def ChunkTask.watch (task : ChunkTask Conditions World)
    (step : Pool World → PoolAction Conditions → Option (Pool World))
    (watched : WatchedPool World) (action : PoolAction Conditions) : Option (WatchedPool World) :=
  (step watched.pool action).map fun pool =>
    ⟨pool, task.events watched.pool action ++ watched.events⟩

/-- A pool at its start. -/
def WatchedPool.start (count : Nat) (world : World) : WatchedPool World :=
  ⟨.start count world, []⟩

/-- Every action of a pool is possible. -/
def anyAction (_ : WatchedPool World) (_ : PoolAction Conditions) : Prop := True

/-! ### The invariant -/

/-- The index that a worker holds. -/
def Worker.ticket : Worker → Option Nat
  | .started index | .transferring index => some index.toNat
  | _ => none

/-- The tickets of the indices of some events. -/
def ticketsOf (index : PoolEvent → Option UInt64) (events : List PoolEvent) : List Nat :=
  (events.filterMap index).map UInt64.toNat

/-- What the caller of a pool can rely on. -/
def Pool.Awaited (pool : Pool World) : Prop :=
  match pool.caller with
  | .creating _ => True
  | .joining next joinError =>
    (pool.workers = [] → pool.work.failed = true) ∧
      (joinError = none → ∀ position < next, pool.workers[position]? = some .exited)
  | .returned status => status = .ok () →
    pool.work.failed = false ∧ pool.workers ≠ [] ∧ ∀ worker ∈ pool.workers, worker = .exited

/-- The invariant of a pool that is watched. -/
structure WatchedPool.Kept (task : ChunkTask Conditions World) (watched : WatchedPool World) :
    Prop where
  tickets : Balanced watched.pool.work.nextIndex.toNat
    (watched.pool.workers.filterMap Worker.ticket) (ticketsOf PoolEvent.done watched.events)
    (ticketsOf PoolEvent.missed watched.events)
  taken : ticketsOf PoolEvent.taken watched.events =
    (List.range watched.pool.work.nextIndex.toNat).reverse
  inside : watched.pool.work.nextIndex ≤ task.chunkCount
  flagged : ∀ event ∈ watched.events, event.isFailure = true → watched.pool.work.failed = true
  order : watched.events.Pairwise fun later earlier =>
    earlier.isFailure = true → later.taken = none
  exits : .exited ∈ watched.pool.workers →
    watched.pool.work.failed = true ∨ watched.pool.work.nextIndex = task.chunkCount
  awaited : watched.pool.Awaited

theorem kept_start (task : ChunkTask Conditions World) (count : Nat) (world : World) :
    (WatchedPool.start count world).Kept task where
  tickets := Balanced.initial
  taken := rfl
  inside := UInt64.zero_le
  flagged _ absent := by cases absent
  order := List.Pairwise.nil
  exits absent := by cases absent
  awaited := by
    unfold WatchedPool.start Pool.start Pool.Awaited
    dsimp only
    split
    · trivial
    · rename_i isCaller
      split at isCaller <;> cases isCaller
    · rename_i isCaller
      split at isCaller
      · cases isCaller
        exact fun wrong => by cases wrong
      · cases isCaller

theorem failed_fail (work : Work World) (error : Option Errno) :
    (work.fail error).failed = true := by
  unfold Work.fail
  split
  · assumption
  · rfl

theorem nextIndex_fail (work : Work World) (error : Option Errno) :
    (work.fail error).nextIndex = work.nextIndex := by
  unfold Work.fail
  split <;> rfl

/-- The caller records a failure. -/
theorem WatchedPool.Kept.record {task : ChunkTask Conditions World} {watched : WatchedPool World}
    (kept : watched.Kept task) (error : Option Errno) {caller : Caller}
    (awaited : { watched.pool with work := watched.pool.work.fail error, caller := caller }.Awaited) :
    WatchedPool.Kept task
      ⟨{ watched.pool with work := watched.pool.work.fail error, caller := caller },
        .recorded :: watched.events⟩ := by
  constructor
  · show Balanced (watched.pool.work.fail error).nextIndex.toNat _ _ _
    rw [nextIndex_fail]
    exact kept.tickets
  · show _ = (List.range (watched.pool.work.fail error).nextIndex.toNat).reverse
    rw [nextIndex_fail]
    exact kept.taken
  · show (watched.pool.work.fail error).nextIndex ≤ task.chunkCount
    rw [nextIndex_fail]
    exact kept.inside
  · exact fun _ _ _ => failed_fail _ _
  · exact List.pairwise_cons.mpr ⟨fun _ _ _ => rfl, kept.order⟩
  · exact fun _ => Or.inl (failed_fail _ _)
  · exact awaited

/-- The caller goes on without an event. -/
theorem WatchedPool.Kept.proceed {task : ChunkTask Conditions World} {watched : WatchedPool World}
    (kept : watched.Kept task) {caller : Caller}
    (awaited : { watched.pool with caller := caller }.Awaited) :
    WatchedPool.Kept task ⟨{ watched.pool with caller := caller }, watched.events⟩ :=
  ⟨kept.tickets, kept.taken, kept.inside, kept.flagged, kept.order, kept.exits, awaited⟩

/-- A thread starts. -/
theorem WatchedPool.Kept.start {task : ChunkTask Conditions World} {watched : WatchedPool World}
    (kept : watched.Kept task) (left : Nat) :
    WatchedPool.Kept task
      ⟨{ watched.pool with
          workers := watched.pool.workers ++ [.ready]
          caller := if left = 0 then .joining 0 none else .creating left }, watched.events⟩ := by
  refine ⟨?_, kept.taken, kept.inside, kept.flagged, kept.order, fun member => ?_, ?_⟩
  · show Balanced _ ((watched.pool.workers ++ [Worker.ready]).filterMap Worker.ticket) _ _
    rw [List.filterMap_append]
    refine kept.tickets.reorder ?_
    rw [show [Worker.ready].filterMap Worker.ticket = [] from rfl, List.append_nil]
  · rcases List.mem_append.mp member with old | new
    · exact kept.exits old
    · cases List.mem_singleton.mp new
  · unfold Pool.Awaited
    dsimp only
    split
    · trivial
    · rename_i next joinError isCaller
      split at isCaller
      · cases isCaller
        exact ⟨fun empty => by simp at empty, fun _ position before => by omega⟩
      · cases isCaller
    · rename_i isCaller
      split at isCaller <;> cases isCaller

/-! ### Turns of workers -/

/-- What a turn does to the work and to the worker, and what happens. -/
inductive Turned (task : ChunkTask Conditions World) (work : Work World) (position : Nat) :
    Worker → Work World → Worker → List PoolEvent → Prop
  | stopped (events : List PoolEvent) (harmless : events = [] ∨ events = [.saw position])
      (seen : events ≠ [] → work.failed = true)
      (reason : work.failed = true ∨ task.chunkCount ≤ work.nextIndex) :
      Turned task work position .ready work .exited events
  | took (unfailed : work.failed = false) (inside : work.nextIndex < task.chunkCount) :
      Turned task work position .ready
        { work with nextIndex := work.nextIndex + 1, state := .started } (.started work.nextIndex)
        [.took position work.nextIndex]
  | announced (index : UInt64) :
      Turned task work position (.started index) { work with state := .transferring }
        (.transferring index) []
  | processed (index : UInt64) (after : Work World) (next : after.nextIndex = work.nextIndex)
      (failed : after.failed = work.failed) :
      Turned task work position (.transferring index) after .ready [.processed position index]
  | lost (index : UInt64) (after : Work World) (next : after.nextIndex = work.nextIndex)
      (failed : after.failed = true) :
      Turned task work position (.transferring index) after .exited [.lost position index]

theorem turned_of_worker {task : ChunkTask Conditions World} {work after : Work World}
    {conditions : Conditions} {worker later : Worker}
    (turn : task.worker work conditions worker = some (after, later)) (position : Nat) :
    Turned task work position worker after later
      (task.turnEvents work position conditions worker) := by
  cases worker with
  | ready =>
    unfold ChunkTask.worker at turn
    unfold ChunkTask.turnEvents
    dsimp only at turn ⊢
    by_cases stop : work.failed ∨ work.nextIndex ≥ task.chunkCount
    · rw [if_pos stop] at turn ⊢
      cases turn
      refine .stopped _ ?_ (fun some => ?_) stop
      · split
        · exact Or.inr rfl
        · exact Or.inl rfl
      · by_contra unfailed
        exact some (if_neg unfailed)
    · rw [if_neg stop] at turn ⊢
      cases turn
      rw [not_or, Bool.not_eq_true, ge_iff_le, UInt64.not_le] at stop
      exact .took stop.1 stop.2
  | started index =>
    cases turn
    exact .announced index
  | transferring index =>
    unfold ChunkTask.worker at turn
    unfold ChunkTask.turnEvents
    dsimp only at turn ⊢
    cases outcome : task.chunk index conditions work.world with
    | mk world result =>
      rw [outcome] at turn
      cases result with
      | ok size =>
        cases turn
        exact .processed index _ rfl rfl
      | error error =>
        cases turn
        exact .lost index _ (nextIndex_fail _ _) (failed_fail _ _)
  | exited => cases turn

/-- Only a worker that has not left its loop takes a turn. -/
theorem Turned.busy {task : ChunkTask Conditions World} {work after : Work World} {position : Nat}
    {worker later : Worker} {events : List PoolEvent}
    (turned : Turned task work position worker after later events) : worker ≠ .exited := by
  cases turned <;> nofun

/-- A turn does not disturb what the caller can rely on. -/
theorem Pool.Awaited.turn {pool : Pool World} (awaited : pool.Awaited) {position : Nat}
    {worker : Worker} (there : pool.workers[position]? = some worker) (busy : worker ≠ .exited)
    (work : Work World) (later : Worker) :
    Pool.Awaited { pool with work := work, workers := pool.workers.set position later } := by
  have member := List.mem_of_getElem? there
  unfold Awaited at *
  dsimp only
  split at awaited
  · trivial
  · obtain ⟨-, ended⟩ := awaited
    refine ⟨fun empty => ?_, fun unharmed other before => ?_⟩
    · rw [List.set_eq_nil_iff] at empty
      rw [empty] at member
      cases member
    · have exited := ended unharmed other before
      rw [List.getElem?_set_ne]
      · exact exited
      · rintro rfl
        exact busy (Option.some.inj (there.symm.trans exited))
  · exact fun done => absurd ((awaited done).2.2 worker member) busy

/-- A turn of a worker keeps the invariant. -/
theorem WatchedPool.Kept.turn {task : ChunkTask Conditions World} {watched : WatchedPool World}
    (kept : watched.Kept task) {position : Nat} {worker later : Worker} {after : Work World}
    {events : List PoolEvent} (there : watched.pool.workers[position]? = some worker)
    (turned : Turned task watched.pool.work position worker after later events) :
    WatchedPool.Kept task
      ⟨{ watched.pool with work := after, workers := watched.pool.workers.set position later },
        events ++ watched.events⟩ := by
  have awaited := kept.awaited.turn there turned.busy after later
  have exchanged := perm_set Worker.ticket there later
  have member : .exited ∈ watched.pool.workers.set position later →
      later = .exited ∨ .exited ∈ watched.pool.workers := by
    intro exited
    rcases List.mem_or_eq_of_mem_set exited with old | new
    · exact Or.inr old
    · exact Or.inl new.symm
  cases turned with
  | stopped _ harmless seen reason =>
    have exits : watched.pool.work.failed = true ∨
        watched.pool.work.nextIndex = task.chunkCount :=
      reason.imp_right fun end' => UInt64.le_antisymm kept.inside end'
    have same : ((watched.pool.workers.set position .exited).filterMap Worker.ticket).Perm
        (watched.pool.workers.filterMap Worker.ticket) := exchanged
    rcases harmless with rfl | rfl
    · exact ⟨kept.tickets.reorder same, kept.taken, kept.inside, kept.flagged, kept.order,
        fun _ => exits, awaited⟩
    · refine ⟨kept.tickets.reorder same, kept.taken, kept.inside,
        fun _ _ _ => seen (List.cons_ne_nil _ _), ?_, fun _ => exits, awaited⟩
      exact List.pairwise_cons.mpr ⟨fun _ _ _ => rfl, kept.order⟩
  | took unfailed inside =>
    have next : (watched.pool.work.nextIndex + 1).toNat = watched.pool.work.nextIndex.toNat + 1 := by
      have small := UInt64.lt_iff_toNat_lt.mp inside
      have bound := task.chunkCount.toNat_lt
      rw [UInt64.toNat_add]
      exact Nat.mod_eq_of_lt (by
        rw [show (1 : UInt64).toNat = 1 from rfl]
        omega)
    have quiet : ∀ event ∈ watched.events, event.isFailure = false := by
      intro event old
      by_contra failure
      rw [kept.flagged event old (Bool.eq_true_of_not_eq_false failure)] at unfailed
      cases unfailed
    refine ⟨?_, ?_, ?_, fun event either failure => ?_, ?_, fun exited => ?_, awaited⟩
    · show Balanced (watched.pool.work.nextIndex + 1).toNat _ _ _
      rw [next]
      exact kept.tickets.take exchanged
    · show watched.pool.work.nextIndex.toNat :: ticketsOf PoolEvent.taken watched.events =
        (List.range (watched.pool.work.nextIndex + 1).toNat).reverse
      rw [next, List.range_succ, List.reverse_append, kept.taken]
      rfl
    · show watched.pool.work.nextIndex + 1 ≤ task.chunkCount
      rw [UInt64.le_iff_toNat_le, next]
      exact UInt64.lt_iff_toNat_lt.mp inside
    · rcases List.mem_cons.mp either with rfl | old
      · cases failure
      · rw [quiet event old] at failure
        cases failure
    · refine List.pairwise_cons.mpr ⟨fun earlier old failure => ?_, kept.order⟩
      rw [quiet earlier old] at failure
      cases failure
    · rcases kept.exits ((member exited).resolve_left nofun) with failed | ended
      · rw [failed] at unfailed
        cases unfailed
      · rw [ended] at inside
        exact absurd inside (UInt64.lt_irrefl _)
  | announced index =>
    have same : ((watched.pool.workers.set position (.transferring index)).filterMap
        Worker.ticket).Perm (watched.pool.workers.filterMap Worker.ticket) :=
      (List.perm_cons _).mp exchanged
    exact ⟨kept.tickets.reorder same, kept.taken, kept.inside, kept.flagged, kept.order,
      fun exited => kept.exits ((member exited).resolve_left nofun), awaited⟩
  | processed index _ next failed =>
    refine ⟨?_, ?_, ?_, fun event either failure => ?_, ?_, fun exited => ?_, awaited⟩
    · show Balanced after.nextIndex.toNat _ _ _
      rw [next]
      exact kept.tickets.finish exchanged.symm
    · show _ = (List.range after.nextIndex.toNat).reverse
      rw [next]
      exact kept.taken
    · show after.nextIndex ≤ task.chunkCount
      rw [next]
      exact kept.inside
    · rcases List.mem_cons.mp either with rfl | old
      · cases failure
      · exact failed.trans (kept.flagged event old failure)
    · exact List.pairwise_cons.mpr ⟨fun _ _ _ => rfl, kept.order⟩
    · show after.failed = true ∨ after.nextIndex = task.chunkCount
      rw [next, failed]
      exact kept.exits ((member exited).resolve_left nofun)
  | lost index _ next failed =>
    refine ⟨?_, ?_, ?_, fun _ _ _ => failed, ?_, fun _ => Or.inl failed, awaited⟩
    · show Balanced after.nextIndex.toNat _ _ _
      rw [next]
      exact kept.tickets.lose exchanged.symm
    · show _ = (List.range after.nextIndex.toNat).reverse
      rw [next]
      exact kept.taken
    · show after.nextIndex ≤ task.chunkCount
      rw [next]
      exact kept.inside
    · exact List.pairwise_cons.mpr ⟨fun _ _ _ => rfl, kept.order⟩

/-! ### Runs -/

/-- Every action keeps the invariant. -/
theorem WatchedPool.Kept.step {task : ChunkTask Conditions World}
    {watched next : WatchedPool World} {action : PoolAction Conditions}
    (kept : watched.Kept task) (stepped : task.watch task.pool watched action = some next) :
    next.Kept task := by
  obtain ⟨pool, taken, rfl⟩ := Option.map_eq_some_iff.mp stepped
  have awaited := kept.awaited
  unfold Pool.Awaited at awaited
  cases action with
  | create error =>
    unfold ChunkTask.pool at taken
    dsimp only at taken
    split at taken
    · rename_i left isCreating
      split at taken
      · cases taken
        exact kept.record _ ⟨fun _ => failed_fail _ _, fun _ _ before => (nomatch before)⟩
      · cases taken
        exact kept.start left
    · cases taken
  | join error =>
    unfold ChunkTask.pool at taken
    dsimp only at taken
    split at taken
    · rename_i position joinError isJoining
      rw [isJoining] at awaited
      split at taken
      · split at taken
        · cases taken
          exact kept.record _ ⟨fun _ => failed_fail _ _, fun wrong => (nomatch wrong)⟩
        · split at taken
          · rename_i exited
            cases taken
            refine kept.proceed ⟨awaited.1, fun unharmed other before => ?_⟩
            rcases Nat.lt_succ_iff_lt_or_eq.mp before with earlier | rfl
            · exact awaited.2 unharmed other earlier
            · exact exited
          · cases taken
      · cases taken
    · cases taken
  | leave =>
    unfold ChunkTask.pool at taken
    dsimp only at taken
    split at taken
    · rename_i position joinError isJoining
      rw [isJoining] at awaited
      split at taken
      · cases taken
      · rename_i last
        cases taken
        refine kept.proceed fun done => ?_
        cases joinError with
        | some error => cases done
        | none =>
          unfold Pool.result at done
          dsimp only at done
          split at done
          · cases done
          · rename_i unfailed
            refine ⟨Bool.eq_false_of_not_eq_true unfailed,
              fun empty => unfailed (awaited.1 empty), fun worker member => ?_⟩
            obtain ⟨other, there⟩ := List.getElem?_of_mem member
            obtain ⟨inside, -⟩ := List.getElem?_eq_some_iff.mp there
            have exited := awaited.2 rfl other (Nat.lt_of_lt_of_le inside (Nat.le_of_not_lt last))
            exact Option.some.inj (there.symm.trans exited)
    · cases taken
  | turn position conditions =>
    unfold ChunkTask.pool at taken
    unfold ChunkTask.events
    dsimp only at taken ⊢
    cases there : watched.pool.workers[position]? with
    | none =>
      rw [there] at taken
      cases taken
    | some worker =>
      rw [there] at taken
      obtain ⟨after, turn, rfl⟩ := Option.map_eq_some_iff.mp taken
      exact kept.turn there (turned_of_worker turn position)

theorem kept_of_reaches {task : ChunkTask Conditions World} {count : Nat} {world : World}
    {watched : WatchedPool World}
    (reached : Transition.Reaches (task.watch task.pool) anyAction (.start count world) watched) :
    watched.Kept task :=
  reached.invariant (kept_start task count world) fun _ _ _ kept _ stepped => kept.step stepped

/-! ### Each chunk exactly once -/

/-- No index is taken twice, every index that is taken is that of a chunk, no index is taken after a
failure has been recorded or seen, and when the caller has returned without an error, every chunk
has been processed successfully exactly once. -/
structure WatchedPool.ExactlyOnce (watched : WatchedPool World) (chunkCount : UInt64) : Prop where
  distinct : (watched.events.filterMap PoolEvent.taken).Nodup
  inside : ∀ worker index, .took worker index ∈ watched.events → index < chunkCount
  stopped : watched.events.Pairwise fun later earlier =>
    earlier.isFailure = true → ∀ worker index, later ≠ .took worker index
  complete : watched.pool.caller = .returned (.ok ()) →
    ∀ index < chunkCount, (watched.events.filterMap PoolEvent.done).count index = 1

/-- The invariant says that each chunk is processed exactly once. -/
theorem WatchedPool.Kept.exactlyOnce {task : ChunkTask Conditions World}
    {watched : WatchedPool World} (kept : watched.Kept task) :
    watched.ExactlyOnce task.chunkCount := by
  constructor
  · refine List.Nodup.of_map UInt64.toNat ?_
    have distinct := List.nodup_reverse.mpr (@List.nodup_range watched.pool.work.nextIndex.toNat)
    rw [← kept.taken] at distinct
    exact distinct
  · intro worker index member
    have listed : index.toNat ∈ ticketsOf PoolEvent.taken watched.events :=
      List.mem_map_of_mem (List.mem_filterMap.mpr ⟨_, member, rfl⟩)
    rw [kept.taken, List.mem_reverse, List.mem_range] at listed
    exact UInt64.lt_of_lt_of_le (UInt64.lt_iff_toNat_lt.mpr listed) kept.inside
  · refine kept.order.imp fun none failure worker index isTook => ?_
    have taken := none failure
    rw [isTook] at taken
    cases taken
  · intro isReturned index inside
    have awaited := kept.awaited
    unfold Pool.Awaited at awaited
    rw [isReturned] at awaited
    obtain ⟨unfailed, nonempty, exited⟩ := awaited rfl
    have last : watched.pool.work.nextIndex = task.chunkCount := by
      obtain ⟨worker, member⟩ := List.exists_mem_of_ne_nil _ nonempty
      refine (kept.exits (exited worker member ▸ member)).resolve_left fun failed => ?_
      rw [failed] at unfailed
      cases unfailed
    have noneHeld : watched.pool.workers.filterMap Worker.ticket = [] := by
      rw [List.filterMap_eq_nil_iff]
      intro worker member
      rw [exited worker member]
      rfl
    have noneLost : ticketsOf PoolEvent.missed watched.events = [] := by
      rw [ticketsOf, List.map_eq_nil_iff, List.filterMap_eq_nil_iff]
      intro event member
      cases event with
      | lost worker index =>
        rw [kept.flagged _ member rfl] at unfailed
        cases unfailed
      | _ => rfl
    have balanced := kept.tickets
    rw [noneHeld, noneLost] at balanced
    have counted := balanced.complete.count_eq index.toNat
    rw [ticketsOf, List.count_map_of_injective _ _ (fun _ _ => UInt64.toNat_inj.mp)] at counted
    rw [counted, last]
    exact List.count_eq_one_of_mem List.nodup_range
      (List.mem_range.mpr (UInt64.lt_iff_toNat_lt.mp inside))

end Watched

/-- In every run of the pool of an upload or of a download, with any number of workers, any order of
their sections and any failures of chunks and of threads, each chunk is processed exactly once. -/
theorem chunks_processed_once [Sha256] [Lz4] (document : TransferDocument)
    (lookup : TransferLookupResult) (count : Nat) :
    (∀ hashes watched, Transition.Reaches
        ((uploadTask document).watch (executeUploadWorkers document)) anyAction
        (.start count hashes) watched → watched.ExactlyOnce document.chunkCount) ∧
    ∀ file watched, Transition.Reaches
        ((downloadTask lookup).watch (executeDownloadWorkers lookup)) anyAction
        (.start count file) watched → watched.ExactlyOnce lookup.document.chunkCount :=
  ⟨fun _ _ reached => (kept_of_reaches reached).exactlyOnce,
    fun _ _ reached => (kept_of_reaches reached).exactlyOnce⟩

/-- A file of one byte. -/
def byteUpload : TransferDocument := ⟨Octets.fill objectIdSize 0, [], 1, 1, compressionLz4⟩

/-- What its upload meets: its byte, the block of the byte, and an acknowledgement. -/
def byteConditions : UploadConditions where
  read := .ok [65]
  compressed := .ok [16, 65]
  response := .ok ⟨.ack, Octets.fill nodeIdSize 1, Octets.fill nodeIdSize 2,
    Octets.fill transactionIdSize 0, []⟩

/-- One of two threads uploads the byte, and the other one finds nothing to do. -/
theorem chunks_processed_once_byte :
    letI := Sha256.reference
    letI := Lz4.reference
    ∃ watched, Transition.Reaches
        ((uploadTask byteUpload).watch (executeUploadWorkers byteUpload)) anyAction
        (.start 2 [Octets.fill objectIdSize 0]) watched ∧
      watched.pool.caller = .returned (.ok ()) ∧ watched.ExactlyOnce byteUpload.chunkCount := by
  let sha := Sha256.reference
  let lz4 := Lz4.reference
  let turn : Nat → PoolAction UploadConditions := fun worker => .turn worker byteConditions
  obtain ⟨watched, reached, succeeded⟩ := @Transition.Reaches.of_check _ _
    ((uploadTask byteUpload).watch (executeUploadWorkers byteUpload)) anyAction
    (.start 2 [Octets.fill objectIdSize 0]) (fun _ _ => instDecidableTrue)
    [.create none, .create none, turn 0, turn 1, turn 0, turn 0, turn 0, .join none, .join none,
      .leave] (fun watched => watched.pool.caller.succeeded = true) _ (by decide +kernel)
  exact ⟨watched, reached, Caller.returned_of_succeeded succeeded,
    (chunks_processed_once byteUpload ⟨byteUpload, []⟩ 2).1 _ _ reached⟩

end SuperPeerNet
