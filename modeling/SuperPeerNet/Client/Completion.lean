/-
This file proves that the pool of a transfer ends, and what it leaves when nothing goes wrong.

Every action of a pool, also one that fails, takes something from a bounded amount of work:
the indices that are not handed out, the sections that the workers have before them, and the
threads that are not created or joined. As long as the caller has not returned some action
is possible, since a join waits only for a worker that can go on. If no thread and no chunk
fails, then the caller returns without an error, and everything that the chunks were meant
to achieve has been achieved, in whatever order they were processed.
-/

import SuperPeerNet.Client.Indices

namespace SuperPeerNet

section Completion

variable {Conditions World : Type}

/-! ### The work that is left -/

/-- The sections that a worker has before it, if it finds no further index. -/
def Worker.effort : Worker → Nat
  | .ready => 1
  | .started _ => 3
  | .transferring _ => 2
  | .exited => 0

/-- What the caller has before it, for the number of threads that have started: a thread is created
and joined, and its worker leaves its loop. -/
def Caller.effort (caller : Caller) (started : Nat) : Nat :=
  match caller with
  | .creating left => 3 * left + started + 1
  | .joining next _ => started - next + 1
  | .returned _ => 0

/-- The work that a pool has before it. Every index takes three sections. -/
def ChunkTask.effort (task : ChunkTask Conditions World) (pool : Pool World) : Nat :=
  3 * (task.chunkCount.toNat - pool.work.nextIndex.toNat) +
    (pool.workers.map Worker.effort).sum + pool.caller.effort pool.workers.length

/-- A worker that has another section before it has a smaller one after it. -/
theorem sum_effort_set {workers : List Worker} {position : Nat} {worker : Worker}
    (there : workers[position]? = some worker) (later : Worker) :
    ((workers.set position later).map Worker.effort).sum + worker.effort =
      (workers.map Worker.effort).sum + later.effort := by
  induction workers generalizing position with
  | nil => cases there
  | cons first rest inductionHypothesis =>
    cases position with
    | zero =>
      cases there
      simp only [List.set_cons_zero, List.map_cons, List.sum_cons]
      omega
    | succ position =>
      have more := inductionHypothesis there
      simp only [List.set_cons_succ, List.map_cons, List.sum_cons]
      omega

/-- The counter of the indices does not leave the words. -/
theorem toNat_nextIndex {index count : UInt64} (inside : index < count) :
    (index + 1).toNat = index.toNat + 1 := by
  have bound := count.toNat_lt
  rw [UInt64.lt_iff_toNat_lt] at inside
  rw [UInt64.toNat_add, show (1 : UInt64).toNat = 1 from rfl]
  omega

/-- A section of a worker takes from the work: an index counts for three sections. -/
theorem ChunkTask.worker_effort {task : ChunkTask Conditions World} {work after : Work World}
    {conditions : Conditions} {worker later : Worker}
    (turn : task.worker work conditions worker = some (after, later)) :
    3 * (task.chunkCount.toNat - after.nextIndex.toNat) + later.effort <
      3 * (task.chunkCount.toNat - work.nextIndex.toNat) + worker.effort := by
  cases worker with
  | ready =>
    unfold ChunkTask.worker at turn
    dsimp only at turn
    split at turn
    · cases turn
      exact Nat.lt_succ_self _
    · rename_i goesOn
      cases turn
      rw [not_or, ge_iff_le, UInt64.not_le] at goesOn
      have inside := UInt64.lt_iff_toNat_lt.mp goesOn.2
      show 3 * (task.chunkCount.toNat - (work.nextIndex + 1).toNat) + 3 < _ + 1
      rw [toNat_nextIndex goesOn.2]
      omega
  | started index =>
    cases turn
    exact Nat.lt_succ_self _
  | transferring index =>
    unfold ChunkTask.worker at turn
    dsimp only at turn
    split at turn
    · cases turn
      exact Nat.lt_succ_self _
    · cases turn
      rw [nextIndex_fail]
      exact Nat.lt_add_of_pos_right Nat.two_pos
  | exited => cases turn

/-- Every action takes from the work, whether it succeeds or fails. -/
theorem ChunkTask.effort_lt (task : ChunkTask Conditions World) (pool : Pool World)
    (action : PoolAction Conditions) (next : Pool World)
    (stepped : task.pool pool action = some next) : task.effort next < task.effort pool := by
  unfold effort
  cases action with
  | create error =>
    unfold ChunkTask.pool at stepped
    dsimp only at stepped
    split at stepped
    · rename_i left isCreating
      rw [isCreating]
      split at stepped
      · cases stepped
        dsimp only
        rw [nextIndex_fail]
        simp only [Caller.effort]
        omega
      · cases stepped
        simp only [List.map_append, List.sum_append, List.map_cons, List.map_nil, List.sum_cons,
          List.sum_nil, List.length_append, List.length_cons, List.length_nil, Worker.effort]
        split
        · simp only [Caller.effort]
          omega
        · simp only [Caller.effort]
          omega
    · cases stepped
  | join error =>
    unfold ChunkTask.pool at stepped
    dsimp only at stepped
    split at stepped
    · rename_i position joinError isJoining
      rw [isJoining]
      split at stepped
      · split at stepped
        · cases stepped
          dsimp only
          rw [nextIndex_fail]
          simp only [Caller.effort]
          omega
        · split at stepped
          · cases stepped
            simp only [Caller.effort]
            omega
          · cases stepped
      · cases stepped
    · cases stepped
  | leave =>
    unfold ChunkTask.pool at stepped
    dsimp only at stepped
    split at stepped
    · rename_i position joinError isJoining
      rw [isJoining]
      split at stepped
      · cases stepped
      · cases stepped
        simp only [Caller.effort]
        omega
    · cases stepped
  | turn position conditions =>
    unfold ChunkTask.pool at stepped
    dsimp only at stepped
    cases there : pool.workers[position]? with
    | none =>
      rw [there] at stepped
      cases stepped
    | some worker =>
      rw [there] at stepped
      obtain ⟨⟨after, later⟩, turn, rfl⟩ := Option.map_eq_some_iff.mp stepped
      have taken := ChunkTask.worker_effort turn
      have sum := sum_effort_set there later
      dsimp only
      rw [List.length_set]
      omega

/-! ### Every run ends -/

/-- A caller that creates threads has one to create. -/
def Pool.Creating (pool : Pool World) : Prop := ∀ left, pool.caller = .creating left → left ≠ 0

theorem creating_start (count : Nat) (world : World) : (Pool.start count world).Creating := by
  intro left isCreating
  unfold Pool.start at isCreating
  dsimp only at isCreating
  split at isCreating
  · cases isCreating
  · rename_i accepted
    cases isCreating
    exact fun none => accepted (Or.inl none)

theorem Pool.Creating.step {task : ChunkTask Conditions World} {pool next : Pool World}
    (creating : pool.Creating) {action : PoolAction Conditions}
    (stepped : task.pool pool action = some next) : next.Creating := by
  intro left isCreating
  unfold ChunkTask.pool at stepped
  cases action with
  | create error =>
    dsimp only at stepped
    split at stepped
    · split at stepped
      · cases stepped
        cases isCreating
      · cases stepped
        dsimp only at isCreating
        split at isCreating
        · cases isCreating
        · rename_i more
          cases isCreating
          exact more
    · cases stepped
  | join error =>
    dsimp only at stepped
    split at stepped
    · split at stepped
      · split at stepped
        · cases stepped
          cases isCreating
        · split at stepped
          · cases stepped
            cases isCreating
          · cases stepped
      · cases stepped
    · cases stepped
  | leave =>
    dsimp only at stepped
    split at stepped
    · split at stepped
      · cases stepped
      · cases stepped
        cases isCreating
    · cases stepped
  | turn position conditions =>
    dsimp only at stepped
    split at stepped
    · cases stepped
    · obtain ⟨after, -, rfl⟩ := Option.map_eq_some_iff.mp stepped
      exact creating left isCreating

/-- A worker that has not left its loop can take a turn, whatever its chunk meets. -/
theorem ChunkTask.turns (task : ChunkTask Conditions World) {pool : Pool World} {position : Nat}
    {worker : Worker} (there : pool.workers[position]? = some worker) (busy : worker ≠ .exited)
    (conditions : Conditions) : (task.pool pool (.turn position conditions)).isSome := by
  unfold ChunkTask.pool
  dsimp only
  rw [there]
  dsimp only
  rw [Option.isSome_map]
  unfold ChunkTask.worker
  cases worker with
  | ready =>
    dsimp only
    split <;> rfl
  | started index => rfl
  | transferring index =>
    dsimp only
    split <;> rfl
  | exited => exact absurd rfl busy

/-- As long as the caller has not returned, a thread can be created, a thread that has ended can be
joined, the caller can leave the loop of joins, or a worker that has not left its loop can take a
turn, whatever its chunk meets. None of these is the failure of a thread. -/
def ChunkTask.Proceeds (task : ChunkTask Conditions World) (pool : Pool World) : Prop :=
  (task.pool pool (.create none)).isSome ∨ (task.pool pool (.join none)).isSome ∨
    (task.pool pool .leave).isSome ∨ ∃ position worker, pool.workers[position]? = some worker ∧
      worker ≠ .exited ∧ ∀ conditions, (task.pool pool (.turn position conditions)).isSome

theorem ChunkTask.proceeds (task : ChunkTask Conditions World) {pool : Pool World}
    (creating : pool.Creating) (waiting : ∀ status, pool.caller ≠ .returned status) :
    task.Proceeds pool := by
  cases isCaller : pool.caller with
  | creating left =>
    cases left with
    | zero => exact absurd rfl (creating 0 isCaller)
    | succ left =>
      left
      unfold ChunkTask.pool
      dsimp only
      rw [isCaller]
      rfl
  | joining next joinError =>
    right
    by_cases more : next < pool.workers.length
    · have there := List.getElem?_eq_getElem more
      by_cases ended : pool.workers[next] = .exited
      · left
        unfold ChunkTask.pool
        dsimp only
        rw [isCaller]
        dsimp only
        rw [if_pos more, if_pos (there.trans (congrArg some ended))]
        rfl
      · exact Or.inr (Or.inr ⟨next, _, there, ended, task.turns there ended⟩)
    · right
      left
      unfold ChunkTask.pool
      dsimp only
      rw [isCaller]
      dsimp only
      rw [if_neg more]
      rfl
  | returned status => exact absurd isCaller (waiting status)

/-- Every run takes at most a number of actions that is known beforehand, and it is never stuck
before the caller has returned. -/
structure ChunkTask.Ends (task : ChunkTask Conditions World) (count : Nat) (world : World) :
    Prop where
  bounded : ∀ actions pool, Transition.run task.pool (.start count world) actions = some pool →
    actions.length ≤ 3 * (task.chunkCount.toNat + count) + 1
  proceeds : ∀ pool, Transition.Reaches task.pool (fun _ _ => True) (.start count world) pool →
    (∀ status, pool.caller ≠ .returned status) → task.Proceeds pool

theorem ChunkTask.effort_start (task : ChunkTask Conditions World) (count : Nat) (world : World) :
    task.effort (.start count world) ≤ 3 * (task.chunkCount.toNat + count) + 1 := by
  unfold effort Pool.start
  dsimp only
  rw [show (Work.queued world).nextIndex.toNat = 0 from rfl, List.map_nil, List.sum_nil,
    List.length_nil]
  split
  · simp only [Caller.effort]
    omega
  · simp only [Caller.effort]
    omega

theorem ChunkTask.ends (task : ChunkTask Conditions World) (count : Nat) (world : World) :
    task.Ends count world := by
  constructor
  · intro actions pool done
    have counted := Transition.length_run_le task.effort_lt done
    have start := task.effort_start count world
    omega
  · intro pool reached waiting
    have creating : pool.Creating :=
      reached.invariant (creating_start count world) fun _ _ _ before _ stepped => before.step stepped
    exact task.proceeds creating waiting

/-- With any number of workers, any order of their sections and any failures of chunks and of
threads, the pool of an upload and that of a download end: they are never stuck, and a run has at
most three actions for each chunk and each thread, and one more. -/
theorem transfer_ends [Sha256] [Lz4] (document : TransferDocument) (lookup : TransferLookupResult)
    (count : Nat) :
    (∀ hashes, (uploadTask document).Ends count hashes) ∧
      ∀ file, (downloadTask lookup).Ends count file :=
  ⟨fun hashes => (uploadTask document).ends count hashes,
    fun file => (downloadTask lookup).ends count file⟩

/-! ### Runs that nothing hinders -/

/-- No thread fails, and the chunks meet fine conditions. -/
def ChunkTask.Smooth (fine : UInt64 → Conditions → Prop) (pool : Pool World) :
    PoolAction Conditions → Prop
  | .create error | .join error => error = none
  | .leave => True
  | .turn position conditions =>
    ∀ index, pool.workers[position]? = some (.transferring index) → fine index conditions

/-- Under fine conditions a chunk succeeds, keeps what has to be kept, achieves what it is for and
leaves what the other chunks have achieved. -/
def ChunkTask.Achieves (task : ChunkTask Conditions World) (fine : UInt64 → Conditions → Prop)
    (kept : World → Prop) (achieved : UInt64 → World → Prop) : Prop :=
  ∀ index conditions world, index < task.chunkCount → fine index conditions → kept world →
    ∃ after size, task.chunk index conditions world = (after, .ok size) ∧ kept after ∧
      achieved index after ∧ ∀ other, other < task.chunkCount → achieved other world →
        achieved other after

/-- Where the caller of a pool is in which nothing has failed. -/
def Pool.Attended (pool : Pool World) : Prop :=
  match pool.caller with
  | .creating left => left ≠ 0
  | .joining next joinError => joinError = none ∧ pool.workers ≠ [] ∧
    ∀ position < next, pool.workers[position]? = some .exited
  | .returned status => status = .ok () ∧ pool.workers ≠ [] ∧
    ∀ worker ∈ pool.workers, worker = .exited

/-- Conditions that are at least as good achieve the same. -/
theorem ChunkTask.Achieves.of_finer {task : ChunkTask Conditions World}
    {fine finer : UInt64 → Conditions → Prop} {kept : World → Prop}
    {achieved : UInt64 → World → Prop} (achieves : task.Achieves fine kept achieved)
    (better : ∀ index conditions, index < task.chunkCount → finer index conditions →
      fine index conditions) : task.Achieves finer kept achieved :=
  fun index conditions world inside finer =>
    achieves index conditions world inside (better index conditions inside finer)

/-- The invariant of a pool in which nothing has failed: an index that has been handed out is held
by a worker, or achieved. -/
structure Pool.Thriving (task : ChunkTask Conditions World) (kept : World → Prop)
    (achieved : UInt64 → World → Prop) (pool : Pool World) : Prop where
  unfailed : pool.work.failed = false
  kept : kept pool.work.world
  inside : pool.work.nextIndex ≤ task.chunkCount
  held : ∀ worker ∈ pool.workers, ∀ ticket, worker.ticket = some ticket →
    ticket < pool.work.nextIndex.toNat
  achieved : ∀ index < pool.work.nextIndex,
    achieved index pool.work.world ∨ ∃ worker ∈ pool.workers, worker.ticket = some index.toNat
  exits : .exited ∈ pool.workers → pool.work.nextIndex = task.chunkCount
  attended : pool.Attended

variable {task : ChunkTask Conditions World} {fine : UInt64 → Conditions → Prop}
  {kept : World → Prop} {achieved : UInt64 → World → Prop} {pool : Pool World}

theorem thriving_start {count : Nat} (some : count ≠ 0) (few : count ≤ maxConfiguredWorkers)
    {world : World} (initial : kept world) :
    (Pool.start count world).Thriving task kept achieved := by
  refine ⟨rfl, initial, UInt64.zero_le, fun _ absent => ?_, fun index before => ?_,
    fun absent => ?_, ?_⟩
  · cases absent
  · exact absurd before UInt64.not_lt_zero
  · cases absent
  · unfold Pool.start Pool.Attended
    rw [if_neg (not_or.mpr ⟨some, Nat.not_lt.mpr few⟩)]
    exact some

/-- A worker of another ticket stays where another worker moves on. -/
theorem exists_ticket_set {workers : List Worker} {position ticket : Nat} {worker : Worker}
    (there : workers[position]? = some worker) (different : worker.ticket ≠ some ticket)
    (holder : ∃ holder ∈ workers, holder.ticket = some ticket) (later : Worker) :
    ∃ holder ∈ workers.set position later, holder.ticket = some ticket := by
  obtain ⟨holder, member, holds⟩ := holder
  obtain ⟨place, found⟩ := List.getElem?_of_mem member
  refine ⟨holder, List.mem_of_getElem? (i := place) ?_, holds⟩
  rw [List.getElem?_set_ne]
  · exact found
  · rintro rfl
    cases there.symm.trans found
    exact different holds

/-- The caller of a thriving pool is not disturbed by a worker that goes on. -/
theorem Pool.Attended.turn (attended : pool.Attended) {position : Nat} {worker : Worker}
    (there : pool.workers[position]? = some worker) (busy : worker ≠ .exited) (work : Work World)
    (later : Worker) :
    Pool.Attended { pool with work := work, workers := pool.workers.set position later } := by
  have member := List.mem_of_getElem? there
  unfold Attended at *
  dsimp only
  split at attended
  · exact attended
  · obtain ⟨unharmed, nonempty, ended⟩ := attended
    refine ⟨unharmed, fun empty => ?_, fun other before => ?_⟩
    · rw [List.set_eq_nil_iff] at empty
      exact nonempty empty
    · have exited := ended other before
      rw [List.getElem?_set_ne]
      · exact exited
      · rintro rfl
        exact busy (Option.some.inj (there.symm.trans exited))
  · exact absurd (attended.2.2 worker member) busy

/-- A turn of a worker keeps the invariant. -/
theorem Pool.Thriving.turn (thriving : pool.Thriving task kept achieved)
    (achieves : task.Achieves fine kept achieved) {position : Nat} {worker later : Worker}
    {after : Work World} {conditions : Conditions}
    (there : pool.workers[position]? = some worker)
    (turn : task.worker pool.work conditions worker = some (after, later))
    (smooth : ∀ index, worker = .transferring index → fine index conditions) :
    Pool.Thriving task kept achieved
      { pool with work := after, workers := pool.workers.set position later } := by
  have member := List.mem_of_getElem? there
  have either : ∀ other ∈ pool.workers.set position later, other ∈ pool.workers ∨ other = later :=
    fun other inside => List.mem_or_eq_of_mem_set inside
  have placed : later ∈ pool.workers.set position later :=
    List.mem_set (List.getElem?_eq_some_iff.mp there).1 later
  cases worker with
  | ready =>
    unfold ChunkTask.worker at turn
    dsimp only at turn
    split at turn
    · rename_i stop
      cases turn
      have last : pool.work.nextIndex = task.chunkCount := by
        refine UInt64.le_antisymm thriving.inside (stop.resolve_left fun failed => ?_)
        rw [thriving.unfailed] at failed
        cases failed
      refine ⟨thriving.unfailed, thriving.kept, thriving.inside, fun other inside ticket held => ?_,
        fun index before => ?_, fun _ => last, thriving.attended.turn there (by simp) _ _⟩
      · rcases either other inside with old | rfl
        · exact thriving.held other old ticket held
        · cases held
      · exact (thriving.achieved index before).imp_right fun holder =>
          exists_ticket_set there (by simp [Worker.ticket]) holder _
    · rename_i goesOn
      cases turn
      rw [not_or, ge_iff_le, UInt64.not_le] at goesOn
      have next := toNat_nextIndex goesOn.2
      refine ⟨thriving.unfailed, thriving.kept, ?_, fun other inside ticket held => ?_,
        fun index before => ?_, fun exited => ?_, thriving.attended.turn there (by simp) _ _⟩
      · rw [UInt64.le_iff_toNat_le]
        show (pool.work.nextIndex + 1).toNat ≤ _
        rw [next]
        exact UInt64.lt_iff_toNat_lt.mp goesOn.2
      · show ticket < (pool.work.nextIndex + 1).toNat
        rw [next]
        rcases either other inside with old | rfl
        · exact Nat.lt_succ_of_lt (thriving.held other old ticket held)
        · cases held
          exact Nat.lt_succ_self _
      · rw [UInt64.lt_iff_toNat_lt] at before
        change index.toNat < (pool.work.nextIndex + 1).toNat at before
        rw [next] at before
        rcases Nat.lt_succ_iff_lt_or_eq.mp before with earlier | same
        · exact (thriving.achieved index (UInt64.lt_iff_toNat_lt.mpr earlier)).imp_right
            fun holder => exists_ticket_set there (by simp [Worker.ticket]) holder _
        · exact Or.inr ⟨_, placed, congrArg some same.symm⟩
      · rcases either _ exited with old | wrong
        · rw [thriving.exits old] at goesOn
          exact absurd goesOn.2 (UInt64.lt_irrefl _)
        · cases wrong
  | started index =>
    cases turn
    refine ⟨thriving.unfailed, thriving.kept, thriving.inside, fun other inside ticket held => ?_,
      fun other before => ?_, fun exited => ?_, thriving.attended.turn there (by simp) _ _⟩
    · rcases either other inside with old | rfl
      · exact thriving.held other old ticket held
      · exact thriving.held _ member ticket held
    · refine (thriving.achieved other before).imp_right fun holder => ?_
      by_cases same : (Worker.started index).ticket = some other.toNat
      · exact ⟨_, placed, same⟩
      · exact exists_ticket_set there same holder _
    · rcases either _ exited with old | wrong
      · exact thriving.exits old
      · cases wrong
  | transferring index =>
    have ours := thriving.held _ member _ rfl
    have inside : index < task.chunkCount :=
      UInt64.lt_of_lt_of_le (UInt64.lt_iff_toNat_lt.mpr ours) thriving.inside
    obtain ⟨world, size, done, keptAfter, here, others⟩ :=
      achieves index conditions pool.work.world inside (smooth index rfl) thriving.kept
    unfold ChunkTask.worker at turn
    dsimp only at turn
    rw [done] at turn
    cases turn
    refine ⟨thriving.unfailed, keptAfter, thriving.inside, fun other placed ticket held => ?_,
      fun other before => ?_, fun exited => ?_, thriving.attended.turn there (by simp) _ _⟩
    · rcases either other placed with old | rfl
      · exact thriving.held other old ticket held
      · cases held
    · by_cases same : other = index
      · exact Or.inl (same ▸ here)
      · refine (thriving.achieved other before).imp (others other ?_) fun holder => ?_
        · exact UInt64.lt_of_lt_of_le before thriving.inside
        · refine exists_ticket_set there (fun holds => same ?_) holder _
          exact (UInt64.toNat_inj.mp (Option.some.inj holds)).symm
    · rcases either _ exited with old | wrong
      · exact thriving.exits old
      · cases wrong
  | exited => cases turn

/-- The caller of a thriving pool goes on. -/
theorem Pool.Thriving.attend (thriving : pool.Thriving task kept achieved) {caller : Caller}
    (attended : { pool with caller := caller }.Attended) :
    Pool.Thriving task kept achieved { pool with caller := caller } :=
  ⟨thriving.unfailed, thriving.kept, thriving.inside, thriving.held, thriving.achieved,
    thriving.exits, attended⟩

/-- A thread starts. -/
theorem Pool.Thriving.start (thriving : pool.Thriving task kept achieved) (left : Nat) :
    Pool.Thriving task kept achieved
      { pool with
        workers := pool.workers ++ [.ready]
        caller := if left = 0 then .joining 0 none else .creating left } := by
  refine ⟨thriving.unfailed, thriving.kept, thriving.inside, fun worker member ticket held => ?_,
    fun index before => ?_, fun exited => ?_, ?_⟩
  · rcases List.mem_append.mp member with old | new
    · exact thriving.held worker old ticket held
    · rw [List.mem_singleton.mp new] at held
      cases held
  · refine (thriving.achieved index before).imp_right fun holder => ?_
    obtain ⟨worker, member, held⟩ := holder
    exact ⟨worker, List.mem_append_left _ member, held⟩
  · rcases List.mem_append.mp exited with old | new
    · exact thriving.exits old
    · cases List.mem_singleton.mp new
  · unfold Pool.Attended
    dsimp only
    split
    · rename_i more isCaller
      split at isCaller
      · cases isCaller
      · rename_i some
        cases isCaller
        exact some
    · rename_i next joinError isCaller
      split at isCaller
      · cases isCaller
        exact ⟨rfl, by simp, fun _ before => absurd before (Nat.not_lt_zero _)⟩
      · cases isCaller
    · rename_i isCaller
      split at isCaller <;> cases isCaller

/-- Every action of a run that nothing hinders keeps the invariant. -/
theorem Pool.Thriving.step (thriving : pool.Thriving task kept achieved)
    (achieves : task.Achieves fine kept achieved) {action : PoolAction Conditions}
    (smooth : ChunkTask.Smooth fine pool action) {next : Pool World}
    (stepped : task.pool pool action = some next) : next.Thriving task kept achieved := by
  have attended := thriving.attended
  unfold Pool.Attended at attended
  cases action with
  | create error =>
    obtain rfl : error = none := smooth
    unfold ChunkTask.pool at stepped
    dsimp only at stepped
    split at stepped
    · rename_i left isCreating
      cases stepped
      exact thriving.start left
    · cases stepped
  | join error =>
    obtain rfl : error = none := smooth
    unfold ChunkTask.pool at stepped
    dsimp only at stepped
    split at stepped
    · rename_i position joinError isJoining
      rw [isJoining] at attended
      split at stepped
      · split at stepped
        · rename_i exited
          cases stepped
          refine thriving.attend ⟨attended.1, attended.2.1, fun other before => ?_⟩
          rcases Nat.lt_succ_iff_lt_or_eq.mp before with earlier | rfl
          · exact attended.2.2 other earlier
          · exact exited
        · cases stepped
      · cases stepped
    · cases stepped
  | leave =>
    unfold ChunkTask.pool at stepped
    dsimp only at stepped
    split at stepped
    · rename_i position joinError isJoining
      rw [isJoining] at attended
      split at stepped
      · cases stepped
      · rename_i last
        cases stepped
        obtain ⟨rfl, nonempty, ended⟩ := attended
        refine thriving.attend ⟨?_, nonempty, fun worker member => ?_⟩
        · unfold Pool.result
          dsimp only
          rw [thriving.unfailed]
          rfl
        · obtain ⟨other, there⟩ := List.getElem?_of_mem member
          obtain ⟨inside, -⟩ := List.getElem?_eq_some_iff.mp there
          have exited := ended other (Nat.lt_of_lt_of_le inside (Nat.le_of_not_lt last))
          exact Option.some.inj (there.symm.trans exited)
    · cases stepped
  | turn position conditions =>
    unfold ChunkTask.pool at stepped
    dsimp only at stepped
    cases there : pool.workers[position]? with
    | none =>
      rw [there] at stepped
      cases stepped
    | some worker =>
      rw [there] at stepped
      obtain ⟨⟨after, later⟩, turn, rfl⟩ := Option.map_eq_some_iff.mp stepped
      exact thriving.turn achieves there turn fun index isWorker =>
        smooth index (isWorker ▸ there)

/-- What others do to the world does not disturb a pool, if it keeps what the chunks need and have
achieved. -/
theorem Pool.Thriving.disturb (thriving : pool.Thriving task kept achieved) {world : World}
    (keeps : kept world) (achieves : ∀ index < task.chunkCount, achieved index pool.work.world →
      achieved index world) :
    Pool.Thriving task kept achieved
      { pool with work := { pool.work with world := world } } :=
  ⟨thriving.unfailed, keeps, thriving.inside, thriving.held,
    fun index before => (thriving.achieved index before).imp_left
      (achieves index (UInt64.lt_of_lt_of_le before thriving.inside)),
    thriving.exits, thriving.attended⟩

/-- When the caller of a thriving pool has returned, everything has been achieved. -/
theorem Pool.Thriving.returned (thriving : pool.Thriving task kept achieved)
    {status : Except (Option Errno) Unit} (isReturned : pool.caller = .returned status) :
    status = .ok () ∧ kept pool.work.world ∧
      ∀ index < task.chunkCount, achieved index pool.work.world := by
  have attended := thriving.attended
  unfold Pool.Attended at attended
  rw [isReturned] at attended
  obtain ⟨succeeded, nonempty, ended⟩ := attended
  have last : pool.work.nextIndex = task.chunkCount := by
    obtain ⟨worker, member⟩ := List.exists_mem_of_ne_nil _ nonempty
    exact thriving.exits (ended worker member ▸ member)
  refine ⟨succeeded, thriving.kept, fun index inside => ?_⟩
  refine (thriving.achieved index (last ▸ inside)).resolve_right fun holder => ?_
  obtain ⟨worker, member, held⟩ := holder
  rw [ended worker member] at held
  cases held

end Completion

end SuperPeerNet
