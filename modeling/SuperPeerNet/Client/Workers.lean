/-
This file models the pool of `file_client.c`: the sections of `upload_worker` and
`download_worker` under the mutex of their work, and `execute_workers`.

A pool takes one action after the other: the caller creates or joins a thread, or a
worker runs to the end of its next section. What a worker does between two sections
touches nothing that another one looks at, so it is part of the section after it, and
the order of the actions is any order of the sections. Threads and chunks fail as the
actions say. A thread whose join has failed may go on after the caller has returned.
-/

import SuperPeerNet.Client.Chunks

namespace SuperPeerNet

/-! ### The shared work -/

/-- The fields of `UploadWork` and `DownloadWork` that the workers change, and what the chunks
change besides: the digests of an upload, or the output file of a download. No saved error is a zero
of the source. -/
structure Work (World : Type) where
  nextIndex : UInt64
  compressedTotal : Nat
  state : TransferState
  failed : Bool
  savedErrno : Option Errno
  world : World

/-- The work at the start of the pool. -/
def Work.queued {World : Type} (world : World) : Work World := ⟨0, 0, .queued, false, none, world⟩

/-- `upload_fail` and `download_fail`, which are the same: the first failure is recorded, and an
`errno` of zero becomes `EIO`. -/
def Work.fail {World : Type} (work : Work World) (error : Option Errno) : Work World :=
  if work.failed then work
  else { work with failed := true, savedErrno := some (error.getD .eio) }

/-- What a pool works on: the number of chunks, and what a worker does with the chunk at an
index. -/
structure ChunkTask (Conditions World : Type) where
  chunkCount : UInt64
  chunk : UInt64 → Conditions → World → World × Except (Option Errno) Nat

/-- The chunks of an upload. -/
def uploadTask [Sha256] (document : TransferDocument) :
    ChunkTask UploadConditions (List (Octets objectIdSize)) where
  chunkCount := document.chunkCount
  chunk := uploadChunk document

/-- The chunks of a download. -/
def downloadTask [Sha256] [Lz4] (lookup : TransferLookupResult) :
    ChunkTask (Nat → DownloadConditions) (List UInt8) where
  chunkCount := lookup.document.chunkCount
  chunk := downloadOne lookup

/-! ### Workers -/

/-- Where a worker is. -/
inductive Worker where
  /-- At the top of its loop. -/
  | ready
  /-- It has taken an index. -/
  | started (index : UInt64)
  /-- It works on the chunk. -/
  | transferring (index : UInt64)
  /-- It has left its loop. -/
  | exited
  deriving DecidableEq

section Workers

variable {Conditions World : Type}

/-- The next section of a worker, with what its chunk meets: the loop of `upload_worker` and of
`download_worker`. The section after a chunk adds its size or records its failure. -/
def ChunkTask.worker (task : ChunkTask Conditions World) (work : Work World)
    (conditions : Conditions) :
    Worker → Option (Work World × Worker)
  | .ready =>
    if work.failed ∨ work.nextIndex ≥ task.chunkCount then some (work, .exited)
    else some ({ work with nextIndex := work.nextIndex + 1, state := .started },
      .started work.nextIndex)
  | .started index => some ({ work with state := .transferring }, .transferring index)
  | .transferring index =>
    match task.chunk index conditions work.world with
    | (world, .ok size) =>
      some ({ work with world := world, compressedTotal := work.compressedTotal + size }, .ready)
    | (world, .error error) => some ({ work with world := world }.fail error, .exited)
  | .exited => none

/-- `upload_worker`. -/
def uploadWorker [Sha256] (document : TransferDocument) :=
  (uploadTask document).worker

/-- `download_worker`. -/
def downloadWorker [Sha256] [Lz4] (lookup : TransferLookupResult) :=
  (downloadTask lookup).worker

end Workers

/-! ### The pool -/

/-- `MAX_CONFIGURED_WORKERS`. -/
def maxConfiguredWorkers : Nat := 32

/-- Where `execute_workers` and its caller are. -/
inductive Caller where
  /-- In the loop of `pthread_create`, with the number of threads still to be created. -/
  | creating (left : Nat)
  /-- In the loop of `pthread_join`, with the next thread and `join_error`. -/
  | joining (next : Nat) (joinError : Option Errno)
  /-- `execute_upload_workers` or `execute_download_workers` has returned. -/
  | returned (status : Except (Option Errno) Unit)

/-- Whether the caller has returned without an error. -/
def Caller.succeeded : Caller → Bool
  | .returned (.ok _) => true
  | _ => false

theorem Caller.returned_of_succeeded {caller : Caller} (succeeded : caller.succeeded = true) :
    caller = .returned (.ok ()) := by
  unfold Caller.succeeded at succeeded
  split at succeeded
  · rfl
  · cases succeeded

/-- A pool: the shared work, the threads that have started and the caller. -/
structure Pool (World : Type) where
  work : Work World
  workers : List Worker
  caller : Caller

/-- An action of a pool. An error is what `pthread_create` or `pthread_join` returns. -/
inductive PoolAction (Conditions : Type) where
  | create (error : Option Errno)
  | join (error : Option Errno)
  /-- The caller leaves the loop of joins. -/
  | leave
  /-- A worker runs to the end of its next section. -/
  | turn (position : Nat) (conditions : Conditions)

section Pool

variable {Conditions World : Type}

/-- The pool at the start of `execute_workers`. -/
def Pool.start (count : Nat) (world : World) : Pool World where
  work := .queued world
  workers := []
  caller := if count = 0 ∨ count > maxConfiguredWorkers then .returned (.error (some .einval))
    else .creating count

/-- The result of `execute_workers`, and of the check of the failure after it. -/
def Pool.result (pool : Pool World) (joinError : Option Errno) : Except (Option Errno) Unit :=
  match joinError with
  | some error => .error (some error)
  | none => if pool.work.failed then .error pool.work.savedErrno else .ok ()

/-- The step function of a pool. A join without an error waits until the thread has ended. -/
def ChunkTask.pool (task : ChunkTask Conditions World) (pool : Pool World) :
    PoolAction Conditions → Option (Pool World)
  | .create error =>
    match pool.caller with
    | .creating (left + 1) =>
      match error with
      | some error => some { pool with work := pool.work.fail error, caller := .joining 0 none }
      | none => some
        { pool with
          workers := pool.workers ++ [.ready]
          caller := if left = 0 then .joining 0 none else .creating left }
    | _ => none
  | .join error =>
    match pool.caller with
    | .joining next joinError =>
      if next < pool.workers.length then
        match error with
        | some error => some
          { pool with work := pool.work.fail error, caller := .joining (next + 1) error }
        | none =>
          if pool.workers[next]? = some .exited then
            some { pool with caller := .joining (next + 1) joinError }
          else none
      else none
    | _ => none
  | .leave =>
    match pool.caller with
    | .joining next joinError =>
      if next < pool.workers.length then none
      else some { pool with caller := .returned (pool.result joinError) }
    | _ => none
  | .turn position conditions =>
    match pool.workers[position]? with
    | none => none
    | some worker =>
      (task.worker pool.work conditions worker).map fun after =>
        { pool with work := after.1, workers := pool.workers.set position after.2 }

/-- `execute_upload_workers`, as the step function of its pool. -/
def executeUploadWorkers [Sha256] (document : TransferDocument) :=
  (uploadTask document).pool

/-- `execute_download_workers`, as the step function of its pool. -/
def executeDownloadWorkers [Sha256] [Lz4] (lookup : TransferLookupResult) :=
  (downloadTask lookup).pool

end Pool

end SuperPeerNet
