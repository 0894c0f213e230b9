/-
This file models `concurrent_server.c`: `concurrent_server_run`, `worker_run` and
`concurrent_server_stop` as the sections that they run under the mutex of the server.

The threads take one action after the other, in any order: a section, an `accept`, or something that
the rest of the process does. The program knows connections by their descriptors only, and a
descriptor that has been closed may be given out again at once, for another connection or for
something unrelated. So the table of descriptors of the process is part of the state, and every call
of `shutdown` and `close` records what its descriptor refers to at that moment.

A worker that waits on the condition variable has its next section when there is something to do;
wakeups without a reason only make it wait again. The shutdown of the listening socket makes later
calls of `accept` fail, which they may do anyway. The handler is given a connection and leaves it
open, as `handle_client` and `serve_connection` do.
-/

import SuperPeerNet.Library.Ring
import SuperPeerNet.Library.Transition

namespace SuperPeerNet

/-! ### The server -/

/-- `SERVER_QUEUE`. -/
def serverQueue : Nat := 64

/-- The fields of `struct ConcurrentServer` that change: `queue` with its `head` and `count`, and
the descriptor that each worker works on, where none is the `-1` of the source. -/
structure ConcurrentServer where
  stopping : Bool
  queue : Ring.Buffer Nat serverQueue
  active : List (Option Nat)

/-- What a descriptor refers to: a connection, by its number in the order of acceptance, or
something else of the process. -/
inductive Referent where
  | connection (number : Nat)
  | other
  deriving DecidableEq

/-- Who calls `shutdown` or `close`. -/
inductive ServerCaller where
  | run
  | stop
  | worker (position : Nat)
  deriving DecidableEq

/-- What has happened, with what the descriptor of a call has referred to. -/
inductive ServerEvent where
  | accepted (number : Nat)
  | given (position : Nat) (target : Option Referent)
  | shutdown (caller : ServerCaller) (target : Option Referent)
  | closed (caller : ServerCaller) (target : Option Referent)
  deriving DecidableEq

/-- Where `concurrent_server_run` is. -/
inductive RunPhase where
  /-- At `accept`. -/
  | accepting
  /-- It has accepted a connection, before its section. -/
  | accepted (descriptor : Nat)
  /-- It has left its loop, before the call of `concurrent_server_stop`. -/
  | leaving
  | returned
  deriving DecidableEq

/-- Where `worker_run` is. -/
inductive ServerWorker where
  /-- Before its first section, or waiting in it. -/
  | idle
  /-- In the handler, before its second section. -/
  | handling (descriptor : Nat)
  | ended
  deriving DecidableEq

/-- The server with its threads, the descriptors of the process and what has happened. -/
structure Serving where
  server : ConcurrentServer
  run : RunPhase
  workers : List ServerWorker
  descriptors : Nat → Option Referent
  history : List ServerEvent

/-- After `concurrent_server_create`, with a number of workers. -/
def Serving.start (workers : Nat) : Serving where
  server := ⟨false, ⟨fun _ => 0, ⟨0, by decide⟩, 0, Nat.zero_le _⟩, List.replicate workers none⟩
  run := .accepting
  workers := List.replicate workers .idle
  descriptors := fun _ => none
  history := []

/-! ### System calls -/

/-- The connection that is accepted. -/
def ServerEvent.accepts : ServerEvent → Option Nat
  | accepted number => some number
  | _ => none

/-- The connection that a worker is given. -/
def ServerEvent.gives : ServerEvent → Option Nat
  | given _ (some (.connection number)) => some number
  | _ => none

/-- The connection that is closed. -/
def ServerEvent.closes : ServerEvent → Option Nat
  | closed _ (some (.connection number)) => some number
  | _ => none

namespace Serving

/-- `accept`, when it returns a descriptor: one that is not in use. -/
def accept (serving : Serving) (descriptor : Nat) : Serving :=
  let number := (serving.history.filterMap ServerEvent.accepts).length
  { serving with
    descriptors := Function.update serving.descriptors descriptor (some (.connection number))
    history := serving.history ++ [.accepted number] }

/-- `shutdown`. -/
def shutdown (serving : Serving) (caller : ServerCaller) (descriptor : Nat) : Serving :=
  { serving with
    history := serving.history ++ [.shutdown caller (serving.descriptors descriptor)] }

/-- `close`. -/
def close (serving : Serving) (caller : ServerCaller) (descriptor : Nat) : Serving :=
  { serving with
    descriptors := Function.update serving.descriptors descriptor none
    history := serving.history ++ [.closed caller (serving.descriptors descriptor)] }

/-- `network_shutdown`. -/
def networkShutdown (serving : Serving) (caller : ServerCaller) (descriptor : Nat) : Serving :=
  (serving.shutdown caller descriptor).close caller descriptor

/-! ### The sections -/

/-- The loop of `concurrent_server_stop` over `active`. -/
def shutdownActive (serving : Serving) (active : List (Option Nat)) : Serving :=
  active.foldl (fun serving slot => match slot with
    | none => serving
    | some descriptor => serving.shutdown .stop descriptor) serving

/-- A turn of the loop of `concurrent_server_stop` over the queue. -/
def closeFront (serving : Serving) (filled : serving.server.queue.count ≠ 0) : Serving :=
  { serving.close .stop serving.server.queue.front with
    server := { serving.server with queue := serving.server.queue.pop filled } }

/-- The loop of `concurrent_server_stop` over the queue, of at most as many turns as there are
connections in it. -/
def closeQueued : Nat → Serving → Serving
  | 0, serving => serving
  | turns + 1, serving =>
    if filled : serving.server.queue.count ≠ 0 then closeQueued turns (serving.closeFront filled)
    else serving

/-- `concurrent_server_stop`. -/
def concurrentServerStop (serving : Serving) : Serving :=
  let stopped :=
    ({ serving with server := { serving.server with stopping := true } }).shutdownActive
      serving.server.active
  closeQueued stopped.server.queue.count stopped

/-- The section of `concurrent_server_run` with the connection that it has accepted. -/
def enter (serving : Serving) (descriptor : Nat) : Serving :=
  let next := if serving.server.stopping then RunPhase.leaving else .accepting
  if full : serving.server.stopping = true ∨ serving.server.queue.count = serverQueue then
    { serving.close .run descriptor with run := next }
  else
    { serving with
      server := { serving.server with
        queue := serving.server.queue.push descriptor
          (Nat.lt_of_le_of_ne serving.server.queue.fits (not_or.mp full).2) }
      run := next }

/-- The next section of `worker_run`, if it has not ended and need not wait. -/
def workerRun (serving : Serving) (position : Nat) : Option Serving :=
  match serving.workers[position]? with
  | some .idle =>
    if serving.server.stopping then
      some { serving with workers := serving.workers.set position .ended }
    else if filled : serving.server.queue.count ≠ 0 then
      let descriptor := serving.server.queue.front
      some { serving with
        server := { serving.server with
          queue := serving.server.queue.pop filled
          active := serving.server.active.set position (some descriptor) }
        workers := serving.workers.set position (.handling descriptor)
        history := serving.history ++ [.given position (serving.descriptors descriptor)] }
    else none
  | some (.handling descriptor) =>
    let cleared := { serving with
      server := { serving.server with active := serving.server.active.set position none }
      workers := serving.workers.set position .idle }
    some (cleared.networkShutdown (.worker position) descriptor)
  | some .ended | none => none

end Serving

/-! ### Actions -/

/-- What `accept` returns. -/
inductive AcceptResult where
  | client (descriptor : Nat)
  /-- `EINTR`. -/
  | interrupted
  | failed

/-- An action of a thread. -/
inductive ServerAction where
  /-- `concurrent_server_run` calls `accept`. -/
  | accept (result : AcceptResult)
  /-- `concurrent_server_run` has its section. -/
  | enter
  /-- `concurrent_server_run` calls `concurrent_server_stop` and returns. -/
  | finish
  /-- Another thread calls `concurrent_server_stop`. -/
  | stop
  /-- A worker has its next section. -/
  | turn (position : Nat)
  /-- The rest of the process opens a descriptor that is not in use. -/
  | opens (descriptor : Nat)
  /-- The rest of the process closes a descriptor of its own. -/
  | closes (descriptor : Nat)

/-- The step function of the server: `concurrent_server_run`, `worker_run` and
`concurrent_server_stop`, one action after the other. -/
def serverStep (serving : Serving) : ServerAction → Option Serving
  | .accept result =>
    match serving.run, result with
    | .accepting, .client descriptor =>
      if serving.descriptors descriptor = none then
        some { serving.accept descriptor with run := .accepted descriptor }
      else none
    | .accepting, .interrupted => some serving
    | .accepting, .failed => some { serving with run := .leaving }
    | _, _ => none
  | .enter =>
    match serving.run with
    | .accepted descriptor => some (serving.enter descriptor)
    | _ => none
  | .finish =>
    match serving.run with
    | .leaving => some { serving.concurrentServerStop with run := .returned }
    | _ => none
  | .stop => some serving.concurrentServerStop
  | .turn position => serving.workerRun position
  | .opens descriptor =>
    if serving.descriptors descriptor = none then
      some { serving with
        descriptors := Function.update serving.descriptors descriptor (some .other) }
    else none
  | .closes descriptor =>
    if serving.descriptors descriptor = some .other then
      some { serving with descriptors := Function.update serving.descriptors descriptor none }
    else none

end SuperPeerNet
