/-
This file models `transfer_fill_transaction_id` of `transfer_protocol.c`, called by any number of
threads of a process at the same time, and shows that it never makes the same id twice.

A call takes one atomic step after the other: it reads the time, loads `transaction_clock`, tries to
raise it and at last counts in `transaction_sequence`. The steps of the calls come in any order. The
atomic operations are relaxed, so a load, and an exchange that fails, may observe any value that the
clock has had; an exchange that succeeds has found the latest one. What makes the ids different is
the clock alone: a successful exchange leaves it at a value that it has never had before.
-/

import SuperPeerNet.Library.Ratchet
import SuperPeerNet.Library.Transition
import SuperPeerNet.Protocol

namespace SuperPeerNet

/-! ### The bytes of an id -/

/-- The bytes that `transfer_fill_transaction_id` writes: the timestamp, the first bytes of the
source node, or zeros if there is none, and the sequence number. -/
def transactionIdBytes (timestamp : UInt64) (source : Option NodeID) (sequence : UInt32) :
    TransactionId :=
  ⟨wirePutU64 timestamp ++ (match source with
      | none => List.replicate 4 0
      | some node => node.toList.take 4) ++ wirePutU32 sequence, by
    cases source <;> simp [transactionIdSize]⟩

theorem wireGetU64_transactionIdBytes (timestamp : UInt64) (source : Option NodeID)
    (sequence : UInt32) :
    wireGetU64 (transactionIdBytes timestamp source sequence).toList = timestamp := by
  show wireGetU64 (wirePutU64 timestamp ++ _ ++ _) = timestamp
  rw [List.append_assoc, wireGetU64_wirePutU64]

/-! ### Calls -/

/-- The atomic variables of `transfer_protocol.c`, with the values that the clock has had before. -/
structure TransactionCounters where
  transactionClock : UInt64
  past : List UInt64
  transactionSequence : UInt32

/-- A value that a relaxed load of the clock may observe. -/
def TransactionCounters.observable (counters : TransactionCounters) (value : UInt64) : Prop :=
  value = counters.transactionClock ∨ value ∈ counters.past

instance (counters : TransactionCounters) (value : UInt64) :
    Decidable (counters.observable value) :=
  inferInstanceAs (Decidable (_ ∨ _))

/-- Where a call of `transfer_fill_transaction_id` is. -/
inductive FillPhase where
  | entered
  | timed (timestamp : UInt64)
  /-- At the top of its loop. -/
  | trying (timestamp previous : UInt64)
  | exchanged (timestamp : UInt64)
  | returned (output : TransactionId)
  deriving DecidableEq

/-- A step of a call, with what it reads. -/
inductive FillStep where
  /-- `timespec_get`. -/
  | time (seconds nanoseconds : UInt64)
  /-- `atomic_load_explicit`. -/
  | load (observed : UInt64)
  /-- `atomic_compare_exchange_weak_explicit`, when it succeeds. -/
  | exchange
  /-- `atomic_compare_exchange_weak_explicit`, when it fails, spuriously or not. -/
  | retry (observed : UInt64)
  /-- `atomic_fetch_add_explicit`, and the bytes are written. -/
  | count

/-- The timestamp that a turn of the loop proposes. -/
def proposedTimestamp (timestamp previous : UInt64) : UInt64 :=
  if timestamp ≤ previous then previous + 1 else timestamp

/-- The next step of a call. -/
def fillCall (source : Option NodeID) (counters : TransactionCounters) :
    FillPhase → FillStep → Option (TransactionCounters × FillPhase)
  | .entered, .time seconds nanoseconds =>
    some (counters, .timed (seconds * 1000000000 + nanoseconds))
  | .timed timestamp, .load observed =>
    if counters.observable observed then some (counters, .trying timestamp observed) else none
  | .trying timestamp previous, .exchange =>
    if counters.transactionClock = previous then
      some ({ counters with
        transactionClock := proposedTimestamp timestamp previous
        past := counters.transactionClock :: counters.past },
        .exchanged (proposedTimestamp timestamp previous))
    else none
  | .trying timestamp previous, .retry observed =>
    if counters.observable observed then
      some (counters, .trying (proposedTimestamp timestamp previous) observed)
    else none
  | .exchanged timestamp, .count =>
    some ({ counters with transactionSequence := counters.transactionSequence + 1 },
      .returned (transactionIdBytes timestamp source (counters.transactionSequence + 1)))
  | _, _ => none

/-- The calls of a process, each with its place. -/
structure Filling (Call : Type) where
  counters : TransactionCounters
  calls : Call → FillPhase

section Filling

variable {Call : Type} [DecidableEq Call]

/-- Before the first step of a call. -/
def Filling.start : Filling Call := ⟨⟨0, [], 0⟩, fun _ => .entered⟩

/-- `transfer_fill_transaction_id`, as the steps of any number of calls with their source nodes. -/
def transferFillTransactionId (sources : Call → Option NodeID) (filling : Filling Call)
    (action : Call × FillStep) : Option (Filling Call) :=
  (fillCall (sources action.1) filling.counters (filling.calls action.1) action.2).map fun after =>
    ⟨after.1, Function.update filling.calls action.1 after.2⟩

/-! ### The clock is raised -/

/-- The timestamp that a call has raised the clock to. -/
def FillPhase.kept : FillPhase → Option Nat
  | .exchanged timestamp => some timestamp.toNat
  | .returned output => some (wireGetU64 output.toList).toNat
  | _ => none

/-- A proposal is above the value that it replaces, unless that is the last one. -/
theorem lt_proposedTimestamp {timestamp previous : UInt64} (more : previous.toNat < 2 ^ 64 - 1) :
    previous.toNat < (proposedTimestamp timestamp previous).toNat := by
  unfold proposedTimestamp
  split
  · rw [UInt64.toNat_add, show (1 : UInt64).toNat = 1 from rfl, Nat.mod_eq_of_lt (by omega)]
    omega
  · rename_i later
    exact UInt64.lt_iff_toNat_lt.mp (UInt64.not_le.mp later)

/-- What a step of a call does to the clock: the call raises it and keeps its value, or the clock
and what the call keeps are as before. -/
theorem fillCall_cases {source : Option NodeID} {counters after : TransactionCounters}
    {phase next : FillPhase} {step : FillStep}
    (stepped : fillCall source counters phase step = some (after, next))
    (more : counters.transactionClock.toNat < 2 ^ 64 - 1) :
    (counters.transactionClock.toNat < after.transactionClock.toNat ∧
        next.kept = some after.transactionClock.toNat) ∨
      (after.transactionClock = counters.transactionClock ∧ next.kept = phase.kept) := by
  unfold fillCall at stepped
  split at stepped
  · cases stepped
    exact Or.inr ⟨rfl, rfl⟩
  · split at stepped
    · cases stepped
      exact Or.inr ⟨rfl, rfl⟩
    · cases stepped
  · split at stepped
    · rename_i found
      cases stepped
      rw [← found]
      exact Or.inl ⟨lt_proposedTimestamp more, rfl⟩
    · cases stepped
  · split at stepped
    · cases stepped
      exact Or.inr ⟨rfl, rfl⟩
    · cases stepped
  · cases stepped
    refine Or.inr ⟨rfl, ?_⟩
    simp only [FillPhase.kept, wireGetU64_transactionIdBytes]
  · cases stepped

/-- The calls have kept different values of the clock. -/
def Filling.Distinct (filling : Filling Call) : Prop :=
  Ratchet.Ledger filling.counters.transactionClock.toNat fun call => (filling.calls call).kept

theorem Filling.Distinct.step {sources : Call → Option NodeID} {filling next : Filling Call}
    {action : Call × FillStep} (distinct : filling.Distinct)
    (more : filling.counters.transactionClock.toNat < 2 ^ 64 - 1)
    (stepped : transferFillTransactionId sources filling action = some next) : next.Distinct := by
  obtain ⟨⟨after, phase⟩, taken, rfl⟩ := Option.map_eq_some_iff.mp stepped
  unfold Filling.Distinct at distinct ⊢
  have keeps : (fun call => (Function.update filling.calls action.1 phase call).kept) =
      Function.update (fun call => (filling.calls call).kept) action.1 phase.kept := by
    funext call
    exact Function.apply_update (fun _ => FillPhase.kept) filling.calls action.1 phase call
  dsimp only
  rw [keeps]
  rcases fillCall_cases taken more with ⟨raised, kept⟩ | ⟨same, kept⟩
  · rw [kept]
    exact distinct.raise raised action.1
  · rw [same, kept, Function.update_eq_self]
    exact distinct

/-- While the stored clock stays below its last value, no two calls of a process make the same
id. -/
theorem transaction_ids_unique {sources : Call → Option NodeID} {filling : Filling Call}
    (reached : Transition.Reaches (transferFillTransactionId sources)
      (fun filling _ => filling.counters.transactionClock.toNat < 2 ^ 64 - 1) .start filling)
    {first second : Call} (different : first ≠ second) {firstId secondId : TransactionId}
    (isFirst : filling.calls first = .returned firstId)
    (isSecond : filling.calls second = .returned secondId) : firstId ≠ secondId := by
  have initial : (Filling.start : Filling Call).Distinct := Ratchet.Ledger.blank _
  have distinct := reached.invariant initial fun _ _ _ distinct more stepped =>
    Filling.Distinct.step distinct more stepped
  intro same
  subst same
  refine different (distinct.apart first second (wireGetU64 firstId.toList).toNat ?_ ?_)
  · rw [isFirst]
    rfl
  · rw [isSecond]
    rfl

end Filling

/-- Two calls read the same time and the same clock. One of them raises the clock, and the other
fails and tries again above it. -/
theorem transaction_ids_unique_race :
    ∃ (filling : Filling Bool) (firstId secondId : TransactionId),
      filling.calls false = .returned firstId ∧ filling.calls true = .returned secondId ∧
        firstId ≠ secondId := by
  obtain ⟨filling, reached, returned⟩ := @Transition.Reaches.of_check _ _
    (transferFillTransactionId fun _ : Bool => none)
    (fun filling _ => filling.counters.transactionClock.toNat < 2 ^ 64 - 1) .start _
    [(false, .time 1 5), (true, .time 1 5), (false, .load 0), (true, .load 0), (false, .exchange),
      (true, .retry 1000000005), (true, .exchange), (true, .count), (false, .count)]
    (fun filling =>
      filling.calls false = .returned (transactionIdBytes 1000000005 none 2) ∧
        filling.calls true = .returned (transactionIdBytes 1000000006 none 1)) _ (by decide)
  exact ⟨filling, _, _, returned.1, returned.2,
    transaction_ids_unique reached Bool.false_ne_true returned.1 returned.2⟩

end SuperPeerNet
