/-
This file is a small library of readers that take tokens from the front of an input.

A reader is a computation over the rest of the input that may fail. What a writer and
a reader owe each other is said by `Reads`: in front of any rest, the reader takes
exactly the written tokens and returns the value. Such facts compose along the
sequence of a reader, so a round trip of a format is assembled from the round trips of
its fields.
-/

import Mathlib.Data.List.Basic

namespace Reading

variable {Token Failure Value Result : Type}

/-- A computation that takes tokens from the front of its input, or fails. -/
abbrev Reader (Token Failure : Type) := StateT (List Token) (Except Failure)

/-- Take a number of tokens. -/
def take (failure : Failure) (count : Nat) : Reader Token Failure (List Token) := fun input =>
  if input.length < count then .error failure else .ok (input.take count, input.drop count)

/-- Go on if at least a number of tokens are left, and take none of them. -/
def require (failure : Failure) (count : Nat) : Reader Token Failure Unit := fun input =>
  if input.length < count then .error failure else .ok ((), input)

/-- Go on if a condition holds. -/
def ensure (failure : Failure) (condition : Prop) [Decidable condition] :
    Reader Token Failure Unit := fun input =>
  if condition then .ok ((), input) else .error failure

/-- Read a number of values, with the position of each. -/
def table (entry : Nat → Reader Token Failure Value) : (count start : Nat) →
    Reader Token Failure {values : List Value // values.length = count}
  | 0, _ => pure ⟨[], rfl⟩
  | count + 1, start => do
    let value ← entry start
    let values ← table entry count (start + 1)
    pure ⟨value :: values.1, congrArg Nat.succ values.2⟩

/-! ### Readers step by step -/

section Steps

variable {failure : Failure} {count : Nat} {input : List Token}

theorem bind_apply (reader : Reader Token Failure Value)
    (next : Value → Reader Token Failure Result) :
    (reader >>= next) input = (reader input).bind fun read => next read.1 read.2 := rfl

theorem require_bind (next : Unit → Reader Token Failure Result) :
    (require failure count >>= next) input =
      if input.length < count then .error failure else next () input := by
  rw [bind_apply, require]
  split <;> rfl

theorem take_bind (next : List Token → Reader Token Failure Result) :
    (take failure count >>= next) input =
      if input.length < count then .error failure
      else next (input.take count) (input.drop count) := by
  rw [bind_apply, take]
  split <;> rfl

theorem map_take_bind (function : List Token → Value) (next : Value → Reader Token Failure Result) :
    ((function <$> take failure count) >>= next) input =
      if input.length < count then .error failure
      else next (function (input.take count)) (input.drop count) := by
  show ((take failure count input).bind _).bind _ = _
  rw [take]
  split <;> rfl

theorem ensure_bind (condition : Prop) [Decidable condition]
    (next : Unit → Reader Token Failure Result) :
    (ensure failure condition >>= next) input =
      if condition then next () input else .error failure := by
  rw [bind_apply, ensure]
  split <;> rfl

end Steps

/-! ### What a reader takes -/

/-- In front of any rest, the reader takes the written tokens and returns the value. -/
def Reads (reader : Reader Token Failure Value) (written : List Token) (value : Value) : Prop :=
  ∀ rest, reader (written ++ rest) = .ok (value, rest)

theorem Reads.pure (value : Value) :
    Reads (Pure.pure value : Reader Token Failure Value) [] value := fun _ => rfl

theorem Reads.bind {reader : Reader Token Failure Value}
    {next : Value → Reader Token Failure Result} {written more : List Token} {value : Value}
    {result : Result} (first : Reads reader written value)
    (second : Reads (next value) more result) :
    Reads (reader >>= next) (written ++ more) result := by
  intro rest
  rw [List.append_assoc]
  show (reader (written ++ (more ++ rest)) >>= fun read => next read.1 read.2) = _
  rw [first (more ++ rest)]
  exact second rest

/-- The last tokens of a sequence. -/
theorem Reads.last {reader : Reader Token Failure Value}
    {next : Value → Reader Token Failure Result} {written : List Token} {value : Value}
    {result : Result} (first : Reads reader written value) (second : Reads (next value) [] result) :
    Reads (reader >>= next) written result := by
  rw [← List.append_nil written]
  exact first.bind second

theorem Reads.take {failure : Failure} {written : List Token} {count : Nat}
    (size : written.length = count) : Reads (Reading.take failure count) written written := by
  intro rest
  unfold Reading.take
  rw [if_neg (by rw [List.length_append]; omega), List.take_left' size, List.drop_left' size]

theorem Reads.ensure {failure : Failure} {condition : Prop} [Decidable condition]
    (holds : condition) :
    Reads (Reading.ensure failure condition : Reader Token Failure Unit) [] () := by
  intro rest
  exact if_pos holds

/-- A condition that holds is no step. -/
theorem Reads.ensured {failure : Failure} {condition : Prop} [Decidable condition]
    {next : Unit → Reader Token Failure Result} {written : List Token} {result : Result}
    (holds : condition) (second : Reads (next ()) written result) :
    Reads (Reading.ensure failure condition >>= next) written result :=
  (Reads.ensure holds).bind second

/-- Tokens that are taken afterwards are there. -/
theorem Reads.required {failure : Failure} {count : Nat} {next : Unit → Reader Token Failure Result}
    {written : List Token} {result : Result} (enough : count ≤ written.length)
    (second : Reads (next ()) written result) :
    Reads (Reading.require failure count >>= next) written result := by
  intro rest
  have passes : Reading.require failure count (written ++ rest) = .ok ((), written ++ rest) :=
    if_neg (by rw [List.length_append]; omega)
  show (Reading.require failure count (written ++ rest) >>= fun read => next read.1 read.2) = _
  rw [passes]
  exact second rest

theorem Reads.map {reader : Reader Token Failure Value} {written : List Token} {value : Value}
    (function : Value → Result) (read : Reads reader written value) :
    Reads (function <$> reader) written (function value) := by
  intro rest
  show (do let (value, rest) ← reader (written ++ rest); Pure.pure (function value, rest)) = _
  rw [read rest]
  rfl

theorem Reads.table {entry : Nat → Reader Token Failure Value} {write : Value → List Token}
    {count : Nat} {start : Nat} {values : List Value} (size : values.length = count)
    (each : ∀ position value, values[position]? = some value →
      Reads (entry (start + position)) (write value) value) :
    Reads (Reading.table entry count start) (values.flatMap write) ⟨values, size⟩ := by
  induction count generalizing start values with
  | zero =>
    obtain rfl := List.length_eq_zero_iff.mp size
    exact Reads.pure _
  | succ count inductionHypothesis =>
    cases values with
    | nil => cases size
    | cons head rest =>
      have restSize : rest.length = count := Nat.succ.inj size
      have first : Reads (entry start) (write head) head := each 0 head rfl
      have later : Reads (Reading.table entry count (start + 1)) (rest.flatMap write)
          ⟨rest, restSize⟩ := by
        refine inductionHypothesis restSize fun position value found => ?_
        rw [Nat.add_assoc, Nat.add_comm 1]
        exact each (position + 1) value found
      rw [List.flatMap_cons]
      exact first.bind (later.last (Reads.pure _))

/-- After what a reader takes, its sequence goes on with the rest. -/
theorem Reads.run_bind {reader : Reader Token Failure Value}
    {next : Value → Reader Token Failure Result} {written : List Token} {value : Value}
    (first : Reads reader written value) (rest : List Token) :
    (reader >>= next) (written ++ rest) = next value rest := by
  show (reader (written ++ rest) >>= fun read => next read.1 read.2) = _
  rw [first rest]
  rfl

end Reading
