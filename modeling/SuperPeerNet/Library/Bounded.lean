/-
This file is a small library of computations over memory of a known extent.

A computation reads from a source at offsets and writes to fields and arrays of a fixed size. An
access outside of them stops it in a way of its own, which is no failure that it reports. A cursor
over a source mirrors a reader of the rest of an input if it does the same from every offset: then
it never leaves the source, and neither does a loop over it that fills an array.
-/

import SuperPeerNet.Library.Reading

namespace Bounded

open Reading

variable {Token Failure Value State : Type}

/-- How a computation stops: it reports a failure, or it reaches outside of its memory. -/
inductive Stop (Failure : Type) where
  | refused (failure : Failure)
  | outside

/-- A computation over bounded memory. -/
abbrev Access (Failure : Type) := Except (Stop Failure)

/-- Report a failure. -/
def refuse (failure : Failure) : Access Failure Value := .error (.refused failure)

/-- Report a failure if a condition holds. -/
def reject (failure : Failure) (condition : Prop) [Decidable condition] : Access Failure Unit :=
  if condition then refuse failure else .ok ()

/-- Read a number of tokens at an offset of a source. -/
def load (source : List Token) (offset count : Nat) : Access Failure (List Token) :=
  if offset + count ≤ source.length then .ok ((source.drop offset).take count) else .error .outside

/-- Write a number of tokens at an offset of a field of a fixed size. -/
def fit (size offset count : Nat) : Access Failure Unit :=
  if offset + count ≤ size then .ok () else .error .outside

/-- Write an element of an array. -/
def put (array : List Value) (index : Nat) (value : Value) : Access Failure (List Value) :=
  if index < array.length then .ok (array.set index value) else .error .outside

/-- A loop that computes the elements of an array from an index on. -/
def fill (entry : Nat → State → Access Failure (Value × State)) :
    (count index : Nat) → State → List Value → Access Failure (List Value × State)
  | 0, _, state, array => .ok (array, state)
  | count + 1, index, state, array => do
    let (value, next) ← entry index state
    let array ← put array index value
    fill entry count (index + 1) next array

/-- The computation without memory, as one over memory. -/
def lift : Except Failure Value → Access Failure Value
  | .ok value => .ok value
  | .error failure => .error (.refused failure)

/-- Report another failure. -/
def recode (failure : Failure) : Access Failure Value → Access Failure Value
  | .error (.refused _) => refuse failure
  | access => access

/-- A computation that never reaches outside. -/
def Inside (access : Access Failure Value) : Prop := access ≠ .error .outside

theorem inside_lift (result : Except Failure Value) : Inside (lift result) := by
  cases result <;> exact nofun

/-! ### Sequences -/

variable {Result : Type}

@[simp] theorem ok_bind (value : Value) (next : Value → Access Failure Result) :
    ((Except.ok value : Access Failure Value) >>= next) = next value := rfl

@[simp] theorem pure_bind (value : Value) (next : Value → Access Failure Result) :
    ((pure value : Access Failure Value) >>= next) = next value := rfl

@[simp] theorem ok_map (value : Value) (function : Value → Result) :
    (function <$> (Except.ok value : Access Failure Value)) = .ok (function value) := rfl

@[simp] theorem refuse_bind (failure : Failure) (next : Value → Access Failure Result) :
    ((refuse failure : Access Failure Value) >>= next) = refuse failure := rfl

@[simp] theorem reject_bind (failure : Failure) (condition : Prop) [Decidable condition]
    (next : Unit → Access Failure Result) :
    (reject failure condition >>= next) = if condition then refuse failure else next () := by
  unfold reject
  split <;> rfl

/-- A sequence that has a result has gone through its first step. -/
theorem exists_of_bind {access : Access Failure Value} {next : Value → Access Failure Result}
    {result : Result} (done : (access >>= next) = .ok result) :
    ∃ value, access = .ok value ∧ next value = .ok result := by
  cases access with
  | error stop => cases done
  | ok value => exact ⟨value, rfl, done⟩

@[simp] theorem lift_ok (value : Value) :
    (lift (.ok value) : Access Failure Value) = .ok value := rfl

@[simp] theorem lift_error (failure : Failure) :
    (lift (.error failure) : Access Failure Value) = refuse failure := rfl

/-! ### Accesses that stay inside -/

theorem load_of_inside {source : List Token} {offset count : Nat}
    (inside : offset + count ≤ source.length) :
    (load source offset count : Access Failure _) = .ok ((source.drop offset).take count) :=
  if_pos inside

theorem fit_of_inside {size offset count : Nat} (inside : offset + count ≤ size) :
    (fit size offset count : Access Failure Unit) = .ok () := if_pos inside

theorem put_of_inside {array : List Value} {index : Nat} (inside : index < array.length)
    (value : Value) : (put array index value : Access Failure _) = .ok (array.set index value) :=
  if_pos inside

/-- An element of an array that is still blank is written after those that are done. -/
theorem put_next {done others : List Value} {first value : Value} {index : Nat}
    (start : done.length = index) :
    (put (done ++ first :: others) index value : Access Failure _) =
      .ok (done ++ [value] ++ others) := by
  rw [put_of_inside (by rw [List.length_append, List.length_cons]; omega),
    List.set_append_right _ _ (by omega), start, Nat.sub_self, List.set_cons_zero]
  simp

/-- One turn of a loop that fills an array. -/
theorem fill_step {entry : Nat → State → Access Failure (Value × State)} {count index : Nat}
    {state next : State} {done others : List Value} {first value : Value}
    (start : done.length = index) (turn : entry index state = .ok (value, next)) :
    fill entry (count + 1) index state (done ++ first :: others) =
      fill entry count (index + 1) next (done ++ [value] ++ others) := by
  rw [fill, turn, ok_bind]
  show (put (done ++ first :: others) index value >>= _) = _
  rw [put_next start, ok_bind]

/-- A loop whose elements do not depend on each other. -/
theorem fill_eq_map {entry : Nat → Unit → Access Failure (Value × Unit)} (element : Nat → Value)
    {count index : Nat} {done blank : List Value} (size : blank.length = count)
    (start : done.length = index)
    (each : ∀ position, index ≤ position → position < index + count →
      entry position () = .ok (element position, ())) :
    fill entry count index () (done ++ blank) =
      .ok (done ++ (List.range' index count).map element, ()) := by
  induction count generalizing index done blank with
  | zero =>
    obtain rfl := List.length_eq_zero_iff.mp size
    rfl
  | succ count inductionHypothesis =>
    obtain ⟨first, others, rfl⟩ := List.exists_cons_of_length_eq_add_one size
    have longer : (done ++ [element index]).length = index + 1 := by
      rw [List.length_append, start, List.length_singleton]
    rw [fill_step start (each index (Nat.le_refl _) (by omega)),
      inductionHypothesis (Nat.succ.inj size) longer fun position after before =>
        each position (by omega) (by omega), List.range'_succ, List.map_cons, List.append_assoc,
      List.singleton_append]

/-! ### Cursors that mirror readers -/

/-- From every offset, the cursor does what the reader does with the rest of the source. -/
def Mirrors (source : List Token) (cursor : Nat → Access Failure (Value × Nat))
    (reader : Reader Token Failure Value) : Prop :=
  ∀ offset ≤ source.length, match reader (source.drop offset) with
    | .error failure => cursor offset = .error (.refused failure)
    | .ok (value, rest) => ∃ next ≤ source.length,
        rest = source.drop next ∧ cursor offset = .ok (value, next)

/-- A loop over a cursor fills an array with what a table of the reader reads. -/
theorem fill_mirrors {source : List Token} {cursor : Nat → Nat → Access Failure (Value × Nat)}
    {reader : Nat → Reader Token Failure Value}
    (each : ∀ index, Mirrors source (cursor index) (reader index)) {count index : Nat}
    {done blank : List Value} (size : blank.length = count) (start : done.length = index) :
    Mirrors source (fun offset => fill cursor count index offset (done ++ blank))
      ((fun values => done ++ values.1) <$> table reader count index) := by
  intro offset inside
  induction count generalizing index offset done blank with
  | zero =>
    obtain rfl := List.length_eq_zero_iff.mp size
    exact ⟨offset, inside, rfl, rfl⟩
  | succ count inductionHypothesis =>
    obtain ⟨first, others, rfl⟩ := List.exists_cons_of_length_eq_add_one size
    have step := each index offset inside
    have unfolded : ((fun values => done ++ values.1) <$> table reader (count + 1) index)
        (source.drop offset) = match reader index (source.drop offset) with
          | .error failure => .error failure
          | .ok (value, rest) =>
            ((fun values => (done ++ [value]) ++ values.1) <$> table reader count (index + 1))
              rest := by
      show ((table reader (count + 1) index (source.drop offset)).bind fun read =>
        .ok (done ++ read.1.1, read.2)) = _
      rw [show table reader (count + 1) index (source.drop offset) =
        (reader index (source.drop offset)).bind fun read =>
          (table reader count (index + 1) read.2).bind fun more =>
            .ok (⟨read.1 :: more.1.1, congrArg Nat.succ more.1.2⟩, more.2) from rfl]
      cases reader index (source.drop offset) with
      | error failure => rfl
      | ok read =>
        show ((table reader count (index + 1) read.2).bind _).bind _ =
          (table reader count (index + 1) read.2).bind _
        cases table reader count (index + 1) read.2 with
        | error failure => rfl
        | ok more =>
          refine congrArg Except.ok (Prod.ext ?_ rfl)
          show done ++ read.1 :: more.1.1 = done ++ [read.1] ++ more.1.1
          simp
    rw [unfolded]
    cases read : reader index (source.drop offset) with
    | error failure =>
      rw [read] at step
      show fill cursor (count + 1) index offset _ = _
      rw [fill, show cursor index offset = _ from step]
      rfl
    | ok pair =>
      rw [read] at step
      obtain ⟨next, nextInside, rest, moved⟩ := step
      have longer : (done ++ [pair.1]).length = index + 1 := by
        rw [List.length_append, start, List.length_singleton]
      have later := inductionHypothesis (Nat.succ.inj size) longer next nextInside
      dsimp only
      rw [rest, fill_step start moved]
      exact later

/-- A loop over a cursor, into an array that is all blank. -/
theorem fill_blank {source : List Token} {cursor : Nat → Nat → Access Failure (Value × Nat)}
    {reader : Nat → Reader Token Failure Value}
    (each : ∀ index, Mirrors source (cursor index) (reader index)) (count : Nat) (blank : Value)
    {offset : Nat} (inside : offset ≤ source.length) :
    match table reader count 0 (source.drop offset) with
    | .error failure =>
      fill cursor count 0 offset (List.replicate count blank) = .error (.refused failure)
    | .ok (values, rest) => ∃ next ≤ source.length, rest = source.drop next ∧
        fill cursor count 0 offset (List.replicate count blank) = .ok (values.1, next) := by
  have size : (List.replicate count blank).length = count := List.length_replicate
  have mirrors := fill_mirrors each size List.length_nil offset inside
  have mapped : ((fun values => [] ++ values.1) <$> table reader count 0) (source.drop offset) =
      (table reader count 0 (source.drop offset)).bind fun read => .ok (read.1.1, read.2) := rfl
  rw [mapped] at mirrors
  cases read : table reader count 0 (source.drop offset) with
  | error failure =>
    rw [read] at mirrors
    exact mirrors
  | ok pair =>
    rw [read] at mirrors
    exact mirrors

end Bounded
