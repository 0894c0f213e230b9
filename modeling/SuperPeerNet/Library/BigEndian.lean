/-
This file is a small library of byte strings: byte strings of a fixed size, and
the big-endian reading of a byte string as a natural number.

The two directions of the number format are kept apart from any particular
machine word. `digits width number` writes the low `width` bytes of a number,
most significant byte first, and `value bytes` reads them back. Reading inverts
writing modulo `256 ^ width`, and writing inverts reading, so a codec built on the
format only has to show that its words agree with `digits` and `value`.
-/

import Mathlib.Data.List.Basic
import Mathlib.Tactic.Ring
import Mathlib.Tactic.Linarith

/-! ### Byte strings of a fixed size -/

/-- A byte string of exactly `size` bytes. -/
def Octets (size : Nat) : Type := {bytes : List UInt8 // bytes.length = size}

namespace Octets

instance (size : Nat) : DecidableEq (Octets size) :=
  inferInstanceAs (DecidableEq {bytes : List UInt8 // bytes.length = size})

/-- The bytes of a fixed-size byte string. -/
def toList {size : Nat} (octets : Octets size) : List UInt8 := octets.1

theorem length_toList {size : Nat} (octets : Octets size) :
    octets.toList.length = size := octets.2

theorem toList_injective {size : Nat} {first second : Octets size}
    (same : first.toList = second.toList) : first = second := Subtype.ext same

/-- The byte string of one repeated byte. -/
def fill (size : Nat) (byte : UInt8) : Octets size :=
  ⟨List.replicate size byte, List.length_replicate⟩

/-- Copy `size` bytes from the front of `source`. A source that is too short is read as if it
were followed by zero bytes; callers check the size first. -/
def read (size : Nat) (source : List UInt8) : Octets size :=
  ⟨(source ++ List.replicate size 0).take size, by simp⟩

theorem toList_read {size : Nat} {source : List UInt8} (enough : size ≤ source.length) :
    (read size source).toList = source.take size := by
  show (source ++ List.replicate size 0).take size = source.take size
  rw [List.take_append_of_le_length enough]

theorem read_take (size : Nat) (source : List UInt8) :
    read size (source.take size) = read size source := by
  refine toList_injective ?_
  show (source.take size ++ List.replicate size 0).take size =
    (source ++ List.replicate size 0).take size
  by_cases enough : size ≤ source.length
  · rw [List.take_append_of_le_length (by rw [List.length_take]; omega),
      List.take_append_of_le_length enough, List.take_take, Nat.min_self]
  · have all : source.take size = source := List.take_of_length_le (by omega)
    rw [all]

theorem read_append {size : Nat} (octets : Octets size) (rest : List UInt8) :
    read size (octets.toList ++ rest) = octets := by
  refine toList_injective ?_
  rw [toList_read (by simp [length_toList]), List.take_left' (length_toList octets)]

theorem read_toList {size : Nat} (octets : Octets size) : read size octets.toList = octets := by
  simpa using read_append octets []

end Octets

/-! ### The big-endian number format -/

namespace BigEndian

/-- The number a byte string spells, most significant byte first. -/
def value (bytes : List UInt8) : Nat :=
  bytes.foldl (fun accumulated byte => accumulated * 256 + byte.toNat) 0

/-- The low `width` bytes of a number, most significant byte first. -/
def digits : Nat → Nat → List UInt8
  | 0, _ => []
  | width + 1, number => UInt8.ofNat (number / 256 ^ width) :: digits width number

@[simp] theorem length_digits (width number : Nat) : (digits width number).length = width := by
  induction width with
  | zero => rfl
  | succ width inductionHypothesis => rw [digits, List.length_cons, inductionHypothesis]

/-- An accumulator in front of a byte string is worth its place value. -/
theorem foldl_eq (bytes : List UInt8) (accumulated : Nat) :
    bytes.foldl (fun sum byte => sum * 256 + byte.toNat) accumulated =
      accumulated * 256 ^ bytes.length + value bytes := by
  induction bytes generalizing accumulated with
  | nil => simp [value]
  | cons byte rest inductionHypothesis =>
    have tail : value (byte :: rest) = byte.toNat * 256 ^ rest.length + value rest := by
      show rest.foldl _ (0 * 256 + byte.toNat) = _
      rw [inductionHypothesis, Nat.zero_mul, Nat.zero_add]
    rw [List.foldl_cons, inductionHypothesis, tail, List.length_cons]
    ring

@[simp] theorem value_nil : value [] = 0 := rfl

theorem value_cons (byte : UInt8) (rest : List UInt8) :
    value (byte :: rest) = byte.toNat * 256 ^ rest.length + value rest := by
  show rest.foldl _ (0 * 256 + byte.toNat) = _
  rw [foldl_eq, Nat.zero_mul, Nat.zero_add]

theorem value_lt (bytes : List UInt8) : value bytes < 256 ^ bytes.length := by
  induction bytes with
  | nil => simp
  | cons byte rest inductionHypothesis =>
    have head : byte.toNat < 256 := byte.toNat_lt
    rw [value_cons, List.length_cons, pow_succ]
    nlinarith [pow_pos (show 0 < 256 by norm_num) rest.length]

/-- Reading inverts writing, up to the bytes that were kept. -/
theorem value_digits (width number : Nat) : value (digits width number) = number % 256 ^ width := by
  induction width with
  | zero => rw [digits, value_nil, pow_zero, Nat.mod_one]
  | succ width inductionHypothesis =>
    rw [digits, value_cons, length_digits, inductionHypothesis, UInt8.toNat_ofNat',
      pow_succ 256 width, Nat.mod_mul]
    ring

theorem value_digits_of_lt {width number : Nat} (small : number < 256 ^ width) :
    value (digits width number) = number := by
  rw [value_digits, Nat.mod_eq_of_lt small]

/-- Only the low bytes of a number are written. -/
theorem digits_mul_add (width high low : Nat) :
    digits width (high * 256 ^ width + low) = digits width low := by
  induction width generalizing high with
  | zero => rfl
  | succ width inductionHypothesis =>
    have shifted : high * 256 ^ (width + 1) + low = high * 256 * 256 ^ width + low := by ring
    rw [digits, digits, shifted, inductionHypothesis, Nat.add_comm,
      Nat.add_mul_div_right _ _ (by positivity)]
    congr 1
    refine UInt8.toNat_inj.mp ?_
    rw [UInt8.toNat_ofNat', UInt8.toNat_ofNat']
    omega

/-- Writing inverts reading. -/
theorem digits_value (bytes : List UInt8) : digits bytes.length (value bytes) = bytes := by
  induction bytes with
  | nil => rfl
  | cons byte rest inductionHypothesis =>
    rw [value_cons, List.length_cons, digits, digits_mul_add, inductionHypothesis, Nat.add_comm,
      Nat.add_mul_div_right _ _ (by positivity), Nat.div_eq_of_lt (value_lt rest), Nat.zero_add,
      UInt8.ofNat_toNat]

end BigEndian
