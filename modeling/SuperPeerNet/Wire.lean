/-
This file models `wire.h`: the put and get helpers through which every integer
enters and leaves a message, a log record or a manifest.

The definitions follow the shifts of the source. Their meaning is fixed once by
comparison with the big-endian number format: a put writes the digits of its
word and a get reads the value of its bytes, so a get gives back what a put has
written at every word size, and a put writes back the bytes that a get has read.
-/

import SuperPeerNet.Library.BigEndian

namespace SuperPeerNet

/-! ### The helpers of the source -/

/-- `wire_put_u16`. -/
def wirePutU16 (value : UInt16) : List UInt8 := [(value >>> 8).toUInt8, value.toUInt8]

/-- `wire_get_u16`. -/
def wireGetU16 (source : List UInt8) : UInt16 :=
  ((source.getD 0 0).toUInt16 <<< 8) ||| (source.getD 1 0).toUInt16

/-- `wire_put_u32`. -/
def wirePutU32 (value : UInt32) : List UInt8 :=
  [(value >>> 24).toUInt8, (value >>> 16).toUInt8, (value >>> 8).toUInt8, value.toUInt8]

/-- `wire_get_u32`. -/
def wireGetU32 (source : List UInt8) : UInt32 :=
  ((source.getD 0 0).toUInt32 <<< 24) ||| ((source.getD 1 0).toUInt32 <<< 16) |||
    ((source.getD 2 0).toUInt32 <<< 8) ||| (source.getD 3 0).toUInt32

/-- `wire_put_u64`. -/
def wirePutU64 (value : UInt64) : List UInt8 :=
  (List.range 8).map fun index => (value >>> UInt64.ofNat (56 - index * 8)).toUInt8

/-- `wire_get_u64`. -/
def wireGetU64 (source : List UInt8) : UInt64 :=
  (source.take 8).foldl (fun value byte => (value <<< 8) ||| byte.toUInt64) 0

/-! ### Their meaning as big-endian numbers -/

@[simp] theorem length_wirePutU16 (value : UInt16) : (wirePutU16 value).length = 2 := rfl

@[simp] theorem length_wirePutU32 (value : UInt32) : (wirePutU32 value).length = 4 := rfl

@[simp] theorem length_wirePutU64 (value : UInt64) : (wirePutU64 value).length = 8 := by
  rw [wirePutU64, List.length_map, List.length_range]

theorem wirePutU16_eq_digits (value : UInt16) :
    wirePutU16 value = BigEndian.digits 2 value.toNat := by
  simp only [wirePutU16, BigEndian.digits, List.cons.injEq, and_true]
  refine ⟨UInt8.toNat_inj.mp ?_, UInt8.toNat_inj.mp ?_⟩ <;>
    simp [Nat.shiftRight_eq_div_pow]

theorem wirePutU32_eq_digits (value : UInt32) :
    wirePutU32 value = BigEndian.digits 4 value.toNat := by
  simp only [wirePutU32, BigEndian.digits, List.cons.injEq, and_true]
  refine ⟨UInt8.toNat_inj.mp ?_, UInt8.toNat_inj.mp ?_, UInt8.toNat_inj.mp ?_,
    UInt8.toNat_inj.mp ?_⟩ <;>
    simp [Nat.shiftRight_eq_div_pow]

theorem wirePutU64_eq_digits (value : UInt64) :
    wirePutU64 value = BigEndian.digits 8 value.toNat := by
  simp only [wirePutU64, List.range, List.range.loop, List.map, BigEndian.digits,
    List.cons.injEq, and_true]
  refine ⟨?_, ?_, ?_, ?_, ?_, ?_, ?_, ?_⟩ <;> refine UInt8.toNat_inj.mp ?_ <;>
    simp [Nat.shiftRight_eq_div_pow]

/-- Shifting a number left and filling the freed bits is a multiplication and an addition. -/
theorem shiftLeft_or_eq (high low shift : Nat) (small : low < 2 ^ shift) :
    high <<< shift ||| low = high * 2 ^ shift + low := by
  rw [← Nat.shiftLeft_add_eq_or_of_lt small, Nat.shiftLeft_eq]

theorem toNat_wireGetU16 (first second : UInt8) (rest : List UInt8) :
    (wireGetU16 (first :: second :: rest)).toNat = BigEndian.value [first, second] := by
  have firstLt := first.toNat_lt
  have secondLt := second.toNat_lt
  simp only [wireGetU16, List.getD_cons_zero, List.getD_cons_succ, UInt16.toNat_or,
    UInt16.toNat_shiftLeft, UInt8.toNat_toUInt16, BigEndian.value, List.foldl,
    show (8 : UInt16).toNat % 16 = 8 from rfl]
  rw [Nat.mod_eq_of_lt (by rw [Nat.shiftLeft_eq]; omega), shiftLeft_or_eq _ _ _ (by omega)]
  omega

theorem toNat_wireGetU32 (first second third fourth : UInt8) (rest : List UInt8) :
    (wireGetU32 (first :: second :: third :: fourth :: rest)).toNat =
      BigEndian.value [first, second, third, fourth] := by
  have firstLt := first.toNat_lt
  have secondLt := second.toNat_lt
  have thirdLt := third.toNat_lt
  have fourthLt := fourth.toNat_lt
  simp only [wireGetU32, List.getD_cons_zero, List.getD_cons_succ, UInt32.toNat_or,
    UInt32.toNat_shiftLeft, UInt8.toNat_toUInt32, BigEndian.value, List.foldl,
    show (24 : UInt32).toNat % 32 = 24 from rfl, show (16 : UInt32).toNat % 32 = 16 from rfl,
    show (8 : UInt32).toNat % 32 = 8 from rfl]
  rw [Nat.mod_eq_of_lt (a := first.toNat <<< 24) (by rw [Nat.shiftLeft_eq]; omega),
    Nat.mod_eq_of_lt (a := second.toNat <<< 16) (by rw [Nat.shiftLeft_eq]; omega),
    Nat.mod_eq_of_lt (a := third.toNat <<< 8) (by rw [Nat.shiftLeft_eq]; omega),
    shiftLeft_or_eq first.toNat _ 24 (by rw [Nat.shiftLeft_eq]; omega)]
  -- Each further byte fills the bits below those already in place.
  have second16 : first.toNat * 2 ^ 24 + second.toNat <<< 16 =
      (first.toNat * 2 ^ 8 + second.toNat) <<< 16 := by
    rw [Nat.shiftLeft_eq, Nat.shiftLeft_eq]; ring
  rw [second16, shiftLeft_or_eq _ _ 16 (by rw [Nat.shiftLeft_eq]; omega)]
  have third8 : (first.toNat * 2 ^ 8 + second.toNat) * 2 ^ 16 + third.toNat <<< 8 =
      ((first.toNat * 2 ^ 8 + second.toNat) * 2 ^ 8 + third.toNat) <<< 8 := by
    rw [Nat.shiftLeft_eq, Nat.shiftLeft_eq]; ring
  rw [third8, shiftLeft_or_eq _ _ 8 (by omega)]
  ring

/-- One turn of the `wire_get_u64` loop appends a byte, modulo the word size. -/
theorem toNat_shiftLeft_or_byte (value : UInt64) (byte : UInt8) :
    ((value <<< 8) ||| byte.toUInt64).toNat = (value.toNat * 256 + byte.toNat) % 2 ^ 64 := by
  have byteLt := byte.toNat_lt
  have dropped : value.toNat <<< 8 % 2 ^ 64 = (value.toNat % 2 ^ 56) <<< 8 := by
    rw [Nat.shiftLeft_eq, Nat.shiftLeft_eq]; omega
  have amount : (8 : UInt64).toNat % 64 = 8 := rfl
  rw [UInt64.toNat_or, UInt64.toNat_shiftLeft, UInt8.toNat_toUInt64, amount, dropped,
    shiftLeft_or_eq _ _ _ byteLt]
  omega

theorem toNat_foldl_shiftLeft (bytes : List UInt8) (value : UInt64) :
    (bytes.foldl (fun (value : UInt64) byte => (value <<< 8) ||| byte.toUInt64) value).toNat =
      (value.toNat * 256 ^ bytes.length + BigEndian.value bytes) % 2 ^ 64 := by
  induction bytes generalizing value with
  | nil => simp [Nat.mod_eq_of_lt value.toNat_lt]
  | cons byte rest inductionHypothesis =>
    rw [List.foldl_cons, inductionHypothesis, toNat_shiftLeft_or_byte, BigEndian.value_cons,
      List.length_cons, pow_succ, Nat.add_mod, Nat.mod_mul_mod, ← Nat.add_mod]
    congr 1
    ring

theorem toNat_wireGetU64 {bytes : List UInt8} (size : bytes.length = 8) (rest : List UInt8) :
    (wireGetU64 (bytes ++ rest)).toNat = BigEndian.value bytes := by
  rw [wireGetU64, List.take_left' size, toNat_foldl_shiftLeft, UInt64.toNat_zero, Nat.zero_mul,
    Nat.zero_add]
  refine Nat.mod_eq_of_lt ?_
  have bound := BigEndian.value_lt bytes
  rw [size] at bound
  exact bound

/-- Only the first bytes are read. -/
theorem wireGetU64_append {source : List UInt8} (enough : 8 ≤ source.length) (rest : List UInt8) :
    wireGetU64 (source ++ rest) = wireGetU64 source := by
  rw [wireGetU64, wireGetU64, List.take_append_of_le_length enough]

theorem getD_take_one (source : List UInt8) : (source.take 1).getD 0 0 = source.getD 0 0 := by
  cases source <;> rfl

theorem getD_drop_zero (source : List UInt8) (position : Nat) :
    (source.drop position).getD 0 0 = source.getD position 0 := by
  rw [List.getD_eq_getElem?_getD, List.getD_eq_getElem?_getD, List.getElem?_drop, Nat.add_zero]

theorem wireGetU16_take (source : List UInt8) : wireGetU16 (source.take 2) = wireGetU16 source := by
  match source with
  | [] | [_] | _ :: _ :: _ => rfl

theorem wireGetU32_take (source : List UInt8) : wireGetU32 (source.take 4) = wireGetU32 source := by
  match source with
  | [] | [_] | [_, _] | [_, _, _] | _ :: _ :: _ :: _ :: _ => rfl

theorem wireGetU64_take (source : List UInt8) : wireGetU64 (source.take 8) = wireGetU64 source := by
  rw [wireGetU64, List.take_take, Nat.min_self]
  rfl

/-! ### Round trips -/

@[simp] theorem wireGetU16_wirePutU16 (value : UInt16) (rest : List UInt8) :
    wireGetU16 (wirePutU16 value ++ rest) = value := by
  refine UInt16.toNat_inj.mp ?_
  rw [wirePutU16, List.cons_append, List.cons_append, toNat_wireGetU16]
  rw [show [(value >>> 8).toUInt8, value.toUInt8] = wirePutU16 value from rfl,
    wirePutU16_eq_digits, BigEndian.value_digits_of_lt value.toNat_lt]

@[simp] theorem wireGetU32_wirePutU32 (value : UInt32) (rest : List UInt8) :
    wireGetU32 (wirePutU32 value ++ rest) = value := by
  refine UInt32.toNat_inj.mp ?_
  simp only [wirePutU32, List.cons_append, toNat_wireGetU32]
  rw [show [(value >>> 24).toUInt8, (value >>> 16).toUInt8, (value >>> 8).toUInt8,
    value.toUInt8] = wirePutU32 value from rfl, wirePutU32_eq_digits,
    BigEndian.value_digits_of_lt value.toNat_lt]

@[simp] theorem wireGetU64_wirePutU64 (value : UInt64) (rest : List UInt8) :
    wireGetU64 (wirePutU64 value ++ rest) = value := by
  refine UInt64.toNat_inj.mp ?_
  rw [toNat_wireGetU64 (length_wirePutU64 value), wirePutU64_eq_digits,
    BigEndian.value_digits_of_lt value.toNat_lt]

/-! ### Writing back what was read -/

theorem wirePutU16_wireGetU16 {source : List UInt8} (enough : 2 ≤ source.length) :
    wirePutU16 (wireGetU16 source) = source.take 2 := by
  match source, enough with
  | first :: second :: rest, _ =>
    rw [wirePutU16_eq_digits, toNat_wireGetU16]
    exact BigEndian.digits_value [first, second]

theorem wirePutU32_wireGetU32 {source : List UInt8} (enough : 4 ≤ source.length) :
    wirePutU32 (wireGetU32 source) = source.take 4 := by
  match source, enough with
  | first :: second :: third :: fourth :: rest, _ =>
    rw [wirePutU32_eq_digits, toNat_wireGetU32]
    exact BigEndian.digits_value [first, second, third, fourth]

theorem wirePutU64_wireGetU64 {source : List UInt8} (enough : 8 ≤ source.length) :
    wirePutU64 (wireGetU64 source) = source.take 8 := by
  have size : (source.take 8).length = 8 := by
    rw [List.length_take]
    omega
  have read := toNat_wireGetU64 size (source.drop 8)
  rw [List.take_append_drop] at read
  rw [wirePutU64_eq_digits, read]
  nth_rewrite 1 [← size]
  exact BigEndian.digits_value (source.take 8)

theorem wirePutU16_toUInt16 (byte : UInt8) : wirePutU16 byte.toUInt16 = [0, byte] := by
  have below := byte.toNat_lt
  rw [wirePutU16, List.cons.injEq, List.cons.injEq]
  refine ⟨UInt8.toNat_inj.mp ?_, UInt8.toNat_inj.mp ?_, rfl⟩
  · simp only [UInt16.toNat_toUInt8, UInt16.toNat_shiftRight, UInt8.toNat_toUInt16,
      Nat.shiftRight_eq_div_pow]
    show byte.toNat / 2 ^ 8 % 2 ^ 8 = 0
    omega
  · rw [UInt16.toNat_toUInt8, UInt8.toNat_toUInt16]
    omega

/-! ### The fields of a source -/

theorem drop_append_drop {first second : List UInt8} {before size : Nat} (source : List UInt8)
    (found : source.drop before = first ++ second) (length : first.length = size) :
    source.drop (before + size) = second := by
  rw [← List.drop_drop, found, List.drop_left' length]

/-- A field and what follows it. -/
theorem drop_eq_take_append {source : List UInt8} (before size : Nat) :
    source.drop before = (source.drop before).take size ++ source.drop (before + size) := by
  rw [← List.drop_drop, List.take_append_drop]

theorem getD_of_drop {source rest : List UInt8} {byte : UInt8} {position : Nat}
    (found : source.drop position = byte :: rest) : source.getD position 0 = byte := by
  have first : (source.drop position)[0]? = some byte := by rw [found]; rfl
  rw [List.getElem?_drop, Nat.add_zero] at first
  rw [List.getD_eq_getElem?_getD, first]
  rfl

end SuperPeerNet
