/-
This file is a small library of queues in an array that is read around its end.

A buffer has a fixed number of slots, the slot of its first item and the number of its items, which
is never larger than the number of slots. Its contents are the items from the first slot on, around
the end of the array. A new item goes behind the contents, and the first one is read off the front.
-/

import Mathlib.Data.List.Basic
import Mathlib.Logic.Function.Basic

namespace Ring

/-- A queue in an array of a given size. -/
structure Buffer (Item : Type) (size : Nat) where
  slots : Fin size → Item
  head : Fin size
  count : Nat
  fits : count ≤ size

variable {Item : Type} {size : Nat}

namespace Buffer

/-- The slot at a distance from the first one. -/
def slot (buffer : Buffer Item size) (distance : Nat) : Fin size :=
  ⟨(buffer.head + distance) % size, Nat.mod_lt _ buffer.head.pos⟩

/-- The first item, if there is one. -/
def front (buffer : Buffer Item size) : Item := buffer.slots buffer.head

/-- Write an item behind the others. -/
def push (buffer : Buffer Item size) (item : Item) (room : buffer.count < size) :
    Buffer Item size where
  slots := Function.update buffer.slots (buffer.slot buffer.count) item
  head := buffer.head
  count := buffer.count + 1
  fits := room

/-- Leave the first item behind. -/
def pop (buffer : Buffer Item size) (filled : buffer.count ≠ 0) : Buffer Item size where
  slots := buffer.slots
  head := buffer.slot 1
  count := buffer.count - 1
  fits := Nat.le_trans (Nat.le_of_lt (Nat.sub_one_lt filled)) buffer.fits

/-- The items in their order. -/
def contents (buffer : Buffer Item size) : List Item :=
  (List.range buffer.count).map fun distance => buffer.slots (buffer.slot distance)

theorem contents_eq_nil {buffer : Buffer Item size} (empty : buffer.count = 0) :
    buffer.contents = [] := by
  rw [contents, empty]
  rfl

/-- Slots at different distances are different. -/
theorem slot_ne (buffer : Buffer Item size) {first second : Nat} (before : first < second)
    (inside : second < size) : buffer.slot first ≠ buffer.slot second := by
  intro same
  have equal : (buffer.head + first) % size = (buffer.head + second) % size :=
    congrArg Fin.val same
  have short : buffer.head.val < size := buffer.head.isLt
  rcases Nat.lt_or_ge (buffer.head + first) size with left | left
  · rw [Nat.mod_eq_of_lt left] at equal
    rcases Nat.lt_or_ge (buffer.head + second) size with right | right
    · rw [Nat.mod_eq_of_lt right] at equal
      omega
    · rw [Nat.mod_eq_sub_mod right, Nat.mod_eq_of_lt (by omega)] at equal
      omega
  · rw [Nat.mod_eq_sub_mod left, Nat.mod_eq_sub_mod (by omega : size ≤ buffer.head + second),
      Nat.mod_eq_of_lt (by omega), Nat.mod_eq_of_lt (by omega)] at equal
    omega

theorem contents_push (buffer : Buffer Item size) (item : Item) (room : buffer.count < size) :
    (buffer.push item room).contents = buffer.contents ++ [item] := by
  show (List.range (buffer.count + 1)).map
      (fun distance => Function.update buffer.slots (buffer.slot buffer.count) item
        (buffer.slot distance)) = _
  rw [List.range_succ, List.map_append, List.map_singleton, Function.update_self]
  refine congrArg (· ++ [item]) (List.map_congr_left fun distance member => ?_)
  exact Function.update_of_ne (buffer.slot_ne (List.mem_range.mp member) room) _ _

theorem contents_pop (buffer : Buffer Item size) (filled : buffer.count ≠ 0) :
    buffer.contents = buffer.front :: (buffer.pop filled).contents := by
  obtain ⟨count, more⟩ := Nat.exists_eq_succ_of_ne_zero filled
  have first : buffer.slot 0 = buffer.head :=
    Fin.ext (Nat.mod_eq_of_lt buffer.head.isLt)
  have next : ∀ distance, buffer.slot (distance + 1) = (buffer.pop filled).slot distance := by
    intro distance
    refine Fin.ext ?_
    show (buffer.head + (distance + 1)) % size = ((buffer.head + 1) % size + distance) % size
    rw [Nat.mod_add_mod, Nat.add_right_comm, Nat.add_assoc]
  have rest : (buffer.pop filled).contents =
      (List.range count).map fun distance => buffer.slots ((buffer.pop filled).slot distance) := by
    show (List.range (buffer.count - 1)).map _ = _
    rw [more]
    rfl
  rw [rest, contents, more, List.range_succ_eq_map, List.map_cons, List.map_map, first]
  refine congrArg (buffer.front :: ·) (List.map_congr_left fun distance _ => ?_)
  exact congrArg buffer.slots (next distance)

end Buffer

end Ring
