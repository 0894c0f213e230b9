/-
This file is a small library about a list that is cut into pieces of one size.

All pieces are full except the last one, which holds what is left. The pieces in their
order make the list again, and lists that have the sizes of pieces are the pieces of
what they make. Writing one piece leaves the others, and a list is known from its pieces.
-/

import Mathlib.Data.List.Basic

namespace Pieces

variable {Item : Type}

/-- The piece of a list at an index. -/
def piece (content : List Item) (size index : Nat) : List Item :=
  (content.drop (index * size)).take size

theorem length_piece (content : List Item) (size index : Nat) :
    (piece content size index).length = min size (content.length - index * size) := by
  rw [piece, List.length_take, List.length_drop]

/-- Every place of a list of a given length lies in the piece at one index. -/
theorem existsUnique_piece {length size place : Nat} (positive : 0 < size)
    (inside : place < length) :
    ∃! index, index * size ≤ place ∧ place < index * size + min size (length - index * size) := by
  have below := Nat.div_mul_le_self place size
  have above := Nat.lt_div_mul_add positive (a := place)
  refine ⟨place / size, ⟨below, by omega⟩, ?_⟩
  rintro index ⟨start, stop⟩
  have least : index ≤ place / size := (Nat.le_div_iff_mul_le positive).mpr start
  have most : place / size < index + 1 := by
    refine (Nat.div_lt_iff_lt_mul positive).mpr ?_
    rw [Nat.succ_mul]
    omega
  omega

/-- The first pieces make a prefix of the list. -/
theorem flatten_pieces (content : List Item) (size count : Nat) :
    ((List.range count).map (piece content size)).flatten = content.take (count * size) := by
  induction count with
  | zero =>
    rw [Nat.zero_mul]
    rfl
  | succ count inductionHypothesis =>
    rw [List.range_succ, List.map_append, List.flatten_append, inductionHypothesis,
      Nat.succ_mul, List.take_add]
    simp [piece]

/-- The pieces after the first one are the pieces of what follows it. -/
theorem piece_succ (first rest : List Item) (index : Nat) :
    piece (first ++ rest) first.length (index + 1) = piece rest first.length index := by
  rw [piece, piece, Nat.succ_mul, Nat.add_comm, ← List.drop_drop, List.drop_left]

/-- Lists without an empty one that have the sizes of pieces are as many as the pieces of what they
make, and each of them is the piece at its index. -/
theorem eq_pieces {size : Nat} {lists : List (List Item)} {content : List Item}
    (made : lists.flatten = content) (full : ∀ list ∈ lists, list ≠ [])
    (lengths : ∀ (index : Nat) (list : List Item), lists[index]? = some list →
      index * size < content.length → list.length = min size (content.length - index * size)) :
    (∀ index, index < lists.length ↔ index * size < content.length) ∧
      ∀ (index : Nat) (list : List Item), lists[index]? = some list →
        list = piece content size index := by
  induction lists generalizing content with
  | nil =>
    subst made
    exact ⟨fun index => by simp, fun _ _ absent => by cases absent⟩
  | cons first rest inductionHypothesis =>
    subst made
    have nonempty := List.length_pos_iff.mpr (full first List.mem_cons_self)
    have firstLength := lengths 0 first rfl (by
      rw [Nat.zero_mul, List.flatten_cons, List.length_append]
      omega)
    rw [Nat.zero_mul, Nat.sub_zero, List.flatten_cons, List.length_append] at firstLength
    have restFull : ∀ list ∈ rest, list ≠ [] :=
      fun list member => full list (List.mem_cons_of_mem _ member)
    rcases Nat.lt_or_ge first.length size with short | enough
    · -- A piece that is not full is the last one.
      have nothing : rest.flatten = [] := List.length_eq_zero_iff.mp (by omega)
      have last : rest = [] := by
        by_contra more
        obtain ⟨list, member⟩ := List.exists_mem_of_ne_nil _ more
        exact restFull list member (List.flatten_eq_nil_iff.mp nothing list member)
      subst last
      refine ⟨fun index => ?_, fun index list found => ?_⟩
      · cases index with
        | zero => simpa using nonempty
        | succ index =>
          have far : first.length ≤ (index + 1) * size := by
            rw [Nat.succ_mul]
            omega
          simp only [List.length_singleton, List.flatten_cons, List.flatten_nil, List.append_nil]
          omega
      · cases index with
        | zero =>
          cases found
          simp [piece, List.take_of_length_le (Nat.le_of_lt short)]
        | succ index => cases found
    · obtain rfl : first.length = size := by omega
      obtain ⟨counts, same⟩ := inductionHypothesis rfl restFull fun index list found inside => by
        have length := lengths (index + 1) list found (by
          rw [Nat.succ_mul, List.flatten_cons, List.length_append]
          omega)
        rw [length, List.flatten_cons, List.length_append, Nat.succ_mul]
        omega
      refine ⟨fun index => ?_, fun index list found => ?_⟩
      · cases index with
        | zero =>
          simp only [List.length_cons, Nat.zero_mul, List.flatten_cons, List.length_append]
          omega
        | succ index =>
          have before := counts index
          rw [List.length_cons, Nat.succ_mul, List.flatten_cons, List.length_append]
          omega
      · cases index with
        | zero =>
          cases found
          simp [piece]
        | succ index => rw [List.flatten_cons, piece_succ, same index list found]

/-- A list is known from its length and its pieces. -/
theorem eq_of_pieces {size : Nat} (positive : 0 < size) {first second : List Item}
    (lengths : first.length = second.length)
    (same : ∀ index, index * size < second.length →
      piece first size index = piece second size index) : first = second := by
  have all : ∀ index, piece first size index = piece second size index := by
    intro index
    by_cases inside : index * size < second.length
    · exact same index inside
    · rw [piece, piece, List.drop_of_length_le (by omega), List.drop_of_length_le (by omega)]
  have whole : ∀ list : List Item, list.length = second.length →
      ((List.range second.length).map (piece list size)).flatten = list := by
    intro list length
    rw [flatten_pieces, List.take_of_length_le]
    rw [length]
    exact Nat.le_mul_of_pos_right _ positive
  calc first
      = ((List.range second.length).map (piece first size)).flatten := (whole first lengths).symm
    _ = ((List.range second.length).map (piece second size)).flatten :=
        congrArg List.flatten (List.map_congr_left fun index _ => all index)
    _ = second := whole second rfl

/-! ### Writing into a list -/

/-- A list with other items in a place of it. -/
def overwrite (content : List Item) (offset : Nat) (items : List Item) : List Item :=
  content.take offset ++ items ++ content.drop (offset + items.length)

theorem length_overwrite {content items : List Item} {offset : Nat}
    (inside : offset + items.length ≤ content.length) :
    (overwrite content offset items).length = content.length := by
  rw [overwrite, List.length_append, List.length_append, List.length_take, List.length_drop]
  omega

/-- What is written is there. -/
theorem take_drop_overwrite {content : List Item} (items : List Item) {offset : Nat}
    (inside : offset ≤ content.length) :
    ((overwrite content offset items).drop offset).take items.length = items := by
  rw [overwrite, List.append_assoc, List.drop_left' (List.length_take_of_le inside),
    List.take_left]

/-- The items outside of the place are those of the list. -/
theorem getElem?_overwrite {content items : List Item} {offset place : Nat}
    (inside : offset ≤ content.length)
    (outside : place < offset ∨ offset + items.length ≤ place) :
    (overwrite content offset items)[place]? = content[place]? := by
  have length := List.length_take_of_le inside
  rw [overwrite, List.append_assoc]
  rcases outside with before | after
  · rw [List.getElem?_append_left (by omega), List.getElem?_take_of_lt before]
  · rw [List.getElem?_append_right (by omega), List.getElem?_append_right (by omega),
      List.getElem?_drop, length]
    congr 1
    omega

/-- Writing inside one piece leaves the other pieces. -/
theorem piece_overwrite_other {content items : List Item} {size index other : Nat}
    (different : other ≠ index) (small : items.length ≤ size)
    (inside : index * size ≤ content.length) :
    piece (overwrite content (index * size) items) size other = piece content size other := by
  refine List.ext_getElem? fun place => ?_
  rw [piece, piece]
  by_cases within : place < size
  · rw [List.getElem?_take_of_lt within, List.getElem?_take_of_lt within, List.getElem?_drop,
      List.getElem?_drop]
    refine getElem?_overwrite inside ?_
    rcases Nat.lt_or_gt_of_ne different with below | above
    · have bound := Nat.mul_le_mul_right size (Nat.succ_le_of_lt below)
      rw [Nat.succ_mul] at bound
      omega
    · have bound := Nat.mul_le_mul_right size (Nat.succ_le_of_lt above)
      rw [Nat.succ_mul] at bound
      omega
  · rw [List.getElem?_take_eq_none (Nat.le_of_not_lt within),
      List.getElem?_take_eq_none (Nat.le_of_not_lt within)]

/-- A piece that is written is there. -/
theorem piece_overwrite_self {content items : List Item} {size index : Nat}
    (inside : index * size ≤ content.length)
    (length : items.length = min size (content.length - index * size)) :
    piece (overwrite content (index * size) items) size index = items := by
  have written := take_drop_overwrite items inside
  have whole : (overwrite content (index * size) items).length = content.length :=
    length_overwrite (by omega)
  rcases Nat.lt_or_ge items.length size with short | full
  · rw [piece, List.take_of_length_le (by rw [List.length_drop, whole]; omega)]
    rw [List.take_of_length_le (by rw [List.length_drop, whole]; omega)] at written
    exact written
  · obtain rfl : items.length = size := by omega
    exact written

end Pieces
