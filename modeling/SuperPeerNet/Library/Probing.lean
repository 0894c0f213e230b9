/-
This file is a small library about open-addressed tables with linear probing.

A walk for a key starts at the home of the key and goes on from slot to slot, around the end of the
table, until it meets the key or a free slot. In a table that is not full it ends within one round,
at the key if the key is stored and at the slot where it belongs if it is not. What makes this true
is that no slot between the home of a stored key and its own slot is ever free.
-/

import Mathlib.Data.List.Basic
import Mathlib.Data.Nat.Find

namespace Probing

variable {Key : Type} [DecidableEq Key]

/-- Where a walk ends. -/
inductive Landing where
  | stored
  | free (position : Nat)
  deriving DecidableEq

/-- The walk for a key over slots, with a bound on the slots that it looks at. There is no result if
it leaves the table or goes on for longer. -/
def walk (next : Nat → Nat) (slots : List (Option Key)) (wanted : Key) : Nat → Nat → Option Landing
  | 0, _ => none
  | steps + 1, position =>
    match slots[position]? with
    | none => none
    | some none => some (.free position)
    | some (some key) => if key = wanted then some .stored else walk next slots wanted steps
        (next position)

/-- The slot at a distance from a home. -/
def slotAt (slots : List (Option Key)) (start distance : Nat) : Option (Option Key) :=
  slots[(start + distance) % slots.length]?

/-- A table of keys: each key has one slot, and no slot between its home and that slot is free. -/
structure Holds (home : Key → Nat) (slots : List (Option Key)) (keys : List Key) : Prop where
  stored : ∀ key, key ∈ keys ↔ some key ∈ slots
  reached : ∀ position key, slots[position]? = some (some key) →
    ∃ distance < slots.length, position = (home key + distance) % slots.length ∧
      ∀ earlier < distance, slotAt slots (home key) earlier ≠ some none
  count : slots.countP Option.isSome = keys.length

variable {home : Key → Nat} {next : Nat → Nat} {slots : List (Option Key)} {keys : List Key}
  {wanted : Key}

omit [DecidableEq Key] in
theorem holds_blank (home : Key → Nat) (size : Nat) : Holds home (List.replicate size none) [] where
  stored := fun key => by simp [List.mem_replicate]
  reached := by
    intro position key found
    have member := List.eq_of_mem_replicate (List.mem_of_getElem? found)
    cases member
  count := by rw [List.countP_replicate, if_neg (by simp), List.length_nil]

omit [DecidableEq Key] in
/-- A table with fewer keys than slots has a free slot within one round from anywhere. -/
theorem Holds.free (holds : Holds home slots keys) (room : keys.length < slots.length)
    (start : Nat) : ∃ distance < slots.length, slotAt slots start distance = some none := by
  obtain ⟨position, inside, empty⟩ : ∃ position, ∃ inside : position < slots.length,
      slots[position] = none := by
    by_contra full
    push Not at full
    have all : slots.countP Option.isSome = slots.length := by
      refine List.countP_eq_length.mpr fun slot member => ?_
      obtain ⟨position, inside, rfl⟩ := List.getElem_of_mem member
      exact Option.isSome_iff_ne_none.mpr (full position inside)
    have count := holds.count
    omega
  have positive : 0 < slots.length := by omega
  refine ⟨(position + slots.length - start % slots.length) % slots.length,
    Nat.mod_lt _ positive, ?_⟩
  have around : (start + (position + slots.length - start % slots.length) % slots.length) %
      slots.length = position := by
    have below := Nat.mod_lt start positive
    have whole : start % slots.length + (position + slots.length - start % slots.length) =
        position + slots.length := by omega
    rw [Nat.add_mod_mod, ← Nat.mod_add_mod, whole, Nat.add_mod_right, Nat.mod_eq_of_lt inside]
  rw [slotAt, around, List.getElem?_eq_getElem inside, empty]

/-- The walk passes slots that are taken by other keys. -/
theorem walk_passes (following : ∀ position < slots.length,
    next position = (position + 1) % slots.length) (positive : 0 < slots.length) (start : Nat)
    {distance : Nat} (taken : ∀ earlier < distance, ∃ key ≠ wanted,
      slotAt slots start earlier = some (some key)) (steps : Nat) :
    walk next slots wanted (distance + steps) (start % slots.length) =
      walk next slots wanted steps ((start + distance) % slots.length) := by
  induction distance generalizing steps with
  | zero => rw [Nat.zero_add, Nat.add_zero]
  | succ distance inductionHypothesis =>
    have earlier := inductionHypothesis
      (fun earlier before => taken earlier (Nat.lt_succ_of_lt before)) (steps + 1)
    obtain ⟨key, other, slot⟩ := taken distance (Nat.lt_succ_self distance)
    have shifted : (start + distance) % slots.length < slots.length := Nat.mod_lt _ positive
    rw [show distance + 1 + steps = distance + (steps + 1) by omega, earlier, walk,
      show slots[(start + distance) % slots.length]? = some (some key) from slot]
    dsimp only
    rw [if_neg other, following _ shifted, Nat.mod_add_mod, Nat.add_assoc]

/-- What a walk for a key finds in a table. -/
inductive Found (home : Key → Nat) (slots : List (Option Key)) (keys : List Key) (wanted : Key) :
    Option Landing → Prop
  | stored (member : wanted ∈ keys) : Found home slots keys wanted (some .stored)
  | free (new : wanted ∉ keys) (position : Nat) (inside : position < slots.length)
      (holds : Holds home (slots.set position (some wanted)) (wanted :: keys)) :
      Found home slots keys wanted (some (.free position))

omit [DecidableEq Key] in
/-- A new key may be written into the first free slot from its home on. -/
theorem Holds.insert (holds : Holds home slots keys) (positive : 0 < slots.length)
    {distance : Nat} (short : distance < slots.length)
    (taken : ∀ earlier < distance, slotAt slots (home wanted) earlier ≠ some none)
    (empty : slotAt slots (home wanted) distance = some none) :
    Holds home (slots.set ((home wanted + distance) % slots.length) (some wanted))
      (wanted :: keys) := by
  have inside : (home wanted + distance) % slots.length < slots.length := Nat.mod_lt _ positive
  have blank : slots[(home wanted + distance) % slots.length] = none := by
    rw [slotAt, List.getElem?_eq_getElem inside] at empty
    exact Option.some.inj empty
  -- no slot becomes free
  have keeps : ∀ start earlier, slotAt slots start earlier ≠ some none →
      slotAt (slots.set ((home wanted + distance) % slots.length) (some wanted)) start earlier ≠
        some none := by
    intro start earlier used
    unfold slotAt at used ⊢
    rw [List.length_set, List.getElem?_set]
    split
    · exact nofun
    · exact used
  constructor
  · intro key
    rw [List.mem_cons, holds.stored]
    constructor
    · rintro (rfl | old)
      · exact List.mem_set inside _
      · obtain ⟨position, before, same⟩ := List.getElem_of_mem old
        refine List.mem_iff_getElem?.mpr ⟨position, ?_⟩
        rw [List.getElem?_set_ne, List.getElem?_eq_getElem before, same]
        rintro rfl
        rw [blank] at same
        cases same
    · intro member
      rcases List.mem_or_eq_of_mem_set member with old | new
      · exact Or.inr old
      · exact Or.inl (Option.some.inj new)
  · intro position key found
    rw [List.length_set]
    rw [List.getElem?_set] at found
    split at found
    · rename_i same
      obtain rfl := Option.some.inj (Option.some.inj found)
      exact ⟨distance, short, same.symm, fun earlier before => keeps _ _ (taken earlier before)⟩
    · obtain ⟨steps, few, placed, passed⟩ := holds.reached position key found
      exact ⟨steps, few, placed, fun earlier before => keeps _ _ (passed earlier before)⟩
  · rw [List.countP_set inside, blank, holds.count, List.length_cons]
    rfl

/-- In a table that is not full, a walk of one round from the home of a key finds the key exactly
when it is stored, and otherwise the slot that it may be written to. -/
theorem walk_found (holds : Holds home slots keys) (room : keys.length < slots.length)
    (following : ∀ position < slots.length, next position = (position + 1) % slots.length)
    (wanted : Key) :
    Found home slots keys wanted
      (walk next slots wanted slots.length (home wanted % slots.length)) := by
  have positive : 0 < slots.length := by omega
  -- the first slot that is free or holds the key
  have ends : ∃ distance, slotAt slots (home wanted) distance = some none ∨
      slotAt slots (home wanted) distance = some (some wanted) := by
    obtain ⟨distance, -, empty⟩ := holds.free room (home wanted)
    exact ⟨distance, Or.inl empty⟩
  obtain ⟨free, short, empty⟩ := holds.free room (home wanted)
  generalize first : Nat.find ends = distance
  obtain ⟨stops, before⟩ := (Nat.find_eq_iff ends).mp first
  have inside : distance < slots.length := by
    refine lt_of_le_of_lt ?_ short
    rw [← first]
    exact Nat.find_min' ends (Or.inl empty)
  have taken : ∀ earlier < distance, ∃ key ≠ wanted,
      slotAt slots (home wanted) earlier = some (some key) := by
    intro earlier sooner
    have passes := before earlier sooner
    rw [not_or] at passes
    obtain ⟨slot, isSlot⟩ : ∃ slot, slotAt slots (home wanted) earlier = some slot :=
      ⟨_, List.getElem?_eq_getElem (Nat.mod_lt _ positive)⟩
    rw [isSlot] at passes
    cases slot with
    | none => exact absurd rfl passes.1
    | some key => exact ⟨key, fun same => passes.2 (same ▸ rfl), isSlot⟩
  have walked := walk_passes following positive (home wanted) taken (slots.length - distance)
  rw [Nat.add_sub_cancel' (Nat.le_of_lt inside)] at walked
  rw [walked, show slots.length - distance = (slots.length - distance - 1) + 1 by omega, walk]
  rcases stops with blank | present
  · rw [show slots[(home wanted + distance) % slots.length]? = some none from blank]
    have passed : ∀ earlier < distance, slotAt slots (home wanted) earlier ≠ some none := by
      intro earlier sooner
      obtain ⟨key, -, isKey⟩ := taken earlier sooner
      rw [isKey]
      exact nofun
    refine .free ?_ _ (Nat.mod_lt _ positive) (holds.insert positive inside passed blank)
    -- a stored key would have been met before the free slot
    intro member
    obtain ⟨position, found⟩ := List.mem_iff_getElem?.mp ((holds.stored wanted).mp member)
    obtain ⟨steps, -, placed, used⟩ := holds.reached position wanted found
    have atSteps : slotAt slots (home wanted) steps = some (some wanted) := by
      rw [slotAt, ← placed, found]
    rcases lt_trichotomy steps distance with sooner | same | later
    · exact before steps sooner (Or.inr atSteps)
    · rw [← same, atSteps] at blank
      cases blank
    · exact used distance later blank
  · rw [show slots[(home wanted + distance) % slots.length]? = some (some wanted) from present]
    dsimp only
    rw [if_pos rfl]
    exact .stored ((holds.stored wanted).mpr (List.mem_of_getElem? present))

end Probing
