/-
This file is a small library of registers that keep the greatest value they are
offered, where a held value may refuse some of the values above it.

Without refusals such a register is a maximum, and the order of the offers does not
matter. A refusal breaks this: a value that refuses a greater one keeps its place when
it comes first and loses it when it comes second. The two rules below say when a
register with refusals still ends with a value that depends on the set of offers only:
when the value at the start refuses every offer, or when no value that the register
can come to hold refuses the greatest one.
-/

import Mathlib.Order.Lattice

namespace Register

variable {Value Key : Type} [LinearOrder Key] (key : Value → Key)
  (refuses : Value → Value → Prop) [DecidableRel refuses]

/-- Offer a value to a register. -/
def offer (held : Option Value) (value : Value) : Option Value :=
  match held with
  | none => some value
  | some old => if key old < key value ∧ ¬ refuses old value then some value else some old

variable {key refuses}

/-- A value that refuses every offer stays. -/
theorem foldl_offer_of_refused {old : Value} {offers : List Value}
    (refused : ∀ value ∈ offers, refuses old value) :
    offers.foldl (offer key refuses) (some old) = some old := by
  induction offers with
  | nil => rfl
  | cons value rest inductionHypothesis =>
    have kept : offer key refuses (some old) value = some old := by
      unfold offer
      exact if_neg fun taken => taken.2 (refused value List.mem_cons_self)
    rw [List.foldl_cons, kept]
    exact inductionHypothesis fun other member => refused other (List.mem_cons_of_mem _ member)

/-- The values that a register can come to hold: the one it starts with, and the offers above
that one. -/
def Holdable (key : Value → Key) (start : Option Value) (offers : List Value) (value : Value) :
    Prop :=
  start = some value ∨ value ∈ offers ∧ ∀ old, start = some old → key old < key value

omit [DecidableRel refuses] in
theorem Holdable.cons {start : Option Value} {head value : Value} {rest : List Value}
    (holdable : Holdable key start rest value) : Holdable key start (head :: rest) value := by
  rcases holdable with first | ⟨member, above⟩
  · exact Or.inl first
  · exact Or.inr ⟨List.mem_cons_of_mem _ member, above⟩

/-- After an offer, the register can come to hold only what it could hold before. -/
theorem Holdable.of_offer {start : Option Value} {head value : Value} {rest : List Value}
    (holdable : Holdable key (offer key refuses start head) rest value) :
    Holdable key start (head :: rest) value := by
  cases start with
  | none =>
    refine Or.inr ⟨?_, fun _ absent => by cases absent⟩
    rcases holdable with first | ⟨member, -⟩
    · cases first
      exact List.mem_cons_self
    · exact List.mem_cons_of_mem _ member
  | some old =>
    unfold offer at holdable
    simp only at holdable
    split at holdable
    · rename_i taken
      refine Or.inr ?_
      rcases holdable with first | ⟨member, above⟩
      · cases first
        exact ⟨List.mem_cons_self, fun other same => by cases same; exact taken.1⟩
      · exact ⟨List.mem_cons_of_mem _ member, fun other same => by
          cases same
          exact lt_trans taken.1 (above head rfl)⟩
    · exact holdable.cons

/-- A register that is offered a value of the greatest key, or starts with one, ends with a value
of that key, when nothing it can come to hold refuses such a value. -/
theorem foldl_offer_key {start : Option Value} {offers : List Value} {best : Key}
    (startBelow : ∀ old, start = some old → key old ≤ best)
    (below : ∀ value ∈ offers, key value ≤ best)
    (attained : (∃ old, start = some old ∧ key old = best) ∨ ∃ value ∈ offers, key value = best)
    (yields : ∀ held, Holdable key start offers held → ∀ value ∈ offers, key value = best →
      refuses held value → key held = best) :
    (offers.foldl (offer key refuses) start).map key = some best := by
  induction offers generalizing start with
  | nil =>
    rcases attained with ⟨old, rfl, same⟩ | ⟨value, member, -⟩
    · exact congrArg some same
    · cases member
  | cons head rest inductionHypothesis =>
    rw [List.foldl_cons]
    have headBelow := below head List.mem_cons_self
    refine inductionHypothesis ?_ (fun value member => below value (List.mem_cons_of_mem _ member))
      ?_ ?_
    · intro old same
      cases start with
      | none =>
        cases same
        exact headBelow
      | some first =>
        unfold offer at same
        simp only at same
        split at same
        · cases same
          exact headBelow
        · cases same
          exact startBelow _ rfl
    · rcases attained with ⟨old, rfl, same⟩ | ⟨value, member, same⟩
      · -- Nothing is above the key at the start, so the offer is not taken.
        refine Or.inl ⟨old, ?_, same⟩
        unfold offer
        refine if_neg fun taken => ?_
        rw [same] at taken
        exact absurd taken.1 (not_lt.mpr headBelow)
      · rcases List.mem_cons.mp member with rfl | inRest
        · left
          cases start with
          | none => exact ⟨value, rfl, same⟩
          | some old =>
            unfold offer
            simp only
            split
            · exact ⟨value, rfl, same⟩
            · rename_i kept
              refine ⟨old, rfl, ?_⟩
              by_contra different
              have lower : key old < key value := by
                rw [same]
                exact lt_of_le_of_ne (startBelow old rfl) different
              refine different (yields old (Or.inl rfl) value List.mem_cons_self same ?_)
              by_contra accepts
              exact kept ⟨lower, accepts⟩
        · exact Or.inr ⟨value, inRest, same⟩
    · intro held holdable value member same
      exact yields held holdable.of_offer value (List.mem_cons_of_mem _ member) same

end Register
