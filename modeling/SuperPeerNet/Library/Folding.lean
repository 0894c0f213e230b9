/-
This file is a small library about sequences of actions that commute and that change
nothing when they are repeated.

What such a sequence leads to depends on the set of its actions only: an action can be
moved to any place in the sequence, and beside another copy of itself it disappears.
The rules hold for every type of states and actions, and the two laws are asked of the
actions that the sequences take, in every state.
-/

import Mathlib.Data.List.Basic

namespace Folding

variable {State Action : Type} {step : State → Action → State} {known : Action → Prop}

section Laws

variable (commute : ∀ first second, known first → known second → ∀ state,
    step (step state first) second = step (step state second) first)
  (absorb : ∀ action, known action → ∀ state, step (step state action) action = step state action)

include commute

/-- An action moves over a sequence. -/
theorem foldl_step {action : Action} (isKnown : known action) {actions : List Action}
    (allKnown : ∀ other ∈ actions, known other) (state : State) :
    actions.foldl step (step state action) = step (actions.foldl step state) action := by
  induction actions generalizing state with
  | nil => rfl
  | cons head rest inductionHypothesis =>
    rw [List.foldl_cons, List.foldl_cons,
      commute action head isKnown (allKnown head List.mem_cons_self)]
    exact inductionHypothesis (fun other member => allKnown other (List.mem_cons_of_mem _ member)) _

/-- Two sequences can change places. -/
theorem foldl_foldl_comm {first second : List Action} (firstKnown : ∀ action ∈ first, known action)
    (secondKnown : ∀ action ∈ second, known action) (state : State) :
    second.foldl step (first.foldl step state) = first.foldl step (second.foldl step state) := by
  induction first generalizing state with
  | nil => rfl
  | cons head rest inductionHypothesis =>
    rw [List.foldl_cons, List.foldl_cons, inductionHypothesis
      (fun action member => firstKnown action (List.mem_cons_of_mem _ member)),
      foldl_step commute (firstKnown head List.mem_cons_self) secondKnown]

include absorb

/-- An action of a sequence can be taken once more before it. -/
theorem foldl_absorb {action : Action} {actions : List Action} (member : action ∈ actions)
    (allKnown : ∀ other ∈ actions, known other) (state : State) :
    actions.foldl step (step state action) = actions.foldl step state := by
  induction actions generalizing state with
  | nil => cases member
  | cons head rest inductionHypothesis =>
    have restKnown : ∀ other ∈ rest, known other :=
      fun other inside => allKnown other (List.mem_cons_of_mem _ inside)
    have headKnown := allKnown head List.mem_cons_self
    rw [List.foldl_cons, List.foldl_cons]
    rcases List.mem_cons.mp member with rfl | inRest
    · rw [absorb action headKnown]
    · rw [commute action head (allKnown action member) headKnown]
      exact inductionHypothesis inRest restKnown _

/-- A sequence can be taken after any actions of its own. -/
theorem foldl_absorb_foldl {first second : List Action} (inside : ∀ action ∈ first, action ∈ second)
    (allKnown : ∀ action ∈ second, known action) (state : State) :
    second.foldl step (first.foldl step state) = second.foldl step state := by
  induction first generalizing state with
  | nil => rfl
  | cons head rest inductionHypothesis =>
    rw [List.foldl_cons, inductionHypothesis
      (fun action member => inside action (List.mem_cons_of_mem _ member)),
      foldl_absorb commute absorb (inside head List.mem_cons_self) allKnown]

end Laws

/-- Sequences of the same actions, in any order and with any repetitions, lead to the same
state. -/
theorem foldl_eq_of_same_members {first second : List Action}
    (commute : ∀ action other, action ∈ first → other ∈ first → ∀ state,
      step (step state action) other = step (step state other) action)
    (absorb : ∀ action, action ∈ first → ∀ state,
      step (step state action) action = step state action)
    (same : ∀ action, action ∈ first ↔ action ∈ second) (state : State) :
    first.foldl step state = second.foldl step state := by
  have firstKnown : ∀ action ∈ first, action ∈ first := fun _ member => member
  have secondKnown : ∀ action ∈ second, action ∈ first := fun action => (same action).mpr
  calc first.foldl step state = first.foldl step (second.foldl step state) :=
        (foldl_absorb_foldl commute absorb secondKnown firstKnown state).symm
    _ = second.foldl step (first.foldl step state) :=
        (foldl_foldl_comm commute firstKnown secondKnown state).symm
    _ = second.foldl step state :=
        foldl_absorb_foldl commute absorb (fun action => (same action).mp) secondKnown state

end Folding
