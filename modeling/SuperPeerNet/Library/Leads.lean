/-
This file is a small library about what a sequence of events brings about.

A state takes events one after the other. What every event keeps holds at the end. If every event
keeps one property or brings about another one, an event of a certain kind brings it about for
sure, and it then stays, then a sequence with such an event in it brings it about, wherever in the
sequence the event stands.
-/

import Mathlib.Data.List.Basic

namespace Leads

variable {State Event : Type} {step : State → Event → State} {events : List Event}

/-- What every event keeps holds at the end. -/
theorem foldl_kept (property : State → Prop)
    (keep : ∀ state, ∀ event ∈ events, property state → property (step state event))
    {state : State} (holds : property state) : property (events.foldl step state) := by
  induction events generalizing state with
  | nil => exact holds
  | cons event rest inductionHypothesis =>
    refine inductionHypothesis (fun state event inRest => ?_) (keep state event ?_ holds)
    · exact keep state event (List.mem_cons_of_mem _ inRest)
    · exact List.mem_cons_self

/-- One helpful event is enough, wherever it stands. -/
theorem foldl_ensures (before after : State → Prop) (helpful : Event → Prop)
    (keep : ∀ state, ∀ event ∈ events, before state →
      before (step state event) ∨ after (step state event))
    (help : ∀ state, ∀ event ∈ events, helpful event → before state → after (step state event))
    (stay : ∀ state, ∀ event ∈ events, after state → after (step state event))
    {state : State} (holds : before state) (helped : ∃ event ∈ events, helpful event) :
    after (events.foldl step state) := by
  induction events generalizing state with
  | nil =>
    obtain ⟨event, none, -⟩ := helped
    cases none
  | cons event rest inductionHypothesis =>
    have stayRest : ∀ state, ∀ event ∈ rest, after state → after (step state event) :=
      fun state event inRest => stay state event (List.mem_cons_of_mem _ inRest)
    rcases keep state event List.mem_cons_self holds with waits | done
    · obtain ⟨helper, isHelper, helps⟩ := helped
      rcases List.mem_cons.mp isHelper with rfl | inRest
      · exact foldl_kept after stayRest (help state helper List.mem_cons_self helps holds)
      · exact inductionHypothesis
          (fun state event inRest => keep state event (List.mem_cons_of_mem _ inRest))
          (fun state event inRest => help state event (List.mem_cons_of_mem _ inRest))
          stayRest waits ⟨helper, inRest, helps⟩
    · exact foldl_kept after stayRest done

end Leads
