/-
This file is a small library of transition systems given by a partial step function.

A system has states and actions; `step` says which state an action leads to, if it
can be taken. A run may be restricted to actions that are allowed in the state in
which they are taken. The rules below are how every statement about runs is proved: an
invariant holds in every state that is reached, a run that has been computed reaches
its last state, and a run is no longer than a measure that its actions make smaller.
-/

import Mathlib.Logic.Basic

namespace Transition

variable {State Action : Type} (step : State → Action → Option State)

/-- Take a sequence of actions, if all of them can be taken. -/
def run (state : State) : List Action → Option State
  | [] => some state
  | action :: rest => (step state action).bind fun next => run next rest

/-- The states that allowed actions lead to. -/
inductive Reaches (allowed : State → Action → Prop) (start : State) : State → Prop
  | refl : Reaches allowed start start
  | tail {state next : State} (reached : Reaches allowed start state) (action : Action)
      (permitted : allowed state action) (stepped : step state action = some next) :
      Reaches allowed start next

variable {step} {allowed : State → Action → Prop} {start : State}

/-- What holds at the start and is kept by every allowed action holds wherever they lead. -/
theorem Reaches.invariant {property : State → Prop} (initial : property start)
    (keep : ∀ state action next, property state → allowed state action →
      step state action = some next → property next)
    {state : State} (reached : Reaches step allowed start state) : property state := by
  induction reached with
  | refl => exact initial
  | tail _ action permitted stepped inductionHypothesis =>
    exact keep _ action _ inductionHypothesis permitted stepped

/-- A run may go on where another one has ended. -/
theorem Reaches.trans {middle final : State} (first : Reaches step allowed start middle)
    (second : Reaches step allowed middle final) : Reaches step allowed start final := by
  induction second with
  | refl => exact first
  | tail _ action permitted stepped inductionHypothesis =>
    exact inductionHypothesis.tail action permitted stepped

/-- A run takes at most as many actions as a measure allows that every action makes smaller. -/
theorem length_run_le {measure : State → Nat}
    (smaller : ∀ state action next, step state action = some next → measure next < measure state)
    {actions : List Action} {state final : State}
    (done : run step state actions = some final) :
    actions.length + measure final ≤ measure state := by
  induction actions generalizing state with
  | nil =>
    cases done
    exact Nat.le_of_eq (Nat.zero_add _)
  | cons action rest inductionHypothesis =>
    obtain ⟨next, stepped, later⟩ := Option.bind_eq_some_iff.mp done
    have here := smaller state action next stepped
    have after := inductionHypothesis later
    rw [List.length_cons]
    omega

/-- The steps that are allowed, as steps of their own. -/
def guarded (step : State → Action → Option State) (allowed : State → Action → Prop)
    [∀ state action, Decidable (allowed state action)] (state : State) (action : Action) :
    Option State :=
  if allowed state action then step state action else none

/-- A computed run reaches its last state, when what guards its actions is enough for them to be
allowed. -/
theorem Reaches.of_run {guard : State → Action → Prop}
    [∀ state action, Decidable (guard state action)]
    (permits : ∀ state action, guard state action → allowed state action) {actions : List Action}
    {state final : State} (reached : Reaches step allowed start state)
    (done : run (guarded step guard) state actions = some final) :
    Reaches step allowed start final := by
  induction actions generalizing state with
  | nil =>
    cases done
    exact reached
  | cons action rest inductionHypothesis =>
    obtain ⟨next, stepped, later⟩ := Option.bind_eq_some_iff.mp done
    unfold guarded at stepped
    split at stepped
    · rename_i permitted
      exact inductionHypothesis (.tail reached action (permits _ _ permitted) stepped) later
    · cases stepped

/-- A computed run reaches its last state, when its actions are allowed wherever a property holds
that they keep. -/
theorem Reaches.of_run_within (property : State → Prop) {actions : List Action}
    (permits : ∀ action ∈ actions, ∀ state, property state → allowed state action ∧
      ∀ next, step state action = some next → property next)
    {state final : State} (here : property state) (reached : Reaches step allowed start state)
    (done : run step state actions = some final) : Reaches step allowed start final := by
  induction actions generalizing state with
  | nil =>
    cases done
    exact reached
  | cons action rest inductionHypothesis =>
    obtain ⟨next, stepped, later⟩ := Option.bind_eq_some_iff.mp done
    obtain ⟨permitted, kept⟩ := permits action List.mem_cons_self state here
    exact inductionHypothesis (fun other member => permits other (List.mem_cons_of_mem _ member))
      (kept next stepped) (reached.tail action permitted stepped) later

/-- A property of the last state of a run can be checked by computing the run. -/
theorem Reaches.of_check [∀ state action, Decidable (allowed state action)]
    {actions : List Action} {property : State → Prop} [DecidablePred property]
    (checked : (run (guarded step allowed) start actions).any (fun final => property final) =
      true) :
    ∃ final, Reaches step allowed start final ∧ property final := by
  obtain ⟨final, done, holds⟩ := (Option.any_eq_true _ _).mp checked
  exact ⟨final, Reaches.refl.of_run (fun _ _ permitted => permitted) done,
    of_decide_eq_true holds⟩

end Transition
