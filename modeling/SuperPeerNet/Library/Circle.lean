/-
This file is a small library of the circle of `size` positions, on which one moves clockwise.

`gap` is the way from one position to another, zero if they are the same, and `arc` is the way
that takes at least one step. Both are given by cases and without remainders, so that linear
arithmetic decides what they satisfy. The second half is about a function that leads from each
place to a next one and never past a fixed root: its orbits all end in one cycle, which goes
through the root and round the circle once.
-/

import Mathlib.Algebra.GroupWithZero.Nat
import Mathlib.Data.List.Pairwise
import Mathlib.Logic.Function.Iterate
import Mathlib.Tactic.SplitIfs

namespace Circle

/-! ### Ways along the circle -/

/-- The clockwise way from one position to another. -/
def gap (size start stop : ℕ) : ℕ := if start ≤ stop then stop - start else size - (start - stop)

/-- The clockwise way from one position to another that takes at least one step. -/
def arc (size start stop : ℕ) : ℕ := if start = stop then size else gap size start stop

section Ways

variable {size first second third : ℕ}

@[simp] theorem gap_self (size start : ℕ) : gap size start start = 0 := by
  simp [gap]

theorem gap_lt (before : first < size) (after : second < size) : gap size first second < size := by
  unfold gap
  split_ifs <;> omega

theorem gap_eq_zero_iff (before : first < size) : gap size first second = 0 ↔ first = second := by
  unfold gap
  split_ifs <;> omega

theorem gap_pos (before : first < size) (apart : first ≠ second) : 0 < gap size first second :=
  Nat.pos_of_ne_zero fun zero => apart ((gap_eq_zero_iff before).mp zero)

/-- There and back is once round the circle. -/
theorem gap_add_gap (before : first < size) (after : second < size) (apart : first ≠ second) :
    gap size first second + gap size second first = size := by
  unfold gap
  split_ifs <;> omega

/-- A way that passes a position is the way to it and the way from it. -/
theorem gap_eq_sub (inFirst : first < size) (inSecond : second < size) (inThird : third < size)
    (passes : gap size first second ≤ gap size first third) :
    gap size second third = gap size first third - gap size first second := by
  revert passes
  unfold gap
  split_ifs <;> omega

/-- Two ways that do not go round the circle together are one way. -/
theorem gap_eq_gap_add_gap (inFirst : first < size) (inSecond : second < size)
    (short : gap size first second + gap size second third < size) :
    gap size first third = gap size first second + gap size second third := by
  revert short
  unfold gap
  split_ifs <;> omega

/-- Two positions at the same distance are the same. -/
theorem gap_left_cancel (inFirst : first < size) (inSecond : second < size)
    (inThird : third < size) (same : gap size first second = gap size first third) :
    second = third := by
  revert same
  unfold gap
  split_ifs <;> omega

/-- Two positions at the same distance to a third one are the same. -/
theorem gap_right_cancel (inFirst : first < size) (inSecond : second < size)
    (same : gap size first third = gap size second third) : first = second := by
  revert same
  unfold gap
  split_ifs <;> omega

theorem arc_le (before : first < size) (after : second < size) :
    arc size first second ≤ size := by
  unfold arc
  split
  · exact Nat.le_refl _
  · exact Nat.le_of_lt (gap_lt before after)

theorem arc_of_ne (apart : first ≠ second) : arc size first second = gap size first second :=
  if_neg apart

@[simp] theorem arc_self (size start : ℕ) : arc size start start = size := if_pos rfl

theorem gap_le_arc (before : first < size) (after : second < size) :
    gap size first second ≤ arc size first second := by
  unfold arc
  split
  · exact Nat.le_of_lt (gap_lt before after)
  · exact Nat.le_refl _

/-- The rest of a way on which a position lies. -/
theorem gap_eq_arc_sub (inFirst : first < size) (inSecond : second < size) {key : ℕ}
    (inKey : key < size) (within : arc size first key ≤ arc size first second) :
    gap size key second = arc size first second - arc size first key := by
  revert within
  unfold arc gap
  split_ifs <;> omega

/-- A position that lies on the way to another one is reached first from in between. -/
theorem gap_le_gap_of_arc_le (inFirst : first < size) (inSecond : second < size)
    (inThird : third < size) {key : ℕ} (inKey : key < size)
    (within : arc size first key ≤ arc size first second)
    (before : arc size first second ≤ arc size first third) :
    gap size key second ≤ gap size key third := by
  rw [gap_eq_arc_sub inFirst inSecond inKey within,
    gap_eq_arc_sub inFirst inThird inKey (Nat.le_trans within before)]
  exact Nat.sub_le_sub_right before _

/-- A way that takes a step is one longer than the way from the next position. -/
theorem arc_eq_gap_next (inFirst : first < size) (inSecond : second < size) :
    arc size first second = gap size ((first + 1) % size) second + 1 := by
  by_cases last : first + 1 = size
  · rw [last, Nat.mod_self]
    unfold arc gap
    split_ifs <;> omega
  · rw [Nat.mod_eq_of_lt (by omega)]
    unfold arc gap
    split_ifs <;> omega

/-- A position between two others is closer to the second of them. -/
theorem gap_lt_gap_of_arc_lt (inFirst : first < size) (inThird : third < size)
    (apart : first ≠ third) (passes : arc size first second < arc size first third) :
    gap size second third < gap size first third := by
  revert passes
  unfold arc gap
  split_ifs <;> omega

/-- A position that does not lie between two others is not closer to the second of them. -/
theorem gap_le_gap_of_not_arc_lt (inFirst : first < size) (inSecond : second < size)
    (apart : second ≠ third)
    (misses : ¬ arc size first second < arc size first third) :
    gap size first third ≤ gap size second third := by
  revert misses
  unfold arc gap
  split_ifs <;> omega

/-- A position that has been moved along the circle. -/
theorem gap_add_mod {power : ℕ} (inFirst : first < size) (small : power < size) :
    gap size first ((first + power) % size) = power := by
  by_cases wraps : first + power < size
  · rw [Nat.mod_eq_of_lt wraps, gap, if_pos (Nat.le_add_right first power)]
    omega
  · rw [Nat.mod_eq_sub_mod (by omega), Nat.mod_eq_of_lt (by omega), gap]
    split_ifs <;> omega

/-- From a position on the way to a goal, what comes first lies on the rest of the way. -/
theorem gap_add_of_first {start : ℕ} (inFirst : first < size) (inSecond : second < size)
    (inThird : third < size) (inStart : start < size)
    (passes : gap size first start ≤ gap size first third)
    (nearest : gap size start second ≤ gap size start third) :
    gap size first start ≤ gap size first second ∧
      gap size first second + gap size second third = gap size first third := by
  have rest := gap_eq_sub inFirst inStart inThird passes
  have whole := gap_lt inFirst inThird
  have joined : gap size first second = gap size first start + gap size start second :=
    gap_eq_gap_add_gap inFirst inStart (by omega)
  have ahead := gap_eq_sub inFirst inSecond inThird (by omega)
  omega

/-- What comes first from a position on does not lie before that position. -/
theorem gap_le_of_first {start : ℕ} (inFirst : first < size) (inStart : start < size)
    (apart : second ≠ first) (nearest : gap size start second ≤ gap size start first) :
    gap size first start ≤ gap size first second := by
  revert nearest
  unfold gap
  split_ifs <;> omega

/-- A way with a position between its ends. -/
theorem gap_add_arc_of_arc_lt {key : ℕ} (inFirst : first < size) (inSecond : second < size)
    (inKey : key < size) (apart : first ≠ key) (passes : arc size first second < arc size first key) :
    gap size first second + arc size second key = gap size first key := by
  revert passes
  unfold arc gap
  split_ifs <;> omega

/-- No position that lies before another one is passed by the last one that does. -/
theorem gap_le_of_last {last key : ℕ} (inFirst : first < size) (inSecond : second < size)
    (inLast : last < size) (inKey : key < size) (before : arc size first second < arc size first key)
    (apart : first ≠ key) (latest : arc size last key ≤ arc size second key)
    (ahead : arc size first last < arc size first key) :
    gap size first second ≤ gap size first last := by
  have fromSecond := gap_add_arc_of_arc_lt inFirst inSecond inKey apart before
  have fromLast := gap_add_arc_of_arc_lt inFirst inLast inKey apart ahead
  omega

/-- A position that is not further from a goal than another one lies on the way from there. -/
theorem arc_lt_of_arc_le {last key : ℕ} (inFirst : first < size) (inLast : last < size)
    (apart : first ≠ key) (moved : last ≠ first)
    (latest : arc size last key ≤ arc size first key) :
    arc size first last < arc size first key := by
  revert latest
  unfold arc gap
  split_ifs <;> omega

/-- A position on the way to a goal is closer to it. -/
theorem arc_lt_arc {key : ℕ} (inFirst : first < size) (inSecond : second < size)
    (inKey : key < size) (apart : first ≠ key) (passes : arc size first second < arc size first key) :
    arc size second key < arc size first key := by
  revert passes
  unfold arc gap
  split_ifs <;> omega

end Ways

/-! ### Orbits that do not pass a root -/

section Orbits

variable {Place : Type} {size : ℕ} (position : Place → ℕ) (next : Place → Place) (root : Place)

/-- The way from a place to the root, the root left out. -/
inductive Path : Place → List Place → Prop
  | here : Path root []
  | step {place : Place} {rest : List Place} (apart : place ≠ root)
      (later : Path (next place) rest) : Path place (place :: rest)

/-- Places whose next place lies on the way to the root. -/
structure Leads (size : ℕ) (inside : Place → Prop) : Prop where
  bounded : ∀ place, inside place → position place < size
  injective : ∀ first second, inside first → inside second → position first = position second →
    first = second
  closed : ∀ place, inside place → inside (next place)
  rooted : inside root
  moves : ∀ place, inside place → place ≠ root → next place ≠ place
  within : ∀ place, inside place → place ≠ root →
    gap size (position place) (position (next place)) ≤ gap size (position place) (position root)

variable {position next root} {inside : Place → Prop}

/-- Each step brings a place closer to the root. -/
theorem Leads.closer (leads : Leads position next root size inside) {place : Place}
    (held : inside place) (apart : place ≠ root) :
    gap size (position (next place)) (position root) < gap size (position place) (position root) := by
  have nextHeld := leads.closed place held
  have here := leads.bounded place held
  have there := leads.bounded _ nextHeld
  have positive : 0 < gap size (position place) (position (next place)) :=
    gap_pos here fun same =>
      leads.moves place held apart (leads.injective _ _ held nextHeld same).symm
  have passes := leads.within place held apart
  rw [gap_eq_sub here there (leads.bounded root leads.rooted) passes]
  omega

/-- Every place has a path to the root. -/
theorem Leads.exists_path (leads : Leads position next root size inside) {place : Place}
    (held : inside place) : ∃ path, Path next root place path := by
  induction distance : gap size (position place) (position root) using Nat.strongRecOn
    generalizing place with
  | _ distance inductionHypothesis =>
    by_cases apart : place = root
    · rw [apart]
      exact ⟨[], .here⟩
    · have closer := leads.closer held apart
      obtain ⟨rest, later⟩ :=
        inductionHypothesis _ (by rw [← distance]; exact closer) (leads.closed place held) rfl
      exact ⟨place :: rest, .step apart later⟩

/-- The places of a path lie inside, away from the root, and closer and closer to it. -/
theorem Leads.path (leads : Leads position next root size inside) {place : Place}
    {path : List Place} (held : inside place) (goes : Path next root place path) :
    (∀ other ∈ path, inside other ∧ other ≠ root ∧
      gap size (position other) (position root) ≤ gap size (position place) (position root)) ∧
    path.Pairwise fun first second =>
      gap size (position second) (position root) < gap size (position first) (position root) := by
  induction goes with
  | here => exact ⟨nofun, List.Pairwise.nil⟩
  | @step place rest apart later inductionHypothesis =>
    have closer := leads.closer held apart
    obtain ⟨members, ordered⟩ := inductionHypothesis (leads.closed place held)
    refine ⟨?_, List.pairwise_cons.mpr ⟨?_, ordered⟩⟩
    · intro other inPath
      rcases List.mem_cons.mp inPath with rfl | inRest
      · exact ⟨held, apart, Nat.le_refl _⟩
      · obtain ⟨otherHeld, otherApart, near⟩ := members other inRest
        exact ⟨otherHeld, otherApart, Nat.le_trans near (Nat.le_of_lt closer)⟩
    · intro other inRest
      exact Nat.lt_of_le_of_lt (members other inRest).2.2 closer

/-- A path is followed step by step. -/
theorem Path.isChain {place : Place} {path : List Place} (goes : Path next root place path)
    {before : Place} (from_ : next before = place) :
    List.IsChain (fun here there => next here = there) (before :: path ++ [root]) := by
  induction goes generalizing before with
  | here => exact List.IsChain.cons_cons from_ (List.IsChain.singleton _)
  | step apart later inductionHypothesis =>
    exact List.IsChain.cons_cons from_ (inductionHypothesis rfl)

/-- A path ends at the root. -/
theorem Path.iterate {place : Place} {path : List Place} (goes : Path next root place path) :
    next^[path.length] place = root := by
  induction goes with
  | here => rfl
  | step _ _ inductionHypothesis => exact inductionHypothesis

/-- A path goes on until the root. -/
theorem Path.mem {place : Place} {path : List Place} (goes : Path next root place path) :
    place ∈ root :: path := by
  cases goes with
  | here => exact List.mem_cons_self
  | step => exact List.mem_cons_of_mem _ List.mem_cons_self

theorem Path.next_mem {place : Place} {path : List Place} (goes : Path next root place path)
    {here : Place} (inPath : here ∈ path) : next here ∈ root :: path := by
  induction goes with
  | here => cases inPath
  | @step place rest apart later inductionHypothesis =>
    have among : next here ∈ root :: rest := by
      rcases List.mem_cons.mp inPath with rfl | inRest
      · exact later.mem
      · exact inductionHypothesis inRest
    rcases List.mem_cons.mp among with final | inRest
    · exact final ▸ List.mem_cons_self
    · exact List.mem_cons_of_mem _ (List.mem_cons_of_mem _ inRest)

/-- The steps of a path add up to the way to the root. -/
theorem Leads.sum (leads : Leads position next root size inside) {place : Place}
    {path : List Place} (held : inside place) (goes : Path next root place path) :
    (path.map fun here => arc size (position here) (position (next here))).sum =
      gap size (position place) (position root) := by
  induction goes with
  | here => exact (gap_self _ _).symm
  | @step place rest apart later inductionHypothesis =>
    have nextHeld := leads.closed place held
    have moved : position place ≠ position (next place) := fun same =>
      leads.moves place held apart (leads.injective _ _ held nextHeld same).symm
    have within := leads.within place held apart
    have passes := gap_eq_sub (leads.bounded place held) (leads.bounded _ nextHeld)
      (leads.bounded root leads.rooted) within
    rw [List.map_cons, List.sum_cons, inductionHypothesis nextHeld, arc_of_ne moved, passes]
    exact Nat.add_sub_cancel' within

/-! ### The cycle -/

/-- A cycle through a first place and others, which goes round the circle once and in order, and
to which every place leads. There is no other cycle. -/
structure OneCycle (position : Place → ℕ) (next : Place → Place) (size : ℕ)
    (inside : Place → Prop) (first : Place) (rest : List Place) : Prop where
  within : ∀ place ∈ first :: rest, inside place
  follows : List.IsChain (fun here there => next here = there) (first :: rest ++ [first])
  ordered : (first :: rest).Pairwise fun before after =>
    gap size (position first) (position before) < gap size (position first) (position after)
  once : ((first :: rest).map fun here => arc size (position here) (position (next here))).sum = size
  reached : ∀ place, inside place → ∃ steps, next^[steps] place ∈ first :: rest
  only : ∀ place, inside place → ∀ steps, 0 < steps → next^[steps] place = place →
    place ∈ first :: rest

/-- Places that never pass the root have one cycle, which goes through the root. -/
theorem Leads.oneCycle (leads : Leads position next root size inside) :
    ∃ rest, OneCycle position next size inside root rest := by
  have inRoot := leads.bounded root leads.rooted
  have after := leads.closed root leads.rooted
  obtain ⟨rest, goes⟩ := leads.exists_path after
  obtain ⟨members, closer⟩ := leads.path after goes
  have fromRoot : ∀ place ∈ rest, gap size (position root) (position place) +
      gap size (position place) (position root) = size ∧
      0 < gap size (position root) (position place) := by
    intro place inRest
    obtain ⟨held, apart, -⟩ := members place inRest
    have distinct : position root ≠ position place := fun same =>
      apart (leads.injective _ _ leads.rooted held same).symm
    exact ⟨gap_add_gap inRoot (leads.bounded place held) distinct, gap_pos inRoot distinct⟩
  have steps : ∀ place ∈ root :: rest, next place ∈ root :: rest := by
    intro place inCycle
    rcases List.mem_cons.mp inCycle with rfl | inRest
    · exact goes.mem
    · exact goes.next_mem inRest
  have stays : ∀ count, next^[count] root ∈ root :: rest := by
    intro count
    induction count with
    | zero => exact List.mem_cons_self
    | succ count inductionHypothesis =>
      rw [Function.iterate_succ_apply']
      exact steps _ inductionHypothesis
  refine ⟨rest, ?_, goes.isChain rfl, List.pairwise_cons.mpr ⟨?_, ?_⟩, ?_, ?_, ?_⟩
  · intro place inCycle
    rcases List.mem_cons.mp inCycle with rfl | inRest
    · exact leads.rooted
    · exact (members place inRest).1
  · intro place inRest
    rw [gap_self]
    exact (fromRoot place inRest).2
  · refine closer.imp_of_mem fun {first second} inFirst inSecond nearer => ?_
    have firstWay := (fromRoot first inFirst).1
    have secondWay := (fromRoot second inSecond).1
    omega
  · rw [List.map_cons, List.sum_cons, leads.sum after goes]
    by_cases alone : position root = position (next root)
    · rw [← alone, arc_self, gap_self, Nat.add_zero]
    · rw [arc_of_ne alone]
      exact gap_add_gap inRoot (leads.bounded _ after) alone
  · intro place held
    obtain ⟨path, leadsTo⟩ := leads.exists_path held
    exact ⟨path.length, by rw [leadsTo.iterate]; exact List.mem_cons_self⟩
  · intro place held period positive returns
    obtain ⟨path, leadsTo⟩ := leads.exists_path held
    -- after enough rounds the place has passed the root
    have rounds : ∀ count, next^[period * count] place = place := by
      intro count
      rw [Function.iterate_mul]
      exact Function.iterate_fixed returns count
    have enough : path.length ≤ period * path.length := Nat.le_mul_of_pos_left _ positive
    have again := rounds path.length
    rw [← Nat.sub_add_cancel enough, Function.iterate_add_apply, leadsTo.iterate] at again
    exact again ▸ stays _

end Orbits

end Circle
