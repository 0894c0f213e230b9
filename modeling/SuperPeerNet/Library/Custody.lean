/-
This file is a small library about things that are handed on, each of them in the hands of one
keeper at a time.

Items are numbered as they are taken in. An item is with the intake first, then it may wait in a
queue and be given to a worker, and in the end it is released: by the worker that has served it, or
dropped before that by someone else. Whatever the order of the steps, an item is released once at
most and given once at most, an item that has been dropped is never given, items are given in the
order in which they were taken in, and what is touched in the hands of a worker has not been
released. When nobody has an item, all of them have been released.
-/

import Mathlib.Logic.Relation
import SuperPeerNet.Library.Tickets

namespace Custody

variable {Agent : Type}

/-! ### What happens to items -/

/-- An event in the history of items. -/
inductive Event (Agent : Type) where
  | taken (item : Nat)
  | given (worker item : Nat)
  | touched (agent : Agent) (item : Nat)
  | served (worker item : Nat)
  | dropped (agent : Agent) (item : Nat)

namespace Event

/-- The item that is taken in. -/
def takes : Event Agent → Option Nat
  | taken item => some item
  | _ => none

/-- The item that is given. -/
def gives : Event Agent → Option Nat
  | given _ item => some item
  | _ => none

/-- The item that is released by a worker. -/
def serves : Event Agent → Option Nat
  | served _ item => some item
  | _ => none

/-- The item that is dropped. -/
def drops : Event Agent → Option Nat
  | dropped _ item => some item
  | _ => none

/-- The item that is released. -/
def releases : Event Agent → Option Nat
  | served _ item | dropped _ item => some item
  | _ => none

end Event

/-- The number of items that have been taken in. -/
def number (history : List (Event Agent)) : Nat := (history.filterMap Event.takes).length

/-- Who has which item. -/
structure Holding (Agent : Type) where
  intake : Option Nat
  queue : List Nat
  workers : List (Option Nat)
  history : List (Event Agent)

/-- The items that somebody has. -/
def Holding.held (holding : Holding Agent) : List Nat :=
  holding.intake.toList ++ (holding.queue ++ holding.workers.filterMap id)

/-- The steps in which items are handed on. -/
inductive Step : Holding Agent → Holding Agent → Prop
  | take {holding : Holding Agent} (free : holding.intake = none) :
      Step holding { holding with
        intake := some (number holding.history)
        history := holding.history ++ [.taken (number holding.history)] }
  | enqueue {holding : Holding Agent} {item : Nat} (has : holding.intake = some item) :
      Step holding { holding with intake := none, queue := holding.queue ++ [item] }
  | refuse {holding : Holding Agent} {item : Nat} (agent : Agent)
      (has : holding.intake = some item) :
      Step holding { holding with
        intake := none
        history := holding.history ++ [.dropped agent item] }
  | drop {holding : Holding Agent} {item : Nat} {rest : List Nat} (agent : Agent)
      (first : holding.queue = item :: rest) :
      Step holding { holding with
        queue := rest
        history := holding.history ++ [.dropped agent item] }
  | give {holding : Holding Agent} {item : Nat} {rest : List Nat} {worker : Nat}
      (first : holding.queue = item :: rest) (free : holding.workers[worker]? = some none) :
      Step holding { holding with
        queue := rest
        workers := holding.workers.set worker (some item)
        history := holding.history ++ [.given worker item] }
  | touch {holding : Holding Agent} {item worker : Nat} (agent : Agent)
      (has : holding.workers[worker]? = some (some item)) :
      Step holding { holding with history := holding.history ++ [.touched agent item] }
  | serve {holding : Holding Agent} {item worker : Nat}
      (has : holding.workers[worker]? = some (some item)) :
      Step holding { holding with
        workers := holding.workers.set worker none
        history := holding.history ++ [.served worker item] }

theorem filterMap_concat (select : Event Agent → Option Nat) (history : List (Event Agent))
    (event : Event Agent) :
    (history ++ [event]).filterMap select = history.filterMap select ++ (select event).toList := by
  rw [List.filterMap_append]
  cases selected : select event <;> simp [selected]

/-! ### Books that balance -/

/-- Items that are touched have been taken in and not yet been released. -/
def Unreleased (history : List (Event Agent)) : Prop :=
  ∀ before agent item after, history = before ++ .touched agent item :: after →
    item ∈ before.filterMap Event.takes ∧ item ∉ before.filterMap Event.releases

/-- Every item has one keeper or has been released once, and the items that have been given, those
that wait and the one at the intake are in the order in which they were taken in. -/
structure Kept (holding : Holding Agent) : Prop where
  numbered : holding.history.filterMap Event.takes = List.range (number holding.history)
  balanced : Tickets.Balanced (number holding.history) holding.held
    (holding.history.filterMap Event.releases) []
  passed : (holding.history.filterMap Event.gives).Perm
    (holding.workers.filterMap id ++ holding.history.filterMap Event.serves)
  order : (holding.history.filterMap Event.gives ++ (holding.queue ++ holding.intake.toList)).Sublist
    (List.range (number holding.history))
  unreleased : Unreleased holding.history

/-- Items are released by the workers that have served them, or dropped. -/
theorem releases_perm (history : List (Event Agent)) :
    (history.filterMap Event.releases).Perm
      (history.filterMap Event.serves ++ history.filterMap Event.drops) := by
  induction history with
  | nil => exact List.Perm.refl _
  | cons event rest inductionHypothesis =>
    cases event with
    | taken item | given worker item | touched agent item => exact inductionHypothesis
    | served worker item => exact inductionHypothesis.cons item
    | dropped agent item => exact (inductionHypothesis.cons item).trans List.perm_middle.symm

/-- Nobody has an item at the start. -/
theorem Kept.initial (count : Nat) :
    Kept (⟨none, [], List.replicate count none, []⟩ : Holding Agent) where
  numbered := rfl
  balanced := by
    have nobody : (List.replicate count (none : Option Nat)).filterMap id = [] := by simp
    unfold Holding.held
    rw [nobody]
    exact Tickets.Balanced.initial
  passed := by simp
  order := List.Sublist.refl _
  unreleased := fun before agent item after parts => by simp at parts

theorem Unreleased.append {history : List (Event Agent)} (unreleased : Unreleased history)
    {event : Event Agent}
    (proper : ∀ agent item, event = .touched agent item →
      item ∈ history.filterMap Event.takes ∧ item ∉ history.filterMap Event.releases) :
    Unreleased (history ++ [event]) := by
  intro before agent item after parts
  rcases List.eq_nil_or_concat after with rfl | ⟨rest, last, rfl⟩
  · obtain ⟨rfl, same⟩ := List.append_inj' parts rfl
    exact proper agent item (List.head_eq_of_cons_eq same)
  · rw [List.concat_eq_append, ← List.cons_append, ← List.append_assoc] at parts
    exact unreleased before agent item rest (List.append_inj' parts rfl).1

namespace Kept

variable {holding : Holding Agent} {item worker : Nat} {rest : List Nat}

/-- What is held or released is all different. -/
theorem nodup (kept : Kept holding) :
    (holding.held ++ holding.history.filterMap Event.releases).Nodup := by
  have books := kept.balanced
  unfold Tickets.Balanced at books
  rw [List.append_nil] at books
  exact books.nodup_iff.mpr List.nodup_range

theorem taken_of_held (kept : Kept holding) (has : item ∈ holding.held) :
    item ∈ holding.history.filterMap Event.takes := by
  rw [kept.numbered]
  exact kept.balanced.subset (List.mem_append_left _ has)

theorem taken_of_released (kept : Kept holding)
    (released : item ∈ holding.history.filterMap Event.releases) :
    item ∈ holding.history.filterMap Event.takes := by
  rw [kept.numbered]
  refine kept.balanced.subset (List.mem_append_right _ ?_)
  rw [List.append_nil]
  exact released

/-- An item that somebody has has not been released. -/
theorem not_released (kept : Kept holding) (has : item ∈ holding.held) :
    item ∉ holding.history.filterMap Event.releases := fun released =>
  (List.nodup_append.mp kept.nodup).2.2 item has item released rfl

theorem take (kept : Kept holding) (free : holding.intake = none) :
    Kept { holding with
      intake := some (number holding.history)
      history := holding.history ++ [.taken (number holding.history)] } := by
  have books := kept.balanced
  have order := kept.order
  unfold Holding.held at books
  rw [free] at books order
  have counted : number (holding.history ++ [.taken (number holding.history)]) =
      number holding.history + 1 := by
    rw [number, filterMap_concat, List.length_append]
    rfl
  constructor
  · rw [counted, List.range_succ, ← kept.numbered, filterMap_concat]
    rfl
  · rw [counted, filterMap_concat]
    refine (books.take (List.Perm.refl _)).relist ?_
    exact List.Perm.of_eq (List.append_nil _)
  · simpa only [filterMap_concat, Event.gives, Event.serves, Option.toList_none, List.append_nil]
      using kept.passed
  · have longer := order.append (List.Sublist.refl [number holding.history])
    rw [counted, List.range_succ]
    simpa only [filterMap_concat, Event.gives, Option.toList_none, Option.toList_some,
      List.append_nil, List.append_assoc] using longer
  · exact kept.unreleased.append nofun

theorem enqueue (kept : Kept holding) (has : holding.intake = some item) :
    Kept { holding with intake := none, queue := holding.queue ++ [item] } := by
  have books := kept.balanced
  have order := kept.order
  unfold Holding.held at books
  rw [has] at books order
  refine ⟨kept.numbered, books.reorder ?_, kept.passed, ?_, kept.unreleased⟩
  · show ([] ++ (holding.queue ++ [item] ++ holding.workers.filterMap id)).Perm _
    rw [List.nil_append, List.append_assoc]
    exact List.perm_middle
  · show (_ ++ (holding.queue ++ [item] ++ [])).Sublist _
    rw [List.append_nil]
    exact order

/-- An event other than a taking keeps the books if they balance with it. -/
theorem event (kept : Kept holding) {event : Event Agent} (old : event.takes = none)
    {intake : Option Nat} {queue : List Nat} {workers : List (Option Nat)}
    (books : Tickets.Balanced (number holding.history)
      (intake.toList ++ (queue ++ workers.filterMap id))
      (holding.history.filterMap Event.releases ++ event.releases.toList) [])
    (passed : (holding.history.filterMap Event.gives ++ event.gives.toList).Perm
      (workers.filterMap id ++ (holding.history.filterMap Event.serves ++ event.serves.toList)))
    (order : (holding.history.filterMap Event.gives ++ event.gives.toList ++
      (queue ++ intake.toList)).Sublist (List.range (number holding.history)))
    (proper : ∀ agent item, event = .touched agent item →
      item ∈ holding.history.filterMap Event.takes ∧
        item ∉ holding.history.filterMap Event.releases) :
    Kept ⟨intake, queue, workers, holding.history ++ [event]⟩ := by
  have same : (holding.history ++ [event]).filterMap Event.takes =
      holding.history.filterMap Event.takes := by
    rw [filterMap_concat, old, Option.toList_none, List.append_nil]
  have counted : number (holding.history ++ [event]) = number holding.history :=
    congrArg List.length same
  constructor
  · rw [counted, same]
    exact kept.numbered
  · rw [counted, filterMap_concat]
    exact books
  · rw [filterMap_concat, filterMap_concat]
    exact passed
  · rw [counted, filterMap_concat]
    exact order
  · exact kept.unreleased.append proper

/-- An item goes from its keeper to those that are released. -/
theorem books_release (kept : Kept holding) {after : List Nat}
    (leaves : holding.held.Perm (item :: after)) :
    Tickets.Balanced (number holding.history) after
      (holding.history.filterMap Event.releases ++ [item]) [] :=
  (kept.balanced.finish leaves).relist (List.perm_append_singleton item _)

theorem refuse (kept : Kept holding) (agent : Agent) (has : holding.intake = some item) :
    Kept { holding with
      intake := none
      history := holding.history ++ [.dropped agent item] } := by
  have order := kept.order
  rw [has] at order
  refine kept.event rfl (kept.books_release ?_) ?_ ?_ nofun
  · unfold Holding.held
    rw [has]
    exact List.Perm.refl _
  · simpa only [Event.gives, Event.serves, Option.toList_none, List.append_nil] using kept.passed
  · simp only [Event.gives, Option.toList_none, List.append_nil]
    refine List.Sublist.trans ?_ order
    exact (List.Sublist.refl _).append (List.sublist_append_left _ _)

theorem drop (kept : Kept holding) (agent : Agent) (first : holding.queue = item :: rest) :
    Kept { holding with
      queue := rest
      history := holding.history ++ [.dropped agent item] } := by
  have order := kept.order
  rw [first] at order
  refine kept.event rfl (kept.books_release ?_) ?_ ?_ nofun
  · unfold Holding.held
    rw [first]
    exact List.perm_middle
  · simpa only [Event.gives, Event.serves, Option.toList_none, List.append_nil] using kept.passed
  · simp only [Event.gives, Option.toList_none, List.append_nil]
    refine List.Sublist.trans ?_ order
    exact (List.Sublist.refl _).append (List.sublist_cons_self item _)

theorem give (kept : Kept holding) (first : holding.queue = item :: rest)
    (free : holding.workers[worker]? = some none) :
    Kept { holding with
      queue := rest
      workers := holding.workers.set worker (some item)
      history := holding.history ++ [.given worker item] } := by
  have order := kept.order
  have books := kept.balanced
  unfold Holding.held at books
  rw [first] at order books
  have moved : ((holding.workers.set worker (some item)).filterMap id).Perm
      (item :: holding.workers.filterMap id) := Tickets.perm_set id free (some item)
  refine kept.event rfl ?_ ?_ ?_ nofun
  · rw [show (Event.given worker item : Event Agent).releases.toList = [] from rfl, List.append_nil]
    refine books.reorder ((List.Perm.append_left rest moved).trans ?_ |>.append_left _)
    exact List.perm_middle
  · calc (holding.history.filterMap Event.gives ++ [item])
        |>.Perm (item :: holding.history.filterMap Event.gives) := List.perm_append_singleton _ _
      _ |>.Perm (item :: (holding.workers.filterMap id ++ holding.history.filterMap Event.serves)) :=
        kept.passed.cons item
      _ |>.Perm ((holding.workers.set worker (some item)).filterMap id ++
          (holding.history.filterMap Event.serves ++ [])) := by
        rw [List.append_nil]
        exact (moved.append_right _).symm
  · simpa only [Event.gives, Option.toList_some, List.append_assoc, List.cons_append,
      List.nil_append] using order

theorem touch (kept : Kept holding) (agent : Agent)
    (has : holding.workers[worker]? = some (some item)) :
    Kept { holding with history := holding.history ++ [.touched agent item] } := by
  have held : item ∈ holding.held := by
    refine List.mem_append_right _ (List.mem_append_right _ ?_)
    exact List.mem_filterMap.mpr ⟨_, List.mem_of_getElem? has, rfl⟩
  refine kept.event rfl ?_ ?_ ?_ fun _ other same => ?_
  · rw [show (Event.touched agent item).releases.toList = [] from rfl, List.append_nil]
    exact kept.balanced
  · simpa only [Event.gives, Event.serves, Option.toList_none, List.append_nil] using kept.passed
  · simpa only [Event.gives, Option.toList_none, List.append_nil] using kept.order
  · cases same
    exact ⟨kept.taken_of_held held, kept.not_released held⟩

theorem serve (kept : Kept holding) (has : holding.workers[worker]? = some (some item)) :
    Kept { holding with
      workers := holding.workers.set worker none
      history := holding.history ++ [.served worker item] } := by
  have moved : (item :: (holding.workers.set worker none).filterMap id).Perm
      (holding.workers.filterMap id) := Tickets.perm_set id has none
  refine kept.event rfl (kept.books_release ?_) ?_ ?_ nofun
  · unfold Holding.held
    calc (holding.intake.toList ++ (holding.queue ++ holding.workers.filterMap id))
        |>.Perm (holding.intake.toList ++ (holding.queue ++
          item :: (holding.workers.set worker none).filterMap id)) :=
          (moved.symm.append_left _).append_left _
      _ |>.Perm (holding.intake.toList ++ item :: (holding.queue ++
          (holding.workers.set worker none).filterMap id)) := List.perm_middle.append_left _
      _ |>.Perm (item :: (holding.intake.toList ++ (holding.queue ++
          (holding.workers.set worker none).filterMap id))) := List.perm_middle
  · rw [show (Event.served worker item : Event Agent).gives.toList = [] from rfl, List.append_nil]
    calc (holding.history.filterMap Event.gives)
        |>.Perm (holding.workers.filterMap id ++ holding.history.filterMap Event.serves) :=
          kept.passed
      _ |>.Perm (item :: (holding.workers.set worker none).filterMap id ++
          holding.history.filterMap Event.serves) := (moved.append_right _).symm
      _ |>.Perm ((holding.workers.set worker none).filterMap id ++
          item :: holding.history.filterMap Event.serves) := List.perm_middle.symm
      _ |>.Perm ((holding.workers.set worker none).filterMap id ++
          (holding.history.filterMap Event.serves ++ [item])) :=
          (List.perm_append_singleton _ _).symm.append_left _
  · simpa only [Event.gives, Option.toList_none, List.append_nil] using kept.order

/-- Every step keeps the books. -/
theorem step {next : Holding Agent} (kept : Kept holding) (stepped : Step holding next) :
    Kept next := by
  cases stepped with
  | take free => exact kept.take free
  | enqueue has => exact kept.enqueue has
  | refuse agent has => exact kept.refuse agent has
  | drop agent first => exact kept.drop agent first
  | give first free => exact kept.give first free
  | touch agent has => exact kept.touch agent has
  | serve has => exact kept.serve has

/-- So does every sequence of steps. -/
theorem steps {next : Holding Agent} (kept : Kept holding)
    (stepped : Relation.ReflTransGen Step holding next) : Kept next := by
  induction stepped with
  | refl => exact kept
  | tail _ last inductionHypothesis => exact inductionHypothesis.step last

/-! ### What the books say -/

/-- No item is released twice. -/
theorem released_once (kept : Kept holding) :
    (holding.history.filterMap Event.releases).Nodup := (List.nodup_append.mp kept.nodup).2.1

/-- Items are given in the order in which they were taken in. -/
theorem given_in_order (kept : Kept holding) :
    (holding.history.filterMap Event.gives).Sublist (holding.history.filterMap Event.takes) := by
  rw [kept.numbered]
  exact (List.sublist_append_left _ _).trans kept.order

/-- No item is given twice. -/
theorem given_once (kept : Kept holding) : (holding.history.filterMap Event.gives).Nodup := by
  have order := kept.given_in_order
  rw [kept.numbered] at order
  exact order.nodup List.nodup_range

/-- An item that has been dropped has not been given to a worker. -/
theorem not_given (kept : Kept holding) (dropped : item ∈ holding.history.filterMap Event.drops) :
    item ∉ holding.history.filterMap Event.gives := by
  intro given
  have parts := releases_perm holding.history
  have released : item ∈ holding.history.filterMap Event.releases :=
    parts.mem_iff.mpr (List.mem_append_right _ dropped)
  rcases List.mem_append.mp (kept.passed.mem_iff.mp given) with working | served
  · exact kept.not_released (List.mem_append_right _ (List.mem_append_right _ working)) released
  · exact (List.nodup_append.mp (parts.nodup_iff.mp kept.released_once)).2.2 item served item dropped
      rfl

/-- When nobody has an item, all of them have been released. -/
theorem all_released (kept : Kept holding) (nobody : holding.held = []) :
    ∀ item ∈ holding.history.filterMap Event.takes,
      item ∈ holding.history.filterMap Event.releases := by
  intro item taken
  have books := kept.balanced
  rw [nobody] at books
  rw [kept.numbered] at taken
  exact books.complete.mem_iff.mpr taken

end Kept

end Custody
