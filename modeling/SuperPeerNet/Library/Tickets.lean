/-
This file is a small library about a counter that hands out tickets.

Every ticket below the counter is held by someone, or done, or lost, and it is only one
of them and only once. The rules say what keeps the books balanced. When nothing is
held and nothing is lost, then every ticket is done exactly once.

The holders may be the members of a list, each with at most one ticket: changing a
member exchanges its ticket.
-/

import Mathlib.Data.List.Perm.Basic
import Mathlib.Data.List.Range

namespace Tickets

/-- The tickets below the counter are those that are held, done or lost. -/
def Balanced (next : Nat) (held done lost : List Nat) : Prop :=
  (held ++ (done ++ lost)).Perm (List.range next)

namespace Balanced

variable {next : Nat} {held after done lost : List Nat} {ticket : Nat}

theorem initial : Balanced 0 [] [] [] := List.Perm.refl _

/-- The next ticket is handed out. -/
theorem take (balanced : Balanced next held done lost) (taken : after.Perm (next :: held)) :
    Balanced (next + 1) after done lost := by
  unfold Balanced at *
  rw [List.range_succ]
  calc after ++ (done ++ lost)
      |>.Perm (next :: held ++ (done ++ lost)) := taken.append_right _
    _ |>.Perm (next :: List.range next) := balanced.cons next
    _ |>.Perm (List.range next ++ [next]) := (List.perm_append_singleton next _).symm

/-- A ticket goes from its holder to those that are done. -/
theorem finish (balanced : Balanced next held done lost) (given : held.Perm (ticket :: after)) :
    Balanced next after (ticket :: done) lost := by
  unfold Balanced at *
  calc after ++ (ticket :: done ++ lost)
      |>.Perm (ticket :: (after ++ (done ++ lost))) := List.perm_middle
    _ |>.Perm (held ++ (done ++ lost)) := (given.append_right _).symm
    _ |>.Perm (List.range next) := balanced

/-- A ticket goes from its holder to those that are lost. -/
theorem lose (balanced : Balanced next held done lost) (given : held.Perm (ticket :: after)) :
    Balanced next after done (ticket :: lost) := by
  unfold Balanced at *
  calc after ++ (done ++ ticket :: lost)
      |>.Perm (after ++ (ticket :: (done ++ lost))) := List.perm_middle.append_left _
    _ |>.Perm (ticket :: (after ++ (done ++ lost))) := List.perm_middle
    _ |>.Perm (held ++ (done ++ lost)) := (given.append_right _).symm
    _ |>.Perm (List.range next) := balanced

/-- Held tickets may be listed in another order. -/
theorem reorder (balanced : Balanced next held done lost) (same : after.Perm held) :
    Balanced next after done lost := (same.append_right _).trans balanced

/-- So may those that are done. -/
theorem relist (balanced : Balanced next held done lost) {other : List Nat}
    (same : other.Perm done) : Balanced next held other lost :=
  ((same.append_right lost).append_left held).trans balanced

/-- When nothing is held and nothing is lost, every ticket is done exactly once. -/
theorem complete (balanced : Balanced next [] done []) : done.Perm (List.range next) := by
  unfold Balanced at balanced
  rwa [List.nil_append, List.append_nil] at balanced

end Balanced

/-- Changing a member of a list of holders exchanges its ticket. -/
theorem perm_set {Holder : Type} (ticket : Holder → Option Nat) {holders : List Holder}
    {position : Nat} {old : Holder} (there : holders[position]? = some old) (new : Holder) :
    ((ticket old).toList ++ (holders.set position new).filterMap ticket).Perm
      ((ticket new).toList ++ holders.filterMap ticket) := by
  have split : ∀ (head : Holder) (rest : List Holder),
      (head :: rest).filterMap ticket = (ticket head).toList ++ rest.filterMap ticket := by
    intro head rest
    cases isTicket : ticket head <;> simp [isTicket]
  induction holders generalizing position with
  | nil => cases there
  | cons head rest inductionHypothesis =>
    cases position with
    | zero =>
      cases there
      rw [List.set_cons_zero, split, split, ← List.append_assoc, ← List.append_assoc]
      exact List.perm_append_comm.append_right _
    | succ position =>
      rw [List.set_cons_succ, split, split]
      calc (ticket old).toList ++ ((ticket head).toList ++ (rest.set position new).filterMap ticket)
          |>.Perm ((ticket head).toList ++
            ((ticket old).toList ++ (rest.set position new).filterMap ticket)) := by
            rw [← List.append_assoc, ← List.append_assoc]
            exact List.perm_append_comm.append_right _
        _ |>.Perm ((ticket head).toList ++ ((ticket new).toList ++ rest.filterMap ticket)) :=
            (inductionHypothesis there).append_left _
        _ |>.Perm ((ticket new).toList ++ ((ticket head).toList ++ rest.filterMap ticket)) := by
            rw [← List.append_assoc, ← List.append_assoc]
            exact List.perm_append_comm.append_right _

end Tickets
