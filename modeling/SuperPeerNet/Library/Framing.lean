/-
This file is a small library of frames on a stream.

A stream carries frames one after another and marks no boundary between them. A receiver takes
one frame from the front of what is left into a slot and says how that went. If it takes
exactly the tokens of a whole frame, says that an empty stream has ended and refuses what is
left of a frame that was cut off, then the frames of a stream come out as they were put in, and
a cut loses nothing but the frame it falls into.
-/

import Mathlib.Data.List.Basic

namespace Framing

variable {Token Frame Slot Verdict : Type}

/-- One call of a receiver: the verdict, the slot after the call and the rest of the stream. -/
abbrev Receiver (Token Slot Verdict : Type) := List Token → Slot → (Verdict × Slot) × List Token

/-- Calls of a receiver one after another, each with a slot of its own. -/
def receiveEach (receive : Receiver Token Slot Verdict) :
    List Slot → List Token → List (Verdict × Slot)
  | [], _ => []
  | slot :: slots, stream =>
    (receive stream slot).1 :: receiveEach receive slots (receive stream slot).2

/-- What a receiver owes the frames of a stream. -/
structure Delimits (receive : Receiver Token Slot Verdict) (Good : Frame → Prop)
    (write : Frame → List Token) (content : Frame → Slot) (accepted closed broken : Verdict) :
    Prop where
  /-- A whole frame is taken, and nothing of what follows it. -/
  whole : ∀ frame, Good frame → ∀ rest slot,
    receive (write frame ++ rest) slot = ((accepted, content frame), rest)
  /-- The end of the stream between two frames is told apart. -/
  ended : ∀ slot, receive [] slot = ((closed, slot), [])
  /-- A frame of which the end is missing is refused, and the slot stays as it was. -/
  cutOff : ∀ frame, Good frame → ∀ count, 0 < count → count < (write frame).length → ∀ slot,
    (receive ((write frame).take count) slot).1 = (broken, slot)

section Streams

variable {receive : Receiver Token Slot Verdict} {Good : Frame → Prop}
  {write : Frame → List Token} {content : Frame → Slot} {accepted closed broken : Verdict}

/-- The frames at the front of a stream are received in order, and the calls after them see the
rest of the stream. -/
theorem Delimits.receiveEach_append
    (delimits : Delimits receive Good write content accepted closed broken) {frames : List Frame}
    (good : ∀ frame ∈ frames, Good frame) {slots : List Slot} (count : slots.length = frames.length)
    (later : List Slot) (rest : List Token) :
    receiveEach receive (slots ++ later) (frames.flatMap write ++ rest) =
      frames.map (fun frame => (accepted, content frame)) ++ receiveEach receive later rest := by
  induction frames generalizing slots with
  | nil =>
    obtain rfl := List.length_eq_zero_iff.mp count
    rfl
  | cons frame frames inductionHypothesis =>
    cases slots with
    | nil => cases count
    | cons slot slots =>
      have taken := delimits.whole frame (good frame List.mem_cons_self)
        (frames.flatMap write ++ rest) slot
      have following := inductionHypothesis
        (fun other member => good other (List.mem_cons_of_mem _ member)) (Nat.succ.inj count)
      rw [List.flatMap_cons, List.append_assoc, List.cons_append, receiveEach, taken, following]
      rfl

/-- A whole stream: every frame, and then the end. -/
theorem Delimits.receiveEach_all
    (delimits : Delimits receive Good write content accepted closed broken) {frames : List Frame}
    (good : ∀ frame ∈ frames, Good frame) {slots : List Slot} (count : slots.length = frames.length)
    (last : Slot) :
    receiveEach receive (slots ++ [last]) (frames.flatMap write) =
      frames.map (fun frame => (accepted, content frame)) ++ [(closed, last)] := by
  have received := delimits.receiveEach_append good count [last] []
  rw [List.append_nil] at received
  rw [received, receiveEach, receiveEach, delimits.ended]

/-- A stream that is cut within a frame: every frame before that one, and then a refusal. -/
theorem Delimits.receiveEach_cutOff
    (delimits : Delimits receive Good write content accepted closed broken)
    {before after : List Frame} {frame : Frame}
    (good : ∀ other ∈ before ++ frame :: after, Good other) {slots : List Slot}
    (count : slots.length = before.length) (last : Slot) {kept : Nat} (inside : 0 < kept)
    (short : kept < (write frame).length) :
    receiveEach receive (slots ++ [last])
        (((before ++ frame :: after).flatMap write).take ((before.flatMap write).length + kept)) =
      before.map (fun frame => (accepted, content frame)) ++ [(broken, last)] := by
  have remains : ((before ++ frame :: after).flatMap write).take
      ((before.flatMap write).length + kept) = before.flatMap write ++ (write frame).take kept := by
    rw [List.flatMap_append, List.take_length_add_append, List.flatMap_cons,
      List.take_append_of_le_length (Nat.le_of_lt short)]
  have goodBefore : ∀ other ∈ before, Good other := fun other member =>
    good other (List.mem_append_left _ member)
  have goodFrame : Good frame := good frame (List.mem_append_right _ List.mem_cons_self)
  rw [remains, delimits.receiveEach_append goodBefore count [last], receiveEach, receiveEach,
    delimits.cutOff frame goodFrame kept inside short]

end Streams

end Framing
