import Mathlib.Data.List.Infix
import Mathlib.Tactic.Common

namespace Rchan

/-!
# Bounded queues

A bounded queue admits from every batch the part at its beginning for which there is
room, and hands its elements out in the order in which they came in.

`BoundedQueue.History` remembers what has been admitted and what has been removed.
Its last field is the law of a queue: what has been removed, followed by what is
still there, is everything that has been admitted.  The operations are defined
together with the proof that they keep it.
-/

/-- A list of elements that is no longer than the capacity. -/
structure BoundedQueue (Element : Type*) (capacity : Nat) where
  contents : List Element
  fits : contents.length ≤ capacity

namespace BoundedQueue

variable {Element : Type*} {capacity : Nat}

/-- The queue without elements. -/
def empty (Element : Type*) (capacity : Nat) : BoundedQueue Element capacity :=
  ⟨[], Nat.zero_le capacity⟩

/-- How many more elements fit. -/
def room (queue : BoundedQueue Element capacity) : Nat := capacity - queue.contents.length

/-- The part of a batch that the queue admits. -/
def accept (queue : BoundedQueue Element capacity) (batch : List Element) : List Element :=
  batch.take (min batch.length queue.room)

theorem accept_eq_take (queue : BoundedQueue Element capacity) (batch : List Element) :
    queue.accept batch = batch.take queue.room := by
  unfold accept
  rw [List.take_eq_take_iff]
  omega

/-- Append what is admitted of a batch. -/
def offer (queue : BoundedQueue Element capacity) (batch : List Element) :
    BoundedQueue Element capacity where
  contents := queue.contents ++ queue.accept batch
  fits := by
    have fits := queue.fits
    unfold accept room
    rw [List.length_append, List.length_take]
    omega

/-- Remove the given number of elements, or all there are. -/
def remove (queue : BoundedQueue Element capacity) (count : Nat) :
    BoundedQueue Element capacity where
  contents := queue.contents.drop count
  fits := by
    have fits := queue.fits
    rw [List.length_drop]
    omega

/-- A queue with the parts of the batches it has admitted and the elements that have
been removed from it. -/
structure History (Element : Type*) (capacity : Nat) where
  queue : BoundedQueue Element capacity
  admitted : List (List Element)
  removed : List Element
  balance : removed ++ queue.contents = admitted.flatten

namespace History

def start (Element : Type*) (capacity : Nat) : History Element capacity where
  queue := empty Element capacity
  admitted := []
  removed := []
  balance := rfl

def offer (history : History Element capacity) (batch : List Element) :
    History Element capacity where
  queue := history.queue.offer batch
  admitted := history.admitted ++ [history.queue.accept batch]
  removed := history.removed
  balance := by
    rw [List.flatten_append, List.flatten_singleton, ← history.balance, List.append_assoc]
    rfl

def remove (history : History Element capacity) (count : Nat) : History Element capacity where
  queue := history.queue.remove count
  admitted := history.admitted
  removed := history.removed ++ history.queue.contents.take count
  balance := by
    rw [← history.balance, List.append_assoc]
    exact congrArg (history.removed ++ ·) (List.take_append_drop count history.queue.contents)

/-- The queue is empty when everything that was admitted has been removed. -/
theorem contents_eq_nil_iff (history : History Element capacity) :
    history.queue.contents = [] ↔ history.removed = history.admitted.flatten := by
  rw [← history.balance]
  constructor
  · intro none
    rw [none, List.append_nil]
  · intro all
    have lengths := congrArg List.length all
    rw [List.length_append] at lengths
    exact List.eq_nil_of_length_eq_zero (by omega)

end History

end BoundedQueue
end Rchan
