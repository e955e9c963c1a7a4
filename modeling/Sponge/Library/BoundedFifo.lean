import Mathlib.Data.List.Basic
import Mathlib.Order.Bounds.Basic
import Mathlib.Tactic.Common

/-!
# Bounded queues

A bounded first-in first-out queue, seen through its history: all that was ever accepted, in order,
and how much of it has been popped.  What is left of it is the contents of the queue, which never
exceed the capacity.

`perform` makes a machine of the queue.  An implementation refines the queue if it gives the same
response to every operation.
-/

namespace Sponge

variable {α : Type*}

/-- A bounded queue with its history. -/
structure BoundedFifo (α : Type*) where
  capacity : ℕ
  accepted : List α
  popped : ℕ
  popped_le : popped ≤ accepted.length
  fits : accepted.length - popped ≤ capacity

namespace BoundedFifo

def new (capacity : ℕ) : BoundedFifo α where
  capacity
  accepted := []
  popped := 0
  popped_le := le_rfl
  fits := Nat.zero_le capacity

def contents (fifo : BoundedFifo α) : List α := fifo.accepted.drop fifo.popped

theorem length_contents (fifo : BoundedFifo α) :
    fifo.contents.length = fifo.accepted.length - fifo.popped :=
  List.length_drop

def accepts (fifo : BoundedFifo α) (data : List α) : ℕ :=
  min data.length (fifo.capacity - fifo.contents.length)

/-- As many elements are accepted as fit. -/
theorem isGreatest_accepts (fifo : BoundedFifo α) (data : List α) :
    IsGreatest {count | count ≤ data.length ∧ fifo.contents.length + count ≤ fifo.capacity}
      (fifo.accepts data) := by
  have hfits := fifo.fits
  rw [← length_contents] at hfits
  constructor
  · constructor
    · exact min_le_left _ _
    · unfold accepts
      omega
  · rintro count ⟨hlength, hroom⟩
    exact le_min hlength (Nat.le_sub_of_add_le' hroom)

/-- Accept the longest initial part that fits. -/
def write (fifo : BoundedFifo α) (data : List α) : BoundedFifo α where
  capacity := fifo.capacity
  accepted := fifo.accepted ++ data.take (fifo.accepts data)
  popped := fifo.popped
  popped_le := by
    rw [List.length_append]
    exact fifo.popped_le.trans (Nat.le_add_right _ _)
  fits := by
    obtain ⟨hlength, hroom⟩ := (fifo.isGreatest_accepts data).1
    have hle := fifo.popped_le
    rw [length_contents] at hroom
    rw [List.length_append, List.length_take_of_le hlength]
    omega

def pop (fifo : BoundedFifo α) (count : ℕ) : BoundedFifo α where
  capacity := fifo.capacity
  accepted := fifo.accepted
  popped := fifo.popped + min count fifo.contents.length
  popped_le := by
    have hle := fifo.popped_le
    rw [length_contents]
    omega
  fits := by
    have hfits := fifo.fits
    omega

/-- A write appends what it accepts. -/
theorem contents_write (fifo : BoundedFifo α) (data : List α) :
    (fifo.write data).contents = fifo.contents ++ data.take (fifo.accepts data) :=
  List.drop_append_of_le_length fifo.popped_le

theorem contents_pop (fifo : BoundedFifo α) (count : ℕ) :
    (fifo.pop count).contents = fifo.contents.drop count := by
  change fifo.accepted.drop (fifo.popped + min count fifo.contents.length) =
    (fifo.accepted.drop fifo.popped).drop count
  rw [← List.drop_drop, List.drop_eq_drop_iff]
  change min (min count fifo.contents.length) fifo.contents.length = min count fifo.contents.length
  omega

/-! ## The queue as a machine -/

/-- What can be done with a queue.  Closing it has no effect on what it holds or accepts. -/
inductive Operation (α : Type*) where
  | write (data : List α)
  | peek (count : ℕ)
  | pop (count : ℕ)
  | read (count : ℕ)
  | close
  deriving DecidableEq, Repr

inductive Response (α : Type*) where
  | count (accepted : ℕ)
  | elements (front : List α)
  | done
  deriving DecidableEq, Repr

def perform (fifo : BoundedFifo α) : Operation α → Response α × BoundedFifo α
  | .write data => (.count (fifo.accepts data), fifo.write data)
  | .peek count => (.elements (fifo.contents.take count), fifo)
  | .pop count => (.done, fifo.pop count)
  | .read count => (.elements (fifo.contents.take count), fifo.pop count)
  | .close => (.done, fifo)

def step (fifo : BoundedFifo α) (operation : Operation α) : BoundedFifo α :=
  (fifo.perform operation).2

end BoundedFifo

end Sponge
