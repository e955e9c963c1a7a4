import Mathlib.Data.List.Pairwise
import Mathlib.Tactic.Common

/-!
# Linked lists with stable iterators

A `std::list` whose elements keep their place while others come and go.  Every cell carries the
identity under which an iterator refers to it, so an iterator stored elsewhere stays meaningful
after insertions and erasures.  A list whose identities are distinct is what an allocator produces.
-/

namespace Sponge.LinkedCells

/-- One element of the list together with the identity of its node. -/
structure Cell (α : Type*) where
  id : ℕ
  value : α
  deriving DecidableEq, Repr

variable {α : Type*} {target : ℕ} {value : α} {cell fresh : Cell α} {front back : List (Cell α)}

/-- Dereference an iterator; `none` if no such node is in the list. -/
def lookup (target : ℕ) (cells : List (Cell α)) : Option α :=
  (cells.find? fun cell ↦ cell.id = target).map Cell.value

/-- `list.insert(it, ...)`: link a new cell in front of the one the iterator refers to. -/
def insertBefore (target : ℕ) (fresh : Cell α) : List (Cell α) → List (Cell α)
  | [] => []
  | cell :: cells =>
      if cell.id = target then fresh :: cell :: cells else cell :: insertBefore target fresh cells

/-- `*it = value`: overwrite an element in place. -/
def assign (target : ℕ) (value : α) (cells : List (Cell α)) : List (Cell α) :=
  cells.map fun cell ↦ if cell.id = target then { cell with value := value } else cell

theorem lookup_append_cons (hfront : ∀ other ∈ front, other.id ≠ cell.id) :
    lookup cell.id (front ++ cell :: back) = some cell.value := by
  unfold lookup
  rw [List.find?_append, List.find?_eq_none.mpr (by simpa using hfront)]
  simp

/-- With different identities, the new cell comes right before the one that the iterator refers to. -/
theorem insertBefore_append_cons (hfront : ∀ other ∈ front, other.id ≠ cell.id) :
    insertBefore cell.id fresh (front ++ cell :: back) = front ++ fresh :: cell :: back := by
  induction front with
  | nil => simp [insertBefore]
  | cons head front ih =>
    rw [List.cons_append, insertBefore, if_neg (hfront head (by simp)),
      ih fun other hother ↦ hfront other (List.mem_cons_of_mem head hother), List.cons_append]

/-- With different identities, exactly one cell changes. -/
theorem assign_append_cons (hfront : ∀ other ∈ front, other.id ≠ cell.id)
    (hback : ∀ other ∈ back, other.id ≠ cell.id) :
    assign cell.id value (front ++ cell :: back) = front ++ { cell with value := value } :: back := by
  have hkeep (cells : List (Cell α)) (h : ∀ other ∈ cells, other.id ≠ cell.id) :
      cells.map (fun other ↦ if other.id = cell.id then { other with value := value } else other) =
        cells := by
    refine (List.map_congr_left fun other hother ↦ ?_).trans cells.map_id
    rw [if_neg (h other hother), id]
  unfold assign
  rw [List.map_append, List.map_cons, hkeep front hfront, hkeep back hback, if_pos rfl]

end Sponge.LinkedCells
