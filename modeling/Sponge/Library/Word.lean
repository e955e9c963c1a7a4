import Mathlib.Algebra.GroupWithZero.Nat
import Mathlib.Data.Nat.Basic
import Mathlib.Tactic.Common

/-!
# Unsigned 64-bit arithmetic

Values of type `size_t` and `uint64_t` are natural numbers.  Differences wrap around, since an
unsigned subtraction that goes below zero is an ordinary event and has to be seen.

Sums are exact.  A counter that overflows has counted `2 ^ 64` bytes.  For sums of a counter and a
capacity, as in `capacity + bytes_read` and `_ackno() + window_size()`, this needs a capacity that is
not close to `2 ^ 64`, and for the clock a time below `2 ^ 64` milliseconds; what happens beyond is
outside of the model.
-/

namespace Sponge.Word

abbrev size : ℕ := 2 ^ 64

/-- `std::numeric_limits<size_t>::max()`. -/
abbrev max : ℕ := 2 ^ 64 - 1

/-- Unsigned subtraction, which wraps around below zero. -/
def sub (left right : ℕ) : ℕ :=
  if right ≤ left then left - right else left + size - right

theorem sub_of_le {left right : ℕ} (h : right ≤ left) : sub left right = left - right :=
  if_pos h

@[simp] theorem sub_zero (left : ℕ) : sub left 0 = left := by simp [sub]

end Sponge.Word
