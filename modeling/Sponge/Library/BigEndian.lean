import Mathlib.Algebra.GroupWithZero.Nat
import Mathlib.Data.List.Basic
import Mathlib.Data.Nat.Bitwise
import Mathlib.Data.UInt
import Mathlib.Order.Lattice
import Mathlib.Tactic.Common

/-!
# Big-endian integers

`value` is the number that a list of bytes spells, most significant byte first, and `digits` is the
list of the last bytes of a number.  `field` reads the number at a place of a longer list; a message
that is put together from `digits` is read back field by field with the two lemmas about it.
-/

namespace Sponge.BigEndian

variable {front rest : List UInt8} {width offset number : ℕ}

def value (bytes : List UInt8) : ℕ :=
  bytes.foldl (fun number byte ↦ number * 256 + byte.toNat) 0

def digits : ℕ → ℕ → List UInt8
  | 0, _ => []
  | width + 1, number => digits width (number / 256) ++ [UInt8.ofNat number]

def field (bytes : List UInt8) (offset width : ℕ) : ℕ := value ((bytes.drop offset).take width)

@[simp] theorem value_nil : value [] = 0 := rfl

theorem value_concat (bytes : List UInt8) (byte : UInt8) :
    value (bytes ++ [byte]) = value bytes * 256 + byte.toNat :=
  List.foldl_append

theorem value_lt (bytes : List UInt8) : value bytes < 256 ^ bytes.length := by
  induction bytes using List.reverseRecOn with
  | nil => simp
  | append_singleton bytes byte ih =>
    have hbyte := byte.toNat_lt
    calc
      value (bytes ++ [byte]) = value bytes * 256 + byte.toNat := value_concat bytes byte
      _ < (value bytes + 1) * 256 := by omega
      _ ≤ 256 ^ bytes.length * 256 := Nat.mul_le_mul_right 256 ih
      _ = 256 ^ (bytes ++ [byte]).length := by rw [← Nat.pow_succ]; simp

@[simp] theorem length_digits (width number : ℕ) : (digits width number).length = width := by
  induction width generalizing number with
  | zero => rfl
  | succ width ih => simp [digits, ih]

@[simp] theorem value_digits (width number : ℕ) :
    value (digits width number) = number % 256 ^ width := by
  induction width generalizing number with
  | zero => simp [digits, Nat.mod_one]
  | succ width ih =>
    have hhigh : number % 256 ^ (width + 1) / 256 = number / 256 % 256 ^ width := by
      rw [Nat.pow_succ', Nat.mod_mul_right_div_self]
    have hlow : number % 256 ^ (width + 1) % 256 = number % 256 :=
      Nat.mod_mod_of_dvd number (Dvd.intro_left (256 ^ width) rfl)
    calc
      value (digits (width + 1) number) = 256 * (number / 256 % 256 ^ width) + number % 256 := by
        rw [digits, value_concat, ih, Nat.mul_comm]
        simp
      _ = number % 256 ^ (width + 1) := by rw [← hhigh, ← hlow, Nat.div_add_mod]

/-- The byte at each place, by a shift. -/
theorem digits_eq_map (width number : ℕ) :
    digits width number =
      (List.range width).map fun i ↦ UInt8.ofNat (number >>> ((width - i - 1) * 8)) := by
  induction width generalizing number with
  | zero => rfl
  | succ width ih =>
    rw [digits, ih, List.range_succ, List.map_append]
    congr 1
    · apply List.map_congr_left
      intro i hi
      have hwidth : (width + 1 - i - 1) * 8 = 8 + (width - i - 1) * 8 := by
        have := List.mem_range.mp hi
        omega
      rw [hwidth, Nat.shiftRight_add, Nat.shiftRight_eq_div_pow number 8]
    · simp

/-- A field of some width is a number of that width. -/
theorem field_lt (bytes : List UInt8) (offset width : ℕ) : field bytes offset width < 256 ^ width :=
  (value_lt _).trans_le (Nat.pow_le_pow_right (by decide) (List.length_take_le _ _))

theorem field_append_of_le (h : front.length ≤ offset) :
    field (front ++ rest) offset width = field rest (offset - front.length) width := by
  rw [field, List.drop_append, List.drop_eq_nil_of_le h, List.nil_append, field]

@[simp] theorem field_digits_append (width number : ℕ) (rest : List UInt8) :
    field (digits width number ++ rest) 0 width = number % 256 ^ width := by
  rw [field, List.drop_zero, List.take_left' (length_digits width number), value_digits]

/-- Skipped bytes move the fields. -/
theorem field_drop (bytes : List UInt8) (skipped offset width : ℕ) :
    field (bytes.drop skipped) offset width = field bytes (skipped + offset) width := by
  rw [field, List.drop_drop, field]

/-! ## Parts of a number -/

theorem ofNat_shiftRight_four (h : number < 256) :
    UInt8.ofNat number >>> 4 = UInt8.ofNat (number / 16) := by
  apply UInt8.toNat_inj.mp
  simp only [UInt8.toNat_shiftRight, UInt8.toNat_ofNat', Nat.mod_eq_of_lt h]
  change number >>> 4 = _
  rw [Nat.shiftRight_eq_div_pow]
  omega

theorem ofNat_and_fifteen (number : ℕ) : UInt8.ofNat number &&& 0xf = UInt8.ofNat (number % 16) := by
  rw [← Nat.and_two_pow_sub_one_eq_mod number 4, UInt8.ofNat_and]
  rfl

theorem ofNat_and_mask_uint16 (number width : ℕ) :
    UInt16.ofNat number &&& UInt16.ofNat (2 ^ width - 1) = UInt16.ofNat (number % 2 ^ width) := by
  rw [← Nat.and_two_pow_sub_one_eq_mod number width, UInt16.ofNat_and]

/-- A mask with one bit tests this bit of a byte. -/
theorem ofNat_and_bit_uint8 (number bit : ℕ) (hbit : bit < 8) :
    (UInt8.ofNat number &&& UInt8.ofNat (2 ^ bit) != 0) = number.testBit bit := by
  have hpow : UInt8.ofNat (2 ^ bit) ≠ 0 := by
    have hlt : 2 ^ bit < 256 := Nat.pow_lt_pow_right (by decide) hbit
    rw [ne_eq, ← UInt8.toNat_inj, UInt8.toNat_ofNat', Nat.mod_eq_of_lt hlt]
    exact (Nat.two_pow_pos bit).ne'
  rw [← UInt8.ofNat_and, Nat.and_two_pow]
  cases number.testBit bit with
  | false => simp
  | true => simpa using hpow

/-- A mask with one bit tests this bit of a 16-bit word. -/
theorem ofNat_and_bit_uint16 (number bit : ℕ) (hbit : bit < 16) :
    (UInt16.ofNat number &&& UInt16.ofNat (2 ^ bit) != 0) = number.testBit bit := by
  have hpow : UInt16.ofNat (2 ^ bit) ≠ 0 := by
    have hlt : 2 ^ bit < 65536 := Nat.pow_lt_pow_right (by decide) hbit
    rw [ne_eq, ← UInt16.toNat_inj, UInt16.toNat_ofNat', Nat.mod_eq_of_lt hlt]
    exact (Nat.two_pow_pos bit).ne'
  rw [← UInt16.ofNat_and, Nat.and_two_pow]
  cases number.testBit bit with
  | false => simp
  | true => simpa using hpow

end Sponge.BigEndian
