import Mathlib.Data.UInt
import Sponge.Library.OnesComplement

/-!
# The Internet checksum

`InternetChecksum` adds bytes to a 32-bit sum, which is folded to 16 bits at the end.  As long as the
sum does not overflow, the result is the ones' complement checksum of all bytes, however they are cut
into pieces.
-/

namespace Sponge

open OnesComplement

structure InternetChecksum where
  sum : UInt32 := 0
  parity : Bool := false
  deriving DecidableEq, Repr

namespace InternetChecksum

variable {check : InternetChecksum} {data : List UInt8}

def new (initialSum : UInt32) : InternetChecksum := { sum := initialSum }

/-- The body of the loop in `add`. -/
def addByte (check : InternetChecksum) (byte : UInt8) : InternetChecksum :=
  let val : UInt16 := byte.toUInt16
  let val := if !check.parity then val <<< 8 else val
  { sum := check.sum + val.toUInt32, parity := !check.parity }

def add (check : InternetChecksum) (data : List UInt8) : InternetChecksum := data.foldl addByte check

theorem toNat_carry (ret : UInt32) :
    ((ret >>> 16) + (ret &&& 0xffff)).toNat = ret.toNat / 65536 + ret.toNat % 65536 := by
  have hhigh : (ret >>> 16).toNat = ret.toNat / 65536 := by
    simp [Nat.shiftRight_eq_div_pow]
  have hlow : (ret &&& 0xffff).toNat = ret.toNat % 65536 := by
    rw [UInt32.toNat_and]
    exact Nat.and_two_pow_sub_one_eq_mod ret.toNat 16
  have hlt := ret.toNat_lt
  rw [UInt32.toNat_add, hhigh, hlow, Nat.mod_eq_of_lt]
  omega

/-- The loop in `value`, which adds the carries until none is left. -/
def fold (ret : UInt32) : UInt32 :=
  if ret > 0xffff then fold ((ret >>> 16) + (ret &&& 0xffff)) else ret
termination_by ret.toNat
decreasing_by
  rename_i hcarry
  have hlarge : 0xffff < ret.toNat := UInt32.lt_iff_toNat_lt.mp hcarry
  rw [toNat_carry]
  omega

def value (check : InternetChecksum) : UInt16 := (~~~(fold check.sum)).toUInt16

theorem toNat_fold (ret : UInt32) : (fold ret).toNat = endAround ret.toNat := by
  fun_induction fold ret with
  | case1 ret hcarry ih => rw [ih, toNat_carry, endAround_carry]
  | case2 ret hcarry =>
    exact (endAround_of_le (UInt32.le_iff_toNat_le.mp (UInt32.not_lt.mp hcarry))).symm

/-- The value is the complement of the ones' complement sum. -/
theorem toNat_value (check : InternetChecksum) :
    check.value.toNat = 65535 - endAround check.sum.toNat := by
  have hle := endAround_le check.sum.toNat
  rw [value, UInt32.toNat_toUInt16, UInt32.toNat_not, toNat_fold]
  change (4294967296 - 1 - endAround check.sum.toNat) % 65536 = _
  omega

/-! ## Sums -/

theorem sum_addByte (check : InternetChecksum) (byte : UInt8) :
    (check.addByte byte).sum.toNat = (check.sum.toNat +
      if check.parity then byte.toNat else byte.toNat * 256) % 2 ^ 32 := by
  have hbyte := byte.toNat_lt
  unfold addByte
  cases check.parity with
  | true => simp
  | false =>
    simp [Nat.shiftLeft_eq]
    omega

/-- Adding bytes adds their sum, modulo `2 ^ 32`. -/
theorem sum_add (check : InternetChecksum) (data : List UInt8) :
    (check.add data).sum.toNat = (check.sum.toNat + byteSum check.parity data) % 2 ^ 32 := by
  induction data generalizing check with
  | nil => exact (Nat.mod_eq_of_lt check.sum.toNat_lt).symm
  | cons byte rest ih =>
    change ((check.addByte byte).add rest).sum.toNat = _
    rw [ih, sum_addByte, Nat.mod_add_mod, Nat.add_assoc]
    rfl

theorem add_append (check : InternetChecksum) (data more : List UInt8) :
    check.add (data ++ more) = (check.add data).add more :=
  List.foldl_append

/-- Without an overflow, the class computes the checksum of all bytes. -/
theorem toNat_value_add {initialSum : UInt32} (h : initialSum.toNat + wordSum data < 2 ^ 32) :
    ((new initialSum).add data).value.toNat = checksum initialSum.toNat data := by
  rw [toNat_value, sum_add, checksum, ← byteSum_eq_wordSum]
  rw [← byteSum_eq_wordSum] at h
  change 65535 - endAround ((initialSum.toNat + byteSum false data) % 2 ^ 32) = _
  rw [Nat.mod_eq_of_lt h]

/-- As long as the sum does not overflow, the value is the checksum. -/
theorem value_add {initialSum : UInt32} (h : initialSum.toNat + wordSum data < 2 ^ 32) :
    ((new initialSum).add data).value = .ofNat (checksum initialSum.toNat data) := by
  rw [← toNat_value_add h, UInt16.ofNat_toNat]

theorem value_add_eq_zero_iff {initialSum : UInt32}
    (h : initialSum.toNat + wordSum data < 2 ^ 32) :
    ((new initialSum).add data).value = 0 ↔ checksum initialSum.toNat data = 0 := by
  rw [← toNat_value_add h, ← UInt16.toNat_inj]
  rfl

theorem foldl_add (check : InternetChecksum) (chunks : List (List UInt8)) :
    chunks.foldl add check = check.add chunks.flatten := by
  induction chunks generalizing check with
  | nil => rfl
  | cons chunk rest ih => rw [List.foldl_cons, ih, List.flatten_cons, add_append]

/-! ## The loop -/

/-- One iteration of the loop in `value`. -/
def carry (ret : UInt32) : UInt32 := (ret >>> 16) + (ret &&& 0xffff)

/-- The loop ends after at most two iterations: the first one leaves at most `131070`. -/
theorem fold_eq_iterate (ret : UInt32) :
    ∃ rounds ≤ 2, (∀ round < rounds, carry^[round] ret > 0xffff) ∧ ¬ carry^[rounds] ret > 0xffff ∧
      fold ret = carry^[rounds] ret := by
  have hlt := ret.toNat_lt
  have hlarge (number : UInt32) : number > 0xffff ↔ 65535 < number.toNat := UInt32.lt_iff_toNat_lt
  have hfirst : (carry ret).toNat = ret.toNat / 65536 + ret.toNat % 65536 := toNat_carry ret
  have hsecond : (carry (carry ret)).toNat = (carry ret).toNat / 65536 + (carry ret).toNat % 65536 :=
    toNat_carry (carry ret)
  have hagain (number : UInt32) (h : number > 0xffff) : fold number = fold (carry number) := by
    rw [fold, if_pos h, carry]
  have hend (number : UInt32) (h : ¬ number > 0xffff) : fold number = number := by
    rw [fold, if_neg h]
  by_cases hzero : ret > 0xffff
  · by_cases hone : carry ret > 0xffff
    · have htwo : ¬ carry (carry ret) > 0xffff := by
        rw [hlarge]
        omega
      refine ⟨2, le_rfl, fun round hround ↦ ?_, htwo, ?_⟩
      · obtain rfl | rfl : round = 0 ∨ round = 1 := by omega
        · exact hzero
        · exact hone
      · rw [hagain ret hzero, hagain _ hone, hend _ htwo]
        rfl
    · refine ⟨1, by decide, fun round hround ↦ ?_, hone, (hagain ret hzero).trans (hend _ hone)⟩
      obtain rfl : round = 0 := by omega
      exact hzero
  · exact ⟨0, by decide, nofun, hzero, hend ret hzero⟩

/-! ## Chunks -/

/-- However the data is cut into chunks, the value is the complement of the ones' complement sum of the
initial sum and of all words, as long as the sum fits into 32 bits.  It is zero exactly if the sum is a
positive multiple of `65535`.  The loop that adds the carries ends for every sum. -/
theorem value_of_chunks (initialSum : UInt32) (data : List UInt8) (chunks : List (List UInt8))
    (hchunks : chunks.flatten = data)
    (h : initialSum.toNat + 65535 * ((data.length + 1) / 2) < 2 ^ 32) :
    let result := (chunks.foldl add (new initialSum)).value
    result = ~~~UInt16.ofNat (onesSum initialSum.toNat data) ∧
      (result = 0 ↔ 0 < initialSum.toNat + (words data).sum ∧
        65535 ∣ initialSum.toNat + (words data).sum) ∧
      ∀ ret : UInt32, ∃ rounds ≤ 2, (∀ round < rounds, carry^[round] ret > 0xffff) ∧
        ¬ carry^[rounds] ret > 0xffff ∧ fold ret = carry^[rounds] ret := by
  intro result
  have hsum : initialSum.toNat + wordSum data < 2 ^ 32 := by
    have hwords := wordSum_le data
    omega
  have hresult : result = ((new initialSum).add data).value := by
    rw [← hchunks, ← foldl_add]
  refine ⟨?_, ?_, fold_eq_iterate⟩
  · have hle := endAround_le (initialSum.toNat + wordSum data)
    rw [← UInt16.toNat_inj, hresult, toNat_value_add hsum, onesSum_eq data initialSum.toNat_lt,
      UInt16.toNat_not, UInt16.toNat_ofNat_of_lt' (Nat.lt_succ_of_le hle)]
    rfl
  · rw [hresult, value_add_eq_zero_iff hsum, checksum_eq_zero_iff, sum_words]

/-- Three bytes, cut after the first one and again at the same place. -/
theorem value_of_chunks_odd :
    ((([[0x12], [], [0x34, 0x56]] : List (List UInt8)).foldl add (new 0xfffd0000)).value =
      ~~~UInt16.ofNat (onesSum 0xfffd0000 [0x12, 0x34, 0x56])) ∧
      onesSum 0xfffd0000 [0x12, 0x34, 0x56] = 0x6832 := by
  refine ⟨?_, by decide⟩
  exact (value_of_chunks 0xfffd0000 [0x12, 0x34, 0x56] [[0x12], [], [0x34, 0x56]] rfl (by decide)).1

end InternetChecksum

end Sponge
