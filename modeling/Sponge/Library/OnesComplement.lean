import Mathlib.Algebra.Group.Even
import Mathlib.Algebra.Ring.Parity
import Sponge.Library.BigEndian

/-!
# Ones' complement sums

The Internet checksum of a list of bytes is the complement of the sum of its 16-bit words, in which a
carry out of the highest bit is added at the lowest one.  Such a sum depends only on the remainder
modulo `65535` and on whether all words are zero; `foldl_carryAdd` brings an addition word by word into
this form.

There are two main results.  By `checksum_filled`, a message that contains its own checksum has the
checksum zero.  By `DifferInWord.checksum_ne_zero`, it has not any more after a change of one word, unless
this word was turned from zero into `65535` or back.
-/

namespace Sponge.OnesComplement

open BigEndian

variable {initial number : ℕ} {bytes front back : List UInt8}

/-! ## Sums of words -/

/-- The sum of the 16-bit words of a list of bytes; a last odd byte is padded with a zero byte. -/
def wordSum : List UInt8 → ℕ
  | [] => 0
  | [byte] => byte.toNat * 256
  | high :: low :: rest => high.toNat * 256 + low.toNat + wordSum rest

/-- The same sum byte by byte.  The flag says that the low byte of a word comes next. -/
def byteSum : Bool → List UInt8 → ℕ
  | _, [] => 0
  | low, byte :: rest => (if low then byte.toNat else byte.toNat * 256) + byteSum (!low) rest

/-- Adding byte by byte or word by word makes no difference. -/
theorem byteSum_eq_wordSum (bytes : List UInt8) : byteSum false bytes = wordSum bytes := by
  fun_induction wordSum bytes with
  | case1 => rfl
  | case2 byte => simp [byteSum]
  | case3 high low rest ih => simp [byteSum, ih, Nat.add_assoc]

/-- At an even length a list can be split without moving the words. -/
theorem wordSum_append_of_even (h : Even front.length) :
    wordSum (front ++ back) = wordSum front + wordSum back := by
  fun_induction wordSum front with
  | case1 => simp
  | case2 byte => exact absurd h Nat.not_even_one
  | case3 high low rest ih =>
    have hrest : Even rest.length := by simpa [Nat.even_add_one] using h
    simp only [List.cons_append, wordSum, ih hrest]
    omega

theorem wordSum_le (bytes : List UInt8) : wordSum bytes ≤ 65535 * ((bytes.length + 1) / 2) := by
  fun_induction wordSum bytes with
  | case1 => exact Nat.zero_le _
  | case2 byte =>
    have := byte.toNat_lt
    simp only [List.length_singleton]
    omega
  | case3 high low rest ih =>
    have := high.toNat_lt
    have := low.toNat_lt
    simp only [List.length_cons]
    omega

theorem wordSum_digits (number : ℕ) : wordSum (digits 2 number) = number % 65536 := by
  simp only [digits, List.nil_append, List.singleton_append, wordSum, UInt8.toNat_ofNat']
  omega

/-! ## End-around carry -/

/-- The 16-bit ones' complement sum of words with the given sum: zero only if all words are zero. -/
def endAround (sum : ℕ) : ℕ := if sum = 0 then 0 else (sum - 1) % 65535 + 1

theorem endAround_le (sum : ℕ) : endAround sum ≤ 65535 := by
  unfold endAround
  split_ifs
  · exact Nat.zero_le _
  · omega

theorem endAround_of_le {sum : ℕ} (h : sum ≤ 65535) : endAround sum = sum := by
  unfold endAround
  split_ifs
  · omega
  · omega

/-- Adding the carry to the lower half does not change the sum. -/
theorem endAround_carry (sum : ℕ) : endAround (sum / 65536 + sum % 65536) = endAround sum := by
  unfold endAround
  split_ifs
  · rfl
  · omega
  · omega
  · omega

/-- The sum is all ones exactly if it is a positive multiple of `65535`. -/
theorem endAround_eq_max_iff {sum : ℕ} : endAround sum = 65535 ↔ 0 < sum ∧ 65535 ∣ sum := by
  unfold endAround
  split_ifs with h
  · simp [h]
  · omega

/-! ## Adding word by word -/

/-- Addition of 16-bit words in which the carry is added at the lowest bit. -/
def carryAdd (sum word : ℕ) : ℕ := (sum + word) / 65536 + (sum + word) % 65536

/-- The 16-bit words of a list of bytes, most significant byte first.  A last odd byte is padded with a
zero byte. -/
def words : List UInt8 → List ℕ
  | [] => []
  | [byte] => [byte.toNat * 256]
  | high :: low :: rest => (high.toNat * 256 + low.toNat) :: words rest

theorem sum_words (bytes : List UInt8) : (words bytes).sum = wordSum bytes := by
  fun_induction words bytes with
  | case1 => rfl
  | case2 byte => simp [wordSum]
  | case3 high low rest ih => rw [List.sum_cons, ih, wordSum]

theorem le_of_mem_words {word : ℕ} (h : word ∈ words bytes) : word ≤ 65535 := by
  fun_induction words bytes with
  | case1 => contradiction
  | case2 byte =>
    have := byte.toNat_lt
    rw [List.mem_singleton.mp h]
    omega
  | case3 high low rest ih =>
    have := high.toNat_lt
    have := low.toNat_lt
    cases List.mem_cons.mp h with
    | inl hfirst => omega
    | inr hrest => exact ih hrest

/-- Adding one more word with its carry is adding it to the sum. -/
theorem carryAdd_endAround (sum : ℕ) {word : ℕ} (h : word ≤ 65535) :
    carryAdd (endAround sum) word = endAround (sum + word) := by
  unfold carryAdd endAround
  split_ifs
  · omega
  · omega
  · omega
  · omega

/-- Words that are added one after the other give the sum with all carries added at the end. -/
theorem foldl_carryAdd (sum : ℕ) {numbers : List ℕ} (h : ∀ word ∈ numbers, word ≤ 65535) :
    numbers.foldl carryAdd (endAround sum) = endAround (sum + numbers.sum) := by
  induction numbers generalizing sum with
  | nil => rfl
  | cons word rest ih =>
    have hword := h word List.mem_cons_self
    have hrest := fun other hother ↦ h other (List.mem_cons_of_mem word hother)
    rw [List.foldl_cons, carryAdd_endAround sum hword, ih _ hrest, List.sum_cons, Nat.add_assoc]

/-- The ones' complement sum of an initial sum of 32 bits, taken as two words, and the words of a list of
bytes. -/
def onesSum (initial : ℕ) (bytes : List UInt8) : ℕ :=
  (initial / 65536 :: initial % 65536 :: words bytes).foldl carryAdd 0

/-- The words can be added in any way: only their sum matters. -/
theorem onesSum_eq (bytes : List UInt8) (h : initial < 2 ^ 32) :
    onesSum initial bytes = endAround (initial + wordSum bytes) := by
  have hhalves : carryAdd (carryAdd 0 (initial / 65536)) (initial % 65536) = endAround initial := by
    unfold carryAdd endAround
    split_ifs
    · omega
    · omega
  calc
    onesSum initial bytes = (words bytes).foldl carryAdd (endAround initial) := by
      rw [onesSum, List.foldl_cons, List.foldl_cons, hhalves]
    _ = endAround (initial + wordSum bytes) := by
      rw [foldl_carryAdd initial fun _ ↦ le_of_mem_words, sum_words]

/-! ## The checksum -/

def checksum (initial : ℕ) (bytes : List UInt8) : ℕ :=
  65535 - endAround (initial + wordSum bytes)

theorem checksum_lt (initial : ℕ) (bytes : List UInt8) : checksum initial bytes < 65536 :=
  Nat.lt_succ_of_le (Nat.sub_le _ _)

@[simp] theorem toNat_ofNat_checksum (initial : ℕ) (bytes : List UInt8) :
    (UInt16.ofNat (checksum initial bytes)).toNat = checksum initial bytes :=
  UInt16.toNat_ofNat_of_lt (checksum_lt initial bytes)

/-- The checksum is zero exactly if the sum is a positive multiple of `65535`. -/
theorem checksum_eq_zero_iff :
    checksum initial bytes = 0 ↔
      0 < initial + wordSum bytes ∧ 65535 ∣ initial + wordSum bytes := by
  have hle := endAround_le (initial + wordSum bytes)
  rw [← endAround_eq_max_iff]
  unfold checksum
  omega

theorem add_checksum (sum : ℕ) :
    0 < sum + (65535 - endAround sum) ∧ 65535 ∣ sum + (65535 - endAround sum) := by
  unfold endAround
  split_ifs
  · omega
  · omega

/-- A message with its checksum in the place that was zero when it was computed. -/
theorem checksum_filled (initial : ℕ) (h : Even front.length) (back : List UInt8) :
    checksum initial (front ++ (digits 2 (checksum initial (front ++ (digits 2 0 ++ back))) ++ back)) =
      0 := by
  have hfilled (number : ℕ) : wordSum (front ++ (digits 2 number ++ back)) =
      wordSum front + (number % 65536 + wordSum back) := by
    rw [wordSum_append_of_even h, wordSum_append_of_even (by simp), wordSum_digits]
  have hzero : wordSum (front ++ (digits 2 0 ++ back)) = wordSum front + wordSum back := by
    simp [hfilled]
  set computed := checksum initial (front ++ (digits 2 0 ++ back)) with hcomputed
  have hlt : computed < 65536 := checksum_lt _ _
  have hsum : initial + wordSum (front ++ (digits 2 computed ++ back)) =
      (initial + wordSum (front ++ (digits 2 0 ++ back))) + computed := by
    calc
      _ = initial + (wordSum front + (computed + wordSum back)) := by
        rw [hfilled, Nat.mod_eq_of_lt hlt]
      _ = _ := by
        rw [hzero]
        omega
  rw [checksum_eq_zero_iff, hsum]
  exact add_checksum _

/-! ## Changes of one word -/

def byteAt (bytes : List UInt8) (position : ℕ) : ℕ := (bytes[position]?.getD 0).toNat

/-- A 16-bit word by its index.  A last odd byte is padded with a zero byte. -/
def wordAt (bytes : List UInt8) (word : ℕ) : ℕ :=
  byteAt bytes (2 * word) * 256 + byteAt bytes (2 * word + 1)

theorem byteAt_lt (bytes : List UInt8) (position : ℕ) : byteAt bytes position < 256 :=
  (bytes[position]?.getD 0).toNat_lt

theorem wordAt_le (bytes : List UInt8) (word : ℕ) : wordAt bytes word ≤ 65535 := by
  have hhigh := byteAt_lt bytes (2 * word)
  have hlow := byteAt_lt bytes (2 * word + 1)
  unfold wordAt
  omega

theorem wordSum_take_two (bytes : List UInt8) : wordSum (bytes.take 2) = wordAt bytes 0 := by
  match bytes with
  | [] => simp [wordSum, wordAt, byteAt]
  | [high] => simp [wordSum, wordAt, byteAt]
  | high :: low :: rest => simp [wordSum, wordAt, byteAt]

theorem wordSum_take_add_drop (bytes : List UInt8) {count : ℕ} (h : Even count) :
    wordSum bytes = wordSum (bytes.take count) + wordSum (bytes.drop count) := by
  by_cases hcount : count ≤ bytes.length
  · have heven : Even (bytes.take count).length := by rwa [List.length_take_of_le hcount]
    rw [← wordSum_append_of_even heven, List.take_append_drop]
  · have hshort : bytes.length ≤ count := (not_le.mp hcount).le
    rw [List.take_of_length_le hshort, List.drop_of_length_le hshort]
    rfl

/-- The sum of all words in terms of one of them. -/
theorem wordSum_split (bytes : List UInt8) (word : ℕ) :
    wordSum bytes = wordSum (bytes.take (2 * word)) +
      (wordAt bytes word + wordSum (bytes.drop (2 * word + 2))) := by
  have hword : wordAt (bytes.drop (2 * word)) 0 = wordAt bytes word := by
    simp [wordAt, byteAt, List.getElem?_drop]
  calc
    wordSum bytes = wordSum (bytes.take (2 * word)) + wordSum (bytes.drop (2 * word)) :=
      wordSum_take_add_drop bytes (even_two_mul word)
    _ = wordSum (bytes.take (2 * word)) + (wordSum ((bytes.drop (2 * word)).take 2) +
        wordSum ((bytes.drop (2 * word)).drop 2)) := by
      rw [← wordSum_take_add_drop (bytes.drop (2 * word)) even_two]
    _ = _ := by
      rw [wordSum_take_two, hword, List.drop_drop]

/-- Two lists of one length that differ at most inside one word. -/
structure DifferInWord (word : ℕ) (before after : List UInt8) : Prop where
  length : after.length = before.length
  same : ∀ position, position / 2 ≠ word → after[position]? = before[position]?

namespace DifferInWord

variable {word : ℕ} {before after : List UInt8} (h : DifferInWord word before after)
include h

theorem take_eq : after.take (2 * word) = before.take (2 * word) := by
  apply List.ext_getElem?
  intro position
  rw [List.getElem?_take, List.getElem?_take]
  split_ifs with hposition
  · exact h.same position (by omega)
  · rfl

theorem drop_eq : after.drop (2 * word + 2) = before.drop (2 * word + 2) := by
  apply List.ext_getElem?
  intro position
  rw [List.getElem?_drop, List.getElem?_drop]
  exact h.same _ (by omega)

/-- The sums differ as the two words do. -/
theorem wordSum_add :
    wordSum after + wordAt before word = wordSum before + wordAt after word := by
  rw [wordSum_split after word, wordSum_split before word, h.take_eq, h.drop_eq]
  omega

/-- Lists that are not equal differ in the number of the word. -/
theorem wordAt_ne (hne : after ≠ before) : wordAt after word ≠ wordAt before word := by
  intro heq
  have hhigh := byteAt_lt after (2 * word)
  have hlow := byteAt_lt before (2 * word)
  have hhighNext := byteAt_lt after (2 * word + 1)
  have hlowNext := byteAt_lt before (2 * word + 1)
  unfold wordAt at heq
  apply hne
  apply List.ext_getElem h.length
  intro position hafter hbefore
  by_cases hposition : position / 2 = word
  · have hbyte : byteAt after position = byteAt before position := by
      obtain rfl | rfl : position = 2 * word ∨ position = 2 * word + 1 := by omega
      · omega
      · omega
    unfold byteAt at hbyte
    rw [List.getElem?_eq_getElem hafter, List.getElem?_eq_getElem hbefore] at hbyte
    exact UInt8.toNat_inj.mp hbyte
  · have hsame := h.same position hposition
    rw [List.getElem?_eq_getElem hafter, List.getElem?_eq_getElem hbefore] at hsame
    exact Option.some_inj.mp hsame

/-- A changed word is noticed, unless it was turned from zero into `65535` or back: only these two
numbers have the same remainder. -/
theorem checksum_ne_zero (hne : after ≠ before) (hzero : checksum initial before = 0)
    (hraised : ¬ (wordAt before word = 0 ∧ wordAt after word = 65535))
    (hlowered : ¬ (wordAt before word = 65535 ∧ wordAt after word = 0)) :
    checksum initial after ≠ 0 := by
  have hsum := h.wordSum_add
  have hword := h.wordAt_ne hne
  have hbefore := wordAt_le before word
  have hafter := wordAt_le after word
  rw [checksum_eq_zero_iff] at hzero
  rw [Ne, checksum_eq_zero_iff]
  omega

end DifferInWord

theorem byteAt_modify_ne (bytes : List UInt8) {position other : ℕ} (change : UInt8 → UInt8)
    (h : position ≠ other) : byteAt (bytes.modify position change) other = byteAt bytes other := by
  rw [byteAt, List.getElem?_modify_ne change bytes h, byteAt]

/-- Changing one byte changes one word. -/
theorem differInWord_modify (bytes : List UInt8) (position : ℕ) (change : UInt8 → UInt8) :
    DifferInWord (position / 2) bytes (bytes.modify position change) where
  length := List.length_modify _ _ _
  same other hother := by
    rw [List.getElem?_modify_ne]
    exact fun heq ↦ hother (congrArg (· / 2) heq.symm)

/-- A change of one byte is always noticed: the other byte of the word cannot be both zero and `255`. -/
theorem checksum_modify_ne_zero {position : ℕ} {change : UInt8 → UInt8}
    (hne : bytes.modify position change ≠ bytes) (hzero : checksum initial bytes = 0) :
    checksum initial (bytes.modify position change) ≠ 0 := by
  have hdiffer := differInWord_modify bytes position change
  set word := position / 2 with hword
  have hother : byteAt (bytes.modify position change) (2 * word) = byteAt bytes (2 * word) ∨
      byteAt (bytes.modify position change) (2 * word + 1) = byteAt bytes (2 * word + 1) := by
    by_cases hposition : position = 2 * word
    · exact .inr (byteAt_modify_ne bytes change (by omega))
    · exact .inl (byteAt_modify_ne bytes change hposition)
  have hlow := byteAt_lt bytes (2 * word + 1)
  have hlowAfter := byteAt_lt (bytes.modify position change) (2 * word + 1)
  apply hdiffer.checksum_ne_zero hne hzero
  · unfold wordAt
    omega
  · unfold wordAt
    omega

end Sponge.OnesComplement
