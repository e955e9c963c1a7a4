import Sponge.Stream.ReassemblerLoops

/-!
# Bookkeeping of the stream reassembler

The four structures of the reassembler describe one set of positions.  `Consistent` states this:
the map points at the nodes of the sorted list, the free intervals are the complement of the
positions held, and the byte count is their number.  Every push keeps it, whatever the data, the
index and the end mark are, and `pushSubstring_spec` says which positions a push adds.
-/

namespace Sponge.StreamReassembler

open Intervals OrderedKeys

variable {index position : ℕ} {tmp data : List UInt8} {used : List (ℕ × ℕ)}
  {reassembler : StreamReassembler}

/-! ## The invariant -/

/-- The free intervals are the complement of the positions held, and the count is their number. -/
structure Counted (held : ℕ → Prop) (storedBytes : ℕ) (usedByte : List (ℕ × ℕ)) : Prop where
  separated : Separated usedByte
  bounded : ∀ it ∈ usedByte, it.2 ≤ Word.max
  covers : ∀ position, Covers usedByte position ↔ position < Word.max ∧ ¬ held position
  stored : storedBytes + measure usedByte = Word.max

theorem Counted.congr {held held' : ℕ → Prop} {storedBytes : ℕ}
    (h : Counted held storedBytes used) (hheld : ∀ position, held' position ↔ held position) :
    Counted held' storedBytes used where
  separated := h.separated
  bounded := h.bounded
  covers position := by rw [h.covers, hheld]
  stored := h.stored

/-- Counting the free positions of a range and taking them out keeps the count. -/
theorem Counted.remove {held : ℕ → Prop} {storedBytes : ℕ} (h : Counted held storedBytes used)
    (index size : ℕ) :
    Counted (fun position ↦ held position ∨ (index ≤ position ∧ position < index + size))
      (storedBytes + (used.map (overlap index (index + size))).sum)
      (used.flatMap (cut index (index + size))) where
  separated := h.separated.flatMap_cut (Nat.le_add_right index size)
  bounded piece hpiece := by
    obtain ⟨it, hit, hmem⟩ := List.mem_flatMap.mp hpiece
    exact (mem_cut_bounds (h.separated.nonempty it hit) hmem).2.2.trans (h.bounded it hit)
  covers position := by
    rw [covers_flatMap_cut, h.covers]
    tauto
  stored := by
    have hmeasure := measure_flatMap_cut (Nat.le_add_right index size) h.separated
    have hstored := h.stored
    omega

/-- The count is the number of positions outside the free intervals. -/
theorem Counted.card_not_covers {held : ℕ → Prop} {storedBytes : ℕ}
    (h : Counted held storedBytes used) :
    ((Finset.range Word.max).filter fun position ↦ ¬ Covers used position).card = storedBytes := by
  have hfree := h.separated.card_covers h.bounded
  have hsplit := Finset.card_filter_add_card_filter_not (s := Finset.range Word.max) (Covers used)
  have hstored := h.stored
  rw [hfree, Finset.card_range] at hsplit
  omega

/-- These are the positions held below the last 64-bit position. -/
theorem Counted.card_held {held : ℕ → Prop} [DecidablePred held] {storedBytes : ℕ}
    (h : Counted held storedBytes used) :
    ((Finset.range Word.max).filter held).card = storedBytes := by
  have hsame : (Finset.range Word.max).filter held =
      (Finset.range Word.max).filter fun position ↦ ¬ Covers used position := by
    refine Finset.filter_congr fun position hposition ↦ ?_
    rw [h.covers, not_and_not_right]
    exact ⟨fun hheld _ ↦ hheld, fun hheld ↦ hheld (Finset.mem_range.mp hposition)⟩
  rw [hsame, h.card_not_covers]

/-- The representation invariant of the reassembler. -/
structure Consistent (reassembler : StreamReassembler) : Prop where
  assembling : Assembling reassembler.strToAssemble reassembler
  pending : ∀ cell ∈ reassembler.strToAssemble, reassembler.assembledBytes < cell.value.2
  counted : Counted reassembler.Holds reassembler.storedBytes reassembler.usedByte

/-- A new reassembler is consistent. -/
theorem consistent_new (capacity : ℕ) : Consistent (new capacity) where
  assembling := ⟨ByteStream.valid_new capacity, rfl, rfl, ⟨.nil, .nil, nofun, rfl⟩, nofun⟩
  pending := nofun
  counted :=
    { separated := ⟨by simp [new, Word.max], by simp [new]⟩
      bounded := by simp [new]
      covers := by simp [new, Holds]
      stored := by simp [new] }

/-- The byte that would come next is not held. -/
theorem Consistent.not_holds_assembledBytes (h : Consistent reassembler) :
    ¬ reassembler.Holds reassembler.assembledBytes := by
  rintro (hlt | ⟨cell, hcell, hle, -⟩)
  · exact hlt.false
  · exact (h.pending cell hcell).not_ge hle

theorem Consistent.assembledBytes_le (h : Consistent reassembler) :
    reassembler.assembledBytes ≤ reassembler.capacity + reassembler.output.byteRead := by
  have hlength := h.assembling.valid.length_contents
  have hfits := h.assembling.valid.length_le
  have hwritten := h.assembling.written
  have hcapacity := h.assembling.capacity
  omega

/-- All held positions lie below the right edge of the window. -/
theorem Consistent.lt_of_holds (h : Consistent reassembler) (hholds : reassembler.Holds position) :
    position < reassembler.capacity + reassembler.output.byteRead := by
  rcases hholds with hlt | ⟨cell, hcell, -, hlt⟩
  · exact hlt.trans_le h.assembledBytes_le
  · exact hlt.trans_le (h.assembling.fits cell hcell)

/-- The assembled positions are among those counted. -/
theorem Consistent.range_subset (hbound : ∀ position, reassembler.Holds position →
    position < Word.max) : Finset.range reassembler.assembledBytes ⊆
      (Finset.range Word.max).filter reassembler.Holds := by
  intro position hposition
  have hholds : reassembler.Holds position := .inl (Finset.mem_range.mp hposition)
  exact Finset.mem_filter.mpr ⟨Finset.mem_range.mpr (hbound position hholds), hholds⟩

theorem Consistent.assembledBytes_le_storedBytes (h : Consistent reassembler)
    (hbound : ∀ position, reassembler.Holds position → position < Word.max) :
    reassembler.assembledBytes ≤ reassembler.storedBytes := by
  have hle := Finset.card_le_card (Consistent.range_subset hbound)
  rwa [h.counted.card_held, Finset.card_range] at hle

theorem Consistent.unassembledBytes_eq_zero_iff (h : Consistent reassembler)
    (hbound : ∀ position, reassembler.Holds position → position < Word.max) :
    reassembler.unassembledBytes = 0 ↔ reassembler.storedBytes = reassembler.assembledBytes := by
  have hle := h.assembledBytes_le_storedBytes hbound
  unfold unassembledBytes
  rw [Word.sub_of_le hle]
  omega

/-- The counters agree exactly when no byte waits. -/
theorem Consistent.storedBytes_eq_iff (h : Consistent reassembler)
    (hbound : ∀ position, reassembler.Holds position → position < Word.max) :
    reassembler.storedBytes = reassembler.assembledBytes ↔
      ∀ position, reassembler.Holds position → position < reassembler.assembledBytes := by
  have hcard := h.counted.card_held
  have hsubset := Consistent.range_subset hbound
  constructor
  · intro hequal position hholds
    have hsame := Finset.eq_of_subset_of_card_le hsubset (by rw [hcard, hequal, Finset.card_range])
    have hmem : position ∈ (Finset.range Word.max).filter reassembler.Holds :=
      Finset.mem_filter.mpr ⟨Finset.mem_range.mpr (hbound position hholds), hholds⟩
    rw [← hsame] at hmem
    exact Finset.mem_range.mp hmem
  · intro hall
    have hsame : (Finset.range Word.max).filter reassembler.Holds =
        Finset.range reassembler.assembledBytes := by
      refine Finset.Subset.antisymm (fun position hposition ↦ ?_) hsubset
      exact Finset.mem_range.mpr (hall position (Finset.mem_filter.mp hposition).2)
    rw [← hcard, hsame, Finset.card_range]

/-- The reassembler is empty when an end mark has been seen and no byte waits. -/
theorem Consistent.empty_iff (h : Consistent reassembler)
    (hbound : ∀ position, reassembler.Holds position → position < Word.max) :
    reassembler.empty = true ↔ reassembler.eof = true ∧
      ∀ position, reassembler.Holds position → position < reassembler.assembledBytes := by
  rw [← h.storedBytes_eq_iff hbound]
  simp [empty, and_comm]

/-- The invariant does not look at the end mark. -/
theorem Consistent.mark (h : Consistent reassembler) (eof : Bool) :
    Consistent { reassembler with eof := eof } where
  assembling := ⟨h.assembling.valid, h.assembling.written, h.assembling.capacity,
    h.assembling.linked, h.assembling.fits⟩
  pending := h.pending
  counted := h.counted

theorem Consistent.setError (h : Consistent reassembler) :
    Consistent { reassembler with output := reassembler.output.setError } :=
  ⟨⟨h.assembling.valid.setError, h.assembling.written, h.assembling.capacity, h.assembling.linked,
    h.assembling.fits⟩, h.pending, h.counted⟩

/-- Reading from the output keeps the invariant. -/
theorem Consistent.popOutput (h : Consistent reassembler) (len : ℕ) :
    Consistent { reassembler with output := reassembler.output.popOutput len } where
  assembling := by
    obtain ⟨hcapacity, hwritten, -, -⟩ := ByteStream.popOutput_frame reassembler.output len
    have hread := ByteStream.byteRead_popOutput h.assembling.valid len
    refine ⟨h.assembling.valid.popOutput len, hwritten.trans h.assembling.written,
      hcapacity.trans h.assembling.capacity, h.assembling.linked, fun cell hcell ↦ ?_⟩
    have hfits := h.assembling.fits cell hcell
    dsimp only
    omega
  pending := h.pending
  counted := h.counted

/-! ## One push -/

/-- The push covers the position, which lies inside the window. -/
def Accepts (reassembler : StreamReassembler) (data : List UInt8) (index position : ℕ) : Prop :=
  index ≤ position ∧ position < index + data.length ∧
    position < reassembler.capacity + reassembler.output.bytesRead

/-- An end mark is taken when its string starts in the window and is not cut. -/
def takesEnd (reassembler : StreamReassembler) (data : List UInt8) (index : ℕ) (eof : Bool) : Bool :=
  eof && (index < reassembler.capacity + reassembler.output.bytesRead &&
    index + data.length ≤ reassembler.capacity + reassembler.output.bytesRead)

instance (reassembler : StreamReassembler) (data : List UInt8) (index position : ℕ) :
    Decidable (reassembler.Accepts data index position) :=
  inferInstanceAs (Decidable (_ ∧ _ ∧ _))

/-- What one push changes. -/
structure Pushed (before after : StreamReassembler) (data : List UInt8) (index : ℕ) (eof : Bool) :
    Prop where
  consistent : Consistent after
  holds : ∀ position, after.Holds position ↔
    before.Holds position ∨ before.Accepts data index position
  progress : before.assembledBytes ≤ after.assembledBytes
  eof : after.eof = (before.eof || before.takesEnd data index eof)
  ended : after.output.ended = (before.output.ended ||
    (index < before.capacity + before.output.bytesRead && after.empty))
  capacity : after.capacity = before.capacity
  bytesRead : after.output.byteRead = before.output.byteRead
  error : after.output.error = before.output.error

@[simp] theorem holds_endIfEmpty : reassembler.endIfEmpty.Holds position ↔
    reassembler.Holds position := by
  unfold endIfEmpty
  split_ifs <;> rfl

theorem Consistent.endIfEmpty (h : Consistent reassembler) : Consistent reassembler.endIfEmpty := by
  have hassembling := h.assembling
  unfold StreamReassembler.endIfEmpty
  split_ifs
  · exact ⟨⟨hassembling.valid.endInput, hassembling.written, hassembling.capacity, hassembling.linked,
      hassembling.fits⟩, h.pending, h.counted⟩
  · exact h

theorem endIfEmpty_frame : reassembler.endIfEmpty = { reassembler with
    output := { reassembler.output with ended := reassembler.output.ended || reassembler.empty } } := by
  unfold endIfEmpty ByteStream.endInput
  cases reassembler.empty <;> simp

def truncate (reassembler : StreamReassembler) (data : List UInt8) (index : ℕ) : List UInt8 :=
  data.take (reassembler.capacity + reassembler.output.bytesRead - index)

theorem truncate_fits (hindex : index < reassembler.capacity + reassembler.output.bytesRead) :
    index + (reassembler.truncate data index).length ≤
      reassembler.capacity + reassembler.output.byteRead := by
  have hbound : index < reassembler.capacity + reassembler.output.byteRead := hindex
  have hcut : (reassembler.truncate data index).length ≤
      reassembler.capacity + reassembler.output.byteRead - index := by
    rw [truncate, List.length_take]
    exact min_le_left _ _
  omega

/-- What is accepted is what the window leaves of the string. -/
theorem accepts_iff_truncate : reassembler.Accepts data index position ↔
    index ≤ position ∧ position < index + (reassembler.truncate data index).length := by
  unfold Accepts truncate
  rw [List.length_take]
  omega

/-- `pushSubstring` beyond its first test, with the cut string and the end mark taken spelled out. -/
theorem pushSubstring_of_lt (hindex : index < reassembler.capacity + reassembler.output.bytesRead)
    (data : List UInt8) (eof : Bool) :
    reassembler.pushSubstring data index eof =
      let tmp := reassembler.truncate data index
      let marked := { reassembler with
        eof := reassembler.eof || reassembler.takesEnd data index eof }
      if index + tmp.length ≤ reassembler.assembledBytes then marked.endIfEmpty
      else
        let stored := (marked.calculateStoredBytes index tmp.length).storeString tmp index
        (assembleLoop stored.strToAssemble stored).endIfEmpty := by
  unfold pushSubstring
  dsimp only
  rw [if_neg (not_le.mpr hindex)]
  by_cases hcut : index + data.length > reassembler.capacity + reassembler.output.bytesRead
  · have hmark : reassembler.takesEnd data index eof = false := by
      simp [takesEnd, not_le.mpr hcut]
    simp only [if_pos hcut, hmark, Bool.or_false, Word.sub_of_le hindex.le, truncate]
  · have hmark : reassembler.takesEnd data index eof = eof := by
      simp [takesEnd, hindex, not_lt.mp hcut]
    have hwhole : reassembler.truncate data index = data :=
      List.take_of_length_le (by omega)
    simp only [if_neg hcut, hmark, hwhole]

/-- A push that starts beyond the window changes nothing. -/
theorem pushSubstring_of_le (hindex : reassembler.capacity + reassembler.output.bytesRead ≤ index)
    (data : List UInt8) (eof : Bool) : reassembler.pushSubstring data index eof = reassembler :=
  if_pos hindex

/-- A push of bytes that are all assembled already changes nothing, as long as it does not end the
output. -/
theorem Consistent.pushSubstring_of_known (h : Consistent reassembler)
    (hopen : reassembler.empty = false)
    (hknown : index + data.length ≤ reassembler.assembledBytes) :
    reassembler.pushSubstring data index false = reassembler := by
  have hbound : reassembler.assembledBytes ≤
      reassembler.capacity + reassembler.output.bytesRead := h.assembledBytes_le
  by_cases hindex : index < reassembler.capacity + reassembler.output.bytesRead
  · have hwhole : reassembler.truncate data index = data := List.take_of_length_le (by omega)
    have hmark : reassembler.takesEnd data index false = false := Bool.false_and _
    rw [pushSubstring_of_lt hindex]
    simp only [hwhole, hmark, Bool.or_false]
    rw [if_pos hknown, StreamReassembler.endIfEmpty, if_neg (Bool.eq_false_iff.mp hopen)]
  · exact pushSubstring_of_le (not_lt.mp hindex) data false

/-- What it changes to count the positions of a string and to store it. -/
structure Stored (before after : StreamReassembler) (tmp : List UInt8) (index : ℕ) : Prop where
  assembling : Assembling after.strToAssemble after
  source : ∀ cell ∈ after.strToAssemble, cell ∈ before.strToAssemble ∨ cell.value = (tmp, index)
  stores : ∀ position, Stores after.strToAssemble position ↔
    Stores before.strToAssemble position ∨ (index ≤ position ∧ position < index + tmp.length)
  counted : Counted (fun position ↦ before.Holds position ∨
    (index ≤ position ∧ position < index + tmp.length)) after.storedBytes after.usedByte
  frame : after = { before with
    strToAssemble := after.strToAssemble, existed := after.existed, nextId := after.nextId,
    storedBytes := after.storedBytes, usedByte := after.usedByte }

/-- Counting the positions of a string and storing it keeps the rest of the invariant. -/
theorem Consistent.stored (h : Consistent reassembler)
    (hfits : index + tmp.length ≤ reassembler.capacity + reassembler.output.byteRead) :
    Stored reassembler
      ((reassembler.calculateStoredBytes index tmp.length).storeString tmp index) tmp index := by
  have hassembling := h.assembling
  have hcounted := h.counted.remove index tmp.length
  rw [calculateStoredBytes_eq h.counted.separated]
  set counted : StreamReassembler := { reassembler with
    storedBytes := reassembler.storedBytes +
      (reassembler.usedByte.map (overlap index (index + tmp.length))).sum
    usedByte := reassembler.usedByte.flatMap (cut index (index + tmp.length)) }
  have hlinked : Linked counted.strToAssemble counted.existed counted.nextId := hassembling.linked
  have hstored := storeString_spec hlinked tmp index
  constructor
  case assembling =>
    refine ⟨?_, ?_, ?_, hstored.linked, fun cell hcell ↦ ?_⟩
    all_goals rw [hstored.frame]
    · exact hassembling.valid
    · exact hassembling.written
    · exact hassembling.capacity
    · cases hstored.source cell hcell with
      | inl hold => exact hassembling.fits cell hold
      | inr hnew =>
        rw [hnew]
        exact hfits
  case source => exact hstored.source
  case stores => exact hstored.stores
  case counted =>
    rw [hstored.frame]
    exact hcounted
  case frame => rw [hstored.frame]

/-- What it changes to take a string in: exactly its positions are added. -/
structure Integrated (before after : StreamReassembler) (tmp : List UInt8) (index : ℕ) :
    Prop where
  consistent : Consistent after
  holds : ∀ position, after.Holds position ↔
    before.Holds position ∨ (index ≤ position ∧ position < index + tmp.length)
  progress : before.assembledBytes ≤ after.assembledBytes
  eof : after.eof = before.eof
  capacity : after.capacity = before.capacity
  bytesRead : after.output.byteRead = before.output.byteRead
  ended : after.output.ended = before.output.ended
  error : after.output.error = before.output.error

/-- A string of which every position is assembled already adds nothing. -/
theorem Consistent.integrated_of_le (h : Consistent reassembler)
    (hknown : index + tmp.length ≤ reassembler.assembledBytes) :
    Integrated reassembler reassembler tmp index := by
  refine ⟨h, fun position ↦ ⟨.inl, fun hholds ↦ ?_⟩, le_rfl, rfl, rfl, rfl, rfl, rfl⟩
  cases hholds with
  | inl hold => exact hold
  | inr hnew => exact .inl (hnew.2.trans_le hknown)

/-- After the loop, the positions of the string have been added. -/
theorem Stored.integrated {stored : StreamReassembler} (h : Stored reassembler stored tmp index) :
    Integrated reassembler (assembleLoop stored.strToAssemble stored) tmp index := by
  have hloop := assembleLoop_spec h.assembling
  have hframe := h.frame
  set assembled := assembleLoop stored.strToAssemble stored
  have hholds (position : ℕ) : assembled.Holds position ↔
      reassembler.Holds position ∨ (index ≤ position ∧ position < index + tmp.length) := by
    rw [hloop.holds, h.stores, hframe, ← or_assoc]
    rfl
  constructor
  case consistent =>
    refine ⟨hloop.state, hloop.pending, ?_⟩
    rw [hloop.frame]
    exact h.counted.congr hholds
  case holds => exact hholds
  case progress =>
    calc
      reassembler.assembledBytes = stored.assembledBytes := by rw [hframe]
      _ ≤ assembled.assembledBytes := hloop.progress
  case eof => rw [hloop.frame, hframe]
  case capacity => rw [hloop.frame, hframe]
  case bytesRead => rw [hloop.bytesRead, hframe]
  case ended => rw [hloop.ended, hframe]
  case error => rw [hloop.error, hframe]

theorem Integrated.pushed {after : StreamReassembler} {eof : Bool}
    (h : Integrated { reassembler with eof := reassembler.eof || reassembler.takesEnd data index eof }
      after (reassembler.truncate data index) index)
    (hindex : index < reassembler.capacity + reassembler.output.bytesRead) :
    Pushed reassembler after.endIfEmpty data index eof := by
  constructor
  case consistent => exact h.consistent.endIfEmpty
  case holds =>
    intro position
    rw [holds_endIfEmpty, h.holds, accepts_iff_truncate]
    rfl
  all_goals rw [endIfEmpty_frame]
  case progress => exact h.progress
  case eof => exact h.eof
  case ended => simp [hindex, h.ended, empty]
  case capacity => exact h.capacity
  case bytesRead => exact h.bytesRead
  case error => exact h.error

/-- What one push does. -/
theorem pushSubstring_spec (h : Consistent reassembler) (data : List UInt8) (index : ℕ)
    (eof : Bool) : Pushed reassembler (reassembler.pushSubstring data index eof) data index eof := by
  by_cases hindex : index < reassembler.capacity + reassembler.output.bytesRead
  · have hmarked := h.mark (reassembler.eof || reassembler.takesEnd data index eof)
    rw [pushSubstring_of_lt hindex]
    dsimp only
    split_ifs with hknown
    · exact (hmarked.integrated_of_le hknown).pushed hindex
    · exact (hmarked.stored (truncate_fits hindex)).integrated.pushed hindex
  · rw [pushSubstring_of_le (not_lt.mp hindex)]
    refine ⟨h, fun position ↦ ⟨.inl, ?_⟩, le_rfl, ?_, ?_, rfl, rfl, rfl⟩
    · rintro (hholds | ⟨hle, -, hlt⟩)
      · exact hholds
      · exact absurd (hle.trans_lt hlt) hindex
    · simp [takesEnd, hindex]
    · simp [hindex]

end Sponge.StreamReassembler
