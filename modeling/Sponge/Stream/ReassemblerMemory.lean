import Sponge.Stream.ReassemblerRuns

/-!
# The memory of the stream reassembler

Two accounts of what the reassembler holds.  The first is its own: `storedBytes` counts positions, so
`unassembledBytes` is the number of positions that wait, and it fits into the capacity together with
the unread output.

The second is what the waiting strings really take.  The list keeps every string whole, also where two
of them cover the same positions.  The total length of the strings is therefore bounded by the capacity
only as long as a string that has to wait overlaps no other one.
-/

namespace Sponge.StreamReassembler

open Execution Intervals

variable {reassembler : StreamReassembler} {cells : List Waiting} {call : Call}

/-! ## Positions that wait -/

theorem Consistent.step (h : Consistent reassembler) (call : Call) :
    Consistent (reassembler.step call) ∧
      (reassembler.step call).capacity = reassembler.capacity := by
  cases call with
  | push data index eof =>
    have hpush := pushSubstring_spec h data index eof
    exact ⟨hpush.consistent, hpush.capacity⟩
  | read len =>
    change Consistent { reassembler with output := (reassembler.output.read len).2 } ∧ _
    rw [ByteStream.read_snd h.assembling.valid]
    exact ⟨h.popOutput len, rfl⟩
  | pop len => exact ⟨h.popOutput len, rfl⟩

/-- Every run keeps the invariant and the capacity. -/
theorem consistent_run (capacity : ℕ) (calls : List Call) :
    Consistent (run step (new capacity) calls) ∧
      (run step (new capacity) calls).capacity = capacity := by
  apply run_invariant fun reassembler ↦ Consistent reassembler ∧ reassembler.capacity = capacity
  · intro before call hbefore
    obtain ⟨hconsistent, hcapacity⟩ := hbefore.1.step call
    exact ⟨hconsistent, hcapacity.trans hbefore.2⟩
  · exact ⟨consistent_new capacity, rfl⟩

/-- The positions that wait lie between the assembled bytes and the right edge of the window. -/
theorem Consistent.card_stores_add_le (h : Consistent reassembler) (bound : ℕ) :
    ((Finset.range bound).filter (Stores reassembler.strToAssemble)).card +
      reassembler.output.contents.length ≤ reassembler.capacity := by
  have hsubset : (Finset.range bound).filter (Stores reassembler.strToAssemble) ⊆
      Finset.Ico reassembler.assembledBytes
        (reassembler.capacity + reassembler.output.byteRead) := by
    intro position hposition
    obtain ⟨cell, hcell, hlower, hupper⟩ := (Finset.mem_filter.mp hposition).2
    have hpending := h.pending cell hcell
    have hfits := h.assembling.fits cell hcell
    exact Finset.mem_Ico.mpr ⟨by omega, by omega⟩
  have hcard := Finset.card_le_card hsubset
  have hwritten := h.assembling.valid.written_eq
  have hassembled := h.assembling.written
  have hlength := h.assembling.valid.length_le
  have hcapacity := h.assembling.capacity
  rw [Nat.card_Ico] at hcard
  omega

/-- The counter of stored bytes counts the assembled positions and those that wait. -/
theorem Consistent.storedBytes_eq (h : Consistent reassembler)
    (hbound : ∀ position, reassembler.Holds position → position < Word.max) :
    reassembler.storedBytes = reassembler.assembledBytes +
      ((Finset.range Word.max).filter (Stores reassembler.strToAssemble)).card := by
  have hassembled : (Finset.range Word.max).filter (· < reassembler.assembledBytes) =
      Finset.range reassembler.assembledBytes := by
    ext position
    simp only [Finset.mem_filter, Finset.mem_range]
    exact ⟨And.right, fun hlt ↦ ⟨hbound position (.inl hlt), hlt⟩⟩
  have hdisjoint : Disjoint ((Finset.range Word.max).filter (· < reassembler.assembledBytes))
      ((Finset.range Word.max).filter (Stores reassembler.strToAssemble)) := by
    rw [Finset.disjoint_filter]
    rintro position - hlt ⟨cell, hcell, hlower, -⟩
    have hpending := h.pending cell hcell
    omega
  calc
    reassembler.storedBytes = ((Finset.range Word.max).filter reassembler.Holds).card :=
      h.counted.card_held.symm
    _ = ((Finset.range Word.max).filter (· < reassembler.assembledBytes) ∪
        (Finset.range Word.max).filter (Stores reassembler.strToAssemble)).card := by
      rw [← Finset.filter_or]
      rfl
    _ = _ := by
      rw [Finset.card_union_of_disjoint hdisjoint, hassembled, Finset.card_range]

/-- The number of bytes that wait does not underflow. -/
theorem Consistent.unassembledBytes_eq (h : Consistent reassembler)
    (hbound : ∀ position, reassembler.Holds position → position < Word.max) :
    reassembler.unassembledBytes =
      ((Finset.range Word.max).filter (Stores reassembler.strToAssemble)).card := by
  have hstored := h.storedBytes_eq hbound
  unfold unassembledBytes
  rw [Word.sub_of_le (by omega), hstored, Nat.add_sub_cancel_left]

theorem Consistent.unassembledBytes_add_bufferSize_le (h : Consistent reassembler)
    (hbound : ∀ position, reassembler.Holds position → position < Word.max) :
    reassembler.unassembledBytes + reassembler.output.bufferSize ≤ reassembler.capacity := by
  rw [h.unassembledBytes_eq hbound, h.assembling.valid.bufferSize_eq]
  exact h.card_stores_add_le Word.max

/-- As long as the window lies inside the 64-bit numbers, every position held does. -/
theorem Consistent.lt_max_of_holds (h : Consistent reassembler)
    (hword : reassembler.capacity + reassembler.output.byteRead < Word.size) (position : ℕ)
    (hholds : reassembler.Holds position) : position < Word.max := by
  have hlt := h.lt_of_holds hholds
  change _ < 2 ^ 64 at hword
  change position < 2 ^ 64 - 1
  omega

/-- The four structures of the reassembler agree after any calls: the map sends the index of every
waiting string to its node in the sorted list; the strings lie in the window, after what has been
assembled; the free intervals are disjoint and contain what is neither assembled nor waiting; and the
counters count each position once. -/
theorem bookkeeping_is_exact (capacity : ℕ) (calls : List Call)
    (hword : capacity + (run step (new capacity) calls).output.bytesRead < 2 ^ 63) :
    let final := run step (new capacity) calls
    final.strToAssemble.Pairwise (fun first second ↦ first.value.2 < second.value.2) ∧
    final.existed = final.strToAssemble.map (fun cell ↦ (cell.value.2, cell.id)) ∧
    (∀ cell ∈ final.strToAssemble,
      LinkedCells.lookup cell.id final.strToAssemble = some cell.value ∧
      final.assembledBytes < cell.value.2 ∧
      cell.value.2 + cell.value.1.length ≤ capacity + final.output.bytesRead) ∧
    (∀ it ∈ final.usedByte, it.1 < it.2) ∧
    final.usedByte.Pairwise (fun first second ↦ first.2 ≤ second.1) ∧
    (∀ position, Covers final.usedByte position ↔ position < 2 ^ 64 - 1 ∧
      ¬ (position < final.assembledBytes ∨ Stores final.strToAssemble position)) ∧
    final.storedBytes =
      ((Finset.range (2 ^ 64 - 1)).filter fun position ↦ ¬ Covers final.usedByte position).card ∧
    final.assembledBytes ≤ final.storedBytes ∧
    final.unassembledBytes =
      ((Finset.range (2 ^ 64 - 1)).filter (Stores final.strToAssemble)).card ∧
    final.unassembledBytes + final.output.bufferSize ≤ capacity := by
  intro final
  obtain ⟨h, hcapacity⟩ : Consistent final ∧ final.capacity = capacity :=
    consistent_run capacity calls
  have hlinked := h.assembling.linked
  have hbound : ∀ position, final.Holds position → position < Word.max := by
    apply h.lt_max_of_holds
    rw [hcapacity]
    exact hword.trans (by decide)
  have hfits := h.assembling.fits
  have hmemory := h.unassembledBytes_add_bufferSize_le hbound
  rw [hcapacity] at hfits hmemory
  refine ⟨hlinked.sorted, hlinked.existed_eq, fun cell hcell ↦ ⟨hlinked.lookup hcell,
    h.pending cell hcell, hfits cell hcell⟩, h.counted.separated.nonempty,
    h.counted.separated.disjoint, h.counted.covers, h.counted.card_not_covers.symm,
    h.assembledBytes_le_storedBytes hbound, h.unassembledBytes_eq hbound, hmemory⟩

/-- Two strings wait that overlap, and an empty one splits an interval; the position that both cover
is counted once. -/
theorem bookkeeping_is_exact_overlapping :
    let calls := [.push [98, 99] 1 false, .push [99, 100] 2 false, .push [] 6 false, .read 1]
    let final := run step (new 8) calls
    8 + final.output.bytesRead < 2 ^ 63 ∧ final.usedByte.length = 3 ∧
      final.unassembledBytes =
        ((Finset.range (2 ^ 64 - 1)).filter (Stores final.strToAssemble)).card ∧
      final.unassembledBytes = 3 := by
  intro calls final
  have hword : 8 + (run step (new 8) calls).output.bytesRead < 2 ^ 63 := by decide
  obtain ⟨-, -, -, -, -, -, -, -, hcount, -⟩ := bookkeeping_is_exact 8 calls hword
  exact ⟨hword, by decide, hcount, by decide⟩

/-! ## Bytes that are kept -/

/-- All bytes in memory: those of the waiting strings and those of the output. -/
def heldBytes (reassembler : StreamReassembler) : ℕ :=
  (reassembler.strToAssemble.map fun cell ↦ cell.value.1.length).sum + reassembler.output.bufferSize

def range (waiting : List UInt8 × ℕ) : ℕ × ℕ := (waiting.2, waiting.2 + waiting.1.length)

/-- A string that cannot be assembled at once has no position in common with those that wait, apart
from one with the same index, of which the longer is kept. -/
def WaitsApart (reassembler : StreamReassembler) : Call → Prop
  | .push data index _ => reassembler.assembledBytes < index →
      ∀ cell ∈ reassembler.strToAssemble, cell.value.2 ≠ index →
        Apart (range cell.value) (range (reassembler.truncate data index, index))
  | .read _ => True
  | .pop _ => True

instance (reassembler : StreamReassembler) :
    (call : Call) → Decidable (reassembler.WaitsApart call)
  | .push _ _ _ => inferInstanceAs (Decidable (_ → ∀ cell ∈ _, _))
  | .read _ => inferInstanceAs (Decidable True)
  | .pop _ => inferInstanceAs (Decidable True)

/-- No two waiting strings have a position in common. -/
def Scattered (cells : List Waiting) : Prop :=
  ∀ first ∈ cells, ∀ second ∈ cells, first.value.2 ≠ second.value.2 →
    Apart (range first.value) (range second.value)

theorem covers_range {position : ℕ} :
    Covers (cells.map fun cell ↦ range cell.value) position ↔ Stores cells position := by
  simp [Covers, Stores, range]

theorem measure_range : measure (cells.map fun cell ↦ range cell.value) =
    (cells.map fun cell ↦ cell.value.1.length).sum := by
  simp [Intervals.measure, range, Function.comp_def]

/-- Strings that have no position in common take as many bytes as they have positions. -/
theorem Consistent.heldBytes_le (h : Consistent reassembler)
    (hscattered : Scattered reassembler.strToAssemble) :
    reassembler.heldBytes ≤ reassembler.capacity := by
  have hpairs : (reassembler.strToAssemble.map fun cell ↦ range cell.value).Pairwise
      fun first second ↦ first.1 ≤ second.1 ∧ Apart first second := by
    rw [List.pairwise_map]
    refine h.assembling.linked.sorted.imp_of_mem ?_
    intro first second hfirst hsecond hlt
    exact ⟨hlt.le, hscattered first hfirst second hsecond hlt.ne⟩
  have hfits : ∀ interval ∈ reassembler.strToAssemble.map fun cell ↦ range cell.value,
      interval.2 ≤ reassembler.capacity + reassembler.output.byteRead := by
    intro interval hinterval
    obtain ⟨cell, hcell, rfl⟩ := List.mem_map.mp hinterval
    exact h.assembling.fits cell hcell
  calc
    reassembler.heldBytes = measure (reassembler.strToAssemble.map fun cell ↦ range cell.value) +
        reassembler.output.contents.length := by
      rw [heldBytes, measure_range, h.assembling.valid.bufferSize_eq]
    _ = ((Finset.range (reassembler.capacity + reassembler.output.byteRead)).filter
        (Stores reassembler.strToAssemble)).card + reassembler.output.contents.length := by
      rw [← card_covers_of_apart hpairs hfits]
      simp only [covers_range]
    _ ≤ reassembler.capacity := h.card_stores_add_le _

/-- A string that still waits after a push was waiting before it or is the one that was pushed. -/
theorem Consistent.source_pushSubstring (h : Consistent reassembler) (data : List UInt8)
    (index : ℕ) (eof : Bool) {cell : Waiting}
    (hcell : cell ∈ (reassembler.pushSubstring data index eof).strToAssemble) :
    cell ∈ reassembler.strToAssemble ∨
      cell.value = (reassembler.truncate data index, index) := by
  by_cases hindex : index < reassembler.capacity + reassembler.output.bytesRead
  · have hmarked := h.mark (reassembler.eof || reassembler.takesEnd data index eof)
    rw [pushSubstring_of_lt hindex] at hcell
    dsimp only at hcell
    split_ifs at hcell with hknown
    · rw [endIfEmpty_frame] at hcell
      exact .inl hcell
    · have hfits : index + (reassembler.truncate data index).length ≤
          reassembler.capacity + reassembler.output.byteRead := truncate_fits hindex
      have hstored := hmarked.stored hfits
      rw [endIfEmpty_frame] at hcell
      exact hstored.source cell ((assembleLoop_spec hstored.assembling).source cell hcell)
  · rw [pushSubstring_of_le (not_lt.mp hindex)] at hcell
    exact .inl hcell

/-- Strings that stay apart when they come in stay apart while they wait. -/
theorem Consistent.scattered_pushSubstring (h : Consistent reassembler)
    (hscattered : Scattered reassembler.strToAssemble) {data : List UInt8} {index : ℕ} (eof : Bool)
    (hapart : reassembler.WaitsApart (.push data index eof)) :
    Scattered (reassembler.pushSubstring data index eof).strToAssemble := by
  have hpush := pushSubstring_spec h data index eof
  -- The new string still waits, so it starts after what had been assembled before.
  have hnew {old new : Waiting} (hold : old ∈ reassembler.strToAssemble)
      (hmem : new ∈ (reassembler.pushSubstring data index eof).strToAssemble)
      (hvalue : new.value = (reassembler.truncate data index, index))
      (hne : old.value.2 ≠ new.value.2) : Apart (range old.value) (range new.value) := by
    have hpending := hpush.consistent.pending new hmem
    rw [hvalue] at hpending hne ⊢
    exact hapart (hpush.progress.trans_lt hpending) old hold hne
  intro first hfirst second hsecond hne
  rcases h.source_pushSubstring data index eof hfirst with holdFirst | hnewFirst
  · rcases h.source_pushSubstring data index eof hsecond with holdSecond | hnewSecond
    · exact hscattered first holdFirst second holdSecond hne
    · exact hnew holdFirst hsecond hnewSecond hne
  · rcases h.source_pushSubstring data index eof hsecond with holdSecond | hnewSecond
    · exact (hnew holdSecond hfirst hnewFirst hne.symm).symm
    · rw [hnewFirst, hnewSecond] at hne
      exact absurd rfl hne

/-- What is kept in memory fits into the capacity, in every run in which the strings that have to wait
do not overlap. -/
theorem heldBytes_fit_capacity (capacity : ℕ) (calls : List Call)
    (h : Admissible step WaitsApart (new capacity) calls) :
    (run step (new capacity) calls).heldBytes ≤ capacity := by
  have hboth : Consistent (run step (new capacity) calls) ∧
      Scattered (run step (new capacity) calls).strToAssemble := by
    apply h.invariant fun reassembler ↦ Consistent reassembler ∧ Scattered reassembler.strToAssemble
    · intro before call hbefore hcall
      refine ⟨(hbefore.1.step call).1, ?_⟩
      cases call with
      | push data index eof => exact hbefore.1.scattered_pushSubstring hbefore.2 eof hcall
      | read | pop => exact hbefore.2
    · exact ⟨consistent_new capacity, nofun⟩
  have hcapacity := (consistent_run capacity calls).2
  exact (hboth.1.heldBytes_le hboth.2).trans_eq hcapacity

/-- Two strings wait and a third one overlaps them, but is assembled at once. -/
theorem heldBytes_fit_capacity_in_parts :
    let calls := [.push [98] 1 false, .push [100, 101] 3 false, .push [97, 98, 99, 100] 0 false]
    Admissible step WaitsApart (new 6) calls ∧ (run step (new 6) calls).heldBytes ≤ 6 := by
  have h : Admissible step WaitsApart (new 6)
      [.push [98] 1 false, .push [100, 101] 3 false, .push [97, 98, 99, 100] 0 false] := by
    decide
  exact ⟨h, heldBytes_fit_capacity _ _ h⟩

/-- Of two strings that overlap both are kept whole, five bytes with a capacity of four. -/
theorem overlapping_strings_exceed_capacity :
    let final := run step (new 4) [.push [98, 99, 100] 1 false, .push [99, 100] 2 false]
    final.heldBytes = 5 ∧ final.unassembledBytes = 3 := by
  decide

end Sponge.StreamReassembler
