import Sponge.Library.Intervals
import Sponge.Library.LinkedCells
import Sponge.Library.OrderedKeys
import Sponge.Stream.ByteStream
import Mathlib.Data.Prod.Lex

/-!
# The stream reassembler

`StreamReassembler` assembles excerpts of a byte stream, pushed in any order and with any overlap,
into an in-order output stream.  Four structures change together:

* `strToAssemble`, the list of strings that wait for a byte before them, sorted by their index;
* `existed`, a map from the index of each waiting string to its node in that list;
* `usedByte`, the positions never stored so far, as a set of half-open intervals;
* `output`, the stream of assembled bytes.

`storedBytes` counts the positions taken out of `usedByte`.  The end of the output is decided by
comparing it with `assembledBytes`, the number of assembled bytes, once an end mark has been seen.
-/

namespace Sponge

open LinkedCells (Cell)

/-- A list node: a string that waits, and the index of its first byte. -/
abbrev Waiting := Cell (List UInt8 × ℕ)

/-- State of the reassembler.  `nextId` is the identity that the next list node will get. -/
structure StreamReassembler where
  output : ByteStream
  capacity : ℕ
  assembledBytes : ℕ := 0
  storedBytes : ℕ := 0
  strToAssemble : List Waiting := []
  nextId : ℕ := 0
  existed : List (ℕ × ℕ) := []
  eof : Bool := false
  usedByte : List (ℕ × ℕ) := [(0, Word.max)]
  deriving DecidableEq, Repr

namespace StreamReassembler

def new (capacity : ℕ) : StreamReassembler := { output := .new capacity, capacity }

def unassembledBytes (reassembler : StreamReassembler) : ℕ :=
  Word.sub reassembler.storedBytes reassembler.assembledBytes

/-- No stored byte waits to be assembled, and an end mark has been seen. -/
def empty (reassembler : StreamReassembler) : Bool :=
  (reassembler.storedBytes == reassembler.assembledBytes) && reassembler.eof

/-- The byte count and the two vectors that `removeSegement` updates. -/
structure Removal where
  storedBytes : ℕ
  needToErase : List (ℕ × ℕ) := []
  needToInsert : List (ℕ × ℕ) := []

/-- Take the range from `l` to `r` out of one interval of free positions. -/
def removeSegement (it : ℕ × ℕ) (l r : ℕ) (removal : Removal) : Removal :=
  if l ≥ it.2 ∨ r ≤ it.1 then removal
  else
    let needToErase := removal.needToErase ++ [it]
    if l ≥ it.1 then
      let newNode := (r, it.2)
      let node := (it.1, l)
      let needToInsert := removal.needToInsert ++ if node.2 > node.1 then [node] else []
      { storedBytes := removal.storedBytes + Word.sub (min r it.2) l
        needToErase
        needToInsert := needToInsert ++ if newNode.2 > newNode.1 then [newNode] else [] }
    else
      let node := (r, it.2)
      { storedBytes := removal.storedBytes + Word.sub (min r it.2) it.1
        needToErase
        needToInsert := removal.needToInsert ++ if node.2 > node.1 then [node] else [] }

/-- The loop from `it_l` up to and including `it_r`.  The list is what the set holds from `it_l`
on, and its exhaustion is the past-the-end iterator. -/
def removeLoop (l r itR : ℕ) : List (ℕ × ℕ) → ℕ → Removal → Removal
  | [], _, removal => removal
  | it :: rest, itL, removal =>
      let removal := removeSegement it l r removal
      if itL = itR then removal else removeLoop l r itR rest (itL + 1) removal

/-- Account for the positions from `index` on that a string of `size` bytes brings. -/
def calculateStoredBytes (reassembler : StreamReassembler) (index size : ℕ) : StreamReassembler :=
  let lower := OrderedKeys.lowerBound toLex (toLex (index, index)) reassembler.usedByte
  let itR :=
    OrderedKeys.lowerBound toLex (toLex (index + size, index + size)) reassembler.usedByte
  let itL := if lower ≠ 0 then lower - 1 else lower
  let removal := removeLoop index (index + size) itR (reassembler.usedByte.drop itL) itL
    { storedBytes := reassembler.storedBytes }
  { reassembler with
    storedBytes := removal.storedBytes
    usedByte := OrderedKeys.insertAll toLex removal.needToInsert
      (OrderedKeys.eraseAll toLex removal.needToErase reassembler.usedByte) }

/-- Put a string into the sorted list, or keep the longer of two strings with one index. -/
def storeString (reassembler : StreamReassembler) (tmp : List UInt8) (index : ℕ) :
    StreamReassembler :=
  let cell : Waiting := ⟨reassembler.nextId, (tmp, index)⟩
  match reassembler.existed[OrderedKeys.lowerBound Prod.fst index reassembler.existed]? with
  | none =>
      { reassembler with
        strToAssemble := reassembler.strToAssemble ++ [cell]
        existed := OrderedKeys.assign Prod.fst (index, cell.id) reassembler.existed
        nextId := reassembler.nextId + 1 }
  | some (first, node) =>
      if first = index then
        match LinkedCells.lookup node reassembler.strToAssemble with
        | some (present, _) =>
            if tmp.length > present.length then
              { reassembler with
                strToAssemble := LinkedCells.assign node (tmp, index) reassembler.strToAssemble }
            else reassembler
        -- A node that is no longer in the list would be a dangling iterator.
        | none => reassembler
      else
        { reassembler with
          strToAssemble := LinkedCells.insertBefore node cell reassembler.strToAssemble
          existed := OrderedKeys.assign Prod.fst (index, cell.id) reassembler.existed
          nextId := reassembler.nextId + 1 }

/-- Write the part of a string that lies after the assembled bytes. -/
def writeNew (reassembler : StreamReassembler) (data : List UInt8) (index : ℕ) :
    StreamReassembler :=
  if index + data.length > reassembler.assembledBytes then
    { reassembler with
      output := (reassembler.output.write
        ((data.drop (Word.sub reassembler.assembledBytes index)).take
          (Word.sub (index + data.length) reassembler.assembledBytes))).1
      assembledBytes := index + data.length }
  else reassembler

/-- Move strings from the front of the list to the output while they touch the assembled bytes. -/
def assembleLoop : List Waiting → StreamReassembler → StreamReassembler
  | [], reassembler => { reassembler with strToAssemble := [] }
  | front :: rest, reassembler =>
      if front.value.2 ≤ reassembler.assembledBytes then
        let written := reassembler.writeNew front.value.1 front.value.2
        assembleLoop rest
          { written with existed := OrderedKeys.erase Prod.fst front.value.2 written.existed }
      else { reassembler with strToAssemble := front :: rest }

def endIfEmpty (reassembler : StreamReassembler) : StreamReassembler :=
  if reassembler.empty then { reassembler with output := reassembler.output.endInput }
  else reassembler

/-- Receive a substring and write any newly contiguous bytes into the stream. -/
def pushSubstring (reassembler : StreamReassembler) (data : List UInt8) (index : ℕ) (eof : Bool) :
    StreamReassembler :=
  let bound := reassembler.capacity + reassembler.output.bytesRead
  if index ≥ bound then reassembler
  else
    -- A string that sticks out of the window is cut, and its end mark is not taken.
    let tmp := if index + data.length > bound then data.take (Word.sub bound index) else data
    let reassembler :=
      if index + data.length > bound then reassembler
      else { reassembler with eof := reassembler.eof || eof }
    if index + tmp.length ≤ reassembler.assembledBytes then reassembler.endIfEmpty
    else
      let stored := (reassembler.calculateStoredBytes index tmp.length).storeString tmp index
      (assembleLoop stored.strToAssemble stored).endIfEmpty

/-! ## Positions held -/

/-- Some waiting string has a byte for the position. -/
def Stores (cells : List Waiting) (position : ℕ) : Prop :=
  ∃ cell ∈ cells, cell.value.2 ≤ position ∧ position < cell.value.2 + cell.value.1.length

instance (cells : List Waiting) (position : ℕ) :
    Decidable (Stores cells position) :=
  inferInstanceAs (Decidable (∃ cell ∈ cells, _ ∧ _))

/-- The byte at the position has been assembled or waits in the list. -/
def Holds (reassembler : StreamReassembler) (position : ℕ) : Prop :=
  position < reassembler.assembledBytes ∨ Stores reassembler.strToAssemble position

instance (reassembler : StreamReassembler) (position : ℕ) :
    Decidable (reassembler.Holds position) :=
  inferInstanceAs (Decidable (_ ∨ _))

@[simp] theorem stores_nil {position : ℕ} : ¬ Stores [] position := by simp [Stores]

@[simp] theorem stores_cons {cell : Waiting} {cells : List Waiting}
    {position : ℕ} : Stores (cell :: cells) position ↔
      (cell.value.2 ≤ position ∧ position < cell.value.2 + cell.value.1.length) ∨
        Stores cells position := by
  simp [Stores]

@[simp] theorem stores_append {front back : List Waiting} {position : ℕ} :
    Stores (front ++ back) position ↔ Stores front position ∨ Stores back position := by
  simp only [Stores, List.mem_append, or_and_right, exists_or]

end StreamReassembler

end Sponge
