import Sponge.Library.BoundedFifo
import Sponge.Library.Execution
import Sponge.Stream.ByteStream

/-!
# Byte streams are bounded queues

`ByteStream` refines a bounded queue of bytes: in every run it gives the same responses, its chunks
spell the contents of the queue, and its two counters are the lengths of what the queue has accepted
and popped.
-/

namespace Sponge.ByteStream

open BoundedFifo (Operation Response)
open Execution

def perform (stream : ByteStream) : Operation UInt8 → Response UInt8 × ByteStream
  | .write data => (.count (stream.write data).2, (stream.write data).1)
  | .peek len => (.elements (stream.peekOutput len), stream)
  | .pop len => (.done, stream.popOutput len)
  | .read len => (.elements (stream.read len).1, (stream.read len).2)
  | .close => (.done, stream.endInput)

def step (stream : ByteStream) (operation : Operation UInt8) : ByteStream :=
  (stream.perform operation).2

/-- The stream represents the queue. -/
structure Represents (stream : ByteStream) (fifo : BoundedFifo UInt8) : Prop where
  valid : stream.Valid
  capacity : stream.capacity = fifo.capacity
  contents : stream.contents = fifo.contents
  written : stream.byteWritten = fifo.accepted.length
  read : stream.byteRead = fifo.popped

variable {stream : ByteStream} {fifo : BoundedFifo UInt8}

theorem represents_new (capacity : ℕ) : (new capacity).Represents (.new capacity) :=
  ⟨valid_new capacity, rfl, rfl, rfl, rfl⟩

theorem Represents.write_snd (h : stream.Represents fifo) (data : List UInt8) :
    (stream.write data).2 = fifo.accepts data := by
  rw [ByteStream.write_snd h.valid, h.capacity, h.contents]
  rfl

/-- A write refines that of the queue. -/
theorem Represents.write (h : stream.Represents fifo) (data : List UInt8) :
    (stream.write data).1.Represents (fifo.write data) where
  valid := h.valid.write data
  capacity := h.capacity
  contents := by rw [contents_write, fifo.contents_write, h.contents, h.write_snd]
  written := by
    have hlength := (fifo.isGreatest_accepts data).1.1
    change _ = (fifo.accepted ++ data.take (fifo.accepts data)).length
    rw [byteWritten_write, h.written, h.write_snd, List.length_append,
      List.length_take_of_le hlength]
  read := h.read

/-- A pop refines that of the queue. -/
theorem Represents.popOutput (h : stream.Represents fifo) (len : ℕ) :
    (stream.popOutput len).Represents (fifo.pop len) := by
  obtain ⟨hcapacity, hwritten, -, -⟩ := popOutput_frame stream len
  constructor
  · exact h.valid.popOutput len
  · exact hcapacity.trans h.capacity
  · rw [contents_popOutput h.valid, fifo.contents_pop, h.contents]
  · exact hwritten.trans h.written
  · rw [byteRead_popOutput h.valid, h.read, h.contents]
    rfl

/-- The stream responds as the queue does and goes on representing it. -/
theorem Represents.perform (h : stream.Represents fifo) (operation : Operation UInt8) :
    (stream.perform operation).1 = (fifo.perform operation).1 ∧
      (stream.step operation).Represents (fifo.step operation) := by
  cases operation with
  | write data => exact ⟨congrArg Response.count (h.write_snd data), h.write data⟩
  | peek len =>
    refine ⟨congrArg Response.elements ?_, h⟩
    rw [peekOutput_eq h.valid, h.contents]
  | pop len => exact ⟨rfl, h.popOutput len⟩
  | read len =>
    refine ⟨congrArg Response.elements ?_, ?_⟩
    · rw [read_fst h.valid, h.contents]
    · change (stream.read len).2.Represents (fifo.pop len)
      rw [read_snd h.valid]
      exact h.popOutput len
  | close => exact ⟨rfl, h.valid.endInput, h.capacity, h.contents, h.written, h.read⟩

/-- Every run of the stream refines a run of the queue. -/
theorem represents_run (capacity : ℕ) (operations : List (Operation UInt8)) :
    (run step (new capacity) operations).Represents
      (run BoundedFifo.step (.new capacity) operations) :=
  run_simulation Represents (fun _ _ operation h ↦ (h.perform operation).2)
    (represents_new capacity)

theorem capacity_run (capacity : ℕ) (operations : List (Operation UInt8)) :
    (run BoundedFifo.step (.new capacity) operations).capacity = capacity := by
  apply run_invariant fun fifo : BoundedFifo UInt8 ↦ fifo.capacity = capacity
  · intro fifo operation hbefore
    cases operation <;> exact hbefore
  · rfl

/-- A byte stream is a bounded queue of bytes.  After any operations it holds what has been accepted
and not yet popped, its counters agree with it and do not run out of the capacity, the loop that pops
chunks finds what it looks for, and the next operation gets the response of the queue.  In particular,
a write accepts as much as fits. -/
theorem refines_boundedFifo (capacity : ℕ) (operations : List (Operation UInt8)) :
    let stream := run step (new capacity) operations
    let fifo := run BoundedFifo.step (.new capacity) operations
    flatten stream.buffer = fifo.accepted.drop fifo.popped ∧
    stream.bytesWritten = fifo.accepted.length ∧ stream.bytesRead = fifo.popped ∧
    stream.bytesRead ≤ stream.bytesWritten ∧
    stream.bufferSize = stream.bytesWritten - stream.bytesRead ∧
    stream.bufferSize ≤ capacity ∧
    stream.remainingCapacity = capacity - stream.bufferSize ∧
    (∀ len, (popLoop stream.buffer (min len stream.bufferSize)).isSome = true) ∧
    (∀ data, IsGreatest {count | count ≤ data.length ∧ stream.bufferSize + count ≤ capacity}
      (stream.write data).2) ∧
    ∀ operation, (stream.perform operation).1 = (fifo.perform operation).1 := by
  intro stream fifo
  have h : stream.Represents fifo := represents_run capacity operations
  have hcapacity : fifo.capacity = capacity := capacity_run capacity operations
  have hsize := h.valid.bufferSize_eq
  have hlength := h.valid.length_contents
  have hfits := h.valid.length_le
  have hremaining := h.valid.remainingCapacity_eq
  rw [h.capacity, hcapacity] at hfits hremaining
  refine ⟨h.contents, h.written, h.read, h.valid.read_le, hsize.trans hlength, hsize.trans_le hfits,
    hsize ▸ hremaining, fun len ↦ ?_, fun data ↦ ?_, fun operation ↦ (h.perform operation).1⟩
  · have hle : min len stream.bufferSize ≤ (flatten stream.buffer).length :=
      (min_le_right _ _).trans_eq hsize
    obtain ⟨rest, hpop, -⟩ := popLoop_eq_some hle
    rw [hpop]
    rfl
  · have hgreatest := fifo.isGreatest_accepts data
    rwa [← h.write_snd, ← h.contents, ← hsize, hcapacity] at hgreatest

/-! ## After the end of the input -/

/-- A write is empty or meets a full buffer. -/
def WritesNothing (stream : ByteStream) : Operation UInt8 → Prop
  | .write data => data = [] ∨ stream.remainingCapacity = 0
  | _ => True

instance (stream : ByteStream) :
    (operation : Operation UInt8) → Decidable (stream.WritesNothing operation)
  | .write _ => inferInstanceAs (Decidable (_ ∨ _))
  | .peek _ => inferInstanceAs (Decidable True)
  | .pop _ => inferInstanceAs (Decidable True)
  | .read _ => inferInstanceAs (Decidable True)
  | .close => inferInstanceAs (Decidable True)

theorem write_snd_eq_zero_iff {data : List UInt8} :
    (stream.write data).2 = 0 ↔ stream.WritesNothing (.write data) := by
  change min data.length stream.remainingCapacity = 0 ↔ data = [] ∨ _
  rw [Nat.min_eq_zero_iff, List.length_eq_zero_iff]

/-- If all writes after the end of the input are empty or meet a full buffer, no byte is written. -/
theorem bytesWritten_of_ended {operations : List (Operation UInt8)} (hended : stream.inputEnded = true)
    (h : Admissible step (fun stream operation ↦ stream.inputEnded = true →
      stream.WritesNothing operation) stream operations) :
    (run step stream operations).bytesWritten = stream.bytesWritten := by
  suffices hboth : (run step stream operations).inputEnded = true ∧
      (run step stream operations).bytesWritten = stream.bytesWritten from hboth.2
  apply h.invariant fun after ↦ after.inputEnded = true ∧ after.bytesWritten = stream.bytesWritten
  · rintro after operation ⟨hafter, hsame⟩ hcall
    cases operation with
    | write data =>
      refine ⟨hafter, ?_⟩
      change after.byteWritten + (after.write data).2 = _
      rw [write_snd_eq_zero_iff.mpr (hcall hafter)]
      exact hsame
    | pop len =>
      obtain ⟨-, hwritten, hkept, -⟩ := popOutput_frame after len
      exact ⟨hkept.trans hafter, hwritten.trans hsame⟩
    | read len =>
      obtain ⟨-, hwritten, hkept, -⟩ := popOutput_frame after (min len after.bufferSize)
      exact ⟨hkept.trans hafter, hwritten.trans hsame⟩
    | peek => exact ⟨hafter, hsame⟩
    | close => exact ⟨rfl, hsame⟩
  · exact ⟨hended, rfl⟩

end Sponge.ByteStream
