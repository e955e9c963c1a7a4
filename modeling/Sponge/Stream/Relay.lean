import Sponge.Stream.ByteStream
import Sponge.Util.FDWrapper

/-!
# Byte streams between two descriptors

A program copies from one descriptor to another through a `ByteStream`: it reads at most as much as the
stream has room for, and takes out of the stream only what was really written.  `Conserves` says that no
byte gets lost, doubled or out of order on the way.
-/

namespace Sponge.Relay

def maxCopyLength : ℕ := 65536

/-- Read into a stream, and end it together with the input. -/
def readInto (fd : FDWrapper) (stream : ByteStream) (kernel : Kernel.Read) :
    Except SystemException (List UInt8 × FDWrapper × ByteStream) := do
  let (data, fd) ← fd.read stream.remainingCapacity kernel
  let stream := (stream.write data).1
  return (data, fd, if fd.eof then stream.endInput else stream)

/-- Write from a stream, handling the possibility of a partial write. -/
def writeFrom (fd : FDWrapper) (stream : ByteStream) (kernel : Kernel.Write) :
    Except SystemException (List UInt8 × FDWrapper × ByteStream) := do
  let str := stream.peekOutput (min maxCopyLength stream.bufferSize)
  let (bytesWritten, fd) ← fd.write str kernel
  return (str.take bytesWritten, fd, stream.popOutput bytesWritten)

inductive SinkCall where
  | write (data : List UInt8)
  | finish
  deriving DecidableEq, Repr

def SinkCall.data : SinkCall → List UInt8
  | write data => data
  | finish => []

def written (calls : List SinkCall) : List UInt8 := calls.flatMap SinkCall.data

@[simp] theorem written_append (calls more : List SinkCall) :
    written (calls ++ more) = written calls ++ written more := List.flatMap_append

@[simp] theorem written_write (data : List UInt8) : written [.write data] = data := List.append_nil data

@[simp] theorem written_finish : written [.finish] = [] := rfl

variable {fd after : FDWrapper} {stream rest : ByteStream} {data taken given : List UInt8}

/-- The data has been appended to the stream. -/
structure ReadInto (fd : FDWrapper) (stream : ByteStream) (data : List UInt8) (after : FDWrapper)
    (rest : ByteStream) : Prop where
  valid : rest.Valid
  contents : rest.contents = stream.contents ++ data
  ended : rest.ended = (stream.ended || after.eof)
  error : rest.error = stream.error
  capacity : rest.capacity = stream.capacity
  eof : after.eof = true → fd.eof = true ∨ data = []
  closed : after.closed = fd.closed
  readCount : after.readCount = fd.readCount + 1
  writeCount : after.writeCount = fd.writeCount

/-- The data has been taken out of the stream. -/
structure WrittenFrom (fd : FDWrapper) (stream : ByteStream) (data : List UInt8) (after : FDWrapper)
    (rest : ByteStream) : Prop where
  valid : rest.Valid
  contents : stream.contents = data ++ rest.contents
  ended : rest.ended = stream.ended
  error : rest.error = stream.error
  capacity : rest.capacity = stream.capacity
  after_eq : after = fd.registerWrite
  rest_eq : rest = stream.popOutput data.length
  length_le : data.length ≤ maxCopyLength
  progress : stream.contents ≠ [] → data ≠ []

/-- Reading into a stream fails with the error of `read`, or all that was read is appended. -/
theorem readInto_cases (hvalid : stream.Valid) (kernel : Kernel.Read) :
    (∃ errno, readInto fd stream kernel = .error (.unixError "read" errno)) ∨
      ∃ data after rest, readInto fd stream kernel = .ok (data, after, rest) ∧
        ReadInto fd stream data after rest := by
  unfold readInto
  rcases fd.read_cases stream.remainingCapacity kernel with ⟨errno, heq⟩ | ⟨data, after, heq, hread⟩
  · rw [heq]
    exact .inl ⟨errno, rfl⟩
  · have hfits : stream.contents.length + data.length ≤ stream.capacity := by
      have hlength := hread.length_le
      have hle := hvalid.length_le
      rw [hvalid.remainingCapacity_eq] at hlength
      omega
    obtain ⟨-, hcontents⟩ := ByteStream.write_of_fits hvalid hfits
    obtain ⟨hcapacity, -, hended, herror⟩ := stream.write_frame data
    rw [heq]
    refine .inr ⟨data, after, _, rfl, ?_⟩
    have heof (hend : after.eof = true) : fd.eof = true ∨ data = [] :=
      (hread.eof.mp hend).imp_right And.right
    split_ifs with hend
    · exact ⟨(hvalid.write data).endInput, hcontents, by rw [hend, Bool.or_true]; rfl, herror,
        hcapacity, heof, hread.closed, hread.readCount, hread.writeCount⟩
    · exact ⟨hvalid.write data, hcontents, by rw [hended, Bool.eq_false_iff.mpr hend, Bool.or_false],
        herror, hcapacity, heof, hread.closed, hread.readCount, hread.writeCount⟩

/-- Writing from a stream fails with the error of `writev`, or what was written is taken out. -/
theorem writeFrom_cases (hvalid : stream.Valid) (kernel : Kernel.Write) :
    (∃ errno, writeFrom fd stream kernel = .error (.unixError "writev" errno)) ∨
      ∃ data after rest, writeFrom fd stream kernel = .ok (data, after, rest) ∧
        WrittenFrom fd stream data after rest := by
  unfold writeFrom
  dsimp only
  rw [ByteStream.peekOutput_eq hvalid, hvalid.bufferSize_eq]
  generalize hstr : stream.contents.take (min maxCopyLength stream.contents.length) = str
  have hlength : str.length = min maxCopyLength stream.contents.length := by
    rw [← hstr, List.length_take]
    omega
  have hlimit : str.length ≤ 65536 := by
    rw [hlength]
    exact min_le_left _ _
  rw [fd.write_eq hlimit]
  cases kernel with
  | fails errno => exact .inl ⟨errno, rfl⟩
  | takes room =>
    dsimp only
    generalize hcount : min str.length (max 1 room) = count
    have hle : count ≤ stream.contents.length := by omega
    have htake : str.take count = stream.contents.take count := by
      rw [← hstr, List.take_take, List.take_eq_take_iff]
      omega
    have htaken : (stream.contents.take count).length = count := List.length_take_of_le hle
    obtain ⟨hcapacity, -, hended, herror⟩ := stream.popOutput_frame count
    refine .inr ⟨str.take count, fd.registerWrite, stream.popOutput count, rfl, ?_⟩
    rw [htake]
    refine ⟨hvalid.popOutput count, ?_, hended, herror, hcapacity, rfl, by rw [htaken],
      by rw [htaken]; omega, ?_⟩
    · rw [ByteStream.contents_popOutput hvalid, List.take_append_drop]
    · intro hnonempty
      have hpos := List.length_pos_iff.mpr hnonempty
      have hone : 0 < maxCopyLength := by decide
      rw [← List.length_pos_iff, htaken]
      omega

/-- What was taken from the source has been given to the sink or is still in the stream. -/
structure Conserves (taken given : List UInt8) (stream : ByteStream) : Prop where
  valid : stream.Valid
  taken_eq : taken = given ++ stream.contents

theorem conserves_new (capacity : ℕ) : Conserves [] [] (.new capacity) :=
  ⟨ByteStream.valid_new capacity, rfl⟩

theorem Conserves.readInto (h : Conserves taken given stream) (hread : ReadInto fd stream data after rest) :
    Conserves (taken ++ data) given rest :=
  ⟨hread.valid, by rw [h.taken_eq, hread.contents, List.append_assoc]⟩

theorem Conserves.writeFrom (h : Conserves taken given stream)
    (hwrite : WrittenFrom fd stream data after rest) : Conserves taken (given ++ data) rest :=
  ⟨hwrite.valid, by rw [h.taken_eq, hwrite.contents, List.append_assoc]⟩

theorem Conserves.endInput (h : Conserves taken given stream) : Conserves taken given stream.endInput :=
  ⟨h.valid.endInput, h.taken_eq⟩

theorem Conserves.setError (h : Conserves taken given stream) : Conserves taken given stream.setError :=
  ⟨h.valid.setError, h.taken_eq⟩

/-- An empty stream has given everything. -/
theorem Conserves.all_given (h : Conserves taken given stream) (hempty : stream.contents = []) :
    given = taken := by
  rw [h.taken_eq, hempty, List.append_nil]

end Sponge.Relay
