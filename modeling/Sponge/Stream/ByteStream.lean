import Sponge.Library.Word
import Sponge.Util.Buffer

/-!
# In-order byte streams

`ByteStream` keeps what has been written and not yet read as a queue of chunks, beside two running
counters.  `contents` is the concatenation of the chunks.  A stream is `Valid` when the counters
agree with the contents and the capacity is respected; every operation keeps this, and each
operation is described by what it does to `contents`.
-/

namespace Sponge

/-- An in-order byte stream with a bounded buffer. -/
structure ByteStream where
  buffer : List Buffer := []
  capacity : ℕ
  byteWritten : ℕ := 0
  byteRead : ℕ := 0
  ended : Bool := false
  error : Bool := false
  deriving DecidableEq, Repr

namespace ByteStream

def new (capacity : ℕ) : ByteStream := { capacity }

def bufferSize (stream : ByteStream) : ℕ := Word.sub stream.byteWritten stream.byteRead

def bufferEmpty (stream : ByteStream) : Bool := stream.bufferSize == 0

def inputEnded (stream : ByteStream) : Bool := stream.ended

def eof (stream : ByteStream) : Bool := stream.ended && stream.bufferEmpty

def bytesWritten (stream : ByteStream) : ℕ := stream.byteWritten

def bytesRead (stream : ByteStream) : ℕ := stream.byteRead

def remainingCapacity (stream : ByteStream) : ℕ := Word.sub stream.capacity stream.bufferSize

def endInput (stream : ByteStream) : ByteStream := { stream with ended := true }

def setError (stream : ByteStream) : ByteStream := { stream with error := true }

/-- Write as many bytes as fit, also after the end of the input, and return how many. -/
def write (stream : ByteStream) (str : List UInt8) : ByteStream × ℕ :=
  let deltaLen := min str.length (Word.sub stream.capacity stream.bufferSize)
  ({ stream with
      buffer := stream.buffer ++ [.ofString (str.take deltaLen)]
      byteWritten := stream.byteWritten + deltaLen }, deltaLen)

/-- The loop of `peekOutput`: whole chunks while they fit, then a part of the next one. -/
def peekLoop : List Buffer → ℕ → List UInt8
  | [], _ => []
  | front :: rest, trueLen =>
      if trueLen ≥ front.size then
        front.str ++ if trueLen - front.size ≤ 0 then [] else peekLoop rest (trueLen - front.size)
      else front.str.take trueLen

def peekOutput (stream : ByteStream) (len : ℕ) : List UInt8 :=
  peekLoop stream.buffer (min len stream.bufferSize)

/-- The loop of `popOutput`.  The result `none` is `front()` of an empty queue or the exception of
`Buffer::remove_prefix`; `popLoop_eq_some` shows that neither happens in a valid stream. -/
def popLoop : List Buffer → ℕ → Option (List Buffer)
  | [], deltaLen => if deltaLen > 0 then none else some []
  | front :: rest, deltaLen =>
      if deltaLen > 0 then
        if deltaLen ≥ front.size then popLoop rest (deltaLen - front.size)
        else (front.removePrefix deltaLen).toOption.map (· :: rest)
      else some (front :: rest)

def popOutput (stream : ByteStream) (len : ℕ) : ByteStream :=
  let deltaLen := min len stream.bufferSize
  if deltaLen ≤ 0 then stream
  else { stream with
    byteRead := stream.byteRead + deltaLen
    buffer := (popLoop stream.buffer deltaLen).getD [] }

def read (stream : ByteStream) (len : ℕ) : List UInt8 × ByteStream :=
  let deltaLen := min len stream.bufferSize
  (stream.peekOutput deltaLen, stream.popOutput deltaLen)

/-! ## What a stream holds -/

def flatten (chunks : List Buffer) : List UInt8 := chunks.flatMap Buffer.str

@[simp] theorem flatten_nil : flatten [] = [] := rfl

@[simp] theorem flatten_cons (front : Buffer) (rest : List Buffer) :
    flatten (front :: rest) = front.str ++ flatten rest := rfl

@[simp] theorem flatten_append (left right : List Buffer) :
    flatten (left ++ right) = flatten left ++ flatten right := by
  simp [flatten]

/-- The bytes written and not yet read. -/
def contents (stream : ByteStream) : List UInt8 := flatten stream.buffer

/-- The counters agree with the contents, and the contents fit. -/
structure Valid (stream : ByteStream) : Prop where
  read_le : stream.byteRead ≤ stream.byteWritten
  length_contents : stream.contents.length = stream.byteWritten - stream.byteRead
  length_le : stream.contents.length ≤ stream.capacity

@[simp] theorem valid_new (capacity : ℕ) : (new capacity).Valid :=
  ⟨le_rfl, rfl, Nat.zero_le _⟩

namespace Valid

variable {stream : ByteStream} (h : stream.Valid)
include h

theorem bufferSize_eq : stream.bufferSize = stream.contents.length := by
  rw [h.length_contents]
  exact Word.sub_of_le h.read_le

theorem remainingCapacity_eq :
    stream.remainingCapacity = stream.capacity - stream.contents.length := by
  unfold remainingCapacity
  rw [h.bufferSize_eq, Word.sub_of_le h.length_le]

theorem bufferEmpty_iff : stream.bufferEmpty = true ↔ stream.contents = [] := by
  simp [bufferEmpty, h.bufferSize_eq]

/-- The reader is at the end when the input has ended and everything has been read. -/
theorem eof_iff : stream.eof = true ↔ stream.ended = true ∧ stream.contents = [] := by
  simp [eof, h.bufferEmpty_iff]

theorem written_eq : stream.byteWritten = stream.byteRead + stream.contents.length := by
  have := h.length_contents
  have := h.read_le
  omega

theorem endInput : stream.endInput.Valid := ⟨h.read_le, h.length_contents, h.length_le⟩

theorem setError : stream.setError.Valid := ⟨h.read_le, h.length_contents, h.length_le⟩

end Valid

/-! ## Writing -/

/-- A write takes as much as there is room for. -/
theorem write_snd {stream : ByteStream} (h : stream.Valid) (str : List UInt8) :
    (stream.write str).2 = min str.length (stream.capacity - stream.contents.length) := by
  simp only [write, h.bufferSize_eq, Word.sub_of_le h.length_le]

/-- Writing changes the queue and the write counter only. -/
@[simp] theorem write_frame (stream : ByteStream) (str : List UInt8) :
    (stream.write str).1.capacity = stream.capacity ∧
      (stream.write str).1.byteRead = stream.byteRead ∧
      (stream.write str).1.ended = stream.ended ∧
      (stream.write str).1.error = stream.error := ⟨rfl, rfl, rfl, rfl⟩

theorem byteWritten_write (stream : ByteStream) (str : List UInt8) :
    (stream.write str).1.byteWritten = stream.byteWritten + (stream.write str).2 := rfl

/-- What was taken is appended. -/
theorem contents_write (stream : ByteStream) (str : List UInt8) :
    (stream.write str).1.contents = stream.contents ++ str.take (stream.write str).2 := by
  simp [write, contents]

theorem Valid.write {stream : ByteStream} (h : stream.Valid) (str : List UInt8) :
    (stream.write str).1.Valid := by
  have hread := h.read_le
  have hlength := h.length_contents
  have hfits := h.length_le
  have hsnd := write_snd h str
  have hcontents := contents_write stream str
  have hwritten := byteWritten_write stream str
  have htake : (str.take (stream.write str).2).length = (stream.write str).2 := by
    rw [List.length_take]
    omega
  constructor
  · rw [hwritten]
    exact hread.trans (Nat.le_add_right _ _)
  · rw [hcontents, List.length_append, htake, hwritten]
    change _ = _ - stream.byteRead
    omega
  · rw [hcontents, List.length_append, htake]
    change _ ≤ stream.capacity
    omega

/-- A string that fits is written whole. -/
theorem write_of_fits {stream : ByteStream} (h : stream.Valid) {str : List UInt8}
    (hfits : stream.contents.length + str.length ≤ stream.capacity) :
    (stream.write str).2 = str.length ∧ (stream.write str).1.contents = stream.contents ++ str := by
  have hsnd : (stream.write str).2 = str.length := by
    rw [write_snd h]
    omega
  exact ⟨hsnd, by rw [contents_write, hsnd, List.take_length]⟩

/-! ## Reading -/

theorem peekLoop_eq (chunks : List Buffer) (trueLen : ℕ) :
    peekLoop chunks trueLen = (flatten chunks).take trueLen := by
  induction chunks generalizing trueLen with
  | nil => simp [peekLoop]
  | cons front rest ih =>
    unfold peekLoop
    rw [flatten_cons, List.take_append]
    split_ifs with hwhole hdone
    · have hzero : trueLen - front.str.length = 0 := Nat.le_zero.mp hdone
      rw [List.take_of_length_le hwhole, hzero, List.take_zero]
    · rw [List.take_of_length_le hwhole, ih]
      rfl
    · have hpart : trueLen - front.str.length = 0 := by
        have : trueLen < front.str.length := not_le.mp hwhole
        omega
      rw [hpart, List.take_zero, List.append_nil]

/-- As long as there are enough bytes, the loop does not throw. -/
theorem popLoop_eq_some {chunks : List Buffer} {deltaLen : ℕ}
    (h : deltaLen ≤ (flatten chunks).length) :
    ∃ rest, popLoop chunks deltaLen = some rest ∧
      flatten rest = (flatten chunks).drop deltaLen := by
  induction chunks generalizing deltaLen with
  | nil =>
    have hzero : deltaLen = 0 := Nat.le_zero.mp h
    subst hzero
    exact ⟨[], rfl, rfl⟩
  | cons front rest ih =>
    rw [flatten_cons, List.length_append] at h
    unfold popLoop
    rw [flatten_cons, List.drop_append]
    split_ifs with hpositive hwhole
    · -- The front chunk goes as a whole, and the loop continues with what is left to remove.
      have hrest : deltaLen - front.size ≤ (flatten rest).length := by
        unfold Buffer.size
        omega
      obtain ⟨remaining, hpop, hflat⟩ := ih hrest
      refine ⟨remaining, hpop, ?_⟩
      rw [List.drop_of_length_le hwhole, List.nil_append, hflat]
      rfl
    · have hpart : deltaLen ≤ front.size := (not_le.mp hwhole).le
      obtain ⟨remaining, hremove, hstr⟩ := Buffer.removePrefix_of_le hpart
      refine ⟨remaining :: rest, by simp [hremove, Except.toOption], ?_⟩
      have hzero : deltaLen - front.str.length = 0 := Nat.sub_eq_zero_of_le hpart
      rw [flatten_cons, hstr, hzero, List.drop_zero]
    · have hzero : deltaLen = 0 := by omega
      subst hzero
      exact ⟨front :: rest, rfl, by simp⟩

/-- Peeking shows the first bytes. -/
theorem peekOutput_eq {stream : ByteStream} (h : stream.Valid) (len : ℕ) :
    stream.peekOutput len = stream.contents.take len := by
  unfold peekOutput
  rw [peekLoop_eq, h.bufferSize_eq]
  change stream.contents.take (min len stream.contents.length) = _
  rw [List.take_eq_take_iff]
  omega

/-- Popping removes the first bytes. -/
theorem contents_popOutput {stream : ByteStream} (h : stream.Valid) (len : ℕ) :
    (stream.popOutput len).contents = stream.contents.drop len := by
  unfold popOutput
  dsimp only
  rw [h.bufferSize_eq]
  split_ifs with hnone
  · rcases Nat.eq_zero_or_pos len with rfl | hpositive
    · simp
    · have hempty : stream.contents = [] := List.length_eq_zero_iff.mp (by omega)
      simp [hempty]
  · have hle : min len stream.contents.length ≤ (flatten stream.buffer).length := min_le_right _ _
    obtain ⟨rest, hpop, hflat⟩ := popLoop_eq_some hle
    simp only [contents] at hpop hflat ⊢
    rw [hpop, Option.getD_some, hflat, List.drop_eq_drop_iff]
    omega

theorem byteRead_popOutput {stream : ByteStream} (h : stream.Valid) (len : ℕ) :
    (stream.popOutput len).byteRead = stream.byteRead + min len stream.contents.length := by
  unfold popOutput
  dsimp only
  rw [h.bufferSize_eq]
  split_ifs with hnone
  · rw [Nat.le_zero.mp hnone, Nat.add_zero]
  · rfl

@[simp] theorem popOutput_zero (stream : ByteStream) : stream.popOutput 0 = stream := by
  simp [popOutput]

/-- Only as many bytes as there are can be popped. -/
theorem popOutput_min {stream : ByteStream} (h : stream.Valid) (len : ℕ) :
    stream.popOutput (min len stream.contents.length) = stream.popOutput len := by
  unfold popOutput
  simp only [h.bufferSize_eq, min_assoc, min_self]

/-- Popping changes the queue and the read counter only. -/
theorem popOutput_frame (stream : ByteStream) (len : ℕ) :
    (stream.popOutput len).capacity = stream.capacity ∧
      (stream.popOutput len).byteWritten = stream.byteWritten ∧
      (stream.popOutput len).ended = stream.ended ∧
      (stream.popOutput len).error = stream.error := by
  unfold popOutput
  dsimp only
  split_ifs <;> exact ⟨rfl, rfl, rfl, rfl⟩

theorem Valid.popOutput {stream : ByteStream} (h : stream.Valid) (len : ℕ) :
    (stream.popOutput len).Valid := by
  obtain ⟨hcapacity, hwritten, -, -⟩ := popOutput_frame stream len
  have hread := byteRead_popOutput h len
  have hlength := h.length_contents
  have hfits := h.length_le
  have hle := h.read_le
  constructor
  · rw [hread, hwritten]
    omega
  · rw [contents_popOutput h, List.length_drop, hread, hwritten]
    omega
  · rw [contents_popOutput h, List.length_drop, hcapacity]
    omega

/-- Reading returns the first bytes. -/
theorem read_fst {stream : ByteStream} (h : stream.Valid) (len : ℕ) :
    (stream.read len).1 = stream.contents.take len := by
  dsimp only [read]
  rw [peekOutput_eq h, h.bufferSize_eq, List.take_eq_take_iff]
  omega

theorem read_snd {stream : ByteStream} (h : stream.Valid) (len : ℕ) :
    (stream.read len).2 = stream.popOutput len := by
  unfold read popOutput
  simp only [h.bufferSize_eq, min_assoc, min_self]

end ByteStream

end Sponge
