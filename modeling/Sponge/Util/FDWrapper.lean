import Sponge.Util.FileDescriptor

/-!
# File descriptors

`FDWrapper` is what a program keeps about an open file descriptor: whether it has seen the end of its
input, whether it has closed it, and how often it has read and written it.

The part of the kernel is an input of the model.  A system call fails with an `errno` other than zero, or
does what its manual page says: `read` gives at most as many bytes as were asked for, and `writev` takes
at least one byte of a message that has some.
-/

namespace Sponge

/-- The value of `errno` after a system call that has failed. -/
abbrev Errno := { errno : ℤ // errno ≠ 0 }

namespace Kernel

/-- The part of the kernel in a `read`: a failure, or the bytes that are there, none at the end. -/
inductive Read where
  | fails (errno : Errno)
  | gives (available : List UInt8)
  deriving DecidableEq

/-- The part of the kernel in a `writev`: a failure, or how much room there is. -/
inductive Write where
  | fails (errno : Errno)
  | takes (room : ℕ)
  deriving DecidableEq

/-- The bytes that are put into a buffer of a given size. -/
def Read.bytes (size : ℕ) : Read → List UInt8
  | fails _ => []
  | gives available => available.take size

def Read.answer (size : ℕ) : Read → Answer
  | fails errno => { returnValue := -1, errno := errno }
  | gives available => { returnValue := (available.take size).length }

def Write.answer (length : ℕ) : Write → Answer
  | fails errno => { returnValue := -1, errno := errno }
  | takes room => { returnValue := (min length (max 1 room) : ℕ) }

/-- The answer to a system call that has nothing to return. -/
def answer : Option Errno → Answer
  | none => { returnValue := 0 }
  | some errno => { returnValue := -1, errno := errno }

end Kernel

theorem systemCall_fails (attempt : String) (errno : Errno) :
    systemCall attempt { returnValue := -1, errno := errno } = .error (.unixError attempt errno) := by
  have hnegative : ¬ (toInt (-1) ≥ 0 ∨ (errno : ℤ) = 0) :=
    not_or.mpr ⟨by decide, errno.property⟩
  unfold systemCall
  dsimp only
  rw [if_neg hnegative]

theorem systemCall_returns (attempt : String) {count : ℕ} (h : (count : ℤ) ≤ intMax) :
    systemCall attempt { returnValue := count } = .ok count := by
  have hvalue : toInt count = count := toInt_of_le (Int.natCast_nonneg count) h
  have hnonneg : 0 ≤ toInt count := by
    rw [hvalue]
    exact Int.natCast_nonneg count
  have hcall := @systemCall_of_nonneg attempt { returnValue := count } hnonneg
  exact hcall.trans (congrArg Except.ok hvalue)

theorem systemCall_answer (attempt : String) (errno : Option Errno) :
    systemCall attempt (Kernel.answer errno) =
      match errno with
      | none => .ok 0
      | some errno => .error (.unixError attempt errno) := by
  cases errno with
  | none =>
    have hzero : ((0 : ℕ) : ℤ) ≤ intMax := by decide
    exact systemCall_returns attempt hzero
  | some errno => exact systemCall_fails attempt errno

structure FDWrapper where
  eof : Bool := false
  closed : Bool := false
  readCount : UInt32 := 0
  writeCount : UInt32 := 0
  deriving DecidableEq, Repr

namespace FDWrapper

def registerRead (fd : FDWrapper) : FDWrapper := { fd with readCount := fd.readCount + 1 }

def registerWrite (fd : FDWrapper) : FDWrapper := { fd with writeCount := fd.writeCount + 1 }

def bufferSize : ℕ := 1024 * 1024

def read (fd : FDWrapper) (limit : ℕ) (kernel : Kernel.Read) :
    Except SystemException (List UInt8 × FDWrapper) := do
  let sizeToRead := min bufferSize limit
  let bytesRead ← systemCall "read" (kernel.answer sizeToRead)
  let fd := if limit > 0 ∧ bytesRead = 0 then { fd with eof := true } else fd
  if bytesRead > sizeToRead then throw (.std (.runtimeError "read() read more than requested"))
  else return ((kernel.bytes sizeToRead).take (toSize bytesRead), fd.registerRead)

/-- Write a string by one call of `writev`: `FileDescriptor.write` without `writeAll`. -/
def write (fd : FDWrapper) (str : List UInt8) (kernel : Kernel.Write) :
    Except SystemException (ℕ × FDWrapper) := do
  let writing ← FileDescriptor.writeOnce (kernel.answer str.length) { buffer := ⟨[str]⟩ }
  return (writing.totalBytesWritten, fd.registerWrite)

/-- `Socket::shutdown` with `SHUT_WR`. -/
def shutdownWrite (fd : FDWrapper) (kernel : Option Errno) : Except SystemException FDWrapper := do
  let _ ← systemCall "shutdown" (Kernel.answer kernel)
  return fd.registerWrite

def close (fd : FDWrapper) (kernel : Option Errno) : Except SystemException FDWrapper := do
  let _ ← systemCall "close" (Kernel.answer kernel)
  return { fd with eof := true, closed := true }

/-! ## What the calls do -/

variable {fd : FDWrapper} {limit : ℕ} {str : List UInt8}

/-- What a `read` does, for each answer of the kernel. -/
theorem read_eq (fd : FDWrapper) (limit : ℕ) (kernel : Kernel.Read) :
    fd.read limit kernel =
      match kernel with
      | .fails errno => .error (.unixError "read" errno)
      | .gives available =>
          let data := available.take (min bufferSize limit)
          .ok (data, (if limit > 0 ∧ data = [] then { fd with eof := true } else fd).registerRead) := by
  cases kernel with
  | fails errno =>
    have hcall : systemCall "read" ((Kernel.Read.fails errno).answer (min bufferSize limit)) =
        .error (.unixError "read" errno) := systemCall_fails "read" errno
    unfold read
    dsimp only
    rw [hcall]
    rfl
  | gives available =>
    set data := available.take (min bufferSize limit)
    have hlength : data.length ≤ min bufferSize limit := List.length_take_le _ _
    have hsmall : (data.length : ℤ) ≤ intMax := by
      have hbuffer : bufferSize ≤ 2 ^ 30 := by decide
      unfold intMax
      omega
    have hsize : toSize data.length = data.length := by
      unfold intMax at hsmall
      have := toSize_of_nonneg (Int.natCast_nonneg data.length) (by omega)
      omega
    have hnotMore : ¬ (data.length : ℤ) > (min bufferSize limit : ℕ) := by omega
    have hempty : ((data.length : ℤ) = 0) ↔ data = [] := by
      rw [← List.length_eq_zero_iff]
      omega
    have hcall : systemCall "read" ((Kernel.Read.gives available).answer (min bufferSize limit)) =
        .ok data.length := systemCall_returns "read" hsmall
    unfold read
    dsimp only
    rw [hcall]
    change (if (data.length : ℤ) > (min bufferSize limit : ℕ) then _ else _) = _
    rw [if_neg hnotMore, hsize]
    change Except.ok (data.take data.length, _) = _
    simp only [List.take_length, hempty]
    rfl

structure Reads (fd : FDWrapper) (limit : ℕ) (data : List UInt8) (after : FDWrapper) : Prop where
  length_le : data.length ≤ limit
  eof : after.eof = true ↔ fd.eof = true ∨ limit > 0 ∧ data = []
  closed : after.closed = fd.closed
  readCount : after.readCount = fd.readCount + 1
  writeCount : after.writeCount = fd.writeCount

/-- A `read` fails, or it has read. -/
theorem read_cases (fd : FDWrapper) (limit : ℕ) (kernel : Kernel.Read) :
    (∃ errno, fd.read limit kernel = .error (.unixError "read" errno)) ∨
      ∃ data after, fd.read limit kernel = .ok (data, after) ∧ fd.Reads limit data after := by
  rw [read_eq]
  cases kernel with
  | fails errno => exact .inl ⟨errno, rfl⟩
  | gives available =>
    refine .inr ⟨_, _, rfl, ?_⟩
    have hlength := List.length_take_le (min bufferSize limit) available
    split_ifs with hend
    · exact ⟨by omega, iff_of_true rfl (.inr hend), rfl, rfl, rfl⟩
    · exact ⟨by omega, (or_iff_left hend).symm, rfl, rfl, rfl⟩

theorem writeOnce_fails (errno : Errno) :
    FileDescriptor.writeOnce ((Kernel.Write.fails errno).answer str.length) { buffer := ⟨[str]⟩ } =
      .error (.unixError "writev" errno) := by
  unfold FileDescriptor.writeOnce Kernel.Write.answer
  rw [systemCall_fails]
  rfl

/-- What a write of at most 64 KiB does, for each answer of the kernel. -/
theorem write_eq (fd : FDWrapper) (hstr : str.length ≤ 65536) (kernel : Kernel.Write) :
    fd.write str kernel =
      match kernel with
      | .fails errno => .error (.unixError "writev" errno)
      | .takes room => .ok (min str.length (max 1 room), fd.registerWrite) := by
  cases kernel with
  | fails errno =>
    rw [write, writeOnce_fails]
    rfl
  | takes room =>
    have hbytes : (BufferViewList.mk [str]).bytes = str := List.append_nil str
    have hreturn : ((Kernel.Write.takes room).answer str.length).returnValue =
        (min str.length (max 1 room) : ℕ) := rfl
    have hle : min str.length (max 1 room) ≤ (BufferViewList.mk [str]).bytes.length := by
      rw [hbytes]
      exact min_le_left _ _
    have hpos : (BufferViewList.mk [str]).bytes ≠ [] → 0 < min str.length (max 1 room) := by
      rw [hbytes]
      intro hnonempty
      have := List.length_pos_iff.mpr hnonempty
      omega
    have hsmall : ((Kernel.Write.takes room).answer str.length).returnValue ≤ intMax := by
      rw [hreturn, intMax]
      omega
    have honce := @FileDescriptor.writeOnce_of_small _ { buffer := ⟨[str]⟩ } _ hreturn hle hpos hsmall
    obtain ⟨after, honce, -, htotal⟩ := honce
    rw [write, honce]
    change Except.ok (after.totalBytesWritten, _) = _
    rw [htotal, Nat.zero_add]

theorem shutdownWrite_eq (fd : FDWrapper) (kernel : Option Errno) :
    fd.shutdownWrite kernel =
      match kernel with
      | none => .ok fd.registerWrite
      | some errno => .error (.unixError "shutdown" errno) := by
  rw [shutdownWrite, systemCall_answer]
  cases kernel <;> rfl

theorem close_eq (fd : FDWrapper) (kernel : Option Errno) :
    fd.close kernel =
      match kernel with
      | none => .ok { fd with eof := true, closed := true }
      | some errno => .error (.unixError "close" errno) := by
  rw [close, systemCall_answer]
  cases kernel <;> rfl

end FDWrapper

end Sponge
