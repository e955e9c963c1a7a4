import Sponge.Library.Execution
import Sponge.Stream.Relay
import Sponge.Util.Handlers

/-!
# Copying between the standard streams and a socket

`bidirectional_stream_copy` copies from the standard input to a socket and from the socket to the standard
output.  Each direction is a byte stream with a rule that reads into it and a rule that writes from it;
the four rules share one event loop.

A `Lane` is one direction: the stream, the flag that is set once its sink has been shut down, and a record
of what was read from the source and done to the sink.
-/

namespace Sponge.BidirectionalStreamCopy

open EventLoop Execution Relay

def bufferSize : ℕ := 1048576

/-- One direction. -/
structure Lane where
  stream : ByteStream := .new bufferSize
  shutdown : Bool := false
  taken : List UInt8 := []
  calls : List SinkCall := []
  deriving DecidableEq, Repr

namespace Lane

/-- The callback of a rule that reads. -/
def read (lane : Lane) (source : FDWrapper) (kernel : Kernel.Read) :
    Except SystemException (FDWrapper × Lane) := do
  let (data, source, stream) ← readInto source lane.stream kernel
  return (source, { lane with stream, taken := lane.taken ++ data })

/-- The callback of a rule that writes.  The sink is shut down or closed after the last byte. -/
def write (lane : Lane) (finish : FDWrapper → Except SystemException FDWrapper) (sink : FDWrapper)
    (kernel : Kernel.Write) : Except SystemException (FDWrapper × Lane) := do
  let (data, sink, stream) ← writeFrom sink lane.stream kernel
  let lane := { lane with stream, calls := lane.calls ++ [.write data] }
  if stream.eof then
    let sink ← finish sink
    return (sink, { lane with shutdown := true, calls := lane.calls ++ [.finish] })
  else return (sink, lane)

def wantsInput (lane other : Lane) : Bool :=
  !lane.stream.error && lane.stream.remainingCapacity > 0 && !other.stream.error

def wantsOutput (lane : Lane) : Bool :=
  !lane.stream.bufferEmpty || (lane.stream.eof && !lane.shutdown)

def endInput (lane : Lane) : Lane := { lane with stream := lane.stream.endInput }

def setError (lane : Lane) : Lane := { lane with stream := lane.stream.setError }

end Lane

/-- The local variables. -/
structure Copy where
  input : FDWrapper := {}
  output : FDWrapper := {}
  socket : FDWrapper := {}
  outbound : Lane := {}
  inbound : Lane := {}
  deriving DecidableEq, Repr

/-- The part of the kernel in one call of `wait_next_event`. -/
structure Answers where
  inputRead : Kernel.Read
  socketWrite : Kernel.Write
  socketShutdown : Option Errno
  socketRead : Kernel.Read
  outputWrite : Kernel.Write
  outputClose : Option Errno

/-- Rule 1: read from stdin into outbound byte stream. -/
def inputRule : Handler Copy Answers where
  id := 1
  fdNum := 0
  direction := .In
  fd := Copy.input
  callback answers copy := do
    let (input, outbound) ← copy.outbound.read copy.input answers.inputRead
    return { copy with input, outbound }
  interest copy := copy.outbound.wantsInput copy.inbound
  cancel copy := { copy with outbound := copy.outbound.endInput }

/-- Rule 2: read from outbound byte stream into socket. -/
def socketOutRule (socketFd : ℤ) : Handler Copy Answers where
  id := 2
  fdNum := socketFd
  direction := .Out
  fd := Copy.socket
  callback answers copy := do
    let (socket, outbound) ← copy.outbound.write (·.shutdownWrite answers.socketShutdown) copy.socket
      answers.socketWrite
    return { copy with socket, outbound }
  interest copy := copy.outbound.wantsOutput
  cancel copy := { copy with outbound := copy.outbound.setError }

/-- Rule 3: read from socket into inbound byte stream. -/
def socketInRule (socketFd : ℤ) : Handler Copy Answers where
  id := 3
  fdNum := socketFd
  direction := .In
  fd := Copy.socket
  callback answers copy := do
    let (socket, inbound) ← copy.inbound.read copy.socket answers.socketRead
    return { copy with socket, inbound }
  interest copy := copy.inbound.wantsInput copy.outbound
  cancel copy := { copy with inbound := copy.inbound.endInput }

/-- Rule 4: read from inbound byte stream into stdout. -/
def outputRule : Handler Copy Answers where
  id := 4
  fdNum := 1
  direction := .Out
  fd := Copy.output
  callback answers copy := do
    let (output, inbound) ← copy.inbound.write (·.close answers.outputClose) copy.output
      answers.outputWrite
    return { copy with output, inbound }
  interest copy := copy.inbound.wantsOutput
  cancel copy := { copy with inbound := copy.inbound.setError }

def rules (socketFd : ℤ) : List (Handler Copy Answers) :=
  [inputRule, socketOutRule socketFd, socketInRule socketFd, outputRule]

/-- The loop, and how it has ended, if it has. -/
structure Loop where
  handlers : List (Handler Copy Answers)
  copy : Copy := {}
  ending : Option Ending := none

/-- One iteration of the loop until completion. -/
def Loop.step (loop : Loop) (turn : Turn Answers) : Loop :=
  if loop.ending.isSome then loop
  else
    let handled := turn.waitNextEvent loop.handlers loop.copy
    { handlers := handled.handlers
      copy := handled.state
      ending :=
        match handled.ending with
        | .returned .success => none
        | .returned .timeout => none
        | ending => some ending }

def start (socketFd : ℤ) : Loop := { handlers := rules socketFd }

/-! ## One direction -/

/-- What is kept for one direction: no byte gets lost; the sink is shut down at most once, when the
stream has come to its end, and nothing is written to it afterwards. -/
structure Lane.Sound (lane : Lane) : Prop where
  conserves : Conserves lane.taken (written lane.calls) lane.stream
  capacity : lane.stream.capacity = bufferSize
  unfinished : lane.shutdown = false → .finish ∉ lane.calls
  finished : lane.shutdown = true → lane.stream.ended = true ∧ lane.stream.contents = [] ∧
    ∃ before, lane.calls = before ++ [.finish] ∧ .finish ∉ before

variable {lane : Lane} {fd : FDWrapper}

theorem sound_new : Lane.Sound {} :=
  ⟨conserves_new bufferSize, rfl, fun _ ↦ List.not_mem_nil, nofun⟩

theorem Lane.Sound.endInput (h : lane.Sound) : lane.endInput.Sound :=
  ⟨h.conserves.endInput, h.capacity, h.unfinished, fun hshutdown ↦ ⟨rfl, (h.finished hshutdown).2⟩⟩

theorem Lane.Sound.setError (h : lane.Sound) : lane.setError.Sound :=
  ⟨h.conserves.setError, h.capacity, h.unfinished, h.finished⟩

structure Lane.Reads (lane : Lane) (source after : FDWrapper) (rest : Lane) : Prop where
  sound : lane.shutdown = false → rest.Sound
  shutdown : rest.shutdown = lane.shutdown
  ended : rest.stream.ended = (lane.stream.ended || after.eof)
  error : rest.stream.error = lane.stream.error
  closed : after.closed = source.closed
  readCount : after.readCount = source.readCount + 1

/-- A callback that reads fails with the error of `read`, or it has read. -/
theorem Lane.Sound.read_cases (h : lane.Sound) (source : FDWrapper) (kernel : Kernel.Read) :
    (∃ errno, lane.read source kernel = .error (.unixError "read" errno)) ∨
      ∃ after rest, lane.read source kernel = .ok (after, rest) ∧ lane.Reads source after rest := by
  unfold Lane.read
  cases readInto_cases h.conserves.valid kernel with
  | inl hfails =>
    obtain ⟨errno, heq⟩ := hfails
    rw [heq]
    exact .inl ⟨errno, rfl⟩
  | inr hreads =>
    obtain ⟨data, after, stream, heq, hread⟩ := hreads
    rw [heq]
    refine .inr ⟨after, _, rfl, fun hopen ↦ ?_, rfl, hread.ended, hread.error, hread.closed,
      hread.readCount⟩
    exact ⟨h.conserves.readInto hread, hread.capacity.trans h.capacity, h.unfinished,
      fun hshutdown ↦ absurd (hopen.symm.trans hshutdown) Bool.false_ne_true⟩

structure Lane.Writes (lane : Lane) (sink after : FDWrapper) (rest : Lane) : Prop where
  sound : lane.shutdown = false → rest.Sound
  ended : rest.stream.ended = lane.stream.ended
  error : rest.stream.error = lane.stream.error
  used : after.writeCount ≠ sink.writeCount

/-- A callback that writes fails with the error of one of its two system calls, or it has written. -/
theorem Lane.Sound.write_cases {finish : FDWrapper → Except SystemException FDWrapper} {attempt : String}
    {finished : FDWrapper → FDWrapper} {kernel : Option Errno}
    (hfinish : ∀ fd, finish fd =
      match kernel with
      | none => .ok (finished fd)
      | some errno => .error (.unixError attempt errno))
    (hcount : ∀ fd : FDWrapper, (finished fd.registerWrite).writeCount ≠ fd.writeCount)
    (h : lane.Sound) (sink : FDWrapper) (room : Kernel.Write) :
    (∃ errno, lane.write finish sink room = .error (.unixError "writev" errno)) ∨
      (∃ errno, lane.write finish sink room = .error (.unixError attempt errno)) ∨
      ∃ after rest, lane.write finish sink room = .ok (after, rest) ∧ lane.Writes sink after rest ∧
        (after = sink.registerWrite ∧ rest.shutdown = lane.shutdown ∨
          after = finished sink.registerWrite ∧ rest.shutdown = true) := by
  unfold Lane.write
  cases writeFrom_cases h.conserves.valid room with
  | inl hfails =>
    obtain ⟨errno, heq⟩ := hfails
    rw [heq]
    exact .inl ⟨errno, rfl⟩
  | inr hwrites =>
    obtain ⟨data, after, stream, heq, hwrite⟩ := hwrites
    have hconserves : Conserves lane.taken (written (lane.calls ++ [.write data])) stream := by
      rw [written_append, written_write]
      exact h.conserves.writeFrom hwrite
    have hunfinished (hopen : lane.shutdown = false) : .finish ∉ lane.calls ++ [.write data] := by
      simpa using h.unfinished hopen
    have hcapacity := hwrite.capacity.trans h.capacity
    rw [heq]
    dsimp only [bind, Except.bind]
    by_cases heof : stream.eof = true
    · rw [if_pos heof, hwrite.after_eq, hfinish]
      cases kernel with
      | some errno => exact .inr (.inl ⟨errno, rfl⟩)
      | none =>
        refine .inr (.inr ⟨_, _, rfl, ⟨fun hopen ↦ ⟨?_, hcapacity, nofun, fun _ ↦ ?_⟩, hwrite.ended,
          hwrite.error, hcount sink⟩, .inr ⟨rfl, rfl⟩⟩)
        · rw [written_append, written_finish, List.append_nil]
          exact hconserves
        · have hend := hwrite.valid.eof_iff.mp heof
          exact ⟨hend.1, hend.2, _, rfl, hunfinished hopen⟩
    · rw [if_neg heof]
      refine .inr (.inr ⟨_, _, rfl, ⟨fun hopen ↦ ⟨hconserves, hcapacity, hunfinished, ?_⟩,
        hwrite.ended, hwrite.error, ?_⟩, .inl ⟨hwrite.after_eq, rfl⟩⟩)
      · exact fun hshutdown ↦ absurd (hopen.symm.trans hshutdown) Bool.false_ne_true
      · rw [hwrite.after_eq]
        simp [FDWrapper.registerWrite]

/-! ## Both directions -/

/-- What a rule leaves behind when it is cancelled. -/
def Gone (id : ℕ) (copy : Copy) : Prop :=
  match id with
  | 1 => copy.outbound.stream.ended = true
  | 2 => copy.outbound.stream.error = true
  | 3 => copy.inbound.stream.ended = true
  | 4 => copy.inbound.stream.error = true
  | _ => True

/-- What the interest of a rule tells when the poll is set up. -/
def Wants (id : ℕ) (copy : Copy) : Prop :=
  match id with
  | 1 => copy.input.eof = false
  | 2 => copy.outbound.shutdown = false
  | 3 => copy.socket.eof = false
  | 4 => copy.inbound.shutdown = false
  | _ => True

def Idle (id : ℕ) (copy : Copy) : Prop :=
  match id with
  | 1 => copy.outbound.wantsInput copy.inbound = false
  | 2 => copy.outbound.wantsOutput = false
  | 3 => copy.inbound.wantsInput copy.outbound = false
  | 4 => copy.inbound.wantsOutput = false ∧ copy.output.closed = false
  | _ => True

/-- The exceptions of the system calls that the callbacks make. -/
def Fails (exception : SystemException) : Prop :=
  ∃ attempt ∈ ["read", "writev", "shutdown", "close"], ∃ errno, exception = .unixError attempt errno

/-- What holds between two iterations, for the rules that are left.  A rule that reads is not called any
more once its stream has ended. -/
structure Copy.Sound (socketFd : ℤ) (handlers : List (Handler Copy Answers)) (copy : Copy) : Prop where
  sublist : handlers.Sublist (rules socketFd)
  outbound : copy.outbound.Sound
  inbound : copy.inbound.Sound
  outboundEnded : copy.outbound.stream.ended = true → copy.input.eof = true ∨ 1 ∉ ids handlers
  inboundEnded : copy.inbound.stream.ended = true → copy.socket.eof = true ∨ 3 ∉ ids handlers
  gone : ∀ id ∉ ids handlers, id ∈ [1, 2, 3, 4] → Gone id copy
  outputClosed : copy.output.closed = copy.inbound.shutdown

variable {socketFd : ℤ} {handlers kept rest : List (Handler Copy Answers)}
  {handler : Handler Copy Answers} {copy after : Copy} {answers : Answers} {id : ℕ}

theorem ordered_rules (socketFd : ℤ) : Ordered (rules socketFd) := by
  simp [Ordered, rules, inputRule, socketOutRule, socketInRule, outputRule]

/-- The rules of the program are sound before the first iteration. -/
theorem start_sound (socketFd : ℤ) : Copy.Sound socketFd (rules socketFd) {} :=
  ⟨.refl _, sound_new, sound_new, nofun, nofun, fun _ hgone hid ↦ absurd hid hgone, rfl⟩

theorem mem_rules (h : handler ∈ rules socketFd) :
    handler = inputRule ∨ handler = socketOutRule socketFd ∨ handler = socketInRule socketFd ∨
      handler = outputRule := by
  simpa [rules] using h

theorem gone_cancel (hhandler : handler ∈ rules socketFd) (h : Gone id copy) :
    Gone id (handler.cancel copy) := by
  unfold Gone at h ⊢
  rcases mem_rules hhandler with rfl | rfl | rfl | rfl <;> split <;> trivial

theorem gone_self (hhandler : handler ∈ rules socketFd) : Gone handler.id (handler.cancel copy) := by
  rcases mem_rules hhandler with rfl | rfl | rfl | rfl <;> rfl

/-- Cancelling a rule keeps what holds for the others. -/
theorem Copy.Sound.cancel (h : Copy.Sound socketFd (kept ++ handler :: rest) copy) :
    Copy.Sound socketFd (kept ++ rest) (handler.cancel copy) := by
  have hmem : handler ∈ rules socketFd := h.sublist.subset (by simp)
  have hordered : Ordered (kept ++ handler :: rest) := (ordered_rules socketFd).sublist h.sublist
  have hself : handler.id ∉ ids (kept ++ rest) := by
    rw [ids, List.map_append, List.mem_append, List.mem_map, List.mem_map]
    rintro (⟨other, hother, heq⟩ | ⟨other, hother, heq⟩)
    · exact absurd heq (Nat.ne_of_lt (hordered.lt_of_mem_kept other hother))
    · exact absurd heq (Nat.ne_of_gt (hordered.lt_of_mem_rest other hother))
  have hstays {id : ℕ} (hid : id ∉ ids (kept ++ handler :: rest)) : id ∉ ids (kept ++ rest) := by
    refine fun hleft ↦ hid ?_
    simp only [ids, List.map_append, List.map_cons, List.mem_append, List.mem_cons] at hleft ⊢
    exact hleft.imp_right .inr
  have hgone (id : ℕ) (hid : id ∉ ids (kept ++ rest)) (hrule : id ∈ [1, 2, 3, 4]) :
      Gone id (handler.cancel copy) := by
    by_cases hnow : id = handler.id
    · rw [hnow]
      exact gone_self hmem
    · refine gone_cancel hmem (h.gone id (fun hbefore ↦ hid ?_) hrule)
      simpa [ids, hnow] using hbefore
  have hsublist := (List.Sublist.append_left (List.sublist_cons_self handler rest) kept).trans h.sublist
  have houtbound (hended : copy.outbound.stream.ended = true) :=
    (h.outboundEnded hended).imp_right hstays
  have hinbound (hended : copy.inbound.stream.ended = true) := (h.inboundEnded hended).imp_right hstays
  rcases mem_rules hmem with rfl | rfl | rfl | rfl
  · exact ⟨hsublist, h.outbound.endInput, h.inbound, fun _ ↦ .inr hself, hinbound, hgone,
      h.outputClosed⟩
  · exact ⟨hsublist, h.outbound.setError, h.inbound, houtbound, hinbound, hgone, h.outputClosed⟩
  · exact ⟨hsublist, h.outbound, h.inbound.endInput, houtbound, fun _ ↦ .inr hself, hgone,
      h.outputClosed⟩
  · exact ⟨hsublist, h.outbound, h.inbound.setError, houtbound, hinbound, hgone, h.outputClosed⟩

/-- A rule that writes is interested only before its sink has been shut down. -/
theorem Lane.Sound.open_of_wantsOutput (h : lane.Sound) (hwants : lane.wantsOutput = true) :
    lane.shutdown = false := by
  by_contra hshutdown
  have hdown : lane.shutdown = true := Bool.not_eq_false _ ▸ hshutdown
  obtain ⟨-, hempty, -⟩ := h.finished hdown
  have hbuffer := h.conserves.valid.bufferEmpty_iff.mpr hempty
  simp [Lane.wantsOutput, hbuffer, hdown] at hwants

theorem Copy.Sound.wants (h : Copy.Sound socketFd handlers copy) (hmem : handler ∈ handlers)
    (hsurvives : handler.Survives copy) (hinterest : handler.interest copy = true) :
    Wants handler.id copy := by
  rcases mem_rules (h.sublist.subset hmem) with rfl | rfl | rfl | rfl
  · exact Bool.eq_false_iff.mpr fun heof ↦ hsurvives.1 ⟨rfl, heof⟩
  · exact h.outbound.open_of_wantsOutput hinterest
  · exact Bool.eq_false_iff.mpr fun heof ↦ hsurvives.1 ⟨rfl, heof⟩
  · exact h.inbound.open_of_wantsOutput hinterest

theorem idle_of_interest (hmem : handler ∈ rules socketFd) (hsurvives : handler.Survives copy)
    (hinterest : handler.interest copy = false) : Idle handler.id copy := by
  rcases mem_rules hmem with rfl | rfl | rfl | rfl
  · exact hinterest
  · exact hinterest
  · exact hinterest
  · exact ⟨hinterest, hsurvives.2⟩

theorem wants_cancel (hmem : handler ∈ rules socketFd) (h : Wants id copy) :
    Wants id (handler.cancel copy) := by
  unfold Wants at h ⊢
  rcases mem_rules hmem with rfl | rfl | rfl | rfl <;> split <;> trivial

@[simp] theorem wantsInput_setError (lane other : Lane) : lane.setError.wantsInput other = false := rfl

@[simp] theorem wantsInput_other_setError (lane other : Lane) :
    lane.wantsInput other.setError = false := Bool.and_false _

/-- A rule stays idle when a rule that comes later is cancelled. -/
theorem idle_cancel (hmem : handler ∈ rules socketFd) (hid : id < handler.id) (h : Idle id copy) :
    Idle id (handler.cancel copy) := by
  rcases mem_rules hmem with rfl | rfl | rfl | rfl
  · have hzero : id = 0 := Nat.lt_one_iff.mp hid
    rw [hzero]
    trivial
  · match id, hid with
    | 0, _ => trivial
    | 1, _ => exact wantsInput_setError _ _
  · match id, hid with
    | 0, _ => trivial
    | 1, _ => exact h
    | 2, _ => exact h
  · match id, hid with
    | 0, _ => trivial
    | 1, _ => exact wantsInput_other_setError _ _
    | 2, _ => exact h
    | 3, _ => exact wantsInput_setError _ _

/-! ## The callbacks -/

/-- What a callback that does not throw has done. -/
structure Called (socketFd : ℤ) (handlers : List (Handler Copy Answers)) (handler : Handler Copy Answers)
    (copy after : Copy) : Prop where
  sound : Copy.Sound socketFd handlers after
  wants : ∀ id > handler.id, Wants id copy → Wants id after
  used : handler.serviceCount copy ≠ handler.serviceCount after

/-- What a callback can do. -/
def Callback (socketFd : ℤ) (handlers : List (Handler Copy Answers)) (handler : Handler Copy Answers)
    (answers : Answers) (copy : Copy) : Prop :=
  (∃ exception, handler.callback answers copy = .error exception ∧ Fails exception) ∨
    ∃ after, handler.callback answers copy = .ok after ∧ Called socketFd handlers handler copy after

theorem fails_of_mem {attempt : String} (errno : ℤ) (h : attempt ∈ ["read", "writev", "shutdown", "close"]) :
    Fails (.unixError attempt errno) := ⟨attempt, h, errno, rfl⟩

/-- The flags of the streams are never taken back. -/
theorem Gone.mono (h : Gone id copy)
    (houtbound : copy.outbound.stream.ended = true → after.outbound.stream.ended = true)
    (houtboundError : after.outbound.stream.error = copy.outbound.stream.error)
    (hinbound : copy.inbound.stream.ended = true → after.inbound.stream.ended = true)
    (hinboundError : after.inbound.stream.error = copy.inbound.stream.error) : Gone id after := by
  unfold Gone at h ⊢
  split
  · exact houtbound h
  · exact houtboundError.trans h
  · exact hinbound h
  · exact hinboundError.trans h
  · trivial

/-- A stream whose rule is still called has not been shut down. -/
theorem Lane.Sound.open_of_called (h : lane.Sound)
    (hended : lane.stream.ended = true → fd.eof = true ∨ id ∉ ids handlers) (hrule : id ∈ ids handlers)
    (heof : fd.eof = false) : lane.shutdown = false := by
  by_contra hshutdown
  cases hended (h.finished (Bool.not_eq_false _ ▸ hshutdown)).1 with
  | inl hover => exact absurd (heof.symm.trans hover) Bool.false_ne_true
  | inr hgone => exact hgone hrule

theorem Lane.Reads.ended_iff {source : FDWrapper} {rest : Lane}
    (h : lane.Reads source fd rest) (hended : rest.stream.ended = true) :
    lane.stream.ended = true ∨ fd.eof = true := by
  rwa [h.ended, Bool.or_eq_true_iff] at hended

theorem Lane.Reads.ended_of_ended {source : FDWrapper} {rest : Lane}
    (h : lane.Reads source fd rest) (hended : lane.stream.ended = true) : rest.stream.ended = true := by
  rw [h.ended, hended, Bool.true_or]

/-- Rule 1.  The end of the input ends the outbound stream. -/
theorem Copy.Sound.input_callback (h : Copy.Sound socketFd handlers copy)
    (hrule : 1 ∈ ids handlers) (hwants : copy.input.eof = false) :
    Callback socketFd handlers inputRule answers copy := by
  have hopen := h.outbound.open_of_called h.outboundEnded hrule hwants
  unfold Callback inputRule
  dsimp only
  rcases h.outbound.read_cases copy.input answers.inputRead with ⟨errno, heq⟩ | ⟨input, lane, heq, hread⟩
  · rw [heq]
    exact .inl ⟨_, rfl, fails_of_mem errno (by decide)⟩
  · rw [heq]
    refine .inr ⟨_, rfl, ⟨h.sublist, hread.sound hopen, h.inbound, fun hended ↦ ?_, h.inboundEnded, ?_,
      h.outputClosed⟩, fun id hid hbefore ↦ ?_, ?_⟩
    · cases hread.ended_iff hended with
      | inl hbefore => exact .inr ((h.outboundEnded hbefore).resolve_left (by simp [hwants]))
      | inr hnow => exact .inl hnow
    · intro id hgone hid
      exact (h.gone id hgone hid).mono hread.ended_of_ended hread.error (fun hended ↦ hended) rfl
    · unfold Wants at hbefore ⊢
      split
      · exact absurd hid (by decide)
      · exact hread.shutdown.trans hbefore
      · exact hbefore
      · exact hbefore
      · trivial
    · change copy.input.readCount ≠ input.readCount
      rw [hread.readCount]
      simp

/-- Rule 3.  The end of the socket ends the inbound stream. -/
theorem Copy.Sound.socketIn_callback (h : Copy.Sound socketFd handlers copy)
    (hrule : 3 ∈ ids handlers) (hwants : copy.socket.eof = false) :
    Callback socketFd handlers (socketInRule socketFd) answers copy := by
  have hopen := h.inbound.open_of_called h.inboundEnded hrule hwants
  unfold Callback socketInRule
  dsimp only
  rcases h.inbound.read_cases copy.socket answers.socketRead with ⟨errno, heq⟩ | ⟨socket, lane, heq, hread⟩
  · rw [heq]
    exact .inl ⟨_, rfl, fails_of_mem errno (by decide)⟩
  · rw [heq]
    refine .inr ⟨_, rfl, ⟨h.sublist, h.outbound, hread.sound hopen, h.outboundEnded, fun hended ↦ ?_, ?_,
      h.outputClosed.trans hread.shutdown.symm⟩, fun id hid hbefore ↦ ?_, ?_⟩
    · cases hread.ended_iff hended with
      | inl hbefore => exact .inr ((h.inboundEnded hbefore).resolve_left (by simp [hwants]))
      | inr hnow => exact .inl hnow
    · intro id hgone hid
      exact (h.gone id hgone hid).mono (fun hended ↦ hended) rfl hread.ended_of_ended hread.error
    · unfold Wants at hbefore ⊢
      split
      · exact hbefore
      · exact hbefore
      · exact absurd hid (Nat.lt_irrefl _)
      · exact hread.shutdown.trans hbefore
      · trivial
    · change copy.socket.readCount ≠ socket.readCount
      rw [hread.readCount]
      simp

/-- Rule 2.  The last byte shuts the socket down for writing. -/
theorem Copy.Sound.socketOut_callback (h : Copy.Sound socketFd handlers copy)
    (hwants : copy.outbound.shutdown = false) :
    Callback socketFd handlers (socketOutRule socketFd) answers copy := by
  have hcases := Lane.Sound.write_cases (fun fd ↦ fd.shutdownWrite_eq answers.socketShutdown)
    (fun fd ↦ by simp [FDWrapper.registerWrite, add_assoc]) h.outbound copy.socket answers.socketWrite
  unfold Callback socketOutRule
  dsimp only
  rcases hcases with ⟨errno, heq⟩ | ⟨errno, heq⟩ | ⟨socket, lane, heq, hwrite, hsocket⟩
  · rw [heq]
    exact .inl ⟨_, rfl, fails_of_mem errno (by decide)⟩
  · rw [heq]
    exact .inl ⟨_, rfl, fails_of_mem errno (by decide)⟩
  · have heof : socket.eof = copy.socket.eof := by
      rcases hsocket with ⟨rfl, -⟩ | ⟨rfl, -⟩ <;> rfl
    rw [heq]
    refine .inr ⟨_, rfl, ⟨h.sublist, hwrite.sound hwants, h.inbound, fun hended ↦ ?_, fun hended ↦ ?_, ?_,
      h.outputClosed⟩, fun id hid hbefore ↦ ?_, hwrite.used.symm⟩
    · exact h.outboundEnded (hwrite.ended.symm.trans hended)
    · exact (h.inboundEnded hended).imp_left heof.trans
    · intro id hgone hid
      exact (h.gone id hgone hid).mono hwrite.ended.trans hwrite.error (fun hended ↦ hended) rfl
    · unfold Wants at hbefore ⊢
      split
      · exact hbefore
      · exact absurd hid (Nat.lt_irrefl _)
      · exact heof.trans hbefore
      · exact hbefore
      · trivial

/-- Rule 4.  The last byte closes the standard output. -/
theorem Copy.Sound.output_callback (h : Copy.Sound socketFd handlers copy)
    (hwants : copy.inbound.shutdown = false) :
    Callback socketFd handlers outputRule answers copy := by
  have hcases := Lane.Sound.write_cases (fun fd ↦ fd.close_eq answers.outputClose)
    (fun fd ↦ by simp [FDWrapper.registerWrite]) h.inbound copy.output answers.outputWrite
  unfold Callback outputRule
  dsimp only
  rcases hcases with ⟨errno, heq⟩ | ⟨errno, heq⟩ | ⟨output, lane, heq, hwrite, houtput⟩
  · rw [heq]
    exact .inl ⟨_, rfl, fails_of_mem errno (by decide)⟩
  · rw [heq]
    exact .inl ⟨_, rfl, fails_of_mem errno (by decide)⟩
  · rw [heq]
    refine .inr ⟨_, rfl, ⟨h.sublist, h.outbound, hwrite.sound hwants, h.outboundEnded, fun hended ↦ ?_, ?_,
      ?_⟩, fun id hid hbefore ↦ ?_, hwrite.used.symm⟩
    · exact h.inboundEnded (hwrite.ended.symm.trans hended)
    · intro id hgone hid
      exact (h.gone id hgone hid).mono (fun hended ↦ hended) rfl hwrite.ended.trans hwrite.error
    · rcases houtput with ⟨rfl, hshutdown⟩ | ⟨rfl, hshutdown⟩
      · exact h.outputClosed.trans hshutdown.symm
      · exact hshutdown.symm
    · unfold Wants at hbefore ⊢
      split
      · exact hbefore
      · exact hbefore
      · exact hbefore
      · exact absurd hid (Nat.lt_irrefl _)
      · trivial

theorem Copy.Sound.callback (h : Copy.Sound socketFd handlers copy) (hmem : handler ∈ handlers)
    (hwants : Wants handler.id copy) : Callback socketFd handlers handler answers copy := by
  have hrule : handler.id ∈ ids handlers := List.mem_map_of_mem hmem
  rcases mem_rules (h.sublist.subset hmem) with rfl | rfl | rfl | rfl
  · exact h.input_callback hrule hwants
  · exact h.socketOut_callback hwants
  · exact h.socketIn_callback hrule hwants
  · exact h.output_callback hwants

/-- The four rules obey the rule for invariants of an event loop. -/
theorem keeps (socketFd : ℤ) (answers : Answers) :
    Keeps (Copy.Sound socketFd) (fun _ ↦ True) Wants Idle Fails answers := by
  have hcallback {handlers : List (Handler Copy Answers)} {copy after : Copy}
      {handler : Handler Copy Answers} (h : Copy.Sound socketFd handlers copy)
      (hmem : handler ∈ handlers) (hwants : Wants handler.id copy)
      (hok : handler.callback answers copy = .ok after) :
      Called socketFd handlers handler copy after := by
    rcases h.callback hmem hwants with ⟨_, herror, -⟩ | ⟨_, heq, hcalled⟩
    · rw [herror] at hok
      contradiction
    · rw [heq] at hok
      exact Except.ok.inj hok ▸ hcalled
  refine ⟨fun _ _ _ _ h ↦ h.cancel, fun _ _ _ _ _ _ ↦ trivial, fun _ _ h _ _ ↦ h.wants,
    fun _ _ h _ hmem ↦ idle_of_interest (h.sublist.subset hmem),
    fun _ _ h _ hmem _ _ ↦ wants_cancel (h.sublist.subset hmem),
    fun _ _ h _ hmem _ ↦ idle_cancel (h.sublist.subset hmem),
    fun _ _ h _ hmem hwants exception herror ↦ ?_,
    fun _ _ h _ hmem hwants _ hok ↦ (hcallback h hmem hwants hok).sound,
    fun _ _ h _ hmem hwants _ hok ↦ (hcallback h hmem hwants hok).wants,
    fun _ _ h _ hmem hwants _ hok ↦ .inl (hcallback h hmem hwants hok).used⟩
  rcases h.callback hmem hwants with ⟨_, heq, hfails⟩ | ⟨_, heq, -⟩
  · exact Except.error.inj (heq.symm.trans herror) ▸ hfails
  · exact absurd (heq.symm.trans herror) nofun

/-! ## Whole runs -/

/-- What holds in the loop.  If the loop has ended with an exception, it is that of a system call. -/
structure Loop.Sound (socketFd : ℤ) (loop : Loop) : Prop where
  copy : loop.copy.Sound socketFd loop.handlers
  threw : ∀ exception, loop.ending = some (.threw exception) → exception = errorOnPoll ∨ Fails exception
  inBounds : ∀ idx, loop.ending ≠ some (.outOfBounds idx)

variable {loop : Loop} {turn : Turn Answers} {turns : List (Turn Answers)}

theorem Copy.Sound.settled (h : Copy.Sound socketFd handlers copy) (turn : Turn Answers) :
    (turn.waitNextEvent handlers copy).Settled (Copy.Sound socketFd) Idle Fails turn handlers :=
  (keeps socketFd turn.input).waitNextEvent h trivial ((ordered_rules socketFd).sublist h.sublist)

theorem Loop.Sound.step (h : loop.Sound socketFd) (turn : Turn Answers) :
    (loop.step turn).Sound socketFd := by
  unfold Loop.step
  split_ifs
  · exact h
  · have hsettled := h.copy.settled turn
    refine ⟨hsettled.inv, fun exception hending ↦ ?_, fun idx hending ↦ ?_⟩
    · dsimp only at hending
      split at hending
      · contradiction
      · contradiction
      · exact hsettled.threw exception (Option.some.inj hending)
    · dsimp only at hending
      split at hending
      · contradiction
      · contradiction
      · exact hsettled.inBounds idx (Option.some.inj hending)

/-- Everything that holds in the loop holds after any number of iterations. -/
theorem sound_run (socketFd : ℤ) (turns : List (Turn Answers)) :
    (run Loop.step (start socketFd) turns).Sound socketFd :=
  run_invariant (Loop.Sound socketFd) (fun _ turn h ↦ h.step turn) ⟨start_sound socketFd, nofun, nofun⟩

/-- Whatever the kernel answers: in both directions, the bytes that were read from the source are, in
their order, those that were written to the sink and then those that are still in the stream.  The socket
is shut down, and the output closed, at most once, as the last thing that is done to it, and only when the
source has ended and all its bytes have been written. -/
theorem copies_in_order (socketFd : ℤ) (turns : List (Turn Answers)) :
    let copy := (run Loop.step (start socketFd) turns).copy
    ∀ lane ∈ [copy.outbound, copy.inbound],
      lane.taken = written lane.calls ++ lane.stream.contents ∧
        (.finish ∈ lane.calls → lane.stream.ended = true ∧ written lane.calls = lane.taken ∧
          ∃ before, lane.calls = before ++ [.finish] ∧ .finish ∉ before) := by
  intro copy lane hlane
  have hcopy := (sound_run socketFd turns).copy
  have hsound : lane.Sound := by
    rcases List.mem_pair.mp hlane with rfl | rfl
    · exact hcopy.outbound
    · exact hcopy.inbound
  refine ⟨hsound.conserves.taken_eq, fun hfinish ↦ ?_⟩
  have hshutdown : lane.shutdown = true := by
    by_contra hopen
    exact hsound.unfinished (Bool.eq_false_iff.mpr hopen) hfinish
  obtain ⟨hended, hempty, hlast⟩ := hsound.finished hshutdown
  exact ⟨hended, hsound.conserves.all_given hempty, hlast⟩

/-- The copy never ends with an exception of its own: not because of a callback that leaves its
descriptor alone, and not because of a read or a write that is too long.  What it throws is the failure of
a system call. -/
theorem throws_system_errors_only (socketFd : ℤ) (turns : List (Turn Answers)) :
    let ending := (run Loop.step (start socketFd) turns).ending
    (∀ exception, ending = some (.threw exception) → exception = errorOnPoll ∨ Fails exception) ∧
      ∀ idx, ending ≠ some (.outOfBounds idx) := by
  intro ending
  have hsound := sound_run socketFd turns
  exact ⟨hsound.threw, hsound.inBounds⟩

/-- An idle rule that writes has nothing left to write. -/
theorem Lane.Sound.empty_of_idle (h : lane.Sound) (hidle : lane.wantsOutput = false) :
    lane.stream.contents = [] ∧ (lane.stream.ended = true → lane.shutdown = true) := by
  rw [Lane.wantsOutput, Bool.or_eq_false_iff, Bool.not_eq_false', Bool.and_eq_false_iff,
    Bool.not_eq_false'] at hidle
  have hempty := h.conserves.valid.bufferEmpty_iff.mp hidle.1
  refine ⟨hempty, fun hended ↦ hidle.2.resolve_left ?_⟩
  rw [Bool.not_eq_false, h.conserves.valid.eof_iff]
  exact ⟨hended, hempty⟩

/-- An idle rule that reads into an empty stream stops for an error. -/
theorem Lane.Sound.error_of_idle {other : Lane} (h : lane.Sound) (hempty : lane.stream.contents = [])
    (hidle : lane.wantsInput other = false) :
    lane.stream.error = true ∨ other.stream.error = true := by
  have hroom : lane.stream.remainingCapacity > 0 := by
    rw [h.conserves.valid.remainingCapacity_eq, hempty, h.capacity]
    decide
  rw [Lane.wantsInput, decide_eq_true hroom, Bool.and_true, Bool.and_eq_false_iff, Bool.not_eq_false',
    Bool.not_eq_false'] at hidle
  exact hidle

/-- What is known about the rules when the loop has returned and was not interrupted. -/
theorem Loop.Sound.idle_of_exit (h : loop.Sound socketFd) (hrunning : loop.ending = none)
    (hexit : (loop.step turn).ending = some (.returned .exit)) (hsignal : ¬ turn.Interrupted) :
    ∀ id ∈ [1, 2, 3, 4], Gone id (loop.step turn).copy ∨ Idle id (loop.step turn).copy := by
  have hsettled := h.copy.settled turn
  have hstep : loop.step turn =
      { handlers := (turn.waitNextEvent loop.handlers loop.copy).handlers
        copy := (turn.waitNextEvent loop.handlers loop.copy).state
        ending :=
          match (turn.waitNextEvent loop.handlers loop.copy).ending with
          | .returned .success => none
          | .returned .timeout => none
          | ending => some ending } := by
    rw [Loop.step, hrunning]
    rfl
  have hreturned : (turn.waitNextEvent loop.handlers loop.copy).ending = .returned .exit := by
    rw [hstep] at hexit
    dsimp only at hexit
    split at hexit
    · contradiction
    · contradiction
    · exact Option.some.inj hexit
  rw [hstep]
  intro id hid
  by_cases hleft : id ∈ ids (turn.waitNextEvent loop.handlers loop.copy).handlers
  · obtain ⟨handler, hmem, rfl⟩ := List.mem_map.mp hleft
    exact .inr ((hsettled.exit hreturned).resolve_left hsignal handler hmem)
  · exact .inl (hsettled.inv.gone id hleft hid)

/-- When the copy returns, and not because of a signal, nothing is left behind: all bytes read from the
input have been written to the socket, unless the socket has hung up, and all bytes read from the socket
have been written to the output, unless the output has hung up.  By then the socket has been shut down,
or no more input is wanted because the other direction is over: the rule that has closed the output is
cancelled with an error. -/
theorem returns_when_copied (socketFd : ℤ) (turns : List (Turn Answers)) (turn : Turn Answers)
    (hrunning : (run Loop.step (start socketFd) turns).ending = none)
    (hexit : (run Loop.step (start socketFd) (turns ++ [turn])).ending = some (.returned .exit))
    (hsignal : ¬ turn.Interrupted) :
    let copy := (run Loop.step (start socketFd) (turns ++ [turn])).copy
    (copy.outbound.stream.error = false → written copy.outbound.calls = copy.outbound.taken ∧
        (copy.outbound.shutdown = true ∨ copy.inbound.stream.error = true)) ∧
      (copy.inbound.stream.error = false ∨ copy.inbound.shutdown = true →
        written copy.inbound.calls = copy.inbound.taken) ∧
      (copy.outbound.stream.error = true ∨ copy.inbound.stream.error = true) := by
  intro copy
  have hfinal := (sound_run socketFd (turns ++ [turn])).copy
  have hover : ∀ id ∈ [1, 2, 3, 4], Gone id copy ∨ Idle id copy := by
    have hlast := @Loop.Sound.idle_of_exit _ _ turn (sound_run socketFd turns) hrunning
    rw [run_append] at hexit
    change ∀ id ∈ [1, 2, 3, 4], Gone id (run Loop.step _ _).copy ∨ Idle id (run Loop.step _ _).copy
    rw [run_append]
    exact hlast hexit hsignal
  have hinput := hover 1 (by decide)
  have hsocketOut := hover 2 (by decide)
  have hsocketIn := hover 3 (by decide)
  have houtput := hover 4 (by decide)
  have houtbound (herror : copy.outbound.stream.error = false) :=
    hfinal.outbound.empty_of_idle (hsocketOut.resolve_left (Bool.eq_false_iff.mp herror))
  have hinbound (herror : copy.inbound.stream.error = false) :=
    hfinal.inbound.empty_of_idle (houtput.resolve_left (Bool.eq_false_iff.mp herror)).1
  refine ⟨fun herror ↦ ?_, fun hgood ↦ ?_, ?_⟩
  · obtain ⟨hempty, hshutdown⟩ := houtbound herror
    refine ⟨hfinal.outbound.conserves.all_given hempty, ?_⟩
    cases hinput with
    | inl hended => exact .inl (hshutdown hended)
    | inr hidle =>
      exact .inr ((hfinal.outbound.error_of_idle hempty hidle).resolve_left (Bool.eq_false_iff.mp herror))
  · cases hgood with
    | inl herror => exact hfinal.inbound.conserves.all_given (hinbound herror).1
    | inr hshutdown =>
      exact hfinal.inbound.conserves.all_given (hfinal.inbound.finished hshutdown).2.1
  · -- Otherwise the rule that reads from the socket would be interested or gone, and in the second case
    -- the output would have been closed and its rule removed.
    by_contra hneither
    rw [not_or, Bool.not_eq_true, Bool.not_eq_true] at hneither
    obtain ⟨hempty, hshutdown⟩ := hinbound hneither.2
    cases hsocketIn with
    | inl hended =>
      have hopen := (houtput.resolve_left (Bool.eq_false_iff.mp hneither.2)).2
      rw [hfinal.outputClosed, hshutdown hended] at hopen
      contradiction
    | inr hidle =>
      have herror := hfinal.inbound.error_of_idle hempty hidle
      rw [hneither.1, hneither.2] at herror
      exact herror.elim nofun nofun

def ready (inputRead socketRead : Kernel.Read) : Turn Answers where
  poll := { returnValue := 4 }
  revents idx := if idx = 0 ∨ idx = 2 then Poll.pollIn else Poll.pollOut
  input :=
    { inputRead, socketRead
      socketWrite := .takes 100
      socketShutdown := none
      outputWrite := .takes 100
      outputClose := none }

/-- A byte from the input, two from the socket, and then the end of both. -/
theorem returns_when_copied_bytes :
    let turns := [ready (.gives [104]) (.gives [121, 111]), ready (.gives []) (.gives [])]
    let loop := run Loop.step (start 3) (turns ++ [ready (.gives []) (.gives [])])
    loop.ending = some (.returned .exit) ∧ loop.copy.outbound.taken = [104] ∧
      loop.copy.inbound.calls = [.write [121, 111], .finish] ∧
      (loop.copy.outbound.stream.error = true ∨ loop.copy.inbound.stream.error = true) := by
  intro turns loop
  have hexit : loop.ending = some (.returned .exit) := by decide +kernel
  have hrunning : (run Loop.step (start 3) turns).ending = none := by decide +kernel
  have hsignal : ¬ (ready (.gives []) (.gives [])).Interrupted := by
    unfold Turn.Interrupted
    decide +kernel
  exact ⟨hexit, by decide +kernel, by decide +kernel,
    (returns_when_copied 3 turns _ hrunning hexit hsignal).2.2⟩

end Sponge.BidirectionalStreamCopy
