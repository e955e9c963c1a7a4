import Mathlib.Algebra.Order.Ring.Int
import Sponge.Util.Buffer

/-!
# System calls and gathered writes

`systemCall` is the wrapper that turns the failure of a system call into an exception.  It takes the value
that the call has returned as an `int`.

`FileDescriptor.write` hands all pieces of a message to `writev`, discards what was written, and starts
again with the rest.  The answers of `writev` are an input of the model.  Each call of it is recorded with
the pieces that it was given; the bytes that it has consumed follow from the record.
-/

namespace Sponge

/-- What a function that makes system calls can throw: a standard exception, or a `unix_error` with the
name of the system call and `errno`. -/
inductive SystemException where
  | std (exception : StdException)
  | unixError (attempt : String) (errno : ℤ)
  deriving DecidableEq, Repr

/-- What a system call returns, and the value of `errno` after it. -/
structure Answer where
  returnValue : ℤ
  errno : ℤ := 0
  deriving DecidableEq, Repr

/-- The conversion to `int`, which has 32 bits. -/
def toInt (value : ℤ) : ℤ := value.bmod (2 ^ 32)

def toSize (value : ℤ) : ℕ := (value % 2 ^ 64).toNat

def intMax : ℤ := 2 ^ 31 - 1

/-- Error-checking wrapper for most system calls.  Its parameter for the value that was returned is an
`int`. -/
def systemCall (attempt : String) (answer : Answer) (errnoMask : ℤ := 0) : Except SystemException ℤ :=
  let returnValue := toInt answer.returnValue
  if returnValue ≥ 0 ∨ answer.errno = errnoMask then .ok returnValue
  else .error (.unixError attempt answer.errno)

theorem toInt_of_le {value : ℤ} (h : 0 ≤ value) (hle : value ≤ intMax) : toInt value = value := by
  unfold intMax at hle
  unfold toInt Int.bmod
  dsimp only
  split_ifs
  · omega
  · omega

/-- A value that is too large gets smaller. -/
theorem toInt_lt {value : ℤ} (h : intMax < value) : toInt value < value := by
  unfold intMax at h
  unfold toInt Int.bmod
  dsimp only
  split_ifs
  · omega
  · omega

/-- An unsigned value of 32 bits that is too large gets negative. -/
theorem toInt_neg {value : ℤ} (h : intMax < value) (hlt : value < 2 ^ 32) : toInt value < 0 := by
  unfold intMax at h
  unfold toInt Int.bmod
  dsimp only
  split_ifs
  · omega
  · omega

theorem toInt_le {value : ℤ} (h : 0 ≤ value) : toInt value ≤ value := by
  by_cases hle : value ≤ intMax
  · exact (toInt_of_le h hle).le
  · exact (toInt_lt (not_le.mp hle)).le

theorem neg_le_toInt (value : ℤ) : -2 ^ 31 ≤ toInt value := by
  unfold toInt Int.bmod
  dsimp only
  split_ifs
  · omega
  · omega

theorem toSize_of_nonneg {value : ℤ} (h : 0 ≤ value) (hlt : value < 2 ^ 64) :
    (toSize value : ℤ) = value := by
  unfold toSize
  omega

/-- An answer that is not negative as an `int` is returned. -/
theorem systemCall_of_nonneg {attempt : String} {answer : Answer} (h : 0 ≤ toInt answer.returnValue) :
    systemCall attempt answer = .ok (toInt answer.returnValue) := by
  unfold systemCall
  exact if_pos (.inl h)

namespace FileDescriptor

/-- A call of `writev`: the pieces that it was given, and its answer. -/
structure WritevCall where
  iovecs : List (List UInt8)
  answer : Answer
  deriving DecidableEq, Repr

namespace WritevCall

/-- The call writes at least one byte and at most all, or none if there is none. -/
def Honest (call : WritevCall) : Prop :=
  (call.iovecs.flatten = [] → call.answer.returnValue = 0) ∧
    (call.iovecs.flatten ≠ [] → 1 ≤ call.answer.returnValue) ∧
    call.answer.returnValue ≤ call.iovecs.flatten.length

/-- Linux transfers at most `0x7ffff000` bytes in one call. -/
def Capped (call : WritevCall) : Prop := call.answer.returnValue ≤ 0x7ffff000

/-- The bytes that the call has consumed, from the front of the pieces. -/
def consumed (call : WritevCall) : List UInt8 :=
  call.iovecs.flatten.take call.answer.returnValue.toNat

/-- An honest call reports a number of bytes that were there. -/
theorem Honest.exists_count {call : WritevCall} (h : call.Honest) :
    ∃ count : ℕ, call.answer.returnValue = count ∧ count ≤ call.iovecs.flatten.length ∧
      (call.iovecs.flatten ≠ [] → 0 < count) := by
  obtain ⟨hnone, hsome, hle⟩ := h
  refine ⟨call.answer.returnValue.toNat, ?_, ?_, fun hnonempty ↦ ?_⟩
  · by_cases hempty : call.iovecs.flatten = []
    · rw [hnone hempty]
      rfl
    · have := hsome hempty
      omega
  · omega
  · have := hsome hnonempty
    omega

end WritevCall

structure Writing where
  buffer : BufferViewList
  totalBytesWritten : ℕ := 0
  deriving DecidableEq, Repr

/-- One iteration of the loop in `write`, after the call of `writev`. -/
def writeOnce (answer : Answer) (writing : Writing) : Except SystemException Writing := do
  let bytesWritten ← systemCall "writev" answer
  if bytesWritten = 0 ∧ writing.buffer.size ≠ 0 then
    throw (.std (.runtimeError "write returned 0 given non-empty input buffer"))
  else if bytesWritten > writing.buffer.size then
    throw (.std (.runtimeError "write wrote more than length of input buffer"))
  else
    let buffer ← (writing.buffer.removePrefix (toSize bytesWritten)).mapError .std
    return { buffer, totalBytesWritten := writing.totalBytesWritten + toSize bytesWritten }

/-- The end of a call of `write`.  There is no result if the loop has not ended. -/
structure Outcome where
  result : Option (Except SystemException ℕ)
  calls : List WritevCall
  deriving Repr

def writeLoop (writeAll : Bool) : ℕ → (ℕ → Answer) → Writing → Outcome
  | 0, _, _ => ⟨none, []⟩
  | fuel + 1, answers, writing =>
      let call : WritevCall := ⟨writing.buffer.asIovecs, answers 0⟩
      match writeOnce (answers 0) writing with
      | .error exception => ⟨some (.error exception), [call]⟩
      | .ok writing =>
          if writeAll && writing.buffer.size ≠ 0 then
            let later := writeLoop writeAll fuel (fun index ↦ answers (index + 1)) writing
            ⟨later.result, call :: later.calls⟩
          else ⟨some (.ok writing.totalBytesWritten), [call]⟩

/-- Write a list of buffers, possibly until all is written.  `writeLoop_of_small` shows that the size is
enough fuel. -/
def write (buffer : BufferViewList) (writeAll : Bool) (answers : ℕ → Answer) : Outcome :=
  writeLoop writeAll (buffer.size + 1) answers { buffer }

/-- The bytes that the calls of `writev` have consumed, in their order. -/
def Outcome.consumed (outcome : Outcome) : List UInt8 := outcome.calls.flatMap WritevCall.consumed

/-- All answers are numbers that an `int` can hold. -/
def Outcome.Small (outcome : Outcome) : Prop :=
  ∀ call ∈ outcome.calls, call.answer.returnValue ≤ intMax

/-- The function returns, what was consumed are the first bytes of the message, as many as it returns, and
these are all bytes if all were to be written. -/
def Outcome.Delivers (outcome : Outcome) (writeAll : Bool) (message : List UInt8) : Prop :=
  ∃ count, outcome.result = some (.ok count) ∧ count ≤ message.length ∧
    outcome.consumed = message.take count ∧ (writeAll = true → count = message.length)

/-! ## One iteration -/

variable {answer : Answer} {writing after : Writing} {answers : ℕ → Answer} {writeAll : Bool} {fuel : ℕ}

/-- What an iteration does with a number that the wrapper has returned. -/
theorem writeOnce_of_systemCall {bytesWritten : ℤ} (h : systemCall "writev" answer = .ok bytesWritten) :
    writeOnce answer writing =
      if bytesWritten = 0 ∧ writing.buffer.size ≠ 0 then
        .error (.std (.runtimeError "write returned 0 given non-empty input buffer"))
      else if bytesWritten > writing.buffer.size then
        .error (.std (.runtimeError "write wrote more than length of input buffer"))
      else do
        let buffer ← (writing.buffer.removePrefix (toSize bytesWritten)).mapError .std
        return ⟨buffer, writing.totalBytesWritten + toSize bytesWritten⟩ := by
  unfold writeOnce
  rw [h]
  rfl

/-- What an iteration has done if it did not throw. -/
theorem writeOnce_eq_ok_iff :
    writeOnce answer writing = .ok after ↔ ∃ bytesWritten, systemCall "writev" answer = .ok bytesWritten ∧
      (bytesWritten = 0 → writing.buffer.size = 0) ∧ bytesWritten ≤ writing.buffer.size ∧
      writing.buffer.removePrefix (toSize bytesWritten) = .ok after.buffer ∧
      after.totalBytesWritten = writing.totalBytesWritten + toSize bytesWritten := by
  cases hcall : systemCall "writev" answer with
  | error exception =>
    rw [writeOnce, hcall]
    exact iff_of_false nofun nofun
  | ok bytesWritten =>
    rw [writeOnce_of_systemCall hcall]
    simp only [Except.ok.injEq, exists_eq_left']
    split_ifs with hzero hmore
    · exact iff_of_false nofun fun h ↦ hzero.2 (h.1 hzero.1)
    · exact iff_of_false nofun fun h ↦ absurd h.2.1 (not_le.mpr hmore)
    · have hnone : bytesWritten = 0 → writing.buffer.size = 0 :=
        fun hreturn ↦ not_not.mp fun hleft ↦ hzero ⟨hreturn, hleft⟩
      cases hremove : writing.buffer.removePrefix (toSize bytesWritten) with
      | error exception => exact iff_of_false nofun fun h ↦ nomatch h.2.2.1
      | ok buffer =>
        constructor
        · intro h
          cases h
          exact ⟨hnone, not_lt.mp hmore, rfl, rfl⟩
        · rintro ⟨-, -, hbuffer, htotal⟩
          cases hbuffer
          exact congrArg Except.ok (congrArg (Writing.mk after.buffer) htotal.symm)

/-- An honest answer that an `int` can hold advances the buffer by what was consumed. -/
theorem writeOnce_of_small {count : ℕ} (hreturn : answer.returnValue = count)
    (hle : count ≤ writing.buffer.bytes.length) (hpos : writing.buffer.bytes ≠ [] → 0 < count)
    (hsmall : answer.returnValue ≤ intMax) :
    ∃ after, writeOnce answer writing = .ok after ∧
      after.buffer.bytes = writing.buffer.bytes.drop count ∧
      after.totalBytesWritten = writing.totalBytesWritten + count := by
  have hvalue : toInt answer.returnValue = count := by
    rw [toInt_of_le _ hsmall, hreturn]
    rw [hreturn]
    exact Int.natCast_nonneg count
  have hsize : toSize count = count := by
    unfold intMax at hsmall
    have := toSize_of_nonneg (Int.natCast_nonneg count) (by omega)
    omega
  rw [← BufferViewList.size_eq] at hle
  obtain ⟨rest, hremove, hrest⟩ := BufferViewList.removePrefix_of_le hle
  refine ⟨⟨rest, writing.totalBytesWritten + count⟩, ?_, hrest, rfl⟩
  rw [writeOnce_eq_ok_iff]
  refine ⟨count, ?_, fun hzero ↦ ?_, by omega, by rw [hsize, hremove], by rw [hsize]⟩
  · rw [systemCall_of_nonneg, hvalue]
    rw [hvalue]
    exact Int.natCast_nonneg count
  · rw [BufferViewList.size_eq, List.length_eq_zero_iff]
    by_contra hnonempty
    have := hpos hnonempty
    omega

/-- An iteration that does not throw takes no more from the buffer than was consumed, and less if the
answer is too large for an `int`. -/
theorem advance_of_writeOnce {count : ℕ} (hreturn : answer.returnValue = count)
    (hsize : writing.buffer.size < 2 ^ 63) (h : writeOnce answer writing = .ok after) :
    ∃ advance, after.totalBytesWritten = writing.totalBytesWritten + advance ∧ advance ≤ count ∧
      after.buffer.size ≤ writing.buffer.size ∧ (advance = count → answer.returnValue ≤ intMax) := by
  obtain ⟨bytesWritten, hsystem, -, hle, hremove, htotal⟩ := writeOnce_eq_ok_iff.mp h
  have hvalue : bytesWritten = toInt answer.returnValue := by
    unfold systemCall at hsystem
    dsimp only at hsystem
    split_ifs at hsystem
    exact (Except.ok.inj hsystem).symm
  have hlower := neg_le_toInt answer.returnValue
  -- A negative number becomes a number of bytes that no buffer has, and `remove_prefix` throws.
  have hfits : toSize bytesWritten ≤ writing.buffer.size := by
    by_contra hbeyond
    rw [BufferViewList.removePrefix_of_lt (not_le.mp hbeyond)] at hremove
    contradiction
  have hnonneg : 0 ≤ bytesWritten := by
    unfold toSize at hfits
    omega
  have hexact := toSize_of_nonneg hnonneg (by omega)
  have hupper := toInt_le (hreturn ▸ Int.natCast_nonneg count : 0 ≤ answer.returnValue)
  refine ⟨toSize bytesWritten, htotal, by omega, ?_, fun hequal ↦ ?_⟩
  · obtain ⟨rest, hrest, hbytes⟩ := BufferViewList.removePrefix_of_le hfits
    obtain rfl : rest = after.buffer := Except.ok.inj (hrest.symm.trans hremove)
    rw [BufferViewList.size_eq, BufferViewList.size_eq, hbytes, List.length_drop]
    exact Nat.sub_le _ _
  · by_contra hlarge
    have := toInt_lt (not_le.mp hlarge)
    omega

/-! ## The loop -/

theorem consumed_eq {buffer : BufferViewList} {count : ℕ} (h : answer.returnValue = count) :
    WritevCall.consumed ⟨buffer.asIovecs, answer⟩ = buffer.bytes.take count := by
  rw [WritevCall.consumed, h, Int.toNat_natCast]
  rfl

theorem consumed_cons (result : Option (Except SystemException ℕ)) (call : WritevCall)
    (later : Outcome) :
    Outcome.consumed ⟨result, call :: later.calls⟩ = call.consumed ++ later.consumed :=
  List.flatMap_cons

theorem consumed_singleton (result : Option (Except SystemException ℕ)) (call : WritevCall) :
    Outcome.consumed ⟨result, [call]⟩ = call.consumed :=
  List.flatMap_singleton _ _

theorem mem_calls_writeLoop :
    ⟨writing.buffer.asIovecs, answers 0⟩ ∈ (writeLoop writeAll (fuel + 1) answers writing).calls := by
  unfold writeLoop
  dsimp only
  split
  · exact List.mem_singleton_self _
  · split_ifs
    · exact List.mem_cons_self
    · exact List.mem_singleton_self _

theorem writeLoop_of_continues (h : writeOnce (answers 0) writing = .ok after)
    (hmore : (writeAll && after.buffer.size ≠ 0) = true) :
    writeLoop writeAll (fuel + 1) answers writing =
      let later := writeLoop writeAll fuel (fun index ↦ answers (index + 1)) after
      ⟨later.result, ⟨writing.buffer.asIovecs, answers 0⟩ :: later.calls⟩ := by
  rw [writeLoop, h]
  exact if_pos hmore

theorem writeLoop_of_stops (h : writeOnce (answers 0) writing = .ok after)
    (hdone : ¬ (writeAll && after.buffer.size ≠ 0) = true) :
    writeLoop writeAll (fuel + 1) answers writing =
      ⟨some (.ok after.totalBytesWritten), [⟨writing.buffer.asIovecs, answers 0⟩]⟩ := by
  rw [writeLoop, h]
  exact if_neg hdone

/-- With small answers the loop ends before its fuel does, since each iteration but the last writes
something. -/
theorem writeLoop_of_small (hfuel : writing.buffer.size < fuel)
    (hhonest : ∀ call ∈ (writeLoop writeAll fuel answers writing).calls, call.Honest)
    (hsmall : (writeLoop writeAll fuel answers writing).Small) :
    ∃ count, (writeLoop writeAll fuel answers writing).result =
        some (.ok (writing.totalBytesWritten + count)) ∧
      count ≤ writing.buffer.bytes.length ∧
      (writeLoop writeAll fuel answers writing).consumed = writing.buffer.bytes.take count ∧
      (writeAll = true → count = writing.buffer.bytes.length) := by
  induction fuel generalizing answers writing with
  | zero => exact absurd hfuel (Nat.not_lt_zero _)
  | succ fuel ih =>
    obtain ⟨count, hreturn, hle, hpos⟩ := (hhonest _ mem_calls_writeLoop).exists_count
    change count ≤ writing.buffer.bytes.length at hle
    obtain ⟨after, honce, hafter, htotal⟩ := writeOnce_of_small hreturn hle hpos
      (hsmall _ mem_calls_writeLoop)
    have hlength : after.buffer.size = writing.buffer.bytes.length - count := by
      rw [BufferViewList.size_eq, hafter, List.length_drop]
    by_cases hmore : (writeAll && after.buffer.size ≠ 0) = true
    · have hloop := @writeLoop_of_continues writing after answers writeAll fuel honce hmore
      have hnonempty : writing.buffer.bytes ≠ [] := by
        rintro hnil
        simp [hlength, hnil] at hmore
      have hless : after.buffer.size < fuel := by
        have := hpos hnonempty
        rw [BufferViewList.size_eq] at hfuel
        omega
      rw [hloop] at hhonest hsmall ⊢
      obtain ⟨more, hresult, hmoreLe, hlater, hall⟩ := ih hless
        (fun call hcall ↦ hhonest call (List.mem_cons_of_mem _ hcall))
        (fun call hcall ↦ hsmall call (List.mem_cons_of_mem _ hcall))
      rw [hafter, List.length_drop] at hmoreLe hall
      refine ⟨count + more, ?_, by omega, ?_, fun hwriteAll ↦ ?_⟩
      · rw [hresult, htotal, Nat.add_assoc]
      · rw [consumed_cons, consumed_eq hreturn, hlater, hafter, List.take_add]
      · have := hall hwriteAll
        omega
    · rw [writeLoop_of_stops honce hmore]
      refine ⟨count, by rw [htotal], hle, ?_, fun hwriteAll ↦ ?_⟩
      · rw [consumed_singleton, consumed_eq hreturn]
      · have hzero : after.buffer.size = 0 := by simpa [hwriteAll] using hmore
        omega

/-- A result counts no more bytes than were consumed, and it counts all of them only if all answers are
small. -/
theorem small_of_writeLoop (hsize : writing.buffer.size < 2 ^ 63)
    (hhonest : ∀ call ∈ (writeLoop writeAll fuel answers writing).calls, call.Honest) {total : ℕ}
    (h : (writeLoop writeAll fuel answers writing).result = some (.ok total)) :
    total ≤ writing.totalBytesWritten + (writeLoop writeAll fuel answers writing).consumed.length ∧
      (total = writing.totalBytesWritten + (writeLoop writeAll fuel answers writing).consumed.length →
        (writeLoop writeAll fuel answers writing).Small) := by
  induction fuel generalizing answers writing with
  | zero => nomatch h
  | succ fuel ih =>
    obtain ⟨count, hreturn, hle, -⟩ := (hhonest _ mem_calls_writeLoop).exists_count
    have hconsumed : (WritevCall.consumed ⟨writing.buffer.asIovecs, answers 0⟩).length = count := by
      rw [consumed_eq hreturn]
      exact List.length_take_of_le hle
    cases honce : writeOnce (answers 0) writing with
    | error exception =>
      rw [writeLoop, honce] at h
      nomatch h
    | ok after =>
      obtain ⟨advance, htotal, hadvance, hafter, hequal⟩ := advance_of_writeOnce hreturn hsize honce
      by_cases hmore : (writeAll && after.buffer.size ≠ 0) = true
      · have hloop := @writeLoop_of_continues writing after answers writeAll fuel honce hmore
        rw [hloop] at h hhonest ⊢
        obtain ⟨hbound, hlater⟩ := ih (hafter.trans_lt hsize)
          (fun call hcall ↦ hhonest call (List.mem_cons_of_mem _ hcall)) h
        rw [consumed_cons, List.length_append, hconsumed]
        refine ⟨by omega, fun hexact call hcall ↦ ?_⟩
        cases List.mem_cons.mp hcall with
        | inl hfirst =>
          rw [hfirst]
          exact hequal (by omega)
        | inr hrest => exact hlater (by omega) call hrest
      · rw [writeLoop_of_stops honce hmore] at h ⊢
        obtain rfl : after.totalBytesWritten = total := Except.ok.inj (Option.some.inj h)
        rw [consumed_singleton, hconsumed, htotal]
        refine ⟨by omega, fun hexact call hcall ↦ ?_⟩
        rw [List.mem_singleton.mp hcall]
        exact hequal (by omega)

/-! ## Gathered writes -/

/-- For every list of buffers and all honest answers of `writev`, `write` returns the number of bytes
consumed, in order and from the front, and all of them with `writeAll`, exactly if no answer is too large
for the `int` of `systemCall`.  (A size that is not below `2 ^ 63` does not fit into a `ssize_t`; only for
such sizes can the function return the right number in spite of a large answer.)  Both lists discard
exactly the first `n` bytes, and throw if they have less. -/
theorem write_delivers_iff_small (buffers : BufferList) (writeAll : Bool) (answers : ℕ → Answer)
    (hhonest : ∀ call ∈ (write (.ofBufferList buffers) writeAll answers).calls, call.Honest) :
    let views := BufferViewList.ofBufferList buffers
    let outcome := write views writeAll answers
    (outcome.Small → outcome.Delivers writeAll buffers.concatenate) ∧
      (buffers.size < 2 ^ 63 → outcome.Delivers writeAll buffers.concatenate → outcome.Small) ∧
      (∀ n, (n ≤ views.size →
          ∃ rest, views.removePrefix n = .ok rest ∧ rest.bytes = views.bytes.drop n) ∧
        (views.size < n →
          views.removePrefix n = .error (.outOfRange "BufferListView::remove_prefix"))) ∧
      ∀ n, (n ≤ buffers.size →
          ∃ rest, buffers.removePrefix n = .ok rest ∧ rest.concatenate = buffers.concatenate.drop n) ∧
        (buffers.size < n →
          buffers.removePrefix n = .error (.outOfRange "BufferList::remove_prefix")) := by
  intro views outcome
  have hbytes : views.bytes = buffers.concatenate := BufferViewList.bytes_ofBufferList buffers
  refine ⟨fun hsmall ↦ ?_, fun hsize hdelivers ↦ ?_,
    fun n ↦ ⟨BufferViewList.removePrefix_of_le, BufferViewList.removePrefix_of_lt⟩,
    fun n ↦ ⟨BufferList.removePrefix_of_le, BufferList.removePrefix_of_lt⟩⟩
  · obtain ⟨count, hresult, hle, hconsumed, hall⟩ :=
      writeLoop_of_small (Nat.lt_succ_self views.size) hhonest hsmall
    dsimp only at hresult hle hconsumed hall
    rw [Nat.zero_add] at hresult
    rw [hbytes] at hle hconsumed hall
    exact ⟨count, hresult, hle, hconsumed, hall⟩
  · obtain ⟨count, hresult, hle, hconsumed, -⟩ := hdelivers
    rw [BufferList.size_eq, ← hbytes, ← BufferViewList.size_eq] at hsize
    have hsmall := (small_of_writeLoop hsize hhonest hresult).2
    apply hsmall
    dsimp only
    rw [Nat.zero_add]
    change count = outcome.consumed.length
    rw [hconsumed, List.length_take_of_le hle]

/-- Gathered writes send every byte once and in order: for every list of buffers and all honest answers of
a `writev` that keeps to the limit of its system, `write` consumes the first bytes of the concatenation
and returns their number, and with `writeAll` these are all.  Both lists discard exactly the first `n`
bytes, and throw if they have less. -/
theorem write_delivers (buffers : BufferList) (writeAll : Bool) (answers : ℕ → Answer)
    (hhonest : ∀ call ∈ (write (.ofBufferList buffers) writeAll answers).calls, call.Honest)
    (hcapped : ∀ call ∈ (write (.ofBufferList buffers) writeAll answers).calls, call.Capped) :
    let views := BufferViewList.ofBufferList buffers
    (write views writeAll answers).Delivers writeAll buffers.concatenate ∧
      (∀ n, (n ≤ views.size →
          ∃ rest, views.removePrefix n = .ok rest ∧ rest.bytes = views.bytes.drop n) ∧
        (views.size < n →
          views.removePrefix n = .error (.outOfRange "BufferListView::remove_prefix"))) ∧
      ∀ n, (n ≤ buffers.size →
          ∃ rest, buffers.removePrefix n = .ok rest ∧ rest.concatenate = buffers.concatenate.drop n) ∧
        (buffers.size < n →
          buffers.removePrefix n = .error (.outOfRange "BufferList::remove_prefix")) := by
  intro views
  obtain ⟨hdelivers, -, hviews, hbuffers⟩ := write_delivers_iff_small buffers writeAll answers hhonest
  refine ⟨hdelivers fun call hcall ↦ ?_, hviews, hbuffers⟩
  exact (hcapped call hcall).trans (by decide)

/-- Three bytes in three buffers, one of them empty, are written by two calls. -/
theorem write_delivers_two_calls :
    let buffers : BufferList := ⟨[.ofString [1], .ofString [], .ofString [2, 3]]⟩
    let outcome := write (.ofBufferList buffers) true fun index ↦ ⟨if index = 0 then 2 else 1, 0⟩
    (∀ call ∈ outcome.calls, call.Honest ∧ call.Capped) ∧ outcome.Delivers true [1, 2, 3] := by
  intro buffers outcome
  have hcalls : outcome.calls = [⟨[[1], [], [2, 3]], ⟨2, 0⟩⟩, ⟨[[3]], ⟨1, 0⟩⟩] := by decide +kernel
  have hboth : ∀ call ∈ outcome.calls, call.Honest ∧ call.Capped := by
    rw [hcalls]
    simp [WritevCall.Honest, WritevCall.Capped]
  exact ⟨hboth, (write_delivers buffers true _ (fun call hcall ↦ (hboth call hcall).1)
    fun call hcall ↦ (hboth call hcall).2).1⟩

/-- As an `int`, the answer `2 ^ 31` is negative.  It is taken for a failure or, if `errno` happens to be
zero, for a huge number of bytes. -/
def largeAnswerException (errno : ℤ) : SystemException :=
  if errno = 0 then .std (.outOfRange "BufferListView::remove_prefix") else .unixError "writev" errno

/-- An answer of `2 ^ 31` is not recognized as what it is. -/
theorem write_of_large {buffer : BufferViewList} (h : buffer.size = 2 ^ 31) (errno : ℤ) :
    write buffer writeAll (fun _ ↦ ⟨2 ^ 31, errno⟩) =
      ⟨some (.error (largeAnswerException errno)), [⟨buffer.asIovecs, ⟨2 ^ 31, errno⟩⟩]⟩ := by
  have hvalue : toInt (2 ^ 31) = -2 ^ 31 := by decide
  have honce : writeOnce ⟨2 ^ 31, errno⟩ { buffer } = .error (largeAnswerException errno) := by
    unfold largeAnswerException
    split_ifs with hzero
    · have hsystem : systemCall "writev" ⟨2 ^ 31, errno⟩ = .ok (-2 ^ 31) := by
        unfold systemCall
        rw [hvalue, if_pos (.inr hzero)]
      have hbeyond : buffer.size < toSize (-2 ^ 31) := by
        rw [h]
        decide
      have hnonzero : ¬ ((-2 ^ 31 : ℤ) = 0 ∧ buffer.size ≠ 0) := fun hboth ↦ absurd hboth.1 (by decide)
      have hless : ¬ (-2 ^ 31 : ℤ) > buffer.size := by omega
      rw [writeOnce_of_systemCall hsystem, if_neg hnonzero, if_neg hless,
        BufferViewList.removePrefix_of_lt hbeyond]
      rfl
    · have hsystem : systemCall "writev" ⟨2 ^ 31, errno⟩ = .error (.unixError "writev" errno) := by
        unfold systemCall
        rw [hvalue, if_neg]
        exact fun hok ↦ hzero (hok.resolve_left (by decide))
      rw [writeOnce, hsystem]
      rfl
  rw [write, writeLoop, honce]

/-- A message of `2 ^ 31` bytes is written by one call of `writev`, which consumes all of it.  `write`
throws nevertheless, whatever `errno` is. -/
theorem large_answer_throws :
    let buffers := BufferList.ofString (List.replicate (2 ^ 31) 0)
    ∀ errno : ℤ, let outcome := write (.ofBufferList buffers) true fun _ ↦ ⟨2 ^ 31, errno⟩
      (∀ call ∈ outcome.calls, call.Honest) ∧ outcome.consumed = buffers.concatenate ∧
        outcome.result = some (.error (largeAnswerException errno)) := by
  intro buffers errno outcome
  have hbytes := BufferViewList.bytes_ofBufferList buffers
  have hlength : buffers.concatenate.length = 2 ^ 31 := by
    rw [BufferList.concatenate_ofString, List.length_replicate]
  clear_value buffers
  have hsize : (BufferViewList.ofBufferList buffers).size = 2 ^ 31 := by
    rw [BufferViewList.size_eq, hbytes, hlength]
  have houtcome : outcome = _ := write_of_large hsize errno
  rw [houtcome]
  refine ⟨fun call hcall ↦ ?_, ?_, rfl⟩
  · have hflatten : (BufferViewList.ofBufferList buffers).asIovecs.flatten = buffers.concatenate := hbytes
    have hnonempty : buffers.concatenate ≠ [] := by
      intro hnil
      rw [hnil] at hlength
      contradiction
    rw [List.mem_singleton.mp hcall, WritevCall.Honest]
    dsimp only
    rw [hflatten, hlength]
    exact ⟨fun hnil ↦ absurd hnil hnonempty, fun _ ↦ by decide, by decide⟩
  · have hreturn : (⟨2 ^ 31, errno⟩ : Answer).returnValue = (buffers.concatenate.length : ℕ) := by
      rw [hlength]
      rfl
    rw [consumed_singleton, consumed_eq hreturn, hbytes, List.take_length]

end FileDescriptor

end Sponge
