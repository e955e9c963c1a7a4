import Sponge.Stream.ReassemblerMemory
import Sponge.TCP.ReceiverInvariant
import Sponge.TCP.TCPConnection

/-!
# Runs of the receiver

Two results about whole runs.  Against arbitrary segments, the acknowledgment number and the right
edge of the window never move back, and nothing is written after the end of the output.  Against
honest segments, the receiver is a plain reassembler that is told the true stream index of each
segment: neither the recovery of the sequence number nor the tests against the window make a
difference.
-/

namespace Sponge.TCPReceiver

open Execution StreamReassembler

variable {receiver before after opened : TCPReceiver} {segment : TCPSegment} {isn : WrappingInt32}
  {stream seen : List UInt8} {absSeqno : ℕ}

inductive Operation where
  | segmentReceived (segment : TCPSegment)
  | read (len : ℕ)
  | pop (len : ℕ)
  deriving DecidableEq, Repr

def step (receiver : TCPReceiver) : Operation → TCPReceiver
  | .segmentReceived segment => (receiver.segmentReceived segment).1
  | .read len => { receiver with reassembler := receiver.reassembler.step (.read len) }
  | .pop len => { receiver with reassembler := receiver.reassembler.step (.pop len) }

/-! ## Arbitrary segments -/

/-- The reassembler is in order, and its output has ended exactly when nothing is left to assemble. -/
structure Sound (receiver : TCPReceiver) : Prop where
  consistent : Consistent receiver.reassembler
  ended : receiver.reassembler.empty = receiver.reassembler.output.ended

theorem sound_new (capacity : ℕ) : (new capacity).Sound where
  consistent := consistent_new capacity
  ended := by simp [new, StreamReassembler.new, StreamReassembler.empty, ByteStream.new]

/-- What never moves back from one state of a receiver to a later one. -/
structure Advances (before after : TCPReceiver) : Prop where
  isn : before.isn.isSome = true → after.isn = before.isn
  capacity : after.reassembler.capacity = before.reassembler.capacity
  assembled : before.reassembler.assembledBytes ≤ after.reassembler.assembledBytes
  read : before.reassembler.output.byteRead ≤ after.reassembler.output.byteRead
  ended : before.reassembler.output.ended = true → after.reassembler.output.ended = true ∧
    after.reassembler.assembledBytes = before.reassembler.assembledBytes
  error : before.reassembler.output.error = true → after.reassembler.output.error = true

theorem advances_refl (receiver : TCPReceiver) : Advances receiver receiver :=
  ⟨fun _ ↦ rfl, rfl, le_rfl, le_rfl, fun hended ↦ ⟨hended, rfl⟩, id⟩

theorem Advances.trans {last : TCPReceiver} (h : Advances before after)
    (hnext : Advances after last) : Advances before last where
  isn hsome := by
    have hkept := h.isn hsome
    rw [← hkept] at hsome ⊢
    exact hnext.isn hsome
  capacity := hnext.capacity.trans h.capacity
  assembled := h.assembled.trans hnext.assembled
  read := h.read.trans hnext.read
  ended hended := by
    obtain ⟨hafter, hsame⟩ := h.ended hended
    obtain ⟨hlast, hstill⟩ := hnext.ended hafter
    exact ⟨hlast, hstill.trans hsame⟩
  error herror := hnext.error (h.error herror)

/-- The reassembler ends its output in the push that leaves nothing to assemble. -/
theorem Sound.push (h : receiver.Sound) (hpushes : Pushes receiver isn segment) :
    (receiver.push isn segment).Sound ∧ Advances receiver (receiver.push isn segment) := by
  have hpushed := pushSubstring_spec h.consistent segment.payload.str (receiver.index isn segment)
    segment.header.fin
  have hrunning := hpushes.running
  refine ⟨⟨hpushed.consistent, ?_⟩, fun _ ↦ rfl, hpushed.capacity, hpushed.progress,
    hpushed.bytesRead.ge, fun hended ↦ ?_, fun herror ↦ hpushed.error.trans herror⟩
  · by_cases hinside : receiver.index isn segment <
        receiver.reassembler.capacity + receiver.reassembler.output.bytesRead
    · have hends : (receiver.push isn segment).reassembler.output.ended = _ := hpushed.ended
      rw [hends, hrunning, decide_eq_true hinside, Bool.false_or, Bool.true_and]
      rfl
    · have hsame : (receiver.push isn segment).reassembler = receiver.reassembler :=
        pushSubstring_of_le (not_lt.mp hinside) _ _
      rw [hsame]
      exact h.ended
  · rw [hrunning] at hended
    contradiction

/-- No segment moves the receiver back. -/
theorem Sound.segmentReceived (h : receiver.Sound) (segment : TCPSegment) :
    (receiver.segmentReceived segment).1.Sound ∧
      Advances receiver (receiver.segmentReceived segment).1 := by
  apply segmentReceived_rule (fun after ↦ after.Sound ∧ Advances receiver after)
    ⟨h, advances_refl receiver⟩
  · intro _ hnone
    refine ⟨⟨h.consistent, h.ended⟩, ⟨fun hsome ↦ ?_, rfl, le_rfl, le_rfl,
      fun hended ↦ ⟨hended, rfl⟩, id⟩⟩
    rw [hnone] at hsome
    contradiction
  · intro opened number hopened _ hpushes
    obtain ⟨hsound, hadvances⟩ := hopened.1.push hpushes
    exact ⟨hsound, hopened.2.trans hadvances⟩

theorem Sound.pop (h : receiver.Sound) (len : ℕ) :
    (receiver.step (.pop len)).Sound ∧ Advances receiver (receiver.step (.pop len)) := by
  obtain ⟨-, -, hended, herror⟩ := ByteStream.popOutput_frame receiver.reassembler.output len
  have hread := ByteStream.byteRead_popOutput h.consistent.assembling.valid len
  refine ⟨⟨h.consistent.popOutput len, h.ended.trans hended.symm⟩, fun _ ↦ rfl, rfl, le_rfl, ?_,
    fun hbefore ↦ ⟨hended.trans hbefore, rfl⟩, fun hbefore ↦ herror.trans hbefore⟩
  exact (Nat.le_add_right _ _).trans_eq hread.symm

theorem Sound.step (h : receiver.Sound) (operation : Operation) :
    (receiver.step operation).Sound ∧ Advances receiver (receiver.step operation) := by
  cases operation with
  | segmentReceived segment => exact h.segmentReceived segment
  | read len => exact h.pop (min len receiver.reassembler.output.bufferSize)
  | pop len => exact h.pop len

/-- No run moves the receiver back. -/
theorem sound_run (h : receiver.Sound) (operations : List Operation) :
    (run step receiver operations).Sound ∧ Advances receiver (run step receiver operations) := by
  apply run_invariant (fun after ↦ after.Sound ∧ Advances receiver after)
  · intro after operation hafter
    obtain ⟨hsound, hadvances⟩ := hafter.1.step operation
    exact ⟨hsound, hafter.2.trans hadvances⟩
  · exact ⟨h, advances_refl receiver⟩

/-! ### The acknowledgment number and the window -/

/-- The acknowledgment number counts the SYN, the assembled bytes and the FIN. -/
theorem Sound.absAckno_eq (h : receiver.Sound) :
    receiver.absAckno = receiver.reassembler.assembledBytes + receiver.isn.isSome.toNat +
      receiver.reassembler.output.ended.toNat := by
  rw [absAckno, h.ended]

/-- The window is what the buffer has room for. -/
theorem Sound.windowSize_eq (h : receiver.Sound) :
    receiver.streamOut.bufferSize ≤ receiver.reassembler.capacity ∧
      receiver.windowSize = receiver.reassembler.capacity - receiver.streamOut.bufferSize := by
  have hvalid := h.consistent.assembling.valid
  have hcapacity := h.consistent.assembling.capacity
  have hfits := hvalid.length_le
  unfold windowSize streamOut
  rw [hvalid.remainingCapacity_eq, hvalid.bufferSize_eq, ← hcapacity]
  exact ⟨hfits, rfl⟩

/-- The right edge of the window depends on what has been read, not on what is stored. -/
theorem Sound.rightEdge_eq (h : receiver.Sound) :
    receiver.absAckno + receiver.windowSize =
      receiver.reassembler.capacity + receiver.reassembler.output.byteRead +
        receiver.isn.isSome.toNat + receiver.reassembler.output.ended.toNat := by
  have hvalid := h.consistent.assembling.valid
  have hwritten := hvalid.written_eq
  have hassembled := h.consistent.assembling.written
  have hwindow := h.windowSize_eq
  unfold streamOut at hwindow
  rw [hvalid.bufferSize_eq] at hwindow
  rw [h.absAckno_eq]
  omega

theorem Advances.flags_le (h : Advances before after) :
    before.isn.isSome.toNat ≤ after.isn.isSome.toNat ∧
      before.reassembler.output.ended.toNat ≤ after.reassembler.output.ended.toNat := by
  constructor
  · cases hsome : before.isn.isSome with
    | false => exact Nat.zero_le _
    | true => rw [h.isn hsome, hsome]
  · cases hended : before.reassembler.output.ended with
    | false => exact Nat.zero_le _
    | true => rw [(h.ended hended).1]

theorem Advances.absAckno_le (h : Advances before after) (hbefore : before.Sound)
    (hafter : after.Sound) : before.absAckno ≤ after.absAckno := by
  have hassembled := h.assembled
  have hflags := h.flags_le
  rw [hbefore.absAckno_eq, hafter.absAckno_eq]
  omega

/-- The right edge of the window does not move back. -/
theorem Advances.rightEdge_le (h : Advances before after) (hbefore : before.Sound)
    (hafter : after.Sound) :
    before.absAckno + before.windowSize ≤ after.absAckno + after.windowSize := by
  have hread := h.read
  have hcapacity := h.capacity
  have hflags := h.flags_le
  rw [hbefore.rightEdge_eq, hafter.rightEdge_eq]
  omega

/-- The same for the part of the window that fits into a header. -/
theorem Advances.headerEdge_le (h : Advances before after) (hbefore : before.Sound)
    (hafter : after.Sound) :
    before.absAckno + min before.windowSize 65535 ≤ after.absAckno + min after.windowSize 65535 := by
  have hackno := h.absAckno_le hbefore hafter
  have hedge := h.rightEdge_le hbefore hafter
  omega

/-- Stored and unread bytes share the capacity. -/
theorem Sound.bufferSize_add_unassembledBytes_le (h : receiver.Sound)
    (hword : receiver.reassembler.capacity + receiver.reassembler.output.byteRead < Word.size) :
    receiver.streamOut.bufferSize + receiver.reassembler.unassembledBytes ≤
      receiver.reassembler.capacity := by
  rw [Nat.add_comm]
  exact h.consistent.unassembledBytes_add_bufferSize_le (h.consistent.lt_max_of_holds hword)

/-- The window that a connection puts into the header of its segments. -/
theorem win_setSegment (connection : TCPConnection) (emission : Emission)
    (hclear : connection.isUnclearShutdown = false)
    (hopen : connection.receiver.isn.isSome = true) :
    (connection.setSegment emission).segment.header.win.toNat =
      min connection.receiver.windowSize 65535 := by
  obtain ⟨number, hisn⟩ := Option.isSome_iff_exists.mp hopen
  unfold TCPConnection.setSegment
  rw [if_neg (Bool.eq_false_iff.mp hclear), ackno, hisn]
  dsimp only [Option.map_some]
  split_ifs with hlarge
  · exact (min_eq_right hlarge).symm
  · rw [UInt16.toNat_ofNat', Nat.mod_eq_of_lt (by omega)]
    omega

/-- Whatever segments arrive, the acknowledgment number and the right edge of the window never move
back, neither the full window nor the 16 bits of it that the header has room for; unread and stored
bytes fit into the capacity; and the output ends exactly when nothing is left to assemble, after which
no byte is written to it. -/
theorem ackno_and_window_never_move_back (capacity : ℕ) (operations more : List Operation) :
    let before := run step (new capacity) operations
    let after := run step before more
    before.absAckno ≤ after.absAckno ∧
    (before.isn.isSome = true →
      before.absAckno + before.windowSize ≤ after.absAckno + after.windowSize ∧
      before.absAckno + min before.windowSize 65535 ≤
        after.absAckno + min after.windowSize 65535 ∧
      ∀ (connection : TCPConnection) (emission : Emission), connection.receiver = after →
        connection.isUnclearShutdown = false →
        (connection.setSegment emission).segment.header.win.toNat = min after.windowSize 65535) ∧
    after.streamOut.bufferSize ≤ capacity ∧
    after.windowSize = capacity - after.streamOut.bufferSize ∧
    (capacity + after.streamOut.bytesRead < 2 ^ 64 →
      after.streamOut.bufferSize + after.reassembler.unassembledBytes ≤ capacity) ∧
    after.reassembler.empty = after.streamOut.inputEnded ∧
    (before.streamOut.inputEnded = true →
      after.streamOut.bytesWritten = before.streamOut.bytesWritten) := by
  intro before after
  obtain ⟨hbefore, hfirst⟩ := sound_run (sound_new capacity) operations
  obtain ⟨hafter, hadvances⟩ := sound_run hbefore more
  have hcapacity : after.reassembler.capacity = capacity := (hfirst.trans hadvances).capacity
  have hwindow := hafter.windowSize_eq
  have hmemory := hafter.bufferSize_add_unassembledBytes_le
  rw [hcapacity] at hwindow hmemory
  refine ⟨hadvances.absAckno_le hbefore hafter, fun hopen ↦ ⟨hadvances.rightEdge_le hbefore hafter,
    hadvances.headerEdge_le hbefore hafter, ?_⟩, hwindow.1, hwindow.2, hmemory, hafter.ended,
    fun hended ↦ ?_⟩
  · intro connection emission hsame hclear
    rw [← hsame]
    apply win_setSegment connection emission hclear
    rw [hsame, hadvances.isn hopen]
    exact hopen
  · calc
      after.streamOut.bytesWritten = after.reassembler.assembledBytes :=
        hafter.consistent.assembling.written
      _ = before.reassembler.assembledBytes := (hadvances.ended hended).2
      _ = before.streamOut.bytesWritten := hbefore.consistent.assembling.written.symm

/-! ## Honest segments -/

/-- The segment is the slice of SYN, `stream` and FIN that starts at number `absSeqno`. -/
@[mk_iff]
structure Honest (isn : WrappingInt32) (stream : List UInt8) (absSeqno : ℕ)
    (segment : TCPSegment) : Prop where
  seqno : segment.header.seqno = wrap absSeqno isn
  syn : segment.header.syn = true ↔ absSeqno = 0 ∧ 0 < segment.lengthInSequenceSpace
  payload : segment.payload.str = (stream.drop (absSeqno - 1)).take segment.payload.size
  fin : segment.header.fin = true ↔ 0 < segment.lengthInSequenceSpace ∧
    absSeqno + segment.lengthInSequenceSpace = stream.length + 2
  last_le : absSeqno + segment.lengthInSequenceSpace ≤ stream.length + 2

instance (isn : WrappingInt32) (stream : List UInt8) (absSeqno : ℕ) (segment : TCPSegment) :
    Decidable (Honest isn stream absSeqno segment) :=
  decidable_of_iff _ (honest_iff isn stream absSeqno segment).symm

theorem Honest.excerpt (h : Honest isn stream absSeqno segment) :
    Excerpt isn stream absSeqno segment where
  seqno := h.seqno
  syn hsyn := (h.syn.mp hsyn).1
  opening hzero hpositive := h.syn.mpr ⟨hzero, hpositive⟩
  payload := List.prefix_iff_eq_take.mpr h.payload

/-- What happens to a receiver: the slice from a given number on arrives, or its owner takes bytes out
of the output. -/
inductive Arrival where
  | slice (absSeqno : ℕ) (segment : TCPSegment)
  | read (len : ℕ)
  | pop (len : ℕ)
  deriving DecidableEq, Repr

/-- The receiver does not see the number of a slice. -/
def Arrival.operation : Arrival → Operation
  | .slice _ segment => .segmentReceived segment
  | .read len => .read len
  | .pop len => .pop len

def arrive (receiver : TCPReceiver) (arrival : Arrival) : TCPReceiver := receiver.step arrival.operation

/-- A plain reassembler that is told the number of each slice, from the first SYN on. -/
structure Plain where
  opened : Bool := false
  reassembler : StreamReassembler

/-- Slices before the first SYN and later SYNs are left out. -/
def Plain.arrive (plain : Plain) : Arrival → Plain
  | .slice absSeqno segment =>
      if segment.header.syn = plain.opened then plain
      else
        { opened := true
          reassembler := plain.reassembler.pushSubstring segment.payload.str (absSeqno - 1)
            segment.header.fin }
  | .read len => { plain with reassembler := plain.reassembler.step (.read len) }
  | .pop len => { plain with reassembler := plain.reassembler.step (.pop len) }

/-- A slice arrives before the end of the output and near enough to the acknowledgment number. -/
def Expected (isn : WrappingInt32) (stream : List UInt8) (receiver : TCPReceiver) : Arrival → Prop
  | .slice absSeqno segment =>
      receiver.streamOut.inputEnded = false ∧ Honest isn stream absSeqno segment ∧
        Near absSeqno receiver.absAckno
  | .read _ => True
  | .pop _ => True

instance (isn : WrappingInt32) (stream : List UInt8) (receiver : TCPReceiver) :
    (arrival : Arrival) → Decidable (Expected isn stream receiver arrival)
  | .slice _ _ => inferInstanceAs (Decidable (_ ∧ _ ∧ _))
  | .read _ => inferInstanceAs (Decidable True)
  | .pop _ => inferInstanceAs (Decidable True)

/-- An open receiver that has seen honest slices only, while its output runs. -/
structure Running (isn : WrappingInt32) (stream seen : List UInt8) (receiver : TCPReceiver) :
    Prop where
  receives : Receives isn stream seen receiver
  isn_eq : receiver.isn = some isn
  running : receiver.reassembler.output.ended = false

theorem Running.absAckno_eq (h : Running isn stream seen receiver) :
    receiver.absAckno = receiver.reassembler.assembledBytes + 1 := by
  rw [absAckno, h.isn_eq, h.receives.empty_eq_false h.running]
  rfl

/-- The right edge depends on what was read only. -/
theorem Running.rightEdge_eq (h : Running isn stream seen receiver) :
    receiver.absAckno + receiver.windowSize =
      receiver.reassembler.capacity + receiver.reassembler.output.bytesRead + 1 := by
  have hempty := h.receives.empty_eq_false h.running
  have hsound : receiver.Sound := ⟨h.receives.consistent, hempty.trans h.running.symm⟩
  rw [hsound.rightEdge_eq, h.isn_eq, h.running]
  rfl

/-- A slice that the receiver refuses as old has nothing new for the reassembler: in particular it
cannot carry the FIN, which lies beyond all that is assembled. -/
theorem Running.push_of_old (h : Running isn stream seen receiver)
    (hhonest : Honest isn stream absSeqno segment)
    (hold : absSeqno + segment.payload.size + segment.header.syn.toNat < receiver.absAckno) :
    receiver.reassembler.pushSubstring segment.payload.str (absSeqno - 1) segment.header.fin =
      receiver.reassembler := by
  have hempty := h.receives.empty_eq_false h.running
  have hassembled := h.receives.spells.assembledBytes_le h.receives.consistent
  have hlength := segment.lengthInSequenceSpace_eq
  have hsize : segment.payload.str.length = segment.payload.size := rfl
  rw [h.absAckno_eq] at hold
  have hunset : segment.header.fin = false := by
    by_contra hfin
    rw [Bool.not_eq_false] at hfin
    have hlast := (hhonest.fin.mp hfin).2
    rw [hfin, Bool.toNat_true] at hlength
    omega
  rw [hunset]
  apply h.receives.consistent.pushSubstring_of_known hempty
  omega

/-- A slice that the receiver refuses as beyond the window starts beyond the window of the
reassembler. -/
theorem Running.push_of_beyond (h : Running isn stream seen receiver)
    (hbeyond : absSeqno ≥ receiver.absAckno + receiver.windowSize) :
    receiver.reassembler.pushSubstring segment.payload.str (absSeqno - 1) segment.header.fin =
      receiver.reassembler := by
  rw [h.rightEdge_eq] at hbeyond
  exact pushSubstring_of_le (by omega) _ _

/-- The adjustment of the index for the SYN. -/
theorem Honest.index_eq (h : Honest isn stream absSeqno segment)
    (hnumbered : ¬ absSeqno + segment.payload.size + segment.header.syn.toNat = 0) :
    Word.sub absSeqno (!segment.header.syn).toNat = absSeqno - 1 := by
  have hlength := segment.lengthInSequenceSpace_eq
  cases hsyn : segment.header.syn with
  | true =>
    rw [(h.syn.mp hsyn).1]
    rfl
  | false =>
    apply Word.sub_of_le
    rw [Bool.not_false, Bool.toNat_true, Nat.one_le_iff_ne_zero]
    intro hzero
    have hshort := mt (fun hpositive ↦ h.syn.mpr ⟨hzero, hpositive⟩) (Bool.eq_false_iff.mp hsyn)
    rw [hsyn, Bool.toNat_false] at hnumbered
    omega

/-- The receiver hands a slice over at its true index, or the slice makes no difference. -/
theorem Running.acceptSegment (h : Running isn stream seen receiver)
    (hhonest : Honest isn stream absSeqno segment) (hnear : Near absSeqno receiver.absAckno)
    (hword : absSeqno + segment.lengthInSequenceSpace < Word.size) :
    (receiver.acceptSegment segment).1 = { receiver with
      reassembler := receiver.reassembler.pushSubstring segment.payload.str (absSeqno - 1)
        segment.header.fin } := by
  have hfinRecv : receiver.finRecv = false := h.running
  have hsynRecv : receiver.synRecv = true := by
    simp [synRecv, ackno, h.isn_eq, streamOut, ByteStream.inputEnded, h.running]
  unfold TCPReceiver.acceptSegment
  simp only [h.isn_eq, hfinRecv, hsynRecv, Bool.and_false, Bool.false_eq_true, if_false, if_true,
    unwrap_seqno hhonest.excerpt hnear hword]
  split_ifs with hold hbeyond
  · rw [h.push_of_old hhonest hold, ← h.isn_eq]
  · rw [h.push_of_beyond hbeyond.1, ← h.isn_eq]
  · rw [Honest.index_eq hhonest fun hzero ↦ ?_, ← h.isn_eq]
    -- Number zero without a SYN is an empty slice, which is old.
    have hackno := h.absAckno_eq
    omega

/-- The receiver and the plain reassembler are in the same state. -/
structure Matches (isn : WrappingInt32) (stream : List UInt8) (receiver : TCPReceiver)
    (plain : Plain) : Prop where
  receives : ∃ seen, Receives isn stream seen receiver
  reassembler : receiver.reassembler = plain.reassembler
  opened : receiver.isn = if plain.opened then some isn else none

variable {plain : Plain}

/-- A segment before the first SYN and a later SYN change nothing. -/
theorem segmentReceived_of_refused (h : segment.header.syn = receiver.isn.isSome) :
    (receiver.segmentReceived segment).1 = receiver := by
  unfold segmentReceived
  cases hisn : receiver.isn with
  | none =>
    rw [hisn] at h
    rw [if_neg (Bool.eq_false_iff.mp h), acceptSegment, hisn]
  | some number =>
    rw [hisn] at h
    have hlisten : ¬ receiver.listen = true := by simp [listen, ackno, hisn]
    have hsyn : segment.header.syn = true := h
    rw [if_pos hsyn, if_neg hlisten]

/-- The receiver right after the first SYN has opened it. -/
theorem Receives.running_of_first (h : Receives isn stream seen receiver)
    (hhonest : Honest isn stream absSeqno segment) (hsyn : segment.header.syn = true)
    (hrunning : receiver.reassembler.output.ended = false) :
    Running isn stream seen { receiver with isn := some segment.header.seqno } where
  receives := h.open hhonest.excerpt hsyn
  isn_eq := by
    rw [hhonest.seqno, (hhonest.syn.mp hsyn).1, wrap_zero]
  running := hrunning

/-- The first SYN, alone or with data and FIN. -/
theorem Receives.segmentReceived_of_first (h : Receives isn stream seen receiver)
    (hhonest : Honest isn stream absSeqno segment) (hsyn : segment.header.syn = true)
    (hnone : receiver.isn = none) (hrunning : receiver.reassembler.output.ended = false)
    (hword : absSeqno + segment.lengthInSequenceSpace < Word.size) :
    (receiver.segmentReceived segment).1 =
      { isn := some isn
        reassembler := receiver.reassembler.pushSubstring segment.payload.str (absSeqno - 1)
          segment.header.fin } := by
  have hopened := h.running_of_first hhonest hsyn hrunning
  have hnear : Near absSeqno (absAckno { receiver with isn := some segment.header.seqno }) := by
    rw [hopened.absAckno_eq, (h.unopened hnone).1, (hhonest.syn.mp hsyn).1]
    decide
  have hlisten : receiver.listen = true := by simp [listen, ackno, hnone]
  unfold TCPReceiver.segmentReceived
  rw [if_pos hsyn, if_pos hlisten]
  split_ifs with hlength
  · -- The SYN alone: the reassembler would be given no byte and no end mark.
    have hsum := segment.lengthInSequenceSpace_eq
    rw [hsyn, Bool.toNat_true] at hsum
    have hold : absSeqno + segment.payload.size + segment.header.fin.toNat = 0 := by
      rw [(hhonest.syn.mp hsyn).1]
      omega
    have hunset : segment.header.fin = false := by
      cases hfin : segment.header.fin with
      | false => rfl
      | true =>
        rw [hfin, Bool.toNat_true] at hold
        omega
    have hknown : absSeqno - 1 + segment.payload.str.length ≤
        receiver.reassembler.assembledBytes := by
      change absSeqno - 1 + segment.payload.size ≤ _
      omega
    have hempty := h.empty_eq_false hrunning
    rw [hunset, h.consistent.pushSubstring_of_known hempty hknown, ← hopened.isn_eq]
  · rw [hopened.acceptSegment hhonest hnear hword, ← hopened.isn_eq]

/-- A slice that is not refused is handed over at its true index. -/
theorem Receives.segmentReceived_of_taken (h : Receives isn stream seen receiver)
    (hhonest : Honest isn stream absSeqno segment) (hnear : Near absSeqno receiver.absAckno)
    (hword : absSeqno + segment.lengthInSequenceSpace < Word.size)
    (hrunning : receiver.reassembler.output.ended = false)
    (htaken : segment.header.syn ≠ receiver.isn.isSome) :
    (receiver.segmentReceived segment).1 =
      { isn := some isn
        reassembler := receiver.reassembler.pushSubstring segment.payload.str (absSeqno - 1)
          segment.header.fin } := by
  cases hisn : receiver.isn with
  | none =>
    rw [hisn] at htaken
    exact h.segmentReceived_of_first hhonest (Bool.eq_true_of_not_eq_false htaken) hisn hrunning hword
  | some number =>
    rw [hisn, Option.isSome_some] at htaken
    have hnumber : receiver.isn = some isn := by rw [hisn, h.isn_eq number hisn]
    have hopen : Running isn stream seen receiver := ⟨h, hnumber, hrunning⟩
    unfold TCPReceiver.segmentReceived
    rw [if_neg htaken, hopen.acceptSegment hhonest hnear hword, hnumber]

/-- A slice does the same to both. -/
theorem Matches.slice (h : Matches isn stream receiver plain)
    (hsize : stream.length + 2 < Word.size)
    (hexpected : Expected isn stream receiver (.slice absSeqno segment)) :
    Matches isn stream (receiver.arrive (.slice absSeqno segment))
      (plain.arrive (.slice absSeqno segment)) := by
  obtain ⟨hrunning, hhonest, hnear⟩ := hexpected
  obtain ⟨seen, hreceives⟩ := h.receives
  have hword : absSeqno + segment.lengthInSequenceSpace < Word.size :=
    hhonest.last_le.trans_lt hsize
  have hsome : receiver.isn.isSome = plain.opened := by
    rw [h.opened]
    cases plain.opened <;> rfl
  have hafter := hreceives.segmentReceived hhonest.excerpt ⟨hnear, hword⟩
  change Matches isn stream (receiver.segmentReceived segment).1 _
  unfold Plain.arrive
  dsimp only
  split_ifs with hrefused
  · rw [← hsome] at hrefused
    rwa [segmentReceived_of_refused hrefused]
  · rw [← hsome] at hrefused
    have htaken := hreceives.segmentReceived_of_taken hhonest hnear hword hrunning hrefused
    refine ⟨⟨seen, hafter⟩, ?_, ?_⟩
    · rw [htaken, h.reassembler]
    · rw [htaken, if_pos rfl]

/-- Everything that can happen does the same to both. -/
theorem Matches.arrive {arrival : Arrival} (h : Matches isn stream receiver plain)
    (hsize : stream.length + 2 < Word.size) (hexpected : Expected isn stream receiver arrival) :
    Matches isn stream (receiver.arrive arrival) (plain.arrive arrival) := by
  obtain ⟨seen, hreceives⟩ := h.receives
  cases arrival with
  | slice absSeqno segment => exact h.slice hsize hexpected
  | read len =>
    refine ⟨⟨_, hreceives.read len⟩, ?_, h.opened⟩
    exact congrArg (StreamReassembler.step · (.read len)) h.reassembler
  | pop len =>
    refine ⟨⟨_, hreceives.pop len⟩, ?_, h.opened⟩
    exact congrArg (StreamReassembler.step · (.pop len)) h.reassembler

/-- As long as its output runs, the receiver is the reassembler applied at true stream indices: the
segments may be lost, repeated and reordered, and each one is placed where it belongs.  Segments
before the first SYN and later SYNs make no difference. -/
theorem refines_reassembler (isn : WrappingInt32) (stream : List UInt8) (capacity : ℕ)
    (hsize : stream.length + 2 < Word.size) (arrivals : List Arrival)
    (h : Admissible arrive (Expected isn stream) (new capacity) arrivals) :
    let final := run arrive (new capacity) arrivals
    let plain := run Plain.arrive { reassembler := .new capacity } arrivals
    final.reassembler = plain.reassembler ∧
      final.windowSize = plain.reassembler.output.remainingCapacity ∧
      final.streamOut.inputEnded = plain.reassembler.output.inputEnded ∧
      final.isn = if plain.opened then some isn else none := by
  intro final plain
  have hmatches : Matches isn stream final plain := by
    apply h.simulation (Matches isn stream)
    · exact fun _ _ _ hbefore hexpected ↦ hbefore.arrive hsize hexpected
    · exact ⟨⟨[], receives_new isn stream capacity⟩, rfl, rfl⟩
  refine ⟨hmatches.reassembler, ?_, ?_, hmatches.opened⟩
  · rw [windowSize, streamOut, hmatches.reassembler]
  · rw [streamOut, hmatches.reassembler]

/-- A window of two bytes and numbers that wrap around: data before the SYN, a slice that is first
beyond the window and comes again, and a repeated SYN. -/
def outOfOrder : List Arrival :=
  [.slice 1 { header := { seqno := ⟨0⟩ }, payload := .ofString [97, 98] },
    .slice 0 { header := { seqno := ⟨4294967295⟩, syn := true }, payload := .ofString [97] },
    .slice 3 { header := { seqno := ⟨2⟩, fin := true }, payload := .ofString [99] },
    .read 1,
    .slice 3 { header := { seqno := ⟨2⟩, fin := true }, payload := .ofString [99] },
    .slice 0 { header := { seqno := ⟨4294967295⟩, syn := true }, payload := .ofString [97] },
    .slice 1 { header := { seqno := ⟨0⟩ }, payload := .ofString [97, 98] },
    .pop 1]

theorem refines_reassembler_out_of_order :
    let final := run arrive (new 2) outOfOrder
    let plain := run Plain.arrive { reassembler := .new 2 } outOfOrder
    Admissible arrive (Expected ⟨4294967295⟩ [97, 98, 99]) (new 2) outOfOrder ∧
      final.reassembler.assembledBytes = 3 ∧ final.streamOut.inputEnded = true ∧
      final.streamOut.contents = [99] ∧ final.reassembler = plain.reassembler := by
  intro final plain
  have h : Admissible arrive (Expected ⟨4294967295⟩ [97, 98, 99]) (new 2) outOfOrder := by
    decide +kernel
  exact ⟨h, by decide +kernel, by decide +kernel, by decide +kernel,
    (refines_reassembler ⟨4294967295⟩ [97, 98, 99] 2 (by decide) outOfOrder h).1⟩

end Sponge.TCPReceiver
