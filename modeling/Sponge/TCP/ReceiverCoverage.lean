import Sponge.TCP.ReceiverRuns

/-!
# Which numbers the receiver has

The acknowledgment number of a receiver is the first number that it does not have.  A segment whose
numbers all lie before the right edge of the window is taken completely, in whatever order the segments
come, and what a receiver has it keeps.
-/

namespace Sponge.TCPReceiver

open StreamReassembler TCPSender

variable {receiver : TCPReceiver} {segment : TCPSegment} {isn : WrappingInt32}
  {stream seen : List UInt8} {absSeqno number : ℕ} {finSent : Bool}

/-- The receiver has what the number stands for: the SYN, a byte of the stream, or the FIN after it. -/
def Has (stream : List UInt8) (receiver : TCPReceiver) (number : ℕ) : Prop :=
  if number = 0 then receiver.isn.isSome = true
  else if number ≤ stream.length then receiver.reassembler.Holds (number - 1)
  else receiver.reassembler.eof = true

theorem Has.open (h : Has stream receiver number) (seqno : WrappingInt32) :
    Has stream { receiver with isn := some seqno } number := by
  unfold Has at h ⊢
  split_ifs at h ⊢
  · rfl
  · exact h
  · exact h

theorem Has.push (h : Has stream receiver number) (hconsistent : Consistent receiver.reassembler) :
    Has stream (receiver.push isn segment) number := by
  have hpushed := pushSubstring_spec hconsistent segment.payload.str (receiver.index isn segment)
    segment.header.fin
  unfold Has at h ⊢
  split_ifs at h ⊢
  · exact h
  · exact (hpushed.holds _).mpr (.inl h)
  · exact hpushed.eof.trans (by rw [h, Bool.true_or])

/-- A segment takes nothing away. -/
theorem Has.segmentReceived (h : Has stream receiver number)
    (hconsistent : Consistent receiver.reassembler) (segment : TCPSegment) :
    Has stream (receiver.segmentReceived segment).1 number := by
  suffices hboth : Consistent (receiver.segmentReceived segment).1.reassembler ∧
      Has stream (receiver.segmentReceived segment).1 number from hboth.2
  apply segmentReceived_rule fun after ↦ Consistent after.reassembler ∧ Has stream after number
  · exact ⟨hconsistent, h⟩
  · exact fun _ _ ↦ ⟨hconsistent, h.open _⟩
  · intro opened number hopened _ _
    exact ⟨(pushSubstring_spec hopened.1 _ _ _).consistent, hopened.2.push hopened.1⟩

/-! ## The acknowledgment number -/

/-- A receiver that has all numbers below a count acknowledges them. -/
theorem Receives.le_absAckno (h : Receives isn stream seen receiver) {count : ℕ}
    (hcount : count ≤ stream.length + 2) (hhas : ∀ number < count, Has stream receiver number) :
    count ≤ receiver.absAckno := by
  cases count with
  | zero => exact Nat.zero_le _
  | succ count =>
    have hopened : receiver.isn.isSome = true := by simpa [Has] using hhas 0 (Nat.succ_pos count)
    have hassembled : min count stream.length ≤ receiver.reassembler.assembledBytes := by
      by_contra hless
      rw [not_le, lt_min_iff] at hless
      have hnext := hhas (receiver.reassembler.assembledBytes + 1) (Nat.succ_lt_succ hless.1)
      rw [Has, if_neg (Nat.succ_ne_zero _), if_pos (Nat.succ_le_of_lt hless.2)] at hnext
      exact h.consistent.not_holds_assembledBytes hnext
    have hle := h.spells.assembledBytes_le h.consistent
    unfold absAckno
    rw [hopened, Bool.toNat_true]
    by_cases hfin : count = stream.length + 1
    · -- The last number is the FIN, and with all bytes assembled the reassembler is empty.
      have heof := hhas (stream.length + 1) (by omega)
      rw [Has, if_neg (Nat.succ_ne_zero _), if_neg (Nat.not_succ_le_self _)] at heof
      have hempty : receiver.reassembler.empty = true := by
        refine (h.consistent.empty_iff h.bounded).mpr ⟨heof, fun position hholds ↦ ?_⟩
        have hlt := h.spells.lt_length_of_holds h.consistent hholds
        omega
      rw [hempty, Bool.toNat_true]
      omega
    · omega

/-- Only a receiver that has heard of its peer acknowledges something. -/
theorem Receives.isSome_of_absAckno_pos (h : Receives isn stream seen receiver)
    (hpos : 0 < receiver.absAckno) : receiver.isn.isSome = true := by
  cases hisn : receiver.isn with
  | some number => rfl
  | none =>
    obtain ⟨hassembled, heof⟩ := h.unopened hisn
    simp [absAckno, hisn, hassembled, StreamReassembler.empty, heof] at hpos

/-- A receiver has what it acknowledges. -/
theorem Receives.has_of_lt (h : Receives isn stream seen receiver)
    (hends : Ends stream finSent receiver) (hlt : number < receiver.absAckno) :
    Has stream receiver number := by
  have hopened := h.isSome_of_absAckno_pos ((Nat.zero_le number).trans_lt hlt)
  have hassembled := h.spells.assembledBytes_le h.consistent
  have hmarked (hempty : receiver.reassembler.empty = true) :
      receiver.reassembler.eof = true ∧ receiver.reassembler.assembledBytes = stream.length :=
    ⟨hends.marked (h.closed hempty), (hends.assembled h (h.closed hempty)).2.1⟩
  unfold absAckno at hlt
  rw [hopened, Bool.toNat_true] at hlt
  unfold Has
  split_ifs with hzero hbyte
  · exact hopened
  · left
    cases hempty : receiver.reassembler.empty with
    | true =>
      have := (hmarked hempty).2
      omega
    | false =>
      rw [hempty, Bool.toNat_false] at hlt
      omega
  · cases hempty : receiver.reassembler.empty with
    | true => exact (hmarked hempty).1
    | false =>
      rw [hempty, Bool.toNat_false] at hlt
      omega

/-- A receiver whose output has ended has everything. -/
theorem Ends.has_of_ended (h : Ends stream finSent receiver)
    (hreceives : Receives isn stream seen receiver)
    (hended : receiver.reassembler.output.ended = true) (number : ℕ) : Has stream receiver number := by
  have heof := h.marked hended
  obtain ⟨-, hwhole, -⟩ := h.assembled hreceives hended
  unfold Has
  split_ifs with hzero hbyte
  · cases hisn : receiver.isn with
    | some number => rfl
    | none => exact absurd ((hreceives.unopened hisn).2.symm.trans heof) Bool.false_ne_true
  · left
    omega
  · exact heof

/-- After the end of the output a bare segment is acceptable, whatever its number is. -/
theorem accepts_bare_of_ended (hopen : receiver.isn.isSome = true)
    (hended : receiver.streamOut.ended = true) (hbare : segment.lengthInSequenceSpace = 0) :
    (receiver.segmentReceived segment).2 = true := by
  obtain ⟨hsyn, hfin, -⟩ := TCPSegment.flags_of_length_eq_zero hbare
  obtain ⟨number, hisn⟩ := Option.isSome_iff_exists.mp hopen
  simp [segmentReceived, hsyn, acceptSegment, hisn, hfin, synRecv, ByteStream.inputEnded, hended]

/-- A bare segment brings nothing. -/
theorem Has.of_bare (hconsistent : Consistent receiver.reassembler)
    (hbare : segment.lengthInSequenceSpace = 0)
    (h : Has stream (receiver.segmentReceived segment).1 number) : Has stream receiver number := by
  obtain ⟨hsyn, hfin, hsize⟩ := TCPSegment.flags_of_length_eq_zero hbare
  have hnil : segment.payload.str.length = 0 := hsize
  revert h
  apply segmentReceived_rule fun after ↦ Has stream after number → Has stream receiver number
  · exact id
  · exact fun hset _ ↦ absurd (hsyn.symm.trans hset) Bool.false_ne_true
  · intro opened seqno hopened hopens _ hhas
    obtain ⟨-, rfl⟩ := hopens.resolve_right fun hfirst ↦
      absurd (hsyn.symm.trans hfirst.1) Bool.false_ne_true
    have hpushed := pushSubstring_spec hconsistent segment.payload.str (opened.index seqno segment)
      segment.header.fin
    unfold Has at hhas ⊢
    split_ifs at hhas ⊢
    · exact hhas
    · refine ((hpushed.holds _).mp hhas).resolve_right fun hnew ↦ ?_
      have hlower := hnew.1
      have hupper := hnew.2.1
      omega
    · have hmark := hpushed.eof.symm.trans hhas
      rwa [takesEnd, hfin, Bool.false_and, Bool.or_false] at hmark

/-- A bare segment does not move the acknowledgment number. -/
theorem Receives.absAckno_of_bare (h : Receives isn stream seen receiver)
    (hafter : Receives isn stream seen (receiver.segmentReceived segment).1)
    (hends : Ends stream finSent (receiver.segmentReceived segment).1)
    (hbare : segment.lengthInSequenceSpace = 0) :
    (receiver.segmentReceived segment).1.absAckno ≤ receiver.absAckno := by
  apply h.le_absAckno hafter.absAckno_le_length
  intro number hlt
  exact (hafter.has_of_lt hends hlt).of_bare h.consistent hbare

/-! ## Segments before the right edge -/

/-- What a segment brings. -/
def Brings (absSeqno : ℕ) (segment : TCPSegment) (number : ℕ) : Prop :=
  absSeqno ≤ number ∧ number < absSeqno + segment.lengthInSequenceSpace

/-- A number beyond the stream is that of a FIN. -/
theorem fin_of_brings (hslice : Slice isn stream absSeqno segment)
    (hbrings : Brings absSeqno segment number) (hbeyond : stream.length < number) :
    segment.header.fin = true := by
  obtain ⟨hle, hlt⟩ := hbrings
  have hlength := segment.lengthInSequenceSpace_eq
  by_contra hfin
  rw [Bool.not_eq_true] at hfin
  rw [hfin, Bool.toNat_false] at hlength
  rcases Nat.eq_zero_or_pos segment.payload.size with hnone | hsome
  · cases hsyn : segment.header.syn with
    | true =>
      have hzero := hslice.syn hsyn
      rw [hsyn, Bool.toNat_true] at hlength
      omega
    | false =>
      rw [hsyn, Bool.toNat_false] at hlength
      omega
  · have hpayload := hslice.payload_le hsome
    omega

/-- A segment that is handed to the reassembler is taken up to the right edge. -/
theorem has_push (hreceives : Receives isn stream seen receiver)
    (hslice : Slice isn stream absSeqno segment) (hrecoverable : receiver.Recoverable absSeqno segment)
    (hopened : receiver.isn.isSome = true) (hrunning : receiver.reassembler.output.ended = false)
    (hedge : absSeqno + segment.lengthInSequenceSpace ≤ receiver.absAckno + receiver.windowSize)
    (hfin : segment.header.fin = true →
      absSeqno + segment.lengthInSequenceSpace = stream.length + 2)
    (hbrings : Brings absSeqno segment number) :
    Has stream (receiver.push isn segment) number := by
  have hexcerpt := excerpt_of_slice hslice
  have hpushed := pushSubstring_spec hreceives.consistent segment.payload.str
    (receiver.index isn segment) segment.header.fin
  have hlength := segment.lengthInSequenceSpace_eq
  have hsize : segment.payload.str.length = segment.payload.size := rfl
  have hread : receiver.reassembler.output.bytesRead = receiver.reassembler.output.byteRead := rfl
  obtain ⟨hlower, hupper⟩ := hbrings
  have hsound : receiver.Sound :=
    ⟨hreceives.consistent, (hreceives.empty_eq_false hrunning).trans hrunning.symm⟩
  rw [hsound.rightEdge_eq, hopened, hrunning, Bool.toNat_true, Bool.toNat_false] at hedge
  have hplace : receiver.index isn segment = absSeqno - 1 ∧
      receiver.index isn segment + segment.payload.size + segment.header.fin.toNat + 1 =
        absSeqno + segment.lengthInSequenceSpace := by
    refine (index_eq hexcerpt hrecoverable.1 hrecoverable.2).resolve_left ?_
    omega
  unfold Has
  split_ifs with hzero hbyte
  · exact hopened
  · refine (hpushed.holds _).mpr (.inr ⟨by omega, ?_, by omega⟩)
    cases hset : segment.header.fin with
    | true =>
      have hlast := hfin hset
      rw [hset, Bool.toNat_true] at hplace
      omega
    | false =>
      rw [hset, Bool.toNat_false] at hplace
      omega
  · have hset := fin_of_brings hslice ⟨hlower, hupper⟩ (not_le.mp hbyte)
    rw [hset, Bool.toNat_true] at hplace
    refine hpushed.eof.trans (Bool.or_eq_true_iff.mpr (.inr ?_))
    rw [takesEnd, hset, Bool.true_and, Bool.and_eq_true_iff, decide_eq_true_iff, decide_eq_true_iff]
    omega

/-- A segment that lies before the right edge is taken completely.  Only the SYN alone may open the
receiver. -/
theorem has_segmentReceived (hreceives : Receives isn stream seen receiver)
    (hends : Ends stream finSent receiver) (hslice : Slice isn stream absSeqno segment)
    (hrecoverable : receiver.Recoverable absSeqno segment)
    (hheard : segment.header.syn = true ∨ receiver.isn.isSome = true)
    (halone : segment.header.syn = true → segment.lengthInSequenceSpace = 1)
    (hedge : absSeqno + segment.lengthInSequenceSpace ≤ receiver.absAckno + receiver.windowSize)
    (hfin : segment.header.fin = true →
      absSeqno + segment.lengthInSequenceSpace = stream.length + 2)
    (hbrings : Brings absSeqno segment number) :
    Has stream (receiver.segmentReceived segment).1 number := by
  have hlength := segment.lengthInSequenceSpace_eq
  have hkeep (hhas : Has stream receiver number) :=
    hhas.segmentReceived hreceives.consistent segment
  cases hsyn : segment.header.syn with
  | true =>
    have hnumber : number = 0 := by
      have hzero := hslice.syn hsyn
      have hone := halone hsyn
      have hlt := hbrings.2
      omega
    cases hisn : receiver.isn with
    | some seqno =>
      apply hkeep
      rw [hnumber, Has, if_pos rfl, hisn]
      rfl
    | none =>
      have hlisten : receiver.listen = true := by simp [listen, ackno, hisn]
      unfold segmentReceived
      rw [if_pos hsyn, if_pos hlisten, if_pos (halone hsyn), hnumber, Has, if_pos rfl]
      rfl
  | false =>
    have hopened := hheard.resolve_left (Bool.eq_false_iff.mp hsyn)
    cases hended : receiver.reassembler.output.ended with
    | true => exact hkeep (hends.has_of_ended hreceives hended number)
    | false =>
      obtain ⟨seqno, hisn⟩ := Option.isSome_iff_exists.mp hopened
      have hnumber := hreceives.isn_eq seqno hisn
      have hseqno : unwrap segment.header.seqno isn receiver.absAckno = absSeqno :=
        unwrap_seqno (excerpt_of_slice hslice) hrecoverable.1 hrecoverable.2
      have hrunning : receiver.synRecv = true := by
        simp [synRecv, ackno, hisn, streamOut, ByteStream.inputEnded, hended]
      have hnotEnded : receiver.finRecv = false := hended
      obtain ⟨hlower, hupper⟩ := hbrings
      by_cases hold : absSeqno + segment.payload.size < receiver.absAckno
      · apply hkeep
        apply hreceives.has_of_lt hends
        have hflag := segment.header.fin.toNat_le
        rw [hsyn, Bool.toNat_false] at hlength
        omega
      · have hinside : ¬ (absSeqno ≥ receiver.absAckno + receiver.windowSize ∧
            ¬ (receiver.windowSize = 0 ∧ segment.lengthInSequenceSpace = 0)) := by
          rintro ⟨hbeyond, -⟩
          omega
        have hpush : (receiver.segmentReceived segment).1 = receiver.push isn segment := by
          unfold segmentReceived acceptSegment push index
          rw [hisn, hsyn, hnumber]
          simp only [Bool.false_eq_true, if_false, hnotEnded, Bool.and_false, hrunning, if_true,
            hseqno, Bool.toNat_false, Nat.add_zero, hold, hinside]
        rw [hpush]
        exact has_push hreceives hslice hrecoverable hopened hended hedge hfin ⟨hlower, hupper⟩

end Sponge.TCPReceiver
