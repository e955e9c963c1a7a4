import Sponge.TCP.ConnectionRules
import Sponge.TCP.ReceiverInvariant

/-!
# What a connection puts on the wire

The queue of a connection holds all segments that it has sent.  Each of them is a slice of the bytes
that its owner has written, a FIN among them stands at the end of the sequence, and each
acknowledgment among them was the acknowledgment number of the receiver at some moment.
-/

namespace Sponge.TCPConnection

open Execution TCPSender

variable {connection : TCPConnection} {call : Call} {isn : WrappingInt32} {accepted : List UInt8}
  {emission : Emission}

def acceptedBy (connection : TCPConnection) : Call → List UInt8
  | .write data => data.take (connection.write data).2
  | _ => []

def readBy (connection : TCPConnection) : Call → List UInt8
  | .readInbound len => (connection.readInbound len).1
  | _ => []

/-- The connection sets RST after an unclear shutdown, or the fields of the acknowledgment once the
receiver has an acknowledgment number, or nothing. -/
theorem setSegment_cases (connection : TCPConnection) (emission : Emission) :
    (∃ rst, connection.setSegment emission = { emission with
      segment := { emission.segment with header := { emission.segment.header with rst } } }) ∨
    ∃ number win, connection.receiver.isn = some number ∧
      connection.setSegment emission = { emission with
        segment := { emission.segment with
          header := { emission.segment.header with
            ack := true, ackno := wrap connection.receiver.absAckno number, win } }
        absAckno := connection.receiver.absAckno } := by
  unfold setSegment
  by_cases hreset : connection.isUnclearShutdown = true
  · rw [if_pos hreset]
    exact .inl ⟨true, rfl⟩
  · rw [if_neg hreset]
    unfold TCPReceiver.ackno
    cases connection.receiver.isn with
    | none => exact .inl ⟨emission.segment.header.rst, rfl⟩
    | some number => exact .inr ⟨number, _, rfl, rfl⟩

theorem forall_collectOutput {property : Emission → Prop}
    (hold : ∀ emission ∈ connection.segmentsOut, property emission)
    (hnew : ∀ emission ∈ connection.sender.segmentsOut, property (connection.setSegment emission)) :
    ∀ emission ∈ connection.collectOutput.segmentsOut, property emission := by
  intro emission hemission
  cases List.mem_append.mp hemission with
  | inl hmem => exact hold emission hmem
  | inr hmem =>
    obtain ⟨queued, hqueued, rfl⟩ := List.mem_map.mp hmem
    exact hnew queued hqueued

/-! ## Slices -/

/-- All segments sent and to be sent are slices of the accepted bytes. -/
structure Emits (isn : WrappingInt32) (accepted : List UInt8) (connection : TCPConnection) : Prop where
  slices : Slices isn accepted connection.sender
  sent : ∀ emission ∈ connection.segmentsOut, Slice isn accepted emission.absSeqno emission.segment

/-- The connection fills in fields that do not matter for the slice. -/
theorem slice_setSegment (h : Slice isn accepted emission.absSeqno emission.segment) :
    Slice isn accepted (connection.setSegment emission).absSeqno
      (connection.setSegment emission).segment := by
  cases setSegment_cases connection emission with
  | inl hreset =>
    obtain ⟨rst, heq⟩ := hreset
    rw [heq]
    exact ⟨h.seqno, h.syn, h.opening, h.payload, h.size_le, h.last_le⟩
  | inr hack =>
    obtain ⟨number, win, -, heq⟩ := hack
    rw [heq]
    exact ⟨h.seqno, h.syn, h.opening, h.payload, h.size_le, h.last_le⟩

theorem settles_emits : Settles (Emits isn accepted) where
  collect _ h := ⟨h.slices.drain, forall_collectOutput h.sent fun emission hemission ↦
    slice_setSegment (h.slices.carried.emitted emission hemission)⟩
  shutdown _ h := ⟨h.slices.setError, h.sent⟩
  bare _ h := ⟨h.slices.move .bare, h.sent⟩
  record _ _ _ _ h := ⟨h.slices, h.sent⟩
  close _ _ h _ _ := ⟨h.slices, h.sent⟩

theorem emits_new (cfg : TCPConfig) (randomIsn : WrappingInt32) :
    Emits (cfg.fixedIsn.getD randomIsn) [] (new cfg randomIsn) :=
  ⟨slices_new _ _ _ _, by simp [new]⟩

theorem Emits.access (h : Emits isn accepted connection) (call : Call) :
    Emits isn (accepted ++ connection.acceptedBy call) (connection.access call) := by
  cases call with
  | write data =>
    exact ⟨h.slices.write data, fun emission hemission ↦ (h.sent emission hemission).extend _⟩
  | endInputStream =>
    change Emits isn (accepted ++ []) _
    rw [List.append_nil]
    exact ⟨h.slices.endInput, h.sent⟩
  | connect | segmentReceived | tick | readInbound =>
    change Emits isn (accepted ++ []) _
    rw [List.append_nil]
    exact ⟨h.slices, h.sent⟩

/-- A call sends slices of what was accepted, with what the call itself hands over. -/
theorem Emits.step (h : Emits isn accepted connection) (call : Call) :
    Emits isn (accepted ++ connection.acceptedBy call) (connection.step call) := by
  apply settles_emits.step_of_moves
  · exact fun _ hbefore ↦ hbefore.slices.valid
  · exact fun _ _ hbefore hmoves ↦ ⟨hbefore.slices.moves hmoves, hbefore.sent⟩
  · exact fun _ _ hbefore ↦ ⟨hbefore.slices, hbefore.sent⟩
  · exact h.access call

/-! ## The end of the outbound stream -/

/-- Every segment ends before the next sequence number, every FIN stands at the end of the sequence,
and a connection that is closed clearly has had its own FIN acknowledged. -/
structure Concludes (connection : TCPConnection) : Prop where
  sequenced : connection.sender.Sequenced
  placed : connection.sender.Placed
  preceding : connection.sender.Carries connection.sender.Precedes
  sent : ∀ emission ∈ connection.segmentsOut,
    FinLast connection.sender emission.absSeqno emission.segment
  before : ∀ emission ∈ connection.segmentsOut,
    Precedes connection.sender emission.absSeqno emission.segment
  closed : connection.isClearShutdown = true → connection.sender.finAcked = true

/-- The connection fills in fields that do not matter for the place of a segment. -/
theorem place_setSegment (connection : TCPConnection) (emission : Emission) :
    (connection.setSegment emission).absSeqno = emission.absSeqno ∧
      (connection.setSegment emission).segment.header.fin = emission.segment.header.fin ∧
      (connection.setSegment emission).segment.lengthInSequenceSpace =
        emission.segment.lengthInSequenceSpace := by
  cases setSegment_cases connection emission with
  | inl hreset =>
    obtain ⟨rst, heq⟩ := hreset
    rw [heq]
    exact ⟨rfl, rfl, rfl⟩
  | inr hack =>
    obtain ⟨number, win, -, heq⟩ := hack
    rw [heq]
    exact ⟨rfl, rfl, rfl⟩

theorem settles_concludes : Settles Concludes where
  collect connection h := by
    refine ⟨h.sequenced.drain, h.placed.drain, h.preceding.drain, ?_, ?_, h.closed⟩
    · apply forall_collectOutput h.sent
      intro emission hemission
      obtain ⟨hplace, hfin, hlength⟩ := place_setSegment connection emission
      unfold FinLast
      rw [hplace, hfin, hlength]
      exact h.placed.emitted emission hemission
    · apply forall_collectOutput h.before
      intro emission hemission
      obtain ⟨hplace, -, hlength⟩ := place_setSegment connection emission
      unfold Precedes
      rw [hplace, hlength]
      exact h.preceding.emitted emission hemission
  shutdown _ h := ⟨h.sequenced.setError, ⟨h.placed.outstanding, h.placed.emitted⟩,
    ⟨h.preceding.outstanding, h.preceding.emitted⟩, h.sent, h.before, h.closed⟩
  bare _ h := ⟨h.sequenced.move .bare, h.placed.move h.sequenced .bare,
    h.preceding.precedes_move h.sequenced .bare, h.sent, h.before, h.closed⟩
  record _ _ _ _ h := ⟨h.sequenced, h.placed, h.preceding, h.sent, h.before, h.closed⟩
  close _ _ h hwait _ := ⟨h.sequenced, h.placed, h.preceding, h.sent, h.before,
    fun _ ↦ (Bool.and_eq_true_iff.mp hwait).2⟩

theorem concludes_new (cfg : TCPConfig) (randomIsn : WrappingInt32) :
    Concludes (new cfg randomIsn) where
  sequenced := sequenced_new _ _ _ _
  placed := ⟨by simp [new, TCPSender.new], by simp [new, TCPSender.new]⟩
  preceding := ⟨by simp [new, TCPSender.new], by simp [new, TCPSender.new]⟩
  sent := by simp [new]
  before := by simp [new]
  closed := by simp [new]

/-- A move of the sender keeps the end of the sequence in its place. -/
theorem Concludes.move {after : TCPSender} (h : connection.Concludes)
    (hmove : Move connection.sender after) : Concludes { connection with sender := after } where
  sequenced := h.sequenced.move hmove
  placed := h.placed.move h.sequenced hmove
  preceding := h.preceding.precedes_move h.sequenced hmove
  sent emission hemission := (h.sent emission hemission).move h.sequenced hmove
  before emission hemission :=
    le_trans (h.before emission hemission) (h.sequenced.next_le_move hmove)
  closed hclosed := h.sequenced.finAcked_move (h.closed hclosed) hmove

theorem Concludes.access (h : connection.Concludes) (hcall : connection.NothingAfterFin call) :
    (connection.access call).Concludes := by
  have hsequenced := sequenced_access h.sequenced hcall
  have hclosed (hclear : connection.isClearShutdown = true) :=
    h.sequenced.finAcked_iff.mp (h.closed hclear)
  cases call with
  | write | endInputStream =>
    exact ⟨hsequenced, ⟨h.placed.outstanding, h.placed.emitted⟩,
      ⟨h.preceding.outstanding, h.preceding.emitted⟩, h.sent, h.before,
      fun hclear ↦ hsequenced.finAcked_iff.mpr (hclosed hclear)⟩
  | connect | segmentReceived | tick | readInbound =>
    exact ⟨hsequenced, h.placed, h.preceding, h.sent, h.before, h.closed⟩

/-- As long as nothing is added after the FIN, every FIN stands at the end. -/
theorem Concludes.step (h : connection.Concludes) (hcall : connection.NothingAfterFin call) :
    (connection.step call).Concludes := by
  apply settles_concludes.step_of_moves
  · exact fun _ hbefore ↦ hbefore.sequenced.valid
  · exact fun before _ hbefore hmoves ↦ hmoves.invariant
      (fun sender ↦ Concludes { before with sender }) (fun _ _ h hmove ↦ h.move hmove) hbefore
  · exact fun _ _ hbefore ↦ ⟨hbefore.sequenced, hbefore.placed, hbefore.preceding, hbefore.sent,
      hbefore.before, hbefore.closed⟩
  · exact h.access hcall

/-- After the FIN nothing more is accepted. -/
theorem acceptedBy_eq_nil
    (hcall : connection.NothingAfterFin call) (hfin : connection.sender.fin = true) :
    connection.acceptedBy call = [] := by
  cases call with
  | write data =>
    have hnone := hcall hfin
    change data.take (connection.sender.stream.write data).2 = []
    rw [hnone, List.take_zero]
  | connect | endInputStream | segmentReceived | tick | readInbound => rfl

/-- Once sent, the FIN stays sent. -/
theorem fin_step (hvalid : connection.sender.stream.Valid) (hfin : connection.sender.fin = true) :
    (connection.step call).sender.fin = true := by
  apply sender_step_of_move (fun sender ↦ sender.fin = true) (fun _ h ↦ h) (fun _ h ↦ h) ?_ hvalid
  · cases call <;> exact hfin
  · exact fun _ _ _ h hmove ↦ fin_move h hmove

/-- With the outbound stream ended, writes that are empty or meet a full buffer add nothing to it. -/
theorem bytesWritten_of_ended (hvalid : connection.sender.stream.Valid)
    (hended : connection.sender.stream.inputEnded = true) {calls : List Call}
    (h : Admissible step NothingAfterEnd connection calls) :
    (run step connection calls).sender.stream.bytesWritten = connection.sender.stream.bytesWritten := by
  suffices hall : (run step connection calls).sender.stream.Valid ∧
      (run step connection calls).sender.stream.inputEnded = true ∧
      (run step connection calls).sender.stream.bytesWritten =
        connection.sender.stream.bytesWritten from hall.2.2
  apply h.invariant fun after ↦ after.sender.stream.Valid ∧
    after.sender.stream.inputEnded = true ∧
    after.sender.stream.bytesWritten = connection.sender.stream.bytesWritten
  · rintro after call ⟨hafter, hstays, hsame⟩ hcall
    obtain ⟨hkept, hwritten, -⟩ := stream_step hafter call
    refine ⟨?_, hkept.trans ?_, hwritten.trans ?_⟩
    · exact sender_step_of_move (fun sender ↦ sender.stream.Valid) (fun _ h ↦ h)
        (fun _ h ↦ h.setError) (fun _ _ _ h hmove ↦ valid_move h hmove) hafter
        (valid_access hafter call)
    · cases call with
      | endInputStream => rfl
      | write | connect | segmentReceived | tick | readInbound => exact hstays
    · cases call with
      | write data =>
        change after.sender.stream.byteWritten + (after.sender.stream.write data).2 = _
        rw [ByteStream.write_snd_eq_zero_iff.mpr (hcall hstays)]
        exact hsame
      | endInputStream | connect | segmentReceived | tick | readInbound => exact hsame
  · exact ⟨hvalid, hended, rfl⟩

/-- Every FIN that the connection has sent has one and the same number, every byte that it has sent
comes before that number, and the count of bytes in flight is what is outstanding, in every run in
which no write adds a byte after the FIN has been sent.  And no byte is added to a stream that has
ended, neither to the outbound one nor to any other, as long as every write after the end is empty or
meets a full buffer. -/
theorem fin_is_final (cfg : TCPConfig) (randomIsn : WrappingInt32) (calls : List Call)
    (h : Admissible step NothingAfterFin (new cfg randomIsn) calls) :
    let final := run step (new cfg randomIsn) calls
    (∃ last, ∀ emission ∈ final.segmentsOut,
      emission.segment.header.seqno = wrap emission.absSeqno final.sender.isn ∧
      (emission.segment.header.fin = true →
        emission.absSeqno + emission.segment.lengthInSequenceSpace = last + 1) ∧
      (0 < emission.segment.payload.size →
        emission.absSeqno + emission.segment.header.syn.toNat + emission.segment.payload.size ≤
          last)) ∧
    final.sender.bytesInFlight = (final.sender.outstandingSegment.map entryLength).sum ∧
    (∀ before after, calls = before ++ after →
      (run step (new cfg randomIsn) before).sender.stream.inputEnded = true →
      Admissible step NothingAfterEnd (run step (new cfg randomIsn) before) after →
      final.sender.stream.bytesWritten =
        (run step (new cfg randomIsn) before).sender.stream.bytesWritten) ∧
    ∀ (stream : ByteStream) operations, stream.inputEnded = true →
      Admissible ByteStream.step (fun stream operation ↦ stream.inputEnded = true →
        stream.WritesNothing operation) stream operations →
      (run ByteStream.step stream operations).bytesWritten = stream.bytesWritten := by
  intro final
  have hinvariant (calls : List Call)
      (h : Admissible step NothingAfterFin (new cfg randomIsn) calls) : (∃ accepted,
      Emits (cfg.fixedIsn.getD randomIsn) accepted (run step (new cfg randomIsn) calls)) ∧
        (run step (new cfg randomIsn) calls).Concludes := by
    apply h.invariant (fun connection ↦ (∃ accepted,
      Emits (cfg.fixedIsn.getD randomIsn) accepted connection) ∧ connection.Concludes)
    · intro connection call hbefore hcall
      obtain ⟨⟨accepted, hemits⟩, hconcludes⟩ := hbefore
      exact ⟨⟨_, hemits.step call⟩, hconcludes.step hcall⟩
    · exact ⟨⟨[], emits_new cfg randomIsn⟩, concludes_new cfg randomIsn⟩
  obtain ⟨⟨accepted, hemits⟩, hconcludes⟩ := hinvariant calls h
  refine ⟨⟨accepted.length + 1, fun emission hemission ↦ ⟨?_, fun hset ↦ ?_, fun hsome ↦ ?_⟩⟩,
    hconcludes.sequenced.inFlight, fun before after heq hended hafter ↦ ?_,
    fun _ _ ↦ ByteStream.bytesWritten_of_ended⟩
  · rw [hemits.slices.isn_eq]
    exact (hemits.sent emission hemission).seqno
  · obtain ⟨hfin, hlast⟩ := hconcludes.sent emission hemission hset
    rw [hlast, hconcludes.sequenced.next_of_fin hfin, hemits.slices.written]
  · exact (hemits.sent emission hemission).payload_le hsome
  · rw [heq, admissible_append] at h
    have hvalid := (hinvariant before h.1).2.sequenced.valid
    change (run step (new cfg randomIsn) calls).sender.stream.bytesWritten = _
    rw [heq, run_append]
    exact bytesWritten_of_ended hvalid hended hafter

/-- A stream of three bytes, a FIN, and a write of nothing after it. -/
theorem fin_is_final_three_bytes :
    let before : List Call := [.connect, .segmentReceived
      { header := { seqno := ⟨100⟩, ackno := ⟨1⟩, syn := true, ack := true, win := 10 } },
      .write [97, 98, 99], .endInputStream]
    let final := run step (new { fixedIsn := some ⟨0⟩ } ⟨7⟩) (before ++ [.write []])
    Admissible step NothingAfterFin (new { fixedIsn := some ⟨0⟩ } ⟨7⟩) (before ++ [.write []]) ∧
      final.sender.fin = true ∧
      final.sender.bytesInFlight = (final.sender.outstandingSegment.map entryLength).sum ∧
      final.sender.stream.bytesWritten =
        (run step (new { fixedIsn := some ⟨0⟩ } ⟨7⟩) before).sender.stream.bytesWritten := by
  intro before final
  have h : Admissible step NothingAfterFin (new { fixedIsn := some ⟨0⟩ } ⟨7⟩)
      (before ++ [.write []]) := by
    decide +kernel
  obtain ⟨-, hinFlight, hwritten, -⟩ := fin_is_final { fixedIsn := some ⟨0⟩ } ⟨7⟩ _ h
  exact ⟨h, by decide +kernel, hinFlight,
    hwritten before [.write []] rfl (by decide +kernel) (by decide +kernel)⟩

/-- A byte written after the FIN has been sent takes the number of the FIN, and a second FIN follows
it.  The second segment is not remembered, so two of the three bytes in flight are never taken off. -/
theorem late_write_moves_fin :
    let calls : List Call := [.connect, .segmentReceived
      { header := { seqno := ⟨100⟩, ackno := ⟨1⟩, syn := true, ack := true, win := 10 } },
      .endInputStream, .write [120]]
    let final := run step (new { fixedIsn := some ⟨0⟩ } ⟨7⟩) calls
    (∃ first ∈ final.segmentsOut, ∃ second ∈ final.segmentsOut,
      first.segment.header.fin = true ∧ first.segment.header.seqno = ⟨1⟩ ∧
      first.absSeqno + first.segment.lengthInSequenceSpace = 2 ∧
      second.segment.header.fin = true ∧ second.segment.header.seqno = ⟨1⟩ ∧
      second.segment.payload.str = [120] ∧
      second.absSeqno + second.segment.lengthInSequenceSpace = 3) ∧
    final.sender.bytesInFlight = 3 ∧
      (final.sender.outstandingSegment.map entryLength).sum = 1 := by
  decide +kernel

/-! ## Acknowledgments -/

/-- Every acknowledgment that was sent is at most the present one. -/
structure Acknowledges (isn : WrappingInt32) (connection : TCPConnection) : Prop where
  valid : connection.sender.stream.Valid
  plain : connection.sender.Carries fun _ segment ↦ segment.header.ack = false
  numbered : ∀ number, connection.receiver.isn = some number → number = isn
  sent : ∀ emission ∈ connection.segmentsOut, emission.segment.header.ack = true →
    emission.segment.header.ackno = wrap emission.absAckno isn ∧
      emission.absAckno ≤ connection.receiver.absAckno

theorem Acknowledges.setSegment (h : Acknowledges isn connection)
    (hplain : emission.segment.header.ack = false)
    (hack : (connection.setSegment emission).segment.header.ack = true) :
    (connection.setSegment emission).segment.header.ackno =
        wrap (connection.setSegment emission).absAckno isn ∧
      (connection.setSegment emission).absAckno ≤ connection.receiver.absAckno := by
  cases setSegment_cases connection emission with
  | inl hreset =>
    obtain ⟨rst, heq⟩ := hreset
    rw [heq] at hack
    exact absurd (hplain.symm.trans hack) Bool.false_ne_true
  | inr hset =>
    obtain ⟨number, win, hisn, heq⟩ := hset
    rw [heq, h.numbered number hisn]
    exact ⟨rfl, le_rfl⟩

theorem settles_acknowledges : Settles (Acknowledges isn) where
  collect _ h := ⟨h.valid, h.plain.drain, h.numbered, forall_collectOutput h.sent
    fun emission hemission ↦ h.setSegment (h.plain.emitted emission hemission)⟩
  shutdown _ h := ⟨h.valid.setError,
    ⟨h.plain.outstanding, h.plain.emitted⟩, h.numbered, h.sent⟩
  bare _ h := ⟨h.valid, h.plain.move .bare (fun _ _ _ hnext ↦ hnext.ack) rfl, h.numbered, h.sent⟩
  record _ _ _ _ h := ⟨h.valid, h.plain, h.numbered, h.sent⟩
  close _ _ h _ _ := ⟨h.valid, h.plain, h.numbered, h.sent⟩

theorem acknowledges_new (isn : WrappingInt32) (cfg : TCPConfig) (randomIsn : WrappingInt32) :
    Acknowledges isn (new cfg randomIsn) where
  valid := ByteStream.valid_new _
  plain := ⟨by simp [new, TCPSender.new], by simp [new, TCPSender.new]⟩
  numbered := by simp [new, TCPReceiver.new]
  sent := by simp [new]

/-- The acknowledgment numbers go up as the receiver does. -/
theorem Acknowledges.step (h : Acknowledges isn connection)
    (hreceive : ∀ segment, call = .segmentReceived segment →
      (∀ number, (connection.receiver.segmentReceived segment).1.isn = some number → number = isn) ∧
        connection.receiver.absAckno ≤ (connection.receiver.segmentReceived segment).1.absAckno) :
    Acknowledges isn (connection.step call) := by
  apply settles_acknowledges.step_of_moves
  · exact fun _ hbefore ↦ hbefore.valid
  · intro before after hbefore hmoves
    apply hmoves.invariant (fun sender ↦ Acknowledges isn { before with sender }) ?_ hbefore
    intro sender next hsender hmove
    exact ⟨valid_move hsender.valid hmove, hsender.plain.move hmove (fun _ _ _ hnext ↦ hnext.ack) rfl,
      hsender.numbered, hsender.sent⟩
  · intro segment hcall hbefore
    obtain ⟨hnumbered, hle⟩ := hreceive segment hcall
    refine ⟨hbefore.valid, hbefore.plain, hnumbered, fun emission hemission hack ↦ ?_⟩
    obtain ⟨hackno, hpast⟩ := hbefore.sent emission hemission hack
    exact ⟨hackno, hpast.trans hle⟩
  · cases call with
    | write data => exact ⟨h.valid.write data, ⟨h.plain.outstanding, h.plain.emitted⟩, h.numbered,
        h.sent⟩
    | endInputStream => exact ⟨h.valid.endInput,
        ⟨h.plain.outstanding, h.plain.emitted⟩, h.numbered, h.sent⟩
    | connect | segmentReceived | tick | readInbound =>
      exact ⟨h.valid, h.plain, h.numbered, h.sent⟩

/-- The sender's acknowledgment number changes only to one that a segment brings. -/
theorem ackno_step_le {bound : ℕ} (hvalid : connection.sender.stream.Valid)
    (h : connection.sender.ackno ≤ bound)
    (hack : ∀ segment, call = .segmentReceived segment → segment.header.ack = true →
      unwrap segment.header.ackno connection.sender.isn connection.sender.ackno ≤ bound) :
    (connection.step call).sender.ackno ≤ bound := by
  apply sender_step (fun sender ↦ sender.ackno ≤ bound)
    ⟨fun _ h ↦ h, fun _ h ↦ h, fun _ h ↦ h⟩ h
  · rw [ackno_fillWindow (valid_access hvalid call)]
    cases call <;> exact h
  · intro segment heq hprocessed
    cases ackno_ackReceived hvalid segment.header.ackno segment.header.win with
    | inl hsame => exact hsame.trans_le h
    | inr hnew => exact hnew.trans_le (hack segment heq hprocessed.2.2.1)
  · intro msSinceLastTick _
    obtain ⟨_, _, _, _, heq⟩ := tick_frame connection.sender msSinceLastTick
    rw [heq]
    exact h

/-! ## The receiver -/

/-- The receiver changes only when the owner reads, when a segment comes in and when the connection is
reset. -/
theorem receiver_step (property : TCPReceiver → Prop)
    (hreset : ∀ receiver, property receiver → property { receiver with
      reassembler := { receiver.reassembler with
        output := receiver.reassembler.output.setError } })
    (hreceive : ∀ segment, call = .segmentReceived segment → property connection.receiver →
      property (connection.receiver.segmentReceived segment).1)
    (h : property (connection.access call).receiver) :
    property (connection.step call).receiver := by
  have hsettles : Settles fun connection ↦ property connection.receiver :=
    ⟨fun _ h ↦ h, fun _ h ↦ hreset _ h, fun _ h ↦ h, fun _ _ _ _ h ↦ h, fun _ _ h _ _ ↦ h⟩
  cases call with
  | connect =>
    apply hsettles.step
    unfold perform
    split_ifs <;> exact h
  | write | endInputStream | tick | readInbound => exact hsettles.step h
  | segmentReceived segment =>
    have hreceived := hreceive segment rfl h
    exact hsettles.segmentReceived h (fun _ _ ↦ hreceived) (fun _ _ ↦ hreceived)
      fun _ ↦ hreceived

end Sponge.TCPConnection
