import Sponge.TCP.Phases

/-!
# Replies

What a connection sends when a segment arrives.  A segment that occupies sequence numbers is always
answered, and every answer tells the peer the acknowledgment number and the window of the receiver.  A
bare segment is answered only if it is refused, or if it makes room for something new.  Before its SYN
nothing of a peer is heard at all.

The results are about all runs, including those in which the owner goes on writing after the end of
its stream.
-/

namespace Sponge

open Execution

namespace TCPSender

variable {sender : TCPSender}

/-- An acknowledgment makes the sender send only segments that occupy sequence numbers. -/
theorem queued_ackReceived (hvalid : sender.stream.Valid) (ackno : WrappingInt32)
    (windowSize : UInt16) :
    ∀ emission ∈ (sender.ackReceived ackno windowSize).1.segmentsOut,
      emission ∈ sender.segmentsOut ∨ 0 < emission.segment.lengthInSequenceSpace := by
  rcases ackReceived_cases sender ackno windowSize with heq | heq | ⟨-, -, heq⟩
  · rw [heq]
    exact fun _ hold ↦ .inl hold
  · rw [heq]
    exact fun _ hold ↦ .inl hold
  · set acknowledged := { sender with windowSize }.acknowledge
      (unwrap ackno sender.isn sender.ackno) with hacknowledged
    have hsame : acknowledged.segmentsOut = sender.segmentsOut ∧ acknowledged.stream.Valid := by
      obtain ⟨bytes, hpopped, -⟩ := acknowledge_eq { sender with windowSize }
        (unwrap ackno sender.isn sender.ackno)
      rw [hacknowledged, hpopped]
      exact ⟨rfl, hvalid⟩
    have hrule := fillWindow_rule (fun after _ ↦ ∀ emission ∈ after.segmentsOut,
        emission ∈ sender.segmentsOut ∨ 0 < emission.segment.lengthInSequenceSpace) ?_ hsame.2
      (fun _ hold ↦ .inl (hsame.1 ▸ hold))
    · obtain ⟨_, hqueued, -⟩ := hrule
      rw [heq]
      dsimp only [advanced, restartTimer]
      exact hqueued
    · intro after room segment hstream hafter hroom hwants hnext _ emission hemission
      cases List.mem_append.mp hemission with
      | inl hold => exact hafter emission hold
      | inr hnew =>
        rw [List.mem_singleton.mp hnew]
        exact .inr (hnext.length_pos hstream hroom hwants)

theorem tries_ackReceived (hvalid : sender.stream.Valid)
    (htries : sender.consecutiveRetransmissions ≤ TCPConfig.maxRetxAttempts) (ackno : WrappingInt32)
    (windowSize : UInt16) :
    (sender.ackReceived ackno windowSize).1.consecutiveRetransmissions ≤
      TCPConfig.maxRetxAttempts := by
  rcases ackReceived_cases sender ackno windowSize with heq | heq | ⟨-, -, heq⟩
  · rw [heq]
    exact htries
  · rw [heq]
    exact htries
  · rw [heq, (advanced_frame hvalid windowSize _).2.2.1]
    exact UInt32.zero_le

/-- An acknowledgment of something that has been sent is not refused. -/
theorem ackReceived_of_le {ackno : WrappingInt32} {windowSize : UInt16}
    (h : unwrap ackno sender.isn sender.ackno ≤ sender.nextSeqno) :
    (sender.ackReceived ackno windowSize).2 = true := by
  unfold ackReceived
  rw [if_neg (not_lt.mpr h)]
  split_ifs <;> rfl

/-- A sender that has not sent anything sends its SYN. -/
theorem queue_fillWindow_of_closed (hvalid : sender.stream.Valid) (hclosed : sender.closed = true) :
    sender.fillWindow.segmentsOut ≠ [] := by
  have hnext : sender.nextSeqno = 0 := by simpa [closed] using hclosed
  have hroom : 0 < sender.ackno + sender.effectiveWindow - sender.nextSeqno := by
    rw [effectiveWindow_eq, hnext]
    omega
  obtain ⟨left, hqueue, hdone⟩ := fillWindow_rule
    (fun after left ↦ after = sender ∧ 0 < left ∨ after.segmentsOut ≠ [])
    (fun _ _ _ _ _ _ _ _ _ ↦ .inr (by simp [sent, pushSegment])) hvalid (.inl ⟨rfl, hroom⟩)
  cases hqueue with
  | inr hqueued => exact hqueued
  | inl hsame =>
    -- The loop does not end here: there is room, and the SYN is waiting.
    cases hdone with
    | inl hzero => exact absurd hzero hsame.2.ne'
    | inr hnothing => simp [hsame.1, wantsToSend, hclosed] at hnothing

/-! ## Before the first acknowledgment -/

/-- The sender has not heard of its peer.  Its window has room for the SYN only. -/
structure Opening (sender : TCPSender) : Prop where
  ackno : sender.ackno = 0
  window : sender.windowSize = 1
  flying : sender.bytesInFlight = sender.nextSeqno
  next : sender.nextSeqno = 0 ∧ sender.firstUnsent = 0 ∨ sender.nextSeqno = 1

theorem opening_new (capacity : ℕ) (retxTimeout : UInt16) (fixedIsn : Option WrappingInt32)
    (randomIsn : WrappingInt32) : (new capacity retxTimeout fixedIsn randomIsn).Opening :=
  ⟨rfl, rfl, rfl, .inl ⟨rfl, rfl⟩⟩

theorem Opening.synSent (h : sender.Opening) (hclosed : sender.closed = false) :
    sender.synSent = true := by
  have hnext : sender.nextSeqno ≠ 0 := by simpa [closed] using hclosed
  simp [TCPSender.synSent, h.flying, Nat.pos_of_ne_zero hnext]

theorem Opening.fillWindow (h : sender.Opening) (hvalid : sender.stream.Valid) :
    sender.fillWindow.Opening := by
  have hroom : sender.ackno + sender.effectiveWindow = 1 := by
    rw [effectiveWindow_eq, h.ackno, h.window]
    rfl
  have hstart : sender.nextSeqno + (sender.ackno + sender.effectiveWindow - sender.nextSeqno) ≤ 1 := by
    have hnext := h.next
    omega
  have hrule := fillWindow_rule (fun after left ↦ after.Opening ∧ after.nextSeqno + left ≤ 1) ?_
    hvalid ⟨h, hstart⟩
  · obtain ⟨_, hafter, -⟩ := hrule
    exact hafter.1
  · intro before left segment hstream hbefore hleft hwants hnext hfits
    have hpositive := hnext.length_pos hstream hleft hwants
    obtain ⟨hopening, htotal⟩ := hbefore
    have hlength : segment.lengthInSequenceSpace = 1 := by omega
    have hunsent : before.firstUnsent = 0 := by
      cases hopening.next with
      | inl hnothing => exact hnothing.2
      | inr hsyn => omega
    have hsent : (before.sent segment).nextSeqno = 1 := by
      change before.firstUnsent + segment.lengthInSequenceSpace = 1
      rw [hunsent, hlength]
    refine ⟨⟨hopening.ackno, hopening.window, ?_, .inr hsent⟩, by omega⟩
    change before.bytesInFlight + segment.lengthInSequenceSpace = _
    rw [hsent, hopening.flying]
    omega

end TCPSender

namespace TCPConnection

variable {connection : TCPConnection} {call : Call} {segment : TCPSegment}

/-! ## Between the calls -/

/-- A call that has not retransmitted too often sends what its main effect has queued. -/
theorem testEnd_collectOutput
    (h : connection.sender.consecutiveRetransmissions ≤ TCPConfig.maxRetxAttempts) :
    ∃ lingerAfterStreamsFinish isClearShutdown, connection.collectOutput.testEnd =
      { connection.collectOutput with lingerAfterStreamsFinish, isClearShutdown } := by
  have hstays : connection.collectOutput.giveUp = connection.collectOutput := giveUp_of_le h
  obtain ⟨linger, clear, heq⟩ := testEnd_eq connection.collectOutput
  exact ⟨linger, clear, by rw [heq, hstays]⟩

theorem tries_testEnd (h : connection.testEnd.isUnclearShutdown = false) :
    connection.testEnd.sender.consecutiveRetransmissions ≤ TCPConfig.maxRetxAttempts := by
  have htries := tries_le_of_testEnd h
  obtain ⟨_, _, heq⟩ := testEnd_eq connection
  rw [heq, giveUp_of_le htries]
  exact htries

/-- What holds of a connection between its calls, whatever its owner does. -/
structure Ready (connection : TCPConnection) : Prop where
  valid : connection.sender.stream.Valid
  drained : connection.sender.segmentsOut = []
  tries_le : connection.isUnclearShutdown = false →
    connection.sender.consecutiveRetransmissions ≤ TCPConfig.maxRetxAttempts
  opening : connection.receiver.isn = none → connection.sender.Opening

theorem ready_new (cfg : TCPConfig) (randomIsn : WrappingInt32) : (new cfg randomIsn).Ready where
  valid := ByteStream.valid_new _
  drained := rfl
  tries_le _ := Nat.zero_le _
  opening _ := TCPSender.opening_new _ _ _ _

/-- A connection that goes on has not tried too often. -/
theorem tries_step (hvalid : connection.sender.stream.Valid)
    (h : connection.isUnclearShutdown = false →
      connection.sender.consecutiveRetransmissions ≤ TCPConfig.maxRetxAttempts)
    (hclear : (connection.step call).isUnclearShutdown = false) :
    (connection.step call).sender.consecutiveRetransmissions ≤ TCPConfig.maxRetxAttempts := by
  cases call with
  | connect =>
    change connection.connect.isUnclearShutdown = false at hclear
    change connection.connect.sender.consecutiveRetransmissions ≤ _
    unfold connect at hclear ⊢
    split_ifs at hclear ⊢
    · exact (TCPSender.fillWindow_frame hvalid).2.2.1.trans_le (h hclear)
    · exact h hclear
  | readInbound len => exact h hclear
  | write | endInputStream | segmentReceived | tick => exact tries_testEnd hclear

/-- Until the peer has been heard, the window has room for the SYN only. -/
theorem opening_step (hvalid : connection.sender.stream.Valid)
    (h : connection.receiver.isn = none → connection.sender.Opening) :
    (connection.step call).receiver.isn = none → (connection.step call).sender.Opening := by
  apply unheard_rule TCPSender.Opening
  · exact ⟨fun _ h ↦ ⟨h.ackno, h.window, h.flying, h.next⟩,
      fun _ h ↦ ⟨h.ackno, h.window, h.flying, h.next⟩,
      fun _ h ↦ ⟨h.ackno, h.window, h.flying, h.next⟩⟩
  · exact h
  · exact fun hnone ↦ (h hnone).synSent
  · intro hnone
    have haccess : (connection.access call).sender.Opening := by
      have hopening := h hnone
      cases call <;> exact ⟨hopening.ackno, hopening.window, hopening.flying, hopening.next⟩
    exact haccess.fillWindow (valid_access hvalid call)
  · intro hnone msSinceLastTick
    obtain ⟨_, _, _, _, heq⟩ := TCPSender.tick_frame connection.sender msSinceLastTick
    have hopening := h hnone
    rw [heq]
    exact ⟨hopening.ackno, hopening.window, hopening.flying, hopening.next⟩

theorem Ready.step (h : connection.Ready) (call : Call) : (connection.step call).Ready where
  valid := sender_step_of_move (fun sender ↦ sender.stream.Valid) (fun _ h ↦ h)
    (fun _ h ↦ h.setError) (fun _ _ _ h hmove ↦ TCPSender.valid_move h hmove) h.valid
    (valid_access h.valid call)
  drained := drained_step h.drained call
  tries_le := tries_step h.valid h.tries_le
  opening := opening_step h.valid h.opening

/-- Every connection is ready between its calls. -/
theorem ready_run (cfg : TCPConfig) (randomIsn : WrappingInt32) (calls : List Call) :
    (run step (new cfg randomIsn) calls).Ready :=
  run_invariant Ready (fun _ call h ↦ h.step call) (ready_new cfg randomIsn)

/-! ## Bare segments -/

/-- The connection takes the bare segment, or ignores it while it waits for a SYN. -/
def TakesBare (connection : TCPConnection) (segment : TCPSegment) : Prop :=
  { connection with receiver := (connection.receiver.segmentReceived segment).1 }.synSent = true ∧
      (connection.receiver.segmentReceived segment).2 = false ∨
    (connection.receiver.segmentReceived segment).2 = true ∧
      (segment.header.ack = true →
        (connection.sender.ackReceived segment.header.ackno segment.header.win).2 = true)

theorem perform_bare (hvalid : connection.sender.stream.Valid)
    (hdrained : connection.sender.segmentsOut = [])
    (htries : connection.sender.consecutiveRetransmissions ≤ TCPConfig.maxRetxAttempts)
    (hbare : segment.lengthInSequenceSpace = 0)
    (htakes : connection.listen = false → segment.header.rst = false →
      connection.TakesBare segment) :
    (connection.perform (.segmentReceived segment)).segmentsOut = connection.segmentsOut ∧
      (connection.perform (.segmentReceived segment)).sender.consecutiveRetransmissions ≤
        TCPConfig.maxRetxAttempts ∧
      ∀ emission ∈ (connection.perform (.segmentReceived segment)).sender.segmentsOut,
        0 < emission.segment.lengthInSequenceSpace := by
  have hnone : ∀ emission ∈ connection.sender.segmentsOut,
      0 < emission.segment.lengthInSequenceSpace := by simp [hdrained]
  have hsyn := (TCPSegment.flags_of_length_eq_zero hbare).1
  unfold perform segmentReceiveRoute
  dsimp only
  split_ifs with hlisten hopens hrst hrefused
  · exact absurd (hsyn.symm.trans hopens) Bool.false_ne_true
  · exact ⟨rfl, htries, hnone⟩
  · exact ⟨rfl, htries, hnone⟩
  · exact ⟨rfl, htries, hnone⟩
  · cases htakes (Bool.eq_false_iff.mpr hlisten) (Bool.eq_false_iff.mpr hrst) with
    | inl hignored =>
      refine absurd (Bool.and_eq_true_iff.mpr ⟨hignored.1, ?_⟩) hrefused
      rw [Bool.not_eq_true']
      exact hignored.2
    | inr htaken =>
      unfold acknowledgeAndReply processAck
      dsimp only
      by_cases hack : segment.header.ack = true
      · rw [if_pos hack, htaken.1, htaken.2 hack, hbare]
        refine ⟨rfl, TCPSender.tries_ackReceived hvalid htries _ _, fun emission hemission ↦ ?_⟩
        cases TCPSender.queued_ackReceived hvalid _ _ emission hemission with
        | inl hold => exact hnone emission hold
        | inr hnew => exact hnew
      · rw [if_neg hack, htaken.1, hbare]
        exact ⟨rfl, htries, hnone⟩

/-- A bare segment that the connection takes is not answered with a bare segment. -/
theorem silent_on_bare (hvalid : connection.sender.stream.Valid)
    (hdrained : connection.sender.segmentsOut = [])
    (htries : connection.sender.consecutiveRetransmissions ≤ TCPConfig.maxRetxAttempts)
    (hbare : segment.lengthInSequenceSpace = 0)
    (htakes : connection.listen = false → segment.header.rst = false →
      connection.TakesBare segment) :
    ∃ appended, (connection.step (.segmentReceived segment)).segmentsOut =
        connection.segmentsOut ++ appended ∧
      ∀ emission ∈ appended, 0 < emission.segment.lengthInSequenceSpace := by
  obtain ⟨hsame, hfew, hqueued⟩ := perform_bare hvalid hdrained htries hbare htakes
  set performed := connection.perform (.segmentReceived segment) with hperformed
  refine ⟨performed.sender.segmentsOut.map performed.setSegment, ?_, fun emission hemission ↦ ?_⟩
  · change performed.collectOutput.testEnd.segmentsOut = _
    obtain ⟨_, _, heq⟩ := testEnd_collectOutput hfew
    rw [heq, ← hsame]
    rfl
  · obtain ⟨queued, hmem, rfl⟩ := List.mem_map.mp hemission
    rw [(place_setSegment performed queued).2.2]
    exact hqueued queued hmem

/-! ## Segments that occupy sequence numbers -/

/-- The segment tells the peer the acknowledgment number and the window of the receiver. -/
structure Informs (receiver : TCPReceiver) (segment : TCPSegment) : Prop where
  ack : segment.header.ack = true
  ackno : receiver.ackno = some segment.header.ackno
  win : segment.header.win.toNat = min receiver.windowSize 65535

/-- What a connection sends tells of its receiver. -/
theorem informs_setSegment (emission : Emission) (hclear : connection.isUnclearShutdown = false)
    (hopen : connection.receiver.isn.isSome = true) :
    Informs connection.receiver (connection.setSegment emission).segment := by
  refine ⟨?_, ?_, TCPReceiver.win_setSegment connection emission hclear hopen⟩
  all_goals
    obtain ⟨isn, hisn⟩ := Option.isSome_iff_exists.mp hopen
    simp [setSegment, hclear, TCPReceiver.ackno, hisn]

/-- What the main effect of a call has to leave behind for the call to answer. -/
structure Replying (start connection : TCPConnection) : Prop where
  clear : connection.isUnclearShutdown = false
  tries_le : connection.sender.consecutiveRetransmissions ≤ TCPConfig.maxRetxAttempts
  heard : connection.receiver.isn.isSome = true
  queued : connection.sender.segmentsOut ≠ []
  unsent : connection.segmentsOut = start.segmentsOut

theorem Replying.settle {start : TCPConnection} (h : Replying start connection) :
    ∃ appended, appended ≠ [] ∧
      connection.collectOutput.testEnd.segmentsOut = start.segmentsOut ++ appended ∧
      ∀ emission ∈ appended,
        Informs connection.collectOutput.testEnd.receiver emission.segment := by
  obtain ⟨_, _, heq⟩ := testEnd_collectOutput h.tries_le
  refine ⟨connection.sender.segmentsOut.map connection.setSegment, by simpa using h.queued, ?_, ?_⟩
  · rw [heq, ← h.unsent]
    rfl
  · intro emission hemission
    obtain ⟨queued, -, rfl⟩ := List.mem_map.mp hemission
    rw [heq]
    exact informs_setSegment queued h.clear h.heard

theorem queue_acknowledgeAndReply (hlength : 0 < segment.lengthInSequenceSpace) (refused : Bool) :
    (connection.acknowledgeAndReply segment refused).sender.segmentsOut ≠ [] := by
  unfold acknowledgeAndReply
  simp only [hlength, decide_true, Bool.or_true, Bool.true_and]
  split_ifs with hempty
  · simp [TCPSender.sendEmptySegment]
  · simpa using hempty

theorem tries_acknowledgeAndReply (hvalid : connection.sender.stream.Valid)
    (h : connection.sender.consecutiveRetransmissions ≤ TCPConfig.maxRetxAttempts)
    (refused : Bool) :
    (connection.acknowledgeAndReply segment refused).sender.consecutiveRetransmissions ≤
      TCPConfig.maxRetxAttempts := by
  have hprocessed : (connection.processAck segment).1.consecutiveRetransmissions ≤
      TCPConfig.maxRetxAttempts := by
    cases processAck_cases connection segment with
    | inl hsame =>
      rw [hsame]
      exact h
    | inr hacked =>
      rw [hacked.2]
      exact TCPSender.tries_ackReceived hvalid h _ _
  unfold acknowledgeAndReply
  dsimp only
  split_ifs <;> exact hprocessed

/-- The receiver hears a SYN, or has heard one before. -/
theorem isSome_isn_segmentReceived
    (h : segment.header.syn = true ∨ connection.receiver.isn.isSome = true) :
    (connection.receiver.segmentReceived segment).1.isn.isSome = true := by
  rw [← Option.isNone_eq_false_iff, Bool.eq_false_iff, Ne, Option.isNone_iff_eq_none]
  intro hnone
  rw [TCPReceiver.isn_segmentReceived] at hnone
  split_ifs at hnone with hopens
  have hlisten : connection.receiver.listen = true := by
    simp [TCPReceiver.listen, TCPReceiver.ackno, hnone]
  cases h with
  | inl hsyn => simp [hsyn, hlisten] at hopens
  | inr hsome => simp [hnone] at hsome

/-- A segment that occupies sequence numbers is answered. -/
theorem Ready.perform_replying (h : connection.Ready) (hclear : connection.isUnclearShutdown = false)
    (hrst : segment.header.rst = false) (hlength : 0 < segment.lengthInSequenceSpace)
    (hheeded : segment.header.syn = true ∨ connection.receiver.isn.isSome = true) :
    Replying connection (connection.perform (.segmentReceived segment)) := by
  have htries := h.tries_le hclear
  have hheard := isSome_isn_segmentReceived hheeded
  unfold perform segmentReceiveRoute
  dsimp only
  split_ifs with hlisten hsyn hreset hrefused
  · exact ⟨hclear, (TCPSender.fillWindow_frame h.valid).2.2.1.trans_le htries, hheard,
      TCPSender.queue_fillWindow_of_closed h.valid (Bool.and_eq_true_iff.mp hlisten).2, rfl⟩
  · -- A listening connection has not heard a SYN, so the segment has to bring one.
    have hnone : connection.receiver.isn.isSome = false := by
      have hwaits := (Bool.and_eq_true_iff.mp hlisten).1
      simpa [TCPReceiver.listen, TCPReceiver.ackno] using hwaits
    exact absurd (hheeded.resolve_right (Bool.eq_false_iff.mp hnone)) hsyn
  · exact absurd (hrst.symm.trans hreset) Bool.false_ne_true
  · have hwaits := (Bool.and_eq_true_iff.mp (Bool.and_eq_true_iff.mp hrefused).1).1
    simp [TCPReceiver.listen, TCPReceiver.ackno, Option.isSome_iff_ne_none.mp hheard] at hwaits
  · exact ⟨hclear, tries_acknowledgeAndReply h.valid htries _, hheard,
      queue_acknowledgeAndReply hlength _, rfl⟩

/-! ## Segments that are ignored -/

/-- Before the SYN of the peer, other segments are ignored. -/
theorem Ready.perform_ignored (h : connection.Ready) (hrst : segment.header.rst = false)
    (hsyn : segment.header.syn = false) (hnone : connection.receiver.isn = none) :
    connection.perform (.segmentReceived segment) =
      { connection with timeWhenLastSegmentReceived := connection.nowTime } := by
  have hrefused : connection.receiver.segmentReceived segment = (connection.receiver, false) := by
    simp [TCPReceiver.segmentReceived, hsyn, TCPReceiver.acceptSegment, hnone]
  have hwaits : connection.receiver.listen = true := by
    simp [TCPReceiver.listen, TCPReceiver.ackno, hnone]
  unfold perform segmentReceiveRoute
  dsimp only
  rw [hrefused, hsyn, hrst]
  cases hclosed : connection.sender.closed with
  | true => simp [listen, hwaits, hclosed]
  | false => simp [listen, synSent, hwaits, hclosed, (h.opening hnone).synSent hclosed]

theorem Ready.ignores (h : connection.Ready) (hclear : connection.isUnclearShutdown = false)
    (hrst : segment.header.rst = false) (hsyn : segment.header.syn = false)
    (hnone : connection.receiver.isn = none) :
    (connection.step (.segmentReceived segment)).segmentsOut = connection.segmentsOut ∧
      (connection.step (.segmentReceived segment)).sender = connection.sender ∧
      (connection.step (.segmentReceived segment)).receiver = connection.receiver := by
  change (connection.perform (.segmentReceived segment)).collectOutput.testEnd.segmentsOut = _ ∧
    (connection.perform (.segmentReceived segment)).collectOutput.testEnd.sender = _ ∧
    (connection.perform (.segmentReceived segment)).collectOutput.testEnd.receiver = _
  rw [h.perform_ignored hrst hsyn hnone]
  set stamped : TCPConnection :=
    { connection with timeWhenLastSegmentReceived := connection.nowTime }
  have htries : stamped.sender.consecutiveRetransmissions ≤ TCPConfig.maxRetxAttempts :=
    h.tries_le hclear
  have hdrained : stamped.sender.segmentsOut = [] := h.drained
  have hcollect : stamped.collectOutput = stamped := by
    rw [collectOutput, hdrained, List.map_nil, List.append_nil, ← hdrained]
  obtain ⟨_, _, heq⟩ := testEnd_collectOutput htries
  rw [heq, hcollect]
  exact ⟨rfl, rfl, rfl⟩

/-! ## Runs -/

/-- In every run, a segment without RST that reaches an active connection is answered if it occupies
sequence numbers and is not ignored, and every answer carries the acknowledgment number and the window
of the receiver; a segment other than a SYN leaves no trace before the SYN has arrived; and a bare
segment that is taken is answered only with segments that occupy sequence numbers.  Between its calls
the connection leaves nothing in the queue of the sender. -/
theorem replies_to_segments (cfg : TCPConfig) (randomIsn : WrappingInt32) (calls : List Call)
    (segment : TCPSegment) :
    let final := run step (new cfg randomIsn) calls
    let after := final.segmentReceived segment
    final.sender.segmentsOut = [] ∧
      (final.active = true → segment.header.rst = false →
        (0 < segment.lengthInSequenceSpace →
          segment.header.syn = true ∨ final.receiver.isn.isSome = true →
          ∃ appended, appended ≠ [] ∧ after.segmentsOut = final.segmentsOut ++ appended ∧
            ∀ emission ∈ appended, Informs after.receiver emission.segment) ∧
        (segment.header.syn = false → final.receiver.isn = none →
          after.segmentsOut = final.segmentsOut ∧ after.sender = final.sender ∧
            after.receiver = final.receiver) ∧
        (segment.lengthInSequenceSpace = 0 → (final.receiver.segmentReceived segment).2 = true →
          (segment.header.ack = true →
            unwrap segment.header.ackno final.sender.isn final.sender.ackno ≤
              final.sender.nextSeqno) →
          ∃ appended, after.segmentsOut = final.segmentsOut ++ appended ∧
            ∀ emission ∈ appended, 0 < emission.segment.lengthInSequenceSpace)) := by
  intro final after
  have hready : final.Ready := ready_run cfg randomIsn calls
  refine ⟨hready.drained, fun hactive hrst ↦ ?_⟩
  have hclear := isUnclearShutdown_of_active hactive
  refine ⟨fun hlength hheeded ↦ ?_, fun hsyn hnone ↦ ?_, fun hbare htaken hack ↦ ?_⟩
  · exact (hready.perform_replying hclear hrst hlength hheeded).settle
  · exact hready.ignores hclear hrst hsyn hnone
  · refine silent_on_bare hready.valid hready.drained (hready.tries_le hclear) hbare fun _ _ ↦ ?_
    exact .inr ⟨htaken, fun hset ↦ TCPSender.ackReceived_of_le (hack hset)⟩

/-- One byte arrives after the handshake. -/
theorem replies_to_segments_one_byte :
    let segment : TCPSegment := { header := { seqno := ⟨101⟩ }, payload := .ofString [97] }
    let final := run step (new { fixedIsn := some ⟨0⟩ } ⟨7⟩) [.connect, .segmentReceived
      { header := { seqno := ⟨100⟩, ackno := ⟨1⟩, syn := true, ack := true, win := 10 } }]
    let after := final.segmentReceived segment
    final.active = true ∧ after.receiver.ackno = some ⟨102⟩ ∧
      ∃ appended, appended ≠ [] ∧ after.segmentsOut = final.segmentsOut ++ appended ∧
        ∀ emission ∈ appended, Informs after.receiver emission.segment := by
  intro segment final after
  have hactive : final.active = true := by decide +kernel
  obtain ⟨-, hreplies⟩ := replies_to_segments { fixedIsn := some ⟨0⟩ } ⟨7⟩ [.connect,
    .segmentReceived
      { header := { seqno := ⟨100⟩, ackno := ⟨1⟩, syn := true, ack := true, win := 10 } }] segment
  obtain ⟨hreply, -, -⟩ := hreplies hactive rfl
  exact ⟨hactive, by decide +kernel, hreply (by decide) (.inr (by decide +kernel))⟩

end TCPConnection

end Sponge
