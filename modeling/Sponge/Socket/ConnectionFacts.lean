import Sponge.TCP.Phases
import Sponge.Wire.FdAdapter

/-!
# What every call of a connection keeps

A socket calls the functions of its connection in whatever order the event loop dictates, and with whatever
segments come in.  The facts of this file hold for every call and every segment: both streams are in
order, all segments can be sent by an adapter, segments are only added to the queue, and what has been put
into the inbound stream stays there until the owner reads it.
-/

namespace Sponge

/-! ## Segments that the sender makes -/

namespace TCPSender

variable {sender : TCPSender} {windowSize : ℕ} {segment : TCPSegment} {property : TCPSegment → Prop}

/-- The property holds of every segment that an iteration of the loop in `fillWindow` makes. -/
def Makes (property : TCPSegment → Prop) : Prop :=
  ∀ sender windowSize, sender.stream.Valid → 0 < windowSize →
    property (TCPSender.filled sender windowSize).segment

/-- An iteration sends the segment that it has made. -/
theorem fillOnce_made (hmakes : Makes property) (hvalid : sender.stream.Valid) (hwindow : 0 < windowSize) :
    ∃ segment, property segment ∧ (sender.fillOnce windowSize).1 = sender.sent segment := by
  obtain ⟨segment, -, -, hfilled⟩ := filled_spec hvalid hwindow
  have hmade := hmakes sender windowSize hvalid hwindow
  rw [hfilled] at hmade
  refine ⟨segment, hmade, ?_⟩
  rw [fillOnce_eq, hfilled]
  rfl

theorem Carries.emission (h : sender.Carries fun _ segment ↦ property segment)
    (hlast : property segment) (kind : Transmission) (absSeqno : ℕ) :
    ∀ emission ∈ sender.segmentsOut ++ [⟨segment, kind, absSeqno, 0⟩], property emission.segment := by
  intro emission hemission
  cases List.mem_append.mp hemission with
  | inl hold => exact h.emitted emission hold
  | inr heq =>
    rw [List.mem_singleton.mp heq]
    exact hlast

theorem Carries.sent (h : sender.Carries fun _ segment ↦ property segment) (hsegment : property segment) :
    (sender.sent segment).Carries fun _ segment ↦ property segment := by
  refine ⟨fun entry hentry ↦ ?_, h.emission hsegment _ _⟩
  cases OrderedKeys.mem_of_mem_insert hentry with
  | inl heq =>
    rw [heq]
    exact hsegment
  | inr hold => exact h.outstanding entry hold

theorem Carries.fillLoop (h : sender.Carries fun _ segment ↦ property segment) (hmakes : Makes property)
    (hvalid : sender.stream.Valid) (fuel : ℕ) :
    (TCPSender.fillLoop fuel sender windowSize).Carries fun _ segment ↦ property segment := by
  induction fuel generalizing sender windowSize with
  | zero => exact h
  | succ fuel ih =>
    unfold TCPSender.fillLoop
    split_ifs with hguard
    · obtain ⟨segment, hsegment, heq⟩ := fillOnce_made hmakes hvalid hguard.1
      rw [heq]
      exact ih (h.sent hsegment) (valid_sent hvalid segment)
    · exact h

theorem Carries.fillWindow (h : sender.Carries fun _ segment ↦ property segment)
    (hmakes : Makes property) (hvalid : sender.stream.Valid) :
    sender.fillWindow.Carries fun _ segment ↦ property segment := by
  unfold TCPSender.fillWindow
  split_ifs
  · exact h
  · exact h.fillLoop hmakes hvalid _

theorem Carries.ackReceived (h : sender.Carries fun _ segment ↦ property segment)
    (hmakes : Makes property) (hvalid : sender.stream.Valid) (ackno : WrappingInt32)
    (windowSize : UInt16) :
    (sender.ackReceived ackno windowSize).1.Carries fun _ segment ↦ property segment := by
  rcases ackReceived_cases sender ackno windowSize with heq | heq | ⟨-, -, heq⟩
  · rw [heq]
    exact h
  · rw [heq]
    exact ⟨h.outstanding, h.emitted⟩
  · obtain ⟨bytes, hacknowledge, -⟩ :=
      acknowledge_eq { sender with windowSize } (unwrap ackno sender.isn sender.ackno)
    have hfilled : ({ sender with windowSize }.acknowledge
        (unwrap ackno sender.isn sender.ackno)).fillWindow.Carries fun _ segment ↦ property segment := by
      rw [hacknowledge]
      refine Carries.fillWindow ⟨fun entry hentry ↦ ?_, h.emitted⟩ hmakes hvalid
      exact h.outstanding entry ((List.dropWhile_sublist _).subset hentry)
    rw [heq]
    exact ⟨hfilled.outstanding, hfilled.emitted⟩

/-- A tick sends again what is outstanding, so nothing is made. -/
theorem Carries.tick (h : sender.Carries fun _ segment ↦ property segment) (msSinceLastTick : ℕ) :
    (sender.tick msSinceLastTick).Carries fun _ segment ↦ property segment := by
  unfold TCPSender.tick
  dsimp only
  split
  · exact ⟨h.outstanding, h.emitted⟩
  · rename_i oldest rest hfront
    have hmem : oldest ∈ sender.outstandingSegment := by
      rw [hfront]
      exact List.mem_cons_self
    split_ifs
    · unfold retransmit
      dsimp only
      split_ifs
      · exact ⟨h.outstanding, h.emission (h.outstanding oldest hmem) _ _⟩
      · exact ⟨h.outstanding, h.emitted⟩
      · exact ⟨h.outstanding, h.emission (h.outstanding oldest hmem) _ _⟩
      · exact ⟨h.outstanding, h.emitted⟩
    · exact ⟨h.outstanding, h.emitted⟩

/-! ## Segments that an adapter can send -/

abbrev Sendable (sender : TCPSender) : Prop := sender.Carries fun _ segment ↦ segment.Sendable

/-- Every segment that the sender makes has no more payload than fits into a datagram. -/
theorem makes_sendable : Makes TCPSegment.Sendable := by
  intro sender windowSize hvalid hwindow
  obtain ⟨segment, hnext, -, hfilled⟩ := filled_spec hvalid hwindow
  constructor
  · unfold filled Filling.setFin Filling.setPayload Filling.setSeqno Filling.setSyn
    dsimp only
    split_ifs <;> rfl
  · rw [hfilled]
    exact hnext.size_le.1

end TCPSender

namespace TCPConnection

variable {connection : TCPConnection} {call : Call} {inv : TCPConnection → Prop}

/-- The rule for a property that depends on which function of the sender is called. -/
theorem Settles.step_of_functions (hinv : Settles inv)
    (hfill : ∀ connection, inv connection →
      inv { connection with sender := connection.sender.fillWindow })
    (hack : ∀ connection ackno win, inv connection →
      inv { connection with sender := (connection.sender.ackReceived ackno win).1 })
    (htick : ∀ connection ms, inv connection →
      inv { connection with sender := connection.sender.tick ms })
    (hreceive : ∀ connection segment, inv connection →
      inv { connection with receiver := (connection.receiver.segmentReceived segment).1 })
    (h : inv (connection.access call)) : inv (connection.step call) := by
  cases call with
  | connect =>
    apply hinv.step
    unfold perform
    split_ifs
    · exact hfill _ h
    · exact h
  | write data => exact hinv.step (hfill _ h)
  | endInputStream => exact hinv.step (hfill _ h)
  | segmentReceived segment =>
    have hreceived := hreceive connection segment h
    exact hinv.segmentReceived h (fun _ _ ↦ hfill _ hreceived) (fun _ _ ↦ hreceived)
      fun _ ↦ hack _ _ _ hreceived
  | tick msSinceLastTick =>
    apply hinv.step
    exact hinv.record _ (connection.nowTime + msSinceLastTick) _ _ (htick connection msSinceLastTick h)
  | readInbound len => exact hinv.step h

/-- All that a connection has sent or is going to send can be sent by an adapter. -/
structure Sendable (connection : TCPConnection) : Prop where
  valid : connection.sender.stream.Valid
  sender : connection.sender.Sendable
  sent : ∀ emission ∈ connection.segmentsOut, emission.segment.Sendable

theorem sendable_setSegment {emission : Emission} (h : emission.segment.Sendable) :
    (connection.setSegment emission).segment.Sendable := by
  cases setSegment_cases connection emission with
  | inl hreset =>
    obtain ⟨rst, heq⟩ := hreset
    rw [heq]
    exact ⟨h.doff, h.size_le⟩
  | inr hset =>
    obtain ⟨number, win, -, heq⟩ := hset
    rw [heq]
    exact ⟨h.doff, h.size_le⟩

theorem settles_sendable : Settles Sendable where
  collect _ h := ⟨h.valid, h.sender.drain, forall_collectOutput h.sent fun emission hemission ↦
    sendable_setSegment (h.sender.emitted emission hemission)⟩
  shutdown _ h := ⟨h.valid.setError, ⟨h.sender.outstanding, h.sender.emitted⟩, h.sent⟩
  bare _ h := ⟨h.valid, ⟨h.sender.outstanding,
    h.sender.emission ⟨rfl, Nat.zero_le _⟩ _ _⟩, h.sent⟩
  record _ _ _ _ h := ⟨h.valid, h.sender, h.sent⟩
  close _ _ h _ _ := ⟨h.valid, h.sender, h.sent⟩

theorem sendable_new (cfg : TCPConfig) (randomIsn : WrappingInt32) : (new cfg randomIsn).Sendable where
  valid := ByteStream.valid_new _
  sender := ⟨by simp [new, TCPSender.new], by simp [new, TCPSender.new]⟩
  sent := by simp [new]

/-- Nothing that a call adds is too large for an adapter. -/
theorem Sendable.step (h : connection.Sendable) (call : Call) : (connection.step call).Sendable := by
  apply settles_sendable.step_of_functions
  · intro before hbefore
    exact ⟨TCPSender.Moves.invariant (·.stream.Valid) (fun _ _ ↦ TCPSender.valid_move)
      (TCPSender.fillWindow_moves hbefore.valid) hbefore.valid,
      hbefore.sender.fillWindow TCPSender.makes_sendable hbefore.valid, hbefore.sent⟩
  · intro before ackno win hbefore
    exact ⟨TCPSender.Moves.invariant (·.stream.Valid) (fun _ _ ↦ TCPSender.valid_move)
      (TCPSender.ackReceived_moves hbefore.valid ackno win) hbefore.valid,
      hbefore.sender.ackReceived TCPSender.makes_sendable hbefore.valid ackno win, hbefore.sent⟩
  · intro before ms hbefore
    exact ⟨TCPSender.Moves.invariant (·.stream.Valid) (fun _ _ ↦ TCPSender.valid_move)
      (TCPSender.tick_moves before.sender ms) hbefore.valid,
      hbefore.sender.tick ms, hbefore.sent⟩
  · exact fun _ _ hbefore ↦ ⟨hbefore.valid, hbefore.sender, hbefore.sent⟩
  · cases call with
    | write data => exact ⟨h.valid.write data, ⟨h.sender.outstanding, h.sender.emitted⟩, h.sent⟩
    | endInputStream => exact ⟨h.valid.endInput, ⟨h.sender.outstanding, h.sender.emitted⟩, h.sent⟩
    | connect | segmentReceived | tick | readInbound => exact ⟨h.valid, h.sender, h.sent⟩

/-! ## The queue -/

/-- Segments are only added to the queue. -/
theorem segmentsOut_prefix_step (connection : TCPConnection) (call : Call) :
    connection.segmentsOut <+: (connection.step call).segmentsOut := by
  have hsettles : Settles fun after ↦ connection.segmentsOut <+: after.segmentsOut :=
    ⟨fun _ h ↦ h.trans (List.prefix_append _ _), fun _ h ↦ h, fun _ h ↦ h, fun _ _ _ _ h ↦ h,
      fun _ _ h _ _ ↦ h⟩
  exact hsettles.step_of_frame (fun _ _ _ h ↦ h) List.prefix_rfl call

/-! ## The inbound stream -/

/-- Unless the owner reads, nothing is taken out of the inbound stream. -/
theorem byteRead_step (h : connection.receiver.Sound) (hcall : ∀ len, call ≠ .readInbound len) :
    (connection.step call).receiver.streamOut.byteRead = connection.receiver.streamOut.byteRead := by
  apply receiver_step fun receiver ↦
    receiver.streamOut.byteRead = connection.receiver.streamOut.byteRead
  · exact fun _ h ↦ h
  · intro segment _ _
    have hopened : (connection.receiver.segmentReceived segment).1.reassembler.output.byteRead =
        connection.receiver.streamOut.byteRead ∧
          (connection.receiver.segmentReceived segment).1.Sound := by
      apply TCPReceiver.segmentReceived_rule fun receiver ↦
        receiver.reassembler.output.byteRead = connection.receiver.streamOut.byteRead ∧ receiver.Sound
      · exact ⟨rfl, h⟩
      · exact fun _ _ ↦ ⟨rfl, h.consistent, h.ended⟩
      · intro opened number hopened _ hpushes
        have hpushed := StreamReassembler.pushSubstring_spec hopened.2.consistent segment.payload.str
          (opened.index number segment) segment.header.fin
        exact ⟨hpushed.bytesRead.trans hopened.1, (hopened.2.push hpushes).1⟩
    exact hopened.1
  · cases call with
    | readInbound len => exact absurd rfl (hcall len)
    | connect | write | endInputStream | segmentReceived | tick => rfl

theorem length_inbound {receiver : TCPReceiver} (h : receiver.Sound) :
    receiver.reassembler.assembledBytes =
      receiver.streamOut.byteRead + receiver.streamOut.contents.length :=
  h.consistent.assembling.written.symm.trans h.consistent.assembling.valid.written_eq

/-- What has been put into the inbound stream stays there until the owner reads it. -/
theorem length_inbound_step (h : connection.receiver.Sound) (hcall : ∀ len, call ≠ .readInbound len) :
    connection.receiver.streamOut.contents.length ≤
      (connection.step call).receiver.streamOut.contents.length := by
  obtain ⟨hsound, hadvances⟩ := receiver_advances h call
  have hread := byteRead_step h hcall
  have hbefore := length_inbound h
  have hafter := length_inbound hsound
  have hassembled := hadvances.assembled
  omega

/-- After the end nothing is put into the inbound stream any more. -/
theorem inbound_stays_empty (h : connection.receiver.Sound)
    (hended : connection.receiver.streamOut.ended = true)
    (hempty : connection.receiver.streamOut.contents = []) (call : Call) :
    (connection.step call).receiver.streamOut.ended = true ∧
      (connection.step call).receiver.streamOut.contents = [] := by
  obtain ⟨hsound, hadvances⟩ := receiver_advances h call
  obtain ⟨hstays, hsame⟩ := hadvances.ended hended
  have hbefore := length_inbound h
  have hafter := length_inbound hsound
  have hread : connection.receiver.streamOut.byteRead ≤
      (connection.step call).receiver.streamOut.byteRead := hadvances.read
  rw [hempty, List.length_nil] at hbefore
  exact ⟨hstays, List.length_eq_zero_iff.mp (by omega)⟩

/-! ## What holds in every run -/

/-- A connection that has closed clearly has received the end of the inbound stream. -/
def ClosedAfterEnd (connection : TCPConnection) : Prop :=
  connection.isClearShutdown = true → connection.receiver.streamOut.ended = true

/-- A clear shutdown comes after the end of the inbound stream only. -/
theorem closedAfterEnd_step (hsound : connection.receiver.Sound) (h : connection.ClosedAfterEnd)
    (call : Call) : (connection.step call).ClosedAfterEnd := by
  have hsettles : Settles fun after ↦ after.receiver.Sound ∧ after.ClosedAfterEnd :=
    ⟨fun _ h ↦ h, fun _ h ↦ ⟨⟨h.1.consistent.setError, h.1.ended⟩, h.2⟩, fun _ h ↦ h,
      fun _ _ _ _ h ↦ h, fun _ _ h hwait _ ↦ ⟨h.1, fun _ ↦ (Bool.and_eq_true_iff.mp hwait).1⟩⟩
  refine (hsettles.step_of_functions (fun _ h ↦ h) (fun _ _ _ h ↦ h) (fun _ _ h ↦ h) ?_ ?_).2
  · intro before segment hbefore
    obtain ⟨hafter, hadvances⟩ := hbefore.1.segmentReceived segment
    exact ⟨hafter, fun hclear ↦ (hadvances.ended (hbefore.2 hclear)).1⟩
  · cases call with
    | readInbound len =>
      obtain ⟨hafter, hadvances⟩ := hsound.step (.read len)
      exact ⟨hafter, fun hclear ↦ (hadvances.ended (h hclear)).1⟩
    | connect | write | endInputStream | segmentReceived | tick => exact ⟨hsound, h⟩

/-- What holds of a connection whose owner does not write after the end. -/
structure Operational (connection : TCPConnection) : Prop where
  regular : connection.Regular
  sendable : connection.Sendable
  closed : connection.ClosedAfterEnd

theorem operational_new (cfg : TCPConfig) (randomIsn : WrappingInt32) :
    (new cfg randomIsn).Operational :=
  ⟨regular_new cfg randomIsn, sendable_new cfg randomIsn, nofun⟩

/-- All of this holds after every call. -/
theorem Operational.step (h : connection.Operational) (hcall : connection.WritesBeforeEnd call) :
    (connection.step call).Operational :=
  ⟨h.regular.step (hcall.nothingAfterFin h.regular.sequenced), h.sendable.step call,
    closedAfterEnd_step h.regular.sound h.closed call⟩

/-- When the connection is over, the inbound stream has ended or has an error. -/
theorem Operational.inbound_over (h : connection.Operational) (hover : connection.active = false) :
    connection.receiver.streamOut.ended = true ∨ connection.receiver.streamOut.error = true := by
  rw [active, Bool.not_eq_false', Bool.or_eq_true_iff] at hover
  cases hover with
  | inl hreset => exact .inr (h.regular.marked.2.trans hreset)
  | inr hclear => exact .inl (h.closed hclear)

end TCPConnection

end Sponge
