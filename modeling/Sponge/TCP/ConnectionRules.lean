import Sponge.Stream.ByteStreamRuns
import Sponge.TCP.SenderInvariant
import Sponge.TCP.TCPConnection

/-!
# Rules for the connection

Every public function of the connection has a main effect, `perform`, and then settles: it collects
the output of the sender and tests for the end.  `Settles` lists what settling can do.  A property of
connections that is kept by each of these is kept by a call as soon as it is kept by the main effect
of the call.
-/

namespace Sponge.TCPConnection

variable {connection : TCPConnection} {segment : TCPSegment} {call : Call}
  {inv : TCPConnection → Prop}

/-- The main effect of a call. -/
def perform (connection : TCPConnection) : Call → TCPConnection
  | .connect =>
      if connection.listen then { connection with sender := connection.sender.fillWindow }
      else connection
  | .write data =>
      { connection with
        sender := { connection.sender with
          stream := (connection.sender.stream.write data).1 }.fillWindow }
  | .endInputStream =>
      { connection with
        sender := { connection.sender with
          stream := connection.sender.stream.endInput }.fillWindow }
  | .segmentReceived segment =>
      { connection with
        timeWhenLastSegmentReceived := connection.nowTime }.segmentReceiveRoute segment
  | .tick msSinceLastTick =>
      { connection with
        nowTime := connection.nowTime + msSinceLastTick
        sender := connection.sender.tick msSinceLastTick }
  | .readInbound len => (connection.readInbound len).2

/-- The property is kept by everything that a call does after its main effect. -/
structure Settles (inv : TCPConnection → Prop) : Prop where
  collect : ∀ connection, inv connection → inv connection.collectOutput
  shutdown : ∀ connection, inv connection → inv connection.unclearShutdown
  bare : ∀ connection, inv connection →
    inv { connection with sender := connection.sender.sendEmptySegment }
  record : ∀ connection nowTime timeWhenLastSegmentReceived lingerAfterStreamsFinish,
    inv connection → inv { connection with
      nowTime, timeWhenLastSegmentReceived, lingerAfterStreamsFinish }
  close : ∀ connection isClearShutdown, inv connection → connection.timeWait = true →
    (connection.isClearShutdown = true → isClearShutdown = true) →
    inv { connection with isClearShutdown }

/-- The property is kept by everything that happens to the sender while a call settles. -/
structure SettlesSender (property : TCPSender → Prop) : Prop where
  drain : ∀ sender, property sender → property { sender with segmentsOut := [] }
  error : ∀ sender, property sender → property { sender with stream := sender.stream.setError }
  bare : ∀ sender, property sender → property sender.sendEmptySegment

theorem SettlesSender.settles {property : TCPSender → Prop} (h : SettlesSender property) :
    Settles fun connection ↦ property connection.sender where
  collect _ hbefore := h.drain _ hbefore
  shutdown _ hbefore := h.error _ hbefore
  bare _ hbefore := h.bare _ hbefore
  record _ _ _ _ hbefore := hbefore
  close _ _ hbefore _ _ := hbefore

theorem Settles.giveUp (hinv : Settles inv) (h : inv connection) : inv connection.giveUp := by
  unfold TCPConnection.giveUp
  split_ifs
  · apply hinv.collect
    apply hinv.bare
    exact hinv.shutdown connection h
  · exact h

/-- The test for the end keeps the property. -/
theorem Settles.testEnd (hinv : Settles inv) (h : inv connection) : inv connection.testEnd := by
  have hlinger : inv connection.giveUp.stopLingering := by
    unfold stopLingering
    split_ifs
    · exact hinv.record _ _ _ _ (hinv.giveUp h)
    · exact hinv.giveUp h
  unfold TCPConnection.testEnd clearShutdown
  split_ifs with hwait
  · exact hinv.close _ _ hlinger hwait fun hclosed ↦ by rw [hclosed, Bool.true_or]
  · exact hlinger

/-- To show that a call keeps a property, look at its main effect. -/
theorem Settles.step (hinv : Settles inv) (h : inv (connection.perform call)) :
    inv (connection.step call) := by
  cases call with
  | connect =>
    unfold perform at h
    change inv connection.connect
    unfold TCPConnection.connect
    split_ifs at h ⊢
    · exact hinv.collect _ h
    · exact h
  | readInbound len => exact h
  | write | endInputStream | segmentReceived | tick => exact hinv.testEnd (hinv.collect _ h)

/-- Testing for the end resets the connection after too many retransmissions.  Apart from that it
changes two flags only. -/
theorem testEnd_eq (connection : TCPConnection) :
    ∃ lingerAfterStreamsFinish isClearShutdown, connection.testEnd =
      { connection.giveUp with lingerAfterStreamsFinish, isClearShutdown } := by
  unfold testEnd clearShutdown stopLingering
  split_ifs <;> exact ⟨_, _, rfl⟩

theorem giveUp_of_le
    (h : connection.sender.consecutiveRetransmissions ≤ TCPConfig.maxRetxAttempts) :
    connection.giveUp = connection :=
  if_neg (UInt32.not_lt.mpr h)

/-- A connection that is not reset has not tried too often. -/
theorem tries_le_of_testEnd (h : connection.testEnd.isUnclearShutdown = false) :
    connection.sender.consecutiveRetransmissions ≤ TCPConfig.maxRetxAttempts := by
  by_contra htries
  obtain ⟨_, _, heq⟩ := testEnd_eq connection
  rw [heq, giveUp, if_pos (UInt32.not_le.mp htries)] at h
  contradiction

/-- After a call the queue of the sender is empty. -/
theorem drained_step (h : connection.sender.segmentsOut = []) (call : Call) :
    (connection.step call).sender.segmentsOut = [] := by
  have hsettled (connection : TCPConnection) :
      connection.collectOutput.testEnd.sender.segmentsOut = [] := by
    obtain ⟨_, _, heq⟩ := testEnd_eq connection.collectOutput
    rw [heq, giveUp]
    split_ifs <;> rfl
  cases call with
  | connect =>
    change connection.connect.sender.segmentsOut = []
    unfold connect
    split_ifs
    · rfl
    · exact h
  | readInbound len => exact h
  | write | endInputStream | segmentReceived | tick => exact hsettled _

/-! ## An incoming segment -/

/-- The sender sees the acknowledgment of a segment, or nothing. -/
theorem processAck_cases (connection : TCPConnection) (segment : TCPSegment) :
    (connection.processAck segment).1 = connection.sender ∨
      segment.header.ack = true ∧ (connection.processAck segment).1 =
        (connection.sender.ackReceived segment.header.ackno segment.header.win).1 := by
  unfold processAck
  split_ifs with hack
  · exact .inr ⟨hack, rfl⟩
  · exact .inl rfl

/-- The acknowledgment of a segment is handed to the sender.  A connection in SYN_SENT does so only if
its receiver has taken the segment. -/
def AckProcessed (connection : TCPConnection) (segment : TCPSegment) : Prop :=
  connection.listen = false ∧ segment.header.rst = false ∧ segment.header.ack = true ∧
    ({ connection with receiver := (connection.receiver.segmentReceived segment).1 }.synSent = true →
      (connection.receiver.segmentReceived segment).2 = true)

instance (connection : TCPConnection) (segment : TCPSegment) :
    Decidable (connection.AckProcessed segment) :=
  inferInstanceAs (Decidable (_ ∧ _ ∧ _ ∧ (_ → _)))

/-- The rule for an incoming segment.  A listening connection takes a SYN and sends its own; a reset
shuts the connection down; otherwise the receiver sees the segment and the sender its acknowledgment,
if it is processed, and a bare segment may be sent. -/
theorem Settles.segmentReceived (hinv : Settles inv) (h : inv connection)
    (hlisten : connection.listen = true → segment.header.syn = true →
      inv { connection with
        receiver := (connection.receiver.segmentReceived segment).1
        sender := connection.sender.fillWindow })
    (hreceive : connection.listen = false → segment.header.rst = false →
      inv { connection with receiver := (connection.receiver.segmentReceived segment).1 })
    (hack : connection.AckProcessed segment →
      inv { connection with
        receiver := (connection.receiver.segmentReceived segment).1
        sender := (connection.sender.ackReceived segment.header.ackno segment.header.win).1 }) :
    inv (connection.step (.segmentReceived segment)) := by
  apply hinv.step
  let stamp (connection : TCPConnection) : TCPConnection :=
    { connection with timeWhenLastSegmentReceived := connection.nowTime }
  have hstamp {connection : TCPConnection} (h : inv connection) : inv (stamp connection) :=
    hinv.record connection _ _ _ h
  change inv ((stamp connection).segmentReceiveRoute segment)
  unfold segmentReceiveRoute
  dsimp only
  split_ifs with hlistening hsyn hrst hrefused
  · exact hstamp (hlisten hlistening hsyn)
  · exact hstamp h
  · exact hinv.shutdown _ (hstamp h)
  · exact hstamp (hreceive (Bool.eq_false_iff.mpr hlistening) (Bool.eq_false_iff.mpr hrst))
  · have hnot : connection.listen = false := Bool.eq_false_iff.mpr hlistening
    have hunset : segment.header.rst = false := Bool.eq_false_iff.mpr hrst
    set received : TCPConnection :=
      { stamp connection with receiver := (connection.receiver.segmentReceived segment).1 }
    have hreceived : inv received := hstamp (hreceive hnot hunset)
    have hprocessed : inv { received with sender := (received.processAck segment).1 } := by
      cases processAck_cases received segment with
      | inl hsame =>
        rw [hsame]
        exact hreceived
      | inr hacked =>
        rw [hacked.2]
        refine hstamp (hack ⟨hnot, hunset, hacked.1, fun hsent ↦ ?_⟩)
        by_contra hkept
        exact hrefused (Bool.and_eq_true_iff.mpr
          ⟨hsent, by rw [Bool.not_eq_true']; exact Bool.eq_false_iff.mpr hkept⟩)
    unfold acknowledgeAndReply
    dsimp only
    split_ifs
    · exact hinv.bare _ hprocessed
    · exact hprocessed

/-- The rule for a property that does not depend on the sender and the receiver. -/
theorem Settles.step_of_frame (hinv : Settles inv)
    (hframe : ∀ connection sender receiver, inv connection → inv { connection with sender, receiver })
    (h : inv connection) (call : Call) : inv (connection.step call) := by
  cases call with
  | connect =>
    apply hinv.step
    unfold perform
    split_ifs
    · exact hframe _ _ _ h
    · exact h
  | segmentReceived segment =>
    exact hinv.segmentReceived h (fun _ _ ↦ hframe _ _ _ h) (fun _ _ ↦ hframe _ _ _ h)
      fun _ ↦ hframe _ _ _ h
  | tick msSinceLastTick =>
    apply hinv.step
    exact hframe _ _ _ (hinv.record _ (connection.nowTime + msSinceLastTick) _ _ h)
  | write | endInputStream | readInbound => exact hinv.step (hframe _ _ _ h)

/-- An unclear shutdown is for ever. -/
theorem isUnclearShutdown_step (h : connection.isUnclearShutdown = true) (call : Call) :
    (connection.step call).isUnclearShutdown = true := by
  have hsettles : Settles fun connection ↦ connection.isUnclearShutdown = true :=
    ⟨fun _ h ↦ h, fun _ _ ↦ rfl, fun _ h ↦ h, fun _ _ _ _ h ↦ h, fun _ _ h _ _ ↦ h⟩
  exact hsettles.step_of_frame (fun _ _ _ h ↦ h) h call

theorem isUnclearShutdown_of_active (h : connection.active = true) :
    connection.isUnclearShutdown = false := by
  rw [active, Bool.not_eq_true', Bool.or_eq_false_iff] at h
  exact h.1

/-- A clear shutdown is for ever as well. -/
theorem isClearShutdown_step (h : connection.isClearShutdown = true) (call : Call) :
    (connection.step call).isClearShutdown = true := by
  have hsettles : Settles fun connection ↦ connection.isClearShutdown = true :=
    ⟨fun _ h ↦ h, fun _ h ↦ h, fun _ h ↦ h, fun _ _ _ _ h ↦ h, fun _ _ h _ hstays ↦ hstays h⟩
  exact hsettles.step_of_frame (fun _ _ _ h ↦ h) h call

/-! ## Moves of the sender -/

/-- What the owner does to the streams in a call, before the connection reacts to it. -/
def access (connection : TCPConnection) : Call → TCPConnection
  | .write data =>
      { connection with
        sender := { connection.sender with stream := (connection.sender.stream.write data).1 } }
  | .endInputStream =>
      { connection with
        sender := { connection.sender with stream := connection.sender.stream.endInput } }
  | .readInbound len => (connection.readInbound len).2
  | .connect => connection
  | .segmentReceived _ => connection
  | .tick _ => connection

theorem valid_access (hvalid : connection.sender.stream.Valid) (call : Call) :
    (connection.access call).sender.stream.Valid := by
  cases call with
  | write data => exact hvalid.write data
  | endInputStream => exact hvalid.endInput
  | connect | segmentReceived | tick | readInbound => exact hvalid

/-- The rule for a property that does not care which moves the sender makes: it is kept by a call as
soon as it is kept by the access of the owner and, for an incoming segment, by the receiver. -/
theorem Settles.step_of_moves (hinv : Settles inv)
    (hvalid : ∀ connection, inv connection → connection.sender.stream.Valid)
    (hmoves : ∀ connection after, inv connection → TCPSender.Moves connection.sender after →
      inv { connection with sender := after })
    (hreceive : ∀ segment, call = .segmentReceived segment → inv connection →
      inv { connection with receiver := (connection.receiver.segmentReceived segment).1 })
    (h : inv (connection.access call)) : inv (connection.step call) := by
  have hfill : inv { connection.access call with
      sender := (connection.access call).sender.fillWindow } :=
    hmoves _ _ h (TCPSender.fillWindow_moves (hvalid _ h))
  cases call with
  | connect =>
    apply hinv.step
    unfold perform
    split_ifs
    · exact hfill
    · exact h
  | write data => exact hinv.step hfill
  | endInputStream => exact hinv.step hfill
  | segmentReceived segment =>
    have hreceived := hreceive segment rfl h
    have hstream : connection.sender.stream.Valid := hvalid connection h
    apply hinv.segmentReceived h
    · exact fun _ _ ↦ hmoves _ _ hreceived (TCPSender.fillWindow_moves hstream)
    · exact fun _ _ ↦ hreceived
    · exact fun _ ↦ hmoves _ _ hreceived (TCPSender.ackReceived_moves hstream _ _)
  | tick msSinceLastTick =>
    apply hinv.step
    have hticked := hmoves _ _ h (TCPSender.tick_moves connection.sender msSinceLastTick)
    exact hinv.record _ (connection.nowTime + msSinceLastTick) _ _ hticked
  | readInbound len => exact hinv.step h

/-- The rule for a property of the sender alone that every move keeps. -/
theorem sender_step_of_move (property : TCPSender → Prop)
    (hdrain : ∀ sender, property sender → property { sender with segmentsOut := [] })
    (herror : ∀ sender, property sender →
      property { sender with stream := sender.stream.setError })
    (hmove : ∀ before after : TCPSender, before.stream.Valid → property before →
      TCPSender.Move before after → property after)
    (hvalid : connection.sender.stream.Valid) (h : property (connection.access call).sender) :
    property (connection.step call).sender := by
  have hsettles : SettlesSender fun sender ↦ sender.stream.Valid ∧ property sender :=
    { drain := fun _ h ↦ ⟨h.1, hdrain _ h.2⟩
      error := fun _ h ↦ ⟨h.1.setError, herror _ h.2⟩
      bare := fun _ h ↦ ⟨h.1, hmove _ _ h.1 h.2 .bare⟩ }
  refine (hsettles.settles.step_of_moves (fun _ h ↦ h.1) ?_ (fun _ _ h ↦ h)
    ⟨valid_access hvalid call, h⟩).2
  intro before after hbefore hmoves
  apply hmoves.invariant (fun sender ↦ sender.stream.Valid ∧ property sender) ?_ hbefore
  exact fun _ _ h hnext ↦ ⟨TCPSender.valid_move h.1 hnext, hmove _ _ h.1 h.2 hnext⟩

/-- The rule for a property of the sender alone that depends on the call: the sender fills its window
after the access of the owner, sees an acknowledgment, or sees time pass. -/
theorem sender_step (property : TCPSender → Prop)
    (hsender : SettlesSender property) (h : property connection.sender)
    (hfill : property (connection.access call).sender.fillWindow)
    (hack : ∀ segment, call = .segmentReceived segment → connection.AckProcessed segment →
      property (connection.sender.ackReceived segment.header.ackno segment.header.win).1)
    (htick : ∀ msSinceLastTick, call = .tick msSinceLastTick →
      property (connection.sender.tick msSinceLastTick)) :
    property (connection.step call).sender := by
  have hsettles := hsender.settles
  cases call with
  | connect =>
    apply hsettles.step
    unfold perform
    split_ifs
    · exact hfill
    · exact h
  | write data => exact hsettles.step hfill
  | endInputStream => exact hsettles.step hfill
  | segmentReceived segment =>
    apply hsettles.segmentReceived h
    · exact fun _ _ ↦ hfill
    · exact fun _ _ ↦ h
    · exact hack segment rfl
  | tick msSinceLastTick => exact hsettles.step (htick msSinceLastTick rfl)
  | readInbound len => exact h

/-- The sender after a segment whose acknowledgment is processed. -/
theorem sender_of_ackProcessed (property : TCPSender → Prop) (hsender : SettlesSender property)
    (hprocessed : connection.AckProcessed segment)
    (h : property (connection.sender.ackReceived segment.header.ackno segment.header.win).1) :
    property (connection.segmentReceived segment).sender := by
  obtain ⟨hlisten, hrst, hack, htaken⟩ := hprocessed
  apply @Settles.step connection (.segmentReceived segment) _ hsender.settles
  let stamped : TCPConnection :=
    { connection with timeWhenLastSegmentReceived := connection.nowTime }
  have hstamped : stamped.listen = false := hlisten
  have hheeded : ¬ ({ stamped with
      receiver := (stamped.receiver.segmentReceived segment).1 }.synSent &&
        !(stamped.receiver.segmentReceived segment).2) = true := by
    intro hrefused
    rw [Bool.and_eq_true_iff, Bool.not_eq_true'] at hrefused
    exact Bool.false_ne_true (hrefused.2.symm.trans (htaken hrefused.1))
  change property (stamped.segmentReceiveRoute segment).sender
  unfold segmentReceiveRoute
  dsimp only
  rw [if_neg (Bool.eq_false_iff.mp hstamped), if_neg (Bool.eq_false_iff.mp hrst), if_neg hheeded]
  have hacked : { stamped with receiver := (stamped.receiver.segmentReceived segment).1 }.processAck
      segment = connection.sender.ackReceived segment.header.ackno segment.header.win := if_pos hack
  unfold acknowledgeAndReply
  rw [hacked]
  dsimp only
  split_ifs
  · exact hsender.bare _ h
  · exact h

/-- Only the owner writes to the outbound stream and ends it. -/
theorem stream_step (hvalid : connection.sender.stream.Valid) (call : Call) :
    let accessed := (connection.access call).sender.stream
    (connection.step call).sender.stream.ended = accessed.ended ∧
      (connection.step call).sender.stream.byteWritten = accessed.byteWritten ∧
      (connection.step call).sender.stream.capacity = accessed.capacity := by
  intro accessed
  apply sender_step_of_move (fun sender ↦ sender.stream.ended = accessed.ended ∧
    sender.stream.byteWritten = accessed.byteWritten ∧ sender.stream.capacity = accessed.capacity)
    (fun _ h ↦ h) (fun _ h ↦ h) ?_ hvalid ⟨rfl, rfl, rfl⟩
  intro before after _ h hmove
  rw [← h.1, ← h.2.1, ← h.2.2]
  cases hmove with
  | @send windowSize segment =>
    obtain ⟨hcapacity, hwritten, hended, -⟩ :=
      ByteStream.popOutput_frame before.stream segment.payload.size
    exact ⟨hended, hwritten, hcapacity⟩
  | @acknowledge newAckno =>
    rw [(TCPSender.acknowledge_frame before newAckno).2.1]
    exact ⟨rfl, rfl, rfl⟩
  | again | bare | adjust => exact ⟨rfl, rfl, rfl⟩

/-! ## Writes and the end of the input -/

/-- No write comes after the end of the input. -/
def WritesBeforeEnd (connection : TCPConnection) : Call → Prop
  | .write _ => connection.sender.stream.inputEnded = false
  | _ => True

instance (connection : TCPConnection) : (call : Call) → Decidable (connection.WritesBeforeEnd call)
  | .write _ => inferInstanceAs (Decidable (_ = false))
  | .connect => inferInstanceAs (Decidable True)
  | .endInputStream => inferInstanceAs (Decidable True)
  | .segmentReceived _ => inferInstanceAs (Decidable True)
  | .tick _ => inferInstanceAs (Decidable True)
  | .readInbound _ => inferInstanceAs (Decidable True)

/-- No write adds a byte once the FIN has been sent. -/
def NothingAfterFin (connection : TCPConnection) : Call → Prop
  | .write data => connection.sender.fin = true → (connection.sender.stream.write data).2 = 0
  | _ => True

instance (connection : TCPConnection) : (call : Call) → Decidable (connection.NothingAfterFin call)
  | .write _ => inferInstanceAs (Decidable (_ → _))
  | .connect => inferInstanceAs (Decidable True)
  | .endInputStream => inferInstanceAs (Decidable True)
  | .segmentReceived _ => inferInstanceAs (Decidable True)
  | .tick _ => inferInstanceAs (Decidable True)
  | .readInbound _ => inferInstanceAs (Decidable True)

/-- After the end of the input, every write is empty or meets a full buffer. -/
def NothingAfterEnd (connection : TCPConnection) : Call → Prop
  | .write data => connection.sender.stream.inputEnded = true →
      connection.sender.stream.WritesNothing (.write data)
  | _ => True

instance (connection : TCPConnection) : (call : Call) → Decidable (connection.NothingAfterEnd call)
  | .write _ => inferInstanceAs (Decidable (_ → _))
  | .connect => inferInstanceAs (Decidable True)
  | .endInputStream => inferInstanceAs (Decidable True)
  | .segmentReceived _ => inferInstanceAs (Decidable True)
  | .tick _ => inferInstanceAs (Decidable True)
  | .readInbound _ => inferInstanceAs (Decidable True)

theorem WritesBeforeEnd.nothingAfterFin (h : connection.WritesBeforeEnd call)
    (hsequenced : connection.sender.Sequenced) : connection.NothingAfterFin call := by
  cases call with
  | write data =>
    intro hfin
    have hended : connection.sender.stream.ended = false := h
    rw [(hsequenced.finished hfin).1] at hended
    contradiction
  | connect | endInputStream | segmentReceived | tick | readInbound => trivial

theorem sequenced_access (h : connection.sender.Sequenced)
    (hcall : connection.NothingAfterFin call) :
    (connection.access call).sender.Sequenced := by
  cases call with
  | write data => exact h.write hcall
  | endInputStream => exact h.endInput
  | connect | segmentReceived | tick | readInbound => exact h

/-- The numbers of the sender stay in order as long as nothing is added after the FIN. -/
theorem sequenced_step (h : connection.sender.Sequenced) (hcall : connection.NothingAfterFin call) :
    (connection.step call).sender.Sequenced := by
  apply sender_step_of_move TCPSender.Sequenced
  · exact fun _ h ↦ h.drain
  · exact fun _ h ↦ h.setError
  · exact fun _ _ _ h hmove ↦ h.move hmove
  · exact h.valid
  · exact sequenced_access h hcall

end Sponge.TCPConnection
