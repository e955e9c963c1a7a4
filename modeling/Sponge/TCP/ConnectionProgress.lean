import Sponge.TCP.ConnectionRules

/-!
# The connection does not stall

A connection with something left to send has a segment outstanding and its timer running, so it will
be heard from again.  An open window is also used up at once, with one exception: the sender takes
the window of an acknowledgment over without sending anything if the acknowledgment number is not
new.
-/

namespace Sponge

open Execution

namespace TCPSender

variable {sender : TCPSender}

/-- Nothing is left to send: no bytes, and no FIN. -/
def Idle (sender : TCPSender) : Prop :=
  sender.stream.contents = [] ∧ (sender.stream.ended = true → sender.fin = true)

instance (sender : TCPSender) : Decidable sender.Idle :=
  inferInstanceAs (Decidable (_ ∧ (_ → _)))

/-- The loop of `fillWindow` stops early only if nothing is left to send. -/
theorem Sequenced.idle_of_not_wantsToSend (h : sender.Sequenced)
    (hwants : sender.wantsToSend = false) : sender.Idle := by
  simp only [wantsToSend, Bool.or_eq_false_iff, h.closed_eq, Bool.not_eq_false'] at hwants
  obtain ⟨⟨hsyn, hdata⟩, hfin⟩ := hwants
  have hnext := h.next
  have hwritten := h.valid.written_eq
  have hflying := h.inFlight
  obtain ⟨base, -, htiles⟩ := h.chain
  have hsum := htiles.add_sum
  rw [firstUnsent, hsyn, ByteStream.bytesRead] at hnext
  simp only [Bool.toNat_true] at hnext
  have hempty : sender.stream.contents = [] := by
    by_contra hsome
    have hbuffer : sender.stream.bufferEmpty = false :=
      Bool.eq_false_iff.mpr fun hbuffer ↦ hsome (h.valid.bufferEmpty_iff.mp hbuffer)
    have heof : sender.stream.eof = false :=
      Bool.eq_false_iff.mpr fun heof ↦ hsome (h.valid.eof_iff.mp heof).2
    simp only [hbuffer, synSent, synAcked, heof, Bool.not_false, Bool.and_true,
      Bool.or_eq_false_iff, Bool.and_eq_false_iff, decide_eq_false_iff_not, beq_eq_false_iff_ne,
      ne_eq] at hdata
    omega
  refine ⟨hempty, fun hended ↦ ?_⟩
  have heof := h.valid.eof_iff.mpr ⟨hended, hempty⟩
  rw [synAckedFinToSend, heof, Bool.and_true] at hfin
  have hlast : ¬ sender.nextSeqno < sender.stream.byteWritten + 2 := of_decide_eq_false hfin
  rw [hempty, List.length_nil] at hwritten
  cases hflag : sender.fin with
  | true => rfl
  | false =>
    rw [hflag] at hnext
    simp only [Bool.toNat_false] at hnext
    omega

/-- The window is used up, or nothing is left to send. -/
def Exhausted (sender : TCPSender) : Prop :=
  sender.nextSeqno < sender.ackno + max sender.windowSize.toNat 1 → sender.Idle

/-- When the loop ends, the window is used up, or nothing is left. -/
theorem Sequenced.exhausted_fillWindow (h : sender.Sequenced) : sender.fillWindow.Exhausted := by
  have hrule := fillWindow_rule (fun after left ↦ after.Sequenced ∧
      sender.ackno + sender.effectiveWindow ≤ after.nextSeqno + left ∧
      after.ackno = sender.ackno ∧ after.windowSize = sender.windowSize) ?_ h.valid
    ⟨h, by omega, rfl, rfl⟩
  · obtain ⟨left, ⟨hsequenced, hroom, hackno, hwindow⟩, hend⟩ := hrule
    intro hopen
    cases hend with
    | inl hzero =>
      rw [effectiveWindow_eq] at hroom
      rw [hackno, hwindow] at hopen
      omega
    | inr hquiet => exact hsequenced.idle_of_not_wantsToSend hquiet
  · intro after left segment hvalid hmotive hwindow hwants hnext hfits
    refine ⟨hmotive.1.sent hwindow hwants hnext, ?_, hmotive.2.2⟩
    have hfin := hmotive.1.fin_eq_false_of_wantsToSend hwants
    have hroom := hmotive.2.1
    rw [hmotive.1.next_sent hfin]
    omega

theorem Exhausted.restartTimer (h : sender.Exhausted) : sender.restartTimer.Exhausted := h

/-- A new acknowledgment leaves no open window unused. -/
theorem Sequenced.exhausted_ackReceived (h : sender.Sequenced) {ackno : WrappingInt32}
    (windowSize : UInt16) (hnew : sender.ackno < unwrap ackno sender.isn sender.ackno)
    (hsent : unwrap ackno sender.isn sender.ackno ≤ sender.nextSeqno) :
    (sender.ackReceived ackno windowSize).1.Exhausted := by
  have hadjusted := h.move (.adjust windowSize sender.rto sender.consecutiveRetransmissions
    sender.timer)
  have hacknowledged := hadjusted.acknowledge hnew hsent
  unfold ackReceived
  rw [if_neg (not_lt.mpr hsent), if_neg (not_le.mpr hnew)]
  exact hacknowledged.exhausted_fillWindow.restartTimer

/-- What keeps the sender from stalling. -/
structure Alert (sender : TCPSender) : Prop where
  sequenced : sender.Sequenced
  timed : sender.Timed
  idle : sender.outstandingSegment = [] → sender.Idle

/-- With nothing outstanding, there is always room for one more sequence number. -/
theorem Exhausted.idle (h : sender.Exhausted) (hsequenced : sender.Sequenced)
    (hnone : sender.outstandingSegment = []) : sender.Idle := by
  have hackno := hsequenced.eq_nil_iff.mp hnone
  apply h
  omega

theorem alert_fillWindow (hsequenced : sender.Sequenced) (htimed : sender.Timed) :
    sender.fillWindow.Alert := by
  have hfilled := hsequenced.moves (fillWindow_moves hsequenced.valid)
  exact ⟨hfilled, htimed.fillWindow hsequenced.valid,
    hsequenced.exhausted_fillWindow.idle hfilled⟩

/-- An acknowledgment of new data fills the window anew. -/
theorem Alert.ackReceived (h : sender.Alert) (ackno : WrappingInt32) (windowSize : UInt16) :
    (sender.ackReceived ackno windowSize).1.Alert := by
  have hsequenced := h.sequenced.moves (ackReceived_moves h.sequenced.valid ackno windowSize)
  refine ⟨hsequenced, h.timed.ackReceived ackno windowSize, ?_⟩
  by_cases hsent : unwrap ackno sender.isn sender.ackno ≤ sender.nextSeqno
  · by_cases hnew : sender.ackno < unwrap ackno sender.isn sender.ackno
    · exact (h.sequenced.exhausted_ackReceived windowSize hnew hsent).idle hsequenced
    · unfold TCPSender.ackReceived
      rw [if_neg (not_lt.mpr hsent), if_pos (not_lt.mp hnew)]
      exact h.idle
  · unfold TCPSender.ackReceived
    rw [if_pos (not_le.mp hsent)]
    exact h.idle

theorem Alert.tick (h : sender.Alert) (msSinceLastTick : ℕ) :
    (sender.tick msSinceLastTick).Alert := by
  refine ⟨h.sequenced.moves (tick_moves sender msSinceLastTick), h.timed.tick msSinceLastTick, ?_⟩
  obtain ⟨_, _, _, _, heq⟩ := tick_frame sender msSinceLastTick
  rw [heq]
  exact h.idle

theorem retransmit_sends (sender : TCPSender) (oldest : ℕ × TCPSegment) :
    (sender.retransmit oldest).segmentsOut ≠ [] ∨
      (sender.retransmit oldest).consecutiveRetransmissions > TCPConfig.maxRetxAttempts := by
  unfold retransmit
  dsimp only
  split_ifs with hwindow htries htries
  · exact .inl (List.concat_ne_nil _ _)
  · exact .inr (UInt32.not_le.mp htries)
  · exact .inl (List.concat_ne_nil _ _)
  · exact .inr (UInt32.not_le.mp htries)

/-- When the timer expires, the oldest segment is sent again or the sender has tried too often. -/
theorem tick_expired {msSinceLastTick : ℕ} (houtstanding : sender.outstandingSegment ≠ [])
    (hrunning : sender.timer.isStopped = false)
    (htime : sender.timer.remainingTime ≤ UInt32.ofNat msSinceLastTick) :
    (sender.tick msSinceLastTick).segmentsOut ≠ [] ∨
      (sender.tick msSinceLastTick).consecutiveRetransmissions > TCPConfig.maxRetxAttempts := by
  have hstopped : ¬ sender.timer.stopped = true := Bool.eq_false_iff.mp hrunning
  have hexpired : (sender.timer.timeExpired (UInt32.ofNat msSinceLastTick)).isExpired = true := by
    rw [RetransmissionTimer.timeExpired, if_neg hstopped, if_pos htime]
    exact Bool.and_eq_true_iff.mpr ⟨rfl, by rw [Bool.not_eq_true']; exact hrunning⟩
  unfold tick
  dsimp only
  split
  · contradiction
  · rw [if_pos hexpired]
    exact retransmit_sends _ _

end TCPSender

namespace TCPConnection

variable {connection : TCPConnection} {call : Call}

/-! ## Never silent -/

theorem settlesSender_alert : SettlesSender TCPSender.Alert where
  drain _ h := ⟨h.sequenced.drain, h.timed, h.idle⟩
  error _ h := ⟨h.sequenced.setError, h.timed, h.idle⟩
  bare _ h := ⟨h.sequenced.move .bare, h.timed, h.idle⟩

/-- No call makes the sender stall. -/
theorem alert_step (h : connection.sender.Alert) (hcall : connection.NothingAfterFin call) :
    (connection.step call).sender.Alert := by
  apply sender_step TCPSender.Alert settlesSender_alert h
  · apply TCPSender.alert_fillWindow (sequenced_access h.sequenced hcall)
    cases call <;> exact h.timed
  · exact fun _ _ _ ↦ h.ackReceived _ _
  · exact fun msSinceLastTick _ ↦ h.tick msSinceLastTick

theorem alert_new (cfg : TCPConfig) (randomIsn : WrappingInt32) :
    (new cfg randomIsn).sender.Alert where
  sequenced := TCPSender.sequenced_new _ _ _ _
  timed := iff_of_true rfl rfl
  idle _ := ⟨rfl, by simp [new, TCPSender.new, ByteStream.new]⟩

/-- The sender does not stall in any run. -/
theorem alert_run {cfg : TCPConfig} {randomIsn : WrappingInt32} {calls : List Call}
    (h : Admissible step WritesBeforeEnd (new cfg randomIsn) calls) :
    (run step (new cfg randomIsn) calls).sender.Alert :=
  h.invariant (fun connection ↦ connection.sender.Alert)
    (fun _ _ hbefore hcall ↦ alert_step hbefore (hcall.nothingAfterFin hbefore.sequenced))
    (alert_new cfg randomIsn)

theorem length_collectOutput (connection : TCPConnection) :
    connection.collectOutput.segmentsOut.length =
      connection.segmentsOut.length + connection.sender.segmentsOut.length := by
  simp [collectOutput]

theorem length_giveUp (connection : TCPConnection) :
    connection.segmentsOut.length + (if connection.sender.consecutiveRetransmissions >
      TCPConfig.maxRetxAttempts then 1 else 0) ≤ connection.giveUp.segmentsOut.length := by
  unfold giveUp
  split_ifs
  · unfold sendEmptySegment
    rw [length_collectOutput]
    simp [unclearShutdown, TCPSender.sendEmptySegment]
  · exact le_rfl

/-- A tick at which the timer expires sends a segment again, or resets the connection. -/
theorem tick_transmits {msSinceLastTick : ℕ}
    (houtstanding : connection.sender.outstandingSegment ≠ [])
    (hrunning : connection.sender.timer.isStopped = false)
    (htime : connection.sender.timer.remainingTime ≤ UInt32.ofNat msSinceLastTick) :
    connection.segmentsOut.length < (connection.tick msSinceLastTick).segmentsOut.length := by
  set ticked : TCPConnection := { connection with
    nowTime := connection.nowTime + msSinceLastTick
    sender := connection.sender.tick msSinceLastTick }
  have hcollected : ticked.collectOutput.segmentsOut.length =
      connection.segmentsOut.length + ticked.sender.segmentsOut.length :=
    length_collectOutput ticked
  have hend := length_giveUp ticked.collectOutput
  have hmore : connection.segmentsOut.length < ticked.collectOutput.giveUp.segmentsOut.length := by
    cases TCPSender.tick_expired houtstanding hrunning htime with
    | inl hsent =>
      have hpositive : 0 < ticked.sender.segmentsOut.length := List.length_pos_iff.mpr hsent
      omega
    | inr htries =>
      have hmany : ticked.collectOutput.sender.consecutiveRetransmissions >
        TCPConfig.maxRetxAttempts := htries
      rw [if_pos hmany] at hend
      omega
  calc
    connection.segmentsOut.length < ticked.collectOutput.giveUp.segmentsOut.length := hmore
    _ = ticked.collectOutput.testEnd.segmentsOut.length := by
      obtain ⟨_, _, heq⟩ := testEnd_eq ticked.collectOutput
      rw [heq]

/-- As long as anything is left to send after the SYN, a segment is outstanding and the timer runs,
whatever windows and acknowledgments the peer sends.  The next tick that the timer does not outlast
then transmits something. -/
theorem never_stalls (cfg : TCPConfig) (randomIsn : WrappingInt32) (calls : List Call)
    (h : Admissible step WritesBeforeEnd (new cfg randomIsn) calls) :
    let final := run step (new cfg randomIsn) calls
    final.sender.syn = true →
    (final.sender.stream.bufferEmpty = false ∨
      final.sender.stream.inputEnded = true ∧ final.sender.fin = false) →
    final.sender.outstandingSegment ≠ [] ∧ final.sender.timer.isStopped = false ∧
      ∀ msSinceLastTick, final.sender.timer.remainingTime ≤ UInt32.ofNat msSinceLastTick →
        final.segmentsOut.length < (final.tick msSinceLastTick).segmentsOut.length := by
  intro final _ hleft
  have halert : final.sender.Alert := alert_run h
  have hsome : final.sender.outstandingSegment ≠ [] := by
    intro hnone
    have hidle := halert.idle hnone
    cases hleft with
    | inl hbuffer =>
      rw [halert.sequenced.valid.bufferEmpty_iff.mpr hidle.1] at hbuffer
      contradiction
    | inr hend =>
      have hfin := hend.2
      rw [hidle.2 hend.1] at hfin
      contradiction
  have hrunning : final.sender.timer.isStopped = false :=
    Bool.eq_false_iff.mpr fun hstopped ↦ hsome (halert.timed.mp hstopped)
  exact ⟨hsome, hrunning, fun _ htime ↦ tick_transmits hsome hrunning htime⟩

/-- A peer that opens the connection with a window of zero: one byte is outstanding, two wait. -/
theorem never_stalls_at_zero_window :
    let calls : List Call := [.connect, .write [97, 98, 99], .segmentReceived
      { header := { seqno := ⟨100⟩, ackno := ⟨1⟩, syn := true, ack := true } }]
    let final := run step (new { fixedIsn := some ⟨0⟩ } ⟨7⟩) calls
    Admissible step WritesBeforeEnd (new { fixedIsn := some ⟨0⟩ } ⟨7⟩) calls ∧
      final.sender.stream.contents = [98, 99] ∧ final.sender.outstandingSegment ≠ [] ∧
      final.sender.timer.isStopped = false := by
  have h : Admissible step WritesBeforeEnd (new { fixedIsn := some ⟨0⟩ } ⟨7⟩) [.connect,
      .write [97, 98, 99], .segmentReceived
        { header := { seqno := ⟨100⟩, ackno := ⟨1⟩, syn := true, ack := true } }] := by
    decide +kernel
  have hresult := never_stalls { fixedIsn := some ⟨0⟩ } ⟨7⟩ _ h (by decide +kernel)
    (.inl (by decide +kernel))
  exact ⟨h, by decide +kernel, hresult.1, hresult.2.1⟩

/-! ## An open window is used -/

/-- Writes add nothing after the FIN, and an acknowledgment that is processed and not new opens the
window only if nothing is left to send. -/
def WindowHeeded (connection : TCPConnection) : Call → Prop
  | .write data => connection.sender.fin = true → (connection.sender.stream.write data).2 = 0
  | .segmentReceived segment =>
      connection.AckProcessed segment →
        unwrap segment.header.ackno connection.sender.isn connection.sender.ackno ≤
          connection.sender.ackno →
        connection.sender.ackno + max segment.header.win.toNat 1 ≤ connection.sender.nextSeqno ∨
          connection.sender.Idle
  | _ => True

instance (connection : TCPConnection) : (call : Call) → Decidable (connection.WindowHeeded call)
  | .write _ => inferInstanceAs (Decidable (_ → _))
  | .segmentReceived _ => inferInstanceAs (Decidable (_ → _ → _ ∨ _))
  | .connect => inferInstanceAs (Decidable True)
  | .endInputStream => inferInstanceAs (Decidable True)
  | .tick _ => inferInstanceAs (Decidable True)
  | .readInbound _ => inferInstanceAs (Decidable True)

/-- The sender is in order, and it does not leave an open window unused. -/
structure Busy (sender : TCPSender) : Prop where
  sequenced : sender.Sequenced
  exhausted : sender.Exhausted

theorem settlesSender_busy : SettlesSender Busy where
  drain _ h := ⟨h.sequenced.drain, h.exhausted⟩
  error _ h := ⟨h.sequenced.setError, h.exhausted⟩
  bare _ h := ⟨h.sequenced.move .bare, h.exhausted⟩

theorem busy_fillWindow {sender : TCPSender} (h : sender.Sequenced) : Busy sender.fillWindow :=
  ⟨h.moves (TCPSender.fillWindow_moves h.valid), h.exhausted_fillWindow⟩

/-- If an old acknowledgment opens the window only for a sender with nothing to send, then no open
window is left unused. -/
theorem Busy.ackReceived {sender : TCPSender} (h : Busy sender) {ackno : WrappingInt32}
    {windowSize : UInt16}
    (hheeded : unwrap ackno sender.isn sender.ackno ≤ sender.ackno →
      sender.ackno + max windowSize.toNat 1 ≤ sender.nextSeqno ∨ sender.Idle) :
    Busy (sender.ackReceived ackno windowSize).1 := by
  refine ⟨h.sequenced.moves (TCPSender.ackReceived_moves h.sequenced.valid ackno windowSize), ?_⟩
  by_cases hsent : unwrap ackno sender.isn sender.ackno ≤ sender.nextSeqno
  · by_cases hnew : sender.ackno < unwrap ackno sender.isn sender.ackno
    · exact h.sequenced.exhausted_ackReceived windowSize hnew hsent
    · -- Only the window changes, and nothing is sent.
      unfold TCPSender.ackReceived
      rw [if_neg (not_lt.mpr hsent), if_pos (not_lt.mp hnew)]
      intro hopen
      cases hheeded (not_lt.mp hnew) with
      | inl hclosed => exact absurd hopen (not_lt.mpr hclosed)
      | inr hidle => exact hidle
  · unfold TCPSender.ackReceived
    rw [if_pos (not_le.mp hsent)]
    exact h.exhausted

theorem Busy.tick {sender : TCPSender} (h : Busy sender) (msSinceLastTick : ℕ) :
    Busy (sender.tick msSinceLastTick) := by
  refine ⟨h.sequenced.moves (TCPSender.tick_moves sender msSinceLastTick), ?_⟩
  obtain ⟨_, _, _, _, heq⟩ := TCPSender.tick_frame sender msSinceLastTick
  rw [heq]
  exact h.exhausted

theorem WindowHeeded.nothingAfterFin (h : connection.WindowHeeded call) :
    connection.NothingAfterFin call := by
  cases call with
  | write data => exact h
  | connect | endInputStream | segmentReceived | tick | readInbound => trivial

/-- No call leaves an open window unused, if old acknowledgments do not open it. -/
theorem busy_step (h : Busy connection.sender) (hcall : connection.WindowHeeded call) :
    Busy (connection.step call).sender := by
  apply sender_step Busy settlesSender_busy h
  · exact busy_fillWindow (sequenced_access h.sequenced hcall.nothingAfterFin)
  · intro segment heq hprocessed
    subst heq
    exact h.ackReceived (hcall hprocessed)
  · exact fun msSinceLastTick _ ↦ h.tick msSinceLastTick

/-- In every run in which the window is opened only by new acknowledgments, or while nothing is left
to send, the connection uses an open window at once: if there is room, the outbound buffer is empty,
and the FIN has been sent if the outbound stream has ended. -/
theorem open_window_used (cfg : TCPConfig) (randomIsn : WrappingInt32) (calls : List Call)
    (h : Admissible step WindowHeeded (new cfg randomIsn) calls) :
    let sender := (run step (new cfg randomIsn) calls).sender
    sender.nextSeqno < sender.ackno + max sender.windowSize.toNat 1 →
      sender.stream.bufferEmpty = true ∧
        (sender.stream.inputEnded = false ∨ sender.fin = true) := by
  intro sender hopen
  have hbusy : Busy sender :=
    h.invariant (fun connection ↦ Busy connection.sender)
      (fun _ _ hbefore hcall ↦ busy_step hbefore hcall)
      ⟨(alert_new cfg randomIsn).sequenced, fun _ ↦ (alert_new cfg randomIsn).idle rfl⟩
  have hidle := hbusy.exhausted hopen
  refine ⟨hbusy.sequenced.valid.bufferEmpty_iff.mpr hidle.1, ?_⟩
  cases hended : sender.stream.inputEnded with
  | false => exact .inl rfl
  | true => exact .inr (hidle.2 hended)

/-- In SYN_SENT a bare acknowledgment of nothing is refused, whatever window it announces.  The SYN is
then acknowledged with a window of one, and again, and at last the first byte with a window of ten. -/
theorem open_window_used_after_repeated_ack :
    let calls : List Call := [.connect, .write [97, 98],
      .segmentReceived { header := { seqno := ⟨5⟩, ackno := ⟨0⟩, ack := true, win := 10 } },
      .segmentReceived
        { header := { seqno := ⟨100⟩, ackno := ⟨1⟩, syn := true, ack := true, win := 1 } },
      .segmentReceived { header := { seqno := ⟨101⟩, ackno := ⟨1⟩, ack := true, win := 1 } },
      .segmentReceived { header := { seqno := ⟨101⟩, ackno := ⟨2⟩, ack := true, win := 10 } }]
    let sender := (run step (new { fixedIsn := some ⟨0⟩ } ⟨7⟩) calls).sender
    Admissible step WindowHeeded (new { fixedIsn := some ⟨0⟩ } ⟨7⟩) calls ∧
      sender.nextSeqno = 3 ∧ sender.ackno = 2 ∧ sender.stream.bufferEmpty = true := by
  intro calls sender
  have h : Admissible step WindowHeeded (new { fixedIsn := some ⟨0⟩ } ⟨7⟩) calls := by
    decide +kernel
  have hresult := open_window_used { fixedIsn := some ⟨0⟩ } ⟨7⟩ calls h (by decide +kernel)
  exact ⟨h, by decide +kernel, by decide +kernel, hresult.1⟩

/-- The window opens from three to ten in an acknowledgment that repeats the current number: the
connection is active, there is room for seven more bytes, and two stay in the buffer. -/
theorem repeated_ack_leaves_window_unused :
    let calls : List Call := [.connect, .segmentReceived
      { header := { seqno := ⟨100⟩, ackno := ⟨1⟩, syn := true, ack := true, win := 3 } },
      .write [1, 2, 3, 4, 5], .segmentReceived
      { header := { seqno := ⟨101⟩, ackno := ⟨1⟩, ack := true, win := 10 } }]
    let final := run step (new { fixedIsn := some ⟨0⟩ } ⟨7⟩) calls
    final.active = true ∧ final.sender.syn = true ∧
      final.sender.nextSeqno + 7 = final.sender.ackno + max final.sender.windowSize.toNat 1 ∧
      final.sender.stream.contents = [4, 5] := by
  decide +kernel

end TCPConnection

end Sponge
