import Sponge.TCP.Phases

/-!
# Clean shutdown

Whether a connection may close is stated from its history alone: `Passive` says that the inbound
stream ended before the outbound stream did, and `silence` adds up the ticks since the last incoming
segment.  The flag and the two clocks of the connection agree with them, so the connection closes in
the first call at the end of which it may.
-/

namespace Sponge

open Execution

namespace TCPSender

variable {sender after : TCPSender}

theorem eof_move (hvalid : sender.stream.Valid) (heof : sender.stream.eof = true)
    (hmove : Move sender after) : after.stream.eof = true := by
  have hafter := valid_move hvalid hmove
  rw [hvalid.eof_iff] at heof
  rw [hafter.eof_iff]
  cases hmove with
  | @send _ segment =>
    refine ⟨(ByteStream.popOutput_frame _ _).2.2.1.trans heof.1, ?_⟩
    change (sender.stream.popOutput segment.payload.size).contents = []
    rw [ByteStream.contents_popOutput hvalid, heof.2, List.drop_nil]
  | acknowledge =>
    rw [(acknowledge_frame sender _).2.1]
    exact heof
  | again | bare | adjust => exact heof

end TCPSender

namespace TCPConnection

variable {connection : TCPConnection} {call : Call} {past : List (TCPConnection × Call)}

/-! ## The history of a connection -/

/-- The calls that end with a test for the end. -/
def Settling : Call → Prop
  | .connect => False
  | .readInbound _ => False
  | _ => True

/-- Both streams have ended, and everything that was sent has been acknowledged. -/
structure Finished (connection : TCPConnection) : Prop where
  inbound : connection.receiver.streamOut.inputEnded = true
  outbound : connection.sender.stream.eof = true
  sent : connection.sender.nextSeqno = connection.sender.stream.bytesWritten + 2
  acknowledged : connection.sender.bytesInFlight = 0

/-- The outbound stream was not at its end after the call in which the inbound stream ended. -/
def Passive (past : List (TCPConnection × Call)) : Prop :=
  ∃ entry ∈ past, entry.1.receiver.streamOut.inputEnded = false ∧
    (entry.1.step entry.2).receiver.streamOut.inputEnded = true ∧
    (entry.1.step entry.2).sender.stream.eof = false

/-- A tick prolongs the silence, and a segment breaks it. -/
def prolong (passed : ℕ) : Call → ℕ
  | .segmentReceived _ => 0
  | .tick msSinceLastTick => passed + msSinceLastTick
  | _ => passed

/-- Milliseconds of ticks since the last incoming segment. -/
def silence (past : List (TCPConnection × Call)) : ℕ :=
  past.foldl (fun passed entry ↦ prolong passed entry.2) 0

/-- The connection may close after the last call of its history. -/
def MayClose (rtTimeout : ℕ) (past : List (TCPConnection × Call)) (connection : TCPConnection) :
    Prop :=
  connection.Finished ∧ (Passive past ∨ 10 * rtTimeout ≤ silence past)

/-- At the end of some call that tests for the end, the connection was allowed to close. -/
def CouldClose (rtTimeout : ℕ) (past : List (TCPConnection × Call)) : Prop :=
  ∃ front entry back, past = front ++ entry :: back ∧ Settling entry.2 ∧
    MayClose rtTimeout (front ++ [entry]) (entry.1.step entry.2)

theorem silence_concat :
    silence (past ++ [(connection, call)]) = prolong (silence past) call := by
  simp [silence]

theorem passive_concat : Passive (past ++ [(connection, call)]) ↔ Passive past ∨
    connection.receiver.streamOut.inputEnded = false ∧
      (connection.step call).receiver.streamOut.inputEnded = true ∧
      (connection.step call).sender.stream.eof = false := by
  simp only [Passive, List.mem_append, List.mem_singleton, or_and_right, exists_or, exists_eq_left]

theorem couldClose_concat {rtTimeout : ℕ} : CouldClose rtTimeout (past ++ [(connection, call)]) ↔
    CouldClose rtTimeout past ∨
      Settling call ∧ MayClose rtTimeout (past ++ [(connection, call)]) (connection.step call) := by
  constructor
  · rintro ⟨front, entry, back, heq, hsettling, hmay⟩
    cases List.eq_nil_or_concat back with
    | inl hnil =>
      subst hnil
      obtain ⟨rfl, hentry⟩ := List.append_inj' heq rfl
      cases List.singleton_inj.mp hentry
      exact .inr ⟨hsettling, hmay⟩
    | inr hconcat =>
      obtain ⟨rest, last, rfl⟩ := hconcat
      have hsplit : past ++ [(connection, call)] = (front ++ entry :: rest) ++ [last] := by
        simpa using heq
      exact .inl ⟨front, entry, rest, (List.append_inj' hsplit rfl).1, hsettling, hmay⟩
  · rintro (⟨front, entry, back, rfl, hsettling, hmay⟩ | ⟨hsettling, hmay⟩)
    · exact ⟨front, entry, back ++ [(connection, call)], by simp, hsettling, hmay⟩
    · exact ⟨past, (connection, call), [], rfl, hsettling, hmay⟩

/-- The streams are finished exactly in TIME_WAIT. -/
theorem finished_iff : connection.Finished ↔ connection.timeWait = true := by
  simp only [timeWait, TCPReceiver.finRecv, TCPSender.finAcked, Bool.and_eq_true_iff, beq_iff_eq]
  exact ⟨fun h ↦ ⟨h.inbound, ⟨h.outbound, h.sent⟩, h.acknowledged⟩,
    fun h ↦ ⟨h.1, h.2.1.1, h.2.1.2, h.2.2⟩⟩

/-! ## The test for the end -/

/-- What decides about the end of the connection, apart from its two flags. -/
structure SameEnd (before after : TCPConnection) : Prop where
  inbound : after.receiver.streamOut.inputEnded = before.receiver.streamOut.inputEnded
  outbound : after.sender.stream.eof = before.sender.stream.eof
  wait : after.timeWait = before.timeWait
  cfg : after.cfg = before.cfg
  nowTime : after.nowTime = before.nowTime
  lastTime : after.timeWhenLastSegmentReceived = before.timeWhenLastSegmentReceived

theorem giveUp_frame (connection : TCPConnection) :
    SameEnd connection connection.giveUp ∧
      connection.giveUp.lingerAfterStreamsFinish = connection.lingerAfterStreamsFinish ∧
      connection.giveUp.isClearShutdown = connection.isClearShutdown := by
  unfold giveUp
  split_ifs <;> exact ⟨⟨rfl, rfl, rfl, rfl, rfl, rfl⟩, rfl, rfl⟩

theorem stopLingering_eq (connection : TCPConnection) :
    connection.stopLingering = { connection with
      lingerAfterStreamsFinish := connection.lingerAfterStreamsFinish &&
        (connection.sender.stream.eof || !connection.receiver.streamOut.inputEnded) } := by
  unfold stopLingering TCPReceiver.finRecv
  cases connection.sender.stream.eof <;> cases connection.receiver.streamOut.inputEnded <;> simp

/-- The connection closes in TIME_WAIT, if it does not linger or has heard nothing for long enough. -/
theorem clearShutdown_eq (connection : TCPConnection) :
    connection.clearShutdown = { connection with
      isClearShutdown := connection.isClearShutdown || connection.timeWait &&
        (!connection.lingerAfterStreamsFinish ||
          decide (10 * connection.cfg.rtTimeout.toNat ≤
            connection.timeSinceLastSegmentReceived)) } := by
  unfold clearShutdown
  cases connection.timeWait <;> simp

/-- The two flags after a test for the end. -/
theorem testEnd_flags (connection : TCPConnection) :
    SameEnd connection connection.testEnd ∧
      connection.testEnd.lingerAfterStreamsFinish = (connection.lingerAfterStreamsFinish &&
        (connection.sender.stream.eof || !connection.receiver.streamOut.inputEnded)) ∧
      connection.testEnd.isClearShutdown = (connection.isClearShutdown || connection.timeWait &&
        (!connection.testEnd.lingerAfterStreamsFinish ||
          decide (10 * connection.cfg.rtTimeout.toNat ≤
            connection.timeSinceLastSegmentReceived))) := by
  obtain ⟨hsame, hlinger, hclear⟩ := giveUp_frame connection
  have hwait : timeWait { connection.giveUp with
      lingerAfterStreamsFinish := connection.giveUp.lingerAfterStreamsFinish &&
        (connection.giveUp.sender.stream.eof ||
          !connection.giveUp.receiver.streamOut.inputEnded) } = connection.timeWait := hsame.wait
  unfold testEnd
  rw [stopLingering_eq, clearShutdown_eq, hwait]
  refine ⟨⟨hsame.inbound, hsame.outbound, hsame.wait, hsame.cfg, hsame.nowTime, hsame.lastTime⟩,
    ?_, ?_⟩
  · rw [← hlinger, ← hsame.outbound, ← hsame.inbound]
  · unfold timeSinceLastSegmentReceived
    rw [← hclear, ← hsame.nowTime, ← hsame.lastTime, ← hsame.cfg]

/-- The main effect of a call leaves the flags and the configuration alone and keeps the time. -/
theorem perform_frame (connection : TCPConnection) (call : Call) :
    (connection.perform call).cfg = connection.cfg ∧
      (connection.perform call).lingerAfterStreamsFinish = connection.lingerAfterStreamsFinish ∧
      (connection.perform call).isClearShutdown = connection.isClearShutdown := by
  cases call with
  | connect =>
    unfold perform
    split_ifs <;> exact ⟨rfl, rfl, rfl⟩
  | segmentReceived segment =>
    unfold perform segmentReceiveRoute
    dsimp only
    split_ifs <;> exact ⟨rfl, rfl, rfl⟩
  | write | endInputStream | tick | readInbound => exact ⟨rfl, rfl, rfl⟩

/-- The difference of the two clocks is the silence. -/
theorem perform_clock {passed : ℕ}
    (h : connection.nowTime = connection.timeWhenLastSegmentReceived + passed) (call : Call) :
    (connection.perform call).nowTime =
      (connection.perform call).timeWhenLastSegmentReceived + prolong passed call := by
  cases call with
  | connect =>
    unfold perform
    split_ifs <;> exact h
  | segmentReceived segment =>
    unfold perform segmentReceiveRoute
    dsimp only
    split_ifs <;> rfl
  | tick msSinceLastTick =>
    change connection.nowTime + msSinceLastTick =
      connection.timeWhenLastSegmentReceived + (passed + msSinceLastTick)
    omega
  | write | endInputStream | readInbound => exact h

/-- The flags after a call that tests for the end. -/
theorem settled (hcall : Settling call) {passed : ℕ}
    (hclock : connection.nowTime = connection.timeWhenLastSegmentReceived + passed) :
    let after := connection.step call
    after.cfg = connection.cfg ∧
      after.nowTime = after.timeWhenLastSegmentReceived + prolong passed call ∧
      after.lingerAfterStreamsFinish = (connection.lingerAfterStreamsFinish &&
        (after.sender.stream.eof || !after.receiver.streamOut.inputEnded)) ∧
      after.isClearShutdown = (connection.isClearShutdown || after.timeWait &&
        (!after.lingerAfterStreamsFinish ||
          decide (10 * connection.cfg.rtTimeout.toNat ≤ prolong passed call))) := by
  have hstep : connection.step call = (connection.perform call).collectOutput.testEnd := by
    cases call <;> first | rfl | exact hcall.elim
  obtain ⟨hcfg, hlinger, hclear⟩ := perform_frame connection call
  have htime := perform_clock hclock call
  obtain ⟨hsame, hlingers, hcloses⟩ := testEnd_flags (connection.perform call).collectOutput
  have hsilent : (connection.perform call).collectOutput.timeSinceLastSegmentReceived =
      prolong passed call := by
    change Word.sub (connection.perform call).nowTime
      (connection.perform call).timeWhenLastSegmentReceived = _
    rw [htime, Word.sub_of_le (Nat.le_add_right _ _), Nat.add_sub_cancel_left]
  intro after
  have hafter : after = (connection.perform call).collectOutput.testEnd := hstep
  clear_value after
  subst hafter
  refine ⟨hsame.cfg.trans hcfg, ?_, ?_, ?_⟩
  · rw [hsame.nowTime, hsame.lastTime]
    exact htime
  · rw [hlingers, hsame.outbound, hsame.inbound, ← hlinger]
    rfl
  · rw [hcloses, hsame.wait, hsilent, ← hclear, ← hcfg]
    rfl

/-- A call that does not test for the end leaves the flags and the inbound stream alone. -/
theorem unsettled (hcall : ¬ Settling call) {passed : ℕ}
    (hclock : connection.nowTime = connection.timeWhenLastSegmentReceived + passed) :
    let after := connection.step call
    after.cfg = connection.cfg ∧
      after.nowTime = after.timeWhenLastSegmentReceived + prolong passed call ∧
      after.lingerAfterStreamsFinish = connection.lingerAfterStreamsFinish ∧
      after.isClearShutdown = connection.isClearShutdown ∧
      after.receiver.streamOut.inputEnded = connection.receiver.streamOut.inputEnded := by
  cases call with
  | connect =>
    dsimp only [step]
    unfold connect
    split_ifs <;> exact ⟨rfl, hclock, rfl, rfl, rfl⟩
  | readInbound len =>
    exact ⟨rfl, hclock, rfl, rfl, (ByteStream.popOutput_frame _ _).2.2.1⟩
  | write | endInputStream | segmentReceived | tick => exact absurd trivial hcall

/-- Once at its end, the outbound stream stays there. -/
theorem eof_step (hvalid : connection.sender.stream.Valid)
    (heof : connection.sender.stream.eof = true) (hcall : connection.WritesBeforeEnd call) :
    (connection.step call).sender.stream.eof = true := by
  apply sender_step_of_move (fun sender ↦ sender.stream.eof = true) (fun _ h ↦ h) (fun _ h ↦ h)
    (fun _ _ hvalid h hmove ↦ TCPSender.eof_move hvalid h hmove) hvalid
  · cases call with
    | write data =>
      have hended : connection.sender.stream.ended = false := hcall
      rw [(hvalid.eof_iff.mp heof).1] at hended
      contradiction
    | endInputStream =>
      exact hvalid.endInput.eof_iff.mpr ⟨rfl, (hvalid.eof_iff.mp heof).2⟩
    | connect | segmentReceived | tick | readInbound => exact heof

/-! ## Runs -/

/-- The flags and the clocks of the connection agree with its history. -/
structure Watched (rtTimeout : ℕ) (past : List (TCPConnection × Call)) (connection : TCPConnection) :
    Prop where
  regular : connection.Regular
  cfg : connection.cfg.rtTimeout.toNat = rtTimeout
  clock : connection.nowTime = connection.timeWhenLastSegmentReceived + silence past
  lingers : connection.lingerAfterStreamsFinish = false ↔ Passive past
  passive : Passive past → connection.receiver.streamOut.inputEnded = true
  waits : connection.receiver.streamOut.inputEnded = true →
    connection.lingerAfterStreamsFinish = true → connection.sender.stream.eof = true
  closed : connection.isClearShutdown = true ↔ CouldClose rtTimeout past

theorem watched_new (cfg : TCPConfig) (randomIsn : WrappingInt32) :
    Watched cfg.rtTimeout.toNat [] (new cfg randomIsn) where
  regular := regular_new cfg randomIsn
  cfg := rfl
  clock := rfl
  lingers := by simp [new, Passive]
  passive := by simp [Passive]
  waits := by simp [new, TCPReceiver.new, TCPReceiver.streamOut, StreamReassembler.new,
    ByteStream.inputEnded, ByteStream.new]
  closed := by simp [new, CouldClose]

variable {rtTimeout : ℕ}

/-- A call that tests for the end sets the flags as its history demands. -/
theorem Watched.step_of_settling (h : Watched rtTimeout past connection) (hcall : Settling call)
    (hallowed : connection.WritesBeforeEnd call) :
    Watched rtTimeout (past ++ [(connection, call)]) (connection.step call) := by
  obtain ⟨hcfg, hclock, hlinger, hclear⟩ := settled hcall h.clock
  have hended := (receiver_advances h.regular.sound call).2.ended
  have hpassive : (connection.step call).lingerAfterStreamsFinish = false ↔
      Passive (past ++ [(connection, call)]) := by
    rw [hlinger, passive_concat, Bool.and_eq_false_iff, Bool.or_eq_false_iff, Bool.not_eq_false',
      h.lingers]
    constructor
    · rintro (hbefore | ⟨heof, hinbound⟩)
      · exact .inl hbefore
      · by_cases hold : connection.receiver.streamOut.inputEnded = true
        · -- The inbound stream ended earlier, with the outbound stream at its end or not.
          cases hflag : connection.lingerAfterStreamsFinish with
          | false => exact .inl (h.lingers.mp hflag)
          | true =>
            rw [eof_step h.regular.sequenced.valid (h.waits hold hflag) hallowed] at heof
            contradiction
        · exact .inr ⟨Bool.eq_false_iff.mpr hold, hinbound, heof⟩
    · rintro (hbefore | ⟨-, hinbound, heof⟩)
      · exact .inl hbefore
      · exact .inr ⟨heof, hinbound⟩
  refine ⟨h.regular.step (hallowed.nothingAfterFin h.regular.sequenced), by rw [hcfg, h.cfg],
    by rw [silence_concat, hclock], hpassive, ?_, ?_, ?_⟩
  · rw [passive_concat]
    rintro (hbefore | hnow)
    · exact (hended (h.passive hbefore)).1
    · exact hnow.2.1
  · intro hinbound hflag
    rw [hlinger, hinbound, Bool.not_true, Bool.or_false, Bool.and_eq_true_iff] at hflag
    exact hflag.2
  · rw [hclear, couldClose_concat, Bool.or_eq_true_iff, h.closed, MayClose, finished_iff,
      silence_concat, ← hpassive, ← h.cfg]
    simp [hcall]

/-- Any other call leaves them, and does not change what they depend on. -/
theorem Watched.step_of_not_settling (h : Watched rtTimeout past connection)
    (hcall : ¬ Settling call) (hallowed : connection.WritesBeforeEnd call) :
    Watched rtTimeout (past ++ [(connection, call)]) (connection.step call) := by
  obtain ⟨hcfg, hclock, hlinger, hclear, hinbound⟩ := unsettled hcall h.clock
  have hpassive : Passive (past ++ [(connection, call)]) ↔ Passive past := by
    rw [passive_concat, hinbound]
    exact or_iff_left fun hnow ↦ Bool.false_ne_true (hnow.1.symm.trans hnow.2.1)
  refine ⟨h.regular.step (hallowed.nothingAfterFin h.regular.sequenced), by rw [hcfg, h.cfg],
    by rw [silence_concat, hclock], ?_, ?_, ?_, ?_⟩
  · rw [hlinger, hpassive, h.lingers]
  · rw [hpassive, hinbound]
    exact h.passive
  · rw [hinbound, hlinger]
    exact fun hended hflag ↦
      eof_step h.regular.sequenced.valid (h.waits hended hflag) hallowed
  · rw [hclear, couldClose_concat, h.closed]
    exact (or_iff_left fun hnow ↦ hcall hnow.1).symm

theorem Watched.step (h : Watched rtTimeout past connection)
    (hallowed : connection.WritesBeforeEnd call) :
    Watched rtTimeout (past ++ [(connection, call)]) (connection.step call) := by
  by_cases hcall : Settling call
  · exact h.step_of_settling hcall hallowed
  · exact h.step_of_not_settling hcall hallowed

/-- The flags agree with the history after every run. -/
theorem watched_run {cfg : TCPConfig} {randomIsn : WrappingInt32} {calls : List Call}
    (h : Admissible step WritesBeforeEnd (new cfg randomIsn) calls) :
    Watched cfg.rtTimeout.toNat (trace step (new cfg randomIsn) calls)
      (run step (new cfg randomIsn) calls) :=
  h.trace_invariant (Watched cfg.rtTimeout.toNat) (fun _ _ _ hbefore hcall ↦ hbefore.step hcall)
    (watched_new cfg randomIsn)

/-- Once the inbound stream has ended, it is settled whether the connection lingers. -/
theorem Watched.linger_step (h : Watched rtTimeout past connection)
    (hended : connection.receiver.streamOut.inputEnded = true)
    (hallowed : connection.WritesBeforeEnd call) :
    (connection.step call).lingerAfterStreamsFinish = connection.lingerAfterStreamsFinish := by
  have hpassive : Passive (past ++ [(connection, call)]) ↔ Passive past := by
    rw [passive_concat, hended]
    exact or_iff_left fun hnow ↦ Bool.false_ne_true hnow.1.symm
  have hiff := (h.step hallowed).lingers.trans (hpassive.trans h.lingers.symm)
  cases hflag : connection.lingerAfterStreamsFinish with
  | false => exact hiff.mpr hflag
  | true =>
    rw [hflag] at hiff
    simpa using hiff

/-- In every run without a write after the end of the input and without a reset, the connection is
inactive exactly if, at the end of some call that tests for the end, it was allowed to close: both
streams had ended and everything was acknowledged, and either the inbound stream had ended first or
the peer had been silent for ten timeouts.  Once the inbound stream has ended, whether the connection
lingers is settled for ever. -/
theorem closes_exactly_when_it_may (cfg : TCPConfig) (randomIsn : WrappingInt32) (calls : List Call)
    (h : Admissible step WritesBeforeEnd (new cfg randomIsn) calls)
    (hreset : (run step (new cfg randomIsn) calls).isUnclearShutdown = false) :
    let past := trace step (new cfg randomIsn) calls
    let final := run step (new cfg randomIsn) calls
    (final.active = false ↔ CouldClose cfg.rtTimeout.toNat past) ∧
      (final.receiver.streamOut.inputEnded = true →
        (final.lingerAfterStreamsFinish = false ↔ Passive past) ∧
        ∀ more, Admissible step WritesBeforeEnd final more →
          (run step final more).lingerAfterStreamsFinish = final.lingerAfterStreamsFinish) := by
  intro past final
  have hwatched : Watched cfg.rtTimeout.toNat past final := watched_run h
  refine ⟨?_, fun hended ↦ ⟨hwatched.lingers, fun more hmore ↦ ?_⟩⟩
  · have hclosed : final.active = false ↔ final.isClearShutdown = true := by
      rw [active, show final.isUnclearShutdown = false from hreset, Bool.false_or,
        Bool.not_eq_false']
    exact hclosed.trans hwatched.closed
  · have hfinal := hmore.invariant (fun connection ↦
        (∃ past, Watched cfg.rtTimeout.toNat past connection) ∧
        connection.receiver.streamOut.inputEnded = true ∧
        connection.lingerAfterStreamsFinish = final.lingerAfterStreamsFinish) ?_
      ⟨⟨past, hwatched⟩, hended, rfl⟩
    · exact hfinal.2.2
    · rintro connection call ⟨⟨past, hbefore⟩, hinbound, hsame⟩ hcall
      exact ⟨⟨_, hbefore.step hcall⟩,
        ((receiver_advances hbefore.regular.sound call).2.ended hinbound).1,
        (hbefore.linger_step hinbound hcall).trans hsame⟩

/-- The connection ends its stream first.  Its FIN and the one of the peer are acknowledged, a segment
arrives after 9999 milliseconds of silence, and after another 10000 milliseconds it closes. -/
theorem closes_exactly_when_it_may_after_lingering :
    let calls : List Call := [.connect,
      .segmentReceived
        { header := { seqno := ⟨100⟩, ackno := ⟨1⟩, syn := true, ack := true, win := 10 } },
      .endInputStream,
      .segmentReceived { header := { seqno := ⟨101⟩, ackno := ⟨2⟩, ack := true, fin := true } },
      .tick 9999,
      .segmentReceived { header := { seqno := ⟨101⟩, ackno := ⟨2⟩, ack := true, fin := true } }]
    let past := run step (new { fixedIsn := some ⟨0⟩ } ⟨7⟩) calls
    let final := run step past [.tick 10000]
    past.active = true ∧ final.active = false ∧
      CouldClose 1000 (trace step (new { fixedIsn := some ⟨0⟩ } ⟨7⟩) (calls ++ [.tick 10000])) := by
  intro calls past final
  have h : Admissible step WritesBeforeEnd (new { fixedIsn := some ⟨0⟩ } ⟨7⟩)
      (calls ++ [.tick 10000]) := by
    decide +kernel
  have hclosed : final.active = false := by decide +kernel
  have hresult := closes_exactly_when_it_may { fixedIsn := some ⟨0⟩ } ⟨7⟩ (calls ++ [.tick 10000]) h
    (by decide +kernel)
  refine ⟨by decide +kernel, hclosed, hresult.1.mp ?_⟩
  rw [run_append]
  exact hclosed

end TCPConnection

end Sponge
