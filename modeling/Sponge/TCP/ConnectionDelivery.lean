import Sponge.Socket.ConnectionFacts
import Sponge.TCP.ReceiverCoverage
import Sponge.TCP.Replies
import Sponge.TCP.SenderSupply

/-!
# A connection in conversation

What the functions of a connection do once its SYN is on its way, as long as it is not reset and has not
tried too often.  A segment goes to the receiver and its acknowledgment to the sender; what the sender
queues is sent with the numbers of the receiver, and with it a bare segment if one is called for.  A tick
sends the oldest outstanding segment again, at most.
-/

namespace Sponge

namespace TCPSender

variable {sender after : TCPSender}

theorem syn_move (hsyn : sender.syn = true) (h : Move sender after) : after.syn = true := by
  cases h with
  | send =>
    change (sender.syn || _) = true
    rw [hsyn, Bool.true_or]
  | @acknowledge newAckno =>
    obtain ⟨bytes, heq, -⟩ := acknowledge_eq sender newAckno
    rw [heq]
    exact hsyn
  | again | bare | adjust => exact hsyn

/-- The bare segment that `sendEmptySegment` queues. -/
def bareEmission (sender : TCPSender) : Emission where
  segment := { header := { seqno := wrap sender.nextSeqno sender.isn } }
  kind := .bare
  absSeqno := sender.nextSeqno

/-- The fields that the connection fills in are not set yet. -/
def Blank (segment : TCPSegment) : Prop :=
  segment.header.rst = false ∧ segment.header.ack = false

/-- The sender leaves RST and ACK to the connection. -/
theorem makes_blank : Makes Blank := by
  intro sender windowSize hvalid hwindow
  obtain ⟨segment, hnext, -, hfilled⟩ := filled_spec hvalid hwindow
  constructor
  · unfold filled Filling.setFin Filling.setPayload Filling.setSeqno Filling.setSyn
    dsimp only
    split_ifs <;> rfl
  · rw [hfilled]
    exact hnext.ack

/-- A tick counts at most one more retransmission, and none if nothing is outstanding. -/
theorem tries_tick (sender : TCPSender) (msSinceLastTick : ℕ) :
    (sender.tick msSinceLastTick).consecutiveRetransmissions = sender.consecutiveRetransmissions ∨
      sender.outstandingSegment ≠ [] ∧ (sender.tick msSinceLastTick).consecutiveRetransmissions =
        sender.consecutiveRetransmissions + 1 := by
  unfold tick
  dsimp only
  split
  · exact .inl rfl
  · rename_i oldest rest hfront
    have hsome : sender.outstandingSegment ≠ [] := by
      rw [hfront]
      exact List.cons_ne_nil _ _
    split_ifs
    · unfold retransmit
      dsimp only
      split_ifs
      · exact .inr ⟨hsome, rfl⟩
      · exact .inr ⟨hsome, rfl⟩
      · exact .inl rfl
      · exact .inl rfl
    · exact .inl rfl

/-- A sender that has started anew, or has nothing outstanding, retransmits once at most. -/
theorem Sequenced.tries_tick_le (h : sender.Sequenced)
    (htries : sender.consecutiveRetransmissions = 0 ∨
      sender.consecutiveRetransmissions ≤ 1 ∧ sender.ackno = sender.nextSeqno) (msSinceLastTick : ℕ) :
    (sender.tick msSinceLastTick).consecutiveRetransmissions ≤ 1 := by
  rcases tries_tick sender msSinceLastTick with hsame | ⟨hsome, hmore⟩
  · rw [hsame]
    cases htries with
    | inl hzero => rw [hzero]; decide
    | inr hless => exact hless.1
  · rw [hmore]
    cases htries with
    | inl hzero => rw [hzero]; decide
    | inr hall => exact absurd (h.eq_nil_iff.mpr hall.2) hsome

/-- What a tick sends has been outstanding. -/
theorem outstanding_of_tick {emission : Emission} {msSinceLastTick : ℕ}
    (hdrained : sender.segmentsOut = [])
    (h : emission ∈ (sender.tick msSinceLastTick).segmentsOut) :
    (emission.absSeqno, emission.segment) ∈ sender.outstandingSegment := by
  unfold tick at h
  dsimp only at h
  split at h
  · rw [hdrained] at h
    exact absurd h List.not_mem_nil
  · rename_i oldest rest hfront
    have hmem : (oldest.1, oldest.2) ∈ sender.outstandingSegment := by
      rw [hfront]
      exact List.mem_cons_self
    unfold retransmit at h
    dsimp only at h
    split_ifs at h <;> simp_all

end TCPSender

namespace TCPConnection

open TCPReceiver TCPSender

variable {connection after : TCPConnection} {call : Call} {segment : TCPSegment} {emission : Emission}

/-! ## What a connection tells its peer -/

/-- The segment is not a reset, and it tells the peer what the receiver acknowledges and has room for, as
soon as the receiver has heard of the peer. -/
structure Announces (receiver : TCPReceiver) (emission : Emission) : Prop where
  rst : emission.segment.header.rst = false
  ack : emission.segment.header.ack = receiver.isn.isSome
  absAckno : receiver.isn.isSome = true → emission.absAckno = receiver.absAckno
  win : receiver.isn.isSome = true →
    emission.segment.header.win.toNat = min receiver.windowSize 65535

/-- What the connection fills in tells of its receiver. -/
theorem announces_setSegment (connection : TCPConnection)
    (hclear : connection.isUnclearShutdown = false) (hblank : Blank emission.segment) :
    Announces connection.receiver (connection.setSegment emission) := by
  obtain ⟨hrst, hack⟩ := hblank
  cases hisn : connection.receiver.isn with
  | none =>
    have hsame : connection.setSegment emission = emission := by
      simp [setSegment, hclear, TCPReceiver.ackno, hisn]
    rw [hsame]
    exact ⟨hrst, by rw [hack, hisn]; rfl, by simp [hisn], by simp [hisn]⟩
  | some number =>
    have hopen : connection.receiver.isn.isSome = true := by rw [hisn]; rfl
    have hinforms := informs_setSegment emission hclear hopen
    refine ⟨?_, hinforms.ack.trans hopen.symm, fun _ ↦ ?_, fun _ ↦ hinforms.win⟩
    all_goals simp [setSegment, hclear, TCPReceiver.ackno, hisn, hrst]

/-! ## Segments -/

/-- The connection has sent its SYN, is not reset and has not tried too often. -/
structure Attentive (connection : TCPConnection) : Prop where
  sequenced : connection.sender.Sequenced
  drained : connection.sender.segmentsOut = []
  syn : connection.sender.syn = true
  clear : connection.isUnclearShutdown = false
  tries_le : connection.sender.consecutiveRetransmissions ≤ TCPConfig.maxRetxAttempts

theorem Attentive.listen_eq_false (h : connection.Attentive) : connection.listen = false := by
  rw [listen, h.sequenced.closed_eq, h.syn, Bool.not_true, Bool.and_false]

/-- The bare segment with which a segment is answered, if one is called for. -/
def replies (connection : TCPConnection) (segment : TCPSegment) : List Emission :=
  let processed := connection.processAck segment
  if (!(connection.receiver.segmentReceived segment).2 || !processed.2 ||
      segment.lengthInSequenceSpace > 0) && processed.1.segmentsOut.isEmpty then
    [processed.1.bareEmission]
  else []

/-- All that an incoming segment makes the connection send. -/
def queuedBy (connection : TCPConnection) (segment : TCPSegment) : List Emission :=
  (connection.processAck segment).1.segmentsOut ++ connection.replies segment

theorem acknowledgeAndReply_eq (connection : TCPConnection) (segment : TCPSegment)
    (receiver : TCPReceiver) :
    { connection with receiver }.acknowledgeAndReply segment
        (!(connection.receiver.segmentReceived segment).2) =
      { connection with
        receiver
        sender := { (connection.processAck segment).1 with
          segmentsOut := connection.queuedBy segment } } := by
  have hsame : { connection with receiver }.processAck segment = connection.processAck segment := rfl
  unfold acknowledgeAndReply queuedBy replies
  dsimp only
  rw [hsame]
  split_ifs
  · rfl
  · rw [List.append_nil]

/-- What an incoming segment does to the connection. -/
structure Takes (connection : TCPConnection) (segment : TCPSegment) (after : TCPConnection) : Prop where
  receiver : after.receiver = (connection.receiver.segmentReceived segment).1
  sender : after.sender = { (connection.processAck segment).1 with segmentsOut := [] }
  clear : after.isUnclearShutdown = false
  cfg : after.cfg = connection.cfg
  nowTime : after.nowTime = connection.nowTime
  received : after.timeWhenLastSegmentReceived = connection.nowTime
  sent : after.segmentsOut = connection.segmentsOut ++ (connection.queuedBy segment).map
    { connection with receiver := (connection.receiver.segmentReceived segment).1 }.setSegment

/-- An attentive connection takes each segment of a peer that it has heard of. -/
theorem Attentive.takes (h : connection.Attentive) (hrst : segment.header.rst = false)
    (hheard : segment.header.syn = true ∨ connection.receiver.isn.isSome = true) :
    Takes connection segment (connection.segmentReceived segment) := by
  let stamped : TCPConnection :=
    { connection with timeWhenLastSegmentReceived := connection.nowTime }
  let received : TCPReceiver := (connection.receiver.segmentReceived segment).1
  let performed : TCPConnection := { stamped with
    receiver := received
    sender := { (connection.processAck segment).1 with segmentsOut := connection.queuedBy segment } }
  have hroute : stamped.segmentReceiveRoute segment = performed := by
    have hlisten : stamped.listen = false := h.listen_eq_false
    have hopen : received.isn.isSome = true := isSome_isn_segmentReceived hheard
    have hsynSent : TCPConnection.synSent { stamped with receiver := received } = false := by
      simp [TCPConnection.synSent, TCPReceiver.listen, TCPReceiver.ackno,
        Option.isSome_iff_ne_none.mp hopen]
    unfold segmentReceiveRoute
    rw [if_neg (Bool.eq_false_iff.mp hlisten), if_neg (Bool.eq_false_iff.mp hrst)]
    dsimp only
    rw [hsynSent, Bool.false_and, if_neg Bool.false_ne_true]
    exact acknowledgeAndReply_eq stamped segment received
  have htries : performed.sender.consecutiveRetransmissions ≤ TCPConfig.maxRetxAttempts := by
    change (connection.processAck segment).1.consecutiveRetransmissions ≤ _
    cases processAck_cases connection segment with
    | inl hsame => exact hsame ▸ h.tries_le
    | inr hacked => exact hacked.2 ▸ tries_ackReceived h.sequenced.valid h.tries_le _ _
  have hwhole : connection.segmentReceived segment = performed.collectOutput.testEnd := by
    rw [← hroute]
    rfl
  obtain ⟨_, _, heq⟩ := testEnd_collectOutput htries
  rw [hwhole, heq]
  exact ⟨rfl, rfl, h.clear, rfl, rfl, rfl, rfl⟩

theorem mem_replies (h : emission ∈ connection.replies segment) :
    emission = (connection.processAck segment).1.bareEmission := by
  unfold replies at h
  dsimp only at h
  split_ifs at h
  · exact List.mem_singleton.mp h
  · exact absurd h List.not_mem_nil

/-- A segment that occupies sequence numbers is answered. -/
theorem queuedBy_ne_nil (connection : TCPConnection) (hlength : 0 < segment.lengthInSequenceSpace) :
    connection.queuedBy segment ≠ [] := by
  unfold queuedBy replies
  simp only [hlength, decide_true, Bool.or_true, Bool.true_and]
  split_ifs with hempty
  · exact List.append_ne_nil_of_right_ne_nil _ (List.cons_ne_nil _ _)
  · rw [List.append_nil]
    simpa using hempty

/-- A bare segment that is taken is not answered. -/
theorem replies_eq_nil (hbare : segment.lengthInSequenceSpace = 0)
    (haccepted : (connection.receiver.segmentReceived segment).2 = true)
    (hacked : (connection.processAck segment).2 = true) : connection.replies segment = [] := by
  simp [replies, haccepted, hacked, hbare]

/-- The connection fills in nothing that decides about a FIN without data. -/
theorem loneFinReached_setSegment {taken : ℕ}
    (h : LoneFinReached taken emission.absSeqno emission.segment) :
    LoneFinReached taken (connection.setSegment emission).absSeqno
      (connection.setSegment emission).segment := by
  cases setSegment_cases connection emission with
  | inl hreset =>
    obtain ⟨rst, heq⟩ := hreset
    rw [heq]
    exact h
  | inr hset =>
    obtain ⟨number, win, -, heq⟩ := hset
    rw [heq]
    exact h

theorem Takes.loneFinReached {taken count : ℕ} (h : Takes connection segment after)
    (hcount : count ≤ connection.segmentsOut.length)
    (hcarries : (connection.processAck segment).1.Carries (LoneFinReached taken))
    (hlone : ∀ emission ∈ connection.segmentsOut.drop count,
      LoneFinReached taken emission.absSeqno emission.segment) :
    ∀ emission ∈ after.segmentsOut.drop count,
      LoneFinReached taken emission.absSeqno emission.segment := by
  intro emission hemission
  rw [h.sent, List.drop_append_of_le_length hcount] at hemission
  cases List.mem_append.mp hemission with
  | inl hold => exact hlone emission hold
  | inr hnew =>
    obtain ⟨queued, hqueued, rfl⟩ := List.mem_map.mp hnew
    apply loneFinReached_setSegment
    cases List.mem_append.mp hqueued with
    | inl hsent => exact hcarries.emitted queued hsent
    | inr hreply =>
      rw [mem_replies hreply]
      exact fun hset ↦ absurd hset Bool.false_ne_true

/-! ## Time -/

/-- What a tick does to the connection. -/
structure Ticks (connection : TCPConnection) (msSinceLastTick : ℕ) (after : TCPConnection) : Prop where
  receiver : after.receiver = connection.receiver
  sender : after.sender = { connection.sender.tick msSinceLastTick with segmentsOut := [] }
  clear : after.isUnclearShutdown = false
  cfg : after.cfg = connection.cfg
  nowTime : after.nowTime = connection.nowTime + msSinceLastTick
  received : after.timeWhenLastSegmentReceived = connection.timeWhenLastSegmentReceived
  sent : after.segmentsOut = connection.segmentsOut ++
    (connection.sender.tick msSinceLastTick).segmentsOut.map connection.setSegment
  closes : after.timeWait = true →
    10 * after.cfg.rtTimeout.toNat ≤ after.timeSinceLastSegmentReceived → after.active = false

/-- A tick leaves the numbers and the stream of the sender alone. -/
theorem Ticks.sender_frame {msSinceLastTick : ℕ} (h : Ticks connection msSinceLastTick after)
    (hdrained : connection.sender.segmentsOut = []) :
    ∃ rto consecutiveRetransmissions timer, after.sender =
      { connection.sender with rto, consecutiveRetransmissions, timer } := by
  obtain ⟨_, rto, tries, timer, heq⟩ := tick_frame connection.sender msSinceLastTick
  refine ⟨rto, tries, timer, ?_⟩
  rw [h.sender, heq, ← hdrained]

/-- In TIME_WAIT, a connection that has heard nothing for long enough is over. -/
theorem isClearShutdown_testEnd
    (htries : connection.sender.consecutiveRetransmissions ≤ TCPConfig.maxRetxAttempts)
    (hwait : connection.timeWait = true)
    (htime : 10 * connection.cfg.rtTimeout.toNat ≤ connection.timeSinceLastSegmentReceived) :
    connection.testEnd.isClearShutdown = true := by
  unfold testEnd
  rw [giveUp_of_le htries]
  unfold clearShutdown stopLingering
  split_ifs with hfirst hagain
  · simp only [Bool.not_false, Bool.true_or, Bool.or_true]
  · exact absurd hwait hagain
  · rw [Bool.or_eq_true_iff, Bool.or_eq_true_iff]
    exact .inr (.inr (decide_eq_true htime))

theorem Attentive.ticks (h : connection.Attentive) (msSinceLastTick : ℕ)
    (htries : (connection.sender.tick msSinceLastTick).consecutiveRetransmissions ≤
      TCPConfig.maxRetxAttempts) :
    Ticks connection msSinceLastTick (connection.tick msSinceLastTick) := by
  let performed : TCPConnection := { connection with
    nowTime := connection.nowTime + msSinceLastTick
    sender := connection.sender.tick msSinceLastTick }
  have hwhole : connection.tick msSinceLastTick = performed.collectOutput.testEnd := rfl
  have hperformed : performed.sender.consecutiveRetransmissions ≤ TCPConfig.maxRetxAttempts := htries
  obtain ⟨linger, clear, heq⟩ := testEnd_collectOutput hperformed
  have hcloses : performed.collectOutput.timeWait = true →
      10 * performed.collectOutput.cfg.rtTimeout.toNat ≤
        performed.collectOutput.timeSinceLastSegmentReceived → clear = true := by
    intro hwait htime
    have hcollected : performed.collectOutput.testEnd.isClearShutdown = true :=
      isClearShutdown_testEnd hperformed hwait htime
    rwa [heq] at hcollected
  rw [hwhole, heq]
  refine ⟨rfl, rfl, h.clear, rfl, rfl, rfl, rfl, fun hwait htime ↦ ?_⟩
  have hset : clear = true := hcloses hwait htime
  rw [active, hset]
  exact (congrArg Bool.not (Bool.or_true _))

/-! ## The owner -/

/-- The connection has not sent anything.  Nothing has changed but its sender, and whether it is over. -/
def Quietly (connection : TCPConnection) (sender : TCPSender) (after : TCPConnection) : Prop :=
  ∃ lingerAfterStreamsFinish isClearShutdown,
    after = { connection with sender, lingerAfterStreamsFinish, isClearShutdown }

/-- With a full window, a change of the outbound stream sends nothing. -/
theorem Attentive.quietly (h : connection.Attentive) {stream : ByteStream}
    (hfull : connection.sender.ackno + connection.sender.effectiveWindow ≤
      connection.sender.nextSeqno) :
    Quietly connection { connection.sender with stream } { connection with
      sender := { connection.sender with stream }.fillWindow }.collectOutput.testEnd := by
  have hsame : { connection.sender with stream }.fillWindow = { connection.sender with stream } :=
    if_pos hfull
  rw [hsame]
  let performed : TCPConnection := { connection with sender := { connection.sender with stream } }
  have htries : performed.sender.consecutiveRetransmissions ≤ TCPConfig.maxRetxAttempts := h.tries_le
  have hdrained : performed.sender.segmentsOut = [] := h.drained
  have hcollect : performed.collectOutput = performed := by
    rw [collectOutput, hdrained, List.map_nil, List.append_nil, ← hdrained]
  obtain ⟨linger, clear, heq⟩ := testEnd_collectOutput htries
  refine ⟨linger, clear, ?_⟩
  change performed.collectOutput.testEnd = _
  rw [heq, hcollect]

/-- Without room in the window, what the owner writes is kept. -/
theorem Attentive.write_quietly (h : connection.Attentive)
    (hfull : connection.sender.ackno + connection.sender.effectiveWindow ≤
      connection.sender.nextSeqno) (data : List UInt8) :
    Quietly connection { connection.sender with stream := (connection.sender.stream.write data).1 }
      (connection.write data).1 :=
  h.quietly hfull

theorem Attentive.endInputStream_quietly (h : connection.Attentive)
    (hfull : connection.sender.ackno + connection.sender.effectiveWindow ≤
      connection.sender.nextSeqno) :
    Quietly connection { connection.sender with stream := connection.sender.stream.endInput }
      connection.endInputStream :=
  h.quietly hfull

/-! ## What has been sent -/

/-- The SYN has been sent alone, and every number that the sender has used is in a segment. -/
structure Launched (connection : TCPConnection) : Prop where
  sequenced : connection.sender.Sequenced
  syn : connection.sender.syn = true
  alone : connection.sender.Carries fun _ segment ↦
    segment.header.syn = true → segment.lengthInSequenceSpace = 1
  sent_alone : ∀ emission ∈ connection.segmentsOut,
    emission.segment.header.syn = true → emission.segment.lengthInSequenceSpace = 1
  covered : ∀ number < connection.sender.nextSeqno,
    ∃ emission ∈ connection.segmentsOut ++ connection.sender.segmentsOut,
      Brings emission.absSeqno emission.segment number

theorem syn_setSegment (connection : TCPConnection) (emission : Emission) :
    (connection.setSegment emission).segment.header.syn = emission.segment.header.syn := by
  cases setSegment_cases connection emission with
  | inl hreset =>
    obtain ⟨rst, heq⟩ := hreset
    rw [heq]
  | inr hset =>
    obtain ⟨number, win, -, heq⟩ := hset
    rw [heq]

theorem Launched.move {after : TCPSender} (h : connection.Launched)
    (hmove : Move connection.sender after) : Launched { connection with sender := after } where
  sequenced := h.sequenced.move hmove
  syn := syn_move h.syn hmove
  alone := by
    apply h.alone.move hmove
    · intro windowSize segment _ hnext hset
      rw [hnext.syn, h.sequenced.closed_eq, h.syn] at hset
      contradiction
    · exact fun hset ↦ absurd hset Bool.false_ne_true
  sent_alone := h.sent_alone
  covered := by
    intro number hlt
    have hkeep {more : List Emission} (hused : number < connection.sender.nextSeqno) :
        ∃ emission ∈ connection.segmentsOut ++ (connection.sender.segmentsOut ++ more),
          Brings emission.absSeqno emission.segment number := by
      obtain ⟨emission, hemission, hbrings⟩ := h.covered number hused
      refine ⟨emission, ?_, hbrings⟩
      rw [← List.append_assoc]
      exact List.mem_append_left _ hemission
    cases hmove with
    | @send windowSize segment hwindow hwants hnext =>
      have hfin := h.sequenced.fin_eq_false_of_wantsToSend hwants
      by_cases hused : number < connection.sender.nextSeqno
      · exact hkeep hused
      · -- The new segment starts with the next number.
        rw [h.sequenced.next_sent hfin] at hlt
        refine ⟨_, List.mem_append_right _ (List.mem_append_right _ List.mem_cons_self), ?_, ?_⟩
        · exact (h.sequenced.firstUnsent_eq hfin).trans_le (not_lt.mp hused)
        · change number < connection.sender.firstUnsent + segment.lengthInSequenceSpace
          rwa [h.sequenced.firstUnsent_eq hfin]
    | @acknowledge newAckno =>
      obtain ⟨bytes, heq, -⟩ := acknowledge_eq connection.sender newAckno
      rw [heq] at hlt ⊢
      exact h.covered number hlt
    | again | bare => exact hkeep hlt
    | adjust => exact h.covered number hlt

theorem settles_launched : Settles Launched where
  collect connection h := by
    refine ⟨h.sequenced.drain, h.syn, h.alone.drain, ?_, fun number hlt ↦ ?_⟩
    · apply forall_collectOutput h.sent_alone
      intro emission hemission
      rw [syn_setSegment, (place_setSegment connection emission).2.2]
      exact h.alone.emitted emission hemission
    · obtain ⟨emission, hemission, hbrings⟩ := h.covered number hlt
      change ∃ emission ∈ (connection.segmentsOut ++ _) ++ [], _
      rw [List.append_nil]
      cases List.mem_append.mp hemission with
      | inl hsent => exact ⟨emission, List.mem_append_left _ hsent, hbrings⟩
      | inr hqueued =>
        obtain ⟨hplace, -, hlength⟩ := place_setSegment connection emission
        refine ⟨connection.setSegment emission,
          List.mem_append_right _ (List.mem_map_of_mem hqueued), ?_⟩
        unfold Brings
        rwa [hplace, hlength]
  shutdown _ h := ⟨h.sequenced.setError, h.syn, ⟨h.alone.outstanding, h.alone.emitted⟩, h.sent_alone,
    h.covered⟩
  bare _ h := h.move .bare
  record _ _ _ _ h := ⟨h.sequenced, h.syn, h.alone, h.sent_alone, h.covered⟩
  close _ _ h _ _ := ⟨h.sequenced, h.syn, h.alone, h.sent_alone, h.covered⟩

/-- Once the SYN is on its way, every call keeps what has been sent in order. -/
theorem Launched.step (h : connection.Launched) (hcall : connection.NothingAfterFin call) :
    (connection.step call).Launched := by
  apply settles_launched.step_of_moves
  · exact fun _ hbefore ↦ hbefore.sequenced.valid
  · exact fun before _ hbefore hmoves ↦ hmoves.invariant
      (fun sender ↦ Launched { before with sender }) (fun _ _ h hmove ↦ h.move hmove) hbefore
  · exact fun _ _ hbefore ↦ ⟨hbefore.sequenced, hbefore.syn, hbefore.alone, hbefore.sent_alone,
      hbefore.covered⟩
  · have hsequenced := sequenced_access h.sequenced hcall
    cases call <;> exact ⟨hsequenced, h.syn, ⟨h.alone.outstanding, h.alone.emitted⟩, h.sent_alone,
      h.covered⟩

/-! ## What every call keeps -/

/-- The sender does not stall, and the buffers have the sizes that were asked for. -/
structure Equipped (cfg : TCPConfig) (connection : TCPConnection) : Prop where
  alert : connection.sender.Alert
  drained : connection.sender.segmentsOut = []
  blank : connection.sender.Carries fun _ segment ↦ Blank segment
  sendCapacity : connection.sender.stream.capacity = cfg.sendCapacity
  sound : connection.receiver.Sound
  recvCapacity : connection.receiver.reassembler.capacity = cfg.recvCapacity

variable {cfg : TCPConfig}

theorem equipped_new (cfg : TCPConfig) (randomIsn : WrappingInt32) :
    Equipped cfg (new cfg randomIsn) :=
  ⟨alert_new cfg randomIsn, rfl, ⟨by simp [new, TCPSender.new], by simp [new, TCPSender.new]⟩, rfl,
    sound_new _, rfl⟩

theorem blank_step (hvalid : connection.sender.stream.Valid)
    (h : connection.sender.Carries fun _ segment ↦ Blank segment) (call : Call) :
    (connection.step call).sender.Carries fun _ segment ↦ Blank segment := by
  apply sender_step (Carries fun _ segment ↦ Blank segment)
  · exact ⟨fun _ h ↦ h.drain, fun _ h ↦ ⟨h.outstanding, h.emitted⟩,
      fun _ h ↦ ⟨h.outstanding, h.emission ⟨rfl, rfl⟩ _ _⟩⟩
  · exact h
  · have haccess : (connection.access call).sender.Carries fun _ segment ↦ Blank segment := by
      cases call <;> exact ⟨h.outstanding, h.emitted⟩
    exact haccess.fillWindow makes_blank (valid_access hvalid call)
  · exact fun segment _ _ ↦ h.ackReceived makes_blank hvalid _ _
  · exact fun msSinceLastTick _ ↦ h.tick msSinceLastTick

/-- Every call keeps the connection equipped. -/
theorem Equipped.step (h : Equipped cfg connection) (hcall : connection.WritesBeforeEnd call) :
    Equipped cfg (connection.step call) := by
  obtain ⟨hsound, hadvances⟩ := receiver_advances h.sound call
  have hvalid := h.alert.sequenced.valid
  have hcapacity : (connection.step call).sender.stream.capacity =
      connection.sender.stream.capacity := by
    rw [(stream_step hvalid call).2.2]
    cases call <;> rfl
  exact ⟨alert_step h.alert (hcall.nothingAfterFin h.alert.sequenced), drained_step h.drained call,
    blank_step hvalid h.blank call, hcapacity.trans h.sendCapacity, hsound,
    hadvances.capacity.trans h.recvCapacity⟩

/-! ## What is told holds -/

theorem blank_queuedBy (hvalid : connection.sender.stream.Valid)
    (h : connection.sender.Carries fun _ segment ↦ Blank segment) (segment : TCPSegment) :
    ∀ emission ∈ connection.queuedBy segment, Blank emission.segment := by
  intro emission hemission
  cases List.mem_append.mp hemission with
  | inl hqueued =>
    cases processAck_cases connection segment with
    | inl hsame =>
      rw [hsame] at hqueued
      exact h.emitted emission hqueued
    | inr hacked =>
      rw [hacked.2] at hqueued
      exact (h.ackReceived makes_blank hvalid _ _).emitted emission hqueued
  | inr hreply =>
    rw [mem_replies hreply]
    exact ⟨rfl, rfl⟩

/-- Everything that an incoming segment makes the connection send tells of the receiver as it is then. -/
theorem Takes.announces (h : Takes connection segment after) (hequipped : Equipped cfg connection)
    (hclear : connection.isUnclearShutdown = false) :
    ∃ appended, after.segmentsOut = connection.segmentsOut ++ appended ∧
      (∀ emission ∈ appended, Announces after.receiver emission) ∧
      (0 < segment.lengthInSequenceSpace → appended ≠ []) := by
  refine ⟨_, h.sent, fun emission hemission ↦ ?_, fun hlength ↦ ?_⟩
  · obtain ⟨queued, hqueued, rfl⟩ := List.mem_map.mp hemission
    rw [h.receiver]
    exact announces_setSegment
      { connection with receiver := (connection.receiver.segmentReceived segment).1 } hclear
      (blank_queuedBy hequipped.alert.sequenced.valid hequipped.blank segment queued hqueued)
  · exact fun hnone ↦ connection.queuedBy_ne_nil hlength (List.map_eq_nil_iff.mp hnone)

/-- The same for a tick. -/
theorem Ticks.announces {msSinceLastTick : ℕ} (h : Ticks connection msSinceLastTick after)
    (hequipped : Equipped cfg connection) (hclear : connection.isUnclearShutdown = false) :
    ∀ emission ∈ (connection.sender.tick msSinceLastTick).segmentsOut.map connection.setSegment,
      Announces after.receiver emission := by
  intro emission hemission
  obtain ⟨queued, hqueued, rfl⟩ := List.mem_map.mp hemission
  rw [h.receiver]
  exact announces_setSegment _ hclear ((hequipped.blank.tick msSinceLastTick).emitted queued hqueued)

/-- The connection is not reset, and what its receiver acknowledges has been told to the peer. -/
structure Talking (cfg : TCPConfig) (connection : TCPConnection) : Prop where
  launched : connection.Launched
  clear : connection.isUnclearShutdown = false
  tries_le : connection.sender.consecutiveRetransmissions ≤ TCPConfig.maxRetxAttempts
  cfg_eq : connection.cfg = cfg
  time_le : connection.timeWhenLastSegmentReceived ≤ connection.nowTime
  unreset : ∀ emission ∈ connection.segmentsOut, emission.segment.header.rst = false
  announced : connection.receiver.isn.isSome = true → ∃ emission ∈ connection.segmentsOut,
    emission.segment.header.ack = true ∧ emission.absAckno = connection.receiver.absAckno

theorem Talking.attentive (h : Talking cfg connection) (hequipped : Equipped cfg connection) :
    connection.Attentive :=
  ⟨h.launched.sequenced, hequipped.drained, h.launched.syn, h.clear, h.tries_le⟩

/-- Segments that tell of the receiver as it is keep the connection talking. -/
theorem unreset_append {appended : List Emission}
    (h : ∀ emission ∈ connection.segmentsOut, emission.segment.header.rst = false)
    (heq : after.segmentsOut = connection.segmentsOut ++ appended)
    (hannounces : ∀ emission ∈ appended, Announces after.receiver emission) :
    ∀ emission ∈ after.segmentsOut, emission.segment.header.rst = false := by
  intro emission hemission
  rw [heq] at hemission
  cases List.mem_append.mp hemission with
  | inl hold => exact h emission hold
  | inr hnew => exact (hannounces emission hnew).rst

/-- A connection goes on talking when a segment arrives. -/
theorem Talking.takes (h : Talking cfg connection) (hequipped : Equipped cfg connection)
    (htakes : Takes connection segment after) (hlaunched : after.Launched)
    (hbare : segment.lengthInSequenceSpace = 0 →
      after.receiver.isn = connection.receiver.isn ∧
        after.receiver.absAckno = connection.receiver.absAckno) : Talking cfg after := by
  obtain ⟨appended, heq, hannounces, hanswers⟩ := htakes.announces hequipped h.clear
  constructor
  case launched => exact hlaunched
  case clear => exact htakes.clear
  case tries_le =>
    rw [htakes.sender]
    cases processAck_cases connection segment with
    | inl hsame => exact hsame ▸ h.tries_le
    | inr hacked =>
      exact hacked.2 ▸ tries_ackReceived hequipped.alert.sequenced.valid h.tries_le _ _
  case cfg_eq => exact htakes.cfg.trans h.cfg_eq
  case time_le => exact (htakes.received.trans htakes.nowTime.symm).le
  case unreset => exact unreset_append h.unreset heq hannounces
  case announced =>
    intro hopen
    rcases Nat.eq_zero_or_pos segment.lengthInSequenceSpace with hzero | hlength
    · obtain ⟨hisn, hackno⟩ := hbare hzero
      rw [hisn] at hopen
      obtain ⟨emission, hsent, hack, htold⟩ := h.announced hopen
      exact ⟨emission, heq ▸ List.mem_append_left _ hsent, hack, htold.trans hackno.symm⟩
    · obtain ⟨emission, hemission⟩ := List.exists_mem_of_ne_nil _ (hanswers hlength)
      have htells := hannounces emission hemission
      exact ⟨emission, heq ▸ List.mem_append_right _ hemission, htells.ack.trans hopen,
        htells.absAckno hopen⟩

/-- And when time passes. -/
theorem Talking.ticks {msSinceLastTick : ℕ} (h : Talking cfg connection)
    (hequipped : Equipped cfg connection) (hticks : Ticks connection msSinceLastTick after)
    (htries : (connection.sender.tick msSinceLastTick).consecutiveRetransmissions ≤
      TCPConfig.maxRetxAttempts) (hlaunched : after.Launched) : Talking cfg after := by
  have heq := hticks.sent
  have hannounces := hticks.announces hequipped h.clear
  constructor
  case launched => exact hlaunched
  case clear => exact hticks.clear
  case tries_le =>
    rw [hticks.sender]
    exact htries
  case cfg_eq => exact hticks.cfg.trans h.cfg_eq
  case time_le =>
    rw [hticks.received, hticks.nowTime]
    exact h.time_le.trans (Nat.le_add_right _ _)
  case unreset => exact unreset_append h.unreset heq hannounces
  case announced =>
    intro hopen
    rw [hticks.receiver] at hopen ⊢
    obtain ⟨emission, hsent, htold⟩ := h.announced hopen
    exact ⟨emission, heq ▸ List.mem_append_left _ hsent, htold⟩

theorem Talking.quietly {stream : ByteStream} (h : Talking cfg connection)
    (hquietly : Quietly connection { connection.sender with stream } after)
    (hlaunched : after.Launched) : Talking cfg after := by
  obtain ⟨_, _, rfl⟩ := hquietly
  exact ⟨hlaunched, h.clear, h.tries_le, h.cfg_eq, h.time_le, h.unreset, h.announced⟩

theorem Talking.readInbound (h : Talking cfg connection) (len : ℕ)
    (hlaunched : (connection.readInbound len).2.Launched) : Talking cfg (connection.readInbound len).2 :=
  ⟨hlaunched, h.clear, h.tries_le, h.cfg_eq, h.time_le, h.unreset, h.announced⟩

end TCPConnection

end Sponge
