import Sponge.System.Closing
import Sponge.TCP.Replies

/-!
# Bare acknowledgments

A segment without SYN, FIN and payload is answered with another one if the receiver refuses it, and the
answer may be refused in its turn.  This happens if both ends have filled the window of the other end
exactly: the number of a bare segment then lies on the right edge of the window.  As long as the answer
lies inside the window, it is not answered.
-/

namespace Sponge

open Execution

namespace TCPReceiver

variable {receiver : TCPReceiver} {segment : TCPSegment} {isn : WrappingInt32}

/-- Whether the number lies before the right edge of a window that is open. -/
def InWindow (receiver : TCPReceiver) (absSeqno : ℕ) : Prop :=
  receiver.synRecv = true → receiver.windowSize ≠ 0 →
    absSeqno < receiver.absAckno + receiver.windowSize

instance (receiver : TCPReceiver) (absSeqno : ℕ) : Decidable (receiver.InWindow absSeqno) :=
  inferInstanceAs (Decidable (_ → _ → _))

/-- A bare segment is taken if its number is neither old nor beyond the window. -/
theorem accepts_bare (hisn : receiver.isn = some isn) (hbare : segment.lengthInSequenceSpace = 0)
    (hold : receiver.absAckno ≤ unwrap segment.header.seqno isn receiver.absAckno)
    (hwindow : receiver.InWindow (unwrap segment.header.seqno isn receiver.absAckno)) :
    (receiver.segmentReceived segment).2 = true := by
  obtain ⟨hsyn, hfin, hsize⟩ := TCPSegment.flags_of_length_eq_zero hbare
  unfold segmentReceived acceptSegment
  simp only [hsyn, hisn, hfin, hsize, Bool.false_and, Bool.false_eq_true, if_false, Bool.toNat_false,
    Nat.add_zero, not_lt.mpr hold, hbare, and_true]
  split_ifs with hrunning hbeyond
  · exact absurd (hwindow hrunning hbeyond.2) (not_lt.mpr hbeyond.1)
  · rfl
  · rfl

end TCPReceiver

namespace TCPConnection

variable {connection : TCPConnection} {call : Call} {segment : TCPSegment}

/-! ## What a call appends -/

/-- What has been sent since an earlier state: a bare segment has the next sequence number. -/
structure Answers (start connection : TCPConnection) : Prop where
  sequenced : connection.sender.Sequenced
  next_le : start.sender.nextSeqno ≤ connection.sender.nextSeqno
  queued : ∀ emission ∈ connection.sender.segmentsOut,
    emission.segment.lengthInSequenceSpace = 0 → start.sender.nextSeqno ≤ emission.absSeqno
  sent : ∃ appended, connection.segmentsOut = start.segmentsOut ++ appended ∧
    ∀ emission ∈ appended, emission.segment.lengthInSequenceSpace = 0 →
      start.sender.nextSeqno ≤ emission.absSeqno

variable {start : TCPConnection}

/-- Each move of the sender queues bare segments with the next number only. -/
theorem Answers.move {after : TCPSender} (h : Answers start connection)
    (hmove : TCPSender.Move connection.sender after) :
    Answers start { connection with sender := after } where
  sequenced := h.sequenced.move hmove
  next_le := h.next_le.trans (h.sequenced.next_le_move hmove)
  queued := by
    intro emission hemission hbare
    cases hmove with
    | send hwindow hwants hnext =>
      cases List.mem_append.mp hemission with
      | inl hold => exact h.queued emission hold hbare
      | inr hnew =>
        rw [List.mem_singleton.mp hnew] at hbare
        exact absurd hbare (hnext.length_pos h.sequenced.valid hwindow hwants).ne'
    | @acknowledge newAckno =>
      obtain ⟨bytes, heq, -⟩ := TCPSender.acknowledge_eq connection.sender newAckno
      rw [heq] at hemission
      exact h.queued emission hemission hbare
    | @again oldest rest hfront =>
      cases List.mem_append.mp hemission with
      | inl hold => exact h.queued emission hold hbare
      | inr hnew =>
        obtain ⟨base, -, htiles⟩ := h.sequenced.chain
        have hpositive := (htiles.bounds (hfront ▸ List.mem_cons_self : oldest ∈ _)).2.1
        rw [List.mem_singleton.mp hnew] at hbare
        exact absurd hbare hpositive.ne'
    | bare =>
      cases List.mem_append.mp hemission with
      | inl hold => exact h.queued emission hold hbare
      | inr hnew =>
        rw [List.mem_singleton.mp hnew]
        exact h.next_le
    | adjust => exact h.queued emission hemission hbare
  sent := h.sent

theorem settles_answers : Settles (Answers start) where
  collect connection h := by
    obtain ⟨appended, heq, hbare⟩ := h.sent
    refine ⟨h.sequenced.drain, h.next_le, by simp [collectOutput], appended ++
      connection.sender.segmentsOut.map connection.setSegment, by simp [collectOutput, heq], ?_⟩
    intro emission hemission hempty
    cases List.mem_append.mp hemission with
    | inl hold => exact hbare emission hold hempty
    | inr hnew =>
      obtain ⟨queued, hqueued, rfl⟩ := List.mem_map.mp hnew
      obtain ⟨hplace, -, hlength⟩ := place_setSegment connection queued
      rw [hplace]
      exact h.queued queued hqueued (hlength ▸ hempty)
  shutdown _ h := ⟨h.sequenced.setError, h.next_le, h.queued, h.sent⟩
  bare _ h := h.move .bare
  record _ _ _ _ h := ⟨h.sequenced, h.next_le, h.queued, h.sent⟩
  close _ _ h _ _ := ⟨h.sequenced, h.next_le, h.queued, h.sent⟩

/-- What a call sends without data has the number that comes next. -/
theorem answers_step (hsequenced : connection.sender.Sequenced)
    (hdrained : connection.sender.segmentsOut = []) (hcall : connection.NothingAfterFin call) :
    Answers connection (connection.step call) := by
  apply settles_answers.step_of_moves
  · exact fun _ h ↦ h.sequenced.valid
  · exact fun before _ hbefore hmoves ↦ hmoves.invariant
      (fun sender ↦ Answers connection { before with sender }) (fun _ _ h hmove ↦ h.move hmove) hbefore
  · exact fun _ _ h ↦ ⟨h.sequenced, h.next_le, h.queued, h.sent⟩
  · have haccess := sequenced_access hsequenced hcall
    cases call <;> exact ⟨haccess, le_rfl, by simp [access, hdrained, readInbound], [], by
      simp [access, readInbound], by simp⟩

/-- What holds of a connection between its calls. -/
structure Settled (connection : TCPConnection) : Prop where
  regular : connection.Regular
  drained : connection.sender.segmentsOut = []

theorem settled_new (cfg : TCPConfig) (randomIsn : WrappingInt32) : (new cfg randomIsn).Settled :=
  ⟨regular_new cfg randomIsn, rfl⟩

theorem Settled.step (h : connection.Settled) (hcall : connection.NothingAfterFin call) :
    (connection.step call).Settled :=
  ⟨h.regular.step hcall, drained_step h.drained call⟩

end TCPConnection

namespace Network

open TCPConnection TCPReceiver

variable {network : Network} {side : Side} {call : Call} {isn : WrappingInt32}
  {source target : Endpoint}

/-- No owner adds a byte to a stream whose FIN has been sent. -/
def NothingAfterFin (network : Network) (action : Side × Call) : Prop :=
  (network action.1).connection.NothingAfterFin action.2

instance (network : Network) (action : Side × Call) : Decidable (NothingAfterFin network action) :=
  inferInstanceAs (Decidable (TCPConnection.NothingAfterFin _ _))

/-! ## Acknowledged means sent -/

/-- One direction of the conversation: the receiver has seen only what the sender has sent. -/
structure Reached (isn : WrappingInt32) (source target : Endpoint) : Prop where
  settled : source.connection.Settled
  acknowledged : Acknowledged isn source target
  reaches : Reaches source.connection.sender.nextSeqno source.connection.sender.fin
    target.connection.receiver

/-- The sending side makes a call. -/
theorem Reached.send (h : Reached isn source target)
    (hcall : source.connection.NothingAfterFin call)
    (harrives : ∀ segment, call = .segmentReceived segment →
      ∃ emission ∈ target.connection.segmentsOut, emission.segment = segment ∧
        (emission.segment.header.ack = true →
          Near emission.absAckno source.connection.sender.ackno ∧
            emission.absAckno < Word.size)) :
    Reached isn (source.step call) target := by
  have hsequenced := h.settled.regular.sequenced
  have hanswers := answers_step hsequenced h.settled.drained hcall
  exact ⟨h.settled.step hcall, h.acknowledged.send hcall harrives,
    h.reaches.mono hanswers.next_le fun hfin ↦ fin_step hsequenced.valid hfin⟩

/-- The receiving side makes a call. -/
theorem Reached.receive (h : Reached isn source target)
    (harrives : ∀ segment, call = .segmentReceived segment →
      ∃ emission ∈ source.connection.segmentsOut, emission.segment = segment ∧
        target.connection.receiver.Recoverable emission.absSeqno emission.segment) :
    Reached isn source (target.step call) := by
  refine ⟨h.settled, h.acknowledged.receive harrives, ?_⟩
  have hconcludes := h.acknowledged.concludes
  apply receiver_step (Reaches source.connection.sender.nextSeqno source.connection.sender.fin)
  · exact fun _ hbefore ↦ ⟨hbefore.held, hbefore.opened, hbefore.ended⟩
  · intro segment heq hbefore
    obtain ⟨emission, hsent, rfl, hrecoverable⟩ := harrives segment heq
    exact hbefore.segmentReceived h.acknowledged.flow.receives
      (excerpt_of_slice (h.acknowledged.flow.emits.sent emission hsent)) hrecoverable
      (hconcludes.before emission hsent) fun hset ↦ (hconcludes.sent emission hsent hset).1
  · cases call <;> exact ⟨h.reaches.held, h.reaches.opened, h.reaches.ended⟩

/-- The receiver acknowledges no more than was sent. -/
theorem Reached.absAckno_le (h : Reached isn source target) :
    target.connection.receiver.absAckno ≤ source.connection.sender.nextSeqno := by
  apply h.reaches.absAckno_le h.acknowledged.flow.receives
  intro hfin
  rw [h.settled.regular.sequenced.next_of_fin hfin, h.acknowledged.flow.emits.slices.written]

theorem reached_run {cfg : Side → TCPConfig} {randomIsn : Side → WrappingInt32}
    {actions : List (Side × Call)}
    (h : Admissible step (fun network action ↦ Arrives AckRecovers network action ∧
      NothingAfterFin network action) (start cfg randomIsn) actions) (side : Side) :
    let final := run step (start cfg randomIsn) actions
    Reached ((cfg side).fixedIsn.getD (randomIsn side)) (final side) (final side.peer) := by
  apply run_direction (fun side ↦ Reached ((cfg side).fixedIsn.getD (randomIsn side))) ?_ ?_ ?_ h
  · intro side
    exact ⟨settled_new _ _, acknowledged_start cfg randomIsn side, reaches_new _ _ _⟩
  · intro network side call hbefore hallowed
    apply hbefore.send hallowed.2
    intro segment heq
    obtain ⟨emission, hsent, hsame, hrecovers⟩ := hallowed.1.emission segment heq
    exact ⟨emission, hsent, hsame, hrecovers.2⟩
  · intro network side call hbefore hallowed
    apply hbefore.receive
    intro segment heq
    obtain ⟨emission, hsent, hsame, hrecovers⟩ := hallowed.1.emission segment heq
    exact ⟨emission, hsent, hsame, hrecovers.1⟩

/-! ## Answers to answers -/

/-- A bare segment of the peer is taken if its number is not old and lies inside the window. -/
theorem takesBare {cfg : Side → TCPConfig} {randomIsn : Side → WrappingInt32} {emission : Emission}
    (hself : Reached ((cfg side).fixedIsn.getD (randomIsn side)) (network side) (network side.peer))
    (hpeer : Reached ((cfg side.peer).fixedIsn.getD (randomIsn side.peer)) (network side.peer)
      (network side))
    (hsent : emission ∈ (network side.peer).connection.segmentsOut)
    (hbare : emission.segment.lengthInSequenceSpace = 0)
    (hrecovers : AckRecovers network side emission)
    (hold : (network side).connection.receiver.absAckno ≤ emission.absSeqno)
    (hwindow : (network side).connection.receiver.InWindow emission.absSeqno)
    (hlisten : (network side).connection.listen = false) :
    (network side).connection.TakesBare emission.segment := by
  have hsequenced := hself.settled.regular.sequenced
  cases hisn : (network side).connection.receiver.isn with
  | none =>
    have hstill : ((network side).connection.receiver.segmentReceived emission.segment).1.isn =
        none := by
      rw [isn_segmentReceived, (TCPSegment.flags_of_length_eq_zero hbare).1, Bool.false_and,
        if_neg Bool.false_ne_true, hisn]
    have hclosed : (network side).connection.sender.closed = false := by
      simpa [TCPConnection.listen, TCPReceiver.listen, ackno, hisn] using hlisten
    have hunheard := hself.settled.regular.unheard hisn
    refine .inl ⟨?_, congrArg Prod.snd (segmentReceived_of_isn_eq_none hstill).2⟩
    simp [TCPConnection.synSent, TCPReceiver.listen, ackno, hstill,
      hsequenced.synSent_of_ackno_eq_zero hunheard hclosed]
  | some number =>
    have hnumber := hpeer.acknowledged.flow.receives.isn_eq number hisn
    have hslice := hpeer.acknowledged.flow.emits.sent emission hsent
    have hseqno : unwrap emission.segment.header.seqno number
        (network side).connection.receiver.absAckno = emission.absSeqno := by
      rw [hnumber]
      exact unwrap_seqno (excerpt_of_slice hslice) hrecovers.1.1 hrecovers.1.2
    refine .inr ⟨accepts_bare hisn hbare (hseqno.symm ▸ hold) (hseqno.symm ▸ hwindow), fun hack ↦ ?_⟩
    apply TCPSender.ackReceived_of_le
    obtain ⟨hnear, hword⟩ := hrecovers.2 hack
    obtain ⟨hackno, hle⟩ := hself.acknowledged.acknowledges.sent emission hsent hack
    rw [hackno, hself.acknowledged.flow.emits.slices.isn_eq, unwrap_wrap _ hword hnear]
    exact hle.trans hself.absAckno_le

/-- The client fills the window of the server, and the SYN of the server arrives a second time, which
makes the client send a bare segment on the right edge of the window. -/
def clientFills : List (Side × Call) :=
  [(.client, .write [97, 98, 99, 100, 101, 102, 103, 104]),
    (.client, .segmentReceived
      { header := { seqno := ⟨4294967295⟩, ackno := ⟨1⟩, syn := true, ack := true, win := 8 } })]

def bareOnEdge : TCPSegment :=
  { header := { seqno := ⟨9⟩, ackno := ⟨0⟩, ack := true, win := 8 } }

/-- A bare answer is not answered with a bare segment, as long as it lies inside the window: if a
segment of one side, bare or not, makes its peer send a bare segment, and that one arrives at once, then
all that the side sends in reply occupies sequence numbers.  The side must not have given up, since then
it sends a reset in every call, and no owner may write after the FIN. -/
theorem bare_acks_do_not_bounce (cfg : Side → TCPConfig) (randomIsn : Side → WrappingInt32)
    (actions : List (Side × Call)) (side : Side) (segment : TCPSegment)
    (h : Admissible step (fun network action ↦ Arrives AckRecovers network action ∧
      NothingAfterFin network action) (start cfg randomIsn)
      (actions ++ [(side.peer, .segmentReceived segment)])) :
    let before := run step (start cfg randomIsn) actions
    let network := before.step (side.peer, .segmentReceived segment)
    ∀ answer ∈ (network side.peer).connection.segmentsOut.drop
        (before side.peer).connection.segmentsOut.length,
      answer.segment.lengthInSequenceSpace = 0 → AckRecovers network side answer →
      (network side).connection.sender.consecutiveRetransmissions ≤ TCPConfig.maxRetxAttempts →
      (network side).connection.receiver.InWindow answer.absSeqno →
      ∃ replies, ((network side).connection.step (.segmentReceived answer.segment)).segmentsOut =
          (network side).connection.segmentsOut ++ replies ∧
        ∀ reply ∈ replies, 0 < reply.segment.lengthInSequenceSpace := by
  intro before network answer hanswer hempty hrecovers htries hwindow
  obtain ⟨hactions, ⟨-, hfinal⟩, -⟩ := (admissible_append _).mp h
  have hacting : network side.peer = (before side.peer).step (.segmentReceived segment) :=
    Function.update_self _ _ _
  have hidle : network side = before side := Function.update_of_ne side.peer_ne.symm _ _
  have hsource := reached_run hactions side.peer
  have hself := reached_run h side
  have hpeer := reached_run h side.peer
  rw [run_append] at hself hpeer
  rw [Side.peer_peer] at hsource hpeer
  -- The answer has the next number of the peer, which the side has not acknowledged.
  have hold : (network side).connection.receiver.absAckno ≤ answer.absSeqno := by
    obtain ⟨appended, heq, hnext⟩ :=
      (answers_step hsource.settled.regular.sequenced hsource.settled.drained hfinal).sent
    have hmem : answer ∈ appended := by
      rw [hacting] at hanswer
      change answer ∈ ((before side.peer).connection.step _).segmentsOut.drop _ at hanswer
      rwa [heq, List.drop_left] at hanswer
    rw [hidle]
    exact hsource.absAckno_le.trans (hnext answer hmem hempty)
  apply silent_on_bare hself.settled.regular.sequenced.valid hself.settled.drained htries hempty
  intro hlisten _
  exact takesBare hself hpeer (List.mem_of_mem_drop hanswer) hempty hrecovers hold hwindow hlisten

/-- The server has sent nothing, so its answer lies inside the window of the client. -/
theorem bare_acks_do_not_bounce_inside :
    let actions := handshake ++ clientFills
    let network := run step (start smallCfg fun _ ↦ ⟨0⟩)
      (actions ++ [(.server, .segmentReceived bareOnEdge)])
    let answer : TCPSegment := { header := { seqno := ⟨0⟩, ackno := ⟨1⟩, ack := true, win := 8 } }
    Admissible step (fun network action ↦ Arrives AckRecovers network action ∧
        NothingAfterFin network action) (start smallCfg fun _ ↦ ⟨0⟩)
        (actions ++ [(.server, .segmentReceived bareOnEdge)]) ∧
      answer ∈ (network .server).connection.segmentsOut.map (·.segment) ∧
      ∃ replies, ((network .client).connection.step (.segmentReceived answer)).segmentsOut =
          (network .client).connection.segmentsOut ++ replies ∧
        ∀ reply ∈ replies, 0 < reply.segment.lengthInSequenceSpace := by
  intro actions network answer
  have h : Admissible step (fun network action ↦ Arrives AckRecovers network action ∧
      NothingAfterFin network action) (start smallCfg fun _ ↦ ⟨0⟩)
      (actions ++ [(.server, .segmentReceived bareOnEdge)]) := by decide +kernel
  refine ⟨h, by decide +kernel, ?_⟩
  exact bare_acks_do_not_bounce smallCfg _ actions .client bareOnEdge h
    ⟨answer, .bare, 1, 1⟩ (by decide +kernel) (by decide +kernel) (by decide +kernel)
    (by decide +kernel) (by decide +kernel)

/-- Both ends have filled the window of the other end, and none of the data has arrived.  Every bare
segment is then refused and answered with a bare segment. -/
theorem bare_acks_bounce_on_edges :
    let actions := handshake ++
      [(.server, .segmentReceived { header := { seqno := ⟨1⟩, ackno := ⟨0⟩, ack := true, win := 8 } }),
        (.server, .write [105, 106, 107, 108, 109, 110, 111, 112])] ++ clientFills
    let answer : TCPSegment := { header := { seqno := ⟨8⟩, ackno := ⟨1⟩, ack := true, win := 8 } }
    let before := run step (start smallCfg fun _ ↦ ⟨0⟩) actions
    let network := before.step (.server, .segmentReceived bareOnEdge)
    let after := network.step (.client, .segmentReceived answer)
    Admissible step (fun network action ↦ Arrives AckRecovers network action ∧
        NothingAfterFin network action) (start smallCfg fun _ ↦ ⟨0⟩)
        (actions ++ [(.server, .segmentReceived bareOnEdge), (.client, .segmentReceived answer)]) ∧
      bareOnEdge.lengthInSequenceSpace = 0 ∧ bareOnEdge.header.rst = false ∧
      ((network .server).connection.segmentsOut.drop
        (before .server).connection.segmentsOut.length).map (·.segment) = [answer] ∧
      answer.lengthInSequenceSpace = 0 ∧
      ((after .client).connection.segmentsOut.drop
        (network .client).connection.segmentsOut.length).map (·.segment) = [bareOnEdge] := by
  decide +kernel

end Network

end Sponge
