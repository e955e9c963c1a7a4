import Sponge.TCP.Replies
import Sponge.TCP.Shutdown

/-!
# The predicates of the official states

A connection has a predicate for each of the ten official states in which it can be active, next to the
summary that `state` compares with them.  The two agree, and at most one predicate holds, except in
three situations: the peer has closed first and the own FIN is on its way, the FIN is waiting for room
in the window, or the FIN has been sent before the SYN is acknowledged.
-/

namespace Sponge

open Execution

namespace TCPReceiver

variable {receiver : TCPReceiver}

/-- The inbound stream ends only after the SYN. -/
def EndsAfterSyn (receiver : TCPReceiver) : Prop :=
  receiver.isn = none → receiver.streamOut.inputEnded = false

theorem listen_iff_phase (herror : receiver.streamOut.error = false) :
    receiver.listen = true ↔ receiver.stateSummary = .listen := by
  unfold listen stateSummary
  split_ifs <;> simp_all

theorem synRecv_iff_phase (herror : receiver.streamOut.error = false) :
    receiver.synRecv = true ↔ receiver.stateSummary = .synRecv := by
  unfold synRecv stateSummary
  rw [herror]
  cases receiver.ackno <;> cases receiver.streamOut.inputEnded <;> simp

theorem finRecv_iff_phase (herror : receiver.streamOut.error = false) (hends : receiver.EndsAfterSyn) :
    receiver.finRecv = true ↔ receiver.stateSummary = .finRecv := by
  have hnone : receiver.ackno.isNone = true → receiver.streamOut.inputEnded = false := by
    rw [ackno, Option.isNone_map, Option.isNone_iff_eq_none]
    exact hends
  unfold finRecv stateSummary
  split_ifs <;> simp_all

end TCPReceiver

namespace TCPSender

variable {sender : TCPSender}

/-- The phase of a sender, as a function of its numbers and its FIN flag. -/
theorem Sequenced.stateSummary_of_open (h : sender.Sequenced)
    (herror : sender.stream.error = false) :
    sender.stateSummary =
      if sender.nextSeqno = 0 then .closed
      else if sender.bytesInFlight = sender.nextSeqno then .synSent
      else if sender.fin = false then .synAcked
      else if sender.bytesInFlight = 0 then .finAcked else .finSent := by
  rw [h.stateSummary_of_counters, herror]
  exact if_neg Bool.false_ne_true

/-- FIN_SENT: the FIN has been sent, and not everything has been acknowledged. -/
theorem Sequenced.finSent_iff (h : sender.Sequenced) :
    sender.finSent = true ↔ sender.fin = true ∧ sender.bytesInFlight ≠ 0 := by
  rw [h.fin_iff, finSent, Bool.and_eq_true_iff, Bool.and_eq_true_iff, beq_iff_eq, decide_eq_true_iff,
    gt_iff_lt, Nat.pos_iff_ne_zero]

section Phases

variable (h : sender.Sequenced) (herror : sender.stream.error = false)
include h herror

theorem closed_iff_phase : sender.closed = true ↔ sender.stateSummary = .closed := by
  rw [h.stateSummary_of_open herror, closed, beq_iff_eq]
  split_ifs <;> simp_all

theorem synSent_iff_phase : sender.synSent = true ↔ sender.stateSummary = .synSent := by
  rw [h.stateSummary_of_open herror, synSent, Bool.and_eq_true_iff, decide_eq_true_iff, beq_iff_eq,
    gt_iff_lt, Nat.pos_iff_ne_zero, eq_comm (a := sender.nextSeqno)]
  split_ifs <;> simp_all

/-- SYN_ACKED does not hold any more once the stream is at its end. -/
theorem synAcked_iff_phase :
    sender.synAcked = true ↔ sender.stateSummary = .synAcked ∧ sender.stream.eof = false := by
  have hflying := h.bytesInFlight_le
  have hopen : sender.stream.eof = false → sender.fin = false := fun heof ↦
    Bool.eq_false_iff.mpr fun hfin ↦ Bool.eq_false_iff.mp heof (h.fin_iff.mp hfin).1
  have hstarted : sender.nextSeqno > sender.bytesInFlight ↔
      sender.nextSeqno ≠ 0 ∧ sender.bytesInFlight ≠ sender.nextSeqno := by
    omega
  rw [h.stateSummary_of_open herror, synAcked, Bool.and_eq_true_iff, decide_eq_true_iff,
    Bool.not_eq_true', hstarted]
  split_ifs <;> simp_all

/-- FIN_SENT does not ask whether the SYN has been acknowledged. -/
theorem finSent_iff_phase : sender.finSent = true ↔ sender.stateSummary = .finSent ∨
    sender.fin = true ∧ sender.bytesInFlight = sender.nextSeqno := by
  have hnext : sender.fin = true → sender.nextSeqno ≠ 0 := fun hfin ↦ by
    rw [h.next_of_fin hfin]
    omega
  rw [h.stateSummary_of_open herror, h.finSent_iff]
  split_ifs <;> simp_all

theorem finAcked_iff_phase : sender.finAcked = true ↔ sender.stateSummary = .finAcked := by
  have hnext : sender.fin = true → sender.nextSeqno ≠ 0 := fun hfin ↦ by
    rw [h.next_of_fin hfin]
    omega
  rw [h.stateSummary_of_open herror, h.finAcked_iff, ← h.bytesInFlight_eq_zero_iff]
  split_ifs <;> simp_all

end Phases

end TCPSender

namespace TCPConnection

variable {connection : TCPConnection} {call : Call}

open TCPState (State ofState)

/-! ## The two classifications -/

/-- The predicate for an official state.  There is none for the two states of an inactive
connection. -/
def predicate (connection : TCPConnection) : State → Bool
  | .listen => connection.listen
  | .synRcvd => connection.synRcvd
  | .synSent => connection.synSent
  | .established => connection.established
  | .closeWait => connection.closeWait
  | .lastAck => connection.lastAck
  | .finWait1 => connection.finWait1
  | .finWait2 => connection.finWait2
  | .closing => connection.closing
  | .timeWait => connection.timeWait
  | .closed => false
  | .reset => false

/-- The connection is in the official state.  In TIME_WAIT it may linger or not. -/
def InState (connection : TCPConnection) : State → Prop
  | .timeWait => { connection.state with lingerAfterStreamsFinish := true } = ofState .timeWait
  | official => connection.state = ofState official

/-- The predicates say in which official state the connection is, and at most one of them holds. -/
structure Agrees (connection : TCPConnection) : Prop where
  iff_inState : ∀ official, connection.predicate official = true ↔ connection.InState official
  unique : ∀ first second, connection.predicate first = true → connection.predicate second = true →
    first = second

/-- None of the three situations in which the classifications differ. -/
structure Unambiguous (connection : TCPConnection) : Prop where
  /-- CLOSING does not look at the flag that tells it from LAST_ACK. -/
  lingers : connection.receiver.streamOut.inputEnded = true → connection.sender.fin = true →
    connection.sender.bytesInFlight ≠ 0 → connection.lingerAfterStreamsFinish = true
  /-- SYN_ACKED ends with the stream, although the FIN may have to wait for room in the window. -/
  roomForFin : connection.sender.stream.eof = true → connection.sender.fin = false →
    connection.sender.bytesInFlight < connection.sender.nextSeqno →
      connection.receiver.streamOut.inputEnded = true ∧ connection.lingerAfterStreamsFinish = true
  /-- FIN_SENT may hold while nothing is acknowledged. -/
  finAfterAck : connection.sender.fin = true →
    connection.sender.bytesInFlight < connection.sender.nextSeqno

/-! ## Invariants -/

theorem endsAfterSyn_step (h : connection.receiver.EndsAfterSyn) (call : Call) :
    (connection.step call).receiver.EndsAfterSyn := by
  apply receiver_step TCPReceiver.EndsAfterSyn
  · exact fun _ h ↦ h
  · intro segment _ hbefore hnone
    obtain ⟨hwaits, hsame⟩ := TCPReceiver.segmentReceived_of_isn_eq_none hnone
    rw [hsame]
    exact hbefore hwaits
  · cases call with
    | readInbound len =>
      exact fun hnone ↦ (ByteStream.popOutput_frame _ _).2.2.1.trans (h hnone)
    | connect | write | endInputStream | segmentReceived | tick => exact h

/-- What the two classifications rely on. -/
structure Classified (connection : TCPConnection) : Prop where
  sequenced : connection.sender.Sequenced
  ends : connection.receiver.EndsAfterSyn
  opening : connection.receiver.isn = none → connection.sender.Opening
  lingers : connection.lingerAfterStreamsFinish = false →
    connection.receiver.streamOut.inputEnded = true
  active : connection.active = true
  senderError : connection.sender.stream.error = false
  receiverError : connection.receiver.streamOut.error = false

/-! ## When the classifications agree -/

theorem state_eq_iff (hactive : connection.active = true) {sender : TCPSenderStateSummary}
    {receiver : TCPReceiverStateSummary} {linger : Bool} :
    connection.state = ⟨sender, receiver, true, linger⟩ ↔
      connection.sender.stateSummary = sender ∧ connection.receiver.stateSummary = receiver ∧
        connection.lingerAfterStreamsFinish = linger := by
  simp [state, TCPState.new, hactive]

/-- A connection is in at most one official state. -/
theorem inState_unique {first second : State} (hfirst : connection.InState first)
    (hsecond : connection.InState second) : first = second := by
  cases first <;> cases second <;> simp_all [InState, ofState]

theorem Classified.linger_of_not_ended (h : connection.Classified)
    (hopen : connection.receiver.streamOut.inputEnded = false) :
    connection.lingerAfterStreamsFinish = true := by
  by_contra hflag
  exact Bool.eq_false_iff.mp hopen (h.lingers (Bool.eq_false_iff.mpr hflag))

/-- Before the inbound stream ends, the connection lingers, and the phases make out the state. -/
theorem Classified.state_eq_iff_of_open (h : connection.Classified) {heard sent : Bool}
    {sender : TCPSenderStateSummary} {receiver : TCPReceiverStateSummary}
    (hopen : receiver ≠ .finRecv)
    (hheard : heard = true ↔ connection.receiver.stateSummary = receiver)
    (hsent : connection.receiver.stateSummary = receiver →
      (sent = true ↔ connection.sender.stateSummary = sender)) :
    (heard && sent) = true ↔ connection.state = ⟨sender, receiver, true, true⟩ := by
  have hlinger : connection.receiver.stateSummary = receiver →
      connection.lingerAfterStreamsFinish = true := by
    intro hphase
    apply h.linger_of_not_ended
    apply Bool.eq_false_iff.mpr
    intro hended
    have hlast := (TCPReceiver.finRecv_iff_phase h.receiverError h.ends).mp hended
    exact hopen (hphase.symm.trans hlast)
  rw [Bool.and_eq_true_iff, state_eq_iff h.active, hheard]
  constructor
  · rintro ⟨hphase, hset⟩
    exact ⟨(hsent hphase).mp hset, hphase, hlinger hphase⟩
  · rintro ⟨hsender, hphase, -⟩
    exact ⟨hphase, (hsent hphase).mpr hsender⟩

theorem Classified.finSent_iff_phase (h : connection.Classified)
    (hunambiguous : connection.Unambiguous) :
    connection.sender.finSent = true ↔ connection.sender.stateSummary = .finSent := by
  rw [TCPSender.finSent_iff_phase h.sequenced h.senderError]
  exact or_iff_left fun hearly ↦ (hunambiguous.finAfterAck hearly.1).ne hearly.2

/-- A FIN that has to wait for room is the only reason for SYN_ACKED to miss its phase. -/
theorem Classified.finRecv_of_waiting_fin (h : connection.Classified)
    (hunambiguous : connection.Unambiguous) (hphase : connection.sender.stateSummary = .synAcked)
    (heof : connection.sender.stream.eof = true) :
    connection.receiver.finRecv = true ∧ connection.lingerAfterStreamsFinish = true := by
  have hflying := h.sequenced.bytesInFlight_le
  rw [h.sequenced.stateSummary_of_open h.senderError] at hphase
  split_ifs at hphase with hnothing hunheard hfin
  exact hunambiguous.roomForFin heof hfin (by omega)

/-- Outside of the three situations, a predicate holds exactly in its state. -/
theorem Classified.iff_inState (h : connection.Classified) (hunambiguous : connection.Unambiguous)
    (official : State) :
    connection.predicate official = true ↔ connection.InState official := by
  have hlisten := TCPReceiver.listen_iff_phase h.receiverError
  have hsynRecv := TCPReceiver.synRecv_iff_phase h.receiverError
  have hfinRecv := TCPReceiver.finRecv_iff_phase h.receiverError h.ends
  have hclosed := TCPSender.closed_iff_phase h.sequenced h.senderError
  have hsynSent := TCPSender.synSent_iff_phase h.sequenced h.senderError
  have hsynAcked := TCPSender.synAcked_iff_phase h.sequenced h.senderError
  have hfinAcked := TCPSender.finAcked_iff_phase h.sequenced h.senderError
  have hfinSent := h.finSent_iff_phase hunambiguous
  have hroom := h.finRecv_of_waiting_fin hunambiguous
  cases official with
  | listen => exact h.state_eq_iff_of_open (by decide) hlisten fun _ ↦ hclosed
  | synRcvd => exact h.state_eq_iff_of_open (by decide) hsynRecv fun _ ↦ hsynSent
  | synSent => exact h.state_eq_iff_of_open (by decide) hlisten fun _ ↦ hsynSent
  | finWait1 => exact h.state_eq_iff_of_open (by decide) hsynRecv fun _ ↦ hfinSent
  | finWait2 => exact h.state_eq_iff_of_open (by decide) hsynRecv fun _ ↦ hfinAcked
  | established =>
    refine h.state_eq_iff_of_open (by decide) hsynRecv fun hopen ↦ hsynAcked.trans ?_
    refine and_iff_left_of_imp fun hphase ↦ Bool.eq_false_iff.mpr fun heof ↦ ?_
    exact absurd (hopen.symm.trans (hfinRecv.mp (hroom hphase heof).1)) (by decide)
  | closeWait =>
    change (_ && _ && !_) = true ↔ connection.state = _
    rw [Bool.and_eq_true_iff, Bool.and_eq_true_iff, Bool.not_eq_true', hfinRecv, hsynAcked, ofState,
      state_eq_iff h.active]
    constructor
    · exact fun hwaits ↦ ⟨hwaits.1.2.1, hwaits.1.1, hwaits.2⟩
    · rintro ⟨hphase, hended, hflag⟩
      refine ⟨⟨hended, hphase, Bool.eq_false_iff.mpr fun heof ↦ ?_⟩, hflag⟩
      exact absurd (hflag.symm.trans (hroom hphase heof).2) Bool.false_ne_true
  | lastAck =>
    change (_ && _ && !_) = true ↔ connection.state = _
    rw [Bool.and_eq_true_iff, Bool.and_eq_true_iff, Bool.not_eq_true', hfinRecv, hfinSent, ofState,
      state_eq_iff h.active, and_assoc, and_left_comm]
  | closing =>
    change (_ && _) = true ↔ connection.state = _
    rw [ofState, state_eq_iff h.active, ← hfinRecv, ← hfinSent, Bool.and_eq_true_iff]
    constructor
    · rintro ⟨hended, hsent⟩
      obtain ⟨hfin, hflying⟩ := h.sequenced.finSent_iff.mp hsent
      exact ⟨hsent, hended, hunambiguous.lingers hended hfin hflying⟩
    · exact fun hcloses ↦ ⟨hcloses.2.1, hcloses.1⟩
  | timeWait =>
    change (_ && _) = true ↔ _
    rw [Bool.and_eq_true_iff, hfinRecv, hfinAcked, and_comm]
    simp [InState, state, TCPState.new, ofState, h.active]
  | closed | reset => simp [predicate, InState, state, TCPState.new, ofState, h.active]

/-- Once the SYN has arrived, the receiver is in one of two phases. -/
theorem Classified.receiver_of_heard (h : connection.Classified)
    (hheard : connection.receiver.isn ≠ none) :
    connection.receiver.stateSummary = if connection.receiver.streamOut.inputEnded then .finRecv
      else .synRecv := by
  unfold TCPReceiver.stateSummary
  simp [h.receiverError, TCPReceiver.ackno, hheard]

/-- If the classifications agree, a FIN waits for room only while the connection is closing. -/
theorem Classified.roomForFin (h : connection.Classified) (hagrees : connection.Agrees)
    (heof : connection.sender.stream.eof = true) (hfin : connection.sender.fin = false)
    (hacked : connection.sender.bytesInFlight < connection.sender.nextSeqno) :
    connection.receiver.streamOut.inputEnded = true ∧
      connection.lingerAfterStreamsFinish = true := by
  have hphase : connection.sender.stateSummary = .synAcked := by
    rw [h.sequenced.stateSummary_of_open h.senderError, if_neg (by omega), if_neg hacked.ne,
      if_pos hfin]
  have hblocked : connection.sender.synAcked = false := by
    simp [TCPSender.synAcked, heof]
  have hheard : connection.receiver.isn ≠ none := fun hnone ↦ hacked.ne (h.opening hnone).flying
  have hreceiver := h.receiver_of_heard hheard
  by_contra hneither
  cases hended : connection.receiver.streamOut.inputEnded with
  | true =>
    have hflag : connection.lingerAfterStreamsFinish = false :=
      Bool.eq_false_iff.mpr fun hlinger ↦ hneither ⟨hended, hlinger⟩
    rw [hended] at hreceiver
    have hwaits := (hagrees.iff_inState .closeWait).mpr
      ((state_eq_iff h.active).mpr ⟨hphase, hreceiver, hflag⟩)
    simp [predicate, closeWait, hblocked] at hwaits
  | false =>
    rw [hended] at hreceiver
    have hruns := (hagrees.iff_inState .established).mpr
      ((state_eq_iff h.active).mpr ⟨hphase, hreceiver, h.linger_of_not_ended hended⟩)
    simp [predicate, established, hblocked] at hruns

/-- If the classifications agree, something has been acknowledged when the FIN is sent. -/
theorem Classified.finAfterAck (h : connection.Classified) (hagrees : connection.Agrees)
    (hfin : connection.sender.fin = true) :
    connection.sender.bytesInFlight < connection.sender.nextSeqno := by
  have hlast := h.sequenced.next_of_fin hfin
  have hheard : connection.receiver.isn ≠ none := by
    intro hnone
    have hnext := (h.opening hnone).next
    omega
  by_contra hunacked
  have hflying : connection.sender.bytesInFlight = connection.sender.nextSeqno :=
    h.sequenced.bytesInFlight_le.antisymm (not_lt.mp hunacked)
  have hsent : connection.sender.finSent = true :=
    h.sequenced.finSent_iff.mpr ⟨hfin, by omega⟩
  have hphase : connection.sender.stateSummary = .synSent := by
    rw [h.sequenced.stateSummary_of_open h.senderError, if_neg (by omega), if_pos hflying]
  have hother : connection.sender.stateSummary ≠ .finSent := by simp [hphase]
  have hreceiver := h.receiver_of_heard hheard
  cases hended : connection.receiver.streamOut.inputEnded with
  | true =>
    have hcloses : connection.state = ofState .closing :=
      (hagrees.iff_inState .closing).mp (Bool.and_eq_true_iff.mpr ⟨hended, hsent⟩)
    exact hother ((state_eq_iff h.active).mp hcloses).1
  | false =>
    have hopen : connection.receiver.synRecv = true := by
      rw [TCPReceiver.synRecv_iff_phase h.receiverError, hreceiver, hended]
      rfl
    have hwaits : connection.state = ofState .finWait1 :=
      (hagrees.iff_inState .finWait1).mp (Bool.and_eq_true_iff.mpr ⟨hopen, hsent⟩)
    exact hother ((state_eq_iff h.active).mp hwaits).1

/-- In each of the three situations the classifications differ. -/
theorem Classified.unambiguous (h : connection.Classified) (hagrees : connection.Agrees) :
    connection.Unambiguous where
  lingers hended hfin hflying := by
    have hsent := h.sequenced.finSent_iff.mpr ⟨hfin, hflying⟩
    have hcloses : connection.state = ofState .closing :=
      (hagrees.iff_inState .closing).mp (Bool.and_eq_true_iff.mpr ⟨hended, hsent⟩)
    exact ((state_eq_iff h.active).mp hcloses).2.2
  roomForFin heof hfin hacked := h.roomForFin hagrees heof hfin hacked
  finAfterAck hfin := h.finAfterAck hagrees hfin

theorem Classified.agrees_iff (h : connection.Classified) :
    connection.Agrees ↔ connection.Unambiguous := by
  refine ⟨h.unambiguous, fun hunambiguous ↦ ⟨h.iff_inState hunambiguous, ?_⟩⟩
  intro first second hfirst hsecond
  rw [h.iff_inState hunambiguous] at hfirst hsecond
  exact inState_unique hfirst hsecond

/-! ## Runs -/

/-- An active connection can be classified after every run. -/
theorem classified_run {cfg : TCPConfig} {randomIsn : WrappingInt32} {calls : List Call}
    (h : Admissible step WritesBeforeEnd (new cfg randomIsn) calls)
    (hactive : (run step (new cfg randomIsn) calls).active = true) :
    (run step (new cfg randomIsn) calls).Classified := by
  have hwatched := watched_run h
  have hends : (run step (new cfg randomIsn) calls).receiver.EndsAfterSyn :=
    run_invariant (fun connection : TCPConnection ↦ connection.receiver.EndsAfterSyn)
      (fun _ call h ↦ endsAfterSyn_step h call) (fun _ ↦ rfl)
  have hclear := isUnclearShutdown_of_active hactive
  exact {
    sequenced := hwatched.regular.sequenced
    ends := hends
    opening := (ready_run cfg randomIsn calls).opening
    lingers := fun hflag ↦ hwatched.passive (hwatched.lingers.mp hflag)
    active := hactive
    senderError := hwatched.regular.marked.1.trans hclear
    receiverError := hwatched.regular.marked.2.trans hclear }

/-- In every run without a write after the end of the input that leaves the connection active, the ten
predicates agree with the official states, and at most one of them holds, exactly if the last state
is none of the three situations in which a FIN confuses them. -/
theorem predicates_agree_iff (cfg : TCPConfig) (randomIsn : WrappingInt32) (calls : List Call)
    (h : Admissible step WritesBeforeEnd (new cfg randomIsn) calls)
    (hactive : (run step (new cfg randomIsn) calls).active = true) :
    let final := run step (new cfg randomIsn) calls
    final.Agrees ↔ final.Unambiguous :=
  (classified_run h hactive).agrees_iff

/-- Both ends close at the same time. -/
theorem predicates_agree_iff_closing :
    let calls : List Call := [.connect, .segmentReceived
      { header := { seqno := ⟨100⟩, ackno := ⟨1⟩, syn := true, ack := true, win := 10 } },
      .endInputStream, .segmentReceived
      { header := { seqno := ⟨101⟩, ackno := ⟨1⟩, ack := true, fin := true, win := 10 } }]
    let final := run step (new { fixedIsn := some ⟨0⟩ } ⟨7⟩) calls
    final.closing = true ∧ final.state = ofState .closing ∧ final.Agrees := by
  intro calls final
  have hunambiguous : final.Unambiguous :=
    ⟨by decide +kernel, by decide +kernel, by decide +kernel⟩
  exact ⟨by decide +kernel, by decide +kernel,
    (predicates_agree_iff { fixedIsn := some ⟨0⟩ } ⟨7⟩ calls (by decide +kernel)
      (by decide +kernel)).mpr hunambiguous⟩

/-- The peer closes first.  When the connection has sent its own FIN, it is in LAST_ACK, and CLOSING
holds as well. -/
theorem closing_holds_in_lastAck :
    let calls : List Call := [.connect, .segmentReceived
      { header := { seqno := ⟨100⟩, ackno := ⟨1⟩, syn := true, ack := true, win := 10 } },
      .segmentReceived
      { header := { seqno := ⟨101⟩, ackno := ⟨1⟩, ack := true, fin := true, win := 10 } },
      .endInputStream]
    let final := run step (new { fixedIsn := some ⟨0⟩ } ⟨7⟩) calls
    Admissible step WritesBeforeEnd (new { fixedIsn := some ⟨0⟩ } ⟨7⟩) calls ∧
      final.active = true ∧ final.state = ofState .lastAck ∧ final.lastAck = true ∧
      final.closing = true ∧ ¬ final.Agrees := by
  intro calls final
  have hlast : final.lastAck = true := by decide +kernel
  have hcloses : final.closing = true := by decide +kernel
  refine ⟨by decide +kernel, by decide +kernel, by decide +kernel, hlast, hcloses, fun hagrees ↦ ?_⟩
  exact absurd (hagrees.unique .lastAck .closing hlast hcloses) (by decide)

/-- The window has room for one byte.  The FIN has to wait, and ESTABLISHED does not hold any more. -/
example :
    let final := run step (new { fixedIsn := some ⟨0⟩ } ⟨7⟩) [.connect, .segmentReceived
      { header := { seqno := ⟨100⟩, ackno := ⟨1⟩, syn := true, ack := true, win := 1 } },
      .write [97], .endInputStream]
    final.active = true ∧ final.state = ofState .established ∧ final.established = false := by
  decide +kernel

/-- The peer announces a window without acknowledging the SYN.  FIN_WAIT_1 holds in SYN_RCVD. -/
example :
    let final := run step (new { fixedIsn := some ⟨0⟩ } ⟨7⟩) [.connect, .segmentReceived
      { header := { seqno := ⟨100⟩, ackno := ⟨0⟩, syn := true, ack := true, win := 10 } },
      .endInputStream]
    final.active = true ∧ final.state = ofState .synRcvd ∧ final.finWait1 = true := by
  decide +kernel

end TCPConnection

end Sponge
