import Sponge.TCP.ConnectionOutput
import Sponge.TCP.ReceiverRuns
import Sponge.TCP.TCPState

/-!
# Phases only move forward

The phases of a connection are computed from counters.  For the sender they follow from four facts
that never become false again: the SYN has been sent, something has been acknowledged as a whole, the
FIN has been sent, and everything has been acknowledged after the FIN.
-/

namespace Sponge

open Execution

/-! ## Chains of tests

The summary of a state is a chain of tests, and each of them leads to the last or to the first phase that
the rest of the chain can still reach. -/

section

variable {Phase : Type*} [Preorder Phase] {p q : Prop} [Decidable p] [Decidable q]
  {bound before after : Phase}

/-- A test for a last phase, which does not become false. -/
theorem ite_le_ite_of_last (hpq : p → q) (hbound : before ≤ bound) (hrest : before ≤ after) :
    (if p then bound else before) ≤ if q then bound else after := by
  split_ifs with hp hq hq
  · exact le_rfl
  · exact absurd (hpq hp) hq
  · exact hbound
  · exact hrest

/-- A test for a first phase, which does not become true. -/
theorem ite_le_ite_of_first (hqp : q → p) (hbound : bound ≤ after) (hrest : ¬ p → before ≤ after) :
    (if p then bound else before) ≤ if q then bound else after := by
  split_ifs with hp hq hq
  · exact le_rfl
  · exact hbound
  · exact absurd (hqp hq) hp
  · exact hrest hp

end

namespace TCPSender

variable {sender before after : TCPSender}

def firstOutstanding (sender : TCPSender) : ℕ := sender.nextSeqno - sender.bytesInFlight

/-- No more is in flight than was sent. -/
theorem Sequenced.bytesInFlight_le (h : sender.Sequenced) :
    sender.bytesInFlight ≤ sender.nextSeqno := by
  obtain ⟨base, -, htiles⟩ := h.chain
  have hsum := htiles.add_sum
  rw [← h.inFlight] at hsum
  omega

/-- The phase in terms of the FIN and of the two counters. -/
theorem Sequenced.stateSummary_of_counters (h : sender.Sequenced) :
    sender.stateSummary =
      if sender.stream.error then .error
      else if sender.nextSeqno = 0 then .closed
      else if sender.bytesInFlight = sender.nextSeqno then .synSent
      else if sender.fin = false then .synAcked
      else if sender.bytesInFlight = 0 then .finAcked else .finSent := by
  have hsent : sender.nextSeqno = sender.bytesInFlight ↔ sender.bytesInFlight = sender.nextSeqno :=
    eq_comm
  unfold stateSummary
  simp only [hsent]
  cases hfin : sender.fin with
  | true =>
    obtain ⟨heof, hlast⟩ := h.fin_iff.mp hfin
    simp [heof, hlast]
  | false =>
    have hbefore : sender.nextSeqno < sender.stream.bytesWritten + 2 := h.next_lt_of_not_fin hfin
    simp [hbefore]

/-- The phase in terms of what has been sent and acknowledged. -/
theorem Sequenced.stateSummary_eq (h : sender.Sequenced) :
    sender.stateSummary =
      if sender.stream.error then .error
      else if sender.syn = false then .closed
      else if sender.firstOutstanding = 0 then .synSent
      else if sender.fin = false then .synAcked
      else if sender.ackno = sender.nextSeqno then .finAcked else .finSent := by
  have hclosed : sender.nextSeqno = 0 ↔ sender.syn = false := by
    have heq := h.closed_eq
    rw [closed, Bool.eq_iff_iff, beq_iff_eq, Bool.not_eq_true'] at heq
    exact heq
  have hflying := h.bytesInFlight_le
  have hsent : sender.bytesInFlight = sender.nextSeqno ↔ sender.firstOutstanding = 0 := by
    unfold firstOutstanding
    omega
  rw [h.stateSummary_of_counters]
  simp only [hclosed, hsent, h.bytesInFlight_eq_zero_iff]

/-- The phase moves forward if none of the facts behind it becomes false. -/
theorem stateSummary_le (hbefore : before.Sequenced) (hafter : after.Sequenced)
    (herror : before.stream.error = true → after.stream.error = true)
    (hsyn : before.syn = true → after.syn = true)
    (hacked : before.firstOutstanding ≠ 0 → after.firstOutstanding ≠ 0)
    (hfin : before.fin = true → after.fin = true)
    (hall : before.fin = true → before.ackno = before.nextSeqno → after.ackno = after.nextSeqno) :
    before.stateSummary ≤ after.stateSummary := by
  have hlast (phase : TCPSenderStateSummary) : phase ≤ .error := by
    cases phase <;> decide
  have hfirst (phase : TCPSenderStateSummary) : .closed ≤ phase := by
    cases phase <;> decide
  rw [hbefore.stateSummary_eq, hafter.stateSummary_eq]
  apply ite_le_ite_of_last herror (hlast _)
  apply ite_le_ite_of_first _ (hfirst _)
  · intro _
    apply ite_le_ite_of_first (not_imp_not.mp hacked)
    · split_ifs <;> decide
    · intro _
      apply ite_le_ite_of_first
      · rw [← not_imp_not, Bool.not_eq_false, Bool.not_eq_false]
        exact hfin
      · split_ifs <;> decide
      · intro hset
        exact ite_le_ite_of_last (hall ((Bool.not_eq_false _).mp hset)) (by decide) le_rfl
  · rw [← not_imp_not, Bool.not_eq_false, Bool.not_eq_false]
    exact hsyn

/-- No move takes the sender back to an earlier phase. -/
theorem Sequenced.stateSummary_move (h : sender.Sequenced) (hmove : Move sender after) :
    sender.stateSummary ≤ after.stateSummary := by
  have hafter := h.move hmove
  cases hmove with
  | @send _ segment hwindow hwants hnext =>
    have hfin := h.fin_eq_false_of_wantsToSend hwants
    have hsame : (sender.sent segment).firstOutstanding = sender.firstOutstanding := by
      unfold firstOutstanding
      rw [h.next_sent hfin]
      change _ - (sender.bytesInFlight + segment.lengthInSequenceSpace) = _
      omega
    apply stateSummary_le h hafter
    · exact fun herror ↦ (ByteStream.popOutput_frame _ _).2.2.2.trans herror
    · exact fun hsyn ↦ Bool.or_eq_true_iff.mpr (.inl hsyn)
    · exact fun hacked ↦ hsame ▸ hacked
    · exact fun hset ↦ Bool.or_eq_true_iff.mpr (.inl hset)
    · exact fun hset ↦ absurd (hfin.symm.trans hset) Bool.false_ne_true
  | @acknowledge newAckno hnew hsent =>
    obtain ⟨bytes, heq, hbytes⟩ := acknowledge_eq sender newAckno
    have hless : bytes ≤ sender.bytesInFlight := by
      rw [hbytes h.inFlight, h.inFlight]
      conv_rhs => rw [← List.takeWhile_append_dropWhile (p := covered newAckno)
        (l := sender.outstandingSegment)]
      rw [List.map_append, List.sum_append]
      exact Nat.le_add_left _ _
    rw [heq] at hafter ⊢
    apply stateSummary_le h hafter id id ?_ id
    · exact fun _ hall ↦ absurd (hall ▸ hnew) (not_lt.mpr hsent)
    · unfold firstOutstanding
      dsimp only
      omega
  | again | bare | adjust => exact stateSummary_le h hafter id id id id fun _ ↦ id

/-- With nothing acknowledged, everything that was sent is in flight. -/
theorem Sequenced.bytesInFlight_of_ackno_eq_zero (h : sender.Sequenced) (hackno : sender.ackno = 0) :
    sender.bytesInFlight = sender.nextSeqno := by
  obtain ⟨base, hbase, htiles⟩ := h.chain
  have hsum := htiles.add_sum
  rw [← h.inFlight] at hsum
  omega

theorem Sequenced.synSent_of_ackno_eq_zero (h : sender.Sequenced) (hackno : sender.ackno = 0)
    (hclosed : sender.closed = false) : sender.synSent = true := by
  have hflying := h.bytesInFlight_of_ackno_eq_zero hackno
  have hpositive : sender.nextSeqno ≠ 0 := by simpa [closed] using hclosed
  simp only [synSent, hflying, beq_self_eq_true, Bool.and_true, decide_eq_true_eq]
  omega

theorem error_move (hmove : Move sender after) : after.stream.error = sender.stream.error := by
  cases hmove with
  | send => exact (ByteStream.popOutput_frame _ _).2.2.2
  | acknowledge => rw [(acknowledge_frame sender _).2.1]
  | again | bare | adjust => rfl

end TCPSender

namespace TCPReceiver

variable {receiver before after : TCPReceiver} {segment : TCPSegment}

/-- A receiver that has not moved back is in the same phase or in a later one. -/
theorem Advances.stateSummary_le (h : Advances before after) :
    before.stateSummary ≤ after.stateSummary := by
  have hisn : before.ackno.isNone = false → after.ackno.isNone = false := by
    simp only [ackno, Option.isNone_map, Option.isNone_eq_false_iff]
    intro hsome
    rw [h.isn hsome]
    exact hsome
  have hlast (phase : TCPReceiverStateSummary) : phase ≤ .error := by
    cases phase <;> decide
  have hfirst (phase : TCPReceiverStateSummary) : .listen ≤ phase := by
    cases phase <;> decide
  unfold stateSummary streamOut ByteStream.inputEnded
  apply ite_le_ite_of_last h.error (hlast _)
  apply ite_le_ite_of_first _ (hfirst _)
  · intro _
    exact ite_le_ite_of_last (fun hended ↦ (h.ended hended).1) (by decide) le_rfl
  · rw [← not_imp_not, Bool.not_eq_true, Bool.not_eq_true]
    exact hisn

/-- The first SYN brings the initial sequence number, and nothing changes it. -/
theorem isn_segmentReceived (receiver : TCPReceiver) (segment : TCPSegment) :
    (receiver.segmentReceived segment).1.isn =
      if segment.header.syn && receiver.listen then some segment.header.seqno
      else receiver.isn := by
  have haccept (receiver : TCPReceiver) : (receiver.acceptSegment segment).1.isn = receiver.isn := by
    cases acceptSegment_cases receiver segment with
    | inl hsame => rw [hsame]
    | inr hpushed =>
      obtain ⟨isn, -, heq⟩ := hpushed
      rw [heq]
      rfl
  unfold segmentReceived
  split_ifs <;> simp_all

/-- A receiver that is still waiting for the SYN has ignored the segment. -/
theorem segmentReceived_of_isn_eq_none (h : (receiver.segmentReceived segment).1.isn = none) :
    receiver.isn = none ∧ receiver.segmentReceived segment = (receiver, false) := by
  rw [isn_segmentReceived] at h
  split_ifs at h with hopens
  refine ⟨h, ?_⟩
  have hlisten : receiver.listen = true := by simp [listen, ackno, h]
  have hsyn : segment.header.syn = false := by simpa [hlisten] using hopens
  rw [segmentReceived, if_neg (Bool.eq_false_iff.mp hsyn), acceptSegment, h]

theorem Sound.error_segmentReceived (h : receiver.Sound) (segment : TCPSegment) :
    (receiver.segmentReceived segment).1.reassembler.output.error =
      receiver.reassembler.output.error := by
  suffices hboth : (receiver.segmentReceived segment).1.Sound ∧
      (receiver.segmentReceived segment).1.reassembler.output.error =
        receiver.reassembler.output.error from hboth.2
  apply segmentReceived_rule fun after ↦ after.Sound ∧
    after.reassembler.output.error = receiver.reassembler.output.error
  · exact ⟨h, rfl⟩
  · exact fun _ _ ↦ ⟨⟨h.consistent, h.ended⟩, rfl⟩
  · intro opened isn hopened _ hpushes
    have hpushed := StreamReassembler.pushSubstring_spec hopened.1.consistent segment.payload.str
      (opened.index isn segment) segment.header.fin
    exact ⟨(hopened.1.push hpushes).1, hpushed.error.trans hopened.2⟩

end TCPReceiver

namespace TCPConnection

variable {connection : TCPConnection} {call : Call}

/-! ## Steps -/

/-- No call takes the sender back to an earlier phase. -/
theorem stateSummary_sender_step (h : connection.sender.Sequenced)
    (hcall : connection.NothingAfterFin call) :
    connection.sender.stateSummary ≤ (connection.step call).sender.stateSummary := by
  have haccess := sequenced_access h hcall
  suffices hboth : (connection.step call).sender.Sequenced ∧
      connection.sender.stateSummary ≤ (connection.step call).sender.stateSummary from hboth.2
  apply sender_step_of_move fun sender ↦
    sender.Sequenced ∧ connection.sender.stateSummary ≤ sender.stateSummary
  · exact fun _ h ↦ ⟨h.1.drain, h.2⟩
  · intro sender hsender
    refine ⟨hsender.1.setError, hsender.2.trans ?_⟩
    exact TCPSender.stateSummary_le hsender.1 hsender.1.setError (fun _ ↦ rfl) id id id fun _ ↦ id
  · intro before after _ hbefore hmove
    exact ⟨hbefore.1.move hmove, hbefore.2.trans (hbefore.1.stateSummary_move hmove)⟩
  · exact h.valid
  · refine ⟨haccess, ?_⟩
    cases call <;> exact TCPSender.stateSummary_le h haccess id id id id fun _ ↦ id

/-- No call moves the receiver back. -/
theorem receiver_advances (h : connection.receiver.Sound) (call : Call) :
    (connection.step call).receiver.Sound ∧
      TCPReceiver.Advances connection.receiver (connection.step call).receiver := by
  apply receiver_step fun receiver ↦ receiver.Sound ∧
    TCPReceiver.Advances connection.receiver receiver
  · intro receiver hreceiver
    refine ⟨⟨hreceiver.1.consistent.setError, hreceiver.1.ended⟩, hreceiver.2.trans ?_⟩
    exact ⟨fun _ ↦ rfl, rfl, le_rfl, le_rfl, fun hended ↦ ⟨hended, rfl⟩, fun _ ↦ rfl⟩
  · intro segment _ _
    exact h.segmentReceived segment
  · cases call with
    | readInbound len => exact h.step (.read len)
    | connect | write | endInputStream | segmentReceived | tick =>
      exact ⟨h, TCPReceiver.advances_refl _⟩

/-- The rule for a property that the sender has until the receiver has got a SYN.  The sender of such
a connection sees no acknowledgment, provided that it is waiting for its first one. -/
theorem unheard_rule (property : TCPSender → Prop) (hsender : SettlesSender property)
    (h : connection.receiver.isn = none → property connection.sender)
    (hwaits : connection.receiver.isn = none → connection.sender.closed = false →
      connection.sender.synSent = true)
    (hfill : connection.receiver.isn = none →
      property (connection.access call).sender.fillWindow)
    (htick : connection.receiver.isn = none → ∀ msSinceLastTick,
      property (connection.sender.tick msSinceLastTick)) :
    (connection.step call).receiver.isn = none → property (connection.step call).sender := by
  have hsettles : Settles fun connection ↦
      connection.receiver.isn = none → property connection.sender :=
    ⟨fun _ h hnone ↦ hsender.drain _ (h hnone), fun _ h hnone ↦ hsender.error _ (h hnone),
      fun _ h hnone ↦ hsender.bare _ (h hnone), fun _ _ _ _ h ↦ h, fun _ _ h _ _ ↦ h⟩
  cases call with
  | connect =>
    apply hsettles.step
    unfold perform
    split_ifs
    · exact hfill
    · exact h
  | write | endInputStream => exact hsettles.step hfill
  | tick msSinceLastTick => exact hsettles.step fun hnone ↦ htick hnone msSinceLastTick
  | readInbound len => exact h
  | segmentReceived segment =>
    have hbefore := @TCPReceiver.segmentReceived_of_isn_eq_none connection.receiver segment
    apply hsettles.segmentReceived h
    · exact fun _ _ hnone ↦ hfill (hbefore hnone).1
    · exact fun _ _ hnone ↦ h (hbefore hnone).1
    · -- In SYN_SENT the acknowledgment of a segment that the receiver ignores is not looked at.
      rintro ⟨hlisten, -, -, haccepted⟩ hnone
      obtain ⟨hisn, hignored⟩ := hbefore hnone
      have hclosed : connection.sender.closed = false := by
        simpa [listen, TCPReceiver.listen, TCPReceiver.ackno, hisn] using hlisten
      have hsent := hwaits hisn hclosed
      have htaken := haccepted (by
        simpa [synSent, TCPReceiver.listen, TCPReceiver.ackno, hsent] using hnone)
      rw [hignored] at htaken
      contradiction

/-- Until the receiver has got a SYN, nothing is acknowledged. -/
def Unheard (connection : TCPConnection) : Prop :=
  connection.receiver.isn = none → connection.sender.ackno = 0

theorem unheard_step (hsequenced : connection.sender.Sequenced) (h : connection.Unheard)
    (call : Call) : (connection.step call).Unheard := by
  apply unheard_rule fun sender ↦ sender.ackno = 0
  · exact ⟨fun _ h ↦ h, fun _ h ↦ h, fun _ h ↦ h⟩
  · exact h
  · exact fun hnone hclosed ↦ hsequenced.synSent_of_ackno_eq_zero (h hnone) hclosed
  · intro hnone
    rw [TCPSender.ackno_fillWindow (valid_access hsequenced.valid call)]
    cases call <;> exact h hnone
  · intro hnone msSinceLastTick
    obtain ⟨_, _, _, _, heq⟩ := TCPSender.tick_frame connection.sender msSinceLastTick
    rw [heq]
    exact h hnone

/-- Both streams are in an error exactly after an unclear shutdown. -/
def Marked (connection : TCPConnection) : Prop :=
  connection.sender.stream.error = connection.isUnclearShutdown ∧
    connection.receiver.reassembler.output.error = connection.isUnclearShutdown

theorem marked_step (hvalid : connection.sender.stream.Valid) (hsound : connection.receiver.Sound)
    (h : connection.Marked) (call : Call) : (connection.step call).Marked := by
  have hsettles : Settles fun connection ↦ connection.sender.stream.Valid ∧ connection.Marked :=
    ⟨fun _ h ↦ h, fun _ h ↦ ⟨h.1.setError, rfl, rfl⟩, fun _ h ↦ h, fun _ _ _ _ h ↦ h,
      fun _ _ h _ _ ↦ h⟩
  refine (hsettles.step_of_moves (fun _ h ↦ h.1) ?_ ?_ ?_).2
  · intro before after hbefore hmoves
    apply hmoves.invariant (fun sender ↦ sender.stream.Valid ∧ Marked { before with sender }) ?_
      hbefore
    intro sender next hsender hmove
    exact ⟨TCPSender.valid_move hsender.1 hmove,
      (TCPSender.error_move hmove).trans hsender.2.1, hsender.2.2⟩
  · intro segment _ hbefore
    exact ⟨hbefore.1, hbefore.2.1, (hsound.error_segmentReceived segment).trans hbefore.2.2⟩
  · refine ⟨valid_access hvalid call, ?_⟩
    cases call with
    | readInbound len => exact ⟨h.1, (ByteStream.popOutput_frame _ _).2.2.2.trans h.2⟩
    | connect | write | endInputStream | segmentReceived | tick => exact h

/-- What holds of a connection in every run. -/
structure Regular (connection : TCPConnection) : Prop where
  sequenced : connection.sender.Sequenced
  sound : connection.receiver.Sound
  unheard : connection.Unheard
  marked : connection.Marked

theorem regular_new (cfg : TCPConfig) (randomIsn : WrappingInt32) : (new cfg randomIsn).Regular where
  sequenced := TCPSender.sequenced_new _ _ _ _
  sound := TCPReceiver.sound_new _
  unheard _ := rfl
  marked := ⟨rfl, rfl⟩

/-- All of this holds after every call. -/
theorem Regular.step (h : connection.Regular) (hcall : connection.NothingAfterFin call) :
    (connection.step call).Regular where
  sequenced := sequenced_step h.sequenced hcall
  sound := (receiver_advances h.sound call).1
  unheard := unheard_step h.sequenced h.unheard call
  marked := marked_step h.sequenced.valid h.sound h.marked call

/-- The receiver waits for a SYN only while the sender waits for an acknowledgment. -/
theorem Regular.sender_of_listen (h : connection.Regular)
    (hlisten : connection.receiver.stateSummary = .listen) :
    connection.sender.stateSummary = .closed ∨ connection.sender.stateSummary = .synSent := by
  unfold TCPReceiver.stateSummary at hlisten
  split_ifs at hlisten with herror hnone
  have hisn : connection.receiver.isn = none := by simpa [TCPReceiver.ackno] using hnone
  have hopen : connection.sender.stream.error = false := by
    rw [h.marked.1, ← h.marked.2]
    exact Bool.eq_false_iff.mpr herror
  have hflying := h.sequenced.bytesInFlight_of_ackno_eq_zero (h.unheard hisn)
  unfold TCPSender.stateSummary
  rw [if_neg (Bool.eq_false_iff.mp hopen), hflying]
  by_cases hzero : connection.sender.nextSeqno = 0
  · exact .inl (if_pos hzero)
  · exact .inr (by rw [if_neg hzero, if_pos rfl])

/-- A connection that was reset is in the state RESET. -/
theorem Marked.state_eq (h : connection.Marked) (hreset : connection.isUnclearShutdown = true) :
    connection.state = .ofState .reset := by
  have hsender := h.1.trans hreset
  have hreceiver := h.2.trans hreset
  simp [state, TCPState.new, TCPState.ofState, active, hreset, TCPSender.stateSummary,
    TCPReceiver.stateSummary, TCPReceiver.streamOut, hsender, hreceiver]

/-- An inactive connection stays inactive. -/
theorem active_step (h : connection.active = false) (call : Call) :
    (connection.step call).active = false := by
  simp only [active, Bool.not_eq_false', Bool.or_eq_true_iff] at h ⊢
  cases h with
  | inl hunclear => exact .inl (isUnclearShutdown_step hunclear call)
  | inr hclear => exact .inr (isClearShutdown_step hclear call)

/-- After an unclear shutdown, everything that is sent has RST set. -/
def OnlyResets (before after : TCPConnection) : Prop :=
  ∃ appended, after.segmentsOut = before.segmentsOut ++ appended ∧
    ∀ emission ∈ appended, emission.segment.header.rst = true

/-- After an unclear shutdown, a call sends nothing but resets. -/
theorem onlyResets_step (h : connection.isUnclearShutdown = true) (call : Call) :
    OnlyResets connection (connection.step call) := by
  have hsettles : Settles fun after ↦ after.isUnclearShutdown = true ∧
      OnlyResets connection after := by
    constructor
    case collect =>
      rintro after ⟨hreset, appended, heq, hrst⟩
      refine ⟨hreset, appended ++ after.sender.segmentsOut.map after.setSegment, ?_, ?_⟩
      · simp [collectOutput, heq]
      · intro emission hemission
        cases List.mem_append.mp hemission with
        | inl hold => exact hrst emission hold
        | inr hnew =>
          obtain ⟨queued, -, rfl⟩ := List.mem_map.mp hnew
          simp [setSegment, hreset]
    case shutdown => exact fun _ h ↦ ⟨rfl, h.2⟩
    case bare => exact fun _ h ↦ h
    case record => exact fun _ _ _ _ h ↦ h
    case close => exact fun _ _ h _ _ ↦ h
  exact (hsettles.step_of_frame (fun _ _ _ h ↦ h) ⟨h, [], by simp, by simp⟩ call).2

theorem OnlyResets.trans {before middle after : TCPConnection} (h : OnlyResets before middle)
    (hnext : OnlyResets middle after) : OnlyResets before after := by
  obtain ⟨first, hfirst, hrst⟩ := h
  obtain ⟨second, hsecond, hrstNext⟩ := hnext
  refine ⟨first ++ second, by rw [hsecond, hfirst, List.append_assoc], fun emission hemission ↦ ?_⟩
  cases List.mem_append.mp hemission with
  | inl hold => exact hrst emission hold
  | inr hnew => exact hrstNext emission hnew

/-! ## Runs -/

/-- What does not go back from one state of a connection to a later one. -/
structure Onward (before after : TCPConnection) : Prop where
  sender : before.sender.stateSummary ≤ after.sender.stateSummary
  receiver : before.receiver.stateSummary ≤ after.receiver.stateSummary
  inactive : before.active = false → after.active = false
  reset : before.isUnclearShutdown = true →
    after.isUnclearShutdown = true ∧ OnlyResets before after

theorem onward_refl (connection : TCPConnection) : Onward connection connection :=
  ⟨le_rfl, le_rfl, id, fun hreset ↦ ⟨hreset, [], by simp, by simp⟩⟩

theorem Onward.step {before : TCPConnection} (h : Onward before connection)
    (hregular : connection.Regular) (hcall : connection.NothingAfterFin call) :
    Onward before (connection.step call) where
  sender := h.sender.trans (stateSummary_sender_step hregular.sequenced hcall)
  receiver := h.receiver.trans (receiver_advances hregular.sound call).2.stateSummary_le
  inactive hinactive := active_step (h.inactive hinactive) call
  reset hreset := by
    obtain ⟨hstill, honly⟩ := h.reset hreset
    exact ⟨isUnclearShutdown_step hstill call, honly.trans (onlyResets_step hstill call)⟩

/-- In every run without a write after the end of the input, and whatever segments arrive, the phases
of the sender and of the receiver only move forward and an inactive connection stays inactive; the
receiver waits for a SYN only while the sender has not got an acknowledgment; and after an unclear
shutdown the connection is in the official state RESET for ever and sends only segments with RST. -/
theorem phases_move_forward (cfg : TCPConfig) (randomIsn : WrappingInt32) (calls more : List Call)
    (h : Admissible step WritesBeforeEnd (new cfg randomIsn) (calls ++ more)) :
    let before := run step (new cfg randomIsn) calls
    let after := run step before more
    before.sender.stateSummary ≤ after.sender.stateSummary ∧
      before.receiver.stateSummary ≤ after.receiver.stateSummary ∧
      (before.active = false → after.active = false) ∧
      (before.receiver.stateSummary = .listen →
        before.sender.stateSummary = .closed ∨ before.sender.stateSummary = .synSent) ∧
      (before.isUnclearShutdown = true →
        after.state = .ofState .reset ∧ OnlyResets before after) := by
  intro before after
  obtain ⟨hcalls, hmore⟩ := (admissible_append more).mp h
  have hbefore : before.Regular := by
    apply hcalls.invariant Regular ?_ (regular_new cfg randomIsn)
    exact fun _ _ hregular hcall ↦ hregular.step (hcall.nothingAfterFin hregular.sequenced)
  obtain ⟨hregular, honward⟩ : after.Regular ∧ Onward before after := by
    apply hmore.invariant (fun connection ↦ connection.Regular ∧ Onward before connection) ?_
      ⟨hbefore, onward_refl before⟩
    intro connection call ⟨hregular, honward⟩ hcall
    have hfinal := hcall.nothingAfterFin hregular.sequenced
    exact ⟨hregular.step hfinal, honward.step hregular hfinal⟩
  refine ⟨honward.sender, honward.receiver, honward.inactive, hbefore.sender_of_listen,
    fun hreset ↦ ?_⟩
  obtain ⟨hstill, honly⟩ := honward.reset hreset
  exact ⟨hregular.marked.state_eq hstill, honly⟩

/-- A connection is opened, reset by its peer, and then given time. -/
theorem phases_move_forward_after_reset :
    let calls : List Call := [.connect, .segmentReceived
      { header := { seqno := ⟨100⟩, ackno := ⟨1⟩, syn := true, ack := true, win := 10 } },
      .write [97], .segmentReceived { header := { seqno := ⟨101⟩, rst := true } }]
    let before := run step (new { fixedIsn := some ⟨0⟩ } ⟨7⟩) calls
    let after := run step before [.tick 1000]
    Admissible step WritesBeforeEnd (new { fixedIsn := some ⟨0⟩ } ⟨7⟩) (calls ++ [.tick 1000]) ∧
      before.isUnclearShutdown = true ∧ after.state = .ofState .reset ∧
      before.segmentsOut.length < after.segmentsOut.length ∧ OnlyResets before after := by
  intro calls before after
  have h : Admissible step WritesBeforeEnd (new { fixedIsn := some ⟨0⟩ } ⟨7⟩)
      (calls ++ [.tick 1000]) := by
    decide +kernel
  have hreset : before.isUnclearShutdown = true := by decide +kernel
  obtain ⟨-, -, -, -, hresult⟩ := phases_move_forward { fixedIsn := some ⟨0⟩ } ⟨7⟩ calls [.tick 1000] h
  exact ⟨h, hreset, (hresult hreset).1, by decide +kernel, (hresult hreset).2⟩

end TCPConnection

end Sponge
