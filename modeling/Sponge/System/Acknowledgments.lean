import Sponge.System.Exchange

/-!
# Batches of acknowledgments

A batch of segments makes one end of a conversation queue acknowledgments.  As long as no FIN has been
sent, they come in order and announce one right edge, that of the window at the end.  In their turn they
make the other end send, up to this edge and no further.  An end that has sent its FIN only ever answers
with bare segments.
-/

namespace Sponge.Network

open Execution TCPConnection TCPReceiver TCPSender

variable {cfg : Side → TCPConfig} {randomIsn : Side → WrappingInt32} {network : Network} {side : Side}
  {emission : Emission} {batch queue more rest : List Emission} {low high edge taken count : ℕ}

/-! ## What is queued -/

/-- The acknowledgments in a queue come in order, from `low` to `high`, and announce one right edge. -/
structure Acks (low high edge : ℕ) (queue : List Emission) : Prop where
  bounds : ∀ emission ∈ queue, emission.segment.header.ack = true →
    low ≤ emission.absAckno ∧ emission.absAckno ≤ high ∧
      emission.absAckno + emission.segment.header.win.toNat = edge
  sorted : queue.Pairwise fun first second ↦ first.segment.header.ack = true →
    second.segment.header.ack = true → first.absAckno ≤ second.absAckno

/-- The acknowledgments of a later state of the receiver may follow. -/
theorem Acks.append {high' : ℕ} (h : Acks low high edge queue) (hlow : low ≤ high) (hhigh : high ≤ high')
    (hmore : ∀ emission ∈ more, emission.segment.header.ack = true →
      emission.absAckno = high' ∧ emission.absAckno + emission.segment.header.win.toNat = edge) :
    Acks low high' edge (queue ++ more) := by
  constructor
  case bounds =>
    intro emission hemission hack
    cases List.mem_append.mp hemission with
    | inl hold =>
      obtain ⟨hge, hle, hedge⟩ := h.bounds emission hold hack
      exact ⟨hge, hle.trans hhigh, hedge⟩
    | inr hnew =>
      obtain ⟨heq, hedge⟩ := hmore emission hnew hack
      exact ⟨(hlow.trans hhigh).trans_eq heq.symm, heq.le, hedge⟩
  case sorted =>
    refine List.pairwise_append.mpr ⟨h.sorted, ?_, fun first hfirst second hsecond hack hnext ↦ ?_⟩
    · apply List.pairwise_of_forall_mem_list
      intro first hfirst second hsecond hack hnext
      exact ((hmore first hfirst hack).1.trans (hmore second hsecond hnext).1.symm).le
    · exact ((h.bounds first hfirst hack).2.1.trans hhigh).trans_eq (hmore second hsecond hnext).1.symm

theorem Acks.tail (h : Acks low high edge (emission :: rest)) : Acks low high edge rest :=
  ⟨fun other hother ↦ h.bounds other (List.mem_cons_of_mem _ hother), h.sorted.of_cons⟩

/-- What comes after an acknowledgment is not older. -/
theorem Acks.after (h : Acks low high edge (emission :: rest))
    (hack : emission.segment.header.ack = true) : Acks emission.absAckno high edge rest := by
  refine ⟨fun other hother hother' ↦ ?_, h.sorted.of_cons⟩
  exact ⟨List.rel_of_pairwise_cons h.sorted hother hack hother', (h.tail.bounds other hother hother').2⟩

/-- Without a FIN the inbound stream of the peer goes on. -/
theorem Ending.running {isn : WrappingInt32} {source target : Endpoint} (h : Ending isn source target)
    (hfin : source.connection.sender.fin = false) :
    target.connection.receiver.reassembler.output.ended = false := by
  rw [← Bool.not_eq_true]
  intro hended
  have hsent := (h.ends.assembled h.flow.receives hended).1
  rw [hfin] at hsent
  contradiction

/-- A small window is announced as it is. -/
theorem announced_edge {receiver : TCPReceiver} (h : receiver.Sound)
    (hsmall : receiver.reassembler.capacity ≤ 65535) (hopen : receiver.isn.isSome = true)
    (hrunning : receiver.reassembler.output.ended = false) (hannounces : Announces receiver emission) :
    emission.absAckno + emission.segment.header.win.toNat =
      receiver.reassembler.capacity + receiver.reassembler.output.byteRead + 1 := by
  have hwindow := h.windowSize_eq
  rw [hannounces.absAckno hopen, hannounces.win hopen, min_eq_left (by omega), h.rightEdge_eq, hopen,
    hrunning]
  rfl

/-- A batch without a FIN makes a side queue acknowledgments in order. -/
theorem Orderly.deliver_acks (h : Orderly cfg randomIsn network) (hbatch : Deliverable network side batch)
    (hsmall : (cfg side).recvCapacity ≤ 65535)
    (hfin : (network side.peer).connection.sender.fin = false)
    (hcount : count ≤ (network side).connection.segmentsOut.length)
    (hlow : low ≤ (network side).connection.receiver.absAckno)
    (hedge : (cfg side).recvCapacity + (network side).connection.receiver.streamOut.byteRead + 1 = edge)
    (hacks : Acks low (network side).connection.receiver.absAckno edge
      ((network side).connection.segmentsOut.drop count)) :
    Acks low (network.deliver side batch side).connection.receiver.absAckno edge
      ((network.deliver side batch side).connection.segmentsOut.drop count) := by
  -- The owner does not read, so the edge stays where it is.
  have hrule := h.deliver_rule (fun _ current ↦
      count ≤ (current side).connection.segmentsOut.length ∧
      low ≤ (current side).connection.receiver.absAckno ∧
      (current side).connection.receiver.streamOut.byteRead =
        (network side).connection.receiver.streamOut.byteRead ∧
      Acks low (current side).connection.receiver.absAckno edge
        ((current side).connection.segmentsOut.drop count)) hbatch ⟨hcount, hlow, rfl, hacks⟩
  refine (hrule ?_).2.2.2.2.2
  rintro current emission rest hpeer harrival ⟨hcount, hlow, hread, hacks⟩
  have habsorbs := harrival.absorbs
  have hopen := habsorbs.opened (.inr (List.cons_ne_nil _ _))
  obtain ⟨appended, heq, hannounces, -⟩ := harrival.takes.announces (harrival.orderly.equipped side)
    (harrival.orderly.talking side).clear
  have hequipped := harrival.equipped
  have hrunning := harrival.inbound.running (hpeer ▸ hfin)
  rw [step, Function.update_self]
  refine ⟨hcount.trans ?_, hlow.trans habsorbs.absAckno_le, habsorbs.read.trans hread, ?_⟩
  · exact (List.sublist_append_left _ appended).length_le.trans_eq (congrArg List.length heq.symm)
  · change Acks low _ edge (List.drop count (TCPConnection.step _ _).segmentsOut)
    rw [heq, List.drop_append_of_le_length hcount]
    apply hacks.append hlow habsorbs.absAckno_le
    intro other hother _
    have htells := hannounces other hother
    refine ⟨htells.absAckno hopen, ?_⟩
    rw [announced_edge hequipped.sound (hequipped.recvCapacity.trans_le hsmall) hopen hrunning htells,
      hequipped.recvCapacity, ← hedge, ← hread]
    exact congrArg (_ + · + 1) habsorbs.read

/-! ## What is sent in return -/

/-- The acknowledgments of a batch keep a side supplying its peer. -/
theorem Orderly.deliver_supplies (h : Orderly cfg randomIsn network)
    (hbatch : Deliverable network side batch)
    (hcount : count ≤ (network side).connection.segmentsOut.length)
    (hsupplies : Supplies taken edge (network side).connection.sender)
    (hacks : Acks (network side).connection.sender.ackno taken edge batch)
    (hlone : ∀ emission ∈ (network side).connection.segmentsOut.drop count,
      LoneFinReached taken emission.absSeqno emission.segment) :
    Supplies taken edge (network.deliver side batch side).connection.sender ∧
      ∀ emission ∈ (network.deliver side batch side).connection.segmentsOut.drop count,
        LoneFinReached taken emission.absSeqno emission.segment := by
  have hrule := h.deliver_rule (fun rest current ↦
      count ≤ (current side).connection.segmentsOut.length ∧
      Acks (current side).connection.sender.ackno taken edge rest ∧
      Supplies taken edge (current side).connection.sender ∧
      ∀ emission ∈ (current side).connection.segmentsOut.drop count,
        LoneFinReached taken emission.absSeqno emission.segment) hbatch ⟨hcount, hacks, hsupplies, hlone⟩
  refine (hrule ?_).2.2.2.2
  rintro current emission rest - harrival ⟨hcount, hacks, hsupplies, hlone⟩
  have htakes := harrival.takes
  have hprocessed := harrival.orderly.processAck_eq harrival.sent
  have hvalid := hsupplies.sequenced.valid
  -- An acknowledgment is heeded, any other segment does not concern the sender.
  have hheeded : Supplies taken edge ((current side).connection.processAck emission.segment).1 ∧
      Acks ((current side).connection.processAck emission.segment).1.ackno taken edge rest := by
    rw [hprocessed]
    split_ifs with hack
    · obtain ⟨hge, hle, hedge⟩ := hacks.bounds emission List.mem_cons_self hack
      have hreached := harrival.orderly.reached side
      have hsent := (hreached.acknowledged.acknowledges.sent emission harrival.sent hack).2.trans
        hreached.absAckno_le
      refine ⟨hsupplies.heed (harrival.orderly.attentive side).syn hge hle hsent hedge, ?_⟩
      rw [ackno_heed hvalid, max_eq_right hge]
      exact hacks.after hack
    · exact ⟨hsupplies, hacks.tail⟩
  rw [step, Function.update_self]
  refine ⟨?_, ?_, ?_, htakes.loneFinReached hcount hheeded.1.carries hlone⟩
  · change _ ≤ (TCPConnection.step _ _).segmentsOut.length
    rw [htakes.sent, List.length_append]
    exact hcount.trans (Nat.le_add_right _ _)
  · change Acks (TCPConnection.step _ _).sender.ackno taken edge rest
    rw [htakes.sender]
    exact hheeded.2
  · change Supplies taken edge (TCPConnection.step _ _).sender
    rw [htakes.sender]
    exact hheeded.1.drain

/-! ## After the FIN -/

/-- An end that has sent its FIN has nothing to send but bare segments, and after the FIN of its peer
it does not even answer bare segments. -/
structure OnlyAnswers (batch : List Emission) (before after : Endpoint) : Prop where
  fin : after.connection.sender.fin = true
  next : after.connection.sender.nextSeqno = before.connection.sender.nextSeqno
  ended : before.connection.receiver.streamOut.ended = true →
    after.connection.receiver.streamOut.ended = true
  bare : ∃ appended, after.connection.segmentsOut = before.connection.segmentsOut ++ appended ∧
    (∀ emission ∈ appended, emission.segment.lengthInSequenceSpace = 0) ∧
    (before.connection.receiver.streamOut.ended = true →
      (∀ emission ∈ batch, emission.segment.lengthInSequenceSpace = 0) → appended = [])

theorem onlyAnswers_refl {endpoint : Endpoint} (hfin : endpoint.connection.sender.fin = true) :
    OnlyAnswers [] endpoint endpoint :=
  ⟨hfin, rfl, id, [], (List.append_nil _).symm, by simp, fun _ _ ↦ rfl⟩

theorem OnlyAnswers.trans {before middle after : Endpoint} (h : OnlyAnswers batch before middle)
    (hnext : OnlyAnswers more middle after) : OnlyAnswers (batch ++ more) before after := by
  obtain ⟨appended, heq, hbare, hnone⟩ := h.bare
  obtain ⟨appended', heq', hbare', hnone'⟩ := hnext.bare
  refine ⟨hnext.fin, hnext.next.trans h.next, hnext.ended ∘ h.ended, appended ++ appended', ?_, ?_, ?_⟩
  · rw [heq', heq, List.append_assoc]
  · exact fun emission hemission ↦ (List.mem_append.mp hemission).elim (hbare _) (hbare' _)
  · intro hended hall
    rw [hnone hended fun emission hemission ↦ hall emission (List.mem_append_left _ hemission),
      hnone' (h.ended hended) fun emission hemission ↦ hall emission (List.mem_append_right _ hemission)]
    rfl

/-- What one segment does to an end that has sent its FIN. -/
theorem Arrival.onlyAnswers (h : Arrival cfg randomIsn network side emission)
    (hfin : (network side).connection.sender.fin = true) :
    OnlyAnswers [emission] (network side) ((network side).step (.segmentReceived emission.segment)) := by
  have htakes := h.takes
  have hprocessed := h.orderly.processAck_eq h.sent
  have hequipped := h.orderly.equipped side
  -- With the FIN sent, an acknowledgment does not make the sender queue anything.
  have hquiet : ((network side).connection.processAck emission.segment).1.segmentsOut = [] ∧
      ((network side).connection.processAck emission.segment).1.nextSeqno =
        (network side).connection.sender.nextSeqno ∧
      ((network side).connection.processAck emission.segment).1.fin = true := by
    rw [hprocessed]
    split_ifs with hack
    · have hreached := h.orderly.reached side
      have hsent := (hreached.acknowledged.acknowledges.sent emission h.sent hack).2.trans
        hreached.absAckno_le
      obtain ⟨hqueue, hnext, hstays⟩ := hequipped.alert.sequenced.heed_of_fin hfin hsent
        emission.segment.header.win
      exact ⟨hqueue.trans hequipped.drained, hnext, hstays⟩
    · exact ⟨hequipped.drained, rfl, hfin⟩
  obtain ⟨hqueue, hnext, hstays⟩ := hquiet
  constructor
  case fin =>
    change (TCPConnection.step _ _).sender.fin = true
    rw [htakes.sender]
    exact hstays
  case next =>
    change (TCPConnection.step _ _).sender.nextSeqno = _
    rw [htakes.sender]
    exact hnext
  case ended => exact fun hended ↦ ((receiver_advances hequipped.sound _).2.ended hended).1
  case bare =>
    refine ⟨_, htakes.sent, fun other hother ↦ ?_, fun hended hbare ↦ ?_⟩
    · obtain ⟨queued, hqueued, rfl⟩ := List.mem_map.mp hother
      rw [queuedBy, hqueue, List.nil_append] at hqueued
      rw [(place_setSegment _ _).2.2, mem_replies hqueued]
      rfl
    · have hlength := hbare emission (List.mem_singleton_self _)
      have hopen := h.heard.resolve_left
        (Bool.eq_false_iff.mp (TCPSegment.flags_of_length_eq_zero hlength).1)
      rw [queuedBy, hqueue, replies_eq_nil hlength (accepts_bare_of_ended hopen hended hlength)
        (congrArg Prod.snd hprocessed)]
      rfl

/-- What a whole batch does to it. -/
theorem Orderly.deliver_onlyAnswers (h : Orderly cfg randomIsn network)
    (hbatch : Deliverable network side batch)
    (hfin : (network side).connection.sender.fin = true) :
    OnlyAnswers batch (network side) (network.deliver side batch side) := by
  obtain ⟨-, -, done, hdone, hanswers⟩ := h.deliver_rule
    (fun rest current ↦ ∃ done, batch = done ++ rest ∧ OnlyAnswers done (network side) (current side)) hbatch
    ⟨[], rfl, onlyAnswers_refl hfin⟩ (by
      rintro current emission rest - harrival ⟨done, hdone, hanswers⟩
      refine ⟨done ++ [emission], by rw [hdone, List.append_assoc, List.singleton_append], ?_⟩
      rw [step, Function.update_self]
      exact hanswers.trans (harrival.onlyAnswers hanswers.fin))
  rw [List.append_nil] at hdone
  exact hdone ▸ hanswers

end Sponge.Network
