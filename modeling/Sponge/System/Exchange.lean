import Sponge.System.BareAcks
import Sponge.System.ShortConversations
import Sponge.TCP.ConnectionDelivery

/-!
# Exchanging batches of segments

One end of a conversation gets a batch of segments of the other end, in any order and without loss.  If the
numbers of the batch lie before the right edge of its window, and a FIN without data does not overtake the
data, then it has everything afterwards that its peer has sent, and it knows everything that its peer
acknowledges.
-/

namespace Sponge.Network

open Execution TCPConnection TCPReceiver

variable {cfg : Side → TCPConfig} {randomIsn : Side → WrappingInt32} {network : Network} {side : Side}
  {call : Call} {emission : Emission} {batch : List Emission}

/-! ## Reachable networks -/

/-- The rule for a property of one connection that every call of its owner keeps. -/
theorem connection_of_leads (property : TCPConfig → TCPConnection → Prop)
    (hnew : ∀ cfg randomIsn, property cfg (.new cfg randomIsn))
    (hstep : ∀ cfg connection call, property cfg connection → connection.WritesBeforeEnd call →
      property cfg (connection.step call))
    (h : Leads step Legal (start cfg randomIsn) network) (side : Side) :
    property (cfg side) (network side).connection := by
  revert side
  apply h.invariant fun network ↦ ∀ side, property (cfg side) (network side).connection
  · intro network action hbefore hlegal side
    by_cases hside : side = action.1
    · rw [hside, step, Function.update_self]
      exact hstep _ _ _ (hbefore action.1) hlegal.2
    · rw [step, Function.update_of_ne hside]
      exact hbefore side
  · exact fun side ↦ hnew _ _

/-- Each connection of a reachable network is equipped. -/
theorem equipped_of_leads (h : Leads step Legal (start cfg randomIsn) network) (side : Side) :
    Equipped (cfg side) (network side).connection :=
  connection_of_leads Equipped equipped_new (fun _ _ _ hbefore hcall ↦ hbefore.step hcall) h side

/-- Neither side acknowledges more than its peer has sent. -/
theorem reached_of_leads (h : Leads step Legal (start cfg randomIsn) network) (side : Side) :
    Reached ((cfg side).fixedIsn.getD (randomIsn side)) (network side) (network side.peer) := by
  obtain ⟨actions, hadmissible, rfl⟩ := h
  have hsequenced := hadmissible.strengthen
    (fun network ↦ Leads step Legal (start cfg randomIsn) network)
    (fun _ _ hbefore hlegal ↦ hbefore.extend hlegal) (Leads.refl _ _ _)
  apply reached_run
  refine hsequenced.mono fun network action hboth ↦ ⟨hboth.2.1, ?_⟩
  exact hboth.2.2.nothingAfterFin (equipped_of_leads hboth.1 action.1).alert.sequenced

theorem Short.step (h : network.Short) (hside : ((network side).step call).accepted.length < 2 ^ 31 - 2) :
    Short (network.step (side, call)) := by
  intro other
  by_cases hother : other = side
  · rw [hother, Network.step, Function.update_self]
    exact hside
  · rw [Network.step, Function.update_of_ne hother]
    exact h other

/-! ## Conversations in order -/

/-- A short conversation in which no side has been reset and no stream has been cut off. -/
structure Orderly (cfg : Side → TCPConfig) (randomIsn : Side → WrappingInt32) (network : Network) :
    Prop where
  leads : Leads step Legal (start cfg randomIsn) network
  short : network.Short
  ending : ∀ side, Ending ((cfg side).fixedIsn.getD (randomIsn side)) (network side) (network side.peer)
  talking : ∀ side, Talking (cfg side) (network side).connection

namespace Orderly

variable (h : Orderly cfg randomIsn network)
include h

theorem equipped (side : Side) : Equipped (cfg side) (network side).connection :=
  equipped_of_leads h.leads side

theorem attentive (side : Side) : (network side).connection.Attentive :=
  (h.talking side).attentive (h.equipped side)

theorem reached (side : Side) :
    Reached ((cfg side).fixedIsn.getD (randomIsn side)) (network side) (network side.peer) :=
  reached_of_leads h.leads side

/-- Both sides have sent their SYN. -/
theorem next_pos (side : Side) : 0 < (network side).connection.sender.nextSeqno := by
  have hnext := (h.attentive side).sequenced.next
  rw [TCPSender.firstUnsent, (h.attentive side).syn, Bool.toNat_true] at hnext
  omega

theorem windowSize_le (side : Side) :
    (network side).connection.receiver.windowSize ≤ (cfg side).recvCapacity := by
  rw [(h.equipped side).sound.windowSize_eq.2]
  exact (Nat.sub_le _ _).trans_eq (h.equipped side).recvCapacity

/-- The right edge of the window lies at least as far as the buffer is large. -/
theorem recvCapacity_le (side : Side) : (cfg side).recvCapacity ≤
    (network side).connection.receiver.absAckno + (network side).connection.receiver.windowSize := by
  rw [(h.equipped side).sound.rightEdge_eq, (h.equipped side).recvCapacity]
  omega

theorem next_le (side : Side) :
    (network side).connection.sender.nextSeqno ≤ (network side).accepted.length + 2 := by
  rw [← (h.ending side).flow.emits.slices.written]
  exact (h.attentive side).sequenced.next_le

/-- The direction from the peer to a side. -/
theorem inbound (side : Side) :
    Ending ((cfg side.peer).fixedIsn.getD (randomIsn side.peer)) (network side.peer) (network side) := by
  have hpeer := h.ending side.peer
  rwa [Side.peer_peer] at hpeer

/-- A side that has taken the FIN of its peer has come to the end of its inbound stream. -/
theorem ended_of_fin (side : Side)
    (hfin : (network side.peer).connection.sender.fin = true)
    (htaken : (network side.peer).connection.sender.nextSeqno ≤
      (network side).connection.receiver.absAckno) :
    (network side).connection.receiver.streamOut.ended = true := by
  have hinbound := h.inbound side
  have hsound := (h.equipped side).sound
  have hle := hinbound.flow.receives.spells.assembledBytes_le hsound.consistent
  have hopen := ((network side).connection.receiver.isn.isSome).toNat_le
  rw [hinbound.concludes.sequenced.next_of_fin hfin, hinbound.flow.emits.slices.written,
    hsound.absAckno_eq] at htaken
  by_contra hrunning
  have hfalse : (network side).connection.receiver.reassembler.output.ended = false :=
    Bool.eq_false_iff.mpr hrunning
  rw [hfalse, Bool.toNat_false] at htaken
  omega

/-- A legal call that the connection survives keeps the conversation in order. -/
theorem act (hlegal : Legal network (side, call)) (hshort : Short (network.step (side, call)))
    (hanchored : ∀ segment, call = .segmentReceived segment →
      ∃ emission ∈ (network side.peer).connection.segmentsOut, emission.segment = segment ∧
        (network side).connection.receiver.Recoverable emission.absSeqno emission.segment ∧
        FinAnchored (network side.peer).accepted (network side).connection.receiver emission.absSeqno
          emission.segment)
    (htalking : Talking (cfg side) ((network side).connection.step call)) :
    Orderly cfg randomIsn (network.step (side, call)) where
  leads := h.leads.extend hlegal
  short := hshort
  ending := by
    apply step_direction fun side ↦ Ending ((cfg side).fixedIsn.getD (randomIsn side))
    · exact (h.ending side).send hlegal.2
    · exact (h.inbound side).receive hanchored
  talking := by
    intro other
    by_cases hother : other = side
    · rw [hother, step, Function.update_self]
      exact htalking
    · rw [step, Function.update_of_ne hother]
      exact h.talking other

/-! ### Time, and the owners -/

/-- Time passes on one side. -/
theorem tick {msSinceLastTick : ℕ}
    (htries : ((network side).connection.sender.tick msSinceLastTick).consecutiveRetransmissions ≤
      TCPConfig.maxRetxAttempts) :
    Orderly cfg randomIsn (network.step (side, .tick msSinceLastTick)) ∧
      Ticks (network side).connection msSinceLastTick
        ((network side).connection.step (.tick msSinceLastTick)) := by
  have hlegal : Legal network (side, .tick msSinceLastTick) := ⟨trivial, trivial⟩
  have hlaunched : ((network side).connection.step (.tick msSinceLastTick)).Launched :=
    (h.talking side).launched.step trivial
  have hticks := (h.attentive side).ticks msSinceLastTick htries
  refine ⟨h.act hlegal ?_ nofun ?_, hticks⟩
  · exact h.short.step (by simpa [Endpoint.step, acceptedBy] using h.short side)
  · exact (h.talking side).ticks (h.equipped side) hticks htries hlaunched

/-- The owner of one side reads. -/
theorem readInbound (side : Side) (len : ℕ) :
    Orderly cfg randomIsn (network.step (side, .readInbound len)) := by
  have hlegal : Legal network (side, .readInbound len) := ⟨trivial, trivial⟩
  have hlaunched : ((network side).connection.step (.readInbound len)).Launched :=
    (h.talking side).launched.step trivial
  refine h.act hlegal ?_ nofun ?_
  · exact h.short.step (by simpa [Endpoint.step, acceptedBy] using h.short side)
  · exact (h.talking side).readInbound len hlaunched

/-! ### Segments of the peer -/

/-- The acknowledgment of a segment of the peer is one of something that has been sent. -/
theorem processAck_eq (hsent : emission ∈ (network side.peer).connection.segmentsOut) :
    (network side).connection.processAck emission.segment =
      (if emission.segment.header.ack then
        (network side).connection.sender.heed emission.absAckno emission.segment.header.win
      else (network side).connection.sender, true) := by
  have hreached := h.reached side
  unfold processAck
  split_ifs with hack
  · obtain ⟨hackno, hle⟩ := hreached.acknowledged.acknowledges.sent emission hsent hack
    obtain ⟨hnear, hword⟩ := (ackRecovers_of_short h.leads h.short hsent).2 hack
    have hunwrap : unwrap emission.segment.header.ackno (network side).connection.sender.isn
        (network side).connection.sender.ackno = emission.absAckno := by
      rw [hackno, hreached.acknowledged.flow.emits.slices.isn_eq, unwrap_wrap _ hword hnear]
    exact TCPSender.ackReceived_eq_heed hunwrap (hle.trans hreached.absAckno_le)
  · rfl

theorem takes (hsent : emission ∈ (network side.peer).connection.segmentsOut)
    (hheard : emission.segment.header.syn = true ∨
      (network side).connection.receiver.isn.isSome = true) :
    Takes (network side).connection emission.segment
      ((network side).connection.step (.segmentReceived emission.segment)) :=
  (h.attentive side).takes ((h.talking side.peer).unreset emission hsent) hheard

/-- A FIN without data that the receiver has reached does not overtake the data. -/
theorem finAnchored (hsent : emission ∈ (network side.peer).connection.segmentsOut)
    (hreached : (network side.peer).accepted = [] ∨
      TCPSender.LoneFinReached (network side).connection.receiver.absAckno emission.absSeqno
        emission.segment) :
    FinAnchored (network side.peer).accepted (network side).connection.receiver emission.absSeqno
      emission.segment := by
  intro hset hnil _ _
  cases hreached with
  | inl hempty => exact .inl hempty
  | inr hreached =>
    have hinbound := h.inbound side
    obtain ⟨hfin, hlast⟩ := hinbound.concludes.sent emission hsent hset
    rw [hinbound.concludes.sequenced.next_of_fin hfin, hinbound.flow.emits.slices.written] at hlast
    have hlength := emission.segment.lengthInSequenceSpace_eq
    have hsyn : emission.segment.header.syn = false := by
      by_contra hopens
      rw [Bool.not_eq_false] at hopens
      have halone := (h.talking side.peer).launched.sent_alone emission hsent hopens
      rw [hset, hopens, Bool.toNat_true] at hlength
      omega
    rw [hset, hsyn, Buffer.size, hnil, Bool.toNat_true, Bool.toNat_false, List.length_nil] at hlength
    have hle := hreached hset hnil
    have hhas := hinbound.flow.receives.has_of_lt hinbound.ends
      (show (network side.peer).accepted.length < (network side).connection.receiver.absAckno by omega)
    unfold Has at hhas
    split_ifs at hhas with hzero hinside
    · exact .inl (List.length_eq_zero_iff.mp hzero)
    · exact .inr hhas
    · exact absurd le_rfl hinside

/-- The conversation stays in order when a segment arrives. -/
theorem receive (hsent : emission ∈ (network side.peer).connection.segmentsOut)
    (hheard : emission.segment.header.syn = true ∨
      (network side).connection.receiver.isn.isSome = true)
    (hreached : (network side.peer).accepted = [] ∨
      TCPSender.LoneFinReached (network side).connection.receiver.absAckno emission.absSeqno
        emission.segment) :
    Orderly cfg randomIsn (network.step (side, .segmentReceived emission.segment)) := by
  have hrecovers := ackRecovers_of_short h.leads h.short hsent
  have htakes := h.takes hsent hheard
  have harrives : ∀ segment, Call.segmentReceived emission.segment = .segmentReceived segment →
      ∃ emission ∈ (network side.peer).connection.segmentsOut, emission.segment = segment ∧
        (network side).connection.receiver.Recoverable emission.absSeqno emission.segment ∧
        FinAnchored (network side.peer).accepted (network side).connection.receiver emission.absSeqno
          emission.segment := by
    intro segment heq
    cases heq
    exact ⟨emission, hsent, rfl, hrecovers.1, h.finAnchored hsent hreached⟩
  have hlegal : Legal network (side, .segmentReceived emission.segment) :=
    ⟨⟨emission, hsent, rfl, hrecovers⟩, trivial⟩
  apply h.act hlegal ?_ harrives
  · apply (h.talking side).takes (h.equipped side) htakes
    · exact (h.talking side).launched.step trivial
    · intro hbare
      rw [htakes.receiver]
      have hbefore := (h.inbound side).flow.receives
      have hafter := (h.inbound side).receive harrives
      have hreceives := hafter.flow.receives
      have hends := hafter.ends
      rw [Endpoint.step, htakes.receiver] at hreceives hends
      have hsyn := (TCPSegment.flags_of_length_eq_zero hbare).1
      refine ⟨?_, le_antisymm ?_ ?_⟩
      · rw [isn_segmentReceived, hsyn, Bool.false_and, if_neg Bool.false_ne_true]
      · apply hbefore.absAckno_of_bare ?_ hends hbare
        simpa [readBy] using hreceives
      · exact hbefore.absAckno_le
          (excerpt_of_slice ((h.inbound side).flow.emits.sent emission hsent))
  · exact h.short.step (by simpa [Endpoint.step, acceptedBy] using h.short side)

end Orderly

/-! ## Batches -/

/-- What has happened to an end that has got segments from a peer whose owner has written `stream`. -/
structure Absorbs (stream : List UInt8) (batch : List Emission) (before after : Endpoint) : Prop where
  accepted : after.accepted = before.accepted
  delivered : after.delivered = before.delivered
  ended : after.connection.sender.stream.ended = before.connection.sender.stream.ended
  grows : before.connection.segmentsOut <+: after.connection.segmentsOut
  opened : before.connection.receiver.isn.isSome = true ∨ batch ≠ [] →
    after.connection.receiver.isn.isSome = true
  read : after.connection.receiver.streamOut.byteRead = before.connection.receiver.streamOut.byteRead
  absAckno_le : before.connection.receiver.absAckno ≤ after.connection.receiver.absAckno
  edge_le : before.connection.receiver.absAckno + before.connection.receiver.windowSize ≤
    after.connection.receiver.absAckno + after.connection.receiver.windowSize
  kept : ∀ number, Has stream before.connection.receiver number →
    Has stream after.connection.receiver number
  brought : ∀ emission ∈ batch, ∀ number, Brings emission.absSeqno emission.segment number →
    Has stream after.connection.receiver number
  ackno_le : before.connection.sender.ackno ≤ after.connection.sender.ackno
  heard : ∀ emission ∈ batch, emission.segment.header.ack = true →
    emission.absAckno ≤ after.connection.sender.ackno
  tries : after.connection.sender.consecutiveRetransmissions = 0 ∨
    after.connection.sender.consecutiveRetransmissions =
        before.connection.sender.consecutiveRetransmissions ∧
      after.connection.sender.nextSeqno = before.connection.sender.nextSeqno ∧
      after.connection.sender.ackno = before.connection.sender.ackno

variable {stream : List UInt8} {before middle after : Endpoint} {more : List Emission}

theorem absorbs_refl (stream : List UInt8) (endpoint : Endpoint) : Absorbs stream [] endpoint endpoint where
  accepted := rfl
  delivered := rfl
  ended := rfl
  grows := List.prefix_rfl
  opened hopen := hopen.resolve_right fun hsome ↦ hsome rfl
  read := rfl
  absAckno_le := le_rfl
  edge_le := le_rfl
  kept _ := id
  brought := by simp
  ackno_le := le_rfl
  heard := by simp
  tries := .inr ⟨rfl, rfl, rfl⟩

/-- Two batches, one after the other. -/
theorem Absorbs.trans (h : Absorbs stream batch before middle) (hnext : Absorbs stream more middle after) :
    Absorbs stream (batch ++ more) before after where
  accepted := hnext.accepted.trans h.accepted
  delivered := hnext.delivered.trans h.delivered
  ended := hnext.ended.trans h.ended
  grows := h.grows.trans hnext.grows
  opened hopen := by
    apply hnext.opened
    rw [or_iff_not_imp_right, not_not]
    rintro rfl
    rw [List.append_nil] at hopen
    exact h.opened hopen
  read := hnext.read.trans h.read
  absAckno_le := h.absAckno_le.trans hnext.absAckno_le
  edge_le := h.edge_le.trans hnext.edge_le
  kept number hhas := hnext.kept number (h.kept number hhas)
  brought emission hemission number hbrings := by
    cases List.mem_append.mp hemission with
    | inl hfirst => exact hnext.kept number (h.brought emission hfirst number hbrings)
    | inr hthen => exact hnext.brought emission hthen number hbrings
  ackno_le := h.ackno_le.trans hnext.ackno_le
  heard emission hemission hack := by
    cases List.mem_append.mp hemission with
    | inl hfirst => exact (h.heard emission hfirst hack).trans hnext.ackno_le
    | inr hthen => exact hnext.heard emission hthen hack
  tries := by
    rcases hnext.tries with hzero | ⟨htries, hnumbers⟩
    · exact .inl hzero
    · rw [htries, hnumbers.1, hnumbers.2]
      exact h.tries

/-- What one segment does. -/
theorem Orderly.absorbs (h : Orderly cfg randomIsn network)
    (hsent : emission ∈ (network side.peer).connection.segmentsOut)
    (hheard : emission.segment.header.syn = true ∨
      (network side).connection.receiver.isn.isSome = true)
    (hedge : (network side.peer).connection.sender.nextSeqno ≤
      (network side).connection.receiver.absAckno + (network side).connection.receiver.windowSize) :
    Absorbs (network side.peer).accepted [emission] (network side)
      ((network side).step (.segmentReceived emission.segment)) := by
  have hinbound := h.inbound side
  have hsound := (h.equipped side).sound
  have hvalid := (h.equipped side).alert.sequenced.valid
  have htakes := h.takes hsent hheard
  have hsender := htakes.sender
  rw [h.processAck_eq hsent] at hsender
  constructor
  case accepted => exact List.append_nil _
  case delivered => exact List.append_nil _
  case ended => exact (stream_step hvalid _).1
  case grows => exact ⟨_, htakes.sent.symm⟩
  case opened =>
    intro _
    change (TCPConnection.step _ _).receiver.isn.isSome = true
    rw [htakes.receiver]
    exact isSome_isn_segmentReceived hheard
  case read => exact byteRead_step hsound fun _ ↦ nofun
  case absAckno_le =>
    apply hinbound.flow.absAckno_step
    intro segment heq
    cases heq
    exact ⟨emission, hsent, rfl⟩
  case edge_le =>
    obtain ⟨hafter, hadvances⟩ := receiver_advances hsound (.segmentReceived emission.segment)
    exact hadvances.rightEdge_le hsound hafter
  case kept =>
    intro number hhas
    change Has _ (TCPConnection.step _ _).receiver number
    rw [htakes.receiver]
    exact hhas.segmentReceived hsound.consistent emission.segment
  case brought =>
    intro other hother number hbrings
    rw [List.mem_singleton.mp hother] at hbrings
    change Has _ (TCPConnection.step _ _).receiver number
    rw [htakes.receiver]
    apply has_segmentReceived hinbound.flow.receives hinbound.ends
      (hinbound.flow.emits.sent emission hsent)
      (ackRecovers_of_short h.leads h.short hsent).1 hheard
      ((h.talking side.peer).launched.sent_alone emission hsent)
      ((hinbound.concludes.before emission hsent).trans hedge) ?_ hbrings
    intro hset
    obtain ⟨hfin, hlast⟩ := hinbound.concludes.sent emission hsent hset
    rw [hlast, hinbound.concludes.sequenced.next_of_fin hfin, hinbound.flow.emits.slices.written]
  case ackno_le =>
    change _ ≤ (TCPConnection.step _ _).sender.ackno
    rw [hsender]
    split_ifs
    · exact (le_max_left _ _).trans_eq (TCPSender.ackno_heed hvalid _ _).symm
    · exact le_rfl
  case heard =>
    intro other hother hack
    rw [List.mem_singleton.mp hother] at hack ⊢
    change _ ≤ (TCPConnection.step _ _).sender.ackno
    rw [hsender, if_pos hack]
    exact (le_max_right _ _).trans_eq (TCPSender.ackno_heed hvalid _ _).symm
  case tries =>
    change (TCPConnection.step _ _).sender.consecutiveRetransmissions = 0 ∨
      (TCPConnection.step _ _).sender.consecutiveRetransmissions = _ ∧
        (TCPConnection.step _ _).sender.nextSeqno = _ ∧ (TCPConnection.step _ _).sender.ackno = _
    rw [hsender]
    split_ifs
    · cases TCPSender.heed_cases hvalid emission.absAckno emission.segment.header.win with
      | inl hwindow =>
        rw [hwindow]
        exact .inr ⟨rfl, rfl, rfl⟩
      | inr hzero => exact .inl hzero
    · exact .inr ⟨rfl, rfl, rfl⟩

/-- The segments of a batch arrive at a side, one after the other. -/
def deliver (network : Network) (side : Side) (batch : List Emission) : Network :=
  run step network (batch.map fun emission ↦ (side, .segmentReceived emission.segment))

@[simp] theorem deliver_cons (network : Network) (side : Side) (emission : Emission)
    (batch : List Emission) : network.deliver side (emission :: batch) =
      (network.step (side, .segmentReceived emission.segment)).deliver side batch := rfl

/-- A batch changes nothing but the side at which it arrives. -/
theorem deliver_eq_update (network : Network) (side : Side) (batch : List Emission) :
    network.deliver side batch = Function.update network side
      (run Endpoint.step (network side) (batch.map fun emission ↦ .segmentReceived emission.segment)) := by
  induction batch generalizing network with
  | nil => exact (Function.update_eq_self side network).symm
  | cons emission rest ih =>
    rw [deliver_cons, ih, step, Function.update_self, Function.update_idem]
    rfl

/-- The peer has sent the batch, which lies before the right edge of the window.  No FIN without data
overtakes the data, and the first segment that a side ever gets is the SYN. -/
structure Deliverable (network : Network) (side : Side) (batch : List Emission) : Prop where
  sent : ∀ emission ∈ batch, emission ∈ (network side.peer).connection.segmentsOut
  heard : (network side).connection.receiver.isn.isSome = true ∨
    ∀ emission ∈ batch.head?, emission.segment.header.syn = true
  reached : (network side.peer).accepted = [] ∨ ∀ emission ∈ batch,
    TCPSender.LoneFinReached (network side).connection.receiver.absAckno emission.absSeqno
      emission.segment
  edge : (network side.peer).connection.sender.nextSeqno ≤
    (network side).connection.receiver.absAckno + (network side).connection.receiver.windowSize

/-- What holds of a network in which the first segment of a batch is about to arrive. -/
structure Arrival (cfg : Side → TCPConfig) (randomIsn : Side → WrappingInt32) (network : Network)
    (side : Side) (emission : Emission) : Prop where
  orderly : Orderly cfg randomIsn network
  next : Orderly cfg randomIsn (network.step (side, .segmentReceived emission.segment))
  sent : emission ∈ (network side.peer).connection.segmentsOut
  heard : emission.segment.header.syn = true ∨
    (network side).connection.receiver.isn.isSome = true
  edge : (network side.peer).connection.sender.nextSeqno ≤
    (network side).connection.receiver.absAckno + (network side).connection.receiver.windowSize

/-- The rule for what the segments of a batch do, one after the other.  The motive is about the network
and the segments that are still to arrive. -/
theorem Orderly.deliver_rule (motive : List Emission → Network → Prop)
    (h : Orderly cfg randomIsn network) (hbatch : Deliverable network side batch)
    (hmotive : motive batch network)
    (hstep : ∀ current emission rest, current side.peer = network side.peer →
      Arrival cfg randomIsn current side emission → motive (emission :: rest) current →
      motive rest (current.step (side, .segmentReceived emission.segment))) :
    Orderly cfg randomIsn (network.deliver side batch) ∧
      network.deliver side batch side.peer = network side.peer ∧
      motive [] (network.deliver side batch) := by
  induction batch generalizing network with
  | nil => exact ⟨h, rfl, hmotive⟩
  | cons emission rest ih =>
    have hsent := hbatch.sent emission List.mem_cons_self
    have hheard : emission.segment.header.syn = true ∨
        (network side).connection.receiver.isn.isSome = true := by
      cases hbatch.heard with
      | inl hopen => exact .inr hopen
      | inr hfirst => exact .inl (hfirst emission rfl)
    have hafter := h.receive hsent hheard (hbatch.reached.imp_right fun hall ↦
      hall emission List.mem_cons_self)
    have habsorbs := h.absorbs hsent hheard hbatch.edge
    set next := network.step (side, .segmentReceived emission.segment) with hnext
    have hself : next side = (network side).step (.segmentReceived emission.segment) :=
      Function.update_self _ _ _
    have hpeer : next side.peer = network side.peer := Function.update_of_ne side.peer_ne _ _
    rw [← hself] at habsorbs
    have hrest : Deliverable next side rest := by
      constructor
      case sent =>
        intro other hother
        rw [hpeer]
        exact hbatch.sent other (List.mem_cons_of_mem _ hother)
      case heard => exact .inl (habsorbs.opened (.inr (List.cons_ne_nil _ _)))
      case reached =>
        rw [hpeer]
        refine hbatch.reached.imp_right fun hall other hother hset hnil ↦ ?_
        exact (hall other (List.mem_cons_of_mem _ hother) hset hnil).trans habsorbs.absAckno_le
      case edge =>
        rw [hpeer]
        exact hbatch.edge.trans habsorbs.edge_le
    have hfirst := hstep network emission rest rfl ⟨h, hafter, hsent, hheard, hbatch.edge⟩ hmotive
    rw [deliver_cons, ← hpeer]
    apply ih hafter hrest hfirst
    intro current other others hcurrent harrival
    exact hstep current other others (hcurrent.trans hpeer) harrival

theorem Arrival.absorbs (h : Arrival cfg randomIsn network side emission) :
    Absorbs (network side.peer).accepted [emission] (network side)
      ((network side).step (.segmentReceived emission.segment)) :=
  h.orderly.absorbs h.sent h.heard h.edge

theorem Arrival.takes (h : Arrival cfg randomIsn network side emission) :
    Takes (network side).connection emission.segment
      ((network side).connection.step (.segmentReceived emission.segment)) :=
  h.orderly.takes h.sent h.heard

theorem Arrival.equipped (h : Arrival cfg randomIsn network side emission) :
    Equipped (cfg side) ((network side).connection.step (.segmentReceived emission.segment)) := by
  have hequipped := h.next.equipped side
  rwa [step, Function.update_self] at hequipped

theorem Arrival.inbound (h : Arrival cfg randomIsn network side emission) :
    Ending ((cfg side.peer).fixedIsn.getD (randomIsn side.peer)) (network side.peer)
      ((network side).step (.segmentReceived emission.segment)) := by
  have hinbound := h.next.inbound side
  rwa [step, Function.update_self, Function.update_of_ne side.peer_ne] at hinbound

/-- What a whole batch does. -/
theorem Orderly.deliver (h : Orderly cfg randomIsn network) (hbatch : Deliverable network side batch) :
    Orderly cfg randomIsn (network.deliver side batch) ∧
      network.deliver side batch side.peer = network side.peer ∧
      Absorbs (network side.peer).accepted batch (network side) (network.deliver side batch side) := by
  obtain ⟨hafter, hpeer, done, hdone, habsorbs⟩ := h.deliver_rule
    (fun rest current ↦ ∃ done, batch = done ++ rest ∧
      Absorbs (network side.peer).accepted done (network side) (current side)) hbatch
    ⟨[], rfl, absorbs_refl _ _⟩ (by
      rintro current emission rest hsame harrival ⟨done, hdone, habsorbs⟩
      refine ⟨done ++ [emission], by rw [hdone, List.append_assoc, List.singleton_append], ?_⟩
      have hnext := harrival.absorbs
      rw [hsame] at hnext
      rw [step, Function.update_self]
      exact habsorbs.trans hnext)
  rw [List.append_nil] at hdone
  exact ⟨hafter, hpeer, hdone ▸ habsorbs⟩

/-! ## Catching up -/

/-- An end has taken everything that a segment brings, and it has heard what the segment acknowledges. -/
def Seen (endpoint : Endpoint) (emission : Emission) : Prop :=
  emission.absSeqno + emission.segment.lengthInSequenceSpace ≤ endpoint.connection.receiver.absAckno ∧
    (emission.segment.header.ack = true → emission.absAckno ≤ endpoint.connection.sender.ackno)

/-- A side has all that its peer has sent, and it knows all that its peer acknowledges. -/
structure CaughtUp (network : Network) (side : Side) : Prop where
  taken : (network side.peer).connection.sender.nextSeqno ≤ (network side).connection.receiver.absAckno
  told : (network side.peer).connection.receiver.absAckno ≤ (network side).connection.sender.ackno

/-- Each byte has been sent in some segment, and each acknowledgment number has been told in one. -/
theorem Orderly.caughtUp (h : Orderly cfg randomIsn network) (hbatch : Deliverable network side batch)
    (hall : ∀ emission ∈ (network side.peer).connection.segmentsOut,
      emission ∈ batch ∨ Seen (network side) emission) :
    CaughtUp (network.deliver side batch) side := by
  obtain ⟨hafter, hpeer, habsorbs⟩ := h.deliver hbatch
  have hbefore := h.inbound side
  have hinbound := hafter.inbound side
  have htalking := h.talking side.peer
  have hdrained := (h.equipped side.peer).drained
  rw [hpeer] at hinbound
  constructor
  case taken =>
    rw [hpeer]
    apply hinbound.flow.receives.le_absAckno
    · exact htalking.launched.sequenced.next_le.trans_eq
        (by rw [hbefore.flow.emits.slices.written])
    · intro number hlt
      obtain ⟨emission, hsent, hbrings⟩ := htalking.launched.covered number hlt
      rw [hdrained, List.append_nil] at hsent
      cases hall emission hsent with
      | inl harrives => exact habsorbs.brought emission harrives number hbrings
      | inr hseen =>
        apply habsorbs.kept number
        exact hbefore.flow.receives.has_of_lt hbefore.ends (hbrings.2.trans_le hseen.1)
  case told =>
    rw [hpeer]
    cases hisn : (network side.peer).connection.receiver.isn.isSome with
    | false =>
      have hnone : (network side.peer).connection.receiver.absAckno = 0 := by
        by_contra hpos
        have hopen := (h.ending side).flow.receives.isSome_of_absAckno_pos (Nat.pos_of_ne_zero hpos)
        rw [hisn] at hopen
        contradiction
      rw [hnone]
      exact Nat.zero_le _
    | true =>
      obtain ⟨emission, hsent, hack, htold⟩ := htalking.announced hisn
      rw [← htold]
      cases hall emission hsent with
      | inl harrives => exact habsorbs.heard emission harrives hack
      | inr hseen => exact (hseen.2 hack).trans habsorbs.ackno_le

/-- A side that has caught up has seen everything. -/
theorem CaughtUp.seen (h : CaughtUp network side) (horderly : Orderly cfg randomIsn network)
    (hsent : emission ∈ (network side.peer).connection.segmentsOut) : Seen (network side) emission := by
  refine ⟨((horderly.inbound side).concludes.before emission hsent).trans h.taken, fun hack ↦ ?_⟩
  exact ((horderly.reached side).acknowledged.acknowledges.sent emission hsent hack).2.trans h.told

end Sponge.Network
