import Sponge.System.Closing
import Sponge.Wire.FdAdapter

/-!
# Short conversations

The results about two connections have the condition that sequence and acknowledgment numbers of arriving
segments can be recovered.  As long as each side has written less than `2 ^ 31 - 2` bytes, this is always so.
The only condition that is left is that a segment comes from the peer, and there it is enough that it is
alike, in all that a connection looks at, to one that the peer has sent.
-/

namespace Sponge

open Execution TCPConnection

/-! ## Segments that are alike -/

section Alike

variable {segment other : TCPSegment}

theorem TCPSegment.Alike.flags (h : segment.Alike other) :
    other.header.syn = segment.header.syn ∧ other.header.fin = segment.header.fin ∧
      other.header.rst = segment.header.rst ∧ other.header.ack = segment.header.ack := by
  obtain ⟨sport, dport, cksum, heq⟩ := h.header
  rw [heq]
  exact ⟨rfl, rfl, rfl, rfl⟩

theorem TCPSegment.Alike.numbers (h : segment.Alike other) :
    other.header.seqno = segment.header.seqno ∧ other.header.ackno = segment.header.ackno ∧
      other.header.win = segment.header.win := by
  obtain ⟨sport, dport, cksum, heq⟩ := h.header
  rw [heq]
  exact ⟨rfl, rfl, rfl⟩

theorem TCPSegment.Alike.length (h : segment.Alike other) :
    other.lengthInSequenceSpace = segment.lengthInSequenceSpace := by
  obtain ⟨hsyn, hfin, -, -⟩ := h.flags
  unfold lengthInSequenceSpace
  rw [h.payload, hsyn, hfin]

theorem TCPReceiver.acceptSegment_of_alike (receiver : TCPReceiver) (h : segment.Alike other) :
    receiver.acceptSegment other = receiver.acceptSegment segment := by
  obtain ⟨hsyn, hfin, -, -⟩ := h.flags
  obtain ⟨hseqno, -, -⟩ := h.numbers
  unfold acceptSegment Buffer.size
  rw [h.length, h.payload, hsyn, hfin, hseqno]

/-- The receiver does not look at what an adapter fills in. -/
theorem TCPReceiver.segmentReceived_of_alike (receiver : TCPReceiver) (h : segment.Alike other) :
    receiver.segmentReceived other = receiver.segmentReceived segment := by
  obtain ⟨hsyn, -, -, -⟩ := h.flags
  obtain ⟨hseqno, -, -⟩ := h.numbers
  unfold segmentReceived
  dsimp only
  rw [h.length, hsyn, hseqno, acceptSegment_of_alike _ h, acceptSegment_of_alike _ h]

theorem TCPConnection.acknowledgeAndReply_of_alike (connection : TCPConnection) (h : segment.Alike other)
    (shouldSendEmptySegment : Bool) :
    connection.acknowledgeAndReply other shouldSendEmptySegment =
      connection.acknowledgeAndReply segment shouldSendEmptySegment := by
  obtain ⟨-, -, -, hack⟩ := h.flags
  obtain ⟨-, hackno, hwin⟩ := h.numbers
  unfold acknowledgeAndReply processAck
  rw [h.length, hack, hackno, hwin]

/-- A connection treats segments that are alike in the same way. -/
theorem TCPConnection.segmentReceived_of_alike (connection : TCPConnection) (h : segment.Alike other) :
    connection.segmentReceived other = connection.segmentReceived segment := by
  obtain ⟨hsyn, -, hrst, -⟩ := h.flags
  unfold segmentReceived segmentReceiveRoute
  dsimp only
  rw [hsyn, hrst, TCPReceiver.segmentReceived_of_alike _ h, acknowledgeAndReply_of_alike _ h]

end Alike

def Endpoint.SentAlike (source : Endpoint) (segment : TCPSegment) : Prop :=
  ∃ emission ∈ source.connection.segmentsOut, emission.segment.Alike segment

/-- A call of an endpoint on its own: it writes nothing after the end, and the segments that it gets are
admitted. -/
def Endpoint.Legal (admits : TCPSegment → Prop) (endpoint : Endpoint) (call : Call) : Prop :=
  endpoint.connection.WritesBeforeEnd call ∧ ∀ segment, call = .segmentReceived segment → admits segment

/-- Legal calls lead from one endpoint to the other. -/
def Endpoint.Reaches (admits : TCPSegment → Prop) : Endpoint → Endpoint → Prop :=
  Leads Endpoint.step (Endpoint.Legal admits)

theorem Endpoint.Reaches.accepted_prefix {admits : TCPSegment → Prop} {before after : Endpoint}
    (h : before.Reaches admits after) : before.accepted <+: after.accepted :=
  Leads.invariant (fun endpoint ↦ before.accepted <+: endpoint.accepted)
    (fun _ _ hbefore _ ↦ hbefore.trans (List.prefix_append _ _)) List.prefix_rfl h

namespace Network

variable {network : Network} {side : Side} {cfg : Side → TCPConfig} {randomIsn : Side → WrappingInt32}

/-- The segment comes from the peer and its numbers can be recovered, and nothing is written after the end
of the input. -/
def Legal (network : Network) (action : Side × Call) : Prop :=
  Arrives AckRecovers network action ∧ WritesBeforeEnd network action

/-- So little has been written that no number is ambiguous. -/
def Short (network : Network) : Prop := ∀ side, (network side).accepted.length < 2 ^ 31 - 2

/-- In a conversation without ambiguous numbers, no more is taken over than was acknowledged. -/
theorem acknowledged_of_leads (h : Leads step Legal (start cfg randomIsn) network) (side : Side) :
    Acknowledged ((cfg side).fixedIsn.getD (randomIsn side)) (network side) (network side.peer) := by
  obtain ⟨actions, hadmissible, rfl⟩ := h
  exact acknowledged_run hadmissible side

/-- In a short conversation every segment that the peer has ever sent is recovered. -/
theorem ackRecovers_of_short (h : Leads step Legal (start cfg randomIsn) network) (hshort : network.Short)
    {emission : Emission} (hsent : emission ∈ (network side.peer).connection.segmentsOut) :
    AckRecovers network side emission := by
  have hout := acknowledged_of_leads h side
  have hin := acknowledged_of_leads h side.peer
  rw [Side.peer_peer] at hin
  refine ⟨hin.flow.receives.recoverable_of_lt (hin.flow.emits.sent emission hsent) (hshort _),
    fun hack ↦ ?_⟩
  -- Both numbers count bytes that this side has written, and perhaps its SYN and FIN.
  have hemitted := (hout.acknowledges.sent emission hsent hack).2
  have hreceived := hout.flow.receives.absAckno_le_length
  have htaken := hout.ackno_le
  have hlength := hshort side
  unfold Near Word.size
  omega

section Update

variable {endpoint after : Endpoint} {call : Call}

theorem Short.of_step (h : Short (Function.update network side (endpoint.step call))) :
    Short (Function.update network side endpoint) := by
  intro other
  have hlength := h other
  by_cases hother : other = side
  · subst hother
    rw [Function.update_self] at hlength ⊢
    exact (List.prefix_append _ _).length_le.trans_lt hlength
  · rw [Function.update_of_ne hother] at hlength ⊢
    exact hlength

/-- A call of one endpoint, with a segment that is alike to one of its peer, has the effect of a call with
the segment of the peer. -/
theorem leads_step (h : Leads step Legal (start cfg randomIsn) (Function.update network side endpoint))
    (hshort : Short (Function.update network side endpoint))
    (hlegal : Endpoint.Legal (network side.peer).SentAlike endpoint call) :
    Leads step Legal (start cfg randomIsn) (Function.update network side (endpoint.step call)) := by
  have hself : Function.update network side endpoint side = endpoint := Function.update_self _ _ _
  have hstep (action : Call) (hsame : endpoint.step action = endpoint.step call)
      (hallowed : Legal (Function.update network side endpoint) (side, action)) :
      Leads step Legal (start cfg randomIsn) (Function.update network side (endpoint.step call)) := by
    have hnext := h.extend hallowed
    unfold step at hnext
    dsimp only at hnext
    rwa [hself, hsame, Function.update_idem] at hnext
  cases call with
  | segmentReceived segment =>
    obtain ⟨emission, hsent, halike⟩ := hlegal.2 segment rfl
    rw [← Function.update_of_ne side.peer_ne endpoint network] at hsent
    refine hstep (.segmentReceived emission.segment) ?_
      ⟨⟨emission, hsent, rfl, ackRecovers_of_short h hshort hsent⟩, trivial⟩
    have hsame := segmentReceived_of_alike endpoint.connection halike
    unfold Endpoint.step TCPConnection.step
    dsimp only
    rw [hsame]
    rfl
  | write data =>
    refine hstep _ rfl ⟨trivial, ?_⟩
    rw [WritesBeforeEnd, hself]
    exact hlegal.1
  | connect | endInputStream | tick | readInbound => exact hstep _ rfl ⟨trivial, trivial⟩

/-- What an endpoint does on its own, with segments that are alike to those of its peer, is a part of a
conversation. -/
theorem leads_update (h : Leads step Legal (start cfg randomIsn) network)
    (hreaches : (network side).Reaches (network side.peer).SentAlike after)
    (hshort : Short (Function.update network side after)) :
    Leads step Legal (start cfg randomIsn) (Function.update network side after) := by
  revert hshort
  apply Leads.invariant (fun endpoint ↦ Short (Function.update network side endpoint) →
    Leads step Legal (start cfg randomIsn) (Function.update network side endpoint)) ?_ ?_ hreaches
  · intro endpoint call hbefore hlegal hshort
    exact leads_step (hbefore hshort.of_step) hshort.of_step hlegal
  · intro _
    rwa [Function.update_eq_self]

end Update

end Network

end Sponge
