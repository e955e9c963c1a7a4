import Sponge.System.Network

/-!
# The end of the conversation

Two results about the end of a stream.  An acknowledged FIN means that the peer has received the whole
stream: this holds whatever the network does.  An inbound stream that has ended is complete: this
holds as long as no FIN without data overtakes the last byte of the stream, because the reassembler
does not remember where the stream ends.
-/

namespace Sponge.Network

open Execution TCPConnection TCPReceiver

variable {network : Network} {side : Side} {call : Call} {isn : WrappingInt32}
  {source target : Endpoint}

/-- No owner writes after the end of the input. -/
def WritesBeforeEnd (network : Network) (action : Side × Call) : Prop :=
  (network action.1).connection.WritesBeforeEnd action.2

instance (network : Network) (action : Side × Call) : Decidable (WritesBeforeEnd network action) :=
  inferInstanceAs (Decidable (TCPConnection.WritesBeforeEnd _ _))

/-- The client writes two bytes and ends its stream: a data segment, and a FIN without data. -/
def clientCloses : List (Side × Call) :=
  handshake ++ [(.client, .write [97, 98]), (.client, .endInputStream)]

def dataArrives : Side × Call :=
  (.server, .segmentReceived
    { header := { seqno := ⟨1⟩, ackno := ⟨0⟩, ack := true, win := 8 }, payload := .ofString [97, 98] })

def finArrives : Side × Call :=
  (.server, .segmentReceived
    { header := { seqno := ⟨3⟩, ackno := ⟨0⟩, ack := true, fin := true, win := 8 }
      payload := .ofString [] })

/-! ## Acknowledged means delivered -/

/-- The sender can recover the acknowledgment number of the arriving segment. -/
def AckRecovers (network : Network) (side : Side) (emission : Emission) : Prop :=
  Recovers network side emission ∧ (emission.segment.header.ack = true →
    Near emission.absAckno (network side).connection.sender.ackno ∧
      emission.absAckno < Word.size)

instance (network : Network) (side : Side) (emission : Emission) :
    Decidable (AckRecovers network side emission) :=
  inferInstanceAs (Decidable (_ ∧ (_ → _)))

/-- One direction of the conversation and its acknowledgments: the sender never takes over more than
the receiver acknowledges. -/
structure Acknowledged (isn : WrappingInt32) (source target : Endpoint) : Prop where
  flow : Flow isn source target
  concludes : source.connection.Concludes
  acknowledges : Acknowledges isn target.connection
  ackno_le : source.connection.sender.ackno ≤ target.connection.receiver.absAckno

/-- The sending side makes a call: it takes over no more than was acknowledged. -/
theorem Acknowledged.send (h : Acknowledged isn source target)
    (hcall : source.connection.NothingAfterFin call)
    (harrives : ∀ segment, call = .segmentReceived segment →
      ∃ emission ∈ target.connection.segmentsOut, emission.segment = segment ∧
        (emission.segment.header.ack = true →
          Near emission.absAckno source.connection.sender.ackno ∧
            emission.absAckno < Word.size)) :
    Acknowledged isn (source.step call) target where
  flow := h.flow.send call
  concludes := h.concludes.step hcall
  acknowledges := h.acknowledges
  ackno_le := by
    have hslices := h.flow.emits.slices
    apply ackno_step_le hslices.valid h.ackno_le
    intro segment heq hack
    obtain ⟨emission, hsent, rfl, hrecovers⟩ := harrives segment heq
    obtain ⟨hnear, hword⟩ := hrecovers hack
    obtain ⟨hackno, hle⟩ := h.acknowledges.sent emission hsent hack
    rw [hackno, hslices.isn_eq, unwrap_wrap isn hword hnear]
    exact hle

/-- The acknowledgment number of the receiving side never moves back. -/
theorem Flow.absAckno_step (h : Flow isn source target)
    (harrives : ∀ segment, call = .segmentReceived segment →
      ∃ emission ∈ source.connection.segmentsOut, emission.segment = segment) :
    target.connection.receiver.absAckno ≤ (target.step call).connection.receiver.absAckno := by
  apply receiver_step fun receiver ↦ target.connection.receiver.absAckno ≤ receiver.absAckno
  · exact fun _ hle ↦ hle
  · intro segment hcall hle
    obtain ⟨emission, hsent, rfl⟩ := harrives segment hcall
    exact h.receives.absAckno_le (excerpt_of_slice (h.emits.sent emission hsent))
  · cases call <;> exact le_rfl

/-- The receiving side makes a call: what was acknowledged stays acknowledged. -/
theorem Acknowledged.receive (h : Acknowledged isn source target)
    (harrives : ∀ segment, call = .segmentReceived segment →
      ∃ emission ∈ source.connection.segmentsOut, emission.segment = segment ∧
        target.connection.receiver.Recoverable emission.absSeqno emission.segment) :
    Acknowledged isn source (target.step call) where
  flow := h.flow.receive harrives
  concludes := h.concludes
  acknowledges := by
    apply h.acknowledges.step
    intro segment heq
    obtain ⟨emission, hsent, rfl, hrecoverable⟩ := harrives segment heq
    have hexcerpt := excerpt_of_slice (h.flow.emits.sent emission hsent)
    exact ⟨(h.flow.receives.segmentReceived hexcerpt hrecoverable).isn_eq,
      h.flow.receives.absAckno_le hexcerpt⟩
  ackno_le := by
    apply h.ackno_le.trans
    apply h.flow.absAckno_step
    intro segment heq
    obtain ⟨emission, hsent, hsame, -⟩ := harrives segment heq
    exact ⟨emission, hsent, hsame⟩

/-- With its FIN acknowledged, all that the sender has sent has been assembled by the receiver. -/
theorem Acknowledged.complete (h : Acknowledged isn source target)
    (hacked : source.connection.sender.finAcked = true) :
    target.inbound = source.accepted ∧
      target.connection.receiver.streamOut.inputEnded = true := by
  have hsequenced := h.concludes.sequenced
  obtain ⟨hfin, hall⟩ := hsequenced.finAcked_iff.mp hacked
  have hspells := h.flow.receives.spells
  have hassembled := hspells.assembledBytes_le h.flow.receives.consistent
  have hsyn := target.connection.receiver.isn.isSome.toNat_le
  have hempty := target.connection.receiver.reassembler.empty.toNat_le
  -- The acknowledgment number covers SYN, all bytes and FIN, so the receiver has counted them all.
  have hle : source.accepted.length + 2 ≤ target.connection.receiver.absAckno := by
    calc
      source.accepted.length + 2 = source.connection.sender.nextSeqno := by
        rw [hsequenced.next_of_fin hfin, h.flow.emits.slices.written]
      _ = source.connection.sender.ackno := hall.symm
      _ ≤ target.connection.receiver.absAckno := h.ackno_le
  unfold absAckno at hle
  have hwhole : target.connection.receiver.reassembler.assembledBytes =
      source.accepted.length := by omega
  have hend : target.connection.receiver.reassembler.empty = true := by
    cases hflag : target.connection.receiver.reassembler.empty with
    | true => rfl
    | false =>
      rw [hflag, Bool.toNat_false] at hle
      omega
  refine ⟨?_, h.flow.receives.closed hend⟩
  unfold Endpoint.inbound streamOut
  rw [hspells.output, hwhole, List.take_length]

theorem acknowledged_start (cfg : Side → TCPConfig) (randomIsn : Side → WrappingInt32)
    (side : Side) : Acknowledged ((cfg side).fixedIsn.getD (randomIsn side))
      (start cfg randomIsn side) (start cfg randomIsn side.peer) :=
  ⟨⟨emits_new _ _, receives_new _ _ _⟩, concludes_new _ _, acknowledges_new _ _ _, Nat.zero_le _⟩

theorem acknowledged_run {cfg : Side → TCPConfig} {randomIsn : Side → WrappingInt32}
    {actions : List (Side × Call)}
    (h : Admissible step (fun network action ↦ Arrives AckRecovers network action ∧
      WritesBeforeEnd network action) (start cfg randomIsn) actions) (side : Side) :
    let final := run step (start cfg randomIsn) actions
    Acknowledged ((cfg side).fixedIsn.getD (randomIsn side)) (final side) (final side.peer) := by
  apply run_direction (fun side ↦ Acknowledged ((cfg side).fixedIsn.getD (randomIsn side))) ?_ ?_ ?_ h
  · exact acknowledged_start cfg randomIsn
  · intro network side call hbefore hallowed
    apply hbefore.send (hallowed.2.nothingAfterFin hbefore.concludes.sequenced)
    intro segment heq
    obtain ⟨emission, hsent, hsame, hrecovers⟩ := hallowed.1.emission segment heq
    exact ⟨emission, hsent, hsame, hrecovers.2⟩
  · intro network side call hbefore hallowed
    apply hbefore.receive
    intro segment heq
    obtain ⟨emission, hsent, hsame, hrecovers⟩ := hallowed.1.emission segment heq
    exact ⟨emission, hsent, hsame, hrecovers.1⟩

/-- When the FIN of a side has been acknowledged, in particular when the side has closed clearly, its
peer has received all that the side has written, and nothing else, and knows that it is all. -/
theorem finAcked_means_delivered (cfg : Side → TCPConfig) (randomIsn : Side → WrappingInt32)
    (actions : List (Side × Call))
    (h : Admissible step (fun network action ↦ Arrives AckRecovers network action ∧
      WritesBeforeEnd network action) (start cfg randomIsn) actions) (side : Side) :
    let final := run step (start cfg randomIsn) actions
    (final side).connection.sender.finAcked = true ∨
      (final side).connection.isClearShutdown = true →
    (final side.peer).inbound = (final side).accepted ∧
      (final side.peer).connection.receiver.streamOut.inputEnded = true := by
  intro final hclosed
  have hfinal := acknowledged_run h side
  cases hclosed with
  | inl hacked => exact hfinal.complete hacked
  | inr hclear => exact hfinal.complete (hfinal.concludes.closed hclear)

/-- The acknowledgment of the FIN overtakes the one of the data. -/
theorem finAcked_means_delivered_reordered_acks :
    let actions := clientCloses ++ [dataArrives, finArrives,
      (.client, .segmentReceived { header := { seqno := ⟨0⟩, ackno := ⟨4⟩, ack := true, win := 6 } }),
      (.client, .segmentReceived { header := { seqno := ⟨0⟩, ackno := ⟨3⟩, ack := true, win := 6 } })]
    let final := run step (start smallCfg fun _ ↦ ⟨0⟩) actions
    Admissible step (fun network action ↦ Arrives AckRecovers network action ∧
        WritesBeforeEnd network action) (start smallCfg fun _ ↦ ⟨0⟩) actions ∧
      (final .client).connection.sender.finAcked = true ∧ (final .client).accepted = [97, 98] ∧
      (final .server).inbound = (final .client).accepted ∧
      (final .server).connection.receiver.streamOut.inputEnded = true := by
  intro actions final
  have h : Admissible step (fun network action ↦ Arrives AckRecovers network action ∧
      WritesBeforeEnd network action) (start smallCfg fun _ ↦ ⟨0⟩) actions := by decide +kernel
  have hacked : (final .client).connection.sender.finAcked = true := by decide +kernel
  exact ⟨h, hacked, by decide +kernel, finAcked_means_delivered _ _ _ h .client (.inl hacked)⟩

/-! ## Ended means complete -/

/-- The receiver can recover the number of the arriving segment, and a FIN without data does not
overtake the last byte of the stream. -/
def FinRecovers (network : Network) (side : Side) (emission : Emission) : Prop :=
  Recovers network side emission ∧
    FinAnchored (network side.peer).accepted (network side).connection.receiver
      emission.absSeqno emission.segment

instance (network : Network) (side : Side) (emission : Emission) :
    Decidable (FinRecovers network side emission) :=
  inferInstanceAs (Decidable (_ ∧ _))

/-- One direction of the conversation and its end. -/
structure Ending (isn : WrappingInt32) (source target : Endpoint) : Prop where
  flow : Flow isn source target
  concludes : source.connection.Concludes
  ends : Ends source.accepted source.connection.sender.fin target.connection.receiver

/-- The sending side makes a call, and writes nothing after the end. -/
theorem Ending.send (h : Ending isn source target)
    (hcall : source.connection.WritesBeforeEnd call) :
    Ending isn (source.step call) target := by
  have hfinal := hcall.nothingAfterFin h.concludes.sequenced
  refine ⟨h.flow.send call, h.concludes.step hfinal, ?_⟩
  have hends := h.ends
  cases hfin : source.connection.sender.fin with
  | false =>
    rw [hfin] at hends
    exact hends.extend _ _
  | true =>
    have hstays : (source.step call).connection.sender.fin = true :=
      fin_step h.flow.emits.slices.valid hfin
    have hsame : (source.step call).accepted = source.accepted := by
      change source.accepted ++ _ = _
      rw [acceptedBy_eq_nil hfinal hfin, List.append_nil]
    rw [hstays, hsame]
    rwa [hfin] at hends

/-- The receiving side makes a call. -/
theorem Ending.receive (h : Ending isn source target)
    (harrives : ∀ segment, call = .segmentReceived segment →
      ∃ emission ∈ source.connection.segmentsOut, emission.segment = segment ∧
        target.connection.receiver.Recoverable emission.absSeqno emission.segment ∧
        FinAnchored source.accepted target.connection.receiver emission.absSeqno emission.segment) :
    Ending isn source (target.step call) := by
  have hreceives := h.flow.receives
  refine ⟨h.flow.receive fun segment heq ↦ ?_, h.concludes, ?_⟩
  · obtain ⟨emission, hsent, hsame, hrecoverable, -⟩ := harrives segment heq
    exact ⟨emission, hsent, hsame, hrecoverable⟩
  · apply receiver_step (Ends source.accepted source.connection.sender.fin)
    · exact fun _ hbefore ↦ hbefore.setError
    · intro segment heq hbefore
      obtain ⟨emission, hsent, rfl, hrecoverable, hanchored⟩ := harrives segment heq
      have hexcerpt := excerpt_of_slice (h.flow.emits.sent emission hsent)
      apply hbefore.segmentReceived hreceives hexcerpt hrecoverable ?_ hanchored
      intro hset
      obtain ⟨hfin, hlast⟩ := h.concludes.sent emission hsent hset
      rw [hlast, h.concludes.sequenced.next_of_fin hfin, h.flow.emits.slices.written]
      exact ⟨hfin, rfl⟩
    · cases call with
      | readInbound len => exact h.ends.read hreceives.consistent.assembling.valid len
      | connect | write | endInputStream | segmentReceived | tick => exact h.ends

/-- In every conversation, both directions end in order. -/
theorem ending_run {cfg : Side → TCPConfig} {randomIsn : Side → WrappingInt32}
    {actions : List (Side × Call)}
    (h : Admissible step (fun network action ↦ Arrives FinRecovers network action ∧
      WritesBeforeEnd network action) (start cfg randomIsn) actions) (side : Side) :
    let final := run step (start cfg randomIsn) actions
    Ending ((cfg side).fixedIsn.getD (randomIsn side)) (final side) (final side.peer) := by
  apply run_direction (fun side ↦ Ending ((cfg side).fixedIsn.getD (randomIsn side))) ?_ ?_ ?_ h
  · exact fun side ↦ ⟨⟨emits_new _ _, receives_new _ _ _⟩, concludes_new _ _, ends_new _ _ _⟩
  · exact fun _ _ _ hbefore hallowed ↦ hbefore.send hallowed.2
  · exact fun _ _ _ hbefore hallowed ↦ hbefore.receive hallowed.1.emission

/-- The receiver acknowledges only what it has assembled, and the end of the stream only after the FIN
and when it has assembled the whole stream; and an inbound stream that has ended is complete. -/
theorem ended_means_complete (cfg : Side → TCPConfig) (randomIsn : Side → WrappingInt32)
    (actions : List (Side × Call))
    (h : Admissible step (fun network action ↦ Arrives FinRecovers network action ∧
      WritesBeforeEnd network action) (start cfg randomIsn) actions) (side : Side) :
    let final := run step (start cfg randomIsn) actions
    let sender := (final side).connection.sender
    let receiver := (final side.peer).connection.receiver
    (receiver.absAckno ≤ 1 + receiver.reassembler.assembledBytes +
      if sender.fin = true ∧ receiver.reassembler.assembledBytes = (final side).accepted.length
      then 1 else 0) ∧
    (receiver.streamOut.inputEnded = true →
      (final side.peer).inbound = (final side).accepted ∧ sender.stream.inputEnded = true) := by
  intro final sender receiver
  have hfinal := ending_run h side
  refine ⟨hfinal.ends.absAckno_le hfinal.flow.receives, fun hended ↦ ?_⟩
  obtain ⟨hfin, -, hwhole⟩ := hfinal.ends.assembled hfinal.flow.receives hended
  exact ⟨hwhole, (hfinal.concludes.sequenced.finished hfin).1⟩

theorem ended_means_complete_in_order :
    let actions := clientCloses ++ [dataArrives, finArrives]
    let final := run step (start smallCfg fun _ ↦ ⟨0⟩) actions
    Admissible step (fun network action ↦ Arrives FinRecovers network action ∧
        WritesBeforeEnd network action) (start smallCfg fun _ ↦ ⟨0⟩) actions ∧
      (final .server).connection.receiver.streamOut.inputEnded = true ∧
      (final .client).accepted = [97, 98] ∧ (final .server).inbound = (final .client).accepted := by
  intro actions final
  have h : Admissible step (fun network action ↦ Arrives FinRecovers network action ∧
      WritesBeforeEnd network action) (start smallCfg fun _ ↦ ⟨0⟩) actions := by decide +kernel
  have hended : (final .server).connection.receiver.streamOut.inputEnded = true := by
    decide +kernel
  exact ⟨h, hended, by decide +kernel, ((ended_means_complete _ _ _ h .client).2 hended).1⟩

/-- A FIN without data that overtakes the data ends the inbound stream at once.  The receiver then
acknowledges a byte that it does not have. -/
theorem lone_fin_ends_inbound_early :
    let actions := clientCloses ++ [finArrives]
    let final := run step (start smallCfg fun _ ↦ ⟨0⟩) actions
    let receiver := (final .server).connection.receiver
    Admissible step (fun network action ↦ Arrives Recovers network action ∧
        WritesBeforeEnd network action) (start smallCfg fun _ ↦ ⟨0⟩) actions ∧
      (final .client).connection.active = true ∧ (final .server).connection.active = true ∧
      (final .client).accepted = [97, 98] ∧ receiver.reassembler.assembledBytes = 0 ∧
      receiver.absAckno = 2 ∧ receiver.streamOut.inputEnded = true ∧
      (final .server).inbound = [] := by
  decide +kernel

end Sponge.Network
