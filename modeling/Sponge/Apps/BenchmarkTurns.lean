import Sponge.Apps.BenchmarkRounds

/-!
# The end of a round of the benchmark

After the exchange the owner of `y` reads everything, and a second passes.  `Turned` says what becomes of
the two connections, and `Round` holds again.
-/

namespace Sponge.TcpBenchmark

open Execution TCPConnection TCPReceiver Network
open TCPSender (LoneFinReached)

variable {stringToSend : List UInt8} {randomIsn : Side → WrappingInt32} {state after : State}
  {reorder : Bool}

/-! ## Reading -/

/-- The owner of `y` has read everything. -/
structure HasRead (randomIsn : Side → WrappingInt32) (before after : State) : Prop where
  orderly : Orderly (fun _ ↦ {}) randomIsn after.network
  bytesToSend : after.bytesToSend = before.bytesToSend
  xClosed : after.xClosed = before.xClosed
  x : after.x = before.x
  moved : after.y.moved = before.y.moved
  accepted : after.y.accepted = before.y.accepted
  connection : ∃ output, after.y.connection = { before.y.connection with
    receiver := { before.y.connection.receiver with
      reassembler := { before.y.connection.receiver.reassembler with output } } }
  contents : after.y.connection.receiver.streamOut.contents = []

theorem network_call_y (state : State) (call : Call) :
    State.network { state with y := state.y.call call } = state.network.step (.server, call) := by
  funext side
  cases side <;> rfl

/-- Reading takes all that is buffered. -/
theorem hasRead_readOutput (h : Orderly (fun _ ↦ {}) randomIsn state.network) :
    HasRead randomIsn state state.readOutput := by
  have hvalid : state.y.connection.receiver.streamOut.Valid :=
    (h.equipped .server).sound.consistent.assembling.valid
  have hsize : state.y.connection.inboundStream.bufferSize =
      state.y.connection.receiver.streamOut.contents.length := hvalid.bufferSize_eq
  unfold State.readOutput
  dsimp only
  split_ifs with hsome
  · constructor
    case orderly =>
      have hread := h.readInbound .server state.y.connection.inboundStream.bufferSize
      rwa [network_call_y]
    case bytesToSend | xClosed | x | moved => rfl
    case accepted => exact List.append_nil _
    case connection => exact ⟨_, rfl⟩
    case contents =>
      change (state.y.connection.receiver.streamOut.read _).2.contents = []
      rw [ByteStream.read_snd hvalid, ByteStream.contents_popOutput hvalid, hsize, List.drop_length]
  · refine ⟨h, rfl, rfl, rfl, rfl, rfl, ⟨_, rfl⟩, ?_⟩
    rw [hsize, not_lt, Nat.le_zero] at hsome
    exact List.length_eq_zero_iff.mp hsome

/-! ## Time -/

/-- A second has passed for both connections. -/
structure Passed (randomIsn : Side → WrappingInt32) (before after : State) : Prop where
  orderly : Orderly (fun _ ↦ {}) randomIsn after.network
  x : Ticks before.x.connection 1000 after.x.connection
  y : Ticks before.y.connection 1000 after.y.connection

theorem passed_passTime (h : Orderly (fun _ ↦ {}) randomIsn state.network)
    (hx : (state.x.connection.sender.tick 1000).consecutiveRetransmissions ≤ 1)
    (hy : (state.y.connection.sender.tick 1000).consecutiveRetransmissions ≤ 1) :
    Passed randomIsn state state.passTime := by
  have hmax : 1 ≤ TCPConfig.maxRetxAttempts := by decide
  let middle : State := { state with x := state.x.call (.tick 1000) }
  have hfirst : Orderly (fun _ ↦ {}) randomIsn middle.network ∧
      Ticks state.x.connection 1000 middle.x.connection := by
    rw [network_call_x]
    exact h.tick (UInt32.le_trans hx hmax)
  have hsecond : Orderly (fun _ ↦ {}) randomIsn state.passTime.network ∧
      Ticks state.y.connection 1000 state.passTime.y.connection := by
    change Orderly _ _ (State.network { middle with y := middle.y.call (.tick 1000) }) ∧ _
    rw [network_call_y]
    exact hfirst.1.tick (UInt32.le_trans hy hmax)
  exact ⟨hsecond.1, hfirst.2, hsecond.2⟩

/-- What the end of a round does to one of the connections: its owner may read, and a second passes. -/
structure Rests (before after : Party) : Prop where
  accepted : after.accepted = before.accepted
  moved : after.moved = before.moved
  sender : ∃ rto consecutiveRetransmissions timer, after.connection.sender =
    { before.connection.sender with rto, consecutiveRetransmissions, timer }
  isn : after.connection.receiver.isn = before.connection.receiver.isn
  absAckno : after.connection.receiver.absAckno = before.connection.receiver.absAckno
  sent : ∃ again, after.connection.segmentsOut = before.connection.segmentsOut ++ again ∧
    ∀ emission ∈ again, Announces after.connection.receiver emission ∧
      ∃ entry ∈ before.connection.sender.outstandingSegment, ∀ taken,
        LoneFinReached taken entry.1 entry.2 → LoneFinReached taken emission.absSeqno emission.segment
  nowTime : after.connection.nowTime = before.connection.nowTime + 1000
  received : after.connection.timeWhenLastSegmentReceived = before.connection.timeWhenLastSegmentReceived
  closes : after.connection.timeWait = true →
    10000 ≤ after.connection.timeSinceLastSegmentReceived → after.connection.active = false

/-- A tick of one of the connections. -/
theorem rests_tick {party : Party} (hequipped : Equipped {} party.connection)
    (htalking : Talking {} party.connection)
    (hticks : Ticks party.connection 1000 (party.connection.step (.tick 1000))) :
    Rests party (party.call (.tick 1000)) where
  accepted := List.append_nil _
  moved := rfl
  sender := hticks.sender_frame hequipped.drained
  isn := congrArg TCPReceiver.isn hticks.receiver
  absAckno := congrArg TCPReceiver.absAckno hticks.receiver
  sent := by
    refine ⟨_, hticks.sent, fun emission hemission ↦ ?_⟩
    refine ⟨hticks.announces hequipped htalking.clear emission hemission, ?_⟩
    obtain ⟨queued, hqueued, rfl⟩ := List.mem_map.mp hemission
    exact ⟨_, TCPSender.outstanding_of_tick hequipped.drained hqueued, fun _ ↦ loneFinReached_setSegment⟩
  nowTime := hticks.nowTime
  received := hticks.received
  closes hwait htime := by
    apply hticks.closes hwait
    rw [hticks.cfg, htalking.cfg_eq]
    exact htime

theorem Rests.of_read {after : Party} {middle : State} (hread : HasRead randomIsn state middle)
    (h : Rests middle.y after) : Rests state.y after := by
  obtain ⟨output, heq⟩ := hread.connection
  obtain ⟨haccepted, hmoved, hsender, hisn, hackno, hsent, hnow, hreceived, hcloses⟩ := h
  rw [heq] at hsender hisn hackno hsent hnow hreceived
  exact ⟨haccepted.trans hread.accepted, hmoved.trans hread.moved, hsender, hisn, hackno, hsent, hnow,
    hreceived, hcloses⟩

/-! ## The whole round -/

/-- What comes after the writing in a round. -/
def State.turn (reorder : Bool) (state : State) : State := (state.exchange reorder).readOutput.passTime

/-- What a round does once the owner of `x` has written. -/
structure Turned (randomIsn : Side → WrappingInt32) (reorder : Bool) (before after : State) : Prop where
  orderly : Orderly (fun _ ↦ {}) randomIsn after.network
  bytesToSend : after.bytesToSend = before.bytesToSend
  xClosed : after.xClosed = before.xClosed
  exchanged : Exchanged randomIsn reorder before (before.exchange reorder)
  contents : after.y.connection.receiver.streamOut.contents = []
  x : Rests (before.exchange reorder).x after.x
  y : Rests (before.exchange reorder).y after.y
  xTries : after.x.connection.sender.consecutiveRetransmissions ≤ 1
  yTries : after.y.connection.sender.consecutiveRetransmissions ≤ 1

/-- An acknowledgment of something new starts the count of the retransmissions anew, and without one
nothing is outstanding. -/
theorem Exchanged.xTries (h : Exchanged randomIsn reorder state after)
    (hround : Round stringToSend randomIsn state) :
    after.x.connection.sender.consecutiveRetransmissions = 0 ∨
      after.x.connection.sender.consecutiveRetransmissions ≤ 1 ∧
        after.x.connection.sender.ackno = after.x.connection.sender.nextSeqno := by
  obtain ⟨_, habsorbs⟩ := h.xAbsorbs
  refine habsorbs.tries.imp_right fun ⟨htries, hnext, _⟩ ↦ ⟨htries ▸ hround.xTries, ?_⟩
  exact (h.told.trans h.taken).trans hnext.symm

theorem Exchanged.yTries (h : Exchanged randomIsn reorder state after)
    (hround : Round stringToSend randomIsn state) :
    after.y.connection.sender.consecutiveRetransmissions = 0 ∨
      after.y.connection.sender.consecutiveRetransmissions ≤ 1 ∧
        after.y.connection.sender.ackno = after.y.connection.sender.nextSeqno := by
  obtain ⟨_, habsorbs⟩ := h.yAbsorbs
  rcases habsorbs.tries with hzero | ⟨htries, hnext, -⟩
  · exact .inl hzero
  · cases hisn : state.x.connection.receiver.isn with
    | none => exact .inl (htries.trans (hround.opening hisn).2)
    | some number =>
      refine .inr ⟨htries ▸ hround.yTries, ?_⟩
      apply le_antisymm (h.orderly.attentive .server).sequenced.ackno_le
      calc after.y.connection.sender.nextSeqno
          = state.y.connection.sender.nextSeqno := hnext
        _ ≤ state.x.connection.receiver.absAckno := hround.behind (by rw [hisn]; rfl)
        _ ≤ after.y.connection.sender.ackno := h.heard

/-- None of the steps of a round fails. -/
theorem Ready.turned (h : Ready stringToSend randomIsn state) (reorder : Bool) :
    Turned randomIsn reorder state (state.turn reorder) := by
  have hexchanged := h.exchanged reorder
  have hread := hasRead_readOutput hexchanged.orderly
  obtain ⟨output, hconnection⟩ := hread.connection
  have hsame : (state.exchange reorder).readOutput.y.connection.sender =
      (state.exchange reorder).y.connection.sender := by rw [hconnection]
  have hxTries : ((state.exchange reorder).readOutput.x.connection.sender.tick
      1000).consecutiveRetransmissions ≤ 1 := by
    rw [hread.x]
    exact (hexchanged.orderly.attentive .client).sequenced.tries_tick_le
      (hexchanged.xTries h.toRound) 1000
  have hyTries : ((state.exchange reorder).readOutput.y.connection.sender.tick
      1000).consecutiveRetransmissions ≤ 1 := by
    rw [hsame]
    exact (hexchanged.orderly.attentive .server).sequenced.tries_tick_le
      (hexchanged.yTries h.toRound) 1000
  have hpassed := passed_passTime hread.orderly hxTries hyTries
  constructor
  case orderly => exact hpassed.orderly
  case bytesToSend => exact hread.bytesToSend
  case xClosed => exact hread.xClosed
  case exchanged => exact hexchanged
  case contents =>
    rw [State.turn, hpassed.y.receiver]
    exact hread.contents
  case x =>
    rw [← hread.x]
    exact rests_tick (hread.orderly.equipped .client) (hread.orderly.talking .client) hpassed.x
  case y =>
    apply Rests.of_read hread
    exact rests_tick (hread.orderly.equipped .server) (hread.orderly.talking .server) hpassed.y
  case xTries =>
    rw [State.turn, hpassed.x.sender]
    exact hxTries
  case yTries =>
    rw [State.turn, hpassed.y.sender]
    exact hyTries

/-- A queue holds what has been sent since the last exchange. -/
theorem Party.pending_of_seen {source : Party} {target : Endpoint} {older newer : List Emission}
    (hmoved : source.moved = older.length) (heq : source.connection.segmentsOut = older ++ newer)
    (hseen : ∀ emission ∈ older, Seen target emission) :
    source.Pending target ∧ source.queue = newer := by
  have hqueue : source.queue = newer := by
    unfold Party.queue
    rw [heq, hmoved, List.drop_left]
  refine ⟨⟨?_, fun emission hemission ↦ ?_⟩, hqueue⟩
  · rw [heq, hmoved, List.length_append]
    exact Nat.le_add_right _ _
  · rw [heq] at hemission
    rw [hqueue]
    exact (List.mem_append.mp hemission).symm.imp_right (hseen emission)

theorem Rests.seen {before after : Party} {emission : Emission} (h : Rests before after)
    (hseen : Seen before.toEndpoint emission) : Seen after.toEndpoint emission := by
  obtain ⟨_, _, _, hsender⟩ := h.sender
  unfold Seen
  rw [h.absAckno, hsender]
  exact hseen

namespace Turned

variable (h : Turned randomIsn reorder state after)
include h

theorem xPending : after.x.Pending after.y.toEndpoint ∧ ∃ again,
    after.x.queue = (state.exchange reorder).x.queue ++ again ∧
    ∀ emission ∈ again, ∃ entry ∈ (state.exchange reorder).x.connection.sender.outstandingSegment,
      ∀ taken, LoneFinReached taken entry.1 entry.2 →
        LoneFinReached taken emission.absSeqno emission.segment := by
  obtain ⟨_, habsorbs⟩ := h.exchanged.xAbsorbs
  obtain ⟨appended, happended⟩ := habsorbs.grows
  obtain ⟨again, hsent, hagain⟩ := h.x.sent
  have hmoved := h.exchanged.xMoved
  obtain ⟨hpending, hqueue⟩ := Party.pending_of_seen (h.x.moved.trans hmoved)
    (hsent.trans (by rw [← happended, List.append_assoc]))
    fun emission hemission ↦ h.y.seen (h.exchanged.seenByY emission hemission)
  refine ⟨hpending, again, ?_, fun emission hemission ↦ (hagain emission hemission).2⟩
  rw [hqueue, Party.queue, ← happended, hmoved, List.drop_left]

theorem yPending : after.y.Pending after.x.toEndpoint ∧
    (∀ emission ∈ after.y.queue, Announces after.y.connection.receiver emission) ∧
    ((state.exchange reorder).y.connection.sender.outstandingSegment = [] → after.y.queue = []) := by
  obtain ⟨again, hsent, hagain⟩ := h.y.sent
  obtain ⟨hpending, hqueue⟩ := Party.pending_of_seen (h.y.moved.trans h.exchanged.yMoved) hsent
    fun emission hemission ↦ h.x.seen (h.exchanged.seenByX emission hemission)
  refine ⟨hpending, ?_, fun hnone ↦ ?_⟩
  · rw [hqueue]
    exact fun emission hemission ↦ (hagain emission hemission).1
  · rw [hqueue, List.eq_nil_iff_forall_not_mem]
    intro emission hemission
    obtain ⟨entry, hentry, -⟩ := (hagain emission hemission).2
    rw [hnone] at hentry
    exact absurd hentry List.not_mem_nil

/-- Both connections have heard of the other one. -/
theorem opened (hround : Round stringToSend randomIsn state) :
    after.x.connection.receiver.isn.isSome = true ∧
    after.y.connection.receiver.isn.isSome = true := by
  have horderly := h.exchanged.orderly
  rw [h.x.isn, h.y.isn]
  constructor
  · exact (horderly.inbound .client).flow.receives.isSome_of_absAckno_pos
      ((horderly.next_pos .server).trans_le h.exchanged.behind)
  · apply (horderly.inbound .server).flow.receives.isSome_of_absAckno_pos
    change 0 < (state.exchange reorder).y.connection.receiver.absAckno
    rw [h.exchanged.taken]
    exact hround.orderly.next_pos .client

/-- The window of `y` is as large as it can be, so it has room for all that `x` may have sent. -/
theorem limit_le : TCPSender.limit (state.exchange reorder).y.connection.receiver.absAckno
    ((state.exchange reorder).y.connection.receiver.absAckno +
      (state.exchange reorder).y.connection.receiver.windowSize) ≤
    after.y.connection.receiver.absAckno + after.y.connection.receiver.windowSize := by
  have hequipped : Equipped {} after.y.connection := h.orderly.equipped .server
  have hvalid : after.y.connection.receiver.streamOut.Valid := hequipped.sound.consistent.assembling.valid
  have hwindow : after.y.connection.receiver.windowSize = 64000 := by
    rw [hequipped.sound.windowSize_eq.2, hvalid.bufferSize_eq, h.contents, hequipped.recvCapacity]
    rfl
  have hle : (state.exchange reorder).y.connection.receiver.windowSize ≤ 64000 :=
    h.exchanged.orderly.windowSize_le .server
  rw [h.y.absAckno, hwindow]
  unfold TCPSender.limit
  omega

/-- The next round can begin. -/
theorem round (hready : Ready stringToSend randomIsn state) : Round stringToSend randomIsn after := by
  obtain ⟨_, hxAbsorbs⟩ := h.exchanged.xAbsorbs
  obtain ⟨_, hyAbsorbs⟩ := h.exchanged.yAbsorbs
  obtain ⟨_, _, _, hxSender⟩ := h.x.sender
  obtain ⟨_, _, _, hySender⟩ := h.y.sender
  obtain ⟨hxPending, again, hxQueue, hagain⟩ := h.xPending
  obtain ⟨hyPending, hannounces, -⟩ := h.yPending
  obtain ⟨hxOpen, hyOpen⟩ := h.opened hready.toRound
  have hended : after.x.connection.sender.stream.ended = state.xClosed := by
    rw [hxSender]
    exact hxAbsorbs.ended.trans hready.closed
  have hunsent (hfin : after.x.connection.sender.fin = false) :
      state.x.connection.sender.fin = false := by
    by_contra hset
    have hanswers := h.exchanged.xAnswers (Bool.not_eq_false _ ▸ hset)
    rw [hxSender] at hfin
    exact Bool.false_ne_true (hfin.symm.trans hanswers.fin)
  constructor
  case orderly => exact h.orderly
  case input =>
    rw [h.x.accepted, h.bytesToSend]
    exact (congrArg (· ++ _) hxAbsorbs.accepted).trans hready.input
  case closed => exact hended.trans h.xClosed.symm
  case nothingLeft =>
    rw [h.xClosed, h.bytesToSend]
    exact hready.nothingLeft
  case silent => exact (h.y.accepted.trans hyAbsorbs.accepted).trans hready.silent
  case ended =>
    rw [hySender]
    exact hyAbsorbs.ended.trans hready.ended
  case read => exact h.contents
  case xPending => exact hxPending
  case yPending => exact hyPending
  case yHeard => exact .inl hyOpen
  case xHeard => exact .inl hxOpen
  case lone =>
    intro emission hemission
    rw [h.y.absAckno]
    rw [hxQueue] at hemission
    cases List.mem_append.mp hemission with
    | inl hold => exact h.exchanged.lone emission hold
    | inr hnew =>
      obtain ⟨entry, hentry, hsame⟩ := hagain emission hnew
      exact hsame _ (h.exchanged.outstanding entry hentry)
  case announces => exact hannounces
  case told =>
    rw [hxSender, h.y.absAckno]
    exact h.exchanged.told
  case behind =>
    intro _
    rw [hySender, h.x.absAckno]
    exact h.exchanged.behind
  case room =>
    refine le_trans ?_ h.limit_le
    rw [hxSender]
    cases hfin : state.x.connection.sender.fin with
    | false => exact (h.exchanged.supplies hfin).inside.next_le
    | true =>
      have hnext := (h.exchanged.xAnswers hfin).next.trans h.exchanged.taken.symm
      exact hnext.le.trans ((Nat.le_succ _).trans (le_max_right _ _))
  case inside =>
    intro hfin
    have hinside := (h.exchanged.supplies (hunsent hfin)).inside.mono h.limit_le
    rw [hxSender]
    exact ⟨hinside.valid, hinside.unsent_le, hinside.next_le, hinside.window_le⟩
  case full =>
    intro hopen
    have hrunning : (state.exchange reorder).x.connection.sender.stream.ended = false := by
      rw [hxSender, ← h.xClosed, hopen] at hended
      exact hended
    have hfin : state.x.connection.sender.fin = false := by
      by_contra hset
      have hstream := ((hready.orderly.attentive .client).sequenced.finished
        (Bool.not_eq_false _ ▸ hset)).1
      exact Bool.false_ne_true (hrunning.symm.trans (hxAbsorbs.ended.trans hstream))
    have hsupplies := h.exchanged.supplies hfin
    have hwindow := hsupplies.inside.window_le
    rw [hxSender]
    refine hwindow.trans ((hsupplies.used hrunning).resolve_left ?_)
    exact h.exchanged.told.not_lt
  case xTries => exact h.xTries
  case yTries => exact h.yTries
  case opening =>
    intro hnone
    rw [hnone] at hxOpen
    contradiction

end Turned

end Sponge.TcpBenchmark
