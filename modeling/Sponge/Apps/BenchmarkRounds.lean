import Sponge.Apps.TcpBenchmark
import Sponge.System.Acknowledgments

/-!
# The rounds of the benchmark

`Round` is what holds before each iteration of the loop of the benchmark program.  While the owner of `x`
writes, the window of `x` is full, so nothing is sent.  Then the segments of `x` arrive at `y`, in either
order, and what `y` answers arrives at `x`: both connections catch up with each other (`Exchanged`).  The
acknowledgments of `y` announce one right edge, which `x` uses up as long as its stream goes on.
-/

namespace Sponge.TcpBenchmark

open Execution TCPConnection TCPReceiver Network
open TCPSender (Inside LoneFinReached Supplies)

/-- The two ends of the conversation: `x` is the client. -/
def State.network (state : State) : Network
  | .client => state.x.toEndpoint
  | .server => state.y.toEndpoint

/-- The target has seen everything that has been moved. -/
structure Party.Pending (source : Party) (target : Endpoint) : Prop where
  moved_le : source.moved ≤ source.connection.segmentsOut.length
  seen : ∀ emission ∈ source.connection.segmentsOut, emission ∈ source.queue ∨ Seen target emission

/-- What holds before each iteration.  `y` has told `x` what it acknowledges, and its owner has read
everything.  Whatever is in the queues arrives in this round. -/
structure Round (stringToSend : List UInt8) (randomIsn : Side → WrappingInt32) (state : State) : Prop where
  orderly : Orderly (fun _ ↦ {}) randomIsn state.network
  -- what the owners have done
  input : state.x.accepted ++ state.bytesToSend.str = stringToSend
  closed : state.x.connection.sender.stream.ended = state.xClosed
  nothingLeft : state.xClosed = true → state.bytesToSend.str = []
  silent : state.y.accepted = []
  ended : state.y.connection.sender.stream.ended = true
  read : state.y.connection.receiver.streamOut.contents = []
  -- what is in the queues
  xPending : state.x.Pending state.y.toEndpoint
  yPending : state.y.Pending state.x.toEndpoint
  yHeard : state.y.connection.receiver.isn.isSome = true ∨
    ∀ emission ∈ state.x.queue, emission.segment.header.syn = true
  xHeard : state.x.connection.receiver.isn.isSome = true ∨
    ∃ emission rest, state.y.queue = emission :: rest ∧ emission.segment.header.syn = true
  lone : ∀ emission ∈ state.x.queue, LoneFinReached state.y.connection.receiver.absAckno
    emission.absSeqno emission.segment
  announces : ∀ emission ∈ state.y.queue, Announces state.y.connection.receiver emission
  -- the numbers
  told : state.x.connection.sender.ackno = state.y.connection.receiver.absAckno
  behind : state.x.connection.receiver.isn.isSome = true →
    state.y.connection.sender.nextSeqno ≤ state.x.connection.receiver.absAckno
  room : state.x.connection.sender.nextSeqno ≤
    state.y.connection.receiver.absAckno + state.y.connection.receiver.windowSize
  inside : state.x.connection.sender.fin = false → Inside
    (state.y.connection.receiver.absAckno + state.y.connection.receiver.windowSize)
    state.x.connection.sender
  full : state.xClosed = false →
    state.x.connection.sender.ackno + state.x.connection.sender.effectiveWindow ≤
      state.x.connection.sender.nextSeqno
  xTries : state.x.connection.sender.consecutiveRetransmissions ≤ 1
  yTries : state.y.connection.sender.consecutiveRetransmissions ≤ 1
  opening : state.x.connection.receiver.isn = none →
    state.x.connection.sender.ackno = 0 ∧ state.y.connection.sender.consecutiveRetransmissions = 0

variable {stringToSend : List UInt8} {randomIsn : Side → WrappingInt32} {state : State} {call : Call}
  {bytesToSend : Buffer} {xClosed : Bool}

theorem network_call_x (state : State) (call : Call) (bytesToSend : Buffer) (xClosed : Bool) :
    State.network { state with x := state.x.call call, bytesToSend, xClosed } =
      state.network.step (.client, call) := by
  funext side
  cases side <;> rfl

/-! ## Writing -/

/-- What the owner of `x` does to the outbound stream while the window of `x` is full. -/
theorem Round.quietly {stream : ByteStream} (h : Round stringToSend randomIsn state)
    (hcall : ∀ segment, call ≠ .segmentReceived segment)
    (hwrites : state.x.connection.WritesBeforeEnd call)
    (hquietly : Quietly state.x.connection { state.x.connection.sender with stream }
      (state.x.connection.step call))
    (hread : stream.byteRead = state.x.connection.sender.stream.byteRead)
    (hinput : (state.x.step call).accepted ++ bytesToSend.str = stringToSend)
    (hclosed : stream.ended = xClosed) (hnothing : xClosed = true → bytesToSend.str = [])
    (hopen : state.xClosed = false)
    (hshort : stringToSend.length < 2 ^ 31 - 2) :
    Round stringToSend randomIsn { state with x := state.x.call call, bytesToSend, xClosed } := by
  have horderly : Orderly (fun _ ↦ {}) randomIsn
      (State.network { state with x := state.x.call call, bytesToSend, xClosed }) := by
    rw [network_call_x]
    have hlegal : Legal state.network (.client, call) := by
      refine ⟨?_, hwrites⟩
      cases call with
      | segmentReceived segment => exact absurd rfl (hcall segment)
      | connect | write | endInputStream | tick | readInbound => trivial
    apply h.orderly.act hlegal
    · apply h.orderly.short.step
      have hlength := congrArg List.length hinput
      rw [List.length_append] at hlength
      exact (Nat.le.intro hlength).trans_lt hshort
    · exact fun segment heq ↦ absurd heq (hcall segment)
    · apply (h.orderly.talking .client).quietly hquietly
      exact (h.orderly.talking .client).launched.step
        (hwrites.nothingAfterFin (h.orderly.attentive .client).sequenced)
  have hvalid := (horderly.attentive .client).sequenced.valid
  obtain ⟨linger, clear, heq⟩ := hquietly
  have hstep : state.x.step call =
      { state.x.step call with
        connection := { state.x.connection with
          sender := { state.x.connection.sender with stream }
          lingerAfterStreamsFinish := linger
          isClearShutdown := clear } } := by
    rw [← heq]
    rfl
  unfold Party.call at horderly hvalid ⊢
  rw [hstep] at horderly hvalid ⊢
  refine ⟨horderly, hinput, hclosed, hnothing, h.silent, h.ended, h.read,
    ⟨h.xPending.moved_le, h.xPending.seen⟩, ⟨h.yPending.moved_le, h.yPending.seen⟩, h.yHeard, h.xHeard,
    h.lone, h.announces, h.told, h.behind, h.room, fun hfin ↦ ?_, fun _ ↦ h.full hopen, h.xTries, h.yTries,
    h.opening⟩
  obtain ⟨-, hunsent, hnext, hwindow⟩ := h.inside hfin
  refine ⟨hvalid, ?_, hnext, hwindow⟩
  rw [TCPSender.firstUnsent, ByteStream.bytesRead, hread]
  exact hunsent

/-- The owner of `x` has written or ended the outbound stream, and nothing has been sent. -/
structure Wrote (before after : State) : Prop where
  y : after.y = before.y
  moved : after.x.moved = before.x.moved
  quietly : ∃ stream, Quietly before.x.connection { before.x.connection.sender with stream }
    after.x.connection

theorem wrote_refl (state : State) : Wrote state state :=
  ⟨rfl, rfl, state.x.connection.sender.stream, _, _, rfl⟩

theorem Wrote.trans {before middle after : State} (h : Wrote before middle) (hnext : Wrote middle after) :
    Wrote before after := by
  obtain ⟨_, _, _, heq⟩ := h.quietly
  obtain ⟨stream, linger, clear, heq'⟩ := hnext.quietly
  refine ⟨hnext.y.trans h.y, hnext.moved.trans h.moved, stream, linger, clear, ?_⟩
  rw [heq', heq]

/-- What is left of the input does not fit into the outbound stream. -/
theorem State.wantsToWrite_eq_false :
    state.wantsToWrite = false ↔
      state.bytesToSend.str = [] ∨ state.x.connection.remainingOutboundCapacity = 0 := by
  simp [State.wantsToWrite, Buffer.size]
  tauto

/-- Each iteration writes all that fits, so there is none after the first one. -/
theorem Round.writeOnce (h : Round stringToSend randomIsn state)
    (hshort : stringToSend.length < 2 ^ 31 - 2) (hwants : state.wantsToWrite = true) :
    ∃ after, state.writeOnce = .ok after ∧ Round stringToSend randomIsn after ∧ Wrote state after ∧
      after.wantsToWrite = false := by
  have hvalid : state.x.connection.sender.stream.Valid := (h.orderly.attentive .client).sequenced.valid
  have hopen : state.xClosed = false := by
    rw [← Bool.not_eq_true]
    intro hclosed
    rw [State.wantsToWrite_eq_false.mpr (.inl (h.nothingLeft hclosed))] at hwants
    contradiction
  set want := min state.x.connection.remainingOutboundCapacity state.bytesToSend.size with hwant
  set data := state.bytesToSend.str.take want with hdata
  have hlength : data.length = want := by
    rw [hdata, List.length_take]
    exact min_eq_left (min_le_right _ _)
  have hcapacity : want ≤ state.x.connection.sender.stream.capacity -
      state.x.connection.sender.stream.contents.length :=
    (min_le_left _ _).trans_eq hvalid.remainingCapacity_eq
  have hwritten : (state.x.connection.sender.stream.write data).2 = want := by
    rw [ByteStream.write_snd hvalid, hlength]
    exact min_eq_left hcapacity
  obtain ⟨rest, hremove, hrest⟩ := Buffer.removePrefix_of_le
    (show want ≤ state.bytesToSend.size from min_le_right _ _)
  have hquietly : Quietly state.x.connection
      { state.x.connection.sender with stream := (state.x.connection.sender.stream.write data).1 }
      (state.x.connection.step (.write data)) :=
    (h.orderly.attentive .client).write_quietly (h.full hopen) data
  refine ⟨{ state with x := state.x.call (.write data), bytesToSend := rest }, ?_, ?_, ?_, ?_⟩
  · unfold State.writeOnce
    have hresult : (state.x.connection.write data).2 = want := hwritten
    simp only [← hwant, ← hdata, hresult, hremove, ne_eq, not_true_eq_false, if_false]
    rfl
  · refine h.quietly nofun ?_ hquietly rfl ?_ h.closed (fun hclosed ↦ ?_) hopen hshort
    · exact h.closed.trans hopen
    · change (state.x.accepted ++ data.take (state.x.connection.sender.stream.write data).2) ++ _ = _
      rw [hwritten, ← hlength, List.take_length, hrest, List.append_assoc, hdata, List.take_append_drop]
      exact h.input
    · rw [hopen] at hclosed
      contradiction
  · exact ⟨rfl, rfl, _, hquietly⟩
  · obtain ⟨_, _, heq⟩ := hquietly
    rw [State.wantsToWrite_eq_false]
    change rest.str = [] ∨ (state.x.connection.step (.write data)).sender.stream.remainingCapacity = 0
    rw [heq, (hvalid.write data).remainingCapacity_eq, ByteStream.contents_write, hwritten,
      List.length_append, hrest, List.drop_eq_nil_iff, List.length_take, hlength]
    change _ ∨ state.x.connection.sender.stream.capacity - _ = 0
    have hroom : state.x.connection.remainingOutboundCapacity =
        state.x.connection.sender.stream.capacity - state.x.connection.sender.stream.contents.length :=
      hvalid.remainingCapacity_eq
    rw [hroom] at hwant
    unfold Buffer.size at hwant
    omega

/-- One iteration is enough to write all that fits. -/
theorem Round.writeInput (h : Round stringToSend randomIsn state)
    (hshort : stringToSend.length < 2 ^ 31 - 2) :
    ∃ after, state.writeInput = .ok after ∧ Round stringToSend randomIsn after ∧ Wrote state after ∧
      after.wantsToWrite = false := by
  cases hwants : state.wantsToWrite with
  | false => exact ⟨state, whileLoop_of_false hwants, h, wrote_refl state, hwants⟩
  | true =>
    obtain ⟨after, hwrite, hround, hwrote, hdone⟩ := h.writeOnce hshort hwants
    refine ⟨after, (whileLoop_of_true hwants hwrite).trans ?_, hround, hwrote, hdone⟩
    have hsome : 0 < state.bytesToSend.size := by
      apply Nat.pos_of_ne_zero
      intro hzero
      rw [State.wantsToWrite_eq_false.mpr (.inl (List.length_eq_zero_iff.mp hzero))] at hwants
      contradiction
    obtain ⟨size, hsize⟩ := Nat.exists_eq_add_of_lt hsome
    rw [hsize]
    exact whileLoop_of_false hdone

/-- After the first part of an iteration, the outbound stream is full or has ended. -/
structure Ready (stringToSend : List UInt8) (randomIsn : Side → WrappingInt32) (state : State) : Prop
    extends Round stringToSend randomIsn state where
  filled : state.xClosed = false → state.x.connection.remainingOutboundCapacity = 0

/-- The outbound stream of `x` ends when nothing is left to write. -/
theorem Round.closeInput (h : Round stringToSend randomIsn state)
    (hshort : stringToSend.length < 2 ^ 31 - 2) (hdone : state.wantsToWrite = false) :
    Ready stringToSend randomIsn state.closeInput ∧ Wrote state state.closeInput := by
  unfold State.closeInput
  split_ifs with hends
  · obtain ⟨hempty, hopen⟩ := hends
    have hnil : state.bytesToSend.str = [] := List.length_eq_zero_iff.mp hempty
    have hquietly : Quietly state.x.connection
        { state.x.connection.sender with stream := state.x.connection.sender.stream.endInput }
        (state.x.connection.step .endInputStream) :=
      (h.orderly.attentive .client).endInputStream_quietly (h.full hopen)
    refine ⟨⟨?_, nofun⟩, rfl, rfl, _, hquietly⟩
    refine h.quietly nofun trivial hquietly rfl ?_ rfl (fun _ ↦ hnil) hopen hshort
    change (state.x.accepted ++ []) ++ _ = _
    rw [List.append_nil]
    exact h.input
  · refine ⟨⟨h, fun hopen ↦ ?_⟩, wrote_refl state⟩
    refine (State.wantsToWrite_eq_false.mp hdone).resolve_left fun hnil ↦ hends ⟨?_, hopen⟩
    exact List.length_eq_zero_iff.mpr hnil

/-! ## Exchanging segments -/

/-- What comes to `y`. -/
def State.batch (state : State) (reorder : Bool) : List Emission :=
  if reorder then state.x.queue.reverse else state.x.queue

theorem State.mem_batch {reorder : Bool} {emission : Emission} :
    emission ∈ state.batch reorder ↔ emission ∈ state.x.queue := by
  unfold State.batch
  split_ifs
  · exact List.mem_reverse
  · rfl

/-- The segments of `x` have been moved, and those of `y` not yet. -/
def State.halfway (state : State) (reorder : Bool) : State :=
  { state with
    x := (moveSegments state.x state.y reorder).1
    y := (moveSegments state.x state.y reorder).2 }

/-- Moving the segments of `x` is a delivery to `y`. -/
theorem State.network_halfway (state : State) (reorder : Bool) :
    (state.halfway reorder).network = state.network.deliver .server (state.batch reorder) := by
  rw [deliver_eq_update]
  funext side
  cases side with
  | client => rfl
  | server =>
    rw [Function.update_self]
    change run Endpoint.step state.y.toEndpoint _ = run Endpoint.step state.y.toEndpoint _
    rw [List.map_map]
    rfl

/-- And moving those of `y` is one to `x`. -/
theorem State.network_exchange (state : State) (reorder : Bool) :
    (state.exchange reorder).network =
      (state.halfway reorder).network.deliver .client (state.halfway reorder).y.queue := by
  rw [deliver_eq_update]
  funext side
  cases side with
  | client =>
    rw [Function.update_self]
    change run Endpoint.step _ _ = run Endpoint.step _ _
    rw [List.map_map]
    rfl
  | server => rfl

theorem Party.queue_append {source after : Party} {appended : List Emission}
    (hmoved : after.moved = source.moved) (hle : source.moved ≤ source.connection.segmentsOut.length)
    (heq : after.connection.segmentsOut = source.connection.segmentsOut ++ appended) :
    after.queue = source.queue ++ appended := by
  unfold Party.queue
  rw [hmoved, heq, List.drop_append_of_le_length hle]

/-- More segments in the queue do not change what has been moved. -/
theorem Party.Pending.grow {source after : Party} {target : Endpoint} {appended : List Emission}
    (h : source.Pending target) (hmoved : after.moved = source.moved)
    (heq : after.connection.segmentsOut = source.connection.segmentsOut ++ appended) :
    after.Pending target := by
  constructor
  case moved_le =>
    rw [hmoved, heq, List.length_append]
    exact h.moved_le.trans (Nat.le_add_right _ _)
  case seen =>
    intro emission hemission
    rw [Party.queue_append hmoved h.moved_le heq]
    rw [heq] at hemission
    cases List.mem_append.mp hemission with
    | inl hold => exact (h.seen emission hold).imp_left (List.mem_append_left _)
    | inr hnew => exact .inl (List.mem_append_right _ hnew)

/-- The segments of `x` fit into the window of `y`, in whatever order they come. -/
theorem Round.deliverable (h : Round stringToSend randomIsn state) (reorder : Bool) :
    Deliverable state.network .server (state.batch reorder) where
  sent _ hemission := (List.drop_sublist _ _).subset (State.mem_batch.mp hemission)
  heard := h.yHeard.imp_right fun hall _ hemission ↦
    hall _ (State.mem_batch.mp (List.mem_of_mem_head? hemission))
  reached := .inr fun emission hemission ↦ h.lone emission (State.mem_batch.mp hemission)
  edge := h.room

/-- What holds when the segments of `x` have been moved. -/
structure Halfway (randomIsn : Side → WrappingInt32) (batch : List Emission) (before after : State) :
    Prop where
  orderly : Orderly (fun _ ↦ {}) randomIsn after.network
  absorbs : Absorbs before.x.accepted batch before.y.toEndpoint after.y.toEndpoint
  taken : after.y.connection.receiver.absAckno = before.x.connection.sender.nextSeqno
  heard : before.x.connection.receiver.absAckno ≤ after.y.connection.sender.ackno
  seen : ∀ emission ∈ before.x.connection.segmentsOut, Seen after.y.toEndpoint emission

/-- `y` catches up with `x`. -/
theorem Round.halfway (h : Round stringToSend randomIsn state) (reorder : Bool) :
    Halfway randomIsn (state.batch reorder) state (state.halfway reorder) := by
  have hbatch := h.deliverable reorder
  obtain ⟨horderly, hpeer, habsorbs⟩ := h.orderly.deliver hbatch
  have hcaught := h.orderly.caughtUp hbatch fun emission hemission ↦
    (h.xPending.seen emission hemission).imp_left State.mem_batch.mpr
  rw [← State.network_halfway] at horderly hpeer habsorbs hcaught
  exact ⟨horderly, habsorbs, le_antisymm (horderly.reached .client).absAckno_le hcaught.taken,
    hcaught.told, fun _ hsent ↦ hcaught.seen horderly hsent⟩

/-- Until `x` has sent its FIN, the acknowledgments of `y` announce one right edge. -/
theorem Round.acks (h : Round stringToSend randomIsn state) (reorder : Bool)
    (hfin : state.x.connection.sender.fin = false) :
    Acks state.x.connection.sender.ackno (state.halfway reorder).y.connection.receiver.absAckno
      ((state.halfway reorder).y.connection.receiver.absAckno +
        (state.halfway reorder).y.connection.receiver.windowSize) (state.halfway reorder).y.queue := by
  have hhalfway := h.halfway reorder
  have hbefore := h.orderly.equipped .server
  have hcapacity : (state.halfway reorder).y.connection.receiver.reassembler.capacity = 64000 :=
    (hhalfway.orderly.equipped .server).recvCapacity
  have hsound : (state.halfway reorder).y.connection.receiver.Sound :=
    (hhalfway.orderly.equipped .server).sound
  have hacks : Acks state.x.connection.sender.ackno state.y.connection.receiver.absAckno
      (64000 + state.y.connection.receiver.streamOut.byteRead + 1) state.y.queue := by
    have hnone : Acks state.x.connection.sender.ackno state.y.connection.receiver.absAckno
        (64000 + state.y.connection.receiver.streamOut.byteRead + 1) [] := ⟨by simp, .nil⟩
    apply hnone.append h.told.le le_rfl
    intro emission hemission hack
    have hannounces := h.announces emission hemission
    have hopen := hannounces.ack.symm.trans hack
    refine ⟨hannounces.absAckno hopen, ?_⟩
    rw [announced_edge hbefore.sound (hbefore.recvCapacity.trans_le (by decide)) hopen
      ((h.orderly.inbound .server).running hfin) hannounces]
    exact congrArg (· + _ + 1) hbefore.recvCapacity
  have hdelivered := h.orderly.deliver_acks (h.deliverable reorder) (by decide) hfin h.yPending.moved_le
    h.told.le rfl hacks
  rw [← State.network_halfway] at hdelivered
  have hopen : (state.halfway reorder).y.connection.receiver.isn.isSome = true :=
    (hhalfway.orderly.inbound .server).flow.receives.isSome_of_absAckno_pos
      ((h.orderly.next_pos .client).trans_eq hhalfway.taken.symm)
  have hrunning : (state.halfway reorder).y.connection.receiver.reassembler.output.ended = false :=
    (hhalfway.orderly.inbound .server).running hfin
  have hedge : (state.halfway reorder).y.connection.receiver.absAckno +
      (state.halfway reorder).y.connection.receiver.windowSize =
        64000 + state.y.connection.receiver.streamOut.byteRead + 1 := by
    rw [← hhalfway.absorbs.read, hsound.rightEdge_eq, hopen, hrunning, hcapacity]
    rfl
  rw [hedge]
  exact hdelivered

/-- Before it hears the acknowledgments, `x` has bytes enough for the whole window of `y`. -/
theorem Ready.supplies (h : Ready stringToSend randomIsn state) (reorder : Bool)
    (hfin : state.x.connection.sender.fin = false) :
    Supplies (state.halfway reorder).y.connection.receiver.absAckno
      ((state.halfway reorder).y.connection.receiver.absAckno +
        (state.halfway reorder).y.connection.receiver.windowSize) state.x.connection.sender := by
  have hhalfway := h.halfway reorder
  have hsequenced : state.x.connection.sender.Sequenced := (h.orderly.attentive .client).sequenced
  have hdrained : state.x.connection.sender.segmentsOut = [] := (h.orderly.equipped .client).drained
  have htaken := hhalfway.taken
  have hwindow : (state.halfway reorder).y.connection.receiver.windowSize ≤ 64000 :=
    hhalfway.orderly.windowSize_le .server
  constructor
  case sequenced => exact hsequenced
  case inside =>
    exact (h.inside hfin).mono (hhalfway.absorbs.edge_le.trans (le_max_left _ _))
  case waiting => exact fun _ ↦ .inl htaken.ge
  case enough =>
    intro hopen
    have hfull := h.filled (h.closed.symm.trans hopen)
    have hnext := hsequenced.next
    have hsyn : state.x.connection.sender.syn = true := (h.orderly.attentive .client).syn
    have hwritten := hsequenced.valid.written_eq
    have hcapacity : state.x.connection.sender.stream.capacity = 64000 :=
      (h.orderly.equipped .client).sendCapacity
    have hfits := hsequenced.valid.length_le
    rw [remainingOutboundCapacity, hsequenced.valid.remainingCapacity_eq] at hfull
    rw [TCPSender.firstUnsent, hsyn, hfin, ByteStream.bytesRead, Bool.toNat_true, Bool.toNat_false]
      at hnext
    unfold TCPSender.limit
    omega
  case used =>
    intro hopen
    have hfull := h.full (h.closed.symm.trans hopen)
    rw [TCPSender.effectiveWindow_eq] at hfull
    omega
  case carries =>
    refine ⟨fun entry hentry _ _ ↦ ?_, by simp [hdrained]⟩
    rw [htaken]
    exact (hsequenced.outstanding_lt hentry).le

/-- `x` can take what `y` has answered. -/
theorem Round.deliverable_back (h : Round stringToSend randomIsn state) (reorder : Bool) :
    Deliverable (state.halfway reorder).network .client (state.halfway reorder).y.queue := by
  have hhalfway := h.halfway reorder
  obtain ⟨appended, heq⟩ := hhalfway.absorbs.grows
  have hmoved : (state.halfway reorder).y.moved = state.y.moved := rfl
  have hsilent : (state.halfway reorder).y.accepted = [] := hhalfway.absorbs.accepted.trans h.silent
  constructor
  case sent => exact fun _ hemission ↦ (List.drop_sublist _ _).subset hemission
  case heard =>
    refine h.xHeard.imp_right ?_
    rintro ⟨first, rest, hqueue, hsyn⟩ emission hemission
    rw [Party.queue_append hmoved h.yPending.moved_le heq.symm, hqueue, List.cons_append, List.head?_cons,
      Option.mem_some_iff] at hemission
    exact hemission ▸ hsyn
  case reached => exact .inl hsilent
  case edge =>
    -- `y` sends its SYN and its FIN only, and these always fit into the window of `x`.
    have hnext : (state.halfway reorder).y.connection.sender.nextSeqno ≤ 2 := by
      refine (hhalfway.orderly.next_le .server).trans_eq ?_
      change (state.halfway reorder).y.accepted.length + 2 = 2
      rw [hsilent, List.length_nil]
    exact (hnext.trans (by decide)).trans (hhalfway.orderly.recvCapacity_le .client)

/-- What holds when all segments have been moved: both connections have caught up. -/
structure Exchanged (randomIsn : Side → WrappingInt32) (reorder : Bool) (before after : State) :
    Prop where
  orderly : Orderly (fun _ ↦ {}) randomIsn after.network
  xAbsorbs : ∃ batch, Absorbs [] batch before.x.toEndpoint after.x.toEndpoint
  yAbsorbs : ∃ batch, Absorbs before.x.accepted batch before.y.toEndpoint after.y.toEndpoint
  xMoved : after.x.moved = before.x.connection.segmentsOut.length
  yMoved : after.y.moved = after.y.connection.segmentsOut.length
  seenByX : ∀ emission ∈ after.y.connection.segmentsOut, Seen after.x.toEndpoint emission
  seenByY : ∀ emission ∈ before.x.connection.segmentsOut, Seen after.y.toEndpoint emission
  taken : after.y.connection.receiver.absAckno = before.x.connection.sender.nextSeqno
  told : after.x.connection.sender.ackno = after.y.connection.receiver.absAckno
  heard : before.x.connection.receiver.absAckno ≤ after.y.connection.sender.ackno
  behind : after.y.connection.sender.nextSeqno ≤ after.x.connection.receiver.absAckno
  lone : ∀ emission ∈ after.x.queue, LoneFinReached after.y.connection.receiver.absAckno
    emission.absSeqno emission.segment
  outstanding : ∀ entry ∈ after.x.connection.sender.outstandingSegment,
    LoneFinReached after.y.connection.receiver.absAckno entry.1 entry.2
  supplies : before.x.connection.sender.fin = false →
    Supplies after.y.connection.receiver.absAckno
      (after.y.connection.receiver.absAckno + after.y.connection.receiver.windowSize)
      after.x.connection.sender
  xAnswers : before.x.connection.sender.fin = true →
    OnlyAnswers (after.y.connection.segmentsOut.drop before.y.moved) before.x.toEndpoint after.x.toEndpoint
  yAnswers : before.y.connection.sender.fin = true →
    OnlyAnswers (before.batch reorder) before.y.toEndpoint after.y.toEndpoint

/-- What `x` sends in return, before its FIN and after it. -/
theorem Ready.sends (h : Ready stringToSend randomIsn state) (reorder : Bool) :
    (∀ emission ∈ (state.exchange reorder).x.queue,
        LoneFinReached (state.halfway reorder).y.connection.receiver.absAckno
          emission.absSeqno emission.segment) ∧
      (state.x.connection.sender.fin = false →
        Supplies (state.halfway reorder).y.connection.receiver.absAckno
          ((state.halfway reorder).y.connection.receiver.absAckno +
            (state.halfway reorder).y.connection.receiver.windowSize)
          (state.exchange reorder).x.connection.sender) ∧
      (state.x.connection.sender.fin = true → OnlyAnswers (state.halfway reorder).y.queue
        state.x.toEndpoint (state.exchange reorder).x.toEndpoint) := by
  have hhalfway := h.halfway reorder
  have hbatch := h.deliverable_back reorder
  cases hfin : state.x.connection.sender.fin with
  | false =>
    have hsupplies := hhalfway.orderly.deliver_supplies hbatch le_rfl (h.supplies reorder hfin)
      (h.acks reorder hfin) (by simp)
    rw [← State.network_exchange] at hsupplies
    exact ⟨hsupplies.2, fun _ ↦ hsupplies.1, nofun⟩
  | true =>
    have hanswers := hhalfway.orderly.deliver_onlyAnswers hbatch hfin
    rw [← State.network_exchange] at hanswers
    refine ⟨fun emission hemission hset ↦ ?_, nofun, fun _ ↦ hanswers⟩
    obtain ⟨appended, heq, hbare, -⟩ := hanswers.bare
    have hqueue : (state.exchange reorder).x.queue = appended :=
      (congrArg (List.drop _) heq).trans List.drop_left
    rw [hqueue] at hemission
    rw [(TCPSegment.flags_of_length_eq_zero (hbare emission hemission)).2.1] at hset
    contradiction

/-- And `x` catches up with `y`. -/
theorem Ready.exchanged (h : Ready stringToSend randomIsn state) (reorder : Bool) :
    Exchanged randomIsn reorder state (state.exchange reorder) := by
  have hhalfway := h.halfway reorder
  have hsilent : (state.halfway reorder).y.accepted = [] := hhalfway.absorbs.accepted.trans h.silent
  have hbatch := h.deliverable_back reorder
  obtain ⟨appended, heq⟩ := hhalfway.absorbs.grows
  have hpending : (state.halfway reorder).y.Pending state.x.toEndpoint :=
    h.yPending.grow rfl heq.symm
  have hcaught := hhalfway.orderly.caughtUp hbatch hpending.seen
  obtain ⟨horderly, -, habsorbs⟩ := hhalfway.orderly.deliver hbatch
  rw [← State.network_exchange] at horderly habsorbs hcaught
  change Absorbs (state.halfway reorder).y.accepted _ _ _ at habsorbs
  rw [hsilent] at habsorbs
  obtain ⟨hlone, hsupplies, hfinished⟩ := h.sends reorder
  constructor
  case orderly => exact horderly
  case xAbsorbs => exact ⟨_, habsorbs⟩
  case yAbsorbs => exact ⟨_, hhalfway.absorbs⟩
  case xMoved => rfl
  case yMoved => rfl
  case seenByX => exact fun _ hsent ↦ hcaught.seen horderly hsent
  case seenByY => exact hhalfway.seen
  case taken => exact hhalfway.taken
  case told => exact le_antisymm (horderly.reached .client).acknowledged.ackno_le hcaught.told
  case heard => exact hhalfway.heard
  case behind => exact hcaught.taken
  case lone => exact hlone
  case outstanding =>
    cases hfin : state.x.connection.sender.fin with
    | false => exact (hsupplies hfin).carries.outstanding
    | true =>
      intro entry hentry _ _
      have hlt := (horderly.attentive .client).sequenced.outstanding_lt hentry
      exact (hlt.le.trans_eq (hfinished hfin).next).trans_eq hhalfway.taken.symm
  case supplies => exact hsupplies
  case xAnswers => exact hfinished
  case yAnswers =>
    intro hfin
    have hanswers := h.orderly.deliver_onlyAnswers (h.deliverable reorder) hfin
    rwa [← State.network_halfway] at hanswers

end Sponge.TcpBenchmark
