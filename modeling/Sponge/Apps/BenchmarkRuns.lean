import Sponge.Apps.BenchmarkTurns
import Sponge.TCP.Shutdown

/-!
# The benchmark program comes to its end

Each round acknowledges something new, until both connections have sent their FIN and everything is
acknowledged.  By then `y` has come to the end of its inbound stream.  Two rounds later nothing is on its
way any more, and ten seconds of silence end both connections.
-/

namespace Sponge.TcpBenchmark

open Execution TCPConnection TCPReceiver Network

variable {stringToSend : List UInt8} {randomIsn : Side → WrappingInt32} {state after : State}
  {reorder : Bool} {count : ℕ}

/-! ## The start -/

/-- A connection that has sent its SYN, and nothing else. -/
def opened (isn : WrappingInt32) (ended : Bool) : TCPConnection where
  cfg := {}
  receiver := .new 64000
  sender :=
    { isn
      initialRetransmissionTimeout := 1000
      stream := { ByteStream.new 64000 with ended }
      nextSeqno := 1
      bytesInFlight := 1
      rto := 1000
      outstandingSegment := [(0, { header := { seqno := wrap 0 isn, syn := true } })]
      timer := ⟨1000, false, false⟩
      syn := true }
  segmentsOut := [⟨{ header := { seqno := wrap 0 isn, syn := true } }, .first, 0, 0⟩]

/-- There is room for one number in the window of a new connection, so its SYN is sent alone. -/
theorem fillWindow_new (isn : WrappingInt32) (ended : Bool) :
    { TCPSender.new 64000 1000 none isn with
      stream := { ByteStream.new 64000 with ended } }.fillWindow =
      { (opened isn ended).sender with segmentsOut := (opened isn ended).segmentsOut } := by
  cases ended <;> rfl

theorem connect_new (isn : WrappingInt32) : (TCPConnection.new {} isn).connect = opened isn false := by
  have hlisten : (TCPConnection.new {} isn).listen = true := rfl
  have hsender : (TCPConnection.new {} isn).sender = { TCPSender.new 64000 1000 none isn with
      stream := { ByteStream.new 64000 with ended := false } } := rfl
  rw [TCPConnection.connect, if_pos hlisten, hsender, fillWindow_new]
  rfl

theorem endInputStream_new (isn : WrappingInt32) :
    (TCPConnection.new {} isn).endInputStream = opened isn true := by
  have hsender : { (TCPConnection.new {} isn).sender with
      stream := (TCPConnection.new {} isn).sender.stream.endInput } =
        { TCPSender.new 64000 1000 none isn with
          stream := { ByteStream.new 64000 with ended := true } } := rfl
  rw [TCPConnection.endInputStream, hsender, fillWindow_new]
  rfl

theorem start_eq (stringToSend : List UInt8) (randomIsn : Side → WrappingInt32) :
    start stringToSend randomIsn =
      { x := { connection := opened (randomIsn .client) false }
        y := { connection := opened (randomIsn .server) true }
        bytesToSend := .ofString stringToSend } := by
  rw [← connect_new, ← endInputStream_new]
  rfl

/-- A connection that has sent its SYN is talking. -/
theorem talking_opened (isn : WrappingInt32) (ended : Bool)
    (hsequenced : (opened isn ended).sender.Sequenced) : Talking {} (opened isn ended) where
  launched := by
    have hnothing : ∀ emission ∈ (opened isn ended).sender.segmentsOut,
        emission.segment.header.syn = true → emission.segment.lengthInSequenceSpace = 1 :=
      fun _ hemission ↦ absurd hemission List.not_mem_nil
    refine ⟨hsequenced, rfl, ⟨?_, hnothing⟩, ?_, fun number hlt ↦ ?_⟩
    · intro entry hentry _
      rw [List.mem_singleton.mp hentry]
      rfl
    · intro emission hemission _
      rw [List.mem_singleton.mp hemission]
      rfl
    · exact ⟨_, List.mem_cons_self, Nat.zero_le _, hlt⟩
  clear := rfl
  tries_le := by
    change 0 ≤ TCPConfig.maxRetxAttempts
    decide
  cfg_eq := rfl
  time_le := le_rfl
  unreset emission hemission := by rw [List.mem_singleton.mp hemission]
  announced := nofun

/-- The calls before the first loop. -/
def openingCalls : List (Side × Call) := [(.client, .connect), (.server, .endInputStream)]

theorem network_start (stringToSend : List UInt8) (randomIsn : Side → WrappingInt32) :
    run Network.step (Network.start (fun _ ↦ {}) randomIsn) openingCalls =
      (start stringToSend randomIsn).network := by
  funext side
  cases side <;> rfl

/-- The conversation begins in order. -/
theorem orderly_start (stringToSend : List UInt8) (randomIsn : Side → WrappingInt32) :
    Orderly (fun _ ↦ {}) randomIsn (start stringToSend randomIsn).network := by
  have hnetwork := network_start stringToSend randomIsn
  rw [start_eq] at hnetwork ⊢
  have hadmissible : Admissible Network.step Legal (Network.start (fun _ ↦ {}) randomIsn) openingCalls :=
    ⟨⟨trivial, trivial⟩, ⟨trivial, trivial⟩, trivial⟩
  have hleads : Leads Network.step Legal (Network.start (fun _ ↦ {}) randomIsn) _ :=
    ⟨openingCalls, hadmissible, hnetwork⟩
  have hequipped := equipped_of_leads hleads
  constructor
  case leads => exact hleads
  case short =>
    have hnone : ([] : List UInt8).length < 2 ^ 31 - 2 := by decide
    intro side
    cases side with
    | client | server => exact hnone
  case ending =>
    intro side
    have hcalls : Admissible Network.step (fun network action ↦ Arrives FinRecovers network action ∧
        Network.WritesBeforeEnd network action) (Network.start (fun _ ↦ {}) randomIsn) openingCalls :=
      ⟨⟨trivial, trivial⟩, ⟨trivial, trivial⟩, trivial⟩
    have hending := ending_run hcalls side
    rwa [hnetwork] at hending
  case talking =>
    intro side
    cases side with
    | client => exact talking_opened (randomIsn .client) false (hequipped .client).alert.sequenced
    | server => exact talking_opened (randomIsn .server) true (hequipped .server).alert.sequenced

/-- The first round can begin. -/
theorem round_start (stringToSend : List UInt8) (randomIsn : Side → WrappingInt32) :
    Round stringToSend randomIsn (start stringToSend randomIsn) := by
  have horderly := orderly_start stringToSend randomIsn
  rw [start_eq] at horderly ⊢
  have hsyn {isn : WrappingInt32} {ended : Bool} {emission : Emission}
      (hemission : emission ∈ (opened isn ended).segmentsOut) :
      emission.segment.header.syn = true ∧ emission.segment.header.fin = false ∧
        Announces (TCPReceiver.new 64000) emission := by
    rw [List.mem_singleton.mp hemission]
    exact ⟨rfl, rfl, rfl, rfl, nofun, nofun⟩
  have hroom : 1 ≤ (TCPReceiver.new 64000).absAckno + (TCPReceiver.new 64000).windowSize := by decide
  have htries : (0 : UInt32) ≤ 1 := by decide
  constructor
  case orderly => exact horderly
  case input => exact Buffer.str_ofString stringToSend
  case nothingLeft => nofun
  case closed | silent | ended | read | told => rfl
  case xPending | yPending => exact ⟨Nat.zero_le _, fun _ ↦ .inl⟩
  case yHeard => exact .inr fun _ hemission ↦ (hsyn hemission).1
  case xHeard => exact .inr ⟨_, [], rfl, rfl⟩
  case lone =>
    intro _ hemission hset
    exact absurd hset (Bool.eq_false_iff.mp (hsyn hemission).2.1)
  case announces => exact fun _ hemission ↦ (hsyn hemission).2.2
  case behind => nofun
  case room => exact hroom
  case inside => exact fun _ ↦ ⟨(horderly.attentive .client).sequenced.valid, le_rfl, hroom, hroom⟩
  case full => exact fun _ ↦ le_rfl
  case xTries | yTries => exact htries
  case opening => exact fun _ ↦ ⟨rfl, rfl⟩

/-! ## One iteration -/

/-- What one iteration of the loop does. -/
def Iterated (stringToSend : List UInt8) (randomIsn : Side → WrappingInt32) (reorder : Bool)
    (before after : State) : Prop :=
  ∃ written, Wrote before written ∧ Ready stringToSend randomIsn written ∧
    Turned randomIsn reorder written after

/-- Each iteration leads from one round to the next. -/
theorem Round.loop (h : Round stringToSend randomIsn state) (hshort : stringToSend.length < 2 ^ 31 - 2)
    (reorder : Bool) :
    ∃ after, state.loop reorder = .ok after ∧ Round stringToSend randomIsn after ∧
      Iterated stringToSend randomIsn reorder state after := by
  obtain ⟨written, hwrite, hround, hwrote, hdone⟩ := h.writeInput hshort
  obtain ⟨hready, hclosed⟩ := hround.closeInput hshort hdone
  have hturned := hready.turned reorder
  refine ⟨written.closeInput.turn reorder, ?_, hturned.round hready, _, hwrote.trans hclosed, hready,
    hturned⟩
  rw [State.loop, hwrite]
  rfl

/-! ## Progress -/

/-- Both connections have sent their FIN, and everything is acknowledged. -/
structure Done (state : State) : Prop where
  xFin : state.x.connection.sender.fin = true
  yFin : state.y.connection.sender.fin = true
  xAll : state.x.connection.sender.ackno = state.x.connection.sender.nextSeqno
  yAll : state.y.connection.sender.ackno = state.y.connection.sender.nextSeqno

/-- How much has been acknowledged in both directions. -/
def State.acknowledged (state : State) : ℕ :=
  state.x.connection.sender.ackno + state.y.connection.sender.ackno

/-- There are as many numbers to acknowledge as bytes, two SYNs and two FINs. -/
theorem Round.acknowledged_le (h : Round stringToSend randomIsn state) :
    state.acknowledged ≤ stringToSend.length + 4 := by
  have hx := (h.orderly.attentive .client).sequenced.ackno_le.trans (h.orderly.next_le .client)
  have hy := (h.orderly.attentive .server).sequenced.ackno_le.trans (h.orderly.next_le .server)
  change state.x.connection.sender.ackno ≤ state.x.accepted.length + 2 at hx
  change state.y.connection.sender.ackno ≤ state.y.accepted.length + 2 at hy
  have hinput := congrArg List.length h.input
  rw [List.length_append] at hinput
  rw [h.silent, List.length_nil] at hy
  unfold State.acknowledged
  omega

/-- A round in which nothing new is acknowledged has nothing left to do. -/
theorem Ready.done_or_lt (h : Ready stringToSend randomIsn state)
    (hturned : Turned randomIsn reorder state after) :
    Done state ∨ state.acknowledged < after.acknowledged := by
  have hxLe : state.x.connection.sender.ackno ≤ state.x.connection.sender.nextSeqno :=
    (h.orderly.attentive .client).sequenced.ackno_le
  have hyLe : state.y.connection.sender.ackno ≤ state.y.connection.sender.nextSeqno :=
    (h.orderly.attentive .server).sequenced.ackno_le
  have hxPos : 0 < state.x.connection.sender.nextSeqno := h.orderly.next_pos .client
  have hxAlert : state.x.connection.sender.Alert := (h.orderly.equipped .client).alert
  have hyAlert : state.y.connection.sender.Alert := (h.orderly.equipped .server).alert
  obtain ⟨_, habsorbs⟩ := hturned.exchanged.yAbsorbs
  obtain ⟨_, _, _, hxSender⟩ := hturned.x.sender
  obtain ⟨_, _, _, hySender⟩ := hturned.y.sender
  have hxAfter : after.x.connection.sender.ackno = state.x.connection.sender.nextSeqno := by
    rw [hxSender]
    exact hturned.exchanged.told.trans hturned.exchanged.taken
  have hyAfter : state.y.connection.sender.ackno ≤ after.y.connection.sender.ackno ∧
      state.x.connection.receiver.absAckno ≤ after.y.connection.sender.ackno := by
    rw [hySender]
    exact ⟨habsorbs.ackno_le, hturned.exchanged.heard⟩
  by_cases hlt : state.acknowledged < after.acknowledged
  · exact .inr hlt
  left
  unfold State.acknowledged at hlt
  have hxAll : state.x.connection.sender.ackno = state.x.connection.sender.nextSeqno := by omega
  have hopen : state.x.connection.receiver.isn.isSome = true := by
    by_contra hnone
    have hzero := (h.opening (Option.not_isSome_iff_eq_none.mp hnone)).1
    omega
  have hbehind := h.behind hopen
  have hyAll : state.y.connection.sender.ackno = state.y.connection.sender.nextSeqno := by omega
  have hxIdle := hxAlert.idle (hxAlert.sequenced.eq_nil_iff.mpr hxAll)
  have hyIdle := hyAlert.idle (hyAlert.sequenced.eq_nil_iff.mpr hyAll)
  refine ⟨hxIdle.2 ?_, hyIdle.2 h.ended, hxAll, hyAll⟩
  -- As long as the stream goes on, the window is full, so something is outstanding.
  rw [h.closed]
  by_contra hclosed
  have hfull := h.full (Bool.eq_false_iff.mpr hclosed)
  rw [TCPSender.effectiveWindow_eq] at hfull
  omega

theorem Wrote.sender (h : Wrote state after) : ∃ stream, after.x.connection.sender =
    { state.x.connection.sender with stream } := by
  obtain ⟨stream, _, _, heq⟩ := h.quietly
  exact ⟨stream, congrArg TCPConnection.sender heq⟩

theorem Wrote.acknowledged (h : Wrote state after) : after.acknowledged = state.acknowledged := by
  obtain ⟨_, heq⟩ := h.sender
  unfold State.acknowledged
  rw [h.y, heq]

theorem Wrote.done_iff (h : Wrote state after) : Done after ↔ Done state := by
  obtain ⟨_, heq⟩ := h.sender
  constructor
  · rintro ⟨hxFin, hyFin, hxAll, hyAll⟩
    rw [heq] at hxFin hxAll
    rw [h.y] at hyFin hyAll
    exact ⟨hxFin, hyFin, hxAll, hyAll⟩
  · rintro ⟨hxFin, hyFin, hxAll, hyAll⟩
    refine ⟨?_, h.y ▸ hyFin, ?_, h.y ▸ hyAll⟩
    · rw [heq]
      exact hxFin
    · rw [heq]
      exact hxAll

/-- What is done stays done. -/
theorem Turned.done (h : Turned randomIsn reorder state after) (hdone : Done state) :
    Done (state.exchange reorder) ∧ Done after := by
  have hx := h.exchanged.xAnswers hdone.xFin
  have hy := h.exchanged.yAnswers hdone.yFin
  obtain ⟨_, habsorbs⟩ := h.exchanged.yAbsorbs
  obtain ⟨_, _, _, hxSender⟩ := h.x.sender
  obtain ⟨_, _, _, hySender⟩ := h.y.sender
  have hmiddle : Done (state.exchange reorder) := by
    refine ⟨hx.fin, hy.fin, ?_, le_antisymm ?_ ?_⟩
    · exact (h.exchanged.told.trans h.exchanged.taken).trans hx.next.symm
    · exact (h.exchanged.orderly.attentive .server).sequenced.ackno_le
    · exact (hy.next.trans hdone.yAll.symm).trans_le habsorbs.ackno_le
  refine ⟨hmiddle, ?_⟩
  obtain ⟨hxFin, hyFin, hxAll, hyAll⟩ := hmiddle
  constructor
  case xFin | xAll => rw [hxSender]; assumption
  case yFin | yAll => rw [hySender]; assumption

/-! ## The end of the streams -/

/-- At the end of the inbound stream of `y`, the whole string has been received. -/
theorem Round.received (h : Round stringToSend randomIsn state)
    (hended : state.y.connection.receiver.streamOut.ended = true) :
    state.stringReceived = stringToSend := by
  have hinbound := h.orderly.inbound .server
  obtain ⟨hfin, -, hwhole⟩ := hinbound.ends.assembled hinbound.flow.receives hended
  have hclosed := h.closed.symm.trans (hinbound.concludes.sequenced.finished hfin).1
  change state.y.delivered ++ state.y.connection.receiver.streamOut.contents = state.x.accepted at hwhole
  have hinput := h.input
  rw [h.nothingLeft hclosed, List.append_nil, ← hwhole, h.read, List.append_nil] at hinput
  exact hinput

/-- The end stays the end. -/
theorem Turned.ended (h : Turned randomIsn reorder state after)
    (hready : Ready stringToSend randomIsn state)
    (hended : state.y.connection.receiver.streamOut.ended = true) :
    after.y.connection.receiver.streamOut.ended = true := by
  have hinbound := hready.orderly.inbound .server
  have hanswers := h.exchanged.xAnswers (hinbound.ends.assembled hinbound.flow.receives hended).1
  obtain ⟨_, _, _, hsender⟩ := h.x.sender
  have hfin : after.x.connection.sender.fin = true := by
    rw [hsender]
    exact hanswers.fin
  have htaken : after.x.connection.sender.nextSeqno ≤ after.y.connection.receiver.absAckno := by
    rw [hsender, h.y.absAckno, h.exchanged.taken]
    exact hanswers.next.le
  exact h.orderly.ended_of_fin .server hfin htaken

/-- At the end `y` has taken the FIN of `x`. -/
theorem Done.yEnded (h : Done state) (hround : Round stringToSend randomIsn state) :
    state.y.connection.receiver.streamOut.ended = true := by
  have htaken : state.x.connection.sender.nextSeqno ≤ state.y.connection.receiver.absAckno :=
    (h.xAll.symm.trans hround.told).le
  exact hround.orderly.ended_of_fin .server h.xFin htaken

/-- And `x` has taken that of `y`. -/
theorem Done.xEnded (h : Done state) (hround : Round stringToSend randomIsn state) :
    state.x.connection.receiver.streamOut.ended = true := by
  have hopen : state.x.connection.receiver.isn.isSome = true := by
    by_contra hnone
    have hzero := (hround.opening (Option.not_isSome_iff_eq_none.mp hnone)).1
    rw [h.xAll] at hzero
    exact (hround.orderly.next_pos .client).ne' hzero
  exact hround.orderly.ended_of_fin .client h.yFin (hround.behind hopen)

/-! ## Silence -/

/-- With everything acknowledged, a tick sends nothing. -/
theorem Turned.xQueue (h : Turned randomIsn reorder state after) (hdone : Done state) :
    after.x.queue = (state.exchange reorder).x.queue := by
  have hsequenced : (state.exchange reorder).x.connection.sender.Sequenced :=
    (h.exchanged.orderly.attentive .client).sequenced
  obtain ⟨-, again, hqueue, hagain⟩ := h.xPending
  have hnone : again = [] := by
    rw [List.eq_nil_iff_forall_not_mem]
    intro emission hemission
    obtain ⟨entry, hentry, -⟩ := hagain emission hemission
    rw [hsequenced.eq_nil_iff.mpr (h.done hdone).1.xAll] at hentry
    exact absurd hentry List.not_mem_nil
  rw [hqueue, hnone, List.append_nil]

theorem Turned.yQueue (h : Turned randomIsn reorder state after) (hdone : Done state) :
    after.y.queue = [] := by
  have hsequenced : (state.exchange reorder).y.connection.sender.Sequenced :=
    (h.exchanged.orderly.attentive .server).sequenced
  exact h.yPending.2.2 (hsequenced.eq_nil_iff.mpr (h.done hdone).1.yAll)

/-- In the next round `x` only sends bare segments. -/
theorem Turned.bare (h : Turned randomIsn reorder state after) (hdone : Done state) :
    ∀ emission ∈ after.x.queue, emission.segment.lengthInSequenceSpace = 0 := by
  obtain ⟨appended, heq, hbare, -⟩ := (h.exchanged.xAnswers hdone.xFin).bare
  rw [h.xQueue hdone, Party.queue, h.exchanged.xMoved, heq, List.drop_left]
  exact hbare

/-- And then nothing is sent any more. -/
theorem Turned.silent (h : Turned randomIsn reorder state after)
    (hready : Ready stringToSend randomIsn state) (hdone : Done state)
    (hx : ∀ emission ∈ state.x.queue, emission.segment.lengthInSequenceSpace = 0)
    (hy : state.y.queue = []) : after.x.queue = [] := by
  obtain ⟨appended, heq, -, hnone⟩ := (h.exchanged.yAnswers hdone.yFin).bare
  have hquiet := hnone (hdone.yEnded hready.toRound) fun emission hemission ↦
    hx emission (State.mem_batch.mp hemission)
  rw [hquiet, List.append_nil] at heq
  obtain ⟨appended', heq', -, hnone'⟩ := (h.exchanged.xAnswers hdone.xFin).bare
  have hquiet' := hnone' (hdone.xEnded hready.toRound) (by
    rw [heq]
    change ∀ emission ∈ state.y.queue, _
    simp [hy])
  rw [h.xQueue hdone, Party.queue, h.exchanged.xMoved, heq', hquiet', List.drop_left]

/-- Nothing is on its way, and nothing has come for some seconds. -/
structure Quiet (count : ℕ) (state : State) : Prop where
  done : Done state
  xQueue : state.x.queue = []
  yQueue : state.y.queue = []
  xTime : 1000 * count ≤ state.x.connection.timeSinceLastSegmentReceived
  yTime : 1000 * count ≤ state.y.connection.timeSinceLastSegmentReceived

/-- With empty queues nothing is exchanged. -/
theorem State.exchange_of_empty (hx : state.x.queue = []) (hy : state.y.queue = []) (reorder : Bool) :
    (state.exchange reorder).x.toEndpoint = state.x.toEndpoint ∧
      (state.exchange reorder).y.toEndpoint = state.y.toEndpoint := by
  have hforth : (moveSegments state.x state.y reorder).2 = state.y := by
    unfold moveSegments
    rw [hx, List.reverse_nil, ite_self]
    rfl
  have hback (x : Party) : (moveSegments state.y x false).2 = x := by
    unfold moveSegments
    rw [if_neg Bool.false_ne_true, hy]
    rfl
  unfold State.exchange
  dsimp only
  rw [hforth, hback]
  exact ⟨rfl, rfl⟩

theorem Wrote.quiet (h : Wrote state after) (hquiet : Quiet count state) : Quiet count after := by
  obtain ⟨_, _, _, heq⟩ := h.quietly
  refine ⟨h.done_iff.mpr hquiet.done, ?_, h.y ▸ hquiet.yQueue, ?_, h.y ▸ hquiet.yTime⟩
  · rw [Party.queue, h.moved, heq]
    exact hquiet.xQueue
  · rw [heq]
    exact hquiet.xTime

/-- One of the connections in a quiet round. -/
theorem Rests.quiet {before middle after : Party} (h : Rests middle after)
    (hmiddle : middle.toEndpoint = before.toEndpoint) (htalking : Talking {} before.connection)
    (htime : 1000 * count ≤ before.connection.timeSinceLastSegmentReceived) :
    1000 * (count + 1) ≤ after.connection.timeSinceLastSegmentReceived := by
  have hle := htalking.time_le
  have hnow := h.nowTime
  have hreceived := h.received
  rw [hmiddle] at hnow hreceived
  rw [timeSinceLastSegmentReceived, Word.sub_of_le hle] at htime
  rw [timeSinceLastSegmentReceived, hnow, hreceived, Word.sub_of_le (hle.trans (Nat.le_add_right _ _))]
  omega

/-- A connection that has taken the FIN of its peer, and whose own FIN is acknowledged, is in TIME_WAIT. -/
theorem timeWait_of_all {connection : TCPConnection} (h : connection.sender.Sequenced)
    (hended : connection.receiver.streamOut.ended = true) (hfin : connection.sender.fin = true)
    (hall : connection.sender.ackno = connection.sender.nextSeqno) : connection.timeWait = true :=
  finished_iff.mp ⟨hended, h.valid.eof_iff.mpr (h.finished hfin), h.next_of_fin hfin,
    h.bytesInFlight_eq_zero_iff.mpr hall⟩

/-- A quiet round is followed by another one. -/
theorem Turned.quiet (h : Turned randomIsn reorder state after)
    (hready : Ready stringToSend randomIsn state) (hquiet : Quiet count state) :
    Quiet (count + 1) after := by
  obtain ⟨hx, hy⟩ := State.exchange_of_empty hquiet.xQueue hquiet.yQueue reorder
  constructor
  case done => exact (h.done hquiet.done).2
  case xQueue => exact h.silent hready hquiet.done (by simp [hquiet.xQueue]) hquiet.yQueue
  case yQueue => exact h.yQueue hquiet.done
  case xTime => exact h.x.quiet hx (hready.orderly.talking .client) hquiet.xTime
  case yTime => exact h.y.quiet hy (hready.orderly.talking .server) hquiet.yTime

/-- After ten seconds of silence both connections are over. -/
theorem Turned.inactive (h : Turned randomIsn reorder state after)
    (hround : Round stringToSend randomIsn after) (hquiet : Quiet 10 after) :
    after.x.connection.active = false ∧ after.y.connection.active = false := by
  have hdone := hquiet.done
  constructor
  · apply h.x.closes ?_ hquiet.xTime
    exact timeWait_of_all (hround.orderly.attentive .client).sequenced (hdone.xEnded hround) hdone.xFin
      hdone.xAll
  · apply h.y.closes ?_ hquiet.yTime
    exact timeWait_of_all (hround.orderly.attentive .server).sequenced (hdone.yEnded hround) hdone.yFin
      hdone.yAll

/-! ## Whole runs -/

/-- The states between the iterations. -/
structure Rounds (stringToSend : List UInt8) (randomIsn : Side → WrappingInt32) (reorder : Bool)
    (states : ℕ → State) : Prop where
  start : states 0 = start stringToSend randomIsn
  round : ∀ count, Round stringToSend randomIsn (states count)
  loop : ∀ count, (states count).loop reorder = .ok (states (count + 1))
  iterated : ∀ count, Iterated stringToSend randomIsn reorder (states count) (states (count + 1))

/-- No iteration throws an exception. -/
theorem exists_rounds (hshort : stringToSend.length < 2 ^ 31 - 2) (randomIsn : Side → WrappingInt32)
    (reorder : Bool) : ∃ states, Rounds stringToSend randomIsn reorder states := by
  obtain ⟨states, hstart, hall⟩ := exists_iterations (Round stringToSend randomIsn)
    (Iterated stringToSend randomIsn reorder) (round_start stringToSend randomIsn)
    fun _ hround ↦ hround.loop hshort reorder
  exact ⟨states, hstart, fun count ↦ (hall count).1, fun count ↦ (hall count).2.1,
    fun count ↦ (hall count).2.2⟩

namespace Rounds

variable {states : ℕ → State} (h : Rounds stringToSend randomIsn reorder states)
include h

/-- Everything is done after at most as many rounds as there are numbers to acknowledge. -/
theorem exists_done : ∃ count ≤ stringToSend.length + 4, Done (states count) := by
  by_contra hnone
  have hgrows (count : ℕ) (hle : count ≤ stringToSend.length + 5) :
      count ≤ (states count).acknowledged := by
    induction count with
    | zero => exact Nat.zero_le _
    | succ count ih =>
      obtain ⟨written, hwrote, hready, hturned⟩ := h.iterated count
      have hmore := (hready.done_or_lt hturned).resolve_left fun hdone ↦
        hnone ⟨count, by omega, hwrote.done_iff.mp hdone⟩
      rw [hwrote.acknowledged] at hmore
      exact (ih (by omega)).trans_lt hmore
  have hbound := (h.round (stringToSend.length + 5)).acknowledged_le
  have hlast := hgrows _ le_rfl
  omega

/-- One round later, all that is on its way are bare segments of `x`. -/
theorem done_succ {count : ℕ} (hdone : Done (states count)) :
    Done (states (count + 1)) ∧ (states (count + 1)).y.queue = [] ∧
      ∀ emission ∈ (states (count + 1)).x.queue, emission.segment.lengthInSequenceSpace = 0 := by
  obtain ⟨written, hwrote, -, hturned⟩ := h.iterated count
  have hwritten := hwrote.done_iff.mpr hdone
  exact ⟨(hturned.done hwritten).2, hturned.yQueue hwritten, hturned.bare hwritten⟩

/-- Two rounds later nothing is on its way. -/
theorem quiet_of_done {count : ℕ} (hdone : Done (states count)) : Quiet 0 (states (count + 2)) := by
  obtain ⟨hnext, hyQueue, hbare⟩ := h.done_succ hdone
  obtain ⟨hlast, hyLast, -⟩ := h.done_succ hnext
  obtain ⟨written, hwrote, hready, hturned⟩ := h.iterated (count + 1)
  have hxQueue : written.x.queue = (states (count + 1)).x.queue := by
    obtain ⟨_, _, _, heq⟩ := hwrote.quietly
    rw [Party.queue, Party.queue, hwrote.moved, heq]
  refine ⟨hlast, ?_, hyLast, Nat.zero_le _, Nat.zero_le _⟩
  exact hturned.silent hready (hwrote.done_iff.mpr hnext) (hxQueue ▸ hbare) (hwrote.y ▸ hyQueue)

/-- It stays quiet. -/
theorem quiet_add {first : ℕ} (hquiet : Quiet 0 (states first)) (count : ℕ) :
    Quiet count (states (first + count)) := by
  induction count with
  | zero => exact hquiet
  | succ count ih =>
    obtain ⟨written, hwrote, hready, hturned⟩ := h.iterated (first + count)
    exact hturned.quiet hready (hwrote.quiet ih)

/-- Twelve rounds later both connections are over. -/
theorem inactive_of_done {count : ℕ} (hdone : Done (states count)) :
    (states (count + 12)).active = false := by
  have hquiet : Quiet 10 (states (count + 12)) := h.quiet_add (h.quiet_of_done hdone) 10
  obtain ⟨written, -, -, hturned⟩ := h.iterated (count + 11)
  exact Bool.or_eq_false_iff.mpr (hturned.inactive (h.round _) hquiet)

/-- `y` stays at the end of its inbound stream. -/
theorem ended_add {first : ℕ}
    (hended : (states first).y.connection.receiver.streamOut.ended = true) (count : ℕ) :
    (states (first + count)).y.connection.receiver.streamOut.ended = true := by
  induction count with
  | zero => exact hended
  | succ count ih =>
    obtain ⟨written, hwrote, hready, hturned⟩ := h.iterated (first + count)
    exact hturned.ended hready (hwrote.y ▸ ih)

end Rounds

/-- The first loop ends exactly when `y` has the whole string. -/
theorem Round.receiving_eq_false_iff (h : Round stringToSend randomIsn state) :
    state.receiving = false ↔ state.y.connection.receiver.streamOut.ended = true := by
  have hvalid : state.y.connection.receiver.streamOut.Valid :=
    (h.orderly.equipped .server).sound.consistent.assembling.valid
  rw [State.receiving, inboundStream, Bool.not_eq_false', hvalid.eof_iff]
  exact and_iff_left h.read

/-- With enough fuel both loops come to their end. -/
theorem exists_mainLoop (hshort : stringToSend.length < 2 ^ 31 - 2) (randomIsn : Side → WrappingInt32)
    (reorder : Bool) {fuel : ℕ} (hfuel : stringToSend.length + 17 ≤ fuel) :
    ∃ final, mainLoop reorder stringToSend randomIsn fuel = .ok final ∧
      Round stringToSend randomIsn final ∧ final.stringReceived = stringToSend ∧
      final.active = false := by
  obtain ⟨states, hrounds⟩ := exists_rounds hshort randomIsn reorder
  obtain ⟨done, hdoneLe, hdone⟩ := hrounds.exists_done
  have hround := hrounds.round done
  have hcomes := hround.receiving_eq_false_iff.mpr (hdone.yEnded hround)
  have hover := hrounds.inactive_of_done hdone
  have hfirst : ∃ first, 0 ≤ first ∧ first ≤ done ∧ (states first).receiving = false ∧
      whileLoop State.receiving (State.loop reorder) Fault.outOfFuel fuel (states 0) =
        .ok (states first) :=
    whileLoop_of_iterations hrounds.loop (Nat.zero_le done) hcomes (by omega)
  obtain ⟨first, -, hfirstLe, hcame, hfirst⟩ := hfirst
  have hended := (hrounds.round first).receiving_eq_false_iff.mp hcame
  have hsecond : ∃ second, first ≤ second ∧ second ≤ done + 12 ∧ (states second).active = false ∧
      whileLoop State.active (State.loop reorder) Fault.outOfFuel fuel (states first) =
        .ok (states second) :=
    whileLoop_of_iterations hrounds.loop (hfirstLe.trans (Nat.le_add_right _ _)) hover (by omega)
  obtain ⟨second, hle, -, hquit, hsecond⟩ := hsecond
  have hstays := hrounds.ended_add hended (second - first)
  rw [Nat.add_sub_cancel' hle] at hstays
  refine ⟨states second, ?_, hrounds.round second, (hrounds.round second).received hstays, hquit⟩
  rw [mainLoop, ← hrounds.start, hfirst]
  exact (if_neg (not_not.mpr ((hrounds.round first).received hended))).trans hsecond

/-- Whatever is to be sent, whatever the initial sequence numbers are, and in either order of the
segments, `main_loop` comes to its end: no exception is thrown, the owner of `y` has read what the owner
of `x` has written, and both connections are over without a reset.  With a string of half the sequence
space and more, sequence numbers become ambiguous. -/
theorem mainLoop_delivers (reorder : Bool) (stringToSend : List UInt8) (randomIsn : Side → WrappingInt32)
    (fuel : ℕ) (hshort : stringToSend.length < 2 ^ 31 - 2) (hfuel : stringToSend.length + 17 ≤ fuel) :
    ∃ final, mainLoop reorder stringToSend randomIsn fuel = .ok final ∧
      final.stringReceived = stringToSend ∧
      final.x.connection.active = false ∧ final.x.connection.isUnclearShutdown = false ∧
      final.y.connection.active = false ∧ final.y.connection.isUnclearShutdown = false := by
  obtain ⟨final, hmain, hround, hreceived, hover⟩ := exists_mainLoop hshort randomIsn reorder hfuel
  obtain ⟨hx, hy⟩ := Bool.or_eq_false_iff.mp hover
  exact ⟨final, hmain, hreceived, hx, (hround.orderly.talking .client).clear, hy,
    (hround.orderly.talking .server).clear⟩

theorem mainLoop_delivers_two_bytes :
    ∃ final, mainLoop true [104, 105] (fun _ ↦ ⟨0⟩) 19 = .ok final ∧
      final.stringReceived = [104, 105] ∧
      final.x.connection.active = false ∧ final.x.connection.isUnclearShutdown = false ∧
      final.y.connection.active = false ∧ final.y.connection.isUnclearShutdown = false :=
  mainLoop_delivers true [104, 105] (fun _ ↦ ⟨0⟩) 19 (by decide) (by decide)

/-- The program exits with success. -/
theorem main_eq_some_zero (first second : Random) {fuel : ℕ} (hfuel : len + 17 ≤ fuel) :
    main first second fuel = some 0 := by
  have hlen : len < 2 ^ 31 - 2 := by decide
  obtain ⟨_, hfirst, -⟩ := exists_mainLoop (first.length_eq.trans_lt hlen) first.randomIsn false
    (first.length_eq ▸ hfuel)
  obtain ⟨final, hsecond, -⟩ := exists_mainLoop (second.length_eq.trans_lt hlen) second.randomIsn true
    (second.length_eq ▸ hfuel)
  have hruns : (do
      let _ ← mainLoop false first.stringToSend first.randomIsn fuel
      mainLoop true second.stringToSend second.randomIsn fuel) = .ok final := by
    rw [hfirst]
    exact hsecond
  rw [main, hruns]

end Sponge.TcpBenchmark
