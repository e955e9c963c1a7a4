import Sponge.TCP.ConnectionRules

/-!
# Retransmission, backoff and giving up

The timer of the sender is compared with a stopwatch that knows nothing about it: `elapsed` adds up
the ticks since the last event that starts the timer, which is the first transmission while nothing is
outstanding, an acknowledgment of new data that leaves something outstanding, or an expiry.  While a
connection is active, the timer expires exactly when the stopwatch reaches the retransmission timeout,
and the timeout is the configured one, doubled once for each consecutive retransmission.
-/

namespace Sponge

open Execution OrderedKeys

namespace TCPSender

variable {sender after : TCPSender} {elapsed msSinceLastTick : ℕ} {oldest : ℕ × TCPSegment}
  {rest : List (ℕ × TCPSegment)}

/-! ## The timer -/

/-- While something is outstanding, the timer runs and has as much time left as a stopwatch that shows
`elapsed` needs to reach the retransmission timeout. -/
def Paced (elapsed : ℕ) (sender : TCPSender) : Prop :=
  sender.outstandingSegment ≠ [] → sender.timer.stopped = false ∧ sender.timer.expired = false ∧
    sender.timer.remainingTime.toNat + elapsed = sender.rto.toNat

/-- While nothing is outstanding, the stopwatch may be reset. -/
theorem Paced.of_idle (h : sender.Paced elapsed) :
    sender.Paced (if sender.outstandingSegment = [] then 0 else elapsed) := by
  intro hsome
  rw [if_neg hsome]
  exact h hsome

theorem paced_restartTimer (sender : TCPSender) : Paced 0 sender.restartTimer := by
  intro hsome
  have hset : sender.restartTimer.timer = .setNewTimer sender.rto := if_pos hsome
  rw [hset]
  exact ⟨rfl, rfl, rfl⟩

/-- A new segment starts the timer if nothing was outstanding, and leaves it alone otherwise. -/
theorem Paced.sent (h : sender.Paced elapsed) (htimed : sender.Timed)
    (hstart : sender.outstandingSegment = [] → elapsed = 0) (segment : TCPSegment) :
    (sender.sent segment).Paced elapsed := by
  intro _
  change RetransmissionTimer.stopped (if sender.timer.isStopped = true then _ else _) = false ∧
    RetransmissionTimer.expired (if sender.timer.isStopped = true then _ else _) = false ∧
    (RetransmissionTimer.remainingTime (if sender.timer.isStopped = true then _ else _)).toNat +
      elapsed = sender.rto.toNat
  by_cases hnone : sender.outstandingSegment = []
  · rw [if_pos (htimed.mpr hnone), hstart hnone]
    exact ⟨rfl, rfl, rfl⟩
  · rw [if_neg fun hstopped ↦ hnone (htimed.mp hstopped)]
    exact h hnone

/-- Sending into the window starts the timer if nothing was outstanding. -/
theorem Paced.fillWindow (h : sender.Paced elapsed) (htimed : sender.Timed)
    (hvalid : sender.stream.Valid) :
    sender.fillWindow.Paced (if sender.outstandingSegment = [] then 0 else elapsed) := by
  set shown := if sender.outstandingSegment = [] then 0 else elapsed
  have hstart : sender.outstandingSegment = [] → shown = 0 := fun hnone ↦ if_pos hnone
  have hpaced : sender.Paced shown := h.of_idle
  obtain ⟨_, ⟨hfilled, -⟩, -⟩ := fillWindow_rule (fun after _ ↦ after.Paced shown ∧ after.Timed ∧
      (after.outstandingSegment = [] → shown = 0))
    (fun after _ segment _ hafter _ _ _ _ ↦ ⟨hafter.1.sent hafter.2.1 hafter.2.2 segment,
      timed_sent after segment, fun hnone ↦ absurd hnone insert_ne_nil⟩) hvalid
    ⟨hpaced, htimed, hstart⟩
  exact hfilled

/-- An acknowledgment that is refused or not new leaves the timer alone. -/
theorem Paced.ackReceived (h : sender.Paced elapsed) {ackno : WrappingInt32} (windowSize : UInt16)
    (hold : ¬ (sender.ackno < unwrap ackno sender.isn sender.ackno ∧
      unwrap ackno sender.isn sender.ackno ≤ sender.nextSeqno)) :
    (sender.ackReceived ackno windowSize).1.Paced elapsed := by
  rcases ackReceived_cases sender ackno windowSize with heq | heq | ⟨hnew, hsent, -⟩
  · rw [heq]
    exact h
  · rw [heq]
    exact h
  · exact absurd ⟨hnew, hsent⟩ hold

/-- What an acknowledgment of new data does to the counter, the timeout and the timer. -/
theorem ackReceived_of_new (hvalid : sender.stream.Valid) {ackno : WrappingInt32}
    (windowSize : UInt16) (hnew : sender.ackno < unwrap ackno sender.isn sender.ackno)
    (hsent : unwrap ackno sender.isn sender.ackno ≤ sender.nextSeqno) :
    let after := (sender.ackReceived ackno windowSize).1
    after.ackno = unwrap ackno sender.isn sender.ackno ∧ after.consecutiveRetransmissions = 0 ∧
      after.rto = sender.initialRetransmissionTimeout ∧ after.Paced 0 ∧
      (after.outstandingSegment ≠ [] → after.timer = .setNewTimer after.rto) := by
  intro after
  have hafter : after = sender.advanced windowSize (unwrap ackno sender.isn sender.ackno) := by
    change (sender.ackReceived ackno windowSize).1 = _
    unfold TCPSender.ackReceived
    rw [if_neg (not_lt.mpr hsent), if_neg (not_le.mpr hnew)]
    rfl
  obtain ⟨hackno, hrto, htries, -⟩ :=
    advanced_frame hvalid windowSize (unwrap ackno sender.isn sender.ackno)
  rw [hafter]
  exact ⟨hackno, htries, hrto, paced_restartTimer _, fun hsome ↦ if_pos hsome⟩

/-! ## The timeout -/

/-- The sender has not tried too often, and its timeout is doubled once for each try. -/
structure Backoff (sender : TCPSender) : Prop where
  tries_le : sender.consecutiveRetransmissions ≤ TCPConfig.maxRetxAttempts
  rto_eq : sender.rto.toNat = sender.initialRetransmissionTimeout.toNat *
    2 ^ sender.consecutiveRetransmissions.toNat
  initial_lt : sender.initialRetransmissionTimeout.toNat < 2 ^ 16

theorem Backoff.fillWindow (h : sender.Backoff) (hvalid : sender.stream.Valid) :
    sender.fillWindow.Backoff := by
  obtain ⟨-, hrto, htries, hinitial⟩ := fillWindow_frame hvalid
  exact ⟨htries ▸ h.tries_le, by rw [hrto, htries, hinitial, h.rto_eq], hinitial ▸ h.initial_lt⟩

theorem Backoff.advanced (h : sender.Backoff) (hvalid : sender.stream.Valid) (windowSize : UInt16)
    (newAckno : ℕ) : (sender.advanced windowSize newAckno).Backoff := by
  obtain ⟨-, hrto, htries, hinitial⟩ := advanced_frame hvalid windowSize newAckno
  exact ⟨htries ▸ Nat.zero_le _, by simp [hrto, htries, hinitial], hinitial ▸ h.initial_lt⟩

/-- An acknowledgment of new data starts the tries anew, any other one changes nothing. -/
theorem Backoff.ackReceived (h : sender.Backoff) (hvalid : sender.stream.Valid)
    (ackno : WrappingInt32) (windowSize : UInt16) :
    (sender.ackReceived ackno windowSize).1.Backoff := by
  rcases ackReceived_cases sender ackno windowSize with heq | heq | ⟨-, -, heq⟩
  · rw [heq]
    exact h
  · rw [heq]
    exact ⟨h.tries_le, h.rto_eq, h.initial_lt⟩
  · rw [heq]
    exact h.advanced hvalid windowSize _

/-! ## A tick -/

/-- The number of tries after the timer has expired: a window of zero does not count. -/
def triesAfterExpiry (sender : TCPSender) : UInt32 :=
  if sender.windowSize = 0 then sender.consecutiveRetransmissions
  else sender.consecutiveRetransmissions + 1

def rtoAfterExpiry (sender : TCPSender) : UInt32 :=
  if sender.windowSize = 0 then sender.rto else sender.rto <<< 1

theorem retransmit_eq (sender : TCPSender) (oldest : ℕ × TCPSegment) :
    sender.retransmit oldest = { sender with
      consecutiveRetransmissions := sender.triesAfterExpiry
      rto := sender.rtoAfterExpiry
      segmentsOut := sender.segmentsOut ++
        if sender.triesAfterExpiry ≤ TCPConfig.maxRetxAttempts then
          [{ segment := oldest.2, kind := .again, absSeqno := oldest.1 }] else []
      timer := .setNewTimer sender.rtoAfterExpiry } := by
  unfold retransmit triesAfterExpiry rtoAfterExpiry
  by_cases hzero : sender.windowSize = 0
  · have hclosed : ¬ sender.windowSize > 0 := by
      rw [hzero]
      decide
    simp only [if_neg hclosed, if_pos hzero]
    split_ifs
    · rfl
    · rw [List.append_nil]
  · have hopen : sender.windowSize > 0 := UInt16.pos_iff_ne_zero.mpr hzero
    simp only [if_pos hopen, if_neg hzero]
    split_ifs
    · rfl
    · rw [List.append_nil]

/-- As long as the sender has not tried too often, the doubled timeout fits into 32 bits. -/
theorem Backoff.rtoAfterExpiry_eq (h : sender.Backoff) :
    sender.rtoAfterExpiry.toNat =
      if sender.windowSize = 0 then sender.rto.toNat else 2 * sender.rto.toNat := by
  unfold rtoAfterExpiry
  split_ifs
  · rfl
  · have htries : sender.consecutiveRetransmissions.toNat ≤ 8 := h.tries_le
    have hinitial := h.initial_lt
    have hfits : sender.rto.toNat < 2 ^ 24 := by
      rw [h.rto_eq]
      calc
        _ ≤ sender.initialRetransmissionTimeout.toNat * 2 ^ 8 :=
          Nat.mul_le_mul_left _ (Nat.pow_le_pow_right (by decide) htries)
        _ < 2 ^ 24 := by omega
    rw [UInt32.toNat_shiftLeft]
    simp only [UInt32.toNat_one, Nat.shiftLeft_eq, Nat.reduceMod, Nat.pow_one]
    omega

theorem Backoff.triesAfterExpiry_eq (h : sender.Backoff) :
    sender.triesAfterExpiry.toNat = if sender.windowSize = 0 then
      sender.consecutiveRetransmissions.toNat else sender.consecutiveRetransmissions.toNat + 1 := by
  unfold triesAfterExpiry
  split_ifs
  · rfl
  · have htries : sender.consecutiveRetransmissions.toNat ≤ 8 := h.tries_le
    rw [UInt32.toNat_add, UInt32.toNat_one]
    omega

/-- The timer would expire if the stopwatch went on from `elapsed` for another `msSinceLastTick`. -/
def Expires (elapsed : ℕ) (sender : TCPSender) (msSinceLastTick : ℕ) : Prop :=
  sender.outstandingSegment ≠ [] ∧ sender.rto.toNat ≤ elapsed + msSinceLastTick

instance (elapsed : ℕ) (sender : TCPSender) (msSinceLastTick : ℕ) :
    Decidable (sender.Expires elapsed msSinceLastTick) :=
  inferInstanceAs (Decidable (_ ∧ _))

/-- Before the timer expires, a tick does nothing but let time pass. -/
theorem Paced.tick_of_not_expires (h : sender.Paced elapsed)
    (hfits : msSinceLastTick < 2 ^ 32) (hexpires : ¬ sender.Expires elapsed msSinceLastTick) :
    ∃ timer, sender.tick msSinceLastTick = { sender with timer } ∧
      Paced (elapsed + msSinceLastTick) { sender with timer } := by
  have htime : (UInt32.ofNat msSinceLastTick).toNat = msSinceLastTick :=
    UInt32.toNat_ofNat_of_lt hfits
  unfold tick
  dsimp only
  split
  · rename_i hnone
    exact ⟨_, rfl, fun hsome ↦ absurd hnone hsome⟩
  · rename_i oldest rest hfront
    have hsome : sender.outstandingSegment ≠ [] := by simp [hfront]
    obtain ⟨hrunning, hpending, hremaining⟩ := h hsome
    have hearly : sender.rto.toNat > elapsed + msSinceLastTick :=
      not_le.mp fun hle ↦ hexpires ⟨hsome, hle⟩
    have hless : (UInt32.ofNat msSinceLastTick).toNat < sender.timer.remainingTime.toNat := by
      omega
    have hpassed : sender.timer.timeExpired (UInt32.ofNat msSinceLastTick) = { sender.timer with
        remainingTime := sender.timer.remainingTime - UInt32.ofNat msSinceLastTick } := by
      unfold RetransmissionTimer.timeExpired
      rw [if_neg (Bool.eq_false_iff.mp hrunning), if_neg (UInt32.not_le.mpr hless)]
    rw [hpassed]
    refine ⟨_, if_neg (by simp [RetransmissionTimer.isExpired, hpending]), fun _ ↦
      ⟨hrunning, hpending, ?_⟩⟩
    change (sender.timer.remainingTime - UInt32.ofNat msSinceLastTick).toNat +
      (elapsed + msSinceLastTick) = sender.rto.toNat
    rw [UInt32.toNat_sub_of_le _ _ hless.le]
    omega

/-- When the timer expires, the oldest segment is sent again, if it was not tried too often. -/
theorem Paced.tick_of_expires (h : sender.Paced elapsed) (hfits : msSinceLastTick < 2 ^ 32)
    (hexpires : sender.Expires elapsed msSinceLastTick)
    (hfront : sender.outstandingSegment = oldest :: rest) :
    sender.tick msSinceLastTick = { sender with
      consecutiveRetransmissions := sender.triesAfterExpiry
      rto := sender.rtoAfterExpiry
      segmentsOut := sender.segmentsOut ++
        if sender.triesAfterExpiry ≤ TCPConfig.maxRetxAttempts then
          [{ segment := oldest.2, kind := .again, absSeqno := oldest.1 }] else []
      timer := .setNewTimer sender.rtoAfterExpiry } := by
  have htime : (UInt32.ofNat msSinceLastTick).toNat = msSinceLastTick :=
    UInt32.toNat_ofNat_of_lt hfits
  obtain ⟨hrunning, -, hremaining⟩ := h hexpires.1
  have hover : sender.timer.remainingTime ≤ UInt32.ofNat msSinceLastTick := by
    have hreached := hexpires.2
    apply UInt32.le_iff_toNat_le.mpr
    omega
  have hexpired : (sender.timer.timeExpired (UInt32.ofNat msSinceLastTick)).isExpired = true := by
    simp [RetransmissionTimer.timeExpired, RetransmissionTimer.isExpired, hrunning, hover]
  unfold tick
  simp only [hfront, hexpired, if_true]
  rw [retransmit_eq]
  rfl

/-- The timer restarts when it expires. -/
theorem Paced.tick (h : sender.Paced elapsed) (hfits : msSinceLastTick < 2 ^ 32) :
    (sender.tick msSinceLastTick).Paced
      (if sender.Expires elapsed msSinceLastTick then 0 else elapsed + msSinceLastTick) := by
  by_cases hexpires : sender.Expires elapsed msSinceLastTick
  · obtain ⟨oldest, rest, hfront⟩ := List.exists_cons_of_ne_nil hexpires.1
    rw [h.tick_of_expires hfits hexpires hfront, if_pos hexpires]
    exact fun _ ↦ ⟨rfl, rfl, rfl⟩
  · obtain ⟨timer, htick, hpaced⟩ := h.tick_of_not_expires hfits hexpires
    rw [htick, if_neg hexpires]
    exact hpaced

/-- The law of the timeout holds after a tick unless the sender has now tried too often. -/
theorem Backoff.tick (h : sender.Backoff) (hpaced : sender.Paced elapsed)
    (hfits : msSinceLastTick < 2 ^ 32)
    (htries : (sender.tick msSinceLastTick).consecutiveRetransmissions ≤
      TCPConfig.maxRetxAttempts) : (sender.tick msSinceLastTick).Backoff := by
  by_cases hexpires : sender.Expires elapsed msSinceLastTick
  · obtain ⟨oldest, rest, hfront⟩ := List.exists_cons_of_ne_nil hexpires.1
    rw [hpaced.tick_of_expires hfits hexpires hfront] at htries ⊢
    refine ⟨htries, ?_, h.initial_lt⟩
    change sender.rtoAfterExpiry.toNat = sender.initialRetransmissionTimeout.toNat *
      2 ^ sender.triesAfterExpiry.toNat
    rw [h.rtoAfterExpiry_eq, h.triesAfterExpiry_eq, h.rto_eq]
    split_ifs
    · rfl
    · rw [Nat.pow_succ, Nat.mul_comm 2, Nat.mul_assoc]
  · obtain ⟨timer, htick, -⟩ := hpaced.tick_of_not_expires hfits hexpires
    rw [htick]
    exact ⟨h.tries_le, h.rto_eq, h.initial_lt⟩

/-! ## What needs no clock -/

/-- The stream is in order, the timer runs when it should, and the outstanding segments are sorted. -/
structure Orderly (timeout : UInt32) (sender : TCPSender) : Prop where
  valid : sender.stream.Valid
  timed : sender.Timed
  ordered : Ordered Prod.fst sender.outstandingSegment
  initial : sender.initialRetransmissionTimeout = timeout

theorem ordered_move {after : TCPSender} (h : Ordered Prod.fst sender.outstandingSegment)
    (hmove : Move sender after) : Ordered Prod.fst after.outstandingSegment := by
  cases hmove with
  | send => exact h.insert
  | @acknowledge newAckno =>
    obtain ⟨bytes, heq, -⟩ := acknowledge_eq sender newAckno
    rw [heq]
    exact List.Pairwise.sublist (List.dropWhile_sublist _) h
  | again | bare | adjust => exact h

theorem initial_move {after : TCPSender} (hmove : Move sender after) :
    after.initialRetransmissionTimeout = sender.initialRetransmissionTimeout := by
  cases hmove with
  | send => rfl
  | acknowledge => exact (acknowledge_frame sender _).2.2.2.2
  | again | bare | adjust => rfl

theorem Orderly.moves {timeout : UInt32} {after : TCPSender} (h : sender.Orderly timeout)
    (hmoves : Moves sender after) (htimed : after.Timed) : after.Orderly timeout := by
  have hinvariant := hmoves.invariant
    (fun sender ↦ sender.stream.Valid ∧ Ordered Prod.fst sender.outstandingSegment ∧
      sender.initialRetransmissionTimeout = timeout)
    (fun _ _ hbefore hmove ↦ ⟨valid_move hbefore.1 hmove, ordered_move hbefore.2.1 hmove,
      (initial_move hmove).trans hbefore.2.2⟩)
    ⟨h.valid, h.ordered, h.initial⟩
  exact ⟨hinvariant.1, htimed, hinvariant.2.1, hinvariant.2.2⟩

end TCPSender

namespace TCPConnection

variable {connection : TCPConnection} {call : Call} {elapsed : ℕ} {timeout : UInt32}

/-! ## The stopwatch -/

/-- The acknowledgment of the segment is processed, and it is one of something that has been sent and
was not acknowledged before. -/
def AcksNewData (connection : TCPConnection) (segment : TCPSegment) : Prop :=
  connection.AckProcessed segment ∧
    connection.sender.ackno <
      unwrap segment.header.ackno connection.sender.isn connection.sender.ackno ∧
    unwrap segment.header.ackno connection.sender.isn connection.sender.ackno ≤
      connection.sender.nextSeqno

instance (connection : TCPConnection) (segment : TCPSegment) :
    Decidable (connection.AcksNewData segment) :=
  inferInstanceAs (Decidable (_ ∧ _ ∧ _))

/-- The call brings an acknowledgment of new data. -/
def BringsNewAck (connection : TCPConnection) : Call → Prop
  | .segmentReceived segment => connection.AcksNewData segment
  | _ => False

instance (connection : TCPConnection) : (call : Call) → Decidable (connection.BringsNewAck call)
  | .segmentReceived _ => inferInstanceAs (Decidable (AcksNewData _ _))
  | .connect => inferInstanceAs (Decidable False)
  | .write _ => inferInstanceAs (Decidable False)
  | .endInputStream => inferInstanceAs (Decidable False)
  | .tick _ => inferInstanceAs (Decidable False)
  | .readInbound _ => inferInstanceAs (Decidable False)

/-- A call other than a tick starts the timer: it sends something while nothing is outstanding, or it
brings an acknowledgment of new data and leaves something outstanding. -/
def StartsTimer (connection : TCPConnection) (call : Call) : Prop :=
  (connection.step call).sender.outstandingSegment ≠ [] ∧
    (connection.sender.outstandingSegment = [] ∨ connection.BringsNewAck call)

instance (connection : TCPConnection) (call : Call) : Decidable (connection.StartsTimer call) :=
  inferInstanceAs (Decidable (_ ∧ (_ ∨ _)))

/-- What the stopwatch shows after a call. -/
def stopwatch (elapsed : ℕ) (connection : TCPConnection) : Call → ℕ
  | .tick msSinceLastTick =>
      if connection.sender.Expires elapsed msSinceLastTick then 0 else elapsed + msSinceLastTick
  | call => if connection.StartsTimer call then 0 else elapsed

/-- The milliseconds of all ticks since the timer was last started. -/
def elapsedSinceStart (past : List (TCPConnection × Call)) : ℕ :=
  past.foldl (fun elapsed entry ↦ entry.1.stopwatch elapsed entry.2) 0

def TickFits (_ : TCPConnection) : Call → Prop
  | .tick msSinceLastTick => msSinceLastTick < 2 ^ 32
  | _ => True

instance (connection : TCPConnection) : (call : Call) → Decidable (connection.TickFits call)
  | .tick _ => inferInstanceAs (Decidable (_ < _))
  | .connect => inferInstanceAs (Decidable True)
  | .write _ => inferInstanceAs (Decidable True)
  | .endInputStream => inferInstanceAs (Decidable True)
  | .segmentReceived _ => inferInstanceAs (Decidable True)
  | .readInbound _ => inferInstanceAs (Decidable True)

/-! ## Steps -/

theorem settlesSender_orderly : SettlesSender (TCPSender.Orderly timeout) where
  drain _ h := ⟨h.valid, h.timed, h.ordered, h.initial⟩
  error _ h := ⟨h.valid.setError, h.timed, h.ordered, h.initial⟩
  bare _ h := ⟨h.valid, h.timed, h.ordered, h.initial⟩

theorem orderly_access (h : connection.sender.Orderly timeout) (call : Call) :
    (connection.access call).sender.Orderly timeout := by
  have hvalid := valid_access h.valid call
  cases call <;> exact ⟨hvalid, h.timed, h.ordered, h.initial⟩

/-- The sender stays in order, whatever the call. -/
theorem orderly_step (h : connection.sender.Orderly timeout) (call : Call) :
    (connection.step call).sender.Orderly timeout := by
  have haccess := orderly_access h call
  apply sender_step (TCPSender.Orderly timeout) settlesSender_orderly h
  · exact haccess.moves (TCPSender.fillWindow_moves haccess.valid)
      (haccess.timed.fillWindow haccess.valid)
  · exact fun segment _ _ ↦ h.moves (TCPSender.ackReceived_moves h.valid _ _)
      (h.timed.ackReceived _ _)
  · exact fun msSinceLastTick _ ↦ h.moves (TCPSender.tick_moves _ msSinceLastTick)
      (h.timed.tick msSinceLastTick)

/-- A segment that acknowledges new data moves the acknowledgment number, resets the counter and the
timeout, and starts the timer anew if something is outstanding. -/
theorem segmentReceived_of_acksNewData {segment : TCPSegment}
    (horderly : connection.sender.Orderly timeout) (h : connection.AcksNewData segment) :
    let after := (connection.segmentReceived segment).sender
    after.ackno = unwrap segment.header.ackno connection.sender.isn connection.sender.ackno ∧
      after.consecutiveRetransmissions = 0 ∧ after.rto = timeout ∧ after.Paced 0 ∧
      (after.outstandingSegment ≠ [] → after.timer = .setNewTimer after.rto) := by
  obtain ⟨hprocessed, hnew, hsent⟩ := h
  apply sender_of_ackProcessed (fun after ↦
    after.ackno = unwrap segment.header.ackno connection.sender.isn connection.sender.ackno ∧
      after.consecutiveRetransmissions = 0 ∧ after.rto = timeout ∧ after.Paced 0 ∧
      (after.outstandingSegment ≠ [] → after.timer = .setNewTimer after.rto)) ?_ hprocessed
  · rw [← horderly.initial]
    exact TCPSender.ackReceived_of_new horderly.valid segment.header.win hnew hsent
  · exact ⟨fun _ h ↦ h, fun _ h ↦ h, fun _ h ↦ h⟩

/-- In every call but a tick, the timer is started as the stopwatch has it. -/
theorem paced_step_of_not_tick (horderly : connection.sender.Orderly timeout)
    (h : connection.sender.Paced elapsed) (hcall : ∀ msSinceLastTick, call ≠ .tick msSinceLastTick) :
    (connection.step call).sender.Paced (if connection.StartsTimer call then 0 else elapsed) := by
  set shown := if connection.sender.outstandingSegment = [] then 0 else elapsed with hshown
  have hpaced : (connection.step call).sender.Paced
      (if connection.BringsNewAck call then 0 else shown) := by
    have hstart : connection.sender.Paced shown := h.of_idle
    split_ifs with hbrings
    · cases call with
      | segmentReceived segment => exact (segmentReceived_of_acksNewData horderly hbrings).2.2.2.1
      | connect | write | endInputStream | tick | readInbound => exact hbrings.elim
    · apply sender_step (TCPSender.Paced shown) ⟨fun _ h ↦ h, fun _ h ↦ h, fun _ h ↦ h⟩ hstart
      · have haccess := orderly_access horderly call
        have hsame : (connection.access call).sender.Paced elapsed ∧
            (connection.access call).sender.outstandingSegment =
              connection.sender.outstandingSegment := by
          cases call <;> exact ⟨h, rfl⟩
        have hfilled := hsame.1.fillWindow haccess.timed haccess.valid
        rwa [hsame.2, ← hshown] at hfilled
      · intro segment heq hprocessed
        subst heq
        exact hstart.ackReceived _ fun hnew ↦ hbrings ⟨hprocessed, hnew⟩
      · exact fun msSinceLastTick heq ↦ absurd heq (hcall msSinceLastTick)
  intro hsome
  have hsame : (if connection.StartsTimer call then 0 else elapsed) =
      if connection.BringsNewAck call then 0 else shown := by
    simp only [StartsTimer, hsome, ne_eq, not_false_eq_true, true_and, hshown]
    split_ifs <;> tauto
  rw [hsame]
  exact hpaced hsome

theorem backoff_step_of_not_tick (hvalid : connection.sender.stream.Valid)
    (h : connection.sender.Backoff) (hcall : ∀ msSinceLastTick, call ≠ .tick msSinceLastTick) :
    (connection.step call).sender.Backoff := by
  have hkeep {sender : TCPSender} (h : sender.Backoff) (segmentsOut : List Emission)
      (stream : ByteStream) : TCPSender.Backoff { sender with segmentsOut, stream } :=
    ⟨h.tries_le, h.rto_eq, h.initial_lt⟩
  apply sender_step TCPSender.Backoff
    ⟨fun _ h ↦ hkeep h _ _, fun _ h ↦ hkeep h _ _, fun _ h ↦ hkeep h _ _⟩ h
  · have haccess : (connection.access call).sender.Backoff := by
      cases call <;> exact hkeep h _ _
    exact haccess.fillWindow (valid_access hvalid call)
  · exact fun _ _ _ ↦ h.ackReceived hvalid _ _
  · exact fun msSinceLastTick heq ↦ absurd heq (hcall msSinceLastTick)

def ticked (connection : TCPConnection) (msSinceLastTick : ℕ) : TCPConnection :=
  { connection with
    nowTime := connection.nowTime + msSinceLastTick
    sender := connection.sender.tick msSinceLastTick }.collectOutput

theorem tick_eq (connection : TCPConnection) (msSinceLastTick : ℕ) :
    ∃ lingerAfterStreamsFinish isClearShutdown, connection.tick msSinceLastTick =
      { (connection.ticked msSinceLastTick).giveUp with
        lingerAfterStreamsFinish, isClearShutdown } :=
  testEnd_eq _

/-- A tick that does not reset the connection only collects what the sender sends. -/
theorem sender_tick {msSinceLastTick : ℕ}
    (h : (connection.tick msSinceLastTick).isUnclearShutdown = false) :
    (connection.tick msSinceLastTick).sender =
      { connection.sender.tick msSinceLastTick with segmentsOut := [] } := by
  obtain ⟨_, _, heq⟩ := tick_eq connection msSinceLastTick
  have htries : (connection.ticked msSinceLastTick).sender.consecutiveRetransmissions ≤
      TCPConfig.maxRetxAttempts := tries_le_of_testEnd h
  rw [heq, giveUp_of_le htries]
  rfl

/-! ## Runs -/

theorem elapsedSinceStart_concat (past : List (TCPConnection × Call)) (connection : TCPConnection)
    (call : Call) : elapsedSinceStart (past ++ [(connection, call)]) =
      connection.stopwatch (elapsedSinceStart past) call := by
  simp [elapsedSinceStart]

/-- As long as the connection is not reset, its timeout and its timer are as they should be. -/
structure Clocked (timeout : UInt32) (past : List (TCPConnection × Call))
    (connection : TCPConnection) : Prop where
  drained : connection.sender.segmentsOut = []
  orderly : connection.sender.Orderly timeout
  backoff : connection.isUnclearShutdown = false → connection.sender.Backoff
  paced : connection.isUnclearShutdown = false →
    connection.sender.Paced (elapsedSinceStart past)

variable {past : List (TCPConnection × Call)}

/-- The stopwatch and the timer go on together. -/
theorem Clocked.step (h : Clocked timeout past connection) (hcall : connection.TickFits call) :
    Clocked timeout (past ++ [(connection, call)]) (connection.step call) := by
  have hbefore (hafter : (connection.step call).isUnclearShutdown = false) :
      connection.isUnclearShutdown = false := by
    by_contra hreset
    rw [Bool.not_eq_false] at hreset
    rw [isUnclearShutdown_step hreset call] at hafter
    contradiction
  refine ⟨drained_step h.drained call, orderly_step h.orderly call, fun hafter ↦ ?_,
    fun hafter ↦ ?_⟩
  · have hbackoff := h.backoff (hbefore hafter)
    have hpaced := h.paced (hbefore hafter)
    cases call with
    | tick msSinceLastTick =>
      change (connection.tick msSinceLastTick).sender.Backoff
      rw [sender_tick hafter]
      obtain ⟨hle, hrto, hinitial⟩ := hbackoff.tick hpaced hcall (tries_le_of_testEnd hafter)
      exact ⟨hle, hrto, hinitial⟩
    | connect | write | endInputStream | segmentReceived | readInbound =>
      exact backoff_step_of_not_tick h.orderly.valid hbackoff (by simp)
  · have hpaced := h.paced (hbefore hafter)
    rw [elapsedSinceStart_concat]
    cases call with
    | tick msSinceLastTick =>
      change (connection.tick msSinceLastTick).sender.Paced _
      rw [sender_tick hafter]
      exact hpaced.tick hcall
    | connect | write | endInputStream | segmentReceived | readInbound =>
      exact paced_step_of_not_tick h.orderly hpaced (by simp)

/-- A tick at which the timer does not expire sends nothing and leaves the timeout alone. -/
theorem Clocked.tick_of_not_expires (h : Clocked timeout past connection)
    (hopen : connection.isUnclearShutdown = false) {msSinceLastTick : ℕ}
    (hfits : msSinceLastTick < 2 ^ 32)
    (hexpires : ¬ connection.sender.Expires (elapsedSinceStart past) msSinceLastTick) :
    (connection.tick msSinceLastTick).segmentsOut = connection.segmentsOut ∧
      (connection.tick msSinceLastTick).sender.consecutiveRetransmissions =
        connection.sender.consecutiveRetransmissions ∧
      (connection.tick msSinceLastTick).sender.rto = connection.sender.rto := by
  obtain ⟨timer, htick, -⟩ := (h.paced hopen).tick_of_not_expires hfits hexpires
  obtain ⟨_, _, heq⟩ := tick_eq connection msSinceLastTick
  have htries : (connection.ticked msSinceLastTick).sender.consecutiveRetransmissions =
      connection.sender.consecutiveRetransmissions := by
    simp [ticked, collectOutput, htick]
  rw [heq, giveUp_of_le (htries ▸ (h.backoff hopen).tries_le)]
  simp [ticked, collectOutput, htick, h.drained]

end TCPConnection

end Sponge
