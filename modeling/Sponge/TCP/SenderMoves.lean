import Sponge.Library.Tiling
import Sponge.TCP.TCPSender
import Mathlib.Logic.Relation

/-!
# What the sender can do

Each function of the sender is a sequence of a few moves: send the next segment, take a new
acknowledgment number over, retransmit the oldest segment, send a bare segment, or change the timer
and the window only.  `Move` lists them with all they change.  An invariant of the sender is proved
move by move, and the lemmas of this file carry it to the functions.
-/

namespace Sponge.TCPSender

open Relation

variable {sender : TCPSender} {windowSize : ℕ} {segment : TCPSegment}

/-! ## One iteration of the loop -/

/-- What the next segment looks like when `windowSize` is left of the window. -/
structure NextSegment (sender : TCPSender) (windowSize : ℕ) (segment : TCPSegment) : Prop where
  syn : segment.header.syn = sender.closed
  seqno : segment.header.seqno = wrap sender.firstUnsent sender.isn
  ack : segment.header.ack = false
  payload : segment.payload.str = sender.stream.contents.take
    (min (windowSize - sender.closed.toNat) TCPConfig.maxPayloadSize)
  fin : segment.header.fin = true ↔
    segment.payload.size + sender.closed.toNat < windowSize ∧
      segment.payload.size = sender.stream.contents.length ∧
      sender.stream.ended = true ∧ sender.nextSeqno < sender.stream.byteWritten + 2

def sent (sender : TCPSender) (segment : TCPSegment) : TCPSender :=
  { sender with
    syn := sender.syn || segment.header.syn
    fin := sender.fin || segment.header.fin
    stream := sender.stream.popOutput segment.payload.size }.pushSegment sender.firstUnsent segment

theorem setSyn_eq (hwindow : 0 < windowSize) :
    (Filling.mk sender {} 0).setSyn windowSize =
      { sender := { sender with syn := sender.syn || sender.closed }
        segment := { header := { syn := sender.closed } }
        used := sender.closed.toNat } := by
  unfold Filling.setSyn
  cases sender.closed with
  | false => simp
  | true => simp [Nat.succ_le_iff.mpr hwindow]

theorem setPayload_eq (filling : Filling) (windowSize : ℕ) (hvalid : filling.sender.stream.Valid)
    (hblank : filling.segment.payload = {}) :
    ∃ payload : Buffer,
      payload.str = filling.sender.stream.contents.take
        (min (windowSize - filling.used) TCPConfig.maxPayloadSize) ∧
      filling.setPayload windowSize =
        { sender := { filling.sender with
            stream := filling.sender.stream.popOutput payload.size }
          segment := { filling.segment with payload }
          used := filling.used + payload.size } := by
  unfold Filling.setPayload
  by_cases hroom : windowSize > filling.used
  · set len := min (windowSize - filling.used) TCPConfig.maxPayloadSize
    have hdata := ByteStream.read_fst hvalid len
    have hpop : filling.sender.stream.popOutput
        (Buffer.ofString (filling.sender.stream.read len).1).size =
          (filling.sender.stream.read len).2 := by
      rw [Buffer.size, Buffer.str_ofString, hdata, List.length_take,
        ByteStream.popOutput_min hvalid, ByteStream.read_snd hvalid]
    refine ⟨.ofString (filling.sender.stream.read len).1, hdata, ?_⟩
    rw [if_pos hroom, hpop]
  · have hnone : windowSize - filling.used = 0 := Nat.sub_eq_zero_of_le (not_lt.mp hroom)
    refine ⟨{}, by simp [hnone, Buffer.str], ?_⟩
    rw [if_neg hroom]
    simp [Buffer.size, Buffer.str, ← hblank]

theorem setFin_eq (filling : Filling) :
    let fin := decide (filling.used < windowSize) && filling.sender.synAckedFinToSend
    filling.setFin windowSize =
      { sender := { filling.sender with fin := filling.sender.fin || fin }
        segment := { filling.segment with
          header := { filling.segment.header with fin := filling.segment.header.fin || fin } }
        used := filling.used + fin.toNat } := by
  unfold Filling.setFin
  by_cases hroom : filling.used + 1 ≤ windowSize
  · cases hfin : filling.sender.synAckedFinToSend with
    | false => simp
    | true => simp [hroom, Nat.succ_le_iff.mp hroom]
  · have hfull : ¬ filling.used < windowSize := hroom
    simp [hroom, hfull]

/-- Whether the FIN can be sent after `count` more bytes have been read. -/
theorem synAckedFinToSend_popOutput (hvalid : sender.stream.Valid) {count : ℕ}
    (hcount : count ≤ sender.stream.contents.length) (syn : Bool) :
    synAckedFinToSend { sender with syn, stream := sender.stream.popOutput count } = true ↔
      count = sender.stream.contents.length ∧ sender.stream.ended = true ∧
        sender.nextSeqno < sender.stream.byteWritten + 2 := by
  obtain ⟨-, hwritten, hended, -⟩ := ByteStream.popOutput_frame sender.stream count
  rw [synAckedFinToSend, Bool.and_eq_true_iff, decide_eq_true_iff,
    (hvalid.popOutput count).eof_iff, ByteStream.bytesWritten, hwritten, hended,
    ByteStream.contents_popOutput hvalid, List.drop_eq_nil_iff]
  constructor
  · intro hready
    exact ⟨le_antisymm hcount hready.2.2, hready.2.1, hready.1⟩
  · intro hready
    exact ⟨hready.2.2, hready.2.1, hready.1.ge⟩

/-- The local variables of an iteration when its segment is complete. -/
def filled (sender : TCPSender) (windowSize : ℕ) : Filling :=
  ((((Filling.mk sender {} 0).setSyn windowSize).setSeqno sender.firstUnsent).setPayload
    windowSize).setFin windowSize

/-- An iteration pushes the segment that was filled, and uses up what it used. -/
theorem fillOnce_eq (sender : TCPSender) (windowSize : ℕ) :
    sender.fillOnce windowSize =
      ((sender.filled windowSize).sender.pushSegment sender.firstUnsent
        (sender.filled windowSize).segment, Word.sub windowSize (sender.filled windowSize).used) :=
  rfl

/-- The iteration uses as much of the window as its segment is long. -/
theorem filled_spec (hvalid : sender.stream.Valid) (hwindow : 0 < windowSize) :
    ∃ segment, NextSegment sender windowSize segment ∧
      segment.lengthInSequenceSpace ≤ windowSize ∧
      sender.filled windowSize =
        { sender := { sender with
            syn := sender.syn || segment.header.syn
            fin := sender.fin || segment.header.fin
            stream := sender.stream.popOutput segment.payload.size }
          segment
          used := segment.lengthInSequenceSpace } := by
  unfold filled
  rw [setSyn_eq hwindow]
  dsimp only [Filling.setSeqno]
  obtain ⟨payload, hpayload, hread⟩ := setPayload_eq
    { sender := { sender with syn := sender.syn || sender.closed }
      segment := { header := { syn := sender.closed, seqno := wrap sender.firstUnsent sender.isn } }
      used := sender.closed.toNat } windowSize hvalid rfl
  rw [hread, setFin_eq]
  dsimp only at hpayload ⊢
  have hsize : payload.size ≤ windowSize - sender.closed.toNat ∧
      payload.size ≤ sender.stream.contents.length := by
    rw [Buffer.size, hpayload, List.length_take]
    omega
  set fin := decide (sender.closed.toNat + payload.size < windowSize) &&
    synAckedFinToSend { sender with
      syn := sender.syn || sender.closed
      stream := sender.stream.popOutput payload.size } with hfin
  set segment : TCPSegment :=
    { header := { syn := sender.closed, seqno := wrap sender.firstUnsent sender.isn, fin }
      payload } with hsegment
  have hlength : segment.lengthInSequenceSpace =
      sender.closed.toNat + payload.size + fin.toNat := by
    rw [TCPSegment.lengthInSequenceSpace_eq, Nat.add_comm sender.closed.toNat]
  have hroom : segment.lengthInSequenceSpace ≤ windowSize := by
    have hclosed := sender.closed.toNat_le
    rw [hlength]
    cases hset : fin with
    | false =>
      rw [Bool.toNat_false]
      omega
    | true => exact of_decide_eq_true (Bool.and_eq_true_iff.mp (hfin.symm.trans hset)).1
  refine ⟨segment, ⟨rfl, rfl, rfl, hpayload, ?_⟩, hroom, ?_⟩
  · rw [hsegment, hfin, Bool.and_eq_true_iff, decide_eq_true_iff,
      synAckedFinToSend_popOutput hvalid hsize.2, Nat.add_comm]
  · rw [hlength]
    rfl

/-- What one iteration does, as long as the window is open. -/
theorem fillOnce_spec (hvalid : sender.stream.Valid) (hwindow : 0 < windowSize) :
    ∃ segment, NextSegment sender windowSize segment ∧
      segment.lengthInSequenceSpace ≤ windowSize ∧
      sender.fillOnce windowSize =
        (sender.sent segment, windowSize - segment.lengthInSequenceSpace) := by
  obtain ⟨segment, hnext, hroom, hfilled⟩ := filled_spec hvalid hwindow
  refine ⟨segment, hnext, hroom, ?_⟩
  rw [fillOnce_eq, hfilled, Word.sub_of_le hroom]
  rfl

theorem NextSegment.size_le (h : NextSegment sender windowSize segment) :
    segment.payload.size ≤ TCPConfig.maxPayloadSize ∧
      segment.payload.size ≤ sender.stream.contents.length := by
  rw [Buffer.size, h.payload, List.length_take]
  omega

theorem NextSegment.payload_eq (h : NextSegment sender windowSize segment) :
    segment.payload.str = sender.stream.contents.take segment.payload.size := by
  rw [Buffer.size, h.payload, List.length_take, List.take_eq_take_iff]
  omega

/-- In each of the three cases in which the loop goes on, its segment is not empty. -/
theorem NextSegment.length_pos (h : NextSegment sender windowSize segment)
    (hvalid : sender.stream.Valid) (hwindow : 0 < windowSize) (hwants : sender.wantsToSend = true) :
    0 < segment.lengthInSequenceSpace := by
  rw [TCPSegment.lengthInSequenceSpace_eq, h.syn]
  cases hclosed : sender.closed with
  | true =>
    simp only [Bool.toNat_true]
    omega
  | false =>
    simp only [wantsToSend, hclosed, Bool.false_or, Bool.or_eq_true_iff, Bool.and_eq_true_iff] at hwants
    cases hwants with
    | inl hdata =>
      -- The buffer is not empty, and neither is the room for the payload.
      have hcontents : sender.stream.contents ≠ [] := by
        rw [Ne, ← hvalid.bufferEmpty_iff]
        simpa using hdata.2
      have hpositive := List.length_pos_iff.mpr hcontents
      have hsize : segment.payload.size = min (min windowSize TCPConfig.maxPayloadSize)
          sender.stream.contents.length := by
        rw [Buffer.size, h.payload, List.length_take, hclosed]
        rfl
      unfold TCPConfig.maxPayloadSize at hsize
      omega
    | inr hfin =>
      have hnext := of_decide_eq_true (Bool.and_eq_true_iff.mp hfin).1
      have heof := hvalid.eof_iff.mp (Bool.and_eq_true_iff.mp hfin).2
      have hempty : segment.payload.size = 0 := by
        rw [Buffer.size, h.payload, heof.2, List.take_nil, List.length_nil]
      have hset : segment.header.fin = true := by
        apply h.fin.mpr
        rw [hempty, heof.2, hclosed]
        exact ⟨hwindow, rfl, heof.1, hnext⟩
      rw [hset]
      simp only [Bool.toNat_true]
      omega

/-! ## The loop -/

/-- Sending changes what is queued and outstanding, the stream, the two flags and the timer. -/
@[simp] theorem sent_frame (sender : TCPSender) (segment : TCPSegment) :
    (sender.sent segment).isn = sender.isn ∧
      (sender.sent segment).ackno = sender.ackno ∧
      (sender.sent segment).windowSize = sender.windowSize ∧
      (sender.sent segment).rto = sender.rto ∧
      (sender.sent segment).consecutiveRetransmissions = sender.consecutiveRetransmissions ∧
      (sender.sent segment).initialRetransmissionTimeout = sender.initialRetransmissionTimeout :=
  ⟨rfl, rfl, rfl, rfl, rfl, rfl⟩

theorem valid_sent (hvalid : sender.stream.Valid) (segment : TCPSegment) :
    (sender.sent segment).stream.Valid :=
  hvalid.popOutput segment.payload.size

/-- The rule for the loop.  Every iteration sends a segment that is not empty and fits, so the loop
ends before its fuel does: the window is used up, or there is nothing to send. -/
theorem fillLoop_rule (motive : TCPSender → ℕ → Prop)
    (hstep : ∀ sender windowSize segment, sender.stream.Valid → motive sender windowSize →
      0 < windowSize → sender.wantsToSend = true → NextSegment sender windowSize segment →
      segment.lengthInSequenceSpace ≤ windowSize →
      motive (sender.sent segment) (windowSize - segment.lengthInSequenceSpace))
    {fuel : ℕ} (hfuel : windowSize ≤ fuel) (hvalid : sender.stream.Valid)
    (hstart : motive sender windowSize) :
    ∃ left, motive (fillLoop fuel sender windowSize) left ∧
      (left = 0 ∨ (fillLoop fuel sender windowSize).wantsToSend = false) := by
  induction fuel generalizing sender windowSize with
  | zero => exact ⟨windowSize, hstart, .inl (Nat.le_zero.mp hfuel)⟩
  | succ fuel ih =>
    unfold fillLoop
    by_cases hguard : windowSize > 0 ∧ sender.wantsToSend = true
    · obtain ⟨segment, hnext, hfits, hfill⟩ := fillOnce_spec hvalid hguard.1
      have hpositive := hnext.length_pos hvalid hguard.1 hguard.2
      rw [if_pos hguard, hfill]
      apply ih
      · omega
      · exact valid_sent hvalid segment
      · exact hstep sender windowSize segment hvalid hstart hguard.1 hguard.2 hnext hfits
    · rw [if_neg hguard]
      refine ⟨windowSize, hstart, ?_⟩
      by_cases hzero : windowSize = 0
      · exact .inl hzero
      · refine .inr (Bool.eq_false_iff.mpr fun hwants ↦ hguard ⟨?_, hwants⟩)
        exact Nat.pos_of_ne_zero hzero

theorem effectiveWindow_eq (sender : TCPSender) :
    sender.effectiveWindow = max sender.windowSize.toNat 1 := by
  unfold effectiveWindow
  split_ifs with hzero
  · simp [hzero]
  · have hpositive : sender.windowSize.toNat ≠ 0 := fun h ↦ hzero (UInt16.toNat_inj.mp h)
    omega

/-- The rule for `fillWindow`: the motive speaks about the sender and the room that is left. -/
theorem fillWindow_rule (motive : TCPSender → ℕ → Prop)
    (hstep : ∀ sender windowSize segment, sender.stream.Valid → motive sender windowSize →
      0 < windowSize → sender.wantsToSend = true → NextSegment sender windowSize segment →
      segment.lengthInSequenceSpace ≤ windowSize →
      motive (sender.sent segment) (windowSize - segment.lengthInSequenceSpace))
    (hvalid : sender.stream.Valid)
    (hstart : motive sender (sender.ackno + sender.effectiveWindow - sender.nextSeqno)) :
    ∃ left, motive sender.fillWindow left ∧
      (left = 0 ∨ sender.fillWindow.wantsToSend = false) := by
  unfold fillWindow
  split_ifs with hfull
  · rw [Nat.sub_eq_zero_of_le hfull] at hstart
    exact ⟨0, hstart, .inl rfl⟩
  · rw [Word.sub_of_le (not_le.mp hfull).le]
    exact fillLoop_rule motive hstep le_rfl hvalid hstart

/-! ## Acknowledged segments -/

def entryLength (entry : ℕ × TCPSegment) : ℕ := entry.2.lengthInSequenceSpace

def covered (ackno : ℕ) (entry : ℕ × TCPSegment) : Bool := entry.1 + entryLength entry ≤ ackno

/-- Popping removes the covered segments at the front.  The count of bytes follows, as long as it
was the sum of the lengths. -/
theorem popLoop_eq {outstanding : List (ℕ × TCPSegment)}
    (houtstanding : sender.outstandingSegment = outstanding) :
    ∃ bytes, popLoop outstanding sender = { sender with
        outstandingSegment := outstanding.dropWhile (covered sender.ackno)
        bytesInFlight := bytes } ∧
      (sender.bytesInFlight = (outstanding.map entryLength).sum →
        bytes = ((outstanding.dropWhile (covered sender.ackno)).map entryLength).sum) := by
  induction outstanding generalizing sender with
  | nil => exact ⟨sender.bytesInFlight, by rw [popLoop, List.dropWhile_nil, ← houtstanding], id⟩
  | cons front rest ih =>
    unfold popLoop
    split_ifs with hcovered
    · have hdrop : covered sender.ackno front = true := decide_eq_true hcovered
      obtain ⟨bytes, hpop, hsum⟩ := @ih { sender with
        bytesInFlight := Word.sub sender.bytesInFlight front.2.lengthInSequenceSpace
        outstandingSegment := rest } rfl
      rw [List.dropWhile_cons_of_pos hdrop]
      refine ⟨bytes, hpop, fun htotal ↦ hsum ?_⟩
      have hle : front.2.lengthInSequenceSpace ≤ sender.bytesInFlight := by
        rw [htotal, List.map_cons, List.sum_cons]
        exact Nat.le_add_right _ _
      dsimp only
      rw [Word.sub_of_le hle, htotal, List.map_cons, List.sum_cons]
      exact Nat.add_sub_cancel_left _ _
    · have hkeep : ¬ covered sender.ackno front = true := fun h ↦ hcovered (of_decide_eq_true h)
      rw [List.dropWhile_cons_of_neg hkeep]
      exact ⟨sender.bytesInFlight, by simp [← houtstanding], id⟩

/-- What taking an acknowledgment number over changes. -/
theorem acknowledge_eq (sender : TCPSender) (newAckno : ℕ) :
    ∃ bytes, sender.acknowledge newAckno = { sender with
        rto := sender.initialRetransmissionTimeout
        consecutiveRetransmissions := 0
        ackno := newAckno
        outstandingSegment := sender.outstandingSegment.dropWhile (covered newAckno)
        bytesInFlight := bytes } ∧
      (sender.bytesInFlight = (sender.outstandingSegment.map entryLength).sum →
        bytes =
          ((sender.outstandingSegment.dropWhile (covered newAckno)).map entryLength).sum) :=
  popLoop_eq rfl

/-- Taking an acknowledgment number over resets the timeout and leaves the stream alone. -/
theorem acknowledge_frame (sender : TCPSender) (newAckno : ℕ) :
    (sender.acknowledge newAckno).ackno = newAckno ∧
      (sender.acknowledge newAckno).stream = sender.stream ∧
      (sender.acknowledge newAckno).rto = sender.initialRetransmissionTimeout ∧
      (sender.acknowledge newAckno).consecutiveRetransmissions = 0 ∧
      (sender.acknowledge newAckno).initialRetransmissionTimeout =
        sender.initialRetransmissionTimeout := by
  obtain ⟨bytes, heq, -⟩ := acknowledge_eq sender newAckno
  rw [heq]
  exact ⟨rfl, rfl, rfl, rfl, rfl⟩

/-- The sender after an acknowledgment of new data. -/
def advanced (sender : TCPSender) (windowSize : UInt16) (newAckno : ℕ) : TCPSender :=
  (({ sender with windowSize }.acknowledge newAckno).fillWindow).restartTimer

/-- An acknowledgment of something not sent is refused, one that is not new brings its window only,
and a new one is taken over. -/
theorem ackReceived_cases (sender : TCPSender) (ackno : WrappingInt32) (windowSize : UInt16) :
    sender.ackReceived ackno windowSize = (sender, false) ∨
      sender.ackReceived ackno windowSize = ({ sender with windowSize }, true) ∨
      sender.ackno < unwrap ackno sender.isn sender.ackno ∧
        unwrap ackno sender.isn sender.ackno ≤ sender.nextSeqno ∧
        sender.ackReceived ackno windowSize =
          (sender.advanced windowSize (unwrap ackno sender.isn sender.ackno), true) := by
  unfold ackReceived
  dsimp only
  split_ifs with hbeyond hold
  · exact .inl rfl
  · exact .inr (.inl rfl)
  · exact .inr (.inr ⟨not_le.mp hold, not_lt.mp hbeyond, rfl⟩)

/-! ## Moves -/

/-- The elementary moves of the sender. -/
inductive Move : TCPSender → TCPSender → Prop
  | send {sender : TCPSender} {windowSize : ℕ} {segment : TCPSegment} (hwindow : 0 < windowSize)
      (hwants : sender.wantsToSend = true) (hnext : NextSegment sender windowSize segment) :
      Move sender (sender.sent segment)
  | acknowledge {sender : TCPSender} {newAckno : ℕ} (hnew : sender.ackno < newAckno)
      (hsent : newAckno ≤ sender.nextSeqno) : Move sender (sender.acknowledge newAckno)
  | again {sender : TCPSender} {oldest : ℕ × TCPSegment} {rest : List (ℕ × TCPSegment)}
      (hfront : sender.outstandingSegment = oldest :: rest) :
      Move sender { sender with
        segmentsOut := sender.segmentsOut ++
          [{ segment := oldest.2, kind := .again, absSeqno := oldest.1 }] }
  | bare {sender : TCPSender} : Move sender sender.sendEmptySegment
  | adjust {sender : TCPSender} (windowSize : UInt16) (rto consecutiveRetransmissions : UInt32)
      (timer : RetransmissionTimer) :
      Move sender { sender with windowSize, rto, consecutiveRetransmissions, timer }

abbrev Moves : TCPSender → TCPSender → Prop := ReflTransGen Move

/-- An invariant that every move keeps is kept by every sequence of moves. -/
theorem Moves.invariant {after : TCPSender} (inv : TCPSender → Prop)
    (hmove : ∀ before after, inv before → Move before after → inv after)
    (h : Moves sender after) (hstart : inv sender) : inv after := by
  induction h with
  | refl => exact hstart
  | tail _ hlast ih => exact hmove _ _ ih hlast

theorem valid_move {after : TCPSender} (hvalid : sender.stream.Valid) (h : Move sender after) :
    after.stream.Valid := by
  cases h with
  | send => exact valid_sent hvalid _
  | @acknowledge newAckno =>
    obtain ⟨bytes, heq, -⟩ := acknowledge_eq sender newAckno
    rw [heq]
    exact hvalid
  | again | bare | adjust => exact hvalid

theorem fin_move {after : TCPSender} (hfin : sender.fin = true) (h : Move sender after) :
    after.fin = true := by
  cases h with
  | send =>
    change (sender.fin || _) = true
    rw [hfin, Bool.true_or]
  | @acknowledge newAckno =>
    obtain ⟨bytes, heq, -⟩ := acknowledge_eq sender newAckno
    rw [heq]
    exact hfin
  | again | bare | adjust => exact hfin

/-- Filling the window consists of moves. -/
theorem fillWindow_moves (hvalid : sender.stream.Valid) : Moves sender sender.fillWindow := by
  obtain ⟨left, hmoves, -⟩ := fillWindow_rule (fun after _ ↦ Moves sender after)
    (fun _ _ _ _ hmoves hwindow hwants hnext _ ↦ hmoves.tail (.send hwindow hwants hnext))
    hvalid .refl
  exact hmoves

/-- What an acknowledgment does consists of moves. -/
theorem ackReceived_moves (hvalid : sender.stream.Valid) (ackno : WrappingInt32)
    (windowSize : UInt16) : Moves sender (sender.ackReceived ackno windowSize).1 := by
  have hadjust : Moves sender { sender with windowSize } :=
    .single (.adjust windowSize sender.rto sender.consecutiveRetransmissions sender.timer)
  rcases ackReceived_cases sender ackno windowSize with heq | heq | ⟨hnew, hsent, heq⟩
  · rw [heq]
  · rw [heq]
    exact hadjust
  · have hacknowledge : Move { sender with windowSize } ({ sender with windowSize }.acknowledge _) :=
      .acknowledge hnew hsent
    have hstream : ({ sender with windowSize }.acknowledge _).stream.Valid :=
      valid_move (by exact hvalid) hacknowledge
    rw [heq]
    refine ((hadjust.tail hacknowledge).trans (fillWindow_moves hstream)).tail ?_
    exact .adjust _ _ _ _

/-- Filling the window leaves the acknowledgment number and the timeout alone. -/
theorem fillWindow_frame (hvalid : sender.stream.Valid) :
    sender.fillWindow.ackno = sender.ackno ∧
      sender.fillWindow.rto = sender.rto ∧
      sender.fillWindow.consecutiveRetransmissions = sender.consecutiveRetransmissions ∧
      sender.fillWindow.initialRetransmissionTimeout = sender.initialRetransmissionTimeout := by
  obtain ⟨_, hframe, -⟩ := fillWindow_rule (fun after _ ↦ after.ackno = sender.ackno ∧
      after.rto = sender.rto ∧
      after.consecutiveRetransmissions = sender.consecutiveRetransmissions ∧
      after.initialRetransmissionTimeout = sender.initialRetransmissionTimeout)
    (fun _ _ _ _ hframe _ _ _ _ ↦ hframe) hvalid ⟨rfl, rfl, rfl, rfl⟩
  exact hframe

theorem ackno_fillWindow (hvalid : sender.stream.Valid) :
    sender.fillWindow.ackno = sender.ackno :=
  (fillWindow_frame hvalid).1

/-- An acknowledgment of new data resets the timeout. -/
theorem advanced_frame (hvalid : sender.stream.Valid) (windowSize : UInt16) (newAckno : ℕ) :
    (sender.advanced windowSize newAckno).ackno = newAckno ∧
      (sender.advanced windowSize newAckno).rto = sender.initialRetransmissionTimeout ∧
      (sender.advanced windowSize newAckno).consecutiveRetransmissions = 0 ∧
      (sender.advanced windowSize newAckno).initialRetransmissionTimeout =
        sender.initialRetransmissionTimeout := by
  obtain ⟨hackno, hstream, hrto, htries, hinitial⟩ :=
    acknowledge_frame { sender with windowSize } newAckno
  have hstays : ({ sender with windowSize }.acknowledge newAckno).stream.Valid := by
    rw [hstream]
    exact hvalid
  obtain ⟨hfilled, hfilledRto, hfilledTries, hfilledInitial⟩ := fillWindow_frame hstays
  dsimp only [advanced, restartTimer]
  exact ⟨hfilled.trans hackno, hfilledRto.trans hrto, hfilledTries.trans htries,
    hfilledInitial.trans hinitial⟩

theorem ackno_advanced (hvalid : sender.stream.Valid) (windowSize : UInt16) (newAckno : ℕ) :
    (sender.advanced windowSize newAckno).ackno = newAckno :=
  (advanced_frame hvalid windowSize newAckno).1

/-- The acknowledgment number of the sender stays, or it is the one that was received. -/
theorem ackno_ackReceived (hvalid : sender.stream.Valid) (ackno : WrappingInt32)
    (windowSize : UInt16) :
    (sender.ackReceived ackno windowSize).1.ackno = sender.ackno ∨
      (sender.ackReceived ackno windowSize).1.ackno = unwrap ackno sender.isn sender.ackno := by
  rcases ackReceived_cases sender ackno windowSize with heq | heq | ⟨-, -, heq⟩
  · exact .inl (by rw [heq])
  · exact .inl (by rw [heq])
  · exact .inr (by rw [heq, ackno_advanced hvalid])

theorem retransmit_moves {oldest : ℕ × TCPSegment} {rest : List (ℕ × TCPSegment)}
    (hfront : sender.outstandingSegment = oldest :: rest) :
    Moves sender (sender.retransmit oldest) := by
  have hagain := ReflTransGen.single (Move.again hfront)
  unfold retransmit
  dsimp only
  split_ifs
  · exact hagain.tail (.adjust _ _ _ _)
  · exact .single (.adjust _ _ _ _)
  · exact hagain.tail (.adjust _ _ _ _)
  · exact .single (.adjust _ _ _ _)

/-- A tick leaves the sequence numbers, the stream and the window alone. -/
theorem tick_frame (sender : TCPSender) (msSinceLastTick : ℕ) :
    ∃ segmentsOut rto consecutiveRetransmissions timer, sender.tick msSinceLastTick =
      { sender with segmentsOut, rto, consecutiveRetransmissions, timer } := by
  unfold tick
  dsimp only
  split
  · exact ⟨_, _, _, _, rfl⟩
  · split_ifs
    · unfold retransmit
      dsimp only
      split_ifs <;> exact ⟨_, _, _, _, rfl⟩
    · exact ⟨_, _, _, _, rfl⟩

/-- What a tick does consists of moves. -/
theorem tick_moves (sender : TCPSender) (msSinceLastTick : ℕ) :
    Moves sender (sender.tick msSinceLastTick) := by
  have hpassed : Moves sender { sender with
      timer := sender.timer.timeExpired (UInt32.ofNat msSinceLastTick) } :=
    .single (.adjust _ _ _ _)
  unfold tick
  dsimp only
  split
  · exact hpassed
  · rename_i oldest rest hfront
    split_ifs
    · exact hpassed.trans (retransmit_moves hfront)
    · exact hpassed

end Sponge.TCPSender
