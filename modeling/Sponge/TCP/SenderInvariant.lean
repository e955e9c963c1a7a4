import Sponge.Library.Execution
import Sponge.TCP.SenderMoves
import Mathlib.Data.List.TakeWhile

/-!
# The representation invariant of the sender

The outstanding segments lie end to end, from a segment that the acknowledgment number reaches into
up to the next sequence number.  All counters of the sender follow from this and from what has been
read from the stream.  Each move keeps it; a write keeps it as long as it does not add bytes after
the FIN.
-/

namespace Sponge.TCPSender

open Execution Tiling

variable {sender after : TCPSender} {segment : TCPSegment} {windowSize : ℕ}

/-- The sequence numbers in use are in order. -/
structure Sequenced (sender : TCPSender) : Prop where
  valid : sender.stream.Valid
  chain : ∃ base ≤ sender.ackno,
    Tiles Prod.fst entryLength base sender.outstandingSegment sender.nextSeqno
  uncovered : ∀ entry ∈ sender.outstandingSegment, sender.ackno < entry.1 + entryLength entry
  ackno_le : sender.ackno ≤ sender.nextSeqno
  inFlight : sender.bytesInFlight = (sender.outstandingSegment.map entryLength).sum
  next : sender.nextSeqno = sender.firstUnsent + sender.fin.toNat
  unopened : sender.syn = false → sender.stream.byteRead = 0 ∧ sender.fin = false
  finished : sender.fin = true → sender.stream.ended = true ∧ sender.stream.contents = []

theorem sequenced_new (capacity : ℕ) (retxTimeout : UInt16) (fixedIsn : Option WrappingInt32)
    (randomIsn : WrappingInt32) : Sequenced (new capacity retxTimeout fixedIsn randomIsn) where
  valid := ByteStream.valid_new capacity
  chain := ⟨0, le_rfl, rfl⟩
  uncovered := by simp [new]
  ackno_le := le_rfl
  inFlight := rfl
  next := by simp [new, firstUnsent, ByteStream.bytesRead, ByteStream.new]
  unopened _ := ⟨rfl, rfl⟩
  finished := by simp [new]

namespace Sequenced

variable (h : sender.Sequenced)
include h

theorem closed_eq : sender.closed = !sender.syn := by
  have hnext := h.next
  unfold firstUnsent at hnext
  cases hsyn : sender.syn with
  | false =>
    have hunopened := h.unopened hsyn
    simp [closed, hnext, hsyn, hunopened, ByteStream.bytesRead]
  | true =>
    rw [hsyn] at hnext
    simp [closed, hnext]

theorem syn_of_fin (hfin : sender.fin = true) : sender.syn = true := by
  by_contra hsyn
  rw [(h.unopened (Bool.eq_false_iff.mpr hsyn)).2] at hfin
  contradiction

/-- After the FIN the loop has nothing to send. -/
theorem fin_eq_false_of_wantsToSend (hwants : sender.wantsToSend = true) : sender.fin = false := by
  by_contra hfin
  rw [Bool.not_eq_false] at hfin
  have hsyn := h.syn_of_fin hfin
  have hfinished := h.finished hfin
  have hwritten := h.valid.written_eq
  have hnext := h.next
  rw [firstUnsent, hsyn, hfin] at hnext
  have hempty := h.valid.bufferEmpty_iff.mpr hfinished.2
  simp only [wantsToSend, h.closed_eq, hsyn, hempty, Bool.not_true, Bool.and_false, Bool.false_or,
    synAckedFinToSend, Bool.and_eq_true_iff, decide_eq_true_iff] at hwants
  simp only [hfinished.2, List.length_nil, ByteStream.bytesRead, ByteStream.bytesWritten,
    Bool.toNat_true] at hwritten hnext hwants
  omega

theorem firstUnsent_eq (hfin : sender.fin = false) : sender.firstUnsent = sender.nextSeqno := by
  rw [h.next, hfin]
  rfl

theorem next_sent (hfin : sender.fin = false) (segment : TCPSegment) :
    (sender.sent segment).nextSeqno = sender.nextSeqno + segment.lengthInSequenceSpace := by
  rw [← h.firstUnsent_eq hfin]
  rfl

/-- What is outstanding has been sent. -/
theorem outstanding_lt {entry : ℕ × TCPSegment} (hentry : entry ∈ sender.outstandingSegment) :
    entry.1 < sender.nextSeqno := by
  obtain ⟨base, -, htiles⟩ := h.chain
  have hbounds := htiles.bounds hentry
  omega

/-- A new segment goes to the end of the set: no segment in it has the same sequence number. -/
theorem outstanding_sent (hfin : sender.fin = false) :
    (sender.sent segment).outstandingSegment =
      sender.outstandingSegment ++ [(sender.nextSeqno, segment)] := by
  rw [← h.firstUnsent_eq hfin]
  apply OrderedKeys.insert_eq_append
  intro entry hentry
  rw [h.firstUnsent_eq hfin]
  exact h.outstanding_lt hentry

/-- Nothing is outstanding exactly if everything has been acknowledged. -/
theorem eq_nil_iff : sender.outstandingSegment = [] ↔ sender.ackno = sender.nextSeqno := by
  obtain ⟨base, hbase, htiles⟩ := h.chain
  have hle := h.ackno_le
  cases houtstanding : sender.outstandingSegment with
  | nil =>
    rw [houtstanding] at htiles
    have : base = sender.nextSeqno := htiles
    simp only [true_iff]
    omega
  | cons front rest =>
    have hmem : front ∈ sender.outstandingSegment := by simp [houtstanding]
    have huncovered := h.uncovered front hmem
    have hbounds := htiles.bounds hmem
    simp only [reduceCtorEq, false_iff]
    omega

/-- No more is sent than SYN, the bytes written and FIN. -/
theorem next_le : sender.nextSeqno ≤ sender.stream.byteWritten + 2 := by
  have hnext := h.next
  have hwritten := h.valid.written_eq
  have hsyn := sender.syn.toNat_le
  have hfin := sender.fin.toNat_le
  unfold firstUnsent ByteStream.bytesRead at hnext
  omega

/-! ## Moves -/

theorem firstUnsent_sent (hnext : NextSegment sender windowSize segment) :
    (sender.sent segment).firstUnsent =
      sender.firstUnsent + segment.payload.size + segment.header.syn.toNat := by
  have hread := ByteStream.byteRead_popOutput h.valid segment.payload.size
  rw [min_eq_left hnext.size_le.2] at hread
  have hsyn : (sender.syn || segment.header.syn).toNat =
      sender.syn.toNat + segment.header.syn.toNat := by
    rw [hnext.syn, h.closed_eq]
    cases sender.syn <;> rfl
  change (sender.syn || segment.header.syn).toNat +
    (sender.stream.popOutput segment.payload.size).byteRead = _
  rw [hsyn, hread, firstUnsent, ByteStream.bytesRead]
  omega

/-- Sending the next segment keeps the numbers in order. -/
theorem sent (hwindow : 0 < windowSize) (hwants : sender.wantsToSend = true)
    (hnext : NextSegment sender windowSize segment) : (sender.sent segment).Sequenced := by
  have hfin := h.fin_eq_false_of_wantsToSend hwants
  have hpositive := hnext.length_pos h.valid hwindow hwants
  have hadvance := h.next_sent hfin segment
  have hflag : (sender.sent segment).fin = segment.header.fin := by
    change (sender.fin || segment.header.fin) = segment.header.fin
    rw [hfin, Bool.false_or]
  constructor
  case valid => exact valid_sent h.valid segment
  case chain =>
    obtain ⟨base, hbase, htiles⟩ := h.chain
    refine ⟨base, hbase, ?_⟩
    rw [h.outstanding_sent hfin, hadvance]
    exact htiles.concat rfl hpositive
  case uncovered =>
    intro entry hentry
    rw [h.outstanding_sent hfin, List.mem_append, List.mem_singleton] at hentry
    cases hentry with
    | inl hold => exact h.uncovered entry hold
    | inr hnew =>
      rw [hnew]
      exact h.ackno_le.trans_lt (Nat.lt_add_of_pos_right hpositive)
  case ackno_le =>
    calc
      sender.ackno ≤ sender.nextSeqno := h.ackno_le
      _ ≤ sender.nextSeqno + segment.lengthInSequenceSpace := Nat.le_add_right _ _
      _ = (sender.sent segment).nextSeqno := hadvance.symm
  case inFlight =>
    rw [h.outstanding_sent hfin, List.map_append, List.sum_append, ← h.inFlight]
    rfl
  case next =>
    calc
      (sender.sent segment).nextSeqno = sender.firstUnsent + (segment.payload.size +
          segment.header.syn.toNat + segment.header.fin.toNat) := by
        rw [hadvance, h.firstUnsent_eq hfin, segment.lengthInSequenceSpace_eq]
      _ = (sender.sent segment).firstUnsent + (sender.sent segment).fin.toNat := by
        rw [h.firstUnsent_sent hnext, hflag]
        omega
  case unopened =>
    intro hclosed
    have hboth : (sender.syn || segment.header.syn) = false := hclosed
    rw [hnext.syn, h.closed_eq, Bool.or_not_self] at hboth
    contradiction
  case finished =>
    intro hset
    rw [hflag] at hset
    obtain ⟨-, hall, hended, -⟩ := hnext.fin.mp hset
    refine ⟨(ByteStream.popOutput_frame _ _).2.2.1.trans hended, ?_⟩
    change (sender.stream.popOutput segment.payload.size).contents = []
    rw [ByteStream.contents_popOutput h.valid, hall, List.drop_length]

/-- Taking a new acknowledgment over keeps the numbers in order. -/
theorem acknowledge {newAckno : ℕ} (hnew : sender.ackno < newAckno)
    (hsent : newAckno ≤ sender.nextSeqno) : (sender.acknowledge newAckno).Sequenced := by
  obtain ⟨bytes, heq, hbytes⟩ := acknowledge_eq sender newAckno
  obtain ⟨base, hbase, htiles⟩ := h.chain
  have hcovered (entry : ℕ × TCPSegment) :
      covered newAckno entry = true ↔ entry.1 + entryLength entry ≤ newAckno :=
    decide_eq_true_iff
  have hdrop := htiles.dropWhile hcovered (hbase.trans hnew.le)
  rw [heq]
  exact ⟨h.valid, hdrop.1, hdrop.2, hsent, hbytes h.inFlight, h.next, h.unopened, h.finished⟩

/-- Every move keeps the numbers in order. -/
theorem move (hmove : Move sender after) : after.Sequenced := by
  cases hmove with
  | send hwindow hwants hnext => exact h.sent hwindow hwants hnext
  | acknowledge hnew hsent => exact h.acknowledge hnew hsent
  | again | bare | adjust =>
    exact ⟨h.valid, h.chain, h.uncovered, h.ackno_le, h.inFlight, h.next, h.unopened, h.finished⟩

theorem moves (hmoves : Moves sender after) : after.Sequenced :=
  hmoves.invariant Sequenced (fun _ _ hbefore hmove ↦ hbefore.move hmove) h

/-- Writing is harmless as long as it adds nothing after the FIN. -/
theorem write {data : List UInt8}
    (hwrite : sender.fin = true → (sender.stream.write data).2 = 0) :
    Sequenced { sender with stream := (sender.stream.write data).1 } where
  valid := h.valid.write data
  chain := h.chain
  uncovered := h.uncovered
  ackno_le := h.ackno_le
  inFlight := h.inFlight
  next := h.next
  unopened := h.unopened
  finished hfin := by
    have hfinished := h.finished hfin
    refine ⟨hfinished.1, ?_⟩
    dsimp only
    rw [ByteStream.contents_write, hwrite hfin, hfinished.2, List.take_zero, List.append_nil]

theorem endInput : Sequenced { sender with stream := sender.stream.endInput } :=
  ⟨h.valid.endInput, h.chain, h.uncovered, h.ackno_le,
    h.inFlight, h.next, h.unopened, fun hfin ↦ ⟨rfl, (h.finished hfin).2⟩⟩

theorem setError : Sequenced { sender with stream := sender.stream.setError } :=
  ⟨h.valid.setError, h.chain, h.uncovered, h.ackno_le,
    h.inFlight, h.next, h.unopened, h.finished⟩

theorem drain : Sequenced { sender with segmentsOut := [] } :=
  ⟨h.valid, h.chain, h.uncovered, h.ackno_le, h.inFlight, h.next, h.unopened, h.finished⟩

end Sequenced

/-! ## The timer -/

/-- The timer runs exactly while something is outstanding. -/
def Timed (sender : TCPSender) : Prop :=
  sender.timer.isStopped = true ↔ sender.outstandingSegment = []

theorem timed_sent (sender : TCPSender) (segment : TCPSegment) : (sender.sent segment).Timed := by
  have hrunning : (sender.sent segment).timer.isStopped = false := by
    change RetransmissionTimer.isStopped (if sender.timer.isStopped = true then _ else _) = false
    split_ifs with hstopped
    · rfl
    · exact Bool.eq_false_iff.mpr hstopped
  have hsome : (sender.sent segment).outstandingSegment ≠ [] :=
    OrderedKeys.insert_ne_nil
  simp [Timed, hrunning, hsome]

/-- Filling the window starts the timer with the first segment. -/
theorem Timed.fillWindow (h : sender.Timed) (hvalid : sender.stream.Valid) :
    sender.fillWindow.Timed := by
  obtain ⟨_, htimed, -⟩ := fillWindow_rule (fun sender _ ↦ sender.Timed)
    (fun sender _ segment _ _ _ _ _ _ ↦ timed_sent sender segment) hvalid h
  exact htimed

theorem timed_restartTimer (sender : TCPSender) : sender.restartTimer.Timed := by
  unfold Timed restartTimer
  by_cases hnone : sender.outstandingSegment = []
  · simp [hnone, RetransmissionTimer.stop, RetransmissionTimer.isStopped]
  · simp [hnone, RetransmissionTimer.setNewTimer, RetransmissionTimer.isStopped]

/-- The timer is stopped with the last acknowledgment. -/
theorem Timed.ackReceived (h : sender.Timed) (ackno : WrappingInt32) (windowSize : UInt16) :
    (sender.ackReceived ackno windowSize).1.Timed := by
  unfold TCPSender.ackReceived
  dsimp only
  split_ifs
  · exact h
  · exact h
  · exact timed_restartTimer _

theorem isStopped_timeExpired (timer : RetransmissionTimer) (timeToExpire : UInt32) :
    (timer.timeExpired timeToExpire).isStopped = timer.isStopped := by
  unfold RetransmissionTimer.timeExpired
  split_ifs <;> rfl

theorem retransmit_frame (sender : TCPSender) (oldest : ℕ × TCPSegment) :
    (sender.retransmit oldest).outstandingSegment = sender.outstandingSegment ∧
      (sender.retransmit oldest).timer.isStopped = false := by
  unfold retransmit
  dsimp only
  split_ifs <;> exact ⟨rfl, rfl⟩

theorem Timed.tick (h : sender.Timed) (msSinceLastTick : ℕ) :
    (sender.tick msSinceLastTick).Timed := by
  have hpassed : Timed { sender with
      timer := sender.timer.timeExpired (UInt32.ofNat msSinceLastTick) } :=
    (Bool.eq_iff_iff.mp (isStopped_timeExpired _ _)).trans h
  unfold TCPSender.tick
  dsimp only
  split
  · exact hpassed
  · rename_i oldest rest hfront
    split_ifs
    · have hframe := retransmit_frame { sender with
        timer := sender.timer.timeExpired (UInt32.ofNat msSinceLastTick) } oldest
      have hsome : sender.outstandingSegment ≠ [] := hfront ▸ List.cons_ne_nil _ _
      exact iff_of_false (Bool.eq_false_iff.mp hframe.2) fun hnone ↦
        hsome (hframe.1.symm.trans hnone)
    · exact hpassed

/-! ## No segment is lost -/

/-- Every new segment stays outstanding until it is acknowledged as a whole. -/
def Retained (sender : TCPSender) : Prop :=
  ∀ emission ∈ sender.segmentsOut, emission.kind = .first →
    sender.ackno < emission.absSeqno + emission.segment.lengthInSequenceSpace →
    (emission.absSeqno, emission.segment) ∈ sender.outstandingSegment

theorem mem_dropWhile_covered {entry : ℕ × TCPSegment} {outstanding : List (ℕ × TCPSegment)}
    {ackno : ℕ} (hentry : entry ∈ outstanding) (hbeyond : ackno < entry.1 + entryLength entry) :
    entry ∈ outstanding.dropWhile (covered ackno) := by
  rw [← List.takeWhile_append_dropWhile (p := covered ackno) (l := outstanding)] at hentry
  cases List.mem_append.mp hentry with
  | inl htaken =>
    have hcovered : covered ackno entry = true := List.mem_takeWhile_imp htaken
    exact absurd hbeyond (not_lt.mpr (of_decide_eq_true hcovered))
  | inr hkept => exact hkept

/-- A segment leaves the outstanding ones only when it has been acknowledged as a whole. -/
theorem Retained.move (h : sender.Retained) (hsequenced : sender.Sequenced)
    (hmove : Move sender after) : after.Retained := by
  cases hmove with
  | send hwindow hwants hnext =>
    have hfin := hsequenced.fin_eq_false_of_wantsToSend hwants
    intro emission hemission hfirst hbeyond
    rw [hsequenced.outstanding_sent hfin]
    apply List.mem_append.mpr
    cases List.mem_append.mp hemission with
    | inl hold => exact .inl (h emission hold hfirst hbeyond)
    | inr hnew =>
      rw [List.mem_singleton.mp hnew]
      exact .inr (List.mem_singleton.mpr (by rw [← hsequenced.firstUnsent_eq hfin]))
  | @acknowledge newAckno hnew hsent =>
    obtain ⟨bytes, heq, -⟩ := acknowledge_eq sender newAckno
    rw [heq]
    intro emission hemission hfirst hbeyond
    apply mem_dropWhile_covered _ hbeyond
    exact h emission hemission hfirst (hnew.trans hbeyond)
  | again | bare =>
    intro emission hemission hfirst
    cases List.mem_append.mp hemission with
    | inl hold => exact h emission hold hfirst
    | inr hnew =>
      rw [List.mem_singleton.mp hnew] at hfirst
      contradiction
  | adjust => exact h

/-! ## Runs -/

inductive Call where
  | write (data : List UInt8)
  | endInput
  | fillWindow
  | ackReceived (ackno : WrappingInt32) (windowSize : UInt16)
  | tick (msSinceLastTick : ℕ)
  | sendEmptySegment
  deriving DecidableEq, Repr

def step (sender : TCPSender) : Call → TCPSender
  | .write data => { sender with stream := (sender.stream.write data).1 }
  | .endInput => { sender with stream := sender.stream.endInput }
  | .fillWindow => sender.fillWindow
  | .ackReceived ackno windowSize => (sender.ackReceived ackno windowSize).1
  | .tick msSinceLastTick => sender.tick msSinceLastTick
  | .sendEmptySegment => sender.sendEmptySegment

def acceptedBy (sender : TCPSender) : Call → List UInt8
  | .write data => data.take (sender.stream.write data).2
  | _ => []

def WritesBeforeEnd (sender : TCPSender) : Call → Prop
  | .write _ => sender.stream.inputEnded = false
  | _ => True

instance (sender : TCPSender) : (call : Call) → Decidable (sender.WritesBeforeEnd call)
  | .write _ => inferInstanceAs (Decidable (_ = false))
  | .endInput => inferInstanceAs (Decidable True)
  | .fillWindow => inferInstanceAs (Decidable True)
  | .ackReceived _ _ => inferInstanceAs (Decidable True)
  | .tick _ => inferInstanceAs (Decidable True)
  | .sendEmptySegment => inferInstanceAs (Decidable True)

/-- A call is a change of the stream or a sequence of moves. -/
theorem step_cases (hvalid : sender.stream.Valid) (call : Call) :
    (∃ data, call = .write data) ∨ call = .endInput ∨
      (sender.acceptedBy call = [] ∧ Moves sender (sender.step call)) := by
  cases call with
  | write data => exact .inl ⟨data, rfl⟩
  | endInput => exact .inr (.inl rfl)
  | fillWindow => exact .inr (.inr ⟨rfl, fillWindow_moves hvalid⟩)
  | ackReceived ackno windowSize =>
    exact .inr (.inr ⟨rfl, ackReceived_moves hvalid ackno windowSize⟩)
  | tick msSinceLastTick => exact .inr (.inr ⟨rfl, tick_moves sender msSinceLastTick⟩)
  | sendEmptySegment => exact .inr (.inr ⟨rfl, .single .bare⟩)

theorem Sequenced.step {call : Call} (h : sender.Sequenced) (hcall : sender.WritesBeforeEnd call) :
    (sender.step call).Sequenced := by
  cases step_cases h.valid call with
  | inl hwrite =>
    obtain ⟨data, rfl⟩ := hwrite
    apply h.write
    intro hfin
    have hended : sender.stream.ended = false := hcall
    rw [(h.finished hfin).1] at hended
    contradiction
  | inr hother =>
    cases hother with
    | inl hend =>
      rw [hend]
      exact h.endInput
    | inr hmoves => exact h.moves hmoves.2

theorem Timed.step (h : sender.Timed) (hvalid : sender.stream.Valid) (call : Call) :
    (sender.step call).Timed := by
  cases call with
  | fillWindow => exact h.fillWindow hvalid
  | ackReceived ackno windowSize => exact h.ackReceived ackno windowSize
  | tick msSinceLastTick => exact h.tick msSinceLastTick
  | write | endInput | sendEmptySegment => exact h

theorem Retained.step {call : Call} (h : sender.Retained) (hsequenced : sender.Sequenced) :
    (sender.step call).Retained := by
  cases step_cases hsequenced.valid call with
  | inl hwrite =>
    obtain ⟨data, rfl⟩ := hwrite
    exact h
  | inr hother =>
    cases hother with
    | inl hend =>
      rw [hend]
      exact h
    | inr hmoves =>
      have hboth := hmoves.2.invariant (fun sender ↦ sender.Sequenced ∧ sender.Retained)
        (fun _ _ hbefore hmove ↦ ⟨hbefore.1.move hmove, hbefore.2.move hbefore.1 hmove⟩)
        ⟨hsequenced, h⟩
      exact hboth.2

/-- The representation invariant, as a user of the sender can observe it. -/
structure WellFormed (sender : TCPSender) : Prop where
  /-- The set is sorted, its segments are not empty, and each starts where the one before ends. -/
  ordered : OrderedKeys.Ordered Prod.fst sender.outstandingSegment
  nonempty : ∀ entry ∈ sender.outstandingSegment, 0 < entryLength entry
  contiguous : sender.outstandingSegment.IsChain fun first second ↦
    first.1 + entryLength first = second.1
  last : ∀ entry ∈ sender.outstandingSegment.getLast?,
    entry.1 + entryLength entry = sender.nextSeqno
  inFlight : sender.bytesInFlight = (sender.outstandingSegment.map entryLength).sum
  first : ∀ entry ∈ sender.outstandingSegment.head?,
    sender.bytesInFlight = sender.nextSeqno - entry.1 ∧ entry.1 ≤ sender.ackno ∧
      sender.ackno < entry.1 + entryLength entry
  empty_iff : sender.outstandingSegment = [] ↔ sender.ackno = sender.nextSeqno
  next : sender.nextSeqno = sender.syn.toNat + sender.stream.bytesRead + sender.fin.toNat
  next_le : sender.nextSeqno ≤ sender.stream.bytesWritten + 2
  stopped_iff : sender.timer.isStopped = true ↔ sender.outstandingSegment = []
  /-- Popping from the front never subtracts more than the count of bytes. -/
  popped : ∀ count, ((sender.outstandingSegment.take count).map entryLength).sum ≤
    sender.bytesInFlight
  /-- The loop inserts behind the largest sequence number, and what it has inserted is there until
  it is acknowledged. -/
  fresh : sender.wantsToSend = true → ∀ entry ∈ sender.outstandingSegment,
    entry.1 < sender.firstUnsent
  retained : sender.Retained

/-- The first outstanding segment starts where the tiling does. -/
theorem Sequenced.head (h : sender.Sequenced) {entry : ℕ × TCPSegment}
    (hentry : entry ∈ sender.outstandingSegment.head?) :
    sender.bytesInFlight = sender.nextSeqno - entry.1 ∧ entry.1 ≤ sender.ackno ∧
      sender.ackno < entry.1 + entryLength entry := by
  obtain ⟨base, hbase, htiles⟩ := h.chain
  have hsum := htiles.add_sum
  have huncovered := h.uncovered entry (List.mem_of_head? hentry)
  have hstart : entry.1 = base := by
    cases houtstanding : sender.outstandingSegment with
    | nil => simp [houtstanding] at hentry
    | cons front rest =>
      rw [houtstanding] at hentry htiles
      rw [← Option.some.inj hentry]
      exact htiles.1
  rw [← h.inFlight] at hsum
  omega

theorem Sequenced.sum_take_le (h : sender.Sequenced) (count : ℕ) :
    ((sender.outstandingSegment.take count).map entryLength).sum ≤ sender.bytesInFlight := by
  rw [h.inFlight]
  conv_rhs => rw [← List.take_append_drop count sender.outstandingSegment]
  rw [List.map_append, List.sum_append]
  exact Nat.le_add_right _ _

/-- The three invariants give the representation invariant. -/
theorem Sequenced.wellFormed (h : sender.Sequenced) (htimed : sender.Timed)
    (hretained : sender.Retained) : sender.WellFormed := by
  obtain ⟨base, -, htiles⟩ := h.chain
  constructor
  case ordered => exact htiles.pairwise_start
  case nonempty => exact fun entry hentry ↦ (htiles.bounds hentry).2.1
  case contiguous => exact htiles.adjacent
  case last => exact fun entry hentry ↦ htiles.getLast hentry
  case inFlight => exact h.inFlight
  case first => exact fun entry hentry ↦ h.head hentry
  case empty_iff => exact h.eq_nil_iff
  case next => exact h.next
  case next_le => exact h.next_le
  case stopped_iff => exact htimed
  case popped => exact h.sum_take_le
  case fresh =>
    intro hwants entry hentry
    rw [h.firstUnsent_eq (h.fin_eq_false_of_wantsToSend hwants)]
    exact h.outstanding_lt hentry
  case retained => exact hretained

/-- The representation invariant holds after every run in which nothing is written after the end of
the input, whatever acknowledgments and times the sender is given. -/
theorem wellFormed_run (capacity : ℕ) (retxTimeout : UInt16) (fixedIsn : Option WrappingInt32)
    (randomIsn : WrappingInt32) (calls : List Call)
    (h : Admissible step WritesBeforeEnd (new capacity retxTimeout fixedIsn randomIsn) calls) :
    (run step (new capacity retxTimeout fixedIsn randomIsn) calls).WellFormed := by
  have hinvariant := h.invariant
    (fun sender ↦ sender.Sequenced ∧ sender.Timed ∧ sender.Retained)
    (fun sender call hbefore hcall ↦ ⟨hbefore.1.step hcall,
      hbefore.2.1.step hbefore.1.valid call, hbefore.2.2.step hbefore.1⟩)
    ⟨sequenced_new capacity retxTimeout fixedIsn randomIsn, iff_of_true rfl rfl,
      by simp [Retained, new]⟩
  exact hinvariant.1.wellFormed hinvariant.2.1 hinvariant.2.2

theorem wellFormed_run_two_segments :
    let calls : List Call := [.fillWindow, .write [97, 98, 99], .ackReceived ⟨1⟩ 2, .endInput,
      .tick 5000, .ackReceived ⟨2⟩ 4]
    Admissible step WritesBeforeEnd (new 8 1000 (some ⟨0⟩) ⟨7⟩) calls ∧
      (run step (new 8 1000 (some ⟨0⟩) ⟨7⟩) calls).outstandingSegment.length = 2 ∧
      (run step (new 8 1000 (some ⟨0⟩) ⟨7⟩) calls).WellFormed := by
  have h : Admissible step WritesBeforeEnd (new 8 1000 (some ⟨0⟩) ⟨7⟩) [.fillWindow,
      .write [97, 98, 99], .ackReceived ⟨1⟩ 2, .endInput, .tick 5000, .ackReceived ⟨2⟩ 4] := by
    decide +kernel
  exact ⟨h, by decide +kernel, wellFormed_run 8 1000 (some ⟨0⟩) ⟨7⟩ _ h⟩

end Sponge.TCPSender
