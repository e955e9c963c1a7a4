import Sponge.Library.OrderedKeys
import Sponge.Stream.ByteStream
import Sponge.TCP.TCPSegment

/-!
# The TCP sender

`TCPSender` cuts the outgoing stream into segments, keeps the segments that have not been
acknowledged in a set ordered by absolute sequence number, and retransmits the oldest one when the
retransmission timer expires.

The outbound queue holds each segment together with a record of what it is: a first transmission, a
retransmission or a bare segment, and the absolute numbers that its header carries modulo `2 ^ 32`.
No function of the model reads this record; it is there to be spoken about.  The queue is emptied
by the owner of the sender only.
-/

namespace Sponge

/-- The countdown that decides when to retransmit.  Times are `uint32_t` milliseconds. -/
structure RetransmissionTimer where
  remainingTime : UInt32
  expired : Bool
  stopped : Bool
  deriving DecidableEq, Repr

namespace RetransmissionTimer

def timeExpired (timer : RetransmissionTimer) (timeToExpire : UInt32) : RetransmissionTimer :=
  if timer.stopped then timer
  else if timeToExpire ≥ timer.remainingTime then { timer with expired := true }
  else { timer with remainingTime := timer.remainingTime - timeToExpire }

def isExpired (timer : RetransmissionTimer) : Bool := timer.expired && !timer.stopped

def isStopped (timer : RetransmissionTimer) : Bool := timer.stopped

def setNewTimer (initialTime : UInt32) : RetransmissionTimer := ⟨initialTime, false, false⟩

def stop : RetransmissionTimer := ⟨0, false, true⟩

end RetransmissionTimer

/-- Why a segment was put into the outbound queue. -/
inductive Transmission where
  | first
  | again
  | bare
  deriving DecidableEq, Repr

/-- A segment of the outbound queue, with the absolute numbers behind its header. -/
structure Emission where
  segment : TCPSegment
  kind : Transmission
  absSeqno : ℕ
  absAckno : ℕ := 0
  deriving DecidableEq, Repr

structure TCPSender where
  isn : WrappingInt32
  segmentsOut : List Emission := []
  initialRetransmissionTimeout : UInt32
  stream : ByteStream
  nextSeqno : ℕ := 0
  bytesInFlight : ℕ := 0
  consecutiveRetransmissions : UInt32 := 0
  ackno : ℕ := 0
  rto : UInt32
  outstandingSegment : List (ℕ × TCPSegment) := []
  timer : RetransmissionTimer := ⟨0, false, true⟩
  windowSize : UInt16 := 1
  syn : Bool := false
  fin : Bool := false
  deriving DecidableEq, Repr

namespace TCPSender

/-- Construct a sender.  The initial sequence number is the fixed one, if any, or a random one. -/
def new (capacity : ℕ) (retxTimeout : UInt16) (fixedIsn : Option WrappingInt32)
    (randomIsn : WrappingInt32) : TCPSender where
  isn := fixedIsn.getD randomIsn
  initialRetransmissionTimeout := retxTimeout.toUInt32
  stream := .new capacity
  rto := retxTimeout.toUInt32

/-! ## States of the sender -/

def closed (sender : TCPSender) : Bool := sender.nextSeqno == 0

def synSent (sender : TCPSender) : Bool :=
  sender.nextSeqno > 0 && sender.nextSeqno == sender.bytesInFlight

def synAcked (sender : TCPSender) : Bool :=
  sender.nextSeqno > sender.bytesInFlight && !sender.stream.eof

def synAckedFinToSend (sender : TCPSender) : Bool :=
  sender.nextSeqno < sender.stream.bytesWritten + 2 && sender.stream.eof

def finSent (sender : TCPSender) : Bool :=
  sender.stream.eof && sender.nextSeqno == sender.stream.bytesWritten + 2 &&
    sender.bytesInFlight > 0

def finAcked (sender : TCPSender) : Bool :=
  sender.stream.eof && sender.nextSeqno == sender.stream.bytesWritten + 2 &&
    sender.bytesInFlight == 0

/-! ## Sending -/

/-- The absolute sequence number of the first thing that has not been sent. -/
def firstUnsent (sender : TCPSender) : ℕ := sender.syn.toNat + sender.stream.bytesRead

/-- The local variables of one iteration of the loop in `fillWindow`. -/
structure Filling where
  sender : TCPSender
  segment : TCPSegment := {}
  used : ℕ := 0

namespace Filling

/-- Set SYN when CLOSED. -/
def setSyn (windowSize : ℕ) (filling : Filling) : Filling :=
  if filling.used + 1 ≤ windowSize ∧ filling.sender.closed then
    { sender := { filling.sender with syn := true }
      segment := { filling.segment with header := { filling.segment.header with syn := true } }
      used := filling.used + 1 }
  else filling

def setSeqno (absSeqno : ℕ) (filling : Filling) : Filling :=
  { filling with
    segment := { filling.segment with
      header := { filling.segment.header with seqno := wrap absSeqno filling.sender.isn } } }

/-- Read as much payload as the window and the segment have room for. -/
def setPayload (windowSize : ℕ) (filling : Filling) : Filling :=
  if windowSize > filling.used then
    let (data, stream) :=
      filling.sender.stream.read (min (windowSize - filling.used) TCPConfig.maxPayloadSize)
    { sender := { filling.sender with stream }
      segment := { filling.segment with payload := .ofString data }
      used := filling.used + (Buffer.ofString data).size }
  else filling

/-- Set FIN when SYN_ACKED_FIN_TO_SEND. -/
def setFin (windowSize : ℕ) (filling : Filling) : Filling :=
  if filling.used + 1 ≤ windowSize ∧ filling.sender.synAckedFinToSend then
    { sender := { filling.sender with fin := true }
      segment := { filling.segment with header := { filling.segment.header with fin := true } }
      used := filling.used + 1 }
  else filling

end Filling

/-- Queue a new segment, remember it as outstanding and start the timer if it is stopped. -/
def pushSegment (sender : TCPSender) (absSeqno : ℕ) (segment : TCPSegment) : TCPSender :=
  { sender with
    segmentsOut := sender.segmentsOut ++ [{ segment, kind := .first, absSeqno }]
    outstandingSegment :=
      OrderedKeys.insert Prod.fst (absSeqno, segment) sender.outstandingSegment
    bytesInFlight := sender.bytesInFlight + segment.lengthInSequenceSpace
    nextSeqno := absSeqno + segment.lengthInSequenceSpace
    timer := if sender.timer.isStopped then .setNewTimer sender.rto else sender.timer }

/-- One iteration of the loop in `fillWindow`: the new sender and what is left of the window. -/
def fillOnce (sender : TCPSender) (windowSize : ℕ) : TCPSender × ℕ :=
  let absSeqno := sender.firstUnsent
  let filling := ((((Filling.mk sender {} 0).setSyn windowSize).setSeqno absSeqno).setPayload
    windowSize).setFin windowSize
  (filling.sender.pushSegment absSeqno filling.segment, Word.sub windowSize filling.used)

/-- The condition of the loop in `fillWindow`, apart from the room in the window. -/
def wantsToSend (sender : TCPSender) : Bool :=
  sender.closed || ((sender.synSent || sender.synAcked) && !sender.stream.bufferEmpty) ||
    sender.synAckedFinToSend

/-- The loop in `fillWindow`.  `fillLoop_rule` shows that the window is enough fuel. -/
def fillLoop : ℕ → TCPSender → ℕ → TCPSender
  | 0, sender, _ => sender
  | fuel + 1, sender, windowSize =>
      if windowSize > 0 ∧ sender.wantsToSend then
        fillLoop fuel (sender.fillOnce windowSize).1 (sender.fillOnce windowSize).2
      else sender

/-- The window that `fillWindow` goes by: a window of zero counts as one. -/
def effectiveWindow (sender : TCPSender) : ℕ :=
  if sender.windowSize = 0 then 1 else sender.windowSize.toNat

/-- Create and send segments to fill as much of the window as possible. -/
def fillWindow (sender : TCPSender) : TCPSender :=
  if sender.ackno + sender.effectiveWindow ≤ sender.nextSeqno then sender
  else
    let windowSize := Word.sub (sender.ackno + sender.effectiveWindow) sender.nextSeqno
    fillLoop windowSize sender windowSize

/-- Send a segment that occupies no sequence numbers. -/
def sendEmptySegment (sender : TCPSender) : TCPSender :=
  { sender with
    segmentsOut := sender.segmentsOut ++
      [{ segment := { header := { seqno := wrap sender.nextSeqno sender.isn } }
         kind := .bare
         absSeqno := sender.nextSeqno }] }

/-! ## Acknowledgments and time -/

/-- The loop in `popOutstandingSegment`.  The list is the set of outstanding segments. -/
def popLoop : List (ℕ × TCPSegment) → TCPSender → TCPSender
  | [], sender => sender
  | front :: rest, sender =>
      if front.1 + front.2.lengthInSequenceSpace ≤ sender.ackno then
        popLoop rest { sender with
          bytesInFlight := Word.sub sender.bytesInFlight front.2.lengthInSequenceSpace
          outstandingSegment := rest }
      else sender

/-- Forget the outstanding segments that have been acknowledged as a whole. -/
def popOutstandingSegment (sender : TCPSender) : TCPSender :=
  popLoop sender.outstandingSegment sender

def acknowledge (sender : TCPSender) (newAckno : ℕ) : TCPSender :=
  popOutstandingSegment { sender with
    rto := sender.initialRetransmissionTimeout
    consecutiveRetransmissions := 0
    ackno := newAckno }

/-- Restart the timer if something is outstanding, and stop it otherwise. -/
def restartTimer (sender : TCPSender) : TCPSender :=
  { sender with
    timer := if sender.outstandingSegment ≠ [] then .setNewTimer sender.rto else .stop }

/-- An acknowledgment was received.  The result is false if it acknowledges something not sent. -/
def ackReceived (sender : TCPSender) (ackno : WrappingInt32) (windowSize : UInt16) :
    TCPSender × Bool :=
  let newAckno := unwrap ackno sender.isn sender.ackno
  if newAckno > sender.nextSeqno then (sender, false)
  else if newAckno ≤ sender.ackno then ({ sender with windowSize }, true)
  else ((({ sender with windowSize }.acknowledge newAckno).fillWindow).restartTimer, true)

/-- The timer has expired: back off unless the window is zero, retransmit the oldest outstanding
segment unless that was tried too often, and restart the timer.  `rto <<= 1` and the counter are 32
bits wide. -/
def retransmit (sender : TCPSender) (oldest : ℕ × TCPSegment) : TCPSender :=
  let sender :=
    if sender.windowSize > 0 then
      { sender with
        consecutiveRetransmissions := sender.consecutiveRetransmissions + 1
        rto := sender.rto <<< 1 }
    else sender
  let sender :=
    if sender.consecutiveRetransmissions ≤ TCPConfig.maxRetxAttempts then
      { sender with
        segmentsOut := sender.segmentsOut ++
          [{ segment := oldest.2, kind := .again, absSeqno := oldest.1 }] }
    else sender
  { sender with timer := .setNewTimer sender.rto }

/-- Time has passed.  The timer takes the milliseconds as a `uint32_t`. -/
def tick (sender : TCPSender) (msSinceLastTick : ℕ) : TCPSender :=
  let sender := { sender with
    timer := sender.timer.timeExpired (UInt32.ofNat msSinceLastTick) }
  match sender.outstandingSegment with
  | [] => sender
  | oldest :: _ => if sender.timer.isExpired then sender.retransmit oldest else sender

end TCPSender

end Sponge
