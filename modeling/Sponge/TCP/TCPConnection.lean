import Sponge.TCP.TCPReceiver
import Sponge.TCP.TCPSender

/-!
# The TCP connection

`TCPConnection` joins a sender and a receiver.  Each of its public functions does its own work and
then moves the sender's queue to its own, filling in the fields that the receiver knows, and checks
whether the connection is over.

The connection never takes a segment out of its own queue, and its owner is not modelled, so
`segmentsOut` is the list of all segments that the connection has ever sent.  The destructor, which
sends a final RST, and the debugger are left out.
-/

namespace Sponge

structure TCPConnection where
  cfg : TCPConfig
  receiver : TCPReceiver
  sender : TCPSender
  isUnclearShutdown : Bool := false
  isClearShutdown : Bool := false
  nowTime : ℕ := 0
  timeWhenLastSegmentReceived : ℕ := 0
  segmentsOut : List Emission := []
  lingerAfterStreamsFinish : Bool := true
  deriving DecidableEq, Repr

namespace TCPConnection

def new (cfg : TCPConfig) (randomIsn : WrappingInt32) : TCPConnection where
  cfg
  receiver := .new cfg.recvCapacity
  sender := .new cfg.sendCapacity cfg.rtTimeout cfg.fixedIsn randomIsn

def active (connection : TCPConnection) : Bool :=
  !(connection.isUnclearShutdown || connection.isClearShutdown)

def remainingOutboundCapacity (connection : TCPConnection) : ℕ :=
  connection.sender.stream.remainingCapacity

def inboundStream (connection : TCPConnection) : ByteStream := connection.receiver.streamOut

def timeSinceLastSegmentReceived (connection : TCPConnection) : ℕ :=
  Word.sub connection.nowTime connection.timeWhenLastSegmentReceived

/-! ## States of the connection -/

def listen (connection : TCPConnection) : Bool :=
  connection.receiver.listen && connection.sender.closed

def synRcvd (connection : TCPConnection) : Bool :=
  connection.receiver.synRecv && connection.sender.synSent

def synSent (connection : TCPConnection) : Bool :=
  connection.receiver.listen && connection.sender.synSent

def established (connection : TCPConnection) : Bool :=
  connection.receiver.synRecv && connection.sender.synAcked

def closeWait (connection : TCPConnection) : Bool :=
  connection.receiver.finRecv && connection.sender.synAcked && !connection.lingerAfterStreamsFinish

def lastAck (connection : TCPConnection) : Bool :=
  connection.receiver.finRecv && connection.sender.finSent && !connection.lingerAfterStreamsFinish

def closing (connection : TCPConnection) : Bool :=
  connection.receiver.finRecv && connection.sender.finSent

def finWait1 (connection : TCPConnection) : Bool :=
  connection.receiver.synRecv && connection.sender.finSent

def finWait2 (connection : TCPConnection) : Bool :=
  connection.receiver.synRecv && connection.sender.finAcked

def timeWait (connection : TCPConnection) : Bool :=
  connection.receiver.finRecv && connection.sender.finAcked

/-! ## Output -/

/-- Fill in the fields of a segment that the sender does not know. -/
def setSegment (connection : TCPConnection) (emission : Emission) : Emission :=
  if connection.isUnclearShutdown then
    { emission with
      segment := { emission.segment with
        header := { emission.segment.header with rst := true } } }
  else
    match connection.receiver.ackno with
    | none => emission
    | some ackno =>
        { emission with
          segment := { emission.segment with
            header := { emission.segment.header with
              ack := true
              ackno
              win :=
                if connection.receiver.windowSize ≥ 65535 then 65535
                else UInt16.ofNat connection.receiver.windowSize } }
          absAckno := connection.receiver.absAckno }

/-- Move all segments of the sender's queue to the queue of the connection. -/
def collectOutput (connection : TCPConnection) : TCPConnection :=
  { connection with
    segmentsOut := connection.segmentsOut ++
      connection.sender.segmentsOut.map connection.setSegment
    sender := { connection.sender with segmentsOut := [] } }

def unclearShutdown (connection : TCPConnection) : TCPConnection :=
  { connection with
    sender := { connection.sender with stream := connection.sender.stream.setError }
    receiver := { connection.receiver with
      reassembler := { connection.receiver.reassembler with
        output := connection.receiver.reassembler.output.setError } }
    isUnclearShutdown := true }

def sendEmptySegment (connection : TCPConnection) : TCPConnection :=
  { connection with sender := connection.sender.sendEmptySegment }.collectOutput

/-- Reset the connection after too many retransmissions. -/
def giveUp (connection : TCPConnection) : TCPConnection :=
  if connection.sender.consecutiveRetransmissions > TCPConfig.maxRetxAttempts then
    connection.unclearShutdown.sendEmptySegment
  else connection

/-- If the inbound stream ends before the outbound stream has, there is no need to linger. -/
def stopLingering (connection : TCPConnection) : TCPConnection :=
  if !connection.sender.stream.eof && connection.receiver.finRecv then
    { connection with lingerAfterStreamsFinish := false }
  else connection

/-- In TIME_WAIT, end the connection at once or after lingering long enough. -/
def clearShutdown (connection : TCPConnection) : TCPConnection :=
  if connection.timeWait then
    { connection with
      isClearShutdown := connection.isClearShutdown ||
        (!connection.lingerAfterStreamsFinish ||
          connection.timeSinceLastSegmentReceived ≥ 10 * connection.cfg.rtTimeout.toNat) }
  else connection

/-- Decide whether the connection is over. -/
def testEnd (connection : TCPConnection) : TCPConnection :=
  connection.giveUp.stopLingering.clearShutdown

/-! ## Public functions -/

/-- Hand the acknowledgment of a segment, if it has one, to the sender. -/
def processAck (connection : TCPConnection) (segment : TCPSegment) : TCPSender × Bool :=
  if segment.header.ack then
    connection.sender.ackReceived segment.header.ackno segment.header.win
  else (connection.sender, true)

/-- The end of `segmentReceiveRoute`: process the acknowledgment, and answer with a bare segment if
one is called for and nothing else is going to be sent. -/
def acknowledgeAndReply (connection : TCPConnection) (segment : TCPSegment)
    (shouldSendEmptySegment : Bool) : TCPConnection :=
  let processed := connection.processAck segment
  let shouldSendEmptySegment := shouldSendEmptySegment || !processed.2 ||
    segment.lengthInSequenceSpace > 0
  { connection with
    sender :=
      if shouldSendEmptySegment && processed.1.segmentsOut.isEmpty then
        processed.1.sendEmptySegment
      else processed.1 }

def segmentReceiveRoute (connection : TCPConnection) (segment : TCPSegment) : TCPConnection :=
  if connection.listen then
    if segment.header.syn then
      { connection with
        receiver := (connection.receiver.segmentReceived segment).1
        sender := connection.sender.fillWindow }
    else connection
  else if segment.header.rst then connection.unclearShutdown
  else
    let accepted := connection.receiver.segmentReceived segment
    let connection := { connection with receiver := accepted.1 }
    if connection.synSent && !accepted.2 then connection
    else connection.acknowledgeAndReply segment (!accepted.2)

def segmentReceived (connection : TCPConnection) (segment : TCPSegment) : TCPConnection :=
  ({ connection with timeWhenLastSegmentReceived := connection.nowTime }.segmentReceiveRoute
    segment).collectOutput.testEnd

/-- Write data to the outbound stream, send it if possible, and return how much was taken. -/
def write (connection : TCPConnection) (data : List UInt8) : TCPConnection × ℕ :=
  let written := connection.sender.stream.write data
  ({ connection with
      sender := { connection.sender with stream := written.1 }.fillWindow }.collectOutput.testEnd,
    written.2)

def tick (connection : TCPConnection) (msSinceLastTick : ℕ) : TCPConnection :=
  { connection with
    nowTime := connection.nowTime + msSinceLastTick
    sender := connection.sender.tick msSinceLastTick }.collectOutput.testEnd

def endInputStream (connection : TCPConnection) : TCPConnection :=
  { connection with
    sender := { connection.sender with
      stream := connection.sender.stream.endInput }.fillWindow }.collectOutput.testEnd

def connect (connection : TCPConnection) : TCPConnection :=
  if connection.listen then
    { connection with sender := connection.sender.fillWindow }.collectOutput
  else connection

def readInbound (connection : TCPConnection) (len : ℕ) : List UInt8 × TCPConnection :=
  let result := connection.receiver.reassembler.output.read len
  (result.1, { connection with
    receiver := { connection.receiver with
      reassembler := { connection.receiver.reassembler with output := result.2 } } })

/-! ## Runs -/

inductive Call where
  | connect
  | write (data : List UInt8)
  | endInputStream
  | segmentReceived (segment : TCPSegment)
  | tick (msSinceLastTick : ℕ)
  | readInbound (len : ℕ)
  deriving DecidableEq, Repr

def step (connection : TCPConnection) : Call → TCPConnection
  | .connect => connection.connect
  | .write data => (connection.write data).1
  | .endInputStream => connection.endInputStream
  | .segmentReceived segment => connection.segmentReceived segment
  | .tick msSinceLastTick => connection.tick msSinceLastTick
  | .readInbound len => (connection.readInbound len).2

end TCPConnection

end Sponge
