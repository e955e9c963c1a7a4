import Sponge.Stream.StreamReassembler
import Sponge.TCP.TCPSegment

/-!
# The TCP receiver

`TCPReceiver` hands the payload of incoming segments to the reassembler, at the stream index that
their sequence number stands for, and computes the acknowledgment number and the window to announce.
-/

namespace Sponge

/-- State of the receiver.  `isn` is the sequence number of the peer's SYN, once it has arrived. -/
structure TCPReceiver where
  reassembler : StreamReassembler
  isn : Option WrappingInt32 := none
  deriving DecidableEq, Repr

namespace TCPReceiver

def new (capacity : ℕ) : TCPReceiver := { reassembler := .new capacity }

def streamOut (receiver : TCPReceiver) : ByteStream := receiver.reassembler.output

/-- `TCPReceiver::_ackno()`, the absolute acknowledgment number. -/
def absAckno (receiver : TCPReceiver) : ℕ :=
  receiver.reassembler.assembledBytes + receiver.isn.isSome.toNat +
    receiver.reassembler.empty.toNat

def ackno (receiver : TCPReceiver) : Option WrappingInt32 :=
  receiver.isn.map (wrap receiver.absAckno)

def windowSize (receiver : TCPReceiver) : ℕ := receiver.streamOut.remainingCapacity

def listen (receiver : TCPReceiver) : Bool := receiver.ackno.isNone

def synRecv (receiver : TCPReceiver) : Bool :=
  receiver.ackno.isSome && !receiver.streamOut.inputEnded

def finRecv (receiver : TCPReceiver) : Bool := receiver.streamOut.inputEnded

/-- `segmentReceived` after its first test, which deals with SYN.  The result is false if the
segment is not acceptable. -/
def acceptSegment (receiver : TCPReceiver) (segment : TCPSegment) : TCPReceiver × Bool :=
  match receiver.isn with
  -- Still LISTEN.
  | none => (receiver, false)
  | some isn =>
      if segment.header.fin && receiver.finRecv then (receiver, false)
      else if receiver.synRecv then
        let absSeqno := unwrap segment.header.seqno isn receiver.absAckno
        let index := Word.sub absSeqno (!segment.header.syn).toNat
        if absSeqno + segment.payload.size + segment.header.syn.toNat < receiver.absAckno then
          (receiver, false)
        -- A bare acknowledgment is acceptable at a closed window.
        else if absSeqno ≥ receiver.absAckno + receiver.windowSize ∧
            ¬ (receiver.windowSize = 0 ∧ segment.lengthInSequenceSpace = 0) then
          (receiver, false)
        else
          ({ receiver with
              reassembler :=
                receiver.reassembler.pushSubstring segment.payload.str index segment.header.fin },
            true)
      else (receiver, true)

/-- Handle an incoming segment. -/
def segmentReceived (receiver : TCPReceiver) (segment : TCPSegment) : TCPReceiver × Bool :=
  if segment.header.syn then
    if receiver.listen then
      let receiver := { receiver with isn := some segment.header.seqno }
      if segment.lengthInSequenceSpace = 1 then (receiver, true)
      else receiver.acceptSegment segment
    else (receiver, false)
  else receiver.acceptSegment segment

end TCPReceiver

end Sponge
