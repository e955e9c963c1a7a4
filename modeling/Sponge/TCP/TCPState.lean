import Sponge.TCP.TCPConnection
import Mathlib.Order.Basic

/-!
# Phases and official states

Sponge has no state machine of its own.  `TCPState` summarises the counters of the sender and of the
receiver, each in one phase, and compares the result with the official states.  The source writes a
phase as a text; the texts of one type are distinct, so the phases are enumerations here.
-/

namespace Sponge

/-! ## Phases of the receiver -/

/-- `TCPReceiverStateSummary`, in the order in which the phases follow one another. -/
inductive TCPReceiverStateSummary where
  | listen
  | synRecv
  | finRecv
  | error
  deriving DecidableEq, Repr

namespace TCPReceiverStateSummary

def text : TCPReceiverStateSummary → String
  | listen => "waiting for SYN: ackno is empty"
  | synRecv => "SYN received (ackno exists), and input to stream hasn't ended"
  | finRecv => "input to stream has ended"
  | error => "error (connection was reset)"

theorem text_injective : Function.Injective text := by
  intro first second h
  cases first <;> cases second <;> first | rfl | exact absurd h (by decide)

def rank : TCPReceiverStateSummary → ℕ
  | listen => 0
  | synRecv => 1
  | finRecv => 2
  | error => 3

theorem rank_injective : Function.Injective rank := by
  intro first second h
  cases first <;> cases second <;> first | rfl | exact absurd h (by decide)

instance : LinearOrder TCPReceiverStateSummary := LinearOrder.lift' rank rank_injective

end TCPReceiverStateSummary

def TCPReceiver.stateSummary (receiver : TCPReceiver) : TCPReceiverStateSummary :=
  if receiver.streamOut.error then .error
  else if receiver.ackno.isNone then .listen
  else if receiver.streamOut.inputEnded then .finRecv
  else .synRecv

/-! ## Phases of the sender -/

/-- `TCPSenderStateSummary`, in the order in which the phases follow one another. -/
inductive TCPSenderStateSummary where
  | closed
  | synSent
  | synAcked
  | finSent
  | finAcked
  | error
  deriving DecidableEq, Repr

namespace TCPSenderStateSummary

def text : TCPSenderStateSummary → String
  | closed => "waiting for stream to begin (no SYN sent)"
  | synSent => "stream started but nothing acknowledged"
  | synAcked => "stream ongoing"
  | finSent => "stream finished (FIN sent) but not fully acknowledged"
  | finAcked => "stream finished and fully acknowledged"
  | error => "error (connection was reset)"

theorem text_injective : Function.Injective text := by
  intro first second h
  cases first <;> cases second <;> first | rfl | exact absurd h (by decide)

def rank : TCPSenderStateSummary → ℕ
  | closed => 0
  | synSent => 1
  | synAcked => 2
  | finSent => 3
  | finAcked => 4
  | error => 5

theorem rank_injective : Function.Injective rank := by
  intro first second h
  cases first <;> cases second <;> first | rfl | exact absurd h (by decide)

instance : LinearOrder TCPSenderStateSummary := LinearOrder.lift' rank rank_injective

end TCPSenderStateSummary

def TCPSender.stateSummary (sender : TCPSender) : TCPSenderStateSummary :=
  if sender.stream.error then .error
  else if sender.nextSeqno = 0 then .closed
  else if sender.nextSeqno = sender.bytesInFlight then .synSent
  else if !sender.stream.eof then .synAcked
  else if sender.nextSeqno < sender.stream.bytesWritten + 2 then .synAcked
  else if sender.bytesInFlight ≠ 0 then .finSent
  else .finAcked

/-! ## States of a connection -/

structure TCPState where
  sender : TCPSenderStateSummary
  receiver : TCPReceiverStateSummary
  active : Bool := true
  lingerAfterStreamsFinish : Bool := true
  deriving DecidableEq, Repr

namespace TCPState

/-- The official state names. -/
inductive State where
  | listen
  | synRcvd
  | synSent
  | established
  | closeWait
  | lastAck
  | finWait1
  | finWait2
  | closing
  | timeWait
  | closed
  | reset
  deriving DecidableEq, Repr

/-- The summary that corresponds to an official state. -/
def ofState : State → TCPState
  | .listen => { receiver := .listen, sender := .closed }
  | .synRcvd => { receiver := .synRecv, sender := .synSent }
  | .synSent => { receiver := .listen, sender := .synSent }
  | .established => { receiver := .synRecv, sender := .synAcked }
  | .closeWait => { receiver := .finRecv, sender := .synAcked, lingerAfterStreamsFinish := false }
  | .lastAck => { receiver := .finRecv, sender := .finSent, lingerAfterStreamsFinish := false }
  | .closing => { receiver := .finRecv, sender := .finSent }
  | .finWait1 => { receiver := .synRecv, sender := .finSent }
  | .finWait2 => { receiver := .synRecv, sender := .finAcked }
  | .timeWait => { receiver := .finRecv, sender := .finAcked }
  | .reset =>
      { receiver := .error, sender := .error, lingerAfterStreamsFinish := false, active := false }
  | .closed =>
      { receiver := .finRecv, sender := .finAcked, lingerAfterStreamsFinish := false
        active := false }

def new (sender : TCPSender) (receiver : TCPReceiver) (active linger : Bool) : TCPState where
  sender := sender.stateSummary
  receiver := receiver.stateSummary
  active
  lingerAfterStreamsFinish := if active then linger else false

end TCPState

def TCPConnection.state (connection : TCPConnection) : TCPState :=
  .new connection.sender connection.receiver connection.active connection.lingerAfterStreamsFinish

end Sponge
