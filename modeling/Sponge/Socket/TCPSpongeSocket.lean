import Sponge.Stream.Relay
import Sponge.System.Network
import Sponge.TCP.TCPState
import Sponge.Util.Handlers
import Sponge.Wire.FdAdapter

/-!
# The socket around a connection

A `TCPSpongeSocket` runs a connection.  Its event loop has four rules: datagrams go to the connection, bytes
that the owner has written go to the outbound stream, bytes of the inbound stream go to the owner, and the
segments of the connection go out as datagrams.  `connect` and `listen_and_accept` run the loop until the
connection is open, and then a thread runs it to the end.

The owner sits at the other end of a pair of local sockets.  What the kernel answers, which includes what
the owner writes and how much it reads, is an input of the model.  The debugging output is left out, and
so is what happens after the loop of the thread has ended.

The connection of the model keeps all segments that it has sent, so the queue of the program is what comes
after the segments that have been popped.
-/

namespace Sponge

open EventLoop Relay

/-- The connection after its inbound stream was changed through the reference. -/
def TCPConnection.setInboundStream (connection : TCPConnection) (stream : ByteStream) : TCPConnection :=
  { connection with
    receiver := { connection.receiver with
      reassembler := { connection.receiver.reassembler with output := stream } } }

def TCPState.name (state : TCPState) : String :=
  "sender=`" ++ state.sender.text ++ "`, receiver=`" ++ state.receiver.text ++ "`, active=" ++
    toString state.active.toNat ++ ", linger_after_streams_finish=" ++
    toString state.lingerAfterStreamsFinish.toNat

/-- What the thread of a socket works on, with a record of the bytes that it has read from the owner, of
what it has done to the end of the owner, and of what the adapter has sent for each segment.  The record is
that of the callbacks that have returned: if one throws, the loop is over, and what it had written or sent
before is not in the record. -/
structure TCPSpongeSocket (Adapter Outgoing : Type) where
  tcp : TCPConnection
  datagramAdapter : Adapter
  threadData : FDWrapper := {}
  inboundShutdown : Bool := false
  outboundShutdown : Bool := false
  popped : ℕ := 0
  fromOwner : List UInt8 := []
  ownerCalls : List SinkCall := []
  datagrams : List (Option Outgoing) := []

namespace TCPSpongeSocket

/-- The part of the kernel in one call of `wait_next_event`. -/
structure Answers (Incoming : Type) where
  incoming : Incoming
  ownerData : Kernel.Read
  ownerRoom : Kernel.Write
  ownerShutdown : Option Errno
  sends : ℕ → Option Errno

variable {Adapter Incoming Outgoing : Type}

def segmentsOut (socket : TCPSpongeSocket Adapter Outgoing) : List Emission :=
  socket.tcp.segmentsOut.drop socket.popped

/-- The owner does not write any more. -/
def endOutbound (socket : TCPSpongeSocket Adapter Outgoing) : TCPSpongeSocket Adapter Outgoing :=
  { socket with tcp := socket.tcp.endInputStream, outboundShutdown := true }

def readOwner (answers : Answers Incoming) (socket : TCPSpongeSocket Adapter Outgoing) :
    Except SystemException (TCPSpongeSocket Adapter Outgoing) := do
  let (data, threadData) ←
    socket.threadData.read socket.tcp.remainingOutboundCapacity answers.ownerData
  let (tcp, amountWritten) := socket.tcp.write data
  if amountWritten ≠ data.length then
    throw (.std (.runtimeError "TCPConnection::write() accepted less than advertised length"))
  else
    let socket := { socket with tcp, threadData, fromOwner := socket.fromOwner ++ data }
    return if threadData.eof then socket.endOutbound else socket

/-- Write from the inbound buffer to the owner.  The end of the stream, or an error, shuts the end of the
owner down. -/
def writeOwner (answers : Answers Incoming) (socket : TCPSpongeSocket Adapter Outgoing) :
    Except SystemException (TCPSpongeSocket Adapter Outgoing) := do
  let (data, threadData, inbound) ← writeFrom socket.threadData socket.tcp.inboundStream answers.ownerRoom
  let socket := { socket with
    tcp := socket.tcp.setInboundStream inbound
    threadData
    ownerCalls := socket.ownerCalls ++ [.write data] }
  if inbound.eof || inbound.error then
    let threadData ← threadData.shutdownWrite answers.ownerShutdown
    return { socket with
      threadData
      inboundShutdown := true
      ownerCalls := socket.ownerCalls ++ [.finish] }
  else return socket

section Rules

variable [FdAdapter Adapter Incoming Outgoing]

/-- The loop of rule 4, for the segments in the queue: what the adapter has sent for each of them. -/
def writeSegments : (ℕ → Option Errno) → List Emission → Adapter →
    Except SystemException (List (Option Outgoing) × Adapter)
  | _, [], adapter => .ok ([], adapter)
  | sends, emission :: rest, adapter => do
      let (datagram, adapter) ← FdAdapter.write (sends 0) emission.segment adapter
      let (datagrams, adapter) ← writeSegments (fun idx ↦ sends (idx + 1)) rest adapter
      return (datagram :: datagrams, adapter)

/-- Rule 1: read from filtered packet stream and dump into TCPConnection. -/
def datagramInRule (datagramFd : ℤ) : Handler (TCPSpongeSocket Adapter Outgoing) (Answers Incoming) where
  id := 1
  fdNum := datagramFd
  direction := .In
  fd socket := FdAdapter.fd socket.datagramAdapter
  callback answers socket := do
    let (seg, datagramAdapter) ← FdAdapter.read answers.incoming socket.datagramAdapter
    return { socket with
      datagramAdapter
      tcp :=
        match seg with
        | some seg => socket.tcp.segmentReceived seg
        | none => socket.tcp }
  interest socket := socket.tcp.active

/-- Rule 2: read from pipe into outbound buffer. -/
def ownerInRule (threadFd : ℤ) : Handler (TCPSpongeSocket Adapter Outgoing) (Answers Incoming) where
  id := 2
  fdNum := threadFd
  direction := .In
  fd := threadData
  callback := readOwner
  interest socket := socket.tcp.active && !socket.outboundShutdown &&
    socket.tcp.remainingOutboundCapacity > 0
  cancel := endOutbound

/-- Rule 3: read from inbound buffer into pipe. -/
def ownerOutRule (threadFd : ℤ) : Handler (TCPSpongeSocket Adapter Outgoing) (Answers Incoming) where
  id := 3
  fdNum := threadFd
  direction := .Out
  fd := threadData
  callback := writeOwner
  interest socket := !socket.tcp.inboundStream.bufferEmpty ||
    ((socket.tcp.inboundStream.eof || socket.tcp.inboundStream.error) && !socket.inboundShutdown)

/-- Rule 4: read outbound segments from TCPConnection and send as datagrams. -/
def datagramOutRule (datagramFd : ℤ) : Handler (TCPSpongeSocket Adapter Outgoing) (Answers Incoming) where
  id := 4
  fdNum := datagramFd
  direction := .Out
  fd socket := FdAdapter.fd socket.datagramAdapter
  callback answers socket := do
    let (datagrams, datagramAdapter) ← writeSegments answers.sends socket.segmentsOut socket.datagramAdapter
    return { socket with
      datagramAdapter
      popped := socket.tcp.segmentsOut.length
      datagrams := socket.datagrams ++ datagrams }
  interest socket := !socket.segmentsOut.isEmpty

def rules (datagramFd threadFd : ℤ) :
    List (Handler (TCPSpongeSocket Adapter Outgoing) (Answers Incoming)) :=
  [datagramInRule datagramFd, ownerInRule threadFd, ownerOutRule threadFd, datagramOutRule datagramFd]

end Rules

/-! ## The loops of a socket -/

/-- Which call of `_tcp_loop` is going on.  A failure in `connect` or `listen_and_accept` is thrown to the
owner, and the thread is not started. -/
inductive Phase where
  | connecting
  | accepting
  | main
  | ended (ending : Ending)
  deriving DecidableEq

def Phase.condition (tcp : TCPConnection) : Phase → Bool
  | connecting => tcp.state = .ofState .synSent
  | accepting => tcp.state = .ofState .listen ∨ tcp.state = .ofState .synRcvd ∨
      tcp.state = .ofState .synSent
  | main => true
  | ended _ => false

/-- A socket with its event loop. -/
structure Session (Adapter Incoming Outgoing : Type) where
  handlers : List (Handler (TCPSpongeSocket Adapter Outgoing) (Answers Incoming))
  socket : TCPSpongeSocket Adapter Outgoing
  phase : Phase
  baseTime : ℕ

/-- The surroundings of one iteration of `_tcp_loop`: those of the event loop, the flag that the owner sets
to stop the thread, and the clock when it is read. -/
structure Iteration (Incoming : Type) where
  turn : Turn (Answers Incoming)
  abort : Bool := false
  time : ℕ

namespace Session

/-- The loop is left.  After the first loop, the thread is started. -/
def leaveLoop (session : Session Adapter Incoming Outgoing) (result : Result) (time : ℕ) :
    Session Adapter Incoming Outgoing :=
  match session.phase with
  | .main => { session with phase := .ended (.returned result) }
  | _ => { session with phase := .main, baseTime := time }

def tick (session : Session Adapter Incoming Outgoing) (nextTime : ℕ) :
    Session Adapter Incoming Outgoing :=
  { session with
    socket := { session.socket with
      tcp := session.socket.tcp.tick (Word.sub nextTime session.baseTime) }
    baseTime := nextTime }

def iterate (session : Session Adapter Incoming Outgoing) (iteration : Iteration Incoming) :
    Session Adapter Incoming Outgoing :=
  let handled := iteration.turn.waitNextEvent session.handlers session.socket
  let session := { session with handlers := handled.handlers, socket := handled.state }
  match handled.ending with
  | .returned result =>
      if result = .exit ∨ iteration.abort then session.leaveLoop result iteration.time
      else if session.socket.tcp.active then session.tick iteration.time
      else session
  | ending => { session with phase := .ended ending }

/-- Test the condition of the loop, and go through the loop once or leave it. -/
def step (session : Session Adapter Incoming Outgoing) (iteration : Iteration Incoming) :
    Session Adapter Incoming Outgoing :=
  match session.phase with
  | .ended _ => session
  | phase =>
      if phase.condition session.socket.tcp then session.iterate iteration
      else session.leaveLoop .success iteration.time

end Session

variable [FdAdapter Adapter Incoming Outgoing]

/-- What `connect` and `listen_and_accept` are given: their two configurations, the adapter and the random
number for the connection, the numbers of the two descriptors, and the clock. -/
structure Setup (Adapter : Type) where
  config : TCPConfig
  adapterConfig : FdAdapterConfig
  adapter : Adapter
  randomIsn : WrappingInt32
  datagramFd : ℤ
  threadFd : ℤ
  time : ℕ

def initializeTCP (setup : Setup Adapter) (datagramAdapter : Adapter) (phase : Phase) :
    Session Adapter Incoming Outgoing where
  handlers := rules setup.datagramFd setup.threadFd
  socket := { tcp := .new setup.config setup.randomIsn, datagramAdapter }
  phase
  baseTime := setup.time

/-- `connect`, up to its loop.  `initialized` is the connection that the socket has already, if any. -/
def connect (initialized : Option TCPConnection) (setup : Setup Adapter) :
    Except SystemException (Session Adapter Incoming Outgoing) :=
  if initialized.isSome then
    .error (.std (.runtimeError "connect() with TCPConnection already initialized"))
  else
    let session := initializeTCP setup (FdAdapter.setConfig setup.adapterConfig setup.adapter) .connecting
    let tcp := session.socket.tcp.connect
    if tcp.state ≠ .ofState .synSent then
      .error (.std (.runtimeError ("After TCPConnection::connect(), state was " ++ tcp.state.name ++
        " but expected " ++ (TCPState.ofState .synSent).name)))
    else .ok { session with socket := { session.socket with tcp } }

/-- `listen_and_accept`, up to its loop. -/
def listenAndAccept (initialized : Option TCPConnection) (setup : Setup Adapter) :
    Except SystemException (Session Adapter Incoming Outgoing) :=
  if initialized.isSome then
    .error (.std (.runtimeError "listen_and_accept() with TCPConnection already initialized"))
  else
    .ok (initializeTCP setup
      (FdAdapter.setListening true (FdAdapter.setConfig setup.adapterConfig setup.adapter)) .accepting)

/-- The connection of a socket, with the bytes that were read from the owner and written to the owner. -/
def endpoint (socket : TCPSpongeSocket Adapter Outgoing) : Endpoint where
  connection := socket.tcp
  accepted := socket.fromOwner
  delivered := written socket.ownerCalls

end TCPSpongeSocket

end Sponge
