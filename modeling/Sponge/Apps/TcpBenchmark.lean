import Sponge.Library.WhileLoop
import Sponge.System.Network

/-!
# The benchmark program

`tcp_benchmark` joins two connections without a network in between.  The owner of `x` writes a string, the
segments of both connections are moved to the other one, those to `y` in reverse order if `reorder` is
set, and the owner of `y` reads.  The loop goes on until `y` has come to the end of its inbound stream, and
then until both connections are over.  The clock and the output of the throughput are left out.
-/

namespace Sponge.TcpBenchmark

open Execution TCPConnection

/-- What ends the program early: an exception, or the end of the fuel of the model. -/
inductive Fault where
  | exception (exception : StdException)
  | outOfFuel
  deriving DecidableEq, Repr

/-- A connection with what its owner has written to it and read from it.  The connection of the model
keeps all segments that it has sent, so its queue is what comes after those that have been moved. -/
structure Party extends Endpoint where
  moved : ℕ := 0

namespace Party

def call (party : Party) (call : Call) : Party := { party with toEndpoint := party.step call }

/-- `segments_out()`. -/
def queue (party : Party) : List Emission := party.connection.segmentsOut.drop party.moved

end Party

/-- `move_segments`: all segments of `x` arrive at `y`, in reverse order if `reorder` is set. -/
def moveSegments (x y : Party) (reorder : Bool) : Party × Party :=
  let segments := (if reorder then x.queue.reverse else x.queue).map Emission.segment
  let toEndpoint := run Endpoint.step y.toEndpoint (segments.map .segmentReceived)
  ({ x with moved := x.connection.segmentsOut.length }, { y with toEndpoint })

/-- The local variables of `main_loop`.  What has been appended to `string_received` is what the owner of
`y` has read. -/
structure State where
  x : Party
  y : Party
  bytesToSend : Buffer
  xClosed : Bool := false

namespace State

def stringReceived (state : State) : List UInt8 := state.y.delivered

def wantsToWrite (state : State) : Bool :=
  decide (state.bytesToSend.size ≠ 0) && decide (state.x.connection.remainingOutboundCapacity ≠ 0)

def writeOnce (state : State) : Except Fault State := do
  let want := min state.x.connection.remainingOutboundCapacity state.bytesToSend.size
  let data := state.bytesToSend.str.take want
  let written := (state.x.connection.write data).2
  if want ≠ written then
    throw (.exception (.runtimeError
      ("want = " ++ toString want ++ ", written = " ++ toString written)))
  let bytesToSend ← (state.bytesToSend.removePrefix written).mapError .exception
  return { state with x := state.x.call (.write data), bytesToSend }

/-- Write input into `x`.  Every iteration writes a byte at least. -/
def writeInput (state : State) : Except Fault State :=
  whileLoop wantsToWrite writeOnce .outOfFuel (state.bytesToSend.size + 1) state

def closeInput (state : State) : State :=
  if state.bytesToSend.size = 0 ∧ state.xClosed = false then
    { state with x := state.x.call .endInputStream, xClosed := true }
  else state

/-- Exchange segments between `x` and `y`, those to `y` possibly in reverse order. -/
def exchange (reorder : Bool) (state : State) : State :=
  let (x, y) := moveSegments state.x state.y reorder
  let (y, x) := moveSegments y x false
  { state with x, y }

/-- Read output from `y`. -/
def readOutput (state : State) : State :=
  let availableOutput := state.y.connection.inboundStream.bufferSize
  if availableOutput > 0 then { state with y := state.y.call (.readInbound availableOutput) }
  else state

def passTime (state : State) : State :=
  { state with x := state.x.call (.tick 1000), y := state.y.call (.tick 1000) }

/-- The body of both loops. -/
def loop (reorder : Bool) (state : State) : Except Fault State := do
  let state ← state.writeInput
  return (state.closeInput.exchange reorder).readOutput.passTime

/-- The condition of the first loop. -/
def receiving (state : State) : Bool := !state.y.connection.inboundStream.eof

/-- The condition of the second loop. -/
def active (state : State) : Bool := state.x.connection.active || state.y.connection.active

end State

/-- The state before the first loop: `x` connects, and `y` has nothing to send. -/
def start (stringToSend : List UInt8) (randomIsn : Side → WrappingInt32) : State where
  x := Party.call { connection := .new {} (randomIsn .client) } .connect
  y := Party.call { connection := .new {} (randomIsn .server) } .endInputStream
  bytesToSend := .ofString stringToSend

def mainLoop (reorder : Bool) (stringToSend : List UInt8) (randomIsn : Side → WrappingInt32)
    (fuel : ℕ) : Except Fault State := do
  let state ← whileLoop State.receiving (State.loop reorder) .outOfFuel fuel
    (start stringToSend randomIsn)
  if state.stringReceived ≠ stringToSend then
    throw (.exception (.runtimeError "strings sent vs. received don't match"))
  whileLoop State.active (State.loop reorder) .outOfFuel fuel state

def len : ℕ := 100 * 1024 * 1024

/-- What is random in a call of `main_loop`. -/
structure Random where
  stringToSend : List UInt8
  randomIsn : Side → WrappingInt32
  length_eq : stringToSend.length = len

/-- The exit status of the program. -/
def main (first second : Random) (fuel : ℕ) : Option ℕ :=
  let runs : Except Fault State := do
    let _ ← mainLoop false first.stringToSend first.randomIsn fuel
    mainLoop true second.stringToSend second.randomIsn fuel
  match runs with
  | .ok _ => some 0
  | .error (.exception _) => some 1
  | .error .outOfFuel => none

end Sponge.TcpBenchmark
