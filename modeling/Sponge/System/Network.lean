import Sponge.Library.Execution
import Sponge.TCP.ConnectionOutput

/-!
# Two connections and a network

Two connections talk over a network that may lose, reorder and duplicate segments: every segment that
one side has ever sent can arrive at the other side at any time.  The owners of the connections call
their public functions in any order.  The model records what each owner has written and read.
-/

namespace Sponge

open Execution

inductive Side where
  | client
  | server
  deriving DecidableEq, Repr

namespace Side

def peer : Side → Side
  | client => server
  | server => client

@[simp] theorem peer_peer (side : Side) : side.peer.peer = side := by
  cases side <;> rfl

theorem peer_ne (side : Side) : side.peer ≠ side := by
  cases side <;> nofun

end Side

/-- A connection, with the bytes that its owner has written to it and read from it. -/
structure Endpoint where
  connection : TCPConnection
  accepted : List UInt8 := []
  delivered : List UInt8 := []

/-- The bytes ever written into the inbound stream: those already read, and those still buffered. -/
def Endpoint.inbound (endpoint : Endpoint) : List UInt8 :=
  endpoint.delivered ++ endpoint.connection.receiver.streamOut.contents

def Endpoint.step (endpoint : Endpoint) (call : TCPConnection.Call) : Endpoint where
  connection := endpoint.connection.step call
  accepted := endpoint.accepted ++ endpoint.connection.acceptedBy call
  delivered := endpoint.delivered ++ endpoint.connection.readBy call

/-- The state of both ends.  The network is not a part of it: what it can deliver is what the peer
has sent. -/
abbrev Network := Side → Endpoint

namespace Network

open TCPConnection TCPReceiver

variable {network : Network} {side : Side} {call : Call}

def start (cfg : Side → TCPConfig) (randomIsn : Side → WrappingInt32) : Network :=
  fun side ↦ { connection := .new (cfg side) (randomIsn side) }

def step (network : Network) (action : Side × Call) : Network :=
  Function.update network action.1 ((network action.1).step action.2)

/-- A segment that arrives has been sent by the peer, in an emission that meets `condition`. -/
def Arrives (condition : Network → Side → Emission → Prop) (network : Network) :
    Side × Call → Prop
  | (side, .segmentReceived segment) =>
      ∃ emission ∈ (network side.peer).connection.segmentsOut,
        emission.segment = segment ∧ condition network side emission
  | _ => True

instance (condition : Network → Side → Emission → Prop)
    [∀ network side emission, Decidable (condition network side emission)] (network : Network) :
    (action : Side × Call) → Decidable (Arrives condition network action)
  | (_, .segmentReceived _) => inferInstanceAs (Decidable (∃ emission ∈ _, _))
  | (_, .connect) => inferInstanceAs (Decidable True)
  | (_, .write _) => inferInstanceAs (Decidable True)
  | (_, .endInputStream) => inferInstanceAs (Decidable True)
  | (_, .tick _) => inferInstanceAs (Decidable True)
  | (_, .readInbound _) => inferInstanceAs (Decidable True)

theorem Arrives.emission {condition : Network → Side → Emission → Prop}
    (h : Arrives condition network (side, call)) (segment : TCPSegment)
    (hcall : call = .segmentReceived segment) :
    ∃ emission ∈ (network side.peer).connection.segmentsOut,
      emission.segment = segment ∧ condition network side emission := by
  subst hcall
  exact h

/-! ## Directions of the conversation -/

/-- The rule for properties of one direction: a call is one of the sending side, or one of the receiving
side. -/
theorem step_direction (property : Side → Endpoint → Endpoint → Prop)
    (hsend : property side ((network side).step call) (network side.peer))
    (hreceive : property side.peer (network side.peer) ((network side).step call)) (other : Side) :
    property other (network.step (side, call) other) (network.step (side, call) other.peer) := by
  have hacting : network.step (side, call) side = (network side).step call :=
    Function.update_self _ _ _
  have hidle : network.step (side, call) side.peer = network side.peer :=
    Function.update_of_ne side.peer_ne _ _
  by_cases hother : other = side
  · rw [hother, hacting, hidle]
    exact hsend
  · have hpeer : other = side.peer := by
      cases side <;> cases other <;> first | rfl | contradiction
    rw [hpeer, Side.peer_peer, hacting, hidle]
    exact hreceive

/-- The rule for a property of one direction, from a side to its peer: it holds after every run if
each end keeps it, the sending one and the receiving one. -/
theorem run_direction (property : Side → Endpoint → Endpoint → Prop)
    {allowed : Network → Side × Call → Prop} {cfg : Side → TCPConfig}
    {randomIsn : Side → WrappingInt32} {actions : List (Side × Call)}
    (hstart : ∀ side, property side (start cfg randomIsn side) (start cfg randomIsn side.peer))
    (hsend : ∀ network side call, property side (network side) (network side.peer) →
      allowed network (side, call) → property side ((network side).step call) (network side.peer))
    (hreceive : ∀ network side call, property side.peer (network side.peer) (network side) →
      allowed network (side, call) →
      property side.peer (network side.peer) ((network side).step call))
    (h : Admissible step allowed (start cfg randomIsn) actions) (side : Side) :
    property side (run step (start cfg randomIsn) actions side)
      (run step (start cfg randomIsn) actions side.peer) := by
  revert side
  apply h.invariant fun network ↦ ∀ side, property side (network side) (network side.peer)
  · intro network action hnetwork hallowed
    apply step_direction property
    · exact hsend network action.1 action.2 (hnetwork action.1) hallowed
    · have hpeer := hnetwork action.1.peer
      rw [Side.peer_peer] at hpeer
      exact hreceive network action.1 action.2 hpeer hallowed
  · exact hstart

/-! ## Integrity -/

/-- One direction of the conversation: the sending side sends slices of what its owner has written,
and the receiving side has put them together. -/
structure Flow (isn : WrappingInt32) (source target : Endpoint) : Prop where
  emits : Emits isn source.accepted source.connection
  receives : Receives isn source.accepted target.delivered target.connection.receiver

variable {isn : WrappingInt32} {source target : Endpoint}

theorem Flow.send (h : Flow isn source target) (call : Call) : Flow isn (source.step call) target :=
  ⟨h.emits.step call, h.receives.extend _⟩

theorem receives_access {connection : TCPConnection} {stream seen : List UInt8}
    (h : Receives isn stream seen connection.receiver) (call : Call) :
    Receives isn stream (seen ++ connection.readBy call) (connection.access call).receiver := by
  cases call with
  | readInbound len => exact h.read len
  | connect | write | endInputStream | segmentReceived | tick =>
    change Receives isn stream (seen ++ []) _
    rw [List.append_nil]
    exact h

/-- The receiving side makes a call: a slice of the stream comes in at its place. -/
theorem Flow.receive (h : Flow isn source target)
    (hcall : ∀ segment, call = .segmentReceived segment →
      ∃ emission ∈ source.connection.segmentsOut, emission.segment = segment ∧
        target.connection.receiver.Recoverable emission.absSeqno emission.segment) :
    Flow isn source (target.step call) := by
  refine ⟨h.emits, ?_⟩
  apply receiver_step (Receives isn source.accepted (target.step call).delivered)
  · exact fun _ hbefore ↦ hbefore.setError
  · intro segment heq hbefore
    obtain ⟨emission, hsent, rfl, hrecoverable⟩ := hcall segment heq
    exact hbefore.segmentReceived (excerpt_of_slice (h.emits.sent emission hsent)) hrecoverable
  · exact receives_access h.receives call

/-- The receiver can recover the number of the arriving segment. -/
def Recovers (network : Network) (side : Side) (emission : Emission) : Prop :=
  (network side).connection.receiver.Recoverable emission.absSeqno emission.segment

instance (network : Network) (side : Side) (emission : Emission) :
    Decidable (Recovers network side emission) :=
  inferInstanceAs (Decidable (TCPReceiver.Recoverable _ _ _))

/-- In every conversation, both directions flow. -/
theorem flow_run {cfg : Side → TCPConfig} {randomIsn : Side → WrappingInt32}
    {actions : List (Side × Call)}
    (h : Admissible step (Arrives Recovers) (start cfg randomIsn) actions) (side : Side) :
    let final := run step (start cfg randomIsn) actions
    Flow ((cfg side).fixedIsn.getD (randomIsn side)) (final side) (final side.peer) := by
  apply run_direction (fun side ↦ Flow ((cfg side).fixedIsn.getD (randomIsn side))) ?_ ?_ ?_ h
  · exact fun side ↦ ⟨emits_new _ _, receives_new _ _ _⟩
  · exact fun _ _ call hflow _ ↦ hflow.send call
  · exact fun _ _ _ hflow harrives ↦ hflow.receive harrives.emission

/-- What has been written into the inbound stream of a side is at every moment an initial part of the
bytes that its peer has accepted, whatever the network loses, reorders and duplicates.  As long as
fewer than `2 ^ 31 - 2` bytes have been accepted, the numbers of all segments can be recovered. -/
theorem inbound_prefix_of_accepted (cfg : Side → TCPConfig) (randomIsn : Side → WrappingInt32)
    (actions : List (Side × Call))
    (h : Admissible step (Arrives Recovers) (start cfg randomIsn) actions) (side : Side) :
    let final := run step (start cfg randomIsn) actions
    (final side.peer).inbound <+: (final side).accepted ∧
      ((final side).accepted.length < 2 ^ 31 - 2 →
        ∀ emission ∈ (final side).connection.segmentsOut, Recovers final side.peer emission) := by
  intro final
  have hflow := flow_run h side
  constructor
  · unfold Endpoint.inbound streamOut
    rw [hflow.receives.spells.output]
    exact List.take_prefix _ _
  · intro hshort emission hsent
    exact hflow.receives.recoverable_of_lt (hflow.emits.sent emission hsent) hshort

/-- Small buffers, and a server whose sequence numbers are about to wrap around. -/
def smallCfg (side : Side) : TCPConfig where
  recvCapacity := 8
  sendCapacity := 8
  fixedIsn := if side = .client then some ⟨0⟩ else some ⟨4294967295⟩

def handshake : List (Side × Call) :=
  [(.client, .connect),
    (.server, .segmentReceived { header := { seqno := ⟨0⟩, syn := true } }),
    (.client, .segmentReceived
      { header := { seqno := ⟨4294967295⟩, ackno := ⟨1⟩, syn := true, ack := true, win := 8 } })]

/-- The second of two data segments arrives first and twice. -/
def overtaking : List (Side × Call) := handshake ++
  [(.client, .write [97, 98]), (.client, .write [99]),
    (.server, .segmentReceived
      { header := { seqno := ⟨3⟩, ackno := ⟨0⟩, ack := true, win := 8 }, payload := .ofString [99] }),
    (.server, .segmentReceived
      { header := { seqno := ⟨1⟩, ackno := ⟨0⟩, ack := true, win := 8 }
        payload := .ofString [97, 98] }),
    (.server, .readInbound 2),
    (.server, .segmentReceived
      { header := { seqno := ⟨3⟩, ackno := ⟨0⟩, ack := true, win := 8 }, payload := .ofString [99] })]

theorem inbound_prefix_of_accepted_overtaking :
    let final := run step (start smallCfg fun _ ↦ ⟨0⟩) overtaking
    Admissible step (Arrives Recovers) (start smallCfg fun _ ↦ ⟨0⟩) overtaking ∧
      (final .server).inbound = [97, 98, 99] ∧ (final .server).inbound <+: (final .client).accepted := by
  have h : Admissible step (Arrives Recovers) (start smallCfg fun _ ↦ ⟨0⟩) overtaking := by
    decide +kernel
  exact ⟨h, by decide +kernel, (inbound_prefix_of_accepted _ _ _ h .client).1⟩

end Network

end Sponge
