import Sponge.Socket.SocketRuns
import Sponge.System.ShortConversations
import Sponge.Wire.LossyFdAdapter

/-!
# Two sockets over UDP

Two sockets talk over a network that may lose, reorder and duplicate datagrams, damage them as long as the
parser notices, and carry datagrams of strangers, as long as these do not open a connection with a side that
still listens.  Both event loops take their iterations in any order, and whatever the kernel answers, what
the two sockets do is a conversation of two connections in the sense of `Network`.  So the results about
connections are results about the owners of the sockets: an owner gets an initial part of what was read from
the other one, and when both threads have returned, all of it.
-/

namespace Sponge

open EventLoop Execution FdAdapter Relay TCPConnection TCPOverUDPSocketAdapter TCPSpongeSocket

/-- Two sockets, with their event loops. -/
abbrev Sockets (Adapter : Type) := Side → Session Adapter Kernel.Receive UDPDatagram

namespace Sockets

variable {Adapter : Type}

def step (sockets : Sockets Adapter) (action : Side × Iteration Kernel.Receive) : Sockets Adapter :=
  Function.update sockets action.1 ((sockets action.1).step action.2)

def network (sockets : Sockets Adapter) : Network := fun side ↦ (sockets side).socket.endpoint

theorem step_self (sockets : Sockets Adapter) (side : Side) (iteration : Iteration Kernel.Receive) :
    sockets.step (side, iteration) side = (sockets side).step iteration := Function.update_self _ _ _

theorem network_step (sockets : Sockets Adapter) (side : Side) (iteration : Iteration Kernel.Receive) :
    (sockets.step (side, iteration)).network =
      Function.update sockets.network side ((sockets side).step iteration).socket.endpoint := by
  funext other
  unfold network step
  by_cases hother : other = side
  · subst hother
    simp
  · simp [hother]

end Sockets

/-! ## Adapters over UDP -/

/-- An adapter around the one for UDP sockets.  It may drop segments in both directions. -/
class OverUDP (Adapter : Type) [FdAdapter Adapter Kernel.Receive UDPDatagram] where
  udp : Adapter → TCPOverUDPSocketAdapter
  read_udp : ∀ {incoming} {adapter after : Adapter} {seg},
    FdAdapter.read incoming adapter = .ok (seg, after) →
    ∃ whole, (udp adapter).read incoming = .ok (whole, udp after) ∧ (seg = whole ∨ seg = none)
  write_udp : ∀ {kernel segment} {adapter after : Adapter} {datagram},
    FdAdapter.write kernel segment adapter = .ok (datagram, after) →
    datagram = none ∧ udp after = udp adapter ∨
      ∃ sent, datagram = some sent ∧ (udp adapter).write kernel segment = .ok (sent, udp after)

open OverUDP

instance : OverUDP TCPOverUDPSocketAdapter where
  udp adapter := adapter
  read_udp h := ⟨_, h, .inl rfl⟩
  write_udp {kernel segment adapter after datagram} h := by
    have hmap : (adapter.write kernel segment).map (fun written ↦ (some written.1, written.2)) =
      .ok (datagram, after) := h
    cases hwrite : adapter.write kernel segment with
    | error exception =>
      rw [hwrite] at hmap
      contradiction
    | ok written =>
      rw [hwrite] at hmap
      obtain ⟨rfl, rfl⟩ := Prod.mk.inj (Except.ok.inj hmap)
      exact .inr ⟨written.1, rfl, rfl⟩

instance {Adapter : Type} [FdAdapter Adapter Kernel.Receive UDPDatagram] [OverUDP Adapter] :
    OverUDP (LossyFdAdapter Adapter) where
  udp lossy := udp lossy.adapter
  read_udp {incoming lossy after seg} h := by
    have hread : lossy.read incoming = .ok (seg, after) := h
    rw [LossyFdAdapter.read_eq] at hread
    cases hplain : FdAdapter.read incoming lossy.adapter with
    | error exception =>
      rw [hplain] at hread
      contradiction
    | ok result =>
      rw [hplain] at hread
      obtain ⟨hseg, rfl⟩ := Prod.mk.inj (Except.ok.inj hread)
      obtain ⟨whole, hudp, hcases⟩ := read_udp hplain
      refine ⟨whole, hudp, ?_⟩
      split_ifs at hseg
      · exact .inr hseg.symm
      · exact hseg ▸ hcases
  write_udp {kernel segment lossy after datagram} h := by
    have hwrite : lossy.write kernel segment = .ok (datagram, after) := h
    rw [LossyFdAdapter.write_eq] at hwrite
    split_ifs at hwrite
    · obtain ⟨rfl, rfl⟩ := Prod.mk.inj (Except.ok.inj hwrite)
      exact .inl ⟨rfl, rfl⟩
    · cases hplain : FdAdapter.write kernel segment lossy.adapter with
      | error exception =>
        rw [hplain] at hwrite
        contradiction
      | ok result =>
        rw [hplain] at hwrite
        obtain ⟨rfl, rfl⟩ := Prod.mk.inj (Except.ok.inj hwrite)
        exact write_udp hplain

/-- The adapter has the address of its peer, or it listens and did so at the beginning. -/
structure TCPOverUDPSocketAdapter.Tied (address : Address) (listened : Bool)
    (adapter : TCPOverUDPSocketAdapter) : Prop where
  destination : adapter.listening = false → adapter.config.destination = address
  listening : adapter.listening = true → listened = true

/-- What comes from the address is alike to a segment of the source, and what comes from elsewhere does not
open a connection, if the adapter listens. -/
structure TCPOverUDPSocketAdapter.Arrival.Traceable (arrival : Arrival) (address : Address) (listened : Bool)
    (source : Endpoint) : Prop where
  carries : arrival.sourceAddress = address → ∀ seg, arrival.Carries seg → source.SentAlike seg
  stranger : arrival.sourceAddress ≠ address → listened = true → ∀ seg, ¬ arrival.Opens seg

/-- What an adapter reads of traceable datagrams is alike to what the peer has sent, or it is dropped.
-/
theorem TCPOverUDPSocketAdapter.Tied.read {address : Address} {listened : Bool} {source : Endpoint}
    {adapter after : TCPOverUDPSocketAdapter} {arrival : Arrival} {seg : Option TCPSegment}
    (h : adapter.Tied address listened) (harrival : arrival.Traceable address listened source)
    (hread : adapter.read arrival.incoming = .ok (seg, after)) :
    after.Tied address listened ∧ ∀ segment ∈ seg, source.SentAlike segment := by
  cases hlisten : adapter.listening with
  | false =>
    obtain ⟨result, hlocked, hpeer⟩ := read_of_locked hlisten arrival
    obtain ⟨rfl, rfl⟩ := Prod.mk.inj (Except.ok.inj (hlocked.symm.trans hread))
    refine ⟨⟨h.destination, h.listening⟩, fun segment hsegment ↦ ?_⟩
    obtain ⟨hsource, hcarries⟩ := hpeer segment hsegment
    exact harrival.carries (hsource.trans (h.destination hlisten)) segment hcarries
  | true =>
    by_cases hopens : ∃ segment, arrival.Opens segment
    · obtain ⟨segment, hopens⟩ := hopens
      have hsource : arrival.sourceAddress = address := by
        by_contra hstranger
        exact harrival.stranger hstranger (h.listening hlisten) segment hopens
      obtain ⟨rfl, rfl⟩ := Prod.mk.inj (Except.ok.inj ((read_of_opens hlisten hopens).symm.trans hread))
      refine ⟨⟨fun _ ↦ hsource, nofun⟩, ?_⟩
      rintro _ ⟨⟩
      exact harrival.carries hsource segment hopens.1
    · have hignored := read_of_not_opens hlisten (not_exists.mp hopens)
      obtain ⟨rfl, rfl⟩ := Prod.mk.inj (Except.ok.inj (hignored.symm.trans hread))
      exact ⟨⟨h.destination, h.listening⟩, nofun⟩

/-! ## Histories over UDP -/

variable {Adapter : Type} [FdAdapter Adapter Kernel.Receive UDPDatagram] [OverUDP Adapter]

/-- If all that comes in can be traced back to the source, then the connection only gets segments of the
source. -/
theorem reaches_of_serves {address : Address} {listened : Bool} {source : Endpoint}
    {start station : Station Adapter UDPDatagram} {accesses : List (Access Kernel.Receive UDPDatagram)}
    (h : start.Serves accesses station) (htied : (udp start.adapter).Tied address listened)
    (harrivals : ∀ arrival : Arrival, arrival.incoming ∈ accesses.filterMap Access.packet →
      arrival.Traceable address listened source) :
    (udp station.adapter).Tied address listened ∧
      start.endpoint.Reaches source.SentAlike station.endpoint := by
  induction h with
  | refl => exact ⟨htied, .refl _ _ _⟩
  | call _ hwrites hown ih =>
    obtain ⟨hbefore, hreaches⟩ := ih harrivals
    refine ⟨hbefore, hreaches.extend ⟨hwrites, fun segment heq ↦ ?_⟩⟩
    rw [heq] at hown
    contradiction
  | @read accesses station incoming seg adapter _ hread ih =>
    rw [List.filterMap_append] at harrivals
    obtain ⟨hbefore, hreaches⟩ := ih fun arrival harrival ↦
      harrivals arrival (List.mem_append_left _ harrival)
    obtain ⟨whole, hudp, hseg⟩ := read_udp hread
    have hpacket : incoming ∈ accesses.filterMap Access.packet ++
        [Access.read incoming seg].filterMap (@Access.packet _ UDPDatagram) :=
      List.mem_append_right _ List.mem_cons_self
    cases incoming with
    | fails errno => exact absurd ((read_fails (udp station.adapter) errno).symm.trans hudp) nofun
    | datagram sourceAddress payload fits =>
      obtain ⟨hafter, hall⟩ := hbefore.read (harrivals ⟨sourceAddress, payload, fits⟩ hpacket) hudp
      refine ⟨hafter, ?_⟩
      cases seg with
      | none => exact hreaches
      | some segment =>
        have hsent : source.SentAlike segment := by
          rcases hseg with rfl | hdropped
          · exact hall segment rfl
          · exact absurd hdropped (Option.some_ne_none segment)
        exact hreaches.extend ⟨trivial, fun other heq ↦ Call.segmentReceived.inj heq ▸ hsent⟩
  | @write accesses station kernel emission datagram adapter _ _ hwrite ih =>
    rw [List.filterMap_append] at harrivals
    obtain ⟨hbefore, hreaches⟩ := ih fun arrival harrival ↦
      harrivals arrival (List.mem_append_left _ harrival)
    refine ⟨?_, hreaches⟩
    rcases write_udp hwrite with ⟨-, hsame⟩ | ⟨sent, -, hudp⟩
    · change (udp adapter).Tied address listened
      rw [hsame]
      exact hbefore
    · obtain ⟨sock, heq⟩ := after_write hudp
      change (udp adapter).Tied address listened
      rw [heq]
      exact ⟨hbefore.destination, hbefore.listening⟩

/-- A UDP adapter, whatever its addresses are, makes this payload of the segment. -/
def TCPOverUDPSocketAdapter.Makes (payload : List UInt8) (segment : TCPSegment) : Prop :=
  ∃ adapter after : TCPOverUDPSocketAdapter, ∃ datagram : UDPDatagram,
    adapter.write none segment = .ok (datagram, after) ∧ datagram.payload = payload

theorem TCPOverUDPSocketAdapter.Makes.eq_bytes {payload : List UInt8} {segment : TCPSegment}
    (h : Makes payload segment) (hsendable : segment.Sendable) :
    ∃ adapter : TCPOverUDPSocketAdapter, payload = (adapter.setPorts segment).bytes 0 := by
  obtain ⟨adapter, after, datagram, hwrite, rfl⟩ := h
  rw [write_eq hsendable] at hwrite
  obtain ⟨rfl, -⟩ := Prod.mk.inj (Except.ok.inj hwrite)
  exact ⟨adapter, rfl⟩

/-! ## Two sockets -/

namespace Sockets

variable {sockets : Sockets Adapter} {address : Side → Address} {setup : Side → Setup Adapter}
  {side : Side}

def listening (sockets : Sockets Adapter) (side : Side) : Bool :=
  (udp (sockets side).socket.datagramAdapter).listening

/-- What a side can receive.  A datagram with the address of the peer carries a segment that the peer has
ever put into its queue, or it was damaged so that the parser refuses it.  Strangers can send what they like,
as long as they do not open a connection with a side that still listens. -/
def MayReceive (address : Side → Address) (sockets : Sockets Adapter) (side : Side) :
    Kernel.Receive → Prop
  | .fails _ => True
  | .datagram sourceAddress payload fits =>
      if sourceAddress = address side.peer then
        (∃ emission ∈ (sockets side.peer).socket.tcp.segmentsOut, Makes payload emission.segment) ∨
          ∀ seg, ¬ Arrival.Carries ⟨sourceAddress, payload, fits⟩ seg
      else sockets.listening side = true → ∀ seg, ¬ Arrival.Opens ⟨sourceAddress, payload, fits⟩ seg

/-- The network delivers what it may. -/
def Delivers (address : Side → Address) (sockets : Sockets Adapter)
    (action : Side × Iteration Kernel.Receive) : Prop :=
  sockets.MayReceive address action.1 action.2.turn.input.incoming

/-- Both sockets have been opened, and a side that does not listen has the address of its peer. -/
def Opened (address : Side → Address) (setup : Side → Setup Adapter) (sockets : Sockets Adapter) : Prop :=
  ∀ side, TCPSpongeSocket.Opened (setup side) (sockets side) ∧
    (sockets.listening side = false →
      (udp (sockets side).socket.datagramAdapter).config.destination = address side.peer)

def fresh (setup : Side → Setup Adapter) : Network :=
  .start (fun side ↦ (setup side).config) fun side ↦ (setup side).randomIsn

/-- What two sockets keep.  The part about the conversation is for short ones. -/
structure Linked (address : Side → Address) (setup : Side → Setup Adapter) (sockets : Sockets Adapter) :
    Prop where
  sound : ∀ side, (sockets side).Sound (setup side).datagramFd (setup side).threadFd
    (sockets side).socket.station []
  tied : ∀ side, (udp (sockets side).socket.datagramAdapter).Tied (address side.peer)
    (sockets.listening side)
  leads : sockets.network.Short → Leads Network.step Network.Legal (fresh setup) sockets.network

/-- The segments in the queues can be sent. -/
theorem Linked.sendable (h : Linked address setup sockets) {emission : Emission}
    (hsent : emission ∈ (sockets side).socket.tcp.segmentsOut) : emission.segment.Sendable :=
  (h.sound side).socket.operational.sendable.sent emission hsent

/-- What a side can receive is traceable. -/
theorem Linked.traceable (h : Linked address setup sockets) {arrival : Arrival}
    (hreceive : sockets.MayReceive address side arrival.incoming) :
    arrival.Traceable (address side.peer) (sockets.listening side) (sockets side.peer).socket.endpoint := by
  unfold MayReceive Arrival.incoming at hreceive
  dsimp only at hreceive
  split_ifs at hreceive with hsource
  · refine ⟨fun _ seg hcarries ↦ ?_, fun hstranger ↦ absurd hsource hstranger⟩
    rcases hreceive with ⟨emission, hemission, hmakes⟩ | hrefused
    · have hsendable := h.sendable hemission
      obtain ⟨adapter, hpayload⟩ := hmakes.eq_bytes hsendable
      obtain ⟨received, hparse, halike⟩ := @parse_written adapter _ hsendable
      unfold Arrival.Carries at hcarries
      rw [hpayload, hparse] at hcarries
      obtain ⟨-, rfl⟩ := Prod.mk.inj (Except.ok.inj hcarries)
      exact ⟨emission, hemission, halike⟩
    · exact absurd hcarries (hrefused seg)
  · exact ⟨fun hpeer ↦ absurd hpeer hsource, fun _ ↦ hreceive⟩

/-- The network may change one word of a datagram, though not from zero to `65535` or back: the checksum
detects this. -/
theorem Linked.mayReceive_of_corrupted (h : Linked address setup sockets) {emission : Emission}
    (hsent : emission ∈ (sockets side.peer).socket.tcp.segmentsOut) {payload damaged : List UInt8}
    (hmakes : Makes payload emission.segment) (hcorrupted : Corrupted payload damaged)
    (fits : damaged.length < 65536) :
    sockets.MayReceive address side (.datagram (address side.peer) damaged fits) := by
  obtain ⟨adapter, rfl⟩ := hmakes.eq_bytes (h.sendable hsent)
  unfold MayReceive
  dsimp only
  rw [if_pos rfl]
  refine .inr fun seg hcarries ↦ ?_
  unfold Arrival.Carries at hcarries
  rw [parse_of_word_changed (h.sendable hsent) hcorrupted] at hcarries
  obtain ⟨hresult, -⟩ := Prod.mk.inj (Except.ok.inj hcarries)
  contradiction

section Lawful

variable [LawfulFdAdapter Adapter]

/-- Every iteration of one of the threads keeps the sockets linked. -/
theorem Linked.step (h : Linked address setup sockets) {action : Side × Iteration Kernel.Receive}
    (hdelivers : sockets.Delivers address action) : Linked address setup (sockets.step action) := by
  obtain ⟨side, iteration⟩ := action
  have hnext := (h.sound side).step iteration
  obtain ⟨accesses, hserves, hpackets⟩ := hnext.socket.served
  obtain ⟨htied, hreaches⟩ := reaches_of_serves hserves (h.tied side) fun arrival harrival ↦ by
    have hincoming := List.mem_singleton.mp (hpackets.subset harrival)
    have hreceive : sockets.MayReceive address side iteration.turn.input.incoming := hdelivers
    rw [← hincoming] at hreceive
    exact h.traceable hreceive
  have hself : sockets.step (side, iteration) side = (sockets side).step iteration := step_self _ _ _
  have hother (other : Side) (hne : other ≠ side) : sockets.step (side, iteration) other = sockets other :=
    Function.update_of_ne hne _ _
  refine ⟨fun other ↦ ?_, fun other ↦ ?_, fun hshort ↦ ?_⟩
  · by_cases hne : other = side
    · subst hne
      rw [hself]
      exact hnext.restart
    · rw [hother other hne]
      exact h.sound other
  · unfold listening
    by_cases hne : other = side
    · subst hne
      rw [hself]
      exact ⟨htied.destination, fun hlisten ↦ hlisten⟩
    · rw [hother other hne]
      exact h.tied other
  · rw [network_step] at hshort ⊢
    have hupdate : (sockets.network side).Reaches (sockets.network side.peer).SentAlike
        ((sockets side).step iteration).socket.endpoint := hreaches
    refine Network.leads_update (h.leads fun other ↦ ?_) hupdate hshort
    have hlength := hshort other
    by_cases hne : other = side
    · subst hne
      rw [Function.update_self] at hlength
      exact hupdate.accepted_prefix.length_le.trans_lt hlength
    · rwa [Function.update_of_ne hne] at hlength

end Lawful

theorem Opened.linked (h : Opened address setup sockets) : Linked address setup sockets := by
  have hsound (side : Side) : (sockets side).Sound (setup side).datagramFd (setup side).threadFd
      ((setup side).station (sockets side)) [] := (h side).1.sound
  have htied (side : Side) : (udp (sockets side).socket.datagramAdapter).Tied (address side.peer)
      (sockets.listening side) := ⟨(h side).2, fun hlisten ↦ hlisten⟩
  -- Nothing has come in yet.
  have hreaches (side : Side) (source : Endpoint) :
      (setup side).fresh.Reaches source.SentAlike (sockets side).socket.endpoint := by
    obtain ⟨accesses, hserves, hpackets⟩ := (hsound side).socket.served
    refine (reaches_of_serves hserves (htied side) fun arrival harrival ↦ ?_).2
    exact absurd (hpackets.subset harrival) List.not_mem_nil
  refine ⟨fun side ↦ (hsound side).restart, htied, fun hshort ↦ ?_⟩
  -- First the client is opened, then the server.
  set opening : Network :=
    Function.update (fresh setup) .client (sockets .client).socket.endpoint
  have hnetwork : sockets.network =
      Function.update opening .server (sockets .server).socket.endpoint := by
    funext side
    cases side <;> rfl
  have hopening : opening.Short := by
    intro side
    cases side with
    | client => exact hshort .client
    | server =>
      have hempty : (opening .server).accepted.length = 0 := rfl
      rw [hempty]
      decide
  have hclient : Leads Network.step Network.Legal (fresh setup) opening :=
    Network.leads_update (.refl _ _ _) (hreaches .client (fresh setup .server)) hopening
  rw [hnetwork] at hshort ⊢
  exact Network.leads_update hclient (hreaches .server (opening .client)) hshort

theorem linked_run [LawfulFdAdapter Adapter] {actions : List (Side × Iteration Kernel.Receive)}
    (h : Opened address setup sockets) (hdelivers : Admissible step (Delivers address) sockets actions) :
    Linked address setup (run step sockets actions) :=
  hdelivers.invariant (Linked address setup) (fun _ _ hbefore ↦ hbefore.step) h.linked

/-! ## A conversation -/

def pairAddress : Side → Address
  | .client => { ipv4Numeric := 1, port := 1024 }
  | .server => { ipv4Numeric := 2, port := 80 }

/-- The client connects to the address of the server, and the server listens. -/
def pairSetup (side : Side) : Setup TCPOverUDPSocketAdapter where
  config :=
    { recvCapacity := 8
      sendCapacity := 8
      rtTimeout := 1
      fixedIsn := some ⟨if side = .client then 0 else 100⟩ }
  adapterConfig :=
    { source := pairAddress side
      destination := if side = .client then pairAddress .server else {} }
  adapter := {}
  randomIsn := ⟨0⟩
  datagramFd := 3
  threadFd := 4
  time := 0

def pair : Sockets TCPOverUDPSocketAdapter
  | .client =>
      let session : Session TCPOverUDPSocketAdapter Kernel.Receive UDPDatagram :=
        initializeTCP (pairSetup .client) { config := (pairSetup .client).adapterConfig } .connecting
      { session with socket := { session.socket with tcp := session.socket.tcp.connect } }
  | .server =>
      initializeTCP (pairSetup .server)
        { config := (pairSetup .server).adapterConfig, listening := true } .accepting

theorem opened_pair : Opened pairAddress pairSetup pair
  | .client => ⟨.inl (connect_eq (pairSetup .client)), fun _ ↦ rfl⟩
  | .server => ⟨.inr rfl, nofun⟩

def payload (side : Side) (segment : TCPSegment) : List UInt8 :=
  let adapter : TCPOverUDPSocketAdapter :=
    { config := { source := pairAddress side, destination := pairAddress side.peer } }
  (adapter.setPorts segment).bytes 0

/-- The owner of the client writes a byte and closes, and then the owner of the server closes.  The
acknowledgment of the client in the handshake gets lost, and the byte comes twice, the first time damaged.
A stranger sends a reset to the server while it listens and a SYN later. -/
def conversation : List (Side × Iteration Kernel.Receive) :=
  let stranger : Address := { ipv4Numeric := 3, port := 80 }
  let synAck : TCPSegment :=
    { header := { seqno := ⟨100⟩, ackno := ⟨1⟩, syn := true, ack := true, win := 8 } }
  let byte : TCPSegment :=
    { header := { seqno := ⟨1⟩, ackno := ⟨101⟩, ack := true, win := 8 }, payload := .ofString [104] }
  let fin : TCPSegment := { header := { seqno := ⟨2⟩, ackno := ⟨101⟩, ack := true, fin := true, win := 8 } }
  let serverFin : TCPSegment :=
    { header := { seqno := ⟨101⟩, ackno := ⟨3⟩, ack := true, fin := true, win := 7 } }
  let lastAck : TCPSegment := { header := { seqno := ⟨3⟩, ackno := ⟨102⟩, ack := true, win := 8 } }
  let fromClient (segment : TCPSegment) (fits : (payload .client segment).length < 65536) :=
    Kernel.Receive.datagram (pairAddress .client) (payload .client segment) fits
  let fromServer (segment : TCPSegment) (fits : (payload .server segment).length < 65536) :=
    Kernel.Receive.datagram (pairAddress .server) (payload .server segment) fits
  let fromStranger (segment : TCPSegment) (fits : (payload .client segment).length < 65536) :=
    Kernel.Receive.datagram stranger (payload .client segment) fits
  let damagedByte := Kernel.Receive.datagram (pairAddress .client)
    ((payload .client byte).set 20 105) (by decide +kernel)
  [(.client, polled [0, 0, 0, Poll.pollOut] nothing [] 0),
    (.server, polled [Poll.pollIn] (fromStranger { header := { rst := true } } (by decide +kernel)) [] 0),
    (.server, polled [Poll.pollIn] (fromClient { header := { syn := true } } (by decide +kernel)) [] 0),
    (.server, polled [0, 0, 0, Poll.pollOut] nothing [] 0),
    (.client, polled [Poll.pollIn] (fromServer synAck (by decide +kernel)) [] 0),
    (.client, polled [] nothing [] 0),
    (.client, polled [0, Poll.pollIn, 0, Poll.pollOut] nothing [104] 0),
    (.client, polled [0, Poll.pollIn] nothing [] 0),
    (.client, polled [0, 0, Poll.pollOut] nothing [] 0),
    (.server, polled [Poll.pollIn] damagedByte [] 0),
    (.server, polled [Poll.pollIn] (fromClient byte (by decide +kernel)) [] 0),
    (.server, polled [] nothing [] 0),
    (.server, polled [Poll.pollIn] (fromStranger { header := { syn := true } } (by decide +kernel)) [] 0),
    (.server, polled [Poll.pollIn] (fromClient fin (by decide +kernel)) [] 0),
    (.server, polled [0, Poll.pollIn, Poll.pollOut, Poll.pollOut] nothing [] 0),
    (.server, polled [0, 0, Poll.pollOut] nothing [] 0),
    (.client, polled [Poll.pollIn] (fromServer serverFin (by decide +kernel)) [] 0),
    (.client, polled [0, Poll.pollOut, Poll.pollOut] nothing [] 0),
    (.client, polled [] nothing [] 20),
    (.client, polled [] nothing [] 20),
    (.server, polled [Poll.pollIn] (fromClient lastAck (by decide +kernel)) [] 0),
    (.server, polled [] nothing [] 0)]

/-- The parser accepts the payload, as a segment with the property. -/
def parses (property : TCPSegment → Bool) (payload : List UInt8) : Bool :=
  match TCPSegment.parse {} (.ofString payload) 0 with
  | .ok (.noError, seg) => property seg
  | _ => false

/-- The test of `Delivers`.  A datagram of the peer is compared with what the adapter of the peer makes of
the segments in its queue. -/
def allows (sockets : Sockets TCPOverUDPSocketAdapter) (action : Side × Iteration Kernel.Receive) : Bool :=
  match action.2.turn.input.incoming with
  | .fails _ => true
  | .datagram sourceAddress payload _ =>
      if sourceAddress = pairAddress action.1.peer then
        (sockets action.1.peer).socket.tcp.segmentsOut.any (fun emission ↦
          match (sockets action.1.peer).socket.datagramAdapter.write none emission.segment with
          | .ok (datagram, _) => datagram.payload = payload
          | .error _ => false) || !parses (fun _ ↦ true) payload
      else !sockets.listening action.1 || !parses (fun seg ↦ seg.header.syn && !seg.header.rst) payload

theorem parses_of_carries {arrival : Arrival} {seg : TCPSegment} {property : TCPSegment → Bool}
    (h : arrival.Carries seg) (hseg : property seg = true) : parses property arrival.payload = true := by
  unfold Arrival.Carries at h
  unfold parses
  rw [h]
  exact hseg

/-- What passes the test may be delivered. -/
theorem delivers_of_allows {sockets : Sockets TCPOverUDPSocketAdapter}
    {action : Side × Iteration Kernel.Receive} (h : sockets.allows action = true) :
    sockets.Delivers pairAddress action := by
  unfold allows at h
  unfold Delivers MayReceive
  split
  · trivial
  · rename_i sourceAddress payload fits hincoming
    rw [hincoming] at h
    dsimp only at h
    split_ifs at h ⊢ with hsource
    · rcases Bool.or_eq_true_iff.mp h with hmakes | hrefused
      · obtain ⟨emission, hemission, hwrite⟩ := List.any_eq_true.mp hmakes
        refine .inl ⟨emission, hemission, (sockets action.1.peer).socket.datagramAdapter, ?_⟩
        split at hwrite
        · rename_i datagram after heq
          exact ⟨after, datagram, heq, of_decide_eq_true hwrite⟩
        · contradiction
      · refine .inr fun seg hcarries ↦ ?_
        have hparses := @parses_of_carries _ seg (fun _ ↦ true) hcarries rfl
        dsimp only at hparses
        rw [hparses] at hrefused
        contradiction
    · intro hlisten seg hopens
      have hparses := @parses_of_carries _ seg (fun seg ↦ seg.header.syn && !seg.header.rst) hopens.1
        (by simp [hopens.2])
      dsimp only at hparses
      rw [hlisten, hparses] at h
      contradiction

theorem delivers_conversation : Admissible step (Delivers pairAddress) pair conversation := by
  have hallows : Admissible step (fun sockets action ↦ sockets.allows action = true) pair conversation := by
    decide +kernel
  exact hallows.mono fun _ _ ↦ delivers_of_allows

theorem short_conversation : ∀ side, (run step pair conversation side).socket.fromOwner.length < 2 ^ 31 - 2
  | .client => by decide +kernel
  | .server => by decide +kernel

/-! ## What the owners see -/

/-- Two sockets refine two connections: whatever the kernels do, and whatever the network does within the
limits of `MayReceive`, what the sockets have done to their connections is a conversation in which each segment
that arrives was sent by the peer and nothing is written after the end of the input.  Serialization, port
numbers, checksums and the parser do not show. -/
theorem refines_network [LawfulFdAdapter Adapter] (address : Side → Address) (setup : Side → Setup Adapter)
    (sockets : Sockets Adapter) (h : Opened address setup sockets)
    (actions : List (Side × Iteration Kernel.Receive))
    (hdelivers : Admissible step (Delivers address) sockets actions)
    (hshort : ∀ side, (run step sockets actions side).socket.fromOwner.length < 2 ^ 31 - 2) :
    let start := Network.start (fun side ↦ (setup side).config) fun side ↦ (setup side).randomIsn
    ∃ calls : List (Side × TCPConnection.Call),
      Admissible Network.step (fun network action ↦ Network.Arrives Network.AckRecovers network action ∧
        Network.WritesBeforeEnd network action) start calls ∧
      ∀ side, run Network.step start calls side =
        { connection := (run step sockets actions side).socket.tcp
          accepted := (run step sockets actions side).socket.fromOwner
          delivered := written (run step sockets actions side).socket.ownerCalls } := by
  intro start
  obtain ⟨calls, hadmissible, hrun⟩ := (linked_run h hdelivers).leads hshort
  exact ⟨calls, hadmissible, fun side ↦ congrFun hrun side⟩

theorem refines_network_conversation :
    let start := Network.start (fun side ↦ (pairSetup side).config) fun side ↦ (pairSetup side).randomIsn
    (run step pair conversation .client).socket.fromOwner = [104] ∧
      ∃ calls : List (Side × TCPConnection.Call),
        Admissible Network.step (fun network action ↦ Network.Arrives Network.AckRecovers network action ∧
          Network.WritesBeforeEnd network action) start calls ∧
        ∀ side, run Network.step start calls side =
          { connection := (run step pair conversation side).socket.tcp
            accepted := (run step pair conversation side).socket.fromOwner
            delivered := written (run step pair conversation side).socket.ownerCalls } := by
  exact ⟨by decide +kernel,
    refines_network _ _ _ opened_pair conversation delivers_conversation short_conversation⟩

/-- What an owner has got is at every moment an initial part of what was read from the owner of the other
socket. -/
theorem owner_gets_initial_part [LawfulFdAdapter Adapter] (address : Side → Address)
    (setup : Side → Setup Adapter) (sockets : Sockets Adapter) (h : Opened address setup sockets)
    (actions : List (Side × Iteration Kernel.Receive))
    (hdelivers : Admissible step (Delivers address) sockets actions)
    (hshort : ∀ side, (run step sockets actions side).socket.fromOwner.length < 2 ^ 31 - 2) (side : Side) :
    written (run step sockets actions side.peer).socket.ownerCalls <+:
      (run step sockets actions side).socket.fromOwner := by
  have hflow := (Network.acknowledged_of_leads ((linked_run h hdelivers).leads hshort) side).flow
  have hgot : written (run step sockets actions side.peer).socket.ownerCalls <+:
      (network (run step sockets actions) side.peer).inbound := List.prefix_append _ _
  refine hgot.trans ?_
  unfold Endpoint.inbound TCPReceiver.streamOut
  rw [hflow.receives.spells.output]
  exact List.take_prefix _ _

theorem owner_gets_initial_part_conversation :
    written (run step pair conversation .server).socket.ownerCalls = [104] ∧
      written (run step pair conversation .server).socket.ownerCalls <+:
        (run step pair conversation .client).socket.fromOwner := by
  exact ⟨by decide +kernel,
    owner_gets_initial_part _ _ _ opened_pair conversation delivers_conversation
      short_conversation .client⟩

theorem atRest_run [LawfulFdAdapter Adapter] {actions : List (Side × Iteration Kernel.Receive)}
    (h : Opened address setup sockets)
    (hdelivers : Admissible step (fun sockets action ↦ sockets.Delivers address action ∧
      ¬ (sockets action.1).StoppedBySignal action.2) sockets actions) :
    Linked address setup (run step sockets actions) ∧
      ∀ side, (run step sockets actions side).AtRest := by
  apply hdelivers.invariant fun sockets ↦ Linked address setup sockets ∧ ∀ side, (sockets side).AtRest
  · intro sockets action hbefore hallowed
    refine ⟨hbefore.1.step hallowed.1, fun side ↦ ?_⟩
    by_cases hside : side = action.1
    · subst hside
      have hstep := (hbefore.1.sound action.1).atRest_step action.2 (hbefore.2 action.1) hallowed.2
      rwa [← step_self] at hstep
    · have hsame : sockets.step action side = sockets side := Function.update_of_ne hside _ _
      rw [hsame]
      exact hbefore.2 side
  · exact ⟨h.linked, fun side ↦ (h side).1.atRest⟩

/-- When both threads have returned because `wait_next_event` has returned `Exit`, neither of them at a
signal, and neither connection was reset, then each owner has got exactly what was read from the other one,
unless a descriptor has hung up.  Nothing is assumed about what the network has lost. -/
theorem owners_get_everything [LawfulFdAdapter Adapter] (address : Side → Address)
    (setup : Side → Setup Adapter) (sockets : Sockets Adapter) (h : Opened address setup sockets)
    (actions : List (Side × Iteration Kernel.Receive))
    (hdelivers : Admissible step (fun sockets action ↦ sockets.Delivers address action ∧
      ¬ (sockets action.1).StoppedBySignal action.2) sockets actions)
    (hshort : ∀ side, (run step sockets actions side).socket.fromOwner.length < 2 ^ 31 - 2)
    (hexit : ∀ side, (run step sockets actions side).phase = .ended (.returned .exit))
    (hrules : ∀ side, ∀ id ∈ [1, 3], id ∈ ids (run step sockets actions side).handlers)
    (hclear : ∀ side, (run step sockets actions side).socket.tcp.isUnclearShutdown = false) (side : Side) :
    written (run step sockets actions side.peer).socket.ownerCalls =
      (run step sockets actions side).socket.fromOwner := by
  obtain ⟨hlinked, hrest⟩ := atRest_run h hdelivers
  have hacknowledged := Network.acknowledged_of_leads (hlinked.leads hshort) side
  have hover : (run step sockets actions side).socket.tcp.active = false :=
    (hrest side).idle (hexit side) (hrules side 1 (by decide))
  have hclosed : (run step sockets actions side).socket.tcp.isClearShutdown = true := by
    rw [active, hclear side, Bool.false_or, Bool.not_eq_false'] at hover
    exact hover
  have hdelivered := (hacknowledged.complete (hacknowledged.concludes.closed hclosed)).1
  have hidle := (hrest side.peer).idle (hexit side.peer) (hrules side.peer 3 (by decide))
  exact (Idle.inbound_eq hidle).symm.trans hdelivered

theorem owners_get_everything_conversation :
    (run step pair conversation .client).socket.fromOwner = [104] ∧
      written (run step pair conversation .server).socket.ownerCalls =
        (run step pair conversation .client).socket.fromOwner := by
  have hallows : Admissible step (fun sockets action ↦ sockets.allows action = true ∧
      ¬ (sockets action.1).StoppedBySignal action.2) pair conversation := by
    decide +kernel
  have hexit : ∀ side, (run step pair conversation side).phase = .ended (.returned .exit)
    | .client => by decide +kernel
    | .server => by decide +kernel
  have hrules : ∀ side, ∀ id ∈ [1, 3], id ∈ ids (run step pair conversation side).handlers
    | .client => by decide +kernel
    | .server => by decide +kernel
  have hclear : ∀ side, (run step pair conversation side).socket.tcp.isUnclearShutdown = false
    | .client => by decide +kernel
    | .server => by decide +kernel
  exact ⟨by decide +kernel, owners_get_everything _ _ _ opened_pair conversation
    (hallows.mono fun _ _ hallowed ↦ ⟨delivers_of_allows hallowed.1, hallowed.2⟩)
    short_conversation hexit hrules hclear .client⟩

end Sockets

end Sponge
