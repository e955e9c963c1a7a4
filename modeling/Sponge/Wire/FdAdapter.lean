import Sponge.Util.FDWrapper
import Sponge.Wire.ErrorDetection
import Sponge.Wire.Listening

/-!
# Adapters between connections and descriptors

A `TCPSpongeSocket` reads and writes segments through an adapter.  `FdAdapter` lists what the socket
needs of it, and `LawfulFdAdapter` what it relies on.  `TCPOverUDPSocketAdapter` is the adapter for UDP
sockets.  While it listens, it takes over the address of the first datagram that opens a connection.
-/

namespace Sponge

/-- What a `TCPSpongeSocket` needs of its adapter.  An incoming packet comes with the part of the kernel in
reading it; writing may fail as well, or lose the segment on purpose. -/
class FdAdapter (Adapter : Type) (Incoming Outgoing : outParam Type) where
  fd : Adapter → FDWrapper
  read : Incoming → Adapter → Except SystemException (Option TCPSegment × Adapter)
  write : Option Errno → TCPSegment → Adapter → Except SystemException (Option Outgoing × Adapter)
  setConfig : FdAdapterConfig → Adapter → Adapter
  setListening : Bool → Adapter → Adapter

/-- A segment as the sender builds them. -/
structure TCPSegment.Sendable (segment : TCPSegment) : Prop where
  doff : segment.header.doff = 5
  size_le : segment.payload.size ≤ TCPConfig.maxPayloadSize

/-- Two segments that differ at most in what an adapter fills in. -/
structure TCPSegment.Alike (segment other : TCPSegment) : Prop where
  payload : other.payload.str = segment.payload.str
  header : ∃ sport dport cksum, other.header = { segment.header with sport, dport, cksum }

/-- One 16-bit word has changed in transit, but not from zero to `65535` or back. -/
def Corrupted (sent received : List UInt8) : Prop :=
  ∃ word, OnesComplement.DifferInWord word sent received ∧ received ≠ sent ∧
    ¬ (OnesComplement.wordAt sent word = 0 ∧ OnesComplement.wordAt received word = 65535) ∧
    ¬ (OnesComplement.wordAt sent word = 65535 ∧ OnesComplement.wordAt received word = 0)

/-- The adapter throws the failures of system calls only, and each reading counts. -/
class LawfulFdAdapter (Adapter : Type) {Incoming Outgoing : Type} [FdAdapter Adapter Incoming Outgoing] :
    Prop where
  read_error : ∀ {incoming} {adapter : Adapter} {exception},
    FdAdapter.read incoming adapter = .error exception →
      ∃ attempt errno, exception = .unixError attempt errno
  readCount_read : ∀ {incoming} {adapter after : Adapter} {segment},
    FdAdapter.read incoming adapter = .ok (segment, after) →
    (FdAdapter.fd after).readCount = (FdAdapter.fd adapter).readCount + 1
  write_error : ∀ {kernel segment} {adapter : Adapter} {exception}, TCPSegment.Sendable segment →
    FdAdapter.write kernel segment adapter = .error exception →
    ∃ attempt errno, exception = .unixError attempt errno

namespace FdAdapter

variable {Adapter Incoming Outgoing : Type} [FdAdapter Adapter Incoming Outgoing]

def readAll : List Incoming → Adapter → Except SystemException (List (Option TCPSegment) × Adapter)
  | [], adapter => .ok ([], adapter)
  | incoming :: rest, adapter => do
      let (segment, adapter) ← FdAdapter.read incoming adapter
      let (segments, adapter) ← readAll rest adapter
      return (segment :: segments, adapter)

def writeAll : List (Option Errno × TCPSegment) → Adapter →
    Except SystemException (List Outgoing × Adapter)
  | [], adapter => .ok ([], adapter)
  | (kernel, seg) :: rest, adapter => do
      let (datagram, adapter) ← FdAdapter.write kernel seg adapter
      let (datagrams, adapter) ← writeAll rest adapter
      return (datagram.toList ++ datagrams, adapter)

inductive Request (Incoming : Type) where
  | read (incoming : Incoming)
  | write (kernel : Option Errno) (seg : TCPSegment)

def Request.isWrite : Request Incoming → Bool
  | read _ => false
  | write _ _ => true

/-- What an adapter was asked for, with the result. -/
inductive Access (Incoming Outgoing : Type) where
  | read (incoming : Incoming) (seg : Option TCPSegment)
  | write (kernel : Option Errno) (seg : TCPSegment) (datagram : Option Outgoing)

namespace Access

def packet : Access Incoming Outgoing → Option Incoming
  | read incoming _ => some incoming
  | write _ _ _ => none

/-- The segment that has come in. -/
def received : Access Incoming Outgoing → Option TCPSegment
  | read _ seg => seg
  | write _ _ _ => none

/-- The access without its result. -/
def lose : Access Incoming Outgoing → Access Incoming Outgoing
  | read incoming _ => read incoming none
  | write kernel seg _ => write kernel seg none

/-- The segment that was to go out, with what was sent for it. -/
def sent : Access Incoming Outgoing → Option (TCPSegment × Option Outgoing)
  | read _ _ => none
  | write _ seg datagram => some (seg, datagram)

end Access

def access : Request Incoming → Adapter → Except SystemException (Access Incoming Outgoing × Adapter)
  | .read incoming, adapter => do
      let (seg, adapter) ← FdAdapter.read incoming adapter
      return (.read incoming seg, adapter)
  | .write kernel seg, adapter => do
      let (datagram, adapter) ← FdAdapter.write kernel seg adapter
      return (.write kernel seg datagram, adapter)

/-- Read packets and write segments, each request on the adapter that the one before has left. -/
def serve : List (Request Incoming) → Adapter →
    Except SystemException (List (Access Incoming Outgoing) × Adapter)
  | [], adapter => .ok ([], adapter)
  | request :: rest, adapter => do
      let (first, adapter) ← access request adapter
      let (later, adapter) ← serve rest adapter
      return (first :: later, adapter)

theorem access_read {incoming : Incoming} {adapter after : Adapter} {seg : Option TCPSegment}
    (h : FdAdapter.read incoming adapter = .ok (seg, after)) :
    access (.read incoming) adapter = .ok (.read incoming seg, after) := by
  change (FdAdapter.read incoming adapter >>= _) = _
  rw [h]
  rfl

theorem access_write {kernel : Option Errno} {seg : TCPSegment} {adapter after : Adapter}
    {datagram : Option Outgoing} (h : FdAdapter.write kernel seg adapter = .ok (datagram, after)) :
    access (.write kernel seg) adapter = .ok (.write kernel seg datagram, after) := by
  change (FdAdapter.write kernel seg adapter >>= _) = _
  rw [h]
  rfl

theorem serve_cons (request : Request Incoming) (rest : List (Request Incoming)) (adapter : Adapter) :
    serve (request :: rest) adapter = access request adapter >>= fun first ↦
      (serve rest first.2).map fun later ↦ (first.1 :: later.1, later.2) := by
  change (access request adapter >>= _) = _
  cases access request adapter with
  | error exception => rfl
  | ok first =>
    change (serve rest first.2 >>= _) = (serve rest first.2).map _
    cases serve rest first.2 <;> rfl

/-- One more request. -/
theorem serve_concat {requests : List (Request Incoming)} {request : Request Incoming}
    {first middle last : Adapter} {accesses : List (Access Incoming Outgoing)}
    {next : Access Incoming Outgoing} (hserve : serve requests first = .ok (accesses, middle))
    (hnext : access request middle = .ok (next, last)) :
    serve (requests ++ [request]) first = .ok (accesses ++ [next], last) := by
  induction requests generalizing first accesses with
  | nil =>
    obtain ⟨rfl, rfl⟩ := Prod.mk.inj (Except.ok.inj hserve)
    rw [List.nil_append, serve_cons, hnext]
    rfl
  | cons earlier rest ih =>
    rw [serve_cons] at hserve
    rw [List.cons_append, serve_cons]
    cases hfirst : access earlier first with
    | error exception =>
      rw [hfirst] at hserve
      contradiction
    | ok result =>
      rw [hfirst] at hserve
      change (serve rest result.2).map _ = _ at hserve
      change (serve (rest ++ [request]) result.2).map _ = _
      cases hlater : serve rest result.2 with
      | error exception =>
        rw [hlater] at hserve
        contradiction
      | ok later =>
        rw [hlater] at hserve
        obtain ⟨rfl, rfl⟩ := Prod.mk.inj (Except.ok.inj hserve)
        rw [ih hlater]
        rfl

end FdAdapter

/-! ## UDP sockets -/

/-- The part of the kernel in receiving a datagram.  The length field of a UDP datagram has 16 bits. -/
inductive Kernel.Receive where
  | fails (errno : Errno)
  | datagram (sourceAddress : Address) (payload : List UInt8) (fits : payload.length < 65536)

namespace Kernel.Receive

def answer : Receive → Answer
  | fails errno => { returnValue := -1, errno := errno }
  | datagram _ payload _ => { returnValue := payload.length }

/-- The address of the sender and the payload, as they are after the call. -/
def received : Receive → Address × List UInt8
  | fails _ => ({}, [])
  | datagram sourceAddress payload _ => (sourceAddress, payload)

end Kernel.Receive

structure UDPDatagram where
  destination : Address
  payload : List UInt8
  deriving DecidableEq, Repr

namespace UDPSocket

def mtu : ℕ := 65536

/-- Receive a datagram and the address of its sender. -/
def recv (sock : FDWrapper) (kernel : Kernel.Receive) :
    Except SystemException ((Address × List UInt8) × FDWrapper) := do
  let recvLen ← systemCall "recvfrom" kernel.answer
  if recvLen > mtu then throw (.std (.runtimeError "recvfrom (oversized datagram)"))
  else return (kernel.received, sock.registerRead)

/-- Send a datagram to an address.  The kernel sends it as a whole or not at all. -/
def sendto (sock : FDWrapper) (destination : Address) (payload : BufferList) (kernel : Option Errno) :
    Except SystemException (UDPDatagram × FDWrapper) := do
  let bytesSent ← systemCall "sendmsg"
    (match kernel with
      | none => { returnValue := payload.size }
      | some errno => { returnValue := -1, errno := errno })
  if toSize bytesSent ≠ payload.size then
    throw (.std (.runtimeError "datagram payload too big for sendmsg()"))
  else return (⟨destination, payload.concatenate⟩, sock.registerWrite)

theorem recv_fails (sock : FDWrapper) (errno : Errno) :
    recv sock (.fails errno) = .error (.unixError "recvfrom" errno) := by
  have hcall : systemCall "recvfrom" (Kernel.Receive.fails errno).answer =
      .error (.unixError "recvfrom" errno) := systemCall_fails "recvfrom" errno
  unfold recv
  rw [hcall]
  rfl

/-- A datagram that fits is received as a whole. -/
theorem recv_datagram (sock : FDWrapper) (sourceAddress : Address) {payload : List UInt8}
    (fits : payload.length < 65536) :
    recv sock (.datagram sourceAddress payload fits) =
      .ok ((sourceAddress, payload), sock.registerRead) := by
  have hsmall : (payload.length : ℤ) ≤ intMax := by
    unfold intMax
    omega
  have hcall : systemCall "recvfrom" (Kernel.Receive.datagram sourceAddress payload fits).answer =
      .ok payload.length := systemCall_returns "recvfrom" hsmall
  have hwhole : ¬ (payload.length : ℤ) > mtu := by
    unfold mtu
    omega
  unfold recv
  rw [hcall]
  exact if_neg hwhole

/-- A payload below the limit of UDP is sent as a whole, or the call fails. -/
theorem sendto_eq (sock : FDWrapper) (destination : Address) {payload : BufferList}
    (hsize : payload.size < 65536) (kernel : Option Errno) :
    sendto sock destination payload kernel =
      match kernel with
      | none => .ok (⟨destination, payload.concatenate⟩, sock.registerWrite)
      | some errno => .error (.unixError "sendmsg" errno) := by
  unfold sendto
  cases kernel with
  | some errno =>
    dsimp only
    rw [systemCall_fails]
    rfl
  | none =>
    have hsmall : (payload.size : ℤ) ≤ intMax := by
      unfold intMax
      omega
    have hexact : ¬ toSize payload.size ≠ payload.size := by
      have := toSize_of_nonneg (Int.natCast_nonneg payload.size) (by omega)
      omega
    dsimp only
    rw [systemCall_returns "sendmsg" hsmall]
    exact if_neg hexact

end UDPSocket

/-- An adapter that reads and writes segments in UDP payloads. -/
structure TCPOverUDPSocketAdapter where
  config : FdAdapterConfig := {}
  listening : Bool := false
  sock : FDWrapper := {}
  deriving DecidableEq, Repr

namespace TCPOverUDPSocketAdapter

/-- Attempt to read a segment that is related to the connection. -/
def read (incoming : Kernel.Receive) (adapter : TCPOverUDPSocketAdapter) :
    Except SystemException (Option TCPSegment × TCPOverUDPSocketAdapter) := do
  let ((sourceAddress, payload), sock) ← UDPSocket.recv adapter.sock incoming
  let adapter := { adapter with sock }
  -- is it for us?
  if !adapter.listening && sourceAddress != adapter.config.destination then return (none, adapter)
  -- is the payload a valid TCP segment?
  let (result, seg) ← (TCPSegment.parse {} (.ofString payload) 0).mapError .std
  if result ≠ .noError then return (none, adapter)
  -- should we target this source in all future replies?
  if adapter.listening then
    if seg.header.syn && !seg.header.rst then
      return (some seg, { adapter with
        config := { adapter.config with destination := sourceAddress }, listening := false })
    else return (none, adapter)
  else return (some seg, adapter)

def setPorts (adapter : TCPOverUDPSocketAdapter) (seg : TCPSegment) : TCPSegment :=
  { seg with header := { seg.header with
      sport := adapter.config.source.port
      dport := adapter.config.destination.port } }

/-- Serialize a segment and send it as the payload of a datagram. -/
def write (kernel : Option Errno) (seg : TCPSegment) (adapter : TCPOverUDPSocketAdapter) :
    Except SystemException (UDPDatagram × TCPOverUDPSocketAdapter) := do
  let payload ← ((adapter.setPorts seg).serialize 0).mapError .std
  let (datagram, sock) ← UDPSocket.sendto adapter.sock adapter.config.destination payload kernel
  return (datagram, { adapter with sock })

instance : FdAdapter TCPOverUDPSocketAdapter Kernel.Receive UDPDatagram where
  fd := sock
  read := read
  write kernel seg adapter := (adapter.write kernel seg).map fun written ↦ (some written.1, written.2)
  setConfig config adapter := { adapter with config }
  setListening listening adapter := { adapter with listening }

variable {adapter : TCPOverUDPSocketAdapter} {seg : TCPSegment}

/-- What `read` does with a datagram that was parsed. -/
def relate (adapter : TCPOverUDPSocketAdapter) (sourceAddress : Address) (result : ParseResult)
    (seg : TCPSegment) : Option TCPSegment × TCPOverUDPSocketAdapter :=
  if !adapter.listening && sourceAddress != adapter.config.destination then (none, adapter)
  else if result ≠ .noError then (none, adapter)
  else if adapter.listening then
    if seg.header.syn && !seg.header.rst then
      (some seg, { adapter with
        config := { adapter.config with destination := sourceAddress }, listening := false })
    else (none, adapter)
  else (some seg, adapter)

theorem read_fails (adapter : TCPOverUDPSocketAdapter) (errno : Errno) :
    adapter.read (.fails errno) = .error (.unixError "recvfrom" errno) := by
  unfold read
  rw [UDPSocket.recv_fails]
  rfl

theorem read_datagram {sourceAddress : Address} {payload : List UInt8} (fits : payload.length < 65536)
    {result : ParseResult} (hparse : TCPSegment.parse {} (.ofString payload) 0 = .ok (result, seg)) :
    adapter.read (.datagram sourceAddress payload fits) =
      .ok ({ adapter with sock := adapter.sock.registerRead }.relate sourceAddress result seg) := by
  unfold read
  rw [UDPSocket.recv_datagram]
  dsimp only [bind, Except.bind]
  rw [hparse]
  dsimp only [Except.mapError, pure, Except.pure, relate]
  split_ifs <;> rfl

theorem size_setPorts (h : seg.Sendable) :
    (adapter.setPorts seg).header.doff.toNat = 5 ∧ (adapter.setPorts seg).payload.size ≤ 1452 :=
  ⟨congrArg UInt8.toNat h.doff, h.size_le⟩

theorem length_bytes_setPorts (h : seg.Sendable) : ((adapter.setPorts seg).bytes 0).length ≤ 1472 := by
  obtain ⟨hdoff, hsize⟩ := @size_setPorts adapter seg h
  rw [TCPSegment.bytes, TCPSegment.length_bytes (by omega)]
  omega

/-- The sum over a segment does not overflow. -/
theorem sum_setPorts_lt (h : seg.Sendable) :
    (0 : UInt32).toNat + 65535 * ((4 * (adapter.setPorts seg).header.doff.toNat +
      (adapter.setPorts seg).payload.size + 1) / 2) < 2 ^ 32 := by
  obtain ⟨hdoff, hsize⟩ := @size_setPorts adapter seg h
  rw [UInt32.toNat_zero]
  omega

/-- What is written for a segment that can be sent. -/
theorem write_eq (h : seg.Sendable) (kernel : Option Errno) :
    adapter.write kernel seg =
      match kernel with
      | none => .ok (⟨adapter.config.destination, (adapter.setPorts seg).bytes 0⟩,
          { adapter with sock := adapter.sock.registerWrite })
      | some errno => .error (.unixError "sendmsg" errno) := by
  obtain ⟨hdoff, -⟩ := @size_setPorts adapter seg h
  obtain ⟨payload, hserialize, hbytes⟩ := (adapter.setPorts seg).serialize_eq 0 (by omega)
    (sum_setPorts_lt h)
  have hsize : payload.size < 65536 := by
    have := @length_bytes_setPorts adapter seg h
    rw [BufferList.size_eq, hbytes]
    omega
  unfold write
  rw [hserialize]
  dsimp only [bind, Except.bind, Except.mapError]
  rw [UDPSocket.sendto_eq _ _ hsize]
  cases kernel with
  | none =>
    dsimp only
    rw [hbytes]
    rfl
  | some errno => rfl

/-- Writing changes the descriptor only. -/
theorem after_write {kernel : Option Errno} {datagram : UDPDatagram} {after : TCPOverUDPSocketAdapter}
    (h : adapter.write kernel seg = .ok (datagram, after)) : ∃ sock, after = { adapter with sock } := by
  unfold write at h
  cases hserialize : ((adapter.setPorts seg).serialize 0).mapError SystemException.std with
  | error exception =>
    rw [hserialize] at h
    contradiction
  | ok payload =>
    rw [hserialize] at h
    dsimp only [bind, Except.bind] at h
    cases hsend : UDPSocket.sendto adapter.sock adapter.config.destination payload kernel with
    | error exception =>
      rw [hsend] at h
      contradiction
    | ok result =>
      rw [hsend] at h
      exact ⟨result.2, (Prod.mk.inj (Except.ok.inj h)).2.symm⟩

/-- What has been written is parsed to a segment that is alike. -/
theorem parse_written (h : seg.Sendable) :
    ∃ received, TCPSegment.parse {} (.ofString ((adapter.setPorts seg).bytes 0)) 0 =
      .ok (.noError, received) ∧ seg.Alike received := by
  obtain ⟨hdoff, -⟩ := @size_setPorts adapter seg h
  obtain ⟨payload, hparse, hpayload⟩ := (adapter.setPorts seg).parse_bytes (by omega) (by omega)
    (sum_setPorts_lt h) {} (Buffer.str_ofString _)
  exact ⟨_, hparse, hpayload, adapter.config.source.port, adapter.config.destination.port, _, rfl⟩

/-- What was changed in transit is refused. -/
theorem parse_of_word_changed (h : seg.Sendable) {payload : List UInt8}
    (hcorrupted : Corrupted ((adapter.setPorts seg).bytes 0) payload) :
    TCPSegment.parse {} (.ofString payload) 0 = .ok (.badChecksum, {}) := by
  obtain ⟨word, hdiffer, hne, hraised, hlowered⟩ := hcorrupted
  have hlength := hdiffer.length.trans_le (@length_bytes_setPorts adapter seg h)
  refine TCPSegment.parse_of_corrupted {} (by omega) (.inl rfl) ?_
  exact hdiffer.checksum_ne_zero hne (TCPSegment.checksum_bytes _ 0) hraised hlowered

instance : LawfulFdAdapter TCPOverUDPSocketAdapter where
  read_error := by
    intro incoming adapter exception herror
    cases incoming with
    | fails errno =>
      exact ⟨"recvfrom", errno, Except.error.inj (herror.symm.trans (read_fails adapter errno))⟩
    | datagram sourceAddress payload fits =>
      obtain ⟨result, seg, hparse, -⟩ := TCPSegment.parse_safe {} (.ofString payload) 0
      exact absurd (herror.symm.trans (read_datagram fits hparse)) nofun
  readCount_read := by
    intro incoming adapter after segment hok
    cases incoming with
    | fails errno =>
      exact absurd ((read_fails adapter errno).symm.trans hok) nofun
    | datagram sourceAddress payload fits =>
      obtain ⟨result, seg, hparse, -⟩ := TCPSegment.parse_safe {} (.ofString payload) 0
      have hrelate := Except.ok.inj ((read_datagram fits hparse).symm.trans hok)
      have hafter : after = _ := (congrArg Prod.snd hrelate).symm
      rw [hafter, relate]
      split_ifs <;> rfl
  write_error := by
    intro kernel seg adapter exception hsendable herror
    have hmap : (adapter.write kernel seg).map (fun written ↦ (some written.1, written.2)) =
      .error exception := herror
    rw [write_eq hsendable] at hmap
    cases kernel with
    | none => contradiction
    | some errno => exact ⟨"sendmsg", errno, (Except.error.inj hmap).symm⟩

/-! ## A listening adapter -/

open FdAdapter

structure Arrival where
  sourceAddress : Address
  payload : List UInt8
  fits : payload.length < 65536

namespace Arrival

def incoming (arrival : Arrival) : Kernel.Receive :=
  .datagram arrival.sourceAddress arrival.payload arrival.fits

/-- The payload is parsed as this segment. -/
def Carries (arrival : Arrival) (seg : TCPSegment) : Prop :=
  TCPSegment.parse {} (.ofString arrival.payload) 0 = .ok (.noError, seg)

/-- The payload is a segment that asks for a connection. -/
def Opens (arrival : Arrival) (seg : TCPSegment) : Prop :=
  arrival.Carries seg ∧ seg.header.syn = true ∧ seg.header.rst = false

end Arrival

variable {arrival : Arrival}

/-- What reading does to an adapter: it counts, and it may lock the adapter onto a sender. -/
theorem read_arrival (adapter : TCPOverUDPSocketAdapter) (arrival : Arrival) :
    ∃ result seg, TCPSegment.parse {} (.ofString arrival.payload) 0 = .ok (result, seg) ∧
      adapter.read arrival.incoming =
        .ok ({ adapter with sock := adapter.sock.registerRead }.relate arrival.sourceAddress result
          seg) := by
  obtain ⟨result, seg, hparse, -⟩ := TCPSegment.parse_safe {} (.ofString arrival.payload) 0
  exact ⟨result, seg, hparse, read_datagram arrival.fits hparse⟩

/-- A listening adapter ignores what does not open a connection. -/
theorem read_of_not_opens (hlisten : adapter.listening = true) (hcloses : ∀ seg, ¬ arrival.Opens seg) :
    adapter.read arrival.incoming = .ok (none, { adapter with sock := adapter.sock.registerRead }) := by
  obtain ⟨result, seg, hparse, hread⟩ := read_arrival adapter arrival
  rw [hread, relate]
  dsimp only
  rw [hlisten]
  by_cases hok : result = .noError
  · subst hok
    have hrefused : (seg.header.syn && !seg.header.rst) = false := by
      rw [Bool.eq_false_iff]
      intro hset
      obtain ⟨hsyn, hrst⟩ := Bool.and_eq_true_iff.mp hset
      exact hcloses seg ⟨hparse, hsyn, by simpa using hrst⟩
    rw [hrefused]
    rfl
  · rw [if_pos hok]
    rfl

/-- The first segment that opens a connection is returned, and its sender is the peer from now on. -/
theorem read_of_opens {seg : TCPSegment} (hlisten : adapter.listening = true) (hopens : arrival.Opens seg) :
    adapter.read arrival.incoming = .ok (some seg,
      { config := { adapter.config with destination := arrival.sourceAddress }
        listening := false
        sock := adapter.sock.registerRead }) := by
  obtain ⟨hcarries, hsyn, hrst⟩ := hopens
  have hread : adapter.read arrival.incoming = _ := read_datagram arrival.fits hcarries
  rw [hread, relate]
  dsimp only
  rw [hlisten, hsyn, hrst]
  rfl

/-- Once it has a peer, the adapter keeps it, and returns its segments only. -/
theorem read_of_locked (hlocked : adapter.listening = false) (arrival : Arrival) :
    ∃ result, adapter.read arrival.incoming =
        .ok (result, { adapter with sock := adapter.sock.registerRead }) ∧
      ∀ seg ∈ result, arrival.sourceAddress = adapter.config.destination ∧ arrival.Carries seg := by
  obtain ⟨result, seg, hparse, hread⟩ := read_arrival adapter arrival
  rw [hread, relate]
  dsimp only
  rw [hlocked]
  by_cases hsource : arrival.sourceAddress = adapter.config.destination
  · by_cases hok : result = .noError
    · subst hok
      refine ⟨some seg, by simp [hsource], ?_⟩
      rintro _ ⟨⟩
      exact ⟨hsource, hparse⟩
    · exact ⟨none, by simp [hsource, hok], by simp⟩
  · exact ⟨none, by simp [hsource], by simp⟩

theorem readAll_cons {incoming : Kernel.Receive} {packets : List Kernel.Receive}
    {segment : Option TCPSegment} {segments : List (Option TCPSegment)}
    {middle final : TCPOverUDPSocketAdapter} (hfirst : adapter.read incoming = .ok (segment, middle))
    (hrest : readAll packets middle = .ok (segments, final)) :
    readAll (incoming :: packets) adapter = .ok (segment :: segments, final) := by
  change (adapter.read incoming >>= _) = _
  rw [hfirst]
  change (readAll packets middle >>= _) = _
  rw [hrest]
  rfl

/-- An adapter that is bound to its peer returns nothing that comes from elsewhere. -/
theorem readAll_of_locked (hlocked : adapter.listening = false) (arrivals : List Arrival) :
    ∃ results final, readAll (arrivals.map Arrival.incoming) adapter = .ok (results, final) ∧
      final.config = adapter.config ∧ final.listening = false ∧
      List.Forall₂ (fun arrival result ↦ ∀ seg ∈ result,
        arrival.sourceAddress = adapter.config.destination ∧ arrival.Carries seg) arrivals results := by
  induction arrivals generalizing adapter with
  | nil => exact ⟨[], adapter, rfl, rfl, hlocked, .nil⟩
  | cons arrival rest ih =>
    obtain ⟨result, hfirst, hpeer⟩ := read_of_locked hlocked arrival
    obtain ⟨results, final, hrest, hconfig, hlistening, hpeers⟩ :=
      @ih { adapter with sock := adapter.sock.registerRead } hlocked
    exact ⟨result :: results, final, readAll_cons hfirst hrest, hconfig, hlistening, .cons hpeer hpeers⟩

/-- A sequence of datagrams arrives at a listening adapter, and one of them opens a connection.  Nothing
is returned for the datagrams before the first such one.  From then on its sender is the destination, and
whatever arrives later, only segments in datagrams of this sender are returned. -/
theorem locks_onto_first_sender (adapter : TCPOverUDPSocketAdapter) (hlisten : adapter.listening = true)
    (before after : List Arrival) (opening : Arrival) (seg : TCPSegment)
    (hcloses : ∀ arrival ∈ before, ∀ seg, ¬ arrival.Opens seg) (hopens : opening.Opens seg) :
    ∃ returned final, readAll ((before ++ opening :: after).map Arrival.incoming) adapter =
        .ok (List.replicate before.length none ++ some seg :: returned, final) ∧
      final.config = { adapter.config with destination := opening.sourceAddress } ∧
      final.listening = false ∧
      List.Forall₂ (fun arrival result ↦ ∀ seg ∈ result,
        arrival.sourceAddress = opening.sourceAddress ∧ arrival.Carries seg) after returned := by
  induction before generalizing adapter with
  | nil =>
    obtain ⟨returned, final, hafter, hconfig, hlistening, hpeers⟩ := @readAll_of_locked
      { config := { adapter.config with destination := opening.sourceAddress }
        listening := false
        sock := adapter.sock.registerRead } rfl after
    exact ⟨returned, final, readAll_cons (read_of_opens hlisten hopens) hafter, hconfig, hlistening, hpeers⟩
  | cons arrival rest ih =>
    rw [List.forall_mem_cons] at hcloses
    obtain ⟨returned, final, hrest, hconfig, hlistening, hpeers⟩ :=
      ih { adapter with sock := adapter.sock.registerRead } hlisten hcloses.2
    exact ⟨returned, final, readAll_cons (read_of_not_opens hlisten hcloses.1) hrest, hconfig, hlistening,
      hpeers⟩

/-- A segment without SYN from one address is ignored, and the SYN from the other one is returned. -/
theorem locks_onto_first_sender_second_datagram :
    let adapter : TCPOverUDPSocketAdapter := { listening := true }
    let ack : TCPSegment := { header := { ack := true, win := 9 } }
    let syn : TCPSegment := { header := { syn := true, win := 9 } }
    let stranger : Arrival := ⟨⟨1, 1⟩, ack.bytes 0, by decide +kernel⟩
    let opening : Arrival := ⟨⟨2, 2⟩, syn.bytes 0, by decide +kernel⟩
    ∃ seg returned final, readAll ([stranger, opening, stranger].map Arrival.incoming) adapter =
        .ok (none :: some seg :: returned, final) ∧ final.config.destination = ⟨2, 2⟩ := by
  intro adapter ack syn stranger opening
  obtain ⟨seg, hparse, halike⟩ := @parse_written {} syn ⟨rfl, by decide⟩
  obtain ⟨sport, dport, cksum, hheader⟩ := halike.header
  have hopens : opening.Opens seg := by
    refine ⟨hparse, ?_, ?_⟩
    · rw [hheader]
    · rw [hheader]
  have hcloses : ∀ arrival ∈ [stranger], ∀ seg, ¬ arrival.Opens seg := by
    intro arrival hmem seg hopens
    obtain ⟨other, hother, halike⟩ := @parse_written {} ack ⟨rfl, by decide⟩
    obtain ⟨sport, dport, cksum, hheader⟩ := halike.header
    rw [List.mem_singleton.mp hmem] at hopens
    obtain ⟨-, rfl⟩ := Prod.mk.inj (Except.ok.inj (hother.symm.trans hopens.1))
    have hsyn := hopens.2.1
    rw [hheader] at hsyn
    exact absurd hsyn Bool.false_ne_true
  obtain ⟨returned, final, hread, hconfig, -⟩ :=
    locks_onto_first_sender adapter rfl [stranger] [stranger] opening seg hcloses hopens
  exact ⟨seg, returned, final, hread, congrArg FdAdapterConfig.destination hconfig⟩

end TCPOverUDPSocketAdapter

end Sponge
