import Sponge.Wire.Serialization

/-!
# TCP segments in IPv4 datagrams

The adapter wraps the segments of a connection in datagrams and unwraps the datagrams of its peer.  An
address is its IPv4 number and its port.  While it listens, the adapter takes over the addresses of
the first segment that opens a connection.

Two adapters that are configured for each other exchange segments unchanged, apart from the ports and
the checksum, which the sending adapter fills in.
-/

namespace Sponge

open OnesComplement

structure Address where
  ipv4Numeric : UInt32 := 0
  port : UInt16 := 0
  deriving DecidableEq, Repr

structure FdAdapterConfig where
  source : Address := {}
  destination : Address := {}
  deriving DecidableEq, Repr

structure TCPOverIPv4Adapter where
  config : FdAdapterConfig := {}
  listening : Bool := false
  deriving DecidableEq, Repr

namespace TCPOverIPv4Adapter

/-- The end of `unwrap_tcp_in_ip`: the segment has been parsed. -/
def relate (adapter : TCPOverIPv4Adapter) (ipHeader : IPv4Header) (tcpSeg : TCPSegment) :
    Option TCPSegment × TCPOverIPv4Adapter :=
  -- is the TCP segment for us?
  if tcpSeg.header.dport ≠ adapter.config.source.port then (none, adapter)
  -- should we target this source address and port in reply?
  else if adapter.listening && !(tcpSeg.header.syn && !tcpSeg.header.rst) then (none, adapter)
  else
    let adapter := if adapter.listening then
        { config := {
            source := { ipv4Numeric := ipHeader.dst, port := adapter.config.source.port }
            destination := { ipv4Numeric := ipHeader.src, port := tcpSeg.header.sport } }
          listening := false }
      else adapter
    -- is the TCP segment from our peer?
    if tcpSeg.header.sport ≠ adapter.config.destination.port then (none, adapter)
    else (some tcpSeg, adapter)

/-- Parse a segment from the payload of a datagram, if it belongs to the connection. -/
def unwrapTcpInIp (adapter : TCPOverIPv4Adapter) (ipDgram : IPv4Datagram) :
    Except StdException (Option TCPSegment × TCPOverIPv4Adapter) := do
  -- is the IPv4 datagram for us?
  if !adapter.listening && ipDgram.header.dst != adapter.config.source.ipv4Numeric then
    return (none, adapter)
  -- is the IPv4 datagram from our peer?
  if !adapter.listening && ipDgram.header.src != adapter.config.destination.ipv4Numeric then
    return (none, adapter)
  -- does the IPv4 datagram claim that its payload is a TCP segment?
  if ipDgram.header.proto ≠ IPv4Header.protoTcp then return (none, adapter)
  -- is the payload a valid TCP segment?
  let buffer ← ipDgram.payload.toBuffer
  let (result, tcpSeg) ← TCPSegment.parse {} buffer ipDgram.header.pseudoCksum
  if result ≠ .noError then return (none, adapter)
  return adapter.relate ipDgram.header tcpSeg

def setPorts (adapter : TCPOverIPv4Adapter) (seg : TCPSegment) : TCPSegment :=
  { seg with header := { seg.header with
      sport := adapter.config.source.port
      dport := adapter.config.destination.port } }

def ipHeader (adapter : TCPOverIPv4Adapter) (seg : TCPSegment) : IPv4Header :=
  let header : IPv4Header := {
    src := adapter.config.source.ipv4Numeric
    dst := adapter.config.destination.ipv4Numeric }
  { header with
    len := .ofNat (header.hlen.toNat * 4 + seg.header.doff.toNat * 4 + seg.payload.size) }

/-- Set the port numbers of a segment and wrap it in a datagram.  The segment is changed too. -/
def wrapTcpInIp (adapter : TCPOverIPv4Adapter) (seg : TCPSegment) :
    Except StdException (IPv4Datagram × TCPSegment) := do
  let seg := adapter.setPorts seg
  let header := adapter.ipHeader seg
  let payload ← seg.serialize header.pseudoCksum
  return ({ header, payload }, seg)

variable {adapter : TCPOverIPv4Adapter} {seg : TCPSegment} {ipDgram : IPv4Datagram}

/-! ## The way through two adapters -/

/-- The length field is exact for segments that fit into a datagram. -/
theorem len_ipHeader (h : 20 + 4 * seg.header.doff.toNat + seg.payload.size ≤ 65535) :
    (adapter.ipHeader seg).len.toNat = 20 + (4 * seg.header.doff.toNat + seg.payload.size) := by
  have hlen : 5 * 4 + seg.header.doff.toNat * 4 + seg.payload.size < 65536 := by omega
  change (UInt16.ofNat (5 * 4 + seg.header.doff.toNat * 4 + seg.payload.size)).toNat = _
  rw [UInt16.toNat_ofNat', Nat.mod_eq_of_lt hlen]
  omega

/-- The sum of a segment that fits into a datagram does not overflow. -/
theorem add_words_lt (header : IPv4Header)
    (h : 20 + 4 * seg.header.doff.toNat + seg.payload.size ≤ 65535) :
    header.pseudoCksum.toNat +
      65535 * ((4 * seg.header.doff.toNat + seg.payload.size + 1) / 2) < 2 ^ 32 := by
  have hpseudo := header.toNat_pseudoCksum_le
  omega

/-- The datagram of a segment is serialized to a well-formed one, with the serialized segment as its
payload. -/
theorem serialize_ipHeader (adapter : TCPOverIPv4Adapter) (seg : TCPSegment)
    (hdoff : 5 ≤ seg.header.doff.toNat)
    (h : 20 + 4 * seg.header.doff.toNat + seg.payload.size ≤ 65535) :
    ∃ payload list cksum, seg.serialize (adapter.ipHeader seg).pseudoCksum = .ok payload ∧
      IPv4Datagram.serialize { header := adapter.ipHeader seg, payload } = .ok list ∧
      IPv4Header.WellFormed list.concatenate ∧
      IPv4Header.encoded list.concatenate = (adapter.ipHeader seg).setCksum cksum ∧
      list.concatenate.drop (4 * 5) = seg.bytes (adapter.ipHeader seg).pseudoCksum := by
  obtain ⟨payload, hserialize, hpayload⟩ := seg.serialize_eq (adapter.ipHeader seg).pseudoCksum hdoff
    (add_words_lt _ h)
  have hlen : (adapter.ipHeader seg).len.toNat = 4 * (5 : UInt8).toNat + payload.size := by
    rw [len_ipHeader h, BufferList.size_eq, hpayload, TCPSegment.bytes, TCPSegment.length_bytes hdoff]
    rfl
  obtain ⟨list, hlist, hwell, hencoded, hdrop⟩ := IPv4Datagram.serialize_wellFormed
    { header := adapter.ipHeader seg, payload } rfl (by decide : 5 ≤ (5 : UInt8).toNat)
    (by decide : (5 : UInt8).toNat ≤ 15) (by decide : (0 : UInt16).toNat < 8192) hlen
  exact ⟨payload, list, _, hserialize, hlist, hwell, hencoded, hdrop.trans hpayload⟩

/-- A datagram that concerns the adapter and claims to carry a segment: what is parsed without an error
is passed on to `relate`, and anything else is dropped. -/
theorem unwrapTcpInIp_of_heeded {payload : Buffer} {result : ParseResult}
    (hheeded : adapter.listening = false → ipDgram.header.dst = adapter.config.source.ipv4Numeric ∧
      ipDgram.header.src = adapter.config.destination.ipv4Numeric)
    (hproto : ipDgram.header.proto = IPv4Header.protoTcp)
    (hpayload : ipDgram.payload = .ofBuffer payload)
    (hparse : TCPSegment.parse {} payload ipDgram.header.pseudoCksum = .ok (result, seg)) :
    adapter.unwrapTcpInIp ipDgram =
      .ok (if result = .noError then adapter.relate ipDgram.header seg else (none, adapter)) := by
  have hbuffer : ipDgram.payload.toBuffer = .ok payload := by
    rw [hpayload]
    rfl
  have hdst : ¬ (!adapter.listening && ipDgram.header.dst != adapter.config.source.ipv4Numeric) := by
    cases hlisten : adapter.listening with
    | true => simp
    | false => simp [(hheeded hlisten).1]
  have hsrc : ¬ (!adapter.listening &&
      ipDgram.header.src != adapter.config.destination.ipv4Numeric) := by
    cases hlisten : adapter.listening with
    | true => simp
    | false => simp [(hheeded hlisten).2]
  unfold unwrapTcpInIp
  rw [if_neg hdst, if_neg hsrc, if_neg (not_not.mpr hproto), hbuffer]
  change (TCPSegment.parse {} payload ipDgram.header.pseudoCksum >>= _) = _
  rw [hparse]
  change (if result ≠ .noError then _ else _) = _
  by_cases hok : result = .noError
  · rw [if_neg (not_not.mpr hok), if_pos hok]
    rfl
  · rw [if_pos hok, if_neg hok]
    rfl

/-- A datagram for the adapter, from its peer and with a segment that it can parse. -/
theorem unwrapTcpInIp_of_parse {payload : Buffer} (hlisten : adapter.listening = false)
    (hdst : ipDgram.header.dst = adapter.config.source.ipv4Numeric)
    (hsrc : ipDgram.header.src = adapter.config.destination.ipv4Numeric)
    (hproto : ipDgram.header.proto = IPv4Header.protoTcp)
    (hpayload : ipDgram.payload = .ofBuffer payload)
    (hparse : TCPSegment.parse {} payload ipDgram.header.pseudoCksum = .ok (.noError, seg))
    (hdport : seg.header.dport = adapter.config.source.port)
    (hsport : seg.header.sport = adapter.config.destination.port) :
    adapter.unwrapTcpInIp ipDgram = .ok (some seg, adapter) := by
  rw [unwrapTcpInIp_of_heeded (fun _ ↦ ⟨hdst, hsrc⟩) hproto hpayload hparse, if_pos rfl]
  simp [relate, hlisten, hdport, hsport]

/-- Two adapters that are configured for each other: a segment that fits into a datagram goes through
the first adapter, the wire and the second adapter, and arrives with its payload and its header, in
which the ports and the checksum have been filled in. -/
theorem segment_passes_adapters (left right : TCPOverIPv4Adapter) (hlisten : right.listening = false)
    (hsource : left.config.source = right.config.destination)
    (hdestination : left.config.destination = right.config.source) (segment : TCPSegment)
    (hdoff : 5 ≤ segment.header.doff.toNat) (hshort : segment.header.doff.toNat ≤ 15)
    (hsize : 20 + 4 * segment.header.doff.toNat + segment.payload.size ≤ 65535) :
    ∃ datagram list received result,
      left.wrapTcpInIp segment = .ok (datagram, left.setPorts segment) ∧
      datagram.serialize = .ok list ∧
      IPv4Datagram.parse {} (.ofString list.concatenate) = .ok (.noError, received) ∧
      right.unwrapTcpInIp received = .ok (some result, right) ∧
      result.payload.str = segment.payload.str ∧
      result.header = { segment.header with
        sport := left.config.source.port
        dport := right.config.source.port
        cksum := (left.setPorts segment).computedCksum datagram.header.pseudoCksum } := by
  obtain ⟨payload, list, cksum, hserialize, hlist, hwell, hencoded, hdrop⟩ :=
    serialize_ipHeader left (left.setPorts segment) hdoff hsize
  obtain ⟨rest, hparse, hrest⟩ := IPv4Datagram.parse_of_wellFormed {}
    (show IPv4Header.WellFormed (Buffer.ofString list.concatenate).str from hwell)
  rw [Buffer.str_ofString, hencoded] at hparse hrest
  obtain ⟨carried, hsegment, hcarried⟩ := TCPSegment.parse_bytes (left.setPorts segment) hdoff hshort
    (add_words_lt (left.ipHeader (left.setPorts segment)) hsize) {} (hrest.trans hdrop)
  -- The pseudo-header does not contain the checksum, so both sides compute the same initial sum.
  have hunwrap : right.unwrapTcpInIp
      ⟨(left.ipHeader (left.setPorts segment)).setCksum cksum, .ofBuffer rest⟩ = .ok (some _, right) :=
    unwrapTcpInIp_of_parse hlisten (congrArg Address.ipv4Numeric hdestination)
      (congrArg Address.ipv4Numeric hsource) rfl rfl hsegment (congrArg Address.port hdestination)
      (congrArg Address.port hsource)
  have hwrap : left.wrapTcpInIp segment = .ok
      (⟨left.ipHeader (left.setPorts segment), payload⟩, left.setPorts segment) := by
    change ((left.setPorts segment).serialize _ >>= _) = _
    rw [hserialize]
    rfl
  refine ⟨_, list, _, _, hwrap, hlist, hparse, hunwrap, hcarried, ?_⟩
  rw [← hdestination]
  rfl

/-- A segment with options and two bytes of payload. -/
theorem segment_passes_adapters_with_options :
    let left : TCPOverIPv4Adapter :=
      { config := { source := ⟨167772161, 1000⟩, destination := ⟨167772162, 80⟩ } }
    let right : TCPOverIPv4Adapter :=
      { config := { source := ⟨167772162, 80⟩, destination := ⟨167772161, 1000⟩ } }
    let segment : TCPSegment :=
      { header := { seqno := ⟨7⟩, doff := 6, syn := true, win := 8 }, payload := .ofString [97, 98] }
    ∃ datagram list received result,
      left.wrapTcpInIp segment = .ok (datagram, left.setPorts segment) ∧
      datagram.serialize = .ok list ∧
      IPv4Datagram.parse {} (.ofString list.concatenate) = .ok (.noError, received) ∧
      right.unwrapTcpInIp received = .ok (some result, right) ∧ result.payload.str = [97, 98] := by
  intro left right segment
  obtain ⟨datagram, list, received, result, hwrap, hlist, hparse, hunwrap, hpayload, -⟩ :=
    segment_passes_adapters left right rfl rfl rfl segment (by decide) (by decide) (by decide)
  exact ⟨datagram, list, received, result, hwrap, hlist, hparse, hunwrap, hpayload⟩

end TCPOverIPv4Adapter

end Sponge
