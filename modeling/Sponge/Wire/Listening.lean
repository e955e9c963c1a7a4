import Sponge.Wire.Robustness
import Sponge.Wire.TCPOverIPv4

/-!
# A listening adapter

While it listens, the adapter ignores everything but a segment to its port that opens a connection.  The
first such segment fixes the addresses and the ports of both ends.  From then on the adapter returns
segments of this peer only, and its configuration does not change any more.
-/

namespace Sponge

namespace IPv4Datagram

/-- The payload is one buffer, as in every datagram that has been parsed. -/
def Contiguous (ipDgram : IPv4Datagram) : Prop := ∃ buffer, ipDgram.payload = .ofBuffer buffer

/-- The datagram claims to carry a TCP segment, and its payload is parsed as this one. -/
def Carries (ipDgram : IPv4Datagram) (tcpSeg : TCPSegment) : Prop :=
  ipDgram.header.proto = IPv4Header.protoTcp ∧ ∃ buffer, ipDgram.payload = .ofBuffer buffer ∧
    TCPSegment.parse {} buffer ipDgram.header.pseudoCksum = .ok (.noError, tcpSeg)

/-- The datagram carries a segment that asks for a connection to the port. -/
structure Opens (port : UInt16) (ipDgram : IPv4Datagram) (tcpSeg : TCPSegment) : Prop where
  carries : ipDgram.Carries tcpSeg
  dport : tcpSeg.header.dport = port
  syn : tcpSeg.header.syn = true
  rst : tcpSeg.header.rst = false

end IPv4Datagram

open IPv4Datagram

namespace TCPOverIPv4Adapter

variable {adapter : TCPOverIPv4Adapter} {ipDgram : IPv4Datagram} {tcpSeg : TCPSegment}
  {datagrams : List IPv4Datagram}

/-- What the adapter returns for a sequence of datagrams, and the adapter afterwards. -/
def unwrapAll : TCPOverIPv4Adapter → List IPv4Datagram →
    Except StdException (List (Option TCPSegment) × TCPOverIPv4Adapter)
  | adapter, [] => .ok ([], adapter)
  | adapter, ipDgram :: rest => do
      let (result, adapter) ← adapter.unwrapTcpInIp ipDgram
      let (results, adapter) ← unwrapAll adapter rest
      return (result :: results, adapter)

/-- The adapter that has taken over the addresses and the ports of a segment. -/
def lockedOn (ipDgram : IPv4Datagram) (tcpSeg : TCPSegment) : TCPOverIPv4Adapter where
  config := {
    source := { ipv4Numeric := ipDgram.header.dst, port := tcpSeg.header.dport }
    destination := { ipv4Numeric := ipDgram.header.src, port := tcpSeg.header.sport } }

/-- The segment comes from the peer of the adapter. -/
structure FromPeer (adapter : TCPOverIPv4Adapter) (ipDgram : IPv4Datagram) (tcpSeg : TCPSegment) :
    Prop where
  carries : ipDgram.Carries tcpSeg
  dst : ipDgram.header.dst = adapter.config.source.ipv4Numeric
  src : ipDgram.header.src = adapter.config.destination.ipv4Numeric
  dport : tcpSeg.header.dport = adapter.config.source.port
  sport : tcpSeg.header.sport = adapter.config.destination.port

/-! ## One datagram -/

/-- A datagram that does not concern the adapter, or does not claim to carry a segment, is dropped. -/
theorem unwrapTcpInIp_of_not_heeded
    (h : ¬ ((adapter.listening = false → ipDgram.header.dst = adapter.config.source.ipv4Numeric ∧
      ipDgram.header.src = adapter.config.destination.ipv4Numeric) ∧
        ipDgram.header.proto = IPv4Header.protoTcp)) :
    adapter.unwrapTcpInIp ipDgram = .ok (none, adapter) := by
  unfold unwrapTcpInIp
  split_ifs with hdst hsrc hproto
  · rfl
  · rfl
  · rfl
  · refine absurd ⟨fun hlisten ↦ ?_, not_not.mp hproto⟩ h
    simpa [hlisten] using And.intro hdst hsrc

/-- The adapter does not throw.  The datagram is dropped, or it carries a segment about which `relate`
decides. -/
theorem unwrapTcpInIp_cases (adapter : TCPOverIPv4Adapter) (h : ipDgram.Contiguous) :
    adapter.unwrapTcpInIp ipDgram = .ok (none, adapter) ∧
        (adapter.listening = true → ∀ tcpSeg, ¬ ipDgram.Carries tcpSeg) ∨
      ∃ tcpSeg, ipDgram.Carries tcpSeg ∧
        (adapter.listening = false → ipDgram.header.dst = adapter.config.source.ipv4Numeric ∧
          ipDgram.header.src = adapter.config.destination.ipv4Numeric) ∧
        adapter.unwrapTcpInIp ipDgram = .ok (adapter.relate ipDgram.header tcpSeg) := by
  by_cases hheeded : (adapter.listening = false →
      ipDgram.header.dst = adapter.config.source.ipv4Numeric ∧
        ipDgram.header.src = adapter.config.destination.ipv4Numeric) ∧
      ipDgram.header.proto = IPv4Header.protoTcp
  · obtain ⟨buffer, hbuffer⟩ := h
    obtain ⟨result, parsed, hparse, -⟩ := TCPSegment.parse_safe {} buffer ipDgram.header.pseudoCksum
    have hunwrap := unwrapTcpInIp_of_heeded hheeded.1 hheeded.2 hbuffer hparse
    split_ifs at hunwrap with hresult
    · rw [hresult] at hparse
      exact .inr ⟨parsed, ⟨hheeded.2, buffer, hbuffer, hparse⟩, hheeded.1, hunwrap⟩
    · refine .inl ⟨hunwrap, fun _ tcpSeg hcarries ↦ hresult ?_⟩
      obtain ⟨-, other, hother, hok⟩ := hcarries
      rw [hbuffer] at hother
      cases hother
      exact congrArg Prod.fst (Except.ok.inj (hparse.symm.trans hok))
  · refine .inl ⟨unwrapTcpInIp_of_not_heeded hheeded, fun hlisten tcpSeg hcarries ↦ hheeded ?_⟩
    exact ⟨fun hlocked ↦ absurd (hlisten.symm.trans hlocked) (by decide), hcarries.1⟩

/-- A listening adapter ignores what does not open a connection. -/
theorem unwrapTcpInIp_of_not_opens (hlisten : adapter.listening = true) (h : ipDgram.Contiguous)
    (hcloses : ∀ tcpSeg, ¬ Opens adapter.config.source.port ipDgram tcpSeg) :
    adapter.unwrapTcpInIp ipDgram = .ok (none, adapter) := by
  rcases unwrapTcpInIp_cases adapter h with hdropped | ⟨tcpSeg, hcarries, -, hunwrap⟩
  · exact hdropped.1
  · rw [hunwrap, relate]
    by_cases hdport : tcpSeg.header.dport = adapter.config.source.port
    · have hrefused : (tcpSeg.header.syn && !tcpSeg.header.rst) = false := by
        rw [Bool.eq_false_iff]
        intro hset
        obtain ⟨hsyn, hrst⟩ := Bool.and_eq_true_iff.mp hset
        exact hcloses tcpSeg ⟨hcarries, hdport, hsyn, by simpa using hrst⟩
      rw [if_neg (not_not.mpr hdport), hlisten, hrefused]
      rfl
    · rw [if_pos hdport]

/-- The first segment that opens a connection is returned, and the adapter locks onto its sender. -/
theorem unwrapTcpInIp_of_opens (hlisten : adapter.listening = true)
    (h : Opens adapter.config.source.port ipDgram tcpSeg) :
    adapter.unwrapTcpInIp ipDgram = .ok (some tcpSeg, lockedOn ipDgram tcpSeg) := by
  obtain ⟨hproto, buffer, hbuffer, hparse⟩ := h.carries
  have hheard : adapter.listening = false →
      ipDgram.header.dst = adapter.config.source.ipv4Numeric ∧
        ipDgram.header.src = adapter.config.destination.ipv4Numeric :=
    fun hlocked ↦ absurd (hlisten.symm.trans hlocked) (by decide)
  rw [unwrapTcpInIp_of_heeded hheard hproto hbuffer hparse, if_pos rfl]
  simp [relate, lockedOn, hlisten, h.dport, h.syn, h.rst]

/-- Once it has a peer, the adapter does not change, and it returns segments of this peer only. -/
theorem unwrapTcpInIp_of_locked (hlocked : adapter.listening = false) (h : ipDgram.Contiguous) :
    ∃ result, adapter.unwrapTcpInIp ipDgram = .ok (result, adapter) ∧
      ∀ tcpSeg ∈ result, adapter.FromPeer ipDgram tcpSeg := by
  have hnone : ∀ tcpSeg ∈ (none : Option TCPSegment), adapter.FromPeer ipDgram tcpSeg := by simp
  rcases unwrapTcpInIp_cases adapter h with hdropped | ⟨tcpSeg, hcarries, hheeded, hunwrap⟩
  · exact ⟨none, hdropped.1, hnone⟩
  · obtain ⟨hdst, hsrc⟩ := hheeded hlocked
    rw [hunwrap, relate]
    simp only [hlocked, Bool.false_and, Bool.false_eq_true, if_false]
    split_ifs with hdport hsport
    · exact ⟨none, rfl, hnone⟩
    · exact ⟨none, rfl, hnone⟩
    · refine ⟨some tcpSeg, rfl, ?_⟩
      rintro _ ⟨⟩
      exact ⟨hcarries, hdst, hsrc, not_not.mp hdport, not_not.mp hsport⟩

/-! ## A sequence of datagrams -/

theorem unwrapAll_cons {result : Option TCPSegment} {results : List (Option TCPSegment)}
    {middle after : TCPOverIPv4Adapter} (hfirst : adapter.unwrapTcpInIp ipDgram = .ok (result, middle))
    (hrest : middle.unwrapAll datagrams = .ok (results, after)) :
    adapter.unwrapAll (ipDgram :: datagrams) = .ok (result :: results, after) := by
  change (adapter.unwrapTcpInIp ipDgram >>= _) = _
  rw [hfirst]
  change (middle.unwrapAll datagrams >>= _) = _
  rw [hrest]
  rfl

/-- As long as no connection is opened, the datagrams make no difference. -/
theorem unwrapAll_of_not_opens {results : List (Option TCPSegment)} {after : TCPOverIPv4Adapter}
    {more : List IPv4Datagram} (hlisten : adapter.listening = true)
    (h : ∀ ipDgram ∈ datagrams, ipDgram.Contiguous)
    (hcloses : ∀ ipDgram ∈ datagrams, ∀ tcpSeg,
      ¬ Opens adapter.config.source.port ipDgram tcpSeg)
    (hmore : adapter.unwrapAll more = .ok (results, after)) :
    adapter.unwrapAll (datagrams ++ more) =
      .ok (List.replicate datagrams.length none ++ results, after) := by
  induction datagrams with
  | nil => exact hmore
  | cons ipDgram rest ih =>
    rw [List.forall_mem_cons] at h hcloses
    exact unwrapAll_cons (unwrapTcpInIp_of_not_opens hlisten h.1 hcloses.1) (ih h.2 hcloses.2)

/-- An adapter that is bound to its peer returns only what comes from there. -/
theorem unwrapAll_of_locked (hlocked : adapter.listening = false)
    (h : ∀ ipDgram ∈ datagrams, ipDgram.Contiguous) :
    ∃ results, adapter.unwrapAll datagrams = .ok (results, adapter) ∧
      List.Forall₂ (fun ipDgram result ↦ ∀ tcpSeg ∈ result, adapter.FromPeer ipDgram tcpSeg)
        datagrams results := by
  induction datagrams with
  | nil => exact ⟨[], rfl, .nil⟩
  | cons ipDgram rest ih =>
    rw [List.forall_mem_cons] at h
    obtain ⟨result, hfirst, hpeer⟩ := unwrapTcpInIp_of_locked hlocked h.1
    obtain ⟨results, hrest, hpeers⟩ := ih h.2
    exact ⟨result :: results, unwrapAll_cons hfirst hrest, .cons hpeer hpeers⟩

/-- A sequence of datagrams arrives at a listening adapter.  As long as none of them opens a connection
to its port, nothing is returned and the adapter stays as it is.  The first one that does is returned,
and the adapter locks onto it: it stays the same for the rest of the sequence, whatever this is, and
returns only segments between the same addresses and the same ports. -/
theorem locks_onto_first_peer (adapter : TCPOverIPv4Adapter) (hlisten : adapter.listening = true)
    (datagrams : List IPv4Datagram) (h : ∀ ipDgram ∈ datagrams, ipDgram.Contiguous) :
    ((∀ ipDgram ∈ datagrams, ∀ tcpSeg, ¬ Opens adapter.config.source.port ipDgram tcpSeg) →
      adapter.unwrapAll datagrams = .ok (List.replicate datagrams.length none, adapter)) ∧
    ∀ before opening tcpSeg after, datagrams = before ++ opening :: after →
      (∀ ipDgram ∈ before, ∀ tcpSeg, ¬ Opens adapter.config.source.port ipDgram tcpSeg) →
      Opens adapter.config.source.port opening tcpSeg →
      ∃ returned, adapter.unwrapAll datagrams =
          .ok (List.replicate before.length none ++ some tcpSeg :: returned,
            lockedOn opening tcpSeg) ∧
        List.Forall₂ (fun ipDgram result ↦ ∀ later ∈ result, ipDgram.Carries later ∧
            ipDgram.header.src = opening.header.src ∧ ipDgram.header.dst = opening.header.dst ∧
            later.header.sport = tcpSeg.header.sport ∧ later.header.dport = tcpSeg.header.dport)
          after returned := by
  constructor
  · intro hcloses
    have hnothing : adapter.unwrapAll [] = .ok ([], adapter) := rfl
    simpa using unwrapAll_of_not_opens hlisten h hcloses hnothing
  rintro before opening tcpSeg after rfl hcloses hopens
  have hlocked : (lockedOn opening tcpSeg).listening = false := rfl
  obtain ⟨returned, hafter, hpeers⟩ := unwrapAll_of_locked hlocked
    fun ipDgram hmem ↦ h ipDgram (List.mem_append_right _ (List.mem_cons_of_mem _ hmem))
  refine ⟨returned, ?_, ?_⟩
  · apply unwrapAll_of_not_opens hlisten
    · exact fun ipDgram hmem ↦ h ipDgram (List.mem_append_left _ hmem)
    · exact hcloses
    · exact unwrapAll_cons (unwrapTcpInIp_of_opens hlisten hopens) hafter
  refine hpeers.imp fun ipDgram result hpeer later hlater ↦ ?_
  have hfrom := hpeer later hlater
  exact ⟨hfrom.carries, hfrom.src, hfrom.dst, hfrom.sport, hfrom.dport⟩

/-- A datagram of another protocol is ignored, and the adapter locks onto the sender of a SYN. -/
theorem locks_onto_first_peer_after_other_protocol :
    let adapter : TCPOverIPv4Adapter := { config := { source := ⟨0, 80⟩ }, listening := true }
    let payload := Buffer.ofString
      [3, 232, 0, 80, 0, 0, 0, 7, 0, 0, 0, 0, 80, 2, 0, 8, 171, 153, 0, 0]
    let other : IPv4Datagram :=
      { header := { len := 40, src := 3, dst := 2, proto := 17 }, payload := .ofBuffer payload }
    let opening : IPv4Datagram :=
      { header := { len := 40, src := 1, dst := 2 }, payload := .ofBuffer payload }
    let tcpSeg : TCPSegment := {
      header := { sport := 1000, dport := 80, seqno := ⟨7⟩, syn := true, win := 8, cksum := 43929 }
      payload := { startingOffset := 20 } }
    ∃ returned, adapter.unwrapAll [other, opening, other] =
        .ok (none :: some tcpSeg :: returned, lockedOn opening tcpSeg) := by
  intro adapter payload other opening tcpSeg
  have hcloses : ∀ ipDgram ∈ [other], ∀ tcpSeg, ¬ Opens 80 ipDgram tcpSeg := by
    intro ipDgram hmem tcpSeg hopens
    rw [List.mem_singleton.mp hmem] at hopens
    exact absurd hopens.carries.1 (by decide)
  have hopens : Opens 80 opening tcpSeg :=
    ⟨⟨rfl, payload, rfl, by decide +kernel⟩, rfl, rfl, rfl⟩
  have hcontiguous : ∀ ipDgram ∈ [other, opening, other], ipDgram.Contiguous := by
    simp [other, opening, Contiguous]
  obtain ⟨returned, hunwrap, -⟩ := (locks_onto_first_peer adapter rfl [other, opening, other]
    hcontiguous).2 [other] opening tcpSeg [other] rfl hcloses hopens
  exact ⟨returned, hunwrap⟩

end TCPOverIPv4Adapter

end Sponge
