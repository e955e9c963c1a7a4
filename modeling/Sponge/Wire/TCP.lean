import Sponge.TCP.TCPSegment
import Sponge.Wire.IPv4

/-!
# TCP headers and segments on the wire

The parsers and serializers of the TCP header and segment.  `TCPHeader.encoded` says what a list of
bytes means as a header.

The parser of the segment tests the checksum first.  Like the one of the IPv4 datagram, it does not
look at the result of the parser of the header, so a segment with a data offset below 5 is accepted.
-/

namespace Sponge

open BigEndian OnesComplement NetParser

namespace TCPHeader

def length : ℕ := 20

def readFields : Program TCPHeader := do
  let sport ← u16
  let dport ← u16
  let seqno ← u32
  let ackno ← u32
  let doff ← u8
  let flB ← u8
  let win ← u16
  let cksum ← u16
  let uptr ← u16
  return {
    sport, dport
    seqno := ⟨seqno⟩
    ackno := ⟨ackno⟩
    doff := doff >>> 4
    urg := flB &&& 0b00100000 != 0
    ack := flB &&& 0b00010000 != 0
    psh := flB &&& 0b00001000 != 0
    rst := flB &&& 0b00000100 != 0
    syn := flB &&& 0b00000010 != 0
    fin := flB &&& 0b00000001 != 0
    win, cksum, uptr }

/-- The part of `parse` that skips any options or anything extra in the header. -/
def skipOptions (header : TCPHeader) : Program ParseResult := do
  if header.doff < 5 then return .headerTooShort
  removePrefix (Word.sub (header.doff.toNat * 4) length)
  if (← get).hasError then return (← get).error
  return .noError

def parse : Program (ParseResult × TCPHeader) := do
  let header ← readFields
  return (← header.skipOptions, header)

def setCksum (header : TCPHeader) (cksum : UInt16) : TCPHeader := { header with cksum }

/-- The byte with the flags. -/
def flB (header : TCPHeader) : UInt8 :=
  (if header.urg then 0b00100000 else 0) ||| (if header.ack then 0b00010000 else 0) |||
    (if header.psh then 0b00001000 else 0) ||| (if header.rst then 0b00000100 else 0) |||
    (if header.syn then 0b00000010 else 0) ||| (if header.fin then 0b00000001 else 0)

def serialize (header : TCPHeader) : Except StdException (List UInt8) :=
  if header.doff < 5 then .error (.runtimeError "TCP header too short")
  else
    let ret := NetUnparser.u16 [] header.sport
    let ret := NetUnparser.u16 ret header.dport
    let ret := NetUnparser.u32 ret header.seqno.rawValue
    let ret := NetUnparser.u32 ret header.ackno.rawValue
    let ret := NetUnparser.u8 ret (header.doff <<< 4)
    let ret := NetUnparser.u8 ret header.flB
    let ret := NetUnparser.u16 ret header.win
    let ret := NetUnparser.u16 ret header.cksum
    let ret := NetUnparser.u16 ret header.uptr
    .ok (resize ret (4 * header.doff.toNat))

@[simp] theorem doff_setCksum (header : TCPHeader) (cksum : UInt16) :
    (header.setCksum cksum).doff = header.doff := rfl

end TCPHeader

namespace TCPSegment

def parse (segment : TCPSegment) (buffer : Buffer) (datagramLayerChecksum : UInt32) :
    Except StdException (ParseResult × TCPSegment) := do
  let check := (InternetChecksum.new datagramLayerChecksum).add buffer.str
  if check.value ≠ 0 then return (.badChecksum, segment)
  let ((_, header), parser) ← TCPHeader.parse { buffer }
  return (parser.error, { header, payload := parser.buffer })

def serialize (segment : TCPSegment) (datagramLayerChecksum : UInt32) :
    Except StdException BufferList := do
  let headerOut := segment.header.setCksum 0
  let headerZeroChecksum ← headerOut.serialize
  let check := (InternetChecksum.new datagramLayerChecksum).add headerZeroChecksum
  let check := check.add segment.payload.str
  let headerOut := headerOut.setCksum check.value
  let header ← headerOut.serialize
  return (BufferList.append {} (.ofString header)).append (.ofBuffer segment.payload)

end TCPSegment

namespace TCPHeader

/-! ## The layout of the header -/

/-- The header that the bytes encode, field by field. -/
def encoded (bytes : List UInt8) : TCPHeader where
  sport := .ofNat (field bytes 0 2)
  dport := .ofNat (field bytes 2 2)
  seqno := ⟨.ofNat (field bytes 4 4)⟩
  ackno := ⟨.ofNat (field bytes 8 4)⟩
  doff := .ofNat (field bytes 12 1 / 16)
  urg := (field bytes 13 1).testBit 5
  ack := (field bytes 13 1).testBit 4
  psh := (field bytes 13 1).testBit 3
  rst := (field bytes 13 1).testBit 2
  syn := (field bytes 13 1).testBit 1
  fin := (field bytes 13 1).testBit 0
  win := .ofNat (field bytes 14 2)
  cksum := .ofNat (field bytes 16 2)
  uptr := .ofNat (field bytes 18 2)

/-- Reading the fields takes the fixed part of the header. -/
theorem takes_readFields : Takes readFields 20 encoded := by
  refine Takes.of_eq (takes_u16.bind fun _ ↦ takes_u16.bind fun _ ↦ takes_u32.bind fun _ ↦
    takes_u32.bind fun _ ↦ takes_u8.bind fun _ ↦ takes_u8.bind fun _ ↦ takes_u16.bind fun _ ↦
    takes_u16.bind fun _ ↦ takes_u16.bind fun _ ↦ takes_pure _) fun bytes ↦ ?_
  have hflag (bit : ℕ) (h : bit < 8) := ofNat_and_bit_uint8 (field bytes 13 1) bit h
  have hurg : (UInt8.ofNat (field bytes 13 1) &&& 0b00100000 != 0) = _ := hflag 5 (by decide)
  have hack : (UInt8.ofNat (field bytes 13 1) &&& 0b00010000 != 0) = _ := hflag 4 (by decide)
  have hpsh : (UInt8.ofNat (field bytes 13 1) &&& 0b00001000 != 0) = _ := hflag 3 (by decide)
  have hrst : (UInt8.ofNat (field bytes 13 1) &&& 0b00000100 != 0) = _ := hflag 2 (by decide)
  have hsyn : (UInt8.ofNat (field bytes 13 1) &&& 0b00000010 != 0) = _ := hflag 1 (by decide)
  have hfin : (UInt8.ofNat (field bytes 13 1) &&& 0b00000001 != 0) = _ := hflag 0 (by decide)
  simp only [field_drop, Nat.add_zero, Nat.reduceAdd, ofNat_shiftRight_four (field_lt bytes 12 1), hurg,
    hack, hpsh, hrst, hsyn, hfin, encoded]

/-! ## Parsing -/

variable {header : TCPHeader} {buffer : Buffer}

/-- The options are skipped as the offset says. -/
theorem takes_skipOptions (h : 5 ≤ header.doff.toNat) :
    Takes header.skipOptions (4 * header.doff.toNat - 20) fun _ ↦ .noError := by
  have hreport : Takes (do
      if (← get).hasError then return (← get).error
      return .noError : Program ParseResult) 0 fun _ ↦ .noError :=
    ⟨fun buffer _ ↦ ⟨buffer, rfl, rfl⟩, fun _ hshort ↦ absurd hshort (Nat.not_lt_zero _),
      fun _ ↦ ⟨.packetTooShort, rfl⟩⟩
  unfold skipOptions
  rw [if_neg (not_lt_five h), length, sub_fixedPart h]
  exact (takes_removePrefix _).bind fun _ ↦ hreport

theorem skipOptions_of_lt (h : header.doff.toNat < 5) (parser : NetParser) :
    header.skipOptions parser = .ok (.headerTooShort, parser) := by
  unfold skipOptions
  rw [if_pos (UInt8.lt_iff_toNat_lt.mpr h)]
  rfl

theorem parse_of_ok {parser middle after : NetParser} {result : ParseResult}
    (hfields : readFields parser = .ok (header, middle))
    (hskip : header.skipOptions middle = .ok (result, after)) :
    parse parser = .ok ((result, header), after) := by
  unfold parse
  rw [bind_of_ok hfields, bind_of_ok hskip]
  rfl

theorem parse_of_lt (h : buffer.size < 20) :
    ∃ result rest, parse { buffer } = .ok (result, ⟨rest, .packetTooShort⟩) := by
  obtain ⟨header, rest, hfields⟩ := takes_readFields.short buffer h
  -- Nothing is known about the data offset that was read, but the error stays in both cases.
  by_cases hdoff : 5 ≤ header.doff.toNat
  · obtain ⟨result, hskip⟩ := (takes_skipOptions hdoff).stuck rest
    exact ⟨_, rest, parse_of_ok hfields hskip⟩
  · exact ⟨_, rest, parse_of_ok hfields (skipOptions_of_lt (not_le.mp hdoff) _)⟩

/-- With a data offset of at least 5, the parser takes the whole header or sets its error. -/
theorem parse_of_le (h : 20 ≤ buffer.size) (hdoff : 5 ≤ (encoded buffer.str).doff.toNat) :
    ∃ result rest, parse { buffer } = .ok ((result, encoded buffer.str),
        ⟨rest, if 4 * (encoded buffer.str).doff.toNat ≤ buffer.size then .noError
          else .packetTooShort⟩) ∧
      (4 * (encoded buffer.str).doff.toNat ≤ buffer.size →
        rest.str = buffer.str.drop (4 * (encoded buffer.str).doff.toNat)) := by
  obtain ⟨middle, hfields, hmiddle⟩ := takes_readFields.enough buffer h
  have hsize : middle.size = buffer.size - 20 := by
    rw [Buffer.size, hmiddle, List.length_drop]
    rfl
  have htakes := takes_skipOptions hdoff
  split_ifs with hfits
  · obtain ⟨rest, hskip, hrest⟩ := htakes.enough middle (by omega)
    refine ⟨_, rest, parse_of_ok hfields hskip, fun _ ↦ ?_⟩
    rw [hrest, hmiddle, drop_fixedPart hdoff]
  · obtain ⟨result, rest, hskip⟩ := htakes.short middle (by omega)
    exact ⟨result, rest, parse_of_ok hfields hskip, fun hle ↦ absurd hle hfits⟩

end TCPHeader

namespace TCPSegment

open TCPHeader

/-- A well-formed segment, with the given initial sum of its checksum. -/
def WellFormed (initial : ℕ) (bytes : List UInt8) : Prop :=
  checksum initial bytes = 0 ∧ 20 ≤ bytes.length ∧ 5 ≤ (encoded bytes).doff.toNat ∧
    4 * (encoded bytes).doff.toNat ≤ bytes.length

instance (initial : ℕ) (bytes : List UInt8) : Decidable (WellFormed initial bytes) :=
  inferInstanceAs (Decidable (_ ∧ _))

theorem parse_of_checksum_eq_zero {segment : TCPSegment} {buffer : Buffer} {initial : UInt32}
    {result : ParseResult} {header : TCPHeader} {parser : NetParser}
    (hzero : ((InternetChecksum.new initial).add buffer.str).value = 0)
    (hparse : TCPHeader.parse { buffer } = .ok ((result, header), parser)) :
    segment.parse buffer initial = .ok (parser.error, { header, payload := parser.buffer }) := by
  unfold parse
  rw [if_neg (not_not.mpr hzero), hparse]
  rfl

/-- A segment with a wrong checksum is refused and left as it was. -/
theorem parse_of_checksum_ne_zero (segment : TCPSegment) {buffer : Buffer} {initial : UInt32}
    (hsum : initial.toNat + wordSum buffer.str < 2 ^ 32)
    (hwrong : checksum initial.toNat buffer.str ≠ 0) :
    segment.parse buffer initial = .ok (.badChecksum, segment) := by
  unfold parse
  rw [if_pos (mt (InternetChecksum.value_add_eq_zero_iff hsum).mp hwrong)]
  rfl

/-- What `parse` does if the checksum does not overflow and the data offset is at least 5. -/
theorem parse_spec (segment : TCPSegment) {buffer : Buffer} {initial : UInt32}
    (hsum : initial.toNat + wordSum buffer.str < 2 ^ 32)
    (hdoff : checksum initial.toNat buffer.str = 0 → 20 ≤ buffer.size →
      5 ≤ (encoded buffer.str).doff.toNat) :
    ∃ result parsed, segment.parse buffer initial = .ok (result, parsed) ∧
      (result = .noError ↔ WellFormed initial.toNat buffer.str) ∧
      (result = .noError → parsed.header = encoded buffer.str ∧
        parsed.payload.str = buffer.str.drop (4 * (encoded buffer.str).doff.toNat)) := by
  have hvalue := InternetChecksum.value_add_eq_zero_iff hsum
  by_cases hzero : checksum initial.toNat buffer.str = 0
  · by_cases hlong : 20 ≤ buffer.size
    · obtain ⟨_, rest, hparse, hrest⟩ := parse_of_le hlong (hdoff hzero hlong)
      refine ⟨_, _, parse_of_checksum_eq_zero (hvalue.mpr hzero) hparse, ?_, fun hok ↦ ⟨rfl, ?_⟩⟩
      · dsimp only
        split_ifs with hfits
        · exact iff_of_true rfl ⟨hzero, hlong, hdoff hzero hlong, hfits⟩
        · exact iff_of_false nofun fun hwell ↦ hfits hwell.2.2.2
      · dsimp only at hok
        split_ifs at hok with hfits
        exact hrest hfits
    · obtain ⟨⟨_, _⟩, rest, hparse⟩ := parse_of_lt (not_le.mp hlong)
      refine ⟨_, _, parse_of_checksum_eq_zero (hvalue.mpr hzero) hparse, ?_, nofun⟩
      exact iff_of_false nofun fun hwell ↦ hlong hwell.2.1
  · exact ⟨.badChecksum, segment, parse_of_checksum_ne_zero segment hsum hzero,
      iff_of_false nofun fun hwell ↦ hzero hwell.1, nofun⟩

/-- With a data offset below 5, a segment with the right checksum is accepted. -/
theorem parse_of_doff_lt (segment : TCPSegment) {buffer : Buffer} {initial : UInt32}
    (hsum : initial.toNat + wordSum buffer.str < 2 ^ 32)
    (hzero : checksum initial.toNat buffer.str = 0) (hlong : 20 ≤ buffer.size)
    (hdoff : (encoded buffer.str).doff.toNat < 5) :
    ∃ parsed, segment.parse buffer initial = .ok (.noError, parsed) := by
  obtain ⟨middle, hfields, -⟩ := takes_readFields.enough buffer hlong
  have hparse := parse_of_ok hfields (skipOptions_of_lt hdoff _)
  have hvalue := (InternetChecksum.value_add_eq_zero_iff hsum).mpr hzero
  exact ⟨_, parse_of_checksum_eq_zero hvalue hparse⟩

/-- The initial sum of a checksum is zero or comes from the header of a datagram. -/
theorem toNat_initial_le {initial : UInt32}
    (h : initial = 0 ∨ ∃ header : IPv4Header, initial = header.pseudoCksum) :
    initial.toNat ≤ 327930 := by
  rcases h with rfl | ⟨header, rfl⟩
  · decide
  · exact header.toNat_pseudoCksum_le

/-- The sum over a segment that fits into a datagram does not overflow. -/
theorem add_wordSum_lt {initial : UInt32} {bytes : List UInt8} (hsize : bytes.length ≤ 65535)
    (hinitial : initial = 0 ∨ ∃ header : IPv4Header, initial = header.pseudoCksum) :
    initial.toNat + wordSum bytes < 2 ^ 32 := by
  have hsum := wordSum_le bytes
  have hsmall := toNat_initial_le hinitial
  omega

/-- When `parse` accepts exactly the well-formed segments and finds what they encode: on every input apart
from segments with the right checksum and a data offset below 5.  The initial sum is zero or comes from
the header of a datagram. -/
theorem accepts_wellFormed_segments_iff (segment : TCPSegment) (buffer : Buffer) (initial : UInt32)
    (hsize : buffer.size ≤ 65535)
    (hinitial : initial = 0 ∨ ∃ header : IPv4Header, initial = header.pseudoCksum) :
    ∃ result parsed, segment.parse buffer initial = .ok (result, parsed) ∧
      ((checksum initial.toNat buffer.str = 0 → 20 ≤ buffer.size →
          5 ≤ (encoded buffer.str).doff.toNat) ↔
        (result = .noError ↔ WellFormed initial.toNat buffer.str) ∧
        (result = .noError → parsed.header = encoded buffer.str ∧
          parsed.payload.str = buffer.str.drop (4 * (encoded buffer.str).doff.toNat))) := by
  have hsum := add_wordSum_lt hsize hinitial
  by_cases hdoff : checksum initial.toNat buffer.str = 0 → 20 ≤ buffer.size →
      5 ≤ (encoded buffer.str).doff.toNat
  · obtain ⟨result, parsed, hparse, haccepts⟩ := parse_spec segment hsum hdoff
    exact ⟨result, parsed, hparse, iff_of_true hdoff haccepts⟩
  · have hlost := hdoff
    simp only [not_forall, not_le] at hlost
    obtain ⟨hzero, hlong, hshort⟩ := hlost
    obtain ⟨parsed, hparse⟩ := parse_of_doff_lt segment hsum hzero hlong hshort
    refine ⟨_, parsed, hparse, iff_of_false hdoff fun haccepts ↦ ?_⟩
    exact absurd (haccepts.1.mp rfl).2.2.1 (not_le.mpr hshort)

/-- An empty segment. -/
theorem accepts_wellFormed_segments_empty :
    let buffer := Buffer.ofString
      [0, 0, 0, 0, 0, 0, 0, 0, 0, 0, 0, 0, 0x50, 0, 0, 0, 0xaf, 0xff, 0, 0]
    WellFormed 0 buffer.str ∧ ∃ parsed, TCPSegment.parse {} buffer 0 = .ok (.noError, parsed) ∧
      parsed.header = encoded buffer.str ∧ parsed.payload.str = [] := by
  intro buffer
  have hwell : WellFormed 0 buffer.str := by decide +kernel
  obtain ⟨result, parsed, hparse, hiff⟩ := accepts_wellFormed_segments_iff {} buffer 0
    (by decide +kernel) (.inl rfl)
  obtain ⟨hresult, hparsed⟩ := hiff.mp fun _ _ ↦ hwell.2.2.1
  obtain ⟨hheader, hpayload⟩ := hparsed (hresult.mpr hwell)
  rw [hresult.mpr hwell] at hparse
  exact ⟨hwell, parsed, hparse, hheader, hpayload.trans (by decide +kernel)⟩

/-- A segment with the data offset zero is accepted, although the parser of the header has noticed
it. -/
theorem short_data_offset_is_accepted :
    let buffer := Buffer.ofString [0, 0, 0, 0, 0, 0, 0, 0, 0, 0, 0, 0, 0, 0, 0, 0, 0xff, 0xff, 0, 0]
    checksum 0 buffer.str = 0 ∧ (encoded buffer.str).doff = 0 ∧ ¬ WellFormed 0 buffer.str ∧
      (TCPHeader.parse { buffer }).map (·.1.1) = .ok .headerTooShort ∧
      (TCPSegment.parse {} buffer 0).map (·.1) = .ok .noError := by
  decide +kernel

end TCPSegment

end Sponge
