import Sponge.Wire.TCP

/-!
# What is serialized is parsed

A header is written field by field, with its checksum at an even position and with zeros up to its
length.  The fields are read back from their places.  The serializers compute the checksum over the
message with a zero in its place, so the message that they produce has the checksum zero and is
well formed.
-/

namespace Sponge

open BigEndian OnesComplement

theorem resize_of_le {string : List UInt8} {size : ℕ} (h : string.length ≤ size) :
    resize string size = string ++ List.replicate (size - string.length) 0 := by
  rw [resize, List.take_of_length_le h]

theorem field_digits_skip {width number offset size : ℕ} {rest : List UInt8} (h : width ≤ offset) :
    field (digits width number ++ rest) offset size = field rest (offset - width) size := by
  rw [field_append_of_le (by rwa [length_digits]), length_digits]

namespace IPv4Header

variable {header : IPv4Header}

def beforeCksum (header : IPv4Header) : List UInt8 :=
  digits 1 header.firstByte.toNat ++ (digits 1 header.tos.toNat ++ (digits 2 header.len.toNat ++
    (digits 2 header.id.toNat ++ (digits 2 header.foVal.toNat ++ (digits 1 header.ttl.toNat ++
      digits 1 header.proto.toNat)))))

/-- The fields after the checksum, and the zeros in the place of options. -/
def afterCksum (header : IPv4Header) : List UInt8 :=
  digits 4 header.src.toNat ++ (digits 4 header.dst.toNat ++
    List.replicate (4 * header.hlen.toNat - 20) 0)

def bytes (header : IPv4Header) : List UInt8 :=
  header.beforeCksum ++ (digits 2 header.cksum.toNat ++ header.afterCksum)

theorem length_bytes (hhlen : 5 ≤ header.hlen.toNat) :
    header.bytes.length = 4 * header.hlen.toNat := by
  simp [bytes, beforeCksum, afterCksum]
  omega

/-- A header of at least 20 bytes is serialized without an exception. -/
theorem serialize_eq (hver : header.ver = 4) (hhlen : 5 ≤ header.hlen.toNat) :
    header.serialize = .ok header.bytes := by
  have hlong : ¬ 4 * header.hlen.toNat < length := by
    unfold length
    omega
  unfold serialize
  rw [if_neg (not_not.mpr hver), if_neg hlong]
  simp only [NetUnparser.u8, NetUnparser.u16, NetUnparser.u32, NetUnparser.unparseInt_eq]
  rw [resize_of_le (by simp; omega)]
  simp [bytes, beforeCksum, afterCksum]

theorem toNat_firstByte (hver : header.ver = 4) (hhlen : header.hlen.toNat ≤ 15) :
    header.firstByte.toNat = 64 + header.hlen.toNat := by
  have hall : ∀ hlen : Fin 16,
      (((4 : UInt8) <<< 4) ||| (UInt8.ofNat hlen &&& 0xf)).toNat = 64 + hlen := by
    decide
  have hcase := hall ⟨header.hlen.toNat, by omega⟩
  rw [UInt8.ofNat_toNat] at hcase
  rw [firstByte, hver, hcase]

theorem toNat_foVal (header : IPv4Header) : header.foVal.toNat =
    2 ^ 13 * (2 * header.df.toNat + header.mf.toNat) + header.offset.toNat % 2 ^ 13 := by
  have hflags : (if header.df then 0x4000 else 0 : UInt16).toNat |||
      (if header.mf then 0x2000 else 0 : UInt16).toNat =
        2 ^ 13 * (2 * header.df.toNat + header.mf.toNat) := by
    cases header.df <;> cases header.mf <;> rfl
  have hoffset : (header.offset &&& 0x1fff).toNat = header.offset.toNat % 2 ^ 13 := by
    rw [UInt16.toNat_and]
    exact Nat.and_two_pow_sub_one_eq_mod _ 13
  rw [foVal, UInt16.toNat_or, UInt16.toNat_or, hflags, hoffset, Nat.two_pow_add_eq_or_of_lt]
  exact Nat.mod_lt _ (Nat.two_pow_pos 13)

theorem foVal_bits (header : IPv4Header) :
    header.foVal.toNat.testBit 14 = header.df ∧ header.foVal.toNat.testBit 13 = header.mf ∧
      header.foVal.toNat % 8192 = header.offset.toNat % 8192 := by
  have hlt := Nat.mod_lt header.offset.toNat (Nat.two_pow_pos 13)
  rw [toNat_foVal, Nat.testBit_eq_decide_div_mod_eq, Nat.testBit_eq_decide_div_mod_eq]
  cases header.df <;> cases header.mf <;> simp <;> omega

/-- The fields of a header are found in its serialization. -/
theorem encoded_bytes (header : IPv4Header) (hver : header.ver = 4) (hhlen : header.hlen.toNat ≤ 15)
    (hoffset : header.offset.toNat < 8192) (rest : List UInt8) :
    encoded (header.bytes ++ rest) = header := by
  have hfirst := toNat_firstByte hver hhlen
  have hhigh : UInt8.ofNat (header.firstByte.toNat / 16) = header.ver := by
    rw [hver, hfirst, show (64 + header.hlen.toNat) / 16 = 4 by omega]
    rfl
  have hlow : UInt8.ofNat (header.firstByte.toNat % 16) = header.hlen := by
    rw [hfirst, show (64 + header.hlen.toNat) % 16 = header.hlen.toNat by omega, UInt8.ofNat_toNat]
  obtain ⟨hdf, hmf, hmod⟩ := header.foVal_bits
  rw [Nat.mod_eq_of_lt hoffset] at hmod
  simp only [encoded, bytes, beforeCksum, afterCksum, List.append_assoc]
  simp [field_digits_skip, hhigh, hlow, hdf, hmf, hmod]

theorem bytes_setCksum (header : IPv4Header) (cksum : UInt16) : (header.setCksum cksum).bytes =
    header.beforeCksum ++ (digits 2 cksum.toNat ++ header.afterCksum) := rfl

theorem wordSum_bytes_lt (hhlen : 5 ≤ header.hlen.toNat) : 0 + wordSum header.bytes < 2 ^ 32 := by
  have hsum := wordSum_le header.bytes
  have hword := header.hlen.toNat_lt
  rw [length_bytes hhlen] at hsum
  omega

/-- The checksum that makes the checksum of the header zero. -/
def computedCksum (header : IPv4Header) : UInt16 := .ofNat (checksum 0 (header.setCksum 0).bytes)

/-- The checksum that is computed makes the sum right. -/
theorem checksum_computedCksum (header : IPv4Header) :
    checksum 0 (header.setCksum header.computedCksum).bytes = 0 := by
  have heven : Even header.beforeCksum.length := ⟨5, by simp [beforeCksum]⟩
  rw [bytes_setCksum, computedCksum, toNat_ofNat_checksum, bytes_setCksum, UInt16.toNat_zero]
  exact checksum_filled 0 heven header.afterCksum

/-- What a header is serialized to is well formed and encodes it. -/
theorem wellFormed_bytes (hver : header.ver = 4) (hhlen : 5 ≤ header.hlen.toNat)
    (hshort : header.hlen.toNat ≤ 15) (hoffset : header.offset.toNat < 8192) {payload : List UInt8}
    (hlen : header.len.toNat = 4 * header.hlen.toNat + payload.length)
    (hzero : checksum 0 header.bytes = 0) :
    WellFormed (header.bytes ++ payload) ∧ encoded (header.bytes ++ payload) = header ∧
      (header.bytes ++ payload).drop (4 * header.hlen.toNat) = payload := by
  have hencoded := encoded_bytes header hver hshort hoffset payload
  have hlength : header.bytes.length = 4 * header.hlen.toNat := length_bytes hhlen
  have htotal : (header.bytes ++ payload).length = header.len.toNat := by
    rw [List.length_append, hlength, hlen]
  refine ⟨⟨by omega, ?_, ?_⟩, hencoded, List.drop_left' hlength⟩
  · rw [hencoded, htotal]
    exact ⟨hver, hhlen, by omega, rfl⟩
  · rw [hencoded, List.take_left' hlength, hzero]

end IPv4Header

namespace IPv4Datagram

open IPv4Header

variable {datagram : IPv4Datagram}

theorem serialize_eq (hver : datagram.header.ver = 4) (hhlen : 5 ≤ datagram.header.hlen.toNat)
    (hfits : datagram.payload.size = datagram.header.payloadLength.toNat) :
    datagram.serialize = .ok ((BufferList.append {} (.ofString
      (datagram.header.setCksum datagram.header.computedCksum).bytes)).append datagram.payload) := by
  have hserialize (cksum : UInt16) := IPv4Header.serialize_eq
    (show (datagram.header.setCksum cksum).ver = 4 from hver) hhlen
  have hvalue : ((InternetChecksum.new 0).add (datagram.header.setCksum 0).bytes).value =
      datagram.header.computedCksum :=
    InternetChecksum.value_add (wordSum_bytes_lt (by exact hhlen))
  unfold serialize
  rw [if_neg (not_not.mpr hfits)]
  -- The header is serialized twice, with a zero checksum and with the computed one.
  change ((datagram.header.setCksum 0).serialize >>= _) = _
  rw [hserialize]
  change ((datagram.header.setCksum
    ((InternetChecksum.new 0).add (datagram.header.setCksum 0).bytes).value).serialize >>= _) = _
  rw [hvalue, hserialize]
  rfl

/-- A datagram with a consistent header is serialized to a well-formed one, from which its fields and
its payload can be read. -/
theorem serialize_wellFormed (datagram : IPv4Datagram) (hver : datagram.header.ver = 4)
    (hhlen : 5 ≤ datagram.header.hlen.toNat) (hshort : datagram.header.hlen.toNat ≤ 15)
    (hoffset : datagram.header.offset.toNat < 8192)
    (hlen : datagram.header.len.toNat = 4 * datagram.header.hlen.toNat + datagram.payload.size) :
    ∃ list, datagram.serialize = .ok list ∧ WellFormed list.concatenate ∧
      encoded list.concatenate = datagram.header.setCksum datagram.header.computedCksum ∧
      list.concatenate.drop (4 * datagram.header.hlen.toNat) = datagram.payload.concatenate := by
  have hfits : datagram.payload.size = datagram.header.payloadLength.toNat := by
    rw [payloadLength_of_le (by omega), hlen, Nat.add_sub_cancel_left]
  have hzero := checksum_computedCksum datagram.header
  refine ⟨_, serialize_eq hver hhlen hfits, ?_⟩
  simp only [BufferList.concatenate_append, BufferList.concatenate_empty,
    BufferList.concatenate_ofString, List.nil_append]
  rw [BufferList.size_eq] at hlen
  rw [← ver_setCksum _ datagram.header.computedCksum] at hver
  rw [← offset_setCksum _ datagram.header.computedCksum] at hoffset
  rw [← len_setCksum _ datagram.header.computedCksum] at hlen
  rw [← hlen_setCksum _ datagram.header.computedCksum] at hhlen hshort hlen ⊢
  -- Only the fields of the filled header matter from here on, not how it was filled.
  generalize datagram.header.setCksum datagram.header.computedCksum = filled at *
  exact wellFormed_bytes hver hhlen hshort hoffset hlen hzero

/-- A datagram with a consistent header goes through serialization and parsing unchanged, apart from
its checksum, which is filled in.  The parser of the header finds no error either, so the checksum that
was filled in is right. -/
theorem datagram_round_trip (datagram : IPv4Datagram) (hver : datagram.header.ver = 4)
    (hhlen : 5 ≤ datagram.header.hlen.toNat) (hshort : datagram.header.hlen.toNat ≤ 15)
    (hoffset : datagram.header.offset.toNat < 2 ^ 13)
    (hlen : datagram.header.len.toNat = 4 * datagram.header.hlen.toNat + datagram.payload.size) :
    ∃ list parsed parser, datagram.serialize = .ok list ∧
      IPv4Datagram.parse {} (.ofString list.concatenate) = .ok (.noError, parsed) ∧
      IPv4Header.parse {} { buffer := .ofString list.concatenate } =
        .ok ((.noError, parsed.header), parser) ∧
      parsed.payload.concatenate = datagram.payload.concatenate ∧
      parsed.header = { datagram.header with cksum := parsed.header.cksum } := by
  obtain ⟨list, hlist, hwell, hencoded, hdrop⟩ :=
    datagram.serialize_wellFormed hver hhlen hshort hoffset hlen
  rw [← Buffer.str_ofString list.concatenate] at hwell hencoded hdrop
  obtain ⟨rest, hparse, hrest⟩ := parse_of_wellFormed {} hwell
  obtain ⟨result, left, hheader, hresult, -⟩ := IPv4Header.parse_of_le {} hwell.1
  rw [hresult.mpr hwell] at hheader
  refine ⟨list, _, _, hlist, hparse, hheader, ?_, ?_⟩
  · rw [hencoded, hlen_setCksum, hdrop] at hrest
    exact hrest
  · change encoded _ = _
    rw [hencoded]
    rfl

/-- A datagram with options, whose payload consists of two buffers. -/
theorem datagram_round_trip_two_buffers :
    let datagram : IPv4Datagram :=
      { header := { hlen := 6, len := 27, offset := 8191, mf := true }
        payload := { buffers := [.ofString [97, 98], .ofString [99]] } }
    ∃ list parsed, datagram.serialize = .ok list ∧
      IPv4Datagram.parse {} (.ofString list.concatenate) = .ok (.noError, parsed) ∧
      parsed.payload.concatenate = [97, 98, 99] := by
  intro datagram
  obtain ⟨list, parsed, _, hlist, hparse, -, hpayload, -⟩ :=
    datagram.datagram_round_trip rfl (by decide) (by decide) (by decide) (by decide)
  exact ⟨list, parsed, hlist, hparse, hpayload⟩

end IPv4Datagram

namespace TCPHeader

variable {header : TCPHeader}

def beforeCksum (header : TCPHeader) : List UInt8 :=
  digits 2 header.sport.toNat ++ (digits 2 header.dport.toNat ++
    (digits 4 header.seqno.rawValue.toNat ++ (digits 4 header.ackno.rawValue.toNat ++
      (digits 1 (header.doff <<< 4).toNat ++ (digits 1 header.flB.toNat ++
        digits 2 header.win.toNat)))))

/-- The field after the checksum, and the zeros in the place of options. -/
def afterCksum (header : TCPHeader) : List UInt8 :=
  digits 2 header.uptr.toNat ++ List.replicate (4 * header.doff.toNat - 20) 0

def bytes (header : TCPHeader) : List UInt8 :=
  header.beforeCksum ++ (digits 2 header.cksum.toNat ++ header.afterCksum)

theorem length_bytes (hdoff : 5 ≤ header.doff.toNat) :
    header.bytes.length = 4 * header.doff.toNat := by
  simp [bytes, beforeCksum, afterCksum]
  omega

/-- A header of at least 20 bytes is serialized without an exception. -/
theorem serialize_eq (hdoff : 5 ≤ header.doff.toNat) : header.serialize = .ok header.bytes := by
  unfold serialize
  rw [if_neg (not_lt_five hdoff)]
  simp only [NetUnparser.u8, NetUnparser.u16, NetUnparser.u32, NetUnparser.unparseInt_eq]
  rw [resize_of_le (by simp; omega)]
  simp [bytes, beforeCksum, afterCksum]

theorem toNat_doff_shiftLeft (hdoff : header.doff.toNat ≤ 15) :
    (header.doff <<< 4).toNat = 16 * header.doff.toNat := by
  have hall : ∀ doff : Fin 16, (UInt8.ofNat doff <<< 4).toNat = 16 * doff := by decide
  have hcase := hall ⟨header.doff.toNat, by omega⟩
  rwa [UInt8.ofNat_toNat] at hcase

/-- Every flag has its bit. -/
theorem flB_bits (header : TCPHeader) :
    header.flB.toNat.testBit 5 = header.urg ∧ header.flB.toNat.testBit 4 = header.ack ∧
      header.flB.toNat.testBit 3 = header.psh ∧ header.flB.toNat.testBit 2 = header.rst ∧
      header.flB.toNat.testBit 1 = header.syn ∧ header.flB.toNat.testBit 0 = header.fin := by
  unfold flB
  cases header.urg <;> cases header.ack <;> cases header.psh <;> cases header.rst <;>
    cases header.syn <;> cases header.fin <;> decide

/-- The fields of a header are found in its serialization. -/
theorem encoded_bytes (header : TCPHeader) (hdoff : header.doff.toNat ≤ 15) (rest : List UInt8) :
    encoded (header.bytes ++ rest) = header := by
  have hhigh : UInt8.ofNat (16 * header.doff.toNat % 256 / 16) = header.doff := by
    rw [show 16 * header.doff.toNat % 256 / 16 = header.doff.toNat by omega, UInt8.ofNat_toNat]
  obtain ⟨hurg, hack, hpsh, hrst, hsyn, hfin⟩ := header.flB_bits
  simp only [encoded, bytes, beforeCksum, afterCksum, List.append_assoc, toNat_doff_shiftLeft hdoff]
  simp [field_digits_skip, hhigh, hurg, hack, hpsh, hrst, hsyn, hfin]

theorem bytes_setCksum (header : TCPHeader) (cksum : UInt16) : (header.setCksum cksum).bytes =
    header.beforeCksum ++ (digits 2 cksum.toNat ++ header.afterCksum) := rfl

end TCPHeader

namespace TCPSegment

open TCPHeader

variable {segment : TCPSegment} {initial : UInt32}

/-- The checksum of the segment with a zero in the place of its checksum. -/
def computedCksum (segment : TCPSegment) (initial : UInt32) : UInt16 :=
  .ofNat (checksum initial.toNat ((segment.header.setCksum 0).bytes ++ segment.payload.str))

def bytes (segment : TCPSegment) (initial : UInt32) : List UInt8 :=
  (segment.header.setCksum (segment.computedCksum initial)).bytes ++ segment.payload.str

theorem length_bytes (hdoff : 5 ≤ segment.header.doff.toNat) (cksum : UInt16) :
    ((segment.header.setCksum cksum).bytes ++ segment.payload.str).length =
      4 * segment.header.doff.toNat + segment.payload.size := by
  rw [List.length_append, TCPHeader.length_bytes, doff_setCksum, Buffer.size]
  rwa [doff_setCksum]

/-- The sum does not overflow if the largest sum over so many words does not. -/
theorem add_wordSum_bytes_lt (hdoff : 5 ≤ segment.header.doff.toNat)
    (h : initial.toNat + 65535 * ((4 * segment.header.doff.toNat + segment.payload.size + 1) / 2) <
      2 ^ 32) (cksum : UInt16) :
    initial.toNat + wordSum ((segment.header.setCksum cksum).bytes ++ segment.payload.str) <
      2 ^ 32 := by
  have hsum := wordSum_le ((segment.header.setCksum cksum).bytes ++ segment.payload.str)
  rw [length_bytes hdoff] at hsum
  omega

/-- The checksum of what a segment is serialized to is right. -/
theorem checksum_bytes (segment : TCPSegment) (initial : UInt32) :
    checksum initial.toNat (segment.bytes initial) = 0 := by
  have heven : Even segment.header.beforeCksum.length := ⟨8, by simp [beforeCksum]⟩
  rw [bytes, bytes_setCksum, computedCksum, toNat_ofNat_checksum, bytes_setCksum,
    UInt16.toNat_zero]
  simp only [List.append_assoc]
  exact checksum_filled initial.toNat heven (segment.header.afterCksum ++ segment.payload.str)

/-- What a segment is serialized to, if its sum does not overflow. -/
theorem serialize_eq (segment : TCPSegment) (initial : UInt32)
    (hdoff : 5 ≤ segment.header.doff.toNat)
    (h : initial.toNat + 65535 * ((4 * segment.header.doff.toNat + segment.payload.size + 1) / 2) <
      2 ^ 32) :
    ∃ list, segment.serialize initial = .ok list ∧ list.concatenate = segment.bytes initial := by
  have hserialize (cksum : UInt16) : (segment.header.setCksum cksum).serialize =
      .ok (segment.header.setCksum cksum).bytes :=
    TCPHeader.serialize_eq (by rwa [doff_setCksum])
  have hvalue : (((InternetChecksum.new initial).add (segment.header.setCksum 0).bytes).add
      segment.payload.str).value = segment.computedCksum initial := by
    rw [← InternetChecksum.add_append]
    exact InternetChecksum.value_add (add_wordSum_bytes_lt hdoff h 0)
  refine ⟨(BufferList.append {} (.ofString
    (segment.header.setCksum (segment.computedCksum initial)).bytes)).append
      (.ofBuffer segment.payload), ?_, ?_⟩
  · change ((segment.header.setCksum 0).serialize >>= _) = _
    rw [hserialize]
    change ((segment.header.setCksum (((InternetChecksum.new initial).add
      (segment.header.setCksum 0).bytes).add segment.payload.str).value).serialize >>= _) = _
    rw [hvalue, hserialize]
    rfl
  · simp [bytes]

/-- A serialized segment is well formed, and its fields and its payload can be read from it. -/
theorem wellFormed_bytes (hdoff : 5 ≤ segment.header.doff.toNat)
    (hshort : segment.header.doff.toNat ≤ 15) (initial : UInt32) :
    WellFormed initial.toNat (segment.bytes initial) ∧
      encoded (segment.bytes initial) =
        segment.header.setCksum (segment.computedCksum initial) ∧
      (segment.bytes initial).drop (4 * segment.header.doff.toNat) = segment.payload.str := by
  have hencoded : encoded (segment.bytes initial) = _ :=
    encoded_bytes (segment.header.setCksum (segment.computedCksum initial))
      (by rwa [doff_setCksum]) segment.payload.str
  have hlength : (segment.bytes initial).length =
      4 * segment.header.doff.toNat + segment.payload.size := length_bytes hdoff _
  refine ⟨⟨checksum_bytes segment initial, ?_, ?_⟩, hencoded, ?_⟩
  · omega
  · rw [hencoded, doff_setCksum, hlength]
    exact ⟨hdoff, Nat.le_add_right _ _⟩
  · apply List.drop_left'
    rw [TCPHeader.length_bytes, doff_setCksum]
    rwa [doff_setCksum]

/-- What has been serialized is parsed. -/
theorem parse_bytes (segment : TCPSegment) (hdoff : 5 ≤ segment.header.doff.toNat)
    (hshort : segment.header.doff.toNat ≤ 15)
    (h : initial.toNat + 65535 * ((4 * segment.header.doff.toNat + segment.payload.size + 1) / 2) <
      2 ^ 32) (target : TCPSegment) {buffer : Buffer} (hbuffer : buffer.str = segment.bytes initial) :
    ∃ payload, target.parse buffer initial = .ok (.noError,
        { header := segment.header.setCksum (segment.computedCksum initial), payload }) ∧
      payload.str = segment.payload.str := by
  obtain ⟨hwell, hencoded, hdrop⟩ := wellFormed_bytes hdoff hshort initial
  have hsum := add_wordSum_bytes_lt hdoff h (segment.computedCksum initial)
  rw [← bytes, ← hbuffer] at hsum
  rw [← hbuffer] at hwell hencoded hdrop
  obtain ⟨result, parsed, hparse, hresult, hparsed⟩ := parse_spec target hsum fun _ _ ↦ hwell.2.2.1
  obtain ⟨hheader, hpayload⟩ := hparsed (hresult.mpr hwell)
  rw [hencoded] at hheader hpayload
  rw [doff_setCksum, hdrop] at hpayload
  refine ⟨parsed.payload, ?_, hpayload⟩
  rw [hparse, hresult.mpr hwell, ← hheader]

/-- A segment goes through serialization and parsing unchanged, apart from its checksum, which is filled
in.  The condition says that the sum over so many words cannot overflow. -/
theorem segment_round_trip (segment : TCPSegment) (initial : UInt32)
    (hdoff : 5 ≤ segment.header.doff.toNat) (hshort : segment.header.doff.toNat ≤ 15)
    (hsum : initial.toNat +
      65535 * ((4 * segment.header.doff.toNat + segment.payload.size + 1) / 2) < 2 ^ 32)
    (target : TCPSegment) :
    ∃ list parsed, segment.serialize initial = .ok list ∧
      list.concatenate.length = 4 * segment.header.doff.toNat + segment.payload.size ∧
      target.parse (.ofString list.concatenate) initial = .ok (.noError, parsed) ∧
      parsed.payload.str = segment.payload.str ∧
      parsed.header = { segment.header with cksum := segment.computedCksum initial } := by
  obtain ⟨list, hlist, hbytes⟩ := segment.serialize_eq initial hdoff hsum
  obtain ⟨payload, hparse, hpayload⟩ := segment.parse_bytes hdoff hshort hsum target
    ((Buffer.str_ofString list.concatenate).trans hbytes)
  refine ⟨list, _, hlist, ?_, hparse, hpayload, rfl⟩
  rw [hbytes]
  exact length_bytes hdoff _

/-- A segment with options, an odd number of bytes and a large initial sum. -/
theorem segment_round_trip_odd :
    let segment : TCPSegment :=
      { header := { doff := 6, seqno := ⟨7⟩, urg := true, psh := true }
        payload := .ofString [97, 98, 99] }
    ∃ list parsed, segment.serialize 4000000000 = .ok list ∧ list.concatenate.length = 27 ∧
      TCPSegment.parse {} (.ofString list.concatenate) 4000000000 = .ok (.noError, parsed) ∧
      parsed.payload.str = [97, 98, 99] := by
  intro segment
  obtain ⟨list, parsed, hlist, hlength, hparse, hpayload, -⟩ :=
    segment.segment_round_trip 4000000000 (by decide) (by decide) (by decide) {}
  exact ⟨list, parsed, hlist, hlength, hparse, hpayload⟩

end TCPSegment

end Sponge
