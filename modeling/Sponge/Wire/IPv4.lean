import Sponge.Library.Word
import Sponge.Util.InternetChecksum
import Sponge.Util.Parser

/-!
# IPv4 headers and datagrams

The header and the datagram with their parsers and serializers.  `IPv4Header.encoded` says what a list
of bytes means as a header, following the layout of the format.

The parser of the header reports some errors by its result only and not through the error of the
`NetParser`.  The parser of the datagram does not look at this result.  A datagram with a bad checksum
is therefore accepted, and so is a malformed one whose length field happens to fit.
-/

namespace Sponge

open BigEndian OnesComplement NetParser

/-- `std::string::resize`. -/
def resize (string : List UInt8) (size : ℕ) : List UInt8 :=
  string.take size ++ List.replicate (size - string.length) 0

/-! ### Lengths in words

Both headers give their length in 32-bit words and have a fixed part of five words. -/

section

variable {number : UInt8} (h : 5 ≤ number.toNat)

include h

theorem not_lt_five : ¬ number < 5 := UInt8.not_lt.mpr (UInt8.le_iff_toNat_le.mpr h)

theorem sub_fixedPart : Word.sub (number.toNat * 4) 20 = 4 * number.toNat - 20 := by
  rw [Nat.mul_comm, Word.sub_of_le (by omega)]

theorem drop_fixedPart (bytes : List UInt8) :
    (bytes.drop 20).drop (4 * number.toNat - 20) = bytes.drop (4 * number.toNat) := by
  rw [List.drop_drop]
  congr 1
  omega

end

structure IPv4Header where
  ver : UInt8 := 4
  /-- Header length in 32-bit words; `IPv4Header::LENGTH / 4`. -/
  hlen : UInt8 := 5
  tos : UInt8 := 0
  len : UInt16 := 0
  id : UInt16 := 0
  df : Bool := true
  mf : Bool := false
  offset : UInt16 := 0
  /-- `IPv4Header::DEFAULT_TTL`. -/
  ttl : UInt8 := 128
  /-- `IPv4Header::PROTO_TCP`. -/
  proto : UInt8 := 6
  cksum : UInt16 := 0
  src : UInt32 := 0
  dst : UInt32 := 0
  deriving DecidableEq, Repr

namespace IPv4Header

def length : ℕ := 20

def protoTcp : UInt8 := 6

/-- The part of `parse` that reads the fields. -/
def readFields : Program IPv4Header := do
  let firstByte ← u8
  let tos ← u8
  let len ← u16
  let id ← u16
  let foVal ← u16
  let ttl ← u8
  let proto ← u8
  let cksum ← u16
  let src ← u32
  let dst ← u32
  return {
    ver := firstByte >>> 4
    hlen := firstByte &&& 0xf
    tos, len, id
    df := foVal &&& 0x4000 != 0
    mf := foVal &&& 0x2000 != 0
    offset := foVal &&& 0x1fff
    ttl, proto, cksum, src, dst }

/-- The part of `parse` that checks the fields. -/
def checkFields (header : IPv4Header) (original : Buffer) : Program ParseResult := do
  let dataSize := original.size
  if dataSize < 4 * header.hlen.toNat then return .packetTooShort
  if header.ver ≠ 4 then return .wrongIPVersion
  if header.hlen < 5 then return .headerTooShort
  if dataSize ≠ header.len.toNat then return .truncatedPacket
  removePrefix (Word.sub (header.hlen.toNat * 4) length)
  if (← get).hasError then return (← get).error
  let check := (InternetChecksum.new 0).add (original.str.take (4 * header.hlen.toNat))
  if check.value ≠ 0 then return .badChecksum
  return .noError

def parse (header : IPv4Header) : Program (ParseResult × IPv4Header) := do
  let original := (← get).buffer
  if original.size < length then return (.packetTooShort, header)
  let header ← readFields
  return (← header.checkFields original, header)

def setCksum (header : IPv4Header) (cksum : UInt16) : IPv4Header := { header with cksum }

def firstByte (header : IPv4Header) : UInt8 := (header.ver <<< 4) ||| (header.hlen &&& 0xf)

/-- The flags and the fragment offset, `fo_val`. -/
def foVal (header : IPv4Header) : UInt16 :=
  (if header.df then 0x4000 else 0) ||| (if header.mf then 0x2000 else 0) ||| (header.offset &&& 0x1fff)

def serialize (header : IPv4Header) : Except StdException (List UInt8) :=
  if header.ver ≠ 4 then .error (.runtimeError "wrong IP version")
  else if 4 * header.hlen.toNat < length then .error (.runtimeError "IP header too short")
  else
    let ret := NetUnparser.u8 [] header.firstByte
    let ret := NetUnparser.u8 ret header.tos
    let ret := NetUnparser.u16 ret header.len
    let ret := NetUnparser.u16 ret header.id
    let ret := NetUnparser.u16 ret header.foVal
    let ret := NetUnparser.u8 ret header.ttl
    let ret := NetUnparser.u8 ret header.proto
    let ret := NetUnparser.u16 ret header.cksum
    let ret := NetUnparser.u32 ret header.src
    let ret := NetUnparser.u32 ret header.dst
    .ok (resize ret (4 * header.hlen.toNat))

def payloadLength (header : IPv4Header) : UInt16 := header.len - 4 * header.hlen.toUInt16

/-- The pseudo-header's contribution to the TCP checksum. -/
def pseudoCksum (header : IPv4Header) : UInt32 :=
  let pcksum := (header.src >>> 16) + (header.src &&& 0xffff)
  let pcksum := pcksum + ((header.dst >>> 16) + (header.dst &&& 0xffff))
  let pcksum := pcksum + header.proto.toUInt32
  pcksum + header.payloadLength.toUInt32

section

variable (header : IPv4Header) (cksum : UInt16)

@[simp] theorem ver_setCksum : (header.setCksum cksum).ver = header.ver := rfl

@[simp] theorem hlen_setCksum : (header.setCksum cksum).hlen = header.hlen := rfl

@[simp] theorem len_setCksum : (header.setCksum cksum).len = header.len := rfl

@[simp] theorem offset_setCksum : (header.setCksum cksum).offset = header.offset := rfl

end

end IPv4Header

structure IPv4Datagram where
  header : IPv4Header := {}
  payload : BufferList := {}
  deriving DecidableEq, Repr

namespace IPv4Datagram

def parse (datagram : IPv4Datagram) (buffer : Buffer) :
    Except StdException (ParseResult × IPv4Datagram) := do
  let ((_, header), parser) ← datagram.header.parse { buffer }
  let payload := BufferList.ofBuffer parser.buffer
  if payload.size ≠ header.payloadLength.toNat then
    return (.packetTooShort, { header, payload })
  return (parser.error, { header, payload })

def serialize (datagram : IPv4Datagram) : Except StdException BufferList := do
  if datagram.payload.size ≠ datagram.header.payloadLength.toNat then
    throw (.runtimeError "IPv4Datagram::serialize: payload is wrong size")
  let headerOut := datagram.header.setCksum 0
  let headerZeroChecksum ← headerOut.serialize
  let check := (InternetChecksum.new 0).add headerZeroChecksum
  let headerOut := headerOut.setCksum check.value
  let header ← headerOut.serialize
  return (BufferList.append {} (.ofString header)).append datagram.payload

end IPv4Datagram

namespace IPv4Header

/-! ## The layout of the header -/

/-- The header that the bytes encode, field by field. -/
def encoded (bytes : List UInt8) : IPv4Header where
  ver := .ofNat (field bytes 0 1 / 16)
  hlen := .ofNat (field bytes 0 1 % 16)
  tos := .ofNat (field bytes 1 1)
  len := .ofNat (field bytes 2 2)
  id := .ofNat (field bytes 4 2)
  df := (field bytes 6 2).testBit 14
  mf := (field bytes 6 2).testBit 13
  offset := .ofNat (field bytes 6 2 % 8192)
  ttl := .ofNat (field bytes 8 1)
  proto := .ofNat (field bytes 9 1)
  cksum := .ofNat (field bytes 10 2)
  src := .ofNat (field bytes 12 4)
  dst := .ofNat (field bytes 16 4)

/-- Reading the fields takes the fixed part of the header. -/
theorem takes_readFields : Takes readFields 20 encoded := by
  refine Takes.of_eq (takes_u8.bind fun _ ↦ takes_u8.bind fun _ ↦ takes_u16.bind fun _ ↦
    takes_u16.bind fun _ ↦ takes_u16.bind fun _ ↦ takes_u8.bind fun _ ↦ takes_u8.bind fun _ ↦
    takes_u16.bind fun _ ↦ takes_u32.bind fun _ ↦ takes_u32.bind fun _ ↦ takes_pure _) fun bytes ↦ ?_
  have hdf : (UInt16.ofNat (field bytes 6 2) &&& 0x4000 != 0) = (field bytes 6 2).testBit 14 :=
    ofNat_and_bit_uint16 _ 14 (by decide)
  have hmf : (UInt16.ofNat (field bytes 6 2) &&& 0x2000 != 0) = (field bytes 6 2).testBit 13 :=
    ofNat_and_bit_uint16 _ 13 (by decide)
  have hoffset : UInt16.ofNat (field bytes 6 2) &&& 0x1fff = .ofNat (field bytes 6 2 % 8192) :=
    ofNat_and_mask_uint16 _ 13
  simp only [field_drop, Nat.add_zero, Nat.reduceAdd, ofNat_shiftRight_four (field_lt bytes 0 1),
    ofNat_and_fifteen, hdf, hmf, hoffset, encoded]

/-! ## Parsing -/

variable {header : IPv4Header} {buffer original : Buffer} {bytes : List UInt8}

/-- The header fits a datagram of the given size, its checksum apart. -/
def Framed (header : IPv4Header) (size : ℕ) : Prop :=
  header.ver = 4 ∧ 5 ≤ header.hlen.toNat ∧ 4 * header.hlen.toNat ≤ size ∧ header.len.toNat = size

instance (header : IPv4Header) (size : ℕ) : Decidable (header.Framed size) :=
  inferInstanceAs (Decidable (_ ∧ _))

/-- A header is too short to overflow the sum of its checksum. -/
theorem value_header_eq_zero_iff (header : IPv4Header) (bytes : List UInt8) :
    ((InternetChecksum.new 0).add (bytes.take (4 * header.hlen.toNat))).value = 0 ↔
      checksum 0 (bytes.take (4 * header.hlen.toNat)) = 0 := by
  apply InternetChecksum.value_add_eq_zero_iff
  have hsum := wordSum_le (bytes.take (4 * header.hlen.toNat))
  have hlength := List.length_take_le (4 * header.hlen.toNat) bytes
  have hword := header.hlen.toNat_lt
  change 0 + _ < _
  omega

/-- If the frame is right, only the checksum is left to look at. -/
theorem checkFields_of_framed {rest : Buffer} (h : header.Framed original.size)
    (hrest : rest.str = original.str.drop 20) :
    ∃ left, header.checkFields original ⟨rest, .noError⟩ =
        .ok (if checksum 0 (original.str.take (4 * header.hlen.toNat)) = 0 then .noError
          else .badChecksum, ⟨left, .noError⟩) ∧
      left.str = original.str.drop (4 * header.hlen.toNat) := by
  obtain ⟨hver, hhlen, hsize, hlen⟩ := h
  have hleft : 4 * header.hlen.toNat - 20 ≤ rest.size := by
    rw [Buffer.size, hrest, List.length_drop]
    exact Nat.sub_le_sub_right hsize 20
  obtain ⟨left, hremove, hstr⟩ := (takes_removePrefix _).enough rest hleft
  have hvalue := header.value_header_eq_zero_iff original.str
  refine ⟨left, ?_, ?_⟩
  · unfold checkFields
    rw [if_neg (not_lt.mpr hsize), if_neg (not_not.mpr hver), if_neg (not_lt_five hhlen),
      if_neg (not_not.mpr hlen.symm), length, sub_fixedPart hhlen, bind_of_ok hremove]
    -- The header has been skipped without an error; only the checksum is left to test.
    by_cases hzero : checksum 0 (original.str.take (4 * header.hlen.toNat)) = 0
    · rw [if_neg (not_not.mpr (hvalue.mpr hzero)), if_pos hzero]
      rfl
    · rw [if_pos (mt hvalue.mp hzero), if_neg hzero]
      rfl
  · rw [hstr, hrest, drop_fixedPart hhlen]

/-- A header with a wrong frame is refused. -/
theorem checkFields_of_not_framed (h : ¬ header.Framed original.size) (parser : NetParser) :
    ∃ result, header.checkFields original parser = .ok (result, parser) ∧ result ≠ .noError := by
  unfold checkFields
  dsimp only
  split_ifs with hsize hver hhlen hlen
  · exact ⟨_, rfl, nofun⟩
  · exact ⟨_, rfl, nofun⟩
  · exact ⟨_, rfl, nofun⟩
  · exact ⟨_, rfl, nofun⟩
  all_goals
    refine absurd ⟨not_not.mp hver, ?_, not_lt.mp hsize, (not_not.mp hlen).symm⟩ h
    exact UInt8.le_iff_toNat_le.mp (UInt8.not_lt.mp hhlen)

/-- A well-formed datagram. -/
def WellFormed (bytes : List UInt8) : Prop :=
  20 ≤ bytes.length ∧ (encoded bytes).Framed bytes.length ∧
    checksum 0 (bytes.take (4 * (encoded bytes).hlen.toNat)) = 0

instance (bytes : List UInt8) : Decidable (WellFormed bytes) := inferInstanceAs (Decidable (_ ∧ _))

/-- The number of bytes that the parser of the header takes.  It stops after the fixed part if it finds
an error in the fields. -/
def taken (bytes : List UInt8) : ℕ :=
  if (encoded bytes).Framed bytes.length then 4 * (encoded bytes).hlen.toNat else 20

theorem parse_eq (header : IPv4Header) (buffer : Buffer) :
    header.parse { buffer } =
      if buffer.size < 20 then .ok ((.packetTooShort, header), { buffer })
      else (readFields >>= fun fields ↦ do return (← fields.checkFields buffer, fields) : Program _)
        { buffer } := by
  change (if buffer.size < 20 then pure (ParseResult.packetTooShort, header) else _ : Program _) _ = _
  split_ifs
  · rfl
  · rfl

theorem parse_of_lt (header : IPv4Header) (h : buffer.size < 20) :
    header.parse { buffer } = .ok ((.packetTooShort, header), { buffer }) := by
  rw [parse_eq]
  exact if_pos h

/-- The parser of the header leaves no error behind in the `NetParser`, whatever it returns. -/
theorem parse_of_le (header : IPv4Header) (h : 20 ≤ buffer.size) :
    ∃ result rest, header.parse { buffer } =
        .ok ((result, encoded buffer.str), { buffer := rest, error := .noError }) ∧
      (result = .noError ↔ WellFormed buffer.str) ∧ rest.str = buffer.str.drop (taken buffer.str) := by
  obtain ⟨middle, hfields, hmiddle⟩ := takes_readFields.enough buffer h
  have hrun {result : ParseResult} {rest : Buffer}
      (hcheck : (encoded buffer.str).checkFields buffer ⟨middle, .noError⟩ =
        .ok (result, ⟨rest, .noError⟩)) :
      header.parse { buffer } = .ok ((result, encoded buffer.str), ⟨rest, .noError⟩) := by
    rw [parse_eq, if_neg (not_lt.mpr h), bind_of_ok hfields, bind_of_ok hcheck]
    rfl
  unfold WellFormed taken
  by_cases hframed : (encoded buffer.str).Framed buffer.size
  · obtain ⟨rest, hcheck, hrest⟩ := checkFields_of_framed hframed hmiddle
    refine ⟨_, rest, hrun hcheck, ?_, ?_⟩
    · split_ifs with hzero
      · exact iff_of_true rfl ⟨h, hframed, hzero⟩
      · exact iff_of_false nofun fun hwell ↦ hzero hwell.2.2
    · rw [hrest]
      exact congrArg buffer.str.drop (if_pos hframed).symm
  · obtain ⟨result, hcheck, hresult⟩ := checkFields_of_not_framed hframed ⟨middle, .noError⟩
    refine ⟨result, middle, hrun hcheck, ?_, ?_⟩
    · exact iff_of_false hresult fun hwell ↦ hframed hwell.2.1
    · rw [hmiddle]
      exact congrArg buffer.str.drop (if_neg hframed).symm

theorem payloadLength_of_le (h : 4 * header.hlen.toNat ≤ header.len.toNat) :
    header.payloadLength.toNat = header.len.toNat - 4 * header.hlen.toNat := by
  have hword := header.hlen.toNat_lt
  have hmul : (4 * header.hlen.toUInt16).toNat = 4 * header.hlen.toNat := by
    rw [UInt16.toNat_mul, UInt8.toNat_toUInt16]
    change 4 * header.hlen.toNat % 65536 = _
    omega
  rw [payloadLength, UInt16.toNat_sub_of_le _ _ (UInt16.le_iff_toNat_le.mpr (hmul ▸ h)), hmul]

/-- What the pseudo-header contributes is small. -/
theorem toNat_pseudoCksum_le (header : IPv4Header) : header.pseudoCksum.toNat ≤ 327930 := by
  have hadd (left right : UInt32) : (left + right).toNat ≤ left.toNat + right.toNat := by
    rw [UInt32.toNat_add]
    exact Nat.mod_le _ _
  have hhalves (address : UInt32) : ((address >>> 16) + (address &&& 0xffff)).toNat ≤ 131070 := by
    have := address.toNat_lt
    rw [InternetChecksum.toNat_carry]
    omega
  have hproto : header.proto.toUInt32.toNat ≤ 255 := by
    rw [UInt8.toNat_toUInt32]
    exact Nat.le_of_lt_succ header.proto.toNat_lt
  have hlength : header.payloadLength.toUInt32.toNat ≤ 65535 := by
    rw [UInt16.toNat_toUInt32]
    exact Nat.le_of_lt_succ header.payloadLength.toNat_lt
  have haddresses := (hadd _ _).trans (Nat.add_le_add (hhalves header.src) (hhalves header.dst))
  have hwithProto := (hadd _ _).trans (Nat.add_le_add haddresses hproto)
  exact (hadd _ _).trans (Nat.add_le_add hwithProto hlength)

end IPv4Header

namespace IPv4Datagram

open IPv4Header

variable {datagram : IPv4Datagram} {buffer : Buffer}

/-- The parser accepts a datagram of at least 20 bytes if what is left after the header has the length
that the header gives. -/
theorem parse_of_le (h : 20 ≤ buffer.size) :
    ∃ result rest, datagram.parse buffer =
        .ok (result, { header := encoded buffer.str, payload := .ofBuffer rest }) ∧
      rest.str = buffer.str.drop (taken buffer.str) ∧
      (result = .noError ↔
        buffer.size - taken buffer.str = (encoded buffer.str).payloadLength.toNat) := by
  obtain ⟨_, rest, hparse, -, hrest⟩ := IPv4Header.parse_of_le datagram.header h
  have hsize : (BufferList.ofBuffer rest).size = buffer.size - taken buffer.str := by
    rw [BufferList.size_eq, BufferList.concatenate_ofBuffer, hrest, List.length_drop]
    rfl
  unfold parse
  rw [hparse]
  change ∃ result rest', (if (BufferList.ofBuffer rest).size ≠ _ then _ else _) = _ ∧ _
  rw [hsize]
  split_ifs with hfits
  · exact ⟨_, rest, rfl, hrest, iff_of_false nofun hfits⟩
  · exact ⟨_, rest, rfl, hrest, iff_of_true rfl (not_not.mp hfits)⟩

/-- What is left after a framed header has the length that the header gives. -/
theorem fits_of_framed (h : (encoded buffer.str).Framed buffer.size) :
    buffer.size - taken buffer.str = (encoded buffer.str).payloadLength.toNat := by
  have htaken : taken buffer.str = 4 * (encoded buffer.str).hlen.toNat := if_pos h
  obtain ⟨-, -, hfits, hlen⟩ := h
  rw [htaken, payloadLength_of_le (hfits.trans hlen.ge), hlen]

/-- A well-formed datagram is accepted. -/
theorem parse_of_wellFormed (datagram : IPv4Datagram) (h : WellFormed buffer.str) :
    ∃ rest, datagram.parse buffer =
        .ok (.noError, { header := encoded buffer.str, payload := .ofBuffer rest }) ∧
      rest.str = buffer.str.drop (4 * (encoded buffer.str).hlen.toNat) := by
  obtain ⟨result, rest, hparse, hrest, hresult⟩ := parse_of_le h.1
  have htaken : taken buffer.str = 4 * (encoded buffer.str).hlen.toNat := if_pos h.2.1
  rw [hresult.mpr (fits_of_framed h.2.1)] at hparse
  exact ⟨rest, hparse, htaken ▸ hrest⟩

theorem parse_of_lt (h : buffer.size < 20) :
    IPv4Datagram.parse {} buffer = .ok (.packetTooShort, { payload := .ofBuffer buffer }) := by
  have hsize : (BufferList.ofBuffer buffer).size ≠ ({} : IPv4Header).payloadLength.toNat := by
    -- The default header has the length field zero, so its payload length wraps around.
    have hdefault : ({} : IPv4Header).payloadLength.toNat = 65516 := rfl
    rw [hdefault, BufferList.size_eq]
    change buffer.size ≠ _
    omega
  unfold parse
  rw [IPv4Header.parse_of_lt _ h]
  exact if_pos hsize

/-- On which inputs the parser accepts exactly the well-formed datagrams: a header that is framed but has
a wrong checksum is accepted, and so is a header that is not framed if what follows its fixed part has by
accident the length that its fields give for the payload. -/
theorem accepts_iff_of_result {result : ParseResult}
    (hresult : result = .noError ↔
      buffer.size - taken buffer.str = (encoded buffer.str).payloadLength.toNat) :
    (WellFormed buffer.str ∨ ¬ (encoded buffer.str).Framed buffer.size ∧
        (encoded buffer.str).payloadLength.toNat ≠ buffer.size - 20) ↔
      (result = .noError ↔ WellFormed buffer.str) := by
  by_cases hframed : (encoded buffer.str).Framed buffer.size
  · have hok : result = .noError := hresult.mpr (fits_of_framed hframed)
    simp only [hframed, not_true_eq_false, false_and, or_false, hok, true_iff]
  · have hill : ¬ WellFormed buffer.str := fun hwell ↦ hframed hwell.2.1
    have htaken : taken buffer.str = 20 := if_neg hframed
    rw [htaken] at hresult
    simp only [hframed, hill, not_false_eq_true, true_and, false_or, iff_false, hresult]
    exact ne_comm

/-- When `parse` accepts exactly the well-formed datagrams and finds what they encode: on every input
apart from those on which an error in the header gets lost.  An error gets lost if the checksum is wrong
but all else is right, and if the header is malformed but what follows its fixed part has by accident the
length that its fields give for the payload. -/
theorem accepts_wellFormed_datagrams_iff (buffer : Buffer) :
    ∃ result parsed, IPv4Datagram.parse {} buffer = .ok (result, parsed) ∧
      ((20 ≤ buffer.size → WellFormed buffer.str ∨ ¬ (encoded buffer.str).Framed buffer.size ∧
          (encoded buffer.str).payloadLength.toNat ≠ buffer.size - 20) ↔
        (result = .noError ↔ WellFormed buffer.str) ∧
        (result = .noError → parsed.header = encoded buffer.str ∧
          parsed.payload.concatenate = buffer.str.drop (4 * (encoded buffer.str).hlen.toNat))) := by
  by_cases hsize : 20 ≤ buffer.size
  · obtain ⟨result, rest, hparse, hrest, hresult⟩ := parse_of_le hsize
    refine ⟨result, _, hparse, ?_⟩
    rw [forall_prop_of_true hsize, accepts_iff_of_result hresult]
    refine ⟨fun haccepts ↦ ⟨haccepts, fun hok ↦ ⟨rfl, ?_⟩⟩, And.left⟩
    have htaken : taken buffer.str = 4 * (encoded buffer.str).hlen.toNat :=
      if_pos (haccepts.mp hok).2.1
    rw [BufferList.concatenate_ofBuffer, hrest, htaken]
  · refine ⟨_, _, parse_of_lt (not_le.mp hsize), iff_of_true (fun hle ↦ absurd hle hsize) ⟨?_, nofun⟩⟩
    exact iff_of_false nofun fun hwell ↦ hsize hwell.1

/-- A datagram with one byte of payload. -/
theorem accepts_wellFormed_datagrams_one_byte :
    let buffer := Buffer.ofString
      [0x45, 0, 0, 21, 0, 0, 0, 0, 0, 0, 0xba, 0xea, 0, 0, 0, 0, 0, 0, 0, 0, 97]
    WellFormed buffer.str ∧ ∃ parsed, IPv4Datagram.parse {} buffer = .ok (.noError, parsed) ∧
      parsed.header = encoded buffer.str ∧ parsed.payload.concatenate = [97] := by
  intro buffer
  have hwell : WellFormed buffer.str := by decide +kernel
  obtain ⟨result, parsed, hparse, hiff⟩ := accepts_wellFormed_datagrams_iff buffer
  obtain ⟨hresult, hparsed⟩ := hiff.mp fun _ ↦ .inl hwell
  obtain ⟨hheader, hpayload⟩ := hparsed (hresult.mpr hwell)
  rw [hresult.mpr hwell] at hparse
  exact ⟨hwell, parsed, hparse, hheader, hpayload.trans (by decide +kernel)⟩

/-- A header of version 6 with a wrong checksum is accepted, although the parser of the header has
noticed the version. -/
theorem wrong_version_is_accepted :
    let buffer := Buffer.ofString [0x65, 0, 0, 20, 0, 0, 0, 0, 0, 0, 0, 0, 0, 0, 0, 0, 0, 0, 0, 0]
    ¬ WellFormed buffer.str ∧ checksum 0 buffer.str ≠ 0 ∧
      (IPv4Header.parse {} { buffer }).map (·.1.1) = .ok .wrongIPVersion ∧
      (IPv4Datagram.parse {} buffer).map (·.1) = .ok .noError := by
  decide +kernel

end IPv4Datagram

end Sponge
