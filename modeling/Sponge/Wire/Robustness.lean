import Sponge.Util.ParserRuns
import Sponge.Wire.TCP

/-!
# Parsing arbitrary bytes

The parsers of the headers go on after an error of the `NetParser`, and they skip numbers of bytes that
they have read from the data.  They are nevertheless safe for every input: they are built from calls that
check the size of the buffer themselves.  The only bytes that are read without such a check are those of
the IPv4 checksum.  These are looked at only if the header lies inside the buffer.
-/

namespace Sponge

open NetParser

namespace TCPHeader

theorem safe_readFields : Safe readFields :=
  safe_u16.bind fun _ ↦ safe_u16.bind fun _ ↦ safe_u32.bind fun _ ↦ safe_u32.bind fun _ ↦
    safe_u8.bind fun _ ↦ safe_u8.bind fun _ ↦ safe_u16.bind fun _ ↦ safe_u16.bind fun _ ↦
    safe_u16.bind fun _ ↦ safe_pure _

theorem safe_skipOptions (header : TCPHeader) : Safe header.skipOptions :=
  .ite (safe_pure _) <| (safe_removePrefix _).bind fun _ ↦ safe_get.bind fun _ ↦
    .ite (safe_get.bind fun _ ↦ safe_pure _) (safe_pure _)

theorem safe_parse : Safe parse :=
  safe_readFields.bind fun header ↦ header.safe_skipOptions.bind fun _ ↦ safe_pure _

end TCPHeader

namespace IPv4Header

theorem safe_readFields : Safe readFields :=
  safe_u8.bind fun _ ↦ safe_u8.bind fun _ ↦ safe_u16.bind fun _ ↦ safe_u16.bind fun _ ↦
    safe_u16.bind fun _ ↦ safe_u8.bind fun _ ↦ safe_u8.bind fun _ ↦ safe_u16.bind fun _ ↦
    safe_u32.bind fun _ ↦ safe_u32.bind fun _ ↦ safe_pure _

theorem safe_checkFields (header : IPv4Header) (original : Buffer) :
    Safe (header.checkFields original) :=
  .ite (safe_pure _) <| .ite (safe_pure _) <| .ite (safe_pure _) <| .ite (safe_pure _) <|
    (safe_removePrefix _).bind fun _ ↦ safe_get.bind fun _ ↦
    .ite (safe_get.bind fun _ ↦ safe_pure _) (.ite (safe_pure _) (safe_pure _))

theorem safe_parse (header : IPv4Header) : Safe header.parse :=
  safe_get.bind fun parser ↦ .ite (safe_pure _) <| safe_readFields.bind fun fields ↦
    (fields.safe_checkFields parser.buffer).bind fun _ ↦ safe_pure _

theorem checkFields_of_lt {header : IPv4Header} {original : Buffer}
    (h : original.size < 4 * header.hlen.toNat) (parser : NetParser) :
    header.checkFields original parser = .ok (.packetTooShort, parser) := by
  unfold checkFields
  dsimp only
  rw [if_pos h]
  rfl

/-- The checksum is computed, and found right or wrong, only if all bytes that it is computed of are
there. -/
theorem header_inside_of_checksum {header parsed : IPv4Header} {buffer : Buffer} {result : ParseResult}
    {after : NetParser} (hparse : header.parse { buffer } = .ok ((result, parsed), after))
    (hresult : result = .noError ∨ result = .badChecksum) : 4 * parsed.hlen.toNat ≤ buffer.size := by
  by_contra hbeyond
  have hshort : result = .packetTooShort := by
    by_cases hsize : buffer.size < 20
    · rw [parse_of_lt header hsize] at hparse
      cases hparse
      rfl
    · obtain ⟨middle, hfields, -⟩ := takes_readFields.enough buffer (not_lt.mp hsize)
      rw [parse_eq, if_neg hsize, bind_of_ok hfields] at hparse
      obtain ⟨found, left, hcheck, -⟩ := safe_checkFields (encoded buffer.str) buffer ⟨middle, .noError⟩
      rw [bind_of_ok hcheck] at hparse
      cases hparse
      rw [checkFields_of_lt (not_le.mp hbeyond)] at hcheck
      cases hcheck
      rfl
  rw [hshort] at hresult
  simp at hresult

end IPv4Header

/-- The parser of segments never throws.  It refuses the checksum, or the payload is the end of the bytes. -/
theorem TCPSegment.parse_safe (segment : TCPSegment) (buffer : Buffer) (initial : UInt32) :
    ∃ result parsed, segment.parse buffer initial = .ok (result, parsed) ∧
      (result = .badChecksum ∧ parsed = segment ∨ parsed.payload.str <:+ buffer.str) := by
  by_cases hzero : ((InternetChecksum.new initial).add buffer.str).value = 0
  · obtain ⟨⟨_, _⟩, parser, hparse, hsuffix⟩ := TCPHeader.safe_parse { buffer }
    exact ⟨_, _, parse_of_checksum_eq_zero hzero hparse, .inr hsuffix⟩
  · refine ⟨.badChecksum, segment, ?_, .inl ⟨rfl, rfl⟩⟩
    unfold parse
    rw [if_pos hzero]
    rfl

/-- The parser of datagrams never throws, and the payload is the end of the bytes. -/
theorem IPv4Datagram.parse_safe (datagram : IPv4Datagram) (buffer : Buffer) :
    ∃ result parsed, datagram.parse buffer = .ok (result, parsed) ∧
      parsed.payload.concatenate <:+ buffer.str := by
  obtain ⟨⟨_, header⟩, parser, hparse, hsuffix⟩ := datagram.header.safe_parse { buffer }
  unfold parse
  rw [hparse]
  change ∃ result parsed, (if (BufferList.ofBuffer parser.buffer).size ≠ _ then _ else _) = _ ∧ _
  split_ifs
  · exact ⟨_, _, rfl, hsuffix⟩
  · exact ⟨_, _, rfl, hsuffix⟩

/-- No sequence of calls on a parser throws.  While the bytes suffice, the calls return the integers that
the bytes spell, and so recover what was written.  From the first call on that asks for too many bytes,
all calls return zero, consume nothing and leave the error set.  The parsers of segments and datagrams,
which are built from such calls, do not throw either, and read no byte outside of the buffer. -/
theorem parsing_stays_inside_buffer :
    (∀ (buffer : Buffer) (calls : List Call),
      (∃ results after, performAll calls { buffer } = .ok (results, after)) ∧
      (totalWidth calls ≤ buffer.size → ∃ rest : Buffer,
        performAll calls { buffer } = .ok (decodeAll calls buffer.str, ⟨rest, .noError⟩) ∧
          rest.str = buffer.str.drop (totalWidth calls)) ∧
      ∀ before call later, calls = before ++ call :: later → totalWidth before ≤ buffer.size →
        buffer.size < totalWidth before + call.width → ∃ rest : Buffer,
          performAll calls { buffer } =
              .ok (decodeAll before buffer.str ++ List.replicate (later.length + 1) 0,
                ⟨rest, .packetTooShort⟩) ∧
            rest.str = buffer.str.drop (totalWidth before)) ∧
    (∀ (written : List Written) (more : List UInt8) (buffer : Buffer),
      buffer.str = written.foldl Written.unparse [] ++ more → ∃ rest : Buffer,
        performAll (written.map Written.call) { buffer } =
            .ok (written.map Written.number, ⟨rest, .noError⟩) ∧ rest.str = more) ∧
    (∀ (segment : TCPSegment) (buffer : Buffer) (initial : UInt32), ∃ result parsed,
      segment.parse buffer initial = .ok (result, parsed) ∧
        (result = .badChecksum ∧ parsed = segment ∨ parsed.payload.str <:+ buffer.str)) ∧
    (∀ (datagram : IPv4Datagram) (buffer : Buffer), ∃ result parsed,
      datagram.parse buffer = .ok (result, parsed) ∧ parsed.payload.concatenate <:+ buffer.str) ∧
    ∀ (header parsed : IPv4Header) (buffer : Buffer) (result : ParseResult) (after : NetParser),
      header.parse { buffer } = .ok ((result, parsed), after) →
        result = .noError ∨ result = .badChecksum → 4 * parsed.hlen.toNat ≤ buffer.size := by
  refine ⟨fun buffer calls ↦ ⟨?_, performAll_of_le, ?_⟩, fun _ _ _ ↦ performAll_written,
    TCPSegment.parse_safe, IPv4Datagram.parse_safe,
    fun _ _ _ _ _ ↦ IPv4Header.header_inside_of_checksum⟩
  · obtain ⟨results, after, hrun, -⟩ := safe_performAll calls { buffer }
    exact ⟨results, after, hrun⟩
  · rintro before call later rfl
    exact performAll_of_lt

/-- Two bytes are read as an integer, the next call fails, and so does one that asks for a single byte. -/
theorem parsing_stays_inside_buffer_three_bytes :
    ∃ rest : Buffer, performAll [.u16, .u32, .u8] { buffer := .ofString [1, 2, 3] } =
        .ok ([258, 0, 0], ⟨rest, .packetTooShort⟩) ∧ rest.str = [3] :=
  (parsing_stays_inside_buffer.1 (.ofString [1, 2, 3]) [.u16, .u32, .u8]).2.2 [.u16] .u32 [.u8] rfl
    (by decide) (by decide)

end Sponge
