import Sponge.Wire.Serialization

/-!
# Errors in transit

A serialized segment has the checksum zero.  If one of its 16-bit words arrives changed, the parser
refuses the segment, unless the word was turned from zero into `65535` or back, which does not change a
ones' complement sum.  A change of a single bit is always noticed.
-/

namespace Sponge.TCPSegment

open OnesComplement

variable {segment : TCPSegment} {initial : UInt32}

/-- Flipping a bit changes the bytes. -/
theorem flip_ne {bytes : List UInt8} {position bit : ℕ} (hposition : position < bytes.length)
    (hbit : bit < 8) :
    (bytes.modify position fun byte ↦ byte ^^^ (1 <<< UInt8.ofNat bit)) ≠ bytes := by
  have hmask : ∀ bit : Fin 8, (1 : UInt8) <<< UInt8.ofNat bit ≠ 0 := by decide
  intro heq
  have hbyte := congrArg (·[position]?) heq
  rw [List.getElem?_modify_eq, List.getElem?_eq_getElem hposition] at hbyte
  have hsame : bytes[position] ^^^ (1 <<< UInt8.ofNat bit) = bytes[position] := Option.some_inj.mp hbyte
  exact hmask ⟨bit, hbit⟩ ((UInt8.xor_right_inj _).mp (hsame.trans UInt8.xor_zero.symm))

/-- Whatever has the length of a segment that fits into a datagram, but not the checksum zero, is
refused. -/
theorem parse_of_corrupted {corrupted : List UInt8} (target : TCPSegment)
    (hsize : corrupted.length ≤ 65535)
    (hinitial : initial = 0 ∨ ∃ header : IPv4Header, initial = header.pseudoCksum)
    (hwrong : checksum initial.toNat corrupted ≠ 0) :
    target.parse (.ofString corrupted) initial = .ok (.badChecksum, target) :=
  parse_of_checksum_ne_zero target (add_wordSum_lt hsize hinitial) hwrong

/-- A segment that fits into a datagram is serialized, and every change of its bytes that is confined to
one 16-bit word is refused because of the checksum, as long as the word is not turned from zero into
`65535` or back.  In particular, a segment with one wrong bit is refused.  The initial sum is zero or
comes from the header of a datagram. -/
theorem word_errors_are_detected (segment : TCPSegment) (initial : UInt32)
    (hdoff : 5 ≤ segment.header.doff.toNat)
    (hsize : 4 * segment.header.doff.toNat + segment.payload.size ≤ 65535)
    (hinitial : initial = 0 ∨ ∃ header : IPv4Header, initial = header.pseudoCksum)
    (target : TCPSegment) :
    ∃ list, segment.serialize initial = .ok list ∧
      (∀ corrupted word, DifferInWord word list.concatenate corrupted →
        corrupted ≠ list.concatenate →
        ¬ (wordAt list.concatenate word = 0 ∧ wordAt corrupted word = 65535) →
        ¬ (wordAt list.concatenate word = 65535 ∧ wordAt corrupted word = 0) →
        target.parse (.ofString corrupted) initial = .ok (.badChecksum, target)) ∧
      ∀ position < list.concatenate.length, ∀ bit < 8,
        target.parse (.ofString (list.concatenate.modify position
          fun byte ↦ byte ^^^ (1 <<< UInt8.ofNat bit))) initial = .ok (.badChecksum, target) := by
  have hsum : initial.toNat +
      65535 * ((4 * segment.header.doff.toNat + segment.payload.size + 1) / 2) < 2 ^ 32 := by
    have hsmall := toNat_initial_le hinitial
    omega
  obtain ⟨list, hlist, hbytes⟩ := segment.serialize_eq initial hdoff hsum
  have hlength : list.concatenate.length ≤ 65535 := by
    rw [hbytes, bytes, length_bytes hdoff]
    exact hsize
  have hzero : checksum initial.toNat list.concatenate = 0 := by
    rw [hbytes]
    exact checksum_bytes segment initial
  refine ⟨list, hlist, ?_, ?_⟩
  · intro corrupted word hdiffer hne hraised hlowered
    apply parse_of_corrupted target (hdiffer.length.trans_le hlength) hinitial
    exact hdiffer.checksum_ne_zero hne hzero hraised hlowered
  · intro position hposition bit hbit
    apply parse_of_corrupted target ?_ hinitial (checksum_modify_ne_zero ?_ hzero)
    · rw [List.length_modify]
      exact hlength
    · exact flip_ne hposition hbit

/-- One bit of the last byte is wrong, in a segment of 21 bytes. -/
theorem word_errors_are_detected_last_byte :
    let segment : TCPSegment := { header := { seqno := ⟨7⟩ }, payload := .ofString [97] }
    ∃ list, segment.serialize 0 = .ok list ∧ list.concatenate.length = 21 ∧
      TCPSegment.parse {} (.ofString (list.concatenate.modify 20
        fun byte ↦ byte ^^^ (1 <<< UInt8.ofNat 3))) 0 = .ok (.badChecksum, {}) := by
  intro segment
  have hsize : (segment.serialize 0).map (·.concatenate.length) = .ok 21 := by decide +kernel
  obtain ⟨list, hlist, -, hflip⟩ :=
    segment.word_errors_are_detected 0 (by decide) (by decide) (.inl rfl) {}
  rw [hlist] at hsize
  have hlength : list.concatenate.length = 21 := Except.ok.inj hsize
  exact ⟨list, hlist, hlength, hflip 20 (by omega) 3 (by decide)⟩

end Sponge.TCPSegment
