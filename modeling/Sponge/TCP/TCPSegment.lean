import Sponge.TCP.WrappingIntegers
import Sponge.Util.Buffer

/-!
# TCP segments and the configuration

The header has all the fields of `TCPHeader` with their default values.  Sequence space is what a
segment occupies of the numbering of its sender: one number per payload byte, and one each for SYN
and FIN.
-/

namespace Sponge

structure TCPHeader where
  sport : UInt16 := 0
  dport : UInt16 := 0
  seqno : WrappingInt32 := ⟨0⟩
  ackno : WrappingInt32 := ⟨0⟩
  /-- Data offset in 32-bit words; `TCPHeader::LENGTH / 4`. -/
  doff : UInt8 := 5
  urg : Bool := false
  ack : Bool := false
  psh : Bool := false
  rst : Bool := false
  syn : Bool := false
  fin : Bool := false
  win : UInt16 := 0
  cksum : UInt16 := 0
  uptr : UInt16 := 0
  deriving DecidableEq, Repr

structure TCPSegment where
  header : TCPHeader := {}
  payload : Buffer := {}
  deriving DecidableEq, Repr

def TCPSegment.lengthInSequenceSpace (segment : TCPSegment) : ℕ :=
  segment.payload.str.length + (if segment.header.syn then 1 else 0) +
    (if segment.header.fin then 1 else 0)

/-- SYN and FIN occupy one number each. -/
theorem TCPSegment.lengthInSequenceSpace_eq (segment : TCPSegment) :
    segment.lengthInSequenceSpace =
      segment.payload.size + segment.header.syn.toNat + segment.header.fin.toNat := by
  unfold lengthInSequenceSpace Buffer.size
  cases segment.header.syn <;> cases segment.header.fin <;> rfl

/-- A segment that occupies no sequence numbers has no flag of its own and no payload. -/
theorem TCPSegment.flags_of_length_eq_zero {segment : TCPSegment}
    (h : segment.lengthInSequenceSpace = 0) :
    segment.header.syn = false ∧ segment.header.fin = false ∧ segment.payload.size = 0 := by
  rw [lengthInSequenceSpace_eq, Nat.add_eq_zero_iff, Nat.add_eq_zero_iff, Bool.toNat_eq_zero,
    Bool.toNat_eq_zero] at h
  exact ⟨h.1.2, h.2, h.1.1⟩

structure TCPConfig where
  rtTimeout : UInt16 := 1000
  recvCapacity : ℕ := 64000
  sendCapacity : ℕ := 64000
  fixedIsn : Option WrappingInt32 := none
  deriving DecidableEq, Repr

namespace TCPConfig

def maxPayloadSize : ℕ := 1452

def maxRetxAttempts : UInt32 := 8

end TCPConfig

end Sponge
