import Sponge.Wire.FdAdapter
import Sponge.Wire.Listening

/-!
# Segments over a TUN device

`TCPOverIPv4OverTunFdAdapter` wraps segments in IPv4 datagrams and reads and writes these from a TUN
device, which hands over one datagram at a time.
-/

namespace Sponge

/-- An adapter for IPv4 datagrams read from and written to a TUN device. -/
structure TCPOverIPv4OverTunFdAdapter where
  base : TCPOverIPv4Adapter := {}
  tun : FDWrapper := {}
  deriving DecidableEq, Repr

namespace TCPOverIPv4OverTunFdAdapter

/-- The default limit of `FileDescriptor::read`, the largest `size_t`. -/
def noLimit : ℕ := 2 ^ 64 - 1

/-- Attempt to read and parse a datagram with a segment related to the connection. -/
def read (incoming : Kernel.Read) (adapter : TCPOverIPv4OverTunFdAdapter) :
    Except SystemException (Option TCPSegment × TCPOverIPv4OverTunFdAdapter) := do
  let (data, tun) ← adapter.tun.read noLimit incoming
  let adapter := { adapter with tun }
  let (result, ipDgram) ← (IPv4Datagram.parse {} (.ofString data)).mapError .std
  if result ≠ .noError then return (none, adapter)
  let (segment, base) ← (adapter.base.unwrapTcpInIp ipDgram).mapError .std
  return (segment, { adapter with base })

/-- Write a datagram to the device, which takes it as a whole or not at all: `FileDescriptor::write` needs
one iteration. -/
def writeTun (tun : FDWrapper) (list : BufferList) (kernel : Option Errno) :
    Except SystemException FDWrapper := do
  let _ ← FileDescriptor.writeOnce
    (match kernel with
      | none => { returnValue := list.size }
      | some errno => { returnValue := -1, errno := errno })
    { buffer := .ofBufferList list }
  return tun.registerWrite

def datagram (adapter : TCPOverIPv4OverTunFdAdapter) (seg : TCPSegment) :
    Except StdException BufferList := do
  let (ipDgram, _) ← adapter.base.wrapTcpInIp seg
  ipDgram.serialize

/-- Create a datagram from a segment and write it to the device. -/
def write (kernel : Option Errno) (seg : TCPSegment) (adapter : TCPOverIPv4OverTunFdAdapter) :
    Except SystemException (List UInt8 × TCPOverIPv4OverTunFdAdapter) := do
  let list ← (adapter.datagram seg).mapError .std
  let tun ← writeTun adapter.tun list kernel
  return (list.concatenate, { adapter with tun })

instance : FdAdapter TCPOverIPv4OverTunFdAdapter Kernel.Read (List UInt8) where
  fd := tun
  read := read
  write kernel seg adapter := (adapter.write kernel seg).map fun written ↦ (some written.1, written.2)
  setConfig config adapter := { adapter with base := { adapter.base with config } }
  setListening listening adapter := { adapter with base := { adapter.base with listening } }

variable {adapter : TCPOverIPv4OverTunFdAdapter} {seg : TCPSegment}

/-- What is parsed from one string has one buffer as its payload. -/
theorem parse_contiguous (buffer : Buffer) :
    ∃ result ipDgram, IPv4Datagram.parse {} buffer = .ok (result, ipDgram) ∧ ipDgram.Contiguous := by
  by_cases hsize : 20 ≤ buffer.size
  · obtain ⟨result, rest, hparse, -, -⟩ := @IPv4Datagram.parse_of_le {} buffer hsize
    exact ⟨result, _, hparse, rest, rfl⟩
  · exact ⟨_, _, IPv4Datagram.parse_of_lt (not_le.mp hsize), buffer, rfl⟩

/-- Reading fails with the error of `read`, or one reading has been counted. -/
theorem read_cases (incoming : Kernel.Read) (adapter : TCPOverIPv4OverTunFdAdapter) :
    (∃ errno, adapter.read incoming = .error (.unixError "read" errno)) ∨
      ∃ segment after, adapter.read incoming = .ok (segment, after) ∧
        after.tun.readCount = adapter.tun.readCount + 1 := by
  unfold read
  rw [FDWrapper.read_eq]
  cases incoming with
  | fails errno => exact .inl ⟨errno, rfl⟩
  | gives available =>
    dsimp only [bind, Except.bind]
    generalize available.take (min FDWrapper.bufferSize noLimit) = data
    generalize htun : (if noLimit > 0 ∧ data = [] then { adapter.tun with eof := true }
      else adapter.tun).registerRead = tun
    have hcount : tun.readCount = adapter.tun.readCount + 1 := by
      rw [← htun]
      split_ifs <;> rfl
    obtain ⟨result, ipDgram, hparse, hcontiguous⟩ := parse_contiguous (.ofString data)
    rw [hparse]
    dsimp only [Except.mapError]
    by_cases hresult : result ≠ .noError
    · rw [if_pos hresult]
      exact .inr ⟨_, _, rfl, hcount⟩
    · rw [if_neg hresult]
      have hunwrap : ∃ segment base, adapter.base.unwrapTcpInIp ipDgram = .ok (segment, base) := by
        rcases adapter.base.unwrapTcpInIp_cases hcontiguous with hdropped | ⟨tcpSeg, -, -, hrelate⟩
        · exact ⟨_, _, hdropped.1⟩
        · exact ⟨_, _, hrelate⟩
      obtain ⟨segment, base, hunwrap⟩ := hunwrap
      rw [hunwrap]
      exact .inr ⟨_, _, rfl, hcount⟩

/-- A segment of the sender is wrapped without an exception. -/
theorem datagram_eq (h : seg.Sendable) (adapter : TCPOverIPv4OverTunFdAdapter) :
    ∃ list, adapter.datagram seg = .ok list ∧ list.size < 65536 := by
  have hdoff : (adapter.base.setPorts seg).header.doff.toNat = 5 := congrArg UInt8.toNat h.doff
  have hsize : (adapter.base.setPorts seg).payload.size ≤ 1452 := h.size_le
  obtain ⟨payload, list, cksum, hserialize, hlist, -, -, hdrop⟩ :=
    TCPOverIPv4Adapter.serialize_ipHeader adapter.base (adapter.base.setPorts seg) (by omega) (by omega)
  have hwrap : adapter.base.wrapTcpInIp seg = .ok
      (⟨adapter.base.ipHeader (adapter.base.setPorts seg), payload⟩, adapter.base.setPorts seg) := by
    change ((adapter.base.setPorts seg).serialize _ >>= _) = _
    rw [hserialize]
    rfl
  refine ⟨list, ?_, ?_⟩
  · unfold datagram
    rw [hwrap]
    exact hlist
  · have hlength := congrArg List.length hdrop
    rw [List.length_drop, TCPSegment.bytes, TCPSegment.length_bytes (by omega)] at hlength
    rw [BufferList.size_eq]
    omega

theorem writeTun_cases (tun : FDWrapper) {list : BufferList} (hsize : list.size < 65536)
    (kernel : Option Errno) :
    (∃ errno, writeTun tun list kernel = .error (.unixError "writev" errno)) ∨
      writeTun tun list kernel = .ok tun.registerWrite := by
  unfold writeTun
  cases kernel with
  | some errno =>
    refine .inl ⟨errno, ?_⟩
    dsimp only
    unfold FileDescriptor.writeOnce
    rw [systemCall_fails]
    rfl
  | none =>
    have hbytes : (BufferViewList.ofBufferList list).bytes.length = list.size := by
      rw [BufferViewList.bytes_ofBufferList, BufferList.size_eq]
    have hreturn : ({ returnValue := list.size } : Answer).returnValue = (list.size : ℤ) := rfl
    have hpos : (BufferViewList.ofBufferList list).bytes ≠ [] → 0 < list.size := by
      rw [← hbytes]
      exact List.length_pos_iff.mpr
    have hsmall : ({ returnValue := list.size } : Answer).returnValue ≤ intMax := by
      rw [hreturn, intMax]
      omega
    obtain ⟨after, honce, -, -⟩ := @FileDescriptor.writeOnce_of_small _
      { buffer := .ofBufferList list } _ hreturn hbytes.ge hpos hsmall
    refine .inr ?_
    dsimp only
    rw [honce]
    rfl

/-- Writing fails with the error of `writev`, or a datagram has been written. -/
theorem write_cases (h : seg.Sendable) (kernel : Option Errno) (adapter : TCPOverIPv4OverTunFdAdapter) :
    (∃ errno, adapter.write kernel seg = .error (.unixError "writev" errno)) ∨
      ∃ datagram after, adapter.write kernel seg = .ok (datagram, after) := by
  obtain ⟨list, hlist, hsize⟩ := datagram_eq h adapter
  unfold write
  rw [hlist]
  change (∃ errno, (writeTun adapter.tun list kernel >>= _) = _) ∨
    ∃ datagram after, (writeTun adapter.tun list kernel >>= _) = _
  rcases writeTun_cases adapter.tun hsize kernel with ⟨errno, heq⟩ | heq
  · rw [heq]
    exact .inl ⟨errno, rfl⟩
  · rw [heq]
    exact .inr ⟨_, _, rfl⟩

instance : LawfulFdAdapter TCPOverIPv4OverTunFdAdapter where
  read_error := by
    intro incoming adapter exception herror
    rcases read_cases incoming adapter with ⟨errno, heq⟩ | ⟨_, _, heq, -⟩
    · exact ⟨"read", errno, Except.error.inj (herror.symm.trans heq)⟩
    · exact absurd (herror.symm.trans heq) nofun
  readCount_read := by
    intro incoming adapter after segment hok
    rcases read_cases incoming adapter with ⟨errno, heq⟩ | ⟨_, _, heq, hcount⟩
    · exact absurd (hok.symm.trans heq) nofun
    · have hafter : after = _ := congrArg Prod.snd (Except.ok.inj (hok.symm.trans heq))
      rw [hafter]
      exact hcount
  write_error := by
    intro kernel seg adapter exception hsendable herror
    have hmap : (adapter.write kernel seg).map (fun written ↦ (some written.1, written.2)) =
      .error exception := herror
    rcases write_cases hsendable kernel adapter with ⟨errno, heq⟩ | ⟨_, _, heq⟩
    · rw [heq] at hmap
      exact ⟨"writev", errno, (Except.error.inj hmap).symm⟩
    · rw [heq] at hmap
      contradiction

end TCPOverIPv4OverTunFdAdapter

end Sponge
