import Mathlib.Logic.Relation
import Sponge.Library.BigEndian
import Sponge.Library.Word
import Sponge.Util.FileDescriptor

/-!
# The packet dump

`udp_tcpdump` shows the TCP segments inside of captured UDP datagrams.  For each captured packet it skips
the header of the link, the IPv4 or IPv6 header with all extension headers, and the UDP header.  All
lengths on this way come from the packet.

A read outside of the packet and an overflow of an `int` are undefined behaviour; the model stops at them,
as the program stops at a string that is too long.  `Framed` says when there is none of this and the
payload starts inside of the packet.  The program itself does not check it: it reads the fixed fields of an
IPv4 header that is too short for them, and it skips a UDP header that is not completely there.
-/

namespace Sponge.UdpTcpdump

open Relation

/-- What the model stops at: undefined behaviour, the exception `length_error`, or the end of its fuel. -/
inductive Fault where
  | outOfBounds (offset : ℕ)
  | overflow
  | lengthError
  | outOfFuel
  deriving DecidableEq, Repr

/-- `data[offset]`. -/
def byteAt (data : List UInt8) (offset : ℕ) : Except Fault UInt8 :=
  match data[offset]? with
  | some byte => .ok byte
  | none => .error (.outOfBounds offset)

/-- The bytes that a function reads which is given the pointer `data + offset`. -/
def bytesAt (data : List UInt8) (offset count : ℕ) : Except Fault (List UInt8) :=
  if offset + count ≤ data.length then .ok ((data.drop offset).take count)
  else .error (.outOfBounds (max offset data.length))

def addInt (left right : ℕ) : Except Fault ℕ :=
  if ((left + right : ℕ) : ℤ) ≤ intMax then .ok (left + right) else .error .overflow

/-- What `process_ipv4_ipv6` returns and writes to `cerr`.  Of the addresses that it sets, these are the
bytes that `inet_ntop` is given. -/
structure Processed where
  ret : ℤ
  srcAddr : List UInt8 := []
  dstAddr : List UInt8 := []
  cerr : String := ""
  deriving DecidableEq, Repr

def rejected (cerr : String) : Processed := { ret := -1, cerr }

/-- The end of `process_ipv4_ipv6`: skip the UDP header. -/
def skipUDPHeader (dataOffset : ℕ) (srcAddr dstAddr : List UInt8) : Except Fault Processed := do
  let ret ← addInt dataOffset 8
  return { ret, srcAddr, dstAddr }

def processIPv4 (len : ℤ) (data : List UInt8) (first : UInt8) : Except Fault Processed := do
  let dataOffset := (first &&& 0x0f).toNat * 4
  if len < dataOffset then return rejected ""
  let protocol ← byteAt data 9
  if protocol ≠ 0x11 then return rejected "Not UDP; "
  let srcAddr ← bytesAt data 12 4
  let dstAddr ← bytesAt data 16 4
  skipUDPHeader dataOffset srcAddr dstAddr

/-- What comes after the loop over the extension headers. -/
def finishIPv6 (data : List UInt8) (dataOffset : ℕ) : Except Fault Processed := do
  let srcAddr ← bytesAt data 8 16
  let dstAddr ← bytesAt data 24 16
  skipUDPHeader dataOffset srcAddr dstAddr

/-- The loop over the extension headers, and what comes after it. -/
def walkIPv6 (len : ℤ) (data : List UInt8) : ℕ → UInt8 → ℕ → Except Fault Processed
  | 0, _, _ => .error .outOfFuel
  | fuel + 1, nxt, dataOffset =>
      if nxt = 0x11 then finishIPv6 data dataOffset
      else if nxt ≠ 0 ∧ nxt ≠ 43 ∧ nxt ≠ 60 then .ok (rejected "Not UDP or fragmented; ")
      else do
        let next ← byteAt data dataOffset
        let length ← byteAt data (dataOffset + 1)
        let dataOffset ← addInt dataOffset (8 * (1 + length.toNat))
        let edge ← addInt dataOffset 2
        if len < edge then return rejected ""
        walkIPv6 len data fuel next dataOffset

/-- Skip the headers of a packet that is, we hope, either an IPv4 or IPv6 packet. -/
def processIPv4IPv6 (len : ℤ) (data : List UInt8) : Except Fault Processed := do
  if len < 1 then return rejected ""
  let first ← byteAt data 0
  let pt := first &&& 0xf0
  if pt = 0x40 then processIPv4 len data first
  else if pt = 0x60 then
    if len < 42 then return rejected ""
    let nxt ← byteAt data 6
    walkIPv6 len data data.length nxt 40
  else return rejected ""

/-! ## The caller -/

inductive DataLink where
  | raw
  | null
  | en10mb
  | linuxSll
  | linuxSll2
  | other
  deriving DecidableEq, Repr

/-- What becomes of a captured packet: it is skipped with a message, the program gives up, or a payload is
found. -/
inductive Dumped where
  | skipped (cerr : String)
  | gaveUp (cerr : String)
  | payload (srcAddr dstAddr bytes : List UInt8)
  deriving DecidableEq, Repr

/-- Look at the header of the link.  The type of the packet is the number in `ptLen` bytes at `ptOff`. -/
def checkLink (hdrOff ptOff ptLen : ℕ) (accepted : List ℕ) (captured : List UInt8) :
    Except Fault (Dumped ⊕ ℕ) := do
  if captured.length < hdrOff then return .inl (.skipped "[INFO] Skipping malformed packet.\n")
  let pt ← bytesAt captured ptOff ptLen
  if BigEndian.value pt ∉ accepted then return .inl (.skipped "[INFO] Skipping non-IP packet.\n")
  return .inr hdrOff

/-- Figure out where in the packet to look, based on the link type. -/
def linkHeader : DataLink → List UInt8 → Except Fault (Dumped ⊕ ℕ)
  | .raw => fun _ ↦ .ok (.inr 0)
  | .null => checkLink 4 3 1 [2, 24, 28, 30]
  | .en10mb => checkLink 14 12 2 [0x0800, 0x86dd]
  | .linuxSll => checkLink 16 14 2 [0x0800, 0x86dd]
  | .linuxSll2 => checkLink 20 0 2 [0x0800, 0x86dd]
  | .other => fun _ ↦ .ok (.inl (.gaveUp "Mysterious datalink type. Giving up."))

/-- `PTRDIFF_MAX`; no string has more bytes. -/
def maxSize : ℕ := 2 ^ 63 - 1

/-- The string with the bytes of a view, `string(payload)`. -/
def copyView (data : List UInt8) (offset count : ℕ) : Except Fault (List UInt8) :=
  if maxSize < count then .error .lengthError else bytesAt data offset count

/-- The end of the loop of `main`, up to the bytes that are parsed as a TCP segment. -/
def takePayload (hdrOff : ℕ) (captured : List UInt8) (processed : Processed) : Except Fault Dumped := do
  if processed.ret < 0 then
    return .skipped (processed.cerr ++ "Error parsing IPv4/IPv6 packet. Skipping.\n")
  -- The offset is now the start of the UDP payload.
  let payloadOff := hdrOff + processed.ret.toNat
  let payloadLen := Word.sub captured.length payloadOff
  let bytes ← copyView captured payloadOff payloadLen
  return .payload processed.srcAddr processed.dstAddr bytes

/-- The rest of the loop of `main` after the header of the link. -/
def dumpFrom (hdrOff : ℕ) (captured : List UInt8) : Except Fault Dumped := do
  let len := toInt (Word.sub captured.length hdrOff)
  let processed ← processIPv4IPv6 len (captured.drop hdrOff)
  takePayload hdrOff captured processed

/-- The body of the loop of `main`. -/
def dump (link : DataLink) (captured : List UInt8) : Except Fault Dumped := do
  match ← linkHeader link captured with
  | .inl dumped => return dumped
  | .inr hdrOff => dumpFrom hdrOff captured

/-! ## Single reads and sums -/

variable {data captured : List UInt8} {offset count left right : ℕ}

theorem ok_bind {α β : Type} (value : α) (next : α → Except Fault β) :
    (Except.ok value >>= next) = next value := rfl

theorem error_bind {α β : Type} (fault : Fault) (next : α → Except Fault β) :
    (Except.error fault >>= next) = .error fault := rfl

theorem exists_getElem? (h : offset < data.length) : ∃ byte, data[offset]? = some byte :=
  ⟨_, List.getElem?_eq_getElem h⟩

theorem byteAt_of_getElem? {byte : UInt8} (h : data[offset]? = some byte) :
    byteAt data offset = .ok byte := by
  rw [byteAt, h]

theorem byteAt_of_le (h : data.length ≤ offset) : byteAt data offset = .error (.outOfBounds offset) := by
  rw [byteAt, List.getElem?_eq_none h]

theorem bytesAt_of_le (h : offset + count ≤ data.length) :
    bytesAt data offset count = .ok ((data.drop offset).take count) :=
  if_pos h

theorem bytesAt_of_lt (h : data.length < offset + count) :
    bytesAt data offset count = .error (.outOfBounds (max offset data.length)) :=
  if_neg (Nat.not_le.mpr h)

theorem addInt_of_le (h : ((left + right : ℕ) : ℤ) ≤ intMax) : addInt left right = .ok (left + right) :=
  if_pos h

theorem addInt_of_lt (h : intMax < ((left + right : ℕ) : ℤ)) : addInt left right = .error .overflow :=
  if_neg (not_le.mpr h)

/-! ## Staying inside -/

/-- The function returns, and what it returns is at most the number of bytes. -/
def Inside (bytes : ℕ) (result : Except Fault Processed) : Prop :=
  ∃ processed, result = .ok processed ∧ (0 ≤ processed.ret → processed.ret ≤ bytes)

theorem inside_ok_iff {bytes : ℕ} {processed : Processed} :
    Inside bytes (.ok processed) ↔ (0 ≤ processed.ret → processed.ret ≤ bytes) := by
  refine ⟨?_, fun h ↦ ⟨processed, rfl, h⟩⟩
  rintro ⟨other, heq, h⟩
  exact Except.ok.inj heq ▸ h

theorem not_inside_error (bytes : ℕ) (fault : Fault) : ¬ Inside bytes (.error fault) := by
  rintro ⟨_, h, -⟩
  contradiction

/-- The model does not run out of fuel, and it stays inside exactly under a condition. -/
structure Settles (bytes : ℕ) (result : Except Fault Processed) (condition : Prop) : Prop where
  ends : result ≠ .error .outOfFuel
  iff : Inside bytes result ↔ condition

theorem settles_rejected {bytes : ℕ} {cerr : String} {condition : Prop} (h : condition) :
    Settles bytes (.ok (rejected cerr)) condition where
  ends := nofun
  iff := by
    rw [inside_ok_iff]
    exact iff_of_true (fun hret ↦ absurd hret (by decide : ¬ (0 : ℤ) ≤ -1)) h

theorem settles_error {bytes : ℕ} {fault : Fault} {condition : Prop} (hfault : fault ≠ .outOfFuel)
    (h : ¬ condition) : Settles bytes (.error fault) condition where
  ends hsame := hfault (Except.error.inj hsame)
  iff := iff_of_false (not_inside_error bytes fault) h

/-- Skipping the UDP header stays inside exactly if the header is there. -/
theorem settles_skipUDPHeader {bytes : ℕ} (h : (bytes : ℤ) ≤ intMax) (srcAddr dstAddr : List UInt8) :
    Settles bytes (skipUDPHeader offset srcAddr dstAddr) (offset + 8 ≤ bytes) := by
  unfold skipUDPHeader
  by_cases hfits : ((offset + 8 : ℕ) : ℤ) ≤ intMax
  · rw [addInt_of_le hfits, ok_bind]
    refine ⟨nofun, inside_ok_iff.trans ?_⟩
    exact (imp_iff_right (Int.natCast_nonneg _)).trans Int.ofNat_le
  · rw [addInt_of_lt (not_le.mp hfits), error_bind]
    exact settles_error nofun fun hle ↦ hfits ((Int.ofNat_le.mpr hle).trans h)

/-! ## IPv4 -/

/-- If the packet has as many bytes as the IPv4 header says, then the protocol is there; and if this is
UDP, then the addresses and the UDP header are there as well. -/
def FramedIPv4 (data : List UInt8) (first : UInt8) : Prop :=
  (first &&& 0x0f).toNat * 4 ≤ data.length → 10 ≤ data.length ∧
    (data[9]? = some 0x11 → 20 ≤ data.length ∧ (first &&& 0x0f).toNat * 4 + 8 ≤ data.length)

/-- The branch for IPv4 stays inside exactly if the packet is framed. -/
theorem settles_processIPv4 (h : (data.length : ℤ) ≤ intMax) (first : UInt8) :
    Settles data.length (processIPv4 data.length data first) (FramedIPv4 data first) := by
  unfold processIPv4 FramedIPv4
  generalize (first &&& 0x0f).toNat * 4 = dataOffset
  dsimp only
  by_cases hheader : dataOffset ≤ data.length
  · rw [if_neg (not_lt.mpr (Int.ofNat_le.mpr hheader)), imp_iff_right hheader]
    by_cases hshort : data.length ≤ 9
    · rw [byteAt_of_le hshort, error_bind]
      exact settles_error nofun fun hlong ↦ absurd hlong.1 (by omega)
    · obtain ⟨protocol, hprotocol⟩ := exists_getElem? (not_le.mp hshort)
      rw [byteAt_of_getElem? hprotocol, hprotocol, and_iff_right (by omega), ok_bind]
      split_ifs with hother
      · exact settles_rejected fun hudp ↦ absurd (Option.some.inj hudp) hother
      · rw [not_not.mp hother, imp_iff_right rfl]
        by_cases haddresses : 20 ≤ data.length
        · rw [bytesAt_of_le (by omega), bytesAt_of_le (by omega), and_iff_right haddresses, ok_bind,
            ok_bind]
          exact settles_skipUDPHeader h _ _
        · have hnot (hlong : 20 ≤ data.length ∧ dataOffset + 8 ≤ data.length) : False :=
            haddresses hlong.1
          by_cases hsource : 16 ≤ data.length
          · rw [bytesAt_of_le (by omega), bytesAt_of_lt (by omega), ok_bind, error_bind]
            exact settles_error nofun hnot
          · rw [bytesAt_of_lt (by omega), error_bind]
            exact settles_error nofun hnot
  · rw [if_pos (Int.ofNat_lt.mpr (not_le.mp hheader))]
    exact settles_rejected fun hle ↦ absurd hle hheader

/-! ## IPv6 -/

structure Header where
  nxt : UInt8
  offset : ℕ
  deriving DecidableEq, Repr

def IsExtension (nxt : UInt8) : Prop := nxt = 0 ∨ nxt = 43 ∨ nxt = 60

theorem not_isExtension_udp : ¬ IsExtension 0x11 := by
  unfold IsExtension
  decide

/-- The extension header starts inside of the packet with the type of the next header and its own
length. -/
inductive Follows (data : List UInt8) : Header → Header → Prop
  | intro {nxt next length : UInt8} {offset : ℕ} (hextension : IsExtension nxt)
      (hnext : data[offset]? = some next) (hlength : data[offset + 1]? = some length) :
      Follows data ⟨nxt, offset⟩ ⟨next, offset + 8 * (1 + length.toNat)⟩

/-- The end of the first two bytes of the header is an `int`.  If the header is of type UDP and these two
bytes are in the packet, then the whole UDP header is. -/
structure Header.Fits (data : List UInt8) (header : Header) : Prop where
  int : ((header.offset + 2 : ℕ) : ℤ) ≤ intMax
  udp : header.nxt = 0x11 → header.offset + 2 ≤ data.length → header.offset + 8 ≤ data.length

/-- Every header that the extension headers lead to fits. -/
def FramedIPv6 (data : List UInt8) (start : Header) : Prop :=
  ∀ header, ReflTransGen (Follows data) start header → header.Fits data

/-- A header that no other one follows is the last to be looked at. -/
theorem framedIPv6_of_forall_not {start : Header} (hlast : ∀ next, ¬ Follows data start next) :
    FramedIPv6 data start ↔ start.Fits data := by
  refine ⟨fun h ↦ h start .refl, fun hfits header hreached ↦ ?_⟩
  cases hreached.cases_head with
  | inl heq => exact heq ▸ hfits
  | inr hnext =>
    obtain ⟨next, hfollows, -⟩ := hnext
    exact absurd hfollows (hlast next)

/-- Going on to the next extension header does not change what has to fit. -/
theorem framedIPv6_of_follows {start next : Header} (hfollows : Follows data start next)
    (hfits : start.Fits data) : FramedIPv6 data start ↔ FramedIPv6 data next := by
  refine ⟨fun h header hreached ↦ h header (.head hfollows hreached), fun h header hreached ↦ ?_⟩
  cases hreached.cases_head with
  | inl heq => exact heq ▸ hfits
  | inr hhead =>
    obtain ⟨other, hother, hrest⟩ := hhead
    -- The bytes of the header determine the next one.
    have hsame : other = next := by
      cases hfollows with
      | intro _ hnext hlength =>
        cases hother with
        | intro _ hnext' hlength' =>
          rw [hnext] at hnext'
          rw [hlength] at hlength'
          rw [Option.some.inj hnext', Option.some.inj hlength']
    exact h header (hsame ▸ hrest)

section

variable {nxt : UInt8} {fuel : ℕ}

theorem not_follows_of_not_extension (h : ¬ IsExtension nxt) (next : Header) :
    ¬ Follows data ⟨nxt, offset⟩ next := by
  rintro ⟨hextension, -, -⟩
  exact h hextension

theorem not_follows_of_lt (h : data.length < offset + 2) (next : Header) :
    ¬ Follows data ⟨nxt, offset⟩ next := by
  rintro ⟨-, -, hlength⟩
  obtain ⟨hlt, -⟩ := List.getElem?_eq_some_iff.mp hlength
  omega

theorem walkIPv6_of_not_extension {len : ℤ} (hudp : nxt ≠ 0x11) (h : ¬ IsExtension nxt) :
    walkIPv6 len data (fuel + 1) nxt offset = .ok (rejected "Not UDP or fragmented; ") := by
  rw [IsExtension, not_or, not_or] at h
  rw [walkIPv6, if_neg hudp, if_pos h]

/-- One round of the loop. -/
theorem walkIPv6_of_extension {len : ℤ} (h : IsExtension nxt) {next length : UInt8}
    (hnext : data[offset]? = some next) (hlength : data[offset + 1]? = some length) {after : ℕ}
    (hafter : after = offset + 8 * (1 + length.toNat)) :
    walkIPv6 len data (fuel + 1) nxt offset =
      if ((after + 2 : ℕ) : ℤ) ≤ intMax then
        if len < (after + 2 : ℕ) then .ok (rejected "") else walkIPv6 len data fuel next after
      else .error .overflow := by
  have hudp : nxt ≠ 0x11 := by
    rintro rfl
    exact not_isExtension_udp h
  have hthree : ¬ (nxt ≠ 0 ∧ nxt ≠ 43 ∧ nxt ≠ 60) := by
    rwa [← not_or, ← not_or, not_not]
  rw [walkIPv6, if_neg hudp, if_neg hthree, byteAt_of_getElem? hnext, byteAt_of_getElem? hlength, ok_bind,
    ok_bind]
  by_cases hfits : ((after + 2 : ℕ) : ℤ) ≤ intMax
  · rw [addInt_of_le (by omega), ok_bind, ← hafter, addInt_of_le hfits, ok_bind, if_pos hfits]
    rfl
  · rw [if_neg hfits]
    by_cases hfirst : ((offset + 8 * (1 + length.toNat) : ℕ) : ℤ) ≤ intMax
    · rw [addInt_of_le hfirst, ok_bind, ← hafter, addInt_of_lt (not_le.mp hfits), error_bind]
    · rw [addInt_of_lt (not_le.mp hfirst), error_bind]

/-- After the loop, a packet of at least 42 bytes has both of its IPv6 addresses. -/
theorem finishIPv6_eq (hlong : 42 ≤ data.length) :
    finishIPv6 data offset = skipUDPHeader offset ((data.drop 8).take 16) ((data.drop 24).take 16) := by
  rw [finishIPv6, bytesAt_of_le (by omega), bytesAt_of_le (by omega), ok_bind, ok_bind]

/-- The loop ends, and it stays inside exactly if every header fits.  The offset grows with every round,
so that the fuel lasts until the end of the packet. -/
theorem settles_walkIPv6 (h : (data.length : ℤ) ≤ intMax) (hlong : 42 ≤ data.length)
    (hin : offset + 2 ≤ data.length) (hfuel : data.length < offset + fuel) :
    Settles data.length (walkIPv6 data.length data fuel nxt offset) (FramedIPv6 data ⟨nxt, offset⟩) := by
  induction fuel generalizing nxt offset with
  | zero => omega
  | succ fuel ih =>
    have hint : ((offset + 2 : ℕ) : ℤ) ≤ intMax := (Int.ofNat_le.mpr hin).trans h
    by_cases hudp : nxt = 0x11
    · subst hudp
      have hfits : Header.Fits data ⟨0x11, offset⟩ ↔ offset + 8 ≤ data.length :=
        ⟨fun hfits ↦ hfits.udp rfl hin, fun hle ↦ ⟨hint, fun _ _ ↦ hle⟩⟩
      rw [framedIPv6_of_forall_not (not_follows_of_not_extension not_isExtension_udp), hfits, walkIPv6,
        if_pos rfl, finishIPv6_eq hlong]
      exact settles_skipUDPHeader h _ _
    · have hfits : Header.Fits data ⟨nxt, offset⟩ := ⟨hint, fun hsame ↦ absurd hsame hudp⟩
      by_cases hextension : IsExtension nxt
      · obtain ⟨next, hnext⟩ := exists_getElem? (Nat.lt_of_succ_lt hin)
        obtain ⟨length, hlength⟩ := exists_getElem? hin
        rw [framedIPv6_of_follows (.intro hextension hnext hlength) hfits,
          walkIPv6_of_extension hextension hnext hlength rfl]
        generalize hafter : offset + 8 * (1 + length.toNat) = after
        split_ifs with hafterInt hoverrun
        · -- The next header is not in the packet.
          have hout : data.length < after + 2 := Int.ofNat_lt.mp hoverrun
          rw [framedIPv6_of_forall_not (not_follows_of_lt hout)]
          exact settles_rejected ⟨hafterInt, fun _ hafterIn ↦ absurd hafterIn (Nat.not_le.mpr hout)⟩
        · have hafterIn : after + 2 ≤ data.length := Int.ofNat_le.mp (not_lt.mp hoverrun)
          exact ih hafterIn (by omega)
        · exact settles_error nofun fun hall ↦ hafterInt (hall _ .refl).int
      · rw [framedIPv6_of_forall_not (not_follows_of_not_extension hextension),
          walkIPv6_of_not_extension hudp hextension]
        exact settles_rejected hfits

end

/-! ## The packet -/

/-- The headers of the packet are there as far as the program reads and skips them. -/
structure Framed (data : List UInt8) : Prop where
  ipv4 : ∀ first, data[0]? = some first → first &&& 0xf0 = 0x40 → FramedIPv4 data first
  ipv6 : ∀ first nxt, data[0]? = some first → first &&& 0xf0 = 0x60 → 42 ≤ data.length →
    data[6]? = some nxt → FramedIPv6 data ⟨nxt, 40⟩

theorem framed_iff {first : UInt8} (h : data[0]? = some first) :
    Framed data ↔ (first &&& 0xf0 = 0x40 → FramedIPv4 data first) ∧
      (first &&& 0xf0 = 0x60 → 42 ≤ data.length →
        ∀ nxt, data[6]? = some nxt → FramedIPv6 data ⟨nxt, 40⟩) := by
  constructor
  · intro hframed
    exact ⟨hframed.ipv4 first h, fun hsix hlong nxt hnxt ↦ hframed.ipv6 first nxt h hsix hlong hnxt⟩
  · rintro ⟨hipv4, hipv6⟩
    constructor
    · intro other hother
      obtain rfl := Option.some.inj (h.symm.trans hother)
      exact hipv4
    · intro other nxt hother hsix hlong
      obtain rfl := Option.some.inj (h.symm.trans hother)
      exact hipv6 hsix hlong nxt

theorem processIPv4IPv6_of_lt {len : ℤ} (h : len < 1) : processIPv4IPv6 len data = .ok (rejected "") :=
  if_pos h

/-- The whole function stays inside exactly if the packet is framed. -/
theorem settles_processIPv4IPv6 (h : (data.length : ℤ) ≤ intMax) :
    Settles data.length (processIPv4IPv6 data.length data) (Framed data) := by
  by_cases hempty : data.length = 0
  · obtain rfl := List.eq_nil_of_length_eq_zero hempty
    rw [processIPv4IPv6_of_lt (by decide)]
    exact settles_rejected ⟨nofun, nofun⟩
  obtain ⟨first, hfirst⟩ := exists_getElem? (Nat.pos_of_ne_zero hempty)
  rw [framed_iff hfirst]
  unfold processIPv4IPv6
  rw [if_neg (by omega), byteAt_of_getElem? hfirst, ok_bind]
  dsimp only
  by_cases hfour : first &&& 0xf0 = 0x40
  · have hsix : first &&& 0xf0 ≠ 0x60 := by
      rw [hfour]
      decide
    rw [if_pos hfour, imp_iff_right hfour, and_iff_left fun hsame ↦ absurd hsame hsix]
    exact settles_processIPv4 h first
  rw [if_neg hfour, and_iff_right fun hsame ↦ absurd hsame hfour]
  by_cases hsix : first &&& 0xf0 = 0x60
  · rw [if_pos hsix, imp_iff_right hsix]
    by_cases hlong : 42 ≤ data.length
    · obtain ⟨nxt, hnxt⟩ : ∃ nxt, data[6]? = some nxt := exists_getElem? (by omega)
      have hframed : (42 ≤ data.length → ∀ nxt, data[6]? = some nxt → FramedIPv6 data ⟨nxt, 40⟩) ↔
          FramedIPv6 data ⟨nxt, 40⟩ := by
        rw [imp_iff_right hlong]
        refine ⟨fun hall ↦ hall nxt hnxt, fun hipv6 other hother ↦ ?_⟩
        exact Option.some.inj (hnxt.symm.trans hother) ▸ hipv6
      rw [hframed, if_neg (by omega), byteAt_of_getElem? hnxt, ok_bind]
      exact settles_walkIPv6 h hlong (by omega) (by omega)
    · rw [if_pos (by omega)]
      exact settles_rejected fun hle ↦ absurd hle hlong
  · rw [if_neg hsix]
    exact settles_rejected fun hsame ↦ absurd hsame hsix

/-! ## The payload -/

/-- The caller does not stop at a fault, and a payload is the end of the captured packet. -/
def DumpsInside (captured : List UInt8) (result : Except Fault Dumped) : Prop :=
  ∃ dumped, result = .ok dumped ∧
    ∀ srcAddr dstAddr bytes, dumped = .payload srcAddr dstAddr bytes → bytes <:+ captured

theorem dumpsInside_skipped (captured : List UInt8) (cerr : String) :
    DumpsInside captured (.ok (.skipped cerr)) :=
  ⟨_, rfl, nofun⟩

theorem not_dumpsInside_error (captured : List UInt8) (fault : Fault) :
    ¬ DumpsInside captured (.error fault) := by
  rintro ⟨_, h, -⟩
  contradiction

/-- If the offset is inside of the packet, then the subtraction does not wrap around, and the payload is
the rest. -/
theorem copyView_payload_of_le (h : offset ≤ captured.length) (hlt : captured.length < 2 ^ 32) :
    copyView captured offset (Word.sub captured.length offset) = .ok (captured.drop offset) := by
  unfold copyView maxSize
  rw [Word.sub_of_le h, if_neg (by omega), bytesAt_of_le (by omega), List.take_of_length_le]
  rw [List.length_drop]

/-- The length of the payload wraps around. -/
theorem copyView_payload_of_lt (h : captured.length < offset) :
    ∃ fault, copyView captured offset (Word.sub captured.length offset) = .error fault := by
  unfold copyView
  split_ifs
  · exact ⟨_, rfl⟩
  · exact ⟨_, bytesAt_of_lt (by omega)⟩

theorem dumpsInside_takePayload_iff {hdrOff : ℕ} (hle : hdrOff ≤ captured.length)
    (hlt : captured.length < 2 ^ 32) (processed : Processed) :
    DumpsInside captured (takePayload hdrOff captured processed) ↔
      (0 ≤ processed.ret → processed.ret ≤ (captured.drop hdrOff).length) := by
  unfold takePayload
  dsimp only
  by_cases hrejected : processed.ret < 0
  · rw [if_pos hrejected]
    exact iff_of_true (dumpsInside_skipped _ _) fun h ↦ absurd h (not_le.mpr hrejected)
  · rw [if_neg hrejected, imp_iff_right (not_lt.mp hrejected), List.length_drop]
    by_cases hpayload : hdrOff + processed.ret.toNat ≤ captured.length
    · rw [copyView_payload_of_le hpayload hlt, ok_bind]
      refine iff_of_true ⟨_, rfl, ?_⟩ (by omega)
      rintro _ _ _ ⟨⟩
      exact List.drop_suffix _ _
    · obtain ⟨fault, hfault⟩ := copyView_payload_of_lt (not_le.mp hpayload)
      rw [hfault, error_bind]
      exact iff_of_false (not_dumpsInside_error _ _) (by omega)

/-- The caller stays inside exactly if the packet is framed, or too long for an `int` and never looked
at. -/
theorem dumpsInside_dumpFrom_iff {hdrOff : ℕ} (hle : hdrOff ≤ captured.length)
    (hlt : captured.length < 2 ^ 32) :
    DumpsInside captured (dumpFrom hdrOff captured) ↔
      (((captured.drop hdrOff).length : ℤ) ≤ intMax → Framed (captured.drop hdrOff)) := by
  have hlength : Word.sub captured.length hdrOff = (captured.drop hdrOff).length := by
    rw [Word.sub_of_le hle, List.length_drop]
  unfold dumpFrom
  dsimp only
  rw [hlength]
  by_cases hint : ((captured.drop hdrOff).length : ℤ) ≤ intMax
  · rw [imp_iff_right hint, ← (settles_processIPv4IPv6 hint).iff, toInt_of_le (Int.natCast_nonneg _) hint]
    cases processIPv4IPv6 (captured.drop hdrOff).length (captured.drop hdrOff) with
    | error fault => exact iff_of_false (not_dumpsInside_error _ _) (not_inside_error _ _)
    | ok processed =>
      rw [ok_bind, inside_ok_iff]
      exact dumpsInside_takePayload_iff hle hlt processed
  · -- As an `int` the number of bytes is negative.
    have hneg : toInt (captured.drop hdrOff).length < 0 := by
      apply toInt_neg (not_le.mp hint)
      rw [List.length_drop]
      omega
    rw [processIPv4IPv6_of_lt (by omega), ok_bind, imp_iff_not_or,
      dumpsInside_takePayload_iff hle hlt]
    exact iff_of_true (fun h ↦ absurd h (by decide)) (.inl hint)

/-- The header of the link is read after a check of its length. -/
theorem checkLink_cases {hdrOff ptOff ptLen : ℕ} (h : ptOff + ptLen ≤ hdrOff) (accepted : List ℕ)
    (captured : List UInt8) :
    (∃ dumped, checkLink hdrOff ptOff ptLen accepted captured = .ok (.inl dumped) ∧
      DumpsInside captured (.ok dumped)) ∨
    ∃ offset ≤ captured.length, checkLink hdrOff ptOff ptLen accepted captured = .ok (.inr offset) := by
  unfold checkLink
  by_cases hshort : captured.length < hdrOff
  · rw [if_pos hshort]
    exact .inl ⟨_, rfl, dumpsInside_skipped _ _⟩
  · rw [if_neg hshort, bytesAt_of_le (by omega), ok_bind]
    by_cases hother : BigEndian.value ((captured.drop ptOff).take ptLen) ∉ accepted
    · rw [if_pos hother]
      exact .inl ⟨_, rfl, dumpsInside_skipped _ _⟩
    · rw [if_neg hother]
      exact .inr ⟨hdrOff, not_lt.mp hshort, rfl⟩

/-- Whatever the link type, the header of the link is read inside of the packet. -/
theorem linkHeader_cases (link : DataLink) (captured : List UInt8) :
    (∃ dumped, linkHeader link captured = .ok (.inl dumped) ∧ DumpsInside captured (.ok dumped)) ∨
    ∃ offset ≤ captured.length, linkHeader link captured = .ok (.inr offset) := by
  cases link with
  | raw => exact .inr ⟨0, Nat.zero_le _, rfl⟩
  | null => exact checkLink_cases (by decide) _ _
  | en10mb => exact checkLink_cases (by decide) _ _
  | linuxSll => exact checkLink_cases (by decide) _ _
  | linuxSll2 => exact checkLink_cases (by decide) _ _
  | other => exact .inl ⟨_, rfl, _, rfl, nofun⟩

/-- The caller stays inside exactly if the packet behind the header of the link is framed, or has too many
bytes for an `int` and is skipped. -/
theorem dumpsInside_dump_iff (link : DataLink) (h : captured.length < 2 ^ 32) :
    DumpsInside captured (dump link captured) ↔
      ∀ hdrOff, linkHeader link captured = .ok (.inr hdrOff) →
        ((captured.drop hdrOff).length : ℤ) ≤ intMax → Framed (captured.drop hdrOff) := by
  unfold dump
  cases linkHeader_cases link captured with
  | inl hstopped =>
    obtain ⟨dumped, hlink, hinside⟩ := hstopped
    rw [hlink, ok_bind]
    refine iff_of_true hinside fun hdrOff hsame ↦ ?_
    exact absurd (Except.ok.inj hsame) nofun
  | inr hpacket =>
    obtain ⟨hdrOff, hle, hlink⟩ := hpacket
    rw [hlink, ok_bind]
    rw [dumpsInside_dumpFrom_iff hle h]
    refine ⟨fun hframed other hsame ↦ ?_, fun hall ↦ hall hdrOff rfl⟩
    obtain rfl := Sum.inr.inj (Except.ok.inj hsame)
    exact hframed

/-- The walk over the headers of a packet ends.  It stays inside of the packet, and returns at most its
length, exactly if the packet is framed; and exactly then the caller, who has found the packet behind the
header of a link, finds its payload inside. -/
theorem headers_inside_iff_framed (data : List UInt8) (h : (data.length : ℤ) ≤ intMax) :
    processIPv4IPv6 data.length data ≠ .error .outOfFuel ∧
      (Inside data.length (processIPv4IPv6 data.length data) ↔ Framed data) ∧
      ∀ (link : DataLink) (captured : List UInt8) (hdrOff : ℕ), captured.length < 2 ^ 32 →
        linkHeader link captured = .ok (.inr hdrOff) → captured.drop hdrOff = data →
          (DumpsInside captured (dump link captured) ↔ Framed data) := by
  have hsettles := settles_processIPv4IPv6 h
  refine ⟨hsettles.ends, hsettles.iff, ?_⟩
  rintro link captured hdrOff hcaplen hlink rfl
  rw [dumpsInside_dump_iff link hcaplen]
  constructor
  · intro hall
    exact hall hdrOff hlink h
  · intro hframed other hother _
    obtain rfl := Sum.inr.inj (Except.ok.inj (hlink.symm.trans hother))
    exact hframed

/-- An IPv6 packet with one extension header and a complete UDP header, behind an Ethernet header. -/
theorem headers_inside_with_extension :
    let data : List UInt8 := [0x60, 0, 0, 0, 0, 17, 60, 64] ++ List.replicate 32 1 ++
      [17, 0] ++ List.replicate 6 0 ++ List.replicate 8 2 ++ [3]
    let captured : List UInt8 := List.replicate 12 0 ++ [0x86, 0xdd] ++ data
    Framed data ∧ DumpsInside captured (dump .en10mb captured) := by
  intro data captured
  have hinside : Inside data.length (processIPv4IPv6 data.length data) :=
    ⟨⟨56, List.replicate 16 1, List.replicate 16 1, ""⟩, by decide +kernel, fun _ ↦ by decide⟩
  obtain ⟨-, hiff, hcaller⟩ := headers_inside_iff_framed data (by decide)
  have hframed : Framed data := hiff.mp hinside
  have hlink : linkHeader .en10mb captured = .ok (.inr 14) := by decide +kernel
  exact ⟨hframed, (hcaller .en10mb captured 14 (by decide) hlink rfl).mpr hframed⟩

/-- A packet of one byte, of which the tenth is read; an IPv4 packet without its UDP header, whose payload
would start behind its end and have a length that no string has; and an IPv6 packet with two bytes of its
UDP header. -/
theorem headers_not_inside :
    let short : List UInt8 := [0x40]
    let ipv4 : List UInt8 := [0x45, 0, 0, 20, 0, 0, 0, 0, 64, 17, 0, 0, 10, 0, 0, 1, 10, 0, 0, 2]
    let ipv6 : List UInt8 := [0x60, 0, 0, 0, 0, 2, 17, 64] ++ List.replicate 34 1
    processIPv4IPv6 short.length short = .error (.outOfBounds 9) ∧
      processIPv4IPv6 ipv4.length ipv4 =
        .ok { ret := 28, srcAddr := [10, 0, 0, 1], dstAddr := [10, 0, 0, 2] } ∧
      Word.sub ipv4.length 28 = 2 ^ 64 - 8 ∧ dump .raw ipv4 = .error .lengthError ∧
      processIPv4IPv6 ipv6.length ipv6 =
        .ok { ret := 48, srcAddr := List.replicate 16 1, dstAddr := List.replicate 16 1 } ∧
      ipv6.length = 42 := by
  decide +kernel

end Sponge.UdpTcpdump
