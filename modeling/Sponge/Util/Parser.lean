import Sponge.Library.BigEndian
import Sponge.Util.Buffer

/-!
# Parsing and writing integers in network byte order

`NetParser` reads integers from the front of a buffer.  A read that asks for more bytes than are left
sets the error, and from then on every read returns zero and consumes nothing.  A parser is therefore
run to its end, and its error is looked at afterwards.

`Takes` describes a program over a parser by the number of bytes that it takes and the value that it
makes of them.  It composes along the binds of the program; the headers of the protocols are described
with it.
-/

namespace Sponge

open BigEndian

/-- The result of parsing or unparsing a datagram or a segment. -/
inductive ParseResult where
  | noError
  | badChecksum
  | packetTooShort
  | wrongIPVersion
  | headerTooShort
  | truncatedPacket
  | unsupported
  deriving DecidableEq, Repr

structure NetParser where
  buffer : Buffer
  error : ParseResult := .noError
  deriving DecidableEq, Repr

namespace NetParser

/-- What is done with a parser; the functions of the buffer may throw. -/
abbrev Program := StateT NetParser (Except StdException)

/-- Whether there has been an error; `error()`. -/
def hasError (parser : NetParser) : Bool := parser.error ≠ .noError

def setError (parser : NetParser) (res : ParseResult) : NetParser := { parser with error := res }

def checkSize (parser : NetParser) (size : ℕ) : NetParser :=
  if size > parser.buffer.size then parser.setError .packetTooShort else parser

/-- The loop of `_parse_int` over an integer of `len` bytes. -/
def parseLoop (buffer : Buffer) (len : ℕ) : Except StdException ℕ :=
  (List.range len).foldlM (fun ret i ↦ do
    let byte ← buffer.byteAt i
    return (ret * 256 + byte.toNat) % 256 ^ len) 0

/-- Generic integer parsing; `len` is the size of the type. -/
def parseInt (len : ℕ) : Program ℕ := fun parser ↦
  let parser := parser.checkSize len
  if parser.hasError then .ok (0, parser)
  else do
    let ret ← parseLoop parser.buffer len
    let buffer ← parser.buffer.removePrefix len
    return (ret, { parser with buffer })

def u32 : Program UInt32 := UInt32.ofNat <$> parseInt 4

def u16 : Program UInt16 := UInt16.ofNat <$> parseInt 2

def u8 : Program UInt8 := UInt8.ofNat <$> parseInt 1

def removePrefix (count : ℕ) : Program Unit := fun parser ↦
  let parser := parser.checkSize count
  if parser.hasError then .ok ((), parser)
  else do
    let buffer ← parser.buffer.removePrefix count
    return ((), { parser with buffer })

end NetParser

namespace NetUnparser

def unparseInt (len : ℕ) (s : List UInt8) (val : ℕ) : List UInt8 :=
  (List.range len).foldl (fun s i ↦ s ++ [UInt8.ofNat ((val >>> ((len - i - 1) * 8)) &&& 0xff)]) s

def u32 (s : List UInt8) (val : UInt32) : List UInt8 := unparseInt 4 s val.toNat

def u16 (s : List UInt8) (val : UInt16) : List UInt8 := unparseInt 2 s val.toNat

def u8 (s : List UInt8) (val : UInt8) : List UInt8 := unparseInt 1 s val.toNat

/-- Unparsing appends the digits. -/
theorem unparseInt_eq (len : ℕ) (s : List UInt8) (val : ℕ) :
    unparseInt len s val = s ++ digits len val := by
  have hbyte (number : ℕ) : UInt8.ofNat (number &&& 0xff) = UInt8.ofNat number := by
    apply UInt8.toNat_inj.mp
    have hmod : number &&& 0xff = number % 256 := Nat.and_two_pow_sub_one_eq_mod number 8
    simp [hmod]
  simp only [unparseInt, hbyte, List.foldl_append_eq_append, digits_eq_map, ← List.flatMap_def]
  rw [List.map_eq_flatMap]

end NetUnparser

namespace NetParser

/-! ## Programs -/

variable {α β : Type} {program : Program α} {count more : ℕ} {decode : List UInt8 → α}

theorem bind_of_ok {next : α → Program β} {parser after : NetParser} {value : α}
    (h : program parser = .ok (value, after)) : (program >>= next) parser = next value after := by
  change (program parser >>= fun result ↦ next result.1 result.2) = _
  rw [h]
  rfl

/-- The program takes `count` bytes and returns what `decode` makes of the bytes in front of it.  If the
bytes do not suffice, the error is set, and with the error set nothing more is read. -/
structure Takes (program : Program α) (count : ℕ) (decode : List UInt8 → α) : Prop where
  enough : ∀ buffer : Buffer, count ≤ buffer.size →
    ∃ rest, program ⟨buffer, .noError⟩ = .ok (decode buffer.str, ⟨rest, .noError⟩) ∧
      rest.str = buffer.str.drop count
  short : ∀ buffer : Buffer, buffer.size < count →
    ∃ value rest, program ⟨buffer, .noError⟩ = .ok (value, ⟨rest, .packetTooShort⟩)
  stuck : ∀ buffer : Buffer, ∃ value,
    program ⟨buffer, .packetTooShort⟩ = .ok (value, ⟨buffer, .packetTooShort⟩)

theorem takes_pure (value : α) : Takes (pure value) 0 fun _ ↦ value where
  enough buffer _ := ⟨buffer, rfl, rfl⟩
  short _ h := absurd h (Nat.not_lt_zero _)
  stuck _ := ⟨value, rfl⟩

theorem Takes.of_eq {expected : List UInt8 → α} (h : Takes program count decode)
    (heq : ∀ bytes, decode bytes = expected bytes) : Takes program count expected :=
  funext heq ▸ h

/-- Programs that take bytes can be composed. -/
theorem Takes.bind {next : α → Program β} {after : α → List UInt8 → β}
    (hfirst : Takes program count decode) (hnext : ∀ value, Takes (next value) more (after value)) :
    Takes (program >>= next) (count + more) fun bytes ↦ after (decode bytes) (bytes.drop count) where
  enough buffer h := by
    obtain ⟨middle, hprogram, hmiddle⟩ := hfirst.enough buffer (by omega)
    have hsize : more ≤ middle.size := by
      rw [Buffer.size, hmiddle, List.length_drop]
      exact Nat.le_sub_of_add_le' h
    obtain ⟨rest, hrun, hrest⟩ := (hnext (decode buffer.str)).enough middle hsize
    refine ⟨rest, ?_, ?_⟩
    · rw [bind_of_ok hprogram, hrun, hmiddle]
    · rw [hrest, hmiddle, List.drop_drop]
  short buffer h := by
    -- Either the second program runs out of bytes, or the first does and the second is stuck.
    by_cases henough : count ≤ buffer.size
    · obtain ⟨middle, hprogram, hmiddle⟩ := hfirst.enough buffer henough
      have hsize : middle.size < more := by
        rw [Buffer.size, hmiddle, List.length_drop]
        exact Nat.sub_lt_left_of_lt_add henough h
      rw [bind_of_ok hprogram]
      exact (hnext (decode buffer.str)).short middle hsize
    · obtain ⟨value, middle, hprogram⟩ := hfirst.short buffer (Nat.lt_of_not_le henough)
      obtain ⟨result, hrun⟩ := (hnext value).stuck middle
      exact ⟨result, middle, (bind_of_ok hprogram).trans hrun⟩
  stuck buffer := by
    obtain ⟨value, hprogram⟩ := hfirst.stuck buffer
    obtain ⟨result, hrun⟩ := (hnext value).stuck buffer
    exact ⟨result, (bind_of_ok hprogram).trans hrun⟩

theorem Takes.map (f : α → β) (h : Takes program count decode) :
    Takes (f <$> program) count fun bytes ↦ f (decode bytes) := by
  rw [← bind_pure_comp]
  exact h.bind fun value ↦ takes_pure (f value)

/-! ## Integers -/

variable {buffer : Buffer} {len : ℕ}

theorem parseLoop_of_le (h : len ≤ buffer.size) :
    parseLoop buffer len = .ok (field buffer.str 0 len) := by
  -- The variable of the loop has `len` bytes, so nothing is cut off when all of them have been read.
  have hpart (read : ℕ) (hread : read ≤ len) : (List.range read).foldlM (fun ret i ↦ do
      let byte ← buffer.byteAt i
      return (ret * 256 + byte.toNat) % 256 ^ len) 0 =
        Except.ok (value (buffer.str.take read) % 256 ^ len) := by
    induction read with
    | zero => simp [pure, Except.pure]
    | succ read ih =>
      have hlt : read < buffer.str.length := by
        change _ < buffer.size
        omega
      have hbyte : buffer.byteAt read = .ok buffer.str[read] := by
        rw [Buffer.byteAt, List.getElem?_eq_getElem hlt]
      rw [List.range_succ, List.foldlM_append, ih (by omega), List.take_add_one,
        List.getElem?_eq_getElem hlt, Option.toList_some, value_concat]
      simp [hbyte, bind, Except.bind, pure, Except.pure, Nat.add_mod, Nat.mul_mod]
  have hlength : (buffer.str.take len).length = len := List.length_take_of_le h
  have hlt := value_lt (buffer.str.take len)
  rw [hlength] at hlt
  rw [parseLoop, hpart len le_rfl, Nat.mod_eq_of_lt hlt]
  rfl

/-- Parsing an integer takes its bytes. -/
theorem takes_parseInt (len : ℕ) : Takes (parseInt len) len fun bytes ↦ field bytes 0 len where
  enough buffer h := by
    obtain ⟨rest, hremove, hrest⟩ := Buffer.removePrefix_of_le h
    refine ⟨rest, ?_, hrest⟩
    simp [parseInt, checkSize, hasError, Nat.not_lt.mpr h, parseLoop_of_le h, hremove, bind,
      Except.bind, pure, Except.pure]
  short buffer h := ⟨0, buffer, by simp [parseInt, checkSize, setError, hasError, h]⟩
  stuck buffer := ⟨0, by simp [parseInt, checkSize, setError, hasError]⟩

theorem takes_removePrefix (count : ℕ) : Takes (removePrefix count) count fun _ ↦ () where
  enough buffer h := by
    obtain ⟨rest, hremove, hrest⟩ := Buffer.removePrefix_of_le h
    refine ⟨rest, ?_, hrest⟩
    simp [removePrefix, checkSize, hasError, Nat.not_lt.mpr h, hremove, bind, Except.bind, pure,
      Except.pure]
  short buffer h := ⟨(), buffer, by simp [removePrefix, checkSize, setError, hasError, h]⟩
  stuck buffer := ⟨(), by simp [removePrefix, checkSize, setError, hasError]⟩

theorem takes_u8 : Takes u8 1 fun bytes ↦ UInt8.ofNat (field bytes 0 1) := (takes_parseInt 1).map _

theorem takes_u16 : Takes u16 2 fun bytes ↦ UInt16.ofNat (field bytes 0 2) := (takes_parseInt 2).map _

theorem takes_u32 : Takes u32 4 fun bytes ↦ UInt32.ofNat (field bytes 0 4) := (takes_parseInt 4).map _

end NetParser

end Sponge
