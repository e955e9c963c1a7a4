import Sponge.Util.Parser

/-!
# Sequences of calls on a parser

A header is parsed by a sequence of calls on one `NetParser`.  `Call` lists the calls, and `performAll`
makes a sequence of them.  As long as enough bytes are left, each call returns what the next bytes spell
and consumes them.  From the first call on that asks for more, all calls return zero and consume nothing.

A parser goes on after an error with whatever it has read.  `Safe` describes a program for every state of
the parser: it does not throw, and what is left of the buffer is a suffix of it.
-/

namespace Sponge.NetParser

open BigEndian

/-! ## Safe programs -/

variable {α β : Type} {program : Program α}

/-- The program does not throw, and it only removes bytes from the front of the buffer. -/
def Safe (program : Program α) : Prop :=
  ∀ parser, ∃ value after, program parser = .ok (value, after) ∧
    after.buffer.str <:+ parser.buffer.str

theorem safe_pure (value : α) : Safe (pure value) :=
  fun parser ↦ ⟨value, parser, rfl, List.suffix_rfl⟩

theorem safe_get : Safe (get : Program NetParser) :=
  fun parser ↦ ⟨parser, parser, rfl, List.suffix_rfl⟩

/-- Safe programs can be composed. -/
theorem Safe.bind {next : α → Program β} (hfirst : Safe program) (hnext : ∀ value, Safe (next value)) :
    Safe (program >>= next) := by
  intro parser
  obtain ⟨value, middle, hprogram, hmiddle⟩ := hfirst parser
  obtain ⟨result, after, hrun, hafter⟩ := hnext value middle
  exact ⟨result, after, (bind_of_ok hprogram).trans hrun, hafter.trans hmiddle⟩

theorem Safe.map (f : α → β) (h : Safe program) : Safe (f <$> program) := by
  rw [← bind_pure_comp]
  exact h.bind fun value ↦ safe_pure (f value)

theorem Safe.ite {condition : Prop} [Decidable condition] {other : Program α} (h : Safe program)
    (hother : Safe other) : Safe (if condition then program else other) := by
  split_ifs
  · exact h
  · exact hother

/-- If no error is found, the bytes that are asked for are there. -/
theorem checkSize_cases (parser : NetParser) (size : ℕ) :
    (parser.checkSize size).buffer = parser.buffer ∧
      ((parser.checkSize size).hasError = false → size ≤ parser.buffer.size) := by
  unfold checkSize
  split_ifs with hshort
  · exact ⟨rfl, nofun⟩
  · exact ⟨rfl, fun _ ↦ not_lt.mp hshort⟩

theorem safe_parseInt (len : ℕ) : Safe (parseInt len) := by
  intro parser
  obtain ⟨hbuffer, henough⟩ := checkSize_cases parser len
  unfold parseInt
  dsimp only
  split_ifs with herror
  · exact ⟨0, _, rfl, hbuffer ▸ List.suffix_rfl⟩
  · have hle := henough (Bool.eq_false_iff.mpr herror)
    obtain ⟨rest, hremove, hrest⟩ := Buffer.removePrefix_of_le hle
    rw [hbuffer, parseLoop_of_le hle, hremove]
    exact ⟨_, _, rfl, hrest ▸ List.drop_suffix len _⟩

theorem safe_removePrefix (count : ℕ) : Safe (removePrefix count) := by
  intro parser
  obtain ⟨hbuffer, henough⟩ := checkSize_cases parser count
  unfold removePrefix
  dsimp only
  split_ifs with herror
  · exact ⟨(), _, rfl, hbuffer ▸ List.suffix_rfl⟩
  · obtain ⟨rest, hremove, hrest⟩ := Buffer.removePrefix_of_le (henough (Bool.eq_false_iff.mpr herror))
    rw [hbuffer, hremove]
    exact ⟨(), _, rfl, hrest ▸ List.drop_suffix count _⟩

theorem safe_u8 : Safe u8 := (safe_parseInt 1).map _

theorem safe_u16 : Safe u16 := (safe_parseInt 2).map _

theorem safe_u32 : Safe u32 := (safe_parseInt 4).map _

/-! ## Calls -/

inductive Call where
  | u8
  | u16
  | u32
  | removePrefix (count : ℕ)
  deriving DecidableEq, Repr

namespace Call

def width : Call → ℕ
  | u8 => 1
  | u16 => 2
  | u32 => 4
  | removePrefix count => count

/-- Make the call.  The result of a removal, which has none, is zero. -/
def perform : Call → Program ℕ
  | u8 => UInt8.toNat <$> NetParser.u8
  | u16 => UInt16.toNat <$> NetParser.u16
  | u32 => UInt32.toNat <$> NetParser.u32
  | removePrefix count => (fun _ ↦ 0) <$> NetParser.removePrefix count

/-- What the call makes of the bytes in front of it: an integer is spelled by the next bytes, most
significant byte first. -/
def decode : Call → List UInt8 → ℕ
  | removePrefix _, _ => 0
  | call, bytes => BigEndian.value (bytes.take call.width)

/-- Every call takes as many bytes as it asks for. -/
theorem takes_perform (call : Call) : Takes call.perform call.width call.decode := by
  cases call with
  | u8 =>
    exact (takes_u8.map UInt8.toNat).of_eq fun bytes ↦ UInt8.toNat_ofNat_of_lt' (field_lt bytes 0 1)
  | u16 =>
    exact (takes_u16.map UInt16.toNat).of_eq fun bytes ↦ UInt16.toNat_ofNat_of_lt' (field_lt bytes 0 2)
  | u32 =>
    exact (takes_u32.map UInt32.toNat).of_eq fun bytes ↦ UInt32.toNat_ofNat_of_lt' (field_lt bytes 0 4)
  | removePrefix count => exact (takes_removePrefix count).map _

theorem map_of_ok {f : α → β} {parser after : NetParser} {value : α}
    (h : program parser = .ok (value, after)) : (f <$> program) parser = .ok (f value, after) := by
  rw [← bind_pure_comp, bind_of_ok h]
  rfl

theorem parseInt_of_fails {parser : NetParser} {len : ℕ}
    (h : (parser.checkSize len).error = .packetTooShort) :
    parseInt len parser = .ok (0, { parser with error := .packetTooShort }) := by
  have hbuffer := (checkSize_cases parser len).1
  have herror : (parser.checkSize len).hasError = true := by simp [hasError, h]
  unfold parseInt
  dsimp only
  rw [if_pos herror, ← h, ← hbuffer]

theorem removePrefix_of_fails {parser : NetParser} {count : ℕ}
    (h : (parser.checkSize count).error = .packetTooShort) :
    NetParser.removePrefix count parser = .ok ((), { parser with error := .packetTooShort }) := by
  have hbuffer := (checkSize_cases parser count).1
  have herror : (parser.checkSize count).hasError = true := by simp [hasError, h]
  unfold NetParser.removePrefix
  dsimp only
  rw [if_pos herror, ← h, ← hbuffer]

/-- A call that finds the error set, or too few bytes, returns zero and consumes nothing. -/
theorem perform_of_fails (call : Call) {parser : NetParser}
    (h : parser.error = .packetTooShort ∨ parser.buffer.size < call.width) :
    call.perform parser = .ok (0, { parser with error := .packetTooShort }) := by
  have herror : (parser.checkSize call.width).error = .packetTooShort := by
    unfold checkSize
    split_ifs with hshort
    · rfl
    · exact h.resolve_right hshort
  cases call with
  | u8 => exact map_of_ok (map_of_ok (parseInt_of_fails herror))
  | u16 => exact map_of_ok (map_of_ok (parseInt_of_fails herror))
  | u32 => exact map_of_ok (map_of_ok (parseInt_of_fails herror))
  | removePrefix count => exact map_of_ok (removePrefix_of_fails herror)

end Call

/-! ## Sequences of calls -/

/-- Make calls one after the other and collect their results. -/
def performAll (calls : List Call) : Program (List ℕ) := calls.mapM Call.perform

def totalWidth (calls : List Call) : ℕ := (calls.map Call.width).sum

/-- What each of the calls makes of the bytes that the calls before it have left. -/
def decodeAll : List Call → List UInt8 → List ℕ
  | [], _ => []
  | call :: calls, bytes => call.decode bytes :: decodeAll calls (bytes.drop call.width)

theorem performAll_cons {call : Call} {calls : List Call} {parser middle after : NetParser} {value : ℕ}
    {values : List ℕ} (hcall : call.perform parser = .ok (value, middle))
    (hcalls : performAll calls middle = .ok (values, after)) :
    performAll (call :: calls) parser = .ok (value :: values, after) := by
  unfold performAll at hcalls ⊢
  rw [List.mapM_cons, bind_of_ok hcall, bind_of_ok hcalls]
  rfl

theorem safe_performAll (calls : List Call) : Safe (performAll calls) := by
  induction calls with
  | nil => exact safe_pure []
  | cons call calls ih =>
    have hcall : Safe call.perform := by
      cases call with
      | u8 => exact safe_u8.map _
      | u16 => exact safe_u16.map _
      | u32 => exact safe_u32.map _
      | removePrefix count => exact (safe_removePrefix count).map _
    unfold performAll at ih ⊢
    rw [List.mapM_cons]
    exact hcall.bind fun value ↦ ih.bind fun values ↦ safe_pure (value :: values)

/-- With the error set, all calls return zero and consume nothing. -/
theorem performAll_stuck (calls : List Call) (buffer : Buffer) :
    performAll calls ⟨buffer, .packetTooShort⟩ =
      .ok (List.replicate calls.length 0, ⟨buffer, .packetTooShort⟩) := by
  induction calls with
  | nil => rfl
  | cons call calls ih => exact performAll_cons (call.perform_of_fails (.inl rfl)) ih

/-- The calls before the first one that fails are read from the buffer.  After them `later` is run with
what they have left. -/
theorem performAll_append {before later : List Call} {buffer : Buffer}
    (h : totalWidth before ≤ buffer.size) :
    ∃ rest : Buffer, rest.str = buffer.str.drop (totalWidth before) ∧
      ∀ values after, performAll later ⟨rest, .noError⟩ = .ok (values, after) →
        performAll (before ++ later) ⟨buffer, .noError⟩ =
          .ok (decodeAll before buffer.str ++ values, after) := by
  induction before generalizing buffer with
  | nil => exact ⟨buffer, rfl, fun _ _ hlater ↦ hlater⟩
  | cons call before ih =>
    have hwidth : totalWidth (call :: before) = call.width + totalWidth before := List.sum_cons
    obtain ⟨middle, hcall, hmiddle⟩ := call.takes_perform.enough buffer (by omega)
    have hsize : totalWidth before ≤ middle.size := by
      rw [Buffer.size, hmiddle, List.length_drop]
      change _ ≤ buffer.size - _
      omega
    obtain ⟨rest, hrest, hbefore⟩ := ih hsize
    refine ⟨rest, ?_, fun values after hlater ↦ ?_⟩
    · rw [hrest, hmiddle, List.drop_drop, hwidth]
    · rw [List.cons_append, decodeAll, ← hmiddle, List.cons_append]
      exact performAll_cons hcall (hbefore values after hlater)

/-- Enough bytes for all calls. -/
theorem performAll_of_le {calls : List Call} {buffer : Buffer} (h : totalWidth calls ≤ buffer.size) :
    ∃ rest : Buffer, performAll calls { buffer } =
        .ok (decodeAll calls buffer.str, ⟨rest, .noError⟩) ∧
      rest.str = buffer.str.drop (totalWidth calls) := by
  obtain ⟨rest, hrest, hrun⟩ := @performAll_append calls [] buffer h
  have hcalls := hrun [] ⟨rest, .noError⟩ rfl
  rw [List.append_nil, List.append_nil] at hcalls
  exact ⟨rest, hcalls, hrest⟩

/-- The bytes run out at `call`. -/
theorem performAll_of_lt {before later : List Call} {call : Call} {buffer : Buffer}
    (h : totalWidth before ≤ buffer.size) (hshort : buffer.size < totalWidth before + call.width) :
    ∃ rest : Buffer, performAll (before ++ call :: later) { buffer } =
        .ok (decodeAll before buffer.str ++ List.replicate (later.length + 1) 0,
          ⟨rest, .packetTooShort⟩) ∧
      rest.str = buffer.str.drop (totalWidth before) := by
  obtain ⟨rest, hrest, hrun⟩ := @performAll_append before (call :: later) buffer h
  have hsize : rest.size < call.width := by
    rw [Buffer.size, hrest, List.length_drop]
    change buffer.size - _ < _
    omega
  have hcall : call.perform ⟨rest, .noError⟩ = .ok (0, ⟨rest, .packetTooShort⟩) :=
    call.perform_of_fails (.inr hsize)
  exact ⟨rest, hrun _ _ (performAll_cons hcall (performAll_stuck later rest)), hrest⟩

/-! ## Reading back what was written -/

/-- An integer that is written by `NetUnparser`. -/
inductive Written where
  | u8 (val : UInt8)
  | u16 (val : UInt16)
  | u32 (val : UInt32)
  deriving DecidableEq, Repr

namespace Written

def unparse (s : List UInt8) : Written → List UInt8
  | u8 val => NetUnparser.u8 s val
  | u16 val => NetUnparser.u16 s val
  | u32 val => NetUnparser.u32 s val

def call : Written → Call
  | u8 _ => .u8
  | u16 _ => .u16
  | u32 _ => .u32

def number : Written → ℕ
  | u8 val => val.toNat
  | u16 val => val.toNat
  | u32 val => val.toNat

theorem unparse_eq (s : List UInt8) (written : Written) :
    written.unparse s = s ++ digits written.call.width written.number := by
  cases written with
  | u8 val => exact NetUnparser.unparseInt_eq 1 s val.toNat
  | u16 val => exact NetUnparser.unparseInt_eq 2 s val.toNat
  | u32 val => exact NetUnparser.unparseInt_eq 4 s val.toNat

theorem decode_digits (written : Written) (more : List UInt8) :
    written.call.decode (digits written.call.width written.number ++ more) = written.number := by
  cases written with
  | u8 val => exact (field_digits_append 1 _ more).trans (Nat.mod_eq_of_lt val.toNat_lt)
  | u16 val => exact (field_digits_append 2 _ more).trans (Nat.mod_eq_of_lt val.toNat_lt)
  | u32 val => exact (field_digits_append 4 _ more).trans (Nat.mod_eq_of_lt val.toNat_lt)

end Written

/-- All bytes that are written, in front of what follows. -/
theorem foldl_unparse (written : List Written) (s : List UInt8) :
    written.foldl Written.unparse s =
      s ++ written.flatMap fun entry ↦ digits entry.call.width entry.number := by
  induction written generalizing s with
  | nil => simp
  | cons entry written ih =>
    rw [List.foldl_cons, ih, entry.unparse_eq, List.flatMap_cons, List.append_assoc]

theorem totalWidth_written (written : List Written) :
    totalWidth (written.map Written.call) =
      (written.flatMap fun entry ↦ digits entry.call.width entry.number).length := by
  simp [totalWidth, List.length_flatMap, Function.comp_def]

/-- What was written is what is read. -/
theorem decodeAll_written (written : List Written) (more : List UInt8) :
    decodeAll (written.map Written.call)
        ((written.flatMap fun entry ↦ digits entry.call.width entry.number) ++ more) =
      written.map Written.number := by
  induction written with
  | nil => rfl
  | cons entry written ih =>
    have hwidth := length_digits entry.call.width entry.number
    rw [List.map_cons, List.flatMap_cons, List.append_assoc, decodeAll, entry.decode_digits,
      List.drop_left' hwidth, ih, List.map_cons]

/-- The calls that match what was written recover it and leave what follows. -/
theorem performAll_written {written : List Written} {more : List UInt8} {buffer : Buffer}
    (h : buffer.str = written.foldl Written.unparse [] ++ more) :
    ∃ rest : Buffer, performAll (written.map Written.call) { buffer } =
        .ok (written.map Written.number, ⟨rest, .noError⟩) ∧ rest.str = more := by
  rw [foldl_unparse, List.nil_append] at h
  have hwidth : totalWidth (written.map Written.call) ≤ buffer.size := by
    rw [Buffer.size, h, List.length_append, totalWidth_written]
    exact Nat.le_add_right _ _
  obtain ⟨rest, hrun, hrest⟩ := performAll_of_le hwidth
  refine ⟨rest, ?_, ?_⟩
  · rw [hrun, h, decodeAll_written]
  · rw [hrest, h, totalWidth_written, List.drop_left]

end Sponge.NetParser
