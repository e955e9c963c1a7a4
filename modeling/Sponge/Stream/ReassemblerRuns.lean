import Sponge.Library.Execution
import Sponge.Stream.ReassemblerInvariant
import Mathlib.Order.Bounds.Basic

/-!
# Runs of the stream reassembler

The reassembler is driven by pushes and by reads of its output.  When all pushes are excerpts of one
stream, the output is the longest initial part of that stream whose positions have been accepted.

The end of the output is right only up to how an end mark arrives.  The code keeps one flag and
compares two counters, so an end mark that carries no byte is forgotten as a position: the output
ends as soon as nothing waits, even with bytes missing.  `EndAnchored` is the condition that rules
this out.
-/

namespace Sponge.StreamReassembler

open Execution

variable {stream seen data tmp : List UInt8} {index position : ℕ} {eof : Bool}
  {reassembler : StreamReassembler}

/-! ## Excerpts of one stream -/

/-- The output, after the bytes `seen` taken from it, and the waiting strings spell `stream`. -/
structure Spells (stream seen : List UInt8) (reassembler : StreamReassembler) : Prop where
  seen_length : seen.length = reassembler.output.byteRead
  output : seen ++ reassembler.output.contents = stream.take reassembler.assembledBytes
  waiting : ∀ cell ∈ reassembler.strToAssemble, cell.value.1 <+: stream.drop cell.value.2

theorem Spells.assembledBytes_le (h : Spells stream seen reassembler)
    (hconsistent : Consistent reassembler) : reassembler.assembledBytes ≤ stream.length := by
  have hlength := congrArg List.length h.output
  have hwritten := hconsistent.assembling.valid.written_eq
  have hassembled := hconsistent.assembling.written
  have hseen := h.seen_length
  rw [List.length_append, List.length_take] at hlength
  omega

/-- No position beyond the stream is held. -/
theorem Spells.lt_length_of_holds (h : Spells stream seen reassembler)
    (hconsistent : Consistent reassembler) (hholds : reassembler.Holds position) :
    position < stream.length := by
  rcases hholds with hlt | ⟨cell, hcell, hle, hlt⟩
  · exact hlt.trans_le (h.assembledBytes_le hconsistent)
  · have hlength := (h.waiting cell hcell).length_le
    rw [List.length_drop] at hlength
    omega

/-- A longer stream has the same excerpts. -/
theorem Spells.extend (h : Spells stream seen reassembler) (hconsistent : Consistent reassembler)
    (more : List UInt8) : Spells (stream ++ more) seen reassembler where
  seen_length := h.seen_length
  output := by
    rw [h.output, List.take_append_of_le_length (h.assembledBytes_le hconsistent)]
  waiting cell hcell := by
    refine (h.waiting cell hcell).trans ?_
    rw [List.drop_append]
    exact List.prefix_append _ _

theorem spells_new (stream : List UInt8) (capacity : ℕ) : Spells stream [] (new capacity) :=
  ⟨rfl, rfl, nofun⟩

theorem Spells.endIfEmpty (h : Spells stream seen reassembler) :
    Spells stream seen reassembler.endIfEmpty := by
  rw [endIfEmpty_frame]
  exact ⟨h.seen_length, h.output, h.waiting⟩

/-- Storing an excerpt and assembling what it completes. -/
theorem Spells.assembleLoop {stored : StreamReassembler} (h : Spells stream seen reassembler)
    (hstored : Stored reassembler stored tmp index) (htmp : tmp <+: stream.drop index) :
    Spells stream seen (assembleLoop stored.strToAssemble stored) := by
  have hloop := assembleLoop_spec hstored.assembling
  have hframe := hstored.frame
  have hcells : ∀ cell ∈ stored.strToAssemble, cell.value.1 <+: stream.drop cell.value.2 := by
    intro cell hcell
    cases hstored.source cell hcell with
    | inl hold => exact h.waiting cell hold
    | inr hnew =>
      rw [hnew]
      exact htmp
  have hout : seen ++ stored.output.contents = stream.take stored.assembledBytes := by
    rw [hframe]
    exact h.output
  constructor
  · rw [h.seen_length, hloop.bytesRead, hframe]
  · exact assembleLoop_contents hstored.assembling hcells hout
  · exact fun cell hcell ↦ hcells cell (hloop.source cell hcell)

/-- Excerpts of the stream keep the reassembler spelling it. -/
theorem Spells.pushSubstring (h : Spells stream seen reassembler)
    (hconsistent : Consistent reassembler) (hdata : data <+: stream.drop index) (eof : Bool) :
    Spells stream seen (reassembler.pushSubstring data index eof) := by
  by_cases hindex : index < reassembler.capacity + reassembler.output.bytesRead
  · have htmp : reassembler.truncate data index <+: stream.drop index :=
      (List.take_prefix _ data).trans hdata
    have hmarked := hconsistent.mark (reassembler.eof || reassembler.takesEnd data index eof)
    have hspells : Spells stream seen { reassembler with
        eof := reassembler.eof || reassembler.takesEnd data index eof } :=
      ⟨h.seen_length, h.output, h.waiting⟩
    rw [pushSubstring_of_lt hindex]
    dsimp only
    split_ifs with hknown
    · exact hspells.endIfEmpty
    · exact (hspells.assembleLoop (hmarked.stored (truncate_fits hindex)) htmp).endIfEmpty
  · rw [pushSubstring_of_le (not_lt.mp hindex)]
    exact h

/-- Taking bytes out of the output moves them to what was seen. -/
theorem Spells.popOutput (h : Spells stream seen reassembler) (hconsistent : Consistent reassembler)
    (len : ℕ) :
    Spells stream (seen ++ reassembler.output.contents.take len)
      { reassembler with output := reassembler.output.popOutput len } where
  seen_length := by
    have hread := ByteStream.byteRead_popOutput hconsistent.assembling.valid len
    rw [List.length_append, List.length_take, h.seen_length]
    exact hread.symm
  output := by
    dsimp only
    rw [ByteStream.contents_popOutput hconsistent.assembling.valid, List.append_assoc,
      List.take_append_drop]
    exact h.output
  waiting := h.waiting

/-! ## The last byte -/

/-- The last byte is held once an end mark has been taken, so the output cannot end early. -/
structure Anchored (stream : List UInt8) (reassembler : StreamReassembler) : Prop where
  held : reassembler.eof = true → stream = [] ∨ reassembler.Holds (stream.length - 1)
  whole : reassembler.output.ended = true → reassembler.assembledBytes = stream.length

/-- With the last byte held, an empty reassembler has assembled the whole stream. -/
theorem Spells.assembled_of_empty (h : Spells stream seen reassembler)
    (hconsistent : Consistent reassembler)
    (hbound : ∀ position, reassembler.Holds position → position < Word.max)
    (hheld : stream = [] ∨ reassembler.Holds (stream.length - 1))
    (hempty : reassembler.empty = true) : reassembler.assembledBytes = stream.length := by
  have hle := h.assembledBytes_le hconsistent
  have hall := ((hconsistent.empty_iff hbound).mp hempty).2
  cases hheld with
  | inl hnil =>
    rw [hnil] at hle ⊢
    exact Nat.le_zero.mp hle
  | inr hlast =>
    have hlt := hall _ hlast
    omega

/-- An end mark that stands at the end of the stream keeps this, unless it comes without data and
before the last byte. -/
theorem Anchored.pushSubstring (h : Anchored stream reassembler)
    (hconsistent : Consistent reassembler)
    (hspells : Spells stream seen (reassembler.pushSubstring data index eof))
    (hbound : ∀ position, (reassembler.pushSubstring data index eof).Holds position →
      position < Word.max)
    (hends : eof = true → index + data.length = stream.length)
    (hanchored : data = [] → reassembler.takesEnd data index eof = true →
      stream = [] ∨ reassembler.Holds (stream.length - 1)) :
    Anchored stream (reassembler.pushSubstring data index eof) := by
  have hpush := pushSubstring_spec hconsistent data index eof
  have hheld : (reassembler.pushSubstring data index eof).eof = true →
      stream = [] ∨ (reassembler.pushSubstring data index eof).Holds (stream.length - 1) := by
    intro heof
    rw [hpush.holds]
    cases Bool.or_eq_true_iff.mp (hpush.eof.symm.trans heof) with
    | inl hold => exact (h.held hold).imp_right .inl
    | inr hnew =>
      by_cases hdata : data = []
      · exact (hanchored hdata hnew).imp_right .inl
      · -- An end mark that carries data brings the last byte itself.
        have htakes := hnew
        simp only [takesEnd, Bool.and_eq_true, decide_eq_true_eq] at htakes
        have hend := hends htakes.1
        have hpositive := List.length_pos_iff.mpr hdata
        refine .inr (.inr ⟨?_, ?_, ?_⟩) <;> omega
  refine ⟨hheld, fun hended ↦ ?_⟩
  have hle := hspells.assembledBytes_le hpush.consistent
  cases Bool.or_eq_true_iff.mp (hpush.ended.symm.trans hended) with
  | inl hold =>
    have hprogress := hpush.progress
    rw [h.whole hold] at hprogress
    exact le_antisymm hle hprogress
  | inr hnew =>
    have hempty := (Bool.and_eq_true_iff.mp hnew).2
    have heof := ((hpush.consistent.empty_iff hbound).mp hempty).1
    exact hspells.assembled_of_empty hpush.consistent hbound (hheld heof) hempty

theorem Anchored.popOutput (h : Anchored stream reassembler) (len : ℕ) :
    Anchored stream { reassembler with output := reassembler.output.popOutput len } where
  held := h.held
  whole hended := h.whole ((ByteStream.popOutput_frame reassembler.output len).2.2.1.symm.trans hended)

/-! ## Calls and their history -/

inductive Call where
  | push (data : List UInt8) (index : ℕ) (eof : Bool)
  | read (len : ℕ)
  | pop (len : ℕ)
  deriving DecidableEq, Repr

def step (reassembler : StreamReassembler) : Call → StreamReassembler
  | .push data index eof => reassembler.pushSubstring data index eof
  | .read len => { reassembler with output := (reassembler.output.read len).2 }
  | .pop len => { reassembler with output := reassembler.output.popOutput len }

def taken (reassembler : StreamReassembler) : Call → List UInt8
  | .push _ _ _ => []
  | .read len => (reassembler.output.read len).1
  | .pop len => reassembler.output.peekOutput len

/-- The call brings a byte for the position while it lies inside the window. -/
def AcceptsCall (reassembler : StreamReassembler) (call : Call) (position : ℕ) : Prop :=
  match call with
  | .push data index _ => reassembler.Accepts data index position
  | .read _ => False
  | .pop _ => False

/-- The call brings an end mark that is taken. -/
def takesEndCall (reassembler : StreamReassembler) : Call → Bool
  | .push data index eof => reassembler.takesEnd data index eof
  | .read _ => false
  | .pop _ => false

def takenOut (past : List (StreamReassembler × Call)) : List UInt8 :=
  past.flatMap fun entry ↦ entry.1.taken entry.2

/-- Some push covered the position at a moment when it lay inside the window. -/
def Accepted (past : List (StreamReassembler × Call)) (position : ℕ) : Prop :=
  ∃ entry ∈ past, entry.1.AcceptsCall entry.2 position

/-- Some push brought an end mark, not cut and inside the window. -/
def EndTaken (past : List (StreamReassembler × Call)) : Prop :=
  ∃ entry ∈ past, entry.1.takesEndCall entry.2 = true

/-- A push is an excerpt of `stream`, placed at its index. -/
def Call.Excerpt (stream : List UInt8) : Call → Prop
  | .push data index _ => data = (stream.drop index).take data.length
  | .read _ => True
  | .pop _ => True

/-- An end mark stands only at the end of `stream`. -/
def Call.EndsAt (stream : List UInt8) : Call → Prop
  | .push data index eof => eof = true → index + data.length = stream.length
  | .read _ => True
  | .pop _ => True

instance (stream : List UInt8) : (call : Call) → Decidable (call.Excerpt stream)
  | .push data index _ => inferInstanceAs (Decidable (data = (stream.drop index).take data.length))
  | .read _ => inferInstanceAs (Decidable True)
  | .pop _ => inferInstanceAs (Decidable True)

instance (stream : List UInt8) : (call : Call) → Decidable (call.EndsAt stream)
  | .push _ _ _ => inferInstanceAs (Decidable (_ → _))
  | .read _ => inferInstanceAs (Decidable True)
  | .pop _ => inferInstanceAs (Decidable True)

/-- The state and the history of a run whose pushes are excerpts of `stream`. -/
structure Delivered (stream : List UInt8) (past : List (StreamReassembler × Call))
    (reassembler : StreamReassembler) : Prop where
  consistent : Consistent reassembler
  spells : Spells stream (takenOut past) reassembler
  accepted : ∀ position, Accepted past position ↔ reassembler.Holds position

theorem accepted_concat {past : List (StreamReassembler × Call)} {call : Call} :
    Accepted (past ++ [(reassembler, call)]) position ↔
      Accepted past position ∨ reassembler.AcceptsCall call position := by
  simp [Accepted, or_and_right, exists_or]

theorem takenOut_concat (past : List (StreamReassembler × Call)) (reassembler : StreamReassembler)
    (call : Call) :
    takenOut (past ++ [(reassembler, call)]) = takenOut past ++ reassembler.taken call := by
  simp [takenOut]

/-- Taking bytes out of the output adds them to the history and accepts nothing. -/
theorem Delivered.popOutput {past : List (StreamReassembler × Call)} {call : Call}
    (h : Delivered stream past reassembler) (len : ℕ)
    (htaken : reassembler.taken call = reassembler.output.contents.take len)
    (haccepts : ∀ position, ¬ reassembler.AcceptsCall call position) :
    Delivered stream (past ++ [(reassembler, call)])
      { reassembler with output := reassembler.output.popOutput len } where
  consistent := h.consistent.popOutput len
  spells := by
    rw [takenOut_concat, htaken]
    exact h.spells.popOutput h.consistent len
  accepted position := by
    rw [accepted_concat, h.accepted, or_iff_left (haccepts position)]
    rfl

/-- One call continues the history. -/
theorem Delivered.step {past : List (StreamReassembler × Call)} {call : Call}
    (h : Delivered stream past reassembler) (hcall : call.Excerpt stream) :
    Delivered stream (past ++ [(reassembler, call)]) (reassembler.step call) := by
  have hvalid := h.consistent.assembling.valid
  cases call with
  | push data index eof =>
    have hpush := pushSubstring_spec h.consistent data index eof
    have hdata : data <+: stream.drop index := List.prefix_iff_eq_take.mpr hcall
    refine ⟨hpush.consistent, ?_, fun position ↦ ?_⟩
    · rw [takenOut_concat, taken, List.append_nil]
      exact h.spells.pushSubstring h.consistent hdata eof
    · rw [accepted_concat, h.accepted]
      exact (hpush.holds position).symm
  | read len =>
    change Delivered stream _ { reassembler with output := (reassembler.output.read len).2 }
    rw [ByteStream.read_snd hvalid]
    exact h.popOutput len (ByteStream.read_fst hvalid len) fun _ ↦ not_false
  | pop len => exact h.popOutput len (ByteStream.peekOutput_eq hvalid len) fun _ ↦ not_false

/-- The state after a run, and its history. -/
theorem delivered_run {capacity : ℕ} {calls : List Call}
    (h : Admissible step (fun _ call ↦ call.Excerpt stream) (new capacity) calls) :
    Delivered stream (trace step (new capacity) calls) (run step (new capacity) calls) := by
  refine h.trace_invariant (Delivered stream) (fun past state call hpast hcall ↦ hpast.step hcall) ?_
  refine ⟨consistent_new capacity, spells_new stream capacity, fun position ↦ ?_⟩
  simp [Accepted, Holds, new]

/-- The reassembler delivers exactly the longest initial part of the stream that has been accepted,
whatever the order, the overlaps and the repetitions of the pushes and wherever reads happen.  The
output has as many bytes as are assembled, so no write to it drops any. -/
theorem delivers_longest_accepted_part (stream : List UInt8) (capacity : ℕ) (calls : List Call)
    (h : Admissible step (fun _ call ↦ call.Excerpt stream) (new capacity) calls) :
    let past := trace step (new capacity) calls
    let final := run step (new capacity) calls
    takenOut past ++ final.output.contents = stream.take final.assembledBytes ∧
      final.assembledBytes ≤ stream.length ∧
      IsGreatest {count | ∀ position < count, Accepted past position} final.assembledBytes ∧
      final.output.bytesWritten = final.assembledBytes := by
  have hfinal := delivered_run h
  refine ⟨hfinal.spells.output, hfinal.spells.assembledBytes_le hfinal.consistent, ⟨?_, ?_⟩,
    hfinal.consistent.assembling.written⟩
  · exact fun position hposition ↦ (hfinal.accepted position).mpr (.inl hposition)
  · intro count hcount
    -- The position right after the assembled bytes is not held, hence was never accepted.
    by_contra hlonger
    have hnext := (hfinal.accepted _).mp (hcount _ (not_le.mp hlonger))
    exact hfinal.consistent.not_holds_assembledBytes hnext

theorem delivers_longest_accepted_part_out_of_order :
    let calls := [.push [98, 99] 1 false, .read 3, .push [97] 0 false, .pop 1, .push [99] 2 true]
    Admissible step (fun _ call ↦ call.Excerpt [97, 98, 99]) (new 4) calls ∧
      (run step (new 4) calls).assembledBytes = 3 ∧
      takenOut (trace step (new 4) calls) ++ (run step (new 4) calls).output.contents = [97, 98, 99] := by
  intro calls
  have h : Admissible step (fun _ call ↦ call.Excerpt [97, 98, 99]) (new 4) calls := by decide
  have hcount : (run step (new 4) calls).assembledBytes = 3 := by decide
  have hdelivered := (delivers_longest_accepted_part _ _ _ h).1
  rw [hcount] at hdelivered
  exact ⟨h, hcount, hdelivered⟩

/-! ## The end of the output -/

/-- An end mark without data comes only when the last byte of `stream` is held already. -/
def EndAnchored (stream : List UInt8) (reassembler : StreamReassembler) : Call → Prop
  | .push data index eof => data = [] → reassembler.takesEnd data index eof = true →
      stream = [] ∨ reassembler.Holds (stream.length - 1)
  | .read _ => True
  | .pop _ => True

instance (stream : List UInt8) (reassembler : StreamReassembler) :
    (call : Call) → Decidable (EndAnchored stream reassembler call)
  | .push _ _ _ => inferInstanceAs (Decidable (_ → _ → _))
  | .read _ => inferInstanceAs (Decidable True)
  | .pop _ => inferInstanceAs (Decidable True)

/-- What is known about the end of the output when end marks stand only at the end of `stream`. -/
structure Ending (stream : List UInt8) (past : List (StreamReassembler × Call))
    (reassembler : StreamReassembler) : Prop where
  delivered : Delivered stream past reassembler
  taken : reassembler.eof = true ↔ EndTaken past
  complete : reassembler.eof = true → reassembler.assembledBytes = stream.length →
    reassembler.output.ended = true

theorem Delivered.lt_max_of_holds {past : List (StreamReassembler × Call)}
    (h : Delivered stream past reassembler) (hsize : stream.length < Word.size) (position : ℕ)
    (hholds : reassembler.Holds position) : position < Word.max := by
  have hlt := h.spells.lt_length_of_holds h.consistent hholds
  change stream.length < 2 ^ 64 at hsize
  change position < 2 ^ 64 - 1
  omega

theorem endTaken_concat {past : List (StreamReassembler × Call)} {call : Call} :
    EndTaken (past ++ [(reassembler, call)]) ↔
      EndTaken past ∨ reassembler.takesEndCall call = true := by
  simp [EndTaken, or_and_right, exists_or]

/-- An end mark that stands at the end of the stream is the only reason for the output to end. -/
theorem Ending.step {past : List (StreamReassembler × Call)} {call : Call}
    (h : Ending stream past reassembler) (hsize : stream.length < Word.size)
    (hcall : call.Excerpt stream) :
    Ending stream (past ++ [(reassembler, call)]) (reassembler.step call) := by
  have hnext := h.delivered.step hcall
  cases call with
  | push data index eof =>
    have hpush := pushSubstring_spec h.delivered.consistent data index eof
    refine ⟨hnext, ?_, fun heof hall ↦ ?_⟩
    · rw [endTaken_concat, ← h.taken]
      exact (Bool.eq_iff_iff.mp hpush.eof).trans (by simp [takesEndCall])
    · by_cases hindex : index < reassembler.capacity + reassembler.output.bytesRead
      · -- All positions of the stream are assembled, so none is held beyond them.
        have hempty : (reassembler.pushSubstring data index eof).empty = true := by
          refine (hnext.consistent.empty_iff (hnext.lt_max_of_holds hsize)).mpr
            ⟨heof, fun position hholds ↦ ?_⟩
          rw [hall]
          exact hnext.spells.lt_length_of_holds hnext.consistent hholds
        exact hpush.ended.trans (by simp [hindex, hempty])
      · have hsame : reassembler.step (.push data index eof) = reassembler :=
          pushSubstring_of_le (not_lt.mp hindex) data eof
        rw [hsame] at heof hall ⊢
        exact h.complete heof hall
  | read len =>
    refine ⟨hnext, ?_, fun heof hall ↦ ?_⟩
    · rw [endTaken_concat, ← h.taken]
      simp [takesEndCall, StreamReassembler.step]
    · exact (ByteStream.popOutput_frame reassembler.output _).2.2.1.trans (h.complete heof hall)
  | pop len =>
    refine ⟨hnext, ?_, fun heof hall ↦ ?_⟩
    · rw [endTaken_concat, ← h.taken]
      simp [takesEndCall, StreamReassembler.step]
    · exact (ByteStream.popOutput_frame reassembler.output len).2.2.1.trans (h.complete heof hall)

/-- As long as the end marks are anchored, the output cannot end early. -/
theorem Anchored.step {past : List (StreamReassembler × Call)} {call : Call}
    (h : Anchored stream reassembler) (hdelivered : Delivered stream past reassembler)
    (hsize : stream.length < Word.size) (hcall : call.Excerpt stream) (hends : call.EndsAt stream)
    (hanchored : EndAnchored stream reassembler call) :
    Anchored stream (reassembler.step call) := by
  cases call with
  | push data index eof =>
    have hnext := hdelivered.step hcall
    exact h.pushSubstring hdelivered.consistent hnext.spells (hnext.lt_max_of_holds hsize) hends
      hanchored
  | read len => exact h.popOutput _
  | pop len => exact h.popOutput len

/-- With bytes missing and none waiting, an end mark without data ends the output. -/
theorem Delivered.empty_end_mark {past : List (StreamReassembler × Call)}
    (h : Delivered stream past reassembler) (hsize : stream.length < Word.size)
    (hnone : reassembler.unassembledBytes = 0)
    (hwindow : stream.length < reassembler.capacity + reassembler.output.bytesRead) :
    (reassembler.step (.push [] stream.length true)).output.inputEnded = true ∧
      (reassembler.step (.push [] stream.length true)).assembledBytes =
        reassembler.assembledBytes := by
  have hpush := pushSubstring_spec h.consistent [] stream.length true
  have hnext : Delivered stream _ (reassembler.step (.push [] stream.length true)) :=
    h.step (by simp [Call.Excerpt])
  have hsame (position : ℕ) : (reassembler.pushSubstring [] stream.length true).Holds position ↔
      reassembler.Holds position := by
    rw [hpush.holds, or_iff_left]
    rintro ⟨hle, hlt, -⟩
    exact hle.not_gt hlt
  have hbound := h.lt_max_of_holds hsize
  have hall := (h.consistent.storedBytes_eq_iff hbound).mp
    ((h.consistent.unassembledBytes_eq_zero_iff hbound).mp hnone)
  have hempty : (reassembler.pushSubstring [] stream.length true).empty = true := by
    refine (hnext.consistent.empty_iff (hnext.lt_max_of_holds hsize)).mpr ⟨?_, fun position hholds ↦ ?_⟩
    · exact hpush.eof.trans (by simp [takesEnd, hwindow, hwindow.le])
    · exact (hall position ((hsame position).mp hholds)).trans_le hpush.progress
  refine ⟨hpush.ended.trans (by simp [hwindow, hempty]), le_antisymm ?_ hpush.progress⟩
  by_contra hmore
  exact h.consistent.not_holds_assembledBytes ((hsame _).mp (.inl (not_le.mp hmore)))

/-- If end marks without data come only after the last byte, the output ends exactly at the end of
the stream: not before all bytes are assembled, and then as soon as an end mark has been taken.

The condition is needed.  When nothing waits and bytes are missing, an end mark without data ends
the output on the spot. -/
theorem ends_exactly_at_end_when_anchored (stream : List UInt8) (capacity : ℕ) (calls : List Call)
    (hsize : stream.length < Word.size)
    (h : Admissible step
      (fun reassembler call ↦ (call.Excerpt stream ∧ call.EndsAt stream) ∧
        EndAnchored stream reassembler call) (new capacity) calls) :
    let past := trace step (new capacity) calls
    let final := run step (new capacity) calls
    (final.output.inputEnded = true → final.assembledBytes = stream.length) ∧
      (final.assembledBytes = stream.length → EndTaken past → final.output.inputEnded = true) ∧
      (final.unassembledBytes = 0 → final.assembledBytes < stream.length →
        stream.length < final.capacity + final.output.bytesRead →
        (final.step (.push [] stream.length true)).output.inputEnded = true ∧
          (final.step (.push [] stream.length true)).assembledBytes < stream.length) := by
  have hending : Ending stream (trace step (new capacity) calls) (run step (new capacity) calls) ∧
      Anchored stream (run step (new capacity) calls) := by
    refine h.trace_invariant (fun past state ↦ Ending stream past state ∧ Anchored stream state)
      ?_ ?_
    · rintro past state call ⟨hpast, hanchored⟩ ⟨⟨hexcerpt, hends⟩, hcall⟩
      exact ⟨hpast.step hsize hexcerpt,
        hanchored.step hpast.delivered hsize hexcerpt hends hcall⟩
    · refine ⟨⟨⟨consistent_new capacity, spells_new stream capacity, fun position ↦ ?_⟩, ?_, nofun⟩,
        ⟨nofun, nofun⟩⟩
      · simp [Accepted, Holds, new]
      · simp [EndTaken, new]
  obtain ⟨hpast, hanchored⟩ := hending
  refine ⟨hanchored.whole, fun hall htaken ↦ hpast.complete (hpast.taken.mpr htaken) hall, ?_⟩
  intro hnone hmissing hwindow
  obtain ⟨hended, hassembled⟩ := hpast.delivered.empty_end_mark hsize hnone hwindow
  exact ⟨hended, hassembled.trans_lt hmissing⟩

theorem ends_exactly_at_end_when_anchored_out_of_order :
    let calls := [.push [98] 1 true, .push [97] 0 false]
    Admissible step (fun reassembler call ↦ (call.Excerpt [97, 98] ∧ call.EndsAt [97, 98]) ∧
      EndAnchored [97, 98] reassembler call) (new 8) calls ∧
      ((run step (new 8) calls).output.inputEnded = true →
        (run step (new 8) calls).assembledBytes = 2) := by
  have h : Admissible step (fun reassembler call ↦ (call.Excerpt [97, 98] ∧ call.EndsAt [97, 98]) ∧
      EndAnchored [97, 98] reassembler call) (new 8) [.push [98] 1 true, .push [97] 0 false] := by
    decide
  exact ⟨h, (ends_exactly_at_end_when_anchored [97, 98] 8 _ (by decide) h).1⟩

/-- An end mark that arrives alone before the two bytes it ends: the output ends with no byte. -/
theorem lone_end_mark_ends_output_early :
    Admissible step (fun _ call ↦ call.Excerpt [97, 98] ∧ call.EndsAt [97, 98]) (new 8)
        [.push [] 2 true] ∧
      (run step (new 8) [.push [] 2 true]).output.inputEnded = true ∧
      (run step (new 8) [.push [] 2 true]).assembledBytes = 0 := by
  decide

end Sponge.StreamReassembler
