import Sponge.Stream.ReassemblerRuns
import Sponge.TCP.SenderEmission
import Sponge.TCP.TCPReceiver

/-!
# What the receiver makes of honest segments

If every segment that arrives is a slice of one numbered sequence, and its number is near enough to
be recovered from 32 bits, then the receiver places each payload where it belongs.  Its output is an
initial part of the stream that the peer numbers, its acknowledgment number never moves back, and it
counts the end of the stream only once.
-/

namespace Sponge.TCPReceiver

open StreamReassembler TCPSender

variable {receiver opened : TCPReceiver} {segment : TCPSegment} {isn : WrappingInt32}
  {stream seen : List UInt8} {absSeqno : ℕ}

/-! ## An incoming segment -/

def index (receiver : TCPReceiver) (isn : WrappingInt32) (segment : TCPSegment) : ℕ :=
  Word.sub (unwrap segment.header.seqno isn receiver.absAckno) (!segment.header.syn).toNat

def push (receiver : TCPReceiver) (isn : WrappingInt32) (segment : TCPSegment) : TCPReceiver :=
  { receiver with
    reassembler := receiver.reassembler.pushSubstring segment.payload.str
      (receiver.index isn segment) segment.header.fin }

/-- The conditions under which the receiver hands a segment to the reassembler. -/
structure Pushes (receiver : TCPReceiver) (isn : WrappingInt32) (segment : TCPSegment) : Prop where
  isn_eq : receiver.isn = some isn
  running : receiver.reassembler.output.ended = false
  window : unwrap segment.header.seqno isn receiver.absAckno <
      receiver.absAckno + receiver.windowSize ∨ segment.lengthInSequenceSpace = 0

theorem acceptSegment_cases (receiver : TCPReceiver) (segment : TCPSegment) :
    (receiver.acceptSegment segment).1 = receiver ∨
      ∃ isn, Pushes receiver isn segment ∧
        (receiver.acceptSegment segment).1 = receiver.push isn segment := by
  unfold acceptSegment
  cases hisn : receiver.isn with
  | none => exact .inl rfl
  | some isn =>
    dsimp only
    split_ifs with hfin hrunning hold hbeyond
    · exact .inl rfl
    · exact .inl rfl
    · exact .inl rfl
    · refine .inr ⟨isn, ⟨hisn, ?_, ?_⟩, by simp [push, index, hisn]⟩
      · have hboth := Bool.and_eq_true_iff.mp hrunning
        simpa [streamOut, ByteStream.inputEnded] using hboth.2
      · by_cases hinside : unwrap segment.header.seqno isn receiver.absAckno <
          receiver.absAckno + receiver.windowSize
        · exact .inl hinside
        · rw [not_and, not_not] at hbeyond
          exact .inr (hbeyond (not_lt.mp hinside)).2
    · exact .inl rfl

/-- `opened` is the receiver in the state in which it looks at the rest of the segment: the first SYN
has opened it before that, and any other SYN is refused. -/
def Opens (receiver : TCPReceiver) (segment : TCPSegment) (opened : TCPReceiver) : Prop :=
  segment.header.syn = false ∧ opened = receiver ∨
    segment.header.syn = true ∧ receiver.isn = none ∧
      opened = { receiver with isn := some segment.header.seqno }

/-- The rule for an incoming segment: a first SYN opens the receiver, and a segment may be handed to
the reassembler of an open receiver. -/
theorem segmentReceived_rule (inv : TCPReceiver → Prop) (h : inv receiver)
    (hopen : segment.header.syn = true → receiver.isn = none →
      inv { receiver with isn := some segment.header.seqno })
    (hpush : ∀ opened isn, inv opened → Opens receiver segment opened →
      Pushes opened isn segment → inv (opened.push isn segment)) :
    inv (receiver.segmentReceived segment).1 := by
  have haccept {opened : TCPReceiver} (hopened : inv opened)
      (hopens : Opens receiver segment opened) :
      inv (opened.acceptSegment segment).1 := by
    cases acceptSegment_cases opened segment with
    | inl hsame =>
      rw [hsame]
      exact hopened
    | inr hpushed =>
      obtain ⟨isn, hpushes, heq⟩ := hpushed
      rw [heq]
      exact hpush opened isn hopened hopens hpushes
  unfold segmentReceived
  split_ifs with hsyn hlisten hlength
  · have hnone : receiver.isn = none := by simpa [listen, ackno] using hlisten
    exact hopen hsyn hnone
  · have hnone : receiver.isn = none := by simpa [listen, ackno] using hlisten
    exact haccept (hopen hsyn hnone) (.inr ⟨hsyn, hnone, rfl⟩)
  · exact h
  · exact haccept h (.inl ⟨Bool.eq_false_iff.mpr hsyn, rfl⟩)

/-! ## Honest segments -/

/-- The segment is an excerpt, from number `absSeqno` on, of SYN and a stream after it. -/
structure Excerpt (isn : WrappingInt32) (stream : List UInt8) (absSeqno : ℕ)
    (segment : TCPSegment) : Prop where
  seqno : segment.header.seqno = wrap absSeqno isn
  syn : segment.header.syn = true → absSeqno = 0
  opening : absSeqno = 0 → 0 < segment.lengthInSequenceSpace → segment.header.syn = true
  payload : segment.payload.str <+: stream.drop (absSeqno - 1)

/-- What a sender transmits are excerpts of its stream. -/
theorem excerpt_of_slice (h : Slice isn stream absSeqno segment) :
    Excerpt isn stream absSeqno segment :=
  ⟨h.seqno, h.syn, h.opening, h.payload⟩

/-- The receiver has seen slices of one stream only. -/
structure Receives (isn : WrappingInt32) (stream seen : List UInt8) (receiver : TCPReceiver) :
    Prop where
  consistent : Consistent receiver.reassembler
  spells : Spells stream seen receiver.reassembler
  bounded : ∀ position, receiver.reassembler.Holds position → position < Word.max
  isn_eq : ∀ number, receiver.isn = some number → number = isn
  unopened : receiver.isn = none →
    receiver.reassembler.assembledBytes = 0 ∧ receiver.reassembler.eof = false
  closed : receiver.reassembler.empty = true → receiver.reassembler.output.ended = true

theorem receives_new (isn : WrappingInt32) (stream : List UInt8) (capacity : ℕ) :
    Receives isn stream [] (new capacity) where
  consistent := consistent_new capacity
  spells := spells_new stream capacity
  bounded := by simp [new, StreamReassembler.new, Holds]
  isn_eq := by simp [new]
  unopened _ := ⟨rfl, rfl⟩
  closed := by simp [new, StreamReassembler.new, StreamReassembler.empty]

theorem wrap_zero (isn : WrappingInt32) : wrap 0 isn = isn := by
  simp [wrap, WrappingInt32.advance]

/-- The condition under which the number of a slice can be recovered: it is within half the 32-bit
space of the acknowledgment number, and the slice fits into the 64-bit numbering. -/
def Recoverable (receiver : TCPReceiver) (absSeqno : ℕ) (segment : TCPSegment) : Prop :=
  Near absSeqno receiver.absAckno ∧ absSeqno + segment.lengthInSequenceSpace < Word.size

instance (receiver : TCPReceiver) (absSeqno : ℕ) (segment : TCPSegment) :
    Decidable (receiver.Recoverable absSeqno segment) :=
  inferInstanceAs (Decidable (_ ∧ _))

theorem Receives.open (h : Receives isn stream seen receiver)
    (hexcerpt : Excerpt isn stream absSeqno segment) (hsyn : segment.header.syn = true) :
    Receives isn stream seen { receiver with isn := some segment.header.seqno } where
  consistent := h.consistent
  spells := h.spells
  bounded := h.bounded
  isn_eq number hnumber := by
    rw [← Option.some.inj hnumber, hexcerpt.seqno, hexcerpt.syn hsyn, wrap_zero]
  unopened := by simp
  closed := h.closed

/-- Opening moves the acknowledgment number to one, which is near the number of the SYN. -/
theorem Receives.near_of_opens (h : Receives isn stream seen receiver)
    (hexcerpt : Excerpt isn stream absSeqno segment) (hnear : Near absSeqno receiver.absAckno)
    (hopens : Opens receiver segment opened) :
    Near absSeqno opened.absAckno := by
  cases hopens with
  | inl hsame => rwa [hsame.2]
  | inr hfirst =>
    obtain ⟨hsyn, hnone, rfl⟩ := hfirst
    obtain ⟨hassembled, heof⟩ := h.unopened hnone
    rw [hexcerpt.syn hsyn]
    have hone : TCPReceiver.absAckno { receiver with isn := some segment.header.seqno } = 1 := by
      simp [absAckno, StreamReassembler.empty, hassembled, heof]
    rw [hone]
    decide

theorem Receives.of_opens (h : Receives isn stream seen receiver)
    (hexcerpt : Excerpt isn stream absSeqno segment)
    (hopens : Opens receiver segment opened) :
    Receives isn stream seen opened := by
  cases hopens with
  | inl hsame => rwa [hsame.2]
  | inr hfirst =>
    rw [hfirst.2.2]
    exact h.open hexcerpt hfirst.1

/-- The receiver recovers the number of a segment that is near enough. -/
theorem unwrap_seqno (hexcerpt : Excerpt isn stream absSeqno segment)
    (hnear : Near absSeqno receiver.absAckno)
    (hword : absSeqno + segment.lengthInSequenceSpace < Word.size) :
    unwrap segment.header.seqno isn receiver.absAckno = absSeqno := by
  rw [hexcerpt.seqno]
  exact unwrap_wrap isn ((Nat.le_add_right _ _).trans_lt hword) hnear

/-- An honest segment is placed where it belongs.  The exception is a segment that occupies no
sequence numbers at all. -/
theorem index_eq (hexcerpt : Excerpt isn stream absSeqno segment)
    (hnear : Near absSeqno receiver.absAckno)
    (hword : absSeqno + segment.lengthInSequenceSpace < Word.size) :
    segment.lengthInSequenceSpace = 0 ∨
      receiver.index isn segment = absSeqno - 1 ∧
        receiver.index isn segment + segment.payload.size + segment.header.fin.toNat + 1 =
          absSeqno + segment.lengthInSequenceSpace := by
  have hlength := segment.lengthInSequenceSpace_eq
  unfold index
  rw [unwrap_seqno hexcerpt hnear hword]
  cases hsyn : segment.header.syn with
  | true =>
    rw [hsyn] at hlength
    rw [hexcerpt.syn hsyn]
    simp only [Bool.toNat_true] at hlength
    refine .inr ⟨rfl, ?_⟩
    rw [Bool.not_true, Bool.toNat_false, Word.sub_zero]
    omega
  | false =>
    rw [hsyn] at hlength
    simp only [Bool.not_false, Bool.toNat_true, Bool.toNat_false] at hlength ⊢
    by_cases hzero : absSeqno = 0
    · -- Only a SYN has the number zero and a positive length.
      have hshort := mt (hexcerpt.opening hzero) (Bool.eq_false_iff.mp hsyn)
      omega
    · rw [Word.sub_of_le (Nat.one_le_iff_ne_zero.mpr hzero)]
      omega

/-- The payload is placed where it belongs in the stream. -/
theorem payload_prefix (hexcerpt : Excerpt isn stream absSeqno segment)
    (hnear : Near absSeqno receiver.absAckno)
    (hword : absSeqno + segment.lengthInSequenceSpace < Word.size) :
    segment.payload.str <+: stream.drop (receiver.index isn segment) := by
  cases index_eq hexcerpt hnear hword with
  | inl hempty =>
    have hlength := segment.lengthInSequenceSpace_eq
    have hsize : segment.payload.str.length = segment.payload.size := rfl
    have hnil : segment.payload.str = [] := List.length_eq_zero_iff.mp (by omega)
    rw [hnil]
    exact List.nil_prefix
  | inr hindex =>
    rw [hindex.1]
    exact hexcerpt.payload

/-- All positions of a payload are numbers of 64 bits. -/
theorem lt_max_of_mem_payload {position : ℕ} (hexcerpt : Excerpt isn stream absSeqno segment)
    (hnear : Near absSeqno receiver.absAckno)
    (hword : absSeqno + segment.lengthInSequenceSpace < Word.size)
    (hlower : receiver.index isn segment ≤ position)
    (hupper : position < receiver.index isn segment + segment.payload.str.length) :
    position < Word.max := by
  have hplace := index_eq hexcerpt hnear hword
  have hlength := segment.lengthInSequenceSpace_eq
  have hsize : segment.payload.str.length = segment.payload.size := rfl
  change absSeqno + _ < 2 ^ 64 at hword
  change position < 2 ^ 64 - 1
  omega

/-- A FIN occupies a sequence number, so its segment is placed where it belongs. -/
theorem index_add_length_of_fin (hexcerpt : Excerpt isn stream absSeqno segment)
    (hnear : Near absSeqno receiver.absAckno)
    (hword : absSeqno + segment.lengthInSequenceSpace < Word.size)
    (hfin : segment.header.fin = true)
    (hlast : absSeqno + segment.lengthInSequenceSpace = stream.length + 2) :
    receiver.index isn segment + segment.payload.str.length = stream.length := by
  have hlength := segment.lengthInSequenceSpace_eq
  have hsize : segment.payload.str.length = segment.payload.size := rfl
  have hplace := index_eq hexcerpt hnear hword
  rw [hfin, Bool.toNat_true] at hlength hplace
  omega

/-- Handing a segment to the reassembler keeps the receiver on the stream. -/
theorem Receives.push (h : Receives isn stream seen receiver)
    (hexcerpt : Excerpt isn stream absSeqno segment) (hnear : Near absSeqno receiver.absAckno)
    (hword : absSeqno + segment.lengthInSequenceSpace < Word.size)
    (hpushes : Pushes receiver isn segment) :
    Receives isn stream seen (receiver.push isn segment) := by
  have hpushed := pushSubstring_spec h.consistent segment.payload.str (receiver.index isn segment)
    segment.header.fin
  constructor
  case consistent => exact hpushed.consistent
  case spells =>
    apply h.spells.pushSubstring h.consistent
    exact payload_prefix hexcerpt hnear hword
  case bounded =>
    intro position hholds
    cases (hpushed.holds position).mp hholds with
    | inl hold => exact h.bounded position hold
    | inr hnew => exact lt_max_of_mem_payload hexcerpt hnear hword hnew.1 hnew.2.1
  case isn_eq => exact h.isn_eq
  case unopened =>
    intro hnone
    have hsome : receiver.isn = none := hnone
    rw [hpushes.isn_eq] at hsome
    contradiction
  case closed =>
    intro hempty
    by_cases hinside : receiver.index isn segment <
        receiver.reassembler.capacity + receiver.reassembler.output.bytesRead
    · have hends : (receiver.push isn segment).reassembler.output.ended = _ := hpushed.ended
      rw [hends]
      exact Bool.or_eq_true_iff.mpr (.inr (Bool.and_eq_true_iff.mpr
        ⟨decide_eq_true hinside, hempty⟩))
    · have hsame : (receiver.push isn segment).reassembler = receiver.reassembler :=
        pushSubstring_of_le (not_lt.mp hinside) _ _
      rw [hsame] at hempty ⊢
      exact h.closed hempty

/-- Honest segments keep the receiver honest. -/
theorem Receives.segmentReceived (h : Receives isn stream seen receiver)
    (hexcerpt : Excerpt isn stream absSeqno segment)
    (hrecoverable : receiver.Recoverable absSeqno segment) :
    Receives isn stream seen (receiver.segmentReceived segment).1 := by
  apply segmentReceived_rule (Receives isn stream seen) h
  · exact fun hsyn _ ↦ h.open hexcerpt hsyn
  · intro opened number hopened hopens hpushes
    have hnear := h.near_of_opens hexcerpt hrecoverable.1 hopens
    have hnumber := hopened.isn_eq number hpushes.isn_eq
    rw [hnumber] at hpushes ⊢
    exact hopened.push hexcerpt hnear hrecoverable.2 hpushes

theorem Receives.extend (h : Receives isn stream seen receiver) (more : List UInt8) :
    Receives isn (stream ++ more) seen receiver :=
  ⟨h.consistent, h.spells.extend h.consistent more, h.bounded, h.isn_eq, h.unopened, h.closed⟩

theorem Receives.setError (h : Receives isn stream seen receiver) :
    Receives isn stream seen { receiver with
      reassembler := { receiver.reassembler with
        output := receiver.reassembler.output.setError } } where
  consistent := h.consistent.setError
  spells := ⟨h.spells.seen_length, h.spells.output, h.spells.waiting⟩
  bounded := h.bounded
  isn_eq := h.isn_eq
  unopened := h.unopened
  closed := h.closed

theorem Receives.pop (h : Receives isn stream seen receiver) (len : ℕ) :
    Receives isn stream (seen ++ receiver.reassembler.output.contents.take len)
      { receiver with reassembler := { receiver.reassembler with
        output := receiver.reassembler.output.popOutput len } } := by
  refine ⟨h.consistent.popOutput len, h.spells.popOutput h.consistent len, h.bounded, h.isn_eq,
    h.unopened, fun hempty ↦ ?_⟩
  exact (ByteStream.popOutput_frame _ _).2.2.1.trans (h.closed hempty)

theorem Receives.read (h : Receives isn stream seen receiver) (len : ℕ) :
    Receives isn stream (seen ++ (receiver.reassembler.output.read len).1)
      { receiver with reassembler := { receiver.reassembler with
        output := (receiver.reassembler.output.read len).2 } } := by
  have hvalid := h.consistent.assembling.valid
  rw [ByteStream.read_fst hvalid, ByteStream.read_snd hvalid]
  exact h.pop len

/-! ## Acknowledgments -/

/-- The receiver acknowledges no more than there is. -/
theorem Receives.absAckno_le_length (h : Receives isn stream seen receiver) :
    receiver.absAckno ≤ stream.length + 2 := by
  have hassembled := h.spells.assembledBytes_le h.consistent
  have hsyn := receiver.isn.isSome.toNat_le
  have hempty := receiver.reassembler.empty.toNat_le
  unfold absAckno
  omega

/-- The numbers of a short stream can always be recovered. -/
theorem Receives.recoverable_of_lt (h : Receives isn stream seen receiver)
    (hslice : Slice isn stream absSeqno segment) (hshort : stream.length < 2 ^ 31 - 2) :
    receiver.Recoverable absSeqno segment := by
  have hackno := h.absAckno_le_length
  have hlast := hslice.last_le
  unfold Recoverable Near Word.size
  omega

/-- While the output runs, the end of the stream is not counted. -/
theorem Receives.empty_eq_false (h : Receives isn stream seen receiver)
    (hrunning : receiver.reassembler.output.ended = false) :
    receiver.reassembler.empty = false := by
  by_contra hempty
  rw [h.closed (Bool.not_eq_false _ ▸ hempty)] at hrunning
  contradiction

/-- The acknowledgment number does not go back. -/
theorem Receives.absAckno_push (h : Receives isn stream seen receiver)
    (hpushes : Pushes receiver isn segment) :
    receiver.absAckno ≤ (receiver.push isn segment).absAckno := by
  have hprogress := (pushSubstring_spec h.consistent segment.payload.str
    (receiver.index isn segment) segment.header.fin).progress
  unfold absAckno
  rw [h.empty_eq_false hpushes.running]
  exact Nat.add_le_add (Nat.add_le_add_right hprogress _) (Nat.zero_le _)

/-- The acknowledgment number never moves back. -/
theorem Receives.absAckno_le (h : Receives isn stream seen receiver)
    (hexcerpt : Excerpt isn stream absSeqno segment) :
    receiver.absAckno ≤ (receiver.segmentReceived segment).1.absAckno := by
  apply segmentReceived_rule (fun after ↦ receiver.absAckno ≤ after.absAckno) le_rfl
  · intro _ hnone
    simp [absAckno, hnone]
  · intro opened number hle hopens hpushes
    have hopened := h.of_opens hexcerpt hopens
    have hnumber := hopened.isn_eq number hpushes.isn_eq
    rw [hnumber] at hpushes ⊢
    exact hle.trans (hopened.absAckno_push hpushes)

/-- The receiver has seen numbers below `next` only, and a FIN only if `finSent` vouches for it. -/
structure Reaches (next : ℕ) (finSent : Bool) (receiver : TCPReceiver) : Prop where
  held : ∀ position, receiver.reassembler.Holds position → position + 1 < next
  opened : receiver.isn.isSome = true → 0 < next
  ended : receiver.reassembler.eof = true → finSent = true

variable {next : ℕ} {finSent : Bool}

theorem reaches_new (next : ℕ) (finSent : Bool) (capacity : ℕ) :
    Reaches next finSent (new capacity) where
  held := by simp [new, StreamReassembler.new, Holds]
  opened := by simp [new]
  ended := by simp [new, StreamReassembler.new]

/-- More can be sent later. -/
theorem Reaches.mono {later : ℕ} {finLater : Bool} (h : Reaches next finSent receiver)
    (hnext : next ≤ later) (hfin : finSent = true → finLater = true) :
    Reaches later finLater receiver :=
  ⟨fun position hholds ↦ (h.held position hholds).trans_le hnext,
    fun hsome ↦ (h.opened hsome).trans_le hnext, fun heof ↦ hfin (h.ended heof)⟩

theorem Reaches.push (h : Reaches next finSent receiver) (hconsistent : Consistent receiver.reassembler)
    (hexcerpt : Excerpt isn stream absSeqno segment) (hnear : Near absSeqno receiver.absAckno)
    (hword : absSeqno + segment.lengthInSequenceSpace < Word.size)
    (hlast : absSeqno + segment.lengthInSequenceSpace ≤ next)
    (hfin : segment.header.fin = true → finSent = true) :
    Reaches next finSent (receiver.push isn segment) := by
  have hpushed := pushSubstring_spec hconsistent segment.payload.str (receiver.index isn segment)
    segment.header.fin
  refine ⟨fun position hholds ↦ ?_, h.opened, fun heof ↦ ?_⟩
  · cases (hpushed.holds position).mp hholds with
    | inl hold => exact h.held position hold
    | inr hnew =>
      have hplace := index_eq hexcerpt hnear hword
      have hlength := segment.lengthInSequenceSpace_eq
      have hsize : segment.payload.str.length = segment.payload.size := rfl
      have hlower := hnew.1
      have hupper := hnew.2.1
      omega
  · have htaken := hpushed.eof.symm.trans heof
    cases Bool.or_eq_true_iff.mp htaken with
    | inl hold => exact h.ended hold
    | inr hnew => exact hfin (Bool.and_eq_true_iff.mp hnew).1

/-- A segment whose numbers were in use brings nothing beyond them. -/
theorem Reaches.segmentReceived (h : Reaches next finSent receiver)
    (hreceives : Receives isn stream seen receiver)
    (hexcerpt : Excerpt isn stream absSeqno segment)
    (hrecoverable : receiver.Recoverable absSeqno segment)
    (hlast : absSeqno + segment.lengthInSequenceSpace ≤ next)
    (hfin : segment.header.fin = true → finSent = true) :
    Reaches next finSent (receiver.segmentReceived segment).1 := by
  apply segmentReceived_rule (Reaches next finSent) h
  · intro hsyn _
    refine ⟨h.held, fun _ ↦ ?_, h.ended⟩
    rw [segment.lengthInSequenceSpace_eq, hsyn, Bool.toNat_true] at hlast
    omega
  · intro opened number hopened hopens hpushes
    have hbefore := hreceives.of_opens hexcerpt hopens
    rw [hbefore.isn_eq number hpushes.isn_eq]
    exact hopened.push hbefore.consistent hexcerpt
      (hreceives.near_of_opens hexcerpt hrecoverable.1 hopens) hrecoverable.2 hlast hfin

/-- The receiver acknowledges only what has been sent. -/
theorem Reaches.absAckno_le (h : Reaches next finSent receiver)
    (hreceives : Receives isn stream seen receiver)
    (hfin : finSent = true → next = stream.length + 2) : receiver.absAckno ≤ next := by
  have hassembled := hreceives.spells.assembledBytes_le hreceives.consistent
  have hsyn := receiver.isn.isSome.toNat_le
  unfold absAckno
  cases hempty : receiver.reassembler.empty with
  | true =>
    have heof : receiver.reassembler.eof = true := (Bool.and_eq_true_iff.mp hempty).2
    have hnext := hfin (h.ended heof)
    rw [Bool.toNat_true]
    omega
  | false =>
    rw [Bool.toNat_false]
    cases hisn : receiver.isn with
    | none =>
      rw [(hreceives.unopened hisn).1]
      exact Nat.zero_le _
    | some number =>
      have hpositive := h.opened (by rw [hisn]; rfl)
      by_cases hzero : receiver.reassembler.assembledBytes = 0
      · rw [hzero]
        exact hpositive
      · have hheld := h.held (receiver.reassembler.assembledBytes - 1) (.inl (by omega))
        simp only [Option.isSome_some, Bool.toNat_true]
        omega

/-! ## The end of the stream -/

/-- A FIN without data is handed to the reassembler only when the last byte of the stream is there
already. -/
def FinAnchored (stream : List UInt8) (receiver : TCPReceiver) (absSeqno : ℕ)
    (segment : TCPSegment) : Prop :=
  segment.header.fin = true → segment.payload.str = [] → receiver.synRecv = true →
    absSeqno < receiver.absAckno + receiver.windowSize →
    stream = [] ∨ receiver.reassembler.Holds (stream.length - 1)

instance (stream : List UInt8) (receiver : TCPReceiver) (absSeqno : ℕ) (segment : TCPSegment) :
    Decidable (FinAnchored stream receiver absSeqno segment) :=
  inferInstanceAs (Decidable (_ → _ → _ → _ → _))

/-- The receiver has taken the end of the stream only from a FIN that `finSent` vouches for, and with
the last byte. -/
structure Ends (stream : List UInt8) (finSent : Bool) (receiver : TCPReceiver) : Prop where
  anchored : Anchored stream receiver.reassembler
  marked : receiver.reassembler.output.ended = true → receiver.reassembler.eof = true
  sent : receiver.reassembler.eof = true → finSent = true

theorem ends_new (stream : List UInt8) (finSent : Bool) (capacity : ℕ) :
    Ends stream finSent (new capacity) where
  anchored := ⟨by simp [new, StreamReassembler.new], by
    simp [new, StreamReassembler.new, ByteStream.new]⟩
  marked := by simp [new, StreamReassembler.new, ByteStream.new]
  sent := by simp [new, StreamReassembler.new]

/-- A FIN at its place ends the output with the last byte. -/
theorem Ends.push {finSent : Bool} (h : Ends stream finSent receiver)
    (hreceives : Receives isn stream seen receiver)
    (hexcerpt : Excerpt isn stream absSeqno segment) (hnear : Near absSeqno receiver.absAckno)
    (hword : absSeqno + segment.lengthInSequenceSpace < Word.size)
    (hpushes : Pushes receiver isn segment)
    (hfin : segment.header.fin = true →
      finSent = true ∧ absSeqno + segment.lengthInSequenceSpace = stream.length + 2)
    (hanchored : segment.header.fin = true → segment.payload.str = [] →
      absSeqno < receiver.absAckno + receiver.windowSize →
      stream = [] ∨ receiver.reassembler.Holds (stream.length - 1)) :
    Ends stream finSent (receiver.push isn segment) := by
  have hpushed := pushSubstring_spec hreceives.consistent segment.payload.str
    (receiver.index isn segment) segment.header.fin
  have hafter := hreceives.push hexcerpt hnear hword hpushes
  constructor
  case anchored =>
    apply h.anchored.pushSubstring hreceives.consistent hafter.spells hafter.bounded
    · intro hset
      exact index_add_length_of_fin hexcerpt hnear hword hset (hfin hset).2
    · intro hnil htakes
      have hset := (Bool.and_eq_true_iff.mp htakes).1
      apply hanchored hset hnil
      have hlength := segment.lengthInSequenceSpace_eq
      rw [hset, Bool.toNat_true] at hlength
      have hwindow := hpushes.window
      rw [unwrap_seqno hexcerpt hnear hword] at hwindow
      omega
  case marked =>
    intro hended
    cases Bool.or_eq_true_iff.mp (hpushed.ended.symm.trans hended) with
    | inl hold =>
      rw [hpushes.running] at hold
      contradiction
    | inr hnew =>
      have hempty := (Bool.and_eq_true_iff.mp hnew).2
      exact ((hafter.consistent.empty_iff hafter.bounded).mp hempty).1
  case sent =>
    intro heof
    cases Bool.or_eq_true_iff.mp (hpushed.eof.symm.trans heof) with
    | inl hold => exact h.sent hold
    | inr htakes => exact (hfin (Bool.and_eq_true_iff.mp htakes).1).1

/-- Honest segments keep this, unless a FIN without data overtakes the end of the stream. -/
theorem Ends.segmentReceived {finSent : Bool} (h : Ends stream finSent receiver)
    (hreceives : Receives isn stream seen receiver)
    (hexcerpt : Excerpt isn stream absSeqno segment)
    (hrecoverable : receiver.Recoverable absSeqno segment)
    (hfin : segment.header.fin = true →
      finSent = true ∧ absSeqno + segment.lengthInSequenceSpace = stream.length + 2)
    (hanchored : FinAnchored stream receiver absSeqno segment) :
    Ends stream finSent (receiver.segmentReceived segment).1 := by
  apply segmentReceived_rule (Ends stream finSent) h
  · exact fun _ _ ↦ ⟨h.anchored, h.marked, h.sent⟩
  · intro opened number hends hopens hpushes
    have hnear := hreceives.near_of_opens hexcerpt hrecoverable.1 hopens
    have hopened := hreceives.of_opens hexcerpt hopens
    have hnumber := hopened.isn_eq number hpushes.isn_eq
    rw [hnumber] at hpushes ⊢
    apply hends.push hopened hexcerpt hnear hrecoverable.2 hpushes hfin
    intro hset hnil hwindow
    cases hopens with
    | inl hsame =>
      rw [hsame.2] at hpushes hwindow ⊢
      refine hanchored hset hnil ?_ hwindow
      simp [synRecv, ackno, hpushes.isn_eq, streamOut, ByteStream.inputEnded, hpushes.running]
    | inr hfirst =>
      -- A SYN that carries the FIN and no data is the whole of an empty stream.
      left
      have hlast := (hfin hset).2
      have hlength := segment.lengthInSequenceSpace_eq
      rw [hexcerpt.syn hfirst.1, hlength, hset, hfirst.1, Buffer.size, hnil] at hlast
      simpa using hlast.symm

theorem Ends.setError {finSent : Bool} (h : Ends stream finSent receiver) :
    Ends stream finSent { receiver with
      reassembler := { receiver.reassembler with
        output := receiver.reassembler.output.setError } } :=
  ⟨⟨h.anchored.held, h.anchored.whole⟩, h.marked, h.sent⟩

theorem Ends.read {finSent : Bool} (h : Ends stream finSent receiver)
    (hvalid : receiver.reassembler.output.Valid) (len : ℕ) :
    Ends stream finSent { receiver with
      reassembler := { receiver.reassembler with
        output := (receiver.reassembler.output.read len).2 } } := by
  rw [ByteStream.read_snd hvalid]
  refine ⟨h.anchored.popOutput len, fun hended ↦ h.marked ?_, h.sent⟩
  exact (ByteStream.popOutput_frame _ _).2.2.1.symm.trans hended

/-- Before the FIN has been sent, more bytes can be accepted. -/
theorem Ends.extend (h : Ends stream false receiver) (more : List UInt8) (finSent : Bool) :
    Ends (stream ++ more) finSent receiver := by
  have hunmarked : receiver.reassembler.eof ≠ true := fun heof ↦ Bool.false_ne_true (h.sent heof)
  exact ⟨⟨fun heof ↦ absurd heof hunmarked, fun hended ↦ absurd (h.marked hended) hunmarked⟩,
    h.marked, fun heof ↦ absurd heof hunmarked⟩

/-- At the end of the output, the whole stream has been assembled. -/
theorem Ends.assembled {finSent : Bool} (h : Ends stream finSent receiver)
    (hreceives : Receives isn stream seen receiver)
    (hended : receiver.reassembler.output.ended = true) :
    finSent = true ∧ receiver.reassembler.assembledBytes = stream.length ∧
      seen ++ receiver.reassembler.output.contents = stream := by
  have hwhole := h.anchored.whole hended
  refine ⟨h.sent (h.marked hended), hwhole, ?_⟩
  rw [hreceives.spells.output, hwhole, List.take_length]

/-- The acknowledgment number counts assembled bytes only, and the end only of a whole stream. -/
theorem Ends.absAckno_le {finSent : Bool} (h : Ends stream finSent receiver)
    (hreceives : Receives isn stream seen receiver) :
    receiver.absAckno ≤ 1 + receiver.reassembler.assembledBytes +
      if finSent = true ∧ receiver.reassembler.assembledBytes = stream.length then 1 else 0 := by
  have hsyn := receiver.isn.isSome.toNat_le
  unfold absAckno
  cases hempty : receiver.reassembler.empty with
  | false =>
    rw [Bool.toNat_false]
    omega
  | true =>
    obtain ⟨hsent, hwhole, -⟩ := h.assembled hreceives (hreceives.closed hempty)
    rw [if_pos ⟨hsent, hwhole⟩, Bool.toNat_true]
    omega

end Sponge.TCPReceiver
