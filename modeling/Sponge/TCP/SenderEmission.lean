import Sponge.TCP.SenderInvariant

/-!
# What the sender transmits

The outgoing stream, with a SYN before it and a FIN after it, is numbered from zero.  Every segment
that the sender puts into its queue is a slice of that sequence under its own number, whether it is
sent for the first time or again.  The first transmissions cover the sequence without gap or overlap,
and a FIN stands only at its end.
-/

namespace Sponge.TCPSender

open Execution Tiling

variable {sender after : TCPSender} {segment : TCPSegment} {windowSize absSeqno : ℕ}
  {isn : WrappingInt32} {accepted : List UInt8}

/-! ## Properties of all segments -/

/-- All segments that are outstanding or in the queue have a property. -/
structure Carries (property : ℕ → TCPSegment → Prop) (sender : TCPSender) : Prop where
  outstanding : ∀ entry ∈ sender.outstandingSegment, property entry.1 entry.2
  emitted : ∀ emission ∈ sender.segmentsOut, property emission.absSeqno emission.segment

theorem Carries.mono {property property' : ℕ → TCPSegment → Prop} (h : sender.Carries property)
    (himp : ∀ absSeqno segment, property absSeqno segment → property' absSeqno segment) :
    sender.Carries property' :=
  ⟨fun entry hentry ↦ himp _ _ (h.outstanding entry hentry),
    fun emission hemission ↦ himp _ _ (h.emitted emission hemission)⟩

theorem Carries.drain {property : ℕ → TCPSegment → Prop} (h : sender.Carries property) :
    Carries property { sender with segmentsOut := [] } :=
  ⟨h.outstanding, by simp⟩

/-- A retransmission repeats an outstanding segment, so only new segments and bare ones need to be
looked at. -/
theorem Carries.move {property : ℕ → TCPSegment → Prop} (h : sender.Carries property)
    (hmove : Move sender after)
    (hnew : ∀ windowSize segment, after = sender.sent segment →
      NextSegment sender windowSize segment → property sender.firstUnsent segment)
    (hbare : property sender.nextSeqno { header := { seqno := wrap sender.nextSeqno sender.isn } }) :
    after.Carries property := by
  have hqueue {absSeqno : ℕ} {segment : TCPSegment} {kind : Transmission}
      (hlast : property absSeqno segment) :
      ∀ emission ∈ sender.segmentsOut ++ [⟨segment, kind, absSeqno, 0⟩],
        property emission.absSeqno emission.segment := by
    intro emission hemission
    cases List.mem_append.mp hemission with
    | inl hold => exact h.emitted emission hold
    | inr heq => rw [List.mem_singleton.mp heq]; exact hlast
  cases hmove with
  | @send windowSize segment hwindow hwants hnext =>
    have hsent := hnew windowSize segment rfl hnext
    refine ⟨fun entry hentry ↦ ?_, hqueue hsent⟩
    cases OrderedKeys.mem_of_mem_insert hentry with
    | inl heq => rw [heq]; exact hsent
    | inr hold => exact h.outstanding entry hold
  | @acknowledge newAckno hnew hsent =>
    obtain ⟨bytes, heq, -⟩ := acknowledge_eq sender newAckno
    rw [heq]
    exact ⟨fun entry hentry ↦ h.outstanding entry ((List.dropWhile_sublist _).subset hentry),
      h.emitted⟩
  | @again oldest rest hfront =>
    have hmem : oldest ∈ sender.outstandingSegment := by
      rw [hfront]
      exact List.mem_cons_self
    exact ⟨h.outstanding, hqueue (h.outstanding oldest hmem)⟩
  | bare => exact ⟨h.outstanding, hqueue hbare⟩
  | adjust => exact ⟨h.outstanding, h.emitted⟩

/-! ## Slices of the stream -/

/-- The segment is a slice, from number `absSeqno` on, of SYN, the accepted bytes and FIN. -/
structure Slice (isn : WrappingInt32) (accepted : List UInt8) (absSeqno : ℕ)
    (segment : TCPSegment) : Prop where
  seqno : segment.header.seqno = wrap absSeqno isn
  syn : segment.header.syn = true → absSeqno = 0
  opening : absSeqno = 0 → 0 < segment.lengthInSequenceSpace → segment.header.syn = true
  payload : segment.payload.str <+: accepted.drop (absSeqno - 1)
  size_le : segment.payload.size ≤ TCPConfig.maxPayloadSize
  last_le : absSeqno + segment.lengthInSequenceSpace ≤ accepted.length + 2

/-- More bytes can be accepted later. -/
theorem Slice.extend (h : Slice isn accepted absSeqno segment) (more : List UInt8) :
    Slice isn (accepted ++ more) absSeqno segment where
  seqno := h.seqno
  syn := h.syn
  opening := h.opening
  payload := by
    apply h.payload.trans
    rw [List.drop_append]
    exact List.prefix_append _ _
  size_le := h.size_le
  last_le := by
    calc
      absSeqno + segment.lengthInSequenceSpace ≤ accepted.length + 2 := h.last_le
      _ ≤ (accepted ++ more).length + 2 := by
        rw [List.length_append]
        omega

/-- A byte of payload comes before the number that is left for the FIN. -/
theorem Slice.payload_le (h : Slice isn accepted absSeqno segment)
    (hsome : 0 < segment.payload.size) :
    absSeqno + segment.header.syn.toNat + segment.payload.size ≤ accepted.length + 1 := by
  have hlength : segment.payload.size ≤ accepted.length - (absSeqno - 1) := by
    rw [← List.length_drop]
    exact h.payload.length_le
  cases hsyn : segment.header.syn with
  | true =>
    have hzero := h.syn hsyn
    simp only [Bool.toNat_true]
    omega
  | false =>
    have hpositive : absSeqno ≠ 0 := by
      intro hzero
      have hopening := h.opening hzero (by rw [segment.lengthInSequenceSpace_eq]; omega)
      rw [hsyn] at hopening
      contradiction
    simp only [Bool.toNat_false]
    omega

/-- The stream holds what is left of the accepted bytes, and all segments are slices of them. -/
structure Slices (isn : WrappingInt32) (accepted : List UInt8) (sender : TCPSender) : Prop where
  isn_eq : sender.isn = isn
  valid : sender.stream.Valid
  written : sender.stream.byteWritten = accepted.length
  contents : sender.stream.contents = accepted.drop sender.stream.byteRead
  opened : sender.syn = true ↔ 0 < sender.nextSeqno
  unread : sender.syn = false → sender.stream.byteRead = 0
  next_le : sender.nextSeqno ≤ accepted.length + 2
  carried : sender.Carries (Slice isn accepted)

theorem slices_new (capacity : ℕ) (retxTimeout : UInt16) (fixedIsn : Option WrappingInt32)
    (randomIsn : WrappingInt32) :
    Slices (fixedIsn.getD randomIsn) [] (new capacity retxTimeout fixedIsn randomIsn) where
  isn_eq := rfl
  valid := ByteStream.valid_new capacity
  written := rfl
  contents := rfl
  opened := by simp [new]
  unread _ := rfl
  next_le := Nat.zero_le _
  carried := ⟨by simp [new], by simp [new]⟩

namespace Slices

variable (h : Slices isn accepted sender)
include h

theorem closed_eq : sender.closed = !sender.syn := by
  rw [Bool.eq_iff_iff, Bool.not_eq_true', ← Bool.not_eq_true, h.opened]
  simp [closed]

theorem firstUnsent_sub_one : sender.firstUnsent - 1 = sender.stream.byteRead := by
  unfold firstUnsent ByteStream.bytesRead
  cases hsyn : sender.syn with
  | false => rw [h.unread hsyn]; rfl
  | true => exact Nat.add_sub_cancel_left 1 _

/-- The next segment is a slice. -/
theorem slice_next (hnext : NextSegment sender windowSize segment) :
    Slice isn accepted sender.firstUnsent segment where
  seqno := h.isn_eq ▸ hnext.seqno
  syn hsyn := by
    rw [hnext.syn, h.closed_eq, Bool.not_eq_true'] at hsyn
    rw [firstUnsent, ByteStream.bytesRead, hsyn, h.unread hsyn]
    rfl
  opening hzero _ := by
    rw [hnext.syn, h.closed_eq, Bool.not_eq_true']
    cases hsyn : sender.syn with
    | false => rfl
    | true => simp [firstUnsent, hsyn] at hzero
  payload := by
    rw [h.firstUnsent_sub_one, ← h.contents, hnext.payload_eq]
    exact List.take_prefix _ _
  size_le := hnext.size_le.1
  last_le := by
    have hwritten := h.valid.written_eq
    have hsize := hnext.size_le.2
    have hfin := segment.header.fin.toNat_le
    rw [segment.lengthInSequenceSpace_eq, hnext.syn, h.closed_eq, firstUnsent,
      ByteStream.bytesRead, ← h.written]
    cases sender.syn <;> simp only [Bool.toNat_true, Bool.toNat_false, Bool.not_true,
      Bool.not_false] <;> omega

theorem slice_bare : Slice isn accepted sender.nextSeqno
    { header := { seqno := wrap sender.nextSeqno sender.isn } } where
  seqno := h.isn_eq ▸ rfl
  syn := nofun
  opening _ hpositive := absurd hpositive (lt_irrefl 0)
  payload := List.nil_prefix
  size_le := Nat.zero_le _
  last_le := h.next_le

/-- Every move sends slices only. -/
theorem move (hmove : Move sender after) : Slices isn accepted after := by
  have hcarried := h.carried.move hmove (fun _ _ _ hnext ↦ h.slice_next hnext) h.slice_bare
  cases hmove with
  | @send windowSize segment hwindow hwants hnext =>
    have hread := ByteStream.byteRead_popOutput h.valid segment.payload.size
    rw [min_eq_left hnext.size_le.2] at hread
    have hsyn : (sender.sent segment).syn = true := by
      change (sender.syn || segment.header.syn) = true
      rw [hnext.syn, h.closed_eq, Bool.or_not_self]
    constructor
    case isn_eq => exact h.isn_eq
    case valid => exact valid_sent h.valid segment
    case written => exact (ByteStream.popOutput_frame _ _).2.1.trans h.written
    case contents =>
      change (sender.stream.popOutput segment.payload.size).contents =
        accepted.drop (sender.stream.popOutput segment.payload.size).byteRead
      rw [ByteStream.contents_popOutput h.valid, h.contents, hread, List.drop_drop]
    case opened =>
      refine iff_of_true hsyn ?_
      change 0 < sender.firstUnsent + segment.lengthInSequenceSpace
      exact Nat.add_pos_right _ (hnext.length_pos h.valid hwindow hwants)
    case unread =>
      intro hclosed
      rw [hsyn] at hclosed
      contradiction
    case next_le => exact (h.slice_next hnext).last_le
    case carried => exact hcarried
  | @acknowledge newAckno hnew hsent =>
    obtain ⟨bytes, heq, -⟩ := acknowledge_eq sender newAckno
    rw [heq] at hcarried ⊢
    exact ⟨h.isn_eq, h.valid, h.written, h.contents, h.opened, h.unread, h.next_le, hcarried⟩
  | again | bare | adjust =>
    exact ⟨h.isn_eq, h.valid, h.written, h.contents, h.opened, h.unread, h.next_le, hcarried⟩

theorem moves (hmoves : Moves sender after) : Slices isn accepted after :=
  hmoves.invariant (Slices isn accepted) (fun _ _ hbefore hmove ↦ hbefore.move hmove) h

/-- Writing adds what the stream takes to the accepted bytes, also after the end of the input. -/
theorem write (data : List UInt8) :
    Slices isn (accepted ++ data.take (sender.stream.write data).2)
      { sender with stream := (sender.stream.write data).1 } where
  isn_eq := h.isn_eq
  valid := h.valid.write data
  written := by
    have hle : (sender.stream.write data).2 ≤ data.length := min_le_left _ _
    dsimp only
    rw [ByteStream.byteWritten_write, h.written, List.length_append, List.length_take,
      min_eq_left hle]
  contents := by
    have hle := h.valid.read_le
    rw [h.written] at hle
    dsimp only
    rw [ByteStream.contents_write, h.contents, List.drop_append_of_le_length]
    · rfl
    · exact hle
  opened := h.opened
  unread := h.unread
  next_le := by
    have hle := h.next_le
    dsimp only
    rw [List.length_append]
    omega
  carried :=
    have hextended := h.carried.mono fun _ _ hslice ↦ hslice.extend _
    ⟨hextended.outstanding, hextended.emitted⟩

theorem endInput : Slices isn accepted { sender with stream := sender.stream.endInput } :=
  ⟨h.isn_eq, h.valid.endInput, h.written, h.contents,
    h.opened, h.unread, h.next_le, ⟨h.carried.outstanding, h.carried.emitted⟩⟩

theorem setError : Slices isn accepted { sender with stream := sender.stream.setError } :=
  ⟨h.isn_eq, h.valid.setError, h.written, h.contents,
    h.opened, h.unread, h.next_le, ⟨h.carried.outstanding, h.carried.emitted⟩⟩

theorem drain : Slices isn accepted { sender with segmentsOut := [] } :=
  ⟨h.isn_eq, h.valid, h.written, h.contents, h.opened, h.unread, h.next_le,
    h.carried.drain⟩

end Slices

/-! ## The end of the sequence -/

/-- A FIN occupies the last sequence number in use, and the sender knows that it has sent it. -/
def FinLast (sender : TCPSender) (absSeqno : ℕ) (segment : TCPSegment) : Prop :=
  segment.header.fin = true →
    sender.fin = true ∧ absSeqno + segment.lengthInSequenceSpace = sender.nextSeqno

/-- After the FIN, the next number is two more than the bytes written. -/
theorem Sequenced.next_of_fin (h : sender.Sequenced) (hfin : sender.fin = true) :
    sender.nextSeqno = sender.stream.byteWritten + 2 := by
  have hwritten := h.valid.written_eq
  have hsyn := h.syn_of_fin hfin
  rw [(h.finished hfin).2, List.length_nil] at hwritten
  rw [h.next, firstUnsent, ByteStream.bytesRead, hsyn, hfin]
  simp only [Bool.toNat_true]
  omega

theorem Sequenced.next_lt_of_not_fin (h : sender.Sequenced) (hfin : sender.fin = false) :
    sender.nextSeqno < sender.stream.byteWritten + 2 := by
  have hnext := h.next
  have hread := h.valid.read_le
  have hsyn := sender.syn.toNat_le
  rw [hfin, firstUnsent, ByteStream.bytesRead, Bool.toNat_false] at hnext
  omega

/-- The stream and the counter tell whether the FIN has been sent. -/
theorem Sequenced.fin_iff (h : sender.Sequenced) :
    sender.fin = true ↔
      sender.stream.eof = true ∧ sender.nextSeqno = sender.stream.bytesWritten + 2 := by
  constructor
  · exact fun hfin ↦ ⟨h.valid.eof_iff.mpr (h.finished hfin), h.next_of_fin hfin⟩
  · rintro ⟨-, hlast⟩
    by_contra hfin
    exact (h.next_lt_of_not_fin (Bool.eq_false_iff.mpr hfin)).ne hlast

/-- Nothing is in flight exactly if everything has been acknowledged. -/
theorem Sequenced.bytesInFlight_eq_zero_iff (h : sender.Sequenced) :
    sender.bytesInFlight = 0 ↔ sender.ackno = sender.nextSeqno := by
  obtain ⟨base, hbase, htiles⟩ := h.chain
  have hsum := htiles.add_sum
  have hackno := h.ackno_le
  rw [← h.inFlight] at hsum
  constructor
  · intro hzero
    omega
  · intro hall
    rw [h.inFlight, h.eq_nil_iff.mpr hall, List.map_nil, List.sum_nil]

/-- FIN_ACKED: the FIN has been sent, and everything has been acknowledged. -/
theorem Sequenced.finAcked_iff (h : sender.Sequenced) :
    sender.finAcked = true ↔ sender.fin = true ∧ sender.ackno = sender.nextSeqno := by
  rw [h.fin_iff, ← h.bytesInFlight_eq_zero_iff, finAcked, Bool.and_eq_true_iff, Bool.and_eq_true_iff,
    beq_iff_eq, beq_iff_eq]

/-- FIN_ACKED is final. -/
theorem Sequenced.finAcked_move (h : sender.Sequenced) (hacked : sender.finAcked = true)
    (hmove : Move sender after) : after.finAcked = true := by
  have hafter := h.move hmove
  rw [h.finAcked_iff] at hacked
  rw [hafter.finAcked_iff]
  cases hmove with
  | send hwindow hwants hnext =>
    rw [h.fin_eq_false_of_wantsToSend hwants] at hacked
    exact absurd hacked.1 Bool.false_ne_true
  | acknowledge hnew hsent =>
    rw [hacked.2] at hnew
    exact absurd hsent (not_le.mpr hnew)
  | again | bare | adjust => exact hacked

/-- After the FIN nothing new is sent, so a FIN stays last. -/
theorem FinLast.move (h : FinLast sender absSeqno segment) (hsequenced : sender.Sequenced)
    (hmove : Move sender after) : FinLast after absSeqno segment := by
  intro hset
  have hbefore := h hset
  cases hmove with
  | send hwindow hwants hnext =>
    rw [hsequenced.fin_eq_false_of_wantsToSend hwants] at hbefore
    exact absurd hbefore.1 Bool.false_ne_true
  | @acknowledge newAckno hnew hsent =>
    obtain ⟨bytes, heq, -⟩ := acknowledge_eq sender newAckno
    rw [heq]
    exact hbefore
  | again | bare | adjust => exact hbefore

/-- All segments sent so far have their FIN in the last place. -/
def Placed (sender : TCPSender) : Prop := sender.Carries (FinLast sender)

/-- A move keeps every FIN in the last place. -/
theorem Placed.move (h : sender.Placed) (hsequenced : sender.Sequenced)
    (hmove : Move sender after) : after.Placed := by
  have hkept : sender.Carries (FinLast after) :=
    Carries.mono h fun _ _ hlast ↦ hlast.move hsequenced hmove
  apply hkept.move hmove
  · intro windowSize segment heq hnext hset
    rw [heq]
    refine ⟨?_, rfl⟩
    change (sender.fin || segment.header.fin) = true
    rw [hset, Bool.or_true]
  · exact nofun

def Precedes (sender : TCPSender) (absSeqno : ℕ) (segment : TCPSegment) : Prop :=
  absSeqno + segment.lengthInSequenceSpace ≤ sender.nextSeqno

theorem Sequenced.next_le_move (h : sender.Sequenced) (hmove : Move sender after) :
    sender.nextSeqno ≤ after.nextSeqno := by
  cases hmove with
  | send hwindow hwants hnext =>
    rw [h.next_sent (h.fin_eq_false_of_wantsToSend hwants)]
    exact Nat.le_add_right _ _
  | @acknowledge newAckno =>
    obtain ⟨bytes, heq, -⟩ := acknowledge_eq sender newAckno
    rw [heq]
  | again | bare | adjust => exact le_rfl

/-- All segments sent so far end before the next sequence number. -/
theorem Carries.precedes_move (h : sender.Carries sender.Precedes) (hsequenced : sender.Sequenced)
    (hmove : Move sender after) : after.Carries after.Precedes := by
  have hnext := hsequenced.next_le_move hmove
  have hkept : sender.Carries after.Precedes := h.mono fun _ _ hbefore ↦ le_trans hbefore hnext
  apply hkept.move hmove
  · intro windowSize segment heq _
    rw [heq]
    exact le_rfl
  · exact hnext

/-! ## First transmissions -/

/-- The segments sent for the first time, in the order of their transmission. -/
def firstTransmissions (sender : TCPSender) : List Emission :=
  sender.segmentsOut.filter fun emission ↦ emission.kind = .first

/-- The first transmissions are numbered end to end from zero. -/
def Adjacent (sender : TCPSender) : Prop :=
  Tiles Emission.absSeqno (fun emission ↦ emission.segment.lengthInSequenceSpace) 0
    sender.firstTransmissions sender.nextSeqno

/-- A move sends the next number first. -/
theorem Adjacent.move (h : sender.Adjacent) (hsequenced : sender.Sequenced)
    (hmove : Move sender after) : after.Adjacent := by
  cases hmove with
  | @send windowSize segment hwindow hwants hnext =>
    have hfin := hsequenced.fin_eq_false_of_wantsToSend hwants
    have hfirst := hsequenced.firstUnsent_eq hfin
    have hqueue : (sender.sent segment).firstTransmissions = sender.firstTransmissions ++
        [{ segment, kind := .first, absSeqno := sender.firstUnsent }] := by
      unfold firstTransmissions
      change (sender.segmentsOut ++ [_]).filter _ = _
      rw [List.filter_append]
      rfl
    unfold Adjacent
    rw [hqueue, hsequenced.next_sent hfin]
    exact Tiles.concat h hfirst (hnext.length_pos hsequenced.valid hwindow hwants)
  | @acknowledge newAckno hnew hsent =>
    obtain ⟨bytes, heq, -⟩ := acknowledge_eq sender newAckno
    rw [heq]
    exact h
  | again | bare =>
    unfold Adjacent firstTransmissions
    dsimp only [sendEmptySegment]
    rw [List.filter_append, List.filter_singleton]
    simp only [reduceCtorEq, decide_false, cond_false, List.append_nil]
    exact h
  | adjust => exact h

/-! ## Runs -/

def outbound (past : List (TCPSender × Call)) : List UInt8 :=
  past.flatMap fun entry ↦ entry.1.acceptedBy entry.2

/-- All that is known about the segments sent so far. -/
structure Transmitted (isn : WrappingInt32) (accepted : List UInt8) (sender : TCPSender) : Prop where
  sequenced : sender.Sequenced
  slices : Slices isn accepted sender
  placed : sender.Placed
  adjacent : sender.Adjacent

theorem Transmitted.move (h : Transmitted isn accepted sender) (hmove : Move sender after) :
    Transmitted isn accepted after :=
  ⟨h.sequenced.move hmove, h.slices.move hmove, h.placed.move h.sequenced hmove,
    h.adjacent.move h.sequenced hmove⟩

/-- A call continues the sequence of segments. -/
theorem Transmitted.step {call : Call} (h : Transmitted isn accepted sender)
    (hcall : sender.WritesBeforeEnd call) :
    Transmitted isn (accepted ++ sender.acceptedBy call) (sender.step call) := by
  have hsequenced := h.sequenced.step hcall
  cases step_cases h.sequenced.valid call with
  | inl hwrite =>
    obtain ⟨data, rfl⟩ := hwrite
    exact ⟨hsequenced, h.slices.write data, ⟨h.placed.outstanding, h.placed.emitted⟩, h.adjacent⟩
  | inr hother =>
    cases hother with
    | inl hend =>
      subst hend
      have hslices : Slices isn (accepted ++ []) (sender.step .endInput) := by
        rw [List.append_nil]
        exact h.slices.endInput
      exact ⟨hsequenced, hslices, ⟨h.placed.outstanding, h.placed.emitted⟩, h.adjacent⟩
    | inr hmoves =>
      rw [hmoves.1, List.append_nil]
      exact hmoves.2.invariant (Transmitted isn accepted)
        (fun _ _ hbefore hmove ↦ hbefore.move hmove) h

/-- What has been sent in a run. -/
theorem transmitted_run {capacity : ℕ} {retxTimeout : UInt16} {fixedIsn : Option WrappingInt32}
    {randomIsn : WrappingInt32} {calls : List Call}
    (h : Admissible step WritesBeforeEnd (new capacity retxTimeout fixedIsn randomIsn) calls) :
    let start := new capacity retxTimeout fixedIsn randomIsn
    Transmitted (fixedIsn.getD randomIsn) (outbound (trace step start calls))
      (run step start calls) := by
  apply h.trace_invariant fun past sender ↦
    Transmitted (fixedIsn.getD randomIsn) (outbound past) sender
  · intro past sender call hpast hcall
    have hnext := hpast.step hcall
    have hmore : outbound (past ++ [(sender, call)]) = outbound past ++ sender.acceptedBy call := by
      simp [outbound]
    rwa [hmore]
  · refine ⟨sequenced_new capacity retxTimeout fixedIsn randomIsn,
      slices_new capacity retxTimeout fixedIsn randomIsn, ⟨?_, ?_⟩, rfl⟩
    · simp [new]
    · simp [new]

/-- Every segment in the queue that occupies sequence numbers is a slice of SYN, the outgoing stream
and FIN, under its own number; and the first transmissions cover that sequence in order, without gap
or overlap. -/
theorem transmits_slices (capacity : ℕ) (retxTimeout : UInt16) (fixedIsn : Option WrappingInt32)
    (randomIsn : WrappingInt32) (calls : List Call)
    (h : Admissible step WritesBeforeEnd (new capacity retxTimeout fixedIsn randomIsn) calls) :
    let start := new capacity retxTimeout fixedIsn randomIsn
    let stream := outbound (trace step start calls)
    let final := run step start calls
    (∀ emission ∈ final.segmentsOut, 0 < emission.segment.lengthInSequenceSpace →
      emission.segment.header.seqno = wrap emission.absSeqno (fixedIsn.getD randomIsn) ∧
      (emission.segment.header.syn = true ↔ emission.absSeqno = 0) ∧
      emission.segment.payload.str =
        (stream.drop (emission.absSeqno - 1)).take emission.segment.payload.size ∧
      emission.segment.payload.size ≤ TCPConfig.maxPayloadSize ∧
      (emission.segment.header.fin = true → final.stream.inputEnded = true ∧
        emission.absSeqno + emission.segment.lengthInSequenceSpace - 1 = 1 + stream.length)) ∧
    Tiles Emission.absSeqno (fun emission ↦ emission.segment.lengthInSequenceSpace) 0
      final.firstTransmissions final.nextSeqno := by
  have hfinal := transmitted_run h
  refine ⟨fun emission hemission hpositive ↦ ?_, hfinal.adjacent⟩
  have hslice := hfinal.slices.carried.emitted emission hemission
  refine ⟨hslice.seqno, ⟨hslice.syn, fun hzero ↦ hslice.opening hzero hpositive⟩,
    List.prefix_iff_eq_take.mp hslice.payload, hslice.size_le, fun hset ↦ ?_⟩
  obtain ⟨hfin, hlast⟩ := hfinal.placed.emitted emission hemission hset
  refine ⟨(hfinal.sequenced.finished hfin).1, ?_⟩
  rw [hlast, hfinal.sequenced.next_of_fin hfin, hfinal.slices.written]
  omega

theorem transmits_slices_with_retransmission :
    let calls : List Call := [.fillWindow, .write [97, 98, 99], .ackReceived ⟨1⟩ 2, .endInput,
      .tick 5000, .ackReceived ⟨2⟩ 4]
    let final := run step (new 8 1000 (some ⟨0⟩) ⟨7⟩) calls
    Admissible step WritesBeforeEnd (new 8 1000 (some ⟨0⟩) ⟨7⟩) calls ∧
      final.segmentsOut.length = 4 ∧
      Tiles Emission.absSeqno (fun emission ↦ emission.segment.lengthInSequenceSpace) 0
        final.firstTransmissions final.nextSeqno := by
  have h : Admissible step WritesBeforeEnd (new 8 1000 (some ⟨0⟩) ⟨7⟩) [.fillWindow,
      .write [97, 98, 99], .ackReceived ⟨1⟩ 2, .endInput, .tick 5000, .ackReceived ⟨2⟩ 4] := by
    decide +kernel
  exact ⟨h, by decide +kernel, (transmits_slices 8 1000 (some ⟨0⟩) ⟨7⟩ _ h).2⟩

end Sponge.TCPSender
