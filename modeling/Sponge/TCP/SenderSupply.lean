import Sponge.TCP.ConnectionProgress
import Sponge.TCP.SenderEmission
import Sponge.TCP.SenderLoop

/-!
# A sender between two deliveries

A peer has everything up to a number, `taken`, and all the acknowledgments that it sends announce the same
right edge.  `Supplies` says what the sender makes of them, one after the other.  It stays below the edge,
apart from the probe of a closed window.  If it has bytes enough, it uses the edge up.  And it sends a FIN
of its own, without data, only if the peer has all the bytes before it: as long as bytes are on their way,
the window that held the FIN back is not opened any further.
-/

namespace Sponge.TCPSender

variable {sender : TCPSender} {segment : TCPSegment} {windowSize : UInt16}
  {taken edge newAckno : ℕ}

/-! ## Acknowledgments of what was sent -/

/-- What the sender makes of an acknowledgment of something that it has sent. -/
def heed (sender : TCPSender) (newAckno : ℕ) (windowSize : UInt16) : TCPSender :=
  if newAckno ≤ sender.ackno then { sender with windowSize } else sender.advanced windowSize newAckno

/-- An acknowledgment of something that was sent is heeded. -/
theorem ackReceived_eq_heed {ackno : WrappingInt32} (heq : unwrap ackno sender.isn sender.ackno = newAckno)
    (hsent : newAckno ≤ sender.nextSeqno) :
    sender.ackReceived ackno windowSize = (sender.heed newAckno windowSize, true) := by
  unfold ackReceived heed
  dsimp only
  rw [heq, if_neg (not_lt.mpr hsent)]
  split_ifs <;> rfl

theorem ackno_heed (hvalid : sender.stream.Valid) (newAckno : ℕ) (windowSize : UInt16) :
    (sender.heed newAckno windowSize).ackno = max sender.ackno newAckno := by
  unfold heed
  split_ifs with hold
  · exact (max_eq_left hold).symm
  · rw [ackno_advanced hvalid]
    exact (max_eq_right (not_le.mp hold).le).symm

/-- An acknowledgment changes nothing but the window, or the retransmissions start anew. -/
theorem heed_cases (hvalid : sender.stream.Valid) (newAckno : ℕ) (windowSize : UInt16) :
    sender.heed newAckno windowSize = { sender with windowSize } ∨
      (sender.heed newAckno windowSize).consecutiveRetransmissions = 0 := by
  unfold heed
  split_ifs
  · exact .inl rfl
  · exact .inr (advanced_frame hvalid windowSize newAckno).2.2.1

/-- After its FIN a sender has nothing to send. -/
theorem Sequenced.fillWindow_of_fin (h : sender.Sequenced) (hfin : sender.fin = true) :
    sender.fillWindow = sender := by
  obtain ⟨_, hsame, -⟩ := fillWindow_rule (fun after _ ↦ after = sender)
    (fun after _ _ _ hsame _ hwants _ _ ↦ by
      rw [hsame] at hwants
      exact absurd (h.fin_eq_false_of_wantsToSend hwants) (Bool.not_eq_false _ ▸ hfin))
    h.valid rfl
  exact hsame

/-- After its FIN a sender does not send anything in return for an acknowledgment. -/
theorem Sequenced.heed_of_fin (h : sender.Sequenced) (hfin : sender.fin = true)
    (hsent : newAckno ≤ sender.nextSeqno) (windowSize : UInt16) :
    (sender.heed newAckno windowSize).segmentsOut = sender.segmentsOut ∧
      (sender.heed newAckno windowSize).nextSeqno = sender.nextSeqno ∧
      (sender.heed newAckno windowSize).fin = true := by
  unfold heed
  split_ifs with hold
  · exact ⟨rfl, rfl, hfin⟩
  · have hadjusted := h.move (.adjust windowSize sender.rto sender.consecutiveRetransmissions
      sender.timer)
    have hsequenced := hadjusted.acknowledge (not_le.mp hold) hsent
    obtain ⟨bytes, heq, -⟩ := acknowledge_eq { sender with windowSize } newAckno
    rw [heq] at hsequenced
    rw [advanced, heq, hsequenced.fillWindow_of_fin hfin]
    exact ⟨rfl, rfl, hfin⟩

/-! ## A FIN without data -/

theorem Carries.acknowledge {property : ℕ → TCPSegment → Prop} (h : sender.Carries property)
    (newAckno : ℕ) : (sender.acknowledge newAckno).Carries property := by
  obtain ⟨bytes, heq, -⟩ := acknowledge_eq sender newAckno
  rw [heq]
  exact ⟨fun entry hentry ↦ h.outstanding entry ((List.dropWhile_sublist _).subset hentry), h.emitted⟩

/-- Only the FIN is left to send. -/
def FinLeft (sender : TCPSender) : Prop :=
  sender.stream.ended = true ∧ sender.stream.contents = [] ∧ sender.fin = false

/-- A FIN without data has a number that the peer has reached. -/
def LoneFinReached (taken absSeqno : ℕ) (segment : TCPSegment) : Prop :=
  segment.header.fin = true → segment.payload.str = [] → absSeqno ≤ taken

/-- The segment that an iteration sends takes the FIN along if there is room for it. -/
theorem finLeft_sent (hsequenced : sender.Sequenced) {left : ℕ} (hwants : sender.wantsToSend = true)
    (hnext : NextSegment sender left segment) (hfits : segment.lengthInSequenceSpace ≤ left)
    (h : (sender.sent segment).FinLeft) : left - segment.lengthInSequenceSpace = 0 := by
  obtain ⟨hended, hempty, hfin⟩ := h
  have hbefore := hsequenced.fin_eq_false_of_wantsToSend hwants
  have hset : segment.header.fin = false := by
    have hor : (sender.fin || segment.header.fin) = false := hfin
    rwa [hbefore, Bool.false_or] at hor
  have hstays : sender.stream.ended = true :=
    (ByteStream.popOutput_frame sender.stream segment.payload.size).2.2.1.symm.trans hended
  have hall : segment.payload.size = sender.stream.contents.length := by
    have hdrop : (sender.stream.popOutput segment.payload.size).contents = [] := hempty
    rw [ByteStream.contents_popOutput hsequenced.valid, List.drop_eq_nil_iff] at hdrop
    exact le_antisymm hnext.size_le.2 hdrop
  have hroom : ¬ segment.payload.size + sender.closed.toNat < left := by
    intro hlt
    have hnumbers := hsequenced.next
    have hwritten := hsequenced.valid.written_eq
    have hsyn := sender.syn.toNat_le
    rw [hbefore, firstUnsent, ByteStream.bytesRead, Bool.toNat_false] at hnumbers
    have htrue := hnext.fin.mpr ⟨hlt, hall, hstays, by omega⟩
    exact Bool.false_ne_true (hset.symm.trans htrue)
  have hlength := segment.lengthInSequenceSpace_eq
  rw [hset, Bool.toNat_false, hnext.syn] at hlength
  omega

/-- The state of the loop in `fillWindow` while it goes up to an edge. -/
structure Goes (taken target : ℕ) (start after : TCPSender) (left : ℕ) : Prop where
  sequenced : after.Sequenced
  room : after.nextSeqno + left = target
  waiting : after.FinLeft → after.nextSeqno ≤ taken ∨ left = 0
  carries : after.Carries (LoneFinReached taken)
  written : after.stream.byteWritten = start.stream.byteWritten
  ended : after.stream.ended = start.stream.ended

/-- One iteration of the loop. -/
theorem Goes.sent {target left : ℕ} {start : TCPSender} (h : Goes taken target start sender left)
    (hleft : 0 < left) (hwants : sender.wantsToSend = true) (hnext : NextSegment sender left segment)
    (hfits : segment.lengthInSequenceSpace ≤ left) :
    Goes taken target start (sender.sent segment) (left - segment.lengthInSequenceSpace) := by
  have hfin := h.sequenced.fin_eq_false_of_wantsToSend hwants
  have hframe := ByteStream.popOutput_frame sender.stream segment.payload.size
  constructor
  case sequenced => exact h.sequenced.sent hleft hwants hnext
  case room =>
    have hroom := h.room
    rw [h.sequenced.next_sent hfin]
    omega
  case waiting =>
    exact fun hlone ↦ .inr (finLeft_sent h.sequenced hwants hnext hfits hlone)
  case carries =>
    apply h.carries.move (.send hleft hwants hnext)
    · intro _ segment _ hnext hset hnil
      -- A FIN without data is sent when nothing else is left.
      obtain ⟨-, hall, hended, -⟩ := hnext.fin.mp hset
      have hempty : sender.stream.contents = [] := by
        rw [← List.length_eq_zero_iff, ← hall, Buffer.size, hnil, List.length_nil]
      have hreached := (h.waiting ⟨hended, hempty, hfin⟩).resolve_right hleft.ne'
      exact (h.sequenced.firstUnsent_eq hfin).trans_le hreached
    · exact fun hset ↦ absurd hset Bool.false_ne_true
  case written => exact hframe.2.1.trans h.written
  case ended => exact hframe.2.2.1.trans h.ended

/-! ## Acknowledgments that announce one edge -/

/-- The number up to which acknowledgments of at most `taken` and with the right edge `edge` let a sender
go: a closed window has room for one number. -/
def limit (taken edge : ℕ) : ℕ := max edge (taken + 1)

/-- The sender between two deliveries to a peer that has everything up to `taken`. -/
structure Supplies (taken edge : ℕ) (sender : TCPSender) : Prop where
  sequenced : sender.Sequenced
  inside : Inside (limit taken edge) sender
  waiting : sender.FinLeft → sender.nextSeqno ≤ taken ∨ limit taken edge ≤ sender.nextSeqno
  enough : sender.stream.ended = false → limit taken edge ≤ sender.stream.byteWritten + 1
  used : sender.stream.ended = false → sender.ackno < taken ∨ limit taken edge ≤ sender.nextSeqno
  carries : sender.Carries (LoneFinReached taken)

theorem Supplies.drain (h : Supplies taken edge sender) :
    Supplies taken edge { sender with segmentsOut := [] } :=
  ⟨h.sequenced.drain, ⟨h.inside.valid, h.inside.unsent_le, h.inside.next_le, h.inside.window_le⟩,
    h.waiting, h.enough, h.used, h.carries.drain⟩

/-- An edge that lies beyond what the peer has is the limit. -/
theorem edge_cases (hle : newAckno ≤ taken) (hedge : newAckno + windowSize.toNat = edge) :
    newAckno + max windowSize.toNat 1 ≤ taken ∨
      newAckno + max windowSize.toNat 1 = limit taken edge := by
  unfold limit
  omega

/-- The loop of `fillWindow` goes up to the edge, or nothing is left to send. -/
theorem goes_fillWindow (hsequenced : sender.Sequenced)
    (hroom : sender.nextSeqno < sender.ackno + max sender.windowSize.toNat 1)
    (hwaiting : sender.FinLeft → sender.nextSeqno ≤ taken)
    (hcarries : sender.Carries (LoneFinReached taken)) :
    ∃ left, Goes taken (sender.ackno + max sender.windowSize.toNat 1) sender sender.fillWindow left ∧
      (left = 0 ∨ sender.fillWindow.wantsToSend = false) := by
  apply fillWindow_rule (Goes taken (sender.ackno + max sender.windowSize.toNat 1) sender)
  · intro after left segment _ hgoes hleft hwants hnext hfits
    exact hgoes.sent hleft hwants hnext hfits
  · exact hsequenced.valid
  · rw [effectiveWindow_eq]
    exact ⟨hsequenced, by omega, fun hlone ↦ .inl (hwaiting hlone), hcarries, rfl, rfl⟩

/-- What the sender has to be like before it fills the window that an acknowledgment announces. -/
structure Refills (taken edge : ℕ) (sender : TCPSender) : Prop where
  sequenced : sender.Sequenced
  inside : Inside (limit taken edge) sender
  waiting : sender.FinLeft → sender.nextSeqno ≤ taken ∨ limit taken edge ≤ sender.nextSeqno
  enough : sender.stream.ended = false → limit taken edge ≤ sender.stream.byteWritten + 1
  carries : sender.Carries (LoneFinReached taken)
  syn : sender.syn = true
  ackno_le : sender.ackno ≤ taken
  edge_eq : sender.ackno + sender.windowSize.toNat = edge

/-- With bytes enough, a sender that has nothing left to send has gone up to the limit. -/
theorem Sequenced.limit_le_of_idle (h : sender.Sequenced) (hsyn : sender.syn = true)
    (hended : sender.stream.ended = false) (hidle : sender.Idle)
    (henough : limit taken edge ≤ sender.stream.byteWritten + 1) :
    limit taken edge ≤ sender.nextSeqno := by
  have hfin : sender.fin = false := by
    by_contra hset
    rw [(h.finished (Bool.not_eq_false _ ▸ hset)).1] at hended
    contradiction
  have hnext := h.next
  have hwritten := h.valid.written_eq
  rw [firstUnsent, hsyn, hfin, ByteStream.bytesRead, Bool.toNat_true, Bool.toNat_false] at hnext
  rw [hidle.1, List.length_nil] at hwritten
  omega

/-- Filling the window that an acknowledgment announces. -/
theorem Refills.fillWindow (h : Refills taken edge sender) : Supplies taken edge sender.fillWindow := by
  have hedge := edge_cases h.ackno_le h.edge_eq
  have hackno := ackno_fillWindow h.sequenced.valid
  by_cases hfull : sender.ackno + max sender.windowSize.toNat 1 ≤ sender.nextSeqno
  · have hsame : sender.fillWindow = sender := by
      rw [TCPSender.fillWindow, effectiveWindow_eq, if_pos hfull]
    rw [hsame]
    refine ⟨h.sequenced, h.inside, h.waiting, h.enough, fun _ ↦ ?_, h.carries⟩
    have hle := h.ackno_le
    omega
  · rw [not_le] at hfull
    have hwaiting (hlone : sender.FinLeft) : sender.nextSeqno ≤ taken := by
      have hcases := h.waiting hlone
      omega
    obtain ⟨left, hgoes, hend⟩ := goes_fillWindow h.sequenced hfull hwaiting h.carries
    have hroom := hgoes.room
    have henough (hended : sender.fillWindow.stream.ended = false) :
        limit taken edge ≤ sender.fillWindow.stream.byteWritten + 1 := by
      rw [hgoes.written]
      exact h.enough (hgoes.ended.symm.trans hended)
    refine ⟨hgoes.sequenced, h.inside.fillWindow, fun hlone ↦ ?_, henough, fun hended ↦ ?_, hgoes.carries⟩
    · cases hgoes.waiting hlone with
      | inl hreached => exact .inl hreached
      | inr hzero => omega
    · rw [hackno]
      by_cases hless : sender.ackno < taken
      · exact .inl hless
      · right
        cases hend with
        | inl hzero => omega
        | inr hquiet =>
          have hidle := hgoes.sequenced.idle_of_not_wantsToSend hquiet
          have hsyn : sender.fillWindow.syn = true := by
            obtain ⟨_, hstays, -⟩ := fillWindow_rule (fun after _ ↦ after.syn = true)
              (fun after _ segment _ hset _ _ _ _ ↦ by
                change (after.syn || segment.header.syn) = true
                rw [hset, Bool.true_or]) h.sequenced.valid h.syn
            exact hstays
          exact hgoes.sequenced.limit_le_of_idle hsyn hended hidle (henough hended)

/-- The acknowledgments of a peer that has everything up to `taken` keep the sender supplying, if they come
in order and all announce the edge. -/
theorem Supplies.heed (h : Supplies taken edge sender) (hsyn : sender.syn = true)
    (hge : sender.ackno ≤ newAckno) (hle : newAckno ≤ taken) (hsent : newAckno ≤ sender.nextSeqno)
    (hedge : newAckno + windowSize.toNat = edge) :
    Supplies taken edge (sender.heed newAckno windowSize) := by
  have hcases := edge_cases hle hedge
  have hbound : newAckno + max windowSize.toNat 1 ≤ limit taken edge := by
    unfold limit
    omega
  unfold TCPSender.heed
  split_ifs with hold
  · refine ⟨h.sequenced.move (.adjust windowSize _ _ _), ⟨h.inside.valid, h.inside.unsent_le,
      h.inside.next_le, ?_⟩, h.waiting, h.enough, h.used, h.carries.outstanding, h.carries.emitted⟩
    rw [effectiveWindow_eq, le_antisymm hge hold]
    exact hbound
  · have hadjusted := h.sequenced.move (.adjust windowSize sender.rto
      sender.consecutiveRetransmissions sender.timer)
    have hsequenced := hadjusted.acknowledge (not_le.mp hold) hsent
    have hadjust : Carries (LoneFinReached taken) { sender with windowSize } :=
      ⟨h.carries.outstanding, h.carries.emitted⟩
    have hcarries := hadjust.acknowledge newAckno
    obtain ⟨bytes, heq, -⟩ := acknowledge_eq { sender with windowSize } newAckno
    have hrefills : Refills taken edge ({ sender with windowSize }.acknowledge newAckno) := by
      rw [heq] at hsequenced hcarries ⊢
      refine ⟨hsequenced, ⟨h.inside.valid, h.inside.unsent_le, h.inside.next_le, ?_⟩, h.waiting,
        h.enough, hcarries, hsyn, hle, hedge⟩
      rw [effectiveWindow_eq]
      exact hbound
    have hfilled := hrefills.fillWindow
    exact ⟨hfilled.sequenced.move (.adjust _ _ _ _), hfilled.inside.restartTimer, hfilled.waiting,
      hfilled.enough, hfilled.used, hfilled.carries.outstanding, hfilled.carries.emitted⟩

end Sponge.TCPSender
