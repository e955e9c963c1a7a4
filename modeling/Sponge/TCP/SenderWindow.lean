import Sponge.TCP.SenderInvariant

/-!
# The window of the peer

An acknowledgment announces a window and thereby a right edge, the first sequence number that the
peer will not take.  The sender goes by the window of the last acknowledgment it accepted, also when
that one is older than what it has: the window of an outdated acknowledgment is then counted from the
current acknowledgment number.  `EdgeKept` is the condition under which this does no harm, and with
it the sender never sends beyond the largest right edge announced.
-/

namespace Sponge.TCPSender

open Execution

variable {sender : TCPSender} {segment : TCPSegment} {windowSize bound : ℕ}

/-- The right edge that an accepted acknowledgment announces. -/
def announcedEdge (sender : TCPSender) : Call → ℕ
  | .ackReceived ackno windowSize =>
      let newAckno := unwrap ackno sender.isn sender.ackno
      if newAckno > sender.nextSeqno then 0 else newAckno + max windowSize.toNat 1
  | _ => 0

/-- A sender, and the largest right edge that has been announced to it. -/
structure Watched where
  sender : TCPSender
  edge : ℕ := 1

def Watched.step (watched : Watched) (call : Call) : Watched where
  sender := watched.sender.step call
  edge := max watched.edge (watched.sender.announcedEdge call)

/-- An accepted acknowledgment is not older than the last one, or its window does not reach beyond
the largest right edge when it is counted from the current acknowledgment number. -/
def Watched.EdgeKept (watched : Watched) : Call → Prop
  | .ackReceived ackno windowSize =>
      let newAckno := unwrap ackno watched.sender.isn watched.sender.ackno
      newAckno ≤ watched.sender.nextSeqno →
        watched.sender.ackno ≤ newAckno ∨
          watched.sender.ackno + max windowSize.toNat 1 ≤ watched.edge
  | _ => True

instance (watched : Watched) : (call : Call) → Decidable (watched.EdgeKept call)
  | .ackReceived _ _ => inferInstanceAs (Decidable (_ → _ ∨ _))
  | .write _ => inferInstanceAs (Decidable True)
  | .endInput => inferInstanceAs (Decidable True)
  | .fillWindow => inferInstanceAs (Decidable True)
  | .tick _ => inferInstanceAs (Decidable True)
  | .sendEmptySegment => inferInstanceAs (Decidable True)

/-- The sender is inside a bound, and so is the window it goes by. -/
structure Inside (bound : ℕ) (sender : TCPSender) : Prop where
  valid : sender.stream.Valid
  unsent_le : sender.firstUnsent ≤ sender.nextSeqno
  next_le : sender.nextSeqno ≤ bound
  window_le : sender.ackno + sender.effectiveWindow ≤ bound

/-- One iteration of the loop uses up what it takes of the window, and no more. -/
theorem next_sent_le (hvalid : sender.stream.Valid) (hunsent : sender.firstUnsent ≤ sender.nextSeqno)
    (segment : TCPSegment) :
    (sender.sent segment).nextSeqno ≤ sender.nextSeqno + segment.lengthInSequenceSpace ∧
      (sender.sent segment).firstUnsent ≤ (sender.sent segment).nextSeqno := by
  have hread := ByteStream.byteRead_popOutput hvalid segment.payload.size
  have hlength := segment.lengthInSequenceSpace_eq
  have hnext : (sender.sent segment).nextSeqno =
      sender.firstUnsent + segment.lengthInSequenceSpace := rfl
  have hfirst : (sender.sent segment).firstUnsent = (sender.syn || segment.header.syn).toNat +
      (sender.stream.popOutput segment.payload.size).byteRead := rfl
  have hflag : (sender.syn || segment.header.syn).toNat ≤
      sender.syn.toNat + segment.header.syn.toNat := by
    cases sender.syn <;> cases segment.header.syn <;> decide
  rw [hnext, hfirst, hread, hlength]
  unfold firstUnsent ByteStream.bytesRead at *
  omega

/-- Filling the window goes up to the bound at most. -/
theorem Inside.fillWindow (h : Inside bound sender) : Inside bound sender.fillWindow := by
  have hwindow := h.window_le
  have hnext := h.next_le
  have hrule := fillWindow_rule
    (fun after left ↦ (after.stream.Valid ∧ after.firstUnsent ≤ after.nextSeqno ∧
      after.nextSeqno + left ≤ bound) ∧
      after.ackno = sender.ackno ∧ after.windowSize = sender.windowSize) ?_ h.valid
      ⟨⟨h.valid, h.unsent_le, by omega⟩, rfl, rfl⟩
  · obtain ⟨left, ⟨⟨hvalid, hunsent, hle⟩, hackno, hsize⟩, -⟩ := hrule
    refine ⟨hvalid, hunsent, by omega, ?_⟩
    rw [effectiveWindow, hackno, hsize]
    exact hwindow
  · intro after left segment hvalid hmotive _ _ _ hfits
    have hstep := next_sent_le hvalid hmotive.1.2.1 segment
    refine ⟨⟨valid_sent hvalid segment, hstep.2, ?_⟩, hmotive.2⟩
    omega

theorem Inside.mono {bound' : ℕ} (h : Inside bound sender) (hle : bound ≤ bound') :
    Inside bound' sender :=
  ⟨h.valid, h.unsent_le, h.next_le.trans hle, h.window_le.trans hle⟩

theorem Inside.restartTimer (h : Inside bound sender) : Inside bound sender.restartTimer :=
  ⟨h.valid, h.unsent_le, h.next_le, h.window_le⟩

/-- An acknowledgment moves the bound to the edge that it announces. -/
theorem Inside.ackReceived {edge : ℕ} {ackno : WrappingInt32} {windowSize : UInt16}
    (h : Inside edge sender)
    (hkept : Watched.EdgeKept ⟨sender, edge⟩ (.ackReceived ackno windowSize)) :
    Inside (max edge (sender.announcedEdge (.ackReceived ackno windowSize)))
      (sender.ackReceived ackno windowSize).1 := by
  unfold TCPSender.ackReceived announcedEdge
  dsimp only [Watched.EdgeKept] at hkept ⊢
  set newAckno := unwrap ackno sender.isn sender.ackno
  have hnext := h.next_le
  have hwindow : effectiveWindow { sender with windowSize } = max windowSize.toNat 1 :=
    effectiveWindow_eq _
  split_ifs with hbeyond hold
  · exact h.mono (le_max_left _ _)
  · -- The acknowledgment is not new: only the window changes.
    refine ⟨h.valid, h.unsent_le, hnext.trans (le_max_left _ _), ?_⟩
    have hcases := hkept (not_lt.mp hbeyond)
    rw [hwindow]
    dsimp only
    omega
  · obtain ⟨bytes, heq, -⟩ := acknowledge_eq { sender with windowSize } newAckno
    have hacknowledged : Inside (max edge (newAckno + max windowSize.toNat 1))
        ({ sender with windowSize }.acknowledge newAckno) := by
      rw [heq]
      refine ⟨h.valid, h.unsent_le, hnext.trans (le_max_left _ _), ?_⟩
      change newAckno + effectiveWindow { sender with windowSize } ≤ _
      rw [hwindow]
      exact le_max_right _ _
    exact hacknowledged.fillWindow.restartTimer

/-- The sender stays inside the largest edge that was announced. -/
theorem Watched.inside_step {watched : Watched} {call : Call}
    (h : Inside watched.edge watched.sender) (hkept : watched.EdgeKept call) :
    Inside (watched.step call).edge (watched.step call).sender := by
  have hle : watched.edge ≤ (watched.step call).edge := le_max_left _ _
  have hnext := h.next_le.trans hle
  have hwindow := h.window_le.trans hle
  cases call with
  | write data => exact ⟨h.valid.write data, h.unsent_le, hnext, hwindow⟩
  | endInput =>
    exact ⟨h.valid.endInput, h.unsent_le, hnext,
      hwindow⟩
  | fillWindow => exact h.fillWindow.mono hle
  | ackReceived ackno windowSize => exact h.ackReceived hkept
  | tick msSinceLastTick =>
    obtain ⟨_, _, _, _, heq⟩ := tick_frame watched.sender msSinceLastTick
    have hsender : (watched.step (.tick msSinceLastTick)).sender = _ := heq
    rw [hsender]
    exact ⟨h.valid, h.unsent_le, hnext, hwindow⟩
  | sendEmptySegment => exact ⟨h.valid, h.unsent_le, hnext, hwindow⟩

theorem inside_new (capacity : ℕ) (retxTimeout : UInt16) (fixedIsn : Option WrappingInt32)
    (randomIsn : WrappingInt32) : Inside 1 (new capacity retxTimeout fixedIsn randomIsn) where
  valid := ByteStream.valid_new capacity
  unsent_le := by simp [new, firstUnsent, ByteStream.bytesRead, ByteStream.new]
  next_le := by simp [new]
  window_le := by simp [new, effectiveWindow]

/-- The sender never sends beyond the largest right edge announced, in every run in which outdated
acknowledgments are accepted only with windows that keep the edge. -/
theorem next_le_announced_edge (capacity : ℕ) (retxTimeout : UInt16)
    (fixedIsn : Option WrappingInt32) (randomIsn : WrappingInt32) (calls : List Call)
    (h : Admissible Watched.step Watched.EdgeKept
      ⟨new capacity retxTimeout fixedIsn randomIsn, 1⟩ calls) :
    let final := run Watched.step ⟨new capacity retxTimeout fixedIsn randomIsn, 1⟩ calls
    final.sender.nextSeqno ≤ final.edge := by
  intro final
  have hinside : Inside final.edge final.sender :=
    h.invariant (fun watched ↦ Inside watched.edge watched.sender)
      (fun _ _ hbefore hkept ↦ Watched.inside_step hbefore hkept)
      (inside_new capacity retxTimeout fixedIsn randomIsn)
  exact hinside.next_le

theorem next_le_announced_edge_small_old_window :
    let calls : List Call := [.fillWindow, .ackReceived ⟨1⟩ 10, .write [1, 2, 3, 4, 5, 6, 7, 8, 9],
      .fillWindow, .ackReceived ⟨10⟩ 1, .ackReceived ⟨1⟩ 1, .write [1, 2, 3, 4, 5], .fillWindow]
    let start : Watched := ⟨new 64 1000 (some ⟨0⟩) ⟨7⟩, 1⟩
    Admissible Watched.step Watched.EdgeKept start calls ∧
      (run Watched.step start calls).sender.nextSeqno ≤ (run Watched.step start calls).edge := by
  have h : Admissible Watched.step Watched.EdgeKept ⟨new 64 1000 (some ⟨0⟩) ⟨7⟩, 1⟩ [.fillWindow,
      .ackReceived ⟨1⟩ 10, .write [1, 2, 3, 4, 5, 6, 7, 8, 9], .fillWindow, .ackReceived ⟨10⟩ 1,
      .ackReceived ⟨1⟩ 1, .write [1, 2, 3, 4, 5], .fillWindow] := by
    decide +kernel
  exact ⟨h, next_le_announced_edge 64 1000 (some ⟨0⟩) ⟨7⟩ _ h⟩

/-- Ten bytes are sent and acknowledged, the last time with a closed window.  Then the first
acknowledgment, of number 1 with a window of ten, arrives again.  No acknowledgment has allowed more
than sequence number 11, and the sender goes on to 15. -/
theorem outdated_window_exceeds_edge :
    let final := run Watched.step ⟨new 64 1000 (some ⟨0⟩) ⟨7⟩, 1⟩ [.fillWindow,
      .ackReceived ⟨1⟩ 10, .write [1, 2, 3, 4, 5, 6, 7, 8, 9, 10], .fillWindow,
      .ackReceived ⟨11⟩ 0, .ackReceived ⟨1⟩ 10, .write [1, 2, 3, 4, 5], .fillWindow]
    final.edge = 12 ∧ final.sender.nextSeqno = 16 := by
  decide +kernel

end Sponge.TCPSender
