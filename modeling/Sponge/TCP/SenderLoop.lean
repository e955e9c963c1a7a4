import Sponge.TCP.SenderWindow

/-!
# The loop of `fillWindow`

The condition of the loop is made of predicates on the state of the sender, which the body changes.  The
loop ends nevertheless: whichever of the predicates let an iteration in, its segment is not empty, and
what the segment takes is taken from the window.  `Round` is one iteration with the window that is left,
and `fillLoop_eq_iterate` says that the loop is a number of them.
-/

namespace Sponge.TCPSender

open Execution

variable {sender : TCPSender} {left fuel : ℕ}

/-- The condition of the loop, for a sender and what is left of the window. -/
def Continues (state : TCPSender × ℕ) : Prop := state.2 > 0 ∧ state.1.wantsToSend = true

instance (state : TCPSender × ℕ) : Decidable (Continues state) := inferInstanceAs (Decidable (_ ∧ _))

def fillRound (state : TCPSender × ℕ) : TCPSender × ℕ := state.1.fillOnce state.2

/-- What an iteration uses of the window: at least one, at most what is left, and as much as the segment
is long that it sends. -/
structure Round (state : TCPSender × ℕ) : Prop where
  continues : Continues state
  used_pos : 1 ≤ (state.1.filled state.2).used
  used_le : (state.1.filled state.2).used ≤ state.2
  left_eq : (fillRound state).2 = state.2 - (state.1.filled state.2).used
  length_eq : (state.1.filled state.2).segment.lengthInSequenceSpace = (state.1.filled state.2).used
  queue_eq : ∃ emission, (fillRound state).1.segmentsOut = state.1.segmentsOut ++ [emission] ∧
    emission.segment = (state.1.filled state.2).segment

/-- The three ways into the loop are looked at in `NextSegment.length_pos`. -/
theorem round_of_continues (hvalid : sender.stream.Valid) (h : Continues (sender, left)) :
    Round (sender, left) ∧ (fillRound (sender, left)).1.stream.Valid := by
  obtain ⟨segment, hnext, hfits, hfilled⟩ := filled_spec hvalid h.1
  have hpositive := hnext.length_pos hvalid h.1 h.2
  have hround : fillRound (sender, left) = (sender.sent segment, left - segment.lengthInSequenceSpace) := by
    rw [fillRound, fillOnce_eq, hfilled, Word.sub_of_le hfits]
    rfl
  constructor
  · constructor
    case continues => exact h
    case queue_eq =>
      rw [hround, hfilled]
      exact ⟨{ segment, kind := .first, absSeqno := sender.firstUnsent }, rfl, rfl⟩
    case left_eq => rw [hround, hfilled]
    all_goals rw [hfilled]
    · exact hpositive
    · exact hfits
  · rw [hround]
    exact valid_sent hvalid segment

/-- With the window as fuel, the loop goes on exactly as long as its condition holds. -/
theorem fillLoop_eq_iterate (hvalid : sender.stream.Valid) (hfuel : left ≤ fuel) :
    ∃ rounds ≤ left, (∀ round < rounds, Round (fillRound^[round] (sender, left))) ∧
      ¬ Continues (fillRound^[rounds] (sender, left)) ∧
      fillLoop fuel sender left = (fillRound^[rounds] (sender, left)).1 := by
  induction fuel generalizing sender left with
  | zero =>
    obtain rfl : left = 0 := Nat.le_zero.mp hfuel
    exact ⟨0, le_rfl, nofun, fun hcontinues ↦ absurd hcontinues.1 (lt_irrefl 0), rfl⟩
  | succ fuel ih =>
    unfold fillLoop
    by_cases hcontinues : Continues (sender, left)
    · obtain ⟨hround, hstream⟩ := round_of_continues hvalid hcontinues
      have hless : (fillRound (sender, left)).2 < left := by
        have hpositive := hround.used_pos
        rw [hround.left_eq]
        exact Nat.sub_lt hcontinues.1 hpositive
      obtain ⟨rounds, hrounds, hall, hend, hloop⟩ := ih hstream
        (Nat.le_of_lt_succ (hless.trans_le hfuel))
      refine ⟨rounds + 1, hrounds.trans_lt hless, fun round hlt ↦ ?_, hend, ?_⟩
      · cases round with
        | zero => exact hround
        | succ round => exact hall round (Nat.lt_of_succ_lt_succ hlt)
      · exact (if_pos hcontinues).trans hloop
    · exact ⟨0, Nat.zero_le left, nofun, hcontinues, if_neg hcontinues⟩

/-- The segments that iterations have queued. -/
theorem queue_iterate {rounds : ℕ} {state : TCPSender × ℕ}
    (h : ∀ round < rounds, Round (fillRound^[round] state)) :
    ∃ emissions, (fillRound^[rounds] state).1.segmentsOut = state.1.segmentsOut ++ emissions ∧
      emissions.length = rounds ∧
      ∀ emission ∈ emissions, 0 < emission.segment.lengthInSequenceSpace := by
  induction rounds with
  | zero =>
    refine ⟨[], ?_, rfl, fun _ hemission ↦ absurd hemission List.not_mem_nil⟩
    rw [Function.iterate_zero_apply, List.append_nil]
  | succ rounds ih =>
    obtain ⟨emissions, hqueue, hlength, hpositive⟩ := ih fun round hlt ↦ h round (Nat.lt_succ_of_lt hlt)
    have hlast := h rounds (Nat.lt_succ_self rounds)
    obtain ⟨last, hadd, hsegment⟩ := hlast.queue_eq
    refine ⟨emissions ++ [last], ?_, ?_, ?_⟩
    · rw [Function.iterate_succ_apply', hadd, hqueue, List.append_assoc]
    · rw [List.length_append, hlength, List.length_singleton]
    · intro emission hemission
      cases List.mem_append.mp hemission with
      | inl hbefore => exact hpositive emission hbefore
      | inr hnew =>
        rw [List.mem_singleton.mp hnew, hsegment, hlast.length_eq]
        exact hlast.used_pos

/-- The right edge that `fillWindow` goes by. -/
def fillEdge (sender : TCPSender) : ℕ := sender.ackno + max sender.windowSize.toNat 1

/-- The state of the loop in `fillWindow` after a number of iterations. -/
def fillState (sender : TCPSender) (round : ℕ) : TCPSender × ℕ :=
  fillRound^[round] (sender, sender.fillEdge - sender.nextSeqno)

/-- The loop in `fillWindow` ends after at most as many iterations as the window has units.  Each
iteration uses at least one unit and at most what is left, so the subtraction does not wrap around.  No
segment that is queued is empty, and nothing is sent beyond the right edge. -/
structure FillEnds (sender : TCPSender) (rounds : ℕ) : Prop where
  rounds_le : rounds ≤ max sender.windowSize.toNat 1
  round : ∀ round < rounds,
    let (current, left) := sender.fillState round
    Continues (current, left) ∧ 1 ≤ (current.filled left).used ∧ (current.filled left).used ≤ left ∧
      (sender.fillState (round + 1)).2 = left - (current.filled left).used
  ended : ¬ Continues (sender.fillState rounds)
  result : sender.fillWindow = (sender.fillState rounds).1
  queue : ∃ emissions, sender.fillWindow.segmentsOut = sender.segmentsOut ++ emissions ∧
    emissions.length = rounds ∧ ∀ emission ∈ emissions, 0 < emission.segment.lengthInSequenceSpace
  next_le : sender.fillWindow.nextSeqno ≤ max sender.nextSeqno sender.fillEdge

/-- The loop is a number of iterations, at most one for each unit of the window. -/
theorem fillWindow_eq_iterate (hvalid : sender.stream.Valid) :
    ∃ rounds ≤ sender.fillEdge - sender.nextSeqno,
      (∀ round < rounds, Round (sender.fillState round)) ∧ ¬ Continues (sender.fillState rounds) ∧
        sender.fillWindow = (sender.fillState rounds).1 := by
  have hedge : sender.ackno + sender.effectiveWindow = sender.fillEdge :=
    congrArg (sender.ackno + ·) (effectiveWindow_eq sender)
  unfold fillWindow
  rw [hedge]
  split_ifs with hfull
  · -- No room is left, and the loop is not entered.
    refine ⟨0, Nat.zero_le _, nofun, fun hcontinues ↦ ?_, rfl⟩
    exact absurd hcontinues.1 (Nat.not_lt.mpr (Nat.sub_eq_zero_of_le hfull).le)
  · rw [Word.sub_of_le (not_le.mp hfull).le]
    exact fillLoop_eq_iterate hvalid le_rfl

theorem Sequenced.inside (h : sender.Sequenced) : Inside (max sender.nextSeqno sender.fillEdge) sender where
  valid := h.valid
  unsent_le := by
    rw [h.next]
    exact Nat.le_add_right _ _
  next_le := le_max_left _ _
  window_le := by
    rw [effectiveWindow_eq]
    exact le_max_right _ _

/-- The loop ends as it should. -/
theorem Sequenced.fillEnds (h : sender.Sequenced) : ∃ rounds, FillEnds sender rounds := by
  obtain ⟨rounds, hrounds, hall, hend, hfill⟩ := fillWindow_eq_iterate h.valid
  refine ⟨rounds, ?_, fun round hlt ↦ ?_, hend, hfill, hfill ▸ queue_iterate hall,
    h.inside.fillWindow.next_le⟩
  · calc
      rounds ≤ sender.fillEdge - sender.nextSeqno := hrounds
      _ ≤ sender.fillEdge - sender.ackno := Nat.sub_le_sub_left h.ackno_le _
      _ = max sender.windowSize.toNat 1 := Nat.add_sub_cancel_left _ _
  · have hround := hall round hlt
    have hnext : sender.fillState (round + 1) = fillRound (sender.fillState round) :=
      Function.iterate_succ_apply' fillRound round _
    exact ⟨hround.continues, hround.used_pos, hround.used_le, hnext ▸ hround.left_eq⟩

/-- In every state that a run without writes after the end of the input reaches, and for every window,
`fillWindow` ends and sends no empty segment.  This is so for a call of the user and for the one that
`ackReceived` makes after it has taken a new acknowledgment number over. -/
theorem fillWindow_ends (capacity : ℕ) (retxTimeout : UInt16) (fixedIsn : Option WrappingInt32)
    (randomIsn : WrappingInt32) (calls : List Call)
    (h : Admissible step WritesBeforeEnd (new capacity retxTimeout fixedIsn randomIsn) calls)
    (windowSize : UInt16) :
    let sender := { run step (new capacity retxTimeout fixedIsn randomIsn) calls with windowSize }
    (∃ rounds, FillEnds sender rounds) ∧
      ∀ newAckno, sender.ackno < newAckno → newAckno ≤ sender.nextSeqno →
        ∃ rounds, FillEnds (sender.acknowledge newAckno) rounds := by
  intro sender
  have hreached : (run step (new capacity retxTimeout fixedIsn randomIsn) calls).Sequenced :=
    h.invariant Sequenced (fun _ _ hbefore hcall ↦ hbefore.step hcall)
      (sequenced_new capacity retxTimeout fixedIsn randomIsn)
  have hsequenced : sender.Sequenced := hreached.move (.adjust windowSize _ _ _)
  exact ⟨hsequenced.fillEnds, fun newAckno hnew hsent ↦ (hsequenced.acknowledge hnew hsent).fillEnds⟩

/-- A stream of three bytes has ended, and the window is three: one iteration sends the bytes, and there
is no room for the FIN. -/
theorem fillWindow_ends_three_bytes :
    let calls : List Call := [.fillWindow, .ackReceived ⟨1⟩ 3, .write [97, 98, 99], .endInput]
    Admissible step WritesBeforeEnd (new 8 1000 (some ⟨0⟩) ⟨7⟩) calls ∧
      ∃ rounds, FillEnds { run step (new 8 1000 (some ⟨0⟩) ⟨7⟩) calls with windowSize := 3 } rounds := by
  intro calls
  have h : Admissible step WritesBeforeEnd (new 8 1000 (some ⟨0⟩) ⟨7⟩) calls := by
    decide +kernel
  exact ⟨h, (fillWindow_ends 8 1000 (some ⟨0⟩) ⟨7⟩ calls h 3).1⟩

end Sponge.TCPSender
