import Sponge.Util.EventLoop
import Sponge.Util.FDWrapper

/-!
# The event loop with the functions of its rules

In `EventLoop.waitRules` the answers of the functions of the rules are an input.  Here a rule comes with
its functions.  They work on a state that all rules share, and a callback is also given the part of the
kernel in its system calls.

`Keeps.waitNextEvent` is the rule for invariants: what is kept by every cancellation, and by every callback
of a rule that was interested when the poll was set up, is kept by a call.  The end of the file relates the
two models.
-/

namespace Sponge.EventLoop

open Poll

variable {State Input : Type}

/-- A rule with its functions and its descriptor. -/
structure Handler (State Input : Type) extends Rule where
  fd : State → FDWrapper
  callback : Input → State → Except SystemException State
  interest : State → Bool := fun _ ↦ true
  cancel : State → State := fun state ↦ state

def Handler.serviceCount (handler : Handler State Input) (state : State) : UInt32 :=
  match handler.direction with
  | .In => (handler.fd state).readCount
  | .Out => (handler.fd state).writeCount

/-- The entry of the vector that is built for a rule: a placeholder if the rule is not interested. -/
def Handler.pollfd (handler : Handler State Input) (state : State) : PollFd where
  fd := handler.fdNum
  events := if handler.interest state then handler.direction.events else 0

/-- The surroundings of one call: the answer of `poll`, what it writes into each `PollFd`, and the part of
the kernel in the callbacks. -/
structure Turn (Input : Type) where
  poll : Answer
  revents : ℕ → UInt16
  input : Input

/-- What the first pass leaves behind. -/
structure Prepared (State Input : Type) where
  handlers : List (Handler State Input) := []
  pollfds : List PollFd := []
  events : List Event := []
  somethingToPoll : Bool := false
  state : State

def prepare : List (Handler State Input) → State → Prepared State Input
  | [], state => { state }
  | handler :: rest, state =>
      if handler.direction = .In ∧ (handler.fd state).eof then
        let later := prepare rest (handler.cancel state)
        { later with events := .cancel handler.id :: later.events }
      else if (handler.fd state).closed then
        let later := prepare rest (handler.cancel state)
        { later with events := .cancel handler.id :: later.events }
      else
        let later := prepare rest state
        { later with
          handlers := handler :: later.handlers
          pollfds := handler.pollfd state :: later.pollfds
          somethingToPoll := handler.interest state || later.somethingToPoll }

/-- The rules that are left, the state, the functions called, and the end. -/
structure Handled (State Input : Type) where
  handlers : List (Handler State Input)
  state : State
  events : List Event
  ending : Ending

/-- The second pass, from an index of the vector on.  A callback that throws leaves the state before it: the
loop has ended then, and what such a callback had done already is not recorded. -/
def callReady (pollfds : List PollFd) (input : Input) :
    ℕ → List (Handler State Input) → State → Handled State Input
  | _, [], state => ⟨[], state, [], .returned .success⟩
  | idx, handler :: rest, state =>
      match pollfds[idx]? with
      | none => ⟨handler :: rest, state, [], .outOfBounds idx⟩
      | some pollfd =>
          if pollfd.pollError then ⟨handler :: rest, state, [], .threw errorOnPoll⟩
          else if pollfd.pollHangup && pollfd.events != 0 && !pollfd.pollReady then
            let later := callReady pollfds input (idx + 1) rest (handler.cancel state)
            { later with events := .cancel handler.id :: later.events }
          else if pollfd.pollReady then
            match handler.callback input state with
            | .error exception => ⟨handler :: rest, state, [.callback handler.id], .threw exception⟩
            | .ok after =>
                if handler.serviceCount state == handler.serviceCount after && handler.interest after then
                  ⟨handler :: rest, after, [.callback handler.id], .threw busyWait⟩
                else
                  let later := callReady pollfds input (idx + 1) rest after
                  { later with
                    handlers := handler :: later.handlers
                    events := .callback handler.id :: later.events }
          else
            let later := callReady pollfds input (idx + 1) rest state
            { later with handlers := handler :: later.handlers }

/-- Wait until a descriptor is ready, and call the functions of the rules. -/
def Turn.waitNextEvent (turn : Turn Input) (handlers : List (Handler State Input)) (state : State) :
    Handled State Input :=
  let first := prepare handlers state
  let second (pollfds : List PollFd) : Handled State Input :=
    let handled := callReady pollfds turn.input 0 first.handlers first.state
    { handled with events := first.events ++ handled.events }
  if !first.somethingToPoll then ⟨first.handlers, first.state, first.events, .returned .exit⟩
  else match systemCall "poll" turn.poll with
    | .ok returnValue =>
        if returnValue = 0 then ⟨first.handlers, first.state, first.events, .returned .timeout⟩
        else second (writeRevents turn.revents first.pollfds)
    | .error (.unixError _ errno) =>
        if errno = eIntr then ⟨first.handlers, first.state, first.events, .returned .exit⟩
        else second first.pollfds
    | .error (.std exception) => ⟨first.handlers, first.state, first.events, .threw (.std exception)⟩

/-- The poll was interrupted by a signal. -/
def Turn.Interrupted (turn : Turn Input) : Prop :=
  systemCall "poll" turn.poll = .error (.unixError "poll" eIntr)

instance (turn : Turn Input) : Decidable turn.Interrupted := inferInstanceAs (Decidable (_ = _))

/-! ## Invariants -/

/-- The rule is not removed when the poll is set up. -/
def Handler.Survives (handler : Handler State Input) (state : State) : Prop :=
  ¬ (handler.direction = .In ∧ (handler.fd state).eof = true) ∧ (handler.fd state).closed = false

/-- The rule for invariants, for a given part of the kernel.  The invariant speaks about the rules that are
left and the state, and `calm` about the state before the first callback.  What a rule shows by its interest
when the poll is set up, `wants` or `idle`, is not touched by the rules that come later in the first pass,
nor, if the rule is interested, by those that come earlier in the second pass; so a callback can rely on it.
A callback may throw what `fails` allows, and otherwise it has used its descriptor or has lost its
interest. -/
structure Keeps (inv : List (Handler State Input) → State → Prop) (calm : State → Prop)
    (wants idle : ℕ → State → Prop) (fails : SystemException → Prop) (input : Input) : Prop where
  cancel : ∀ kept handler rest state, inv (kept ++ handler :: rest) state →
    inv (kept ++ rest) (handler.cancel state)
  cancel_calm : ∀ handlers state, inv handlers state → ∀ handler ∈ handlers, calm state →
    calm (handler.cancel state)
  interested : ∀ handlers state, inv handlers state → calm state → ∀ handler ∈ handlers,
    handler.Survives state → handler.interest state = true → wants handler.id state
  uninterested : ∀ handlers state, inv handlers state → ∀ handler ∈ handlers, handler.Survives state →
    handler.interest state = false → idle handler.id state
  cancel_wants : ∀ handlers state, inv handlers state → ∀ handler ∈ handlers, ∀ id ≠ handler.id,
    wants id state → wants id (handler.cancel state)
  cancel_idle : ∀ handlers state, inv handlers state → ∀ handler ∈ handlers, ∀ id < handler.id,
    idle id state → idle id (handler.cancel state)
  error : ∀ handlers state, inv handlers state → ∀ handler ∈ handlers, wants handler.id state →
    ∀ exception, handler.callback input state = .error exception → fails exception
  callback : ∀ handlers state, inv handlers state → ∀ handler ∈ handlers, wants handler.id state →
    ∀ after, handler.callback input state = .ok after → inv handlers after
  callback_wants : ∀ handlers state, inv handlers state → ∀ handler ∈ handlers,
    wants handler.id state → ∀ after, handler.callback input state = .ok after →
    ∀ id > handler.id, wants id state → wants id after
  used : ∀ handlers state, inv handlers state → ∀ handler ∈ handlers, wants handler.id state →
    ∀ after, handler.callback input state = .ok after →
    handler.serviceCount state ≠ handler.serviceCount after ∨ handler.interest after = false

variable {inv : List (Handler State Input) → State → Prop} {calm : State → Prop}
  {wants idle : ℕ → State → Prop} {fails : SystemException → Prop} {input : Input}
  {kept rest handlers : List (Handler State Input)} {handler : Handler State Input} {state : State}
  {pollfds : List PollFd} {idx : ℕ}

/-- The rules stand in the order in which they were added. -/
def Ordered (handlers : List (Handler State Input)) : Prop :=
  handlers.Pairwise fun earlier later ↦ earlier.id < later.id

theorem Ordered.sublist (h : Ordered handlers) (hsub : rest.Sublist handlers) : Ordered rest :=
  List.Pairwise.sublist hsub h

theorem Ordered.lt_of_mem_kept (h : Ordered (kept ++ handler :: rest)) :
    ∀ other ∈ kept, other.id < handler.id :=
  fun other hother ↦ (List.pairwise_append.mp h).2.2 other hother handler List.mem_cons_self

theorem Ordered.lt_of_mem_rest (h : Ordered (kept ++ handler :: rest)) :
    ∀ other ∈ rest, handler.id < other.id :=
  (List.pairwise_cons.mp (List.pairwise_append.mp h).2.1).1

theorem Ordered.remove (h : Ordered (kept ++ handler :: rest)) : Ordered (kept ++ rest) :=
  h.sublist ((List.sublist_cons_self _ _).append_left _)

/-- What is known about a rule after its entry was built. -/
structure Marked (wants idle : ℕ → State → Prop) (state : State) (handler : Handler State Input)
    (pollfd : PollFd) : Prop where
  interested : pollfd.events ≠ 0 → wants handler.id state
  uninterested : pollfd.events = 0 → idle handler.id state

theorem events_pollfd (handler : Handler State Input) (state : State) :
    (handler.pollfd state).events ≠ 0 ↔ handler.interest state = true := by
  unfold Handler.pollfd
  cases handler.interest state <;> cases handler.direction <;> simp [Direction.events, pollIn, pollOut]

/-- The first pass only removes rules. -/
theorem prepare_sublist : (EventLoop.prepare handlers state).handlers.Sublist handlers := by
  induction handlers generalizing state with
  | nil => exact .slnil
  | cons handler rest ih =>
    unfold EventLoop.prepare
    split_ifs
    · exact ih.cons handler
    · exact ih.cons handler
    · exact ih.cons_cons handler

/-- What the first pass leaves behind, for rules that stand after `kept` in the list. -/
structure Prepared.Sound (inv : List (Handler State Input) → State → Prop) (wants idle : ℕ → State → Prop)
    (kept : List (Handler State Input)) (state : State) (prepared : Prepared State Input) : Prop where
  inv : inv (kept ++ prepared.handlers) prepared.state
  interested : ∀ other ∈ kept, wants other.id state → wants other.id prepared.state
  uninterested : ∀ other ∈ kept, idle other.id state → idle other.id prepared.state
  marked : List.Forall₂ (Marked wants idle prepared.state) prepared.handlers prepared.pollfds
  poll : prepared.somethingToPoll = prepared.pollfds.any (·.events != 0)

theorem Keeps.prepare_removed (hkeeps : Keeps inv calm wants idle fails input)
    (hinv : inv (kept ++ handler :: rest) state) (hordered : Ordered (kept ++ handler :: rest))
    {later : Prepared State Input} (events : List Event)
    (h : later.Sound inv wants idle kept (handler.cancel state)) :
    Prepared.Sound inv wants idle kept state { later with events } where
  inv := h.inv
  interested other hother hwants := h.interested other hother
    (hkeeps.cancel_wants _ state hinv handler (by simp) other.id
      (Nat.ne_of_lt (hordered.lt_of_mem_kept other hother)) hwants)
  uninterested other hother hidle := h.uninterested other hother
    (hkeeps.cancel_idle _ state hinv handler (by simp) other.id
      (hordered.lt_of_mem_kept other hother) hidle)
  marked := h.marked
  poll := h.poll

/-- The first pass keeps the invariant, and what it has seen still holds at its end. -/
theorem Keeps.prepare (hkeeps : Keeps inv calm wants idle fails input) (hinv : inv (kept ++ rest) state)
    (hcalm : calm state) (hordered : Ordered (kept ++ rest)) :
    (EventLoop.prepare rest state).Sound inv wants idle kept state := by
  induction rest generalizing kept state with
  | nil => exact ⟨hinv, fun _ _ h ↦ h, fun _ _ h ↦ h, .nil, rfl⟩
  | cons handler rest ih =>
    have hmem : handler ∈ kept ++ handler :: rest := by simp
    have hremoved := ih (hkeeps.cancel kept handler rest state hinv)
      (hkeeps.cancel_calm _ state hinv handler hmem hcalm) hordered.remove
    unfold EventLoop.prepare
    split_ifs with heof hclosed
    · exact hkeeps.prepare_removed hinv hordered _ hremoved
    · exact hkeeps.prepare_removed hinv hordered _ hremoved
    · have hsurvives : handler.Survives state := ⟨heof, Bool.eq_false_iff.mpr hclosed⟩
      have hlater := @ih (kept ++ [handler]) state (List.append_cons kept handler rest ▸ hinv) hcalm
        (List.append_cons kept handler rest ▸ hordered)
      have hself : handler ∈ kept ++ [handler] := by simp
      refine ⟨?_, fun other hother ↦ hlater.interested other (List.mem_append_left _ hother),
        fun other hother ↦ hlater.uninterested other (List.mem_append_left _ hother),
        .cons ⟨fun hevents ↦ ?_, fun hevents ↦ ?_⟩ hlater.marked, ?_⟩
      · rw [List.append_cons]
        exact hlater.inv
      · exact hlater.interested handler hself
          (hkeeps.interested _ state hinv hcalm handler hmem hsurvives
            ((events_pollfd handler state).mp hevents))
      · have hlost : handler.interest state = false :=
          Bool.eq_false_iff.mpr fun h ↦ (events_pollfd handler state).mpr h hevents
        exact hlater.uninterested handler hself
          (hkeeps.uninterested _ state hinv handler hmem hsurvives hlost)
      · have hevents : ((handler.pollfd state).events != 0) = handler.interest state := by
          rw [Bool.eq_iff_iff, bne_iff_ne, events_pollfd]
        rw [List.any_cons, hevents, ← hlater.poll]

/-! ## The second pass -/

theorem PollFd.events_of_ready {pollfd : PollFd} (hready : pollfd.pollReady = true) :
    pollfd.events ≠ 0 := by
  rintro hzero
  rw [PollFd.pollReady, hzero, UInt16.and_zero] at hready
  contradiction

/-- What the second pass leaves behind. -/
structure Handled.Sound (inv : List (Handler State Input) → State → Prop)
    (fails : SystemException → Prop) (kept rest : List (Handler State Input))
    (handled : Handled State Input) : Prop where
  inv : inv (kept ++ handled.handlers) handled.state
  sublist : handled.handlers.Sublist rest
  threw : ∀ exception, handled.ending = .threw exception → exception = errorOnPoll ∨ fails exception
  inBounds : ∀ idx, handled.ending ≠ .outOfBounds idx
  returned : ∀ result, handled.ending = .returned result → result = .success

theorem Handled.Sound.cons {handled : Handled State Input} (events : List Event)
    (h : handled.Sound inv fails (kept ++ [handler]) rest) :
    Handled.Sound inv fails kept (handler :: rest)
      { handled with handlers := handler :: handled.handlers, events } where
  inv := by
    rw [List.append_cons]
    exact h.inv
  sublist := h.sublist.cons_cons handler
  threw := h.threw
  inBounds := h.inBounds
  returned := h.returned

/-- The rules that come later, each with its entry, are still wanted. -/
def StillWanted (wants : ℕ → State → Prop) (state : State) (handler : Handler State Input)
    (pollfd : PollFd) : Prop :=
  pollfd.events ≠ 0 → wants handler.id state

theorem stillWanted_after {before after : State} {rest : List (Handler State Input)}
    {pollfds : List PollFd} (h : List.Forall₂ (StillWanted wants before) rest pollfds)
    (hwants : ∀ other ∈ rest, wants other.id before → wants other.id after) :
    List.Forall₂ (StillWanted wants after) rest pollfds := by
  induction h with
  | nil => exact .nil
  | @cons handler pollfd rest pollfds hfirst _ ih =>
    refine .cons (fun hevents ↦ hwants handler List.mem_cons_self (hfirst hevents)) (ih ?_)
    exact fun other hother ↦ hwants other (List.mem_cons_of_mem _ hother)

/-- The second pass keeps the invariant, and every callback finds what its interest has shown. -/
theorem Keeps.callReady (hkeeps : Keeps inv calm wants idle fails input) (hinv : inv (kept ++ rest) state)
    (hordered : Ordered (kept ++ rest))
    (hwanted : List.Forall₂ (StillWanted wants state) rest (pollfds.drop idx)) :
    (EventLoop.callReady pollfds input idx rest state).Sound inv fails kept rest := by
  induction rest generalizing kept state idx with
  | nil => exact ⟨hinv, .slnil, nofun, nofun, fun _ h ↦ (Ending.returned.inj h).symm⟩
  | cons handler rest ih =>
    obtain ⟨pollfd, later, hfirst, hlater, hdrop⟩ := List.forall₂_cons_left_iff.mp hwanted
    have hentry : pollfds[idx]? = some pollfd := by
      rw [← List.head?_drop, hdrop, List.head?_cons]
    have hnext : pollfds.drop (idx + 1) = later := by
      rw [← List.drop_drop, hdrop, List.drop_one, List.tail_cons]
    have hmem : handler ∈ kept ++ handler :: rest := by simp
    have horderedKept : Ordered ((kept ++ [handler]) ++ rest) := by
      rwa [← List.append_cons]
    have hinvKept (after : State) (h : inv (kept ++ handler :: rest) after) :
        inv ((kept ++ [handler]) ++ rest) after := by
      rwa [← List.append_cons]
    rw [EventLoop.callReady, hentry]
    dsimp only
    split_ifs with herror hhangup hready
    · exact ⟨hinv, .refl _, fun _ h ↦ .inl (Ending.threw.inj h).symm, nofun, nofun⟩
    · -- The descriptor has hung up, and the rule is removed.
      have hcancelled := @ih kept (handler.cancel state) (idx + 1)
        (hkeeps.cancel kept handler rest state hinv) hordered.remove
        (hnext ▸ stillWanted_after hlater fun other hother ↦ hkeeps.cancel_wants _ state hinv handler
          hmem other.id (Nat.ne_of_gt (hordered.lt_of_mem_rest other hother)))
      exact ⟨hcancelled.inv, hcancelled.sublist.cons handler, hcancelled.threw, hcancelled.inBounds,
        hcancelled.returned⟩
    · have hwants : wants handler.id state := hfirst (PollFd.events_of_ready hready)
      cases hcall : handler.callback input state with
      | error exception =>
        refine ⟨hinv, .refl _, fun thrown h ↦ .inr ?_, nofun, nofun⟩
        rw [← Ending.threw.inj h]
        exact hkeeps.error _ state hinv handler hmem hwants exception hcall
      | ok after =>
        have hafter := hkeeps.callback _ state hinv handler hmem hwants after hcall
        have hused : ¬ (handler.serviceCount state == handler.serviceCount after &&
            handler.interest after) = true := by
          rw [Bool.and_eq_true_iff, beq_iff_eq]
          rintro ⟨hsame, hstill⟩
          cases hkeeps.used _ state hinv handler hmem hwants after hcall with
          | inl hcount => exact hcount hsame
          | inr hlost => exact absurd (hlost ▸ hstill) Bool.false_ne_true
        dsimp only
        rw [if_neg hused]
        exact (ih (hinvKept after hafter) horderedKept
          (hnext ▸ stillWanted_after hlater fun other hother ↦ hkeeps.callback_wants _ state hinv
            handler hmem hwants after hcall other.id (hordered.lt_of_mem_rest other hother))).cons _
    · exact (ih (hinvKept state hinv) horderedKept (hnext ▸ hlater)).cons _

/-! ## A whole call -/

/-- What a call leaves behind: the invariant holds for the rules that are left; an exception comes from
`poll` or is allowed; and a call that returns `exit` has been interrupted, or all rules that are left were
idle. -/
structure Handled.Settled (inv : List (Handler State Input) → State → Prop) (idle : ℕ → State → Prop)
    (fails : SystemException → Prop) (turn : Turn Input) (handlers : List (Handler State Input))
    (handled : Handled State Input) : Prop where
  inv : inv handled.handlers handled.state
  sublist : handled.handlers.Sublist handlers
  threw : ∀ exception, handled.ending = .threw exception → exception = errorOnPoll ∨ fails exception
  inBounds : ∀ idx, handled.ending ≠ .outOfBounds idx
  exit : handled.ending = .returned .exit →
    turn.Interrupted ∨ ∀ handler ∈ handled.handlers, idle handler.id handled.state

theorem stillWanted_writeRevents (revents : ℕ → UInt16)
    (h : List.Forall₂ (StillWanted wants state) handlers pollfds) :
    List.Forall₂ (StillWanted wants state) handlers (writeRevents revents pollfds) := by
  rw [List.forall₂_iff_get] at h ⊢
  obtain ⟨hlength, hentries⟩ := h
  refine ⟨by rw [writeRevents, List.length_mapIdx, hlength], fun i hhandler hpollfd ↦ ?_⟩
  have hentry := hentries i hhandler (by omega)
  unfold StillWanted at hentry ⊢
  simpa [writeRevents] using hentry

theorem systemCall_error {attempt : String} {answer : Answer} {exception : SystemException}
    (h : systemCall attempt answer = .error exception) :
    ∃ errno, exception = .unixError attempt errno := by
  unfold systemCall at h
  dsimp only at h
  split_ifs at h
  exact ⟨answer.errno, (Except.error.inj h).symm⟩

theorem idle_of_nothing (h : List.Forall₂ (Marked wants idle state) handlers pollfds)
    (hnothing : pollfds.any (·.events != 0) = false) :
    ∀ handler ∈ handlers, idle handler.id state := by
  induction h with
  | nil => exact fun _ h ↦ absurd h List.not_mem_nil
  | @cons first pollfd rest pollfds hfirst _ ih =>
    rw [List.any_cons, Bool.or_eq_false_iff, bne_eq_false_iff_eq] at hnothing
    intro handler hhandler
    cases List.mem_cons.mp hhandler with
    | inl heq =>
      rw [heq]
      exact hfirst.uninterested hnothing.1
    | inr hrest => exact ih hnothing.2 handler hrest

/-- A whole call keeps the invariant. -/
theorem Keeps.waitNextEvent {turn : Turn Input} (hkeeps : Keeps inv calm wants idle fails turn.input)
    (hinv : inv handlers state) (hcalm : calm state) (hordered : Ordered handlers) :
    (turn.waitNextEvent handlers state).Settled inv idle fails turn handlers := by
  have hfirst : (EventLoop.prepare handlers state).Sound inv wants idle [] state :=
    hkeeps.prepare hinv hcalm hordered
  have hsublist : (EventLoop.prepare handlers state).handlers.Sublist handlers := prepare_sublist
  set first := EventLoop.prepare handlers state with hprepare
  have hwanted : List.Forall₂ (StillWanted wants first.state) first.handlers first.pollfds :=
    hfirst.marked.imp fun _ _ h ↦ h.interested
  have hsecond (pollfds : List PollFd) (events : List Event)
      (hentries : List.Forall₂ (StillWanted wants first.state) first.handlers pollfds) :
      Handled.Settled inv idle fails turn handlers
        { EventLoop.callReady pollfds turn.input 0 first.handlers first.state with events } := by
    have hhandled := @Keeps.callReady _ _ _ _ _ _ _ _ [] _ _ pollfds 0 hkeeps hfirst.inv
      (hordered.sublist hsublist) hentries
    refine ⟨hhandled.inv, hhandled.sublist.trans hsublist, hhandled.threw, hhandled.inBounds,
      fun hexit ↦ ?_⟩
    have := hhandled.returned _ hexit
    contradiction
  have hstays (ending : Ending) (hthrew : ∀ exception, ending ≠ .threw exception)
      (hinBounds : ∀ idx, ending ≠ .outOfBounds idx)
      (hexit : ending = .returned .exit →
        turn.Interrupted ∨ ∀ handler ∈ first.handlers, idle handler.id first.state) :
      Handled.Settled inv idle fails turn handlers ⟨first.handlers, first.state, first.events, ending⟩ :=
    ⟨hfirst.inv, hsublist, fun exception h ↦ absurd h (hthrew exception), hinBounds, hexit⟩
  unfold Turn.waitNextEvent
  dsimp only
  rw [← hprepare]
  split_ifs with hidle
  · refine hstays _ nofun nofun fun _ ↦ .inr (idle_of_nothing hfirst.marked ?_)
    rwa [Bool.not_eq_true', hfirst.poll] at hidle
  · cases hpoll : systemCall "poll" turn.poll with
    | ok returnValue =>
      dsimp only
      split_ifs
      · exact hstays _ nofun nofun nofun
      · exact hsecond _ _ (stillWanted_writeRevents _ hwanted)
    | error exception =>
      obtain ⟨errno, rfl⟩ := systemCall_error hpoll
      dsimp only
      split_ifs with hintr
      · subst hintr
        exact hstays _ nofun nofun fun _ ↦ .inl hpoll
      · exact hsecond _ _ hwanted

/-- An invariant may be strengthened by a property of the state that it helps to keep. -/
theorem Keeps.and {extra : State → Prop} (hkeeps : Keeps inv calm wants idle fails input)
    (hcancel : ∀ handlers state, inv handlers state → ∀ handler ∈ handlers, extra state →
      extra (handler.cancel state))
    (hcallback : ∀ handlers state, inv handlers state → ∀ handler ∈ handlers, wants handler.id state →
      extra state → ∀ after, handler.callback input state = .ok after → extra after) :
    Keeps (fun handlers state ↦ inv handlers state ∧ extra state) calm wants idle fails input where
  cancel kept handler rest state h :=
    ⟨hkeeps.cancel kept handler rest state h.1, hcancel _ state h.1 handler (by simp) h.2⟩
  cancel_calm handlers state h := hkeeps.cancel_calm handlers state h.1
  interested handlers state h := hkeeps.interested handlers state h.1
  uninterested handlers state h := hkeeps.uninterested handlers state h.1
  cancel_wants handlers state h := hkeeps.cancel_wants handlers state h.1
  cancel_idle handlers state h := hkeeps.cancel_idle handlers state h.1
  error handlers state h := hkeeps.error handlers state h.1
  callback handlers state h handler hmem hwants after hok :=
    ⟨hkeeps.callback handlers state h.1 handler hmem hwants after hok,
      hcallback handlers state h.1 handler hmem hwants h.2 after hok⟩
  callback_wants handlers state h := hkeeps.callback_wants handlers state h.1
  used handlers state h := hkeeps.used handlers state h.1

/-! ## The two models of a call -/

def ids (handlers : List (Handler State Input)) : List ℕ := handlers.map (·.id)

@[simp] theorem ids_cons : ids (handler :: rest) = handler.id :: ids rest := rfl

/-- The state in which the first pass goes on after a rule. -/
def Handler.proceed (handler : Handler State Input) (state : State) : State :=
  if handler.direction = .In ∧ (handler.fd state).eof then handler.cancel state
  else if (handler.fd state).closed then handler.cancel state
  else state

/-- What the first pass sees of each rule. -/
def seen : List (Handler State Input) → State → ℕ → Observation
  | [], _, _ => {}
  | handler :: rest, state, id =>
      if id = handler.id then
        { eof := (handler.fd state).eof
          closed := (handler.fd state).closed
          interest := handler.interest state }
      else seen rest (handler.proceed state) id

/-- What the second pass does with a rule: the state in which it goes on, or nothing if the callback has
thrown an exception or was found busy. -/
def Handler.attend (handler : Handler State Input) (pollfd : PollFd) (input : Input) (state : State) :
    Option State :=
  if pollfd.pollHangup && pollfd.events != 0 && !pollfd.pollReady then some (handler.cancel state)
  else if pollfd.pollReady then
    match handler.callback input state with
    | .error _ => none
    | .ok after =>
        if handler.serviceCount state == handler.serviceCount after && handler.interest after then none
        else some after
  else some state

/-- The rule at which the second pass stops, if there is one. -/
def stopsAt (pollfds : List PollFd) (input : Input) : ℕ → List (Handler State Input) → State → Option ℕ
  | _, [], _ => none
  | idx, handler :: rest, state =>
      match pollfds[idx]? with
      | none => none
      | some pollfd =>
          match handler.attend pollfd input state with
          | none => some handler.id
          | some after => stopsAt pollfds input (idx + 1) rest after

/-- The recorded call has done the same.  It does not know why a callback has failed. -/
structure Handled.Matches (handled : Handled State Input) (recorded : Outcome) : Prop where
  rules : handled.handlers.map Handler.toRule = recorded.rules
  events : handled.events = recorded.events
  ending : handled.ending = recorded.ending ∨
    ∃ exception, handled.ending = .threw exception ∧ recorded.ending = .threw busyWait

/-- The first pass does what the recorded one does. -/
theorem setup_map_toRule {observe : ℕ → Observation} (hnodup : (ids handlers).Nodup)
    (hseen : ∀ id ∈ ids handlers, (observe id).eof = (seen handlers state id).eof ∧
      (observe id).closed = (seen handlers state id).closed ∧
      (observe id).interest = (seen handlers state id).interest) :
    setup observe (handlers.map Handler.toRule) =
      { rules := (EventLoop.prepare handlers state).handlers.map Handler.toRule
        pollfds := (EventLoop.prepare handlers state).pollfds
        events := (EventLoop.prepare handlers state).events
        somethingToPoll := (EventLoop.prepare handlers state).somethingToPoll } := by
  induction handlers generalizing state with
  | nil => rfl
  | cons handler rest ih =>
    rw [ids_cons, List.nodup_cons] at hnodup
    obtain ⟨hfresh, hrest⟩ := hnodup
    have hlater := @ih (handler.proceed state) hrest fun id hid ↦ by
      have hne : id ≠ handler.id := fun heq ↦ hfresh (heq ▸ hid)
      have hid := hseen id (List.mem_cons_of_mem _ hid)
      rwa [seen, if_neg hne] at hid
    have hself := hseen handler.id List.mem_cons_self
    rw [seen, if_pos rfl] at hself
    obtain ⟨heof, hclosed, hinterest⟩ := hself
    rw [List.map_cons, setup, EventLoop.prepare]
    dsimp only
    rw [heof, hclosed, hinterest, hlater, Handler.proceed]
    by_cases hend : handler.direction = .In ∧ (handler.fd state).eof = true
    · simp only [if_pos hend]
    · simp only [if_neg hend]
      by_cases hshut : (handler.fd state).closed = true
      · simp only [if_pos hshut]
      · simp only [if_neg hshut, Handler.pollfd]
        cases hwants : handler.interest state <;> simp

theorem stopsAt_of_attend {pollfd : PollFd} (hentry : pollfds[idx]? = some pollfd) :
    stopsAt pollfds input idx (handler :: rest) state =
      match handler.attend pollfd input state with
      | none => some handler.id
      | some after => stopsAt pollfds input (idx + 1) rest after := by
  rw [stopsAt, hentry]

theorem stopsAt_mem {id : ℕ} (h : stopsAt pollfds input idx handlers state = some id) :
    id ∈ ids handlers := by
  induction handlers generalizing idx state with
  | nil => nomatch h
  | cons handler rest ih =>
    unfold stopsAt at h
    split at h
    · nomatch h
    · split at h
      · cases h
        exact List.mem_cons_self
      · exact List.mem_cons_of_mem _ (ih h)

/-- The second pass does what the recorded one does. -/
theorem callReady_matches {observe : ℕ → Observation} (hnodup : (ids handlers).Nodup)
    (hbusy : ∀ id ∈ ids handlers,
      (observe id).isBusy = decide (stopsAt pollfds input idx handlers state = some id)) :
    (EventLoop.callReady pollfds input idx handlers state).Matches
      (dispatch observe pollfds idx (handlers.map Handler.toRule)) := by
  induction handlers generalizing idx state with
  | nil => exact ⟨rfl, rfl, .inl rfl⟩
  | cons handler rest ih =>
    rw [ids_cons, List.nodup_cons] at hnodup
    obtain ⟨hfresh, hrest⟩ := hnodup
    rw [List.map_cons, dispatch, EventLoop.callReady]
    cases hentry : pollfds[idx]? with
    | none => exact ⟨rfl, rfl, .inl rfl⟩
    | some pollfd =>
      rw [stopsAt_of_attend hentry] at hbusy
      have hself := hbusy handler.id List.mem_cons_self
      -- The second pass goes on in the state `after`, or it stops at this rule.
      have hgoesOn {after : State} (hattend : handler.attend pollfd input state = some after) :
          (EventLoop.callReady pollfds input (idx + 1) rest after).Matches
              (dispatch observe pollfds (idx + 1) (rest.map Handler.toRule)) ∧
            (observe handler.id).isBusy = false := by
        rw [hattend] at hbusy hself
        refine ⟨ih hrest fun id hid ↦ hbusy id (List.mem_cons_of_mem _ hid), ?_⟩
        rw [hself, decide_eq_false_iff_not]
        exact fun hstops ↦ hfresh (stopsAt_mem hstops)
      have hstops (hattend : handler.attend pollfd input state = none) :
          (observe handler.id).isBusy = true := by
        rw [hattend] at hself
        rw [hself, decide_eq_true_iff]
      unfold Handler.attend at hgoesOn hstops
      dsimp only
      by_cases herror : pollfd.pollError = true
      · rw [if_pos herror, if_pos herror]
        exact ⟨rfl, rfl, .inl rfl⟩
      rw [if_neg herror, if_neg herror]
      by_cases hhangup : (pollfd.pollHangup && pollfd.events != 0 && !pollfd.pollReady) = true
      · rw [if_pos hhangup, if_pos hhangup]
        obtain ⟨hlater, -⟩ := hgoesOn (if_pos hhangup)
        exact ⟨hlater.rules, congrArg _ hlater.events, hlater.ending⟩
      rw [if_neg hhangup] at hgoesOn hstops ⊢
      rw [if_neg hhangup]
      by_cases hready : pollfd.pollReady = true
      · rw [if_pos hready] at hgoesOn hstops ⊢
        rw [if_pos hready]
        cases hcall : handler.callback input state with
        | error exception =>
          rw [hcall] at hstops
          rw [if_pos (hstops rfl)]
          exact ⟨rfl, rfl, .inr ⟨exception, rfl, rfl⟩⟩
        | ok after =>
          rw [hcall] at hgoesOn hstops
          dsimp only at hgoesOn hstops ⊢
          by_cases hfutile : (handler.serviceCount state == handler.serviceCount after &&
              handler.interest after) = true
          · rw [if_pos hfutile] at hstops ⊢
            rw [if_pos (hstops rfl)]
            exact ⟨rfl, rfl, .inl rfl⟩
          · rw [if_neg hfutile] at hgoesOn ⊢
            obtain ⟨hlater, hidle⟩ := hgoesOn rfl
            rw [if_neg (Bool.eq_false_iff.mp hidle)]
            exact ⟨congrArg _ hlater.rules, congrArg _ hlater.events, hlater.ending⟩
      · rw [if_neg hready] at hgoesOn ⊢
        rw [if_neg hready]
        obtain ⟨hlater, -⟩ := hgoesOn rfl
        exact ⟨congrArg _ hlater.rules, hlater.events, hlater.ending⟩

/-- What the recorded call has to observe, if `poll` leaves `pollfds` in the vector. -/
def observed (handlers : List (Handler State Input)) (state : State) (pollfds : List PollFd)
    (input : Input) (id : ℕ) : Observation :=
  let first := EventLoop.prepare handlers state
  { seen handlers state id with
    countBefore := 0
    countAfter := if stopsAt pollfds input 0 first.handlers first.state = some id then 0 else 1
    interestAfter := true }

theorem isBusy_observed (id : ℕ) :
    (observed handlers state pollfds input id).isBusy =
      decide (stopsAt pollfds input 0 (EventLoop.prepare handlers state).handlers
        (EventLoop.prepare handlers state).state = some id) := by
  unfold observed Observation.isBusy
  dsimp only
  split_ifs with hstops
  · simp [hstops]
  · simp [hstops]

/-- A call with the functions of the rules is a call in which their answers are given: for some
observations it leaves the same rules in the list, calls the same functions in the same order, and ends in
the same way, except that an exception of a callback appears as a busy wait.  So what is known about the
recorded calls holds for rules with functions that change the state and each other's interest. -/
theorem waitNextEvent_refines (turn : Turn Input) (handlers : List (Handler State Input)) (state : State)
    (hnodup : (ids handlers).Nodup) :
    ∃ observe, (turn.waitNextEvent handlers state).Matches
      (waitRules ⟨observe, turn.poll, turn.revents⟩ (handlers.map Handler.toRule)) := by
  set first := EventLoop.prepare handlers state with hprepare
  have hleft : (ids first.handlers).Nodup := hnodup.sublist (prepare_sublist.map _)
  have hsetup (pollfds : List PollFd) :
      setup (observed handlers state pollfds turn.input) (handlers.map Handler.toRule) =
        ⟨first.handlers.map Handler.toRule, first.pollfds, first.events, first.somethingToPoll⟩ :=
    setup_map_toRule hnodup fun _ _ ↦ ⟨rfl, rfl, rfl⟩
  have hdispatch (pollfds : List PollFd) :
      (EventLoop.callReady pollfds turn.input 0 first.handlers first.state).Matches
        (dispatch (observed handlers state pollfds turn.input) pollfds 0
          (first.handlers.map Handler.toRule)) :=
    callReady_matches hleft fun id _ ↦ isBusy_observed id
  -- The vector is known before the observations are chosen.
  obtain ⟨pollfds, hpollfds⟩ : ∃ pollfds, pollfds =
      match systemCall "poll" turn.poll with
      | .ok _ => writeRevents turn.revents first.pollfds
      | .error _ => first.pollfds := ⟨_, rfl⟩
  refine ⟨observed handlers state pollfds turn.input, ?_⟩
  unfold Turn.waitNextEvent waitRules
  dsimp only
  rw [hsetup, ← hprepare]
  dsimp only
  have hlater := hdispatch pollfds
  split_ifs with hidle
  · exact ⟨rfl, rfl, .inl rfl⟩
  · cases hpoll : systemCall "poll" turn.poll with
    | ok returnValue =>
      rw [hpoll] at hpollfds
      dsimp only at hpollfds ⊢
      rw [← hpollfds]
      split_ifs
      · exact ⟨rfl, rfl, .inl rfl⟩
      · exact ⟨hlater.rules, congrArg _ hlater.events, hlater.ending⟩
    | error exception =>
      obtain ⟨errno, rfl⟩ := systemCall_error hpoll
      rw [hpoll] at hpollfds
      dsimp only at hpollfds ⊢
      rw [← hpollfds]
      split_ifs
      · exact ⟨rfl, rfl, .inl rfl⟩
      · exact ⟨hlater.rules, congrArg _ hlater.events, hlater.ending⟩

/-- The callback of the first rule wakes the second rule up, whose callback throws an exception. -/
theorem waitNextEvent_refines_two_rules :
    let turn : Turn Unit :=
      { poll := { returnValue := 2 }, revents := fun _ ↦ pollIn ||| pollOut, input := () }
    let reads : Handler (FDWrapper × Bool) Unit :=
      { id := 1, fdNum := 3, direction := .In, fd := Prod.fst
        callback := fun _ state ↦ .ok (state.1.registerRead, true) }
    let writes : Handler (FDWrapper × Bool) Unit :=
      { id := 2, fdNum := 3, direction := .Out, fd := Prod.fst
        callback := fun _ state ↦
          if state.2 then .error (.std (.runtimeError "woken")) else .ok (state.1.registerWrite, false) }
    let handled := turn.waitNextEvent [reads, writes] ({}, false)
    handled.events = [.callback 1, .callback 2] ∧
      ∃ observe, handled.Matches
        (waitRules ⟨observe, turn.poll, turn.revents⟩ [reads.toRule, writes.toRule]) := by
  intro turn reads writes handled
  exact ⟨by decide, waitNextEvent_refines turn [reads, writes] ({}, false) (by decide)⟩

end Sponge.EventLoop
