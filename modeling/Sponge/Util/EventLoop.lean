import Mathlib.Data.List.Nodup
import Mathlib.Data.UInt
import Sponge.Library.Execution
import Sponge.Util.FileDescriptor

/-!
# The event loop

An `EventLoop` holds a list of rules.  Each rule asks for a callback when its file descriptor is ready.
`waitNextEvent` goes over the list twice.  The first pass removes the rules whose descriptors are at their
end and sets up a `PollFd` for each other rule.  The second pass goes by the results of `poll`.  It finds
the result of a rule by counting: the index into the vector is advanced with every rule, also with one that
is removed from the list.

What the descriptors and the functions of the rules answer, and what `poll` reports, are inputs of the
model.  Each callback and each cancellation is recorded.  A rule has an identity, as the node of the list
has.  The functions of the rules neither add nor remove rules.
-/

namespace Sponge

/-! ## Constants of `poll.h` -/

namespace Poll

def pollIn : UInt16 := 0x001

def pollOut : UInt16 := 0x004

def pollErr : UInt16 := 0x008

def pollHup : UInt16 := 0x010

def pollNval : UInt16 := 0x020

/-- The value of `errno` after an interrupted system call. -/
def eIntr : ℤ := 4

end Poll

namespace EventLoop

open Poll

inductive Direction where
  | In
  | Out
  deriving DecidableEq, Repr

def Direction.events : Direction → UInt16
  | In => pollIn
  | Out => pollOut

/-- A condition that an event loop handles, with its identity. -/
structure Rule where
  id : ℕ
  fdNum : ℤ
  direction : Direction
  deriving DecidableEq, Repr

structure PollFd where
  fd : ℤ
  events : UInt16
  revents : UInt16 := 0
  deriving DecidableEq, Repr

/-- What the descriptor and the functions of a rule answer in one call: whether the descriptor is at its
end or closed and whether the rule is interested, when the poll is set up; the service count before and
after the callback; and whether the rule is interested after it. -/
structure Observation where
  eof : Bool := false
  closed : Bool := false
  interest : Bool := true
  countBefore : UInt32 := 0
  countAfter : UInt32 := 1
  interestAfter : Bool := true
  deriving DecidableEq, Repr

/-- The surroundings of one call: what is observed of each rule, the answer of `poll`, and what it writes
into each `PollFd`. -/
structure Surroundings where
  observe : ℕ → Observation
  poll : Answer
  revents : ℕ → UInt16

inductive Event where
  | callback (id : ℕ)
  | cancel (id : ℕ)
  deriving DecidableEq, Repr

def Event.id : Event → ℕ
  | callback id => id
  | cancel id => id

inductive Result where
  | success
  | timeout
  | exit
  deriving DecidableEq, Repr

/-- How a call ends.  A read outside of the vector is undefined behaviour. -/
inductive Ending where
  | returned (result : Result)
  | threw (exception : SystemException)
  | outOfBounds (idx : ℕ)
  deriving DecidableEq, Repr

/-- The rules that are left, the functions called, and the end. -/
structure Outcome where
  rules : List Rule
  events : List Event
  ending : Ending
  deriving DecidableEq, Repr

/-! ## Setting up -/

structure Setup where
  rules : List Rule := []
  pollfds : List PollFd := []
  events : List Event := []
  somethingToPoll : Bool := false
  deriving DecidableEq, Repr

def setup (observe : ℕ → Observation) : List Rule → Setup
  | [] => {}
  | rule :: rest =>
      let seen := observe rule.id
      let later := setup observe rest
      if rule.direction = .In ∧ seen.eof then
        -- No more reading on this rule.
        { later with events := .cancel rule.id :: later.events }
      else if seen.closed then { later with events := .cancel rule.id :: later.events }
      else if seen.interest then
        { later with
          rules := rule :: later.rules
          pollfds := { fd := rule.fdNum, events := rule.direction.events } :: later.pollfds
          somethingToPoll := true }
      else
        -- A placeholder: errors are still wanted.
        { later with
          rules := rule :: later.rules
          pollfds := { fd := rule.fdNum, events := 0 } :: later.pollfds }

/-! ## Going through the results -/

namespace PollFd

def pollError (pollfd : PollFd) : Bool := pollfd.revents &&& (pollErr ||| pollNval) != 0

def pollReady (pollfd : PollFd) : Bool := pollfd.revents &&& pollfd.events != 0

def pollHangup (pollfd : PollFd) : Bool := pollfd.revents &&& pollHup != 0

end PollFd

def errorOnPoll : SystemException :=
  .std (.runtimeError "EventLoop: error on polled file descriptor")

def busyWait : SystemException := .std (.runtimeError
  "EventLoop: busy wait detected: callback did not read/write fd and is still interested")

/-- The callback has neither used the descriptor nor lost its interest. -/
def Observation.isBusy (seen : Observation) : Bool :=
  seen.countBefore == seen.countAfter && seen.interestAfter

/-- The second pass, from an index of the vector on. -/
def dispatch (observe : ℕ → Observation) (pollfds : List PollFd) : ℕ → List Rule → Outcome
  | _, [] => ⟨[], [], .returned .success⟩
  | idx, rule :: rest =>
      match pollfds[idx]? with
      | none => ⟨rule :: rest, [], .outOfBounds idx⟩
      | some pollfd =>
          if pollfd.pollError then ⟨rule :: rest, [], .threw errorOnPoll⟩
          else if pollfd.pollHangup && pollfd.events != 0 && !pollfd.pollReady then
            let later := dispatch observe pollfds (idx + 1) rest
            { later with events := .cancel rule.id :: later.events }
          else if pollfd.pollReady then
            if (observe rule.id).isBusy then ⟨rule :: rest, [.callback rule.id], .threw busyWait⟩
            else
              let later := dispatch observe pollfds (idx + 1) rest
              { later with rules := rule :: later.rules, events := .callback rule.id :: later.events }
          else
            let later := dispatch observe pollfds (idx + 1) rest
            { later with rules := rule :: later.rules }

/-- What `poll` leaves in the vector. -/
def writeRevents (revents : ℕ → UInt16) (pollfds : List PollFd) : List PollFd :=
  pollfds.mapIdx fun idx pollfd ↦ { pollfd with revents := revents idx }

/-- The body of `wait_next_event`.  A failure of `poll` other than an interruption is caught and
forgotten; the vector is then as it was set up. -/
def waitRules (surroundings : Surroundings) (rules : List Rule) : Outcome :=
  let first := setup surroundings.observe rules
  let second (pollfds : List PollFd) : Outcome :=
    let outcome := dispatch surroundings.observe pollfds 0 first.rules
    { outcome with events := first.events ++ outcome.events }
  if !first.somethingToPoll then ⟨first.rules, first.events, .returned .exit⟩
  else match systemCall "poll" surroundings.poll with
    | .ok returnValue =>
        if returnValue = 0 then ⟨first.rules, first.events, .returned .timeout⟩
        else second (writeRevents surroundings.revents first.pollfds)
    | .error (.unixError _ errno) =>
        if errno = eIntr then ⟨first.rules, first.events, .returned .exit⟩ else second first.pollfds
    | .error (.std exception) => ⟨first.rules, first.events, .threw (.std exception)⟩

/-! ## The first pass -/

variable {observe : ℕ → Observation}

/-- The rule is not removed when the poll is set up. -/
def survives (observe : ℕ → Observation) (rule : Rule) : Bool :=
  !(rule.direction == .In && (observe rule.id).eof) && !(observe rule.id).closed

/-- The entry of the vector that is built for a rule. -/
def pollfdFor (observe : ℕ → Observation) (rule : Rule) : PollFd where
  fd := rule.fdNum
  events := if (observe rule.id).interest then rule.direction.events else 0

/-- The first pass in one line: which rules are left, what is polled, and who is cancelled. -/
theorem setup_eq (observe : ℕ → Observation) (rules : List Rule) :
    setup observe rules =
      { rules := rules.filter (survives observe)
        pollfds := (rules.filter (survives observe)).map (pollfdFor observe)
        events := (rules.filter (!survives observe ·)).map (.cancel ·.id)
        somethingToPoll := (rules.filter (survives observe)).any (observe ·.id |>.interest) } := by
  induction rules with
  | nil => rfl
  | cons rule rest ih =>
    unfold setup
    rw [ih]
    dsimp only
    split_ifs with heof hclosed hinterest
    · have hremoved : survives observe rule = false := by simp [survives, heof]
      simp [hremoved]
    · have hremoved : survives observe rule = false := by simp [survives, hclosed]
      simp [hremoved]
    · have hkept : survives observe rule = true := by
        simpa [survives, hclosed, ← imp_iff_not_or] using heof
      simp [hkept, pollfdFor, hinterest]
    · have hkept : survives observe rule = true := by
        simpa [survives, hclosed, ← imp_iff_not_or] using heof
      simp [hkept, pollfdFor, hinterest]

/-! ## The second pass

The lemmas about this pass are stated for a list of rules, each with its own entry of the vector. -/

/-- A rule and the entry that was built for it. -/
abbrev Polled := Rule × PollFd

namespace Polled

/-- The only condition was a hangup. -/
def hungUp (polled : Polled) : Bool :=
  polled.2.pollHangup && polled.2.events != 0 && !polled.2.pollReady

def event (polled : Polled) : List Event :=
  if polled.hungUp then [.cancel polled.1.id]
  else if polled.2.pollReady then [.callback polled.1.id]
  else []

end Polled

def kept (handled : List Polled) : List Rule := (handled.filter (!·.hungUp)).map Prod.fst

/-- One step of the second pass, for a rule with its own entry. -/
theorem dispatch_cons {pollfds : List PollFd} {idx : ℕ} {polled : Polled}
    (h : pollfds[idx]? = some polled.2) (rest : List Rule) :
    dispatch observe pollfds idx (polled.1 :: rest) =
      if polled.2.pollError then ⟨polled.1 :: rest, [], .threw errorOnPoll⟩
      else if !polled.hungUp && polled.2.pollReady && (observe polled.1.id).isBusy then
        ⟨polled.1 :: rest, polled.event, .threw busyWait⟩
      else
        let later := dispatch observe pollfds (idx + 1) rest
        ⟨kept [polled] ++ later.rules, polled.event ++ later.events, later.ending⟩ := by
  rw [dispatch, h]
  generalize dispatch observe pollfds (idx + 1) rest = later
  have hup : (polled.2.pollHangup && polled.2.events != 0 && !polled.2.pollReady) = polled.hungUp := rfl
  dsimp only
  rw [hup]
  cases hhungUp : polled.hungUp with
  | true => simp [kept, Polled.event, hhungUp]
  | false =>
    cases hready : polled.2.pollReady with
    | true => simp [kept, Polled.event, hhungUp, hready]
    | false => simp [kept, Polled.event, hhungUp, hready]

/-- How far the second pass has come.  The rules of `handled` have been dealt with, those of `rest` are
still in the list.  If the callback of the first rule of `rest` was called and found busy, then this rule
is in `called` as well. -/
structure Handles (handled rest called : List Polled) (outcome : Outcome) : Prop where
  rules : outcome.rules = kept handled ++ rest.map Prod.fst
  events : outcome.events = called.flatMap Polled.event
  inBounds : ∀ idx, outcome.ending ≠ .outOfBounds idx
  progress : called = handled ∨ ∃ polled later, rest = polled :: later ∧ called = handled ++ [polled] ∧
    polled.hungUp = false

theorem Handles.cons {handled rest called : List Polled} {outcome : Outcome} (polled : Polled)
    (h : Handles handled rest called outcome) :
    Handles (polled :: handled) rest (polled :: called)
      ⟨kept [polled] ++ outcome.rules, polled.event ++ outcome.events, outcome.ending⟩ where
  rules := by
    dsimp only
    rw [h.rules, ← List.append_assoc, kept, kept, ← List.map_append, ← List.filter_append]
    rfl
  events := by rw [List.flatMap_cons, h.events]
  inBounds := h.inBounds
  progress := by
    cases h.progress with
    | inl hall => exact .inl (congrArg (polled :: ·) hall)
    | inr hbusy =>
      obtain ⟨first, later, hrest, hcalled, hup⟩ := hbusy
      exact .inr ⟨first, later, hrest, congrArg (polled :: ·) hcalled, hup⟩

/-- A callback was called for a descriptor that was ready, and did not use it. -/
def Polled.isBusy (observe : ℕ → Observation) (polled : Polled) : Bool :=
  polled.2.pollReady && (observe polled.1.id).isBusy

/-- What the second pass can do, if the vector from the index on is made of the entries of the rules: it
deals with all of them, or ends with an exception. -/
theorem dispatch_cases {pollfds : List PollFd} (idx : ℕ) (all : List Polled)
    (haligned : pollfds.drop idx = all.map Prod.snd) :
    ∃ handled rest called outcome, dispatch observe pollfds idx (all.map Prod.fst) = outcome ∧
      all = handled ++ rest ∧ Handles handled rest called outcome ∧
      (rest = [] ∧ outcome.ending = .returned .success ∨
        (outcome.ending = .threw busyWait ∧ ∃ polled ∈ all, polled.isBusy observe = true) ∨
        ∃ polled ∈ all, polled.2.pollError = true) := by
  induction all generalizing idx with
  | nil => exact ⟨[], [], [], _, rfl, rfl, ⟨rfl, rfl, nofun, .inl rfl⟩, .inl ⟨rfl, rfl⟩⟩
  | cons polled all ih =>
    have hentry : pollfds[idx]? = some polled.2 := by
      rw [← List.head?_drop, haligned]
      rfl
    have hnext : pollfds.drop (idx + 1) = all.map Prod.snd := by
      rw [← List.tail_drop, haligned]
      rfl
    rw [List.map_cons, dispatch_cons hentry]
    split_ifs with herror hbusy
    · exact ⟨[], polled :: all, [], _, rfl, rfl, ⟨rfl, rfl, nofun, .inl rfl⟩,
        .inr (.inr ⟨polled, List.mem_cons_self, herror⟩)⟩
    · simp only [Bool.and_eq_true_iff, Bool.not_eq_true'] at hbusy
      obtain ⟨⟨hup, hready⟩, hidle⟩ := hbusy
      have hwaits : polled.isBusy observe = true := by rw [Polled.isBusy, hready, hidle, Bool.and_self]
      exact ⟨[], polled :: all, [polled], _, rfl, rfl, ⟨rfl, (List.flatMap_singleton _ _).symm, nofun,
        .inr ⟨polled, all, rfl, rfl, hup⟩⟩, .inr (.inl ⟨rfl, polled, List.mem_cons_self, hwaits⟩)⟩
    · obtain ⟨handled, rest, called, outcome, hdispatch, hall, hhandles, hending⟩ := ih (idx + 1) hnext
      rw [hdispatch]
      refine ⟨polled :: handled, rest, polled :: called, _, rfl, congrArg (polled :: ·) hall,
        hhandles.cons polled, hending.imp_right (Or.imp (And.imp_right ?_) ?_)⟩
      · rintro ⟨other, hother, hwaits⟩
        exact ⟨other, List.mem_cons_of_mem polled hother, hwaits⟩
      · rintro ⟨other, hother, hfailed⟩
        exact ⟨other, List.mem_cons_of_mem polled hother, hfailed⟩

end EventLoop

end Sponge
