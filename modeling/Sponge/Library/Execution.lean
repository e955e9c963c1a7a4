import Mathlib.Data.List.Basic

/-!
# Runs of a deterministic machine

A machine is a step function from a state and a call to the next state.  `run` applies a list of
calls.  `Admissible` says that every call of a list meets a side condition in the state in which it
is made; the conditions of a result about whole runs are stated with it.

`Admissible.invariant` is the induction over runs.  A safety result about a machine supplies the start
case and the step case.  `Admissible.simulation` is the same for a machine and its specification.
`Leads` is the relation between two states that admissible calls lead from one to the other.
-/

namespace Sponge.Execution

variable {State Call : Type*} {step : State → Call → State} {allowed : State → Call → Prop}
  {state : State} {calls : List Call}

/-- The state after the calls of a list, made from left to right. -/
def run (step : State → Call → State) (state : State) (calls : List Call) : State :=
  calls.foldl step state

@[simp] theorem run_nil : run step state [] = state := rfl

@[simp] theorem run_cons (call : Call) :
    run step state (call :: calls) = run step (step state call) calls := rfl

@[simp] theorem run_append (more : List Call) :
    run step state (calls ++ more) = run step (run step state calls) more :=
  List.foldl_append

/-- The calls of a run, each with the state in which it was made. -/
def trace (step : State → Call → State) : State → List Call → List (State × Call)
  | _, [] => []
  | state, call :: calls => (state, call) :: trace step (step state call) calls

/-- Every call of the list meets `allowed` in the state in which it is made. -/
def Admissible (step : State → Call → State) (allowed : State → Call → Prop) :
    State → List Call → Prop
  | _, [] => True
  | state, call :: calls => allowed state call ∧ Admissible step allowed (step state call) calls

@[simp] theorem admissible_nil : Admissible step allowed state [] := trivial

@[simp] theorem admissible_cons (call : Call) :
    Admissible step allowed state (call :: calls) ↔
      allowed state call ∧ Admissible step allowed (step state call) calls := Iff.rfl

/-- A run in two parts is admissible exactly if both parts are. -/
theorem admissible_append (more : List Call) :
    Admissible step allowed state (calls ++ more) ↔
      Admissible step allowed state calls ∧ Admissible step allowed (run step state calls) more := by
  induction calls generalizing state with
  | nil => simp
  | cons call calls ih => simp [ih, and_assoc]

theorem Admissible.mono {wider : State → Call → Prop} (h : Admissible step allowed state calls)
    (himp : ∀ state call, allowed state call → wider state call) : Admissible step wider state calls := by
  induction calls generalizing state with
  | nil => trivial
  | cons call calls ih => exact ⟨himp state call h.1, ih h.2⟩

instance Admissible.decidable [∀ state call, Decidable (allowed state call)] :
    (state : State) → (calls : List Call) → Decidable (Admissible step allowed state calls)
  | _, [] => .isTrue trivial
  | state, call :: calls =>
      haveI := Admissible.decidable (step state call) calls
      inferInstanceAs (Decidable (_ ∧ _))

/-- An invariant that every admissible call keeps holds at the end of an admissible run. -/
theorem Admissible.invariant (inv : State → Prop)
    (hstep : ∀ state call, inv state → allowed state call → inv (step state call))
    (hstart : inv state) (h : Admissible step allowed state calls) :
    inv (run step state calls) := by
  induction calls generalizing state with
  | nil => exact hstart
  | cons call calls ih => exact ih (hstep state call hstart h.1) h.2

/-- An invariant holds in every state of an admissible run. -/
theorem Admissible.strengthen (inv : State → Prop)
    (hstep : ∀ state call, inv state → allowed state call → inv (step state call))
    (hstart : inv state) (h : Admissible step allowed state calls) :
    Admissible step (fun state call ↦ inv state ∧ allowed state call) state calls := by
  induction calls generalizing state with
  | nil => trivial
  | cons call calls ih => exact ⟨⟨hstart, h.1⟩, ih (hstep state call hstart h.1) h.2⟩

/-- An invariant that every call keeps holds at the end of every run. -/
theorem run_invariant (inv : State → Prop)
    (hstep : ∀ state call, inv state → inv (step state call)) (hstart : inv state) :
    inv (run step state calls) := by
  induction calls generalizing state with
  | nil => exact hstart
  | cons call calls ih => exact ih (hstep state call hstart)

/-- The simulation rule: two machines that take the same calls stay related along an admissible run
of the first. -/
theorem Admissible.simulation {Other : Type*} {other : Other} {otherStep : Other → Call → Other}
    (relation : State → Other → Prop)
    (hstep : ∀ state other call, relation state other → allowed state call →
      relation (step state call) (otherStep other call))
    (hstart : relation state other) (h : Admissible step allowed state calls) :
    relation (run step state calls) (run otherStep other calls) := by
  induction calls generalizing state other with
  | nil => exact hstart
  | cons call calls ih => exact ih (hstep state other call hstart h.1) h.2

/-- The same for runs whose calls meet no condition. -/
theorem run_simulation {Other : Type*} {other : Other} {otherStep : Other → Call → Other}
    (relation : State → Other → Prop)
    (hstep : ∀ state other call, relation state other →
      relation (step state call) (otherStep other call))
    (hstart : relation state other) :
    relation (run step state calls) (run otherStep other calls) := by
  induction calls generalizing state other with
  | nil => exact hstart
  | cons call calls ih => exact ih (hstep state other call hstart)

/-- An invariant that also speaks about the past of the run. -/
theorem Admissible.trace_invariant (inv : List (State × Call) → State → Prop)
    (hstep : ∀ past state call, inv past state → allowed state call →
      inv (past ++ [(state, call)]) (step state call))
    (hstart : inv [] state) (h : Admissible step allowed state calls) :
    inv (trace step state calls) (run step state calls) := by
  have hgeneral (past : List (State × Call)) (hpast : inv past state) :
      inv (past ++ trace step state calls) (run step state calls) := by
    clear hstart
    induction calls generalizing state past with
    | nil => simpa [trace] using hpast
    | cons call calls ih =>
      have hnext := ih h.2 (past ++ [(state, call)]) (hstep past state call hpast h.1)
      simpa [trace] using hnext
  exact hgeneral [] hstart

/-! ## Reachable states -/

/-- There are admissible calls that lead from one state to the other. -/
def Leads (step : State → Call → State) (allowed : State → Call → Prop) (before after : State) : Prop :=
  ∃ calls, Admissible step allowed before calls ∧ run step before calls = after

section Leads

variable {start before after : State} {call : Call}

theorem Leads.refl (step : State → Call → State) (allowed : State → Call → Prop) (state : State) :
    Leads step allowed state state :=
  ⟨[], trivial, rfl⟩

theorem Leads.extend (h : Leads step allowed start before) (hallowed : allowed before call) :
    Leads step allowed start (step before call) := by
  obtain ⟨calls, hadmissible, hrun⟩ := h
  refine ⟨calls ++ [call], (admissible_append _).mpr ⟨hadmissible, ?_⟩, ?_⟩
  · rw [hrun]
    exact ⟨hallowed, trivial⟩
  · rw [run_append, hrun]
    rfl

/-- The rule for invariants of what can be reached. -/
theorem Leads.invariant (inv : State → Prop)
    (hstep : ∀ state call, inv state → allowed state call → inv (step state call))
    (hstart : inv before) (h : Leads step allowed before after) : inv after := by
  obtain ⟨calls, hadmissible, rfl⟩ := h
  exact hadmissible.invariant inv hstep hstart

end Leads

end Sponge.Execution
