import Mathlib.Order.Nat
import Mathlib.Tactic.Choose

/-!
# Loops that may fail

`whileLoop` tests its condition a bounded number of times.  A body that does not fail as long as an
invariant holds gives rise to a sequence of states, and the loop returns at the first of them at which
its condition is false.
-/

namespace Sponge

variable {State Fault : Type*} {condition : State → Bool} {body : State → Except Fault State}
  {exhausted : Fault}

/-- `while (condition) body`, with a bound on the number of tests. -/
def whileLoop (condition : State → Bool) (body : State → Except Fault State) (exhausted : Fault) :
    ℕ → State → Except Fault State
  | 0, _ => .error exhausted
  | fuel + 1, state =>
      if condition state then body state >>= whileLoop condition body exhausted fuel else .ok state

theorem whileLoop_of_false {state : State} {fuel : ℕ} (h : condition state = false) :
    whileLoop condition body exhausted (fuel + 1) state = .ok state := by
  rw [whileLoop, h, if_neg Bool.false_ne_true]

theorem whileLoop_of_true {state next : State} {fuel : ℕ} (h : condition state = true)
    (hbody : body state = .ok next) :
    whileLoop condition body exhausted (fuel + 1) state =
      whileLoop condition body exhausted fuel next := by
  rw [whileLoop, h, if_pos rfl, hbody]
  rfl

/-- The states between the iterations of a body that keeps an invariant and does not fail. -/
theorem exists_iterations (inv : State → Prop) (related : State → State → Prop) {start : State}
    (hstart : inv start)
    (hbody : ∀ state, inv state → ∃ next, body state = .ok next ∧ inv next ∧ related state next) :
    ∃ states : ℕ → State, states 0 = start ∧ ∀ count, inv (states count) ∧
      body (states count) = .ok (states (count + 1)) ∧
      related (states count) (states (count + 1)) := by
  have : Nonempty State := ⟨start⟩
  choose! next hnext using hbody
  let states : ℕ → State := fun count ↦ Nat.rec start (fun _ ↦ next) count
  have hinv (count : ℕ) : inv (states count) := by
    induction count with
    | zero => exact hstart
    | succ count ih => exact (hnext _ ih).2.1
  exact ⟨states, rfl, fun count ↦ ⟨hinv count, (hnext _ (hinv count)).1, (hnext _ (hinv count)).2.2⟩⟩

/-- A loop returns at the latest where its condition is known to be false. -/
theorem whileLoop_of_iterations {states : ℕ → State}
    (hbody : ∀ count, body (states count) = .ok (states (count + 1))) {first last fuel : ℕ}
    (hle : first ≤ last) (hstop : condition (states last) = false) (hfuel : last < first + fuel) :
    ∃ count, first ≤ count ∧ count ≤ last ∧ condition (states count) = false ∧
      whileLoop condition body exhausted fuel (states first) = .ok (states count) := by
  induction fuel generalizing first with
  | zero => omega
  | succ fuel ih =>
    cases hcondition : condition (states first) with
    | false => exact ⟨first, le_rfl, hle, hcondition, whileLoop_of_false hcondition⟩
    | true =>
      have hlt : first < last := by
        apply lt_of_le_of_ne hle
        rintro rfl
        exact Bool.false_ne_true (hstop.symm.trans hcondition)
      obtain ⟨count, hfirst, hlast, hfalse, hloop⟩ := ih hlt (by omega)
      exact ⟨count, (Nat.le_succ first).trans hfirst, hlast, hfalse,
        (whileLoop_of_true hcondition (hbody first)).trans hloop⟩

end Sponge
