/-
Machines that several parties share. If operations that do not concern a party leave its view, and
the others turn equal views into equal views and answers, its answers are those of the run without
the operations of no concern to it.
-/

import Mathlib.Tactic.Common

namespace Wedb

section

variable {State Op Answer View : Type}

def observations (step : Op → State → Answer × State) (observed : Op → Bool) :
    List Op → State → List Answer
  | [], _ => []
  | op :: rest, state =>
    let later := observations step observed rest (step op state).2
    if observed op then (step op state).1 :: later else later

/-- What a party sees is kept apart from the operations that do not concern it. -/
structure Unwinding (step : Op → State → Answer × State) (invariant : State → Prop)
    (view : State → View) (observed concerns : Op → Bool) : Prop where
  observed_concerns : ∀ op, observed op = true → concerns op = true
  keeps : ∀ op state, invariant state → invariant (step op state).2
  silent : ∀ op state, invariant state → concerns op = false → view (step op state).2 = view state
  consistent : ∀ op first second, invariant first → invariant second → view first = view second →
    view (step op first).2 = view (step op second).2
  answered : ∀ op first second, invariant first → invariant second → view first = view second →
    observed op = true → (step op first).1 = (step op second).1

variable {step : Op → State → Answer × State} {invariant : State → Prop} {view : State → View}
  {observed concerns : Op → Bool}

/-- The answers a party observes are those of the run without what does not concern it. -/
theorem Unwinding.observations_filter (unwinding : Unwinding step invariant view observed concerns)
    (ops : List Op) : ∀ {first second : State}, invariant first → invariant second →
    view first = view second →
    observations step observed ops first =
      observations step observed (ops.filter concerns) second := by
  induction ops with
  | nil => exact fun _ _ _ => rfl
  | cons op rest ih =>
    intro first second goodFirst goodSecond same
    have keptFirst := unwinding.keeps op first goodFirst
    by_cases concerned : concerns op
    · have keptSecond := unwinding.keeps op second goodSecond
      have later := ih keptFirst keptSecond
        (unwinding.consistent op first second goodFirst goodSecond same)
      rw [List.filter_cons_of_pos concerned]
      simp only [observations, later]
      by_cases seen : observed op
      · rw [if_pos seen, if_pos seen,
          unwinding.answered op first second goodFirst goodSecond same seen]
      · rw [if_neg seen, if_neg seen]
    · have unconcerned : concerns op = false := by simpa using concerned
      have unseen : ¬observed op := fun seen =>
        concerned (unwinding.observed_concerns op seen)
      have unchanged := unwinding.silent op first goodFirst unconcerned
      rw [List.filter_cons_of_neg concerned]
      simp only [observations, if_neg unseen]
      exact ih keptFirst goodSecond (unchanged.trans same)

end

end Wedb
