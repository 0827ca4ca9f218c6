/-
Computations that read and change a state and can fail; a failure keeps the changes made before it.
What every run does to the state is a relation that goes through the computation step by step.
-/

import Mathlib.Order.Defs.Unbundled
import Mathlib.Tactic.Common

namespace Wedb

/-- A sequence that returned a value got one from its first part. -/
theorem except_bind_ok {ε α β : Type} {first : Except ε α} {next : α → Except ε β} {value : β}
    (returned : (first >>= next) = .ok value) :
    ∃ given, first = .ok given ∧ next given = .ok value := by
  cases first with
  | error error => cases returned
  | ok given => exact ⟨given, rfl, returned⟩

/-- State passing whose failures keep the state they reached. -/
structure Fallible (σ ε α : Type) where
  run : σ → Except ε α × σ

namespace Fallible

variable {σ ε α β : Type} {next : α → Fallible σ ε β} {first : Fallible σ ε α}

instance : Monad (Fallible σ ε) where
  pure value := ⟨fun state => (.ok value, state)⟩
  bind first next := ⟨fun state =>
    match first.run state with
    | (.ok value, after) => (next value).run after
    | (.error error, after) => (.error error, after)⟩

def fail (error : ε) : Fallible σ ε α := ⟨fun state => (.error error, state)⟩

def total (action : σ → α × σ) : Fallible σ ε α :=
  ⟨fun state => (.ok (action state).1, (action state).2)⟩

def gets (observe : σ → α) : Fallible σ ε α := ⟨fun state => (.ok (observe state), state)⟩

def modify (change : σ → σ) : Fallible σ ε Unit := ⟨fun state => (.ok (), change state)⟩

@[simp] theorem pure_run (value : α) (state : σ) :
    (pure value : Fallible σ ε α).run state = (.ok value, state) := rfl

@[simp] theorem fail_run (error : ε) (state : σ) :
    (fail error : Fallible σ ε α).run state = (.error error, state) := rfl

@[simp] theorem total_run (action : σ → α × σ) (state : σ) :
    (total action : Fallible σ ε α).run state = (.ok (action state).1, (action state).2) := rfl

@[simp] theorem gets_run (observe : σ → α) (state : σ) :
    (gets observe : Fallible σ ε α).run state = (.ok (observe state), state) := rfl

@[simp] theorem modify_run (change : σ → σ) (state : σ) :
    (modify change : Fallible σ ε Unit).run state = (.ok (), change state) := rfl

theorem bind_run (first : Fallible σ ε α) (next : α → Fallible σ ε β) (state : σ) :
    (first >>= next).run state =
      match first.run state with
      | (.ok value, after) => (next value).run after
      | (.error error, after) => (.error error, after) := rfl

instance : LawfulMonad (Fallible σ ε) := LawfulMonad.mk' _
  (fun action => by
    show (⟨fun state => match action.run state with
      | (.ok value, after) => (.ok value, after)
      | (.error error, after) => (.error error, after)⟩ : Fallible σ ε _) = action
    congr 1
    funext state
    rcases action.run state with ⟨_ | _, after⟩ <;> rfl)
  (fun _ _ => rfl)
  (fun first second third => by
    show (⟨_⟩ : Fallible σ ε _) = ⟨_⟩
    congr 1
    funext state
    simp only [bind_run]
    rcases first.run state with ⟨_ | _, after⟩ <;> rfl)

theorem map_run (f : α → β) (action : Fallible σ ε α) (state : σ) :
    (f <$> action).run state = ((action.run state).1.map f, (action.run state).2) := by
  show (action >>= fun value => pure (f value)).run state = _
  rw [bind_run]
  rcases action.run state with ⟨_ | _, after⟩ <;> rfl

variable {state after : σ} {value : α}

theorem total_ok {action : σ → α × σ} (returned : action state = (value, after)) :
    (total action : Fallible σ ε α).run state = (.ok value, after) := by
  rw [total_run, returned]

/-- A computation that returned a value hands it to the next one. -/
theorem bind_ok (returned : first.run state = (.ok value, after)) :
    (first >>= next).run state = (next value).run after := by
  rw [bind_run, returned]

theorem bind_error {error : ε}
    (failed : first.run state = (.error error, after)) :
    (first >>= next).run state = (.error error, after) := by
  rw [bind_run, failed]

section Within

variable {relation : σ → σ → Prop}

/-- Every run leads from a state to one that is in the relation to it. -/
def Within (relation : σ → σ → Prop) (action : Fallible σ ε α) : Prop :=
  ∀ state, relation state (action.run state).2

theorem within_pure [Std.Refl relation] (value : α) :
    Within relation (pure value : Fallible σ ε α) :=
  fun state => Std.Refl.refl state

theorem within_gets [Std.Refl relation] (observe : σ → α) :
    Within relation (gets observe : Fallible σ ε α) :=
  fun state => Std.Refl.refl state

theorem bind_within [IsTrans σ relation] {start state : σ}
    (before : relation start (first.run state).2) (after : ∀ value, Within relation (next value)) :
    relation start ((first >>= next).run state).2 := by
  rw [bind_run]
  revert before
  rcases first.run state with ⟨_ | value, middle⟩
  · exact id
  · exact fun moved => IsTrans.trans _ _ _ moved (after value middle)

theorem Within.bind [IsTrans σ relation] (before : Within relation first)
    (after : ∀ value, Within relation (next value)) : Within relation (first >>= next) :=
  fun state => bind_within (before state) after

/-- An invariant as a relation: what held before holds after. -/
def Keeps (invariant : σ → Prop) (before after : σ) : Prop := invariant before → invariant after

instance (invariant : σ → Prop) : Std.Refl (Keeps invariant) := ⟨fun _ => id⟩

instance (invariant : σ → Prop) : IsTrans σ (Keeps invariant) :=
  ⟨fun _ _ _ first second held => second (first held)⟩

end Within

end Fallible

end Wedb
