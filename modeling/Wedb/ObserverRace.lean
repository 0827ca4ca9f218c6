/-
The calls that resolve an observer race for it: a result that is set, an element popped for it,
CLIENT UNBLOCK, the end of its session. Each decides under the lock and sends after.
-/

import Wedb.ExactBroker

namespace Wedb.Collections.Race

variable {Score ι : Type}

/-- What the closure of `assign_atomic` gives. -/
abbrev Popped (Score : Type) := Except StoreError (Option (CollectionItemResult Score))

inductive Call (Score : Type)
  | handleSetResult (result : CollectionItemResult Score)
  | assignAtomic
  | tryForceUnblock (throws : Bool)
  | handleSessionDisposed

structure Decision (Score : Type) where
  status : Status Score
  message : Option (CollectionItemResult Score) := none
  popped : Option (Popped Score) := none

/-- The part of each call under the lock, with what the closure would give, on a connected channel.
-/
def Call.underLock (status : Status Score) (out : Popped Score) (call : Call Score) :
    Decision Score :=
  if !status.isWaiting then { status } else
  match call with
  | .handleSetResult result => { status := .resultSet result, message := some result }
  | .assignAtomic =>
    match out with
    | .ok (some result) => ⟨.resultSet result, some result, some out⟩
    | _ => { status, popped := some out }
  | .tryForceUnblock throws =>
    let result := if throws then .forceUnblocked else .empty
    { status := .resultSet result, message := some result }
  | .handleSessionDisposed => { status := .sessionDisposed, message := some .empty }

inductive Stage (Score : Type)
  | entering
  | sending (result : CollectionItemResult Score)
  | returned

/-- The observer, its channel and callers, what the closures gave, the effective calls and the
messages. -/
structure System (Score ι : Type) where
  status : Status Score := .waitingForResult
  channel : List (CollectionItemResult Score) := []
  stage : ι → Stage Score := fun _ => .entering
  popped : List (ι × Popped Score) := []
  effects : List (ι × CollectionItemResult Score) := []
  sent : List (CollectionItemResult Score) := []

inductive Action (Score ι : Type)
  | lock (caller : ι) (out : Popped Score)
  | trySend (caller : ι)
  | receive

variable [DecidableEq ι] (calls : ι → Call Score)

def step (system : System Score ι) : Action Score ι → System Score ι
  | .lock caller out =>
    match system.stage caller with
    | .entering =>
      let decision := (calls caller).underLock system.status out
      { system with
        status := decision.status
        stage := Function.update system.stage caller (decision.message.elim .returned .sending)
        popped := decision.popped.toList.map (caller, ·) ++ system.popped
        effects := decision.message.toList.map (caller, ·) ++ system.effects }
    | _ => system
  | .trySend caller =>
    match system.stage caller with
    | .sending result =>
      let after := { system with stage := Function.update system.stage caller .returned }
      -- The channel has room for one message.
      if system.channel.isEmpty then
        { after with channel := [result], sent := result :: after.sent }
      else after
    | _ => system
  | .receive => { system with channel := system.channel.tail }

structure Sound (system : System Score ι) : Prop where
  waiting : system.status.isWaiting = true ↔ system.effects = []
  once : system.effects.length ≤ 1
  pending : ∀ caller result, system.stage caller = .sending result →
    system.effects = [(caller, result)] ∧ system.sent = []
  settled : ∀ caller result, system.effects = [(caller, result)] →
    system.stage caller = .sending result ∨ system.sent = [result]
  unsent : system.effects = [] → system.sent = []
  queued : system.sent = [] → system.channel = []
  decided : ∀ caller, system.stage caller ≠ .entering →
    system.effects ≠ [] ∨ calls caller = .assignAtomic
  popped : ∀ caller result, (caller, .ok (some result)) ∈ system.popped →
    system.effects = [(caller, result)]

theorem underLock_cases {status : Status Score} (waiting : status.isWaiting)
    (out : Popped Score) (call : Call Score) :
    let decision := call.underLock status out
    (∃ result, decision.message = some result ∧ decision.status.isWaiting = false ∧
      (decision.popped = none ∨ decision.popped = some (.ok (some result)))) ∨
    decision.message = none ∧ decision.status = status ∧ call = .assignAtomic ∧
      ∀ result, decision.popped ≠ some (.ok (some result)) := by
  simp only [Call.underLock, waiting]
  cases call with
  | assignAtomic =>
    rcases out with _ | _ | result
    · exact .inr ⟨rfl, rfl, rfl, by simp⟩
    · exact .inr ⟨rfl, rfl, rfl, by simp⟩
    · exact .inl ⟨result, rfl, rfl, .inr rfl⟩
  | _ => exact .inl ⟨_, rfl, rfl, .inl rfl⟩

variable {system : System Score ι}

theorem Sound.step (sound : Sound calls system)
    (action : Action Score ι) : Sound calls (step calls system action) := by
  have ⟨waiting, once, pending, settled, unsent, queued, decided, popped⟩ := sound
  unfold Race.step
  cases action with
  | lock caller out =>
    dsimp only
    split
    · rename_i entering
      cases waits : system.status.isWaiting with
      | true =>
        have unresolved := waiting.mp waits
        rcases underLock_cases waits out (calls caller) with
          ⟨result, message, status, gave⟩ | ⟨message, status, assigns, gave⟩
        · simp only [message, unresolved]
          constructor <;> simp <;> grind [Function.update_apply]
        · simp only [message, status]
          constructor <;> simp <;> grind [Function.update_apply]
      | false =>
        simp only [Call.underLock, waits, Bool.not_false, if_true]
        constructor <;> simp <;> grind [Function.update_apply]
    · exact sound
  | trySend caller =>
    dsimp only
    split
    · rename_i result sending
      obtain ⟨effects, unsent⟩ := pending caller result sending
      rw [queued unsent]
      constructor <;> simp <;> grind [Function.update_apply]
    · exact sound
  | receive =>
    refine ⟨waiting, once, pending, settled, unsent, fun unsent => ?_, decided, popped⟩
    simp [queued unsent]

theorem isWaiting_of_popped {action : Action Score ι}
    (ran : (step calls system action).popped ≠ system.popped) :
    system.status.isWaiting := by
  by_contra decided
  rw [Bool.not_eq_true] at decided
  refine ran ?_
  cases action with
  | lock caller out =>
    dsimp only [step]
    split
    · simp [Call.underLock, decided]
    · rfl
  | trySend caller => grind [step]
  | receive => rfl

/-- In every run at most one call takes effect, and its result is what is sent; only a pop that
found nothing leaves the observer unresolved, and what was popped is the result. -/
theorem run_resolvesOnce (actions : List (Action Score ι)) :
    let system := actions.foldl (step calls) {}
    system.effects.length ≤ 1 ∧ ((∀ caller result, system.stage caller ≠ .sending result) →
        system.sent = system.effects.map Prod.snd) ∧
      (∀ caller, system.stage caller ≠ .entering →
        system.effects ≠ [] ∨ calls caller = .assignAtomic) ∧
      (∀ action, (step calls system action).popped ≠ system.popped →
        system.status.isWaiting ∧ system.effects = []) ∧
      ∀ caller result, (caller, .ok (some result)) ∈ system.popped →
        system.effects = [(caller, result)] := by
  intro system
  have sound : Sound calls system :=
    List.foldlRecOn actions (step calls) (by constructor <;> simp [Status.isWaiting])
      fun _ sound action _ => sound.step calls action
  refine ⟨sound.once, fun quiet => ?_, sound.decided, fun action ran => ?_, sound.popped⟩
  · rcases effects : system.effects with _ | ⟨⟨caller, result⟩, _ | _⟩
    · exact sound.unsent effects
    · exact (sound.settled caller result effects).resolve_left (quiet caller result)
    · simpa [effects] using sound.once
  · have waiting := isWaiting_of_popped calls ran
    exact ⟨waiting, sound.waiting.mp waiting⟩

end Wedb.Collections.Race
