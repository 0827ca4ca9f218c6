/-
Two implementations of one kind of object. If a relation survives every call on an object and every
move between two, and the replies agree as long as it holds, any list of requests is answered
alike.
-/

import Mathlib.Logic.Function.Basic
import Mathlib.Tactic.Common

namespace Wedb.Simulation

variable {ι Call Move Reply S C A : Type}

structure Implementation (Call Move Reply S : Type) where
  call : Call → S → Reply × S
  move : Move → S → S → Reply × S × S

inductive Request (ι Call Move : Type)
  | on (name : ι) (call : Call)
  | between (source destination : ι) (apart : source ≠ destination) (move : Move)

namespace Implementation

variable [DecidableEq ι]

def step (impl : Implementation Call Move Reply S) (objects : ι → S) :
    Request ι Call Move → Reply × (ι → S)
  | .on name call =>
    let (reply, changed) := impl.call call (objects name)
    (reply, Function.update objects name changed)
  | .between source destination _ move =>
    let (reply, left, received) := impl.move move (objects source) (objects destination)
    (reply, Function.update (Function.update objects source left) destination received)

def run (impl : Implementation Call Move Reply S) :
    List (Request ι Call Move) → (ι → S) → List Reply × (ι → S)
  | [], objects => ([], objects)
  | request :: requests, objects =>
    let (reply, objects) := impl.step objects request
    let (replies, objects) := run impl requests objects
    (reply :: replies, objects)

end Implementation

/-- The relation survives every call and every move, with equal replies. -/
structure Simulates (related : C → A → Prop) (concrete : Implementation Call Move Reply C)
    (abstract : Implementation Call Move Reply A) : Prop where
  call : ∀ call c a, related c a → (concrete.call call c).1 = (abstract.call call a).1 ∧
      related (concrete.call call c).2 (abstract.call call a).2
  move : ∀ move c a c' a', related c a → related c' a' →
    (concrete.move move c c').1 = (abstract.move move a a').1 ∧
      related (concrete.move move c c').2.1 (abstract.move move a a').2.1 ∧
      related (concrete.move move c c').2.2 (abstract.move move a a').2.2

namespace Simulates

variable [DecidableEq ι] {related : C → A → Prop} {concrete : Implementation Call Move Reply C}
  {abstract : Implementation Call Move Reply A}

variable {cs : ι → C} {as : ι → A}

theorem related_update
    (before : ∀ name, related (cs name) (as name)) {c : C} {a : A} (changed : related c a)
    (name other : ι) :
    related (Function.update cs name c other) (Function.update as name a other) := by
  obtain rfl | same := eq_or_ne other name
  · rwa [Function.update_self, Function.update_self]
  · rw [Function.update_of_ne same, Function.update_of_ne same]
    exact before other

/-- One request is answered alike and leaves related objects. -/
theorem step (simulates : Simulates related concrete abstract)
    (before : ∀ name, related (cs name) (as name)) (request : Request ι Call Move) :
    (concrete.step cs request).1 = (abstract.step as request).1 ∧
      ∀ name, related ((concrete.step cs request).2 name) ((abstract.step as request).2 name) := by
  cases request with
  | on name call =>
    obtain ⟨replies, changed⟩ := simulates.call call _ _ (before name)
    exact ⟨replies, related_update before changed name⟩
  | between source destination apart move =>
    obtain ⟨replies, left, received⟩ :=
      simulates.move move _ _ _ _ (before source) (before destination)
    exact ⟨replies, related_update (related_update before left source) received destination⟩

/-- Any list of requests is answered alike and leaves related objects. -/
theorem run (simulates : Simulates related concrete abstract)
    (requests : List (Request ι Call Move)) (before : ∀ name, related (cs name) (as name)) :
    (concrete.run requests cs).1 = (abstract.run requests as).1 ∧
      ∀ name, related ((concrete.run requests cs).2 name) ((abstract.run requests as).2 name) := by
  induction requests generalizing cs as with
  | nil => exact ⟨rfl, before⟩
  | cons request requests ih =>
    obtain ⟨reply, after⟩ := simulates.step before request
    obtain ⟨replies, final⟩ := ih after
    refine ⟨?_, final⟩
    rw [Implementation.run, Implementation.run]
    dsimp only
    rw [reply, replies]

end Simulates

end Wedb.Simulation
