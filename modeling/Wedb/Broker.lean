/-
The broker of the blocking commands in the mode of the server, with signal hints: the queue of
observers behind each key, the arrivals that found nobody waiting, the registration and the signal.
Its store stays empty, so an observer is only handed the key it has to look at. The other mode of
the type, which hands out the elements of a store and counts no arrivals, is `Collections.Broker`.
-/

import Mathlib.Logic.Function.Basic
import Wedb.RespCommand

namespace Wedb.Blocking

open Resp List

/-- `CollectionItemResult`, without the element that only a filled store of the broker could
give. -/
inductive ItemResult
  | empty
  | forceUnblocked
  | typeMismatch
  | keyUpdate (key : Bytes)
  deriving DecidableEq

/-- `ObserverStatus`, with the result that was set. -/
inductive ObserverStatus
  | waitingForResult
  | resultSet (result : ItemResult)
  | sessionDisposed
  deriving DecidableEq

/-- `CollectionItemObserver`: the command that waits, and whether its task still is there. -/
structure Observer where
  command : RespCommand
  status : ObserverStatus
  connected : Bool
  deriving DecidableEq

namespace Observer

def new (cmd : RespCommand) : Observer := ⟨cmd, .waitingForResult, true⟩

def isReceptive (observer : Observer) : Bool :=
  decide (observer.status = .waitingForResult) && observer.connected

def signal (key : Bytes) (observer : Observer) : Observer :=
  { observer with status := .resultSet (.keyUpdate key) }

@[simp] theorem isReceptive_signal (key : Bytes) (observer : Observer) :
    (observer.signal key).isReceptive = false := rfl

end Observer

def receptive (observers : List Observer) (number : Nat) : Bool :=
  observers[number]?.any Observer.isReceptive

/-- `QueueState`: the observers in order of arrival, and the arrivals that found nobody waiting. -/
structure QueueState where
  waiters : List Nat
  pendingSignals : Nat
  deriving DecidableEq

/-- `gc_able_st`. -/
def QueueState.gcAble (state : QueueState) : Bool :=
  state.waiters.isEmpty && state.pendingSignals == 0

/-- `CollectionItemBroker`. An observer is known by its place in the list of all of them. -/
structure Broker where
  observers : List Observer
  queues : Bytes → Option QueueState

def deliver (key : Bytes) : Nat → List Nat → List Observer → Nat × List Nat × List Observer
  | 0, waiters, observers => (0, waiters, observers)
  | count + 1, [], observers => (count + 1, [], observers)
  | count + 1, number :: rest, observers =>
    if receptive observers number then
      deliver key count rest (observers.modify number (Observer.signal key))
    else deliver key (count + 1) rest observers

namespace Broker

/-- `notify_waiters`. The counter of arrivals stops at the largest `usize`. -/
def notifyWaiters (key : Bytes) (count : Nat) (broker : Broker) : Broker :=
  if count = 0 then broker
  else
    match broker.queues key with
    | none => broker
    | some state =>
      let (left, waiters, observers) := deliver key count state.waiters broker.observers
      let after : QueueState := ⟨waiters, min (state.pendingSignals + left) (2 ^ 64 - 1)⟩
      { observers
        queues := Function.update broker.queues key (if after.gcAble then none else some after) }

def probeKey (key : Bytes) (broker : Broker) : Bool × Broker :=
  match broker.queues key with
  | none => (true, { broker with queues := Function.update broker.queues key (some ⟨[], 0⟩) })
  | some state =>
    let waiters := state.waiters.filter (receptive broker.observers)
    let hit := waiters.isEmpty && 0 < state.pendingSignals
    (hit, { broker with
      queues := Function.update broker.queues key
        (some ⟨waiters, if hit then state.pendingSignals - 1 else state.pendingSignals⟩) })

def probeKeys : List Bytes → Broker → Option Bytes × Broker
  | [], broker => (none, broker)
  | key :: rest, broker =>
    let probed := broker.probeKey key
    if probed.1 then (some key, probed.2) else probeKeys rest probed.2

def pushBack (number : Nat) (broker : Broker) (key : Bytes) : Broker :=
  let state := (broker.queues key).getD ⟨[], 0⟩
  { broker with
    queues := Function.update broker.queues key
      (some { state with waiters := state.waiters ++ [number] }) }

def getCollectionItem (cmd : RespCommand) (keys : List Bytes) (broker : Broker) :
    Option ItemResult × Broker :=
  match broker.probeKeys keys with
  | (some key, after) => (some (.keyUpdate key), after)
  | (none, after) =>
    (none, keys.foldl (pushBack after.observers.length)
      { after with observers := after.observers ++ [.new cmd] })

end Broker

def liveWaiters (observers : List Observer) : List Nat → List Nat
  | [] => []
  | number :: rest =>
    if receptive observers number then
      number :: (liveWaiters observers rest).filter (· ≠ number)
    else liveWaiters observers rest

section

variable {observers : List Observer} {key : Bytes} {number : Nat}

theorem mem_liveWaiters {waiters : List Nat} : number ∈ liveWaiters observers waiters ↔
      number ∈ waiters ∧ receptive observers number := by
  induction waiters with
  | nil => simp [liveWaiters]
  | cons first rest ih =>
    unfold liveWaiters
    obtain rfl | same := eq_or_ne number first
    · split <;> simp_all
    · split <;> simp_all

theorem receptive_modify_signal (told : Nat) :
    receptive (observers.modify told (Observer.signal key)) number =
      (receptive observers number && decide (number ≠ told)) := by
  unfold receptive
  rw [getElem?_modify]
  obtain rfl | same := eq_or_ne told number
  · cases observers[told]? <;> simp
  · simp [same, Ne.symm same]

theorem liveWaiters_modify_signal (told : Nat) (waiters : List Nat) :
    liveWaiters (observers.modify told (Observer.signal key)) waiters =
      (liveWaiters observers waiters).filter (· ≠ told) := by
  induction waiters with
  | nil => rfl
  | cons first rest ih =>
    unfold liveWaiters
    rw [receptive_modify_signal, ih]
    obtain rfl | same := eq_or_ne first told
    · simp only [ne_eq, not_true_eq_false, decide_false, Bool.and_false, Bool.false_eq_true,
        if_false]
      split
      · rw [filter_cons_of_neg (by simp), filter_filter]
        simp
      · rfl
    · simp only [ne_eq, same, not_false_eq_true, decide_true, Bool.and_true]
      split
      · rw [filter_cons_of_pos (by simpa using same), filter_comm]
      · rfl

theorem deliver_observers (count : Nat) (waiters : List Nat) (observers : List Observer)
    (number : Nat) :
    (deliver key count waiters observers).2.2[number]? =
      if number ∈ (liveWaiters observers waiters).take count then
        observers[number]?.map (Observer.signal key)
      else observers[number]? := by
  induction waiters generalizing count observers with
  | nil => cases count <;> simp [deliver, liveWaiters]
  | cons first rest ih =>
    cases count with
    | zero => simp [deliver]
    | succ count =>
      unfold deliver liveWaiters
      split
      · rw [ih, liveWaiters_modify_signal, getElem?_modify, take_succ_cons]
        obtain rfl | same := eq_or_ne first number
        · have gone : first ∉ ((liveWaiters observers rest).filter (· ≠ first)).take count :=
            fun inside => by simpa using mem_of_mem_take inside
          simp only [gone, if_false, mem_cons, true_or, if_true]
          rfl
        · simp [same, Ne.symm same]
      · exact ih (count + 1) observers

end

namespace Broker

variable (broker : Broker)

def live (key : Bytes) : List Nat :=
  match broker.queues key with
  | none => []
  | some state => liveWaiters broker.observers state.waiters

theorem notifyWaiters_observers (key : Bytes) (count number : Nat) :
    (broker.notifyWaiters key count).observers[number]? =
      if number ∈ (broker.live key).take count then
        broker.observers[number]?.map (Observer.signal key)
      else broker.observers[number]? := by
  unfold notifyWaiters live
  by_cases none : count = 0
  · simp [none]
  · rw [if_neg none]
    cases broker.queues key with
    | none => simp
    | some state => exact deliver_observers count state.waiters broker.observers number

end Broker

end Wedb.Blocking
