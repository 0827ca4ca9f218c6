/-
The broker in the mode where it hands out the elements itself, over a store of collections and
without signal hints (`Blocking.Broker` is the mode with them). Its lock makes each of these one
event.
-/

import Mathlib.Data.List.AList
import Wedb.CollectionStore

namespace Wedb.Collections

open Resp

variable {Score : Type}

/-- `ObserverStatus`, with the result that was set. -/
inductive Status (Score : Type)
  | waitingForResult
  | resultSet (result : CollectionItemResult Score)
  | sessionDisposed

def Status.isWaiting : Status Score → Bool
  | .waitingForResult => true
  | _ => false

/-- `CollectionItemObserver`: its command with arguments, its keys, and whether its task is there.
-/
structure Observer (Score : Type) where
  cmd : RespCommand
  args : List Bytes
  keys : List Bytes
  status : Status Score
  connected : Bool

namespace Observer

def new (cmd : RespCommand) (args keys : List Bytes) : Observer Score :=
  ⟨cmd, args, keys, .waitingForResult, true⟩

variable (observer : Observer Score)

def isReceptive : Bool :=
  observer.status.isWaiting && observer.connected

def settle (status : Status Score) (observer : Observer Score) : Observer Score :=
  if observer.status.isWaiting then { observer with status } else observer

def target : Option (Bytes × Direction × Direction) :=
  match observer.cmd, observer.args with
  | .blmove, dst :: srcDir :: dstDir :: _ =>
    some (dst, (Direction.fromBytes srcDir).getD .left, (Direction.fromBytes dstDir).getD .right)
  | .brpoplpush, dst :: srcDir :: dstDir :: _ =>
    some (dst, (Direction.fromBytes srcDir).getD .right, (Direction.fromBytes dstDir).getD .left)
  | .brpoplpush, dst :: _ => some (dst, .right, .left)
  | _, _ => none

/-- The key whose queue goes on after the observer got a result. -/
def forward (result : CollectionItemResult Score) : Option Bytes :=
  if result.found && (observer.cmd == .blmove || observer.cmd == .brpoplpush) then
    observer.args.head?
  else none

end Observer

def popForObserver [LinearOrder Score] (contents : Contents Score) (key : Bytes)
    (observer : Observer Score) (failOnMismatch : Bool) :
    Except StoreError (Option (CollectionItemResult Score)) × Contents Score :=
  match observer.target with
  | some (dst, srcDir, dstDir) => contents.tryMoveItem key dst srcDir dstDir failOnMismatch
  | none => contents.tryPopItem key observer.cmd observer.args failOnMismatch

/-- `CollectionItemBroker` with its store. An observer is known by its place in the list. -/
structure Broker (Score : Type) where
  contents : Contents Score
  observers : List (Observer Score)
  queues : AList fun _ : Bytes => List Nat

namespace Broker

/-- `CollectionItemBroker::with_provider` over an empty store. -/
def new : Broker Score := ⟨fun _ => none, [], ∅⟩

def receptive (broker : Broker Score) (number : Nat) : Bool :=
  broker.observers[number]?.any Observer.isReceptive

def receptiveCount (broker : Broker Score) : Nat :=
  broker.observers.countP Observer.isReceptive

def collect (broker : Broker Score) (key : Bytes) : Broker Score :=
  match broker.queues.lookup key with
  | some [] => { broker with queues := broker.queues.erase key }
  | _ => broker

def setQueue (broker : Broker Score) (key : Bytes) (waiters : List Nat) : Broker Score :=
  { broker with queues := broker.queues.insert key waiters }

variable [LinearOrder Score] (broker : Broker Score)

/-- The loop of `try_assign_locked`: observers that are gone are dropped; the first other one is
served or goes back to the head. -/
def assignHead (key : Bytes) (waiters : List Nat) : Bool × Option Bytes × Broker Score :=
  match waiters.dropWhile fun number => !broker.receptive number with
  | [] => (false, none, broker.setQueue key [])
  | number :: rest =>
    match broker.observers[number]? with
    | none => (false, none, broker.setQueue key rest)
    | some observer =>
      match popForObserver broker.contents key observer false with
      | (.ok (some result), contents) =>
        (true, observer.forward result,
          { contents
            observers := broker.observers.set number
              { observer with status := .resultSet result }
            queues := broker.queues.insert key rest })
      | (_, contents) =>
        (false, none, { broker.setQueue key (number :: rest) with contents })

/-- `try_assign_locked`, with a bound on how often it goes on with another queue. -/
def tryAssign : Nat → Bytes → Broker Score → Bool × Broker Score
  | 0, _, broker => (false, broker)
  | fuel + 1, key, broker =>
    match broker.queues.lookup key with
    | none => (false, broker)
    | some waiters =>
      let (assigned, forward, after) := broker.assignHead key waiters
      let after := match forward with
        | some dst => (tryAssign fuel dst after).2
        | none => after
      (assigned, after.collect key)

def tryAssignLocked (key : Bytes) : Bool × Broker Score :=
  tryAssign (broker.receptiveCount + 1) key broker

def handleCollectionUpdate (key : Bytes) : Bool × Broker Score :=
  if broker.queues.entries.isEmpty then (false, broker) else broker.tryAssignLocked key

def assignAll (key : Bytes) : Nat → Broker Score → Broker Score
  | 0, broker => broker
  | fuel + 1, broker =>
    let (assigned, after) := broker.tryAssignLocked key
    if assigned then assignAll key fuel after else after

/-- `handle_collection_update_all`. Each round leaves one observer fewer. -/
def handleCollectionUpdateAll (key : Bytes) : Broker Score :=
  if broker.queues.entries.isEmpty then broker
  else assignAll key (broker.receptiveCount + 1) broker

def popAtOnce (contents : Contents Score) (key : Bytes)
    (observer : Observer Score) : Option (CollectionItemResult Score) × Contents Score :=
  match popForObserver contents key observer true with
  | (.ok (some result), after) => (some result, after)
  | (_, after) => (none, after)

def probeKey (observer : Observer Score) (key : Bytes) :
    Option (CollectionItemResult Score) × Broker Score :=
  let pop := popAtOnce broker.contents key observer
  match broker.queues.lookup key with
  | none => (pop.1, { broker with contents := pop.2 })
  | some waiters =>
    match waiters.filter broker.receptive with
    | [] =>
      let after := { broker.setQueue key [] with contents := pop.2 }
      (pop.1, if pop.1.isSome then after.collect key else after)
    | earlier => (none, broker.setQueue key earlier)

/-- The first phase of `initialize_observer`. -/
def probeKeys (observer : Observer Score) : List Bytes → Broker Score →
    Option (CollectionItemResult Score) × Broker Score
  | [], broker => (none, broker)
  | key :: keys, broker =>
    match broker.probeKey observer key with
    | (some result, after) => (some result, after)
    | (none, after) => probeKeys observer keys after

omit [LinearOrder Score] in
def pushBack (number : Nat) (broker : Broker Score) (key : Bytes) : Broker Score :=
  broker.setQueue key ((broker.queues.lookup key).getD [] ++ [number])

def initializeObserver (observer : Observer Score) : Broker Score :=
  match broker.probeKeys observer observer.keys with
  | (some result, after) =>
    let after := { after with
      observers := after.observers ++ [{ observer with status := .resultSet result }] }
    match observer.forward result with
    | some dst => (after.tryAssignLocked dst).2
    | none => after
  | (none, after) =>
    observer.keys.foldl (pushBack after.observers.length)
      { after with observers := after.observers ++ [observer] }

omit [LinearOrder Score] in
/-- The waiters of a key that are kept; a queue without any is dropped. -/
def retain (keep : Nat → Bool) (broker : Broker Score) (key : Bytes) : Broker Score :=
  match broker.queues.lookup key with
  | none => broker
  | some waiters => (broker.setQueue key (waiters.filter keep)).collect key

omit [LinearOrder Score] in
def deregisterObserver (number : Nat) : Broker Score → Bytes → Broker Score := retain (· ≠ number)

omit [LinearOrder Score] in
def cleanKeysToObservers : Broker Score := broker.queues.keys.foldl (retain broker.receptive) broker

omit [LinearOrder Score] in
def settle (broker : Broker Score) (number : Nat) (status : Status Score) : Broker Score :=
  { broker with observers := broker.observers.modify number (Observer.settle status) }

end Broker

/-- What happens to a broker: registrations, ends of waits, dropped tasks, the periodic clean, and
updates, reported once or until nobody can be served. -/
inductive BrokerEvent (Score : Type)
  | register (cmd : RespCommand) (args keys : List Bytes)
  | timeout (number : Nat)
  | unblock (number : Nat) (result : CollectionItemResult Score)
  | disposed (number : Nat)
  | dropped (number : Nat)
  | clean
  | update (key : Bytes) (collection : Option (CollectionObject Score)) (whole : Bool)

namespace Broker

variable [LinearOrder Score]

def handle (broker : Broker Score) : BrokerEvent Score → Broker Score
  | .register cmd args keys => broker.initializeObserver (.new cmd args keys)
  | .timeout number =>
    match broker.observers[number]? with
    | none => broker
    | some observer =>
      observer.keys.foldl (deregisterObserver number) (broker.settle number (.resultSet .empty))
  | .unblock number result => broker.settle number (.resultSet result)
  | .disposed number => broker.settle number .sessionDisposed
  | .dropped number =>
    { broker with
      observers := broker.observers.modify number fun observer =>
        { observer with connected := false } }
  | .clean => broker.cleanKeysToObservers
  | .update key collection whole =>
    let written := { broker with contents := Function.update broker.contents key collection }
    if whole then written.handleCollectionUpdateAll key
    else (written.handleCollectionUpdate key).2

def run (broker : Broker Score) (events : List (BrokerEvent Score)) : Broker Score :=
  events.foldl handle broker

end Broker

def couldConsume [LinearOrder Score] (contents : Contents Score) (key : Bytes)
    (observer : Observer Score) : Bool :=
  match (popForObserver contents key observer false).1 with
  | .ok (some result) => result.found
  | _ => false

/-- No observer sleeps on an element it could consume. -/
def Broker.Quiet [LinearOrder Score] (broker : Broker Score) : Prop :=
  ∀ observer ∈ broker.observers, observer.isReceptive = true →
    ∀ key ∈ observer.keys, couldConsume broker.contents key observer = false

instance [LinearOrder Score] (broker : Broker Score) : Decidable broker.Quiet :=
  inferInstanceAs (Decidable (∀ observer ∈ broker.observers, _))

end Wedb.Collections
