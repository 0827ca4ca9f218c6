/-
`MemoryCollectionStore`, the collections a broker can be built over: a concurrent map from keys to
collections behind locks. Every operation is a program over the steps that touch shared memory. The
two locks of a move are one critical section. Scores are any linear order.
-/

import Mathlib.Algebra.Order.Group.Multiset
import Wedb.Program
import Wedb.RespCommand
import Wedb.Utf8

namespace Wedb.Collections

open Resp

inductive Direction
  | left
  | right
  deriving DecidableEq

def Direction.fromBytes (slice : Bytes) : Option Direction :=
  if eqIgnoreAsciiCase slice (bytesOf "LEFT") then some .left
  else if eqIgnoreAsciiCase slice (bytesOf "RIGHT") then some .right
  else none

/-- `CollectionObject`. A sorted set is kept in the order of its scores and members. -/
inductive CollectionObject (Score : Type)
  | list (items : List Bytes)
  | sortedSet (items : List (Score × Bytes))
  deriving DecidableEq

/-- `Error` of the blocking commands. -/
inductive StoreError
  | wrongType
  | unsupportedCommand (cmd : RespCommand)
  deriving DecidableEq

structure CollectionItemResult (Score : Type) where
  key : Option Bytes
  item : Option Bytes
  score : Option Score
  items : Option (List Bytes)
  scores : Option (List Score)
  isForceUnblocked : Bool
  isTypeMismatch : Bool
  deriving DecidableEq

namespace CollectionItemResult

variable {Score : Type}

def empty : CollectionItemResult Score := ⟨none, none, none, none, none, false, false⟩

def forceUnblocked : CollectionItemResult Score := { empty with isForceUnblocked := true }

def typeMismatch : CollectionItemResult Score := { empty with isTypeMismatch := true }

def single (key item : Bytes) : CollectionItemResult Score :=
  { empty with key := some key, item := some item }

def multi (key : Bytes) (items : List Bytes) : CollectionItemResult Score :=
  { empty with key := some key, items := some items }

def singleScored (key : Bytes) (score : Score) (item : Bytes) : CollectionItemResult Score :=
  { empty with key := some key, item := some item, score := some score }

def multiScored (key : Bytes) (scores : List Score) (items : List Bytes) :
    CollectionItemResult Score :=
  { empty with key := some key, items := some items, scores := some scores }

def found (result : CollectionItemResult Score) : Bool :=
  result.key.isSome && !result.isForceUnblocked && !result.isTypeMismatch

end CollectionItemResult

def takeEnd {α : Type} (front : Bool) (count : Nat) (items : List α) : List α × List α :=
  if front then (items.take count, items.drop count)
  else (items.reverse.take count, (items.reverse.drop count).reverse)

def pushEnd {α : Type} (dir : Direction) (item : α) (items : List α) : List α :=
  match dir with
  | .left => item :: items
  | .right => items ++ [item]

inductive MoveOutcome
  | notFound
  | srcMismatch
  | dstMismatch
  | moved (item : Bytes) (srcEmptied : Bool)
  deriving DecidableEq

/-- What is done to one entry under its write lock. -/
inductive Edit (Score : Type)
  | pushList (value : Bytes) (front : Bool)
  | addMember (score : Score) (member : Bytes)
  | popList (front : Bool) (count : Nat)
  | popSortedSet (front : Bool) (count : Nat)
  | moveWithin (srcDir dstDir : Direction)

variable {Score : Type}

/-- What a critical section gives back: nothing on the other type; a pop also says whether it left
nothing. -/
def Edit.Answer : Edit Score → Type
  | .pushList _ _ => Option Nat
  | .addMember _ _ => Option Nat
  | .popList _ _ => Option (List Bytes × Bool)
  | .popSortedSet _ _ => Option (List (Score × Bytes) × Bool)
  | .moveWithin _ _ => MoveOutcome

section

variable {Score : Type} [LinearOrder Score]

def insertMember (score : Score) (member : Bytes) (items : List (Score × Bytes)) :
    List (Score × Bytes) :=
  let before := fun entry : Score × Bytes =>
    decide (entry.1 < score ∨ entry.1 = score ∧ entry.2 < member)
  items.takeWhile before ++ (score, member) :: items.dropWhile before

/-- The locked section of `zadd`. -/
def addMember (score : Score) (member : Bytes) (items : List (Score × Bytes)) :
    Nat × List (Score × Bytes) :=
  match items.find? fun entry => entry.2 == member with
  | some entry =>
    if entry.1 = score then (0, items)
    else (0, insertMember score member (items.eraseP fun entry => entry.2 == member))
  | none => (1, insertMember score member items)

def moveWithin (srcDir dstDir : Direction) :
    CollectionObject Score → MoveOutcome × CollectionObject Score
  | .sortedSet items => (.srcMismatch, .sortedSet items)
  | .list items =>
    match takeEnd (srcDir == .left) 1 items with
    | ([], _) => (.notFound, .list items)
    | (item :: _, rest) =>
      let after := pushEnd dstDir item rest
      (.moved item after.isEmpty, .list after)

def moveAcross (srcDir dstDir : Direction) : CollectionObject Score → CollectionObject Score →
    MoveOutcome × CollectionObject Score × CollectionObject Score
  | .list source, .list target =>
    match takeEnd (srcDir == .left) 1 source with
    | ([], _) => (.notFound, .list source, .list target)
    | (item :: _, rest) =>
      (.moved item rest.isEmpty, .list rest, .list (pushEnd dstDir item target))
  | .list source, .sortedSet target => (.dstMismatch, .list source, .sortedSet target)
  | .sortedSet source, target => (.srcMismatch, .sortedSet source, target)

def Edit.apply : (edit : Edit Score) → CollectionObject Score →
    edit.Answer × CollectionObject Score
  | .pushList value front, .list items =>
    let after := pushEnd (if front then .left else .right) value items
    (some after.length, .list after)
  | .addMember score member, .sortedSet items =>
    let added := Collections.addMember score member items
    (some added.1, .sortedSet added.2)
  | .popList front count, .list items =>
    let taken := takeEnd front count items
    (some (taken.1, taken.2.isEmpty), .list taken.2)
  | .popSortedSet front count, .sortedSet items =>
    let taken := takeEnd front count items
    (some (taken.1, taken.2.isEmpty), .sortedSet taken.2)
  | .moveWithin srcDir dstDir, collection => Collections.moveWithin srcDir dstDir collection
  | .pushList _ _, .sortedSet items => (none, .sortedSet items)
  | .addMember _ _, .list items => (none, .list items)
  | .popList _ _, .sortedSet items => (none, .sortedSet items)
  | .popSortedSet _ _, .list items => (none, .list items)

end

/-- An entry ever made for a key, and whether the map still leads to it; calls may hold others. -/
structure StoreEntry (Score : Type) where
  key : Bytes
  linked : Bool
  collection : CollectionObject Score

inductive CollectionKind
  | list
  | sortedSet
  deriving DecidableEq

def CollectionKind.empty : CollectionKind → CollectionObject Score
  | .list => .list []
  | .sortedSet => .sortedSet []

def CollectionObject.kind : CollectionObject Score → CollectionKind
  | .list _ => .list
  | .sortedSet _ => .sortedSet

inductive MapStep (Score : Type)
  | get (key : Bytes)
  | getOrInsert (key : Bytes) (kind : CollectionKind)
  | remove (key : Bytes)
  | read (entry : Nat)
  | write (entry : Nat) (edit : Edit Score)
  | moveAcross (src dst : Nat) (srcDir dstDir : Direction)

def MapStep.Answer {Score : Type} : MapStep Score → Type
  | .get _ => Option Nat
  | .getOrInsert _ _ => Nat
  | .remove _ => Unit
  | .read _ => CollectionObject Score
  | .write _ edit => edit.Answer
  | .moveAcross _ _ _ _ => MoveOutcome

abbrev StoreCall (Score α : Type) := Program (MapStep Score) MapStep.Answer α

namespace StoreCall

variable {Score : Type}

def get (key : Bytes) : StoreCall Score (Option Nat) := Program.call (MapStep.get key)

def getOrInsert (key : Bytes) (kind : CollectionKind) : StoreCall Score Nat :=
  Program.call (MapStep.getOrInsert key kind)

def remove (key : Bytes) : StoreCall Score Unit := Program.call (MapStep.remove key)

def read (entry : Nat) : StoreCall Score (CollectionObject Score) :=
  Program.call (MapStep.read entry)

def write (entry : Nat) (edit : Edit Score) : StoreCall Score edit.Answer :=
  Program.call (MapStep.write entry edit)

def across (src dst : Nat) (srcDir dstDir : Direction) : StoreCall Score MoveOutcome :=
  Program.call (MapStep.moveAcross src dst srcDir dstDir)

end StoreCall

open StoreCall

variable {Score : Type} (key : Bytes)

def mutate (edit : Edit Score) (emptied : edit.Answer → Bool) :
    StoreCall Score (Option edit.Answer) := do
  match ← get key with
  | none => return none
  | some entry =>
    let out ← write entry edit
    if emptied out then
      remove key
    return some out

def listEntryForWrite : StoreCall Score (Option Nat) := do
  let entry ← match ← get key with
    | some entry =>
      match (← read entry).kind with
      | .sortedSet => return none
      | .list => pure entry
    | none => getOrInsert key .list
  match (← read entry).kind with
  | .sortedSet => return none
  | .list => return some entry

variable (key value : Bytes)

def pushListSide (front : Bool) : StoreCall Score (Except StoreError Nat) := do
  match ← listEntryForWrite key with
  | none => return .error .wrongType
  | some entry =>
    match ← write entry (.pushList value front) with
    | none => return .error .wrongType
    | some length => return .ok length

def pushListLeft : StoreCall Score (Except StoreError Nat) :=
  pushListSide key value true

def pushListRight : StoreCall Score (Except StoreError Nat) :=
  pushListSide key value false

def leftEmpty {α : Type} (answer : Option (List α × Bool)) : Bool := answer.any (·.2)

/-- `mutate` with a pop from a list. -/
def mutateList (front : Bool) (count : Nat) :
    StoreCall Score (Option (Option (List Bytes × Bool))) :=
  mutate key (.popList front count) (leftEmpty (α := Bytes))

/-- `mutate` with a pop from a sorted set. -/
def mutateSortedSet (front : Bool) (count : Nat) :
    StoreCall Score (Option (Option (List (Score × Bytes) × Bool))) :=
  mutate key (.popSortedSet front count) (leftEmpty (α := Score × Bytes))

def firstItem {α : Type} : Option (Option (List α × Bool)) → Option α
  | some (some (items, _)) => items.head?
  | _ => none

def popListSide (front : Bool) : StoreCall Score (Option Bytes) := do
  return firstItem (← mutateList key front 1)

def popListLeft : StoreCall Score (Option Bytes) := popListSide key true

def popListRight : StoreCall Score (Option Bytes) := popListSide key false

def zadd (score : Score) (member : Bytes) : StoreCall Score (Except StoreError Nat) := do
  let entry ← match ← get key with
    | some entry =>
      match (← read entry).kind with
      | .list => return .error .wrongType
      | .sortedSet => pure entry
    | none => getOrInsert key .sortedSet
  match ← write entry (.addMember score member) with
  | none => return .error .wrongType
  | some added => return .ok added

def zpopSide (max : Bool) : StoreCall Score (Option (Score × Bytes)) := do
  return firstItem (← mutateSortedSet key (!max) 1)

def zpopMin : StoreCall Score (Option (Score × Bytes)) := zpopSide key false

def zpopMax : StoreCall Score (Option (Score × Bytes)) := zpopSide key true

inductive PopOutcome (Score : Type)
  | empty
  | mismatch
  | hit (result : CollectionItemResult Score)
  deriving DecidableEq

/-- `str::parse::<usize>`. -/
def parseUsize (text : Bytes) : Option Nat :=
  let digits := match text with
    | 43 :: digits => digits
    | digits => digits
  (parseDigits digits).bind fun number => if number < 2 ^ 64 then some number else none

def parseCount (arg : Option Bytes) : Nat := max ((arg.bind parseUsize).getD 1) 1

structure PopPlan where
  kind : CollectionKind
  front : Bool
  count : Nat
  single : Bool

/-- The arms of `pop_outcome`. -/
def popPlan (cmd : RespCommand) (args : List Bytes) : Option PopPlan :=
  match cmd with
  | .blpop => some ⟨.list, true, 1, true⟩
  | .brpop => some ⟨.list, false, 1, true⟩
  | .blmpop =>
    let front := args.head?.bind Direction.fromBytes != some .right
    some ⟨.list, front, parseCount args[1]?, false⟩
  | .bzpopmin => some ⟨.sortedSet, true, 1, true⟩
  | .bzpopmax => some ⟨.sortedSet, false, 1, true⟩
  | .bzmpop =>
    let isMax := args.head?.any (eqIgnoreAsciiCase · (bytesOf "MAX"))
    some ⟨.sortedSet, !isMax, parseCount args[1]?, false⟩
  | _ => none

def PopPlan.listResult (plan : PopPlan) (key : Bytes) :
    List Bytes → Option (CollectionItemResult Score)
  | [] => none
  | item :: items => some (if plan.single then .single key item else .multi key (item :: items))

def PopPlan.sortedSetResult (plan : PopPlan) (key : Bytes) :
    List (Score × Bytes) → Option (CollectionItemResult Score)
  | [] => none
  | item :: items =>
    some (if plan.single then .singleScored key item.1 item.2
      else .multiScored key ((item :: items).map Prod.fst) ((item :: items).map Prod.snd))

def popWith {α : Type} (result : List α → Option (CollectionItemResult Score)) :
    Option (Option (List α × Bool)) → PopOutcome Score
  | none => .empty
  | some none => .mismatch
  | some (some (items, _)) => (result items).elim .empty .hit

def popOutcome (cmd : RespCommand) (args : List Bytes) :
    StoreCall Score (Except StoreError (PopOutcome Score)) := do
  match popPlan cmd args with
  | none => return .error (.unsupportedCommand cmd)
  | some plan =>
    match plan.kind with
    | .list =>
      return .ok (popWith (plan.listResult key) (← mutateList key plan.front plan.count))
    | .sortedSet =>
      return .ok (popWith (plan.sortedSetResult key) (← mutateSortedSet key plan.front plan.count))

/-- What `try_pop_item` makes of an outcome. -/
def PopOutcome.item (failOnMismatch : Bool) :
    PopOutcome Score → Option (CollectionItemResult Score)
  | .mismatch => if failOnMismatch then some .typeMismatch else none
  | .empty => none
  | .hit result => some result

def tryPopItem (cmd : RespCommand) (args : List Bytes) (failOnMismatch : Bool) :
    StoreCall Score (Except StoreError (Option (CollectionItemResult Score))) := do
  return (← popOutcome key cmd args).map (PopOutcome.item failOnMismatch)

/-- The closure `reap_dst` of `try_move_item`. -/
def reapDst (createdDst : Bool) (dstEntry : Nat) (dstKey : Bytes) : StoreCall Score Unit := do
  if createdDst then
    match ← read dstEntry with
    | .list [] => remove dstKey
    | _ => return ()

/-- What `try_move_item` does once it holds both entries. -/
def finishMove (srcKey dstKey : Bytes) (failOnSrcMismatch createdDst : Bool) (dstEntry : Nat) :
    MoveOutcome → StoreCall Score (Except StoreError (Option (CollectionItemResult Score)))
  | .notFound => do
    reapDst createdDst dstEntry dstKey
    return .ok none
  | .srcMismatch => do
    reapDst createdDst dstEntry dstKey
    return .ok (if failOnSrcMismatch then some .typeMismatch else none)
  | .dstMismatch => do
    reapDst createdDst dstEntry dstKey
    return .ok (some .typeMismatch)
  | .moved item srcEmptied => do
    if srcEmptied then
      remove srcKey
    return .ok (some (.single srcKey item))

def tryMoveItem (srcKey dstKey : Bytes) (srcDir dstDir : Direction) (failOnSrcMismatch : Bool) :
    StoreCall Score (Except StoreError (Option (CollectionItemResult Score))) := do
  match ← get srcKey with
  | none => return .ok none
  | some srcEntry =>
    if srcKey = dstKey then
      let outcome ← write srcEntry (.moveWithin srcDir dstDir)
      finishMove srcKey dstKey failOnSrcMismatch false srcEntry outcome
    else
      match ← get dstKey with
      | some dstEntry =>
        let outcome ← across srcEntry dstEntry srcDir dstDir
        finishMove srcKey dstKey failOnSrcMismatch false dstEntry outcome
      | none =>
        let dstEntry ← getOrInsert dstKey .list
        let outcome ← across srcEntry dstEntry srcDir dstDir
        finishMove srcKey dstKey failOnSrcMismatch true dstEntry outcome

/-- The entries ever made, and an account, which nothing reads, of what went in and out. -/
structure SharedStore (Score : Type) where
  entries : List (StoreEntry Score)
  pushed : Multiset Bytes
  returned : Multiset Bytes

/-- The elements a critical section put in; a member that was there only gets a score. -/
def Edit.pushed : (edit : Edit Score) → edit.Answer → Multiset Bytes
  | .pushList value _, some _ => {value}
  | .addMember _ member, some added => if added = 1 then {member} else 0
  | _, _ => 0

def Edit.returned : (edit : Edit Score) → edit.Answer → Multiset Bytes
  | .popList _ _, some (items, _) => items
  | .popSortedSet _ _, some (items, _) => (items.map Prod.snd : List Bytes)
  | _, _ => 0

namespace SharedStore

def new : SharedStore Score := ⟨[], 0, 0⟩

def find (store : SharedStore Score) (key : Bytes) : Option Nat :=
  store.entries.findIdx? fun entry => entry.linked && entry.key == key

end SharedStore

variable [LinearOrder Score]

/-- What a step gives back. A call only names entries the map has given it. -/
def MapStep.answer : (step : MapStep Score) → SharedStore Score → step.Answer
  | .get key, store => store.find key
  | .getOrInsert key _, store => (store.find key).getD store.entries.length
  | .remove _, _ => ()
  | .read number, store => store.entries[number]?.elim (.list []) StoreEntry.collection
  | .write number edit, store =>
    (edit.apply (store.entries[number]?.elim (.list []) StoreEntry.collection)).1
  | .moveAcross src dst srcDir dstDir, store =>
    match store.entries[src]?, store.entries[dst]? with
    | some source, some target =>
      if src = dst then .notFound
      else (Collections.moveAcross srcDir dstDir source.collection target.collection).1
    | _, _ => .notFound

def MapStep.effect : MapStep Score → SharedStore Score → SharedStore Score
  | .get _, store => store
  | .getOrInsert key kind, store =>
    match store.find key with
    | some _ => store
    | none => { store with entries := store.entries ++ [⟨key, true, kind.empty⟩] }
  | .remove key, store =>
    match store.find key with
    | none => store
    | some number =>
      { store with entries := store.entries.modify number fun entry =>
          { entry with linked := false } }
  | .read _, store => store
  | .write number edit, store =>
    match store.entries[number]? with
    | none => store
    | some entry =>
      let (answer, after) := edit.apply entry.collection
      { entries := store.entries.set number { entry with collection := after }
        pushed := store.pushed + edit.pushed answer
        returned := store.returned + edit.returned answer }
  | .moveAcross src dst srcDir dstDir, store =>
    match store.entries[src]?, store.entries[dst]? with
    | some source, some target =>
      if src = dst then store
      else
        let (_, sourceAfter, targetAfter) :=
          Collections.moveAcross srcDir dstDir source.collection target.collection
        { store with
          entries := (store.entries.set src { source with collection := sourceAfter }).set dst
            { target with collection := targetAfter } }
    | _, _ => store

def MapStep.exec (step : MapStep Score) (store : SharedStore Score) :
    step.Answer × SharedStore Score :=
  (step.answer store, step.effect store)

inductive StoreOp (Score : Type)
  | pushListLeft (key value : Bytes)
  | pushListRight (key value : Bytes)
  | popListLeft (key : Bytes)
  | popListRight (key : Bytes)
  | zadd (key : Bytes) (score : Score) (member : Bytes)
  | zpopMin (key : Bytes)
  | zpopMax (key : Bytes)
  | tryPopItem (key : Bytes) (cmd : RespCommand) (args : List Bytes) (failOnMismatch : Bool)
  | tryMoveItem (srcKey dstKey : Bytes) (srcDir dstDir : Direction) (failOnSrcMismatch : Bool)

inductive StoreAnswer (Score : Type)
  | length (result : Except StoreError Nat)
  | value (result : Option Bytes)
  | scored (result : Option (Score × Bytes))
  | item (result : Except StoreError (Option (CollectionItemResult Score)))

omit [LinearOrder Score] in
def StoreOp.steps : StoreOp Score → StoreCall Score (StoreAnswer Score)
  | .pushListLeft key value => .length <$> Collections.pushListLeft key value
  | .pushListRight key value => .length <$> Collections.pushListRight key value
  | .popListLeft key => .value <$> Collections.popListLeft key
  | .popListRight key => .value <$> Collections.popListRight key
  | .zadd key score member => .length <$> Collections.zadd key score member
  | .zpopMin key => .scored <$> Collections.zpopMin key
  | .zpopMax key => .scored <$> Collections.zpopMax key
  | .tryPopItem key cmd args failOnMismatch =>
    .item <$> Collections.tryPopItem key cmd args failOnMismatch
  | .tryMoveItem srcKey dstKey srcDir dstDir failOnSrcMismatch =>
    .item <$> Collections.tryMoveItem srcKey dstKey srcDir dstDir failOnSrcMismatch

def threadSteps (ops : List (StoreOp Score)) : StoreCall Score (List (StoreAnswer Score)) :=
  ops.mapM StoreOp.steps

end Wedb.Collections
