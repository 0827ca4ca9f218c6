/-
Which waiting clients a command wakes. The arms of `execute_single_command` that fill lists and
sorted sets stand here with the signal each gives the broker. The operations of the store, the
floating-point numbers and the arms that never call `notify_waiters` are parameters.

A table names, command by command, the key that is signalled and the arrivals that are counted,
from the arguments and from what the store answers in the state before. Every arm signals what the
table says, so a step wakes exactly the clients that stand first behind that key.
-/

import Wedb.BlockingMove
import Wedb.Broker
import Wedb.CommandSyntax

namespace Wedb.Blocking

open Resp Server

/-! ### The arms that fill keys -/

structure Floats (F : Type) where
  /-- `try_read_double` without infinities. -/
  tryReadDouble : Bytes → Option F
  zero : F
  add : F → F → F
  lt : F → F → Bool
  le : F → F → Bool
  isNan : F → Bool
  isLongitude : F → Bool
  isLatitude : F → Bool
  /-- `write_double_bulk`. -/
  writeDoubleBulk : F → Bytes

inductive RenameResult
  | noSuchKey
  | alreadyExists
  | sameKey
  | success

/-- The operations of the store, and the arms that do not use the broker. -/
structure Primitives (World Error F : Type) where
  lpush : Bytes → List Bytes → Fallible World Error Nat
  rpush : Bytes → List Bytes → Fallible World Error Nat
  lpushx : Bytes → List Bytes → Fallible World Error Nat
  rpushx : Bytes → List Bytes → Fallible World Error Nat
  linsert : Bytes → Bytes → Bytes → Bool → Fallible World Error Int
  lmove : Bytes → Bytes → Bool → Bool → Fallible World Error (Option Bytes)
  rpoplpush : Bytes → Bytes → Fallible World Error (Option Bytes)
  lpop : Bytes → Nat → Fallible World Error (List Bytes)
  rpop : Bytes → Nat → Fallible World Error (List Bytes)
  zmadd : Bytes → List (F × Bytes) → ZAddOpt → Fallible World Error Nat
  zscore : Bytes → Bytes → Fallible World Error (Option F)
  zincrby : Bytes → F → Bytes → Fallible World Error F
  geoaddMulti : Bytes → List (F × F × Bytes) → Bool → Bool → Bool → Fallible World Error Nat
  rename : Bytes → Bytes → Bool → Fallible World Error RenameResult
  others : RespCommand → List Bytes → Fallible World Error Bytes

structure Signal where
  key : Bytes
  count : Nat
  deriving DecidableEq

variable {World Error F : Type}

/-- What an arm writes, and the call of `notify_waiters` it makes. -/
abbrev Reply := Bytes × Option Signal

def refuse (text : Bytes) : Fallible World Error Reply := pure (writeError text, none)

def notValidFloat : Bytes := bytesOf "ERR value is not a valid float"

def pushArm (name : String) (operation : Bytes → List Bytes → Fallible World Error Nat) :
    List Bytes → Fallible World Error Reply
  | key :: first :: rest => do
    let length ← operation key (first :: rest)
    return (writeInteger length, some ⟨key, rest.length + 1⟩)
  | _ => refuse (wrongArity name)

def pushExistingArm (name : String) (operation : Bytes → List Bytes → Fallible World Error Nat) :
    List Bytes → Fallible World Error Reply
  | key :: first :: rest => do
    let count ← operation key (first :: rest)
    return (writeInteger count, if 0 < count then some ⟨key, rest.length + 1⟩ else none)
  | _ => refuse (wrongArity name)

/-- The reply to a move that does not wait: an element that came is one arrival. -/
def moved (destination : Bytes) : Option Bytes → Reply
  | some item => (writeBulkString item, some ⟨destination, 1⟩)
  | none => (writeNull, none)

def added (key : Bytes) (count : Nat) : Reply :=
  (writeInteger count, if 0 < count then some ⟨key, count⟩ else none)

/-- Whether `InsertPosition` is before the pivot. -/
def insertsBefore (token : Bytes) : Option Bool :=
  if eqIgnoreAsciiCase token (bytesOf "BEFORE") then some true
  else if eqIgnoreAsciiCase token (bytesOf "AFTER") then some false
  else none

section

variable (floats : Floats F) (store : Primitives World Error F)

def lpush : List Bytes → Fallible World Error Reply := pushArm "lpush" store.lpush

def rpush : List Bytes → Fallible World Error Reply := pushArm "rpush" store.rpush

def lpushx : List Bytes → Fallible World Error Reply := pushExistingArm "lpushx" store.lpushx

def rpushx : List Bytes → Fallible World Error Reply := pushExistingArm "rpushx" store.rpushx

def linsert : List Bytes → Fallible World Error Reply
  | [key, position, pivot, value] =>
    match insertsBefore position with
    | none => refuse syntaxError
    | some before => do
      let length ← store.linsert key pivot value before
      return (writeInteger length, if 0 < length then some ⟨key, 1⟩ else none)
  | _ => refuse (wrongArity "linsert")

def lmove : List Bytes → Fallible World Error Reply
  | [source, destination, fromToken, toToken] =>
    match directionIsLeft fromToken, directionIsLeft toToken with
    | some fromLeft, some toLeft => do
      return moved destination (← store.lmove source destination fromLeft toLeft)
    | _, _ => refuse syntaxError
  | _ => refuse (wrongArity "lmove")

def rpoplpush : List Bytes → Fallible World Error Reply
  | [source, destination] => do return moved destination (← store.rpoplpush source destination)
  | _ => refuse (wrongArity "rpoplpush")

def timeoutIsNegative (token : Bytes) : Option Bool :=
  (floats.tryReadDouble token).map fun seconds => floats.lt seconds floats.zero

def moveOnce (call : MoveCall) : Fallible World Error (Option Bytes) :=
  popThenPush (if call.fromLeft then store.lpop call.source 1 else store.rpop call.source 1)
    fun item =>
      if call.toLeft then store.lpush call.destination [item]
      else store.rpush call.destination [item]

/-- One try of a blocking move. Where nothing came the client goes on to wait, and nothing is
written yet. -/
def moveArm (call : MoveCall) : Fallible World Error Reply := do
  match ← moveOnce store call with
  | some item => return (writeBulkString item, some ⟨call.destination, 1⟩)
  | none => return ([], none)

/-- `handle_blocking_move`, up to the wait. -/
def blmove (args : List Bytes) : Fallible World Error Reply :=
  match parseBlmove (timeoutIsNegative floats) args with
  | .error text => refuse text
  | .ok call => moveArm store call

/-- `handle_brpoplpush`, up to the wait. -/
def brpoplpush (args : List Bytes) : Fallible World Error Reply :=
  match parseBrpoplpush (timeoutIsNegative floats) args with
  | .error text => refuse text
  | .ok call => moveArm store call

def readPairs : List Bytes → Option (List (F × Bytes))
  | score :: member :: rest => do
    let score ← floats.tryReadDouble score
    let items ← readPairs rest
    return (score, member) :: items
  | _ => some []

def readZadd : List Bytes → Except Bytes (Bytes × ZAddOpt × List (F × Bytes))
  | key :: first :: second :: rest =>
    match parseZaddOptions {} (first :: second :: rest) with
    | .error _ => .error syntaxError
    | .ok (options, pairs) =>
      if pairs = [] ∨ pairs.length % 2 ≠ 0 then .error syntaxError
      else
        match readPairs floats pairs with
        | none => .error notValidFloat
        | some items => .ok (key, options, items)
  | _ => .error syntaxError

/-- ZADD with INCR, and no signal. -/
def zaddIncr (key : Bytes) (options : ZAddOpt) : List (F × Bytes) → Fallible World Error Bytes
  | [(increment, member)] => do
    let old ← store.zscore key member
    if (options.nx && old.isSome) || (options.xx && old.isNone) then return writeNull
    else
      let base := old.getD floats.zero
      let score := floats.add base increment
      if floats.isNan score then
        return writeError (bytesOf "ERR resulting score is not a number (NaN)")
      else if old.isSome &&
          ((options.gt && floats.le score base) || (options.lt && floats.le base score)) then
        return writeNull
      else
        return floats.writeDoubleBulk (← store.zincrby key increment member)
  | _ => return writeError syntaxError

def zadd (args : List Bytes) : Fallible World Error Reply :=
  match readZadd floats args with
  | .error text => refuse text
  | .ok (key, options, items) =>
    if options.incr then do return (← zaddIncr floats store key options items, none)
    else do return added key (← store.zmadd key items options)

def zincrby : List Bytes → Fallible World Error Bytes
  | [key, token, member] =>
    match floats.tryReadDouble token with
    | none => return writeError notValidFloat
    | some increment => return floats.writeDoubleBulk (← store.zincrby key increment member)
  | _ => return writeError (wrongArity "zincrby")

def readGeoOptions (nx xx ch : Bool) : List Bytes → (Bool × Bool × Bool) × List Bytes
  | [] => ((nx, xx, ch), [])
  | word :: rest =>
    if eqIgnoreAsciiCase word (bytesOf "NX") then readGeoOptions true xx ch rest
    else if eqIgnoreAsciiCase word (bytesOf "XX") then readGeoOptions nx true ch rest
    else if eqIgnoreAsciiCase word (bytesOf "CH") then readGeoOptions nx xx true rest
    else ((nx, xx, ch), word :: rest)

def readPositions : List Bytes → Except Bytes (List (F × F × Bytes))
  | longitude :: latitude :: member :: rest =>
    match floats.tryReadDouble longitude, floats.tryReadDouble latitude with
    | some longitude, some latitude =>
      if floats.isLongitude longitude && floats.isLatitude latitude then do
        return (longitude, latitude, member) :: (← readPositions rest)
      else
        .error (bytesOf "ERR -180.0 <= longitude <= 180.0 and -90.0 <= latitude <= 90.0")
    | _, _ => .error notValidFloat
  | _ => .ok []

structure GeoCall (F : Type) where
  key : Bytes
  nx : Bool
  xx : Bool
  ch : Bool
  items : List (F × F × Bytes)

def readGeoadd : List Bytes → Except Bytes (GeoCall F)
  | key :: first :: second :: third :: rest =>
    match readGeoOptions false false false (first :: second :: third :: rest) with
    | ((nx, xx, ch), positions) =>
      if nx && xx then .error syntaxError
      else if positions.length < 3 ∨ positions.length % 3 ≠ 0 then .error syntaxError
      else (readPositions floats positions).map fun items => ⟨key, nx, xx, ch, items⟩
  | _ => .error (wrongArity "geoadd")

def geoadd (args : List Bytes) : Fallible World Error Reply :=
  match readGeoadd floats args with
  | .error text => refuse text
  | .ok call => do
    return added call.key (← store.geoaddMulti call.key call.items call.nx call.xx call.ch)

def rename (name : String) (isNx : Bool) : List Bytes → Fallible World Error Bytes
  | [source, destination] => do
    match ← store.rename source destination isNx with
    | .noSuchKey => return writeError (bytesOf "ERR no such key")
    | .alreadyExists => return writeInteger 0
    | .sameKey => return if isNx then writeInteger 0 else writeOk
    | .success => return if isNx then writeInteger 1 else writeOk
  | _ => return writeError (wrongArity name)

/-- The arms without a signal. -/
def silentArm (cmd : RespCommand) (args : List Bytes) : Fallible World Error Bytes :=
  match cmd with
  | .zincrby => zincrby floats store args
  | .rename => rename store "rename" false args
  | .renamenx => rename store "renamenx" true args
  | cmd => store.others cmd args

def executeSingleCommand (cmd : RespCommand) (args : List Bytes) : Fallible World Error Reply :=
  match cmd with
  | .lpush => lpush store args
  | .rpush => rpush store args
  | .lpushx => lpushx store args
  | .rpushx => rpushx store args
  | .linsert => linsert store args
  | .lmove => lmove store args
  | .rpoplpush => rpoplpush store args
  | .blmove => blmove floats store args
  | .brpoplpush => brpoplpush floats store args
  | .zadd => zadd floats store args
  | .geoadd => geoadd floats store args
  | cmd => do return (← silentArm floats store cmd args, none)

end

/-! ### The table of the signals -/

/-- A key, and what the store has to answer for the number of arrivals there. -/
structure Production (World Error : Type) where
  key : Bytes
  counts : Fallible World Error Nat

def arrivals (key : Bytes) (count : Nat) : Option Signal :=
  if 0 < count then some ⟨key, count⟩ else none

/-- The signal of a production: none where the store fails or nothing arrives. -/
def Production.signal (production : Production World Error) (world : World) : Option Signal :=
  match (production.counts.run world).1 with
  | .ok count => arrivals production.key count
  | .error _ => none

def came (item : Option Bytes) : Nat := if item.isSome then 1 else 0

def pushed (operation : Bytes → List Bytes → Fallible World Error Nat) :
    List Bytes → Option (Production World Error)
  | key :: first :: rest => some ⟨key, (fun _ => rest.length + 1) <$> operation key (first :: rest)⟩
  | _ => none

def pushedExisting (operation : Bytes → List Bytes → Fallible World Error Nat) :
    List Bytes → Option (Production World Error)
  | key :: first :: rest =>
    some ⟨key, (fun count => if 0 < count then rest.length + 1 else 0) <$>
      operation key (first :: rest)⟩
  | _ => none

section

variable (floats : Floats F) (store : Primitives World Error F)

def inserted : List Bytes → Option (Production World Error)
  | [key, position, pivot, value] =>
    (insertsBefore position).map fun before =>
      ⟨key, (fun length => if 0 < length then 1 else 0) <$> store.linsert key pivot value before⟩
  | _ => none

def movedAtOnce : List Bytes → Option (Production World Error)
  | [source, destination, fromToken, toToken] => do
    let fromLeft ← directionIsLeft fromToken
    let toLeft ← directionIsLeft toToken
    return ⟨destination, came <$> store.lmove source destination fromLeft toLeft⟩
  | _ => none

def rotated : List Bytes → Option (Production World Error)
  | [source, destination] => some ⟨destination, came <$> store.rpoplpush source destination⟩
  | _ => none

def movedByCall (call : MoveCall) : Production World Error :=
  ⟨call.destination, came <$> moveOnce store call⟩

def membersAdded (args : List Bytes) : Option (Production World Error) :=
  match readZadd floats args with
  | .error _ => none
  | .ok (key, options, items) =>
    if options.incr then none else some ⟨key, store.zmadd key items options⟩

def positionsAdded (args : List Bytes) : Option (Production World Error) :=
  (readGeoadd floats args).toOption.map fun call =>
    ⟨call.key, store.geoaddMulti call.key call.items call.nx call.xx call.ch⟩

/-- The commands that signal, with the key and the arrivals of each. -/
def production (cmd : RespCommand) (args : List Bytes) : Option (Production World Error) :=
  match cmd with
  | .lpush => pushed store.lpush args
  | .rpush => pushed store.rpush args
  | .lpushx => pushedExisting store.lpushx args
  | .rpushx => pushedExisting store.rpushx args
  | .linsert => inserted store args
  | .lmove => movedAtOnce store args
  | .rpoplpush => rotated store args
  | .blmove => (parseBlmove (timeoutIsNegative floats) args).toOption.map (movedByCall store)
  | .brpoplpush =>
    (parseBrpoplpush (timeoutIsNegative floats) args).toOption.map (movedByCall store)
  | .zadd => membersAdded floats store args
  | .geoadd => positionsAdded floats store args
  | _ => none

end

/-! ### Every arm signals what the table says -/

/-- The signal an arm sends from a state. -/
def signalOf (arm : Fallible World Error Reply) (world : World) : Option Signal :=
  match (arm.run world).1 with
  | .ok (_, signal) => signal
  | .error _ => none

/-- In every state the arm signals what the production says. -/
def Announces (arm : Fallible World Error Reply) (production : Option (Production World Error)) :
    Prop :=
  ∀ world, signalOf arm world = production.bind (·.signal world)

theorem refuse_announces (text : Bytes) :
    Announces (refuse text : Fallible World Error Reply) none := fun _ => rfl

theorem silent_announces (action : Fallible World Error Bytes) :
    Announces (do return (← action, none)) none := by
  intro world
  unfold signalOf
  rw [Fallible.bind_run]
  rcases action.run world with ⟨_ | _, _⟩ <;> rfl

/-- An arm with one operation of the store: its signal and the count come from the same answer. -/
theorem reply_announces {α : Type} {key : Bytes} {action : Fallible World Error α}
    {reply : α → Reply} {count : α → Nat}
    (agree : ∀ value, (reply value).2 = arrivals key (count value)) :
    Announces (do return reply (← action)) (some ⟨key, count <$> action⟩) := by
  intro world
  unfold signalOf
  rw [Fallible.bind_run, Option.bind_some, Production.signal, Fallible.map_run]
  rcases action.run world with ⟨_ | value, _⟩
  · rfl
  · exact agree value

theorem arrivals_if (condition : Prop) [Decidable condition] (key : Bytes) (count : Nat) :
    (if condition then some ⟨key, count + 1⟩ else none) =
      arrivals key (if condition then count + 1 else 0) := by
  unfold arrivals
  split <;> simp

theorem moved_snd (destination : Bytes) (item : Option Bytes) :
    (moved destination item).2 = arrivals destination (came item) := by
  cases item <;> rfl

theorem added_announces (key : Bytes) (action : Fallible World Error Nat) :
    Announces (do return added key (← action)) (some ⟨key, action⟩) := by
  have general : Announces (do return added key (← action)) (some ⟨key, id <$> action⟩) :=
    reply_announces fun _ => rfl
  rwa [id_map] at general

theorem pushArm_announces (name : String)
    (operation : Bytes → List Bytes → Fallible World Error Nat) (args : List Bytes) :
    Announces (pushArm name operation args) (pushed operation args) := by
  unfold pushArm pushed
  split
  · exact reply_announces fun _ => rfl
  · exact refuse_announces _

theorem pushExistingArm_announces (name : String)
    (operation : Bytes → List Bytes → Fallible World Error Nat) (args : List Bytes) :
    Announces (pushExistingArm name operation args) (pushedExisting operation args) := by
  unfold pushExistingArm pushedExisting
  split
  · exact reply_announces fun _ => arrivals_if _ _ _
  · exact refuse_announces _

section

variable (floats : Floats F) (store : Primitives World Error F) (args : List Bytes)

theorem linsert_announces : Announces (linsert store args) (inserted store args) := by
  unfold linsert inserted
  split
  · cases insertsBefore _ with
    | none => exact refuse_announces _
    | some before => exact reply_announces fun _ => arrivals_if _ _ _
  · exact refuse_announces _

theorem lmove_announces : Announces (lmove store args) (movedAtOnce store args) := by
  unfold lmove movedAtOnce
  split
  · cases directionIsLeft _ with
    | none => exact refuse_announces _
    | some fromLeft =>
      cases directionIsLeft _ with
      | none => exact refuse_announces _
      | some toLeft => exact reply_announces (moved_snd _)
  · exact refuse_announces _

theorem rpoplpush_announces : Announces (rpoplpush store args) (rotated store args) := by
  unfold rpoplpush rotated
  split
  · exact reply_announces (moved_snd _)
  · exact refuse_announces _

theorem moveArm_announces (call : MoveCall) :
    Announces (moveArm store call) (some (movedByCall store call)) := by
  intro world
  unfold signalOf moveArm
  rw [Fallible.bind_run, Option.bind_some, Production.signal, movedByCall, Fallible.map_run]
  rcases (moveOnce store call).run world with ⟨_ | _ | _, _⟩ <;> rfl

theorem blmove_announces : Announces (blmove floats store args)
    ((parseBlmove (timeoutIsNegative floats) args).toOption.map (movedByCall store)) := by
  unfold blmove
  cases parseBlmove (timeoutIsNegative floats) args with
  | error text => exact refuse_announces text
  | ok call => exact moveArm_announces store call

theorem brpoplpush_announces : Announces (brpoplpush floats store args)
    ((parseBrpoplpush (timeoutIsNegative floats) args).toOption.map (movedByCall store)) := by
  unfold brpoplpush
  cases parseBrpoplpush (timeoutIsNegative floats) args with
  | error text => exact refuse_announces text
  | ok call => exact moveArm_announces store call

theorem zadd_announces : Announces (zadd floats store args) (membersAdded floats store args) := by
  unfold zadd membersAdded
  cases readZadd floats args with
  | error text => exact refuse_announces text
  | ok read =>
    obtain ⟨key, options, items⟩ := read
    dsimp only
    split
    · exact silent_announces _
    · exact added_announces _ _

theorem geoadd_announces :
    Announces (geoadd floats store args) (positionsAdded floats store args) := by
  unfold geoadd positionsAdded
  cases readGeoadd floats args with
  | error text => exact refuse_announces text
  | ok call => exact added_announces _ _

/-- Each command signals what the table has for it, and a command outside the table nothing. -/
theorem executeSingleCommand_announces (cmd : RespCommand) :
    Announces (executeSingleCommand floats store cmd args) (production floats store cmd args) := by
  unfold executeSingleCommand production
  split
  · exact pushArm_announces _ _ _
  · exact pushArm_announces _ _ _
  · exact pushExistingArm_announces _ _ _
  · exact pushExistingArm_announces _ _ _
  · exact linsert_announces _ _
  · exact lmove_announces _ _
  · exact rpoplpush_announces _ _
  · exact blmove_announces _ _ _
  · exact brpoplpush_announces _ _ _
  · exact zadd_announces _ _ _
  · exact geoadd_announces _ _ _
  · exact silent_announces _

end

/-! ### Steps and the clients they wake -/

/-- The store and the broker. -/
structure Hall (World : Type) where
  world : World
  broker : Broker

/-- A step that can fill a key: a command runs, by itself or in a transaction, or a waiting move is
told of its source and tries again. -/
inductive Step
  | command (cmd : RespCommand) (args : List Bytes)
  | retry (call : MoveCall)

inductive Kind
  | list
  | sortedSet

/-- The commands that block on a list, and on a sorted set. -/
def waitsFor : Kind → RespCommand → Bool
  | .list, .blpop | .list, .brpop | .list, .blmove | .list, .brpoplpush | .list, .blmpop => true
  | .sortedSet, .bzpopmin | .sortedSet, .bzpopmax | .sortedSet, .bzmpop => true
  | _, _ => false

/-- The client waits behind the key with a command for its kind. -/
def Blocked (broker : Broker) (kind : Kind) (key : Bytes) (number : Nat) : Prop :=
  number ∈ broker.live key ∧
    ∃ observer, broker.observers[number]? = some observer ∧ waitsFor kind observer.command = true

/-- The observer was told to look at a key. -/
def Signalled (broker : Broker) (number : Nat) : Prop :=
  ∃ observer key, broker.observers[number]? = some observer ∧
    observer.status = .resultSet (.keyUpdate key)

section

variable (floats : Floats F) (store : Primitives World Error F) (fullKey : Bytes → Bytes)

def Step.arm : Step → Fallible World Error Reply
  | .command cmd args => executeSingleCommand floats store cmd args
  | .retry call => moveArm store call

def Step.production : Step → Option (Production World Error)
  | .command cmd args => Blocking.production floats store cmd args
  | .retry call => some (movedByCall store call)

def Broker.send (broker : Broker) : Option Signal → Broker
  | none => broker
  | some signal => broker.notifyWaiters (fullKey signal.key) signal.count

def Step.next (step : Step) (hall : Hall World) : Hall World where
  world := ((step.arm floats store).run hall.world).2
  broker := hall.broker.send fullKey (signalOf (step.arm floats store) hall.world)

variable (holds : Kind → World → Bytes → Prop) (step : Step) (hall : Hall World)

/-- The step turns a key without elements of the kind into one with some. -/
def Fills (kind : Kind) (key : Bytes) : Prop :=
  ¬holds kind hall.world key ∧ holds kind (step.next floats store fullKey hall).world key

/-- Every client blocked on a key that the step fills is signalled. -/
def WakesAll : Prop :=
  ∀ kind key, Fills floats store fullKey holds step hall kind key →
    ∀ number, Blocked hall.broker kind key number →
      Signalled (step.next floats store fullKey hall).broker number

/-- The table has a signal for the step, and the client is among the first behind its key. -/
def Counted (number : Nat) : Prop :=
  ∃ produced ∈ step.production floats store, ∃ signal ∈ produced.signal hall.world,
    number ∈ (hall.broker.live (fullKey signal.key)).take signal.count

variable {kind : Kind} {key name : Bytes} {number count : Nat} {broker : Broker}

theorem Step.announces : Announces (step.arm floats store) (step.production floats store) := by
  cases step with
  | command cmd args => exact executeSingleCommand_announces floats store args cmd
  | retry call => exact moveArm_announces store call

theorem Blocked.unsignalled (blocked : Blocked broker kind key number) :
    ¬Signalled broker number := by
  rintro ⟨observer, name, found, status⟩
  have receptive : receptive broker.observers number := by
    have live := blocked.1
    unfold Broker.live at live
    split at live
    · cases live
    · exact (mem_liveWaiters.mp live).2
  simp [Blocking.receptive, found, Observer.isReceptive, status] at receptive

theorem signalled_notifyWaiters (blocked : Blocked broker kind key number) :
    Signalled (broker.notifyWaiters name count) number ↔
      number ∈ (broker.live name).take count := by
  obtain ⟨observer, found, -⟩ := blocked.2
  have after := broker.notifyWaiters_observers name count number
  constructor
  · intro signalled
    by_contra uncounted
    rw [if_neg uncounted] at after
    obtain ⟨told, about, known, status⟩ := signalled
    exact blocked.unsignalled ⟨told, about, after.symm.trans known, status⟩
  · intro counted
    rw [if_pos counted, found] at after
    exact ⟨observer.signal name, name, after, rfl⟩

/-- A step signals a blocked client exactly if the table counts it. -/
theorem signalled_next (blocked : Blocked hall.broker kind key number) :
    Signalled (step.next floats store fullKey hall).broker number ↔
      Counted floats store fullKey step hall number := by
  unfold Step.next Counted
  rw [step.announces floats store hall.world]
  cases step.production floats store with
  | none => simpa [Broker.send] using blocked.unsignalled
  | some produced =>
    cases given : produced.signal hall.world with
    | none => simpa [Broker.send, given] using blocked.unsignalled
    | some signal => simpa [Broker.send, given] using signalled_notifyWaiters blocked

/-- A step wakes every client blocked on the keys it fills iff its signal counts them all. -/
theorem wakesAll_iff :
    WakesAll floats store fullKey holds step hall ↔
      ∀ kind key, Fills floats store fullKey holds step hall kind key →
        ∀ number, Blocked hall.broker kind key number →
          Counted floats store fullKey step hall number := by
  refine forall₃_congr fun kind key fills => forall₂_congr fun number blocked => ?_
  exact signalled_next floats store fullKey step hall blocked

end

/-! ### A client that sleeps on -/

/-- Whole numbers for scores, and a store that knows which keys are sorted sets. -/
def wholeNumbers : Floats Int where
  tryReadDouble := tryReadLong
  zero := 0
  add := (· + ·)
  lt left right := decide (left < right)
  le left right := decide (left ≤ right)
  isNan _ := false
  isLongitude value := decide (-180 ≤ value ∧ value ≤ 180)
  isLatitude value := decide (-90 ≤ value ∧ value ≤ 90)
  writeDoubleBulk value := writeBulkString (formatInt value)

def sortedSets : Primitives (Bytes → Bool) Unit Int where
  lpush _ _ := .fail ()
  rpush _ _ := .fail ()
  lpushx _ _ := .fail ()
  rpushx _ _ := .fail ()
  linsert _ _ _ _ := .fail ()
  lmove _ _ _ _ := .fail ()
  rpoplpush _ _ := .fail ()
  lpop _ _ := .fail ()
  rpop _ _ := .fail ()
  zmadd key items _ := .total fun world => (items.length, Function.update world key true)
  zscore _ _ := pure none
  zincrby key amount _ := .total fun world => (amount, Function.update world key true)
  geoaddMulti key items _ _ _ := .total fun world =>
    (items.length, Function.update world key true)
  rename _ _ _ := .fail ()
  others _ _ := .fail ()

/-- No key is there, and a client waits in BZPOPMIN: at first it was told to look. -/
def waitingRoom (key : Bytes) : Hall (Bytes → Bool) where
  world _ := false
  broker :=
    let told := (Broker.mk [] fun _ => none).getCollectionItem .bzpopmin [key]
    (told.2.getCollectionItem .bzpopmin [key]).2

def isSortedSet (kind : Kind) (world : Bytes → Bool) (key : Bytes) : Prop :=
  match kind with
  | .list => False
  | .sortedSet => world key = true

/-- ZINCRBY makes the sorted set the client waits for, and the client is told nothing. -/
theorem zincrby_leaves_asleep :
    ¬WakesAll wholeNumbers sortedSets id isSortedSet
      (.command .zincrby [bytesOf "k", bytesOf "1", bytesOf "m"]) (waitingRoom (bytesOf "k")) := by
  intro wakes
  obtain ⟨observer, key, found, status⟩ := wakes .sortedSet (bytesOf "k")
    ⟨Bool.false_ne_true, rfl⟩ 0 ⟨List.mem_singleton.mpr rfl, _, rfl, rfl⟩
  cases found
  cases status

end Wedb.Blocking
