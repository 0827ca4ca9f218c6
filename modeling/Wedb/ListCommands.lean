/-
The list commands. Each loads a whole object, changes it in memory and saves it, and other sessions
may run in between; `alone` runs it without interruption.
-/

import Wedb.ListObject
import Wedb.ObjectCommands
import Wedb.Program

namespace Wedb.Redis

open Kv Object

inductive ObjectAccess
  | load (context : DecodeContext) (key : Bytes)
  | save (context : DecodeContext) (key : Bytes) (items : List Bytes)

def ObjectAccess.Answer : ObjectAccess → Type
  | .load _ _ => Except CommandError (Option GarnetObject)
  | .save _ _ _ => Unit

def ObjectAccess.key : ObjectAccess → Bytes
  | .load _ key => key
  | .save _ key _ => key

def ObjectAccess.perform (session : StoreSession) :
    (access : ObjectAccess) → Store → access.Answer × Store
  | .load context key, store => (loadObject session context key).run store
  | .save context key items, store => ((), ((saveList session context key items).run store).2)

abbrev ListCommand (α : Type) :=
  ExceptT CommandError (Program ObjectAccess ObjectAccess.Answer) α

namespace ListCommand

def load (context : DecodeContext) (key : Bytes) : ListCommand (Option GarnetObject) :=
  ExceptT.mk (Program.call (ObjectAccess.load context key))

def save (context : DecodeContext) (key : Bytes) (items : List Bytes) : ListCommand Unit :=
  liftM (Program.call (ObjectAccess.save context key items) : Program _ ObjectAccess.Answer Unit)

def asListMut (object : GarnetObject) : ListCommand (List Bytes) :=
  match object.asList with
  | some items => return items
  | none => throw .wrongType

def alone {α : Type} (session : StoreSession) (command : ListCommand α) : Command α :=
  Program.alone (ObjectAccess.perform session) command

end ListCommand

open ListCommand

section

variable (context : DecodeContext)

def push (extend : List Bytes → List Bytes) (key : Bytes) : ListCommand Nat := do
  let items ← match ← load context key with
    | some object => asListMut object
    | none => pure []
  save context key (extend items)
  return (extend items).length

def lpush (key : Bytes) (values : List Bytes) : ListCommand Nat :=
  push context (ListObject.lpush values) key

def rpush (key : Bytes) (values : List Bytes) : ListCommand Nat :=
  push context (ListObject.rpush values) key

def editList {α : Type} (key : Bytes) (absent : α) (edit : List Bytes → α × List Bytes) :
    ListCommand α := do
  match ← load context key with
  | none => return absent
  | some object =>
    let items ← asListMut object
    save context key (edit items).2
    return (edit items).1

def lpop (key : Bytes) (count : Nat) : ListCommand (List Bytes) :=
  editList context key [] (ListObject.lpop count)

def rpop (key : Bytes) (count : Nat) : ListCommand (List Bytes) :=
  editList context key [] (ListObject.rpop count)

def lrem (key : Bytes) (count : Int) (value : Bytes) : ListCommand Nat :=
  editList context key 0 (ListObject.lrem count value)

def ltrim (key : Bytes) (start stop : Int) : ListCommand Unit :=
  editList context key () fun items => ((), ListObject.ltrim start stop items)

def lset (key : Bytes) (index : Int) (value : Bytes) : ListCommand Bool := do
  match ← load context key with
  | none => return false
  | some object =>
    match ListObject.lset index value (← asListMut object) with
    | none => throw .indexOutOfRange
    | some items =>
      save context key items
      return true

def linsert (key pivot value : Bytes) (position : ListObject.InsertPosition) : ListCommand Int := do
  match ← load context key with
  | none => return 0
  | some object =>
    match ListObject.linsert pivot value position (← asListMut object) with
    | none => return -1
    | some items =>
      save context key items
      return items.length

/-- The part of `lmove` for one key: the list is rotated. -/
def rotateKey (key : Bytes) (object : GarnetObject) (fromLeft toLeft : Bool) :
    ListCommand (Option Bytes) := do
  match ListObject.rotate fromLeft toLeft (← asListMut object) with
  | none => return none
  | some (item, items) =>
    save context key items
    return some item

def lmove (source destination : Bytes) (fromLeft toLeft : Bool) : ListCommand (Option Bytes) := do
  match ← load context source with
  | none => return none
  | some sourceObject =>
    if source = destination then rotateKey context source sourceObject fromLeft toLeft
    else
      let destinationObject := (← load context destination).getD (.list [])
      let sourceItems ← asListMut sourceObject
      let destinationItems ← asListMut destinationObject
      match ListObject.lmove fromLeft toLeft sourceItems destinationItems with
      | none => return none
      | some (item, sourceItems, destinationItems) =>
        save context source sourceItems
        save context destination destinationItems
        return some item

end

section

variable {session : StoreSession} {α β : Type}

@[simp] theorem alone_pure (value : α) :
    alone session (pure value : ListCommand α) = pure value := rfl

theorem alone_bind (command : ListCommand α) (next : α → ListCommand β) :
    alone session (command >>= next) =
      alone session command >>= fun value => alone session (next value) :=
  Program.alone_bind (ObjectAccess.perform session) command next

@[simp] theorem alone_load (context : DecodeContext) (key : Bytes) :
    alone session (load context key) = loadObject session context key := rfl

@[simp] theorem alone_save (context : DecodeContext) (key : Bytes) (items : List Bytes) :
    alone session (save context key items) = saveList session context key items := by
  have unit : ∀ store, (alone session (save context key items)).run store =
      (saveList session context key items).run store := by
    intro store
    show (Except.ok (), ((saveList session context key items).run store).2) = _
    rw [saveList_run]
  exact congrArg Fallible.mk (funext unit)

theorem alone_asListMut (object : GarnetObject) : alone session (asListMut object) =
    match object.asList with
    | some items => pure items
    | none => .fail .wrongType := by
  unfold asListMut
  cases object.asList <;> rfl

end

end Wedb.Redis
