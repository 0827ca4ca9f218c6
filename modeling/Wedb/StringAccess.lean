/-
The string commands that read, compute and write back, cut at the operations of the storage engine:
the integer increment, APPEND, GETSET and GETDEL.
-/

import Wedb.Program
import Wedb.StringCommands

namespace Wedb.Redis

open Kv Object Resp Program

/-- The operations of the engine that the commands make on their key. -/
inductive StringAccess
  | hasTtlTag
  | checkExpired
  | tryModifyInPlace (edit : Bytes → Option Bytes)
  | tryModifyWithSlack (value : Bytes)
  | readWith
  | loadMeta
  | upsert (value : Bytes)
  | delete

abbrev StringAccess.Answer : StringAccess → Type
  | .hasTtlTag | .checkExpired | .tryModifyWithSlack _ | .delete => Bool
  | .tryModifyInPlace _ => InPlace
  | .readWith => Option Bytes
  | .loadMeta => Option MetaValue
  | .upsert _ => Unit

def StringAccess.perform (session : StoreSession) (now : Nat) (key : Bytes) :
    (access : StringAccess) → Store → access.Answer × Store
  | .hasTtlTag, store => (session.hasTtlTag store key, store)
  | .checkExpired, store => session.checkExpired now store key
  | .tryModifyInPlace edit, store => session.tryModifyInPlace store key edit
  | .tryModifyWithSlack value, store => session.tryModifyWithSlack store key value
  | .readWith, store => session.read now store key
  | .loadMeta, store => session.loadMeta now store key
  | .upsert value, store => ((), session.upsert store key value)
  | .delete, store => session.delete now store key

abbrev StringProgram (α : Type) := ExceptT CommandError (Program StringAccess StringAccess.Answer) α

namespace StringProgram

def access (op : StringAccess) : StringProgram op.Answer :=
  liftM (Program.call op : Program StringAccess StringAccess.Answer op.Answer)

variable (context : DecodeContext)

def readString : StringProgram (Option Bytes) := do
  match ← access .readWith with
  | some bytes =>
    if looksLikeObject context bytes then throw .wrongType else return some bytes
  | none =>
    match ← access .loadMeta with
    | some metadata => if 0 < metadata.size then throw .wrongType else return none
    | none => return none

/-- `has_ttl_tag` and, where it answers true, `check_expired`. -/
def expiredByTag : StringProgram Bool := do
  if ← access .hasTtlTag then access .checkExpired else return false

variable (increment : Int)

/-- The last part of `incrby`: a separate read and upsert. -/
def incrbySlow : StringProgram Int := do
  let old ← match ← readString context with
    | none => pure 0
    | some bytes =>
      match parseStoredInteger bytes with
      | some old => pure old
      | none => throw .notInteger
  match asInt64 (old + increment) with
  | none => throw .notInteger
  | some new =>
    access (.upsert (formatInt new))
    return new

/-- The part of `incrby` after the in-place edit. -/
def afterInPlace : InPlace → StringProgram Int
  | .edited bytes =>
    match incremented increment bytes with
    | some new => return new
    | none => throw .notInteger
  | .skipped => incrbySlow context increment
  | .declined bytes =>
    match incremented increment bytes with
    | none => incrbySlow context increment
    | some new => do
      if ← access (.tryModifyWithSlack (formatInt new)) then return new
      else incrbySlow context increment

/-- The part of `incrby` after the expiry check. -/
def incrbyLive : StringProgram Int :=
  access (.tryModifyInPlace (incrementEdit increment)) >>= afterInPlace context increment

def incrby : StringProgram Int := do
  if ← expiredByTag then
    access (.upsert (formatInt increment))
    return increment
  else incrbyLive context increment

def append (suffix : Bytes) : StringProgram Nat := do
  match ← readString context with
  | none =>
    access (.upsert suffix)
    return suffix.length
  | some bytes =>
    access (.upsert (bytes ++ suffix))
    return (bytes ++ suffix).length

def getset (value : Bytes) : StringProgram (Option Bytes) := do
  let old ← readString context
  access (.upsert value)
  return old

def getdel : StringProgram (Option Bytes) := do
  let old ← readString context
  if old.isSome then
    let _ ← access .delete
  return old

section

variable {β : Type} (next : Option Bytes → StringProgram β)

def afterMeta (metadata : Option MetaValue) : StringProgram β :=
  if metadata.any fun metadata => decide (0 < metadata.size) then throw .wrongType else next none

def afterRead : Option Bytes → StringProgram β
  | some bytes => if looksLikeObject context bytes then throw .wrongType else next (some bytes)
  | none => access .loadMeta >>= afterMeta next

theorem readString_bind :
    readString context >>= next = access .readWith >>= afterRead context next := by
  unfold readString
  rw [bind_assoc]
  refine congrArg _ (funext fun read => ?_)
  cases read with
  | some bytes =>
    dsimp only [afterRead]
    split <;> rfl
  | none =>
    rw [bind_assoc]
    refine congrArg _ (funext fun metadata => ?_)
    unfold afterMeta
    cases metadata with
    | none => rfl
    | some metadata => by_cases live : 0 < metadata.size <;> simp [live]

end

end StringProgram

end Wedb.Redis
