/-
The string commands that have a fast path: the integer increment with its in-place and slack edits,
STRLEN and the bit commands. A closure for an in-place edit is a pure function.
-/

import Wedb.Decimal
import Wedb.ObjectCommands

namespace Wedb.Redis

open Kv Object Resp

variable (session : StoreSession) (context : DecodeContext)

def incremented (increment : Int) (bytes : Bytes) : Option Int :=
  (parseStoredInteger bytes).bind fun old => asInt64 (old + increment)

theorem looksLikeObject_integer {context : DecodeContext} {bytes : Bytes} {number : Int}
    (parsed : parseStoredInteger bytes = some number) : looksLikeObject context bytes = false := by
  refine Bool.eq_false_iff.mpr fun object => ?_
  cases bytes with
  | nil => cases object
  | cons first rest =>
    have control := (of_decide_eq_true ((Bool.and_eq_true _ _).mp object).1).2
    have small : first < 9 := UInt8.lt_of_le_of_lt control (by decide)
    rw [parseStoredInteger_control rest small] at parsed
    cases parsed

/-- The closure of the in-place increment: it writes only a text of the same length. -/
def incrementEdit (increment : Int) (bytes : Bytes) : Option Bytes :=
  (incremented increment bytes).bind fun new =>
    if (formatInt new).length = bytes.length then some (formatInt new) else none

variable (key : Bytes)

/-- `has_ttl_tag` and, where it answers true, `check_expired`. -/
def expiredByTag : Command Bool := do
  if ← .gets (session.hasTtlTag · key) then .total (session.checkExpired context.now · key)
  else return false

/-- The last part of `incrby`: a separate read and upsert. -/
def incrbySlow (increment : Int) : Command Int := do
  let old ← match ← readString session context key with
    | none => pure 0
    | some bytes =>
      match parseStoredInteger bytes with
      | some old => pure old
      | none => .fail .notInteger
  match asInt64 (old + increment) with
  | none => .fail .notInteger
  | some new =>
    .modify (session.upsert · key (formatInt new))
    return new

def incrby (increment : Int) : Command Int := do
  if ← expiredByTag session context key then
    .modify (session.upsert · key (formatInt increment))
    return increment
  else
    match ← .total (session.tryModifyInPlace · key (incrementEdit increment)) with
    | .edited bytes =>
      match incremented increment bytes with
      | some new => return new
      | none => .fail .notInteger
    | .skipped => incrbySlow session context key increment
    | .declined bytes =>
      match incremented increment bytes with
      | none => incrbySlow session context key increment
      | some new =>
        if ← .total (session.tryModifyWithSlack · key (formatInt new)) then return new
        else incrbySlow session context key increment

def strlen : Command Nat := do
  return ((← readString session context key).map List.length).getD 0

def bitAt (offset : Nat) (bytes : Bytes) : Nat :=
  match bytes[offset / 8]? with
  | some byte => ((byte >>> UInt8.ofNat (7 - offset % 8)) &&& 1).toNat
  | none => 0

def writeBit (offset : Nat) (bit : Bool) (bytes : Bytes) : Bytes :=
  let mask : UInt8 := 1 <<< UInt8.ofNat (7 - offset % 8)
  bytes.modify (offset / 8) fun byte => if bit then byte ||| mask else byte &&& ~~~mask

/-- The closure of the in-place bit write: it declines when the value is too short. -/
def bitEdit (offset : Nat) (bit : Bool) (bytes : Bytes) : Option Bytes :=
  if offset / 8 < bytes.length then some (writeBit offset bit bytes) else none

def setbitSlow (offset : Nat) (bit : Bool) : Command Nat := do
  let bytes := (← readString session context key).getD []
  let extended := bytes ++ List.replicate (offset / 8 + 1 - bytes.length) 0
  .modify (session.upsert · key (writeBit offset bit extended))
  return bitAt offset extended

def setbit (offset : Nat) (bit : Bool) : Command Nat := do
  if ← expiredByTag session context key then setbitSlow session context key offset bit
  else
    match ← .total (session.tryModifyInPlace · key (bitEdit offset bit)) with
    | .edited bytes => return bitAt offset bytes
    | _ => setbitSlow session context key offset bit

def getbit (offset : Nat) : Command Nat := do
  return ((← readString session context key).map (bitAt offset)).getD 0

theorem live_of_hasTtlTag {store : Store} {key : Bytes}
    (tag : session.hasTtlTag store key = false) :
    (store key).expired context.now = false := by
  have absent : (store key).ttl = none := by
    by_contra present
    have found := session.hasTtlTag_of_ttl store key (Option.isSome_iff_ne_none.mpr present)
    rw [tag] at found
    cases found
  exact Slot.expired_of_ttl_none absent context.now

theorem expiredByTag_run (store : Store) (key : Bytes) :
    (expiredByTag session context key).run store =
      (.ok ((store key).expired context.now), session.purge context.now store key) := by
  unfold expiredByTag StoreSession.purge
  rw [Fallible.bind_run, Fallible.gets_run]
  cases tag : session.hasTtlTag store key with
  | true =>
    simp only [if_true, Fallible.total_run, session.checkExpired_eq]
    cases (store key).expired context.now <;> rfl
  | false => simp [live_of_hasTtlTag session context tag]

end Wedb.Redis
