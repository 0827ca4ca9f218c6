/-
How the commands read and write values: the string reads that try to decode an object, the load and
save of whole objects, the type name and the loaders.
-/

import Wedb.Fallible
import Wedb.GarnetObject
import Wedb.StoreSession

namespace Wedb.Redis

open Kv Object Fallible

inductive CommandError
  | wrongType
  | notInteger
  | indexOutOfRange
  deriving DecidableEq

abbrev Command (α : Type) := Fallible Store CommandError α

variable (session : StoreSession) (context : DecodeContext)

variable (store : Store)

def readString (key : Bytes) : Command (Option Bytes) := do
  match ← .total (session.read context.now · key) with
  | some bytes =>
    if looksLikeObject context bytes then .fail .wrongType else return some bytes
  | none =>
    match ← .total (session.loadMeta context.now · key) with
    | some metadata => if 0 < metadata.size then .fail .wrongType else return none
    | none => return none

def stringView (slot : Slot) : Except CommandError (Option Bytes) :=
  if slot.expired context.now then .ok none
  else
    match slot.bytes with
    | some bytes => if looksLikeObject context bytes then .error .wrongType else .ok (some bytes)
    | none => if slot.liveCollection.isSome then .error .wrongType else .ok none

theorem readString_live {store : Store} {key : Bytes}
    (live : (store key).expired context.now = false) :
    (readString session context key).run store = (stringView context (store key), store) := by
  unfold readString stringView
  rw [bind_run, total_run, session.read_live live, live]
  cases (store key).bytes with
  | some bytes =>
    by_cases object : looksLikeObject context bytes <;> simp [object]
  | none =>
    simp only [Bool.false_eq_true, if_false]
    rw [bind_run, total_run, session.loadMeta_live live, Slot.liveCollection_isSome]
    cases (store key).collection with
    | none => simp
    | some metadata => by_cases size : 0 < metadata.size <;> simp [size]

section

variable (key : Bytes)

theorem readString_run : (readString session context key).run store =
      (stringView context (store key), session.purge context.now store key) := by
  cases expired : (store key).expired context.now with
  | false => rw [readString_live session context expired, session.purge_of_live expired]
  | true =>
    have vacant := session.vacate_self store key
    have live := vacant.expired context.now
    have view : stringView context (store key) = .ok none := by simp [stringView, expired]
    rw [view, session.purge_of_expired expired]
    unfold readString
    rw [bind_run, total_run, session.read_eq, expired]
    simp only [if_true]
    rw [bind_run, total_run, session.loadMeta_live live]
    have ghost := Slot.liveCollection_isSome (session.vacate store key key)
    rw [vacant.collection] at ghost
    cases collection : (session.vacate store key key).collection with
    | none => simp
    | some metadata =>
      rw [collection] at ghost
      have small : ¬0 < metadata.size := of_decide_eq_false ghost.symm
      simp [small]

def loadLiveMeta (key : Bytes) : Command (Option MetaValue) := do
  match ← .total (session.loadMeta context.now · key) with
  | some metadata => if 0 < metadata.size then return some metadata else return none
  | none => return none

theorem loadLiveMeta_run : (loadLiveMeta session context key).run store =
      (.ok (if (store key).expired context.now then none else (store key).liveCollection),
        session.purge context.now store key) := by
  unfold loadLiveMeta StoreSession.purge
  rw [bind_run, total_run, session.loadMeta_eq]
  cases (store key).expired context.now with
  | true => rfl
  | false =>
    simp only [Bool.false_eq_true, if_false, Slot.liveCollection]
    cases (store key).collection with
    | none => rfl
    | some metadata => by_cases size : 0 < metadata.size <;> simp [size, Option.filter]

theorem purge_slot_cases :
    ((store key).expired context.now = false ∧ session.purge context.now store key = store) ∨
      ((store key).expired context.now ∧ (session.purge context.now store key key).Vacant) := by
  cases expired : (store key).expired context.now with
  | false => exact .inl ⟨rfl, session.purge_of_live expired⟩
  | true =>
    refine .inr ⟨rfl, ?_⟩
    rw [session.purge_of_expired expired]
    exact session.vacate_self store key

theorem read_purge :
    session.read context.now (session.purge context.now store key) key =
      (if (store key).expired context.now then none else (store key).bytes,
        session.purge context.now store key) := by
  rw [session.read_live (session.purge_self_live context.now store key)]
  rcases purge_slot_cases session context store key with ⟨live, same⟩ | ⟨expired, vacant⟩
  · rw [same, live]
    rfl
  · rw [vacant.bytes, expired]
    rfl

def loadObject (key : Bytes) : Command (Option GarnetObject) := do
  match ← loadLiveMeta session context key with
  | some _ => .fail .wrongType
  | none =>
    match ← .total (session.read context.now · key) with
    | none => return none
    | some bytes =>
      match deserialize context bytes with
      | some object => return some object
      | none => .fail .wrongType

def objectView (slot : Slot) : Except CommandError (Option GarnetObject) :=
  if slot.expired context.now then .ok none
  else if slot.liveCollection.isSome then .error .wrongType
  else
    match slot.bytes with
    | none => .ok none
    | some bytes =>
      match deserialize context bytes with
      | some object => .ok (some object)
      | none => .error .wrongType

theorem loadObject_run : (loadObject session context key).run store =
      (objectView context (store key), session.purge context.now store key) := by
  unfold loadObject objectView
  rw [bind_ok (loadLiveMeta_run session context store key)]
  cases expired : (store key).expired context.now with
  | true =>
    simp only [if_true]
    rw [bind_run, total_run, read_purge, expired]
    rfl
  | false =>
    simp only [Bool.false_eq_true, if_false]
    cases (store key).liveCollection with
    | some metadata => rfl
    | none =>
      simp only [Option.isSome_none, Bool.false_eq_true, if_false]
      rw [bind_run, total_run, read_purge, expired]
      cases (store key).bytes with
      | none => rfl
      | some bytes => cases decoded : deserialize context bytes <;> simp [decoded]

/-- `save_object` of a list: an empty one is deleted. -/
def saveList (key : Bytes) (items : List Bytes) : Command Unit := do
  if items.isEmpty then
    let _ ← .total (session.delete context.now · key)
  else .modify (session.upsert · key (encodeList items))

def afterSave (store : Store) (key : Bytes) (items : List Bytes) : Store :=
  if items.isEmpty then session.vacate store key else session.upsert store key (encodeList items)

theorem saveList_run (items : List Bytes) :
    (saveList session context key items).run store =
      (.ok (), afterSave session store key items) := by
  unfold saveList afterSave
  split
  · rw [bind_run, total_run, session.delete_eq]
    rfl
  · rfl

end

def loadCollectionMeta (forWrite : Bool) (key : Bytes) (expected : CollectionType) :
    Command (Option MetaValue) := do
  match ← loadLiveMeta session context key with
  | some metadata =>
    if metadata.collectionType ≠ expected then
      if forWrite then .fail .wrongType else return none
    else return some metadata
  | none =>
    match ← .total (session.read context.now · key) with
    | some _ => .fail .wrongType
    | none => return none

end Wedb.Redis
