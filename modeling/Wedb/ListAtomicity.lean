/-
When are list commands of several sessions atomic? A push between load and save of another command
is lost.
-/

import Wedb.Exclusion
import Wedb.ListCommands

namespace Wedb.Redis

open Kv Object ListCommand

inductive ListReply
  | length (length : Nat)
  | items (items : List Bytes)
  | item (item : Option Bytes)
  | removed (count : Nat)
  | trimmed
  | set (found : Bool)
  | inserted (length : Int)
  deriving DecidableEq

inductive ListCall
  | lpush (key : Bytes) (values : List Bytes)
  | rpush (key : Bytes) (values : List Bytes)
  | lpop (key : Bytes) (count : Nat)
  | rpop (key : Bytes) (count : Nat)
  | lmove (source destination : Bytes) (fromLeft toLeft : Bool)
  | lrem (key : Bytes) (count : Int) (value : Bytes)
  | ltrim (key : Bytes) (start stop : Int)
  | lset (key : Bytes) (index : Int) (value : Bytes)
  | linsert (key pivot value : Bytes) (position : ListObject.InsertPosition)

variable (context : DecodeContext)

def ListCall.command : ListCall → ListCommand ListReply
  | .lpush key values => .length <$> Redis.lpush context key values
  | .rpush key values => .length <$> Redis.rpush context key values
  | .lpop key count => .items <$> Redis.lpop context key count
  | .rpop key count => .items <$> Redis.rpop context key count
  | .lmove source destination fromLeft toLeft =>
    .item <$> Redis.lmove context source destination fromLeft toLeft
  | .lrem key count value => .removed <$> Redis.lrem context key count value
  | .ltrim key start stop => (fun _ => .trimmed) <$> Redis.ltrim context key start stop
  | .lset key index value => .set <$> Redis.lset context key index value
  | .linsert key pivot value position =>
    .inserted <$> Redis.linsert context key pivot value position

def ListCall.program (call : ListCall) :
    Program ObjectAccess ObjectAccess.Answer (Except CommandError ListReply) :=
  (call.command context).run

theorem ListCall.program_begins (call : ListCall) : (call.program context).result? = none := by
  cases call <;> rfl

def loadContents (contents : Contents) : Except CommandError (Option GarnetObject) :=
  let visible := contents.visible context.now
  if visible.collection.isSome then .error .wrongType
  else
    match visible.value with
    | none => .ok none
    | some bytes =>
      match deserialize context bytes with
      | some object => .ok (some object)
      | none => .error .wrongType

theorem loadContents_contents (slot : Slot) :
    loadContents context slot.contents = objectView context slot := by
  unfold loadContents objectView Contents.visible
  rw [Slot.contents_expired]
  cases slot.expired context.now with
  | true => rfl
  | false => rfl

/-- An access on the contents of its key: a load drops an expired key, a save writes the list or
deletes the key of an empty one. -/
def ObjectAccess.act : (access : ObjectAccess) → Contents → access.Answer × Contents
  | .load context _, contents => (loadContents context contents, contents.visible context.now)
  | .save _ _ items, contents => ((),
      if items.isEmpty then .empty
      else { contents with value := some (encodeList items), expireAt := none })

def objectAccess (session : StoreSession) :
    LocalAccess (ObjectAccess.perform session) ObjectAccess.key Contents where
  view store key := (store key).contents
  act := ObjectAccess.act
  answer_eq access store := by
    cases access with
    | load context key =>
      show ((loadObject session context key).run store).1 =
        loadContents context (store key).contents
      rw [loadObject_run, loadContents_contents]
    | save context key items => rfl
  view_eq access store := by
    cases access with
    | load context key =>
      show (fun other => (((loadObject session context key).run store).2 other).contents) = _
      rw [loadObject_run]
      exact contents_purge session context.now store key
    | save context key items =>
      show (fun other => (((saveList session context key items).run store).2 other).contents) =
        Function.update (fun other => (store other).contents) key
          (if items.isEmpty then .empty
          else { (store key).contents with value := some (encodeList items), expireAt := none })
      rw [saveList_run]
      show (fun other => (afterSave session store key items other).contents) = _
      unfold afterSave
      split
      · exact contents_vacate session store key
      · exact contents_upsert session store key (encodeList items)

abbrev ListCalls (ι : Type) :=
  Calls ObjectAccess ObjectAccess.Answer (Except CommandError ListReply) Store (List Bytes) ι

/-- Where no call touches a key another has touched, replies and contents are those of some serial
order. -/
theorem listCalls_serial {ι : Type} [DecidableEq ι] (session : StoreSession)
    (calls : ι → ListCall) (contexts : ι → DecodeContext) (store : Store) (after : ListCalls ι)
    (runs : Calls.Runs (ObjectAccess.perform session) (touch ObjectAccess.key) []
      (Exclusive ObjectAccess.key)
      (Calls.start (fun call => (calls call).program (contexts call)) [] store) after)
    (quiet : ∀ call, after.notes call = []) :
    ∃ order : List ι, order.Nodup ∧ (∀ call, (after.rest call).result?.isSome → call ∈ order) ∧
      (serial (ObjectAccess.perform session) (fun call => (calls call).program (contexts call))
          order store).1.map some = order.map (fun call => (after.rest call).result?) ∧
      ∀ key, ((serial (ObjectAccess.perform session)
          (fun call => (calls call).program (contexts call)) order store).2 key).contents =
        (after.state key).contents := by
  obtain ⟨order, nodup, finished, results, contents⟩ := serial_of_exclusive
    (objectAccess session) (fun call => (calls call).program_begins (contexts call)) runs quiet
  exact ⟨order, nodup, finished, results, fun key => congrFun contents key⟩

def pushTwoKeys (call : Bool) : ListCall :=
  .rpush (if call then bytesOf "b" else bytesOf "a") [bytesOf "x"]

/-- Two pushes to different keys may be interleaved at will. -/
theorem pushTwoKeys_serial : ∃ after : ListCalls Bool,
    (after.rest false).result? = some (.ok (.length 1)) ∧
    (after.rest true).result? = some (.ok (.length 1)) ∧
    ∃ order : List Bool, order.Nodup ∧ (∀ call, (after.rest call).result?.isSome → call ∈ order) ∧
      (serial (ObjectAccess.perform .reference)
          (fun call => (pushTwoKeys call).program ⟨0, fun _ => false⟩) order
          fun _ => Slot.empty).1.map some =
        order.map (fun call => (after.rest call).result?) ∧
      ∀ key, ((serial (ObjectAccess.perform .reference)
          (fun call => (pushTwoKeys call).program ⟨0, fun _ => false⟩) order
          fun _ => Slot.empty).2 key).contents = (after.state key).contents := by
  refine ⟨_, ?_, ?_, listCalls_serial .reference pushTwoKeys
    (fun _ => ⟨0, fun _ => false⟩) (fun _ => Slot.empty) _
    (.next true (.next false (.next true (.next false (.refl _)
      (exclusive_of_rest rfl ?_) rfl) (exclusive_of_rest rfl ?_) rfl)
      (exclusive_of_rest rfl ?_) rfl) (exclusive_of_rest rfl ?_) rfl) ?_⟩
  · rfl
  · rfl
  · decide
  · decide
  · decide
  · decide
  · rintro (_ | _) <;> rfl

def pushOneKey (call : Bool) : ListCall :=
  .rpush (bytesOf "k") [if call then bytesOf "y" else bytesOf "x"]

/-- Two pushes that both load before either saves: both answer one, and one element is there. -/
theorem pushOneKey_loses : ∃ after : ListCalls Bool,
    Calls.Runs (ObjectAccess.perform .reference) (touch ObjectAccess.key) [] (fun _ _ => True)
      (Calls.start (fun call => (pushOneKey call).program ⟨0, fun _ => false⟩) []
        fun _ => Slot.empty) after ∧
    (∀ call, after.notes call = []) ∧
    (after.rest false).result? = some (.ok (.length 1)) ∧
    (after.rest true).result? = some (.ok (.length 1)) ∧
    (after.state (bytesOf "k")).contents.value = some (encodeList [bytesOf "y"]) ∧
    ∀ first, (serial (ObjectAccess.perform .reference)
      (fun call => (pushOneKey call).program ⟨0, fun _ => false⟩) [first, !first]
      fun _ => Slot.empty).1 = [.ok (.length 1), .ok (.length 2)] := by
  refine ⟨_, .next true (.next false (.next true (.next false (.refl _) trivial rfl)
    trivial rfl) trivial rfl) trivial rfl, ?_, rfl, rfl, rfl, ?_⟩
  · rintro (_ | _) <;> rfl
  · rintro (_ | _) <;> rfl

end Wedb.Redis
