/-
The blocking moves BLMOVE and BRPOPLPUSH, tried at once and after each wake-up that reports the
source. A try pops and pushes as two commands, and nothing undoes the pop when the push fails.
-/

import Mathlib.Algebra.BigOperators.Group.Finset.Basic
import Mathlib.Algebra.Order.Group.Multiset
import Wedb.KvDispatch
import Wedb.ListCommands

namespace Wedb.Server

open Kv Object Redis Redis.ListCommand Resp Fallible List Finset ListObject

/-- `Direction::from_bytes`: whether the direction is left. -/
def directionIsLeft (token : Bytes) : Option Bool :=
  if eqIgnoreAsciiCase token (bytesOf "LEFT") then some true
  else if eqIgnoreAsciiCase token (bytesOf "RIGHT") then some false
  else none

structure MoveCall where
  source : Bytes
  destination : Bytes
  fromLeft : Bool
  toLeft : Bool

variable (timeoutIsNegative : Bytes → Option Bool)

def checkTimeout (token : Bytes) : Except Bytes Unit :=
  match timeoutIsNegative token with
  | none => .error timeoutNotFloat
  | some true => .error timeoutNegative
  | some false => .ok ()

def parseBlmove : List Bytes → Except Bytes MoveCall
  | [source, destination, fromToken, toToken, timeout] =>
    match directionIsLeft fromToken, directionIsLeft toToken with
    | some fromLeft, some toLeft =>
      (checkTimeout timeoutIsNegative timeout).map fun _ =>
        ⟨source, destination, fromLeft, toLeft⟩
    | _, _ => .error syntaxError
  | _ => .error (wrongArity "blmove")

def parseBrpoplpush : List Bytes → Except Bytes MoveCall
  | [source, destination, timeout] =>
    (checkTimeout timeoutIsNegative timeout).map fun _ => ⟨source, destination, false, true⟩
  | _ => .error (wrongArity "brpoplpush")

/-- What ends a wait: the deadline, or an answer of the broker. -/
inductive Wakeup
  | deadline
  | forceUnblocked
  | typeMismatch
  | keyFound (item : Option Bytes)
  | empty

/-- One try of a move: the push is a command of its own, after the pop. -/
def popThenPush {σ ε : Type} (pop : Fallible σ ε (List Bytes)) (push : Bytes → Fallible σ ε Nat) :
    Fallible σ ε (Option Bytes) := do
  match ← pop with
  | [] => return none
  | item :: _ =>
    let _ ← push item
    return some item

section

variable (session : StoreSession) (context : DecodeContext) (fromLeft : Bool)

def popEnd (key : Bytes) : Command (List Bytes) :=
  alone session (if fromLeft then lpop context key 1 else rpop context key 1)

def pushEnd (toLeft : Bool) (key item : Bytes) : Command Nat :=
  alone session (if toLeft then lpush context key [item] else rpush context key [item])

def tryMove (call : MoveCall) : Command (Option Bytes) :=
  popThenPush (popEnd session context call.fromLeft call.source)
    (pushEnd session context call.toLeft call.destination)

def moveOrWait (call : MoveCall) (store : Store) : Option Bytes × Store :=
  match (tryMove session context call).run store with
  | (.ok (some item), after) => (some (writeBulkString item), after)
  | (.ok none, after) => (none, after)
  | (.error error, after) => (some (writeError (errorText error)), after)

inductive MoveStep
  | blmove (args : List Bytes)
  | brpoplpush (args : List Bytes)
  | wake (call : MoveCall) (wakeup : Wakeup)

variable (timeoutIsNegative : Bytes → Option Bool)

def MoveStep.call : MoveStep → Except Bytes MoveCall
  | .blmove args => parseBlmove timeoutIsNegative args
  | .brpoplpush args => parseBrpoplpush timeoutIsNegative args
  | .wake call _ => .ok call

variable (step : MoveStep)

def MoveStep.perform (store : Store) : Option Bytes × Store :=
  match step.call timeoutIsNegative with
  | .error text => (some (writeError text), store)
  | .ok call =>
    match step with
    | .wake _ .deadline => (some writeNull, store)
    | .wake _ .forceUnblocked => (some (writeError unblockedClient), store)
    | .wake _ .typeMismatch => (some (writeError wrongType), store)
    | .wake _ (.keyFound (some item)) => (some (writeBulkString item), store)
    | .wake _ .empty => (some writeNull, store)
    | _ => moveOrWait session context call store

def listItems (slot : Slot) : List Bytes :=
  match objectView context slot with
  | .ok (some (.list items)) => items
  | _ => []

def MoveCall.elements (call : MoveCall) (store : Store) : List Bytes :=
  if call.source = call.destination then listItems context (store call.source)
  else listItems context (store call.source) ++ listItems context (store call.destination)

/-- The elements of both lists together stay, and both keys where the reply is an error. -/
def MoveCall.Conserved (call : MoveCall) (store : Store) (outcome : Option Bytes × Store) : Prop :=
  (call.elements context outcome.2).Perm (call.elements context store) ∧
    ((∃ text, outcome.1 = some (writeError text)) →
      logicalStore context.now outcome.2 call.source = logicalStore context.now store call.source ∧
        logicalStore context.now outcome.2 call.destination =
          logicalStore context.now store call.destination)

/-- A step conserves the elements of its lists; without a call it changes nothing. -/
def Conserves (store : Store) : Prop :=
  let outcome := step.perform session context timeoutIsNegative store
  match step.call timeoutIsNegative with
  | .error _ => outcome.2 = store
  | .ok call => call.Conserved context store outcome

/-- The destination is absent, or a list that can be stored with one element more. -/
def Takes (slot : Slot) : Prop :=
  match objectView context slot with
  | .ok none => True
  | .ok (some (.list items)) => items.length + 1 < 2 ^ 31
  | _ => False

/-- Nothing to move, or a destination that takes it. -/
def MoveCall.Safe (call : MoveCall) (store : Store) : Prop :=
  listItems context (store call.source) = [] ∨ call.source = call.destination ∨
    Takes context (store call.destination)

def MoveStep.tries : MoveStep → Option MoveCall
  | .blmove args => (parseBlmove timeoutIsNegative args).toOption
  | .brpoplpush args => (parseBrpoplpush timeoutIsNegative args).toOption
  | .wake call (.keyFound none) => some call
  | .wake _ _ => none

variable {session context} {store : Store} {key : Bytes}

theorem objectView_afterSave (items : List Bytes) (absent : (store key).liveCollection = none) :
    objectView context (afterSave session store key items key) =
      if items.isEmpty then .ok none
      else
        match deserializeList (serializeList items) with
        | some items => .ok (some (.list items))
        | none => .error .wrongType := by
  unfold afterSave
  split
  · have vacant := session.vacate_self store key
    simp [objectView, vacant.expired, vacant.bytes, vacant.collection]
  · have slot := session.upsert_self store key (encodeList items)
    have live : (session.upsert store key (encodeList items) key).expired context.now = false := by
      rw [slot]
      exact Slot.expired_of_ttl_none rfl _
    have collection : (session.upsert store key (encodeList items) key).liveCollection = none := by
      rw [slot]
      exact absent
    have bytes : (session.upsert store key (encodeList items) key).bytes =
        some (encodeList items) := by
      rw [slot]
      rfl
    have decoded : deserialize context (encodeList items) =
        (deserializeList (serializeList items)).map .list := rfl
    simp only [objectView, live, collection, bytes, decoded, Option.isSome_none,
      Bool.false_eq_true, if_false]
    cases deserializeList (serializeList items) <;> rfl

variable {items : List Bytes}

theorem listItems_afterSave (absent : (store key).liveCollection = none) (fit : ItemsFit items)
    (short : items.length < 2 ^ 31) :
    listItems context (afterSave session store key items key) = items := by
  rw [listItems, objectView_afterSave items absent]
  cases items with
  | nil => rfl
  | cons item rest =>
    simp only [isEmpty_cons, Bool.false_eq_true, if_false,
      deserializeList_serializeList _ fit short]

variable {key other item : Bytes}

theorem afterSave_other (items : List Bytes)
    (different : other ≠ key) : afterSave session store key items other = store other := by
  unfold afterSave
  split
  · exact session.vacate_other store key other different
  · exact session.upsert_other _ _ _ _ different

theorem liveCollection_of_objectView {found : Option GarnetObject}
    (loaded : objectView context (store key) = .ok found) :
    (session.purge context.now store key key).liveCollection = none := by
  rcases purge_slot_cases session context store key with ⟨live, same⟩ | ⟨-, vacant⟩
  · rw [same]
    rw [objectView, live] at loaded
    cases collection : (store key).liveCollection with
    | none => rfl
    | some metadata =>
      rw [collection] at loaded
      cases loaded
  · exact vacant.collection

theorem objectView_purge (store : Store) (key other : Bytes) :
    objectView context (session.purge context.now store key other) =
      objectView context (store other) := by
  obtain rfl | same := eq_or_ne other key
  · rcases purge_slot_cases session context store other with ⟨-, same⟩ | ⟨expired, vacant⟩
    · rw [same]
    · simp [objectView, vacant.expired, vacant.bytes, vacant.collection, expired]
  · rw [session.purge_other _ _ _ _ same]

theorem fit_of_objectView {slot : Slot}
    (loaded : objectView context slot = .ok (some (.list items))) :
    ItemsFit items ∧ items.length < 2 ^ 31 := by
  unfold objectView at loaded
  split at loaded
  · cases loaded
  · split at loaded
    · cases loaded
    · split at loaded
      · cases loaded
      · split at loaded
        · rename_i object decoded
          cases loaded
          unfold deserialize at decoded
          split at decoded
          · simp at decoded
          · obtain ⟨read, list, same⟩ := Option.map_eq_some_iff.mp decoded
            cases same
            exact deserializeList_fit list
          · simp at decoded
          · simp at decoded
          · cases decoded
        · cases loaded

theorem popEnd_run (key : Bytes) (store : Store) : (popEnd session context fromLeft key).run store =
      match objectView context (store key) with
      | .error error => (.error error, session.purge context.now store key)
      | .ok none => (.ok [], session.purge context.now store key)
      | .ok (some object) =>
        match object.asList with
        | none => (.error .wrongType, session.purge context.now store key)
        | some items =>
          match ListObject.popOne fromLeft items with
          | none => (.ok [], afterSave session (session.purge context.now store key) key [])
          | some (item, rest) =>
            (.ok [item], afterSave session (session.purge context.now store key) key rest) := by
  have command : popEnd session context fromLeft key =
      alone session (editList context key [] fun items =>
        match ListObject.popOne fromLeft items with
        | none => ([], [])
        | some (item, rest) => ([item], rest)) := by
    cases fromLeft with
    | false =>
      refine congrArg (fun edit => alone session (editList context key [] edit)) (funext ?_)
      exact rpop_one
    | true =>
      refine congrArg (fun edit => alone session (editList context key [] edit)) (funext ?_)
      exact lpop_one
  have load := loadObject_run session context store key
  rw [command, editList, alone_bind, alone_load]
  cases found : objectView context (store key) with
  | error error =>
    rw [found] at load
    rw [bind_error load]
  | ok loaded =>
    rw [found] at load
    rw [bind_ok load]
    cases loaded with
    | none => rfl
    | some object =>
      dsimp only
      rw [alone_bind, alone_asListMut]
      cases object.asList with
      | none => rfl
      | some items =>
        dsimp only
        rw [pure_bind, alone_bind, alone_save, bind_ok (saveList_run _ _ _ _ _)]
        cases ListObject.popOne fromLeft items <;> rfl

theorem pushEnd_run (toLeft : Bool) (key item : Bytes) (store : Store) :
    (pushEnd session context toLeft key item).run store =
      match objectView context (store key) with
      | .error error => (.error error, session.purge context.now store key)
      | .ok none => (.ok 1, afterSave session (session.purge context.now store key) key [item])
      | .ok (some object) =>
        match object.asList with
        | none => (.error .wrongType, session.purge context.now store key)
        | some items => (.ok (ListObject.pushOne toLeft item items).length,
            afterSave session (session.purge context.now store key) key
              (ListObject.pushOne toLeft item items)) := by
  have command : pushEnd session context toLeft key item =
      alone session (push context (ListObject.pushOne toLeft item) key) := by
    cases toLeft <;> rfl
  have load := loadObject_run session context store key
  rw [command, push, alone_bind, alone_load]
  cases found : objectView context (store key) with
  | error error =>
    rw [found] at load
    rw [bind_error load]
  | ok loaded =>
    rw [found] at load
    rw [bind_ok load]
    cases loaded with
    | none =>
      rw [alone_bind, alone_pure, pure_bind, alone_bind, alone_save,
        bind_ok (saveList_run _ _ _ _ _)]
      cases toLeft <;> rfl
    | some object =>
      dsimp only
      rw [alone_bind, alone_asListMut]
      cases object.asList with
      | none => rfl
      | some items =>
        rw [pure_bind, alone_bind, alone_save, bind_ok (saveList_run _ _ _ _ _)]
        rfl

theorem listItems_of_list {slot : Slot}
    (loaded : objectView context slot = .ok (some (.list items))) :
    listItems context slot = items := by
  rw [listItems, loaded]

variable (session context) in
theorem popEnd_cases (key : Bytes) (store : Store) : (listItems context (store key) = [] ∧
      ((∃ error, (popEnd session context fromLeft key).run store =
          (.error error, session.purge context.now store key)) ∨
        (popEnd session context fromLeft key).run store =
          (.ok [], session.purge context.now store key))) ∨
    (objectView context (store key) = .ok (some (.list [])) ∧
      (popEnd session context fromLeft key).run store =
        (.ok [], afterSave session (session.purge context.now store key) key [])) ∨
    (∃ items item rest, objectView context (store key) = .ok (some (.list items)) ∧
      ListObject.popOne fromLeft items = some (item, rest) ∧
      (popEnd session context fromLeft key).run store =
        (.ok [item], afterSave session (session.purge context.now store key) key rest)) := by
  rw [popEnd_run]
  cases loaded : objectView context (store key) with
  | error error => exact .inl ⟨by rw [listItems, loaded], .inl ⟨error, rfl⟩⟩
  | ok found =>
    rcases found with _ | ⟨members⟩ | ⟨items⟩ | ⟨fields⟩ | ⟨members⟩
    · exact .inl ⟨by rw [listItems, loaded], .inr rfl⟩
    · exact .inl ⟨by rw [listItems, loaded], .inl ⟨.wrongType, rfl⟩⟩
    · cases popped : ListObject.popOne fromLeft items with
      | none =>
        have empty : items = [] := by
          unfold ListObject.popOne at popped
          split at popped
          · split at popped
            · rfl
            · cases popped
          · split at popped
            · rename_i reversed
              exact reverse_eq_nil_iff.mp reversed
            · cases popped
        refine .inr (.inl ⟨by rw [empty], ?_⟩)
        simp only [GarnetObject.asList, popped]
      | some pair =>
        refine .inr (.inr ⟨items, pair.1, pair.2, rfl, popped, ?_⟩)
        simp only [GarnetObject.asList, popped]
    · exact .inl ⟨by rw [listItems, loaded], .inl ⟨.wrongType, rfl⟩⟩
    · exact .inl ⟨by rw [listItems, loaded], .inl ⟨.wrongType, rfl⟩⟩

variable (session context) in
theorem pushEnd_cases (toLeft : Bool) (key item : Bytes) (store : Store) :
    (¬Takes context (store key) ∧ listItems context (store key) = [] ∧
      ∃ error, (pushEnd session context toLeft key item).run store =
        (.error error, session.purge context.now store key)) ∨
    (ItemsFit (listItems context (store key)) ∧ (listItems context (store key)).length < 2 ^ 31 ∧
      (Takes context (store key) ↔ (listItems context (store key)).length + 1 < 2 ^ 31) ∧
      (session.purge context.now store key key).liveCollection = none ∧
      ∃ length, (pushEnd session context toLeft key item).run store =
        (.ok length, afterSave session (session.purge context.now store key) key
          (ListObject.pushOne toLeft item (listItems context (store key))))) := by
  rw [pushEnd_run]
  unfold Takes
  cases loaded : objectView context (store key) with
  | error error =>
    exact .inl ⟨fun impossible => impossible, by rw [listItems, loaded], error, rfl⟩
  | ok found =>
    rcases found with _ | ⟨members⟩ | ⟨items⟩ | ⟨fields⟩ | ⟨members⟩
    · have nothing : listItems context (store key) = [] := by rw [listItems, loaded]
      rw [nothing]
      refine .inr ⟨fun _ member => (by cases member), by decide, by simp,
        liveCollection_of_objectView loaded, 1, ?_⟩
      cases toLeft <;> rfl
    · exact .inl ⟨fun impossible => impossible, by rw [listItems, loaded], .wrongType, rfl⟩
    · obtain ⟨fit, short⟩ := fit_of_objectView loaded
      rw [listItems_of_list loaded]
      exact .inr ⟨fit, short, Iff.rfl, liveCollection_of_objectView loaded, _, rfl⟩
    · exact .inl ⟨fun impossible => impossible, by rw [listItems, loaded], .wrongType, rfl⟩
    · exact .inl ⟨fun impossible => impossible, by rw [listItems, loaded], .wrongType, rfl⟩

variable (session context) in
def TryConserves (call : MoveCall) (store : Store) : Prop :=
  call.Conserved context store (moveOrWait session context call store)

theorem listItems_purge (store : Store) (key other : Bytes) :
    listItems context (session.purge context.now store key other) =
      listItems context (store other) := by
  rw [listItems, objectView_purge, listItems]

variable {call : MoveCall}

theorem tryConserves_of_purge {reply : Option Bytes}
    (outcome : moveOrWait session context call store =
      (reply, session.purge context.now store call.source)) :
    TryConserves session context call store := by
  unfold TryConserves MoveCall.Conserved
  rw [outcome]
  simp only [MoveCall.elements, listItems_purge, logicalStore_purge]
  exact ⟨List.Perm.refl _, fun _ => ⟨trivial, trivial⟩⟩

variable {items rest : List Bytes}

variable (session) in
theorem listItems_popped (loaded : objectView context (store key) = .ok (some (.list items)))
    (kept : ∀ item ∈ rest, item ∈ items) (shorter : rest.length ≤ items.length) :
    listItems context (afterSave session (session.purge context.now store key) key rest key) =
      rest := by
  obtain ⟨fit, short⟩ := fit_of_objectView loaded
  refine listItems_afterSave (liveCollection_of_objectView loaded) ?_
    (Nat.lt_of_le_of_lt shorter short)
  exact fun item member => fit item (kept item member)

theorem listItems_popped_other (rest : List Bytes) (different : other ≠ key) :
    listItems context (afterSave session (session.purge context.now store key) key rest other) =
      listItems context (store other) := by
  rw [afterSave_other rest different, listItems_purge]

theorem takes_popped (loaded : objectView context (store key) = .ok (some (.list items)))
    (kept : ∀ item ∈ rest, item ∈ items) (shorter : rest.length + 1 = items.length) :
    Takes context (afterSave session (session.purge context.now store key) key rest key) := by
  obtain ⟨fit, short⟩ := fit_of_objectView loaded
  have restFit : ItemsFit rest := fun item member => fit item (kept item member)
  have restShort : rest.length < 2 ^ 31 := by omega
  rw [Takes, objectView_afterSave rest (liveCollection_of_objectView loaded)]
  cases rest with
  | nil => trivial
  | cons first others =>
    simp only [isEmpty_cons, Bool.false_eq_true, if_false,
      deserializeList_serializeList _ restFit restShort]
    omega

def pushReply (item : Bytes) : Except CommandError Nat → Option Bytes
  | .ok _ => some (writeBulkString item)
  | .error error => some (writeError (errorText error))

theorem moveOrWait_of_pop {store popped after : Store} {pushed : Except CommandError Nat}
    (pop : (popEnd session context call.fromLeft call.source).run store = (.ok [item], popped))
    (push : (pushEnd session context call.toLeft call.destination item).run popped =
      (pushed, after)) :
    moveOrWait session context call store = (pushReply item pushed, after) := by
  rw [moveOrWait, tryMove, popThenPush, bind_ok pop]
  cases pushed with
  | ok length =>
    rw [bind_ok push]
    rfl
  | error error =>
    rw [bind_error push]
    rfl

theorem bulk_not_error (item : Bytes) :
    ¬∃ text, some (writeBulkString item) = some (writeError text) := by
  rintro ⟨text, same⟩
  exact writeError_ne_writeBulkString text item (Option.some.inj same).symm

section

variable (loaded : objectView context (store call.source) = .ok (some (.list items)))
variable (perm : items.Perm (item :: rest))

include loaded perm

variable (session) in
theorem listItems_rest : (∀ other ∈ rest, other ∈ items) ∧ rest.length + 1 = items.length ∧
    listItems context (afterSave session (session.purge context.now store call.source) call.source
      rest call.source) = rest := by
  have kept : ∀ other ∈ rest, other ∈ items := fun other member =>
    perm.mem_iff.mpr (mem_cons_of_mem _ member)
  have length : rest.length + 1 = items.length := by rw [perm.length_eq, length_cons]
  exact ⟨kept, length, listItems_popped session loaded kept (by omega)⟩

variable (pop : (popEnd session context call.fromLeft call.source).run store =
  (.ok [item], afterSave session (session.purge context.now store call.source) call.source rest))

include pop

theorem tryConserves_same (same : call.source = call.destination) :
    TryConserves session context call store := by
  obtain ⟨kept, length, left⟩ := listItems_rest session loaded perm
  obtain ⟨fit, short⟩ := fit_of_objectView loaded
  rcases pushEnd_cases session context call.toLeft call.destination item
    (afterSave session (session.purge context.now store call.source) call.source rest) with
    ⟨refuses, -⟩ | ⟨-, -, -, absent, pushedLength, push⟩
  · rw [← same] at refuses
    exact absurd (takes_popped loaded kept length) refuses
  · have pushed := pushOne_perm call.toLeft item rest
    have outcome := moveOrWait_of_pop pop push
    rw [← same] at outcome absent
    rw [left] at outcome
    unfold TryConserves MoveCall.Conserved
    rw [outcome]
    refine ⟨?_, fun failed => absurd failed (bulk_not_error item)⟩
    simp only [MoveCall.elements, if_pos same, listItems_of_list loaded]
    rw [listItems_afterSave absent]
    · exact pushed.trans perm.symm
    · exact fun other member => fit other (perm.mem_iff.mpr (pushed.mem_iff.mp member))
    · rw [pushed.length_eq, length_cons, length]
      exact short

theorem tryConserves_iff_takes (different : call.source ≠ call.destination) :
    TryConserves session context call store ↔ Takes context (store call.destination) := by
  obtain ⟨kept, length, left⟩ := listItems_rest session loaded perm
  have view : objectView context (afterSave session
      (session.purge context.now store call.source) call.source rest call.destination) =
        objectView context (store call.destination) := by
    rw [afterSave_other rest different.symm, objectView_purge]
  generalize afterSave session (session.purge context.now store call.source) call.source rest =
    popped at pop left view
  have there : listItems context (popped call.destination) =
      listItems context (store call.destination) := by rw [listItems, view, listItems]
  have takes : Takes context (popped call.destination) ↔
      Takes context (store call.destination) := by
    rw [Takes, view, Takes]
  have before : call.elements context store =
      items ++ listItems context (store call.destination) := by
    rw [MoveCall.elements, if_neg different, listItems_of_list loaded]
  rcases pushEnd_cases session context call.toLeft call.destination item popped with
    ⟨refuses, nothing, error, push⟩ | ⟨fit, short, room, absent, pushedLength, push⟩
  · refine iff_of_false ?_ fun taken => refuses (takes.mpr taken)
    rintro ⟨same, -⟩
    rw [moveOrWait_of_pop pop push, before, MoveCall.elements, if_neg different, listItems_purge,
      listItems_purge, left, nothing, ← there, nothing] at same
    have lengths := same.length_eq
    simp only [length_append, length_nil] at lengths
    omega
  · rw [← takes, room]
    have source : ∀ list, listItems context (afterSave session
        (session.purge context.now popped call.destination) call.destination list call.source) =
          rest := by
      intro list
      rw [listItems_popped_other list different, left]
    have pushed := pushOne_perm call.toLeft item (listItems context (popped call.destination))
    by_cases roomy : (listItems context (popped call.destination)).length + 1 < 2 ^ 31
    · refine iff_of_true ?_ roomy
      unfold TryConserves MoveCall.Conserved
      rw [moveOrWait_of_pop pop push]
      refine ⟨?_, fun failed => absurd failed (bulk_not_error item)⟩
      rw [before, MoveCall.elements, if_neg different, source, listItems_afterSave absent, ← there]
      · refine (pushed.append_left rest).trans (perm_middle.trans ?_)
        exact (perm.symm.append_right _)
      · intro other member
        rcases mem_cons.mp (pushed.mem_iff.mp member) with moved | stayed
        · rw [moved]
          exact (fit_of_objectView loaded).1 item (perm.mem_iff.mpr mem_cons_self)
        · exact fit other stayed
      · rw [pushed.length_eq, length_cons]
        exact roomy
    · refine iff_of_false ?_ roomy
      rintro ⟨same, -⟩
      have full : (ListObject.pushOne call.toLeft item
          (listItems context (popped call.destination))).length = 2 ^ 31 := by
        rw [pushed.length_eq, length_cons]
        omega
      have lost : listItems context (afterSave session
          (session.purge context.now popped call.destination) call.destination
          (ListObject.pushOne call.toLeft item (listItems context (popped call.destination)))
          call.destination) = [] := by
        rw [listItems, objectView_afterSave _ absent, deserializeList_serializeList_full _ full]
        cases (ListObject.pushOne call.toLeft item
          (listItems context (popped call.destination))).isEmpty <;> rfl
      rw [moveOrWait_of_pop pop push, before, MoveCall.elements, if_neg different, source, lost]
        at same
      have lengths := same.length_eq
      simp only [length_append, length_nil] at lengths
      omega

end

theorem tryConserves_iff (call : MoveCall) (store : Store) :
    TryConserves session context call store ↔ call.Safe context store := by
  rcases popEnd_cases session context call.fromLeft call.source store with
    ⟨nothing, ⟨error, pop⟩ | pop⟩ | ⟨loaded, pop⟩ | ⟨items, item, rest, loaded, popped, pop⟩
  · have outcome : moveOrWait session context call store =
        (some (writeError (errorText error)), session.purge context.now store call.source) := by
      rw [moveOrWait, tryMove, popThenPush, bind_error pop]
    exact iff_of_true (tryConserves_of_purge outcome) (.inl nothing)
  · have outcome : moveOrWait session context call store =
        (none, session.purge context.now store call.source) := by
      rw [moveOrWait, tryMove, popThenPush, bind_ok pop]
      rfl
    exact iff_of_true (tryConserves_of_purge outcome) (.inl nothing)
  · refine iff_of_true ?_ (.inl (listItems_of_list loaded))
    have outcome : moveOrWait session context call store = (none,
        afterSave session (session.purge context.now store call.source) call.source []) := by
      rw [moveOrWait, tryMove, popThenPush, bind_ok pop]
      rfl
    have source := listItems_popped session loaded (fun _ member => member) (Nat.le_refl _)
    unfold TryConserves MoveCall.Conserved
    rw [outcome]
    refine ⟨?_, fun ⟨_, impossible⟩ => by cases impossible⟩
    simp only [MoveCall.elements, source, listItems_of_list loaded]
    split
    · exact List.Perm.refl _
    · rename_i different
      rw [listItems_popped_other _ (Ne.symm different)]
  · have perm := popOne_perm popped
    have nonempty : listItems context (store call.source) ≠ [] := by
      rw [listItems_of_list loaded]
      rintro rfl
      exact not_perm_nil_cons _ _ perm
    by_cases same : call.source = call.destination
    · exact iff_of_true (tryConserves_same loaded perm pop same) (.inr (.inl same))
    · rw [tryConserves_iff_takes loaded perm pop same, MoveCall.Safe]
      simp only [nonempty, same, false_or]

/-- A step of BLMOVE or BRPOPLPUSH keeps the elements of its lists, and both keys when it fails,
exactly when its move is safe. -/
theorem conserves_iff (session : StoreSession) (context : DecodeContext)
    (timeoutIsNegative : Bytes → Option Bool) (step : MoveStep) (store : Store) :
    Conserves session context timeoutIsNegative step store ↔
      ∀ call, step.tries timeoutIsNegative = some call → call.Safe context store := by
  unfold Conserves MoveStep.perform
  cases step with
  | blmove args | brpoplpush args =>
    simp only [MoveStep.call, MoveStep.tries]
    split
    next failed => simp [failed, Except.toOption]
    next call parsed =>
      simp only [parsed, Except.toOption, Option.some.injEq, forall_eq']
      exact tryConserves_iff call store
  | wake call wakeup =>
    rcases wakeup with _ | _ | _ | ⟨_ | item⟩ | _
    case keyFound.none =>
      simp only [MoveStep.call, MoveStep.tries, Option.some.injEq, forall_eq']
      exact tryConserves_iff call store
    -- Every other wakeup only answers.
    all_goals
      exact iff_of_true ⟨List.Perm.refl _, fun _ => ⟨rfl, rfl⟩⟩
        (fun _ impossible => by cases impossible)

/-- Where the destination is a string, BLMOVE answers with an error and the element is gone. -/
theorem blmove_wrongType_loses :
    let store : Store := fun key =>
      if key = bytesOf "s" then ⟨some ⟨encodeList [bytesOf "a"], .mutable⟩, none, none⟩
      else if key = bytesOf "d" then ⟨some ⟨bytesOf "text", .mutable⟩, none, none⟩
      else Slot.empty
    let step := MoveStep.blmove
      [bytesOf "s", bytesOf "d", bytesOf "LEFT", bytesOf "LEFT", bytesOf "0"]
    let outcome := step.perform .reference ⟨0, fun _ => false⟩ (fun _ => some false) store
    outcome.1 = some (writeError wrongType) ∧
      listItems ⟨0, fun _ => false⟩ (store (bytesOf "s")) = [bytesOf "a"] ∧
      listItems ⟨0, fun _ => false⟩ (outcome.2 (bytesOf "s")) = [] ∧
      listItems ⟨0, fun _ => false⟩ (outcome.2 (bytesOf "d")) = [] :=
  ⟨rfl, rfl, rfl, rfl⟩

theorem listItems_moveOrWait_other (store : Store)
    (notSource : key ≠ call.source) (notDestination : key ≠ call.destination) :
    listItems context ((moveOrWait session context call store).2 key) =
      listItems context (store key) := by
  rcases popEnd_cases session context call.fromLeft call.source store with
    ⟨-, ⟨error, pop⟩ | pop⟩ | ⟨-, pop⟩ | ⟨items, item, rest, -, -, pop⟩
  · rw [moveOrWait, tryMove, popThenPush, bind_error pop]
    exact listItems_purge store call.source key
  · rw [moveOrWait, tryMove, popThenPush, bind_ok pop]
    exact listItems_purge store call.source key
  · rw [moveOrWait, tryMove, popThenPush, bind_ok pop]
    exact listItems_popped_other [] notSource
  · have popped : listItems context (afterSave session (session.purge context.now store call.source)
        call.source rest key) = listItems context (store key) :=
      listItems_popped_other rest notSource
    rcases pushEnd_cases session context call.toLeft call.destination item
      (afterSave session (session.purge context.now store call.source) call.source rest) with
      ⟨-, -, error, push⟩ | ⟨-, -, -, -, length, push⟩
    · rw [moveOrWait_of_pop pop push, listItems_purge, popped]
    · rw [moveOrWait_of_pop pop push, listItems_popped_other _ notDestination, popped]

variable (context) in
def totalItems (keys : Finset Bytes) (store : Store) : Multiset Bytes :=
  ∑ key ∈ keys, (listItems context (store key) : Multiset Bytes)

variable {keys : Finset Bytes}

/-- A safe try keeps the elements of every set of keys that contains its two. -/
theorem totalItems_moveOrWait (source : call.source ∈ keys) (destination : call.destination ∈ keys)
    (safe : call.Safe context store) :
    totalItems context keys (moveOrWait session context call store).2 =
      totalItems context keys store := by
  have perm : (call.elements context (moveOrWait session context call store).2).Perm
      (call.elements context store) := ((tryConserves_iff call store).mpr safe).1
  unfold MoveCall.elements at perm
  unfold totalItems
  by_cases same : call.source = call.destination
  · rw [if_pos same, if_pos same] at perm
    refine sum_congr rfl fun key _ => ?_
    by_cases here : key = call.source
    · rw [here]
      exact Multiset.coe_eq_coe.mpr perm
    · rw [listItems_moveOrWait_other store here (same ▸ here)]
  · rw [if_neg same, if_neg same] at perm
    have inside : call.destination ∈ keys.erase call.source :=
      mem_erase.mpr ⟨Ne.symm same, destination⟩
    have both := Multiset.coe_eq_coe.mpr perm
    rw [← Multiset.coe_add, ← Multiset.coe_add] at both
    rw [← add_sum_erase _ _ source, ← add_sum_erase _ _ inside, ← add_sum_erase keys _ source,
      ← add_sum_erase _ _ inside, ← add_assoc, ← add_assoc, both]
    congr 1
    refine sum_congr rfl fun key member => ?_
    rw [mem_erase, mem_erase] at member
    rw [listItems_moveOrWait_other store member.2.1 member.1]

variable (session context) in
def performAll : List MoveStep → Store → Store
  | [], store => store
  | step :: steps, store =>
    performAll steps (step.perform session context timeoutIsNegative store).2

variable (session context) in
def AllSafe : List MoveStep → Store → Prop
  | [], _ => True
  | step :: steps, store =>
    (∀ call, step.tries timeoutIsNegative = some call → call.Safe context store) ∧
      AllSafe steps (step.perform session context timeoutIsNegative store).2

theorem perform_eq (store : Store) : (step.perform session context timeoutIsNegative store).2 =
      match step.tries timeoutIsNegative with
      | some call => (moveOrWait session context call store).2
      | none => store := by
  unfold MoveStep.perform
  cases step with
  | blmove args =>
    simp only [MoveStep.call, MoveStep.tries]
    cases parseBlmove timeoutIsNegative args <;> rfl
  | brpoplpush args =>
    simp only [MoveStep.call, MoveStep.tries]
    cases parseBrpoplpush timeoutIsNegative args <;> rfl
  | wake call wakeup => rcases wakeup with _ | _ | _ | ⟨_ | item⟩ | _ <;> rfl

/-- No order of arrivals and wake-ups loses or duplicates an element if every move is safe. -/
theorem totalItems_performAll (steps : List MoveStep) (store : Store)
    (inside : ∀ step ∈ steps, ∀ call, step.tries timeoutIsNegative = some call →
      call.source ∈ keys ∧ call.destination ∈ keys)
    (safe : AllSafe session context timeoutIsNegative steps store) :
    totalItems context keys (performAll session context timeoutIsNegative steps store) =
      totalItems context keys store := by
  induction steps generalizing store with
  | nil => rfl
  | cons step steps ih =>
    have rest := ih _ (fun other member => inside other (mem_cons_of_mem _ member)) safe.2
    rw [performAll, rest, perform_eq]
    cases tried : step.tries timeoutIsNegative with
    | none => rfl
    | some call =>
      obtain ⟨source, destination⟩ := inside step mem_cons_self call tried
      exact totalItems_moveOrWait source destination (safe.1 call tried)

theorem totalItems_performAll_there_and_back :
    let context : DecodeContext := ⟨0, fun _ => false⟩
    let store : Store := fun key =>
      if key = [115] then ⟨some ⟨encodeList [[97]], .mutable⟩, none, none⟩ else Slot.empty
    totalItems context {[115], [100]} (performAll .reference context (fun _ => some false)
      [.brpoplpush [[115], [100], [48]], .brpoplpush [[100], [115], [48]]] store) =
        totalItems context {[115], [100]} store := by
  refine totalItems_performAll _ _ _ (fun step member call tried => ?_)
    ⟨fun call tried => ?_, fun call tried => ?_, trivial⟩
  · simp only [List.mem_cons, List.not_mem_nil, or_false] at member
    rcases member with rfl | rfl <;> cases tried <;> decide
  · cases tried
    exact .inr (.inr trivial)
  · cases tried
    exact .inr (.inr trivial)

end

end Wedb.Server
