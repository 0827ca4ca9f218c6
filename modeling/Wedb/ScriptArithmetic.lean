/-
GET and the increments of the script interface against the commands. The script interface reads only
records in memory, looks at no time to live, trims no white space and negates the step of DECRBY
without a check. The command keeps a time to live where it edits the record in place.

Both are reduced to the sum they store, if any. The main result says in terms of the record, where
it lies, its text, the step and the time to live when the two agree.
-/

import Wedb.FastPath
import Wedb.ScriptApi

namespace Wedb.Server

open Kv Object Redis Resp Fallible Option Function

/-- A call of the increment family with a step in the range of an `i64`. -/
inductive Increment
  | incr
  | decr
  | incrby (step : Int64)
  | decrby (step : Int64)
  deriving DecidableEq

namespace Increment

def amount : Increment → Int
  | .incr => 1
  | .decr => -1
  | .incrby step => step.toInt
  | .decrby step => -step.toInt

def call (key : Bytes) : Increment → ScriptCall
  | .incr => ⟨bytesOf "INCR", [key]⟩
  | .decr => ⟨bytesOf "DECR", [key]⟩
  | .incrby step => ⟨bytesOf "INCRBY", [key, formatInt step.toInt]⟩
  | .decrby step => ⟨bytesOf "DECRBY", [key, formatInt step.toInt]⟩

def scriptDelta : Increment → Int
  | .decrby step => if step.toInt = -2 ^ 63 then step.toInt else -step.toInt
  | increment => increment.amount

/-- What the dispatcher adds: the negation is checked. -/
def delta : Increment → Option Int
  | .decrby step => asInt64 (-step.toInt)
  | increment => some increment.amount

def execute (session : StoreSession) (context : DecodeContext) (key : Bytes)
    (increment : Increment) : Command Int :=
  match increment.delta with
  | none => .fail .notInteger
  | some delta => Redis.incrby session context key delta

theorem asInt64_toInt (step : Int64) : asInt64 step.toInt = some step.toInt :=
  if_pos ⟨step.le_toInt, step.toInt_lt⟩

theorem delta_eq_some {increment : Increment} {delta : Int} (known : increment.delta = some delta) :
    delta = increment.amount ∧ asInt64 delta = some delta := by
  cases increment with
  | incr => cases known; exact ⟨rfl, rfl⟩
  | decr => cases known; exact ⟨rfl, rfl⟩
  | incrby step => cases known; exact ⟨rfl, asInt64_toInt step⟩
  | decrby step =>
    obtain ⟨range, rfl⟩ := asInt64_eq_some_iff.mp known
    exact ⟨rfl, if_pos range⟩

/-- Only the negation of the least step differs. -/
theorem delta_cases (increment : Increment) :
    increment = .decrby .minValue ∧ increment.delta = none ∧ increment.scriptDelta = -2 ^ 63 ∨
      increment ≠ .decrby .minValue ∧ increment.delta = some increment.amount ∧
        increment.scriptDelta = increment.amount := by
  cases increment with
  | incr => exact .inr ⟨nofun, rfl, rfl⟩
  | decr => exact .inr ⟨nofun, rfl, rfl⟩
  | incrby step => exact .inr ⟨nofun, rfl, rfl⟩
  | decrby step =>
    by_cases least : step = .minValue
    · subst least
      exact .inl ⟨rfl, rfl, rfl⟩
    · have above : step.toInt ≠ -2 ^ 63 := fun same => least (Int64.toInt.inj same)
      have lower := step.le_toInt
      have upper := step.toInt_lt
      refine .inr ⟨fun same => least (Increment.decrby.inj same), if_pos ?_, if_neg above⟩
      omega

end Increment

section Read

variable (context : DecodeContext)

def clientInteger (slot : Slot) : Option Int :=
  match stringView context slot with
  | .ok none => some 0
  | .ok (some bytes) => parseStoredInteger bytes
  | .error _ => none

def scriptInteger (slot : Slot) : Option Int :=
  (residentString context slot).bind fun bytes =>
    if utf8Valid bytes then parseInt64 bytes else none

def Increment.commandSum (increment : Increment) (slot : Slot) : Option Int :=
  increment.delta.bind fun delta => (clientInteger context slot).bind fun current =>
    asInt64 (current + delta)

def scriptSum (session : StoreSession) (store : Store) (key : Bytes) (delta : Int) : Option Int :=
  ((scriptInteger context (store key)).bind fun current => asInt64 (current + delta)).filter
    fun new => (session.tryUpsertSync store key (formatInt new)).isSome

/-- An increment writes into the record: the text has its length or fits into its slack. -/
def editsInPlace (session : StoreSession) (store : Store) (key : Bytes) (delta : Int) : Bool :=
  (mutableBytes (store key)).any fun bytes => (incremented delta bytes).any fun new =>
    decide ((formatInt new).length = bytes.length) ||
      (session.tryModifyWithSlack store key (formatInt new)).1

/-- Clients see neither a string nor a collection. -/
def Missing (now : Nat) (store : Store) (key : Bytes) : Prop :=
  (logicalStore now store key).value = none ∧ (logicalStore now store key).collection = none

def stringState (now : Nat) (store : Store) (key : Bytes) : Option Bytes × Option Nat :=
  ((logicalStore now store key).value, (logicalStore now store key).expireAt)

def Increment.keptTtl (increment : Increment) (session : StoreSession) (store : Store)
    (key : Bytes) : Option Nat :=
  if (store key).expired context.now = false ∧
      increment.delta.any (editsInPlace session store key) = true then
    (store key).ttl.map Record.value
  else none

end Read

section Owed

variable (session : StoreSession) (context : DecodeContext) (store : Store) (key : Bytes)

def GetYieldsNil : Prop :=
  Missing context.now store key →
    (scriptApiCall session context ⟨bytesOf "GET", [key]⟩ store).1 = .ok (.bulk none)

variable (increment : Increment)

/-- An increment stores and returns the exact sum, or fails and changes nothing. -/
def Increment.Exact : Prop :=
  let result := scriptApiCall session context (increment.call key) store
  (∃ current, clientInteger context (store key) = some current ∧
    asInt64 (current + increment.amount) = some (current + increment.amount) ∧
    result.1 = .ok (.integer (current + increment.amount)) ∧
    (logicalStore context.now result.2 key).value = some (formatInt (current + increment.amount))) ∨
  ((∃ text, result.1 = .error text) ∧
    logicalStore context.now result.2 = logicalStore context.now store)

/-- Script and command answer alike and leave the same string. -/
def Increment.SameOutcome : Prop :=
  let result := scriptApiCall session context (increment.call key) store
  let command := (increment.execute session context key).run store
  ((∃ new, result.1 = .ok (.integer new) ∧ command.1 = .ok new) ∨
    ((∃ text, result.1 = .error text) ∧ ∃ error, command.1 = .error error)) ∧
  stringState context.now result.2 = stringState context.now command.2

def Increment.SumsAgree : Prop :=
  scriptSum context session store key increment.scriptDelta =
      increment.commandSum context (store key) ∧
    ((increment.commandSum context (store key)).isSome →
      increment.keptTtl context session store key = none)

/-- The record is in memory, and its text is an integer without white space around it. -/
def PlainInteger (slot : Slot) (current : Int) : Prop :=
  ∃ record ∈ slot.data, record.region.resident = true ∧ parseInt64 record.value = some current

/-- The engine takes the text of a sum without waiting. -/
def Accepts (new : Int) : Prop := (session.tryUpsertSync store key (formatInt new)).isSome = true

/-- The states in which an increment of a script is right. The least step must not meet an integer
that hides the wrong sign. A key that has expired must hold a plain zero. On a live key, if the sum
of the command is in range, the record must be plain and no time to live may be lost. -/
def Increment.Agreeing : Prop :=
  if increment = .decrby .minValue then
    ∀ current, PlainInteger (store key) current → 0 ≤ current →
      ¬Accepts session store key (current - 2 ^ 63)
  else if (store key).expired context.now = true then
    PlainInteger (store key) 0 ∧ Accepts session store key increment.amount
  else
    ∀ current, clientInteger context (store key) = some current →
      IsInt64 (current + increment.amount) →
      PlainInteger (store key) current ∧ Accepts session store key (current + increment.amount) ∧
        ((store key).ttl = none ∨ editsInPlace session store key increment.amount = false)

end Owed

section Command

variable {session : StoreSession} {context : DecodeContext} {store : Store} {key : Bytes}

def putText (store : Store) (key : Bytes) (new : Int) (ttl : Option (Record Nat)) : Store :=
  Function.update store key { store key with data := some ⟨formatInt new, .mutable⟩, ttl := ttl }

section

variable (live : (store key).expired context.now = false)

include live

theorem clientInteger_of_parsed {bytes : Bytes} {current : Int}
    (found : (store key).bytes = some bytes)
    (parsed : parseStoredInteger bytes = some current) :
    clientInteger context (store key) = some current := by
  have plain : looksLikeObject context bytes = false := looksLikeObject_integer parsed
  simp only [clientInteger, stringView, live, found, plain, Bool.false_eq_true, if_false, parsed]

def Increments (context : DecodeContext) (store : Store) (key : Bytes) (delta : Int)
    (ttl : Option (Record Nat)) (result : Except CommandError Int × Store) : Prop :=
  match (clientInteger context (store key)).bind fun current => asInt64 (current + delta) with
  | some new => result = (.ok new, putText store key new ttl)
  | none => ∃ error, result = (.error error, store)

theorem incrbySlow_live (delta : Int) :
    Increments context store key delta none ((incrbySlow session context key delta).run store) := by
  have read := readString_live session context live
  have added : ∀ current, clientInteger context (store key) = some current →
      Increments context store key delta none (Fallible.run (match asInt64 (current + delta) with
        | none => .fail .notInteger
        | some new => do
          .modify (session.upsert · key (formatInt new))
          return new : Command Int) store) := by
    intro current known
    rw [Increments, known, bind_some]
    cases asInt64 (current + delta) with
    | none => exact ⟨_, rfl⟩
    | some new =>
      rw [bind_run, modify_run, session.upsert_eq]
      rfl
  unfold incrbySlow
  cases view : stringView context (store key) with
  | error error =>
    rw [view] at read
    rw [bind_error read, Increments, clientInteger, view]
    exact ⟨error, rfl⟩
  | ok string =>
    rw [view] at read
    rw [bind_ok read]
    cases string with
    | none => exact added 0 (by rw [clientInteger, view])
    | some bytes =>
      cases parsed : parseStoredInteger bytes with
      | none =>
        rw [Increments, clientInteger, view]
        dsimp only
        rw [parsed]
        exact ⟨_, rfl⟩
      | some current =>
        simp only [parsed]
        exact added current (by rw [clientInteger, view]; exact parsed)

theorem incrby_live (delta : Int) :
    Increments context store key delta
      (if editsInPlace session store key delta = true then (store key).ttl else none)
      ((Redis.incrby session context key delta).run store) := by
  have expired := expiredByTag_run session context store key
  rw [live, session.purge_of_live live] at expired
  rw [Redis.incrby, bind_ok expired]
  simp only [Bool.false_eq_true, if_false]
  cases found : mutableBytes (store key) with
  | none =>
    have outside : ∀ bytes, (store key).data ≠ some ⟨bytes, .mutable⟩ := by
      intro bytes data
      rw [mutableBytes, data] at found
      cases found
    rw [bind_ok (total_ok
      (session.tryModifyInPlace_skipped store key _ outside)), editsInPlace, found]
    exact incrbySlow_live live delta
  | some bytes =>
    have inPlace := session.tryModifyInPlace_mutable store key (incrementEdit delta) bytes
      (data_of_mutableBytes found)
    have present : (store key).bytes = some bytes := by
      rw [Slot.bytes, data_of_mutableBytes found]
      rfl
    rw [editsInPlace, found, any_some]
    cases sum : incremented delta bytes with
    | none =>
      rw [incrementEdit, sum, bind_none] at inPlace
      rw [bind_ok (total_ok inPlace)]
      simp only [sum]
      exact incrbySlow_live live delta
    | some new =>
      obtain ⟨current, parsed, fits⟩ := bind_eq_some_iff.mp sum
      have known := clientInteger_of_parsed live present parsed
      rw [incrementEdit, sum, bind_some] at inPlace
      rw [any_some]
      by_cases sameLength : (formatInt new).length = bytes.length
      · rw [if_pos sameLength] at inPlace
        rw [bind_ok (total_ok inPlace)]
        simp only [sum, sameLength, decide_true, Bool.true_or, if_true]
        rw [Increments, known, bind_some, fits]
        rfl
      · rw [if_neg sameLength] at inPlace
        rw [bind_ok (total_ok inPlace)]
        simp only [sum, sameLength, decide_false, Bool.false_or]
        rcases session.tryModifyWithSlack_eq store key (formatInt new) with refused | ⟨-, written⟩
        · rw [bind_ok (total_ok refused), refused]
          exact incrbySlow_live live delta
        · rw [bind_ok (total_ok written), written, Increments, known, bind_some, fits]
          rfl

end

theorem stringState_putText (now : Nat) (store : Store) (key : Bytes) (new : Int)
    {ttl : Option (Record Nat)}
    (live : ttl.any (fun record => decide (record.value ≤ now)) = false) :
    stringState now (putText store key new ttl) =
      update (stringState now store) key (some (formatInt new), ttl.map Record.value) := by
  funext other
  obtain rfl | same := eq_or_ne other key
  · rw [update_self, stringState, logicalStore_live]
    · rw [putText, update_self]
      rfl
    · rw [putText, update_self]
      exact live
  · rw [update_of_ne same, stringState, stringState, logicalStore, logicalStore, putText,
      update_of_ne same]

theorem stringState_purge (now : Nat) (store : Store) (key : Bytes) :
    stringState now (session.purge now store key) = stringState now store := by
  funext other
  rw [stringState, stringState, logicalStore_purge]

theorem execute_run (increment : Increment) :
    (∃ new after, increment.commandSum context (store key) = some new ∧
      (increment.execute session context key).run store = (.ok new, after) ∧
      stringState context.now after = update (stringState context.now store) key
        (some (formatInt new), increment.keptTtl context session store key)) ∨
    (increment.commandSum context (store key) = none ∧ ∃ error after,
      (increment.execute session context key).run store = (.error error, after) ∧
      logicalStore context.now after = logicalStore context.now store) := by
  unfold Increment.execute Increment.commandSum Increment.keptTtl
  cases known : increment.delta with
  | none => exact .inr ⟨rfl, _, _, rfl, rfl⟩
  | some delta =>
    rw [bind_some, any_some]
    cases expired : (store key).expired context.now with
    | true =>
      have sum : (clientInteger context (store key)).bind (fun current =>
          asInt64 (current + delta)) = some delta := by
        rw [clientInteger, stringView, expired, if_pos rfl]
        show asInt64 (0 + delta) = some delta
        rw [Int.zero_add]
        exact (Increment.delta_eq_some known).2
      refine .inl ⟨delta, _, sum, incrby_expired expired, ?_⟩
      have text : session.upsert (session.purge context.now store key) key (formatInt delta) =
          putText (session.purge context.now store key) key delta none := session.upsert_eq _ _ _
      rw [text, stringState_putText _ _ _ _ rfl, stringState_purge]
      rfl
    | false =>
      have result : Increments context store key delta
          (if editsInPlace session store key delta = true then (store key).ttl else none)
          ((Redis.incrby session context key delta).run store) := incrby_live expired delta
      unfold Increments at result
      cases sum : (clientInteger context (store key)).bind fun current =>
          asInt64 (current + delta) with
      | none =>
        rw [sum] at result
        obtain ⟨error, failed⟩ := result
        exact .inr ⟨rfl, error, store, failed, rfl⟩
      | some new =>
        rw [sum] at result
        refine .inl ⟨new, _, rfl, result, ?_⟩
        cases editsInPlace session store key delta with
        | true =>
          rw [if_pos rfl, if_pos ⟨rfl, rfl⟩]
          exact stringState_putText _ _ _ _ expired
        | false =>
          rw [if_neg Bool.false_ne_true, if_neg (fun kept => Bool.false_ne_true kept.2)]
          exact stringState_putText _ _ _ _ rfl

end Command

section Script

variable {session : StoreSession} {context : DecodeContext} {store : Store} {key : Bytes}

theorem scriptApiCall_get (store : Store) (key : Bytes) :
    scriptApiCall session context ⟨bytesOf "GET", [key]⟩ store =
      (match tryReadStringInMemory session context store key with
      | .ok (some value) => (.ok (.bulk value), store)
      | _ => (.ok (.error errNotResident), store)) := rfl

theorem scriptApiCall_get_ne_nil (store : Store) (key : Bytes) :
    (scriptApiCall session context ⟨bytesOf "GET", [key]⟩ store).1 ≠ .ok (.bulk none) := by
  rw [scriptApiCall_get]
  rcases tryReadStringInMemory_cases store key with ⟨bytes, -, read⟩ | ⟨-, read | read⟩ <;>
    rw [read] <;> rintro ⟨⟩

theorem incrDecr_cases {cmd : RespCommand} {rest : List Bytes} {delta : Int}
    (known : scriptIncrement cmd rest = some delta) :
    (∃ new, scriptSum context session store key delta = some new ∧
      incrDecr session context cmd (key :: rest) store =
        (.ok (.integer new), putText store key new none)) ∨
    (scriptSum context session store key delta = none ∧ ∃ text,
      incrDecr session context cmd (key :: rest) store = (.error text, store)) := by
  unfold incrDecr scriptSum scriptInteger
  dsimp only
  rw [known]
  rcases tryReadStringInMemory_cases store key with ⟨bytes, found, read⟩ | ⟨none, read⟩
  · dsimp only
    rw [read, found, bind_some]
    dsimp only [elim_some]
    cases (if utf8Valid bytes = true then parseInt64 bytes else none) with
    | none => exact .inr ⟨rfl, _, rfl⟩
    | some current =>
      dsimp only
      rw [bind_some]
      cases asInt64 (current + delta) with
      | none => exact .inr ⟨rfl, _, rfl⟩
      | some new =>
        dsimp only
        cases written : session.tryUpsertSync store key (formatInt new) with
        | none => exact .inr ⟨filter_some_neg (by rw [written]; rfl), _, rfl⟩
        | some after =>
          have text : after = putText store key new none :=
            (session.tryUpsertSync_eq _ _ _ _ written).trans (session.upsert_eq _ _ _)
          exact .inl ⟨new, filter_some_pos (by rw [written]; rfl), by rw [text]⟩
  · rw [none]
    refine .inr ⟨rfl, errNotResident, ?_⟩
    rcases read with read | read <;> dsimp only <;> rw [read]

theorem scriptApiCall_increment (increment : Increment) :
    (∃ new, scriptSum context session store key increment.scriptDelta = some new ∧
      scriptApiCall session context (increment.call key) store =
        (.ok (.integer new), putText store key new none)) ∨
    (scriptSum context session store key increment.scriptDelta = none ∧ ∃ text,
      scriptApiCall session context (increment.call key) store = (.error text, store)) := by
  have read : ∀ step : Int64, utf8Valid (formatInt step.toInt) ∧
      parseInt64 (formatInt step.toInt) = some step.toInt := fun step =>
    ⟨utf8Valid_plain (all_isPlain_formatInt _),
      (parseInt64_formatInt _).trans (Increment.asInt64_toInt step)⟩
  have called : ∃ cmd rest, scriptApiCall session context (increment.call key) store =
      incrDecr session context cmd (key :: rest) store ∧
      scriptIncrement cmd rest = some increment.scriptDelta := by
    cases increment with
    | incr => exact ⟨.incr, [], rfl, rfl⟩
    | decr => exact ⟨.decr, [], rfl, rfl⟩
    | incrby step =>
      refine ⟨.incrby, [formatInt step.toInt], rfl, ?_⟩
      rw [scriptIncrement, (read step).1, if_pos rfl, (read step).2]
      rfl
    | decrby step =>
      refine ⟨.decrby, [formatInt step.toInt], rfl, ?_⟩
      rw [scriptIncrement, (read step).1, if_pos rfl, (read step).2]
      rfl
  obtain ⟨cmd, rest, run, known⟩ := called
  rw [run]
  exact incrDecr_cases known

end Script

section Comparison

variable {session : StoreSession} {context : DecodeContext} {store : Store} {key : Bytes}

theorem Increment.commandSum_exact {increment : Increment} {slot : Slot} {new : Int}
    (sum : increment.commandSum context slot = some new) :
    ∃ current, clientInteger context slot = some current ∧ new = current + increment.amount ∧
      asInt64 new = some new := by
  obtain ⟨delta, known, sum⟩ := bind_eq_some_iff.mp sum
  obtain ⟨current, read, fits⟩ := bind_eq_some_iff.mp sum
  obtain ⟨range, rfl⟩ := asInt64_eq_some_iff.mp fits
  exact ⟨current, read, by rw [(Increment.delta_eq_some known).1], if_pos range⟩

theorem scriptInteger_eq_some {slot : Slot} {current : Int} :
    scriptInteger context slot = some current ↔ PlainInteger slot current := by
  unfold scriptInteger residentString PlainInteger
  cases slot.data with
  | none => exact iff_of_false nofun fun ⟨_, member, _⟩ => nomatch member
  | some record =>
    simp only [mem_some_iff, exists_eq_left']
    constructor
    · intro read
      obtain ⟨bytes, found, parsed⟩ := bind_eq_some_iff.mp read
      split_ifs at found with resident
      cases found
      split_ifs at parsed
      exact ⟨((Bool.and_eq_true _ _).mp resident).1, parsed⟩
    · rintro ⟨resident, parsed⟩
      rw [looksLikeObject_integer (parseStoredInteger_of_parseInt64 parsed), resident]
      exact (if_pos (utf8Valid_plain (all_isPlain_of_parseInt64 parsed))).trans parsed

theorem scriptSum_eq_some {delta new : Int} :
    scriptSum context session store key delta = some new ↔ ∃ current,
      PlainInteger (store key) current ∧ asInt64 (current + delta) = some new ∧
        Accepts session store key new := by
  simp only [scriptSum, filter_eq_some_iff, bind_eq_some_iff, scriptInteger_eq_some, Accepts]
  exact ⟨fun ⟨⟨current, plain, fits⟩, taken⟩ => ⟨current, plain, fits, taken⟩,
    fun ⟨current, plain, fits, taken⟩ => ⟨⟨current, plain, fits⟩, taken⟩⟩

theorem clientInteger_of_plain {current : Int} (live : (store key).expired context.now = false)
    (plain : PlainInteger (store key) current) :
    clientInteger context (store key) = some current := by
  obtain ⟨record, found, -, parsed⟩ := plain
  exact clientInteger_of_parsed live (congrArg (Option.map Record.value) found)
    (parseStoredInteger_of_parseInt64 parsed)

theorem Increment.sumsAgree_iff (increment : Increment) :
    increment.SumsAgree session context store key ↔
      increment.Agreeing session context store key := by
  unfold SumsAgree Agreeing commandSum keptTtl
  rcases increment.delta_cases with ⟨least, checked, scripted⟩ | ⟨other, checked, scripted⟩
  · -- the command fails, so the script has to
    rw [if_pos least, checked, scripted, bind_none, eq_none_iff_forall_ne_some]
    simp only [isSome_none, Bool.false_eq_true, false_implies, and_true, ne_eq, scriptSum_eq_some,
      asInt64_eq_some_iff]
    constructor
    · intro fails current plain positive taken
      obtain ⟨record, -, -, parsed⟩ := id plain
      have small := parseInt64_range parsed
      unfold IsInt64 at small
      exact fails _ ⟨current, plain, ⟨⟨by omega, by omega⟩, rfl⟩, taken⟩
    · rintro fails new ⟨current, plain, ⟨⟨lower, -⟩, rfl⟩, taken⟩
      exact fails current plain (by omega) taken
  · rw [if_neg other, checked, scripted, bind_some, any_some]
    cases expired : (store key).expired context.now with
    | true =>
      have zero : clientInteger context (store key) = some 0 := by
        rw [clientInteger, stringView, expired, if_pos rfl]
      rw [zero, bind_some, Int.zero_add, (delta_eq_some checked).2, if_pos rfl,
        if_neg (fun kept => absurd kept.1.symm Bool.false_ne_true), scriptSum_eq_some]
      constructor
      · rintro ⟨⟨current, plain, fits, taken⟩, -⟩
        obtain rfl : current = 0 := by have := (asInt64_eq_some_iff.mp fits).2; omega
        exact ⟨plain, taken⟩
      · rintro ⟨plain, taken⟩
        refine ⟨⟨0, plain, ?_, taken⟩, fun _ => rfl⟩
        rw [Int.zero_add, (delta_eq_some checked).2]
    | false =>
      rw [if_neg Bool.false_ne_true]
      cases sum : (clientInteger context (store key)).bind fun current =>
          asInt64 (current + increment.amount) with
      | none =>
        refine iff_of_true ⟨eq_none_iff_forall_ne_some.mpr fun new stored => ?_,
          fun present => absurd present Bool.false_ne_true⟩ ?_
        · obtain ⟨current, plain, fits, -⟩ := scriptSum_eq_some.mp stored
          rw [clientInteger_of_plain expired plain, bind_some, fits] at sum
          cases sum
        · intro current known range
          rw [known, bind_some, asInt64_eq_some_iff.mpr ⟨range, rfl⟩] at sum
          cases sum
      | some new =>
        obtain ⟨current, known, fits⟩ := bind_eq_some_iff.mp sum
        obtain ⟨range, rfl⟩ := asInt64_eq_some_iff.mp fits
        have kept : (if false = false ∧ editsInPlace session store key increment.amount = true then
            (store key).ttl.map Record.value else none) = none ↔
            (store key).ttl = none ∨ editsInPlace session store key increment.amount = false := by
          cases editsInPlace session store key increment.amount <;> simp
        rw [kept, scriptSum_eq_some]
        constructor
        · rintro ⟨⟨script, plain, fits, taken⟩, safe⟩ client same -
          obtain rfl := some.inj (known.symm.trans same)
          obtain rfl := some.inj (known.symm.trans (clientInteger_of_plain expired plain))
          exact ⟨plain, taken, safe rfl⟩
        · intro agrees
          obtain ⟨plain, taken, safe⟩ := agrees current known range
          exact ⟨⟨current, plain, fits, taken⟩, fun _ => safe⟩

theorem Increment.correct_iff (increment : Increment) :
    (increment.Exact session context store key ∧ increment.SameOutcome session context store key)
      ↔ increment.Agreeing session context store key := by
  rw [← increment.sumsAgree_iff]
  have cleared : ∀ new, stringState context.now (putText store key new none) =
      update (stringState context.now store) key (some (formatInt new), none) :=
    fun new => stringState_putText context.now store key new rfl
  unfold Increment.Exact Increment.SameOutcome Increment.SumsAgree
  dsimp only
  rcases scriptApiCall_increment increment with ⟨new, sum, call⟩ | ⟨refused, text, call⟩
  · rcases execute_run increment with ⟨other, after, owed, command, state⟩ |
        ⟨owed, error, after, command, unchanged⟩
    · rw [call, command, sum, owed]
      rw [cleared, state]
      constructor
      · rintro ⟨-, same, states⟩
        have both : new = other := by
          rcases same with ⟨value, first, second⟩ | ⟨⟨text, impossible⟩, -⟩
          · cases first
            cases second
            rfl
          · cases impossible
        have kept := congrFun states key
        rw [update_self, update_self] at kept
        exact ⟨congrArg some both, fun _ => (congrArg Prod.snd kept).symm⟩
      · rintro ⟨same, kept⟩
        cases same
        obtain ⟨current, read, exact, fits⟩ := commandSum_exact owed
        subst exact
        refine ⟨.inl ⟨current, read, fits, rfl, ?_⟩, .inl ⟨_, rfl, rfl⟩, ?_⟩
        · have value := congrFun (cleared (current + increment.amount)) key
          rw [update_self] at value
          exact congrArg Prod.fst value
        · rw [kept rfl]
    · rw [call, command, sum, owed]
      constructor
      · rintro ⟨-, same, -⟩
        rcases same with ⟨_, -, impossible⟩ | ⟨⟨_, impossible⟩, -⟩ <;> cases impossible
      · rintro ⟨impossible, -⟩
        cases impossible
  · rcases execute_run increment with ⟨other, after, owed, command, state⟩ |
        ⟨owed, error, after, command, unchanged⟩
    · rw [call, command, refused, owed]
      constructor
      · rintro ⟨-, same, -⟩
        rcases same with ⟨_, impossible, -⟩ | ⟨-, _, impossible⟩ <;> cases impossible
      · rintro ⟨impossible, -⟩
        cases impossible
    · rw [call, command, refused, owed]
      refine iff_of_true ⟨.inr ⟨⟨text, rfl⟩, rfl⟩, .inr ⟨⟨text, rfl⟩, error, rfl⟩, ?_⟩
        ⟨rfl, fun impossible => nomatch impossible⟩
      funext other
      rw [stringState, stringState, unchanged]

variable (session context store key) in
/-- GET of a script is right exactly where the key is live, an increment exactly in the states in
which it agrees with the command. -/
theorem script_calls_correct_iff :
    (GetYieldsNil session context store key ↔ ¬Missing context.now store key) ∧
      ∀ increment : Increment, (increment.Exact session context store key ∧
          increment.SameOutcome session context store key) ↔
          increment.Agreeing session context store key :=
  ⟨⟨fun yields missing => scriptApiCall_get_ne_nil store key (yields missing),
    fun present missing => absurd missing present⟩, Increment.correct_iff⟩

end Comparison

/-- GET and INCR of an absent key fail, and DECRBY of the least step stores a wrong integer. -/
theorem script_calls_diverge :
    let context : DecodeContext := ⟨0, fun _ => false⟩
    (scriptApiCall .reference context ⟨bytesOf "GET", [[107]]⟩ fun _ => .empty).1 =
        .ok (.error errNotResident) ∧
      (scriptApiCall .reference context (Increment.incr.call [107]) fun _ => .empty).1 =
        .error errNotResident ∧
      ((Increment.incr.execute .reference context [107]).run fun _ => .empty).1 = .ok 1 ∧
      (scriptApiCall .reference context ((Increment.decrby Int64.minValue).call [107])
        (singleton [107] ⟨some ⟨[48], .mutable⟩, none, none⟩)).1 = .ok (.integer (-2 ^ 63)) ∧
      (((Increment.decrby Int64.minValue).execute .reference context [107]).run
        (singleton [107] ⟨some ⟨[48], .mutable⟩, none, none⟩)).1 = .error .notInteger :=
  ⟨rfl, rfl, rfl, rfl, rfl⟩

end Wedb.Server
