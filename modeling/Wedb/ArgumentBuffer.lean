/-
The arguments of a command in `SessionParseState`: up to eight stand in an array that `clear` does
not erase, more in a vector. `set_arg` past the end of the array shows what earlier commands left.
-/

import Wedb.GarnetObject

namespace Wedb.Resp

open List Object

def inlineArgsCapacity : Nat := 8

structure SessionParseState where
  inlineArgs : List Bytes
  len : Nat
  spillArgs : List Bytes
  capacity : inlineArgs.length = inlineArgsCapacity

namespace SessionParseState

def new : SessionParseState := ⟨replicate inlineArgsCapacity [], 0, [], rfl⟩

variable (state : SessionParseState)

def clear : SessionParseState := { state with len := 0, spillArgs := [] }

def migrateToSpill : SessionParseState :=
  { state with spillArgs := state.spillArgs ++ state.inlineArgs.take state.len }

/-- `reserve`. The capacity of the vector is not part of the model. -/
def reserve (additional : Nat) : SessionParseState :=
  if inlineArgsCapacity < wrappingAdd state.len additional ∧ state.spillArgs = [] ∧ 0 < state.len
  then state.migrateToSpill
  else state

/-- The arguments as `push` and `set_arg` find them in the vector. -/
def spilled : List Bytes :=
  (if state.spillArgs = [] then state.migrateToSpill else state).spillArgs

def writeInline (idx : Nat) (arg : Bytes) (len : Nat) : SessionParseState :=
  { state with
    inlineArgs := state.inlineArgs.set idx arg
    len := len
    capacity := by rw [length_set, state.capacity] }

def push (arg : Bytes) : SessionParseState :=
  if state.spillArgs = [] ∧ state.len < inlineArgsCapacity then
    state.writeInline state.len arg (state.len + 1)
  else { state with spillArgs := state.spilled ++ [arg], len := state.len + 1 }

def get (idx : Nat) : Option Bytes :=
  if state.spillArgs = [] then if idx < state.len then state.inlineArgs[idx]? else none
  else state.spillArgs[idx]?

def initWithArgs (args : List Bytes) (few : args.length ≤ 5) : SessionParseState where
  inlineArgs := args ++ state.inlineArgs.drop args.length
  len := args.length
  spillArgs := []
  capacity := by
    have capacity := state.capacity
    rw [length_append, length_drop]
    unfold inlineArgsCapacity at capacity ⊢
    omega

def overwrite (args : List Bytes) (idx : Nat) (arg : Bytes) : List Bytes :=
  (args ++ replicate (idx + 1 - args.length) []).set idx arg

def setArg (idx : Nat) (arg : Bytes) : SessionParseState :=
  let len := if state.len ≤ idx then idx + 1 else state.len
  if state.spillArgs = [] ∧ idx < inlineArgsCapacity then
    state.writeInline idx arg len
  else { state with spillArgs := overwrite state.spilled idx arg, len := len }

def asSlice : List Bytes :=
  if state.spillArgs = [] then state.inlineArgs.take state.len else state.spillArgs

/-- `slice_range`. The sum wraps, and a slice that ends before it starts panics. -/
def sliceRange (start count : Nat) : Option (List Bytes) :=
  if state.asSlice.length ≤ start then some []
  else
    let stop := min (wrappingAdd start count) state.asSlice.length
    if stop < start then none else some ((state.asSlice.take stop).drop start)

def serializedLength : Nat := 4 + (state.asSlice.map fun arg => 4 + arg.length).sum

/-- `serialize_to`: what it returns, and the buffer. -/
def serializeTo (output : Bytes) : Option (Nat × Bytes) :=
  if output.length < state.serializedLength then none
  else some (state.serializedLength,
    serializeList state.asSlice ++ output.drop state.serializedLength)

def readArgs : Nat → Bytes → SessionParseState → Option Bytes × SessionParseState
  | 0, rest, state => (some rest, state)
  | count + 1, rest, state =>
    match (readWord 4 rest).bind fun word => splitExact word.1 word.2 with
    | none => (none, state)
    | some (arg, rest) => readArgs count rest (state.push arg)

def deserializeFrom (input : Bytes) : Option Nat × SessionParseState :=
  match readWord 4 input with
  | none => (none, state)
  | some (count, rest) =>
    if (input.length - 4) / 4 < count then (none, state)
    else
      let (behind, state) := readArgs count rest (state.clear.reserve count)
      (behind.map fun rest => input.length - rest.length, state)

inductive Operation
  | clear
  | push (arg : Bytes)
  | reserve (additional : Nat)
  | initWithArgs (args : List Bytes) (few : args.length ≤ 5)
  | setArg (idx : Nat) (arg : Bytes)

def apply : Operation → SessionParseState
  | .clear => state.clear
  | .push arg => state.push arg
  | .reserve additional => state.reserve additional
  | .initWithArgs args few => state.initWithArgs args few
  | .setArg idx arg => state.setArg idx arg

def onVector (args : List Bytes) : Operation → List Bytes
  | .clear => []
  | .push arg => args ++ [arg]
  | .reserve _ => args
  | .initWithArgs args _ => args
  | .setArg idx arg => overwrite args idx arg

/-- A `set_arg` that stays in the array finds the slots it skips empty. -/
def Clean : Operation → Prop
  | .setArg idx _ => state.spillArgs = [] → idx < inlineArgsCapacity →
      ∀ slot, state.len ≤ slot → slot < idx → state.inlineArgs[slot]? = some []
  | _ => True

def CleanRun : SessionParseState → List Operation → Prop
  | _, [] => True
  | state, operation :: rest => state.Clean operation ∧ CleanRun (state.apply operation) rest

/-- A state has the arguments of a vector, and counts them. -/
structure Shows (args : List Bytes) : Prop where
  len : state.len = args.length
  asSlice : state.asSlice = args

variable {state} {args : List Bytes}

theorem shows_inline (few : state.len ≤ inlineArgsCapacity) (inline : state.spillArgs = []) :
    state.Shows (state.inlineArgs.take state.len) where
  len := by rw [length_take, state.capacity, Nat.min_eq_left few]
  asSlice := if_pos inline

theorem shows_spill (filled : args ≠ []) (spill : state.spillArgs = args)
    (len : state.len = args.length) : state.Shows args := by
  subst spill
  exact ⟨len, if_neg filled⟩

theorem Shows.inline (shows : state.Shows args) (inline : state.spillArgs = []) :
    args = state.inlineArgs.take state.len ∧ state.len ≤ inlineArgsCapacity := by
  have slice := shows.asSlice
  rw [SessionParseState.asSlice, if_pos inline] at slice
  refine ⟨slice.symm, ?_⟩
  have length := shows.len
  rw [← slice, length_take, state.capacity] at length
  omega

theorem Shows.spilled_eq (shows : state.Shows args) : state.spilled = args := by
  rw [← shows.asSlice]
  unfold spilled SessionParseState.asSlice migrateToSpill
  split_ifs with inline
  · rw [inline, nil_append]
  · rfl

theorem shows_clear : state.clear.Shows [] := shows_inline (Nat.zero_le _) rfl

theorem Shows.push (shows : state.Shows args) (arg : Bytes) :
    (state.push arg).Shows (args ++ [arg]) := by
  unfold SessionParseState.push
  split_ifs with room
  · obtain ⟨inline, room⟩ := room
    have inside : state.len < state.inlineArgs.length := state.capacity ▸ room
    have written := @shows_inline (state.writeInline state.len arg (state.len + 1)) room inline
    dsimp only [writeInline] at written
    rw [take_add_one, getElem?_set_self inside, take_set_of_le le_rfl,
      ← (shows.inline inline).1] at written
    exact written
  · rw [shows.spilled_eq]
    refine shows_spill (append_ne_nil_of_right_ne_nil _ (cons_ne_nil _ _)) rfl ?_
    rw [length_append, ← shows.len, length_singleton]

theorem Shows.reserve (shows : state.Shows args) (additional : Nat) :
    (state.reserve additional).Shows args := by
  unfold SessionParseState.reserve
  split_ifs with migrates
  · obtain ⟨-, inline, filled⟩ := migrates
    refine shows_spill (fun none => ?_) ?_ shows.len
    · rw [shows.len, none] at filled
      exact absurd filled (Nat.lt_irrefl 0)
    · rw [(shows.inline inline).1, migrateToSpill, inline, nil_append]
  · exact shows

theorem shows_initWithArgs (few : args.length ≤ 5) : (state.initWithArgs args few).Shows args := by
  have written := @shows_inline (state.initWithArgs args few) (few.trans (by decide)) rfl
  dsimp only [initWithArgs] at written
  rw [take_left] at written
  exact written

theorem length_overwrite (args : List Bytes) (idx : Nat) (arg : Bytes) :
    (overwrite args idx arg).length = if args.length ≤ idx then idx + 1 else args.length := by
  rw [overwrite, length_set, length_append, length_replicate]
  split_ifs <;> omega

theorem Shows.setArg (shows : state.Shows args) {idx : Nat} {arg : Bytes}
    (clean : state.Clean (.setArg idx arg)) :
    (state.setArg idx arg).Shows (overwrite args idx arg) := by
  have length := length_overwrite args idx arg
  rw [← shows.len] at length
  refine ⟨?_, ?_⟩
  · unfold SessionParseState.setArg
    dsimp only
    split_ifs at length ⊢ <;> exact length.symm
  unfold SessionParseState.setArg
  by_cases room : state.spillArgs = [] ∧ idx < inlineArgsCapacity
  · rw [if_pos room]
    obtain ⟨same, few⟩ := shows.inline room.1
    have capacity := state.capacity
    refine (if_pos room.1).trans (ext_getElem? fun slot => ?_)
    have empty := clean room.1 room.2 slot
    rw [same, overwrite]
    simp only [writeInline, getElem?_take, getElem?_set, getElem?_append, getElem?_replicate,
      length_append, length_take, length_replicate]
    grind
  · rw [if_neg room, shows.spilled_eq]
    refine if_neg fun none : overwrite args idx arg = [] => ?_
    rw [none, length_nil] at length
    split_ifs at length
    omega

theorem Shows.apply (shows : state.Shows args) {operation : Operation}
    (clean : state.Clean operation) : (state.apply operation).Shows (onVector args operation) := by
  cases operation with
  | clear => exact shows_clear
  | push arg => exact shows.push arg
  | reserve additional => exact shows.reserve additional
  | initWithArgs args few => exact shows_initWithArgs few
  | setArg idx arg => exact shows.setArg clean

theorem Shows.foldl (shows : state.Shows args) {operations : List Operation}
    (clean : state.CleanRun operations) : (operations.foldl SessionParseState.apply state).Shows
      (operations.foldl onVector args) := by
  induction operations generalizing state args with
  | nil => exact shows
  | cons operation rest ih => exact ih (shows.apply clean.1) clean.2

theorem get_eq (idx : Nat) : state.get idx = state.asSlice[idx]? := by
  unfold get asSlice
  split_ifs with inline inside
  · rw [getElem?_take_of_lt inside]
  · exact (getElem?_eq_none (by rw [length_take]; omega)).symm
  · rfl

theorem sliceRange_eq {start count : Nat}
    (fits : state.asSlice.length ≤ start ∨ start + count < usizeRange) :
    state.sliceRange start count = some ((state.asSlice.drop start).take count) := by
  unfold sliceRange
  by_cases behind : state.asSlice.length ≤ start
  · rw [if_pos behind, drop_eq_nil_of_le behind, take_nil]
  · rw [wrappingAdd, Nat.mod_eq_of_lt (fits.resolve_left behind), if_neg behind,
      if_neg (by omega), drop_take]
    refine congrArg some (take_eq_take_iff.mpr ?_)
    rw [length_drop]
    omega

theorem Shows.readArgs (shows : state.Shows args) (written : List Bytes) (rest : Bytes)
    (short : ∀ arg ∈ written, arg.length < 2 ^ 32) : ∃ after : SessionParseState,
      SessionParseState.readArgs written.length (written.flatMap serializeItem ++ rest) state =
        (some rest, after) ∧ after.Shows (args ++ written) := by
  induction written generalizing state args with
  | nil => exact ⟨state, rfl, by rwa [append_nil]⟩
  | cons arg written ih =>
    rw [forall_mem_cons] at short
    have word : arg.length % 256 ^ 4 = arg.length := Nat.mod_eq_of_lt short.1
    obtain ⟨after, read, shown⟩ := ih (shows.push arg) short.2
    refine ⟨after, ?_, by rwa [append_cons]⟩
    simp only [length_cons, flatMap_cons, serializeItem, append_assoc,
      SessionParseState.readArgs, readWord_leBytes, word, Option.bind_some, splitExact_append]
    exact read

theorem deserializeFrom_serializeList (target : SessionParseState) (trailing : Bytes)
    (few : args.length < 2 ^ 32) (short : ∀ arg ∈ args, arg.length < 2 ^ 32) :
    ∃ after, target.deserializeFrom (serializeList args ++ trailing) =
      (some (serializeList args).length, after) ∧ after.Shows args := by
  have word : args.length % 256 ^ 4 = args.length := Nat.mod_eq_of_lt few
  have room := length_le_length_serialize args
  obtain ⟨after, read, shown⟩ :=
    (shows_clear.reserve args.length).readArgs args trailing short
  refine ⟨after, ?_, shown⟩
  unfold deserializeFrom
  rw [serializeList, append_assoc, readWord_leBytes, word]
  dsimp only
  rw [if_neg, read]
  · simp [leBytes_length]
    omega
  · simp only [length_append, leBytes_length]
    omega

/-- In a clean run the state shows what a plain vector holds, and its bytes are read back so. -/
theorem run_shows_vector (operations : List Operation) (clean : new.CleanRun operations) :
    let state := operations.foldl apply new
    let args := operations.foldl onVector []
    state.len = args.length ∧ (∀ idx, state.get idx = args[idx]?) ∧ state.asSlice = args ∧
      (∀ start count, args.length ≤ start ∨ start + count < usizeRange →
        state.sliceRange start count = some ((args.drop start).take count)) ∧
      (args.length < 2 ^ 32 → (∀ arg ∈ args, arg.length < 2 ^ 32) →
        ∀ (output : Bytes) (target : SessionParseState), state.serializedLength ≤ output.length →
          ∃ written after, state.serializeTo output = some (state.serializedLength, written) ∧
            target.deserializeFrom written = (some state.serializedLength, after) ∧
            after.len = args.length ∧ after.asSlice = args) := by
  have start : new.Shows [] := ⟨rfl, rfl⟩
  obtain ⟨len, shown⟩ := start.foldl clean
  dsimp only
  rw [← shown] at len ⊢
  refine ⟨len, get_eq, rfl, fun _ _ => sliceRange_eq, fun few short output target room => ?_⟩
  obtain ⟨after, read, restored⟩ := deserializeFrom_serializeList target
    (output.drop (operations.foldl apply new).serializedLength) few short
  have length : (serializeList (operations.foldl apply new).asSlice).length =
      (operations.foldl apply new).serializedLength := by
    simp only [serializeList, length_append, leBytes_length, length_flatMap, serializeItem,
      serializedLength]
  rw [length] at read
  exact ⟨_, after, if_neg (Nat.not_lt.mpr room), read, restored.len, restored.asSlice⟩

theorem run_shows_vector_spilled :
    let state := [Operation.push [97], .setArg 2 [98], .setArg 9 [99]].foldl apply new
    state.get 1 = some [] ∧ state.get 9 = some [99] := by
  have clean : new.CleanRun [.push [97], .setArg 2 [98], .setArg 9 [99]] := by
    refine ⟨trivial, fun _ _ slot low high => ?_, fun _ spills => absurd spills (by decide),
      trivial⟩
    obtain rfl : slot = 1 := Nat.le_antisymm (Nat.le_of_lt_succ high) low
    rfl
  exact ⟨(run_shows_vector _ clean).2.1 1, (run_shows_vector _ clean).2.1 9⟩

/-- An argument set past the end brings back a cleared one before it. -/
theorem setArg_shows_stale :
    ([Operation.push [97], .clear, .setArg 1 [98]].foldl apply new).get 0 = some [97] ∧
      [Operation.push [97], .clear, .setArg 1 [98]].foldl onVector [] = [[], [98]] :=
  ⟨rfl, rfl⟩

end SessionParseState

end Wedb.Resp
