/-
The handlers that take a `numkeys` argument. The count is parsed as a signed integer and cast to
`usize`, so a small negative count passes the bound check after the addition has wrapped.
-/

import Wedb.RespRead
import Wedb.RespWrite

namespace Wedb.Server

open Resp

structure Arguments where
  tokens : List Bytes
  bounded : tokens.length ≤ 65536

/-- What a handler does: it panics, or it writes a reply and leaves a store. -/
inductive Handled (σ : Type)
  | panicked
  | returned (reply : Bytes) (store : σ)

inductive Stop
  | panicked
  | rejected (text : Bytes)

abbrev Parsed (α : Type) := Except Stop α

structure Request (options : Type) where
  keys : List Bytes
  options : options

/-- Which end is popped first (`LEFT` or `MIN`), and how many elements at most. -/
structure PopOptions where
  fromLow : Bool
  count : Nat

abbrev StoreOperation (σ ρ : Type) := σ → Except Bytes ρ × σ

def finish {σ : Type} (result : Except Bytes Bytes × σ) : Handled σ :=
  match result with
  | (.error text, store) => .returned (writeError text) store
  | (.ok reply, store) => .returned reply store

def handle {σ options : Type} (operate : Request options → StoreOperation σ Bytes)
    (parsed : Parsed (Request options)) (store : σ) : Handled σ :=
  match parsed with
  | .error .panicked => .panicked
  | .error (.rejected text) => .returned (writeError text) store
  | .ok request => finish (operate request store)

def numkeysMismatch : Bytes :=
  bytesOf "ERR numkeys must be greater than 0 and match key arguments"

def numkeysToken (first : Nat) (tokens : List Bytes) : Option Int :=
  tokens[first - 1]?.bind tryReadLong

def readKeys (first : Nat) (tokens : List Bytes) : Parsed (Nat × List Bytes) :=
  match numkeysToken first tokens with
  | none => .error (.rejected intOutOfRange)
  | some value =>
    let numkeys := usizeOfInt value
    if numkeys = 0 ∨ tokens.length < wrappingAdd numkeys first then
      .error (.rejected numkeysMismatch)
    else
      match sliceInclusive tokens first (wrappingAdd numkeys (first - 1)) with
      | none => .error .panicked
      | some keys => .ok (numkeys, keys)

def readCount (tokens : List Bytes) : Except Bytes Nat :=
  match tokens with
  | [] => .ok 1
  | [_] => .error syntaxError
  | word :: value :: _ =>
    if eqIgnoreAsciiCase word (bytesOf "COUNT") then
      match tryReadLong value with
      | some count => .ok (min (usizeOfInt count) 65536)
      | none => .error intOutOfRange
    else .error syntaxError

/-- Read the end to pop from, `low` or `high`, and the count. -/
def readPopOptions (low high : String) (tokens : List Bytes) : Except Bytes PopOptions :=
  match tokens with
  | [] => .error syntaxError
  | side :: rest =>
    if eqIgnoreAsciiCase side (bytesOf low) then
      (readCount rest).map fun count => { fromLow := true, count }
    else if eqIgnoreAsciiCase side (bytesOf high) then
      (readCount rest).map fun count => { fromLow := false, count }
    else .error syntaxError

def readLimit (tokens : List Bytes) : Except Bytes Nat :=
  match tokens with
  | [] => .ok 0
  | [word, value] =>
    if eqIgnoreAsciiCase word (bytesOf "LIMIT") then
      match tryReadLong value with
      | none => .error intOutOfRange
      | some limit =>
        if limit < 0 then .error (bytesOf "ERR LIMIT can't be negative") else .ok limit.toNat
    else .error syntaxError
  | _ => .error syntaxError

def readRequest {options : Type} (name : String) (arity first : Nat)
    (readOptions : List Bytes → Except Bytes options) (tokens : List Bytes) :
    Parsed (Request options) :=
  if tokens.length < arity then .error (.rejected (wrongArity name))
  else
    match readKeys first tokens with
    | .error stop => .error stop
    | .ok (numkeys, keys) =>
      match readOptions (tokens.drop (wrappingAdd numkeys first)) with
      | .error text => .error (.rejected text)
      | .ok options => .ok { keys, options }

/-- The store operations the handlers call; scores are as the reply prints them. -/
structure NumkeysStore (σ : Type) where
  lpop : Bytes → Nat → StoreOperation σ (List Bytes)
  rpop : Bytes → Nat → StoreOperation σ (List Bytes)
  zpopmin : Bytes → Nat → StoreOperation σ (List (Bytes × Bytes))
  zpopmax : Bytes → Nat → StoreOperation σ (List (Bytes × Bytes))
  sintercard : List Bytes → Nat → StoreOperation σ Nat
  zintercard : List Bytes → Nat → StoreOperation σ Nat

def popFirst {σ ι : Type} (pop : Bytes → StoreOperation σ (List ι)) :
    List Bytes → StoreOperation σ (Option (Bytes × List ι))
  | [], store => (.ok none, store)
  | key :: rest, store =>
    match pop key store with
    | (.error text, after) => (.error text, after)
    | (.ok [], after) => popFirst pop rest after
    | (.ok items, after) => (.ok (some (key, items)), after)

/-- The reply to a pop: the key and its elements, or null. -/
def writePopped {ι : Type} (render : ι → List Bytes) (popped : Option (Bytes × List ι)) : Bytes :=
  match popped with
  | none => writeNull
  | some (key, items) =>
    writeArrayHeader 2 ++ writeBulkString key ++ writeArrayHeader (items.flatMap render).length ++
      (items.flatMap render).flatMap writeBulkString

def StoreOperation.mapResult {σ α β : Type} (operation : StoreOperation σ α) (f : α → β) :
    StoreOperation σ β :=
  fun store => ((operation store).1.map f, (operation store).2)

variable {σ : Type} (ops : NumkeysStore σ)

/-- `lmpop` of the list commands. -/
def lmpop (request : Request PopOptions) : StoreOperation σ Bytes :=
  StoreOperation.mapResult
    (popFirst (fun key => (if request.options.fromLow then ops.lpop else ops.rpop) key
      request.options.count) request.keys)
    (writePopped fun item => [item])

def zpop (options : PopOptions) (key : Bytes) : StoreOperation σ (List (Bytes × Bytes)) :=
  (if options.fromLow then ops.zpopmin else ops.zpopmax) key options.count

def renderScored (item : Bytes × Bytes) : List Bytes := [item.1, item.2]

def zmpop (request : Request PopOptions) : StoreOperation σ Bytes :=
  StoreOperation.mapResult (popFirst (zpop ops request.options) request.keys)
    (writePopped renderScored)

/-- What the blocking broker hands to a waiting BZMPOP. -/
inductive Wake
  | forceUnblocked
  | typeMismatch
  | ready (fullKey : Bytes)
  | timedOut

def awaitZmpop (fullKey : Bytes → Bytes) (request : Request PopOptions) :
    List Wake → StoreOperation σ Bytes
  | [], store => (.ok [], store)
  | .forceUnblocked :: _, store => (.error unblockedClient, store)
  | .typeMismatch :: _, store => (.error wrongType, store)
  | .timedOut :: _, store => (.ok writeNull, store)
  | .ready woken :: wakes, store =>
    match request.keys.find? fun key => fullKey key == woken with
    | none => awaitZmpop fullKey request wakes store
    | some key =>
      match zpop ops request.options key store with
      | (.error text, after) => (.error text, after)
      | (.ok [], after) => awaitZmpop fullKey request wakes after
      | (.ok items, after) => (.ok (writePopped renderScored (some (key, items))), after)

def bzmpop (fullKey : Bytes → Bytes) (wakes : List Wake) (request : Request PopOptions) :
    StoreOperation σ Bytes :=
  fun store =>
    match popFirst (zpop ops request.options) request.keys store with
    | (.error text, after) => (.error text, after)
    | (.ok none, after) => awaitZmpop ops fullKey request wakes after
    | (.ok (some popped), after) => (.ok (writePopped renderScored (some popped)), after)

/-- The sign of an accepted timeout, the namespace and the wake-ups. -/
structure BlockingContext where
  timeoutIsNegative : Bytes → Option Bool
  fullKey : Bytes → Bytes
  wakes : List Wake

variable (args : Arguments)

/-- The LMPOP arm of `execute_single_command`. -/
def handleLmpop (store : σ) : Handled σ :=
  handle (lmpop ops) (readRequest "lmpop" 3 1 (readPopOptions "LEFT" "RIGHT") args.tokens) store

/-- The SINTERCARD arm of `execute_single_command`. -/
def handleSintercard (store : σ) : Handled σ :=
  handle (fun request => StoreOperation.mapResult (ops.sintercard request.keys request.options)
    fun card => writeInteger card) (readRequest "sintercard" 2 1 readLimit args.tokens) store

/-- The ZINTERCARD arm of `execute_single_command`. -/
def handleZintercard (store : σ) : Handled σ :=
  handle (fun request => StoreOperation.mapResult (ops.zintercard request.keys request.options)
    fun card => writeInteger card) (readRequest "zintercard" 2 1 readLimit args.tokens) store

/-- The ZMPOP arm of `execute_single_command`. -/
def handleZmpop (store : σ) : Handled σ :=
  handle (zmpop ops) (readRequest "zmpop" 3 1 (readPopOptions "MIN" "MAX") args.tokens) store

variable (context : BlockingContext)

def readBzmpop (tokens : List Bytes) : Parsed (Request PopOptions) :=
  if tokens.length < 4 then .error (.rejected (wrongArity "bzmpop"))
  else
    match tokens[0]?.bind context.timeoutIsNegative with
    | none => .error (.rejected timeoutNotFloat)
    | some true => .error (.rejected timeoutNegative)
    | some false => readRequest "bzmpop" 4 2 (readPopOptions "MIN" "MAX") tokens

def handleBlockingZmpop (args : Arguments) (store : σ) : Handled σ :=
  handle (bzmpop ops context.fullKey context.wakes) (readBzmpop context args.tokens) store

/-- The count is one of the negative numbers that the addition of `first` wraps past zero. -/
def CountWraps (first : Nat) (tokens : List Bytes) : Prop :=
  ∃ value, numkeysToken first tokens = some value ∧ -(first : Int) ≤ value ∧ value < 0

instance (first : Nat) (tokens : List Bytes) : Decidable (CountWraps first tokens) :=
  match token : numkeysToken first tokens with
  | none => .isFalse (by rintro ⟨value, found, -⟩; simp [token] at found)
  | some value =>
    decidable_of_iff (-(first : Int) ≤ value ∧ value < 0) (by simp [CountWraps, token])

variable {tokens : List Bytes} {first : Nat}

theorem numkeysToken_range {value : Int} (token : numkeysToken first tokens = some value) :
    first - 1 < tokens.length ∧ IsInt64 value := by
  obtain ⟨bytes, found, read⟩ := Option.bind_eq_some_iff.mp token
  exact ⟨(List.getElem?_eq_some_iff.mp found).1, tryReadLong_range read⟩

theorem readKeys_of_countWraps (positive : 1 ≤ first)
    (bounded : tokens.length ≤ 65536) (wraps : CountWraps first tokens) :
    readKeys first tokens = .error .panicked := by
  obtain ⟨value, token, lower, negative⟩ := wraps
  obtain ⟨inside, range⟩ := numkeysToken_range token
  have cast := usizeOfInt_of_neg range negative
  have sum : wrappingAdd (usizeOfInt value) first = first - value.natAbs := by
    simp only [wrappingAdd, usizeRange, cast]
    omega
  have last : wrappingAdd (usizeOfInt value) (first - 1) + 1 = first - value.natAbs ∨
      wrappingAdd (usizeOfInt value) (first - 1) + 1 = usizeRange := by
    simp only [wrappingAdd, usizeRange, cast]
    omega
  have outside : sliceInclusive tokens first (wrappingAdd (usizeOfInt value) (first - 1)) =
      none := by
    refine if_neg ?_
    rcases last with last | last <;> rw [last] <;> omega
  have passes : ¬(usizeOfInt value = 0 ∨ tokens.length < wrappingAdd (usizeOfInt value) first) := by
    rw [sum, cast]
    omega
  simp only [readKeys, token, if_neg passes, outside]

theorem readKeys_of_not_countWraps (positive : 1 ≤ first)
    (bounded : tokens.length ≤ 65536) (inRange : ¬CountWraps first tokens) :
    (∃ text, readKeys first tokens = .error (.rejected text)) ∨
      ∃ count : Nat, 1 ≤ count ∧ numkeysToken first tokens = some (count : Int) ∧
        first + count ≤ tokens.length ∧
        readKeys first tokens = .ok (count, (tokens.drop first).take count) := by
  cases token : numkeysToken first tokens with
  | none => exact .inl ⟨_, by simp only [readKeys, token]; rfl⟩
  | some value =>
    obtain ⟨inside, range⟩ := numkeysToken_range token
    by_cases rejects : usizeOfInt value = 0 ∨ tokens.length < wrappingAdd (usizeOfInt value) first
    · exact .inl ⟨_, by simp only [readKeys, token, if_pos rejects]; rfl⟩
    have nonneg : 0 ≤ value := by
      by_contra negative
      have cast := usizeOfInt_of_neg range (by omega)
      have below : value < -(first : Int) := by
        by_contra within
        exact inRange ⟨value, token, by omega, by omega⟩
      obtain ⟨lower, upper⟩ := range
      apply rejects
      right
      simp only [wrappingAdd, usizeRange, cast]
      omega
    have cast := usizeOfInt_of_nonneg range nonneg
    obtain ⟨lower, upper⟩ := range
    have sum : wrappingAdd value.toNat first = first + value.toNat := by
      simp only [wrappingAdd, usizeRange]
      omega
    have last : wrappingAdd value.toNat (first - 1) + 1 = first + value.toNat := by
      simp only [wrappingAdd, usizeRange]
      omega
    rw [cast, sum] at rejects
    have slice : sliceInclusive tokens first (wrappingAdd value.toNat (first - 1)) =
        some ((tokens.drop first).take value.toNat) := by
      rw [sliceInclusive_eq_some (by simp only [last, usizeRange]; omega) (by omega) (by omega),
        last, Nat.add_sub_cancel_left]
    refine .inr ⟨value.toNat, by omega, ?_, by omega, ?_⟩
    · rw [Int.toNat_of_nonneg nonneg]
    · simp only [readKeys, token, cast, sum, if_neg rejects, slice]

/-- A handler is safe on an input: it answers with an error, or runs on exactly the `count ≥ 1` keys
behind the count. -/
def SafeOn {options : Type} (first : Nat) (operate : Request options → StoreOperation σ Bytes)
    (tokens : List Bytes) (store : σ) (outcome : Handled σ) : Prop :=
  (∃ text, outcome = .returned (writeError text) store) ∨
    ∃ count : Nat, 1 ≤ count ∧ numkeysToken first tokens = some (count : Int) ∧
      first + count ≤ tokens.length ∧ ∃ options, outcome =
        finish (operate { keys := (tokens.drop first).take count, options } store)

variable {options : Type}

theorem not_safeOn_panicked (first : Nat)
    (operate : Request options → StoreOperation σ Bytes) (tokens : List Bytes) (store : σ) :
    ¬SafeOn first operate tokens store .panicked := by
  rintro (⟨text, impossible⟩ | ⟨count, -, -, -, options, impossible⟩)
  · cases impossible
  · unfold finish at impossible
    split at impossible <;> cases impossible

theorem safeOn_rejected (first : Nat)
    (operate : Request options → StoreOperation σ Bytes) (tokens : List Bytes) (store : σ)
    (text : Bytes) :
    SafeOn first operate tokens store (handle operate (.error (.rejected text)) store) :=
  .inl ⟨text, rfl⟩

theorem safeOn_readRequest_iff (name : String) (arity first : Nat)
    (readOptions : List Bytes → Except Bytes options)
    (operate : Request options → StoreOperation σ Bytes) (args : Arguments) (store : σ)
    (positive : 1 ≤ first) :
    SafeOn first operate args.tokens store
        (handle operate (readRequest name arity first readOptions args.tokens) store) ↔
      ¬(arity ≤ args.tokens.length ∧ CountWraps first args.tokens) := by
  by_cases short : args.tokens.length < arity
  · simp only [readRequest, if_pos short, safeOn_rejected, true_iff, not_and]
    omega
  by_cases wraps : CountWraps first args.tokens
  · have keys := readKeys_of_countWraps positive args.bounded wraps
    simp only [readRequest, if_neg short, keys, handle, not_safeOn_panicked, false_iff, not_not]
    exact ⟨by omega, wraps⟩
  · refine iff_of_true ?_ (fun both => wraps both.2)
    rcases readKeys_of_not_countWraps positive args.bounded wraps with
      ⟨text, keys⟩ | ⟨count, least, token, inside, keys⟩
    · simp only [readRequest, if_neg short, keys]
      exact safeOn_rejected first operate args.tokens store text
    · simp only [readRequest, if_neg short, keys]
      cases readOptions (args.tokens.drop (wrappingAdd count first)) with
      | error text => exact safeOn_rejected first operate args.tokens store text
      | ok options => exact .inr ⟨count, least, token, inside, options, rfl⟩

/-- The commands that take a `numkeys` argument and slice their keys with it. -/
inductive NumkeysCommand
  | lmpop
  | sintercard
  | zintercard
  | zmpop
  | bzmpop

def NumkeysCommand.run (command : NumkeysCommand) (args : Arguments) (store : σ) : Handled σ :=
  match command with
  | .lmpop => handleLmpop ops args store
  | .sintercard => handleSintercard ops args store
  | .zintercard => handleZintercard ops args store
  | .zmpop => handleZmpop ops args store
  | .bzmpop => handleBlockingZmpop ops context args store

/-- Safety of each command: its keys start at position one, after the timeout at two. -/
def NumkeysCommand.Safe (command : NumkeysCommand) (args : Arguments) (store : σ) : Prop :=
  match command with
  | .lmpop => SafeOn 1 (Server.lmpop ops) args.tokens store (command.run ops context args store)
  | .sintercard =>
    SafeOn 1 (fun request : Request Nat => StoreOperation.mapResult
      (ops.sintercard request.keys request.options) fun card => writeInteger card)
      args.tokens store (command.run ops context args store)
  | .zintercard =>
    SafeOn 1 (fun request : Request Nat => StoreOperation.mapResult
      (ops.zintercard request.keys request.options) fun card => writeInteger card)
      args.tokens store (command.run ops context args store)
  | .zmpop => SafeOn 1 (Server.zmpop ops) args.tokens store (command.run ops context args store)
  | .bzmpop => SafeOn 2 (Server.bzmpop ops context.fullKey context.wakes) args.tokens store
      (command.run ops context args store)

/-- The earlier checks pass and the count wraps: it is `-1`, or for BZMPOP, whose keys start later,
`-1` or `-2`. -/
def NumkeysCommand.CountWrapsIn (command : NumkeysCommand) (args : Arguments) : Prop :=
  match command with
  | .lmpop | .zmpop => 3 ≤ args.tokens.length ∧ CountWraps 1 args.tokens
  | .sintercard | .zintercard => 2 ≤ args.tokens.length ∧ CountWraps 1 args.tokens
  | .bzmpop => 4 ≤ args.tokens.length ∧
      args.tokens[0]?.bind context.timeoutIsNegative = some false ∧ CountWraps 2 args.tokens

/-- Every handler is safe on exactly the argument lists whose count does not wrap. -/
theorem numkeys_safe_iff (context : BlockingContext) (command : NumkeysCommand)
    (args : Arguments) (store : σ) :
    command.Safe ops context args store ↔ ¬command.CountWrapsIn context args := by
  cases command with
  | lmpop => exact safeOn_readRequest_iff _ _ _ _ _ _ _ (Nat.le_refl 1)
  | sintercard => exact safeOn_readRequest_iff _ _ _ _ _ _ _ (Nat.le_refl 1)
  | zintercard => exact safeOn_readRequest_iff _ _ _ _ _ _ _ (Nat.le_refl 1)
  | zmpop => exact safeOn_readRequest_iff _ _ _ _ _ _ _ (Nat.le_refl 1)
  | bzmpop =>
    simp only [NumkeysCommand.Safe, NumkeysCommand.run, NumkeysCommand.CountWrapsIn,
      handleBlockingZmpop, readBzmpop]
    by_cases short : args.tokens.length < 4
    · rw [if_pos short]
      exact iff_of_true (safeOn_rejected _ _ _ _ _) (by omega)
    rw [if_neg short]
    cases args.tokens[0]?.bind context.timeoutIsNegative with
    | none => exact iff_of_true (safeOn_rejected _ _ _ _ _) (by simp)
    | some negative =>
      cases negative with
      | true => exact iff_of_true (safeOn_rejected _ _ _ _ _) (by simp)
      | false =>
        simp only [true_and]
        exact safeOn_readRequest_iff _ _ _ _ _ _ _ (by decide)

def emptyStore : NumkeysStore Unit where
  lpop _ _ store := (.ok [], store)
  rpop _ _ store := (.ok [], store)
  zpopmin _ _ store := (.ok [], store)
  zpopmax _ _ store := (.ok [], store)
  sintercard _ _ store := (.ok 0, store)
  zintercard _ _ store := (.ok 0, store)

/-- `LMPOP -1 k LEFT` panics: `numkeys + 1` wraps, and the slice ends at `usize::MAX`. -/
theorem lmpop_minusOne_panics : NumkeysCommand.lmpop.run emptyStore ⟨fun _ => some false, id, []⟩
        ⟨[bytesOf "-1", bytesOf "k", bytesOf "LEFT"], by decide⟩ () = .panicked ∧
      ¬NumkeysCommand.lmpop.Safe emptyStore ⟨fun _ => some false, id, []⟩
        ⟨[bytesOf "-1", bytesOf "k", bytesOf "LEFT"], by decide⟩ () :=
  ⟨rfl, not_safeOn_panicked _ _ _ _⟩

end Wedb.Server
