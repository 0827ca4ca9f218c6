/-
The two ways a key-value command is executed. The synchronous fast path answers only from memory, or
hands the command to the asynchronous dispatcher.
-/

import Wedb.RespCommand
import Wedb.RespRead
import Wedb.StringCommands

namespace Wedb.Server

open Kv Object Redis Resp

inductive KvCommand
  | get
  | set
  | del
  | incr
  | decr
  | setbit
  | getbit
  | strlen
  deriving DecidableEq

def KvCommand.lowerName : KvCommand → String
  | .get => "get"
  | .set => "set"
  | .del => "del"
  | .incr => "incr"
  | .decr => "decr"
  | .setbit => "setbit"
  | .getbit => "getbit"
  | .strlen => "strlen"

def KvCommand.respCommand : KvCommand → RespCommand
  | .get => .get
  | .set => .set
  | .del => .del
  | .incr => .incr
  | .decr => .decr
  | .setbit => .setbit
  | .getbit => .getbit
  | .strlen => .strlen

/-- Whether the session is authenticated and whether its user may run the command. -/
structure Permission where
  authenticated : Bool
  permitted : Bool

def ungated : RespCommand → Bool
  | .auth | .quit => true
  | _ => false

def gateError (permission : Permission) (cmd : RespCommand) (args : List Bytes) : Option Bytes :=
  if 65536 < args.length then some (bytesOf "ERR excessive number of arguments")
  else if !permission.authenticated && !ungated cmd then
    some (bytesOf "NOAUTH Authentication required.")
  else if !ungated cmd && !permission.permitted then
    some (bytesOf "NOPERM this user has no permissions to run the '" ++
      bytesOf cmd.asStr ++ bytesOf "' command")
  else none

def bitOffsetOutOfRange : Bytes := bytesOf "ERR bit offset is not an integer or out of range"

def bitNotInteger : Bytes := bytesOf "ERR bit is not an integer or out of range"

/-- A bit offset: an integer from zero to `2 ^ 32 - 1`. -/
def readBitOffset (token : Bytes) : Option Nat :=
  (tryReadLong token).bind fun offset =>
    if 0 ≤ offset ∧ offset ≤ 4294967295 then some offset.toNat else none

def readBitExact (token : Bytes) : Option Bool :=
  if token = bytesOf "0" then some false else if token = bytesOf "1" then some true else none

def readBitParsed (token : Bytes) : Option Bool :=
  match tryReadInt token with
  | some 0 => some false
  | some 1 => some true
  | _ => none

structure SetOptions where
  expiryMs : Option Nat := none
  expiryAtMs : Option Nat := none
  keepTtl : Bool := false
  nx : Bool := false
  xx : Bool := false
  get : Bool := false

def saturatingMul (left right : Nat) : Nat := min (left * right) (2 ^ 64 - 1)

def SetOptions.expiryGiven (options : SetOptions) : Bool :=
  options.keepTtl || options.expiryMs.isSome || options.expiryAtMs.isSome

/-- The relative unit of `EX` and `PX` in milliseconds. -/
def relativeUnit (word : Bytes) : Option Nat :=
  if eqIgnoreAsciiCase word (bytesOf "EX") then some 1000
  else if eqIgnoreAsciiCase word (bytesOf "PX") then some 1
  else none

/-- The absolute unit of `EXAT` and `PXAT` in milliseconds. -/
def absoluteUnit (word : Bytes) : Option Nat :=
  if eqIgnoreAsciiCase word (bytesOf "EXAT") then some 1000
  else if eqIgnoreAsciiCase word (bytesOf "PXAT") then some 1
  else none

/-- The option loop of `parse_set_options`. -/
def parseSetOptions (options : SetOptions) : List Bytes → Except Bytes SetOptions
  | [] => .ok options
  | word :: rest =>
    match relativeUnit word, absoluteUnit word with
    | some unit, _ =>
      if options.expiryGiven then .error syntaxError
      else
        match rest with
        | [] => .error intOutOfRange
        | token :: rest =>
          match tryReadLong token with
          | none => .error intOutOfRange
          | some value =>
            if value ≤ 0 then .error (bytesOf "ERR invalid expire time in 'set' command")
            else parseSetOptions
              { options with expiryMs := some (saturatingMul value.toNat unit) } rest
    | none, some unit =>
      if options.expiryGiven then .error syntaxError
      else
        match rest with
        | [] => .error intOutOfRange
        | token :: rest =>
          match tryReadLong token with
          | none => .error intOutOfRange
          | some value => parseSetOptions
              { options with expiryAtMs := some (saturatingMul value.toNat unit) } rest
    | none, none =>
      if eqIgnoreAsciiCase word (bytesOf "NX") then
        if options.nx || options.xx then .error syntaxError
        else parseSetOptions { options with nx := true } rest
      else if eqIgnoreAsciiCase word (bytesOf "XX") then
        if options.nx || options.xx then .error syntaxError
        else parseSetOptions { options with xx := true } rest
      else if eqIgnoreAsciiCase word (bytesOf "GET") then
        parseSetOptions { options with get := true } rest
      else if eqIgnoreAsciiCase word (bytesOf "KEEPTTL") then
        if options.expiryGiven then .error syntaxError
        else parseSetOptions { options with keepTtl := true } rest
      else .error syntaxError

section

variable (session : StoreSession) (context : DecodeContext)

def errorText : CommandError → Bytes
  | .wrongType => wrongType
  | .notInteger => intOutOfRange
  | .indexOutOfRange => bytesOf "ERR index out of range"

def replyOf (result : Except CommandError Bytes × Store) : Bytes × Store :=
  match result with
  | (.ok reply, store) => (reply, store)
  | (.error error, store) => (writeError (errorText error), store)

def bulkOrNull : Option Bytes → Bytes
  | some value => writeBulkString value
  | none => writeNull

def executeSet (key value : Bytes) (options : SetOptions) : Command Bytes := do
  let old ← if options.get then readString session context key else pure none
  let present ← .total (session.containsKey context.now · key)
  if (options.nx && present) || (options.xx && !present) then return bulkOrNull old
  else
    match ← loadLiveMeta session context key with
    | some _ => .fail .wrongType
    | none =>
      let kept ← if options.keepTtl then .total (session.ttlOf context.now · key) else pure none
      .modify (session.upsert · key value)
      match options.expiryMs, options.expiryAtMs, kept with
      | some relative, _, _ =>
        .modify (session.expireAt context.now · key (min (context.now + relative) (2 ^ 64 - 1)))
      | none, some time, _ => .modify (session.expireAt context.now · key time)
      | none, none, some time => .modify (session.expireAt context.now · key time)
      | none, none, none => pure ()
      return if options.get then bulkOrNull old else writeOk

def deleteAll : List Bytes → Command Nat
  | [] => return 0
  | key :: rest => do
    let existed ← .total (session.delete context.now · key)
    let count ← deleteAll rest
    return (if existed then 1 else 0) + count

/-- The arms of `execute_single_command`. -/
def executeKv (command : KvCommand) (args : List Bytes) : Command Bytes :=
  match command, args with
  | .get, [key] => bulkOrNull <$> readString session context key
  | .set, key :: value :: rest =>
    match parseSetOptions {} rest with
    | .error text => return writeError text
    | .ok options => executeSet session context key value options
  | .del, key :: rest => (fun count : Nat => writeInteger count) <$>
      deleteAll session context (key :: rest)
  | .incr, [key] => writeInteger <$> incrby session context key 1
  | .decr, [key] => writeInteger <$> incrby session context key (-1)
  | .setbit, [key, offset, bit] =>
    match readBitOffset offset with
    | none => return writeError bitOffsetOutOfRange
    | some offset =>
      match readBitParsed bit with
      | none => return writeError bitNotInteger
      | some bit => (fun old : Nat => writeInteger old) <$> setbit session context key offset bit
  | .getbit, [key, offset] =>
    match readBitOffset offset with
    | none => return writeError bitOffsetOutOfRange
    | some offset => (fun bit : Nat => writeInteger bit) <$> getbit session context key offset
  | .strlen, [key] => (fun length : Nat => writeInteger length) <$> strlen session context key
  | command, _ => return writeError (wrongArity command.lowerName)

variable (permission : Permission)

def dispatch (command : KvCommand) (args : List Bytes) (store : Store) : Bytes × Store :=
  match gateError permission command.respCommand args with
  | some text => (writeError text, store)
  | none => replyOf ((executeKv session context command args).run store)

/-- What the fast path did: whether it handled the command, the reply and the store. -/
structure FastOutcome where
  handled : Bool
  reply : Bytes
  store : Store

variable (store : Store)

def FastOutcome.needsAsync : FastOutcome := ⟨false, [], store⟩

/-- `sync_ttl_expired`: a time to live record that is not in memory counts as no record. -/
def syncTtlExpired (key : Bytes) : Option Bool :=
  match session.probeTtl store key with
  | .hit expireAt => some (decide (expireAt ≤ context.now))
  | _ => some false

def tryReadStringInMemory (key : Bytes) : Except CommandError (Option (Option Bytes)) :=
  match session.probeData store key with
  | .hit bytes =>
    if looksLikeObject context bytes then .error .wrongType else .ok (some (some bytes))
  | _ => .ok none

def fastRead (key : Bytes) (present : Bytes → Bytes) (absent : Bytes) : FastOutcome :=
  match tryReadStringInMemory session context store key with
  | .ok (some (some bytes)) => ⟨true, present bytes, store⟩
  | .ok (some none) => ⟨true, absent, store⟩
  | _ => .needsAsync store

def fastEdit (key : Bytes) (edit : Bytes → Option Bytes) (answer : Bytes → Bytes) : FastOutcome :=
  match session.tryModifyInPlace store key edit with
  | (.edited bytes, after) => ⟨true, answer bytes, after⟩
  | (_, after) => .needsAsync after

def incrementReply (increment : Int) (bytes : Bytes) : Bytes :=
  match incremented increment bytes with
  | some new => writeInteger new
  | none => []

/-- The arms of `try_dispatch_sync`. -/
def fastKv (command : KvCommand) (args : List Bytes) (store : Store) : FastOutcome :=
  match command, args with
  | .get, [key] =>
    if syncTtlExpired session context store key = some false then
      fastRead session context store key writeBulkString writeNull
    else .needsAsync store
  | .set, [key, value] =>
    if session.checkObjectMetaFast store key = some false then
      match session.tryUpsertSync store key value with
      | some after => ⟨true, writeOk, after⟩
      | none => .needsAsync store
    else .needsAsync store
  | .del, [] => ⟨true, writeError (wrongArity "del"), store⟩
  | .del, [key] =>
    match session.tryDeleteSync context.now store key with
    | some (deleted, after) => ⟨true, writeInteger (if deleted then 1 else 0), after⟩
    | none => .needsAsync store
  | .incr, [key] => fastEdit session store key (incrementEdit 1) (incrementReply 1)
  | .decr, [key] => fastEdit session store key (incrementEdit (-1)) (incrementReply (-1))
  | .setbit, [key, offset, bit] =>
    match readBitOffset offset with
    | none => ⟨true, writeError bitOffsetOutOfRange, store⟩
    | some offset =>
      match readBitExact bit with
      | none => ⟨true, writeError bitNotInteger, store⟩
      | some bit =>
        fastEdit session store key (bitEdit offset bit) fun bytes =>
          writeInteger (bitAt offset bytes)
  | .getbit, [key, offset] =>
    match readBitOffset offset with
    | none => ⟨true, writeError bitOffsetOutOfRange, store⟩
    | some offset =>
      fastRead session context store key (fun bytes => writeInteger (bitAt offset bytes))
        (writeInteger 0)
  | .strlen, [key] =>
    fastRead session context store key (fun bytes => writeInteger bytes.length) (writeInteger 0)
  | _, _ => .needsAsync store

def tryDispatchSync (command : KvCommand) (args : List Bytes) (store : Store) : FastOutcome :=
  match gateError permission command.respCommand args with
  | some text => ⟨true, writeError text, store⟩
  | none => fastKv session context command args store

def serve (command : KvCommand) (args : List Bytes) (store : Store) : Bytes × Store :=
  let fast := tryDispatchSync session context permission command args store
  if fast.handled then (fast.reply, fast.store)
  else dispatch session context permission command args fast.store

variable {session context} in
theorem executeSet_plain {store : Store} {key : Bytes} (value : Bytes)
    (absent : (session.purge context.now store key key).liveCollection = none) :
    (executeSet session context key value {}).run store =
      (.ok writeOk, session.upsert (session.purge context.now store key) key value) := by
  have present : session.containsKey context.now store key =
      ((session.containsKey context.now store key).1, session.purge context.now store key) := by
    rw [session.containsKey_eq, StoreSession.purge]
    split <;> rfl
  have metadata := loadLiveMeta_run session context (session.purge context.now store key) key
  rw [session.purge_self_live, session.purge_purge, absent] at metadata
  unfold executeSet
  simp only [Bool.false_eq_true, if_false, Bool.false_and, Bool.or_self, pure_bind]
  rw [Fallible.bind_ok (Fallible.total_ok present), Fallible.bind_ok metadata]
  rfl

end

end Wedb.Server
