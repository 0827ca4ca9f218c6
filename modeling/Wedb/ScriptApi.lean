/-
The host interface of scripts: what `redis.call` and `redis.pcall` do with the store, and how the
result is written. A script is a sequence of calls, each continued with its answer.
-/

import Wedb.KvDispatch
import Wedb.Program

namespace Wedb.Server

open Kv Object Redis Resp

inductive RespValue
  | status (text : Bytes)
  | error (text : Bytes)
  | integer (value : Int)
  | bulk (payload : Option Bytes)
  | array (items : List RespValue)

mutual

def writeRespValue : RespValue → Bytes
  | .status text => 43 :: (text ++ crlf)
  | .error text => writeError text
  | .integer value => writeInteger value
  | .bulk payload => bulkOrNull payload
  | .array items => writeArrayHeader items.length ++ writeRespValues items

def writeRespValues : List RespValue → Bytes
  | [] => []
  | item :: rest => writeRespValue item ++ writeRespValues rest

end

inductive LuaError
  | reply (text : Bytes)
  | scriptNotFound
  | other (text : Bytes)

def writeLuaError : LuaError → Bytes
  | .reply text => writeError text
  | .scriptNotFound => writeError (bytesOf "NOSCRIPT No matching script. Please use EVAL.")
  | .other text => writeError (bytesOf "ERR " ++ text)

structure ScriptCall where
  name : Bytes
  args : List Bytes

def ScriptCall.command (call : ScriptCall) : Option RespCommand :=
  lookupCore [("GET", .get), ("SET", .set), ("DEL", .del), ("EXISTS", .exists), ("INCR", .incr),
    ("DECR", .decr), ("INCRBY", .incrby), ("DECRBY", .decrby)] (call.name.map toAsciiUppercase)

abbrev ScriptProgram (Result : Type) :=
  Program ScriptCall (fun _ => Except Bytes RespValue) Result

def errNotResident : Bytes :=
  bytesOf "ERR script attempted to access a key not resident in memory"

section

variable (engine : StoreSession) (context : DecodeContext)

def scriptIncrement (cmd : RespCommand) (rest : List Bytes) : Option Int :=
  match cmd, rest with
  | .incr, _ => some 1
  | .decr, _ => some (-1)
  | .incrby, amount :: _ => if utf8Valid amount then parseInt64 amount else none
  | .decrby, amount :: _ =>
    if utf8Valid amount then
      (parseInt64 amount).map fun amount => if amount = -2 ^ 63 then amount else -amount
    else none
  | _, _ => none

def incrDecr (cmd : RespCommand) (args : List Bytes) (store : Store) :
    Except Bytes RespValue × Store :=
  match args with
  | [] => (.error wrongNumArgs, store)
  | key :: rest =>
    match scriptIncrement cmd rest with
    | none => (.error intOutOfRange, store)
    | some delta =>
      match tryReadStringInMemory engine context store key with
      | .ok (some current) =>
        match current.elim (some 0) fun bytes =>
            if utf8Valid bytes then parseInt64 bytes else none with
        | none => (.error intOutOfRange, store)
        | some current =>
          match asInt64 (current + delta) with
          | none => (.error (bytesOf "ERR increment or decrement would overflow"), store)
          | some new =>
            match engine.tryUpsertSync store key (formatInt new) with
            | some after => (.ok (.integer new), after)
            | none => (.error errNotResident, store)
      | _ => (.error errNotResident, store)

/-- `StoreScriptApi::call`. It asks neither the session nor the access control list. -/
def scriptApiCall (call : ScriptCall) (store : Store) : Except Bytes RespValue × Store :=
  let name := call.name.map toAsciiUppercase
  if name = bytesOf "PING" then (.ok (.status (bytesOf "PONG")), store)
  else if name = bytesOf "ECHO" then (.ok (.bulk (some (call.args.headD []))), store)
  else
    match call.command, call.args with
    | some .get, [] => (.error (wrongArity "get"), store)
    | some .get, key :: _ =>
      match tryReadStringInMemory engine context store key with
      | .ok (some value) => (.ok (.bulk value), store)
      | _ => (.ok (.error errNotResident), store)
    | some .set, key :: value :: _ =>
      match engine.checkObjectMetaFast store key with
      | some false =>
        match engine.tryUpsertSync store key value with
        | some after => (.ok (.status (bytesOf "OK")), after)
        | none => (.ok (.error errNotResident), store)
      | some true => (.error wrongType, store)
      | none => (.error errNotResident, store)
    | some .set, _ => (.error (wrongArity "set"), store)
    | some .del, [] => (.error (wrongArity "del"), store)
    | some .del, key :: _ =>
      match engine.tryDeleteSync context.now store key with
      | some (deleted, after) => (.ok (.integer (if deleted then 1 else 0)), after)
      | none => (.ok (.error errNotResident), store)
    | some .exists, [] => (.error (wrongArity "exists"), store)
    | some .exists, key :: _ =>
      match engine.probeData store key with
      | .hit _ => (.ok (.integer 1), store)
      | .absent => (.ok (.integer 0), store)
      | .unknown => (.ok (.error errNotResident), store)
    | some cmd, args => incrDecr engine context cmd args store
    | none, _ =>
      (.ok (.error (bytesOf "ERR unknown command '" ++ call.name ++ bytesOf "'")), store)

end

def splitKeysArgv (args : List Bytes) : Except Bytes (List Bytes × List Bytes) :=
  match args with
  | [] => .error (wrongArity "eval")
  | count :: rest =>
    match if utf8Valid count then parseInt64 count else none with
    | none => .error intOutOfRange
    | some numkeys =>
      if numkeys < 0 ∨ rest.length < numkeys.toNat then
        .error (bytesOf "ERR Number of keys can't be greater than number of args")
      else .ok (rest.take numkeys.toNat, rest.drop numkeys.toNat)

end Wedb.Server
