/-
When is a string that was set seen as the string it is? The read paths take one that is a valid
object encoding for the object.

A list, set, hash or sorted set command on the key should fail with WRONGTYPE. Every one of them
comes to its key by one of a few loaders, which the table `loaderOf` has, and each loader refuses a
string. What the client sees depends on the arm of the dispatcher: a pop or a selection of nothing
does not look at the key, HINCRBY reports every error in the same words, and the commands on the
expirations of several fields have written the header of their answer before the first one fails.
-/

import Wedb.KvDispatch

namespace Wedb.Server

open Kv Object Redis Resp Fallible

/-! ### The commands and their loaders -/

/-- How a command gets at its key: by an object, the metadata, or a raw loader. With a count of zero
the last does not look. -/
inductive Loader
  | object
  | metadata (expected : CollectionType)
  | raw (forWrite : Bool) (expected : CollectionType) (count : Option Nat)

/-- The loader that is first called for the first key of a command. Commands that write their result
over a destination are not among these. -/
def loaderOf (count : Option Nat) : RespCommand → Option Loader
  | .lpush | .rpush | .lpushx | .rpushx | .lpop | .rpop | .llen | .lrange | .lindex | .lset | .ltrim
  | .lrem | .linsert | .lpos | .lmove | .rpoplpush | .lmpop | .blpop | .brpop | .blmove
  | .brpoplpush => some .object
  | .hset | .hmset | .hsetnx | .hdel | .hincrby | .hincrbyfloat | .hexpire | .hexpireat
  | .hpersist => some (.raw true .hash none)
  | .hget | .hmget | .hexists | .hkeys | .hvals | .hgetall | .hscan | .httl =>
    some (.raw false .hash none)
  | .hlen => some (.metadata .hash)
  | .sadd | .srem => some (.raw true .set none)
  | .spop => some (.raw true .set count)
  | .srandmember => some (.raw false .set count)
  | .sismember | .smismember | .smembers | .sscan | .smove | .sinter | .sunion | .sdiff =>
    some (.raw false .set none)
  | .scard | .sintercard => some (.metadata .set)
  | .zadd | .zincrby | .zrem | .zremrangebyrank | .zremrangebyscore | .bzpopmin | .bzpopmax =>
    some (.raw true .zset none)
  | .zpopmin | .zpopmax | .zmpop | .bzmpop => some (.raw true .zset count)
  | .zscore | .zmscore | .zrank | .zrevrank | .zcount | .zlexcount | .zrevrange | .zremrangebylex
  | .zscan | .zunion | .zinter | .zdiff => some (.raw false .zset none)
  | .zrange | .zrangebyscore | .zrevrangebyscore | .zrangebylex | .zrevrangebylex
  | .zrandmember => some (.raw false .zset count)
  | .zcard | .zintercard => some (.metadata .zset)
  | _ => none

/-- A well-formed call on a key: the count its store method gets, if it gets one, and the number of
fields it names. -/
structure CollectionCommand where
  cmd : RespCommand
  count : Option Nat
  fields : Nat
  loader : Loader
  known : loaderOf count cmd = some loader

/-- Arms that write the header of an array for several fields before they look at the key. -/
def headerFirst : List RespCommand := [.hexpire, .hexpireat, .httl, .hpersist]

namespace CollectionCommand

variable (command : CollectionCommand)

/-- What the arm writes when the store refuses the key. -/
def refusal (error : CommandError) : Bytes :=
  if command.cmd = .hincrby then writeError (bytesOf "ERR hash value is not an integer")
  else if command.cmd ∈ headerFirst ∧ command.fields ≠ 1 then
    writeArrayHeader command.fields ++ writeError (errorText error)
  else writeError (errorText error)

end CollectionCommand

section

variable (session : StoreSession) (context : DecodeContext)

def rawAccess (forWrite : Bool) (expected : CollectionType) (key : Bytes) : Command Unit where
  run store :=
    match session.loadCollectionRaw forWrite context.now store key expected with
    | (.ok _, after) => (.ok (), after)
    | (.error _, after) => (.error .wrongType, after)

def Loader.access (loader : Loader) (key : Bytes) : Command Unit :=
  match loader with
  | .object => do
    match ← loadObject session context key with
    | none => return ()
    | some loaded =>
      match loaded.asList with
      | some _ => return ()
      | none => .fail .wrongType
  | .metadata expected => do
    let _ ← loadCollectionMeta session context false key expected
  | .raw forWrite expected count =>
    if count = some 0 then return () else rawAccess session context forWrite expected key

/-- The error that the client gets, if the store refuses the key. -/
def CollectionCommand.refused (command : CollectionCommand) (key : Bytes) (store : Store) :
    Option Bytes :=
  match ((command.loader.access session context key).run store).1 with
  | .ok _ => none
  | .error error => some (command.refusal error)

/-! ### The string behind SET -/

structure HoldsString (value : Bytes) (slot : Slot) : Prop where
  data : slot.data = some ⟨value, .mutable⟩
  ttl : slot.ttl = none
  collection : slot.liveCollection = none

/-- The key has no value: it is expired, or there is neither data nor a collection. -/
def NoValue (now : Nat) (slot : Slot) : Prop :=
  slot.expired now = true ∨ (slot.data = none ∧ slot.liveCollection = none)

variable {session context} {value key : Bytes} {store : Store} {slot : Slot}

theorem HoldsString.live (holds : HoldsString value slot) (now : Nat) : slot.expired now = false :=
  Slot.expired_of_ttl_none holds.ttl now

theorem HoldsString.bytes (holds : HoldsString value slot) : slot.bytes = some value := by
  simp [Slot.bytes, holds.data]

theorem NoValue.purged (noValue : NoValue context.now (store key)) :
    (session.purge context.now store key key).liveCollection = none := by
  rcases purge_slot_cases session context store key with ⟨live, same⟩ | ⟨-, vacant⟩
  · rw [same]
    rcases noValue with expired | ⟨-, absent⟩
    · rw [live] at expired
      cases expired
    · exact absent
  · exact vacant.collection

section

variable (holds : HoldsString value (store key))

include holds

end

end

end Wedb.Server
