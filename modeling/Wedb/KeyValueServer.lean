/-
A small server from the parts that are written out: the reference engine, the key-value commands,
and an interpreter that knows one script.
-/

import Wedb.CommandDispatcher

namespace Wedb.Server

open Kv Object Resp

def KvCommand.ofRespCommand : RespCommand → Option KvCommand
  | .get => some .get
  | .set => some .set
  | .del => some .del
  | .incr => some .incr
  | .decr => some .decr
  | .setbit => some .setbit
  | .getbit => some .getbit
  | .strlen => some .strlen
  | _ => none

namespace KeyValueServer

/-- The clock of the server stands still, and no score is read. -/
def decode : DecodeContext := ⟨0, fun _ => false⟩

def fast (context : ServerContext Unit) (client : ClientState) (cmd : RespCommand)
    (args : List Bytes) : Execution Unit × Bool :=
  match KvCommand.ofRespCommand cmd with
  | some command =>
    let outcome := fastKv .reference decode command args (context.view client)
    (⟨context.withView client outcome.store, client, outcome.reply, .ok ()⟩, outcome.handled)
  | none => (⟨context, client, [], .ok ()⟩, false)

def execute (context : ServerContext Unit) (client : ClientState) (cmd : RespCommand)
    (args : List Bytes) : Execution Unit :=
  match KvCommand.ofRespCommand cmd with
  | some command =>
    let outcome := replyOf ((executeKv .reference decode command args).run (context.view client))
    ⟨context.withView client outcome.2, client, outcome.1, .ok ()⟩
  | none => ⟨context, client, writeOk, .ok ()⟩

def getScript : Bytes := bytesOf "return redis.call('GET',KEYS[1])"

/-- Runs `getScript`; any other text returns nothing. -/
def script (text : Bytes) (keys : List Bytes) : ScriptProgram (Except LuaError RespValue × Unit) :=
  if text = getScript then
    .step ⟨bytesOf "GET", keys.take 1⟩ fun answer => .done (answer.mapError LuaError.reply, ())
  else .done (.ok (.bulk none), ())

def backend : Backend Unit where
  engine := .reference
  decode _ := decode
  readsDouble token := (parseInt64 token).isSome
  fast := fast
  execute := execute
  verifyKeys _ _ _ _ _ := .ok
  hashKey key := key.length
  acquireHashLocks _ _ := .ok ()
  script _ _ text keys _ := script text keys
  exampleLoaded _ := false

def user (password : String) (commands : List RespCommand) : User where
  authenticate given := given == bytesOf password
  canExecute cmd := commands.contains cmd

def replication : Repl.ReplicationManager where
  role := .primary
  history := ⟨.empty, .empty, 0, 0⟩
  backlog := ⟨[], 0, 0, 0⟩

def context (requirepass : Bool) (commands : List RespCommand) (store : Store) :
    ServerContext Unit where
  requirepass := requirepass
  acl := ⟨user "secret" commands, none, fun _ _ => none, fun _ _ => .ok none⟩
  clustered := false
  repl := replication
  hlogBegin := 64
  hlogTail := 64
  keyspace _ _ := store
  world := ()

def holding (key value : Bytes) : Store := fun other =>
  if other = key then ⟨some ⟨value, .mutable⟩, none, none⟩ else .empty

end KeyValueServer

end Wedb.Server
