/-
What a connection works on: the users, the session of the client, and the context all sessions
share. What a session does is a computation over its turn, which also has the bytes written and a
record of the store accesses, which only statements look at.
-/

import Mathlib.Logic.Function.Basic
import Wedb.Fallible
import Wedb.RespCommand
import Wedb.Replication
import Wedb.StoreSession

namespace Wedb.Server

open Resp

structure User where
  authenticate : Bytes → Bool
  canExecute : RespCommand → Bool

def defaultUserName : Bytes := bytesOf "default"

/-- `AccessControlList`: the users in memory by namespace and name, those of the database, and the
error of a load. -/
structure AccessControlList where
  defaultUser : User
  defaultNamespace : Option Nat
  users : Option Nat → Bytes → Option User
  storage : Option Nat → Bytes → Except Bytes (Option User)

namespace AccessControlList

variable (acl : AccessControlList)

def getUser (ns : Option Nat) (name : Bytes) : Option User :=
  if ns = none ∧ name = defaultUserName then some acl.defaultUser else acl.users ns name

def canExecute (acl : AccessControlList) (ns : Option Nat) (name : Bytes) (cmd : RespCommand) :
    Bool :=
  (acl.getUser ns name).any (·.canExecute cmd)

def remember (ns : Option Nat) (name : Bytes) (user : User) : AccessControlList :=
  { acl with
    users := Function.update acl.users ns (Function.update (acl.users ns) name (some user)) }

def getUserAsync (ns : Option Nat) (name : Bytes) :
    Except Bytes (Option User) × AccessControlList :=
  match acl.getUser ns name with
  | some user => (.ok (some user), acl)
  | none =>
    match acl.storage ns name with
    | .ok (some user) => (.ok (some user), acl.remember ns name user)
    | result => (result, acl)

end AccessControlList

def maxTenantNamespace : Nat := 18446744073709550591

def validateUsername (name : Bytes) : Except Bytes Unit :=
  if name = [] ∨ 35 ∈ name then
    .error (bytesOf "ERR invalid username '" ++ name ++ bytesOf "'")
  else .ok ()

def parseTenantId (text : Bytes) : Except Bytes Nat :=
  match parseDigits text with
  | some number =>
    if 1 ≤ number ∧ number ≤ maxTenantNamespace then .ok number
    else .error (bytesOf "ERR invalid namespace '" ++ text ++ bytesOf "'")
  | none => .error (bytesOf "ERR invalid namespace '" ++ text ++ bytesOf "'")

def parseUserToken (token : Bytes) : Except Bytes (Bytes × Option Nat) :=
  let name := token.takeWhile (· ≠ 35)
  match token.dropWhile (· ≠ 35) with
  | [] => (validateUsername token).map fun _ => (token, none)
  | _ :: tenant => do
    validateUsername name
    let ns ← parseTenantId tenant
    return (name, some ns)

example : parseUserToken (bytesOf "alice#5") = .ok (bytesOf "alice", some 5) := by decide

/-- The fields of `ServerSession` that a command handler may change. -/
structure ClientState where
  id : Nat
  authenticated : Bool
  user : Option Bytes
  userNs : Option Nat
  asking : Bool
  isReadonly : Bool
  isSubscriptionSession : Bool
  activeDb : Nat
  isClosed : Bool

structure QueuedCommand where
  cmd : RespCommand
  args : List Bytes
  deriving DecidableEq

/-- `ServerSession`. The transaction is apart, so that a handler, which is given the rest, cannot
change it. -/
structure ServerSession extends ClientState where
  inTxn : Bool
  txnAborted : Bool
  txnQueue : List QueuedCommand

def ServerSession.new (id : Nat) (hasPassword : Bool) : ServerSession where
  id := id
  authenticated := !hasPassword
  user := none
  userNs := none
  asking := false
  isReadonly := false
  isSubscriptionSession := false
  activeDb := 0
  isClosed := false
  inTxn := false
  txnAborted := false
  txnQueue := []

def ClientState.setAuthenticated (client : ClientState) (user : Bytes) (ns : Option Nat) :
    ClientState :=
  { client with authenticated := true, user := some user, userNs := ns }

def ClientState.username (client : ClientState) : Bytes := client.user.getD defaultUserName

def ServerSession.resetTxn (session : ServerSession) : ServerSession :=
  { session with inTxn := false, txnAborted := false, txnQueue := [] }

/-- `ServerContext`: what sessions share. The store has a key space for each namespace and database;
nothing here looks into `World`. -/
structure ServerContext (World : Type) where
  requirepass : Bool
  acl : AccessControlList
  clustered : Bool
  repl : Repl.ReplicationManager
  hlogBegin : Nat
  hlogTail : Nat
  keyspace : Nat → Nat → Kv.Store
  world : World

namespace ServerContext

variable {World : Type} (context : ServerContext World)

def view (client : ClientState) : Kv.Store :=
  context.keyspace (client.userNs.getD 0) client.activeDb

def withView (client : ClientState) (store : Kv.Store) : ServerContext World :=
  let ns := client.userNs.getD 0
  { context with
    keyspace := Function.update context.keyspace ns
      (Function.update (context.keyspace ns) client.activeDb store) }

def permits (client : ClientState) (cmd : RespCommand) : Bool :=
  context.acl.canExecute client.userNs client.username cmd

end ServerContext

/-- The errors a command can end with. A panic ends the task of the connection. -/
inductive ServerError
  | wrongType
  | other (text : Bytes)
  | panic

structure Turn (World : Type) where
  context : ServerContext World
  session : ServerSession
  sendBuf : Bytes
  accesses : List RespCommand

abbrev Serve (World α : Type) := Fallible (Turn World) ServerError α

namespace Serve

variable {World : Type}

def write (bytes : Bytes) : Serve World Unit :=
  .modify fun turn => { turn with sendBuf := turn.sendBuf ++ bytes }

def modifyContext (change : ServerContext World → ServerContext World) : Serve World Unit :=
  .modify fun turn => { turn with context := change turn.context }

def modifySession (change : ServerSession → ServerSession) : Serve World Unit :=
  .modify fun turn => { turn with session := change turn.session }

def modifyClient (change : ClientState → ClientState) : Serve World Unit :=
  modifySession fun session => { session with toClientState := change session.toClientState }

abbrev clearAsking : Serve World Unit :=
  modifyClient fun client => { client with asking := false }

def access (cmd : RespCommand) : Serve World Unit :=
  .modify fun turn => { turn with accesses := turn.accesses ++ [cmd] }

def reads {α : Type} (observe : ServerContext World → ServerSession → α) : Serve World α :=
  .gets fun turn => observe turn.context turn.session

section

variable {α : Type} (turn : Turn World)

@[simp] theorem write_run (bytes : Bytes) :
    (write bytes).run turn = (.ok (), { turn with sendBuf := turn.sendBuf ++ bytes }) := rfl

@[simp] theorem modifySession_run (change : ServerSession → ServerSession) :
    (modifySession change).run turn = (.ok (), { turn with session := change turn.session }) :=
  rfl

@[simp] theorem reads_bind_run {β : Type} (observe : ServerContext World → ServerSession → α)
    (next : α → Serve World β) :
    (reads observe >>= next).run turn = (next (observe turn.context turn.session)).run turn :=
  rfl

@[simp] theorem write_bind_run (bytes : Bytes) (next : Unit → Serve World α) :
    (write bytes >>= next).run turn =
      (next ()).run { turn with sendBuf := turn.sendBuf ++ bytes } := rfl

@[simp] theorem modifySession_bind_run (change : ServerSession → ServerSession)
    (next : Unit → Serve World α) :
    (modifySession change >>= next).run turn =
      (next ()).run { turn with session := change turn.session } := rfl

end

end Serve

end Wedb.Server
