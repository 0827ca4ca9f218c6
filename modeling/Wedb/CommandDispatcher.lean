/-
The command dispatcher: the gates, the queue of a transaction, authentication, scripts, and the
split between the synchronous and the asynchronous path. The other handlers, the cluster topology,
the bucket locks and the script interpreter are parameters.
-/

import Wedb.CommandSyntax
import Wedb.ScriptApi
import Wedb.ServerSession

namespace Wedb.Server

open Kv Object Resp

structure Execution (World : Type) where
  context : ServerContext World
  client : ClientState
  reply : Bytes
  result : Except ServerError Unit

inductive RouteResult
  | ok
  | moved (slot : Nat) (endpoint : Bytes)
  | ask (slot : Nat) (endpoint : Bytes)
  | crossSlot
  | clusterDown
  deriving DecidableEq

/-- What the dispatcher calls. -/
structure Backend (World : Type) where
  /-- The storage engine. -/
  engine : StoreSession
  /-- The clock and what the decoding of a stored object depends on. -/
  decode : ServerContext World → DecodeContext
  /-- The tokens `try_read_double` accepts as a finite number. -/
  readsDouble : Bytes → Bool
  /-- The synchronous arms of the store commands, and whether the command is done. -/
  fast : ServerContext World → ClientState → RespCommand → List Bytes → Execution World × Bool
  /-- The arms of `execute_single_command`, for commands that return: one that waits for another
  client has no outcome here. -/
  execute : ServerContext World → ClientState → RespCommand → List Bytes → Execution World
  /-- `verify_key` and `verify_keys` of the cluster manager. -/
  verifyKeys : ServerContext World → List Bytes → Bool → Bool → Bool → RouteResult
  /-- The hash of a key, by which its bucket is locked. -/
  hashKey : Bytes → Nat
  acquireHashLocks : ServerContext World → List (Nat × Bool) → Except ServerError Unit
  /-- The script engine: what EVAL runs for a text and EVALSHA for a digest. -/
  script : ServerContext World → RespCommand → Bytes → List Bytes → List Bytes →
    ScriptProgram (Except LuaError RespValue × World)
  /-- Whether the example module is loaded; it is the only one the server contains. -/
  exampleLoaded : ServerContext World → Bool

namespace CommandDispatcher

variable {World : Type}

open Serve

def perform (handler : ServerContext World → ClientState → Execution World) : Serve World Unit :=
  ⟨fun turn =>
    let done := handler turn.context turn.session.toClientState
    (done.result,
      { turn with
        context := done.context
        session := { turn.session with toClientState := done.client }
        sendBuf := turn.sendBuf ++ done.reply })⟩

/-- `from_utf8(..).unwrap_or("")`. -/
def textOrEmpty (bytes : Bytes) : Bytes := if utf8Valid bytes then bytes else []

def wrongPass : Bytes :=
  bytesOf "WRONGPASS invalid username-password pair or user is disabled."

def writeErrLine (text : Bytes) : Bytes :=
  if (bytesOf "ERR ").isPrefixOf text then writeError text
  else writeError (bytesOf "ERR " ++ text)

def bindSession (accepted : Bool) (name : Bytes) (ns : Option Nat) : Serve World Unit := do
  if accepted then
    modifyClient (·.setAuthenticated name ns)
    write writeOk
  else write (writeError wrongPass)

def authDefault (password : Bytes) : Serve World Unit := do
  let acl ← reads fun context _ => context.acl
  bindSession (acl.defaultUser.authenticate (textOrEmpty password)) defaultUserName
    acl.defaultNamespace

/-- `auth_and_bind_session` with the replies of AUTH. -/
def authAndBindSession (token password : Bytes) : Serve World Unit :=
  match parseUserToken (textOrEmpty token) with
  | .error text => write (writeErrLine text)
  | .ok (name, ns) => do
    let acl ← reads fun context _ => context.acl
    let found := acl.getUserAsync ns name
    modifyContext fun context => { context with acl := found.2 }
    match found.1 with
    | .ok user => bindSession (user.any (·.authenticate (textOrEmpty password))) name ns
    | .error text => write (writeErrLine text)

variable (args : List Bytes)

/-- The AUTH arm of `execute_single_command`. -/
def executeAuth : Serve World Unit :=
  match args with
  | [password] => authDefault password
  | [token, password] => authAndBindSession token password
  | _ => write (writeError (wrongArity "auth"))

/-- The AUTH arm of the synchronous path, for users in memory. -/
def syncAuth : Serve World Bool :=
  match args with
  | [password] => do
    authDefault password
    return true
  | [token, password] =>
    match parseUserToken (textOrEmpty token) with
    | .error text => do
      write (writeErrLine text)
      return true
    | .ok (name, ns) => do
      let acl ← reads fun context _ => context.acl
      match acl.getUser ns name with
      | some user =>
        bindSession (user.authenticate (textOrEmpty password)) name ns
        return true
      | none => return false
  | _ => do
    write (writeError (wrongArity "auth"))
    return true

variable (backend : Backend World)

def scriptStep (call : ScriptCall) (turn : Turn World) : Except Bytes RespValue × Turn World :=
  let client := turn.session.toClientState
  let outcome := scriptApiCall backend.engine (backend.decode turn.context) call
    (turn.context.view client)
  (outcome.1,
    { turn with
      context := turn.context.withView client outcome.2
      accesses := turn.accesses ++ call.command.toList })

def finishScript (outcome : Except LuaError RespValue × World) : Serve World Unit := do
  modifyContext fun context => { context with world := outcome.2 }
  match outcome.1 with
  | .ok value => write (writeRespValue value)
  | .error error => write (writeLuaError error)

/-- The EVAL and EVALSHA arms of `dispatch_scripts`. -/
def evalScript (cmd : RespCommand) (name : String) (args : List Bytes) : Serve World Unit :=
  match args with
  | script :: count :: rest =>
    match splitKeysArgv (count :: rest) with
    | .error text => write (writeError text)
    | .ok (keys, argv) => do
      let outcome ← .total fun turn =>
        (backend.script turn.context cmd (fromUtf8Lossy script) keys argv).run
          (scriptStep backend) turn
      finishScript outcome
  | _ => write (writeError (wrongArity name))

/-- The arms of `execute_single_command`. -/
def executeArm (cmd : RespCommand) (args : List Bytes) : Serve World Unit :=
  match cmd with
  | .quit => do
    modifyClient fun client => { client with isClosed := true }
    write writeOk
  | .auth => executeAuth args
  | .eval => evalScript backend .eval "eval" args
  | .evalsha => evalScript backend .evalsha "evalsha" args
  | cmd => perform fun context client => backend.execute context client cmd args

/-- `execute_single_command`, with the record of the access. -/
def executeSingleCommand (cmd : RespCommand) (args : List Bytes) : Serve World Unit := do
  access cmd
  executeArm backend cmd args

def permission (context : ServerContext World) (session : ServerSession) (cmd : RespCommand) :
    Permission :=
  ⟨session.authenticated, context.permits session.toClientState cmd⟩

def gate (context : ServerContext World) (session : ServerSession) (cmd : RespCommand)
    (args : List Bytes) : Option Bytes :=
  gateError (permission context session cmd) cmd args

def hasFastArm : RespCommand → Bool
  | .ping | .select | .echo | .get | .set | .del | .incr | .decr | .setbit | .getbit | .strlen =>
    true
  | _ => false

/-- The arms of `try_dispatch_sync`. -/
def fastArm (cmd : RespCommand) (args : List Bytes) : Serve World Bool :=
  match cmd with
  | .auth => syncAuth args
  | .quit => do
    modifyClient fun client => { client with isClosed := true }
    write writeOk
    return true
  | _ =>
    if hasFastArm cmd then do
      access cmd
      let done ← reads fun context session =>
        (backend.fast context session.toClientState cmd args).2
      perform fun context client => (backend.fast context client cmd args).1
      return done
    else return false

/-- `try_dispatch_sync`: whether the command is done. -/
def tryDispatchSync (cmd : RespCommand) (args : List Bytes) : Serve World Bool := do
  if cmd = .none then return true
  else
    match ← reads fun context session => gate context session cmd args with
    | some text =>
      write (writeError text)
      return true
    | none =>
      if ← reads fun context session => session.inTxn || context.clustered then return false
      else fastArm backend cmd args

def runsInTransaction (cmd : RespCommand) : Bool :=
  cmd = .exec ∨ cmd = .discard ∨ cmd = .multi ∨ cmd = .quit

/-- What `dispatch` does with a command inside a transaction. -/
def queueCommand (cmd : RespCommand) (args : List Bytes) : Serve World Unit := do
  if cmd = .watch then write (writeError (bytesOf "ERR WATCH inside MULTI is not allowed"))
  else if ← reads fun _ session => isDbSwitch cmd args session.activeDb then
    modifySession fun session => { session with txnAborted := true }
    write (writeError (bytesOf "ERR switching databases inside a transaction is not allowed"))
  else
    match validateCommandSyntax backend.readsDouble cmd args with
    | none => .fail .panic
    | some (.error text) =>
      modifySession fun session => { session with txnAborted := true }
      write (writeError text)
    | some (.ok ()) =>
      modifySession fun session =>
        { session with txnQueue := session.txnQueue ++ [⟨cmd, args⟩] }
      write writeQueued

/-- The MULTI arm of `execute_command`. -/
def executeMulti : Serve World Unit := do
  if args ≠ [] then write (writeError (wrongArity "multi"))
  else if ← reads fun _ session => session.inTxn then
    write (writeError (bytesOf "ERR MULTI calls can not be nested"))
  else
    modifySession fun session =>
      { session with inTxn := true, txnAborted := false, txnQueue := [] }
    write writeOk

/-- The DISCARD arm of `execute_command`. -/
def executeDiscard : Serve World Unit := do
  if args ≠ [] then write (writeError (wrongArity "discard"))
  else if ← reads fun _ session => !session.inTxn then
    write (writeError (bytesOf "ERR DISCARD without MULTI"))
  else
    modifySession ServerSession.resetTxn
    write writeOk

def lockableKeys : CommandKeys → List Bytes
  | .none => []
  | .single key => [key].filter (· ≠ [])
  | .several keys => keys.filter (· ≠ [])

def lockItems (queue : List QueuedCommand) : List (Nat × Bool) :=
  queue.flatMap fun item => (lockableKeys (extractKeys item.cmd item.args)).map fun key =>
    (backend.hashKey key, !isReadCommand item.cmd)

def replyWrongType (action : Serve World Unit) : Serve World Unit :=
  ⟨fun turn =>
    match action.run turn with
    | (.error .wrongType, after) => (write (writeError wrongType)).run after
    | outcome => outcome⟩

def runQueue (backend : Backend World) : List QueuedCommand → Serve World Unit
  | [] => pure ()
  | item :: rest => do
    replyWrongType (executeSingleCommand backend item.cmd item.args)
    runQueue backend rest

def execAbort : Bytes := bytesOf "EXECABORT Transaction discarded because of previous errors."

/-- The EXEC arm of `execute_command`. -/
def executeExec (args : List Bytes) : Serve World Unit := do
  if args ≠ [] then write (writeError (wrongArity "exec"))
  else if ← reads fun _ session => !session.inTxn then
    write (writeError (bytesOf "ERR EXEC without MULTI"))
  else if ← reads fun _ session => session.txnAborted then
    modifySession ServerSession.resetTxn
    write (writeError execAbort)
  else
    let queue ← reads fun _ session => session.txnQueue
    modifySession fun session => { session with txnQueue := [], inTxn := false }
    let items := lockItems backend queue
    match ← reads fun context _ =>
        if items = [] then .ok () else backend.acquireHashLocks context items with
    | .error error => .fail error
    | .ok () =>
      write (writeArrayHeader queue.length)
      runQueue backend queue

def executeCommand (cmd : RespCommand) (args : List Bytes) : Serve World Unit :=
  match cmd with
  | .multi => executeMulti args
  | .discard => executeDiscard args
  | .exec => executeExec backend args
  | _ => executeSingleCommand backend cmd args

def redirect (reply : Bytes) : Serve World Bool := do
  clearAsking
  write reply
  return false

/-- The text of MOVED and ASK. -/
def redirection (word : String) (slot : Nat) (endpoint : Bytes) : Bytes :=
  bytesOf word ++ formatNat slot ++ bytesOf " " ++ endpoint ++ crlf

def routeKeys (cmd : RespCommand) (keys : List Bytes) : Serve World Bool := do
  let keyExists ← .total fun turn =>
    let client := turn.session.toClientState
    let found := backend.engine.containsKey (backend.decode turn.context).now
      (turn.context.view client) (keys.headD [])
    (found.1, { turn with context := turn.context.withView client found.2 })
  match ← reads fun context session => backend.verifyKeys context keys keyExists session.asking
      (session.isReadonly && isReadCommand cmd) with
  | .ok => return true
  | .moved slot endpoint => redirect (redirection "-MOVED " slot endpoint)
  | .ask slot endpoint => redirect (redirection "-ASK " slot endpoint)
  | .crossSlot =>
    redirect (writeError (bytesOf "CROSSSLOT Keys in request don't hash to the same slot"))
  | .clusterDown => redirect (writeError (bytesOf "CLUSTERDOWN Hash slot not served"))

/-- The cluster routing of `dispatch`. -/
def route (cmd : RespCommand) (args : List Bytes) : Serve World Bool := do
  if ← reads fun context _ => context.clustered then
    match extractKeys cmd args with
    | .none | .several [] => return true
    | .single key => routeKeys backend cmd [key]
    | .several keys => routeKeys backend cmd keys
  else return true

def dispatch (cmd : RespCommand) (args : List Bytes) : Serve World Unit := do
  if cmd = .none then pure ()
  else
    match ← reads fun context session => gate context session cmd args with
    | some text => write (writeError text)
    | none =>
      if ← reads fun _ session => session.inTxn && !runsInTransaction cmd then
        queueCommand backend cmd args
      else if ← route backend cmd args then
        executeCommand backend cmd args
        clearAsking

def serve (cmd : RespCommand) (args : List Bytes) : Serve World Unit := do
  if ← tryDispatchSync backend cmd args then pure () else dispatch backend cmd args

section Runs

variable (backend : Backend World) {cmd : RespCommand} {args : List Bytes} {turn : Turn World}

theorem tryDispatchSync_refused {text : Bytes} (known : cmd ≠ .none)
    (refused : gate turn.context turn.session cmd args = some text) :
    (tryDispatchSync backend cmd args).run turn =
      (.ok true, { turn with sendBuf := turn.sendBuf ++ writeError text }) := by
  simp only [tryDispatchSync, if_neg known, reads_bind_run, refused]
  rfl

theorem serve_refused {text : Bytes} (known : cmd ≠ .none)
    (refused : gate turn.context turn.session cmd args = some text) :
    (serve backend cmd args).run turn =
      (.ok (), { turn with sendBuf := turn.sendBuf ++ writeError text }) :=
  Fallible.bind_ok (tryDispatchSync_refused backend known refused)

theorem serve_handedOver {after : Turn World}
    (undecided : (tryDispatchSync backend cmd args).run turn = (.ok false, after)) :
    (serve backend cmd args).run turn = (dispatch backend cmd args).run after :=
  Fallible.bind_ok undecided

section

variable (known : cmd ≠ .none) (granted : gate turn.context turn.session cmd args = none)

include known granted

theorem tryDispatchSync_async (async : (turn.session.inTxn || turn.context.clustered)) :
    (tryDispatchSync backend cmd args).run turn = (.ok false, turn) := by
  simp only [tryDispatchSync, if_neg known, reads_bind_run, granted, async, if_true]
  rfl

theorem tryDispatchSync_fast (sync : (turn.session.inTxn || turn.context.clustered) = false) :
    (tryDispatchSync backend cmd args).run turn = (fastArm backend cmd args).run turn := by
  simp only [tryDispatchSync, if_neg known, reads_bind_run, granted, sync, Bool.false_eq_true,
    if_false]

theorem dispatch_queue (inTxn : turn.session.inTxn) (queued : runsInTransaction cmd = false) :
    (dispatch backend cmd args).run turn = (queueCommand backend cmd args).run turn := by
  simp [dispatch, known, granted, inTxn, queued]

theorem dispatch_keyless (direct : (turn.session.inTxn && !runsInTransaction cmd) = false)
    (keyless : extractKeys cmd args = .none) :
    (dispatch backend cmd args).run turn =
      (do executeCommand backend cmd args; clearAsking).run turn := by
  have routed : (route backend cmd args).run turn = (.ok true, turn) := by
    simp only [route, keyless, reads_bind_run]
    split <;> rfl
  simp only [dispatch, if_neg known, reads_bind_run, granted, direct, Bool.false_eq_true, if_false]
  rw [Fallible.bind_ok routed, if_pos rfl]

theorem serve_keyless (notAuth : cmd ≠ .auth) (notQuit : cmd ≠ .quit)
    (slow : hasFastArm cmd = false) (keyless : extractKeys cmd args = .none)
    (direct : (turn.session.inTxn && !runsInTransaction cmd) = false) :
    (serve backend cmd args).run turn =
      (do executeCommand backend cmd args; clearAsking).run turn := by
  have undecided : (tryDispatchSync backend cmd args).run turn = (.ok false, turn) := by
    cases async : turn.session.inTxn || turn.context.clustered with
    | true => exact tryDispatchSync_async backend known granted async
    | false =>
      rw [tryDispatchSync_fast backend known granted async]
      unfold fastArm
      split
      · exact absurd rfl notAuth
      · exact absurd rfl notQuit
      · rw [slow]
        rfl
  rw [serve_handedOver backend undecided, dispatch_keyless backend known granted direct keyless]

end

theorem serve_control (control : cmd = .multi ∨ cmd = .exec ∨ cmd = .discard)
    (granted : gate turn.context turn.session cmd args = none) :
    (serve backend cmd args).run turn =
      (do executeCommand backend cmd args; clearAsking).run turn := by
  have direct : (turn.session.inTxn && !runsInTransaction cmd) = false := by
    rcases control with rfl | rfl | rfl <;> exact Bool.and_false _
  have keyless : extractKeys cmd args = .none := by
    rcases control with rfl | rfl | rfl <;> cases args <;> rfl
  rcases control with rfl | rfl | rfl <;>
    exact serve_keyless backend (by decide) granted (by decide) (by decide) rfl keyless direct

def takeQueue (turn : Turn World) : Turn World :=
  { turn with session := { turn.session with txnQueue := [], inTxn := false } }

def beginQueue (turn : Turn World) : Turn World :=
  { takeQueue turn with
    sendBuf := turn.sendBuf ++ writeArrayHeader turn.session.txnQueue.length }

theorem executeExec_cases (inTxn : turn.session.inTxn)
    (unaborted : turn.session.txnAborted = false) :
    (∃ error, (executeExec backend []).run turn = (.error error, takeQueue turn)) ∨
      (executeExec backend []).run turn =
        (runQueue backend turn.session.txnQueue).run (beginQueue turn) := by
  rw [executeExec, if_neg (not_not_intro rfl), reads_bind_run, if_neg (by simp [inTxn]),
    reads_bind_run, if_neg (by simp [unaborted]), reads_bind_run, modifySession_bind_run]
  rw [reads_bind_run]
  split
  · exact .inl ⟨_, rfl⟩
  · exact .inr rfl

theorem executeExec_aborted (inTxn : turn.session.inTxn) (aborted : turn.session.txnAborted) :
    (executeExec backend []).run turn = (.ok (), { turn with
      session := turn.session.resetTxn
      sendBuf := turn.sendBuf ++ writeError execAbort }) := by
  rw [executeExec, if_neg (not_not_intro rfl), reads_bind_run, if_neg (by simp [inTxn]),
    reads_bind_run, if_pos aborted]
  rfl

end Runs

end CommandDispatcher

end Wedb.Server
