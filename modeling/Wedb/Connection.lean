/-
The loop that serves one connection: cutting the received bytes into requests, answering them, and
the look-ahead over pipelined reads. The loops of the source are runs of a machine that reads or
serves one request at a time.
-/

import Mathlib.Logic.Relation
import Wedb.CommandDispatcher
import Wedb.ParseState

namespace Wedb.Server

open Kv Object Redis Resp Repl CommandDispatcher Serve

variable {World : Type}

/-- What a frame asks for: a command of the table, of a replica, or one unknown to both, with the
bytes there. -/
inductive ClientRequest
  | command (cmd : RespCommand) (args : List Bytes)
  | replica (command : ReplicaCommand)
  | unknown (name : Bytes) (input : Bytes)

inductive Frame
  | incomplete
  | malformed (error : RespError)
  | ready (request : ClientRequest) (consumed : Nat) (mru : SessionMruCache)

variable (input : Bytes)

/-- `skip_unknown_command`: the length of a frame whose command is unknown. -/
def skipUnknownCommand : Except RespError Nat :=
  match input with
  | [] => .error .incomplete
  | first :: _ =>
    if first = 42 then
      match tryReadSignedLengthHeader input 42 with
      | .error error => .error error
      | .ok (none, headerLength) => .ok headerLength
      | .ok (some arrayLength, headerLength) =>
        (readArguments arrayLength (input.drop headerLength)).map fun (_, rest) =>
          input.length - rest.length
    else
      match findLineEnd input with
      | some position => .ok (position + 2)
      | none => .error .incomplete

/-- The parser, and for an unknown name that of the replica commands. -/
def readFrame (mru : SessionMruCache) : Frame :=
  match (parseSessionCommand input mru).result with
  | .ok parsed =>
    .ready (.command parsed.cmd parsed.args) parsed.consumed (parseSessionCommand input mru).mru
  | .error .incomplete => .incomplete
  | .error (.unknownCommand name) =>
    match parseReplicaCommand input with
    | .ok (some (command, consumed)) => .ready (.replica command) consumed mru
    | _ =>
      match skipUnknownCommand input with
      | .ok length => .ready (.unknown name input) length mru
      | .error .incomplete => .incomplete
      | .error error => .malformed error
  | .error error => .malformed error

def protocolErrorText : RespError → Bytes
  | .integerOverflow => bytesOf "IntegerOverflow"
  | .notANumber => bytesOf "NotANumber"
  | .invalidLength length => bytesOf "InvalidLength(" ++ formatInt length ++ bytesOf ")"
  | .unexpectedToken byte => bytesOf "UnexpectedToken(" ++ formatNat byte.toNat ++ bytesOf ")"
  | .incomplete => bytesOf "Incomplete"
  | .unknownCommand name => bytesOf "UnknownCommand(\"" ++ name ++ bytesOf "\")"
  | .excessiveArgs count limit =>
    bytesOf "ExcessiveArgs(" ++ formatNat count ++ bytesOf ", " ++ formatNat limit ++ bytesOf ")"
  | .protocol message => bytesOf "Protocol(\"" ++ bytesOf message ++ bytesOf "\")"

def psyncReply (context : ServerContext World) (replid : ReplId) (offset : Int) : Bytes :=
  match handlePsync context.repl replid.bytes offset context.hlogBegin context.hlogTail with
  | .ok (.partialResync replid startOffset) =>
    let (first, second) := context.repl.backlog.slices startOffset (2 ^ 64 - 1)
    bytesOf "+CONTINUE " ++ replid.bytes ++ crlf ++ first ++ second
  | .ok (.fullResync replid snapshotOffset) =>
    bytesOf "+FULLRESYNC " ++ replid.bytes ++ bytesOf " " ++ formatNat snapshotOffset ++ crlf
  | .error error => writeError (bytesOf "ERR " ++ error.display)

def replicaReply (context : ServerContext World) : ReplicaCommand → Bytes
  | .replConf _ => writeOk
  | .psync replid offset => psyncReply context replid offset
  | .ping => writePong
  | .auth _ => writeOk

variable (backend : Backend World)

def moduleProcedure (context : ServerContext World) (name : Bytes) :
    Option (ScriptProgram (Except Bytes Bytes)) :=
  if backend.exampleLoaded context = true ∧ name = bytesOf "example.ping" then
    some (.step ⟨bytesOf "PING", []⟩ fun answer => .done (answer.map writeRespValue))
  else none

def sliceAll : Nat → Bytes → List Bytes × Bytes
  | 0, input => ([], input)
  | fuel + 1, input =>
    if input = [] then ([], [])
    else
      match trySliceWithLengthHeader input with
      | .error _ => ([], input)
      | .ok (argument, used) =>
        let (arguments, rest) := sliceAll fuel (input.drop used)
        (argument :: arguments, rest)

def isModuleCall : Bool :=
  match tryReadSignedLengthHeader input 42 with
  | .ok (some _, headerLength) =>
    match sliceAll input.length (input.drop headerLength) with
    | (_ :: _, []) => true
    | _ => false
  | _ => false

def tryRouteModuleCommand (name input : Bytes) : Serve World Bool := do
  match ← reads fun context _ => moduleProcedure backend context name with
  | none => return false
  | some procedure =>
    if isModuleCall input then
      match ← .total (procedure.run (scriptStep backend)) with
      | .ok out => write out
      | .error text => write (writeError text)
      return true
    else return false

def routeUnknown (name input : Bytes) : Serve World Bool := do
  if ← reads fun _ session => session.authenticated && !session.inTxn then
    tryRouteModuleCommand backend name input
  else return false

def unknownCommandText (authenticated : Bool) (name : Bytes) : Bytes :=
  if authenticated then bytesOf "ERR unknown command '" ++ name ++ bytesOf "'"
  else bytesOf "NOAUTH Authentication required."

def refuseUnknown (name : Bytes) : Serve World Unit := do
  modifySession fun session =>
    { session with txnAborted := session.txnAborted || session.inTxn }
  let authenticated ← reads fun _ session => session.authenticated
  write (writeError (unknownCommandText authenticated name))

def serveUnknown (name input : Bytes) : Serve World Unit := do
  if ← routeUnknown backend name input then pure () else refuseUnknown name

def serveRequest : ClientRequest → Serve World Unit
  | .command cmd args => CommandDispatcher.serve backend cmd args
  | .replica command => do write (← reads fun context _ => replicaReply context command)
  | .unknown name input => serveUnknown backend name input

def settle : Except ServerError Unit × Turn World → Turn World × Bool
  | (.ok (), turn) => (turn, true)
  | (.error .wrongType, turn) =>
    ({ turn with sendBuf := turn.sendBuf ++ writeError wrongType }, true)
  | (.error (.other text), turn) =>
    ({ turn with sendBuf := turn.sendBuf ++ writeError (bytesOf "ERR Dispatch error: " ++ text) },
      false)
  | (.error .panic, turn) => (turn, false)

def answer (request : ClientRequest) (turn : Turn World) : Turn World × Bool :=
  settle ((serveRequest backend request).run turn)

def lookAheadGet : Option (Bytes × Nat) :=
  if input.length < 13 ∨ input.take 8 ≠ bytesOf "*2\r\n$3\r\n" ∨
      eqIgnoreAsciiCase ((input.drop 8).take 3) (bytesOf "GET") = false ∨
      (input.drop 11).take 2 ≠ crlf then none
  else
    match trySliceWithLengthHeader (input.drop 13) with
    | .ok (key, used) => some (key, 13 + used)
    | .error _ => none

def speculativeGet (key : Bytes) : Serve World Unit := do
  access .get
  let reply ← .total fun turn =>
    let client := turn.session.toClientState
    let decode := backend.decode turn.context
    let store := turn.context.view client
    match (if syncTtlExpired backend.engine decode store key = some false then
        tryReadStringInMemory backend.engine decode store key else .ok none) with
    | .ok (some value) => (bulkOrNull value, turn)
    | _ =>
      let outcome := (readString backend.engine decode key).run store
      (match outcome.1 with
        | .ok value => bulkOrNull value
        | .error error => writeError (errorText error),
        { turn with context := turn.context.withView client outcome.2 })
  write reply

/-- `speculative_pipeline_get`: the turn and the bytes behind the GET frames, which pass no gate. -/
def speculativePipelineGet (backend : Backend World) :
    Nat → Bytes → Turn World → Turn World × Bytes
  | 0, input, turn => (turn, input)
  | fuel + 1, input, turn =>
    match lookAheadGet input with
    | none => (turn, input)
    | some (key, used) =>
      speculativePipelineGet backend fuel (input.drop used)
        ((speculativeGet backend key).run turn).2

def looksAhead (request : ClientRequest) (turn : Turn World) : Bool :=
  match request with
  | .command .get _ =>
    !turn.session.inTxn && turn.session.authenticated && !turn.context.clustered
  | _ => false

inductive Phase
  | reading
  | serving
  | ended
  deriving DecidableEq

/-- A connection: the turn of its session, the bytes not yet used, and recent headers. -/
structure Connection (World : Type) where
  turn : Turn World
  recvBuf : Bytes
  mru : SessionMruCache
  phase : Phase

namespace Connection

def accept (context : ServerContext World) (id : Nat) : Connection World where
  turn := ⟨context, ServerSession.new id context.requirepass, [], []⟩
  recvBuf := []
  mru := {}
  phase := .reading

def maxReceiveBuffer : Nat := 16 * 1024 * 1024

def receive (bytes : Bytes) (conn : Connection World) : Connection World :=
  if conn.turn.session.isClosed = true ∨ bytes = [] ∨
      (conn.recvBuf ≠ [] ∧ maxReceiveBuffer < conn.recvBuf.length + 1024) then
    { conn with phase := .ended }
  else { conn with recvBuf := conn.recvBuf ++ bytes, phase := .serving }

variable (backend : Backend World)

def proceed (request : ClientRequest) (conn : Connection World) : Connection World :=
  if conn.turn.session.isClosed then { conn with phase := .ended }
  else if looksAhead request conn.turn then
    let (turn, rest) := speculativePipelineGet backend conn.recvBuf.length conn.recvBuf conn.turn
    { conn with turn := turn, recvBuf := rest }
  else conn

/-- One round of the inner loop. -/
def serveFrame (conn : Connection World) : Connection World :=
  if conn.recvBuf = [] then { conn with phase := .reading }
  else
    match readFrame conn.recvBuf conn.mru with
    | .incomplete => { conn with phase := .reading }
    | .malformed error =>
      let reply := writeError (bytesOf "ERR Protocol error: " ++ protocolErrorText error)
      { conn with
        turn := { conn.turn with sendBuf := conn.turn.sendBuf ++ reply }
        phase := .ended }
    | .ready request consumed mru =>
      let (turn, goesOn) := answer backend request conn.turn
      if goesOn = false then { conn with turn := turn, mru := mru, phase := .ended }
      else if consumed = 0 then { conn with turn := turn, mru := mru, phase := .reading }
      else proceed backend request
        { conn with turn := turn, mru := mru, recvBuf := conn.recvBuf.drop consumed }

/-- The inner loop: every round but the last removes a byte. -/
def serveBuffer (backend : Backend World) : Nat → Connection World → Connection World
  | 0, conn => conn
  | fuel + 1, conn =>
    if conn.phase = .serving then serveBuffer backend fuel (serveFrame backend conn) else conn

/-- One round of the outer loop. -/
def serveRead (conn : Connection World) (bytes : Bytes) : Connection World :=
  if conn.phase = .reading then
    let received := conn.receive bytes
    serveBuffer backend (received.recvBuf.length + 1) received
  else conn

def serveReads (reads : List Bytes) (conn : Connection World) : Connection World :=
  reads.foldl (serveRead backend) conn

/-- The connection reads or serves a request, or another connection changes the context. -/
inductive Step (backend : Backend World) : Connection World → Connection World → Prop
  | receive (conn : Connection World) (bytes : Bytes) : conn.phase = .reading →
      Step backend conn (conn.receive bytes)
  | serve (conn : Connection World) : conn.phase = .serving →
      Step backend conn (conn.serveFrame backend)
  | interfere (conn : Connection World) (context : ServerContext World) :
      context.acl = conn.turn.context.acl →
      Step backend conn { conn with turn := { conn.turn with context := context } }

section

variable (backend : Backend World)

theorem serveBuffer_run (fuel : Nat) (conn : Connection World) :
    Relation.ReflTransGen (Step backend) conn (serveBuffer backend fuel conn) := by
  induction fuel generalizing conn with
  | zero => exact .refl
  | succ fuel ih =>
    unfold serveBuffer
    split
    · rename_i serving
      exact .head (.serve conn serving) (ih _)
    · exact .refl

theorem serveReads_run (reads : List Bytes) (conn : Connection World) :
    Relation.ReflTransGen (Step backend) conn (serveReads backend reads conn) := by
  induction reads generalizing conn with
  | nil => exact .refl
  | cons bytes rest ih =>
    refine Relation.ReflTransGen.trans ?_ (ih (serveRead backend conn bytes))
    unfold serveRead
    split
    · rename_i reading
      exact .head (.receive conn bytes reading) (serveBuffer_run backend _ _)
    · exact .refl

theorem speculativePipelineGet_length_le (fuel : Nat) (input : Bytes) (turn : Turn World) :
    (speculativePipelineGet backend fuel input turn).2.length ≤ input.length := by
  induction fuel generalizing input turn with
  | zero => exact Nat.le_refl _
  | succ fuel ih =>
    unfold speculativePipelineGet
    split
    · exact Nat.le_refl _
    · refine Nat.le_trans (ih _ _) ?_
      rw [List.length_drop]
      exact Nat.sub_le _ _

theorem proceed_length_le (request : ClientRequest) (conn : Connection World) :
    (conn.proceed backend request).recvBuf.length ≤ conn.recvBuf.length := by
  unfold proceed
  split
  · exact Nat.le_refl _
  · split
    · exact speculativePipelineGet_length_le backend _ _ _
    · exact Nat.le_refl _

variable {conn : Connection World}

theorem serveFrame_length_lt (goesOn : (conn.serveFrame backend).phase = .serving) :
    (conn.serveFrame backend).recvBuf.length < conn.recvBuf.length := by
  revert goesOn
  unfold serveFrame
  split
  · exact fun ended => nomatch ended
  · rename_i nonempty
    split
    · exact fun ended => nomatch ended
    · exact fun ended => nomatch ended
    · rename_i request consumed mru read
      dsimp only
      split
      · exact fun ended => nomatch ended
      · split
        · exact fun ended => nomatch ended
        · rename_i used
          intro _
          refine Nat.lt_of_le_of_lt (proceed_length_le backend request _) ?_
          rw [List.length_drop]
          have some := List.length_pos_iff.mpr nonempty
          omega

theorem serveBuffer_of_not_serving (waiting : conn.phase ≠ .serving)
    (fuel : Nat) : serveBuffer backend fuel conn = conn := by
  cases fuel with
  | zero => rfl
  | succ fuel => rw [serveBuffer, if_neg waiting]

/-- The connection has ended, or it has nothing left to serve: the bytes that are left are not a
whole frame, or one without bytes. -/
def Settled (conn : Connection World) : Prop :=
  conn.phase = .ended ∨ conn.phase = .reading ∧ (conn.recvBuf = [] ∨
    readFrame conn.recvBuf conn.mru = .incomplete ∨
      ∃ mru request, readFrame conn.recvBuf mru = .ready request 0 conn.mru)

theorem serveFrame_settled (serving : conn.phase = .serving) :
    (conn.serveFrame backend).phase = .serving ∨ (conn.serveFrame backend).Settled := by
  unfold serveFrame
  split
  · exact .inr (.inr ⟨rfl, .inl ‹_›⟩)
  · split
    · exact .inr (.inr ⟨rfl, .inr (.inl ‹_›)⟩)
    · exact .inr (.inl rfl)
    · rename_i request consumed mru read
      dsimp only
      split_ifs with closed unused
      · exact .inr (.inl rfl)
      · exact .inr (.inr ⟨rfl, .inr (.inr ⟨_, request, unused ▸ read⟩)⟩)
      · unfold proceed
        split_ifs
        · exact .inr (.inl rfl)
        · exact .inl serving
        · exact .inl serving

theorem serveBuffer_settled {fuel : Nat} (enough : conn.recvBuf.length < fuel)
    (begun : conn.phase = .serving ∨ conn.Settled) : (serveBuffer backend fuel conn).Settled := by
  induction fuel generalizing conn with
  | zero => exact absurd enough (Nat.not_lt_zero _)
  | succ fuel ih =>
    unfold serveBuffer
    split_ifs with serving
    · by_cases goesOn : (conn.serveFrame backend).phase = .serving
      · exact ih (Nat.lt_of_lt_of_le (serveFrame_length_lt backend goesOn)
          (Nat.le_of_lt_succ enough)) (.inl goesOn)
      · rw [serveBuffer_of_not_serving backend goesOn]
        exact (serveFrame_settled backend serving).resolve_left goesOn
    · exact begun.resolve_left serving

theorem serveRead_settled (bytes : Bytes) (settled : conn.Settled) :
    (serveRead backend conn bytes).Settled := by
  unfold serveRead
  split_ifs
  · refine serveBuffer_settled backend (Nat.lt_succ_self _) ?_
    unfold receive
    split_ifs
    · exact .inr (.inl rfl)
    · exact .inl rfl
  · exact settled

/-- Whatever a client sends, in whatever pieces, if every dispatched command returns, the loops of
its connection come to an end, and no request is left unserved unless the connection has ended. -/
theorem serveReads_settled (context : ServerContext World) (id : Nat) (reads : List Bytes) :
    (serveReads backend reads (accept context id)).Settled := by
  have start : (accept context id).Settled := .inr ⟨rfl, .inl rfl⟩
  unfold serveReads
  generalize accept context id = conn at start ⊢
  induction reads generalizing conn with
  | nil => exact start
  | cons bytes reads ih => exact ih _ (serveRead_settled backend bytes start)

end

end Connection

end Wedb.Server
