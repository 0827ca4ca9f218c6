/-
A connection on which no authentication succeeds. Its answers can be computed from the bytes it
sends and the users alone, except the answer to PSYNC.
-/

import Wedb.Connection
import Wedb.KeyValueServer

namespace Wedb.Server

open Kv Object Repl Resp CommandDispatcher Serve Connection List AccessControlList ReplId

variable {World : Type} (acl : AccessControlList)

def AccessControlList.find (ns : Option Nat) (name : Bytes) : Except Bytes (Option User) :=
  (acl.getUserAsync ns name).1

def AccessControlList.accepts : List Bytes → Bool
  | [password] => acl.defaultUser.authenticate (textOrEmpty password)
  | [token, password] =>
    match parseUserToken (textOrEmpty token) with
    | .ok (name, ns) =>
      match acl.find ns name with
      | .ok user => user.any (·.authenticate (textOrEmpty password))
      | .error _ => false
    | .error _ => false
  | _ => false

def AccessControlList.authFailure : List Bytes → Bytes
  | [_] => writeError wrongPass
  | [token, _] =>
    match parseUserToken (textOrEmpty token) with
    | .ok (name, ns) =>
      match acl.find ns name with
      | .ok _ => writeError wrongPass
      | .error text => writeErrLine text
    | .error text => writeErrLine text
  | _ => writeError (wrongArity "auth")

def ClientRequest.authenticates : ClientRequest → Bool
  | .command .auth args => decide (args.length ≤ 65536) && acl.accepts args
  | _ => false

def ClientRequest.closes : ClientRequest → Bool
  | .command .quit args => decide (args.length ≤ 65536)
  | _ => false

def refusal (context : ServerContext World) : ClientRequest → Bytes
  | .command cmd args =>
    if cmd = .none then []
    else if 65536 < args.length then writeError (bytesOf "ERR excessive number of arguments")
    else if cmd = .auth then context.acl.authFailure args
    else if cmd = .quit then writeOk
    else writeError (bytesOf "NOAUTH Authentication required.")
  | .replica command => replicaReply context command
  | .unknown _ _ => writeError (bytesOf "NOAUTH Authentication required.")

/-- The requests at the front of a buffer, up to a closing one or a broken frame; its error; or the
rest. -/
structure Drained where
  requests : List ClientRequest
  error : Bytes
  rest : Option (Bytes × SessionMruCache)

def drain : Nat → Bytes → SessionMruCache → Drained
  | 0, input, mru => ⟨[], [], some (input, mru)⟩
  | fuel + 1, input, mru =>
    if input = [] then ⟨[], [], some ([], mru)⟩
    else
      match readFrame input mru with
      | .incomplete => ⟨[], [], some (input, mru)⟩
      | .malformed error =>
        ⟨[], writeError (bytesOf "ERR Protocol error: " ++ protocolErrorText error), none⟩
      | .ready request consumed mru =>
        if request.closes then ⟨[request], [], none⟩
        else if consumed = 0 then ⟨[request], [], some (input, mru)⟩
        else
          let later := drain fuel (input.drop consumed) mru
          ⟨request :: later.requests, later.error, later.rest⟩

/-- The requests a connection gets to when none authenticates it, and the error at the end. -/
def reached : List Bytes → Bytes → SessionMruCache → List ClientRequest × Bytes
  | [], _, _ => ([], [])
  | bytes :: reads, input, mru =>
    if bytes = [] ∨ (input ≠ [] ∧ Connection.maxReceiveBuffer < input.length + 1024) then ([], [])
    else
      let drained := drain ((input ++ bytes).length + 1) (input ++ bytes) mru
      match drained.rest with
      | none => (drained.requests, drained.error)
      | some (input, mru) =>
        let later := reached reads input mru
        (drained.requests ++ later.1, later.2)

structure SameUsers (left right : AccessControlList) : Prop where
  defaultUser : left.defaultUser = right.defaultUser
  find : ∀ ns name, left.find ns name = right.find ns name

variable (acl : AccessControlList)

theorem SameUsers.refl : SameUsers acl acl := ⟨rfl, fun _ _ => rfl⟩

theorem SameUsers.trans {first second third : AccessControlList}
    (left : SameUsers first second) (right : SameUsers second third) : SameUsers first third :=
  ⟨left.defaultUser.trans right.defaultUser,
    fun ns name => (left.find ns name).trans (right.find ns name)⟩

variable {left right : AccessControlList}

theorem SameUsers.accepts (same : SameUsers left right) (args : List Bytes) :
    left.accepts args = right.accepts args := by
  unfold AccessControlList.accepts
  simp only [same.defaultUser, same.find]

theorem SameUsers.authFailure (same : SameUsers left right) (args : List Bytes) :
    left.authFailure args = right.authFailure args := by
  unfold AccessControlList.authFailure
  simp only [same.find]

theorem AccessControlList.find_eq (ns : Option Nat) (name : Bytes) : acl.find ns name =
      match acl.getUser ns name with
      | some user => .ok (some user)
      | none => acl.storage ns name := by
  unfold find getUserAsync
  cases acl.getUser ns name with
  | some user => rfl
  | none => rcases acl.storage ns name with _ | _ | _ <;> rfl

theorem remember_find {acl : AccessControlList} {ns : Option Nat} {name : Bytes} {user : User}
    (absent : acl.getUser ns name = none) (stored : acl.storage ns name = .ok (some user))
    (other : Option Nat) (otherName : Bytes) :
    acl.find other otherName = (acl.remember ns name user).find other otherName := by
  rw [find_eq, find_eq]
  unfold AccessControlList.getUser remember at *
  by_cases isDefault : other = none ∧ otherName = defaultUserName
  · rw [if_pos isDefault, if_pos isDefault]
  rw [if_neg isDefault, if_neg isDefault]
  dsimp only
  obtain rfl | sameNs := eq_or_ne other ns
  · rw [Function.update_self]
    obtain rfl | sameName := eq_or_ne otherName name
    · rw [if_neg isDefault] at absent
      rw [Function.update_self, absent, stored]
    · rw [Function.update_of_ne sameName]
  · rw [Function.update_of_ne sameNs]

theorem getUserAsync_sameUsers (ns : Option Nat) (name : Bytes) :
    SameUsers acl (acl.getUserAsync ns name).2 := by
  unfold getUserAsync
  split
  · exact .refl acl
  · rename_i absent
    split
    · rename_i user stored
      exact ⟨rfl, remember_find absent stored⟩
    · exact .refl acl

/-- Without authentication the users and the context stay, and the connection is closed or not. -/
structure Answered (reply : Bytes) (closes : Bool) (before after : Turn World) : Prop where
  context : after.context = { before.context with acl := after.context.acl }
  users : SameUsers before.context.acl after.context.acl
  authenticated : after.session.authenticated = before.session.authenticated
  inTxn : after.session.inTxn = before.session.inTxn
  isClosed : after.session.isClosed = (before.session.isClosed || closes)
  sendBuf : after.sendBuf = before.sendBuf ++ reply

section

variable (backend : Backend World) {turn : Turn World} {args : List Bytes} {request : ClientRequest}

theorem answered_write (reply : Bytes) : Answered reply false turn ((write reply).run turn).2 :=
  ⟨rfl, .refl _, rfl, rfl, (Bool.or_false _).symm, rfl⟩

theorem gate_unauthenticated (unauthenticated : turn.session.authenticated = false)
    (cmd : RespCommand) (args : List Bytes) :
    gate turn.context turn.session cmd args =
      if 65536 < args.length then some (bytesOf "ERR excessive number of arguments")
      else if ungated cmd then none else some (bytesOf "NOAUTH Authentication required.") := by
  unfold gate gateError permission
  cases ungated cmd <;> simp [unauthenticated]

variable {password reply input slice offset line : Bytes}

theorem authDefault_failed (failed : turn.context.acl.accepts [password] = false) :
    (authDefault password).run turn = (write (writeError wrongPass)).run turn := by
  rw [authDefault, reads_bind_run]
  dsimp only [AccessControlList.accepts] at failed
  rw [failed]
  rfl

theorem syncAuth_failed (failed : turn.context.acl.accepts args = false) :
    (∃ after, (syncAuth args).run turn = (.ok true, after) ∧
        Answered (turn.context.acl.authFailure args) false turn after) ∨
      (syncAuth args).run turn = (.ok false, turn) := by
  rcases args with _ | ⟨token, _ | ⟨password, _ | _⟩⟩
  · exact .inl ⟨_, rfl, answered_write _⟩
  · refine .inl ⟨_, ?_, answered_write _⟩
    exact Fallible.bind_ok (authDefault_failed failed)
  · dsimp only [syncAuth, AccessControlList.accepts, authFailure] at failed ⊢
    revert failed
    rcases parseUserToken (textOrEmpty token) with text | ⟨name, ns⟩
    · exact fun _ => .inl ⟨_, rfl, answered_write _⟩
    · dsimp only
      rw [find_eq, reads_bind_run]
      rcases turn.context.acl.getUser ns name with _ | user
      · exact fun _ => .inr rfl
      · intro failed
        refine .inl ⟨_, ?_, answered_write _⟩
        dsimp only [Option.any] at failed ⊢
        rw [failed]
        rfl
  · exact .inl ⟨_, rfl, answered_write _⟩

theorem executeAuth_failed {args : List Bytes} (failed : turn.context.acl.accepts args = false) :
    ∃ after, (executeAuth args).run turn = (.ok (), after) ∧
      Answered (turn.context.acl.authFailure args) false turn after := by
  rcases args with _ | ⟨token, _ | ⟨password, _ | _⟩⟩
  · exact ⟨_, rfl, answered_write _⟩
  · exact ⟨_, authDefault_failed failed, answered_write _⟩
  · dsimp only [executeAuth, authAndBindSession, AccessControlList.accepts, authFailure] at failed ⊢
    revert failed
    rcases parseUserToken (textOrEmpty token) with text | ⟨name, ns⟩
    · exact fun _ => ⟨_, rfl, answered_write _⟩
    · have users := getUserAsync_sameUsers turn.context.acl ns name
      dsimp only [AccessControlList.find]
      rw [reads_bind_run]
      revert users
      rcases turn.context.acl.getUserAsync ns name with ⟨text | user, acl⟩
      · intro users _
        exact ⟨_, rfl, rfl, users, rfl, rfl, (Bool.or_false _).symm, rfl⟩
      · intro users failed
        dsimp only at failed ⊢
        rw [failed]
        exact ⟨_, rfl, rfl, users, rfl, rfl, (Bool.or_false _).symm, rfl⟩
  · exact ⟨_, rfl, answered_write _⟩

section

variable (unauthenticated : turn.session.authenticated = false) (idle : turn.session.inTxn = false)

include unauthenticated idle

theorem serve_auth_failed (few : ¬65536 < args.length)
    (failed : turn.context.acl.accepts args = false) :
    ∃ after, (CommandDispatcher.serve backend .auth args).run turn = (.ok (), after) ∧
      Answered (turn.context.acl.authFailure args) false turn after := by
  have granted : gate turn.context turn.session .auth args = none := by
    rw [gate_unauthenticated unauthenticated, if_neg few]
    rfl
  have async (undecided : (CommandDispatcher.tryDispatchSync backend .auth args).run turn =
      (.ok false, turn)) :
      ∃ after, (CommandDispatcher.serve backend .auth args).run turn = (.ok (), after) ∧
        Answered (turn.context.acl.authFailure args) false turn after := by
    obtain ⟨after, ran, answered⟩ := @executeAuth_failed _
      { turn with accesses := turn.accesses ++ [.auth] } args failed
    have executed : (executeCommand backend .auth args).run turn = (.ok (), after) := ran
    rw [serve_handedOver backend undecided, dispatch_keyless backend (by decide) granted
      (by rw [idle]; rfl) (by cases args <;> rfl), Fallible.bind_ok executed]
    exact ⟨_, rfl, answered.context, answered.users, answered.authenticated, answered.inTxn,
      answered.isClosed, answered.sendBuf⟩
  cases clustered : turn.session.inTxn || turn.context.clustered with
  | true => exact async (tryDispatchSync_async backend (by decide) granted clustered)
  | false =>
    have sync := tryDispatchSync_fast backend (by decide) granted clustered
    rcases syncAuth_failed failed with ⟨after, ran, answered⟩ | undecided
    · exact ⟨after, Fallible.bind_ok (sync.trans ran), answered⟩
    · exact async (sync.trans undecided)

theorem serve_quit (few : ¬65536 < args.length) :
    ∃ after, (CommandDispatcher.serve backend .quit args).run turn = (.ok (), after) ∧
      Answered writeOk true turn after := by
  have granted : gate turn.context turn.session .quit args = none := by
    rw [gate_unauthenticated unauthenticated, if_neg few]
    rfl
  cases clustered : turn.session.inTxn || turn.context.clustered with
  | true =>
    rw [serve_handedOver backend (tryDispatchSync_async backend (by decide) granted clustered),
      dispatch_keyless backend (by decide) granted (by rw [idle]; rfl) (by cases args <;> rfl)]
    exact ⟨_, rfl, rfl, .refl _, rfl, rfl, (Bool.or_true _).symm, rfl⟩
  | false =>
    have sync := tryDispatchSync_fast backend (by decide) granted clustered
    exact ⟨_, Fallible.bind_ok sync, rfl, .refl _, rfl, rfl, (Bool.or_true _).symm, rfl⟩

theorem serve_unauthenticated {cmd : RespCommand}
    (failed : ClientRequest.authenticates turn.context.acl (.command cmd args) = false) :
    ∃ after, (CommandDispatcher.serve backend cmd args).run turn = (.ok (), after) ∧
      Answered (refusal turn.context (.command cmd args)) (ClientRequest.closes (.command cmd args))
        turn after := by
  dsimp only [refusal]
  obtain rfl | known := eq_or_ne cmd .none
  · exact ⟨turn, rfl, rfl, .refl _, rfl, rfl, (Bool.or_false _).symm, (append_nil _).symm⟩
  rw [if_neg known]
  have gated := gate_unauthenticated unauthenticated cmd args
  by_cases many : 65536 < args.length
  · rw [if_pos many] at gated
    have open' : ClientRequest.closes (.command cmd args) = false := by
      unfold ClientRequest.closes
      split <;> simp_all
    rw [if_pos many, open', serve_refused backend known gated]
    exact ⟨_, rfl, answered_write _⟩
  rw [if_neg many] at gated ⊢
  obtain rfl | auth := eq_or_ne cmd .auth
  · rw [ClientRequest.authenticates, decide_eq_true (Nat.le_of_not_lt many),
      Bool.true_and] at failed
    exact serve_auth_failed backend unauthenticated idle many failed
  obtain rfl | quit := eq_or_ne cmd .quit
  · rw [ClientRequest.closes, decide_eq_true (Nat.le_of_not_lt many)]
    exact serve_quit backend unauthenticated idle many
  have stopped : ungated cmd = false := by
    unfold ungated
    split <;> simp_all
  have open' : ClientRequest.closes (.command cmd args) = false := by
    unfold ClientRequest.closes
    split <;> simp_all
  rw [stopped, if_neg Bool.false_ne_true] at gated
  rw [if_neg auth, if_neg quit, open', serve_refused backend known gated]
  exact ⟨_, rfl, answered_write _⟩

theorem answer_unauthenticated (failed : request.authenticates turn.context.acl = false) :
    ∃ after, answer backend request turn = (after, true) ∧
      Answered (refusal turn.context request) request.closes turn after := by
  match request with
  | .command cmd args =>
    obtain ⟨after, ran, answered⟩ := serve_unauthenticated backend unauthenticated idle failed
    exact ⟨after, congrArg settle ran, answered⟩
  | .replica command => exact ⟨_, rfl, answered_write _⟩
  | .unknown name input =>
    have unrouted : (routeUnknown backend name input).run turn = (.ok false, turn) := by
      rw [routeUnknown, reads_bind_run, unauthenticated]
      rfl
    have refused : unknownCommandText turn.session.authenticated name =
        bytesOf "NOAUTH Authentication required." := by
      rw [unauthenticated]
      rfl
    refine ⟨_, congrArg settle (Fallible.bind_ok unrouted), rfl, .refl _, rfl, rfl,
      (Bool.or_false _).symm, ?_⟩
    exact congrArg (fun text => turn.sendBuf ++ writeError text) refused

end

variable {context : ServerContext World} {conn : Connection World}

/-- Nobody logged in, and the server is as in `context`. -/
structure Outside (context : ServerContext World) (turn : Turn World) : Prop where
  unchanged : turn.context = { context with acl := turn.context.acl }
  users : SameUsers context.acl turn.context.acl
  authenticated : turn.session.authenticated = false
  inTxn : turn.session.inTxn = false
  isClosed : turn.session.isClosed = false

theorem Outside.refusal (outside : Outside context turn) (request : ClientRequest) :
    refusal turn.context request = refusal context request := by
  have sameFailure := outside.users.authFailure
  rw [outside.unchanged]
  unfold Server.refusal
  split
  · simp only [sameFailure]
  · rfl
  · rfl

theorem Outside.authenticates (outside : Outside context turn) (request : ClientRequest) :
    request.authenticates turn.context.acl = request.authenticates context.acl := by
  unfold ClientRequest.authenticates
  split
  · rw [outside.users.accepts]
  · rfl

theorem Outside.answered {after : Turn World} (outside : Outside context turn)
    (answered : Answered reply false turn after) :
    Outside context after where
  unchanged := by rw [answered.context, outside.unchanged]
  users := outside.users.trans answered.users
  authenticated := answered.authenticated.trans outside.authenticated
  inTxn := answered.inTxn.trans outside.inTxn
  isClosed := by rw [answered.isClosed, outside.isClosed]; rfl

theorem proceed_outside (outside : Outside context conn.turn) :
    conn.proceed backend request = conn := by
  have blind : looksAhead request conn.turn = false := by
    unfold looksAhead
    split
    · rw [outside.authenticated, Bool.and_false, Bool.false_and]
    · rfl
  rw [Connection.proceed, outside.isClosed, if_neg Bool.false_ne_true, blind,
    if_neg Bool.false_ne_true]

def Stopped (conn : Connection World) : Prop :=
  conn.phase = .ended ∨ conn.phase = .reading ∧ conn.turn.session.isClosed = true

def Resumes (context : ServerContext World) (rest : Option (Bytes × SessionMruCache))
    (conn : Connection World) : Prop :=
  match rest with
  | some (input, mru) =>
    conn.phase = .reading ∧ conn.recvBuf = input ∧ conn.mru = mru ∧ Outside context conn.turn
  | none => Stopped conn

variable {context left right stored : ServerContext World} {fuel length consumed : Nat}

theorem serveBuffer_drain {conn : Connection World}
    (serving : conn.phase = .serving) (outside : Outside context conn.turn)
    (enough : conn.recvBuf.length < fuel)
    (failed : ∀ request ∈ (drain fuel conn.recvBuf conn.mru).requests,
      request.authenticates context.acl = false) :
    (conn.serveBuffer backend fuel).turn.sendBuf = conn.turn.sendBuf ++
        (drain fuel conn.recvBuf conn.mru).requests.flatMap (refusal context) ++
        (drain fuel conn.recvBuf conn.mru).error ∧
      Resumes context (drain fuel conn.recvBuf conn.mru).rest (conn.serveBuffer backend fuel) := by
  induction fuel generalizing conn with
  | zero => exact absurd enough (Nat.not_lt_zero _)
  | succ fuel ih =>
    rw [serveBuffer, if_pos serving]
    have waits : Phase.reading ≠ .serving := by decide
    have ends : Phase.ended ≠ .serving := by decide
    revert failed
    unfold drain serveFrame
    by_cases empty : conn.recvBuf = []
    · rw [if_pos empty, if_pos empty, serveBuffer_of_not_serving backend waits]
      exact fun _ => ⟨by simp, rfl, empty, rfl, outside⟩
    rw [if_neg empty, if_neg empty]
    cases read : readFrame conn.recvBuf conn.mru with
    | incomplete =>
      rw [serveBuffer_of_not_serving backend waits]
      exact fun _ => ⟨by simp, rfl, rfl, rfl, outside⟩
    | malformed error =>
      rw [serveBuffer_of_not_serving backend ends]
      exact fun _ => ⟨by simp, .inl rfl⟩
    | ready request consumed mru =>
      intro failed
      have member : request.authenticates context.acl = false := by
        refine failed request ?_
        dsimp only
        split
        · exact mem_singleton_self request
        · split
          · exact mem_singleton_self request
          · exact mem_cons_self
      obtain ⟨after, answers, answered⟩ := answer_unauthenticated backend outside.authenticated
        outside.inTxn ((outside.authenticates request).trans member)
      rw [outside.refusal request] at answered
      dsimp only at failed ⊢
      rw [answers]
      dsimp only
      rw [if_neg (by decide)]
      cases closes : request.closes with
      | true =>
        rw [closes] at answered
        have closed : after.session.isClosed := by
          rw [answered.isClosed, Bool.or_true]
        rw [if_pos rfl]
        by_cases used : consumed = 0
        · rw [if_pos used, serveBuffer_of_not_serving backend waits]
          exact ⟨by simp [answered.sendBuf], .inr ⟨rfl, closed⟩⟩
        · rw [if_neg used, Connection.proceed, if_pos closed,
            serveBuffer_of_not_serving backend ends]
          exact ⟨by simp [answered.sendBuf], .inl rfl⟩
      | false =>
        rw [closes] at answered
        have stays := outside.answered answered
        rw [closes, if_neg Bool.false_ne_true] at failed
        rw [if_neg Bool.false_ne_true]
        by_cases used : consumed = 0
        · rw [if_pos used, if_pos used, serveBuffer_of_not_serving backend waits]
          exact ⟨by simp [answered.sendBuf], rfl, rfl, rfl, stays⟩
        · rw [if_neg used] at failed
          rw [if_neg used, if_neg used, proceed_outside backend stays]
          have shorter : (conn.recvBuf.drop consumed).length < fuel := by
            have positive := length_pos_iff.mpr empty
            rw [length_drop]
            omega
          obtain ⟨written, resumes⟩ := @ih
            ⟨after, conn.recvBuf.drop consumed, mru, conn.phase⟩ serving stays shorter
            fun later member => failed later (mem_cons_of_mem request member)
          refine ⟨?_, resumes⟩
          rw [written, answered.sendBuf]
          simp

theorem drain_error {mru : SessionMruCache}
    (goesOn : (drain fuel input mru).rest ≠ none) : (drain fuel input mru).error = [] := by
  induction fuel generalizing input mru with
  | zero => rfl
  | succ fuel ih =>
    unfold drain at goesOn ⊢
    split
    · rfl
    · rename_i nonempty
      rw [if_neg nonempty] at goesOn
      cases read : readFrame input mru with
      | incomplete => rfl
      | malformed error => exact absurd (by rw [read]) goesOn
      | ready request consumed mru =>
        rw [read] at goesOn
        dsimp only at goesOn ⊢
        split
        · rfl
        · split
          · rfl
          · rename_i stays used
            rw [if_neg stays, if_neg used] at goesOn
            exact ih goesOn

theorem serveReads_stopped (stopped : Stopped conn) (reads : List Bytes) :
    (conn.serveReads backend reads).turn.sendBuf = conn.turn.sendBuf := by
  induction reads generalizing conn with
  | nil => rfl
  | cons bytes reads ih =>
    show ((conn.serveRead backend bytes).serveReads backend reads).turn.sendBuf = _
    rcases stopped with ended | ⟨reading, closed⟩
    · rw [serveRead, if_neg (by rw [ended]; decide)]
      exact ih (.inl ended)
    · have received : conn.receive bytes = { conn with phase := .ended } := by
        rw [Connection.receive, if_pos (.inl closed)]
      rw [serveRead, if_pos reading, received,
        serveBuffer_of_not_serving backend (show Phase.ended ≠ .serving by decide)]
      exact ih (.inl rfl)

/-- Without a successful AUTH the answers to the requests it gets to are written. -/
theorem serveReads_reached {reads : List Bytes} (reading : conn.phase = .reading)
    (outside : Outside context conn.turn)
    (failed : ∀ request ∈ (reached reads conn.recvBuf conn.mru).1,
      request.authenticates context.acl = false) :
    (conn.serveReads backend reads).turn.sendBuf = conn.turn.sendBuf ++
      (reached reads conn.recvBuf conn.mru).1.flatMap (refusal context) ++
      (reached reads conn.recvBuf conn.mru).2 := by
  induction reads generalizing conn with
  | nil => simp [reached, serveReads]
  | cons bytes reads ih =>
    show ((conn.serveRead backend bytes).serveReads backend reads).turn.sendBuf = _
    rw [serveRead, if_pos reading]
    revert failed
    unfold reached Connection.receive
    simp only [outside.isClosed, Bool.false_eq_true, false_or]
    split
    · intro _
      rw [serveBuffer_of_not_serving backend (show Phase.ended ≠ .serving by decide),
        serveReads_stopped backend (.inl rfl)]
      simp
    · dsimp only
      intro failed
      have allFailed : ∀ request ∈ (drain ((conn.recvBuf ++ bytes).length + 1)
          (conn.recvBuf ++ bytes) conn.mru).requests,
          request.authenticates context.acl = false := by
        intro request member
        refine failed request ?_
        split
        · exact member
        · exact mem_append_left _ member
      obtain ⟨written, resumes⟩ := @serveBuffer_drain _ backend context _
        ⟨conn.turn, conn.recvBuf ++ bytes, conn.mru, .serving⟩ rfl outside (Nat.lt_succ_self _)
        allFailed
      cases rest : (drain ((conn.recvBuf ++ bytes).length + 1) (conn.recvBuf ++ bytes)
          conn.mru).rest with
      | none =>
        rw [rest] at resumes
        rw [serveReads_stopped backend resumes, written]
      | some left =>
        have noError := drain_error (by rw [rest]; exact Option.some_ne_none left)
        rw [rest] at resumes failed
        obtain ⟨reading, sameInput, sameMru, stays⟩ := resumes
        rw [ih reading stays (by
          rw [sameInput, sameMru]
          exact fun request member => failed request (mem_append_right _ member)),
          written, sameInput, sameMru, noError]
        simp

variable {replid : ReplId} {command : ReplicaCommand}

def ClientRequest.isPsync : ClientRequest → Bool
  | .replica (.psync _ _) => true
  | _ => false

def ClientRequest.IdentifierReadable : ClientRequest → Prop
  | .replica (.psync replid _) => ReplId.fromBytes replid.bytes = .ok replid
  | _ => True

theorem ReplId.fromBytes_bytes (read : fromBytes slice = .ok replid) :
    fromBytes replid.bytes = .ok replid := by
  have whole := read
  unfold fromBytes at read
  split at read
  · cases read
    decide
  · split at read
    · split at read
      · cases read
      · cases read
        exact whole
    · cases read

theorem psync_readable_of_offset
    (readable : fromBytes replid.bytes = .ok replid) (read : (match parseI64Bytes offset with
      | none => .error (ReplError.protocol (bytesOf "非法 PSYNC offset: " ++ fromUtf8Lossy offset))
      | some offset => pure (.psync replid offset)) = Except.ok command) :
    ClientRequest.IdentifierReadable (.replica command) := by
  split at read
  · cases read
  · cases read
    exact readable

theorem readPsync_readable (read : readPsync args = .ok command) :
    ClientRequest.IdentifierReadable (.replica command) := by
  unfold readPsync at read
  split at read
  · rename_i raw offset rest
    dsimp only at read
    split at read
    · exact psync_readable_of_offset (by decide) read
    · obtain ⟨replid, identifier, read⟩ := except_bind_ok read
      exact psync_readable_of_offset (ReplId.fromBytes_bytes identifier) read
  · cases read

theorem readReplicaCommand_readable (read : readReplicaCommand args = .ok command) :
    ClientRequest.IdentifierReadable (.replica command) := by
  have other {α} {action : Except ReplError α} {build} (read : build <$> action = .ok command)
      (noPsync : ∀ value, ClientRequest.IdentifierReadable (.replica (build value))) :
      ClientRequest.IdentifierReadable (.replica command) := by
    cases action with
    | error error => cases read
    | ok value =>
      cases read
      exact noPsync value
  unfold readReplicaCommand at read
  split at read
  · cases read
  · split at read
    · cases read
      trivial
    · split at read
      · split at read
        · cases read
        · exact other read fun _ => trivial
      · split at read
        · exact other read fun _ => trivial
        · split at read
          · exact readPsync_readable read
          · cases read

theorem readInlineReplicaCommand_readable {first : UInt8}
    (read : readInlineReplicaCommand first line = .ok command) :
    ClientRequest.IdentifierReadable (.replica command) := by
  unfold readInlineReplicaCommand at read
  split at read
  · cases read
  · split at read
    · cases read
    · split at read
      · cases read
        trivial
      · split at read
        · split at read
          · cases read
          · cases read
            trivial
        · cases read

theorem parseReplicaCommand_readable
    (read : parseReplicaCommand input = .ok (some (command, length))) :
    ClientRequest.IdentifierReadable (.replica command) := by
  unfold parseReplicaCommand at read
  split at read
  · cases read
  · split at read
    · cases read
    · split at read
      · have read : (readInlineReplicaCommand _ _ >>= fun command =>
            .ok (some (command, _))) = .ok (some (command, length)) := read
        obtain ⟨inline, parsed, same⟩ := except_bind_ok read
        cases same
        exact readInlineReplicaCommand_readable parsed
      · split at read
        · cases read
        · split at read
          · cases read
          · obtain ⟨strings, -, read⟩ := except_bind_ok read
            split at read
            · cases read
            · obtain ⟨named, parsed, same⟩ := except_bind_ok read
              cases same
              exact readReplicaCommand_readable parsed

theorem readFrame_readable {mru after : SessionMruCache}
    (read : readFrame input mru = .ready request consumed after) : request.IdentifierReadable := by
  unfold readFrame at read
  split at read
  · cases read
    trivial
  · cases read
  · split at read
    · rename_i parsed
      cases read
      exact parseReplicaCommand_readable parsed
    · split at read
      · cases read
        trivial
      · cases read
      · cases read
  · cases read

theorem drain_readable (fuel : Nat) (input : Bytes) (mru : SessionMruCache) :
    ∀ request ∈ (drain fuel input mru).requests, request.IdentifierReadable := by
  induction fuel generalizing input mru with
  | zero => exact fun request member => nomatch member
  | succ fuel ih =>
    unfold drain
    split
    · exact fun request member => nomatch member
    · cases read : readFrame input mru with
      | incomplete => exact fun request member => nomatch member
      | malformed error => exact fun request member => nomatch member
      | ready first consumed after =>
        have readable := readFrame_readable read
        intro request member
        dsimp only at member
        split at member
        · rwa [mem_singleton.mp member]
        · split at member
          · rwa [mem_singleton.mp member]
          · rcases mem_cons.mp member with rfl | later
            · exact readable
            · exact ih _ _ request later

theorem reached_readable (reads : List Bytes) (input : Bytes) (mru : SessionMruCache) :
    ∀ request ∈ (reached reads input mru).1, request.IdentifierReadable := by
  induction reads generalizing input mru with
  | nil => exact fun request member => nomatch member
  | cons bytes reads ih =>
    unfold reached
    split
    · exact fun request member => nomatch member
    · dsimp only
      split
      · exact drain_readable _ _ _
      · intro request member
        rcases mem_append.mp member with now | later
        · exact drain_readable _ _ _ request now
        · exact ih _ _ request later

/-- Two contexts that differ at most in key spaces, the bounds of their log, and the backlog. -/
structure SameButStored (left right : ServerContext World) : Prop where
  requirepass : left.requirepass = right.requirepass
  acl : left.acl = right.acl
  clustered : left.clustered = right.clustered
  role : left.repl.role = right.repl.role
  history : left.repl.history = right.repl.history
  world : left.world = right.world

theorem psyncReply_replica (replica : context.repl.role ≠ .primary) (replid : ReplId) (offset : Int)
    :
    psyncReply context replid offset = writeError (bytesOf "ERR " ++
      (match fromBytes replid.bytes with
        | .error error => error
        | .ok _ => .notPrimary context.repl.role).display) := by
  unfold psyncReply handlePsync
  rcases fromBytes replid.bytes with error | requested
  · rfl
  · dsimp only
    rw [evaluatePsync, if_neg replica]

theorem refusal_sameButStored (same : SameButStored left right)
    (blind : left.repl.role ≠ .primary ∨ request.isPsync = false) :
    refusal left request = refusal right request := by
  unfold refusal
  split
  · rw [same.acl]
  · rename_i command
    unfold replicaReply
    split
    · rfl
    · rename_i replid offset
      have replica : left.repl.role ≠ .primary := by simpa [ClientRequest.isPsync] using blind
      rw [psyncReply_replica replica, psyncReply_replica (same.role ▸ replica), same.role]
    · rfl
    · rfl
  · rfl

def withLog (context : ServerContext World) (first tail : Nat) : ServerContext World :=
  { context with hlogBegin := first, hlogTail := tail }

theorem sameButStored_withLog (context : ServerContext World) (first tail : Nat) :
    SameButStored context (withLog context first tail) :=
  ⟨rfl, rfl, rfl, rfl, rfl, rfl⟩

section

variable (primary : context.repl.role = .primary)

include primary

theorem psyncReply_full
    (readable : fromBytes replid.bytes = .ok replid) {offset : Int} {first tail : Nat}
    (missing : offset.toNat < first ∨ tail < offset.toNat) :
    psyncReply (withLog context first tail) replid offset =
      bytesOf "+FULLRESYNC " ++ context.repl.history.primaryReplid.bytes ++ bytesOf " " ++
        formatNat tail ++ crlf := by
  have decision : decideSync context.repl.history first tail replid offset =
      .fullResync context.repl.history.primaryReplid tail := by
    unfold decideSync
    split
    · rfl
    · dsimp only
      rw [if_pos missing]
  unfold psyncReply handlePsync
  rw [readable]
  dsimp only [withLog]
  rw [evaluatePsync, if_pos primary, decision]

theorem psyncReply_distinguishes (readable : fromBytes replid.bytes = .ok replid) (offset : Int) :
    ∃ first tail tail', psyncReply (withLog context first tail) replid offset ≠
        psyncReply (withLog context first tail') replid offset ∧
      (psyncReply (withLog context first tail) replid offset).length =
        (psyncReply (withLog context first tail') replid offset).length := by
  by_cases early : offset.toNat < 2
  · refine ⟨2, 2, 3, ?_⟩
    rw [psyncReply_full primary readable (.inl early),
      psyncReply_full primary readable (.inl early)]
    refine ⟨fun same => ?_, by simp [formatNat, prependDigits]⟩
    exact absurd (append_cancel_left (append_cancel_right same)) (by decide)
  · refine ⟨0, 0, 1, ?_⟩
    rw [psyncReply_full primary readable (.inr (by omega)),
      psyncReply_full primary readable (.inr (by omega))]
    refine ⟨fun same => ?_, by simp [formatNat, prependDigits]⟩
    exact absurd (append_cancel_left (append_cancel_right same)) (by decide)

theorem refusals_distinguish
    {requests : List ClientRequest} (readable : ∀ request ∈ requests, request.IdentifierReadable)
    (psync : ∃ request ∈ requests, request.isPsync) (error : Bytes) :
    ∃ left right, SameButStored context left ∧ SameButStored context right ∧
      requests.flatMap (refusal left) ++ error ≠ requests.flatMap (refusal right) ++ error := by
  induction requests with
  | nil => obtain ⟨request, member, -⟩ := psync; cases member
  | cons request rest ih =>
    by_cases first : request.isPsync
    · have here := readable request mem_cons_self
      unfold ClientRequest.isPsync at first
      split at first
      · rename_i replid offset
        obtain ⟨begin', tail, tail', different, sameLength⟩ :=
          psyncReply_distinguishes primary here offset
        refine ⟨_, _, sameButStored_withLog context begin' tail,
          sameButStored_withLog context begin' tail', fun same => different ?_⟩
        rw [flatMap_cons, flatMap_cons, append_assoc, append_assoc] at same
        exact (append_inj same sameLength).1
      · cases first
    · obtain ⟨left, right, sameLeft, sameRight, different⟩ := ih
        (fun later member => readable later (mem_cons_of_mem request member)) (by
          obtain ⟨later, member, isPsync⟩ := psync
          rcases mem_cons.mp member with rfl | later'
          · exact absurd isPsync first
          · exact ⟨later, later', isPsync⟩)
      refine ⟨left, right, sameLeft, sameRight, fun same => different ?_⟩
      have blind : context.repl.role ≠ .primary ∨ request.isPsync = false :=
        .inr (Bool.eq_false_iff.mpr first)
      rw [flatMap_cons, flatMap_cons, append_assoc, append_assoc,
        ← refusal_sameButStored sameLeft blind, ← refusal_sameButStored sameRight blind] at same
      exact append_cancel_left same

end

theorem outside_accept (secured : context.requirepass)
    (same : SameButStored context stored) (id : Nat) :
    Outside stored (Connection.accept stored id).turn := by
  refine ⟨rfl, .refl _, ?_, rfl, rfl⟩
  show (!stored.requirepass) = false
  rw [← same.requirepass, secured]
  rfl

/-- A connection that never authenticates where a password is required is answered the same,
whatever is stored, exactly when the server is no primary or PSYNC is not reached. -/
theorem unauthenticated_answers_agree_iff (context : ServerContext World) (id : Nat)
    (reads : List Bytes) (secured : context.requirepass = true)
    (failed : ∀ request ∈ (reached reads [] {}).1, request.authenticates context.acl = false) :
    (∀ left right, SameButStored context left → SameButStored context right →
      ((Connection.accept left id).serveReads backend reads).turn.sendBuf =
        ((Connection.accept right id).serveReads backend reads).turn.sendBuf) ↔
      context.repl.role ≠ .primary ∨
        ∀ request ∈ (reached reads [] {}).1, request.isPsync = false := by
  have written {stored} (same : SameButStored context stored) :
      ((Connection.accept stored id).serveReads backend reads).turn.sendBuf =
        (reached reads [] {}).1.flatMap (refusal stored) ++ (reached reads [] {}).2 := by
    refine (serveReads_reached backend rfl (outside_accept secured same id) ?_).trans rfl
    rw [← same.acl]
    exact failed
  constructor
  · intro agree
    by_contra disclosed
    rw [not_or, not_not] at disclosed
    obtain ⟨primary, noneFalse⟩ := disclosed
    have psync : ∃ request ∈ (reached reads [] {}).1, request.isPsync = true := by
      simpa using noneFalse
    obtain ⟨left, right, sameLeft, sameRight, different⟩ :=
      refusals_distinguish primary (reached_readable reads [] {}) psync (reached reads [] {}).2
    refine different ?_
    rw [← written sameLeft, ← written sameRight]
    exact agree left right sameLeft sameRight
  · intro blind left right sameLeft sameRight
    have sameAnswers {stored} (same : SameButStored context stored) :
        (reached reads [] {}).1.flatMap (refusal stored) =
          (reached reads [] {}).1.flatMap (refusal context) := by
      refine List.flatMap_congr fun request member => (refusal_sameButStored same ?_).symm
      exact blind.imp_right fun none => none request member
    rw [written sameLeft, written sameRight, sameAnswers sameLeft, sameAnswers sameRight]

end

section

open KeyValueServer

private def sent (backlog : Bytes) : ServerContext Unit :=
  { KeyValueServer.context true [] (fun _ => .empty) with
    repl := { replication with backlog := ⟨backlog, 0, backlog.length, 64 + backlog.length⟩ }
    hlogTail := 68 }

private def ping : Bytes := bytesOf "PING\r\n"

private def psync : Bytes :=
  bytesOf "*3\r\n$5\r\nPSYNC\r\n$40\r\n0000000000000000000000000000000000000000\r\n$2\r\n64\r\n"

theorem unauthenticated_ping_agrees :
    ((Connection.accept (sent (bytesOf "abcd")) 1).serveReads backend [ping]).turn.sendBuf =
      ((Connection.accept (sent (bytesOf "wxyz")) 1).serveReads backend [ping]).turn.sendBuf :=
  (unauthenticated_answers_agree_iff backend (sent []) 1 [ping] rfl (by decide +kernel)).mpr
    (.inr (by decide +kernel)) _ _ ⟨rfl, rfl, rfl, rfl, rfl, rfl⟩ ⟨rfl, rfl, rfl, rfl, rfl, rfl⟩

/-- PSYNC sends the bytes of the backlog to a client that has not authenticated. -/
theorem unauthenticated_psync_discloses_backlog :
    ((Connection.accept (sent (bytesOf "abcd")) 1).serveReads backend [psync]).turn.sendBuf =
        bytesOf "+CONTINUE 0000000000000000000000000000000000000000\r\nabcd" ∧
      ((Connection.accept (sent (bytesOf "wxyz")) 1).serveReads backend [psync]).turn.sendBuf =
        bytesOf "+CONTINUE 0000000000000000000000000000000000000000\r\nwxyz" := by
  decide +kernel

end

end Wedb.Server
