/-
A transaction from MULTI to EXEC. Every request in between is taken, refused, refused and
remembered, or ends it. EXEC looks at what was remembered only.
-/

import Wedb.Footprint
import Wedb.KeyValueServer

namespace Wedb.Server

open Kv Object Repl Resp CommandDispatcher Serve

variable {World : Type}

inductive Verdict
  | taken
  | refused
  | remembered
  | leaves
  deriving DecidableEq

def Verdict.isError : Verdict → Bool
  | .refused | .remembered => true
  | .taken | .leaves => false

def grantedVerdict (backend : Backend World) (activeDb : Nat) (cmd : RespCommand)
    (args : List Bytes) : Verdict :=
  if cmd = .quit then .leaves
  else if cmd = .exec ∨ cmd = .discard then if args = [] then .leaves else .refused
  else if cmd = .multi ∨ cmd = .watch then .refused
  else if isDbSwitch cmd args activeDb then .remembered
  else
    match validateCommandSyntax backend.readsDouble cmd args with
    | none => .leaves
    | some (.error _) => .remembered
    | some (.ok ()) => .taken

def verdict (backend : Backend World) (session : ServerSession) (context : ServerContext World) :
    ClientRequest → Verdict
  | .command cmd args =>
    if cmd = .none then .taken
    else if (gate context session cmd args).isSome then .refused
    else grantedVerdict backend session.activeDb cmd args
  | .replica (.psync replid offset) =>
    match handlePsync context.repl replid.bytes offset context.hlogBegin context.hlogTail with
    | .ok _ => .taken
    | .error _ => .refused
  | .replica _ => .taken
  | .unknown _ _ => .remembered

/-- A session in the transaction that `session` has opened. -/
def ServerSession.inTransaction (session : ServerSession) (asking aborted : Bool)
    (queue : List QueuedCommand) : ServerSession :=
  { session with
    asking := asking
    inTxn := true
    txnAborted := aborted
    txnQueue := queue }

section

variable (backend : Backend World) {session : ServerSession} {context : ServerContext World}
variable {asking aborted aborted' : Bool} {queue : List QueuedCommand}

variable {args : List Bytes} {cmd : RespCommand}

/-- A request keeps the transaction open and is answered with an error as the verdict says. -/
def Follows (session : ServerSession) (context : ServerContext World) (aborted : Bool)
    (verdict : Verdict) (answered : Turn World × Bool) : Prop :=
  ∃ asking queue reply, answered = (⟨context, session.inTransaction asking
      (aborted || verdict == .remembered) queue, reply, []⟩, true) ∧
    (reply.head? = some 45 ↔ verdict.isError = true)

theorem grantedVerdict_queued {activeDb : Nat} (queued : runsInTransaction cmd = false) :
    grantedVerdict backend activeDb cmd args =
      if cmd = .watch then .refused
      else if isDbSwitch cmd args activeDb then .remembered
      else
        match validateCommandSyntax backend.readsDouble cmd args with
        | none => .leaves
        | some (.error _) => .remembered
        | some (.ok ()) => .taken := by
  simp only [runsInTransaction, decide_eq_false_iff_not, not_or] at queued
  obtain ⟨notExec, notDiscard, notMulti, notQuit⟩ := queued
  simp only [grantedVerdict, notQuit, notExec, notDiscard, notMulti, or_self, false_or, if_false]

theorem follows_error {verdict : Verdict} (text : Bytes) (isError : verdict.isError)
    (marked : aborted' = (aborted || verdict == .remembered)) :
    Follows session context aborted verdict
      (⟨context, session.inTransaction asking aborted' queue, writeError text, []⟩, true) :=
  ⟨asking, queue, writeError text, by rw [marked], iff_of_true rfl isError⟩

theorem follows_taken (reply : Bytes) (noError : reply.head? ≠ some 45) :
    Follows session context aborted .taken
      (⟨context, session.inTransaction asking aborted queue, reply, []⟩, true) :=
  ⟨asking, queue, reply, by rw [show (Verdict.taken == .remembered) = false from rfl,
    Bool.or_false], iff_of_false noError Bool.false_ne_true⟩

theorem queueCommand_follows (queued : runsInTransaction cmd = false)
    (stays : grantedVerdict backend session.activeDb cmd args ≠ .leaves) :
    Follows session context aborted (grantedVerdict backend session.activeDb cmd args)
      (settle ((queueCommand backend cmd args).run
        ⟨context, session.inTransaction asking aborted queue, [], []⟩)) := by
  rw [grantedVerdict_queued backend queued] at stays ⊢
  unfold queueCommand
  split
  · exact follows_error _ rfl (Bool.or_false _).symm
  rename_i notWatch
  rw [if_neg notWatch] at stays
  rw [reads_bind_run]
  show Follows _ _ _ (if isDbSwitch cmd args session.activeDb = true then _ else _)
    (settle (Fallible.run (if isDbSwitch cmd args session.activeDb = true then _ else _) _))
  split
  · exact follows_error _ rfl (Bool.or_true _).symm
  rename_i noSwitch
  rw [if_neg noSwitch] at stays
  revert stays
  rcases validateCommandSyntax backend.readsDouble cmd args with _ | text | _
  · exact fun stays => absurd rfl stays
  · exact fun _ => follows_error _ rfl (Bool.or_true _).symm
  · exact fun _ => follows_taken writeQueued (by decide)

theorem control_follows (text : Bytes)
    (refused : grantedVerdict backend session.activeDb cmd args = .refused)
    (written : (executeCommand backend cmd args).run
        ⟨context, session.inTransaction asking aborted queue, [], []⟩ =
      (write (writeError text)).run ⟨context, session.inTransaction asking aborted queue, [], []⟩) :
    Follows session context aborted (grantedVerdict backend session.activeDb cmd args) (settle
      ((do executeCommand backend cmd args; clearAsking).run
        ⟨context, session.inTransaction asking aborted queue, [], []⟩)) := by
  rw [refused, Fallible.bind_ok (written.trans (write_run _ _))]
  exact follows_error text rfl (Bool.or_false _).symm

theorem executeCommand_follows (direct : runsInTransaction cmd)
    (stays : grantedVerdict backend session.activeDb cmd args ≠ .leaves) :
    Follows session context aborted (grantedVerdict backend session.activeDb cmd args) (settle
      ((do executeCommand backend cmd args; clearAsking).run
        ⟨context, session.inTransaction asking aborted queue, [], []⟩)) := by
  have given : cmd = .exec ∨ cmd = .discard → args ≠ [] := by
    rintro (rfl | rfl) rfl <;> exact stays rfl
  simp only [runsInTransaction, decide_eq_true_eq] at direct
  rcases direct with rfl | rfl | rfl | rfl
  · have given := given (.inl rfl)
    refine control_follows backend (wrongArity "exec") ?_ ?_
    · simp [grantedVerdict, given]
    · simp [executeCommand, executeExec, given]
  · have given := given (.inr rfl)
    refine control_follows backend (wrongArity "discard") ?_ ?_
    · simp [grantedVerdict, given]
    · simp [executeCommand, executeDiscard, given]
  · by_cases given : args = []
    · refine control_follows backend (bytesOf "ERR MULTI calls can not be nested") ?_ ?_
      · simp [grantedVerdict]
      · simp [executeCommand, executeMulti, given, ServerSession.inTransaction]
    · refine control_follows backend (wrongArity "multi") ?_ ?_
      · simp [grantedVerdict]
      · simp [executeCommand, executeMulti, given]
  · exact absurd rfl stays

theorem command_follows (stays : verdict backend session context (.command cmd args) ≠ .leaves) :
    Follows session context aborted (verdict backend session context (.command cmd args))
      (answer backend (.command cmd args)
        ⟨context, session.inTransaction asking aborted queue, [], []⟩) := by
  dsimp only [verdict] at stays ⊢
  obtain rfl | known := eq_or_ne cmd .none
  · exact follows_taken [] (by decide)
  rw [if_neg known] at stays ⊢
  show Follows _ _ _ _ (settle ((CommandDispatcher.serve backend cmd args).run _))
  have sameGate : gate context (session.inTransaction asking aborted queue) cmd args =
      gate context session cmd args := rfl
  cases gated : gate context session cmd args with
  | some text =>
    rw [serve_refused backend known (sameGate.trans gated)]
    exact follows_error text rfl (Bool.or_false _).symm
  | none =>
    rw [gated] at stays
    rw [serve_handedOver backend (tryDispatchSync_async backend known (sameGate.trans gated) rfl)]
    cases direct : runsInTransaction cmd with
    | false =>
      rw [dispatch_queue backend known (sameGate.trans gated) rfl direct]
      exact queueCommand_follows backend direct stays
    | true =>
      have keyless : extractKeys cmd args = .none := by
        simp only [runsInTransaction, decide_eq_true_eq] at direct
        rcases direct with rfl | rfl | rfl | rfl <;> cases args <;> rfl
      rw [dispatch_keyless backend known (sameGate.trans gated) (by simp [direct]) keyless]
      exact executeCommand_follows backend direct stays

theorem serveUnknown_inTransaction (name input : Bytes) : (serveUnknown backend name input).run
        ⟨context, session.inTransaction asking aborted queue, [], []⟩ =
      (.ok (), ⟨context, session.inTransaction asking true queue,
        writeError (unknownCommandText session.authenticated name), []⟩) := by
  have unrouted : (routeUnknown backend name input).run
      ⟨context, session.inTransaction asking aborted queue, [], []⟩ =
        (.ok false, ⟨context, session.inTransaction asking aborted queue, [], []⟩) := by
    rw [routeUnknown, reads_bind_run, if_neg (by simp [ServerSession.inTransaction])]
    rfl
  rw [serveUnknown, Fallible.bind_ok unrouted, if_neg Bool.false_ne_true, refuseUnknown,
    modifySession_bind_run, reads_bind_run]
  simp only [ServerSession.inTransaction, Bool.or_true]
  rfl

theorem answer_follows {request : ClientRequest}
    (stays : verdict backend session context request ≠ .leaves) :
    Follows session context aborted (verdict backend session context request)
      (answer backend request ⟨context, session.inTransaction asking aborted queue, [], []⟩) := by
  match request with
  | .command cmd args => exact command_follows backend stays
  | .unknown name input =>
    rw [answer, serveRequest, serveUnknown_inTransaction]
    exact follows_error _ rfl (Bool.or_true _).symm
  | .replica (.psync replid offset) =>
    show Follows _ _ _ _ (⟨_, _, psyncReply context replid offset, _⟩, true)
    dsimp only [verdict] at stays ⊢
    unfold psyncReply
    rcases handlePsync context.repl replid.bytes offset context.hlogBegin context.hlogTail with
      error | decision
    · exact follows_error _ rfl (Bool.or_false _).symm
    · have plus : (some 43 : Option UInt8) ≠ some 45 := by decide
      cases decision <;> exact follows_taken _ plus
  | .replica .ping => exact follows_taken writePong (by decide)
  | .replica (.auth _) => exact follows_taken writeOk (by decide)
  | .replica (.replConf _) => exact follows_taken writeOk (by decide)

def serveAll : ServerSession → List (ServerContext World × ClientRequest) →
    ServerSession × List Bytes
  | session, [] => (session, [])
  | session, (context, request) :: rest =>
    let served := (answer backend request ⟨context, session, [], []⟩).1
    let others := serveAll served.session rest
    (others.1, served.sendBuf :: others.2)

theorem serveAll_follows {visits : List (ServerContext World × ClientRequest)}
    (stays : ∀ visit ∈ visits, verdict backend session visit.1 visit.2 ≠ .leaves) :
    ∃ asking' queue', (serveAll backend (session.inTransaction asking aborted queue) visits).1 =
        session.inTransaction asking' (aborted || visits.any fun visit =>
          verdict backend session visit.1 visit.2 == .remembered) queue' ∧
      ((∃ reply ∈ (serveAll backend (session.inTransaction asking aborted queue) visits).2,
          reply.head? = some 45) ↔
        ∃ visit ∈ visits, (verdict backend session visit.1 visit.2).isError) := by
  induction visits generalizing asking aborted queue with
  | nil => exact ⟨asking, queue, by simp [serveAll], by simp [serveAll]⟩
  | cons visit rest ih =>
    obtain ⟨context, request⟩ := visit
    have step : Follows session context aborted _
        (answer backend request ⟨context, session.inTransaction asking aborted queue, [], []⟩) :=
      answer_follows backend (stays (context, request) List.mem_cons_self)
    obtain ⟨nextAsking, nextQueue, reply, answered, isError⟩ := step
    obtain ⟨asking', queue', final, seen⟩ := @ih nextAsking _ nextQueue
      fun visit member => stays visit (List.mem_cons_of_mem _ member)
    refine ⟨asking', queue', ?_, ?_⟩
    · rw [serveAll, answered]
      rw [final, List.any_cons, Bool.or_assoc]
    · rw [serveAll, answered]
      simp only [List.mem_cons, exists_eq_or_imp, isError, seen]

theorem answer_multi (idle : session.inTxn = false)
    (granted : gate context session .multi [] = none) :
    (answer backend (.command .multi []) ⟨context, session, [], []⟩).1.session =
      session.inTransaction false false [] := by
  have opened : (executeMulti []).run (⟨context, session, [], []⟩ : Turn World) =
      (.ok (), ⟨context, session.inTransaction session.asking false [], writeOk, []⟩) := by
    rw [executeMulti, if_neg (not_not_intro rfl), reads_bind_run, if_neg (by simp [idle])]
    rfl
  rw [answer, serveRequest, serve_control backend (.inl rfl) granted, executeCommand,
    Fallible.bind_ok opened]
  rfl

theorem answer_exec_aborted (granted : gate context session .exec [] = none) :
    answer backend (.command .exec []) ⟨context, session.inTransaction asking true queue, [], []⟩ =
      (⟨context, { session.resetTxn with asking := false }, writeError execAbort, []⟩, true) := by
  rw [answer, serveRequest, serve_control backend (.inr (.inl rfl)) granted, executeCommand,
    Fallible.bind_ok (executeExec_aborted backend rfl rfl)]
  rfl

theorem gate_ne_execAbort {text : Bytes} (refused : gate context session cmd args = some text) :
    text ≠ execAbort := by
  unfold gate gateError at refused
  rintro rfl
  split at refused
  · exact absurd refused (by decide)
  · split at refused
    · exact absurd refused (by decide)
    · split at refused
      · have firstByte : (some 78 : Option UInt8) = some 69 :=
          congrArg (fun text => text.bind List.head?) refused
        exact absurd firstByte (by decide)
      · cases refused

theorem answer_exec_refused {text : Bytes} (refused : gate context session .exec [] = some text) :
    (answer backend (.command .exec [])
        ⟨context, session.inTransaction asking aborted queue, [], []⟩).1.sendBuf ≠
      writeError execAbort := by
  rw [answer, serveRequest, serve_refused backend (by decide) refused]
  exact fun same => gate_ne_execAbort refused (List.append_cancel_right (List.cons.inj same).2)

theorem answer_exec_unaborted (granted : gate context session .exec [] = none) :
    (answer backend (.command .exec [])
        ⟨context, session.inTransaction asking false queue, [], []⟩).1.sendBuf ≠
      writeError execAbort := by
  rw [answer, serveRequest, serve_control backend (.inr (.inl rfl)) granted, executeCommand]
  rcases @executeExec_cases _ backend
      ⟨context, session.inTransaction asking false queue, [], []⟩ rfl rfl with
    ⟨error, failed⟩ | ran
  · rw [Fallible.bind_error failed]
    cases error with
    | wrongType => exact show writeError wrongType ≠ writeError execAbort by decide
    | other text =>
      intro same
      have thirdByte : (some 82 : Option UInt8) = some 88 :=
        congrArg (fun bytes => (bytes.drop 2).head?) same
      exact absurd thirdByte (by decide)
    | panic => exact show ([] : Bytes) ≠ writeError execAbort by decide
  · have queued := runQueue_footprint backend (fun _ _ => trivial)
      (queueScriptsAllowed_true backend queue
        (beginQueue ⟨context, session.inTransaction asking false queue, [], []⟩))
    have grown := settle_footprint (Fallible.bind_within (ran ▸ queued) fun _ =>
      modifyClient_footprint fun client => { client with asking := false })
    obtain ⟨rest, whole⟩ := grown.sendBuf
    rw [← whole]
    exact fun same => absurd (List.cons.inj same).1 (by decide)

/-- EXEC says that the transaction was aborted, and the store is as it found it. -/
def Aborts (context : ServerContext World) (answered : Turn World) : Prop :=
  answered.sendBuf = writeError execAbort ∧ answered.accesses = [] ∧ answered.context = context

theorem exec_aborts_iff_remembered (aborted : Bool) :
    Aborts context (answer backend (.command .exec [])
        ⟨context, session.inTransaction asking aborted queue, [], []⟩).1 ↔
      aborted ∧ gate context session .exec [] = none := by
  cases gated : gate context session .exec [] with
  | some text =>
    exact iff_of_false (fun aborts => answer_exec_refused backend gated aborts.1)
      fun both => nomatch both.2
  | none =>
    cases aborted with
    | false =>
      exact iff_of_false (fun aborts => answer_exec_unaborted backend gated aborts.1)
        fun both => nomatch both.1
    | true =>
      rw [answer_exec_aborted backend gated]
      exact iff_of_true ⟨rfl, rfl, rfl⟩ ⟨rfl, rfl⟩

def transact (session : ServerSession) (start : ServerContext World)
    (visits : List (ServerContext World × ClientRequest)) (last : ServerContext World) :
    List Bytes × Turn World :=
  let begun := (answer backend (.command .multi []) ⟨start, session, [], []⟩).1.session
  let served := serveAll backend begun visits
  (served.2, (answer backend (.command .exec []) ⟨last, served.1, [], []⟩).1)

/-- From MULTI to EXEC, EXEC aborts whenever a request was answered with an error exactly when none
is refused, or one in a way that is remembered and the user may run EXEC. -/
theorem exec_aborts_after_error_iff (start last : ServerContext World)
    (visits : List (ServerContext World × ClientRequest)) (idle : session.inTxn = false)
    (opened : gate start session .multi [] = none)
    (stays : ∀ visit ∈ visits, verdict backend session visit.1 visit.2 ≠ .leaves) :
    ((∃ reply ∈ (transact backend session start visits last).1, reply.head? = some 45) →
        Aborts last (transact backend session start visits last).2) ↔
      (∀ visit ∈ visits, (verdict backend session visit.1 visit.2).isError = false) ∨
        (∃ visit ∈ visits, verdict backend session visit.1 visit.2 = .remembered) ∧
          gate last session .exec [] = none := by
  have begun := answer_multi backend idle opened
  obtain ⟨asking, queue, ended, seen⟩ := @serveAll_follows _ backend session false false [] visits
    stays
  dsimp only [transact]
  rw [begun, seen, ended, exec_aborts_iff_remembered, Bool.false_or, List.any_eq_true]
  simp only [beq_iff_eq]
  by_cases error : ∃ visit ∈ visits, (verdict backend session visit.1 visit.2).isError = true
  · have someRefused : ¬∀ visit ∈ visits,
        (verdict backend session visit.1 visit.2).isError = false := by
      obtain ⟨visit, member, isError⟩ := error
      exact fun none => absurd (none visit member) (by rw [isError]; decide)
    rw [imp_iff_right error, or_iff_right someRefused]
  · refine iff_of_true (fun contrary => absurd contrary error) (.inl fun visit member => ?_)
    exact Bool.eq_false_iff.mpr fun isError => error ⟨visit, member, isError⟩

end

section

open KeyValueServer

private def withoutGet : ServerContext Unit :=
  KeyValueServer.context false [.multi, .exec, .set] (fun _ => .empty)

private def unknownThenSet : List (ServerContext Unit × ClientRequest) :=
  [(withoutGet, .unknown (bytesOf "NOPE") []),
    (withoutGet, .command .set [bytesOf "k", bytesOf "v"])]

theorem exec_aborts_after_unknown_command :
    (transact backend (.new 1 false) withoutGet unknownThenSet withoutGet).2.sendBuf =
      bytesOf "-EXECABORT Transaction discarded because of previous errors.\r\n" :=
  ((exec_aborts_after_error_iff backend withoutGet withoutGet unknownThenSet rfl (by decide)
    (by decide)).mpr (.inr ⟨⟨_, List.mem_cons_self, rfl⟩, by decide⟩)
    ⟨_, List.mem_cons_self, rfl⟩).1

/-- GET is refused because the user may not run it, SET is queued, and EXEC runs SET. -/
theorem exec_runs_after_refused_get :
    let refused := transact backend (.new 1 false) withoutGet
      [(withoutGet, .command .get [bytesOf "k"]),
        (withoutGet, .command .set [bytesOf "k", bytesOf "v"])] withoutGet
    refused.1 = [bytesOf "-NOPERM this user has no permissions to run the 'GET' command\r\n",
        bytesOf "+QUEUED\r\n"] ∧
      refused.2.sendBuf = bytesOf "*1\r\n+OK\r\n" ∧
      refused.2.accesses = [.set] ∧
      (refused.2.context.keyspace 0 0 (bytesOf "k")).bytes = some (bytesOf "v") := by
  decide

end

end Wedb.Server
