/-
Can a user reach a command the access control list withholds? The gates stop the command itself, but
the look-ahead over pipelined GET frames and the calls of a script pass no gate.
-/

import Mathlib.Logic.Relation
import Wedb.Footprint
import Wedb.KeyValueServer

namespace Wedb.Server

open Kv Object Repl Resp CommandDispatcher Serve Fallible

variable {World : Type} {target : RespCommand}

/-- The session is not authenticated, or its user is not permitted to run the command. -/
def Denied (target : RespCommand) (turn : Turn World) : Prop :=
  turn.session.authenticated = false ∨
    turn.context.permits turn.session.toClientState target = false

/-- `target` was not run and is not queued. -/
structure Withheld (target : RespCommand) (turn : Turn World) : Prop where
  accesses : target ∉ turn.accesses
  txnQueue : ∀ item ∈ turn.session.txnQueue, item.cmd ≠ target

variable {before after turn : Turn World}

theorem Withheld.footprint (withheld : Withheld target before)
    (executed : Footprint (· ≠ target) before after) : Withheld target after where
  accesses member := (executed.accesses target member).elim withheld.accesses (· rfl)
  txnQueue := executed.txnQueue ▸ withheld.txnQueue

theorem Withheld.andThen {α β : Type} {action : Serve World α} {next : α → Serve World β}
    (withheld : Withheld target (action.run turn).2)
    (after : ∀ value, Within (Footprint (· ≠ target)) (next value)) :
    Withheld target ((action >>= next).run turn).2 :=
  withheld.footprint (bind_within (Std.Refl.refl _) after)

theorem gate_denied (gated : ungated target = false)
    (denied : Denied target turn) (args : List Bytes) :
    ∃ text, gate turn.context turn.session target args = some text := by
  unfold gate gateError permission
  rcases denied with unauthenticated | unpermitted
  · simp only [unauthenticated, gated]
    split <;> exact ⟨_, rfl⟩
  · simp only [unpermitted, gated]
    split
    · exact ⟨_, rfl⟩
    · split <;> exact ⟨_, rfl⟩

theorem ne_of_granted {cmd : RespCommand} {args : List Bytes}
    (gated : ungated target = false) (denied : Denied target turn)
    (granted : gate turn.context turn.session cmd args = none) : cmd ≠ target := by
  rintro rfl
  obtain ⟨text, refused⟩ := gate_denied gated denied args
  rw [granted] at refused
  cases refused

section

variable (backend : Backend World) {turn : Turn World} {cmd : RespCommand} {args : List Bytes}

def ScriptsSpare (target : RespCommand) (turn : Turn World) : ClientRequest → Prop
  | .command cmd args =>
    gate turn.context turn.session cmd args = none →
      if turn.session.inTxn then
        cmd = .exec → args = [] → turn.session.txnAborted = false →
          QueueScriptsAllowed backend (· ≠ target) turn.session.txnQueue (beginQueue turn)
      else ScriptAllowed backend (· ≠ target) turn.context cmd args
  | _ => True

section

variable (withheld : Withheld target turn)

include withheld

theorem queueCommand_withheld (other : cmd ≠ target) :
    Withheld target ((queueCommand backend cmd args).run turn).2 := by
  unfold queueCommand
  split
  · exact ⟨withheld.accesses, withheld.txnQueue⟩
  · rw [reads_bind_run]
    split
    · exact ⟨withheld.accesses, withheld.txnQueue⟩
    · split
      · exact withheld
      · exact ⟨withheld.accesses, withheld.txnQueue⟩
      · refine ⟨withheld.accesses, fun item member => ?_⟩
        rcases List.mem_append.mp member with before | now
        · exact withheld.txnQueue item before
        · rw [List.mem_singleton.mp now]
          exact other

theorem executeExec_withheld
    (scripts : turn.session.inTxn → args = [] → turn.session.txnAborted = false →
      QueueScriptsAllowed backend (· ≠ target) turn.session.txnQueue (beginQueue turn)) :
    Withheld target ((executeExec backend args).run turn).2 := by
  obtain rfl | given := eq_or_ne args []
  · cases inTxn : turn.session.inTxn with
    | false =>
      rw [executeExec, if_neg (not_not_intro rfl), reads_bind_run, if_pos (by simp [inTxn])]
      exact withheld.footprint (write_footprint _ turn)
    | true =>
      cases aborted : turn.session.txnAborted with
      | true =>
        rw [executeExec_aborted backend inTxn aborted]
        exact ⟨withheld.accesses, fun _ member => (List.not_mem_nil member).elim⟩
      | false =>
        rcases executeExec_cases backend inTxn aborted with ⟨error, failed⟩ | ran
        · rw [failed]
          exact ⟨withheld.accesses, fun _ member => (List.not_mem_nil member).elim⟩
        · have taken : Withheld target (beginQueue turn) :=
            ⟨withheld.accesses, fun _ member => (List.not_mem_nil member).elim⟩
          rw [ran]
          exact taken.footprint
            (runQueue_footprint backend withheld.txnQueue (scripts inTxn rfl aborted))
  · rw [executeExec, if_pos given]
    exact withheld.footprint (write_footprint _ turn)

theorem executeMulti_withheld : Withheld target ((executeMulti args).run turn).2 := by
  unfold executeMulti
  split
  · exact withheld.footprint (write_footprint _ turn)
  · rw [reads_bind_run]
    split
    · exact withheld.footprint (write_footprint _ turn)
    · exact ⟨withheld.accesses, fun _ member => nomatch member⟩

theorem executeDiscard_withheld : Withheld target ((executeDiscard args).run turn).2 := by
  unfold executeDiscard
  split
  · exact withheld.footprint (write_footprint _ turn)
  · rw [reads_bind_run]
    split
    · exact withheld.footprint (write_footprint _ turn)
    · exact ⟨withheld.accesses, fun _ member => nomatch member⟩

theorem executeCommand_withheld (control : cmd = .multi ∨ cmd = .exec ∨ cmd = .discard)
    (scripts : turn.session.inTxn → cmd = .exec → args = [] → turn.session.txnAborted = false →
      QueueScriptsAllowed backend (· ≠ target) turn.session.txnQueue (beginQueue turn)) :
    Withheld target ((executeCommand backend cmd args).run turn).2 := by
  rcases control with rfl | rfl | rfl
  · exact executeMulti_withheld withheld
  · exact executeExec_withheld backend withheld fun inTxn => scripts inTxn rfl
  · exact executeDiscard_withheld withheld

end

theorem serve_withheld (gated : ungated target = false) (denied : Denied target turn)
    (withheld : Withheld target turn)
    (scripts : ScriptsSpare backend target turn (.command cmd args)) :
    Withheld target ((CommandDispatcher.serve backend cmd args).run turn).2 := by
  obtain rfl | known := eq_or_ne cmd .none
  · exact withheld
  cases granted : gate turn.context turn.session cmd args with
  | some text =>
    rw [serve_refused backend known granted]
    exact withheld.footprint (write_footprint _ turn)
  | none =>
    have other := ne_of_granted gated denied granted
    have scripts := scripts granted
    by_cases control : cmd = .multi ∨ cmd = .exec ∨ cmd = .discard
    · rw [serve_control backend control granted]
      refine Withheld.andThen (executeCommand_withheld backend withheld control ?_) fun _ =>
        modifyClient_footprint _
      intro inTxn
      rwa [inTxn, if_pos rfl] at scripts
    · cases inTxn : turn.session.inTxn with
      | false =>
        rw [inTxn, if_neg Bool.false_ne_true] at scripts
        exact withheld.footprint (serve_footprint backend inTxn control other granted scripts)
      | true =>
        rw [serve_handedOver backend
          (tryDispatchSync_async backend known granted (by rw [inTxn, Bool.true_or]))]
        obtain rfl | quit := eq_or_ne cmd .quit
        · rw [dispatch_keyless backend known granted (Bool.and_false _) (by cases args <;> rfl)]
          refine withheld.footprint (bind_within ?_ fun _ => modifyClient_footprint _)
          exact executeSingleCommand_footprint backend turn other
            (scriptAllowed_of_not_script backend (by decide) _)
        · have queued : runsInTransaction cmd = false := by
            simp only [not_or] at control
            simp [runsInTransaction, control, quit]
          rw [dispatch_queue backend known granted inTxn queued]
          exact queueCommand_withheld backend withheld other

theorem serveUnknown_withheld (name input : Bytes) :
    Within (Keeps (Withheld target)) (serveUnknown backend name input) := by
  have writes bytes : Within (Keeps (Withheld target)) (write bytes : Serve World Unit) :=
    fun turn withheld => withheld.footprint (write_footprint bytes turn)
  have routes : Within (Keeps (Withheld target)) (routeUnknown backend name input) := by
    refine Fallible.Within.bind (within_gets _) fun ready => ?_
    split
    · exact fun turn withheld =>
        withheld.footprint (tryRouteModuleCommand_footprint backend name input turn)
    · exact within_pure _
  refine routes.bind fun routed => ?_
  split
  · exact within_pure _
  · refine Fallible.Within.bind
      (fun turn withheld => ⟨withheld.accesses, withheld.txnQueue⟩) fun _ => ?_
    exact Fallible.Within.bind (within_gets _) fun authenticated => writes _

variable {request : ClientRequest}

theorem answer_withheld (gated : ungated target = false)
    (denied : Denied target turn) (withheld : Withheld target turn)
    (scripts : ScriptsSpare backend target turn request) :
    Withheld target (answer backend request turn).1 := by
  refine Withheld.footprint ?_ (settle_footprint (Std.Refl.refl _))
  match request with
  | .command cmd args => exact serve_withheld backend gated denied withheld scripts
  | .replica command => exact withheld.footprint (write_footprint _ turn)
  | .unknown name input => exact serveUnknown_withheld backend name input turn withheld

/-- The next frame starts no script that calls the command, and, if it is GET, no look-ahead
finds one. -/
def Guarded (target : RespCommand) (conn : Connection World) : Prop :=
  ∀ request consumed mru, conn.phase = .serving →
    readFrame conn.recvBuf conn.mru = .ready request consumed mru →
    ScriptsSpare backend target conn.turn request ∧
      (target = .get → looksAhead request conn.turn = true →
        lookAheadGet (conn.recvBuf.drop consumed) = none)

theorem speculativePipelineGet_stops {fuel : Nat} {input : Bytes}
    (stops : lookAheadGet input = none) :
    speculativePipelineGet backend fuel input turn = (turn, input) := by
  cases fuel with
  | zero => rfl
  | succ fuel =>
    unfold speculativePipelineGet
    rw [stops]

variable {conn : Connection World}

theorem proceed_withheld (withheld : Withheld target conn.turn)
    (spared : target = .get → looksAhead request conn.turn → lookAheadGet conn.recvBuf = none) :
    Withheld target (conn.proceed backend request).turn := by
  unfold Connection.proceed
  split
  · exact withheld
  · split
    · rename_i ahead
      by_cases get : target = .get
      · rw [speculativePipelineGet_stops backend (spared get ahead)]
        exact withheld
      · exact withheld.footprint
          (speculativePipelineGet_footprint backend (fun same => get same.symm) _ _ _)
    · exact withheld

theorem looksAhead_answer (denied : Denied .get turn) :
    looksAhead request (answer backend request turn).1 = looksAhead request turn := by
  unfold looksAhead
  split
  · rename_i args
    obtain ⟨text, refused⟩ := gate_denied rfl denied args
    rw [answer, serveRequest, serve_refused backend (by decide) refused]
    rfl
  · rfl

theorem serveFrame_withheld (gated : ungated target = false)
    (serving : conn.phase = .serving) (denied : Denied target conn.turn)
    (guarded : Guarded backend target conn) (withheld : Withheld target conn.turn) :
    Withheld target (conn.serveFrame backend).turn := by
  unfold Connection.serveFrame
  split
  · exact withheld
  · split
    · exact withheld
    · exact withheld.footprint (write_footprint _ conn.turn)
    · rename_i request consumed mru read
      obtain ⟨scripts, ahead⟩ := guarded request consumed mru serving read
      have answered := answer_withheld backend gated denied withheld scripts
      dsimp only
      split
      · exact answered
      · split
        · exact answered
        · refine proceed_withheld backend answered ?_
          rintro rfl looks
          rw [looksAhead_answer backend denied] at looks
          exact ahead rfl looks

/-- A session that may never run a command makes no store access of it, however the bytes arrive, if
no script calls it and no look-ahead finds it. -/
theorem denied_command_makes_no_access {first last : Connection World}
    (gated : ungated target = false) (fresh : Withheld target first.turn)
    (run : Relation.ReflTransGen (fun conn after => Denied target conn.turn ∧
      Guarded backend target conn ∧ Connection.Step backend conn after) first last) :
    target ∉ last.turn.accesses := by
  suffices invariant : Withheld target last.turn from invariant.accesses
  induction run with
  | refl => exact fresh
  | tail _ step withheld =>
    obtain ⟨denied, guarded, moved⟩ := step
    cases moved with
    | receive bytes reading =>
      unfold Connection.receive
      split <;> exact withheld
    | serve serving => exact serveFrame_withheld backend gated serving denied guarded withheld
    | interfere context same => exact ⟨withheld.accesses, withheld.txnQueue⟩

end

section

open KeyValueServer

/-- The default user may run EVAL and nothing else; the key `k` holds `v`. -/
private def onlyEval : ServerContext Unit :=
  KeyValueServer.context false [.eval] (holding (bytesOf "k") (bytesOf "v"))

private def getFrame : Bytes := bytesOf "*2\r\n$3\r\nGET\r\n$1\r\nk\r\n"

private def evalFrame : Bytes :=
  bytesOf "*4\r\n$4\r\nEVAL\r\n$32\r\n" ++ getScript ++ bytesOf "\r\n$1\r\n1\r\n$1\r\nk\r\n"

private def received : Connection Unit := (Connection.accept onlyEval 1).receive getFrame

theorem denied_get_alone_makes_no_access :
    RespCommand.get ∉ (received.serveFrame backend).turn.accesses := by
  have read : readFrame received.recvBuf received.mru =
    .ready (.command .get [bytesOf "k"]) 20 {} :=
    rfl
  have refused : gate received.turn.context received.turn.session .get [bytesOf "k"] ≠ none := by
    decide
  have reads : Denied .get (Connection.accept onlyEval 1).turn ∧
      Guarded backend .get (Connection.accept onlyEval 1) ∧
      Connection.Step backend (Connection.accept onlyEval 1) received :=
    ⟨.inr rfl, fun _ _ _ serving => absurd serving (by decide), .receive _ getFrame rfl⟩
  have serves : Denied .get received.turn ∧ Guarded backend .get received ∧
      Connection.Step backend received (received.serveFrame backend) := by
    refine ⟨.inr rfl, fun request consumed mru _ ready => ?_, .serve _ rfl⟩
    cases read.symm.trans ready
    exact ⟨fun granted => absurd granted refused, fun _ _ => rfl⟩
  exact denied_command_makes_no_access backend rfl
    ⟨List.not_mem_nil, fun _ member => absurd member List.not_mem_nil⟩
      (.tail (.single reads) serves)

/-- A user who may not run GET gets the value by the second of two pipelined GETs, or by a script.
-/
theorem denied_get_reads_the_store :
    let pipelined := (Connection.accept onlyEval 1).serveReads backend [getFrame ++ getFrame]
    let scripted := (Connection.accept onlyEval 1).serveReads backend [evalFrame]
    pipelined.turn.sendBuf =
        bytesOf "-NOPERM this user has no permissions to run the 'GET' command\r\n$1\r\nv\r\n" ∧
      pipelined.turn.accesses = [.get] ∧
      scripted.turn.sendBuf = bytesOf "$1\r\nv\r\n" ∧ scripted.turn.accesses = [.eval, .get] := by
  decide +kernel

end

end Wedb.Server
