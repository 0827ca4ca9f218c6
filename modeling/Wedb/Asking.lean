/-
The asking flag of a session. ASKING sets it, the routing of a command reads it, and the end of
every dispatch clears it, that of ASKING included.
-/

import Wedb.Cluster
import Wedb.Connection
import Wedb.KeyValueServer

namespace Wedb.Server.CommandDispatcher

open Cluster Resp Serve Fallible

variable {World : Type}

def routedKeys (cmd : RespCommand) (args : List Bytes) : List Bytes :=
  match extractKeys cmd args with
  | .none => []
  | .single key => [key]
  | .several keys => keys

variable (context : ServerContext World)

def Routed (session : ServerSession) (cmd : RespCommand) (args : List Bytes) : Prop :=
  cmd ≠ .none ∧ gate context session cmd args = none ∧
    (session.inTxn && !runsInTransaction cmd) = false ∧ context.clustered = true ∧
    routedKeys cmd args ≠ []

instance (context : ServerContext World) (session : ServerSession) (cmd : RespCommand)
    (args : List Bytes) : Decidable (Routed context session cmd args) :=
  inferInstanceAs (Decidable (_ ∧ _ ∧ _ ∧ _ ∧ _))

theorem route_run {backend : Backend World} {cmd : RespCommand} {args : List Bytes}
    {turn : Turn World} (clustered : turn.context.clustered) :
    (route backend cmd args).run turn =
      if routedKeys cmd args = [] then (.ok true, turn)
      else (routeKeys backend cmd (routedKeys cmd args)).run turn := by
  unfold route routedKeys
  rw [reads_bind_run, clustered, if_pos rfl]
  cases extractKeys cmd args with
  | none => rfl
  | single key => rfl
  | several keys => cases keys <;> rfl

def routedFlag (session : ServerSession) : ClientRequest → Option Bool
  | .command cmd args => if Routed context session cmd args then some session.asking else none
  | _ => none

def successfulAsking (session : ServerSession) : ClientRequest → Bool
  | .command .asking [] => (gate context session .asking []).isNone && !session.inTxn
  | _ => false

def AskingDown (turn : Turn World) : Prop := turn.session.asking = false

/-- The flag is down, or the request ends the connection. -/
def Lowers (outcome : Except ServerError Unit × Turn World) : Prop :=
  outcome.1 = .ok () ∨ outcome.1 = .error .wrongType → AskingDown outcome.2

section Request

variable {backend : Backend World} {config : World → ClusterConfig} {cmd : RespCommand}
  {args : List Bytes} {turn : Turn World}

theorem bindSession_ok (accepted : Bool) (name : Bytes) (ns : Option Nat) :
    ((bindSession accepted name ns).run turn).1 = .ok () := by
  cases accepted <;> rfl

theorem executeAuth_ok : ((executeAuth args).run turn).1 = .ok () := by
  unfold executeAuth
  split
  · exact bindSession_ok _ _ _
  · unfold authAndBindSession
    split
    · rfl
    · rw [reads_bind_run]
      rw [bind_run]
      dsimp only [modifyContext, modify_run]
      split
      · exact bindSession_ok _ _ _
      · rfl
  · rfl

theorem evalScript_ok (name : String) :
    ((evalScript backend cmd name args).run turn).1 = .ok () := by
  unfold evalScript
  split
  · split
    · rfl
    · rw [bind_run, total_run]
      dsimp only
      rw [finishScript, bind_run]
      dsimp only [modifyContext, modify_run]
      split <;> rfl
  · rfl

theorem flagArm_ok (name : String) (set : ClientState → ClientState)
    (context : ServerContext World) (client : ClientState) :
    (flagArm name set args context client).result = .ok () := by
  unfold flagArm
  split <;> rfl

theorem executeArm_ok_or_same :
    ((executeArm (backend.onCluster config) cmd args).run turn).1 = .ok () ∨
      ((executeArm (backend.onCluster config) cmd args).run turn).2.session.asking =
        turn.session.asking := by
  unfold executeArm
  split
  · exact .inl rfl
  · exact .inl executeAuth_ok
  · exact .inl (evalScript_ok "eval")
  · exact .inl (evalScript_ok "evalsha")
  · unfold perform Backend.onCluster
    dsimp only
    split
    · exact .inl (flagArm_ok _ _ _ _)
    · exact .inl (flagArm_ok _ _ _ _)
    · exact .inl (flagArm_ok _ _ _ _)
    · exact .inr rfl

theorem runQueue_not_wrongType (queue : List QueuedCommand) (turn : Turn World) :
    ((runQueue backend queue).run turn).1 ≠ .error .wrongType := by
  induction queue generalizing turn with
  | nil => exact fun impossible => nomatch impossible
  | cons item rest ih =>
    have caught : ((replyWrongType (executeSingleCommand backend item.cmd item.args)).run
        turn).1 ≠ .error .wrongType := by
      unfold replyWrongType
      dsimp only
      split
      · exact fun impossible => nomatch impossible
      · rename_i other
        intro wrongType
        exact other _ (Prod.ext wrongType rfl)
    rw [runQueue, bind_run]
    revert caught
    rcases (replyWrongType (executeSingleCommand backend item.cmd item.args)).run turn with
      ⟨error | _, after⟩
    · exact id
    · exact fun _ => ih after

theorem executeMulti_ok : ((executeMulti args).run turn).1 = .ok () := by
  unfold executeMulti
  split
  · rfl
  · rw [reads_bind_run]
    split <;> rfl

theorem executeDiscard_ok : ((executeDiscard args).run turn).1 = .ok () := by
  unfold executeDiscard
  split
  · rfl
  · rw [reads_bind_run]
    split <;> rfl

theorem executeExec_lowers (down : AskingDown turn)
    (failed : ((executeExec backend args).run turn).1 = .error .wrongType) :
    AskingDown ((executeExec backend args).run turn).2 := by
  cases args with
  | cons => cases failed
  | nil =>
    cases inTxn : turn.session.inTxn with
    | false =>
      rw [executeExec, if_neg (not_not_intro rfl), reads_bind_run, if_pos (by simp [inTxn])]
        at failed
      cases failed
    | true =>
      cases aborted : turn.session.txnAborted with
      | true =>
        rw [executeExec_aborted backend inTxn aborted] at failed
        cases failed
      | false =>
        rcases executeExec_cases backend inTxn aborted with ⟨error, locked⟩ | ran
        · rw [locked]
          exact down
        · rw [ran] at failed
          exact absurd failed (runQueue_not_wrongType _ _)

theorem executeCommand_lowers (down : AskingDown turn)
    (failed : ((executeCommand (backend.onCluster config) cmd args).run turn).1 =
      .error .wrongType) :
    AskingDown ((executeCommand (backend.onCluster config) cmd args).run turn).2 := by
  revert failed
  unfold executeCommand
  split
  · rw [executeMulti_ok]
    exact fun impossible => nomatch impossible
  · rw [executeDiscard_ok]
    exact fun impossible => nomatch impossible
  · exact executeExec_lowers down
  · intro failed
    rcases @executeArm_ok_or_same World backend config cmd args
      { turn with accesses := turn.accesses ++ [cmd] } with fine | same
    · exact nomatch fine.symm.trans failed
    · exact same.trans down

theorem execute_lowers (down : AskingDown turn) : Lowers
    ((do executeCommand (backend.onCluster config) cmd args; clearAsking).run turn) := by
  have failed := @executeCommand_lowers World backend config cmd args turn down
  rw [bind_run]
  revert failed
  rcases (executeCommand (backend.onCluster config) cmd args).run turn with ⟨error | _, after⟩
  · exact fun failed ended => failed (ended.resolve_left fun impossible => nomatch impossible)
  · exact fun _ _ => rfl

theorem queueCommand_asking :
    ((queueCommand backend cmd args).run turn).2.session.asking = turn.session.asking := by
  unfold queueCommand
  split
  · rfl
  · rw [reads_bind_run]
    split
    · rfl
    · split <;> rfl

theorem routeKeys_down (keys : List Bytes) (down : AskingDown turn) :
    ∃ routed after, (routeKeys backend cmd keys).run turn = (.ok routed, after) ∧
      AskingDown after := by
  unfold routeKeys
  rw [bind_run, total_run]
  dsimp only
  rw [reads_bind_run]
  split
  · exact ⟨true, _, rfl, down⟩
  · exact ⟨false, _, rfl, rfl⟩
  · exact ⟨false, _, rfl, rfl⟩
  · exact ⟨false, _, rfl, rfl⟩
  · exact ⟨false, _, rfl, rfl⟩

theorem serve_lowers (clustered : turn.context.clustered) (down : AskingDown turn) :
    Lowers ((serve (backend.onCluster config) cmd args).run turn) := by
  obtain rfl | known := eq_or_ne cmd .none
  · exact fun _ => down
  cases granted : gate turn.context turn.session cmd args with
  | some text =>
    rw [serve_refused _ known granted]
    exact fun _ => down
  | none =>
    have undecided := tryDispatchSync_async (backend.onCluster config) known granted
      (show (turn.session.inTxn || turn.context.clustered) = true by rw [clustered, Bool.or_true])
    rw [serve_handedOver _ undecided]
    cases direct : turn.session.inTxn && !runsInTransaction cmd with
    | true =>
      rw [Bool.and_eq_true, Bool.not_eq_true'] at direct
      rw [dispatch_queue _ known granted direct.1 direct.2]
      exact fun _ => queueCommand_asking.trans down
    | false =>
      rw [dispatch, if_neg known, reads_bind_run, granted]
      rw [reads_bind_run, direct, if_neg Bool.false_ne_true, bind_run, route_run clustered]
      by_cases keyless : routedKeys cmd args = []
      · rw [if_pos keyless]
        exact execute_lowers down
      · rw [if_neg keyless]
        obtain ⟨routed, after, ran, lowered⟩ : ∃ routed after, (routeKeys
            (backend.onCluster config) cmd (routedKeys cmd args)).run turn = (.ok routed, after) ∧
            AskingDown after := routeKeys_down _ down
        rw [ran]
        cases routed with
        | true => exact execute_lowers lowered
        | false => exact fun _ => lowered

theorem tryRouteModuleCommand_keeps (name input : Bytes) :
    Fallible.Within (Fallible.Keeps AskingDown) (tryRouteModuleCommand backend name input) := by
  refine (within_gets _).bind fun procedure => ?_
  split
  · exact within_pure _
  · rename_i procedure
    split
    · have called : ∀ turn, Fallible.Keeps AskingDown turn
          (procedure.run (scriptStep backend) turn).2 :=
        (Program.only_of_forall (fun _ => trivial) procedure).run_within (scriptStep backend)
          fun _ _ _ => id
      refine Fallible.Within.bind called fun result => ?_
      split <;> exact Fallible.Within.bind (fun _ => id) fun _ => within_pure _
    · exact within_pure _

theorem serveUnknown_keeps (name input : Bytes) :
    Fallible.Within (Fallible.Keeps AskingDown) (serveUnknown backend name input) := by
  refine Fallible.Within.bind ?_ fun routed => ?_
  · refine (within_gets _).bind fun asked => ?_
    split
    · exact tryRouteModuleCommand_keeps name input
    · exact within_pure _
  · split
    · exact within_pure _
    · exact Fallible.Within.bind (fun _ => id) fun _ =>
        (within_gets _).bind fun _ _ => id

theorem settle_lowers {outcome : Except ServerError Unit × Turn World} (lowers : Lowers outcome)
    (continues : (settle outcome).2) : AskingDown (settle outcome).1 := by
  rcases outcome with ⟨(_ | _ | _) | _, after⟩
  · exact lowers (.inr rfl)
  · cases continues
  · cases continues
  · exact lowers (.inl rfl)

theorem answer_lowers {request : ClientRequest} (clustered : turn.context.clustered)
    (down : AskingDown turn)
    (continues : (answer (backend.onCluster config) request turn).2) :
    AskingDown (answer (backend.onCluster config) request turn).1 := by
  refine settle_lowers ?_ continues
  cases request with
  | command cmd args => exact serve_lowers clustered down
  | replica command => exact fun _ => down
  | unknown name input => exact fun _ => serveUnknown_keeps name input turn down

end Request

def routings (backend : Backend World) (session : ServerSession) (follows : Bool) :
    List (ServerContext World × ClientRequest) → List (Bool × Bool)
  | [] => []
  | (context, request) :: rest =>
    let answered := answer backend request ⟨context, session, [], []⟩
    (routedFlag context session request).toList.map (·, follows) ++
      if answered.2 && !answered.1.session.isClosed then
        routings backend answered.1.session (successfulAsking context session request) rest
      else []

theorem routings_down (backend : Backend World) (config : World → ClusterConfig)
    {session : ServerSession} (follows : Bool)
    {visits : List (ServerContext World × ClientRequest)} (down : session.asking = false)
    (clustered : ∀ visit ∈ visits, visit.1.clustered) :
    ∀ routing ∈ routings (backend.onCluster config) session follows visits, routing.1 = false := by
  induction visits generalizing session follows with
  | nil => exact fun _ impossible => absurd impossible List.not_mem_nil
  | cons visit rest ih =>
    obtain ⟨context, request⟩ := visit
    intro routing member
    rcases List.mem_append.mp member with here | later
    · obtain ⟨flag, known, rfl⟩ := List.mem_map.mp here
      have routed := Option.mem_toList.mp known
      unfold routedFlag at routed
      split at routed
      · split at routed
        · exact (Option.some.inj routed).symm.trans down
        · cases routed
      · cases routed
    · split at later
      · rename_i continues
        rw [Bool.and_eq_true] at continues
        have lowered := answer_lowers (clustered _ List.mem_cons_self)
          (show AskingDown ⟨context, session, [], []⟩ from down) continues.1
        exact ih _ lowered
          (fun visit member => clustered visit (List.mem_cons_of_mem _ member)) routing later
      · exact absurd later List.not_mem_nil

/-- A new session routes exactly the commands behind a successful ASKING with the flag iff no routed
command stands behind one. -/
theorem asking_one_shot_iff (backend : Backend World) (config : World → ClusterConfig)
    (session : ServerSession) (down : session.asking = false)
    (visits : List (ServerContext World × ClientRequest))
    (clustered : ∀ visit ∈ visits, visit.1.clustered = true) :
    (∀ routing ∈ routings (backend.onCluster config) session false visits, routing.1 = routing.2) ↔
      ∀ routing ∈ routings (backend.onCluster config) session false visits, routing.2 = false := by
  have never := routings_down backend config false down clustered
  constructor
  · exact fun oneShot routing member => (oneShot routing member).symm.trans (never routing member)
  · exact fun apart routing member => (never routing member).trans (apart routing member).symm

def node : ServerContext Unit :=
  { KeyValueServer.context false [.asking, .get, .ping] fun _ => .empty with clustered := true }

def noSlots : ClusterConfig := ⟨fun _ => ⟨0, .offline⟩, []⟩

theorem asking_one_shot_behind_ping :
    let requests := [(node, .command .asking []), (node, .command .ping []),
      (node, .command .get [[107]])]
    let seen := routings (KeyValueServer.backend.onCluster fun _ => noSlots) (.new 0 false) false
      requests
    seen = [(false, false)] ∧ ∀ routing ∈ seen, routing.1 = routing.2 :=
  ⟨by decide +kernel,
    (asking_one_shot_iff KeyValueServer.backend (fun _ => noSlots) (.new 0 false) rfl
      [(node, .command .asking []), (node, .command .ping []), (node, .command .get [[107]])]
      (by simp [node])).mpr (by decide +kernel)⟩

/-- GET directly behind ASKING is routed without the flag. -/
theorem asking_lost_before_get :
    routings (KeyValueServer.backend.onCluster fun _ => noSlots) (.new 0 false) false
      [(node, .command .asking []), (node, .command .get [[107]])] = [(false, true)] := by
  decide +kernel

end Wedb.Server.CommandDispatcher
