/-
What the execution of a command can change. A handler never touches the transaction of the session,
and the store accesses recorded for a command are its own and those its script makes.
-/

import Wedb.Connection

namespace Wedb.Server.CommandDispatcher

open Kv Object Repl Resp Serve Fallible List Fallible

variable {World : Type}

/-- A turn appends replies, runs allowed commands only and keeps the transaction. -/
structure Footprint (allowed : RespCommand → Prop) (before after : Turn World) : Prop where
  sendBuf : before.sendBuf <+: after.sendBuf
  inTxn : after.session.inTxn = before.session.inTxn
  txnAborted : after.session.txnAborted = before.session.txnAborted
  txnQueue : after.session.txnQueue = before.session.txnQueue
  accesses : ∀ cmd ∈ after.accesses, cmd ∈ before.accesses ∨ allowed cmd

section

variable {allowed : RespCommand → Prop}

instance : Std.Refl (Footprint allowed : Turn World → Turn World → Prop) :=
  ⟨fun turn => ⟨List.prefix_refl turn.sendBuf, rfl, rfl, rfl, fun _ => .inl⟩⟩

instance : IsTrans (Turn World) (Footprint allowed) where
  trans _ _ _ first second :=
    { sendBuf := first.sendBuf.trans second.sendBuf
      inTxn := second.inTxn.trans first.inTxn
      txnAborted := second.txnAborted.trans first.txnAborted
      txnQueue := second.txnQueue.trans first.txnQueue
      accesses := fun cmd member => (second.accesses cmd member).elim (first.accesses cmd) .inr }

theorem write_footprint (bytes : Bytes) :
    Within (Footprint allowed) (write bytes : Serve World Unit) :=
  fun turn => ⟨prefix_append turn.sendBuf bytes, rfl, rfl, rfl, fun _ => .inl⟩

theorem modifyClient_footprint (change : ClientState → ClientState) :
    Within (Footprint allowed) (modifyClient change : Serve World Unit) :=
  fun turn => ⟨prefix_refl turn.sendBuf, rfl, rfl, rfl, fun _ => .inl⟩

theorem modifyContext_footprint (change : ServerContext World → ServerContext World) :
    Within (Footprint allowed) (modifyContext change : Serve World Unit) :=
  fun turn => ⟨prefix_refl turn.sendBuf, rfl, rfl, rfl, fun _ => .inl⟩

theorem perform_footprint (handler : ServerContext World → ClientState → Execution World) :
    Within (Footprint allowed) (perform handler) :=
  fun turn => ⟨prefix_append turn.sendBuf _, rfl, rfl, rfl, fun _ => .inl⟩

variable {cmd : RespCommand}

theorem access_footprint (own : allowed cmd) :
    Within (Footprint allowed) (access cmd : Serve World Unit) := by
  refine fun turn => ⟨prefix_refl turn.sendBuf, rfl, rfl, rfl, fun other member => ?_⟩
  rcases mem_append.mp member with before | now
  · exact .inl before
  · exact .inr (mem_singleton.mp now ▸ own)

theorem bindSession_footprint (accepted : Bool) (name : Bytes) (ns : Option Nat) :
    Within (Footprint allowed) (bindSession accepted name ns : Serve World Unit) := by
  unfold bindSession
  split
  · exact (modifyClient_footprint _).bind fun _ => write_footprint _
  · exact write_footprint _

theorem executeAuth_footprint (args : List Bytes) :
    Within (Footprint allowed) (executeAuth args : Serve World Unit) := by
  unfold executeAuth
  split
  · exact (within_gets _).bind fun _ => bindSession_footprint _ _ _
  · unfold authAndBindSession
    split
    · exact write_footprint _
    · refine (within_gets _).bind fun acl => ?_
      refine (modifyContext_footprint _).bind fun _ => ?_
      split
      · exact bindSession_footprint _ _ _
      · exact write_footprint _
  · exact write_footprint _

def scriptOf (backend : Backend World) (context : ServerContext World) (cmd : RespCommand)
    (args : List Bytes) : Option (ScriptProgram (Except LuaError RespValue × World)) :=
  match args with
  | script :: rest =>
    if cmd = .eval ∨ cmd = .evalsha then
      match splitKeysArgv rest with
      | .ok (keys, argv) => some (backend.script context cmd (fromUtf8Lossy script) keys argv)
      | .error _ => none
    else none
  | [] => none

def ScriptAllowed (backend : Backend World) (allowed : RespCommand → Prop)
    (context : ServerContext World) (cmd : RespCommand) (args : List Bytes) : Prop :=
  ∀ program ∈ scriptOf backend context cmd args,
    program.Only fun call => ∀ own ∈ call.command, allowed own

variable (backend : Backend World)

theorem scriptStep_footprint (call : ScriptCall) (turn : Turn World)
    (own : ∀ own ∈ call.command, allowed own) :
    Footprint allowed turn (scriptStep backend call turn).2 := by
  refine ⟨prefix_refl turn.sendBuf, rfl, rfl, rfl, fun cmd member => ?_⟩
  rcases mem_append.mp member with before | now
  · exact .inl before
  · exact .inr (own cmd (Option.mem_toList.mp now))

theorem finishScript_footprint (outcome : Except LuaError RespValue × World) :
    Within (Footprint allowed) (finishScript outcome) := by
  refine (modifyContext_footprint _).bind fun _ => ?_
  split <;> exact write_footprint _

variable {args : List Bytes}

theorem evalScript_footprint (name : String)
    (kind : cmd = .eval ∨ cmd = .evalsha) (turn : Turn World)
    (calls : ScriptAllowed backend allowed turn.context cmd args) :
    Footprint allowed turn ((evalScript backend cmd name args).run turn).2 := by
  unfold evalScript
  split
  · rename_i script count rest
    split
    · exact write_footprint _ turn
    · rename_i keys argv split
      have found : scriptOf backend turn.context cmd (script :: count :: rest) =
          some (backend.script turn.context cmd (fromUtf8Lossy script) keys argv) := by
        simp only [scriptOf, if_pos kind, split]
      have called : Footprint allowed turn _ :=
        (calls _ found).run_within (scriptStep backend) (scriptStep_footprint backend) turn
      exact IsTrans.trans _ _ _ called (finishScript_footprint _ _)
  · exact write_footprint _ turn

theorem executeArm_footprint (turn : Turn World)
    (calls : ScriptAllowed backend allowed turn.context cmd args) :
    Footprint allowed turn ((executeArm backend cmd args).run turn).2 := by
  unfold executeArm
  split
  · exact ((modifyClient_footprint _).bind fun _ => write_footprint _) turn
  · exact executeAuth_footprint args turn
  · exact evalScript_footprint backend "eval" (.inl rfl) turn calls
  · exact evalScript_footprint backend "evalsha" (.inr rfl) turn calls
  · exact perform_footprint _ turn

theorem executeSingleCommand_footprint (turn : Turn World) (own : allowed cmd)
    (calls : ScriptAllowed backend allowed turn.context cmd args) :
    Footprint allowed turn ((executeSingleCommand backend cmd args).run turn).2 :=
  IsTrans.trans _ _ _ (access_footprint own turn) (executeArm_footprint backend _ calls)

variable {turn start : Turn World}

theorem replyWrongType_footprint {action : Serve World Unit}
    (inner : Footprint allowed turn (action.run turn).2) :
    Footprint allowed turn ((replyWrongType action).run turn).2 := by
  unfold replyWrongType
  dsimp only
  split
  · rename_i after ran
    rw [ran] at inner
    exact IsTrans.trans _ _ _ inner (write_footprint _ after)
  · exact inner

def QueueScriptsAllowed (allowed : RespCommand → Prop) : List QueuedCommand → Turn World → Prop
  | [], _ => True
  | item :: rest, turn =>
    ScriptAllowed backend allowed turn.context item.cmd item.args ∧
      QueueScriptsAllowed allowed rest
        ((replyWrongType (executeSingleCommand backend item.cmd item.args)).run turn).2

theorem queueScriptsAllowed_true (queue : List QueuedCommand) (turn : Turn World) :
    QueueScriptsAllowed backend (fun _ => True) queue turn := by
  induction queue generalizing turn with
  | nil => trivial
  | cons item rest ih =>
    exact ⟨fun program _ => Program.only_of_forall (fun _ _ _ => trivial) program, ih _⟩

theorem runQueue_footprint {queue : List QueuedCommand} (own : ∀ item ∈ queue, allowed item.cmd)
    (calls : QueueScriptsAllowed backend allowed queue turn) :
    Footprint allowed turn ((runQueue backend queue).run turn).2 := by
  induction queue generalizing turn with
  | nil => exact Std.Refl.refl turn
  | cons item rest ih =>
    obtain ⟨script, others⟩ := calls
    have first := replyWrongType_footprint (executeSingleCommand_footprint backend turn
      (own item mem_cons_self) script)
    have own := fun other member => own other (mem_cons_of_mem item member)
    rw [runQueue, bind_run]
    revert first others
    rcases (replyWrongType (executeSingleCommand backend item.cmd item.args)).run turn with
      ⟨_ | _, after⟩
    · exact fun _ first => first
    · exact fun others first => IsTrans.trans _ _ _ first (ih own others)

section

variable {cmd : RespCommand} {args : List Bytes}

theorem syncAuth_footprint : Within (Footprint allowed) (syncAuth args : Serve World Bool) := by
  unfold syncAuth
  split
  · refine Fallible.Within.bind ?_ fun _ => within_pure _
    exact (within_gets _).bind fun _ => bindSession_footprint _ _ _
  · split
    · exact (write_footprint _).bind fun _ => within_pure _
    · refine (within_gets _).bind fun acl => ?_
      split
      · exact (bindSession_footprint _ _ _).bind fun _ => within_pure _
      · exact within_pure _
  · exact (write_footprint _).bind fun _ => within_pure _

theorem fastArm_footprint (own : allowed cmd) :
    Within (Footprint allowed) (fastArm backend cmd args) := by
  unfold fastArm
  split
  · exact syncAuth_footprint
  · exact (modifyClient_footprint _).bind fun _ =>
      (write_footprint _).bind fun _ => within_pure _
  · split
    · refine (access_footprint own).bind fun _ => (within_gets _).bind fun done => ?_
      exact (perform_footprint _).bind fun _ => within_pure _
    · exact within_pure _

theorem tryDispatchSync_footprint (own : allowed cmd) :
    Within (Footprint allowed) (tryDispatchSync backend cmd args) := by
  unfold tryDispatchSync
  split
  · exact within_pure _
  · refine (within_gets _).bind fun gated => ?_
    split
    · exact (write_footprint _).bind fun _ => within_pure _
    · refine (within_gets _).bind fun async => ?_
      split
      · exact within_pure _
      · exact fastArm_footprint backend own

theorem redirect_footprint (reply : Bytes) :
    Within (Footprint allowed) (redirect reply : Serve World Bool) :=
  (modifyClient_footprint _).bind fun _ =>
    (write_footprint _).bind fun _ => within_pure _

theorem route_footprint : Within (Footprint allowed) (route backend cmd args) := by
  have keys keys : Within (Footprint allowed) (routeKeys backend cmd keys) := by
    refine Fallible.Within.bind (fun turn => ?_) fun found => ?_
    · exact ⟨prefix_refl turn.sendBuf, rfl, rfl, rfl, fun _ => .inl⟩
    · refine (within_gets _).bind fun result => ?_
      split
      · exact within_pure _
      all_goals exact redirect_footprint _
  refine (within_gets _).bind fun clustered => ?_
  split
  · split
    · exact within_pure _
    · exact within_pure _
    · exact keys _
    · exact keys _
  · exact within_pure _

theorem dispatch_footprint {turn : Turn World} (idle : turn.session.inTxn = false)
    (plain : ¬(cmd = .multi ∨ cmd = .exec ∨ cmd = .discard)) (own : allowed cmd)
    (calls : ∀ context, ScriptAllowed backend allowed context cmd args) :
    Footprint allowed turn ((dispatch backend cmd args).run turn).2 := by
  have single : executeCommand backend cmd args = executeSingleCommand backend cmd args := by
    unfold executeCommand
    split <;> simp_all
  unfold dispatch
  split
  · exact Std.Refl.refl turn
  · rw [reads_bind_run]
    split
    · exact write_footprint _ turn
    · rw [reads_bind_run, idle, Bool.false_and, if_neg Bool.false_ne_true, single]
      refine (route_footprint backend).bind (fun routed => ?_) turn
      split
      · refine Fallible.Within.bind (fun turn => ?_) fun _ => modifyClient_footprint _
        exact executeSingleCommand_footprint backend turn own (calls turn.context)
      · exact within_pure _

theorem scriptAllowed_of_not_script (plain : ¬(cmd = .eval ∨ cmd = .evalsha))
    (context : ServerContext World) : ScriptAllowed backend allowed context cmd args := by
  intro program found
  unfold scriptOf at found
  split at found
  · rw [if_neg plain] at found
    cases found
  · cases found

theorem serve_footprint {turn : Turn World} (idle : turn.session.inTxn = false)
    (plain : ¬(cmd = .multi ∨ cmd = .exec ∨ cmd = .discard)) (own : allowed cmd)
    (granted : gate turn.context turn.session cmd args = none)
    (calls : ScriptAllowed backend allowed turn.context cmd args) :
    Footprint allowed turn ((serve backend cmd args).run turn).2 := by
  by_cases script : cmd = .eval ∨ cmd = .evalsha
  · have keyless : extractKeys cmd args = .none := by
      rcases script with rfl | rfl <;> cases args <;> rfl
    have executed := executeSingleCommand_footprint backend turn own calls
    have cleared := bind_within executed fun _ =>
      modifyClient_footprint fun client => { client with asking := false }
    have direct : (turn.session.inTxn && !runsInTransaction cmd) = false := by
      rw [idle, Bool.false_and]
    rcases script with rfl | rfl
    all_goals
      rw [serve_keyless backend (by decide) granted (by decide) (by decide) rfl keyless direct]
      exact cleared
  · have sync : Footprint allowed turn ((tryDispatchSync backend cmd args).run turn).2 :=
      tryDispatchSync_footprint backend own turn
    rw [serve, bind_run]
    revert sync
    rcases (tryDispatchSync backend cmd args).run turn with ⟨_ | done, after⟩
    · exact id
    · intro sync
      cases done with
      | true => exact sync
      | false =>
        exact IsTrans.trans _ _ _ sync (dispatch_footprint backend (sync.inTxn.trans idle) plain
          own (scriptAllowed_of_not_script backend script))

end

theorem settle_footprint
    {outcome : Except ServerError Unit × Turn World} (before : Footprint allowed start outcome.2) :
    Footprint allowed start (settle outcome).1 := by
  rcases outcome with ⟨(_ | _ | _) | _, after⟩
  · exact IsTrans.trans _ _ _ before (write_footprint _ after)
  · exact IsTrans.trans _ _ _ before (write_footprint _ after)
  · exact before
  · exact before

theorem tryRouteModuleCommand_footprint (name input : Bytes) :
    Within (Footprint allowed) (tryRouteModuleCommand backend name input) := by
  intro turn
  unfold tryRouteModuleCommand
  rw [reads_bind_run]
  split
  · exact Std.Refl.refl turn
  · rename_i procedure found
    split
    · have only : procedure.Only fun call => ∀ own ∈ call.command, allowed own := by
        unfold moduleProcedure at found
        split at found
        · cases found
          exact ⟨fun own calls => (nomatch calls), fun _ => trivial⟩
        · cases found
      refine bind_within
        (only.run_within (scriptStep backend) (scriptStep_footprint backend) turn) fun result => ?_
      split <;> exact (write_footprint _).bind fun _ => within_pure _
    · exact Std.Refl.refl turn

theorem speculativeGet_footprint (own : allowed .get) (key : Bytes) :
    Within (Footprint allowed) (speculativeGet backend key) := by
  refine (access_footprint own).bind fun _ => ?_
  refine Fallible.Within.bind (fun turn => ?_) fun reply => write_footprint reply
  rw [total_run]
  dsimp only
  split
  · exact Std.Refl.refl turn
  · exact ⟨prefix_refl turn.sendBuf, rfl, rfl, rfl, fun _ => .inl⟩

theorem speculativePipelineGet_footprint (own : allowed .get) (fuel : Nat) (input : Bytes)
    (turn : Turn World) :
    Footprint allowed turn (speculativePipelineGet backend fuel input turn).1 := by
  induction fuel generalizing input turn with
  | zero => exact Std.Refl.refl turn
  | succ fuel ih =>
    unfold speculativePipelineGet
    split
    · exact Std.Refl.refl turn
    · exact IsTrans.trans _ _ _ (speculativeGet_footprint backend own _ turn) (ih _ _)

end

end Wedb.Server.CommandDispatcher
