/-
The handshake of a replica with its primary. A replication id in a reply is taken over before the
step is looked at, so the history can change out of turn.
-/

import Wedb.Backlog

namespace Wedb.Repl

inductive MasterResponse
  | pong
  | ok
  | continueWith (replid : ReplId)
  | fullResync (replid : ReplId) (offset : Nat)
  | error (message : Bytes)

def readStatus (content : Bytes) : Except ReplError MasterResponse :=
  let words := splitWhitespace content
  let first := words.headD []
  if eqIgnoreAsciiCase first (bytesOf "PONG") then .ok .pong
  else if eqIgnoreAsciiCase first (bytesOf "OK") then .ok .ok
  else if eqIgnoreAsciiCase first (bytesOf "CONTINUE") then
    match words[1]? with
    | some replid => .continueWith <$> ReplId.fromBytes replid
    | none => .ok (.continueWith .empty)
  else if eqIgnoreAsciiCase first (bytesOf "FULLRESYNC") then
    match words.drop 1 with
    | replid :: offset :: _ => do
      let replid ← ReplId.fromBytes replid
      match parseU64Bytes offset with
      | none => .error (.protocol (bytesOf "非法的 FULLRESYNC offset: " ++ offset))
      | some offset => .ok (.fullResync replid offset)
    | _ => .error (.protocol (bytesOf "非法的 FULLRESYNC 响应格式: " ++ content))
  else .error (.protocol (bytesOf "未知的单行状态响应: " ++ content))

def parseMasterResponse (input : Bytes) : Except ReplError (Option (MasterResponse × Nat)) :=
  match findLineEnd input with
  | none => .ok none
  | some lineEnd =>
    match input.take lineEnd with
    | [] => protocolError "空的响应行"
    | 43 :: text =>
      if utf8Valid text then
        (readStatus (trim text)).map fun response => some (response, lineEnd + 2)
      else protocolError "非法的 UTF-8 单行状态响应"
    | 45 :: text =>
      let message := if utf8Valid text then trim text else bytesOf "非法的 UTF-8 错误响应"
      .ok (some (.error message, lineEnd + 2))
    | first :: _ => .error (.protocol (bytesOf "非预期的主节点响应起始符: " ++ charText first))

inductive ClientError
  | repl (error : ReplError)
  | handshakeFailed (text : Bytes)
  | authFailed (text : Bytes)
  | connectionClosed
  | io

inductive HandshakeStep
  | initial
  | pingDone
  | authDone
  | portDone
  | ipDone
  | capaDone
  | established
  deriving DecidableEq

def stageErr (stage : String) (message : Bytes) : ClientError :=
  .handshakeFailed (bytesOf stage ++ bytesOf "阶段收到错误: " ++ message)

def expectOk (response : MasterResponse) (stage : String) (next : HandshakeStep) :
    Except ClientError HandshakeStep :=
  match response with
  | .ok => .ok next
  | .error message => .error (stageErr stage message)
  | _ => .error (.handshakeFailed (bytesOf stage ++ bytesOf "阶段期望收到 OK"))

/-- `str::contains`. -/
def containsText (text message : Bytes) : Bool :=
  (List.range (message.length + 1)).any fun start => text.isPrefixOf (message.drop start)

variable (authPassword : Option Bytes)

def feedResponse (step : HandshakeStep) (response : MasterResponse) :
    Except ClientError HandshakeStep :=
  match step with
  | .initial =>
    match response with
    | .pong => .ok (if authPassword.isSome then .pingDone else .authDone)
    | .error message =>
      if containsText (bytesOf "NOAUTH") message && authPassword.isSome then .ok .pingDone
      else .error (stageErr "保活" message)
    | _ => .error (.handshakeFailed (bytesOf "保活阶段期望收到 PONG"))
  | .pingDone =>
    match response with
    | .ok => .ok .authDone
    | .error message => .error (.authFailed message)
    | _ => .error (.handshakeFailed (bytesOf "认证阶段期望收到 OK"))
  | .authDone => expectOk response "汇报端口" .portDone
  | .portDone => expectOk response "汇报 IP" .ipDone
  | .ipDone => expectOk response "能力协商" .capaDone
  | .capaDone =>
    match response with
    | .continueWith _ | .fullResync _ _ => .ok .established
    | .error message => .error (stageErr "同步协商" message)
    | _ => .error (.handshakeFailed (bytesOf "同步协商阶段期望收到 CONTINUE 或 FULLRESYNC"))
  | .established => .ok .established

def maxHandshakeBuffer : Nat := 64 * 1024

def awaitResponse (recvBuf : Bytes) (reads : List Bytes) :
    Except ClientError (MasterResponse × Bytes × List Bytes) :=
  match parseMasterResponse recvBuf with
  | .error error => .error (.repl error)
  | .ok (some (response, consumed)) => .ok (response, recvBuf.drop consumed, reads)
  | .ok none =>
    if maxHandshakeBuffer < recvBuf.length then
      .error (.repl (.protocol (bytesOf "握手响应帧超长")))
    else
      match reads with
      | [] => .error .connectionClosed
      | chunk :: rest =>
        if chunk = [] then .error .connectionClosed else awaitResponse (recvBuf ++ chunk) rest

/-- The state of an exchange, with a record of the replies and the steps they met. -/
structure Exchange where
  manager : ReplicationManager
  step : HandshakeStep := .initial
  decision : Option SyncDecision := none
  recvBuf : Bytes := []
  heard : List (HandshakeStep × MasterResponse) := []

def Exchange.take (offset : Int) (state : Exchange) (response : MasterResponse) : Exchange :=
  match response with
  | .continueWith replid =>
    { state with
      decision := some (.partialResync replid offset.toNat)
      manager :=
        if replid = .empty then state.manager
        else { state.manager with history := state.manager.history.updatePrimaryReplid replid } }
  | .fullResync replid snapshotOffset =>
    { state with
      decision := some (.fullResync replid snapshotOffset)
      manager := state.manager.adoptPrimaryIdentity replid snapshotOffset }
  | _ => state

def negotiate (authPassword : Option Bytes) (offset : Int) :
    List Bool → List Bytes → Exchange → Exchange × Option ClientError
  | [], _, state => (state, none)
  | sent :: writes, reads, state =>
    if state.step = .established then (state, none)
    else if !sent then (state, some .io)
    else
      match awaitResponse state.recvBuf reads with
      | .error error => (state, some error)
      | .ok (response, recvBuf, reads) =>
        let taken := { state with
          recvBuf := recvBuf, heard := (state.step, response) :: state.heard }.take offset response
        match feedResponse authPassword state.step response with
        | .error error => (taken, some error)
        | .ok step => negotiate authPassword offset writes reads { taken with step := step }

variable (history : ReplicationHistory)

def MasterResponse.adopted : MasterResponse → ReplicationHistory
  | .continueWith replid =>
    if replid = .empty then history else history.updatePrimaryReplid replid
  | .fullResync replid offset => (history.updatePrimaryReplid replid).setOffset offset
  | _ => history

def MasterResponse.Grants : MasterResponse → Prop
  | .continueWith _ | .fullResync _ _ => True
  | _ => False

/-- The replies of the primary carry another identity than the recorded one only in answer to PSYNC.
-/
def Disciplined (authPassword : Option Bytes) (history : ReplicationHistory) :
    List Bool → List Bytes → HandshakeStep → Bytes → Prop
  | true :: writes, reads, step, recvBuf =>
    step = .established ∨
      match awaitResponse recvBuf reads with
      | .error _ => True
      | .ok (response, recvBuf, reads) =>
        (response.adopted history = history ∨ step = .capaDone) ∧
          match feedResponse authPassword step response with
          | .error _ => True
          | .ok next => Disciplined authPassword history writes reads next recvBuf
  | _, _, _, _ => True

theorem Exchange.take_history (offset : Int) (state : Exchange) (response : MasterResponse) :
    (state.take offset response).manager.history = response.adopted state.manager.history := by
  cases response with
  | continueWith replid =>
    unfold take MasterResponse.adopted
    dsimp only
    split_ifs <;> rfl
  | _ => rfl

theorem Exchange.take_else (offset : Int) (state : Exchange) (response : MasterResponse) :
    (state.take offset response).heard = state.heard ∧
      (state.take offset response).recvBuf = state.recvBuf := by
  cases response <;> exact ⟨rfl, rfl⟩

variable {response : MasterResponse}

theorem feedResponse_of_grants {authPassword : Option Bytes} {step next : HandshakeStep}
    (grants : response.Grants) (running : step ≠ .established)
    (accepted : feedResponse authPassword step response = .ok next) : step = .capaDone := by
  cases step with
  | capaDone => rfl
  | established => exact absurd rfl running
  | _ => cases response <;> first | exact grants.elim | cases accepted

theorem feedResponse_capaDone (response : MasterResponse)
    (next : HandshakeStep) : feedResponse authPassword .capaDone response = .ok next ↔
      response.Grants ∧ next = .established := by
  cases response <;> simp [feedResponse, MasterResponse.Grants, eq_comm]

theorem adopted_of_not_grants (refused : ¬response.Grants)
    (history : ReplicationHistory) : response.adopted history = history := by
  cases response <;> first | rfl | exact absurd trivial refused

/-- The history is unchanged, or a reply that settles how to go on came in the last step. -/
def Licensed (state : Exchange) : Prop :=
  state.manager.history = history ∨
    ∃ response, response.Grants ∧ (.capaDone, response) ∈ state.heard

section Negotiation

variable {authPassword : Option Bytes} {offset : Int} {writes : List Bool} {reads : List Bytes}
  {state : Exchange}

theorem negotiate_established (established : state.step = .established) :
    negotiate authPassword offset writes reads state = (state, none) := by
  cases writes with
  | nil => rfl
  | cons sent writes => rw [negotiate, if_pos established]

theorem disciplined_established {history : ReplicationHistory} {recvBuf : Bytes} :
    Disciplined authPassword history writes reads .established recvBuf := by
  rcases writes with - | ⟨- | -, writes⟩
  · trivial
  · trivial
  · exact .inl rfl

theorem licensed_negotiate_iff
    (ungranted : ∀ response, response.Grants → (.capaDone, response) ∉ state.heard) :
    Licensed state.manager.history (negotiate authPassword offset writes reads state).1 ↔
      Disciplined authPassword state.manager.history writes reads state.step state.recvBuf := by
  induction writes generalizing reads state with
  | nil => exact iff_of_true (.inl rfl) trivial
  | cons sent writes ih =>
    by_cases established : state.step = .established
    · rw [negotiate_established established, established]
      exact iff_of_true (.inl rfl) disciplined_established
    cases sent with
    | false =>
      rw [negotiate, if_neg established]
      exact iff_of_true (.inl rfl) trivial
    | true =>
      rw [negotiate, Disciplined, if_neg established, or_iff_right established]
      cases awaitResponse state.recvBuf reads with
      | error error => exact iff_of_true (.inl rfl) trivial
      | ok found =>
        obtain ⟨response, left, rest⟩ := found
        dsimp only [Bool.not_true, Bool.false_eq_true, if_false]
        let reached : Exchange := { state with
          recvBuf := left, heard := (state.step, response) :: state.heard }
        have history := reached.take_history offset response
        obtain ⟨heard, kept⟩ := reached.take_else offset response
        by_cases last : state.step = .capaDone
        · cases fed : feedResponse authPassword state.step response with
          | error error =>
            have refused : ¬response.Grants := fun grants => by
              rw [last, (feedResponse_capaDone _ _ _).mpr ⟨grants, rfl⟩] at fed
              cases fed
            exact iff_of_true (.inl (history.trans (adopted_of_not_grants refused _)))
              ⟨.inr last, trivial⟩
          | ok next =>
            obtain ⟨grants, rfl⟩ := (feedResponse_capaDone _ _ _).mp (last ▸ fed)
            dsimp only
            rw [negotiate_established rfl]
            refine iff_of_true (.inr ⟨response, grants, ?_⟩)
              ⟨.inr last, disciplined_established⟩
            exact heard ▸ last ▸ List.mem_cons_self
        · have still other (grants : other.Grants) :
              (.capaDone, other) ∉ (reached.take offset response).heard := by
            rw [heard]
            refine fun member => (List.mem_cons.mp member).elim (fun same => ?_)
              (ungranted other grants)
            exact last (congrArg Prod.fst same).symm
          cases fed : feedResponse authPassword state.step response with
          | error error =>
            rw [and_true, or_iff_left last, ← history]
            refine or_iff_left ?_
            rintro ⟨other, grants, member⟩
            exact still other grants member
          | ok next =>
            have refused : ¬response.Grants := fun grants =>
              last (feedResponse_of_grants grants established fed)
            have same := adopted_of_not_grants refused state.manager.history
            have later := @ih rest { reached.take offset response with step := next } still
            rw [history, same] at later
            refine later.trans ?_
            rw [kept]
            exact (and_iff_right (.inl same)).symm

end Negotiation

def requestedOffset : Int :=
  if history.primaryReplid = .empty then -1
  else Int.bmod history.replicationOffset (2 ^ 64)

/-- Whatever the primary sends, only a reply of the last step changes the history exactly if no
earlier one carries another identity. -/
theorem history_licensed_iff (manager : ReplicationManager) (authPassword : Option Bytes)
    (writes : List Bool) (reads : List Bytes) :
    let final := (negotiate authPassword (requestedOffset manager.history) writes reads
      { manager := manager }).1
    (final.manager.history = manager.history ∨
        ∃ response, response.Grants ∧ (.capaDone, response) ∈ final.heard) ↔
      Disciplined authPassword manager.history writes reads .initial [] :=
  @licensed_negotiate_iff authPassword _ writes reads { manager := manager }
    fun _ _ member => absurd member List.not_mem_nil

/-- A primary that answers PING with an identity has it taken over. -/
theorem ping_answered_by_identity :
    let manager := ReplicationManager.withHistory .replica ⟨.empty, .empty, 7, 0⟩
    let final := (negotiate none (requestedOffset manager.history) [true]
      [bytesOf "+FULLRESYNC ? 9\r\n"] { manager := manager }).1
    manager.history.replicationOffset = 7 ∧ final.manager.history.replicationOffset = 9 ∧
      final.manager.history.primaryReplid = .questionMark ∧
      final.heard.map Prod.fst = [.initial] := by
  decide +kernel

end Wedb.Repl
