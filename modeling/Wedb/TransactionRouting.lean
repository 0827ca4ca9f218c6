/-
The routing of a cluster node through transactions. A command is queued before its keys are looked
at, and nothing checks the slots of what EXEC runs.
-/

import Wedb.Asking
import Wedb.Footprint

namespace Wedb.Server.CommandDispatcher

open Cluster Resp Serve

variable {World : Type} (backend : Backend World)

/-- The routing check, as `dispatch` would make it, accepts a command in a turn. -/
def Accepted (turn : Turn World) (item : QueuedCommand) : Prop :=
  let keys := routedKeys item.cmd item.args
  keys ≠ [] → backend.verifyKeys turn.context keys
    (backend.engine.containsKey (backend.decode turn.context).now
      (turn.context.view turn.session.toClientState) (keys.headD [])).1
    turn.session.asking (turn.session.isReadonly && isReadCommand item.cmd) = .ok

def QueueAccepted (backend : Backend World) : List QueuedCommand → Turn World → Prop
  | [], _ => True
  | item :: rest, turn =>
    Accepted backend turn item ∧
      ∀ after, (replyWrongType (executeSingleCommand backend item.cmd item.args)).run turn =
        (.ok (), after) → QueueAccepted backend rest after

def ExecAccepted (turn : Turn World) : Prop :=
  (executeExec backend []).run turn =
      (runQueue backend turn.session.txnQueue).run (beginQueue turn) →
    QueueAccepted backend turn.session.txnQueue (beginQueue turn)

/-- The node serves all keys of `item`. -/
def Served (config : ClusterConfig) (readonly : Bool) (item : QueuedCommand) : Prop :=
  match routedKeys item.cmd item.args with
  | [] => True
  | first :: rest =>
    (∀ key ∈ rest, hashSlot key = hashSlot first) ∧
      (config.slotMap (hashSlot first)).state = .stable ∧
      config.isLocal (hashSlot first) (readonly && isReadCommand item.cmd) = true

/-- What the check of a stable slot looks at: the configuration and the read-only flag. -/
def SameTopology (config : World → ClusterConfig) (before after : Turn World) : Prop :=
  config after.context.world = config before.context.world ∧
    after.session.isReadonly = before.session.isReadonly

variable {config : World → ClusterConfig}

instance : Std.Refl (SameTopology config) := ⟨fun _ => ⟨rfl, rfl⟩⟩

instance : IsTrans (Turn World) (SameTopology config) :=
  ⟨fun _ _ _ first second => ⟨second.1.trans first.1, second.2.trans first.2⟩⟩

variable {backend : Backend World} {turn : Turn World}

theorem accepted_of_served {item : QueuedCommand}
    (served : Served (config turn.context.world) turn.session.isReadonly item) :
    Accepted (backend.onCluster config) turn item := by
  intro keyed
  cases listed : routedKeys item.cmd item.args with
  | nil => exact absurd listed keyed
  | cons first rest =>
    rw [Served, listed] at served
    obtain ⟨same, stable, isLocal⟩ := served
    have together : (rest.all fun key => hashSlot key = hashSlot first) :=
      List.all_eq_true.mpr fun key member => decide_eq_true (same key member)
    show (config turn.context.world).verifyKeys (first :: rest) _ _ _ = .ok
    rw [ClusterConfig.verifyKeys, if_pos together, ClusterConfig.routeSlotExt, if_pos isLocal,
      stable]

theorem replyWrongType_topology {action : Serve World Unit}
    (steady : Fallible.Within (SameTopology config) action) :
    Fallible.Within (SameTopology config) (replyWrongType action) := by
  intro turn
  have inner := steady turn
  unfold replyWrongType
  dsimp only
  split
  · rename_i after ran
    rw [ran] at inner
    exact inner
  · exact inner

theorem queueAccepted_of_served {queue : List QueuedCommand}
    (steady : ∀ item ∈ queue, Fallible.Within (SameTopology config)
      (executeSingleCommand (backend.onCluster config) item.cmd item.args))
    (served : ∀ item ∈ queue, Served (config turn.context.world) turn.session.isReadonly item) :
    QueueAccepted (backend.onCluster config) queue turn := by
  induction queue generalizing turn with
  | nil => trivial
  | cons item rest ih =>
    refine ⟨accepted_of_served (served item List.mem_cons_self), fun after ran => ?_⟩
    have same := replyWrongType_topology (steady item List.mem_cons_self) turn
    rw [ran] at same
    refine ih (fun other member => steady other (List.mem_cons_of_mem _ member))
      fun other member => ?_
    rw [same.1, same.2]
    exact served other (List.mem_cons_of_mem _ member)

/-- On a cluster node, EXEC runs only commands the routing check accepts when every queued one has
its keys in one stable slot of the node and leaves the topology. -/
theorem exec_stays_in_served_slots (backend : Backend World) (config : World → ClusterConfig)
    (turn : Turn World)
    (steady : ∀ item ∈ turn.session.txnQueue, Fallible.Within (SameTopology config)
      (executeSingleCommand (backend.onCluster config) item.cmd item.args))
    (served : ∀ item ∈ turn.session.txnQueue,
      Served (config turn.context.world) turn.session.isReadonly item) :
    ExecAccepted (backend.onCluster config) turn :=
  fun _ => queueAccepted_of_served steady served

def transaction (queue : List QueuedCommand) : Turn Unit where
  context := { KeyValueServer.context false [.exec, .get, .set] fun _ => .empty with
    clustered := true }
  session := { ServerSession.new 0 false with inTxn := true, txnQueue := queue }
  sendBuf := []
  accesses := []

def anonymousWorker (address : Bytes) (port : Nat) (role : NodeRole) : Worker where
  nodeId := none
  address := address
  port := port
  role := role
  replicaOfNodeId := none

def slotsOf (workerId : Nat) : ClusterConfig where
  slotMap _ := ⟨workerId, .stable⟩
  workers := [anonymousWorker (bytesOf "unassigned") 0 .unassigned,
    anonymousWorker (bytesOf "10.0.0.1") 7000 .primary,
    anonymousWorker (bytesOf "10.0.0.2") 7000 .primary]

theorem exec_stays_in_own_slots : ExecAccepted (KeyValueServer.backend.onCluster fun _ => slotsOf 1)
      (transaction [⟨.set, [[107], [118]]⟩, ⟨.get, [[107]]⟩]) := by
  refine exec_stays_in_served_slots KeyValueServer.backend (fun _ => slotsOf 1)
    (transaction [⟨.set, [[107], [118]]⟩, ⟨.get, [[107]]⟩]) ?_ ?_
  · intro item member
    rcases List.mem_pair.mp member with rfl | rfl <;> exact fun _ => ⟨rfl, rfl⟩
  · intro item member
    rcases List.mem_pair.mp member with rfl | rfl <;> exact ⟨by decide, rfl, by decide⟩

/-- EXEC writes a key whose slot belongs to another node, where the check says MOVED. -/
theorem exec_writes_moved_key :
    let backend := KeyValueServer.backend.onCluster fun _ => slotsOf 2
    let turn := transaction [⟨.set, [[107], [118]]⟩]
    backend.verifyKeys turn.context [[107]] false false false =
        .moved 7629 (bytesOf "10.0.0.2:7000") ∧
      (answer backend (.command .exec []) turn).1.sendBuf = bytesOf "*1\r\n+OK\r\n" ∧
      ((answer backend (.command .exec []) turn).1.context.keyspace 0 0 [107]).bytes = some [118] :=
  ⟨by decide +kernel, by decide +kernel, by decide +kernel⟩

end Wedb.Server.CommandDispatcher
