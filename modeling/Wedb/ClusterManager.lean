/-
The operations of the cluster manager. Each takes the state lock, so they are functions on the
configuration and the tracker of the node. Epochs wrap as in a release build.
-/

import Wedb.Gossip

namespace Wedb.Cluster

open Resp

/-- `Display` of `NodeRole`. -/
def NodeRole.display : NodeRole → Bytes
  | .primary => bytesOf "PRIMARY"
  | .replica => bytesOf "REPLICA"
  | .unassigned => bytesOf "UNASSIGNED"

/-- `ClusterManager`: the configuration and the tracker. -/
structure ClusterManager where
  config : ClusterConfig
  gossip : GossipTracker

namespace ClusterManager

/-- `ClusterManager::new` followed by `init_local`. -/
def initialised (worker : Worker) : ClusterManager where
  config := ClusterConfig.new.initializeLocalWorker worker
  gossip := .new

abbrev Answer (α : Type) := Except ClusterError α × ClusterManager

variable (manager : ClusterManager)

/-- The failure of an operation: nothing changes. -/
def refuse {α : Type} (error : ClusterError) : Answer α := (.error error, manager)

def accept {α : Type} (answer : α) (config : ClusterConfig) : Answer α :=
  (.ok answer, { manager with config := config })

def checkSlots (refused : Fin totalHashSlots → Option ClusterError) :
    List Nat → Except ClusterError (List (Fin totalHashSlots))
  | [] => .ok []
  | slot :: rest =>
    if inRange : slot < totalHashSlots then
      match refused ⟨slot, inRange⟩ with
      | some error => .error error
      | none => (checkSlots refused rest).map (⟨slot, inRange⟩ :: ·)
    else .error (.slotOutOfRange slot)

def assignSlots (slotMap : Fin totalHashSlots → HashSlot) (slots : List (Fin totalHashSlots))
    (slot : HashSlot) : Fin totalHashSlots → HashSlot :=
  slots.foldl (fun slotMap index => Function.update slotMap index slot) slotMap

def noWorkers : ClusterError := .invalidParam (bytesOf "集群未初始化任何工作节点")

def tryAddSlots (slots : List Nat) : Answer Nat :=
  if manager.config.numWorkers = 0 then manager.refuse noWorkers
  else
    let busy (slot : Fin totalHashSlots) : Option ClusterError :=
      if (manager.config.slotMap slot).state ≠ .offline then
        some (.invalidParam (bytesOf "Slot " ++ formatNat slot ++ bytesOf " is already busy"))
      else none
    match checkSlots busy slots with
    | .error error => manager.refuse error
    | .ok slots =>
      manager.accept slots.length { manager.config with
        slotMap := assignSlots manager.config.slotMap slots ⟨localWorkerId, .stable⟩ }

def tryRemoveSlots (slots : List Nat) : Answer Nat :=
  if manager.config.numWorkers = 0 then manager.refuse noWorkers
  else
    let unowned (slot : Fin totalHashSlots) : Option ClusterError :=
      if (manager.config.slotMap slot).workerId = 0 then some (.notSlotOwner slot) else none
    match checkSlots unowned slots with
    | .error error => manager.refuse error
    | .ok slots =>
      let cleared := { manager.config with
        slotMap := assignSlots manager.config.slotMap slots .offline }
      manager.accept slots.length (cleared.setLocalEpoch (cleared.getMaxConfigEpoch + 1))

def onSlot {α : Type} (slot : Nat) (action : Fin totalHashSlots → Answer α) : Answer α :=
  if inRange : slot < totalHashSlots then action ⟨slot, inRange⟩
  else manager.refuse (.slotOutOfRange slot)

variable (nodeId : Bytes)

def namesLocal : Bool :=
  manager.config.localNodeId.any (eqIgnoreAsciiCase · nodeId)

variable (slot : Nat)

def tryPrepareSlotForMigration (targetNodeId : Bytes) : Answer Unit :=
  manager.onSlot slot fun slot =>
    let config := manager.config
    let target := config.getWorkerIdFromNodeId targetNodeId
    if target = 0 then manager.refuse (.unknownNode targetNodeId)
    else if manager.namesLocal targetNodeId then manager.refuse .migrateToMyself
    else if config.getNodeRoleFromNodeId targetNodeId ≠ .primary then
      manager.refuse (.targetNotMaster targetNodeId)
    else if !config.isLocal slot false then manager.refuse (.notSlotOwner slot)
    else if (config.slotMap slot).state ≠ .stable then
      manager.refuse (.slotNotStable ((config.getOwnerIdFromSlot slot).getD (bytesOf "unknown")))
    else manager.accept () (config.updateSlotState slot (asU16 target) .migrating)

def tryPrepareSlotForImport (sourceNodeId : Bytes) : Answer Unit :=
  manager.onSlot slot fun slot =>
    let config := manager.config
    let source := config.getWorkerIdFromNodeId sourceNodeId
    let notOwned := ClusterError.invalidParam
      (bytesOf "Slot " ++ formatNat slot ++ bytesOf " is not owned by " ++ sourceNodeId)
    if source = 0 then manager.refuse (.unknownNode sourceNodeId)
    else if config.localNodeRole ≠ .primary then
      manager.refuse (.invalidParam (bytesOf "Importing node " ++ config.localNodeRole.display ++
        bytesOf " is not a master node."))
    else if config.isLocal slot false then
      manager.refuse (.invalidParam (bytesOf "This is a local hash slot " ++ formatNat slot ++
        bytesOf " and is already imported"))
    else
      match config.getNodeIdFromSlot slot with
      | none => manager.refuse notOwned
      | some owner =>
        if !eqIgnoreAsciiCase owner sourceNodeId then manager.refuse notOwned
        else if (config.slotMap slot).state ≠ .stable then
          manager.refuse (.slotAlreadyImporting sourceNodeId)
        else manager.accept () (config.updateSlotState slot (asU16 source) .importing)

def tryPrepareSlotForOwnershipChange (newOwnerId : Bytes) : Answer Unit :=
  manager.onSlot slot fun slot =>
    let config := manager.config
    let owner := config.getWorkerIdFromNodeId newOwnerId
    if owner = 0 then manager.refuse (.unknownNode newOwnerId)
    else
      match (config.slotMap slot).state with
      | .importing =>
        match config.localNodeId.filter fun localId => !eqIgnoreAsciiCase localId newOwnerId with
        | some localId =>
          manager.refuse (.invalidParam (bytesOf "Input nodeid " ++ newOwnerId ++
            bytesOf " different from local nodeid " ++ localId ++ bytesOf "."))
        | none =>
          let imported := config.updateSlotState slot localWorkerId .stable
          manager.accept () (imported.setLocalEpoch (imported.getMaxConfigEpoch + 1))
      | _ => manager.accept () (config.updateSlotState slot (asU16 owner) .stable)

def tryPrepareSlotForStable : Answer Unit :=
  manager.onSlot slot fun slot =>
    let config := manager.config
    match (config.slotMap slot).state with
    | .migrating => manager.accept () (config.updateSlotState slot localWorkerId .stable)
    | .importing =>
      manager.accept () (config.updateSlotState slot (config.slotMap slot).workerId .stable)
    | _ => manager.accept () config

def tryMeet (address : Bytes) (port : Nat) (nodeId : Option Bytes) : Answer Nat :=
  let config := manager.config
  let existing := (nodeId.map config.getWorkerIdFromNodeId).getD 0
  if 0 < existing then
    manager.accept existing { config with workers := config.workers.modify existing fun worker =>
      { worker with address := address, port := port } }
  else
    match (config.workers.drop 1).findIdx? fun worker =>
        worker.address = address && worker.port = port with
    | some position =>
      manager.accept (position + 1) { config with
        workers := config.workers.modify (position + 1) fun worker =>
          { worker with nodeId := nodeId.orElse fun _ => worker.nodeId } }
    | none =>
      let added := config.addWorker { Worker.unassigned with
        nodeId := nodeId, address := address, port := port, role := .primary, handshake := true }
      manager.accept added.1 added.2

def tryRemoveWorker (expirySeconds now : Nat) : Answer Unit :=
  let config := manager.config
  if manager.namesLocal nodeId then manager.refuse .cannotForgetMyself
  else if config.getNodeRoleFromNodeId nodeId = .unassigned then
    manager.refuse (.unknownNode nodeId)
  else if config.localNodeRole = .replica &&
      config.localNodePrimaryId.any (eqIgnoreAsciiCase · nodeId) then
    manager.refuse .cannotForgetMyPrimary
  else
    match config.removeWorker nodeId with
    | .error error => manager.refuse error
    | .ok config => (.ok (), ⟨config, manager.gossip.ban nodeId expirySeconds now⟩)

def promoted (epoch : Int64) (worker : Worker) : Worker :=
  { worker with role := .primary, replicaOfNodeId := none, configEpoch := epoch }

def tryFailover : Answer Int64 :=
  let config := manager.config
  if config.localNodeRole ≠ .replica then
    manager.refuse (.invalidParam (bytesOf "Only replica nodes can execute FAILOVER"))
  else
    match config.localNodePrimaryId with
    | none =>
      manager.refuse (.invalidParam (bytesOf "No primary assigned to this replica"))
    | some oldPrimaryId =>
      let oldPrimary := config.getWorkerIdFromNodeId oldPrimaryId
      let takeOver (slot : HashSlot) : HashSlot :=
        if 0 < oldPrimary ∧ slot.workerId = asU16 oldPrimary then ⟨localWorkerId, .stable⟩
        else slot
      let taken := { config with slotMap := fun slot => takeOver (config.slotMap slot) }
      let epoch := taken.getMaxConfigEpoch + 1
      manager.accept epoch (taken.modifyLocal (promoted epoch))

def tryReplicaof (primaryId : Bytes) : Answer Unit :=
  let config := manager.config
  let wid := config.getWorkerIdFromNodeId primaryId
  if wid = 0 then manager.refuse (.unknownNode primaryId)
  else if manager.namesLocal primaryId then manager.refuse .cannotReplicateSelf
  else if config.getNodeRoleFromNodeId primaryId ≠ .primary then
    manager.refuse (.targetNotMaster primaryId)
  else
    let handOver (slot : HashSlot) : HashSlot :=
      if slot.effectiveWorkerId = localWorkerId then ⟨asU16 wid, .stable⟩ else slot
    let given := { config with slotMap := fun slot => handOver (config.slotMap slot) }
    manager.accept () (given.modifyLocal fun worker =>
      { worker with role := .replica, replicaOfNodeId := some primaryId })

def tryReplicaofNoOne : Answer Int64 :=
  let config := manager.config
  if config.localNodeRole ≠ .replica then
    manager.accept config.localNodeConfigEpoch config
  else
    let epoch := config.getMaxConfigEpoch + 1
    manager.accept epoch (config.modifyLocal (promoted epoch))

def trySetLocalConfigEpoch (epoch : Int64) : Answer Unit :=
  let config := manager.config
  if 1 < config.numWorkers then
    manager.refuse
      (.invalidParam (bytesOf "Config epoch can only be set for standalone instances"))
  else if config.localNodeConfigEpoch ≠ 0 ∨ epoch ≤ 0 then manager.refuse .epochCollision
  else manager.accept () (config.setLocalEpoch epoch)

def tryBumpClusterEpoch : Answer Int64 :=
  let epoch := manager.config.getMaxConfigEpoch + 1
  manager.accept epoch (manager.config.setLocalEpoch epoch)

def tryMergeGossip (clock : Nat → Nat) (packet : GossipPacket) : Bool × ClusterManager :=
  let merged := manager.gossip.processPacket clock manager.config packet
  let resolved := merged.config.resolveEpochCollision packet.header.senderId
    packet.header.configEpoch
  (resolved.1 || merged.changed, ⟨resolved.2, merged.tracker⟩)

def markNodePfail : ClusterManager :=
  { manager with
    gossip := { manager.gossip with localPfails := manager.gossip.localPfails.insert nodeId } }

def modifyWorker (config : ClusterConfig) (nodeId : Bytes) (change : Worker → Worker) :
    ClusterConfig :=
  let index := config.getWorkerIdFromNodeId nodeId
  if 0 < index then { config with workers := config.workers.modify index change } else config

def clearNodePfail : ClusterManager where
  config := modifyWorker manager.config nodeId fun worker =>
    { worker with isPfail := false, isFail := false, linkState := .connected }
  gossip := { manager.gossip with
    localPfails := manager.gossip.localPfails.erase nodeId
    failNodes := manager.gossip.failNodes.erase nodeId
    pfailReports := Function.update manager.gossip.pfailReports nodeId none }

def evaluateFailStatus : List Bytes × ClusterManager :=
  let evaluated := manager.gossip.evaluateFailStatus manager.config
  (evaluated.1,
    { config := evaluated.1.foldl (fun config nodeId => modifyWorker config nodeId fun worker =>
        { worker with isPfail := false, isFail := true, linkState := .disconnected })
          manager.config
      gossip := evaluated.2 })

inductive Operation
  | addSlots (slots : List Nat)
  | removeSlots (slots : List Nat)
  | prepareSlotForMigration (slot : Nat) (targetNodeId : Bytes)
  | prepareSlotForImport (slot : Nat) (sourceNodeId : Bytes)
  | prepareSlotForOwnershipChange (slot : Nat) (newOwnerId : Bytes)
  | prepareSlotForStable (slot : Nat)
  | meet (address : Bytes) (port : Nat) (nodeId : Option Bytes)
  | removeWorker (nodeId : Bytes) (expirySeconds now : Nat)
  | failover
  | replicaof (primaryId : Bytes)
  | replicaofNoOne
  | setLocalConfigEpoch (epoch : Int64)
  | bumpClusterEpoch
  | mergeGossip (clock : Nat → Nat) (packet : GossipPacket)
  | markNodePfail (nodeId : Bytes)
  | clearNodePfail (nodeId : Bytes)
  | evaluateFailStatus

def apply : Operation → ClusterManager
  | .addSlots slots => (manager.tryAddSlots slots).2
  | .removeSlots slots => (manager.tryRemoveSlots slots).2
  | .prepareSlotForMigration slot target => (manager.tryPrepareSlotForMigration slot target).2
  | .prepareSlotForImport slot source => (manager.tryPrepareSlotForImport slot source).2
  | .prepareSlotForOwnershipChange slot owner =>
    (manager.tryPrepareSlotForOwnershipChange slot owner).2
  | .prepareSlotForStable slot => (manager.tryPrepareSlotForStable slot).2
  | .meet address port nodeId => (manager.tryMeet address port nodeId).2
  | .removeWorker nodeId expirySeconds now =>
    (manager.tryRemoveWorker nodeId expirySeconds now).2
  | .failover => manager.tryFailover.2
  | .replicaof primaryId => (manager.tryReplicaof primaryId).2
  | .replicaofNoOne => manager.tryReplicaofNoOne.2
  | .setLocalConfigEpoch epoch => (manager.trySetLocalConfigEpoch epoch).2
  | .bumpClusterEpoch => manager.tryBumpClusterEpoch.2
  | .mergeGossip clock packet => (manager.tryMergeGossip clock packet).2
  | .markNodePfail nodeId => manager.markNodePfail nodeId
  | .clearNodePfail nodeId => manager.clearNodePfail nodeId
  | .evaluateFailStatus => manager.evaluateFailStatus.2

def states (manager : ClusterManager) : List Operation → List ClusterManager
  | [] => [manager]
  | operation :: rest => manager :: (manager.apply operation).states rest

end ClusterManager

end Wedb.Cluster
