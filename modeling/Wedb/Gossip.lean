/-
How a cluster node takes in what others tell it: records are merged under their configuration
epochs, claims of slots are arbitrated, and slots no longer claimed are given up. Each reading of
the clock is an argument.
-/

import Wedb.Cluster

namespace Wedb.Cluster

/-- `Error` of the cluster crate, as far as the operations here raise it. -/
inductive ClusterError
  | unknownNode (nodeId : Bytes)
  | targetNotMaster (nodeId : Bytes)
  | migrateToMyself
  | notSlotOwner (slot : Nat)
  | slotNotStable (owner : Bytes)
  | slotAlreadyImporting (source : Bytes)
  | cannotForgetMyself
  | cannotForgetMyPrimary
  | slotOutOfRange (slot : Nat)
  | invalidParam (text : Bytes)
  | cannotReplicateSelf
  | epochCollision
  deriving DecidableEq

/-- The cast `as u16`. -/
def asU16 (number : Nat) : Nat := number % 2 ^ 16

def Worker.unassigned : Worker where
  nodeId := none
  address := bytesOf "unassigned"
  port := 0
  role := .unassigned
  replicaOfNodeId := none

/-- `HashSlot::default`. -/
def HashSlot.offline : HashSlot := ⟨0, .offline⟩

namespace ClusterConfig

def new : ClusterConfig where
  slotMap _ := .offline
  workers := [.unassigned, { Worker.unassigned with address := bytesOf "127.0.0.1" }]

variable (config : ClusterConfig)

def initializeLocalWorker (worker : Worker) : ClusterConfig :=
  let workers := config.workers ++ List.replicate (2 - config.workers.length) .unassigned
  { config with workers := workers.set localWorkerId worker }

def numWorkers : Nat := config.workers.length - 1

def localNodeId : Option Bytes := config.workers[localWorkerId]?.bind Worker.nodeId

def localNodeRole : NodeRole :=
  (config.workers[localWorkerId]?.map Worker.role).getD .unassigned

def isPrimary : Bool := config.localNodeRole = .primary

def localNodeConfigEpoch : Int64 :=
  (config.workers[localWorkerId]?.map Worker.configEpoch).getD 0

def getNodeRoleFromNodeId (nodeId : Bytes) : NodeRole :=
  let index := config.getWorkerIdFromNodeId nodeId
  if index = 0 then .unassigned
  else (config.workers[index]?.map Worker.role).getD .unassigned

variable (slot : Fin totalHashSlots)

def getOwnerIdFromSlot : Option Bytes :=
  config.workers[(config.slotMap slot).effectiveWorkerId]?.bind Worker.nodeId

def getNodeIdFromSlot : Option Bytes :=
  config.workers[(config.slotMap slot).workerId]?.bind Worker.nodeId

def getMaxConfigEpoch : Int64 :=
  ((config.workers.drop 1).map Worker.configEpoch).max?.getD 0

def getPrimaryCount : Nat :=
  ((config.workers.drop 1).filter fun worker => worker.role = .primary).length

def workerEpoch (index : Nat) : Int64 := (config.workers[index]?.map Worker.configEpoch).getD 0

def updateSlotState (workerId : Nat) (state : SlotState) : ClusterConfig :=
  { config with slotMap := Function.update config.slotMap slot ⟨workerId, state⟩ }

def modifyLocal (change : Worker → Worker) : ClusterConfig :=
  { config with workers := config.workers.modify localWorkerId change }

def setLocalEpoch (epoch : Int64) : ClusterConfig :=
  config.modifyLocal fun worker => { worker with configEpoch := epoch }

def addWorker (worker : Worker) : Nat × ClusterConfig :=
  let existing := (worker.nodeId.map config.getWorkerIdFromNodeId).getD 0
  if existing ≠ 0 then (existing, { config with workers := config.workers.set existing worker })
  else (config.workers.length, { config with workers := config.workers ++ [worker] })

def slotWithout (removed : Nat) (slot : HashSlot) : HashSlot :=
  if slot.workerId > removed then { slot with workerId := slot.workerId - 1 }
  else if slot.workerId = removed then
    match slot.state with
    | .migrating => ⟨localWorkerId, .stable⟩
    | _ => .offline
  else slot

def removeWorker (nodeId : Bytes) : Except ClusterError ClusterConfig :=
  let index := config.getWorkerIdFromNodeId nodeId
  if index = 0 then .error (.unknownNode nodeId)
  else .ok {
    slotMap := fun slot => slotWithout (asU16 index) (config.slotMap slot)
    workers := config.workers.eraseIdx index }

/-- When `resolve_epoch_collision` raises the local epoch. -/
def Collides (remoteNodeId : Bytes) (remoteEpoch : Int64) : Prop :=
  (∃ localId ∈ config.localNodeId, localId < remoteNodeId) ∧ config.isPrimary = true ∧
    config.localNodeConfigEpoch = remoteEpoch ∧ 0 < remoteEpoch

instance (remoteNodeId : Bytes) (remoteEpoch : Int64) :
    Decidable (config.Collides remoteNodeId remoteEpoch) :=
  inferInstanceAs (Decidable (_ ∧ _))

/-- `resolve_epoch_collision`. The sum wraps as in a release build. -/
def resolveEpochCollision (remoteNodeId : Bytes) (remoteEpoch : Int64) : Bool × ClusterConfig :=
  if config.Collides remoteNodeId remoteEpoch then
    (true, config.setLocalEpoch (config.getMaxConfigEpoch + 1))
  else (false, config)

end ClusterConfig

/-- `WorkerMeta`: what gossip tells about a node. -/
structure WorkerMeta where
  nodeId : Option Bytes
  address : Bytes
  port : Nat
  configEpoch : Int64
  role : NodeRole
  replicaOf : Option Bytes
  hostname : Option Bytes

variable (info : WorkerMeta)

def WorkerMeta.record (newId : Bytes) (handshake : Bool) : Worker where
  nodeId := some newId
  address := info.address
  port := info.port
  role := info.role
  replicaOfNodeId := info.replicaOf
  configEpoch := info.configEpoch
  hostname := info.hostname
  handshake := handshake

def WorkerMeta.overwrite (stored : Worker) : Worker :=
  { stored with
    address := info.address
    port := info.port
    role := info.role
    replicaOfNodeId := info.replicaOf
    configEpoch := info.configEpoch
    hostname := info.hostname
    handshake := false }

def WorkerMeta.accepted (confirmHandshake : Bool) (stored : Worker) : Bool :=
  decide (stored.configEpoch < info.configEpoch) ||
    (confirmHandshake && stored.handshake && decide (stored.configEpoch ≤ info.configEpoch))

def WorkerMeta.differs (stored : Worker) : Bool :=
  info.configEpoch ≠ stored.configEpoch || info.address ≠ stored.address ||
    info.port ≠ stored.port || info.role ≠ stored.role ||
    info.replicaOf ≠ stored.replicaOfNodeId || info.hostname ≠ stored.hostname

namespace ClusterConfig

variable (config : ClusterConfig)

def exactIndex (nodeId : Bytes) : Option Nat :=
  ((config.workers.drop 1).findIdx? fun worker => worker.nodeId = some nodeId).map (· + 1)

def mergeWorkerRef (info : WorkerMeta) (confirmHandshake : Bool) : Bool × ClusterConfig :=
  match info.nodeId.filter (· ≠ []) with
  | none => (false, config)
  | some newId =>
    match config.exactIndex newId with
    | none =>
      (true, { config with workers := config.workers ++ [info.record newId !confirmHandshake] })
    | some index =>
      match config.workers[index]? with
      | none => (false, config)
      | some stored =>
        if info.accepted confirmHandshake stored then
          (info.differs stored,
            { config with workers := config.workers.set index (info.overwrite stored) })
        else (false, config)

def claimSlot (senderWid : Nat) (senderEpoch : Int64)
    (found : Bool × (Fin totalHashSlots → HashSlot)) (slot : Nat) :
    Bool × (Fin totalHashSlots → HashSlot) :=
  if inRange : slot < totalHashSlots then
    let current := found.2 ⟨slot, inRange⟩
    if senderEpoch ≠ 0 ∧ senderEpoch ≤ config.workerEpoch current.workerId then found
    else if current ≠ ⟨senderWid, .stable⟩ then
      (true, Function.update found.2 ⟨slot, inRange⟩ ⟨senderWid, .stable⟩)
    else found
  else found

def abandoned (senderWid : Nat) (claimed : List Nat) (slot : Fin totalHashSlots)
    (current : HashSlot) : Bool :=
  current.workerId = senderWid && (current.state = .stable || current.state = .importing) &&
    !claimed.contains slot.val

def mergeSenderSlots (senderId : Bytes) (senderEpoch : Int64)
    (senderSlots migratingSlots : List Nat) : Bool × ClusterConfig :=
  let index := config.getWorkerIdFromNodeId senderId
  if senderId = [] ∨ index = 0 then (false, config)
  else
    let senderWid := asU16 index
    let claims := senderSlots.foldl (config.claimSlot senderWid senderEpoch)
      (false, config.slotMap)
    let givenUp (slot : Fin totalHashSlots) : Bool :=
      abandoned senderWid (senderSlots ++ migratingSlots) slot (claims.2 slot)
    (claims.1 || (List.finRange totalHashSlots).any givenUp,
      { config with slotMap := fun slot => if givenUp slot then .offline else claims.2 slot })

end ClusterConfig

structure GossipHeader where
  senderId : Bytes
  senderAddr : Bytes
  senderPort : Nat
  senderRole : NodeRole
  configEpoch : Int64
  assignedSlots : List Nat
  migratingSlots : List Nat
  replicaOf : Option Bytes
  hostname : Option Bytes

def GossipHeader.toMeta (header : GossipHeader) : WorkerMeta where
  nodeId := some header.senderId
  address := header.senderAddr
  port := header.senderPort
  configEpoch := header.configEpoch
  role := header.senderRole
  replicaOf := header.replicaOf
  hostname := header.hostname

structure GossipNodeSection where
  nodeId : Bytes
  address : Bytes
  port : Nat
  role : NodeRole
  configEpoch : Int64
  isPfail : Bool
  isFail : Bool
  replicaOf : Option Bytes
  hostname : Option Bytes

def GossipNodeSection.toMeta (entry : GossipNodeSection) : WorkerMeta where
  nodeId := some entry.nodeId
  address := entry.address
  port := entry.port
  configEpoch := entry.configEpoch
  role := entry.role
  replicaOf := entry.replicaOf
  hostname := entry.hostname

structure GossipPacket where
  header : GossipHeader
  sections : List GossipNodeSection

def maxGossipSections : Nat := 1024

def GossipPacket.considered (packet : GossipPacket) : List GossipNodeSection :=
  packet.sections.take maxGossipSections

/-- `GossipTracker`: votes by node, local marks, failed nodes, and the end of each ban in seconds.
-/
structure GossipTracker where
  pfailReports : Bytes → Option (List Bytes)
  localPfails : List Bytes
  failNodes : List Bytes
  banList : Bytes → Option Nat

namespace GossipTracker

def new : GossipTracker where
  pfailReports _ := none
  localPfails := []
  failNodes := []
  banList _ := none

variable (tracker : GossipTracker)

/-- `ban`. The sum wraps as in a release build. -/
def ban (nodeId : Bytes) (ttlSecs now : Nat) : GossipTracker :=
  { tracker with
    banList := Function.update tracker.banList nodeId (some ((now + ttlSecs) % 2 ^ 64)) }

/-- `is_banned`: a ban that is over is removed. -/
def isBanned (nodeId : Bytes) (now : Nat) : Bool × GossipTracker :=
  match tracker.banList nodeId with
  | some expiry =>
    if now < expiry then (true, tracker)
    else (false, { tracker with banList := Function.update tracker.banList nodeId none })
  | none => (false, tracker)

def vote (senderId : Bytes) (entry : GossipNodeSection) : GossipTracker :=
  if entry.isPfail || entry.isFail then
    { tracker with
      pfailReports := Function.update tracker.pfailReports entry.nodeId
        (some (((tracker.pfailReports entry.nodeId).getD []).insert senderId)) }
  else
    { tracker with
      pfailReports := Function.update tracker.pfailReports entry.nodeId
        ((tracker.pfailReports entry.nodeId).map (·.erase senderId)) }

end GossipTracker

structure Merge where
  tracker : GossipTracker
  config : ClusterConfig
  changed : Bool

def Merge.takeSection (senderId : Bytes) (state : Merge) (item : GossipNodeSection × Nat) : Merge :=
  let nodeId := item.1.nodeId
  if nodeId = [] ∨ nodeId = senderId ∨ state.config.localNodeId = some nodeId then state
  else
    let (banned, tracker) := state.tracker.isBanned nodeId item.2
    if banned then { state with tracker := tracker }
    else
      let (changed, config) := state.config.mergeWorkerRef item.1.toMeta false
      ⟨tracker.vote senderId item.1, config, state.changed || changed⟩

def Merge.takeSender (header : GossipHeader) (tracker : GossipTracker) (config : ClusterConfig) :
    Merge :=
  let (changed, config) := config.mergeWorkerRef header.toMeta true
  if header.senderRole = .primary then
    let (claimed, config) := config.mergeSenderSlots header.senderId header.configEpoch
      header.assignedSlots header.migratingSlots
    ⟨tracker, config, changed || claimed⟩
  else ⟨tracker, config, changed⟩

/-- `process_packet`. The clock is read for the sender first and then for each section. -/
def GossipTracker.processPacket (tracker : GossipTracker) (clock : Nat → Nat)
    (config : ClusterConfig) (packet : GossipPacket) : Merge :=
  let senderId := packet.header.senderId
  if senderId = [] then ⟨tracker, config, false⟩
  else
    let (banned, tracker) := tracker.isBanned senderId (clock 0)
    if banned ∨ config.localNodeId = some senderId then ⟨tracker, config, false⟩
    else
      (packet.considered.zip ((List.range packet.considered.length).map fun index =>
        clock (index + 1))).foldl (Merge.takeSection senderId)
          (Merge.takeSender packet.header tracker config)

def GossipTracker.evaluateWorker (config : ClusterConfig) (found : List Bytes × GossipTracker)
    (worker : Worker) : List Bytes × GossipTracker :=
  match worker.nodeId with
  | none => found
  | some nodeId =>
    if found.2.failNodes.contains nodeId then found
    else
      let own := if config.isPrimary && found.2.localPfails.contains nodeId then 1 else 0
      let voters := ((found.2.pfailReports nodeId).getD []).filter fun voter =>
        config.getNodeRoleFromNodeId voter = .primary
      if config.getPrimaryCount / 2 + 1 ≤ own + voters.length then
        (found.1 ++ [nodeId], { found.2 with failNodes := found.2.failNodes.insert nodeId })
      else found

/-- `evaluate_fail_status` of the tracker. -/
def GossipTracker.evaluateFailStatus (tracker : GossipTracker) (config : ClusterConfig) :
    List Bytes × GossipTracker :=
  (config.workers.drop 2).foldl (GossipTracker.evaluateWorker config) ([], tracker)

end Wedb.Cluster
