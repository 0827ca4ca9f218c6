/-
The slot routing of a cluster node: the hash slot of a key, the slot map with its workers, the check
that serves, redirects or refuses a request, and the arms that set its flags.
-/

import Wedb.CommandDispatcher

namespace Wedb.Cluster

open Resp Server

def totalHashSlots : Nat := 16384

def crc16Table : List UInt16 :=
  [0x0000, 0x1021, 0x2042, 0x3063, 0x4084, 0x50A5, 0x60C6, 0x70E7, 0x8108, 0x9129, 0xA14A, 0xB16B,
  0xC18C, 0xD1AD, 0xE1CE, 0xF1EF, 0x1231, 0x0210, 0x3273, 0x2252, 0x52B5, 0x4294, 0x72F7, 0x62D6,
  0x9339, 0x8318, 0xB37B, 0xA35A, 0xD3BD, 0xC39C, 0xF3FF, 0xE3DE, 0x2462, 0x3443, 0x0420, 0x1401,
  0x64E6, 0x74C7, 0x44A4, 0x5485, 0xA56A, 0xB54B, 0x8528, 0x9509, 0xE5EE, 0xF5CF, 0xC5AC, 0xD58D,
  0x3653, 0x2672, 0x1611, 0x0630, 0x76D7, 0x66F6, 0x5695, 0x46B4, 0xB75B, 0xA77A, 0x9719, 0x8738,
  0xF7DF, 0xE7FE, 0xD79D, 0xC7BC, 0x48C4, 0x58E5, 0x6886, 0x78A7, 0x0840, 0x1861, 0x2802, 0x3823,
  0xC9CC, 0xD9ED, 0xE98E, 0xF9AF, 0x8948, 0x9969, 0xA90A, 0xB92B, 0x5AF5, 0x4AD4, 0x7AB7, 0x6A96,
  0x1A71, 0x0A50, 0x3A33, 0x2A12, 0xDBFD, 0xCBDC, 0xFBBF, 0xEB9E, 0x9B79, 0x8B58, 0xBB3B, 0xAB1A,
  0x6CA6, 0x7C87, 0x4CE4, 0x5CC5, 0x2C22, 0x3C03, 0x0C60, 0x1C41, 0xEDAE, 0xFD8F, 0xCDEC, 0xDDCD,
  0xAD2A, 0xBD0B, 0x8D68, 0x9D49, 0x7E97, 0x6EB6, 0x5ED5, 0x4EF4, 0x3E13, 0x2E32, 0x1E51, 0x0E70,
  0xFF9F, 0xEFBE, 0xDFDD, 0xCFFC, 0xBF1B, 0xAF3A, 0x9F59, 0x8F78, 0x9188, 0x81A9, 0xB1CA, 0xA1EB,
  0xD10C, 0xC12D, 0xF14E, 0xE16F, 0x1080, 0x00A1, 0x30C2, 0x20E3, 0x5004, 0x4025, 0x7046, 0x6067,
  0x83B9, 0x9398, 0xA3FB, 0xB3DA, 0xC33D, 0xD31C, 0xE37F, 0xF35E, 0x02B1, 0x1290, 0x22F3, 0x32D2,
  0x4235, 0x5214, 0x6277, 0x7256, 0xB5EA, 0xA5CB, 0x95A8, 0x8589, 0xF56E, 0xE54F, 0xD52C, 0xC50D,
  0x34E2, 0x24C3, 0x14A0, 0x0481, 0x7466, 0x6447, 0x5424, 0x4405, 0xA7DB, 0xB7FA, 0x8799, 0x97B8,
  0xE75F, 0xF77E, 0xC71D, 0xD73C, 0x26D3, 0x36F2, 0x0691, 0x16B0, 0x6657, 0x7676, 0x4615, 0x5634,
  0xD94C, 0xC96D, 0xF90E, 0xE92F, 0x99C8, 0x89E9, 0xB98A, 0xA9AB, 0x5844, 0x4865, 0x7806, 0x6827,
  0x18C0, 0x08E1, 0x3882, 0x28A3, 0xCB7D, 0xDB5C, 0xEB3F, 0xFB1E, 0x8BF9, 0x9BD8, 0xABBB, 0xBB9A,
  0x4A75, 0x5A54, 0x6A37, 0x7A16, 0x0AF1, 0x1AD0, 0x2AB3, 0x3A92, 0xFD2E, 0xED0F, 0xDD6C, 0xCD4D,
  0xBDAA, 0xAD8B, 0x9DE8, 0x8DC9, 0x7C26, 0x6C07, 0x5C64, 0x4C45, 0x3CA2, 0x2C83, 0x1CE0, 0x0CC1,
  0xEF1F, 0xFF3E, 0xCF5D, 0xDF7C, 0xAF9B, 0xBFBA, 0x8FD9, 0x9FF8, 0x6E17, 0x7E36, 0x4E55, 0x5E74,
  0x2E93, 0x3EB2, 0x0ED1, 0x1EF0]

def crc16 (data : Bytes) : UInt16 :=
  data.foldl (fun result byte =>
    crc16Table.getD ((result >>> 8).toUInt8 ^^^ byte).toNat 0 ^^^ (result <<< 8)) 0

def hashTag (key : Bytes) : Option Bytes :=
  match key.dropWhile (· ≠ 123) with
  | [] => none
  | _ :: rest =>
    if rest.contains 125 ∧ rest.takeWhile (· ≠ 125) ≠ [] then some (rest.takeWhile (· ≠ 125))
    else none

def hashSlot (key : Bytes) : Fin totalHashSlots :=
  ⟨(crc16 ((hashTag key).getD key)).toNat % totalHashSlots, Nat.mod_lt _ (by decide)⟩

example : hashSlot (bytesOf "123456789") = ⟨0x31C3, by decide⟩ ∧
    hashSlot [97, 123, 107, 125, 98] = hashSlot (bytesOf "k") := by decide

inductive SlotState
  | offline
  | stable
  | migrating
  | importing
  | fail
  | node
  | invalid
  deriving DecidableEq

/-- `HashSlot`: the worker a slot belongs to and its state. -/
structure HashSlot where
  workerId : Nat
  state : SlotState
  deriving DecidableEq

def HashSlot.effectiveWorkerId (slot : HashSlot) : Nat :=
  if slot.state = .migrating then 1 else slot.workerId

/-- `NodeRole` of the cluster. -/
inductive NodeRole
  | unassigned
  | primary
  | replica
  deriving DecidableEq

inductive LinkState
  | connected
  | disconnected
  deriving DecidableEq

/-- `Worker`, without its replication offset. -/
structure Worker where
  nodeId : Option Bytes
  address : Bytes
  port : Nat
  role : NodeRole
  replicaOfNodeId : Option Bytes
  configEpoch : Int64 := 0
  hostname : Option Bytes := none
  linkState : LinkState := .connected
  isPfail : Bool := false
  isFail : Bool := false
  handshake : Bool := false
  deriving DecidableEq

/-- `ClusterConfig`: the worker of number one is the node itself. -/
structure ClusterConfig where
  slotMap : Fin totalHashSlots → HashSlot
  workers : List Worker

def localWorkerId : Nat := 1

namespace ClusterConfig

variable (config : ClusterConfig)

def isReplica : Bool := config.workers[localWorkerId]?.any fun worker => worker.role = .replica

def localNodePrimaryId : Option Bytes :=
  config.workers[localWorkerId]?.bind Worker.replicaOfNodeId

/-- `get_worker_id_from_node_id`: zero when there is none. -/
def getWorkerIdFromNodeId (nodeId : Bytes) : Nat :=
  match (config.workers.drop 1).findIdx? fun worker =>
      worker.nodeId.any (eqIgnoreAsciiCase · nodeId) with
  | some index => index + 1
  | none => 0

variable (slot : Fin totalHashSlots)

def isLocal (allowReplicaRead : Bool) : Bool :=
  let item := config.slotMap slot
  if item.workerId = localWorkerId then !config.isReplica || allowReplicaRead
  else if item.state = .migrating then true
  else if allowReplicaRead && config.isReplica && decide (localWorkerId < item.workerId) then
    match config.localNodePrimaryId, config.workers[item.workerId]?.bind Worker.nodeId with
    | some primary, some owner => eqIgnoreAsciiCase owner primary
    | _, _ => false
  else false

def makeEndpointRoute (wid : Nat) (ctor : Bytes → RouteResult) : RouteResult :=
  if wid = 0 then .clusterDown
  else
    match config.workers[wid]? with
    | some worker =>
      if worker.address = bytesOf "unassigned" ∨ worker.port = 0 then .clusterDown
      else ctor (worker.address ++ bytesOf ":" ++ formatNat worker.port)
    | none => .clusterDown

def ownerOf : Nat :=
  let owner := (config.slotMap slot).effectiveWorkerId
  if owner = localWorkerId && config.isReplica then
    match config.localNodePrimaryId with
    | some primary =>
      if 0 < config.getWorkerIdFromNodeId primary then config.getWorkerIdFromNodeId primary
      else owner
    | none => owner
  else owner

def routeSlotExt (isAsking keyExistsLocally readOnly : Bool) : RouteResult :=
  let state := (config.slotMap slot).state
  if config.isLocal slot readOnly then
    match state with
    | .stable => .ok
    | .migrating =>
      if keyExistsLocally then .ok
      else config.makeEndpointRoute (config.slotMap slot).workerId (.ask slot)
    | _ => .clusterDown
  else
    match state with
    | .importing =>
      if isAsking then .ok else config.makeEndpointRoute (config.ownerOf slot) (.moved slot)
    | .stable => config.makeEndpointRoute (config.ownerOf slot) (.moved slot)
    | _ => .clusterDown

/-- `verify_keys`. On a single key it is `verify_key`. -/
def verifyKeys (keys : List Bytes) (keyExists sessionAsking readOnly : Bool) : RouteResult :=
  match keys with
  | [] => .ok
  | first :: rest =>
    if rest.all fun key => hashSlot key = hashSlot first then
      config.routeSlotExt (hashSlot first) sessionAsking keyExists readOnly
    else .crossSlot

end ClusterConfig

end Wedb.Cluster

namespace Wedb.Server

open Resp Cluster

variable {World : Type}

def flagArm (name : String) (set : ClientState → ClientState) (args : List Bytes)
    (context : ServerContext World) (client : ClientState) : Execution World :=
  if args = [] then ⟨context, set client, writeOk, .ok ()⟩
  else ⟨context, client, writeError (wrongArity name), .ok ()⟩

/-- A backend on a cluster node: only the arms written out set the flags of a session. -/
def Backend.onCluster (backend : Backend World) (config : World → ClusterConfig) : Backend World :=
  { backend with
    verifyKeys := fun context keys keyExists asking readOnly =>
      (config context.world).verifyKeys keys keyExists asking readOnly
    execute := fun context client cmd args =>
      match cmd with
      | .asking =>
        flagArm "asking" (fun client => { client with asking := true }) args context client
      | .readonly =>
        flagArm "readonly" (fun client => { client with isReadonly := true }) args context client
      | .readwrite =>
        flagArm "readwrite" (fun client => { client with isReadonly := false }) args context client
      | cmd =>
        let done := backend.execute context client cmd args
        { done with
          client :=
            { done.client with asking := client.asking, isReadonly := client.isReadonly } } }

end Wedb.Server
