/-
The configuration of a cluster node under any history. Slots point into the table of workers, and
slots without an owner are offline.
-/

import Wedb.SlotArbitration

namespace Wedb.Cluster

open ClusterConfig List ClusterManager Worker

namespace ClusterConfig

variable {config : ClusterConfig} {nodeId : Bytes}

def GoesBy (nodeId : Bytes) (worker : Worker) : Prop :=
  ∃ name ∈ worker.nodeId, eqIgnoreAsciiCase name nodeId = true

theorem any_nodeId_iff (worker : Worker) :
    worker.nodeId.any (eqIgnoreAsciiCase · nodeId) ↔ GoesBy nodeId worker := by
  cases name : worker.nodeId with
  | none => simp [GoesBy, name]
  | some name => simp_all [GoesBy]

theorem getWorkerId_found (found : config.getWorkerIdFromNodeId nodeId ≠ 0) :
    ∃ worker, config.workers[config.getWorkerIdFromNodeId nodeId]? = some worker ∧
      GoesBy nodeId worker := by
  unfold getWorkerIdFromNodeId at found ⊢
  split at found
  · rename_i index located
    obtain ⟨inside, named, -⟩ := findIdx?_eq_some_iff_getElem.mp located
    refine ⟨(config.workers.drop 1)[index], ?_, (any_nodeId_iff _).mp named⟩
    rw [← getElem?_eq_getElem inside, getElem?_drop, Nat.add_comm]
  · exact absurd rfl found

theorem getWorkerId_lt (found : config.getWorkerIdFromNodeId nodeId ≠ 0) :
    config.getWorkerIdFromNodeId nodeId < config.workers.length := by
  obtain ⟨worker, located, -⟩ := getWorkerId_found found
  exact (List.getElem?_eq_some_iff.mp located).1

theorem getWorkerId_eq_zero_iff : config.getWorkerIdFromNodeId nodeId = 0 ↔
      ∀ worker ∈ config.workers.drop 1, ¬GoesBy nodeId worker := by
  unfold getWorkerIdFromNodeId
  split
  · rename_i index located
    obtain ⟨inside, named, -⟩ := findIdx?_eq_some_iff_getElem.mp located
    refine iff_of_false (Nat.succ_ne_zero index) fun none => ?_
    exact none _ (getElem_mem inside) ((any_nodeId_iff _).mp named)
  · rename_i missing
    refine iff_of_true rfl fun worker member named => ?_
    have unnamed := findIdx?_eq_none_iff.mp missing worker member
    rw [(any_nodeId_iff worker).mpr named] at unnamed
    cases unnamed

/-- A slot points into a table of workers, and to no worker when it is offline. -/
def SlotSound (count : Nat) (slot : HashSlot) : Prop :=
  slot.workerId < count ∧ (slot.state = .offline → slot.workerId = 0)

structure Sound (config : ClusterConfig) : Prop where
  manned : 2 ≤ config.workers.length
  slots : ∀ slot, SlotSound config.workers.length (config.slotMap slot)

variable {count : Nat} {slot : HashSlot}

theorem SlotSound.offline (manned : 2 ≤ count) : SlotSound count .offline :=
  ⟨Nat.lt_of_lt_of_le Nat.zero_lt_two manned, fun _ => rfl⟩

variable {index : Nat} {state : SlotState}

theorem SlotSound.of_assigned (inside : index < count)
    (assigned : state ≠ .offline) : SlotSound count ⟨index, state⟩ :=
  ⟨inside, fun offline => absurd offline assigned⟩

theorem SlotSound.of_local (manned : 2 ≤ count)
    (assigned : state ≠ .offline) : SlotSound count ⟨localWorkerId, state⟩ :=
  .of_assigned manned assigned

theorem SlotSound.mono {larger : Nat} (sound : SlotSound count slot) (grown : count ≤ larger) :
    SlotSound larger slot :=
  ⟨Nat.lt_of_lt_of_le sound.1 grown, sound.2⟩

theorem asU16_lt (inside : index < count) : asU16 index < count :=
  Nat.lt_of_le_of_lt (Nat.mod_le index _) inside

theorem SlotSound.slotWithout (behind : 2 ≤ index) (inside : index < count)
    (sound : SlotSound count slot) : SlotSound (count - 1) (slotWithout (asU16 index) slot) := by
  have bound := asU16_lt inside
  obtain ⟨valid, unowned⟩ := sound
  unfold ClusterConfig.slotWithout
  split_ifs with later same
  · refine ⟨Nat.sub_lt_sub_right (Nat.one_le_of_lt later) valid, fun offline => ?_⟩
    rw [unowned offline]
  · split
    · exact .of_local (by omega) (by decide)
    · exact .offline (by omega)
  · exact ⟨by omega, unowned⟩

theorem assignSlots_cases (slotMap : Fin totalHashSlots → HashSlot)
    (slots : List (Fin totalHashSlots)) (given : HashSlot) (slot : Fin totalHashSlots) :
    assignSlots slotMap slots given slot = given ∨
      assignSlots slotMap slots given slot = slotMap slot := by
  unfold assignSlots
  induction slots generalizing slotMap with
  | nil => exact .inr rfl
  | cons index rest ih =>
    rw [foldl_cons]
    rcases ih (Function.update slotMap index given) with assigned | kept
    · exact .inl assigned
    · obtain rfl | same := eq_or_ne slot index
      · rw [kept, Function.update_self]
        exact .inl rfl
      · rw [kept, Function.update_of_ne same]
        exact .inr rfl

theorem workers_mergeSenderSlots (config : ClusterConfig) (senderId : Bytes) (epoch : Int64)
    (assigned migrating : List Nat) :
    (config.mergeSenderSlots senderId epoch assigned migrating).2.workers = config.workers := by
  unfold mergeSenderSlots
  dsimp only
  split_ifs <;> rfl

section

variable (sound : config.Sound)

include sound

variable {after : ClusterConfig}

theorem Sound.change (grown : config.workers.length ≤ after.workers.length)
    (slots : ∀ slot, SlotSound config.workers.length (config.slotMap slot) →
      SlotSound after.workers.length (after.slotMap slot)) : after.Sound :=
  ⟨sound.manned.trans grown, fun slot => slots slot (sound.slots slot)⟩

theorem Sound.workers {workers : List Worker} (grown : config.workers.length ≤ workers.length) :
    Sound { config with workers := workers } :=
  sound.change grown fun _ valid => valid.mono grown

theorem Sound.modifyLocal (change : Worker → Worker) : (config.modifyLocal change).Sound :=
  sound.workers (le_of_eq (length_modify ..).symm)

theorem Sound.setLocalEpoch (epoch : Int64) : (config.setLocalEpoch epoch).Sound :=
  sound.modifyLocal _

theorem Sound.updateSlotState (slot : Fin totalHashSlots) {index : Nat}
    {state : SlotState} (valid : SlotSound config.workers.length ⟨index, state⟩) :
    (config.updateSlotState slot index state).Sound := by
  refine sound.change le_rfl fun other before => ?_
  obtain rfl | same := eq_or_ne other slot
  · dsimp only [ClusterConfig.updateSlotState]
    rw [Function.update_self]
    exact valid
  · dsimp only [ClusterConfig.updateSlotState]
    rw [Function.update_of_ne same]
    exact before

theorem Sound.assignSlots (slots : List (Fin totalHashSlots))
    {given : HashSlot} (valid : SlotSound config.workers.length given) :
    Sound { config with slotMap := assignSlots config.slotMap slots given } := by
  refine sound.change le_rfl fun slot before => ?_
  dsimp only
  rcases assignSlots_cases config.slotMap slots given slot with assigned | kept
  · rw [assigned]
    exact valid
  · rw [kept]
    exact before

theorem Sound.removeWorker (removed : config.removeWorker nodeId = .ok after)
    (foreign : config.getWorkerIdFromNodeId nodeId ≠ localWorkerId) : after.Sound := by
  unfold ClusterConfig.removeWorker at removed
  dsimp only at removed
  split_ifs at removed with unknown
  cases removed
  have inside := getWorkerId_lt unknown
  have behind : 2 ≤ config.getWorkerIdFromNodeId nodeId := by
    unfold localWorkerId at foreign
    omega
  have fewer : (config.workers.eraseIdx (config.getWorkerIdFromNodeId nodeId)).length =
      config.workers.length - 1 := length_eraseIdx_of_lt inside
  refine ⟨?_, fun slot => ?_⟩
  · dsimp only
    omega
  · dsimp only
    rw [fewer]
    exact (sound.slots slot).slotWithout behind inside

theorem Sound.mergeWorkerRef (info : WorkerMeta) (confirm : Bool) :
    (config.mergeWorkerRef info confirm).2.Sound := by
  rcases config.mergeWorkerRef_cases info confirm with
    same | ⟨_, _, _, appended⟩ | ⟨_, _, _, _, _, _, _, overwritten⟩
  · rw [same]
    exact sound
  · rw [appended]
    exact sound.workers (by simp)
  · rw [overwritten]
    exact sound.workers (by simp)

theorem Sound.mergeSenderSlots (senderId : Bytes) (epoch : Int64) (assigned migrating : List Nat) :
    (config.mergeSenderSlots senderId epoch assigned migrating).2.Sound := by
  by_cases unknown : senderId = [] ∨ config.getWorkerIdFromNodeId senderId = 0
  · rw [mergeSenderSlots_of_unknown unknown]
    exact sound
  · obtain ⟨named, known⟩ := not_or.mp unknown
    have workers := config.workers_mergeSenderSlots senderId epoch assigned migrating
    refine sound.change (le_of_eq (congrArg List.length workers.symm)) fun slot before => ?_
    rw [workers, mergeSenderSlots_slotMap named known]
    split_ifs
    · exact .of_assigned (asU16_lt (getWorkerId_lt known)) (by decide)
    · exact .offline sound.manned
    · exact before

end

end ClusterConfig

theorem Merge.takeSection_sound {senderId : Bytes} {state : Merge}
    {item : GossipNodeSection × Nat} (sound : state.config.Sound) :
    (state.takeSection senderId item).config.Sound := by
  unfold takeSection
  dsimp only
  split_ifs
  · exact sound
  · exact sound
  · exact sound.mergeWorkerRef _ _

theorem Merge.takeSender_sound (header : GossipHeader) (votes : GossipTracker)
    {known : ClusterConfig} (sound : known.Sound) :
    (Merge.takeSender header votes known).config.Sound := by
  unfold takeSender
  split_ifs
  · exact (sound.mergeWorkerRef _ _).mergeSenderSlots _ _ _ _
  · exact sound.mergeWorkerRef _ _

variable {tracker : GossipTracker} {clock : Nat → Nat} {config : ClusterConfig}
  {packet : GossipPacket}

theorem processPacket_rec (good : Merge → Prop) (start : good ⟨tracker, config, false⟩)
    (asked : good ⟨(tracker.isBanned packet.header.senderId (clock 0)).2, config, false⟩)
    (sender : ¬tracker.Ignores (clock 0) config packet → good (Merge.takeSender packet.header
      (tracker.isBanned packet.header.senderId (clock 0)).2 config))
    (sections : ∀ state : Merge, ∀ entry ∈ packet.considered, ∀ reading, good state →
      good (state.takeSection packet.header.senderId (entry, clock reading))) :
    good (tracker.processPacket clock config packet) := by
  unfold GossipTracker.processPacket
  dsimp only
  split_ifs with unnamed refused
  · exact start
  · exact asked
  · refine List.foldlRecOn _ _ (sender (not_or.mpr ⟨unnamed, refused⟩))
      fun state holds item member => ?_
    obtain ⟨inside, read⟩ := of_mem_zip member
    obtain ⟨index, -, same⟩ := mem_map.mp read
    exact Prod.mk.eta (p := item) ▸ same ▸ sections state item.1 inside (index + 1) holds

theorem processPacket_induction (good : ClusterConfig → Prop) (start : good config)
    (sender : ¬tracker.Ignores (clock 0) config packet → good (Merge.takeSender packet.header
      (tracker.isBanned packet.header.senderId (clock 0)).2 config).config)
    (sections : ∀ state : Merge, ∀ item : GossipNodeSection × Nat,
      item.1 ∈ packet.considered → good state.config →
        good (state.takeSection packet.header.senderId item).config) :
    good (tracker.processPacket clock config packet).config :=
  processPacket_rec (fun state => good state.config) start start sender
    fun state _ inside _ => sections state _ inside

theorem processPacket_sound (sound : config.Sound) :
    (tracker.processPacket clock config packet).config.Sound :=
  processPacket_induction ClusterConfig.Sound sound
    (fun _ => Merge.takeSender_sound _ _ sound) fun _ _ _ holds => Merge.takeSection_sound holds

def Worker.place (worker : Worker) : Option Bytes × Bytes × Nat :=
  (worker.nodeId, worker.address, worker.port)

def Worker.identity (worker : Worker) : (Option Bytes × Bytes × Nat) × Int64 :=
  (worker.place, worker.configEpoch)

namespace ClusterManager

def Operation.raises : Operation → Bool
  | .removeSlots _ | .prepareSlotForOwnershipChange _ _ | .failover | .replicaofNoOne
  | .bumpClusterEpoch => true
  | _ => false

/-- What an operation can do to the table of workers. -/
inductive Reworked (manager : ClusterManager) : Operation → List Worker → Prop
  | edited {operation : Operation} {workers : List Worker}
      (same : workers.map Worker.identity = manager.config.workers.map Worker.identity) :
      Reworked manager operation workers
  | raised {operation : Operation} (raises : operation.raises = true)
      (change : Worker → Worker) (placed : ∀ worker, (change worker).place = worker.place)
      (epoch : ∀ worker, (change worker).configEpoch = manager.config.getMaxConfigEpoch + 1) :
      Reworked manager operation (manager.config.workers.modify localWorkerId change)
  | moved {address : Bytes} {port : Nat} {nodeId : Option Bytes} (index : Nat)
      (change : Worker → Worker) (renamed : ∀ worker, (change worker).nodeId = worker.nodeId)
      (epoch : ∀ worker, (change worker).configEpoch = worker.configEpoch) :
      Reworked manager (.meet address port nodeId) (manager.config.workers.modify index change)
  | named {address : Bytes} {port : Nat} {nodeId : Bytes} (position : Nat)
      (unknown : manager.config.getWorkerIdFromNodeId nodeId = 0) :
      Reworked manager (.meet address port (some nodeId))
        (manager.config.workers.modify (position + 1) fun worker =>
          { worker with nodeId := some nodeId })
  | added {address : Bytes} {port : Nat} {nodeId : Option Bytes} (worker : Worker)
      (name : worker.nodeId = nodeId)
      (unknown : ∀ name ∈ nodeId, manager.config.getWorkerIdFromNodeId name = 0) :
      Reworked manager (.meet address port nodeId) (manager.config.workers ++ [worker])
  | removed {nodeId : Bytes} {expirySeconds now : Nat} (index : Nat) (behind : 2 ≤ index) :
      Reworked manager (.removeWorker nodeId expirySeconds now)
        (manager.config.workers.eraseIdx index)
  | started {epoch : Int64} (alone : manager.config.numWorkers ≤ 1)
      (unset : manager.config.localNodeConfigEpoch = 0) (positive : ¬epoch ≤ 0) :
      Reworked manager (.setLocalConfigEpoch epoch) (manager.config.setLocalEpoch epoch).workers
  | heard {clock : Nat → Nat} {packet : GossipPacket} : Reworked manager (.mergeGossip clock packet)
        ((manager.gossip.processPacket clock manager.config packet).config.resolveEpochCollision
          packet.header.senderId packet.header.configEpoch).2.workers

variable {manager : ClusterManager} {operation : Operation}

theorem Reworked.kept : Reworked manager operation manager.config.workers := .edited rfl

theorem modifyWorker_identity (known : ClusterConfig) (nodeId : Bytes) (change : Worker → Worker)
    (keeps : ∀ worker, (change worker).identity = worker.identity) :
    (modifyWorker known nodeId change).workers.map identity = known.workers.map identity := by
  unfold modifyWorker
  dsimp only
  split_ifs
  · exact map_modify_of_keeps _ _ _ keeps
  · rfl

theorem modifyWorker_sound {known : ClusterConfig} (sound : known.Sound) (nodeId : Bytes)
    (change : Worker → Worker) : (modifyWorker known nodeId change).Sound := by
  unfold modifyWorker
  dsimp only
  split_ifs
  · exact sound.workers (le_of_eq (length_modify ..).symm)
  · exact sound

theorem onSlot_induction {α : Type} {good : ClusterConfig → Prop} (start : good manager.config)
    {slot : Nat} {action : Fin totalHashSlots → Answer α}
    (acted : ∀ slot, good (action slot).2.config) : good (manager.onSlot slot action).2.config := by
  unfold onSlot
  split_ifs
  · exact acted _
  · exact start

theorem namesLocal_of_found {nodeId : Bytes}
    (found : manager.config.getWorkerIdFromNodeId nodeId = localWorkerId) :
    manager.namesLocal nodeId := by
  have nonzero : manager.config.getWorkerIdFromNodeId nodeId ≠ 0 := by
    rw [found]
    decide
  obtain ⟨worker, located, name, named, same⟩ := getWorkerId_found nonzero
  rw [found] at located
  unfold namesLocal localNodeId
  rw [located, Option.bind_some, Option.mem_def.mp named]
  exact same

structure Follows (manager : ClusterManager) (operation : Operation) (after : ClusterConfig) :
    Prop where
  sound : after.Sound
  workers : Reworked manager operation after.workers

theorem apply_follows (sound : manager.config.Sound) (operation : Operation) :
    manager.Follows operation (manager.apply operation).config := by
  have kept : manager.Follows operation manager.config := ⟨sound, .kept⟩
  cases operation with
  | addSlots slots =>
    unfold apply tryAddSlots
    dsimp only
    split_ifs
    · exact kept
    · split
      · exact kept
      · exact ⟨sound.assignSlots _ (.of_local sound.manned (by decide)), .kept⟩
  | removeSlots slots =>
    unfold apply tryRemoveSlots
    dsimp only
    split_ifs
    · exact kept
    · split
      · exact kept
      · exact ⟨(sound.assignSlots _ (.offline sound.manned)).setLocalEpoch _,
          .raised rfl _ (fun _ => rfl) fun _ => rfl⟩
  | prepareSlotForMigration slot target =>
    refine onSlot_induction kept fun slot => ?_
    dsimp only
    split_ifs with unknown
    iterate 5 exact kept
    exact ⟨sound.updateSlotState slot (.of_assigned
      (asU16_lt (getWorkerId_lt unknown)) (by decide)), .kept⟩
  | prepareSlotForImport slot source =>
    refine onSlot_induction kept fun slot => ?_
    dsimp only
    split
    · exact kept
    rename_i known
    split
    · exact kept
    split
    · exact kept
    split
    · exact kept
    split_ifs
    · exact kept
    · exact kept
    · exact ⟨sound.updateSlotState slot (.of_assigned
        (asU16_lt (getWorkerId_lt known)) (by decide)), .kept⟩
  | prepareSlotForOwnershipChange slot owner =>
    refine onSlot_induction kept fun slot => ?_
    dsimp only
    split_ifs with unknown
    · exact kept
    · split
      · split
        · exact kept
        · exact ⟨(sound.updateSlotState slot (.of_local sound.manned (by decide))).setLocalEpoch _,
            .raised rfl _ (fun _ => rfl) fun _ => rfl⟩
      · exact ⟨sound.updateSlotState slot (.of_assigned
          (asU16_lt (getWorkerId_lt unknown)) (by decide)), .kept⟩
  | prepareSlotForStable slot =>
    refine onSlot_induction kept fun slot => ?_
    dsimp only
    split
    · exact ⟨sound.updateSlotState slot (.of_local sound.manned (by decide)), .kept⟩
    · exact ⟨sound.updateSlotState slot (.of_assigned (sound.slots slot).1 (by decide)), .kept⟩
    · exact kept
  | meet address port nodeId =>
    unfold apply tryMeet
    dsimp only
    have modified : ∀ index change,
        manager.config.workers.length ≤ (manager.config.workers.modify index change).length :=
      fun index change => le_of_eq (length_modify ..).symm
    split_ifs with existing
    · exact ⟨sound.workers (modified _ _), .moved _ _ (fun _ => rfl) fun _ => rfl⟩
    have unknown : ∀ name ∈ nodeId, manager.config.getWorkerIdFromNodeId name = 0 := by
      rintro name rfl
      exact Nat.eq_zero_of_not_pos existing
    split
    · refine ⟨sound.workers (modified _ _), ?_⟩
      cases nodeId with
      | none => exact .moved _ _ (fun _ => rfl) fun _ => rfl
      | some name => exact .named _ (unknown name rfl)
    · have absent : (nodeId.map manager.config.getWorkerIdFromNodeId).getD 0 = 0 :=
        Nat.eq_zero_of_not_pos existing
      unfold addWorker
      rw [if_neg (not_not.mpr absent)]
      exact ⟨sound.workers (by simp), .added _ rfl unknown⟩
  | removeWorker nodeId expirySeconds now =>
    unfold apply tryRemoveWorker
    dsimp only
    split_ifs with own
    · exact kept
    · exact kept
    · exact kept
    · split
      · exact kept
      · rename_i after removed
        have foreign : manager.config.getWorkerIdFromNodeId nodeId ≠ localWorkerId :=
          fun atLocal => own (namesLocal_of_found atLocal)
        refine ⟨sound.removeWorker removed foreign, ?_⟩
        unfold removeWorker at removed
        dsimp only at removed
        split_ifs at removed with unknown
        cases removed
        unfold localWorkerId at foreign
        exact .removed _ (by omega)
  | failover =>
    unfold apply tryFailover
    dsimp only
    split_ifs
    · exact kept
    · split
      · exact kept
      · refine ⟨ClusterConfig.Sound.modifyLocal ?_ _, .raised rfl _ (fun _ => rfl) fun _ => rfl⟩
        refine sound.change le_rfl fun slot valid => ?_
        dsimp only
        split_ifs
        · exact .of_local sound.manned (by decide)
        · exact valid
  | replicaof primaryId =>
    unfold apply tryReplicaof
    dsimp only
    split_ifs with unknown
    · exact kept
    · exact kept
    · exact kept
    · refine ⟨ClusterConfig.Sound.modifyLocal ?_ _,
        .edited (map_modify_of_keeps _ _ _ fun _ => rfl)⟩
      refine sound.change le_rfl fun slot valid => ?_
      dsimp only
      split_ifs
      · exact .of_assigned (asU16_lt (getWorkerId_lt unknown)) (by decide)
      · exact valid
  | replicaofNoOne =>
    unfold apply tryReplicaofNoOne
    dsimp only
    split_ifs
    · exact kept
    · exact ⟨sound.modifyLocal _, .raised rfl _ (fun _ => rfl) fun _ => rfl⟩
  | setLocalConfigEpoch epoch =>
    unfold apply trySetLocalConfigEpoch
    dsimp only
    split_ifs with joined refused
    · exact kept
    · exact kept
    · obtain ⟨unset, positive⟩ := not_or.mp refused
      exact ⟨sound.setLocalEpoch _, .started (Nat.le_of_not_lt joined) (not_not.mp unset) positive⟩
  | bumpClusterEpoch =>
    exact ⟨sound.setLocalEpoch _, .raised rfl _ (fun _ => rfl) fun _ => rfl⟩
  | mergeGossip clock packet =>
    refine ⟨?_, .heard⟩
    unfold apply tryMergeGossip resolveEpochCollision
    dsimp only
    split_ifs
    · exact (processPacket_sound sound).setLocalEpoch _
    · exact processPacket_sound sound
  | markNodePfail nodeId => exact kept
  | clearNodePfail nodeId => exact ⟨modifyWorker_sound sound _ _,
      .edited (modifyWorker_identity _ _ _ fun _ => rfl)⟩
  | evaluateFailStatus =>
    have edited : manager.evaluateFailStatus.2.config.Sound ∧
        manager.evaluateFailStatus.2.config.workers.map identity =
          manager.config.workers.map identity := by
      refine List.foldlRecOn (motive := fun known : ClusterConfig => known.Sound ∧
        known.workers.map identity = manager.config.workers.map identity)
        _ _ ⟨sound, rfl⟩ fun known holds nodeId _ => ⟨modifyWorker_sound holds.1 _ _, ?_⟩
      refine Eq.trans (modifyWorker_identity known nodeId _ ?_) holds.2
      exact fun _ => rfl
    exact ⟨edited.1, .edited edited.2⟩

theorem apply_sound (sound : manager.config.Sound) (operation : Operation) :
    (manager.apply operation).config.Sound :=
  (apply_follows sound operation).sound

end ClusterManager

def GossipPacket.names (packet : GossipPacket) : List Bytes :=
  packet.header.senderId :: packet.considered.map GossipNodeSection.nodeId

namespace ClusterConfig

def names (config : ClusterConfig) : List (Option Bytes) :=
  (config.workers.drop 1).map Worker.nodeId

/-- Two names that differ by more than case, or of which one is missing. -/
def Apart (left right : Option Bytes) : Prop :=
  ∀ name ∈ left, ∀ other ∈ right, eqIgnoreAsciiCase name other = false

theorem Apart.symm {left right : Option Bytes} (apart : Apart left right) : Apart right left := by
  intro other second name first
  have differ := apart name first other second
  unfold eqIgnoreAsciiCase at differ ⊢
  rw [Bool.beq_comm, differ]

variable {config after : ClusterConfig} {nodeId : Bytes} (index : Nat)

theorem getElem?_names : config.names[index]? = config.workers[index + 1]?.map Worker.nodeId := by
  rw [names, getElem?_map, getElem?_drop, Nat.add_comm]

theorem names_congr (same : ∀ index : Nat,
    after.workers[index]?.map Worker.nodeId = config.workers[index]?.map Worker.nodeId) :
    after.names = config.names := by
  refine ext_getElem? fun index => ?_
  rw [getElem?_names, getElem?_names, same]

theorem names_modify (change : Worker → Worker)
    (keeps : ∀ worker, (change worker).nodeId = worker.nodeId) :
    names { config with workers := config.workers.modify index change } = config.names := by
  rw [names, map_drop, map_modify_of_keeps _ _ _ keeps, ← map_drop]
  rfl

theorem names_setLocalEpoch (epoch : Int64) : (config.setLocalEpoch epoch).names = config.names :=
  names_modify _ _ fun _ => rfl

theorem apart_of_unknown (unknown : config.getWorkerIdFromNodeId nodeId = 0) :
    ∀ name ∈ config.names, Apart name (some nodeId) := by
  intro name member first named other same
  obtain rfl := Option.some.inj (Option.mem_def.mp same)
  obtain ⟨worker, inside, rfl⟩ := mem_map.mp member
  refine Bool.eq_false_iff.mpr fun equal => ?_
  exact getWorkerId_eq_zero_iff.mp unknown worker inside ⟨first, named, equal⟩

theorem names_append (manned : 2 ≤ config.workers.length) (worker : Worker) :
    names { config with workers := config.workers ++ [worker] } =
      config.names ++ [worker.nodeId] := by
  dsimp only [names]
  rw [drop_append_of_le_length (Nat.le_of_succ_le manned), map_append]
  rfl

theorem names_set {index : Nat} {stored worker : Worker}
    (located : config.workers[index]? = some stored) (keeps : worker.nodeId = stored.nodeId) :
    names { config with workers := config.workers.set index worker } = config.names := by
  refine names_congr fun other => ?_
  rw [getElem?_set]
  split_ifs with same inside
  · rw [← same, located, Option.map_some, Option.map_some, keeps]
  · rw [← same, getElem?_eq_none (Nat.le_of_not_lt inside)]
  · rfl

theorem names_mergeSenderSlots (senderId : Bytes) (epoch : Int64) (assigned migrating : List Nat) :
    (config.mergeSenderSlots senderId epoch assigned migrating).2.names = config.names := by
  unfold mergeSenderSlots
  dsimp only
  split_ifs <;> rfl

theorem names_mergeWorkerRef (manned : 2 ≤ config.workers.length) (info : WorkerMeta)
    (confirm : Bool) :
    (config.mergeWorkerRef info confirm).2.names = config.names ∨
      ∃ newId, info.nodeId = some newId ∧ some newId ∉ config.names ∧
        (config.mergeWorkerRef info confirm).2.names = config.names ++ [some newId] := by
  rcases config.mergeWorkerRef_cases info confirm with
    same | ⟨newId, named, missing, appended⟩ | ⟨_, _, _, _, _, located, _, overwritten⟩
  · rw [same]
    exact .inl rfl
  · refine .inr ⟨newId, named, fun known => ?_, ?_⟩
    · obtain ⟨worker, inside, same⟩ := mem_map.mp known
      have unnamed := findIdx?_eq_none_iff.mp (Option.map_eq_none_iff.mp missing) worker inside
      exact absurd same (of_decide_eq_false unnamed)
    · rw [appended]
      exact names_append manned _
  · rw [overwritten]
    exact .inl (names_set located rfl)

/-- No two workers share a name up to case. -/
def DistinctNames (config : ClusterConfig) : Prop := config.names.Pairwise Apart

theorem DistinctNames.congr (distinct : config.DistinctNames) (same : after.names = config.names) :
    after.DistinctNames := by
  unfold DistinctNames
  rw [same]
  exact distinct

theorem DistinctNames.append (distinct : config.DistinctNames) {name : Option Bytes}
    (apart : ∀ known ∈ config.names, Apart known name)
    (grown : after.names = config.names ++ [name]) :
    after.DistinctNames := by
  unfold DistinctNames
  rw [grown]
  refine pairwise_append.mpr ⟨distinct, pairwise_singleton _ _, fun known member => ?_⟩
  intro other last
  rw [mem_singleton.mp last]
  exact apart known member

theorem pairwise_set {α : Type} {related : α → α → Prop} {items : List α} {item : α}
    (pairwise : items.Pairwise related) (before : ∀ other ∈ items, related other item)
    (behind : ∀ other ∈ items, related item other) : (items.set index item).Pairwise related := by
  rw [pairwise_iff_getElem] at pairwise ⊢
  grind

/-- Every name of a packet that is a known one up to case is spelled like it. -/
def Spelled (config : ClusterConfig) (packet : GossipPacket) : Prop :=
  ∀ name ∈ packet.names, ∀ other, other ∈ packet.names ∨ some other ∈ config.names →
    eqIgnoreAsciiCase name other = true → name = other

structure Named (start : ClusterConfig) (packet : GossipPacket) (config : ClusterConfig) :
    Prop where
  sound : config.Sound
  distinct : config.DistinctNames
  origin : ∀ name, some name ∈ config.names → name ∈ packet.names ∨ some name ∈ start.names

theorem Named.congr {start : ClusterConfig} {packet : GossipPacket}
    (named : Named start packet config) (sound : after.Sound)
    (same : after.names = config.names) : Named start packet after :=
  ⟨sound, named.distinct.congr same, fun name member => named.origin name (same ▸ member)⟩

theorem Named.mergeWorkerRef {start : ClusterConfig} {packet : GossipPacket}
    (spelled : start.Spelled packet) (named : Named start packet config) (info : WorkerMeta)
    (fromPacket : ∀ name ∈ info.nodeId, name ∈ packet.names) (confirm : Bool) :
    Named start packet (config.mergeWorkerRef info confirm).2 := by
  have sound := named.sound.mergeWorkerRef info confirm
  rcases names_mergeWorkerRef named.sound.manned info confirm with
    same | ⟨newId, new, unknown, grown⟩
  · exact named.congr sound same
  · have inPacket := fromPacket newId new
    refine ⟨sound, named.distinct.append (fun known member => ?_) grown, fun name member => ?_⟩
    · intro name isKnown other isNew
      obtain rfl := Option.some.inj (Option.mem_def.mp isNew)
      obtain rfl := Option.mem_def.mp isKnown
      refine Bool.eq_false_iff.mpr fun equal => ?_
      have reversed : eqIgnoreAsciiCase newId name := by
        unfold eqIgnoreAsciiCase at equal ⊢
        rw [Bool.beq_comm, equal]
      have same := spelled newId inPacket name (named.origin name member) reversed
      exact unknown (same ▸ member)
    · rw [grown, mem_append, mem_singleton] at member
      rcases member with known | isNew
      · exact named.origin name known
      · cases isNew
        exact .inl inPacket

end ClusterConfig

theorem processPacket_distinctNames (sound : config.Sound) (distinct : config.DistinctNames)
    (spelled : config.Spelled packet) :
    (tracker.processPacket clock config packet).config.DistinctNames := by
  have start : config.Named packet config := ⟨sound, distinct, fun name member => .inr member⟩
  refine (processPacket_induction (config.Named packet) start (fun _ => ?_) ?_).distinct
  · have sender : ∀ name ∈ packet.header.toMeta.nodeId, name ∈ packet.names := by
      intro name member
      cases member
      exact mem_cons_self
    have recorded := start.mergeWorkerRef spelled packet.header.toMeta sender true
    unfold Merge.takeSender
    split_ifs
    · exact recorded.congr (recorded.sound.mergeSenderSlots _ _ _ _)
        (names_mergeSenderSlots _ _ _ _)
    · exact recorded
  · intro state item inside named
    unfold Merge.takeSection
    dsimp only
    split_ifs
    · exact named
    · exact named
    · refine named.mergeWorkerRef spelled _ (fun name member => ?_) false
      cases member
      exact mem_cons_of_mem _ (mem_map_of_mem inside)

namespace ClusterManager

variable {manager : ClusterManager} {operation : Operation}

def KeepsNames (manager : ClusterManager) : Operation → Prop
  | .mergeGossip _ packet => manager.config.Spelled packet
  | _ => True

theorem names_of_identity {before after : ClusterConfig}
    (same : after.workers.map identity = before.workers.map identity) :
    after.names = before.names := by
  have names (config : ClusterConfig) :
      config.names = ((config.workers.map identity).map (·.1.1)).drop 1 := by
    rw [ClusterConfig.names, map_map, map_drop]
    rfl
  rw [names, names, same]

theorem names_named (known : ClusterConfig) (position : Nat) (name : Bytes) :
    ClusterConfig.names { known with
      workers := known.workers.modify (position + 1) fun worker =>
        { worker with nodeId := some name } } = known.names.set position (some name) := by
  refine ext_getElem? fun index => ?_
  rw [getElem?_names, getElem?_modify]
  obtain rfl | same := eq_or_ne position index
  · simp only [if_true]
    cases located : known.names[position]? with
    | none =>
      rw [getElem?_set_self', located]
      rw [getElem?_names, Option.map_eq_none_iff] at located
      rw [located]
      rfl
    | some found =>
      rw [getElem?_set_self', located]
      rw [getElem?_names] at located
      obtain ⟨worker, there, -⟩ := Option.map_eq_some_iff.mp located
      rw [there]
      rfl
  · have other : ¬position + 1 = index + 1 := fun equal => same (Nat.succ.inj equal)
    rw [getElem?_set_ne same, getElem?_names]
    simp only [if_neg other, Option.map_eq_map, Option.map_id']

theorem names_eraseIdx (known : ClusterConfig) (index : Nat) :
    (ClusterConfig.names { known with workers := known.workers.eraseIdx index }).Sublist
      known.names :=
  ((eraseIdx_sublist known.workers index).drop 1).map Worker.nodeId

theorem apply_distinctNames (sound : manager.config.Sound)
    (distinct : manager.config.DistinctNames) (keeps : manager.KeepsNames operation) :
    (manager.apply operation).config.DistinctNames := by
  have workers := (apply_follows sound operation).workers
  generalize after : (manager.apply operation).config = config at workers ⊢
  obtain ⟨slotMap, table⟩ := config
  dsimp only at workers
  cases workers with
  | edited same => exact distinct.congr (names_of_identity same)
  | raised raises change placed epoch =>
    exact distinct.congr (names_modify _ _ fun worker => congrArg Prod.fst (placed worker))
  | moved index change renamed epoch => exact distinct.congr (names_modify _ _ renamed)
  | named position unknown =>
    have apart := apart_of_unknown unknown
    unfold ClusterConfig.DistinctNames
    rw [show ClusterConfig.names ⟨slotMap, _⟩ = _ from names_named manager.config position _]
    exact pairwise_set position distinct apart fun other member => (apart other member).symm
  | added worker name unknown =>
    refine distinct.append (fun known member => ?_) (names_append sound.manned worker)
    rw [name]
    intro left isKnown right isNew
    exact apart_of_unknown (unknown right isNew) known member left isKnown right rfl
  | removed index behind => exact distinct.sublist (names_eraseIdx manager.config index)
  | started alone unset positive => exact distinct.congr (names_setLocalEpoch _)
  | heard =>
    rename_i clock packet
    have merged : (manager.gossip.processPacket clock manager.config packet).config.DistinctNames :=
      processPacket_distinctNames sound distinct keeps
    refine merged.congr ?_
    unfold resolveEpochCollision
    split_ifs
    · exact names_setLocalEpoch _
    · rfl

def Throughout (condition : ClusterManager → Operation → Prop) :
    ClusterManager → List Operation → Prop
  | _, [] => True
  | manager, operation :: rest =>
    condition manager operation ∧ Throughout condition (manager.apply operation) rest

theorem states_induction {condition : ClusterManager → Operation → Prop}
    (good : ClusterManager → Prop)
    (step : ∀ manager operation, condition manager operation → good manager →
      good (manager.apply operation)) {operations : List Operation}
    (throughout : Throughout condition manager operations) (start : good manager) :
    ∀ state ∈ manager.states operations, good state := by
  induction operations generalizing manager with
  | nil =>
    intro state member
    rw [mem_singleton.mp member]
    exact start
  | cons operation rest ih =>
    intro state member
    rcases mem_cons.mp member with rfl | later
    · exact start
    · exact ih throughout.2 (step _ _ throughout.1 start) state later

theorem initialised_sound (worker : Worker) : (initialised worker).config.Sound :=
  ⟨le_rfl, fun _ => .offline le_rfl⟩

theorem initialised_distinctNames (worker : Worker) : (initialised worker).config.DistinctNames :=
  pairwise_singleton _ _

/-- Where gossip spells names as they are known, slots point into the table, offline slots have no
owner, and names are unique. -/
theorem history_consistent (worker : Worker) (operations : List Operation)
    (spelled : Throughout KeepsNames (initialised worker) operations) :
    ∀ state ∈ (initialised worker).states operations,
      (∀ slot, (state.config.slotMap slot).workerId < state.config.workers.length) ∧
        (∀ slot, (state.config.slotMap slot).state = .offline →
          (state.config.slotMap slot).workerId = 0) ∧ state.config.DistinctNames := by
  intro state member
  have invariant : state.config.Sound ∧ state.config.DistinctNames := by
    refine states_induction (fun known => known.config.Sound ∧ known.config.DistinctNames)
      (fun manager operation keeps holds => ?_) spelled
      ⟨initialised_sound worker, initialised_distinctNames worker⟩ state member
    exact ⟨apply_sound holds.1 operation, apply_distinctNames holds.1 holds.2 keeps⟩
  exact ⟨fun slot => (invariant.1.slots slot).1, fun slot => (invariant.1.slots slot).2,
    invariant.2⟩

def primaryOf (nodeId : Bytes) (epoch : Int64) : Worker :=
  { Worker.unassigned with nodeId := some nodeId, role := .primary, configEpoch := epoch }

def acquaintance : List Operation :=
  [.meet (bytesOf "10.0.0.2") 7000 (some [98]), .addSlots [0],
    .mergeGossip (fun _ => 0) (claimOf 2 [1]), .removeWorker [66] 60 0]

theorem history_consistent_acquaintance :
    Throughout KeepsNames (initialised (primaryOf [97] 1)) acquaintance ∧
      ∀ state ∈ (initialised (primaryOf [97] 1)).states acquaintance,
        (∀ slot, (state.config.slotMap slot).workerId < state.config.workers.length) ∧
          (∀ slot, (state.config.slotMap slot).state = .offline →
            (state.config.slotMap slot).workerId = 0) ∧ state.config.DistinctNames := by
  have spelled : Throughout KeepsNames (initialised (primaryOf [97] 1)) acquaintance := by
    refine ⟨trivial, trivial, fun name inPacket other known equal => ?_, trivial, trivial⟩
    obtain rfl := List.mem_singleton.mp inPacket
    rcases known with listed | listed
    · exact (List.mem_singleton.mp listed).symm
    · have names : (((initialised (primaryOf [97] 1)).apply
          (.meet (bytesOf "10.0.0.2") 7000 (some [98]))).apply (.addSlots [0])).config.names =
            [some [97], some [98]] := by
        decide +kernel
      rcases List.mem_pair.mp listed with first | second
      · cases first
        exact absurd equal (by decide)
      · exact (Option.some.inj second).symm
  exact ⟨spelled, history_consistent (primaryOf [97] 1) acquaintance spelled⟩

/-- A packet spelled in capitals adds a known node again. -/
theorem gossip_doubles_name :
    let packet := { claimOf 1 [] with header := { (claimOf 1 []).header with senderId := [65] } }
    let after := (initialised (primaryOf [97] 1)).apply (.mergeGossip (fun _ => 0) packet)
    after.config.names = [some [97], some [65]] ∧ eqIgnoreAsciiCase [97] [65] = true := by
  decide +kernel

end ClusterManager

end Wedb.Cluster
