/-
The configuration epoch of a node. An operation that raises it sets it to one more than the greatest
known epoch, which wraps; known epochs come from the network as they are.
-/

import Wedb.ClusterHistory

namespace Wedb.Cluster

open ClusterConfig List Worker

instance lawfulOrderMaxInt64 : Std.LawfulOrderMax Int64 where
  max_le_iff left right bound := by
    change (if left ≤ right then right else left) ≤ bound ↔ left ≤ bound ∧ right ≤ bound
    simp only [Int64.le_iff_toInt_le]
    split_ifs <;> omega
  max_eq_or left right := by
    change (if left ≤ right then right else left) = left ∨
      (if left ≤ right then right else left) = right
    split_ifs
    · exact .inr rfl
    · exact .inl rfl

def GossipPacket.epochs (packet : GossipPacket) : List Int64 :=
  packet.header.configEpoch :: packet.considered.map GossipNodeSection.configEpoch

namespace ClusterConfig

variable {config : ClusterConfig}

def known (config : ClusterConfig) : List Worker := config.workers.drop 1

theorem toInt_add_one {epoch : Int64} (below : epoch ≠ Int64.maxValue) :
    (epoch + 1).toInt = epoch.toInt + 1 := by
  have least := Int64.le_toInt epoch
  have greatest := Int64.toInt_lt epoch
  have distinct : epoch.toInt ≠ 2 ^ 63 - 1 := by
    rw [← Int64.toInt_maxValue, ne_eq, Int64.toInt_inj]
    exact below
  rw [Int64.toInt_add, Int64.toInt_one, Int.bmod_eq_of_le] <;> omega

variable {worker stored new : Worker}

theorem localNodeConfigEpoch_eq (located : config.workers[localWorkerId]? = some worker) :
    config.localNodeConfigEpoch = worker.configEpoch := by
  rw [localNodeConfigEpoch, located]
  rfl

section

variable (manned : 2 ≤ config.workers.length)

include manned

theorem known_ne_nil : config.known ≠ [] := by
  intro none
  have length := congrArg List.length none
  rw [known, length_drop, length_nil] at length
  omega

theorem getMaxConfigEpoch_spec :
    (∃ worker ∈ config.known, worker.configEpoch = config.getMaxConfigEpoch) ∧
      ∀ worker ∈ config.known, worker.configEpoch ≤ config.getMaxConfigEpoch := by
  unfold getMaxConfigEpoch
  rw [← known]
  cases greatest : (config.known.map configEpoch).max? with
  | none =>
    rw [max?_eq_none_iff, map_eq_nil_iff] at greatest
    exact absurd greatest (known_ne_nil manned)
  | some epoch =>
    obtain ⟨member, bound⟩ := max?_eq_some_iff.mp greatest
    refine ⟨mem_map.mp member, fun worker inside => ?_⟩
    exact bound _ (mem_map_of_mem inside)

/-- No known epoch is the greatest machine integer. -/
def Headroom (config : ClusterConfig) : Prop :=
  ∀ worker ∈ config.known, worker.configEpoch ≠ Int64.maxValue

theorem lt_raised (headroom : config.Headroom) :
    ∀ worker ∈ config.known, worker.configEpoch < config.getMaxConfigEpoch + 1 := by
  obtain ⟨⟨top, inside, greatest⟩, bound⟩ := getMaxConfigEpoch_spec manned
  intro worker member
  have below : config.getMaxConfigEpoch ≠ Int64.maxValue := greatest ▸ headroom top inside
  rw [Int64.lt_iff_toInt_lt, toInt_add_one below]
  have le := Int64.le_iff_toInt_le.mp (bound worker member)
  omega

theorem exists_local : ∃ worker ∈ config.known, config.workers[localWorkerId]? = some worker := by
  have inside : localWorkerId < config.workers.length := manned
  refine ⟨config.workers[localWorkerId], ?_, getElem?_eq_getElem inside⟩
  refine mem_of_getElem? (i := 0) ?_
  rw [known, getElem?_drop]
  exact getElem?_eq_getElem inside

theorem localNodeConfigEpoch_modifyLocal {change : Worker → Worker} {epoch : Int64}
    (sets : ∀ worker, (change worker).configEpoch = epoch) :
    (config.modifyLocal change).localNodeConfigEpoch = epoch := by
  obtain ⟨worker, -, located⟩ := exists_local manned
  unfold localNodeConfigEpoch modifyLocal
  rw [getElem?_modify_eq, located]
  exact sets worker

theorem localNodeConfigEpoch_lt_raised (headroom : config.Headroom) :
    config.localNodeConfigEpoch < config.getMaxConfigEpoch + 1 := by
  obtain ⟨worker, member, located⟩ := exists_local manned
  rw [localNodeConfigEpoch_eq located]
  exact lt_raised manned headroom worker member

end

theorem resolveEpochCollision_eq_true_iff (config : ClusterConfig) (remoteNodeId : Bytes)
    (remoteEpoch : Int64) : (config.resolveEpochCollision remoteNodeId remoteEpoch).1 ↔
      config.Collides remoteNodeId remoteEpoch := by
  unfold resolveEpochCollision
  split_ifs with collides
  · exact iff_of_true rfl collides
  · exact iff_of_false not_false collides

theorem exactIndex_found {nodeId : Bytes} {index : Nat}
    (found : config.exactIndex nodeId = some index) :
    ∃ position worker, index = position + 1 ∧ config.workers[index]? = some worker ∧
      worker.nodeId = some nodeId := by
  obtain ⟨position, located, rfl⟩ := Option.map_eq_some_iff.mp found
  obtain ⟨inside, named, -⟩ := findIdx?_eq_some_iff_getElem.mp located
  refine ⟨position, (config.workers.drop 1)[position], rfl, ?_, of_decide_eq_true named⟩
  rw [← getElem?_eq_getElem inside, getElem?_drop, Nat.add_comm]

/-- While a packet is merged the local worker stays, no epoch is lost to a smaller one, and each is
known from before or from the packet. -/
structure Heard (start : ClusterConfig) (packet : GossipPacket) (config : ClusterConfig) :
    Prop where
  sound : config.Sound
  localWorker : config.workers[localWorkerId]? = start.workers[localWorkerId]?
  grown : ∀ worker ∈ start.known, ∃ later ∈ config.known, worker.configEpoch ≤ later.configEpoch
  origin : ∀ later ∈ config.known, later.configEpoch ∈ packet.epochs ∨
    ∃ worker ∈ start.known, worker.configEpoch = later.configEpoch

variable {first : ClusterConfig} {packet : GossipPacket}

theorem Heard.start (sound : first.Sound) : Heard first packet first :=
  ⟨sound, rfl, fun worker member => ⟨worker, member, Int64.le_refl _⟩,
    fun worker member => .inr ⟨worker, member, rfl⟩⟩

section

variable (heard : Heard first packet config)

include heard

theorem Heard.change {after : ClusterConfig} (sound : after.Sound)
    (localWorker : after.workers[localWorkerId]? = config.workers[localWorkerId]?)
    (grown : ∀ worker ∈ config.known, ∃ later ∈ after.known, worker.configEpoch ≤ later.configEpoch)
    (origin : ∀ later ∈ after.known, later.configEpoch ∈ packet.epochs ∨ later ∈ config.known) :
    Heard first packet after where
  sound := sound
  localWorker := localWorker.trans heard.localWorker
  grown worker member := by
    obtain ⟨middle, inside, le⟩ := heard.grown worker member
    obtain ⟨later, last, next⟩ := grown middle inside
    exact ⟨later, last, Int64.le_trans le next⟩
  origin later member := (origin later member).elim .inl (heard.origin later)

theorem Heard.localNodeId : config.localNodeId = first.localNodeId :=
  congrArg (Option.bind · Worker.nodeId) heard.localWorker

theorem Heard.localNodeConfigEpoch : config.localNodeConfigEpoch = first.localNodeConfigEpoch := by
  rw [ClusterConfig.localNodeConfigEpoch, heard.localWorker]
  rfl

theorem Heard.collides {senderId : Bytes} {epoch : Int64}
    (collides : config.Collides senderId epoch) : first.Collides senderId epoch := by
  unfold Collides isPrimary localNodeRole at collides ⊢
  rw [heard.localNodeId, heard.localNodeConfigEpoch, heard.localWorker] at collides
  exact collides

theorem Heard.headroom (headroom : first.Headroom)
    (bounded : ∀ epoch ∈ packet.epochs, epoch ≠ Int64.maxValue) : config.Headroom := by
  intro later member
  rcases heard.origin later member with brought | ⟨worker, inside, same⟩
  · exact bounded _ brought
  · exact same ▸ headroom worker inside

end

theorem le_of_accepted {info : WorkerMeta} {confirm : Bool}
    (accepted : info.accepted confirm stored) : stored.configEpoch ≤ info.configEpoch := by
  simp only [WorkerMeta.accepted, Bool.or_eq_true, Bool.and_eq_true, decide_eq_true_eq] at accepted
  rcases accepted with less | ⟨-, le⟩
  · exact Int64.le_of_lt less
  · exact le

theorem known_append (manned : 2 ≤ config.workers.length) (worker : Worker) :
    known { config with workers := config.workers ++ [worker] } = config.known ++ [worker] :=
  drop_append_of_le_length (Nat.le_of_succ_le manned)

theorem known_set (position : Nat) (worker : Worker) :
    known { config with workers := config.workers.set (position + 1) worker } =
      config.known.set position worker := by
  dsimp only [known]
  rw [drop_set, if_neg (Nat.not_lt_of_le (Nat.le_add_left 1 position)), Nat.add_sub_cancel]

theorem exists_le_of_set {workers : List Worker} {position : Nat}
    (located : workers[position]? = some stored) (le : stored.configEpoch ≤ new.configEpoch) :
    ∀ worker ∈ workers, ∃ later ∈ workers.set position new,
      worker.configEpoch ≤ later.configEpoch := by
  intro worker member
  obtain ⟨index, inside, rfl⟩ := mem_iff_getElem.mp member
  obtain rfl | same := eq_or_ne position index
  · rw [getElem?_eq_getElem inside] at located
    cases located
    exact ⟨new, mem_set inside new, le⟩
  · refine ⟨workers[index], ?_, Int64.le_refl _⟩
    refine mem_of_getElem? (i := index) ?_
    rw [getElem?_set_ne same, getElem?_eq_getElem inside]

theorem Heard.mergeWorkerRef (heard : Heard first packet config) (info : WorkerMeta)
    (confirm : Bool) (foreign : first.localNodeId ≠ info.nodeId)
    (brought : info.configEpoch ∈ packet.epochs) :
    Heard first packet (config.mergeWorkerRef info confirm).2 := by
  have sound := heard.sound.mergeWorkerRef info confirm
  rcases config.mergeWorkerRef_cases info confirm with
    same | ⟨newId, named, missing, appended⟩ |
      ⟨newId, index, stored, named, found, located, accepted, overwritten⟩
  · rw [same]
    exact heard
  · rw [appended] at sound ⊢
    refine heard.change sound ?_ (fun worker member => ?_) fun later member => ?_
    · exact getElem?_append_left heard.sound.manned
    · rw [known_append heard.sound.manned]
      exact ⟨worker, mem_append_left _ member, Int64.le_refl _⟩
    · rw [known_append heard.sound.manned, mem_append, mem_singleton] at member
      rcases member with old | rfl
      · exact .inr old
      · exact .inl brought
  · obtain ⟨position, worker, rfl, there, spelled⟩ := exactIndex_found found
    obtain rfl := Option.some.inj (located.symm.trans there)
    have elsewhere : position + 1 ≠ localWorkerId := by
      intro atLocal
      rw [atLocal] at there
      refine foreign ?_
      rw [← heard.localNodeId, named, ← spelled, ClusterConfig.localNodeId, there]
      rfl
    have inKnown : config.known[position]? = some stored := by
      rw [known, getElem?_drop, Nat.add_comm]
      exact there
    rw [overwritten] at sound ⊢
    refine heard.change sound (getElem?_set_ne elsewhere) ?_ fun later member => ?_
    · rw [known_set]
      exact exists_le_of_set inKnown (le_of_accepted accepted)
    · rw [known_set] at member
      rcases mem_or_eq_of_mem_set member with old | rfl
      · exact .inr old
      · exact .inl brought

theorem Heard.mergeSenderSlots (heard : Heard first packet config) (senderId : Bytes)
    (epoch : Int64) (assigned migrating : List Nat) :
    Heard first packet (config.mergeSenderSlots senderId epoch assigned migrating).2 := by
  have sound := heard.sound.mergeSenderSlots senderId epoch assigned migrating
  have workers := config.workers_mergeSenderSlots senderId epoch assigned migrating
  have same : known (config.mergeSenderSlots senderId epoch assigned migrating).2 = config.known :=
    congrArg (List.drop 1) workers
  refine heard.change sound (congrArg (·[localWorkerId]?) workers) ?_ fun later member => ?_
  · rw [same]
    exact fun worker member => ⟨worker, member, Int64.le_refl _⟩
  · exact .inr (same ▸ member)

end ClusterConfig

theorem processPacket_heard (tracker : GossipTracker) (clock : Nat → Nat) {config : ClusterConfig}
    (packet : GossipPacket) (sound : config.Sound) :
    config.Heard packet (tracker.processPacket clock config packet).config := by
  refine processPacket_induction (config.Heard packet) (.start sound) (fun admitted => ?_) ?_
  · have foreign : config.localNodeId ≠ packet.header.toMeta.nodeId :=
      fun own => admitted (.inr (.inr own))
    have recorded := (ClusterConfig.Heard.start sound).mergeWorkerRef packet.header.toMeta true
      foreign mem_cons_self
    unfold Merge.takeSender
    split_ifs
    · exact recorded.mergeSenderSlots _ _ _ _
    · exact recorded
  · intro state item inside heard
    unfold Merge.takeSection
    dsimp only
    split_ifs with skipped
    · exact heard
    · exact heard
    · refine heard.mergeWorkerRef item.1.toMeta false (fun own => skipped ?_) ?_
      · exact .inr (.inr (heard.localNodeId.trans own))
      · exact mem_cons_of_mem _ (mem_map_of_mem inside)

namespace ClusterManager

variable (manager : ClusterManager)

def Bumps : Operation → Prop
  | .removeSlots slots => ∃ count, (manager.tryRemoveSlots slots).1 = .ok count
  | .prepareSlotForOwnershipChange slot owner =>
    (∃ index : Fin totalHashSlots, index.val = slot ∧
      (manager.config.slotMap index).state = .importing) ∧
        (manager.tryPrepareSlotForOwnershipChange slot owner).1 = .ok ()
  | .failover => ∃ epoch, manager.tryFailover.1 = .ok epoch
  | .replicaofNoOne => manager.config.localNodeRole = .replica
  | .bumpClusterEpoch => True
  | .mergeGossip clock packet =>
    ((manager.gossip.processPacket clock manager.config packet).config.resolveEpochCollision
      packet.header.senderId packet.header.configEpoch).1 = true
  | _ => False

def surveyed : Operation → ClusterConfig
  | .mergeGossip clock packet =>
    (manager.gossip.processPacket clock manager.config packet).config
  | _ => manager.config

/-- The epoch does not decrease, and a step that raises it leaves it above every known one. -/
def Advances (operation : Operation) : Prop :=
  manager.config.localNodeConfigEpoch ≤ (manager.apply operation).config.localNodeConfigEpoch ∧
    (manager.Bumps operation →
      ∀ worker ∈ manager.config.known ++ (manager.surveyed operation).known,
        worker.configEpoch < (manager.apply operation).config.localNodeConfigEpoch)

/-- An operation that may raise the epoch meets no known or colliding greatest integer. -/
def HasRoom : Operation → Prop
  | .mergeGossip _ packet =>
    manager.config.Collides packet.header.senderId packet.header.configEpoch →
      manager.config.Headroom ∧ ∀ epoch ∈ packet.epochs, epoch ≠ Int64.maxValue
  | operation => operation.raises = true → manager.config.Headroom

variable {manager : ClusterManager} {operation : Operation}

theorem localNodeConfigEpoch_congr {before after : ClusterConfig}
    (same : after.workers[localWorkerId]?.map configEpoch =
      before.workers[localWorkerId]?.map configEpoch) :
    before.localNodeConfigEpoch ≤ after.localNodeConfigEpoch :=
  Int64.le_of_eq (congrArg (Option.getD · 0) same.symm)

theorem configEpoch_of_identity {before after : List Worker}
    (same : after.map identity = before.map identity) :
    after[localWorkerId]?.map configEpoch = before[localWorkerId]?.map configEpoch := by
  have epochs (workers : List Worker) : workers[localWorkerId]?.map configEpoch =
      (workers.map identity)[localWorkerId]?.map Prod.snd := by
    rw [getElem?_map, Option.map_map]
    rfl
  rw [epochs, epochs, same]

section

variable (sound : manager.config.Sound)

include sound

theorem surveyed_heard (operation : Operation) :
    ∃ packet, manager.config.Heard packet (manager.surveyed operation) := by
  cases operation with
  | mergeGossip clock packet => exact ⟨packet, processPacket_heard _ _ packet sound⟩
  | _ => exact ⟨claimOf 0 [], .start sound⟩

theorem surveyed_headroom (room : manager.HasRoom operation)
    (bumps : manager.Bumps operation) : (manager.surveyed operation).Headroom := by
  cases operation with
  | mergeGossip clock packet =>
    have heard := processPacket_heard manager.gossip clock packet sound
    have collides := (resolveEpochCollision_eq_true_iff _ _ _).mp bumps
    obtain ⟨headroom, bounded⟩ := room (heard.collides collides)
    exact heard.headroom headroom bounded
  | removeSlots | prepareSlotForOwnershipChange | failover | replicaofNoOne | bumpClusterEpoch =>
    exact room rfl
  | _ => exact bumps.elim

theorem apply_of_bumps (bumps : manager.Bumps operation) :
    (manager.apply operation).config.localNodeConfigEpoch =
      (manager.surveyed operation).getMaxConfigEpoch + 1 := by
  cases operation with
  | removeSlots slots =>
    obtain ⟨count, answered⟩ := bumps
    unfold apply
    unfold tryRemoveSlots at answered ⊢
    dsimp only at answered ⊢
    split_ifs at answered ⊢ with unmanned
    · cases answered
    · split at answered
      · cases answered
      · exact localNodeConfigEpoch_modifyLocal sound.manned fun _ => rfl
  | prepareSlotForOwnershipChange slot owner =>
    obtain ⟨⟨index, rfl, importing⟩, answered⟩ := bumps
    unfold apply
    unfold tryPrepareSlotForOwnershipChange onSlot at answered ⊢
    dsimp only at answered ⊢
    rw [dif_pos index.isLt] at answered ⊢
    split_ifs at answered ⊢ with unknown
    · cases answered
    · rw [importing] at answered ⊢
      dsimp only at answered ⊢
      split at answered
      · cases answered
      · exact localNodeConfigEpoch_modifyLocal sound.manned fun _ => rfl
  | failover =>
    obtain ⟨epoch, answered⟩ := bumps
    unfold apply
    unfold tryFailover at answered ⊢
    dsimp only at answered ⊢
    split_ifs at answered ⊢ with unmanned
    · cases answered
    · split at answered
      · cases answered
      · exact localNodeConfigEpoch_modifyLocal sound.manned fun _ => rfl
  | replicaofNoOne =>
    have replica : manager.config.localNodeRole = .replica := bumps
    unfold apply tryReplicaofNoOne
    rw [if_neg (not_not.mpr replica)]
    exact localNodeConfigEpoch_modifyLocal sound.manned fun _ => rfl
  | bumpClusterEpoch =>
    exact localNodeConfigEpoch_modifyLocal sound.manned fun _ => rfl
  | mergeGossip clock packet =>
    have manned := (processPacket_heard manager.gossip clock packet sound).sound.manned
    have collides := (resolveEpochCollision_eq_true_iff _ _ _).mp bumps
    unfold apply tryMergeGossip resolveEpochCollision
    dsimp only
    rw [if_pos collides]
    exact localNodeConfigEpoch_modifyLocal manned fun _ => rfl
  | _ => exact bumps.elim

theorem apply_localNodeConfigEpoch
    (room : manager.HasRoom operation) : manager.config.localNodeConfigEpoch ≤
      (manager.apply operation).config.localNodeConfigEpoch := by
  have workers := (apply_follows sound operation).workers
  generalize after : (manager.apply operation).config = config at workers ⊢
  obtain ⟨slotMap, table⟩ := config
  dsimp only at workers
  have modified : ∀ index change, (∀ worker, (change worker).configEpoch = worker.configEpoch) →
      manager.config.localNodeConfigEpoch ≤
        localNodeConfigEpoch ⟨slotMap, manager.config.workers.modify index change⟩ := by
    intro index change keeps
    refine localNodeConfigEpoch_congr ?_
    rw [← getElem?_map, ← getElem?_map]
    exact congrArg (·[localWorkerId]?) (map_modify_of_keeps _ _ _ keeps)
  cases workers with
  | edited same => exact localNodeConfigEpoch_congr (configEpoch_of_identity same)
  | raised raises change placed epoch =>
    have headroom : manager.config.Headroom := by
      cases operation <;> first | exact room rfl | cases raises
    have raised : localNodeConfigEpoch
        ⟨slotMap, manager.config.workers.modify localWorkerId change⟩ =
          manager.config.getMaxConfigEpoch + 1 :=
      localNodeConfigEpoch_modifyLocal sound.manned epoch
    rw [raised]
    exact Int64.le_of_lt (localNodeConfigEpoch_lt_raised sound.manned headroom)
  | moved index change renamed epoch => exact modified index change epoch
  | named position unknown => exact modified _ _ fun _ => rfl
  | added worker name unknown =>
    refine localNodeConfigEpoch_congr (congrArg (Option.map configEpoch) ?_)
    exact getElem?_append_left sound.manned
  | removed index behind =>
    refine localNodeConfigEpoch_congr (congrArg (Option.map configEpoch) ?_)
    exact getElem?_eraseIdx_of_lt behind
  | started alone unset positive =>
    rename_i epoch
    have raised : localNodeConfigEpoch
        ⟨slotMap, (manager.config.setLocalEpoch epoch).workers⟩ = epoch :=
      localNodeConfigEpoch_modifyLocal sound.manned fun _ => rfl
    rw [raised, unset]
    exact Int64.le_of_lt (Int64.not_le.mp positive)
  | heard =>
    rename_i clock packet
    have heard := processPacket_heard manager.gossip clock packet sound
    by_cases bumps : manager.Bumps (.mergeGossip clock packet)
    · have headroom := surveyed_headroom sound room bumps
      have raised := apply_of_bumps sound bumps
      rw [after] at raised
      rw [raised, ← heard.localNodeConfigEpoch]
      exact Int64.le_of_lt (localNodeConfigEpoch_lt_raised heard.sound.manned headroom)
    · have quiet := mt (resolveEpochCollision_eq_true_iff _ _ _).mpr bumps
      refine localNodeConfigEpoch_congr (congrArg (Option.map configEpoch) ?_)
      unfold resolveEpochCollision
      rw [if_neg quiet]
      exact heard.localWorker

theorem apply_advances (room : manager.HasRoom operation) : manager.Advances operation := by
  refine ⟨apply_localNodeConfigEpoch sound room, fun bumps worker member => ?_⟩
  obtain ⟨packet, heard⟩ := manager.surveyed_heard sound operation
  have below := lt_raised heard.sound.manned (surveyed_headroom sound room bumps)
  rw [apply_of_bumps sound bumps]
  rcases mem_append.mp member with before | merged
  · obtain ⟨later, inside, le⟩ := heard.grown worker before
    exact Int64.lt_of_le_of_lt le (below later inside)
  · exact below worker merged

end

/-- In a history with room the epoch never decreases, and one that is raised is greater than all
known before. -/
theorem history_advances (worker : Worker) (operations : List Operation)
    (room : Throughout HasRoom (initialised worker) operations) :
    Throughout Advances (initialised worker) operations := by
  have sound := initialised_sound worker
  generalize initialised worker = manager at room sound
  induction operations generalizing manager with
  | nil => trivial
  | cons operation rest ih =>
    exact ⟨apply_advances sound room.1, ih _ room.2 (apply_sound sound operation)⟩

/-- A node that raises its epoch, hears a greater one and raises its own again. -/
def succession : List Operation :=
  [.bumpClusterEpoch, .mergeGossip (fun _ => 0) (claimOf 7 [1]), .bumpClusterEpoch]

theorem history_advances_succession :
    Throughout HasRoom (initialised (primaryOf [97] 1)) succession ∧
      Throughout Advances (initialised (primaryOf [97] 1)) succession := by
  have room : Throughout HasRoom (initialised (primaryOf [97] 1)) succession := by
    refine ⟨fun _ => ?_, fun collides => absurd collides (by decide +kernel), fun _ => ?_, trivial⟩
    · unfold ClusterConfig.Headroom
      decide +kernel
    · unfold ClusterConfig.Headroom
      decide +kernel
  exact ⟨room, history_advances (primaryOf [97] 1) succession room⟩

/-- A packet with the greatest machine integer as its epoch makes the next raise wrap. -/
theorem raise_wraps :
    let heard := (initialised (primaryOf [97] 1)).apply
      (.mergeGossip (fun _ => 0) (claimOf Int64.maxValue []))
    heard.config.localNodeConfigEpoch = 1 ∧
      (heard.apply .bumpClusterEpoch).config.localNodeConfigEpoch = Int64.minValue := by
  decide +kernel

end ClusterManager

end Wedb.Cluster
