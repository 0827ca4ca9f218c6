/-
Bans. FORGET takes a node out of the table and bans its id for a while. The ban is looked up as the
id was spelled, while nodes are found up to case, and a packet of a banned sender still counts when
epochs collide.
-/

import Wedb.ClusterEpochs

namespace Wedb.Cluster

open ClusterConfig List

/-! ### The packet of a banned sender -/

/-- A packet of a banned or nameless sender is refused without a change exactly if the epochs do not
collide. -/
theorem tryMergeGossip_refused_iff (manager : ClusterManager) (clock : Nat → Nat)
    (packet : GossipPacket)
    (refused : packet.header.senderId = [] ∨ ∃ expiry,
      manager.gossip.banList packet.header.senderId = some expiry ∧ clock 0 < expiry) :
    ((manager.tryMergeGossip clock packet).1 = false ∧
        (manager.tryMergeGossip clock packet).2.config = manager.config) ↔
      ¬manager.config.Collides packet.header.senderId packet.header.configEpoch := by
  have ignored : manager.gossip.Ignores (clock 0) manager.config packet := by
    refine refused.imp_right fun banned => .inl ?_
    obtain ⟨expiry, listed, future⟩ := banned
    simp [GossipTracker.isBanned, listed, future]
  obtain ⟨same, unchanged⟩ := processPacket_of_ignored ignored
  unfold ClusterManager.tryMergeGossip ClusterConfig.resolveEpochCollision
  dsimp only
  rw [same, unchanged]
  by_cases collides : manager.config.Collides packet.header.senderId packet.header.configEpoch
  · simp [collides]
  · simp [collides]

def banning (localEpoch remoteEpoch : Int64) : ClusterManager where
  config := .pair localEpoch remoteEpoch .offline
  gossip := GossipTracker.new.ban [98] 60 0

theorem tryMergeGossip_refused_other_epoch :
    ((banning 1 1).tryMergeGossip (fun _ => 1) (claimOf 2 [0])).1 = false ∧
      ((banning 1 1).tryMergeGossip (fun _ => 1) (claimOf 2 [0])).2.config = (banning 1 1).config :=
  (tryMergeGossip_refused_iff (banning 1 1) (fun _ => 1) (claimOf 2 [0])
    (.inr ⟨60, by decide, by decide⟩)).mpr (by decide)

/-- A banned sender of the same epoch still makes the node raise its own. -/
theorem banned_sender_raises_epoch :
    let after := (banning 1 1).tryMergeGossip (fun _ => 1) (claimOf 1 [])
    (GossipTracker.isBanned (banning 1 1).gossip [98] 1).1 = true ∧ after.1 = true ∧
      after.2.config.localNodeConfigEpoch = 2 := by
  decide +kernel

/-! ### A forgotten node -/

namespace ClusterManager

theorem tryRemoveWorker_cases (manager : ClusterManager) (nodeId : Bytes)
    (expirySeconds now : Nat) :
    let index := manager.config.getWorkerIdFromNodeId nodeId
    let outcome := manager.tryRemoveWorker nodeId expirySeconds now
    outcome.1 ≠ .ok () ∧ outcome.2 = manager ∨
      1 < index ∧ outcome.2.config.workers = manager.config.workers.eraseIdx index ∧
        outcome.2.gossip = manager.gossip.ban nodeId expirySeconds now := by
  have foreign : ¬manager.namesLocal nodeId → manager.config.getWorkerIdFromNodeId nodeId ≠ 1 :=
    fun own atLocal => own (namesLocal_of_found atLocal)
  unfold tryRemoveWorker removeWorker
  grind [refuse]

end ClusterManager

structure Away (nodeId : Bytes) (expiry : Nat) (tracker : GossipTracker) (config : ClusterConfig) :
    Prop where
  banned : tracker.banList nodeId = some expiry
  manned : 2 ≤ config.workers.length
  absent : ∀ name, some name ∈ config.names → eqIgnoreAsciiCase name nodeId = false

variable {nodeId : Bytes} {expiry now : Nat} {tracker : GossipTracker}
  {config : ClusterConfig}

section

variable (away : Away nodeId expiry tracker config)

include away

theorem Away.foreign (early : now < expiry) {other : Bytes}
    (spelled : eqIgnoreAsciiCase other nodeId → other = nodeId)
    (free : ¬(tracker.isBanned other now).1) : eqIgnoreAsciiCase other nodeId = false := by
  by_contra close
  obtain rfl := spelled (Bool.not_eq_false _ ▸ close)
  rw [GossipTracker.isBanned, away.banned] at free
  exact free (congrArg Prod.fst (if_pos early))

theorem Away.ask (early : now < expiry) (other : Bytes) :
    Away nodeId expiry (tracker.isBanned other now).2 config := by
  refine ⟨?_, away.manned, away.absent⟩
  unfold GossipTracker.isBanned
  split
  · rename_i found listed
    split_ifs with lasts
    · exact away.banned
    · obtain rfl | same := eq_or_ne nodeId other
      · exact absurd (Option.some.inj (away.banned.symm.trans listed) ▸ early) lasts
      · exact (Function.update_of_ne same _ _).trans away.banned
  · exact away.banned

theorem Away.change {after : ClusterConfig}
    (names : after.names = config.names ∨ ∃ name, eqIgnoreAsciiCase name nodeId = false ∧
      after.names = config.names ++ [some name]) : Away nodeId expiry tracker after := by
  have grown : config.names <+: after.names := by
    rcases names with same | ⟨name, -, more⟩
    · exact same ▸ prefix_rfl
    · exact more ▸ prefix_append _ _
  refine ⟨away.banned, ?_, fun name listed => ?_⟩
  · have longer := grown.length_le
    have manned := away.manned
    simp only [ClusterConfig.names, length_map, length_drop] at longer
    omega
  · rcases names with same | ⟨new, foreign, more⟩
    · exact away.absent name (same ▸ listed)
    · rw [more, mem_append, mem_singleton, Option.some_inj] at listed
      exact listed.elim (away.absent name) (· ▸ foreign)

theorem Away.mergeWorkerRef (info : WorkerMeta)
    (foreign : ∀ name ∈ info.nodeId, eqIgnoreAsciiCase name nodeId = false) (confirm : Bool) :
    Away nodeId expiry tracker (config.mergeWorkerRef info confirm).2 :=
  away.change ((names_mergeWorkerRef away.manned info confirm).imp_right
    fun ⟨name, brought, _, grown⟩ => ⟨name, foreign name brought, grown⟩)

theorem Away.processPacket {clock : Nat → Nat} {packet : GossipPacket}
    (early : ∀ reading, clock reading < expiry)
    (spelled : ∀ name ∈ packet.names, eqIgnoreAsciiCase name nodeId → name = nodeId) :
    Away nodeId expiry (tracker.processPacket clock config packet).tracker
      (tracker.processPacket clock config packet).config := by
  refine processPacket_rec (fun state => Away nodeId expiry state.tracker state.config) away
    (away.ask (early 0) _) (fun admitted => ?_) fun state entry inside reading held => ?_
  · have foreign := away.foreign (early 0) (spelled _ mem_cons_self)
      fun banned => admitted (.inr (.inl banned))
    have recorded := (away.ask (early 0) packet.header.senderId).mergeWorkerRef
      packet.header.toMeta (fun _ sent => Option.some.inj sent ▸ foreign) true
    unfold Merge.takeSender
    split_ifs
    · exact recorded.change (.inl (names_mergeSenderSlots _ _ _ _))
    · exact recorded
  · unfold Merge.takeSection
    dsimp only
    split_ifs with skipped banned
    · exact held
    · exact held.ask (early reading) _
    · have foreign := held.foreign (early reading)
        (spelled _ (mem_cons_of_mem _ (mem_map_of_mem inside))) banned
      have recorded := (held.ask (early reading) entry.nodeId).mergeWorkerRef entry.toMeta
        (fun _ sent => Option.some.inj sent ▸ foreign) false
      refine ⟨?_, recorded.manned, recorded.absent⟩
      unfold GossipTracker.vote
      split_ifs <;> exact recorded.banned

end

namespace ClusterManager

def hearAll (manager : ClusterManager) (packets : List ((Nat → Nat) × GossipPacket)) :
    ClusterManager :=
  packets.foldl (fun manager heard => (manager.tryMergeGossip heard.1 heard.2).2) manager

/-- What FORGET relies on: no other worker goes by the id, the ban ends in a `u64`, and packets
spell the id as it did. -/
structure Effective (manager : ClusterManager) (nodeId : Bytes) (expirySeconds now : Nat)
    (packets : List ((Nat → Nat) × GossipPacket)) : Prop where
  only : ∀ index worker, manager.config.workers[index + 1]? = some worker →
    GoesBy nodeId worker → index + 1 = manager.config.getWorkerIdFromNodeId nodeId
  fits : now + expirySeconds < 2 ^ 64
  spelled : ∀ heard ∈ packets, ∀ name ∈ heard.2.names,
    eqIgnoreAsciiCase name nodeId = true → name = nodeId

theorem away_of_forgotten {manager after : ClusterManager} {nodeId : Bytes}
    {expirySeconds now : Nat} {packets : List ((Nat → Nat) × GossipPacket)}
    (effective : manager.Effective nodeId expirySeconds now packets)
    (forgotten : manager.tryRemoveWorker nodeId expirySeconds now = (.ok (), after)) :
    Away nodeId (now + expirySeconds) after.gossip after.config := by
  have cases := tryRemoveWorker_cases manager nodeId expirySeconds now
  rw [forgotten] at cases
  obtain ⟨behind, workers, gossip⟩ := cases.resolve_left fun kept => kept.1 rfl
  dsimp only at workers gossip
  refine ⟨?_, ?_, fun name listed => ?_⟩
  · have fits := Nat.mod_eq_of_lt effective.fits
    simp only [gossip, GossipTracker.ban, Function.update_self, fits]
  · have inside := getWorkerId_lt (Nat.ne_of_gt (Nat.zero_lt_of_lt behind))
    rw [workers, length_eraseIdx_of_lt inside]
    omega
  · obtain ⟨worker, member, named⟩ := mem_map.mp listed
    obtain ⟨index, located⟩ := mem_iff_getElem?.mp member
    rw [getElem?_drop, workers, getElem?_eraseIdx, Nat.add_comm] at located
    by_contra close
    have goesBy : GoesBy nodeId worker := ⟨name, named, Bool.not_eq_false _ ▸ close⟩
    split_ifs at located
    · have same := effective.only _ _ located goesBy
      omega
    · have same := effective.only _ _ located goesBy
      omega

/-- A forgotten node stays away from the workers while packets arrive before its ban ends. -/
theorem forgotten_stays_away {manager after : ClusterManager} {nodeId : Bytes}
    {expirySeconds now : Nat} {packets : List ((Nat → Nat) × GossipPacket)}
    (effective : manager.Effective nodeId expirySeconds now packets)
    (forgotten : manager.tryRemoveWorker nodeId expirySeconds now = (.ok (), after))
    (early : ∀ heard ∈ packets, ∀ reading, heard.1 reading < now + expirySeconds) :
    ∀ name, some name ∈ (after.hearAll packets).config.names →
      eqIgnoreAsciiCase name nodeId = false := by
  have kept : Away nodeId (now + expirySeconds) (after.hearAll packets).gossip
      (after.hearAll packets).config := by
    refine List.foldlRecOn (motive := fun state : ClusterManager =>
      Away nodeId (now + expirySeconds) state.gossip state.config) _ _
        (away_of_forgotten effective forgotten) fun state away heard member => ?_
    refine (away.processPacket (early heard member) (effective.spelled heard member)).change
      (.inl ?_)
    unfold tryMergeGossip resolveEpochCollision
    dsimp only
    split_ifs
    · exact names_setLocalEpoch _
    · rfl
  exact kept.absent

/-- The node `a`, which knows the node `b`. -/
def acquainted : ClusterManager where
  config := .pair 1 1 .offline
  gossip := .new

theorem forgotten_stays_away_exactly : (acquainted.tryRemoveWorker [98] 60 0).1 = .ok () ∧
      ∀ name, some name ∈ ((acquainted.tryRemoveWorker [98] 60 0).2.hearAll
        [(fun _ => 59, claimOf 2 [])]).config.names → eqIgnoreAsciiCase name [98] = false := by
  have effective : acquainted.Effective [98] 60 0 [(fun _ => 59, claimOf 2 [])] := by
    refine ⟨?_, by decide, by simp [GossipPacket.names, GossipPacket.considered, claimOf]⟩
    rintro (_ | _ | index) worker located ⟨name, named, close⟩
    · cases located
      cases named
      exact absurd close (by decide)
    · rfl
    · cases located
  exact ⟨rfl, forgotten_stays_away effective rfl (by simp)⟩

/-- Forgotten as `B`, the node comes back with its next packet. -/
theorem forgotten_comes_back : (acquainted.tryRemoveWorker [66] 60 0).1 = .ok () ∧
      some [98] ∉ (acquainted.tryRemoveWorker [66] 60 0).2.config.names ∧
      some [98] ∈ ((acquainted.tryRemoveWorker [66] 60 0).2.hearAll
        [(fun _ => 1, claimOf 2 [])]).config.names := by
  decide +kernel

end ClusterManager

end Wedb.Cluster
