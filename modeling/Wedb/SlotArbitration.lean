/-
What a gossip packet does to the slot map. A claimed slot is arbitrated by the epoch of the worker
recorded in it, which is the owner except while the slot is migrating.
-/

import Wedb.ClusterManager

namespace Wedb.Cluster

open ClusterConfig

namespace ClusterConfig

variable {config : ClusterConfig} {senderId : Bytes} {senderEpoch : Int64}
  {senderSlots migratingSlots : List Nat} {slot : Fin totalHashSlots}

def Wins (config : ClusterConfig) (senderEpoch : Int64) (current : HashSlot) : Prop :=
  ¬(senderEpoch ≠ 0 ∧ senderEpoch ≤ config.workerEpoch current.workerId)

instance (current : HashSlot) : Decidable (config.Wins senderEpoch current) :=
  inferInstanceAs (Decidable (¬_))

theorem wins_iff (positive : 0 < senderEpoch) (current : HashSlot) :
    config.Wins senderEpoch current ↔ config.workerEpoch current.workerId < senderEpoch := by
  have nonzero : senderEpoch ≠ 0 := by
    rintro rfl
    exact absurd positive (by decide)
  unfold Wins
  rw [Int64.lt_iff_toInt_lt, Int64.le_iff_toInt_le, not_and, not_le]
  exact ⟨fun wins => wins nonzero, fun less _ => less⟩

theorem claimSlot_apply (senderWid claimed : Nat) (found : Bool × (Fin totalHashSlots → HashSlot)) :
    (config.claimSlot senderWid senderEpoch found claimed).2 slot =
      if slot.val = claimed ∧ config.Wins senderEpoch (found.2 slot) then ⟨senderWid, .stable⟩
      else found.2 slot := by
  unfold claimSlot
  by_cases inRange : claimed < totalHashSlots
  · rw [dif_pos inRange]
    by_cases same : slot.val = claimed
    · have index : (⟨claimed, inRange⟩ : Fin totalHashSlots) = slot := Fin.ext same.symm
      dsimp only
      rw [index]
      split_ifs with lost claim other <;> simp_all [Wins]
    · have index : slot ≠ ⟨claimed, inRange⟩ := fun equal => same (congrArg Fin.val equal)
      have other : ¬(slot.val = claimed ∧ config.Wins senderEpoch (found.2 slot)) :=
        fun both => same both.1
      dsimp only
      rw [if_neg other]
      split_ifs
      · rfl
      · exact Function.update_of_ne index _ _
      · rfl
  · have other : ¬(slot.val = claimed ∧ config.Wins senderEpoch (found.2 slot)) :=
      fun both => inRange (both.1 ▸ slot.isLt)
    rw [dif_neg inRange, if_neg other]

theorem foldl_claimSlot_apply (senderWid : Nat) (claims : List Nat)
    (found : Bool × (Fin totalHashSlots → HashSlot)) :
    (claims.foldl (config.claimSlot senderWid senderEpoch) found).2 slot =
      if slot.val ∈ claims ∧ config.Wins senderEpoch (found.2 slot) then ⟨senderWid, .stable⟩
      else found.2 slot := by
  induction claims generalizing found with
  | nil => simp
  | cons claimed rest ih =>
    rw [List.foldl_cons, ih, claimSlot_apply]
    by_cases first : slot.val = claimed ∧ config.Wins senderEpoch (found.2 slot)
    · rw [if_pos first, ite_self, if_pos ⟨first.1 ▸ List.mem_cons_self, first.2⟩]
    · rw [if_neg first]
      refine if_congr ?_ rfl rfl
      rw [List.mem_cons]
      tauto

theorem mergeSenderSlots_of_unknown
    (unknown : senderId = [] ∨ config.getWorkerIdFromNodeId senderId = 0) :
    config.mergeSenderSlots senderId senderEpoch senderSlots migratingSlots = (false, config) :=
  if_pos unknown

theorem mergeSenderSlots_slotMap (named : senderId ≠ [])
    (known : config.getWorkerIdFromNodeId senderId ≠ 0) :
    (config.mergeSenderSlots senderId senderEpoch senderSlots migratingSlots).2.slotMap slot =
      if slot.val ∈ senderSlots ∧ config.Wins senderEpoch (config.slotMap slot) then
        ⟨asU16 (config.getWorkerIdFromNodeId senderId), .stable⟩
      else if abandoned (asU16 (config.getWorkerIdFromNodeId senderId))
          (senderSlots ++ migratingSlots) slot (config.slotMap slot) then .offline
      else config.slotMap slot := by
  unfold mergeSenderSlots
  rw [if_neg (not_or.mpr ⟨named, known⟩)]
  simp only [foldl_claimSlot_apply]
  by_cases claim : slot.val ∈ senderSlots ∧ config.Wins senderEpoch (config.slotMap slot)
  · simp [abandoned, claim.1]
  · simp only [if_neg claim]

theorem abandoned_eq_false_of_mem (senderWid : Nat) (current : HashSlot)
    (claimed : slot.val ∈ senderSlots) :
    abandoned senderWid (senderSlots ++ migratingSlots) slot current = false := by
  simp [abandoned, claimed]

def ownerEpoch (config : ClusterConfig) (current : HashSlot) : Int64 :=
  if current.effectiveWorkerId = 0 then 0 else config.workerEpoch current.effectiveWorkerId

def Settles (config : ClusterConfig) (senderId : Bytes) (senderEpoch : Int64)
    (current : HashSlot) : Prop :=
  (senderId = [] → config.ownerEpoch current < senderEpoch →
      current = ⟨config.getWorkerIdFromNodeId senderId, .stable⟩) ∧
    (senderId ≠ [] →
      (config.workerEpoch current.workerId < senderEpoch ↔
          config.ownerEpoch current < senderEpoch) ∧
        (config.ownerEpoch current < senderEpoch →
          config.getWorkerIdFromNodeId senderId < 2 ^ 16))

instance (current : HashSlot) : Decidable (config.Settles senderId senderEpoch current) :=
  inferInstanceAs (Decidable (_ ∧ _))

theorem ownerEpoch_stable (index : Nat) :
    config.ownerEpoch ⟨index, .stable⟩ = if index = 0 then 0 else config.workerEpoch index :=
  rfl

theorem asU16_eq_self_iff (index : Nat) : asU16 index = index ↔ index < 2 ^ 16 :=
  ⟨fun same => same ▸ Nat.mod_lt index (by decide), Nat.mod_eq_of_lt⟩

theorem ne_of_wins {index : Nat} {current : HashSlot} (positive : 0 < senderEpoch)
    (wins : config.workerEpoch current.workerId < senderEpoch)
    (owned : senderEpoch ≤ config.ownerEpoch current) :
    (⟨index, .stable⟩ : HashSlot) ≠ current := by
  rintro rfl
  rw [ownerEpoch_stable] at owned
  dsimp only at wins
  rw [Int64.lt_iff_toInt_lt] at wins positive
  split_ifs at owned with unassigned <;> rw [Int64.le_iff_toInt_le] at owned <;> omega

theorem ne_of_loses {index : Nat} {current : HashSlot} (known : index ≠ 0)
    (loses : ¬config.workerEpoch current.workerId < senderEpoch)
    (beats : config.ownerEpoch current < senderEpoch) : current ≠ ⟨index, .stable⟩ := by
  rintro rfl
  rw [ownerEpoch_stable, if_neg known] at beats
  exact loses beats

/-- A claimed slot goes to the sender if its effective owner has a smaller epoch, and else stays,
exactly if the claim settles. -/
theorem mergeSenderSlots_arbitrates_iff (config : ClusterConfig) (senderId : Bytes)
    (senderEpoch : Int64) (senderSlots migratingSlots : List Nat) (slot : Fin totalHashSlots)
    (known : config.getWorkerIdFromNodeId senderId ≠ 0) (positive : 0 < senderEpoch)
    (claimed : slot.val ∈ senderSlots) :
    let before := config.slotMap slot
    let after := (config.mergeSenderSlots senderId senderEpoch senderSlots
      migratingSlots).2.slotMap slot
    ((config.ownerEpoch before < senderEpoch →
        after = ⟨config.getWorkerIdFromNodeId senderId, .stable⟩) ∧
      (senderEpoch ≤ config.ownerEpoch before → after = before)) ↔
      config.Settles senderId senderEpoch before := by
  unfold Settles
  by_cases named : senderId = []
  · rw [mergeSenderSlots_of_unknown (.inl named)]
    simp [named]
  · have beaten : ¬config.ownerEpoch (config.slotMap slot) < senderEpoch ↔
        senderEpoch ≤ config.ownerEpoch (config.slotMap slot) := by
      rw [Int64.lt_iff_toInt_lt, Int64.le_iff_toInt_le, not_lt]
    rw [mergeSenderSlots_slotMap named known, abandoned_eq_false_of_mem _ _ claimed]
    simp only [claimed, true_and, wins_iff positive, Bool.false_eq_true, if_false, named,
      false_implies, ne_eq, not_false_eq_true, true_implies]
    by_cases wins : config.workerEpoch (config.slotMap slot).workerId < senderEpoch
    · rw [if_pos wins]
      by_cases beats : config.ownerEpoch (config.slotMap slot) < senderEpoch
      · have unowned : ¬senderEpoch ≤ config.ownerEpoch (config.slotMap slot) :=
          fun owned => beaten.mpr owned beats
        simp [wins, beats, unowned, asU16_eq_self_iff]
      · have owned := beaten.mp beats
        simp [wins, beats, owned, ne_of_wins positive wins owned]
    · rw [if_neg wins]
      by_cases beats : config.ownerEpoch (config.slotMap slot) < senderEpoch
      · simp [wins, beats, ne_of_loses known wins beats]
      · simp [wins, beats]

def pair (localEpoch remoteEpoch : Int64) (slot : HashSlot) : ClusterConfig where
  slotMap index := if index.val = 0 then slot else .offline
  workers := [.unassigned,
    { Worker.unassigned with nodeId := some [97], role := .primary, configEpoch := localEpoch },
    { Worker.unassigned with nodeId := some [98], role := .primary, configEpoch := remoteEpoch }]

theorem mergeSenderSlots_arbitrates_stable :
    let config := pair 1 2 ⟨1, .stable⟩
    let after := (config.mergeSenderSlots [98] 2 [0] []).2.slotMap ⟨0, by decide⟩
    config.ownerEpoch ⟨1, .stable⟩ = 1 ∧ (config.ownerEpoch ⟨1, .stable⟩ < 2 →
      after = ⟨2, .stable⟩) :=
  ⟨by decide, ((mergeSenderSlots_arbitrates_iff (pair 1 2 ⟨1, .stable⟩) [98] 2 [0] []
    ⟨0, by decide⟩ (by decide) (by decide) (by decide)).mpr (by decide)).1⟩

/-- A slot on its way to a node stays so when that node claims it with a greater epoch. -/
theorem claim_of_target_refused :
    let config := pair 1 2 ⟨2, .migrating⟩
    config.ownerEpoch ⟨2, .migrating⟩ < 2 ∧
      (config.mergeSenderSlots [98] 2 [0] []).2.slotMap ⟨0, by decide⟩ = ⟨2, .migrating⟩ := by
  decide +kernel

theorem mergeWorkerRef_cases (config : ClusterConfig) (info : WorkerMeta) (confirm : Bool) :
    (config.mergeWorkerRef info confirm).2 = config ∨
      (∃ newId, info.nodeId = some newId ∧ config.exactIndex newId = none ∧
        (config.mergeWorkerRef info confirm).2 =
          { config with workers := config.workers ++ [info.record newId !confirm] }) ∨
      ∃ newId index stored, info.nodeId = some newId ∧ config.exactIndex newId = some index ∧
        config.workers[index]? = some stored ∧ info.accepted confirm stored ∧
        (config.mergeWorkerRef info confirm).2 =
          { config with workers := config.workers.set index (info.overwrite stored) } := by
  unfold mergeWorkerRef
  split
  · exact .inl rfl
  · rename_i newId filtered
    have named := (Option.filter_eq_some_iff.mp filtered).1
    split
    · rename_i missing
      exact .inr (.inl ⟨newId, named, missing, rfl⟩)
    · rename_i index found
      split
      · exact .inl rfl
      · rename_i stored located
        split_ifs with accepted
        · exact .inr (.inr ⟨newId, index, stored, named, found, located, accepted, rfl⟩)
        · exact .inl rfl

theorem mergeWorkerRef_slotMap (config : ClusterConfig) (info : WorkerMeta) (confirm : Bool) :
    (config.mergeWorkerRef info confirm).2.slotMap = config.slotMap := by
  rcases config.mergeWorkerRef_cases info confirm with
    same | ⟨_, _, _, appended⟩ | ⟨_, _, _, _, _, _, _, overwritten⟩
  · rw [same]
  · rw [appended]
  · rw [overwritten]

end ClusterConfig

theorem Merge.takeSection_slotMap (senderId : Bytes) (state : Merge)
    (item : GossipNodeSection × Nat) :
    (state.takeSection senderId item).config.slotMap = state.config.slotMap := by
  unfold takeSection
  dsimp only
  split_ifs
  · rfl
  · rfl
  · exact state.config.mergeWorkerRef_slotMap _ _

theorem Merge.foldl_takeSection_slotMap (senderId : Bytes)
    (items : List (GossipNodeSection × Nat)) (state : Merge) :
    (items.foldl (Merge.takeSection senderId) state).config.slotMap = state.config.slotMap := by
  induction items generalizing state with
  | nil => rfl
  | cons item rest ih =>
    rw [List.foldl_cons, ih, takeSection_slotMap]

/-- A packet that is not looked at: its sender is nameless, banned, or the node itself. -/
def GossipTracker.Ignores (tracker : GossipTracker) (now : Nat) (config : ClusterConfig)
    (packet : GossipPacket) : Prop :=
  packet.header.senderId = [] ∨ (tracker.isBanned packet.header.senderId now).1 = true ∨
    config.localNodeId = some packet.header.senderId

instance (tracker : GossipTracker) (now : Nat) (config : ClusterConfig) (packet : GossipPacket) :
    Decidable (tracker.Ignores now config packet) :=
  inferInstanceAs (Decidable (_ ∨ _))

variable {tracker : GossipTracker} {clock : Nat → Nat} {config : ClusterConfig}
  {packet : GossipPacket}

theorem processPacket_of_ignored (ignored : tracker.Ignores (clock 0) config packet) :
    (tracker.processPacket clock config packet).config = config ∧
      (tracker.processPacket clock config packet).changed = false := by
  unfold GossipTracker.processPacket
  dsimp only
  rcases ignored with unnamed | refused
  · rw [if_pos unnamed]
    exact ⟨rfl, rfl⟩
  · split_ifs
    · exact ⟨rfl, rfl⟩
    · exact ⟨rfl, rfl⟩

theorem processPacket_slotMap (heard : ¬tracker.Ignores (clock 0) config packet)
    (primary : packet.header.senderRole = .primary) :
    (tracker.processPacket clock config packet).config.slotMap =
      ((config.mergeWorkerRef packet.header.toMeta true).2.mergeSenderSlots
        packet.header.senderId packet.header.configEpoch packet.header.assignedSlots
        packet.header.migratingSlots).2.slotMap := by
  obtain ⟨named, unbanned, foreign⟩ := not_or.mp heard |>.imp_right not_or.mp
  unfold GossipTracker.processPacket
  dsimp only
  rw [if_neg named, if_neg (not_or.mpr ⟨unbanned, foreign⟩), Merge.foldl_takeSection_slotMap]
  unfold Merge.takeSender
  dsimp only
  rw [if_pos primary]

/-- A packet leaves every slot alone: it is ignored, its sender is unknown, or it wins
only slots the sender has and names all of those. -/
def GossipTracker.Spares (tracker : GossipTracker) (now : Nat) (config : ClusterConfig)
    (packet : GossipPacket) : Prop :=
  let known := (config.mergeWorkerRef packet.header.toMeta true).2
  let index := known.getWorkerIdFromNodeId packet.header.senderId
  tracker.Ignores now config packet ∨ index = 0 ∨
    (∀ slot : Fin totalHashSlots, slot.val ∈ packet.header.assignedSlots →
      known.workerEpoch (config.slotMap slot).workerId < packet.header.configEpoch →
        config.slotMap slot = ⟨asU16 index, .stable⟩) ∧
    ∀ slot : Fin totalHashSlots, (config.slotMap slot).workerId = asU16 index →
      (config.slotMap slot).state = .stable ∨ (config.slotMap slot).state = .importing →
        slot.val ∈ packet.header.assignedSlots ∨ slot.val ∈ packet.header.migratingSlots

variable {slot : Fin totalHashSlots} {current : HashSlot}

theorem abandoned_iff {senderWid : Nat} {claimed : List Nat} :
    abandoned senderWid claimed slot current ↔
      current.workerId = senderWid ∧ (current.state = .stable ∨ current.state = .importing) ∧
        slot.val ∉ claimed := by
  simp [abandoned, and_assoc]

theorem claimed_slot_eq_iff {senderWid : Nat} {assigned migrating : List Nat} {wins : Prop}
    [Decidable wins] :
    (if slot.val ∈ assigned ∧ wins then ⟨senderWid, .stable⟩
      else if abandoned senderWid (assigned ++ migrating) slot current then .offline
      else current) = current ↔
      (slot.val ∈ assigned → wins → current = ⟨senderWid, .stable⟩) ∧
        (current.workerId = senderWid → current.state = .stable ∨ current.state = .importing →
          slot.val ∈ assigned ∨ slot.val ∈ migrating) := by
  by_cases claim : slot.val ∈ assigned ∧ wins
  · rw [if_pos claim]
    refine ⟨fun same => ⟨fun _ _ => same.symm, fun _ _ => .inl claim.1⟩, fun held => ?_⟩
    exact (held.1 claim.1 claim.2).symm
  · rw [if_neg claim]
    by_cases gone : abandoned senderWid (assigned ++ migrating) slot current
    · obtain ⟨owner, state, unclaimed⟩ := abandoned_iff.mp gone
      rw [if_pos gone]
      refine iff_of_false ?_ fun held => unclaimed (List.mem_append.mpr (held.2 owner state))
      rintro rfl
      rcases state with stable | importing
      · cases stable
      · cases importing
    · rw [if_neg gone]
      refine iff_of_true rfl ⟨fun member won => (claim ⟨member, won⟩).elim, ?_⟩
      intro owner state
      by_contra unclaimed
      rw [← List.mem_append] at unclaimed
      exact gone (abandoned_iff.mpr ⟨owner, state, unclaimed⟩)

/-- A packet leaves the slot map exactly if it spares it; with another in front, this is their
reordering. -/
theorem late_packet_harmless_iff (tracker : GossipTracker) (clock lateClock : Nat → Nat)
    (config : ClusterConfig) (newer late : GossipPacket)
    (primary : late.header.senderRole = .primary) (positive : 0 < late.header.configEpoch) :
    let first := tracker.processPacket clock config newer
    (first.tracker.processPacket lateClock first.config late).config.slotMap =
        first.config.slotMap ↔
      first.tracker.Spares (lateClock 0) first.config late := by
  intro first
  generalize first.tracker = tracker, first.config = config
  unfold GossipTracker.Spares
  by_cases ignored : tracker.Ignores (lateClock 0) config late
  · rw [(processPacket_of_ignored ignored).1]
    exact iff_of_true rfl (.inl ignored)
  have named : late.header.senderId ≠ [] := fun unnamed => ignored (.inl unnamed)
  rw [processPacket_slotMap ignored primary, or_iff_right ignored]
  have kept := config.mergeWorkerRef_slotMap late.header.toMeta true
  by_cases known : (config.mergeWorkerRef late.header.toMeta true).2.getWorkerIdFromNodeId
      late.header.senderId = 0
  · rw [ClusterConfig.mergeSenderSlots_of_unknown (.inr known), kept]
    exact iff_of_true rfl (.inl known)
  rw [or_iff_right known, funext_iff, ← forall_and]
  refine forall_congr' fun slot => ?_
  rw [ClusterConfig.mergeSenderSlots_slotMap named known, kept, claimed_slot_eq_iff,
    ClusterConfig.wins_iff positive]

def claimOf (epoch : Int64) (slots : List Nat) : GossipPacket where
  header :=
    { senderId := [98], senderAddr := bytesOf "unassigned", senderPort := 0,
      senderRole := .primary, configEpoch := epoch, assignedSlots := slots, migratingSlots := [],
      replicaOf := none, hostname := none }
  sections := []

/-- A late packet with the same claims, behind a newer one. -/
theorem late_packet_harmless_same_claims :
    let first := GossipTracker.new.processPacket (fun _ => 0) (.pair 1 1 .offline) (claimOf 2 [0])
    (first.tracker.processPacket (fun _ => 0) first.config (claimOf 1 [0])).config.slotMap =
      first.config.slotMap := by
  refine (late_packet_harmless_iff .new (fun _ => 0) (fun _ => 0) (.pair 1 1 .offline)
    (claimOf 2 [0]) (claimOf 1 [0]) rfl (by decide)).mpr ?_
  have claimed slot : (GossipTracker.new.processPacket (fun _ => 0)
      (.pair 1 1 .offline) (claimOf 2 [0])).config.slotMap slot =
        if slot.val = 0 then ⟨2, .stable⟩ else .offline := by
    rw [processPacket_slotMap (by decide) rfl, ClusterConfig.mergeSenderSlots_slotMap (by decide)
      (by decide), ClusterConfig.mergeWorkerRef_slotMap]
    by_cases zero : slot.val = 0
    · have first : slot = ⟨0, by decide⟩ := Fin.ext zero
      rw [first]
      decide +kernel
    · simp [claimOf, ClusterConfig.pair, ClusterConfig.abandoned, zero, HashSlot.offline]
  refine .inr (.inr ⟨fun slot member _ => ?_, fun slot owner _ => .inl ?_⟩)
  · rw [claimed, if_pos (List.mem_singleton.mp member)]
    decide +kernel
  · rw [claimed] at owner
    by_contra other
    have nonzero : slot.val ≠ 0 := fun zero => other (List.mem_singleton.mpr zero)
    rw [if_neg nonzero] at owner
    exact absurd owner (by decide +kernel)

/-- A late packet takes a free slot, and gives up the one the newer packet has claimed. -/
theorem late_packet_changes_slots :
    let first := GossipTracker.new.processPacket (fun _ => 0) (.pair 1 1 .offline) (claimOf 2 [0])
    let second := first.tracker.processPacket (fun _ => 0) first.config (claimOf 1 [1])
    first.config.slotMap ⟨0, by decide⟩ = ⟨2, .stable⟩ ∧
      first.config.slotMap ⟨1, by decide⟩ = .offline ∧
      second.config.slotMap ⟨0, by decide⟩ = .offline ∧
      second.config.slotMap ⟨1, by decide⟩ = ⟨2, .stable⟩ := by
  decide +kernel

end Wedb.Cluster
