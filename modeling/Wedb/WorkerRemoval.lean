/-
The slots when a worker is removed. The indices behind it move up by one; slots that were its own go
offline, and slots that were moving to it come back.

The index is cut to sixteen bits before it is compared with the workers of the slots. In a table of
more than 65536 entries the removal of a late worker is therefore carried out on the slots as if it
were that of an early one, and slots of workers that stay change hands. The main result says for
every slot exactly when it is served right.
-/

import Wedb.Gossip

namespace Wedb.Cluster

open ClusterConfig List

namespace ClusterConfig

/-- What the removal of the worker at `index` has to do to a slot. -/
structure SlotKept (config after : ClusterConfig) (index : Nat) (slot : Fin totalHashSlots) :
    Prop where
  owner : (config.slotMap slot).effectiveWorkerId ≠ index →
    after.getOwnerIdFromSlot slot = config.getOwnerIdFromSlot slot
  peer : (config.slotMap slot).effectiveWorkerId ≠ index → (config.slotMap slot).workerId ≠ index →
    (after.slotMap slot).state = (config.slotMap slot).state ∧
      after.getNodeIdFromSlot slot = config.getNodeIdFromSlot slot
  orphaned : (config.slotMap slot).effectiveWorkerId = index → after.slotMap slot = .offline
  returned : (config.slotMap slot).state = .migrating → (config.slotMap slot).workerId = index →
    after.slotMap slot = ⟨localWorkerId, .stable⟩

def nodeIdAt (config : ClusterConfig) (position : Nat) : Option Bytes :=
  config.workers[position]?.bind Worker.nodeId

/-- A slot that reads the same after the slots were renumbered for a worker that stays. -/
def Unmoved (config : ClusterConfig) (removed : Nat) (slot : HashSlot) : Prop :=
  slot.workerId < removed ∨
    removed < slot.workerId ∧ config.nodeIdAt (slot.workerId - 1) = config.nodeIdAt slot.workerId ∨
    slot.workerId = removed ∧ slot.state = .offline ∧ config.nodeIdAt 0 = config.nodeIdAt removed

end ClusterConfig

/-! ### The renumbering of one slot -/

section Removal

variable {config after : ClusterConfig} {nodeId : Bytes} {index : Nat}

theorem removeWorker_eq_ok (removed : config.removeWorker nodeId = .ok after) :
    config.getWorkerIdFromNodeId nodeId ≠ 0 ∧
      after.workers = config.workers.eraseIdx (config.getWorkerIdFromNodeId nodeId) ∧
      ∀ slot, after.slotMap slot =
        slotWithout (asU16 (config.getWorkerIdFromNodeId nodeId)) (config.slotMap slot) := by
  unfold removeWorker at removed
  dsimp only at removed
  split_ifs at removed with unknown
  cases removed
  exact ⟨unknown, rfl, fun _ => rfl⟩

def shifted (index position : Nat) : Nat := if index < position then position - 1 else position

theorem getElem?_shifted (workers : List Worker) {position : Nat} (other : position ≠ index) :
    (workers.eraseIdx index)[shifted index position]? = workers[position]? := by
  unfold shifted
  split_ifs with later
  · rw [getElem?_eraseIdx_of_ge (by omega), Nat.sub_add_cancel (by omega)]
  · exact getElem?_eraseIdx_of_lt (by omega)

theorem slotWithout_of_ne {slot : HashSlot} (other : slot.workerId ≠ index) :
    slotWithout index slot = { slot with workerId := shifted index slot.workerId } := by
  unfold slotWithout shifted
  split_ifs <;> rfl

theorem slotWithout_of_eq {slot : HashSlot} (same : slot.workerId = index) :
    slotWithout index slot =
      if slot.state = .migrating then ⟨localWorkerId, .stable⟩ else .offline := by
  unfold slotWithout
  rw [if_neg (by omega), if_pos same]
  split_ifs with migrating
  · rw [migrating]
  · split
    · contradiction
    · rfl

theorem effectiveWorkerId_slotWithout {slot : HashSlot} (foreign : localWorkerId < index)
    (other : slot.effectiveWorkerId ≠ index) :
    (slotWithout index slot).effectiveWorkerId = shifted index slot.effectiveWorkerId := by
  have here : shifted index localWorkerId = localWorkerId := if_neg (by omega)
  by_cases same : slot.workerId = index
  · -- the removed worker was the target of a migration, so the owner is the local one
    have migrating : slot.state = .migrating := by
      by_contra settled
      exact other ((if_neg settled).trans same)
    have owner : slot.effectiveWorkerId = localWorkerId := if_pos migrating
    rw [slotWithout_of_eq same, if_pos migrating, owner, here]
    rfl
  · rw [slotWithout_of_ne same]
    unfold HashSlot.effectiveWorkerId
    split_ifs
    · exact here.symm
    · rfl

/-! ### The two ranges of the index -/

theorem slotKept_of_lt (behind : localWorkerId < index) {slot : Fin totalHashSlots}
    (workers : after.workers = config.workers.eraseIdx index)
    (now : after.slotMap slot = slotWithout index (config.slotMap slot)) :
    SlotKept config after index slot where
  owner other := by
    rw [getOwnerIdFromSlot, now, effectiveWorkerId_slotWithout behind other, workers,
      getElem?_shifted _ other]
    rfl
  peer _ elsewhere := by
    rw [getNodeIdFromSlot, now, slotWithout_of_ne elsewhere, workers]
    exact ⟨rfl, congrArg (Option.bind · _) (getElem?_shifted _ elsewhere)⟩
  orphaned owned := by
    have settled : (config.slotMap slot).state ≠ .migrating := fun migrating =>
      Nat.ne_of_lt behind ((if_pos migrating).symm.trans owned)
    rw [now, slotWithout_of_eq ((if_neg settled).symm.trans owned), if_neg settled]
  returned migrating target := by rw [now, slotWithout_of_eq target, if_pos migrating]

/-- Where no slot can refer to the worker that goes, every slot has to read as before. -/
theorem slotKept_iff_same (behind : localWorkerId < index) {slot : Fin totalHashSlots}
    (workers : after.workers = config.workers.eraseIdx index)
    (early : (config.slotMap slot).workerId < index) :
    SlotKept config after index slot ↔
      (after.slotMap slot).state = (config.slotMap slot).state ∧
        after.getNodeIdFromSlot slot = config.getNodeIdFromSlot slot := by
  have elsewhere : (config.slotMap slot).effectiveWorkerId ≠ index := by
    unfold HashSlot.effectiveWorkerId
    split_ifs
    · exact Nat.ne_of_lt behind
    · exact Nat.ne_of_lt early
  refine ⟨fun kept => kept.peer elsewhere (Nat.ne_of_lt early), fun same => ⟨fun _ => ?_,
    fun _ _ => same, fun owned => absurd owned elsewhere,
    fun _ target => absurd target (Nat.ne_of_lt early)⟩⟩
  unfold getOwnerIdFromSlot HashSlot.effectiveWorkerId
  rw [same.1]
  split_ifs
  · rw [workers]
    exact congrArg (Option.bind · _) (getElem?_eraseIdx_of_lt behind)
  · exact same.2

theorem same_iff_unmoved {removed : Nat} {slot : Fin totalHashSlots}
    (workers : after.workers = config.workers.eraseIdx index)
    (now : after.slotMap slot = slotWithout removed (config.slotMap slot))
    (early : (config.slotMap slot).workerId < index) :
    (after.slotMap slot).state = (config.slotMap slot).state ∧
        after.getNodeIdFromSlot slot = config.getNodeIdFromSlot slot ↔
      config.Unmoved removed (config.slotMap slot) := by
  have read : ∀ position < index, after.nodeIdAt position = config.nodeIdAt position := by
    intro position before
    rw [nodeIdAt, workers, getElem?_eraseIdx_of_lt before]
    rfl
  show _ ∧ after.nodeIdAt (after.slotMap slot).workerId =
    config.nodeIdAt (config.slotMap slot).workerId ↔ _
  unfold Unmoved
  rw [now]
  obtain lower | same | higher := Nat.lt_trichotomy (config.slotMap slot).workerId removed
  · rw [slotWithout_of_ne (Nat.ne_of_lt lower), shifted, if_neg (by omega), read _ early]
    exact iff_of_true ⟨rfl, rfl⟩ (.inl lower)
  · -- the slot is taken for one of the removed worker
    have first := read 0 (Nat.zero_lt_of_lt early)
    rw [slotWithout_of_eq same, ← same]
    split_ifs with migrating
    · simp [migrating]
    · simp [HashSlot.offline, first, eq_comm]
  · rw [slotWithout_of_ne (Nat.ne_of_gt higher), shifted, if_pos higher,
      read _ (Nat.lt_of_le_of_lt (Nat.sub_le ..) early)]
    simp [higher, Nat.lt_asymm higher, Nat.ne_of_gt higher]

/-- A removal serves a slot right exactly when the index of the worker is a `u16`, or the slot reads
the same although it was renumbered for the worker of the cut index. -/
theorem removeWorker_keeps_owners (removed : config.removeWorker nodeId = .ok after)
    (foreign : config.getWorkerIdFromNodeId nodeId ≠ localWorkerId) (slot : Fin totalHashSlots)
    (narrow : (config.slotMap slot).workerId < 2 ^ 16) :
    SlotKept config after (config.getWorkerIdFromNodeId nodeId) slot ↔
      config.getWorkerIdFromNodeId nodeId < 2 ^ 16 ∨
        config.Unmoved (asU16 (config.getWorkerIdFromNodeId nodeId)) (config.slotMap slot) := by
  obtain ⟨known, workers, slots⟩ := removeWorker_eq_ok removed
  have behind : localWorkerId < config.getWorkerIdFromNodeId nodeId := by
    unfold localWorkerId at foreign ⊢
    omega
  have now := slots slot
  by_cases small : config.getWorkerIdFromNodeId nodeId < 2 ^ 16
  · rw [asU16, Nat.mod_eq_of_lt small] at now
    exact iff_of_true (slotKept_of_lt behind workers now) (.inl small)
  · have early : (config.slotMap slot).workerId < config.getWorkerIdFromNodeId nodeId := by omega
    rw [slotKept_iff_same behind workers early, same_iff_unmoved workers now early,
      or_iff_right small]

end Removal

/-! ### A long table -/

def named (name : UInt8) : Worker := { Worker.unassigned with nodeId := some [name] }

def crowd (others : Nat) : ClusterConfig where
  slotMap _ := ⟨2, .stable⟩
  workers := .unassigned :: ([named 65, named 66] ++ (replicate others .unassigned ++ [named 67]))

theorem crowd_getWorkerId (others : Nat) :
    (crowd others).getWorkerIdFromNodeId [67] = others + 3 := by
  have last : ((crowd others).workers.drop 1).findIdx?
      (fun worker => worker.nodeId.any (eqIgnoreAsciiCase · [67])) = some (others + 2) := by
    show ([named 65, named 66] ++ (replicate others Worker.unassigned ++ [named 67])).findIdx? _ = _
    rw [findIdx?_append, findIdx?_append, findIdx?_replicate, length_replicate, if_neg]
    · show some (0 + others + 2) = _
      rw [Nat.zero_add]
    · exact fun found => Bool.false_ne_true found.2
  rw [getWorkerIdFromNodeId, last]

theorem crowd_removed (others : Nat) : (crowd others).removeWorker [67] =
    .ok ⟨fun _ => slotWithout (asU16 (others + 3)) ⟨2, .stable⟩,
      (crowd others).workers.eraseIdx (others + 3)⟩ := by
  unfold removeWorker
  rw [crowd_getWorkerId]
  rfl

theorem removeWorker_keeps_owners_in_crowd : ∃ after, (crowd 1).removeWorker [67] = .ok after ∧
    after.getOwnerIdFromSlot ⟨0, by decide⟩ = some [66] :=
  ⟨_, crowd_removed 1, ((removeWorker_keeps_owners (crowd_removed 1) (by decide) ⟨0, by decide⟩
    (by decide)).mpr (.inl (by decide))).owner (by decide)⟩

/-- The worker of number 65537 is removed, and the first one loses its slots. -/
theorem removeWorker_moves_slots : ∃ after, (crowd (2 ^ 16 - 2)).removeWorker [67] = .ok after ∧
    (crowd (2 ^ 16 - 2)).getOwnerIdFromSlot ⟨0, by decide⟩ = some [66] ∧
    after.getOwnerIdFromSlot ⟨0, by decide⟩ = some [65] :=
  ⟨_, crowd_removed _, rfl, rfl⟩

end Wedb.Cluster
