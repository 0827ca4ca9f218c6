/-
The payload in which a node keeps its configuration. The slots are written as runs of one owner and
one state; what is read is valid however long the runs are.
-/

import Wedb.Gossip

namespace Wedb.Cluster

open List Resp

/-- `ClusterConfigSegment`: a run of slots. -/
structure ClusterConfigSegment where
  count : Nat
  workerId : Nat
  state : SlotState

structure ClusterConfigBitcode where
  version : Nat
  segments : List ClusterConfigSegment
  workers : List Worker

/-- `Error::InvalidPayload`. -/
structure InvalidPayload where
  text : Bytes

def clusterConfigVersion : Nat := 1

namespace ClusterConfigSegment

def start (slot : HashSlot) : ClusterConfigSegment := ⟨1, slot.workerId, slot.state⟩

def slots (segment : ClusterConfigSegment) : List HashSlot :=
  replicate segment.count ⟨segment.workerId, segment.state⟩

end ClusterConfigSegment

open ClusterConfigSegment

def countSlot (found : List ClusterConfigSegment × ClusterConfigSegment) (slot : HashSlot) :
    List ClusterConfigSegment × ClusterConfigSegment :=
  if slot.workerId ≠ found.2.workerId ∨ slot.state ≠ found.2.state then
    (found.1 ++ [found.2], start slot)
  else (found.1, { found.2 with count := asU16 (found.2.count + 1) })

def segmentsOf (first : HashSlot) (rest : List HashSlot) : List ClusterConfigSegment :=
  let found := rest.foldl countSlot ([], start first)
  found.1 ++ [found.2]

def ClusterConfig.toBitcodePayload (config : ClusterConfig) : ClusterConfigBitcode where
  version := clusterConfigVersion
  segments := segmentsOf (config.slotMap ⟨0, by decide⟩) (ofFn config.slotMap).tail
  workers := config.workers

def placeSegment (numWorkers : Nat) (found : (Fin totalHashSlots → HashSlot) × Nat)
    (segment : ClusterConfigSegment) :
    Except InvalidPayload ((Fin totalHashSlots → HashSlot) × Nat) :=
  if numWorkers ≤ segment.workerId then
    .error ⟨bytesOf "Bitcode SlotMap 属主索引越界: " ++ formatNat segment.workerId⟩
  else
    let stop := min (found.2 + segment.count) totalHashSlots
    if found.2 < stop then
      .ok (fun slot => if found.2 ≤ slot.val ∧ slot.val < stop then
        ⟨segment.workerId, segment.state⟩ else found.1 slot, stop)
    else .ok found

def fromBitcodePayload (payload : ClusterConfigBitcode) : Except InvalidPayload ClusterConfig :=
  let numWorkers := payload.workers.length
  if payload.version ≠ clusterConfigVersion then
    .error ⟨bytesOf "Incompatible ClusterConfig bitcode version: expected " ++
      formatNat clusterConfigVersion ++ bytesOf ", got " ++ formatNat payload.version⟩
  else if numWorkers = 0 ∨ totalHashSlots < numWorkers then
    .error ⟨bytesOf "工作节点数量非法: " ++ formatNat numWorkers⟩
  else do
    let found ← payload.segments.foldlM (placeSegment numWorkers) (fun _ => .offline, 0)
    return ⟨found.1, payload.workers⟩

def covered (segments : List ClusterConfigSegment) : List HashSlot := segments.flatMap slots

theorem covered_concat (segments : List ClusterConfigSegment) (segment : ClusterConfigSegment) :
    covered (segments ++ [segment]) = covered segments ++ segment.slots := by
  rw [covered, flatMap_append, flatMap_singleton]
  rfl

section Writing

variable {found : List ClusterConfigSegment × ClusterConfigSegment} {slots : List HashSlot}

theorem covered_countSlot (slot : HashSlot) (short : found.2.count + 1 < 2 ^ 16) :
    covered ((countSlot found slot).1 ++ [(countSlot found slot).2]) =
      covered (found.1 ++ [found.2]) ++ [slot] := by
  unfold countSlot
  split_ifs with other
  · rw [covered_concat]
    rfl
  · obtain ⟨owner, state⟩ := not_or.mp other
    have same : slot = ⟨found.2.workerId, found.2.state⟩ := by
      rw [← not_not.mp owner, ← not_not.mp state]
    rw [covered_concat, covered_concat, append_assoc, same, ClusterConfigSegment.slots, asU16,
      Nat.mod_eq_of_lt short, replicate_succ']
    rfl

theorem countSlot_count (slot : HashSlot) : (countSlot found slot).2.count ≤ found.2.count + 1 := by
  unfold countSlot
  split_ifs
  · exact Nat.le_add_left 1 _
  · exact Nat.mod_le _ _

theorem covered_foldl_countSlot (short : found.2.count + slots.length < 2 ^ 16) :
    covered ((slots.foldl countSlot found).1 ++ [(slots.foldl countSlot found).2]) =
      covered (found.1 ++ [found.2]) ++ slots := by
  induction slots generalizing found with
  | nil => rw [append_nil]; rfl
  | cons slot rest ih =>
    have next : (countSlot found slot).2.count ≤ _ := countSlot_count slot
    rw [length_cons] at short
    rw [foldl_cons, ih (by omega), covered_countSlot slot (by omega), append_assoc]
    rfl

theorem covered_segmentsOf (first : HashSlot) (short : slots.length + 1 < 2 ^ 16) :
    covered (segmentsOf first slots) = first :: slots :=
  covered_foldl_countSlot (Nat.add_comm 1 _ ▸ short)

theorem countSlot_workerId {count : Nat} {slot : HashSlot} (valid : slot.workerId < count)
    (runs : (∀ segment ∈ found.1, segment.workerId < count) ∧ found.2.workerId < count) :
    (∀ segment ∈ (countSlot found slot).1, segment.workerId < count) ∧
      (countSlot found slot).2.workerId < count := by
  unfold countSlot
  split_ifs
  · exact ⟨forall_mem_append.mpr ⟨runs.1, forall_mem_singleton.mpr runs.2⟩, valid⟩
  · exact runs

theorem segmentsOf_workerId {count : Nat} (first : HashSlot)
    (valid : ∀ slot ∈ first :: slots, slot.workerId < count) :
    ∀ segment ∈ segmentsOf first slots, segment.workerId < count := by
  obtain ⟨head, rest⟩ := forall_mem_cons.mp valid
  have runs := foldlRecOn (motive := fun found => (∀ segment ∈ found.1, segment.workerId < count) ∧
      found.2.workerId < count) slots countSlot (b := ([], start first))
    ⟨forall_mem_nil _, head⟩ fun _ runs slot member => countSlot_workerId (rest slot member) runs
  exact forall_mem_append.mpr ⟨runs.1, forall_mem_singleton.mpr runs.2⟩

end Writing

section Reading

variable {count : Nat} {found : (Fin totalHashSlots → HashSlot) × Nat} {slots : List HashSlot}

/-- The slots laid out so far, those behind them being unassigned. -/
structure Placed (found : (Fin totalHashSlots → HashSlot) × Nat) (slots : List HashSlot) :
    Prop where
  offset_eq : found.2 = min slots.length totalHashSlots
  slot_eq : ∀ slot, found.1 slot = slots[slot.val]?.getD .offline

theorem Placed.placeSegment (placed : Placed found slots) {segment : ClusterConfigSegment}
    (valid : segment.workerId < count) : ∃ next, placeSegment count found segment = .ok next ∧
      Placed next (slots ++ segment.slots) := by
  obtain ⟨offset, slotMap⟩ := placed
  have length : (slots ++ segment.slots).length = slots.length + segment.count := by
    rw [length_append, ClusterConfigSegment.slots, length_replicate]
  unfold Cluster.placeSegment
  rw [if_neg (Nat.not_le.mpr valid)]
  dsimp only
  split_ifs with room
  · refine ⟨_, rfl, by dsimp only; omega, fun slot => ?_⟩
    have inside := slot.isLt
    dsimp only
    rw [slotMap, getElem?_append, ClusterConfigSegment.slots, getElem?_replicate]
    by_cases before : slot.val < slots.length
    · rw [if_neg (by omega), if_pos before]
    by_cases within : slot.val < slots.length + segment.count
    · rw [if_pos (by omega), if_neg before, if_pos (by omega)]
      rfl
    · rw [if_neg (by omega), if_neg before, if_neg (by omega), getElem?_eq_none (by omega)]
  · refine ⟨found, rfl, by omega, fun slot => ?_⟩
    have inside := slot.isLt
    rw [slotMap, getElem?_append]
    split_ifs with before
    · rfl
    · rw [getElem?_eq_none (by omega), getElem?_eq_none]
      rw [ClusterConfigSegment.slots, length_replicate]
      omega

theorem Placed.foldlM (placed : Placed found slots) {segments : List ClusterConfigSegment}
    (valid : ∀ segment ∈ segments, segment.workerId < count) :
    ∃ next, segments.foldlM (Cluster.placeSegment count) found = .ok next ∧
      Placed next (slots ++ covered segments) := by
  induction segments generalizing found slots with
  | nil => exact ⟨found, rfl, (append_nil slots).symm ▸ placed⟩
  | cons segment rest ih =>
    obtain ⟨head, tail⟩ := forall_mem_cons.mp valid
    obtain ⟨next, step, placed⟩ := placed.placeSegment head
    obtain ⟨last, run, placed⟩ := ih placed tail
    rw [append_assoc] at placed
    exact ⟨last, by rw [foldlM_cons, step]; exact run, placed⟩

theorem foldlM_placeSegment_error {segments : List ClusterConfigSegment}
    (invalid : ∃ segment ∈ segments, count ≤ segment.workerId) :
    ∃ error, segments.foldlM (placeSegment count) found = .error error := by
  induction segments generalizing found with
  | nil => exact absurd invalid (by simp)
  | cons segment rest ih =>
    rw [foldlM_cons]
    unfold placeSegment
    split_ifs with wrong
    · exact ⟨_, rfl⟩
    · have later := ((exists_mem_cons_iff ..).mp invalid).resolve_left wrong
      dsimp only
      split_ifs <;> exact ih later

theorem workerId_covered {segments : List ClusterConfigSegment} (manned : 0 < count)
    (valid : ∀ segment ∈ segments, segment.workerId < count) (index : Nat) :
    ((covered segments)[index]?.getD .offline).workerId < count := by
  cases covers : (covered segments)[index]? with
  | none => exact manned
  | some slot =>
    obtain ⟨segment, member, run⟩ := mem_flatMap.mp (mem_of_getElem? covers)
    rw [Option.getD_some, eq_of_mem_replicate run]
    exact valid segment member

theorem fromBitcodePayload_of_valid {payload : ClusterConfigBitcode}
    (known : payload.version = clusterConfigVersion) (manned : 0 < payload.workers.length)
    (few : payload.workers.length ≤ totalHashSlots)
    (valid : ∀ segment ∈ payload.segments, segment.workerId < payload.workers.length) :
    fromBitcodePayload payload = .ok
      ⟨fun slot => (covered payload.segments)[slot.val]?.getD .offline, payload.workers⟩ := by
  have empty : Placed (fun _ => .offline, 0) [] := ⟨rfl, fun _ => rfl⟩
  obtain ⟨found, run, placed⟩ := empty.foldlM valid
  have layout : found.1 = fun slot => (covered payload.segments)[slot.val]?.getD .offline :=
    funext placed.slot_eq
  unfold fromBitcodePayload
  rw [if_neg (not_not.mpr known), if_neg (by omega), run, ← layout]
  rfl

end Reading

theorem cons_tail_ofFn {count : Nat} (slotMap : Fin count → HashSlot) (positive : 0 < count) :
    slotMap ⟨0, positive⟩ :: (ofFn slotMap).tail = ofFn slotMap := by
  cases count with
  | zero => exact absurd positive (Nat.lt_irrefl 0)
  | succ count => rw [ofFn_succ]; rfl

/-- A configuration with valid owners is read back as it was written, and every payload is refused
or gives valid owners, each slot that of the run which covers it. -/
theorem payload_round_trip :
    (∀ config : ClusterConfig, 0 < config.workers.length →
      config.workers.length ≤ totalHashSlots →
      (∀ slot, (config.slotMap slot).workerId < config.workers.length) →
      fromBitcodePayload config.toBitcodePayload = .ok config) ∧
    ∀ payload, (∃ error, fromBitcodePayload payload = .error error) ∨
      ∃ config, fromBitcodePayload payload = .ok config ∧ config.workers = payload.workers ∧
        ∀ slot, (config.slotMap slot).workerId < config.workers.length ∧
          config.slotMap slot = (covered payload.segments)[slot.val]?.getD .offline := by
  refine ⟨fun config manned few valid => ?_, fun payload => ?_⟩
  · have slots := cons_tail_ofFn config.slotMap (by decide)
    have runs : ∀ segment ∈ config.toBitcodePayload.segments,
        segment.workerId < config.workers.length := by
      refine segmentsOf_workerId _ fun slot member => ?_
      rw [slots] at member
      obtain ⟨index, rfl⟩ := mem_ofFn.mp member
      exact valid index
    have written : covered config.toBitcodePayload.segments = ofFn config.slotMap := by
      refine (covered_segmentsOf _ ?_).trans slots
      rw [length_tail, length_ofFn]
      decide
    rw [fromBitcodePayload_of_valid rfl manned few runs, written]
    refine congrArg Except.ok (congrArg (ClusterConfig.mk · _) (funext fun slot => ?_))
    rw [List.getElem?_ofFn, dif_pos slot.isLt]
    rfl
  · by_cases readable : payload.version = clusterConfigVersion ∧ 0 < payload.workers.length ∧
      payload.workers.length ≤ totalHashSlots
    · obtain ⟨known, manned, few⟩ := readable
      by_cases valid : ∀ segment ∈ payload.segments, segment.workerId < payload.workers.length
      · refine .inr ⟨_, fromBitcodePayload_of_valid known manned few valid, rfl, fun slot => ?_⟩
        exact ⟨workerId_covered manned valid slot, rfl⟩
      · push Not at valid
        obtain ⟨error, failed⟩ := foldlM_placeSegment_error valid
        refine .inl ⟨error, ?_⟩
        rw [fromBitcodePayload, if_neg (not_not.mpr known), if_neg (by omega), failed]
        rfl
    · left
      unfold fromBitcodePayload
      dsimp only
      split_ifs
      · exact ⟨_, rfl⟩
      · exact ⟨_, rfl⟩
      · omega

/-- Two primaries and a replica; the slots stand in five runs, and one slot is being moved. -/
def sharedConfig : ClusterConfig where
  slotMap slot :=
    if slot.val < 100 then ⟨1, .stable⟩
    else if slot.val < 101 then ⟨2, .migrating⟩
    else if slot.val < 8000 then ⟨1, .stable⟩
    else if slot.val < 16000 then ⟨2, .stable⟩
    else .offline
  workers := [.unassigned, ⟨some [97], [49], 7000, .primary, none, 3, none, .connected, false,
    false, false⟩, ⟨some [98], [50], 7001, .primary, none, 2, some [104], .connected, true, false,
    false⟩, ⟨some [99], [51], 7002, .replica, some [97], 0, none, .disconnected, false, false,
    true⟩]

theorem payload_round_trip_shared :
    fromBitcodePayload sharedConfig.toBitcodePayload = .ok sharedConfig := by
  refine payload_round_trip.1 sharedConfig (by decide) (by decide) fun slot => ?_
  show (sharedConfig.slotMap slot).workerId < 4
  unfold sharedConfig
  dsimp only
  split_ifs <;> decide

end Wedb.Cluster
