/-
The backlog ring and the replication offset, with a record of the byte last appended at every
offset. The ring serves what the record holds exactly in the runs in which the offset is moved only
where it stands, to the origin, or while the ring is empty.
-/

import Wedb.Replication
import Wedb.Ring

namespace Wedb.Repl

open ReplicationBacklog List

namespace ReplicationBacklog

def new (capacity : Nat) : ReplicationBacklog where
  buf := .replicate (max capacity 1024) 0
  writeIdx := 0
  histLen := 0
  masterReplOffset := 0

variable (backlog : ReplicationBacklog)

def setMasterOffset (offset : Nat) : ReplicationBacklog :=
  { backlog with masterReplOffset := offset }

/-- `feed`. The offset is a `u64` whose overflow is not checked. -/
def feed (data : Bytes) : ReplicationBacklog :=
  let len := data.length
  let capacity := backlog.buf.length
  if len = 0 then backlog
  else if capacity ≤ len then
    { buf := data.drop (len - capacity)
      writeIdx := 0
      histLen := capacity
      masterReplOffset := (backlog.masterReplOffset + len) % 2 ^ 64 }
  else
    { buf := (Ring.write backlog.buf backlog.writeIdx data).1
      writeIdx := (Ring.write backlog.buf backlog.writeIdx data).2
      histLen := min (backlog.histLen + len) capacity
      masterReplOffset := (backlog.masterReplOffset + len) % 2 ^ 64 }

def readBytes (startOffset maxBytes : Nat) : Bytes :=
  (backlog.slices startOffset maxBytes).1 ++ (backlog.slices startOffset maxBytes).2

def clear : ReplicationBacklog :=
  { backlog with writeIdx := 0, histLen := 0 }

structure WellFormed (backlog : ReplicationBacklog) : Prop where
  writeIdx_lt : backlog.writeIdx < backlog.buf.length
  histLen_le : backlog.histLen ≤ backlog.buf.length

def behind (backlog : ReplicationBacklog) (distance : Nat) : Option UInt8 :=
  Ring.behind backlog.buf backlog.writeIdx distance

theorem wellFormed_new (capacity : Nat) : (new capacity).WellFormed where
  writeIdx_lt := by
    show 0 < (List.replicate (max capacity 1024) (0 : UInt8)).length
    rw [length_replicate]
    omega
  histLen_le := Nat.zero_le _

section Feed

variable {backlog : ReplicationBacklog} {data : Bytes}

theorem feed_masterReplOffset (backlog : ReplicationBacklog) (some : data ≠ []) :
    (backlog.feed data).masterReplOffset = (backlog.masterReplOffset + data.length) % 2 ^ 64 := by
  have positive : data.length ≠ 0 := fun none => some (length_eq_zero_iff.mp none)
  unfold feed
  rw [if_neg positive]
  split <;> rfl

theorem feed_histLen_le (backlog : ReplicationBacklog) (data : Bytes) :
    (backlog.feed data).histLen ≤ backlog.histLen + data.length := by
  unfold feed
  dsimp only
  split
  · exact Nat.le_add_right _ _
  split
  · exact Nat.le_add_left_of_le (by assumption)
  · exact Nat.min_le_left _ _

variable (wellFormed : backlog.WellFormed)

include wellFormed

theorem WellFormed.setMasterOffset (offset : Nat) : (backlog.setMasterOffset offset).WellFormed :=
  ⟨wellFormed.writeIdx_lt, wellFormed.histLen_le⟩

theorem WellFormed.clear : backlog.clear.WellFormed :=
  ⟨Nat.zero_lt_of_lt wellFormed.writeIdx_lt, Nat.zero_le _⟩

theorem WellFormed.feed (data : Bytes) : (backlog.feed data).WellFormed := by
  have inside := wellFormed.writeIdx_lt
  unfold ReplicationBacklog.feed
  dsimp only
  split
  · exact wellFormed
  split
  · have sized : (data.drop (data.length - backlog.buf.length)).length = backlog.buf.length := by
      rw [length_drop]
      omega
    exact ⟨Nat.lt_of_lt_of_eq (Nat.zero_lt_of_lt inside) sized.symm, Nat.le_of_eq sized.symm⟩
  · have short : data.length < backlog.buf.length := by omega
    have sized := Ring.length_write inside short
    refine ⟨?_, ?_⟩
    · rw [Ring.write_head inside short, sized]
      exact Nat.mod_lt _ (by omega)
    · rw [sized]
      exact Nat.min_le_right _ _

theorem WellFormed.feed_histLen_pos (some : data ≠ []) : 0 < (backlog.feed data).histLen := by
  have positive : data.length ≠ 0 := fun none => some (length_eq_zero_iff.mp none)
  have inside := wellFormed.writeIdx_lt
  unfold ReplicationBacklog.feed
  rw [if_neg positive]
  split
  · exact Nat.zero_lt_of_lt inside
  · exact Nat.lt_min.mpr ⟨by omega, Nat.zero_lt_of_lt inside⟩

theorem WellFormed.feed_length (data : Bytes) :
    (backlog.feed data).buf.length = backlog.buf.length := by
  unfold ReplicationBacklog.feed
  dsimp only
  split
  · rfl
  split
  · rw [length_drop]
    omega
  · exact Ring.length_write wellFormed.writeIdx_lt (by omega)

theorem behind_feed {distance : Nat} (positive : 0 < distance)
    (near : distance ≤ backlog.buf.length) :
    (backlog.feed data).behind distance =
      if distance ≤ data.length then data[data.length - distance]?
      else backlog.behind (distance - data.length) := by
  unfold feed
  by_cases empty : data.length = 0
  · rw [if_pos empty, if_neg (by omega), empty, Nat.sub_zero]
  rw [if_neg empty]
  by_cases long : backlog.buf.length ≤ data.length
  · have sized : (data.drop (data.length - backlog.buf.length)).length = backlog.buf.length := by
      rw [length_drop]
      omega
    have index : (0 + backlog.buf.length - distance) % backlog.buf.length =
        backlog.buf.length - distance := by
      rw [Nat.zero_add, Nat.mod_eq_of_lt (by omega)]
    rw [if_pos long, if_pos (Nat.le_trans near long), behind, Ring.behind]
    rw [sized, index, getElem?_drop]
    congr 1
    omega
  · rw [if_neg long]
    exact Ring.behind_write wellFormed.writeIdx_lt (by omega) positive near

end Feed

section Read

variable {backlog : ReplicationBacklog} {offset maxBytes : Nat}

theorem slices_nothing (nothing : min maxBytes (backlog.masterReplOffset - offset) = 0) :
    backlog.slices offset maxBytes = ([], []) := by
  unfold slices
  rw [if_pos nothing, ite_self]

theorem slices_eq_pieces (range : backlog.isOffsetInRange offset)
    (something : min maxBytes (backlog.masterReplOffset - offset) ≠ 0) :
    backlog.slices offset maxBytes = Ring.pieces backlog.buf
      ((backlog.writeIdx + backlog.buf.length - (backlog.masterReplOffset - offset)) %
        backlog.buf.length) (min maxBytes (backlog.masterReplOffset - offset)) := by
  have positive : maxBytes ≠ 0 := by omega
  rw [slices, if_neg (by simp [range, positive])]
  exact if_neg something

theorem getElem?_readBytes (wellFormed : backlog.WellFormed)
    (range : backlog.isOffsetInRange offset) {steps : Nat}
    (valid : steps < min maxBytes (backlog.masterReplOffset - offset)) :
    (backlog.readBytes offset maxBytes)[steps]? =
      backlog.behind (backlog.masterReplOffset - offset - steps) := by
  have held := wellFormed.histLen_le
  have bounds := of_decide_eq_true range
  rw [firstByteOffset] at bounds
  have index : (backlog.writeIdx + backlog.buf.length - (backlog.masterReplOffset - offset)) +
      steps = backlog.writeIdx + backlog.buf.length -
        (backlog.masterReplOffset - offset - steps) := by omega
  rw [readBytes, slices_eq_pieces range (by omega),
    Ring.getElem?_pieces (Nat.mod_lt _ (by omega)) (by omega) valid, Nat.mod_add_mod, index]
  rfl

theorem length_readBytes (wellFormed : backlog.WellFormed)
    (range : backlog.isOffsetInRange offset) (maxBytes : Nat) :
    (backlog.readBytes offset maxBytes).length =
      min maxBytes (backlog.masterReplOffset - offset) := by
  have held := wellFormed.histLen_le
  have bounds := of_decide_eq_true range
  rw [firstByteOffset] at bounds
  by_cases nothing : min maxBytes (backlog.masterReplOffset - offset) = 0
  · rw [readBytes, slices_nothing nothing, nothing]
    rfl
  · rw [readBytes, slices_eq_pieces range nothing, Ring.length_pieces (by omega)]

theorem readBytes_out_of_range (outside : backlog.isOffsetInRange offset = false) :
    backlog.readBytes offset maxBytes = [] := by
  rw [readBytes, slices, if_pos (.inr outside)]
  rfl

end Read

/-- The ring holds as much of the end of a stream as it has room for. -/
structure Holds (backlog : ReplicationBacklog) (stream : Bytes) : Prop
    extends WellFormed backlog where
  histLen_eq : backlog.histLen = min stream.length backlog.buf.length
  offset_eq : backlog.masterReplOffset = stream.length % 2 ^ 64
  behind_eq : ∀ distance, 0 < distance → distance ≤ backlog.histLen →
    backlog.behind distance = stream[stream.length - distance]?

def fed (capacity : Nat) (feeds : List Bytes) : ReplicationBacklog :=
  feeds.foldl feed (new capacity)

section Stream

variable {backlog : ReplicationBacklog} {stream : Bytes}

theorem holds_new (capacity : Nat) : (new capacity).Holds [] where
  toWellFormed := wellFormed_new capacity
  histLen_eq := (Nat.zero_min _).symm
  offset_eq := rfl
  behind_eq _ positive none := absurd positive (Nat.not_lt.mpr none)

theorem WellFormed.feed_histLen (wellFormed : backlog.WellFormed) (data : Bytes) :
    (backlog.feed data).histLen = min (backlog.histLen + data.length) backlog.buf.length := by
  have held := wellFormed.histLen_le
  unfold ReplicationBacklog.feed
  dsimp only
  split_ifs with empty long
  · omega
  · show backlog.buf.length = _
    omega
  · rfl

theorem Holds.feed (holds : backlog.Holds stream) (data : Bytes) :
    (backlog.feed data).Holds (stream ++ data) := by
  have held := holds.feed_histLen data
  have before := holds.histLen_eq
  refine ⟨holds.toWellFormed.feed data, ?_, ?_, fun distance positive near => ?_⟩
  · rw [held, holds.feed_length, length_append]
    omega
  · obtain rfl | some := eq_or_ne data []
    · rw [append_nil]
      exact holds.offset_eq
    · rw [feed_masterReplOffset backlog some, holds.offset_eq, length_append, Nat.mod_add_mod]
  · rw [held] at near
    rw [behind_feed holds.toWellFormed positive (by omega), length_append]
    split_ifs with recent
    · rw [getElem?_append_right (by omega)]
      congr 1
      omega
    · rw [getElem?_append_left (by omega), holds.behind_eq _ (by omega) (by omega)]
      congr 1
      omega

theorem Holds.feeds (holds : backlog.Holds stream) (feeds : List Bytes) :
    (feeds.foldl ReplicationBacklog.feed backlog).Holds (stream ++ feeds.flatten) := by
  induction feeds generalizing backlog stream with
  | nil => rwa [flatten_nil, append_nil]
  | cons data rest ih =>
    rw [flatten_cons, ← append_assoc]
    exact ih (holds.feed data)

theorem holds_fed (capacity : Nat) (feeds : List Bytes) :
    (fed capacity feeds).Holds feeds.flatten :=
  (holds_new capacity).feeds feeds

theorem length_fed (capacity : Nat) (feeds : List Bytes) :
    (fed capacity feeds).buf.length = max capacity 1024 := by
  have run (backlog : ReplicationBacklog) (wellFormed : backlog.WellFormed) :
      (feeds.foldl feed backlog).buf.length = backlog.buf.length := by
    induction feeds generalizing backlog with
    | nil => rfl
    | cons data rest ih =>
      exact (ih _ (wellFormed.feed data)).trans (wellFormed.feed_length data)
  exact (run _ (wellFormed_new capacity)).trans length_replicate

theorem Holds.readBytes (holds : backlog.Holds stream) (bounded : stream.length < 2 ^ 64)
    (offset maxBytes : Nat) :
    backlog.readBytes offset maxBytes =
      if stream.length - backlog.histLen ≤ offset ∧ offset ≤ stream.length then
        (stream.drop offset).take maxBytes
      else [] := by
  have tail : backlog.masterReplOffset = stream.length :=
    holds.offset_eq.trans (Nat.mod_eq_of_lt bounded)
  have kept := holds.histLen_eq
  cases range : backlog.isOffsetInRange offset with
  | false =>
    rw [readBytes_out_of_range range]
    have outside := of_decide_eq_false range
    rw [firstByteOffset, tail] at outside
    split_ifs with inside
    · -- Only an empty stream has an offset in range that an empty ring does not serve.
      have room := Nat.zero_lt_of_lt holds.writeIdx_lt
      have empty : stream.length = 0 := by
        by_contra some
        exact outside ⟨by omega, inside⟩
      rw [length_eq_zero_iff.mp empty, drop_nil, take_nil]
    · rfl
  | true =>
    have inside := (of_decide_eq_true range).2
    have length := length_readBytes holds.toWellFormed range maxBytes
    rw [firstByteOffset, tail] at inside
    rw [tail] at length
    rw [if_pos inside]
    refine ext_getElem? fun steps => ?_
    by_cases valid : steps < min maxBytes (stream.length - offset)
    · rw [getElem?_readBytes holds.toWellFormed range (tail ▸ valid), tail,
        holds.behind_eq _ (by omega) (by omega), getElem?_take_of_lt (by omega), getElem?_drop]
      congr 1
      omega
    · rw [getElem?_eq_none (by omega), getElem?_eq_none]
      rw [length_take, length_drop]
      omega

/-- The ring holds the end of the stream, and below `2 ^ 64` bytes serves it from every offset it
retains. -/
theorem fed_serves_stream (capacity : Nat) (feeds : List Bytes) :
    let stream := feeds.flatten
    let backlog := fed capacity feeds
    let retained := min stream.length (max capacity 1024)
    backlog.histLen = retained ∧
      (∀ distance, 0 < distance → distance ≤ retained →
        backlog.behind distance = stream[stream.length - distance]?) ∧
      (stream.length < 2 ^ 64 → ∀ offset maxBytes,
        (backlog.slices offset maxBytes).1 ++ (backlog.slices offset maxBytes).2 =
          if stream.length - retained ≤ offset ∧ offset ≤ stream.length then
            (stream.drop offset).take maxBytes
          else []) := by
  have holds := holds_fed capacity feeds
  have held := holds.histLen_eq
  rw [length_fed] at held
  refine ⟨held, fun distance positive near => ?_, fun bounded offset maxBytes => ?_⟩
  · exact holds.behind_eq distance positive (held ▸ near)
  · rw [← held]
    exact holds.readBytes bounded offset maxBytes

theorem fed_serves_stream_two_feeds :
    [[97, 98], [99]].flatten.length < 2 ^ 64 ∧
      ((fed 0 [[97, 98], [99]]).slices 1 5).1 ++ ((fed 0 [[97, 98], [99]]).slices 1 5).2 =
        [98, 99] :=
  ⟨by decide, (fed_serves_stream 0 [[97, 98], [99]]).2.2 (by decide) 1 5⟩

theorem Holds.slices_at_end (holds : backlog.Holds stream) (full : stream.length = 2 ^ 64) :
    backlog.slices (2 ^ 64 - 1) 1 = ([], []) := by
  have origin : backlog.masterReplOffset = 0 := by rw [holds.offset_eq, full, Nat.mod_self]
  apply slices_nothing
  rw [origin, Nat.zero_sub, Nat.min_zero]

/-- The offset of a stream of `2 ^ 64` bytes is zero, so its last byte is not served. -/
theorem slices_lose_last_byte :
    let feeds := replicate (2 ^ 44) (replicate (2 ^ 20) (0 : UInt8))
    feeds.flatten.length = 2 ^ 64 ∧ (feeds.flatten.drop (2 ^ 64 - 1)).length = 1 ∧
      (fed 0 feeds).slices (2 ^ 64 - 1) 1 = ([], []) := by
  intro feeds
  have full : feeds.flatten.length = 2 ^ 64 := by
    rw [length_flatten, map_replicate, length_replicate, sum_replicate_nat]
    rfl
  refine ⟨full, ?_, (holds_fed 0 feeds).slices_at_end full⟩
  rw [length_drop, full]
  rfl

end Stream

end ReplicationBacklog

/-- `ReplicationHistory::new`, with the replication id it generates. -/
def ReplicationHistory.new (generated : ReplId) (initialOffset : Nat) : ReplicationHistory where
  primaryReplid := generated
  primaryReplid2 := .empty
  replicationOffset := initialOffset
  replicationOffset2 := 2 ^ 64 - 1

variable (history : ReplicationHistory)

/-- `ReplicationHistory::failover_update`, with the replication id it generates. -/
def ReplicationHistory.failoverUpdate (generated : ReplId)
    (tailOffset : Nat) : ReplicationHistory where
  primaryReplid := generated
  primaryReplid2 := history.primaryReplid
  replicationOffset := tailOffset
  replicationOffset2 := tailOffset

def ReplicationHistory.updatePrimaryReplid (newId : ReplId) : ReplicationHistory :=
  { history with primaryReplid := newId }

def ReplicationHistory.setOffset (offset : Nat) : ReplicationHistory :=
  { history with replicationOffset := offset }

namespace ReplicationManager

def defaultBacklogSize : Nat := 1024 * 1024

def withBacklog (capacity : Nat) (initialRole : NodeRole) (history : ReplicationHistory) :
    ReplicationManager where
  role := initialRole
  history := history
  backlog := (ReplicationBacklog.new capacity).setMasterOffset history.replicationOffset

def withHistory (initialRole : NodeRole) (history : ReplicationHistory) : ReplicationManager :=
  withBacklog defaultBacklogSize initialRole history

variable (manager : ReplicationManager)

/-- `append_stream`: the manager and the tail it returns. -/
def appendStream (data : Bytes) : ReplicationManager × Nat :=
  let backlog := manager.backlog.feed data
  let newTail := backlog.masterReplOffset
  ({ manager with backlog, history := manager.history.setOffset newTail }, newTail)

def readBacklog (offset maxBytes : Nat) : Bytes :=
  manager.backlog.readBytes offset maxBytes

def setReplicationOffset (offset : Nat) : ReplicationManager :=
  { manager with
    backlog := manager.backlog.setMasterOffset offset
    history := manager.history.setOffset offset }

/-- `rotate_and_promote`, with the replication id it generates. -/
def rotateAndPromote (generated : ReplId) (currentTail : Nat) : ReplicationManager where
  role := .primary
  history := manager.history.failoverUpdate generated currentTail
  backlog := manager.backlog.setMasterOffset currentTail

def failoverToPrimary (generated : ReplId) (currentTail : Nat) : ReplicationManager :=
  manager.rotateAndPromote generated currentTail

def replicaOfNoOne (generated : ReplId) (currentTail : Nat) : ReplicationManager :=
  manager.rotateAndPromote generated currentTail

def adoptPrimaryIdentity (replid : ReplId) (offset : Nat) : ReplicationManager :=
  { manager with
    history := (manager.history.updatePrimaryReplid replid).setOffset offset
    backlog := (manager.backlog.setMasterOffset offset).clear }

end ReplicationManager

inductive Operation
  | appendStream (data : Bytes)
  | setReplicationOffset (offset : Nat)
  | failoverToPrimary (generated : ReplId) (currentTail : Nat)
  | replicaOfNoOne (generated : ReplId) (currentTail : Nat)
  | adoptPrimaryIdentity (replid : ReplId) (offset : Nat)

variable (manager : ReplicationManager)

def Operation.apply : Operation → ReplicationManager
  | .appendStream data => (manager.appendStream data).1
  | .setReplicationOffset offset => manager.setReplicationOffset offset
  | .failoverToPrimary generated currentTail => manager.failoverToPrimary generated currentTail
  | .replicaOfNoOne generated currentTail => manager.replicaOfNoOne generated currentTail
  | .adoptPrimaryIdentity replid offset => manager.adoptPrimaryIdentity replid offset

def Stream : Type := Nat → Option UInt8

def Stream.append (stream : Stream) (offset : Nat) (data : Bytes) : Stream := fun position =>
  if offset ≤ position ∧ position < offset + data.length then data[position - offset]?
  else stream position

/-- A manager, with the bytes it was fed by offset. -/
structure Recorded where
  manager : ReplicationManager
  stream : Stream

namespace Recorded

def start (manager : ReplicationManager) : Recorded := ⟨manager, fun _ => none⟩

def step (recorded : Recorded) (operation : Operation) : Recorded where
  manager := operation.apply recorded.manager
  stream :=
    match operation with
    | .appendStream data =>
      recorded.stream.append recorded.manager.history.replicationOffset data
    | _ => recorded.stream

def run (recorded : Recorded) (operations : List Operation) : Recorded :=
  operations.foldl step recorded

end Recorded

/-- A move of the offset that serves no byte under a new one. -/
def ReplicationManager.Movable (offset : Nat) : Prop :=
  offset = manager.history.replicationOffset ∨ offset = 0 ∨ manager.backlog.histLen = 0

instance (manager : ReplicationManager) (offset : Nat) : Decidable (manager.Movable offset) :=
  inferInstanceAs (Decidable (_ ∨ _ ∨ _))

/-- An operation keeps the ring in step: appends end inside the range of an offset, and moves serve
no byte anew. -/
def Operation.Aligned : Operation → Prop
  | .appendStream data => manager.history.replicationOffset + data.length ≤ 2 ^ 64
  | .setReplicationOffset offset => manager.Movable offset
  | .failoverToPrimary _ currentTail => manager.Movable currentTail
  | .replicaOfNoOne _ currentTail => manager.Movable currentTail
  | .adoptPrimaryIdentity _ _ => True

instance (manager : ReplicationManager) (operation : Operation) :
    Decidable (operation.Aligned manager) :=
  match operation with
  | .appendStream _ => inferInstanceAs (Decidable (_ ≤ _))
  | .setReplicationOffset offset => inferInstanceAs (Decidable (manager.Movable offset))
  | .failoverToPrimary _ currentTail => inferInstanceAs (Decidable (manager.Movable currentTail))
  | .replicaOfNoOne _ currentTail => inferInstanceAs (Decidable (manager.Movable currentTail))
  | .adoptPrimaryIdentity _ _ => inferInstanceAs (Decidable True)

def AlignedRun (manager : ReplicationManager) : List Operation → Prop
  | [] => True
  | operation :: rest =>
    operation.Aligned manager ∧ AlignedRun (operation.apply manager) rest

instance decidableAlignedRun (manager : ReplicationManager) (operations : List Operation) :
    Decidable (AlignedRun manager operations) :=
  match operations with
  | [] => inferInstanceAs (Decidable True)
  | operation :: rest =>
    have := decidableAlignedRun (operation.apply manager) rest
    inferInstanceAs (Decidable (_ ∧ _))

/-- The two offsets agree and every byte in the range of the ring is the one recorded at its
offset. -/
structure Recorded.Faithful (recorded : Recorded) : Prop where
  wellFormed : recorded.manager.backlog.WellFormed
  offset_eq : recorded.manager.backlog.masterReplOffset = recorded.manager.history.replicationOffset
  served : ∀ offset, recorded.manager.backlog.firstByteOffset ≤ offset →
    offset < recorded.manager.backlog.masterReplOffset →
    recorded.stream offset =
      recorded.manager.backlog.behind (recorded.manager.backlog.masterReplOffset - offset)

namespace Recorded

variable {recorded : Recorded}

theorem faithful_start (capacity : Nat) (role : NodeRole) (history : ReplicationHistory) :
    (start (.withBacklog capacity role history)).Faithful where
  wellFormed := (wellFormed_new capacity).setMasterOffset _
  offset_eq := rfl
  served _ first last := absurd first (Nat.not_le.mpr last)

theorem Faithful.appendStream (faithful : recorded.Faithful) {data : Bytes}
    (aligned : recorded.manager.history.replicationOffset + data.length ≤ 2 ^ 64) :
    (recorded.step (.appendStream data)).Faithful := by
  have wellFormed := faithful.wellFormed
  refine ⟨wellFormed.feed data, rfl, fun offset first last => ?_⟩
  obtain rfl | empty := eq_or_ne data []
  · have unchanged : recorded.stream.append recorded.manager.history.replicationOffset [] =
        recorded.stream := funext fun position =>
      if_neg fun inside => absurd inside.2 (Nat.not_lt.mpr inside.1)
    show recorded.stream.append _ [] offset = _
    rw [unchanged]
    exact faithful.served offset first last
  have tail := feed_masterReplOffset recorded.manager.backlog empty
  have held := recorded.manager.backlog.feed_histLen_le data
  have capacity := (wellFormed.feed data).histLen_le
  rw [wellFormed.feed_length] at capacity
  change (recorded.manager.backlog.feed data).firstByteOffset ≤ offset at first
  change offset < (recorded.manager.backlog.feed data).masterReplOffset at last
  change recorded.stream.append _ data offset = (recorded.manager.backlog.feed data).behind
    ((recorded.manager.backlog.feed data).masterReplOffset - offset)
  rw [firstByteOffset, tail] at first
  rw [tail] at last ⊢
  rw [← faithful.offset_eq] at aligned ⊢
  have inside : recorded.manager.backlog.masterReplOffset + data.length < 2 ^ 64 := by
    refine Nat.lt_of_le_of_ne aligned fun full => ?_
    rw [full, Nat.mod_self] at last
    exact Nat.not_lt_zero _ last
  rw [Nat.mod_eq_of_lt inside] at first last ⊢
  rw [behind_feed wellFormed (by omega) (by omega), Stream.append]
  by_cases recent : recorded.manager.backlog.masterReplOffset ≤ offset
  · rw [if_pos ⟨recent, last⟩, if_pos (by omega)]
    congr 1
    omega
  · rw [if_neg (fun within => recent within.1), if_neg (by omega),
      faithful.served offset (by rw [firstByteOffset]; omega) (by omega)]
    congr 1
    omega

theorem Faithful.move (faithful : recorded.Faithful) {offset : Nat}
    (movable : recorded.manager.Movable offset) (position : Nat)
    (first : (recorded.manager.backlog.setMasterOffset offset).firstByteOffset ≤ position)
    (last : position < offset) :
    recorded.stream position = recorded.manager.backlog.behind (offset - position) := by
  rcases movable with same | origin | nothing
  · rw [← faithful.offset_eq] at same
    subst same
    exact faithful.served position first last
  · omega
  · rw [firstByteOffset] at first
    change offset - recorded.manager.backlog.histLen ≤ position at first
    omega

theorem Faithful.step (faithful : recorded.Faithful) {operation : Operation}
    (aligned : operation.Aligned recorded.manager) : (recorded.step operation).Faithful := by
  have wellFormed := faithful.wellFormed
  cases operation with
  | appendStream data => exact faithful.appendStream aligned
  | setReplicationOffset offset =>
    exact ⟨wellFormed.setMasterOffset offset, rfl, faithful.move aligned⟩
  | failoverToPrimary generated currentTail =>
    exact ⟨wellFormed.setMasterOffset currentTail, rfl, faithful.move aligned⟩
  | replicaOfNoOne generated currentTail =>
    exact ⟨wellFormed.setMasterOffset currentTail, rfl, faithful.move aligned⟩
  | adoptPrimaryIdentity replid offset =>
    exact ⟨(wellFormed.setMasterOffset offset).clear, rfl, fun position first last =>
      absurd first (Nat.not_le.mpr last)⟩

theorem Faithful.run (operations : List Operation) {recorded : Recorded}
    (faithful : recorded.Faithful) (aligned : AlignedRun recorded.manager operations) :
    (recorded.run operations).Faithful := by
  induction operations generalizing recorded with
  | nil => exact faithful
  | cons operation rest ih => exact ih (faithful.step aligned.1) aligned.2

theorem Faithful.run_capacity (operations : List Operation) {recorded : Recorded}
    (faithful : recorded.Faithful) (aligned : AlignedRun recorded.manager operations) :
    (recorded.run operations).manager.backlog.buf.length = recorded.manager.backlog.buf.length := by
  induction operations generalizing recorded with
  | nil => rfl
  | cons operation rest ih =>
    refine (ih (faithful.step aligned.1) aligned.2).trans ?_
    cases operation with
    | appendStream data => exact faithful.wellFormed.feed_length data
    | setReplicationOffset | failoverToPrimary | replicaOfNoOne | adoptPrimaryIdentity => rfl

theorem Faithful.readBacklog (faithful : recorded.Faithful) (offset maxBytes : Nat) :
    (recorded.manager.readBacklog offset maxBytes).map some =
      (List.range (recorded.manager.readBacklog offset maxBytes).length).map fun steps =>
        recorded.stream (offset + steps) := by
  have wellFormed := faithful.wellFormed
  rw [ReplicationManager.readBacklog]
  cases range : recorded.manager.backlog.isOffsetInRange offset with
  | false => rw [readBytes_out_of_range range]; rfl
  | true =>
    have length := length_readBytes wellFormed range maxBytes
    have first := (of_decide_eq_true range).2.1
    refine ext_getElem? fun steps => ?_
    rw [getElem?_map, getElem?_map]
    by_cases valid : steps < (recorded.manager.backlog.readBytes offset maxBytes).length
    · have byte := getElem?_readBytes wellFormed range (length ▸ valid)
      rw [getElem?_range valid, Option.map_some,
        faithful.served (offset + steps) (by omega) (by omega), Nat.sub_add_eq, ← byte,
        getElem?_eq_getElem valid]
      rfl
    · rw [getElem?_eq_none (Nat.le_of_not_lt valid),
        getElem?_eq_none (by rw [length_range]; exact Nat.le_of_not_lt valid)]
      rfl

/-- In a run that keeps the ring in step, an offset reads as what was last appended from there on.
-/
theorem readBacklog_serves_stream (capacity : Nat) (role : NodeRole)
    (history : ReplicationHistory) (operations : List Operation)
    (aligned : AlignedRun (.withBacklog capacity role history) operations)
    (offset maxBytes : Nat) :
    let after := (start (.withBacklog capacity role history)).run operations
    (after.manager.readBacklog offset maxBytes).map some =
      (List.range (after.manager.readBacklog offset maxBytes).length).map fun steps =>
        after.stream (offset + steps) :=
  ((faithful_start capacity role history).run operations aligned).readBacklog offset maxBytes

theorem readBacklog_serves_stream_after_failover :
    let after := (start (.withBacklog 0 .primary (.new .questionMark 5))).run
      [.appendStream [97, 98, 99], .failoverToPrimary .empty 8, .appendStream [100]]
    after.manager.readBacklog 6 10 = [98, 99, 100] ∧ (after.manager.readBacklog 6 10).map some =
        (List.range (after.manager.readBacklog 6 10).length).map fun steps =>
          after.stream (6 + steps) :=
  ⟨by decide +kernel, readBacklog_serves_stream 0 .primary (.new .questionMark 5)
    [.appendStream [97, 98, 99], .failoverToPrimary .empty 8, .appendStream [100]]
    (by decide +kernel) 6 10⟩

theorem readBacklog_moved {manager : ReplicationManager}
    (wellFormed : manager.backlog.WellFormed) (data : Bytes) (last : UInt8) (offset : Nat) :
    ((manager.appendStream (data ++ [last])).1.setReplicationOffset (offset + 1)).readBacklog
      offset 1 = [last] := by
  have fed : data ++ [last] ≠ [] := append_ne_nil_of_right_ne_nil _ (cons_ne_nil _ _)
  have moved := (wellFormed.feed (data ++ [last])).setMasterOffset (offset + 1)
  have capacity := Nat.zero_lt_of_lt wellFormed.writeIdx_lt
  have held := wellFormed.feed_histLen_pos fed
  have range : ((manager.backlog.feed (data ++ [last])).setMasterOffset
      (offset + 1)).isOffsetInRange offset :=
    decide_eq_true ⟨Nat.ne_of_gt held, Nat.sub_le_of_le_add (Nat.add_le_add_left held offset),
      Nat.le_succ offset⟩
  have one : min 1 (offset + 1 - offset) = 1 := by omega
  have length := length_readBytes moved range 1
  have byte := getElem?_readBytes moved range (show 0 < min 1 (offset + 1 - offset) by omega)
  have distance : offset + 1 - offset - 0 = 1 := by omega
  change _ = (manager.backlog.feed (data ++ [last])).behind (offset + 1 - offset - 0) at byte
  rw [distance, behind_feed wellFormed Nat.one_pos capacity, length_append, length_singleton,
    if_pos (Nat.le_add_left 1 _), Nat.add_sub_cancel, getElem?_concat_length] at byte
  obtain ⟨only, single⟩ := length_eq_one_iff.mp (length.trans one)
  rw [single] at byte
  exact single.trans (congrArg (· :: []) (Option.some.inj byte))

/-- A moved offset relabels the bytes fed before it. -/
theorem readBacklog_serves_moved_bytes :
    let after := (start (.withHistory .primary (.new .questionMark 0))).run
      [.appendStream [97, 98, 99], .setReplicationOffset 100]
    after.manager.readBacklog 99 1 = [99] ∧ after.stream 99 = none :=
  ⟨readBacklog_moved ((ReplicationBacklog.wellFormed_new
    ReplicationManager.defaultBacklogSize).setMasterOffset 0) [97, 98] 99 99, rfl⟩

end Recorded

end Wedb.Repl
