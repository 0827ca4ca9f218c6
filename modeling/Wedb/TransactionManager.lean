/-
The transaction manager of a session: the keys it watches, the commands it has queued, their locks,
and the calls of a client. Calls that access the shared versions are programs.
-/

import Mathlib.Data.List.Sort
import Wedb.KeyAgreement
import Wedb.Program

namespace Wedb.Txn

structure WatchVersionMap where
  slots : List UInt64
  mask : Nat
  globalEpoch : UInt64
  length_slots : slots.length = mask + 1

namespace WatchVersionMap

def new (capacity : Nat) : WatchVersionMap where
  slots := List.replicate (max capacity 2).nextPowerOfTwo 0
  mask := (max capacity 2).nextPowerOfTwo - 1
  globalEpoch := 0
  length_slots := by
    rw [List.length_replicate, Nat.sub_add_cancel (Nat.pos_of_isPowerOfTwo
      (Nat.isPowerOfTwo_nextPowerOfTwo _))]

variable (map : WatchVersionMap) (hash : UInt64)

def index : Nat := hash.toNat &&& map.mask

theorem index_lt : map.index hash < map.slots.length := by
  rw [map.length_slots]
  exact Nat.lt_succ_of_le Nat.and_le_right

def slot : UInt64 := map.slots.get ⟨map.index hash, map.index_lt hash⟩

/-- `read_version`. The sum wraps. -/
def readVersion : UInt64 := map.slot hash + map.globalEpoch

/-- `bump_version`: the new version and the table. The counter wraps. -/
def bumpVersion : UInt64 × WatchVersionMap :=
  (map.slot hash + 1 + map.globalEpoch, { map with
      slots := map.slots.set (map.index hash) (map.slot hash + 1)
      length_slots := by rw [List.length_set, map.length_slots] })

theorem slot_bumpVersion (other hash : UInt64) : (map.bumpVersion other).2.slot hash =
    map.slot hash + if map.index other = map.index hash then 1 else 0 := by
  have inside := map.index_lt hash
  have stored : (map.bumpVersion other).2.slot hash =
      if map.index other = map.index hash then map.slot other + 1 else map.slot hash :=
    List.getElem_set (by rw [List.length_set]; exact inside)
  rw [stored]
  split_ifs with same
  · unfold slot
    simp only [same]
  · exact (UInt64.add_zero _).symm

def bumpAll : WatchVersionMap := { map with globalEpoch := map.globalEpoch + 1 }

end WatchVersionMap

inductive Reason
  | watch (key : Bytes)
  | validate (key : Bytes)
  deriving DecidableEq

inductive VersionOp
  | read (reason : Reason) (hash : UInt64)
  | bump (hash : UInt64)
  | bumpAll
  deriving DecidableEq

namespace VersionOp

def Answer : VersionOp → Type
  | .read _ _ => UInt64
  | .bump _ => UInt64
  | .bumpAll => Unit

def exec : (op : VersionOp) → WatchVersionMap → op.Answer × WatchVersionMap
  | .read _ hash, map => (map.readVersion hash, map)
  | .bump hash, map => map.bumpVersion hash
  | .bumpAll, map => ((), map.bumpAll)

def isBump : VersionOp → Bool
  | .read _ _ => false
  | .bump _ | .bumpAll => true

def touches (mask : Nat) (hash : UInt64) : VersionOp → Bool
  | .read _ _ => false
  | .bump other => (other.toNat &&& mask) == (hash.toNat &&& mask)
  | .bumpAll => true

theorem isBump_of_touches {mask : Nat} {hash : UInt64} {op : VersionOp}
    (touches : op.touches mask hash) : op.isBump := by
  cases op with
  | read reason other => cases touches
  | bump other => rfl
  | bumpAll => rfl

@[simp] theorem exec_mask (op : VersionOp) (map : WatchVersionMap) :
    (op.exec map).2.mask = map.mask := by
  cases op <;> rfl

theorem readVersion_exec (op : VersionOp) (map : WatchVersionMap) (hash : UInt64) :
    (op.exec map).2.readVersion hash =
      map.readVersion hash + if op.touches map.mask hash = true then 1 else 0 := by
  cases op with
  | read reason other => exact (UInt64.add_zero _).symm
  | bumpAll => exact (UInt64.add_assoc _ _ _).symm
  | bump other =>
    show (map.bumpVersion other).2.slot hash + map.globalEpoch = map.slot hash + map.globalEpoch + _
    rw [map.slot_bumpVersion, UInt64.add_assoc, UInt64.add_assoc, UInt64.add_comm map.globalEpoch]
    simp only [touches, beq_iff_eq]
    rfl

end VersionOp

abbrev Access := Program VersionOp VersionOp.Answer

namespace Access

def readVersion (reason : Reason) (hash : UInt64) : Access UInt64 :=
  Program.call (VersionOp.read reason hash)

def bumpVersion (hash : UInt64) : Access UInt64 := Program.call (VersionOp.bump hash)

def bumpAll : Access Unit := Program.call VersionOp.bumpAll

end Access

open Resp Server

/-- `Error`. -/
inductive TxnError
  | nestedMulti
  | execWithoutMulti
  | queueWithoutMulti
  | discardWithoutMulti
  | watchInsideMulti
  | commandNotAllowedInTxn (name : String)
  deriving DecidableEq

structure WatchedKeyEntry where
  key : Bytes
  hash : UInt64
  version : UInt64
  isWatched : Bool
  deriving DecidableEq

structure WatchedKeysContainer where
  entries : List WatchedKeyEntry
  deriving DecidableEq

namespace WatchedKeysContainer

def new : WatchedKeysContainer := ⟨[]⟩

variable (container : WatchedKeysContainer)

/-- The entries that `filter(|e| e.is_watched)` leaves. -/
def watched : List WatchedKeyEntry := container.entries.filter WatchedKeyEntry.isWatched

def record (key : Bytes) (hash version : UInt64) : WatchedKeysContainer :=
  match container.entries.findIdx? fun entry => entry.hash = hash && entry.key = key with
  | some position =>
    ⟨container.entries.modify position fun entry =>
      { entry with version := version, isWatched := true }⟩
  | none => ⟨container.entries ++ [⟨key, hash, version, true⟩]⟩

def watch (fastHash : Bytes → UInt64) (key : Bytes) : Access WatchedKeysContainer := do
  let version ← Access.readVersion (.watch key) (fastHash key)
  pure (container.record key (fastHash key) version)

end WatchedKeysContainer

def allCurrent : List WatchedKeyEntry → Access Bool
  | [] => pure true
  | entry :: rest => do
    let version ← Access.readVersion (.validate entry.key) entry.hash
    if version = entry.version then allCurrent rest else pure false

variable (container : WatchedKeysContainer)

def WatchedKeysContainer.validateVersions : Access Bool :=
  allCurrent container.watched

def upgradeTo : LockType → LockType → LockType
  | .exclusive, _ => .exclusive
  | .shared, other => other

structure TxnKeyEntry where
  keyHash : UInt64
  lockType : LockType
  key : Option Bytes
  deriving DecidableEq

def keyLe : Option Bytes → Option Bytes → Bool
  | none, _ => true
  | some _, none => false
  | some left, some right => decide (left ≤ right)

/-- `TxnKeyComparison::compare`, as the order it stands for. -/
def TxnKeyEntry.le (left right : TxnKeyEntry) : Prop :=
  left.keyHash < right.keyHash ∨ left.keyHash = right.keyHash ∧ keyLe left.key right.key = true

instance TxnKeyEntry.decidableLe : DecidableRel TxnKeyEntry.le :=
  fun _ _ => inferInstanceAs (Decidable (_ ∨ _))

/-- Whether `sort_by_key_hash` takes two neighbours for one key. -/
def TxnKeyEntry.same (left right : TxnKeyEntry) : Bool :=
  left.keyHash = right.keyHash &&
    match left.key, right.key with
    | some first, some second => first = second
    | _, _ => true

def mergeSame (current : TxnKeyEntry) : List TxnKeyEntry → List TxnKeyEntry
  | [] => [current]
  | next :: rest =>
    if current.same next then
      mergeSame { current with
        lockType := upgradeTo current.lockType next.lockType
        key := current.key.orElse fun _ => next.key } rest
    else current :: mergeSame next rest

def sortByKeyHash (entries : List TxnKeyEntry) : List TxnKeyEntry :=
  if entries.length ≤ 1 then entries
  else
    match entries.insertionSort TxnKeyEntry.le with
    | [] => []
    | first :: rest => mergeSame first rest

def WatchedKeysContainer.saveKeysToLock (entries : List TxnKeyEntry) : List TxnKeyEntry :=
  entries ++ container.watched.map fun entry => ⟨entry.hash, .shared, none⟩

inductive TxnState
  | none
  | started
  | running
  | aborted
  deriving DecidableEq

structure TransactionManager where
  state : TxnState
  queue : List QueuedCommand
  watchedKeys : WatchedKeysContainer
  keyEntries : List TxnKeyEntry
  performWrites : Bool
  invalidateAll : Bool
  deriving DecidableEq

inductive ExecResult (α : Type)
  | success (results : α)
  | conflict
  | aborted
  deriving DecidableEq

inductive Prepared
  | aborted
  | conflict
  | running (commands : List QueuedCommand)

def isClusterSubcommand (cmd : RespCommand) : Bool :=
  RespCommand.clusterAddslots.ctorIdx ≤ cmd.ctorIdx && cmd.ctorIdx ≤ RespCommand.clusterSync.ctorIdx

def isAllowedInTxn : RespCommand → Bool
  | .none | .multi | .exec | .discard | .watch | .watchms | .watchos | .unwatch | .swapdb | .async
  | .runtxp | .commitaof | .save | .expdelscan | .registercs => false
  | cmd => !isClusterSubcommand cmd

namespace TransactionManager

def new : TransactionManager := ⟨.none, [], .new, [], false, false⟩

variable (manager : TransactionManager) (continueWatch : Bool)

def resetSession : TransactionManager :=
  { manager with
    state := .none
    queue := []
    watchedKeys := if continueWatch then manager.watchedKeys else .new
    performWrites := false
    invalidateAll := false }

def resetAll : TransactionManager :=
  { manager.resetSession continueWatch with keyEntries := [] }

def reset : TransactionManager := manager.resetAll false

def abort : TransactionManager := { manager with state := .aborted }

def multi : Except TxnError Unit × TransactionManager :=
  if manager.state ≠ .none then (.error .nestedMulti, manager.abort)
  else
    (.ok (), { manager with
      state := .started, queue := [], keyEntries := [], performWrites := false
      invalidateAll := false })

def unwatch : TransactionManager :=
  if manager.state = .none then { manager with watchedKeys := .new } else manager

def discard : Except TxnError Unit × TransactionManager :=
  if manager.state = .none then (.error .discardWithoutMulti, manager) else (.ok (), manager.reset)

variable (fastHash : Bytes → UInt64)

def watch (key : Bytes) : Access (Except TxnError Unit × TransactionManager) :=
  if manager.state ≠ .none then pure (.error .watchInsideMulti, manager)
  else do
    let watchedKeys ← manager.watchedKeys.watch fastHash key
    pure (.ok (), { manager with watchedKeys := watchedKeys })

def queueCommandWithKeyPrefix (item : QueuedCommand) (keyPrefix : Bytes) :
    Except TxnError Unit × TransactionManager :=
  if manager.state = .none ∨ manager.state = .running then (.error .queueWithoutMulti, manager)
  else if !isAllowedInTxn item.cmd then
    (.error (.commandNotAllowedInTxn item.cmd.asStr), manager.abort)
  else
    (.ok (), { manager with
      invalidateAll := manager.invalidateAll || item.cmd = .flushall || item.cmd = .flushdb
      keyEntries := manager.keyEntries ++ item.forEachKey.map fun (key, lock) =>
        ⟨fastHash (keyPrefix ++ key), lock, none⟩
      performWrites := manager.performWrites || item.cmd.isWrite
      queue := manager.queue ++ [item] })

def prepareLockset : Except TxnError Bool × TransactionManager :=
  if manager.state = .aborted then (.ok false, manager.reset)
  else if manager.state ≠ .started then (.error .execWithoutMulti, manager)
  else
    (.ok true, { manager with
      keyEntries := sortByKeyHash (manager.watchedKeys.saveKeysToLock manager.keyEntries) })

def validateWatches : Access (Bool × TransactionManager) := do
  if ← manager.watchedKeys.validateVersions then pure (true, manager)
  else pure (false, manager.resetSession false)

def beginRun : TransactionManager :=
  if manager.state = .started then { manager with state := .running } else manager

def prepareInner : Access (Except TxnError Prepared × TransactionManager) :=
  match manager.prepareLockset with
  | (.error error, manager) => pure (.error error, manager)
  | (.ok false, manager) => pure (.ok .aborted, manager)
  | (.ok true, manager) => do
    let (valid, manager) ← manager.validateWatches
    if valid then
      let manager := manager.beginRun
      pure (.ok (.running manager.queue), { manager with queue := [] })
    else pure (.ok .conflict, { manager with keyEntries := [] })

def broadcast : Access Unit :=
  if manager.invalidateAll then Access.bumpAll
  else if manager.performWrites then
    (manager.keyEntries.filter fun entry => entry.lockType = .exclusive).forM fun entry => do
      let _ ← Access.bumpVersion entry.keyHash
      pure ()
  else pure ()

def commitWithOptions : Access TransactionManager := do
  manager.broadcast
  pure (manager.resetAll continueWatch)

/-- `exec`. What else happens to the versions in the meantime are steps of others. -/
def exec {R : Type} (executor : QueuedCommand → R) :
    Access (Except TxnError (ExecResult (List R)) × TransactionManager) := do
  let (prepared, manager) ← manager.prepareInner
  match prepared with
  | .error error => pure (.error error, manager)
  | .ok .aborted => pure (.ok .aborted, manager)
  | .ok .conflict => pure (.ok .conflict, manager)
  | .ok (.running commands) => do
    let manager ← manager.commitWithOptions false
    pure (.ok (.success (commands.map executor)), manager)

end TransactionManager

inductive Call (R : Type)
  | multi
  | watch (key : Bytes)
  | unwatch
  | queueCommand (item : QueuedCommand) (keyPrefix : Bytes)
  | abort
  | discard
  | reset
  | exec (executor : QueuedCommand → R)

inductive Reply (R : Type)
  | done
  | executed (result : ExecResult (List R))
  deriving DecidableEq

abbrev Outcome (R : Type) := Except TxnError (Reply R) × TransactionManager

def settled {R : Type} (returned : Except TxnError Unit × TransactionManager) : Outcome R :=
  (returned.1.map fun _ => .done, returned.2)

def Call.program {R : Type} (fastHash : Bytes → UInt64) (manager : TransactionManager) :
    Call R → Access (Outcome R)
  | .multi => pure (settled manager.multi)
  | .watch key => do pure (settled (← manager.watch fastHash key))
  | .unwatch => pure (settled (.ok (), manager.unwatch))
  | .queueCommand item keyPrefix =>
    pure (settled (manager.queueCommandWithKeyPrefix fastHash item keyPrefix))
  | .abort => pure (settled (.ok (), manager.abort))
  | .discard => pure (settled manager.discard)
  | .reset => pure (settled (.ok (), manager.reset))
  | .exec executor => do
    let (result, manager) ← manager.exec executor
    pure (result.map .executed, manager)

end Wedb.Txn
