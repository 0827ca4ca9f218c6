/-
The log that a primary keeps for its sync sessions, which share one register: a pin lowers it, and
any session that lets go resets it.
-/

import Wedb.Bytes

namespace Wedb.Repl

/-- `u64::MAX`. -/
def u64Max : Nat := 2 ^ 64 - 1

/-- `ReplicaSessionInfo`, as far as the safe address depends on it. -/
structure ReplicaSessionInfo where
  nodeId : Bytes
  ackOffset : Nat
  lastAckTimestampMs : Nat

def ReplicaSessionInfo.isTimedOut (replica : ReplicaSessionInfo) (timeoutMs now : Nat) : Bool :=
  decide (timeoutMs < now - replica.lastAckTimestampMs)

/-- The register of the manager and its replicas, with the pins that the sync sessions hold. -/
structure LogGuard (σ : Type) where
  minServedOffset : Nat
  replicas : List ReplicaSessionInfo
  pins : List (σ × Nat)

inductive GuardCall (σ : Type)
  | pinMinServedOffset (session : σ) (offset : Nat)
  | unpinMinServedOffset (session : σ)
  | setSafeAofAddress (addr : Nat)
  | registerReplica (nodeId : Bytes) (now : Nat)
  | updateReplicaAck (nodeId : Bytes) (ackOffset now : Nat)
  | removeReplica (nodeId : Bytes)
  | evictTimedOutReplicas (timeoutMs now : Nat)
  | clearSessions

namespace LogGuard

variable {σ : Type} [DecidableEq σ]

def new : LogGuard σ := ⟨u64Max, [], []⟩

variable (guard : LogGuard σ)

def minAckOffset (defaultVal : Nat) : Nat :=
  (guard.replicas.map ReplicaSessionInfo.ackOffset).min?.getD defaultVal

/-- `get_current_safe_aof_address`: the register is read first, and the replicas later. -/
def getCurrentSafeAofAddress (first later : LogGuard σ) : Nat :=
  min first.minServedOffset (later.minAckOffset u64Max)

def step : GuardCall σ → LogGuard σ
  | .pinMinServedOffset session offset =>
    { guard with
      minServedOffset := min guard.minServedOffset offset
      pins := (session, offset) :: guard.pins }
  | .unpinMinServedOffset session =>
    { guard with minServedOffset := u64Max, pins := guard.pins.filter (·.1 ≠ session) }
  | .setSafeAofAddress addr => { guard with minServedOffset := min guard.minServedOffset addr }
  | .registerReplica nodeId now =>
    { guard with replicas := ⟨nodeId, 0, now⟩ :: guard.replicas.filter (·.nodeId ≠ nodeId) }
  | .updateReplicaAck nodeId ackOffset now =>
    { guard with
      replicas := guard.replicas.map fun replica =>
        if replica.nodeId = nodeId then ⟨nodeId, max replica.ackOffset ackOffset, now⟩
        else replica }
  | .removeReplica nodeId =>
    { guard with replicas := guard.replicas.filter (·.nodeId ≠ nodeId) }
  | .evictTimedOutReplicas timeoutMs now =>
    { guard with replicas := guard.replicas.filter fun replica =>
        !replica.isTimedOut timeoutMs now }
  | .clearSessions => { guard with replicas := [] }

/-- A session lets go of its pin only when no other session holds one. -/
def Alone : GuardCall σ → Prop
  | .unpinMinServedOffset session => ∀ pin ∈ guard.pins, pin.1 = session
  | _ => True

def Throughout (condition : LogGuard σ → GuardCall σ → Prop) :
    LogGuard σ → List (GuardCall σ) → Prop
  | _, [] => True
  | guard, call :: rest => condition guard call ∧ Throughout condition (guard.step call) rest

/-- The log is kept from every pinned offset on. -/
def Guarded : Prop := ∀ pin ∈ guard.pins, guard.minServedOffset ≤ pin.2

theorem Guarded.step {guard : LogGuard σ} (guarded : guard.Guarded) {call : GuardCall σ}
    (alone : guard.Alone call) : (guard.step call).Guarded := by
  cases call with
  | pinMinServedOffset session offset =>
    intro pin member
    rcases List.mem_cons.mp member with rfl | held
    · exact Nat.min_le_right _ _
    · exact (Nat.min_le_left _ _).trans (guarded pin held)
  | unpinMinServedOffset session =>
    intro pin member
    obtain ⟨held, other⟩ := List.mem_filter.mp member
    exact absurd (alone pin held) (of_decide_eq_true other)
  | setSafeAofAddress addr =>
    exact fun pin held => (Nat.min_le_left _ _).trans (guarded pin held)
  | _ => exact guarded

theorem Guarded.run {calls : List (GuardCall σ)} {guard : LogGuard σ} (guarded : guard.Guarded)
    (alone : guard.Throughout Alone calls) : (calls.foldl LogGuard.step guard).Guarded := by
  induction calls generalizing guard with
  | nil => exact guarded
  | cons call rest ih => exact ih (guarded.step alone.1) alone.2

/-- While a session holds a pin, the safe address is not above it. -/
theorem safeAofAddress_le_pin (calls : List (GuardCall σ)) (alone : new.Throughout Alone calls)
    {session : σ} {offset : Nat} (held : (session, offset) ∈ (calls.foldl step new).pins)
    (later : LogGuard σ) :
    getCurrentSafeAofAddress (calls.foldl step new) later ≤ offset := by
  have start : (new : LogGuard σ).Guarded := fun pin member => absurd member List.not_mem_nil
  exact (Nat.min_le_left _ _).trans (start.run alone _ held)

/-- A session that pins and lets go, and two behind it whose pins overlap. -/
def overlapping : List (GuardCall Nat) :=
  [.registerReplica [97] 0, .pinMinServedOffset 0 5, .unpinMinServedOffset 0,
    .pinMinServedOffset 1 9, .updateReplicaAck [97] 12 1, .pinMinServedOffset 0 7]

theorem safeAofAddress_le_pin_overlapping :
    getCurrentSafeAofAddress (overlapping.foldl step new) (overlapping.foldl step new) ≤ 9 := by
  refine safeAofAddress_le_pin overlapping ⟨trivial, trivial, ?_, trivial, trivial, trivial,
    trivial⟩ (show (1, 9) ∈ _ by decide) _
  show ∀ pin ∈ [(0, 5)], pin.1 = 0
  decide

/-- The second session lets go of its pin and takes that of the first one with it. -/
theorem unpin_releases_all :
    let guard := [.pinMinServedOffset 0 5, .pinMinServedOffset 1 9,
      .unpinMinServedOffset 1].foldl step (new : LogGuard Nat)
    (0, 5) ∈ guard.pins ∧ 5 < getCurrentSafeAofAddress guard guard := by
  decide

end LogGuard

end Wedb.Repl
