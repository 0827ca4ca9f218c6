/-
What WATCH promises. Any number of sessions make their calls, and writers increment versions, one
access at a time in any order. A key is touched when an increment of its slot, or of all slots,
comes after the session last read its version.
-/

import Mathlib.Data.List.DropRight
import Wedb.TransactionManager

namespace Wedb.Txn

open Resp Server List TransactionManager VersionOp

variable {ι R : Type} [DecidableEq ι]

/-- An access, and the session that made it, if it was one. -/
structure Entry (ι : Type) where
  session : Option ι
  op : VersionOp
  deriving DecidableEq

/-- A call in progress: the number of accesses before it, and what it has still to do. -/
structure Ongoing (R : Type) where
  call : Call R
  since : Nat
  rest : Access (Outcome R)

/-- A session: its manager as the last finished call left it, and the call in progress. -/
structure Session (R : Type) where
  manager : TransactionManager
  ongoing : Option (Ongoing R)

/-- The sessions, the versions they share, and the accesses so far. -/
structure Engine (ι R : Type) where
  map : WatchVersionMap
  sessions : ι → Session R
  history : List (Entry ι)

namespace Engine

def initial (map : WatchVersionMap) : Engine ι R := ⟨map, fun _ => ⟨.new, none⟩, []⟩

inductive Event (ι R : Type)
  | begins (session : ι) (call : Call R)
  | steps (session : ι)
  | answers (session : ι)
  | bumps (hash : UInt64)
  | bumpsAll

variable (fastHash : Bytes → UInt64) (engine : Engine ι R)

def accessed (who : Option ι) (op : VersionOp) : Engine ι R :=
  { engine with map := (op.exec engine.map).2, history := engine.history ++ [⟨who, op⟩] }

def put (session : ι) (state : Session R) : Engine ι R :=
  { engine with sessions := Function.update engine.sessions session state }

def step : Event ι R → Option (Engine ι R)
  | .begins session call =>
    let state := engine.sessions session
    match state.ongoing with
    | some _ => none
    | none =>
      some (engine.put session { state with
        ongoing := some ⟨call, engine.history.length, call.program fastHash state.manager⟩ })
  | .steps session =>
    let state := engine.sessions session
    match state.ongoing with
    | some ⟨call, since, .step op next⟩ =>
      some ((engine.accessed (some session) op).put session
        { state with ongoing := some ⟨call, since, next (op.exec engine.map).1⟩ })
    | _ => none
  | .answers session =>
    match (engine.sessions session).ongoing with
    | some ⟨_, _, .done outcome⟩ => some (engine.put session ⟨outcome.2, none⟩)
    | _ => none
  | .bumps hash => some (engine.accessed none (.bump hash))
  | .bumpsAll => some (engine.accessed none .bumpAll)

def run (engine : Engine ι R) (events : List (Event ι R)) : Option (Engine ι R) :=
  events.foldlM (step fastHash) engine

end Engine

def Entry.isWatch (session : ι) (key : Bytes) (entry : Entry ι) : Bool :=
  entry.session = some session &&
    match entry.op with
    | .read (.watch other) _ => other = key
    | _ => false

def sinceWatch (session : ι) (key : Bytes) (history : List (Entry ι)) : List (Entry ι) :=
  history.rtakeWhile fun entry => !entry.isWatch session key

/-- The slot of a key, or all slots, were incremented since a session last watched it. -/
def Touched (mask : Nat) (hash : UInt64) (session : ι) (key : Bytes)
    (history : List (Entry ι)) : Prop :=
  ∃ entry ∈ sinceWatch session key history, entry.op.touches mask hash = true

def touchCount (mask : Nat) (hash : UInt64) (session : ι) (key : Bytes)
    (history : List (Entry ι)) : Nat :=
  (sinceWatch session key history).countP fun entry => entry.op.touches mask hash

def bumpCount (history : List (Entry ι)) : Nat := history.countP fun entry => entry.op.isBump

section Touched

variable {mask : Nat} {hash : UInt64} {session : ι} {key : Bytes} {history : List (Entry ι)}
variable {entry : Entry ι}

theorem touched_iff : Touched mask hash session key history ↔
    touchCount mask hash session key history ≠ 0 := by
  rw [← Nat.pos_iff_ne_zero, touchCount, countP_pos_iff]
  rfl

theorem sinceWatch_concat_watch (watch : entry.isWatch session key) :
    sinceWatch session key (history ++ [entry]) = [] :=
  rtakeWhile_concat_neg _ _ _ (by rw [watch]; exact Bool.false_ne_true)

theorem sinceWatch_concat (other : entry.isWatch session key = false) :
    sinceWatch session key (history ++ [entry]) = sinceWatch session key history ++ [entry] :=
  rtakeWhile_concat_pos _ _ _ (by rw [other]; rfl)

theorem touchCount_concat (other : entry.isWatch session key = false) :
    touchCount mask hash session key (history ++ [entry]) =
      touchCount mask hash session key history +
        if entry.op.touches mask hash = true then 1 else 0 := by
  rw [touchCount, sinceWatch_concat other, countP_append, countP_singleton]
  rfl

theorem touchCount_le_bumpCount : touchCount mask hash session key history ≤ bumpCount history :=
  calc touchCount mask hash session key history
    _ ≤ bumpCount (sinceWatch session key history) :=
      countP_mono_left fun _ _ touches => isBump_of_touches touches
    _ ≤ bumpCount history := (rtakeWhile_suffix _ _).sublist.countP_le

end Touched

variable {fastHash : Bytes → UInt64} {map : WatchVersionMap} {history : List (Entry ι)}
variable {session : ι}

variable (fastHash map history session) in
/-- The version of a watched key, raised by the increments since its WATCH, is the one in the map.
-/
structure Tracks (kept : WatchedKeyEntry) : Prop where
  hash : kept.hash = fastHash kept.key
  version : kept.version + UInt64.ofNat (touchCount map.mask kept.hash session kept.key history) =
      map.readVersion kept.hash

variable {kept : WatchedKeyEntry}

theorem Tracks.accessed (tracks : Tracks fastHash map history session kept) (entry : Entry ι)
    (other : entry.isWatch session kept.key = false) :
    Tracks fastHash (entry.op.exec map).2 (history ++ [entry]) session kept where
  hash := tracks.hash
  version := by
    rw [exec_mask, touchCount_concat other, readVersion_exec, ← tracks.version,
      UInt64.ofNat_add, UInt64.add_assoc]
    split_ifs <;> rfl

theorem Tracks.current_iff
    (tracks : Tracks fastHash map history session kept) (few : bumpCount history < 2 ^ 64) :
    map.readVersion kept.hash = kept.version ↔
      ¬Touched map.mask (fastHash kept.key) session kept.key history := by
  rw [touched_iff, not_not, ← tracks.hash, ← tracks.version]
  generalize counted : touchCount map.mask kept.hash session kept.key history = count
  have small : count < 2 ^ 64 := counted ▸ Nat.lt_of_le_of_lt touchCount_le_bumpCount few
  constructor
  · intro same
    have value := congrArg UInt64.toNat (UInt64.add_eq_left.mp same)
    rw [UInt64.toNat_ofNat', Nat.mod_eq_of_lt small] at value
    exact value
  · rintro rfl
    exact UInt64.add_zero _

variable (fastHash map history session) in
structure Tracked (container : WatchedKeysContainer) : Prop where
  each : ∀ kept ∈ container.entries, Tracks fastHash map history session kept
  nodup : (container.entries.map WatchedKeyEntry.key).Nodup

theorem Tracked.new : Tracked fastHash map history session .new :=
  ⟨fun _ member => absurd member not_mem_nil, nodup_nil⟩

variable {container : WatchedKeysContainer}

theorem Tracked.accessed
    (tracked : Tracked fastHash map history session container) (entry : Entry ι)
    (other : ∀ key, entry.isWatch session key = false) :
    Tracked fastHash (entry.op.exec map).2 (history ++ [entry]) session container where
  each kept member := (tracked.each kept member).accessed entry (other kept.key)
  nodup := tracked.nodup

abbrev watchEntry (session : ι) (key : Bytes) (hash : UInt64) : Entry ι :=
  ⟨some session, .read (.watch key) hash⟩

theorem isWatch_watchEntry (session : ι) (key other : Bytes) (hash : UInt64) :
    (watchEntry session key hash).isWatch session other = decide (key = other) := by
  simp [Entry.isWatch]

theorem tracks_of_watch (kept : WatchedKeyEntry) {key : Bytes} (named : kept.key = key)
    (hash : kept.hash = fastHash key) (version : kept.version = map.readVersion (fastHash key)) :
    Tracks fastHash map (history ++ [watchEntry session key (fastHash key)]) session kept where
  hash := named ▸ hash
  version := by
    have watch : (watchEntry session key (fastHash key)).isWatch session kept.key := by
      rw [isWatch_watchEntry, named, decide_eq_true rfl]
    rw [touchCount, sinceWatch_concat_watch watch, version, hash]
    exact UInt64.add_zero _

theorem Tracks.watched {key : Bytes} {hash : UInt64}
    (tracks : Tracks fastHash map history session kept) (other : kept.key ≠ key) :
    Tracks fastHash map (history ++ [watchEntry session key hash]) session kept := by
  refine tracks.accessed (watchEntry session key hash) ?_
  rw [isWatch_watchEntry]
  exact decide_eq_false fun same => other same.symm

theorem Tracked.record (tracked : Tracked fastHash map history session container) (key : Bytes) :
    Tracked fastHash map (history ++ [watchEntry session key (fastHash key)]) session
      (container.record key (fastHash key) (map.readVersion (fastHash key))) := by
  unfold WatchedKeysContainer.record
  cases found : container.entries.findIdx? fun entry =>
      entry.hash = fastHash key && entry.key = key with
  | none =>
    have absent : ∀ kept ∈ container.entries, kept.key ≠ key := by
      intro kept member same
      have missed := findIdx?_eq_none_iff.mp found kept member
      rw [(tracked.each kept member).hash, same] at missed
      simp at missed
    refine ⟨fun kept member => ?_, ?_⟩
    · rcases mem_append.mp member with old | new
      · exact (tracked.each kept old).watched (absent kept old)
      · rw [mem_singleton.mp new]
        exact tracks_of_watch _ rfl rfl rfl
    · rw [map_append, nodup_append]
      refine ⟨tracked.nodup, nodup_singleton _, fun old isOld new isNew => ?_⟩
      obtain ⟨kept, member, rfl⟩ := mem_map.mp isOld
      rw [mem_singleton.mp isNew]
      exact absent kept member
  | some position =>
    obtain ⟨inside, matched, -⟩ := findIdx?_eq_some_iff_getElem.mp found
    rw [Bool.and_eq_true, decide_eq_true_eq, decide_eq_true_eq] at matched
    refine ⟨fun kept member => ?_, ?_⟩
    · obtain ⟨index, within, rfl⟩ := mem_iff_getElem.mp member
      rw [getElem_modify]
      rw [length_modify] at within
      split_ifs with same
      · subst same
        exact tracks_of_watch _ matched.2 matched.1 rfl
      · refine (tracked.each _ (getElem_mem within)).watched fun sameKey => same ?_
        rw [← matched.2] at sameKey
        have keys position (inside : position < container.entries.length) :
            (container.entries.map WatchedKeyEntry.key)[position]? =
              some container.entries[position].key := by
          rw [getElem?_map, getElem?_eq_getElem inside]
          rfl
        refine (getElem?_inj ?_ tracked.nodup).mp ?_
        · rw [length_map]
          exact inside
        · rw [keys position inside, keys index within, sameKey]
    · dsimp only
      rw [map_modify_of_keeps]
      · exact tracked.nodup
      · exact fun _ => rfl

/-- No transaction and nothing watched. -/
structure TransactionManager.Cleared (manager : TransactionManager) : Prop where
  state : manager.state = .none
  queue : manager.queue = []
  watchedKeys : manager.watchedKeys.entries = []
  keyEntries : manager.keyEntries = []

variable {manager : TransactionManager}

theorem TransactionManager.Cleared.tracked
    (cleared : manager.Cleared) : Tracked fastHash map history session manager.watchedKeys := by
  refine ⟨fun kept member => ?_, ?_⟩
  · rw [cleared.watchedKeys] at member
    exact absurd member not_mem_nil
  · rw [cleared.watchedKeys]
    exact nodup_nil

def TransactionManager.afterCheck (manager : TransactionManager) (executor : QueuedCommand → R)
    (valid : Bool) : Access (Outcome R) :=
  let prepared := { manager with
    keyEntries := sortByKeyHash (manager.watchedKeys.saveKeysToLock manager.keyEntries) }
  if valid then do
    let running := { prepared.beginRun with queue := [] }
    running.broadcast
    pure (.ok (.executed (.success (prepared.beginRun.queue.map executor))), running.resetAll false)
  else
    pure (.ok (.executed .conflict), { prepared.resetSession false with keyEntries := [] })

variable (executor : QueuedCommand → R)

theorem program_exec_of_started
    (started : manager.state = .started) : (Call.exec executor).program fastHash manager =
      allCurrent manager.watchedKeys.watched >>= manager.afterCheck executor := by
  unfold Call.program TransactionManager.exec prepareInner prepareLockset
  rw [if_neg (by rw [started]; decide), if_neg (not_not.mpr started)]
  unfold validateWatches WatchedKeysContainer.validateVersions
  simp only [bind_assoc]
  refine bind_congr fun valid => ?_
  cases valid with
  | false => rfl
  | true =>
    show ((broadcast _ >>= _) >>= _) >>= _ = _
    rw [bind_assoc, bind_assoc]
    rfl

theorem program_watch_of_idle (key : Bytes)
    (idle : manager.state = .none) : (Call.watch key : Call R).program fastHash manager =
      .step (.read (.watch key) (fastHash key)) fun version =>
        .done (settled (.ok (), { manager with
          watchedKeys := manager.watchedKeys.record key (fastHash key) version })) := by
  dsimp only [Call.program, TransactionManager.watch]
  rw [if_neg (not_not.mpr idle)]
  rfl

variable (manager)

theorem afterCheck_false : ∃ after, after.Cleared ∧ manager.afterCheck executor false =
      .done (.ok (.executed .conflict), after) :=
  ⟨_, ⟨rfl, rfl, rfl, rfl⟩, rfl⟩

theorem broadcast_only : manager.broadcast.Only fun op => op.isBump := by
  unfold broadcast
  split_ifs
  · exact ⟨rfl, fun _ => trivial⟩
  · generalize manager.keyEntries.filter _ = entries
    induction entries with
    | nil => trivial
    | cons entry rest ih =>
      exact Program.Only.bind ⟨rfl, fun _ => trivial⟩ fun _ => ih
  · trivial

theorem afterCheck_true : (manager.afterCheck executor true).Only (fun op => op.isBump) ∧
      (manager.afterCheck executor true).Ends fun outcome =>
        (∃ results, outcome.1 = .ok (.executed (.success results))) ∧ outcome.2.Cleared := by
  constructor
  · exact (broadcast_only _).bind fun _ => trivial
  · exact Program.ends_bind _ fun _ => ⟨⟨_, rfl⟩, rfl, rfl, rfl, rfl⟩

abbrev validateEntry (session : ι) (kept : WatchedKeyEntry) : Entry ι :=
  ⟨some session, .read (.validate kept.key) kept.hash⟩

/-- A session has compared a watched key at some time of its last EXEC, which began at `since`. -/
def ValidatedAt (history : List (Entry ι)) (session : ι) (since : Nat) (kept : WatchedKeyEntry)
    (time : Nat) : Prop :=
  since ≤ time ∧ history[time]? = some (validateEntry session kept)

/-- A key that was compared after an increment of its version, which came after its WATCH. -/
def Stale (fastHash : Bytes → UInt64) (mask : Nat) (history : List (Entry ι)) (session : ι)
    (since : Nat) (kept : WatchedKeyEntry) : Prop :=
  ∃ time, ValidatedAt history session since kept time ∧
    Touched mask (fastHash kept.key) session kept.key (history.take time)

/-- What an EXEC has found so far: each key is compared or still to be, and none was stale. -/
structure Checked (fastHash : Bytes → UInt64) (mask : Nat) (history : List (Entry ι))
    (session : ι) (since : Nat) (watched rest : List WatchedKeyEntry) : Prop where
  validated : ∀ kept ∈ watched, kept ∈ rest ∨ ∃ time, ValidatedAt history session since kept time
  fresh : ∀ kept ∈ watched, ¬Stale fastHash mask history session since kept

section Checked

variable {mask since : Nat} {watched rest : List WatchedKeyEntry} {entry : Entry ι}
variable {kept : WatchedKeyEntry} {time : Nat}

omit [DecidableEq ι] in
theorem ValidatedAt.lt (validated : ValidatedAt history session since kept time) :
    time < history.length :=
  (List.getElem?_eq_some_iff.mp validated.2).1

omit [DecidableEq ι] in
theorem ValidatedAt.append (validated : ValidatedAt history session since kept time) :
    ValidatedAt (history ++ [entry]) session since kept time :=
  ⟨validated.1, by rw [getElem?_append_left validated.lt, validated.2]⟩

theorem stale_append_iff : Stale fastHash mask (history ++ [entry]) session since kept ↔
    Stale fastHash mask history session since kept ∨
      since ≤ history.length ∧ entry = validateEntry session kept ∧
        Touched mask (fastHash kept.key) session kept.key history := by
  constructor
  · rintro ⟨time, ⟨begun, there⟩, touched⟩
    rcases Nat.lt_trichotomy time history.length with before | rfl | beyond
    · rw [getElem?_append_left before] at there
      rw [take_append_of_le_length (Nat.le_of_lt before)] at touched
      exact .inl ⟨time, ⟨begun, there⟩, touched⟩
    · rw [getElem?_concat_length] at there
      rw [take_left] at touched
      exact .inr ⟨begun, Option.some.inj there, touched⟩
    · rw [getElem?_eq_none (by rw [length_append]; exact beyond)] at there
      cases there
  · rintro (⟨time, validated, touched⟩ | ⟨begun, rfl, touched⟩)
    · refine ⟨time, validated.append, ?_⟩
      rw [take_append_of_le_length (Nat.le_of_lt validated.lt)]
      exact touched
    · refine ⟨history.length, ⟨begun, getElem?_concat_length⟩, ?_⟩
      rw [take_left]
      exact touched

theorem Checked.append (checked : Checked fastHash mask history session since watched rest)
    (other : ∀ kept, entry ≠ validateEntry session kept) :
    Checked fastHash mask (history ++ [entry]) session since watched rest where
  validated kept member := (checked.validated kept member).imp_right
    fun ⟨time, validated⟩ => ⟨time, validated.append⟩
  fresh kept member stale := by
    rcases stale_append_iff.mp stale with before | ⟨-, same, -⟩
    · exact checked.fresh kept member before
    · exact other kept same

theorem Checked.compare (checked : Checked fastHash mask history session since watched
    (kept :: rest)) (begun : since ≤ history.length)
    (untouched : ¬Touched mask (fastHash kept.key) session kept.key history) :
    Checked fastHash mask (history ++ [validateEntry session kept]) session since watched rest where
  validated other member := by
    rcases checked.validated other member with listed | ⟨time, validated⟩
    · rcases mem_cons.mp listed with rfl | later
      · exact .inr ⟨history.length, begun, getElem?_concat_length⟩
      · exact .inl later
    · exact .inr ⟨time, validated.append⟩
  fresh other member stale := by
    rcases stale_append_iff.mp stale with before | ⟨-, same, touched⟩
    · exact checked.fresh other member before
    · injection same with _ sameOp
      injection sameOp with sameReason _
      injection sameReason with sameKey
      exact untouched (sameKey ▸ touched)

end Checked

def Call.isExec : Call R → Bool
  | .exec _ => true
  | _ => false

variable (fastHash map history session) (since : Nat) in
/-- How far a call has come, and what is known of the watched keys there. -/
inductive Progress : Call R → Access (Outcome R) → Prop
  | watching {key : Bytes} (idle : manager.state = .none)
      (tracked : Tracked fastHash map history session manager.watchedKeys) :
      Progress (.watch key) ((Call.watch key).program fastHash manager)
  | ended {call : Call R} {outcome : Outcome R} (plain : call.isExec = false)
      (tracked : Tracked fastHash map history session outcome.2.watchedKeys) :
      Progress call (.done outcome)
  | refused {executor : QueuedCommand → R} {error : TxnError}
      (idle : manager.state ≠ .started)
      (tracked : Tracked fastHash map history session manager.watchedKeys) :
      Progress (.exec executor) (.done (.error error, manager))
  | aborted {executor : QueuedCommand → R} {after : TransactionManager}
      (idle : manager.state ≠ .started) (cleared : after.Cleared) :
      Progress (.exec executor) (.done (.ok (.executed .aborted), after))
  | checking {executor : QueuedCommand → R} {kept : WatchedKeyEntry}
      {rest : List WatchedKeyEntry} (begun : since ≤ history.length)
      (tracked : Tracked fastHash map history session manager.watchedKeys)
      (remaining : ∀ other ∈ kept :: rest, other ∈ manager.watchedKeys.watched)
      (checked : Checked fastHash map.mask history session since manager.watchedKeys.watched
        (kept :: rest)) :
      Progress (.exec executor) (allCurrent (kept :: rest) >>= manager.afterCheck executor)
  | conflicted {executor : QueuedCommand → R} {after : TransactionManager}
      (stale : ∃ kept ∈ manager.watchedKeys.watched,
        Stale fastHash map.mask history session since kept) (cleared : after.Cleared) :
      Progress (.exec executor) (.done (.ok (.executed .conflict), after))
  | committing {executor : QueuedCommand → R} {rest : Access (Outcome R)}
      (checked : Checked fastHash map.mask history session since manager.watchedKeys.watched [])
      (bumps : rest.Only fun op => op.isBump = true)
      (ends : rest.Ends fun outcome =>
        (∃ results, outcome.1 = .ok (.executed (.success results))) ∧ outcome.2.Cleared) :
      Progress (.exec executor) rest

namespace Progress

variable {manager : TransactionManager} {since : Nat} {call : Call R}
variable {rest : Access (Outcome R)} {entry : Entry ι}

theorem goOn {executor : QueuedCommand → R} {remaining : List WatchedKeyEntry}
    (begun : since ≤ history.length)
    (tracked : Tracked fastHash map history session manager.watchedKeys)
    (listed : ∀ other ∈ remaining, other ∈ manager.watchedKeys.watched)
    (checked : Checked fastHash map.mask history session since manager.watchedKeys.watched
      remaining) :
    Progress fastHash map history session manager since (.exec executor)
      (allCurrent remaining >>= manager.afterCheck executor) := by
  cases remaining with
  | nil =>
    obtain ⟨bumps, ends⟩ := afterCheck_true manager executor
    exact .committing checked bumps ends
  | cons kept rest => exact .checking begun tracked listed checked

theorem start (tracked : Tracked fastHash map history session manager.watchedKeys)
    (call : Call R) : Progress fastHash map history session manager history.length call
      (call.program fastHash manager) := by
  cases call with
  | multi =>
    refine .ended rfl ?_
    unfold TransactionManager.multi
    split_ifs <;> exact tracked
  | watch key =>
    by_cases idle : manager.state = .none
    · exact .watching idle tracked
    · have busy : manager.state ≠ .none := idle
      dsimp only [Call.program, TransactionManager.watch]
      rw [if_pos busy]
      exact .ended rfl tracked
  | unwatch =>
    refine .ended rfl ?_
    dsimp only [settled, TransactionManager.unwatch]
    split_ifs
    · exact .new
    · exact tracked
  | queueCommand item keyPrefix =>
    refine .ended rfl ?_
    unfold queueCommandWithKeyPrefix
    split_ifs <;> exact tracked
  | abort => exact .ended rfl tracked
  | discard =>
    refine .ended rfl ?_
    unfold TransactionManager.discard
    split_ifs
    · exact tracked
    · exact .new
  | reset => exact .ended rfl .new
  | exec executor =>
    by_cases started : manager.state = .started
    · rw [program_exec_of_started executor started]
      refine goOn le_rfl tracked (fun _ member => member) ⟨fun _ member => .inl member, ?_⟩
      rintro kept - ⟨time, validated, -⟩
      exact absurd validated.1 (Nat.not_le_of_lt validated.lt)
    · unfold Call.program TransactionManager.exec prepareInner prepareLockset
      split_ifs
      · exact .aborted started ⟨rfl, rfl, rfl, rfl⟩
      · exact .refused started tracked

section

variable (progress : Progress fastHash map history session manager since call rest)

include progress

theorem accessed (foreign : entry.session ≠ some session) :
    Progress fastHash (entry.op.exec map).2 (history ++ [entry]) session manager since call
      rest := by
  have noWatch key : entry.isWatch session key = false := by
    rw [Entry.isWatch, decide_eq_false foreign]
    rfl
  have noCheck kept : entry ≠ validateEntry session kept :=
    fun same => foreign (congrArg Entry.session same)
  cases progress with
  | watching idle tracked => exact .watching idle (tracked.accessed entry noWatch)
  | ended plain tracked => exact .ended plain (tracked.accessed entry noWatch)
  | refused idle tracked => exact .refused idle (tracked.accessed entry noWatch)
  | aborted idle cleared => exact .aborted idle cleared
  | checking begun tracked remaining checked =>
    refine .checking ?_ (tracked.accessed entry noWatch) remaining ?_
    · rw [length_append]
      exact Nat.le_add_right_of_le begun
    · rw [exec_mask]
      exact checked.append noCheck
  | conflicted stale cleared =>
    obtain ⟨kept, member, stale⟩ := stale
    refine .conflicted ⟨kept, member, ?_⟩ cleared
    rw [exec_mask]
    exact stale_append_iff.mpr (.inl stale)
  | committing checked bumps ends =>
    refine .committing ?_ bumps ends
    rw [exec_mask]
    exact checked.append noCheck

theorem advance {op : VersionOp} {next : op.Answer → Access (Outcome R)}
    (more : rest = .step op next) (few : bumpCount history < 2 ^ 64) :
    Progress fastHash (op.exec map).2 (history ++ [⟨some session, op⟩]) session manager since call
      (next (op.exec map).1) := by
  cases progress with
  | watching idle tracked =>
    rename_i key
    rw [program_watch_of_idle key idle] at more
    cases more
    exact .ended rfl (tracked.record key)
  | ended plain tracked => cases more
  | refused idle tracked => cases more
  | aborted idle cleared => cases more
  | checking begun tracked remaining checked =>
    rename_i executor kept rest
    have shape : allCurrent (kept :: rest) >>= manager.afterCheck executor =
        .step (.read (.validate kept.key) kept.hash) fun version : UInt64 =>
          (if version = kept.version then allCurrent rest else pure false) >>=
            manager.afterCheck executor := rfl
    rw [shape] at more
    cases more
    have watched := remaining kept mem_cons_self
    have tracks := tracked.each kept (mem_of_mem_filter watched)
    dsimp only [VersionOp.exec]
    by_cases current : map.readVersion kept.hash = kept.version
    · have untouched := (tracks.current_iff few).mp current
      rw [if_pos current]
      refine goOn ?_ ?_ (fun other later => remaining other (mem_cons_of_mem _ later)) ?_
      · rw [length_append]
        exact Nat.le_add_right_of_le begun
      · refine tracked.accessed (validateEntry session kept) fun key => ?_
        rw [Entry.isWatch, Bool.and_false]
      · exact checked.compare begun untouched
    · have touched := not_not.mp (mt (tracks.current_iff few).mpr current)
      obtain ⟨after, cleared, finished⟩ := afterCheck_false manager executor
      rw [if_neg current]
      show Progress _ _ _ _ _ _ _ (manager.afterCheck executor false)
      rw [finished]
      exact .conflicted ⟨kept, watched, stale_append_iff.mpr (.inr ⟨begun, rfl, touched⟩)⟩ cleared
  | conflicted stale cleared => cases more
  | committing checked bumps ends =>
    subst more
    refine .committing ?_ (bumps.2 _) (ends _)
    rw [exec_mask]
    refine checked.append fun kept same => ?_
    cases same
    cases bumps.1

end

theorem tracked_of_done {outcome : Outcome R}
    (progress : Progress fastHash map history session manager since call (.done outcome)) :
    Tracked fastHash map history session outcome.2.watchedKeys := by
  generalize finished : (Program.done outcome : Access (Outcome R)) = rest at progress
  cases progress with
  | watching idle tracked =>
    rename_i key
    rw [program_watch_of_idle key idle] at finished
    cases finished
  | ended plain tracked =>
    cases finished
    exact tracked
  | refused idle tracked =>
    cases finished
    exact tracked
  | aborted idle cleared =>
    cases finished
    exact cleared.tracked
  | checking begun tracked remaining checked => cases finished
  | conflicted stale cleared =>
    cases finished
    exact cleared.tracked
  | committing checked bumps ends =>
    subst finished
    exact ends.2.tracked

end Progress

variable (fastHash map history session) in
structure Session.Sound (state : Session R) : Prop where
  idle : state.ongoing = none → Tracked fastHash map history session state.manager.watchedKeys
  busy : ∀ ongoing, state.ongoing = some ongoing →
    Progress fastHash map history session state.manager ongoing.since ongoing.call ongoing.rest

theorem Session.Sound.accessed {state : Session R}
    (sound : state.Sound fastHash map history session) (entry : Entry ι)
    (foreign : entry.session ≠ some session) :
    state.Sound fastHash (entry.op.exec map).2 (history ++ [entry]) session where
  idle none := (sound.idle none).accessed entry fun key => by
    rw [Entry.isWatch, decide_eq_false foreign, Bool.false_and]
  busy ongoing some := (sound.busy ongoing some).accessed foreign

namespace Engine

def Sound (fastHash : Bytes → UInt64) (engine : Engine ι R) : Prop :=
  ∀ session, (engine.sessions session).Sound fastHash engine.map engine.history session

variable {engine after : Engine ι R}

theorem initial_sound (map : WatchVersionMap) : (initial map : Engine ι R).Sound fastHash :=
  fun _ => ⟨fun _ => .new, fun _ absent => absurd absent.symm (Option.some_ne_none _)⟩

theorem Sound.put (sound : engine.Sound fastHash) {state : Session R}
    (replaced : state.Sound fastHash engine.map engine.history session) :
    (engine.put session state).Sound fastHash := by
  intro other
  dsimp only [Engine.put]
  obtain rfl | same := eq_or_ne other session
  · rw [Function.update_self]
    exact replaced
  · rw [Function.update_of_ne same]
    exact sound other

theorem Sound.accessed (sound : engine.Sound fastHash) (op : VersionOp) :
    (engine.accessed none op).Sound fastHash :=
  fun session => (sound session).accessed ⟨none, op⟩ (Option.some_ne_none session).symm

theorem step_follows {event : Event ι R} (stepped : engine.step fastHash event = some after) :
    engine.history <+: after.history ∧
      (engine.Sound fastHash → bumpCount engine.history < 2 ^ 64 → after.Sound fastHash) := by
  cases event with
  | begins session call =>
    dsimp only [Engine.step] at stepped
    split at stepped
    · cases stepped
    · rename_i idle
      cases stepped
      refine ⟨prefix_refl _, fun sound few => sound.put
        ⟨fun absent => absurd absent (Option.some_ne_none _), fun ongoing begun => ?_⟩⟩
      cases begun
      exact .start ((sound session).idle idle) call
  | steps session =>
    dsimp only [Engine.step] at stepped
    split at stepped
    · rename_i call since op next busy
      cases stepped
      refine ⟨prefix_append _ _, fun sound few other => ?_⟩
      have progress := (sound session).busy _ busy
      dsimp only [Engine.put, Engine.accessed]
      obtain rfl | same := eq_or_ne other session
      · rw [Function.update_self]
        refine ⟨fun absent => absurd absent (Option.some_ne_none _), fun ongoing advanced => ?_⟩
        cases advanced
        exact progress.advance rfl few
      · rw [Function.update_of_ne same]
        exact (sound other).accessed ⟨some session, op⟩ fun equal =>
          same (Option.some.inj equal).symm
    · cases stepped
  | answers session =>
    dsimp only [Engine.step] at stepped
    split at stepped
    · rename_i call since outcome busy
      cases stepped
      refine ⟨prefix_refl _, fun sound few => sound.put
        ⟨fun _ => ?_, fun _ absent => absurd absent.symm (Option.some_ne_none _)⟩⟩
      exact ((sound session).busy _ busy).tracked_of_done
    · cases stepped
  | bumps hash =>
    cases stepped
    exact ⟨prefix_append _ _, fun sound _ => sound.accessed (.bump hash)⟩
  | bumpsAll =>
    cases stepped
    exact ⟨prefix_append _ _, fun sound _ => sound.accessed .bumpAll⟩

/-- A run of fewer increments than there are versions keeps the sessions sound. -/
theorem sound_of_run {events : List (Event ι R)}
    (sound : bumpCount engine.history < 2 ^ 64 → engine.Sound fastHash)
    (reached : engine.run fastHash events = some after)
    (few : bumpCount after.history < 2 ^ 64) : after.Sound fastHash := by
  induction events generalizing engine with
  | nil =>
    cases reached
    exact sound few
  | cons event rest ih =>
    obtain ⟨middle, stepped, rested⟩ := Option.bind_eq_some_iff.mp reached
    refine ih (fun fewer => ?_) rested
    have fewest : bumpCount engine.history < 2 ^ 64 :=
      Nat.lt_of_le_of_lt (step_follows stepped).1.sublist.countP_le fewer
    exact (step_follows stepped).2 (sound fewest) fewest

end Engine

/-- In every run with fewer increments than versions, EXEC ends with a conflict exactly when a
watched key was compared after something had touched it; otherwise it compares all, and if it does
not fail nothing is left of the transaction. -/
theorem exec_conflict_iff (fastHash : Bytes → UInt64) (map : WatchVersionMap)
    (events : List (Engine.Event ι R)) (engine : Engine ι R)
    (reached : (Engine.initial map).run fastHash events = some engine)
    (few : bumpCount engine.history < 2 ^ 64) (session : ι) (executor : QueuedCommand → R)
    (since : Nat) (reply : Except TxnError (Reply R)) (after : TransactionManager)
    (ended : (engine.sessions session).ongoing =
      some ⟨.exec executor, since, .done (reply, after)⟩) :
    let manager := (engine.sessions session).manager
    (manager.state = .started →
      (reply = .ok (.executed .conflict) ↔ ∃ kept ∈ manager.watchedKeys.watched,
        Stale fastHash engine.map.mask engine.history session since kept) ∧
      (reply ≠ .ok (.executed .conflict) → ∀ kept ∈ manager.watchedKeys.watched,
        ∃ time, ValidatedAt engine.history session since kept time)) ∧
    ∀ result, reply = .ok (.executed result) → after.Cleared := by
  intro manager
  have sound := Engine.sound_of_run (fun _ => Engine.initial_sound map) reached few
  have progress := (sound session).busy _ ended
  generalize finished : (Program.done (reply, after) : Access (Outcome R)) = rest at progress
  generalize named : Call.exec executor = call at progress
  cases progress with
  | watching idle tracked => cases named
  | ended plain tracked =>
    rw [← named] at plain
    cases plain
  | refused idle tracked =>
    cases finished
    exact ⟨fun started => absurd started idle, fun _ answered => by cases answered⟩
  | aborted idle cleared =>
    cases finished
    exact ⟨fun started => absurd started idle, fun _ _ => cleared⟩
  | checking begun tracked remaining checked => cases finished
  | conflicted stale cleared =>
    cases finished
    exact ⟨fun _ => ⟨iff_of_true rfl stale, fun other => absurd rfl other⟩, fun _ _ => cleared⟩
  | committing checked bumps ends =>
    subst finished
    obtain ⟨⟨results, succeeded⟩, cleared⟩ := ends
    dsimp only at succeeded cleared
    refine ⟨fun _ => ⟨iff_of_false (fun conflict => ?_) ?_, fun _ kept member => ?_⟩,
      fun _ _ => cleared⟩
    · rw [succeeded] at conflict
      cases conflict
    · rintro ⟨kept, member, stale⟩
      exact checked.fresh kept member stale
    · exact (checked.validated kept member).resolve_left List.not_mem_nil

def lengthHash (key : Bytes) : UInt64 := UInt64.ofNat key.length

def disturbed : List (Engine.Event Bool Unit) :=
  [.begins true (.watch [97]), .steps true, .answers true, .begins true .multi, .answers true,
    .bumps 3, .begins true (.exec fun _ => ()), .steps true]

theorem exec_conflict_iff_disturbed : ∃ engine : Engine Bool Unit,
      (Engine.initial ⟨[0, 0], 1, 0, rfl⟩).run lengthHash disturbed = some engine ∧
        (engine.sessions true).manager.state = .started ∧
        ∃ kept ∈ (engine.sessions true).manager.watchedKeys.watched,
          Stale lengthHash engine.map.mask engine.history true 2 kept := by
  refine ⟨_, rfl, rfl, ?_⟩
  refine ((exec_conflict_iff lengthHash ⟨[0, 0], 1, 0, rfl⟩ disturbed _ rfl (by decide) true
    (fun _ => ()) 2 (.ok (.executed .conflict)) .new ?_).1 rfl).1.mp rfl
  rfl

end Wedb.Txn
