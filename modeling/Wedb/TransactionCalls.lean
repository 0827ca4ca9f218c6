/-
The state machine of a transaction manager. Other sessions change the versions at any time, so a
call is followed on any answers. A ledger says what was queued and watched.
-/

import Wedb.WatchConflict

namespace Wedb.Txn

open Resp Server List TransactionManager VersionOp

instance : Std.Total TxnKeyEntry.le where
  total left right := by
    by_cases same : left.keyHash = right.keyHash
    · have keys : keyLe left.key right.key = true ∨ keyLe right.key left.key = true := by
        cases left.key <;> cases right.key <;> simp [keyLe, List.le_total]
      exact keys.imp (.inr ⟨same, ·⟩) (.inr ⟨same.symm, ·⟩)
    · exact (UInt64.lt_or_lt_of_ne same).imp .inl .inl

instance : IsTrans TxnKeyEntry TxnKeyEntry.le where
  trans first second third := by
    rintro (less | ⟨same, keys⟩) (more | ⟨alike, others⟩)
    · exact .inl (UInt64.lt_trans less more)
    · exact .inl (alike ▸ less)
    · exact .inl (same ▸ more)
    · refine .inr ⟨same.trans alike, ?_⟩
      revert keys others
      cases first.key <;> cases second.key <;> cases third.key <;> simp [keyLe]
      exact List.le_trans

def exclusives (entries : List TxnKeyEntry) : List UInt64 :=
  (entries.filter fun entry => entry.lockType = .exclusive).map TxnKeyEntry.keyHash

structure IsLockset (asked lockset : List TxnKeyEntry) : Prop where
  ascending : (lockset.map TxnKeyEntry.keyHash).Pairwise (· < ·)
  hashes : ∀ hash, hash ∈ lockset.map TxnKeyEntry.keyHash ↔ hash ∈ asked.map TxnKeyEntry.keyHash
  exclusive : ∀ hash, hash ∈ exclusives lockset ↔ hash ∈ exclusives asked

variable {current : TxnKeyEntry} {entries rest : List TxnKeyEntry}

theorem isLockset_singleton (entry : TxnKeyEntry) : IsLockset [entry] [entry] :=
  ⟨pairwise_singleton _ _, fun _ => Iff.rfl, fun _ => Iff.rfl⟩

theorem mem_exclusives_cons {hash : UInt64} : hash ∈ exclusives (current :: rest) ↔
    current.lockType = .exclusive ∧ current.keyHash = hash ∨ hash ∈ exclusives rest := by
  simp [exclusives, or_and_right, exists_or]

theorem isLockset_mergeSame (plain : ∀ entry ∈ current :: rest, entry.key = none)
    (sorted : (current :: rest).Pairwise fun left right => left.keyHash ≤ right.keyHash) :
    IsLockset (current :: rest) (mergeSame current rest) := by
  induction rest generalizing current with
  | nil => exact isLockset_singleton current
  | cons next rest ih =>
    rw [forall_mem_cons] at plain
    obtain ⟨ordered, tail⟩ := pairwise_cons.mp sorted
    rw [mergeSame, TxnKeyEntry.same, plain.1, Bool.and_true]
    by_cases same : current.keyHash = next.keyHash
    · rw [if_pos (decide_eq_true same)]
      obtain ⟨ascending, hashes, exclusive⟩ := @ih
        ⟨current.keyHash, upgradeTo current.lockType next.lockType, next.key⟩
        (forall_mem_cons.mpr (forall_mem_cons.mp plain.2))
        (pairwise_cons.mpr ⟨(forall_mem_cons.mp ordered).2, (pairwise_cons.mp tail).2⟩)
      refine ⟨ascending, fun hash => (hashes hash).trans (by simp [same]),
        fun hash => (exclusive hash).trans ?_⟩
      simp only [mem_exclusives_cons, same]
      cases current.lockType <;> simp [upgradeTo]
      tauto
    · rw [if_neg (by simpa using same)]
      obtain ⟨ascending, hashes, exclusive⟩ := ih plain.2 tail
      have lower : current.keyHash < next.keyHash :=
        UInt64.lt_of_le_of_ne (ordered next mem_cons_self) same
      refine ⟨pairwise_cons.mpr ⟨fun hash member => ?_, ascending⟩, fun hash => ?_, fun hash => ?_⟩
      · obtain ⟨entry, asked, rfl⟩ := mem_map.mp ((hashes hash).mp member)
        rcases mem_cons.mp asked with rfl | behind
        · exact lower
        · exact UInt64.lt_of_lt_of_le lower ((pairwise_cons.mp tail).1 entry behind)
      · simp only [map_cons, mem_cons, hashes]
      · rw [mem_exclusives_cons, exclusive, ← mem_exclusives_cons]

theorem isLockset_sortByKeyHash (plain : ∀ entry ∈ entries, entry.key = none) :
    IsLockset entries (sortByKeyHash entries) := by
  have perm := perm_insertionSort TxnKeyEntry.le entries
  have sorted := pairwise_insertionSort TxnKeyEntry.le entries
  unfold sortByKeyHash
  split_ifs with short
  · rcases entries with _ | ⟨entry, _ | _⟩
    · exact ⟨.nil, fun _ => Iff.rfl, fun _ => Iff.rfl⟩
    · exact isLockset_singleton entry
    · simp at short
  · generalize entries.insertionSort TxnKeyEntry.le = arranged at perm sorted
    cases arranged with
    | nil => simp [← perm.length_eq] at short
    | cons first rest =>
      obtain ⟨ascending, hashes, exclusive⟩ := isLockset_mergeSame
        (fun entry member => plain entry (perm.mem_iff.mp member))
        (sorted.imp fun order => order.elim UInt64.le_of_lt fun same => UInt64.le_of_eq same.1)
      exact ⟨ascending, fun hash => (hashes hash).trans (perm.map _).mem_iff,
        fun hash => (exclusive hash).trans ((perm.filter _).map _).mem_iff⟩

variable {R : Type}

/-- The commands queued, with the prefixes of their keys, and the keys watched. -/
structure Ledger where
  queued : List (QueuedCommand × Bytes)
  watching : List Bytes

namespace Ledger

variable (ledger : Ledger)

def after (state : TxnState) : Call R → Except TxnError (Reply R) → Ledger
  | _, .error _ => ledger
  | .multi, _ => { ledger with queued := [] }
  | .watch key, _ => { ledger with watching := ledger.watching ++ [key] }
  | .unwatch, _ => if state = .none then { ledger with watching := [] } else ledger
  | .queueCommand item keyPrefix, _ =>
    { ledger with queued := ledger.queued ++ [(item, keyPrefix)] }
  | .abort, _ => ledger
  | .discard, _ | .reset, _ | .exec _, _ => ⟨[], []⟩

def locks (fastHash : Bytes → UInt64) : List TxnKeyEntry :=
  ledger.queued.flatMap fun queued => queued.1.forEachKey.map fun entry =>
    ⟨fastHash (queued.2 ++ entry.1), entry.2, none⟩

def asked (fastHash : Bytes → UInt64) : List TxnKeyEntry :=
  ledger.locks fastHash ++ ledger.watching.map fun key => ⟨fastHash key, .shared, none⟩

def flushes : Bool :=
  ledger.queued.any fun queued => queued.1.cmd = .flushall || queued.1.cmd = .flushdb

def writes : Bool := ledger.queued.any fun queued => queued.1.cmd.isWrite

end Ledger

abbrev Trace := List (Σ op : VersionOp, op.Answer)

/-- What a session reaches by its calls. -/
inductive Reached (R : Type) (fastHash : Bytes → UInt64) : Ledger → TransactionManager → Prop
  | new : Reached R fastHash ⟨[], []⟩ .new
  | call {ledger manager trace outcome} {call : Call R}
      (reached : Reached R fastHash ledger manager)
      (course : (call.program fastHash manager).Course trace outcome) :
      Reached R fastHash (ledger.after manager.state call outcome.1) outcome.2

/-- The increments among some accesses. -/
def bumps (trace : Trace) : List VersionOp := (trace.map Sigma.fst).filter isBump

def unchanged (entries : List WatchedKeyEntry) : Trace :=
  entries.map fun entry => ⟨.read (.validate entry.key) entry.hash, entry.version⟩

def Queues (manager : TransactionManager) (call : Call R) (queue : List QueuedCommand) : Prop :=
  queue = [] ∨ queue = manager.queue ∨ (manager.state = .started ∨ manager.state = .aborted) ∧
    ∃ item keyPrefix, call = .queueCommand item keyPrefix ∧ queue = manager.queue ++ [item]

/-- What a call may do: EXEC runs the queue exactly in an open transaction whose watched versions
all stand, under the locks of all keys asked for, and increments those written; no other call
increments a version, and an idle manager holds nothing. -/
structure Lawful (fastHash : Bytes → UInt64) (ledger : Ledger) (manager : TransactionManager)
    (call : Call R) (trace : Trace) (outcome : Outcome R) : Prop where
  queue : Queues manager call outcome.2.queue
  runs : ∀ executor, call = .exec executor →
    ((∃ results, outcome.1 = .ok (.executed (.success results))) ↔
      manager.state = .started ∧ unchanged manager.watchedKeys.watched <+: trace)
  success : ∀ results, outcome.1 = .ok (.executed (.success results)) → ∃ executor,
    call = .exec executor ∧ results = ledger.queued.map (executor ·.1) ∧
      IsLockset (ledger.asked fastHash) manager.prepareLockset.2.keyEntries ∧
      bumps trace = if ledger.flushes then [.bumpAll]
        else if ledger.writes then (exclusives manager.prepareLockset.2.keyEntries).map .bump
        else []
  others : (∀ results, outcome.1 ≠ .ok (.executed (.success results))) → bumps trace = []
  idle : outcome.2.state = .none → outcome.2.queue = [] ∧ outcome.2.keyEntries = []

/-- The manager holds what the ledger recorded. -/
structure Matches (fastHash : Bytes → UInt64) (ledger : Ledger) (manager : TransactionManager) :
    Prop where
  state : manager.state ≠ .running
  idle : manager.state = .none → ledger.queued = []
  queue : manager.queue = ledger.queued.map Prod.fst
  keyEntries : manager.keyEntries = ledger.locks fastHash
  performWrites : manager.performWrites = ledger.writes
  invalidateAll : manager.invalidateAll = ledger.flushes
  watched : ∀ entry ∈ manager.watchedKeys.entries, entry.isWatched
  hashes : ∀ hash, hash ∈ manager.watchedKeys.entries.map WatchedKeyEntry.hash ↔
    hash ∈ ledger.watching.map fastHash

variable {fastHash : Bytes → UInt64} {ledger : Ledger} {manager : TransactionManager}
variable {call : Call R} {trace : Trace} {outcome : Outcome R}

theorem allCurrent_course {entries : List WatchedKeyEntry} {valid : Bool}
    (course : (allCurrent entries).Course trace valid) : bumps trace = [] ∧
      if valid then trace = unchanged entries else ¬unchanged entries <+: trace := by
  induction entries generalizing trace with
  | nil =>
    cases course
    exact ⟨rfl, rfl⟩
  | cons entry rest ih =>
    cases course with
    | @step _ _ version others _ course =>
      simp only [Program.bind] at course
      split_ifs at course with same
      · obtain ⟨none, read⟩ := ih course
        refine ⟨none, ?_⟩
        subst same
        cases valid with
        | true => exact congrArg (_ :: ·) read
        | false => exact fun within => read ((prefix_cons_inj _).mp within)
      · cases course
        refine ⟨rfl, fun within => same ?_⟩
        have equal := (cons_prefix_cons.mp within).1
        cases equal
        rfl

theorem broadcast_course (course : manager.broadcast.Course trace ()) :
    bumps trace = if manager.invalidateAll then [.bumpAll]
      else if manager.performWrites then (exclusives manager.keyEntries).map .bump else [] := by
  unfold broadcast at course
  split_ifs at course ⊢
  · cases course with
    | step course =>
      cases course
      rfl
  · unfold exclusives
    generalize manager.keyEntries.filter _ = entries at course ⊢
    induction entries generalizing trace with
    | nil =>
      cases course
      rfl
    | cons entry rest ih =>
      cases course with
      | step course => exact congrArg (VersionOp.bump entry.keyHash :: ·) (ih course)
  · cases course
    rfl

theorem prepareLockset_of_started (started : manager.state = .started) :
    manager.prepareLockset.2 = { manager with
      keyEntries := sortByKeyHash (manager.watchedKeys.saveKeysToLock manager.keyEntries) } := by
  unfold prepareLockset
  rw [if_neg (by rw [started]; decide), if_neg (not_not.mpr started)]

theorem exec_course {executor : QueuedCommand → R} (started : manager.state = .started)
    (course : ((Call.exec executor).program fastHash manager).Course trace outcome) :
    let prepared := manager.prepareLockset.2
    unchanged manager.watchedKeys.watched <+: trace ∧
        outcome.1 = .ok (.executed (.success (manager.queue.map executor))) ∧
        bumps trace = (if manager.invalidateAll then [.bumpAll] else if manager.performWrites then
          (exclusives prepared.keyEntries).map .bump else []) ∧ outcome.2 = prepared.reset ∨
      ¬unchanged manager.watchedKeys.watched <+: trace ∧
        outcome.1 = .ok (.executed .conflict) ∧ bumps trace = [] ∧ outcome.2 = prepared.reset := by
  rw [program_exec_of_started executor started] at course
  obtain ⟨front, valid, back, rfl, reads, course⟩ := course.of_bind
  obtain ⟨none, compared⟩ := allCurrent_course reads
  have counted : bumps (front ++ back) = bumps back := by
    rw [bumps, map_append, filter_append]
    exact congrArg (· ++ _) none
  rw [counted, prepareLockset_of_started started]
  cases valid with
  | false =>
    cases course
    rw [append_nil]
    exact .inr ⟨compared, rfl, rfl, rfl⟩
  | true =>
    obtain ⟨first, value, second, rfl, broadcasts, course⟩ := course.of_bind
    cases course
    have bumped := broadcast_course broadcasts
    have same : front = unchanged manager.watchedKeys.watched := compared
    simp only [beginRun, if_pos started] at bumped ⊢
    rw [append_nil]
    exact .inl ⟨same ▸ prefix_append _ _, trivial, bumped, rfl⟩

theorem exec_refused {executor : QueuedCommand → R} (state : manager.state ≠ .running)
    (closed : manager.state ≠ .started)
    (course : ((Call.exec executor).program fastHash manager).Course trace outcome) :
    trace = [] ∧ (manager.state = .none ∧ outcome = (.error .execWithoutMulti, manager) ∨
      manager.state = .aborted ∧ outcome = (.ok (.executed .aborted), manager.reset)) := by
  unfold Call.program TransactionManager.exec prepareInner prepareLockset at course
  cases found : manager.state with
  | none =>
    rw [if_neg (by rw [found]; decide), if_pos closed] at course
    cases course
    exact ⟨rfl, .inl ⟨rfl, rfl⟩⟩
  | started => exact absurd found closed
  | running => exact absurd found state
  | aborted =>
    rw [if_pos found] at course
    cases course
    exact ⟨rfl, .inr ⟨rfl, rfl⟩⟩

theorem Matches.isLockset (kept : Matches fastHash ledger manager)
    (started : manager.state = .started) :
    IsLockset (ledger.asked fastHash) manager.prepareLockset.2.keyEntries := by
  rw [prepareLockset_of_started started]
  have all : manager.watchedKeys.watched = manager.watchedKeys.entries :=
    filter_eq_self.mpr kept.watched
  have plain : ∀ entry ∈ manager.watchedKeys.saveKeysToLock manager.keyEntries,
      entry.key = none := by
    intro entry member
    rw [WatchedKeysContainer.saveKeysToLock, kept.keyEntries, mem_append] at member
    rcases member with queued | watched
    · obtain ⟨_, -, inside⟩ := mem_flatMap.mp queued
      obtain ⟨_, -, rfl⟩ := mem_map.mp inside
      rfl
    · obtain ⟨_, -, rfl⟩ := mem_map.mp watched
      rfl
  obtain ⟨ascending, hashes, exclusive⟩ := isLockset_sortByKeyHash plain
  refine ⟨ascending, fun hash => (hashes hash).trans ?_, fun hash => (exclusive hash).trans ?_⟩
  · have watched := kept.hashes hash
    simp only [WatchedKeysContainer.saveKeysToLock, Ledger.asked, all, kept.keyEntries, map_append,
      map_map, mem_append]
    exact or_congr_right watched
  · simp [WatchedKeysContainer.saveKeysToLock, Ledger.asked, exclusives, kept.keyEntries]

theorem hashes_record {container : WatchedKeysContainer} {key : Bytes} {version hash : UInt64} :
    hash ∈ (container.record key (fastHash key) version).entries.map WatchedKeyEntry.hash ↔
      hash ∈ container.entries.map WatchedKeyEntry.hash ∨ hash = fastHash key := by
  unfold WatchedKeysContainer.record
  split
  · rename_i position found
    obtain ⟨inside, matched, -⟩ := findIdx?_eq_some_iff_getElem.mp found
    rw [Bool.and_eq_true, decide_eq_true_eq] at matched
    dsimp only
    rw [map_modify_of_keeps _ _ _ (by exact fun _ => rfl)]
    refine (or_iff_left_of_imp ?_).symm
    rintro rfl
    exact matched.1 ▸ mem_map_of_mem (getElem_mem inside)
  · rw [map_append, mem_append]
    exact or_congr_right mem_singleton

theorem watched_record {container : WatchedKeysContainer} {key : Bytes} {hash version : UInt64}
    (watched : ∀ entry ∈ container.entries, entry.isWatched) :
    ∀ entry ∈ (container.record key hash version).entries, entry.isWatched := by
  unfold WatchedKeysContainer.record
  split
  · intro entry member
    obtain ⟨index, inside, rfl⟩ := mem_iff_getElem.mp member
    rw [getElem_modify]
    split_ifs
    · rfl
    · exact watched _ (getElem_mem _)
  · rw [forall_mem_append, forall_mem_singleton]
    exact ⟨watched, rfl⟩

theorem matches_nil {watchedKeys : WatchedKeysContainer} (none : watchedKeys.entries = []) :
    Matches fastHash ⟨[], []⟩ ⟨.none, [], watchedKeys, [], false, false⟩ where
  state wrong := by cases wrong
  idle _ := rfl
  queue := rfl
  keyEntries := rfl
  performWrites := rfl
  invalidateAll := rfl
  watched := by
    rw [none]
    exact fun _ member => absurd member not_mem_nil
  hashes hash := by rw [none]; exact Iff.rfl

theorem Matches.abort (kept : Matches fastHash ledger manager) :
    Matches fastHash ledger manager.abort :=
  { kept with
    state := fun wrong => by cases wrong
    idle := fun wrong => by cases wrong }

theorem Matches.course (kept : Matches fastHash ledger manager)
    (course : (call.program fastHash manager).Course trace outcome) :
    Matches fastHash (ledger.after manager.state call outcome.1) outcome.2 ∧
      Queues manager call outcome.2.queue := by
  have stays : Queues manager call manager.queue := .inr (.inl rfl)
  cases call with
  | multi =>
    cases course
    unfold multi
    split_ifs with busy
    · exact ⟨kept.abort, stays⟩
    · exact ⟨{ kept with
        queue := rfl, keyEntries := rfl, performWrites := rfl, invalidateAll := rfl
        state := fun wrong => by cases wrong
        idle := fun _ => rfl }, .inl rfl⟩
  | watch key =>
    by_cases free : manager.state = .none
    · rw [program_watch_of_idle key free] at course
      cases course with
      | step course =>
        cases course
        refine ⟨{ kept with
          watched := watched_record kept.watched
          hashes := fun hash => ?_ }, stays⟩
        show _ ↔ hash ∈ (ledger.watching ++ [key]).map fastHash
        rw [map_append, mem_append]
        exact hashes_record.trans (or_congr (kept.hashes hash) mem_singleton.symm)
    · dsimp only [Call.program, TransactionManager.watch] at course
      rw [if_pos free] at course
      cases course
      exact ⟨kept, stays⟩
  | unwatch =>
    cases course
    unfold unwatch
    dsimp only [settled, Ledger.after]
    split_ifs with free
    · exact ⟨{ kept with
        watched := fun _ member => absurd member not_mem_nil
        hashes := fun _ => Iff.rfl }, stays⟩
    · exact ⟨kept, stays⟩
  | queueCommand item keyPrefix =>
    cases course
    unfold queueCommandWithKeyPrefix
    split_ifs with closed refused
    · exact ⟨kept, stays⟩
    · exact ⟨kept.abort, stays⟩
    · refine ⟨?_, .inr (.inr ⟨?_, item, keyPrefix, rfl, rfl⟩)⟩
      · show Matches fastHash ⟨ledger.queued ++ [(item, keyPrefix)], ledger.watching⟩ _
        exact { kept with
          idle := fun free => absurd (.inl free) closed
          queue := by simp [kept.queue, settled]
          keyEntries := by simp [kept.keyEntries, settled, Ledger.locks]
          performWrites := by simp [kept.performWrites, settled, Ledger.writes]
          invalidateAll := by simp [kept.invalidateAll, settled, Ledger.flushes, Bool.or_assoc] }
      · cases found : manager.state <;> simp [found] at closed ⊢
  | abort =>
    cases course
    exact ⟨kept.abort, stays⟩
  | discard =>
    cases course
    unfold TransactionManager.discard
    split_ifs with free
    · exact ⟨kept, stays⟩
    · exact ⟨matches_nil rfl, .inl rfl⟩
  | reset =>
    cases course
    exact ⟨matches_nil rfl, .inl rfl⟩
  | exec executor =>
    by_cases started : manager.state = .started
    · obtain ⟨-, answer, -, after⟩ | ⟨-, answer, -, after⟩ := exec_course started course
      all_goals
        rw [answer, after]
        exact ⟨matches_nil rfl, .inl rfl⟩
    · obtain ⟨rfl, ⟨-, rfl⟩ | ⟨-, rfl⟩⟩ := exec_refused kept.state started course
      · exact ⟨kept, stays⟩
      · exact ⟨matches_nil rfl, .inl rfl⟩

theorem Reached.matches (reached : Reached R fastHash ledger manager) :
    Matches fastHash ledger manager := by
  induction reached with
  | new => exact matches_nil rfl
  | call _ course kept => exact (kept.course course).1

theorem quiet_course (other : ∀ executor, call ≠ .exec executor)
    (course : (call.program fastHash manager).Course trace outcome) :
    bumps trace = [] ∧ ∀ results, outcome.1 ≠ .ok (.executed (.success results)) := by
  have quiet (returned : Except TxnError Unit × TransactionManager) (results : List R) :
      (settled returned : Outcome R).1 ≠ .ok (.executed (.success results)) := by
    obtain ⟨_ | _, after⟩ := returned <;> exact fun wrong => by cases wrong
  cases call with
  | exec executor => exact absurd rfl (other executor)
  | watch key =>
    obtain ⟨front, returned, back, rfl, watches, course⟩ := course.of_bind
    cases course
    refine ⟨?_, quiet _⟩
    unfold TransactionManager.watch at watches
    split_ifs at watches
    · cases watches
      rfl
    · cases watches with
      | step watches =>
        cases watches
        rfl
  | _ =>
    cases course
    exact ⟨rfl, quiet _⟩

theorem Lawful.of_failed (queue : Queues manager call outcome.2.queue)
    (failed : ∀ results, outcome.1 ≠ .ok (.executed (.success results)))
    (silent : bumps trace = []) (unable : ∀ executor, call = .exec executor →
      ¬(manager.state = .started ∧ unchanged manager.watchedKeys.watched <+: trace))
    (idle : outcome.2.state = .none → outcome.2.queue = [] ∧ outcome.2.keyEntries = []) :
    Lawful fastHash ledger manager call trace outcome where
  queue := queue
  runs executor same := iff_of_false (fun success => success.elim failed) (unable executor same)
  success results same := absurd same (failed results)
  others _ := silent
  idle := idle

/-- In every run of calls, on any answers, every call is lawful. -/
theorem calls_lawful (reached : Reached R fastHash ledger manager)
    (course : (call.program fastHash manager).Course trace outcome) :
    Lawful fastHash ledger manager call trace outcome := by
  have kept := reached.matches
  obtain ⟨after, queue⟩ := kept.course course
  have idle : outcome.2.state = .none → outcome.2.queue = [] ∧ outcome.2.keyEntries = [] := by
    intro free
    rw [after.queue, after.keyEntries, Ledger.locks, after.idle free]
    exact ⟨rfl, rfl⟩
  by_cases executes : ∃ executor, call = .exec executor
  · obtain ⟨executor, rfl⟩ := executes
    by_cases started : manager.state = .started
    · obtain ⟨compared, answer, bumped, -⟩ | ⟨compared, answer, bumped, -⟩ :=
        exec_course started course
      · rw [kept.queue, map_map] at answer
        rw [kept.invalidateAll, kept.performWrites] at bumped
        refine ⟨queue, fun _ _ => iff_of_true ⟨_, answer⟩ ⟨started, compared⟩,
          fun results same => ?_, fun none => absurd answer (none _), idle⟩
        rw [answer] at same
        cases same
        exact ⟨executor, rfl, rfl, kept.isLockset started, bumped⟩
      · refine .of_failed queue (fun results => ?_) bumped (fun _ _ both => compared both.2) idle
        rw [answer]
        exact fun wrong => by cases wrong
    · refine .of_failed queue (fun results => ?_) ?_ (fun _ _ both => started both.1) idle
      all_goals obtain ⟨rfl, ⟨-, rfl⟩ | ⟨-, rfl⟩⟩ := exec_refused kept.state started course
      all_goals first | rfl | exact fun wrong => by cases wrong
  · obtain ⟨silent, failed⟩ := quiet_course (fun executor same => executes ⟨executor, same⟩) course
    exact .of_failed queue failed silent (fun _ same => absurd ⟨_, same⟩ executes) idle

/-- EXEC after WATCH, MULTI, a SET and a GET whose keys share a hash; the watched version stands. -/
theorem set_lawful :
    let fastHash (key : Bytes) : UInt64 := .ofNat key.length
    let set : QueuedCommand := ⟨.set, [[107], [118]]⟩
    let get : QueuedCommand := ⟨.get, [[109]]⟩
    Lawful fastHash ⟨[(set, []), (get, [])], [[119, 119]]⟩
      ⟨.started, [set, get], ⟨[⟨[119, 119], 2, 5, true⟩]⟩,
        [⟨1, .exclusive, none⟩, ⟨1, .shared, none⟩], true, false⟩
      (.exec fun _ => ()) [⟨.read (.validate [119, 119]) 2, (5 : UInt64)⟩, ⟨.bump 1, (6 : UInt64)⟩]
      (.ok (.executed (.success [(), ()])), .new) := by
  intro fastHash set get
  have watched := @Reached.call Unit fastHash _ _ [⟨.read (.watch [119, 119]) 2, (5 : UInt64)⟩] _
    (.watch [119, 119]) .new (.step (.done _))
  have started := @Reached.call _ _ _ _ _ _ .multi watched (.done _)
  have written := @Reached.call _ _ _ _ _ _ (.queueCommand set []) started (.done _)
  exact calls_lawful (@Reached.call _ _ _ _ _ _ (.queueCommand get []) written (.done _))
    (.step (.step (.done _)))

end Wedb.Txn
