/-
MGET. A string whose time to live is not in memory is decided after the batch was read, which
removes an expired key, so for a key asked for again the next decision finds nothing expired.
-/

import Wedb.ObjectCommands

namespace Wedb.Redis

open Kv Object List

inductive TtlProbe
  | pass
  | due
  | deferred

/-- What a batch reads: the store, and what `probe_ttl` answers. -/
structure Batch where
  context : DecodeContext
  store : Store
  probe : Bytes → TtlProbe

/-- What the callback does with a key: it delivers a value or defers the bytes. -/
inductive Verdict
  | deliver (value : Option Bytes) (due : Bool)
  | defer (bytes : Bytes)

structure Gathered where
  called : List (Option Bytes) := []
  due : List Nat := []
  deferred : List (Nat × Bytes) := []
  held : List (Nat × Option Bytes) := []
  holding : Bool := false

namespace Batch

section

variable (batch : Batch) (session : StoreSession)

def verdict (key : Bytes) : Verdict :=
  match (batch.store key).bytes with
  | none => .deliver none false
  | some bytes =>
    if looksLikeObject batch.context bytes then .deliver none false
    else
      match batch.probe key with
      | .pass => .deliver (some bytes) false
      | .due => .deliver none true
      | .deferred => .defer bytes

/-- The callback of `read_batch_with`, for a key and its index. -/
def gather (gathered : Gathered) (entry : Bytes × Nat) : Gathered :=
  match batch.verdict entry.1 with
  | .deliver value due =>
    let gathered := if due then { gathered with due := gathered.due ++ [entry.2] } else gathered
    if gathered.holding then { gathered with held := gathered.held ++ [(entry.2, value)] }
    else { gathered with called := gathered.called ++ [value] }
  | .defer bytes =>
    { gathered with deferred := gathered.deferred ++ [(entry.2, bytes)], holding := true }

def callDeferred (keys : List Bytes) :
    List (Nat × Bytes) → List (Nat × Option Bytes) → Store → List (Option Bytes) × Store
  | [], held, store => (held.map Prod.snd, store)
  | (idx, bytes) :: deferred, held, store =>
    let (expired, store) := session.checkExpired batch.context.now store (keys.getD idx [])
    let (called, store) := callDeferred keys deferred (held.dropWhile (·.1 < idx)) store
    ((held.takeWhile (·.1 < idx)).map Prod.snd ++
      (if expired then none else some bytes) :: called, store)

def mgetEach (keys : List Bytes) : List (Option Bytes) × Store :=
  let gathered := keys.zipIdx.foldl batch.gather {}
  let (called, after) := batch.callDeferred session keys gathered.deferred gathered.held batch.store
  (gathered.called ++ called, gathered.due.foldl
    (fun store idx => (session.checkExpired batch.context.now store (keys.getD idx [])).2) after)

def answer (key : Bytes) : Option Bytes :=
  (batch.store key).bytes.filter fun bytes => !looksLikeObject batch.context bytes &&
    match batch.probe key with
    | .pass => true
    | .due => false
    | .deferred => !(batch.store key).expired batch.context.now

def ExpiresLate (key : Bytes) : Prop :=
  (∃ bytes, batch.verdict key = .defer bytes) ∧ (batch.store key).expired batch.context.now = true

/-- What a batch defers and holds once it is holding. -/
def behind : Nat → List Bytes → List (Nat × Bytes) × List (Nat × Option Bytes)
  | _, [] => ([], [])
  | idx, key :: rest =>
    let (deferred, held) := behind (idx + 1) rest
    match batch.verdict key with
    | .deliver value _ => (deferred, (idx, value) :: held)
    | .defer bytes => ((idx, bytes) :: deferred, held)

end

variable {batch : Batch} {session : StoreSession}

theorem foldl_gather_holding (keys : List Bytes) (idx : Nat) {gathered : Gathered}
    (holding : gathered.holding) :
    let after := (keys.zipIdx idx).foldl batch.gather gathered
    after.called = gathered.called ∧
      after.deferred = gathered.deferred ++ (batch.behind idx keys).1 ∧
      after.held = gathered.held ++ (batch.behind idx keys).2 := by
  induction keys generalizing idx gathered with
  | nil => simp [behind]
  | cons key rest ih =>
    have next := @ih (idx + 1) (batch.gather gathered (key, idx))
    simp only [zipIdx_cons, foldl_cons, behind]
    cases decided : batch.verdict key <;> grind [gather]

theorem le_of_mem_behind (keys : List Bytes) (idx : Nat) :
    (∀ entry ∈ (batch.behind idx keys).1, idx ≤ entry.1) ∧
      ∀ entry ∈ (batch.behind idx keys).2, idx ≤ entry.1 := by
  induction keys generalizing idx with
  | nil => simp [behind]
  | cons key rest ih =>
    have next := ih (idx + 1)
    unfold behind
    grind

theorem answer_eq (key : Bytes) : batch.answer key =
    match batch.verdict key with
    | .deliver value _ => value
    | .defer bytes =>
      if (batch.store key).expired batch.context.now then none else some bytes := by
  unfold answer verdict
  cases (batch.store key).bytes with
  | none => rfl
  | some bytes => cases batch.probe key <;> grind

section

variable {keys : List Bytes} {deferred : List (Nat × Bytes)} {held : List (Nat × Option Bytes)}
variable {idx : Nat} {now : Store}

theorem callDeferred_held {value : Option Bytes} (later : ∀ entry ∈ deferred, idx < entry.1) :
    (batch.callDeferred session keys deferred ((idx, value) :: held) now).1 =
      value :: (batch.callDeferred session keys deferred held now).1 := by
  cases deferred with
  | nil => rfl
  | cons entry others => simp [callDeferred, later entry]

theorem callDeferred_deferred {bytes : Bytes} (later : ∀ entry ∈ held, idx < entry.1) :
    (batch.callDeferred session keys ((idx, bytes) :: deferred) held now).1 =
      (if (now (keys.getD idx [])).expired batch.context.now then none else some bytes) ::
        (batch.callDeferred session keys deferred held
          (session.purge batch.context.now now (keys.getD idx []))).1 := by
  have stays : held.takeWhile (·.1 < idx) = [] ∧ held.dropWhile (·.1 < idx) = held := by
    cases held with
    | nil => simp
    | cons entry others => simp [Nat.not_lt.mpr (later entry mem_cons_self).le]
  simp only [callDeferred, stays, session.checkExpired_eq, StoreSession.purge]
  split <;> rfl

end

theorem callDeferred_answers_iff (front rest removed : List Bytes) {now : Store}
    (left : ∀ key, (now key).expired batch.context.now =
      ((batch.store key).expired batch.context.now && !removed.contains key)) :
    (batch.callDeferred session (front ++ rest) (batch.behind front.length rest).1
        (batch.behind front.length rest).2 now).1 = rest.map batch.answer ↔
      rest.Pairwise (fun first second => first = second → ¬batch.ExpiresLate first) ∧
        ∀ key ∈ rest, batch.ExpiresLate key → key ∉ removed := by
  induction rest generalizing front removed now with
  | nil => simp [behind, callDeferred]
  | cons key rest ih =>
    have next := @ih (front ++ [key])
    have above := @le_of_mem_behind batch rest (front.length + 1)
    simp only [append_assoc, length_append, length_singleton, singleton_append] at next
    rw [map_cons, answer_eq, pairwise_cons, behind]
    cases decided : batch.verdict key with
    | deliver value due =>
      have never : ¬batch.ExpiresLate key := by simp [ExpiresLate, decided]
      rw [callDeferred_held above.1, List.cons.injEq, next removed left]
      grind
    | defer bytes =>
      have late : batch.ExpiresLate key ↔ (batch.store key).expired batch.context.now := by
        simp [ExpiresLate, decided]
      have here : (front ++ key :: rest).getD front.length [] = key := by simp
      have purged := @next (key :: removed) (session.purge batch.context.now now key)
        fun other => by
        obtain rfl | same := eq_or_ne other key
        · simp [session.purge_self_live]
        · simp [session.purge_other _ _ _ _ same, left, same]
      rw [callDeferred_deferred above.2, here, List.cons.injEq, purged, left]
      grind

theorem gather_answers_iff (front rest : List Bytes) (called : List (Option Bytes))
    (due : List Nat) :
    let after := (rest.zipIdx front.length).foldl batch.gather { called, due }
    after.called ++ (batch.callDeferred session (front ++ rest) after.deferred after.held
        batch.store).1 = called ++ rest.map batch.answer ↔
      rest.Pairwise fun first second => first = second → ¬batch.ExpiresLate first := by
  induction rest generalizing front called due with
  | nil => simp [callDeferred]
  | cons key rest ih =>
    have next := ih (front ++ [key])
    simp only [append_assoc, length_append, length_singleton, singleton_append] at next
    rw [zipIdx_cons, foldl_cons]
    cases decided : batch.verdict key with
    | deliver value due' =>
      have never : ¬batch.ExpiresLate key := by simp [ExpiresLate, decided]
      rw [map_cons, answer_eq, decided, pairwise_cons, ← next (called ++ [value])
        (if due' then due ++ [front.length] else due)]
      cases due' <;> simp [gather, decided, never]
    | defer bytes =>
      have whole := @callDeferred_answers_iff batch session front (key :: rest) [] batch.store
      have later := @foldl_gather_holding batch rest (front.length + 1)
        ⟨called, due, [(front.length, bytes)], [], true⟩ rfl
      simp_all [gather, behind]

/-- Every key is answered in order, live strings with their bytes, exactly when no key expired only
on disk is asked for twice. -/
theorem mgetEach_answers_iff (batch : Batch) (session : StoreSession) (keys : List Bytes) :
    (batch.mgetEach session keys).1 = keys.map batch.answer ↔
      keys.Pairwise fun first second => first = second → ¬batch.ExpiresLate first :=
  gather_answers_iff [] keys [] []

/-- An expired string asked for twice: the second time its bytes are given out. -/
theorem mgetEach_twice :
    let batch : Batch := ⟨⟨1, fun _ => false⟩,
      fun _ => ⟨some ⟨[97], .onDisk⟩, some ⟨0, .onDisk⟩, none⟩, fun _ => .deferred⟩
    (batch.mgetEach .reference [[107], [107]]).1 = [none, some [97]] ∧ batch.answer [107] = none :=
  ⟨rfl, rfl⟩

end Batch

end Wedb.Redis
