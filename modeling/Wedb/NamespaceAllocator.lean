/-
The allocator of namespace ids through failed writes, crashes and restarts: an id it has given is
never given again, as long as nobody advances it to the last number.
-/

import Wedb.AclRules

namespace Wedb.Server.NamespaceAllocator

open Acl

/-- What a call that succeeds has given: an id, or the number it was told. -/
inductive Answer
  | granted (id : UInt64)
  | advanced (n : UInt64)
  deriving DecidableEq

def Answer.number : Answer → UInt64
  | .granted number | .advanced number => number

/-- Where the call stands that holds the lock: about to write, or about to return. -/
inductive Stage
  | allocating (granted : UInt64)
  | advancing (n : UInt64)
  | returning (answer : Answer)

/-- The allocator, whose watermark is lost while the process is down, its disk, and the answers, the
latest first. -/
structure System (ι : Type*) where
  disk : Option UInt64 := none
  watermark : Option UInt64 := none
  holder : Option (ι × Stage) := none
  answers : List Answer := []

/-- A start, a crash, and the steps of the callers; one that waits for the lock does nothing. -/
inductive Action (ι : Type*)
  | fromBftree (persists : Bool)
  | crash
  | allocate (caller : ι)
  | advanceTo (caller : ι) (n : UInt64)
  | persist (caller : ι) (persists : Bool)
  | unlock (caller : ι)

variable {ι : Type*}

/-- `persist` and what follows it. The lock is held until the assignment. -/
def Stage.persist (caller : ι) (persists : Bool) (system : System ι) : Stage → System ι
  | .allocating granted =>
    if persists then { system with
      disk := some (granted + 1), holder := some (caller, .returning (.granted granted)) }
    else { system with watermark := some granted, holder := none }
  | .advancing n =>
    if persists then { system with
      disk := some (n + 1), watermark := some (n + 1)
      holder := some (caller, .returning (.advanced n)) }
    else { system with holder := none }
  | .returning _ => system

def step [DecidableEq ι] (system : System ι) : Action ι → System ι
  | .fromBftree persists =>
    match system.watermark, system.disk with
    | none, some found => { system with watermark := some found }
    -- `INITIAL_WATERMARK`
    | none, none => if persists then { system with disk := some 2, watermark := some 2 } else system
    | some _, _ => system
  | .crash => { system with watermark := none, holder := none }
  | .allocate caller =>
    match system.watermark, system.holder with
    | some granted, none =>
      if granted > maxTenantNamespace then system
      else { system with
        watermark := some (granted + 1), holder := some (caller, .allocating granted) }
    | _, _ => system
  | .advanceTo caller n =>
    match system.watermark, system.holder with
    | some watermark, none =>
      if n ≥ watermark then { system with holder := some (caller, .advancing n) }
      else { system with holder := some (caller, .returning (.advanced n)) }
    | _, _ => system
  | .persist caller persists =>
    match system.holder with
    | some (holder, stage) =>
      if holder = caller then stage.persist caller persists system else system
    | none => system
  | .unlock caller =>
    match system.holder with
    | some (holder, .returning answer) =>
      if holder = caller then { system with holder := none, answers := answer :: system.answers }
      else system
    | _ => system

/-- The ids among the answers are distinct, not reserved, and above the numbers advanced to before.
-/
structure NeverReused (answers : List Answer) : Prop where
  distinct : answers.Pairwise fun later earlier => ∀ id, later = .granted id → earlier ≠ .granted id
  reserved : ∀ id, .granted id ∈ answers → 2 ≤ id
  above : answers.Pairwise fun later earlier =>
    ∀ id n, later = .granted id → earlier = .advanced n → n < id

structure Within (answers : List Answer) (watermark : UInt64) : Prop where
  reserved : 2 ≤ watermark
  below : ∀ answer ∈ answers, answer.number < watermark
  neverReused : NeverReused answers

def Answer.Follows (answers : List Answer) : Answer → Prop
  | .granted id => Within answers id
  | .advanced _ => True

/-- What holds after every step: neither the disk nor the watermark is behind the answers. -/
inductive Sound : System ι → Prop
  | blank : Sound ⟨none, none, none, []⟩
  | down {disk answers} (within : Within answers disk) : Sound ⟨some disk, none, none, answers⟩
  | idle {disk watermark answers} (within : Within answers watermark) (behind : watermark ≤ disk) :
      Sound ⟨some disk, some watermark, none, answers⟩
  | allocating {disk granted caller answers} (within : Within answers granted)
      (behind : granted ≤ disk) (rises : granted < granted + 1) :
      Sound ⟨some disk, some (granted + 1), some (caller, .allocating granted), answers⟩
  | advancing {disk watermark caller n answers} (within : Within answers watermark)
      (behind : watermark ≤ disk) (reached : watermark ≤ n) (rises : n < n + 1) :
      Sound ⟨some disk, some watermark, some (caller, .advancing n), answers⟩
  | returning {disk watermark caller answer answers} (within : Within answers watermark)
      (behind : watermark ≤ disk) (follows : answer.Follows answers)
      (below : answer.number < watermark) :
      Sound ⟨some disk, some watermark, some (caller, .returning answer), answers⟩

theorem Within.mono {answers : List Answer} {low high : UInt64} (within : Within answers low)
    (le : low ≤ high) : Within answers high where
  reserved := UInt64.le_trans within.reserved le
  below answer member := UInt64.lt_of_lt_of_le (within.below answer member) le
  neverReused := within.neverReused

theorem Within.cons {answers : List Answer} {answer : Answer} {watermark : UInt64}
    (within : Within answers watermark) (follows : answer.Follows answers)
    (below : answer.number < watermark) : Within (answer :: answers) watermark := by
  refine ⟨within.reserved, List.forall_mem_cons.mpr ⟨below, within.below⟩, ?_, ?_, ?_⟩
  · refine List.pairwise_cons.mpr ⟨?_, within.neverReused.distinct⟩
    rintro earlier member id rfl rfl
    exact UInt64.lt_irrefl _ (follows.below _ member)
  · rintro id (_ | ⟨_, member⟩)
    · exact follows.reserved
    · exact within.neverReused.reserved id member
  · refine List.pairwise_cons.mpr ⟨?_, within.neverReused.above⟩
    rintro earlier member id n rfl rfl
    exact follows.below _ member

theorem Sound.neverReused {system : System ι} (sound : Sound system) :
    NeverReused system.answers := by
  cases sound with
  | blank => exact ⟨.nil, fun _ => by simp, .nil⟩
  | _ within => exact within.neverReused

variable [DecidableEq ι]

theorem Sound.step {system : System ι} (sound : Sound system) {action : Action ι}
    (bounded : ∀ caller, action ≠ .advanceTo caller (-1)) : Sound (step system action) := by
  have kept := sound
  cases action with
  | crash =>
    cases sound with
    | blank => exact .blank
    | down within => exact .down within
    | _ within behind => exact .down (within.mono behind)
  | fromBftree persists =>
    cases sound with
    | blank =>
      cases persists with
      | false => exact .blank
      | true => exact .idle ⟨UInt64.le_refl 2, by simp, kept.neverReused⟩ (UInt64.le_refl 2)
    | down within => exact .idle within (UInt64.le_refl _)
    | _ => exact kept
  | allocate caller =>
    cases sound with
    | idle within behind =>
      dsimp only [NamespaceAllocator.step]
      split_ifs with exhausted
      · exact kept
      · exact .allocating within behind (by grind [maxTenantNamespace])
    | _ => exact kept
  | advanceTo caller n =>
    cases sound with
    | idle within behind =>
      dsimp only [NamespaceAllocator.step]
      split_ifs with reached
      · have notLast : n ≠ -1 := fun last => bounded caller (by rw [last])
        exact .advancing within behind reached (by grind)
      · exact .returning within behind trivial (UInt64.not_le.mp reached)
    | _ => exact kept
  | persist caller persists =>
    cases sound with
    | allocating within behind rises =>
      dsimp only [NamespaceAllocator.step, Stage.persist]
      split_ifs
      · exact .returning (within.mono (UInt64.le_of_lt rises)) (UInt64.le_refl _) within rises
      · exact .idle within behind
      · exact kept
    | advancing within behind reached rises =>
      dsimp only [NamespaceAllocator.step, Stage.persist]
      split_ifs
      · exact .returning (within.mono (UInt64.le_of_lt (UInt64.lt_of_le_of_lt reached rises)))
          (UInt64.le_refl _) trivial rises
      · exact .idle within behind
      · exact kept
    | returning =>
      dsimp only [NamespaceAllocator.step, Stage.persist]
      rw [ite_self]
      exact kept
    | _ => exact kept
  | unlock caller =>
    cases sound with
    | returning within behind follows below =>
      dsimp only [NamespaceAllocator.step]
      split_ifs
      · exact .idle (within.cons follows below) behind
      · exact kept
    | _ => exact kept

/-- In every run from an empty disk without an advance to the last number no id is given twice. -/
theorem run_neverReused (actions : List (Action ι))
    (bounded : ∀ caller, .advanceTo caller (-1) ∉ actions) :
    NeverReused (actions.foldl step ({} : System ι)).answers := by
  have sound : Sound (actions.foldl step ({} : System ι)) :=
    List.foldlRecOn actions step .blank fun system sound action member =>
      sound.step fun caller equal => bounded caller (equal ▸ member)
  exact sound.neverReused

theorem run_neverReused_crash :
    let run := ([.fromBftree true, .allocate 1, .persist 1 true, .unlock 1,
      .allocate 1, .allocate 2, .persist 1 true, .crash, .fromBftree true, .allocate 2,
      .persist 2 false, .allocate 1, .persist 1 true, .unlock 1, .advanceTo 2 7, .persist 2 true,
      .unlock 2, .allocate 1, .persist 1 true, .unlock 1] :
      List (Action Nat)).foldl step ({} : System Nat)
    run.answers = [.granted 8, .advanced 7, .granted 4, .granted 2] ∧ NeverReused run.answers :=
  ⟨by decide, run_neverReused _ (by simp +decide)⟩

/-- Advancing to the last number turns the watermark over, and ids are given again. -/
theorem advanceTo_last_reuses : (([.fromBftree true, .allocate 1, .persist 1 true, .unlock 1,
      .advanceTo 1 (-1), .persist 1 true, .unlock 1, .allocate 1, .persist 1 true, .unlock 1,
      .allocate 1, .persist 1 true, .unlock 1, .allocate 1, .persist 1 true, .unlock 1] :
      List (Action Nat)).foldl step ({} : System Nat)).answers =
      [.granted 2, .granted 1, .granted 0, .advanced (-1), .granted 2] := by
  decide

end Wedb.Server.NamespaceAllocator
