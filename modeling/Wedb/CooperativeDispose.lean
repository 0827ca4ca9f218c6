/-
Workers and disposers share the guard of the migration receiver: a bit says that it is disposed, the
others count the workers inside, and every call is a loop of compare and exchange.
-/

import Mathlib.Data.List.Count

namespace Wedb.Repl.CooperativeDisposeGuard

def flagDisposed : UInt8 := (1 : UInt8) <<< 7

def activeCountMask : UInt8 := 0x7F

inductive DisposeResult
  | cleanupNow
  | deferredToWorker
  | alreadyDisposed
  deriving DecidableEq

/-- One pass of a loop over the byte: the call returns, or does so once the byte is exchanged. -/
inductive Pass (α : Type)
  | done (answer : α)
  | exchange (next : UInt8) (answer : α)
  deriving DecidableEq

def Pass.map {α β : Type} (change : α → β) : Pass α → Pass β
  | .done answer => .done (change answer)
  | .exchange next answer => .exchange next (change answer)

variable (current : UInt8)

def tryEnter : Pass Bool :=
  if current &&& flagDisposed ≠ 0 then .done false
  else if current &&& activeCountMask = activeCountMask then .done false
  else .exchange (current + 1) true

def exitAndCheckShouldCleanup : Pass Bool :=
  let active := current &&& activeCountMask
  -- `saturating_sub`
  .exchange (current &&& flagDisposed ||| (active - min active 1))
    (current &&& flagDisposed ≠ 0 ∧ active = 1)

def tryDispose : Pass DisposeResult :=
  if current &&& flagDisposed ≠ 0 then .done .alreadyDisposed
  else .exchange (current ||| flagDisposed)
    (if current &&& activeCountMask > 0 then .deferredToWorker else .cleanupNow)

inductive Call
  | tryEnter
  | exit
  | tryDispose
  deriving DecidableEq

def Call.pass : Call → Pass Bool
  | .tryEnter => (CooperativeDisposeGuard.tryEnter current).map fun _ => false
  | .exit => exitAndCheckShouldCleanup current
  | .tryDispose => (CooperativeDisposeGuard.tryDispose current).map fun answer =>
    answer = .cleanupNow

/-- Where a participant stands: in a call it has the byte it saw last. -/
inductive Stage
  | outside
  | inside
  | calling (call : Call) (current : UInt8)

def Stage.isInside : Stage → Bool
  | .inside | .calling .exit _ => true
  | _ => false

/-- The guard and its participants, with the entries, the disposals, and how many were inside at
each cleanup. -/
structure System where
  state : UInt8 := 0
  stages : List Stage
  entries : Nat := 0
  disposals : Nat := 0
  cleanups : List Nat := []

inductive Action
  | load (who : Nat) (call : Call)
  | compareExchangeWeak (who : Nat) (spurious : Bool)

namespace System

variable (system : System)

def inside : Nat := system.stages.countP Stage.isInside

def move (who : Nat) (stage : Stage) : System :=
  { system with stages := system.stages.set who stage }

def step : Action → System
  | .load who call =>
    match system.stages[who]?, call with
    | some .outside, .tryEnter | some .outside, .tryDispose | some .inside, .exit =>
      system.move who (.calling call system.state)
    | _, _ => system
  | .compareExchangeWeak who spurious =>
    match system.stages[who]? with
    | some (.calling call current) =>
      match call.pass current with
      | .done _ => system.move who .outside
      | .exchange next cleans =>
        if system.state = current ∧ !spurious then
          let moved := system.move who (if call = .tryEnter then .inside else .outside)
          { moved with
            state := next
            entries := system.entries + if call = .tryEnter then 1 else 0
            disposals := system.disposals + if call = .tryDispose then 1 else 0
            cleanups := system.cleanups ++ if cleans then [moved.inside] else [] }
        else system.move who (.calling call system.state)
    | _ => system

def run (actions : List Action) : System := actions.foldl step system

def word (disposed : Bool) (active : Nat) : UInt8 :=
  (if disposed then flagDisposed else 0) + UInt8.ofNat active

/-- The byte tells who is inside, and the clean-up was handed over if it is due. -/
structure Sound (system : System) : Prop where
  fits : system.inside ≤ 127
  state : system.state = word (0 < system.disposals) system.inside
  cleanups : system.cleanups = if 0 < system.disposals ∧ system.inside = 0 then [0] else []

theorem pass_word : ∀ call disposed, ∀ active : Fin 128, (call = .exit → 0 < active) →
    Call.pass (word disposed active) call =
      match call, disposed with
      | .tryEnter, true | .tryDispose, true => .done false
      | .tryEnter, false =>
        if active = 127 then .done false else .exchange (word false (active + 1)) false
      | .exit, _ => .exchange (word disposed (active - 1)) (disposed ∧ active = 1)
      | .tryDispose, false => .exchange (word true active) (active = 0) := by
  intro call
  cases call <;> decide +kernel

variable {system : System} {who : Nat} {old : Stage}

theorem inside_move (here : system.stages[who]? = some old) (stage : Stage) :
    (system.move who stage).inside + old.isInside.toNat = system.inside + stage.isInside.toNat := by
  obtain ⟨bound, rfl⟩ := List.getElem?_eq_some_iff.mp here
  have positive : system.stages[who].isInside → 0 < system.stages.countP Stage.isInside :=
    fun holds => List.countP_pos_iff.mpr ⟨_, List.getElem_mem bound, holds⟩
  rw [inside, move, List.countP_set bound, inside]
  grind

theorem Sound.move (sound : system.Sound) (here : system.stages[who]? = some old) {stage : Stage}
    (same : stage.isInside = old.isInside) : (system.move who stage).Sound := by
  have inside : (system.move who stage).inside = system.inside := by
    have moved := inside_move here stage
    rw [same] at moved
    omega
  exact ⟨inside ▸ sound.fits, inside ▸ sound.state, inside ▸ sound.cleanups⟩

theorem Sound.step (sound : system.Sound) (action : Action) : (system.step action).Sound ∧
    (0 < system.disposals → 0 < (system.step action).disposals ∧
      (system.step action).entries = system.entries) := by
  have idle : 0 < system.disposals → 0 < system.disposals ∧ system.entries = system.entries :=
    fun disposed => ⟨disposed, rfl⟩
  cases action with
  | load who call =>
    unfold System.step
    dsimp only
    split
    case h_4 => exact ⟨sound, idle⟩
    all_goals
      rename_i here
      exact ⟨sound.move here rfl, idle⟩
  | compareExchangeWeak who spurious =>
    unfold System.step
    dsimp only
    split
    case h_2 => exact ⟨sound, idle⟩
    case h_1 call current here =>
      split
      case h_1 passed =>
        refine ⟨sound.move here ?_, idle⟩
        cases call with
        | exit => cases passed
        | tryEnter | tryDispose => rfl
      case h_2 next cleans passed =>
        split
        case isFalse => exact ⟨sound.move here (by cases call <;> rfl), idle⟩
        case isTrue won =>
          obtain ⟨rfl, -⟩ := won
          have fits := sound.fits
          have moved := inside_move here (if call = .tryEnter then .inside else .outside)
          have held : call = .exit → 0 < system.inside := by
            rintro rfl
            simp [Stage.isInside] at moved
            omega
          have passes := pass_word call (0 < system.disposals) ⟨system.inside, by omega⟩ held
          rw [← sound.state, passed] at passes
          have cleanups := sound.cleanups
          refine ⟨⟨(?_ : (system.move who _).inside ≤ 127),
            (?_ : next = word _ (system.move who _).inside),
            (?_ : _ = if 0 < _ ∧ (system.move who _).inside = 0 then [0] else [])⟩, ?_⟩
          all_goals cases call <;> by_cases disposed : 0 < system.disposals <;>
              grind [Stage.isInside]

theorem Sound.run (sound : system.Sound) (actions : List Action) : (system.run actions).Sound ∧
    (0 < system.disposals → (system.run actions).entries = system.entries) := by
  induction actions generalizing system with
  | nil => exact ⟨sound, fun _ => rfl⟩
  | cons action actions ih =>
    obtain ⟨kept, late⟩ := sound.step action
    obtain ⟨after, entries⟩ := ih kept
    exact ⟨after, fun disposed => (entries (late disposed).1).trans (late disposed).2⟩

/-- In every interleaving the count is that of the workers inside, nobody enters after a disposal,
and exactly one participant is told to clean up, while nobody is inside. -/
theorem run_cleansOnce (participants : Nat) (actions later : List Action) :
    let system := run { stages := .replicate participants .outside } actions
    (system.state &&& activeCountMask).toNat = system.inside ∧ system.inside ≤ 127 ∧
      (0 < system.disposals → (system.run later).entries = system.entries) ∧
      system.cleanups = if 0 < system.disposals ∧ system.inside = 0 then [0] else [] := by
  have start : Sound { stages := .replicate participants .outside } := by
    have nobody : inside { stages := .replicate participants .outside } = 0 := by
      simp [inside, List.countP_replicate, Stage.isInside]
    exact ⟨by omega, by rw [nobody]; rfl, by rfl⟩
  intro system
  have sound := (start.run actions).1
  refine ⟨?_, sound.fits, (sound.run later).2, sound.cleanups⟩
  have masked : ∀ disposed, ∀ active : Fin 128,
      (word disposed active &&& activeCountMask).toNat = active := by decide +kernel
  rw [sound.state]
  exact masked _ ⟨system.inside, Nat.lt_succ_of_le sound.fits⟩

end System

end Wedb.Repl.CooperativeDisposeGuard
