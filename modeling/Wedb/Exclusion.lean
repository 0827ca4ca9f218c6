/-
Calls which exclude each other key by key have the results of running one after the other in the
order in which they finish. The state which that order leaves differs from the real one only at keys
that a call in progress holds.
-/

import Mathlib.Data.List.Basic
import Mathlib.Data.List.Nodup
import Wedb.Program

namespace Wedb

open Calls Function

section Exclusion

variable {Op : Type} {Answer : Op → Type} {Result State Key Value ι : Type} [DecidableEq Key]

/-- Operations that read and write the value under one key only. -/
structure LocalAccess (exec : (op : Op) → State → Answer op × State) (key : Op → Key)
    (Value : Type) where
  view : State → Key → Value
  act : (op : Op) → Value → Answer op × Value
  answer_eq : ∀ op state, (exec op state).1 = (act op (view state (key op))).1
  view_eq : ∀ op state, view (exec op state).2 =
    Function.update (view state) (key op) (act op (view state (key op))).2

def onValues (key : Op → Key) (act : (op : Op) → Value → Answer op × Value) (op : Op)
    (values : Key → Value) : Answer op × (Key → Value) :=
  ((act op (values (key op))).1, Function.update values (key op) (act op (values (key op))).2)

variable {exec : (op : Op) → State → Answer op × State} {key : Op → Key}

theorem run_step_onValues (act : (op : Op) → Value → Answer op × Value) (op : Op)
    (next : Answer op → Program Op Answer Result) (values : Key → Value) :
    (Program.step op next).run (onValues key act) values =
      (next (act op (values (key op))).1).run (onValues key act)
        (update values (key op) (act op (values (key op))).2) := rfl

/-- A program run alone does to the values what it does to the state. -/
theorem LocalAccess.run_eq (access : LocalAccess exec key Value)
    (program : Program Op Answer Result) (state : State) :
    program.run (onValues key access.act) (access.view state) =
      ((program.run exec state).1, access.view (program.run exec state).2) := by
  induction program generalizing state with
  | done result => rfl
  | step op next ih =>
    show (next _).run _ _ = _
    have answer : (onValues key access.act op (access.view state)).1 = (exec op state).1 :=
      (access.answer_eq op state).symm
    have after : (onValues key access.act op (access.view state)).2 =
        access.view (exec op state).2 := (access.view_eq op state).symm
    rw [answer, after, ih]
    rfl

theorem LocalAccess.serial_eq (access : LocalAccess exec key Value)
    (programs : ι → Program Op Answer Result) (order : List ι) (state : State) :
    serial (onValues key access.act) programs order (access.view state) =
      ((serial exec programs order state).1, access.view (serial exec programs order state).2) := by
  induction order generalizing state with
  | nil => rfl
  | cons call order ih =>
    simp only [serial, access.run_eq, ih]

variable {op : Op} {call : ι}

def touch (key : Op → Key) (op : Op) (_ : State) (held : List Key) : List Key :=
  key op :: held

/-- The next operation of a call touches no key that another call holds. -/
def Exclusive (key : Op → Key) (calls : Calls Op Answer Result State (List Key) ι)
    (call : ι) : Prop :=
  ∀ op next, calls.rest call = .step op next → ∀ other, other ≠ call → key op ∉ calls.notes other

omit [DecidableEq Key] in
theorem exclusive_of_rest {calls : Calls Op Answer Result State (List Key) ι}
    {next : Answer op → Program Op Answer Result} (program : calls.rest call = .step op next)
    (free : ∀ other, other ≠ call → key op ∉ calls.notes other) : Exclusive key calls call := by
  intro otherOp otherNext same other different
  rw [program] at same
  cases same
  exact free other different

def overlay (keys : List Key) (inside outside : Key → Value) (key : Key) : Value :=
  if key ∈ keys then inside key else outside key

theorem overlay_of_mem {keys : List Key} {key : Key} (member : key ∈ keys)
    (inside outside : Key → Value) : overlay keys inside outside key = inside key :=
  if_pos member

theorem overlay_of_not_mem {keys : List Key} {key : Key} (absent : key ∉ keys)
    (inside outside : Key → Value) : overlay keys inside outside key = outside key :=
  if_neg absent

/-- The calls in progress against the values the finished calls leave one after the other. -/
structure Separated (access : LocalAccess exec key Value)
    (programs : ι → Program Op Answer Result) (initial : State)
    (calls : Calls Op Answer Result State (List Key) ι) (order : List ι) (values : Key → Value) :
    Prop where
  nodup : order.Nodup
  results : (serial (onValues key access.act) programs order (access.view initial)).1.map some =
    order.map fun call => (calls.rest call).result?
  finished : ∀ call, (calls.rest call).result?.isSome → call ∈ order
  values_eq : values = (serial (onValues key access.act) programs order (access.view initial)).2
  disjoint : ∀ first second held, held ∈ calls.notes first → held ∈ calls.notes second →
    first = second
  agree : ∀ free, (∀ call, free ∉ calls.notes call) → access.view calls.state free = values free
  replay : ∀ call, call ∉ order → ∀ start : Key → Value,
    (∀ held ∈ calls.notes call, start held = values held) →
      (programs call).run (onValues key access.act) start =
        (calls.rest call).run (onValues key access.act)
          (overlay (calls.notes call) (access.view calls.state) start)

variable {access : LocalAccess exec key Value} {programs : ι → Program Op Answer Result}
variable {initial : State}

theorem separated_start (begins : ∀ call, (programs call).result? = none) :
    Separated access programs initial (Calls.start programs [] initial) []
      (access.view initial) where
  nodup := List.nodup_nil
  results := rfl
  finished call done := by
    have program : (programs call).result?.isSome := done
    rw [begins] at program
    cases program
  values_eq := rfl
  disjoint _ _ _ held := by cases held
  agree _ _ := rfl
  replay call _ start _ := by
    have nothing : overlay [] (access.view initial) start = start := by
      funext key
      exact overlay_of_not_mem List.not_mem_nil _ _
    show _ = (programs call).run _ (overlay [] (access.view initial) start)
    rw [nothing]

variable {calls : Calls Op Answer Result State (List Key) ι} {order : List ι} {values : Key → Value}

section

variable (separated : Separated access programs initial calls order values)

include separated

theorem Separated.not_mem (unfinished : (calls.rest call).result? = none) : call ∉ order := by
  intro member
  have some := List.mem_map_of_mem (f := fun call => (calls.rest call).result?) member
  rw [← separated.results] at some
  obtain ⟨result, -, same⟩ := List.mem_map.mp some
  rw [unfinished] at same
  cases same

theorem Separated.agree_untouched {place : Key} (untouched : place ∉ key op :: calls.notes call)
    (free : ∀ other, other ≠ call → place ∉ calls.notes other) :
    access.view (exec op calls.state).2 place = values place := by
  have elsewhere : place ≠ key op := by
    intro here
    rw [here] at untouched
    exact untouched List.mem_cons_self
  rw [access.view_eq, update_of_ne elsewhere]
  refine separated.agree place fun other => ?_
  by_cases same : other = call
  · rw [same]
    exact fun member => untouched (List.mem_cons_of_mem _ member)
  · exact free other same

theorem Separated.results_stepped [DecidableEq ι] (outside : call ∉ order) (op : Op)
    (rest : Program Op Answer Result) (held : List Key) :
    (serial (onValues key access.act) programs order (access.view initial)).1.map some =
      order.map fun other => ((calls.stepped exec call op rest held).rest other).result? := by
  rw [separated.results]
  refine List.map_congr_left fun other member => ?_
  have different : other ≠ call := by
    intro same
    rw [same] at member
    exact outside member
  rw [stepped_rest_other calls op rest held different]

section

variable {next : Answer op → Program Op Answer Result}
variable (program : calls.rest call = .step op next) (exclusive : Exclusive key calls call)

include program exclusive

theorem Separated.replay_step (start : Key → Value)
    (same : ∀ held ∈ key op :: calls.notes call, start held = values held) :
    (programs call).run (onValues key access.act) start =
      (next (exec op calls.state).1).run (onValues key access.act)
        (overlay (key op :: calls.notes call) (access.view (exec op calls.state).2) start) := by
  have outside : call ∉ order := separated.not_mem (by rw [program]; rfl)
  have before := separated.replay call outside start fun held member =>
    same held (List.mem_cons_of_mem _ member)
  have current : overlay (calls.notes call) (access.view calls.state) start (key op) =
      access.view calls.state (key op) := by
    by_cases mine : key op ∈ calls.notes call
    · exact overlay_of_mem mine _ _
    · rw [overlay_of_not_mem mine, same _ List.mem_cons_self, separated.agree]
      intro other
      by_cases self : other = call
      · rw [self]
        exact mine
      · exact exclusive op next program other self
  have after : update (overlay (calls.notes call) (access.view calls.state) start) (key op)
        (access.act op (access.view calls.state (key op))).2 =
      overlay (key op :: calls.notes call) (access.view (exec op calls.state).2) start := by
    funext place
    rw [access.view_eq]
    by_cases here : place = key op
    · rw [here, update_self, overlay_of_mem List.mem_cons_self, update_self]
    · rw [update_of_ne here]
      unfold overlay
      rw [update_of_ne here]
      simp [here]
  rw [before, program, run_step_onValues, current, after, access.answer_eq]

theorem Separated.not_touched {other : ι} (different : other ≠ call) {place : Key}
    (held : place ∈ calls.notes other) : place ∉ key op :: calls.notes call := by
  intro touched
  rcases List.mem_cons.mp touched with same | mine
  · rw [same] at held
    exact exclusive op next program other different held
  · exact different (separated.disjoint other call place held mine)

theorem Separated.replay_other {other : ι} (different : other ≠ call) (outside : other ∉ order)
    (start : Key → Value) (same : ∀ held ∈ calls.notes other, start held = values held) :
    (programs other).run (onValues key access.act) start =
      (calls.rest other).run (onValues key access.act)
        (overlay (calls.notes other) (access.view (exec op calls.state).2) start) := by
  have frame : overlay (calls.notes other) (access.view (exec op calls.state).2) start =
      overlay (calls.notes other) (access.view calls.state) start := by
    funext place
    by_cases member : place ∈ calls.notes other
    · have elsewhere : place ≠ key op := by
        intro here
        rw [here] at member
        exact exclusive op next program other different member
      rw [overlay_of_mem member, overlay_of_mem member, access.view_eq, update_of_ne elsewhere]
    · rw [overlay_of_not_mem member, overlay_of_not_mem member]
  rw [frame]
  exact separated.replay other outside start same

variable [DecidableEq ι]

/-- A step after which the call still has work to do keeps the invariant. -/
theorem Separated.goOn (unfinished : (next (exec op calls.state).1).result? = none) :
    Separated access programs initial
      (calls.stepped exec call op (next (exec op calls.state).1) (key op :: calls.notes call))
      order values where
  nodup := separated.nodup
  results := separated.results_stepped (separated.not_mem (by rw [program]; rfl)) op _ _
  finished other done := by
    by_cases same : other = call
    · rw [same, stepped_rest_self, unfinished] at done
      cases done
    · rw [stepped_rest_other _ _ _ _ same] at done
      exact separated.finished other done
  values_eq := separated.values_eq
  disjoint first second place inFirst inSecond := by
    by_cases firstSame : first = call
    · by_cases secondSame : second = call
      · rw [firstSame, secondSame]
      · rw [firstSame, stepped_notes_self] at inFirst
        rw [stepped_notes_other _ _ _ _ secondSame] at inSecond
        exact absurd inFirst (separated.not_touched program exclusive secondSame inSecond)
    · rw [stepped_notes_other _ _ _ _ firstSame] at inFirst
      by_cases secondSame : second = call
      · rw [secondSame, stepped_notes_self] at inSecond
        exact absurd inSecond (separated.not_touched program exclusive firstSame inFirst)
      · rw [stepped_notes_other _ _ _ _ secondSame] at inSecond
        exact separated.disjoint first second place inFirst inSecond
  agree place free := by
    have mine := free call
    rw [stepped_notes_self] at mine
    refine separated.agree_untouched mine fun other different => ?_
    have theirs := free other
    rwa [stepped_notes_other _ _ _ _ different] at theirs
  replay other outside start same := by
    obtain rfl | mine := eq_or_ne other call
    · rw [stepped_notes_self] at same ⊢
      rw [stepped_rest_self]
      exact separated.replay_step program exclusive start same
    · rw [stepped_notes_other _ _ _ _ mine] at same ⊢
      rw [stepped_rest_other _ _ _ _ mine]
      exact separated.replay_other program exclusive mine outside start same

/-- A step with which the call finishes puts it at the end of the order. -/
theorem Separated.finish {result : Result} (done : next (exec op calls.state).1 = .done result) :
    Separated access programs initial
      (calls.stepped exec call op (next (exec op calls.state).1) []) (order ++ [call])
      (overlay (key op :: calls.notes call) (access.view (exec op calls.state).2) values) := by
  have outside : call ∉ order := separated.not_mem (by rw [program]; rfl)
  have alone := separated.replay_step program exclusive values fun _ _ => rfl
  rw [done, Program.run] at alone
  have serialized := serial_append_singleton (onValues key access.act) programs order call
    (access.view initial)
  rw [← separated.values_eq, alone] at serialized
  refine ⟨?_, ?_, ?_, ?_, ?_, ?_, ?_⟩
  · exact List.nodup_append.mpr ⟨separated.nodup, List.nodup_singleton call, by
      intro first member second same equal
      rw [equal, List.mem_singleton.mp same] at member
      exact outside member⟩
  · rw [serialized, List.map_append, List.map_append,
      separated.results_stepped outside op (next (exec op calls.state).1) []]
    simp [done, Program.result?]
  · intro other finished
    rw [List.mem_append, List.mem_singleton]
    by_cases same : other = call
    · exact .inr same
    · rw [stepped_rest_other _ _ _ _ same] at finished
      exact .inl (separated.finished other finished)
  · rw [serialized]
  · intro first second place inFirst inSecond
    by_cases firstSame : first = call
    · rw [firstSame, stepped_notes_self] at inFirst
      cases inFirst
    · by_cases secondSame : second = call
      · rw [secondSame, stepped_notes_self] at inSecond
        cases inSecond
      · rw [stepped_notes_other _ _ _ _ firstSame] at inFirst
        rw [stepped_notes_other _ _ _ _ secondSame] at inSecond
        exact separated.disjoint first second place inFirst inSecond
  · intro place free
    by_cases touched : place ∈ key op :: calls.notes call
    · rw [overlay_of_mem touched, stepped_state]
    · rw [overlay_of_not_mem touched]
      refine separated.agree_untouched touched fun other different => ?_
      have theirs := free other
      rwa [stepped_notes_other _ _ _ _ different] at theirs
  · intro other notInOrder start same
    rw [List.mem_append, List.mem_singleton, not_or] at notInOrder
    rw [stepped_notes_other _ _ _ _ notInOrder.2] at same ⊢
    rw [stepped_rest_other _ _ _ _ notInOrder.2]
    refine separated.replay_other program exclusive notInOrder.2 notInOrder.1 start ?_
    intro place held
    rw [same place held, overlay_of_not_mem]
    exact separated.not_touched program exclusive notInOrder.2 held

end

variable [DecidableEq ι] {after : Calls Op Answer Result State (List Key) ι}

theorem Separated.advance (exclusive : Exclusive key calls call)
    (advanced : calls.advance exec (touch key) [] call = some after) :
    ∃ order values, Separated access programs initial after order values := by
  obtain ⟨op, next, program, ⟨unfinished, same⟩ | ⟨result, done, same⟩⟩ := advance_cases advanced
  · rw [same]
    exact ⟨_, _, separated.goOn program exclusive unfinished⟩
  · have finished := separated.finish program exclusive done
    rw [done] at finished
    rw [same]
    exact ⟨_, _, finished⟩

end

variable [DecidableEq ι] {after : Calls Op Answer Result State (List Key) ι}

theorem separated_of_runs (access : LocalAccess exec key Value)
    (begins : ∀ call, (programs call).result? = none)
    (runs : Calls.Runs exec (touch key) [] (Exclusive key) (Calls.start programs [] initial)
      after) : ∃ order values, Separated access programs initial after order values := by
  induction runs with
  | refl => exact ⟨[], _, separated_start begins⟩
  | tail _ exclusive advanced ih =>
    obtain ⟨order, values, separated⟩ := ih
    exact separated.advance exclusive advanced

/-- Calls that exclude each other key by key have the results, and at the end the values, of running
one after the other. -/
theorem serial_of_exclusive (access : LocalAccess exec key Value)
    (begins : ∀ call, (programs call).result? = none)
    (runs : Calls.Runs exec (touch key) [] (Exclusive key) (Calls.start programs [] initial) after)
    (quiet : ∀ call, after.notes call = []) :
    ∃ order : List ι, order.Nodup ∧ (∀ call, (after.rest call).result?.isSome → call ∈ order) ∧
      (serial exec programs order initial).1.map some =
        order.map (fun call => (after.rest call).result?) ∧
      access.view (serial exec programs order initial).2 = access.view after.state := by
  obtain ⟨order, values, separated⟩ := separated_of_runs access begins runs
  have results := separated.results
  have left : values = access.view (serial exec programs order initial).2 := by
    rw [separated.values_eq, access.serial_eq]
  rw [access.serial_eq] at results
  refine ⟨order, separated.nodup, separated.finished, results, ?_⟩
  rw [← left]
  funext place
  refine (separated.agree place fun call held => ?_).symm
  rw [quiet] at held
  cases held

end Exclusion

end Wedb
