/-
Calls are atomic when each takes effect at one of its steps, where alone what an observer sees
changes. What a call has learned is kept by every step, or is what it last saw; if each write on the
strength of that still finds it so, the calls run as if in the order of their effects.
-/

import Mathlib.Data.List.Basic
import Mathlib.Data.List.Nodup
import Wedb.Program

namespace Wedb

open Calls List

section Linearization

variable {Op : Type} {Answer : Op → Type} {Result State Note Seen ι : Type}

/-- How calls take notes, what an observer sees, and what every step guarantees. -/
structure Discipline (Op State Note Seen : Type) where
  seen : State → Seen
  blank : Note
  write : Op → State → Note → Note
  /-- What a note says that no other call can change. -/
  holds : Note → State → Prop
  /-- What a note says about the last look, which other calls may have overtaken. -/
  fresh : Note → State → Prop
  /-- The operations that rely on the last look. -/
  relies : Op → State → Prop
  /-- What every step keeps. -/
  guarantee : State → State → Prop
  holds_blank : ∀ state, holds blank state
  fresh_blank : ∀ state, fresh blank state
  holds_of_guarantee : ∀ note before after,
    guarantee before after → holds note before → holds note after

variable (discipline : Discipline Op State Note Seen) (exec : (op : Op) → State → Answer op × State)

/-- A program that has taken effect: it will return the result and change nothing seen. -/
def Settled (result : Result) : Program Op Answer Result → Note → Prop
  | .done returned, _ => returned = result
  | .step op next, note => ∀ state, discipline.holds note state →
      discipline.guarantee state (exec op state).2 ∧
      discipline.seen (exec op state).2 = discipline.seen state ∧
      discipline.holds (discipline.write op state note) (exec op state).2 ∧
      Settled result (next (exec op state).1) (discipline.write op state note)

/-- A program that has still to take effect, as its meaning says. -/
def Pending (meaning : Seen → Result × Seen) : Program Op Answer Result → Note → Prop
  | .done _, _ => False
  | .step op next, note => ∀ state, discipline.holds note state →
      (discipline.relies op state → discipline.fresh note state) →
      discipline.guarantee state (exec op state).2 ∧
      discipline.holds (discipline.write op state note) (exec op state).2 ∧
      ((∃ result, meaning (discipline.seen state) = (result, discipline.seen (exec op state).2) ∧
          Settled discipline exec result (next (exec op state).1)
            (discipline.write op state note)) ∨
        (discipline.seen (exec op state).2 = discipline.seen state ∧ (discipline.fresh note state →
            discipline.fresh (discipline.write op state note) (exec op state).2) ∧
          Pending meaning (next (exec op state).1) (discipline.write op state note)))

variable {discipline exec}

variable {result : Result} {program : Program Op Answer Result} {note : Note} {state : State}

/-- A settled program run alone returns its result and changes nothing seen. -/
theorem Settled.run (settled : Settled discipline exec result program note)
    (holds : discipline.holds note state) :
    (program.run exec state).1 = result ∧
      discipline.seen (program.run exec state).2 = discipline.seen state := by
  induction program generalizing note state with
  | done returned => exact ⟨settled, rfl⟩
  | step op next ih =>
    obtain ⟨-, same, kept, rest⟩ := settled state holds
    have alone := ih (exec op state).1 rest kept
    rw [same] at alone
    exact alone

variable {meaning : Seen → Result × Seen}

/-- A pending program run alone does what its meaning says. -/
theorem Pending.run (pending : Pending discipline exec meaning program note)
    (holds : discipline.holds note state) (fresh : discipline.fresh note state) :
    meaning (discipline.seen state) =
      ((program.run exec state).1, discipline.seen (program.run exec state).2) := by
  induction program generalizing note state with
  | done returned => exact pending.elim
  | step op next ih =>
    obtain ⟨-, kept, ⟨result, means, settled⟩ | ⟨same, look, rest⟩⟩ :=
      pending state holds fun _ => fresh
    · obtain ⟨returned, unchanged⟩ := settled.run kept
      rw [means]
      exact Prod.ext returned.symm unchanged.symm
    · have alone := ih (exec op state).1 rest kept (look fresh)
      rw [same] at alone
      exact alone

variable {programs : ι → Program Op Answer Result} {initial : State}
variable {meanings : ι → Seen → Result × Seen}

/-- The calls in the order have taken effect one after the other, the others not yet. -/
structure Linearized (discipline : Discipline Op State Note Seen)
    (exec : (op : Op) → State → Answer op × State) (meanings : ι → Seen → Result × Seen)
    (programs : ι → Program Op Answer Result) (initial : State)
    (calls : Calls Op Answer Result State Note ι) (order : List ι) (results : ι → Result) :
    Prop where
  nodup : order.Nodup
  results_eq : (serial exec programs order initial).1 = order.map results
  seen_eq : discipline.seen (serial exec programs order initial).2 = discipline.seen calls.state
  holds : ∀ call, discipline.holds (calls.notes call) calls.state
  settled : ∀ call ∈ order,
    Settled discipline exec (results call) (calls.rest call) (calls.notes call)
  pending : ∀ call ∉ order,
    Pending discipline exec (meanings call) (calls.rest call) (calls.notes call)

variable {calls : Calls Op Answer Result State Note ι} {order : List ι} {results : ι → Result}

variable {call : ι}

theorem linearized_start
    (pending : ∀ call, Pending discipline exec (meanings call) (programs call) discipline.blank)
    (results : ι → Result) : Linearized discipline exec meanings programs initial
      (Calls.start programs discipline.blank initial) [] results where
  nodup := nodup_nil
  results_eq := rfl
  seen_eq := rfl
  holds _ := discipline.holds_blank initial
  settled _ member := by cases member
  pending call _ := pending call

section

variable (linearized : Linearized discipline exec meanings programs initial calls order results)

include linearized

theorem Linearized.of_done
    (done : calls.rest call = .done result) : call ∈ order ∧ results call = result := by
  have member : call ∈ order := by
    by_contra outside
    have pending := linearized.pending call outside
    rw [done] at pending
    exact pending
  have settled := linearized.settled call member
  rw [done] at settled
  exact ⟨member, settled.symm⟩

theorem Linearized.serial_append {seen : Seen}
    (begins : Pending discipline exec (meanings call) (programs call) discipline.blank)
    (means : meanings call (discipline.seen calls.state) = (result, seen)) :
    (serial exec programs (order ++ [call]) initial).1 = order.map results ++ [result] ∧
      discipline.seen (serial exec programs (order ++ [call]) initial).2 = seen := by
  have alone := begins.run (discipline.holds_blank (serial exec programs order initial).2)
    (discipline.fresh_blank _)
  rw [linearized.seen_eq, means] at alone
  rw [serial_append_singleton, linearized.results_eq]
  have returned := (Prod.mk.inj alone).1
  have left := (Prod.mk.inj alone).2
  rw [← returned, ← left]
  exact ⟨rfl, rfl⟩

end

variable [DecidableEq ι] {after : Calls Op Answer Result State Note ι}

/-- The next operation of a call relies on its last look only while that is fresh. -/
def Unraced (discipline : Discipline Op State Note Seen)
    (calls : Calls Op Answer Result State Note ι) (call : ι) : Prop :=
  ∀ op next, calls.rest call = .step op next → discipline.relies op calls.state →
    discipline.fresh (calls.notes call) calls.state

omit [DecidableEq ι] in
theorem unraced_of_rest {op : Op} {next : Answer op → Program Op Answer Result}
    (program : calls.rest call = .step op next)
    (fresh : discipline.relies op calls.state → discipline.fresh (calls.notes call) calls.state) :
    Unraced discipline calls call := by
  intro other rest same
  rw [program] at same
  cases same
  exact fresh

section

variable (linearized : Linearized discipline exec meanings programs initial calls order results)

include linearized

/-- The notes of all calls still hold after a step that keeps the guarantee. -/
theorem Linearized.holds_stepped {op : Op} (rest : Program Op Answer Result)
    (guarantee : discipline.guarantee calls.state (exec op calls.state).2)
    (kept : discipline.holds note (exec op calls.state).2) (other : ι) :
    discipline.holds ((calls.stepped exec call op rest note).notes other)
      (exec op calls.state).2 := by
  by_cases same : other = call
  · rw [same, stepped_notes_self]
    exact kept
  · rw [stepped_notes_other _ _ _ _ same]
    exact discipline.holds_of_guarantee _ _ _ guarantee (linearized.holds other)

variable {rest : Program Op Answer Result}

/-- A step that changes nothing seen leaves the order as it is. -/
theorem Linearized.goOn {op : Op}
    (guarantee : discipline.guarantee calls.state (exec op calls.state).2)
    (kept : discipline.holds note (exec op calls.state).2)
    (same : discipline.seen (exec op calls.state).2 = discipline.seen calls.state)
    (settled : call ∈ order → Settled discipline exec (results call) rest note)
    (pending : call ∉ order → Pending discipline exec (meanings call) rest note) :
    Linearized discipline exec meanings programs initial (calls.stepped exec call op rest note)
      order results where
  nodup := linearized.nodup
  results_eq := linearized.results_eq
  seen_eq := linearized.seen_eq.trans same.symm
  holds := linearized.holds_stepped rest guarantee kept
  settled other member := by
    obtain rfl | mine := eq_or_ne other call
    · rw [stepped_rest_self, stepped_notes_self]
      exact settled member
    · rw [stepped_rest_other _ _ _ _ mine, stepped_notes_other _ _ _ _ mine]
      exact linearized.settled other member
  pending other outside := by
    obtain rfl | mine := eq_or_ne other call
    · rw [stepped_rest_self, stepped_notes_self]
      exact pending outside
    · rw [stepped_rest_other _ _ _ _ mine, stepped_notes_other _ _ _ _ mine]
      exact linearized.pending other outside

/-- A step at which a call takes effect puts it at the end of the order. -/
theorem Linearized.takeEffect {op : Op}
    (begins : Pending discipline exec (meanings call) (programs call) discipline.blank)
    (outside : call ∉ order) (guarantee : discipline.guarantee calls.state (exec op calls.state).2)
    (kept : discipline.holds note (exec op calls.state).2)
    (means : meanings call (discipline.seen calls.state) =
      (result, discipline.seen (exec op calls.state).2))
    (settled : Settled discipline exec result rest note) :
    Linearized discipline exec meanings programs initial (calls.stepped exec call op rest note)
      (order ++ [call]) (Function.update results call result) := by
  obtain ⟨returned, left⟩ := linearized.serial_append begins means
  have others : ∀ other ∈ order, other ≠ call := by
    intro other member same
    rw [same] at member
    exact outside member
  refine ⟨?_, ?_, left, linearized.holds_stepped rest guarantee kept, ?_, ?_⟩
  · exact nodup_append.mpr ⟨linearized.nodup, nodup_singleton call, by
      intro first member second last
      rw [mem_singleton.mp last]
      exact others first member⟩
  · rw [returned, map_append, map_singleton, Function.update_self]
    refine congrArg (· ++ [result]) (map_congr_left fun other member => ?_)
    exact (Function.update_of_ne (others other member) _ _).symm
  · intro other member
    obtain rfl | mine := eq_or_ne other call
    · rw [stepped_rest_self, stepped_notes_self, Function.update_self]
      exact settled
    · rw [stepped_rest_other _ _ _ _ mine, stepped_notes_other _ _ _ _ mine,
        Function.update_of_ne mine]
      rcases mem_append.mp member with earlier | last
      · exact linearized.settled other earlier
      · exact absurd (mem_singleton.mp last) mine
  · intro other notInOrder
    rw [mem_append, mem_singleton, not_or] at notInOrder
    rw [stepped_rest_other _ _ _ _ notInOrder.2, stepped_notes_other _ _ _ _ notInOrder.2]
    exact linearized.pending other notInOrder.1

end

omit [DecidableEq ι] in
theorem Settled.wipe (settled : Settled discipline exec result program note)
    (done : program.result?.isSome) (other : Note) :
    Settled discipline exec result program other := by
  cases program with
  | done returned => exact settled
  | step op next => cases done

omit [DecidableEq ι] in
theorem Pending.not_done
    (pending : Pending discipline exec meaning program note) : ¬program.result?.isSome := by
  cases program with
  | done returned => exact pending.elim
  | step op next => exact Bool.false_ne_true

theorem Linearized.advance
    (linearized : Linearized discipline exec meanings programs initial calls order results)
    (begins : ∀ call, Pending discipline exec (meanings call) (programs call) discipline.blank)
    (unraced : Unraced discipline calls call)
    (advanced : calls.advance exec discipline.write discipline.blank call = some after) :
    ∃ order results, Linearized discipline exec meanings programs initial after order results := by
  obtain ⟨op, next, note, program, stepped, noted⟩ := advance_noted advanced
  have mine := linearized.holds call
  have holds : discipline.holds (discipline.write op calls.state (calls.notes call))
      (exec op calls.state).2 → discipline.holds note (exec op calls.state).2 := by
    rcases noted with same | ⟨same, -⟩
    · rw [same]
      exact id
    · rw [same]
      exact fun _ => discipline.holds_blank _
  have settles : ∀ result, Settled discipline exec result (next (exec op calls.state).1)
      (discipline.write op calls.state (calls.notes call)) →
      Settled discipline exec result (next (exec op calls.state).1) note := by
    rcases noted with same | ⟨-, done⟩
    · rw [same]
      exact fun _ => id
    · exact fun _ settled => settled.wipe done note
  rw [stepped]
  by_cases member : call ∈ order
  · have settled := linearized.settled call member
    rw [program] at settled
    obtain ⟨guarantee, same, kept, rest⟩ := settled calls.state mine
    exact ⟨order, results, linearized.goOn guarantee (holds kept) same
      (fun _ => settles _ rest) fun outside => absurd member outside⟩
  · have pending := linearized.pending call member
    rw [program] at pending
    obtain ⟨guarantee, kept, ⟨result, means, rest⟩ | ⟨same, -, rest⟩⟩ :=
      pending calls.state mine (unraced op next program)
    · exact ⟨_, _, linearized.takeEffect (begins call) member guarantee (holds kept) means
        (settles _ rest)⟩
    · rcases noted with written | ⟨-, done⟩
      · rw [written]
        exact ⟨order, results, linearized.goOn guarantee kept same
          (fun inside => absurd inside member) fun _ => rest⟩
      · exact absurd done rest.not_done

section

variable (begins : ∀ call, Pending discipline exec (meanings call) (programs call) discipline.blank)

include begins

theorem linearized_of_runs
    (runs : Calls.Runs exec discipline.write discipline.blank (Unraced discipline)
      (Calls.start programs discipline.blank initial) after) :
    ∃ order results, Linearized discipline exec meanings programs initial after order results := by
  induction runs with
  | refl => exact ⟨[], _, linearized_start begins fun call => ((programs call).run exec initial).1⟩
  | tail _ unraced advanced ih =>
    obtain ⟨order, results, linearized⟩ := ih
    exact linearized.advance begins unraced advanced

/-- Calls that take effect at one step each have the results of running one after the other. -/
theorem serial_of_unraced
    (runs : Calls.Runs exec discipline.write discipline.blank (Unraced discipline)
      (Calls.start programs discipline.blank initial) after)
    (finished : ∀ call, (after.rest call).result?.isSome) :
    ∃ order : List ι, order.Nodup ∧ (∀ call, call ∈ order) ∧
      (serial exec programs order initial).1.map some =
        order.map (fun call => (after.rest call).result?) ∧
      discipline.seen (serial exec programs order initial).2 = discipline.seen after.state := by
  obtain ⟨order, results, linearized⟩ := linearized_of_runs begins runs
  have done : ∀ call, call ∈ order ∧ (after.rest call).result? = some (results call) := by
    intro call
    cases rest : after.rest call with
    | done result =>
      obtain ⟨member, same⟩ := linearized.of_done rest
      rw [same]
      exact ⟨member, rfl⟩
    | step op next =>
      have isDone := finished call
      rw [rest] at isDone
      cases isDone
  refine ⟨order, linearized.nodup, fun call => (done call).1, ?_, linearized.seen_eq⟩
  rw [linearized.results_eq, map_map]
  exact map_congr_left fun call _ => (done call).2.symm

end

end Linearization

end Wedb
