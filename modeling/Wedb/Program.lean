/-
A small library for calls that run step by step against a shared state. A program is a tree of
operations. Programs of several calls can be advanced in any order, each with a note about what it
has done, which only proofs and conditions on runs look at.
-/

import Mathlib.Logic.Function.Basic
import Wedb.Fallible

namespace Wedb

/-- A call as the sequence of operations it will make. -/
inductive Program (Op : Type) (Answer : Op → Type) (Result : Type)
  | done (result : Result)
  | step (op : Op) (next : Answer op → Program Op Answer Result)

namespace Program

variable {Op : Type} {Answer : Op → Type} {α β ε Result State : Type}

protected def bind : Program Op Answer α → (α → Program Op Answer β) → Program Op Answer β
  | .done result, next => next result
  | .step op rest, next => .step op fun answer => (rest answer).bind next

instance : Monad (Program Op Answer) where
  pure := .done
  bind := Program.bind

instance : LawfulMonad (Program Op Answer) := LawfulMonad.mk' _
  (fun program => by
    show program.bind .done = program
    induction program with
    | done result => rfl
    | step op rest ih =>
      exact congrArg (Program.step op) (funext fun answer => ih answer))
  (fun _ _ => rfl)
  (fun program next last => by
    show (program.bind next).bind last = program.bind fun value => (next value).bind last
    induction program with
    | done result => rfl
    | step op rest ih =>
      exact congrArg (Program.step op) (funext fun answer => ih answer))

def call (op : Op) : Program Op Answer (Answer op) := .step op .done

def result? : Program Op Answer Result → Option Result
  | .done result => some result
  | .step _ _ => none

def run (exec : (op : Op) → State → Answer op × State) :
    Program Op Answer Result → State → Result × State
  | .done result, state => (result, state)
  | .step op next, state => (next (exec op state).1).run exec (exec op state).2

variable (exec : (op : Op) → State → Answer op × State)

theorem run_bind (program : Program Op Answer α) (next : α → Program Op Answer β)
    (state : State) : (program >>= next).run exec state =
      (next (program.run exec state).1).run exec (program.run exec state).2 := by
  induction program generalizing state with
  | done result => rfl
  | step op rest ih => exact ih (exec op state).1 (exec op state).2

/-- Whatever the answers are, a program makes only operations that meet a condition. -/
def Only (condition : Op → Prop) : Program Op Answer Result → Prop
  | .done _ => True
  | .step op next => condition op ∧ ∀ answer, (next answer).Only condition

variable {condition : Op → Prop}

theorem only_of_forall (every : ∀ op, condition op)
    (program : Program Op Answer Result) : program.Only condition := by
  induction program with
  | done result => trivial
  | step op next ih => exact ⟨every op, ih⟩

/-- Whatever the answers are, a program ends with a result that meets a condition. -/
def Ends (condition : Result → Prop) : Program Op Answer Result → Prop
  | .done result => condition result
  | .step _ next => ∀ answer, (next answer).Ends condition

variable {next : α → Program Op Answer β}

theorem Only.bind {program : Program Op Answer α} (only : program.Only condition)
    (follows : ∀ value, (next value).Only condition) : (program >>= next).Only condition := by
  induction program with
  | done result => exact follows result
  | step op rest ih => exact ⟨only.1, fun answer => ih answer (only.2 answer)⟩

theorem ends_bind {condition : β → Prop} (program : Program Op Answer α)
    (ends : ∀ value, (next value).Ends condition) :
    (program >>= next).Ends condition := by
  induction program with
  | done result => exact ends result
  | step op rest ih => exact ih

/-- Some answers lead a program through given operations to a result. -/
inductive Course : Program Op Answer Result → List (Σ op, Answer op) → Result → Prop
  | done (result : Result) : Course (.done result) [] result
  | step {op next answer rest result} (course : Course (next answer) rest result) :
      Course (.step op next) (⟨op, answer⟩ :: rest) result

theorem Course.of_bind {program : Program Op Answer α} {trace : List (Σ op, Answer op)}
    {result : β} (course : (program >>= next).Course trace result) : ∃ front value back,
      trace = front ++ back ∧ program.Course front value ∧ (next value).Course back result := by
  induction program generalizing trace with
  | done value => exact ⟨[], value, trace, rfl, .done value, course⟩
  | step op rest ih =>
    cases course with
    | @step _ _ answer others _ course =>
      obtain ⟨front, value, back, rfl, first, second⟩ := ih answer course
      exact ⟨⟨op, answer⟩ :: front, value, back, rfl, .step first, second⟩

/-- What every operation of a program keeps, the program run alone keeps. -/
theorem Only.run_within {relation : State → State → Prop}
    [Std.Refl relation] [IsTrans State relation]
    (kept : ∀ op state, condition op → relation state (exec op state).2)
    {program : Program Op Answer Result} (only : program.Only condition) (state : State) :
    relation state (program.run exec state).2 := by
  induction program generalizing state with
  | done result => exact Std.Refl.refl state
  | step op next ih =>
    exact IsTrans.trans _ _ _ (kept op state only.1)
      (ih (exec op state).1 (only.2 (exec op state).1) (exec op state).2)

variable (program : ExceptT ε (Program Op Answer) α)

def alone : Fallible State ε α :=
  ⟨program.run.run exec⟩

@[simp] theorem alone_pure (value : α) :
    alone exec (pure value : ExceptT ε (Program Op Answer) α) = pure value := rfl

theorem alone_bind (next : α → ExceptT ε (Program Op Answer) β) :
    alone exec (program >>= next) =
      alone exec program >>= fun value => alone exec (next value) := by
  refine congrArg Fallible.mk (funext fun state => ?_)
  show (program.run >>= ExceptT.bindCont next).run exec state = _
  rw [run_bind]
  cases returned : program.run.run exec state with
  | mk result after =>
    have alone : (alone exec program).run state = (result, after) := returned
    rw [alone]
    cases result <;> rfl

end Program

section Calls

variable {Op : Type} {Answer : Op → Type} {Result State Note ι : Type}

/-- Calls in progress: the shared state, what each has still to do, and its note. -/
structure Calls (Op : Type) (Answer : Op → Type) (Result State Note ι : Type) where
  state : State
  rest : ι → Program Op Answer Result
  notes : ι → Note

namespace Calls

def start (programs : ι → Program Op Answer Result) (blank : Note) (state : State) :
    Calls Op Answer Result State Note ι :=
  ⟨state, programs, fun _ => blank⟩

variable [DecidableEq ι] (exec : (op : Op) → State → Answer op × State)
variable (write : Op → State → Note → Note) (blank : Note)

def stepped (calls : Calls Op Answer Result State Note ι) (call : ι) (op : Op)
    (rest : Program Op Answer Result) (note : Note) : Calls Op Answer Result State Note ι :=
  ⟨(exec op calls.state).2, Function.update calls.rest call rest,
    Function.update calls.notes call note⟩

/-- The next operation of one call goes into its note, which is wiped at the end. -/
def advance (calls : Calls Op Answer Result State Note ι) (call : ι) :
    Option (Calls Op Answer Result State Note ι) :=
  match calls.rest call with
  | .done _ => none
  | .step op next =>
    let answer := (exec op calls.state).1
    some (calls.stepped exec call op (next answer)
      (if (next answer).result?.isSome then blank else write op calls.state (calls.notes call)))

/-- A run of the calls in which every step meets a condition on the calls before it. -/
inductive Runs (allowed : Calls Op Answer Result State Note ι → ι → Prop) :
    Calls Op Answer Result State Note ι → Calls Op Answer Result State Note ι → Prop
  | refl (calls) : Runs allowed calls calls
  | tail {first calls after call} : Runs allowed first calls → allowed calls call →
      calls.advance exec write blank call = some after → Runs allowed first after

variable {exec write blank} in
/-- One more step of a run on a schedule. -/
theorem Runs.next {allowed} {first calls after : Calls Op Answer Result State Note ι} (call : ι)
    (runs : Runs exec write blank allowed first calls) (may : allowed calls call)
    (advanced : calls.advance exec write blank call = some after) :
    Runs exec write blank allowed first after :=
  .tail runs may advanced

section Stepped

variable {exec write blank} (calls : Calls Op Answer Result State Note ι) {call other : ι}
variable (op : Op) (rest : Program Op Answer Result) (note : Note)

@[simp] theorem stepped_state :
    (calls.stepped exec call op rest note).state = (exec op calls.state).2 := rfl

@[simp] theorem stepped_rest_self : (calls.stepped exec call op rest note).rest call = rest :=
  Function.update_self _ _ _

theorem stepped_rest_other (different : other ≠ call) :
    (calls.stepped exec call op rest note).rest other = calls.rest other :=
  Function.update_of_ne different _ _

@[simp] theorem stepped_notes_self : (calls.stepped exec call op rest note).notes call = note :=
  Function.update_self _ _ _

theorem stepped_notes_other (different : other ≠ call) :
    (calls.stepped exec call op rest note).notes other = calls.notes other :=
  Function.update_of_ne different _ _

variable {calls after : Calls Op Answer Result State Note ι}

/-- A step finds its call unfinished; it goes on with a longer note or finishes. -/
theorem advance_cases (advanced : calls.advance exec write blank call = some after) :
    ∃ op next, calls.rest call = .step op next ∧ (((next (exec op calls.state).1).result? = none ∧
          after = calls.stepped exec call op (next (exec op calls.state).1)
            (write op calls.state (calls.notes call))) ∨
        ∃ result, next (exec op calls.state).1 = .done result ∧
          after = calls.stepped exec call op (.done result) blank) := by
  unfold advance at advanced
  split at advanced
  · cases advanced
  · rename_i op next program
    refine ⟨op, next, program, ?_⟩
    cases advanced
    cases rest : next (exec op calls.state).1 with
    | done result => exact .inr ⟨result, rfl, rfl⟩
    | step nextOp continuation => exact .inl ⟨rfl, rfl⟩

theorem advance_noted (advanced : calls.advance exec write blank call = some after) :
    ∃ op next note, calls.rest call = .step op next ∧
      after = calls.stepped exec call op (next (exec op calls.state).1) note ∧
      (note = write op calls.state (calls.notes call) ∨
        note = blank ∧ (next (exec op calls.state).1).result?.isSome) := by
  obtain ⟨op, next, program, ⟨-, same⟩ | ⟨result, done, same⟩⟩ := advance_cases advanced
  · exact ⟨op, next, _, program, same, .inl rfl⟩
  · refine ⟨op, next, blank, program, ?_, .inr ⟨rfl, ?_⟩⟩
    · rw [same, done]
    · rw [done]
      rfl

end Stepped

end Calls

def serial (exec : (op : Op) → State → Answer op × State)
    (programs : ι → Program Op Answer Result) : List ι → State → List Result × State
  | [], state => ([], state)
  | call :: order, state =>
    let alone := (programs call).run exec state
    let others := serial exec programs order alone.2
    (alone.1 :: others.1, others.2)

theorem serial_append_singleton (exec : (op : Op) → State → Answer op × State)
    (programs : ι → Program Op Answer Result) (order : List ι) (call : ι) (state : State) :
    serial exec programs (order ++ [call]) state = ((serial exec programs order state).1 ++
          [((programs call).run exec (serial exec programs order state).2).1],
        ((programs call).run exec (serial exec programs order state).2).2) := by
  induction order generalizing state with
  | nil => rfl
  | cons first order ih =>
    rw [List.cons_append, serial, serial, ih]
    rfl

end Calls

end Wedb
