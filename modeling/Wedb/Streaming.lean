/-
A small library for decoders on a stream that arrives in pieces. A decoder waits for more or makes a
round. If its rounds do not change when more symbols follow, its outputs are the same however the
stream is cut.
-/

import Mathlib.Data.List.Basic
import Mathlib.Tactic.Common

namespace Wedb.Streaming

variable {α σ τ ω : Type}

structure Round (σ ω : Type) where
  output : ω
  used : Nat
  state : σ
  goesOn : Bool

/-- A decoder: nothing while it waits for more symbols. -/
abbrev Decoder (α σ ω : Type) := σ → List α → Option (Round σ ω)

/-- A decoder at work: its state, the symbols not used, and what has come of the others. -/
structure Decoding (α σ ω : Type) where
  state : σ
  unparsed : List α := []
  consumed : Nat := 0
  outputs : List ω := []
  isOpen : Bool := true

namespace Decoding

variable (decoding : Decoding α σ ω)

def advance (round : Round σ ω) : Decoding α σ ω where
  state := round.state
  unparsed := decoding.unparsed.drop round.used
  consumed := decoding.consumed + round.used
  outputs := decoding.outputs ++ [round.output]
  isOpen := round.goesOn

/-- Rounds until the decoder waits or ends, at most `fuel` of them. -/
def drain (decoder : Decoder α σ ω) : Nat → Decoding α σ ω → Decoding α σ ω
  | 0, decoding => decoding
  | fuel + 1, decoding =>
    if decoding.isOpen then
      match decoder decoding.state decoding.unparsed with
      | none => decoding
      | some round => drain decoder fuel (decoding.advance round)
    else decoding

def feed (symbols : List α) : Decoding α σ ω :=
  { decoding with unparsed := decoding.unparsed ++ symbols }

variable (decoder : Decoder α σ ω)

/-- One arrival: the symbols are appended and rounds are made. An ended decoder receives nothing. -/
def receive (decoding : Decoding α σ ω) (symbols : List α) : Decoding α σ ω :=
  if decoding.isOpen then
    drain decoder (decoding.feed symbols).unparsed.length.succ (decoding.feed symbols)
  else decoding

def receiveAll (decoding : Decoding α σ ω) (pieces : List (List α)) : Decoding α σ ω :=
  pieces.foldl (receive decoder) decoding

/-- What is seen of a decoder: outputs, state, how many symbols it used and whether it goes on. -/
def observed : List ω × σ × Nat × Bool :=
  (decoding.outputs, decoding.state, decoding.consumed, decoding.isOpen)

end Decoding

/-- A round does not change with more symbols, and uses some of those there unless it is the last.
-/
structure Steady (decoder : Decoder α σ ω) : Prop where
  stable : ∀ {state : σ} {symbols : List α} {round : Round σ ω} (more : List α),
    decoder state symbols = some round → decoder state (symbols ++ more) = some round
  bounded : ∀ {state : σ} {symbols : List α} {round : Round σ ω},
    decoder state symbols = some round → round.used ≤ symbols.length
  progress : ∀ {state : σ} {symbols : List α} {round : Round σ ω},
    decoder state symbols = some round → round.goesOn = true → 0 < round.used

namespace Decoding

variable {decoder : Decoder α σ ω} {decoding : Decoding α σ ω} {round : Round σ ω}

theorem drain_of_closed (closed : decoding.isOpen = false) (fuel : Nat) :
    drain decoder fuel decoding = decoding := by
  cases fuel with
  | zero => rfl
  | succ fuel => rw [drain, closed, if_neg Bool.false_ne_true]

theorem drain_of_waits (waits : decoder decoding.state decoding.unparsed = none) (fuel : Nat) :
    drain decoder fuel decoding = decoding := by
  cases fuel with
  | zero => rfl
  | succ fuel => rw [drain, waits, ite_self]

theorem drain_of_round (isOpen : decoding.isOpen)
    (made : decoder decoding.state decoding.unparsed = some round) (fuel : Nat) :
    drain decoder (fuel + 1) decoding = drain decoder fuel (decoding.advance round) := by
  rw [drain, if_pos isOpen, made]

theorem advance_feed (more : List α) (bounded : round.used ≤ decoding.unparsed.length) :
    (decoding.feed more).advance round = (decoding.advance round).feed more := by
  simp only [advance, feed, List.drop_append_of_le_length bounded]

variable (steady : Steady decoder)

include steady

theorem advance_length_lt
    (made : decoder decoding.state decoding.unparsed = some round) (goesOn : round.goesOn) :
    (decoding.advance round).unparsed.length < decoding.unparsed.length := by
  have bounded := steady.bounded made
  have progress := steady.progress made goesOn
  simp only [advance, List.length_drop]
  omega

/-- Any two amounts of fuel above the number of symbols do the same. -/
theorem drain_eq_of_lt {first second : Nat}
    (firstEnough : decoding.unparsed.length < first)
    (secondEnough : decoding.unparsed.length < second) :
    drain decoder first decoding = drain decoder second decoding := by
  induction first generalizing second decoding with
  | zero => omega
  | succ first ih =>
    obtain ⟨second, rfl⟩ : ∃ fewer, second = fewer + 1 := ⟨second - 1, by omega⟩
    cases isOpen : decoding.isOpen with
    | false => rw [drain_of_closed isOpen, drain_of_closed isOpen]
    | true =>
      cases made : decoder decoding.state decoding.unparsed with
      | none => rw [drain_of_waits made, drain_of_waits made]
      | some round =>
        rw [drain_of_round isOpen made, drain_of_round isOpen made]
        cases goesOn : round.goesOn with
        | false =>
          have closed : (decoding.advance round).isOpen = false := goesOn
          rw [drain_of_closed closed, drain_of_closed closed]
        | true =>
          have fewer := advance_length_lt steady made goesOn
          exact ih (by omega) (by omega)

/-- Rounds made before more symbols arrive are made all the same afterwards. -/
theorem observed_drain_feed (more : List α) (fuel : Nat)
    (enough : decoding.unparsed.length < fuel) :
    (receive decoder (drain decoder fuel decoding) more).observed =
      (receive decoder decoding more).observed := by
  induction fuel generalizing decoding with
  | zero => omega
  | succ fuel ih =>
    cases isOpen : decoding.isOpen with
    | false => rw [drain_of_closed isOpen]
    | true =>
      cases made : decoder decoding.state decoding.unparsed with
      | none => rw [drain_of_waits made]
      | some round =>
        have bounded := steady.bounded made
        have madeLater : decoder (decoding.feed more).state (decoding.feed more).unparsed =
            some round := steady.stable more made
        have openLater : (decoding.feed more).isOpen := isOpen
        rw [drain_of_round isOpen made]
        conv_rhs => rw [receive, if_pos isOpen, drain_of_round openLater madeLater,
          advance_feed more bounded]
        cases goesOn : round.goesOn with
        | false =>
          have closed : (decoding.advance round).isOpen = false := goesOn
          have closedLater : ((decoding.advance round).feed more).isOpen = false := goesOn
          rw [drain_of_closed closed, drain_of_closed closedLater, receive, closed,
            if_neg Bool.false_ne_true]
          rfl
        | true =>
          have fewer := advance_length_lt steady made goesOn
          have stillOpen : (decoding.advance round).isOpen := goesOn
          rw [ih (by omega), receive, if_pos stillOpen]
          congr 1
          refine drain_eq_of_lt steady (Nat.lt_succ_self _) ?_
          simp only [feed, List.length_append] at fewer ⊢
          omega

theorem observed_receive_append (decoding : Decoding α σ ω) (first second : List α) :
    (receive decoder (receive decoder decoding first) second).observed =
      (receive decoder decoding (first ++ second)).observed := by
  cases isOpen : decoding.isOpen with
  | false => simp only [receive, isOpen, Bool.false_eq_true, if_false]
  | true =>
    have openFed : (decoding.feed first).isOpen := isOpen
    conv_lhs => rw [receive.eq_def decoder decoding first, if_pos isOpen]
    rw [observed_drain_feed steady second _ (Nat.lt_succ_self _), receive, if_pos openFed,
      receive, if_pos isOpen]
    simp only [feed, List.append_assoc]

def AtRest (decoder : Decoder α σ ω) (decoding : Decoding α σ ω) : Prop :=
  decoding.isOpen = true → decoder decoding.state decoding.unparsed = none

theorem atRest_drain (fuel : Nat)
    (enough : decoding.unparsed.length < fuel) : (drain decoder fuel decoding).AtRest decoder := by
  induction fuel generalizing decoding with
  | zero => omega
  | succ fuel ih =>
    cases isOpen : decoding.isOpen with
    | false =>
      rw [drain_of_closed isOpen]
      intro wrong
      rw [isOpen] at wrong
      cases wrong
    | true =>
      cases made : decoder decoding.state decoding.unparsed with
      | none =>
        rw [drain_of_waits made]
        exact fun _ => made
      | some round =>
        rw [drain_of_round isOpen made]
        cases goesOn : round.goesOn with
        | false =>
          have closed : (decoding.advance round).isOpen = false := goesOn
          rw [drain_of_closed closed]
          intro wrong
          rw [closed] at wrong
          cases wrong
        | true =>
          have fewer := advance_length_lt steady made goesOn
          exact ih (by omega)

theorem atRest_receive (rest : decoding.AtRest decoder)
    (symbols : List α) : (receive decoder decoding symbols).AtRest decoder := by
  unfold receive
  split
  · exact atRest_drain steady _ (Nat.lt_succ_self _)
  · exact rest

/-- However the symbols are cut, the decoder is seen to do what it does with all at once. -/
theorem observed_receiveAll (pieces : List (List α)) (rest : decoding.AtRest decoder) :
    (receiveAll decoder decoding pieces).observed =
      (receive decoder decoding pieces.flatten).observed := by
  induction pieces generalizing decoding with
  | nil =>
    show decoding.observed = (receive decoder decoding []).observed
    unfold receive
    split
    · rename_i isOpen
      have unfed : decoding.feed [] = decoding := by rw [feed, List.append_nil]
      rw [unfed, drain_of_waits (rest isOpen)]
    · rfl
  | cons piece pieces ih =>
    show (receiveAll decoder (receive decoder decoding piece) pieces).observed = _
    rw [ih (atRest_receive steady rest piece), observed_receive_append steady,
      List.flatten_cons]

end Decoding

/-- In related states the two decoders wait together, or make like rounds that lead to related
states. -/
structure Simulates (related : τ → σ → Prop) (first : Decoder α τ ω) (second : Decoder α σ ω) :
    Prop where
  waits : ∀ {left : τ} {right : σ} (symbols : List α), related left right →
    second right symbols = none → first left symbols = none
  makes : ∀ {left : τ} {right : σ} {symbols : List α} {round : Round σ ω}, related left right →
    second right symbols = some round → ∃ state, related state round.state ∧
      first left symbols = some ⟨round.output, round.used, state, round.goesOn⟩

/-- Two decoders at work that differ at most in their states, which are related. -/
structure Alike (related : τ → σ → Prop) (left : Decoding α τ ω) (right : Decoding α σ ω) :
    Prop where
  states : related left.state right.state
  unparsed : left.unparsed = right.unparsed
  consumed : left.consumed = right.consumed
  outputs : left.outputs = right.outputs
  isOpen : left.isOpen = right.isOpen

namespace Simulates

variable {related : τ → σ → Prop} {first : Decoder α τ ω} {second : Decoder α σ ω}

variable {right : Decoding α σ ω} {left : Decoding α τ ω}

section

variable (simulates : Simulates related first second)

include simulates

theorem drain (fuel : Nat) (alike : Alike related left right) :
    Alike related (left.drain first fuel) (right.drain second fuel) := by
  induction fuel generalizing left right with
  | zero => exact alike
  | succ fuel ih =>
    cases isOpen : right.isOpen with
    | false =>
      rw [Decoding.drain_of_closed (alike.isOpen.trans isOpen), Decoding.drain_of_closed isOpen]
      exact alike
    | true =>
      cases made : second right.state right.unparsed with
      | none =>
        have waits : first left.state left.unparsed = none := by
          rw [alike.unparsed]
          exact simulates.waits right.unparsed alike.states made
        rw [Decoding.drain_of_waits waits, Decoding.drain_of_waits made]
        exact alike
      | some round =>
        obtain ⟨state, states, madeFirst⟩ := simulates.makes alike.states made
        rw [← alike.unparsed] at madeFirst
        rw [Decoding.drain_of_round (alike.isOpen.trans isOpen) madeFirst,
          Decoding.drain_of_round isOpen made]
        refine ih ⟨states, ?_, ?_, ?_, rfl⟩
        · simp only [Decoding.advance, alike.unparsed]
        · simp only [Decoding.advance, alike.consumed]
        · simp only [Decoding.advance, alike.outputs]

theorem receive (alike : Alike related left right) (symbols : List α) :
    Alike related (left.receive first symbols) (right.receive second symbols) := by
  have fed : Alike related (left.feed symbols) (right.feed symbols) :=
    ⟨alike.states, congrArg (· ++ symbols) alike.unparsed, alike.consumed, alike.outputs,
      alike.isOpen⟩
  unfold Decoding.receive
  rw [alike.isOpen, fed.unparsed]
  split
  · exact simulates.drain _ fed
  · exact alike

theorem receiveAll (pieces : List (List α)) (alike : Alike related left right) :
    Alike related (left.receiveAll first pieces) (right.receiveAll second pieces) := by
  induction pieces generalizing left right with
  | nil => exact alike
  | cons piece pieces ih => exact ih (simulates.receive alike piece)

end

end Simulates

end Wedb.Streaming
