/-
A connection decodes a stream the same however the network cuts it. Its rounds are those of a
decoder without a cache, which do not change when more bytes have arrived.
-/

import Wedb.PlainParser
import Wedb.Streaming

namespace Wedb.Net

open Resp Streaming

def maxMultibulkArgs : Nat := 1024

def multibulkHeaderWindow : Nat := 1 + 32 + 2

def splitSign (number : Bytes) : Bool × Bytes :=
  match number with
  | 45 :: rest => (true, rest)
  | 43 :: rest => (false, rest)
  | _ => (false, number)

/-- `is_oversized_multibulk` on the text behind the star: leading zeros do not count, and minus one
is the null array. -/
def exceedsMultibulkArgs (number : Bytes) : Bool :=
  let (negative, digits) := splitSign number
  if digits = [] ∨ ¬digits.all isAsciiDigit then false
  else
    match digits.dropWhile (· == 48) with
    | [] => false
    | significant =>
      if negative then significant != [49]
      else if 4 < significant.length then true
      else maxMultibulkArgs < significant.foldl (fun value byte =>
        value * 10 + (byte.toNat - 48)) 0

def isOversizedMultibulk (head : Bytes) : Bool :=
  if head.head? ≠ some 42 then false
  else
    let window := head.take multibulkHeaderWindow
    let cr := window.idxOf 13
    if window[cr + 1]? ≠ some 10 then false
    else exceedsMultibulkArgs ((window.take cr).drop 1)

def skipUnknownCommand (input : Bytes) : Except RespError Nat :=
  match input.head? with
  | none => .error .incomplete
  | some 42 =>
    match tryReadSignedLengthHeader input 42 with
    | .error error => .error error
    | .ok (none, headerLength) => .ok headerLength
    | .ok (some arrayLength, headerLength) =>
      match readArguments arrayLength (input.drop headerLength) with
      | .error error => .error error
      | .ok (_, rest) => .ok (input.length - rest.length)
  | some _ =>
    match findCrlf input with
    | .error error => .error error
    | .ok none => .error .incomplete
    | .ok (some position) => .ok (position + 2)

inductive Outcome
  | command (cmd : RespCommand) (args : List Bytes)
  | unknownCommand (name : Bytes)
  | invalidMultibulkLength
  | protocolError (error : RespError)
  deriving DecidableEq

/-- A session: `execute` gives the new state and whether the connection is closed. -/
structure NetSession (σ : Type) where
  execute : σ → RespCommand → List Bytes → σ × Bool
  onUnknownCommand : σ → σ

variable {σ : Type}

/-- One round of the inner loop of `NetConnection::handle`. -/
def parseRound (session : NetSession σ) : Decoder UInt8 (σ × SessionMruCache) Outcome :=
  fun (state, mru) slice =>
    if slice = [] then none
    else if isOversizedMultibulk slice then
      some ⟨.invalidMultibulkLength, 0, (state, mru), false⟩
    else
      match (parseSessionCommand slice mru).result with
      | .ok parsed =>
        if parsed.consumed = 0 then none
        else
          some ⟨.command parsed.cmd parsed.args, parsed.consumed,
            ((session.execute state parsed.cmd parsed.args).1, (parseSessionCommand slice mru).mru),
            !(session.execute state parsed.cmd parsed.args).2⟩
      | .error .incomplete => none
      | .error (.unknownCommand name) =>
        match skipUnknownCommand slice with
        | .ok 0 => none
        | .error .incomplete => none
        | .ok skip => some ⟨.unknownCommand name, skip, (session.onUnknownCommand state, mru), true⟩
        | .error error => some ⟨.protocolError error, 0, (state, mru), false⟩
      | .error error => some ⟨.protocolError error, 0, (state, mru), false⟩

/-- The reads return the parts of a stream in order, and none is empty before the end. -/
structure Reads (stream : Bytes) where
  pieces : List Bytes
  nonempty : ∀ piece ∈ pieces, piece ≠ []
  joined : pieces.flatten = stream

def handle (session : NetSession σ) (state : σ) {stream : Bytes} (reads : Reads stream) :
    Decoding UInt8 (σ × SessionMruCache) Outcome :=
  Decoding.receiveAll (parseRound session) { state := (state, {}) } reads.pieces

open Resp Streaming List

variable {σ : Type}

variable {number head sign digits body left input more stream : Bytes}

theorem idxOf_append_cons (clean : (13 : UInt8) ∉ number) (tail : Bytes) :
    (number ++ 13 :: tail).idxOf 13 = number.length := by
  rw [idxOf_append_of_notMem clean, idxOf_cons_self, Nat.add_zero]

theorem isOversizedMultibulk_iff : isOversizedMultibulk head ↔
    ∃ number tail, head = 42 :: (number ++ 13 :: 10 :: tail) ∧ (13 : UInt8) ∉ number ∧
      number.length ≤ 32 ∧ exceedsMultibulkArgs number := by
  constructor
  · intro oversized
    unfold isOversizedMultibulk at oversized
    split_ifs at oversized with notArray
    dsimp only at oversized
    split_ifs at oversized with noFeed
    obtain ⟨rest, rfl⟩ := head?_eq_some_iff.mp (not_not.mp notArray)
    have feed := not_not.mp noFeed
    generalize window : (42 :: rest).take multibulkHeaderWindow = front at feed oversized
    have inside : (13 : UInt8) ∈ front := by
      have bound := (List.getElem?_eq_some_iff.mp feed).1
      exact idxOf_lt_length_iff.mp (by omega)
    obtain ⟨before, after, rfl, clean⟩ := eq_append_cons_of_mem inside
    rw [idxOf_append_cons clean, getElem?_append_right (by omega), Nat.add_sub_cancel_left] at feed
    rw [idxOf_append_cons clean, take_left] at oversized
    obtain ⟨after, rfl⟩ : ∃ others, after = 10 :: others := by
      cases after with
      | nil => cases feed
      | cons next others => exact ⟨others, by rw [Option.some.inj feed]⟩
    have length : before.length + 2 ≤ multibulkHeaderWindow := by
      have whole := congrArg List.length window
      simp only [length_take, length_append, length_cons] at whole
      omega
    cases before with
    | nil => cases window
    | cons star number =>
      have first : star = 42 := (List.cons.inj window).1.symm
      subst first
      refine ⟨number, after ++ (42 :: rest).drop multibulkHeaderWindow, ?_,
        fun wrong => clean (mem_cons_of_mem _ wrong), ?_, oversized⟩
      · conv_lhs => rw [← take_append_drop multibulkHeaderWindow (42 :: rest), window]
        simp
      · simp only [multibulkHeaderWindow, length_cons] at length
        omega
  · rintro ⟨number, tail, rfl, clean, short, exceeds⟩
    have cleanStar : (13 : UInt8) ∉ 42 :: number := by
      intro wrong
      rcases mem_cons.mp wrong with wrong | wrong
      · cases wrong
      · exact clean wrong
    have window : (42 :: (number ++ 13 :: 10 :: tail)).take multibulkHeaderWindow =
        (42 :: number) ++ 13 :: 10 :: tail.take (32 - number.length) := by
      have total : multibulkHeaderWindow = (42 :: number).length + (2 + (32 - number.length)) := by
        simp only [multibulkHeaderWindow, length_cons]
        omega
      rw [← cons_append, total, take_length_add_append]
      congr 1
      rw [Nat.add_comm 2]
      rfl
    have array : ¬(42 :: (number ++ 13 :: 10 :: tail)).head? ≠ some 42 := not_not.mpr rfl
    unfold isOversizedMultibulk
    rw [if_neg array]
    dsimp only
    rw [window, idxOf_append_cons cleanStar, take_left,
      getElem?_append_right (by omega), Nat.add_sub_cancel_left, if_neg]
    · exact exceeds
    · exact not_not.mpr rfl

theorem splitSign_eq (number : Bytes) : ∃ sign, number = sign ++ (splitSign number).2 ∧
    (sign = [] ∨ sign = [45] ∨ sign = [43]) := by
  unfold splitSign
  split
  · exact ⟨[45], rfl, .inr (.inl rfl)⟩
  · exact ⟨[43], rfl, .inr (.inr rfl)⟩
  · exact ⟨[], rfl, .inl rfl⟩

theorem exists_digits_of_exceeds (exceeds : exceedsMultibulkArgs number) :
    ∃ sign digits, number = sign ++ digits ∧ (sign = [] ∨ sign = [45] ∨ sign = [43]) ∧
      digits ≠ [] ∧ ∀ byte ∈ digits, isAsciiDigit byte := by
  obtain ⟨sign, split, isSign⟩ := splitSign_eq number
  have proper : ¬((splitSign number).2 = [] ∨ ¬(splitSign number).2.all isAsciiDigit) := by
    intro improper
    unfold exceedsMultibulkArgs at exceeds
    dsimp only at exceeds
    rw [if_pos improper] at exceeds
    cases exceeds
  obtain ⟨nonempty, digits⟩ := not_or.mp proper
  exact ⟨sign, _, split, isSign, nonempty, all_eq_true.mp (not_not.mp digits)⟩

theorem scanIntLine_of_digits {byte : UInt8}
    (isSign : sign = [] ∨ sign = [45] ∨ sign = [43]) (nonempty : digits ≠ [])
    (onlyDigits : ∀ byte ∈ digits, isAsciiDigit byte)
    (short : (sign ++ digits).length ≤ 32) (broken : byte ≠ 10) :
    scanIntLine (sign ++ digits ++ [13, byte]) = .error (.unexpectedToken byte) := by
  have line : IsLine sign digits [13, byte] := ⟨isSign, onlyDigits,
    fun _ first => (by cases first; rfl), fun _ wrong => absurd wrong nonempty⟩
  rw [scanIntLine_eq line, lineEnd_of_broken broken]
  unfold lineVerdict
  rw [if_neg nonempty, if_neg (by omega)]

theorem scanIntLine_of_part (exceeds : exceedsMultibulkArgs number) (short : number.length ≤ 32)
    (part : body ++ left = number ++ [13]) : scanIntLine body = .error .incomplete := by
  obtain ⟨sign, digits, rfl, isSign, nonempty, onlyDigits⟩ := exists_digits_of_exceeds exceeds
  have goesOn : ∀ byte, byte ≠ 10 →
      scanIntLine (body ++ (left ++ [byte])) = .error (.unexpectedToken byte) := by
    intro byte broken
    rw [← append_assoc, part, append_assoc]
    exact scanIntLine_of_digits isSign nonempty onlyDigits short broken
  by_contra decided
  have first := goesOn 120 (by decide)
  have second := goesOn 121 (by decide)
  rw [scanIntLine_stable body _ decided] at first second
  rw [first] at second
  cases second

theorem plainCommand_of_oversized_later (later : isOversizedMultibulk (input ++ more))
    (now : isOversizedMultibulk input = false) : plainCommand input = .error .incomplete := by
  obtain ⟨number, tail, whole, clean, short, exceeds⟩ := isOversizedMultibulk_iff.mp later
  -- the input ends before the line feed of the header
  have cut : input.length ≤ (42 :: number ++ [13]).length := by
    by_contra long
    have front : 42 :: number ++ [13, 10] <+: input := by
      refine prefix_of_prefix_length_le ⟨tail, ?_⟩ (prefix_append input more) ?_
      · rw [whole]
        simp
      · simp only [length_append, length_cons, length_nil] at long ⊢
        omega
    obtain ⟨rest, rfl⟩ := front
    refine Bool.false_ne_true (now.symm.trans (isOversizedMultibulk_iff.mpr
      ⟨number, rest, ?_, clean, short, exceeds⟩))
    simp
  obtain ⟨left, part⟩ : input <+: 42 :: number ++ [13] := by
    refine prefix_of_prefix_length_le (prefix_append input more) ⟨10 :: tail, ?_⟩ cut
    rw [whole]
    simp
  cases input with
  | nil => rfl
  | cons star body =>
    obtain ⟨rfl, rest⟩ := List.cons.inj part
    have scanned := scanIntLine_of_part exceeds short rest
    have read : tryReadSignedLengthHeaderI32 (42 :: body) 42 = .error .incomplete := by
      have null : (42 :: body).take 3 ≠ bytesOf "_\r\n" := by
        intro wrong
        cases (List.cons.inj wrong).1
      rw [tryReadSignedLengthHeaderI32_cons, if_neg null, if_neg (not_not.mpr rfl), scanned]
      exact ite_self _
    rw [plainCommand_array]
    simp only [plainArray, tryReadSignedLengthHeader, read]

theorem isOversizedMultibulk_append (oversized : isOversizedMultibulk input)
    (more : Bytes) : isOversizedMultibulk (input ++ more) := by
  obtain ⟨number, tail, rfl, clean, short, exceeds⟩ := isOversizedMultibulk_iff.mp oversized
  exact isOversizedMultibulk_iff.mpr ⟨number, tail ++ more, by simp, clean, short, exceeds⟩

def skipRest (result : Option Nat × Nat) (input : Bytes) : Except RespError Nat :=
  match result.1 with
  | none => .ok result.2
  | some arrayLength =>
    (takeArguments arrayLength (input.drop result.2)).bind fun taken => .ok (result.2 + taken.2)

theorem skipUnknownCommand_array (rest : Bytes) : skipUnknownCommand (42 :: rest) =
    (tryReadSignedLengthHeader (42 :: rest) 42).bind (skipRest · (42 :: rest)) := by
  unfold skipUnknownCommand skipRest takeArguments
  dsimp only [head?_cons]
  cases counted : tryReadSignedLengthHeader (42 :: rest) 42 with
  | error => rfl
  | ok result =>
    have inside := (headerLength_le counted).2
    obtain ⟨_ | arrayLength, headerLength⟩ := result
    · rfl
    dsimp only [Except.bind]
    cases read : readArguments arrayLength ((42 :: rest).drop headerLength) with
    | error => rfl
    | ok result =>
      have shorter := (readArguments_suffix read).length_le
      rw [length_drop] at shorter
      refine congrArg Except.ok ?_
      dsimp only
      rw [length_drop]
      omega

theorem skipRest_waits (result : Option Nat × Nat)
    (counted : tryReadSignedLengthHeader input 42 = .ok result) : Waits (skipRest result)
      (∃ count, result.1 = some count ∧ BrokenArgument count (input.drop result.2)) input := by
  have inside := (headerLength_le counted).2
  obtain ⟨_ | arrayLength, headerLength⟩ := result
  · exact .answers _ (by rintro ⟨⟩) (by simp) fun _ => rfl
  · refine (((takeArguments_waits arrayLength _).drop inside).map ?_).congr (fun _ => rfl) (by simp)
    rintro _ ⟨⟩

theorem skipUnknownCommand_inline {first : UInt8} (inline : first ≠ 42) (rest : Bytes) :
    skipUnknownCommand (first :: rest) =
      match findCrlf (first :: rest) with
      | .error error => .error error
      | .ok none => .error .incomplete
      | .ok (some position) => .ok (position + 2) := by
  unfold skipUnknownCommand
  split
  · rename_i wrong
    cases wrong
  · rename_i wrong
    exact absurd (Option.some.inj wrong) inline
  · rfl

theorem skipUnknownCommand_stable : Stable skipUnknownCommand := by
  intro input more decided
  cases input with
  | nil => exact absurd rfl decided
  | cons first rest =>
    rw [cons_append]
    obtain rfl | array := eq_or_ne first 42
    · rw [skipUnknownCommand_array] at decided ⊢
      rw [skipUnknownCommand_array]
      exact ((arrayHeader_waits (42 :: rest)).bind skipRest_waits).stable more decided
    · rw [skipUnknownCommand_inline array] at decided ⊢
      have found : findCrlf (first :: rest) ≠ .ok none := by
        intro missing
        rw [missing] at decided
        exact decided rfl
      rw [skipUnknownCommand_inline array, ← cons_append, findCrlf_stable more found]

theorem skipUnknownCommand_le {skip : Nat}
    (skipped : skipUnknownCommand input = .ok skip) : skip ≤ input.length := by
  cases input with
  | nil => cases skipped
  | cons first rest =>
    obtain rfl | array := eq_or_ne first 42
    · simp only [skipUnknownCommand, head?_cons] at skipped
      split at skipped
      · cases skipped
      · rename_i headerLength counted
        cases skipped
        exact (headerLength_le counted).2
      · split at skipped
        · cases skipped
        · cases skipped
          exact Nat.sub_le _ _
    · rw [skipUnknownCommand_inline array] at skipped
      split at skipped
      · cases skipped
      · cases skipped
      · rename_i position found
        cases skipped
        exact findCrlf_le found

variable {round : Round σ Outcome} {session : NetSession σ}

def plainVerdict (session : NetSession σ) (state : σ) (slice : Bytes) :
    Except RespError Parsed → Option (Round σ Outcome)
  | .ok parsed =>
    some ⟨.command parsed.cmd parsed.args, parsed.consumed,
      (session.execute state parsed.cmd parsed.args).1,
      !(session.execute state parsed.cmd parsed.args).2⟩
  | .error .incomplete => none
  | .error (.unknownCommand name) =>
    match skipUnknownCommand slice with
    | .ok 0 => none
    | .error .incomplete => none
    | .ok skip => some ⟨.unknownCommand name, skip, session.onUnknownCommand state, true⟩
    | .error error => some ⟨.protocolError error, 0, state, false⟩
  | .error error => some ⟨.protocolError error, 0, state, false⟩

def plainRound (session : NetSession σ) : Decoder UInt8 σ Outcome := fun state slice =>
  if isOversizedMultibulk slice then some ⟨.invalidMultibulkLength, 0, state, false⟩
  else plainVerdict session state slice (plainCommand slice)

variable {slice : Bytes} {state : σ}

theorem plainVerdict_append {answer : Except RespError Parsed}
    (more : Bytes) (made : plainVerdict session state slice answer = some round) :
    plainVerdict session state (slice ++ more) answer = some round := by
  unfold plainVerdict at made ⊢
  split at made
  · exact made
  · cases made
  · have decided : skipUnknownCommand slice ≠ .error .incomplete := by
      intro incomplete
      rw [incomplete] at made
      cases made
    rw [skipUnknownCommand_stable slice more decided]
    exact made
  · exact made

theorem plainVerdict_used
    (made : plainVerdict session state slice (plainCommand slice) = some round) :
    round.used ≤ slice.length ∧ (round.goesOn → 0 < round.used) := by
  unfold plainVerdict at made
  split at made
  · rename_i parsed decoded
    cases made
    have range := plainCommand_consumed decoded
    exact ⟨range.2, fun _ => range.1⟩
  · cases made
  · split at made
    · cases made
    · cases made
    · rename_i skip some skipped
      cases made
      exact ⟨skipUnknownCommand_le skipped, fun _ => Nat.pos_of_ne_zero fun none => some none⟩
    · cases made
      exact ⟨Nat.zero_le _, fun wrong => (by cases wrong)⟩
  · cases made
    exact ⟨Nat.zero_le _, fun wrong => (by cases wrong)⟩

theorem plainRound_used (made : plainRound session state slice = some round) :
    round.used ≤ slice.length ∧ (round.goesOn → 0 < round.used) := by
  unfold plainRound at made
  split_ifs at made
  · cases made
    exact ⟨Nat.zero_le _, fun wrong => (by cases wrong)⟩
  · exact plainVerdict_used made

variable (session)

theorem plainRound_steady : Steady (plainRound session) where
  stable := by
    intro state slice round more made
    unfold plainRound at made ⊢
    cases oversized : isOversizedMultibulk slice with
    | true =>
      rw [oversized] at made
      rw [isOversizedMultibulk_append oversized more]
      exact made
    | false =>
      rw [oversized, if_neg Bool.false_ne_true] at made
      have decided : plainCommand slice ≠ .error .incomplete := by
        intro incomplete
        rw [incomplete] at made
        cases made
      have later : isOversizedMultibulk (slice ++ more) = false := by
        by_contra wrong
        exact decided (plainCommand_of_oversized_later (Bool.not_eq_false _ ▸ wrong) oversized)
      rw [later, if_neg Bool.false_ne_true, plainCommand_stable slice more decided]
      exact plainVerdict_append more made
  bounded := fun made => (plainRound_used made).1
  progress := fun made => (plainRound_used made).2

def SameSession (held : σ × SessionMruCache) (state : σ) : Prop :=
  held.1 = state ∧ held.2.Sound

theorem parseRound_eq (state : σ) {mru : SessionMruCache}
    (sound : mru.Sound) (slice : Bytes) : ∃ kept : SessionMruCache, kept.Sound ∧
      parseRound session (state, mru) slice = (plainRound session state slice).map
        fun round => ⟨round.output, round.used, (round.state, kept), round.goesOn⟩ := by
  cases slice with
  | nil => exact ⟨mru, sound, rfl⟩
  | cons first rest =>
    unfold parseRound plainRound
    dsimp only
    rw [if_neg (cons_ne_nil first rest), parseSessionCommand_eq_plainCommand sound]
    split
    · exact ⟨mru, sound, rfl⟩
    · unfold plainVerdict
      cases answer : plainCommand (first :: rest) with
      | ok parsed =>
        have positive := (plainCommand_consumed answer).1
        refine ⟨_, sound.parseSessionCommand (first :: rest), ?_⟩
        dsimp only
        rw [if_neg (by omega)]
        rfl
      | error error =>
        refine ⟨mru, sound, ?_⟩
        cases error with
        | unknownCommand name =>
          cases skipUnknownCommand (first :: rest) with
          | ok skip => cases skip <;> rfl
          | error error => cases error <;> rfl
        | incomplete => rfl
        | integerOverflow => rfl
        | notANumber => rfl
        | invalidLength length => rfl
        | unexpectedToken byte => rfl
        | excessiveArgs count limit => rfl
        | protocol message => rfl

theorem parseRound_simulates : Simulates SameSession (parseRound session) (plainRound session) where
  waits := by
    rintro ⟨state, mru⟩ _ slice ⟨rfl, sound⟩ waits
    obtain ⟨kept, -, same⟩ := parseRound_eq session state sound slice
    rw [same, waits]
    rfl
  makes := by
    rintro ⟨state, mru⟩ _ slice round ⟨rfl, sound⟩ made
    obtain ⟨kept, keptSound, same⟩ := parseRound_eq session state sound slice
    exact ⟨(round.state, kept), ⟨rfl, keptSound⟩, by rw [same, made]; rfl⟩

theorem atRest_start (state : σ) :
    Decoding.AtRest (plainRound session) { state := state } := fun _ => rfl

theorem handle_alike (state : σ) (reads : Reads stream) :
    ∃ plain : Decoding UInt8 σ Outcome, Alike SameSession (handle session state reads) plain ∧
      plain.observed =
        (Decoding.receive (plainRound session) { state := state } stream).observed := by
  have start : Alike SameSession
      ({ state := (state, {}) } : Decoding UInt8 (σ × SessionMruCache) Outcome)
      { state := state } :=
    ⟨⟨rfl, SessionMruCache.Reachable.start.sound⟩, rfl, rfl, rfl, rfl⟩
  refine ⟨_, (parseRound_simulates session).receiveAll reads.pieces start, ?_⟩
  rw [Decoding.observed_receiveAll (plainRound_steady session) _ (atRest_start session state),
    reads.joined]

/-- However a stream is cut into reads, the connection makes the same outcomes, session, length used
and end of it. -/
theorem handle_independent (session : NetSession σ) (state : σ) {stream : Bytes}
    (first second : Reads stream) :
    (handle session state first).outputs = (handle session state second).outputs ∧
      (handle session state first).state.1 = (handle session state second).state.1 ∧
      (handle session state first).consumed = (handle session state second).consumed ∧
      (handle session state first).isOpen = (handle session state second).isOpen := by
  obtain ⟨left, leftAlike, leftObserved⟩ := handle_alike session state first
  obtain ⟨right, rightAlike, rightObserved⟩ := handle_alike session state second
  have same := leftObserved.trans rightObserved.symm
  simp only [Decoding.observed, Prod.mk.injEq] at same
  obtain ⟨outputs, states, consumed, isOpen⟩ := same
  exact ⟨leftAlike.outputs.trans (outputs.trans rightAlike.outputs.symm),
    leftAlike.states.1.trans (states.trans rightAlike.states.1.symm),
    leftAlike.consumed.trans (consumed.trans rightAlike.consumed.symm),
    leftAlike.isOpen.trans (isOpen.trans rightAlike.isOpen.symm)⟩

end Wedb.Net
