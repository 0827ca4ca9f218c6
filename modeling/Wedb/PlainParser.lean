/-
The command parser without shortcuts. It answers what the parser of a session answers, and its
answers do not change when more bytes follow.
-/

import Wedb.HeaderRecognition

namespace Wedb.Resp

open List

/-- The command a name and its arguments ask for: a container takes a known subcommand. -/
def settleCommand (primary : RespCommand) (hasSub : Bool) (arguments : List Bytes) :
    RespCommand × List Bytes :=
  match hasSub, arguments with
  | true, next :: others =>
    match primary.lookupSubcommand next with
    | some sub => (sub, others)
    | none => (primary, arguments)
  | _, _ => (primary, arguments)

def plainFrame (input : Bytes) (count headerLength : Nat) : Except RespError Parsed :=
  match trySliceWithLengthHeader (input.drop headerLength) with
  | .error error => .error error
  | .ok (name, used) =>
    match RespCommand.lookup name with
    | none => .error (.unknownCommand (toUnknownCmdName name))
    | some (primary, hasSub) =>
      match readArguments count (input.drop (headerLength + used)) with
      | .error error => .error error
      | .ok (arguments, rest) =>
        .ok ⟨(settleCommand primary hasSub arguments).1,
          (settleCommand primary hasSub arguments).2, input.length - rest.length⟩

def plainArray (input : Bytes) : Except RespError Parsed :=
  match tryReadSignedLengthHeader input 42 with
  | .error error => .error error
  | .ok (none, headerLength) => .ok ⟨.none, [], headerLength⟩
  | .ok (some arrayLength, headerLength) =>
    if maxRespArrayLength < arrayLength then
      .error (.excessiveArgs arrayLength maxRespArrayLength)
    else if arrayLength = 0 then .ok ⟨.none, [], headerLength⟩
    else plainFrame input (arrayLength - 1) headerLength

def plainCommand (input : Bytes) : Except RespError Parsed :=
  match input.head? with
  | none => .error .incomplete
  | some 42 => plainArray input
  | some _ => parseInlineCommand input

theorem plainCommand_array (rest : Bytes) : plainCommand (42 :: rest) = plainArray (42 :: rest) :=
  rfl

theorem plainCommand_inline {first : UInt8} (inline : first ≠ 42) (rest : Bytes) :
    plainCommand (first :: rest) = parseInlineCommand (first :: rest) := by
  unfold plainCommand
  split
  · rename_i wrong
    cases wrong
  · rename_i wrong
    exact absurd (Option.some.inj wrong) inline
  · rfl

variable {input : Bytes} {headerLength : Nat} {primary : RespCommand} {hasSub : Bool}

variable {arguments : List Bytes}

theorem settleCommand_of_not_container (plain : hasSub = false ∨ arguments = []) :
    settleCommand primary hasSub arguments = (primary, arguments) := by
  rcases plain with rfl | rfl
  · rfl
  · cases hasSub <;> rfl

variable {count arrayLength used position : Nat}

theorem readArguments_zero_eq {rest : Bytes}
    (read : readArguments count input = .ok (arguments, rest)) (none : count = 0) :
    arguments = [] := by
  subst none
  cases read
  rfl

theorem frame_eq_plainFrame (input : Bytes) (mru : SessionMruCache) {name : Bytes}
    (positive : arrayLength ≠ 0)
    (counted : tryReadSignedLengthHeader input 42 = .ok (some arrayLength, headerLength))
    (small : ¬maxRespArrayLength < arrayLength)
    (sliced : trySliceWithLengthHeader (input.drop headerLength) = .ok (name, used))
    (known : RespCommand.lookup name = some (primary, hasSub)) :
    (parseArrayCommand input mru).result = plainFrame input (arrayLength - 1) headerLength := by
  unfold parseArrayCommand plainFrame
  simp only [counted, sliced, known, if_neg small, if_neg positive]
  by_cases container : hasSub ∧ 1 < arrayLength
  · rw [if_pos container]
    obtain ⟨rfl, several⟩ := container
    obtain ⟨fewer, rfl⟩ : ∃ fewer, arrayLength = fewer + 2 := ⟨arrayLength - 2, by omega⟩
    have one : fewer + 2 - 1 = fewer + 1 := rfl
    have two : fewer + 2 - 2 = fewer := rfl
    rw [one, two, readArguments]
    cases next : trySliceWithLengthHeader (input.drop (headerLength + used)) with
    | error error => rfl
    | ok result =>
      obtain ⟨argument, usedNext⟩ := result
      dsimp only
      unfold readRest
      cases sub : primary.lookupSubcommand argument with
      | none =>
        cases readArguments fewer ((input.drop (headerLength + used)).drop usedNext) with
        | error error => rfl
        | ok rest => simp only [settleCommand, sub, singleton_append]
      | some sub =>
        cases readArguments fewer ((input.drop (headerLength + used)).drop usedNext) with
        | error error => rfl
        | ok rest => simp only [settleCommand, sub, nil_append]
  · rw [if_neg container]
    unfold readRest
    cases read : readArguments (arrayLength - 1) (input.drop (headerLength + used)) with
    | error error => rfl
    | ok result =>
      obtain ⟨arguments, rest⟩ := result
      have plain : hasSub = false ∨ arguments = [] := by
        cases hasSub with
        | false => exact .inl rfl
        | true =>
          have single : arrayLength - 1 = 0 := by
            have := not_and.mp container rfl
            omega
          exact .inr (readArguments_zero_eq read single)
      simp only [settleCommand_of_not_container plain, nil_append]

theorem parseArrayCommand_eq_plainArray (input : Bytes) (mru : SessionMruCache) :
    (parseArrayCommand input mru).result = plainArray input := by
  cases counted : tryReadSignedLengthHeader input 42 with
  | error error => simp only [parseArrayCommand, plainArray, counted]
  | ok result =>
    obtain ⟨length, headerLength⟩ := result
    cases length with
    | none => simp only [parseArrayCommand, plainArray, counted]
    | some arrayLength =>
      by_cases large : maxRespArrayLength < arrayLength
      · simp only [parseArrayCommand, plainArray, counted, if_pos large]
      by_cases empty : arrayLength = 0
      · simp only [parseArrayCommand, plainArray, counted, if_neg large, if_pos empty]
      cases sliced : trySliceWithLengthHeader (input.drop headerLength) with
      | error error =>
        simp only [parseArrayCommand, plainArray, plainFrame, counted, if_neg large,
          if_neg empty, sliced]
      | ok result =>
        obtain ⟨name, used⟩ := result
        cases known : RespCommand.lookup name with
        | none =>
          simp only [parseArrayCommand, plainArray, plainFrame, counted, if_neg large,
            if_neg empty, sliced, known]
        | some found =>
          rw [frame_eq_plainFrame input mru empty counted large sliced known]
          simp only [plainArray, counted, if_neg large, if_neg empty]

theorem parseSessionCommand_eq_plainCommand {cache : SessionMruCache} (sound : cache.Sound)
    (input : Bytes) : (parseSessionCommand input cache).result = plainCommand input := by
  cases input with
  | nil => rfl
  | cons first rest =>
    obtain rfl | array := eq_or_ne first 42
    · rw [result_of_sound sound {} rfl, parseArrayCommand_eq_plainArray]
      rfl
    · rw [plainCommand_inline array]
      unfold parseSessionCommand
      dsimp only
      rw [if_pos array]

variable {parsed : Parsed}

theorem headerLength_le {length : Option Nat}
    (read : tryReadSignedLengthHeader input 42 = .ok (length, headerLength)) :
    3 ≤ headerLength ∧ headerLength ≤ input.length := by
  obtain ⟨head, tail, rfl, front, -, -⟩ := tryReadSignedLengthHeader_ok (by decide) read
  rw [length_append, front.length]
  exact ⟨front.long, by omega⟩

def restOfFrame (count headerLength : Nat) (sliced : Bytes × Nat) (input : Bytes) :
    Except RespError Parsed :=
  match RespCommand.lookup sliced.1 with
  | none => .error (.unknownCommand (toUnknownCmdName sliced.1))
  | some (primary, hasSub) =>
    (takeArguments count (input.drop (headerLength + sliced.2))).bind fun taken =>
      .ok ⟨(settleCommand primary hasSub taken.1).1, (settleCommand primary hasSub taken.1).2,
        headerLength + sliced.2 + taken.2⟩

theorem plainFrame_eq (inside : headerLength ≤ input.length) :
    plainFrame input count headerLength =
      (trySliceWithLengthHeader (input.drop headerLength)).bind
        (restOfFrame count headerLength · input) := by
  unfold plainFrame restOfFrame takeArguments
  cases sliced : trySliceWithLengthHeader (input.drop headerLength) with
  | error error => rfl
  | ok result =>
    have within := trySliceWithLengthHeader_used_le sliced
    rw [length_drop] at within
    dsimp only [Except.bind]
    cases RespCommand.lookup result.1 with
    | none => rfl
    | some found =>
      cases read : readArguments count (input.drop (headerLength + result.2)) with
      | error error => rfl
      | ok rest =>
        have shorter := (readArguments_suffix read).length_le
        rw [length_drop] at shorter
        simp only [Except.map, length_drop]
        congr 2
        omega

/-- A bulk string has a broken header, behind others of which the first names a command. -/
def BrokenFrame (input : Bytes) (count headerLength : Nat) : Prop :=
  ∃ (index : Nat) (arguments : List Bytes) (rest : Bytes), index < count + 1 ∧
    readArguments index (input.drop headerLength) = .ok (arguments, rest) ∧
    (∀ name, arguments.head? = some name → RespCommand.lookup name ≠ none) ∧ BrokenHeader 36 rest

theorem brokenFrame_iff : BrokenFrame input count headerLength ↔
    BrokenHeader 36 (input.drop headerLength) ∨
      ∃ sliced, trySliceWithLengthHeader (input.drop headerLength) = .ok sliced ∧
        RespCommand.lookup sliced.1 ≠ none ∧
        BrokenArgument count (input.drop (headerLength + sliced.2)) := by
  constructor
  · rintro ⟨_ | index, arguments, rest, before, read, named, broken⟩
    · cases read
      exact .inl broken
    · obtain ⟨sliced, others, first, later, rfl⟩ := readArguments_succ_ok read
      rw [drop_drop] at later
      exact .inr ⟨sliced, first, named _ rfl, index, others, rest, by omega, later, broken⟩
  · rintro (broken | ⟨sliced, first, known, index, arguments, rest, before, read, broken⟩)
    · exact ⟨0, [], _, Nat.succ_pos count, rfl, fun _ wrong => (by cases wrong), broken⟩
    · refine ⟨index + 1, sliced.1 :: arguments, rest, by omega, ?_, ?_, broken⟩
      · simp only [readArguments, first, drop_drop, read]
      · rintro _ ⟨⟩
        exact known

theorem plainFrame_waits (count : Nat) (inside : headerLength ≤ input.length) :
    Waits (plainFrame · count headerLength) (BrokenFrame input count headerLength) input := by
  have slice := (trySliceWithLengthHeader_waits (input.drop headerLength)).drop inside
  refine (slice.bind fun sliced first => ?_).congr
    (fun more => plainFrame_eq (inside.trans (by simp))) brokenFrame_iff
  have within := trySliceWithLengthHeader_used_le first
  rw [length_drop] at within
  unfold restOfFrame
  cases RespCommand.lookup sliced.1 with
  | none => exact .answers _ (by rintro ⟨⟩) (fun wrong => wrong.1 rfl) fun _ => rfl
  | some found =>
    refine (((takeArguments_waits count _).drop (by omega)).map ?_).congr (fun _ => rfl) (by simp)
    rintro _ ⟨⟩

/-- An input that no continuation completes: a broken header of the array, or of a bulk string
behind complete ones that name a command. -/
def Stuck (input : Bytes) : Prop :=
  BrokenHeader 42 input ∨
    ∃ (arrayLength headerLength index : Nat) (arguments : List Bytes) (rest : Bytes),
      tryReadSignedLengthHeader input 42 = .ok (some arrayLength, headerLength) ∧
      arrayLength ≤ maxRespArrayLength ∧ index < arrayLength ∧
      readArguments index (input.drop headerLength) = .ok (arguments, rest) ∧
      (∀ name, arguments.head? = some name → RespCommand.lookup name ≠ none) ∧
      BrokenHeader 36 rest

theorem arrayHeader_waits (input : Bytes) :
    Waits (tryReadSignedLengthHeader · 42) (BrokenHeader 42 input) input := by
  have decided (result : Int × Nat) : (if result.1 < 0 then
      if result.1 = -1 then .ok (none, result.2) else .error (.invalidLength result.1)
      else .ok (some result.1.toNat, result.2) : ReadResult (Option Nat)) ≠ .error .incomplete := by
    split_ifs <;> rintro ⟨⟩
  have header := @header_waits 42 (by decide) (by decide) input
  refine (header.map decided).congr (fun more => ?_) Iff.rfl
  unfold tryReadSignedLengthHeader
  cases tryReadSignedLengthHeaderI32 (input ++ more) 42 <;> rfl

theorem plainArray_waits (input : Bytes) : Waits plainArray (Stuck input) input := by
  have frame (result : Option Nat × Nat)
      (counted : tryReadSignedLengthHeader input 42 = .ok result) :
      Waits (fun input => result.1.elim (.ok ⟨.none, [], result.2⟩) fun arrayLength =>
          if maxRespArrayLength < arrayLength then
            .error (.excessiveArgs arrayLength maxRespArrayLength)
          else if arrayLength = 0 then .ok ⟨.none, [], result.2⟩
          else plainFrame input (arrayLength - 1) result.2)
        (∃ arrayLength, result.1 = some arrayLength ∧ arrayLength ≤ maxRespArrayLength ∧
          arrayLength ≠ 0 ∧ BrokenFrame input (arrayLength - 1) result.2) input := by
    obtain ⟨_ | arrayLength, headerLength⟩ := result
    · exact .answers _ (by rintro ⟨⟩) (by simp) fun _ => rfl
    dsimp only [Option.elim]
    split_ifs with large empty
    · exact .answers _ (by rintro ⟨⟩) (by simp; omega) fun _ => rfl
    · exact .answers _ (by rintro ⟨⟩) (by simp [empty]) fun _ => rfl
    · exact (plainFrame_waits _ (headerLength_le counted).2).congr (fun _ => rfl)
        (by simp [empty, Nat.le_of_not_lt large])
  refine ((arrayHeader_waits input).bind frame).congr (fun more => ?_)
    (or_congr_right ⟨?_, ?_⟩)
  · unfold plainArray
    rcases tryReadSignedLengthHeader (input ++ more) 42 with _ | ⟨_ | _, _⟩ <;> rfl
  · rintro ⟨arrayLength, headerLength, index, arguments, rest, counted, small, before, read⟩
    exact ⟨_, counted, arrayLength, rfl, small, by omega, index, arguments, rest, by omega, read⟩
  · rintro ⟨⟨_, headerLength⟩, counted, arrayLength, rfl, small, positive, index, arguments, rest,
      before, read⟩
    exact ⟨arrayLength, headerLength, index, arguments, rest, counted, small, by omega, read⟩

theorem plainArray_stable : Stable plainArray := fun input => (plainArray_waits input).stable

theorem findCrlf_le (found : findCrlf input = .ok (some position)) :
    position + 2 ≤ input.length := by
  unfold findCrlf at found
  split at found
  · rename_i ending
    cases found
    have length := congrArg List.length ending
    rw [length_drop, length_cons, length_cons] at length
    omega
  · cases found
  · cases found

theorem parseInlineCommand_stable : Stable parseInlineCommand := by
  intro input more decided
  have found : findCrlf input ≠ .ok none := by
    intro missing
    unfold parseInlineCommand at decided
    rw [missing] at decided
    exact decided rfl
  have stays := findCrlf_stable more found
  unfold parseInlineCommand
  rw [stays]
  cases line : findCrlf input with
  | error error => rfl
  | ok position =>
    cases position with
    | none => rfl
    | some position =>
      have inside : position ≤ input.length := by
        have := findCrlf_le line
        omega
      simp only [take_append_of_le_length inside]

theorem plainCommand_stable : Stable plainCommand := by
  intro input more decided
  cases input with
  | nil => exact absurd rfl decided
  | cons first rest =>
    obtain rfl | array := eq_or_ne first 42
    · exact plainArray_stable _ more decided
    · rw [plainCommand_inline array] at decided ⊢
      rw [cons_append, plainCommand_inline array]
      exact parseInlineCommand_stable _ more decided

theorem plainFrame_consumed (positive : 0 < headerLength)
    (inside : headerLength ≤ input.length)
    (decoded : plainFrame input count headerLength = .ok parsed) :
    0 < parsed.consumed ∧ parsed.consumed ≤ input.length := by
  unfold plainFrame at decoded
  split at decoded
  · cases decoded
  · rename_i name used sliced
    split at decoded
    · cases decoded
    · split at decoded
      · cases decoded
      · rename_i arguments rest read
        cases decoded
        have shorter := (readArguments_suffix read).length_le
        rw [length_drop] at shorter
        dsimp only
        omega

theorem plainArray_consumed (decoded : plainArray input = .ok parsed) :
    0 < parsed.consumed ∧ parsed.consumed ≤ input.length := by
  unfold plainArray at decoded
  split at decoded
  · cases decoded
  · rename_i headerLength counted
    have range := headerLength_le counted
    have positive : 0 < headerLength := by omega
    cases decoded
    exact ⟨positive, range.2⟩
  · rename_i arrayLength headerLength counted
    have range := headerLength_le counted
    have positive : 0 < headerLength := by omega
    split_ifs at decoded
    · cases decoded
      exact ⟨positive, range.2⟩
    · exact plainFrame_consumed positive range.2 decoded

theorem parseInlineCommand_consumed (decoded : parseInlineCommand input = .ok parsed) :
    0 < parsed.consumed ∧ parsed.consumed ≤ input.length := by
  unfold parseInlineCommand at decoded
  split at decoded
  · cases decoded
  · cases decoded
  · rename_i position found
    have inside := findCrlf_le found
    have consumed : parsed.consumed = position + 2 := by
      repeat' split at decoded
      all_goals cases decoded <;> rfl
    omega

theorem plainCommand_consumed (decoded : plainCommand input = .ok parsed) :
    0 < parsed.consumed ∧ parsed.consumed ≤ input.length := by
  cases input with
  | nil => cases decoded
  | cons first rest =>
    obtain rfl | array := eq_or_ne first 42
    · exact plainArray_consumed decoded
    · rw [plainCommand_inline array] at decoded
      exact parseInlineCommand_consumed decoded

open List

variable {input : Bytes}

theorem exists_cons_of_counted {expected : UInt8} {length headerLength : Nat}
    (counted : tryReadSignedLengthHeader input expected = .ok (some length, headerLength)) :
    ∃ rest, input = expected :: rest := by
  cases input with
  | nil => cases counted
  | cons sigil rest =>
    by_cases same : sigil = expected
    · exact ⟨rest, by rw [same]⟩
    · unfold tryReadSignedLengthHeader at counted
      rw [tryReadSignedLengthHeaderI32_cons, if_pos same] at counted
      split_ifs at counted
      cases counted

theorem Stuck.incomplete (stuck : Stuck input) (more : Bytes) :
    plainCommand (input ++ more) = .error .incomplete := by
  have array : ∃ rest, input = 42 :: rest := by
    rcases stuck with ⟨sign, byte, others, -, -, rfl⟩ | ⟨_, _, _, _, _, counted, -⟩
    · exact ⟨_, rfl⟩
    · exact exists_cons_of_counted counted
  obtain ⟨body, rfl⟩ := array
  rw [cons_append, plainCommand_array, ← cons_append]
  cases plainArray_waits (42 :: body) with
  | answers _ _ alive => exact absurd stuck alive
  | refused alive => exact absurd stuck alive
  | stuck _ waits => exact waits more

theorem parseInlineCommand_completable
    (incomplete : parseInlineCommand input = .error .incomplete) :
    ∃ more, parseInlineCommand (input ++ more) ≠ .error .incomplete := by
  have ended : ∃ more position, findCrlf (input ++ more) = .ok (some position) := by
    by_cases inside : (13 : UInt8) ∈ input
    · -- the carriage return is there and only the line feed is missing
      have before := idxOf_lt_length_of_mem inside
      obtain ⟨first, rest, split⟩ : ∃ first rest, input.drop (input.idxOf 13) = first :: rest :=
        exists_cons_of_length_pos (by rw [length_drop]; omega)
      cases rest with
      | nil =>
        refine ⟨[10], input.idxOf 13, ?_⟩
        unfold findCrlf
        rw [idxOf_append_of_mem inside, drop_append_of_le_length before.le, split]
        rfl
      | cons second rest =>
        refine ⟨[], input.idxOf 13, ?_⟩
        rw [append_nil]
        unfold parseInlineCommand at incomplete
        have line : findCrlf input = .ok (some (input.idxOf 13)) ∨
            findCrlf input = .error (.unexpectedToken second) := by
          unfold findCrlf
          rw [split]
          split
          · exact .inl rfl
          · rename_i same
            cases same
            exact .inr rfl
          · rename_i other
            exact absurd rfl (other first second rest)
        rcases line with line | line
        · exact line
        · rw [line] at incomplete
          cases incomplete
    · refine ⟨[13, 10], input.length, ?_⟩
      have place : (input ++ [13, 10]).idxOf 13 = input.length := by
        rw [idxOf_append_of_notMem inside]
        rfl
      unfold findCrlf
      rw [place, drop_left]
      rfl
  obtain ⟨more, position, found⟩ := ended
  refine ⟨more, ?_⟩
  unfold parseInlineCommand
  rw [found]
  dsimp only
  repeat' split
  all_goals rintro ⟨⟩

/-- With any reachable cache, an incomplete input can be completed exactly when it is not stuck. -/
theorem completable_iff {cache : SessionMruCache} (reached : cache.Reachable) (input : Bytes) :
    ((parseSessionCommand input cache).result = .error .incomplete →
      ∃ more, (parseSessionCommand (input ++ more) cache).result ≠ .error .incomplete) ↔
      ¬Stuck input := by
  simp only [parseSessionCommand_eq_plainCommand reached.sound]
  constructor
  · intro completable stuck
    have incomplete := stuck.incomplete []
    rw [List.append_nil] at incomplete
    obtain ⟨more, decided⟩ := completable incomplete
    exact decided (stuck.incomplete more)
  · intro free incomplete
    cases input with
    | nil => exact ⟨bytesOf "\r\n", by decide⟩
    | cons first rest =>
      obtain rfl | array := eq_or_ne first 42
      · cases plainArray_waits (42 :: rest) with
        | answers _ decided _ stays =>
          exact ⟨[], fun waits => decided ((stays []).symm.trans waits)⟩
        | refused _ _ refusable =>
          obtain ⟨more, error, other, refused⟩ := refusable
          exact ⟨more, fun same => other (Except.error.inj (refused.symm.trans same))⟩
        | stuck isDead => exact absurd isDead free
      · rw [plainCommand_inline array] at incomplete
        obtain ⟨more, decided⟩ := parseInlineCommand_completable incomplete
        refine ⟨more, ?_⟩
        rw [List.cons_append, plainCommand_inline array]
        exact decided

/-- A header that is cut short is not stuck: a letter behind it is refused. -/
theorem completable_half_header :
    (parseSessionCommand (bytesOf "*2\r\n$3\r") {}).result = .error .incomplete ∧
      ¬Stuck (bytesOf "*2\r\n$3\r") :=
  ⟨by decide +kernel, (completable_iff .start _).mp fun _ => ⟨bytesOf "x", by decide +kernel⟩⟩

/-- A carriage return in place of the count, and then a letter: the parser waits for ever. -/
theorem waits_behind_broken_header :
    (parseSessionCommand (bytesOf "*\rX") {}).result = .error .incomplete ∧
      ¬∃ more, (parseSessionCommand (bytesOf "*\rX" ++ more) {}).result ≠ .error .incomplete := by
  refine ⟨by decide +kernel, ?_⟩
  rintro ⟨more, decided⟩
  rw [parseSessionCommand_eq_plainCommand SessionMruCache.Reachable.start.sound] at decided
  exact decided (Stuck.incomplete (.inl ⟨[], 88, [], .inl rfl, by decide, rfl⟩) more)

end Wedb.Resp
