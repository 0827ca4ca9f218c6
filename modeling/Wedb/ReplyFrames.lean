/-
When is a reply one frame of the protocol? The error for an unknown command and the result of a
script carry a text as it is, and a line ends at its first carriage return.
-/

import Wedb.ScriptApi
import Wedb.StreamIndependence

namespace Wedb

open List Option

namespace Resp

theorem findCrlf_line {line : Bytes} (clean : 13 ∉ line) (rest : Bytes) :
    findCrlf (line ++ crlf ++ rest) = .ok (some line.length) := by
  have shape : line ++ crlf ++ rest = line ++ 13 :: 10 :: rest := by simp [crlf]
  unfold findCrlf
  rw [shape, Net.idxOf_append_cons clean, drop_left]
  rfl

theorem findCrlf_clean {input : Bytes} {position : Nat}
    (found : findCrlf input = .ok (some position)) : 13 ∉ input.take position := by
  have first : position = input.idxOf 13 := by
    unfold findCrlf at found
    split at found <;> cases found
    rfl
  intro inside
  have before := idxOf_lt_length_of_mem inside
  have same : (input.take position ++ input.drop position).idxOf 13 = _ :=
    idxOf_append_of_mem inside
  rw [take_append_drop, ← first] at same
  rw [length_take] at before
  omega

def IsErrorFrame (bytes : Bytes) : Prop :=
  ∃ text, tryReadError bytes = .ok (text, bytes.length)

theorem isErrorFrame_writeError_iff (text : Bytes) :
    IsErrorFrame (writeError text) ↔ 13 ∉ text := by
  have length : (writeError text).length = 1 + text.length + 2 := by
    simp [writeError, crlf]
    omega
  constructor
  · rintro ⟨payload, read⟩
    simp only [writeError, tryReadError] at read
    cases line : findCrlf (text ++ crlf) with
    | error error => rw [line] at read; cases read
    | ok found =>
      rw [line] at read
      cases found with
      | none => cases read
      | some position =>
        have used := (Prod.mk.inj (Except.ok.inj read)).2
        have whole : position = text.length := by
          rw [writeError] at length
          omega
        have clean := findCrlf_clean line
        rwa [whole, take_left] at clean
  · intro clean
    have line := findCrlf_line clean []
    rw [append_nil] at line
    refine ⟨text, ?_⟩
    rw [length]
    simp only [writeError, tryReadError, line, take_left]

end Resp

theorem frontSequence_broken {bytes : Bytes} (broken : (frontSequence bytes).2 = false) :
    13 ∉ bytes.take (frontSequence bytes).1 := by
  have second : ∀ first, secondAllowed first 13 = false := by
    intro first
    unfold secondAllowed
    split_ifs <;> decide
  have continuation : isContinuation 13 = false := by decide
  have single : sequenceLength 13 = 1 := by decide
  unfold frontSequence at broken ⊢
  grind

theorem frontSequence_pos (first : UInt8) (rest : Bytes) :
    0 < (frontSequence (first :: rest)).1 := by
  unfold frontSequence
  grind

theorem mem_sequences_iff {fuel : Nat} {bytes : Bytes} (enough : bytes.length ≤ fuel) :
    13 ∈ (sequences fuel bytes).flatMap (fun sequence =>
      if sequence.2 then sequence.1 else [0xEF, 0xBF, 0xBD]) ↔ 13 ∈ bytes := by
  induction fuel generalizing bytes with
  | zero => simp [sequences, length_eq_zero_iff.mp (Nat.le_zero.mp enough)]
  | succ fuel ih =>
    cases bytes with
    | nil => simp [sequences]
    | cons first rest =>
      have front := frontSequence_pos first rest
      have broken := @frontSequence_broken (first :: rest)
      have step : sequences (fuel + 1) (first :: rest) =
          ((first :: rest).take (frontSequence (first :: rest)).1,
            (frontSequence (first :: rest)).2) ::
              sequences fuel ((first :: rest).drop (frontSequence (first :: rest)).1) := rfl
      rw [step]
      generalize frontSequence (first :: rest) = found at front broken ⊢
      have later := @ih ((first :: rest).drop found.1) (by rw [length_drop]; omega)
      rw [flatMap_cons, mem_append, later]
      conv_rhs => rw [← take_append_drop found.1 (first :: rest), mem_append]
      cases complete : found.2 with
      | true => simp
      | false => simp [broken complete]

theorem mem_toUnknownCmdName_iff (name : Bytes) : 13 ∈ Resp.toUnknownCmdName name ↔ 13 ∈ name := by
  unfold Resp.toUnknownCmdName
  split
  · rfl
  · exact mem_sequences_iff le_rfl

namespace Net

open Resp Streaming

def unknownCommandReply (name : Bytes) : Bytes :=
  writeError (bytesOf "ERR unknown command '" ++ name ++ bytesOf "'")

variable {σ : Type}

theorem unknownCommand_name {session : NetSession σ} {state : σ} {rest name text : Bytes}
    {count headerLength used : Nat}
    (framed : tryReadSignedLengthHeader (42 :: rest) 42 = .ok (some count, headerLength))
    (named : trySliceWithLengthHeader ((42 :: rest).drop headerLength) = .ok (name, used))
    (unknown : RespCommand.lookup name = none) {round : Round σ Outcome}
    (answered : plainRound session state (42 :: rest) = some round)
    (refused : round.output = .unknownCommand text) : text = toUnknownCmdName name := by
  unfold plainRound at answered
  rw [plainCommand_array, plainArray, framed] at answered
  simp only [plainFrame, named, unknown] at answered
  split_ifs at answered
  · cases answered
    cases refused
  · cases answered
    cases refused
  · cases answered
    cases refused
  · simp only [plainVerdict] at answered
    split at answered <;> cases answered <;> cases refused
    rfl

/-- The reply to an unknown command is one error frame exactly when its name has no carriage
return. -/
theorem unknownCommand_oneReply_iff (session : NetSession σ) (state : σ) {mru : SessionMruCache}
    (reached : mru.Reachable) {rest name text : Bytes} {count headerLength used : Nat}
    (framed : tryReadSignedLengthHeader (42 :: rest) 42 = .ok (some count, headerLength))
    (named : trySliceWithLengthHeader ((42 :: rest).drop headerLength) = .ok (name, used))
    (unknown : RespCommand.lookup name = none) {round : Round (σ × SessionMruCache) Outcome}
    (answered : parseRound session (state, mru) (42 :: rest) = some round)
    (refused : round.output = .unknownCommand text) :
    IsErrorFrame (unknownCommandReply text) ↔ 13 ∉ name := by
  obtain ⟨kept, -, same⟩ := parseRound_eq session state reached.sound (42 :: rest)
  rw [same] at answered
  obtain ⟨plain, made, rfl⟩ := Option.map_eq_some_iff.mp answered
  rw [unknownCommand_name framed named unknown made refused, unknownCommandReply,
    isErrorFrame_writeError_iff, ← mem_toUnknownCmdName_iff name]
  have quoted : (13 : UInt8) ∉ bytesOf "ERR unknown command '" ∧ (13 : UInt8) ∉ bytesOf "'" := by
    decide
  simp [quoted]

def idleSession : NetSession Unit := ⟨fun _ _ _ => ((), false), fun _ => ()⟩

def nameFrame (name : String) : Bytes := 42 :: bytesOf ("1\r\n$3\r\n" ++ name ++ "\r\n")

theorem unknownCommand_oneReply_foo :
    IsErrorFrame (unknownCommandReply (bytesOf "foo")) ↔ 13 ∉ bytesOf "foo" :=
  @unknownCommand_oneReply_iff _ idleSession () {} .start _ (bytesOf "foo") (bytesOf "foo") 1 4 9
    (show tryReadSignedLengthHeader (nameFrame "foo") 42 = _ by decide +kernel)
    (by decide +kernel) (by decide +kernel) ⟨.unknownCommand (bytesOf "foo"), 13, ((), {}), true⟩
    (by rfl) rfl

/-- A name with a line end in it is answered with two lines. -/
theorem unknownCommand_splits_reply :
    (parseRound idleSession ((), {}) (nameFrame "a\r\n")).map Round.output =
        some (.unknownCommand (bytesOf "a\r\n")) ∧
      tryReadError (unknownCommandReply (bytesOf "a\r\n")) =
        .ok (bytesOf "ERR unknown command 'a", 25) ∧
      (unknownCommandReply (bytesOf "a\r\n")).length = 28 := by
  decide +kernel

end Net

namespace Server

open Resp

def readLine (input : Bytes) : Option (Bytes × Bytes) :=
  match findCrlf input with
  | .ok (some lineEnd) => some (input.take lineEnd, input.drop (lineEnd + 2))
  | _ => none

def valueOfLine (items : Nat → Bytes → Option (List RespValue × Bytes)) (sigil : UInt8)
    (line rest : Bytes) : Option (RespValue × Bytes) :=
  match sigil with
  | 43 => some (.status line, rest)
  | 45 => some (.error line, rest)
  | 58 => (parseInt64 line).map fun value => (.integer value, rest)
  | 36 =>
    if line = bytesOf "-1" then some (.bulk none, rest)
    else (parseDigits line).bind fun length =>
      if (rest.drop length).take 2 = crlf then
        some (.bulk (some (rest.take length)), rest.drop (length + 2))
      else none
  | 42 => (parseDigits line).bind fun length =>
    (items length rest).map fun read => (.array read.1, read.2)
  | _ => none

def readItems (read : Bytes → Option (RespValue × Bytes)) :
    Nat → Bytes → Option (List RespValue × Bytes)
  | 0, input => some ([], input)
  | count + 1, input => (read input).bind fun first =>
    (readItems read count first.2).map fun others => (first.1 :: others.1, others.2)

def readValue : Nat → Bytes → Option (RespValue × Bytes)
  | depth + 1, sigil :: input => (readLine input).bind fun line =>
    valueOfLine (readItems (readValue depth)) sigil line.1 line.2
  | _, _ => none

def ReadsBack (value : RespValue) (bytes : Bytes) : Prop :=
  ∃ depth, readValue depth bytes = some (value, [])

mutual

/-- The texts of a value have no carriage return; its integers are those of an `i64`. -/
def RespValue.Clean : RespValue → Prop
  | .status text => 13 ∉ text
  | .error text => 13 ∉ text
  | .integer value => IsInt64 value
  | .bulk _ => True
  | .array items => AllClean items

def AllClean : List RespValue → Prop
  | [] => True
  | item :: rest => item.Clean ∧ AllClean rest

end

theorem not_mem_of_plain {line : Bytes} (plain : line.all isPlain) : 13 ∉ line :=
  fun inside => absurd (all_eq_true.mp plain 13 inside) (by decide)

theorem readValue_line {line : Bytes} (clean : 13 ∉ line) (depth : Nat) (sigil : UInt8)
    (rest : Bytes) : readValue (depth + 1) (sigil :: (line ++ crlf ++ rest)) =
      valueOfLine (readItems (readValue depth)) sigil line rest := by
  have read : readLine (line ++ crlf ++ rest) = some (line, rest) := by
    rw [readLine, findCrlf_line clean]
    simp [crlf]
  rw [readValue, read, bind_some]

/-- A reader that goes deep enough has the value again, whatever follows. -/
def Restores (value : RespValue) (depth : Nat) : Prop :=
  ∀ rest, readValue depth (writeRespValue value ++ rest) = some (value, rest)

theorem restores_of_line {value : RespValue} {sigil : UInt8} {line tail : Bytes}
    (written : writeRespValue value = sigil :: (line ++ crlf ++ tail)) (clean : 13 ∉ line)
    {bound : Nat} (read : ∀ depth ≥ bound, ∀ rest,
      valueOfLine (readItems (readValue depth)) sigil line (tail ++ rest) = some (value, rest)) :
    ∃ bound, ∀ depth ≥ bound, Restores value depth := by
  refine ⟨bound + 1, fun depth deep rest => ?_⟩
  obtain ⟨depth, rfl⟩ : ∃ less, depth = less + 1 := ⟨depth - 1, by omega⟩
  rw [written, cons_append, append_assoc, readValue_line clean]
  exact read depth (by omega) rest

mutual

theorem restores : ∀ (value : RespValue), value.Clean →
    ∃ bound, ∀ depth ≥ bound, Restores value depth
  | .status text, clean => by
    refine @restores_of_line _ 43 text [] (by simp [writeRespValue]) clean 0 ?_
    exact fun _ _ _ => rfl
  | .error text, clean => by
    refine @restores_of_line _ 45 text [] (by simp [writeRespValue, writeError]) clean 0 ?_
    exact fun _ _ _ => rfl
  | .integer value, clean => by
    refine @restores_of_line _ 58 (formatInt value) [] (by simp [writeRespValue, writeInteger])
      (not_mem_of_plain (all_isPlain_formatInt value)) 0 ?_
    intro _ _ rest
    have read : parseInt64 (formatInt value) = some value := by
      exact (parseInt64_formatInt value).trans (if_pos clean)
    rw [valueOfLine, read]
    rfl
  | .bulk none, _ => by
    refine @restores_of_line _ 36 (bytesOf "-1") [] (by decide) (by decide) 0 ?_
    exact fun _ _ _ => rfl
  | .bulk (some payload), _ => by
    refine @restores_of_line _ 36 (formatNat payload.length) (payload ++ crlf)
      (by simp [writeRespValue, bulkOrNull, writeBulkString])
      (not_mem_of_plain (all_isPlain_formatNat _)) 0 ?_
    intro _ _ rest
    have notNull : formatNat payload.length ≠ bytesOf "-1" := by
      intro null
      have digital := (formatNat_spec payload.length).2.1
      rw [null] at digital
      exact absurd digital (by decide)
    rw [valueOfLine, if_neg notNull, parseDigits_formatNat]
    simp [crlf]
  | .array items, clean => by
    obtain ⟨bound, read⟩ := restoresAll items clean
    refine @restores_of_line _ 42 (formatNat items.length) (writeRespValues items)
      (by simp [writeRespValue, writeArrayHeader])
      (not_mem_of_plain (all_isPlain_formatNat _)) bound ?_
    intro depth deep rest
    simp [valueOfLine, parseDigits_formatNat, read depth deep rest]

theorem restoresAll : ∀ (items : List RespValue), AllClean items → ∃ bound, ∀ depth ≥ bound,
    ∀ rest, readItems (readValue depth) items.length (writeRespValues items ++ rest) =
      some (items, rest)
  | [], _ => ⟨0, fun _ _ _ => rfl⟩
  | item :: others, clean => by
    obtain ⟨first, readFirst⟩ := restores item clean.1
    obtain ⟨later, readLater⟩ := restoresAll others clean.2
    refine ⟨max first later, fun depth deep rest => ?_⟩
    rw [writeRespValues, append_assoc, length_cons, readItems, readFirst depth (by omega)]
    simp [readLater depth (by omega)]

end

theorem clean_of_readItems {read : Bytes → Option (RespValue × Bytes)}
    (sound : ∀ input value rest, read input = some (value, rest) → value.Clean) {count : Nat}
    {input rest : Bytes} {items : List RespValue}
    (found : readItems read count input = some (items, rest)) : AllClean items := by
  induction count generalizing input items with
  | zero =>
    cases found
    trivial
  | succ count ih =>
    obtain ⟨first, one, more⟩ := bind_eq_some_iff.mp found
    obtain ⟨others, later, same⟩ := map_eq_some_iff.mp more
    cases same
    exact ⟨sound _ _ _ one, ih later⟩

theorem clean_of_readValue {depth : Nat} : ∀ (input : Bytes) (value : RespValue) (rest : Bytes),
    readValue depth input = some (value, rest) → value.Clean := by
  induction depth with
  | zero => intro input value rest found; cases found
  | succ depth ih =>
    intro input value rest found
    cases input with
    | nil => cases found
    | cons sigil input =>
      obtain ⟨line, cut, found⟩ := bind_eq_some_iff.mp found
      have clean : 13 ∉ line.1 := by
        unfold readLine at cut
        split at cut
        · rename_i lineEnd ended
          cases cut
          exact findCrlf_clean ended
        · cases cut
      unfold valueOfLine at found
      split at found
      · cases found
        exact clean
      · cases found
        exact clean
      · obtain ⟨number, parsed, same⟩ := map_eq_some_iff.mp found
        cases same
        exact parseInt64_range parsed
      · split_ifs at found
        · cases found
          trivial
        · obtain ⟨length, -, found⟩ := bind_eq_some_iff.mp found
          split_ifs at found
          cases found
          trivial
      · obtain ⟨length, -, found⟩ := bind_eq_some_iff.mp found
        obtain ⟨items, read, same⟩ := map_eq_some_iff.mp found
        cases same
        exact clean_of_readItems ih read
      · cases found

/-- The result of a script reads back exactly when it is clean. -/
theorem readsBack_writeRespValue_iff (value : RespValue) :
    ReadsBack value (writeRespValue value) ↔ value.Clean := by
  constructor
  · rintro ⟨depth, read⟩
    exact clean_of_readValue _ _ _ read
  · intro clean
    obtain ⟨bound, deep⟩ := restores value clean
    have read := deep bound le_rfl []
    rw [List.append_nil] at read
    exact ⟨bound, read⟩

/-- A status with a line end in it is read as a shorter status with bytes left. -/
theorem status_splits_reply :
    (readValue 1 (writeRespValue (.status (bytesOf "a\r\nb")))).map Prod.snd =
        some (bytesOf "b\r\n") ∧
      ¬ReadsBack (.status (bytesOf "a\r\nb")) (writeRespValue (.status (bytesOf "a\r\nb"))) := by
  refine ⟨by decide +kernel, ?_⟩
  rintro ⟨depth, read⟩
  exact absurd (clean_of_readValue _ _ _ read) (by simp only [RespValue.Clean]; decide)

end Server

end Wedb
