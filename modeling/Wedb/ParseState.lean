/-
The command parser of a session: common frame headers by a masked comparison of sixteen bytes, two
slots that remember recent headers, and the slow readers.
-/

import Wedb.RespCommand
import Wedb.RespRead
import Wedb.Utf8

namespace Wedb.Resp

variable (input : Bytes)

def loadU128Head : Bytes :=
  input.take 16 ++ List.replicate (16 - input.length) 0

def maskFor (length : Nat) : Bytes :=
  if 13 ≤ length ∧ length ≤ 16 then
    List.replicate length 255 ++ List.replicate (16 - length) 0
  else List.replicate 16 0

def andWord (left right : Bytes) : Bytes := List.zipWith (· &&& ·) left right

/-- The bytes from `first` to before `last` in upper case. -/
def upperBytes (word : Bytes) (first last : Nat) : Bytes :=
  word.take first ++ ((word.take last).drop first).map toAsciiUppercase ++ word.drop last

def headerPatterns : List (Nat × List (String × RespCommand × Nat)) :=
  [(13, [("*2\r\n$3\r\nGET\r\n", .get, 1), ("*3\r\n$3\r\nSET\r\n", .set, 2),
      ("*2\r\n$3\r\nDEL\r\n", .del, 1), ("*2\r\n$3\r\nTTL\r\n", .ttl, 1)]),
    (14, [("*1\r\n$4\r\nPING\r\n", .ping, 0), ("*2\r\n$4\r\nINCR\r\n", .incr, 1),
      ("*2\r\n$4\r\nDECR\r\n", .decr, 1), ("*1\r\n$4\r\nEXEC\r\n", .exec, 0),
      ("*2\r\n$4\r\nPTTL\r\n", .pttl, 1)]),
    (15, [("*1\r\n$5\r\nMULTI\r\n", .multi, 0), ("*3\r\n$5\r\nSETNX\r\n", .setnx, 2),
      ("*4\r\n$5\r\nSETEX\r\n", .setex, 3)]),
    (16, [("*2\r\n$6\r\nEXISTS\r\n", .exists, 1), ("*2\r\n$6\r\nGETDEL\r\n", .getdel, 1),
      ("*3\r\n$6\r\nAPPEND\r\n", .append, 2), ("*3\r\n$6\r\nINCRBY\r\n", .incrby, 2),
      ("*3\r\n$6\r\nDECRBY\r\n", .decrby, 2), ("*4\r\n$6\r\nPSETEX\r\n", .psetex, 3)])]

structure Header where
  cmd : RespCommand
  count : Nat
  len : Nat

def matchPatterns (word : Bytes) (maxLen : Nat) : Option Header :=
  headerPatterns.findSome? fun (length, patterns) =>
    if length ≤ maxLen then
      (patterns.find? fun pattern =>
        andWord word (maskFor length) == loadU128Head (bytesOf pattern.1)).map
          fun pattern => ⟨pattern.2.1, pattern.2.2, length⟩
    else none

def simdFastParse : Option Header :=
  if input.length < 13 ∨ input.head? ≠ some 42 then none
  else
    let word := loadU128Head input
    let maxLen := min 16 input.length
    match matchPatterns word maxLen with
    | some header => some header
    | none =>
      if ((word.take (maxLen - 2)).drop 8).any isAsciiLowercase then
        matchPatterns (upperBytes word 8 (maxLen - 2)) maxLen
      else none

structure MruSlot where
  pattern : Bytes
  mask : Bytes
  header : Header

structure SessionMruCache where
  mru0 : Option MruSlot := none
  mru1 : Option MruSlot := none

def MruSlot.covers (slot : MruSlot) (length : Nat) (word : Bytes) : Bool :=
  decide (slot.header.len ≤ length) && andWord word slot.mask == slot.pattern

namespace SessionMruCache

def tryMatch (cache : SessionMruCache) (input : Bytes) : Option Header × SessionMruCache :=
  match cache.mru0 with
  | none => (none, cache)
  | some slot0 =>
    if input.length < 13 then (none, cache)
    else
      let word := upperBytes (loadU128Head input) 8 14
      if slot0.covers input.length word then (some slot0.header, cache)
      else
        match cache.mru1 with
        | none => (none, cache)
        | some slot1 =>
          if slot1.covers input.length word then
            (some slot1.header, { mru0 := some slot1, mru1 := some slot0 })
          else (none, cache)

def update (cache : SessionMruCache) (input : Bytes) (header : Header) : SessionMruCache :=
  if input.length < header.len ∨ ¬(13 ≤ header.len ∧ header.len ≤ 16) ∨ 255 < header.count then
    cache
  else
    let mask := maskFor header.len
    let pattern := andWord (upperBytes (loadU128Head input) 8 14) mask
    if cache.mru0.any (·.pattern == pattern) then cache
    else if cache.mru1.any (·.pattern == pattern) then
      { mru0 := cache.mru1, mru1 := cache.mru0 }
    else { mru0 := some ⟨pattern, mask, header⟩, mru1 := cache.mru0 }

end SessionMruCache

structure Parsed where
  cmd : RespCommand
  args : List Bytes
  consumed : Nat
  deriving DecidableEq

structure ParseOutcome where
  result : Except RespError Parsed
  mru : SessionMruCache

def readArguments : Nat → Bytes → Except RespError (List Bytes × Bytes)
  | 0, input => .ok ([], input)
  | count + 1, input =>
    match trySliceWithLengthHeader input with
    | .error error => .error error
    | .ok (argument, used) =>
      match readArguments count (input.drop used) with
      | .error error => .error error
      | .ok (arguments, rest) => .ok (argument :: arguments, rest)

def toUnknownCmdName (name : Bytes) : Bytes :=
  if utf8Valid name then name else fromUtf8Lossy name

def maxRespArrayLength : Nat := 2 ^ 20

def readRest (cmd : RespCommand) (taken : List Bytes) (count : Nat)
    (rest : Bytes) : Except RespError Parsed :=
  match readArguments count rest with
  | .error error => .error error
  | .ok (arguments, rest) => .ok ⟨cmd, taken ++ arguments, input.length - rest.length⟩

/-- `parse_array_command`. The cache learns a header unless its subcommand was none. -/
def parseArrayCommand (mru : SessionMruCache) : ParseOutcome :=
  match tryReadSignedLengthHeader input 42 with
  | .error error => ⟨.error error, mru⟩
  | .ok (none, headerLength) => ⟨.ok ⟨.none, [], headerLength⟩, mru⟩
  | .ok (some arrayLength, headerLength) =>
    if maxRespArrayLength < arrayLength then
      ⟨.error (.excessiveArgs arrayLength maxRespArrayLength), mru⟩
    else if arrayLength = 0 then ⟨.ok ⟨.none, [], headerLength⟩, mru⟩
    else
      match trySliceWithLengthHeader (input.drop headerLength) with
      | .error error => ⟨.error error, mru⟩
      | .ok (name, used) =>
        match RespCommand.lookup name with
        | none => ⟨.error (.unknownCommand (toUnknownCmdName name)), mru⟩
        | some (primary, hasSub) =>
          let consumed := headerLength + used
          let rest := input.drop consumed
          if hasSub = true ∧ 1 < arrayLength then
            match trySliceWithLengthHeader rest with
            | .error error => ⟨.error error, mru⟩
            | .ok (next, used) =>
              match RespCommand.lookupSubcommand primary next with
              | some sub =>
                ⟨readRest input sub [] (arrayLength - 2) (rest.drop used),
                  mru.update input ⟨sub, arrayLength - 2, consumed + used⟩⟩
              | none => ⟨readRest input primary [next] (arrayLength - 2) (rest.drop used), mru⟩
          else
            ⟨readRest input primary [] (arrayLength - 1) rest,
              if hasSub then mru else mru.update input ⟨primary, arrayLength - 1, consumed⟩⟩

def inlineTokens (line : Bytes) : List Bytes :=
  (line.splitOnP fun byte => byte == 32 || byte == 9).filter (· ≠ [])

def parseInlineCommand : Except RespError Parsed :=
  match findCrlf input with
  | .error error => .error error
  | .ok none => .error .incomplete
  | .ok (some lineEnd) =>
    match inlineTokens (input.take lineEnd) with
    | [] => .ok ⟨.none, [], lineEnd + 2⟩
    | name :: tokens =>
      match RespCommand.lookup name with
      | none => .error (.unknownCommand (toUnknownCmdName name))
      | some (primary, hasSub) =>
        match hasSub, tokens with
        | true, next :: others =>
          match RespCommand.lookupSubcommand primary next with
          | some sub => .ok ⟨sub, others, lineEnd + 2⟩
          | none => .ok ⟨primary, tokens, lineEnd + 2⟩
        | _, _ => .ok ⟨primary, tokens, lineEnd + 2⟩

def parseSessionCommand (mru : SessionMruCache) : ParseOutcome :=
  match input with
  | [] => ⟨.error .incomplete, mru⟩
  | first :: _ =>
    if first ≠ 42 then ⟨parseInlineCommand input, mru⟩
    else
      match simdFastParse input with
      | some header => ⟨readRest input header.cmd [] header.count (input.drop header.len), mru⟩
      | none =>
        match mru.tryMatch input with
        | (some header, mru) =>
          ⟨readRest input header.cmd [] header.count (input.drop header.len), mru⟩
        | (none, mru) => parseArrayCommand input mru

end Wedb.Resp
