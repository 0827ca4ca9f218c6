/-
The RESP reader: the integer scanners, length headers and bulk string slices of `RespReadUtils`, and
the argument parsers of `ParseUtils`. A scanner also returns the number of bytes it consumed.
-/

import Wedb.Bytes

namespace Wedb.Resp

/-- The protocol errors; an unknown name is kept as it was sent. -/
inductive RespError
  | integerOverflow
  | notANumber
  | invalidLength (length : Int)
  | unexpectedToken (byte : UInt8)
  | incomplete
  | unknownCommand (name : Bytes)
  | excessiveArgs (count limit : Nat)
  | protocol (message : String)
  deriving DecidableEq

abbrev ReadResult (α : Type) := Except RespError (α × Nat)

def readDigits (value consumed : Nat) : Bytes → ReadResult Nat
  | [] => .ok (value, consumed)
  | byte :: rest =>
    if isAsciiDigit byte then
      let next := value * 10 + (byte.toNat - 48)
      if consumed < 18 ∨ next < 2 ^ 64 then readDigits next (consumed + 1) rest
      else .error .integerOverflow
    else .ok (value, consumed)

variable (input : Bytes)

def tryReadUint64 : ReadResult Nat :=
  match input with
  | [] => .error .incomplete
  | byte :: _ => if isAsciiDigit byte then readDigits 0 0 input else .error .notANumber

def tryReadSign : Bool × Bool × Nat :=
  match input with
  | 45 :: _ => (true, true, 1)
  | 43 :: _ => (true, false, 1)
  | _ => (false, false, 0)

def tryReadInt64Safe (allowLeadingZeros : Bool) : Except RespError (Int × Nat × Bool) :=
  if input.isEmpty then .error .incomplete
  else
    let (signRead, negative, cursor) := tryReadSign input
    let remaining := input.drop cursor
    if remaining.isEmpty then
      if signRead then .error .notANumber else .error .incomplete
    else if !allowLeadingZeros && decide (1 < remaining.length) &&
        remaining.head? == some 48 then .error .notANumber
    else
      match tryReadUint64 remaining with
      | .error error => .error error
      | .ok (magnitude, digits) =>
        if negative then
          if 2 ^ 63 < magnitude then .error .integerOverflow
          else .ok (-(magnitude : Int), cursor + digits, signRead)
        else
          if 2 ^ 63 ≤ magnitude then .error .integerOverflow
          else .ok ((magnitude : Int), cursor + digits, signRead)

def tryReadInt64 (allowLeadingZeros : Bool) : ReadResult Int :=
  match tryReadInt64Safe input allowLeadingZeros with
  | .error error => .error error
  | .ok (value, consumed, _) => .ok (value, consumed)

def tryReadInt32 (allowLeadingZeros : Bool) : ReadResult Int :=
  match tryReadInt64Safe input allowLeadingZeros with
  | .error error => .error error
  | .ok (value, consumed, _) =>
    if -2 ^ 31 ≤ value ∧ value < 2 ^ 31 then .ok (value, consumed)
    else .error .integerOverflow

variable (argument : Bytes)

def wholeArgument (result : ReadResult Int) : Option Int :=
  match result with
  | .ok (value, consumed) => if consumed = argument.length then some value else none
  | .error _ => none

def tryReadLong : Option Int :=
  if argument.isEmpty then none else wholeArgument argument (tryReadInt64 argument false)

def tryReadInt : Option Int :=
  if argument.isEmpty then none else wholeArgument argument (tryReadInt32 argument false)

def tryReadUlong : Option Nat :=
  match tryReadUint64 argument with
  | .ok (value, consumed) => if consumed = argument.length then some value else none
  | .error _ => none

def readInt : Except RespError Int :=
  (tryReadInt argument).elim (.error .notANumber) .ok

def readLong : Except RespError Int :=
  (tryReadLong argument).elim (.error .notANumber) .ok

def readUlong : Except RespError Nat :=
  (tryReadUlong argument).elim (.error .notANumber) .ok

variable {value : Int} {signRead allowLeadingZeros : Bool} {consumed : Nat}

theorem tryReadInt64Safe_range {input : Bytes}
    (read : tryReadInt64Safe input allowLeadingZeros = .ok (value, consumed, signRead)) :
    IsInt64 value := by
  simp only [tryReadInt64Safe] at read
  split at read <;> [cases read; skip]
  split at read <;> [(split at read <;> cases read); skip]
  split at read <;> [cases read; skip]
  split at read <;> [cases read; skip]
  split at read
  · split at read <;> [cases read; skip]
    cases read
    constructor <;> omega
  · split at read <;> [cases read; skip]
    cases read
    constructor <;> omega

theorem tryReadInt64_range {input : Bytes}
    (read : tryReadInt64 input allowLeadingZeros = .ok (value, consumed)) :
    IsInt64 value := by
  unfold tryReadInt64 at read
  split at read
  · cases read
  · rename_i whole
    cases read
    exact tryReadInt64Safe_range whole

theorem tryReadLong_range {argument : Bytes}
    (read : tryReadLong argument = some value) : IsInt64 value := by
  unfold tryReadLong wholeArgument at read
  split at read
  · cases read
  · split at read
    · rename_i whole
      split at read
      · cases read
        exact tryReadInt64_range whole
      · cases read
    · cases read

def findCrlf : Except RespError (Option Nat) :=
  match input.drop (input.idxOf 13) with
  | _ :: 10 :: _ => .ok (some (input.idxOf 13))
  | _ :: other :: _ => .error (.unexpectedToken other)
  | _ => .ok none

/-- `RespReadUtils::try_read_error`: the text of an error line. -/
def tryReadError : ReadResult Bytes :=
  match input with
  | [] => .error .incomplete
  | 45 :: rest =>
    match findCrlf rest with
    | .error error => .error error
    | .ok none => .error .incomplete
    | .ok (some position) => .ok (rest.take position, 1 + position + 2)
  | byte :: _ => .error (.unexpectedToken byte)

def scanIntLine (rest : Bytes) : ReadResult Int :=
  let signLength := match rest.head? with
    | some 45 => 1
    | some 43 => 1
    | _ => 0
  let digitsEnd := signLength + ((rest.drop signLength).takeWhile isAsciiDigit).length
  if rest.length = signLength then .error .incomplete
  else if digitsEnd = signLength then
    match rest.drop digitsEnd with
    | 13 :: 10 :: _ => .error .notANumber
    | 13 :: _ => .error .incomplete
    | other :: _ => .error (.unexpectedToken other)
    | [] => .error .incomplete
  else if 32 < digitsEnd then .error (.protocol "数字行过长")
  else
    match rest.drop digitsEnd with
    | [] => .error .incomplete
    | 13 :: [] => .error .incomplete
    | 13 :: 10 :: _ =>
      match tryReadInt64 (rest.take digitsEnd) true with
      | .error error => .error error
      | .ok (value, consumed) =>
        if consumed = digitsEnd then .ok (value, digitsEnd) else .error .notANumber
    | 13 :: other :: _ => .error (.unexpectedToken other)
    | other :: _ => .error (.unexpectedToken other)

def tryReadSignedLengthHeaderI32 (expectedSigil : UInt8) : ReadResult Int :=
  match input with
  | [] => .error .incomplete
  | sigil :: rest =>
    if input.length < 3 then .error .incomplete
    else if input.take 3 = bytesOf "_\r\n" then .ok (-1, 3)
    else if sigil ≠ expectedSigil then .error (.unexpectedToken sigil)
    else if rest.take 4 = bytesOf "-1\r\n" then .ok (-1, 5)
    else
      match scanIntLine rest with
      | .error error => .error error
      | .ok (value, digitsEnd) =>
        if 2 ^ 31 ≤ value ∨ value < -2 ^ 31 then .error .integerOverflow
        else .ok (value, 1 + digitsEnd + 2)

def tryReadSignedLengthHeader (expectedSigil : UInt8) : ReadResult (Option Nat) :=
  match tryReadSignedLengthHeaderI32 input expectedSigil with
  | .error error => .error error
  | .ok (value, consumed) =>
    if value < 0 then
      if value = -1 then .ok (none, consumed) else .error (.invalidLength value)
    else .ok (some value.toNat, consumed)

def tryReadUnsignedLengthHeader (expectedSigil : UInt8) : ReadResult Nat :=
  match tryReadSignedLengthHeaderI32 input expectedSigil with
  | .error error => .error error
  | .ok (value, consumed) =>
    if value < 0 then .error (.invalidLength value) else .ok (value.toNat, consumed)

def maxArgumentLengthBytes : Nat := 512 * 1024 * 1024

def payloadAfterHeader (headerLength length : Nat) : Except RespError Bytes :=
  if input.length < headerLength + length + 2 then .error .incomplete
  else
    match input.drop (headerLength + length) with
    | 13 :: 10 :: _ => .ok ((input.drop headerLength).take length)
    | other :: _ => .error (.unexpectedToken other)
    | [] => .error .incomplete

def trySliceWithLengthHeader : ReadResult Bytes :=
  match tryReadUnsignedLengthHeader input 36 with
  | .error error => .error error
  | .ok (length, headerLength) =>
    if maxArgumentLengthBytes < length then .error (.invalidLength length)
    else
      match payloadAfterHeader input headerLength length with
      | .error error => .error error
      | .ok payload => .ok (payload, headerLength + length + 2)

end Wedb.Resp
