/-
The text handling of the standard library on bytes: the UTF-8 check of `str::from_utf8`, its lossy
conversion, `str::trim` and the decimal parser of `i64`.
-/

import Wedb.Bytes

namespace Wedb

def isContinuation (byte : UInt8) : Bool := decide (128 ≤ byte ∧ byte ≤ 191)

def secondAllowed (first second : UInt8) : Bool :=
  if first = 0xE0 then decide (0xA0 ≤ second ∧ second ≤ 0xBF)
  else if first = 0xED then decide (0x80 ≤ second ∧ second ≤ 0x9F)
  else if first = 0xF0 then decide (0x90 ≤ second ∧ second ≤ 0xBF)
  else if first = 0xF4 then decide (0x80 ≤ second ∧ second ≤ 0x8F)
  else isContinuation second

def sequenceLength (first : UInt8) : Nat :=
  if first < 0x80 then 1
  else if 0xC2 ≤ first ∧ first ≤ 0xDF then 2
  else if 0xE0 ≤ first ∧ first ≤ 0xEF then 3
  else if 0xF0 ≤ first ∧ first ≤ 0xF4 then 4
  else 0

def frontSequence : Bytes → Nat × Bool
  | [] => (0, false)
  | first :: rest =>
    match sequenceLength first with
    | 1 => (1, true)
    | 2 =>
      match rest with
      | second :: _ => if isContinuation second then (2, true) else (1, false)
      | [] => (1, false)
    | 3 =>
      match rest with
      | second :: third :: _ =>
        if secondAllowed first second then
          if isContinuation third then (3, true) else (2, false)
        else (1, false)
      | [second] => if secondAllowed first second then (2, false) else (1, false)
      | [] => (1, false)
    | 4 =>
      match rest with
      | second :: third :: fourth :: _ =>
        if secondAllowed first second then
          if isContinuation third then
            if isContinuation fourth then (4, true) else (3, false)
          else (2, false)
        else (1, false)
      | [second, third] =>
        if secondAllowed first second then
          if isContinuation third then (3, false) else (2, false)
        else (1, false)
      | [second] => if secondAllowed first second then (2, false) else (1, false)
      | [] => (1, false)
    | _ => (1, false)

def sequences : Nat → Bytes → List (Bytes × Bool)
  | 0, _ => []
  | _, [] => []
  | fuel + 1, bytes =>
    let (length, complete) := frontSequence bytes
    (bytes.take length, complete) :: sequences fuel (bytes.drop length)

variable (bytes : Bytes)

/-- `str::from_utf8` succeeds. -/
def utf8Valid : Bool :=
  (sequences bytes.length bytes).all fun sequence => sequence.2

/-- `String::from_utf8_lossy`: each broken sequence becomes the replacement character. -/
def fromUtf8Lossy : Bytes :=
  (sequences bytes.length bytes).flatMap fun sequence =>
    if sequence.2 then sequence.1 else [0xEF, 0xBF, 0xBD]

def isWhitespace (sequence : Bytes) : Bool :=
  match sequence with
  | [byte] => decide (9 ≤ byte ∧ byte ≤ 13) || byte == 32
  | [0xC2, byte] => byte == 0x85 || byte == 0xA0
  | [0xE1, 0x9A, 0x80] => true
  | [0xE2, 0x80, byte] => decide (0x80 ≤ byte ∧ byte ≤ 0x8A) || byte == 0xA8 || byte == 0xA9 ||
      byte == 0xAF
  | [0xE2, 0x81, 0x9F] => true
  | [0xE3, 0x80, 0x80] => true
  | _ => false

theorem isWhitespace_single (byte : UInt8) :
    isWhitespace [byte] = (decide (9 ≤ byte ∧ byte ≤ 13) || byte == 32) := rfl

/-- `str::trim` on a valid string. -/
def trim : Bytes :=
  let characters := (sequences bytes.length bytes).map Prod.fst
  let front := characters.dropWhile isWhitespace
  (front.reverse.dropWhile isWhitespace).reverse.flatten

def digitsValue (digits : Bytes) : Nat :=
  digits.foldl (fun value digit => value * 10 + (digit.toNat - 48)) 0

/-- An integer within the range of `i64`, or nothing. -/
def asInt64 (value : Int) : Option Int :=
  if -2 ^ 63 ≤ value ∧ value < 2 ^ 63 then some value else none

def parseDigits (digits : Bytes) : Option Nat :=
  if digits ≠ [] ∧ digits.all isAsciiDigit then some (digitsValue digits) else none

/-- `str::parse::<i64>`. -/
def parseInt64 (text : Bytes) : Option Int :=
  match text with
  | 45 :: digits => (parseDigits digits).bind fun magnitude => asInt64 (-(magnitude : Int))
  | 43 :: digits => (parseDigits digits).bind fun magnitude => asInt64 magnitude
  | digits => (parseDigits digits).bind fun magnitude => asInt64 magnitude

def parseStoredInteger : Option Int :=
  if utf8Valid bytes then parseInt64 (trim bytes) else none

example : parseStoredInteger (bytesOf " -42\n") = some (-42) := by decide

end Wedb
