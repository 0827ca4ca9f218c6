/-
The reply writers of the send buffer. A reply is the byte string the server appends to the
connection.
-/

import Wedb.Bytes

namespace Wedb.Resp

def crlf : Bytes := [13, 10]

def prependDigits : Nat → Nat → Bytes → Bytes
  | 0, _, rest => rest
  | fuel + 1, number, rest =>
    let digits := UInt8.ofNat (48 + number % 10) :: rest
    if number / 10 = 0 then digits else prependDigits fuel (number / 10) digits

def formatNat (number : Nat) : Bytes := prependDigits (number + 1) number []

/-- The decimal text of an integer, as `itoa` writes it. -/
def formatInt (value : Int) : Bytes :=
  if value < 0 then 45 :: formatNat value.natAbs else formatNat value.natAbs

def writeOk : Bytes := bytesOf "+OK\r\n"

def writePong : Bytes := bytesOf "+PONG\r\n"

def writeQueued : Bytes := bytesOf "+QUEUED\r\n"

def writeNull : Bytes := bytesOf "$-1\r\n"

def writeError (text : Bytes) : Bytes := 45 :: (text ++ crlf)

def writeInteger (value : Int) : Bytes := 58 :: (formatInt value ++ crlf)

def writeBulkString (payload : Bytes) : Bytes :=
  36 :: (formatNat payload.length ++ crlf ++ payload ++ crlf)

def writeArrayHeader (length : Nat) : Bytes := 42 :: (formatNat length ++ crlf)

def wrongType : Bytes :=
  bytesOf "WRONGTYPE Operation against a key holding the wrong kind of value"

/-- `consts::err::SYNTAX`. -/
def syntaxError : Bytes := bytesOf "ERR syntax error"

def wrongNumArgs : Bytes := bytesOf "ERR wrong number of arguments"

def intOutOfRange : Bytes := bytesOf "ERR value is not an integer or out of range"

def timeoutNotFloat : Bytes := bytesOf "ERR timeout is not a float or out of range"

def timeoutNegative : Bytes := bytesOf "ERR timeout is negative"

def unblockedClient : Bytes := bytesOf "UNBLOCKED client unblocked via CLIENT UNBLOCK"

def wrongArity (name : String) : Bytes :=
  bytesOf "ERR wrong number of arguments for '" ++ bytesOf name ++ bytesOf "' command"

end Wedb.Resp
