/-
The replication side of the server that a connection can reach: the history, the backlog ring, the
decision between a partial and a full resynchronisation, and the parser of a replica's commands.
-/

import Wedb.RespWrite
import Wedb.Utf8

namespace Wedb.Repl

open Resp

inductive NodeRole
  | primary
  | replica
  deriving DecidableEq

def NodeRole.debugText : NodeRole → String
  | .primary => "Primary"
  | .replica => "Replica"

structure ReplId where
  bytes : Bytes
  length_bytes : bytes.length = 40
  deriving DecidableEq

def ReplId.empty : ReplId := ⟨.replicate 40 48, List.length_replicate⟩

def ReplId.questionMark : ReplId := ⟨.replicate 40 63, List.length_replicate⟩

def ReplId.isQuestionMark (replid : ReplId) : Bool := replid.bytes.head? == some 63

structure ReplicationHistory where
  primaryReplid : ReplId
  primaryReplid2 : ReplId
  replicationOffset : Nat
  replicationOffset2 : Nat

/-- `ReplicationBacklog`: a ring whose capacity is the length of its buffer. -/
structure ReplicationBacklog where
  buf : Bytes
  writeIdx : Nat
  histLen : Nat
  masterReplOffset : Nat

/-- The fields of `ReplicationManager` that a negotiation reads. -/
structure ReplicationManager where
  role : NodeRole
  history : ReplicationHistory
  backlog : ReplicationBacklog

inductive ReplError
  | invalidReplId (text : Bytes)
  | notPrimary (role : NodeRole)
  | protocol (text : Bytes)
  deriving DecidableEq

def ReplError.display : ReplError → Bytes
  | .invalidReplId text => bytesOf "无效的复制编号: " ++ text
  | .notPrimary role => bytesOf "当前节点非主节点: 角色为 " ++ bytesOf role.debugText
  | .protocol text => bytesOf "复制协议错误: " ++ text

def charText (byte : UInt8) : Bytes :=
  if byte < 128 then [byte] else [(192 : UInt8) ||| (byte >>> 6), (128 : UInt8) ||| (byte &&& 63)]

def isAsciiHexdigit (byte : UInt8) : Bool :=
  isAsciiDigit byte || decide (65 ≤ byte ∧ byte ≤ 70) || decide (97 ≤ byte ∧ byte ≤ 102)

def ReplId.fromBytes (slice : Bytes) : Except ReplError ReplId :=
  if slice = bytesOf "?" ∨ (slice.length = 40 ∧ slice.all (· == 63)) then .ok .questionMark
  else if sized : slice.length = 40 then
    match slice.find? fun byte => !isAsciiHexdigit byte with
    | some byte => .error (.invalidReplId
        (bytesOf "字符 '" ++ charText byte ++ bytesOf "' 非合法十六进制字符"))
    | none => .ok ⟨slice, sized⟩
  else .error (.invalidReplId
    (bytesOf "长度必须为 40 字节，实际为 " ++ formatNat slice.length))

inductive SyncDecision
  | partialResync (replid : ReplId) (startOffset : Nat)
  | fullResync (replid : ReplId) (snapshotOffset : Nat)

def decideSync (history : ReplicationHistory) (walBegin walTail : Nat) (requested : ReplId)
    (requestedOffset : Int) : SyncDecision :=
  if requested.isQuestionMark = true ∨ requestedOffset < 0 then
    .fullResync history.primaryReplid walTail
  else
    let offset := requestedOffset.toNat
    if offset < walBegin ∨ walTail < offset then .fullResync history.primaryReplid walTail
    else if requested = history.primaryReplid ∨
        (history.primaryReplid2 ≠ .empty ∧ requested = history.primaryReplid2 ∧
          offset ≤ history.replicationOffset2) then
      .partialResync history.primaryReplid offset
    else .fullResync history.primaryReplid walTail

def evaluatePsync (manager : ReplicationManager) (walBegin walTail : Nat) (requested : ReplId)
    (requestedOffset : Int) : Except ReplError SyncDecision :=
  if manager.role = .primary then
    .ok (decideSync manager.history walBegin walTail requested requestedOffset)
  else .error (.notPrimary manager.role)

def handlePsync (manager : ReplicationManager) (requested : Bytes) (requestedOffset : Int)
    (walBegin walTail : Nat) : Except ReplError SyncDecision :=
  match ReplId.fromBytes requested with
  | .error error => .error error
  | .ok replid => evaluatePsync manager walBegin walTail replid requestedOffset

namespace ReplicationBacklog

variable (backlog : ReplicationBacklog)

def firstByteOffset : Nat :=
  backlog.masterReplOffset - backlog.histLen

def isOffsetInRange (offset : Nat) : Bool :=
  decide (backlog.histLen ≠ 0 ∧ backlog.firstByteOffset ≤ offset ∧
    offset ≤ backlog.masterReplOffset)

def slices (startOffset maxBytes : Nat) : Bytes × Bytes :=
  if maxBytes = 0 ∨ backlog.isOffsetInRange startOffset = false then ([], [])
  else
    let backDist := backlog.masterReplOffset - startOffset
    let toRead := min maxBytes backDist
    if toRead = 0 then ([], [])
    else
      let capacity := backlog.buf.length
      let ringStart := (backlog.writeIdx + capacity - backDist) % capacity
      if toRead ≤ capacity - ringStart then ((backlog.buf.drop ringStart).take toRead, [])
      else (backlog.buf.drop ringStart, backlog.buf.take (toRead - (capacity - ringStart)))

end ReplicationBacklog

def parseU64Bytes (bytes : Bytes) : Option Nat :=
  (parseDigits bytes).bind fun number => if number < 2 ^ 64 then some number else none

def parseI64Bytes (bytes : Bytes) : Option Int := parseInt64 bytes

def parseU16Bytes (bytes : Bytes) : Option Nat :=
  (parseU64Bytes bytes).bind fun number => if number < 2 ^ 16 then some number else none

def findLineEnd : Bytes → Option Nat
  | 13 :: 10 :: _ => some 0
  | [] => none
  | _ :: rest => (findLineEnd rest).map (· + 1)

inductive ReplConfSubCmd
  | listeningPort (port : Nat)
  | ipAddress (address : Bytes)
  | capa (capabilities : List Bytes)
  | ack (offset : Nat)
  | getAck
  | other (name : Bytes) (args : List Bytes)
  deriving DecidableEq

inductive ReplicaCommand
  | ping
  | auth (password : Bytes)
  | replConf (subcommand : ReplConfSubCmd)
  | psync (replid : ReplId) (offset : Int)
  deriving DecidableEq

def protocolError {α : Type} (text : String) : Except ReplError α :=
  .error (.protocol (bytesOf text))

def textArgument (argument : Bytes) (text : String) : Except ReplError Bytes :=
  if utf8Valid argument then .ok argument else protocolError text

def readCapabilities : List Bytes → Except ReplError (List Bytes)
  | word :: capability :: rest =>
    if eqIgnoreAsciiCase word (bytesOf "capa") then do
      let capability ← textArgument capability "非法 capa UTF-8"
      let others ← readCapabilities rest
      return capability :: others
    else readCapabilities (capability :: rest)
  | _ => .ok []

def toAsciiLowercase (byte : UInt8) : UInt8 :=
  if 65 ≤ byte ∧ byte ≤ 90 then byte + 32 else byte

variable (args : List Bytes)

def readReplConf : Except ReplError ReplConfSubCmd :=
  match args with
  | [] => protocolError "REPLCONF 缺少子命令"
  | name :: rest =>
    if eqIgnoreAsciiCase name (bytesOf "listening-port") then
      match rest with
      | [] => protocolError "listening-port 缺少端口参数"
      | port :: _ =>
        match parseU16Bytes port with
        | none => .error (.protocol (bytesOf "非法端口: " ++ fromUtf8Lossy port))
        | some port => .ok (.listeningPort port)
    else if eqIgnoreAsciiCase name (bytesOf "ip-address") then
      match rest with
      | [] => protocolError "ip-address 缺少 IP 参数"
      | address :: _ => .ipAddress <$> textArgument address "非法 IP UTF-8"
    else if eqIgnoreAsciiCase name (bytesOf "capa") then .capa <$> readCapabilities args
    else if eqIgnoreAsciiCase name (bytesOf "ack") then
      match rest with
      | [] => protocolError "ACK 缺少位点参数"
      | offset :: _ =>
        match parseU64Bytes offset with
        | none => .error (.protocol (bytesOf "非法位点: " ++ fromUtf8Lossy offset))
        | some offset => .ok (.ack offset)
    else if eqIgnoreAsciiCase name (bytesOf "getack") then .ok .getAck
    else do
      let name ← textArgument name "非法子命令名 UTF-8"
      let args ← rest.mapM fun argument => textArgument argument "非法参数 UTF-8"
      return .other (name.map toAsciiLowercase) args

def readPsync : Except ReplError ReplicaCommand :=
  match args with
  | replid :: offset :: _ => do
    let replid ← if replid = bytesOf "?" ∨ replid.all (· == 63) then .ok .questionMark
      else ReplId.fromBytes replid
    match parseI64Bytes offset with
    | none => .error (.protocol (bytesOf "非法 PSYNC offset: " ++ fromUtf8Lossy offset))
    | some offset => return .psync replid offset
  | _ => protocolError "PSYNC 缺少 replid 或 offset 参数"

def readReplicaCommand : Except ReplError ReplicaCommand :=
  match args with
  | [] => protocolError "空命令参数数组"
  | name :: rest =>
    if eqIgnoreAsciiCase name (bytesOf "PING") then .ok .ping
    else if eqIgnoreAsciiCase name (bytesOf "AUTH") then
      match rest with
      | [] => protocolError "AUTH 缺少密码参数"
      | password :: _ => .auth <$> textArgument password "AUTH 密码非合法 UTF-8"
    else if eqIgnoreAsciiCase name (bytesOf "REPLCONF") then .replConf <$> readReplConf rest
    else if eqIgnoreAsciiCase name (bytesOf "PSYNC") then readPsync rest
    else .error (.protocol (bytesOf "非预期的复制命令: " ++
      if utf8Valid name then name else bytesOf "<invalid utf8>"))

def readBulkStrings (cursor : Nat) : Nat → Bytes → Except ReplError (Option (List Bytes × Nat))
  | 0, _ => .ok (some ([], cursor))
  | count + 1, rest =>
    match rest with
    | [] => .ok none
    | sigil :: _ =>
      if sigil ≠ 36 then
        .error (.protocol (bytesOf "非预期的字符串起始符: " ++ charText sigil))
      else
        match findLineEnd rest with
        | none => .ok none
        | some lineEnd =>
          match parseU64Bytes ((rest.take lineEnd).drop 1) with
          | none => protocolError "非法的字符串长度"
          | some length =>
            let data := rest.drop (lineEnd + 2)
            if 2 ^ 64 ≤ cursor + lineEnd + 2 + length then protocolError "非法的字符串长度"
            else if data.length < length + 2 then .ok none
            else if (data.drop length).take 2 ≠ crlf then
              protocolError "非法的 BulkString 结尾定界符，期望 CRLF"
            else do
              match ← readBulkStrings (cursor + lineEnd + 2 + length + 2) count
                  (data.drop (length + 2)) with
              | none => return none
              | some (others, finish) => return some (data.take length :: others, finish)

def splitWhitespace (text : Bytes) : List Bytes :=
  (((sequences text.length text).map Prod.fst).splitBy fun left right =>
    isWhitespace left == isWhitespace right).filterMap fun word =>
      if word.any isWhitespace then none else some word.flatten

def readInlineReplicaCommand (first : UInt8) (line : Bytes) : Except ReplError ReplicaCommand :=
  if utf8Valid line = false then protocolError "非法的内联命令 UTF-8"
  else
    match splitWhitespace (trim line) with
    | [] => protocolError "空内联命令"
    | word :: rest =>
      if eqIgnoreAsciiCase word (bytesOf "PING") then .ok .ping
      else if eqIgnoreAsciiCase word (bytesOf "AUTH") then
        match rest with
        | [] => protocolError "内联 AUTH 缺少密码参数"
        | password :: _ => .ok (.auth password)
      else .error (.protocol (bytesOf "非预期的命令起始符: " ++ charText first))

def parseReplicaCommand (input : Bytes) : Except ReplError (Option (ReplicaCommand × Nat)) :=
  match input with
  | [] => .ok none
  | first :: _ =>
    match findLineEnd input with
    | none => .ok none
    | some lineEnd =>
      if first ≠ 42 then
        (readInlineReplicaCommand first (input.take lineEnd)).map fun command =>
          some (command, lineEnd + 2)
      else
        match parseU64Bytes ((input.take lineEnd).drop 1) with
        | none => protocolError "非法的数组长度"
        | some count =>
          if 64 < count then
            .error (.protocol (bytesOf "复制命令参数数量超出上限: " ++ formatNat count ++ bytesOf " > 64"))
          else do
            match ← readBulkStrings (lineEnd + 2) count (input.drop (lineEnd + 2)) with
            | none => return none
            | some (args, finish) =>
              let command ← readReplicaCommand args
              return some (command, finish)

example : parseReplicaCommand (bytesOf "*3\r\n$5\r\npsync\r\n$1\r\n?\r\n$2\r\n-1\r\nrest") =
    .ok (some (.psync .questionMark (-1), 30)) := by decide

end Wedb.Repl
