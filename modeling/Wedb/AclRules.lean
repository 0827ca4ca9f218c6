/-
The language of access rules: the names of commands in rules, the operations that rules stand for,
and the line that describes a user.
-/

import Wedb.CommandSet
import Wedb.Fallible

namespace Wedb.Acl

open Resp

/-- `Error`, with its texts. A broken hash gives the byte that is no digit and its position. -/
inductive AclError
  | userNotFound (name : Text)
  | userAlreadyExists (name : Text)
  | defaultUserProtected
  | invalidRule (reason : Text)
  | invalidNamespace (value : Text)
  | invalidUsername (name : Text)
  | namespaceDenied
  | missingUserKeyword
  | unknownOperation (op : Text)
  | categoryDoesNotExist (category : Text)
  | commandDoesNotExist (name : Text)
  | invalidPasswordHash (byte : UInt8) (position : Nat)
  | invalidPasswordHashLength (length : Nat)
  | invalidCustomCommandName (name : Text)
  deriving DecidableEq

/-- `AclPassword`: the thirty-two bytes of a digest. -/
structure AclPassword where
  hash : List UInt8
  length_hash : hash.length = 32
  deriving DecidableEq

/-- The digit of a number below sixteen, as the library `hex` writes it. -/
def hexDigit (value : UInt8) : Char :=
  if value < 10 then Char.ofNat (48 + value.toNat) else Char.ofNat (87 + value.toNat)

def AclPassword.toHex (password : AclPassword) : Text :=
  password.hash.flatMap fun (byte : UInt8) => [hexDigit (byte >>> 4), hexDigit (byte &&& 15)]

def hexValue (byte : UInt8) (position : Nat) : Except AclError UInt8 :=
  if 48 ≤ byte ∧ byte ≤ 57 then .ok (byte - 48)
  else if 97 ≤ byte ∧ byte ≤ 102 then .ok (byte - 87)
  else if 65 ≤ byte ∧ byte ≤ 70 then .ok (byte - 55)
  else .error (.invalidPasswordHash byte position)

/-- `hex::decode_to_slice`. -/
def decodeHex (position : Nat) : Bytes → Except AclError (List UInt8)
  | high :: low :: rest => do
    let highValue ← hexValue high position
    let lowValue ← hexValue low (position + 1)
    let others ← decodeHex (position + 2) rest
    pure ((highValue <<< 4 ||| lowValue) :: others)
  | _ => pure []

theorem length_decodeHex {position : Nat} {digits : Bytes} {decoded : List UInt8}
    (success : decodeHex position digits = .ok decoded) : decoded.length = digits.length / 2 := by
  match digits with
  | [] | [_] =>
    cases success
    simp
  | high :: low :: rest =>
    obtain ⟨highValue, -, success⟩ := except_bind_ok success
    obtain ⟨lowValue, -, success⟩ := except_bind_ok success
    obtain ⟨others, decodedRest, success⟩ := except_bind_ok success
    cases success
    have shorter := length_decodeHex decodedRest
    simp only [List.length_cons, shorter]
    omega

def AclPassword.fromHashHex (hex : Text) : Except AclError AclPassword :=
  if sized : hex.bytes.length = 64 then
    match decoded : decodeHex 0 hex.bytes with
    | .ok hash => .ok ⟨hash, by rw [length_decodeHex decoded, sized]⟩
    | .error failure => .error failure
  else .error (.invalidPasswordHashLength hex.bytes.length)

structure KeyPattern where
  pattern : Text
  read : Bool
  write : Bool
  deriving DecidableEq

def KeyPattern.all : KeyPattern where
  pattern := text "*"
  read := true
  write := true

structure User where
  name : Text
  namespaceId : Option UInt64
  enabled : Bool
  nopass : Bool
  passwords : List AclPassword
  commands : CommandPermissionSet
  allkeys : Bool
  keyPatterns : List KeyPattern
  allchannels : Bool
  channelPatterns : List Text
  deriving DecidableEq

def defaultUserName : Text := text "default"

namespace User

def new (name : Text) : User where
  name := name
  namespaceId := none
  enabled := false
  nopass := false
  passwords := []
  commands := .new
  allkeys := false
  keyPatterns := []
  allchannels := false
  channelPatterns := []

variable (user : User)

def setAllKeys : User := { user with allkeys := true, keyPatterns := [KeyPattern.all] }

def resetKeys : User := { user with allkeys := false, keyPatterns := [] }

def joinKeyPattern (pattern : Text) (read write : Bool) : List KeyPattern → List KeyPattern
  | [] => []
  | entry :: rest =>
    if entry.pattern = pattern then
      { entry with read := entry.read || read, write := entry.write || write } :: rest
    else entry :: joinKeyPattern pattern read write rest

def addKeyPattern (pattern : Text) (read write : Bool) : User :=
  if pattern = text "*" ∧ read ∧ write then user.setAllKeys
  else if user.allkeys then user
  else
    match user.keyPatterns.find? (·.pattern = pattern) with
    | some existing =>
      let joined := joinKeyPattern pattern read write user.keyPatterns
      if pattern = text "*" ∧ (existing.read || read) ∧ (existing.write || write) then
        { user with keyPatterns := joined }.setAllKeys
      else { user with keyPatterns := joined }
    | none => { user with keyPatterns := user.keyPatterns ++ [⟨pattern, read, write⟩] }

def setAllChannels : User := { user with allchannels := true, channelPatterns := [text "*"] }

def resetChannels : User := { user with allchannels := false, channelPatterns := [] }

def addChannelPattern (pattern : Text) : User :=
  if pattern = text "*" then user.setAllChannels
  else if user.allchannels then user
  else if pattern ∈ user.channelPatterns then user
  else { user with channelPatterns := user.channelPatterns ++ [pattern] }

def addPasswordHash (password : AclPassword) : User :=
  if password ∈ user.passwords then user
  else { user with passwords := user.passwords ++ [password] }

def removePasswordHash (password : AclPassword) : User :=
  { user with passwords := user.passwords.filter (· ≠ password) }

def clearPasswords : User := { user with passwords := [] }

def reset : User :=
  { user with
    passwords := []
    nopass := false
    enabled := false
    commands := .new
    allkeys := false
    keyPatterns := []
    allchannels := false
    channelPatterns := [] }

/-- `User::default_user`, with the digest of its password where it has one. -/
def defaultUser (password : Option AclPassword) : User :=
  let base := { new defaultUserName with enabled := true }.setAllKeys.setAllChannels
  match password with
  | none => { base with commands := .all, nopass := true }
  | some password => { base with commands := .all, nopass := false }.addPasswordHash password

/-- `User::authenticate`, given the digest of the password. -/
def authenticate (target : AclPassword) : Bool :=
  user.enabled && (user.nopass || user.passwords.any (· = target))

def canExecute (cmd : RespCommand) : Bool :=
  user.enabled && (cmd.isNoAuth || user.commands.allow cmd)

def canExecuteCustom (genericCmd : RespCommand) (customName : Text) : Bool :=
  user.enabled && user.commands.allowCustom genericCmd customName

end User

open Resp

def isCustomNameCharacter (character : Char) : Bool :=
  character.isAlphanum || character == '.' || character == '_' || character == '-' ||
    character == '|'

def isValidCustomCommandName : Text → Bool
  | [] => false
  | first :: rest => first.isAlphanum && rest.all isCustomNameCharacter

def validCmd (cmd : RespCommand) : Option RespCommand :=
  if cmd ≠ .none ∧ cmd ≠ .invalid ∧ cmd.normalizeForAcls = cmd then some cmd else none

def lookupForAcls (name : Bytes) : Option RespCommand :=
  (RespCommand.lookup name).bind fun found => validCmd found.1

def splitOnce (separator : Char) (name : Text) : Option (Text × Text) :=
  match name.dropWhile (· ≠ separator) with
  | [] => none
  | _ :: rest => some (name.takeWhile (· ≠ separator), rest)

variable (name : Text)

/-- The subcommand a name with a bar stands for. -/
def lookupBarred : Option RespCommand :=
  (splitOnce '|' name).bind fun (parent, sub) =>
    ((RespCommand.lookup parent.bytes).bind fun found =>
        (RespCommand.lookupSubcommand found.1 sub.bytes).bind validCmd) <|>
      (if name.bytes.length ≤ 24 then
        lookupForAcls (name.bytes.map fun byte => if byte = 124 then 95 else byte)
      else none)

def lookupDotted : Option RespCommand :=
  if 46 ∈ name.bytes ∧ name.bytes.length ≤ 24 then
    lookupForAcls (name.bytes.filter (· ≠ 46))
  else none

/-- The two old names. -/
def lookupAlias : Option RespCommand :=
  if name.eqIgnoreAsciiCase (text "SLAVEOF") then some .secondaryof
  else if name.eqIgnoreAsciiCase (text "CLUSTER|SET-CONFIG-EPOCH") then
    some .clusterSetconfigepoch
  else none

/-- `parse_command_name`, which fails with `CommandDoesNotExist` where it finds nothing. -/
def parseCommandName : Option RespCommand :=
  if name = [] then none
  else lookupBarred name <|> lookupForAcls name.bytes <|> lookupDotted name <|> lookupAlias name

namespace CommandPermissionSet

variable (set : CommandPermissionSet)

def addCommand (cmd : RespCommand) : CommandPermissionSet :=
  let norm := cmd.normalizeForAcls
  if set.allow norm && norm.expandForAcls.all set.allow then set
  else if commandName norm = [] then set.grant norm
  else (set.grant norm).appendOp '+' (commandName norm)

def removeCommand (cmd : RespCommand) : CommandPermissionSet :=
  let norm := cmd.normalizeForAcls
  if cmd.isNoAuth then set
  else if !(set.allow norm || norm.expandForAcls.any set.allow) then set
  else if (set.clear norm).isEmpty then (set.clear norm).setDescription []
  else (set.clear norm).appendOp '-' (commandName norm)

def addCategory (category : Text) : Except AclError CommandPermissionSet :=
  match lookupCategory category with
  | none => .error (.categoryDoesNotExist category)
  | some (name, bits) =>
    if bits = catAll then .ok (set.setAll.setDescription (text "+@all"))
    else if set.isCategoryAllAllowed bits then .ok set
    else .ok ((set.orBits bits).appendCategoryOp '+' name)

def removeCategory (category : Text) : Except AclError CommandPermissionSet :=
  match lookupCategory category with
  | none => .error (.categoryDoesNotExist category)
  | some (name, bits) =>
    if bits = catAll then .ok (set.clearAll.setDescription [])
    else if !set.isCategoryAnyAllowed bits then .ok set
    else if (set.andnotBitsProtectNoauth bits).isEmpty then
      .ok ((set.andnotBitsProtectNoauth bits).setDescription [])
    else .ok ((set.andnotBitsProtectNoauth bits).appendCategoryOp '-' name)

/-- `User::add_custom_command`. -/
def allowCustomCommand (name : Text) : Except AclError CommandPermissionSet :=
  let norm := name.toAsciiUppercase
  if !isValidCustomCommandName name then .error (.invalidCustomCommandName name)
  else if set.isAll || (norm ∈ set.customAllowed && norm ∉ set.customDenied) then .ok set
  else .ok ((set.addCustomCommand name).appendOp '+' name.toAsciiLowercase)

/-- `User::remove_custom_command`. -/
def denyCustomCommand (name : Text) : Except AclError CommandPermissionSet :=
  let norm := name.toAsciiUppercase
  if !isValidCustomCommandName name then .error (.invalidCustomCommandName name)
  else if !set.isAll && norm ∈ set.customDenied && norm ∉ set.customAllowed then .ok set
  else .ok ((set.removeCustomCommand name).appendOp '-' name.toAsciiLowercase)

def applyCommandOp (name : Text) (grant : Bool) : Except AclError CommandPermissionSet :=
  match parseCommandName name with
  | some cmd => .ok (if grant then set.addCommand cmd else set.removeCommand cmd)
  | none =>
    if isValidCustomCommandName name then
      if grant then set.allowCustomCommand name else set.denyCustomCommand name
    else .error (.commandDoesNotExist name)

end CommandPermissionSet

inductive AclOp
  | nothing
  | enable (on : Bool)
  | nopass
  | resetpass
  | reset
  | addPassword (cleartext : Text)
  | removePassword (cleartext : Text)
  | addHash (hex : Text)
  | removeHash (hex : Text)
  | category (grant : Bool) (name : Text)
  | command (grant : Bool) (name : Text)
  | allKeys
  | resetKeys
  | keyPattern (pattern : Text) (read write : Bool)
  | allChannels
  | resetChannels
  | channelPattern (pattern : Text)
  | unknown (op : Text)

def AclOp.ofWord (op : Text) : AclOp :=
  if op.eqIgnoreAsciiCase (text "on") then .enable true
  else if op.eqIgnoreAsciiCase (text "off") then .enable false
  else if op.eqIgnoreAsciiCase (text "nopass") then .nopass
  else if op.eqIgnoreAsciiCase (text "resetpass") then .resetpass
  else if op.eqIgnoreAsciiCase (text "reset") then .reset
  else if op.eqIgnoreAsciiCase (text "allcommands") then .category true (text "all")
  else if op.eqIgnoreAsciiCase (text "nocommands") then .category false (text "all")
  else if op.eqIgnoreAsciiCase (text "allkeys") then .allKeys
  else if op.eqIgnoreAsciiCase (text "resetkeys") then .resetKeys
  else if op.eqIgnoreAsciiCase (text "allchannels") then .allChannels
  else if op.eqIgnoreAsciiCase (text "resetchannels") then .resetChannels
  else .unknown op

/-- The tests of `AclParser::apply_op` on a trimmed rule; no word starts with a sign. -/
def AclOp.ofTrimmed : Text → AclOp
  | [] => .nothing
  | '>' :: cleartext => .addPassword cleartext
  | '<' :: cleartext => .removePassword cleartext
  | '#' :: hex => .addHash hex
  | '!' :: hex => .removeHash hex
  | '+' :: '@' :: name => .category true name
  | '-' :: '@' :: name => .category false name
  | '+' :: name => .command true name
  | '-' :: name => .command false name
  | ['~', '*'] => .allKeys
  | '%' :: 'R' :: 'W' :: '~' :: pattern => .keyPattern pattern true true
  | '%' :: 'R' :: '~' :: pattern => .keyPattern pattern true false
  | '%' :: 'W' :: '~' :: pattern => .keyPattern pattern false true
  | '~' :: pattern => .keyPattern pattern true true
  | ['&', '*'] => .allChannels
  | '&' :: pattern => .channelPattern pattern
  | op => .ofWord op

def AclOp.ofRule (rule : Text) : AclOp := .ofTrimmed rule.trim

abbrev Digest := Bytes → AclPassword

def zeroDigest : Digest := fun _ => ⟨List.replicate 32 0, rfl⟩

variable (sha256 : Digest)

/-- What `AclParser::apply_op` does for an operation. -/
def AclOp.apply (user : User) : AclOp → Except AclError User
  | .nothing => .ok user
  | .enable on => .ok { user with enabled := on }
  | .nopass => .ok { user.clearPasswords with nopass := true }
  | .resetpass => .ok { user.clearPasswords with nopass := false }
  | .reset => .ok user.reset
  | .addPassword cleartext =>
    .ok ({ user with nopass := false }.addPasswordHash (sha256 cleartext.bytes))
  | .removePassword cleartext => .ok (user.removePasswordHash (sha256 cleartext.bytes))
  | .addHash hex => do
    let password ← AclPassword.fromHashHex hex
    pure ({ user with nopass := false }.addPasswordHash password)
  | .removeHash hex => do
    let password ← AclPassword.fromHashHex hex
    pure (user.removePasswordHash password)
  | .category grant name => do
    let commands ← if grant then user.commands.addCategory name
      else user.commands.removeCategory name
    pure { user with commands := commands }
  | .command grant name => do
    let commands ← user.commands.applyCommandOp name grant
    pure { user with commands := commands }
  | .allKeys => .ok user.setAllKeys
  | .resetKeys => .ok user.resetKeys
  | .keyPattern pattern read write => .ok (user.addKeyPattern pattern read write)
  | .allChannels => .ok user.setAllChannels
  | .resetChannels => .ok user.resetChannels
  | .channelPattern pattern => .ok (user.addChannelPattern pattern)
  | .unknown op => .error (.unknownOperation op)

def applyOp (user : User) (rule : Text) : Except AclError User :=
  (AclOp.ofRule rule).apply sha256 user

def maxTenantNamespace : UInt64 := 18446744073709550591

def parseStrictU64 (value : Text) : Option UInt64 :=
  if value ≠ [] ∧ value.all Char.isDigit ∧ Nat.ofDigitChars 10 value 0 < 2 ^ 64 then
    some (UInt64.ofNat (Nat.ofDigitChars 10 value 0))
  else none

def parseNs (value : Text) : Except AclError (Option UInt64) :=
  if value.eqIgnoreAsciiCase (text "none") || value.eqIgnoreAsciiCase (text "all") then .ok none
  else
    match parseStrictU64 value with
    | some number =>
      if 1 ≤ number ∧ number ≤ maxTenantNamespace then .ok (some number)
      else .error (.invalidNamespace value)
    | none => .error (.invalidNamespace value)

theorem tenant_of_parseNs {value : Text} {bound : Option UInt64}
    (parsed : parseNs value = .ok bound) :
    ∀ number, bound = some number → 1 ≤ number ∧ number ≤ maxTenantNamespace := by
  rintro number rfl
  unfold parseNs at parsed
  split at parsed
  case isTrue => cases parsed
  case isFalse =>
    split at parsed
    case h_1 =>
      split at parsed
      case isTrue range =>
        cases parsed
        exact range
      case isFalse => cases parsed
    case h_2 => cases parsed

def validateUsername : Except AclError Unit :=
  if name = [] ∨ '#' ∈ name then .error (.invalidUsername name) else .ok ()

def nsMissingValue : AclError := .invalidRule (text "ns rule requires a value")

def errTooShort : AclError := .invalidRule (text "rule line too short")

def applyRules (sha256 : Digest) (user : User) : List Text → Except AclError User
  | [] => .ok user
  | rule :: rest =>
    if rule.eqIgnoreAsciiCase (text "ns") then
      match rest with
      | [] => .error nsMissingValue
      | value :: rest => do
        let bound ← parseNs value
        applyRules sha256 { user with namespaceId := bound } rest
    else do
      let changed ← applyOp sha256 user rule
      applyRules sha256 changed rest

def parseRuleLine (line : Text) : Except AclError User :=
  match line.words with
  | [] => .error errTooShort
  | keyword :: rest =>
    if !keyword.eqIgnoreAsciiCase (text "user") then .error .missingUserKeyword
    else
      match rest with
      | [] => .error errTooShort
      | username :: ops => do
        validateUsername username
        if ops = [] then throw errTooShort
        applyRules sha256 (User.new username) ops

def KeyPattern.rule (entry : KeyPattern) : Text :=
  (if entry.read && entry.write then text "~"
  else if entry.read then text "%R~"
  else if entry.write then text "%W~"
  else []) ++ entry.pattern

/-- `User::for_each_rule`: the rules in the order they are reported. -/
def User.rules (user : User) : List Text :=
  [if user.enabled then text "on" else text "off"] ++
    (if user.nopass then [text "nopass"] else []) ++
    (match user.namespaceId with
      | some number => [text "ns " ++ Nat.toDigits 10 number.toNat]
      | none => []) ++
    user.passwords.map (fun password => '#' :: password.toHex) ++
    (if user.allkeys then [text "~*"] else user.keyPatterns.map KeyPattern.rule) ++
    (if user.allchannels then [text "&*"] else user.channelPatterns.map ('&' :: ·)) ++
    user.commands.description.words

def User.describe (user : User) : Text :=
  text "user " ++ user.name ++ user.rules.flatMap (' ' :: ·)

end Wedb.Acl
