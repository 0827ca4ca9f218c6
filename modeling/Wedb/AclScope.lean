/-
The access control list and the scopes through which sessions use it, each bound to a namespace or
to none. Users are kept under the keys of their namespaces, in a map and in a storage backend.

The backend answers every call. One that fails would let the super administrator see whether a user
of a tenant is in the map already, where a SETUSER has no need to load them.
-/

import Mathlib.Data.List.Lex
import Wedb.NamespaceKey

namespace Wedb.Acl

open Resp

abbrev Entries := List (Bytes × User)

def lookupEntry (entries : Entries) (key : Bytes) : Option User :=
  (entries.find? (·.1 = key)).map (·.2)

def putEntry (entries : Entries) (key : Bytes) (user : User) : Entries :=
  (key, user) :: entries.filter (·.1 ≠ key)

def dropEntry (entries : Entries) (key : Bytes) : Entries := entries.filter (·.1 ≠ key)

def defaultKey : Bytes := userKey none defaultUserName

/-- `AccessControlList`. The default user, who is never removed, is a field of its own. -/
structure AccessControlList where
  defaultUser : User
  users : Entries
  storage : Option Entries

namespace AccessControlList

variable (acl : AccessControlList)

def entries : Entries := (defaultKey, acl.defaultUser) :: acl.users

variable (key : Bytes)

def lookup : Option User :=
  if key = defaultKey then some acl.defaultUser else lookupEntry acl.users key

def write (user : User) : AccessControlList :=
  if key = defaultKey then { acl with defaultUser := user }
  else { acl with users := putEntry acl.users key user }

def remove : AccessControlList := { acl with users := dropEntry acl.users key }

def stored : Option User := acl.storage.bind (lookupEntry · key)

def store (user : User) : AccessControlList :=
  { acl with storage := acl.storage.map (putEntry · key user) }

/-- Take the user under a key out of the storage backend, if there is one. -/
def unstore : AccessControlList :=
  { acl with storage := acl.storage.map (dropEntry · key) }

/-- `AccessControlList::new`, with the digest of the default user's password. -/
def new (password : Option AclPassword) : AccessControlList where
  defaultUser := .defaultUser password
  users := []
  storage := none

def addUserHandle (user : User) : Except AclError Unit × AccessControlList :=
  match validateUsername user.name with
  | .error failure => (.error failure, acl)
  | .ok _ =>
    let key := userKey user.namespaceId user.name
    if (acl.lookup key).isSome then (.error (.userAlreadyExists user.name), acl)
    else (.ok (), acl.write key user)

end AccessControlList

/-- `scan_ns_bind`: the last value of an `ns` rule. -/
def scanNsBind (bind : Option Text) : List Text → Except AclError (Option Text)
  | [] => .ok bind
  | rule :: rest =>
    if rule.eqIgnoreAsciiCase (text "ns") then
      match rest with
      | [] => .error nsMissingValue
      | value :: rest => scanNsBind (some value) rest
    else scanNsBind bind rest

def resolveLookupNs (space : Option UInt64) (rules : List Text) :
    Except AclError (Option UInt64) := do
  let bind ← scanNsBind none rules
  let bound ← match bind with
    | none => pure none
    | some raw => (parseNs raw).map some
  match space with
  | some number =>
    if bound.any (· ≠ some number) then throw .namespaceDenied else pure (bound.getD space)
  | none => pure (bound.getD space)

/-- `sort_unstable` on strings. -/
def sortTexts (texts : List Text) : List Text := texts.mergeSort fun left right => left ≤ right

namespace AccessControlList

variable (sha256 : Digest) (acl : AccessControlList) (space : Option UInt64) (name : Text)

def getUser : Option User :=
  if space = none ∧ name = defaultUserName then some acl.defaultUser
  else acl.lookup (userKey space name)

def authenticate (name password : Text) : Option User :=
  match acl.getUser space name with
  | some user => if user.authenticate (sha256 password.bytes) then some user else none
  | none => none

def canExecute (name : Text) (cmd : RespCommand) : Bool :=
  (acl.getUser space name).any (·.canExecute cmd)

def changedUser (lookupNs : Option UInt64) (name : Text) (rules : List Text) :
    Option User → Except AclError User
  | some user => do
    let clone ← applyRules sha256 user rules
    if clone.namespaceId ≠ user.namespaceId then throw .namespaceDenied else pure clone
  | none => do
    let user ← applyRules sha256 (User.new name) rules
    pure { user with namespaceId := lookupNs }

def setUser (rules : List Text) : Except AclError Unit × AccessControlList :=
  match validateUsername name, resolveLookupNs space rules with
  | .error failure, _ => (.error failure, acl)
  | .ok _, .error failure => (.error failure, acl)
  | .ok _, .ok lookupNs =>
    let key := userKey lookupNs name
    match changedUser sha256 lookupNs name rules (acl.lookup key) with
    | .error failure => (.error failure, acl)
    | .ok user => (.ok (), acl.write key user)

def delUser : Except AclError Bool × AccessControlList :=
  if space = none ∧ name = defaultUserName then (.error .defaultUserProtected, acl)
  else (.ok (acl.lookup (userKey space name)).isSome, acl.remove (userKey space name))

def removeUsers (acl : AccessControlList) (space : Option UInt64) :
    List Text → Nat × AccessControlList
  | [] => (0, acl)
  | name :: names =>
    let later := removeUsers (acl.remove (userKey space name)) space names
    (later.1 + (if (acl.lookup (userKey space name)).isSome then 1 else 0), later.2)

def delUsers (names : List Text) : Except AclError Nat × AccessControlList :=
  if space = none ∧ defaultUserName ∈ names then (.error .defaultUserProtected, acl)
  else
    let removed := acl.removeUsers space names
    (.ok removed.1, removed.2)

def userNames : List Text :=
  sortTexts (acl.entries.filterMap fun entry =>
    if matchesNs entry.1 space then (decodeUserKey entry.1).map (·.2) else none)

def listUsers : List Text :=
  sortTexts ((acl.entries.filter fun entry => matchesNs entry.1 space).map (·.2.describe))

/-- `NamespaceScope::load_from_storage_unlocked`. -/
def loadFromStorage : Option User × AccessControlList :=
  let key := userKey space name
  match acl.stored key with
  | none => (none, acl)
  | some user =>
    match acl.lookup key with
    | some present => (some present, acl)
    | none => (some user, acl.write key user)

def getUserAsync : Option User × AccessControlList :=
  match acl.getUser space name with
  | some user => (some user, acl)
  | none => acl.loadFromStorage space name

/-- The user under a key is in the map, if it is anywhere. -/
def preload (lookupNs : Option UInt64) (name : Text) : AccessControlList :=
  if (acl.lookup (userKey lookupNs name)).isNone then (acl.loadFromStorage lookupNs name).2
  else acl

def save (key : Bytes) : AccessControlList :=
  match acl.lookup key with
  | some snapshot => acl.store key snapshot
  | none => acl

def setUserAsync (rules : List Text) : Except AclError Unit × AccessControlList :=
  match resolveLookupNs space rules with
  | .error failure => (.error failure, acl)
  | .ok lookupNs =>
    match (acl.preload lookupNs name).setUser sha256 space name rules with
    | (.error failure, after) => (.error failure, after)
    | (.ok _, after) => (.ok (), after.save (userKey lookupNs name))

def delUserAsync : Except AclError Bool × AccessControlList :=
  match acl.delUser space name with
  | (.error failure, after) => (.error failure, after)
  | (.ok deleted, after) =>
    let key := userKey space name
    (.ok (deleted || (after.stored key).isSome), after.unstore key)

end AccessControlList

inductive ScopeRequest
  | getUser (name : Text)
  | getUserAsync (name : Text)
  | authenticate (name password : Text)
  | canExecute (name : Text) (cmd : RespCommand)
  | setUser (name : Text) (rules : List Text)
  | setUserAsync (name : Text) (rules : List Text)
  | delUser (name : Text)
  | delUserAsync (name : Text)
  | delUsers (names : List Text)
  | userNames
  | listUsers

inductive ScopeAnswer
  | user (found : Option User)
  | allowed (answer : Bool)
  | set (outcome : Except AclError Unit)
  | deleted (outcome : Except AclError Bool)
  | count (outcome : Except AclError Nat)
  | texts (listed : List Text)
  deriving DecidableEq

/-- An operation through the scope of a namespace, or the direct addition of a user. -/
inductive AclOperation
  | ask (space : Option UInt64) (request : ScopeRequest)
  | addUserHandle (user : User)

def ScopeRequest.run (sha256 : Digest) (space : Option UInt64) (request : ScopeRequest)
    (acl : AccessControlList) : ScopeAnswer × AccessControlList :=
  match request with
  | .getUser name => (.user (acl.getUser space name), acl)
  | .getUserAsync name => (acl.getUserAsync space name).map .user id
  | .authenticate name password => (.user (acl.authenticate sha256 space name password), acl)
  | .canExecute name cmd => (.allowed (acl.canExecute space name cmd), acl)
  | .setUser name rules => (acl.setUser sha256 space name rules).map .set id
  | .setUserAsync name rules => (acl.setUserAsync sha256 space name rules).map .set id
  | .delUser name => (acl.delUser space name).map .deleted id
  | .delUserAsync name => (acl.delUserAsync space name).map .deleted id
  | .delUsers names => (acl.delUsers space names).map .count id
  | .userNames => (.texts (acl.userNames space), acl)
  | .listUsers => (.texts (acl.listUsers space), acl)

def AclOperation.run (sha256 : Digest) (op : AclOperation) (acl : AccessControlList) :
    ScopeAnswer × AccessControlList :=
  match op with
  | .ask space request => request.run sha256 space acl
  | .addUserHandle user => (acl.addUserHandle user).map .set id

/-- The namespace a request works on; only the super administrator can choose one, by an `ns` rule.
-/
def ScopeRequest.target (space : Option UInt64) : ScopeRequest → Option UInt64
  | .setUser _ rules | .setUserAsync _ rules =>
    match resolveLookupNs space rules with
    | .ok lookupNs => lookupNs
    | .error _ => space
  | _ => space

end Wedb.Acl
