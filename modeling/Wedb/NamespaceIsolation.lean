/-
The scopes of different namespaces are kept apart. A scope sees the entries under the keys of its
namespace, and a request reads and writes under those of one: its own, or for the super
administrator the one an `ns` rule names.
-/

import Wedb.AclScope
import Wedb.Noninterference

namespace Wedb.Acl

open Resp AccessControlList CommandPermissionSet List

variable (space : Option UInt64)

def ofSpace (entries : Entries) : Entries :=
  entries.filter fun entry => matchesNs entry.1 space

section

variable {space : Option UInt64} {key : Bytes}

theorem lookupEntry_ofSpace (inside : matchesNs key space) (entries : Entries) :
    lookupEntry (ofSpace space entries) key = lookupEntry entries key := by
  unfold lookupEntry ofSpace
  rw [find?_filter]
  congr 2
  funext entry
  by_cases same : entry.1 = key
  · simp [same, inside]
  · simp [same]

theorem ofSpace_dropEntry (entries : Entries) : ofSpace space (dropEntry entries key) =
      if matchesNs key space then dropEntry (ofSpace space entries) key
      else ofSpace space entries := by
  unfold ofSpace dropEntry
  split
  case isTrue => rw [filter_filter, filter_filter]; simp only [Bool.and_comm]
  case isFalse outside =>
    rw [filter_filter]
    refine filter_congr fun entry _ => ?_
    by_cases same : entry.1 = key
    · simp [same, outside]
    · simp [same]

theorem ofSpace_putEntry (entries : Entries) (user : User) :
    ofSpace space (putEntry entries key user) =
      if matchesNs key space then putEntry (ofSpace space entries) key user
      else ofSpace space entries := by
  have dropped := @ofSpace_dropEntry space key entries
  unfold ofSpace dropEntry at dropped
  unfold putEntry ofSpace
  split at dropped
  case isTrue inside =>
    simp only [filter_cons, inside, if_true]
    rw [dropped]
  case isFalse outside =>
    simp only [filter_cons, outside, Bool.false_eq_true, if_false]
    exact dropped

end

@[ext] structure ScopeView where
  default : Option User
  users : Entries
  storage : Option Entries

def scopeView (acl : AccessControlList) : ScopeView where
  default := if space = none then some acl.defaultUser else none
  users := ofSpace space acl.users
  storage := acl.storage.map (ofSpace space)

theorem defaultUser_inDomain : (none : Option UInt64) ≠ some maxU64 := nofun

theorem matchesNs_defaultKey : matchesNs defaultKey space = decide (none = space) :=
  matchesNs_userKey defaultUser_inDomain defaultUserName space

section

variable {space : Option UInt64} {first second acl : AccessControlList} {key : Bytes}

theorem lookup_of_view (same : scopeView space first = scopeView space second)
    (inside : matchesNs key space) : first.lookup key = second.lookup key := by
  unfold AccessControlList.lookup
  split
  case isTrue isDefault =>
    have global : none = space := by
      rw [isDefault, matchesNs_defaultKey] at inside
      exact of_decide_eq_true inside
    have default := congrArg ScopeView.default same
    simpa [scopeView, ← global] using default
  case isFalse =>
    have users := congrArg ScopeView.users same
    rw [← lookupEntry_ofSpace inside, ← lookupEntry_ofSpace inside second.users]
    exact congrArg (lookupEntry · key) users

theorem stored_of_view (same : scopeView space first = scopeView space second)
    (inside : matchesNs key space) : first.stored key = second.stored key := by
  have seen : ∀ acl, acl.stored key = (scopeView space acl).storage.bind (lookupEntry · key) := by
    intro acl
    cases held : acl.storage <;>
      simp [AccessControlList.stored, scopeView, held, lookupEntry_ofSpace inside]
  rw [seen, seen, same]

end

/-- An action is confined to a namespace: other scopes do not notice it, and it depends on what that
scope sees. -/
structure Confined {α : Type} (space : Option UInt64)
    (action : AccessControlList → α × AccessControlList) : Prop where
  silent : ∀ {other : Option UInt64}, space ≠ other → ∀ acl,
    scopeView other (action acl).2 = scopeView other acl
  view : ∀ {first second : AccessControlList}, scopeView space first = scopeView space second →
    (action first).1 = (action second).1 ∧
      scopeView space (action first).2 = scopeView space (action second).2

section

variable {sha256 : Digest} {space : Option UInt64} {first second acl : AccessControlList}
  {lookupNs : Option UInt64} {rules : List Text}

variable {entries : Entries} {name : Text} {user : User}

def Placed (entry : Bytes × User) : Prop :=
  entry.2.namespaceId ≠ some maxU64 ∧ ∃ name, entry.1 = userKey entry.2.namespaceId name

/-- Every user is filed under its own namespace. -/
structure WellFormed (acl : AccessControlList) : Prop where
  default : acl.defaultUser.namespaceId = none
  users : ∀ entry ∈ acl.users, Placed entry
  storage : ∀ stored, acl.storage = some stored → ∀ entry ∈ stored, Placed entry

theorem space_of_userKey {left right : Option UInt64} {leftName rightName : Text}
    (leftInDomain : left ≠ some maxU64) (rightInDomain : right ≠ some maxU64)
    (same : userKey left leftName = userKey right rightName) : left = right := by
  have decoded := congrArg decodeNs same
  rw [decodeNs_userKey leftInDomain, decodeNs_userKey rightInDomain] at decoded
  exact Option.some.inj decoded

section

variable (placed : ∀ entry ∈ entries, Placed entry)

include placed

theorem namespaceId_of_lookupEntry (inDomain : space ≠ some maxU64)
    (found : lookupEntry entries (userKey space name) = some user) : user.namespaceId = space := by
  obtain ⟨entry, hit, rfl⟩ := Option.map_eq_some_iff.mp found
  obtain ⟨entryInDomain, owner, under⟩ := placed entry (mem_of_find?_eq_some hit)
  have same : entry.1 = userKey space name := by simpa using find?_some hit
  exact space_of_userKey entryInDomain inDomain (under.symm.trans same)

theorem placed_dropEntry (key : Bytes) : ∀ entry ∈ dropEntry entries key, Placed entry :=
  fun entry inside => placed entry (mem_of_mem_filter inside)

theorem placed_putEntry (inDomain : user.namespaceId ≠ some maxU64) (name : Text) :
    ∀ entry ∈ putEntry entries (userKey user.namespaceId name) user, Placed entry := by
  intro entry inside
  rcases mem_cons.mp inside with rfl | old
  · exact ⟨inDomain, name, rfl⟩
  · exact placed_dropEntry placed _ entry old

end

variable {found : Option User}

theorem namespaceId_changedUser (there : ∀ old, found = some old → old.namespaceId = lookupNs)
    (changed : changedUser sha256 lookupNs name rules found = .ok user) :
    user.namespaceId = lookupNs := by
  cases found with
  | none =>
    obtain ⟨made, -, same⟩ := except_bind_ok changed
    cases same
    rfl
  | some old =>
    obtain ⟨clone, -, checked⟩ := except_bind_ok changed
    split at checked
    case isTrue => cases checked
    case isFalse stays =>
      cases checked
      exact (not_not.mp stays).trans (there old rfl)

section

variable (wellFormed : WellFormed acl) (inDomain : space ≠ some maxU64)

include wellFormed inDomain

theorem WellFormed.lookup (found : acl.lookup (userKey space name) = some user) :
    user.namespaceId = space := by
  unfold AccessControlList.lookup at found
  split at found
  case isTrue same =>
    cases found
    exact wellFormed.default.trans (space_of_userKey inDomain defaultUser_inDomain same).symm
  case isFalse => exact namespaceId_of_lookupEntry wellFormed.users inDomain found

theorem WellFormed.stored (found : acl.stored (userKey space name) = some user) :
    user.namespaceId = space := by
  obtain ⟨stored, held, inside⟩ := Option.bind_eq_some_iff.mp found
  exact namespaceId_of_lookupEntry (wellFormed.storage stored held) inDomain inside

end

structure Keeping {α : Type} (given : Prop) (space : Option UInt64)
    (action : AccessControlList → α × AccessControlList) (meets : α → Prop := fun _ => True) : Prop
    extends Confined space action where
  keeps : given → ∀ {acl}, WellFormed acl → WellFormed (action acl).2 ∧ meets (action acl).1

theorem matchesNs_own (inDomain : space ≠ some maxU64) (name : Text) :
    matchesNs (userKey space name) space := by
  rw [matchesNs_userKey inDomain]
  exact decide_eq_true rfl

theorem matchesNs_other {other : Option UInt64} (inDomain : space ≠ some maxU64)
    (apart : space ≠ other) (name : Text) : matchesNs (userKey space name) other = false := by
  rw [matchesNs_userKey inDomain]
  exact decide_eq_false apart

variable {given : Prop}

namespace Keeping

variable {α β : Type} {answer : AccessControlList → α}

theorem look {meets : α → Prop}
    (seen : ∀ {first second : AccessControlList}, scopeView space first = scopeView space second →
      answer first = answer second) (met : ∀ {acl}, WellFormed acl → meets (answer acl)) :
    Keeping given space (fun acl => (answer acl, acl)) meets where
  silent _ _ := rfl
  view same := ⟨seen same, same⟩
  keeps _ _ wellFormed := ⟨wellFormed, met wellFormed⟩

theorem read
    (seen : ∀ {first second : AccessControlList}, scopeView space first = scopeView space second →
      answer first = answer second) : Keeping given space fun acl => (answer acl, acl) :=
  look seen fun _ => trivial

theorem stop (answer : α) : Keeping given space fun acl => (answer, acl) := read fun _ => rfl

section

variable {action : AccessControlList → α × AccessControlList} {meets : α → Prop}

theorem map (keeping : Keeping given space action meets) (wrap : α → β) :
    Keeping given space fun acl => (action acl).map wrap id where
  silent apart acl := keeping.silent apart acl
  view same := ⟨congrArg wrap (keeping.view same).1, (keeping.view same).2⟩
  keeps held _ wellFormed := ⟨(keeping.keeps held wellFormed).1, trivial⟩

theorem weaken {stronger : Prop} (keeping : Keeping given space action meets)
    (implies : stronger → given) : Keeping stronger space action meets :=
  ⟨keeping.toConfined, fun held => keeping.keeps (implies held)⟩

theorem step {front : AccessControlList → β × AccessControlList} {met : β → Prop}
    (keeping : Keeping given space front met)
    (each : ∀ value, ∃ next, Keeping (met value) space next ∧
      ∀ acl, (front acl).1 = value → action acl = next (front acl).2) :
    Keeping given space action where
  silent apart acl := by
    obtain ⟨next, later, same⟩ := each (front acl).1
    rw [same acl rfl]
    exact (later.silent apart _).trans (keeping.silent apart acl)
  view {first second} seen := by
    obtain ⟨answer, left⟩ := keeping.view seen
    obtain ⟨next, later, same⟩ := each (front second).1
    rw [same first answer, same second rfl]
    exact later.view left
  keeps held acl wellFormed := by
    obtain ⟨kept, meets⟩ := keeping.keeps held wellFormed
    obtain ⟨next, later, same⟩ := each (front acl).1
    rw [same acl rfl]
    exact later.keeps meets kept

end

end Keeping

theorem storage_confined {change : Entries → Entries}
    (silent : ∀ {other : Option UInt64}, space ≠ other → ∀ entries,
      ofSpace other (change entries) = ofSpace other entries)
    (within : Entries → Entries)
    (view : ∀ entries, ofSpace space (change entries) = within (ofSpace space entries))
    (placed : given → ∀ {entries : Entries}, (∀ entry ∈ entries, Placed entry) →
      ∀ entry ∈ change entries, Placed entry) :
    Keeping given space fun acl => ((), { acl with storage := acl.storage.map change }) where
  silent apart acl := by cases held : acl.storage <;> simp [scopeView, held, silent apart]
  view {first second} same := by
    have seen : ∀ acl, scopeView space { acl with storage := acl.storage.map change } =
          { scopeView space acl with storage := (scopeView space acl).storage.map within } := by
      intro acl
      cases held : acl.storage <;> simp [scopeView, held, view]
    exact ⟨rfl, by rw [seen, seen, same]⟩
  keeps condition acl wellFormed := by
    refine ⟨{ wellFormed with storage := fun stored held => ?_ }, trivial⟩
    obtain ⟨before, was, rfl⟩ := Option.map_eq_some_iff.mp held
    exact placed condition (wellFormed.storage before was)

section

variable (inDomain : space ≠ some maxU64) (name : Text)

include inDomain

theorem write_confined (user : User) : Keeping (user.namespaceId = space) space fun acl =>
    ((), acl.write (userKey space name) user) where
  silent {other} apart acl := by
    have outside := matchesNs_other inDomain apart name
    unfold AccessControlList.write
    split
    case isTrue isDefault =>
      have tenant : other ≠ none := by
        rintro rfl
        rw [isDefault, matchesNs_defaultKey] at outside
        exact absurd outside (by decide)
      simp [scopeView, tenant]
    case isFalse => simp [scopeView, ofSpace_putEntry, outside]
  view same := by
    obtain ⟨default, users, storage⟩ := ScopeView.mk.inj same
    refine ⟨rfl, ?_⟩
    unfold AccessControlList.write
    split
    case isTrue => ext1 <;> simp [scopeView, users, storage]
    case isFalse => ext1 <;> simp [scopeView, ofSpace_putEntry, users, storage, default]
  keeps := by
    rintro rfl acl wellFormed
    refine ⟨?_, trivial⟩
    unfold AccessControlList.write
    split
    case isTrue same =>
      exact { wellFormed with default := space_of_userKey inDomain defaultUser_inDomain same }
    case isFalse =>
      exact { wellFormed with users := placed_putEntry wellFormed.users inDomain name }

theorem remove_confined :
    Keeping given space fun acl => ((), acl.remove (userKey space name)) where
  silent apart acl := by
    have outside := matchesNs_other inDomain apart name
    simp [AccessControlList.remove, scopeView, ofSpace_dropEntry, outside]
  view same := by
    obtain ⟨default, users, storage⟩ := ScopeView.mk.inj same
    refine ⟨rfl, ?_⟩
    ext1 <;> simp [AccessControlList.remove, scopeView, ofSpace_dropEntry, users, storage, default]
  keeps _ _ wellFormed :=
    ⟨{ wellFormed with users := placed_dropEntry wellFormed.users _ }, trivial⟩

theorem store_confined (user : User) : Keeping (user.namespaceId = space) space fun acl =>
    ((), acl.store (userKey space name) user) :=
  storage_confined (fun apart entries => (ofSpace_putEntry entries user).trans
      (if_neg (by rw [matchesNs_other inDomain apart name]; exact Bool.false_ne_true)))
    (putEntry · (userKey space name) user)
    (fun entries => (ofSpace_putEntry entries user).trans (if_pos (matchesNs_own inDomain name)))
    (by rintro rfl entries placed; exact placed_putEntry placed inDomain name)

theorem unstore_confined : Keeping given space fun acl => ((), acl.unstore (userKey space name)) :=
  storage_confined (fun apart entries => (ofSpace_dropEntry entries).trans
      (if_neg (by rw [matchesNs_other inDomain apart name]; exact Bool.false_ne_true)))
    (dropEntry · (userKey space name))
    (fun entries => (ofSpace_dropEntry entries).trans (if_pos (matchesNs_own inDomain name)))
    fun _ _ placed => placed_dropEntry placed _

theorem getUser_view (same : scopeView space first = scopeView space second) (name : Text) :
    first.getUser space name = second.getUser space name := by
  unfold AccessControlList.getUser
  split
  case isTrue default =>
    have seen := congrArg ScopeView.default same
    simpa [scopeView, default.1] using seen
  case isFalse => exact lookup_of_view same (matchesNs_own inDomain name)

def OfSpace (space : Option UInt64) (found : Option User) : Prop :=
  ∀ user, found = some user → user.namespaceId = space

theorem lookup_confined :
    Keeping given space (fun acl => (acl.lookup (userKey space name), acl)) (OfSpace space) :=
  .look (fun same => lookup_of_view same (matchesNs_own inDomain name))
    fun wellFormed _ found => wellFormed.lookup inDomain found

theorem stored_confined :
    Keeping given space (fun acl => (acl.stored (userKey space name), acl)) (OfSpace space) :=
  .look (fun same => stored_of_view same (matchesNs_own inDomain name))
    fun wellFormed _ found => wellFormed.stored inDomain found

theorem setUser_confined {scope : Option UInt64} {rules : List Text}
    (resolved : resolveLookupNs scope rules = .ok space) (name : Text) :
    Keeping given space fun acl => acl.setUser sha256 scope name rules := by
  simp only [AccessControlList.setUser, resolved]
  cases validateUsername name with
  | error => exact .stop _
  | ok =>
    have made : Keeping given space
        (fun acl => (changedUser sha256 space name rules (acl.lookup (userKey space name)), acl))
        fun changed => ∀ user, changed = .ok user → user.namespaceId = space :=
      .look (fun same => by rw [lookup_of_view same (matchesNs_own inDomain name)])
        fun wellFormed _ => namespaceId_changedUser fun _ found => wellFormed.lookup inDomain found
    refine made.step fun changed => ?_
    cases changed with
    | error failure => exact ⟨_, .stop (.error failure), fun acl failed => by simp_all⟩
    | ok user =>
      exact ⟨_, ((write_confined inDomain name user).weaken fun owned => owned user rfl).map .ok,
        fun acl made => by simp_all⟩

theorem loadFromStorage_confined :
    Keeping given space fun acl => acl.loadFromStorage space name := by
  have looked : Keeping given space (fun acl =>
      ((acl.stored (userKey space name), acl.lookup (userKey space name)), acl))
      fun both => OfSpace space both.1 :=
    .look (fun same => Prod.ext (stored_of_view same (matchesNs_own inDomain name))
        (lookup_of_view same (matchesNs_own inDomain name)))
      fun wellFormed _ found => wellFormed.stored inDomain found
  unfold loadFromStorage
  refine looked.step fun both => ?_
  rcases both with ⟨_ | user, found⟩
  · exact ⟨_, .stop none, fun acl missing => by simp_all⟩
  · cases found with
    | none =>
      have written := (write_confined inDomain name user).map fun _ => some user
      exact ⟨_, written.weaken fun owned => owned user rfl, fun acl missing => by simp_all⟩
    | some present => exact ⟨_, .stop (some present), fun acl here => by simp_all⟩

theorem preload_confined : Keeping given space fun acl => ((), acl.preload space name) := by
  unfold AccessControlList.preload
  refine (lookup_confined inDomain name).step fun found => ?_
  cases found with
  | none => exact ⟨_, (loadFromStorage_confined inDomain name).map fun _ => (),
      fun acl missing => by simp_all; rfl⟩
  | some user => exact ⟨_, .stop (), fun acl here => by simp_all⟩

theorem save_confined : Keeping given space fun acl => ((), acl.save (userKey space name)) := by
  unfold AccessControlList.save
  refine (lookup_confined inDomain name).step fun found => ?_
  cases found with
  | none => exact ⟨_, .stop (), fun acl missing => by simp_all⟩
  | some user => exact ⟨_, (store_confined inDomain name user).weaken fun owned => owned user rfl,
      fun acl here => by simp_all⟩

theorem setUserAsync_confined {scope : Option UInt64} {rules : List Text}
    (resolved : resolveLookupNs scope rules = .ok space) (name : Text) :
    Keeping given space fun acl => acl.setUserAsync sha256 scope name rules := by
  have set : Keeping given space fun acl =>
      (acl.preload space name).setUser sha256 scope name rules :=
    (preload_confined inDomain name).step fun _ =>
      ⟨_, setUser_confined inDomain resolved name, fun _ _ => rfl⟩
  simp only [setUserAsync, resolved]
  refine set.step fun answer => ?_
  cases answer with
  | error failure =>
    exact ⟨_, .stop (.error failure), fun acl failed => by split <;> simp_all⟩
  | ok =>
    exact ⟨_, (save_confined inDomain name).map .ok, fun acl done => by split <;> simp_all⟩

theorem delUser_confined : Keeping given space fun acl => acl.delUser space name := by
  unfold AccessControlList.delUser
  split
  · exact .stop _
  · exact (lookup_confined inDomain name).step fun found =>
      ⟨_, (remove_confined inDomain name).map fun _ => .ok found.isSome,
        fun acl here => by simp_all⟩

theorem removeUsers_confined (names : List Text) :
    Keeping given space fun acl => acl.removeUsers space names := by
  induction names generalizing given with
  | nil => exact .stop 0
  | cons name names ih =>
    refine (lookup_confined inDomain name).step fun found => ?_
    have later := (@remove_confined space (OfSpace space found) inDomain name).step fun _ =>
      ⟨_, ih, fun _ _ => rfl⟩
    exact ⟨_, later.map (· + if found.isSome then 1 else 0), fun acl here => by
      subst here
      rfl⟩

theorem delUsers_confined (names : List Text) :
    Keeping given space fun acl => acl.delUsers space names := by
  unfold delUsers
  split
  · exact .stop _
  · exact (removeUsers_confined inDomain names).map Except.ok

theorem delUserAsync_confined : Keeping given space fun acl => acl.delUserAsync space name := by
  unfold delUserAsync
  refine (delUser_confined inDomain name).step fun answer => ?_
  cases answer with
  | error failure =>
    exact ⟨_, .stop (.error failure), fun acl failed => by dsimp only; split <;> simp_all⟩
  | ok deleted =>
    have dropped : Keeping True space fun acl => ((.ok (deleted ||
        (acl.stored (userKey space name)).isSome) : Except AclError Bool),
          acl.unstore (userKey space name)) :=
      (stored_confined inDomain name).step fun stored =>
        ⟨_, (unstore_confined inDomain name).map fun _ => .ok (deleted || stored.isSome),
          fun acl here => by subst here; rfl⟩
    exact ⟨_, dropped, fun acl done => by dsimp only; split <;> simp_all⟩

theorem getUserAsync_confined : Keeping given space fun acl => acl.getUserAsync space name := by
  have looked : Keeping given space fun acl => (acl.getUser space name, acl) :=
    .read fun same => getUser_view inDomain same name
  unfold getUserAsync
  refine looked.step fun found => ?_
  cases found with
  | none => exact ⟨_, loadFromStorage_confined inDomain name, fun acl missing => by simp_all⟩
  | some user => exact ⟨_, .stop (some user), fun acl here => by simp_all⟩

end

theorem ofSpace_entries (acl : AccessControlList) : ofSpace space acl.entries =
      (scopeView space acl).default.toList.map (defaultKey, ·) ++ (scopeView space acl).users := by
  unfold AccessControlList.entries ofSpace
  rw [filter_cons, matchesNs_defaultKey]
  cases space with
  | none => rfl
  | some number => rfl

theorem userNames_view (same : scopeView space first = scopeView space second) :
    first.userNames space = second.userNames space := by
  have seen : ∀ acl : AccessControlList, acl.userNames space =
      sortTexts ((ofSpace space acl.entries).filterMap fun entry =>
        (decodeUserKey entry.1).map (·.2)) := by
    intro acl
    rw [userNames, ofSpace, filterMap_filter]
  rw [seen, seen, ofSpace_entries, ofSpace_entries, same]

theorem listUsers_view (same : scopeView space first = scopeView space second) :
    first.listUsers space = second.listUsers space := by
  have seen : ∀ acl : AccessControlList, acl.listUsers space =
      sortTexts ((ofSpace space acl.entries).map (·.2.describe)) := fun _ => rfl
  rw [seen, seen, ofSpace_entries, ofSpace_entries, same]

theorem resolveLookupNs_cases (resolved : resolveLookupNs space rules = .ok lookupNs) :
    (scanNsBind none rules = .ok none ∧ lookupNs = space) ∨
      ∃ raw, scanNsBind none rules = .ok (some raw) ∧ parseNs raw = .ok lookupNs := by
  unfold resolveLookupNs at resolved
  obtain ⟨bind, scanned, resolved⟩ := except_bind_ok resolved
  cases bind with
  | none =>
    refine .inl ⟨scanned, ?_⟩
    cases space <;> exact (Except.ok.inj resolved).symm
  | some raw =>
    refine .inr ⟨raw, scanned, ?_⟩
    cases parsed : parseNs raw with
    | error failure => simp [parsed, Except.map, bind, Except.bind] at resolved
    | ok bound =>
      simp only [parsed, Except.map, bind, Except.bind] at resolved
      cases space with
      | none => exact congrArg _ (Except.ok.inj resolved)
      | some number =>
        dsimp only at resolved
        split at resolved
        case isTrue => cases resolved
        case isFalse => exact congrArg _ (Except.ok.inj resolved)

theorem resolveLookupNs_inDomain (inDomain : space ≠ some maxU64)
    (resolved : resolveLookupNs space rules = .ok lookupNs) : lookupNs ≠ some maxU64 := by
  rcases resolveLookupNs_cases resolved with ⟨-, rfl⟩ | ⟨raw, -, parsed⟩
  · exact inDomain
  · rintro rfl
    have bounds := tenant_of_parseNs parsed maxU64 rfl
    exact absurd bounds.2 (by decide)

theorem resolveLookupNs_tenant {number : UInt64}
    (resolved : resolveLookupNs (some number) rules = .ok lookupNs) : lookupNs = some number := by
  rcases resolveLookupNs_cases resolved with ⟨-, same⟩ | ⟨raw, scanned, parsed⟩
  · exact same
  · simp only [resolveLookupNs, scanned, parsed, Except.map, bind, Except.bind] at resolved
    split at resolved
    case isTrue => cases resolved
    case isFalse allowed => simpa using allowed

def outcome {α : Type} (result : Except AclError α) : Except AclError Unit := result.map fun _ => ()

theorem outcome_bind {α β : Type} {left right : Except AclError α}
    {nextLeft nextRight : α → Except AclError β} (same : outcome left = outcome right)
    (later : ∀ leftValue rightValue,
      outcome (nextLeft leftValue) = outcome (nextRight rightValue)) :
    outcome (left >>= nextLeft) = outcome (right >>= nextRight) := by
  cases left <;> cases right
  · cases same
    rfl
  · cases same
  · cases same
  · exact later _ _

variable (left right : CommandPermissionSet)

theorem outcome_applyCommandOp (name : Text) (grant : Bool) :
    outcome (left.applyCommandOp name grant) = outcome (right.applyCommandOp name grant) := by
  unfold applyCommandOp
  cases parseCommandName name with
  | some cmd => rfl
  | none =>
    dsimp only
    split
    case isFalse => rfl
    case isTrue valid =>
      cases grant with
      | true =>
        simp only [if_true, allowCustomCommand, valid, Bool.not_true, Bool.false_eq_true, if_false]
        split <;> split <;> rfl
      | false =>
        simp only [if_false, denyCustomCommand, valid, Bool.not_true, Bool.false_eq_true]
        split <;> split <;> rfl

theorem outcome_addCategory (name : Text) :
    outcome (left.addCategory name) = outcome (right.addCategory name) := by
  unfold addCategory
  cases lookupCategory name with
  | none => rfl
  | some found =>
    dsimp only
    repeat' split
    all_goals rfl

theorem outcome_removeCategory (name : Text) :
    outcome (left.removeCategory name) = outcome (right.removeCategory name) := by
  unfold removeCategory
  cases lookupCategory name with
  | none => rfl
  | some found =>
    dsimp only
    repeat' split
    all_goals rfl

theorem outcome_apply (op : AclOp) (left right : User) :
    outcome (op.apply sha256 left) = outcome (op.apply sha256 right) := by
  cases op with
  | category grant name =>
    cases grant
    · exact outcome_bind (outcome_removeCategory left.commands right.commands name) fun _ _ => rfl
    · exact outcome_bind (outcome_addCategory left.commands right.commands name) fun _ _ => rfl
  | command grant name =>
    exact outcome_bind (outcome_applyCommandOp left.commands right.commands name grant)
      fun _ _ => rfl
  | addHash hex => exact outcome_bind rfl fun _ _ => rfl
  | removeHash hex => exact outcome_bind rfl fun _ _ => rfl
  | _ => rfl

theorem outcome_applyRules (rules : List Text) (left right : User) :
    outcome (applyRules sha256 left rules) = outcome (applyRules sha256 right rules) := by
  match rules with
  | [] => rfl
  | rule :: rest =>
    rw [applyRules.eq_def, applyRules.eq_def sha256 right]
    dsimp only
    split
    case isTrue =>
      match rest with
      | [] => rfl
      | value :: later =>
        dsimp only
        cases parsed : parseNs value with
        | error => rfl
        | ok bound => exact outcome_applyRules later _ _
    case isFalse =>
      exact outcome_bind (outcome_apply (AclOp.ofRule rule) left right) fun changed other =>
        outcome_applyRules rest changed other

theorem namespaceId_addKeyPattern (user : User) (pattern : Text) (read write : Bool) :
    (user.addKeyPattern pattern read write).namespaceId = user.namespaceId := by
  unfold User.addKeyPattern
  dsimp only
  repeat' split
  all_goals rfl

theorem namespaceId_addChannelPattern (user : User) (pattern : Text) :
    (user.addChannelPattern pattern).namespaceId = user.namespaceId := by
  unfold User.addChannelPattern
  repeat' split
  all_goals rfl

theorem namespaceId_addPasswordHash (user : User) (password : AclPassword) :
    (user.addPasswordHash password).namespaceId = user.namespaceId := by
  unfold User.addPasswordHash
  split <;> rfl

theorem namespaceId_apply {op : AclOp} {changed : User}
    (applied : op.apply sha256 user = .ok changed) : changed.namespaceId = user.namespaceId := by
  cases op with
  | category grant name =>
    have edited : ((if grant then user.commands.addCategory name
        else user.commands.removeCategory name) >>= fun commands =>
          pure { user with commands := commands }) = .ok changed := by
      cases grant <;> exact applied
    obtain ⟨commands, -, same⟩ := except_bind_ok edited
    cases same
    rfl
  | command grant name =>
    obtain ⟨commands, -, same⟩ := except_bind_ok applied
    cases same
    rfl
  | addHash hex =>
    obtain ⟨password, -, same⟩ := except_bind_ok applied
    cases same
    exact namespaceId_addPasswordHash _ password
  | removeHash hex =>
    obtain ⟨password, -, same⟩ := except_bind_ok applied
    cases same
    rfl
  | addPassword cleartext =>
    cases applied
    exact namespaceId_addPasswordHash _ _
  | keyPattern pattern read write =>
    cases applied
    exact namespaceId_addKeyPattern user pattern read write
  | channelPattern pattern =>
    cases applied
    exact namespaceId_addChannelPattern user pattern
  | unknown op => cases applied
  | _ =>
    cases applied
    rfl

theorem namespaceId_applyRules {rules : List Text} {user changed : User}
    {bind last : Option Text}
    (applied : applyRules sha256 user rules = .ok changed)
    (scanned : scanNsBind bind rules = .ok last) :
    (last = bind ∧ changed.namespaceId = user.namespaceId) ∨
      ∃ raw, last = some raw ∧ parseNs raw = .ok changed.namespaceId := by
  match rules with
  | [] =>
    cases applied
    exact .inl ⟨(Except.ok.inj scanned).symm, rfl⟩
  | rule :: rest =>
    rw [applyRules.eq_def] at applied
    rw [scanNsBind.eq_def] at scanned
    dsimp only at applied scanned
    split at applied
    case isTrue binds =>
      rw [if_pos binds] at scanned
      match rest with
      | [] => cases applied
      | value :: later =>
        obtain ⟨bound, parsed, success⟩ := except_bind_ok applied
        rcases namespaceId_applyRules success scanned with ⟨rfl, stays⟩ | moved
        · exact .inr ⟨value, rfl, by rw [stays]; exact parsed⟩
        · exact .inr moved
    case isFalse other =>
      rw [if_neg other] at scanned
      obtain ⟨next, step, success⟩ := except_bind_ok applied
      rcases namespaceId_applyRules success scanned with ⟨same, stays⟩ | moved
      · exact .inl ⟨same, stays.trans (namespaceId_apply step)⟩
      · exact .inr moved

theorem outcome_changedUser (resolved : resolveLookupNs space rules = .ok lookupNs)
    (there : ∀ old, found = some old → old.namespaceId = lookupNs) :
    outcome (changedUser sha256 lookupNs name rules found) =
      outcome (applyRules sha256 (User.new name) rules) := by
  cases found with
  | none =>
    unfold changedUser
    cases applyRules sha256 (User.new name) rules <;> rfl
  | some old =>
    have same := @outcome_applyRules sha256 rules old (User.new name)
    rw [← same]
    unfold changedUser
    dsimp only
    cases applied : applyRules sha256 old rules with
    | error failure => rfl
    | ok clone =>
      have stays : clone.namespaceId = old.namespaceId := by
        rcases resolveLookupNs_cases resolved with ⟨scanned, -⟩ | ⟨raw, scanned, parsed⟩
        · rcases namespaceId_applyRules applied scanned with ⟨-, same⟩ | ⟨raw, last, -⟩
          · exact same
          · cases last
        · rcases namespaceId_applyRules applied scanned with ⟨last, -⟩ | ⟨other, last, bound⟩
          · cases last
          · cases last
            exact (Except.ok.inj (bound.symm.trans parsed)).trans (there old rfl).symm
      simp [bind, Except.bind, stays, pure, Except.pure, outcome, Except.map]

theorem setUser_answer (inDomain : space ≠ some maxU64) (wellFirst : WellFormed first)
    (wellSecond : WellFormed second) (name : Text) (rules : List Text) :
    (first.setUser sha256 space name rules).1 = (second.setUser sha256 space name rules).1 := by
  have answer : ∀ {acl} {lookupNs}, WellFormed acl → resolveLookupNs space rules = .ok lookupNs →
      outcome (changedUser sha256 lookupNs name rules (acl.lookup (userKey lookupNs name))) =
      outcome (applyRules sha256 (User.new name) rules) := fun wellFormed resolved =>
    outcome_changedUser resolved fun _ found =>
      wellFormed.lookup (resolveLookupNs_inDomain inDomain resolved) found
  unfold AccessControlList.setUser
  split
  case h_1 => rfl
  case h_2 => rfl
  case h_3 lookupNs valid resolved =>
    have same := (answer wellFirst resolved).trans (answer wellSecond resolved).symm
    dsimp only
    revert same
    generalize changedUser sha256 lookupNs name rules (first.lookup _) = left
    generalize changedUser sha256 lookupNs name rules (second.lookup _) = right
    intro same
    cases left <;> cases right <;> cases same <;> rfl

theorem setUserAsync_answer (inDomain : space ≠ some maxU64) (wellFirst : WellFormed first)
    (wellSecond : WellFormed second) (name : Text) (rules : List Text) :
    (first.setUserAsync sha256 space name rules).1 =
      (second.setUserAsync sha256 space name rules).1 := by
  unfold setUserAsync
  cases resolved : resolveLookupNs space rules with
  | error failure => rfl
  | ok lookupNs =>
    have lookupInDomain := resolveLookupNs_inDomain inDomain resolved
    have preloaded := @preload_confined _ True lookupInDomain name
    have answer := @setUser_answer sha256 space _ _ inDomain
      (preloaded.keeps trivial wellFirst).1 (preloaded.keeps trivial wellSecond).1 name rules
    dsimp only
    revert answer
    generalize (first.preload lookupNs name).setUser sha256 space name rules = left
    generalize (second.preload lookupNs name).setUser sha256 space name rules = right
    obtain ⟨leftAnswer, leftAfter⟩ := left
    obtain ⟨rightAnswer, rightAfter⟩ := right
    rintro rfl
    cases leftAnswer <;> rfl

variable (request : ScopeRequest)

theorem ScopeRequest.confined (inDomain : space ≠ some maxU64) :
    Keeping True (request.target space) (request.run sha256 space) := by
  cases request with
  | getUser name =>
    exact .read fun same => congrArg ScopeAnswer.user (getUser_view inDomain same name)
  | getUserAsync name => exact (getUserAsync_confined inDomain name).map _
  | authenticate name password =>
    refine .read fun same => ?_
    simp only [AccessControlList.authenticate, getUser_view inDomain same name]
  | canExecute name cmd =>
    refine .read fun same => ?_
    simp only [AccessControlList.canExecute, getUser_view inDomain same name]
  | setUser name rules =>
    have confined : Keeping True ((ScopeRequest.setUser name rules).target space) fun acl =>
        acl.setUser sha256 space name rules := by
      cases resolved : resolveLookupNs space rules with
      | error failure =>
        simp only [AccessControlList.setUser, resolved]
        cases validateUsername name <;> exact .read fun _ => rfl
      | ok lookupNs =>
        simp only [ScopeRequest.target, resolved]
        exact setUser_confined (resolveLookupNs_inDomain inDomain resolved) resolved name
    exact confined.map _
  | setUserAsync name rules =>
    have confined : Keeping True ((ScopeRequest.setUserAsync name rules).target space) fun acl =>
        acl.setUserAsync sha256 space name rules := by
      cases resolved : resolveLookupNs space rules with
      | error failure =>
        simp only [AccessControlList.setUserAsync, resolved]
        exact .read fun _ => rfl
      | ok lookupNs =>
        simp only [ScopeRequest.target, resolved]
        exact setUserAsync_confined (resolveLookupNs_inDomain inDomain resolved) resolved name
    exact confined.map _
  | delUser name => exact (delUser_confined inDomain name).map _
  | delUserAsync name => exact (delUserAsync_confined inDomain name).map _
  | delUsers names => exact (delUsers_confined inDomain names).map _
  | userNames => exact .read fun same => congrArg ScopeAnswer.texts (userNames_view same)
  | listUsers => exact .read fun same => congrArg ScopeAnswer.texts (listUsers_view same)

theorem ScopeRequest.answered (inDomain : space ≠ some maxU64)
    (wellFirst : WellFormed first) (wellSecond : WellFormed second)
    (same : scopeView space first = scopeView space second) :
    (request.run sha256 space first).1 = (request.run sha256 space second).1 := by
  have confined := @ScopeRequest.confined sha256 space request inDomain
  cases request with
  | setUser name rules =>
    exact congrArg ScopeAnswer.set (setUser_answer inDomain wellFirst wellSecond name rules)
  | setUserAsync name rules =>
    exact congrArg ScopeAnswer.set (setUserAsync_answer inDomain wellFirst wellSecond name rules)
  | _ => exact (confined.view same).1

end

def AclOperation.inDomain : AclOperation → Bool
  | .ask space _ => space ≠ some maxU64
  | .addUserHandle user => user.namespaceId ≠ some maxU64

def AclOperation.through : AclOperation → Bool
  | .ask scope _ => scope = space
  | .addUserHandle _ => false

/-- The operation goes through the scope of the namespace, names it in an `ns` rule, or adds a user
of it. -/
def AclOperation.concerns (space : Option UInt64) : AclOperation → Bool
  | .ask none request => space = none || request.target none = space
  | .ask scope _ => scope = space
  | .addUserHandle user => user.namespaceId = space

abbrev DomainOperation := { op : AclOperation // op.inDomain = true }

section

variable {sha256 : Digest} {space : Option UInt64} {acl first second : AccessControlList}

theorem target_tenant (number : UInt64) (request : ScopeRequest) :
    request.target (some number) = some number := by
  cases request with
  | setUser name rules | setUserAsync name rules =>
    unfold ScopeRequest.target
    dsimp only
    split
    case h_1 lookupNs resolved => exact resolveLookupNs_tenant resolved
    case h_2 => rfl
  | _ => rfl

theorem addUserHandle_confined {user : User} (inDomain : user.namespaceId ≠ some maxU64) :
    Keeping True user.namespaceId fun acl => acl.addUserHandle user := by
  unfold addUserHandle
  split
  · exact .stop _
  · refine (lookup_confined inDomain user.name).step fun found => ?_
    cases found with
    | none => exact ⟨_, ((write_confined inDomain user.name user).weaken fun _ => rfl).map .ok,
        fun acl missing => by simp_all⟩
    | some present =>
      exact ⟨_, .stop (.error (.userAlreadyExists user.name)), fun acl here => by simp_all⟩

variable (op : DomainOperation)

def AclOperation.target : AclOperation → Option UInt64
  | .ask scope request => request.target scope
  | .addUserHandle user => user.namespaceId

theorem AclOperation.confined : Keeping True op.1.target (op.1.run sha256) := by
  obtain ⟨op, inDomain⟩ := op
  cases op with
  | ask scope request => exact request.confined (of_decide_eq_true inDomain)
  | addUserHandle user => exact (addUserHandle_confined (of_decide_eq_true inDomain)).map _

theorem AclOperation.consistent (same : scopeView space first = scopeView space second) :
    scopeView space (op.1.run sha256 first).2 = scopeView space (op.1.run sha256 second).2 := by
  have confined := @AclOperation.confined sha256 op
  by_cases apart : op.1.target ≠ space
  · rw [confined.silent apart, confined.silent apart, same]
  · obtain rfl := not_not.mp apart
    exact (confined.view same).2

theorem target_of_not_concerns {op : AclOperation} (unconcerned : op.concerns space = false) :
    op.target ≠ space := by
  rintro rfl
  cases op with
  | ask scope request =>
    cases scope with
    | none => simp [AclOperation.concerns, AclOperation.target] at unconcerned
    | some number =>
      simp [AclOperation.concerns, AclOperation.target, target_tenant] at unconcerned
  | addUserHandle user => simp [AclOperation.concerns, AclOperation.target] at unconcerned

theorem unwinding_scope (sha256 : Digest) (space : Option UInt64) :
    Unwinding (fun (op : DomainOperation) acl => op.1.run sha256 acl) WellFormed (scopeView space)
      (fun op => op.1.through space) (fun op => op.1.concerns space) where
  observed_concerns := by
    rintro ⟨op, inDomain⟩ seen
    cases op with
    | ask scope request =>
      obtain rfl := of_decide_eq_true seen
      cases scope with
      | none => rfl
      | some number => simp [AclOperation.concerns]
    | addUserHandle user => cases seen
  keeps := fun op _ wellFormed => ((AclOperation.confined op).keeps trivial wellFormed).1
  silent := fun op acl _ unconcerned =>
    (AclOperation.confined op).silent (target_of_not_concerns unconcerned) acl
  consistent := fun op _ _ _ _ same => AclOperation.consistent op same
  answered := by
    rintro ⟨op, inDomain⟩ first second wellFirst wellSecond same seen
    cases op with
    | ask scope request =>
      obtain rfl := of_decide_eq_true seen
      exact request.answered (of_decide_eq_true inDomain) wellFirst wellSecond same
    | addUserHandle user => cases seen

/-- A scope is answered as in the run without the operations that do not concern it. -/
theorem observations_scope (wellFormed : WellFormed acl) (space : Option UInt64)
    (ops : List DomainOperation) :
    observations (fun (op : DomainOperation) acl => op.1.run sha256 acl)
        (fun op => op.1.through space) ops acl =
      observations (fun (op : DomainOperation) acl => op.1.run sha256 acl)
        (fun op => op.1.through space) (ops.filter fun op => op.1.concerns space) acl :=
  (unwinding_scope sha256 space).observations_filter ops wellFormed wellFormed rfl

end

theorem wellFormed_new (password : Option AclPassword) : WellFormed (.new password) where
  default := by
    cases password with
    | none => rfl
    | some password => exact namespaceId_addPasswordHash _ password
  users := fun _ inside => nomatch inside
  storage := fun _ held => nomatch held

def twoTenants : List DomainOperation :=
  [⟨.ask (some 5) (.setUser (text "alice") [text "on"]), rfl⟩,
    ⟨.ask (some 4) (.setUser (text "alice") [text "on"]), rfl⟩,
    ⟨.ask (some 4) (.delUser (text "alice")), rfl⟩,
    ⟨.ask (some 5) (.delUser (text "alice")), rfl⟩]

theorem observations_scope_twoTenants :
    observations (fun (op : DomainOperation) acl => op.1.run zeroDigest acl)
        (fun op => op.1.through (some 5)) twoTenants (.new none) =
      [.set (.ok ()), .deleted (.ok true)] ∧
    observations (fun (op : DomainOperation) acl => op.1.run zeroDigest acl)
        (fun op => op.1.through (some 5)) twoTenants (.new none) =
      observations (fun (op : DomainOperation) acl => op.1.run zeroDigest acl)
        (fun op => op.1.through (some 5))
        (twoTenants.filter fun op => op.1.concerns (some 5)) (.new none) :=
  ⟨by decide +kernel, observations_scope (wellFormed_new none) (some 5) twoTenants⟩

/-- The super administrator sets a tenant's user by an `ns` rule, and the last two namespaces share
keys. -/
theorem scopes_share_users : (observations (AclOperation.run zeroDigest) (·.through (some 5))
          [.ask none (.setUser (text "alice") [text "ns", text "5"]),
            .ask (some 5) (.delUser (text "alice"))] (.new none) = [.deleted (.ok true)] ∧
        observations (AclOperation.run zeroDigest) (·.through (some 5))
          [.ask (some 5) (.delUser (text "alice"))] (.new none) = [.deleted (.ok false)]) ∧
      observations (AclOperation.run zeroDigest) (·.through (some (maxU64 - 1)))
          [.ask (some maxU64) (.setUser (text "alice") []),
            .ask (some (maxU64 - 1)) (.delUser (text "alice"))] (.new none) =
        [.deleted (.ok true)] := by
  decide +kernel

end Wedb.Acl
