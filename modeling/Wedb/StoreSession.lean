/-
What the server relies on from the storage engine: its operations and, as further fields, what its
documentation and tests promise. An expired key is absent for every asynchronous operation, an
upsert clears the time to live, and in-memory probes and in-place edits need resident records.
-/

import Mathlib.Logic.Function.Basic
import Wedb.Bytes

namespace Wedb.Kv

open Function

/-- Where a record lies: in the mutable or read-only part of the memory, or on disk. -/
inductive Region
  | mutable
  | readOnly
  | onDisk
  deriving DecidableEq

def Region.resident : Region → Bool
  | .mutable | .readOnly => true
  | .onDisk => false

structure Record (α : Type) where
  value : α
  region : Region

inductive CollectionType
  | hash
  | set
  | zset
  | rangeIndex
  deriving DecidableEq

def CollectionType.asStr : CollectionType → String
  | .hash => "hash"
  | .set => "set"
  | .zset => "zset"
  | .rangeIndex => "rangeindex"

/-- The metadata record of a collection. A deleted collection can leave one of size zero. -/
structure MetaValue where
  collectionType : CollectionType
  size : Nat
  deriving DecidableEq

structure Slot where
  data : Option (Record Bytes)
  ttl : Option (Record Nat)
  collection : Option MetaValue

abbrev Store := Bytes → Slot

/-- A key is expired when its time to live record lies in the past. -/
def Slot.expired (now : Nat) (slot : Slot) : Bool :=
  slot.ttl.any fun record => decide (record.value ≤ now)

def Slot.bytes (slot : Slot) : Option Bytes := slot.data.map Record.value

def Slot.liveCollection (slot : Slot) : Option MetaValue :=
  slot.collection.filter fun metadata => decide (0 < metadata.size)

/-- Nothing is stored: no data, no time to live and no live collection. -/
structure Slot.Vacant (slot : Slot) : Prop where
  data : slot.data = none
  ttl : slot.ttl = none
  collection : slot.liveCollection = none

/-- What a synchronous in-memory read knows about a record. -/
inductive Probe (α : Type)
  | unknown
  | absent
  | hit (value : α)
  deriving DecidableEq

inductive InPlace
  | skipped
  | declined (bytes : Bytes)
  | edited (bytes : Bytes)

structure StoreSession where
  /-- The store after the engine has removed a key. -/
  vacate : Store → Bytes → Store
  vacate_self : ∀ store key, (vacate store key key).Vacant
  vacate_other : ∀ store key other, other ≠ key → vacate store key other = store other
  /-- `read` and `read_with`: expiry is decided before the bytes are handed out. -/
  read : Nat → Store → Bytes → Option Bytes × Store
  read_eq : ∀ now store key, read now store key =
    if (store key).expired now then (none, vacate store key) else ((store key).bytes, store)
  loadMeta : Nat → Store → Bytes → Option MetaValue × Store
  loadMeta_eq : ∀ now store key, loadMeta now store key =
    if (store key).expired now then (none, vacate store key)
    else ((store key).collection, store)
  /-- An upsert appends the record at the tail of the log and clears the time to live. -/
  upsert : Store → Bytes → Bytes → Store
  upsert_eq : ∀ store key value, upsert store key value =
    update store key { store key with data := some ⟨value, .mutable⟩, ttl := none }
  delete : Nat → Store → Bytes → Bool × Store
  delete_eq : ∀ now store key, (delete now store key).2 = vacate store key
  containsKey : Nat → Store → Bytes → Bool × Store
  containsKey_eq : ∀ now store key, containsKey now store key =
    if (store key).expired now then (false, vacate store key)
    else ((store key).data.isSome || (store key).liveCollection.isSome, store)
  /-- The expiration time of a key. -/
  ttlOf : Nat → Store → Bytes → Option Nat × Store
  /-- Set the expiration time of a key. -/
  expireAt : Nat → Store → Bytes → Nat → Store
  /-- The raw loaders: a live string under the key is an error, even beside collection remains. -/
  loadCollectionRaw : Bool → Nat → Store → Bytes → CollectionType →
    Except Unit (Option MetaValue) × Store
  loadCollectionRaw_string : ∀ forWrite now store key expected, (store key).expired now = false →
    (store key).liveCollection = none → (store key).data.isSome →
      (loadCollectionRaw forWrite now store key expected).1 = .error ()
  /-- A probe of the index for a time to live record; a collision may answer true. -/
  hasTtlTag : Store → Bytes → Bool
  hasTtlTag_of_ttl : ∀ store key, (store key).ttl.isSome → hasTtlTag store key = true
  checkExpired : Nat → Store → Bytes → Bool × Store
  checkExpired_eq : ∀ now store key, checkExpired now store key =
    if (store key).expired now then (true, vacate store key) else (false, store)
  /-- `try_read_raw_in_memory` on the data record of a key. -/
  probeData : Store → Bytes → Probe Bytes
  probeData_resident : ∀ store key record, (store key).data = some record →
    record.region.resident = true → probeData store key = .hit record.value
  probeData_cold : ∀ store key record, (store key).data = some record →
    record.region.resident = false → probeData store key = .unknown
  probeData_none : ∀ store key value, (store key).data = none → probeData store key ≠ .hit value
  /-- `try_read_raw_in_memory` on the time to live record of a key. -/
  probeTtl : Store → Bytes → Probe Nat
  probeTtl_resident : ∀ store key record, (store key).ttl = some record →
    record.region.resident = true → probeTtl store key = .hit record.value
  probeTtl_cold : ∀ store key record, (store key).ttl = some record →
    record.region.resident = false → probeTtl store key = .unknown
  probeTtl_none : ∀ store key value, (store key).ttl = none → probeTtl store key ≠ .hit value
  /-- `try_modify_in_place`: the closure runs on a record in the mutable region only. -/
  tryModifyInPlace : Store → Bytes → (Bytes → Option Bytes) → InPlace × Store
  tryModifyInPlace_mutable : ∀ store key edit value,
    (store key).data = some ⟨value, .mutable⟩ → tryModifyInPlace store key edit =
      match edit value with
      | none => (.declined value, store)
      | some edited => (.edited value, update store key
          { store key with data := some ⟨edited, .mutable⟩ })
  tryModifyInPlace_skipped : ∀ store key edit,
    (∀ value, (store key).data ≠ some ⟨value, .mutable⟩) →
      tryModifyInPlace store key edit = (.skipped, store)
  /-- `try_modify_with_slack`: a resident record with room takes the new bytes. -/
  tryModifyWithSlack : Store → Bytes → Bytes → Bool × Store
  tryModifyWithSlack_eq : ∀ store key value, tryModifyWithSlack store key value = (false, store) ∨
    ((store key).data.isSome ∧ tryModifyWithSlack store key value = (true,
      update store key { store key with data := some ⟨value, .mutable⟩ }))
  /-- The synchronous upsert does what the upsert does, or nothing. -/
  tryUpsertSync : Store → Bytes → Bytes → Option Store
  tryUpsertSync_eq : ∀ store key value after, tryUpsertSync store key value = some after →
    after = upsert store key value
  /-- The synchronous delete does what the delete does, or nothing. -/
  tryDeleteSync : Nat → Store → Bytes → Option (Bool × Store)
  tryDeleteSync_eq : ∀ now store key result, tryDeleteSync now store key = some result →
    result = delete now store key
  /-- `check_object_meta_fast`: `some false` only when no collection metadata is live. -/
  checkObjectMetaFast : Store → Bytes → Option Bool
  checkObjectMetaFast_false : ∀ store key, checkObjectMetaFast store key = some false →
    (store key).liveCollection = none

variable {slot : Slot}

@[simp] theorem Slot.expired_of_ttl_none (absent : slot.ttl = none) (now : Nat) :
    slot.expired now = false := by
  simp [Slot.expired, absent]

theorem Slot.Vacant.expired (vacant : slot.Vacant) (now : Nat) : slot.expired now = false :=
  Slot.expired_of_ttl_none vacant.ttl now

theorem Slot.Vacant.bytes (vacant : slot.Vacant) : slot.bytes = none := by
  simp [Slot.bytes, vacant.data]

theorem Slot.liveCollection_isSome (slot : Slot) :
    slot.liveCollection.isSome =
      slot.collection.any fun metadata => decide (0 < metadata.size) := by
  unfold Slot.liveCollection
  cases slot.collection with
  | none => rfl
  | some metadata => by_cases live : 0 < metadata.size <;> simp [live]

namespace StoreSession

variable (session : StoreSession)

def purge (now : Nat) (store : Store) (key : Bytes) : Store :=
  if (store key).expired now then session.vacate store key else store

variable {store : Store} {key : Bytes} {now : Nat}

theorem purge_of_live (live : (store key).expired now = false) :
    session.purge now store key = store := by
  rw [purge, live]
  rfl

theorem purge_of_expired (expired : (store key).expired now) :
    session.purge now store key = session.vacate store key := by
  rw [purge, expired]
  rfl

theorem read_live (live : (store key).expired now = false) :
    session.read now store key = ((store key).bytes, store) := by
  rw [session.read_eq, live]
  rfl

theorem loadMeta_live (live : (store key).expired now = false) :
    session.loadMeta now store key = ((store key).collection, store) := by
  rw [session.loadMeta_eq, live]
  rfl

variable (now) (store : Store)

theorem purge_other (key other : Bytes) (different : other ≠ key) :
    session.purge now store key other = store other := by
  unfold purge
  split
  · exact session.vacate_other store key other different
  · rfl

variable (key : Bytes)

theorem purge_self_live : (session.purge now store key key).expired now = false := by
  unfold purge
  split
  · exact (session.vacate_self store key).expired now
  · rename_i live
    exact Bool.eq_false_iff.mpr live

theorem purge_purge :
    session.purge now (session.purge now store key) key = session.purge now store key :=
  session.purge_of_live (session.purge_self_live now store key)

theorem read_snd : (session.read now store key).2 = session.purge now store key := by
  rw [session.read_eq, purge]
  split <;> rfl

theorem upsert_self (key value : Bytes) : session.upsert store key value key =
    { store key with data := some ⟨value, .mutable⟩, ttl := none } := by
  rw [session.upsert_eq, update_self]

theorem upsert_other (key value other : Bytes) (different : other ≠ key) :
    session.upsert store key value other = store other := by
  rw [session.upsert_eq, update_of_ne different]

end StoreSession

def Slot.empty : Slot := ⟨none, none, none⟩

theorem Slot.empty_vacant : Slot.empty.Vacant := ⟨rfl, rfl, rfl⟩

def probeRecord {α : Type} (record : Option (Record α)) : Probe α :=
  match record with
  | none => .absent
  | some record => if record.region.resident then .hit record.value else .unknown

/-- An engine that does what is documented and answers every synchronous request it can. -/
def StoreSession.reference : StoreSession where
  vacate store key := update store key Slot.empty
  vacate_self store key := by
    rw [update_self]
    exact Slot.empty_vacant
  vacate_other store key other different := update_of_ne different _ _
  read now store key :=
    if (store key).expired now then (none, update store key Slot.empty)
    else ((store key).bytes, store)
  read_eq _ _ _ := rfl
  loadMeta now store key :=
    if (store key).expired now then (none, update store key Slot.empty)
    else ((store key).collection, store)
  loadMeta_eq _ _ _ := rfl
  upsert store key value :=
    update store key { store key with data := some ⟨value, .mutable⟩, ttl := none }
  upsert_eq _ _ _ := rfl
  delete now store key :=
    (!(store key).expired now && ((store key).data.isSome || (store key).liveCollection.isSome),
      update store key Slot.empty)
  delete_eq _ _ _ := rfl
  containsKey now store key :=
    if (store key).expired now then (false, update store key Slot.empty)
    else ((store key).data.isSome || (store key).liveCollection.isSome, store)
  containsKey_eq _ _ _ := rfl
  ttlOf now store key :=
    if (store key).expired now then (none, update store key Slot.empty)
    else ((store key).ttl.map Record.value, store)
  expireAt _ store key time :=
    update store key { store key with ttl := some ⟨time, .mutable⟩ }
  loadCollectionRaw _ now store key _ :=
    if (store key).expired now then (.ok none, update store key Slot.empty)
    else
      match (store key).liveCollection with
      | some metadata => (.ok (some metadata), store)
      | none => (if (store key).data.isSome then .error () else .ok none, store)
  loadCollectionRaw_string _ now store key _ live absent present := by
    simp [live, absent, present]
  hasTtlTag store key := (store key).ttl.isSome
  hasTtlTag_of_ttl _ _ present := present
  checkExpired now store key :=
    if (store key).expired now then (true, update store key Slot.empty)
    else (false, store)
  checkExpired_eq _ _ _ := rfl
  probeData store key := probeRecord (store key).data
  probeData_resident _ _ _ found resident := by simp [probeRecord, found, resident]
  probeData_cold _ _ _ found cold := by simp [probeRecord, found, cold]
  probeData_none _ _ _ absent := by simp [probeRecord, absent]
  probeTtl store key := probeRecord (store key).ttl
  probeTtl_resident _ _ _ found resident := by simp [probeRecord, found, resident]
  probeTtl_cold _ _ _ found cold := by simp [probeRecord, found, cold]
  probeTtl_none _ _ _ absent := by simp [probeRecord, absent]
  tryModifyInPlace store key edit :=
    match (store key).data with
    | some ⟨value, .mutable⟩ =>
      match edit value with
      | none => (.declined value, store)
      | some edited => (.edited value, update store key
          { store key with data := some ⟨edited, .mutable⟩ })
    | _ => (.skipped, store)
  tryModifyInPlace_mutable _ _ _ _ found := by simp only [found]
  tryModifyInPlace_skipped store key edit outside := by
    split
    · rename_i value found
      exact absurd found (outside value)
    · rfl
  tryModifyWithSlack store _ _ := (false, store)
  tryModifyWithSlack_eq _ _ _ := .inl rfl
  tryUpsertSync store key value := some
    (update store key { store key with data := some ⟨value, .mutable⟩, ttl := none })
  tryUpsertSync_eq _ _ _ _ written := (Option.some.inj written).symm
  tryDeleteSync now store key := some
    (!(store key).expired now && ((store key).data.isSome || (store key).liveCollection.isSome),
      update store key Slot.empty)
  tryDeleteSync_eq _ _ _ _ deleted := (Option.some.inj deleted).symm
  checkObjectMetaFast store key := some (store key).liveCollection.isSome
  checkObjectMetaFast_false _ _ answered := by
    simpa using Option.some.inj answered

def singleton (key : Bytes) (slot : Slot) : Store :=
  fun other => if other = key then slot else Slot.empty

/-- What is stored under a key, regardless of the regions of its records. -/
structure Contents where
  value : Option Bytes
  expireAt : Option Nat
  collection : Option MetaValue

def Contents.empty : Contents := ⟨none, none, none⟩

def Slot.contents (slot : Slot) : Contents :=
  ⟨slot.bytes, slot.ttl.map Record.value, slot.liveCollection⟩

variable (now : Nat)

def Contents.expired (contents : Contents) : Bool :=
  contents.expireAt.any fun time => decide (time ≤ now)

def Contents.visible (contents : Contents) : Contents :=
  if contents.expired now then .empty else contents

theorem Slot.contents_expired (slot : Slot) : slot.contents.expired now = slot.expired now := by
  unfold Slot.contents Contents.expired Slot.expired
  cases slot.ttl <;> rfl

theorem Slot.Vacant.contents {slot : Slot} (vacant : slot.Vacant) : slot.contents = .empty := by
  rw [Slot.contents, vacant.bytes, vacant.ttl, vacant.collection]
  rfl

def logicalStore (store : Store) (key : Bytes) : Contents :=
  (store key).contents.visible now

theorem logicalStore_expired {now : Nat} {store : Store} {key : Bytes}
    (expired : (store key).expired now) : logicalStore now store key = .empty := by
  rw [logicalStore, Contents.visible, Slot.contents_expired, expired]
  rfl

theorem logicalStore_live {now : Nat} {store : Store} {key : Bytes}
    (live : (store key).expired now = false) :
    logicalStore now store key = (store key).contents := by
  rw [logicalStore, Contents.visible, Slot.contents_expired, live]
  rfl

section

variable (session : StoreSession) (store : Store)

theorem contents_vacate (key : Bytes) : (fun other => (session.vacate store key other).contents) =
      update (fun other => (store other).contents) key .empty := by
  funext other
  by_cases same : other = key
  · rw [same, update_self, (session.vacate_self store key).contents]
  · rw [update_of_ne same, session.vacate_other store key other same]

variable (now : Nat) (store : Store)

theorem contents_purge (key : Bytes) :
    (fun other => (session.purge now store key other).contents) =
      update (fun other => (store other).contents) key ((store key).contents.visible now) := by
  rw [Contents.visible, Slot.contents_expired]
  cases expired : (store key).expired now with
  | true =>
    rw [session.purge_of_expired expired]
    exact contents_vacate session store key
  | false =>
    rw [session.purge_of_live expired]
    exact (update_eq_self key _).symm

variable (key value : Bytes)

theorem contents_upsert :
    (fun other => (session.upsert store key value other).contents) =
      update (fun other => (store other).contents) key
        { (store key).contents with value := some value, expireAt := none } := by
  funext other
  by_cases same : other = key
  · rw [same, update_self, session.upsert_self]
    rfl
  · rw [update_of_ne same, session.upsert_other _ _ _ _ same]

theorem contents_upsert_self : (session.upsert store key value key).contents =
      { (store key).contents with value := some value, expireAt := none } := by
  rw [session.upsert_self]
  rfl

theorem logicalStore_purge (key : Bytes) :
    logicalStore now (session.purge now store key) = logicalStore now store := by
  funext other
  obtain rfl | same := eq_or_ne other key
  · rw [logicalStore_live (session.purge_self_live now store other)]
    have purged := congrFun (contents_purge session now store other) other
    rwa [update_self] at purged
  · rw [logicalStore, logicalStore, session.purge_other now store key other same]

theorem logicalStore_upsert_self :
    logicalStore now (session.upsert store key value) key =
      ⟨some value, none, (store key).liveCollection⟩ := by
  have live : (session.upsert store key value key).expired now = false := by
    rw [session.upsert_self]
    exact Slot.expired_of_ttl_none rfl now
  rw [logicalStore_live live, contents_upsert_self]
  rfl

theorem logicalStore_upsert_other (key value other : Bytes) (different : other ≠ key) :
    logicalStore now (session.upsert store key value) other = logicalStore now store other := by
  rw [logicalStore, logicalStore, session.upsert_other _ _ _ _ different]

end

end Wedb.Kv
