/-
The times to live of the fields of a hash, and paging through hashes, sets and sorted sets in
memory. A cursor is a position among the live entries.

Every scan ends at the number of live entries, which is taken to be the number of entries less that
of the expirations that have passed. A hash records expirations of its fields only. ZREM leaves the
expiration of the member it removes, and once that has passed it is counted as a live member less:
the scan ends too early. The exact condition is in terms of these left-over expirations.
-/

import Mathlib.Data.List.AList
import Mathlib.Data.List.Perm.Basic
import Wedb.CollectionScan

namespace Wedb.Hash

structure ExpireOpt where
  nx : Bool := false
  xx : Bool := false
  gt : Bool := false
  lt : Bool := false

def ExpireOpt.refuses (option : ExpireOpt) (expireAtMs : UInt64) : Option UInt64 → Bool
  | some current =>
    option.nx || option.gt && expireAtMs ≤ current || option.lt && current ≤ expireAtMs
  | none => option.xx || option.gt

inductive ExpireResult
  | keyNotFound
  | noExpirationSet
  | expireConditionNotMet
  | ok
  | keyAlreadyExpired

def ExpireResult.code : ExpireResult → Int64
  | .keyNotFound => -2
  | .noExpirationSet => -1
  | .expireConditionNotMet => 0
  | .ok => 1
  | .keyAlreadyExpired => 2

/-- A hash with its expirations, which are there together or empty. Only fields that are there
expire. -/
structure HashObject where
  fields : AList fun _ : Bytes => Bytes := ∅
  times : AList fun _ : Bytes => UInt64 := ∅
  queue : List (UInt64 × Bytes) := []
  recorded : ∀ key ∈ times, key ∈ fields := by simp

namespace HashObject

variable (hash : HashObject) (now : UInt64) (field : Bytes)

def cleanupExpirationIfEmpty : HashObject :=
  if hash.fields.entries = [] ∨ hash.times.entries = [] then { fields := hash.fields } else hash

def remove : HashObject :=
  { hash with
    fields := hash.fields.erase field
    times := hash.times.erase field
    recorded := fun key member => by
      obtain ⟨other, timed⟩ := AList.mem_erase.mp member
      exact AList.mem_erase.mpr ⟨other, hash.recorded key timed⟩ }

def expiredSince : Bool := (hash.times.lookup field).any (· ≤ now)

def checkAndPurgeExpired : Bool × HashObject :=
  if hash.expiredSince now field then (true, (hash.remove field).cleanupExpirationIfEmpty)
  else (false, hash)

def hexpire (expireAtMs : UInt64) (option : ExpireOpt) : ExpireResult × HashObject :=
  let (expired, hash) := hash.checkAndPurgeExpired now field
  if missing : expired ∨ field ∉ hash.fields then (.keyNotFound, hash)
  else if option.refuses expireAtMs (hash.times.lookup field) then (.expireConditionNotMet, hash)
  else if expireAtMs ≤ now then
    (.keyAlreadyExpired, (hash.remove field).cleanupExpirationIfEmpty)
  else
    (.ok, { hash with
      times := hash.times.insert field expireAtMs
      queue := (expireAtMs, field) :: hash.queue
      recorded := fun key member => by
        rcases (AList.mem_insert hash.times).mp member with rfl | timed
        · exact not_not.mp (not_or.mp missing).2
        · exact hash.recorded key timed })

def hexpireat (unixTimeSec : UInt64) (option : ExpireOpt) : ExpireResult × HashObject :=
  hash.hexpire now field (.ofNat (min (unixTimeSec.toNat * 1000) (2 ^ 64 - 1))) option

def hpexpireat (unixTimeMs : UInt64) (option : ExpireOpt) : ExpireResult × HashObject :=
  hash.hexpire now field unixTimeMs option

def query (reply : UInt64 → UInt64) : Int64 × HashObject :=
  let hash := (hash.checkAndPurgeExpired now field).2
  if field ∉ hash.fields then (ExpireResult.keyNotFound.code, hash)
  else
    match hash.times.lookup field with
    | some expireAt =>
      (if expireAt ≤ now then ExpireResult.keyNotFound.code else (reply expireAt).toInt64, hash)
    | none => (ExpireResult.noExpirationSet.code, hash)

def httl : Int64 × HashObject :=
  -- `saturating_sub`
  hash.query now field fun expireAt => expireAt - min expireAt now

def hexpiretime : Int64 × HashObject := hash.query now field (· / 1000)

def hpexpiretime : Int64 × HashObject := hash.query now field id

def live : Option (Option UInt64) :=
  if field ∈ hash.fields ∧ hash.expiredSince now field = false then some (hash.times.lookup field)
  else none

def expected (reply : UInt64 → Nat) : Int :=
  match hash.live now field with
  | none => -2
  | some none => -1
  | some (some expireAt) => reply expireAt

variable {hash now field}

theorem query_toInt (reply : UInt64 → UInt64) : (hash.query now field reply).1.toInt =
    match hash.live now field with
    | none => -2
    | some none => -1
    | some (some expireAt) => (reply expireAt).toInt64.toInt := by
  unfold query live checkAndPurgeExpired
  by_cases expired : hash.expiredSince now field
  · have gone : field ∉ (hash.remove field).cleanupExpirationIfEmpty.fields := by
      unfold cleanupExpirationIfEmpty remove
      split <;> simp
    simp [expired, gone]
    rfl
  · by_cases member : field ∈ hash.fields
    · cases found : hash.times.lookup field with
      | none => simp [expired, member, found, ExpireResult.code]
      | some expireAt =>
        have later : ¬expireAt ≤ now := by simpa [expiredSince, found] using expired
        simp [expired, member, found, later]
    · simp [expired, member, ExpireResult.code]

theorem toInt_toInt64 (value : UInt64) :
    value.toInt64.toInt = value.toNat ↔ value.toNat < 2 ^ 63 := by
  show value.toBitVec.toInt = value.toBitVec.toNat ↔ value.toBitVec.toNat < 2 ^ 63
  rw [BitVec.toInt_eq_toNat_cond]
  split <;> omega

/-- The queries tell what a field is exactly when a live expiry is a positive `i64`. -/
theorem queries_unambiguous_iff (hash : HashObject) (now : UInt64) (field : Bytes) :
    ((hash.httl now field).1.toInt =
          hash.expected now field (fun expireAt => expireAt.toNat - now.toNat) ∧
        (hash.hexpiretime now field).1.toInt =
          hash.expected now field (fun expireAt => expireAt.toNat / 1000) ∧
        (hash.hpexpiretime now field).1.toInt = hash.expected now field UInt64.toNat) ↔
      ∀ expireAt, hash.live now field = some (some expireAt) → expireAt.toNat < 2 ^ 63 := by
  simp only [httl, hexpiretime, hpexpiretime, query_toInt, expected]
  cases known : hash.live now field with
  | none => simp
  | some expiry =>
    cases expiry with
    | none => simp
    | some expireAt =>
      have left : (expireAt - min expireAt now).toNat = expireAt.toNat - now.toNat := by
        change (expireAt - if expireAt ≤ now then expireAt else now).toNat = _
        grind [UInt64.le_iff_toNat_le, UInt64.toNat_sub_of_le]
      have seconds : (expireAt / 1000).toNat = expireAt.toNat / 1000 := UInt64.toNat_div _ _
      refine ⟨fun told other same => ?_, fun small => ?_⟩
      · cases same
        exact (toInt_toInt64 expireAt).mp told.2.2
      · have small := small expireAt rfl
        dsimp only
        rw [← left, ← seconds]
        exact ⟨(toInt_toInt64 _).mpr (by omega), (toInt_toInt64 _).mpr (by omega),
          (toInt_toInt64 _).mpr small⟩

/-- A field that expires at the last moment there is seems to have no expiry. -/
theorem hpexpiretime_last :
    let field : Bytes := [102]
    let last : UInt64 := 18446744073709551615
    let hash := (hpexpireat { fields := .singleton field [49] } 0 field last {}).2
    hash.live 0 field = some (some last) ∧ (hash.hpexpiretime 0 field).1 = -1 := by
  decide

end HashObject

end Wedb.Hash

namespace Wedb.Objects

open List

variable {α β : Type}

/-- The loop of `zscan_borrowed` over all entries. -/
def zscanLoop (expired found : α → Bool) (limit cursor : Nat) :
    List α → Nat → List α → Nat × List α
  | [], index, items => (index, items)
  | entry :: rest, index, items =>
    if expired entry then zscanLoop expired found limit cursor rest index items
    else if index < cursor then zscanLoop expired found limit cursor rest (index + 1) items
    else
      let items := if found entry then items ++ [entry] else items
      if limit ≤ items.length then (index + 1, items)
      else zscanLoop expired found limit cursor rest (index + 1) items

variable {found expired : α → Bool} {limit cursor : Nat}

theorem zscanLoop_eq (list items : List α) (index : Nat) (room : items.length < limit)
    (inside : cursor - index ≤ (list.filter (!expired ·)).length) :
    zscanLoop expired found limit cursor list index items =
      (fill found limit ((list.filter (!expired ·)).drop (cursor - index)) (max index cursor)
        items).2 := by
  induction list generalizing index items with
  | nil => grind [zscanLoop, fill]
  | cons entry rest ih =>
    rw [zscanLoop]
    by_cases gone : expired entry
    · simp_all
    rw [filter_cons_of_pos (by simpa using gone)] at inside ⊢
    by_cases early : index < cursor
    · obtain ⟨skip, eq⟩ : ∃ skip, cursor - index = skip + 1 := ⟨cursor - index - 1, by omega⟩
      have next := ih items (index + 1) room
      grind
    · have next := fun items room => ih items (index + 1) room (by omega)
      rw [Nat.sub_eq_zero_of_le (by omega)] at next ⊢
      rw [max_eq_left (by omega)] at next ⊢
      grind [fill]

section

variable (entries : AList fun _ : Bytes => β) (times : AList fun _ : Bytes => UInt64)
  (now : UInt64)

/-- The entries that have not expired, in the order of the iteration. -/
def live : List (Sigma fun _ : Bytes => β) :=
  entries.entries.filter fun entry => !(times.lookup entry.1).any (· ≤ now)

def lenAt : Nat := entries.entries.length - (times.entries.filter (·.2 ≤ now)).length

/-- The expirations that have passed and belong to no entry. -/
def ghosts : Nat :=
  (times.entries.filter fun time => time.1 ∉ entries ∧ time.2 ≤ now).length

variable {entries times} in
theorem ghosts_eq_zero (recorded : ∀ key ∈ times, key ∈ entries) :
    ghosts entries times now = 0 := by
  refine length_eq_zero_iff.mpr (filter_eq_nil_iff.mpr fun time inside => ?_)
  simp [recorded time.1 (mem_keys_of_mem inside)]

theorem lenAt_eq :
    lenAt entries times now = (live entries times now).length - ghosts entries times now := by
  have expired : (entries.entries.filter fun entry =>
      (times.lookup entry.1).any (· ≤ now)).map Sigma.fst ~
        (times.entries.filter fun time => time.1 ∈ entries ∧ time.2 ≤ now).map Sigma.fst := by
    refine (perm_ext_iff_of_nodup ((filter_sublist.map _).nodup entries.nodupKeys)
      ((filter_sublist.map _).nodup times.nodupKeys)).mpr fun key => ?_
    simp only [mem_map, mem_filter, decide_eq_true_eq]
    constructor
    · rintro ⟨entry, ⟨held, passed⟩, rfl⟩
      cases found : times.lookup entry.1 with
      | none => simp [found] at passed
      | some time =>
        rw [found] at passed
        exact ⟨⟨entry.1, time⟩, ⟨AList.mem_lookup_iff.mp found, mem_keys_of_mem held,
          of_decide_eq_true passed⟩, rfl⟩
    · rintro ⟨time, ⟨inside, held, passed⟩, rfl⟩
      obtain ⟨value, held⟩ := mem_keys.mp held
      refine ⟨⟨time.1, value⟩, ⟨held, ?_⟩, rfl⟩
      rw [AList.mem_lookup_iff.mpr inside]
      exact decide_eq_true passed
  have count := expired.length_eq
  rw [length_map, length_map] at count
  have total := length_eq_length_filter_add (l := entries.entries) fun entry =>
    (times.lookup entry.1).any (· ≤ now)
  have passed := length_eq_length_filter_add (l := times.entries.filter (·.2 ≤ now)) fun time =>
    decide (time.1 ∈ entries)
  simp only [filter_filter, ← Bool.decide_and, ← decide_not] at passed
  unfold lenAt live ghosts
  omega

end

structure SetObject where
  members : List Bytes
  nodup : members.Nodup

/-- The scores and expirations of a sorted set. The skip list and the queue of expirations are left
out, which a scan does not read. -/
structure SortedSetObject (Score : Type) where
  dict : AList fun _ : Bytes => Score
  times : AList fun _ : Bytes => UInt64 := ∅

namespace SortedSetObject

variable {Score : Type} (zset : SortedSetObject Score) (now : UInt64) (member : Bytes)

def isExpiredAt : Bool := (zset.times.lookup member).any (· ≤ now)

def remove : SortedSetObject Score := ⟨zset.dict.erase member, zset.times.erase member⟩

def purgeExpiredAt : Bool × SortedSetObject Score :=
  if zset.isExpiredAt now member then (true, zset.remove member) else (false, zset)

def zexpire (expireAtMs : UInt64) (option : Hash.ExpireOpt) :
    Hash.ExpireResult × SortedSetObject Score :=
  let (expired, zset) := zset.purgeExpiredAt now member
  if expired ∨ member ∉ zset.dict then (.keyNotFound, zset)
  else if option.refuses expireAtMs (zset.times.lookup member) then (.expireConditionNotMet, zset)
  else if expireAtMs ≤ now then (.keyAlreadyExpired, zset.remove member)
  else (.ok, { zset with times := zset.times.insert member expireAtMs })

/-- `zrem`. The expiration of a member that is live stays. -/
def zrem : List Bytes → SortedSetObject Score → Nat × SortedSetObject Score
  | [], zset => (0, zset)
  | member :: rest, zset =>
    let (expired, zset) := zset.purgeExpiredAt now member
    if expired ∨ member ∉ zset.dict then zrem rest zset
    else
      let (removed, zset) := zrem rest { zset with dict := zset.dict.erase member }
      (removed + 1, zset)

end SortedSetObject

variable (glob : Bytes → Bytes → Bool) (pattern : Option Bytes) (count : Nat) (now : UInt64)

def matchesKey (key : Bytes) : Bool := pattern.all (glob · key)

/-- A page that ends at the end of the entries is the last one. -/
def hscanBorrowed (hash : Hash.HashObject) (cursor : Nat) :
    Nat × List (Sigma fun _ : Bytes => Bytes) :=
  let total := lenAt hash.fields hash.times now
  if total ≤ cursor then (0, [])
  else
    let (full, position, items) := fill (fun entry => matchesKey glob pattern entry.1)
      (Redis.scanLimit count) ((live hash.fields hash.times now).drop cursor) cursor []
    (if full then nextCursor total position else 0, items)

def sscanRef (set : SetObject) (cursor : Nat) : Nat × List Bytes :=
  let total := set.members.length
  if total ≤ cursor then (0, [])
  else
    let (_, position, items) := fill (matchesKey glob pattern) (Redis.scanLimit count)
      (set.members.drop cursor) cursor []
    (nextCursor total position, items)

def zscanBorrowed {Score : Type} (zset : SortedSetObject Score) (cursor : Nat) :
    Nat × List (Sigma fun _ : Bytes => Score) :=
  let total := lenAt zset.dict zset.times now
  if total ≤ cursor then (0, [])
  else
    let (index, items) := zscanLoop (fun entry => zset.isExpiredAt now entry.1)
      (fun entry => matchesKey glob pattern entry.1) (Redis.scanLimit count) cursor
      zset.dict.entries 0 []
    (nextCursor total index, items)

variable {Score : Type} (zset : SortedSetObject Score)

/-- A page within the supposed number of live entries is filled from those behind its cursor. -/
theorem zscanBorrowed_page {cursor : Nat} (inside : cursor < lenAt zset.dict zset.times now) :
    let page := fill (fun entry => matchesKey glob pattern entry.1) (Redis.scanLimit count)
      ((live zset.dict zset.times now).drop cursor) cursor []
    zscanBorrowed glob pattern count now zset cursor =
      (nextCursor (lenAt zset.dict zset.times now) page.2.1, page.2.2) := by
  have early : cursor ≤ (live zset.dict zset.times now).length := by
    rw [lenAt_eq] at inside
    omega
  unfold zscanBorrowed
  rw [if_neg (Nat.not_le_of_lt inside), zscanLoop_eq _ _ _ (Redis.scanLimit_pos count) early,
    Nat.zero_max]
  rfl

/-- Pages of one entry have fewer entries than are live if left-over expirations are counted. -/
theorem zscan_loses (counted : ghosts zset.dict zset.times now ≠ 0)
    (nonempty : live zset.dict zset.times now ≠ []) (calls : Nat) :
    scanAll (zscanBorrowed glob none 1 now zset) calls 0 ≠
      some (live zset.dict zset.times now) := by
  intro collected
  have total := lenAt_eq zset.dict zset.times now
  have more := length_pos_iff.mpr nonempty
  have few : (live zset.dict zset.times now).length ≤ lenAt zset.dict zset.times now - 0 := by
    have past : ∀ cursor, lenAt zset.dict zset.times now ≤ cursor →
        zscanBorrowed glob none 1 now zset cursor = (0, []) := fun _ past => if_pos past
    refine length_scanAll_le past (fun cursor inside => ?_) collected
    have here : cursor < (live zset.dict zset.times now).length := by omega
    rw [zscanBorrowed_page glob none 1 now zset inside, drop_eq_getElem_cons here]
    simp only [fill, matchesKey, Redis.scanLimit, nextCursor]
    grind
  omega

theorem zscan_once_iff :
    (∀ pattern count, ∃ calls, scanAll (zscanBorrowed glob pattern count now zset) calls 0 =
        some ((live zset.dict zset.times now).filter fun entry =>
          matchesKey glob pattern entry.1)) ↔
      ghosts zset.dict zset.times now = 0 ∨ live zset.dict zset.times now = [] := by
  constructor
  · intro once
    by_contra lost
    obtain ⟨counted, nonempty⟩ := not_or.mp lost
    obtain ⟨calls, collected⟩ := once none 1
    refine zscan_loses glob now zset counted nonempty calls (collected.trans ?_)
    simp [matchesKey]
  · intro right pattern count
    refine (windows_fill (Redis.scanLimit_pos count) fun cursor => ?_).once
    have total := lenAt_eq zset.dict zset.times now
    have same : lenAt zset.dict zset.times now = (live zset.dict zset.times now).length := by
      rcases right with none | empty
      · omega
      · rw [total, empty, length_nil, Nat.zero_sub]
    by_cases past : lenAt zset.dict zset.times now ≤ cursor
    · exact .inl ⟨by omega, if_pos past⟩
    · have page := zscanBorrowed_page glob pattern count now zset (Nat.lt_of_not_le past)
      refine .inr ⟨_, _, _, rfl, ?_, .inl ?_⟩
      · rw [page]
      · rw [page, same]

/-- Iterations from zero end and have every live entry that matches, in order and once: of a hash
and a set always, of a sorted set exactly when it has no live entry or no left-over expiration that
has passed. -/
theorem scans_once :
    (∀ (hash : Hash.HashObject) pattern count,
      ∃ calls, scanAll (hscanBorrowed glob pattern count now hash) calls 0 =
        some ((live hash.fields hash.times now).filter fun entry =>
          matchesKey glob pattern entry.1)) ∧
    (∀ (set : SetObject) pattern count, ∃ calls,
      scanAll (sscanRef glob pattern count set) calls 0 =
        some (set.members.filter (matchesKey glob pattern))) ∧
    ∀ zset : SortedSetObject Score,
      (∀ pattern count, ∃ calls, scanAll (zscanBorrowed glob pattern count now zset) calls 0 =
        some ((live zset.dict zset.times now).filter fun entry =>
          matchesKey glob pattern entry.1)) ↔
      ghosts zset.dict zset.times now = 0 ∨ live zset.dict zset.times now = [] := by
  have positive := Redis.scanLimit_pos
  refine ⟨fun hash pattern count => (windows_fill (positive count) fun cursor => ?_).once,
    fun set pattern count => (windows_fill (positive count) fun cursor => ?_).once,
    zscan_once_iff glob now⟩
  · unfold hscanBorrowed
    rw [lenAt_eq, ghosts_eq_zero now hash.recorded]
    grind
  · unfold sscanRef
    grind

/-- Three members, of which the last gets an expiration and is removed: once that has passed, a scan
in pages of one ends after the first of the two that are left. -/
theorem zscan_after_zrem :
    let entries : SortedSetObject Unit :=
      { dict := ((AList.singleton [99] ()).insert [98] ()).insert [97] () }
    let zset := ((entries.zexpire 0 [99] 5 {}).2.zrem 0 [[99]]).2
    live zset.dict zset.times 5 = [⟨[97], ()⟩, ⟨[98], ()⟩] ∧
      zscanBorrowed (fun _ _ => true) none 1 5 zset 0 = (0, [⟨[97], ()⟩]) := by
  decide

end Wedb.Objects
